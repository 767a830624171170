import GridStream.Command.Summary
import GridStream.Proofs.Config.Merge

/-!
# The layers that the program makes itself

The defaults, the environment and the options of the command line are layers, and each of them sets
the keys that it has a value for and no others (`Config.given_environmentLayer`,
`Command.SummaryRequest.given_overrides`).
-/

namespace GridStream
open Entries

/-! ## Lists of fields -/

section
variable {α : Type} {f : α → Option Value} {field : α → String} {l : List α}

/-- The entries for those fields that have a value. -/
def Entries.ofFields (field : α → String) (f : α → Option Value) (l : List α) : Mapping :=
  l.filterMap fun a => (f a).map fun v => (.text (field a), v)

theorem Entries.distinct_ofFields (h : l.Pairwise fun a b => field a ≠ field b) :
    Distinct (ofFields field f l) where
  isKey e he := by
    obtain ⟨a, -, ha⟩ := List.mem_filterMap.1 he
    obtain ⟨v, -, rfl⟩ := Option.map_eq_some_iff.1 ha
    simp [Value.isKey]
  pairwise := by
    refine List.pairwise_filterMap.2 (h.imp fun hne e he e' he' => ?_)
    obtain ⟨v, -, rfl⟩ := Option.map_eq_some_iff.1 he
    obtain ⟨v', -, rfl⟩ := Option.map_eq_some_iff.1 he'
    simpa [Value.same] using hne

/-- Entries under different texts. -/
theorem Entries.distinct_of_texts (l : List (String × Value))
    (h : l.Pairwise fun a b => a.1 ≠ b.1) :
    Distinct (l.map fun e => (Value.text e.1, e.2)) := by
  have hd : Distinct (ofFields Prod.fst (fun e => some e.2) l) := distinct_ofFields h
  simpa only [ofFields, Option.map_some, List.filterMap_eq_map'] using hd

theorem Entries.get?_ofFields (h : l.Pairwise fun a b => field a ≠ field b) (key : Value) :
    Mapping.get? (ofFields field f l) key =
      (l.find? fun a => (Value.text (field a)).same key).bind f := by
  induction l with
  | nil => rfl
  | cons a l ih =>
    rw [List.pairwise_cons] at h
    have hi := ih h.2
    rw [Mapping.get?_eq, ofFields] at hi ⊢
    rw [List.filterMap_cons, List.find?_cons]
    by_cases hs : (Value.text (field a)).same key = true
    · have hplain : (Value.text (field a)).Plain := trivial
      obtain rfl := hplain.same_iff.1 hs
      rw [hs]
      cases hv : f a with
      | some v => simp [get?_cons, hs, hv]
      | none =>
        -- No field behind has the same name.
        have hnone : l.find? (fun b => (Value.text (field b)).same (.text (field a))) = none :=
          List.find?_eq_none.2 fun b hb => by simpa [Value.same] using (h.1 b hb).symm
        simp [hv, hi, hnone]
    · rw [Bool.not_eq_true] at hs
      cases hv : f a with
      | some v => simp [get?_cons, hs, hi]
      | none => simp [hs, hi]

end

namespace Config

theorem isComplete_defaults : IsComplete defaults := by
  have hi : Distinct (part defaults inputKey) :=
    distinct_of_texts [("path_template", _), ("start_date", _), ("end_date", _),
      ("record_interval", _), ("file_interval", _), ("date_format", _)] (by simp)
  have hp : Distinct (part defaults processingKey) :=
    distinct_of_texts [("log_level", _), ("log_file", _), ("report_progress", _)] (by simp)
  have hsection : ∀ name ∈ sectionKeys, ∃ entries, defaults.get? name = some (.map entries) ∧
      Distinct entries := fun name hn => by
    simp only [sectionKeys, List.mem_cons, List.not_mem_nil, or_false] at hn
    rcases hn with rfl | rfl | rfl
    · exact ⟨_, rfl, hi⟩
    · exact ⟨_, rfl, hp⟩
    · exact ⟨_, rfl, .nil⟩
  refine ⟨⟨?_, fun name hn v hv => ?_⟩, fun name hn => ?_⟩
  · exact distinct_of_texts [("input", _), ("processing", _), ("species_groups", _)] (by simp)
  · obtain ⟨entries, hd, he⟩ := hsection name hn
    exact ⟨entries, Option.some.inj (hv.symm.trans hd), he⟩
  · obtain ⟨entries, hd, -⟩ := hsection name hn
    rw [hd]
    rfl

/-! ## Layers of two sections -/

section
variable {input processing : Mapping}

/-- A layer with the given sections. Those that are empty are left out. -/
def ofSections (input processing : Mapping) : Mapping :=
  Command.givenSection inputKey input ++ Command.givenSection processingKey processing

theorem part_inputKey : part (ofSections input processing) inputKey = input := by
  cases input <;> cases processing <;> rfl

theorem part_processingKey : part (ofSections input processing) processingKey = processing := by
  cases input <;> cases processing <;> rfl

theorem part_groupsKey_ofSections : part (ofSections input processing) groupsKey = [] := by
  cases input <;> cases processing <;> rfl

private theorem ofSections_eq : ofSections input processing =
    ofFields Prod.fst (fun s => if s.2.isEmpty then none else some (.map s.2))
      [("input", input), ("processing", processing)] := by
  cases input <;> cases processing <;> rfl

theorem isLayer_ofSections (hi : Distinct input) (hp : Distinct processing) :
    IsLayer (ofSections input processing) := by
  have hne : [("input", input), ("processing", processing)].Pairwise fun a b => a.1 ≠ b.1 := by
    simp
  rw [ofSections_eq]
  refine ⟨distinct_ofFields hne, fun name _ v hv => ?_⟩
  rw [get?_ofFields hne, Option.bind_eq_some_iff] at hv
  obtain ⟨s, hs, hv⟩ := hv
  have hmem := List.mem_of_find?_eq_some hs
  simp only [List.mem_cons, List.not_mem_nil, or_false] at hmem
  split at hv
  · cases hv
  · cases hv
    rcases hmem with rfl | rfl
    · exact ⟨_, rfl, hi⟩
    · exact ⟨_, rfl, hp⟩

end

section
variable {α : Type} {l : List α} {place : α → Value} {field : α → String} {f : α → Option Value}
  {name : Value}

/-- The layer of what a table has a value for, each in its section and under its field. -/
def ofTable (place : α → Value) (field : α → String) (f : α → Option Value) (l : List α) :
    Mapping :=
  ofSections (ofFields field f (l.filter fun a => (place a).same inputKey))
    (ofFields field f (l.filter fun a => (place a).same processingKey))

theorem isLayer_ofTable (h : l.Pairwise fun a b => field a ≠ field b) :
    IsLayer (ofTable place field f l) :=
  isLayer_ofSections (distinct_ofFields (h.filter _)) (distinct_ofFields (h.filter _))

/-- The first line of the table that is about a key decides. -/
theorem given_ofTable (h : l.Pairwise fun a b => field a ≠ field b)
    (hn : name ∈ [inputKey, processingKey]) (key : Value) :
    given (ofTable place field f l) name key =
      (l.find? fun a => (place a).same name && (Value.text (field a)).same key).bind f := by
  have hpart : part (ofTable place field f l) name =
      ofFields field f (l.filter fun a => (place a).same name) := by
    simp only [List.mem_cons, List.not_mem_nil, or_false] at hn
    rcases hn with rfl | rfl
    · exact part_inputKey
    · exact part_processingKey
  rw [given, hpart, get?_ofFields (h.filter _), List.find?_filter]
  simp only [Bool.decide_and, Bool.decide_eq_true]

end

/-! ## The environment -/

/-- The value that the environment has for a key of a section, if one of its names stands for the
key. -/
def environmentSets (environment : List (String × String)) (name key : Value) : Option Value :=
  (environmentNames.find? fun n => n.2.1.same name && (Value.text n.2.2).same key).bind fun n =>
    (environment.find? (·.1 == n.1)).map fun e => environmentValue e.2

variable {environment : List (String × String)} {name : Value}

theorem environmentNames_pairwise : environmentNames.Pairwise fun a b => a.2.2 ≠ b.2.2 := by
  decide

theorem environmentSection_eq (key : Value) : environmentSection environment key =
    ofFields (·.2.2)
      (fun n => (environment.find? (·.1 == n.1)).map fun e => environmentValue e.2)
      (environmentNames.filter (·.2.1.same key)) := by
  rw [ofFields, List.filterMap_filter]
  unfold environmentSection
  congr 1
  funext n
  split
  simp [Option.map_map, Function.comp_def]

theorem environmentLayer_eq : environmentLayer environment =
    ofTable (·.2.1) (·.2.2)
      (fun n => (environment.find? (·.1 == n.1)).map fun e => environmentValue e.2)
      environmentNames := by
  unfold environmentLayer ofTable ofSections Command.givenSection
  simp only [List.filterMap_cons, List.filterMap_nil, ← environmentSection_eq]
  cases environmentSection environment inputKey <;>
    cases environmentSection environment processingKey <;> rfl

theorem isLayer_environmentLayer : IsLayer (environmentLayer environment) :=
  environmentLayer_eq ▸ isLayer_ofTable environmentNames_pairwise

theorem map?_environmentValue (s : String) : (environmentValue s).map? = none := by
  unfold environmentValue
  split
  · rfl
  · split <;> rfl

/-- The environment sets the keys that one of its names stands for. -/
theorem given_environmentLayer (hn : name ∈ [inputKey, processingKey]) (key : Value) :
    given (environmentLayer environment) name key = environmentSets environment name key := by
  rw [environmentLayer_eq, given_ofTable environmentNames_pairwise hn, environmentSets]

theorem part_groupsKey_environmentLayer : part (environmentLayer environment) groupsKey = [] := by
  rw [environmentLayer_eq, ofTable, part_groupsKey_ofSections]

end Config

/-! ## The command line -/

namespace Command.SummaryRequest
open Config

/-- The options of a request that set something, each with the section and key that it sets. -/
def options (r : SummaryRequest) : List (Value × String × Value) :=
  [(inputKey, "path_template", r.template), (inputKey, "start_date", r.start),
    (inputKey, "end_date", r.stop), (inputKey, "record_interval", r.record),
    (inputKey, "file_interval", r.file), (processingKey, "log_level", r.logLevel),
    (processingKey, "log_file", r.logFile)]

/-- The value of an option that was given. -/
def notNull? : Value → Option Value
  | .null => none
  | v => some v

/-- The value that the command line has for a key of a section, if an option that was given stands
for the key. -/
def sets (r : SummaryRequest) (name key : Value) : Option Value :=
  (r.options.find? fun o => o.1.same name && (Value.text o.2.1).same key).bind (notNull? ·.2.2)

variable {r : SummaryRequest} {name : Value}

theorem options_pairwise : r.options.Pairwise fun a b => a.2.1 ≠ b.2.1 := by
  simp [options]

theorem overrides_eq : r.overrides = ofTable (·.1) (·.2.1) (notNull? ·.2.2) r.options := by
  have hentries : ∀ l, givenEntries l = ofFields Prod.fst (notNull? ·.2) l := fun l => by
    unfold givenEntries ofFields
    congr 1
    funext e
    obtain ⟨field, v⟩ := e
    cases v <;> rfl
  unfold overrides
  rw [hentries, hentries]
  rfl

theorem isLayer_overrides (r : SummaryRequest) : IsLayer r.overrides :=
  overrides_eq ▸ isLayer_ofTable options_pairwise

/-- The command line sets the keys of the options that were given. -/
theorem given_overrides (r : SummaryRequest) (hn : name ∈ [inputKey, processingKey]) (key : Value) :
    given r.overrides name key = r.sets name key := by
  rw [overrides_eq, given_ofTable options_pairwise hn, sets]

end Command.SummaryRequest

end GridStream
