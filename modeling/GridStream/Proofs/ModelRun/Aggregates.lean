import GridStream.Proofs.Command.Listing
import GridStream.Proofs.Grid.Sums
import GridStream.Proofs.Producer.Members
import GridStream.Proofs.SpeciesGroup

/-!
# The sums of species groups

The producer of a species group asks a leaf of its own for each member, in the order of the members,
and adds up what they give, each grid with the weight of its own member. Either all members are read
and the grids agree in shape, or there is no sum and the producer is halted
(`ModelRun.group_aggregates`).
-/

namespace GridStream

open Producer

/-! ## Accepted groups -/

/-- A group that was accepted with its members one by one, or as a mapping. -/
def SpeciesGroup.Accepted (g : SpeciesGroup) : Prop :=
  (∃ name members units, ofMembers? name members units = .ok g) ∨
    ∃ name weights units, ofValue? name weights units = .ok g

theorem SpeciesGroup.Accepted.readable {g : SpeciesGroup} (h : g.Accepted) : g.Readable := by
  rcases h with ⟨name, members, units, h⟩ | ⟨name, weights, units, h⟩
  · unfold ofMembers? at h
    split at h
    · exact readable_of_make? h
    · obtain ⟨_, -, h⟩ := Attempt.bind_eq_ok.1 h
      cases h
  · exact readable_of_ofValue? h

namespace ModelRun

variable {run : ModelRun} {g : SpeciesGroup} {s : Source} {v w : World} {p : Producer}
  {t : Instant} {key : Nat} {first : Leaf} {others : List Leaf}

/-- One leaf for each of some variables, with the slots behind those that are there. -/
def leavesOf (run : ModelRun) (w : World) (names : List String) : List Leaf :=
  (names.zipIdx w.slots.size).map fun e => ⟨e.2, e.1, run.window⟩

theorem leavesOf_cons (name : String) (names : List String) : run.leavesOf w (name :: names) =
    ⟨w.slots.size, name, run.window⟩ :: run.leavesOf (run.read w name).2 names := by
  have hsize : (run.read w name).2.slots.size = w.slots.size + 1 := Array.size_push _
  rw [leavesOf, leavesOf, hsize, List.zipIdx_cons, List.map_cons]

theorem fst_readAll (run : ModelRun) (w : World) (names : List String) :
    (run.readAll w names).1 = (run.leavesOf w names).map Leaf.producer := by
  induction names generalizing w with
  | nil => rfl
  | cons name names ih =>
    rw [leavesOf_cons, List.map_cons, ← ih]
    rfl

theorem names_leavesOf (run : ModelRun) (w : World) (names : List String) :
    (run.leavesOf w names).map Leaf.name = names := by
  rw [leavesOf, List.map_map]
  exact List.zipIdx_map_fst _ _

theorem window_leavesOf {names : List String} {l : Leaf} (hl : l ∈ run.leavesOf w names) :
    l.window = run.window := by
  obtain ⟨e, -, rfl⟩ := List.mem_map.1 hl
  rfl

/-- The producer of a group with members has one leaf for each of them. -/
theorem exists_ofLeaves (run : ModelRun) (v : World) (hg : g.memberNames ≠ []) :
    ∃ key first others w, first :: others = run.leavesOf v g.memberNames ∧
      run.readGroup v g = .ok (ofLeaves key g.name (.weighted g.weights) first others, w) := by
  have hinputs := run.fst_readAll v g.memberNames
  have hnames := run.names_leavesOf v g.memberNames
  cases hl : run.leavesOf v g.memberNames with
  | nil =>
    rw [hl] at hnames
    exact absurd hnames.symm hg
  | cons first others =>
    rcases hr : run.readAll v g.memberNames with ⟨inputs, w⟩
    rw [hr, hl] at hinputs
    obtain rfl : inputs = (first :: others).map Leaf.producer := hinputs
    exact ⟨w.slots.size, first, others, _, rfl, by rw [readGroup, hr]; rfl⟩

/-! ## What a pull comes to -/

/-- What the pull of a group for the records at a time comes to. -/
structure Aggregates (run : ModelRun) (g : SpeciesGroup) (s : Source) (p : Producer) (t : Instant)
    (w : World) : Prop where
  /-- Records of one shape are added up cell by cell from the left, each with the weight of its own
  member. -/
  sum : ∀ (grid : String → Grid) (shape : List Nat), (∀ name ∈ g.memberNames,
      s.answerAt name run.window t = .ok (grid name) ∧ (grid name).shape = shape) →
    ∃ total w', p.pull s w = (.item total, w') ∧ p.Delivered s t w w' ∧ total.shape = shape ∧
      ∀ cell, Inside shape cell → ∃ x : String → Float,
        (∀ name ∈ g.memberNames, (grid name).at? cell = some (x name)) ∧
        total.at? cell = some (g.members.foldl (fun sum m => sum + m.2.toFloat * x m.1) 0.0)
  /-- Records that differ in shape are not added up. -/
  mismatch : ∀ grid : String → Grid,
    (∀ name ∈ g.memberNames, s.answerAt name run.window t = .ok (grid name)) →
    (∃ a ∈ g.memberNames, ∃ b ∈ g.memberNames, (grid a).shape ≠ (grid b).shape) →
    ∃ f w', p.pull s w = (.failed f, w') ∧ p.halted w' = true ∧ f.kind = .shapeMismatch ∧
      checkShapes g.name (g.memberNames.map .text) (g.memberNames.map fun a => (grid a).shape) =
        .error f ∧
      w'.steps = w.steps ++ .pulled p.key :: p.leaves.map fun l => .pulled l.key
  /-- A member without a record makes the pull fail with what the first such member fails with. The
  members behind it are not asked. -/
  unreadable : (∃ name ∈ g.memberNames, ∃ f, s.answerAt name run.window t = .error f) →
    ∃ before name after f w', g.memberNames = before ++ name :: after ∧
      (∀ a ∈ before, ∃ grid, s.answerAt a run.window t = .ok grid) ∧
      s.answerAt name run.window t = .error f ∧
      p.pull s w = (.failed f, w') ∧ p.halted w' = true ∧
      w'.steps = w.steps ++ .pulled p.key ::
        (p.leaves.take (before.length + 1)).map fun l => .pulled l.key

/-- Grids of one shape are added up whatever the time is. -/
theorem exists_derive_weighted {grid : String → Grid} {shape : List Nat} (hne : g.members ≠ [])
    (hs : ∀ name ∈ g.memberNames, (grid name).shape = shape) (inputs : List Value) : ∃ total,
      (∀ time, (Rule.weighted g.weights).derive g.name time inputs (g.memberNames.map grid) =
        .ok total) ∧
      total.shape = shape ∧ ∀ cell, Inside shape cell → ∃ x : String → Float,
        (∀ name ∈ g.memberNames, (grid name).at? cell = some (x name)) ∧
        total.at? cell =
          some (g.members.foldl (fun sum m => sum + m.2.toFloat * x m.1) 0.0) := by
  have hmem : ∀ m ∈ g.members, m.1 ∈ g.memberNames := fun m hm => List.mem_map_of_mem hm
  have hgrids : g.memberNames.map grid = g.members.map fun m => grid m.1 := List.map_map
  obtain ⟨total, hsum, hshape, hcells⟩ := Grid.exists_weightedSum (fun m => m.2.toFloat)
    (fun m => grid m.1) hne fun m hm => hs m.1 (hmem m hm)
  have hcheck : checkShapes g.name inputs ((g.memberNames.map grid).map (·.shape)) = .ok () := by
    simp only [checkShapes_eq_ok, List.forall_mem_map]
    exact fun a ha b hb => (hs a ha).trans (hs b hb).symm
  refine ⟨total, fun time => ?_, hshape, fun cell hin => ?_⟩
  · have hweights : Grid.weightedSum g.weights (g.memberNames.map grid) = .ok total :=
      hgrids ▸ hsum
    simp only [Rule.derive, hcheck, Rule.apply, hweights]
    rfl
  · have hsome : ∀ name ∈ g.memberNames, ∃ y, (grid name).at? cell = some y := fun name hm =>
      Option.isSome_iff_exists.1 (Grid.isSome_at?.2 (hs name hm ▸ hin))
    choose! x hx using hsome
    exact ⟨x, hx, hcells cell (fun m => x m.1) hin fun m hm => hx m.1 (hmem m hm)⟩

theorem kind_of_checkShapes {target : Value} {names : List Value} {shapes : List (List Nat)}
    {f : Failure} (h : checkShapes target names shapes = .error f) : f.kind = .shapeMismatch := by
  unfold checkShapes at h
  split at h
  · cases h
  · cases h
    rfl

/-- A producer that has not failed and whose leaves, one for each member, stand at the time. -/
theorem aggregates_of_readyAt (hg : g.members ≠ [])
    (hnames : (first :: others).map Leaf.name = g.memberNames)
    (hwindow : ∀ l ∈ first :: others, l.window = run.window) (ht : t < run.window.stop)
    (h : (ofLeaves key g.name (.weighted g.weights) first others).ReadyAt s t w) :
    run.Aggregates g s (ofLeaves key g.name (.weighted g.weights) first others) t w := by
  have hstop : ∀ l ∈ first :: others, t < l.window.stop := fun l hl => by
    rw [hwindow l hl]
    exact ht
  have hanswers : ∀ grid : String → Grid,
      (∀ name ∈ g.memberNames, s.answerAt name run.window t = .ok (grid name)) →
      ∀ l ∈ first :: others, s.answerAt l.name l.window t = .ok (grid l.name) :=
    fun grid hgrid l hl => by
      rw [hwindow l hl]
      exact hgrid _ (hnames ▸ List.mem_map_of_mem hl)
  have hmap : ∀ {α : Type} (f : String → α),
      ((first :: others).map fun l => f l.name) = g.memberNames.map f := fun f => by
    rw [← hnames, List.map_map]
    rfl
  refine ⟨fun grid shape hgrid => ?sum, fun grid hgrid hne => ?mismatch, fun hne => ?unreadable⟩
  case sum =>
    obtain ⟨total, htotal, hshape, hcells⟩ :=
      exists_derive_weighted hg (fun name hm => (hgrid name hm).2) (g.memberNames.map .text)
    obtain ⟨w', hpull, hdelivered⟩ := pull_of_derive h hstop
      (hanswers grid fun name hm => (hgrid name hm).1) fun time => by
        rw [hmap, hmap]
        exact htotal time
    exact ⟨total, w', hpull, hdelivered, hshape, hcells⟩
  case mismatch =>
    cases hc : checkShapes g.name (g.memberNames.map .text)
        (g.memberNames.map fun a => (grid a).shape) with
    | ok u =>
      obtain ⟨a, ha, b, hb, hshape⟩ := hne
      exact absurd (checkShapes_eq_ok.1 hc _ (List.mem_map_of_mem ha) _ (List.mem_map_of_mem hb))
        hshape
    | error f =>
      obtain ⟨w', hpull, hhalted, hsteps⟩ := pull_of_checkShapes h hstop (hanswers grid hgrid) (by
        rw [hmap, hmap, List.map_map]
        exact hc)
      refine ⟨f, w', hpull, hhalted, kind_of_checkShapes hc, rfl, ?_⟩
      rw [leaves_ofLeaves]
      exact hsteps
  case unreadable =>
    rcases Attempt.forall_ok_or_first_error (fun l : Leaf => s.answerAt l.name l.window t)
      (first :: others) with hall | ⟨before, l, after, f, hl, hbefore, hf⟩
    · obtain ⟨name, hm, f, hf⟩ := hne
      rw [← hnames] at hm
      obtain ⟨l, hl, rfl⟩ := List.mem_map.1 hm
      obtain ⟨g', hg'⟩ := hall l hl
      rw [hwindow l hl, hf] at hg'
      cases hg'
    · obtain ⟨w', hpull, hhalted, hsteps⟩ := pull_of_member_error h hl hstop hbefore hf
      have hwindow' : ∀ m ∈ before ++ l :: after, m.window = run.window := hl ▸ hwindow
      have hmem : l ∈ before ++ l :: after := by simp
      have htake : (first :: others).take ((before.map Leaf.name).length + 1) = before ++ [l] := by
        rw [hl, List.length_map, List.take_length_add_append]
        rfl
      refine ⟨before.map Leaf.name, l.name, after.map Leaf.name, f, w', ?_, ?_, ?_, hpull, hhalted,
        ?_⟩
      · rw [← hnames, hl, List.map_append, List.map_cons]
      · rintro a ha
        obtain ⟨m, hm, rfl⟩ := List.mem_map.1 ha
        rw [← hwindow' m (List.mem_append_left _ hm)]
        exact hbefore m hm
      · rw [← hwindow' l hmem]
        exact hf
      · rw [leaves_ofLeaves, htake]
        exact hsteps

/-! ## One record after the other -/

/-- The producer of an accepted group reads, record by record as long as no pull fails, what each
member has at the time, and gives the weighted sum of it or fails as a whole. A group that a
configuration sets is accepted with the members of its mapping in their order, and is what the
producer of its name sums up. -/
theorem group_aggregates :
    (∀ (run : ModelRun) (s : Source) (v : World) (g : SpeciesGroup), g.Accepted →
      ∃ p w, run.readGroup v g = .ok (p, w) ∧ p.leaves = run.leavesOf v g.memberNames ∧
        p.keys.Nodup ∧ ∀ k t w', p.Reached s w k w' →
          (Cursor.atStart run.window).recordTime? k = some t → run.Aggregates g s p t w') ∧
    ∀ (c : Configuration) (run : ModelRun) (entries : Mapping), c.run = .ok run →
      Config.givenGroups c.settings = .map entries → Entries.Distinct entries →
      ∀ (name weights : Value), name.isKey = true → entries.get? name = some weights →
        ∃ g : SpeciesGroup, g.Accepted ∧ weights = .map g.entries ∧
          ∀ w, run.producer w name = run.readGroup w g := by
  refine ⟨fun run s v g hg => ?_,
    fun c run entries hrun hgiven hdistinct name weights hkey hw => ?_⟩
  · have hr := hg.readable
    obtain ⟨key, first, others, w, hl, hread⟩ := run.exists_ofLeaves v hr.nonempty
    have hc := readGroup_created hread
    refine ⟨_, w, hread, by rw [leaves_ofLeaves, hl], hc.fresh.nodup, fun k t w' hreached ht => ?_⟩
    have hwindow : ∀ l ∈ first :: others, l.window = run.window := fun l hmem =>
      window_leavesOf (hl ▸ hmem)
    have hstart : (ofLeaves key g.name (.weighted g.weights) first others).ReadyAt s
        run.window.start w :=
      .of_fresh hc.fresh fun l hmem => congrArg Cursor.current (hc.leaf l hmem)
    obtain ⟨-, hstop⟩ := Cursor.recordTime?_eq_some.1 ht
    have hne : g.members ≠ [] := mt List.map_eq_nil_iff.2 hr.nonempty
    exact aggregates_of_readyAt hne (hl ▸ names_leavesOf _ _ _) hwindow hstop
      (hreached.readyAt hstart hwindow ht)
  · obtain ⟨entries', gs, hgs, hgiven', -, -, hout⟩ := c.exists_entries
    cases hgiven.symm.trans hgiven'
    have hgroups : run.groups = gs :=
      Except.ok.inj ((Configuration.groups_of_run hrun).symm.trans hgs)
    have hmade := Config.ofValue?_overriddenGroups Configuration.isKey_defaultGroups hdistinct hout
      name
    rw [hw] at hmade
    obtain ⟨key, g, -, hg, hget⟩ := hmade
    refine ⟨g, .inr ⟨_, _, _, hg⟩, (SpeciesGroup.ofValue?_eq_ok hg).2.2, fun w => ?_⟩
    have hcheck : name.checkKey = .ok () := by rw [Value.checkKey, if_pos hkey]
    rw [producer, hcheck, hgroups]
    simp only [bind, Except.bind, hget]

/-! ## A sum of two variables -/

/-- A grid of one cell for each variable. -/
def sampleRecord (name : String) : Grid := .fill [1] (if name = "SO4" then 3.0 else 5.0)

/-- Files that hold the same records at all times. -/
def sampleFiles : Source where
  describe _ := .ok "file"
  openAt _ := .ok {
    read := fun name _ => .ok (sampleRecord name)
    extent := fun _ _ => .ok 1 }

def sampleWeights : Mapping := [(.text "SO4", .int 2), (.text "gS", .int 1)]

/-- The input section for 1 January 2005. -/
def sampleInput : Mapping :=
  [(.text "path_template", .text "d_[DATE].nc"), (.text "start_date", .text "20050101"),
    (.text "end_date", .text "20050102"), (.text "record_interval", .text "1h"),
    (.text "file_interval", .text "24h"), (.text "date_format", .text "%Y-%m-%d")]

theorem exists_sampleConfiguration : ∃ (c : Configuration) (run : ModelRun), c.run = .ok run ∧
    Config.givenGroups c.settings = .map [(.text "sox", .map sampleWeights)] := by
  have hstart : parseDate "start date" (.text "20050101") =
    .ok ⟨63240134400000000, by decide⟩ := by rfl
  have hstop : parseDate "end date" (.text "20050102") =
    .ok ⟨63240220800000000, by decide⟩ := by rfl
  have hgroups : SpeciesGroups.ofWeights? [("sox", sampleWeights)] = .ok
    [(.text "sox", ⟨.text "sox", [("SO4", .int 2), ("gS", .int 1)], ""⟩)] := by rfl
  have hchecked := (Configuration.check_runMapping (by simp) (by simp)).2
    (.mk (by rfl) ⟨_, _, hstart, hstop, by decide⟩
      ⟨_, _, parseDuration_hour, parseDuration_day, by decide, by decide⟩
      (by simp [Catalog.find?, Catalog.quantities]) ⟨_, hgroups⟩ :
        Configuration.Sound "d_[DATE].nc" _ _ _ _ _)
  let c : Configuration := ⟨_, hchecked⟩
  have hinput : c.settings.get? Config.inputKey = some (.map sampleInput) := rfl
  have htemplate := Configuration.get?_of_input "input.path_template" "path_template" hinput rfl
  have hstart := Configuration.get?_of_input "input.start_date" "start_date" hinput rfl
  have hstop := Configuration.get?_of_input "input.end_date" "end_date" hinput rfl
  obtain ⟨run, hrun, -⟩ := Configuration.exists_run htemplate hstart (by simp) hstop (by simp)
  exact ⟨c, run, hrun, rfl⟩

/-- The time of the second record of a day with a record every six hours. -/
def secondRecord : Instant := ⟨63240156000000000, by decide⟩

/-- The second grid of the group is the sum for the second record; and the group that a
configuration sets is the one with the members of its mapping. -/
theorem group_aggregates_sample :
    (∃ g p w w₁ w₂ total total', SpeciesGroup.ofMembers? (.text "sox")
        (sampleWeights.map fun e => .tuple [e.1, e.2]) = .ok g ∧
      Command.sampleRun.readGroup {} g = .ok (p, w) ∧ p.pull sampleFiles w = (.item total, w₁) ∧
      p.pull sampleFiles w₁ = (.item total', w₂) ∧
      total'.at? [0] = some (0.0 + (Weight.int 2).toFloat * 3.0 + (Weight.int 1).toFloat * 5.0)) ∧
    ∃ c run g, Configuration.run c = .ok run ∧ SpeciesGroup.entries g = sampleWeights ∧
      ∀ w, run.producer w (.text "sox") = run.readGroup w g := by
  obtain ⟨hgroups, hsettings⟩ := group_aggregates
  constructor
  · let g : SpeciesGroup := ⟨.text "sox", [("SO4", .int 2), ("gS", .int 1)], ""⟩
    have hg : SpeciesGroup.ofMembers? (.text "sox")
      (sampleWeights.map fun e => .tuple [e.1, e.2]) = .ok g := by rfl
    obtain ⟨p, w, hp, -, -, hpulls⟩ :=
      hgroups Command.sampleRun sampleFiles {} g (.inl ⟨_, _, _, hg⟩)
    have hanswer : ∀ t ∈ [Command.sampleRun.window.start, secondRecord], ∀ name ∈ g.memberNames,
        sampleFiles.answerAt name Command.sampleRun.window t = .ok (sampleRecord name) ∧
          (sampleRecord name).shape = [1] := by
      intro t ht name _
      obtain rfl | rfl : t = Command.sampleRun.window.start ∨ t = secondRecord := by simpa using ht
      all_goals exact ⟨by rfl, rfl⟩
    obtain ⟨total, w₁, hfirst, -⟩ :=
      (hpulls 0 Command.sampleRun.window.start w .start rfl).sum sampleRecord [1]
        (hanswer _ (by simp))
    have hreached : p.Reached sampleFiles w 1 w₁ := by
      have h := Reached.pull (.start (s := sampleFiles) (p := p) (w := w)) (by rw [hfirst]; nofun)
      rwa [hfirst] at h
    obtain ⟨total', w₂, hsecond, -, -, hcells⟩ :=
      (hpulls 1 secondRecord w₁ hreached rfl).sum sampleRecord [1] (hanswer _ (by simp))
    refine ⟨g, p, w, w₁, w₂, total, total', hg, hp, hfirst, hsecond, ?_⟩
    have hin : Inside [1] [0] := by decide
    obtain ⟨x, hx, htotal⟩ := hcells [0] hin
    have hfour : sampleRecord "SO4" = .fill [1] 3.0 := congrArg (Grid.fill [1]) (if_pos rfl)
    have hsulfur : sampleRecord "gS" = .fill [1] 5.0 :=
      congrArg (Grid.fill [1]) (if_neg (by decide))
    have hx₁ := hx "SO4" (by decide)
    have hx₂ := hx "gS" (by decide)
    rw [hfour, Grid.at?_fill hin, Option.some.injEq] at hx₁
    rw [hsulfur, Grid.at?_fill hin, Option.some.injEq] at hx₂
    rw [htotal, hx₁, hx₂]
    rfl
  · obtain ⟨c, run, hrun, hgiven⟩ := exists_sampleConfiguration
    have hdistinct : Entries.Distinct [(Value.text "sox", Value.map sampleWeights)] :=
      ⟨by simp [Value.isKey], by simp⟩
    obtain ⟨g, -, hweights, hread⟩ := hsettings c run _ hrun hgiven hdistinct (.text "sox")
      (.map sampleWeights) (by simp [Value.isKey]) rfl
    exact ⟨c, run, g, hrun, (Value.map.inj hweights).symm, hread⟩

end ModelRun

end GridStream
