import GridStream.Proofs.Producer.Pull

/-!
# Which producers are asked

The steps of a pull are the producers that it asks and the rules that it applies, in their order. A
pull takes the steps of the evaluation (`Producer.steps_pull`): it asks the producers in the order
in which they are declared, up to the one where the evaluation stops and no further
(`Producer.pulled_of_error`), and applies no rule to grids that differ in shape
(`Producer.derivable_of_applied`).
-/

namespace GridStream

/-- Whether an event is a step of a pull. -/
def Event.isStep : Event → Bool
  | .pulled _ | .applied _ => true
  | _ => false

/-- The producer that an event is the asking of. -/
def Event.pulled? : Event → Option Nat
  | .pulled key => some key
  | _ => none

/-- The rules that a combined producer applies to some grids: its own, unless the shapes differ. -/
def Rule.steps (key : Nat) (name : Value) (inputs : List Value) (grids : List Grid) : List Event :=
  match checkShapes name inputs (grids.map (·.shape)) with
  | .error _ => []
  | .ok () => [.applied key]

theorem checkShapes_eq_ok {target : Value} {names : List Value} {shapes : List (List Nat)} :
    checkShapes target names shapes = .ok () ↔ ∀ a ∈ shapes, ∀ b ∈ shapes, a = b := by
  unfold checkShapes
  cases shapes with
  | nil => simp
  | cons first rest =>
    constructor
    · intro h
      split at h
      · next hall =>
        have hall : ∀ a ∈ first :: rest, first = a := by simpa using hall
        exact fun a ha b hb => (hall a ha).symm.trans (hall b hb)
      · cases h
    · intro h
      have hall : ∀ a ∈ rest, first = a := fun a ha =>
        h first (List.mem_cons_self ..) a (List.mem_cons_of_mem _ ha)
      rw [if_pos]
      simpa using hall

namespace Producer

mutual

/-- The steps of an evaluation. -/
def steps (s : Source) (w : World) (k : Nat) : Producer → List Event
  | raw key _ _ => [.pulled key]
  | combined key name _ first others =>
    .pulled key ::
      (match eval s w k first with
        | .error _ => steps s w k first
        | .ok g =>
          steps s w k first ++ stepsAll s w k others ++
            match evalAll s w k others with
            | .error _ => []
            | .ok gs => Rule.steps key name ((first :: others).map Producer.name) (g :: gs))

/-- The steps of the evaluation of several trees. -/
def stepsAll (s : Source) (w : World) (k : Nat) : List Producer → List Event
  | [] => []
  | p :: ps =>
    match eval s w k p with
    | .error _ => steps s w k p
    | .ok _ => steps s w k p ++ stepsAll s w k ps

end

/-- Whether the inputs of one of several combined producers give grids, all of one shape. -/
def Derivable (s : Source) (w : World) (k : Nat) (ns : List Producer) (key : Nat) : Prop :=
  ∃ name rule first others gs, combined key name rule first others ∈ ns ∧
    evalAll s w k (first :: others) = .ok gs ∧ ∀ g ∈ gs, ∀ g' ∈ gs, g.shape = g'.shape

theorem Derivable.mono {s : Source} {w : World} {k key : Nat} {ns ms : List Producer}
    (h : Derivable s w k ns key) (hn : ns ⊆ ms) : Derivable s w k ms key := by
  obtain ⟨name, rule, first, others, gs, hmem, hr⟩ := h
  exact ⟨name, rule, first, others, gs, hn hmem, hr⟩

variable {s : Source} {w w' : World} {k k' key : Nat} {window : Window} {rule : Rule}
  {name : Value} {first p q : Producer} {others ps : List Producer} {g : Grid} {gs : List Grid}
  {e : Stop}

theorem steps_combined : (combined key name rule first others).steps s w k =
    .pulled key :: (stepsAll s w k (first :: others) ++
      match evalAll s w k (first :: others) with
      | .error _ => []
      | .ok gs => Rule.steps key name ((first :: others).map Producer.name) gs) := by
  rw [steps, stepsAll, evalAll]
  cases eval s w k first with
  | error e => simp
  | ok g => cases evalAll s w k others <;> simp

theorem stepsAll_cons_of_ok (h : p.eval s w k = .ok g) :
    stepsAll s w k (p :: ps) = p.steps s w k ++ stepsAll s w k ps := by
  rw [stepsAll, h]

theorem stepsAll_cons_of_error (h : p.eval s w k = .error e) :
    stepsAll s w k (p :: ps) = p.steps s w k := by
  rw [stepsAll, h]

private theorem steps_congr_aux :
    (∀ p : Producer,
      (∀ l ∈ p.leaves, (l.cursor w').recordTime? k' = (l.cursor w).recordTime? k) →
      p.steps s w' k' = p.steps s w k) ∧
    ∀ ps, (∀ l ∈ leavesAll ps, (l.cursor w').recordTime? k' = (l.cursor w).recordTime? k) →
      stepsAll s w' k' ps = stepsAll s w k ps := by
  refine forest_induction ?raw ?combined ?nil ?cons
  case raw =>
    intro key name window _
    rw [steps, steps]
  case combined =>
    intro key name rule first others ih h
    rw [leaves_combined] at h
    rw [steps_combined, steps_combined, ih h, evalAll_congr h]
  case nil =>
    intro _
    rw [stepsAll, stepsAll]
  case cons =>
    intro p ps ihp ihps h
    rw [leavesAll_cons] at h
    rw [stepsAll, stepsAll, eval_congr fun l hl => h l (List.mem_append_left _ hl),
      ihp fun l hl => h l (List.mem_append_left _ hl),
      ihps fun l hl => h l (List.mem_append_right _ hl)]

theorem stepsAll_congr
    (h : ∀ l ∈ leavesAll ps, (l.cursor w').recordTime? k' = (l.cursor w).recordTime? k) :
    stepsAll s w' k' ps = stepsAll s w k ps :=
  steps_congr_aux.2 ps h

theorem Shifted.steps {n : Nat} (h : p.Shifted n w w') : p.steps s w' k = p.steps s w (k + n) :=
  steps_congr_aux.1 p fun l hl => h l hl k

/-! ## What the steps are -/

@[simp] theorem pulled_ruleSteps {inputs : List Value} :
    (Rule.steps key name inputs gs).filterMap Event.pulled? = [] := by
  unfold Rule.steps
  split <;> rfl

theorem applied_mem_ruleSteps {inputs : List Value} :
    .applied k ∈ Rule.steps key name inputs gs ↔
      k = key ∧ ∀ g ∈ gs, ∀ g' ∈ gs, g.shape = g'.shape := by
  have hc : checkShapes name inputs (gs.map (·.shape)) = .ok () ↔ _ := checkShapes_eq_ok
  simp only [List.forall_mem_map] at hc
  rw [← hc]
  unfold Rule.steps
  cases checkShapes name inputs (gs.map (·.shape)) <;> simp

/-- An evaluation that gives a grid asks every producer. -/
private theorem pulled_of_ok_aux :
    (∀ (p : Producer) (g : Grid), p.eval s w k = .ok g →
      (p.steps s w k).filterMap Event.pulled? = p.keys) ∧
    ∀ (ps : List Producer) (gs : List Grid), evalAll s w k ps = .ok gs →
      (stepsAll s w k ps).filterMap Event.pulled? = keysAll ps := by
  refine forest_induction ?raw ?combined ?nil ?cons
  case raw =>
    intro key name window g _
    rw [steps, keys_raw]
    rfl
  case combined =>
    intro key name rule first others ih g h
    obtain ⟨gs, hgs, -⟩ := eval_combined_eq_ok.1 h
    simp [steps_combined, hgs, ← ih gs hgs, Event.pulled?]
  case nil =>
    intro _ _
    rw [stepsAll, keysAll_nil]
    rfl
  case cons =>
    intro p ps ihp ihps gs h
    obtain ⟨g, gs', hg, hgs', -⟩ := evalAll_cons_eq_ok.1 h
    rw [stepsAll_cons_of_ok hg, List.filterMap_append, ihp g hg, ihps gs' hgs', keysAll_cons]

/-- An evaluation that stops at a producer asks those that are declared ahead of it, the producer
with its inputs, and none of those that are declared behind. -/
private theorem pulled_of_error_aux :
    (∀ (p : Producer) (e : Stop), p.eval s w k = .error e → ∃ q pre post,
      e.path.getLast? = some q ∧ p.keys = pre ++ q.keys ++ post ∧
        (p.steps s w k).filterMap Event.pulled? = pre ++ q.keys) ∧
    ∀ (ps : List Producer) (e : Stop), evalAll s w k ps = .error e → ∃ q pre post,
      e.path.getLast? = some q ∧ keysAll ps = pre ++ q.keys ++ post ∧
        (stepsAll s w k ps).filterMap Event.pulled? = pre ++ q.keys := by
  refine forest_induction ?raw ?combined ?nil ?cons
  case raw =>
    intro key name window e h
    refine ⟨raw key name window, [], [], ?_, by simp, by rw [steps, keys_raw]; rfl⟩
    obtain ⟨-, rfl⟩ | ⟨t, f, -, -, rfl⟩ := eval_raw_eq_error.1 h <;> rfl
  case combined =>
    intro key name rule first others ih e h
    obtain ⟨e', he', rfl⟩ | ⟨gs, f, hgs, -, rfl⟩ := eval_combined_eq_error.1 h
    · obtain ⟨q, pre, post, hlast, hkeys, hasked⟩ := ih e' he'
      refine ⟨q, key :: pre, post, ?_, by rw [keys_combined, hkeys]; rfl, ?_⟩
      · simp [Stop.under, List.getLast?_cons, hlast]
      · simp [steps_combined, he', hasked, Event.pulled?]
    · refine ⟨combined key name rule first others, [], [], rfl, by simp, ?_⟩
      simp [steps_combined, hgs, pulled_of_ok_aux.2 _ gs hgs, Event.pulled?]
  case nil =>
    intro e h
    rw [evalAll_nil] at h
    cases h
  case cons =>
    intro p ps ihp ihps e h
    rw [keysAll_cons]
    rcases evalAll_cons_eq_error.1 h with hp | ⟨g, hg, hps⟩
    · obtain ⟨q, pre, post, hlast, hkeys, hasked⟩ := ihp e hp
      refine ⟨q, pre, post ++ keysAll ps, hlast, by rw [hkeys, List.append_assoc], ?_⟩
      rw [stepsAll_cons_of_error hp, hasked]
    · obtain ⟨q, pre, post, hlast, hkeys, hasked⟩ := ihps e hps
      refine ⟨q, p.keys ++ pre, post, hlast, by simp [hkeys], ?_⟩
      rw [stepsAll_cons_of_ok hg, List.filterMap_append, pulled_of_ok_aux.1 p g hg, hasked,
        List.append_assoc]

theorem pulled_of_error (h : p.eval s w k = .error e) : ∃ q pre post,
    e.path.getLast? = some q ∧ p.keys = pre ++ q.keys ++ post ∧
      (p.steps s w k).filterMap Event.pulled? = pre ++ q.keys :=
  pulled_of_error_aux.1 p e h

private theorem derivable_of_applied_aux :
    (∀ p : Producer, ∀ key', .applied key' ∈ p.steps s w k → Derivable s w k p.nodes key') ∧
    ∀ ps, ∀ key', .applied key' ∈ stepsAll s w k ps → Derivable s w k (nodesAll ps) key' := by
  refine forest_induction ?raw ?combined ?nil ?cons
  case raw =>
    intro key name window key' h
    rw [steps] at h
    simp at h
  case combined =>
    intro key name rule first others ih key' h
    rw [steps_combined, List.mem_cons, List.mem_append] at h
    rw [nodes_combined]
    rcases h with h | h | h
    · cases h
    · exact (ih key' h).mono (List.subset_cons_self ..)
    · cases hi : evalAll s w k (first :: others) with
      | error e => simp [hi] at h
      | ok gs =>
        rw [hi] at h
        obtain ⟨rfl, hshape⟩ := applied_mem_ruleSteps.1 h
        exact ⟨name, rule, first, others, gs, List.mem_cons_self .., hi, hshape⟩
  case nil =>
    intro key' h
    rw [stepsAll] at h
    cases h
  case cons =>
    intro p ps ihp ihps key' h
    have h : .applied key' ∈ p.steps s w k ∨ .applied key' ∈ stepsAll s w k ps := by
      rw [stepsAll] at h
      split at h
      · exact .inl h
      · exact List.mem_append.1 h
    rw [nodesAll_cons]
    rcases h with h | h
    · exact (ihp key' h).mono (List.subset_append_left ..)
    · exact (ihps key' h).mono (List.subset_append_right ..)

/-- A rule is applied only where the inputs give grids of one shape. -/
theorem derivable_of_applied (h : .applied key ∈ p.steps s w k) : Derivable s w k p.nodes key :=
  derivable_of_applied_aux.1 p key h

end Producer

/-! ## The steps of a pull -/

namespace World

/-- The steps that were taken in a world, the first one first. -/
def steps (w : World) : List Event := (w.trace.filter Event.isStep).reverse

variable {w : World} {key : Nat}

@[simp] theorem steps_record_of_isStep {e : Event} (h : e.isStep) :
    (w.record e).steps = w.steps ++ [e] := by
  simp [steps, h]

@[simp] theorem steps_record_of_not {e : Event} (h : e.isStep = false) :
    (w.record e).steps = w.steps := by
  simp [steps, h]

@[simp] theorem steps_modify {f : Slot → Slot} : (w.modify key f).steps = w.steps := rfl

@[simp] theorem steps_announce {m : String} : (w.announce m).steps = w.steps :=
  steps_record_of_not (e := .announced m) rfl

@[simp] theorem steps_release : (w.release key).steps = w.steps := by
  unfold release
  split
  · rfl
  · exact steps_record_of_not rfl

@[simp] theorem steps_openFile {s : Source} {start : Instant} :
    (w.openFile s start).2.steps = w.steps := by
  unfold openFile
  dsimp only
  split
  · exact steps_record_of_not rfl
  · exact (steps_record_of_not rfl).trans (steps_record_of_not rfl)

@[simp] theorem steps_readHeld {name : String} {index : Int} :
    (w.readHeld key name index).2.steps = w.steps := by
  unfold readHeld
  split
  · rfl
  · exact steps_record_of_not rfl

end World

namespace Producer

variable {s : Source} {w w₁ : World} {key : Nat} {name : String} {window : Window}
  {p : Producer} {ps : List Producer} {r : Pull Grid × World}

theorem steps_enter {start : Instant} : (enter s w key name start).2.steps = w.steps := by
  unfold enter stepInto
  split
  · rfl
  · split
    · exact World.steps_release
    · next path _ =>
      have ho : (((w.release key).announce s!"Reading {name} from {path}").openFile s
          start).2.steps = w.steps := by simp
      dsimp only
      split
      · next h => rwa [h] at ho
      · next h => rwa [h] at ho

theorem steps_readRecordAt {time : Instant} :
    (readRecordAt s w key name window time).2.steps = w.steps := by
  unfold readRecordAt
  split
  · rfl
  · next start _ =>
    have he : (enter s w key name start).2.steps = w.steps := steps_enter
    split
    · next h => rwa [h] at he
    · next w₁ h =>
      rw [h] at he
      have hr : (w₁.readHeld key name (window.recordIndex time)).2.steps = w.steps := by
        rw [World.steps_readHeld, he]
      dsimp only
      split
      · next h => rwa [h] at hr
      · next h => rwa [h] at hr

theorem steps_readNext : (readNext s w key name window).2.steps = w.steps := by
  unfold readNext
  split
  · rfl
  · rfl
  · exact steps_readRecordAt

private theorem steps_close_aux : (∀ (p : Producer) w, (close w p).steps = w.steps) ∧
    ∀ (ps : List Producer) w, (closeAll w ps).steps = w.steps := by
  refine forest_induction ?raw ?combined ?nil ?cons
  case raw =>
    intro key name window w
    rw [close, World.steps_release]
  case combined =>
    intro key name rule first others ih w
    rw [close, ← ih w, closeAll]
  case nil =>
    intro w
    rw [closeAll]
  case cons =>
    intro p ps ihp ihps w
    rw [closeAll, ihps, ihp]

theorem steps_settle : (settle p r).2.steps = r.2.steps := by
  obtain ⟨_ | _ | f, w⟩ := r
  · rfl
  · exact steps_close_aux.1 p w
  · exact steps_close_aux.1 p _

theorem steps_derive {name : Value} {rule : Rule} {time : Option Instant} {inputs : List Value}
    {gs : List Grid} : (derive w key name rule time inputs gs).2.steps =
      w.steps ++ Rule.steps key name inputs gs := by
  unfold derive Rule.steps
  cases checkShapes name inputs (gs.map (·.shape)) with
  | error f => simp
  | ok _ => cases rule.apply name time gs <;> exact World.steps_record_of_isStep rfl

/-- A pull takes the steps of the evaluation. -/
private theorem steps_pull_aux :
    (∀ (p : Producer) (w : World), Steady s p.nodes w →
      (p.pull s w).2.steps = w.steps ++ p.steps s w 0) ∧
    ∀ (ps : List Producer) (w : World), Steady s (nodesAll ps) w →
      (pullAll s w ps).2.steps = w.steps ++ stepsAll s w 0 ps := by
  refine pull_induction ?raw ?combined ?nil ?stop ?cons
  case raw =>
    intro key name window w h
    have hr := (steady_raw h).2.1
    rw [pull_raw hr.failure, steps_settle, steps_readNext, steps]
    exact World.steps_record_of_isStep rfl
  case combined =>
    intro key name rule first others w h ih
    obtain ⟨-, hr, -, hin⟩ := h.combined
    have hi := hin (.pulled key)
    have hst : stepsAll s (w.record (.pulled key)) 0 (first :: others) =
        stepsAll s w 0 (first :: others) := stepsAll_congr fun _ _ => rfl
    rw [World.steps_record_of_isStep rfl, hst] at ih
    rw [pull_combined hr.failure, steps_settle, steps_combined]
    cases hgs : evalAll s w 0 (first :: others) with
    | error e =>
      rw [Prod.fst_eq_iff.1 (pullAll_of_error hi (evalAll_record.trans hgs)), conclude_answer, ih]
      simp
    | ok gs =>
      rw [Prod.fst_eq_iff.1 (pullAll_of_ok hi (evalAll_record.trans hgs)), conclude, steps_derive,
        ih]
      simp
  case nil =>
    intro w
    simp [stepsAll]
  case stop =>
    intro p ps w w₁ e h he hp ih
    rw [pullAll_of_answer hp, stepsAll_cons_of_error he, ← ih, hp]
  case cons =>
    intro p ps w w₁ g h hg hp hsl ihp ihps
    rw [hp] at ihp
    have hst : stepsAll s w₁ 0 ps = stepsAll s w 0 ps :=
      stepsAll_congr fun l hl => by rw [cursor_eq hsl hl]
    rw [snd_pullAll_of_item hp, ihps, ihp, stepsAll_cons_of_ok hg, hst, List.append_assoc]

theorem steps_pull (h : Steady s p.nodes w) :
    (p.pull s w).2.steps = w.steps ++ p.steps s w 0 :=
  steps_pull_aux.1 p w h

end Producer

end GridStream
