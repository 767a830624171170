import GridStream.Proofs.Attempt
import GridStream.Proofs.Producer.Tree
import GridStream.Proofs.Window.Records

/-!
# The grids of a tree

What a tree of producers stands for, without any state: the grid that the whole tree gives for the
records with a given number, evaluated from the leaves up in the order in which the inputs are
declared (`Producer.eval`). A leaf contributes the record that lies so many records ahead of it,
read directly from the file that covers the time. An evaluation that gives no grid ends in a `Stop`,
which names the producer where it ended and all those above it.
-/

namespace GridStream

namespace Source

/-- The file that starts at a time, as it is opened for a variable. -/
def fileFor (s : Source) (name : String) (start : Instant) : Attempt DataFile :=
  match s.describe start with
  | .error f => .error f
  | .ok path => (s.openAt start).within (Producer.opening path name start)

/-- The record of a variable at a time, from the file that covers the time. -/
def recordAt (s : Source) (name : String) (window : Window) (t : Instant) : Attempt Grid :=
  match window.fileStart? t with
  | none => .error .outOfCalendar
  | some start =>
    match s.fileFor name start with
    | .error f => .error f
    | .ok file =>
      (file.read name (window.recordIndex t)).within
        (Producer.reading name t (window.recordIndex t))

end Source

/-- The grid that a combined producer makes of those of its inputs: their shapes are compared
first. -/
def Rule.derive (rule : Rule) (name : Value) (time : Option Instant) (inputs : List Value)
    (grids : List Grid) : Attempt Grid :=
  match checkShapes name inputs (grids.map (·.shape)) with
  | .error f => .error f
  | .ok () => rule.apply name time grids

/-- Where and why an evaluation ends without a grid. -/
structure Stop where
  /-- The producers from the root of the tree to the one that gives no grid. -/
  path : List Producer
  /-- What that one fails with, nothing if no record of it is left. -/
  failure? : Option Failure

namespace Stop

/-- A producer that fails by itself, not because of its inputs. -/
def failed (p : Producer) (f : Failure) : Stop := ⟨[p], some f⟩

/-- A raw producer without any record left. -/
def exhausted (p : Producer) : Stop := ⟨[p], none⟩

/-- The stop as it is seen from a producer further up. -/
def under (p : Producer) (e : Stop) : Stop := { e with path := p :: e.path }

end Stop

namespace Producer

/-- The first raw producer of a tree, whose times are those of the whole tree. -/
def firstLeaf : Producer → Leaf
  | raw key name window => ⟨key, name, window⟩
  | combined _ _ _ first _ => firstLeaf first

/-- The time of a grid that lies ahead. -/
def time (p : Producer) (w : World) (k : Nat) : Option Instant :=
  (p.firstLeaf.cursor w).recordTime? k

mutual

/-- The grid of a tree that lies `k` records ahead. -/
def eval (s : Source) (w : World) (k : Nat) : Producer → Except Stop Grid
  | raw key name window =>
    match (Leaf.cursor ⟨key, name, window⟩ w).recordTime? k with
    | none => .error (.exhausted (raw key name window))
    | some t => (s.recordAt name window t).mapError (Stop.failed (raw key name window))
  | combined key name rule first others =>
    match eval s w k first with
    | .error e => .error (e.under (combined key name rule first others))
    | .ok g =>
      match evalAll s w k others with
      | .error e => .error (e.under (combined key name rule first others))
      | .ok gs =>
        (rule.derive name (first.time w k) ((first :: others).map Producer.name) (g :: gs)).mapError
          (Stop.failed (combined key name rule first others))

/-- The grids of several trees that lie `k` records ahead, if there are all of them. -/
def evalAll (s : Source) (w : World) (k : Nat) : List Producer → Except Stop (List Grid)
  | [] => .ok []
  | p :: ps =>
    match eval s w k p with
    | .error e => .error e
    | .ok g =>
      match evalAll s w k ps with
      | .error e => .error e
      | .ok gs => .ok (g :: gs)

end

variable {s : Source} {w w' : World} {k k' key : Nat} {window : Window} {rule : Rule}
  {first p : Producer} {others ps : List Producer} {e : Stop}

theorem eval_raw {name : String} : (raw key name window).eval s w k =
    match (Leaf.cursor ⟨key, name, window⟩ w).recordTime? k with
    | none => .error (.exhausted (raw key name window))
    | some t => (s.recordAt name window t).mapError (Stop.failed (raw key name window)) := by
  rw [eval]

theorem eval_combined {name : Value} : (combined key name rule first others).eval s w k =
    match evalAll s w k (first :: others) with
    | .error e => .error (e.under (combined key name rule first others))
    | .ok gs =>
      (rule.derive name (first.time w k) ((first :: others).map Producer.name) gs).mapError
        (Stop.failed (combined key name rule first others)) := by
  rw [eval, evalAll]
  cases eval s w k first with
  | error e => rfl
  | ok g => cases evalAll s w k others <;> rfl

private theorem firstLeaf_mem_aux : (∀ p : Producer, p.firstLeaf ∈ p.leaves) ∧
    ∀ ps : List Producer, ∀ p ∈ ps.head?, p.firstLeaf ∈ leavesAll ps := by
  refine forest_induction ?raw ?combined ?nil ?cons
  case raw =>
    intro key name window
    simp [firstLeaf]
  case combined =>
    intro key name rule first others ih
    rw [leaves_combined, firstLeaf]
    exact ih first rfl
  case nil =>
    intro p hp
    cases hp
  case cons =>
    intro p ps ihp _ q hq
    cases hq
    rw [leavesAll_cons]
    exact List.mem_append_left _ ihp

theorem firstLeaf_mem_leaves (p : Producer) : p.firstLeaf ∈ p.leaves :=
  firstLeaf_mem_aux.1 p

/-- The grids of a tree are settled by the times of the records of its leaves. -/
private theorem eval_congr_aux :
    (∀ p : Producer,
      (∀ l ∈ p.leaves, (l.cursor w').recordTime? k' = (l.cursor w).recordTime? k) →
      p.eval s w' k' = p.eval s w k) ∧
    ∀ ps, (∀ l ∈ leavesAll ps, (l.cursor w').recordTime? k' = (l.cursor w).recordTime? k) →
      evalAll s w' k' ps = evalAll s w k ps := by
  refine forest_induction ?raw ?combined ?nil ?cons
  case raw =>
    intro key name window h
    rw [eval_raw, eval_raw, h ⟨key, name, window⟩ (by simp)]
  case combined =>
    intro key name rule first others ih h
    rw [leaves_combined] at h
    have ht : first.time w' k' = first.time w k :=
      h _ (by simp [first.firstLeaf_mem_leaves])
    rw [eval_combined, eval_combined, ih h, ht]
  case nil =>
    intro _
    rw [evalAll, evalAll]
  case cons =>
    intro p ps ihp ihps h
    rw [leavesAll_cons] at h
    rw [evalAll, evalAll, ihp fun l hl => h l (List.mem_append_left _ hl),
      ihps fun l hl => h l (List.mem_append_right _ hl)]

theorem eval_congr (h : ∀ l ∈ p.leaves, (l.cursor w').recordTime? k' = (l.cursor w).recordTime? k) :
    p.eval s w' k' = p.eval s w k :=
  eval_congr_aux.1 p h

theorem evalAll_congr
    (h : ∀ l ∈ leavesAll ps, (l.cursor w').recordTime? k' = (l.cursor w).recordTime? k) :
    evalAll s w' k' ps = evalAll s w k ps :=
  eval_congr_aux.2 ps h

/-- What happened before is of no account. -/
@[simp] theorem evalAll_record {e : Event} : evalAll s (w.record e) k ps = evalAll s w k ps :=
  evalAll_congr fun _ _ => rfl

/-- Whether the records that lie ahead in `w'` are those that lie ahead in `w`, less the first `n`.
-/
def Shifted (p : Producer) (n : Nat) (w w' : World) : Prop :=
  ∀ l ∈ p.leaves, ∀ k, (l.cursor w').recordTime? k = (l.cursor w).recordTime? (k + n)

theorem Shifted.eval {n : Nat} (h : p.Shifted n w w') : p.eval s w' k = p.eval s w (k + n) :=
  eval_congr fun l hl => h l hl k

theorem Shifted.trans {w₁ : World} {m n : Nat} (h : p.Shifted m w w₁) (h' : p.Shifted n w₁ w') :
    p.Shifted (n + m) w w' := fun l hl k => by
  rw [h' l hl, h l hl, Nat.add_assoc]

/-! ## One case at a time -/

theorem eval_raw_eq_ok {name : String} {g : Grid} : (raw key name window).eval s w k = .ok g ↔
    ∃ t, (Leaf.cursor ⟨key, name, window⟩ w).recordTime? k = some t ∧
      s.recordAt name window t = .ok g := by
  rw [eval_raw]
  cases (Leaf.cursor ⟨key, name, window⟩ w).recordTime? k <;> simp [Attempt.mapError_eq_ok]

theorem eval_raw_eq_error {name : String} : (raw key name window).eval s w k = .error e ↔
    ((Leaf.cursor ⟨key, name, window⟩ w).recordTime? k = none ∧
        .exhausted (raw key name window) = e) ∨
      ∃ t f, (Leaf.cursor ⟨key, name, window⟩ w).recordTime? k = some t ∧
        s.recordAt name window t = .error f ∧ .failed (raw key name window) f = e := by
  rw [eval_raw]
  cases (Leaf.cursor ⟨key, name, window⟩ w).recordTime? k <;> simp [Attempt.mapError_eq_error]

theorem eval_combined_eq_ok {name : Value} {g : Grid} :
    (combined key name rule first others).eval s w k = .ok g ↔
      ∃ gs, evalAll s w k (first :: others) = .ok gs ∧
        rule.derive name (first.time w k) ((first :: others).map Producer.name) gs = .ok g := by
  rw [eval_combined]
  cases evalAll s w k (first :: others) <;> simp [Attempt.mapError_eq_ok]

theorem eval_combined_eq_error {name : Value} :
    (combined key name rule first others).eval s w k = .error e ↔
      (∃ e', evalAll s w k (first :: others) = .error e' ∧
          e'.under (combined key name rule first others) = e) ∨
        ∃ gs f, evalAll s w k (first :: others) = .ok gs ∧
          rule.derive name (first.time w k) ((first :: others).map Producer.name) gs = .error f ∧
          .failed (combined key name rule first others) f = e := by
  rw [eval_combined]
  cases evalAll s w k (first :: others) <;> simp [Attempt.mapError_eq_error]

@[simp] theorem evalAll_nil : evalAll s w k [] = .ok [] := by rw [evalAll]

theorem evalAll_cons_eq_ok {gs : List Grid} : evalAll s w k (p :: ps) = .ok gs ↔
    ∃ g gs', p.eval s w k = .ok g ∧ evalAll s w k ps = .ok gs' ∧ g :: gs' = gs := by
  rw [evalAll]
  cases p.eval s w k with
  | error e => simp
  | ok g => cases evalAll s w k ps <;> simp

theorem evalAll_cons_eq_error : evalAll s w k (p :: ps) = .error e ↔
    p.eval s w k = .error e ∨ ∃ g, p.eval s w k = .ok g ∧ evalAll s w k ps = .error e := by
  rw [evalAll]
  cases p.eval s w k with
  | error e => simp
  | ok g => cases evalAll s w k ps <;> simp

/-! ## Grids and stops -/

/-- Every leaf of a tree contributes a record to a grid of the tree. -/
private theorem isSome_recordTime?_aux :
    (∀ (p : Producer) (g : Grid), p.eval s w k = .ok g →
      ∀ l ∈ p.leaves, ((l.cursor w).recordTime? k).isSome) ∧
    ∀ (ps : List Producer) (gs : List Grid), evalAll s w k ps = .ok gs →
      ∀ l ∈ leavesAll ps, ((l.cursor w).recordTime? k).isSome := by
  refine forest_induction ?raw ?combined ?nil ?cons
  case raw =>
    intro key name window g h l hl
    obtain ⟨t, ht, -⟩ := eval_raw_eq_ok.1 h
    rw [leaves_raw, List.mem_singleton] at hl
    rw [hl, ht]
    rfl
  case combined =>
    intro key name rule first others ih g h
    obtain ⟨gs, hgs, -⟩ := eval_combined_eq_ok.1 h
    rw [leaves_combined]
    exact ih gs hgs
  case nil =>
    intro _ _ l hl
    simp at hl
  case cons =>
    intro p ps ihp ihps gs h l hl
    obtain ⟨g, gs', hg, hgs', -⟩ := evalAll_cons_eq_ok.1 h
    rw [leavesAll_cons, List.mem_append] at hl
    exact hl.elim (ihp g hg l) (ihps gs' hgs' l)

theorem isSome_recordTime?_of_eval {g : Grid} (h : p.eval s w k = .ok g) {l : Leaf}
    (hl : l ∈ p.leaves) : ((l.cursor w).recordTime? k).isSome :=
  isSome_recordTime?_aux.1 p g h l hl

theorem isSome_recordTime?_of_evalAll {gs : List Grid} (h : evalAll s w k ps = .ok gs) {l : Leaf}
    (hl : l ∈ leavesAll ps) : ((l.cursor w).recordTime? k).isSome :=
  isSome_recordTime?_aux.2 ps gs h l hl

/-- An evaluation that gives no grid ends at a producer that gives none by itself. -/
private theorem eval_error_aux :
    (∀ (p : Producer) (e : Stop), p.eval s w k = .error e →
      ∃ q ∈ p.nodes, e.path.getLast? = some q ∧ q.eval s w k = .error ⟨[q], e.failure?⟩) ∧
    ∀ (ps : List Producer) (e : Stop), evalAll s w k ps = .error e →
      ∃ q ∈ nodesAll ps, e.path.getLast? = some q ∧
        q.eval s w k = .error ⟨[q], e.failure?⟩ := by
  refine forest_induction ?raw ?combined ?nil ?cons
  case raw =>
    intro key name window e h
    refine ⟨raw key name window, by simp, ?_⟩
    obtain ⟨-, rfl⟩ | ⟨t, f, -, -, rfl⟩ := eval_raw_eq_error.1 h
    · exact ⟨rfl, h⟩
    · exact ⟨rfl, h⟩
  case combined =>
    intro key name rule first others ih e h
    obtain ⟨e', he', rfl⟩ | ⟨gs, f, -, -, rfl⟩ := eval_combined_eq_error.1 h
    · obtain ⟨q, hq, hlast, hself⟩ := ih e' he'
      refine ⟨q, by rw [nodes_combined]; exact List.mem_cons_of_mem _ hq, ?_, hself⟩
      simp [Stop.under, List.getLast?_cons, hlast]
    · exact ⟨combined key name rule first others, by simp, rfl, h⟩
  case nil =>
    intro e h
    rw [evalAll_nil] at h
    cases h
  case cons =>
    intro p ps ihp ihps e h
    rw [nodesAll_cons]
    rcases evalAll_cons_eq_error.1 h with hp | ⟨g, -, hps⟩
    · obtain ⟨q, hq, hr⟩ := ihp e hp
      exact ⟨q, List.mem_append_left _ hq, hr⟩
    · obtain ⟨q, hq, hr⟩ := ihps e hps
      exact ⟨q, List.mem_append_right _ hq, hr⟩

theorem eval_error (h : p.eval s w k = .error e) : ∃ q ∈ p.nodes, e.path.getLast? = some q ∧
    q.eval s w k = .error ⟨[q], e.failure?⟩ :=
  eval_error_aux.1 p e h

/-- Only a leaf without any record left ends an evaluation without a failure. -/
private theorem exists_exhausted_aux :
    (∀ (p : Producer) (e : Stop), p.eval s w k = .error e → e.failure? = none →
      ∃ l ∈ p.leaves, (l.cursor w).recordTime? k = none) ∧
    ∀ (ps : List Producer) (e : Stop), evalAll s w k ps = .error e → e.failure? = none →
      ∃ l ∈ leavesAll ps, (l.cursor w).recordTime? k = none := by
  refine forest_induction ?raw ?combined ?nil ?cons
  case raw =>
    intro key name window e h hf
    obtain ⟨ht, -⟩ | ⟨t, f, -, -, rfl⟩ := eval_raw_eq_error.1 h
    · exact ⟨_, by simp, ht⟩
    · cases hf
  case combined =>
    intro key name rule first others ih e h hf
    rw [leaves_combined]
    obtain ⟨e', he', rfl⟩ | ⟨gs, f, -, -, rfl⟩ := eval_combined_eq_error.1 h
    · exact ih e' he' hf
    · cases hf
  case nil =>
    intro e h
    rw [evalAll_nil] at h
    cases h
  case cons =>
    intro p ps ihp ihps e h hf
    rw [leavesAll_cons]
    rcases evalAll_cons_eq_error.1 h with hp | ⟨g, -, hps⟩
    · obtain ⟨l, hl, ht⟩ := ihp e hp hf
      exact ⟨l, List.mem_append_left _ hl, ht⟩
    · obtain ⟨l, hl, ht⟩ := ihps e hps hf
      exact ⟨l, List.mem_append_right _ hl, ht⟩

theorem exists_exhausted (h : p.eval s w k = .error e) (hf : e.failure? = none) :
    ∃ l ∈ p.leaves, (l.cursor w).recordTime? k = none :=
  exists_exhausted_aux.1 p e h hf

theorem exists_exhausted_all (h : evalAll s w k ps = .error e) (hf : e.failure? = none) :
    ∃ l ∈ leavesAll ps, (l.cursor w).recordTime? k = none :=
  exists_exhausted_aux.2 ps e h hf

private theorem eval_of_exhausted_aux :
    (∀ p : Producer, (∀ l ∈ p.leaves, (l.cursor w).recordTime? k = none) →
      ∃ path, p.eval s w k = .error ⟨path, none⟩) ∧
    ∀ ps, (∀ l ∈ leavesAll ps, (l.cursor w).recordTime? k = none) → ps ≠ [] →
      ∃ path, evalAll s w k ps = .error ⟨path, none⟩ := by
  refine forest_induction ?raw ?combined ?nil ?cons
  case raw =>
    intro key name window h
    exact ⟨_, eval_raw_eq_error.2 (.inl ⟨h _ (by simp), rfl⟩)⟩
  case combined =>
    intro key name rule first others ih h
    rw [leaves_combined] at h
    obtain ⟨path, hp⟩ := ih h (List.cons_ne_nil _ _)
    exact ⟨_, eval_combined_eq_error.2 (.inl ⟨_, hp, rfl⟩)⟩
  case nil =>
    intro _ h
    exact absurd rfl h
  case cons =>
    intro p ps ihp _ h _
    rw [leavesAll_cons] at h
    obtain ⟨path, hp⟩ := ihp fun l hl => h l (List.mem_append_left _ hl)
    exact ⟨path, evalAll_cons_eq_error.2 (.inl hp)⟩

/-- A tree whose leaves have no record left ends at its first leaf. -/
theorem eval_of_exhausted (h : ∀ l ∈ p.leaves, (l.cursor w).recordTime? k = none) :
    ∃ path, p.eval s w k = .error ⟨path, none⟩ :=
  eval_of_exhausted_aux.1 p h

end Producer

end GridStream
