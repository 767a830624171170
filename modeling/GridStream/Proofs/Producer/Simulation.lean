import GridStream.Proofs.Producer.Move

/-!
# Simulations

A relation between worlds is a simulation if it is kept by each of the single things that a pull
does, done in both worlds (`Producer.Simulation`). The slots of a producer may stand under other
keys in the second world. Pulls and closings of whole trees keep a simulation, and they give the
same answers in both worlds (`Producer.Simulation.pull`, `Producer.Simulation.close`). If the same
files are open in both worlds, it is enough to look at the steps that reading a record takes
(`Producer.Lockstep`).
-/

namespace GridStream

namespace Producer

mutual

/-- The producer with its keys renamed. -/
def rename (ρ : Nat → Nat) : Producer → Producer
  | raw key name window => raw (ρ key) name window
  | combined key name rule first others =>
    combined (ρ key) name rule (rename ρ first) (renameAll ρ others)

/-- Several producers with their keys renamed. -/
def renameAll (ρ : Nat → Nat) : List Producer → List Producer
  | [] => []
  | p :: ps => rename ρ p :: renameAll ρ ps

end

section
variable {ρ σ : Nat → Nat} {p : Producer} {ps qs : List Producer}

@[simp] theorem renameAll_eq_map : renameAll ρ ps = ps.map (rename ρ) := by
  induction ps with
  | nil => rw [renameAll, List.map_nil]
  | cons p ps ih => rw [renameAll, ih, List.map_cons]

@[simp] theorem key_rename : (p.rename ρ).key = ρ p.key := by
  cases p <;> simp [rename, key]

@[simp] theorem name_rename : (p.rename ρ).name = p.name := by
  cases p <;> simp [rename, name]

@[simp] theorem text_rename : (p.rename ρ).text = p.text := by
  cases p <;> simp [rename, text, kind, name]

theorem map_name_rename : (ps.map (rename ρ)).map Producer.name = ps.map Producer.name := by
  rw [List.map_map]
  exact List.map_congr_left fun p _ => name_rename

private theorem rename_congr_aux :
    (∀ p : Producer, (∀ k ∈ p.keys, σ k = ρ k) → p.rename σ = p.rename ρ) ∧
    ∀ ps : List Producer, (∀ k ∈ keysAll ps, σ k = ρ k) →
      ps.map (rename σ) = ps.map (rename ρ) := by
  refine forest_induction ?raw ?combined ?nil ?cons
  case raw =>
    intro key name window h
    rw [rename, rename, h key (by simp)]
  case combined =>
    intro key name rule first others ih h
    rw [keys_combined, List.forall_mem_cons] at h
    have hi := ih h.2
    rw [List.map_cons, List.map_cons, List.cons.injEq] at hi
    rw [rename, rename, renameAll_eq_map, renameAll_eq_map, h.1, hi.1, hi.2]
  case nil =>
    intro _
    rfl
  case cons =>
    intro p ps ihp ihps h
    rw [keysAll_cons, List.forall_mem_append] at h
    rw [List.map_cons, List.map_cons, ihp h.1, ihps h.2]

/-- Only the keys of a producer matter. -/
theorem rename_congr (h : ∀ k ∈ p.keys, σ k = ρ k) : p.rename σ = p.rename ρ :=
  rename_congr_aux.1 p h

theorem map_rename_congr (h : ∀ k ∈ keysAll ps, σ k = ρ k) :
    ps.map (rename σ) = ps.map (rename ρ) :=
  rename_congr_aux.2 ps h

private theorem rename_id_aux : (∀ p : Producer, p.rename id = p) ∧
    ∀ ps : List Producer, ps.map (rename id) = ps := by
  refine forest_induction ?raw ?combined ?nil ?cons
  case raw =>
    intro key name window
    rw [rename, id]
  case combined =>
    intro key name rule first others ih
    rw [List.map_cons, List.cons.injEq] at ih
    rw [rename, renameAll_eq_map, ih.1, ih.2, id]
  case nil => rfl
  case cons =>
    intro p ps ihp ihps
    rw [List.map_cons, ihp, ihps]

@[simp] theorem rename_id : p.rename id = p :=
  rename_id_aux.1 p

@[simp] theorem map_rename_id : ps.map (rename id) = ps :=
  rename_id_aux.2 ps

end

end Producer

/-- Whether two results are the same and leave worlds that are related. -/
def World.Coupled {α : Type} (R : World → World → Prop) (x y : α × World) : Prop :=
  y.1 = x.1 ∧ R x.2 y.2

theorem World.Coupled.exists_eq {α : Type} {R : World → World → Prop} {x y : α × World}
    (h : Coupled R x y) : ∃ r v w, x = (r, v) ∧ y = (r, w) ∧ R v w :=
  ⟨x.1, x.2, y.2, rfl, Prod.ext h.1 rfl, h.2⟩

namespace Producer
open World

variable {s : Source} {ρ : Nat → Nat} {keys : List Nat} {R : World → World → Prop} {v w : World}
  {key : Nat} {title : Value} {rule : Rule} {first p : Producer} {others ps : List Producer}

/-! ## Closing -/

private theorem related_close_aux
    (hr : ∀ {v w : World} {k : Nat}, R v w → k ∈ keys → R (v.release k) (w.release (ρ k))) :
    (∀ p : Producer, p.keys ⊆ keys → ∀ v w : World, R v w →
      R (close v p) (close w (p.rename ρ))) ∧
    ∀ ps : List Producer, keysAll ps ⊆ keys → ∀ v w : World, R v w →
      R (closeAll v ps) (closeAll w (ps.map (rename ρ))) := by
  refine forest_induction ?raw ?combined ?nil ?cons
  case raw =>
    intro key name window hk v w h
    rw [rename, close, close]
    exact hr h (hk (by simp))
  case combined =>
    intro key name rule first others ih hk v w h
    rw [keys_combined, List.cons_subset] at hk
    have hi := ih hk.2 v w h
    rwa [List.map_cons, closeAll, closeAll, ← renameAll_eq_map, ← close, ← close, ← rename] at hi
  case nil =>
    intro _ v w h
    rwa [List.map_nil, closeAll, closeAll]
  case cons =>
    intro p ps ihp ihps hk v w h
    rw [keysAll_cons, List.append_subset] at hk
    rw [List.map_cons, closeAll, closeAll]
    exact ihps hk.2 _ _ (ihp hk.1 v w h)

/-- What is kept when single files are closed is kept when a tree is closed. -/
theorem related_close
    (hr : ∀ {v w : World} {k : Nat}, R v w → k ∈ keys → R (v.release k) (w.release (ρ k)))
    (h : R v w) (hk : p.keys ⊆ keys) : R (close v p) (close w (p.rename ρ)) :=
  (related_close_aux hr).1 p hk v w h

/-! ## What a pull consists of -/

/-- A relation of worlds that is kept by all that a pull does besides reading, and under which the
times and the failures of producers are the same. The slots of the given keys stand under other
keys in the second world. -/
structure Coupling (ρ : Nat → Nat) (keys : List Nat) (R : World → World → Prop) : Prop where
  timestamp {v w : World} {k : Nat} (h : R v w) (hk : k ∈ keys) :
    (w.slot (ρ k)).timestamp = (v.slot k).timestamp
  failure {v w : World} {k : Nat} (h : R v w) (hk : k ∈ keys) :
    (w.slot (ρ k)).failure = (v.slot k).failure
  pulled {v w : World} {k : Nat} (h : R v w) (hk : k ∈ keys) :
    R (v.record (.pulled k)) (w.record (.pulled (ρ k)))
  applied {v w : World} {k : Nat} (h : R v w) (hk : k ∈ keys) :
    R (v.record (.applied k)) (w.record (.applied (ρ k)))
  stamp {v w : World} {k : Nat} (h : R v w) (hk : k ∈ keys) (time : Option Instant) :
    R (v.modify k fun slot => { slot with timestamp := time })
      (w.modify (ρ k) fun slot => { slot with timestamp := time })
  halt {v w : World} {k : Nat} (h : R v w) (hk : k ∈ keys) (f : Failure) :
    R (v.modify k fun slot => { slot with failure := some f })
      (w.modify (ρ k) fun slot => { slot with failure := some f })
  release {v w : World} {k : Nat} (h : R v w) (hk : k ∈ keys) :
    R (v.release k) (w.release (ρ k))

/-- A relation of worlds that is kept by whatever a pull does, and under which the records that are
read are the same. -/
structure Simulation (s : Source) (ρ : Nat → Nat) (keys : List Nat)
    (R : World → World → Prop) : Prop extends Coupling ρ keys R where
  readNext {v w : World} {k : Nat} (h : R v w) (hk : k ∈ keys) (hf : (v.slot k).failure = none)
    (name : String) (window : Window) :
    Coupled R (readNext s v k name window) (readNext s w (ρ k) name window)

/-- A relation of worlds under which the same files are open, and which is kept by each of the
steps that reading a record takes. -/
structure Lockstep (ρ : Nat → Nat) (keys : List Nat) (R : World → World → Prop) : Prop
    extends Coupling ρ keys R where
  position {v w : World} {k : Nat} (h : R v w) (hk : k ∈ keys) :
    (w.slot (ρ k)).position = (v.slot k).position
  fileTime {v w : World} {k : Nat} (h : R v w) (hk : k ∈ keys) :
    (w.slot (ρ k)).fileTime = (v.slot k).fileTime
  place {v w : World} {k : Nat} (h : R v w) (hk : k ∈ keys) (position : Instant) :
    R (v.modify k fun slot => { slot with position }) (w.modify (ρ k) fun slot =>
      { slot with position })
  announce {v w : World} (h : R v w) (message : String) :
    R (v.announce message) (w.announce message)
  requested {v w : World} (h : R v w) (start : Instant) :
    R (v.record (.requested start)) (w.record (.requested start))
  take {v w : World} {k : Nat} (h : R v w) (hk : k ∈ keys) (start : Instant) (file : DataFile) :
    R (v.take k start file) (w.take (ρ k) start file)
  readHeld {v w : World} {k : Nat} (h : R v w) (hk : k ∈ keys) (name : String) (index : Int) :
    Coupled R (v.readHeld k name index) (w.readHeld (ρ k) name index)

/-! ## Reading -/

namespace Lockstep

variable {name : String} {window : Window} {start time : Instant}

theorem stepInto (H : Lockstep ρ keys R) (h : R v w) (hk : key ∈ keys) :
    Coupled R (stepInto s v key name start) (stepInto s w (ρ key) name start) := by
  have hr := H.release h hk
  simp only [Producer.stepInto, World.openFile]
  cases s.describe start with
  | error f => exact ⟨rfl, hr⟩
  | ok path =>
    have hq := H.requested (H.announce hr s!"Reading {name} from {path}") start
    cases s.openAt start with
    | error f => exact ⟨rfl, hq⟩
    | ok file => exact ⟨rfl, H.take hq hk start file⟩

theorem enter (H : Lockstep ρ keys R) (h : R v w) (hk : key ∈ keys) :
    Coupled R (enter s v key name start) (enter s w (ρ key) name start) := by
  unfold Producer.enter
  rw [H.fileTime h hk]
  split
  · exact ⟨rfl, h⟩
  · exact H.stepInto h hk

theorem readRecordAt (H : Lockstep ρ keys R) (h : R v w) (hk : key ∈ keys) :
    Coupled R (readRecordAt s v key name window time)
      (readRecordAt s w (ρ key) name window time) := by
  unfold Producer.readRecordAt
  cases window.fileStart? time with
  | none => exact ⟨rfl, h⟩
  | some start =>
    have he : Coupled R (Producer.enter s v key name start)
        (Producer.enter s w (ρ key) name start) := H.enter h hk
    obtain ⟨r, v₁, w₁, hv, hw, h₁⟩ := he.exists_eq
    simp only [hv, hw]
    cases r with
    | error f => exact ⟨rfl, h₁⟩
    | ok =>
      obtain ⟨r, v₂, w₂, hv, hw, h₂⟩ :=
        (H.readHeld h₁ hk name (window.recordIndex time)).exists_eq
      simp only [hv, hw]
      cases r with
      | error f => exact ⟨rfl, h₂⟩
      | ok g => exact ⟨rfl, H.stamp h₂ hk (some time)⟩

/-- Where the same files are open, the same records are read. -/
theorem simulation (H : Lockstep ρ keys R) : Simulation s ρ keys R where
  toCoupling := H.toCoupling
  readNext {v w k} h hk _ name window := by
    unfold Producer.readNext
    rw [H.position h hk]
    split
    · exact ⟨rfl, h⟩
    · exact ⟨rfl, h⟩
    · next next _ => exact H.readRecordAt (H.place h hk next.current) hk

end Lockstep

/-! ## Pulling -/

namespace Simulation

theorem close (H : Simulation s ρ keys R) (h : R v w) (hk : p.keys ⊆ keys) :
    R (Producer.close v p) (Producer.close w (p.rename ρ)) :=
  related_close H.release h hk

theorem derive (H : Simulation s ρ keys R) (h : R v w) (hk : key ∈ keys) {time : Option Instant}
    {inputs : List Value} {gs : List Grid} :
    Coupled R (derive v key title rule time inputs gs)
      (derive w (ρ key) title rule time inputs gs) := by
  have ht := H.stamp h hk time
  unfold Producer.derive
  cases checkShapes title inputs (gs.map (·.shape)) with
  | error f => exact ⟨rfl, ht⟩
  | ok =>
    cases rule.apply title time gs with
    | error f => exact ⟨rfl, H.applied ht hk⟩
    | ok g => exact ⟨rfl, H.applied ht hk⟩

theorem conclude (H : Simulation s ρ keys R) {x y : Pull (List Grid) × World}
    (hxy : Coupled R x y) (hk : key ∈ keys) (hf : first.key ∈ keys) :
    Coupled R (conclude key title rule first others x)
      (conclude (ρ key) title rule (first.rename ρ) (others.map (rename ρ)) y) := by
  obtain ⟨r, v, w, rfl, rfl, h⟩ := hxy.exists_eq
  cases r with
  | finished => exact ⟨rfl, h⟩
  | failed f => exact ⟨rfl, h⟩
  | item gs =>
    have ht : (first.rename ρ).timestamp w = first.timestamp v := by
      rw [Producer.timestamp, key_rename, H.timestamp h hf, Producer.timestamp]
    have hn : (first.rename ρ :: others.map (rename ρ)).map Producer.name =
        (first :: others).map Producer.name := by
      rw [← List.map_cons, map_name_rename]
    simp only [Producer.conclude, ht, hn]
    exact H.derive h hk

theorem settle (H : Simulation s ρ keys R) {x y : Pull Grid × World} (hxy : Coupled R x y)
    (hk : p.keys ⊆ keys) : Coupled R (settle p x) (settle (p.rename ρ) y) := by
  obtain ⟨r, v, w, rfl, rfl, h⟩ := hxy.exists_eq
  cases r with
  | item g => exact ⟨rfl, h⟩
  | finished => exact ⟨rfl, H.close h hk⟩
  | failed f =>
    have hm := H.halt h (hk p.key_mem_keys) f
    refine ⟨rfl, ?_⟩
    simp only [Producer.settle, key_rename]
    exact H.close hm hk

/-- A producer that has failed says so again. -/
private theorem pull_failed (H : Simulation s ρ keys R) (h : R v w) (hk : p.key ∈ keys)
    {f : Failure} (hf : (v.slot p.key).failure = some f) :
    Coupled R (p.pull s v) ((p.rename ρ).pull s w) := by
  have hf' : (w.slot (p.rename ρ).key).failure = some f := by
    rw [key_rename, H.failure h hk, hf]
  rw [pull_of_failed hf, pull_of_failed hf', name_rename, key_rename]
  exact ⟨rfl, H.pulled h hk⟩

private theorem pull_aux (H : Simulation s ρ keys R) :
    (∀ p : Producer, p.keys ⊆ keys → ∀ v w : World, R v w →
      Coupled R (p.pull s v) ((p.rename ρ).pull s w)) ∧
    ∀ ps : List Producer, keysAll ps ⊆ keys → ∀ v w : World, R v w →
      Coupled R (pullAll s v ps) (pullAll s w (ps.map (rename ρ))) := by
  refine forest_induction ?raw ?combined ?nil ?cons
  case raw =>
    intro key name window hk v w h
    have hkey : key ∈ keys := hk (by simp)
    cases hv : (v.slot key).failure with
    | some f => exact H.pull_failed h hkey hv
    | none =>
      have hr := H.readNext (H.pulled h hkey) hkey hv name window
      rw [rename, pull_raw hv, pull_raw (by rw [H.failure h hkey, hv]), ← rename]
      exact H.settle hr hk
  case combined =>
    intro key name rule first others ih hk v w h
    have hsub := hk
    rw [keys_combined, List.cons_subset] at hsub
    cases hv : (v.slot key).failure with
    | some f => exact H.pull_failed h hsub.1 hv
    | none =>
      have hi := ih hsub.2 _ _ (H.pulled h hsub.1)
      have hfirst : first.key ∈ keys :=
        hsub.2 (by rw [keysAll_cons]; exact List.mem_append_left _ first.key_mem_keys)
      have hc : Coupled R (Producer.conclude key name rule first others _)
          (Producer.conclude (ρ key) name rule (first.rename ρ) (others.map (rename ρ)) _) :=
        H.conclude hi hsub.1 hfirst
      have hr := H.settle (p := combined key name rule first others) hc hk
      rw [rename, renameAll_eq_map] at hr ⊢
      rwa [pull_combined hv, pull_combined (by rw [H.failure h hsub.1, hv])]
  case nil =>
    intro _ v w h
    rw [List.map_nil, pullAll_nil, pullAll_nil]
    exact ⟨rfl, h⟩
  case cons =>
    intro p ps ihp ihps hk v w h
    rw [keysAll_cons, List.append_subset] at hk
    obtain ⟨r, v₁, w₁, hv, hw, h₁⟩ := (ihp hk.1 v w h).exists_eq
    rw [List.map_cons, pullAll, pullAll, hv, hw]
    cases r with
    | finished => exact ⟨rfl, h₁⟩
    | failed f => exact ⟨rfl, h₁⟩
    | item g =>
      obtain ⟨r, v₂, w₂, hv, hw, h₂⟩ := (ihps hk.2 v₁ w₁ h₁).exists_eq
      simp only [hv, hw]
      cases r with
      | finished => exact ⟨rfl, h₂⟩
      | failed f => exact ⟨rfl, h₂⟩
      | item gs => exact ⟨rfl, h₂⟩

theorem pull (H : Simulation s ρ keys R) (h : R v w) (hk : p.keys ⊆ keys) :
    Coupled R (p.pull s v) ((p.rename ρ).pull s w) :=
  (pull_aux H).1 p hk v w h

end Simulation

end Producer

end GridStream
