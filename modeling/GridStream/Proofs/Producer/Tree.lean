import GridStream.Producer.Basic
import GridStream.Proofs.Producer.World

/-!
# The producers of a tree

A producer draws on its inputs, these on theirs, and so on down to the raw producers, which are the
leaves. Statements about all producers of a tree go by an induction over the tree together with the
list of its inputs (`Producer.forest_induction`), which follows the way a pull takes.
-/

namespace GridStream

/-- What a raw producer reads. -/
structure Leaf where
  key : Nat
  name : String
  window : Window

/-- The position of a raw producer in its window. -/
def Leaf.cursor (l : Leaf) (w : World) : Cursor := ⟨l.window, (w.slot l.key).position⟩

namespace Producer

mutual

/-- A producer and all that it draws on, each producer ahead of its inputs. -/
def nodes : Producer → List Producer
  | raw key name window => [raw key name window]
  | combined key name rule first others =>
    combined key name rule first others :: (nodes first ++ nodesAll others)

/-- Several producers and all that they draw on. -/
def nodesAll : List Producer → List Producer
  | [] => []
  | p :: ps => nodes p ++ nodesAll ps

end

/-- The leaf that a producer is, if it is one. -/
def leaf? : Producer → Option Leaf
  | raw key name window => some ⟨key, name, window⟩
  | combined .. => none

/-- The keys of a producer and of all that it draws on. -/
def keys (p : Producer) : List Nat := p.nodes.map key

/-- The keys of several producers and of all that they draw on. -/
def keysAll (ps : List Producer) : List Nat := (nodesAll ps).map key

/-- The raw producers that a producer draws on. -/
def leaves (p : Producer) : List Leaf := p.nodes.filterMap leaf?

/-- The raw producers that several producers draw on. -/
def leavesAll (ps : List Producer) : List Leaf := (nodesAll ps).filterMap leaf?

/-- The keys of the raw producers that a producer draws on. -/
def leafKeys (p : Producer) : List Nat := p.leaves.map Leaf.key

/-- The keys of the raw producers that several producers draw on. -/
def leafKeysAll (ps : List Producer) : List Nat := (leavesAll ps).map Leaf.key

section
variable {key : Nat} {window : Window} {rule : Rule} {first p : Producer}
  {others ps : List Producer}

@[simp] theorem key_raw {name : String} : (raw key name window).key = key := rfl

@[simp] theorem key_combined {name : Value} : (combined key name rule first others).key = key :=
  rfl

@[simp] theorem nodes_raw {name : String} :
    (raw key name window).nodes = [raw key name window] := by simp [nodes]

@[simp] theorem nodes_combined {name : Value} : (combined key name rule first others).nodes =
    combined key name rule first others :: nodesAll (first :: others) := by
  simp [nodes, nodesAll]

@[simp] theorem nodesAll_nil : nodesAll [] = [] := by simp [nodesAll]

@[simp] theorem nodesAll_cons : nodesAll (p :: ps) = p.nodes ++ nodesAll ps := by simp [nodesAll]

@[simp] theorem keys_raw {name : String} : (raw key name window).keys = [key] := by
  simp [keys, Producer.key]

@[simp] theorem keys_combined {name : Value} : (combined key name rule first others).keys =
    key :: keysAll (first :: others) := by
  simp [keys, keysAll, Producer.key]

@[simp] theorem keysAll_nil : keysAll [] = [] := by simp [keysAll]

@[simp] theorem keysAll_cons : keysAll (p :: ps) = p.keys ++ keysAll ps := by
  simp [keysAll, keys]

theorem mem_keysAll {k : Nat} : k ∈ keysAll ps ↔ ∃ p ∈ ps, k ∈ p.keys := by
  induction ps with
  | nil => simp
  | cons p ps ih => simp [ih]

@[simp] theorem leaves_raw {name : String} :
    (raw key name window).leaves = [⟨key, name, window⟩] := by
  simp [leaves, leaf?]

@[simp] theorem leaves_combined {name : Value} :
    (combined key name rule first others).leaves = leavesAll (first :: others) := by
  rw [leaves, nodes_combined, List.filterMap_cons_none rfl, leavesAll]

@[simp] theorem leavesAll_nil : leavesAll [] = [] := by simp [leavesAll]

@[simp] theorem leavesAll_cons : leavesAll (p :: ps) = p.leaves ++ leavesAll ps := by
  simp [leavesAll, leaves]

@[simp] theorem leafKeys_raw {name : String} : (raw key name window).leafKeys = [key] := by
  simp [leafKeys]

@[simp] theorem leafKeys_combined {name : Value} :
    (combined key name rule first others).leafKeys = leafKeysAll (first :: others) := by
  simp [leafKeys, leafKeysAll]

@[simp] theorem leafKeysAll_nil : leafKeysAll [] = [] := by simp [leafKeysAll]

@[simp] theorem leafKeysAll_cons : leafKeysAll (p :: ps) = p.leafKeys ++ leafKeysAll ps := by
  simp [leafKeysAll, leafKeys]

end

/-- Induction over a tree and the lists of inputs in it. A combined producer may use what holds of
the list of all its inputs. -/
theorem forest_induction {P : Producer → Prop} {Q : List Producer → Prop}
    (raw : ∀ key name window, P (raw key name window))
    (combined : ∀ key name rule first others, Q (first :: others) →
      P (combined key name rule first others))
    (nil : Q []) (cons : ∀ p ps, P p → Q ps → Q (p :: ps)) : (∀ p, P p) ∧ ∀ ps, Q ps := by
  have tree : ∀ p, P p := @Producer.rec P Q raw
    (fun key name rule first others ihf iho =>
      combined key name rule first others (cons first others ihf iho)) nil cons
  refine ⟨tree, fun ps => ?_⟩
  induction ps with
  | nil => exact nil
  | cons p ps ih => exact cons _ _ (tree p) ih

theorem key_mem_keys (p : Producer) : p.key ∈ p.keys := by
  cases p <;> simp [Producer.key]

theorem leafKeys_subset_keys (p : Producer) : p.leafKeys ⊆ p.keys := by
  intro k hk
  simp only [leafKeys, leaves, List.mem_map, List.mem_filterMap] at hk
  obtain ⟨l, ⟨q, hq, hl⟩, rfl⟩ := hk
  cases q with
  | raw key name window =>
    cases hl
    exact List.mem_map.2 ⟨_, hq, rfl⟩
  | combined => cases hl

theorem leafKeysAll_subset_keysAll (ps : List Producer) : leafKeysAll ps ⊆ keysAll ps := by
  induction ps with
  | nil => simp
  | cons p ps ih =>
    simp only [leafKeysAll_cons, keysAll_cons]
    exact List.append_subset.2 ⟨List.subset_append_of_subset_left _ p.leafKeys_subset_keys,
      List.subset_append_of_subset_right _ ih⟩

/-- Every producer of a tree has a slot. -/
def Placed (p : Producer) (w : World) : Prop := ∀ k ∈ p.keys, w.HasSlot k

theorem Placed.hasSlot {p : Producer} {w : World} (h : p.Placed w) {k : Nat}
    (hk : k ∈ p.leafKeys) : w.HasSlot k :=
  h k (p.leafKeys_subset_keys hk)

/-! ## A pull, one case at a time -/

variable {s : Source} {w : World} {key : Nat} {window : Window} {rule : Rule}
  {first p : Producer} {others ps : List Producer}

theorem pull_of_failed {f : Failure} (h : (w.slot p.key).failure = some f) :
    p.pull s w = (.failed (haltedFailure p.name f), w.record (.pulled p.key)) := by
  cases p <;> simp_all [pull, Producer.key, Producer.name]

theorem pull_raw {name : String} (h : (w.slot key).failure = none) :
    (raw key name window).pull s w =
      settle (raw key name window) (readNext s (w.record (.pulled key)) key name window) := by
  simp [pull, h]

/-- What a combined producer makes of the answers of its inputs. -/
def conclude (key : Nat) (name : Value) (rule : Rule) (first : Producer)
    (others : List Producer) : Pull (List Grid) × World → Pull Grid × World
  | (.finished, w) => (.finished, w)
  | (.failed f, w) => (.failed f, w)
  | (.item gs, w) =>
    derive w key name rule (first.timestamp w) ((first :: others).map Producer.name) gs

theorem pull_combined {name : Value} (h : (w.slot key).failure = none) :
    (combined key name rule first others).pull s w =
      settle (combined key name rule first others)
        (conclude key name rule first others
          (pullAll s (w.record (.pulled key)) (first :: others))) := by
  simp only [pull, World.slot_record, h, pullAll]
  rcases pull s (w.record (.pulled key)) first with ⟨_ | _ | _, w₁⟩
  · dsimp only
    rcases pullAll s w₁ others with ⟨_ | _ | _, w₂⟩ <;> rfl
  · rfl
  · rfl

@[simp] theorem pullAll_nil : pullAll s w [] = (.item [], w) := by simp [pullAll]

/-! ## A small tree -/

/-- Two hours with a record each, in files of one hour. -/
def sampleWindow : Window where
  start := ⟨0, by decide⟩
  stop := ⟨7200000000, by decide⟩
  record := .hours 1
  file := .hours 1
  start_le_stop := by decide
  record_pos := by decide
  record_le_file := by decide
  whole := by decide

/-- A producer of the first of its two inputs. -/
def sample : Producer :=
  combined 2 (.text "S") (.function fun gs => .ok (gs.headD default))
    (raw 0 "A" sampleWindow) [raw 1 "B" sampleWindow]

/-- A world in which the small tree has not been pulled. -/
def sampleWorld : World :=
  { slots := #[{ position := sampleWindow.start }, { position := sampleWindow.start }, default] }

/-- Files of which only some variables are readable, not the same ones at all times. -/
def sampleSource (readable : Instant → String → Bool) : Source where
  describe _ := .ok "file"
  openAt t := .ok {
    read := fun name _ => if readable t name then .ok default else .error .outOfCalendar
    extent := fun _ _ => .ok 1 }

theorem sample_placed : sample.Placed sampleWorld := by
  simp [Placed, sample, sampleWorld, World.HasSlot]

theorem slot_sampleWorld (k : Nat) : ((sampleWorld.slot k).handle = none ∧
    (sampleWorld.slot k).fileTime = none) ∧ (sampleWorld.slot k).failure = none := by
  by_cases hs : sampleWorld.HasSlot k
  · obtain rfl | rfl | rfl : k = 0 ∨ k = 1 ∨ k = 2 := by
      simp [World.HasSlot, sampleWorld] at hs
      omega
    all_goals exact ⟨⟨rfl, rfl⟩, rfl⟩
  · rw [World.slot_of_not_hasSlot hs]
    exact ⟨⟨rfl, rfl⟩, rfl⟩

end Producer

end GridStream
