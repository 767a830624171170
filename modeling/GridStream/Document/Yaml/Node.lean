import GridStream.Document.Yaml.Scalar

/-!
# Nodes of YAML

A document is a tree of nodes, and every node with its tag stands for a value. An alias is a node
that stands in another place as well.

Values are made level by level: the items of a collection after all collections of the level that it
is on have been begun. So what is wrong on a higher level is met first, and of one level what stands
further in front (`Halt.before`). The items of a set are shown in an order that the document does
not determine; here they are in that of the document.
-/

namespace GridStream.Yaml

/-- A node of a document. Of a mapping, `written` are the entries as they are written, and `entries`
those that it has once other mappings are merged into it, if they can be. -/
inductive Node
  | scalar (tag : Tag) (text : String)
  | sequence (tag : Tag) (items : List Node)
  | mapping (tag : Tag) (written : List (Node × Node)) (entries : Option (List (Node × Node)))
  | reference (n : Node)
  deriving Inhabited

namespace Node

def tag : Node → Tag
  | scalar tag _ | sequence tag _ | mapping tag _ _ => tag
  | reference n => n.tag

/-- A node whose tag says that it stands for a mapping, as the text that it is as a key. -/
def asKey : Node → Node
  | scalar .default text => scalar .text text
  | sequence .default items => sequence .text items
  | mapping .default written entries => mapping .text written entries
  | reference n => if n.tag = .default then n.asKey else reference n
  | n => n

/-! ## Merging -/

/-- The entries of a mapping. Those of an alias stand in another place as well. -/
def entries? : Node → Option (List (Node × Node))
  | mapping _ _ entries => entries
  | reference n => n.entries?.map (·.map fun (k, v) => (reference k, reference v))
  | _ => none

/-- The entries that take the place of a key for merging: those of a mapping, or of all mappings in
a sequence, the last one first. -/
def merged? : Node → Option (List (Node × Node))
  | sequence _ items => (items.reverse.mapM entries?).map List.flatten
  | reference (sequence _ items) =>
    (items.reverse.mapM fun n => (reference n).entries?).map List.flatten
  | n => n.entries?

/-- The entries of a mapping with what is merged into it in front. -/
def withMerged (written : List (Node × Node)) : Option (List (Node × Node)) := do
  let merged ← (written.filter (·.1.tag == .merge)).mapM (·.2.merged?)
  let own := written.filter (·.1.tag != .merge)
  some (merged.flatten ++ own.map fun (k, v) => (k.asKey, v))

mutual

/-- The text of a node where a scalar is asked for. A mapping may have a key for it. -/
def text? : Node → Option String
  | scalar _ text => some text
  | sequence _ _ => none
  | mapping _ written _ => defaultText? written
  | reference n => n.text?

/-- The text of the first entry with a key that stands for the whole mapping. -/
def defaultText? : List (Node × Node) → Option String
  | [] => none
  | (k, v) :: rest => if k.tag = .default then v.text? else defaultText? rest

end

end Node

/-! ## Making values -/

/-- What making a value ends with, and on which level below the node. -/
structure Halt where
  level : Nat
  fault : Fault

/-- Whether something is met before something else that stands behind it. That a document is no tree
is not met at all. -/
def Halt.before (a b : Halt) : Bool :=
  match a.fault, b.fault with
  | .entangled, _ => false
  | _, .entangled => true
  | _, _ => a.level < b.level

/-- What comes of making something from nodes. -/
abbrev Made (α : Type) := Except Halt α

namespace Made

variable {α β : Type}

/-- Nothing but a failure, on the level of the node or on one below it. -/
def fail (fault : Fault) (level : Nat := 0) : Made α := .error ⟨level, fault⟩

def ofRead (a : Except Fault α) : Made α := a.mapError (⟨0, ·⟩)

/-- A collection of what is made a level below it. -/
def collect (f : α → β) (a : Made α) : Made β :=
  match a with
  | .ok a => .ok (f a)
  | .error h => .error { h with level := h.level + 1 }

/-- Makes two things of one level. -/
def both (a : Made α) (b : Made β) : Made (α × β) :=
  match a, b with
  | .ok a, .ok b => .ok (a, b)
  | .ok _, .error h | .error h, .ok _ => .error h
  | .error h, .error k => .error (if k.before h then k else h)

end Made

/-- Whether a value can be told from an equal one: a date or a collection. -/
def hasIdentity : Value → Bool
  | .date _ | .instant _ | .zoned .. | .list _ | .tuple _ | .set _ | .map _ => true
  | _ => false

/-- What stands in several places must not matter there. -/
def Made.unshared (a : Made Value) : Made Value := do
  let v ← a
  if hasIdentity v then fail .entangled else .ok v

/-- What a mapping stands for where a scalar of a type is asked for: what the text of its key for
that stands for, if there is one. A time is looked for in the mapping itself, which is no text. -/
def scalarOf (tag : Tag) (text? : Option String) : Made Value :=
  match text? with
  | some text => if tag = .timestamp then .fail (.raised "TypeError") else .ofRead (tag.read text)
  | none => .fail .malformed

mutual

/-- The value that a node stands for. -/
def Node.value : Node → Made Value
  | .scalar tag text =>
    if tag.isCollection then .fail .malformed 1 else .ofRead (tag.read text)
  | .sequence tag items =>
    match tag with
    | .sequence => .collect .list (valuesOf items)
    | .ordered | .pairs => .collect .list (pairsOf items)
    | .mapping | .set => .fail .malformed 1
    | _ => .fail .malformed
  | .mapping tag written entries =>
    match tag, entries with
    | .mapping, some entries => .collect (fun es => .map (Mapping.ofEntries es)) (entriesOf entries)
    | .set, some entries =>
      .collect (fun es => .set ((Mapping.ofEntries es).map (·.1))) (entriesOf entries)
    | .mapping, none | .set, none | .sequence, _ | .ordered, _ | .pairs, _ =>
      .fail .malformed 1
    | tag, _ => scalarOf tag (Node.defaultText? written)
  | .reference n => if n.tag = .default then .fail .entangled else n.value.unshared

/-- The values of the items of a sequence. -/
def valuesOf : List Node → Made (List Value)
  | [] => .ok []
  | n :: ns => (n.value.both (valuesOf ns)).map fun (v, vs) => v :: vs

/-- The items of a sequence as pairs. -/
def pairsOf : List Node → Made (List Value)
  | [] => .ok []
  | n :: ns => (n.pair.both (pairsOf ns)).map fun (v, vs) => v :: vs

/-- A mapping with a single entry as a pair. -/
def Node.pair : Node → Made Value
  | .mapping _ [(k, v)] _ => (k.value.both v.value).map fun (k, v) => .tuple [k, v]
  | .reference n => n.pair.unshared
  | _ => .fail .malformed

/-- The entries of a mapping. A collection is no key, whatever it holds. -/
def entriesOf : List (Node × Node) → Made Mapping
  | [] => .ok []
  | (k, v) :: rest =>
    let key := if k.tag.isCollection then .fail .malformed else k.value
    ((key.both v.value).both (entriesOf rest)).map fun (e, es) => e :: es

end

end GridStream.Yaml
