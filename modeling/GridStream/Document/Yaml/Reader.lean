import GridStream.Document.Yaml.Node
import GridStream.Document.Yaml.Token

/-!
# Reading YAML

The second stage of reading puts tokens together to a tree of nodes, the third makes values of the
nodes. A document that is empty is a null. A text has one document at most. A node may have an
anchor, whose name then stands for it, and a tag; without a tag, its type is the one that it looks
like. Collections may stand in each other as deep as they like.
-/

namespace GridStream.Yaml

/-- The state of putting nodes together. -/
structure Composition where
  tokens : List Token
  /-- What handles stand for in front of tags. -/
  handles : List (String × String) := [("!", "!"), ("!!", usualStart)]
  /-- The nodes with anchors; those that are not complete yet are missing. -/
  anchors : List (String × Option Node) := []
  /-- Whether an alias stands for a node that it is a part of. -/
  isCyclic : Bool := false

/-- A step of putting nodes together. -/
abbrev Composer := StateT Composition (Except Fault)

namespace Composer

/-- The next token. The text may be broken there. -/
def next : Composer (Option Token) := do
  match (← get).tokens.head? with
  | some (.broken f) => throw f
  | t? => return t?

/-- Passes over a token. -/
def advance : Composer Unit := modify fun c => { c with tokens := c.tokens.tail }

/-- Whether the next token is one of the given ones. -/
def nextIsIn (expected : List Token) : Composer Bool := return (← next).any expected.contains

/-- Passes over the next token if it is the given one. -/
def accept (t : Token) : Composer Bool := do
  if ← nextIsIn [t] then
    advance
    return true
  else return false

/-- Passes over the next token, which must be the given one. -/
def expect (t : Token) : Composer Unit := do
  if ← accept t then return else throw .malformed

/-- The full name of a tag, whose handle must be known. -/
def fullName (handle : Option String) (suffix : String) : Composer String :=
  match handle with
  | none => return suffix
  | some handle => do
    match (← get).handles.find? (·.1 == handle) with
    | some (_, start) => return start ++ suffix
    | none => throw .malformed

/-- The anchor of a node and the full name of its tag, in either order. -/
def properties : Composer (Option String × Option String) := do
  match ← next with
  | some (.anchor name) =>
    advance
    match ← next with
    | some (.tag handle suffix) =>
      advance
      return (some name, some (← fullName handle suffix))
    | _ => return (some name, none)
  | some (.tag handle suffix) =>
    advance
    match ← next with
    | some (.anchor name) =>
      advance
      return (some name, some (← fullName handle suffix))
    | _ => return (none, some (← fullName handle suffix))
  | _ => return (none, none)

/-- The node that an alias stands for. -/
def aliased (name : String) : Composer Node := do
  match (← get).anchors.find? (·.1 == name) with
  | some (_, some n) => return .reference n
  | some (_, none) =>
    modify fun c => { c with isCyclic := true }
    return .scalar .null ""
  | none => throw .malformed

/-- Begins a node with an anchor, which must be new. What stands behind the properties of the node
is asked for before that. -/
def openAnchor (name : String) : Composer Unit := do
  discard next
  if (← get).anchors.any (·.1 == name) then throw .malformed
  else modify fun c => { c with anchors := (name, none) :: c.anchors }

/-- Ends the node with an anchor. -/
def closeAnchor (name : String) (n : Node) : Composer Unit :=
  modify fun c => { c with anchors := (name, some n) :: c.anchors }

/-- The tag of a collection. An exclamation mark alone leaves the usual one. -/
def collectionTag (usual : Tag) : Option String → Tag
  | none | some "!" => usual
  | some name => .ofName name

/-- The tag of a scalar. An exclamation mark alone leaves what it looks like, with quotes or not. -/
def scalarTag (tag : Option String) (text : String) (plain : Bool) : Tag :=
  match tag with
  | none => if plain then typeOf text else .text
  | some "!" => typeOf text
  | some name => .ofName name

/-- The node that stands where there is none. -/
def emptyNode (tag : Option String) : Node := .scalar (scalarTag tag "" true) ""

def sequence (tag : Option String) (items : List Node) : Node :=
  .sequence (collectionTag .sequence tag) items

def mapping (tag : Option String) (written : List (Node × Node)) : Node :=
  .mapping (collectionTag .mapping tag) written (Node.withMerged written)

mutual

/-- Puts together a node with its properties, or takes an alias. In block style it may be a block
collection, and behind a key also a sequence that is not indented. -/
def node : (steps : Nat) → (block behindKey : Bool) → Composer Node
  | 0, _, _ => throw .malformed
  | steps + 1, block, behindKey => do
    match ← next with
    | some (.reference name) =>
      advance
      aliased name
    | _ =>
      let (anchor?, tag) ← properties
      match anchor? with
      | some name =>
        openAnchor name
        let n ← content steps block behindKey true tag
        closeAnchor name n
        return n
      | none => content steps block behindKey tag.isSome tag

/-- Puts together a node behind its properties. With properties it may be empty. -/
def content : (steps : Nat) → (block behindKey mayBeEmpty : Bool) → Option String → Composer Node
  | 0, _, _, _, _ => throw .malformed
  | steps + 1, block, behindKey, mayBeEmpty, tag => do
    match ← next, block, behindKey with
    | some .blockEntry, _, true => return sequence tag (← sameIndentItems steps)
    | some (.scalar text plain), _, _ =>
      advance
      return .scalar (scalarTag tag text plain) text
    | some .flowSequenceStart, _, _ =>
      advance
      return sequence tag (← flowItems steps true)
    | some .flowMappingStart, _, _ =>
      advance
      return mapping tag (← flowEntries steps true)
    | some .blockSequenceStart, true, _ =>
      advance
      return sequence tag (← blockItems steps)
    | some .blockMappingStart, true, _ =>
      advance
      return mapping tag (← blockEntries steps)
    | _, _, _ => if mayBeEmpty then return emptyNode tag else throw .malformed

/-- A node, or the empty node before one of the given tokens. -/
def nodeUnless : (steps : Nat) → (ends : List Token) → (block behindKey : Bool) → Composer Node
  | 0, _, _, _ => throw .malformed
  | steps + 1, ends, block, behindKey => do
    if ← nextIsIn ends then return emptyNode none else node steps block behindKey

/-- The value behind a key, empty if there is none. -/
def valueUnless : (steps : Nat) → (ends : List Token) → (block behindKey : Bool) → Composer Node
  | 0, _, _, _ => throw .malformed
  | steps + 1, ends, block, behindKey => do
    if ← accept .value then nodeUnless steps ends block behindKey else return emptyNode none

/-- The items of a block sequence up to its end. -/
def blockItems : (steps : Nat) → Composer (List Node)
  | 0 => throw .malformed
  | steps + 1 => do
    if ← accept .blockEntry then
      let item ← nodeUnless steps [.blockEntry, .blockEnd] true false
      return item :: (← blockItems steps)
    else
      expect .blockEnd
      return []

/-- The items of a sequence that is not indented behind its key. -/
def sameIndentItems : (steps : Nat) → Composer (List Node)
  | 0 => throw .malformed
  | steps + 1 => do
    if ← accept .blockEntry then
      let item ← nodeUnless steps [.blockEntry, .key, .value, .blockEnd] true false
      return item :: (← sameIndentItems steps)
    else return []

/-- The entries of a block mapping up to its end. -/
def blockEntries : (steps : Nat) → Composer (List (Node × Node))
  | 0 => throw .malformed
  | steps + 1 => do
    let ends := [Token.key, Token.value, Token.blockEnd]
    if ← accept .key then
      let key ← nodeUnless steps ends true true
      let value ← valueUnless steps ends true true
      return (key, value) :: (← blockEntries steps)
    else
      expect .blockEnd
      return []

/-- The items of a flow sequence up to its end. A key makes an item a mapping of one entry. -/
def flowItems : (steps : Nat) → (first : Bool) → Composer (List Node)
  | 0, _ => throw .malformed
  | steps + 1, first => do
    if ← accept .flowSequenceEnd then return []
    else
      if !first then expect .flowEntry
      if ← accept .flowSequenceEnd then return []
      else if ← accept .key then
        let key ← nodeUnless steps [.value, .flowEntry, .flowSequenceEnd] false false
        let value ← valueUnless steps [.flowEntry, .flowSequenceEnd] false false
        return mapping none [(key, value)] :: (← flowItems steps false)
      else
        let item ← node steps false false
        return item :: (← flowItems steps false)

/-- The entries of a flow mapping up to its end. -/
def flowEntries : (steps : Nat) → (first : Bool) → Composer (List (Node × Node))
  | 0, _ => throw .malformed
  | steps + 1, first => do
    if ← accept .flowMappingEnd then return []
    else
      if !first then expect .flowEntry
      if ← accept .flowMappingEnd then return []
      else if ← accept .key then
        let key ← nodeUnless steps [.value, .flowEntry, .flowMappingEnd] false false
        let value ← valueUnless steps [.flowEntry, .flowMappingEnd] false false
        return (key, value) :: (← flowEntries steps false)
      else
        let key ← node steps false false
        return (key, emptyNode none) :: (← flowEntries steps false)

end

/-- Takes the directives in front of a document. A version must be a first one, and neither it nor a
handle may be given twice. -/
def directives : (steps : Nat) → (versioned : Bool) → (named : List (String × String)) →
    Composer Unit
  | 0, _, _ => throw .malformed
  | steps + 1, versioned, named => do
    match ← next with
    | some (.directive d) =>
      advance
      match d with
      | .version major =>
        if versioned ∨ major ≠ 1 then throw .malformed else directives steps true named
      | .handle name start =>
        if named.any (·.1 == name) then throw .malformed
        else directives steps versioned (named ++ [(name, start)])
      | .reserved => directives steps versioned named
    | _ => modify fun c => { c with handles := named ++ c.handles }

/-- The node of the only document. There may be none. -/
def document : Composer (Option Node) := do
  let tokens := (← get).tokens
  let steps := 8 * tokens.length + 8
  match tokens with
  | [] => return none
  | .directive _ :: _ | .documentStart :: _ =>
    directives (tokens.length + 1) false []
    expect .documentStart
    if (← next).isNone ∨ (← nextIsIn [.documentStart, .documentEnd]) then
      return some (emptyNode none)
    else return some (← node steps true false)
  | _ => return some (← node steps true false)

/-- The document of a text, behind whose end there must be nothing. -/
def onlyDocument : Composer (Option Node) := do
  let n? ← document
  modify fun c => { c with tokens := c.tokens.dropWhile (· == .documentEnd) }
  if (← next).isSome then throw .malformed else return n?

end Composer

/-- The value of a document. -/
def read : Reader := fun s => do
  let (node?, c) ← Composer.onlyDocument.run { tokens := tokensOf s }
  match node? with
  | none => return .null
  | some n => if c.isCyclic then throw .entangled else n.value.mapError (·.fault)

end GridStream.Yaml
