import GridStream.Calendar.Instant
import GridStream.Decimal.Binary

/-!
# Dynamic values

Configuration documents, override layers and the context of errors hold values whose type is known
only at run time. This module has the type, equality across number types, and truth.

A value is a tree. A collection that holds itself is none, and one that stands in two places of a
value stands there twice. Texts consist of characters, so that halves of a pair of surrogates that
stand alone have no place in them. Integers are of any size, however many digits it takes to write
them.
-/

namespace GridStream

/-- A value of a configuration or of an error's context. Mappings keep the order in which their
keys were first set; tuples differ from lists only in how they are written. The items of a set are
in the order in which they are shown. -/
inductive Value
  | null
  | bool (b : Bool)
  | int (n : Int)
  | float (x : Float)
  | text (s : String)
  | bytes (data : List UInt8)
  | date (d : Date)
  | instant (t : Instant)
  /-- What the clocks of a time zone show. -/
  | zoned (t : Instant) (zone : Zone)
  | span (d : Span)
  | list (items : List Value)
  | tuple (items : List Value)
  | set (items : List Value)
  | map (entries : List (Value × Value))
  deriving Inhabited

/-- Keys with their values, in the order in which the keys were first set. -/
abbrev Mapping := List (Value × Value)

namespace Value

/-- The number that a value stands for where numbers of different types are compared. Truth
values count as 0 and 1. -/
inductive Number
  | int (n : Int)
  | float (x : Float)

def number? : Value → Option Number
  | .bool b => some (.int (if b then 1 else 0))
  | .int n => some (.int n)
  | .float x => some (.float x)
  | _ => none

/-- Whether two numbers are equal as real numbers. -/
def Number.same : Number → Number → Bool
  | .int m, .int n => m == n
  | .int m, .float x => Decimal.exactInt? x == some m
  | .float x, .int n => Decimal.exactInt? x == some n
  | .float x, .float y => x == y

mutual

/-- Whether two values are equal. Numbers are compared as real numbers whatever their types, times
in zones as points of universal time, and mappings and sets without regard to their order. -/
def same : Value → Value → Bool
  | .null, .null => true
  | .text s, .text t => s == t
  | .bytes a, .bytes b => a == b
  | .date d, .date e => d == e
  | .instant t, .instant u => t == u
  | .zoned t z, .zoned u y => t.universalMicros z == u.universalMicros y
  | .span d, .span e => d == e
  | .list xs, .list ys => sameItems xs ys
  | .tuple xs, .tuple ys => sameItems xs ys
  | .set xs, .set ys => xs.length == ys.length && sameMembers xs ys
  | .map es, .map fs => es.length == fs.length && sameEntries es fs
  | .bool b, w => sameNumber (.int (if b then 1 else 0)) w
  | .int n, w => sameNumber (.int n) w
  | .float x, w => sameNumber (.float x) w
  | _, _ => false
termination_by structural v => v
where
  /-- Whether a value is a number equal to the given one. -/
  sameNumber (n : Number) (w : Value) : Bool :=
    match w.number? with
    | some m => n.same m
    | none => false

/-- Whether two lists are equal item by item. -/
def sameItems : List Value → List Value → Bool
  | [], [] => true
  | x :: xs, y :: ys => same x y && sameItems xs ys
  | _, _ => false
termination_by structural xs => xs

/-- Whether every item of the first set is in the second. -/
def sameMembers : List Value → List Value → Bool
  | [], _ => true
  | x :: xs, ys => ys.any (same x ·) && sameMembers xs ys
termination_by structural xs => xs

/-- Whether every entry of the first mapping is in the second. -/
def sameEntries : List (Value × Value) → List (Value × Value) → Bool
  | [], _ => true
  | (k, v) :: es, fs => fs.any (fun (l, w) => same k l && same v w) && sameEntries es fs
termination_by structural es => es

end

/-- Whether a value counts as true: all but null, false, zero, and what is empty. -/
def isTrue : Value → Bool
  | .null => false
  | .bool b => b
  | .int n => n != 0
  | .float x => x != 0.0
  | .text s => s != ""
  | .bytes data => !data.isEmpty
  | .span d => d.micros != 0
  | .list items | .tuple items | .set items => !items.isEmpty
  | .map entries => !entries.isEmpty
  | .date _ | .instant _ | .zoned .. => true

/-- Whether a value can be a key. -/
def isKey : Value → Bool
  | .list _ | .set _ | .map _ => false
  | .tuple items => items.attach.all fun ⟨v, _⟩ => v.isKey
  | _ => true

def text? : Value → Option String
  | .text s => some s
  | _ => none

/-- The items that a value consists of: those of a list or a set, the characters of a text, the
numbers of bytes, the keys of a mapping. -/
def items? : Value → Option (List Value)
  | .list items | .tuple items | .set items => some items
  | .text s => some (s.toList.map fun c => .text c.toString)
  | .bytes data => some (data.map fun b => .int b.toNat)
  | .map entries => some (entries.map (·.1))
  | _ => none

def map? : Value → Option Mapping
  | .map entries => some entries
  | _ => none

end Value

namespace Mapping

def get? (m : Mapping) (key : Value) : Option Value :=
  (m.find? fun e => e.1.same key).map (·.2)

/-- The value of a key that is a text. -/
def field? (m : Mapping) (key : String) : Option Value := get? m (.text key)

/-- Sets a key. A key that is there already keeps its place. -/
def put : Mapping → Value → Value → Mapping
  | [], key, value => [(key, value)]
  | (k, v) :: rest, key, value =>
    if k.same key then (k, value) :: rest else (k, v) :: put rest key value

/-- Sets the keys of `entries` one after the other. -/
def update (m entries : Mapping) : Mapping := entries.foldl (fun m e => put m e.1 e.2) m

/-- The mapping with the given entries, the last value of a repeated key counting. -/
def ofEntries (entries : Mapping) : Mapping := update [] entries

end Mapping

end GridStream
