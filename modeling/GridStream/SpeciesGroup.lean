import GridStream.Failure

/-!
# Species groups

A species group names the stored variables that make up one aggregate, and the weight with which
each of them counts. The variables of a group differ from each other and the weights are finite.
-/

namespace GridStream

/-- The weight of a member as it was given. -/
inductive Weight
  | int (n : Int)
  | float (x : Float)

namespace Weight

/-- The weight as a double. -/
def toFloat : Weight → Float
  | int n => (Decimal.ofInt? n).getD 0.0
  | float x => x

def toValue : Weight → Value
  | int n => .int n
  | float x => .float x

/-- The weight that a value stands for: a finite number, not a truth value. An integer must fit
into 64 bits with or without sign; one that does not is no acceptable argument at all. -/
def ofValue? (v : Value) : Attempt (Option Weight) :=
  match v with
  | .int n =>
    if -Int.pow 2 63 ≤ n ∧ n < Int.pow 2 64 then .ok (some (int n))
    else .error (.wrongType "integer too large for a test of finiteness")
  | .float x => .ok (if Decimal.isFinite x then some (float x) else none)
  | _ => .ok none

end Weight

/-- A named list of variables with their weights. -/
structure SpeciesGroup where
  name : Value
  members : List (String × Weight)
  units : String := ""

namespace SpeciesGroup

/-- The stored variables of a group. -/
def memberNames (g : SpeciesGroup) : List String := g.members.map (·.1)

/-- The weights of a group as doubles. -/
def weights (g : SpeciesGroup) : List Float := g.members.map (·.2.toFloat)

/-- The group as a mapping from variables to weights. -/
def toMapping (g : SpeciesGroup) : Mapping :=
  g.members.map fun (v, weight) => (.text v, .float weight.toFloat)

/-- Checks one member after the members `seen`. Its name is looked at before its weight. -/
def checkMember (name : Value) (seen : List String) (member weight : Value) :
    Attempt (String × Weight) := do
  let group := name.toText
  match member with
  | .text v =>
    if v = "" then badName
    else if v ∈ seen then
      .error (.configuration s!"Variable group '{group}' lists '{v}' more than once"
        [("group", name), ("variable", member)])
    else
      match ← Weight.ofValue? weight with
      | some w => .ok (v, w)
      | none =>
        .error (.configuration
          (s!"Weight of '{v}' in group '{group}' must be a finite number, " ++
            s!"got {weight.inner}") [("group", name), ("variable", member)])
  | _ => badName
where
  /-- The failure of a member without a usable name. -/
  badName : Attempt (String × Weight) :=
    .error (.configuration
      s!"Variable group '{name.toText}' has an invalid member name {member.inner}"
      [("group", name)])

/-- Checks members one after the other. -/
def checkMembers (name : Value) (seen : List String) :
    List (Value × Value) → Attempt (List (String × Weight))
  | [] => .ok []
  | (member, weight) :: rest => do
    let checked ← checkMember name seen member weight
    let others ← checkMembers name (checked.1 :: seen) rest
    .ok (checked :: others)

def make? (name : Value) (members : List (Value × Value)) (units : String := "") :
    Attempt SpeciesGroup :=
  match members with
  | [] =>
    .error (.configuration s!"Variable group '{name.toText}' has no members" [("group", name)])
  | _ => do .ok { name, members := ← checkMembers name [] members, units }

/-- The pairs in front of the first member that is none, and what that member fails with. -/
def pairs : List Value → List (Value × Value) × Option Failure
  | [] => ([], none)
  | member :: rest =>
    match member.items? with
    | some [variableName, weight] =>
      let (others, failure?) := pairs rest
      ((variableName, weight) :: others, failure?)
    | some _ => ([], some (.badValue s!"{member.inner} is no pair"))
    | none => ([], some (.wrongType s!"{member.inner} is no pair"))

/-- The group whose members are given as values, each of which should be a pair of a name and a
weight. A member that is none is reported unless a member before it is wrong. -/
def ofMembers? (name : Value) (members : List Value) (units : String := "") :
    Attempt SpeciesGroup :=
  match pairs members with
  | (members, none) => make? name members units
  | (members, some f) => do
    let _ ← checkMembers name [] members
    .error f

/-- The group whose members a value lists: a mapping from variables to weights. -/
def ofValue? (name weights : Value) (units : String := "") : Attempt SpeciesGroup :=
  match weights with
  | .map entries => make? name entries units
  | _ =>
    .error (.configuration
      s!"Variable group '{name.toText}' must map variable names to weights" [("group", name)])

end SpeciesGroup

/-- Species groups by name, in the order in which their names were first set. -/
abbrev SpeciesGroups := List (Value × SpeciesGroup)

namespace SpeciesGroups

def get? (groups : SpeciesGroups) (name : Value) : Option SpeciesGroup :=
  (groups.find? fun e => e.1.same name).map (·.2)

/-- Sets the group of a name. A name that is there already keeps its place. -/
def put : SpeciesGroups → Value → SpeciesGroup → SpeciesGroups
  | [], name, group => [(name, group)]
  | (n, g) :: rest, name, group =>
    if n.same name then (n, group) :: rest else (n, g) :: put rest name group

/-- Sets the groups of `overrides` one after the other. -/
def update (groups overrides : SpeciesGroups) : SpeciesGroups :=
  overrides.foldl (fun groups e => put groups e.1 e.2) groups

def names (groups : SpeciesGroups) : List Value := groups.map (·.1)

end SpeciesGroups

end GridStream
