import GridStream.Derivation
import GridStream.LandUse.Classes
import GridStream.SpeciesGroup

/-!
# The catalogue of quantities

The quantities that can be produced, with the stored variables that each is made from, and the
species groups that are in effect unless they are overridden.
-/

namespace GridStream

/-- How a quantity comes from stored variables. -/
inductive Formula
  /-- The variable itself. -/
  | stored (name : String)
  /-- A function of two quantities, as a quantity of the given name. -/
  | derived (name : String) (derivation : Derivation) (left right : Formula)
  /-- The look-up of a variable in a table, as a quantity of the given name. -/
  | remapped (name : String) (table : LookupTable) (source : String)

/-- A quantity of the catalogue. -/
structure Quantity where
  name : String
  sources : List String
  units : String
  description : String
  formula : Formula

namespace Catalog

def pressure : Formula := .derived "p" .totalPressure (.stored "P") (.stored "PB")

def temperature : Formula := .derived "t" .temperature (.stored "T") pressure

def height : Formula := .derived "height" .height (.stored "PH") (.stored "PHB")

def radiation : Formula :=
  .derived "radiation_down" .downwardRadiation (.stored "SWDOWN") (.stored "GLW")

/-- The meteorological and land use quantities. -/
def quantities : List Quantity :=
  [⟨"pblh", ["PBLH"], "m",
     "Planetary boundary layer height", .stored "PBLH"⟩,
   ⟨"alt", ["ALT"], "m³/kg",
     "Inverse air density", .stored "ALT"⟩,
   ⟨"u", ["U"], "m/s",
     "West-east wind speed", .stored "U"⟩,
   ⟨"v", ["V"], "m/s",
     "South-north wind speed", .stored "V"⟩,
   ⟨"w", ["W"], "m/s",
     "Below-above wind speed", .stored "W"⟩,
   ⟨"surface_heat_flux", ["HFX"], "W/m²",
     "Heat flux at the surface", .stored "HFX"⟩,
   ⟨"ustar", ["UST"], "m/s",
     "Friction velocity", .stored "UST"⟩,
   ⟨"ho", ["oh"], "ppmv",
     "Hydroxyl radical concentration", .stored "oh"⟩,
   ⟨"h2o2", ["h2o2"], "ppmv",
     "Hydrogen peroxide concentration", .stored "h2o2"⟩,
   ⟨"qrain", ["QRAIN"], "kg/kg",
     "Rain mass fraction", .stored "QRAIN"⟩,
   ⟨"cloud_frac", ["CLDFRA"], "1",
     "Cloud volume fraction", .stored "CLDFRA"⟩,
   ⟨"qcloud", ["QCLOUD"], "kg/kg",
     "Cloud water mass fraction", .stored "QCLOUD"⟩,
   ⟨"sw_down", ["SWDOWN"], "W/m²",
     "Downwelling short wave radiation at ground level", .stored "SWDOWN"⟩,
   ⟨"glw", ["GLW"], "W/m²",
     "Downwelling long wave radiation at ground level", .stored "GLW"⟩,
   ⟨"p", ["PB", "P"], "Pa",
     "Pressure (base state + perturbation)", pressure⟩,
   ⟨"t", ["T", "PB", "P"], "K",
     "Temperature from perturbation potential temperature and pressure", temperature⟩,
   ⟨"height", ["PH", "PHB"], "m",
     "Layer height above ground from geopotential", height⟩,
   ⟨"radiation_down", ["SWDOWN", "GLW"], "W/m²",
     "Total downwelling radiation at ground level", radiation⟩,
   ⟨"seinfeld_land_use", ["LU_INDEX"], "category",
     "Land use class for particle dry deposition (Seinfeld & Pandis)",
     .remapped "seinfeld_land_use" LandUse.particleTable "LU_INDEX"⟩,
   ⟨"wesely_land_use", ["LU_INDEX"], "category",
     "Land use class for gas dry deposition (Wesely 1989)",
     .remapped "wesely_land_use" LandUse.gasTable "LU_INDEX"⟩,
   ⟨"z0", ["LU_INDEX"], "m",
     "Roughness length", .remapped "z0" LandUse.roughnessTable "LU_INDEX"⟩]

def concentrationUnits : String := "μg/m³"

/-- The names of the default species groups, each with its only variable. -/
def defaultMembers : List (String × String) :=
  [("total_pm25", "TotalPM25"), ("sox", "gS"), ("nox", "gNO"), ("nh3", "gNH"), ("avoc", "aVOC"),
    ("bvoc", "bVOC"), ("asoa", "aSOA"), ("bsoa", "bSOA"), ("pno", "pNO"), ("ps", "pS"),
    ("pnh", "pNH")]

def defaultGroups : SpeciesGroups :=
  defaultMembers.map fun (name, member) =>
    (.text name, ⟨.text name, [(member, .float 1.0)], concentrationUnits⟩)

def find? (name : Value) : Option Quantity :=
  match name with
  | .text s => quantities.find? (·.name == s)
  | _ => none

/-- The names of the quantities in the order of the catalogue. -/
def names : List String := quantities.map (·.name)

/-- The names of all quantities, those of the groups last. -/
def allNames (groups : SpeciesGroups) : List Value := names.map Value.text ++ groups.names

/-- Those of the given names that belong to quantities of the catalogue, sorted. A species group
must not have such a name. -/
def reserved (names : List Value) : List String :=
  (names.filterMap fun name => (find? name).map (·.name)).mergeSort fun a b => a ≤ b

/-- The failure of species groups that have names of the catalogue. -/
def reservedFailure (reserved : List String) : Failure :=
  .configuration
    (s!"Species groups {Value.textList reserved} would shadow meteorology or land use " ++
      "quantities") [("species_groups", .list (reserved.map Value.text))]

/-- What is known about a quantity. -/
structure Description where
  sources : List String
  units : String
  description : String

/-- Describes a quantity or a species group. -/
def describe (groups : SpeciesGroups) (name : Value) : Attempt Description := do
  name.checkKey
  match find? name with
  | some q => .ok ⟨q.sources, q.units, q.description⟩
  | none =>
    match groups.get? name with
    | some g =>
      .ok ⟨g.memberNames, g.units, "Weighted sum of " ++ String.intercalate ", " g.memberNames⟩
    | none =>
      .error (.noKey
        s!"Unknown quantity '{name.toText}'. Available: {(Value.list (allNames groups)).inner}")

end Catalog

end GridStream
