import GridStream.Grid.Basic

/-!
# Meteorological quantities

Pressure and geopotential are stored as a base state and a perturbation, potential temperature as
a perturbation from 300 K. The functions of this module turn them into the physical quantities.
-/

namespace GridStream

namespace Physics

/-- The acceleration of gravity in metres per square second. -/
def standardGravity : Float := 9.80665

/-- The pressure of the standard atmosphere in pascals. -/
def standardPressure : Float := 101325.0

/-- The pressure in pascals at which temperature and potential temperature agree. -/
def referencePressure : Float := 101300.0

/-- The gas constant of dry air over its heat capacity. -/
def kappa : Float := 0.2854

/-- The base state of potential temperature in kelvins. -/
def basePotentialTemperature : Float := 300.0

/-- The constants with the names that they are reported under. -/
def constants : List (String × Float) :=
  [("STANDARD_GRAVITY", standardGravity), ("STANDARD_PRESSURE", standardPressure),
    ("REFERENCE_PRESSURE", referencePressure), ("KAPPA", kappa),
    ("BASE_POTENTIAL_TEMPERATURE", basePotentialTemperature)]

/-- The height in metres of a geopotential. -/
def heightOf (geopotential : Float) : Float := geopotential / standardGravity

/-- The ratio of temperature to potential temperature at a pressure. -/
def exner (pressure : Float) : Float := (pressure / referencePressure).pow kappa

/-- The temperature at a perturbation of potential temperature and a pressure. -/
def temperatureAt (perturbation pressure : Float) : Float :=
  (perturbation + basePotentialTemperature) * exner pressure

end Physics

namespace Grid

/-- Pressure from its perturbation and its base state. -/
def totalPressure (perturbation base : Grid) : Attempt Grid :=
  zip (fun p b => b + p) perturbation base

/-- Temperature from the perturbation of potential temperature and the pressure. -/
def temperature (perturbation pressure : Grid) : Attempt Grid :=
  zip Physics.temperatureAt perturbation pressure

/-- The sum of two kinds of radiation that come down to the ground. -/
def downwardRadiation (shortwave longwave : Grid) : Attempt Grid :=
  zip (· + ·) shortwave longwave

/-- Heights above the lowest layer of the same column. -/
def aboveLowestLayer (geopotential : Grid) : Attempt Grid :=
  match geopotential.shape with
  | [_, rows, columns] =>
    let lowest (i : Nat) : Float := geopotential.cells.getD (i % (rows * columns)) 0.0
    .ok ⟨geopotential.shape,
      geopotential.cells.mapIdx fun i x => Physics.heightOf (x - lowest i),
      by simp [geopotential.size_eq]⟩
  | shape =>
    .error {
      kind := .shapeMismatch
      message := s!"Geopotential must be (layer, row, column), got shape {extentsText shape}"
      context := [("target", .text "height"), ("shape", extentsValue shape)] }

/-- Heights above the lowest layer from the perturbation of the geopotential and its base state. -/
def height (perturbation base : Grid) : Attempt Grid := do
  aboveLowestLayer (← zip (· + ·) perturbation base)

end Grid

end GridStream
