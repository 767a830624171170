import GridStream.Grid.Meteorology
import GridStream.Producer.Basic

/-!
# Derivations

A derivation is a named function of grids. The number of grids that it is applied to must be the
number that it takes.
-/

namespace GridStream

/-- A named function of grids. -/
structure Derivation where
  name : String
  apply : List Grid → Attempt Grid

namespace Derivation

/-- The derivation by a function of two grids. The second grid is called `second` where it is
missing. -/
def binary (name first second : String) (f : Grid → Grid → Attempt Grid) : Derivation where
  name
  apply
    | [a, b] => f a b
    | [_] =>
      .error (.wrongType s!"{name}() missing 1 required positional argument: '{second}'")
    | [] =>
      .error (.wrongType
        s!"{name}() missing 2 required positional arguments: '{first}' and '{second}'")
    | grids =>
      .error (.wrongType
        s!"{name}() takes 2 positional arguments but {grids.length} were given")

/-- Pressure from perturbation and base state. -/
def totalPressure : Derivation :=
  binary "total_pressure" "perturbation_pressure" "base_pressure" Grid.totalPressure

/-- Temperature from the perturbation of potential temperature and pressure. -/
def temperature : Derivation :=
  binary "theta_perturbation_to_temperature" "theta_perturbation" "pressure_pa" Grid.temperature

/-- Heights above ground from the perturbation of the geopotential and its base state. -/
def height : Derivation :=
  binary "geopotential_to_height" "perturbation_geopotential" "base_geopotential" Grid.height

/-- Radiation that comes down to the ground, from short and long waves. -/
def downwardRadiation : Derivation :=
  binary "downwelling_radiation" "shortwave" "longwave" Grid.downwardRadiation

/-- The sum of any number of grids. -/
def sum : Derivation := ⟨"add", Grid.sum⟩

/-- Fails whatever the grids are. -/
def failing (f : Failure) : Derivation := ⟨"fail", fun _ => .error f⟩

end Derivation

end GridStream
