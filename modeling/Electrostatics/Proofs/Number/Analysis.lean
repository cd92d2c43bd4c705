import Mathlib.Analysis.Complex.Arg
import Mathlib.Analysis.SpecialFunctions.Arcosh
import Mathlib.Analysis.SpecialFunctions.Arsinh
import Mathlib.Analysis.SpecialFunctions.Artanh
import Mathlib.Analysis.SpecialFunctions.Log.Base
import Mathlib.Analysis.SpecialFunctions.Trigonometric.Arctan
import Mathlib.Analysis.SpecialFunctions.Trigonometric.Inverse
import Electrostatics.Proofs.Number.Exact

namespace Electrostatics.Exact

/-!
# The functions of analysis

Over the real numbers the functions that formulas call are those of analysis, and no value
of theirs is rounded.
-/

/-- The functions of real analysis. -/
noncomputable scoped instance analysis : Elementary ℝ where
  circleRatio := Real.pi
  naturalBase := Real.exp 1
  sqrt := Real.sqrt
  sin := Real.sin
  cos := Real.cos
  asin := Real.arcsin
  acos := Real.arccos
  atan := Real.arctan
  sinh := Real.sinh
  cosh := Real.cosh
  tanh := Real.tanh
  asinh := Real.arsinh
  acosh := Real.arcosh
  atanh := Real.artanh
  exp := Real.exp
  ln := Real.log
  log10 := Real.logb (10 : Nat)
  atan2 := fun height width => Complex.arg ⟨width, height⟩
  power := fun base exponent => base ^ exponent

/-- A real power multiplies where the exponent counts factors. -/
instance : WholePowers ℝ where
  power_natCast := Real.rpow_natCast

end Electrostatics.Exact
