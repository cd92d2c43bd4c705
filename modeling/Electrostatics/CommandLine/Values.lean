import Electrostatics.CommandLine.Arguments
import Electrostatics.GaussLaw.Basic
import Electrostatics.Slice.Plane
import Electrostatics.Text.WhiteSpace

namespace Electrostatics.CommandLine

/-!
# Values of options

Numbers on the command line may be signed and need not be finite; counts may carry a
plus sign.  Names are taken in either case, and the common ones have short forms.
-/

/-- A text in lower case, as far as the names of options are concerned. -/
def lowered (text : String) : String :=
  text.map Char.toLower

/-- The magnitude that an unsigned text writes, with the sign it is to have. -/
def readMagnitude? (negative : Bool) (text : List Char) : Option Float :=
  let name := text.map Char.toLower
  if name = ['n', 'a', 'n'] then
    some (0.0 / 0.0)
  else if name = ['i', 'n', 'f'] ∨ name = ['i', 'n', 'f', 'i', 'n', 'i', 't', 'y'] then
    some (if negative then -1.0 / 0.0 else 1.0 / 0.0)
  else
    (Decimal.ofText? text).map (Binary64.ofDecimal negative)

/-- The double that a text writes. -/
def readDouble? (text : String) : Option Float :=
  match text.toList with
  | '-' :: rest => readMagnitude? true rest
  | '+' :: rest => readMagnitude? false rest
  | rest => readMagnitude? false rest

/-- The digits of a count below a bound of 64 bits. -/
def readDigits? (digits : List Char) : Option Nat :=
  if digits ≠ [] ∧ digits.all Char.isDigit then
    let value := Decimal.digitsValue digits
    if value < UInt64.size then some value else none
  else
    none

/-- The count that a text writes. -/
def readCount? (text : String) : Option Nat :=
  match text.toList with
  | '+' :: digits => readDigits? digits
  | digits => readDigits? digits

/-- The position that a text writes: row, comma, column. -/
def readPosition? (text : String) : Option (Float × Float) :=
  let row := text.toList.takeWhile (fun character => character != ',')
  match text.toList.drop row.length with
  | [] => none
  | _ :: col => do
      let row ← readDouble? (trimmed (String.ofList row))
      let col ← readDouble? (trimmed (String.ofList col))
      some (row, col)

/-- A path that is not empty. -/
def readPath? (text : String) : Option String :=
  if text.isEmpty then none else some text

/-- The symmetry of a name. -/
def symmetryFor? (text : String) : Option GaussLaw.Symmetry :=
  match lowered text with
  | "sphere" => some .spherical
  | "cylinder" => some .cylindrical
  | "plane" => some .planar
  | "slab" => some .planar
  | name => GaussLaw.Symmetry.named? name

/-- The known quantity of a name; a curve for comparison is none. -/
def knownFor? (text : String) : Option GaussLaw.Quantity :=
  match lowered text with
  | "charge" => some .charge
  | "rho" => some .charge
  | "potential" => some .potential
  | "v" => some .potential
  | "field" => some .field
  | "e" => some .field
  | _ => none

/-- The plane of a name; the axis across it will do as well. -/
def planeFor? (text : String) : Option Plane :=
  match lowered text with
  | "z" => some .xy
  | "x" => some .yz
  | "y" => some .zx
  | "xz" => some .zx
  | name => Plane.named? name

end Electrostatics.CommandLine
