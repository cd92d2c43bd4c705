import Electrostatics.Decimal.Shortest

namespace Electrostatics.Decimal

/-!
# Written forms of a double

Every number that the library writes has one of the forms of this module: the
shortest digits that read back, laid out by a `Layout`, or a fixed number of
places, with or without an exponent.
-/

/-- The choices that tell one form of the shortest digits from another. -/
structure Layout where
  /-- The leading exponents written without an exponent part; all of them when absent. -/
  positional : Option (Int × Int)
  /-- Whether a positional whole number ends in a point and a zero. -/
  wholePoint : Bool
  /-- Whether a non-negative exponent shows a plus sign. -/
  exponentPlus : Bool
  /-- Which of two equally near shortest decimals is written. -/
  tie : Tie

/-- Plain text: never an exponent, and a whole number without a point. -/
def Layout.plain : Layout :=
  { positional := none, wholePoint := false, exponentPlus := false, tie := .away }

/-- Scientific text: always an exponent. -/
def Layout.scientific : Layout :=
  { positional := some (0, -1), wholePoint := false, exponentPlus := false, tie := .away }

/-- Data text: positional from 1e-5 up to below 1e16, and a whole number keeps its point. -/
def Layout.data : Layout :=
  { positional := some (-5, 15), wholePoint := true, exponentPlus := true, tie := .toEven }

/-- The decimal digits of a natural number. -/
def digitsText (value : Nat) : List Char :=
  Nat.toDigits 10 value

/-- A minus sign where one is due. -/
def signText (negative : Bool) : List Char :=
  if negative then ['-'] else []

/-- The text of a number that is not finite. -/
def undefinedText : List Char := ['N', 'a', 'N']

/-- The text of an infinity. -/
def infiniteText (negative : Bool) : List Char :=
  signText negative ++ ['i', 'n', 'f']

/-- Digits without an exponent part. -/
def positionalText (wholePoint : Bool) (value : Decimal) : List Char :=
  let digits := digitsText value.coefficient
  if 0 ≤ value.exponent then
    digits ++ List.replicate value.exponent.toNat '0' ++
      (if wholePoint then ['.', '0'] else [])
  else
    let places := (-value.exponent).toNat
    let padded := List.replicate (places + 1 - digits.length) '0' ++ digits
    let whole := padded.length - places
    padded.take whole ++ '.' :: padded.drop whole

/-- An exponent part. -/
def exponentText (exponentPlus : Bool) (exponent : Int) : List Char :=
  if exponent < 0 then
    'e' :: '-' :: digitsText (-exponent).toNat
  else if exponentPlus then
    'e' :: '+' :: digitsText exponent.toNat
  else
    'e' :: digitsText exponent.toNat

/-- One digit, the other digits behind a point, and an exponent part. -/
def scientificText (exponentPlus : Bool) (value : Decimal) : List Char :=
  let digits := digitsText value.coefficient
  let leading := value.exponent + (digits.length : Int) - 1
  match digits with
  | [] => []
  | [only] => only :: exponentText exponentPlus leading
  | first :: rest => first :: '.' :: rest ++ exponentText exponentPlus leading

/-- Lay a decimal out. -/
def Layout.arrange (layout : Layout) (value : Decimal) : List Char :=
  match layout.positional with
  | none => positionalText layout.wholePoint value
  | some (least, greatest) =>
      let digits := (digitsText value.coefficient).length
      let leading := value.exponent + (digits : Int) - 1
      if least ≤ leading ∧ leading ≤ greatest then
        positionalText layout.wholePoint value
      else
        scientificText layout.exponentPlus value

/-- The shortest text of a double in a layout. -/
def Layout.format (layout : Layout) (value : Float) : String :=
  String.ofList <|
    match Binary64.parts value with
    | .undefined => undefinedText
    | .infinite negative => infiniteText negative
    | .finite negative significand exponent =>
        signText negative ++
          layout.arrange
            (if significand = 0 then
              { coefficient := 0, exponent := 0 }
            else
              shortest layout.tie significand exponent)

/-- The text of a double with a fixed number of places and no exponent. -/
def formatPlaces (places : Nat) (value : Float) : String :=
  String.ofList <|
    match Binary64.parts value with
    | .undefined => undefinedText
    | .infinite negative => infiniteText negative
    | .finite negative significand exponent =>
        let fraction := fractionOf significand exponent
        signText negative ++
          positionalText false (toPlaces places fraction.1 fraction.2)

/-- The text of a double with one digit, a fixed number of places and an exponent. -/
def formatScientificPlaces (places : Nat) (value : Float) : String :=
  String.ofList <|
    match Binary64.parts value with
    | .undefined => undefinedText
    | .infinite negative => infiniteText negative
    | .finite negative significand exponent =>
        let fraction := fractionOf significand exponent
        let rounded :=
          if significand = 0 then
            { coefficient := 0, exponent := 0 }
          else
            toSignificant (places + 1) fraction.1 fraction.2
        let digits := digitsText rounded.coefficient
        let padded := digits ++ List.replicate (places + 1 - digits.length) '0'
        let leading := rounded.exponent + (digits.length : Int) - 1
        signText negative ++ padded.take 1 ++
          (if places = 0 then [] else '.' :: padded.drop 1) ++
          exponentText false leading

end Electrostatics.Decimal
