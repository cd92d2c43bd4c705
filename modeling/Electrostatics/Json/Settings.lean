import Electrostatics.GaussLaw.Basic
import Electrostatics.Json.Reader
import Electrostatics.Slice.Basic

namespace Electrostatics

/-!
# Settings as JSON

Settings are given as an object with any of their fields, or as an array of their
first fields in order.  A missing field keeps its standard value and an unknown one
is passed over, but a field of the wrong kind or given twice spoils the whole.
-/

/-- A field of settings: its name, and how its value changes them. -/
structure SettingField (σ : Type) where
  name : String
  assign? : σ → Json → Option σ

/-- Read the members of an object into settings. -/
def assignMembers?
    {σ : Type}
    (members : List (String × Json)) :
    List (SettingField σ) → σ → Option σ
  | [], settings => some settings
  | field :: others, settings =>
      match Json.membersNamed field.name members with
      | [] => assignMembers? members others settings
      | [value] =>
          match field.assign? settings value with
          | none => none
          | some changed => assignMembers? members others changed
      | _ => none

/-- Read the items of an array into the first fields of settings. -/
def assignItems? {σ : Type} : List (SettingField σ) → List Json → σ → Option σ
  | _, [], settings => some settings
  | [], _ :: _, _ => none
  | field :: others, value :: rest, settings =>
      match field.assign? settings value with
      | none => none
      | some changed => assignItems? others rest changed

/-- Read settings over their standard values. -/
def readSettings? {σ : Type} (fields : List (SettingField σ)) (standard : σ) : Json → Option σ
  | .object members => assignMembers? members fields standard
  | .array items => assignItems? fields items standard
  | _ => none

/-- A number that is finite as a double. -/
def Json.finite? (value : Json) : Option Float :=
  match value.decimal? with
  | none => none
  | some (negative, magnitude) =>
      let read := Binary64.ofDecimal negative magnitude
      if read.isFinite then some read else none

/-- A count of at most 64 bits. -/
def Json.count? (value : Json) : Option Nat :=
  match value.natural? with
  | none => none
  | some count => if count < UInt64.size then some count else none

/-- An array of exactly three numbers, one for each axis. -/
def Json.perAxis? : Json → Option (PerAxis Float)
  | .array [x, y, z] => do
      let x ← x.finite?
      let y ← y.finite?
      let z ← z.finite?
      some { x := x, y := y, z := z }
  | _ => none

/-- The fields of the settings of a solver. -/
def solverFields : List (SettingField (GaussLaw.Settings Float)) :=
  [{ name := "max_extent"
     assign? := fun settings value =>
       value.finite?.map (fun extent => { settings with extent := extent }) },
    { name := "num_points"
      assign? := fun settings value =>
        value.count?.map (fun points => { settings with points := points }) },
    { name := "clamp"
      assign? := fun settings value =>
        value.finite?.map (fun clamp => { settings with clamp := clamp }) }]

/-- The fields of the settings of a slice. -/
def sliceFields : List (SettingField (SliceSettings Float)) :=
  [{ name := "size"
     assign? := fun settings value =>
       value.count?.map (fun side => { settings with side := side }) },
    { name := "min"
      assign? := fun settings value =>
        value.perAxis?.map (fun low => { settings with low := low }) },
    { name := "max"
      assign? := fun settings value =>
        value.perAxis?.map (fun high => { settings with high := high }) },
    { name := "out_of_plane_step"
      assign? := fun settings value =>
        value.finite?.map (fun step => { settings with normalStep := step }) },
    { name := "flatness_epsilon"
      assign? := fun settings value =>
        value.finite?.map (fun flatness => { settings with flatness := flatness }) }]

/-- Read the settings of a solver. -/
def readSolverSettings? (value : Json) : Option (GaussLaw.Settings Float) :=
  readSettings? solverFields GaussLaw.Settings.standard value

/-- Read the settings of a slice. -/
def readSliceSettings? (value : Json) : Option (SliceSettings Float) :=
  readSettings? sliceFields SliceSettings.standard value

end Electrostatics
