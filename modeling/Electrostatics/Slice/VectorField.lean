import Electrostatics.Slice.ScalarField
import Electrostatics.Text.WhiteSpace

namespace Electrostatics

/-!
# Vector fields on a slice

A session holds a formula for each component and shows the components on a slice,
with their divergence and curl.  A blank component is zero everywhere.
-/

open scoped Scalar

/-- A vector field with its derived grids; components and curl are given by axis. -/
structure VectorField (α : Type) where
  components : PerAxis (Grid α)
  divergence : Grid α
  curl : PerAxis (Grid α)
  deriving Repr, DecidableEq

/-- The samples of one component; only that along the normal is sampled off the plane. -/
structure SampledComponent (α : Type) where
  on : Grid α
  off : Option (Viewpoint.OffPlane α)

/-- The derived grids of a sampled vector field. -/
def VectorField.ofSamples
    {α : Type}
    [Scalar α]
    (viewpoint : Viewpoint α)
    (sampled : PerAxis (SampledComponent α)) :
    VectorField α :=
  let settings := viewpoint.settings
  let plane := viewpoint.plane
  let first := (sampled.get plane.columnAxis).on
  let second := (sampled.get plane.rowAxis).on
  let normal := (sampled.get plane.normalAxis).on
  let inPlane :=
    Grid.divergence first second viewpoint.columnStep viewpoint.rowStep
  let divergence :=
    match (sampled.get plane.normalAxis).off with
    | none => inPlane
    | some off => inPlane.add (normalDerivative settings.side off settings.normalStep)
  let curl :=
    plane.place
      (Grid.curlFirst first second normal viewpoint.rowStep settings.normalStep)
      (Grid.curlSecond first normal viewpoint.columnStep settings.normalStep)
      (Grid.curlNormal first second viewpoint.columnStep viewpoint.rowStep)
  { components := sampled.map SampledComponent.on
    divergence := divergence.flatten settings.flatness
    curl := curl.map (fun component => component.flatten settings.flatness) }

variable {α : Type} [Scalar α] [Elementary α]

/-- Sample the component along an axis. -/
def SampledComponent.sample
    (viewpoint : Viewpoint α)
    (axis : Axis) :
    StateM Formula (SampledComponent α) := do
  let on ← viewpoint.sample 0
  if axis = viewpoint.plane.normalAxis then
    let off ← viewpoint.sampleOffPlane
    pure { on := on, off := some off }
  else
    pure { on := on, off := none }

/-- The samples of a component that may be blank, with warnings and the formula afterwards. -/
def SampledComponent.ofFormula?
    (viewpoint : Viewpoint α)
    (axis : Axis)
    (formula? : Option Formula) :
    SampledComponent α × List SamplingWarning × Option Formula :=
  match formula? with
  | none =>
      ({ on := Grid.zeros viewpoint.settings.side viewpoint.settings.side, off := none },
        [], none)
  | some formula =>
      let sampled := (SampledComponent.sample viewpoint axis).run formula
      let reported := sampled.2.reportError
      (sampled.1, reported.1, some reported.2)

/-- A session on a vector field. -/
structure VectorSession (α : Type) where
  viewpoint : Viewpoint α
  formulas : PerAxis (Option Formula)
  field : Option (VectorField α)

namespace VectorSession

/-- The session before its first formulas. -/
def start {α : Type} [Scalar α] (settings : SliceSettings α) : VectorSession α :=
  { viewpoint := Viewpoint.start settings
    formulas := { x := none, y := none, z := none }
    field := none }

/-- Whether no component has a formula. -/
def allBlank (formulas : PerAxis (Option Formula)) : Bool :=
  formulas.toList.all Option.isNone

/-- The session that shows formulas at a viewpoint, and the warnings of their sampling. -/
def display
    (viewpoint : Viewpoint α)
    (formulas : PerAxis (Option Formula)) :
    VectorSession α × List SamplingWarning :=
  if allBlank formulas then
    ({ viewpoint := viewpoint, formulas := formulas, field := none }, [])
  else
    let sampled :=
      PerAxis.ofFn (fun axis =>
        SampledComponent.ofFormula? viewpoint axis (formulas.get axis))
    ({ viewpoint := viewpoint
       formulas := sampled.map (fun component => component.2.2)
       field := some (VectorField.ofSamples viewpoint (sampled.map Prod.fst)) },
      (sampled.toList.map (fun component => component.2.1)).flatten)

/-- Read the formula of a component; a blank one is none. -/
def readComponent (source : String) : Except ParseError (Option Formula) :=
  let inner := trimmed source
  if inner.isEmpty then
    .ok none
  else
    match Formula.parse inner with
    | .error fault => .error fault
    | .ok formula => .ok (some formula)

/-- Show other formulas; if one cannot be read, nothing changes. -/
def setFormulas
    (session : VectorSession α)
    (sources : PerAxis String) :
    Except ParseError (VectorSession α × List SamplingWarning) := do
  let x ← readComponent sources.x
  let y ← readComponent sources.y
  let z ← readComponent sources.z
  .ok (display session.viewpoint { x := x, y := y, z := z })

/-- Show the field with another number of samples along a side. -/
def resize
    (session : VectorSession α)
    (side : Nat) :
    VectorSession α × List SamplingWarning :=
  display (session.viewpoint.resize side) session.formulas

/-- Show the field on another plane. -/
def definePlane
    (session : VectorSession α)
    (plane : Plane)
    (value : α) :
    VectorSession α × List SamplingWarning :=
  display (session.viewpoint.definePlane plane value) session.formulas

end VectorSession

end Electrostatics
