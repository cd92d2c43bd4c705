namespace Electrostatics

/-!
# Axes and planes

Space has three axes, and a plane slice holds the coordinate along one of them
fixed.  The other two take turns so that rotating the names of the axes rotates the
planes.
-/

/-- An axis of space. -/
inductive Axis where
  | x
  | y
  | z
  deriving Repr, DecidableEq

namespace Axis

/-- The place of an axis in a list of three. -/
def index : Axis → Nat
  | .x => 0
  | .y => 1
  | .z => 2

/-- The axis at a place in a list of three. -/
def ofIndex? : Nat → Option Axis
  | 0 => some .x
  | 1 => some .y
  | 2 => some .z
  | _ => none

end Axis

/-- One value for each axis. -/
structure PerAxis (α : Type) where
  x : α
  y : α
  z : α
  deriving Repr, DecidableEq

namespace PerAxis

variable {α : Type}

/-- The value for an axis. -/
def get (values : PerAxis α) : Axis → α
  | .x => values.x
  | .y => values.y
  | .z => values.z

/-- The values of a function of the axis. -/
def ofFn (value : Axis → α) : PerAxis α :=
  { x := value .x, y := value .y, z := value .z }

/-- Replace the value for an axis. -/
def set (values : PerAxis α) (axis : Axis) (value : α) : PerAxis α :=
  ofFn (fun other => if other = axis then value else values.get other)

/-- Change every value. -/
def map {β : Type} (change : α → β) (values : PerAxis α) : PerAxis β :=
  ofFn (fun axis => change (values.get axis))

/-- The values in the order of the axes. -/
def toList (values : PerAxis α) : List α :=
  [values.x, values.y, values.z]

end PerAxis

/-- A plane through space, named for the two axes in it. -/
inductive Plane where
  | yz
  | zx
  | xy
  deriving Repr, DecidableEq

namespace Plane

/-- The axis along which columns run. -/
def columnAxis : Plane → Axis
  | .yz => .y
  | .zx => .z
  | .xy => .x

/-- The axis against which rows run. -/
def rowAxis : Plane → Axis
  | .yz => .z
  | .zx => .x
  | .xy => .y

/-- The axis whose coordinate is held fixed. -/
def normalAxis : Plane → Axis
  | .yz => .x
  | .zx => .y
  | .xy => .z

/-- The plane across an axis. -/
def ofNormal : Axis → Plane
  | .x => .yz
  | .y => .zx
  | .z => .xy

/-- The name of a plane. -/
def name : Plane → String
  | .yz => "yz"
  | .zx => "zx"
  | .xy => "xy"

/-- The plane of a name. -/
def named? (name : String) : Option Plane :=
  [yz, zx, xy].find? (fun plane => plane.name == name)

/-- Put values for columns, rows and the normal at the axes of space. -/
def place {α : Type} (plane : Plane) (column row normal : α) : PerAxis α :=
  PerAxis.ofFn (fun axis =>
    if axis = plane.columnAxis then
      column
    else if axis = plane.rowAxis then
      row
    else
      normal)

end Plane

end Electrostatics
