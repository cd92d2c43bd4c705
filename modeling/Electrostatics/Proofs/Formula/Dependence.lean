import Electrostatics.Proofs.Formula.Binding

namespace Electrostatics

/-!
# What the value of a formula depends on

A formula is evaluated at a point of four numbers, and each coordinate is computed from
some of them.  Points that agree on those numbers cannot be told apart by a tree, so a
formula that was read over some coordinates learns nothing about the rest of the point,
not even from the error that it ends with.
-/

open scoped Scalar

variable {α : Type}

/-- The numbers of a point that a coordinate is computed from. -/
def Coordinate.reads : Coordinate → List (Point α → α)
  | .x => [Point.x]
  | .y => [Point.y]
  | .z => [Point.z]
  | .r => [Point.r]
  | .rho => [Point.x, Point.y, Point.z]
  | .theta => [Point.x, Point.y, Point.z]
  | .phi => [Point.x, Point.y]

/-- Two points that agree on all numbers from which some coordinates are computed. -/
def Point.AgreeOn
    (coordinates : Coordinate → Prop)
    (first second : Point α) : Prop :=
  ∀ coordinate,
    coordinates coordinate →
    ∀ number ∈ coordinate.reads, number first = number second

variable
  {coordinates : Coordinate → Prop}
  {first second : Point α}

variable [Scalar α] [Elementary α]

theorem Point.AgreeOn.coordinate_eq
    {coordinate : Coordinate}
    (agree : Point.AgreeOn coordinates first second)
    (member : coordinates coordinate) :
    first.coordinate coordinate = second.coordinate coordinate := by
  have same := agree coordinate member
  cases coordinate <;>
    simp only [Coordinate.reads, List.forall_mem_cons, List.not_mem_nil] at same <;>
    simp [Point.coordinate, axialDistance, same]

/-- A tree has the same value or the same error at points that agree on what it refers to. -/
theorem Expr.evaluate_congr
    {tree : Expr}
    (agree : Point.AgreeOn coordinates first second)
    (only : tree.RefersOnlyTo coordinates) :
    tree.evaluate first = tree.evaluate second := by
  induction tree with
  | number value => rfl
  | constant name => rfl
  | coordinate name =>
      have same := agree.coordinate_eq (refersOnlyTo_coordinate.mp only)
      simp only [evaluate, same]
  | negation operand inductionHypothesis =>
      have same := inductionHypothesis (refersOnlyTo_negation.mp only)
      simp only [evaluate, same]
  | call function argument inductionHypothesis =>
      have same := inductionHypothesis (refersOnlyTo_call.mp only)
      simp only [evaluate, same]
  | operation operator left right leftHypothesis rightHypothesis =>
      obtain ⟨leftOnly, rightOnly⟩ := refersOnlyTo_operation.mp only
      simp only [evaluate, leftHypothesis leftOnly, rightHypothesis rightOnly]
  | callPair function left right leftHypothesis rightHypothesis =>
      obtain ⟨leftOnly, rightOnly⟩ := refersOnlyTo_callPair.mp only
      simp only [evaluate, leftHypothesis leftOnly, rightHypothesis rightOnly]

/--
What a formula was not given it cannot read.  A formula that was read over some names has
the same value or the same error at all points that agree on what the coordinates of these
names are computed from, and a tree at all points that agree on what it refers to.
-/
theorem evaluation_reads_only_what_is_bound :
    (∀ names source formula,
      Formula.parseOver names source = .ok formula →
      ∀ first second : Point α,
        Point.AgreeOn (fun coordinate => coordinate.name ∈ names) first second →
        formula.tryEvaluate first = formula.tryEvaluate second) ∧
    (∀ (tree : Expr) (first second : Point α),
      Point.AgreeOn (fun coordinate => tree.references coordinate = true) first second →
      tree.evaluate first = tree.evaluate second) := by
  constructor
  · intro names source formula read first second agree
    have same := Expr.evaluate_congr agree (Formula.refersOnlyTo_of_parseOver read)
    simp only [Formula.tryEvaluate, same]
  · intro tree first second agree
    exact Expr.evaluate_congr agree (fun _ referenced => referenced)

/-- The azimuth does not tell the height, nor a caller's distance: `1/phi` at two points. -/
theorem evaluation_over_azimuth :
    let first : Point Float := { x := 1, y := 0, z := 2, r := 3 }
    let second : Point Float := { x := 1, y := 0, z := 4, r := 5 }
    let tree : Expr := .operation .div (.number ⟨1, 0⟩) (.coordinate .phi)
    (⟨"1/phi", tree, none⟩ : Formula).tryEvaluate first =
        (⟨"1/phi", tree, none⟩ : Formula).tryEvaluate second ∧
      tree.evaluate first = tree.evaluate second := by
  intro first second tree
  obtain ⟨overNames, onTrees⟩ := evaluation_reads_only_what_is_bound (α := Float)
  have read : Formula.parseOver ["phi"] "1/phi" = .ok ⟨"1/phi", tree, none⟩ := by
    rfl
  have agree :
      Point.AgreeOn (fun coordinate => coordinate.name ∈ ["phi"]) first second := by
    intro coordinate member
    cases coordinate <;> simp [Coordinate.name] at member
    simp [Coordinate.reads, first, second]
  have agreeOnTree :
      Point.AgreeOn (fun coordinate => tree.references coordinate = true) first second :=
    fun coordinate referenced =>
      agree coordinate (Formula.refersOnlyTo_of_parseOver read coordinate referenced)
  exact ⟨overNames _ _ _ read first second agree, onTrees tree first second agreeOnTree⟩

end Electrostatics
