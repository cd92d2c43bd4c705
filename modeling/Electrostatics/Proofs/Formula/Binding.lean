import Electrostatics.Proofs.Formula.Sentences
import Mathlib.Data.List.Basic

namespace Electrostatics

/-!
# Bound coordinates

Which coordinates are bound plays no part in how a formula is grouped.  Every coordinate
that is read stands in the tree: a list of tokens has a tree over some coordinates
exactly when it has that tree over all of them and the tree refers to no other ones.
-/

namespace Coordinate

/-- The names that may be bound. -/
def vocabulary : List String :=
  all.map name

theorem mem_all (coordinate : Coordinate) : coordinate ∈ all := by
  cases coordinate <;> decide

theorem name_mem_vocabulary (coordinate : Coordinate) :
    coordinate.name ∈ vocabulary :=
  List.mem_map_of_mem coordinate.mem_all

theorem named?_name (coordinate : Coordinate) :
    named? coordinate.name = some coordinate := by
  cases coordinate <;> decide

theorem name_injective : Function.Injective name := by
  intro first second sameName
  have named := named?_name first
  rw [sameName, named?_name] at named
  exact (Option.some.inj named).symm

/-- A name stands for the coordinate that has it. -/
theorem named?_eq_some_iff
    {name : String}
    {coordinate : Coordinate} :
    named? name = some coordinate ↔ coordinate.name = name := by
  constructor
  · intro named
    unfold named? at named
    simpa using List.find?_some named
  · rintro rfl
    exact named?_name coordinate

theorem named?_eq_none_iff {name : String} :
    named? name = none ↔ name ∉ vocabulary := by
  constructor
  · intro unnamed member
    obtain ⟨coordinate, _, rfl⟩ := List.mem_map.mp member
    rw [named?_name] at unnamed
    cases unnamed
  · intro unknown
    cases named : named? name with
    | none => rfl
    | some coordinate =>
        obtain rfl := named?_eq_some_iff.mp named
        exact absurd coordinate.name_mem_vocabulary unknown

end Coordinate

namespace Expr

/-- Every coordinate in a tree has a property. -/
def RefersOnlyTo (allowed : Coordinate → Prop) (tree : Expr) : Prop :=
  ∀ coordinate, tree.references coordinate = true → allowed coordinate

variable
  {allowed wider : Coordinate → Prop}
  {first second : Expr}

theorem RefersOnlyTo.mono
    {tree : Expr}
    (only : tree.RefersOnlyTo allowed)
    (widens : ∀ coordinate, allowed coordinate → wider coordinate) :
    tree.RefersOnlyTo wider :=
  fun coordinate referenced => widens coordinate (only coordinate referenced)

@[simp]
theorem refersOnlyTo_number (value : Decimal) :
    (number value).RefersOnlyTo allowed :=
  nofun

@[simp]
theorem refersOnlyTo_constant (name : Constant) :
    (constant name).RefersOnlyTo allowed :=
  nofun

@[simp]
theorem refersOnlyTo_coordinate {name : Coordinate} :
    (coordinate name).RefersOnlyTo allowed ↔ allowed name := by
  simp [RefersOnlyTo, references]

@[simp]
theorem refersOnlyTo_negation :
    (negation first).RefersOnlyTo allowed ↔ first.RefersOnlyTo allowed :=
  Iff.rfl

@[simp]
theorem refersOnlyTo_call {function : UnaryFunction} :
    (call function first).RefersOnlyTo allowed ↔ first.RefersOnlyTo allowed :=
  Iff.rfl

@[simp]
theorem refersOnlyTo_operation {operator : BinaryOperator} :
    (operation operator first second).RefersOnlyTo allowed ↔
      first.RefersOnlyTo allowed ∧ second.RefersOnlyTo allowed := by
  simp only [RefersOnlyTo, references, Bool.or_eq_true, or_imp, forall_and]

@[simp]
theorem refersOnlyTo_callPair {function : BinaryFunction} :
    (callPair function first second).RefersOnlyTo allowed ↔
      first.RefersOnlyTo allowed ∧ second.RefersOnlyTo allowed := by
  simp only [RefersOnlyTo, references, Bool.or_eq_true, or_imp, forall_and]

end Expr

namespace Grammar

variable
  {bound other : List Coordinate}
  {category : Category}
  {tokens : List Token}
  {tree : Expr}

/-- A phrase refers to bound coordinates only. -/
theorem Derives.refersOnlyTo
    (derived : Derives bound category tokens tree) :
    tree.RefersOnlyTo (fun coordinate => coordinate ∈ bound) := by
  induction derived with
  | number _ => simp
  | constant _ => simp
  | coordinate _ member => simpa using member
  | negative _ inductionHypothesis => simpa using inductionHypothesis
  | callOne _ _ _ inductionHypothesis => simpa using inductionHypothesis
  | operation _ _ _ leftHypothesis rightHypothesis =>
      simpa using ⟨leftHypothesis, rightHypothesis⟩
  | callTwo _ _ _ _ firstHypothesis secondHypothesis =>
      simpa using ⟨firstHypothesis, secondHypothesis⟩
  | sumOfProduct _ inductionHypothesis => exact inductionHypothesis
  | productOfUnary _ inductionHypothesis => exact inductionHypothesis
  | unaryOfPower _ inductionHypothesis => exact inductionHypothesis
  | powerOfPrimary _ inductionHypothesis => exact inductionHypothesis
  | positive _ inductionHypothesis => exact inductionHypothesis
  | group _ inductionHypothesis => exact inductionHypothesis

/-- A phrase stays one wherever the coordinates that it refers to are bound. -/
theorem Derives.rebind
    (derived : Derives bound category tokens tree)
    (only : tree.RefersOnlyTo (fun coordinate => coordinate ∈ other)) :
    Derives other category tokens tree := by
  induction derived with
  | sumOfProduct _ inductionHypothesis => exact .sumOfProduct (inductionHypothesis only)
  | productOfUnary _ inductionHypothesis => exact .productOfUnary (inductionHypothesis only)
  | unaryOfPower _ inductionHypothesis => exact .unaryOfPower (inductionHypothesis only)
  | powerOfPrimary _ inductionHypothesis => exact .powerOfPrimary (inductionHypothesis only)
  | positive _ inductionHypothesis => exact .positive (inductionHypothesis only)
  | group _ inductionHypothesis => exact .group (inductionHypothesis only)
  | number value => exact .number value
  | constant named => exact .constant named
  | coordinate named _ =>
      exact .coordinate named (Expr.refersOnlyTo_coordinate.mp only)
  | negative _ inductionHypothesis =>
      exact .negative (inductionHypothesis (Expr.refersOnlyTo_negation.mp only))
  | callOne named one _ inductionHypothesis =>
      exact .callOne named one (inductionHypothesis (Expr.refersOnlyTo_call.mp only))
  | operation signed _ _ leftHypothesis rightHypothesis =>
      obtain ⟨leftOnly, rightOnly⟩ := Expr.refersOnlyTo_operation.mp only
      exact .operation signed (leftHypothesis leftOnly) (rightHypothesis rightOnly)
  | callTwo named two _ _ firstHypothesis secondHypothesis =>
      obtain ⟨firstOnly, secondOnly⟩ := Expr.refersOnlyTo_callPair.mp only
      exact .callTwo named two (firstHypothesis firstOnly) (secondHypothesis secondOnly)

end Grammar

namespace Formula

open Electrostatics.Grammar

variable
  {bound other : List Coordinate}
  {names : List String}
  {source : String}
  {formula : Formula}

/-- A formula is read the same wherever the coordinates that it refers to are bound. -/
theorem compile_rebind
    (compiled : compile bound source = .ok formula)
    (only : formula.tree.RefersOnlyTo (fun coordinate => coordinate ∈ other)) :
    compile other source = .ok formula := by
  obtain ⟨placed, tokenized, derived, rest⟩ := compile_eq_ok_iff.mp compiled
  exact compile_eq_ok_iff.mpr ⟨placed, tokenized, derived.rebind only, rest⟩

theorem refersOnlyTo_of_compile
    (compiled : compile bound source = .ok formula) :
    formula.tree.RefersOnlyTo (fun coordinate => coordinate ∈ bound) := by
  obtain ⟨_, _, derived, _⟩ := compile_eq_ok_iff.mp compiled
  exact derived.refersOnlyTo

/-- A list of names is read as the coordinates that have these names. -/
theorem map_name_of_coordinates
    (read : coordinates names = .ok bound) :
    bound.map Coordinate.name = names := by
  induction names generalizing bound with
  | nil =>
      obtain rfl := Except.ok.inj read
      rfl
  | cons name others inductionHypothesis =>
      unfold coordinates at read
      split at read
      case h_1 => cases read
      case h_2 coordinate named =>
        split at read
        case h_1 => cases read
        case h_2 rest othersRead =>
          obtain rfl := Except.ok.inj read
          rw [List.map_cons, inductionHypothesis othersRead,
            Coordinate.named?_eq_some_iff.mp named]

theorem exists_coordinates
    (valid : names ⊆ Coordinate.vocabulary) :
    ∃ bound, coordinates names = .ok bound := by
  induction names with
  | nil => exact ⟨[], rfl⟩
  | cons name others inductionHypothesis =>
      obtain ⟨known, othersKnown⟩ := List.cons_subset.mp valid
      obtain ⟨rest, othersRead⟩ := inductionHypothesis othersKnown
      obtain ⟨coordinate, _, isName⟩ := List.mem_map.mp known
      have named := Coordinate.named?_eq_some_iff.mpr isName
      exact ⟨coordinate :: rest, by simp [coordinates, named, othersRead]⟩

/-- The first name outside the vocabulary is the one that is reported. -/
theorem coordinates_of_find?
    {name : String}
    (first : names.find? (fun name => name ∉ Coordinate.vocabulary) = some name) :
    coordinates names = .error (.invalidVariable name) := by
  induction names with
  | nil => cases first
  | cons front others inductionHypothesis =>
      by_cases known : front ∈ Coordinate.vocabulary
      · obtain ⟨coordinate, _, isName⟩ := List.mem_map.mp known
        have named := Coordinate.named?_eq_some_iff.mpr isName
        have later := inductionHypothesis (by simpa [List.find?_cons, known] using first)
        simp [coordinates, named, later]
      · obtain rfl : front = name := by simpa [List.find?_cons, known] using first
        simp [coordinates, Coordinate.named?_eq_none_iff.mpr known]

theorem mem_coordinates_iff
    {coordinate : Coordinate}
    (read : coordinates names = .ok bound) :
    coordinate ∈ bound ↔ coordinate.name ∈ names := by
  rw [← map_name_of_coordinates read]
  exact (List.mem_map_of_injective Coordinate.name_injective).symm

theorem parseOver_eq_ok_iff_compile :
    parseOver names source = .ok formula ↔
      ∃ bound, coordinates names = .ok bound ∧ compile bound source = .ok formula := by
  unfold parseOver
  cases coordinates names <;> simp

/-- A formula that is read over names refers to coordinates of these names only. -/
theorem refersOnlyTo_of_parseOver
    (read : parseOver names source = .ok formula) :
    formula.tree.RefersOnlyTo (fun coordinate => coordinate.name ∈ names) := by
  obtain ⟨bound, namesRead, compiled⟩ := parseOver_eq_ok_iff_compile.mp read
  refine (refersOnlyTo_of_compile compiled).mono (fun coordinate member => ?_)
  exact (mem_coordinates_iff namesRead).mp member

theorem parse_of_parseOver
    (read : parseOver names source = .ok formula) :
    parse source = .ok formula := by
  obtain ⟨bound, _, compiled⟩ := parseOver_eq_ok_iff_compile.mp read
  exact compile_rebind compiled (fun coordinate _ => coordinate.mem_all)

theorem parseOver_of_parse
    (valid : names ⊆ Coordinate.vocabulary)
    (parsed : parse source = .ok formula)
    (only : formula.tree.RefersOnlyTo (fun coordinate => coordinate.name ∈ names)) :
    parseOver names source = .ok formula := by
  obtain ⟨bound, namesRead⟩ := exists_coordinates valid
  have boundOnly := only.mono (fun _ => (mem_coordinates_iff namesRead).mpr)
  exact parseOver_eq_ok_iff_compile.mpr
    ⟨bound, namesRead, compile_rebind parsed boundOnly⟩

/--
Bound names only filter.  Over valid names exactly the formulas are read that are read
over all coordinates and refer only to coordinates of these names, each with the same
tree.  Binding further names therefore changes nothing that was read.  A name outside the
vocabulary is refused whatever the formula is, and of several the first one.
-/
theorem bound_names_only_filter (names : List String) (source : String) :
    (names ⊆ Coordinate.vocabulary →
      ∀ formula,
        parseOver names source = .ok formula ↔
          parse source = .ok formula ∧
            ∀ coordinate,
              formula.tree.references coordinate = true → coordinate.name ∈ names) ∧
    (∀ more formula,
      names ⊆ more →
      more ⊆ Coordinate.vocabulary →
      parseOver names source = .ok formula →
      parseOver more source = .ok formula) ∧
    (∀ name,
      names.find? (fun name => name ∉ Coordinate.vocabulary) = some name →
      parseOver names source = .error (.invalidVariable name)) := by
  refine ⟨fun valid formula => ⟨fun read => ?_, fun ⟨parsed, only⟩ => ?_⟩, ?_, ?_⟩
  · exact ⟨parse_of_parseOver read, refersOnlyTo_of_parseOver read⟩
  · exact parseOver_of_parse valid parsed only
  · intro more formula subset moreValid read
    have onlyMore := (refersOnlyTo_of_parseOver read).mono (fun _ member => subset member)
    exact parseOver_of_parse moreValid (parse_of_parseOver read) onlyMore
  · intro name first
    simp [parseOver, coordinates_of_find? first]

/--
The names `r` and `x` suffice for `2x^-r`, whose tree does not change when `phi` is bound
as well; `w` is refused before the formula is looked at, and before `q`.
-/
theorem bound_names_filter_signed_exponent :
    let tree : Expr :=
      .operation .mul (.number ⟨2, 0⟩)
        (.operation .pow (.coordinate .x) (.negation (.coordinate .r)))
    parse "2x^-r" = .ok ⟨"2x^-r", tree, none⟩ ∧
      parseOver ["r", "phi", "x"] "2x^-r" = .ok ⟨"2x^-r", tree, none⟩ ∧
      parseOver ["r", "w", "q"] "2 $" = .error (.invalidVariable "w") := by
  intro tree
  obtain ⟨filters, widens, _⟩ := bound_names_only_filter ["r", "x"] "2x^-r"
  obtain ⟨_, _, refuses⟩ := bound_names_only_filter ["r", "w", "q"] "2 $"
  have read : parseOver ["r", "x"] "2x^-r" = .ok ⟨"2x^-r", tree, none⟩ := by
    rfl
  have parsed := (filters (by decide) _).mp read
  exact ⟨parsed.1, widens ["r", "phi", "x"] _ (by decide) (by decide) read,
    refuses "w" (by decide)⟩

end Formula

end Electrostatics
