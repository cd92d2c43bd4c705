import Electrostatics.Number.Double
import Electrostatics.Proofs.Quadrature.Panels

namespace Electrostatics.Quadrature

/-!
# How the adaptive rule splits an interval

A run of the adaptive rule is a tree: a panel is kept, or it is halved and each half goes on
by itself.  The tree says at which places the integrand is asked, and in which order.  An
integrand may do something else whenever it is asked, such as recording where it has no value;
that happens once at each of those places and nowhere else, and the answer stays the one of
the rule without memory.
-/

open scoped Scalar

/-- How a panel is split: not at all, or in its middle and then each of its halves. -/
inductive Splitting where
  | kept
  | halved (before behind : Splitting)

variable
  {α : Type}
  [Scalar α]

/-- The splitting of a panel on which the adaptive rule decides. -/
def splitting (f : α → α) : (depth : Nat) → (tolerance a b : α) → Splitting
  | depth, tolerance, a, b =>
      if Scalar.magnitude (halvesDifference f a b) ≤ 15 * tolerance then
        .kept
      else
        match depth with
        | 0 => .kept
        | depth + 1 =>
            .halved
              (splitting f depth (tolerance / 2) a ((a + b) / 2))
              (splitting f depth (tolerance / 2) ((a + b) / 2) b)

/-- The middles of the two halves of a panel. -/
def quarters (a b : α) : List α :=
  [(a + (a + b) / 2) / 2, ((a + b) / 2 + b) / 2]

/-- The places at which the integrand is asked while a panel is split, in order. -/
def Splitting.places : Splitting → (a b : α) → List α
  | .kept, a, b => quarters a b
  | .halved before behind, a, b =>
      quarters a b ++ (before.places a ((a + b) / 2) ++ behind.places ((a + b) / 2) b)

/-- The places at which the adaptive rule asks the integrand, in order. -/
def adaptivePlaces
    (f : α → α)
    (a b tolerance : α)
    (depth : Nat) :
    List α :=
  if a == b then
    []
  else
    [a, b, (a + b) / 2] ++ (splitting f depth tolerance a b).places a b

section Effectful

variable
  {m : Type → Type}
  [Monad m]

/-- A function that does something at each place where it is asked, and then has its value. -/
def visiting
    (visit : α → m PUnit)
    (f : α → α)
    (x : α) :
    m α := do
  visit x
  pure (f x)

variable
  [LawfulMonad m]

omit [Scalar α] in
theorem visiting_bind
    {β : Type}
    (visit : α → m PUnit)
    (f : α → α)
    (x : α)
    (next : α → m β) :
    visiting visit f x >>= next = (do visit x; next (f x)) := by
  rw [visiting, bind_assoc]
  simp only [pure_bind]

theorem forM_quarters
    {β : Type}
    (visit : α → m PUnit)
    (a b : α)
    (next : m β) :
    (do forM (quarters a b) visit; next) =
      (do visit ((a + (a + b) / 2) / 2); visit (((a + b) / 2 + b) / 2); next) := by
  simp only [quarters, List.forM_cons, List.forM_nil, bind_assoc, pure_bind]

/-- A panel that knows its function asks for the middles of its halves, and hands such panels on. -/
theorem refineM_ofFunction
    (visit : α → m PUnit)
    (f : α → α)
    (depth : Nat)
    (tolerance a b : α) :
    refineM (visiting visit f) depth tolerance (Panel.ofFunction f a b) =
      (do
        forM (quarters a b) visit
        if Scalar.magnitude (halvesDifference f a b) ≤ 15 * tolerance then
          pure (correctedEstimate f a b)
        else
          match depth with
          | 0 => pure (correctedEstimate f a b)
          | depth + 1 => do
              let before ←
                refineM (visiting visit f) depth (tolerance / 2)
                  (Panel.ofFunction f a ((a + b) / 2))
              let behind ←
                refineM (visiting visit f) depth (tolerance / 2)
                  (Panel.ofFunction f ((a + b) / 2) b)
              pure (before + behind)) := by
  rw [forM_quarters]
  cases depth with
  | zero =>
      rw [refineM, visiting_bind, visiting_bind]
      rfl
  | succ depth =>
      rw [refineM, visiting_bind, visiting_bind]
      rfl

/--
Refining a panel that knows its function asks at the places of its splitting, in order, and
gives what the rule without memory gives.
-/
theorem refineM_visiting
    (visit : α → m PUnit)
    (f : α → α)
    (depth : Nat)
    (tolerance a b : α) :
    refineM (visiting visit f) depth tolerance (Panel.ofFunction f a b) =
      (do
        forM ((splitting f depth tolerance a b).places a b) visit
        pure (recomputed f depth tolerance a b)) := by
  induction depth generalizing tolerance a b with
  | zero =>
      rw [refineM_ofFunction, splitting, recomputed, ite_self, ite_self, ite_self]
      rfl
  | succ depth inductionHypothesis =>
      rw [refineM_ofFunction, splitting, recomputed]
      split
      case isTrue accepted => rfl
      case isFalse refused =>
        simp only [inductionHypothesis, Splitting.places, List.forM_append, bind_assoc,
          pure_bind]

end Effectful

/--
The values that the adaptive rule hands on never go stale.  Over any number type it gives what
the plain recursion gives, which takes every value of the integrand and every estimate afresh,
and an integrand that does something at each place where it is asked gets the same answer.
-/
theorem adaptive_never_uses_a_stale_value
    (f : α → α)
    (a b tolerance : α)
    (depth : Nat) :
    adaptive f a b tolerance depth =
        (if a == b then 0 else recomputed f depth tolerance a b) ∧
      ∀ (m : Type → Type) [Monad m] [LawfulMonad m] (visit : α → m PUnit),
        adaptiveM (visiting visit f) a b tolerance depth =
          (do
            forM (adaptivePlaces f a b tolerance depth) visit
            pure (adaptive f a b tolerance depth)) := by
  refine ⟨adaptive_eq f a b tolerance depth, ?_⟩
  intro m _ _ visit
  rw [adaptive_eq, adaptiveM, adaptivePlaces]
  split
  case isTrue same => simp only [List.forM_nil, pure_bind]
  case isFalse apart =>
    rw [visiting_bind, visiting_bind, visiting_bind]
    -- The first panel is built from the three values: it is the panel of its function.
    change
      (do
        visit a
        visit b
        visit ((a + b) / 2)
        refineM (visiting visit f) depth tolerance (Panel.ofFunction f a b)) = _
    rw [refineM_visiting]
    simp only [List.cons_append, List.nil_append, List.forM_cons, bind_assoc]

/-- With a kink at one, only the half of the interval that holds it is halved once more. -/
theorem adaptive_asks_around_a_kink :
    let kink : Float → Float := fun x => Scalar.magnitude (x - 1)
    let record : Float → StateM (List Float) PUnit := fun x => modify fun asked => asked ++ [x]
    Id.run ((adaptiveM (visiting record kink) 0 4 0 2).run []) =
      (5, [0, 4, 2, 1, 3, 0.5, 1.5, 0.25, 0.75, 1.25, 1.75, 2.5, 3.5]) := by
  intro kink record
  obtain ⟨-, recorded⟩ := adaptive_never_uses_a_stale_value kink 0 4 0 2
  rw [recorded (StateM (List Float)) record]
  decide +kernel

end Electrostatics.Quadrature
