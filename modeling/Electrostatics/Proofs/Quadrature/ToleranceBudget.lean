import Mathlib.Data.Rat.Floor
import Electrostatics.Proofs.Number.Exact
import Electrostatics.Proofs.Quadrature.Splitting

namespace Electrostatics.Quadrature

/-!
# The tolerance of the adaptive rule

Each halving of a panel halves the tolerance with it, so a panel that is accepted may be off by
its share of the tolerance, in proportion to its width.  The panels at which the rule stops part
the interval, and so their shares add up to the tolerance again, however the rule came to split
the interval.
-/

/-- A panel at which the rule stops, with the number of halvings that led to it. -/
structure Stop (α : Type) where
  halvings : Nat
  a : α
  b : α
  deriving DecidableEq

section AnyNumbers

open scoped Scalar

variable
  {α : Type}
  [Scalar α]

/-- The panels at which a splitting stops, in order. -/
def Splitting.stops : Splitting → (halvings : Nat) → (a b : α) → List (Stop α)
  | .kept, halvings, a, b => [⟨halvings, a, b⟩]
  | .halved before behind, halvings, a, b =>
      before.stops (halvings + 1) a ((a + b) / 2) ++
        behind.stops (halvings + 1) ((a + b) / 2) b

/-- The panels at which the adaptive rule stops: those of the splitting that a run asks along. -/
def adaptiveStops
    (f : α → α)
    (a b tolerance : α)
    (depth : Nat) :
    List (Stop α) :=
  (splitting f depth tolerance a b).stops 0 a b

end AnyNumbers

/-- From one place to another, each panel begins where the one before it ends. -/
def Abut {α : Type} : (a b : α) → List (Stop α) → Prop
  | a, b, [] => a = b
  | a, b, stop :: rest => stop.a = a ∧ Abut stop.b b rest

/-- Panels that abut may be followed by panels that go on where they end. -/
theorem Abut.append
    {α : Type}
    {a middle b : α}
    {first second : List (Stop α)}
    (before : Abut a middle first)
    (behind : Abut middle b second) :
    Abut a b (first ++ second) := by
  induction first generalizing a with
  | nil =>
      have same : a = middle := before
      rwa [same]
  | cons stop rest inductionHypothesis =>
      obtain ⟨start, further⟩ := before
      exact ⟨start, inductionHypothesis further⟩

open scoped Exact

variable
  {K : Type}
  [Field K]
  [LinearOrder K]
  [FloorRing K]

/-- The place behind so many of the equal parts that halving again and again gives. -/
def partEnd
    (a b : K)
    (halvings position : Nat) :
    K :=
  a + (b - a) * ((position : K) / (2 ^ halvings : Nat))

/-- The panel is one of the equal parts of the interval that its number of halvings gives. -/
def Stop.IsPart
    (a b : K)
    (stop : Stop K) :
    Prop :=
  ∃ position < 2 ^ stop.halvings,
    stop.a = partEnd a b stop.halvings position ∧
      stop.b = partEnd a b stop.halvings (position + 1)

/-- Panels that part an interval, each by at most so many halvings. -/
structure IsDyadicPartition
    (a b : K)
    (depth : Nat)
    (stops : List (Stop K)) :
    Prop where
  abut : Abut a b stops
  isPart : ∀ stop ∈ stops, stop.IsPart a b
  halvings_le : ∀ stop ∈ stops, stop.halvings ≤ depth

/-- However a panel is split, the panels at which it stops follow on each other. -/
theorem Splitting.abut_stops
    (splitting : Splitting)
    (halvings : Nat)
    (a b : K) :
    Abut a b (splitting.stops halvings a b) := by
  induction splitting generalizing halvings a b with
  | kept => exact ⟨rfl, rfl⟩
  | halved before behind beforeHypothesis behindHypothesis =>
      exact (beforeHypothesis _ _ _).append (behindHypothesis _ _ _)

/-- A panel stops because it was accepted, or because it may not be halved any more. -/
theorem accepted_or_last_of_mem_stops
    {f : K → K}
    {tolerance start finish : K}
    {halvings depth : Nat}
    {stop : Stop K}
    (stops :
      stop ∈ (splitting f depth (tolerance / 2 ^ halvings) start finish).stops
        halvings start finish) :
    stop.halvings = halvings + depth ∨
      stop.halvings < halvings + depth ∧
        |halvesDifference f stop.a stop.b| ≤ 15 * (tolerance / 2 ^ stop.halvings) := by
  -- A halving takes one from the depth and a half of the tolerance, so what is left of the
  -- tolerance is always the first one over a power of two.
  induction depth generalizing halvings start finish with
  | zero =>
      rw [splitting, ite_self] at stops
      cases List.mem_singleton.mp stops
      exact .inl rfl
  | succ depth inductionHypothesis =>
      rw [splitting] at stops
      split at stops
      case isTrue accepted =>
        cases List.mem_singleton.mp stops
        exact .inr ⟨Nat.lt_add_of_pos_right depth.succ_pos, accepted⟩
      case isFalse refused =>
        have halved : tolerance / 2 ^ halvings / 2 = tolerance / 2 ^ (halvings + 1) := by
          rw [pow_succ, div_div]
        rw [Exact.numeral_ofNat, halved] at stops
        have deeper : halvings + (depth + 1) = halvings + 1 + depth := by omega
        rw [deeper]
        rcases List.mem_append.mp stops with before | behind
        · exact inductionHypothesis before
        · exact inductionHypothesis behind

/-- The result over a panel is the sum of the corrected estimates where the rule stops. -/
theorem recomputed_eq_sum_stops
    (f : K → K)
    (depth : Nat)
    (tolerance a b : K)
    (halvings : Nat) :
    recomputed f depth tolerance a b =
      (((splitting f depth tolerance a b).stops halvings a b).map fun stop =>
        correctedEstimate f stop.a stop.b).sum := by
  induction depth generalizing tolerance a b halvings with
  | zero =>
      rw [recomputed, splitting, ite_self, ite_self]
      exact List.sum_singleton.symm
  | succ depth inductionHypothesis =>
      rw [recomputed, splitting]
      split
      case isTrue accepted => exact List.sum_singleton.symm
      case isFalse refused =>
        rw [Splitting.stops, List.map_append, List.sum_append, ← inductionHypothesis,
          ← inductionHypothesis]

variable
  [IsStrictOrderedRing K]
  {a b : K}

/-- Halved once more, twice as many parts end at the same place. -/
theorem partEnd_succ_double
    (a b : K)
    (halvings position : Nat) :
    partEnd a b (halvings + 1) (2 * position) = partEnd a b halvings position := by
  have parts : (2 : K) ^ halvings ≠ 0 := pow_ne_zero _ two_ne_zero
  rw [partEnd, partEnd]
  push_cast
  field_simp
  ring

/-- The middle of a part is where its first half ends. -/
theorem partEnd_middle
    (a b : K)
    (halvings position : Nat) :
    (partEnd a b halvings position + partEnd a b halvings (position + 1)) / 2 =
      partEnd a b (halvings + 1) (2 * position + 1) := by
  have parts : (2 : K) ^ halvings ≠ 0 := pow_ne_zero _ two_ne_zero
  rw [partEnd, partEnd, partEnd]
  push_cast
  field_simp
  ring

theorem partEnd_succ_sub
    (a b : K)
    (halvings position : Nat) :
    partEnd a b halvings (position + 1) - partEnd a b halvings position =
      (b - a) / 2 ^ halvings := by
  have parts : (2 : K) ^ halvings ≠ 0 := pow_ne_zero _ two_ne_zero
  rw [partEnd, partEnd]
  push_cast
  field_simp
  ring

/-- The halves of a part are parts. -/
theorem Stop.IsPart.halves
    {halvings : Nat}
    {start finish : K}
    (part : Stop.IsPart a b ⟨halvings, start, finish⟩) :
    Stop.IsPart a b ⟨halvings + 1, start, (start + finish) / 2⟩ ∧
      Stop.IsPart a b ⟨halvings + 1, (start + finish) / 2, finish⟩ := by
  obtain ⟨position, low, starts, finishes⟩ := part
  have finer : 2 ^ (halvings + 1) = 2 * 2 ^ halvings := pow_succ' 2 halvings
  have inside : position < 2 ^ halvings := low
  have first : start = partEnd a b (halvings + 1) (2 * position) :=
    starts.trans (partEnd_succ_double a b halvings position).symm
  have middle : (start + finish) / 2 = partEnd a b (halvings + 1) (2 * position + 1) :=
    (congrArg₂ (fun x y => (x + y) / 2) starts finishes).trans
      (partEnd_middle a b halvings position)
  have last : finish = partEnd a b (halvings + 1) (2 * (position + 1)) :=
    finishes.trans (partEnd_succ_double a b halvings (position + 1)).symm
  exact
    ⟨⟨2 * position, by simp only [finer]; omega, first, middle⟩,
      ⟨2 * position + 1, by simp only [finer]; omega, middle, last⟩⟩

/-- A part that arose by so many halvings has that part of the width. -/
theorem Stop.IsPart.width
    {stop : Stop K}
    (part : stop.IsPart a b) :
    |stop.b - stop.a| = |b - a| / 2 ^ stop.halvings := by
  obtain ⟨position, -, starts, finishes⟩ := part
  have parts : (0 : K) < 2 ^ stop.halvings := pow_pos two_pos _
  rw [starts, finishes, partEnd_succ_sub, abs_div, abs_of_pos parts]

namespace Splitting

/-- However a part is split, it stops at parts. -/
theorem isPart_of_mem_stops
    {splitting : Splitting}
    {halvings : Nat}
    {start finish : K}
    {stop : Stop K}
    (part : Stop.IsPart a b ⟨halvings, start, finish⟩)
    (stops : stop ∈ splitting.stops halvings start finish) :
    stop.IsPart a b := by
  induction splitting generalizing halvings start finish with
  | kept =>
      cases List.mem_singleton.mp stops
      exact part
  | halved before behind beforeHypothesis behindHypothesis =>
      rcases List.mem_append.mp stops with stops | stops
      · exact beforeHypothesis part.halves.1 stops
      · exact behindHypothesis part.halves.2 stops

/-- The panels at which a splitting stops are as wide together as the panel that is split. -/
theorem sum_widths
    (splitting : Splitting)
    (halvings : Nat)
    (a b : K) :
    ((splitting.stops halvings a b).map fun stop => |stop.b - stop.a|).sum = |b - a| := by
  induction splitting generalizing halvings a b with
  | kept => exact List.sum_singleton
  | halved before behind beforeHypothesis behindHypothesis =>
      have first : (a + b) / 2 - a = (b - a) / 2 := by ring
      have second : b - (a + b) / 2 = (b - a) / 2 := by ring
      rw [stops, List.map_append, List.sum_append, beforeHypothesis, behindHypothesis,
        Exact.numeral_ofNat, first, second, abs_div, abs_two, add_halves]

end Splitting

/-- Where every panel keeps its share, the corrections together keep the whole. -/
theorem abs_sum_corrections_le
    {f : K → K}
    {rate : K}
    {stops : List (Stop K)}
    (share :
      ∀ stop ∈ stops, |halvesDifference f stop.a stop.b| ≤ 15 * (rate * |stop.b - stop.a|)) :
    |(stops.map fun stop => correctedEstimate f stop.a stop.b).sum -
        (stops.map fun stop => halvesEstimate f stop.a stop.b).sum| ≤
      rate * (stops.map fun stop => |stop.b - stop.a|).sum := by
  induction stops with
  | nil => simp
  | cons stop rest inductionHypothesis =>
      obtain ⟨first, others⟩ := List.forall_mem_cons.mp share
      have correction :
          correctedEstimate f stop.a stop.b - halvesEstimate f stop.a stop.b =
            halvesDifference f stop.a stop.b / 15 := by
        rw [correctedEstimate, add_sub_cancel_left]
      have small : |halvesDifference f stop.a stop.b / 15| ≤ rate * |stop.b - stop.a| := by
        rw [abs_div, abs_of_pos (by norm_num : (0 : K) < 15), div_le_iff₀' (by norm_num)]
        exact first
      simp only [List.map_cons, List.sum_cons]
      rw [add_sub_add_comm, correction, mul_add]
      exact (abs_add_le _ _).trans (add_le_add small (inductionHypothesis others))

/--
The adaptive rule keeps its tolerance.  Between two different places, in either direction, the
panels at which it stops part the interval by halving, at most `depth` times each.  A panel
that stops before that agrees with its halves within fifteen times the share of the tolerance
that its width has in the interval.  The result is the sum of the corrected estimates of these
panels, and where all of them keep their share, the corrections change the sum of the
estimates by halves by no more than the tolerance.
-/
theorem adaptive_keeps_its_tolerance
    (f : K → K)
    (apart : a ≠ b)
    (tolerance : K)
    (depth : Nat) :
    let stops := adaptiveStops f a b tolerance depth
    IsDyadicPartition a b depth stops ∧
      (∀ stop ∈ stops,
        stop.halvings < depth →
        |halvesDifference f stop.a stop.b| ≤
          15 * tolerance * |stop.b - stop.a| / |b - a|) ∧
      adaptive f a b tolerance depth =
        (stops.map fun stop => correctedEstimate f stop.a stop.b).sum ∧
      ((∀ stop ∈ stops,
          |halvesDifference f stop.a stop.b| ≤
            15 * tolerance * |stop.b - stop.a| / |b - a|) →
        |adaptive f a b tolerance depth -
            (stops.map fun stop => halvesEstimate f stop.a stop.b).sum| ≤ tolerance) := by
  intro stops
  have wide : |b - a| ≠ 0 := abs_ne_zero.mpr (sub_ne_zero.mpr apart.symm)
  have whole : Stop.IsPart a b ⟨0, a, b⟩ := ⟨0, by simp, by simp [partEnd], by simp [partEnd]⟩
  have parts (stop) (met : stop ∈ stops) : stop.IsPart a b :=
    Splitting.isPart_of_mem_stops whole met
  have reason (stop) (met : stop ∈ stops) :
      stop.halvings = depth ∨
        stop.halvings < depth ∧
          |halvesDifference f stop.a stop.b| ≤ 15 * (tolerance / 2 ^ stop.halvings) := by
    have started : tolerance / 2 ^ 0 = tolerance := by rw [pow_zero, div_one]
    have met : stop ∈ (splitting f depth (tolerance / 2 ^ 0) a b).stops 0 a b := by rwa [started]
    simpa only [Nat.zero_add] using accepted_or_last_of_mem_stops met
  have sum :
      adaptive f a b tolerance depth =
        (stops.map fun stop => correctedEstimate f stop.a stop.b).sum := by
    rw [adaptive_eq, if_neg (by simpa using apart)]
    exact recomputed_eq_sum_stops f depth tolerance a b 0
  refine ⟨⟨Splitting.abut_stops _ 0 a b, parts, ?_⟩, ?_, sum, ?_⟩
  · intro stop met
    rcases reason stop met with last | ⟨short, -⟩
    · exact last.le
    · exact short.le
  · intro stop met short
    rcases reason stop met with last | ⟨-, accepted⟩
    · exact absurd last short.ne
    · rw [(parts stop met).width]
      convert accepted using 1
      field_simp
  · intro share
    have shares (stop) (met : stop ∈ stops) :
        |halvesDifference f stop.a stop.b| ≤
          15 * (tolerance / |b - a| * |stop.b - stop.a|) := by
      refine (share stop met).trans_eq ?_
      ring
    calc
      |adaptive f a b tolerance depth -
            (stops.map fun stop => halvesEstimate f stop.a stop.b).sum|
          = |(stops.map fun stop => correctedEstimate f stop.a stop.b).sum -
              (stops.map fun stop => halvesEstimate f stop.a stop.b).sum| := by rw [sum]
      _ ≤ tolerance / |b - a| * (stops.map fun stop => |stop.b - stop.a|).sum :=
        abs_sum_corrections_le shares
      _ = tolerance / |b - a| * |b - a| := by
        rw [show (stops.map fun stop => |stop.b - stop.a|).sum = |b - a| from
          Splitting.sum_widths _ 0 a b]
      _ = tolerance := div_mul_cancel₀ tolerance wide

/-- From five down to zero, the panel with the kink keeps its share of a fortieth. -/
theorem adaptive_keeps_its_tolerance_around_a_kink :
    let kink : ℚ → ℚ := fun x => |x - 1|
    let stops := adaptiveStops kink 5 0 (1 / 40) 3
    (5 : ℚ) ≠ 0 ∧
      stops = [⟨1, 5, 5 / 2⟩, ⟨2, 5 / 2, 5 / 4⟩, ⟨2, 5 / 4, 0⟩] ∧
      adaptive kink 5 0 (1 / 40) 3 = -(611 / 72) ∧
      |adaptive kink 5 0 (1 / 40) 3 -
          (stops.map fun stop => halvesEstimate kink stop.a stop.b).sum| ≤ 1 / 40 := by
  intro kink stops
  have apart : (5 : ℚ) ≠ 0 := by norm_num
  obtain ⟨-, accepted, sum, bound⟩ := adaptive_keeps_its_tolerance kink apart (1 / 40) 3
  have shape : stops = [⟨1, 5, 5 / 2⟩, ⟨2, 5 / 2, 5 / 4⟩, ⟨2, 5 / 4, 0⟩] := by
    decide +kernel
  refine ⟨apart, shape, ?_, bound fun stop met => accepted stop met ?_⟩
  · rw [sum]
    decide +kernel
  · have short : ∀ stop ∈ stops, stop.halvings < 3 := by decide +kernel
    exact short stop met

end Electrostatics.Quadrature
