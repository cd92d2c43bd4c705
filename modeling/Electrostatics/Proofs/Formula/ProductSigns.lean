import Electrostatics.Proofs.Formula.ErrorPlaces
import Electrostatics.Proofs.Formula.Spelling

namespace Electrostatics.Token

/-!
# Understood product signs

A product sign is understood between two neighbouring tokens of a few kinds.  Writing these signs
out adds each of them at the place of the token behind it, keeps all other tokens in their order
and adds nothing more when it is done again.
-/

/-- Neighbouring tokens between which a product sign is understood. -/
inductive Juxtaposed : Token → Token → Prop where
  | nameBehindNumber (value : Decimal) (name : String) :
      Juxtaposed (.number value) (.identifier name)
  | numberBehindGroup (value : Decimal) : Juxtaposed .rightParenthesis (.number value)
  | nameBehindGroup (name : String) : Juxtaposed .rightParenthesis (.identifier name)
  | groupBehindGroup : Juxtaposed .rightParenthesis .leftParenthesis

/-- A product sign is understood between what was read last, if anything, and a token. -/
def Understood (last : Option Token) (next : Token) : Prop :=
  ∃ previous, last = some previous ∧ Juxtaposed previous next

/--
The tokens behind what was read last, the same tokens with the understood product signs written
out, and the offsets of these signs.
-/
inductive WrittenOut :
    (last : Option Token) →
    (placed written : List PlacedToken) →
    (offsets : List Nat) → Prop where
  | done (last : Option Token) : WrittenOut last [] [] []
  | plain
      {last : Option Token}
      {item : PlacedToken}
      {placed written : List PlacedToken}
      {offsets : List Nat} :
      ¬ Understood last item.token →
      WrittenOut (some item.token) placed written offsets →
      WrittenOut last (item :: placed) (item :: written) offsets
  | signed
      {last : Option Token}
      {item : PlacedToken}
      {placed written : List PlacedToken}
      {offsets : List Nat} :
      Understood last item.token →
      WrittenOut (some item.token) placed written offsets →
      WrittenOut last (item :: placed)
        ({ token := .star, position := item.position } :: item :: written)
        (item.position :: offsets)

/-- The byte offsets at which product signs are understood. -/
def signOffsets : List PlacedToken → List Nat
  | first :: second :: rest =>
      if impliesProduct first.token second.token then
        second.position :: signOffsets (second :: rest)
      else
        signOffsets (second :: rest)
  | _ => []

theorem impliesProduct_iff {first second : Token} :
    impliesProduct first second = true ↔ Juxtaposed first second := by
  constructor
  · intro implied
    unfold impliesProduct at implied
    split at implied
    case h_1 => exact .nameBehindNumber _ _
    case h_2 => exact .numberBehindGroup _
    case h_3 => exact .nameBehindGroup _
    case h_4 => exact .groupBehindGroup
    case h_5 => cases implied
  · intro juxtaposed
    cases juxtaposed <;> rfl

theorem understood_some {previous next : Token} :
    Understood (some previous) next ↔ impliesProduct previous next = true := by
  rw [impliesProduct_iff]
  constructor
  · rintro ⟨_, same, juxtaposed⟩
    obtain rfl := Option.some.inj same
    exact juxtaposed
  · exact fun juxtaposed => ⟨previous, rfl, juxtaposed⟩

theorem not_understood_none (next : Token) :
    ¬ Understood none next := by
  rintro ⟨_, same, _⟩
  cases same

/-- Behind the first token the signs are written out token by token. -/
theorem exists_writtenOut
    (first : PlacedToken)
    (placed : List PlacedToken) :
    ∃ written,
      insertProducts (first :: placed) = first :: written ∧
      WrittenOut (some first.token) placed written (signOffsets (first :: placed)) := by
  induction placed generalizing first with
  | nil => exact ⟨[], rfl, .done _⟩
  | cons second rest inductionHypothesis =>
      obtain ⟨written, inserted, writtenOut⟩ := inductionHypothesis second
      by_cases implied : impliesProduct first.token second.token = true
      · refine ⟨{ token := .star, position := second.position } :: second :: written, ?_, ?_⟩
        · rw [insertProducts, if_pos implied, inserted]
        · rw [signOffsets, if_pos implied]
          exact .signed (understood_some.mpr implied) writtenOut
      · refine ⟨second :: written, ?_, ?_⟩
        · rw [insertProducts, if_neg implied, inserted]
        · rw [signOffsets, if_neg implied]
          exact .plain (mt understood_some.mp implied) writtenOut

/-- The signs are written out exactly where they are understood. -/
theorem insertProducts_writtenOut (placed : List PlacedToken) :
    WrittenOut none placed (insertProducts placed) (signOffsets placed) := by
  cases placed with
  | nil => exact .done none
  | cons first rest =>
      obtain ⟨written, inserted, writtenOut⟩ := exists_writtenOut first rest
      rw [inserted]
      exact .plain (not_understood_none first.token) writtenOut

/-! ## Signs that are written out already -/

theorem exists_writtenOut_cons
    (first : Token)
    (rest : List Token) :
    ∃ more, writtenOut (first :: rest) = first :: more := by
  cases rest with
  | nil => exact ⟨[], rfl⟩
  | cons second others =>
      unfold writtenOut
      split
      · exact ⟨_, rfl⟩
      · exact ⟨_, rfl⟩

/-- Written out once, the tokens leave no sign understood. -/
theorem writtenOut_writtenOut (tokens : List Token) :
    writtenOut (writtenOut tokens) = writtenOut tokens := by
  induction tokens with
  | nil => rfl
  | cons first others inductionHypothesis =>
      cases others with
      | nil => rfl
      | cons second rest =>
          obtain ⟨more, shape⟩ := exists_writtenOut_cons second rest
          rw [shape] at inductionHypothesis
          by_cases implied : impliesProduct first second = true
          · have behindSign : impliesProduct .star second = false := rfl
            simp only [writtenOut, implied, if_true, shape, impliesProduct_star, behindSign,
              Bool.false_eq_true, if_false, inductionHypothesis]
          · simp only [writtenOut, implied, Bool.false_eq_true, if_false, shape,
              inductionHypothesis]

/-- Tokens between which no sign is understood are left as they are. -/
theorem insertProducts_eq_self
    {placed : List PlacedToken}
    (complete : writtenOut (placed.map PlacedToken.token) = placed.map PlacedToken.token) :
    insertProducts placed = placed := by
  induction placed with
  | nil => rfl
  | cons first others inductionHypothesis =>
      cases others with
      | nil => rfl
      | cons second rest =>
          simp only [List.map_cons, writtenOut] at complete
          by_cases implied : impliesProduct first.token second.token = true
          · -- A sign behind the first token would be the second one.
            simp only [implied, if_true, List.cons.injEq, true_and] at complete
            rw [← complete.1, impliesProduct_star] at implied
            cases implied
          · simp only [implied, Bool.false_eq_true, if_false, List.cons.injEq, true_and] at complete
            rw [insertProducts, if_neg implied, inductionHypothesis complete]

/-- The tokens of a list that is written out are left as they are, wherever they stand. -/
theorem insertProducts_of_same
    {placed moved : List PlacedToken}
    (same :
      moved.map PlacedToken.token = (insertProducts placed).map PlacedToken.token) :
    insertProducts moved = moved := by
  refine insertProducts_eq_self ?_
  rw [same, map_insertProducts, writtenOut_writtenOut]

theorem insertProducts_insertProducts (placed : List PlacedToken) :
    insertProducts (insertProducts placed) = insertProducts placed :=
  insertProducts_of_same rfl

namespace WrittenOut

variable
  {last : Option Token}
  {placed written : List PlacedToken}
  {offsets : List Nat}

/-- Every sign stands at the place of a token. -/
theorem mem_positions
    (writtenOut : WrittenOut last placed written offsets)
    {offset : Nat}
    (member : offset ∈ offsets) :
    ∃ item ∈ placed, item.position = offset := by
  induction writtenOut with
  | done _ => cases member
  | plain _ _ inductionHypothesis =>
      obtain ⟨item, later, same⟩ := inductionHypothesis member
      exact ⟨item, List.mem_cons_of_mem _ later, same⟩
  | signed _ _ inductionHypothesis =>
      rcases List.mem_cons.mp member with rfl | memberLater
      · exact ⟨_, List.mem_cons_self, rfl⟩
      · obtain ⟨item, later, same⟩ := inductionHypothesis memberLater
        exact ⟨item, List.mem_cons_of_mem _ later, same⟩

/-- The tokens of the text are kept in their order. -/
theorem sublist (writtenOut : WrittenOut last placed written offsets) :
    placed.Sublist written := by
  induction writtenOut with
  | done _ => exact .slnil
  | plain _ _ inductionHypothesis => exact inductionHypothesis.cons_cons _
  | signed _ _ inductionHypothesis => exact (inductionHypothesis.cons_cons _).cons _

end WrittenOut

end Electrostatics.Token
