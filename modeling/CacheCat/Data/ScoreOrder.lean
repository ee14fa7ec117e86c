import Mathlib.Data.Prod.Lex
import CacheCat.Data.SortedSet

/-! The order of scores. Except for NaN, numbers are compared by where they stand in
a linear order; the two zeros stand at the same place. The pairs of a tree are then
ordered by the place of the score and by the bytes of the member. -/
namespace CacheCat

open Float.Model (UnpackedFloat)

/-- A place among the numbers: infinite, negative, zero or positive, and within the
finite ones by exponent and mantissa. -/
abbrev ScoreKey := ℤ ×ₗ ℤ ×ₗ ℤ

def unpackedKey : UnpackedFloat → ScoreKey
  | .infinity .negative => toLex (-2, toLex (0, 0))
  | .finite .negative mantissa exponent _ => toLex (-1, toLex (-exponent, -mantissa))
  | .zero _ => toLex (0, toLex (0, 0))
  | .finite .positive mantissa exponent _ => toLex (1, toLex (exponent, mantissa))
  | .infinity .positive => toLex (2, toLex (0, 0))
  | .notANumber => toLex (3, toLex (0, 0))

def scoreKey (score : Float) : ScoreKey := unpackedKey score.toModel.unpack

section

theorem compare_toLex {α β : Type} [LinearOrder α] [LinearOrder β] (a c : α) (b d : β) :
    compare (toLex (a, b)) (toLex (c, d)) = (compare a c).then (compare b d) := by
  rfl

theorem compare_neg_neg (a b : ℤ) : compare (-a) (-b) = (compare a b).swap := by
  cases h : compare a b with
  | lt =>
    rw [compare_lt_iff_lt] at h
    exact compare_gt_iff_gt.mpr (Int.neg_lt_neg h)
  | eq =>
    rw [compare_eq_iff_eq] at h
    exact compare_eq_iff_eq.mpr (congrArg _ h)
  | gt =>
    rw [compare_gt_iff_gt] at h
    exact compare_lt_iff_lt.mpr (Int.neg_lt_neg h)

theorem compare_natCast (m n : ℕ) : compare (m : ℤ) (n : ℤ) = compare m n := by
  cases h : compare m n with
  | lt =>
    rw [compare_lt_iff_lt] at h
    exact compare_lt_iff_lt.mpr (Int.ofNat_lt.mpr h)
  | eq =>
    rw [compare_eq_iff_eq] at h
    exact compare_eq_iff_eq.mpr (congrArg _ h)
  | gt =>
    rw [compare_gt_iff_gt] at h
    exact compare_gt_iff_gt.mpr (Int.ofNat_lt.mpr h)

theorem compare_unpacked {a b : UnpackedFloat} (hA : a.isNaN = false) (hB : b.isNaN = false) :
    a.compare b = some (compare (unpackedKey a) (unpackedKey b)) := by
  cases a with
  | notANumber => cases hA
  | infinity s =>
    cases b with
    | notANumber => cases hB
    | infinity t | finite t m' e' h' => cases s <;> cases t <;> rfl
    | zero t => cases s <;> rfl
  | zero s =>
    cases b with
    | notANumber => cases hB
    | infinity t | finite t m' e' h' => cases t <;> rfl
    | zero t => rfl
  | finite s m e h =>
    cases b with
    | notANumber => cases hB
    | infinity t => cases s <;> cases t <;> rfl
    | zero t => cases s <;> rfl
    | finite t m' e' h' =>
      cases s with
      | positive =>
        cases t with
        | positive =>
          dsimp only [UnpackedFloat.compare, unpackedKey]
          rw [compare_toLex, compare_toLex, compare_natCast]
          rfl
        | negative => rfl
      | negative =>
        cases t with
        | positive => rfl
        | negative =>
          dsimp only [UnpackedFloat.compare, unpackedKey]
          rw [compare_toLex, compare_toLex, compare_neg_neg e, compare_neg_neg (m : ℤ),
            compare_natCast, Ordering.swap_then]
          rfl

variable {a b : Float} (hA : a.isNaN = false) (hB : b.isNaN = false)
include hA hB

theorem compare_score :
    a.toModel.unpack.compare b.toModel.unpack = some (compare (scoreKey a) (scoreKey b)) :=
  compare_unpacked hA hB

theorem lt_iff_scoreKey : a < b ↔ scoreKey a < scoreKey b := by
  have hUnpacked : a < b ↔ a.toModel.unpack.lt b.toModel.unpack = true := by
    change decide (a.toModel < b.toModel) = true ↔ _
    rw [decide_eq_true_iff]
    rfl
  rw [hUnpacked, UnpackedFloat.lt, compare_score hA hB, ← compare_lt_iff_lt]
  simp

theorem le_iff_scoreKey : a ≤ b ↔ scoreKey a ≤ scoreKey b := by
  have hUnpacked : a ≤ b ↔ a.toModel.unpack.le b.toModel.unpack = true := by
    change decide (a.toModel ≤ b.toModel) = true ↔ _
    rw [decide_eq_true_iff]
    rfl
  rw [hUnpacked, UnpackedFloat.le, compare_score hA hB, ← compare_le_iff_le]
  cases compare (scoreKey a) (scoreKey b) <;> simp

theorem beq_iff_scoreKey : (a == b) = true ↔ scoreKey a = scoreKey b := by
  have hUnpacked : (a == b) = a.toModel.unpack.beq b.toModel.unpack := rfl
  rw [hUnpacked]
  delta UnpackedFloat.beq
  rw [compare_score hA hB, ← compare_eq_iff_eq (a := scoreKey a)]
  simp

theorem orderedLt_iff : orderedLt a b = true ↔ scoreKey a < scoreKey b := by
  rw [← lt_iff_scoreKey hA hB, orderedLt, hA, hB, Bool.not_false, Bool.true_and, Bool.false_or,
    decide_eq_true_iff]

end

/-! ### Pairs -/

/-- Pairs are ordered by score, then by the bytes of the member. -/
def pairKey (pair : Float × Bytes) : ScoreKey ×ₗ List ℕ :=
  toLex (scoreKey pair.1, pair.2.map UInt8.toNat)

theorem map_toNat_injective : Function.Injective (List.map UInt8.toNat) :=
  List.map_injective_iff.mpr fun _ _ => UInt8.toNat_inj.mp

theorem lt_iff_map_toNat (a b : Bytes) : a < b ↔ a.map UInt8.toNat < b.map UInt8.toNat := by
  induction a generalizing b with
  | nil => cases b <;> simp
  | cons x a ih =>
    cases b with
    | nil => simp
    | cons y b => simp [List.cons_lt_cons_iff, ih, UInt8.lt_iff_toNat_lt, UInt8.toNat_inj]

theorem pairLt_iff (p q : Float × Bytes) (hP : p.1.isNaN = false) (hQ : q.1.isNaN = false) :
    pairLt p q = true ↔ pairKey p < pairKey q := by
  rw [pairLt, Bool.or_eq_true, Bool.and_eq_true, orderedLt_iff hP hQ, Bool.not_eq_true',
    ← Bool.not_eq_true, orderedLt_iff hQ hP, decide_eq_true_iff, lt_iff_map_toNat, pairKey, pairKey,
    Prod.Lex.toLex_lt_toLex]
  constructor
  · rintro (hScore | ⟨hScore, hMember⟩)
    · exact .inl hScore
    · rcases (not_lt.mp hScore).lt_or_eq with hLess | hEqual
      · exact .inl hLess
      · exact .inr ⟨hEqual, hMember⟩
  · rintro (hScore | ⟨hScore, hMember⟩)
    · exact .inl hScore
    · exact .inr ⟨hScore.not_gt, hMember⟩

theorem scoreKey_le_of_lt {p q : Float × Bytes} (h : pairKey p < pairKey q) :
    scoreKey p.1 ≤ scoreKey q.1 := by
  rw [pairKey, pairKey, Prod.Lex.toLex_lt_toLex] at h
  rcases h with hScore | hScore
  · exact hScore.le
  · exact hScore.1.le

/-- The empty member stands before all pairs with its score. -/
theorem pairLt_bound_iff (pair : Float × Bytes) {score : Float} (hPair : pair.1.isNaN = false)
    (hScore : score.isNaN = false) :
    pairLt pair (score, []) = true ↔ scoreKey pair.1 < scoreKey score := by
  rw [pairLt_iff pair (score, []) hPair hScore, pairKey, pairKey, Prod.Lex.toLex_lt_toLex]
  simp

end CacheCat
