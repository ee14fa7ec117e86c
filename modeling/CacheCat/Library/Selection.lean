import Mathlib.Data.List.Basic

/-! The part of a list that a closed range of positions selects. The bounds are
integers, and nothing is selected outside the list. -/
namespace Library

variable {A : Type}

def selected (first last : Int) (list : List A) : List A :=
  (list.zipIdx.filter fun pair => first ≤ pair.2 ∧ pair.2 ≤ last).map Prod.fst

theorem selected_eq (first last : Int) (list : List A) :
    selected first last list = (list.take (last + 1).toNat).drop first.toNat := by
  have hFrom (k : Nat) : ((list.zipIdx k).filter fun pair => first ≤ pair.2 ∧ pair.2 ≤ last).map
      Prod.fst = (list.take ((last + 1).toNat - k)).drop (first.toNat - k) := by
    induction list generalizing k with
    | nil => simp
    | cons head rest ih =>
      rw [List.zipIdx_cons, List.filter_cons]
      by_cases hLast : (k : Int) ≤ last
      · have hTake : (last + 1).toNat - k = (last + 1).toNat - (k + 1) + 1 := by omega
        rw [hTake, List.take_succ_cons]
        by_cases hFirst : first ≤ k
        · have hDrop : first.toNat - k = 0 := by omega
          have hNext : first.toNat - (k + 1) = 0 := by omega
          simpa [hFirst, hLast, hDrop, hNext] using ih (k + 1)
        · have hDrop : first.toNat - k = first.toNat - (k + 1) + 1 := by omega
          simpa [hFirst, hDrop] using ih (k + 1)
      · have hTake : (last + 1).toNat - k = 0 := by omega
        have hNext : (last + 1).toNat - (k + 1) = 0 := by omega
        simpa [hLast, hTake, hNext] using ih (k + 1)
  exact hFrom 0

theorem selected_self (index : Int) (list : List A) :
    selected index index list = if index < 0 then [] else list[index.toNat]?.toList := by
  rw [selected_eq]
  split
  · next hNegative =>
      rw [show (index + 1).toNat = 0 by omega]
      exact List.drop_nil
  · next hNegative =>
      rw [show (index + 1).toNat = index.toNat + 1 by omega, List.take_add_one]
      have hBefore : (list.take index.toNat).drop index.toNat = [] := by simp
      rw [List.drop_append, hBefore, List.nil_append]
      cases hFound : list[index.toNat]? with
      | none => exact List.drop_nil
      | some found =>
        have hIndex := (List.getElem?_eq_some_iff.mp hFound).1
        rw [List.length_take, Nat.min_eq_left (Nat.le_of_lt hIndex), Nat.sub_self]
        rfl

end Library
