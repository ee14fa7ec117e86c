import Mathlib.Data.List.Sort

/-! Lists in ascending order of a key, as a search tree lists its elements: insertion
and removal by key, and what is found in them by position or by bounds. -/
namespace Library

section

variable {α κ : Type} [LinearOrder κ] (key : α → κ)

def Ascending (elements : List α) : Prop := elements.Pairwise fun a b => key a < key b

/-- An element with the same key stays. -/
def insertKey (x : α) : List α → List α
  | [] => [x]
  | head :: rest =>
    if key x < key head then x :: head :: rest
    else if key head < key x then head :: insertKey x rest
    else head :: rest

def removeKey (x : α) (elements : List α) : List α := elements.filter fun y => key y ≠ key x

variable {key} {elements other : List α} {x y : α}

theorem mem_of_mem_insertKey (h : y ∈ insertKey key x elements) : y = x ∨ y ∈ elements := by
  induction elements with
  | nil => simpa [insertKey] using h
  | cons head rest ih =>
    rw [insertKey] at h
    split_ifs at h
    · simpa using h
    · rcases List.mem_cons.mp h with rfl | hRest
      · exact .inr (List.mem_cons_self ..)
      · rcases ih hRest with hNew | hOld
        · exact .inl hNew
        · exact .inr (List.mem_cons_of_mem _ hOld)
    · exact .inr h

theorem mem_insertKey (hNew : ∀ y ∈ elements, key y ≠ key x) :
    y ∈ insertKey key x elements ↔ y = x ∨ y ∈ elements := by
  refine ⟨mem_of_mem_insertKey, fun h => ?_⟩
  induction elements with
  | nil => simpa [insertKey] using h
  | cons head rest ih =>
    have hRest := ih fun y hy => hNew y (List.mem_cons_of_mem _ hy)
    rw [insertKey]
    split_ifs with hBefore hAfter
    · simpa using h
    · simp only [List.mem_cons] at h ⊢
      tauto
    · exact absurd (le_antisymm (not_lt.mp hBefore) (not_lt.mp hAfter))
        (hNew head (List.mem_cons_self ..))

theorem Ascending.insertKey (hAscending : Ascending key elements) (x : α) :
    Ascending key (insertKey key x elements) := by
  induction elements with
  | nil => exact List.pairwise_singleton _ _
  | cons head rest ih =>
    obtain ⟨hHead, hRest⟩ := List.pairwise_cons.mp hAscending
    rw [Library.insertKey]
    split_ifs with hBefore hAfter
    · refine List.pairwise_cons.mpr ⟨fun y hy => ?_, hAscending⟩
      rcases List.mem_cons.mp hy with rfl | hy
      · exact hBefore
      · exact hBefore.trans (hHead y hy)
    · refine List.pairwise_cons.mpr ⟨fun y hy => ?_, ih hRest⟩
      rcases mem_of_mem_insertKey hy with rfl | hy
      · exact hAfter
      · exact hHead y hy
    · exact hAscending

theorem mem_removeKey : y ∈ removeKey key x elements ↔ y ∈ elements ∧ key y ≠ key x := by
  simp [removeKey]

theorem filter_eq_removeKey {p : α → Bool} (h : ∀ y ∈ elements, p y = true ↔ key y ≠ key x) :
    elements.filter p = removeKey key x elements := by
  refine List.filter_congr fun y hy => ?_
  rw [Bool.eq_iff_iff, h y hy, decide_eq_true_iff]

theorem Ascending.removeKey (hAscending : Ascending key elements) (x : α) :
    Ascending key (removeKey key x elements) :=
  hAscending.filter _

theorem Ascending.nodup (hAscending : Ascending key elements) : elements.Nodup :=
  hAscending.imp fun hLess hEqual => hLess.ne (congrArg key hEqual)

/-- An ascending list is determined by its elements. -/
theorem Ascending.eq_of_mem_iff (hAscending : Ascending key elements) (hOther : Ascending key other)
    (hMem : ∀ y, y ∈ elements ↔ y ∈ other) : elements = other := by
  have hPerm : elements.Perm other :=
    (List.perm_ext_iff_of_nodup hAscending.nodup hOther.nodup).mpr hMem
  refine hPerm.eq_of_pairwise (fun a b _ _ hAB hBA => ?_) hAscending hOther
  exact absurd hBA hAB.not_gt

/-- Sorting elements with different keys. -/
theorem ascending_insertionSort (hKeys : elements.Pairwise fun a b => key a ≠ key b) :
    Ascending key (elements.insertionSort fun a b => key a ≤ key b) := by
  have hSorted := List.pairwise_insertionSort (fun a b => key a ≤ key b) elements
  have hDistinct : (elements.insertionSort fun a b => key a ≤ key b).Pairwise
      fun a b => key a ≠ key b :=
    ((List.perm_insertionSort _ elements).pairwise_iff fun h => h.symm).mpr hKeys
  exact (hSorted.and hDistinct).imp fun h => lt_of_le_of_ne h.1 h.2

section

variable {p : α → Bool} (hAscending : Ascending key elements)
  (hDown : ∀ a ∈ elements, ∀ b ∈ elements, key a < key b → p b = true → p a = true)
include hAscending hDown

/-- What lies below a bound is a beginning of the list. -/
theorem Ascending.while_eq_filter :
    elements.takeWhile p = elements.filter p ∧ elements.dropWhile p = elements.filter (!p ·) := by
  induction elements with
  | nil => exact ⟨rfl, rfl⟩
  | cons head rest ih =>
    obtain ⟨hHead, hRest⟩ := List.pairwise_cons.mp hAscending
    obtain ⟨hFirst, hLater⟩ := List.forall_mem_cons.mp hDown
    by_cases hBelow : p head = true
    · obtain ⟨hTake, hDrop⟩ := ih hRest fun a ha b hb => hLater a ha b (List.mem_cons_of_mem _ hb)
      simp [hBelow, hTake, hDrop]
    · have hAbove : ∀ y ∈ rest, ¬ p y = true := fun y hy hUp =>
        hBelow (hFirst y (List.mem_cons_of_mem _ hy) (hHead y hy) hUp)
      have hAll : rest.filter (!p ·) = rest := List.filter_eq_self.mpr (by simpa using hAbove)
      simp [hBelow, List.filter_eq_nil_iff.mpr hAbove, hAll]

end
end

section

variable {α : Type} {elements : List α} {p : α → Bool}

theorem findIdx?_congr {q : α → Bool} (h : ∀ x ∈ elements, p x = q x) :
    elements.findIdx? p = elements.findIdx? q := by
  induction elements with
  | nil => rfl
  | cons head rest ih =>
    rw [List.findIdx?_cons, List.findIdx?_cons, h head (List.mem_cons_self ..),
      ih fun x hx => h x (List.mem_cons_of_mem _ hx)]

/-- The only element that passes a test is found as far from the front as it has
elements before it. -/
theorem findIdx?_append_cons {before after : List α} {x : α} (hBefore : ∀ y ∈ before, p y = false)
    (hX : p x = true) : (before ++ x :: after).findIdx? p = some before.length := by
  induction before with
  | nil => simp [List.findIdx?_cons, hX]
  | cons head before ih =>
    have hHead := hBefore head (List.mem_cons_self ..)
    have hRest := ih fun y hy => hBefore y (List.mem_cons_of_mem _ hy)
    simp [List.findIdx?_cons, hHead, hRest]

/-- The elements at the positions of a range. -/
theorem map_filter_zipIdx (elements : List α) (first last start : Nat) :
    (((elements.zipIdx start).filter fun x => decide (first ≤ x.2 ∧ x.2 < last)).map Prod.fst) =
      (elements.drop (first - start)).take (last - max first start) := by
  induction elements generalizing start with
  | nil => simp
  | cons head rest ih =>
    rw [List.zipIdx_cons, List.filter_cons]
    split_ifs with hKept
    · simp only [decide_eq_true_eq] at hKept
      rw [List.map_cons, ih, show first - start = 0 by omega,
        show first - (start + 1) = 0 by omega,
        show last - max first start = last - max first (start + 1) + 1 by omega]
      rfl
    · simp only [decide_eq_true_eq, not_and_or, not_le, not_lt] at hKept
      rw [ih]
      rcases hKept with hBefore | hAfter
      · rw [show first - start = first - (start + 1) + 1 by omega, List.drop_succ_cons,
          show max first start = max first (start + 1) by omega]
      · rw [show last - max first start = 0 by omega,
          show last - max first (start + 1) = 0 by omega, List.take_zero, List.take_zero]

end
end Library
