import Mathlib.Data.List.Basic

/-! A segment of a numbered sequence: its items have consecutive indexes from `first` on.
Cutting a segment at an index gives a segment on either side. -/
namespace Library

variable {A : Type} {index : A → Nat} {first : Nat} {items rest : List A}

def Segment (index : A → Nat) (first : Nat) : List A → Prop
  | [] => True
  | item :: items => index item = first ∧ Segment index (first + 1) items

namespace Segment

theorem append_iff : Segment index first (items ++ rest) ↔
    Segment index first items ∧ Segment index (first + items.length) rest := by
  induction items generalizing first with
  | nil => simp [Segment]
  | cons item items ih =>
    rw [List.cons_append, Segment, Segment, ih, List.length_cons, and_assoc]
    rw [show first + 1 + items.length = first + (items.length + 1) by omega]

section

variable (hSegment : Segment index first items)

include hSegment

theorem bounds {item : A} (hItem : item ∈ items) :
    first ≤ index item ∧ index item < first + items.length := by
  induction items generalizing first with
  | nil => cases hItem
  | cons head items ih =>
    rw [List.length_cons]
    rcases List.mem_cons.mp hItem with rfl | hItem
    · have := hSegment.1
      omega
    · have := ih hSegment.2 hItem
      omega

theorem head {item : A} (hHead : items.head? = some item) : index item = first := by
  cases items with
  | nil => cases hHead
  | cons head items =>
    cases hHead
    exact hSegment.1

theorem last {item : A} (hLast : items.getLast? = some item) :
    index item + 1 = first + items.length := by
  obtain ⟨front, rfl⟩ := List.getLast?_eq_some_iff.mp hLast
  have hItem := (append_iff.mp hSegment).2.1
  rw [List.length_append, hItem]
  rfl

/-- No two items have the same index. -/
theorem find? {item : A} (hItem : item ∈ items) :
    items.find? (index · = index item) = some item := by
  induction items generalizing first with
  | nil => cases hItem
  | cons head items ih =>
    rcases List.mem_cons.mp hItem with rfl | hItem
    · simp
    · have hHead := hSegment.1
      have hBounds := hSegment.2.bounds hItem
      have hOther : index head ≠ index item := by omega
      rw [List.find?_cons_of_neg (by simpa using hOther)]
      exact ih hSegment.2 hItem

/-- The items below an index are a prefix, the others are the rest of the segment. -/
theorem filter_append (bound : Nat) :
    items.filter (index · < bound) ++ items.filter (bound ≤ index ·) = items := by
  induction items generalizing first with
  | nil => rfl
  | cons item items ih =>
    by_cases hBelow : index item < bound
    · simp [hBelow, ih hSegment.2]
    · have hNone : ∀ later ∈ items, ¬ index later < bound := by
        intro later hLater
        have hItem := hSegment.1
        have hBounds := hSegment.2.bounds hLater
        omega
      have hBelowNone : items.filter (index · < bound) = [] := by
        simpa [List.filter_eq_nil_iff] using hNone
      have hRest := ih hSegment.2
      rw [hBelowNone, List.nil_append] at hRest
      rw [List.filter_cons_of_neg (by simpa using hBelow), hBelowNone, List.nil_append,
        List.filter_cons_of_pos (by simpa using Nat.le_of_not_lt hBelow), hRest]

theorem filter_ge (bound : Nat) :
    Segment index (max first bound) (items.filter (bound ≤ index ·)) := by
  induction items generalizing first with
  | nil => trivial
  | cons item items ih =>
    by_cases hKept : bound ≤ index item
    · have hFirst := hSegment.1
      have hAll : (item :: items).filter (bound ≤ index ·) = item :: items := by
        rw [List.filter_eq_self]
        intro later hLater
        have := hSegment.bounds hLater
        simpa using (by omega : bound ≤ index later)
      rw [hAll, show max first bound = first by omega]
      exact hSegment
    · have hFirst := hSegment.1
      have hRest := ih hSegment.2
      rw [show max (first + 1) bound = max first bound by omega] at hRest
      simpa [hKept] using hRest

theorem filter_lt_eq_self {bound : Nat} (hBound : first + items.length ≤ bound) :
    items.filter (index · < bound) = items := by
  rw [List.filter_eq_self]
  intro item hItem
  have := hSegment.bounds hItem
  simpa using (by omega : index item < bound)

theorem filter_lt_eq_nil {bound : Nat} (hBound : bound ≤ first) :
    items.filter (index · < bound) = [] := by
  rw [List.filter_eq_nil_iff]
  intro item hItem
  have := hSegment.bounds hItem
  simpa using (by omega : bound ≤ index item)

end

end Segment
end Library
