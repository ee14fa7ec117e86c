import Mathlib.Data.Multiset.Bind
import Mathlib.Data.Fintype.Basic

/-! A table of buckets: finitely many slots, each holding a list. Pushing,
emptying and draining are followed through the multiset of everything the table
holds, so that a proof about moving items between slots never has to name the
slots that stay as they are. -/
namespace Library.Buckets

variable {Slot Item : Type}

variable {table : Slot → List Item} {x : Item}

section Edit

variable [DecidableEq Slot]

/-- Append one item to one slot. -/
def push (table : Slot → List Item) (slot : Slot) (item : Item) : Slot → List Item :=
  Function.update table slot (table slot ++ [item])

/-- Empty one slot. -/
def clear (table : Slot → List Item) (slot : Slot) : Slot → List Item :=
  Function.update table slot []

theorem mem_push {slot other : Slot} {item : Item} :
    x ∈ push table slot item other ↔ x ∈ table other ∨ (other = slot ∧ x = item) := by
  by_cases h : other = slot
  · subst h
    simp [push]
  · simp [push, h]

theorem mem_clear {slot other : Slot} :
    x ∈ clear table slot other ↔ other ≠ slot ∧ x ∈ table other := by
  by_cases h : other = slot
  · subst h
    simp [clear]
  · simp [clear, h]

end Edit

variable [Fintype Slot]

/-- Everything the table holds, with multiplicity and without positions. -/
@[irreducible] def contents (table : Slot → List Item) : Multiset Item :=
  (Finset.univ : Finset Slot).val.bind fun slot => (table slot : Multiset Item)

theorem mem_contents : x ∈ contents table ↔ ∃ slot, x ∈ table slot := by
  simp [contents]

variable (table : Slot → List Item) (slot : Slot)

/-- Reading the slots off in any order that names each of them once yields the
whole contents. -/
theorem coe_flatMap_eq_contents (slots : List Slot) (hNodup : slots.Nodup)
    (hAll : ∀ slot, slot ∈ slots) :
    ((slots.flatMap table : List Item) : Multiset Item) = contents table := by
  have hUniv : (Finset.univ : Finset Slot).val = (slots : Multiset Slot) := by
    apply (Multiset.Nodup.ext Finset.univ.nodup (Multiset.coe_nodup.mpr hNodup)).mpr
    intro slot
    simp [hAll slot]
  rw [contents, hUniv, Multiset.coe_bind]

theorem contents_empty : contents (fun _ : Slot => ([] : List Item)) = 0 := by
  simp [contents]

variable [DecidableEq Slot]

/-- Split one slot off the multiset of all slots. -/
private theorem univ_val_eq_cons :
    (Finset.univ : Finset Slot).val = slot ::ₘ ((Finset.univ : Finset Slot).erase slot).val := by
  rw [Finset.erase_val, Multiset.cons_erase (Finset.mem_univ slot)]

/-- Changing one slot changes the contents by that slot only. -/
theorem contents_update (items : List Item) :
    contents (Function.update table slot items) + (table slot : Multiset Item) =
      contents table + (items : Multiset Item) := by
  have hRest : ((Finset.univ : Finset Slot).erase slot).val.bind
        (fun s => (Function.update table slot items s : Multiset Item)) =
      ((Finset.univ : Finset Slot).erase slot).val.bind (fun s => (table s : Multiset Item)) := by
    apply Multiset.bind_congr
    intro s hs
    have hne : s ≠ slot := Finset.ne_of_mem_erase hs
    rw [Function.update_of_ne hne]
  unfold contents
  rw [univ_val_eq_cons slot, Multiset.cons_bind, Multiset.cons_bind, hRest,
    Function.update_self, add_right_comm, add_assoc, add_comm (items : Multiset Item)]

theorem contents_push (item : Item) :
    contents (push table slot item) = item ::ₘ contents table := by
  have h := contents_update table slot (table slot ++ [item])
  rw [← Multiset.coe_add, add_left_comm, add_comm] at h
  have hCancel := add_left_cancel h
  rw [push, hCancel, add_comm]
  rfl

theorem contents_clear :
    contents table = (table slot : Multiset Item) + contents (clear table slot) := by
  have h := contents_update table slot []
  rw [Multiset.coe_nil, add_zero] at h
  rw [clear, ← h, add_comm]

end Library.Buckets
