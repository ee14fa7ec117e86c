import CacheCat.Mocha.Wheel

/-! Exactness of the wheel. A tick keeps every waiting item in the slot of its
deadline, ahead of the current block of its level, so the wheel behaves as the
plain multiset of its pending deadlines. -/
namespace CacheCat.Mocha.HierarchicalTimeWheel

open Library

variable {K : Type}

/-- Between two calls every item sits in the slot of its deadline and that slot
is still ahead. Items more than one turn ahead are allowed. -/
def Placed (w : HierarchicalTimeWheel K) : Prop :=
  ∀ level slot, ∀ item ∈ w.wheels (level, slot),
    slot = slotFor item.expireAt level ∧ block level w.current < block level item.expireAt

/-- Within a tick an item may also sit in the slot the tick has just reached,
provided that slot is still going to be emptied: level zero, or a level for
which `due` holds. -/
def Settling (w : HierarchicalTimeWheel K) (due : Fin wheelLevels → Prop) : Prop :=
  ∀ level slot, ∀ item ∈ w.wheels (level, slot), slot = slotFor item.expireAt level ∧
    (block level w.current < block level item.expireAt ∨
      (block level w.current = block level item.expireAt ∧
        2 ^ (level.val * wheelBits) ∣ w.current ∧ (level = 0 ∨ due level)))

theorem placed_new (now : Nat) : (new now : HierarchicalTimeWheel K).Placed := by
  intro level slot item hItem
  simp [new] at hItem

variable {w : HierarchicalTimeWheel K} {due : Fin wheelLevels → Prop} {item : TimerItem K}

/-- An item that has not passed its deadline is never behind the ticks. -/
theorem Settling.current_le (h : w.Settling due) {level : Fin wheelLevels} {slot : Fin wheelSize}
    (hItem : item ∈ w.wheels (level, slot)) : w.current ≤ item.expireAt := by
  rcases (h level slot item hItem).2 with hAhead | ⟨hSame, hAligned, -⟩
  · exact (Nat.lt_of_div_lt_div hAhead).le
  · calc w.current = w.current / 2 ^ (level.val * wheelBits) * 2 ^ (level.val * wheelBits) :=
          (Nat.div_mul_cancel hAligned).symm
      _ = item.expireAt / 2 ^ (level.val * wheelBits) * 2 ^ (level.val * wheelBits) := by
          unfold block at hSame
          rw [hSame]
      _ ≤ item.expireAt := Nat.div_mul_le_self _ _

@[simp] theorem insert_current (w : HierarchicalTimeWheel K) (item : TimerItem K) :
    (w.insert item).current = w.current := by
  unfold insert
  split_ifs <;> rfl

@[simp] theorem insert_pending (w : HierarchicalTimeWheel K) (item : TimerItem K) :
    (w.insert item).pending = item ::ₘ w.pending := by
  unfold insert pending
  split_ifs <;> exact Buckets.contents_push _ _ _

theorem Settling.insert (h : w.Settling due) (hItem : w.current ≤ item.expireAt) :
    (w.insert item).Settling due := by
  intro level slot x hx
  rw [insert_current]
  unfold HierarchicalTimeWheel.insert at hx
  split_ifs at hx with hDue
  · rcases Buckets.mem_push.mp hx with hOld | ⟨hSlot, rfl⟩
    · exact h level slot x hOld
    · obtain ⟨rfl, rfl⟩ := Prod.mk.inj hSlot
      have hNow : w.current = x.expireAt := Nat.le_antisymm hItem hDue
      rw [hNow]
      exact ⟨rfl, Or.inr ⟨rfl, by simp, Or.inl rfl⟩⟩
  · rcases Buckets.mem_push.mp hx with hOld | ⟨hSlot, rfl⟩
    · exact h level slot x hOld
    · obtain ⟨rfl, rfl⟩ := Prod.mk.inj hSlot
      exact ⟨rfl, Or.inl (block_lt_of_level (by omega))⟩

theorem Placed.insert (h : w.Placed) (hItem : w.current < item.expireAt) :
    (w.insert item).Placed := by
  intro level slot x hx
  rw [insert_current]
  unfold HierarchicalTimeWheel.insert at hx
  rw [if_neg (by omega)] at hx
  rcases Buckets.mem_push.mp hx with hOld | ⟨hSlot, rfl⟩
  · exact h level slot x hOld
  · obtain ⟨rfl, rfl⟩ := Prod.mk.inj hSlot
    exact ⟨rfl, block_lt_of_level hItem⟩

/-! Cascading moves items without losing any. -/

variable (levels : List (Fin wheelLevels)) (items : List (TimerItem K))

section

variable (w : HierarchicalTimeWheel K)

theorem foldl_insert_eq : (items.foldl HierarchicalTimeWheel.insert w).current = w.current ∧
    (items.foldl HierarchicalTimeWheel.insert w).pending =
      (items : Multiset (TimerItem K)) + w.pending := by
  induction items generalizing w with
  | nil => exact ⟨rfl, by simp⟩
  | cons item items ih =>
    rw [List.foldl_cons, (ih _).1, (ih _).2, insert_current, insert_pending, Multiset.add_cons,
      ← Multiset.cons_coe, Multiset.cons_add]
    exact ⟨rfl, rfl⟩

theorem foldl_insert_settling (h : w.Settling due)
    (hItems : ∀ item ∈ items, w.current ≤ item.expireAt) :
    (items.foldl HierarchicalTimeWheel.insert w).Settling due := by
  induction items generalizing w with
  | nil => exact h
  | cons item items ih =>
    apply ih
    · exact h.insert (hItems item (List.mem_cons_self ..))
    · intro other hOther
      rw [insert_current]
      exact hItems other (List.mem_cons_of_mem _ hOther)

theorem cascade_eq (level : Fin wheelLevels) :
    (w.cascade level).current = w.current ∧ (w.cascade level).pending = w.pending := by
  unfold cascade
  rw [(foldl_insert_eq _ _).1, (foldl_insert_eq _ _).2]
  exact ⟨rfl, (Buckets.contents_clear _ _).symm⟩

end

/-- Emptying the slot that a level has reached settles that level. -/
theorem Settling.cascade {level : Fin wheelLevels} {later : Fin wheelLevels → Prop}
    (h : w.Settling due) (hDue : ∀ other, due other → other = level ∨ later other) :
    (w.cascade level).Settling later := by
  refine foldl_insert_settling _ _ ?_ (fun item hItem => h.current_le hItem)
  intro other slot item hItem
  obtain ⟨hOther, hItem⟩ := Buckets.mem_clear.mp hItem
  obtain ⟨hSlot, hAhead | ⟨hSame, hAligned, hLevel⟩⟩ := h other slot item hItem
  · exact ⟨hSlot, Or.inl hAhead⟩
  · refine ⟨hSlot, Or.inr ⟨hSame, hAligned, ?_⟩⟩
    rcases hLevel with hZero | hDueOther
    · exact Or.inl hZero
    · rcases hDue other hDueOther with rfl | hLater
      · exact absurd (by rw [hSlot, slotFor_congr hSame]) hOther
      · exact Or.inr hLater

theorem cascadeLevels_eq (w : HierarchicalTimeWheel K) :
    (cascadeLevels levels w).current = w.current ∧
      (cascadeLevels levels w).pending = w.pending := by
  induction levels generalizing w with
  | nil => exact ⟨rfl, rfl⟩
  | cons level levels ih =>
    rw [cascadeLevels]
    split_ifs
    · rw [(ih _).1, (ih _).2]
      exact w.cascade_eq level
    · exact ⟨rfl, rfl⟩

theorem lowerDigits_zero_iff (current : Nat) (level : Fin wheelLevels) :
    current &&& ((1 <<< (level.val * wheelBits)) - 1) = 0 ↔
      2 ^ (level.val * wheelBits) ∣ current := by
  rw [Nat.shiftLeft_eq, Nat.one_mul, Nat.and_two_pow_sub_one_eq_mod, Nat.dvd_iff_mod_eq_zero]

section

variable (w : HierarchicalTimeWheel K)

/-- The early exit is sound: where one level is not aligned, no higher level is. -/
theorem cascadeLevels_settling (hSorted : levels.Pairwise (· < ·)) (h : w.Settling (· ∈ levels)) :
    (cascadeLevels levels w).Settling (fun _ => False) := by
  induction levels generalizing w with
  | nil =>
    intro level slot item hItem
    simpa [cascadeLevels] using h level slot item hItem
  | cons level levels ih =>
    obtain ⟨hHead, hTail⟩ := List.pairwise_cons.mp hSorted
    rw [cascadeLevels]
    split_ifs with hAligned
    · exact ih _ hTail (h.cascade (fun other hOther => List.mem_cons.mp hOther))
    · rw [lowerDigits_zero_iff] at hAligned
      intro other slot item hItem
      obtain ⟨hSlot, hAhead | ⟨hSame, hOther, hLevel⟩⟩ := h other slot item hItem
      · exact ⟨hSlot, Or.inl hAhead⟩
      · refine ⟨hSlot, Or.inr ⟨hSame, hOther, hLevel.imp_right fun hMem => hAligned ?_⟩⟩
        have hLe : level ≤ other := by
          rcases List.mem_cons.mp hMem with rfl | hMem
          · exact le_refl _
          · exact (hHead other hMem).le
        exact (pow_dvd_pow 2 (Nat.mul_le_mul_right _ hLe)).trans hOther

/-! Taking items out -/

/-- What is due is handed out, in order, and what is not due goes back. -/
theorem expireOrInsert_eq (h : w.Placed) :
    (expireOrInsert items w).2.current = w.current ∧ (expireOrInsert items w).2.Placed ∧
      (expireOrInsert items w).1 = items.filter (·.expireAt ≤ w.current) ∧
      (expireOrInsert items w).2.pending =
        ((items.filter (w.current < ·.expireAt) : List (TimerItem K)) : Multiset (TimerItem K)) +
          w.pending := by
  induction items generalizing w with
  | nil => exact ⟨rfl, h, rfl, by simp [expireOrInsert]⟩
  | cons item items ih =>
    rw [expireOrInsert]
    split_ifs with hDue
    · obtain ⟨hCurrent, hPlaced, hExpired, hPending⟩ := ih w h
      exact ⟨hCurrent, hPlaced, by simp [hExpired, hDue], by simp [hPending, Nat.not_lt.mpr hDue]⟩
    · obtain ⟨hCurrent, hPlaced, hExpired, hPending⟩ := ih _ (h.insert (Nat.not_le.mp hDue))
      rw [insert_current] at hCurrent hExpired hPending
      refine ⟨hCurrent, hPlaced, by simp [hExpired, hDue], ?_⟩
      rw [hPending, insert_pending, Multiset.add_cons, ← Multiset.cons_add, Multiset.cons_coe,
        List.filter_cons_of_pos (by simpa using hDue)]

end

/-! One advance -/

/-- The abstract effect of moving to `now`: the pending deadlines up to `now`
are handed out and the others stay. -/
structure Advances (w : HierarchicalTimeWheel K) (now : Nat) (expired : List (TimerItem K))
    (w' : HierarchicalTimeWheel K) : Prop where
  current : w'.current = now
  placed : w'.Placed
  expired : (expired : Multiset (TimerItem K)) = w.pending.filter (·.expireAt ≤ now)
  pending : w'.pending = w.pending.filter (now < ·.expireAt)

theorem Placed.current_lt (h : w.Placed) (hItem : item ∈ w.pending) :
    w.current < item.expireAt := by
  obtain ⟨⟨level, slot⟩, hItem⟩ := Buckets.mem_contents.mp hItem
  exact Nat.lt_of_div_lt_div (h level slot item hItem).2

theorem Advances.refl (h : w.Placed) : Advances w w.current [] w where
  current := rfl
  placed := h
  expired := by
    symm
    rw [Multiset.coe_nil, Multiset.filter_eq_nil]
    intro item hItem
    exact Nat.not_le.mpr (h.current_lt hItem)
  pending := by
    symm
    rw [Multiset.filter_eq_self]
    exact fun item hItem => h.current_lt hItem

/-- Two advances in a row hand out what the longer one alone would. -/
theorem Advances.trans {w₁ w₂ w₃ : HierarchicalTimeWheel K} {middle now : Nat}
    {first second : List (TimerItem K)} (hFirst : Advances w₁ middle first w₂)
    (hSecond : Advances w₂ now second w₃) (hLe : middle ≤ now) :
    Advances w₁ now (first ++ second) w₃ where
  current := hSecond.current
  placed := hSecond.placed
  expired := by
    rw [← Multiset.coe_add, hFirst.expired, hSecond.expired, hFirst.pending,
      Multiset.filter_filter, ← Multiset.filter_add_not (·.expireAt ≤ middle)
        (w₁.pending.filter (·.expireAt ≤ now)), Multiset.filter_filter, Multiset.filter_filter]
    congr 1
    · exact Multiset.filter_congr fun item _ => by omega
    · exact Multiset.filter_congr fun item _ => by omega
  pending := by
    rw [hSecond.pending, hFirst.pending, Multiset.filter_filter]
    exact Multiset.filter_congr fun item _ => by omega

/-- Once the cascades are done, only the level-zero slot of the current tick can
hold items that are due. -/
theorem Settling.clear_placed (h : w.Settling (fun _ => False)) :
    Placed { w with wheels := Buckets.clear w.wheels (0, slotFor w.current 0) } := by
  intro level slot item hItem
  obtain ⟨hOther, hItem⟩ := Buckets.mem_clear.mp hItem
  obtain ⟨hSlot, hAhead | ⟨hSame, -, hLevel⟩⟩ := h level slot item hItem
  · exact ⟨hSlot, hAhead⟩
  · obtain rfl : level = 0 := hLevel.resolve_right id
    exact absurd (by rw [hSlot, slotFor_congr hSame]) hOther

/-- Moving one tick on, an item whose slot was ahead is either still ahead or in
the slot just reached, and then all lower digits are zero. -/
theorem Placed.settling_succ (h : w.Placed) :
    Settling { w with current := w.current + 1 } (· ∈ (List.finRange wheelLevels).tail) := by
  intro level slot item hItem
  obtain ⟨hSlot, hAhead⟩ := h level slot item hItem
  refine ⟨hSlot, ?_⟩
  have hStep := Nat.succ_div (a := w.current) (b := 2 ^ (level.val * wheelBits))
  change block level (w.current + 1) = block level w.current + _ at hStep
  split_ifs at hStep with hAligned
  · rcases Nat.lt_or_eq_of_le (show block level (w.current + 1) ≤ block level item.expireAt by
      omega) with hLt | hEq
    · exact Or.inl hLt
    · refine Or.inr ⟨hEq, hAligned, ?_⟩
      rcases Nat.eq_zero_or_pos level.val with hZero | hPos
      · exact Or.inl (Fin.ext hZero)
      · right
        have hAll : level ∈ List.finRange wheelLevels := List.mem_finRange level
        rw [show List.finRange wheelLevels = 0 :: (List.finRange wheelLevels).tail from rfl,
          List.mem_cons] at hAll
        exact hAll.resolve_left fun h => by simp [h] at hPos
  · left
    change block level (w.current + 1) < block level item.expireAt
    omega

/-- Taking items out of a wheel and re-inserting those that are not due. -/
theorem expireOrInsert_advances {rest : HierarchicalTimeWheel K} {items : List (TimerItem K)}
    (hRest : rest.Placed) (hPending : w.pending = (items : Multiset (TimerItem K)) + rest.pending) :
    Advances w rest.current (expireOrInsert items rest).1 (expireOrInsert items rest).2 := by
  obtain ⟨hCurrent, hPlaced, hExpired, hLeft⟩ := expireOrInsert_eq items rest hRest
  have hSame := Advances.refl hRest
  refine ⟨hCurrent, hPlaced, ?_, ?_⟩
  · rw [hExpired, hPending, Multiset.filter_add, ← hSame.expired, Multiset.coe_nil, add_zero,
      Multiset.filter_coe]
  · rw [hLeft, hPending, Multiset.filter_add, ← hSame.pending, Multiset.filter_coe]

theorem tick_advances (h : w.Placed) :
    Advances w (w.current + 1) w.tick.1 w.tick.2 := by
  let w' := cascadeLevels (List.finRange wheelLevels).tail { w with current := w.current + 1 }
  obtain ⟨(hCurrent : w'.current = w.current + 1), (hPending : w'.pending = w.pending)⟩ :=
    cascadeLevels_eq (List.finRange wheelLevels).tail { w with current := w.current + 1 }
  have hSorted : (List.finRange wheelLevels).tail.Pairwise (· < ·) :=
    (List.pairwise_lt_finRange wheelLevels).tail
  have hSettling : w'.Settling (fun _ => False) :=
    cascadeLevels_settling _ _ hSorted h.settling_succ
  rw [← hCurrent]
  refine expireOrInsert_advances hSettling.clear_placed ?_
  rw [← hPending]
  exact Buckets.contents_clear _ _

theorem ticks_advances (count : Nat) (h : w.Placed) :
    Advances w (w.current + count) (ticks count w).1 (ticks count w).2 := by
  induction count generalizing w with
  | zero => exact Advances.refl h
  | succ count ih =>
    have hFirst := tick_advances h
    have hLater := ih hFirst.placed
    rw [hFirst.current, Nat.add_right_comm] at hLater
    exact hFirst.trans hLater (by omega)

theorem allSlots_nodup : allSlots.Nodup :=
  (List.nodup_finRange _).product (List.nodup_finRange _)

theorem mem_allSlots (slot : Fin wheelLevels × Fin wheelSize) : slot ∈ allSlots :=
  List.mem_product.mpr ⟨List.mem_finRange _, List.mem_finRange _⟩

theorem advanceLarge_advances (w : HierarchicalTimeWheel K) (now : Nat) :
    Advances w now (w.advanceLarge now).1 (w.advanceLarge now).2 := by
  refine expireOrInsert_advances (placed_new now) ?_
  rw [Buckets.coe_flatMap_eq_contents _ _ allSlots_nodup mem_allSlots]
  change w.pending = w.pending + Buckets.contents _
  rw [new, Buckets.contents_empty, add_zero]

/-- The stepwise path and the bulk path have the same effect; a target in the
past has none. -/
theorem advanceTo_advances (h : w.Placed) (now : Nat) :
    Advances w (max w.current now) (w.advanceTo now).1 (w.advanceTo now).2 := by
  unfold advanceTo
  split_ifs with hPast hFar
  · rw [Nat.max_eq_left hPast]
    exact Advances.refl h
  · rw [Nat.max_eq_right (by omega)]
    exact advanceLarge_advances w now
  · have hTicks := ticks_advances (now - w.current) h
    rw [Nat.add_sub_cancel' (by omega)] at hTicks
    rwa [Nat.max_eq_right (by omega)]

end CacheCat.Mocha.HierarchicalTimeWheel

/-! Whole runs -/
namespace CacheCat.Mocha

open HierarchicalTimeWheel

variable {K : Type}

inductive WheelCall (K : Type) where
  | insert (item : TimerItem K)
  | advanceTo (now : Nat)
deriving DecidableEq, Repr

namespace WheelCall

/-- One call: the items it hands to the callback and the wheel it leaves. -/
def run : WheelCall K → HierarchicalTimeWheel K → List (TimerItem K) × HierarchicalTimeWheel K
  | insert item, w => ([], w.insert item)
  | advanceTo now, w => w.advanceTo now

/-- The wheel after a sequence of calls. -/
def after (w : HierarchicalTimeWheel K) (calls : List (WheelCall K)) : HierarchicalTimeWheel K :=
  calls.foldl (fun w call => (call.run w).2) w

/-- What the call at this position hands to the callback. -/
def firedAt (w : HierarchicalTimeWheel K) (calls : List (WheelCall K)) (position : Nat) :
    List (TimerItem K) :=
  match calls[position]? with
  | some call => (call.run (after w (calls.take position))).1
  | none => []

/-- Everything the calls hand to the callback, in order. -/
def fired (w : HierarchicalTimeWheel K) : List (WheelCall K) → List (TimerItem K)
  | [] => []
  | call :: calls => (call.run w).1 ++ fired (call.run w).2 calls

/-- Every insert finds its deadline ahead of the time reached so far. -/
def Ahead : Nat → List (WheelCall K) → Prop
  | _, [] => True
  | current, insert item :: calls => current < item.expireAt ∧ Ahead current calls
  | current, advanceTo now :: calls => Ahead (max current now) calls

/-- The call advances to this deadline or beyond. -/
def reaches (deadline : Nat) : WheelCall K → Bool
  | insert _ => false
  | advanceTo now => deadline ≤ now

/-- The call at `position` is the first after `inserted` that reaches `deadline`. -/
def FirstReach (calls : List (WheelCall K)) (inserted position deadline : Nat) : Prop :=
  inserted < position ∧ calls[position]?.any (reaches deadline) = true ∧
    ∀ call ∈ (calls.take position).drop (inserted + 1), call.reaches deadline = false

instance (calls : List (WheelCall K)) (inserted position deadline : Nat) :
    Decidable (FirstReach calls inserted position deadline) :=
  inferInstanceAs (Decidable (_ ∧ _ ∧ _))

variable (w : HierarchicalTimeWheel K)

@[simp] theorem after_nil : after w [] = w := rfl

@[simp] theorem after_cons (call : WheelCall K) (calls : List (WheelCall K)) :
    after w (call :: calls) = after (call.run w).2 calls := rfl

theorem after_append (first second : List (WheelCall K)) :
    after w (first ++ second) = after (after w first) second :=
  List.foldl_append

theorem Ahead.of_append {current : Nat} {first second : List (WheelCall K)}
    (h : Ahead current (first ++ second)) : Ahead current first := by
  induction first generalizing current with
  | nil => trivial
  | cons call first ih =>
    cases call with
    | insert item => exact ⟨h.1, ih h.2⟩
    | advanceTo now => exact ih h

/-- Every call keeps the placement, and the inserts that follow stay ahead. -/
theorem after_placed {w : HierarchicalTimeWheel K} (hPlaced : w.Placed)
    (first second : List (WheelCall K)) (hAhead : Ahead w.current (first ++ second)) :
    (after w first).Placed ∧ Ahead (after w first).current second := by
  induction first generalizing w with
  | nil => exact ⟨hPlaced, hAhead⟩
  | cons call first ih =>
    cases call with
    | insert item =>
      obtain ⟨hItem, hRest⟩ := hAhead
      refine ih (hPlaced.insert hItem) ?_
      change Ahead (w.insert item).current _
      rwa [insert_current]
    | advanceTo now =>
      have hAdvance := advanceTo_advances hPlaced now
      refine ih hAdvance.placed ?_
      change Ahead (w.advanceTo now).2.current _
      rw [hAdvance.current]
      exact hAhead

section Count

variable [DecidableEq K]

/-- The call at `inserted` inserts this item and no later call reaches its deadline. -/
def WaitsFrom (calls : List (WheelCall K)) (item : TimerItem K) (inserted : Nat) : Prop :=
  calls[inserted]? = some (insert item) ∧
    ∀ call ∈ calls.drop (inserted + 1), call.reaches item.expireAt = false

instance (calls : List (WheelCall K)) (item : TimerItem K) (inserted : Nat) :
    Decidable (WaitsFrom calls item inserted) :=
  inferInstanceAs (Decidable (_ ∧ _))

/-- How many inserts of this item are still waiting after these calls. -/
def waiting (calls : List (WheelCall K)) (item : TimerItem K) : Nat :=
  (List.range calls.length).countP (WaitsFrom calls item)

variable (calls : List (WheelCall K))

/-- One more call at the end: earlier inserts must survive it, and it may be an
insert itself. -/
theorem waiting_append (call : WheelCall K) (item : TimerItem K) :
    waiting (calls ++ [call]) item =
      (if call.reaches item.expireAt then 0 else waiting calls item) +
        if call = insert item then 1 else 0 := by
  have hEarlier : ∀ inserted ∈ List.range calls.length,
      (WaitsFrom (calls ++ [call]) item inserted ↔
        WaitsFrom calls item inserted ∧ call.reaches item.expireAt = false) := by
    intro inserted hInserted
    rw [List.mem_range] at hInserted
    unfold WaitsFrom
    rw [List.getElem?_append_left hInserted, List.drop_append_of_le_length hInserted]
    simp only [List.mem_append, List.mem_singleton, or_imp, forall_and, forall_eq, and_assoc]
  have hLast : WaitsFrom (calls ++ [call]) item calls.length ↔ call = insert item := by
    simp [WaitsFrom]
  have hCount := List.countP_congr
    (p := fun inserted => WaitsFrom (calls ++ [call]) item inserted)
    (q := fun inserted => WaitsFrom calls item inserted ∧ call.reaches item.expireAt = false)
    (by simpa only [decide_eq_true_eq] using hEarlier)
  unfold waiting
  rw [List.length_append, List.length_singleton, List.range_succ, List.countP_append,
    List.countP_singleton, hCount]
  simp only [hLast, decide_eq_true_eq]
  by_cases hReach : call.reaches item.expireAt = true
  · simp [hReach]
  · simp [hReach]

/-- The multiset of pending items, counted from the calls alone. -/
theorem pending_count {start : Nat} (hAhead : Ahead start calls) (item : TimerItem K) :
    (after (new start) calls).pending.count item = waiting calls item := by
  induction calls using List.reverseRecOn with
  | nil => simp [waiting, pending, new, Library.Buckets.contents_empty]
  | append_singleton calls call ih =>
    obtain ⟨hPlaced, hCall⟩ := after_placed (placed_new start) calls [call] hAhead
    rw [after_append, waiting_append, ← ih hAhead.of_append]
    cases call with
    | insert other =>
      change ((after (new start) calls).insert other).pending.count item = _
      rw [insert_pending, Multiset.count_cons]
      simp [reaches, eq_comm]
    | advanceTo now =>
      change ((after (new start) calls).advanceTo now).2.pending.count item = _
      rw [(advanceTo_advances hPlaced now).pending, Multiset.count_filter]
      by_cases hItem : item ∈ (after (new start) calls).pending
      · have hCurrent := hPlaced.current_lt hItem
        have hReach : max (after (new start) calls).current now < item.expireAt ↔
            ¬ item.expireAt ≤ now := by omega
        simp only [hReach, reaches, decide_eq_true_eq, reduceCtorEq, if_false, add_zero]
        split_ifs <;> rfl
      · simp [Multiset.count_eq_zero_of_notMem hItem]

/-- A call hands out exactly the waiting items whose deadline it reaches. -/
theorem firedAt_count {start : Nat} (hAhead : Ahead start calls) (item : TimerItem K)
    (position : Nat) :
    (firedAt (new start) calls position).count item =
      if calls[position]?.any (reaches item.expireAt) then waiting (calls.take position) item
      else 0 := by
  unfold firedAt
  cases hCall : calls[position]? with
  | none => simp
  | some call =>
    rw [← List.take_append_drop position calls] at hAhead
    obtain ⟨hPlaced, -⟩ := after_placed (placed_new start) _ _ hAhead
    cases call with
    | insert other => simp [run, reaches]
    | advanceTo now =>
      have hAdvance := advanceTo_advances hPlaced now
      change (HierarchicalTimeWheel.advanceTo _ now).1.count item = _
      rw [← Multiset.coe_count, hAdvance.expired, Multiset.count_filter,
        pending_count _ hAhead.of_append]
      by_cases hItem : item ∈ (after (new start) (calls.take position)).pending
      · have hCurrent := hPlaced.current_lt hItem
        have hReach : item.expireAt ≤ max (after (new start) (calls.take position)).current now ↔
            item.expireAt ≤ now := by omega
        simp [hReach, reaches]
      · rw [← pending_count _ hAhead.of_append, Multiset.count_eq_zero_of_notMem hItem]
        simp

end Count

/-- Splitting an advance into smaller ones, in any order and with repetitions,
hands out the same items and leaves the same wheel contents. -/
theorem split_advances {w : HierarchicalTimeWheel K} (hPlaced : w.Placed) (targets : List Nat)
    (now : Nat) (hTargets : ∀ target ∈ targets, target ≤ now) :
    Advances w (max w.current now) (fired w ((targets ++ [now]).map advanceTo))
      (after w ((targets ++ [now]).map advanceTo)) := by
  induction targets generalizing w with
  | nil => simpa [fired, run] using advanceTo_advances hPlaced now
  | cons target targets ih =>
    have hTarget : target ≤ now := hTargets target (List.mem_cons_self ..)
    have hFirst := advanceTo_advances hPlaced target
    have hRest := ih hFirst.placed fun t ht => hTargets t (List.mem_cons_of_mem _ ht)
    rw [hFirst.current, Nat.max_assoc, Nat.max_eq_right hTarget] at hRest
    exact hFirst.trans hRest (by omega)

/-- Every inserted item is handed out exactly once, by the first later call that
reaches its deadline, and stays pending until then; an advance hands out the same
multiset of items as any way of splitting it. -/
theorem fired_exactly_once [DecidableEq K] (start : Nat) (calls : List (WheelCall K))
    (hAhead : Ahead start calls) :
    (∀ item position, (firedAt (new start) calls position).count item =
      (List.range position).countP fun inserted =>
        calls[inserted]? = some (insert item) ∧
          FirstReach calls inserted position item.expireAt) ∧
    (∀ item, (after (new start) calls).pending.count item =
      (List.range calls.length).countP (WaitsFrom calls item)) ∧
    (∀ targets now, (∀ target ∈ targets, target ≤ now) →
      ((fired (after (new start) calls) ((targets ++ [now]).map advanceTo) :
          List (TimerItem K)) : Multiset (TimerItem K)) =
        ((after (new start) calls).advanceTo now).1 ∧
      (after (after (new start) calls) ((targets ++ [now]).map advanceTo)).pending =
        ((after (new start) calls).advanceTo now).2.pending) := by
  refine ⟨fun item position => ?_, fun item => pending_count calls hAhead item,
    fun targets now hTargets => ?_⟩
  · rw [firedAt_count calls hAhead]
    by_cases hReach : calls[position]?.any (reaches item.expireAt) = true
    · have hLength : (calls.take position).length = position := by
        have hSome : position < calls.length := by
          by_contra hLong
          simp [List.getElem?_eq_none (Nat.not_lt.mp hLong)] at hReach
        rw [List.length_take, Nat.min_eq_left hSome.le]
      rw [if_pos hReach, waiting, hLength]
      refine List.countP_congr fun inserted hInserted => ?_
      rw [List.mem_range] at hInserted
      simp only [WaitsFrom, FirstReach, hReach, hInserted, true_and, decide_eq_true_eq,
        List.getElem?_take_of_lt hInserted]
    · rw [if_neg hReach, eq_comm, List.countP_eq_zero]
      intro inserted _
      simp only [FirstReach, hReach, decide_eq_true_eq]
      tauto
  · have hPlaced : (after (new start) calls).Placed :=
      (after_placed (placed_new start) calls [] (by rw [List.append_nil]; exact hAhead)).1
    have hSplit := split_advances hPlaced targets now hTargets
    have hWhole := advanceTo_advances hPlaced now
    exact ⟨hSplit.expired.trans hWhole.expired.symm, hSplit.pending.trans hWhole.pending.symm⟩

/-- A deadline two levels up: not handed out one tick early, handed out once on
time although the same item was inserted twice and one copy had already left. -/
theorem fired_exactly_once_two_levels :
    (firedAt (new 5) [insert ⟨"k", 700⟩, advanceTo 699, insert ⟨"k", 700⟩, advanceTo 5000,
      insert ⟨"k", 70000⟩, advanceTo 90000] 3).count ⟨"k", 700⟩ = 2 := by
  rw [(fired_exactly_once 5 _ (by simp [Ahead])).1]
  decide

end WheelCall

end CacheCat.Mocha
