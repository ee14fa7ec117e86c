import CacheCat.Library.Buckets
import Mathlib.Data.Fintype.Prod
import Mathlib.Data.Nat.Bitwise

/-! The hierarchical timing wheel of the store: eight levels of 256 slots. A
deadline sits at the level of its distance from the current tick and moves down
when the ticks reach its slot. Times are `u64` in the source; no operation below
leaves that range, so they are natural numbers here. -/
namespace CacheCat.Mocha

open Library

abbrev wheelBits : Nat := 8

abbrev wheelSize : Nat := 1 <<< wheelBits

abbrev wheelMask : Nat := wheelSize - 1

abbrev wheelLevels : Nat := 8

instance : NeZero wheelLevels := ⟨by decide⟩

def largeAdvanceThreshold : Nat := 4096

structure TimerItem (K : Type) where
  key : K
  expireAt : Nat
deriving DecidableEq, Repr

/-- `wheels` is indexed by level and slot. -/
structure HierarchicalTimeWheel (K : Type) where
  current : Nat
  wheels : Fin wheelLevels × Fin wheelSize → List (TimerItem K)

namespace HierarchicalTimeWheel

variable {K : Type}

def new (now : Nat) : HierarchicalTimeWheel K :=
  { current := now, wheels := fun _ => [] }

def slotFor (time : Nat) (level : Fin wheelLevels) : Fin wheelSize :=
  ⟨(time >>> (level.val * wheelBits)) &&& wheelMask,
    Nat.lt_of_le_of_lt Nat.and_le_right (by decide)⟩

/-- The `while` loop of `level_for_delta`. The loop condition `level + 1 <
WHEEL_LEVELS` is the number of levels that remain. -/
def levelLoop (delta : Nat) : (remaining level span : Nat) → Nat
  | 0, level, _ => level
  | remaining + 1, level, span =>
    if delta ≥ span then levelLoop delta remaining (level + 1) (span <<< wheelBits) else level

theorem levelLoop_le (delta : Nat) (remaining level span : Nat) :
    levelLoop delta remaining level span ≤ level + remaining := by
  induction remaining generalizing level span with
  | zero => exact Nat.le_refl _
  | succ remaining ih =>
    rw [levelLoop]
    split_ifs
    · have h := ih (level + 1) (span <<< wheelBits)
      omega
    · omega

def levelForDelta (delta : Nat) : Fin wheelLevels :=
  ⟨levelLoop delta (wheelLevels - 1) 0 wheelSize,
    Nat.lt_of_le_of_lt (levelLoop_le delta _ _ _) (by decide)⟩

def insert (w : HierarchicalTimeWheel K) (item : TimerItem K) : HierarchicalTimeWheel K :=
  if item.expireAt ≤ w.current then
    { w with wheels := Buckets.push w.wheels (0, slotFor w.current 0) item }
  else
    let level := levelForDelta (item.expireAt - w.current)
    { w with wheels := Buckets.push w.wheels (level, slotFor item.expireAt level) item }

/-- All slots, level by level, as the two nested loops of the source visit them. -/
def allSlots : List (Fin wheelLevels × Fin wheelSize) :=
  List.finRange wheelLevels ×ˢ List.finRange wheelSize

def hasDue (w : HierarchicalTimeWheel K) (now : Nat) (isCurrent : K → Nat → Bool) : Bool :=
  allSlots.any fun slot =>
    (w.wheels slot).any fun item => item.expireAt ≤ now && isCurrent item.key item.expireAt

def cascade (w : HierarchicalTimeWheel K) (level : Fin wheelLevels) : HierarchicalTimeWheel K :=
  let slot := (level, slotFor w.current level)
  (w.wheels slot).foldl insert { w with wheels := Buckets.clear w.wheels slot }

/-- The loop over the levels of one tick: it stops at the first level whose
lower digits are not all zero. -/
def cascadeLevels : List (Fin wheelLevels) → HierarchicalTimeWheel K → HierarchicalTimeWheel K
  | [], w => w
  | level :: levels, w =>
    if w.current &&& ((1 <<< (level.val * wheelBits)) - 1) = 0 then
      cascadeLevels levels (w.cascade level)
    else w

/-- The loop over taken items: due items go to the callback, in this order, and
the others go back into the wheel. -/
def expireOrInsert :
    List (TimerItem K) → HierarchicalTimeWheel K → List (TimerItem K) × HierarchicalTimeWheel K
  | [], w => ([], w)
  | item :: rest, w =>
    if item.expireAt ≤ w.current then
      let (expired, w') := expireOrInsert rest w
      (item :: expired, w')
    else expireOrInsert rest (w.insert item)

/-- One round of the `while` loop of `advance_to`. -/
def tick (w : HierarchicalTimeWheel K) : List (TimerItem K) × HierarchicalTimeWheel K :=
  let w := cascadeLevels (List.finRange wheelLevels).tail { w with current := w.current + 1 }
  let slot := (0, slotFor w.current 0)
  expireOrInsert (w.wheels slot) { w with wheels := Buckets.clear w.wheels slot }

def ticks : Nat → HierarchicalTimeWheel K → List (TimerItem K) × HierarchicalTimeWheel K
  | 0, w => ([], w)
  | count + 1, w =>
    let (expired, w) := w.tick
    let (later, w) := ticks count w
    (expired ++ later, w)

def advanceLarge (w : HierarchicalTimeWheel K) (now : Nat) :
    List (TimerItem K) × HierarchicalTimeWheel K :=
  expireOrInsert (allSlots.flatMap w.wheels) { current := now, wheels := fun _ => [] }

/-- The items handed to the callback, in order, and the wheel afterwards. -/
def advanceTo (w : HierarchicalTimeWheel K) (now : Nat) :
    List (TimerItem K) × HierarchicalTimeWheel K :=
  if now ≤ w.current then ([], w)
  else if now - w.current > largeAdvanceThreshold then w.advanceLarge now
  else ticks (now - w.current) w

/-! Placement -/

/-- Everything waiting in the wheel. -/
def pending (w : HierarchicalTimeWheel K) : Multiset (TimerItem K) :=
  Buckets.contents w.wheels

/-- The block of `256 ^ level` ticks that a time lies in. -/
def block (level : Fin wheelLevels) (time : Nat) : Nat :=
  time / 2 ^ (level.val * wheelBits)

theorem slotFor_congr {level : Fin wheelLevels} {a b : Nat} (h : block level a = block level b) :
    slotFor a level = slotFor b level := by
  simp only [slotFor, Nat.shiftRight_eq_div_pow, Fin.mk.injEq]
  unfold block at h
  rw [h]

theorem block_zero (time : Nat) : block 0 time = time := by
  simp [block]

/-- Only the lower bound on the distance matters: an item taken from its slot
before its time is put back by its distance at that moment. -/
theorem levelLoop_distance (delta : Nat) (remaining level : Nat)
    (h : level = 0 ∨ 2 ^ (level * wheelBits) ≤ delta) :
    levelLoop delta remaining level (2 ^ ((level + 1) * wheelBits)) = 0 ∨
      2 ^ (levelLoop delta remaining level (2 ^ ((level + 1) * wheelBits)) * wheelBits) ≤
        delta := by
  induction remaining generalizing level with
  | zero => exact h
  | succ remaining ih =>
    rw [levelLoop]
    split_ifs with hSpan
    · have hNext : 2 ^ ((level + 1) * wheelBits) <<< wheelBits =
          2 ^ ((level + 1 + 1) * wheelBits) := by
        rw [Nat.shiftLeft_eq, ← pow_add, Nat.add_mul (level + 1), Nat.one_mul]
      rw [hNext]
      exact ih (level + 1) (Or.inr hSpan)
    · exact h

theorem block_lt_of_level {current expireAt : Nat} (h : current < expireAt) :
    block (levelForDelta (expireAt - current)) current <
      block (levelForDelta (expireAt - current)) expireAt := by
  have hDistance := levelLoop_distance (expireAt - current) (wheelLevels - 1) 0 (Or.inl rfl)
  change (levelForDelta (expireAt - current)).val = 0 ∨
    2 ^ ((levelForDelta (expireAt - current)).val * wheelBits) ≤ expireAt - current at hDistance
  generalize levelForDelta (expireAt - current) = level at *
  rcases hDistance with hZero | hFar
  · have hLevel : level = 0 := Fin.ext hZero
    rw [hLevel, block_zero, block_zero]
    exact h
  · have hPos : 0 < 2 ^ (level.val * wheelBits) := Nat.two_pow_pos _
    calc current / 2 ^ (level.val * wheelBits)
        < (current + 2 ^ (level.val * wheelBits)) / 2 ^ (level.val * wheelBits) := by
          rw [Nat.add_div_right _ hPos]; exact Nat.lt_succ_self _
      _ ≤ expireAt / 2 ^ (level.val * wheelBits) := Nat.div_le_div_right (by omega)

end HierarchicalTimeWheel

end CacheCat.Mocha
