import Mathlib.Data.Finmap

/-! The entries of the store and the atomic actions its operations make on the
concurrent hash map. Each action is one call of the map (`insert`, `remove`,
`get` or `compute`), so that the interleavings of several threads are
interleavings of these. -/
namespace CacheCat.Mocha

/-- The largest `u64`, where `saturating_add` stops. -/
def u64Max : Nat := 2 ^ 64 - 1

inductive ExpirePolicy where
  | persistent
  | absolute (expireAt : Nat)
  | ttl (ttl : Nat)
deriving DecidableEq, Repr

/-- `Entry` and its copy `EntrySnapshot` have the same two fields. -/
structure EntrySnapshot (V : Type) where
  value : V
  expireAt : Option Nat
deriving DecidableEq, Repr

def EntrySnapshot.getExpirePolicy {V : Type} (entry : EntrySnapshot V) : ExpirePolicy :=
  match entry.expireAt with
  | none => .persistent
  | some deadline => .absolute deadline

/-- Expiry as every test in the store has it: `now >= at`. -/
def EntrySnapshot.expired {V : Type} (entry : EntrySnapshot V) (now : Nat) : Bool :=
  entry.expireAt.any (· ≤ now)

/-- What `get_entry` and then `get_with_read_clock` test: the write clock loaded
by the lookup, and the read clock of the operation if it has one. -/
def EntrySnapshot.hidden {V : Type} (entry : EntrySnapshot V) (now : Nat)
    (readClock : Option Nat) : Bool :=
  entry.expired now || readClock.any entry.expired

inductive MochaOperation (V : Type) where
  | insert (value : V) (expire : ExpirePolicy)
  | remove
  | abort
deriving DecidableEq, Repr

/-- The concurrent hash map, without the order it is iterated in. -/
abbrev Table (K V : Type) := Finmap fun _ : K => EntrySnapshot V

def resolveExpireAt (clock : Nat) : ExpirePolicy → Option Nat
  | .persistent => none
  | .absolute deadline => some deadline
  | .ttl ttl => some (min (clock + ttl) u64Max)

theorem resolveExpireAt_getExpirePolicy {V : Type} (clock : Nat) (entry : EntrySnapshot V) :
    resolveExpireAt clock entry.getExpirePolicy = entry.expireAt := by
  unfold EntrySnapshot.getExpirePolicy
  cases entry.expireAt <;> rfl

namespace Table

variable {K V : Type} [DecidableEq K]

/-- The `compute` shared by the worker and by lazy deletion: remove the entry if
it still has this deadline and the clock read earlier has reached it. -/
def removeIfCurrent (map : Table K V) (key : K) (expireAt now : Nat) : Table K V :=
  match map.lookup key with
  | some entry => if entry.expireAt = some expireAt ∧ expireAt ≤ now then map.erase key else map
  | none => map

/-- The `compute` of `set_expire_policy`, with the deadline it sets when it updates. -/
def setExpirePolicy (map : Table K V) (key : K) (policy : ExpirePolicy) (now clock : Nat) :
    Table K V × Option (Option Nat) :=
  match map.lookup key with
  | some entry =>
    if entry.expired now then (map.erase key, none)
    else
      let deadline := resolveExpireAt clock policy
      (map.insert key { entry with expireAt := deadline }, some deadline)
  | none => (map, none)

/-- The `compute` of `unlink`: a live entry expires at once. -/
def unlink (map : Table K V) (key : K) (now : Nat) : Table K V × Bool :=
  match map.lookup key with
  | some entry =>
    if entry.expired now then (map, false)
    else (map.insert key { entry with expireAt := some now }, true)
  | none => (map, false)

/-- The entries that pass a test, as a walk over the map that skips the others
sees them. -/
def retain (map : Table K V) (keep : EntrySnapshot V → Bool) : Table K V :=
  Finmap.keysLookupEquiv.symm
    ⟨(map.keys.filter fun key => (map.lookup key).any keep,
      fun key => (map.lookup key).filter keep), by
        intro key
        cases hLookup : map.lookup key with
        | none => simp [hLookup]
        | some entry => simp [hLookup, Finmap.mem_keys, Finmap.mem_of_lookup_eq_some hLookup,
            Option.isSome_filter]⟩

@[simp] theorem lookup_retain (map : Table K V) (keep : EntrySnapshot V → Bool) (key : K) :
    (map.retain keep).lookup key = (map.lookup key).filter keep :=
  Finmap.keysLookupEquiv_symm_apply_lookup _ _

variable {map : Table K V} {key other : K} {expireAt now : Nat} {entry found : EntrySnapshot V}

@[simp] theorem lookup_removeIfCurrent_of_ne (h : other ≠ key) :
    (map.removeIfCurrent key expireAt now).lookup other = map.lookup other := by
  unfold removeIfCurrent
  split
  · split_ifs
    · exact Finmap.lookup_erase_ne h
    · rfl
  · rfl

/-- A `compute` of the worker or of a lazy read removes nothing but an entry with
exactly the deadline it was called for, and only at or after that deadline. -/
theorem removeIfCurrent_cases (map : Table K V) (key : K) (expireAt now : Nat) :
    (∃ entry, map.lookup key = some entry ∧ entry.expireAt = some expireAt ∧ expireAt ≤ now ∧
      map.removeIfCurrent key expireAt now = map.erase key) ∨
    (map.removeIfCurrent key expireAt now = map ∧
      ∀ entry, map.lookup key = some entry → expireAt ≤ now → entry.expireAt ≠ some expireAt) := by
  unfold removeIfCurrent
  cases hLookup : map.lookup key with
  | none => exact Or.inr ⟨rfl, fun entry h => by cases h⟩
  | some entry =>
    by_cases hDue : entry.expireAt = some expireAt ∧ expireAt ≤ now
    · exact Or.inl ⟨entry, rfl, hDue.1, hDue.2, if_pos hDue⟩
    · refine Or.inr ⟨if_neg hDue, ?_⟩
      rintro other ⟨⟩ hNow hDeadline
      exact hDue ⟨hDeadline, hNow⟩

/-- Whatever is left under the key after such a `compute` has another deadline. -/
theorem lookup_removeIfCurrent (hNow : expireAt ≤ now)
    (h : (map.removeIfCurrent key expireAt now).lookup key = some entry) :
    map.lookup key = some entry ∧ entry.expireAt ≠ some expireAt := by
  rcases removeIfCurrent_cases map key expireAt now with ⟨_, -, -, -, hErase⟩ | ⟨hSame, hOther⟩
  · rw [hErase, Finmap.lookup_erase] at h
    cases h
  · rw [hSame] at h
    exact ⟨h, hOther entry h hNow⟩

/-- An entry found after an insert is the inserted one or was there before. -/
theorem lookup_insert_cases (h : (map.insert key entry).lookup other = some found) :
    (other = key ∧ found = entry) ∨ map.lookup other = some found := by
  by_cases hKey : other = key
  · subst hKey
    rw [Finmap.lookup_insert] at h
    exact Or.inl ⟨rfl, (Option.some.inj h).symm⟩
  · rw [Finmap.lookup_insert_of_ne _ hKey] at h
    exact Or.inr h

theorem lookup_erase_some (h : (map.erase key).lookup other = some found) :
    map.lookup other = some found := by
  by_cases hKey : other = key
  · subst hKey
    rw [Finmap.lookup_erase] at h
    cases h
  · rwa [Finmap.lookup_erase_ne hKey] at h

theorem lookup_removeIfCurrent_some
    (h : (map.removeIfCurrent key expireAt now).lookup other = some found) :
    map.lookup other = some found := by
  rcases removeIfCurrent_cases map key expireAt now with ⟨_, -, -, -, hErase⟩ | ⟨hSame, -⟩
  · rw [hErase] at h
    exact lookup_erase_some h
  · rwa [hSame] at h

/-- Both `compute` closures that write leave behind only what was there and the
one entry they report. -/
theorem lookup_unlink_cases (h : (map.unlink key now).1.lookup other = some found) :
    (other = key ∧ found.expireAt = some now ∧ (map.unlink key now).2 = true) ∨
      map.lookup other = some found := by
  unfold unlink at h ⊢
  cases hLookup : map.lookup key with
  | none => exact Or.inr (by simpa [hLookup] using h)
  | some entry =>
    by_cases hExpired : entry.expired now = true
    · exact Or.inr (by simpa [hLookup, hExpired] using h)
    · simp only [hLookup, hExpired] at h ⊢
      rcases lookup_insert_cases h with ⟨rfl, rfl⟩ | h
      · exact Or.inl ⟨rfl, rfl, rfl⟩
      · exact Or.inr h

theorem lookup_setExpirePolicy_cases {policy : ExpirePolicy} {clock : Nat}
    (h : (map.setExpirePolicy key policy now clock).1.lookup other = some found) :
    (other = key ∧ (map.setExpirePolicy key policy now clock).2 = some found.expireAt) ∨
      map.lookup other = some found := by
  unfold setExpirePolicy at h ⊢
  cases hLookup : map.lookup key with
  | none => exact Or.inr (by simpa [hLookup] using h)
  | some entry =>
    by_cases hExpired : entry.expired now = true
    · simp only [hLookup, hExpired] at h
      exact Or.inr (lookup_erase_some h)
    · simp only [hLookup, hExpired] at h ⊢
      rcases lookup_insert_cases h with ⟨rfl, rfl⟩ | h
      · exact Or.inl ⟨rfl, rfl⟩
      · exact Or.inr h

/-- What a `compute` of this kind removes has expired. -/
theorem expired_of_removed {clock : Nat} (hBefore : map.lookup other = some entry)
    (hAfter : (map.removeIfCurrent key expireAt now).lookup other ≠ some entry)
    (hNow : now ≤ clock) :
    entry.expired clock = true := by
  by_cases hKey : other = key
  · subst hKey
    rcases removeIfCurrent_cases map other expireAt now with
      ⟨found, hFound, hDeadline, hDue, -⟩ | ⟨hSame, -⟩
    · rw [hBefore] at hFound
      cases hFound
      simpa [EntrySnapshot.expired, hDeadline] using hDue.trans hNow
    · rw [hSame] at hAfter
      exact absurd hBefore hAfter
  · rw [lookup_removeIfCurrent_of_ne hKey] at hAfter
    exact absurd hBefore hAfter

end Table

end CacheCat.Mocha
