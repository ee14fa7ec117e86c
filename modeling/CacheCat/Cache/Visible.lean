import CacheCat.Cache.Machine

/-! The visible state: what each query makes of the map from keys to data and
deadlines. Reclaiming expired entries does not change it. -/
namespace CacheCat.Cache

open Mocha (EntrySnapshot Table)

/-- What is compared of an entry. -/
def Entry.view (entry : Entry) : ValueObject × Option Nat := (entry.value.data, entry.expireAt)

theorem same_iff_view (a b : Option Entry) :
    Option.Rel Entry.Same a b ↔ a.map Entry.view = b.map Entry.view := by
  cases a with
  | none => cases b <;> simp
  | some a =>
    cases b with
    | none => simp
    | some b => simp [Entry.Same, Entry.view]

/-- A later clock only hides more. -/
theorem filter_expired {clock later : Nat} (hClock : clock ≤ later) (found : Option Entry) :
    (found.filter fun entry => !entry.expired clock).filter (fun entry => !entry.expired later) =
      found.filter fun entry => !entry.expired later := by
  cases found with
  | none => rfl
  | some entry =>
    by_cases hExpired : entry.expired clock = true
    · have hLater : entry.expired later = true := by
        simp only [EntrySnapshot.expired, Option.any_eq_true, decide_eq_true_eq] at hExpired ⊢
        obtain ⟨deadline, hDeadline, hDue⟩ := hExpired
        exact ⟨deadline, hDeadline, hDue.trans hClock⟩
      simp [hExpired, hLater, Option.filter_some]
    · simp [hExpired, Option.filter_some]

namespace State

variable {Vm : Type} (s : State Vm) (db other : Nat) (key k : Bytes)

theorem visible_eq : s.visible db key = (s.live db key).map Entry.view := rfl

theorem live_setDatabase (map : Table Bytes MyValue) :
    (s.setDatabase db map).live other k =
      if other = db then (map.lookup k).filter fun entry => !entry.expired s.writeClock
      else s.live other k := by
  by_cases hDb : other = db
  · subst hDb
    simp [live, setDatabase]
  · simp [live, setDatabase, hDb]

/-- If the new map differs in one key, only that key shows it. -/
theorem live_setDatabase_of_ne {map : Table Bytes MyValue}
    (hMap : ∀ k ≠ key, map.lookup k = (s.databases db).lookup k) :
    (s.setDatabase db map).live other k =
      if other = db ∧ k = key then (map.lookup key).filter fun entry => !entry.expired s.writeClock
      else s.live other k := by
  rw [live_setDatabase]
  by_cases hDb : other = db
  · subst hDb
    by_cases hKey : k = key
    · subst hKey
      simp
    · simp [live, hKey, hMap k hKey]
  · simp [hDb]

theorem live_erase :
    (s.setDatabase db ((s.databases db).erase key)).live other k =
      if other = db ∧ k = key then none else s.live other k := by
  rw [live_setDatabase_of_ne _ _ _ _ _ fun _ hKey => Finmap.lookup_erase_ne hKey,
    Finmap.lookup_erase]
  rfl

theorem live_insert (entry : Entry) :
    (s.setDatabase db ((s.databases db).insert key entry)).live other k =
      if other = db ∧ k = key then (some entry).filter fun entry => !entry.expired s.writeClock
      else s.live other k := by
  rw [live_setDatabase_of_ne _ _ _ _ _ fun _ hKey => Finmap.lookup_insert_of_ne _ hKey,
    Finmap.lookup_insert]

theorem live_dropExpired : (s.dropExpired db key).live other k = s.live other k := by
  unfold dropExpired
  split
  next hExpired =>
    rw [live_erase]
    split_ifs with hKey
    · obtain ⟨rfl, rfl⟩ := hKey
      obtain ⟨entry, hLookup, hEntry⟩ := (Option.any_eq_true ..).mp hExpired
      simp [live, hLookup, hEntry, Option.filter_some]
    · rfl
  · rfl

theorem unlinked_cases :
    (s.live db key = none ∧ s.unlinked db key = (s.databases db, false)) ∨
    ∃ entry, s.live db key = some entry ∧ s.unlinked db key =
      ((s.databases db).insert key { entry with expireAt := some s.writeClock }, true) := by
  unfold unlinked live Table.unlink
  cases hLookup : (s.databases db).lookup key with
  | none => exact Or.inl ⟨rfl, rfl⟩
  | some entry =>
    by_cases hExpired : entry.expired s.writeClock = true
    · exact Or.inl ⟨by simp [hExpired], by simp [hExpired]⟩
    · exact Or.inr ⟨entry, by simp [hExpired], by simp [hExpired]⟩

/-- An unlinked entry is gone like a removed one. -/
theorem live_unlinked :
    (s.setDatabase db (s.unlinked db key).1).live other k =
      if other = db ∧ k = key then none else s.live other k := by
  rcases s.unlinked_cases db key with ⟨hLive, hUnlinked⟩ | ⟨entry, hLive, hUnlinked⟩
  · rw [hUnlinked, live_setDatabase_of_ne s db other key k fun _ _ => rfl]
    exact if_congr Iff.rfl hLive rfl
  · rw [hUnlinked, live_insert]
    simp [EntrySnapshot.expired, Option.filter_some]

theorem unlinked_snd : (s.unlinked db key).2 = (s.live db key).isSome := by
  rcases s.unlinked_cases db key with ⟨hLive, hUnlinked⟩ | ⟨entry, hLive, hUnlinked⟩
  · simp [hLive, hUnlinked]
  · simp [hLive, hUnlinked]

theorem live_clear :
    (s.setDatabase db ∅).live other k = if other = db then none else s.live other k := by
  rw [live_setDatabase]
  simp

theorem live_reclaimed : (s.setDatabase db (s.reclaimed db)).live other k = s.live other k := by
  rw [live_setDatabase]
  by_cases hDb : other = db
  · subst hDb
    simp [live, reclaimed]
  · simp [hDb]

theorem live_setWriteClock (clock : Nat) (hClock : s.writeClock ≤ clock) :
    ({ s with writeClock := clock } : State Vm).live db key =
      (s.live db key).filter fun entry => !entry.expired clock :=
  (filter_expired hClock _).symm

end State
end CacheCat.Cache
