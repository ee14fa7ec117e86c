import CacheCat.Data.ScoreOrder
import CacheCat.Library.Ascending
import Mathlib.Data.Finset.Sort

/-! A sorted set as a finite map from members to scores: the reference semantics of
its operations, on the map, and of its reads, on the list of the pairs in order. -/
namespace CacheCat

open Library (Ascending insertKey removeKey)

abbrev Scores := Finmap fun _ : Bytes => Float

namespace Scores

/-- The pairs of the map, sorted by score and member. -/
def listing (map : Scores) : List (Float × Bytes) :=
  ((map.keys.sort (· ≤ ·)).filterMap fun member =>
      (map.lookup member).map fun score => (score, member)).insertionSort
    fun p q => pairKey p ≤ pairKey q

end Scores

/-- The flags let this score be set. -/
def ZAddArgs.Accepts (args : ZAddArgs) (current : Option Float) (score : Float) : Prop :=
  match current with
  | none => args.xx = false
  | some old => args.nx = false ∧ (args.gt = true → scoreKey old < scoreKey score) ∧
      (args.lt = true → scoreKey score < scoreKey old) ∧ scoreKey old ≠ scoreKey score

instance (args : ZAddArgs) : (current : Option Float) → (score : Float) →
    Decidable (args.Accepts current score)
  | none, _ => inferInstanceAs (Decidable (args.xx = false))
  | some old, score => inferInstanceAs (Decidable (args.nx = false ∧
      (args.gt = true → scoreKey old < scoreKey score) ∧
      (args.lt = true → scoreKey score < scoreKey old) ∧ scoreKey old ≠ scoreKey score))

namespace Scores

def addMember (args : ZAddArgs) (map : Scores) (item : Bytes × Float) : Scores :=
  if args.Accepts (map.lookup item.1) item.2 then map.insert item.1 item.2 else map

def add (map : Scores) (args : ZAddArgs) : Scores := args.members.foldl (addMember args) map

/-- How many items add a member, or with CH add or change one. -/
def countAdded (args : ZAddArgs) : Scores → List (Bytes × Float) → Nat
  | _, [] => 0
  | map, item :: items =>
    (if args.Accepts (map.lookup item.1) item.2 ∧ (args.ch = true ∨ map.lookup item.1 = none)
      then 1 else 0) + countAdded args (map.addMember args item) items

def remove (map : Scores) (members : List Bytes) : Scores := members.foldl (·.erase ·) map

/-- NaN is refused. -/
def increased (map : Scores) (member : Bytes) (increment : Float) : Option Float :=
  let score := (map.lookup member).getD 0 + increment
  if score.isNaN then none else some score

def increase (map : Scores) (member : Bytes) (increment : Float) : Scores :=
  match map.increased member increment with
  | none => map
  | some score =>
    if (map.lookup member).map scoreKey = some (scoreKey score) then map
    else map.insert member score

def lowest (map : Scores) (count : Option Nat) : List (Float × Bytes) :=
  map.listing.take (count.getD 1)

def popMin (map : Scores) (count : Option Nat) : Scores :=
  map.remove ((map.lowest count).map Prod.snd)

/-- A rank that is negative is counted from the end. -/
def fromEnd (map : Scores) (rank : Int) : Int :=
  if rank < 0 then map.listing.length + rank else rank

/-- The pairs whose rank lies between two ranks. -/
def range (map : Scores) (start stop : Int) : List (Float × Bytes) :=
  (map.listing.zipIdx.filter fun pair =>
    decide (map.fromEnd start ≤ pair.2 ∧ pair.2 ≤ map.fromEnd stop)).map Prod.fst

/-- The pairs whose score lies between two bounds. -/
def between (map : Scores) (min max : Float) (minExclusive maxExclusive : Bool) :
    List (Float × Bytes) :=
  map.listing.filter fun pair =>
    (if minExclusive then decide (scoreKey min < scoreKey pair.1)
      else decide (scoreKey min ≤ scoreKey pair.1)) &&
    (if maxExclusive then decide (scoreKey pair.1 < scoreKey max)
      else decide (scoreKey pair.1 ≤ scoreKey max))

/-- LIMIT, with an offset and a count. -/
def limited (pairs : List (Float × Bytes)) : Option (Nat × Nat) → List (Float × Bytes)
  | none => pairs
  | some (offset, count) => (pairs.drop offset).take count

/-! ### The list of the pairs -/

variable {map : Scores}

variable {member : Bytes}

theorem mem_listing {score : Float} :
    (score, member) ∈ map.listing ↔ map.lookup member = some score := by
  rw [listing, List.mem_insertionSort, List.mem_filterMap]
  constructor
  · rintro ⟨other, -, hPair⟩
    obtain ⟨found, hLookup, hEq⟩ := Option.map_eq_some_iff.mp hPair
    cases hEq
    exact hLookup
  · intro hLookup
    refine ⟨member, ?_, by rw [hLookup]; rfl⟩
    rw [Finset.mem_sort, Finmap.mem_keys, Finmap.mem_iff]
    exact ⟨score, hLookup⟩

theorem pairKey_ne_of_member_ne {p q : Float × Bytes} (h : p.2 ≠ q.2) : pairKey p ≠ pairKey q := by
  intro hKey
  exact h (map_toNat_injective (Prod.mk.inj (toLex.injective hKey)).2)

theorem ascending_listing : Ascending pairKey map.listing := by
  refine Library.ascending_insertionSort (List.Pairwise.filterMap _ ?_ (Finset.sort_nodup _ _))
  rintro a b hNe p hP q hQ
  obtain ⟨score, -, rfl⟩ := Option.map_eq_some_iff.mp hP
  obtain ⟨other, -, rfl⟩ := Option.map_eq_some_iff.mp hQ
  exact pairKey_ne_of_member_ne hNe

theorem listing_eq {pairs : List (Float × Bytes)} (hAscending : Ascending pairKey pairs)
    (hMem : ∀ score member, (score, member) ∈ pairs ↔ map.lookup member = some score) :
    pairs = map.listing :=
  hAscending.eq_of_mem_iff ascending_listing fun pair => (hMem pair.1 pair.2).trans mem_listing.symm

/-- A member has one score. -/
theorem eq_of_mem_listing {p q : Float × Bytes} (hP : p ∈ map.listing) (hQ : q ∈ map.listing)
    (hMember : p.2 = q.2) : p = q := by
  have hLookup : map.lookup p.2 = some p.1 := mem_listing.mp hP
  rw [hMember, mem_listing.mp hQ] at hLookup
  exact Prod.ext (Option.some.inj hLookup).symm hMember

theorem nodup_listing_members : (map.listing.map Prod.snd).Nodup :=
  ascending_listing.nodup.map_on fun _ hP _ hQ => eq_of_mem_listing hP hQ

theorem length_listing : map.listing.length = map.keys.card := by
  have hMembers : (map.listing.map Prod.snd).toFinset = map.keys := by
    ext member
    rw [List.mem_toFinset, Finmap.mem_keys, Finmap.mem_iff, List.mem_map]
    constructor
    · rintro ⟨⟨score, _⟩, hPair, rfl⟩
      exact ⟨score, mem_listing.mp hPair⟩
    · rintro ⟨score, hLookup⟩
      exact ⟨(score, member), mem_listing.mpr hLookup, rfl⟩
  rw [← hMembers, List.toFinset_card_of_nodup nodup_listing_members, List.length_map]

theorem listing_empty : (∅ : Scores).listing = [] := by
  rw [List.eq_nil_iff_forall_not_mem]
  rintro ⟨score, member⟩ hPair
  rw [mem_listing] at hPair
  cases hPair

theorem listing_erase {old : Float} (hOld : map.lookup member = some old) :
    removeKey pairKey (old, member) map.listing = listing (map.erase member) := by
  refine listing_eq (ascending_listing.removeKey _) fun score other => ?_
  rw [Library.mem_removeKey, mem_listing]
  by_cases hMember : other = member
  · subst hMember
    rw [Finmap.lookup_erase, hOld]
    simp only [Option.some.injEq, reduceCtorEq, iff_false, not_and, not_not]
    rintro rfl
    rfl
  · rw [Finmap.lookup_erase_ne hMember]
    exact and_iff_left (pairKey_ne_of_member_ne hMember)

theorem listing_insert (hNew : map.lookup member = none) (score : Float) :
    insertKey pairKey (score, member) map.listing = listing (map.insert member score) := by
  refine listing_eq (ascending_listing.insertKey _) fun other k => ?_
  rw [Library.mem_insertKey, mem_listing]
  · by_cases hMember : k = member
    · subst hMember
      simp [hNew, eq_comm]
    · simp [Finmap.lookup_insert_of_ne _ hMember, hMember]
  · rintro ⟨other, k⟩ hPair
    apply pairKey_ne_of_member_ne
    rintro rfl
    rw [mem_listing, hNew] at hPair
    cases hPair

theorem erase_insert (member : Bytes) (score : Float) :
    (map.erase member).insert member score = map.insert member score := by
  apply Finmap.ext_lookup
  intro k
  by_cases hMember : k = member
  · subst hMember
    simp
  · simp [Finmap.lookup_insert_of_ne _ hMember, Finmap.lookup_erase_ne hMember]

theorem lookup_remove (members : List Bytes) (k : Bytes) :
    (map.remove members).lookup k = if k ∈ members then none else map.lookup k := by
  induction members generalizing map with
  | nil => rfl
  | cons member members ih =>
    have hRest : map.remove (member :: members) = Scores.remove (map.erase member) members := rfl
    rw [hRest, ih]
    by_cases hMember : k = member
    · subst hMember
      simp
    · simp [hMember, Finmap.lookup_erase_ne hMember]

/-- What is left of the list when its first pairs are taken away. -/
theorem listing_popMin (count : Option Nat) :
    map.listing.drop (count.getD 1) = (map.popMin count).listing := by
  refine listing_eq ascending_listing.drop fun score member => ?_
  rw [popMin, lookup_remove]
  have hParts := List.take_append_drop (count.getD 1) map.listing
  have hDisjoint := (List.nodup_append.mp (hParts ▸ ascending_listing.nodup)).2.2
  constructor
  · intro hPair
    have hMem : (score, member) ∈ map.listing := List.mem_of_mem_drop hPair
    rw [if_neg, mem_listing.mp hMem]
    intro hTaken
    obtain ⟨other, hOther, hMember⟩ := List.mem_map.mp hTaken
    have hEq := eq_of_mem_listing (List.mem_of_mem_take hOther) hMem hMember
    exact hDisjoint other hOther _ hPair hEq
  · intro hLookup
    split_ifs at hLookup with hTaken
    have hMem := mem_listing.mpr hLookup
    rw [← hParts, List.mem_append] at hMem
    rcases hMem with hFirst | hRest
    · exact absurd (List.mem_map_of_mem hFirst) hTaken
    · exact hRest

theorem listing_update {old : Float} (hOld : map.lookup member = some old) (score : Float) :
    insertKey pairKey (score, member) (removeKey pairKey (old, member) map.listing) =
      listing (map.insert member score) := by
  rw [listing_erase hOld, listing_insert (Finmap.lookup_erase ..), erase_insert]

end Scores

end CacheCat
