import CacheCat.Data.Scores

/-! The sorted set refines a finite map from members to scores: tree and hash follow
the map through every sequence of operations, and replies and reads are those that
the map prescribes. -/
namespace CacheCat

open Library (Ascending insertKey removeKey)

/-! ### Tree and hash -/

/-- Tree and hash both describe the map, and all its scores are numbers. -/
structure SortedSet.Represents (zset : SortedSet) (map : Scores) : Prop where
  hash : zset.hash = map
  tree : zset.tree = map.listing
  numbers : ∀ member score, map.lookup member = some score → score.isNaN = false

namespace SortedSet

section

variable {tree : List (Float × Bytes)} (hTree : ∀ other ∈ tree, other.1.isNaN = false)
  (pair : Float × Bytes) (hPair : pair.1.isNaN = false)
include hTree hPair

theorem treeInsert_eq : treeInsert pair tree = insertKey pairKey pair tree := by
  induction tree with
  | nil => rfl
  | cons head rest ih =>
    have hHead := hTree head (List.mem_cons_self ..)
    have hRest := ih fun other hOther => hTree other (List.mem_cons_of_mem _ hOther)
    simp only [treeInsert, insertKey, pairLt_iff _ _ hPair hHead,
      pairLt_iff _ _ hHead hPair, hRest]

theorem treeRemove_eq : treeRemove pair tree = removeKey pairKey pair tree := by
  refine Library.filter_eq_removeKey fun other hOther => ?_
  rw [Bool.or_eq_true, pairLt_iff _ _ hPair (hTree other hOther),
    pairLt_iff _ _ (hTree other hOther) hPair, or_comm, lt_or_lt_iff_ne]

end

variable {zset : SortedSet} {map : Scores}

variable {score old : Float}

namespace Represents

theorem tree_numbers (h : zset.Represents map) : ∀ pair ∈ zset.tree, pair.1.isNaN = false := by
  rintro ⟨score, member⟩ hPair
  rw [h.tree, Scores.mem_listing] at hPair
  exact h.numbers member score hPair

variable {member : Bytes}

section

variable (h : zset.Represents map)

include h

theorem numbers_insert (hNumber : score.isNaN = false) (k : Bytes) (other : Float)
    (hLookup : (map.insert member score).lookup k = some other) : other.isNaN = false := by
  by_cases hMember : k = member
  · subst hMember
    rw [Finmap.lookup_insert] at hLookup
    cases hLookup
    exact hNumber
  · rw [Finmap.lookup_insert_of_ne _ hMember] at hLookup
    exact h.numbers k other hLookup

/-- A new member. -/
theorem insert (hNew : map.lookup member = none) (hNumber : score.isNaN = false) :
    Represents ⟨treeInsert (score, member) zset.tree, zset.hash.insert member score⟩
      (map.insert member score) where
  hash := by rw [h.hash]
  tree := by
    rw [treeInsert_eq h.tree_numbers (score, member) hNumber, h.tree, Scores.listing_insert hNew]
  numbers := h.numbers_insert hNumber

/-- A new score for a member. -/
theorem update (hOld : map.lookup member = some old) (hNumber : score.isNaN = false) :
    Represents ⟨treeInsert (score, member) (treeRemove (old, member) zset.tree),
      zset.hash.insert member score⟩ (map.insert member score) where
  hash := by rw [h.hash]
  tree := by
    have hOldNumber : old.isNaN = false := h.numbers member old hOld
    have hRemoved : ∀ other ∈ treeRemove (old, member) zset.tree, other.1.isNaN = false :=
      fun other hOther => h.tree_numbers other (List.mem_of_mem_filter hOther)
    rw [treeInsert_eq hRemoved (score, member) hNumber,
      treeRemove_eq h.tree_numbers (old, member) hOldNumber, h.tree, Scores.listing_update hOld]
  numbers := h.numbers_insert hNumber

theorem erase (hOld : map.lookup member = some old) :
    Represents ⟨treeRemove (old, member) zset.tree, zset.hash.erase member⟩ (map.erase member) where
  hash := by rw [h.hash]
  tree := by
    have hOldNumber : old.isNaN = false := h.numbers member old hOld
    rw [treeRemove_eq h.tree_numbers (old, member) hOldNumber, h.tree, Scores.listing_erase hOld]
  numbers k score hLookup := by
    by_cases hMember : k = member
    · subst hMember
      rw [Finmap.lookup_erase] at hLookup
      cases hLookup
    · rw [Finmap.lookup_erase_ne hMember] at hLookup
      exact h.numbers k score hLookup

end

end Represents

theorem represents_new : new.Represents ∅ where
  hash := rfl
  tree := Scores.listing_empty.symm
  numbers member score hLookup := by
    cases hLookup

/-! ### Operations -/

variable {member : Bytes}

section

variable (args : ZAddArgs)

/-- The checks of the loop, in its own words. -/
theorem accepts_some_iff (hOld : old.isNaN = false) (hScore : score.isNaN = false) :
    args.Accepts (some old) score ↔ args.nx = false ∧ ¬ (args.gt && decide (score ≤ old)) = true ∧
      ¬ (args.lt && decide (old ≤ score)) = true ∧ (old != score) = true := by
  have hDiffers : (old != score) = true ↔ scoreKey old ≠ scoreKey score := by
    rw [bne, ne_eq, ← beq_iff_scoreKey hOld hScore, Bool.not_eq_true, Bool.not_eq_true']
  simp only [ZAddArgs.Accepts, hDiffers, Bool.and_eq_true, decide_eq_true_eq, not_and, not_le,
    le_iff_scoreKey hOld hScore, le_iff_scoreKey hScore hOld]

theorem zaddMember_some (added changed : Nat) (hLookup : zset.hash.lookup member = some old)
    (hOld : old.isNaN = false) (hScore : score.isNaN = false) :
    zaddMember args (zset, added, changed) (member, score) =
      if args.Accepts (some old) score then
        (⟨treeInsert (score, member) (treeRemove (old, member) zset.tree),
          zset.hash.insert member score⟩, added, changed + 1)
      else (zset, added, changed) := by
  simp only [zaddMember, hLookup, accepts_some_iff args hOld hScore]
  by_cases hNx : args.nx = true
  · simp [hNx]
  by_cases hGt : (args.gt && decide (score ≤ old)) = true
  · rw [if_neg hNx, if_pos hGt, if_neg fun h => h.2.1 hGt]
  by_cases hLt : (args.lt && decide (old ≤ score)) = true
  · rw [if_neg hNx, if_neg hGt, if_pos hLt, if_neg fun h => h.2.2.1 hLt]
  · simp [hNx, hGt, hLt]

/-- One item of ZADD. -/
theorem zaddMember_represents (h : zset.Represents map) (added changed : Nat) {item : Bytes × Float}
    (hNumber : item.2.isNaN = false) :
    (zaddMember args (zset, added, changed) item).1.Represents (map.addMember args item) ∧
      (zaddMember args (zset, added, changed) item).2 =
        (added + if args.Accepts (map.lookup item.1) item.2 ∧
          map.lookup item.1 = none then 1 else 0,
            changed + if args.Accepts (map.lookup item.1) item.2 then 1 else 0) := by
  obtain ⟨member, score⟩ := item
  rw [Scores.addMember]
  cases hLookup : map.lookup member with
  | none =>
    have hHash : zset.hash.lookup member = none := by rw [h.hash, hLookup]
    have hAccepts : args.Accepts none score ↔ args.xx = false := Iff.rfl
    simp only [zaddMember, hHash, hAccepts]
    cases args.xx with
    | true => exact ⟨h, rfl⟩
    | false => exact ⟨h.insert hLookup hNumber, rfl⟩
  | some old =>
    have hHash : zset.hash.lookup member = some old := by rw [h.hash, hLookup]
    rw [zaddMember_some args added changed hHash (h.numbers member old hLookup) hNumber]
    by_cases hAccepts : args.Accepts (some old) score
    · simp only [hAccepts, if_true]
      exact ⟨h.update hLookup hNumber, by simp⟩
    · simp only [hAccepts, if_false]
      exact ⟨h, by simp⟩

/-- The loop of ZADD. -/
theorem foldl_zaddMember {items : List (Bytes × Float)}
    (hNumbers : ∀ item ∈ items, item.2.isNaN = false) (h : zset.Represents map)
    (added changed : Nat) :
    (items.foldl (zaddMember args) (zset, added, changed)).1.Represents
        (items.foldl (Scores.addMember args) map) ∧
      (if args.ch then (items.foldl (zaddMember args) (zset, added, changed)).2.2
        else (items.foldl (zaddMember args) (zset, added, changed)).2.1) =
        (if args.ch then changed else added) + Scores.countAdded args map items := by
  induction items generalizing zset map added changed with
  | nil => exact ⟨h, rfl⟩
  | cons item items ih =>
    obtain ⟨hItem, hItems⟩ := List.forall_mem_cons.mp hNumbers
    obtain ⟨hNext, hCounts⟩ := zaddMember_represents args h added changed hItem
    have hRest := ih hItems hNext
      (added + if args.Accepts (map.lookup item.1) item.2 ∧ map.lookup item.1 = none then 1 else 0)
      (changed + if args.Accepts (map.lookup item.1) item.2 then 1 else 0)
    rw [← hCounts] at hRest
    refine ⟨hRest.1, hRest.2.trans ?_⟩
    rw [Scores.countAdded]
    cases args.ch with
    | true | false => simp [Nat.add_assoc]

theorem zadd_represents (h : zset.Represents map)
    (hNumbers : ∀ item ∈ args.members, item.2.isNaN = false) :
    (zset.zadd args).1.Represents (map.add args) ∧
      (zset.zadd args).2 = map.countAdded args args.members := by
  have hLoop := foldl_zaddMember args hNumbers h 0 0
  refine ⟨hLoop.1, hLoop.2.trans ?_⟩
  simp

end

section

variable (h : zset.Represents map)

include h

theorem zremMember_represents (removed : Nat) (member : Bytes) :
    (zremMember (zset, removed) member).1.Represents (map.erase member) ∧
      (zremMember (zset, removed) member).2 = removed + if member ∈ map.keys then 1 else 0 := by
  cases hLookup : map.lookup member with
  | none =>
    have hHash : zset.hash.lookup member = none := by rw [h.hash, hLookup]
    have hAbsent : member ∉ map.keys := Finmap.mem_keys.not.mpr (Finmap.lookup_eq_none.mp hLookup)
    have hSame : map.erase member = map := by
      apply Finmap.ext_lookup
      intro k
      by_cases hMember : k = member
      · rw [hMember, Finmap.lookup_erase, hLookup]
      · exact Finmap.lookup_erase_ne hMember
    simp only [zremMember, hHash, hSame, hAbsent, if_false]
    exact ⟨h, rfl⟩
  | some old =>
    have hHash : zset.hash.lookup member = some old := by rw [h.hash, hLookup]
    have hPresent : member ∈ map.keys := Finmap.mem_keys.mpr (Finmap.mem_iff.mpr ⟨old, hLookup⟩)
    simp only [zremMember, hHash, hPresent, if_true]
    exact ⟨h.erase hLookup, trivial⟩

theorem foldl_zremMember (members : List Bytes) (removed : Nat) :
    (members.foldl zremMember (zset, removed)).1.Represents (map.remove members) ∧
      (members.foldl zremMember (zset, removed)).2 =
        removed + (members.toFinset ∩ map.keys).card := by
  induction members generalizing zset map removed with
  | nil => exact ⟨h, by simp⟩
  | cons member members ih =>
    obtain ⟨hNext, hCount⟩ := zremMember_represents h removed member
    have hRest := ih hNext (removed + if member ∈ map.keys then 1 else 0)
    rw [← hCount] at hRest
    refine ⟨hRest.1, hRest.2.trans ?_⟩
    rw [hCount, Nat.add_assoc, Finmap.keys_erase, List.toFinset_cons]
    congr 1
    by_cases hKey : member ∈ map.keys
    · have hSplit : insert member members.toFinset ∩ map.keys =
          insert member (members.toFinset ∩ map.keys.erase member) := by
        ext k
        by_cases hMember : k = member
        · simp [hMember, hKey]
        · simp [hMember]
      rw [hSplit, Finset.card_insert_of_notMem (by simp), if_pos hKey, Nat.add_comm]
    · have hSplit : insert member members.toFinset ∩ map.keys =
          members.toFinset ∩ map.keys.erase member := by
        rw [Finset.erase_eq_of_notMem hKey, Finset.insert_inter_of_notMem hKey]
      rw [hSplit, if_neg hKey, Nat.zero_add]

theorem zrem_represents (members : List Bytes) :
    (zset.zrem members).1.Represents (map.remove members) ∧
      (zset.zrem members).2 = (members.toFinset ∩ map.keys).card := by
  have hLoop := foldl_zremMember h members 0
  exact ⟨hLoop.1, hLoop.2.trans (Nat.zero_add _)⟩

theorem zincrby_represents (member : Bytes) (increment : Float) :
    (((zset.zincrby member increment).map Prod.fst).getD zset).Represents
        (map.increase member increment) ∧
      (zset.zincrby member increment).map Prod.snd = map.increased member increment := by
  unfold zincrby Scores.increase Scores.increased
  simp only [h.hash]
  generalize (map.lookup member).getD 0 + increment = score
  by_cases hNaN : score.isNaN = true
  · simp only [hNaN, if_true]
    exact ⟨h, rfl⟩
  · have hNumber : score.isNaN = false := by simpa using hNaN
    simp only [hNumber, Bool.false_eq_true, if_false]
    cases hLookup : map.lookup member with
    | none =>
      have hInsert := h.insert hLookup hNumber
      rw [h.hash] at hInsert
      exact ⟨hInsert, rfl⟩
    | some old =>
      have hEqual := beq_iff_scoreKey (h.numbers member old hLookup) hNumber
      by_cases hSame : scoreKey old = scoreKey score
      · simp only [hEqual.mpr hSame, hSame, Option.map_some, if_true]
        exact ⟨h, trivial⟩
      · have hDiffers : ¬ (old == score) = true := fun hEq => hSame (hEqual.mp hEq)
        have hUpdate := h.update hLookup hNumber
        rw [h.hash] at hUpdate
        simp only [hDiffers, Option.map_some, Option.some.injEq]
        rw [if_neg hSame]
        exact ⟨hUpdate, rfl⟩

theorem zpopMin_represents (count : Option Nat) :
    (zset.zpopMin count).1.Represents (map.popMin count) ∧
      (zset.zpopMin count).2 = (map.lowest count).map Prod.swap := by
  unfold zpopMin
  rw [h.tree, h.hash]
  refine ⟨⟨?_, Scores.listing_popMin count, fun member score hLookup => ?_⟩, rfl⟩
  · rw [Scores.popMin, Scores.remove, List.foldl_map]
    rfl
  · rw [Scores.popMin, Scores.lookup_remove] at hLookup
    split_ifs at hLookup
    exact h.numbers member score hLookup

end

/-! ### Reads -/

theorem range_eq (start stop : Int) :
    map.range start stop = (map.listing.drop (map.fromEnd start).toNat).take
      ((map.fromEnd stop + 1).toNat - (map.fromEnd start).toNat) := by
  have hFilter := Library.map_filter_zipIdx map.listing (map.fromEnd start).toNat
    (map.fromEnd stop + 1).toNat 0
  rw [Nat.sub_zero, Nat.max_zero] at hFilter
  rw [Scores.range, ← hFilter]
  congr 1
  refine List.filter_congr fun pair _ => ?_
  rw [decide_eq_decide]
  omega

section

variable (h : zset.Represents map)

include h

theorem zrange_eq (start stop : Int) :
    zset.zrange start stop = (map.range start stop).map Prod.swap := by
  unfold zrange
  rw [h.tree, range_eq]
  unfold Scores.fromEnd
  dsimp only
  generalize (if start < 0 then (map.listing.length : Int) + start else start) = first
  generalize (if stop < 0 then (map.listing.length : Int) + stop else stop) = last
  generalize map.listing = pairs
  -- cutting the ranks to the ends of the list changes nothing
  have hFirst : (if first < 0 then 0 else first) = max first 0 := by split_ifs <;> omega
  have hLast : (if (pairs.length : Int) ≤ last then (pairs.length : Int) - 1 else last) =
      min last (pairs.length - 1) := by split_ifs <;> omega
  have hDrop : (max first 0).toNat = first.toNat := by omega
  rw [hFirst, hLast, hDrop]
  split_ifs with hEmpty
  · simp only [Bool.or_eq_true, decide_eq_true_eq] at hEmpty
    rw [eq_comm, List.map_eq_nil_iff, List.take_eq_nil_iff, List.drop_eq_nil_iff]
    omega
  · have hTake : (pairs.drop first.toNat).take
        (min last (pairs.length - 1) - max first 0 + 1).toNat =
          (pairs.drop first.toNat).take ((last + 1).toNat - first.toNat) := by
      rw [List.take_eq_take_iff, List.length_drop]
      omega
    rw [hTake]
    rfl

/-- A member of the map stands at one place of the tree. -/
theorem Represents.split (hLookup : map.lookup member = some score) :
    ∃ before after, zset.tree = before ++ (score, member) :: after ∧
      ∀ pair ∈ before ++ after, pair.2 ≠ member := by
  have hMem := Scores.mem_listing.mpr hLookup
  obtain ⟨before, after, hSplit⟩ := List.append_of_mem hMem
  refine ⟨before, after, h.tree.trans hSplit, fun pair hPair hMember => ?_⟩
  have hIn : pair ∈ map.listing := by
    rw [hSplit]
    simp only [List.mem_append, List.mem_cons] at hPair ⊢
    tauto
  have hNodup : (before ++ (score, member) :: after).Nodup :=
    hSplit ▸ Scores.ascending_listing.nodup
  rw [Scores.eq_of_mem_listing hIn hMem hMember] at hPair
  exact (List.nodup_cons.mp (List.nodup_middle.mp hNodup)).1 hPair

/-- How a member is found in the tree. -/
theorem Represents.found_iff (hLookup : map.lookup member = some score) {pair : Float × Bytes}
    (hPair : pair ∈ zset.tree) :
    (!pairLt pair (score, member) && !pairLt (score, member) pair) = true ↔ pair.2 = member := by
  have hScore : score.isNaN = false := h.numbers member score hLookup
  have hNumber := h.tree_numbers pair hPair
  have hBefore := pairLt_iff pair (score, member) hNumber hScore
  have hAfter := pairLt_iff (score, member) pair hScore hNumber
  have hKeys : (!pairLt pair (score, member) && !pairLt (score, member) pair) = true ↔
      pairKey pair = pairKey (score, member) := by
    rw [Bool.and_eq_true, Bool.not_eq_true', Bool.not_eq_true', ← Bool.not_eq_true,
      ← Bool.not_eq_true, hBefore, hAfter, not_lt, not_lt]
    exact ⟨fun hBoth => le_antisymm hBoth.2 hBoth.1, fun hEq => ⟨hEq.ge, hEq.le⟩⟩
  rw [hKeys]
  constructor
  · intro hKey
    by_contra hMember
    exact Scores.pairKey_ne_of_member_ne hMember hKey
  · intro hMember
    rw [h.tree] at hPair
    rw [Scores.eq_of_mem_listing hPair (Scores.mem_listing.mpr hLookup) hMember]

/-- The tree is searched from one end or from the other. -/
theorem Represents.position_eq {listing : List (Float × Bytes)}
    (hListing : ∀ pair ∈ listing, pair ∈ zset.tree) (member : Bytes) :
    zset.position listing member = listing.findIdx? fun pair => pair.2 = member := by
  unfold position
  rw [h.hash]
  cases hLookup : map.lookup member with
  | none =>
    refine (List.findIdx?_eq_none_iff.mpr fun pair hPair => ?_).symm
    have hIn := hListing pair hPair
    rw [h.tree] at hIn
    have hFound : map.lookup pair.2 = some pair.1 := Scores.mem_listing.mp hIn
    rw [decide_eq_false_iff_not]
    rintro rfl
    rw [hLookup] at hFound
    cases hFound
  | some score =>
    refine Library.findIdx?_congr fun pair hPair => ?_
    rw [Bool.eq_iff_iff, h.found_iff hLookup (hListing pair hPair), decide_eq_true_iff]

theorem zrank_eq (member : Bytes) :
    zset.zrank member = map.listing.findIdx? fun pair => pair.2 = member := by
  rw [zrank, h.position_eq (fun _ hPair => hPair), h.tree]

theorem zrevrank_eq (member : Bytes) :
    zset.zrevrank member = map.listing.reverse.findIdx? fun pair => pair.2 = member := by
  rw [zrevrank, h.position_eq (fun _ hPair => List.mem_reverse.mp hPair), h.tree]

theorem len_eq : zset.len = map.listing.length := by
  rw [len, h.hash, Scores.length_listing]

theorem ranks_add (hMember : member ∈ map) :
    ∃ rank revRank, zset.zrank member = some rank ∧ zset.zrevrank member = some revRank ∧
      rank + revRank + 1 = zset.len := by
  obtain ⟨score, hLookup⟩ := Finmap.mem_iff.mp hMember
  obtain ⟨before, after, hSplit, hOthers⟩ := h.split hLookup
  rw [h.tree] at hSplit
  refine ⟨before.length, after.length, ?_, ?_, ?_⟩
  · rw [zrank_eq h, hSplit]
    refine Library.findIdx?_append_cons (fun pair hPair => ?_) (by simp)
    simpa using hOthers pair (List.mem_append_left _ hPair)
  · rw [zrevrank_eq h, hSplit, List.reverse_append, List.reverse_cons, List.append_assoc,
      ← List.length_reverse]
    refine Library.findIdx?_append_cons (fun pair hPair => ?_) (by simp)
    simpa using hOthers pair (List.mem_append_right _ (List.mem_reverse.mp hPair))
  · rw [len_eq h, hSplit, List.length_append, List.length_cons]
    omega

end

section

variable {min max : Float} (hMin : min.isNaN = false) (hMax : max.isNaN = false)
include hMin hMax

theorem between_of_lt (hLess : max < min) (minExclusive maxExclusive : Bool) :
    map.between min max minExclusive maxExclusive = [] := by
  rw [lt_iff_scoreKey hMax hMin] at hLess
  rw [Scores.between, List.filter_eq_nil_iff]
  intro pair _ hWithin
  have hBounds : scoreKey min ≤ scoreKey pair.1 ∧ scoreKey pair.1 ≤ scoreKey max := by
    rw [Bool.and_eq_true] at hWithin
    refine ⟨?_, ?_⟩
    · have hLower := hWithin.1
      split_ifs at hLower
      · exact (of_decide_eq_true hLower).le
      · exact of_decide_eq_true hLower
    · have hUpper := hWithin.2
      split_ifs at hUpper
      · exact (of_decide_eq_true hUpper).le
      · exact of_decide_eq_true hUpper
  exact absurd (hBounds.1.trans hBounds.2) hLess.not_ge

theorem zcount_eq (h : zset.Represents map) (minExclusive maxExclusive : Bool) :
    zset.zcount min max minExclusive maxExclusive =
      (map.between min max minExclusive maxExclusive).length := by
  unfold zcount
  by_cases hEmpty : (zset.tree.isEmpty || decide (max < min)) = true
  · rw [if_pos hEmpty]
    rw [Bool.or_eq_true, List.isEmpty_iff, decide_eq_true_iff] at hEmpty
    rcases hEmpty with hTree | hLess
    · rw [Scores.between, ← h.tree, hTree]
      rfl
    · rw [between_of_lt hMin hMax hLess]
      rfl
  · rw [if_neg hEmpty, Scores.between, ← List.countP_eq_length_filter, ← h.tree]
    refine List.countP_congr fun pair hPair => ?_
    have hScore := h.tree_numbers pair hPair
    simp only [lt_iff_scoreKey hMin hScore, lt_iff_scoreKey hScore hMax,
      le_iff_scoreKey hMin hScore, le_iff_scoreKey hScore hMax]

/-- The search from the lower bound on, up to the upper bound. -/
theorem dropWhile_takeWhile_eq (h : zset.Represents map) :
    ((zset.tree.dropWhile fun pair => pairLt pair (min, [])).takeWhile
      fun pair => decide (pair.1 ≤ max)) = map.between min max false false := by
  have hAscending : Ascending pairKey zset.tree := h.tree ▸ Scores.ascending_listing
  have hBelow : ∀ pair ∈ zset.tree, pairLt pair (min, []) = true ↔ scoreKey pair.1 < scoreKey min :=
    fun pair hPair => pairLt_bound_iff pair (h.tree_numbers pair hPair) hMin
  have hUpper : ∀ pair ∈ zset.tree, decide (pair.1 ≤ max) = true ↔ scoreKey pair.1 ≤ scoreKey max :=
    fun pair hPair => decide_eq_true_iff.trans (le_iff_scoreKey (h.tree_numbers pair hPair) hMax)
  have hFrom : zset.tree.dropWhile (fun pair => pairLt pair (min, [])) =
      zset.tree.filter fun pair => !pairLt pair (min, []) := by
    refine (hAscending.while_eq_filter fun a ha b hb hLess => ?_).2
    rw [hBelow a ha, hBelow b hb]
    exact (scoreKey_le_of_lt hLess).trans_lt
  have hFiltered : Ascending pairKey (zset.tree.filter fun pair => !pairLt pair (min, [])) :=
    hAscending.filter _
  have hUpTo : (zset.tree.filter fun pair => !pairLt pair (min, [])).takeWhile
      (fun pair => decide (pair.1 ≤ max)) =
      (zset.tree.filter fun pair => !pairLt pair (min, [])).filter
        fun pair => decide (pair.1 ≤ max) := by
    refine (hFiltered.while_eq_filter fun a ha b hb hLess => ?_).1
    rw [hUpper a (List.mem_of_mem_filter ha), hUpper b (List.mem_of_mem_filter hb)]
    exact (scoreKey_le_of_lt hLess).trans
  rw [hFrom, hUpTo, List.filter_filter, Scores.between, ← h.tree]
  refine List.filter_congr fun pair hPair => ?_
  rw [Bool.eq_iff_iff, Bool.and_eq_true, hUpper pair hPair, and_comm,
    Bool.not_eq_true', ← Bool.not_eq_true, hBelow pair hPair]
  simp

theorem zrangebyscore_eq (h : zset.Represents map) (limit : Option (Nat × Nat)) :
    zset.zrangebyscore min max limit =
      (((map.between min max false false).drop (limit.elim 0 Prod.fst)).take
        (limit.elim (2 ^ 64 - 1) Prod.snd)).map Prod.swap := by
  unfold zrangebyscore
  generalize limit.elim 0 Prod.fst = skipped
  generalize limit.elim (2 ^ 64 - 1) Prod.snd = taken
  by_cases hEmpty : (zset.tree.isEmpty || decide (max < min) || decide (taken = 0)) = true
  · rw [if_pos hEmpty]
    simp only [Bool.or_eq_true, List.isEmpty_iff, decide_eq_true_eq] at hEmpty
    rcases hEmpty with (hTree | hLess) | hTaken
    · rw [Scores.between, ← h.tree, hTree]
      simp
    · rw [between_of_lt hMin hMax hLess]
      simp
    · rw [hTaken]
      rfl
  · rw [if_neg hEmpty, ← dropWhile_takeWhile_eq hMin hMax h]
    rfl

end

/-- Without LIMIT everything is taken: the length is a `usize`. -/
theorem take_limit (pairs : List (Float × Bytes)) (hLength : pairs.length < 2 ^ 64)
    (limit : Option (Nat × Nat)) :
    (pairs.drop (limit.elim 0 Prod.fst)).take (limit.elim (2 ^ 64 - 1) Prod.snd) =
      Scores.limited pairs limit := by
  cases limit with
  | none => exact List.take_of_length_le (Nat.le_sub_one_of_lt hLength)
  | some limit => rfl

/-! ### Sequences of operations -/

inductive ZOperation where
  | zadd (args : ZAddArgs)
  | zrem (members : List Bytes)
  | zincrby (member : Bytes) (increment : Float)
  | zpopMin (count : Option Nat)

namespace ZOperation

/-- No score is NaN. -/
def Numbers : ZOperation → Prop
  | zadd args => ∀ item ∈ args.members, item.2.isNaN = false
  | _ => True

instance : (operation : ZOperation) → Decidable operation.Numbers
  | zadd args => inferInstanceAs (Decidable (∀ item ∈ args.members, item.2.isNaN = false))
  | zrem _ => isTrue trivial
  | zincrby .. => isTrue trivial
  | zpopMin _ => isTrue trivial

def apply (zset : SortedSet) : ZOperation → SortedSet
  | zadd args => (zset.zadd args).1
  | zrem members => (zset.zrem members).1
  | zincrby member increment => ((zset.zincrby member increment).map Prod.fst).getD zset
  | zpopMin count => (zset.zpopMin count).1

/-- The same on the map. -/
def reference (map : Scores) : ZOperation → Scores
  | zadd args => map.add args
  | zrem members => map.remove members
  | zincrby member increment => map.increase member increment
  | zpopMin count => map.popMin count

theorem apply_represents {zset : SortedSet} {map : Scores} (h : zset.Represents map)
    (operation : ZOperation) (hNumbers : operation.Numbers) :
    (operation.apply zset).Represents (operation.reference map) := by
  cases operation with
  | zadd args => exact (zadd_represents args h hNumbers).1
  | zrem members => exact (zrem_represents h members).1
  | zincrby member increment => exact (zincrby_represents h member increment).1
  | zpopMin count => exact (zpopMin_represents h count).1

theorem foldl_represents (operations : List ZOperation)
    (hNumbers : ∀ operation ∈ operations, operation.Numbers) :
    (operations.foldl apply new).Represents (operations.foldl reference ∅) := by
  induction operations using List.reverseRecOn with
  | nil => exact represents_new
  | append_singleton operations operation ih =>
    rw [List.foldl_append, List.foldl_append]
    have hBefore := ih fun other hOther => hNumbers other (List.mem_append_left _ hOther)
    exact apply_represents hBefore operation (hNumbers operation (by simp))

end ZOperation

/-- What the map prescribes for a sorted set: its two containers, and the reply of
every operation and of every read. -/
structure Prescribed (zset : SortedSet) (map : Scores) : Prop where
  hash : ∀ member score, zset.hash.lookup member = some score ↔ map.lookup member = some score
  tree : ∀ member score, (score, member) ∈ zset.tree ↔ map.lookup member = some score
  zadd : ∀ args, (ZOperation.zadd args).Numbers →
    (zset.zadd args).2 = map.countAdded args args.members
  zrem : ∀ members, (zset.zrem members).2 = (members.toFinset ∩ map.keys).card
  zincrby : ∀ member increment,
    (zset.zincrby member increment).map Prod.snd = map.increased member increment
  zpopMin : ∀ count, (zset.zpopMin count).2 = (map.lowest count).map Prod.swap
  zrange : ∀ start stop, zset.zrange start stop = (map.range start stop).map Prod.swap
  zrank : ∀ member, zset.zrank member = map.listing.findIdx? fun pair => pair.2 = member
  zrevrank : ∀ member,
    zset.zrevrank member = map.listing.reverse.findIdx? fun pair => pair.2 = member
  ranks : ∀ member ∈ map, ∃ rank revRank, zset.zrank member = some rank ∧
    zset.zrevrank member = some revRank ∧ rank + revRank + 1 = zset.len
  zcount : ∀ min max : Float, min.isNaN = false → max.isNaN = false → ∀ minExclusive maxExclusive,
    zset.zcount min max minExclusive maxExclusive =
      (map.between min max minExclusive maxExclusive).length
  zrangebyscore : ∀ min max : Float, min.isNaN = false → max.isNaN = false → zset.len < 2 ^ 64 →
    ∀ limit, zset.zrangebyscore min max limit =
      (Scores.limited (map.between min max false false) limit).map Prod.swap

theorem Represents.prescribed (h : zset.Represents map) : zset.Prescribed map where
  hash member score := by rw [h.hash]
  tree member score := by rw [h.tree, Scores.mem_listing]
  zadd args hNumbers := (zadd_represents args h hNumbers).2
  zrem members := (zrem_represents h members).2
  zincrby member increment := (zincrby_represents h member increment).2
  zpopMin count := (zpopMin_represents h count).2
  zrange := zrange_eq h
  zrank := zrank_eq h
  zrevrank := zrevrank_eq h
  ranks _ hMember := ranks_add h hMember
  zcount _ _ hMin hMax := zcount_eq hMin hMax h
  zrangebyscore min max hMin hMax hLen limit := by
    have hLength : (map.between min max false false).length < 2 ^ 64 :=
      (List.length_filter_le _ _).trans_lt (len_eq h ▸ hLen)
    rw [zrangebyscore_eq hMin hMax h, take_limit _ hLength]

/-- The sorted set refines the finite map: after every sequence of operations it is
what the map prescribes. -/
theorem prescribed_of_operations (operations : List ZOperation)
    (hNumbers : ∀ operation ∈ operations, operation.Numbers) :
    (operations.foldl ZOperation.apply new).Prescribed (operations.foldl ZOperation.reference ∅) :=
  (ZOperation.foldl_represents operations hNumbers).prescribed

/-- A repeated member, a refused and an accepted change under GT, a tie and a pop. -/
def sampleOperations : List ZOperation :=
  [.zadd ⟨[(bytes "b", 1), (bytes "a", 1), (bytes "b", 2)], false, false, false, false, true⟩,
    .zadd ⟨[(bytes "b", 1), (bytes "a", 3)], false, true, true, false, true⟩,
    .zincrby (bytes "c") 2, .zadd ⟨[(bytes "d", -1)], true, false, false, false, false⟩,
    .zpopMin none, .zrem [bytes "x", bytes "x"]]

theorem prescribed_of_operations_sample :
    (sampleOperations.foldl ZOperation.apply new).Prescribed
      (sampleOperations.foldl ZOperation.reference ∅) :=
  prescribed_of_operations sampleOperations (by decide +kernel)

example : (sampleOperations.foldl ZOperation.apply new).zrange 0 (-1) =
    [(bytes "b", 2), (bytes "c", 2), (bytes "a", 3)] := by
  decide +kernel

end SortedSet
end CacheCat
