import CacheCat.Cache.Effect

/-! SPOP draws a sample of the set without repetition, and the same one on every node. -/
namespace CacheCat

open Cache

/-! ### The loop of draws -/

theorem scaleIndex_lt (random : UInt64) {upperBound : Nat} (hBound : 0 < upperBound) :
    scaleIndex random upperBound < upperBound := by
  rw [scaleIndex, Nat.div_lt_iff_lt_mul (Nat.two_pow_pos 64), Nat.mul_comm]
  exact Nat.mul_lt_mul_of_pos_left random.toNat_lt hBound

variable {candidates : List Bytes}

theorem perm_swapRemove {index : Nat} (hIndex : index < candidates.length) :
    candidates.Perm (candidates.getD index [] :: swapRemove candidates index) := by
  rcases candidates.eq_nil_or_concat with rfl | ⟨front, last, rfl⟩
  · cases hIndex
  rw [List.concat_eq_append] at hIndex ⊢
  rw [swapRemove, List.getLastD_concat, List.set_append, List.getD_eq_getElem?_getD,
    List.getElem?_eq_getElem hIndex]
  split
  · next hFront =>
    rw [List.dropLast_concat, List.getElem_append_left hFront]
    have hPerm := (List.getElem_cons_eraseIdx_perm hFront).symm.append_right [last]
    refine hPerm.trans (List.Perm.cons _ ?_)
    exact (List.perm_append_singleton _ _).trans (List.set_perm_cons_eraseIdx hFront last).symm
  · next hLast =>
    obtain rfl : index = front.length := by
      rw [List.length_append, List.length_singleton] at hIndex
      omega
    simp [List.perm_append_singleton]

namespace SPopReq

/-- Whatever random values the loop gets, each of its draws finds its index among the candidates. -/
def DrawsInRange : (count : Nat) → List Bytes → Prop
  | 0, _ => True
  | count + 1, candidates => ∀ random : UInt64,
      scaleIndex random candidates.length < candidates.length ∧
        DrawsInRange count (swapRemove candidates (scaleIndex random candidates.length))

theorem length_swapRemove {index : Nat} :
    (swapRemove candidates index).length = candidates.length - 1 := by
  rw [swapRemove, List.length_dropLast, List.length_set]

theorem drawsInRange {count : Nat} (hCount : count ≤ candidates.length) :
    DrawsInRange count candidates := by
  induction count generalizing candidates with
  | zero => trivial
  | succ count ih =>
    intro random
    refine ⟨scaleIndex_lt random (by omega), ih ?_⟩
    rw [length_swapRemove]
    omega

/-- What has been drawn and what is left make up the candidates. -/
theorem popMembers_perm {count : Nat} (hCount : count ≤ candidates.length) (state : UInt64) :
    (popMembers count state candidates).length = count ∧
      ∃ rest, candidates.Perm (popMembers count state candidates ++ rest) := by
  induction count generalizing candidates state with
  | zero => exact ⟨rfl, candidates, .refl _⟩
  | succ count ih =>
    have hLeft : count ≤ (swapRemove candidates
        (scaleIndex (nextU64 state).1 candidates.length)).length := by
      rw [length_swapRemove]
      omega
    obtain ⟨hLength, rest, hRest⟩ := ih hLeft (nextU64 state).2
    have hFirst := perm_swapRemove (scaleIndex_lt (nextU64 state).1 (Nat.zero_lt_of_lt hCount))
    exact ⟨congrArg (· + 1) hLength, rest, hFirst.trans (hRest.cons _)⟩

/-! ### The sample -/

/-- How many members are taken: those asked for, or one, as far as there are so many. -/
def popCount (req : SPopReq) (set : Finset Bytes) : Nat := min (req.count.getD 1) set.card

/-- The members that are taken: a function of the key, the count, the write clock and the set. -/
def sample (req : SPopReq) (clock : Nat) (set : Finset Bytes) : List Bytes :=
  req.popped .sorted clock set

theorem length_candidates (order : HashOrder) (set : Finset Bytes) :
    ((order.list set).insertionSort (· ≤ ·)).length = set.card := by
  rw [List.length_insertionSort, order.length_list]

theorem sample_eq (req : SPopReq) (clock : Nat) {set : Finset Bytes} (hNonempty : set.Nonempty) :
    req.sample clock set = popMembers (req.popCount set) (req.randomSeed clock)
      ((HashOrder.sorted.list set).insertionSort (· ≤ ·)) := by
  rw [sample, popped, popCount]
  cases req.count with
  | none =>
    rw [Option.getD_none, Nat.min_eq_left hNonempty.card_pos]
  | some count => rfl

/-- The sample is one: so many members of the set, none of them twice. -/
theorem sample_spec (req : SPopReq) (clock : Nat) {set : Finset Bytes} (hNonempty : set.Nonempty) :
    (req.sample clock set).Nodup ∧ (∀ member ∈ req.sample clock set, member ∈ set) ∧
      (req.sample clock set).length = req.popCount set := by
  have hCount : req.popCount set ≤ ((HashOrder.sorted.list set).insertionSort (· ≤ ·)).length := by
    rw [length_candidates]
    exact Nat.min_le_right _ _
  obtain ⟨hLength, rest, hPerm⟩ := popMembers_perm hCount (req.randomSeed clock)
  have hSorted := (List.perm_insertionSort (· ≤ ·) (HashOrder.sorted.list set)).symm.trans hPerm
  have hNodup : (HashOrder.sorted.list set).Nodup := by
    rw [← Multiset.coe_nodup, HashOrder.list_val]
    exact set.nodup
  rw [sample_eq req clock hNonempty]
  refine ⟨(hSorted.nodup_iff.mp hNodup).of_append_left, fun member hMember => ?_, hLength⟩
  rw [← HashOrder.sorted.mem_list, hSorted.mem_iff]
  exact List.mem_append_left _ hMember

end SPopReq

namespace Cache

open SPopReq

variable {Vm : Type} {lua : LuaMachine Vm} {s : State Vm} {update : Update} {entry : Entry}
    {set : Finset Bytes}

/-- SPOP replies the members of the sample and leaves the rest of the set, without the key if there
is no rest. The sample does not depend on the order in which the table lists the members. -/
theorem sPop_samples (req : SPopReq) (hMode : ∀ version, update.updateType ≠ .cas version)
    (hDb : update.dbNumber < s.count) (hLive : s.live update.dbNumber req.key = some entry)
    (hSet : entry.value.data = .set set)
    (hNonempty : set.Nonempty) :
    (req.sample update.writeClock set).Nodup ∧
      (∀ member ∈ req.sample update.writeClock set, member ∈ set) ∧
      (req.sample update.writeClock set).length = min (req.count.getD 1) set.card ∧
      (∀ order : HashOrder,
        DrawsInRange (min (req.count.getD 1) set.card) ((order.list set).insertionSort (· ≤ ·))) ∧
      (machine lua).EveryRun s (baseRequest update (.sPop req)) fun t reply =>
        reply = req.poppedResponse (req.sample update.writeClock set) ∧
          t.visible update.dbNumber req.key =
            if set \ (req.sample update.writeClock set).toFinset = ∅ then none
            else some (.set (set \ (req.sample update.writeClock set).toFinset),
              entry.expireAt) := by
  obtain ⟨hNodup, hMem, hLength⟩ := req.sample_spec update.writeClock hNonempty
  refine ⟨hNodup, hMem, hLength, fun order => drawsInRange ?_, ?_⟩
  · rw [length_candidates]
    exact Nat.min_le_right _ _
  have hCommand : (BaseOperation.sPop req).computeCommand .sorted =
      some (req.computeCommand .sorted) := rfl
  by_cases hZero : req.count = some 0
  · have hSample : req.sample update.writeClock set = [] := by
      rw [← List.length_eq_zero_iff, hLength, popCount, hZero]
      exact Nat.zero_min _
    have hMutate : (req.computeCommand .sorted).mutate entry update.writeClock =
        (.abort, .set []) := by
      simp only [computeCommand, collectionCommand, hSet, ValueObject.asSet, if_pos hZero]
      rfl
    refine (everyRun_abort (fun shown reply => reply = _ ∧
      shown = _) hCommand hMode hDb hLive hMutate).mpr ⟨?_, ?_⟩
    · rw [hSample, poppedResponse, hZero]
      rfl
    · have hVisible : s.visible update.dbNumber req.key = some (.set set, entry.expireAt) := by
        rw [State.visible, hLive, ← hSet]
        rfl
      rw [hSample, List.toFinset_nil, Finset.sdiff_empty, if_neg hNonempty.ne_empty]
      exact hVisible
  have hMutate : (req.computeCommand .sorted).mutate entry update.writeClock =
      ((if set \ (req.sample update.writeClock set).toFinset = ∅ then Outcome.drop
        else .keep (set \ (req.sample update.writeClock set).toFinset)).operation
        ValueObject.set entry, req.poppedResponse (req.sample update.writeClock set)) := by
    simp only [computeCommand, collectionCommand, hSet, ValueObject.asSet, if_neg hZero,
      if_neg hNonempty.ne_empty]
    rfl
  by_cases hRest : set \ (req.sample update.writeClock set).toFinset = ∅
  · rw [if_pos hRest] at hMutate
    simp only [if_pos hRest]
    refine (everyRun_write (fun after reply => reply = _ ∧ after.visible update.dbNumber req.key =
      none) hCommand hMode hDb).mpr ?_
    rw [View.compute_of_live hLive hMutate]
    exact ⟨rfl, by simp [View.store, View.visible, Outcome.operation, computeCommand,
      collectionCommand, View.drop]⟩
  · rw [if_neg hRest] at hMutate
    simp only [if_neg hRest]
    exact (everyRun_keep (fun shown reply => reply = _ ∧
      shown = _) hCommand hMode hDb hLive hMutate).mpr ⟨rfl, rfl⟩

/-- SPOP k 2 on three members. -/
theorem sPop_samples_two :
    (SPopReq.sample ⟨[107], some 2⟩ 0 {[1], [2], [3]}).length = 2 ∧
      (machine LuaMachine.none).EveryRun (holding (.set {[1], [2], [3]}))
        (baseRequest ⟨0, 0, .none, false⟩ (.sPop ⟨[107], some 2⟩)) fun t reply =>
          reply = .set [.bulkString (some [1]), .bulkString (some [3])] ∧
            t.visible 0 [107] = some (.set {[2]}, none) := by
  have hMode (version : Nat) : (⟨0, 0, .none, false⟩ : Update).updateType ≠ .cas version := nofun
  have hLive : (holding (.set {[1], [2], [3]})).live 0 [107] =
      some ⟨.new (.set {[1], [2], [3]}), none⟩ := rfl
  have hSample : SPopReq.sample ⟨[107], some 2⟩ 0 {[1], [2], [3]} = [[1], [3]] := by decide +kernel
  have hDb : 0 < (holding (.set {[1], [2], [3]})).count := by decide
  obtain ⟨-, -, hLength, -, hRun⟩ :=
    @sPop_samples Unit LuaMachine.none _ _ _ _ ⟨[107], some 2⟩ hMode hDb hLive rfl (by simp)
  dsimp only at hRun
  rw [hSample] at hRun
  exact ⟨hLength, hRun⟩

end Cache
end CacheCat
