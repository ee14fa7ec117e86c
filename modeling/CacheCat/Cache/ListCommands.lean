import CacheCat.Library.Selection
import CacheCat.Cache.Effect

/-! The list commands against lists as mathematics has them. -/
namespace CacheCat

open Library (selected)
open Mocha (MochaOperation)

/-! ### Indexes -/

/-- The elements from `start` to `stop`, both counted from the end when negative. -/
def listSlice (list : List Bytes) (start stop : Int) : List Bytes :=
  selected (fromEnd list.length start) (fromEnd list.length stop) list

theorem listSlice_eq (list : List Bytes) (start stop : Int) :
    listSlice list start stop =
      (list.take (min (fromEnd list.length stop) (list.length - 1) + 1).toNat).drop
        (max (fromEnd list.length start) 0).toNat := by
  have hDrop : (max (fromEnd list.length start) 0).toNat = (fromEnd list.length start).toNat := by
    omega
  rw [listSlice, Library.selected_eq, hDrop]
  congr 1
  rw [List.take_eq_take_iff]
  omega

/-- A range whose end, clamped, comes before its start. -/
theorem listSlice_eq_nil {list : List Bytes} {start stop : Int}
    (hRange : min (fromEnd list.length stop) (list.length - 1) <
      max (fromEnd list.length start) 0) : listSlice list start stop = [] := by
  rw [listSlice_eq]
  apply List.drop_eq_nil_of_le
  rw [List.length_take]
  omega

theorem LTrimReq.trimmed_eq_listSlice (req : LTrimReq) (list : List Bytes) :
    req.trimmed list = listSlice list req.start req.stop := by
  simp only [trimmed]
  split
  · next hEmpty =>
      rw [List.isEmpty_iff.mp hEmpty]
      rfl
  · split
    · next hRange => exact (listSlice_eq_nil hRange).symm
    · next hRange =>
        rw [listSlice_eq]
        congr 2
        omega

theorem lrange_eq_listSlice (list : List Bytes) (start stop : Int) :
    lrange list start stop = listSlice list start stop := by
  simp only [lrange, Bool.or_eq_true, decide_eq_true_eq]
  split
  · next hRange =>
      obtain hEmpty | hRange := hRange
      · rw [List.isEmpty_iff.mp hEmpty]
        rfl
      · exact (listSlice_eq_nil hRange).symm
  · rw [listSlice_eq, List.drop_take]
    congr 1
    omega

/-- The element that an index names. -/
def listElement (list : List Bytes) (index : Int) : Option Bytes :=
  if fromEnd list.length index < 0 then none else list[(fromEnd list.length index).toNat]?

theorem listSlice_self (list : List Bytes) (index : Int) :
    listSlice list index index = (listElement list index).toList := by
  rw [listSlice, Library.selected_self, listElement]
  split
  · rfl
  · rfl

theorem listElement_eq_none {list : List Bytes} {index : Int} :
    listElement list index = none ↔
      fromEnd list.length index < 0 ∨ list.length ≤ fromEnd list.length index := by
  unfold listElement
  split
  · next hNegative => simp [hNegative]
  · next hNegative =>
      rw [List.getElem?_eq_none_iff]
      omega

/-! ### LREM -/

namespace LRemReq

/-- `kept` is `list` without its first `removed` occurrences of `element`. -/
def RemovesFirst (element : Bytes) (removed : Nat) (list kept : List Bytes) : Prop :=
  ∃ before after, list = before ++ after ∧ before.count element = removed ∧
    kept = before.filter (· ≠ element) ++ after

section

variable {element head : Bytes} {removed : Nat} {list kept : List Bytes}

theorem RemovesFirst.none (element : Bytes) (list : List Bytes) :
    RemovesFirst element 0 list list :=
  ⟨[], list, rfl, rfl, rfl⟩

theorem RemovesFirst.remove (hRest : RemovesFirst element removed list kept) :
    RemovesFirst element (removed + 1) (element :: list) kept := by
  obtain ⟨before, after, rfl, rfl, rfl⟩ := hRest
  exact ⟨element :: before, after, rfl, List.count_cons_self, by simp⟩

theorem RemovesFirst.keep (hHead : head ≠ element)
    (hRest : RemovesFirst element removed list kept) :
    RemovesFirst element removed (head :: list) (head :: kept) := by
  obtain ⟨before, after, rfl, rfl, rfl⟩ := hRest
  exact ⟨head :: before, after, rfl, List.count_cons_of_ne hHead, by simp [hHead]⟩

/-- Without its first occurrences, when there are no others. -/
theorem RemovesFirst.all (hAll : RemovesFirst element (list.count element) list kept) :
    kept = list.filter (· ≠ element) := by
  obtain ⟨before, after, rfl, hCount, rfl⟩ := hAll
  have hAfter : element ∉ after := by
    rw [← List.count_eq_zero]
    rw [List.count_append] at hCount
    omega
  have hKept : after.filter (· ≠ element) = after :=
    List.filter_eq_self.mpr fun x hx => decide_eq_true fun hEqual => hAfter (hEqual ▸ hx)
  rw [List.filter_append, hKept]

/-- How many of the occurrences may go. -/
def quota (count : Option Int) (occurrences : Nat) : Nat :=
  count.elim occurrences (min ·.toNat occurrences)

theorem quota_zero (count : Option Int) : quota count 0 = 0 := by
  cases count <;> simp [quota]

theorem quota_stop {count : Option Int} (hStop : count.any (· ≤ 0) = true) (occurrences : Nat) :
    quota count occurrences = 0 := by
  cases count with
  | none => cases hStop
  | some count =>
    have hCount : count.toNat = 0 := Int.toNat_eq_zero.mpr (of_decide_eq_true hStop)
    simp [quota, hCount]

theorem quota_succ {count : Option Int} (hMore : ¬ count.any (· ≤ 0) = true) (occurrences : Nat) :
    quota count (occurrences + 1) = quota (count.map (· - 1)) occurrences + 1 := by
  cases count with
  | none => rfl
  | some count =>
    have hCount : ¬ count ≤ 0 := fun hLe => hMore (decide_eq_true hLe)
    simp only [quota, Option.map_some, Option.elim_some]
    omega

/-- The loop has passed `done`, and takes from the rest what it may. -/
theorem removeForward_spec (element : Bytes) (rest : List Bytes) (done : List Bytes)
    (count : Option Int) (removed : Nat) :
    ∃ kept, RemovesFirst element (quota count (rest.count element)) rest kept ∧
      removeForward element rest.length done.length count (done ++ rest) removed =
        (done ++ kept, removed + quota count (rest.count element)) := by
  induction rest generalizing done count removed with
  | nil =>
    rw [List.count_nil, quota_zero]
    exact ⟨[], .none element [], rfl⟩
  | cons head rest ih =>
    have hHere : (done ++ head :: rest)[done.length]? = some head := by simp
    rw [List.length_cons, removeForward, hHere]
    by_cases hStop : count.any (· ≤ 0) = true
    · rw [if_pos hStop, quota_stop hStop]
      exact ⟨head :: rest, .none element _, rfl⟩
    rw [if_neg hStop]
    by_cases hHead : head = element
    · have hErase : (done ++ head :: rest).eraseIdx done.length = done ++ rest := by
        simp [List.eraseIdx_append_of_length_le]
      obtain ⟨kept, hKept, hLoop⟩ := ih done (count.map (· - 1)) (removed + 1)
      rw [if_pos (congrArg some hHead), hErase, hLoop, hHead, List.count_cons_self,
        quota_succ hStop]
      exact ⟨kept, hKept.remove, Prod.ext rfl (by omega)⟩
    · have hPass : done ++ head :: rest = (done ++ [head]) ++ rest := by simp
      obtain ⟨kept, hKept, hLoop⟩ := ih (done ++ [head]) count removed
      rw [List.length_append] at hLoop
      rw [if_neg (mt Option.some.inj hHead), hPass, List.count_cons_of_ne hHead]
      refine ⟨head :: kept, hKept.keep hHead, hLoop.trans ?_⟩
      rw [List.append_assoc]
      rfl

theorem removeBackward_spec (element : Bytes) (rest : List Bytes) (done : List Bytes)
    (count : Int) (removed : Nat) :
    ∃ kept, RemovesFirst element (quota (some count) (rest.count element)) rest.reverse
      kept.reverse ∧ removeBackward element rest.length count (rest ++ done) removed =
        (kept ++ done, removed + quota (some count) (rest.count element)) := by
  induction rest using List.reverseRecOn generalizing done count removed with
  | nil =>
    rw [List.count_nil, quota_zero]
    exact ⟨[], .none element [], rfl⟩
  | append_singleton rest last ih =>
    have hHere : (rest ++ [last] ++ done)[rest.length]? = some last := by simp
    rw [List.length_append, List.length_singleton, removeBackward, hHere]
    by_cases hStop : (some count).any (· ≤ 0) = true
    · rw [if_pos (of_decide_eq_true hStop), quota_stop hStop]
      exact ⟨rest ++ [last], .none element _, rfl⟩
    rw [if_neg (mt decide_eq_true hStop), List.count_append, List.reverse_append]
    by_cases hLast : last = element
    · have hErase : (rest ++ [last] ++ done).eraseIdx rest.length = rest ++ done := by
        rw [List.append_assoc]
        simp [List.eraseIdx_append_of_length_le]
      obtain ⟨kept, hKept, hLoop⟩ := ih done (count - 1) (removed + 1)
      rw [if_pos (congrArg some hLast), hErase, hLoop, hLast, List.count_singleton_self,
        quota_succ hStop]
      exact ⟨kept, hKept.remove, Prod.ext rfl (by simp; omega)⟩
    · have hPass : rest ++ [last] ++ done = rest ++ (last :: done) := by simp
      obtain ⟨kept, hKept, hLoop⟩ := ih (last :: done) count removed
      have hOther : [last].count element = 0 := by simp [hLast]
      rw [if_neg (mt Option.some.inj hLast), hPass, hOther, Nat.add_zero]
      refine ⟨kept ++ [last], ?_, by simpa using hLoop⟩
      rw [List.reverse_append]
      exact hKept.keep hLast

end

/-- The count says how many occurrences go, and from which end. -/
def Removes (req : LRemReq) (list kept : List Bytes) (removed : Nat) : Prop :=
  if req.count = 0 then
    removed = list.count req.element ∧ kept = list.filter (· ≠ req.element)
  else
    removed = min req.count.natAbs (list.count req.element) ∧
      if 0 < req.count then RemovesFirst req.element removed list kept
      else RemovesFirst req.element removed list.reverse kept.reverse

theorem removes_iff {req : LRemReq} (hCount : Text.FitsI64 req.count) (list : List Bytes) :
    req.Removes list (req.removeElements list).1 (req.removeElements list).2 ↔
      req.count ≠ Text.i64Min ∨ req.element ∉ list := by
  unfold Removes removeElements
  obtain hNegative | hZero | hPositive := lt_trichotomy req.count 0
  · obtain ⟨kept, hKept, hLoop⟩ :=
      removeBackward_spec req.element list [] (Text.wrapI64 (-req.count)) 0
    rw [List.append_nil, List.append_nil, Nat.zero_add] at hLoop
    simp only [if_neg hNegative.ne, if_neg (not_lt.mpr hNegative.le), if_pos hNegative, hLoop]
    by_cases hMin : req.count = Text.i64Min
    · -- nothing is removed, since `-count` has wrapped
      have hNone : quota (some (Text.wrapI64 (-req.count))) (list.count req.element) = 0 := by
        rw [hMin]
        exact quota_stop rfl _
      rw [hNone] at hKept ⊢
      have hAbs : 0 < req.count.natAbs := by omega
      constructor
      · rintro ⟨hRemoved, -⟩
        exact .inr (List.count_eq_zero.mp (by omega))
      · rintro (hOther | hAbsent)
        · exact absurd hMin hOther
        · exact ⟨by rw [List.count_eq_zero.mpr hAbsent, Nat.min_zero], hKept⟩
    · have hFits : Text.FitsI64 (-req.count) := by
        obtain ⟨hLow, -⟩ := hCount
        unfold Text.FitsI64 Text.i64Max
        unfold Text.i64Min at hLow hMin ⊢
        omega
      have hNatAbs : req.count.natAbs = (-req.count).toNat := by omega
      rw [Text.wrapI64_of_fits hFits] at hKept ⊢
      exact iff_of_true ⟨by rw [hNatAbs]; rfl, hKept⟩ (.inl hMin)
  · obtain ⟨kept, hKept, hLoop⟩ := removeForward_spec req.element list [] none 0
    rw [Nat.zero_add] at hLoop
    have hMin : req.count ≠ Text.i64Min := by
      rw [hZero]
      decide
    simp only [hZero, lt_irrefl, if_true, if_false]
    rw [← hZero]
    exact iff_of_true ⟨congrArg Prod.snd hLoop,
      (congrArg Prod.fst hLoop).trans hKept.all⟩ (.inl hMin)
  · obtain ⟨kept, hKept, hLoop⟩ := removeForward_spec req.element list [] (some req.count) 0
    rw [Nat.zero_add] at hLoop
    have hNatAbs : req.count.natAbs = req.count.toNat := by omega
    have hMin : req.count ≠ Text.i64Min := by
      unfold Text.i64Min
      omega
    simp only [if_neg hPositive.ne', if_pos hPositive]
    refine iff_of_true ⟨(congrArg Prod.snd hLoop).trans ?_, ?_⟩ (.inl hMin)
    · rw [hNatAbs]
      rfl
    · exact hLoop ▸ hKept

end LRemReq

/-! ### Runs -/

namespace Cache

variable {Vm : Type} {lua : LuaMachine Vm} {s : State Vm} {update : Update} {key : Bytes}
    {entry : Entry} {list : List Bytes}

/-- A command that replaces a list. -/
theorem everyRun_list (post : Option (ValueObject × Option Nat) → Value → Prop)
    {operation : BaseOperation} {wrongType : Value} {init : MochaOperation MyValue × Value}
    {change : Nat → List Bytes → Outcome (List Bytes) × Value} {after : List Bytes} {reply : Value}
    (hCommand : operation.computeCommand .sorted =
      some (collectionCommand key ValueObject.asList .list wrongType change init))
    (hMode : ∀ version, update.updateType ≠ .cas version) (hDb : update.dbNumber < s.count)
    (hLive : s.live update.dbNumber key = some entry) (hList : entry.value.data = .list list)
    (hChange : change update.writeClock list = (.keep after, reply)) :
    ((machine lua).EveryRun s (baseRequest update operation) fun t given =>
      post (t.visible update.dbNumber key) given) ↔
        post (some (.list after, entry.expireAt)) reply := by
  have hMutate : (collectionCommand key ValueObject.asList .list wrongType change init).mutate
      entry update.writeClock = (.insert ⟨entry.value.version, .list after⟩ entry.getExpirePolicy,
        reply) := by
    simp only [collectionCommand, hList, ValueObject.asList, hChange]
    rfl
  exact everyRun_keep post hCommand hMode hDb hLive hMutate

/-- LRANGE, LTRIM, LINDEX and LSET on one list mean the same by an index. -/
theorem list_indexing {readClock : Option Nat}
    (hMode : ∀ version, update.updateType ≠ .cas version) (hDb : update.dbNumber < s.count)
    (hFound : s.view.found update.dbNumber readClock key = some entry)
    (hList : entry.value.data = .list list) (forScript : Bool) (start stop index : Int)
    (value : Bytes) :
    ((machine lua).EveryRun s
      (readRequest forScript update.dbNumber readClock (.lRange ⟨key, start, stop⟩)) fun _ reply =>
        reply = .ofBytesList (listSlice list start stop)) ∧
    ((machine lua).EveryRun s (baseRequest update (.lTrim ⟨key, start, stop⟩)) fun t reply =>
      reply = .ok ∧ t.visible update.dbNumber key =
        some (.list (listSlice list start stop), entry.expireAt)) ∧
    ∃ found : Option Bytes, listSlice list index index = found.toList ∧
      (found = none ↔ fromEnd list.length index < 0 ∨ list.length ≤ fromEnd list.length index) ∧
      ((machine lua).EveryRun s
        (readRequest forScript update.dbNumber readClock (.lIndex ⟨key, index⟩)) fun _ reply =>
          reply = .bulkString found) ∧
      ((machine lua).EveryRun s (baseRequest update (.lSet ⟨key, index, value⟩)) fun t reply =>
        if found = none then
          (∃ text, reply = .error text) ∧
            t.visible update.dbNumber key = s.visible update.dbNumber key
        else reply = .ok ∧ ∃ after,
          t.visible update.dbNumber key = some (.list after, entry.expireAt) ∧
            after.length = list.length ∧ ∀ i : Nat,
              after[i]? = if i = fromEnd list.length index then some value else list[i]?) := by
  have hLive : s.live update.dbNumber key = some entry := (Option.filter_eq_some_iff.mp hFound).1
  have hData : entry.value.data.asList = some list := by
    rw [hList]
    rfl
  refine ⟨?_, ?_, listElement list index, listSlice_self list index, listElement_eq_none, ?_, ?_⟩
  · refine (everyRun_read lua readClock (· = _) rfl hDb forScript).mpr fun _ => ?_
    simp only [hFound, LRangeParams.execute, readCollection, hData, Option.elim_some,
      lrange_eq_listSlice]
  · refine (everyRun_list (fun after reply => reply = .ok ∧ after = _) rfl hMode hDb hLive hList
      rfl).mpr ⟨rfl, ?_⟩
    rw [LTrimReq.trimmed_eq_listSlice]
  · refine (everyRun_read lua readClock (· = _) rfl hDb forScript).mpr fun _ => ?_
    simp only [hFound, LIndexParams.execute, readCollection, hData, Option.elim_some,
      Bool.or_eq_true, decide_eq_true_eq]
    split
    · next hOut => rw [listElement_eq_none.mpr hOut]
    · next hIn => rw [listElement, if_neg (not_or.mp hIn).1]
  · by_cases hOut : fromEnd list.length index < 0 ∨ list.length ≤ fromEnd list.length index
    · have hMutate : (LSetReq.computeCommand ⟨key, index, value⟩).mutate entry update.writeClock =
          (.abort, .error "ERR index out of range") := by
        simp only [LSetReq.computeCommand, collectionCommand, hData, Bool.or_eq_true,
          decide_eq_true_eq, if_pos hOut]
        rfl
      simp only [if_pos (listElement_eq_none.mpr hOut)]
      exact (everyRun_abort (fun after reply => (∃ text, reply = .error text) ∧ after = _) rfl hMode
        hDb hLive hMutate).mpr ⟨⟨_, rfl⟩, rfl⟩
    · simp only [if_neg (mt listElement_eq_none.mp hOut)]
      obtain ⟨hFirst, hLast⟩ := not_or.mp hOut
      refine (everyRun_list (fun shown reply => reply = .ok ∧ ∃ after,
        shown = some (.list after, entry.expireAt) ∧ after.length = list.length ∧ ∀ i : Nat,
          after[i]? = if i = fromEnd list.length index then some value else list[i]?) rfl hMode hDb
        hLive hList (by simp only [Bool.or_eq_true, decide_eq_true_eq, if_neg hOut])).mpr
        ⟨rfl, list.set (fromEnd list.length index).toNat value, rfl, List.length_set, fun i => ?_⟩
      rw [List.getElem?_set]
      by_cases hIndex : i = fromEnd list.length index
      · have hPosition : (fromEnd list.length index).toNat = i := by omega
        have hInside : (fromEnd list.length index).toNat < list.length := by omega
        rw [if_pos hPosition, if_pos hIndex, if_pos hInside]
      · have hPosition : (fromEnd list.length index).toNat ≠ i := by omega
        rw [if_neg hPosition, if_neg hIndex]

/-- LTRIM k 1 -1 on two elements. -/
theorem list_indexing_lTrim :
    (machine LuaMachine.none).EveryRun (holding (.list [[97], [98]]))
      (baseRequest ⟨0, 0, .none, false⟩ (.lTrim ⟨[107], 1, -1⟩)) fun t reply =>
        reply = .ok ∧ t.visible 0 [107] = some (.list [[98]], none) := by
  have hMode (version : Nat) : (⟨0, 0, .none, false⟩ : Update).updateType ≠ .cas version := nofun
  have hFound : (holding (.list [[97], [98]])).view.found 0 none [107] =
      some ⟨.new (.list [[97], [98]]), none⟩ := rfl
  exact (list_indexing hMode Nat.one_pos hFound rfl false 1 (-1) 0 []).2.1

/-- LREM is right but for the least `i64`, whose negation wraps and so removes nothing. -/
theorem lRem_iff {req : LRemReq} (hMode : ∀ version, update.updateType ≠ .cas version)
    (hDb : update.dbNumber < s.count) (hLive : s.live update.dbNumber req.key = some entry)
    (hList : entry.value.data = .list list) (hCount : Text.FitsI64 req.count) :
    ((machine lua).EveryRun s (baseRequest update (.lRem req)) fun t reply =>
      ∃ (kept : List Bytes) (removed : Nat),
        t.visible update.dbNumber req.key = some (.list kept, entry.expireAt) ∧
        reply = .integer removed ∧ req.Removes list kept removed) ↔
      req.count ≠ Text.i64Min ∨ req.element ∉ list := by
  rw [← LRemReq.removes_iff hCount]
  refine (everyRun_list (fun shown reply => ∃ (kept : List Bytes) (removed : Nat),
    shown = some (.list kept, entry.expireAt) ∧ reply = .integer removed ∧
      req.Removes list kept removed) rfl hMode hDb hLive hList
    (Eq.refl (Outcome.keep (req.removeElements list).1, _))).trans ?_
  constructor
  · rintro ⟨kept, removed, hKept, hRemoved, hRemoves⟩
    cases hKept
    rw [Value.integer.injEq, Int.natCast_inj] at hRemoved
    rwa [← hRemoved] at hRemoves
  · exact fun hRemoves => ⟨_, _, rfl, rfl, hRemoves⟩

/-- LREM k 1 a on one element. -/
theorem lRem_iff_one :
    (machine LuaMachine.none).EveryRun (holding (.list [[97]]))
      (baseRequest ⟨0, 0, .none, false⟩ (.lRem ⟨[107], 1, [97]⟩)) fun t reply =>
        ∃ (kept : List Bytes) (removed : Nat),
          t.visible 0 [107] = some (.list kept, none) ∧ reply = .integer removed ∧
            LRemReq.Removes ⟨[107], 1, [97]⟩ [[97]] kept removed := by
  have hMode (version : Nat) : (⟨0, 0, .none, false⟩ : Update).updateType ≠ .cas version := nofun
  have hLive : (holding (.list [[97]])).live 0 [107] = some ⟨.new (.list [[97]]), none⟩ := rfl
  have hCount : Text.FitsI64 (⟨[107], 1, [97]⟩ : LRemReq).count := by decide
  exact (lRem_iff hMode Nat.one_pos hLive rfl hCount).mpr (.inl (by decide))

/-- LREM k -9223372036854775808 a removes nothing. -/
theorem lRem_min :
    ∃ t, (machine LuaMachine.none).Runs (holding (.list [[97]]))
        (baseRequest ⟨0, 0, .none, false⟩ (.lRem ⟨[107], Text.i64Min, [97]⟩)) t (.integer 0) ∧
      t.visible 0 [107] = some (.list [[97]], none) := by
  exact ⟨_, runs_quietly 10 rfl, rfl⟩

/-- What LPOP should take from the left: one element, or with a count an array of so many. -/
def leftPop (count : Option Nat) (list : List Bytes) : List Bytes × Value :=
  match count with
  | none => (list.tail, .bulkString list.head?)
  | some n => (list.drop n, .ofBytesList (list.take n))

/-- What RPOP should take from the right, the last element first. -/
def rightPop (count : Option Nat) (list : List Bytes) : List Bytes × Value :=
  ((leftPop count list.reverse).1.reverse, (leftPop count list.reverse).2)

/-- LPOP and RPOP are right without a count; one that is given is parsed and then dropped. -/
theorem pop_iff {items : List Value} {n : Nat} (hItems : LPopReq.parse items = .ok ⟨key, n⟩)
    (hMode : ∀ version, update.updateType ≠ .cas version) (hDb : update.dbNumber < s.count)
    (hLive : s.live update.dbNumber key = some entry) (hList : entry.value.data = .list list)
    {count : Option Nat} (hCount : count = if items.length = 3 then some n else none) :
    RPopReq.parse items = .ok ⟨key, n⟩ ∧
    (((machine lua).EveryRun s (baseRequest update (.lPop ⟨key, n⟩)) fun t reply =>
      t.visible update.dbNumber key = some (.list (leftPop count list).1, entry.expireAt) ∧
        reply = (leftPop count list).2) ↔ items.length = 2) ∧
    (((machine lua).EveryRun s (baseRequest update (.rPop ⟨key, n⟩)) fun t reply =>
      t.visible update.dbNumber key = some (.list (rightPop count list).1, entry.expireAt) ∧
        reply = (rightPop count list).2) ↔ items.length = 2) := by
  have hWrong : ¬ (items.length < 2 || 3 < items.length) := by
    intro hWrong
    rw [LPopReq.parse, if_pos hWrong] at hItems
    cases hItems
  have hLength : items.length = 2 ↔ items.length ≠ 3 := by
    simp only [Bool.or_eq_true, decide_eq_true_eq] at hWrong
    omega
  have hRight : RPopReq.parse items = .ok ⟨key, n⟩ := by
    unfold LPopReq.parse at hItems
    unfold RPopReq.parse
    rw [if_neg hWrong] at hItems ⊢
    cases hKey : Parsed.argument items 1 "key" <;> cases hNumber : parsePopCount items <;>
      rw [hKey, hNumber] at hItems <;> cases hItems
    rfl
  refine ⟨hRight, ?_⟩
  rw [hLength, everyRun_list (fun shown reply => shown = _ ∧
    reply = _) rfl hMode hDb hLive hList rfl, everyRun_list (fun shown reply => shown = _ ∧
      reply = _) rfl hMode hDb hLive hList rfl]
  by_cases hGiven : items.length = 3
  · rw [if_pos hGiven] at hCount
    rw [hCount]
    refine ⟨iff_of_false ?_ (not_not_intro hGiven), iff_of_false ?_ (not_not_intro hGiven)⟩
    · exact fun hPop => nomatch hPop.2
    · exact fun hPop => nomatch hPop.2
  · rw [if_neg hGiven] at hCount
    rw [hCount]
    refine ⟨iff_of_true ⟨rfl, rfl⟩ hGiven, iff_of_true ⟨?_, ?_⟩ hGiven⟩
    · simp [rightPop, leftPop]
    · simp [rightPop, leftPop]

/-- LPOP k and RPOP k on two elements. -/
theorem pop_iff_one :
    ((machine LuaMachine.none).EveryRun (holding (.list [[97], [98]]))
      (baseRequest ⟨0, 0, .none, false⟩ (.lPop ⟨[107], 1⟩)) fun t reply =>
        t.visible 0 [107] = some (.list [[98]], none) ∧ reply = .bulkString (some [97])) ∧
    (machine LuaMachine.none).EveryRun (holding (.list [[97], [98]]))
      (baseRequest ⟨0, 0, .none, false⟩ (.rPop ⟨[107], 1⟩)) fun t reply =>
        t.visible 0 [107] = some (.list [[97]], none) ∧ reply = .bulkString (some [98]) := by
  have hMode (version : Nat) : (⟨0, 0, .none, false⟩ : Update).updateType ≠ .cas version := nofun
  have hLive : (holding (.list [[97], [98]])).live 0 [107] =
      some ⟨.new (.list [[97], [98]]), none⟩ := rfl
  have hLeft : LPopReq.parse [.bulkString (some [108]), .bulkString (some [107])] =
      .ok ⟨[107], 1⟩ := rfl
  obtain ⟨-, hPop, hRPop⟩ := pop_iff hLeft hMode Nat.one_pos hLive rfl rfl
  exact ⟨hPop.mpr rfl, hRPop.mpr rfl⟩

/-- LPOP k 2 on two elements takes one of them, and not in an array. -/
theorem lPop_two :
    LPopReq.parse [.bulkString (some [108]), .bulkString (some [107]), .bulkString (some [50])] =
      .ok ⟨[107], 2⟩ ∧
    ∃ t, (machine LuaMachine.none).Runs (holding (.list [[97], [98]]))
        (baseRequest ⟨0, 0, .none, false⟩ (.lPop ⟨[107], 2⟩)) t (.bulkString (some [97])) ∧
      t.visible 0 [107] = some (.list [[98]], none) := by
  exact ⟨rfl, _, runs_quietly 10 rfl, rfl⟩

end Cache
end CacheCat
