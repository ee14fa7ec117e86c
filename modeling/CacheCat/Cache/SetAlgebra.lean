import CacheCat.Cache.Existence
import CacheCat.Cache.Single

/-! The stored combinations of sets against the combinations that are only read. -/
namespace CacheCat

/-! ### Sources -/

/-- The source is there and is not a set. -/
def isOtherType (source : Option Entry) : Bool :=
  source.any fun entry => entry.value.data.asSet.isNone

/-- The members of a source; a missing one has none. -/
def sourceMembers (source : Option Entry) : Finset Bytes :=
  (source.bind fun entry => entry.value.data.asSet).getD ∅

namespace Cache

open Library (Program Machine)

/-- SUNION and SDIFF go through their sources; one of another type ends them. -/
theorem foldlM_combineEntry {combine : Finset Bytes → Finset Bytes → Finset Bytes}
    (hEmpty : ∀ results, combine results ∅ = results) (sources : List (Option Entry))
    (results : Finset Bytes) :
    sources.foldlM (combineEntry combine) results =
      if sources.any isOtherType then none
      else some (sources.foldl (fun results source => combine results (sourceMembers source))
        results) := by
  induction sources generalizing results with
  | nil => rfl
  | cons source sources ih =>
    rw [List.any_cons, List.foldl_cons]
    cases source with
    | none =>
      have hMembers : sourceMembers none = ∅ := rfl
      rw [hMembers, hEmpty]
      exact ih results
    | some entry =>
      cases hSet : entry.value.data.asSet with
      | none => simp [combineEntry, isOtherType, hSet]
      | some set =>
        have hMembers : sourceMembers (some entry) = set := by simp [sourceMembers, hSet]
        have hType : isOtherType (some entry) = false := by simp [isOtherType, hSet]
        rw [hMembers, hType, Bool.false_or, ← ih]
        simp [combineEntry, hSet]

end Cache

variable (sources : List (Option Entry)) (results : Option (Finset Bytes))

theorem unionOf_eq :
    unionOf sources = if sources.any isOtherType then none
      else some (sources.foldl (fun results source => results ∪ sourceMembers source) ∅) :=
  Cache.foldlM_combineEntry Finset.union_empty sources ∅

theorem differenceOf_eq (first : Option Entry) (others : List (Option Entry)) :
    differenceOf first others = if (first :: others).any isOtherType then none
      else some (others.foldl (fun results source => results \ sourceMembers source)
        (sourceMembers first)) := by
  have hOthers := Cache.foldlM_combineEntry (fun _ => Finset.sdiff_empty) others
  have hFirst : (first.elim (some ∅) fun entry => entry.value.data.asSet) =
      if isOtherType first then none else some (sourceMembers first) := by
    cases first with
    | none => rfl
    | some entry => cases hSet : entry.value.data.asSet <;> simp [isOtherType, sourceMembers, hSet]
  rw [differenceOf, hFirst, List.any_cons]
  cases isOtherType first with
  | true => rfl
  | false =>
    exact hOthers _

theorem mem_foldl_union (results : Finset Bytes) (member : Bytes) :
    member ∈ sources.foldl (fun results source => results ∪ sourceMembers source) results ↔
      member ∈ results ∨ ∃ source ∈ sources, member ∈ sourceMembers source := by
  induction sources generalizing results with
  | nil => simp
  | cons source sources ih => simp [ih, or_assoc]

theorem mem_foldl_sdiff (results : Finset Bytes) (member : Bytes) :
    member ∈ sources.foldl (fun results source => results \ sourceMembers source) results ↔
      member ∈ results ∧ ∀ source ∈ sources, member ∉ sourceMembers source := by
  induction sources generalizing results with
  | nil => simp
  | cons source sources ih => simp [ih, and_assoc]

/-- SINTER looks at all its sources. -/
theorem SInterParams.intersect_eq_none_iff :
    SInterParams.intersect results sources = none ↔ sources.any isOtherType = true := by
  induction sources generalizing results with
  | nil => simp [SInterParams.intersect]
  | cons source sources ih =>
    cases source with
    | none => simp [SInterParams.intersect, ih, isOtherType]
    | some entry =>
      cases hSet : entry.value.data.asSet <;> simp [SInterParams.intersect, ih, isOtherType, hSet]

/-- SINTERSTORE looks at the sources before the first missing one. -/
theorem SInterStoreReq.intersect_eq_none_iff :
    SInterStoreReq.intersect results sources = none ↔
      (sources.takeWhile Option.isSome).any isOtherType = true := by
  induction sources generalizing results with
  | nil => simp [SInterStoreReq.intersect]
  | cons source sources ih =>
    cases source with
    | none => simp [SInterStoreReq.intersect]
    | some entry =>
      cases hSet : entry.value.data.asSet <;> simp [SInterStoreReq.intersect, ih, isOtherType, hSet]

theorem SInterParams.intersect_empty {sources : List (Option Entry)} {result : Finset Bytes}
    (hResult : SInterParams.intersect (some ∅) sources = some result) : result = ∅ := by
  induction sources with
  | nil =>
    cases hResult
    rfl
  | cons source sources ih =>
    cases source with
    | none => exact ih hResult
    | some entry =>
      cases hSet : entry.value.data.asSet with
      | none => simp [SInterParams.intersect, hSet] at hResult
      | some set =>
        refine ih ?_
        simpa [SInterParams.intersect, hSet] using hResult

/-- Where SINTER succeeds, SINTERSTORE has the same result. -/
theorem SInterStoreReq.intersect_of_read {sources : List (Option Entry)}
    {results : Option (Finset Bytes)} {result : Finset Bytes}
    (hResult : SInterParams.intersect results sources = some result) :
    SInterStoreReq.intersect results sources = some result := by
  induction sources generalizing results with
  | nil => exact hResult
  | cons source sources ih =>
    cases source with
    | none => rw [SInterParams.intersect_empty hResult, SInterStoreReq.intersect]
    | some entry =>
      cases hSet : entry.value.data.asSet with
      | none => simp [SInterParams.intersect, hSet] at hResult
      | some set =>
        simp only [SInterStoreReq.intersect, hSet]
        refine ih ?_
        simpa [SInterParams.intersect, hSet] using hResult

/-! ### The six commands -/

inductive Combination where
  | inter
  | union
  | diff
deriving DecidableEq

namespace Combination

/-- SINTERSTORE, SUNIONSTORE and SDIFFSTORE. -/
def store (combination : Combination) (target : Bytes) (sources : List Bytes) : Operation :=
  match combination with
  | inter => .base (.sInterStore ⟨target, sources⟩)
  | union => .redis (.redisSUnionStore ⟨target, sources⟩)
  | diff => .redis (.redisSDiffStore ⟨target, sources⟩)

/-- SINTER, SUNION and SDIFF. -/
def read (combination : Combination) (sources : List Bytes) : ReadOperation :=
  match combination with
  | inter => .sInter ⟨sources⟩
  | union => .sUnion ⟨sources⟩
  | diff => .sDiff ⟨sources⟩

/-- The set that the read command returns, if it does not fail. -/
def combined (combination : Combination) (sources : List (Option Entry)) : Option (Finset Bytes) :=
  match combination, sources with
  | inter, _ => SInterParams.intersect none sources
  | union, _ => unionOf sources
  | diff, [] => none
  | diff, first :: others => differenceOf first others

/-- SINTERSTORE notices a source of another type only before the first missing source;
the other two leave an empty set if there is nothing to store. -/
def StoresAsRead (combination : Combination) (sources : List (Option Entry)) : Prop :=
  match combination, sources with
  | inter, _ => sources.any isOtherType → (sources.takeWhile Option.isSome).any isOtherType
  | union, _ => sources.any isOtherType ∨ ∃ source ∈ sources, (sourceMembers source).Nonempty
  | diff, [] => True
  | diff, first :: others => (first :: others).any isOtherType ∨
      ∃ member ∈ sourceMembers first, ∀ source ∈ others, member ∉ sourceMembers source

/-- What the read command replies. -/
theorem executeRead_eq (combination : Combination) (sources : List (Option Entry)) :
    ∃ failure : String, ∀ order : HashOrder,
      (match combination with
        | inter => SInterParams.execute order sources
        | union => SUnionParams.execute order sources
        | diff => SDiffParams.execute order sources) =
      (combination.combined sources).elim (.error failure) (setReply order) := by
  cases combination with
  | inter | union => exact ⟨_, fun order => rfl⟩
  | diff =>
    cases sources with
    | nil | cons first others => exact ⟨_, fun order => rfl⟩

theorem ite_none_ne_some_empty {failed : Prop} [Decidable failed] {members : Finset Bytes} :
    (if failed then none else some members) ≠ some ∅ ↔ failed ∨ members.Nonempty := by
  split <;> simp [*, Finset.nonempty_iff_ne_empty]

theorem storesAsRead_iff_of_ne_inter {combination : Combination} (hOther : combination ≠ .inter)
    (sources : List (Option Entry)) :
    combination.StoresAsRead sources ↔ combination.combined sources ≠ some ∅ := by
  cases combination with
  | inter => exact absurd rfl hOther
  | union =>
    simp only [StoresAsRead, combined, unionOf_eq, ite_none_ne_some_empty, Finset.Nonempty,
      mem_foldl_union, Finset.notMem_empty, false_or]
    refine or_congr_right ⟨?_, ?_⟩
    · rintro ⟨source, hSource, member, hMember⟩
      exact ⟨member, source, hSource, hMember⟩
    · rintro ⟨member, source, hSource, hMember⟩
      exact ⟨source, hSource, member, hMember⟩
  | diff =>
    cases sources with
    | nil => simp [StoresAsRead, combined]
    | cons first others =>
      simp only [StoresAsRead, combined, differenceOf_eq, ite_none_ne_some_empty, Finset.Nonempty,
        mem_foldl_sdiff]

end Combination

namespace Cache

open Library (Program Machine)

variable {Vm : Type}

/-- The *STORE command fails if the read command does, and then changes nothing. Otherwise
the target holds the set that is read, without a deadline, or is gone if that set is
empty; the reply is its size, and nothing else has changed. -/
def StoresWhatIsRead (lua : LuaMachine Vm) (s : State Vm) (update : Update) (external : Bool)
    (combination : Combination) (target : Bytes) (sources : List Bytes) : Prop :=
  (∃ t reply, (machine lua).Runs s (doRequest update external (combination.store target sources))
    t reply) ∧
  ∀ t reply forScript u read,
    (machine lua).Runs s (doRequest update external (combination.store target sources)) t reply →
    (machine lua).Runs s (readRequest forScript update.dbNumber none (combination.read sources))
      u read →
    ((∃ text, read = .error text) ∧ (∃ text, reply = .error text) ∧ t.visible = s.visible) ∨
    ∃ members : List Bytes, read = .set (members.map fun member => .bulkString (some member)) ∧
      reply = .integer members.length ∧
      t.visible update.dbNumber target =
        (if members = [] then none else some (.set members.toFinset, none)) ∧
      ∀ db key, ¬ (db = update.dbNumber ∧ key = target) → t.visible db key = s.visible db key

/-- What the *STORE command makes of the view. -/
def View.storeCombination (view : View) (update : Update) (combination : Combination)
    (target : Bytes) (sources : List Bytes) : View × Value :=
  match combination with
  | .inter => view.sInterStore update ⟨target, sources⟩
  | .union => view.performRedis update (.redisSUnionStore ⟨target, sources⟩)
  | .diff => view.performRedis update (.redisSDiffStore ⟨target, sources⟩)

/-- What `StoresWhatIsRead` asks for the set that is read. -/
def View.Stored (view : View) (db : Nat) (target : Bytes) (after : View × Value) :
    Option (Finset Bytes) → Prop
  | none => (∃ text, after.2 = .error text) ∧ after.1.visible = view.visible
  | some members => after.2 = .integer members.card ∧
      after.1.visible db target = (if members = ∅ then none else some (.set members, none)) ∧
      ∀ other key, ¬ (other = db ∧ key = target) →
        after.1.visible other key = view.visible other key

section

variable {view : View} {db : Nat} {target : Bytes}

theorem View.visible_put_of_ne {view : View} {db other : Nat} {key k : Bytes} (entry : Entry)
    (hOther : ¬ (other = db ∧ k = key)) :
    (view.put db key entry).visible other k = view.visible other k := by
  simp only [View.visible, View.put_live, if_neg hOther]

theorem View.visible_drop_self (view : View) (db : Nat) (key : Bytes) :
    (view.drop db key).visible db key = none := by
  simp [View.visible, View.drop]

theorem View.visible_drop_of_ne {view : View} {db other : Nat} {key k : Bytes}
    (hOther : ¬ (other = db ∧ k = key)) :
    (view.drop db key).visible other k = view.visible other k := by
  simp only [View.visible, View.drop, if_neg hOther]

/-- SUNIONSTORE and SDIFFSTORE go wrong exactly where there is nothing to store. -/
theorem View.stored_storeSet_iff (combined : Option (Finset Bytes)) :
    view.Stored db target (view.storeSet db target combined) combined ↔ combined ≠ some ∅ := by
  cases combined with
  | none => exact iff_of_true ⟨⟨_, rfl⟩, rfl⟩ nofun
  | some members =>
    have hFrame (other : Nat) (key : Bytes) (hOther : ¬ (other = db ∧ key = target)) :
        (view.storeSet db target (some members)).1.visible other key = view.visible other key :=
      View.visible_put_of_ne _ hOther
    have hTarget : (view.storeSet db target (some members)).1.visible db target =
        some (.set members, none) := view.visible_put_self db target _
    by_cases hEmpty : members = ∅
    · subst hEmpty
      refine iff_of_false (fun ⟨_, hGone, _⟩ => ?_) (not_not_intro rfl)
      rw [hTarget] at hGone
      cases hGone
    · refine iff_of_true ⟨rfl, ?_, hFrame⟩ (by simpa using hEmpty)
      rw [hTarget, if_neg hEmpty]

theorem View.stored_sInterStore_iff (update : Update) (sources : List Bytes) :
    view.Stored update.dbNumber target (view.sInterStore update ⟨target, sources⟩)
        (SInterParams.intersect none (sources.map (view.live update.dbNumber))) ↔
      ((sources.map (view.live update.dbNumber)).any isOtherType →
        ((sources.map (view.live update.dbNumber)).takeWhile Option.isSome).any isOtherType) := by
  simp only [View.sInterStore, SInterStoreReq.computeCommand]
  generalize sources.map (view.live update.dbNumber) = found
  rw [← SInterParams.intersect_eq_none_iff found none,
    ← SInterStoreReq.intersect_eq_none_iff found none]
  cases hCombined : SInterParams.intersect none found with
  | none =>
    cases hResult : SInterStoreReq.intersect none found with
    | none => exact iff_of_true ⟨⟨_, rfl⟩, rfl⟩ fun _ => rfl
    | some result =>
      -- a source of another type behind a missing one
      refine iff_of_false ?_ (by simp)
      rintro ⟨⟨text, hError⟩, -⟩
      simp only at hError
      split at hError <;> cases hError
  | some members =>
    rw [SInterStoreReq.intersect_of_read hCombined]
    refine iff_of_true ?_ (by simp)
    by_cases hEmpty : members = ∅
    · subst hEmpty
      exact ⟨rfl, View.visible_drop_self .., fun _ _ hOther => View.visible_drop_of_ne hOther⟩
    · simp only [if_neg hEmpty]
      refine ⟨rfl, ?_, fun _ _ hOther => View.visible_put_of_ne _ hOther⟩
      rw [if_neg hEmpty]
      exact View.visible_put_self ..

theorem View.stored_iff (target : Bytes) (update : Update) (combination : Combination)
    (sources : List Bytes) :
    view.Stored update.dbNumber target (view.storeCombination update combination target sources)
        (combination.combined (sources.map (view.live update.dbNumber))) ↔
      combination.StoresAsRead (sources.map (view.live update.dbNumber)) := by
  cases combination with
  | inter => exact View.stored_sInterStore_iff update sources
  | union =>
    rw [Combination.storesAsRead_iff_of_ne_inter (by nofun)]
    exact View.stored_storeSet_iff _
  | diff =>
    rw [Combination.storesAsRead_iff_of_ne_inter (by nofun)]
    cases sources with
    | nil => exact iff_of_true ⟨⟨_, rfl⟩, rfl⟩ nofun
    | cons first others => exact View.stored_storeSet_iff _

end

section

variable {lua : LuaMachine Vm} {s : State Vm} {update : Update} {external : Bool}
    {combination : Combination} {target : Bytes} {sources : List Bytes}

theorem settles_storeCombination (hMode : ∀ version, update.updateType ≠ .cas version)
    {view : View} {post : View → Value → Prop} (hDb : update.dbNumber < view.count)
    (hFree : external = true → view.readersLocked = false) :
    (doRequest update external (combination.store target sources)).Settles View.effect post view ↔
      post (view.storeCombination update combination target sources).1
        (view.storeCombination update combination target sources).2 := by
  cases combination with
  | inter =>
    have hFlush : BaseOperation.takesLock (.sInterStore ⟨target, sources⟩) = false := rfl
    exact settles_performBase hMode hDb hFlush
  | union | diff => exact settles_performRedis hMode hDb rfl fun h _ => hFree h

/-- What the read command replies in every run. -/
theorem alwaysReplies_combination (lua : LuaMachine Vm) (hDb : update.dbNumber < s.count)
    (combination : Combination) (sources : List Bytes) :
    ∃ failure : String, AlwaysReplies lua s update.dbNumber none (combination.read sources)
      fun reply => ∃ order : HashOrder, reply =
        (combination.combined (sources.map (s.live update.dbNumber))).elim (.error failure)
          (setReply order) := by
  have hFound : (fun key => (s.unhidden update.dbNumber none).lookup key) =
      s.live update.dbNumber := by
    funext key
    simp [State.unhidden, State.live, Mocha.EntrySnapshot.hidden]
  obtain ⟨failure, hExecute⟩ :=
    combination.executeRead_eq (sources.map (s.live update.dbNumber))
  refine ⟨failure, ?_⟩
  cases combination with
  | inter | union | diff =>
    refine (alwaysReplies_many hDb rfl).mono ?_
    rintro _ ⟨env, rfl⟩
    rw [hFound]
    exact ⟨env.order, hExecute env.order⟩

/-- The body of `StoresWhatIsRead`, for a reply of the read command. -/
theorem stored_iff_agree {view after : View} {db : Nat} {reply read : Value} {failure : String}
    {order : HashOrder} {combined : Option (Finset Bytes)}
    (hRead : read = combined.elim (.error failure) (setReply order)) :
    view.Stored db target (after, reply) combined ↔
      ((∃ text, read = .error text) ∧ (∃ text, reply = .error text) ∧
        after.visible = view.visible) ∨
      ∃ members : List Bytes, read = .set (members.map fun member => .bulkString (some member)) ∧
        reply = .integer members.length ∧
        after.visible db target =
          (if members = [] then none else some (.set members.toFinset, none)) ∧
        ∀ other key, ¬ (other = db ∧ key = target) →
          after.visible other key = view.visible other key := by
  subst hRead
  cases combined with
  | none =>
    constructor
    · intro hStored
      exact .inl ⟨⟨failure, rfl⟩, hStored⟩
    · rintro (⟨-, hStored⟩ | ⟨members, hRead, -⟩)
      · exact hStored
      · cases hRead
  | some set =>
    have hNone : order.list set = [] ↔ set = ∅ := by
      rw [← List.length_eq_zero_iff, order.length_list, Finset.card_eq_zero]
    constructor
    · rintro ⟨hReply, hTarget, hFrame⟩
      refine .inr ⟨order.list set, rfl, ?_, ?_, hFrame⟩
      · rw [order.length_list]
        exact hReply
      · simp only [hNone, order.toFinset_list]
        exact hTarget
    · rintro (⟨⟨text, hError⟩, -⟩ | ⟨members, hRead, hReply, hTarget, hFrame⟩)
      · cases hError
      · have hMembers : order.list set = members := by
          have hMaps := Value.set.inj hRead
          exact List.map_injective_iff.mpr (fun a b hItem => by simpa using hItem) hMaps
        subst hMembers
        simp only [hNone, order.toFinset_list] at hTarget
        rw [order.length_list] at hReply
        exact ⟨hReply, hTarget, hFrame⟩

/-- The *STORE commands agree with the commands that read, except that SINTERSTORE overlooks
a source of another type behind a missing one, and that SUNIONSTORE and SDIFFSTORE leave an
empty set where the target should be gone. -/
theorem storesWhatIsRead_iff (hMode : ∀ version, update.updateType ≠ .cas version)
    (hDb : update.dbNumber < s.count) (hFree : external = true → s.readersLocked = false) :
    StoresWhatIsRead lua s update external combination target sources ↔
      combination.StoresAsRead (sources.map (s.live update.dbNumber)) := by
  have hSettles : (doRequest update external (combination.store target sources)).Settles View.effect
      (fun after reply => (after, reply) =
        s.view.storeCombination update combination target sources) s.view :=
    (settles_storeCombination hMode hDb hFree).mpr rfl
  obtain ⟨failure, hReads⟩ := alwaysReplies_combination lua hDb combination sources
  change _ ↔ combination.StoresAsRead (sources.map (s.view.live update.dbNumber))
  rw [← View.stored_iff target]
  constructor
  · rintro ⟨⟨t, reply, hStore⟩, hAgree⟩
    obtain ⟨⟨u, read, hRead⟩, hReplies⟩ := hReads false
    obtain ⟨order, hOrder⟩ := hReplies u read hRead
    rw [← hStore.settles (shows_view lua) hSettles]
    exact (stored_iff_agree hOrder).mpr (hAgree t reply false u read hStore hRead)
  · intro hStored
    refine ⟨(shows_view lua).exists_run hSettles, ?_⟩
    intro t reply forScript u read hStore hRead
    obtain ⟨order, hOrder⟩ := (hReads forScript).2 u read hRead
    rw [← hStore.settles (shows_view lua) hSettles] at hStored
    exact (stored_iff_agree hOrder).mp hStored

/-- SUNIONSTORE t k where k is the set of a. -/
theorem storesWhatIsRead_union :
    StoresWhatIsRead LuaMachine.none (holding (.set {[97]})) ⟨0, 0, .none, false⟩ true .union
      [116] [[107]] := by
  have hMode (version : Nat) : UpdateType.none ≠ .cas version := nofun
  have hDb : 0 < (holding (.set {[97]})).count := by decide
  refine (storesWhatIsRead_iff hMode hDb fun _ => rfl).mpr (.inr ?_)
  refine ⟨some ⟨.new (.set {[97]}), none⟩, List.mem_singleton.mpr rfl, ?_⟩
  exact ⟨[97], Finset.mem_singleton_self _⟩

/-- With a missing key m and a string k: SINTER m k fails, SINTERSTORE t m k replies zero;
and SUNIONSTORE t m leaves an empty set. -/
theorem stores_otherwise_than_read :
    (∃ t u text, (machine LuaMachine.none).Runs (holding (.string [97]))
        (doRequest ⟨0, 0, .none, false⟩ true (Combination.inter.store [116] [[109], [107]])) t
        (.integer 0) ∧
      (machine LuaMachine.none).Runs (holding (.string [97]))
        (readRequest false 0 none (Combination.inter.read [[109], [107]])) u (.error text)) ∧
    ∃ t u, (machine LuaMachine.none).Runs (holding (.string [97]))
        (doRequest ⟨0, 0, .none, false⟩ true (Combination.union.store [116] [[109]])) t
        (.integer 0) ∧
      (machine LuaMachine.none).Runs (holding (.string [97]))
        (readRequest false 0 none (Combination.union.read [[109]])) u (.set []) ∧
      t.visible 0 [116] = some (.set ∅, none) := by
  refine ⟨⟨_, _, _, runs_quietly 20 rfl, runs_quietly 20 rfl⟩, ?_⟩
  exact ⟨_, _, runs_quietly 20 rfl, runs_quietly 20 rfl, rfl⟩

end
end Cache
end CacheCat
