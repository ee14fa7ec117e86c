import CacheCat.Cache.Effect

/-! The commands that create a collection. A missing key and an empty collection are
treated by two paths of a command; they agree if the elements of the request come in
an order, and in a number, that does not show which path was taken. -/
namespace CacheCat

/-! ### Counting what is new -/

section

variable {Store Element Key : Type} {step : Store × Nat → Element → Store × Nat}
    {holds : Store → Key → Prop} {key : Element → Key}

/-- Each round counts its element if the key is new, and adds the key. -/
structure CountsNew (step : Store × Nat → Element → Store × Nat) (holds : Store → Key → Prop)
    (key : Element → Key) : Prop where
  again : ∀ store count element, holds store (key element) → (step (store, count) element).2 = count
  new : ∀ store count element, ¬ holds store (key element) →
    (step (store, count) element).2 = count + 1
  holds_iff : ∀ store count element k,
    holds (step (store, count) element).1 k ↔ k = key element ∨ holds store k

theorem CountsNew.le (hStep : CountsNew step holds key) (elements : List Element) (store : Store)
    (count : Nat) : (elements.foldl step (store, count)).2 ≤ count + elements.length := by
  induction elements generalizing store count with
  | nil => exact le_refl _
  | cons element elements ih =>
    rcases hAfter : step (store, count) element with ⟨after, total⟩
    have hRest := ih after total
    have hTotal : total ≤ count + 1 := by
      by_cases hHolds : holds store (key element)
      · have hAgain := hStep.again store count element hHolds
        rw [hAfter] at hAgain
        omega
      · have hNew := hStep.new store count element hHolds
        rw [hAfter] at hNew
        omega
    rw [List.foldl_cons, List.length_cons, hAfter]
    omega

/-- Every element is counted exactly if no key is repeated or already there. -/
theorem CountsNew.eq_iff (hStep : CountsNew step holds key) (elements : List Element)
    (store : Store) (count : Nat) :
    (elements.foldl step (store, count)).2 = count + elements.length ↔
      (elements.map key).Nodup ∧ ∀ k ∈ elements.map key, ¬ holds store k := by
  induction elements generalizing store count with
  | nil => simp
  | cons element elements ih =>
    rcases hAfter : step (store, count) element with ⟨after, total⟩
    have hHolds := hStep.holds_iff store count element
    rw [List.foldl_cons, List.length_cons, hAfter]
    by_cases hOld : holds store (key element)
    · have hTotal : total = count := by simpa [hAfter] using hStep.again store count element hOld
      have hLe := hStep.le elements after total
      simp only [List.map_cons, List.mem_cons, forall_eq_or_imp, hOld, not_true_eq_false,
        false_and, and_false, iff_false]
      omega
    · have hTotal : total = count + 1 := by simpa [hAfter] using hStep.new store count element hOld
      grind

end

theorem SAddReq.countsNew : CountsNew SAddReq.insertMember (fun set member => member ∈ set) id where
  again store count member hHolds := if_pos hHolds
  new store count member hNew := if_neg hNew
  holds_iff store count member k := by simp [SAddReq.insertMember]

theorem HSetReq.countsNew :
    CountsNew HSetReq.insertField (fun map field => field ∈ map) Prod.fst where
  again store count element hHolds := by simp_all [HSetReq.insertField, Finmap.lookup_eq_none]
  new store count element hNew := by simp_all [HSetReq.insertField, Finmap.lookup_eq_none]
  holds_iff store count element k := by simp [HSetReq.insertField]

theorem SortedSet.zincrby_new_eq_none_iff (member : Bytes) (increment : Float) :
    SortedSet.new.zincrby member increment = none ↔ (0 + increment).isNaN = true := by
  have hNew : SortedSet.new.zincrby member increment =
      if (0 + increment).isNaN then none
      else some (⟨treeInsert (0 + increment, member) [], Finmap.insert member (0 + increment) ∅⟩,
        0 + increment) := rfl
  rw [hNew]
  cases (0 + increment).isNaN with
  | false => exact iff_of_false nofun nofun
  | true => exact iff_of_true rfl rfl

/-! ### The two paths -/

namespace BaseOperation

/-- The empty collection of the kind that the operation creates. -/
def emptyCollection : BaseOperation → Option ValueObject
  | .lPush _ | .rPush _ => some (.list [])
  | .sAdd _ => some (.set ∅)
  | .hSet _ | .hMSet _ | .hSetNx _ | .hIncr _ => some (.hash ∅)
  | .zAdd _ | .zIncrBy _ => some (.zset .new)
  | _ => none

/-- The arguments do not show which path was taken. A NaN has no score, and the
refusal is put in different words. -/
def PathBlind : BaseOperation → Prop
  | .lPush req => req.elements.reverse = req.elements
  | .sAdd req => req.elements.Nodup
  | .hSet req => (req.elements.map Prod.fst).Nodup
  | .zIncrBy req => (0 + req.increment).isNaN = false
  | _ => True

end BaseOperation

namespace Cache

variable {Vm : Type}

/-- The operation gives the same reply and leaves the same under the key, whether it finds
`s` or `s'`. -/
def SameOutcome (lua : LuaMachine Vm) (s s' : State Vm) (update : Update)
    (operation : BaseOperation) (key : Bytes) : Prop :=
  (∃ t reply, (machine lua).Runs s (baseRequest update operation) t reply) ∧
  (∃ t reply, (machine lua).Runs s' (baseRequest update operation) t reply) ∧
  ∀ t t' reply reply', (machine lua).Runs s (baseRequest update operation) t reply →
    (machine lua).Runs s' (baseRequest update operation) t' reply' →
    reply = reply' ∧ t.visible update.dbNumber key = t'.visible update.dbNumber key

section

variable {lua : LuaMachine Vm} {s s' : State Vm} {update : Update} {order : HashOrder}
    {operation : BaseOperation} {command : ComputeCommand} {version : Nat} {empty : ValueObject}

/-- Both runs are decided by the views that they find. -/
theorem sameOutcome_iff (hCommand : operation.computeCommand order = some command)
    (hMode : ∀ version, update.updateType ≠ .cas version) (hDb : update.dbNumber < s.count)
    (hDb' : update.dbNumber < s'.count) (key : Bytes) :
    SameOutcome lua s s' update operation key ↔
      (s.view.compute update command).2 = (s'.view.compute update command).2 ∧
      (s.view.compute update command).1.visible update.dbNumber key =
        (s'.view.compute update command).1.visible update.dbNumber key := by
  have hRuns (s : State Vm) (hDb : update.dbNumber < s.count) :
      (machine lua).EveryRun s (baseRequest update operation) fun t reply =>
        t.view = (s.view.compute update command).1 ∧ reply = (s.view.compute update command).2 :=
    (everyRun_write (fun after reply => after = _ ∧ reply = _) hCommand hMode hDb).mpr ⟨rfl, rfl⟩
  have hShown (t : State Vm) (key : Bytes) :
      t.visible update.dbNumber key = t.view.visible update.dbNumber key := rfl
  constructor
  · rintro ⟨⟨t, reply, hRun⟩, ⟨t', reply', hRun'⟩, hSame⟩
    obtain ⟨hView, rfl⟩ := (hRuns s hDb).2 t reply hRun
    obtain ⟨hView', rfl⟩ := (hRuns s' hDb').2 t' reply' hRun'
    have hBoth := hSame _ _ _ _ hRun hRun'
    rw [hShown, hShown, hView, hView'] at hBoth
    exact hBoth
  · intro hBoth
    refine ⟨(hRuns s hDb).1, (hRuns s' hDb').1, fun t t' reply reply' hRun hRun' => ?_⟩
    obtain ⟨hView, rfl⟩ := (hRuns s hDb).2 t reply hRun
    obtain ⟨hView', rfl⟩ := (hRuns s' hDb').2 t' reply' hRun'
    rw [hShown, hShown, hView, hView']
    exact hBoth

/-- `s'` is `s` with an empty persistent collection under a missing key. -/
structure HoldsEmpty (s s' : State Vm) (db : Nat) (key : Bytes) (empty : ValueObject) : Prop where
  missing : s.live db key = none
  view_eq : ∃ version, s'.view = s.view.put db key ⟨⟨version, empty⟩, none⟩

theorem HoldsEmpty.live {db : Nat} {key : Bytes} (hEmpty : HoldsEmpty s s' db key empty) :
    ∃ version, s'.view.live db key = some ⟨⟨version, empty⟩, none⟩ := by
  obtain ⟨version, hView⟩ := hEmpty.view_eq
  refine ⟨version, ?_⟩
  simp [hView, View.put_live, Mocha.EntrySnapshot.expired, Option.filter_some]

theorem HoldsEmpty.count {db : Nat} {key : Bytes} (hEmpty : HoldsEmpty s s' db key empty) :
    s'.count = s.count := by
  obtain ⟨version, hView⟩ := hEmpty.view_eq
  exact congrArg View.count hView

/-- Both paths make a collection: it remains to compare the collections and the replies. -/
theorem sameOutcome_iff_of_contents {content content' : ValueObject} {reply reply' : Value}
    (hCommand : operation.computeCommand order = some command)
    (hMode : ∀ version, update.updateType ≠ .cas version) (hDb : update.dbNumber < s.count)
    (hEmpty : HoldsEmpty s s' update.dbNumber command.key empty)
    (hInit : command.init = (.insert (.new content) .persistent, reply))
    (hMutate : ∀ version, command.mutate ⟨⟨version, empty⟩, none⟩ update.writeClock =
      (.insert ⟨version, content'⟩ .persistent, reply')) :
    SameOutcome lua s s' update operation command.key ↔ reply = reply' ∧ content = content' := by
  obtain ⟨version, hLive⟩ := hEmpty.live
  have hMissing : s.view.live update.dbNumber command.key = none := hEmpty.missing
  obtain ⟨hReply, hShown⟩ := compute_of_missing hMissing hInit
  have hShown' := s'.view_unexpired.compute_keep hLive (hMutate version)
  rw [sameOutcome_iff hCommand hMode hDb (hEmpty.count ▸ hDb), hReply, hShown, hShown',
    View.compute_of_live hLive (hMutate version)]
  simp

/-- A missing key is treated as an empty collection exactly if the arguments do not show
the path: LPUSH keeps the order of its elements when it creates a list, and SADD and HSET
then count repeated members and fields. -/
theorem creates_as_updating_iff (hCommand : operation.computeCommand order = some command)
    (hCreates : operation.emptyCollection = some empty)
    (hMode : ∀ version, update.updateType ≠ .cas version) (hDb : update.dbNumber < s.count)
    (hEmpty : HoldsEmpty s s' update.dbNumber command.key empty) :
    SameOutcome lua s s' update operation command.key ↔ operation.PathBlind := by
  have hIff {content content' : ValueObject} {reply reply' : Value} :=
    @sameOutcome_iff_of_contents _ lua _ _ _ _ _ _ _ content content' reply reply' hCommand
      hMode hDb hEmpty
  have hReplies (hSame : SameOutcome lua s s' update operation command.key) :
      (s.view.compute update command).2 = (s'.view.compute update command).2 :=
    ((sameOutcome_iff hCommand hMode hDb (hEmpty.count ▸ hDb) _).mp hSame).1
  cases operation <;> obtain ⟨⟩ := hCommand <;> obtain ⟨⟩ := hCreates
  case lPush req =>
    rw [hIff rfl fun version => rfl]
    have hReversed : req.elements.foldl (fun list element => element :: list) [] =
        req.elements.reverse := by simp
    rw [hReversed]
    simp [BaseOperation.PathBlind, eq_comm]
  case rPush req =>
    have hAppended : req.elements.foldl (fun list element => list ++ [element]) [] =
        req.elements := by
      rw [List.foldl_append_eq_append, ← List.flatMap_def, List.flatMap_singleton']
      rfl
    rw [hIff rfl fun version => rfl]
    simp only [hAppended]
    exact iff_of_true ⟨trivial, trivial⟩ trivial
  case sAdd req | hSet req =>
    rw [hIff rfl fun version => rfl]
    first
      | have hCount := SAddReq.countsNew.eq_iff req.elements ∅ 0
      | have hCount := HSetReq.countsNew.eq_iff req.elements ∅ 0
    simpa [BaseOperation.PathBlind, eq_comm, Int.ofNat_inj, Finmap.notMem_empty] using hCount
  case hMSet req | zAdd req | hSetNx req | hIncr req =>
    exact iff_of_true ((hIff rfl fun version => rfl).mpr ⟨rfl, rfl⟩) trivial
  case zIncrBy req =>
    have hScore := SortedSet.zincrby_new_eq_none_iff req.member req.increment
    cases hNew : SortedSet.new.zincrby req.member req.increment with
    | none =>
      -- the missing key gets the text of the dispatcher
      have hMissing : s.view.live update.dbNumber req.key = none := hEmpty.missing
      obtain ⟨version, hLive⟩ := hEmpty.live
      have hLive : s'.view.live update.dbNumber req.key = _ := hLive
      have hNaN := hScore.mp hNew
      have hBlind : ¬ (0 + req.increment).isNaN = false := by rw [hNaN]; decide
      refine iff_of_false (fun hSame => ?_) hBlind
      have hReply := hReplies hSame
      simp [View.compute, ZIncrByReq.computeCommand, collectionCommand, hMissing, hLive, hNew,
        ValueObject.asZSet, keyNotFound, ZIncrByReq.notANumber] at hReply
    | some result =>
      obtain ⟨zset, score⟩ := result
      have hInit : req.computeCommand.init =
          (.insert (.new (.zset zset)) .persistent, .double score) := by
        simp [ZIncrByReq.computeCommand, collectionCommand, hNew]
      have hMutate (version : Nat) :
          req.computeCommand.mutate ⟨⟨version, .zset .new⟩, none⟩ update.writeClock =
            (.insert ⟨version, .zset zset⟩ .persistent, .double score) := by
        simp [ZIncrByReq.computeCommand, collectionCommand, hNew, ValueObject.asZSet,
          Outcome.operation, Mocha.EntrySnapshot.getExpirePolicy]
      refine iff_of_true ((hIff hInit hMutate).mpr ⟨rfl, rfl⟩)
        (Bool.eq_false_of_not_eq_true fun hNaN => ?_)
      rw [hScore.mpr hNaN] at hNew
      cases hNew

end

theorem holdsEmpty_holding (empty : ValueObject) :
    HoldsEmpty (State.new 1 ()) (holding empty) 0 [107] empty :=
  ⟨rfl, 1, view_setDatabase_of_live _ rfl rfl rfl fun other k =>
    (State.new 1 ()).live_insert 0 other [107] k _⟩

/-- SADD k a b. -/
theorem creates_as_updating_sAdd :
    SameOutcome LuaMachine.none (State.new 1 ()) (holding (.set ∅)) ⟨0, 0, .none, false⟩
      (.sAdd ⟨[107], [[97], [98]]⟩) [107] := by
  have hCommand : BaseOperation.computeCommand .sorted (.sAdd ⟨[107], [[97], [98]]⟩) =
      some (SAddReq.computeCommand ⟨[107], [[97], [98]]⟩) := rfl
  have hMode (version : Nat) : UpdateType.none ≠ .cas version := nofun
  have hDistinct : ([[97], [98]] : List Bytes).Nodup := by decide
  exact (creates_as_updating_iff hCommand rfl hMode (by decide) (holdsEmpty_holding _)).mpr
    hDistinct

/-- LPUSH k a b c makes the list a, b, c of a missing key, and c, b, a of an empty list;
SADD k a a is answered with two and with one. -/
theorem creates_unlike_updating :
    (∃ t t' reply reply', (machine LuaMachine.none).Runs (State.new 1 ())
        (baseRequest ⟨0, 0, .none, false⟩ (.lPush ⟨[107], [[97], [98], [99]]⟩)) t reply ∧
      (machine LuaMachine.none).Runs (holding (.list []))
        (baseRequest ⟨0, 0, .none, false⟩ (.lPush ⟨[107], [[97], [98], [99]]⟩)) t' reply' ∧
      t.visible 0 [107] = some (.list [[97], [98], [99]], none) ∧
      t'.visible 0 [107] = some (.list [[99], [98], [97]], none)) ∧
    ∃ t t', (machine LuaMachine.none).Runs (State.new 1 ())
        (baseRequest ⟨0, 0, .none, false⟩ (.sAdd ⟨[107], [[97], [97]]⟩)) t (.integer 2) ∧
      (machine LuaMachine.none).Runs (holding (.set ∅))
        (baseRequest ⟨0, 0, .none, false⟩ (.sAdd ⟨[107], [[97], [97]]⟩)) t' (.integer 1) := by
  refine ⟨⟨_, _, _, _, runs_quietly 10 rfl, runs_quietly 10 rfl, rfl, rfl⟩, ?_⟩
  exact ⟨_, _, runs_quietly 10 rfl, runs_quietly 10 rfl⟩

end Cache
end CacheCat
