import CacheCat.Cache.Replica

/-! The handlers agree with themselves on two nodes that are alike: in whichever
of the two modes each node runs, they ask alike queries and give equal replies. -/
namespace CacheCat.Cache

open Library (Agrees Comparison)
open Mocha (MochaOperation)

section

variable {Vm : Type} {vms : Vm → Vm → Prop} {scripts : Prop}

/-- A query whose answers can be compared across the nodes, asked on both. -/
theorem ask_agrees (query : Query) (hComparable : query.Comparable scripts) :
    Agrees (replicas vms scripts) (query.AnswersAlike query) (ask query) (ask query) :=
  .call (.same query hComparable)

variable (db : Nat) (key : Bytes)

theorem getEntry_agrees :
    Agrees (replicas vms scripts) (Option.Rel Entry.Same) (ask (.getEntry db key))
      (ask (.getEntry db key)) :=
  ask_agrees (.getEntry db key) trivial

section

variable {States : Type} {comparison : Comparison States Query Query.Answer}
  (hWider : comparison.Extends (replicas vms scripts)) {results : Value → Value → Prop}

include hWider

theorem withDatabase_extends (db : Nat) {missing missing' : Value} {body body' : Action Value}
    (hMissing : results missing missing') (hBody : Agrees comparison results body body') :
    Agrees comparison results (withDatabase db missing body) (withDatabase db missing' body') := by
  have hAsk : Agrees comparison Eq (ask .databaseCount) (ask .databaseCount) :=
    (ask_agrees .databaseCount trivial).extend hWider
  refine hAsk.bind fun count count' hCount => ?_
  cases hCount
  split
  · exact hBody
  · exact .done hMissing

theorem withReadersLocked_extends {body body' : Action Value}
    (hBody : Agrees comparison results body body') :
    Agrees comparison results (withReadersLocked body) (withReadersLocked body') := by
  refine ((ask_agrees .lockReaders trivial).extend hWider).bind fun _ _ _ => ?_
  refine hBody.bind fun _ _ hResults => ?_
  exact ((ask_agrees .unlockReaders trivial).extend hWider).bind fun _ _ _ => .done hResults

end

theorem withDatabase_agrees {results : Value → Value → Prop} {missing missing' : Value}
    {body body' : Action Value} (hMissing : results missing missing')
    (hBody : Agrees (replicas vms scripts) results body body') :
    Agrees (replicas vms scripts) results (withDatabase db missing body)
      (withDatabase db missing' body') :=
  withDatabase_extends (.refl _) db hMissing hBody

/-- Both stores take the same operation, if under versions of their own. -/
theorem store_agrees {operation operation' : MochaOperation MyValue}
    (hSame : SameOperation operation operation') :
    Agrees (replicas vms scripts) (fun _ _ => True) (store db key operation)
      (store db key operation') := by
  cases hSame with
  | insert hData expire =>
    exact .ask (Query.Alike.insert db key expire hData) fun _ _ _ => .done trivial
  | remove => exact (ask_agrees (.remove db key) trivial).bind fun _ _ _ => .done trivial
  | abort => exact .done trivial

/-! ### Write commands -/

variable {a b : Update}

/-- Either node may be building a snapshot and queue the request; its reply does not
show that. -/
theorem pushRequest_agrees (a b : Update) (request request' : BaseOperation)
    (version version' : Nat) :
    Agrees (replicas vms scripts) (fun _ _ => True) (pushRequest a request version)
      (pushRequest b request' version') := by
  unfold pushRequest
  split <;> split
  · exact .left trivial fun _ => .right trivial fun _ => .done trivial
  · exact .left trivial fun _ => .done trivial
  · exact .right trivial fun _ => .done trivial
  · exact .done trivial

/-- Neither node compares versions, so that both store the result and reply with it. -/
theorem finishCompute_agrees (hUpdate : a.Alike b) (request request' : BaseOperation) (key : Bytes)
    (current current' : Option Nat) {result result' : MochaOperation MyValue × Value}
    (hOperation : SameOperation result.1 result'.1) (hReply : result.2 = result'.2) :
    Agrees (replicas vms scripts) Eq (finishCompute a request key current result)
      (finishCompute b request' key current' result') := by
  unfold finishCompute
  split
  next hMode => exact absurd hMode (hUpdate.left _)
  split
  next hMode => exact absurd hMode (hUpdate.right _)
  rw [hUpdate.dbNumber]
  refine (store_agrees _ key hOperation).bind fun _ _ _ => ?_
  exact (pushRequest_agrees a b _ _ _ _).bind fun _ _ _ => .done hReply

theorem initCompute_agrees (command : ComputeCommand) :
    Agrees (replicas vms scripts) Eq (initCompute db command) (initCompute db command) := by
  unfold initCompute
  split
  · exact .done rfl
  · exact (store_agrees db _ (.refl _)).bind fun _ _ _ => .done rfl

/-- A command that does not look at versions computes the same from alike entries. -/
theorem executeCompute_agrees (hUpdate : a.Alike b) (request request' : BaseOperation)
    {command : ComputeCommand} (hBlind : command.VersionBlind) :
    Agrees (replicas vms scripts) Eq (executeCompute a request command)
      (executeCompute b request' command) := by
  unfold executeCompute
  rw [hUpdate.dbNumber]
  refine withDatabase_agrees _ rfl ((getEntry_agrees _ _).bind fun entry entry' hEntry => ?_)
  cases hEntry with
  | none => exact initCompute_agrees _ command
  | some hSame =>
    rw [hUpdate.writeClock]
    have hMutate := hBlind _ _ b.writeClock hSame
    exact finishCompute_agrees hUpdate _ _ _ _ _ hMutate.1 hMutate.2

theorem executeMultiReadCompute_agrees (hUpdate : a.Alike b) (request : BaseOperation)
    {command : MultiReadComputeCommand} (hBlind : command.VersionBlind) :
    Agrees (replicas vms scripts) Eq (executeMultiReadCompute a request command)
      (executeMultiReadCompute b request command) := by
  unfold executeMultiReadCompute
  rw [hUpdate.dbNumber]
  refine withDatabase_agrees _ rfl ?_
  refine (Agrees.mapM _ fun key => getEntry_agrees _ key).bind fun entries entries' hEntries => ?_
  rw [hUpdate.writeClock]
  have hMutate := hBlind _ _ b.writeClock hEntries
  split
  next hMode => exact absurd hMode (hUpdate.left _)
  split
  next hMode => exact absurd hMode (hUpdate.right _)
  exact finishCompute_agrees hUpdate _ _ _ _ _ hMutate.1 hMutate.2

/-! ### Removal -/

theorem pushRemoval_agrees (a b : Update) (request request' : BaseOperation) (key : Bytes) :
    Agrees (replicas vms scripts) (fun _ _ => True) (pushRemoval a request key)
      (pushRemoval b request' key) := by
  unfold pushRemoval
  split <;> split
  · exact .left trivial fun _ => .left trivial fun _ =>
      .right trivial fun _ => .right trivial fun _ => .done trivial
  · exact .left trivial fun _ => .left trivial fun _ => .done trivial
  · exact .right trivial fun _ => .right trivial fun _ => .done trivial
  · exact .done trivial

/-- DEL and UNLINK differ in how the entry leaves the map. -/
theorem removeKey_extends {States : Type} {comparison : Comparison States Query Query.Answer}
    (hWider : comparison.Extends (replicas vms scripts)) (hUpdate : a.Alike b)
    (request request' : BaseOperation) (key : Bytes) {remove remove' : Action Bool}
    (hRemove : Agrees comparison Eq remove remove') :
    Agrees comparison Eq (removeKey a request key remove) (removeKey b request' key remove') := by
  unfold removeKey
  rw [hUpdate.dbNumber]
  refine withDatabase_extends hWider _ rfl ?_
  split
  next hMode => exact absurd hMode (hUpdate.left _)
  split
  next hMode => exact absurd hMode (hUpdate.right _)
  refine ((pushRemoval_agrees a b request request' key).extend hWider).bind fun _ _ _ => ?_
  exact hRemove.bind fun found found' hFound => .done (congrArg existed hFound)

theorem del_agrees (hUpdate : a.Alike b) (req : DelReq) :
    Agrees (replicas vms scripts) Eq (del a req) (del b req) := by
  refine removeKey_extends (.refl _) hUpdate _ _ _ ?_
  rw [hUpdate.dbNumber]
  exact (ask_agrees (.remove _ _) trivial).bind fun _ _ hFound => .done hFound

theorem unlink_agrees (hUpdate : a.Alike b) (req : UnlinkReq) :
    Agrees (replicas vms scripts) Eq (unlink a req) (unlink b req) := by
  refine removeKey_extends (.refl _) hUpdate _ _ _ ?_
  rw [hUpdate.dbNumber]
  exact ask_agrees (.unlink _ _) trivial

theorem forEachDatabase_agrees {action : Nat → Action Unit}
    (hAction : ∀ db, Agrees (replicas vms scripts) (fun _ _ => True) (action db) (action db)) :
    Agrees (replicas vms scripts) (fun _ _ => True) (forEachDatabase action)
      (forEachDatabase action) := by
  refine (ask_agrees .databaseCount trivial).bind fun count count' hCount => ?_
  cases hCount
  exact Agrees.forM _ hAction

theorem flushDb_agrees (hUpdate : a.Alike b) (req : FlushDBReq) :
    Agrees (replicas vms scripts) Eq (flushDb a req) (flushDb b req) := by
  unfold flushDb
  rw [hUpdate.dbNumber]
  refine withReadersLocked_extends (.refl _) (withDatabase_agrees _ rfl ?_)
  refine (pushRequest_agrees a b _ _ _ _).bind fun _ _ _ => ?_
  exact (ask_agrees (.clear _) trivial).bind fun _ _ _ => .done rfl

theorem flushAll_agrees (a b : Update) (req : FlushAllReq) :
    Agrees (replicas vms scripts) Eq (flushAll a req) (flushAll b req) := by
  refine withReadersLocked_extends (.refl _) ((pushRequest_agrees a b _ _ _ _).bind fun _ _ _ => ?_)
  refine (forEachDatabase_agrees fun db => ask_agrees (.clear db) trivial).bind fun _ _ _ => ?_
  exact .done rfl

end

/-! ### Reads -/

/-- The reply is made from the data and the deadline. -/
def ReadCommand.VersionBlind (command : ReadCommand) : Prop :=
  ∀ a b, Option.Rel Entry.Same a b → command.execute a = command.execute b

def MultiReadCommand.VersionBlind (command : MultiReadCommand) : Prop :=
  ∀ a b, List.Forall₂ (Option.Rel Entry.Same) a b → command.execute a = command.execute b

/-- It is enough to compare an entry with itself under another version. -/
theorem ReadCommand.versionBlind_of {command : ReadCommand}
    (h : ∀ (data : ValueObject) (expireAt : Option Nat) (v w : Nat),
      command.execute (some ⟨⟨v, data⟩, expireAt⟩) = command.execute (some ⟨⟨w, data⟩, expireAt⟩)) :
    command.VersionBlind := by
  intro a b hSame
  cases hSame with
  | none => rfl
  | @some a b hSame =>
    obtain ⟨⟨v, data⟩, expireAt⟩ := a
    obtain ⟨⟨w, data'⟩, expireAt'⟩ := b
    obtain ⟨hData, hExpire⟩ := hSame
    cases hData
    cases hExpire
    exact h data expireAt v w

variable {a b : List (Option Entry)}

/-- A loop over the entries that looks at data and deadlines only. -/
theorem foldlM_same {Result : Type} {step : Result → Option Entry → Option Result}
    (hStep : ∀ result a b, Option.Rel Entry.Same a b → step result a = step result b)
    (hSame : List.Forall₂ (Option.Rel Entry.Same) a b) (result : Result) :
    a.foldlM step result = b.foldlM step result := by
  induction hSame generalizing result with
  | nil => rfl
  | cons hHead _ ih => simp [hStep _ _ _ hHead, ih]

theorem exists_same (hSame : List.Forall₂ (Option.Rel Entry.Same) a b) :
    ExistsParams.execute a = ExistsParams.execute b := by
  have hCount : a.countP Option.isSome = b.countP Option.isSome := by
    induction hSame with
    | nil => rfl
    | cons hHead _ ih =>
      cases hHead with
      | none | some _ => simpa using ih
  simp only [ExistsParams.execute, hCount]

theorem getReply_same {a b : Option Entry} (hSame : Option.Rel Entry.Same a b) :
    getReply a = getReply b := by
  cases hSame with
  | none => rfl
  | some hSame => simp only [getReply, hSame.1]

theorem mget_same (hSame : List.Forall₂ (Option.Rel Entry.Same) a b) :
    MgetParams.execute a = MgetParams.execute b := by
  have hReplies : a.map getReply = b.map getReply := by
    induction hSame with
    | nil => rfl
    | cons hHead _ ih => simp [getReply_same hHead, ih]
  simp only [MgetParams.execute, hReplies]

theorem sInter_same (hSame : List.Forall₂ (Option.Rel Entry.Same) a b)
    (results : Option (Finset Bytes)) :
    SInterParams.intersect results a = SInterParams.intersect results b := by
  induction hSame generalizing results with
  | nil => rfl
  | cons hHead _ ih =>
    cases hHead with
    | none => exact ih _
    | some hSame => simp only [SInterParams.intersect, hSame.1, ih]

theorem subtract_same (results : Finset Bytes) (a b : Option Entry)
    (hSame : Option.Rel Entry.Same a b) : subtract results a = subtract results b := by
  cases hSame with
  | none => rfl
  | some hSame => simp [subtract, hSame.1]

section

variable (hSame : List.Forall₂ (Option.Rel Entry.Same) a b)

include hSame

theorem sDiff_same (order : HashOrder) :
    SDiffParams.execute order a = SDiffParams.execute order b := by
  cases hSame with
  | nil => rfl
  | cons hHead hRest =>
    have hFold := foldlM_same subtract_same hRest
    cases hHead with
    | none => simp only [SDiffParams.execute, differenceOf, hFold]
    | some hSame => simp only [SDiffParams.execute, differenceOf, Option.elim_some, hSame.1, hFold]

theorem union_same : unionOf a = unionOf b := by
  refine foldlM_same (fun results a b hSame => ?_) hSame ∅
  cases hSame with
  | none => rfl
  | some hSame => simp [hSame.1]

theorem pfCount_union_same (hll : RedisHll) :
    PfcountParams.union hll a = PfcountParams.union hll b := by
  induction hSame generalizing hll with
  | nil => rfl
  | cons hHead _ ih =>
    cases hHead with
    | none => exact ih _
    | some hSame => simp only [PfcountParams.union, PfcountParams.rawOf, hSame.1, ih]

end

theorem pfCount_same (params : PfcountParams) (hSame : List.Forall₂ (Option.Rel Entry.Same) a b) :
    params.execute a = params.execute b := by
  have hSingle : PfcountParams.single a.head?.join = PfcountParams.single b.head?.join := by
    cases hSame with
    | nil => rfl
    | cons hHead _ =>
      cases hHead with
      | none => rfl
      | some hSame =>
        simp only [List.head?_cons, Option.join_some, PfcountParams.single,
          PfcountParams.rawOf, hSame.1]
  simp only [PfcountParams.execute, hSingle, pfCount_union_same hSame]

def ReadHandler.VersionBlind : ReadHandler → Prop
  | .one command => command.VersionBlind
  | .many command => command.VersionBlind
  | .keys _ => True
  | .dbSize => True

/-- No read replies with the version of an entry. -/
theorem readHandler_versionBlind (operation : ReadOperation) :
    (readHandler operation).VersionBlind := by
  cases operation with
  | «exists» params => exact fun a b hSame => funext fun _ => exists_same hSame
  | mGet params => exact fun a b hSame => funext fun _ => mget_same hSame
  | sInter params | sUnion params =>
    intro a b hSame
    simp only [SInterParams.execute, sInter_same hSame, SUnionParams.execute, union_same hSame]
  | sDiff params => exact fun a b hSame => funext fun env => sDiff_same hSame env.order
  | pfCount params => exact fun a b hSame => funext fun _ => pfCount_same params hSame
  | keys params | dbSize params => trivial
  | _ => exact ReadCommand.versionBlind_of fun _ _ _ _ => rfl

section

variable {Vm : Type} {vms : Vm → Vm → Prop} {scripts : Prop}

theorem getWithReadClock_agrees (db : Nat) (key : Bytes) (readClock : Option Nat) :
    Agrees (replicas vms scripts) (Option.Rel Entry.Same) (getWithReadClock db key readClock)
      (getWithReadClock db key readClock) := by
  refine (getEntry_agrees db key).bind fun a b hEntry =>
    .done (rel_filter (fun a b hSame => ?_) hEntry)
  rw [expired_congr hSame.2]

/-- A read of alike entries, given how the replies and the size of a database compare. -/
theorem readRequest_extends {States : Type} {comparison : Comparison States Query Query.Answer}
    (hWider : comparison.Extends (replicas vms scripts)) {results : Value → Value → Prop}
    {forScript : Bool} (db : Nat) (readClock : Option Nat) {operation : ReadOperation}
    (hSame : ∀ reply, results reply reply)
    (hReply : ∀ execute, Agrees comparison results (ask (.reply forScript execute))
      (ask (.reply forScript execute)))
    (hSize : readHandler operation = .dbSize → Agrees comparison results
      (do return .integer (← ask (.len forScript db)))
      (do return .integer (← ask (.len forScript db)))) :
    Agrees comparison results (readRequest forScript db readClock operation)
      (readRequest forScript db readClock operation) := by
  have hBlind := readHandler_versionBlind operation
  unfold readRequest
  cases hHandler : readHandler operation with
  | one command =>
    rw [hHandler] at hBlind
    refine withDatabase_extends hWider _ (hSame _) ?_
    refine ((getWithReadClock_agrees db _ readClock).extend hWider).bind fun a b hEntry => ?_
    rw [hBlind a b hEntry]
    exact hReply _
  | many command =>
    rw [hHandler] at hBlind
    refine withDatabase_extends hWider _ (hSame _) ?_
    refine ((Agrees.mapM _ fun key => getWithReadClock_agrees db key readClock).extend hWider).bind
      fun a b hEntries => ?_
    rw [hBlind a b hEntries]
    exact hReply _
  | keys params =>
    refine withDatabase_extends hWider _ (hSame _) ?_
    refine ((ask_agrees (.liveKeys db readClock) trivial).extend hWider).bind
      fun live live' hLive => ?_
    cases hLive
    split
    · exact ((ask_agrees .panic trivial).extend hWider).bind fun absurd => nomatch absurd
    · exact hReply _
  | dbSize => exact withDatabase_extends hWider _ (hSame _) (hSize hHandler)

/-- The replies to a script are equal; others may show the node's order and size. -/
theorem readRequest_agrees {forScript : Bool} (hLabel : forScript = true → scripts) (db : Nat)
    (readClock : Option Nat) (operation : ReadOperation) :
    Agrees (replicas vms scripts) (fun a b => forScript = true → a = b)
      (readRequest forScript db readClock operation)
      (readRequest forScript db readClock operation) := by
  refine readRequest_extends (.refl _) db readClock (fun _ _ => rfl)
    (fun execute => ask_agrees (.reply forScript execute) hLabel) fun _ => ?_
  refine (ask_agrees (.len forScript db) hLabel).bind fun size size' hSize =>
    .done fun hScript => ?_
  rw [hSize hScript]

end
end CacheCat.Cache
