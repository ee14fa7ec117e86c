import CacheCat.Cache.Agreement
import CacheCat.Cache.Conduct

/-! Operations agree with themselves on two nodes that are alike: the single
handlers, the commands made of several of them, transactions, and, as far as the
two Lua machines can be compared, scripts. -/
namespace CacheCat.Cache

open Library (Agrees Comparison)

theorem ExistingKey.ofEntry_same {a b : Option Entry} (hSame : Option.Rel Entry.Same a b) :
    ExistingKey.ofEntry a = ExistingKey.ofEntry b := by
  cases hSame with
  | none => rfl
  | some hSame => simp only [ofEntry, hSame.1]

section

variable {Vm : Type} {vms : Vm → Vm → Prop} {scripts : Prop} {a b : Update}

theorem lockIf_extends {States : Type} {comparison : Comparison States Query Query.Answer}
    (hWider : comparison.Extends (replicas vms scripts)) {results : Value → Value → Prop}
    (external : Bool) {body body' : Action Value} (hBody : Agrees comparison results body body') :
    Agrees comparison results (lockIf external body) (lockIf external body') := by
  unfold lockIf
  split
  · exact withReadersLocked_extends hWider hBody
  · exact hBody

theorem lockIf_agrees {results : Value → Value → Prop} (external : Bool)
    {body body' : Action Value} (hBody : Agrees (replicas vms scripts) results body body') :
    Agrees (replicas vms scripts) results (lockIf external body) (lockIf external body') :=
  lockIf_extends (.refl _) external hBody

theorem removeKeys_agrees {States : Type} {comparison : Comparison States Query Query.Answer}
    {remove remove' : Bytes → Action Value}
    (hRemove : ∀ key, Agrees comparison Eq (remove key) (remove' key)) (keys : List Bytes)
    (count : Int) :
    Agrees comparison Eq (removeKeys remove keys count) (removeKeys remove' keys count) := by
  induction keys generalizing count with
  | nil => exact .done rfl
  | cons key keys ih =>
    refine (hRemove key).bind fun reply reply' hReply => ?_
    cases hReply
    split
    · exact .done rfl
    · exact ih _
    · exact ih _

theorem combineSets_agrees (db : Nat) (combine : Finset Bytes → Finset Bytes → Finset Bytes)
    (keys : List Bytes) (results : Finset Bytes) :
    Agrees (replicas vms scripts) Eq (combineSets db combine keys results)
      (combineSets db combine keys results) := by
  induction keys generalizing results with
  | nil => exact .done rfl
  | cons key keys ih =>
    refine (getEntry_agrees db key).bind fun entry entry' hEntry => ?_
    cases hEntry with
    | none => exact ih results
    | some hSame =>
      simp only [hSame.1]
      split
      · exact .done rfl
      · exact ih _

variable (hUpdate : a.Alike b)

include hUpdate

/-! ### Single handlers -/

theorem baseRequest_agrees (operation : BaseOperation) :
    Agrees (replicas vms scripts) Eq (baseRequest a operation) (baseRequest b operation) := by
  cases operation with
  | empty =>
    refine (forEachDatabase_agrees fun db => ask_agrees (.activeExpireCycle db) trivial).bind ?_
    exact fun _ _ _ => .done rfl
  | set req | append req | persist req | insert req | setBit req | bitField req | pfAdd req =>
    exact executeCompute_agrees hUpdate _ _ req.versionBlind
  | expire req | pExpire req =>
    exact executeCompute_agrees hUpdate _ _ (expireCommand_versionBlind _ _ _)
  | incr req | incrBy req | decr req | decrBy req =>
    exact executeCompute_agrees hUpdate _ _ (counterCommand_versionBlind _ _ _)
  | del req => exact del_agrees hUpdate req
  | unlink req => exact unlink_agrees hUpdate req
  | flushDB req => exact flushDb_agrees hUpdate req
  | flushAll req => exact flushAll_agrees a b req
  | sInterStore req => exact executeMultiReadCompute_agrees hUpdate _ req.versionBlind
  | sPop req =>
    -- the candidates are sorted, so the order of iteration is lost
    refine (ask_agrees .environment trivial).bind fun env env' _ => ?_
    rw [req.computeCommand_order env.order env'.order]
    exact executeCompute_agrees hUpdate _ _ (collectionCommand_versionBlind _ _ _ _ _ _)
  | _ => exact executeCompute_agrees hUpdate _ _ (collectionCommand_versionBlind _ _ _ _ _ _)

/-! ### Commands made of several handlers -/

theorem set_agrees (req : SetReq) (reply : Value) :
    Agrees (replicas vms scripts) Eq (set a req >>= fun _ => .done reply)
      (set b req >>= fun _ => .done reply) :=
  (executeCompute_agrees hUpdate _ _ req.versionBlind).bind fun _ _ _ => .done rfl

theorem finishSet_agrees (params : SetParams) (expiresAt : Nat) (existing : ExistingKey) :
    Agrees (replicas vms scripts) Eq (finishSet a params expiresAt existing)
      (finishSet b params expiresAt existing) := by
  have hPerform : Agrees (replicas vms scripts) Eq (performSet a params expiresAt existing)
      (performSet b params expiresAt existing) := set_agrees hUpdate _ _
  unfold finishSet
  repeat' split
  all_goals first | exact hPerform | exact .done rfl

theorem lookupForSet_agrees (params : SetParams) (expiresAt : Nat) (existing : ExistingKey) :
    Agrees (replicas vms scripts) Eq (lookupForSet a params expiresAt existing)
      (lookupForSet b params expiresAt existing) := by
  unfold lookupForSet
  rw [hUpdate.dbNumber]
  split
  · refine withDatabase_agrees _ rfl ((getEntry_agrees _ _).bind fun entry entry' hEntry => ?_)
    rw [ExistingKey.ofEntry_same hEntry]
    exact finishSet_agrees hUpdate params expiresAt _
  · exact finishSet_agrees hUpdate params expiresAt existing

theorem redisSet_agrees (params : SetParams) :
    Agrees (replicas vms scripts) Eq (redisSet a params) (redisSet b params) := by
  unfold redisSet
  rw [hUpdate.dbNumber, hUpdate.writeClock]
  split
  · refine withDatabase_agrees _ rfl ((getEntry_agrees _ _).bind fun entry entry' hEntry => ?_)
    have hExpire : entry.bind (·.expireAt) = entry'.bind (·.expireAt) := by
      cases hEntry with
      | none => rfl
      | some hSame => exact hSame.2
    rw [ExistingKey.ofEntry_same hEntry, hExpire]
    exact lookupForSet_agrees hUpdate params _ _
  · exact lookupForSet_agrees hUpdate params _ _
  · exact lookupForSet_agrees hUpdate params _ _

theorem moveEntry_agrees (key newKey : Bytes) {entry entry' : Entry}
    (hSame : Entry.Same entry entry') (reply : Value) :
    Agrees (replicas vms scripts) Eq (moveEntry a key newKey entry reply)
      (moveEntry b key newKey entry' reply) := by
  unfold moveEntry
  rw [hSame.1, hSame.2]
  refine (del_agrees hUpdate _).bind fun _ _ _ => ?_
  exact (executeCompute_agrees hUpdate _ _ (InsertReq.versionBlind _)).bind fun _ _ _ => .done rfl

theorem storeSet_agrees (key : Bytes) (results : Finset Bytes) :
    Agrees (replicas vms scripts) Eq (storeSet a key results) (storeSet b key results) := by
  unfold storeSet
  rw [hUpdate.dbNumber]
  refine (ask_agrees .environment trivial).bind fun env env' _ => ?_
  -- the members are listed in different orders, but make the same set
  have hAdd : Agrees (replicas vms scripts) Eq
      (executeCompute a (.sAdd ⟨key, env.order.list results⟩)
        (SAddReq.computeCommand ⟨key, env.order.list results⟩))
      (executeCompute b (.sAdd ⟨key, env'.order.list results⟩)
        (SAddReq.computeCommand ⟨key, env'.order.list results⟩)) := by
    rw [SAddReq.computeCommand_perm key (env.order.perm_list env'.order results)]
    exact executeCompute_agrees hUpdate _ _ (collectionCommand_versionBlind _ _ _ _ _ _)
  refine (getEntry_agrees _ _).bind fun target target' hTarget => ?_
  cases hTarget with
  | none => exact hAdd
  | some _ => exact (del_agrees hUpdate _).bind fun _ _ _ => hAdd

theorem storeCombined_agrees (combine : Finset Bytes → Finset Bytes → Finset Bytes) (key : Bytes)
    (keys : List Bytes) (start : Finset Bytes) :
    Agrees (replicas vms scripts) Eq
      (do
        match ← combineSets b.dbNumber combine keys start with
        | none => return notASet
        | some results => storeSet a key results)
      (do
        match ← combineSets b.dbNumber combine keys start with
        | none => return notASet
        | some results => storeSet b key results) := by
  refine (combineSets_agrees _ _ _ _).bind fun results results' hResults => ?_
  cases hResults
  split
  · exact .done rfl
  · exact storeSet_agrees hUpdate _ _

theorem storeDifference_agrees (key : Bytes) (others : List Bytes) (first : Option (Finset Bytes)) :
    Agrees (replicas vms scripts) Eq (storeDifference a key others first)
      (storeDifference b key others first) := by
  cases first with
  | none => exact .done rfl
  | some first =>
    unfold storeDifference
    rw [hUpdate.dbNumber]
    exact storeCombined_agrees hUpdate _ _ _ _

/-! ### Scripts and dispatch -/

/-- The commands that neither run a script nor a transaction. -/
theorem plainRequest_agrees (external : Bool) {operation : RedisOperation}
    (hPlain : redisIsPlain operation = true) :
    Agrees (replicas vms scripts) Eq (redisRequest a external operation)
      (redisRequest b external operation) := by
  have hDb := hUpdate.dbNumber
  have hClock := hUpdate.writeClock
  cases operation with
  | redisEval params | redisExec operations => cases hPlain
  | redisDel params | redisUnlink params =>
    refine lockIf_agrees external (removeKeys_agrees (fun key => ?_) _ _)
    first | exact del_agrees hUpdate ⟨key⟩ | exact unlink_agrees hUpdate ⟨key⟩
  | redisSet params => exact redisSet_agrees hUpdate params
  | redisSetNx params =>
    simp only [redisRequest, redisSetNx]
    rw [hDb]
    refine withDatabase_agrees _ rfl ((getEntry_agrees _ _).bind fun entry entry' hEntry => ?_)
    cases hEntry with
    | none => exact set_agrees hUpdate _ _
    | some _ => exact .done rfl
  | redisSetEx params | redisPSetEx params =>
    simp only [redisRequest, redisSetEx, redisPSetEx, hClock]
    exact set_agrees hUpdate _ _
  | redisGetSet params =>
    simp only [redisRequest, redisGetSet]
    rw [hDb]
    refine withDatabase_agrees _ rfl ((getEntry_agrees _ _).bind fun entry entry' hEntry => ?_)
    rw [ExistingKey.ofEntry_same hEntry]
    split
    · exact .done rfl
    · exact set_agrees hUpdate _ _
  | redisMset params =>
    refine lockIf_agrees external ((Agrees.forM _ fun pair => ?_).bind fun _ _ _ => .done rfl)
    exact (executeCompute_agrees hUpdate _ _ (SetReq.versionBlind _)).bind
      fun _ _ _ => .done trivial
  | redisRename params =>
    simp only [redisRequest, redisRename]
    rw [hDb]
    refine lockIf_agrees external (withDatabase_agrees _ rfl ?_)
    refine (getEntry_agrees _ _).bind fun entry entry' hEntry => ?_
    cases hEntry with
    | none => exact .done rfl
    | some hSame => exact moveEntry_agrees hUpdate _ _ hSame _
  | redisRenameNx params =>
    simp only [redisRequest, redisRenameNx]
    rw [hDb]
    refine lockIf_agrees external (withDatabase_agrees _ rfl ?_)
    refine (getEntry_agrees _ _).bind fun target target' hTarget => ?_
    cases hTarget with
    | some _ => exact .done rfl
    | none =>
      refine (getEntry_agrees _ _).bind fun entry entry' hEntry => ?_
      cases hEntry with
      | none => exact .done rfl
      | some hSame => exact moveEntry_agrees hUpdate _ _ hSame _
  | redisSUnionStore params =>
    simp only [redisRequest, redisSUnionStore]
    rw [hDb]
    refine lockIf_agrees external (withDatabase_agrees _ rfl ?_)
    exact storeCombined_agrees hUpdate _ _ _ _
  | redisSDiffStore params =>
    simp only [redisRequest, redisSDiffStore]
    rw [hDb]
    refine lockIf_agrees external (withDatabase_agrees _ rfl ?_)
    split
    · exact .done rfl
    · refine (getEntry_agrees _ _).bind fun first first' hFirst => ?_
      cases hFirst with
      | none => exact storeDifference_agrees hUpdate _ _ _
      | some hSame =>
        simp only [hSame.1]
        exact storeDifference_agrees hUpdate _ _ _

theorem execLua_agrees (hScripts : scripts) (params : EvalParams) :
    Agrees (replicas vms scripts) Eq (execLua a params) (execLua b params) := by
  refine (ask_agrees .beginScript hScripts).bind fun _ _ _ => ?_
  refine (ask_agrees (.enterScript params) hScripts).bind fun entered entered' hEntered => ?_
  cases hEntered
  split
  · exact (ask_agrees (.endScript false) hScripts).bind fun _ _ _ => .done rfl
  · refine (Agrees.call (Query.Alike.runScript hScripts hUpdate)).bind
      fun result result' hResult => ?_
    exact (ask_agrees (.endScript true) hScripts).bind fun _ _ _ =>
      .done (congrArg (scriptReply params.proto) hResult)

omit hUpdate

mutual

/-- The replies are equal where a script sees them. -/
theorem doRequest_agrees (hUpdate : a.Alike b) (hLabel : a.forScript = true → scripts)
    (external : Bool) : (operation : Operation) → (hasEval operation = true → scripts) →
      Agrees (replicas vms scripts) (fun x y => a.forScript = true → x = y)
        (doRequest a external operation) (doRequest b external operation)
  | .read operation, _ => by
    rw [doRequest, doRequest, ← hUpdate.dbNumber, ← hUpdate.forScript]
    exact readRequest_agrees hLabel _ _ operation
  | .base operation, _ => (baseRequest_agrees hUpdate operation).mono fun _ _ hEq _ => hEq
  | .redis operation, hEval => redisRequest_agrees hUpdate hLabel external operation hEval

theorem redisRequest_agrees (hUpdate : a.Alike b) (hLabel : a.forScript = true → scripts)
    (external : Bool) :
    (operation : RedisOperation) → (redisHasEval operation = true → scripts) →
      Agrees (replicas vms scripts) (fun x y => a.forScript = true → x = y)
        (redisRequest a external operation) (redisRequest b external operation)
  | .redisEval params, hEval =>
    lockIf_agrees external ((execLua_agrees hUpdate (hEval rfl) params).mono fun _ _ hEq _ => hEq)
  | .redisExec operations, hEval => by
    refine lockIf_agrees external ((execOperations_agrees hUpdate hLabel operations hEval).bind ?_)
    exact fun replies replies' hReplies => .done fun hScript => by rw [hReplies hScript]
  | .redisDel _, _ | .redisUnlink _, _ | .redisSet _, _ | .redisSetNx _, _ | .redisSetEx _, _
  | .redisPSetEx _, _ | .redisGetSet _, _ | .redisMset _, _ | .redisRename _, _
  | .redisRenameNx _, _ | .redisSUnionStore _, _ | .redisSDiffStore _, _ =>
    (plainRequest_agrees hUpdate external rfl).mono fun _ _ hEq _ => hEq

theorem execOperations_agrees (hUpdate : a.Alike b) (hLabel : a.forScript = true → scripts) :
    (operations : List Operation) → (anyHasEval operations = true → scripts) →
      Agrees (replicas vms scripts) (fun x y => a.forScript = true → x = y)
        (execOperations a operations) (execOperations b operations)
  | [], _ => .done fun _ => rfl
  | operation :: operations, hEval => by
    rw [anyHasEval, Bool.or_eq_true] at hEval
    refine (doRequest_agrees hUpdate hLabel false operation fun h => hEval (.inl h)).bind
      fun reply reply' hReply => ?_
    refine (execOperations_agrees hUpdate hLabel operations fun h => hEval (.inr h)).bind
      fun rest rest' hRest => ?_
    exact .done fun hScript => by rw [hReply hScript, hRest hScript]

end

end
end CacheCat.Cache
