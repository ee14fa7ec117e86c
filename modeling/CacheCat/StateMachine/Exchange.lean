import CacheCat.StateMachine.Scripts

/-! UNLINK in the place of DEL, and DEL in the place of UNLINK. UNLINK leaves its
entry in the map, marked as expired, for the worker to take out later. Here two
nodes are compared that run the same requests except for such exchanges, in the
same surroundings: their queries and answers agree, and so do their replies except
for those of DBSIZE. -/
namespace CacheCat.StateMachine

open Cache
open Library (Agrees Comparison Machine)

/-! ### Requests that differ in UNLINK and DEL -/

inductive BaseExchanged : BaseOperation → BaseOperation → Prop
  | same (operation : BaseOperation) : BaseExchanged operation operation
  | unlink (key : Bytes) : BaseExchanged (.unlink ⟨key⟩) (.del ⟨key⟩)
  | del (key : Bytes) : BaseExchanged (.del ⟨key⟩) (.unlink ⟨key⟩)

section

variable (scripts : EvalParams → EvalParams → Prop)

mutual

/-- `scripts` says which scripts stand opposite each other: a script may have been
rewritten in the same way. Their clients speak the same protocol. -/
inductive Exchanged : Operation → Operation → Prop
  | base {operation operation' : BaseOperation} (h : BaseExchanged operation operation') :
      Exchanged (.base operation) (.base operation')
  | read (operation : ReadOperation) : Exchanged (.read operation) (.read operation)
  | redis {operation operation' : RedisOperation} (h : RedisExchanged operation operation') :
      Exchanged (.redis operation) (.redis operation')

inductive RedisExchanged : RedisOperation → RedisOperation → Prop
  | plain (operation : RedisOperation) (hPlain : redisIsPlain operation = true) :
      RedisExchanged operation operation
  | unlink (keys : List Bytes) : RedisExchanged (.redisUnlink ⟨keys⟩) (.redisDel ⟨keys⟩)
  | del (keys : List Bytes) : RedisExchanged (.redisDel ⟨keys⟩) (.redisUnlink ⟨keys⟩)
  | eval {params params' : EvalParams} (h : scripts params params')
      (hProto : params.proto = params'.proto) :
      RedisExchanged (.redisEval params) (.redisEval params')
  | exec {operations operations' : List Operation} (h : AllExchanged operations operations') :
      RedisExchanged (.redisExec operations) (.redisExec operations')

inductive AllExchanged : List Operation → List Operation → Prop
  | nil : AllExchanged [] []
  | cons {operation operation' : Operation} {operations operations' : List Operation}
      (hHead : Exchanged operation operation') (hTail : AllExchanged operations operations') :
      AllExchanged (operation :: operations) (operation' :: operations')

end

variable {scripts}

mutual

theorem Exchanged.refl (hRefl : ∀ params, scripts params params) :
    (operation : Operation) → Exchanged scripts operation operation
  | .base operation => .base (.same operation)
  | .read operation => .read operation
  | .redis operation => .redis (RedisExchanged.refl hRefl operation)

theorem RedisExchanged.refl (hRefl : ∀ params, scripts params params) :
    (operation : RedisOperation) → RedisExchanged scripts operation operation
  | .redisEval params => .eval (hRefl params) rfl
  | .redisExec operations => .exec (AllExchanged.refl hRefl operations)
  | .redisDel _ | .redisUnlink _ | .redisSet _ | .redisSetNx _ | .redisSetEx _ | .redisPSetEx _
  | .redisGetSet _ | .redisMset _ | .redisRename _ | .redisRenameNx _ | .redisSUnionStore _
  | .redisSDiffStore _ => .plain _ rfl

theorem AllExchanged.refl (hRefl : ∀ params, scripts params params) :
    (operations : List Operation) → AllExchanged scripts operations operations
  | [] => .nil
  | operation :: operations =>
    .cons (Exchanged.refl hRefl operation) (AllExchanged.refl hRefl operations)

end

end

mutual

/-- The same reply, except for DBSIZE, by itself or inside a transaction. -/
inductive RepliesAlike : Operation → Value → Value → Prop
  | same (operation : Operation) (reply : Value) : RepliesAlike operation reply reply
  | dbSize (params : DbsizeParams) (n m : Nat) :
      RepliesAlike (.read (.dbSize params)) (.integer n) (.integer m)
  | exec {operations : List Operation} {replies replies' : List Value}
      (h : AllRepliesAlike operations replies replies') :
      RepliesAlike (.redis (.redisExec operations)) (.array (some replies)) (.array (some replies'))

inductive AllRepliesAlike : List Operation → List Value → List Value → Prop
  | nil : AllRepliesAlike [] [] []
  | cons {operation : Operation} {operations : List Operation} {reply reply' : Value}
      {replies replies' : List Value} (hHead : RepliesAlike operation reply reply')
      (hTail : AllRepliesAlike operations replies replies') :
      AllRepliesAlike (operation :: operations) (reply :: replies) (reply' :: replies')

end

/-! ### The surroundings of a run -/

/-- What a query has seen of the surroundings. -/
inductive Sight where
  | surroundings (env : Env)
  | flag (raised : Bool)

inductive Look where
  | nothing
  | surroundings
  | flag

def Query.look : Query → Look
  | .environment => .surroundings
  | .reply .. => .surroundings
  | .interrupted => .flag
  | _ => .nothing

section

variable {Vm : Type}

def Query.sights (query : Query) (env : Env) (s : State Vm) : List Sight :=
  match look query with
  | .nothing => []
  | .surroundings => [.surroundings env]
  | .flag => [.flag s.interruptFlag]

/-- A timer of the worker goes off. It may be a stale one, left behind by a deadline
that the key no longer has; the clock was read before. -/
inductive Fires (s : State Vm) : State Vm → Prop
  | timer (db : Nat) (key : Bytes) (expireAt now : Nat) (hNow : now ≤ s.writeClock) :
      Fires s (s.setDatabase db ((s.databases db).removeIfCurrent key expireAt now))

/-- The node together with everything that its queries are going to see of the
surroundings. Two runs with the same sights are runs in the same surroundings. -/
def watchedMachine (lua : LuaMachine Vm) : Machine (State Vm × List Sight) Query Query.Answer where
  procedure := procedure
  perform s query t answer := ∃ env, handle lua env s.1 query = some (t.1, answer) ∧
    s.2 = Query.sights query env s.1 ++ t.2
  disturb s t := (Disturbs s.1 t.1 ∨ Fires s.1 t.1) ∧ s.2 = t.2

/-- The worker only ever takes out an entry that has expired. -/
theorem Fires.cases {s t : State Vm} (h : Fires s t) :
    t = s ∨ ∃ db key, t = s.dropExpired db key := by
  cases h with
  | timer db key expireAt now hNow =>
    rcases Mocha.Table.removeIfCurrent_cases (s.databases db) key expireAt now with
      ⟨entry, hLookup, hCurrent, hDue, hErase⟩ | ⟨hSame, -⟩
    · have hExpired : entry.expired s.writeClock = true := by
        simpa [Mocha.EntrySnapshot.expired, hCurrent] using hDue.trans hNow
      refine .inr ⟨db, key, ?_⟩
      rw [hErase, State.dropExpired, if_pos (by simpa [hLookup] using hExpired)]
    · left
      rw [hSame, State.setDatabase, Function.update_eq_self]

/-- Every run can be watched. -/
theorem watched_of_runs {lua : LuaMachine Vm} {Result : Type} {s t : State Vm}
    {program : Action Result} {result : Result} (hRun : (machine lua).Runs s program t result)
    (later : List Sight) :
    ∃ sights, (watchedMachine lua).Runs (s, sights ++ later) program (t, later) result := by
  induction hRun generalizing later with
  | done s result => exact ⟨[], .done _ _⟩
  | disturb hDisturb _ ih =>
    obtain ⟨sights, hRest⟩ := ih later
    refine ⟨sights, .disturb ?_ hRest⟩
    exact ⟨.inl hDisturb, rfl⟩
  | @perform _ s _ _ query _ _ _ hQuery hPerform _ ih =>
    obtain ⟨env, hHandle⟩ := hPerform
    obtain ⟨sights, hRest⟩ := ih later
    refine ⟨Query.sights query env s ++ sights, ?_⟩
    rw [List.append_assoc]
    exact .perform hQuery ⟨env, hHandle, rfl⟩ hRest
  | procedure hQuery _ _ ihBody ih =>
    obtain ⟨sights, hRest⟩ := ih later
    obtain ⟨before, hBody⟩ := ihBody (sights ++ later)
    refine ⟨before ++ sights, ?_⟩
    rw [List.append_assoc]
    exact .procedure hQuery hBody hRest

end

/-! ### Scripts that differ in UNLINK and DEL -/

section

variable (scripts : EvalParams → EvalParams → Prop)

inductive CallExchanged : List String → List String → Prop
  | same (args : List String) : CallExchanged args args
  | exchanged {args args' : List String} {operation operation' : Operation}
      (hArgs : RaftCommand.parseRequest (args.map .simpleString) = .ok operation)
      (hArgs' : RaftCommand.parseRequest (args'.map .simpleString) = .ok operation')
      (h : Exchanged scripts operation operation') : CallExchanged args args'

inductive EventExchanged : ScriptEvent → ScriptEvent → Prop
  | hook : EventExchanged .hook .hook
  | call {args args' : List String} (h : CallExchanged scripts args args') :
      EventExchanged (.call args) (.call args')
  | pcall {args args' : List String} (h : CallExchanged scripts args args') :
      EventExchanged (.pcall args) (.pcall args')
  | finish (result : Except LuaError LuaValue) : EventExchanged (.finish result) (.finish result)

/-- Related Lua machines do the same with every pair of scripts, up to exchanges in
the calls they make. -/
structure ScriptsExchanged {Vm : Type} (lua : LuaMachine Vm) (vms : Vm → Vm → Prop) : Prop where
  refl : ∀ params, scripts params params
  enter : ∀ v w params params', scripts params params' → vms v w →
    EnteredAlike vms (enterScript lua v params) (enterScript lua w params')
  advance : ∀ v w, vms v w → EventExchanged scripts (lua.advance v).1 (lua.advance w).1 ∧
    vms (lua.advance v).2 (lua.advance w).2
  resume : ∀ v w reply, vms v w → vms (lua.resume v reply) (lua.resume w reply)

/-! ### The comparison -/

/-- The queries other than the entry to a script and its loop. -/
def Query.Common : Query → Prop
  | .enterScript _ => False
  | .runScript _ => False
  | _ => True

inductive QueriesExchanged : Query → Query → Prop
  | same (query : Query) (hCommon : Query.Common query) : QueriesExchanged query query
  | insert (db : Nat) (key : Bytes) {a b : MyValue} (policy : Mocha.ExpirePolicy)
      (hData : a.data = b.data) :
      QueriesExchanged (.insertEntry db key a policy) (.insertEntry db key b policy)
  | unlink (db : Nat) (key : Bytes) : QueriesExchanged (.unlink db key) (.remove db key)
  | remove (db : Nat) (key : Bytes) : QueriesExchanged (.remove db key) (.unlink db key)
  | enterScript {params params' : EvalParams} (h : scripts params params') :
      QueriesExchanged (.enterScript params) (.enterScript params')
  | runScript {a b : Update} (hUpdate : a.Alike b) : QueriesExchanged (.runScript a) (.runScript b)

def AnswersExchanged : (query query' : Query) → query.Answer → query'.Answer → Prop
  | .unlink .., .remove .. => fun a b => a = b.isSome
  | .remove .., .unlink .. => fun a b => a.isSome = b
  | .reply .., .reply .. => Eq
  | .advanceScript, .advanceScript => EventExchanged scripts
  | query, query' => Query.AnswersAlike query query'

def exchanges {Vm : Type} (vms : Vm → Vm → Prop) :
    Comparison (State Vm × List Sight) Query Query.Answer where
  states s t := s.1.Alike (fun _ _ => True) False t.1 ∧ vms s.1.vm t.1.vm ∧ s.2 = t.2
  queries := QueriesExchanged scripts
  answers := AnswersExchanged scripts
  silent := (replicas (fun _ _ : Vm => True) False).silent

end

section

variable {Vm : Type} {scripts : EvalParams → EvalParams → Prop} {vms : Vm → Vm → Prop}

/-- What has been shown of two replicas can be used here. -/
theorem exchanges_extends :
    (exchanges scripts vms).Extends (replicas (fun _ _ : Vm => True) False) where
  queries query query' hQueries := by
    cases hQueries with
    | same query hComparable =>
      refine .same query ?_
      cases query <;> first | exact trivial | exact hComparable
    | insert db key policy hData => exact .insert db key policy hData
    | runScript hScript => exact hScript.elim
  answers query query' answer answer' hQueries hAnswers := by
    cases hQueries with
    | same query hComparable =>
      cases query with
      | reply forScript execute => exact fun _ => hAnswers
      | advanceScript => exact hComparable.elim
      | _ => exact hAnswers
    | insert => exact trivial
    | runScript hScript => exact hScript.elim
  silent _ hSilent := hSilent

theorem ask_exchanges (query : Query) (hCommon : Query.Common query) :
    Agrees (exchanges scripts vms) (AnswersExchanged scripts query query) (ask query) (ask query) :=
  .call (.same query hCommon)

/-! ### The requests -/

variable {a b : Update}

theorem baseRequest_exchanges (hUpdate : a.Alike b) {operation operation' : BaseOperation}
    (h : BaseExchanged operation operation') :
    Agrees (exchanges scripts vms) Eq (baseRequest a operation) (baseRequest b operation') := by
  cases h with
  | same => exact (baseRequest_agrees hUpdate operation).extend exchanges_extends
  | unlink key | del key =>
    refine removeKey_extends exchanges_extends hUpdate _ _ _ ?_
    rw [hUpdate.dbNumber]
    exact .ask (by first | exact .unlink _ key | exact .remove _ key) fun _ _ hFound => .done hFound

/-- In the same surroundings a read gives the same reply, except for DBSIZE. -/
theorem readRequest_exchanges (forScript : Bool) (db : Nat) (readClock : Option Nat)
    (operation : ReadOperation) :
    Agrees (exchanges scripts vms)
      (fun x y => (forScript = true → x = y) ∧ RepliesAlike (.read operation) x y)
      (readRequest forScript db readClock operation)
      (readRequest forScript db readClock operation) := by
  refine readRequest_extends exchanges_extends db readClock (fun reply => ⟨fun _ => rfl, .same _ _⟩)
    (fun execute => ?_) fun hHandler => ?_
  · refine (ask_exchanges (.reply forScript execute) trivial).mono fun x y hEq => ?_
    cases hEq
    exact ⟨fun _ => rfl, .same _ _⟩
  · refine (ask_exchanges (.len forScript db) trivial).bind fun size size' hSize => .done ⟨?_, ?_⟩
    · intro hScript
      rw [hSize hScript]
    · cases operation with
      | dbSize params => exact .dbSize params size size'
      | _ => cases hHandler

theorem execLua_exchanges (hUpdate : a.Alike b) {params params' : EvalParams}
    (h : scripts params params') (hProto : params.proto = params'.proto) :
    Agrees (exchanges scripts vms) Eq (execLua a params) (execLua b params') := by
  refine (ask_exchanges .beginScript trivial).bind fun _ _ _ => ?_
  refine (Agrees.call (QueriesExchanged.enterScript h)).bind fun entered entered' hEntered => ?_
  cases hEntered
  split
  · exact (ask_exchanges (.endScript false) trivial).bind fun _ _ _ => .done rfl
  · refine (Agrees.call (QueriesExchanged.runScript hUpdate)).bind fun result result' hResult => ?_
    exact (ask_exchanges (.endScript true) trivial).bind fun _ _ _ =>
      .done (congrArg₂ scriptReply hProto hResult)

/-- Equal replies count as alike. -/
theorem agrees_repliesAlike {operation : Operation} {p q : Action Value}
    (h : Agrees (exchanges scripts vms) Eq p q) (seen : Prop) :
    Agrees (exchanges scripts vms)
    (fun x y => (seen → x = y) ∧ RepliesAlike operation x y) p q := by
  refine h.mono fun x y hEq => ?_
  cases hEq
  exact ⟨fun _ => rfl, .same _ _⟩

mutual

theorem doRequest_exchanges (hUpdate : a.Alike b) (external : Bool) :
    (operation : Operation) → {operation' : Operation} → Exchanged scripts operation operation' →
      Agrees (exchanges scripts vms)
        (fun x y => (a.forScript = true → x = y) ∧ RepliesAlike operation x y)
        (doRequest a external operation) (doRequest b external operation')
  | .read _, _, .read operation => by
    rw [doRequest, doRequest, ← hUpdate.dbNumber, ← hUpdate.forScript]
    exact readRequest_exchanges _ _ _ operation
  | .base _, _, .base h => by
    exact agrees_repliesAlike (baseRequest_exchanges hUpdate h) _
  | .redis operation, _, .redis h => by
    exact redisRequest_exchanges hUpdate external operation h

theorem redisRequest_exchanges (hUpdate : a.Alike b) (external : Bool) :
    (operation : RedisOperation) → {operation' : RedisOperation} →
      RedisExchanged scripts operation operation' →
      Agrees (exchanges scripts vms)
        (fun x y => (a.forScript = true → x = y) ∧ RepliesAlike (.redis operation) x y)
        (redisRequest a external operation) (redisRequest b external operation')
  | _, _, .plain _ hPlain =>
    agrees_repliesAlike ((plainRequest_agrees hUpdate external hPlain).extend exchanges_extends) _
  | .redisUnlink _, _, .unlink keys => by
    refine agrees_repliesAlike (lockIf_extends exchanges_extends external ?_) _
    exact removeKeys_agrees (fun key => baseRequest_exchanges hUpdate (.unlink key)) keys 0
  | .redisDel _, _, .del keys => by
    refine agrees_repliesAlike (lockIf_extends exchanges_extends external ?_) _
    exact removeKeys_agrees (fun key => baseRequest_exchanges hUpdate (.del key)) keys 0
  | .redisEval _, _, .eval h hProto => by
    refine agrees_repliesAlike (lockIf_extends exchanges_extends external ?_) _
    exact execLua_exchanges hUpdate h hProto
  | .redisExec operations, _, .exec h => by
    refine lockIf_extends exchanges_extends external ?_
    refine (execOperations_exchanges hUpdate operations h).bind fun replies replies' hReplies => ?_
    exact .done ⟨fun hScript => by rw [hReplies.1 hScript], .exec hReplies.2⟩

theorem execOperations_exchanges (hUpdate : a.Alike b) :
    (operations : List Operation) → {operations' : List Operation} →
      AllExchanged scripts operations operations' →
      Agrees (exchanges scripts vms)
        (fun x y => (a.forScript = true → x = y) ∧ AllRepliesAlike operations x y)
        (execOperations a operations) (execOperations b operations')
  | [], _, .nil => by
    exact .done ⟨fun _ => rfl, .nil⟩
  | operation :: operations, _, .cons hHead hTail => by
    refine (doRequest_exchanges hUpdate false operation hHead).bind fun reply reply' hReply => ?_
    refine (execOperations_exchanges hUpdate operations hTail).bind fun rest rest' hRest => ?_
    exact .done ⟨fun hScript => by rw [hReply.1 hScript, hRest.1 hScript],
      .cons hReply.2 hRest.2⟩

end

/-! ### The loop of a script -/

/-- What `redis.call` and `redis.pcall` do when the arguments have been parsed. -/
theorem scriptRequest_exchanges (hUpdate : a.Alike b) {operation operation' : Operation}
    (h : Exchanged scripts operation operation') :
    Agrees (exchanges scripts vms) Eq (doRequest { a with forScript := true } false operation)
      (doRequest { b with forScript := true } false operation') :=
  (doRequest_exchanges (forScript_alike hUpdate) false operation h).mono fun _ _ hReply =>
    hReply.1 rfl

section

variable (hRefl : ∀ params, scripts params params) (hUpdate : a.Alike b)
include hRefl hUpdate

/-- A call with the same arguments on both sides. -/
theorem answers_exchanges {event : ScriptEvent} {program : Update → Action ScriptReply}
    (hProgram : Answers event program) :
    Agrees (exchanges scripts vms) Eq (program a) (program b) := by
  cases hProgram with
  | refused reply => exact .done rfl
  | performed hCalls finish =>
    refine (scriptRequest_exchanges hUpdate (.refl hRefl _)).bind fun reply reply' hReply => ?_
    exact .done (congrArg finish hReply)

variable {args args' : List String} (h : CallExchanged scripts args args')
include h

theorem redisCall_exchanges :
    Agrees (exchanges scripts vms) Eq (redisCall a args) (redisCall b args') := by
  cases h with
  | same => exact answers_exchanges hRefl hUpdate (redisCall_answers args)
  | exchanged hArgs hArgs' h =>
    rw [redisCall, redisCall, RaftCommand.isEmpty_of_parseRequest hArgs,
      RaftCommand.isEmpty_of_parseRequest hArgs', hArgs, hArgs']
    refine (scriptRequest_exchanges hUpdate h).bind fun reply reply' hReply => ?_
    cases hReply
    split <;> exact .done rfl

theorem redisPcall_exchanges :
    Agrees (exchanges scripts vms) Eq (redisPcall a args) (redisPcall b args') := by
  cases h with
  | same => exact answers_exchanges hRefl hUpdate (redisPcall_answers args)
  | exchanged hArgs hArgs' h =>
    rw [redisPcall, redisPcall, RaftCommand.isEmpty_of_parseRequest hArgs,
      RaftCommand.isEmpty_of_parseRequest hArgs', hArgs, hArgs']
    exact (scriptRequest_exchanges hUpdate h).bind fun _ _ hReply => .done (congrArg _ hReply)

end

theorem scriptLoop_exchanges (hRefl : ∀ params, scripts params params) (hUpdate : a.Alike b) :
    Agrees (exchanges scripts vms) Eq (scriptLoop a) (scriptLoop b) := by
  have hContinue : Agrees (exchanges scripts vms) Eq (ask (.runScript a)) (ask (.runScript b)) :=
    .ask (QueriesExchanged.runScript hUpdate) fun _ _ hReply => .done hReply
  have hResume (reply : ScriptReply) : Agrees (exchanges scripts vms) Eq
      (ask (.resumeScript reply) >>= fun _ => ask (.runScript a))
      (ask (.resumeScript reply) >>= fun _ => ask (.runScript b)) :=
    (ask_exchanges (.resumeScript reply) trivial).bind fun _ _ _ => hContinue
  refine (ask_exchanges .advanceScript trivial).bind fun event event' hEvent => ?_
  cases hEvent with
  | finish reply => exact .done rfl
  | hook =>
    refine (ask_exchanges .interrupted trivial).bind fun raised raised' hRaised => ?_
    cases hRaised
    cases raised with
    | true => exact hResume _
    | false => exact hContinue
  | call h =>
    refine (redisCall_exchanges hRefl hUpdate h).bind fun reply reply' hReply => ?_
    cases hReply
    exact hResume reply
  | pcall h =>
    refine (redisPcall_exchanges hRefl hUpdate h).bind fun reply reply' hReply => ?_
    cases hReply
    exact hResume reply

end

/-! ### Soundness -/

/-- A script asks for the size of a database only when none of its entries has
expired. -/
def Sized {Vm : Type} (s : State Vm × List Sight) : (query : Query) → query.Answer → Prop
  | .len true db, _ => ∀ key entry, (s.1.databases db).lookup key = some entry →
      entry.expired s.1.writeClock = false
  | _, _ => True

/-- The watched node in the runs where this holds. -/
def sizedMachine {Vm : Type} (lua : LuaMachine Vm) :
    Machine (State Vm × List Sight) Query Query.Answer :=
  (watchedMachine lua).restrict Sized fun _ _ => True

section

variable {Vm : Type} {lua : LuaMachine Vm} {env env' : Env} {s s' t t' : State Vm}

theorem not_ofScript {query : Query} (hScript : query.isScript = false) : ¬ query.OfScript := by
  cases query <;> first | exact id | cases hScript

/-- UNLINK hides what DEL takes out. -/
theorem removal_alike {vms : Vm → Vm → Prop} {scripts : Prop} (h : s.Alike vms scripts t) (db : Nat)
    (key : Bytes) :
    (s.setDatabase db (s.unlinked db key).1).Alike vms scripts
        (t.setDatabase db ((t.databases db).erase key)) ∧
      (s.unlinked db key).2 = ((t.live db key).map (·.value)).isSome := by
  refine ⟨h.setDatabase _ _ _ (visible_without h.visible (s.live_unlinked db · key)
    (t.live_erase db · key)), ?_⟩
  simpa [State.unlinked_snd] using h.live_isSome db key

variable {scripts : EvalParams → EvalParams → Prop} {vms : Vm → Vm → Prop}

/-- What two queries have seen of the same surroundings. -/
theorem sights_eq {query : Query} {later later' : List Sight}
    (h : Query.sights query env s ++ later = Query.sights query env' t ++ later') :
    Query.sights query env s = Query.sights query env' t ∧ later = later' := by
  refine List.append_inj h ?_
  unfold Query.sights
  split <;> rfl

section

variable {query : Query} (hSilent : (exchanges scripts vms).silent query)
include hSilent

theorem isScript_of_silent : query.isScript = false := by
  cases query with
  | getEntry | push => rfl
  | _ => cases hSilent

theorem sights_of_silent : Query.sights query env s = [] := by
  cases query with
  | getEntry | push => rfl
  | _ => cases hSilent

end

/-- The same query on both nodes, in the same surroundings. -/
theorem handle_exchanged (hScripts : ScriptsExchanged scripts lua vms)
    (h : s.Alike (fun _ _ => True) False t) (hVms : vms s.vm t.vm) {query : Query}
    (hCommon : Query.Common query) {answer answer' : query.Answer}
    (hSights : Query.sights query env s = Query.sights query env' t) {later later' : List Sight}
    (hLeft : handle lua env s query = some (s', answer)) (hSized : Sized (s, later) query answer)
    (hRight : handle lua env' t query = some (t', answer'))
    (hSized' : Sized (t, later') query answer') :
    s'.Alike (fun _ _ => True) False t' ∧ vms s'.vm t'.vm ∧
      AnswersExchanged scripts query query answer answer' := by
  cases hScript : query.isScript with
  | false =>
    have hAlike := handle_alike h hScript hLeft hRight
    refine ⟨hAlike.1, ?_, ?_⟩
    · rwa [(vm_of_handle (not_ofScript hScript) hLeft).1,
        (vm_of_handle (not_ofScript hScript) hRight).1]
    · cases query with
      | reply forScript execute =>
        cases hSights
        cases hLeft
        cases hRight
        rfl
      | advanceScript => cases hScript
      | _ => exact hAlike.2
  | true =>
    cases query with
    | len forScript db =>
      cases forScript with
      | false => cases hScript
      | true =>
        cases hLeft
        cases hRight
        refine ⟨h, hVms, fun _ => ?_⟩
        rw [keys_eq_unhidden hSized, keys_eq_unhidden hSized', unhidden_keys db h.visible]
    | reply forScript execute =>
      cases hSights
      cases hLeft
      cases hRight
      exact ⟨h, hVms, rfl⟩
    | beginScript | endScript finished =>
      cases hLeft
      cases hRight
      exact ⟨{ h with running := False.elim, interruptFlag := False.elim }, hVms, trivial⟩
    | advanceScript =>
      cases hLeft
      cases hRight
      have hNext := hScripts.advance _ _ hVms
      exact ⟨{ h with vm := False.elim }, hNext.2, hNext.1⟩
    | resumeScript reply =>
      cases hLeft
      cases hRight
      exact ⟨{ h with vm := False.elim }, hScripts.resume _ _ reply hVms, trivial⟩
    | interrupted =>
      have hFlag : s.interruptFlag = t.interruptFlag := by
        simpa [Query.sights, Query.look] using hSights
      simp only [handle] at hLeft hRight
      split_ifs at hLeft hRight
      cases hLeft
      cases hRight
      exact ⟨h, hVms, hFlag⟩
    | enterScript params | runScript update => exact hCommon.elim
    | _ => cases hScript

/-- The entry to two scripts. -/
theorem enterScript_exchanged (hScripts : ScriptsExchanged scripts lua vms)
    (h : s.Alike (fun _ _ => True) False t) (hVms : vms s.vm t.vm) {params params' : EvalParams}
    (hParams : scripts params params') {answer answer' : Except ProtocolError Unit}
    (hLeft : handle lua env s (.enterScript params) = some (s', answer))
    (hRight : handle lua env' t (.enterScript params') = some (t', answer')) :
    s'.Alike (fun _ _ => True) False t' ∧ vms s'.vm t'.vm ∧ answer = answer' := by
  have hEntered := hScripts.enter _ _ _ _ hParams hVms
  simp only [enterScript] at hEntered
  simp only [handle] at hLeft hRight
  cases hV : lua.getOrCompileScript s.vm params.script <;>
    cases hW : lua.getOrCompileScript t.vm params'.script <;>
    rw [hV, hW] at hEntered <;> rw [hV] at hLeft <;> rw [hW] at hRight <;> cases hLeft <;>
    cases hRight <;> cases hEntered
  · exact ⟨h, hVms, rfl⟩
  next hNext => exact ⟨{ h with vm := False.elim }, hNext, rfl⟩

theorem vm_dropExpired (db : Nat) (key : Bytes) : (s.dropExpired db key).vm = s.vm := by
  unfold State.dropExpired
  split <;> rfl

/-- A node has moved on without another node noticing. -/
structure Unnoticed (x y : State Vm × List Sight) : Prop where
  alike : ∀ t, x.1.Alike (fun _ _ => True) False t → y.1.Alike (fun _ _ => True) False t
  vm : y.1.vm = x.1.vm
  sights : x.2 = y.2

theorem unnoticed_of_disturb {x y : State Vm × List Sight} (h : (sizedMachine lua).disturb x y) :
    Unnoticed x y := by
  obtain ⟨⟨hDisturb, hSights⟩, -⟩ := h
  have hDropped (db : Nat) (key : Bytes) (hDrop : y.1 = x.1.dropExpired db key) : Unnoticed x y :=
    ⟨fun t hAlike => hDrop ▸ hAlike.dropExpired_left db key, hDrop ▸ vm_dropExpired db key, hSights⟩
  rcases hDisturb with hDisturbs | hFires
  · generalize hAfter : y.1 = after at hDisturbs
    cases hDisturbs with
    | expire db key => exact hDropped db key hAfter
    | interrupt =>
      exact ⟨fun t hAlike => hAfter ▸ { hAlike with interruptFlag := False.elim },
        hAfter ▸ rfl, hSights⟩
  · rcases hFires.cases with hSame | ⟨db, key, hDrop⟩
    · exact ⟨fun t hAlike => hSame ▸ hAlike, congrArg State.vm hSame, hSights⟩
    · exact hDropped db key hDrop

theorem unnoticed_of_silent {x y : State Vm × List Sight} {query : Query} {answer : query.Answer}
    (hSilent : (exchanges scripts vms).silent query)
    (h : (sizedMachine lua).perform x query y answer) :
    Unnoticed x y := by
  obtain ⟨⟨env, hHandle, hSights⟩, -⟩ := h
  rw [sights_of_silent hSilent] at hSights
  exact ⟨fun t hAlike => silent_left hAlike hSilent hHandle,
    (vm_of_handle (not_ofScript (isScript_of_silent hSilent)) hHandle).1, hSights⟩

section

variable {x y z : State Vm × List Sight} (h : Unnoticed x y)
include h

theorem Unnoticed.left (hStates : (exchanges scripts vms).states x z) :
    (exchanges scripts vms).states y z :=
  ⟨h.alike _ hStates.1, h.vm.symm ▸ hStates.2.1, h.sights.symm.trans hStates.2.2⟩

theorem Unnoticed.right (hStates : (exchanges scripts vms).states z x) :
    (exchanges scripts vms).states z y :=
  ⟨(h.alike _ hStates.1.symm).symm, h.vm.symm ▸ hStates.2.1, hStates.2.2.trans h.sights⟩

end

variable (scripts vms) in
/-- Alike nodes stay alike in the same surroundings, whatever their workers reclaim. -/
theorem exchanges_sound (hScripts : ScriptsExchanged scripts lua vms) :
    (exchanges scripts vms).Sound (sizedMachine lua) where
  disturbLeft _ _ _ h hDisturb := (unnoticed_of_disturb hDisturb).left h
  disturbRight _ _ _ h hDisturb := (unnoticed_of_disturb hDisturb).right h
  silent query hSilent := by
    have hReplicas : (replicas (fun _ _ : Vm => True) False).silent query := hSilent
    exact procedure_of_silent hReplicas
  silentLeft _ _ _ _ _ hSilent h hPerform := (unnoticed_of_silent hSilent hPerform).left h
  silentRight _ _ _ _ _ hSilent h hPerform := (unnoticed_of_silent hSilent hPerform).right h
  perform s t query query' s' t' answer answer' hQueries h hLeft hRight := by
    obtain ⟨s', later⟩ := s'
    obtain ⟨t', later'⟩ := t'
    obtain ⟨hAlike, hVms, hSights⟩ := h
    obtain ⟨⟨env, hLeft, hSeen⟩, hSized⟩ := hLeft
    obtain ⟨⟨env', hRight, hSeen'⟩, hSized'⟩ := hRight
    rw [hSeen, hSeen'] at hSights
    cases hQueries with
    | same query hCommon =>
      obtain ⟨hSame, hLater⟩ := sights_eq hSights
      obtain ⟨hAfter, hVms', hAnswers⟩ := handle_exchanged hScripts hAlike hVms hCommon hSame
        hLeft hSized hRight hSized'
      exact ⟨⟨hAfter, hVms', hLater⟩, hAnswers⟩
    | insert db key policy hData =>
      have hAfter := insert_alike hAlike db key policy hData hLeft hRight
      cases hLeft
      cases hRight
      exact ⟨⟨hAfter, hVms, hSights⟩, trivial⟩
    | unlink db key =>
      have hAfter := removal_alike hAlike db key
      cases hLeft
      cases hRight
      exact ⟨⟨hAfter.1, hVms, hSights⟩, hAfter.2⟩
    | remove db key =>
      have hAfter := removal_alike hAlike.symm db key
      cases hLeft
      cases hRight
      exact ⟨⟨hAfter.1.symm, hVms, hSights⟩, hAfter.2.symm⟩
    | enterScript hParams =>
      obtain ⟨hAfter, hVms', hAnswers⟩ :=
        enterScript_exchanged hScripts hAlike hVms hParams hLeft hRight
      exact ⟨⟨hAfter, hVms', hSights⟩, hAnswers⟩
    | runScript => cases hLeft
  procedure query query' hQueries := by
    cases hQueries with
    | same query hCommon =>
      cases query with
      | runScript update => exact hCommon.elim
      | _ => exact .none
    | insert | unlink | remove | enterScript => exact .none
    | runScript hUpdate => exact .some (scriptLoop_exchanges hScripts.refl hUpdate)

end

end CacheCat.StateMachine
