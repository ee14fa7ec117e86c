import CacheCat.Cache.Locks
import CacheCat.Cache.RequestAgreement

/-! The lock of the readers while one log entry is applied. `do_request` passes
`external = false` down so that inner operations do not lock again; the handlers of
FLUSHDB and FLUSHALL do not get that argument and lock in any case. -/
namespace CacheCat.Cache

open Library (Machine)

/-- No flush below the root: the operation of an entry itself may be one. -/
def noNestedFlush : Operation → Bool
  | .redis operation => redisNoFlush operation
  | _ => true

/-! ### What a request asks for -/

/-- What a request may ask for in a mode: it writes to the queue in snapshot mode only,
and so do its scripts. -/
def Query.AskedIn (mode : UpdateType) (scripts locks : Prop) : Query → Prop
  | .push _ => mode = .snapshot
  | .lockReaders => locks
  | .runScript update => scripts ∧ update.updateType = mode
  | query => query.OfScript → scripts

abbrev AsksIn (mode : UpdateType) (scripts locks : Prop) {A : Type} (program : Action A) : Prop :=
  program.Asks (Query.AskedIn mode scripts locks)

section

variable {mode : UpdateType} {scripts locks : Prop}

theorem asksIn_ask (query : Query) (hQuery : query.AskedIn mode scripts locks) :
    AsksIn mode scripts locks (ask query) :=
  ⟨hQuery, fun _ _ => trivial⟩

variable (update : Update) (operation : Operation)

variable {rely : (query : Query) → query.Answer → Prop}

theorem admits_askedIn :
    Admits rely (Query.AskedIn update.updateType scripts locks) update locks scripts where
  looks query hQuery := by
    cases query <;> first | exact False.elim | exact hQuery.elim
  pushes hMode _ := hMode
  finds _ _ _ _ := trivial
  strings _ := trivial
  panics _ _ _ := False.elim
  flushes hLocks := ⟨⟨hLocks, False.elim⟩, fun _ => False.elim⟩
  scripts hScripts query hQuery := by
    cases query with
    | push | lockReaders => exact hQuery.elim
    | runScript again =>
      cases hQuery
      exact ⟨hScripts, rfl⟩
    | _ => exact fun _ => hScripts

theorem mayPut_askedIn (db : Nat) (key : Bytes) :
    MayPut rely (Query.AskedIn mode scripts locks) (fun _ => True) db key :=
  fun _ _ _ => ⟨fun _ _ _ => False.elim, False.elim, False.elim⟩

theorem withReadersLocked_asksIn (hLocks : locks) {body : Action Value}
    (hBody : AsksIn mode scripts locks body) :
    AsksIn mode scripts locks (withReadersLocked body) := by
  refine (asksIn_ask .lockReaders hLocks).bind fun _ => hBody.bind fun reply => ?_
  exact (asksIn_ask .unlockReaders False.elim).bind fun _ => trivial

/-- Inside a transaction or a script nothing but a flush takes the lock. -/
theorem doRequest_asksIn (hFlush : noFlush operation = true ∨ locks)
    (hScripts : hasEval operation = true → scripts) :
    (doRequest update false operation).Relies rely
      (Query.AskedIn update.updateType scripts locks) :=
  doRequest_relies (admits_askedIn update) (fun hEq => by cases hEq) operation hFlush hScripts
    fun key _ => mayPut_askedIn _ key

/-- The operation of an entry takes the lock once, around everything it does, or
not at all. -/
theorem doRequest_external (hFlush : noNestedFlush operation = true ∨ locks)
    (hScripts : hasEval operation = true → scripts) :
    AsksIn update.updateType scripts locks (doRequest update true operation) ∨
      ∃ body, AsksIn update.updateType scripts locks body ∧
        doRequest update true operation = withReadersLocked body := by
  have hBody (hPlain : noFlush operation = true ∨ locks) :
      AsksIn update.updateType scripts locks (doRequest update false operation) :=
    doRequest_asksIn update operation hPlain hScripts
  cases operation with
  | read operation =>
    exact .inl (hBody (.inl rfl))
  | base operation =>
    cases hLock : BaseOperation.takesLock operation with
    | false => exact .inl (hBody (.inl (by simp [noFlush, hLock])))
    | true =>
      obtain ⟨body, hBody, hEq⟩ :=
        baseRequest_flush (admits_askedIn update).toPermits hLock fun _ => False.elim
      exact .inr ⟨body, hBody, hEq⟩
  | redis operation =>
    cases operation with
    | redisSet | redisSetNx | redisSetEx | redisPSetEx | redisGetSet => exact .inl (hBody hFlush)
    | _ => exact .inr ⟨_, hBody hFlush, rfl⟩

/-! ### What a script asks for -/

variable {rely : (query : Query) → query.Answer → Prop}

/-- A script takes the lock only through a flush that it calls. -/
theorem scriptLoop_askedIn
    (hRely : ∀ event, rely .advanceScript event → ∀ operation, event.Calls operation →
      noFlush operation = true ∨ locks) :
    (scriptLoop update).Relies rely (Query.AskedIn update.updateType True locks) := by
  have hAdmits : Admits rely (Query.AskedIn update.updateType True locks) update locks True :=
    admits_askedIn update
  refine scriptLoop_relies (hAdmits.scripts trivial) fun event hEvent operation hCalls => ?_
  exact doRequest_asksIn { update with forScript := true } operation
    (hRely event hEvent operation hCalls) fun _ => trivial

end

/-! ### Programs that leave the lock alone -/

/-- An answer that does not make the program flush. -/
def Query.Harmless : (query : Query) → query.Answer → Prop
  | .advanceScript, event => ∀ operation, event.Calls operation → noFlush operation = true
  | _, _ => True

/-- A query other than to take the lock; one of a script only if there may be any. -/
def Query.LeavesLock (scripts : Prop) (query : Query) : Prop :=
  query ≠ .lockReaders ∧ (query.OfScript → scripts)

/-- The program does not take the lock, unless a script in it calls a flush. -/
def Lockless (scripts : Prop) {A : Type} (program : Action A) : Prop :=
  program.Relies Query.Harmless (Query.LeavesLock scripts)

variable {query : Query} {A : Type} {program : Action A}

section

variable {mode : UpdateType} {scripts : Prop}

theorem Query.AskedIn.leavesLock (hQuery : query.AskedIn mode scripts False) :
    query.LeavesLock scripts := by
  cases query with
  | lockReaders => exact hQuery.elim
  | push request => exact ⟨nofun, False.elim⟩
  | runScript update => exact ⟨nofun, fun _ => hQuery.1⟩
  | _ => exact ⟨nofun, hQuery⟩

theorem AsksIn.lockless (hProgram : AsksIn mode scripts False program) : Lockless scripts program :=
  hProgram.mono (fun _ => Query.AskedIn.leavesLock) fun _ _ _ => trivial

theorem lockless_ask (query : Query) (hQuery : query.LeavesLock scripts) :
    Lockless scripts (ask query) :=
  ⟨hQuery, fun _ _ => trivial⟩

theorem scriptLoop_lockless (update : Update) : Lockless True (scriptLoop update) :=
  (scriptLoop_askedIn update fun _ hHarmless operation hCalls =>
    .inl (hHarmless operation hCalls)).mono (fun _ => Query.AskedIn.leavesLock)
      fun _ _ hAnswer => hAnswer

end

section

variable {Vm : Type} {lua : LuaMachine Vm} {scripts : Prop}

/-- While the program runs, the lock of the readers is asked for although it is held:
the thread waits for itself. -/
def LocksTwice (lua : LuaMachine Vm) (s : State Vm) {A : Type} (program : Action A) : Prop :=
  ∃ t, (machine lua).Reaches s program t .lockReaders ∧ t.readersLocked = true

/-- Every operation that a script calls while the program runs is free of flushes. -/
def ScriptsDoNotFlush (lua : LuaMachine Vm) (s : State Vm) {A : Type} (program : Action A) : Prop :=
  ∀ t operation, (machine lua).Reaches s program t .advanceScript →
    (lua.advance t.vm).1.Calls operation → noFlush operation = true

theorem reaches_leavesLock (hProgram : Lockless scripts program) {s t : State Vm}
    (hFlush : scripts → ScriptsDoNotFlush lua s program)
    (hReach : (machine lua).Reaches s program t query) : query.LeavesLock scripts := by
  refine hReach.allowed_of_relies ?_ hProgram ?_
  · intro query body hAllowed hBody
    cases query with
    | runScript update =>
      cases hBody
      have hTrue : scripts = True := eq_true (hAllowed.2 trivial)
      subst hTrue
      exact ⟨scriptLoop_lockless update, fun _ => trivial⟩
    | _ => cases hBody
  · rintro before query after answer hAllowed hBefore ⟨env, hHandle⟩
    cases query with
    | advanceScript =>
      obtain ⟨rfl, rfl⟩ := Prod.mk.inj (Option.some.inj hHandle)
      exact fun operation hCalls => hFlush (hAllowed.2 trivial) before operation hBefore hCalls
    | _ => trivial

theorem readersLocked_eq_of_disturbs {s t : State Vm}
    (hDisturbs : Relation.ReflTransGen (machine lua).disturb s t) :
    t.readersLocked = s.readersLocked := by
  induction hDisturbs with
  | refl => rfl
  | tail _ hDisturb ih =>
    rw [← ih]
    cases hDisturb with
    | expire db key => exact State.dropExpired_readersLocked _ db key
    | interrupt => rfl

/-- Who gets the lock has found it free. -/
theorem readersLocked_of_runs {body : Action Value} {s t : State Vm} {reply : Value}
    (hRun : (machine lua).Runs s (withReadersLocked body) t reply) : s.readersLocked = false := by
  obtain ⟨before, middle, _, hBefore, ⟨env, hHandle⟩, -⟩ := Machine.Runs.of_ask rfl hRun
  rw [← readersLocked_eq_of_disturbs hBefore]
  simp only [handle] at hHandle
  split_ifs at hHandle with hLocked
  simpa using hLocked

/-- Without a flush below the root, an entry takes the lock when it is free. -/
theorem not_locksTwice (update : Update) (operation : Operation) {s : State Vm}
    (hFree : s.readersLocked = false) (hNested : noNestedFlush operation = true)
    (hScripts : hasEval operation = true →
      ScriptsDoNotFlush lua s (doRequest update true operation)) :
    ¬ LocksTwice lua s (doRequest update true operation) := by
  rintro ⟨t, hReach, hLocked⟩
  obtain hNone | ⟨body, hBody, hEq⟩ := doRequest_external update operation (.inl hNested) id
  · exact (reaches_leavesLock hNone.lockless hScripts hReach).1 rfl
  rw [hEq] at hReach hScripts
  obtain ⟨before, hBefore, ⟨rfl, -⟩ | ⟨middle, _, hPerform, hRest⟩⟩ :=
    Machine.Reaches.of_ask rfl hReach
  · rw [readersLocked_eq_of_disturbs hBefore, hFree] at hLocked
    cases hLocked
  · -- the lock is taken, and what follows leaves it alone
    have hAfter : Lockless (hasEval operation = true)
        (body >>= fun reply => ask .unlockReaders >>= fun _ => .done reply) := by
      refine hBody.lockless.bind fun reply => ?_
      exact (lockless_ask .unlockReaders ⟨nofun, False.elim⟩).bind fun _ => trivial
    refine (reaches_leavesLock hAfter (fun hEval => ?_) hRest).1 rfl
    intro t' called hCalled
    exact hScripts hEval t' called (.after_disturbs hBefore (.perform rfl hPerform hCalled))

end

/-! ### A flush inside a transaction

Every operation other than a flush comes to its end, so that the first flush in a
transaction is reached, unless a KEYS panics before it; on a node without databases it
never does. -/

/-- The answers of a node without databases. -/
def Query.OfNoDatabase : (query : Query) → query.Answer → Prop
  | .databaseCount, count => count = 0
  | _, _ => True

/-- The program comes to its end on a node without databases. -/
def Idle {A : Type} (program : Action A) : Prop := program.Relies Query.OfNoDatabase Query.Plain

theorem doRequest_idle (update : Update) (operation : Operation) (hFlush : noFlush operation = true)
    (hEval : hasEval operation = false) : Idle (doRequest update false operation) := by
  have hAdmits : Admits Query.OfNoDatabase Query.Plain update False False :=
    { permits_plain update with
      panics := fun count hCount hDb => absurd hDb (by simp [show count = 0 from hCount])
      flushes := False.elim
      scripts := False.elim }
  refine doRequest_relies hAdmits (fun hEq => by cases hEq) operation (.inl hFlush) ?_
    fun key _ => mayPut_plain _ key
  rw [hEval]
  exact nofun

section

variable {Vm : Type} {lua : LuaMachine Vm}

/-- Inside a transaction, and without a database. -/
def State.Barren (s : State Vm) : Prop := s.readersLocked = true ∧ s.count = 0

theorem Query.Plain.handle_barren (hPlain : query.Plain) (lua : LuaMachine Vm) (env : Env)
    {s : State Vm} (hBarren : s.Barren) :
    ∃ t answer, Cache.handle lua env s query = some (t, answer) ∧
      query.OfNoDatabase answer ∧ t.Barren := by
  obtain ⟨t, answer, hHandle, hLock, hCount⟩ := hPlain.handle lua env s
  have hAfter : t.Barren := ⟨hLock.trans hBarren.1, hCount.trans hBarren.2⟩
  cases query with
  | databaseCount => exact ⟨s, s.count, rfl, hBarren.2, hBarren⟩
  | _ => exact ⟨t, answer, hHandle, trivial, hAfter⟩

theorem Idle.runs (hIdle : Idle program) (env : Env) {s : State Vm} (hBarren : s.Barren) :
    ∃ t a, (machine lua).Runs s program t a ∧ t.Barren := by
  refine Machine.Runs.exists_of_relies State.Barren (fun s query hBarren hQuery => ?_) hIdle hBarren
  obtain ⟨t, answer, hHandle, hAnswer, hAfter⟩ := hQuery.handle_barren lua env hBarren
  exact ⟨hQuery.procedure, t, answer, ⟨env, hHandle⟩, hAnswer, hAfter⟩

mutual

/-- No KEYS in the operation leaves its bounds. -/
def KeysInBounds : Operation → Prop
  | .base _ => True
  | .read operation => ReadOperation.InBounds operation
  | .redis operation => RedisKeysInBounds operation

def RedisKeysInBounds : RedisOperation → Prop
  | .redisExec operations => AllKeysInBounds operations
  | _ => True

def AllKeysInBounds : List Operation → Prop
  | [] => True
  | operation :: operations => KeysInBounds operation ∧ AllKeysInBounds operations

end

mutual

theorem unhindered_of_noFlush {ends : EvalParams → Prop} : (operation : Operation) →
    noFlush operation = true → hasEval operation = false → KeysInBounds operation →
    Unhindered ends operation
  | .base operation, hFlush, _, _ => by simpa [noFlush, Unhindered] using hFlush
  | .read _, _, _, hKeys => hKeys
  | .redis operation, hFlush, hEval, hKeys => by
    cases operation with
    | redisExec operations => exact allUnhindered_of_noFlush operations hFlush hEval hKeys
    | redisEval => cases hEval
    | _ => trivial

theorem allUnhindered_of_noFlush {ends : EvalParams → Prop} : (operations : List Operation) →
    allNoFlush operations = true → anyHasEval operations = false → AllKeysInBounds operations →
    AllUnhindered ends operations
  | [], _, _, _ => trivial
  | operation :: operations, hFlush, hEval, hKeys => by
    rw [allNoFlush, Bool.and_eq_true] at hFlush
    rw [anyHasEval, Bool.or_eq_false_iff] at hEval
    exact ⟨unhindered_of_noFlush operation hFlush.1 hEval.1 hKeys.1,
      allUnhindered_of_noFlush operations hFlush.2 hEval.2 hKeys.2⟩

end

/-- Inside a transaction, and no KEYS can panic. -/
def State.Safe (bounds : Prop) (s : State Vm) : Prop :=
  s.readersLocked = true ∧ (s.count = 0 ∨ bounds)

theorem doRequest_ends (update : Update) (env : Env) {bounds : Prop} {operation : Operation}
    (hKeys : bounds → KeysInBounds operation) (hFlush : noFlush operation = true)
    (hEval : hasEval operation = false) {s : State Vm} (hSafe : s.Safe bounds) :
    ∃ t reply, (machine lua).Runs s (doRequest update false operation) t reply ∧ t.Safe bounds := by
  obtain ⟨hLocked, hNone | hBounds⟩ := hSafe
  · obtain ⟨t, reply, hRun, hLock, hCount⟩ :=
      (doRequest_idle update operation hFlush hEval).runs env ⟨hLocked, hNone⟩
    exact ⟨t, reply, hRun, hLock, .inl hCount⟩
  · obtain ⟨t, reply, hRun, hLock⟩ := doRequest_runs env operation
      (unhindered_of_noFlush operation hFlush hEval (hKeys hBounds)) s hLocked
    exact ⟨t, reply, hRun, hLock, .inr hBounds⟩

mutual

theorem doRequest_reaches_lock (update : Update) (env : Env) {bounds : Prop} :
    (operation : Operation) → (bounds → KeysInBounds operation) → noFlush operation = false →
    hasEval operation = false → ∀ s : State Vm, s.Safe bounds →
    ∃ t, (machine lua).Reaches s (doRequest update false operation) t .lockReaders ∧ t.Safe bounds
  | .base (.flushDB _), _, _, _, s, hSafe | .base (.flushAll _), _, _, _, s, hSafe => by
    exact ⟨s, .here s _ _, hSafe⟩
  | .redis (.redisExec operations), hKeys, hFlush, hEval, s, hSafe => by
    obtain ⟨t, hReach, hAfter⟩ :=
      execOperations_reaches_lock update env operations hKeys hFlush hEval s hSafe
    exact ⟨t, hReach.bind, hAfter⟩

theorem execOperations_reaches_lock (update : Update) (env : Env) {bounds : Prop} :
    (operations : List Operation) → (bounds → AllKeysInBounds operations) →
    allNoFlush operations = false → anyHasEval operations = false → ∀ s : State Vm, s.Safe bounds →
    ∃ t, (machine lua).Reaches s (execOperations update operations) t .lockReaders ∧ t.Safe bounds
  | operation :: operations, hKeys, hFlush, hEval, s, hSafe => by
    rw [anyHasEval, Bool.or_eq_false_iff] at hEval
    cases hFirst : noFlush operation with
    | false =>
      obtain ⟨t, hReach, hAfter⟩ := doRequest_reaches_lock update env operation
        (fun hBounds => (hKeys hBounds).1) hFirst hEval.1 s hSafe
      exact ⟨t, hReach.bind, hAfter⟩
    | true =>
      rw [allNoFlush, hFirst] at hFlush
      obtain ⟨middle, reply, hRun, hMiddle⟩ :=
        doRequest_ends update env (fun hBounds => (hKeys hBounds).1) hFirst hEval.1 hSafe
      obtain ⟨t, hReach, hAfter⟩ := execOperations_reaches_lock update env operations
        (fun hBounds => (hKeys hBounds).2) hFlush hEval.2 middle hMiddle
      exact ⟨t, hRun.then_reaches hReach.bind, hAfter⟩

end

/-- A transaction with a flush in it and no script waits for itself. -/
theorem locksTwice_of_nestedFlush (update : Update) {operation : Operation} {s : State Vm}
    (hFree : s.readersLocked = false) (hKeys : s.count = 0 ∨ KeysInBounds operation)
    (hEval : hasEval operation = false) (hNested : noNestedFlush operation = false) :
    LocksTwice lua s (doRequest update true operation) := by
  match operation, hNested with
  | .redis (.redisExec operations), hNested =>
    let locked : State Vm := { s with readersLocked := true }
    obtain ⟨t, hReach, hAfter⟩ := execOperations_reaches_lock update Env.quiet operations id
      hNested hEval locked ⟨rfl, hKeys⟩
    refine ⟨t, ?_, hAfter.1⟩
    have hLock : (machine lua).perform s .lockReaders locked () :=
      ⟨Env.quiet, by simp [handle, hFree, locked]⟩
    exact .perform rfl hLock hReach.bind.bind

/-- An entry never waits for the lock that it holds itself, as long as no flush stands
inside a transaction and no script calls one; for an entry without a script this
condition is exact, and without it the entry waits in every state, an empty database
included, unless a KEYS in it panics. -/
theorem locks_free_lock_iff [Inhabited Vm] (lua : LuaMachine Vm) (update : Update)
    (operation : Operation) :
    (∀ s : State Vm, s.readersLocked = false → noNestedFlush operation = true →
      ScriptsDoNotFlush lua s (doRequest update true operation) →
        ¬ LocksTwice lua s (doRequest update true operation)) ∧
    (hasEval operation = false →
      ((∀ s : State Vm, s.readersLocked = false →
        ¬ LocksTwice lua s (doRequest update true operation)) ↔ noNestedFlush operation = true)) ∧
    (hasEval operation = false → KeysInBounds operation → ∀ s : State Vm, s.readersLocked = false →
      (LocksTwice lua s (doRequest update true operation) ↔ noNestedFlush operation = false)) := by
  have hNever (hEval : hasEval operation = false) (hNested : noNestedFlush operation = true)
      (s : State Vm) (hFree : s.readersLocked = false) :
      ¬ LocksTwice lua s (doRequest update true operation) :=
    not_locksTwice update operation hFree hNested fun h => by cases hEval.symm.trans h
  refine ⟨fun s hFree hNested hScripts => ?_, fun hEval => ⟨fun hNone => ?_, hNever hEval⟩,
    fun hEval hKeys s hFree =>
      ⟨fun hTwice => ?_, locksTwice_of_nestedFlush update hFree (.inr hKeys) hEval⟩⟩
  · exact not_locksTwice update operation hFree hNested fun _ => hScripts
  · by_contra hNested
    exact hNone (.new 0 default) rfl (locksTwice_of_nestedFlush update rfl (.inl rfl) hEval
      (Bool.eq_false_of_not_eq_true hNested))
  · by_contra hNested
    exact hNever hEval (Bool.eq_true_of_not_eq_false hNested) s hFree hTwice

/-- A transaction of an INCR and a KEYS. -/
theorem locks_free_lock_incr :
    ¬ LocksTwice LuaMachine.none (State.new 1 ()) (doRequest ⟨0, 0, .none, false⟩ true
      (.redis (.redisExec [.base (.incr ⟨[107]⟩), .read (.keys ⟨[42]⟩)]))) :=
  ((locks_free_lock_iff LuaMachine.none _ _).2.1 rfl).2 rfl _ rfl

/-- MULTI, FLUSHDB, EXEC: the transaction holds the lock when the flush asks for it. -/
theorem flushDB_in_transaction_locksTwice :
    RaftCommand.parseRequest [.simpleString "FLUSHDB"] = .ok (.base (.flushDB ⟨false⟩)) ∧
      LocksTwice LuaMachine.none (State.new 1 ())
        (doRequest ⟨0, 0, .none, false⟩ true (.redis (.redisExec [.base (.flushDB ⟨false⟩)]))) := by
  refine ⟨by rfl, { State.new 1 () with readersLocked := true }, ?_, rfl⟩
  have hLock : (machine LuaMachine.none).perform (State.new 1 ()) .lockReaders
      { State.new 1 () with readersLocked := true } () := ⟨Env.quiet, rfl⟩
  exact .perform rfl hLock (.here _ _ _)

end
end CacheCat.Cache
