import CacheCat.Cache.Conduct

/-! Which handlers can wait forever. A query stays without an answer only if it
takes the lock of the readers, panics, or belongs to a script. A handler that asks
none of these, and does not give the lock back either, comes to its end in every
state and leaves the lock as it found it. -/
namespace CacheCat.Cache

/-- A query that is always answered and does not touch the lock of the readers. -/
def Query.Plain : Query → Prop
  | .lockReaders => False
  | .unlockReaders => False
  | .panic => False
  | .beginScript => False
  | .enterScript _ => False
  | .advanceScript => False
  | .resumeScript _ => False
  | .interrupted => False
  | .endScript _ => False
  | .runScript _ => False
  | _ => True

theorem Query.Plain.procedure {query : Query} (hPlain : query.Plain) :
    Cache.procedure query = none := by
  cases query with
  | runScript update => exact hPlain.elim
  | _ => rfl

theorem State.dropExpired_readersLocked {Vm : Type} (s : State Vm) (db : Nat) (key : Bytes) :
    (s.dropExpired db key).readersLocked = s.readersLocked := by
  unfold dropExpired
  split <;> rfl

theorem State.dropExpired_count {Vm : Type} (s : State Vm) (db : Nat) (key : Bytes) :
    (s.dropExpired db key).count = s.count := by
  unfold dropExpired
  split <;> rfl

theorem Query.Plain.handle {Vm : Type} {query : Query} (hPlain : query.Plain) (lua : LuaMachine Vm)
    (env : Env) (s : State Vm) :
    ∃ t answer, Cache.handle lua env s query = some (t, answer) ∧
      t.readersLocked = s.readersLocked ∧ t.count = s.count := by
  cases query with
  | lockReaders | unlockReaders | panic | interrupted | enterScript params | runScript update =>
    exact hPlain.elim
  | getEntry db key =>
    exact ⟨_, _, rfl, s.dropExpired_readersLocked db key, s.dropExpired_count db key⟩
  | _ => exact ⟨_, _, rfl, rfl, rfl⟩

abbrev Plain {A : Type} (program : Action A) : Prop := program.Asks Query.Plain

theorem Plain.runs {Vm A : Type} {program : Action A} (hPlain : Plain program)
    (lua : LuaMachine Vm) (env : Env) (s : State Vm) :
    ∃ t a, (machine lua).Runs s program t a ∧ t.readersLocked = s.readersLocked := by
  refine Library.Machine.Runs.exists_of_relies
    (fun t : State Vm => t.readersLocked = s.readersLocked)
    (fun middle query hLock hQuery => ?_) hPlain rfl
  obtain ⟨t, answer, hHandle, hKeep, -⟩ := hQuery.handle lua env middle
  exact ⟨hQuery.procedure, t, answer, ⟨env, hHandle⟩, trivial, hKeep.trans hLock⟩

variable (update : Update)

theorem permits_plain {rely : (query : Query) → query.Answer → Prop} :
    Permits rely Query.Plain (fun _ => True) update where
  looks query hQuery := by
    cases query <;> trivial
  pushes _ _ := trivial
  finds _ _ _ _ := trivial
  strings _ := trivial

theorem mayPut_plain {rely : (query : Query) → query.Answer → Prop} (db : Nat) (key : Bytes) :
    MayPut rely Query.Plain (fun _ => True) db key :=
  fun _ _ _ => ⟨fun _ _ _ => trivial, trivial, trivial⟩

theorem baseRequest_plain {operation : BaseOperation}
    (hLock : BaseOperation.takesLock operation = false) : Plain (baseRequest update operation) := by
  refine baseRequest_relies (permits_plain update) ?_
    (fun key _ => mayPut_plain _ key) (BaseOperation.storesOnly_of_forall (fun _ => trivial) _)
  rw [hLock]
  exact nofun

theorem readRequest_plain (forScript : Bool) (db : Nat) (readClock : Option Nat)
    {operation : ReadOperation} (hBounds : ReadOperation.InBounds operation) :
    Plain (readRequest forScript db readClock operation) :=
  readRequest_relies (permits_plain ⟨0, 0, .none, false⟩) forScript db readClock (.inl hBounds)

theorem redisRequest_plain {operation : RedisOperation} (hPlain : redisIsPlain operation = true) :
    Plain (redisRequest update false operation) :=
  flatRequest_relies (permits_plain update) (fun hEq => by cases hEq) hPlain (fun _ _ => trivial)
    fun key _ => mayPut_plain _ key

/-! ### Transactions -/

/-- A script that comes to its end although the lock is held, and leaves it so.
One that calls FLUSHDB does not. -/
def ScriptEnds {Vm : Type} (lua : LuaMachine Vm) (update : Update) (params : EvalParams) : Prop :=
  ∀ s, s.readersLocked = true →
    ∃ t reply, (machine lua).Runs s (execLua update params) t reply ∧ t.readersLocked = true

mutual

/-- The operations that come to their end inside a transaction, provided that the
scripts among them do. -/
def Unhindered (ends : EvalParams → Prop) : Operation → Prop
  | .base operation => BaseOperation.takesLock operation = false
  | .read operation => ReadOperation.InBounds operation
  | .redis operation => RedisUnhindered ends operation

def RedisUnhindered (ends : EvalParams → Prop) : RedisOperation → Prop
  | .redisEval params => ends params
  | .redisExec operations => AllUnhindered ends operations
  | _ => True

def AllUnhindered (ends : EvalParams → Prop) : List Operation → Prop
  | [] => True
  | operation :: operations => Unhindered ends operation ∧ AllUnhindered ends operations

end

section

variable {Vm : Type} {lua : LuaMachine Vm} {update : Update}

/-- A plain handler keeps the lock that the transaction holds. -/
theorem Plain.runs_locked {A : Type} {program : Action A} (hPlain : Plain program) (env : Env)
    {s : State Vm} (hLocked : s.readersLocked = true) :
    ∃ t a, (machine lua).Runs s program t a ∧ t.readersLocked = true := by
  obtain ⟨t, a, hRun, hKeep⟩ := hPlain.runs lua env s
  exact ⟨t, a, hRun, hKeep.trans hLocked⟩

mutual

theorem doRequest_runs (env : Env) : (operation : Operation) →
    Unhindered (ScriptEnds lua update) operation → ∀ s, s.readersLocked = true →
    ∃ t reply, (machine lua).Runs s (doRequest update false operation) t reply ∧
      t.readersLocked = true
  | .base _, hFree, _, hLocked => by
    exact (baseRequest_plain update hFree).runs_locked env hLocked
  | .read _, hFree, _, hLocked => by
    exact (readRequest_plain _ _ _ hFree).runs_locked env hLocked
  | .redis operation, hFree, s, hLocked => by
    exact redisRequest_runs env operation hFree s hLocked

theorem redisRequest_runs (env : Env) (operation : RedisOperation)
    (hFree : RedisUnhindered (ScriptEnds lua update) operation) (s : State Vm)
    (hLocked : s.readersLocked = true) :
    ∃ t reply, (machine lua).Runs s (redisRequest update false operation) t reply ∧
      t.readersLocked = true := by
  cases operation with
  | redisEval params => exact hFree s hLocked
  | redisExec operations =>
    obtain ⟨t, replies, hRun, hEnd⟩ := execOperations_runs env operations hFree s hLocked
    exact ⟨t, _, hRun.bind (.done t _), hEnd⟩
  | _ => exact (redisRequest_plain update rfl).runs_locked env hLocked

theorem execOperations_runs (env : Env) : (operations : List Operation) →
    AllUnhindered (ScriptEnds lua update) operations → ∀ s, s.readersLocked = true →
    ∃ t replies, (machine lua).Runs s (execOperations update operations) t replies ∧
      t.readersLocked = true
  | [], _, s, hLocked => ⟨s, [], .done s [], hLocked⟩
  | operation :: operations, hFree, s, hLocked => by
    obtain ⟨middle, reply, hFirst, hMiddle⟩ := doRequest_runs env operation hFree.1 s hLocked
    obtain ⟨t, replies, hRest, hEnd⟩ := execOperations_runs env operations hFree.2 middle hMiddle
    exact ⟨t, _, hFirst.bind (hRest.bind (.done t _)), hEnd⟩

end

/-- The operations of a transaction one after the other, each in the state that
the one before has left, with their replies. After the last one only the
surroundings act. -/
inductive RunsInOrder (lua : LuaMachine Vm) (update : Update) :
    State Vm → List Operation → State Vm → List Value → Prop
  | nil {s t : State Vm} (hRun : (machine lua).Runs s (.done ()) t ()) :
      RunsInOrder lua update s [] t []
  | cons {s middle t : State Vm} {operation : Operation} {operations : List Operation}
      {reply : Value} {replies : List Value}
      (hFirst : (machine lua).Runs s (doRequest update false operation) middle reply)
      (hRest : RunsInOrder lua update middle operations t replies) :
      RunsInOrder lua update s (operation :: operations) t (reply :: replies)

theorem RunsInOrder.length_eq {s t : State Vm} {operations : List Operation} {replies : List Value}
    (hRun : RunsInOrder lua update s operations t replies) :
    replies.length = operations.length := by
  induction hRun with
  | nil _ => rfl
  | cons _ _ ih => simp [ih]

theorem runsInOrder_of_execOperations {operations : List Operation} {s t : State Vm}
    {replies : List Value}
    (hRun : (machine lua).Runs s (execOperations update operations) t replies) :
    RunsInOrder lua update s operations t replies := by
  induction operations generalizing s replies with
  | nil =>
    have hEmpty : execOperations update [] = (.done () : Action Unit) >>= fun _ => .done [] := rfl
    rw [hEmpty] at hRun
    obtain ⟨_, rfl, hDone⟩ := hRun.of_bind_done
    exact .nil hDone
  | cons operation operations ih =>
    obtain ⟨middle, reply, hFirst, hRun⟩ := Library.Machine.Runs.exists_of_bind hRun
    obtain ⟨rest, rfl, hRest⟩ := hRun.of_bind_done
    exact .cons hFirst (ih hRest)

end
end CacheCat.Cache
