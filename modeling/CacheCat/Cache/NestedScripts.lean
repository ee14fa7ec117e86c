import CacheCat.Cache.LockDiscipline

/-! A script that calls EVAL. All scripts share one Lua machine and one interrupt flag, and an
inner script does not give them back as it found them. -/
namespace CacheCat.Cache

variable {Vm : Type} {lua : LuaMachine Vm} {s t : State Vm} {update : Update} {reply : Value}

/-! ### What other threads leave alone -/

variable (lua) in
/-- The node with only some of its disturbances. -/
abbrev sheltered (disturbance : State Vm → State Vm → Prop) :=
  (machine lua).restrict (fun _ _ _ => True) disturbance

variable (lua) in
/-- The node while no other connection interrupts a script. -/
abbrev uninterrupted := sheltered lua fun now after => after.interruptFlag = now.interruptFlag

theorem vm_of_disturbs (h : Disturbs s t) : t.vm = s.vm ∧ t.running = s.running := by
  cases h with
  | expire db key =>
    unfold State.dropExpired
    split <;> exact ⟨rfl, rfl⟩
  | interrupt => exact ⟨rfl, rfl⟩

variable {disturbance : State Vm → State Vm → Prop}

/-- The surroundings reach neither the machine nor the depth of the calls. -/
theorem vm_of_disturbances (hDisturbance : ∀ s t, disturbance s t → Disturbs s t)
    (h : Relation.ReflTransGen disturbance s t) : t.vm = s.vm ∧ t.running = s.running := by
  induction h with
  | refl => exact ⟨rfl, rfl⟩
  | tail _ hDisturb ih =>
    have hKept := vm_of_disturbs (hDisturbance _ _ hDisturb)
    exact ⟨hKept.1.trans ih.1, hKept.2.trans ih.2⟩

theorem flag_of_disturbances (h : Relation.ReflTransGen (uninterrupted lua).disturb s t) :
    t.interruptFlag = s.interruptFlag := by
  induction h with
  | refl => rfl
  | tail _ hDisturb ih => exact hDisturb.2.trans ih

/-- No thread lowers the flag. -/
theorem raised_of_disturbances (h : Relation.ReflTransGen Disturbs s t)
    (hRaised : s.interruptFlag = true) : t.interruptFlag = true := by
  induction h with
  | refl => exact hRaised
  | tail _ hDisturb ih =>
    cases hDisturb with
    | expire db key =>
      unfold State.dropExpired
      split <;> exact ih
    | interrupt => rfl

/-! ### Commands that run no script -/

/-- What depends on the machine, the depth and the flag only, and survives the
disturbances, survives a command that is not EVAL. -/
theorem kept_of_request (Kept : State Vm → Prop) {operation : Operation}
    (hEval : hasEval operation = false)
    (hStill : ∀ now after : State Vm, after.vm = now.vm ∧ after.running = now.running ∧
      after.interruptFlag = now.interruptFlag → Kept now → Kept after)
    (hDisturb : ∀ now after, Kept now → (sheltered lua disturbance).disturb now after → Kept after)
    (hRun : (sheltered lua disturbance).Runs s (doRequest update false operation) t reply)
    (hKept : Kept s) : Kept t := by
  have hAsks : AsksIn update.updateType False True (doRequest update false operation) :=
    doRequest_asksIn update operation (.inr trivial) (by simp [hEval])
  have hQuery {query : Query} (hAsked : query.AskedIn update.updateType False True) :
      ¬ query.OfScript := by
    cases query with
    | push request | lockReaders => exact id
    | runScript update => exact hAsked.1.elim
    | _ => exact hAsked
  refine (hRun.ensures Kept ?_ ?_ hDisturb hAsks hKept).2
  · intro query body hAsked hBody
    cases query with
    | runScript update => exact hAsked.1.elim
    | _ => cases hBody
  · rintro now query after answer hNow hAsked ⟨⟨env, hHandle⟩, -⟩
    exact ⟨trivial, hStill now after (vm_of_handle (hQuery hAsked) hHandle) hNow⟩

/-- A command that is not EVAL leaves the machine of the script that calls it alone. -/
theorem vm_of_request {operation : Operation} (hEval : hasEval operation = false)
    (hRun : (machine lua).Runs s (doRequest update false operation) t reply) :
    t.vm = s.vm ∧ t.running = s.running := by
  refine kept_of_request (fun now => now.vm = s.vm ∧ now.running = s.running) hEval
    (fun now after hSame hNow => ⟨hSame.1.trans hNow.1, hSame.2.1.trans hNow.2⟩)
    (fun now after hNow hDisturb => ?_) (hRun.restrict fun _ _ _ _ _ _ => trivial) ⟨rfl, rfl⟩
  have hKept := vm_of_disturbs hDisturb.1
  exact ⟨hKept.1.trans hNow.1, hKept.2.trans hNow.2⟩

theorem flag_of_request {operation : Operation} (hEval : hasEval operation = false)
    (hRun : (uninterrupted lua).Runs s (doRequest update false operation) t reply) :
    t.interruptFlag = s.interruptFlag :=
  kept_of_request (·.interruptFlag = s.interruptFlag) hEval
    (fun _ _ hSame hNow => hSame.2.2.trans hNow)
      (fun _ _ hNow hDisturb => hDisturb.2.trans hNow) hRun rfl

/-! ### EVAL inside a script -/

variable {params : EvalParams}

/-- A script that has been run leaves the interrupt flag raised. -/
theorem flag_of_execLua {vm : Vm} (hCompiled : lua.getOrCompileScript s.vm params.script = .ok vm)
    (hRun : (machine lua).Runs s (execLua update params) t reply) : t.interruptFlag = true := by
  obtain ⟨before, begun, _, hBefore, ⟨_, hBegin⟩, hRun⟩ := hRun.of_ask rfl
  cases hBegin
  obtain ⟨start, entered, answer, hStart, ⟨_, hEnter⟩, hRun⟩ := hRun.of_ask rfl
  have hBegun := (vm_of_disturbances (fun _ _ h => h) hStart).1
  rw [(vm_of_disturbances (fun _ _ h => h) hBefore).1] at hBegun
  simp only [handle, hBegun, hCompiled] at hEnter
  cases hEnter
  change (machine lua).Runs _ (ask (.runScript update) >>= fun result =>
    ask (.endScript true) >>= fun _ => .done (scriptReply params.proto result)) t reply at hRun
  obtain ⟨_, result, -, hEnd⟩ := hRun.exists_of_bind
  obtain ⟨_, ended, _, -, ⟨_, hEnded⟩, hDone⟩ := hEnd.of_ask rfl
  cases hEnded
  exact raised_of_disturbances hDone.of_done.2 (Bool.or_true _)

variable {error : ProtocolError}

/-- A script that does not compile lowers the flag, counts the depth up and down, and is
otherwise only disturbed. -/
theorem of_execLua_error (hCompiled : lua.getOrCompileScript s.vm params.script = .error error)
    (hRun : (sheltered lua disturbance).Runs s (execLua update params) t reply) :
    reply = error.toValue ∧ ∃ before ended,
      Relation.ReflTransGen (sheltered lua disturbance).disturb s before ∧
      Relation.ReflTransGen (sheltered lua disturbance).disturb
        { before with interruptFlag := false, running := before.running + 1 } ended ∧
      Relation.ReflTransGen (sheltered lua disturbance).disturb
        { ended with running := ended.running - 1 } t := by
  obtain ⟨before, begun, _, hBefore, ⟨⟨_, hBegin⟩, -⟩, hRun⟩ := hRun.of_ask rfl
  cases hBegin
  obtain ⟨start, entered, answer, hStart, ⟨⟨_, hEnter⟩, -⟩, hRun⟩ := hRun.of_ask rfl
  have hBegun := (vm_of_disturbances (fun _ _ h => h.1) hStart).1
  rw [(vm_of_disturbances (fun _ _ h => h.1) hBefore).1] at hBegun
  simp only [handle, hBegun, hCompiled] at hEnter
  cases hEnter
  obtain ⟨ended, left, _, hMiddle, ⟨⟨_, hEnd⟩, -⟩, hDone⟩ := hRun.of_ask rfl
  simp only [handle, Bool.or_false] at hEnd
  cases hEnd
  obtain ⟨rfl, hLast⟩ := hDone.of_done
  exact ⟨rfl, before, ended, hBefore, hStart.trans hMiddle, hLast⟩

theorem vm_of_execLua_error (hCompiled : lua.getOrCompileScript s.vm params.script = .error error)
    (hRun : (machine lua).Runs s (execLua update params) t reply) :
    reply = error.toValue ∧ t.vm = s.vm ∧ t.running = s.running := by
  obtain ⟨hReply, before, ended, hBefore, hMiddle, hLast⟩ :=
    of_execLua_error hCompiled (hRun.restrict fun _ _ _ _ _ _ => trivial)
  have hBefore := vm_of_disturbances (fun _ _ h => h.1) hBefore
  have hMiddle := vm_of_disturbances (fun _ _ h => h.1) hMiddle
  have hLast := vm_of_disturbances (fun _ _ h => h.1) hLast
  refine ⟨hReply, hLast.1.trans (hMiddle.1.trans hBefore.1), ?_⟩
  rw [hLast.2, hMiddle.2, hBefore.2]
  rfl

/-- The flag is lowered even if it was raised before: a pending interrupt is lost. -/
theorem flag_of_execLua_error (hCompiled : lua.getOrCompileScript s.vm params.script = .error error)
    (hRun : (uninterrupted lua).Runs s (execLua update params) t reply) :
    t.interruptFlag = false := by
  obtain ⟨-, before, ended, -, hMiddle, hLast⟩ := of_execLua_error hCompiled hRun
  rw [flag_of_disturbances hLast]
  exact flag_of_disturbances hMiddle

theorem runs_execLua_error (hCompiled : lua.getOrCompileScript s.vm params.script = .error error) :
    (uninterrupted lua).Runs s (execLua update params)
    { s with interruptFlag := false } error.toValue := by
  have hEnter : handle lua .quiet { s with interruptFlag := false, running := s.running + 1 }
      (.enterScript params) =
        some ({ s with interruptFlag := false, running := s.running + 1 }, .error error) := by
    simp only [handle, hCompiled]
  exact .perform rfl ⟨⟨.quiet, rfl⟩, trivial⟩ (.perform rfl ⟨⟨.quiet, hEnter⟩, trivial⟩
    (.perform rfl ⟨⟨.quiet, rfl⟩, trivial⟩ (.done _ _)))

variable (lua s update) in
/-- A call that comes back, and that in every run leaves the script around it the machine,
the depth and, unless another connection interrupts, the flag that it had. -/
def GivesBack (operation : Operation) : Prop :=
  (∃ t reply, (uninterrupted lua).Runs s (doRequest update false operation) t reply) ∧
  (∀ t reply, (machine lua).Runs s (doRequest update false operation) t reply →
    t.vm = s.vm ∧ t.running = s.running) ∧
  ∀ t reply, (uninterrupted lua).Runs s (doRequest update false operation) t reply →
    t.interruptFlag = s.interruptFlag

/-- A script inside a script gives back what it found if and only if it does not compile and no
interrupt is pending. One that is run raises the flag, and the outer script is interrupted at its
next hook; one that does not compile lowers it, and a pending interrupt is lost. All other
commands leave machine, depth and flag alone. -/
theorem nested_iff (params : EvalParams) :
    (s.interruptFlag = false → (GivesBack lua s update (.redis (.redisEval params)) ↔
      ∃ error, lua.getOrCompileScript s.vm params.script = .error error)) ∧
    (∀ error, lua.getOrCompileScript s.vm params.script = .error error →
      (∀ t reply, (machine lua).Runs s (doRequest update false (.redis (.redisEval params))) t
        reply → reply = error.toValue ∧ t.vm = s.vm ∧ t.running = s.running) ∧
      ∀ t reply, (uninterrupted lua).Runs s (doRequest update false (.redis (.redisEval params))) t
        reply → t.interruptFlag = false) ∧
    (∀ vm, lua.getOrCompileScript s.vm params.script = .ok vm →
      ∀ t reply, (machine lua).Runs s (doRequest update false (.redis (.redisEval params))) t
        reply → t.interruptFlag = true) ∧
    ∀ operation, hasEval operation = false →
      (∀ t reply, (machine lua).Runs s (doRequest update false operation) t reply →
        t.vm = s.vm ∧ t.running = s.running) ∧
      ∀ t reply, (uninterrupted lua).Runs s (doRequest update false operation) t reply →
        t.interruptFlag = s.interruptFlag := by
  have hEval : doRequest update false (.redis (.redisEval params)) = execLua update params := by
    rw [doRequest, redisRequest]
    rfl
  unfold GivesBack
  rw [hEval]
  refine ⟨fun hFlag => ⟨?_, ?_⟩,
    fun error hCompiled => ⟨fun t reply => vm_of_execLua_error hCompiled,
    fun t reply => flag_of_execLua_error hCompiled⟩,
      fun vm hCompiled t reply => flag_of_execLua hCompiled,
    fun operation hEval => ⟨fun t reply => vm_of_request hEval,
      fun t reply => flag_of_request hEval⟩⟩
  · rintro ⟨⟨t, reply, hRun⟩, -, hKept⟩
    cases hCompiled : lua.getOrCompileScript s.vm params.script with
    | error error => exact ⟨error, rfl⟩
    | ok vm =>
      have hRaised := flag_of_execLua hCompiled hRun.of_restrict
      rw [hKept t reply hRun, hFlag] at hRaised
      cases hRaised
  · rintro ⟨error, hCompiled⟩
    refine ⟨⟨_, _, runs_execLua_error hCompiled⟩,
      fun t reply hRun => (vm_of_execLua_error hCompiled hRun).2, fun t reply hRun => ?_⟩
    rw [flag_of_execLua_error hCompiled hRun, hFlag]

/-! ### An outer and an inner script -/

/-- What the scripts below do, with `redis.call` in a local variable. -/
inductive Step where
  /-- `call('EVAL', 'return 1', 1, 'b')` -/
  | eval
  /-- `call('SET', KEYS[1], value)` -/
  | set (value : String)
  /-- A loop of a thousand instructions. -/
  | work
  /-- An error that goes up to the host. -/
  | fail (message : String)

/-- The global `KEYS`, and what is left to do of the scripts on the stack. -/
structure Stack where
  keys : LuaValue
  scripts : List (List Step)

/-- The first of the keys. -/
def Stack.key (vm : Stack) : String :=
  match LuaValue.index 1 (vm.keys.asTable.getD []) with
  | .string key => Protocol.Parser.lossy key
  | _ => ""

/-- A Lua machine that knows a script `nested`, a script `inlined` without the call of EVAL, and
otherwise `return 1`. -/
def stackMachine : LuaMachine Stack where
  getOrCompileScript vm _ := .ok vm
  setGlobal vm name value := if name = "KEYS" then { vm with keys := value } else vm
  call vm script :=
    let steps := match String.ofList script with
      | "nested" => [.eval, .set "v", .work, .set "w"]
      | "inlined" => [.set "v", .work, .set "w"]
      | _ => []
    { vm with scripts := steps :: vm.scripts }
  advance vm :=
    match vm.scripts with
    | (.eval :: steps) :: rest =>
      (.call ["EVAL", "return 1", "1", "b"], { vm with scripts := steps :: rest })
    | (.set value :: steps) :: rest =>
      (.call ["SET", vm.key, value], { vm with scripts := steps :: rest })
    | (.work :: steps) :: rest => (.hook, { vm with scripts := steps :: rest })
    | (.fail message :: _) :: rest =>
      (.finish (.error (.other message)), { vm with scripts := rest })
    | [] :: rest => (.finish (.ok (.integer 1)), { vm with scripts := rest })
    | [] => (.finish (.ok (.integer 1)), vm)
  resume vm
    | .raise message => { vm with scripts := [.fail message] :: vm.scripts.tail }
    | .value _ => vm

def evalOnA (script : String) : Operation :=
  .redis (.redisEval ⟨script.toList, 1, [bytes "a"], [], 2⟩)

/-- The flag stays raised after `return 1`. -/
theorem nested_iff_raised :
    (State.new 1 (⟨.nil, []⟩ : Stack)).interruptFlag = false ∧
    ∀ t reply, (machine stackMachine).Runs (State.new 1 ⟨.nil, []⟩)
      (doRequest ⟨0, 0, .none, true⟩ false (evalOnA "return 1")) t reply →
        t.interruptFlag = true := by
  exact ⟨rfl, (nested_iff ⟨"return 1".toList, 1, [bytes "a"], [], 2⟩).2.2.1 _
    (show stackMachine.getOrCompileScript _ _ = _ from rfl)⟩

/-- What a script leaves under the keys `a` and `b`. -/
def leftBy (script : String) (a b : Option (ValueObject × Option Nat)) : Prop :=
  ∃ t reply, (machine stackMachine).Runs (State.new 1 ⟨.nil, []⟩)
    (doRequest ⟨0, 0, .none, false⟩ true (evalOnA script)) t reply ∧
      t.visible 0 (bytes "a") = a ∧ t.visible 0 (bytes "b") = b

theorem leftBy_of_execute {script : String} {a b : Option (ValueObject × Option Nat)}
    (hRun : (execute stackMachine .quiet 100 (State.new 1 ⟨.nil, []⟩)
      (doRequest ⟨0, 0, .none, false⟩ true (evalOnA script))).map
        (fun r => (r.1.visible 0 (bytes "a"), r.1.visible 0 (bytes "b"))) = some (a, b)) :
    leftBy script a b := by
  obtain ⟨r, hRun, hShown⟩ := Option.map_eq_some_iff.mp hRun
  exact ⟨r.1, r.2, runs_of_execute hRun, congrArg Prod.fst hShown, congrArg Prod.snd hShown⟩

/-- After the inner script the outer one finds the `KEYS` of the inner, so it sets the wrong key,
and it is interrupted before its last command. -/
theorem nested_interrupted :
    leftBy "nested" none (some (.string (bytes "v"), none)) ∧
      leftBy "inlined" (some (.string (bytes "w"), none)) none :=
  ⟨leftBy_of_execute (by decide +kernel), leftBy_of_execute (by decide +kernel)⟩

end CacheCat.Cache
