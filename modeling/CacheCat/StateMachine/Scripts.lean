import CacheCat.StateMachine.Determinism

/-! Logs with scripts. A script sees more of its node than the visible state: the
replies of some reads depend on the physical clock, on orders of iteration, on
random numbers or on entries that wait to be reclaimed, its Lua machine remembers
earlier scripts, and it can be interrupted. Replicas that do not differ in what
their scripts have seen of these end in the same visible state. -/
namespace CacheCat.StateMachine

open Cache
open Library (Agrees Machine)

/-! ### Lua machines that scripts cannot tell apart -/

section

variable {Vm : Type}

def enterScript (lua : LuaMachine Vm) (vm : Vm) (params : EvalParams) : Except ProtocolError Vm :=
  (lua.getOrCompileScript vm params.script).map (lua.enter · params)

inductive EnteredAlike (vms : Vm → Vm → Prop) :
    Except ProtocolError Vm → Except ProtocolError Vm → Prop
  | error (error : ProtocolError) : EnteredAlike vms (.error error) (.error error)
  | ok {v w : Vm} (hVms : vms v w) : EnteredAlike vms (.ok v) (.ok w)

/-- Related machines do the same with every script of a certain kind, and stay
related. -/
structure Bisimulation (lua : LuaMachine Vm) (kind : EvalParams → Prop) (vms : Vm → Vm → Prop) :
    Prop where
  enter : ∀ v w params, kind params → vms v w →
    EnteredAlike vms (enterScript lua v params) (enterScript lua w params)
  advance : ∀ v w, vms v w → (lua.advance v).1 = (lua.advance w).1 ∧
    vms (lua.advance v).2 (lua.advance w).2
  resume : ∀ v w reply, vms v w → vms (lua.resume v reply) (lua.resume w reply)

def Indistinguishable (lua : LuaMachine Vm) (kind : EvalParams → Prop) (v w : Vm) : Prop :=
  ∃ vms, Bisimulation lua kind vms ∧ vms v w

theorem Indistinguishable.refl (lua : LuaMachine Vm) (kind : EvalParams → Prop) (v : Vm) :
    Indistinguishable lua kind v v := by
  refine ⟨Eq, ⟨?_, ?_, ?_⟩, rfl⟩
  · rintro v _ params - rfl
    cases enterScript lua v params with
    | error error => exact .error error
    | ok w => exact .ok rfl
  · rintro v _ rfl
    exact ⟨rfl, rfl⟩
  · rintro v _ reply rfl
    rfl

/-! ### Calm runs -/

/-- What scripts get to know in a calm run is nothing that another replica could
see differently: a reply that no surroundings change, and the size of a database
without expired entries. -/
def Calm (kind : EvalParams → Prop) (s : State Vm) : (query : Query) → query.Answer → Prop
  | .reply true execute, _ => ∀ env env', execute env = execute env'
  | .len true db, _ => ∀ key entry, (s.databases db).lookup key = some entry →
      entry.expired s.writeClock = false
  | .enterScript params, _ => kind params
  | _, _ => True

/-- No interrupt hits a script that is running. -/
def Undisturbed (s t : State Vm) : Prop :=
  0 < s.running → t.interruptFlag = s.interruptFlag

/-- The node in the runs where all of this holds. -/
def calmMachine (lua : LuaMachine Vm) (kind : EvalParams → Prop) :
    Machine (State Vm) Query Query.Answer :=
  (machine lua).restrict (Calm kind) Undisturbed

variable {lua : LuaMachine Vm} {kind : EvalParams → Prop} {vms : Vm → Vm → Prop}
  {s s' t t' : State Vm} {env env' : Env}

theorem keys_eq_unhidden {db : Nat} (hLive : ∀ key entry,
    (s.databases db).lookup key = some entry → entry.expired s.writeClock = false) :
    (s.databases db).keys = (s.unhidden db none).keys := by
  congr 1
  apply Finmap.ext_lookup
  intro key
  rw [State.unhidden, Mocha.Table.lookup_retain]
  cases hLookup : (s.databases db).lookup key with
  | none => rfl
  | some entry =>
    simp [Option.filter_some, Mocha.EntrySnapshot.hidden, hLive key entry hLookup]

/-- The queries of scripts, on two nodes in calm runs. -/
theorem script_alike (hVms : Bisimulation lua kind vms) (h : s.Alike vms True t) {query : Query}
    (hScript : query.isScript = true) {answer answer' : query.Answer}
    (hLeft : handle lua env s query = some (s', answer)) (hCalm : Calm kind s query answer)
    (hRight : handle lua env' t query = some (t', answer')) (hCalm' : Calm kind t query answer') :
    s'.Alike vms True t' ∧ query.AnswersAlike query answer answer' := by
  cases query with
  | len forScript db =>
    cases forScript with
    | false => cases hScript
    | true =>
      cases hLeft
      cases hRight
      refine ⟨h, fun _ => ?_⟩
      rw [keys_eq_unhidden hCalm, keys_eq_unhidden hCalm', unhidden_keys db h.visible]
  | reply forScript execute =>
    cases forScript with
    | false => cases hScript
    | true =>
      cases hLeft
      cases hRight
      exact ⟨h, fun _ => hCalm env env'⟩
  | beginScript =>
    cases hLeft
    cases hRight
    exact ⟨{ h with
      running := fun _ => congrArg (· + 1) (h.running trivial)
      interruptFlag := fun _ _ => rfl }, trivial⟩
  | enterScript params =>
    have hEntered := hVms.enter _ _ params hCalm (h.vm trivial)
    simp only [enterScript] at hEntered
    simp only [handle] at hLeft hRight
    cases hV : lua.getOrCompileScript s.vm params.script <;>
      cases hW : lua.getOrCompileScript t.vm params.script <;>
      rw [hV, hW] at hEntered <;> rw [hV] at hLeft <;> rw [hW] at hRight <;> cases hLeft <;>
      cases hRight <;> cases hEntered
    · exact ⟨h, rfl⟩
    next hNext => exact ⟨{ h with vm := fun _ => hNext }, rfl⟩
  | advanceScript =>
    cases hLeft
    cases hRight
    have hNext := hVms.advance _ _ (h.vm trivial)
    exact ⟨{ h with vm := fun _ => hNext.2 }, hNext.1⟩
  | resumeScript reply =>
    cases hLeft
    cases hRight
    exact ⟨{ h with vm := fun _ => hVms.resume _ _ reply (h.vm trivial) }, trivial⟩
  | interrupted =>
    simp only [handle] at hLeft hRight
    split_ifs at hLeft hRight with hRunning
    cases hLeft
    cases hRight
    exact ⟨h, h.interruptFlag trivial hRunning⟩
  | endScript finished =>
    cases hLeft
    cases hRight
    refine ⟨{ h with running := fun _ => ?_, interruptFlag := fun _ hRunning => ?_ }, trivial⟩
    · exact congrArg (· - 1) (h.running trivial)
    · have hFlag := h.interruptFlag trivial (Nat.lt_of_lt_of_le hRunning (Nat.sub_le ..))
      exact congrArg (· || finished) hFlag
  | runScript update => cases hLeft
  | _ => cases hScript

/-! ### The loop of a script -/

variable {scripts : Prop} {a b : Update}

theorem forScript_alike (hUpdate : a.Alike b) :
    Update.Alike { a with forScript := true } { b with forScript := true } :=
  ⟨hUpdate.dbNumber, hUpdate.writeClock, rfl, hUpdate.left, hUpdate.right⟩

theorem answers_agrees (hScripts : scripts) (hUpdate : a.Alike b) {event : ScriptEvent}
    {program : Update → Action ScriptReply} (hProgram : Answers event program) :
    Agrees (replicas vms scripts) Eq (program a) (program b) := by
  cases hProgram with
  | refused reply => exact .done rfl
  | performed hCalls finish =>
    refine (doRequest_agrees (forScript_alike hUpdate) (fun _ => hScripts) false _
      (fun _ => hScripts)).bind fun reply reply' hReply => ?_
    exact .done (congrArg finish (hReply rfl))

theorem scriptLoop_agrees (hScripts : scripts) (hUpdate : a.Alike b) :
    Agrees (replicas vms scripts) Eq (scriptLoop a) (scriptLoop b) := by
  have hContinue : Agrees (replicas vms scripts) Eq (ask (.runScript a)) (ask (.runScript b)) :=
    .ask (Query.Alike.runScript hScripts hUpdate) fun _ _ hReply => .done hReply
  have hResume (reply : ScriptReply) : Agrees (replicas vms scripts) Eq
      (ask (.resumeScript reply) >>= fun _ => ask (.runScript a))
      (ask (.resumeScript reply) >>= fun _ => ask (.runScript b)) :=
    (ask_agrees (.resumeScript reply) hScripts).bind fun _ _ _ => hContinue
  refine (ask_agrees .advanceScript hScripts).bind fun event event' hEvent => ?_
  cases hEvent
  cases event with
  | finish reply => exact .done rfl
  | hook =>
    refine (ask_agrees .interrupted hScripts).bind fun raised raised' hRaised => ?_
    cases hRaised
    cases raised with
    | true => exact hResume _
    | false => exact hContinue
  | call args =>
    refine (answers_agrees hScripts hUpdate (redisCall_answers args)).bind
      fun reply reply' hReply => ?_
    cases hReply
    exact hResume reply
  | pcall args =>
    refine (answers_agrees hScripts hUpdate (redisPcall_answers args)).bind
      fun reply reply' hReply => ?_
    cases hReply
    exact hResume reply

theorem interrupt_left (h : s.Alike vms scripts t)
    (hCalm : Undisturbed s { s with interruptFlag := true }) :
    State.Alike vms scripts { s with interruptFlag := true } t :=
  { h with
    interruptFlag := fun hScripts hRunning =>
      (hCalm hRunning).trans (h.interruptFlag hScripts hRunning) }

theorem interrupt_right (h : s.Alike vms scripts t)
    (hCalm : Undisturbed t { t with interruptFlag := true }) :
    State.Alike vms scripts s { t with interruptFlag := true } :=
  { h with
    interruptFlag := fun hScripts hRunning =>
      (h.interruptFlag hScripts hRunning).trans (hCalm (h.running hScripts ▸ hRunning)).symm }

/-- In calm runs, alike nodes stay alike also while scripts run. -/
theorem calm_sound (hVms : Bisimulation lua kind vms) :
    (replicas vms True).Sound (calmMachine lua kind) where
  disturbLeft s t middle h hDisturb := by
    obtain ⟨hDisturb, hCalm⟩ := hDisturb
    cases hDisturb with
    | expire db key => exact h.dropExpired_left db key
    | interrupt => exact interrupt_left h hCalm
  disturbRight s t middle h hDisturb := by
    obtain ⟨hDisturb, hCalm⟩ := hDisturb
    cases hDisturb with
    | expire db key => exact h.dropExpired_right db key
    | interrupt => exact interrupt_right h hCalm
  silent _ hSilent := procedure_of_silent hSilent
  silentLeft _ _ _ _ _ hSilent h hPerform := silent_left h hSilent hPerform.1.choose_spec
  silentRight _ _ _ _ _ hSilent h hPerform := silent_right h hSilent hPerform.1.choose_spec
  perform s t query query' s' t' answer answer' hQueries h hLeft hRight := by
    obtain ⟨⟨env, hLeft⟩, hCalm⟩ := hLeft
    obtain ⟨⟨env', hRight⟩, hCalm'⟩ := hRight
    cases hQueries with
    | same query _ =>
      cases hScript : query.isScript with
      | false => exact handle_alike h hScript hLeft hRight
      | true => exact script_alike hVms h hScript hLeft hCalm hRight hCalm'
    | insert db key policy hData => exact ⟨insert_alike h db key policy hData hLeft hRight, trivial⟩
    | runScript => cases hLeft
  procedure query query' hQueries := by
    cases hQueries with
    | same query hComparable =>
      cases query with
      | runScript update => exact hComparable.elim
      | _ => exact .none
    | insert => exact .none
    | runScript _ hUpdate => exact .some (scriptLoop_agrees trivial hUpdate)

end

/-- Replica determinism with scripts, over calm runs: the scripts of both nodes see
only what the nodes have in common, none of them is interrupted, and the Lua
machines cannot be told apart by the scripts of the log. -/
theorem visible_eq_of_calm_runs {Vm : Type} (lua : LuaMachine Vm) (kind : EvalParams → Prop)
    (log : List LogEntry) {left right : List Batch}
    (hLeftLog : left.flatMap (·.entries) = log) (hRightLog : right.flatMap (·.entries) = log)
    {s s' t t' : State Vm} {responses responses' : List Value} (hCount : s.count = t.count)
    (hVisible : ∀ db key, s.visible db key = t.visible db key)
    (hClock : s.writeClock = t.writeClock) (hIdle : s.running = 0) (hIdle' : t.running = 0)
    (hVm : Indistinguishable lua kind s.vm t.vm)
    (hLeft : (calmMachine lua kind).Runs s (applyBatches left) s' responses)
    (hRight : (calmMachine lua kind).Runs t (applyBatches right) t' responses') :
    (∀ db key, s'.visible db key = t'.visible db key) ∧ s'.writeClock = t'.writeClock ∧
      Indistinguishable lua kind s'.vm t'.vm := by
  obtain ⟨vms, hVms, hRelated⟩ := hVm
  have hStart : s.Alike vms True t :=
    { count := hCount
      writeClock := hClock
      visible := funext₂ hVisible
      vm := fun _ => hRelated
      running := fun _ => hIdle.trans hIdle'.symm
      interruptFlag := fun _ hRunning => absurd hRunning (by simp [hIdle]) }
  have hAgrees : Agrees (replicas vms True) (fun _ _ => True) (applyBatches left)
      (applyBatches right) :=
    applyBatches_agrees (hLeftLog.trans hRightLog.symm) fun _ _ _ => trivial
  have hEnd := (hAgrees.runs (calm_sound hVms) hStart hLeft hRight).1
  exact ⟨fun db key => by rw [hEnd.visible], hEnd.writeClock, vms, hVms, hEnd.vm trivial⟩

/-! ### Two small scripts -/

/-- Where a script stands that makes one call, looks at the reply, and may make
another call. -/
inductive Stage where
  | first
  | second
  | over
deriving DecidableEq

/-- `local n = redis.call(first); if n > 0 then redis.call(second) end`. -/
def conditionalScript (first second : List String) : LuaMachine Stage where
  getOrCompileScript vm _ := .ok vm
  setGlobal vm _ _ := vm
  call _ _ := .first
  advance
    | .first => (.call first, .first)
    | .second => (.call second, .second)
    | .over => (.finish (.ok .nil), .over)
  resume
    | .first, .value (.integer n) => if 0 < n then .second else .over
    | _, _ => .over

def evalEntry : LogEntry :=
  ⟨⟨1, 1, 1⟩, .normal (.new 5 0 (.redis (.redisEval ⟨[], 0, [], [], 2⟩)))⟩

/-- A node on which one expired entry waits to be reclaimed. -/
def unreclaimed : State Stage :=
  { State.new 1 .over with
    writeClock := 5
    databases := fun _ => Finmap.singleton (bytes "old") ⟨⟨1, .int 1⟩, some 3⟩ }

def reclaimed : State Stage := { State.new 1 .over with writeClock := 5 }

theorem visible_unreclaimed : unreclaimed.visible = reclaimed.visible := by
  funext db key
  by_cases hKey : key = bytes "old"
  · subst hKey
    rfl
  · have hLookup : (Finmap.singleton (bytes "old") ⟨⟨1, .int 1⟩, some 3⟩ :
        Mocha.Table Bytes MyValue).lookup key = none := by
      rw [Finmap.lookup_eq_none, Finmap.mem_singleton]
      exact hKey
    simp [State.visible, State.live, unreclaimed, reclaimed, State.new, hLookup]

/-- The run of a program that lets its scripts see neither sizes nor replies of
reads. -/
def executeCalm {Vm A : Type} (lua : LuaMachine Vm) (env : Env) (fuel : Nat) (s : State Vm)
    (program : Action A) : Option (State Vm × A) :=
  (calmMachine lua fun _ => True).interpret (fun s query => match query with
    | .reply true _ => none
    | .len true _ => none
    | query => handle lua env s query) fuel s program

theorem runs_of_executeCalm {Vm A : Type} {lua : LuaMachine Vm} {env : Env} {fuel : Nat}
    {s t : State Vm} {program : Action A} {a : A}
    (hRun : executeCalm lua env fuel s program = some (t, a)) :
    (calmMachine lua fun _ => True).Runs s program t a := by
  refine Machine.runs_of_interpret (fun s query t answer hHandle => ?_) hRun
  split at hHandle
  · cases hHandle
  · cases hHandle
  next hReply hLen =>
    refine ⟨⟨env, hHandle⟩, ?_⟩
    cases query with
    | reply forScript execute | len forScript db => cases forScript <;> simp_all [Calm]
    | _ => trivial

/-- `if redis.call('INCR', 'n') > 0 then redis.call('SET', 'k', 'v') end` on the same
two nodes. -/
theorem visible_eq_of_calm_runs_incr :
    let lua := conditionalScript ["INCR", "n"] ["SET", "k", "v"]
    ∃ s t, executeCalm lua .quiet 200 unreclaimed (applyBatches [⟨false, [evalEntry]⟩]) = some s ∧
      executeCalm lua .quiet 200 reclaimed (applyBatches [⟨true, [evalEntry]⟩]) = some t ∧
      (∀ db key, s.1.visible db key = t.1.visible db key) ∧ s.1.writeClock = t.1.writeClock ∧
      Indistinguishable lua (fun _ => True) s.1.vm t.1.vm := by
  intro lua
  have hLeft : (executeCalm lua .quiet 200 unreclaimed
      (applyBatches [⟨false, [evalEntry]⟩])).isSome := by decide +kernel
  have hRight : (executeCalm lua .quiet 200 reclaimed
      (applyBatches [⟨true, [evalEntry]⟩])).isSome := by decide +kernel
  obtain ⟨s, hLeft⟩ := Option.isSome_iff_exists.mp hLeft
  obtain ⟨t, hRight⟩ := Option.isSome_iff_exists.mp hRight
  refine ⟨s, t, hLeft, hRight, ?_⟩
  exact visible_eq_of_calm_runs (s := unreclaimed) (t := reclaimed) lua (fun _ => True) [evalEntry]
    rfl rfl rfl (fun db key => by rw [visible_unreclaimed]) rfl rfl rfl (.refl _ _ _)
    (runs_of_executeCalm hLeft) (runs_of_executeCalm hRight)

/-- `if redis.call('DBSIZE') > 0 then redis.call('SET', 'k', 'v') end` leaves a key
on the node that has not reclaimed yet, and none on the other. -/
theorem dbsize_forks_replicas :
    let lua := conditionalScript ["DBSIZE"] ["SET", "k", "v"]
    ∃ s t responses responses', unreclaimed.visible = reclaimed.visible ∧
      unreclaimed.writeClock = reclaimed.writeClock ∧ unreclaimed.vm = reclaimed.vm ∧
      (machine lua).Runs unreclaimed (applyBatches [⟨false, [evalEntry]⟩]) s responses ∧
      (machine lua).Runs reclaimed (applyBatches [⟨false, [evalEntry]⟩]) t responses' ∧
      s.visible 0 (bytes "k") ≠ t.visible 0 (bytes "k") := by
  intro lua
  have hLeft : (execute lua .quiet 200 unreclaimed (applyBatches [⟨false, [evalEntry]⟩])).map
      (fun r => r.1.visible 0 (bytes "k")) = some (some (.string (bytes "v"), none)) := by
    decide +kernel
  have hRight : (execute lua .quiet 200 reclaimed (applyBatches [⟨false, [evalEntry]⟩])).map
      (fun r => r.1.visible 0 (bytes "k")) = some none := by
    decide +kernel
  obtain ⟨s, hLeft, hKey⟩ := Option.map_eq_some_iff.mp hLeft
  obtain ⟨t, hRight, hKey'⟩ := Option.map_eq_some_iff.mp hRight
  refine ⟨s.1, t.1, s.2, t.2, visible_unreclaimed, rfl, rfl, runs_of_execute hLeft,
    runs_of_execute hRight, ?_⟩
  rw [hKey, hKey']
  simp

end CacheCat.StateMachine
