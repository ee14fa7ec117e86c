import CacheCat.StateMachine.Exchange

/-! UNLINK is DEL to clients. Two nodes start alike and apply logs that differ in
UNLINK and DEL; clients read in between. In the same surroundings they show the
same state after every event and give the same replies, except for DBSIZE, which
counts the entries that wait to be reclaimed. -/
namespace CacheCat.StateMachine

open Cache
open Library (Agrees Machine)

/-- An entry of the log is applied, while a snapshot is being built or not, or a
client reads. -/
inductive Event where
  | apply (snapshotStarted : Bool) (entry : LogEntry)
  | read (db readClock : Nat) (operation : ReadOperation)

namespace Event

def action : Event → Action Value
  | apply snapshotStarted entry => applyEntry (Batch.mode ⟨snapshotStarted, [entry]⟩) entry
  | read db readClock operation => readRequest false db (some readClock) operation

def operation : Event → Option Operation
  | apply _ ⟨_, .normal request⟩ => some request.operation
  | apply .. => none
  | read _ _ operation => some (.read operation)

/-- UNLINK stands for DEL or DEL for UNLINK; the two nodes may also differ in when
they build a snapshot. -/
inductive Exchanged (scripts : EvalParams → EvalParams → Prop) : Event → Event → Prop
  | blank (started started' : Bool) (logId : LogId) :
      Exchanged scripts (.apply started ⟨logId, .blank⟩) (.apply started' ⟨logId, .blank⟩)
  | membership (started started' : Bool) (logId : LogId) (members : Membership) :
      Exchanged scripts (.apply started ⟨logId, .membership members⟩)
        (.apply started' ⟨logId, .membership members⟩)
  | normal (started started' : Bool) (logId : LogId) (number : Nat)
      {operation operation' : Operation}
      (h : StateMachine.Exchanged scripts operation operation') :
      Exchanged scripts (.apply started ⟨logId, .normal ⟨number, operation⟩⟩)
        (.apply started' ⟨logId, .normal ⟨number, operation'⟩⟩)
  | read (db readClock : Nat) (operation : ReadOperation) :
      Exchanged scripts (.read db readClock operation) (.read db readClock operation)

def RepliesAlike (event : Event) (reply reply' : Value) : Prop :=
  match event.operation with
  | some operation => StateMachine.RepliesAlike operation reply reply'
  | none => reply = reply'

theorem action_exchanges {Vm : Type} {scripts : EvalParams → EvalParams → Prop}
    {vms : Vm → Vm → Prop} {event event' : Event} (h : event.Exchanged scripts event') :
    Agrees (exchanges scripts vms) event.RepliesAlike event.action event'.action := by
  cases h with
  | blank | membership => exact .done rfl
  | normal started started' logId number h =>
    refine (ask_exchanges (.setWriteClock _) trivial).bind fun clock clock' hClock => ?_
    cases hClock
    refine (doRequest_exchanges ?_ true _ h).mono fun _ _ hReply => hReply.2
    exact ⟨rfl, rfl, rfl, Batch.mode_ne_cas _, Batch.mode_ne_cas _⟩
  | read db readClock operation =>
    exact (readRequest_exchanges false db (some readClock) operation).mono
      fun _ _ hReply => hReply.2

end Event

/-! ### Computed runs -/

section

variable {Vm : Type}

/-- One query of a watched node, answered from the next sight. -/
def watch (lua : LuaMachine Vm) (s : State Vm × List Sight) (query : Query) :
    Option ((State Vm × List Sight) × query.Answer) :=
  match Query.look query, s.2 with
  | .nothing, later =>
    (handle lua .quiet s.1 query).map fun after => ((after.1, later), after.2)
  | .surroundings, .surroundings env :: later =>
    (handle lua env s.1 query).map fun after => ((after.1, later), after.2)
  | .flag, .flag raised :: later =>
    if raised = s.1.interruptFlag then
      (handle lua .quiet s.1 query).map fun after => ((after.1, later), after.2)
    else none
  | _, _ => none

theorem perform_of_watch {lua : LuaMachine Vm} {s t : State Vm × List Sight} {query : Query}
    {answer : query.Answer} (h : watch lua s query = some (t, answer)) :
    (watchedMachine lua).perform s query t answer := by
  unfold watch at h
  split at h
  next hLook =>
    obtain ⟨after, hHandle, hAfter⟩ := Option.map_eq_some_iff.mp h
    cases hAfter
    exact ⟨.quiet, hHandle, by simp [Query.sights, hLook]⟩
  next env later hLook hLater =>
    obtain ⟨after, hHandle, hAfter⟩ := Option.map_eq_some_iff.mp h
    cases hAfter
    exact ⟨env, hHandle, by simp [Query.sights, hLook, hLater]⟩
  next raised later hLook hLater =>
    split_ifs at h with hRaised
    obtain ⟨after, hHandle, hAfter⟩ := Option.map_eq_some_iff.mp h
    cases hAfter
    exact ⟨.quiet, hHandle, by simp [Query.sights, hLook, hLater, hRaised]⟩
  · cases h

/-- Scripts are not let to ask for sizes. -/
def watchSized (lua : LuaMachine Vm) (s : State Vm × List Sight) :
    (query : Query) → Option ((State Vm × List Sight) × query.Answer)
  | .len true _ => none
  | query => watch lua s query

theorem perform_of_watchSized {lua : LuaMachine Vm} {s t : State Vm × List Sight} {query : Query}
    {answer : query.Answer} (h : watchSized lua s query = some (t, answer)) :
    (sizedMachine lua).perform s query t answer := by
  unfold watchSized at h
  split at h
  · cases h
  next hLen =>
    refine ⟨perform_of_watch h, ?_⟩
    cases query with
    | len forScript db =>
      cases forScript with
      | false => trivial
      | true => exact absurd rfl (hLen db)
    | _ => trivial

end

/-! ### Two logs -/

/-- Two nodes after an event: what they show, and what they have replied. -/
structure SameOutcome {Vm : Type} (x y : Event × (State Vm × List Sight) × Value) : Prop where
  visible : ∀ db key, x.2.1.1.visible db key = y.2.1.1.visible db key
  writeClock : x.2.1.1.writeClock = y.2.1.1.writeClock
  reply : x.1.RepliesAlike x.2.2 y.2.2

/-- Both nodes meet the same surroundings; their workers reclaim what they like and
when they like. No script asks for the size of a database that holds an expired
entry. -/
theorem unlink_eq_del {Vm : Type} (lua : LuaMachine Vm)
    (scripts : EvalParams → EvalParams → Prop) (vms : Vm → Vm → Prop)
    (hScripts : ScriptsExchanged scripts lua vms) {log log' : List Event}
    (hLog : List.Forall₂ (Event.Exchanged scripts) log log') {s t : State Vm}
    (hCount : s.count = t.count) (hVisible : ∀ db key, s.visible db key = t.visible db key)
    (hClock : s.writeClock = t.writeClock) (hVm : vms s.vm t.vm) {sights : List Sight}
    {trace trace' : List (Event × (State Vm × List Sight) × Value)}
    (hLeft : (sizedMachine lua).Unfolds Event.action (s, sights) log trace)
    (hRight : (sizedMachine lua).Unfolds Event.action (t, sights) log' trace') :
    List.Forall₂ SameOutcome trace trace' := by
  have hStart : (exchanges scripts vms).states (s, sights) (t, sights) :=
    ⟨⟨hCount, hClock, funext₂ hVisible, False.elim, False.elim, False.elim⟩, hVm, rfl⟩
  have hAgrees : ∀ event event', Event.Exchanged scripts event event' →
      Agrees (exchanges scripts vms) event.RepliesAlike event.action event'.action :=
    fun _ _ h => Event.action_exchanges h
  have hTraces := Agrees.unfolds (exchanges_sound scripts vms hScripts) hAgrees hLog
      hStart hLeft hRight
  refine hTraces.imp fun x y hSame => ?_
  obtain ⟨⟨hAlike, -, -⟩, hReply⟩ := hSame
  exact ⟨fun db key => by rw [hAlike.visible], hAlike.writeClock, hReply⟩

/-- `return redis.call(script, 'k')`, with the text of the script as the command. -/
def oneCall : LuaMachine (Option (List String)) where
  getOrCompileScript vm _ := .ok vm
  setGlobal vm _ _ := vm
  call _ script := some [String.ofList script, "k"]
  advance
    | some args => (.call args, some args)
    | none => (.finish (.ok .nil), none)
  resume _ _ := none

/-- The script is the same, or UNLINK has been rewritten to DEL. -/
inductive Rewritten : EvalParams → EvalParams → Prop
  | same (params : EvalParams) : Rewritten params params
  | unlink (numkeys : Nat) (keys args : List Bytes) (proto : Nat) :
      Rewritten ⟨"UNLINK".toList, numkeys, keys, args, proto⟩ ⟨"DEL".toList, numkeys,
        keys, args, proto⟩

inductive RewrittenCall : Option (List String) → Option (List String) → Prop
  | same (vm : Option (List String)) : RewrittenCall vm vm
  | unlink : RewrittenCall (some ["UNLINK", "k"]) (some ["DEL", "k"])

theorem scriptsExchanged_oneCall : ScriptsExchanged Rewritten oneCall RewrittenCall where
  refl := .same
  enter v w params params' hParams _ := by
    cases hParams with
    | same => exact .ok (.same _)
    | unlink numkeys keys args proto => exact .ok .unlink
  advance v w h := by
    cases h with
    | same =>
      cases v with
      | none => exact ⟨.finish _, .same _⟩
      | some args => exact ⟨.call (.same _), .same _⟩
    | unlink =>
      refine ⟨.call (.exchanged rfl rfl (.base (.unlink (bytes "k")))), .unlink⟩
  resume _ _ _ _ := .same _

def applyAt (started : Bool) (index clock : Nat) (operation : Operation) : Event :=
  .apply started ⟨⟨1, 1, index⟩, .normal (.new clock 0 operation)⟩

def evalOf (script : String) : Operation := .redis (.redisEval ⟨script.toList, 0, [], [], 2⟩)

def unlinkEvents : List Event :=
  [applyAt false 1 5 (.base (.set ⟨bytes "k", bytes "v", 0⟩)),
    applyAt true 2 6 (.base (.unlink ⟨bytes "k"⟩)),
    .read 0 6 (.get ⟨bytes "k"⟩),
    applyAt true 3 6 (.base (.set ⟨bytes "k", bytes "w", 9⟩)),
    applyAt false 4 7 (.redis (.redisExec
      [.redis (.redisUnlink ⟨[bytes "k", bytes "j"]⟩), .read (.dbSize ⟨[]⟩)])),
    applyAt false 5 8 (.base (.set ⟨bytes "k", bytes "x", 0⟩)),
    applyAt false 6 8 (evalOf "UNLINK"),
    .read 0 8 (.dbSize ⟨[]⟩)]

def delEvents : List Event :=
  [applyAt false 1 5 (.base (.set ⟨bytes "k", bytes "v", 0⟩)),
    applyAt false 2 6 (.base (.del ⟨bytes "k"⟩)),
    .read 0 6 (.get ⟨bytes "k"⟩),
    applyAt true 3 6 (.base (.set ⟨bytes "k", bytes "w", 9⟩)),
    applyAt false 4 7 (.redis (.redisExec
      [.redis (.redisDel ⟨[bytes "k", bytes "j"]⟩), .read (.dbSize ⟨[]⟩)])),
    applyAt false 5 8 (.base (.set ⟨bytes "k", bytes "x", 0⟩)),
    applyAt false 6 8 (evalOf "DEL"),
    .read 0 8 (.dbSize ⟨[]⟩)]

/-- UNLINK alone, in a transaction and in a script against DEL; the key is written
again in between, with a deadline. -/
theorem unlink_eq_del_rewritten :
    ∃ trace trace', (sizedMachine oneCall).unfold (watchSized oneCall) 200 Event.action
        (.new 1 none, [.surroundings .quiet]) unlinkEvents = some trace ∧
      (sizedMachine oneCall).unfold (watchSized oneCall) 200 Event.action
        (.new 1 none, [.surroundings .quiet]) delEvents = some trace' ∧
      List.Forall₂ SameOutcome trace trace' := by
  have hLeft : ((sizedMachine oneCall).unfold (watchSized oneCall) 200 Event.action
      (.new 1 none, [.surroundings .quiet]) unlinkEvents).isSome := by decide +kernel
  have hRight : ((sizedMachine oneCall).unfold (watchSized oneCall) 200 Event.action
      (.new 1 none, [.surroundings .quiet]) delEvents).isSome := by decide +kernel
  obtain ⟨trace, hLeft⟩ := Option.isSome_iff_exists.mp hLeft
  obtain ⟨trace', hRight⟩ := Option.isSome_iff_exists.mp hRight
  have hLog : List.Forall₂ (Event.Exchanged Rewritten) unlinkEvents delEvents := by
    refine .cons (.normal _ _ _ _ (.base (.same _)))
      (.cons (.normal _ _ _ _ (.base (.unlink _))) ?_)
    refine .cons (.read _ _ _) (.cons (.normal _ _ _ _ (.base (.same _))) (.cons ?_ ?_))
    · exact .normal _ _ _ _ (.redis (.exec (.cons (.redis (.unlink _)) (.cons (.read _) .nil))))
    · refine .cons (.normal _ _ _ _ (.base (.same _))) (.cons ?_ (.cons (.read _ _ _) .nil))
      exact .normal _ _ _ _ (.redis (.eval (.unlink _ _ _ _) rfl))
  refine ⟨trace, trace', hLeft, hRight, ?_⟩
  exact unlink_eq_del oneCall Rewritten RewrittenCall scriptsExchanged_oneCall hLog rfl
    (fun _ _ => rfl) rfl (.same _)
    (Machine.unfolds_of_unfold (fun _ _ _ _ => perform_of_watchSized) hLeft)
    (Machine.unfolds_of_unfold (fun _ _ _ _ => perform_of_watchSized) hRight)

/-- `if redis.call('DBSIZE') > 0 then redis.call('SET', 'k', 'v') end` after UNLINK or
DEL of the only key. -/
def sizeEvents (removal : BaseOperation) : List Event :=
  [applyAt false 1 5 (.base (.set ⟨bytes "j", bytes "v", 0⟩)), applyAt false 2 5 (.base removal),
    applyAt false 3 5 (evalOf "")]

/-- The script sees the unlinked entry, and sets the key. -/
theorem script_sees_unlinked :
    let lua := conditionalScript ["DBSIZE"] ["SET", "k", "v"]
    ∃ trace trace', List.Forall₂ (Event.Exchanged Eq) (sizeEvents (.unlink ⟨bytes "j"⟩))
        (sizeEvents (.del ⟨bytes "j"⟩)) ∧
      (watchedMachine lua).Unfolds Event.action (.new 1 .over, [])
        (sizeEvents (.unlink ⟨bytes "j"⟩)) trace ∧
      (watchedMachine lua).Unfolds Event.action (.new 1 .over, []) (sizeEvents (.del ⟨bytes "j"⟩))
        trace' ∧
      ¬ List.Forall₂ SameOutcome trace trace' := by
  intro lua
  have hLeft : ((watchedMachine lua).unfold (watch lua) 200 Event.action (.new 1 .over, [])
      (sizeEvents (.unlink ⟨bytes "j"⟩))).map
        (fun trace => trace.map fun x => x.2.1.1.visible 0 (bytes "k")) =
      some [none, none, some (.string (bytes "v"), none)] := by
    decide +kernel
  have hRight : ((watchedMachine lua).unfold (watch lua) 200 Event.action (.new 1 .over, [])
      (sizeEvents (.del ⟨bytes "j"⟩))).map
        (fun trace => trace.map fun x => x.2.1.1.visible 0 (bytes "k")) =
      some [none, none, none] := by
    decide +kernel
  obtain ⟨trace, hLeft, hShown⟩ := Option.map_eq_some_iff.mp hLeft
  obtain ⟨trace', hRight, hShown'⟩ := Option.map_eq_some_iff.mp hRight
  refine ⟨trace, trace', ?_, Machine.unfolds_of_unfold (fun _ _ _ _ => perform_of_watch) hLeft,
    Machine.unfolds_of_unfold (fun _ _ _ _ => perform_of_watch) hRight, fun hSame => ?_⟩
  · refine .cons (.normal _ _ _ _ (.base (.same _)))
      (.cons (.normal _ _ _ _ (.base (.unlink _))) ?_)
    exact .cons (.normal _ _ _ _ (.redis (.eval rfl rfl))) .nil
  · have hEqual : List.Forall₂ Eq (trace.map fun x => x.2.1.1.visible 0 (bytes "k"))
        (trace'.map fun x => x.2.1.1.visible 0 (bytes "k")) := by
      rw [List.forall₂_map_left_iff, List.forall₂_map_right_iff]
      exact hSame.imp fun _ _ h => h.visible 0 (bytes "k")
    rw [hShown, hShown'] at hEqual
    simp at hEqual

end CacheCat.StateMachine
