import CacheCat.Cache.Emptiness
import CacheCat.Cache.LockDiscipline
import CacheCat.Cache.Single

/-! Operations that leave no empty collection behind. A handler keeps a property of
all visible values if it inserts only values that have it, and the handlers other than
the write commands move values around or make strings. A script is as careful as the
calls it makes. -/
namespace CacheCat

/-- SUNIONSTORE and SDIFFSTORE store what they have computed even if it is empty. The
operations of a transaction and of a script are looked at when their turn comes. -/
def RedisOperation.LeavesSome (view : Cache.View) (db : Nat) : RedisOperation → Prop
  | .redisSUnionStore params => ∀ results,
      unionOf (params.keys.map (view.live db)) = some results → results.Nonempty
  | .redisSDiffStore params =>
    match params.keys with
    | [] => True
    | first :: others => ∀ results,
        differenceOf (view.live db first) (others.map (view.live db)) = some results →
          results.Nonempty
  | _ => True

def Operation.LeavesSome (view : Cache.View) (db : Nat) : Operation → Prop
  | .base operation => operation.LeavesSome view db
  | .read _ => True
  | .redis operation => operation.LeavesSome view db

namespace Cache

open Library (Program Machine)

/-! ### What handlers insert -/

section

variable (Good : ValueObject → Prop)

def Finds : (query : Query) → query.Answer → Prop
  | .getEntry _ _, found => ∀ entry, found = some entry → Good entry.value.data
  | _, _ => True

def Inserts : Query → Prop
  | .insertEntry _ _ value _ => Good value.data
  | .runScript _ => False
  | _ => True

/-- As long as what it finds has the property, what it inserts has it. -/
abbrev Keeps {A : Type} (program : Action A) : Prop := program.Relies (Finds Good) (Inserts Good)

end

variable {Good : ValueObject → Prop}

theorem mayPut_inserts (db : Nat) (key : Bytes) : MayPut (Finds Good) (Inserts Good) Good db key :=
  fun _ _ _ => ⟨fun _ _ hValue => hValue, trivial, trivial⟩

theorem permits_nonEmpty (update : Update) :
    Permits (Finds ValueObject.NonEmpty) (Inserts ValueObject.NonEmpty) ValueObject.NonEmpty
      update where
  looks query hQuery := by
    cases query <;> trivial
  pushes _ _ := trivial
  finds _ _ entry hFound := hFound entry rfl
  strings req := req.nonEmpty_data

/-- Stored members make a set that is not empty. -/
theorem keeps_storeSet (update : Update) (key : Bytes) {results : Finset Bytes}
    (hResults : results.Nonempty) : Keeps ValueObject.NonEmpty (storeSet update key results) := by
  refine storeSet_relies (permits_nonEmpty update) (mayPut_inserts _ key) fun env => ?_
  have hElements : env.order.list results ≠ [] := by
    obtain ⟨member, hMember⟩ := hResults
    exact List.ne_nil_of_mem ((env.order.mem_list results member).mpr hMember)
  have hAdded := SAddReq.nonempty_foldl hElements
  refine ⟨hAdded ∅, fun entry clock => ?_⟩
  refine stores_collectionCommand fun set kept _ hKeep => ?_
  cases hKeep
  exact hAdded set

/-! ### Views during a run -/

/-- What a query may do to the view while scripts may run: `heard` is known of the
events of a script, and `loop` is what its loop does. -/
def View.reaction (heard : View → ScriptEvent → Prop) (loop : Update → View → View → Prop)
    (view : View) : (query : Query) → View → query.Answer → Prop
  | .liveKeys .., after, _ => after = view
  | .len .., after, _ => after = view
  | .beginScript, after, _ => after = view
  | .enterScript _, after, _ => after = view
  | .advanceScript, after, event => after = view ∧ heard view event
  | .resumeScript _, after, _ => after = view
  | .interrupted, after, _ => after = view
  | .endScript _, after, _ => after = view
  | .runScript update, after, _ => loop update view after
  | query, after, answer => view.effect query after answer

section

variable {heard : View → ScriptEvent → Prop} {loop : Update → View → View → Prop} {view : View}

/-- Where the effect of a query is known, the reaction says no more. -/
theorem effect_of_reaction {query : Query} {after : View} {answer : query.Answer}
    (hEffect : ∃ after answer, view.effect query after answer)
    (hReaction : view.reaction heard loop query after answer) : view.effect query after answer := by
  obtain ⟨_, _, hEffect⟩ := hEffect
  cases query with
  | liveKeys | len | beginScript | enterScript | advanceScript | resumeScript | interrupted
  | endScript | runScript => exact hEffect.elim
  | _ => exact hReaction

theorem Settles.reacts {A : Type} {program : Action A} {post : View → A → Prop}
    (hSettles : program.Settles View.effect post view) :
    program.Yields (View.reaction heard loop) post view :=
  hSettles.yields fun _ _ _ _ => effect_of_reaction

/-- A handler that inserts only values with the property keeps it. -/
theorem Keeps.reacts {A : Type} {program : Action A} (hKeeps : Keeps Good program)
    (hView : view.Holds Good) :
    program.Yields (View.reaction heard loop) (fun after _ => after.Holds Good) view := by
  refine hKeeps.yields (fun view query after answer hView hQuery hReaction => ?_) hView
  cases query with
  | getEntry db key =>
    obtain ⟨rfl, rfl⟩ := hReaction
    exact ⟨hView db key, hView⟩
  | insertEntry db key value policy =>
    cases hReaction
    exact ⟨trivial, hView.put db key hQuery⟩
  | remove db key | unlink db key =>
    obtain ⟨rfl, -⟩ := hReaction
    exact ⟨trivial, hView.drop db key⟩
  | clear db =>
    cases hReaction
    exact ⟨trivial, hView.clear db⟩
  | lockReaders =>
    obtain ⟨-, rfl⟩ := hReaction
    exact ⟨trivial, hView⟩
  | setWriteClock clock =>
    obtain ⟨rfl, -⟩ := hReaction
    exact ⟨trivial, hView.tick clock⟩
  | databaseCount | reply | advanceScript =>
    obtain ⟨rfl, -⟩ := hReaction
    exact ⟨trivial, hView⟩
  | panic => exact hReaction.elim
  | runScript => exact hQuery.elim
  | _ =>
    cases hReaction
    exact ⟨trivial, hView⟩

end

variable {body : Action Value}

section

variable {heard : View → ScriptEvent → Prop} {loop : Update → View → View → Prop} {view : View}

/-- The lock of the readers does not show in the values. -/
theorem yields_lockIf (external : Bool) {Inv : View → Prop}
    (hInv : ∀ after locked, Inv after → Inv (after.lock locked)) (hBody : ∀ locked, body.Yields
      (View.reaction heard loop) (fun after _ => Inv after) (view.lock locked)) :
    (lockIf external body).Yields (View.reaction heard loop) (fun after _ => Inv after) view := by
  cases external with
  | false => exact hBody view.readersLocked
  | true =>
    rintro locked _ ⟨-, rfl⟩
    change (body >>= _ : Action Value).Yields _ _ _
    rw [Program.yields_bind]
    refine (hBody true).mono fun after reply hAfter => ?_
    rintro unlocked _ rfl
    exact hInv after false hAfter

end

/-- What a script asks for is known by `heard`. -/
def View.Hears (heard : View → ScriptEvent → Prop) (view : View) :
    (query : Query) → query.Answer → Prop
  | .advanceScript, event => heard view event
  | _, _ => True

/-- The machine with only such scripts. -/
def heardMachine {Vm : Type} (lua : LuaMachine Vm) (heard : View → ScriptEvent → Prop) :
    Machine (State Vm) Query Query.Answer :=
  (machine lua).restrict (fun s query answer => s.view.Hears heard query answer) fun _ _ => True

section

variable {Vm : Type} {lua : LuaMachine Vm} {heard : View → ScriptEvent → Prop}
    {loop : Update → View → View → Prop}

theorem reaction_of_handle {env : Env} {s t : State Vm} {query : Query} {answer : query.Answer}
    (hHandle : handle lua env s query = some (t, answer))
    (hHears : s.view.Hears heard query answer) :
    s.view.reaction heard loop query t.view answer := by
  cases query with
  | liveKeys | len | beginScript | resumeScript | endScript =>
    cases hHandle
    rfl
  | enterScript | interrupted =>
    simp only [handle] at hHandle
    split at hHandle <;> cases hHandle
    all_goals rfl
  | advanceScript =>
    cases hHandle
    exact ⟨rfl, hHears⟩
  | lockReaders =>
    have hFree : s.view.readersLocked = false := by
      by_contra hLocked
      rw [Bool.not_eq_false] at hLocked
      have hState : s.readersLocked = true := hLocked
      rw [handle, hState] at hHandle
      cases hHandle
    exact effect_of_handle s hHandle ⟨_, (), hFree, rfl⟩
  | reply forScript execute =>
    exact effect_of_handle s hHandle ⟨_, _, rfl, .quiet, rfl⟩
  | databaseCount | getEntry | remove | unlink | setWriteClock =>
    exact effect_of_handle s hHandle ⟨_, _, rfl, rfl⟩
  | environment => exact effect_of_handle s hHandle ⟨_, .quiet, rfl⟩
  | insertEntry | clear | activeExpireCycle | push | unlockReaders =>
    exact effect_of_handle s hHandle ⟨_, (), rfl⟩
  | panic | runScript => cases hHandle

theorem confines_heard
    (hLoop : ∀ update view, (scriptLoop update).Yields (View.reaction heard loop)
      (fun after _ => loop update view after) view) :
    (heardMachine lua heard).Confines State.view (View.reaction heard loop) where
  disturb s t hDisturb := (shows_view lua).disturb s t hDisturb.1
  perform s query t answer _ := fun ⟨⟨_, hHandle⟩, hHears⟩ => reaction_of_handle hHandle hHears
  procedure query body view hBody := by
    cases query with
    | runScript update =>
      cases hBody
      exact hLoop update view
    | _ => cases hBody

/-- Every machine is within the reactions if nothing is known of its scripts. -/
theorem confines_any (lua : LuaMachine Vm) :
    (machine lua).Confines State.view (View.reaction (fun _ _ => True) fun _ _ _ => True) where
  disturb := (shows_view lua).disturb
  perform s query t answer _ := fun ⟨_, hHandle⟩ => by
    refine reaction_of_handle hHandle ?_
    cases query <;> trivial
  procedure query body view hBody := by
    cases query with
    | runScript update => exact Program.yields_of_forall fun _ _ => trivial
    | _ => cases hBody

theorem Keeps.holds {A : Type} {program : Action A} {s t : State Vm} {a : A}
    (hKeeps : Keeps Good program) (hView : s.Holds Good) (hRun : (machine lua).Runs s program t a) :
    t.Holds Good :=
  hRun.yields (confines_any lua) (hKeeps.reacts hView)

end

/-! ### Operations -/

/-- Whatever happens, what is visible when the program ends is not empty. -/
def YieldsNonEmpty (heard : View → ScriptEvent → Prop) (loop : Update → View → View → Prop)
    {A : Type} (program : Action A) (view : View) : Prop :=
  program.Yields (View.reaction heard loop) (fun after _ => after.Holds ValueObject.NonEmpty) view

section

variable {heard : View → ScriptEvent → Prop} {loop : Update → View → View → Prop} {view : View}
    {db : Nat}

theorem YieldsNonEmpty.bind {A B : Type} {program : Action A} {rest : A → Action B}
    (hProgram : YieldsNonEmpty heard loop program view)
    (hRest : ∀ a after, after.Holds ValueObject.NonEmpty →
      YieldsNonEmpty heard loop (rest a) after) :
    YieldsNonEmpty heard loop (program >>= rest) view := by
  rw [YieldsNonEmpty, Program.yields_bind]
  exact hProgram.mono fun after a hAfter => hRest a after hAfter

theorem yieldsNonEmpty_lockIf (external : Bool)
    (hBody : ∀ locked, YieldsNonEmpty heard loop body (view.lock locked)) :
    YieldsNonEmpty heard loop (lockIf external body) view :=
  yields_lockIf external (fun _ _ hAfter => hAfter) hBody

theorem yieldsNonEmpty_withDatabase (number : Nat) (missing : Value)
    (hView : view.Holds ValueObject.NonEmpty) (hBody : YieldsNonEmpty heard loop body view) :
    YieldsNonEmpty heard loop (withDatabase number missing body) view := by
  rintro after count ⟨rfl, rfl⟩
  change YieldsNonEmpty heard loop (if number < after.count then body else .done missing) after
  split
  · exact hBody
  · exact hView

theorem yieldsNonEmpty_getEntry {number : Nat} {key : Bytes} {rest : Option Entry → Action Value}
    (hRest : YieldsNonEmpty heard loop (rest (view.live number key)) view) :
    YieldsNonEmpty heard loop (ask (.getEntry number key) >>= rest) view := by
  rintro after found ⟨rfl, rfl⟩
  exact hRest

/-- The sets are combined and, if none of the sources is another value, stored. -/
theorem yieldsNonEmpty_combineSets (update : Update) (key : Bytes)
    {combine : Finset Bytes → Finset Bytes → Finset Bytes} {keys : List Bytes}
    {start : Finset Bytes} (hView : view.Holds ValueObject.NonEmpty)
    (hResults : ∀ results, (keys.map (view.live db)).foldlM (combineEntry combine) start =
      some results → results.Nonempty) :
    YieldsNonEmpty heard loop (do
      match ← combineSets db combine keys start with
      | none => return notASet
      | some results => storeSet update key results) view := by
  rw [YieldsNonEmpty, Program.yields_bind]
  refine Settles.reacts ((settles_combineSets combine keys start).mpr ?_)
  generalize (keys.map (view.live db)).foldlM (combineEntry combine) start = combined at hResults
  cases combined with
  | none => exact hView
  | some results => exact (keeps_storeSet update key (hResults results rfl)).reacts hView

variable {update : Update}

theorem baseRequest_yields {operation : BaseOperation} (hProper : operation.Proper)
    (hLeaves : operation.LeavesSome view update.dbNumber)
    (hView : view.Holds ValueObject.NonEmpty) :
    YieldsNonEmpty heard loop (baseRequest update operation) view := by
  cases hCommand : operation.computeCommand .sorted with
  | some command =>
    refine Settles.reacts ((settles_baseRequest hCommand).mpr ?_)
    refine settles_executeCompute_holds operation hView ?_ ?_
    · exact stores_init_nonEmpty hCommand hProper hLeaves
    · intro entry hLive
      exact stores_mutate_nonEmpty hCommand hProper hLeaves hLive (hView _ _ _ hLive) _
  | none =>
    refine Keeps.reacts (baseRequest_relies (permits_nonEmpty update)
      (fun _ => ⟨⟨trivial, trivial⟩, fun _ => trivial⟩) (fun key _ => mayPut_inserts _ key) ?_)
        hView
    cases operation with
    | empty | del | unlink | flushDB | flushAll => exact fun _ _ hSome => by cases hSome
    | sInterStore req =>
      intro entries clock
      simp only [SInterStoreReq.computeCommand]
      split
      · trivial
      · split
        · trivial
        next hResult => exact Finset.nonempty_iff_ne_empty.mpr hResult
    | _ => cases hCommand

theorem redisSUnionStore_yields (params : SUnionStoreParams) (external : Bool)
    (hView : view.Holds ValueObject.NonEmpty)
    (hLeaves : RedisOperation.LeavesSome view update.dbNumber (.redisSUnionStore params)) :
    YieldsNonEmpty heard loop (redisSUnionStore update params external) view := by
  refine yieldsNonEmpty_lockIf external fun locked => ?_
  refine yieldsNonEmpty_withDatabase _ _ hView ?_
  exact yieldsNonEmpty_combineSets update params.key hView hLeaves

theorem storeDifference_yields (key : Bytes) (others : List Bytes) (first : Option (Finset Bytes))
    (hView : view.Holds ValueObject.NonEmpty)
    (hResults : ∀ results, (do
      let start ← first
      (others.map (view.live update.dbNumber)).foldlM subtract start) = some results →
        results.Nonempty) :
    YieldsNonEmpty heard loop (storeDifference update key others first) view := by
  cases first with
  | none => exact hView
  | some start =>
    exact yieldsNonEmpty_combineSets update key hView hResults

theorem redisSDiffStore_yields (params : SDiffStoreParams) (external : Bool)
    (hView : view.Holds ValueObject.NonEmpty)
    (hLeaves : RedisOperation.LeavesSome view update.dbNumber (.redisSDiffStore params)) :
    YieldsNonEmpty heard loop (redisSDiffStore update params external) view := by
  refine yieldsNonEmpty_lockIf external fun locked => ?_
  refine yieldsNonEmpty_withDatabase _ _ hView ?_
  obtain ⟨key, keys⟩ := params
  cases keys with
  | nil => exact hView
  | cons first others =>
    refine yieldsNonEmpty_getEntry ?_
    simp only [RedisOperation.LeavesSome] at hLeaves
    simp only [View.lock_live]
    split
    all_goals
      next hFirst =>
        rw [hFirst] at hLeaves
        exact storeDifference_yields key others _ hView hLeaves

/-- Every operation, if a script does it. -/
theorem doRequest_yields (update : Update) {operation : Operation} (hProper : operation.Proper)
    (hLeaves : operation.LeavesSome view update.dbNumber) (hView : view.Holds ValueObject.NonEmpty)
    (hScript : ∀ params, operation = .redis (.redisEval params) →
      ∀ locked, YieldsNonEmpty heard loop (execLua update params) (view.lock locked))
    (external : Bool) : YieldsNonEmpty heard loop (doRequest update external operation) view := by
  cases operation with
  | read operation =>
    exact Keeps.reacts (readRequest_relies (permits_nonEmpty update) _ _ _
      (.inr fun _ _ _ => trivial)) hView
  | base operation =>
    exact baseRequest_yields hProper hLeaves hView
  | redis operation =>
    cases operation with
    | redisSUnionStore params => exact redisSUnionStore_yields params external hView hLeaves
    | redisSDiffStore params => exact redisSDiffStore_yields params external hView hLeaves
    | redisEval params =>
      exact yieldsNonEmpty_lockIf external (hScript params rfl)
    | redisExec operations => exact hProper.elim
    | _ =>
      exact Keeps.reacts (flatRequest_relies (permits_nonEmpty update)
        (fun _ => ⟨trivial, trivial⟩) rfl (fun hEq => by cases hEq)
        fun key _ => mayPut_inserts _ key) hView

end

/-! ### Scripts -/

theorem ScriptEvent.Calls.proper {event : ScriptEvent} {operation : Operation}
    (hCalls : event.Calls operation) : operation.Proper := by
  cases event with
  | call args | pcall args => exact RaftCommand.proper_parseRequest hCalls.2
  | finish | hook => exact hCalls.elim

/-- The script calls no operation that leaves an empty collection. -/
def CallsLeaveSome (db : Nat) (view : View) (event : ScriptEvent) : Prop :=
  ∀ operation, event.Calls operation → operation.LeavesSome view db

/-- What is known of the loop of such a script. -/
def LeavesNonEmpty (db : Nat) (update : Update) (view after : View) : Prop :=
  update.dbNumber = db → view.Holds ValueObject.NonEmpty → after.Holds ValueObject.NonEmpty

/-- The same, where it is known that the scripts on the database of the update call no
operation that leaves an empty collection. -/
abbrev CarefulYields (update : Update) {A : Type} (program : Action A) (view : View) : Prop :=
  YieldsNonEmpty (CallsLeaveSome update.dbNumber) (LeavesNonEmpty update.dbNumber) program view

section

variable {update : Update} {view : View}

theorem execLua_yields (params : EvalParams) (hView : view.Holds ValueObject.NonEmpty) :
    CarefulYields update (execLua update params) view := by
  rintro begun _ rfl
  rintro entered result rfl
  cases result with
  | error error =>
    rintro ended _ rfl
    exact hView
  | ok _ =>
    rintro looped reply hLoop
    rintro ended _ rfl
    exact hLoop rfl hView

/-- A call of the script. -/
theorem answers_yields {event : ScriptEvent} {program : Update → Action ScriptReply}
    (hAnswers : Answers event program) (hCalls : CallsLeaveSome update.dbNumber view event)
    (hView : view.Holds ValueObject.NonEmpty) : CarefulYields update (program update) view := by
  cases hAnswers with
  | refused reply => exact hView
  | @performed operation hEvent finish =>
    have hYields : CarefulYields update
        (doRequest { update with forScript := true } false operation) view :=
      doRequest_yields { update with forScript := true } hEvent.proper (hCalls operation hEvent)
        hView (fun params _ _ => execLua_yields params hView) false
    exact hYields.bind fun reply after hAfter => hAfter

/-- From one call to the next nothing empty becomes visible. -/
theorem scriptLoop_yields (hView : view.Holds ValueObject.NonEmpty) :
    CarefulYields update (scriptLoop update) view := by
  have hRun (view : View) (hView : view.Holds ValueObject.NonEmpty) :
      CarefulYields update (ask (.runScript update)) view :=
    fun after reply hLoop => hLoop rfl hView
  have hResume (reply : ScriptReply) (view : View) (hView : view.Holds ValueObject.NonEmpty) :
      CarefulYields update
        (ask (.resumeScript reply) >>= fun _ => ask (.runScript update)) view := by
    rintro after _ rfl
    exact hRun _ hView
  rintro after event ⟨rfl, hCalls⟩
  cases event with
  | finish reply => exact hView
  | hook =>
    rintro after interrupted rfl
    cases interrupted with
    | false => exact hRun _ hView
    | true => exact hResume _ _ hView
  | call args => exact (answers_yields (redisCall_answers args) hCalls hView).bind hResume
  | pcall args => exact (answers_yields (redisPcall_answers args) hCalls hView).bind hResume

theorem confines_callsLeaveSome {Vm : Type} (lua : LuaMachine Vm) (db : Nat) :
    (heardMachine lua (CallsLeaveSome db)).Confines State.view
      (View.reaction (CallsLeaveSome db) (LeavesNonEmpty db)) := by
  refine confines_heard fun update view => ?_
  by_cases hView : update.dbNumber = db ∧ view.Holds ValueObject.NonEmpty
  · obtain ⟨rfl, hView⟩ := hView
    exact (scriptLoop_yields hView).mono fun after _ hAfter _ _ => hAfter
  · exact Program.yields_of_forall fun after _ hDb hHolds => absurd ⟨hDb, hHolds⟩ hView

end

/-! ### Runs -/

section

variable {Vm : Type} {lua : LuaMachine Vm} {s t : State Vm} {update : Update} {reply : Value}
    {operation : Operation}

/-- The operation leaves something, and so do those that a script in it calls. -/
structure LeavesSomeThroughout (lua : LuaMachine Vm) (update : Update) (external : Bool)
    (operation : Operation) (s : State Vm) : Prop where
  itself : operation.LeavesSome s.view update.dbNumber
  called : ∀ middle,
    (machine lua).Reaches s (doRequest update external operation) middle .advanceScript →
      CallsLeaveSome update.dbNumber middle.view (lua.advance middle.vm).1

variable {external : Bool}

theorem holds_of_doRequest (hProper : operation.Proper)
    (hLeaves : LeavesSomeThroughout lua update external operation s)
    (hView : s.Holds ValueObject.NonEmpty)
    (hRun : (machine lua).Runs s (doRequest update external operation) t reply) :
    t.Holds ValueObject.NonEmpty := by
  have hHeard : (heardMachine lua (CallsLeaveSome update.dbNumber)).Runs s
      (doRequest update external operation) t reply := by
    refine hRun.restrict fun before query after answer hReach hPerform => ?_
    cases query with
    | advanceScript =>
      obtain ⟨env, hHandle⟩ := hPerform
      cases hHandle
      exact hLeaves.called before hReach
    | _ => trivial
  exact hHeard.yields (confines_callsLeaveSome lua update.dbNumber)
    (doRequest_yields update hProper hLeaves.itself hView
      (fun params _ _ => execLua_yields params hView) external)

/-- An operation without scripts. -/
theorem holds_of_plain (hProper : operation.Proper) (hEval : hasEval operation = false)
    (hLeaves : operation.LeavesSome s.view update.dbNumber) (hView : s.Holds ValueObject.NonEmpty)
    (hRun : (machine lua).Runs s (doRequest update external operation) t reply) :
    t.Holds ValueObject.NonEmpty := by
  refine hRun.yields (confines_any lua) (doRequest_yields update hProper hLeaves hView ?_ external)
  rintro params rfl
  cases hEval

/-- The operations of a transaction, each in the state that those before it leave. -/
def AllLeaveSome (lua : LuaMachine Vm) (update : Update) : List Operation → State Vm → Prop
  | [], _ => True
  | operation :: operations, s =>
    LeavesSomeThroughout lua update false operation s ∧
      ∀ t reply, (machine lua).Runs s (doRequest update false operation) t reply →
        AllLeaveSome lua update operations t

theorem holds_of_execOperations {operations : List Operation} {replies : List Value}
    (hProper : ∀ operation ∈ operations, operation.Proper)
    (hLeaves : AllLeaveSome lua update operations s) (hView : s.Holds ValueObject.NonEmpty)
    (hRun : (machine lua).Runs s (execOperations update operations) t replies) :
    t.Holds ValueObject.NonEmpty := by
  induction operations generalizing s replies with
  | nil =>
    have hKeeps : Keeps ValueObject.NonEmpty (execOperations update []) := trivial
    exact hKeeps.holds hView hRun
  | cons operation operations ih =>
    obtain ⟨middle, reply, hFirst, hRest⟩ := hRun.exists_of_bind
    obtain ⟨replies, -, hRest⟩ := Machine.Runs.of_bind_done hRest
    have hMiddle := holds_of_doRequest (hProper operation (by simp)) hLeaves.1 hView hFirst
    refine ih (fun other hOther => hProper other (by simp [hOther])) ?_ hMiddle hRest
    exact hLeaves.2 middle reply hFirst

/-! ### What is lost otherwise -/

/-- What a command has made visible is so after the lock of the readers is given back. -/
theorem Makes.yields_visible {db : Nat} {after : View → View × Value} {view : View}
    (hMakes : Makes body db after) (hDb : db < view.count) {key : Bytes}
    {shown : Option (ValueObject × Option Nat)} (hShown : (after view).1.visible db key = shown)
    (external : Bool) :
    (lockIf external body).Yields (View.reaction (fun _ _ => True) fun _ _ _ => True)
      (fun after _ => after.visible db key = shown) view := by
  refine yields_lockIf external (fun _ _ hAfter => hAfter) fun locked => Settles.reacts ?_
  have hLocked : db < (view.lock locked).count := hDb
  refine (hMakes.settles _ _ hLocked).mpr ?_
  rw [hMakes.lock]
  exact hShown

/-- If nothing empty is visible afterwards, the operation has left something. -/
theorem leavesSome_of_doRequest (hProper : operation.Proper)
    (hMode : ∀ version, update.updateType ≠ .cas version) (hDb : update.dbNumber < s.count)
    (hView : s.Holds ValueObject.NonEmpty)
    (hRun : (machine lua).Runs s (doRequest update external operation) t reply)
    (hAfter : t.Holds ValueObject.NonEmpty) : operation.LeavesSome s.view update.dbNumber := by
  -- an empty set that the run leaves under the target contradicts the end of the run
  have hStored (key : Bytes) (hYields : (doRequest update external operation).Yields
      (View.reaction (fun _ _ => True) fun _ _ _ => True)
      (fun after _ => after.visible update.dbNumber key = some (.set ∅, none)) s.view) : False :=
    Finset.not_nonempty_empty (hAfter.of_visible (hRun.yields (confines_any lua) hYields))
  cases operation with
  | read operation => trivial
  | base operation =>
    cases hCommand : operation.computeCommand .sorted with
    | some command =>
      have hSettles : (baseRequest update operation).Settles View.effect
          (fun after _ => after = (s.view.compute update command).1) s.view := by
        rw [settles_baseRequest hCommand, settles_executeCompute hMode hDb]
      have hEnd := hRun.settles (shows_view lua) hSettles
      refine leavesSome_of_compute hCommand hProper hView s.view_unexpired ?_
      rw [← hEnd]
      exact hAfter
    | none =>
      cases operation with
      | lPop | rPop | lRem | lTrim | hDel | zPopMin | zAdd => cases hCommand
      | _ => trivial
  | redis operation =>
    cases operation with
    | redisSUnionStore params =>
      intro results hResults
      by_contra hEmpty
      obtain rfl := Finset.not_nonempty_iff_eq_empty.mp hEmpty
      refine hStored params.key
        ((makes_redisSUnionStore hMode params).yields_visible hDb ?_ external)
      rw [hResults]
      exact View.visible_put_self ..
    | redisSDiffStore params =>
      obtain ⟨key, keys⟩ := params
      cases keys with
      | nil => trivial
      | cons first others =>
        intro results hResults
        by_contra hEmpty
        obtain rfl := Finset.not_nonempty_iff_eq_empty.mp hEmpty
        refine hStored key ((makes_redisSDiffStore hMode ⟨key, first :: others⟩).yields_visible
          hDb ?_ external)
        simp only [View.sDiffStore, hResults]
        exact View.visible_put_self ..
    | _ => trivial

end

end Cache
end CacheCat
