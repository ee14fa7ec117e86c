import CacheCat.Cache.Collections

/-! What a write command leaves alone, which deadlines it keeps, and what a rename
moves. -/
namespace CacheCat

open Mocha (MochaOperation)

/-! ### Deadlines -/

/-- The commands that update the value under a key: counters, APPEND, the bitmaps, PFADD
and the updates of collections. -/
def BaseOperation.updates : BaseOperation → Bool
  | .set _ | .expire _ | .pExpire _ | .persist _ | .insert _ | .sInterStore _ => false
  | .empty | .del _ | .unlink _ | .flushDB _ | .flushAll _ => false
  | _ => true

/-- The updates that remove a key with its last element. -/
def BaseOperation.mayRemove : BaseOperation → Bool
  | .sRem _ | .sPop _ | .zRem _ => true
  | _ => false

/-- What is inserted is inserted under the deadline of the entry. -/
def UnderDeadline (entry : Entry) (mayRemove : Bool) : MochaOperation MyValue → Prop
  | .insert _ policy => policy = entry.getExpirePolicy
  | .remove => mayRemove = true
  | .abort => True

def ComputeCommand.KeepsDeadline (command : ComputeCommand) (mayRemove : Bool) : Prop :=
  ∀ entry clock, UnderDeadline entry mayRemove (command.mutate entry clock).1

variable {key : Bytes}

theorem keepsDeadline_collectionCommand {Collection : Type} {kind : ValueObject → Option Collection}
    {wrap : Collection → ValueObject} {wrongType : Value}
    {change : Nat → Collection → Outcome Collection × Value} {init : MochaOperation MyValue × Value}
    {mayRemove : Bool}
    (hChange : ∀ clock content, (change clock content).1 = .drop → mayRemove = true) :
    (collectionCommand key kind wrap wrongType change init).KeepsDeadline mayRemove := by
  intro entry clock
  simp only [collectionCommand]
  cases kind entry.value.data with
  | none => trivial
  | some content =>
    simp only
    cases hOutcome : (change clock content).1 with
    | keep kept => rfl
    | drop => exact hChange clock content hOutcome
    | refuse => trivial

theorem keepsDeadline_counterCommand (key : Bytes) (step : Int → Int) (start : Int)
    (mayRemove : Bool) : (counterCommand key step start).KeepsDeadline mayRemove := by
  intro entry clock
  simp only [counterCommand]
  cases hData : entry.value.data with
  | int n => rfl
  | string s =>
    simp only
    cases Text.parseI64Bytes s with
    | none => trivial
    | some n => rfl
  | _ => trivial

theorem BaseOperation.exists_computeCommand {operation : BaseOperation}
    (hUpdates : operation.updates = true) (order : HashOrder) :
    ∃ command, operation.computeCommand order = some command ∧ operation.names = [command.key] := by
  cases operation with
  | set | expire | pExpire | persist | insert | sInterStore | empty | del | unlink
    | flushDB | flushAll =>
    cases hUpdates
  | _ => exact ⟨_, rfl, rfl⟩

theorem BaseOperation.keepsDeadline {operation : BaseOperation} {order : HashOrder}
    {command : ComputeCommand} (hUpdates : operation.updates = true)
    (hCommand : operation.computeCommand order = some command) :
    command.KeepsDeadline operation.mayRemove := by
  cases operation <;> obtain ⟨⟩ := hCommand
  case set | expire | pExpire | persist | insert => cases hUpdates
  case incr req | incrBy req | decr req | decrBy req => exact keepsDeadline_counterCommand _ _ _ _
  case sRem req | sPop req | zRem req => exact keepsDeadline_collectionCommand fun _ _ _ => rfl
  case lPush req | rPush req | lPop req | rPop req | lRem req | lTrim req | hSet req | hMSet req
    | zAdd req | zPopMin req | sAdd req => exact keepsDeadline_collectionCommand nofun
  case lSet req | hIncr req | hDel req =>
    refine keepsDeadline_collectionCommand fun clock content hDrop => ?_
    simp only at hDrop
    split at hDrop <;> cases hDrop
  case hSetNx req | zIncrBy req =>
    refine keepsDeadline_collectionCommand fun clock content hDrop => ?_
    split at hDrop <;> cases hDrop
  case append req | setBit req | bitField req | pfAdd req =>
    intro entry clock
    simp only [AppendReq.computeCommand, SetBitReq.computeCommand, BitFieldReq.computeCommand,
      PfAddReq.computeCommand]
    -- of PFADD only the branch in which the sketch has changed inserts
    repeat' split
    all_goals trivial

namespace Cache

/-! ### Keys that are not named -/

/-- The queries other than the writes to a map and the loop of a script. -/
def Query.NoWrite : Query → Prop
  | .insertEntry .. | .remove .. | .unlink .. | .clear _ | .setWriteClock _ | .runScript _ => False
  | _ => True

/-- The query does not write under the key. Scripts run in the database `home`. -/
def Query.Spares (home db : Nat) (key : Bytes) : Query → Prop
  | .insertEntry other k _ _ => ¬ (db = other ∧ key = k)
  | .remove other k => ¬ (db = other ∧ key = k)
  | .unlink other k => ¬ (db = other ∧ key = k)
  | .clear other => db ≠ other
  | .setWriteClock _ => False
  | .runScript update => update.dbNumber = home
  | _ => True

theorem Query.NoWrite.spares {query : Query} (hQuery : query.NoWrite) (home db : Nat)
    (key : Bytes) : query.Spares home db key := by
  cases query with
  | insertEntry | remove | unlink | clear | setWriteClock | runScript => exact hQuery.elim
  | _ => trivial

variable {db : Nat} {external : Bool} {reply : Value}

section

variable {Vm : Type} {lua : LuaMachine Vm}

theorem Query.Spares.handle {home : Nat} {query : Query} (hSpares : query.Spares home db key)
    {env : Env} {s t : State Vm} {answer : query.Answer}
    (hHandle : Cache.handle lua env s query = some (t, answer)) :
    t.count = s.count ∧ t.writeClock = s.writeClock ∧ t.live db key = s.live db key := by
  have hReaction : s.view.reaction (fun _ _ => True) (fun _ _ _ => False) query t.view answer :=
    reaction_of_handle hHandle (by cases query <;> trivial)
  change t.view.count = _ ∧ t.view.writeClock = _ ∧ t.view.live db key = _
  cases query with
  | insertEntry | clear =>
    rw [show t.view = _ from hReaction]
    exact ⟨rfl, rfl, if_neg hSpares⟩
  | remove | unlink =>
    rw [show t.view = _ from hReaction.1]
    exact ⟨rfl, rfl, if_neg hSpares⟩
  | lockReaders =>
    rw [show t.view = _ from hReaction.2]
    exact ⟨rfl, rfl, rfl⟩
  | setWriteClock => exact hSpares.elim
  | runScript | panic => exact hReaction.elim
  | databaseCount | getEntry | reply | advanceScript =>
    rw [show t.view = _ from hReaction.1]
    exact ⟨rfl, rfl, rfl⟩
  | _ =>
    rw [show t.view = _ from hReaction]
    exact ⟨rfl, rfl, rfl⟩

/-- The command names the key, or a script that it runs calls a command that does. -/
def Names (lua : LuaMachine Vm) (s : State Vm) (update : Update) (external : Bool)
    (operation : Operation) (key : Bytes) : Prop :=
  key ∈ names operation ∨
    ∃ t called, (machine lua).Reaches s (doRequest update external operation) t .advanceScript ∧
      (lua.advance t.vm).1.Calls called ∧ key ∈ names called

/-- What the Lua machine answers while the request runs. -/
def Query.Sparing (home db : Nat) (key : Bytes) : (query : Query) → query.Answer → Prop
  | .advanceScript, event => ∀ called, event.Calls called →
      noFlush called = true ∧ (db = home → key ∉ names called)
  | _, _ => True

variable {update : Update}

/-- Everything but a write, a flush and a script is allowed. -/
theorem admits_of_noWrite {rely : (query : Query) → query.Answer → Prop} {allowed : Query → Prop}
    {eval : Prop} (hReads : ∀ query : Query, query.NoWrite → allowed query)
    (hScript : eval → allowed (.runScript update)) : Admits rely allowed update False eval where
  looks query hQuery := by
    cases query <;> first | exact hQuery.elim | exact hReads _ trivial
  pushes _ _ := hReads _ trivial
  finds _ _ _ _ := trivial
  strings _ := trivial
  panics _ _ _ := hReads _ trivial
  flushes := False.elim
  scripts hEval query hQuery := by
    cases query with
    | runScript again =>
      cases hQuery
      exact hScript hEval
    | _ => first | exact hQuery.elim | exact hReads _ trivial

theorem mayLock_of_noWrite {allowed : Query → Prop}
    (hReads : ∀ query : Query, query.NoWrite → allowed query) : MayLock allowed :=
  ⟨hReads _ trivial, hReads _ trivial⟩

variable {operation : Operation}

/-- Without a script there is nothing for Lua to do. -/
theorem hasEval_of_reaches {s t : State Vm}
    (hReach : (machine lua).Reaches s (doRequest update external operation) t .advanceScript) :
    hasEval operation = true := by
  by_contra hEval
  have hAsks : AsksIn update.updateType False True (doRequest update external operation) :=
    doRequest_relies (admits_askedIn update) (fun _ => ⟨trivial, False.elim⟩) operation
      (.inr trivial) hEval fun key _ => mayPut_askedIn _ key
  refine hReach.allowed_of_relies ?_ hAsks (fun _ _ _ _ _ _ _ => trivial) trivial
  intro query body hAllowed hBody
  cases query with
  | runScript => exact hAllowed.1.elim
  | _ => cases hBody

/-- There are that many databases. -/
def Query.Counts (count : Nat) : (query : Query) → query.Answer → Prop
  | .databaseCount, answer => answer = count
  | _, _ => True

/-- The frame: a key that is not named is left alone, in every mode and also inside
transactions and scripts. So is every key if the database is not there. -/
theorem kept_of_not_names {s t : State Vm} (hFlush : noFlush operation = true)
    (hScripts : ScriptsDoNotFlush lua s (doRequest update external operation))
    (hRun : (machine lua).Runs s (doRequest update external operation) t reply) (hNames :
      update.dbNumber < s.count ∨ hasEval operation = true → db = update.dbNumber → ¬ Names lua s
      update external operation key) :
    t.writeClock = s.writeClock ∧ t.live db key = s.live db key := by
  -- what a script calls during this very run spares the key
  have hCalm : ((machine lua).restrict (fun _ query answer =>
      query.Sparing update.dbNumber db key answer) fun _ _ => True).Runs s
      (doRequest update external operation) t reply := by
    refine hRun.restrict fun before query after answer hReach hPerform => ?_
    obtain ⟨env, hHandle⟩ := hPerform
    cases query with
    | advanceScript =>
      cases hHandle
      intro called hCalls
      refine ⟨hScripts before called hReach hCalls, fun hHome hKey => ?_⟩
      exact hNames (.inr (hasEval_of_reaches hReach)) hHome
        (.inr ⟨before, called, hReach, hCalls, hKey⟩)
    | _ => trivial
  have hReads (query : Query) (hQuery : query.NoWrite) : query.Spares update.dbNumber db key :=
    hQuery.spares _ _ _
  have hAdmits (script : Update) (hDb : script.dbNumber = update.dbNumber) :
      Admits (fun query answer => query.Sparing update.dbNumber db key answer ∧
        query.Counts s.count answer) (Query.Spares update.dbNumber db key) script False True :=
    admits_of_noWrite hReads fun _ => hDb
  have hPut {home : Nat} {k : Bytes} (hDb : home = update.dbNumber)
      (hSpared : update.dbNumber < s.count → db = update.dbNumber → key ≠ k) :
      MayPut (fun query answer => query.Sparing update.dbNumber db key answer ∧
        query.Counts s.count answer) (Query.Spares update.dbNumber db key)
          (fun _ => True) home k := by
    rintro _ ⟨-, rfl⟩ hThere
    subst hDb
    have hOther : ¬ (db = update.dbNumber ∧ key = k) :=
      fun ⟨hHome, hKey⟩ => hSpared hThere hHome hKey
    exact ⟨fun _ _ _ => hOther, hOther, hOther⟩
  have hRelies := doRequest_relies (hAdmits update rfl)
    (fun _ : external = true => mayLock_of_noWrite hReads) operation (.inl hFlush)
    (fun _ => trivial) fun k hKey => hPut rfl fun hThere hHome hEq =>
      hNames (.inl hThere) hHome (.inl (hEq ▸ hKey))
  refine (hCalm.ensures (fun middle => middle.count = s.count ∧ middle.writeClock = s.writeClock ∧
    middle.live db key = s.live db key) ?_ ?_ ?_ hRelies ⟨rfl, rfl, rfl⟩).2.2
  · intro query body hQuery hBody
    cases query with
    | runScript again =>
      cases hBody
      change (scriptLoop again).Ensures _ _ fun _ => True ∧ True
      simp only [and_self]
      refine scriptLoop_relies ((hAdmits again hQuery).scripts trivial) ?_
      intro event hEvent called hCalls
      obtain ⟨hCalled, hSpared⟩ := hEvent.1 called hCalls
      exact doRequest_relies (hAdmits { again with forScript := true } hQuery)
        (fun hEq => by cases hEq) called (.inl hCalled) (fun _ => trivial) fun k hKey =>
          hPut hQuery fun _ hHome hEq => hSpared hHome (hEq ▸ hKey)
    | _ => cases hBody
  · rintro middle query after answer ⟨hCount, hClock, hLive⟩ hQuery ⟨⟨env, hHandle⟩, hAnswer⟩
    obtain ⟨hSameCount, hSameClock, hSameLive⟩ := hQuery.handle hHandle
    refine ⟨⟨hAnswer, ?_⟩, hSameCount.trans hCount, hSameClock.trans hClock, hSameLive.trans hLive⟩
    cases query with
    | databaseCount =>
      cases hHandle
      exact hCount
    | _ => trivial
  · rintro middle after ⟨hCount, hClock, hLive⟩ ⟨hDisturb, -⟩
    have hView := (shows_view lua).disturb _ _ hDisturb
    exact ⟨(congrArg View.count hView).trans hCount, (congrArg View.writeClock hView).trans hClock,
      (congrFun₂ (congrArg View.live hView) db key).trans hLive⟩

/-- In a database that is not there nothing is written. -/
theorem live_of_missing {s t : State Vm} (hDb : ¬ update.dbNumber < s.count)
    (hFlush : noFlush operation = true) (hEval : hasEval operation = false)
    (hRun : (machine lua).Runs s (doRequest update external operation) t reply) (db : Nat)
    (key : Bytes) : t.live db key = s.live db key := by
  have hNoScript {before : State Vm} (hReach : (machine lua).Reaches s
      (doRequest update external operation) before .advanceScript) : False := by
    simpa [hEval] using hasEval_of_reaches hReach
  refine (kept_of_not_names hFlush (fun _ _ hReach => (hNoScript hReach).elim) hRun ?_).2
  simp [hDb, hEval]

end

/-! ### Keys that are updated -/

section

variable {view : View} {update : Update}

variable {entry : Entry}

theorem View.Unexpired.compute_deadline {command : ComputeCommand} {mayRemove : Bool}
    (hUnexpired : view.Unexpired) (hCommand : command.KeepsDeadline mayRemove)
    (hLive : view.live update.dbNumber command.key = some entry) :
    let after := (view.compute update command).1.visible update.dbNumber command.key
    after.map Prod.snd = some entry.expireAt ∨ (mayRemove = true ∧ after = none) := by
  have hUnder := hCommand entry update.writeClock
  cases hMutate : command.mutate entry update.writeClock with
  | mk operation reply =>
    rw [hMutate] at hUnder
    cases operation with
    | insert value policy =>
      cases (show policy = entry.getExpirePolicy from hUnder)
      exact .inl (by rw [hUnexpired.compute_keep hLive hMutate]; rfl)
    | remove =>
      refine .inr ⟨hUnder, ?_⟩
      rw [View.compute_of_live hLive hMutate]
      simp [View.store, View.drop, View.visible]
    | abort =>
      refine .inl ?_
      rw [View.compute_of_live hLive hMutate]
      simp [View.store, View.visible, hLive, Entry.view]

/-! ### Renames -/

/-- Zero stands for no deadline, and a live entry has no such deadline. -/
theorem resolveExpireAt_moved {clock : Nat} (hEntry : entry.expired clock = false) (key : Bytes)
    (value : ValueObject) :
    Mocha.resolveExpireAt clock (InsertReq.expire ⟨key, value, entry.expireAt.getD 0⟩) =
      entry.expireAt := by
  cases hDeadline : entry.expireAt with
  | none => rfl
  | some deadline =>
    simp only [Mocha.EntrySnapshot.expired, hDeadline, Option.any_some,
      decide_eq_false_iff_not] at hEntry
    have hPositive : deadline ≠ 0 := by omega
    simp [InsertReq.expire, hPositive, Mocha.resolveExpireAt]

theorem View.compute_insert (req : InsertReq) :
    (view.compute update req.computeCommand).1 = view.put update.dbNumber req.key
      ⟨⟨(view.live update.dbNumber req.key).elim 1 (·.value.version + 1), req.value⟩,
        Mocha.resolveExpireAt view.writeClock req.expire⟩ := by
  have hKey : req.computeCommand.key = req.key := rfl
  unfold View.compute
  rw [hKey]
  cases view.live update.dbNumber req.key <;> rfl

/-- What is visible once the entry of a key has been moved. -/
def View.moved (view : View) (db : Nat) (key newKey : Bytes) (other : Nat) (k : Bytes) :
    Option (ValueObject × Option Nat) :=
  if other = db ∧ k = newKey then view.visible db key
  else if other = db ∧ k = key then none
  else view.visible other k

theorem View.moved_self (db : Nat) (key : Bytes) : view.moved db key key = view.visible := by
  funext other k
  unfold moved
  split
  next hKey => rw [hKey.1, hKey.2]
  · rfl

theorem View.Unexpired.visible_move (hUnexpired : view.Unexpired)
    (hLive : view.live update.dbNumber key = some entry) (newKey : Bytes) :
    (view.move update key newKey entry).visible = view.moved update.dbNumber key newKey := by
  have hEntry : entry.expired view.writeClock = false := hUnexpired _ _ _ hLive
  have hResolve := resolveExpireAt_moved hEntry newKey entry.value.data
  funext other k
  rw [View.move, View.compute_insert]
  simp only [View.visible, View.put_live, View.moved]
  by_cases hNew : other = update.dbNumber ∧ k = newKey
  · rw [if_pos hNew, if_pos hNew, hLive, show (view.drop update.dbNumber key).writeClock =
      view.writeClock from rfl, hResolve, Option.filter_some, if_pos]
    · rfl
    · exact congrArg not hEntry
  · rw [if_neg hNew]
    simp only [View.drop]
    split <;> rfl

/-- What RENAME is to leave: the source is moved, or there is none. -/
def View.Renamed (view : View) (db : Nat) (key newKey : Bytes) (after : View) (reply : Value) :
    Prop :=
  if (view.visible db key).isSome then reply = .ok ∧ after.visible = view.moved db key newKey
  else reply = noSuchKey ∧ after.visible = view.visible

/-- What RENAMENX is to leave: a target that is there stays. -/
def View.RenamedNx (view : View) (db : Nat) (key newKey : Bytes) (after : View) (reply : Value) :
    Prop :=
  if (view.visible db newKey).isSome then reply = .integer 0 ∧ after.visible = view.visible
  else if (view.visible db key).isSome then
    reply = .integer 1 ∧ after.visible = view.moved db key newKey
  else reply = noSuchKey ∧ after.visible = view.visible

theorem View.Unexpired.renamed (hUnexpired : view.Unexpired) (update : Update)
    (params : RenameParams) :
    view.Renamed update.dbNumber params.key params.newKey (view.rename update params).1
      (view.rename update params).2 := by
  unfold View.Renamed View.rename
  cases hLive : view.live update.dbNumber params.key with
  | none =>
    rw [if_neg (by simp [View.visible, hLive])]
    exact ⟨rfl, rfl⟩
  | some entry =>
    rw [if_pos (by simp [View.visible, hLive])]
    exact ⟨rfl, hUnexpired.visible_move hLive params.newKey⟩

theorem View.Unexpired.renamedNx (hUnexpired : view.Unexpired) (update : Update)
    (params : RenameNxParams) :
    view.RenamedNx update.dbNumber params.key params.newKey (view.renameNx update params).1
      (view.renameNx update params).2 := by
  have hTarget : (view.visible update.dbNumber params.newKey).isSome =
      (view.live update.dbNumber params.newKey).isSome := Option.isSome_map
  rw [View.RenamedNx, View.renameNx, hTarget]
  split
  · exact ⟨rfl, rfl⟩
  · cases hLive : view.live update.dbNumber params.key with
    | none =>
      rw [if_neg (by simp [View.visible, hLive])]
      exact ⟨rfl, rfl⟩
    | some entry =>
      rw [if_pos (by simp [View.visible, hLive])]
      exact ⟨rfl, hUnexpired.visible_move hLive params.newKey⟩

/-- A rename to the same name changes nothing. -/
theorem View.Renamed.visible_self {after : View} (hRenamed : view.Renamed db key key after reply) :
    after.visible = view.visible := by
  unfold View.Renamed at hRenamed
  split at hRenamed
  · exact hRenamed.2.trans (View.moved_self db key)
  · exact hRenamed.2

theorem View.RenamedNx.visible_self {after : View}
    (hRenamed : view.RenamedNx db key key after reply) : after.visible = view.visible := by
  unfold View.RenamedNx at hRenamed
  split_ifs at hRenamed <;> exact hRenamed.2

end

/-! ### All of it -/

section

variable {Vm : Type} (lua : LuaMachine Vm) (s : State Vm) (update : Update)

/-- Every write command but the flushes leaves what it does not name as it is, also
through transactions and scripts. -/
def LeavesOthers : Prop :=
  ∀ external operation t reply, noFlush operation = true →
    ScriptsDoNotFlush lua s (doRequest update external operation) →
    (machine lua).Runs s (doRequest update external operation) t reply →
    ∀ db key, (db = update.dbNumber → ¬ Names lua s update external operation key) →
      t.visible db key = s.visible db key

/-- An update of the value under a key keeps the deadline of the key, unless the last
element goes and the key with it. -/
def KeepsDeadlines : Prop :=
  ∀ external operation t reply, BaseOperation.updates operation = true →
    (machine lua).Runs s (doRequest update external (.base operation)) t reply →
    ∀ key ∈ operation.names, ∀ shown, s.visible update.dbNumber key = some shown →
      (t.visible update.dbNumber key).map Prod.snd = some shown.2 ∨
        (operation.mayRemove = true ∧ t.visible update.dbNumber key = none)

/-- RENAME and RENAMENX come to an end, and then they have moved the value and the
deadline of the source; between equal names they do nothing. -/
structure Relocates (external : Bool) : Prop where
  runs : ∀ key newKey,
    (∃ t reply, (machine lua).Runs s
      (doRequest update external (.redis (.redisRename ⟨key, newKey⟩))) t reply) ∧
    ∃ t reply, (machine lua).Runs s
      (doRequest update external (.redis (.redisRenameNx ⟨key, newKey⟩))) t reply
  rename : ∀ key newKey t reply, (machine lua).Runs s
      (doRequest update external (.redis (.redisRename ⟨key, newKey⟩))) t reply →
    s.view.Renamed update.dbNumber key newKey t.view reply ∧
      (key = newKey → t.visible = s.visible)
  renameNx : ∀ key newKey t reply, (machine lua).Runs s
      (doRequest update external (.redis (.redisRenameNx ⟨key, newKey⟩))) t reply →
    s.view.RenamedNx update.dbNumber key newKey t.view reply ∧
      (key = newKey → t.visible = s.visible)

end

section

variable {Vm : Type} {lua : LuaMachine Vm} {s : State Vm} {update : Update}
    (hMode : ∀ version, update.updateType ≠ .cas version)

theorem leavesOthers : LeavesOthers lua s update := by
  intro external operation t reply hFlush hScripts hRun db key hNames
  rw [State.visible_eq, State.visible_eq,
    (kept_of_not_names hFlush hScripts hRun fun _ => hNames).2]

include hMode

theorem keepsDeadlines : KeepsDeadlines lua s update := by
  intro external operation t reply hUpdates hRun key hKey shown hShown
  have hFlush : BaseOperation.takesLock operation = false := by
    cases operation with
    | flushDB | flushAll => cases hUpdates
    | _ => rfl
  by_cases hDb : update.dbNumber < s.count
  · obtain ⟨command, hCommand, hNames⟩ := BaseOperation.exists_computeCommand hUpdates .sorted
    rw [hNames, List.mem_singleton] at hKey
    subst hKey
    have hSettles : (baseRequest update operation).Settles View.effect
        (fun after _ => after = (s.view.compute update command).1) s.view := by
      rw [settles_baseRequest hCommand, settles_executeCompute hMode hDb]
    have hAfter : t.view = (s.view.compute update command).1 :=
      hRun.settles (shows_view lua) hSettles
    obtain ⟨entry, hLive, rfl⟩ := Option.map_eq_some_iff.mp hShown
    have hKeeps := BaseOperation.keepsDeadline hUpdates hCommand
    have hDeadline := s.view_unexpired.compute_deadline hKeeps hLive
    rw [← hAfter] at hDeadline
    exact hDeadline
  · have hSame : t.live update.dbNumber key = s.live update.dbNumber key :=
      live_of_missing hDb (by simpa [noFlush] using hFlush) rfl hRun _ _
    have hKept : t.visible update.dbNumber key = some shown := by
      rw [State.visible_eq, hSame]
      exact hShown
    exact .inl (by rw [hKept]; rfl)

theorem relocates (hFree : external = true → s.readersLocked = false)
    (hDb : update.dbNumber < s.count) : Relocates lua s update external := by
  have hRuns (operation : RedisOperation) (hSingle : operation.isSingle = true) :=
    runs_performRedis hMode lua hDb hSingle fun hExternal _ => hFree hExternal
  refine ⟨fun key newKey => ⟨(hRuns (.redisRename ⟨key, newKey⟩) rfl).1,
    (hRuns (.redisRenameNx ⟨key, newKey⟩) rfl).1⟩, fun key newKey t reply hRun => ?_,
    fun key newKey t reply hRun => ?_⟩
  all_goals
    obtain ⟨hView, rfl⟩ := (hRuns _ rfl).2 t reply hRun
    rw [hView]
    have hRenamed := s.view_unexpired.renamed update ⟨key, newKey⟩
    have hRenamedNx := s.view_unexpired.renamedNx update ⟨key, newKey⟩
    refine ⟨by assumption, fun hSame => ?_⟩
    subst hSame
    first
      | exact (congrArg View.visible hView).trans hRenamed.visible_self
      | exact (congrArg View.visible hView).trans hRenamedNx.visible_self

/-- Frame and relocation, in every state. -/
theorem frame_and_relocation (lua : LuaMachine Vm) (s : State Vm) :
    LeavesOthers lua s update ∧ KeepsDeadlines lua s update ∧
      ∀ external, (external = true → s.readersLocked = false) → update.dbNumber < s.count →
        Relocates lua s update external :=
  ⟨leavesOthers, keepsDeadlines hMode, fun _ hFree hDb => relocates hMode hFree hDb⟩

end

/-- A rename in a store with one value. -/
theorem frame_and_relocation_holding :
    (∃ t reply, (machine LuaMachine.none).Runs (holding (.int 5))
      (doRequest ⟨0, 0, .none, false⟩ true (.redis (.redisRename ⟨[107], [108]⟩))) t reply) ∧
    ∀ t reply, (machine LuaMachine.none).Runs (holding (.int 5))
      (doRequest ⟨0, 0, .none, false⟩ true (.redis (.redisRename ⟨[107], [108]⟩))) t reply →
      t.visible 0 [108] = some (.int 5, none) ∧ t.visible 0 [107] = none := by
  have hMode (version : Nat) :
      (⟨0, 0, .none, false⟩ : Update).updateType ≠ .cas version := nofun
  obtain ⟨-, -, hRelocates⟩ := frame_and_relocation hMode LuaMachine.none (holding (.int 5))
  have hMoves := hRelocates true (fun _ => rfl) (by decide)
  refine ⟨(hMoves.runs [107] [108]).1, fun t reply hRun => ?_⟩
  obtain ⟨-, hVisible⟩ : reply = .ok ∧
      t.view.visible = (holding (.int 5)).view.moved 0 [107] [108] :=
    (hMoves.rename _ _ _ _ hRun).1
  have hShown (key : Bytes) : t.visible 0 key = (holding (.int 5)).view.moved 0 [107] [108] 0 key :=
    congrFun (congrFun hVisible 0) key
  rw [hShown, hShown]
  exact ⟨rfl, rfl⟩

end Cache
end CacheCat
