import CacheCat.Protocol.Trip

/-! What a client that sends SET is told. The state machine decides whether the
conditions of the options are met and replies accordingly; `SetCommand::execute`
hands this reply on only if the old value was asked for. -/
namespace CacheCat.Protocol

open Cache (State View LuaMachine Update machine shows_view doRequest)
open Library (Program)

/-! ### The truth about a SET -/

section

variable (params : SetParams) (db : Nat) (before after : View)

/-- What is to be seen under the key after a SET that was carried out: the new value
with the deadline of the options, as long as that lies ahead. -/
def shown : Option (ValueObject × Option Nat) :=
  let req := params.request before.writeClock (before.live db params.key)
  (some (req.data, req.deadline)).filter fun shown => !shown.2.any (· ≤ before.writeClock)

/-- The key holds the new value because of this command. -/
def Written : Prop :=
  params.refused (before.live db params.key) = false ∧
    ∀ other k, after.visible other k =
      if other = db ∧ k = params.key then shown params db before else before.visible other k

/-- NX or XX has refused the command, and nothing has changed. -/
def Declined : Prop :=
  params.refused (before.live db params.key) = true ∧
    ∀ other k, after.visible other k = before.visible other k

/-- The string that was under the key, or nil. -/
def previous : Value := .bulkString ((before.live db params.key).bind (·.value.data.text))

/-- The reply tells a command that was carried out from one that was refused, or,
with GET, gives the previous value. -/
structure TellsTruth (value : Value) : Prop where
  settled : Written params db before after ∨ Declined params db before after
  reply : params.get = false →
    (value = .ok ↔ Written params db before after) ∧
      (value = .bulkString none ↔ Declined params db before after)
  replyGet : params.get = true → value = previous params db before

end

/-! ### How a SET gets its reply -/

inductive SetPath where
  | direct
  | exec
  | call
  | pcall
deriving DecidableEq

variable {Vm : Type}

/-- A SET takes `s` to `t` and is answered with a value: sent outside a transaction,
as one of the operations of EXEC, or called by a script. The view is the one that
it finds. -/
inductive Told (lua : LuaMachine Vm) (params : SetParams) (db : Nat) (s t : State Vm) :
    SetPath → View → Value → Prop
  | direct {clock : Nat} {client : Client} {items : List Value} {value : Value}
      (hQueue : client.transactionQueue = none) (hDb : client.dbNumber = db)
      (hItems : SetParams.parse items = .ok params)
      (hSends : Sends lua clock client .set items s t value) :
      Told lua params db s t .direct (stamped s clock) value
  | exec {update : Update} {value : Value} (hMode : ∀ version, update.updateType ≠ .cas version)
      (hClock : update.writeClock = s.writeClock) (hDb : update.dbNumber = db)
      (hRun : (machine lua).Runs s (doRequest update false (.redis (.redisSet params))) t value) :
      Told lua params db s t .exec s.view value
  | call {update : Update} {args : List String} {value : Value}
      (hMode : ∀ version, update.updateType ≠ .cas version)
      (hClock : update.writeClock = s.writeClock) (hDb : update.dbNumber = db)
      (hArgs : RaftCommand.parseRequest (args.map .simpleString) = .ok (.redis (.redisSet params)))
      (hRun : (machine lua).Runs s (Cache.redisCall update args) t (.value value)) :
      Told lua params db s t .call s.view value
  | pcall {update : Update} {args : List String} {value : Value}
      (hMode : ∀ version, update.updateType ≠ .cas version)
      (hClock : update.writeClock = s.writeClock) (hDb : update.dbNumber = db)
      (hArgs : RaftCommand.parseRequest (args.map .simpleString) = .ok (.redis (.redisSet params)))
      (hRun : (machine lua).Runs s (Cache.redisPcall update args) t (.value value)) :
      Told lua params db s t .pcall s.view value

/-- What a SET leaves of the view that it finds. -/
def afterSet (params : SetParams) (db : Nat) (before : View) : View :=
  if params.refused (before.live db params.key) then before
  else before.write db (params.request before.writeClock (before.live db params.key))

/-- The reply, which depends on the path. -/
def toldBy (path : SetPath) (params : SetParams) (found : Option Entry) : Value :=
  match path with
  | .direct => if params.get then params.response found else .ok
  | _ => params.response found

theorem settles_doRequest_set {update : Update} {db : Nat} {view : View} {external : Bool}
    {params : SetParams} (hMode : ∀ version, update.updateType ≠ .cas version)
    (hUpdate : update.dbNumber = db) (hDb : db < view.count)
    (hClock : update.writeClock = view.writeClock) :
    (doRequest update external (.redis (.redisSet params))).Settles View.effect
      (fun after value => after = afterSet params db view ∧
        value = params.response (view.live db params.key)) view := by
  subst hUpdate
  simp only [doRequest, Cache.redisRequest]
  rw [Cache.settles_redisSet hMode hDb, hClock]
  exact ⟨rfl, rfl⟩

theorem Told.outcome {lua : LuaMachine Vm} {params : SetParams} {db : Nat} {s t : State Vm}
    {path : SetPath} {before : View} {value : Value}
    (hTold : Told lua params db s t path before value) (hDb : db < s.count) :
    t.view = afterSet params db before ∧
      value = toldBy path params (before.live db params.key) := by
  cases hTold with
  | @direct clock client items value hQueue hClient hItems hSends =>
    have hOperation : RaftCommand.set.raftRequest items = .ok (.redis (.redisSet params)) :=
      congrArg (RaftCommand.redis .redisSet) hItems
    obtain ⟨response, rfl, hAfter, rfl⟩ := hSends.settles_write hQueue hOperation nofun rfl
      fun mode hMode => settles_doRequest_set hMode hClient hDb rfl
    exact ⟨hAfter, rfl⟩
  | @exec update value hMode hClock hUpdate hRun =>
    exact hRun.settles (shows_view lua) (settles_doRequest_set hMode hUpdate hDb hClock)
  | @call update args value hMode hClock hUpdate hArgs hRun =>
    have hSettles : (Cache.redisCall update args).Settles View.effect (fun after reply =>
        ∀ value, reply = .value value → after = afterSet params db s.view ∧
          value = params.response (s.view.live db params.key)) s.view := by
      simp only [Cache.redisCall, RaftCommand.isEmpty_of_parseRequest hArgs, hArgs,
        Bool.false_eq_true, if_false, Program.settles_bind]
      refine Program.Settles.mono (settles_doRequest_set hMode hUpdate hDb hClock) ?_
      rintro after reply ⟨hAfter, hReply⟩
      split
      · simp
      · rintro value hValue
        cases hValue
        exact ⟨hAfter, hReply⟩
    exact hRun.settles (shows_view lua) hSettles value rfl
  | @pcall update args value hMode hClock hUpdate hArgs hRun =>
    simp only [Cache.redisPcall, RaftCommand.isEmpty_of_parseRequest hArgs, hArgs,
      Bool.false_eq_true, if_false] at hRun
    obtain ⟨reply, hValue, hRun⟩ := Library.Machine.Runs.of_bind_done hRun
    cases hValue
    exact hRun.settles (shows_view lua) (settles_doRequest_set hMode hUpdate hDb hClock)

/-! ### Who is told the truth -/

section

variable {params : SetParams} {db : Nat} {before : View}

theorem declined_afterSet (hRefused : params.refused (before.live db params.key) = true) :
    Declined params db before (afterSet params db before) := by
  refine ⟨hRefused, fun other k => ?_⟩
  rw [afterSet, if_pos hRefused]

theorem written_afterSet (hMet : params.refused (before.live db params.key) = false) :
    Written params db before (afterSet params db before) := by
  refine ⟨hMet, fun other k => ?_⟩
  rw [afterSet, hMet, if_neg Bool.false_ne_true, View.visible_write]
  rfl

theorem previous_eq_oldValue :
    (Cache.ExistingKey.ofEntry (before.live db params.key)).oldValue =
      previous params db before := by
  unfold previous
  cases before.live db params.key with
  | none => rfl
  | some entry =>
    cases hText : entry.value.data.text <;>
      simp [Cache.ExistingKey.ofEntry, Cache.ExistingKey.oldValue, hText]

/-- Only a direct SET without GET that is refused is told something else. -/
theorem tellsTruth_afterSet_iff (path : SetPath) :
    TellsTruth params db before (afterSet params db before)
        (toldBy path params (before.live db params.key)) ↔
      (path = .direct → params.get = true ∨
        params.refused (before.live db params.key) = false) := by
  have hWritten : Written params db before (afterSet params db before) ↔
      params.refused (before.live db params.key) = false := ⟨And.left, written_afterSet⟩
  have hDeclined : Declined params db before (afterSet params db before) ↔
      params.refused (before.live db params.key) = true := ⟨And.left, declined_afterSet⟩
  constructor
  · rintro hTruth rfl
    cases hGet : params.get with
    | true => exact .inl rfl
    | false => exact .inr (hWritten.mp ((hTruth.reply hGet).1.mp (by simp [toldBy, hGet])))
  · intro hPath
    refine ⟨?_, fun hGet => ?_, fun hGet => ?_⟩
    · rw [hWritten, hDeclined]
      exact (Bool.eq_false_or_eq_true _).symm
    · have hValue : toldBy path params (before.live db params.key) =
          if params.refused (before.live db params.key) then .bulkString none else .ok := by
        cases path with
        | direct => simp [toldBy, hGet, (hPath rfl).resolve_left (by simp [hGet])]
        | _ => simp [toldBy, SetParams.response, hGet]
      rw [hValue, hWritten, hDeclined]
      cases params.refused (before.live db params.key) <;> simp [Value.ok]
    · rw [← previous_eq_oldValue]
      cases path <;> simp [toldBy, SetParams.response, hGet]

end

/-! ### A race for a key -/

/-- One of several clients that each try to be the first to write the key. -/
structure Attempt where
  path : SetPath
  value : Bytes
  before : View
  after : View
  told : Value

/-- `SET key value NX`. -/
def setNx (key value : Bytes) : SetParams := ⟨key, value, some .nx, false, none⟩

def Attempt.Truthful (attempt : Attempt) (db : Nat) (key : Bytes) : Prop :=
  TellsTruth (setNx key attempt.value) db attempt.before attempt.after attempt.told

/-- The attempts in the order in which they get into the log. -/
inductive Race (lua : LuaMachine Vm) (db : Nat) (key : Bytes) :
    State Vm → List Attempt → State Vm → Prop
  | nil (s : State Vm) : Race lua db key s [] s
  | cons {s middle t : State Vm} {attempt : Attempt} {attempts : List Attempt}
      (hTold : Told lua (setNx key attempt.value) db s middle attempt.path attempt.before
        attempt.told)
      (hAfter : attempt.after = middle.view) (hRest : Race lua db key middle attempts t) :
      Race lua db key s (attempt :: attempts) t

/-- Under the key is an entry without a deadline. -/
def Taken (view : View) (db : Nat) (key : Bytes) : Prop :=
  ∃ entry, view.live db key = some entry ∧ entry.expireAt = none

theorem Taken.tick {view : View} {db : Nat} {key : Bytes} (hTaken : Taken view db key)
    (clock : Nat) : Taken (view.tick clock) db key := by
  obtain ⟨entry, hLive, hForever⟩ := hTaken
  refine ⟨entry, ?_, hForever⟩
  simp [View.tick, hLive, Mocha.EntrySnapshot.expired, hForever]

section

variable {lua : LuaMachine Vm} {params : SetParams} {db : Nat} {key value : Bytes}
    {s t : State Vm} {path : SetPath} {before : View} {told : Value}

theorem Told.taken (hTold : Told lua params db s t path before told)
    (hTaken : Taken s.view db key) : Taken before db key := by
  cases hTold with
  | direct => exact hTaken.tick _
  | exec | call | pcall => exact hTaken

theorem Told.count (hTold : Told lua params db s t path before told) (hDb : db < s.count) :
    db < t.count := by
  have hBefore : before.count = s.count := by
    cases hTold with
    | direct | exec | call | pcall => rfl
  have hAfter : t.view.count = before.count := by
    rw [(hTold.outcome hDb).1, afterSet]
    split <;> rfl
  change db < t.view.count
  rw [hAfter, hBefore]
  exact hDb

/-- A key that is taken refuses the attempt and stays taken. -/
theorem Told.of_taken (hTold : Told lua (setNx key value) db s t path before told)
    (hDb : db < s.count) (hTaken : Taken s.view db key) :
    (setNx key value).refused (before.live db key) = true ∧ Taken t.view db key := by
  obtain ⟨entry, hLive, hForever⟩ := hTold.taken hTaken
  have hRefused : (setNx key value).refused (before.live db key) = true := by
    simp [SetParams.refused, setNx, hLive]
  refine ⟨hRefused, ?_⟩
  have hSame : t.view = before := (hTold.outcome hDb).1.trans (if_pos hRefused)
  exact hSame ▸ ⟨entry, hLive, hForever⟩

/-- After an attempt the key is taken: it was before, or it is now. -/
theorem Told.takes (hTold : Told lua (setNx key value) db s t path before told)
    (hDb : db < s.count) (hMet : (setNx key value).refused (before.live db key) = false) :
    Taken t.view db key := by
  have hAfter : t.view = before.write db ⟨key, value, noExpiration⟩ :=
    (hTold.outcome hDb).1.trans (if_neg (Bool.not_eq_true _ ▸ hMet))
  rw [hAfter]
  refine ⟨⟨⟨(before.live db key).elim 1 (·.value.version + 1), SetReq.data ⟨key, value, 0⟩⟩, none⟩,
    ?_, rfl⟩
  simp [View.write, View.put_live, SetReq.deadline, SetReq.data, noExpiration,
    Mocha.EntrySnapshot.expired]

/-- Once the key is taken, nobody is truthfully told OK. -/
theorem Race.not_ok_of_taken {attempts : List Attempt} (hRace : Race lua db key s attempts t)
    (hDb : db < s.count) (hTaken : Taken s.view db key)
    (hTruthful : ∀ attempt ∈ attempts, attempt.Truthful db key) :
    ∀ attempt ∈ attempts, attempt.told ≠ .ok := by
  induction hRace with
  | nil s => simp
  | cons hTold hAfter _ ih =>
    simp only [List.mem_cons, forall_eq_or_imp] at hTruthful ⊢
    obtain ⟨hRefused, hStill⟩ := hTold.of_taken hDb hTaken
    refine ⟨fun hOk => ?_, ih (hTold.count hDb) hStill hTruthful.2⟩
    have hWritten := (hTruthful.1.reply rfl).1.mp hOk
    exact absurd (hWritten.1.symm.trans hRefused) Bool.false_ne_true

theorem Race.one_ok {attempts : List Attempt} (hRace : Race lua db key s attempts t)
    (hDb : db < s.count) (hTruthful : ∀ attempt ∈ attempts, attempt.Truthful db key) :
    attempts.Pairwise fun a b => ¬ (a.told = .ok ∧ b.told = .ok) := by
  induction hRace with
  | nil s => exact .nil
  | cons hTold hAfter hRest ih =>
    simp only [List.mem_cons, forall_eq_or_imp] at hTruthful
    refine .cons (fun other hOther => ?_) (ih (hTold.count hDb) hTruthful.2)
    rintro ⟨hFirst, hSecond⟩
    have hWritten := (hTruthful.1.reply rfl).1.mp hFirst
    exact hRest.not_ok_of_taken (hTold.count hDb) (hTold.takes hDb hWritten.1) hTruthful.2
      other hOther hSecond

end

/-- A SET tells the truth unless it is sent outside a transaction, without GET, and
refused; and of truthfully answered attempts to be the first at most one is told
OK. -/
theorem set_tellsTruth_iff (lua : LuaMachine Vm) (db : Nat) :
    (∀ (params : SetParams) (s t : State Vm) (path : SetPath) (before : View) (told : Value),
      Told lua params db s t path before told → db < s.count →
      (TellsTruth params db before t.view told ↔
        (path = .direct →
          params.get = true ∨ params.refused (before.live db params.key) = false))) ∧
    ∀ (key : Bytes) (s t : State Vm) (attempts : List Attempt),
      Race lua db key s attempts t → db < s.count →
      (∀ attempt ∈ attempts, attempt.Truthful db key) →
      attempts.Pairwise fun a b => ¬ (a.told = .ok ∧ b.told = .ok) := by
  refine ⟨fun params s t path before told hTold hDb => ?_, fun key s t attempts hRace hDb =>
    hRace.one_ok hDb⟩
  obtain ⟨hAfter, rfl⟩ := hTold.outcome hDb
  rw [hAfter]
  exact tellsTruth_afterSet_iff path

/-- The update that a transaction at time zero runs its operations with. -/
def firstUpdate : Update := ⟨0, 0, .none, false⟩

/-- A SET in a transaction is told the truth. -/
theorem set_tellsTruth_exec :
    ∃ (t : State Unit) (told : Value),
      Told LuaMachine.none (setNx [107] [49]) 0 (State.new 1 ()) t .exec
        (State.new 1 ()).view told ∧
      TellsTruth (setNx [107] [49]) 0 (State.new 1 ()).view t.view told := by
  obtain ⟨t, told, hTold⟩ :
      ∃ t told, Told LuaMachine.none (setNx [107] [49]) 0 (State.new 1 ()) t .exec
        (State.new 1 ()).view told :=
    ⟨_, _, @Told.exec _ _ _ _ _ _ firstUpdate _ (by simp [firstUpdate]) rfl rfl
      (Cache.runs_quietly 20 rfl)⟩
  exact ⟨t, told, hTold, ((set_tellsTruth_iff LuaMachine.none 0).1 _ _ _ _ _ _ hTold
    (by decide)).mpr nofun⟩

/-- A SET of the key `k` with NX, as the items of a request. -/
def setNxItems (value : Bytes) : List Value :=
  [.bulkString (some [83, 69, 84]), .bulkString (some [107]), .bulkString (some value),
    .bulkString (some [78, 88])]

theorem sends_setNx {s t : State Unit} {value : Bytes} {response : Value}
    (hParse : SetParams.parse (setNxItems value) = .ok (setNx [107] value))
    (hRun : Cache.execute LuaMachine.none .quiet 20 s
      (StateMachine.applyEntry .none
        ⟨⟨0, 0, 0⟩, .normal (.new 0 0 (.redis (.redisSet (setNx [107] value))))⟩) =
          some (t, response)) :
    Told LuaMachine.none (setNx [107] value) 0 s t .direct (stamped s 0) .ok := by
  have hMode (version : Nat) : Cache.UpdateType.none ≠ .cas version := nofun
  have hOperation : RaftCommand.set.raftRequest (setNxItems value) =
      .ok (.redis (.redisSet (setNx [107] value))) := congrArg (RaftCommand.redis .redisSet) hParse
  have hSends : Sends LuaMachine.none 0 (Client.new 0 true) .set (setNxItems value) s t .ok :=
    .of_runs rfl hOperation nofun rfl hMode (Cache.runs_of_execute hRun)
  exact .direct rfl rfl hParse hSends

/-- Two clients send SET with NX for the same key, and both are told OK. -/
theorem setNx_both_told_ok :
    ∃ (attempts : List Attempt) (t : State Unit),
      Race LuaMachine.none 0 [107] (State.new 1 ()) attempts t ∧
      attempts.map (·.told) = [.ok, .ok] ∧
      ∃ attempt ∈ attempts, ¬ attempt.Truthful 0 [107] := by
  have hRuns : ∃ middle t first second,
      Cache.execute LuaMachine.none .quiet 20 (State.new 1 ())
        (StateMachine.applyEntry .none
          ⟨⟨0, 0, 0⟩, .normal (.new 0 0 (.redis (.redisSet (setNx [107] [49]))))⟩) =
            some (middle, first) ∧
      Cache.execute LuaMachine.none .quiet 20 middle
        (StateMachine.applyEntry .none
          ⟨⟨0, 0, 0⟩, .normal (.new 0 0 (.redis (.redisSet (setNx [107] [50]))))⟩) =
            some (t, second) ∧
      0 < middle.count ∧ Taken middle.view 0 [107] :=
    ⟨_, _, _, _, rfl, rfl, by decide, _, rfl, rfl⟩
  obtain ⟨middle, t, _, _, hFirst, hSecond, hDb, hTaken⟩ := hRuns
  have hWinner := sends_setNx (by rfl) hFirst
  have hLoser := sends_setNx (by rfl) hSecond
  refine ⟨[⟨.direct, [49], _, middle.view, .ok⟩, ⟨.direct, [50], _, t.view, .ok⟩], t,
    .cons hWinner rfl (.cons hLoser rfl (.nil t)), rfl, _, List.mem_cons_of_mem _ (.head _), ?_⟩
  intro hTruthful
  have hWritten := (hTruthful.reply rfl).1.mp rfl
  exact absurd (hWritten.1.symm.trans (hLoser.of_taken hDb hTaken).1) Bool.false_ne_true

end CacheCat.Protocol
