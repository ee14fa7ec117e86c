import CacheCat.Protocol.Shorthands
import CacheCat.StateMachine.FileRoundTrip

/-! What comes back of a byte string that was written: text that reads as an integer
is kept as one and printed again when it is read. -/
namespace CacheCat

open Parsed

/-- The text that is printed for a stored text. -/
def restored (value : Bytes) : Bytes := (Text.parseI64Bytes value).elim value Text.intBytes

/-- If the text reads as an integer, it is the printed form of this integer. -/
def Canonical (value : Bytes) : Prop :=
  ∀ n, Text.parseI64Bytes value = some n → Text.intBytes n = value

variable (value : Bytes)

theorem restored_eq_iff : restored value = value ↔ Canonical value := by
  unfold restored Canonical
  cases Text.parseI64Bytes value <;> simp

theorem text_stored : (stored value).text = some (restored value) := by
  unfold stored SetReq.data restored
  cases Text.parseI64Bytes value <;> rfl

theorem toBytes_hashValue : (hashValue value).toBytes = restored value := by
  unfold hashValue restored
  cases Text.parseI64Bytes value <;> rfl

/-- The last value given for a field is the one that is kept. -/
theorem HSetReq.lookup_foldl_insertField {earlier later : List (Bytes × Bytes)}
    {field value : Bytes} (hLast : field ∉ later.map Prod.fst) (state : HashObject × Nat) :
    ((earlier ++ (field, value) :: later).foldl insertField state).1.lookup field =
      some (hashValue value) := by
  rw [List.foldl_append]
  have hKept (rest : List (Bytes × Bytes)) (hRest : field ∉ rest.map Prod.fst)
      (state : HashObject × Nat) (hField : state.1.lookup field = some (hashValue value)) :
      (rest.foldl insertField state).1.lookup field = some (hashValue value) := by
    induction rest generalizing state with
    | nil => exact hField
    | cons pair rest ih =>
      simp only [List.map_cons, List.mem_cons, not_or] at hRest
      refine ih hRest.2 _ ?_
      exact (Finmap.lookup_insert_of_ne _ hRest.1).trans hField
  exact hKept later hLast _ (Finmap.lookup_insert ..)

/-- A deadline that lies ahead has not passed. -/
theorem any_le_of_ahead {deadline : Option Nat} {now : Nat} (hAhead : ∀ due ∈ deadline, now < due) :
    deadline.any (· ≤ now) = false := by
  cases deadline with
  | none => rfl
  | some due => simpa using hAhead due rfl

namespace Cache

/-- Later pairs with other keys leave a key as it is. -/
theorem View.live_foldl_write (view : View) {db : Nat} {key : Bytes} {pairs : List (Bytes × Bytes)}
    (hKey : key ∉ pairs.map Prod.fst) :
    (pairs.foldl (fun view pair => view.write db ⟨pair.1, pair.2, 0⟩) view).live db key =
      view.live db key := by
  induction pairs generalizing view with
  | nil => rfl
  | cons pair pairs ih =>
    simp only [List.map_cons, List.mem_cons, not_or] at hKey
    rw [List.foldl_cons, ih _ hKey.2, View.write, View.put_live, if_neg fun h => hKey.1 h.2]

/-- The written value is under its key, with a version that does not matter here. -/
theorem View.live_write (view : View) (db : Nat) (req : SetReq)
    (hAhead : ∀ deadline ∈ req.deadline, view.writeClock < deadline) :
    ∃ version, (view.write db req).live db req.key =
      some ⟨⟨version, stored req.value⟩, req.deadline⟩ := by
  refine ⟨(view.live db req.key).elim 1 (·.value.version + 1), ?_⟩
  rw [View.write, View.put_live, req.data_eq_stored]
  simp [Mocha.EntrySnapshot.expired, any_le_of_ahead hAhead]

end Cache

namespace Protocol

open Cache (State View LuaMachine UpdateType machine)

variable {Vm : Type}

/-! ### Commands that write a byte string -/

/-- The command puts the byte string under the key, on a view in which nothing keeps it
from doing so, with this deadline. -/
inductive Puts (view : View) (db : Nat) :
    RaftCommand → List Value → (key value : Bytes) → Option Nat → Prop
  | set {items : List Value} {params : SetParams} (hParse : SetParams.parse items = .ok params)
      (hMet : params.refused (view.live db params.key) = false) :
      Puts view db .set items params.key params.value
        (params.request view.writeClock (view.live db params.key)).deadline
  | setNx {name key value : Value} {k v : Bytes} (hKey : key.stringBytesClone = some k)
      (hValue : value.stringBytesClone = some v) (hMissing : view.live db k = none) :
      Puts view db .setNx [name, key, value] k v none
  | getSet {items : List Value} {params : GetSetParams}
      (hParse : GetSetParams.parse items = .ok params)
      (hString : ∀ entry, view.live db params.key = some entry → entry.value.data.text.isSome) :
      Puts view db .getSet items params.key params.value none
  | mSet {items : List Value} {earlier later : List (Bytes × Bytes)} {k v : Bytes}
      (hParse : MsetParams.parse items = .ok ⟨earlier ++ (k, v) :: later⟩)
      (hLast : k ∉ later.map Prod.fst) : Puts view db .mSet items k v none

/-- The command puts the byte string into a field of the hash under the key. -/
inductive PutsField (view : View) (db : Nat) :
    RaftCommand → List Value → (key field value : Bytes) → Option Nat → Prop
  | hSet {items : List Value} {key field value : Bytes} {earlier later : List (Bytes × Bytes)}
      (hParse : HSetReq.parse items = .ok ⟨key, earlier ++ (field, value) :: later⟩)
      (hLast : field ∉ later.map Prod.fst)
      (hHash : ∀ entry, view.live db key = some entry → entry.value.data.asHash.isSome) :
      PutsField view db .hSet items key field value ((view.live db key).bind (·.expireAt))
  | hSetNx {items : List Value} {key field value : Bytes}
      (hParse : HSetNxReq.parse items = .ok ⟨key, field, value⟩)
      (hFree : ∀ entry, view.live db key = some entry →
        ∃ map, entry.value.data.asHash = some map ∧ map.lookup field = none) :
      PutsField view db .hSetNx items key field value ((view.live db key).bind (·.expireAt))

/-- SETNX takes the item of the key for the value. -/
def taken (command : RaftCommand) (key value : Bytes) : Bytes :=
  if command = .setNx then key else value

section

variable {lua : LuaMachine Vm} {clock : Nat} {client : Client} {command : RaftCommand}
    {items : List Value} {s t : State Vm} {told : Value} {key field value : Bytes}
    {deadline : Option Nat}

/-- The entry that such a command leaves. -/
theorem Puts.live (hPuts : Puts (stamped s clock) client.dbNumber command items key value deadline)
    (hQueue : client.transactionQueue = none) (hDb : client.dbNumber < s.count)
    (hFree : s.readersLocked = false) (hSends : Sends lua clock client command items s t told)
    (hAhead : ∀ due ∈ deadline, (stamped s clock).writeClock < due) :
    ∃ version, t.view.live client.dbNumber key =
      some ⟨⟨version, stored (taken command key value)⟩, deadline⟩ := by
  have hView {operation : RedisOperation}
      (hOperation : command.raftRequest items = .ok (.redis operation))
        (hSingle : operation.isSingle = true) :=
    (leadsTo_redis hQueue hDb hOperation hSingle fun _ => hFree).2 t told hSends
  cases hPuts with
  | @set items params hParse hMet =>
    rw [hView (congrArg (RaftCommand.redis .redisSet) hParse) rfl, View.performRedis, hMet]
    exact View.live_write _ _ _ hAhead
  | setNx hKey hValue hMissing =>
    rw [hView (congrArg (RaftCommand.redis .redisSetNx) (SetNxParams.parse_items hKey)) rfl,
      View.performRedis, View.setNx, hMissing]
    exact View.live_write _ _ _ hAhead
  | @getSet items params hParse hString =>
    have hType : Cache.ExistingKey.ofEntry ((stamped s clock).live client.dbNumber params.key) ≠
        .otherType := by
      cases hLive : (stamped s clock).live client.dbNumber params.key with
      | none => simp [Cache.ExistingKey.ofEntry]
      | some entry =>
        obtain ⟨text, hText⟩ := Option.isSome_iff_exists.mp (hString entry hLive)
        simp [Cache.ExistingKey.ofEntry, hText]
    rw [hView (congrArg (RaftCommand.redis .redisGetSet) hParse) rfl, View.performRedis,
      View.getSet, if_neg hType]
    exact View.live_write _ _ ⟨_, _, 0⟩ hAhead
  | @mSet items earlier later key value hParse hLast =>
    rw [hView (congrArg (RaftCommand.redis .redisMset) hParse) rfl, View.performRedis,
      List.foldl_append, List.foldl_cons, View.live_foldl_write _ hLast]
    exact View.live_write _ _ ⟨key, value, 0⟩ (by simp [SetReq.deadline])

/-- What a command on a collection leaves, if it keeps the collection. -/
theorem live_compute_collection {Collection : Type} {view : View} {db : Nat} {key : Bytes}
    {as : ValueObject → Option Collection} {wrap : Collection → ValueObject} {wrongType : Value}
    {step : Nat → Collection → CacheCat.Outcome Collection × Value}
    {init : Mocha.MochaOperation MyValue × Value} {update : Cache.Update}
    {Good : Collection → Prop} (hDb : update.dbNumber = db)
    (hInit : ∃ content reply, init = (.insert (.new (wrap content)) .persistent, reply) ∧
      Good content)
    (hStep : ∀ entry, view.live db key = some entry → ∃ content content' reply,
      as entry.value.data = some content ∧
        step update.writeClock content = (.keep content', reply) ∧ Good content')
    (hAhead : ∀ due ∈ (view.live db key).bind (·.expireAt), view.writeClock < due) :
    ∃ version content, (view.compute update
        (collectionCommand key as wrap wrongType step init)).1.live db key =
        some ⟨⟨version, wrap content⟩, (view.live db key).bind (·.expireAt)⟩ ∧ Good content := by
  subst hDb
  unfold View.compute
  simp only [collectionCommand]
  cases hLive : view.live update.dbNumber key with
  | none =>
    obtain ⟨content, reply, rfl, hGood⟩ := hInit
    refine ⟨1, content, ?_, hGood⟩
    simp [View.store, View.put_live, MyValue.new, Mocha.resolveExpireAt,
      Mocha.EntrySnapshot.expired]
  | some entry =>
    obtain ⟨content, content', reply, hView, hKeep, hGood⟩ := hStep entry hLive
    refine ⟨entry.value.version, content', ?_, hGood⟩
    have hExpired := any_le_of_ahead hAhead
    rw [hLive, Option.bind_some] at hExpired
    simp [hView, hKeep, CacheCat.Outcome.operation, View.store, View.put_live,
      Mocha.resolveExpireAt_getExpirePolicy, Mocha.EntrySnapshot.expired, hExpired]

/-- The entry with the hash that the command leaves. -/
theorem PutsField.live
    (hPuts : PutsField (stamped s clock) client.dbNumber command items key field value deadline)
    (hQueue : client.transactionQueue = none) (hDb : client.dbNumber < s.count)
    (hSends : Sends lua clock client command items s t told)
    (hAhead : ∀ due ∈ deadline, (stamped s clock).writeClock < due) :
    ∃ version map, t.view.live client.dbNumber key = some ⟨⟨version, .hash map⟩, deadline⟩ ∧
      map.lookup field = some (hashValue value) := by
  cases hPuts with
  | @hSet items key field value earlier later hParse hLast hHash =>
    have hOperation : RaftCommand.hSet.raftRequest items =
        .ok (.base (.hSet ⟨key, earlier ++ (field, value) :: later⟩)) :=
      congrArg (RaftCommand.base .hSet) hParse
    rw [(leadsTo_compute hQueue hDb .sorted hOperation rfl).2 t told hSends]
    refine live_compute_collection rfl ⟨_, _, rfl, ?_⟩ (fun entry hLive => ?_) hAhead
    · exact HSetReq.lookup_foldl_insertField hLast _
    · obtain ⟨map, hMap⟩ := Option.isSome_iff_exists.mp (hHash entry hLive)
      exact ⟨map, _, _, hMap, rfl, HSetReq.lookup_foldl_insertField hLast _⟩
  | @hSetNx items key field value hParse hFree =>
    have hOperation : RaftCommand.hSetNx.raftRequest items =
        .ok (.base (.hSetNx ⟨key, field, value⟩)) := congrArg (RaftCommand.base .hSetNx) hParse
    rw [(leadsTo_compute hQueue hDb .sorted hOperation rfl).2 t told hSends]
    refine live_compute_collection rfl ⟨_, _, rfl, Finmap.lookup_singleton_eq⟩
      (fun entry hLive => ?_) hAhead
    obtain ⟨map, hMap, hField⟩ := hFree entry hLive
    exact ⟨map, map.insert field (hashValue value), .integer 1, hMap, by simp [hField],
      Finmap.lookup_insert ..⟩

/-! ### Reading it back -/

theorem Answered.count {asked : List (Sigma Query.Answer)}
    (hAnswered : Answered lua clock s asked t) : t.count = s.count := by
  induction hAnswered with
  | nil s => rfl
  | write _ hApply _ ih => exact ih.trans (StateMachine.runs_grows hApply).count
  | read _ hRead _ ih => exact ih.trans (StateMachine.runs_grows hRead).count

/-- Right after the command, or after a dump of the cache has been loaded by another
process. -/
inductive Kept (lua : LuaMachine Vm) (vm : Vm) (codec : StateMachine.SnapshotCodec)
    (s : State Vm) : State Vm → Prop
  | same : Kept lua vm codec s s
  | reloaded {order : Nat → List Bytes} {queue : List AtomicRequest}
      {snapshotMeta : StateMachine.SnapshotMeta} {file : Bytes} {t : State Vm}
      {result : Except StateMachine.LoadError
        (Option (StateMachine.SnapshotMeta × List AtomicRequest))}
      (hOrder : ∀ db < s.count, StateMachine.Iterates (order db) (s.databases db))
      (hCount : s.count < 2 ^ 64)
      (hFits : StateMachine.FitsHeader codec ⟨snapshotMeta, s.writeClock⟩)
      (hFile : StateMachine.dumpFile codec (StateMachine.dumpOf s order queue snapshotMeta) =
        some file)
      (hLoad : (machine lua).Runs (.new s.count vm)
        (StateMachine.loadCacheFromPath codec (some file)) t result) :
      Kept lua vm codec s t

theorem Kept.live {vm : Vm} {codec : StateMachine.SnapshotCodec} {u : State Vm}
    (hKept : Kept lua vm codec t u) :
    u.count = t.count ∧ ∀ db < t.count, ∀ key, u.live db key = t.live db key := by
  cases hKept with
  | same => exact ⟨rfl, fun _ _ _ => rfl⟩
  | @reloaded order queue snapshotMeta file u result hOrder hCount hFits hFile hLoad =>
    have hLength : (StateMachine.dumpOf t order queue snapshotMeta).databases.length = t.count := by
      simp [StateMachine.dumpOf]
    have hLoads := StateMachine.loadsAs_of_reflects hFile hFits hCount rfl hLength
      (StateMachine.dumpOf_reflects t hOrder queue snapshotMeta)
    exact ⟨(StateMachine.runs_grows hLoad).count,
      (hLoads.run (s := .new t.count vm) rfl (Nat.zero_le _) hLoad).2.2⟩

/-- The reply to a read of one key whose entry is still there. -/
theorem reply_of_read {u w : State Vm} {readClock : Nat} {entry : Entry} {reply : Value}
    {operation : ReadOperation} {execute : Option Entry → Value}
    (hQueue : client.transactionQueue = none) (hDb : client.dbNumber < u.count)
    (hLive : u.live client.dbNumber key = some entry)
    (hAhead : ∀ due ∈ entry.expireAt, readClock < due)
    (hOperation : command.raftRequest items = .ok (.read operation))
    (hOne : readsSeveral command = false)
    (hHandler : Cache.readHandler operation = .one ⟨key, fun found _ => execute found⟩)
    (hSends : Sends lua readClock client command items u w reply) :
    reply = execute (some entry) := by
  have hSettles : (Cache.readRequest false client.dbNumber (some readClock) operation).Settles
      View.effect (fun _ reply => reply = execute (some entry)) u.view := by
    rw [Cache.readRequest, hHandler, Cache.settles_executeRead _ hDb]
    intro env
    change execute ((u.live client.dbNumber key).filter _) = _
    rw [hLive, Option.filter_some]
    simp [Mocha.EntrySnapshot.expired, any_le_of_ahead hAhead]
  exact hSends.settles_read hQueue hOperation hOne fun _ => hSettles

end

/-- A written byte string comes back unchanged exactly if it is canonical: if it reads as
an integer, it has to be the way in which this integer is printed. What SETNX writes is
its key. -/
theorem written_returned_iff (lua : LuaMachine Vm) (vm : Vm) (codec : StateMachine.SnapshotCodec)
    {clock readClock : Nat} {client : Client} {command : RaftCommand} {items : List Value}
    {s t u w : State Vm} {told reply name item : Value} {key value : Bytes} {deadline : Option Nat}
    (hQueue : client.transactionQueue = none) (hDb : client.dbNumber < s.count)
    (hFree : s.readersLocked = false) (hSends : Sends lua clock client command items s t told)
    (hKept : Kept lua vm codec t u) (hItem : item.stringBytesClone = some key)
    (hAhead : ∀ due ∈ deadline, (stamped s clock).writeClock < due ∧ readClock < due) :
    (Puts (stamped s clock) client.dbNumber command items key value deadline →
      Sends lua readClock client .get [name, item] u w reply →
      (reply = .bulkString (some value) ↔
        if command = .setNx then restored key = value else Canonical value)) ∧
    ∀ field fieldItem, fieldItem.stringBytesClone = some field →
      PutsField (stamped s clock) client.dbNumber command items key field value deadline →
      Sends lua readClock client .hGet [name, item, fieldItem] u w reply →
      (reply = .bulkString (some value) ↔ Canonical value) := by
  have hStill : t.count = s.count := by
    obtain ⟨_, _, _, _, _, hAnswered⟩ := hSends
    exact hAnswered.count
  obtain ⟨hCount, hSame⟩ := hKept.live
  have hDb' : client.dbNumber < t.count := hStill ▸ hDb
  have hDb'' : client.dbNumber < u.count := hCount ▸ hDb'
  have hNow (due : Nat) (hDue : due ∈ deadline) := (hAhead due hDue).1
  have hLater (due : Nat) (hDue : due ∈ deadline) := (hAhead due hDue).2
  refine ⟨fun hPuts hRead => ?_, fun field fieldItem hField hPuts hRead => ?_⟩
  · obtain ⟨version, hLive⟩ := hPuts.live hQueue hDb hFree hSends hNow
    have hGet : RaftCommand.get.raftRequest [name, item] = .ok (.read (.get ⟨key⟩)) := by
      simp [RaftCommand.raftRequest, RaftCommand.read, GetParams.parse, argument, Parsed.item,
        hItem, okOr, Except.map]
    rw [reply_of_read hQueue hDb'' ((hSame _ hDb' key).trans hLive) hLater hGet rfl rfl hRead,
      getReply, text_stored]
    by_cases hSetNx : command = .setNx
    · simp [taken, hSetNx]
    · simp [taken, hSetNx, restored_eq_iff]
  · obtain ⟨version, map, hLive, hLookup⟩ := hPuts.live hQueue hDb hSends hNow
    have hGet : RaftCommand.hGet.raftRequest [name, item, fieldItem] =
        .ok (.read (.hGet ⟨key, field⟩)) := by
      simp [RaftCommand.raftRequest, RaftCommand.read, HGetParams.parse, argument, Parsed.item,
        hItem, hField, okOr, ok_bind, Except.map]
    rw [reply_of_read hQueue hDb'' ((hSame _ hDb' key).trans hLive) hLater hGet rfl rfl hRead,
      ← restored_eq_iff, ← toBytes_hashValue]
    simp [HGetParams.execute, readCollection, ValueObject.asHash, fieldReply, hLookup]

/-- SET n 1, a dump, the start of another process with the file, and GET n. -/
theorem written_returned_set : Canonical (bytes "1") ∧ ∃ t u w told reply file result,
    Sends LuaMachine.none 6 (Client.new 0 true) .set
      [.null, .bulkString (some (bytes "n")), .bulkString (some (bytes "1"))]
        (State.new 1 ()) t told ∧
    StateMachine.dumpFile StateMachine.counterCodec (StateMachine.dumpOf t (fun _ => [bytes "n"]) []
      StateMachine.counterRecorded.snapshotMeta) = some file ∧
    (machine .none).Runs (.new 1 ())
      (StateMachine.loadCacheFromPath StateMachine.counterCodec (some file)) u result ∧
    Sends LuaMachine.none 6 (Client.new 0 true) .get [.null, .bulkString (some (bytes "n"))] u w
      reply ∧ reply = .bulkString (some (bytes "1")) := by
  have hCanonical : Canonical (bytes "1") := (restored_eq_iff _).mp (by decide +kernel)
  have hRuns : (do
      let written ← Cache.execute LuaMachine.none .quiet 20 (State.new 1 ())
        (StateMachine.applyEntry .none ⟨⟨0, 0, 0⟩,
          .normal (.new 6 0 (.redis (.redisSet ⟨bytes "n", bytes "1", none, false, none⟩)))⟩)
      let file ← StateMachine.dumpFile StateMachine.counterCodec (StateMachine.dumpOf written.1
        (fun _ => [bytes "n"]) [] StateMachine.counterRecorded.snapshotMeta)
      let loaded ← Cache.execute LuaMachine.none .quiet 20 (.new 1 ())
        (StateMachine.loadCacheFromPath StateMachine.counterCodec (some file))
      let read ← Cache.execute LuaMachine.none .quiet 20 loaded.1
        (Cache.readRequest false 0 (some 6) (.get ⟨bytes "n"⟩))
      some ((written.1.databases 0).keys, written.1.writeClock, written.1.count,
        loaded.1.writeClock)) =
      some ({bytes "n"}, 6, 1, 6) := by
    decide +kernel
  simp only [Option.bind_eq_bind, Option.bind_eq_some_iff, Option.some.injEq,
    Prod.mk.injEq] at hRuns
  obtain ⟨⟨t, response⟩, hWrite, file, hFile, ⟨u, result⟩, hLoad, ⟨w, reply⟩, hRead, hKeys, hClock,
    hCount, hLoaded⟩ := hRuns
  have hMode (version : Nat) : UpdateType.none ≠ .cas version := nofun
  have hSet : Sends LuaMachine.none 6 (Client.new 0 true) .set
      [.null, .bulkString (some (bytes "n")), .bulkString (some (bytes "1"))]
        (State.new 1 ()) t _ :=
    .of_runs rfl rfl (by nofun) rfl hMode (Cache.runs_of_execute hWrite)
  have hGet : Sends LuaMachine.none 6 (Client.new 0 true) .get
      [.null, .bulkString (some (bytes "n"))] u w reply :=
    .of_read rfl rfl rfl hLoaded.le (Cache.runs_of_execute hRead)
  have hOrder (db : Nat) (hDb : db < t.count) :
      StateMachine.Iterates [bytes "n"] (t.databases db) := by
    obtain rfl : db = 0 := by simp only at hCount; omega
    refine ⟨List.nodup_singleton _, fun key => ?_⟩
    rw [← Finmap.mem_keys, hKeys, Finset.mem_singleton, List.mem_singleton]
  have hFits : StateMachine.FitsHeader StateMachine.counterCodec
      ⟨StateMachine.counterRecorded.snapshotMeta, t.writeClock⟩ := by
    rw [hClock]
    decide +kernel
  have hKept : Kept LuaMachine.none () StateMachine.counterCodec t u :=
    .reloaded hOrder (hCount ▸ by decide) hFits hFile (hCount ▸ Cache.runs_of_execute hLoad)
  have hPuts : Puts (stamped (State.new 1 ()) 6) 0 .set
      [.null, .bulkString (some (bytes "n")), .bulkString (some (bytes "1"))]
        (bytes "n") (bytes "1")
      none :=
    @Puts.set _ _ _ ⟨bytes "n", bytes "1", none, false, none⟩ rfl rfl
  have hReply := ((written_returned_iff .none () StateMachine.counterCodec rfl (by decide) rfl hSet
    hKept rfl (by simp)).1 hPuts hGet).mpr hCanonical
  exact ⟨hCanonical, t, u, w, _, reply, file, result, hSet, hFile, Cache.runs_of_execute hLoad,
    hGet, hReply⟩

/-- SET k +1 is answered by GET k with 1. -/
theorem plus_sign_lost :
    ∃ t w told, Sends LuaMachine.none 0 (Client.new 0 true) .set
        [.null, .bulkString (some [107]), .bulkString (some [43, 49])] (State.new 1 ()) t told ∧
      Sends LuaMachine.none 0 (Client.new 0 true) .get [.null, .bulkString (some [107])] t w
        (.bulkString (some [49])) := by
  obtain ⟨t, response, w, hWrite, hClock, hRead⟩ : ∃ t response w,
      Cache.execute LuaMachine.none .quiet 20 (State.new 1 ())
        (StateMachine.applyEntry .none ⟨⟨0, 0, 0⟩,
          .normal (.new 0 0 (.redis (.redisSet ⟨[107], [43, 49], none, false, none⟩)))⟩) =
            some (t, response) ∧
      t.writeClock ≤ 0 ∧
      Cache.execute LuaMachine.none .quiet 20 t
        (Cache.readRequest false 0 (some 0) (.get ⟨[107]⟩)) =
          some (w, .bulkString (some [49])) := ⟨_, _, _, rfl, le_refl 0, rfl⟩
  have hMode (version : Nat) : UpdateType.none ≠ .cas version := nofun
  exact ⟨t, w, _, .of_runs rfl rfl (by nofun) rfl hMode (Cache.runs_of_execute hWrite),
    .of_read rfl rfl rfl hClock (Cache.runs_of_execute hRead)⟩

end Protocol
end CacheCat
