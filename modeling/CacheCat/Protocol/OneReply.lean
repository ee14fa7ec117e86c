import CacheCat.Protocol.Decoding
import CacheCat.Protocol.FromLua
import CacheCat.Protocol.Repeats
import CacheCat.Protocol.Transaction

/-! One request, one reply. Replies are written into the connection one behind the other,
and the client tells them apart by their frames alone. A reply is one frame as long as the
text that it repeats does not end the line it stands in. -/
namespace CacheCat.Protocol

open Parsed
open Library (Program)
open Cache (LuaMachine machine doRequest readRequest hasEval anyHasEval)
open CacheCat.Protocol.Parser (takeFromBytesStream lossy)

/-! ### What the server answers -/

/-- A result of the layers below: one of theirs, or an error that is told in one line. -/
def Outcome (made : Value → Prop) : Except CacheCatError Value → Prop
  | .ok value => made value
  | .error error => error.Plain

/-- The answers that a command gets from the server. Writes are answered by the run of the
operation on the node that applies it, reads by a run on the node of the client. Which
frames a subscription is confirmed by is left open. -/
def Answers {Vm : Type} (lua : LuaMachine Vm) (block : BlockCommand) (client : Client) :
    (query : Query) → query.Answer → Prop
  | .write operation dbNumber, result =>
    Outcome (fun value => ∃ (update : Cache.Update) (s t : Cache.State Vm),
      update.dbNumber = dbNumber ∧
        (machine lua).Runs s (doRequest update true operation) t value) result
  | .read operation dbNumber, result =>
    Outcome (fun value => ∃ clock s t,
      (machine lua).Runs s (readRequest false dbNumber (some clock) operation) t value) result
  | .multiRead operation dbNumber, result =>
    Outcome (fun value => ∃ clock s t,
      (machine lua).Runs s (readRequest false dbNumber (some clock) operation) t value) result
  | .service command items, result =>
    command = .unsubscribe ∨ command = .punsubscribe ∨
      ∃ server : Server, server.Plain ∧ executeService server items command = some result
  | .duringBlock name items, result =>
    name ∈ subscribeFamily ∨
      result = (executeDuringBlock block client name items).mapError .protocol
  | .databaseCount, _ => True
  | .password, _ => True
  | .script _, _ => True
  | .subscribe .., _ => True

/-! ### Which requests run scripts -/

def Dispatch.runsScript (client : Client) : Dispatch → Bool
  | .execute (.data .eval) _ => client.transactionQueue.isNone
  | .execute .evalSha _ => true
  | .execute .exec _ => client.transactionQueue.any anyHasEval
  | _ => false

theorem hasEval_withProto (protoVersion : Nat) (operation : Operation) :
    hasEval (withProto protoVersion operation) = hasEval operation := by
  unfold withProto
  split <;> rfl

theorem hasEval_oneOrMany {keys : List Bytes} {one : Bytes → BaseOperation} {many : RedisOperation}
    (hMany : Cache.redisHasEval many = false) :
    hasEval (RaftCommand.oneOrMany keys one many) = false := by
  unfold RaftCommand.oneOrMany
  split
  · rfl
  · exact hMany

variable {command : RaftCommand} {operation : Operation}

/-- Only EVAL stands for a script. -/
theorem hasEval_raftRequest {items : List Value} (hCommand : command ≠ .eval)
    (hRequest : command.raftRequest items = .ok operation) : hasEval operation = false := by
  cases command with
  | eval => exact absurd rfl hCommand
  | del | unlink =>
    obtain ⟨params, -, rfl⟩ := Parsed.map_eq_ok.mp hRequest
    exact hasEval_oneOrMany rfl
  | _ =>
    obtain ⟨params, -, rfl⟩ := Parsed.map_eq_ok.mp hRequest
    rfl

/-! ### Executions -/

variable {proto : Nat}

section

variable {Vm : Type} {lua : LuaMachine Vm} {block : BlockCommand}

/-- Whatever it is answered, the command replies in a line around the text, or in lines. -/
def RepeatsText (lua : LuaMachine Vm) (block : BlockCommand) (client : Client)
    (text : Option String) (program : Execution) : Prop :=
  program.Returns (Answers lua block client) fun outcome => Repeats text (reply outcome.2)

variable {client : Client} {text : Option String}

theorem RepeatsText.ask {query : Query} {next : query.Answer → Execution}
    (hNext : ∀ answer, Answers lua block client query answer →
      RepeatsText lua block client text (next answer)) :
    RepeatsText lua block client text (Protocol.ask query >>= next) :=
  ⟨trivial, hNext⟩

theorem RepeatsText.refuse (after : Client) {error : ProtocolError} (hPlain : error.Plain) :
    RepeatsText lua block client none (Protocol.refuse after error) :=
  fun _ => hPlain.lines

theorem RepeatsText.answer (after : Client) {value : Value} (hValue : Repeats text value) :
    RepeatsText lua block client text (Protocol.answer after value) :=
  hValue

section

variable {made : Value → Prop} {result : Except CacheCatError Value} (hResult : Outcome made result)

include hResult

theorem Outcome.repeats {f : Value → Value} (hMade : ∀ value, made value → Repeats none (f value)) :
    Repeats none (reply (result.map f)) := by
  cases result with
  | error error => exact CacheCatError.Plain.lines hResult
  | ok value => exact hMade value hResult

theorem Outcome.repeats_self (hMade : ∀ value, made value → Repeats none value) :
    Repeats none (reply result) := by
  have hSelf := hResult.repeats (f := id) hMade
  rwa [Except.map_id] at hSelf

end

theorem queueReply_not_mem {queued : String} (hQueued : queueReply command = some queued) :
    '\r' ∉ queued.toList := by
  unfold queueReply at hQueued
  split at hQueued <;> cases hQueued <;> decide

theorem repeats_writeReply {response : Value} (hResponse : Repeats none response) :
    Repeats none (writeReply operation response) := by
  unfold writeReply
  repeat' split
  all_goals first | exact hResponse | exact fun _ => Value.lines_ok

theorem submit_repeats (several : Bool) (hEval : hasEval operation = false) :
    RepeatsText lua block client none (submit several client operation) := by
  have hRead {operation : ReadOperation} {result : Except CacheCatError Value}
      (hResult : Outcome (fun value => ∃ clock s t, (machine lua).Runs s
        (readRequest false client.dbNumber (some clock) operation) t value) result) :
      Repeats none (reply result) := by
    refine hResult.repeats_self ?_
    rintro value ⟨clock, s, t, hRun⟩ proto
    exact Cache.lines_of_runs (Cache.readRequest_lined _ _ _ _) hRun
  have hWrite {result : Except CacheCatError Value}
      (hResult : Answers lua block client
        (.write (withProto client.protoVersion operation) client.dbNumber)
        result) : Repeats none (reply (result.map (writeReply operation))) := by
    refine Outcome.repeats hResult ?_
    rintro value ⟨update, s, t, -, hRun⟩
    refine repeats_writeReply fun proto => ?_
    refine Cache.lines_of_runs (Cache.doRequest_lined _ _ _ ?_) hRun
    rw [hasEval_withProto, hEval]
  cases operation with
  | read operation =>
    cases several with
    | false | true => exact .ask fun _ hResult => hRead hResult
  | base operation | redis operation => exact .ask fun _ hResult => hWrite hResult

section

variable (items : List Value)

theorem executeData_repeats (hScript : command = .eval → client.transactionQueue ≠ none) :
    RepeatsText lua block client none (executeData command client items) := by
  have hPlain := RaftCommand.raftRequest_plain command items
  unfold executeData
  split
  next operations queued hQueue hQueued =>
    unfold push
    split
    next error hRequest => exact .refuse _ (hPlain error hRequest)
    · exact .answer _ fun _ => Value.lines_simpleString (queueReply_not_mem hQueued)
  next hNone =>
    split
    next error hRequest => exact .refuse _ (hPlain error hRequest)
    next operation hRequest =>
      refine submit_repeats _ (hasEval_raftRequest ?_ hRequest)
      rintro rfl
      obtain ⟨operations, hQueue⟩ := Option.ne_none_iff_exists'.mp (hScript rfl)
      exact hNone operations "QUEUED" hQueue rfl

theorem executeExec_repeats (hScript : client.transactionQueue.any anyHasEval = false) :
    RepeatsText lua block client none (executeExec client items) := by
  unfold executeExec
  split
  · exact .refuse _ (by simp)
  split
  · exact .refuse _ (by simp)
  next operations hQueue =>
    have hEval : hasEval (.redis (.redisExec operations)) = false := by
      rw [hQueue] at hScript
      exact hScript
    refine .ask fun result hResult => ?_
    cases result with
    | error error => exact CacheCatError.Plain.lines hResult
    | ok value =>
      obtain ⟨update, s, t, -, hRun⟩ := hResult
      exact fun proto => Cache.lines_of_runs (Cache.doRequest_lined _ _ _ hEval) hRun

theorem pingMessage_plain : (pingMessage items).Plain := by
  unfold pingMessage
  split <;> simp

theorem executeEcho_repeats :
    RepeatsText lua block client (echoedText items) (executeEcho client items) := by
  unfold executeEcho
  split
  · exact .answer _ fun _ => Value.lines_bulkString _
  · exact .answer _ (.inl rfl)
  · exact .answer _ fun _ => Value.lines_integer _
  next text =>
    refine .answer _ (.inr ⟨"", "", by decide, by decide, ?_⟩)
    simp
  -- other items are not repeated
  all_goals
    unfold echoedText
    split <;> first | exact .refuse _ (by simp) | simp_all

theorem selectNumber_plain : (selectNumber items).Plain := by
  unfold selectNumber
  split <;> simp

theorem authPassword_plain : (authPassword items).Plain := by
  simp [authPassword]

end

theorem noProto_plain : noProto.Plain := ProtocolError.plain_custom (by decide)

theorem helloNumber_plain (value : Value) : (helloNumber value).Plain := by
  unfold helloNumber
  split <;> simp [noProto_plain]

theorem plain_unknownHello : (ProtocolError.unknownCommand "HELLO").Plain := by
  unfold ProtocolError.Plain
  decide

theorem helloOptions_plain (password : Option (List Char)) : (options : List Value) →
    (helloOptions password options).Plain
  | [] => plain_ok _
  | option :: rest => by
    unfold helloOptions
    split
    case h_3 => exact plain_error.mpr (by simp)
    -- a word is refused, or the loop goes on behind its arguments
    all_goals
      split
      case h_2 | h_3 =>
        split
        case h_2 | h_4 => exact helloOptions_plain _ _
        all_goals exact plain_error.mpr (by simp)
      case h_6 | h_7 => exact helloOptions_plain _ _
      case h_9 => exact plain_error.mpr plain_unknownHello
      all_goals exact plain_error.mpr (by simp)
termination_by options => options.length

theorem HelloParam.parse_plain (items : List Value) : (HelloParam.parse items).Plain := by
  unfold HelloParam.parse
  split <;> simp [-bind_pure_comp, helloVersion, helloNumber_plain, noProto_plain,
    helloOptions_plain]

theorem lines_helloReply (client : Client) : (helloReply client).Lines proto := by
  simp [helloReply]

theorem executeMemory_repeats (items : List Value) :
    RepeatsText lua block client (unknownSubcommand memorySubcommands (memorySubcommand items))
      (executeMemory client items) := by
  unfold executeMemory
  split
  next error hWord =>
    rw [unknownSubcommand_error hWord]
    exact .refuse _ (memorySubcommand_plain items error hWord)
  next word hWord =>
    split
    next hUsage =>
      rw [unknownSubcommand_mem hWord (by rw [hUsage]; decide)]
      exact executeData_repeats items (by simp)
    split
    next hKnown =>
      have hMem : word ∈ memorySubcommands := List.mem_cons_of_mem "USAGE" hKnown
      rw [unknownSubcommand_mem hWord hMem]
      refine .ask fun result hResult => ?_
      obtain hOther | hOther | ⟨server, -, hExecute⟩ := hResult
      · cases hOther
      · cases hOther
      · cases hExecute
        exact repeats_of_replies (executeMemoryService_replies server items)
    next hUsage hKnown =>
      rw [unknownSubcommand_not_mem hWord (by simpa [memorySubcommands, hUsage] using hKnown)]
      exact Repeats.unknownCommand (by decide) word

/-- A command outside the subscribe family that runs no script. -/
theorem Command.execute_repeats {command : Command} (items : List Value)
    (hScript : (Dispatch.execute command items).runsScript client = false)
    (hSubscribes : command ≠ .service .unsubscribe ∧ command ≠ .service .punsubscribe)
    (hMemory : command ≠ .service .memory) :
    RepeatsText lua block client (command.repeats items) (command.execute client items) := by
  cases command with
  | data command =>
    refine executeData_repeats items ?_
    rintro rfl hQueue
    simp [Dispatch.runsScript, hQueue] at hScript
  | evalSha => cases hScript
  | multi | discard | quit =>
    dsimp only [Command.execute, executeMulti, executeDiscard, executeQuit]
    repeat' split
    all_goals first | exact .answer _ fun _ => Value.lines_ok | exact .refuse _ (by simp)
  | exec => exact executeExec_repeats items hScript
  | ping =>
    dsimp only [Command.execute, executePing]
    split
    next error hMessage => exact .refuse _ (pingMessage_plain items error hMessage)
    · exact .answer _ fun _ => Value.lines_simpleString (by decide)
    · exact .answer _ fun _ => Value.lines_bulkString _
  | echo => exact executeEcho_repeats items
  | select =>
    dsimp only [Command.execute, executeSelect]
    split
    next error hNumber => exact .refuse _ (selectNumber_plain items error hNumber)
    · refine .ask fun count _ => ?_
      split
      · exact .refuse _ (by simp)
      · exact .answer _ fun _ => Value.lines_ok
  | auth =>
    dsimp only [Command.execute, executeAuth]
    split
    next error hPassword => exact .refuse _ (authPassword_plain items error hPassword)
    · refine .ask fun configured _ => ?_
      split
      · exact .refuse _ (by simp)
      · split
        · exact .answer _ fun _ => Value.lines_ok
        · exact .refuse _ (by simp)
  | hello =>
    dsimp only [Command.execute, executeHello]
    split
    next error hParse => exact .refuse _ (HelloParam.parse_plain items error hParse)
    · split
      · exact .answer _ fun _ => lines_helloReply _
      · refine .ask fun configured _ => ?_
        split
        · exact .refuse _ (by simp)
        · exact .answer _ fun _ => lines_helloReply _
  | memory => exact executeMemory_repeats items
  | service command =>
    refine .ask fun result hResult => ?_
    obtain rfl | rfl | ⟨server, hServer, hExecute⟩ := hResult
    · exact absurd rfl hSubscribes.1
    · exact absurd rfl hSubscribes.2
    · exact executeService_repeats server items hServer hExecute fun h => hMemory (congrArg _ h)

/-! ### Dispatch -/

/-- The services that MEMORY and the subscribe family stand for are registered under no
other name. -/
theorem commands_service {name : String} {command : ServiceCommand}
    (hCommand : commands name = some (.service command)) (hName : name ∉ subscribeFamily) :
    command ≠ .memory ∧ command ≠ .unsubscribe ∧ command ≠ .punsubscribe := by
  unfold commands at hCommand
  split at hCommand <;> cases hCommand <;> simp_all [subscribeFamily]

/-- A PING in subscribe mode whose arguments are refused ends the connection. -/
def Client.hangsUp (client : Client) (value : Value) : Bool :=
  match client.dispatch value with
  | .duringBlock name items => name = "PING" && (pingMessage items).toOption.isNone
  | _ => false

/-- The request is answered by one reply, or by none if the connection is ended. -/
def Replied (block : BlockCommand) (client : Client) (value : Value) : Option Value → Prop
  | some reply => Repeats (client.repeats block value) reply ∧ client.hangsUp value = false
  | none => client.hangsUp value = true

/-- This is so whatever the server answers. -/
def GetsReply (lua : LuaMachine Vm) (block : BlockCommand) (client : Client)
    (value : Value) : Prop :=
  ((client.dispatch value).perform client).Returns (Answers lua block client)
    fun outcome => Replied block client value outcome.2

variable {value : Value} {name : String} {items : List Value}

/-- A request that reaches the table of commands. -/
theorem lookup_replied (hParse : parseCommand value = .ok (name, items))
    (hDispatch : client.dispatch value = lookup name items)
    (hOpen : commands name = none → client.blocking = true ∨ client.authenticated = true)
    (hName : name ∉ subscribeFamily)
    (hScript : (client.dispatch value).runsScript client = false) :
    GetsReply lua block client value := by
  unfold lookup at hDispatch
  split at hDispatch
  next command hCommand =>
    rw [hDispatch] at hScript
    have hRepeats : client.repeats block value = command.repeats items := by
      simp only [Client.repeats, hParse, hDispatch]
    have hHangs : client.hangsUp value = false := by simp only [Client.hangsUp, hDispatch]
    have hService : ∀ service, command = .service service →
        service ≠ .memory ∧ service ≠ .unsubscribe ∧ service ≠ .punsubscribe := by
      rintro service rfl
      exact commands_service hCommand hName
    have hExecute : RepeatsText lua block client (command.repeats items)
        (command.execute client items) :=
      Command.execute_repeats items hScript
        ⟨fun h => (hService _ h).2.1 rfl, fun h => (hService _ h).2.2 rfl⟩
        fun h => (hService _ h).1 rfl
    rw [GetsReply, hDispatch]
    refine Program.Ensures.bind hExecute fun outcome hOutcome => ?_
    exact ⟨hRepeats ▸ hOutcome, hHangs⟩
  next hCommand =>
    have hRepeats : client.repeats block value = some name := by
      simp only [Client.repeats, hParse, hDispatch, if_pos (hOpen hCommand)]
    have hHangs : client.hangsUp value = false := by simp only [Client.hangsUp, hDispatch]
    have hUnknown : Repeats (some name) (ProtocolError.unknownCommand name).toValue :=
      .error "unknown command '" "'" (by decide) (by decide)
    rw [GetsReply, hDispatch]
    exact ⟨hRepeats ▸ hUnknown, hHangs⟩

theorem lines_pongInBlock (message : Option Bytes) :
    (pongInBlock block client message).Lines proto := by
  unfold pongInBlock
  split
  · simp
  · split
    · simp [lines_bulk]
    · split <;> simp

theorem refusedInBlock_repeats (hPing : name ≠ "PING") (hQuit : name ≠ "QUIT")
    (hName : name ∉ subscribeFamily) :
    Repeats (if block = .subscribe ∧ name ∉ subscribeModeCommands then some (lowercase name)
      else none) (refusedInBlock name block) := by
  cases block with
  | psubscribe => exact fun _ => Value.lines_error (by decide)
  | subscribe =>
    by_cases hMode : name ∈ subscribeModeCommands
    · -- what is left of the commands of the mode is RESET
      have hReset : name = "RESET" := by
        simp only [subscribeModeCommands, subscribeFamily, List.mem_cons, List.not_mem_nil,
          or_false, not_or] at hMode hName
        tauto
      subst hReset
      have hText : '\r' ∉ ("ERR Can't execute '" ++ lowercase "RESET" ++
          "': only (P|S)SUBSCRIBE / ").toList := by
        decide
      exact fun _ => Value.lines_error (ProtocolError.return_not_mem_append hText (by decide))
    · rw [if_pos ⟨rfl, hMode⟩, refusedInBlock, String.append_assoc]
      exact .error _ _ (by decide) (by decide)

theorem executeDuringBlock_repeats (hName : name ∉ subscribeFamily) {outcome : Value × Bool}
    (hBlock : executeDuringBlock block client name items = .ok outcome) :
    Repeats (if block = .subscribe ∧ name ∉ subscribeModeCommands then some (lowercase name)
      else none) outcome.1 := by
  unfold executeDuringBlock at hBlock
  split at hBlock
  next hPing =>
    subst hPing
    obtain ⟨message, -, rfl⟩ := Parsed.map_eq_ok.mp hBlock
    rw [if_neg fun h => h.2 (by decide)]
    exact fun _ => lines_pongInBlock message
  next hPing =>
    split at hBlock
    next hQuit =>
      subst hQuit
      cases hBlock
      rw [if_neg fun h => h.2 (by decide)]
      exact fun _ => Value.lines_ok
    next hQuit =>
      cases hBlock
      exact refusedInBlock_repeats hPing hQuit hName

theorem executeDuringBlock_toOption :
    (executeDuringBlock block client name items).toOption.isNone =
      (name = "PING" && (pingMessage items).toOption.isNone : Bool) := by
  unfold executeDuringBlock
  split
  next hPing => cases pingMessage items <;> simp [Except.map, Except.toOption, hPing]
  next hPing =>
    split <;> simp [Except.toOption, hPing]

theorem duringBlock_replied (hParse : parseCommand value = .ok (name, items))
    (hDispatch : client.dispatch value = .duringBlock name items) (hName : name ∉ subscribeFamily) :
    GetsReply lua block client value := by
  have hRepeats : client.repeats block value =
      if block = .subscribe ∧ name ∉ subscribeModeCommands then some (lowercase name)
        else none := by
    simp only [Client.repeats, hParse, hDispatch]
  have hHangs : client.hangsUp value =
      (executeDuringBlock block client name items).toOption.isNone := by
    rw [executeDuringBlock_toOption]
    simp only [Client.hangsUp, hDispatch]
  rw [GetsReply, hDispatch]
  refine ⟨trivial, fun result hResult => ?_⟩
  obtain rfl := hResult.resolve_left hName
  cases hBlock : executeDuringBlock block client name items with
  | error error =>
    rw [hBlock] at hHangs
    exact hHangs
  | ok outcome =>
    rw [hBlock] at hHangs
    exact ⟨hRepeats ▸ executeDuringBlock_repeats hName hBlock, hHangs⟩

theorem parseCommand_plain (value : Value) : (parseCommand value).Plain := by
  unfold parseCommand
  split
  · split <;> simp
  · simp

/-- Every request outside the subscribe family that runs no script. -/
theorem dispatch_replied (hName : ∀ name items, parseCommand value = .ok (name, items) →
    name ∉ subscribeFamily) (hScript : (client.dispatch value).runsScript client = false) :
    GetsReply lua block client value := by
  -- a reply that repeats nothing
  have hPlain {error : ProtocolError} (hDispatch : client.dispatch value = .answer error.toValue)
      (hRepeats : client.repeats block value = none) (hError : error.Plain) :
      GetsReply lua block client value := by
    have hHangs : client.hangsUp value = false := by simp only [Client.hangsUp, hDispatch]
    rw [GetsReply, hDispatch]
    refine ⟨?_, hHangs⟩
    rw [hRepeats]
    exact fun _ => hError.lines
  cases hParse : parseCommand value with
  | error error =>
    refine hPlain (show client.dispatch value = .answer error.toValue from ?_) ?_ ?_
    · simp only [Client.dispatch, hParse]
    · simp only [Client.repeats, hParse]
    · exact parseCommand_plain value error hParse
  | ok parsed =>
    obtain ⟨name, items⟩ := parsed
    have hOther := hName name items hParse
    by_cases hMode : client.blocking = true
    · by_cases hTable : client.protoVersion = 3 ∧ name ∉ subscribeModeCommands
      · refine lookup_replied hParse ?_ (fun _ => .inl hMode) hOther hScript
        simp only [Client.dispatch, hParse, if_pos hMode, handleCommandInBlockingContext,
          if_pos hTable]
      · refine duringBlock_replied hParse ?_ hOther
        simp only [Client.dispatch, hParse, if_pos hMode, handleCommandInBlockingContext,
          if_neg hTable]
    · have hDispatch : client.dispatch value = executeCommand client name items := by
        simp only [Client.dispatch, hParse, if_neg hMode]
      unfold executeCommand at hDispatch
      split at hDispatch
      next hAuth =>
        refine hPlain hDispatch ?_ ProtocolError.plain_notAuthenticated
        simp [Client.repeats, hParse, hDispatch, hMode, hAuth.1]
      next hAuth =>
        split at hDispatch
        next hSubscribe =>
          refine absurd ?_ hOther
          rcases hSubscribe with rfl | rfl <;> decide
        · refine lookup_replied hParse hDispatch (fun hUnknown => .inr ?_) hOther hScript
          -- before AUTH only registered names get this far
          by_contra hClosed
          have hNames : name = "AUTH" ∨ name = "QUIT" := by
            simp only [Bool.not_eq_true] at hClosed
            simp only [hClosed, true_and, not_and_or, not_not] at hAuth
            exact hAuth
          rcases hNames with rfl | rfl <;> cases hUnknown

end

/-! ### Exchanges -/

namespace Exchange

/-- The bytes that are written in answer to the request. -/
def output (display : Float → String) (exchange : Exchange) : Bytes :=
  exchange.reply.elim [] fun reply => reply.encodeProto display exchange.after.protoVersion

/-- SUBSCRIBE, PSUBSCRIBE, or one of the commands that undo them. -/
def Subscribes (exchange : Exchange) : Prop :=
  ∃ name items, parseCommand exchange.value = .ok (name, items) ∧ name ∈ subscribeFamily

def Scripted (exchange : Exchange) : Prop :=
  (exchange.client.dispatch exchange.value).runsScript exchange.client = true

/-- The request was served: the server has answered as it does, and the reply is one that
the types of the source can hold and memory can. -/
structure Answered {Vm : Type} (lua : LuaMachine Vm) (display : Float → String)
    (block : BlockCommand) (exchange : Exchange) : Prop where
  answers : ∀ asked ∈ exchange.asked, Answers lua block exchange.client asked.1 asked.2
  held : ∀ reply ∈ exchange.reply, reply.Held
  fits : Fits (exchange.output display)

/-- Nothing that the client sent ends a line of the reply, nor the connection; nor does a
script make a reply that is not what it seems. -/
structure Clean (block : BlockCommand) (exchange : Exchange) : Prop where
  repeated : ∀ text ∈ exchange.client.repeats block exchange.value, OneLine (bytes text)
  answered : exchange.client.hangsUp exchange.value = false
  scripts : exchange.Scripted → ∀ reply ∈ exchange.reply, reply.Lines exchange.after.protoVersion

/-- The reply is a status or an error. -/
def RepliesInLine (exchange : Exchange) : Prop :=
  ∃ text, exchange.reply = some (.simpleString text) ∨ exchange.reply = some (.error text)

end Exchange

theorem Repeats.exactlyOne_iff {display : Float → String}
    (hDisplay : ∀ d, ReadsAsDouble (display d)) {text : Option String} {reply : Value}
    (hReply : Repeats text reply) (hHeld : reply.Held)
    (hFits : Fits (reply.encodeProto display proto)) :
    ExactlyOne (reply.encodeProto display proto) ↔ ∀ line ∈ text, OneLine (bytes line) := by
  cases text with
  | none => simpa using exactlyOne_of_lines hDisplay (hReply proto) hHeld hFits
  | some text =>
    simp only [Option.mem_some_iff, forall_eq']
    rcases hReply with rfl | ⟨before, after, hBefore, hAfter, rfl⟩
    · exact exactlyOne_simpleString_iff
    · exact exactlyOne_error_iff.trans (oneLine_quoted_iff hBefore hAfter)

variable {last : Client} {exchanges : List Exchange}

section

variable {Vm : Type} {lua : LuaMachine Vm} {display : Float → String} {block : BlockCommand}
  {exchange : Exchange}

/-- A script is always answered, and nothing of the request itself is repeated. -/
theorem Exchange.Scripted.replied (block : BlockCommand) (hScripted : exchange.Scripted)
    (hServed : exchange.Served) :
    exchange.client.repeats block exchange.value = none ∧
      exchange.client.hangsUp exchange.value = false ∧ ∃ reply, exchange.reply = some reply := by
  have hFrame : (exchange.dispatched.perform exchange.client).Transcript exchange.asked
      (exchange.after, exchange.reply) := hServed
  unfold Exchange.Scripted at hScripted
  unfold Exchange.dispatched at hFrame
  cases hDispatch : exchange.client.dispatch exchange.value with
  | execute command items =>
    rw [hDispatch] at hScripted hFrame
    have hCommand : command.repeats items = none := by
      cases command with
      | data | evalSha | exec => rfl
      | _ => cases hScripted
    refine ⟨?_, by simp only [Client.hangsUp, hDispatch], ?_⟩
    · unfold Client.repeats
      split <;> simp_all
    · have hReturns : ((Dispatch.execute command items).perform exchange.client).Returns
          (fun _ _ => True) fun outcome => ∃ reply, outcome.2 = some reply :=
        Program.Returns.last _ fun outcome => ⟨_, rfl⟩
      exact (hFrame.ensures (fun _ _ => trivial) hReturns).2
  | answer | subscribe | duringBlock => rw [hDispatch] at hScripted; cases hScripted

section

variable (hDisplay : ∀ d, ReadsAsDouble (display d)) (hServed : exchange.Served)
  (hAnswered : exchange.Answered lua display block) (hSubscribes : ¬ exchange.Subscribes)

include hDisplay hServed hAnswered hSubscribes

/-- Without scripts, a request gets exactly one reply if and only if it is clean. -/
theorem Exchange.Answered.exactlyOne_iff (hScripted : ¬ exchange.Scripted) :
    ExactlyOne (exchange.output display) ↔ exchange.Clean block := by
  have hName name items (hParse : parseCommand exchange.value = .ok (name, items)) :
      name ∉ subscribeFamily := fun hMem => hSubscribes ⟨name, items, hParse, hMem⟩
  have hReplied : Replied block exchange.client exchange.value exchange.reply :=
    (hServed.ensures hAnswered.answers (dispatch_replied hName (Bool.eq_false_iff.mpr hScripted))).2
  obtain ⟨-, hHeld, hFits⟩ := hAnswered
  unfold Exchange.output at hFits ⊢
  cases hReply : exchange.reply with
  | none =>
    rw [hReply] at hReplied
    refine ⟨fun hOne => absurd hOne not_exactlyOne_nil, fun hClean => ?_⟩
    exact absurd hReplied (by simp [Replied, hClean.answered])
  | some reply =>
    rw [hReply] at hReplied hFits
    refine (hReplied.1.exactlyOne_iff hDisplay (hHeld reply hReply) hFits).trans ⟨fun hLines => ?_,
      Clean.repeated⟩
    exact ⟨hLines, hReplied.2, fun hScript => absurd hScript hScripted⟩

theorem Exchange.Answered.exactlyOne_of_clean (hClean : exchange.Clean block) :
    ExactlyOne (exchange.output display) := by
  by_cases hScripted : exchange.Scripted
  · obtain ⟨-, -, reply, hReply⟩ := hScripted.replied block hServed
    have hFits := hAnswered.fits
    rw [Exchange.output, hReply] at hFits ⊢
    exact exactlyOne_of_lines hDisplay (hClean.scripts hScripted reply hReply)
      (hAnswered.held reply hReply) hFits
  · exact (hAnswered.exactlyOne_iff hDisplay hServed hSubscribes hScripted).mpr hClean

theorem Exchange.Answered.clean_of_exactlyOne
    (hLine : exchange.Scripted → exchange.RepliesInLine)
    (hOne : ExactlyOne (exchange.output display)) :
    exchange.Clean block := by
  by_cases hScripted : exchange.Scripted
  · obtain ⟨hRepeats, hHangs, -⟩ := hScripted.replied block hServed
    obtain ⟨text, hReply⟩ := hLine hScripted
    refine ⟨by simp [hRepeats], hHangs, fun _ => ?_⟩
    unfold Exchange.output at hOne
    rcases hReply with hReply | hReply
    all_goals
      rw [hReply] at hOne ⊢
      rintro reply ⟨⟩
      first | exact exactlyOne_simpleString_iff.mp hOne | exact exactlyOne_error_iff.mp hOne
  · exact (hAnswered.exactlyOne_iff hDisplay hServed hSubscribes hScripted).mp hOne

end

theorem Serves.served_of_mem {client : Client} (hServes : Serves client exchanges last)
    (hMem : exchange ∈ exchanges) : exchange.Served := by
  induction hServes with
  | nil client => cases hMem
  | streamEnded hBlocking _ ih => exact ih hMem
  | frame hOpen hClient hFrame _ ih =>
    rcases List.mem_cons.mp hMem with rfl | hMem
    · unfold Exchange.Served Exchange.dispatched
      rw [hClient]
      exact hFrame
    · exact ih hMem

/-- On every connection, a request outside the subscribe family is answered by exactly one
frame if it is clean, and only then: a reply that a script makes of several parts may
happen to be one frame all the same. If all requests are clean, the values that the client
reads are the replies, one for each request and in their order. -/
theorem Serves.one_reply_each (hDisplay : ∀ d, ReadsAsDouble (display d)) {client : Client}
    (hServes : Serves client exchanges last) (blocks : Exchange → BlockCommand)
    (hAnswered : ∀ exchange ∈ exchanges, exchange.Answered lua display (blocks exchange)) :
    (∀ exchange ∈ exchanges, ¬ exchange.Subscribes →
      (exchange.Clean (blocks exchange) → ExactlyOne (exchange.output display)) ∧
      ((exchange.Scripted → exchange.RepliesInLine) → ExactlyOne (exchange.output display) →
        exchange.Clean (blocks exchange))) ∧
    ((∀ exchange ∈ exchanges, ¬ exchange.Subscribes ∧ exchange.Clean (blocks exchange)) →
      ∃ values, respCodec.drain (exchanges.map (Exchange.output display)).flatten = (values, []) ∧
        List.Forall₂ (fun exchange value =>
          takeFromBytesStream (exchange.output display) = (some value, [])) exchanges values) := by
  refine ⟨fun exchange hMem hSubscribes => ⟨?_, ?_⟩, fun hClean => ?_⟩
  · exact (hAnswered exchange hMem).exactlyOne_of_clean hDisplay
      (hServes.served_of_mem hMem) hSubscribes
  · exact (hAnswered exchange hMem).clean_of_exactlyOne hDisplay
      (hServes.served_of_mem hMem) hSubscribes
  · have hOne : ∀ output ∈ exchanges.map (Exchange.output display),
        ∃ value, respCodec.take output = some (value, []) := by
      intro output hOutput
      obtain ⟨exchange, hMem, rfl⟩ := List.mem_map.mp hOutput
      obtain ⟨hSubscribes, hExchange⟩ := hClean exchange hMem
      obtain ⟨value, hTake⟩ := (hAnswered exchange hMem).exactlyOne_of_clean hDisplay
        (hServes.served_of_mem hMem) hSubscribes hExchange
      exact ⟨value, decode_eq_some_iff.mpr hTake⟩
    obtain ⟨values, hDrain, hValues⟩ := Library.Decoder.exists_drain_flatten hOne rfl
    refine ⟨values, hDrain, (List.forall₂_map_left_iff.mp hValues).imp fun _ _ hTake => ?_⟩
    exact decode_eq_some_iff.mp hTake

end

/-! ### Requests for commands that do not exist -/

theorem zero_readsAsDouble : ReadsAsDouble "0" := ⟨_, rfl⟩

def unknownExchange (name : String) : Exchange where
  client := .new 1 true
  value := .array (some [bulk name])
  asked := []
  reply := some (ProtocolError.unknownCommand name).toValue
  after := .new 1 true

/-- A name in upper case that no command has. -/
structure Unregistered (name : String) : Prop where
  upper : Text.toUppercase (Text.fromUtf8Lossy (bytes name)) = name
  family : name ∉ subscribeFamily
  commands : commands name = none

section

variable {name : String} (hName : Unregistered name)

include hName

theorem Unregistered.parseCommand :
    parseCommand (unknownExchange name).value = .ok (name, [bulk name]) := by
  simp [unknownExchange, Protocol.parseCommand, bulk, hName.upper]

theorem Unregistered.dispatch : (Client.new 1 true).dispatch (unknownExchange name).value =
    .answer (ProtocolError.unknownCommand name).toValue := by
  have hSubscribe : ¬ (name = "SUBSCRIBE" ∨ name = "PSUBSCRIBE") := by
    have hFamily := hName.family
    simp only [subscribeFamily, List.mem_cons, not_or] at hFamily
    tauto
  simp [Client.dispatch, hName.parseCommand, Client.new, executeCommand, hSubscribe, lookup,
    hName.commands]

theorem serves_unknown (hRest : Serves (.new 1 true) exchanges last) :
    Serves (.new 1 true) (unknownExchange name :: exchanges) last := by
  refine .frame rfl rfl ?_ hRest
  rw [hName.dispatch]
  exact .done _

theorem not_subscribes_unknown : ¬ (unknownExchange name).Subscribes := by
  rintro ⟨other, items, hParse, hMem⟩
  rw [hName.parseCommand] at hParse
  cases hParse
  exact hName.family hMem

theorem clean_unknown (block : BlockCommand) (hLine : OneLine (bytes name)) :
    (unknownExchange name).Clean block where
  repeated := by
    have hRepeats : (Client.new 1 true).repeats block (unknownExchange name).value = some name := by
      unfold Client.repeats
      rw [hName.parseCommand, hName.dispatch]
      rfl
    rintro text hText
    cases hRepeats.symm.trans hText
    exact hLine
  answered := by
    have hHangs : (Client.new 1 true).hangsUp (unknownExchange name).value = false := by
      simp [Client.hangsUp, hName.dispatch]
    exact hHangs
  scripts := by
    have hScript : ((Client.new 1 true).dispatch (unknownExchange name).value).runsScript
        (Client.new 1 true) = false := by
      rw [hName.dispatch]
      rfl
    intro hScripted
    cases hScript.symm.trans hScripted

end

theorem served_unknown {Vm : Type} (lua : LuaMachine Vm) (block : BlockCommand) {name : String}
    (hFits : Fits ((unknownExchange name).output fun _ => "0")) :
    (unknownExchange name).Answered lua (fun _ => "0") block where
  answers := by simp [unknownExchange]
  held := by
    rintro reply ⟨⟩
    trivial
  fits := hFits

/-- Two unknown commands in a pipeline: two complaints, in this order. -/
theorem Serves.one_reply_each_unknown :
    Serves (.new 1 true) [unknownExchange "FOO", unknownExchange "BAR"] (.new 1 true) ∧
      ∃ values, respCodec.drain ([unknownExchange "FOO", unknownExchange "BAR"].map
          (Exchange.output fun _ => "0")).flatten = (values, []) ∧
        List.Forall₂ (fun exchange value => takeFromBytesStream
          (Exchange.output (fun _ => "0") exchange) = (some value, []))
            [unknownExchange "FOO", unknownExchange "BAR"] values := by
  have hFoo : Unregistered "FOO" := ⟨by decide +kernel, by decide, rfl⟩
  have hBar : Unregistered "BAR" := ⟨by decide +kernel, by decide, rfl⟩
  have hServes : Serves (.new 1 true) [unknownExchange "FOO", unknownExchange "BAR"]
      (.new 1 true) :=
    serves_unknown hFoo (serves_unknown hBar (.nil _))
  have hAnswered : ∀ exchange ∈ [unknownExchange "FOO", unknownExchange "BAR"],
      exchange.Answered LuaMachine.none (fun _ => "0") .subscribe := by
    simp only [List.mem_cons, List.not_mem_nil, or_false, forall_eq_or_imp, forall_eq]
    refine ⟨served_unknown _ _ ?_, served_unknown _ _ ?_⟩ <;> unfold Fits <;> decide +kernel
  have hClean : ∀ exchange ∈ [unknownExchange "FOO", unknownExchange "BAR"],
      ¬ exchange.Subscribes ∧ exchange.Clean .subscribe := by
    simp only [List.mem_cons, List.not_mem_nil, or_false, forall_eq_or_imp, forall_eq]
    exact ⟨⟨not_subscribes_unknown hFoo, clean_unknown hFoo _ (oneLine_bytes (by decide))⟩,
      not_subscribes_unknown hBar, clean_unknown hBar _ (oneLine_bytes (by decide))⟩
  exact ⟨hServes, (hServes.one_reply_each (fun _ => zero_readsAsDouble)
    (fun _ => .subscribe) hAnswered).2 hClean⟩

/-! ### Forged replies -/

/-- A machine on which every script returns the table with the status. -/
def statusMachine (status : Bytes) : LuaMachine Unit where
  getOrCompileScript vm _ := .ok vm
  setGlobal vm _ _ := vm
  call vm _ := vm
  advance vm := (.finish (.ok (.table [(.string (bytes "ok"), .string status)])), vm)
  resume vm _ := vm

theorem fromLua_status (proto : Nat) (status : Bytes) :
    fromLua proto (.table [(.string (bytes "ok"), .string status)]) =
      .simpleString (lossy status) := by
  have hErr : bytes "ok" ≠ bytes "err" := by decide +kernel
  rw [fromLua]
  simp [fromLuaShape, LuaValue.field, hErr]

def statusScript : EvalParams := ⟨"return {ok = KEYS[1]}".toList, 1, [bytes "a\r\n+b"], [], 2⟩

theorem statusMachine_runs (status : Bytes) :
    ∃ t, (machine (statusMachine status)).Runs (Cache.State.new 1 ())
      (doRequest ⟨0, 0, .none, false⟩ true (.redis (.redisEval statusScript))) t
      (.simpleString (lossy status)) := by
  have hRun : (Cache.execute (statusMachine status) Env.quiet 20 (Cache.State.new 1 ())
      (doRequest ⟨0, 0, .none, false⟩ true (.redis (.redisEval statusScript)))).map Prod.snd =
      some (fromLua 2 (.table [(.string (bytes "ok"), .string status)])) := rfl
  rw [fromLua_status] at hRun
  obtain ⟨⟨t, reply⟩, hRun, rfl⟩ := Option.map_eq_some_iff.mp hRun
  exact ⟨t, Cache.runs_of_execute hRun⟩

/-- EVAL of a script that returns its key as a status. -/
def statusExchange : Exchange where
  client := .new 1 true
  value := .array (some [bulk "EVAL", bulk "return {ok = KEYS[1]}", bulk "1", bulk "a\r\n+b"])
  asked := [⟨.write (.redis (.redisEval statusScript)) 0, .ok (.simpleString "a\r\n+b")⟩]
  reply := some (.simpleString "a\r\n+b")
  after := .new 1 true

theorem serves_status : Serves (.new 1 true) [statusExchange] (.new 1 true) := by
  refine .frame rfl rfl ?_ (.nil _)
  exact .ask (.done _)

theorem served_status : statusExchange.Answered (statusMachine (bytes "a\r\n+b"))
    (fun _ => "0") .subscribe where
  answers := by
    obtain ⟨t, hRun⟩ := statusMachine_runs (bytes "a\r\n+b")
    simp only [statusExchange, List.mem_singleton, forall_eq]
    exact ⟨_, _, t, rfl, hRun⟩
  held := by
    rintro reply ⟨⟩
    trivial
  fits := by
    unfold Fits
    decide +kernel

/-- Two frames are one too many. -/
theorem drain_two {frame rest : Bytes} {first second : Value} (hFirst : Frame .read frame first)
    (hSecond : Frame .read rest second) (hRest : rest ≠ []) :
    respCodec.drain (frame ++ rest) = ([first, second], []) ∧ ¬ ExactlyOne (frame ++ rest) := by
  have hLast := hSecond.taken []
  rw [List.append_nil] at hLast
  refine ⟨?_, hFirst.not_exactlyOne hRest⟩
  rw [Library.Decoder.drain_of_some (decode_eq_some_iff.mpr (hFirst.taken rest)),
    Library.Decoder.drain_of_some (decode_eq_some_iff.mpr hLast), Library.Decoder.drain_of_none rfl]

/-- The name of a command that does not exist makes two replies of one, and so does a
status that a script returns. A SCRIPT without a subcommand has no reply at all. -/
theorem Serves.forges_reply :
    (Serves (.new 1 true) [unknownExchange "FOO\r\n+OK"] (.new 1 true) ∧
      (unknownExchange "FOO\r\n+OK").Answered LuaMachine.none (fun _ => "0") .subscribe ∧
      ¬ (unknownExchange "FOO\r\n+OK").Subscribes ∧
      respCodec.drain ((unknownExchange "FOO\r\n+OK").output fun _ => "0") =
        ([.error "unknown command 'FOO", .simpleString "OK'"], []) ∧
      ¬ ExactlyOne ((unknownExchange "FOO\r\n+OK").output fun _ => "0")) ∧
    (Serves (.new 1 true) [statusExchange] (.new 1 true) ∧
      statusExchange.Answered (statusMachine (bytes "a\r\n+b")) (fun _ => "0") .subscribe ∧
      respCodec.drain (statusExchange.output fun _ => "0") =
        ([.simpleString "a", .simpleString "b"], []) ∧
      ¬ ExactlyOne (statusExchange.output fun _ => "0")) ∧
    ∀ server, executeService server [bulk "SCRIPT"] .script = none := by
  have hFoo : Unregistered "FOO\r\n+OK" := ⟨by decide +kernel, by decide, rfl⟩
  have hName : (unknownExchange "FOO\r\n+OK").output (fun _ => "0") =
      Value.putLine '-' (bytes "unknown command 'FOO") ++ Value.putLine '+' (bytes "OK'") := by
    decide +kernel
  have hStatus : statusExchange.output (fun _ => "0") =
      Value.putLine '+' (bytes "a") ++ Value.putLine '+' (bytes "b") := by
    decide +kernel
  refine ⟨⟨serves_unknown hFoo (.nil _), served_unknown _ _ ?_, not_subscribes_unknown hFoo, ?_⟩,
    ⟨serves_status, served_status, ?_⟩, fun _ => rfl⟩
  · unfold Fits
    decide +kernel
  · rw [hName]
    exact drain_two (.error (oneLine_bytes (by decide))) (.simpleString (oneLine_bytes (by decide)))
      (by decide +kernel)
  · rw [hStatus]
    exact drain_two (.simpleString (oneLine_bytes (by decide)))
      (.simpleString (oneLine_bytes (by decide))) (by decide +kernel)

end CacheCat.Protocol
