import CacheCat.Cache.Replies
import CacheCat.Protocol.Services

/-! Which text of a request gets into a line of its reply. Most replies are made of texts
of the program and of payloads sent behind their length; the names of unknown commands and
subcommands are repeated as the client has sent them. -/
namespace CacheCat

namespace Parsed

/-- A parser that makes the reply itself: the complaint and the reply stay on their lines. -/
def Replies (proto : Nat) (parsed : Parsed Value) : Prop :=
  parsed.Plain ∧ ∀ value, parsed = .ok value → value.Lines proto

variable {A : Type} {proto : Nat}

@[simp] theorem replies_ok {value : Value} : Replies proto (.ok value) ↔ value.Lines proto := by
  simp [Replies]

@[simp] theorem replies_pure {value : Value} : Replies proto (pure value) ↔ value.Lines proto :=
  replies_ok

@[simp] theorem replies_error {error : ProtocolError} :
    Replies proto (.error error) ↔ error.Plain := by
  simp [Replies]

@[simp] theorem replies_bind {parsed : Parsed A} {rest : A → Parsed Value} :
    Replies proto (parsed >>= rest) ↔ parsed.Plain ∧ ∀ a, parsed = .ok a →
      (rest a).Replies proto := by
  cases parsed with
  | error error | ok a => simp [bind, Except.bind]

@[simp] theorem replies_map {parsed : Parsed A} {f : A → Value} :
    Replies proto (parsed.map f) ↔ parsed.Plain ∧ ∀ a, parsed = .ok a → (f a).Lines proto := by
  cases parsed with
  | error error | ok a => simp [Except.map]

@[simp] theorem replies_ite {c : Prop} [Decidable c] {yes no : Parsed Value} :
    Replies proto (if c then yes else no) ↔ (c → yes.Replies proto) ∧ (¬ c → no.Replies proto) := by
  split <;> simp [*]

end Parsed

namespace Protocol

open Parsed

/-! ### What a request has repeated -/

def memorySubcommands : List String := ["USAGE", "STATS", "PURGE", "MALLOC-STATS", "DOCTOR", "HELP"]

def pubsubSubcommands : List String := ["CHANNELS", "NUMSUB", "NUMPAT"]

/-- A subcommand that is not in the table. -/
def unknownSubcommand (table : List String) (parsed : Parsed String) : Option String :=
  parsed.toOption.filter (· ∉ table)

def echoedText : List Value → Option String
  | [_, .simpleString text] => some text
  | [_, .error text] => some text
  | _ => none

def Command.repeats (items : List Value) : Command → Option String
  | .echo => echoedText items
  | .memory => unknownSubcommand memorySubcommands (memorySubcommand items)
  | .service .client => unknownSubcommand clientSubcommands (subcommand "CLIENT" items)
  | .service .sentinel => unknownSubcommand sentinelSubcommands (subcommand "SENTINEL" items)
  | .service .pubsub => unknownSubcommand pubsubSubcommands (pubsubSubcommand items)
  | _ => none

/-- The text of a request that its reply repeats in a line. A client that has
authenticated or subscribed is told the name of a command that does not exist; one that
has sent SUBSCRIBE is told the name of a command that is refused. -/
def Client.repeats (block : BlockCommand) (client : Client) (value : Value) : Option String :=
  match parseCommand value, client.dispatch value with
  | .ok (name, _), .answer _ => if client.blocking ∨ client.authenticated then some name else none
  | .ok _, .execute command items => command.repeats items
  | .ok _, .duringBlock name _ =>
    if block = .subscribe ∧ name ∉ subscribeModeCommands then some (lowercase name) else none
  | _, _ => none

/-- The lines of the reply stay lines, or it is one line around the repeated text. -/
def Repeats : Option String → Value → Prop
  | none, value => ∀ proto, value.Lines proto
  | some text, value =>
    value = .simpleString text ∨
    ∃ before after, '\r' ∉ before.toList ∧ '\n' ∉ after.toList ∧
      value = .error (before ++ text ++ after)

theorem Repeats.error {text : String} (before after : String) (hBefore : '\r' ∉ before.toList)
    (hAfter : '\n' ∉ after.toList) : Repeats (some text) (.error (before ++ text ++ after)) :=
  .inr ⟨before, after, hBefore, hAfter, rfl⟩

/-- The name of a command that does not exist, behind what else is put in front of it. -/
theorem Repeats.unknownCommand {before : String} (hBefore : '\r' ∉ before.toList) (name : String) :
    Repeats (some name) (ProtocolError.unknownCommand (before ++ name)).toValue := by
  have hText : (ProtocolError.unknownCommand (before ++ name)).toValue =
      .error ("unknown command '" ++ (before ++ name) ++ "'") := rfl
  rw [hText, ← String.append_assoc]
  exact .error _ _ (ProtocolError.return_not_mem_append (by decide) hBefore) (by decide)

/-- The text of an error of the layers below is one line. -/
def CacheCatError.Plain : CacheCatError → Prop
  | .protocol error => error.Plain
  | .other text => '\r' ∉ text.toList

theorem CacheCatError.Plain.lines {error : CacheCatError} (hPlain : error.Plain) (proto : Nat) :
    error.toValue.Lines proto := by
  cases error with
  | protocol error => exact ProtocolError.Plain.lines hPlain
  | other text => exact Value.lines_error (ProtocolError.return_not_mem_append (by decide) hPlain)

theorem repeats_of_replies {parsed : Parsed Value} (hReplies : ∀ proto, parsed.Replies proto) :
    Repeats none (reply (parsed.mapError .protocol)) := by
  intro proto
  cases parsed with
  | error error => exact ProtocolError.Plain.lines ((hReplies proto).1 error rfl)
  | ok value => exact (hReplies proto).2 value rfl

/-! ### Services -/

theorem lines_bulk {proto : Nat} (text : String) : (bulk text).Lines proto := trivial

theorem lines_verbatimReport {proto : Nat} (report : Bytes) : (verbatimReport report).Lines proto :=
  trivial

theorem lines_bulkArray {proto : Nat} (texts : List String) : (bulkArray texts).Lines proto := by
  simp [bulkArray, lines_bulk]

/-- What goes wrong below is told in one line. -/
structure Server.Plain (server : Server) : Prop where
  triggerSnapshot : ∀ error, server.triggerSnapshot = .error error → error.Plain
  clientInfo : ∀ error, server.clientInfo = .error error → error.Plain

section

variable (server : Server) (items : List Value)

theorem executeTime_replies (proto : Nat) : (executeTime server items).Replies proto := by
  simp [-bind_pure_comp, executeTime, lines_bulk]

theorem shutdownOption_plain (arg : String) : (shutdownOption arg).Plain := by
  simp [shutdownOption]

theorem executeShutdown_replies (proto : Nat) : (executeShutdown items).Replies proto := by
  unfold executeShutdown
  split <;> simp [shutdownOption_plain]

theorem parseMemory_plain {word : String} (hWord : '\r' ∉ word.toList) :
    (parseMemory word items).Plain := by
  simp [-bind_pure_comp, parseMemory, hWord]

theorem memorySubcommand_plain : (memorySubcommand items).Plain := by
  unfold memorySubcommand
  split <;> simp

theorem subcommand_plain {command : String} (hCommand : '\r' ∉ command.toList) :
    (subcommand command items).Plain := by
  unfold subcommand
  split <;> simp [hCommand]

variable {proto : Nat} {table : List String} {parsed : Parsed String}

theorem lines_statsReply (stats : List (String × Nat)) : (statsReply stats).Lines proto := by
  simp only [statsReply, Value.lines_array, List.mem_flatMap]
  rintro item ⟨stat, -, hItem⟩
  simp only [List.mem_cons, List.not_mem_nil, or_false] at hItem
  rcases hItem with rfl | rfl
  · exact lines_bulk _
  · exact Value.lines_integer _

theorem lines_helpReply : helpReply.Lines proto := lines_bulkArray _

theorem executeMemoryService_replies (proto : Nat) :
    (executeMemoryService server items).Replies proto := by
  simp only [executeMemoryService, replies_bind, memorySubcommand_plain, true_and]
  intro subcommand _
  split <;> simp [
    -bind_pure_comp, parseMemory_plain, lines_statsReply, lines_verbatimReport, lines_helpReply]

theorem stringFromValue_plain (value : Value) : (stringFromValue value).Plain := by
  unfold stringFromValue
  split <;> simp

theorem mapM_stringFromValue_plain (values : List Value) : (values.mapM stringFromValue).Plain := by
  induction values with
  | nil => simp
  | cons value values ih => simp [-bind_pure_comp, stringFromValue_plain, ih]

theorem ofSubcommand_plain (word : String) : (ScriptParam.ofSubcommand items word).Plain := by
  unfold ScriptParam.ofSubcommand
  split <;> simp [-bind_pure_comp, stringFromValue_plain, mapM_stringFromValue_plain]

theorem parse_plain {parsed : Parsed ScriptParam} (hParse : ScriptParam.parse items = some parsed) :
    parsed.Plain := by
  unfold ScriptParam.parse at hParse
  split at hParse
  · cases hParse
    simp
  · cases hParse
  · cases hParse
    simp [ofSubcommand_plain]

theorem ScriptParam.reply_lines (proto : Nat) (param : ScriptParam) :
    (param.reply server).Lines proto := by
  cases param with
  | load script => exact lines_bulk _
  | «exists» sha1s => simp [ScriptParam.reply]
  | flush => exact Value.lines_ok
  | kill =>
    rw [ScriptParam.reply]
    split <;> simp
  | debug => exact Value.lines_error (by decide)

theorem executeScript_replies {parsed : Parsed Value}
    (hExecute : executeScript server items = some parsed) (proto : Nat) : parsed.Replies proto := by
  obtain ⟨param, hParse, rfl⟩ := Option.map_eq_some_iff.mp hExecute
  exact replies_map.mpr ⟨parse_plain items hParse, fun param _ => param.reply_lines server proto⟩

theorem executePublish_replies (proto : Nat) : (executePublish server items).Replies proto := by
  simp [-bind_pure_comp, executePublish]

theorem lines_pubsubChannels (pattern : Option Bytes) :
    (server.pubsub.pubsubChannels server.order pattern).Lines proto :=
  Value.lines_ofBytesList _

theorem lines_pubsubNumsub (channels : List Bytes) :
    (server.pubsub.pubsubNumsub channels).Lines proto := by
  simp only [Broadcast.Registry.pubsubNumsub, Value.lines_array, List.mem_flatMap]
  rintro item ⟨channel, -, hItem⟩
  simp only [List.mem_cons, List.not_mem_nil, or_false] at hItem
  rcases hItem with rfl | rfl
  · exact Value.lines_bulkString _
  · exact Value.lines_integer _

theorem pubsubSubcommand_plain : (pubsubSubcommand items).Plain := by
  simp [-bind_pure_comp, pubsubSubcommand]

theorem sentinelName_plain {command : String} (hCommand : '\r' ∉ command.toList) :
    (sentinelName command items).Plain := by
  unfold sentinelName
  split <;> simp [hCommand]

theorem lines_sentinelMasters : (sentinelMasters server).Lines proto := by
  simp [sentinelMasters, lines_bulkArray]

variable (name : List Char)

theorem lines_sentinelGetMasterAddr : (sentinelGetMasterAddr server name).Lines proto := by
  unfold sentinelGetMasterAddr
  split <;> simp [lines_bulkArray]

theorem lines_sentinelSlaves : (sentinelSlaves server name).Lines proto := by
  unfold sentinelSlaves
  split <;> simp [lines_bulkArray]

theorem lines_sentinelSentinels : (sentinelSentinels server name).Lines proto := by
  unfold sentinelSentinels
  split <;> simp [lines_bulkArray]

theorem executeSetName_replies (proto : Nat) : (executeSetName items).Replies proto := by
  simp [-bind_pure_comp, executeSetName]

theorem executeSetInfo_replies (proto : Nat) : (executeSetInfo items).Replies proto := by
  simp [-bind_pure_comp, executeSetInfo]

/-! The commands with a table of subcommands. -/

theorem unknownSubcommand_error {error : ProtocolError} (hParsed : parsed = .error error) :
    unknownSubcommand table parsed = none := by
  rw [hParsed]
  rfl

theorem unknownSubcommand_mem {word : String} (hParsed : parsed = .ok word) (hMem : word ∈ table) :
    unknownSubcommand table parsed = none := by
  simp [unknownSubcommand, hParsed, Except.toOption, hMem]

theorem unknownSubcommand_not_mem {word : String} (hParsed : parsed = .ok word)
    (hMem : word ∉ table) : unknownSubcommand table parsed = some word := by
  simp [unknownSubcommand, hParsed, Except.toOption, hMem]

theorem executeClient_repeats (hServer : server.Plain) :
    Repeats (unknownSubcommand clientSubcommands (subcommand "CLIENT" items))
      (reply (executeClient server items)) := by
  unfold executeClient
  split
  next error hWord =>
    rw [unknownSubcommand_error hWord]
    exact fun proto => ProtocolError.Plain.lines (subcommand_plain items (by decide) error hWord)
  next hWord =>
    rw [unknownSubcommand_mem hWord (by decide)]
    intro proto
    cases hInfo : server.clientInfo with
    | error error => exact (hServer.clientInfo error hInfo).lines proto
    | ok text => exact Value.lines_bulkString _
  next hWord =>
    rw [unknownSubcommand_mem hWord (by decide)]
    exact repeats_of_replies (executeSetName_replies items)
  next hWord =>
    rw [unknownSubcommand_mem hWord (by decide)]
    exact repeats_of_replies (executeSetInfo_replies items)
  next other hInfo hSetName hSetInfo hWord =>
    have hOther : other ∉ clientSubcommands := by
      simp only [clientSubcommands, List.mem_cons, List.not_mem_nil, or_false, not_or]
      exact ⟨hInfo, hSetName, hSetInfo⟩
    rw [unknownSubcommand_not_mem hWord hOther]
    exact .unknownCommand (by decide) other

/-- A table of subcommands whose replies stay on their lines. -/
theorem repeats_of_table {run : String → Parsed Value} {before : String}
    (hBefore : '\r' ∉ before.toList) (hPlain : parsed.Plain)
    (hKnown : ∀ word ∈ table, ∀ proto, (run word).Replies proto)
    (hUnknown : ∀ word ∉ table, run word = .error (.unknownCommand (before ++ word))) :
    Repeats (unknownSubcommand table parsed) (reply ((parsed >>= run).mapError .protocol)) := by
  cases hWord : parsed with
  | error error =>
    exact fun proto => ProtocolError.Plain.lines (hPlain error hWord)
  | ok word =>
    rw [ok_bind]
    by_cases hMem : word ∈ table
    · rw [unknownSubcommand_mem rfl hMem]
      exact repeats_of_replies (hKnown word hMem)
    · rw [unknownSubcommand_not_mem rfl hMem, hUnknown word hMem]
      exact .unknownCommand hBefore word

theorem executePubSub_repeats :
    Repeats (unknownSubcommand pubsubSubcommands (pubsubSubcommand items))
      (reply ((executePubSub server items).mapError .protocol)) := by
  have hBefore : '\r' ∉ "Unknown PUBSUB subcommand: ".toList := by decide
  refine repeats_of_table hBefore (pubsubSubcommand_plain items) ?_ fun word hWord => ?_
  · simp [-bind_pure_comp, pubsubSubcommands, lines_pubsubChannels, lines_pubsubNumsub,
      Broadcast.Registry.pubsubNumpat]
  · simp only [pubsubSubcommands, List.mem_cons, List.not_mem_nil, or_false, not_or] at hWord
    split <;> simp_all

theorem executeSentinel_repeats :
    Repeats (unknownSubcommand sentinelSubcommands (subcommand "SENTINEL" items))
      (reply ((executeSentinel server items).mapError .protocol)) := by
  have hBefore : '\r' ∉ "SENTINEL ".toList := by decide
  refine repeats_of_table hBefore (subcommand_plain items (by decide)) ?_ fun word hWord => ?_
  · simp [-bind_pure_comp, sentinelSubcommands, sentinelName_plain, lines_sentinelMasters,
      lines_sentinelGetMasterAddr, lines_sentinelSlaves, lines_sentinelSentinels]
  · simp only [sentinelSubcommands, List.mem_cons, List.not_mem_nil, or_false, not_or] at hWord
    split <;> simp_all

theorem takeSnapshot_repeats (hServer : server.Plain) :
    Repeats none (reply (takeSnapshot server)) := by
  intro proto
  unfold takeSnapshot
  cases hSnapshot : server.triggerSnapshot with
  | error error => exact (hServer.triggerSnapshot error hSnapshot).lines proto
  | ok _ => exact Value.lines_ok

theorem saveInProgress_repeats : Repeats none (reply (.error saveInProgress)) :=
  fun _ => Value.lines_error (by decide)

theorem executeSave_repeats (hServer : server.Plain) :
    Repeats none (reply (executeSave server items)) := by
  unfold executeSave
  split
  · exact fun _ => ProtocolError.Plain.lines (ProtocolError.plain_wrongArgCount (by decide))
  split
  · exact saveInProgress_repeats
  · exact takeSnapshot_repeats server hServer

theorem bgsaveSchedule_plain : (bgsaveSchedule items).Plain := by
  unfold bgsaveSchedule
  split <;> simp

theorem executeBgsave_repeats (hServer : server.Plain) :
    Repeats none (reply (executeBgsave server items)) := by
  unfold executeBgsave
  split
  next error hSchedule =>
    exact fun _ => ProtocolError.Plain.lines (bgsaveSchedule_plain items error hSchedule)
  · split
    · exact saveInProgress_repeats
    · exact takeSnapshot_repeats server hServer

/-- Every service command replies in one line around what it repeats, or in lines of its
own. -/
theorem executeService_repeats (hServer : server.Plain) {command : ServiceCommand}
    {result : Except CacheCatError Value}
    (hResult : executeService server items command = some result)
    (hMemory : command ≠ .memory) :
    Repeats ((Command.service command).repeats items) (reply result) := by
  cases command with
  | memory => exact absurd rfl hMemory
  | script =>
    obtain ⟨parsed, hExecute, rfl⟩ := Option.map_eq_some_iff.mp hResult
    exact repeats_of_replies (executeScript_replies server items hExecute)
  | unsubscribe | punsubscribe => cases hResult
  | time =>
    cases hResult
    exact repeats_of_replies (executeTime_replies server items)
  | client =>
    cases hResult
    exact executeClient_repeats server items hServer
  | bgsave =>
    cases hResult
    exact executeBgsave_repeats server items hServer
  | save =>
    cases hResult
    exact executeSave_repeats server items hServer
  | shutdown =>
    cases hResult
    exact repeats_of_replies (executeShutdown_replies items)
  | publish =>
    cases hResult
    exact repeats_of_replies (executePublish_replies server items)
  | pubsub =>
    cases hResult
    exact executePubSub_repeats server items
  | sentinel =>
    cases hResult
    exact executeSentinel_repeats server items

end

end Protocol
end CacheCat
