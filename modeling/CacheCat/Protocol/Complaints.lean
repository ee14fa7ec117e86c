import CacheCat.Protocol.RaftCommand
import CacheCat.Protocol.Lines

/-! What the parsers of the data commands complain about: texts of the program, none of
which holds a line break. No part of a request gets into them. -/
namespace CacheCat

open Protocol

/-- The text of the error has no carriage return, so it is one line. -/
def ProtocolError.Plain (error : ProtocolError) : Prop := '\r' ∉ error.text.toList

variable {error : ProtocolError}

theorem ProtocolError.Plain.lines {proto : Nat} (hPlain : error.Plain) :
    error.toValue.Lines proto :=
  Value.lines_error hPlain

variable {name : String}

namespace ProtocolError

theorem return_not_mem_append {first second : String} (hFirst : '\r' ∉ first.toList)
    (hSecond : '\r' ∉ second.toList) : '\r' ∉ (first ++ second).toList := by
  rw [String.toList_append, List.mem_append, not_or]
  exact ⟨hFirst, hSecond⟩

@[simp] theorem plain_wrongArgCount (hName : '\r' ∉ name.toList) : (wrongArgCount name).Plain :=
  return_not_mem_append (return_not_mem_append (by decide) hName) (by decide)

@[simp] theorem plain_invalidArgument (hName : '\r' ∉ name.toList) : (invalidArgument name).Plain :=
  return_not_mem_append (by decide) hName

@[simp] theorem plain_invalidFormat {message : String} (hMessage : '\r' ∉ message.toList) :
    (invalidFormat message).Plain :=
  return_not_mem_append (by decide) hMessage

@[simp] theorem plain_custom {message : String} (hMessage : '\r' ∉ message.toList) :
    (custom message).Plain :=
  hMessage

@[simp] theorem plain_syntaxError : syntaxError.Plain := by unfold Plain; decide

@[simp] theorem plain_notAnInteger : notAnInteger.Plain := by unfold Plain; decide

@[simp] theorem plain_wrongType : wrongType.Plain := by unfold Plain; decide

@[simp] theorem plain_dbNotExist : dbNotExist.Plain := by unfold Plain; decide

@[simp] theorem plain_notAuthenticated : notAuthenticated.Plain := by unfold Plain; decide

end ProtocolError

namespace Parsed

variable {A B : Type}

/-- If the parser complains, then with a plain text. -/
def Plain (parsed : Parsed A) : Prop := ∀ error, parsed = .error error → error.Plain

@[simp] theorem plain_ok (a : A) : Plain (.ok a) := by
  rintro _ ⟨⟩

@[simp] theorem plain_pure (a : A) : Plain (pure a) := plain_ok a

@[simp] theorem plain_error : Plain (.error error : Parsed A) ↔ error.Plain := by
  constructor
  · intro hPlain
    exact hPlain error rfl
  · rintro hPlain _ ⟨⟩
    exact hPlain

@[simp] theorem plain_bind {parsed : Parsed A} {rest : A → Parsed B} :
    Plain (parsed >>= rest) ↔ parsed.Plain ∧ ∀ a, parsed = .ok a → (rest a).Plain := by
  cases parsed with
  | error error | ok a => simp [bind, Except.bind]

@[simp] theorem plain_map {parsed : Parsed A} {f : A → B} :
    Plain (parsed.map f) ↔ parsed.Plain := by
  cases parsed with
  | error error | ok a => simp [Except.map]

@[simp] theorem plain_ite {c : Prop} [Decidable c] {yes no : Parsed A} :
    Plain (if c then yes else no) ↔ (c → yes.Plain) ∧ (¬ c → no.Plain) := by
  split <;> simp [*]

@[simp] theorem plain_okOr {value : Option A} (hPlain : error.Plain) :
    (okOr value error).Plain := by
  cases value with
  | none => simpa [okOr] using hPlain
  | some a => simp [okOr]

@[simp] theorem plain_argument {items : List Value} {i : Nat} (hName : '\r' ∉ name.toList) :
    (argument items i name).Plain :=
  plain_okOr (ProtocolError.plain_invalidArgument hName)

variable (item : Value)

@[simp] theorem plain_tryParseU64 : (tryParseU64 item).Plain :=
  plain_okOr ProtocolError.plain_notAnInteger

@[simp] theorem plain_tryParseI64 : (tryParseI64 item).Plain :=
  plain_okOr ProtocolError.plain_notAnInteger

@[simp] theorem plain_tryParseUsize : (tryParseUsize item).Plain :=
  plain_okOr ProtocolError.plain_notAnInteger

@[simp] theorem plain_word : (word item).Plain :=
  plain_map.mpr (plain_okOr ProtocolError.plain_syntaxError)

end Parsed

/-! ### Parsers that several commands share -/

variable {items : List Value} {command : String}

@[simp] theorem plain_keyArguments (hPlain : error.Plain) : (keyArguments items error).Plain :=
  Parsed.plain_okOr hPlain

@[simp] theorem plain_restArguments {start : Nat} (hName : '\r' ∉ name.toList) :
    (restArguments items start name).Plain :=
  Parsed.plain_okOr (ProtocolError.plain_invalidArgument hName)

section

variable (hCommand : '\r' ∉ command.toList)

include hCommand

@[simp] theorem plain_parseHashKey : (parseHashKey items command).Plain := by
  simp [parseHashKey, hCommand]

@[simp] theorem plain_parseStore : (parseStore items command).Plain := by
  simp [-bind_pure_comp, parseStore, hCommand]

@[simp] theorem plain_parseSetKeys : (parseSetKeys items command).Plain := by
  simp [parseSetKeys, hCommand]

@[simp] theorem plain_parseKeyMember : (parseKeyMember items command).Plain := by
  simp [-bind_pure_comp, parseKeyMember, hCommand]

end

@[simp] theorem plain_parsePopCount (items : List Value) : (parsePopCount items).Plain := by
  simp [parsePopCount]

@[simp] theorem plain_parseScriptCall {what : String} (hCommand : '\r' ∉ command.toList)
    (hWhat : '\r' ∉ what.toList) :
    (parseScriptCall command what items).Plain := by
  simp [-bind_pure_comp, parseScriptCall, hCommand, hWhat]

@[simp] theorem plain_parseAsyncMode (hCommand : '\r' ∉ command.toList) :
    (parseAsyncMode items command).Plain := by
  simp only [parseAsyncMode, Parsed.plain_ite, Parsed.plain_bind, Parsed.error_bind,
    Parsed.plain_error, Parsed.plain_pure, ProtocolError.plain_wrongArgCount hCommand, implies_true,
    and_true, true_and]
  refine fun _ _ => ⟨Parsed.plain_okOr ProtocolError.plain_syntaxError, fun arg _ => ?_⟩
  split <;> simp

@[simp] theorem plain_expireCondition (hCommand : '\r' ∉ command.toList) :
    (ExpireCondition.parse items command).Plain := by
  simp only [ExpireCondition.parse, Parsed.plain_ite, Parsed.plain_bind, Parsed.plain_pure,
    implies_true, true_and]
  refine fun _ => ⟨Parsed.plain_okOr (ProtocolError.plain_wrongArgCount hCommand), fun flag _ => ?_⟩
  split <;> simp

/-! ### Loops over the items -/

@[simp] theorem plain_parseFields (items : List Value) : (parseFields items).Plain := by
  fun_induction parseFields items with
  | case1 field value rest ih => simp [-bind_pure_comp, ih]
  | case2 => simp

@[simp] theorem plain_parsePairs (items : List Value) : (MsetParams.parsePairs items).Plain := by
  fun_induction MsetParams.parsePairs items with
  | case1 key value rest ih => simp [-bind_pure_comp, ih]
  | case2 => simp

@[simp] theorem plain_parseMembers (items : List Value) : (ZAddReq.parseMembers items).Plain := by
  fun_induction ZAddReq.parseMembers items with
  | case1 score member rest ih => simp [-bind_pure_comp, ih]
  | case2 => simp

variable (params : SetParams) (item : Value)

theorem plain_parseExpiration (make : Nat → Expiration) (rest : List Value) :
    (params.parseExpiration make rest).Plain := by
  cases rest with
  | nil => simp [SetParams.parseExpiration]
  | cons item rest => simp [-bind_pure_comp, SetParams.parseExpiration]

theorem plain_parseOption (arg : String) (rest : List Value) :
    (params.parseOption arg rest).Plain := by
  unfold SetParams.parseOption
  dsimp only
  split <;> simp [plain_parseExpiration]

@[simp] theorem plain_setOptions (skip : Nat) (items : List Value) :
    (params.parseOptions skip items).Plain := by
  fun_induction SetParams.parseOptions params skip items with
  | case1 => simp
  | case2 params skip item rest ih => exact ih
  | case3 params item rest ih => simp [plain_parseOption, ih]

@[simp] theorem plain_parseScoreString (text : List Char) :
    (ZRangeByScoreParams.parseScoreString text).Plain := by
  unfold ZRangeByScoreParams.parseScoreString
  split <;> simp

@[simp] theorem plain_parseScore : (ZRangeByScoreParams.parseScore item).Plain := by
  unfold ZRangeByScoreParams.parseScore
  split <;> simp

@[simp] theorem plain_parseUsize : (ZRangeByScoreParams.parseUsize item).Plain := by
  unfold ZRangeByScoreParams.parseUsize
  split <;> simp

@[simp] theorem plain_rangeOptions (params : ZRangeByScoreParams) (skip : Nat)
    (items : List Value) : (params.parseOptions skip items).Plain := by
  induction items generalizing params skip with
  | nil => cases skip <;> simp [ZRangeByScoreParams.parseOptions]
  | cons item rest ih =>
    cases skip with
    | succ skip => exact ih params skip
    | zero =>
      rw [ZRangeByScoreParams.parseOptions]
      split
      · exact ih _ _
      · simp [ih]
      · exact ih _ _

@[simp] theorem plain_scoreRange (data : Bytes) : (ScoreRange.parse data).Plain := by
  unfold ScoreRange.parse
  split <;> simp [-bind_pure_comp]

@[simp] theorem plain_bitPosUnit : (BitPosParams.parseUnit item).Plain := by
  simp [BitPosParams.parseUnit]

@[simp] theorem plain_parseRedisI64 : (BitPosParams.parseRedisI64 item).Plain :=
  Parsed.plain_okOr ProtocolError.plain_notAnInteger

@[simp] theorem plain_invalidBitOffset : invalidBitOffset.Plain := by
  simp [invalidBitOffset]

@[simp] theorem plain_invalidType : BitFieldReq.invalidType.Plain := by
  simp [BitFieldReq.invalidType]

@[simp] theorem plain_parseUpperToken : (BitFieldReq.parseUpperToken item).Plain := by
  simp [-bind_pure_comp, BitFieldReq.parseUpperToken]

@[simp] theorem plain_parseEncoding : (BitFieldReq.parseEncoding item).Plain := by
  simp only [BitFieldReq.parseEncoding, Parsed.plain_bind]
  refine ⟨Parsed.plain_okOr plain_invalidType, fun data _ => ?_⟩
  split <;> simp [-bind_pure_comp]

@[simp] theorem plain_parseOffset (encoding : BitFieldEncoding) :
    (BitFieldReq.parseOffset item encoding).Plain := by
  simp [-bind_pure_comp, BitFieldReq.parseOffset]

@[simp] theorem plain_parseI64Argument : (BitFieldReq.parseI64Argument item).Plain :=
  Parsed.plain_okOr ProtocolError.plain_notAnInteger

@[simp] theorem plain_parseOverflow : (BitFieldReq.parseOverflow item).Plain := by
  simp only [BitFieldReq.parseOverflow, Parsed.plain_bind, plain_parseUpperToken, true_and]
  intro token _
  split <;> simp

@[simp] theorem plain_parseOperations (overflow : BitFieldOverflow) (skip : Nat)
    (items : List Value) : (BitFieldReq.parseOperations overflow skip items).Plain := by
  induction items generalizing overflow skip with
  | nil => cases skip <;> simp [BitFieldReq.parseOperations]
  | cons item rest ih =>
    cases skip with
    | succ skip => exact ih overflow skip
    | zero =>
      rw [BitFieldReq.parseOperations]
      simp only [Parsed.plain_bind, plain_parseUpperToken, true_and]
      intro token _
      split <;> simp [-bind_pure_comp, ih]

/-! ### All data commands -/

/-- Whatever a request holds, the complaint about it is a text of the program. -/
theorem RaftCommand.raftRequest_plain (command : RaftCommand) (items : List Value) :
    (command.raftRequest items).Plain := by
  cases command <;> simp [
    -bind_pure_comp, RaftCommand.raftRequest, RaftCommand.base, RaftCommand.read, RaftCommand.redis,
    AppendReq.parse, BitCountParams.parse, BitFieldReq.parse, BitPosParams.parse,
    DbsizeParams.parse, DecrReq.parse, DecrByReq.parse, DelParams.parse, EvalParams.parse,
    ExistsParams.parse, ExpireReq.parse, FlushAllReq.parse, FlushDBReq.parse, GetParams.parse,
    GetBitParams.parse, GetSetParams.parse, HDelReq.parse, HExistsParams.parse, HGetParams.parse,
    HGetAllParams.parse, HIncrReq.parse, HKeysParams.parse, HLenParams.parse, HMGetParams.parse,
    HMSetReq.parse, HSetReq.parse, HSetNxReq.parse, HValsParams.parse, IncrReq.parse,
    IncrByReq.parse, KeysParams.parse, LIndexParams.parse, LLenParams.parse, LPopReq.parse,
    LPushReq.parse, LRangeParams.parse, LRemReq.parse, LSetReq.parse, LTrimReq.parse,
    MemoryUsageParams.parse, MgetParams.parse, MsetParams.parse, PersistReq.parse, PExpireReq.parse,
    PfAddReq.parse, PfcountParams.parse, PSetExParams.parse, PTtlParams.parse, RenameParams.parse,
    RenameNxParams.parse, RPopReq.parse, RPushReq.parse, SAddReq.parse, SCardParams.parse,
    SDiffParams.parse, SDiffStoreParams.parse, SetParams.parse, SetBitReq.parse, SetExParams.parse,
    SetNxParams.parse, SInterParams.parse, SInterStoreReq.parse, SIsMemberParams.parse,
    SMembersParams.parse, SPopReq.parse, SPopReq.parseCount, SRandMemberParams.parse, SRemReq.parse,
    StrLenParams.parse, SUnionParams.parse, SUnionStoreParams.parse, TtlParams.parse,
    TypeParams.parse, UnlinkParams.parse, ZAddReq.parse, ZCardParams.parse, ZCountParams.parse,
    ZIncrByReq.parse, ZPopMinReq.parse, ZRangeParams.parse, ZRangeByScoreParams.parse,
    ZRankParams.parse, ZRemReq.parse, ZRevRankParams.parse, ZScoreParams.parse]

end CacheCat
