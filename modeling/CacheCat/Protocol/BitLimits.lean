import CacheCat.Cache.Holding
import CacheCat.Command.BitOffsets

/-! Offsets of bits from the arguments to the log. BITFIELD refuses every field that ends
beyond the longest string, and so no request in the log makes a string longer than that;
SETBIT accepts every `u64`. -/
namespace CacheCat

open Parsed

/-- The text of the value is not longer than a string may be. -/
def ValueObject.WithinLimit (value : ValueObject) : Prop :=
  ∀ data, value.text = some data → data.length ≤ maxBitFieldStringBytes

/-- The parser of SETBIT gets to the offset. -/
def SetBitReq.Reached (items : List Value) : Prop :=
  items.length = 4 ∧ (item items 1).stringBytesClone.isSome

/-- The offset of SETBIT is no number, or its bit lies beyond the longest string. -/
def SetBitReq.Unfit (items : List Value) : Prop :=
  SetBitReq.Reached items ∧
    ¬ ∃ offset, (item items 2).parseU64 = some offset ∧ offset / 8 + 1 ≤ maxBitFieldStringBytes

/-- A field of BITFIELD has an offset that is no number, or it ends beyond the longest
string. -/
def BitFieldReq.Unfit (items : List Value) : Prop :=
  2 ≤ items.length ∧ (item items 1).stringBytesClone.isSome ∧
    BitFieldReq.NamesUnfit .wrap (items.drop 2)

/-- The length of the string that the operation needs to write its bits. -/
def Operation.requiredLength : Operation → Nat
  | .base (.setBit req) => req.offset / 8 + 1
  | .base (.bitField req) => req.requiredLength
  | _ => 0

namespace Cache

/-- Applied or replayed, the operation makes no string longer than it may be. -/
def KeepsLimit (operation : Operation) : Prop :=
  ∀ (Vm : Type) (lua : LuaMachine Vm) (update : Update) (s t : State Vm) (reply : Value),
    s.Holds ValueObject.WithinLimit →
    (machine lua).Runs s (doRequest update true operation) t reply →
    t.Holds ValueObject.WithinLimit

/-- A write that makes the string just as long as it needs to be. -/
theorem keepsLimit_of_computeCommand {operation : BaseOperation} {command : ComputeCommand}
    (hCommand : operation.computeCommand .sorted = some command)
    (hInit : Stores ValueObject.WithinLimit command.init.1)
    (hMutate : ∀ entry clock, entry.value.data.WithinLimit →
      Stores ValueObject.WithinLimit (command.mutate entry clock).1) :
    KeepsLimit (.base operation) := by
  intro Vm lua update s t reply hLimit hRun
  have hSettles : (baseRequest update operation).Settles View.effect
      (fun after _ => after.Holds ValueObject.WithinLimit) s.view := by
    rw [settles_baseRequest hCommand]
    refine settles_executeCompute_holds operation hLimit (fun _ => hInit) fun entry hLive => ?_
    exact hMutate entry _ (hLimit _ _ entry hLive)
  exact hRun.settles (shows_view lua) hSettles

theorem withinLimit_string {data : Bytes} (hLength : data.length ≤ maxBitFieldStringBytes) :
    (ValueObject.string data).WithinLimit := by
  rintro _ ⟨⟩
  exact hLength

theorem keepsLimit_setBit {req : SetBitReq}
    (hOffset : req.offset / 8 + 1 ≤ maxBitFieldStringBytes) : KeepsLimit (.base (.setBit req)) := by
  have hWrite (data : Bytes) (hData : data.length ≤ maxBitFieldStringBytes) :
      (ValueObject.string (req.write data)).WithinLimit :=
    withinLimit_string (by rw [req.length_write]; exact max_le hData hOffset)
  refine keepsLimit_of_computeCommand rfl (hWrite [] (Nat.zero_le _)) fun entry clock hEntry => ?_
  simp only [SetBitReq.computeCommand]
  split
  · trivial
  next data hText => exact hWrite data (hEntry data hText)

theorem keepsLimit_bitField {req : BitFieldReq}
    (hRequired : req.requiredLength ≤ maxBitFieldStringBytes) :
    KeepsLimit (.base (.bitField req)) := by
  have hWrite (data : Bytes) (hData : data.length ≤ maxBitFieldStringBytes) :
      (ValueObject.string (req.executeOperations data).1).WithinLimit :=
    withinLimit_string (by rw [req.length_executeOperations]; exact max_le hData hRequired)
  refine keepsLimit_of_computeCommand rfl ?_ fun entry clock hEntry => ?_
  · simp only [BitFieldReq.computeCommand]
    split
    · exact hWrite [] (Nat.zero_le _)
    · trivial
  · simp only [BitFieldReq.computeCommand]
    split
    · trivial
    next data hText =>
      split
      · exact hWrite data (hEntry data hText)
      · trivial

end Cache

/-- The parser refuses the arguments for an offset exactly if there is one that does not
fit, and what it accepts never leads to a string that is too long. -/
structure Validated (command : RaftCommand) (Unfit : List Value → Prop) (items : List Value) :
    Prop where
  refuses : command.raftRequest items = .error invalidBitOffset ↔ Unfit items
  accepts : ∀ operation, command.raftRequest items = .ok operation →
    operation.requiredLength ≤ maxBitFieldStringBytes ∧ Cache.KeepsLimit operation

theorem validated_bitField (items : List Value) :
    Validated .bitField BitFieldReq.Unfit items := by
  have hRequest : RaftCommand.bitField.raftRequest items =
      (BitFieldReq.parse items).map fun req => .base (.bitField req) := rfl
  constructor
  · rw [hRequest, BitFieldReq.Unfit, ← BitFieldReq.parse_eq_error_iff]
    cases BitFieldReq.parse items <;> simp [Except.map]
  · intro operation hOperation
    rw [hRequest] at hOperation
    cases hParse : BitFieldReq.parse items with
    | error error => rw [hParse] at hOperation; cases hOperation
    | ok req =>
      rw [hParse] at hOperation
      cases hOperation
      have hRequired := BitFieldReq.requiredLength_le (BitFieldReq.inLimit_of_parse hParse)
      exact ⟨hRequired, Cache.keepsLimit_bitField hRequired⟩

theorem SetBitReq.parse_eq_error_iff (items : List Value) :
    SetBitReq.parse items = .error invalidBitOffset ↔
      SetBitReq.Reached items ∧ (item items 2).parseU64 = none := by
  unfold SetBitReq.parse SetBitReq.Reached
  by_cases hLength : items.length = 4
  · cases hKey : (item items 1).stringBytesClone with
    | none => simp [hLength, hKey, argument, okOr, invalidBitOffset]
    | some key =>
      cases hOffset : (item items 2).parseU64 with
      | none => simp [hLength, hKey, argument, okOr, ok_bind]
      | some offset =>
        have hValue : ProtocolError.custom "ERR bit is not an integer or out of range" ≠
            invalidBitOffset := by decide +kernel
        cases (item items 3).parseBoolU8 <;>
          simp [hLength, hKey, argument, okOr, ok_bind, hValue]
  · simp [hLength, invalidBitOffset]

theorem SetBitReq.offset_of_parse {items : List Value} {req : SetBitReq}
    (hParse : SetBitReq.parse items = .ok req) :
    SetBitReq.Reached items ∧ (item items 2).parseU64 = some req.offset := by
  unfold SetBitReq.parse at hParse
  by_cases hLength : items.length ≠ 4
  · rw [if_pos hLength] at hParse
    cases hParse
  rw [if_neg hLength] at hParse
  obtain ⟨key, hKey, hParse⟩ := bind_eq_ok.mp hParse
  obtain ⟨offset, hOffset, hParse⟩ := bind_eq_ok.mp hParse
  obtain ⟨value, -, hParse⟩ := bind_eq_ok.mp hParse
  cases hParse
  exact ⟨⟨not_not.mp hLength, by rw [okOr_eq_ok.mp hKey]; rfl⟩, okOr_eq_ok.mp hOffset⟩

/-- BITFIELD validates all its offsets. SETBIT does exactly if its offset, once the parser
gets to it, is no number or lies within the longest string. -/
theorem bit_offsets_validated_iff (items : List Value) :
    Validated .bitField BitFieldReq.Unfit items ∧
    (Validated .setBit SetBitReq.Unfit items ↔
      (SetBitReq.Reached items → ∀ offset, (item items 2).parseU64 = some offset →
        offset / 8 + 1 ≤ maxBitFieldStringBytes)) := by
  have hRequest : RaftCommand.setBit.raftRequest items =
      (SetBitReq.parse items).map fun req => .base (.setBit req) := rfl
  have hRefuses : RaftCommand.setBit.raftRequest items = .error invalidBitOffset ↔
      SetBitReq.parse items = .error invalidBitOffset := by
    rw [hRequest]
    cases SetBitReq.parse items <;> simp [Except.map]
  refine ⟨validated_bitField items, ⟨fun hValid hReached offset hOffset => ?_, fun hFits => ?_⟩⟩
  · -- an offset that does not fit would have been refused as no number
    by_contra hLarge
    have hUnfit : SetBitReq.Unfit items := by
      refine ⟨hReached, ?_⟩
      rintro ⟨other, hOther, hLe⟩
      cases hOffset.symm.trans hOther
      exact hLarge hLe
    have hNone := ((SetBitReq.parse_eq_error_iff items).mp
        (hRefuses.mp (hValid.refuses.mpr hUnfit))).2
    rw [hOffset] at hNone
    cases hNone
  · constructor
    · rw [hRefuses, SetBitReq.parse_eq_error_iff]
      constructor
      · rintro ⟨hReached, hNone⟩
        exact ⟨hReached, by simp [hNone]⟩
      · rintro ⟨hReached, hUnfit⟩
        refine ⟨hReached, Option.eq_none_iff_forall_ne_some.mpr fun offset hOffset => ?_⟩
        exact hUnfit ⟨offset, hOffset, hFits hReached offset hOffset⟩
    · intro operation hOperation
      rw [hRequest] at hOperation
      cases hParse : SetBitReq.parse items with
      | error error => rw [hParse] at hOperation; cases hOperation
      | ok req =>
        rw [hParse] at hOperation
        cases hOperation
        obtain ⟨hReached, hOffset⟩ := SetBitReq.offset_of_parse hParse
        have hRequired := hFits hReached req.offset hOffset
        exact ⟨hRequired, Cache.keepsLimit_setBit hRequired⟩

/-- SETBIT k 4294967296 1. -/
theorem setBit_beyond_limit_accepted :
    ∃ items operation,
      items = [.null, .bulkString (some [107]), .bulkString (some (bytes "4294967296")),
        .bulkString (some [49])] ∧
      RaftCommand.setBit.raftRequest items = .ok operation ∧
      maxBitFieldStringBytes < operation.requiredLength ∧
      ¬ Validated .setBit SetBitReq.Unfit items := by
  have hRequest : RaftCommand.setBit.raftRequest [.null, .bulkString (some [107]),
      .bulkString (some (bytes "4294967296")), .bulkString (some [49])] =
        .ok (.base (.setBit ⟨[107], 4294967296, 1⟩)) := rfl
  have hLarge : maxBitFieldStringBytes <
      Operation.requiredLength (.base (.setBit ⟨[107], 4294967296, 1⟩)) := by decide
  refine ⟨_, _, rfl, hRequest, hLarge, fun hValid => ?_⟩
  exact absurd (hValid.accepts _ hRequest).1 (not_le.mpr hLarge)

end CacheCat
