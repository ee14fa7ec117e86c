import CacheCat.Command.Bitmaps

/-! Which offsets the parsers of SETBIT and BITFIELD accept, and how long the strings
become that they ask for. -/
namespace CacheCat

open Parsed

/-! ### The parser of BITFIELD -/

namespace BitFieldReq

/-- The offset that an item stands for, in numbers without a bound. -/
def fieldOffset (item : Value) (encoding : BitFieldEncoding) : Option Nat := do
  let data ← item.stringBytesClone
  if data.head? = some 35 then
    return (← (Text.fromUtf8 data.tail).bind Text.parseU64) * encoding.width
  else (Text.fromUtf8 data).bind Text.parseU64

/-- A field at this offset ends within the longest string. -/
def Fits (encoding : BitFieldEncoding) (offset : Nat) : Prop :=
  (offset + (encoding.width - 1)) / 8 + 1 ≤ maxBitFieldStringBytes

instance (encoding : BitFieldEncoding) (offset : Nat) : Decidable (Fits encoding offset) :=
  inferInstanceAs (Decidable (_ ≤ _))

variable {encoding : BitFieldEncoding} {overflow : BitFieldOverflow} {token : Value}
    {rest : List Value} {result : Option BitFieldSubCommand × BitFieldOverflow × Nat}

theorem Fits.endBit_lt {offset : Nat} (hFits : Fits encoding offset) :
    offset + (encoding.width - 1) < 2 ^ 64 := by
  unfold Fits maxBitFieldStringBytes at hFits
  omega

/-- The end of `parse_offset`. -/
theorem limit_eq (encoding : BitFieldEncoding) (offset : Nat) :
    (do
      let endBit ← okOr (checkedUsize (offset + (encoding.width - 1))) invalidBitOffset
      if maxBitFieldStringBytes < endBit / 8 + 1 then .error invalidBitOffset
      pure offset : Parsed Nat) =
    okOr ((some offset).filter fun offset => Fits encoding offset) invalidBitOffset := by
  by_cases hFits : Fits encoding offset
  · have hLimit : ¬ maxBitFieldStringBytes < (offset + (encoding.width - 1)) / 8 + 1 :=
      not_lt.mpr hFits
    have hChecked : checkedUsize (offset + (encoding.width - 1)) =
        some (offset + (encoding.width - 1)) := if_pos hFits.endBit_lt
    have hKept : (some offset).filter (fun offset => Fits encoding offset) = some offset := by
      simp [hFits]
    rw [hChecked, hKept]
    exact if_neg hLimit
  · have hLimit : maxBitFieldStringBytes < (offset + (encoding.width - 1)) / 8 + 1 :=
      not_le.mp hFits
    have hNone : (some offset).filter (fun offset => Fits encoding offset) = none := by
      simp [hFits]
    rw [hNone]
    unfold checkedUsize
    split
    · exact if_pos hLimit
    · rfl

/-- A product that does not fit an `u64` does not fit the longest string either. -/
theorem checked_eq (encoding : BitFieldEncoding) (offset : Nat) :
    (okOr (checkedUsize offset) invalidBitOffset >>= fun offset =>
      okOr ((some offset).filter fun offset => Fits encoding offset) invalidBitOffset) =
    okOr ((some offset).filter fun offset => Fits encoding offset) invalidBitOffset := by
  unfold checkedUsize
  split
  · rfl
  next hLarge =>
    have hFits : ¬ Fits encoding offset := fun hFits => hLarge (by have := hFits.endBit_lt; omega)
    simp [hFits, okOr, Option.filter_some]

/-- An offset is accepted exactly if its field ends within the longest string. -/
theorem parseOffset_eq (item : Value) (encoding : BitFieldEncoding) :
    parseOffset item encoding =
      okOr ((fieldOffset item encoding).filter fun offset => Fits encoding offset)
        invalidBitOffset := by
  unfold parseOffset fieldOffset
  simp only [limit_eq]
  cases item.stringBytesClone with
  | none => rfl
  | some data =>
    by_cases hHash : data.head? = some 35
    · cases hText : Text.fromUtf8 data.tail with
      | none => simp [hHash, hText, okOr, ok_bind]
      | some text =>
        cases hBase : Text.parseU64 text with
        | none => simp [hHash, hText, hBase, okOr, ok_bind]
        | some base =>
          have hChecked := checked_eq encoding (base * encoding.width)
          simpa [hHash, hText, hBase, okOr, ok_bind] using hChecked
    · cases hText : Text.fromUtf8 data with
      | none => simp [hHash, hText, okOr, ok_bind]
      | some text => cases hBase : Text.parseU64 text <;> simp [hHash, hText, hBase, okOr, ok_bind]

/-! ### One subcommand after the other -/

theorem parseOperations_skip (overflow : BitFieldOverflow) (skip : Nat) (items : List Value) :
    parseOperations overflow skip items = parseOperations overflow 0 (items.drop skip) := by
  induction items generalizing skip with
  | nil => cases skip <;> rfl
  | cons item items ih =>
    cases skip with
    | zero => rfl
    | succ skip => exact ih skip

/-- One round of the loop: the subcommand, if it is one on a field, the overflow mode after
it, and how many of the following items belong to it. -/
def parseSubCommand (overflow : BitFieldOverflow) (token : Value) (rest : List Value) :
    Parsed (Option BitFieldSubCommand × BitFieldOverflow × Nat) := do
  let field : Parsed (BitFieldEncoding × Nat) := do
    let encoding ← parseEncoding (rest.getD 0 .null)
    pure (encoding, ← parseOffset (rest.getD 1 .null) encoding)
  match ← parseUpperToken token with
  | "GET" =>
    if rest.length < 2 then .error .syntaxError
    let (encoding, offset) ← field
    pure (some (.get encoding offset), overflow, 2)
  | "SET" =>
    if rest.length < 3 then .error .syntaxError
    let (encoding, offset) ← field
    let value ← parseI64Argument (rest.getD 2 .null)
    pure (some (.set encoding offset value overflow), overflow, 3)
  | "INCRBY" =>
    if rest.length < 3 then .error .syntaxError
    let (encoding, offset) ← field
    let increment ← parseI64Argument (rest.getD 2 .null)
    pure (some (.incrBy encoding offset increment overflow), overflow, 3)
  | "OVERFLOW" =>
    if rest.length < 1 then .error .syntaxError
    let overflow ← parseOverflow (rest.getD 0 .null)
    pure (none, overflow, 1)
  | _ => .error .syntaxError

theorem parseOperations_cons (overflow : BitFieldOverflow) (token : Value) (rest : List Value) :
    parseOperations overflow 0 (token :: rest) = (do
      let (subCommand, overflow, used) ← parseSubCommand overflow token rest
      let others ← parseOperations overflow 0 (rest.drop used)
      pure (subCommand.toList ++ others)) := by
  rw [parseOperations, parseSubCommand]
  simp only [parseOperations_skip overflow 2, parseOperations_skip overflow 3,
    parseOperations_skip _ 1]
  cases parseUpperToken token with
  | error error => rfl
  | ok word =>
    simp only [ok_bind]
    generalize (parseEncoding (rest.getD 0 .null) >>= fun encoding =>
      parseOffset (rest.getD 1 .null) encoding >>= fun offset =>
        (pure (encoding, offset) : Parsed (BitFieldEncoding × Nat))) = field
    split
    case h_1 =>
      split
      · rfl
      · cases field <;> rfl
    case h_2 | h_3 =>
      split
      · rfl
      · cases field with
        | error error => rfl
        | ok field => cases parseI64Argument (rest.getD 2 .null) <;> rfl
    case h_4 =>
      split
      · rfl
      · cases parseOverflow (rest.getD 0 .null) with
        | error error => rfl
        | ok overflow => exact (bind_pure _).symm
    case h_5 => simp_all

/-- The token begins a subcommand on a field; the items after it give the encoding and
the offset of the field, and for a write the number. -/
inductive NamesField (token : Value) : List Value → BitFieldEncoding → Value → Prop
  | get {encodingItem offsetItem : Value} {rest : List Value} {encoding : BitFieldEncoding}
      (hToken : parseUpperToken token = .ok "GET")
      (hEncoding : parseEncoding encodingItem = .ok encoding) :
      NamesField token (encodingItem :: offsetItem :: rest) encoding offsetItem
  | set {encodingItem offsetItem valueItem : Value} {rest : List Value}
      {encoding : BitFieldEncoding} (hToken : parseUpperToken token = .ok "SET")
      (hEncoding : parseEncoding encodingItem = .ok encoding) :
      NamesField token (encodingItem :: offsetItem :: valueItem :: rest) encoding offsetItem
  | incrBy {encodingItem offsetItem valueItem : Value} {rest : List Value}
      {encoding : BitFieldEncoding} (hToken : parseUpperToken token = .ok "INCRBY")
      (hEncoding : parseEncoding encodingItem = .ok encoding) :
      NamesField token (encodingItem :: offsetItem :: valueItem :: rest) encoding offsetItem

/-! ### The complaint about an offset -/

/-- The parser complains of something else, if at all. -/
def Spares {A : Type} (parsed : Parsed A) : Prop := parsed ≠ .error invalidBitOffset

variable {A : Type} {error : ProtocolError}

theorem spares_okOr (value : Option A) (hError : error ≠ invalidBitOffset) :
    Spares (okOr value error) := by
  cases value with
  | none => exact fun h => hError (Except.error.inj h)
  | some a => exact nofun

theorem bind_eq_error {B : Type} {parsed : Parsed A} {rest : A → Parsed B} :
    parsed >>= rest = .error error ↔ parsed = .error error ∨ ∃ a, parsed = .ok a ∧
      rest a = .error error := by
  cases parsed <;> simp [ok_bind]

section

variable {A B : Type} {parsed : Parsed A} {rest : A → Parsed B}

theorem spares_bind (hParsed : Spares parsed) (hRest : ∀ a, Spares (rest a)) :
    Spares (parsed >>= rest) :=
  fun h => (bind_eq_error.mp h).elim hParsed fun ⟨a, _, hSecond⟩ => hRest a hSecond

theorem complains_first (hComplains : parsed >>= rest = .error invalidBitOffset)
    (hRest : ∀ a, Spares (rest a)) : parsed = .error invalidBitOffset :=
  (bind_eq_error.mp hComplains).resolve_right fun ⟨a, _, hSecond⟩ => hRest a hSecond

end

theorem spares_parseUpperToken (item : Value) : Spares (parseUpperToken item) :=
  spares_bind (spares_okOr _ nofun) fun _ => spares_bind (spares_okOr _ nofun) fun _ => nofun

theorem spares_parseI64Argument (item : Value) : Spares (parseI64Argument item) :=
  spares_okOr _ nofun

theorem invalidType_ne : invalidType ≠ invalidBitOffset := by
  decide +kernel

theorem spares_error (hError : error ≠ invalidBitOffset) : Spares (.error error : Parsed A) :=
  fun h => hError (Except.error.inj h)

theorem spares_ite {c : Prop} [Decidable c] {parsed other : Parsed A} (hParsed : Spares parsed)
    (hOther : Spares other) : Spares (if c then parsed else other) := by
  split
  · exact hParsed
  · exact hOther

theorem spares_parseEncoding (item : Value) : Spares (parseEncoding item) := by
  refine spares_bind (spares_okOr _ invalidType_ne) fun data => ?_
  split
  next kind width rest =>
    refine spares_ite (spares_error invalidType_ne) ?_
    refine spares_bind (spares_okOr _ invalidType_ne) fun text => ?_
    refine spares_bind (spares_okOr _ invalidType_ne) fun bits => ?_
    exact spares_ite (spares_error invalidType_ne) nofun
  · exact spares_error invalidType_ne

theorem spares_parseOverflow (item : Value) : Spares (parseOverflow item) := by
  refine spares_bind (spares_parseUpperToken item) fun word => ?_
  split
  case h_4 => exact spares_error (by decide +kernel)
  all_goals exact nofun

/-- The item is the offset of a field within the longest string. -/
def FieldFits (item : Value) (encoding : BitFieldEncoding) : Prop :=
  ∃ offset, fieldOffset item encoding = some offset ∧ Fits encoding offset

theorem parseOffset_eq_ok_iff {item : Value} {offset : Nat} :
    parseOffset item encoding = .ok offset ↔
      fieldOffset item encoding = some offset ∧ Fits encoding offset := by
  rw [parseOffset_eq, okOr_eq_ok, Option.filter_eq_some_iff, decide_eq_true_iff]

theorem parseOffset_eq_error_iff {item : Value} :
    parseOffset item encoding = .error invalidBitOffset ↔ ¬ FieldFits item encoding := by
  rw [parseOffset_eq]
  cases hOffset : (fieldOffset item encoding).filter fun offset => Fits encoding offset with
  | none =>
    refine iff_of_true rfl ?_
    rintro ⟨offset, hField, hFits⟩
    simp [hField, hFits, Option.filter_some] at hOffset
  | some offset =>
    rw [Option.filter_eq_some_iff, decide_eq_true_iff] at hOffset
    exact iff_of_false nofun fun h => h ⟨offset, hOffset⟩

theorem exists_of_field_eq_error {encodingItem offsetItem : Value}
    (hField : (do
      let encoding ← parseEncoding encodingItem
      pure (encoding, ← parseOffset offsetItem encoding) : Parsed (BitFieldEncoding × Nat)) =
        .error invalidBitOffset) :
    ∃ encoding, parseEncoding encodingItem = .ok encoding ∧ ¬ FieldFits offsetItem encoding := by
  obtain ⟨encoding, hEncoding, hOffset⟩ :=
    (bind_eq_error.mp hField).resolve_left (spares_parseEncoding encodingItem)
  exact ⟨encoding, hEncoding, parseOffset_eq_error_iff.mp (complains_first hOffset fun _ => nofun)⟩

/-- A subcommand is refused for its offset exactly if it names a field that does not fit. -/
theorem parseSubCommand_eq_error_iff :
    parseSubCommand overflow token rest = .error invalidBitOffset ↔
      ∃ encoding item, NamesField token rest encoding item ∧ ¬ FieldFits item encoding := by
  constructor
  · intro hParse
    obtain ⟨word, hToken, hParse⟩ :=
      (bind_eq_error.mp hParse).resolve_left (spares_parseUpperToken token)
    split at hParse
    case h_1 =>
      match rest with
      | [] | [_] => cases hParse
      | encodingItem :: offsetItem :: rest =>
        obtain ⟨encoding, hEncoding, hField⟩ :=
          exists_of_field_eq_error (complains_first hParse fun _ => nofun)
        exact ⟨encoding, offsetItem, .get hToken hEncoding, hField⟩
    case h_2 | h_3 =>
      match rest with
      | [] | [_] | [_, _] => cases hParse
      | encodingItem :: offsetItem :: valueItem :: rest =>
        obtain ⟨encoding, hEncoding, hField⟩ := exists_of_field_eq_error
          (complains_first hParse fun _ => spares_bind (spares_parseI64Argument _) fun _ => nofun)
        refine ⟨encoding, offsetItem, ?_, hField⟩
        first | exact .set hToken hEncoding | exact .incrBy hToken hEncoding
    case h_4 =>
      exact absurd hParse (spares_ite nofun (spares_bind (spares_parseOverflow _) fun _ => nofun))
    case h_5 => cases hParse
  · rintro ⟨encoding, item, hNames, hFits⟩
    have hOffset := parseOffset_eq_error_iff.mpr hFits
    cases hNames with
    | get hToken hEncoding | set hToken hEncoding | incrBy hToken hEncoding =>
      simp [parseSubCommand, hToken, hEncoding, hOffset, ok_bind]

/-- The field of the subcommand ends within the longest string. -/
def InLimit (subCommand : BitFieldSubCommand) : Prop :=
  ∃ endBit, subCommand.endBit = some endBit ∧ endBit / 8 + 1 ≤ maxBitFieldStringBytes

/-- An accepted subcommand keeps to the limit, and what follows its items does not matter
to it. -/
theorem parseSubCommand_eq_ok (hParse : parseSubCommand overflow token rest = .ok result) :
    (∀ subCommand, result.1 = some subCommand → InLimit subCommand) ∧ result.2.2 ≤ rest.length ∧
      ∀ more, parseSubCommand overflow token (rest.take result.2.2 ++ more) = .ok result := by
  have hEnd {item : Value} {encoding : BitFieldEncoding} {offset : Nat}
      (hOffset : parseOffset item encoding = .ok offset) :
      ∃ endBit, checkedUsize (offset + (encoding.width - 1)) = some endBit ∧
        endBit / 8 + 1 ≤ maxBitFieldStringBytes :=
    have hFits := (parseOffset_eq_ok_iff.mp hOffset).2
    ⟨_, if_pos hFits.endBit_lt, hFits⟩
  rw [parseSubCommand, bind_eq_ok] at hParse
  obtain ⟨word, hToken, hParse⟩ := hParse
  split at hParse
  case h_1 =>
    match rest with
    | [] | [_] => cases hParse
    | encodingItem :: offsetItem :: rest =>
      obtain ⟨⟨encoding, offset⟩, hField, hResult⟩ := bind_eq_ok.mp hParse
      obtain ⟨_, (hEncoding : parseEncoding encodingItem = _), hField⟩ := bind_eq_ok.mp hField
      obtain ⟨_, (hOffset : parseOffset offsetItem _ = _), hField⟩ := bind_eq_ok.mp hField
      cases hField
      cases hResult
      refine ⟨?_, by simp, by simp [parseSubCommand, hToken, hEncoding, hOffset, ok_bind]⟩
      rintro _ ⟨⟩
      exact hEnd hOffset
  case h_2 | h_3 =>
    match rest with
    | [] | [_] | [_, _] => cases hParse
    | encodingItem :: offsetItem :: valueItem :: rest =>
      obtain ⟨⟨encoding, offset⟩, hField, hResult⟩ := bind_eq_ok.mp hParse
      obtain ⟨_, (hEncoding : parseEncoding encodingItem = _), hField⟩ := bind_eq_ok.mp hField
      obtain ⟨_, (hOffset : parseOffset offsetItem _ = _), hField⟩ := bind_eq_ok.mp hField
      obtain ⟨value, (hValue : parseI64Argument valueItem = _), hResult⟩ := bind_eq_ok.mp hResult
      cases hField
      cases hResult
      refine ⟨?_, by simp, by simp [parseSubCommand, hToken, hEncoding, hOffset, hValue, ok_bind]⟩
      rintro _ ⟨⟩
      exact hEnd hOffset
  case h_4 =>
    match rest with
    | [] => cases hParse
    | item :: rest =>
      obtain ⟨next, (hNext : parseOverflow item = _), hResult⟩ := bind_eq_ok.mp hParse
      cases hResult
      exact ⟨nofun, by simp, by simp [parseSubCommand, hToken, hNext, ok_bind]⟩
  case h_5 => cases hParse

/-- After subcommands that are accepted comes one that names a field beyond the longest
string. -/
def NamesUnfit (overflow : BitFieldOverflow) (items : List Value) : Prop :=
  ∃ earlier token rest operations encoding item, items = earlier ++ token :: rest ∧
    parseOperations overflow 0 earlier = .ok operations ∧
    NamesField token rest encoding item ∧ ¬ FieldFits item encoding

/-- A list is accepted if its first subcommand and the rest are. -/
theorem parseOperations_cons_eq_ok_iff {operations : List BitFieldSubCommand} :
    parseOperations overflow 0 (token :: rest) = .ok operations ↔
      ∃ result others, parseSubCommand overflow token rest = .ok result ∧
        parseOperations result.2.1 0 (rest.drop result.2.2) = .ok others ∧
        operations = result.1.toList ++ others := by
  simp only [parseOperations_cons, bind_eq_ok]
  constructor
  · rintro ⟨result, hFirst, others, hOthers, hAll⟩
    cases hAll
    exact ⟨result, others, hFirst, hOthers, rfl⟩
  · rintro ⟨result, others, hFirst, hOthers, rfl⟩
    exact ⟨result, hFirst, others, hOthers, rfl⟩

theorem parseOperations_cons_eq_error_iff :
    parseOperations overflow 0 (token :: rest) = .error invalidBitOffset ↔
      parseSubCommand overflow token rest = .error invalidBitOffset ∨
        ∃ result, parseSubCommand overflow token rest = .ok result ∧
          parseOperations result.2.1 0 (rest.drop result.2.2) = .error invalidBitOffset := by
  simp only [parseOperations_cons, bind_eq_error]
  refine or_congr Iff.rfl (exists_congr fun result => and_congr_right fun _ => or_iff_left ?_)
  rintro ⟨_, _, ⟨⟩⟩

theorem namesUnfit_cons_iff :
    NamesUnfit overflow (token :: rest) ↔
      (∃ encoding item, NamesField token rest encoding item ∧ ¬ FieldFits item encoding) ∨
        ∃ result, parseSubCommand overflow token rest = .ok result ∧
          NamesUnfit result.2.1 (rest.drop result.2.2) := by
  constructor
  · rintro ⟨earlier, named, after, operations, encoding, item, hItems, hEarlier, hNames, hFits⟩
    cases earlier with
    | nil =>
      cases hItems
      exact .inl ⟨encoding, item, hNames, hFits⟩
    | cons first earlier =>
      obtain ⟨rfl, rfl⟩ := List.cons.inj hItems
      obtain ⟨result, others, hAccepts, hOthers, -⟩ := parseOperations_cons_eq_ok_iff.mp hEarlier
      obtain ⟨-, hUsed, hAppend⟩ := parseSubCommand_eq_ok hAccepts
      have hFirst := hAppend (earlier.drop result.2.2 ++ named :: after)
      rw [← List.append_assoc, List.take_append_drop] at hFirst
      refine .inr ⟨result, hFirst, earlier.drop result.2.2, named, after, others, encoding, item,
        ?_, hOthers, hNames, hFits⟩
      exact List.drop_append_of_le_length hUsed
  · rintro (⟨encoding, item, hNames, hFits⟩ | ⟨result, hAccepts, hLater⟩)
    · exact ⟨[], token, rest, [], encoding, item, rfl, rfl, hNames, hFits⟩
    · obtain ⟨earlier, named, after, others, encoding, item, hItems, hOthers, hNames, hFits⟩ :=
        hLater
      obtain ⟨-, hUsed, hAppend⟩ := parseSubCommand_eq_ok hAccepts
      refine ⟨token :: (rest.take result.2.2 ++ earlier), named, after, result.1.toList ++ others,
        encoding, item, ?_, ?_, hNames, hFits⟩
      · rw [List.cons_append, List.append_assoc, ← hItems, List.take_append_drop]
      · refine parseOperations_cons_eq_ok_iff.mpr ⟨result, others, hAppend earlier, ?_, rfl⟩
        rw [List.drop_append_of_le_length (by simp [hUsed])]
        simpa using hOthers

/-- The complaint about an offset is made exactly if a field does not fit. -/
theorem parseOperations_eq_error_iff (overflow : BitFieldOverflow) (items : List Value) :
    parseOperations overflow 0 items = .error invalidBitOffset ↔ NamesUnfit overflow items := by
  -- both sides go through the list subcommand by subcommand
  induction hLength : items.length using Nat.strong_induction_on generalizing overflow items with
  | _ length ih =>
    cases items with
    | nil =>
      refine iff_of_false nofun ?_
      rintro ⟨earlier, token, rest, _, _, _, hItems, _⟩
      simp at hItems
    | cons token rest =>
      rw [parseOperations_cons_eq_error_iff, namesUnfit_cons_iff, parseSubCommand_eq_error_iff]
      refine or_congr Iff.rfl (exists_congr fun result => and_congr_right fun _ => ?_)
      have hShorter : (rest.drop result.2.2).length < length := by
        rw [← hLength, List.length_drop, List.length_cons]
        omega
      exact ih _ hShorter _ _ rfl

theorem parse_eq_error_iff (items : List Value) :
    parse items = .error invalidBitOffset ↔
      2 ≤ items.length ∧ (item items 1).stringBytesClone.isSome ∧
        NamesUnfit .wrap (items.drop 2) := by
  rw [← parseOperations_eq_error_iff, parse]
  by_cases hLength : items.length < 2
  · simp [hLength, not_le.mpr hLength, invalidBitOffset]
  · cases hKey : (item items 1).stringBytesClone with
    | none => simp [hLength, hKey, argument, okOr, invalidBitOffset]
    | some key =>
      cases parseOperations .wrap 0 (items.drop 2) <;>
        simp [hLength, not_lt.mp hLength, hKey, argument, okOr, ok_bind]

/-! ### How long the string becomes -/

/-- Every accepted subcommand keeps to the limit. -/
theorem inLimit_of_parseOperations {items : List Value} {operations : List BitFieldSubCommand}
    (hParse : parseOperations overflow 0 items = .ok operations) :
    ∀ subCommand ∈ operations, InLimit subCommand := by
  induction hLength : items.length using Nat.strong_induction_on generalizing overflow items
    operations with
  | _ length ih =>
    cases items with
    | nil =>
      cases hParse
      exact nofun
    | cons token rest =>
      obtain ⟨result, others, hAccepts, hOthers, rfl⟩ := parseOperations_cons_eq_ok_iff.mp hParse
      have hShorter : (rest.drop result.2.2).length < length := by
        rw [← hLength, List.length_drop, List.length_cons]
        omega
      intro subCommand hMem
      rcases List.mem_append.mp hMem with hFirst | hLater
      · exact (parseSubCommand_eq_ok hAccepts).1 subCommand (Option.mem_toList.mp hFirst)
      · exact ih _ hShorter hOthers rfl subCommand hLater

theorem inLimit_of_parse {items : List Value} {req : BitFieldReq} (hParse : parse items = .ok req) :
    ∀ subCommand ∈ req.operations, InLimit subCommand := by
  unfold parse at hParse
  by_cases hLength : items.length < 2
  · rw [if_pos hLength] at hParse
    cases hParse
  rw [if_neg hLength] at hParse
  obtain ⟨key, -, hParse⟩ := bind_eq_ok.mp hParse
  obtain ⟨operations, hOperations, hParse⟩ := bind_eq_ok.mp hParse
  cases hParse
  exact inLimit_of_parseOperations hOperations

end BitFieldReq

theorem length_growTo (data : Bytes) (length : Nat) :
    (growTo data length).length = max data.length length := by
  simp [growTo]
  omega

theorem length_setBitAt (data : Bytes) (offset bit : Nat) :
    (setBitAt data offset bit).length = data.length :=
  List.length_modify ..

theorem length_writeBitField (data : Bytes) (encoding : BitFieldEncoding) (offset : Nat)
    (value : Int) : (writeBitField data encoding offset value).length = data.length := by
  unfold writeBitField
  generalize List.range encoding.width = positions
  induction positions generalizing data with
  | nil => rfl
  | cons i positions ih => rw [List.foldl_cons, ih, length_setBitAt]

namespace BitFieldReq

theorem length_executeOperation (data : Bytes) (subCommand : BitFieldSubCommand) :
    (executeOperation data subCommand).1.length = data.length := by
  have hWrite (encoding : BitFieldEncoding) (offset : Nat) (normalized : Option Int)
      (reply : Int → Int) :
      (writeNormalized data encoding offset normalized reply).1.length = data.length := by
    cases normalized with
    | none => rfl
    | some value => exact length_writeBitField ..
  cases subCommand with
  | get => rfl
  | set | incrBy => exact hWrite ..

theorem length_executeLoop (data : Bytes) (operations : List BitFieldSubCommand) :
    (executeLoop data operations).1.length = data.length := by
  induction operations generalizing data with
  | nil => rfl
  | cons operation operations ih => exact (ih _).trans (length_executeOperation data operation)

/-- The length that the writes of the request need. -/
def requiredLength (req : BitFieldReq) : Nat := req.highestWriteEndBit.elim 0 (· / 8 + 1)

theorem length_executeOperations (req : BitFieldReq) (data : Bytes) :
    (req.executeOperations data).1.length = max data.length req.requiredLength := by
  rw [executeOperations, length_executeLoop, prepareWriteBuffer, requiredLength]
  cases req.highestWriteEndBit with
  | none => simp
  | some endBit => exact length_growTo ..

theorem requiredLength_le {req : BitFieldReq}
    (hLimit : ∀ operation ∈ req.operations, InLimit operation) :
    req.requiredLength ≤ maxBitFieldStringBytes := by
  unfold requiredLength
  cases hHighest : req.highestWriteEndBit with
  | none => exact Nat.zero_le _
  | some endBit =>
    have hMem := List.max?_mem hHighest
    simp only [List.mem_filterMap, List.mem_filter] at hMem
    obtain ⟨operation, ⟨hOperation, -⟩, hEnd⟩ := hMem
    obtain ⟨last, hLast, hLe⟩ := hLimit operation hOperation
    cases hEnd.symm.trans hLast
    exact hLe

end BitFieldReq

theorem SetBitReq.length_write (req : SetBitReq) (data : Bytes) :
    (req.write data).length = max data.length (req.offset / 8 + 1) := by
  rw [write, length_setBitAt, length_growTo]

end CacheCat
