import CacheCat.Data.TextLaws
import CacheCat.Protocol.Encode
import CacheCat.Protocol.ParserSound

/-! The frames of RESP2 and RESP3, as a relation between bytes and the value they stand
for, and the decoder's side of it: every frame is read as its value, whatever follows. -/
namespace CacheCat.Protocol

open Value (putLine)
open CacheCat.Protocol.Parser
    (lossy doubleOfText findLine readLine readI64 readBlob parseMeta parseMode)

/-! ### The grammar -/

/-- Nothing in the bytes ends the line early for the decoder, which looks for the pair. -/
def OneLine (line : Bytes) : Prop := ¬ crlf <:+: line

instance (line : Bytes) : Decidable (OneLine line) := inferInstanceAs (Decidable (¬ _))

structure IsDigits (text : List Char) (n : Nat) : Prop where
  nonempty : text ≠ []
  digits : ∀ c ∈ text, c.isDigit = true
  value : Nat.ofDigitChars 10 text 0 = n

/-- The text of a length or of a count. -/
structure IsLength (text : String) (n : Nat) : Prop where
  digits : IsDigits text.toList n
  fits : (n : Int) ≤ Text.i64Max

/-- The text of a signed 64-bit number. -/
inductive IsInteger : String → Int → Prop
  | unsigned {text : List Char} {n : Nat} (hDigits : IsDigits text n)
      (hFits : (n : Int) ≤ Text.i64Max) : IsInteger (String.ofList text) n
  | plus {text : List Char} {n : Nat} (hDigits : IsDigits text n)
      (hFits : (n : Int) ≤ Text.i64Max) : IsInteger (String.ofList ('+' :: text)) n
  | minus {text : List Char} {n : Nat} (hDigits : IsDigits text n)
      (hFits : Text.i64Min ≤ -(n : Int)) : IsInteger (String.ofList ('-' :: text)) (-n)

/-- The text of a number of any size. -/
inductive IsBigNumber : String → Prop
  | unsigned {text : List Char} {n : Nat} (hDigits : IsDigits text n) :
    IsBigNumber (String.ofList text)
  | plus {text : List Char} {n : Nat} (hDigits : IsDigits text n) :
      IsBigNumber (String.ofList ('+' :: text))
  | minus {text : List Char} {n : Nat} (hDigits : IsDigits text n) :
      IsBigNumber (String.ofList ('-' :: text))

/-- A point and the digits after it, or neither. -/
inductive IsFraction : List Char → List Char → Prop
  | none : IsFraction [] []
  | digits {text : List Char} {n : Nat} (hDigits : IsDigits text n) : IsFraction ('.' :: text) text

inductive IsExponent : List Char → Int → Prop
  | none : IsExponent [] 0
  | unsigned {mark : Char} {text : List Char} {n : Nat} (hMark : mark = 'e' ∨ mark = 'E')
      (hDigits : IsDigits text n) : IsExponent (mark :: text) n
  | plus {mark : Char} {text : List Char} {n : Nat} (hMark : mark = 'e' ∨ mark = 'E')
      (hDigits : IsDigits text n) : IsExponent (mark :: '+' :: text) n
  | minus {mark : Char} {text : List Char} {n : Nat} (hMark : mark = 'e' ∨ mark = 'E')
      (hDigits : IsDigits text n) : IsExponent (mark :: '-' :: text) (-n)

/-- Digits, a fraction and an exponent: the number they denote, rounded. -/
inductive IsDecimal : List Char → Float → Prop
  | mk {whole fraction places exponent : List Char} {n mantissa : Nat} {e : Int}
      (hWhole : IsDigits whole n) (hFraction : IsFraction fraction places)
      (hMantissa : IsDigits (whole ++ places) mantissa) (hExponent : IsExponent exponent e) :
      IsDecimal (whole ++ (fraction ++ exponent))
        (Float.ofScientific mantissa (e - places.length < 0) (e - places.length).natAbs)

/-- The text of a double. -/
inductive IsDouble : String → Float → Prop
  | unsigned {text : List Char} {d : Float} (h : IsDecimal text d) : IsDouble (String.ofList text) d
  | plus {text : List Char} {d : Float} (h : IsDecimal text d) :
    IsDouble (String.ofList ('+' :: text)) d
  | minus {text : List Char} {d : Float} (h : IsDecimal text d) :
      IsDouble (String.ofList ('-' :: text)) (-d)
  | infinity : IsDouble "inf" Text.infinity
  | minusInfinity : IsDouble "-inf" (-Text.infinity)
  | nan : IsDouble "nan" Text.nan

/-- Where RESP and the decoder disagree about one line: what may stand in a status or an
error, and which texts are doubles. -/
structure Grammar where
  line : Bytes → Prop
  double : String → Float → Prop

/-- RESP: neither a carriage return nor a line feed in a line. -/
def Grammar.resp : Grammar := ⟨fun line => (13 : UInt8) ∉ line ∧ (10 : UInt8) ∉ line, IsDouble⟩

/-- What the decoder reads: lines up to the first CRLF, and every text that Rust reads as a
float. -/
def Grammar.read : Grammar := ⟨OneLine, fun text d => doubleOfText text.toList = some d⟩

/-- A header with a length, the payload, and the CRLF after it. -/
inductive Blob (mode : Char) : Bytes → Bytes → Prop
  | mk (length : String) {data : Bytes} (hLength : IsLength length data.length) :
      Blob mode (putLine mode (bytes length) ++ (data ++ crlf)) data

/-- Keys and values in the order they are sent in. -/
def flattenPairs (pairs : List (Value × Value)) : List Value :=
  pairs.flatMap fun pair => [pair.1, pair.2]

section

variable (grammar : Grammar)

mutual

/-- The frames of RESP2 and RESP3 and the values they stand for. -/
inductive Frame : Bytes → Value → Prop
  | simpleString {line : Bytes} (hLine : grammar.line line) :
      Frame (putLine '+' line) (.simpleString (lossy line))
  | error {line : Bytes} (hLine : grammar.line line) :
    Frame (putLine '-' line) (.error (lossy line))
  | integer {text : String} {n : Int} (hText : IsInteger text n) :
      Frame (putLine ':' (bytes text)) (.integer n)
  | bulkString {frame data : Bytes} (hBlob : Blob '$' frame data) :
    Frame frame (.bulkString (some data))
  | nullBulkString : Frame (putLine '$' (bytes "-1")) (.bulkString none)
  | nullArray : Frame (putLine '*' (bytes "-1")) (.array none)
  | null : Frame (putLine '_' []) .null
  | boolean (value : Bool) : Frame (putLine '#' (bytes (if value then "t" else "f")))
    (.boolean value)
  | double {text : String} {d : Float} (hText : grammar.double text d) :
      Frame (putLine ',' (bytes text)) (.double d)
  | bigNumber {text : String} (hText : IsBigNumber text) :
      Frame (putLine '(' (bytes text)) (.bigNumber text)
  | bulkError {frame data : Bytes} (hBlob : Blob '!' frame data) :
    Frame frame (.bulkError (lossy data))
  | verbatimString {frame format data : Bytes} (hFormat : format.length = 3)
      (hBlob : Blob '=' frame (format ++ bytes ":" ++ data)) :
      Frame frame (.verbatimString (lossy format) data)
  | array {count : String} {body : Bytes} {items : List Value}
      (hCount : IsLength count items.length) (hItems : Frames body items) :
      Frame (putLine '*' (bytes count) ++ body) (.array (some items))
  | set {count : String} {body : Bytes} {items : List Value}
      (hCount : IsLength count items.length) (hItems : Frames body items) :
      Frame (putLine '~' (bytes count) ++ body) (.set items)
  | push {count : String} {body : Bytes} {items : List Value}
      (hCount : IsLength count items.length) (hItems : Frames body items) :
      Frame (putLine '>' (bytes count) ++ body) (.push items)
  | map {count : String} {body : Bytes} {pairs : List (Value × Value)}
      (hCount : IsLength count pairs.length) (hItems : Frames body (flattenPairs pairs)) :
      Frame (putLine '%' (bytes count) ++ body) (.map pairs)
  | attribute {count : String} {body inner : Bytes} {attributes : List (Value × Value)}
      {value : Value} (hCount : IsLength count attributes.length)
      (hAttributes : Frames body (flattenPairs attributes)) (hInner : Frame inner value) :
        Frame (putLine '|' (bytes count) ++ (body ++ inner)) value

/-- Frames one after the other. -/
inductive Frames : Bytes → List Value → Prop
  | nil : Frames [] []
  | cons {frame body : Bytes} {value : Value} {values : List Value} (hFrame : Frame frame value)
      (hRest : Frames body values) : Frames (frame ++ body) (value :: values)

end

end

/-! ### Lines -/

variable {line frame body : Bytes} {text : String} {n : Nat} {mode : Char} {value : Value}

theorem findLine_line (hLine : OneLine line) (rest : Bytes) :
    findLine (line ++ (crlf ++ rest)) = some line.length := by
  induction line with
  | nil => rfl
  | cons a line ih =>
    have hTail : OneLine line :=
      fun hInfix => hLine (hInfix.trans (List.infix_cons (List.infix_refl _)))
    have hRest := ih hTail
    cases line with
    | nil =>
      have hNotEnd : ¬ (a = 13 ∧ (13 : UInt8) = 10) := by simp
      rw [List.singleton_append, crlf, List.cons_append, findLine, if_neg hNotEnd]
      exact congrArg (Option.map (· + 1)) hRest
    | cons b line =>
      have hNotEnd : ¬ (a = 13 ∧ b = 10) := by
        rintro ⟨rfl, rfl⟩
        exact hLine ⟨[], line, rfl⟩
      rw [List.cons_append, List.cons_append, findLine, if_neg hNotEnd]
      exact congrArg (Option.map (· + 1)) hRest

theorem readLine_putLine (hLine : OneLine line) (mode : Char) (rest : Bytes) :
    readLine (putLine mode line ++ rest) = some (line, line.length + 3) := by
  rw [readLine, putLine, List.cons_append, List.tail_cons, List.append_assoc, findLine_line hLine]
  simp

theorem length_putLine (mode : Char) (line : Bytes) :
    (putLine mode line).length = line.length + 3 := by
  simp [putLine, crlf]

theorem oneLine_of_not_mem (hReturn : (13 : UInt8) ∉ line) : OneLine line :=
  fun hInfix => hReturn (hInfix.subset (by simp [crlf]))

/-- A text without a carriage return. -/
theorem oneLine_bytes (hText : '\r' ∉ text.toList) : OneLine (bytes text) := by
  refine oneLine_of_not_mem fun hMem => hText ?_
  obtain ⟨c, hChar, hCode⟩ := Text.mem_of_mem_bytes hMem (by decide)
  have hReturn : c = '\r' := Char.ext (UInt32.toNat_inj.mp hCode)
  rwa [hReturn] at hChar

theorem readI64_putLine {n : Int} (hLine : OneLine (bytes text))
    (hParse : Text.parseI64 text.toList = some n) (mode : Char) (rest : Bytes) :
    readI64 (putLine mode (bytes text) ++ rest) = some (n, (bytes text).length + 3) := by
  rw [readI64, readLine_putLine hLine]
  simp [Text.fromUtf8_bytes, hParse]

theorem IsDigits.digits_eq {text : List Char} (hDigits : IsDigits text n) :
    Text.digits text = some n := by
  rw [Text.digits_eq hDigits.nonempty hDigits.digits, hDigits.value]

theorem IsDigits.not_mem_return {text : List Char} (hDigits : IsDigits text n) :
    '\r' ∉ text :=
  fun hMem => absurd (hDigits.digits _ hMem) (by decide)

theorem IsInteger.parseI64 {n : Int} (hText : IsInteger text n) :
    Text.parseI64 text.toList = some n := by
  cases hText with
  | unsigned hDigits hFits =>
    rw [String.toList_ofList]
    exact Text.parseI64_of_digits hDigits.digits hDigits.digits_eq hFits
  | plus hDigits hFits =>
    rw [String.toList_ofList]
    exact Text.parseI64_plus hDigits.digits_eq hFits
  | minus hDigits hFits =>
    rw [String.toList_ofList]
    exact Text.parseI64_minus hDigits.digits_eq hFits

theorem IsInteger.oneLine {n : Int} (hText : IsInteger text n) :
    OneLine (bytes text) := by
  apply oneLine_bytes
  cases hText with
  | unsigned hDigits _ | plus hDigits _ | minus hDigits _ => simpa using hDigits.not_mem_return

theorem IsLength.isInteger (hText : IsLength text n) :
    IsInteger text n := by
  have hInteger := IsInteger.unsigned hText.digits hText.fits
  rwa [String.ofList_toList] at hInteger

theorem IsBigNumber.oneLine (hText : IsBigNumber text) : OneLine (bytes text) := by
  apply oneLine_bytes
  cases hText with
  | unsigned hDigits | plus hDigits | minus hDigits => simpa using hDigits.not_mem_return

variable {d : Float}

theorem oneLine_of_doubleOfText (hText : doubleOfText text.toList = some d) :
    OneLine (bytes text) := by
  apply oneLine_bytes
  have hWord {word : String} (hPlain : '\r' ∉ word.toList)
      (hEq : String.ofList text.toList = word) : '\r' ∉ text.toList := by
    rwa [← hEq, String.ofList_toList] at hPlain
  unfold doubleOfText at hText
  split at hText
  next hEq => exact hWord (by decide) hEq
  next hEq => exact hWord (by decide) hEq
  next hEq => exact hWord (by decide) hEq
  next hEq => exact hWord (by decide) hEq
  next hEq => exact hWord (by decide) hEq
  · exact Text.return_not_mem_of_parseF64 hText

/-! ### Doubles -/

theorem IsDigits.sign_ne {text : List Char} {n : Nat} (hDigits : IsDigits text n) {c : Char}
    (hc : c.isDigit = false) (rest : List Char) : text ≠ c :: rest := by
  rintro rfl
  rw [hDigits.digits c List.mem_cons_self] at hc
  cases hc

theorem IsDigits.takeWhile {digits : List Char} {n : Nat} (hDigits : IsDigits digits n)
    (rest : List Char) (hRest : ∀ c ∈ rest.head?, c.isDigit = false) :
    (digits ++ rest).takeWhile Char.isDigit = digits ∧
      (digits ++ rest).dropWhile Char.isDigit = rest := by
  rw [List.takeWhile_append_of_pos hDigits.digits, List.dropWhile_append_of_pos hDigits.digits]
  cases rest with
  | nil => simp
  | cons c rest => simp [hRest c rfl]

theorem IsExponent.parseExponent {text : List Char} {e : Int} (h : IsExponent text e) :
    Text.parseExponent text = some e := by
  cases h with
  | none => rfl
  | unsigned hMark hDigits =>
    rw [Text.parseExponent, if_pos (by simpa using hMark), hDigits.digits_eq]
    · rfl
    · exact fun rest => hDigits.sign_ne (by decide) rest
    · exact fun rest => hDigits.sign_ne (by decide) rest
  | plus hMark hDigits | minus hMark hDigits =>
    rw [Text.parseExponent, if_pos (by simpa using hMark)]
    simp [hDigits.digits_eq]

theorem IsExponent.head?_eq {text : List Char} {e : Int} (h : IsExponent text e) :
    ∀ c ∈ text.head?, c.isDigit = false ∧ c ≠ '.' := by
  cases h with
  | none => simp
  | unsigned hMark | plus hMark | minus hMark => rcases hMark with rfl | rfl <;> simp

theorem IsDecimal.parseDecimal {text : List Char} (h : IsDecimal text d) :
    Text.parseDecimal text = some d := by
  obtain ⟨hWhole, hFraction, hMantissa, hExponent⟩ := h
  have hNext := hExponent.head?_eq
  have hParse := hExponent.parseExponent
  unfold Text.parseDecimal
  cases hFraction with
  | none =>
    obtain ⟨hTake, hDrop⟩ := hWhole.takeWhile _ fun c hc => (hNext c hc).1
    have hPoint : ¬ _ = some '.' := fun hPoint => (hNext '.' hPoint).2 rfl
    have hDigits := hMantissa.digits_eq
    rw [List.append_nil] at hDigits
    rw [List.nil_append, hTake, hDrop]
    simp [hPoint, hDigits, hParse]
  | digits hPlaces =>
    obtain ⟨hTake, hDrop⟩ := hPlaces.takeWhile _ fun c hc => (hNext c hc).1
    obtain ⟨hTake', hDrop'⟩ := hWhole.takeWhile ('.' :: _ ++ _) (by simp)
    rw [hTake', hDrop']
    simp [hTake, hDrop, hMantissa.digits_eq, hParse]

theorem IsDecimal.head_digit {text : List Char} (h : IsDecimal text d) :
    ∃ c rest, text = c :: rest ∧ c.isDigit = true := by
  obtain ⟨hWhole, -, -, -⟩ := h
  obtain ⟨c, whole, rfl⟩ := List.exists_cons_of_ne_nil hWhole.nonempty
  exact ⟨c, _, rfl, hWhole.digits c List.mem_cons_self⟩

/-- A word without a digit in it is no number. -/
theorem ne_word {text : List Char} (hDigit : ∃ c ∈ text, c.isDigit = true) {word : String}
    (hWord : word.toList.any Char.isDigit = false) : String.ofList text ≠ word := by
  rintro rfl
  rw [String.toList_ofList, List.any_eq_false] at hWord
  obtain ⟨c, hMem, hDigit⟩ := hDigit
  exact hWord c hMem hDigit

theorem toLower_of_isDigit {c : Char} (hDigit : c.isDigit = true) : c.toLower = c := by
  simp only [Char.isDigit, Bool.and_eq_true, decide_eq_true_eq] at hDigit
  exact dif_neg fun hUpper => absurd (UInt32.le_trans hUpper.1 hDigit.2) (by decide)

theorem IsDecimal.parseMagnitude {text : List Char} (h : IsDecimal text d) :
    Text.parseMagnitude text = some d := by
  have hDigit : ∃ c ∈ text.map Char.toLower, c.isDigit = true := by
    obtain ⟨c, rest, rfl, hDigit⟩ := h.head_digit
    exact ⟨c, List.mem_map.mpr ⟨c, List.mem_cons_self, toLower_of_isDigit hDigit⟩, hDigit⟩
  unfold Text.parseMagnitude
  split
  next hEq => exact absurd hEq (ne_word hDigit (by decide))
  next hEq => exact absurd hEq (ne_word hDigit (by decide))
  next hEq => exact absurd hEq (ne_word hDigit (by decide))
  · exact h.parseDecimal

theorem doubleOfText_eq {text : List Char} (hDigit : ∃ c ∈ text, c.isDigit = true) :
    Parser.doubleOfText text = Text.parseF64 text := by
  unfold Parser.doubleOfText
  split
  next hEq => exact absurd hEq (ne_word hDigit (by decide))
  next hEq => exact absurd hEq (ne_word hDigit (by decide))
  next hEq => exact absurd hEq (ne_word hDigit (by decide))
  next hEq => exact absurd hEq (ne_word hDigit (by decide))
  next hEq => exact absurd hEq (ne_word hDigit (by decide))
  · rfl

/-- What RESP calls a double is read as the number it denotes. -/
theorem IsDouble.doubleOfText {text : String} (h : IsDouble text d) :
    Parser.doubleOfText text.toList = some d := by
  cases h with
  | infinity | minusInfinity | nan => rfl
  | unsigned h =>
    obtain ⟨c, rest, rfl, hDigit⟩ := h.head_digit
    rw [String.toList_ofList, doubleOfText_eq ⟨c, List.mem_cons_self, hDigit⟩, Text.parseF64]
    · exact h.parseMagnitude
    · rintro rest ⟨⟩
      cases hDigit
    · rintro rest ⟨⟩
      cases hDigit
  | plus h | minus h =>
    obtain ⟨c, rest, rfl, hDigit⟩ := h.head_digit
    rw [String.toList_ofList, doubleOfText_eq ⟨c, by simp, hDigit⟩]
    first
      | exact h.parseMagnitude
      | exact congrArg (Option.map (- ·)) h.parseMagnitude

/-! ### RESP is read -/

mutual

/-- The decoder's grammar admits whatever RESP admits. -/
theorem Frame.read : {frame : Bytes} → {value : Value} → Frame .resp frame value →
    Frame .read frame value
  | _, _, .simpleString hLine => .simpleString (oneLine_of_not_mem hLine.1)
  | _, _, .error hLine => .error (oneLine_of_not_mem hLine.1)
  | _, _, .integer hText => .integer hText
  | _, _, .bulkString hBlob => .bulkString hBlob
  | _, _, .nullBulkString => .nullBulkString
  | _, _, .nullArray => .nullArray
  | _, _, .null => .null
  | _, _, .boolean value => .boolean value
  | _, _, .double hText => .double (IsDouble.doubleOfText hText)
  | _, _, .bigNumber hText => .bigNumber hText
  | _, _, .bulkError hBlob => .bulkError hBlob
  | _, _, .verbatimString hFormat hBlob => .verbatimString hFormat hBlob
  | _, _, .array hCount hItems => .array hCount hItems.read
  | _, _, .set hCount hItems => .set hCount hItems.read
  | _, _, .push hCount hItems => .push hCount hItems.read
  | _, _, .map hCount hItems => .map hCount hItems.read
  | _, _, .attribute hCount hAttributes hInner => .attribute hCount hAttributes.read hInner.read

theorem Frames.read : {body : Bytes} → {values : List Value} → Frames .resp body values →
    Frames .read body values
  | _, _, .nil => .nil
  | _, _, .cons hFrame hRest => .cons hFrame.read hRest.read

end

/-! ### Numbers in bytes -/

/-- The bytes of digits. -/
theorem IsDigits.all_bytes {text : List Char} (hDigits : IsDigits text n) :
    ∀ b ∈ bytes (String.ofList text), 48 ≤ b ∧ b ≤ 57 := by
  intro b hMem
  rw [Text.bytes_ofList, List.mem_flatMap] at hMem
  obtain ⟨c, hChar, hByte⟩ := hMem
  have hDigit := hDigits.digits c hChar
  have hRange : 48 ≤ c.toNat ∧ c.toNat ≤ 57 := by
    simpa [Char.isDigit, UInt32.le_iff_toNat_le] using hDigit
  rw [Text.utf8EncodeChar_ascii (by omega), List.mem_singleton] at hByte
  rw [UInt8.le_iff_toNat_le, UInt8.le_iff_toNat_le, hByte, Text.toNat_ofNat_of_lt (by omega)]
  exact hRange

theorem IsDigits.bytes_ne_nil {text : List Char} (hDigits : IsDigits text n) :
    bytes (String.ofList text) ≠ [] := by
  have hNonempty := hDigits.nonempty
  rw [Text.bytes_ofList]
  cases text with
  | nil => exact absurd rfl hNonempty
  | cons c text => simp

theorem IsDigits.isBigNumber {text : List Char} (hDigits : IsDigits text n) :
    Parser.isBigNumber (bytes (String.ofList text)) = true := by
  have hAll := hDigits.all_bytes
  have hNonempty := hDigits.bytes_ne_nil
  generalize bytes (String.ofList text) = line at hAll hNonempty
  unfold Parser.isBigNumber
  split
  · exact absurd (hAll 43 List.mem_cons_self) (by decide)
  · exact absurd (hAll 45 List.mem_cons_self) (by decide)
  · simpa [hNonempty] using hAll

theorem IsDigits.isBigNumber_sign {text : List Char} (hDigits : IsDigits text n) {sign : Char}
    (hSign : sign = '+' ∨ sign = '-') :
    Parser.isBigNumber (bytes (String.ofList (sign :: text))) = true := by
  have hAll := hDigits.all_bytes
  have hNonempty := hDigits.bytes_ne_nil
  rw [Text.bytes_ofList] at hAll hNonempty
  rw [Text.bytes_ofList, List.flatMap_cons]
  generalize text.flatMap String.utf8EncodeChar = line at hAll hNonempty
  obtain rfl | rfl := hSign
  · simpa [Parser.isBigNumber, Text.utf8EncodeChar_ascii, hNonempty] using hAll
  · simpa [Parser.isBigNumber, Text.utf8EncodeChar_ascii, hNonempty] using hAll

theorem IsBigNumber.isBigNumber (hText : IsBigNumber text) :
    Parser.isBigNumber (bytes text) = true := by
  cases hText with
  | unsigned hDigits => exact hDigits.isBigNumber
  | plus hDigits => exact hDigits.isBigNumber_sign (.inl rfl)
  | minus hDigits => exact hDigits.isBigNumber_sign (.inr rfl)

/-! ### Every frame is read -/

/-- The decoder measures exactly these bytes, and takes this value from them. -/
def Reads (frame : Bytes) (value : Value) : Prop :=
  ∃ parsed : Parser, parseMeta frame.length frame = some parsed ∧ parsed.len = frame.length ∧
    parsed.take frame = value

/-- A frame is read by what its mode byte selects; the fuel left is enough for
everything inside it. -/
theorem Reads.of_mode {rest : Bytes} (hMode : Char.ofUInt8 mode.toUInt8 = mode)
    (hRead : ∀ fuel, (putLine mode line ++ rest).length = fuel + 1 →
      ∃ parsed : Parser, parseMode (parseMeta fuel) mode (putLine mode line ++ rest) = some parsed ∧
        parsed.len = (putLine mode line ++ rest).length ∧
        parsed.take (putLine mode line ++ rest) = value) :
    Reads (putLine mode line ++ rest) value := by
  have hLength : (putLine mode line ++ rest).length = line.length + 3 + rest.length := by
    rw [List.length_append, length_putLine]
  obtain ⟨parsed, hParse, hLen, hTake⟩ := hRead (line.length + 2 + rest.length) (by omega)
  refine ⟨parsed, ?_, hLen, hTake⟩
  have hHead : (putLine mode line ++ rest).headD 0 = mode.toUInt8 := rfl
  rw [show (putLine mode line ++ rest).length = (line.length + 2 + rest.length) + 1 by omega,
    parseMeta, if_neg (by omega), hHead, hMode]
  exact hParse

/-- A frame of one line. -/
theorem Reads.of_line (parsed : Parser) (hMode : Char.ofUInt8 mode.toUInt8 = mode)
    (hParse : ∀ read, parseMode read mode (putLine mode line ++ []) = some parsed)
    (hLen : parsed.len = line.length + 3) (hTake : parsed.take (putLine mode line) = value) :
    Reads (putLine mode line) value := by
  have hRead : Reads (putLine mode line ++ []) value := by
    refine Reads.of_mode hMode fun fuel _ => ⟨parsed, hParse _, ?_, ?_⟩
    · rw [List.append_nil, length_putLine, hLen]
    · rwa [List.append_nil]
  rwa [List.append_nil] at hRead

theorem lineText_putLine (mode : Char) (line : Bytes) :
    Parser.lineText (line.length + 3) (putLine mode line) = lossy line := by
  simp [Parser.lineText, putLine, crlf]

theorem lossy_bytes (text : String) : lossy (bytes text) = text := by
  rw [lossy, Text.fromUtf8Lossy_bytes, String.ofList_toList]

variable {length : String}

theorem IsLength.readI64_putLine (hLength : IsLength length n) (mode : Char) (rest : Bytes) :
    readI64 (putLine mode (bytes length) ++ rest) = some ((n : Int), (bytes length).length + 3) :=
  Protocol.readI64_putLine hLength.isInteger.oneLine hLength.isInteger.parseI64 mode rest

variable {data : Bytes}

/-- A payload is found behind its length, whatever the two bytes after it are. -/
theorem readBlob_putLine {ending : Bytes} (hLength : IsLength length data.length)
    (hEnding : ending.length = 2) (mode : Char) :
    ∃ pos, (∀ allowNull, readBlob allowNull (putLine mode (bytes length) ++ (data ++ ending)) =
        some ((putLine mode (bytes length) ++ (data ++ ending)).length, some (pos, data.length))) ∧
      Parser.payload (putLine mode (bytes length) ++ (data ++ ending))
        (pos, data.length) = data := by
  refine ⟨(bytes length).length + 3, fun allowNull => ?_, ?_⟩
  · rw [Parser.readBlob, hLength.readI64_putLine, Option.bind_eq_bind, Option.bind_some]
    dsimp only
    have hWhole : (putLine mode (bytes length) ++ (data ++ ending)).length =
        (bytes length).length + 3 + data.length + 2 := by
      rw [List.length_append, length_putLine, List.length_append, hEnding]
      rfl
    rw [if_neg (by omega), if_neg (by omega), hWhole, if_neg (by omega)]
    rfl
  · rw [Parser.payload, ← length_putLine mode, List.drop_left, List.take_left]

/-- A frame that is a payload behind its length. -/
theorem Blob.reads (hBlob : Blob mode frame data) (make : Nat → Nat × Nat → Parser)
    (hMode : Char.ofUInt8 mode.toUInt8 = mode) (hParse : ∀ read place, (∀ allowNull, readBlob
      allowNull frame = some (frame.length, some place)) → parseMode read mode frame = some (make
      frame.length place)) (hLen : ∀ len place, (make len place).len = len)
    (hTake : ∀ len place, Parser.payload frame place = data → (make len place).take frame = value) :
    Reads frame value := by
  obtain ⟨length, hLength⟩ := hBlob
  obtain ⟨pos, hRead, hPayload⟩ := readBlob_putLine hLength (show crlf.length = 2 from rfl) mode
  exact Reads.of_mode hMode fun fuel _ => ⟨_, hParse _ _ hRead, hLen _ _, hTake _ _ hPayload⟩

/-- A bulk string is read whatever stands where the CRLF should. -/
theorem reads_bulkString {ending : Bytes} (hLength : IsLength length data.length)
    (hEnding : ending.length = 2) :
    Reads (putLine '$' (bytes length) ++ (data ++ ending)) (.bulkString (some data)) := by
  obtain ⟨pos, hRead, hPayload⟩ := readBlob_putLine hLength hEnding '$'
  refine Reads.of_mode rfl fun fuel _ => ⟨.bytes _ (some (pos, data.length)), ?_, rfl, ?_⟩
  · rw [parseMode, hRead]
    rfl
  · rw [Parser.take, hPayload]

variable {count : String}

/-- The header of an aggregate, followed by the frames in it. -/
theorem parseAggregate_putLine {read : Bytes → Option Parser} (mode : Char)
    (hCount : IsLength count n) (kind : AggregateKind) {rest : Bytes} {elements : List Parser}
    (hElements : Parser.parseElements read (Parser.elementCount n kind) (body ++ rest) = some
      (body.length, elements)) :
    Parser.parseAggregate read kind (putLine mode (bytes count) ++ (body ++ rest)) =
      some (.aggregate kind ((bytes count).length + 3 + body.length)
        (some ((bytes count).length + 3, elements))) := by
  rw [Parser.parseAggregate, hCount.readI64_putLine, Option.bind_eq_bind, Option.bind_some]
  dsimp only
  rw [← length_putLine mode, List.drop_left, Int.toNat_natCast,
    hElements]
  rfl

/-- Frames one after the other are measured and taken as such, whatever follows. -/
def ReadsAll (body : Bytes) (values : List Value) : Prop :=
  ∀ fuel, body.length ≤ fuel → ∃ elements, Parser.takeElements elements body = values ∧
    ∀ rest, Parser.parseElements (parseMeta fuel) values.length (body ++ rest) =
      some (body.length, elements)

theorem Reads.parseMeta_append (hReads : Reads frame value) (fuel : Nat)
    (hFuel : frame.length ≤ fuel) :
    ∃ parsed : Parser, parsed.len = frame.length ∧ parsed.take frame = value ∧
      ∀ rest, parseMeta fuel (frame ++ rest) = some parsed := by
  obtain ⟨parsed, hParse, hLen, hTake⟩ := hReads
  refine ⟨parsed, hLen, hTake, fun rest => ?_⟩
  have hSound : Library.SoundReader frame.length 3 Parser.len (parseMeta frame.length)
      (parseMeta fuel) :=
    Parser.parseMeta_sound (by omega)
  exact (hSound frame rest parsed (Nat.le_refl _) hParse).1

theorem ReadsAll.nil : ReadsAll [] [] :=
  fun _ _ => ⟨[], rfl, fun _ => rfl⟩

theorem ReadsAll.cons {values : List Value} (hFrame : Reads frame value)
    (hRest : ReadsAll body values) :
    ReadsAll (frame ++ body) (value :: values) := by
  intro fuel hFuel
  rw [List.length_append] at hFuel
  obtain ⟨parsed, hLen, hTake, hFirst⟩ := hFrame.parseMeta_append fuel (by omega)
  obtain ⟨elements, hValues, hOthers⟩ := hRest fuel (by omega)
  refine ⟨parsed :: elements, ?_, fun rest => ?_⟩
  · rw [Parser.takeElements, hLen, List.take_left, List.drop_left, hTake, hValues]
  · rw [List.length_cons, Parser.parseElements, List.append_assoc, hFirst, Option.bind_eq_bind,
      Option.bind_some, hLen, List.drop_left, hOthers, List.length_append]
    rfl

/-- An aggregate of frames that are read. -/
theorem ReadsAll.aggregate {items : List Value} (hItems : ReadsAll body items)
    (hCount : IsLength count n) (kind : AggregateKind) (hMode : Char.ofUInt8 mode.toUInt8 = mode)
    (hParse : ∀ read buffer, parseMode read mode buffer = Parser.parseAggregate read kind buffer)
    (hLength : items.length = Parser.elementCount n kind) :
    Reads (putLine mode (bytes count) ++ body) (Parser.aggregateValue items kind) := by
  refine Reads.of_mode hMode fun fuel hFuel => ?_
  rw [List.length_append, length_putLine] at hFuel ⊢
  obtain ⟨elements, hValues, hElements⟩ := hItems fuel (by omega)
  rw [hLength] at hElements
  have hWhole := parseAggregate_putLine mode hCount kind (hElements [])
  rw [List.append_nil] at hWhole
  refine ⟨_, (hParse _ _).trans hWhole, rfl, ?_⟩
  rw [Parser.take, ← length_putLine mode, List.drop_left, hValues]

variable (pairs : List (Value × Value))

theorem length_flattenPairs : (flattenPairs pairs).length = pairs.length * 2 := by
  simp [flattenPairs, List.length_flatMap]

theorem pairUp_flattenPairs : Parser.pairUp (flattenPairs pairs) = pairs := by
  induction pairs with
  | nil => rfl
  | cons pair pairs ih => exact congrArg (pair :: ·) ih

theorem sum_len_parseElements {read : Bytes → Option Parser} {count size : Nat} {buffer : Bytes}
    {elements : List Parser}
    (hElements : Parser.parseElements read count buffer = some (size, elements)) :
    (elements.map Parser.len).sum = size := by
  induction count generalizing buffer size elements with
  | zero =>
    cases hElements
    rfl
  | succ count ih =>
    obtain ⟨element, -, hElements⟩ := Option.bind_eq_some_iff.mp hElements
    obtain ⟨⟨others, more⟩, hMore, hElements⟩ := Option.bind_eq_some_iff.mp hElements
    cases hElements
    rw [List.map_cons, List.sum_cons, ih hMore]

theorem takeElements_concat (elements : List Parser) (last : Parser) (buffer : Bytes) :
    Parser.takeElements (elements ++ [last]) buffer = Parser.takeElements elements buffer ++
      [last.take ((buffer.drop (elements.map Parser.len).sum).take last.len)] := by
  induction elements generalizing buffer with
  | nil => rfl
  | cons element elements ih =>
    rw [List.cons_append, Parser.takeElements, ih, List.drop_drop]
    rfl

/-- The attributes in front of a frame are dropped. -/
theorem ReadsAll.attribute {inner : Bytes} {items : List Value} (hItems : ReadsAll body items)
    (hInner : Reads inner value) (hCount : IsLength count n) (hLength : items.length = n * 2) :
    Reads (putLine '|' (bytes count) ++ (body ++ inner)) value := by
  refine Reads.of_mode rfl fun fuel hFuel => ?_
  rw [List.length_append, length_putLine, List.length_append] at hFuel ⊢
  obtain ⟨elements, hValues, hElements⟩ := hItems fuel (by omega)
  obtain ⟨parsed, hLen, hTake, hParsed⟩ := hInner.parseMeta_append fuel (by omega)
  have hAttributes := parseAggregate_putLine '|' hCount .attribute
    (show Parser.parseElements (parseMeta fuel) (n * 2) (body ++ inner) = _ by
      rw [← hLength]; exact hElements inner)
  have hDrop : (putLine '|' (bytes count) ++ (body ++ inner)).drop
      ((bytes count).length + 3 + body.length) = inner := by
    rw [← length_putLine '|', ← List.append_assoc, ← List.length_append, List.drop_left]
  refine ⟨.aggregate .attribute ((bytes count).length + 3 + body.length + parsed.len)
    (some ((bytes count).length + 3, elements ++ [parsed])), ?_, ?_, ?_⟩
  · rw [parseMode, Parser.parseAttribute, hAttributes, Option.bind_eq_bind, Option.bind_some]
    dsimp only
    rw [hDrop, ← List.append_nil inner, hParsed]
    rfl
  · rw [Parser.len]
    omega
  · rw [Parser.take, ← length_putLine '|', List.drop_left, takeElements_concat,
      sum_len_parseElements (hElements inner), List.drop_left, hLen, List.take_length, hTake,
      Parser.aggregateValue, List.getLast?_concat, Option.getD_some]

theorem verbatimValue_format {format : Bytes} (hFormat : format.length = 3) (data : Bytes) :
    Parser.verbatimValue (format ++ bytes ":" ++ data) = .verbatimString (lossy format) data := by
  obtain ⟨a, b, c, rfl⟩ := List.length_eq_three.mp hFormat
  have hColon : bytes ":" = [58] := by decide +kernel
  simp [Parser.verbatimValue, hColon]

mutual

/-- Every frame is read. -/
theorem Frame.reads : {frame : Bytes} → {value : Value} → Frame .read frame value →
    Reads frame value
  | _, _, .simpleString hLine => by
    refine Reads.of_line (.string _) rfl (fun _ => ?_) rfl ?_
    · rw [parseMode, readLine_putLine hLine]
      rfl
    · rw [Parser.take, lineText_putLine]
  | _, _, .error hLine => by
    refine Reads.of_line (.error _) rfl (fun _ => ?_) rfl ?_
    · rw [parseMode, readLine_putLine hLine]
      rfl
    · rw [Parser.take, lineText_putLine]
  | _, _, .integer hText => by
    refine Reads.of_line (.integer _ _) rfl (fun _ => ?_) rfl (by rw [Parser.take])
    rw [parseMode, readI64_putLine hText.oneLine hText.parseI64]
    rfl
  | _, _, .bulkString ⟨_, hLength⟩ => reads_bulkString hLength rfl
  | _, _, .nullBulkString => by
    refine Reads.of_line (.bytes 5 none) rfl (fun _ => ?_) rfl (by rw [Parser.take])
    rfl
  | _, _, .nullArray => by
    refine Reads.of_line (.aggregate .array 5 none) rfl (fun _ => ?_) rfl (by rw [Parser.take])
    rfl
  | _, _, .null => by
    refine Reads.of_line (.null 3) rfl (fun _ => ?_) rfl (by rw [Parser.take])
    rfl
  | _, _, .boolean value => by
    refine Reads.of_line (.boolean 4 value) rfl (fun _ => ?_) ?_ (by rw [Parser.take])
    · cases value <;> rfl
    · cases value <;> rfl
  | _, _, .double hText => by
    refine Reads.of_line (.double _ _) rfl (fun _ => ?_) rfl (by rw [Parser.take])
    have hRead : doubleOfText _ = some _ := hText
    rw [parseMode, Parser.parseDouble, readLine_putLine (oneLine_of_doubleOfText hText)]
    simp [Text.fromUtf8_bytes, hRead]
  | _, _, .bigNumber hText => by
    refine Reads.of_line (.bigNumber _) rfl (fun _ => ?_) rfl ?_
    · rw [parseMode, Parser.parseBigNumber, readLine_putLine hText.oneLine]
      exact if_pos hText.isBigNumber
    · rw [Parser.take, lineText_putLine, lossy_bytes]
  | _, _, .bulkError hBlob => by
    refine hBlob.reads .bulkError rfl (fun _ _ hRead => ?_) (fun _ _ => rfl)
      (fun _ _ hPayload => by rw [Parser.take, hPayload])
    rw [parseMode, Parser.parsePayload, hRead]
    rfl
  | _, _, .verbatimString hFormat hBlob => by
    refine hBlob.reads .verbatim rfl (fun _ _ hRead => ?_) (fun _ _ => rfl)
      (fun _ _ hPayload => ?_)
    · rw [parseMode, Parser.parsePayload, hRead]
      rfl
    · rw [Parser.take, hPayload, verbatimValue_format hFormat]
  | _, _, .array hCount hItems => hItems.reads.aggregate hCount .array rfl (fun _ _ => rfl) rfl
  | _, _, .set hCount hItems => hItems.reads.aggregate hCount .set rfl (fun _ _ => rfl) rfl
  | _, _, .push hCount hItems => hItems.reads.aggregate hCount .push rfl (fun _ _ => rfl) rfl
  | _, _, .map hCount hItems => by
    have hRead : Reads (putLine '%' _ ++ _) _ :=
      hItems.reads.aggregate hCount .map rfl (fun _ _ => rfl) (length_flattenPairs _)
    rwa [Parser.aggregateValue, pairUp_flattenPairs] at hRead
  | _, _, .attribute hCount hAttributes hInner =>
    hAttributes.reads.attribute hInner.reads hCount (length_flattenPairs _)

theorem Frames.reads : {body : Bytes} → {values : List Value} → Frames .read body values →
    ReadsAll body values
  | _, _, .nil => .nil
  | _, _, .cons hFrame hRest => .cons hFrame.reads hRest.reads

end

end CacheCat.Protocol
