import Mathlib.Algebra.Order.Ring.Int
import Mathlib.Data.List.Basic

/-! Byte strings and the text conversions of Rust's standard library that the
commands rely on: UTF-8 decoding (strict and lossy), `trim`, `to_uppercase`,
decimal numbers of the machine integer types, and `f64` literals. -/
namespace CacheCat

abbrev Bytes := List UInt8

/-- The UTF-8 bytes of a text. -/
def bytes (text : String) : Bytes :=
  text.toByteArray.data.toList

namespace Text

/-! ### UTF-8 -/

def isContinuation (b : UInt8) : Bool := 0x80 ≤ b && b ≤ 0xBF

/-- The second byte of a sequence is restricted further after four lead bytes,
which excludes overlong forms, surrogates and code points past U+10FFFF. -/
def isSecond (lead b : UInt8) : Bool :=
  if lead = 0xE0 then 0xA0 ≤ b && b ≤ 0xBF
  else if lead = 0xED then 0x80 ≤ b && b ≤ 0x9F
  else if lead = 0xF0 then 0x90 ≤ b && b ≤ 0xBF
  else if lead = 0xF4 then 0x80 ≤ b && b ≤ 0x8F
  else isContinuation b

/-- How many continuation bytes a lead byte announces. -/
def announced (lead : UInt8) : Option Nat :=
  if lead < 0x80 then some 0
  else if 0xC2 ≤ lead && lead ≤ 0xDF then some 1
  else if 0xE0 ≤ lead && lead ≤ 0xEF then some 2
  else if 0xF0 ≤ lead && lead ≤ 0xF4 then some 3
  else none

/-- The bytes after the lead that belong to its sequence, up to the first that
does not. -/
def sequenceTail (lead : UInt8) (count : Nat) (rest : Bytes) : Bytes :=
  match rest.take count with
  | [] => []
  | second :: more => if isSecond lead second then second :: more.takeWhile isContinuation else []

def codePoint (lead : UInt8) (tail : Bytes) : Nat :=
  let high := match tail.length with
    | 0 => lead.toNat
    | 1 => lead.toNat % 32
    | 2 => lead.toNat % 16
    | _ => lead.toNat % 8
  tail.foldl (fun code b => code * 64 + b.toNat % 64) high

/-- Decode at most `fuel` sequences. `none` stands for a maximal ill-formed
subsequence, which the lossy conversion replaces by one U+FFFD. -/
def decodeSequences : (fuel : Nat) → Bytes → List (Option Char)
  | 0, _ => []
  | _, [] => []
  | fuel + 1, lead :: rest =>
    match announced lead with
    | none => none :: decodeSequences fuel rest
    | some count =>
      let tail := sequenceTail lead count rest
      let decoded := if tail.length = count then some (Char.ofNat (codePoint lead tail)) else none
      decoded :: decodeSequences fuel (rest.drop tail.length)

/-- `str::from_utf8`. -/
def fromUtf8 (data : Bytes) : Option (List Char) :=
  (decodeSequences data.length data).mapM id

/-- `String::from_utf8_lossy`. -/
def fromUtf8Lossy (data : Bytes) : List Char :=
  (decodeSequences data.length data).map (·.getD '�')

example : fromUtf8 (bytes "aß€😀") = some "aß€😀".toList := by decide +kernel
example : fromUtf8Lossy [0x61, 0xE2, 0x82, 0x62, 0xFF] = ['a', '�', 'b', '�'] := by
  decide +kernel

/-! ### Case and white space -/

/-- `char::is_whitespace`: the code points with the property White_Space. -/
def isWhitespace (c : Char) : Bool :=
  (9 ≤ c.toNat && c.toNat ≤ 13) || (0x2000 ≤ c.toNat && c.toNat ≤ 0x200A) ||
    c.toNat ∈ [0x20, 0x85, 0xA0, 0x1680, 0x2028, 0x2029, 0x202F, 0x205F, 0x3000]

/-- `str::trim`. -/
def trim (text : List Char) : List Char :=
  ((text.dropWhile isWhitespace).reverse.dropWhile isWhitespace).reverse

/-- `char::to_uppercase` as far as it yields ASCII. The texts it is applied to are
compared with ASCII words, and repeated in some errors, where the case of other letters
does not matter; so they are left as they are. -/
def upperChar (c : Char) : List Char :=
  match c with
  | 'ß' => ['S', 'S']
  | 'ı' => ['I']
  | 'ſ' => ['S']
  | 'ﬀ' => ['F', 'F']
  | 'ﬁ' => ['F', 'I']
  | 'ﬂ' => ['F', 'L']
  | 'ﬃ' => ['F', 'F', 'I']
  | 'ﬄ' => ['F', 'F', 'L']
  | 'ﬅ' => ['S', 'T']
  | 'ﬆ' => ['S', 'T']
  | _ => [c.toUpper]

def toUppercase (text : List Char) : String :=
  String.ofList (text.flatMap upperChar)

/-! ### Integers -/

def i64Min : Int := -2 ^ 63
def i64Max : Int := 2 ^ 63 - 1

/-- Two's complement wrap-around of `i64` arithmetic. -/
def wrapI64 (value : Int) : Int := (value + 2 ^ 63) % 2 ^ 64 - 2 ^ 63

/-- The range of `i64`. -/
def FitsI64 (value : Int) : Prop := i64Min ≤ value ∧ value ≤ i64Max

instance (value : Int) : Decidable (FitsI64 value) := inferInstanceAs (Decidable (_ ∧ _))

theorem wrapI64_of_fits {value : Int} (hFits : FitsI64 value) : wrapI64 value = value := by
  obtain ⟨hLow, hHigh⟩ := hFits
  unfold i64Min at hLow
  unfold i64Max at hHigh
  unfold wrapI64
  omega

/-- Wrap-around of `u64` arithmetic. -/
def wrapU64 (value : Nat) : Nat := value % 2 ^ 64

def digit (c : Char) : Option Nat :=
  if c.isDigit then some (c.toNat - 48) else none

/-- The value of a non-empty string of decimal digits. -/
def digits : List Char → Option Nat
  | [] => none
  | text => text.foldlM (fun value c => (digit c).map (10 * value + ·)) 0

/-- `str::parse::<i64>`. -/
def parseI64 (text : List Char) : Option Int :=
  let value := match text with
    | '-' :: rest => (digits rest).map fun n => -(n : Int)
    | '+' :: rest => (digits rest).map Int.ofNat
    | _ => (digits text).map Int.ofNat
  value.filter fun n => i64Min ≤ n && n ≤ i64Max

/-- `str::parse` at an unsigned type whose largest value is `max`. -/
def parseUnsigned (max : Nat) (text : List Char) : Option Nat :=
  let value := match text with
    | '+' :: rest => digits rest
    | _ => digits text
  value.filter (· ≤ max)

def parseU64 (text : List Char) : Option Nat :=
  parseUnsigned (2 ^ 64 - 1) text

/-- The utility `parse_i64`: strict UTF-8, surrounding white space dropped. -/
def parseI64Bytes (data : Bytes) : Option Int := do
  parseI64 (trim (← fromUtf8 data))

/-- `to_string` of an integer, as bytes. -/
def intBytes (value : Int) : Bytes :=
  bytes (toString value)

example : parseI64Bytes (bytes " +007\n") = some 7 := by decide +kernel
example : parseI64Bytes (intBytes i64Min) = some i64Min := by decide +kernel

/-! ### Floats -/

/-- The part of a literal after its digits: nothing, or an exponent. -/
def parseExponent : List Char → Option Int
  | [] => some 0
  | mark :: rest =>
    if mark = 'e' || mark = 'E' then
      match rest with
      | '-' :: rest => (digits rest).map fun n => -(n : Int)
      | '+' :: rest => (digits rest).map Int.ofNat
      | _ => (digits rest).map Int.ofNat
    else none

/-- A decimal literal without sign: digits before and after the point, of which
one may be missing, and an exponent. -/
def parseDecimal (text : List Char) : Option Float := do
  let whole := text.takeWhile Char.isDigit
  let rest := text.dropWhile Char.isDigit
  let point := rest.head? = some '.'
  let fraction := if point then rest.tail.takeWhile Char.isDigit else []
  let mantissa ← digits (whole ++ fraction)
  let exponent ← parseExponent (if point then rest.tail.dropWhile Char.isDigit else rest)
  let scale := exponent - fraction.length
  pure (Float.ofScientific mantissa (scale < 0) scale.natAbs)

def infinity : Float := 1 / 0
def nan : Float := 0 / 0

/-- `str::parse::<f64>`. -/
def parseF64 (text : List Char) : Option Float :=
  let unsigned (text : List Char) : Option Float :=
    match String.ofList (text.map Char.toLower) with
    | "inf" | "infinity" => some infinity
    | "nan" => some nan
    | _ => parseDecimal text
  match text with
  | '-' :: rest => (unsigned rest).map (- ·)
  | '+' :: rest => unsigned rest
  | _ => unsigned text

example : parseF64 "-12.50e1".toList = some (-125) := by decide +kernel
example : parseF64 "1e400".toList = some infinity := by decide +kernel
example : parseF64 ".".toList = none := by decide +kernel

end Text
end CacheCat
