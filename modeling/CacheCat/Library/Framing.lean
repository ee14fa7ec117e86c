import Mathlib.Algebra.Order.Ring.Nat
import Mathlib.Data.List.Basic

/-! Byte strings made of big-endian numbers and coded values, as they are written
to a file one after the other and read back from its front. -/
namespace Library

/-- Fixed-width big-endian digits. Numbers outside the width are truncated. -/
def bigEndian : (width : Nat) → Nat → List UInt8
  | 0, _ => []
  | width + 1, n => bigEndian width (n / 256) ++ [UInt8.ofNat n]

def ofBigEndian (digits : List UInt8) : Nat :=
  digits.foldl (fun n digit => 256 * n + digit.toNat) 0

@[simp] theorem length_bigEndian (width n : Nat) : (bigEndian width n).length = width := by
  induction width generalizing n with
  | zero => rfl
  | succ width ih => simp [bigEndian, ih]

theorem ofBigEndian_bigEndian {width n : Nat} (h : n < 256 ^ width) :
    ofBigEndian (bigEndian width n) = n := by
  induction width generalizing n with
  | zero =>
    rw [pow_zero, Nat.lt_one_iff] at h
    rw [h]
    rfl
  | succ width ih =>
    have hDiv : n / 256 < 256 ^ width := by
      rw [Nat.div_lt_iff_lt_mul (by decide)]
      rwa [pow_succ] at h
    have hDigits := ih hDiv
    unfold ofBigEndian at hDigits ⊢
    rw [bigEndian, List.foldl_append, hDigits]
    exact Nat.div_add_mod n 256

theorem foldl_bigEndian (digits : List UInt8) (n : Nat) :
    digits.foldl (fun n digit => 256 * n + digit.toNat) n =
      n * 256 ^ digits.length + ofBigEndian digits := by
  induction digits generalizing n with
  | nil => simp [ofBigEndian]
  | cons digit digits ih =>
    have hDigit := ih digit.toNat
    rw [ofBigEndian, List.foldl_cons, List.foldl_cons, ih, Nat.zero_add, hDigit,
      List.length_cons, pow_succ, Nat.add_mul, Nat.mul_comm 256 n, Nat.mul_assoc,
      Nat.mul_comm 256, Nat.add_assoc]

theorem ofBigEndian_cons (digit : UInt8) (digits : List UInt8) :
    ofBigEndian (digit :: digits) = digit.toNat * 256 ^ digits.length + ofBigEndian digits := by
  rw [← foldl_bigEndian, ofBigEndian, List.foldl_cons, Nat.zero_add]

theorem ofBigEndian_lt (digits : List UInt8) : ofBigEndian digits < 256 ^ digits.length := by
  induction digits with
  | nil => exact Nat.one_pos
  | cons digit digits ih =>
    have hDigit := digit.toNat_lt
    rw [ofBigEndian_cons, List.length_cons]
    have hProduct : digit.toNat * 256 ^ digits.length ≤ 255 * 256 ^ digits.length :=
      Nat.mul_le_mul_right _ (by omega)
    omega

/-! ### Reading -/

/-- `read_exact`: the first bytes and what follows them. -/
def readExact (count : Nat) (file : List UInt8) : Option (List UInt8 × List UInt8) :=
  if count ≤ file.length then some (file.splitAt count) else none

theorem readExact_append (first rest : List UInt8) :
    readExact first.length (first ++ rest) = some (first, rest) := by
  simp [readExact]

def readNumber (width : Nat) (file : List UInt8) : Option (Nat × List UInt8) :=
  (readExact width file).map fun read => (ofBigEndian read.1, read.2)

theorem readNumber_append {width n : Nat} (h : n < 256 ^ width) (rest : List UInt8) :
    readNumber width (bigEndian width n ++ rest) = some (n, rest) := by
  have hRead := readExact_append (bigEndian width n) rest
  rw [length_bigEndian] at hRead
  rw [readNumber, hRead, Option.map_some, ofBigEndian_bigEndian h]

/-! ### Overwriting -/

/-- Bytes written over a file from an offset on. -/
def overwrite (file : List UInt8) (offset : Nat) (patch : List UInt8) : List UInt8 :=
  file.take offset ++ patch ++ file.drop (offset + patch.length)

/-- A patch that fits into the middle part leaves the end alone. -/
theorem overwrite_append {start middle patch : List UInt8} (rest : List UInt8)
    (hFits : patch.length ≤ middle.length) :
    overwrite (start ++ middle ++ rest) start.length patch =
      start ++ patch ++ (middle.drop patch.length ++ rest) := by
  have hTake : (start ++ middle ++ rest).take start.length = start := by simp
  have hDrop : (start ++ middle ++ rest).drop (start.length + patch.length) =
      middle.drop patch.length ++ rest := by
    rw [← List.drop_drop, List.append_assoc, List.drop_left, List.drop_append_of_le_length hFits]
  rw [overwrite, hTake, hDrop]

/-! ### A link -/

/-- One direction of a connection. Frames arrive in the order in which they were sent;
once the link is cut, those from some number on do not arrive at all. -/
structure Link (A : Type) where
  sent : List A
  received : Nat
  cut : Option Nat
  received_le : received ≤ sent.length

namespace Link

variable {A : Type}

def new : Link A := ⟨[], 0, none, Nat.le_refl 0⟩

def send (link : Link A) (frame : A) : Link A where
  sent := link.sent ++ [frame]
  received := link.received
  cut := link.cut
  received_le := by
    rw [List.length_append]
    exact Nat.le_add_right_of_le link.received_le

/-- The next frame, unless it is lost or still to be sent. -/
def receive (link : Link A) : Option (A × Link A) :=
  if hNext : link.cut.all (link.received < ·) ∧ link.received < link.sent.length then
    some (link.sent[link.received],
      { link with received := link.received + 1, received_le := hNext.2 })
  else none

def sever (link : Link A) (number : Nat) : Link A :=
  { link with cut := some (link.cut.elim number (min number)) }

theorem receive_eq_some {link next : Link A} {frame : A} (h : link.receive = some (frame, next)) :
    link.sent[link.received]? = some frame ∧ next.sent = link.sent ∧
      next.received = link.received + 1 := by
  unfold receive at h
  split at h
  next hNext =>
    cases h
    exact ⟨List.getElem?_eq_getElem hNext.2, rfl, rfl⟩
  · cases h

end Link

/-! ### Codes of values -/

/-- A serializer. It may refuse a value, and the code of one that it accepts is
read back, whatever follows it. A code is not empty, and it fits into the memory
of a 64-bit process. -/
structure Codec (A : Type) where
  serialize : A → Option (List UInt8)
  deserialize : List UInt8 → Option A
  deserialize_append : ∀ value code rest, serialize value = some code →
    deserialize (code ++ rest) = some value
  code_ne_nil : ∀ value code, serialize value = some code → code ≠ []
  code_length_lt : ∀ value code, serialize value = some code → code.length < 2 ^ 63

theorem Codec.deserialize_code {A : Type} (codec : Codec A) {value : A} {code : List UInt8}
    (hCode : codec.serialize value = some code) : codec.deserialize code = some value := by
  simpa using codec.deserialize_append value code [] hCode

/-- The codec of a few values, each coded by its place in the list. -/
def Codec.ofList {A : Type} [DecidableEq A] (values : List A) : Codec A where
  serialize value :=
    if values.idxOf value < min 256 values.length then some [UInt8.ofNat (values.idxOf value)]
    else none
  deserialize code := code.head?.bind fun place => values[place.toNat]?
  deserialize_append := by
    intro value code rest hCode
    rw [Option.ite_none_right_eq_some] at hCode
    obtain ⟨hPlace, hCode⟩ := hCode
    cases hCode
    obtain ⟨hByte, hLength⟩ := lt_min_iff.mp hPlace
    have hPlace : (UInt8.ofNat (values.idxOf value)).toNat = values.idxOf value := by
      rw [UInt8.toNat_ofNat']
      exact Nat.mod_eq_of_lt hByte
    simp [hPlace, List.getElem?_eq_getElem hLength]
  code_ne_nil := by
    intro value code hCode
    rw [Option.ite_none_right_eq_some] at hCode
    cases hCode.2
    exact List.cons_ne_nil _ _
  code_length_lt := by
    intro value code hCode
    rw [Option.ite_none_right_eq_some] at hCode
    cases hCode.2
    exact Nat.one_lt_two_pow (by decide)

end Library
