import CacheCat.Command.Bitmaps
import CacheCat.Data.TextLaws

/-! The integers of BITPOS. Of all byte strings the parser accepts those that are the
decimal text of an `i64`, and each of them as this number. -/
namespace CacheCat

namespace Text

/-- A number ends with its last digit; what is before it is the text of the tenth. -/
theorem bytes_toString_nat (n : Nat) :
    bytes (toString n) =
      (if n < 10 then [] else bytes (toString (n / 10))) ++ [UInt8.ofNat (48 + n % 10)] := by
  have hDigit := Nat.toNat_digitChar_of_lt_ten (Nat.mod_lt n (by decide : 10 > 0))
  have hLast : String.utf8EncodeChar (n % 10).digitChar = [UInt8.ofNat (48 + n % 10)] := by
    rw [utf8EncodeChar_ascii (by omega), hDigit]
  simp only [bytes_eq, toList_toString_nat]
  split
  next hLess =>
    rw [Nat.toDigits_of_lt_base hLess, ← hLast, Nat.mod_eq_of_lt hLess, List.flatMap_singleton,
      List.nil_append]
  next hLess =>
    rw [Nat.toDigits_of_base_le (by decide) (not_lt.mp hLess), List.flatMap_append,
      List.flatMap_singleton, hLast]

theorem intBytes_neg {n : Nat} (hPositive : 0 < n) :
    intBytes (-(n : Int)) = 45 :: bytes (toString n) := by
  obtain ⟨n, rfl⟩ := Nat.exists_eq_succ_of_ne_zero (Nat.pos_iff_ne_zero.mp hPositive)
  rfl

end Text

namespace BitPosParams

open Text

/-! ### The digits -/

variable {digits : Bytes} {digit : UInt8} {n : Nat}

theorem isDigit_iff : ¬ (digit < 48 || 57 < digit) = true ↔ 48 ≤ digit.toNat ∧
    digit.toNat ≤ 57 := by
  simp [UInt8.lt_iff_toNat_lt]

/-- One more round of the loop. -/
theorem parseMagnitude_snoc : parseMagnitude (digits ++ [digit]) = some n ↔
    n < 2 ^ 64 ∧ (48 ≤ digit.toNat ∧ digit.toNat ≤ 57) ∧
      ∃ m, parseMagnitude digits = some m ∧ n = m * 10 + (digit.toNat - 48) := by
  have hStep : parseMagnitude (digits ++ [digit]) = (parseMagnitude digits).bind fun m =>
      if digit < 48 || 57 < digit then none
      else (checkedUsize (m * 10)).bind fun tens => checkedUsize (tens + (digit.toNat - 48)) := by
    rw [parseMagnitude, List.foldlM_append]
    congr 1
    funext m
    rw [List.foldlM_cons]
    split <;> simp
  rw [hStep]
  simp only [checkedUsize, Option.bind_eq_some_iff, Option.ite_none_left_eq_some,
    Option.ite_none_right_eq_some, isDigit_iff, Option.some.injEq]
  constructor
  · rintro ⟨m, hRest, hDigit, _, ⟨-, rfl⟩, hFits, rfl⟩
    exact ⟨hFits, hDigit, m, hRest, rfl⟩
  · rintro ⟨hFits, hDigit, m, hRest, rfl⟩
    exact ⟨m, hRest, hDigit, _, ⟨by omega, rfl⟩, hFits, rfl⟩

/-- A string of digits that begins with no zero is the text of the number it is read as. -/
theorem parseMagnitude_iff : (parseMagnitude digits = some n ∧ ∃ first ∈ digits.head?, first ≠ 48) ↔
    0 < n ∧ n < 2 ^ 64 ∧ digits = bytes (toString n) := by
  induction digits using List.reverseRecOn generalizing n with
  | nil =>
    rw [bytes_toString_nat]
    simp
  | append_singleton digits digit ih =>
    have hByte := toNat_ofNat_of_lt (n := 48 + n % 10) (by omega)
    rw [parseMagnitude_snoc, bytes_toString_nat]
    constructor
    · rintro ⟨⟨hFits, hDigit, m, hRest, rfl⟩, first, hFirst, hZero⟩
      have hLast : digit = UInt8.ofNat (48 + (m * 10 + (digit.toNat - 48)) % 10) := by
        rw [← UInt8.toNat_inj]
        omega
      by_cases hNil : digits = []
      · subst hNil
        cases hRest
        cases hFirst
        have hNat : digit.toNat ≠ 48 := fun h => hZero (UInt8.toNat_inj.mp h)
        rw [if_pos (by omega), ← hLast]
        exact ⟨by omega, hFits, rfl⟩
      · rw [List.head?_append_of_ne_nil _ hNil] at hFirst
        obtain ⟨hPositive, -, hText⟩ := ih.mp ⟨hRest, first, hFirst, hZero⟩
        rw [if_neg (by omega), ← hLast, show (m * 10 + (digit.toNat - 48)) / 10 =
          m by omega, ← hText]
        exact ⟨by omega, hFits, rfl⟩
    · rintro ⟨hPositive, hFits, hText⟩
      obtain ⟨hInit, hLast⟩ := List.append_inj' hText rfl
      obtain rfl := List.singleton_inj.mp hLast
      split at hInit
      · subst hInit
        refine ⟨⟨hFits, by omega, 0, rfl, by omega⟩, _, rfl, fun hZero => ?_⟩
        have hNat := hByte.symm.trans (congrArg UInt8.toNat hZero)
        change _ = 48 at hNat
        omega
      · obtain ⟨hRest, first, hFirst, hZero⟩ := ih.mpr ⟨by omega, by omega, hInit⟩
        refine ⟨⟨hFits, by omega, n / 10, hRest, by omega⟩, first, ?_, hZero⟩
        rw [List.head?_append, hFirst]
        rfl

/-- What is behind the sign is the text of a positive number. -/
theorem unsigned_eq_some {finish : Nat → Option Int} {value : Int} :
    (match digits.head? with
      | none => none
      | some first => if first < 49 || 57 < first then none
        else (parseMagnitude digits).bind finish) = some value ↔
      ∃ n, 0 < n ∧ n < 2 ^ 64 ∧ digits = bytes (toString n) ∧ finish n = some value := by
  cases digits with
  | nil =>
    refine ⟨nofun, ?_⟩
    rintro ⟨n, hPositive, hFits, hText, -⟩
    obtain ⟨-, first, hFirst, -⟩ := parseMagnitude_iff.mpr ⟨hPositive, hFits, hText⟩
    cases hFirst
  | cons first rest =>
    have hLead : ¬ (first < 49 || 57 < first) = true ↔ ¬ (first < 48 || 57 < first) = true ∧
        first ≠ 48 := by
      rw [ne_eq, ← UInt8.toNat_inj]
      simp [UInt8.lt_iff_toNat_lt]
      omega
    rw [List.head?_cons, Option.ite_none_left_eq_some, hLead, Option.bind_eq_some_iff]
    constructor
    · rintro ⟨⟨-, hZero⟩, n, hMagnitude, hFinish⟩
      obtain ⟨hPositive, hFits, hText⟩ := parseMagnitude_iff.mp ⟨hMagnitude, first, rfl, hZero⟩
      exact ⟨n, hPositive, hFits, hText, hFinish⟩
    · rintro ⟨n, hPositive, hFits, hText, hFinish⟩
      obtain ⟨hMagnitude, _, ⟨⟩, hZero⟩ := parseMagnitude_iff.mpr ⟨hPositive, hFits, hText⟩
      refine ⟨⟨fun hDigit => ?_, hZero⟩, n, hMagnitude, hFinish⟩
      rw [parseMagnitude, List.foldlM_cons, if_pos hDigit] at hMagnitude
      cases hMagnitude

theorem sign_cases (value : Int) :
    value = 0 ∨ (∃ n : Nat, 0 < n ∧ value = n) ∨ ∃ n : Nat, 0 < n ∧ value = -(n : Int) := by
  by_cases hZero : value = 0
  · exact .inl hZero
  · have hPositive := Int.natAbs_pos.mpr hZero
    exact .inr ((Int.natAbs_eq value).imp (⟨_, hPositive, ·⟩) (⟨_, hPositive, ·⟩))

/-- Just the canonical text of an `i64` is accepted, as the number it is. -/
theorem parseRedisI64Bytes_eq_some {data : Bytes} {value : Int} :
    parseRedisI64Bytes data = some value ↔ FitsI64 value ∧ data = intBytes value := by
  unfold FitsI64 i64Min i64Max
  constructor
  · intro hParse
    unfold parseRedisI64Bytes at hParse
    split at hParse
    next hZero =>
      cases hParse
      exact ⟨by decide, hZero.trans (by decide +kernel)⟩
    · by_cases hSign : data.head? = some 45
      · obtain ⟨rest, rfl⟩ := List.head?_eq_some_iff.mp hSign
        obtain ⟨n, hPositive, -, hText, hFinish⟩ := unsigned_eq_some.mp hParse
        obtain ⟨hLeast, hValue⟩ := Option.ite_none_left_eq_some.mp hFinish
        cases hValue
        exact ⟨by omega, (intBytes_neg hPositive).symm ▸ congrArg _ hText⟩
      · simp only [if_neg hSign] at hParse
        obtain ⟨n, hPositive, -, hText, hFinish⟩ := unsigned_eq_some.mp hParse
        obtain ⟨hGreatest, hValue⟩ := Option.ite_none_left_eq_some.mp hFinish
        cases hValue
        exact ⟨by omega, hText⟩
  · rintro ⟨hFits, rfl⟩
    obtain rfl | ⟨n, hPositive, rfl⟩ | ⟨n, hPositive, rfl⟩ := sign_cases value
    · decide +kernel
    · obtain ⟨hMagnitude, first, hFirst, hLead⟩ :
          parseMagnitude (intBytes n) = some n ∧ ∃ first ∈ (intBytes n).head?, first ≠ 48 :=
        parseMagnitude_iff.mpr ⟨hPositive, by omega, rfl⟩
      have hZero : intBytes n ≠ [48] := by
        intro hText
        rw [hText] at hFirst
        cases hFirst
        exact hLead rfl
      have hSign : (intBytes n).head? ≠ some 45 := by
        intro hSign
        obtain ⟨rest, hText⟩ := List.head?_eq_some_iff.mp hSign
        rw [hText] at hMagnitude
        cases hMagnitude
      rw [parseRedisI64Bytes, if_neg hZero]
      simp only [if_neg hSign]
      exact unsigned_eq_some.mpr ⟨n, hPositive, by omega, rfl, if_neg (by omega)⟩
    · rw [intBytes_neg hPositive, parseRedisI64Bytes]
      simp only [List.head?_cons, if_true, List.tail_cons]
      exact unsigned_eq_some.mpr ⟨n, hPositive, by omega, rfl, if_neg (by omega)⟩

/-! ### Step by step -/

/-- The loop over the digits. `none` is an overflow, and `some none` a refusal. -/
def runMagnitude (magnitude : Nat) : Bytes → Option (Option Nat)
  | [] => some (some magnitude)
  | digit :: digits =>
    if digit < 48 || 57 < digit then some none
    else if 48 ≤ digit.toNat then
      match (checkedUsize (magnitude * 10)).bind fun tens => checkedUsize
        (tens + (digit.toNat - 48)) with
      | none => some none
      | some next => runMagnitude next digits
    else none

/-- `parse_redis_i64_bytes` as the machine carries it out: `none` if an index is out of
range or an operation overflows. -/
def runRedisI64Bytes (data : Bytes) : Option (Option Int) :=
  if data = [48] then some (some 0)
  else if data = [] then some none
  else do
    let negative := (← data[0]?) = 45
    let digits := if negative then data.drop 1 else data
    if digits = [] then some none
    else
      let first ← digits[0]?
      if first < 49 || 57 < first then some none
      else
        match ← runMagnitude 0 digits with
        | none => some none
        | some magnitude =>
          if negative then
            -- `(i64::MAX as u64) + 1`
            let minMagnitude ← checkedUsize (2 ^ 63 - 1 + 1)
            if minMagnitude < magnitude then some none
            else if magnitude = minMagnitude then some (some i64Min)
            -- the least number has no opposite
            else if wrapI64 magnitude = i64Min then none
            else some (some (-wrapI64 magnitude))
          else if 2 ^ 63 - 1 < magnitude then some none
          else some (some (wrapI64 magnitude))

theorem runMagnitude_eq (magnitude : Nat) (digits : Bytes) :
    runMagnitude magnitude digits = some (digits.foldlM
      (fun magnitude digit => do
        if digit < 48 || 57 < digit then none
        checkedUsize ((← checkedUsize (magnitude * 10)) + (digit.toNat - 48)))
      magnitude) := by
  induction digits generalizing magnitude with
  | nil => rfl
  | cons digit digits ih =>
    rw [runMagnitude, List.foldlM_cons]
    split
    · rfl
    next hDigit =>
      have hLow : 48 ≤ digit.toNat := by
        simp only [Bool.or_eq_true, decide_eq_true_eq, not_or, UInt8.lt_iff_toNat_lt] at hDigit
        exact not_lt.mp hDigit.1
      rw [if_pos hLow]
      change _ = some (((checkedUsize (magnitude * 10)).bind fun tens =>
        checkedUsize (tens + (digit.toNat - 48))).bind _)
      cases (checkedUsize (magnitude * 10)).bind fun tens => checkedUsize
        (tens + (digit.toNat - 48)) with
      | none => rfl
      | some next => exact ih next

/-- No index is out of range and no operation overflows. -/
theorem runRedisI64Bytes_eq (data : Bytes) :
    runRedisI64Bytes data = some (parseRedisI64Bytes data) := by
  unfold runRedisI64Bytes parseRedisI64Bytes
  cases data with
  | nil => rfl
  | cons head tail =>
    split
    · rfl
    rw [if_neg (List.cons_ne_nil _ _)]
    simp only [List.getElem?_cons_zero, List.head?_cons, List.drop_one, List.tail_cons,
      Option.some.injEq, Option.bind_eq_bind, Option.bind_some]
    generalize (if head = 45 then tail else head :: tail) = digits
    cases digits with
    | nil => rfl
    | cons first rest =>
      rw [if_neg (List.cons_ne_nil _ _)]
      simp only [List.getElem?_cons_zero, List.head?_cons, Option.bind_some]
      split
      · rfl
      rw [runMagnitude_eq, ← parseMagnitude]
      cases parseMagnitude (first :: rest) with
      | none => rfl
      | some magnitude =>
        have hWrap (hFits : magnitude < 2 ^ 63) : wrapI64 magnitude = magnitude :=
          wrapI64_of_fits ⟨by simp only [i64Min]; omega, by simp only [i64Max]; omega⟩
        dsimp only [Option.bind_some]
        split
        · rw [show checkedUsize (2 ^ 63 - 1 + 1) = some (2 ^ 63) from rfl, Option.bind_some]
          split
          · rfl
          · split
            next hLeast => rw [hLeast]; rfl
            · rw [hWrap (by omega), if_neg (by simp only [i64Min]; omega)]
        · split
          · rfl
          · rw [hWrap (by omega)]

/-- The parser comes to its end without an overflow, and accepts just the canonical decimal
texts of the `i64` numbers, each as its number. -/
theorem parseRedisI64Bytes_canonical (data : Bytes) :
    runRedisI64Bytes data = some (parseRedisI64Bytes data) ∧
      ∀ value, parseRedisI64Bytes data = some value ↔ FitsI64 value ∧ data = intBytes value :=
  ⟨runRedisI64Bytes_eq data, fun _ => parseRedisI64Bytes_eq_some⟩

end BitPosParams

end CacheCat
