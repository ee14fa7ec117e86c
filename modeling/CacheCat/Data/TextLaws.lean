import CacheCat.Data.Text
import Mathlib.Data.List.TakeWhile

/-! Laws of the text conversions: decoding gives back the text that was encoded, and
a printed number is read as itself. -/
namespace CacheCat.Text

/-! ### UTF-8 -/

theorem isContinuation_iff (b : UInt8) :
    isContinuation b = true ↔ 128 ≤ b.toNat ∧ b.toNat ≤ 191 := by
  simp [isContinuation, UInt8.le_iff_toNat_le]

theorem isSecond_iff (lead b : UInt8) : isSecond lead b = true ↔
    128 ≤ b.toNat ∧ b.toNat ≤ 191 ∧ (lead.toNat = 224 → 160 ≤ b.toNat) ∧
      (lead.toNat = 237 → b.toNat ≤ 159) ∧ (lead.toNat = 240 → 144 ≤ b.toNat) ∧
      (lead.toNat = 244 → b.toNat ≤ 143) := by
  have hEq (n : UInt8) : lead = n ↔ lead.toNat = n.toNat := UInt8.toNat_inj.symm
  simp only [isSecond, isContinuation, hEq, UInt8.le_iff_toNat_le]
  repeat' split
  all_goals simp_all
  all_goals omega

theorem announced_eq (lead : UInt8) : announced lead =
    if lead.toNat < 128 then some 0
    else if 194 ≤ lead.toNat ∧ lead.toNat ≤ 223 then some 1
    else if 224 ≤ lead.toNat ∧ lead.toNat ≤ 239 then some 2
    else if 240 ≤ lead.toNat ∧ lead.toNat ≤ 244 then some 3
    else none := by
  simp [announced, UInt8.le_iff_toNat_le, UInt8.lt_iff_toNat_lt]

/-- A lead byte with the continuation bytes it announces is read as one character. -/
theorem decodeSequences_sequence {lead second : UInt8} (more : Bytes) (fuel : Nat) (rest : Bytes)
    (hLead : announced lead = some (more.length + 1)) (hSecond : isSecond lead second = true)
    (hMore : ∀ b ∈ more, isContinuation b = true) :
    decodeSequences (fuel + 1) (lead :: second :: (more ++ rest)) =
      some (Char.ofNat (codePoint lead (second :: more))) :: decodeSequences fuel rest := by
  have hTail : sequenceTail lead (more.length + 1) (second :: (more ++ rest)) = second :: more := by
    simp only [sequenceTail, List.take_succ_cons, List.take_left, hSecond, if_true]
    rw [List.takeWhile_eq_self_iff.2 hMore]
  simp [decodeSequences, hLead, hTail]

variable {n : Nat} {text : List Char}

theorem toNat_ofNat_of_lt (hByte : n < 256) : (UInt8.ofNat n).toNat = n :=
  UInt8.toNat_ofNat_of_lt' hByte

theorem decodeSequences_utf8EncodeChar (c : Char) (fuel : Nat) (rest : Bytes) :
    decodeSequences (fuel + 1) (String.utf8EncodeChar c ++ rest) =
      some c :: decodeSequences fuel rest := by
  have hValid : c.val.toNat < 55296 ∨ 57343 < c.val.toNat ∧ c.val.toNat < 1114112 := c.valid
  have hChar : Char.ofNat c.val.toNat = c := Char.ofNat_toNat c
  generalize hCode : c.val.toNat = v at hValid hChar
  rw [String.utf8EncodeChar]
  simp only [hCode]
  by_cases h1 : v ≤ 127
  · rw [if_pos h1]
    have hLead := toNat_ofNat_of_lt (n := v) (by omega)
    generalize UInt8.ofNat v = lead at hLead ⊢
    have hAnnounced : announced lead = some 0 := by
      rw [announced_eq, if_pos (by omega)]
    simp [decodeSequences, hAnnounced, sequenceTail, codePoint, hLead, hChar]
  rw [if_neg h1]
  have hLast := toNat_ofNat_of_lt (n := v % 64 + 128) (by omega)
  generalize UInt8.ofNat (v % 64 + 128) = last at hLast ⊢
  have hLastCont : isContinuation last = true := (isContinuation_iff last).mpr (by omega)
  by_cases h2 : v ≤ 2047
  · rw [if_pos h2]
    have hLead := toNat_ofNat_of_lt (n := v / 64 % 32 + 192) (by omega)
    generalize UInt8.ofNat (v / 64 % 32 + 192) = lead at hLead ⊢
    have hSecond : isSecond lead last = true := (isSecond_iff lead last).mpr (by omega)
    have hAnnounced : announced lead = some 1 := by
      rw [announced_eq, if_neg (by omega), if_pos (by omega)]
    rw [List.cons_append, List.cons_append,
      decodeSequences_sequence [] fuel rest hAnnounced hSecond (by simp)]
    have hValue : codePoint lead [last] = v := by
      simp only [codePoint, List.length_singleton, List.foldl]
      omega
    rw [hValue, hChar]
  rw [if_neg h2]
  have hThird := toNat_ofNat_of_lt (n := v / 64 % 64 + 128) (by omega)
  generalize UInt8.ofNat (v / 64 % 64 + 128) = third at hThird ⊢
  by_cases h3 : v ≤ 65535
  · rw [if_pos h3]
    have hLead := toNat_ofNat_of_lt (n := v / 4096 % 16 + 224) (by omega)
    generalize UInt8.ofNat (v / 4096 % 16 + 224) = lead at hLead ⊢
    have hSecond : isSecond lead third = true := (isSecond_iff lead third).mpr (by omega)
    have hAnnounced : announced lead = some 2 := by
      rw [announced_eq, if_neg (by omega), if_neg (by omega), if_pos (by omega)]
    have hRead := decodeSequences_sequence [last] fuel rest hAnnounced hSecond (by simpa)
    have hValue : codePoint lead [third, last] = v := by
      simp only [codePoint, List.length_cons, List.length_nil, List.foldl]
      omega
    rwa [hValue, hChar] at hRead
  rw [if_neg h3]
  have hSecondByte := toNat_ofNat_of_lt (n := v / 4096 % 64 + 128) (by omega)
  generalize UInt8.ofNat (v / 4096 % 64 + 128) = second at hSecondByte ⊢
  have hLead := toNat_ofNat_of_lt (n := v / 262144 % 8 + 240) (by omega)
  generalize UInt8.ofNat (v / 262144 % 8 + 240) = lead at hLead ⊢
  have hSecond : isSecond lead second = true := (isSecond_iff lead second).mpr (by omega)
  have hAnnounced : announced lead = some 3 := by
    rw [announced_eq, if_neg (by omega), if_neg (by omega), if_neg (by omega), if_pos (by omega)]
  have hThirdCont : isContinuation third = true := (isContinuation_iff third).mpr (by omega)
  have hRead := decodeSequences_sequence [third, last] fuel rest hAnnounced hSecond
    (by simp [hThirdCont, hLastCont])
  have hValue : codePoint lead [second, third, last] = v := by
    simp only [codePoint, List.length_cons, List.length_nil, List.foldl]
    omega
  rwa [hValue, hChar] at hRead

theorem bytes_ofList (text : List Char) :
    bytes (String.ofList text) = text.flatMap String.utf8EncodeChar := by
  simp [bytes, String.toByteArray_ofList, List.utf8Encode]

theorem bytes_eq (text : String) : bytes text = text.toList.flatMap String.utf8EncodeChar := by
  rw [← bytes_ofList, String.ofList_toList]

theorem decodeSequences_flatMap (text : List Char) (fuel : Nat) (hFuel : text.length ≤ fuel) :
    decodeSequences fuel (text.flatMap String.utf8EncodeChar) = text.map some := by
  induction text generalizing fuel with
  | nil => cases fuel <;> rfl
  | cons c text ih =>
    cases fuel with
    | zero => simp at hFuel
    | succ fuel =>
      rw [List.flatMap_cons, decodeSequences_utf8EncodeChar, ih fuel (by simpa using hFuel)]
      rfl

theorem length_le_flatMap (text : List Char) :
    text.length ≤ (text.flatMap String.utf8EncodeChar).length := by
  induction text with
  | nil => simp
  | cons c text ih =>
    have hPos : 0 < (String.utf8EncodeChar c).length := by simp [Char.utf8Size_pos]
    rw [List.flatMap_cons, List.length_append, List.length_cons]
    omega

theorem decodeSequences_bytes (text : String) :
    decodeSequences (bytes text).length (bytes text) = text.toList.map some := by
  rw [bytes_eq]
  exact decodeSequences_flatMap _ _ (length_le_flatMap _)

/-- Valid UTF-8 is decoded without loss. -/
theorem fromUtf8Lossy_bytes (text : String) : fromUtf8Lossy (bytes text) = text.toList := by
  rw [fromUtf8Lossy, decodeSequences_bytes, List.map_map]
  exact List.map_id _

theorem fromUtf8_bytes (text : String) : fromUtf8 (bytes text) = some text.toList := by
  rw [fromUtf8, decodeSequences_bytes]
  induction text.toList with
  | nil => rfl
  | cons c text ih => simp [List.mapM_cons, ih]

variable {c : Char}

theorem utf8EncodeChar_ascii (hAscii : c.toNat ≤ 127) :
    String.utf8EncodeChar c = [UInt8.ofNat c.toNat] := by
  exact if_pos hAscii

/-- A byte below 128 in the encoding of a text is one of its characters. -/
theorem mem_of_mem_bytes {text : String} {b : UInt8} (hMem : b ∈ bytes text)
    (hAscii : b.toNat < 128) : ∃ c ∈ text.toList, c.toNat = b.toNat := by
  rw [bytes_eq, List.mem_flatMap] at hMem
  obtain ⟨c, hChar, hByte⟩ := hMem
  refine ⟨c, hChar, ?_⟩
  rw [String.utf8EncodeChar] at hByte
  change c.val.toNat = b.toNat
  generalize c.val.toNat = v at hByte ⊢
  -- every byte of a longer sequence is at least 128
  have hLarge (n : Nat) (hLow : 128 ≤ n) (hHigh : n < 256) : b ≠ UInt8.ofNat n := by
    rintro rfl
    rw [toNat_ofNat_of_lt hHigh] at hAscii
    omega
  split at hByte
  next hSmall =>
    rw [List.mem_singleton] at hByte
    rw [hByte, toNat_ofNat_of_lt (by omega)]
  · exfalso
    split at hByte
    · simp only [List.mem_cons, List.not_mem_nil, or_false] at hByte
      obtain h | h := hByte <;> exact hLarge _ (by omega) (by omega) h
    split at hByte
    · simp only [List.mem_cons, List.not_mem_nil, or_false] at hByte
      obtain h | h | h := hByte <;> exact hLarge _ (by omega) (by omega) h
    · simp only [List.mem_cons, List.not_mem_nil, or_false] at hByte
      obtain h | h | h | h := hByte <;> exact hLarge _ (by omega) (by omega) h

/-! ### Numbers -/

theorem foldlM_digit (hDigits : ∀ c ∈ text, c.isDigit) (value : Nat) :
    text.foldlM (fun value c => (digit c).map (10 * value + ·)) value =
      some (Nat.ofDigitChars 10 text value) := by
  induction text generalizing value with
  | nil => rfl
  | cons c rest ih =>
    simp only [List.mem_cons, forall_eq_or_imp] at hDigits
    rw [List.foldlM_cons, digit, if_pos hDigits.1]
    exact ih hDigits.2 _

theorem digits_eq (hNonempty : text ≠ []) (hDigits : ∀ c ∈ text, c.isDigit) :
    digits text = some (Nat.ofDigitChars 10 text 0) := by
  rw [← foldlM_digit hDigits 0]
  cases text with
  | nil => exact absurd rfl hNonempty
  | cons c rest => rfl

theorem toList_toString_nat (n : Nat) : (toString n).toList = Nat.toDigits 10 n := by
  rw [Nat.toString_eq_repr, Nat.repr, String.toList_ofList]

theorem isDigit_of_mem_toString (hMem : c ∈ (toString n).toList) : c.isDigit = true := by
  rw [toList_toString_nat] at hMem
  exact Nat.isDigit_of_mem_toDigits (by omega) (by omega) hMem

theorem parseI64_of_digits (hDigits : ∀ c ∈ text, c.isDigit) (hValue : digits text = some n)
    (hHigh : (n : Int) ≤ i64Max) : parseI64 text = some (n : Int) := by
  have hLow : i64Min ≤ (n : Int) := by simp only [i64Min]; omega
  unfold parseI64
  split
  · exact absurd (hDigits '-' List.mem_cons_self) (by decide)
  · exact absurd (hDigits '+' List.mem_cons_self) (by decide)
  · simp [hValue, Option.filter, hLow, hHigh]

theorem parseI64_plus (hValue : digits text = some n) (hHigh : (n : Int) ≤ i64Max) :
    parseI64 ('+' :: text) = some (n : Int) := by
  have hLow : i64Min ≤ (n : Int) := by simp only [i64Min]; omega
  simp [parseI64, hValue, Option.filter, hLow, hHigh]

theorem parseI64_minus (hValue : digits text = some n) (hLow : i64Min ≤ -(n : Int)) :
    parseI64 ('-' :: text) = some (-(n : Int)) := by
  have hHigh : -(n : Int) ≤ i64Max := by simp only [i64Max]; omega
  simp [parseI64, hValue, Option.filter, hLow, hHigh]

variable {value : Int}

theorem parseI64_toString (hLow : i64Min ≤ value) (hHigh : value ≤ i64Max) :
    parseI64 (toString value).toList = some value := by
  have hDigits (n : Nat) : digits (toString n).toList = some n := by
    rw [digits_eq _ fun c => isDigit_of_mem_toString]
    · rw [toList_toString_nat]
      exact congrArg some (Nat.ofDigitChars_toDigits (by omega) (by omega))
    · rw [toList_toString_nat]
      exact Nat.toDigits_ne_nil
  cases value with
  | ofNat n => exact parseI64_of_digits (fun c => isDigit_of_mem_toString) (hDigits n) hHigh
  | negSucc n =>
    have hText : (toString (Int.negSucc n)).toList = '-' :: (toString (n + 1)).toList := by
      rw [show toString (Int.negSucc n) = "-" ++ toString (n + 1) from rfl, String.toList_append]
      rfl
    rw [hText]
    exact parseI64_minus (hDigits (n + 1)) hLow

theorem mem_toString_int (hMem : c ∈ (toString value).toList) : c = '-' ∨ c.isDigit = true := by
  cases value with
  | ofNat n => exact .inr (isDigit_of_mem_toString hMem)
  | negSucc n =>
    rw [show toString (Int.negSucc n) = "-" ++ toString (n + 1) from rfl, String.toList_append,
      List.mem_append] at hMem
    rcases hMem with hSign | hDigit
    · exact .inl (List.mem_singleton.mp hSign)
    · exact .inr (isDigit_of_mem_toString hDigit)

theorem isWhitespace_of_isDigit (hDigit : c.isDigit = true) : isWhitespace c = false := by
  simp only [Char.isDigit, Bool.and_eq_true, decide_eq_true_eq] at hDigit
  have hLow : 48 ≤ c.toNat := hDigit.1
  have hHigh : c.toNat ≤ 57 := hDigit.2
  simp [isWhitespace]
  omega

theorem trim_eq_self (hText : ∀ c ∈ text, isWhitespace c = false) :
    trim text = text := by
  have hKeep (text : List Char) (hText : ∀ c ∈ text, isWhitespace c = false) :
      text.dropWhile isWhitespace = text := by
    cases text with
    | nil => rfl
    | cons c rest => rw [List.dropWhile_cons_of_neg (by simp [hText c List.mem_cons_self])]
  rw [trim, hKeep text hText, hKeep _ fun c hMem => hText c (List.mem_reverse.mp hMem),
    List.reverse_reverse]

/-- What is written as an integer reads back as that integer. -/
theorem parseI64Bytes_intBytes (hLow : i64Min ≤ value) (hHigh : value ≤ i64Max) :
    parseI64Bytes (intBytes value) = some value := by
  have hTrim : trim (toString value).toList = (toString value).toList := by
    refine trim_eq_self fun c hMem => ?_
    rcases mem_toString_int hMem with rfl | hDigit
    · decide
    · exact isWhitespace_of_isDigit hDigit
  rw [parseI64Bytes, intBytes, fromUtf8_bytes]
  change parseI64 (trim _) = _
  rw [hTrim, parseI64_toString hLow hHigh]

/-! ### The characters of a float -/

theorem isDigit_of_digits (hDigits : digits text = some n) :
    ∀ c ∈ text, c.isDigit = true := by
  have hFold (value : Nat) (text : List Char)
      (hSome : (text.foldlM (fun value c => (digit c).map (10 * value + ·)) value).isSome) :
      ∀ c ∈ text, c.isDigit = true := by
    induction text generalizing value with
    | nil => simp
    | cons c rest ih =>
      rw [List.foldlM_cons, digit] at hSome
      split at hSome
      next hDigit =>
        simp only [List.mem_cons, forall_eq_or_imp]
        exact ⟨hDigit, ih _ hSome⟩
      · cases hSome
  cases text with
  | nil => simp
  | cons c rest => exact hFold 0 (c :: rest) (Option.isSome_of_eq_some hDigits)

theorem return_not_mem_of_digits (hDigits : digits text = some n) :
    '\r' ∉ text :=
  fun hMem => absurd (isDigit_of_digits hDigits _ hMem) (by decide)

theorem return_not_mem_of_parseExponent {n : Int} (hParse : parseExponent text = some n) :
    '\r' ∉ text := by
  unfold parseExponent at hParse
  split at hParse
  · simp
  next mark rest =>
  split at hParse
  next hMark =>
    have hFirst : '\r' ≠ mark := by
      rintro rfl
      exact absurd hMark (by decide)
    suffices hRest : '\r' ∉ rest by simp [hFirst, hRest]
    split at hParse
    · obtain ⟨value, hValue, -⟩ := Option.map_eq_some_iff.mp hParse
      obtain ⟨n, hDigits, -⟩ := Option.bind_eq_some_iff.mp hValue
      simp [return_not_mem_of_digits hDigits]
    · obtain ⟨value, hDigits, -⟩ := Option.map_eq_some_iff.mp hParse
      simp [return_not_mem_of_digits hDigits]
    · obtain ⟨value, hDigits, -⟩ := Option.map_eq_some_iff.mp hParse
      exact return_not_mem_of_digits hDigits
  · cases hParse

theorem return_not_mem_of_parseDecimal {d : Float} (hParse : parseDecimal text = some d) :
    '\r' ∉ text := by
  obtain ⟨mantissa, hMantissa, hParse⟩ := Option.bind_eq_some_iff.mp hParse
  obtain ⟨exponent, hExponent, -⟩ := Option.bind_eq_some_iff.mp hParse
  have hDigits := return_not_mem_of_digits hMantissa
  have hRest := return_not_mem_of_parseExponent hExponent
  rw [List.mem_append, not_or] at hDigits
  rw [← List.takeWhile_append_dropWhile (p := Char.isDigit) (l := text), List.mem_append, not_or]
  refine ⟨hDigits.1, ?_⟩
  generalize text.dropWhile Char.isDigit = rest at hDigits hRest ⊢
  cases rest with
  | nil => simp
  | cons c tail =>
    by_cases hPoint : c = '.'
    · subst hPoint
      rw [List.mem_cons, not_or, ← List.takeWhile_append_dropWhile (p := Char.isDigit) (l := tail),
        List.mem_append, not_or]
      exact ⟨by decide, hDigits.2, hRest⟩
    · simpa [hPoint] using hRest

theorem return_not_mem_of_lower {word : String}
    (hWord : String.ofList (text.map Char.toLower) = word) (hPlain : '\r' ∉ word.toList) :
    '\r' ∉ text := by
  intro hMem
  rw [← hWord, String.toList_ofList] at hPlain
  exact hPlain (List.mem_map.mpr ⟨'\r', hMem, by decide⟩)

/-- What `parseF64` reads behind the sign. -/
def parseMagnitude (text : List Char) : Option Float :=
  match String.ofList (text.map Char.toLower) with
  | "inf" | "infinity" => some infinity
  | "nan" => some nan
  | _ => parseDecimal text

/-- A text that is read as a float has no line break in it. -/
theorem return_not_mem_of_parseF64 {d : Float} (hParse : parseF64 text = some d) :
    '\r' ∉ text := by
  have hUnsigned (text : List Char) (d : Float) (hParse : parseMagnitude text = some d) :
      '\r' ∉ text := by
    unfold parseMagnitude at hParse
    split at hParse
    next hWord => exact return_not_mem_of_lower hWord (by decide)
    next hWord => exact return_not_mem_of_lower hWord (by decide)
    next hWord => exact return_not_mem_of_lower hWord (by decide)
    · exact return_not_mem_of_parseDecimal hParse
  unfold parseF64 at hParse
  split at hParse
  · obtain ⟨value, hValue, -⟩ := Option.map_eq_some_iff.mp hParse
    simpa using hUnsigned _ _ hValue
  · simpa using hUnsigned _ _ hParse
  · exact hUnsigned _ _ hParse

end CacheCat.Text
