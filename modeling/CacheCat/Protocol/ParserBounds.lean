import CacheCat.Protocol.ParserSound

/-! The measuring pass and the slicing pass are two recursions over one frame. Here they
are shown to agree on every offset, whatever sizes the peer announces. -/
namespace CacheCat.Protocol.Parser

mutual
/-- The header of a frame and what stands behind it fill the frame. -/
def Measured : Parser → Prop
  | string len => 3 ≤ len
  | error len => 3 ≤ len
  | bigNumber len => 3 ≤ len
  | bytes len (some (pos, size)) => pos + size + 2 = len
  | bulkError len (pos, size) => pos + size + 2 = len
  | verbatim len (pos, size) => pos + size + 2 = len
  | aggregate _ len (some (pos, elements)) =>
    pos + (elements.map Parser.len).sum = len ∧ MeasuredAll elements
  | _ => True

def MeasuredAll : List Parser → Prop
  | [] => True
  | element :: elements => element.Measured ∧ MeasuredAll elements
end

/-- The slice `1..len - 2`. -/
def LineFits (len : Nat) (buffer : Bytes) : Prop := 1 + 2 ≤ len ∧ len - 2 ≤ buffer.length

mutual
/-- Every slice `take` makes is in range; one that is not would be a panic. -/
def TakesInRange : Parser → Bytes → Prop
  | string len, buffer => LineFits len buffer
  | error len, buffer => LineFits len buffer
  | bigNumber len, buffer => LineFits len buffer
  | bytes _ (some (pos, size)), buffer => pos + size + 2 ≤ buffer.length
  | bulkError _ (pos, size), buffer => pos + size ≤ buffer.length
  | verbatim _ (pos, size), buffer => pos + size ≤ buffer.length
  | aggregate _ _ (some (pos, elements)), buffer =>
    pos ≤ buffer.length ∧ SplitsExactly elements (buffer.drop pos)
  | _, _ => True

/-- The elements are split off one after the other, and nothing is left. -/
def SplitsExactly : List Parser → Bytes → Prop
  | [], buffer => buffer = []
  | element :: elements, buffer =>
    element.len ≤ buffer.length ∧ element.TakesInRange (buffer.take element.len) ∧
      SplitsExactly elements (buffer.drop element.len)
end

/-! ### The measuring pass -/

theorem measuredAll_iff (elements : List Parser) :
    MeasuredAll elements ↔ ∀ element ∈ elements, element.Measured := by
  induction elements with
  | nil => simp [MeasuredAll]
  | cons element elements ih => simp [MeasuredAll, ih]

variable {buffer : Bytes}

theorem readLine_least {line : Bytes} {len : Nat} (hRead : readLine buffer = some (line, len)) :
    3 ≤ len := (readLine_sound buffer [] _ (Nat.le_refl _) hRead).2.1

theorem readBlob_place {allowNull : Bool} {len pos size : Nat}
    (hRead : readBlob allowNull buffer = some (len, some (pos, size))) : pos + size + 2 = len := by
  obtain ⟨⟨n, start⟩, -, hRead⟩ := Option.bind_eq_some_iff.mp hRead
  dsimp only at hRead
  split at hRead
  · cases hRead
  split at hRead
  · cases hRead
  split at hRead <;> cases hRead
  rfl

variable {parsed : Parser}

section

variable {parseMeta : Bytes → Option Parser}
  (hParse : ∀ buffer parsed, parseMeta buffer = some parsed → parsed.Measured)

include hParse

theorem parseElements_measured {count : Nat} {size : Nat} {elements : List Parser}
    (hElements : parseElements parseMeta count buffer = some (size, elements)) :
    (elements.map Parser.len).sum = size ∧ MeasuredAll elements := by
  induction count generalizing buffer size elements with
  | zero =>
    cases hElements
    exact ⟨rfl, trivial⟩
  | succ count ih =>
    obtain ⟨element, hFirst, hElements⟩ := Option.bind_eq_some_iff.mp hElements
    obtain ⟨⟨others, more⟩, hMore, hElements⟩ := Option.bind_eq_some_iff.mp hElements
    cases hElements
    obtain ⟨hSize, hAll⟩ := ih hMore
    exact ⟨by rw [List.map_cons, List.sum_cons, hSize], hParse _ _ hFirst, hAll⟩

theorem parseAggregate_measured {kind : AggregateKind}
    (hParsed : parseAggregate parseMeta kind buffer = some parsed) : parsed.Measured := by
  obtain ⟨⟨count, pos⟩, -, hParsed⟩ := Option.bind_eq_some_iff.mp hParsed
  dsimp only at hParsed
  split at hParsed
  · cases hParsed
    trivial
  split at hParsed
  · cases hParsed
  · obtain ⟨⟨size, elements⟩, hElements, hParsed⟩ := Option.bind_eq_some_iff.mp hParsed
    cases hParsed
    obtain ⟨hSize, hAll⟩ := parseElements_measured hParse hElements
    exact ⟨by rw [hSize], hAll⟩

theorem parseAttribute_measured (hParsed : parseAttribute parseMeta buffer = some parsed) :
    parsed.Measured := by
  obtain ⟨attributes, hAttributes, hParsed⟩ := Option.bind_eq_some_iff.mp hParsed
  have hMeasured := parseAggregate_measured hParse hAttributes
  split at hParsed
  next len pos elements =>
    obtain ⟨inner, hInner, hParsed⟩ := Option.bind_eq_some_iff.mp hParsed
    cases hParsed
    obtain ⟨hSize, hAll⟩ := hMeasured
    refine ⟨by simp only [List.map_append, List.sum_append, List.map_cons, List.map_nil,
      List.sum_cons, List.sum_nil]; omega, (measuredAll_iff _).mpr fun element hElement => ?_⟩
    rcases List.mem_append.mp hElement with hOld | hNew
    · exact (measuredAll_iff _).mp hAll element hOld
    · rw [List.mem_singleton.mp hNew]
      exact hParse _ _ hInner
  · cases hParsed

theorem parseMode_measured {mode : Char} (hParsed : parseMode parseMeta mode buffer = some parsed) :
    parsed.Measured := by
  unfold parseMode at hParsed
  split at hParsed
  case h_1 | h_2 =>
    obtain ⟨line, hRead, rfl⟩ := Option.map_eq_some_iff.mp hParsed
    exact readLine_least hRead
  case h_3 =>
    obtain ⟨number, -, rfl⟩ := Option.map_eq_some_iff.mp hParsed
    trivial
  case h_4 =>
    obtain ⟨⟨len, place⟩, hRead, rfl⟩ := Option.map_eq_some_iff.mp hParsed
    cases place with
    | none => trivial
    | some place => exact readBlob_place hRead
  case h_5 | h_12 | h_13 | h_14 => exact parseAggregate_measured hParse hParsed
  case h_6 =>
    obtain ⟨line, -, hParsed⟩ := Option.bind_eq_some_iff.mp hParsed
    dsimp only at hParsed
    split at hParsed <;> cases hParsed
    trivial
  case h_7 =>
    obtain ⟨line, -, hParsed⟩ := Option.bind_eq_some_iff.mp hParsed
    dsimp only at hParsed
    split at hParsed
    · cases hParsed
      trivial
    · split at hParsed <;> cases hParsed
      trivial
  case h_8 =>
    obtain ⟨line, -, hParsed⟩ := Option.bind_eq_some_iff.mp hParsed
    obtain ⟨text, -, hParsed⟩ := Option.bind_eq_some_iff.mp hParsed
    obtain ⟨value, -, hParsed⟩ := Option.bind_eq_some_iff.mp hParsed
    cases hParsed
    trivial
  case h_9 =>
    obtain ⟨line, hRead, hParsed⟩ := Option.bind_eq_some_iff.mp hParsed
    dsimp only at hParsed
    split at hParsed <;> cases hParsed
    exact readLine_least hRead
  case h_10 | h_11 =>
    obtain ⟨⟨len, place⟩, hRead, hParsed⟩ := Option.bind_eq_some_iff.mp hParsed
    obtain ⟨place, rfl, hParsed⟩ := Option.bind_eq_some_iff.mp hParsed
    cases hParsed
    exact readBlob_place hRead
  case h_15 => exact parseAttribute_measured hParse hParsed
  case h_16 => cases hParsed

end

theorem parseMeta_measured {fuel : Nat} (hParsed : parseMeta fuel buffer = some parsed) :
    parsed.Measured := by
  induction fuel generalizing buffer parsed with
  | zero => cases hParsed
  | succ fuel ih =>
    rw [parseMeta] at hParsed
    split at hParsed
    · cases hParsed
    · exact parseMode_measured (fun _ _ => ih) hParsed

/-! ### The slicing pass -/

mutual
/-- What the measuring pass has recorded is what the slicing pass needs. -/
theorem takesInRange_of_measured : (parsed : Parser) → {buffer : Bytes} → parsed.Measured →
    buffer.length = parsed.len → parsed.TakesInRange buffer
  | string len, buffer, hMeasured, hLength => ⟨hMeasured, by rw [hLength]; exact Nat.sub_le ..⟩
  | error len, buffer, hMeasured, hLength => ⟨hMeasured, by rw [hLength]; exact Nat.sub_le ..⟩
  | bigNumber len, buffer, hMeasured, hLength => ⟨hMeasured, by rw [hLength]; exact Nat.sub_le ..⟩
  | integer .., _, _, _ => trivial
  | bytes _ none, _, _, _ => trivial
  | bytes len (some (pos, size)), buffer, hMeasured, hLength => by
    have hFull : pos + size + 2 = len := hMeasured
    have hLen : buffer.length = len := hLength
    show pos + size + 2 ≤ buffer.length
    omega
  | bulkError len (pos, size), buffer, hMeasured, hLength
  | verbatim len (pos, size), buffer, hMeasured, hLength => by
    have hFull : pos + size + 2 = len := hMeasured
    have hLen : buffer.length = len := hLength
    show pos + size ≤ buffer.length
    omega
  | null .., _, _, _ => trivial
  | boolean .., _, _, _ => trivial
  | double .., _, _, _ => trivial
  | aggregate _ _ none, _, _, _ => trivial
  | aggregate _ len (some (pos, elements)), buffer, hMeasured, hLength => by
    obtain ⟨hSum, hAll⟩ := hMeasured
    have hLen : buffer.length = len := hLength
    refine ⟨by omega, splitsExactly_of_measured elements hAll ?_⟩
    rw [List.length_drop]
    omega

theorem splitsExactly_of_measured : (elements : List Parser) → {buffer : Bytes} →
    MeasuredAll elements → buffer.length = (elements.map Parser.len).sum →
      SplitsExactly elements buffer
  | [], buffer, _, hLength => List.length_eq_zero_iff.mp hLength
  | element :: elements, buffer, ⟨hFirst, hAll⟩, hLength => by
    rw [List.map_cons, List.sum_cons] at hLength
    refine ⟨by omega, takesInRange_of_measured element hFirst ?_,
      splitsExactly_of_measured elements hAll ?_⟩
    · rw [List.length_take]
      omega
    · rw [List.length_drop]
      omega
end

/-- The positions are `usize`. -/
def usizeBound : Nat := 2 ^ 64

/-- What the memory of one buffer is less than. -/
def isizeMax : Nat := 2 ^ 63 - 1

/-- A measured frame has its mode byte and its CRLF and lies within the buffer, its parts
fill it, and it is taken apart without leaving it. No number a header announces overflows
the position arithmetic. -/
theorem parser_bounds (buffer : Bytes) (hMemory : buffer.length < isizeMax) :
    (∀ parsed, parseMeta buffer.length buffer = some parsed →
      3 ≤ parsed.len ∧ parsed.len ≤ buffer.length ∧ parsed.Measured ∧
        parsed.TakesInRange (buffer.take parsed.len)) ∧
    ∀ start number pos, readI64 (buffer.drop start) = some (number, pos) →
      pos + number.toNat + 2 < usizeBound ∧
        ∀ kind, elementCount number.toNat kind < usizeBound := by
  refine ⟨fun parsed hParsed => ?_, fun start number pos hRead => ?_⟩
  · obtain ⟨-, hLeast, hSize⟩ :=
      parseMeta_sound (Nat.min_le_left ..) buffer [] parsed (Nat.le_refl _) hParsed
    have hMeasured := parseMeta_measured hParsed
    refine ⟨hLeast, hSize, hMeasured, takesInRange_of_measured parsed hMeasured ?_⟩
    rw [List.length_take]
    omega
  · obtain ⟨-, -, hPos⟩ := readI64_sound (buffer.drop start) [] _ (Nat.le_refl _) hRead
    obtain ⟨line, -, hRead⟩ := Option.bind_eq_some_iff.mp hRead
    obtain ⟨text, -, hRead⟩ := Option.bind_eq_some_iff.mp hRead
    obtain ⟨value, hValue, hRead⟩ := Option.bind_eq_some_iff.mp hRead
    cases hRead
    have hFits := (Option.filter_eq_some_iff.mp hValue).2
    rw [Bool.and_eq_true, decide_eq_true_eq, decide_eq_true_eq] at hFits
    have hNumber : number.toNat ≤ isizeMax := Int.toNat_le.mpr hFits.2
    simp only [isizeMax, usizeBound, List.length_drop] at hMemory hPos hNumber ⊢
    refine ⟨by omega, fun kind => ?_⟩
    cases kind <;> simp only [elementCount] <;> omega

/-- An array with one string in it: its length is the 4 bytes of its header and the 7 of
the string. -/
theorem parser_bounds_array :
    parseMeta 11 (CacheCat.bytes "*1\r\n$1\r\na\r\n") =
        some (aggregate .array 11 (some (4, [bytes 7 (some (4, 1))]))) ∧
      (aggregate .array 11 (some (4, [bytes 7 (some (4, 1))]))).TakesInRange
        (CacheCat.bytes "*1\r\n$1\r\na\r\n") :=
  ⟨rfl, ((parser_bounds (CacheCat.bytes "*1\r\n$1\r\na\r\n") (by decide)).1 _ rfl).2.2.2⟩

end CacheCat.Protocol.Parser
