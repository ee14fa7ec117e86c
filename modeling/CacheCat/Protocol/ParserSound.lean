import CacheCat.Library.Incremental
import CacheCat.Protocol.Parser

/-! What the first pass has measured is final: bytes that arrive later do not change it,
and it lies within the buffer. -/
namespace CacheCat.Protocol.Parser

open Library (SoundReader)

variable {within : Nat}

theorem findLine_append {buffer : Bytes} {index : Nat} (hFind : findLine buffer = some index)
    (rest : Bytes) : findLine (buffer ++ rest) = some index ∧ index + 2 ≤ buffer.length := by
  fun_induction findLine buffer generalizing index with
  | case1 a b tail hEnd =>
    cases hFind
    exact ⟨by simp [findLine, hEnd], by simp⟩
  | case2 a b tail hEnd ih =>
    obtain ⟨later, hLater, rfl⟩ := Option.map_eq_some_iff.mp hFind
    obtain ⟨hRest, hLength⟩ := ih hLater
    refine ⟨?_, by simpa using hLength⟩
    rw [List.cons_append, List.cons_append, findLine, if_neg hEnd, ← List.cons_append, hRest]
    rfl
  | case3 => cases hFind

theorem readLine_sound :
    SoundReader within 3 (fun line : Bytes × Nat => line.2) readLine readLine := by
  intro buffer rest line _ hRead
  obtain ⟨index, hFind, rfl⟩ := Option.map_eq_some_iff.mp hRead
  obtain ⟨hRest, hLength⟩ := findLine_append hFind rest
  cases buffer with
  | nil => simp at hLength
  | cons mode buffer =>
    rw [List.tail_cons] at hRest hLength
    refine ⟨?_, by simp, by simpa using hLength⟩
    simp only [readLine, List.cons_append, List.tail_cons, hRest, Option.map_some]
    rw [List.take_append_of_le_length (by omega)]

theorem readI64_sound :
    SoundReader within 3 (fun number : Int × Nat => number.2) readI64 readI64 := by
  refine readLine_sound.bind fun line number hNumber => ?_
  obtain ⟨text, -, hNumber⟩ := Option.bind_eq_some_iff.mp hNumber
  obtain ⟨value, -, hNumber⟩ := Option.bind_eq_some_iff.mp hNumber
  cases hNumber
  rfl

theorem readBlob_sound (allowNull : Bool) :
    SoundReader within 3 (fun blob : Nat × Option (Nat × Nat) => blob.1) (readBlob allowNull)
      (readBlob allowNull) := by
  intro buffer rest blob hWithin hBlob
  obtain ⟨⟨len, pos⟩, hRead, hBlob⟩ := Option.bind_eq_some_iff.mp hBlob
  obtain ⟨hRest, hPos⟩ := readI64_sound buffer rest _ hWithin hRead
  dsimp only at hBlob hPos
  have hRewrite : readBlob allowNull (buffer ++ rest) =
      if len = -1 ∧ allowNull then some (pos, none)
      else if len < 0 then none
      else if (buffer ++ rest).length < pos + len.toNat + 2 then none
      else some (pos + len.toNat + 2, some (pos, len.toNat)) := by
    rw [readBlob, hRest]
    rfl
  rw [hRewrite]
  split at hBlob
  · cases hBlob
    next hNull => exact ⟨if_pos hNull, hPos⟩
  split at hBlob
  · cases hBlob
  split at hBlob
  · cases hBlob
  next hNull hSign hThere =>
    cases hBlob
    rw [if_neg hNull, if_neg hSign, if_neg (by rw [List.length_append]; omega)]
    exact ⟨rfl, by dsimp only; omega, by dsimp only; omega⟩

/-! ### Frames of one line -/

theorem parseNull_sound : SoundReader within 3 Parser.len parseNull parseNull := by
  refine readLine_sound.bind fun line parsed hParsed => ?_
  dsimp only at hParsed
  split at hParsed <;> cases hParsed
  rfl

theorem parseBoolean_sound : SoundReader within 3 Parser.len parseBoolean parseBoolean := by
  refine readLine_sound.bind fun line parsed hParsed => ?_
  dsimp only at hParsed
  split at hParsed
  · cases hParsed
    rfl
  · split at hParsed <;> cases hParsed
    rfl

theorem parseDouble_sound : SoundReader within 3 Parser.len parseDouble parseDouble := by
  refine readLine_sound.bind fun line parsed hParsed => ?_
  obtain ⟨text, -, hParsed⟩ := Option.bind_eq_some_iff.mp hParsed
  obtain ⟨value, -, hParsed⟩ := Option.bind_eq_some_iff.mp hParsed
  cases hParsed
  rfl

theorem parseBigNumber_sound : SoundReader within 3 Parser.len parseBigNumber parseBigNumber := by
  refine readLine_sound.bind fun line parsed hParsed => ?_
  dsimp only at hParsed
  split at hParsed <;> cases hParsed
  rfl

/-! ### Frames with frames inside -/

section

variable {early late : Bytes → Option Parser}

theorem parseElements_append (hParse : SoundReader within 3 Parser.len early late) (count : Nat)
    {buffer : Bytes} {size : Nat} {elements : List Parser} (hWithin : buffer.length ≤ within)
    (hElements : parseElements early count buffer = some (size, elements)) (rest : Bytes) :
    parseElements late count (buffer ++ rest) = some (size, elements) ∧ size ≤ buffer.length := by
  induction count generalizing buffer size elements with
  | zero =>
    cases hElements
    exact ⟨rfl, by simp⟩
  | succ count ih =>
    obtain ⟨element, hFirst, hElements⟩ := Option.bind_eq_some_iff.mp hElements
    obtain ⟨⟨others, more⟩, hMore, hElements⟩ := Option.bind_eq_some_iff.mp hElements
    cases hElements
    obtain ⟨hLate, -, hSize⟩ := hParse buffer rest element hWithin hFirst
    obtain ⟨hRest, hOthers⟩ := ih (by rw [List.length_drop]; omega) hMore
    rw [List.length_drop] at hOthers
    refine ⟨?_, by omega⟩
    rw [parseElements, hLate, Option.bind_eq_bind, Option.bind_some,
      List.drop_append_of_le_length hSize, hRest]
    rfl

theorem parseAggregate_sound (hParse : SoundReader (within - 1) 3 Parser.len early late)
    (kind : AggregateKind) : SoundReader within 3 Parser.len (parseAggregate early kind)
    (parseAggregate late kind) := by
  intro buffer rest parsed hWithin hParsed
  obtain ⟨⟨count, pos⟩, hRead, hParsed⟩ := Option.bind_eq_some_iff.mp hParsed
  obtain ⟨hRest, hLeast, hPos⟩ := readI64_sound buffer rest _ hWithin hRead
  dsimp only at hParsed hLeast hPos
  rw [parseAggregate, hRest, Option.bind_eq_bind, Option.bind_some]
  dsimp only
  split at hParsed
  next hNull =>
    cases hParsed
    exact ⟨if_pos hNull, hLeast, hPos⟩
  split at hParsed
  · cases hParsed
  next hNull hSign =>
    obtain ⟨⟨size, elements⟩, hElements, hParsed⟩ := Option.bind_eq_some_iff.mp hParsed
    cases hParsed
    obtain ⟨hLate, hSize⟩ :=
      parseElements_append hParse _ (by rw [List.length_drop]; omega) hElements rest
    rw [List.length_drop] at hSize
    rw [if_neg hNull, if_neg hSign, List.drop_append_of_le_length hPos, hLate]
    exact ⟨rfl, Nat.le_add_right_of_le hLeast, show pos + size ≤ _ by omega⟩

theorem parseAttribute_sound (hParse : SoundReader (within - 1) 3 Parser.len early late) :
    SoundReader within 3 Parser.len (parseAttribute early) (parseAttribute late) := by
  intro buffer rest parsed hWithin hParsed
  obtain ⟨attributes, hAttributes, hParsed⟩ := Option.bind_eq_some_iff.mp hParsed
  obtain ⟨hRest, hLeast, hSize⟩ :=
    parseAggregate_sound hParse .attribute buffer rest _ hWithin hAttributes
  rw [parseAttribute, hRest, Option.bind_eq_bind, Option.bind_some]
  split at hParsed
  next len pos elements =>
    obtain ⟨inner, hInner, hParsed⟩ := Option.bind_eq_some_iff.mp hParsed
    cases hParsed
    have hLen : len ≤ buffer.length := hSize
    have hStart : 3 ≤ len := hLeast
    obtain ⟨hLate, -, hInnerSize⟩ := hParse _ rest inner (by rw [List.length_drop]; omega) hInner
    rw [List.length_drop] at hInnerSize
    rw [← List.drop_append_of_le_length hLen] at hLate
    rw [hLate]
    exact ⟨rfl, Nat.le_add_right_of_le hLeast, show len + inner.len ≤ _ by omega⟩
  · cases hParsed

theorem parsePayload_sound {make : Nat → Nat × Nat → Parser}
    (hMake : ∀ len place, (make len place).len = len) :
    SoundReader within 3 Parser.len (parsePayload make) (parsePayload make) := by
  refine (readBlob_sound false).bind fun blob parsed hParsed => ?_
  obtain ⟨place, -, hParsed⟩ := Option.bind_eq_some_iff.mp hParsed
  cases hParsed
  exact hMake _ _

theorem parseMode_sound (hParse : SoundReader (within - 1) 3 Parser.len early late) (mode : Char) :
    SoundReader within 3 Parser.len (parseMode early mode) (parseMode late mode) := by
  unfold parseMode
  split
  · exact readLine_sound.map fun _ => rfl
  · exact readLine_sound.map fun _ => rfl
  · exact readI64_sound.map fun _ => rfl
  · exact (readBlob_sound true).map fun _ => rfl
  · exact parseAggregate_sound hParse .array
  · exact parseNull_sound
  · exact parseBoolean_sound
  · exact parseDouble_sound
  · exact parseBigNumber_sound
  · exact parsePayload_sound fun _ _ => rfl
  · exact parsePayload_sound fun _ _ => rfl
  · exact parseAggregate_sound hParse .map
  · exact parseAggregate_sound hParse .set
  · exact parseAggregate_sound hParse .push
  · exact parseAttribute_sound hParse
  · intro buffer rest parsed hWithin hParsed
    cases hParsed

end

/-- A measured frame stays as it is when more arrives, and the fuel does not matter as
long as there is one unit for each byte. -/
theorem parseMeta_sound {fuel more : Nat} (hFuel : min fuel within ≤ more) :
    SoundReader within 3 Parser.len (parseMeta fuel) (parseMeta more) := by
  induction fuel generalizing more within with
  | zero =>
    intro buffer rest parsed hWithin hParsed
    cases hParsed
  | succ fuel ih =>
    intro buffer rest parsed hWithin hParsed
    rw [parseMeta] at hParsed
    split at hParsed
    · cases hParsed
    next hLength =>
    cases more with
    | zero => omega
    | succ more =>
      have hHead : (buffer ++ rest).headD 0 = buffer.headD 0 := by
        cases buffer with
        | nil => simp at hLength
        | cons => rfl
      rw [parseMeta, if_neg (by rw [List.length_append]; omega), hHead]
      exact parseMode_sound (ih (by omega)) _ buffer rest parsed hWithin hParsed

end CacheCat.Protocol.Parser
