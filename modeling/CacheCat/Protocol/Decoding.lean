import CacheCat.Protocol.RoundTrip

/-! A connection's input as the codec reads it: chunks arrive, and whole frames are taken
off the front. What is taken does not depend on the chunks. The decoder keeps to the
protocol on a stream of well-formed frames, and only there: it does not look at the two
bytes after a payload, and waits for more where no frame can follow. -/
namespace CacheCat.Protocol

open CacheCat.Protocol.Parser (takeFromBytesStream parseMeta)
open Value (putLine)

/-! ### Chunks -/

variable {buffer rest : Bytes} {value : Value}

theorem takeFromBytesStream_none {left : Bytes}
    (hTake : takeFromBytesStream buffer = (none, left)) : left = buffer := by
  unfold takeFromBytesStream at hTake
  split at hTake
  · exact (Prod.mk.inj hTake).2.symm
  · cases hTake

theorem takeFromBytesStream_some (hTake : takeFromBytesStream buffer = (some value, rest)) :
    ∃ parsed : Parser, parseMeta buffer.length buffer = some parsed ∧
      parsed.take (buffer.take parsed.len) = value ∧ buffer.drop parsed.len = rest := by
  unfold takeFromBytesStream at hTake
  split at hTake
  · cases hTake
  next parsed hParse =>
    cases hTake
    exact ⟨parsed, hParse, rfl, rfl⟩

/-- What has been taken stays the same whatever arrives afterwards. -/
theorem takeFromBytesStream_append (more : Bytes)
    (hTake : takeFromBytesStream buffer = (some value, rest)) :
    takeFromBytesStream (buffer ++ more) = (some value, rest ++ more) := by
  obtain ⟨parsed, hParse, rfl, rfl⟩ := takeFromBytesStream_some hTake
  have hSound : Library.SoundReader buffer.length 3 Parser.len (parseMeta buffer.length)
      (parseMeta (buffer ++ more).length) :=
    Parser.parseMeta_sound (by rw [List.length_append]; omega)
  obtain ⟨hLate, -, hLen⟩ := hSound buffer more parsed (Nat.le_refl _) hParse
  rw [takeFromBytesStream, hLate]
  simp only [List.take_append_of_le_length hLen, List.drop_append_of_le_length hLen]

theorem takeFromBytesStream_shorter (hTake : takeFromBytesStream buffer = (some value, rest)) :
    rest.length < buffer.length := by
  obtain ⟨parsed, hParse, rfl, rfl⟩ := takeFromBytesStream_some hTake
  have hSound : Library.SoundReader buffer.length 3 Parser.len (parseMeta buffer.length)
      (parseMeta buffer.length) := Parser.parseMeta_sound (by omega)
  obtain ⟨-, hLeast, hLen⟩ := hSound buffer [] parsed (Nat.le_refl _) hParse
  rw [List.length_drop]
  omega

/-- `RespCodec::decode`. -/
def decode (buffer : Bytes) : Option (Value × Bytes) :=
  match takeFromBytesStream buffer with
  | (some value, rest) => some (value, rest)
  | (none, _) => none

theorem decode_eq_some_iff :
    decode buffer = some (value, rest) ↔ takeFromBytesStream buffer = (some value, rest) := by
  unfold decode
  split
  next hTake => simp [hTake]
  next hTake => simp [hTake]

def respCodec : Library.Decoder UInt8 Value where
  take := decode
  length_lt hTake := takeFromBytesStream_shorter (decode_eq_some_iff.mp hTake)
  append more hTake :=
    decode_eq_some_iff.mpr (takeFromBytesStream_append more (decode_eq_some_iff.mp hTake))

/-- Chunks that are drained one by one give the values and the rest of the whole stream;
a value is not changed by what follows it, and waiting leaves the buffer as it is. -/
theorem decode_independent_of_chunks (chunks : List Bytes) :
    chunks.foldl respCodec.receive ([], []) = respCodec.drain chunks.flatten ∧
    (∀ buffer rest more value, takeFromBytesStream buffer = (some value, rest) →
      takeFromBytesStream (buffer ++ more) = (some value, rest ++ more)) ∧
    (∀ buffer left, takeFromBytesStream buffer = (none, left) → left = buffer) :=
  ⟨Library.Decoder.foldl_receive_eq_drain respCodec rfl chunks,
    fun _ _ more _ => takeFromBytesStream_append more, fun _ _ => takeFromBytesStream_none⟩

/-- A request that arrives in two chunks, cut inside a CRLF. -/
theorem decode_independent_of_chunks_split :
    [bytes "*1\r", bytes "\n+PING\r\n:"].foldl respCodec.receive ([], []) =
        respCodec.drain (bytes "*1\r\n+PING\r\n:") ∧
      takeFromBytesStream (bytes "+a\r\n" ++ bytes ":1") = (some (.simpleString "a"), bytes ":1") ∧
      (takeFromBytesStream (bytes "+a\r")).2 = bytes "+a\r" := by
  have hChunks := decode_independent_of_chunks [bytes "*1\r", bytes "\n+PING\r\n:"]
  have hFlatten : [bytes "*1\r", bytes "\n+PING\r\n:"].flatten = bytes "*1\r\n+PING\r\n:" := by
    decide +kernel
  rw [hFlatten] at hChunks
  exact ⟨hChunks.1, hChunks.2.1 _ [] _ _ rfl, hChunks.2.2 _ _ rfl⟩

/-! ### Well-formed input -/

/-- The decoder does with the buffer what the protocol asks for: a value stands for the
well-formed frame that was consumed, and it waits only for the end of a frame. -/
def DecodesFrames (buffer : Bytes) : Prop :=
  match takeFromBytesStream buffer with
  | (some value, rest) => ∃ frame, buffer = frame ++ rest ∧ Frame .resp frame value
  | (none, _) => ∃ more value, more ≠ [] ∧ Frame .resp (buffer ++ more) value

theorem decodesFrames_some (hTake : takeFromBytesStream buffer = (some value, rest)) :
    DecodesFrames buffer ↔ ∃ frame, buffer = frame ++ rest ∧ Frame .resp frame value := by
  unfold DecodesFrames
  rw [hTake]

theorem decodesFrames_none {left : Bytes} (hTake : takeFromBytesStream buffer = (none, left)) :
    DecodesFrames buffer ↔ ∃ more value, more ≠ [] ∧ Frame .resp (buffer ++ more) value := by
  unfold DecodesFrames
  rw [hTake]

/-- A well-formed frame is at the front of the buffer, or will be once more has arrived. -/
def BeginsFrame (buffer : Bytes) : Prop :=
  ∃ frame value, Frame .resp frame value ∧ (frame <+: buffer ∨ buffer <+: frame)

theorem DecodesFrames.begins (hDecodes : DecodesFrames buffer) : BeginsFrame buffer := by
  rcases hTake : takeFromBytesStream buffer with ⟨_ | value, rest⟩
  · obtain ⟨more, value, -, hFrame⟩ := (decodesFrames_none hTake).mp hDecodes
    exact ⟨_, value, hFrame, .inr (List.prefix_append _ _)⟩
  · obtain ⟨frame, rfl, hFrame⟩ := (decodesFrames_some hTake).mp hDecodes
    exact ⟨frame, value, hFrame, .inl (List.prefix_append _ _)⟩

theorem Frame.decodes {frame : Bytes} (hFrame : Frame .resp frame value) (rest : Bytes) :
    DecodesFrames (frame ++ rest) :=
  (decodesFrames_some (hFrame.read.taken rest)).mpr ⟨frame, rfl, hFrame⟩

/-- The decoder takes nothing before the frame is complete. -/
theorem Frame.waits {more : Bytes} (hFrame : Frame .read (buffer ++ more) value)
    (hMore : more ≠ []) : (takeFromBytesStream buffer).1 = none := by
  rcases hTake : takeFromBytesStream buffer with ⟨_ | early, rest⟩
  · rfl
  · have hEarly := takeFromBytesStream_append more hTake
    have hWhole := hFrame.taken []
    rw [List.append_nil, hEarly] at hWhole
    have hRest : rest ++ more = [] := (Prod.mk.inj hWhole).2
    exact absurd (List.append_eq_nil_iff.mp hRest).2 hMore

/-- On the beginning of a frame, or on a frame and what follows it, the decoder keeps to
the protocol. -/
theorem BeginsFrame.decodes (h : BeginsFrame buffer) : DecodesFrames buffer := by
  obtain ⟨frame, value, hFrame, ⟨rest, rfl⟩ | ⟨more, rfl⟩⟩ := h
  · exact hFrame.decodes rest
  · by_cases hMore : more = []
    · subst hMore
      rw [List.append_nil] at hFrame
      simpa using hFrame.decodes []
    · have hWaits := hFrame.read.waits hMore
      rcases hTake : takeFromBytesStream buffer with ⟨_ | early, left⟩
      · exact (decodesFrames_none hTake).mpr ⟨more, value, hMore, hFrame⟩
      · rw [hTake] at hWaits
        cases hWaits

/-! ### Pipelined frames -/

theorem Frames.drained {body : Bytes} {values : List Value} (rest : Bytes) :
    Frames .read body values →
      respCodec.drain (body ++ rest) =
        (values ++ (respCodec.drain rest).1, (respCodec.drain rest).2)
  | .nil => rfl
  | .cons hFrame hRest => by
    rw [List.append_assoc, Library.Decoder.drain_of_some (decode_eq_some_iff.mpr (hFrame.taken _)),
      hRest.drained rest]
    rfl

/-- Frames that arrive one after another, cut anywhere, are decoded to their values in order,
and what follows them as if it stood alone. -/
theorem decode_pipelined {chunks : List Bytes} {body : Bytes} {values : List Value}
    (hFrames : Frames .read body values) (hChunks : chunks.flatten = body ++ rest) :
    chunks.foldl respCodec.receive ([], []) =
      (values ++ (respCodec.drain rest).1, (respCodec.drain rest).2) := by
  rw [Library.Decoder.foldl_receive_eq_drain respCodec rfl, hChunks, hFrames.drained rest]

/-- Two requests and the start of a third, cut inside both. -/
theorem decode_pipelined_nulls :
    [bytes "$-1\r", bytes "\n_\r\n+"].foldl respCodec.receive ([], []) =
      ([.bulkString none, .null], bytes "+") := by
  have hFrames : Frames .read (bytes "$-1\r\n_\r\n") [.bulkString none, .null] :=
    .cons .nullBulkString (.cons .null .nil)
  have hChunks : [bytes "$-1\r", bytes "\n_\r\n+"].flatten = bytes "$-1\r\n_\r\n" ++ bytes "+" := by
    decide +kernel
  have hRest : respCodec.drain (bytes "+") = ([], bytes "+") := Library.Decoder.drain_of_none rfl
  rw [decode_pipelined hFrames hChunks, hRest]
  rfl

/-! ### Other input -/

theorem crlf_suffix_putLine (mode : Char) (line : Bytes) : crlf <:+ putLine mode line :=
  ⟨mode.toUInt8 :: line, rfl⟩

theorem Blob.crlf_suffix {mode : Char} {frame data : Bytes} (hBlob : Blob mode frame data) :
    crlf <:+ frame := by
  obtain ⟨length, hLength⟩ := hBlob
  rw [← List.append_assoc]
  exact List.suffix_append _ _

theorem crlf_suffix_append {front body : Bytes} (hFront : crlf <:+ front)
    (hBody : body = [] ∨ crlf <:+ body) : crlf <:+ front ++ body := by
  rcases hBody with rfl | hBody
  · rwa [List.append_nil]
  · exact hBody.trans (List.suffix_append _ _)

mutual

/-- Whatever it is, a frame ends with a CRLF. -/
theorem Frame.crlf_suffix {grammar : Grammar} {frame : Bytes} {value : Value} :
    Frame grammar frame value → crlf <:+ frame
  | .simpleString _ => crlf_suffix_putLine _ _
  | .error _ => crlf_suffix_putLine _ _
  | .integer _ => crlf_suffix_putLine _ _
  | .bulkString hBlob => hBlob.crlf_suffix
  | .nullBulkString => crlf_suffix_putLine _ _
  | .nullArray => crlf_suffix_putLine _ _
  | .null => crlf_suffix_putLine _ _
  | .boolean _ => crlf_suffix_putLine _ _
  | .double _ => crlf_suffix_putLine _ _
  | .bigNumber _ => crlf_suffix_putLine _ _
  | .bulkError hBlob => hBlob.crlf_suffix
  | .verbatimString _ hBlob => hBlob.crlf_suffix
  | .array _ hItems => crlf_suffix_append (crlf_suffix_putLine _ _) hItems.crlf_suffix
  | .set _ hItems => crlf_suffix_append (crlf_suffix_putLine _ _) hItems.crlf_suffix
  | .push _ hItems => crlf_suffix_append (crlf_suffix_putLine _ _) hItems.crlf_suffix
  | .map _ hItems => crlf_suffix_append (crlf_suffix_putLine _ _) hItems.crlf_suffix
  | .attribute _ hAttributes hInner => by
    rw [← List.append_assoc]
    exact hInner.crlf_suffix.trans (List.suffix_append _ _)

theorem Frames.crlf_suffix {grammar : Grammar} {body : Bytes} {values : List Value} :
    Frames grammar body values → body = [] ∨ crlf <:+ body
  | .nil => .inl rfl
  | .cons hFrame hRest => .inr (crlf_suffix_append hFrame.crlf_suffix hRest.crlf_suffix)

end

/-- What stands in the line of a status. -/
theorem Frame.of_plus {grammar : Grammar} {line : Bytes}
    (hFrame : Frame grammar (putLine '+' line) value) : grammar.line line := by
  generalize hEq : putLine '+' line = frame at hFrame
  cases hFrame with
  | simpleString hLine =>
    rw [List.append_cancel_right (List.cons.inj hEq).2]
    exact hLine
  | bulkString hBlob | bulkError hBlob | verbatimString _ hBlob =>
    cases hBlob
    exact absurd (List.cons.inj hEq).1 (by decide)
  | _ => exact absurd (List.cons.inj hEq).1 (by decide)

/-- What stands in the line of a double. -/
theorem Frame.of_comma {grammar : Grammar} {line : Bytes} {d : Float}
    (hFrame : Frame grammar (putLine ',' line) (.double d)) :
    ∃ text, line = bytes text ∧ grammar.double text d := by
  generalize hEq : putLine ',' line = frame at hFrame
  cases hFrame with
  | double hText => exact ⟨_, List.append_cancel_right (List.cons.inj hEq).2, hText⟩
  | _ => exact absurd (List.cons.inj hEq).1 (by decide)

theorem decodesFrames_all (hTake : takeFromBytesStream buffer = (some value, [])) :
    DecodesFrames buffer ↔ Frame .resp buffer value := by
  rw [decodesFrames_some hTake]
  constructor
  · rintro ⟨frame, hFrame, hWell⟩
    rwa [hFrame, List.append_nil]
  · exact fun hWell => ⟨buffer, (List.append_nil buffer).symm, hWell⟩

/-- A line that the decoder reads may hold a carriage return or a line feed. -/
theorem decodesFrames_status_iff {line : Bytes} (hLine : OneLine line) :
    DecodesFrames (putLine '+' line) ↔ (13 : UInt8) ∉ line ∧ (10 : UInt8) ∉ line := by
  have hFrame : Frame .read (putLine '+' line) _ := .simpleString hLine
  have hTake := hFrame.taken []
  rw [List.append_nil] at hTake
  rw [decodesFrames_all hTake]
  exact ⟨Frame.of_plus, fun hPlain => .simpleString hPlain⟩

/-- A text that Rust reads as a float need not be a double of the protocol. -/
theorem decodesFrames_double_iff {text : String} {d : Float}
    (hText : Parser.doubleOfText text.toList = some d) :
    DecodesFrames (putLine ',' (bytes text)) ↔ IsDouble text d := by
  have hFrame : Frame .read (putLine ',' (bytes text)) (.double d) := .double hText
  have hTake := hFrame.taken []
  rw [List.append_nil] at hTake
  rw [decodesFrames_all hTake]
  constructor
  · intro hFrame
    obtain ⟨other, hSame, hDouble⟩ := hFrame.of_comma
    rwa [← lossy_bytes text, hSame, lossy_bytes]
  · exact fun hDouble => .double hDouble

/-- The two bytes after a payload are not looked at. -/
theorem decodesFrames_payload_iff {length : String} {data ending : Bytes}
    (hLength : IsLength length data.length) (hEnding : ending.length = 2) :
    DecodesFrames (putLine '$' (bytes length) ++ (data ++ ending)) ↔ ending = crlf := by
  have hTake := (reads_bulkString hLength hEnding).taken []
  rw [List.append_nil] at hTake
  rw [decodesFrames_all hTake]
  constructor
  · intro hFrame
    have hSuffix := hFrame.crlf_suffix
    rw [← List.append_assoc] at hSuffix
    exact ((List.suffix_of_suffix_length_le hSuffix (List.suffix_append _ _)
      (by rw [hEnding]; rfl)).eq_of_length (by rw [hEnding]; rfl)).symm
  · rintro rfl
    exact .bulkString ⟨length, hLength⟩

/-- The decoder keeps to the protocol exactly on input that does. It takes more than the
protocol allows: lines with a lone CR or LF, floats that are no doubles, payloads without
their CRLF. -/
theorem decodesFrames_iff (buffer : Bytes) :
    (DecodesFrames buffer ↔ BeginsFrame buffer) ∧
    (∀ line, OneLine line →
      (DecodesFrames (putLine '+' line) ↔ (13 : UInt8) ∉ line ∧ (10 : UInt8) ∉ line)) ∧
    (∀ text d, Parser.doubleOfText text.toList = some d →
      (DecodesFrames (putLine ',' (bytes text)) ↔ IsDouble text d)) ∧
    (∀ length data ending, IsLength length data.length → ending.length = 2 →
      (DecodesFrames (putLine '$' (bytes length) ++ (data ++ ending)) ↔ ending = crlf)) :=
  ⟨⟨DecodesFrames.begins, BeginsFrame.decodes⟩, fun _ => decodesFrames_status_iff,
    fun _ _ => decodesFrames_double_iff, fun _ _ _ => decodesFrames_payload_iff⟩

/-- A byte that selects no frame is never got past. -/
theorem takeFromBytesStream_unknown_mode (more : Bytes) :
    takeFromBytesStream (bytes "xyz" ++ more) = (none, bytes "xyz" ++ more) := by
  have hParse : parseMeta (bytes "xyz" ++ more).length (bytes "xyz" ++ more) = none := by
    rfl
  rw [takeFromBytesStream, hParse]

/-- No double begins with its point. -/
theorem IsDouble.toList_ne {text : String} {d : Float} (h : IsDouble text d) (rest : List Char) :
    text.toList ≠ '.' :: rest := by
  intro hEq
  cases h with
  | unsigned h =>
    obtain ⟨c, tail, rfl, hDigit⟩ := h.head_digit
    rw [String.toList_ofList] at hEq
    cases hEq
    cases hDigit
  | plus h | minus h =>
    rw [String.toList_ofList] at hEq
    cases hEq
  | infinity | minusInfinity | nan => cases hEq

/-- A payload is accepted without the CRLF after it, a status with a line feed in it, and a
double without digits before its point; and a connection that has sent three bytes of
something else waits for ever. -/
theorem not_decodesFrames :
    takeFromBytesStream (bytes "$1\r\naXY") = (some (.bulkString (some (bytes "a"))), []) ∧
      ¬ DecodesFrames (bytes "$1\r\naXY") ∧
      takeFromBytesStream (bytes "+a\nb\rc\r\n") = (some (.simpleString "a\nb\rc"), []) ∧
      ¬ DecodesFrames (bytes "+a\nb\rc\r\n") ∧
      (takeFromBytesStream (bytes ",.5\r\n")).2 = [] ∧ ¬ DecodesFrames (bytes ",.5\r\n") ∧
      (∀ more, (takeFromBytesStream (bytes "xyz" ++ more)).1 = none) ∧
      ¬ DecodesFrames (bytes "xyz") := by
  have hStatus : bytes "+a\nb\rc\r\n" = putLine '+' (bytes "a\nb\rc") := by decide +kernel
  have hDouble : bytes ",.5\r\n" = putLine ',' (bytes ".5") := by decide +kernel
  have hBulk : bytes "$1\r\naXY" = putLine '$' (bytes "1") ++ (bytes "a" ++ bytes "XY") := by
    decide +kernel
  have hLength : IsLength "1" (bytes "a").length := isLength_toString (n := 1) (by decide)
  have hText : Parser.doubleOfText ".5".toList = some _ := rfl
  refine ⟨rfl, ?_, rfl, ?_, rfl, ?_, fun more => by rw [takeFromBytesStream_unknown_mode], ?_⟩
  · rw [hBulk, decodesFrames_payload_iff hLength (by decide +kernel)]
    decide +kernel
  · rw [hStatus, decodesFrames_status_iff (by decide +kernel)]
    decide +kernel
  · rw [hDouble, decodesFrames_double_iff hText]
    exact fun hDouble => hDouble.toList_ne ['5'] rfl
  · have hWait := takeFromBytesStream_unknown_mode []
    rw [List.append_nil] at hWait
    rw [decodesFrames_none hWait]
    rintro ⟨more, value, -, hFrame⟩
    have hWhole := hFrame.read.taken []
    rw [List.append_assoc, takeFromBytesStream_unknown_mode] at hWhole
    cases hWhole

end CacheCat.Protocol
