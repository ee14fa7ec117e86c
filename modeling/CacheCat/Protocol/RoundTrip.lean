import CacheCat.Protocol.Frame

/-! What a client reads when it decodes a reply: the reply itself as far as the protocol
of the connection has its type, and an older form of it otherwise. -/
namespace CacheCat

open Protocol

namespace Value

/-! ### What arrives -/

mutual

/-- The reply as RESP3 sends it: one null, and scores in pairs. -/
def resp3Form : Value → Value
  | bulkString none => null
  | array none => null
  | array (some items) => array (some (resp3Items items))
  | map pairs => map (resp3Pairs pairs)
  | set items => set (resp3Items items)
  | push items => push (resp3Items items)
  | memberScores pairs =>
    array (some (pairs.map fun pair => array (some [bulkString (some pair.1), double pair.2])))
  | value => value

def resp3Items : List Value → List Value
  | [] => []
  | item :: items => resp3Form item :: resp3Items items

def resp3Pairs : List (Value × Value) → List (Value × Value)
  | [] => []
  | (key, value) :: pairs => (resp3Form key, resp3Form value) :: resp3Pairs pairs

end

section

variable (display : Float → String)

def doubleText (d : Float) : Value := bulkString (some (bytes (formatDouble display d)))

mutual

/-- The RESP2 downgrade. -/
def resp2Form : Value → Value
  | null => bulkString none
  | boolean value => integer (if value then 1 else 0)
  | double value => doubleText display value
  | bigNumber text => bulkString (some (bytes text))
  | verbatimString _ data => bulkString (some data)
  | bulkError text => error text
  | array (some items) => array (some (resp2Items items))
  | map pairs => array (some (resp2Pairs pairs))
  | set items => array (some (resp2Items items))
  | push items => array (some (resp2Items items))
  | memberScores pairs =>
    array (some (pairs.flatMap fun pair => [bulkString (some pair.1), doubleText display pair.2]))
  | value => value

def resp2Items : List Value → List Value
  | [] => []
  | item :: items => resp2Form item :: resp2Items items

def resp2Pairs : List (Value × Value) → List Value
  | [] => []
  | (key, value) :: pairs => resp2Form key :: resp2Form value :: resp2Pairs pairs

end

/-! ### What can be sent -/

/-- The printed double is read as the same one. -/
def PrintsBack (d : Float) : Prop :=
  Parser.doubleOfText (formatDouble display d).toList = some d

variable (proto : Nat)

mutual

/-- A reply whose lines are lines and whose numbers are numbers, without a batch. -/
def WellFormed : Value → Prop
  | simpleString text => OneLine (bytes text)
  | error text => OneLine (bytes text)
  | integer value => Text.i64Min ≤ value ∧ value ≤ Text.i64Max
  | double value => proto = 3 → PrintsBack display value
  | bigNumber text => proto = 3 → IsBigNumber text
  | verbatimString format _ => proto = 3 → (bytes format).length = 3
  | bulkError text => proto ≠ 3 → OneLine (bytes text)
  | memberScores pairs => proto = 3 → ∀ pair ∈ pairs, PrintsBack display pair.2
  | array (some items) => ItemsWellFormed items
  | map pairs => PairsWellFormed pairs
  | set items => ItemsWellFormed items
  | push items => ItemsWellFormed items
  | batch _ => False
  | _ => True

def ItemsWellFormed : List Value → Prop
  | [] => True
  | item :: items => WellFormed item ∧ ItemsWellFormed items

def PairsWellFormed : List (Value × Value) → Prop
  | [] => True
  | (key, value) :: pairs => WellFormed key ∧ WellFormed value ∧ PairsWellFormed pairs

end

end

section

variable (proto : Nat)

mutual

/-- What the reply sends as a line is one. A batch is several replies. -/
def Lines : Value → Prop
  | simpleString text => OneLine (bytes text)
  | error text => OneLine (bytes text)
  | bigNumber text => proto = 3 → IsBigNumber text
  | bulkError text => proto ≠ 3 → OneLine (bytes text)
  | array (some items) => ItemsLines items
  | map pairs => PairsLines pairs
  | set items => ItemsLines items
  | push items => ItemsLines items
  | batch _ => False
  | _ => True

def ItemsLines : List Value → Prop
  | [] => True
  | item :: items => Lines item ∧ ItemsLines items

def PairsLines : List (Value × Value) → Prop
  | [] => True
  | (key, value) :: pairs => Lines key ∧ Lines value ∧ PairsLines pairs

end

end

mutual

/-- What the type of the source guarantees: every integer is an `i64`. -/
def Held : Value → Prop
  | integer value => Text.i64Min ≤ value ∧ value ≤ Text.i64Max
  | array (some items) => ItemsHeld items
  | map pairs => PairsHeld pairs
  | set items => ItemsHeld items
  | push items => ItemsHeld items
  | _ => True

def ItemsHeld : List Value → Prop
  | [] => True
  | item :: items => Held item ∧ ItemsHeld items

def PairsHeld : List (Value × Value) → Prop
  | [] => True
  | (key, value) :: pairs => Held key ∧ Held value ∧ PairsHeld pairs

end

end Value

namespace Protocol

open Value

/-! ### Numbers in headers -/

theorem isDigits_toString (n : Nat) : IsDigits (toString n).toList n where
  nonempty := by
    rw [Text.toList_toString_nat]
    exact Nat.toDigits_ne_nil
  digits _ := Text.isDigit_of_mem_toString
  value := by
    rw [Text.toList_toString_nat]
    exact Nat.ofDigitChars_toDigits (by omega) (by omega)

variable {n : Nat}

theorem isLength_toString (hFits : (n : Int) ≤ Text.i64Max) : IsLength (toString (n : Int)) n :=
  ⟨isDigits_toString n, hFits⟩

theorem isInteger_toString {value : Int} (hLow : Text.i64Min ≤ value)
    (hHigh : value ≤ Text.i64Max) : IsInteger (toString value) value := by
  cases value with
  | ofNat n =>
    have hInteger := IsInteger.unsigned (isDigits_toString n) hHigh
    rwa [String.ofList_toList] at hInteger
  | negSucc n =>
    have hInteger := IsInteger.minus (isDigits_toString (n + 1)) hLow
    have hText : String.ofList ('-' :: (toString (n + 1)).toList) = toString (Int.negSucc n) := by
      rw [String.ofList_cons, String.ofList_toList]
      rfl
    rwa [hText] at hInteger

variable {data : Bytes}

theorem putBlob_blob (mode : Char) (hFits : (data.length : Int) ≤ Text.i64Max) :
    Blob mode (putBlob mode data) data :=
  .mk _ (isLength_toString hFits)

variable {frame : Bytes} {value : Value}

theorem Frame.three_le_length (hFrame : Frame .read frame value) : 3 ≤ frame.length := by
  obtain ⟨parsed, hParse, hLen, -⟩ := hFrame.reads
  have hSound : Library.SoundReader frame.length 3 Parser.len (Parser.parseMeta frame.length)
      (Parser.parseMeta frame.length) := Parser.parseMeta_sound (by omega)
  rw [← hLen]
  exact (hSound frame [] parsed (Nat.le_refl _) hParse).2.1

theorem Frames.length_le {body : Bytes} {values : List Value} : Frames .read body values →
    values.length ≤ body.length
  | .nil => Nat.le_refl _
  | .cons hFrame hRest => by
    have hFirst := hFrame.three_le_length
    have hOthers := hRest.length_le
    rw [List.length_cons, List.length_append]
    omega

/-- A bound on a whole encoding. A `Vec` holds no more bytes than this. -/
def Fits (encoding : Bytes) : Prop := (encoding.length : Int) ≤ Text.i64Max

theorem Fits.left {first rest : Bytes} (hFits : Fits (first ++ rest)) : Fits first := by
  rw [Fits, List.length_append] at hFits
  rw [Fits]
  omega

theorem Fits.right {first rest : Bytes} (hFits : Fits (first ++ rest)) : Fits rest := by
  rw [Fits, List.length_append] at hFits
  rw [Fits]
  omega

theorem Frames.isLength {body : Bytes} {values : List Value} (hFrames : Frames .read body values)
    (hFits : Fits body) (hCount : n ≤ values.length) : IsLength (toString (n : Int)) n := by
  have hLength := hFrames.length_le
  rw [Fits] at hFits
  exact isLength_toString (by omega)

theorem Frames.isLength_items {body : Bytes} {values : List Value}
    (hFrames : Frames .read body values) (hFits : Fits body) (hCount : values.length = n) :
    IsLength (toString (n : Int)) values.length := by
  rw [← hCount]
  exact hFrames.isLength hFits (Nat.le_refl _)

theorem putBulk_frame (hFits : Fits (putBulk data)) :
    Frame .read (putBulk data) (.bulkString (some data)) :=
  .bulkString (putBlob_blob '$' hFits.right.left)

section

variable {display : Float → String}

/-! ### RESP3 -/

/-- Every double is printed as some double. -/
def PrintsDoubles (display : Float → String) : Prop :=
  ∀ d, ∃ read, Parser.doubleOfText (formatDouble display d).toList = some read

/-- Of a reply or a part of one: it is well formed, or at least sent in lines and printed
as something. -/
def Sendable (display : Float → String) (wellFormed lines held : Prop) : Prop :=
  wellFormed ∨ lines ∧ held ∧ PrintsDoubles display

theorem Sendable.mono {well lines held well' lines' held' : Prop}
    (h : Sendable display well lines held) (hWell : well → well') (hLines : lines → lines')
    (hHeld : held → held') : Sendable display well' lines' held' :=
  Or.imp hWell (And.imp hLines (And.imp_left hHeld)) h

theorem putNull3_frame (resp2 : String) : Frame .read (putNull 3 resp2) .null := by
  exact .null

/-- The score is read as itself if it is printed back. -/
theorem double_frame {d : Float} (hPrints : PrintsBack display d ∨ PrintsDoubles display) :
    ∃ read, Frame .read (putLine ',' (bytes (formatDouble display d))) (.double read) ∧
      (PrintsBack display d → read = d) := by
  obtain ⟨read, hRead⟩ := hPrints.elim (fun hBack => ⟨d, hBack⟩) fun hPrints => hPrints d
  exact ⟨read, .double hRead, fun hBack => Option.some.inj (hRead.symm.trans hBack)⟩

theorem memberScores3_frames {pairs : List (Bytes × Float)}
    (hPrints : (∀ pair ∈ pairs, PrintsBack display pair.2) ∨ PrintsDoubles display)
    (hFits : Fits (pairs.flatMap (putMemberScore display 3))) :
    ∃ read, Frames .read (pairs.flatMap (putMemberScore display 3)) read ∧
      read.length = pairs.length ∧ ((∀ pair ∈ pairs, PrintsBack display pair.2) →
        read = pairs.map fun pair =>
          .array (some [.bulkString (some pair.1), .double pair.2])) := by
  induction pairs with
  | nil => exact ⟨[], .nil, rfl, fun _ => rfl⟩
  | cons pair pairs ih =>
    rw [List.flatMap_cons] at hFits ⊢
    simp only [List.mem_cons, forall_eq_or_imp] at hPrints ⊢
    obtain ⟨read, hRest, hLength, hForm⟩ := ih (hPrints.imp_left And.right) hFits.right
    obtain ⟨score, hScore, hBack⟩ := double_frame (hPrints.imp_left And.left)
    have hTwo : bytes "*2\r\n" = putLine '*' (bytes "2") := by decide +kernel
    have hPair := hFits.left
    have hCount : IsLength "2" 2 := isLength_toString (n := 2) (by decide)
    rw [putMemberScore] at hPair ⊢
    rw [← List.append_nil (putLine ',' _)]
    refine ⟨_, .cons (@Frame.array .read _ _ [_, _] hCount
      (.cons (putBulk_frame hPair.right.left) (.cons hScore .nil))) hRest,
        congrArg (· + 1) hLength, ?_⟩
    rintro ⟨hFirst, hOthers⟩
    rw [hBack hFirst, hForm hOthers, List.map_cons]

/-- The RESP3 encoding of a reply, if it has one, is a frame. -/
def Framed3 (display : Float → String) (value : Value) : Prop :=
  Sendable display (value.WellFormed display 3) (value.Lines 3) value.Held →
    Fits (encodeTo display 3 value) →
    ∃ read, Frame .read (encodeTo display 3 value) read ∧
      (value.WellFormed display 3 → read = resp3Form value)

/-- A reply that arrives as it is sent. -/
theorem Framed3.of_frame (h : Sendable display (value.WellFormed display 3) (value.Lines 3)
      value.Held → Fits (encodeTo display 3 value) → Frame .read (encodeTo display 3 value)
      (resp3Form value)) : Framed3 display value :=
  fun hSend hFits => ⟨_, h hSend hFits, fun _ => rfl⟩

mutual

theorem encodeTo3_frame : (value : Value) → Framed3 display value
  | .simpleString text => .of_frame fun hSend _ => by
    have hFrame : Frame .read _ _ := .simpleString (hSend.elim id And.left)
    rwa [lossy_bytes] at hFrame
  | .error text => .of_frame fun hSend _ => by
    have hFrame : Frame .read _ _ := .error (hSend.elim id And.left)
    rwa [lossy_bytes] at hFrame
  | .integer value => .of_frame fun hSend _ => by
    obtain ⟨hLow, hHigh⟩ := hSend.elim id fun hSend => hSend.2.1
    exact .integer (isInteger_toString hLow hHigh)
  | .null | .bulkString none | .array none => .of_frame fun _ _ => putNull3_frame _
  | .bulkString (some data) => .of_frame fun _ hFits => putBulk_frame hFits
  | .array (some items) | .set items | .push items => by
    intro hSend hFits
    obtain ⟨read, hItems, hLength, hForm⟩ := encodeItems3_frames items hSend hFits.right
    have hCount := hItems.isLength_items hFits.right hLength
    first
      | refine ⟨_, .array hCount hItems, fun hWell => ?_⟩
      | refine ⟨_, .set hCount hItems, fun hWell => ?_⟩
      | refine ⟨_, .push hCount hItems, fun hWell => ?_⟩
    rw [hForm hWell, resp3Form]
  | .map pairs => by
    intro hSend hFits
    obtain ⟨read, hPairs, hLength, hForm⟩ := encodePairs3_frames pairs hSend hFits.right
    have hCount : IsLength (toString (pairs.length : Int)) pairs.length :=
      hPairs.isLength hFits.right (by rw [length_flattenPairs]; omega)
    refine ⟨_, .map (hLength ▸ hCount) hPairs, fun hWell => ?_⟩
    rw [hForm hWell, resp3Form]
  | .boolean value => .of_frame fun _ _ => by
    have hLine : encodeTo display 3 (.boolean value) =
        putLine '#' (bytes (if value then "t" else "f")) := by
      cases value <;> rfl
    rw [hLine]
    exact .boolean value
  | .double value => by
    intro hSend _
    obtain ⟨read, hFrame, hBack⟩ :=
      double_frame (hSend.imp (fun hWell => hWell rfl) fun hSend => hSend.2.2)
    exact ⟨_, hFrame, fun hWell => congrArg Value.double (hBack (hWell rfl))⟩
  | .bigNumber text => .of_frame fun hSend _ => .bigNumber (hSend.elim id And.left rfl)
  | .verbatimString format data => by
    intro _ hFits
    have hHint : (formatHint format).length = 3 := by
      simp [formatHint]
      omega
    refine ⟨_, .verbatimString hHint (putBlob_blob '=' hFits.right.left), fun hWell => ?_⟩
    have hFormat : formatHint format = bytes format := by
      rw [formatHint, hWell rfl, List.take_of_length_le (by rw [hWell rfl])]
      simp
    rw [hFormat, lossy_bytes]
    rfl
  | .bulkError text => .of_frame fun _ hFits => by
    have hFrame : Frame .read _ _ := .bulkError (putBlob_blob '!' hFits.right.left)
    rwa [lossy_bytes] at hFrame
  | .memberScores pairs => by
    intro hSend hFits
    obtain ⟨read, hPairs, hLength, hForm⟩ :=
      memberScores3_frames (hSend.imp (fun hWell => hWell rfl) fun hSend => hSend.2.2) hFits.right
    refine ⟨_, .array (hPairs.isLength_items hFits.right hLength) hPairs, fun hWell => ?_⟩
    rw [hForm (hWell rfl), resp3Form]
  | .batch _ => fun hSend => (hSend.elim id And.left).elim

theorem encodeItems3_frames : (items : List Value) →
    Sendable display (ItemsWellFormed display 3 items) (ItemsLines 3 items) (ItemsHeld items) →
    Fits (encodeItems display 3 items) →
    ∃ read, Frames .read (encodeItems display 3 items) read ∧ read.length = items.length ∧
      (ItemsWellFormed display 3 items → read = resp3Items items)
  | [], _, _ => ⟨[], .nil, rfl, fun _ => rfl⟩
  | item :: items, hSend, hFits => by
    obtain ⟨first, hFirst, hForm⟩ :=
      encodeTo3_frame item (hSend.mono And.left And.left And.left) hFits.left
    obtain ⟨read, hRest, hLength, hForms⟩ :=
      encodeItems3_frames items (hSend.mono And.right And.right And.right) hFits.right
    refine ⟨_, .cons hFirst hRest, congrArg (· + 1) hLength, fun hWell => ?_⟩
    rw [hForm hWell.1, hForms hWell.2, resp3Items]

theorem encodePairs3_frames : (pairs : List (Value × Value)) →
    Sendable display (PairsWellFormed display 3 pairs) (PairsLines 3 pairs) (PairsHeld pairs) →
    Fits (encodePairs display 3 pairs) →
    ∃ read, Frames .read (encodePairs display 3 pairs) (flattenPairs read) ∧
      read.length = pairs.length ∧ (PairsWellFormed display 3 pairs → read = resp3Pairs pairs)
  | [], _, _ => ⟨[], .nil, rfl, fun _ => rfl⟩
  | (key, value) :: pairs, hSend, hFits => by
    have hOthers := hSend.mono And.right And.right And.right
    obtain ⟨first, hFirst, hForm⟩ :=
      encodeTo3_frame key (hSend.mono And.left And.left And.left) hFits.left
    obtain ⟨second, hSecond, hForm'⟩ :=
      encodeTo3_frame value (hOthers.mono And.left And.left And.left) hFits.right.left
    obtain ⟨read, hRest, hLength, hForms⟩ :=
      encodePairs3_frames pairs (hOthers.mono And.right And.right And.right) hFits.right.right
    refine ⟨(first, second) :: read, .cons hFirst (.cons hSecond hRest), congrArg (· + 1) hLength,
      fun hWell => ?_⟩
    rw [hForm hWell.1, hForm' hWell.2.1, hForms hWell.2.2, resp3Pairs]

end

/-! ### RESP2 -/

theorem length_resp2Items (items : List Value) :
    (resp2Items display items).length = items.length := by
  induction items with
  | nil => rfl
  | cons item items ih => rw [resp2Items, List.length_cons, ih, List.length_cons]

theorem length_resp2Pairs (pairs : List (Value × Value)) :
    (resp2Pairs display pairs).length = pairs.length * 2 := by
  induction pairs with
  | nil => rfl
  | cons pair pairs ih =>
    rw [resp2Pairs, List.length_cons, List.length_cons, List.length_cons]
    omega

section

variable {proto : Nat} (hProto : proto ≠ 3)

include hProto

theorem nullBulk2_frame : Frame .read (putNull proto "$-1\r\n") (.bulkString none) := by
  have hNull : bytes "$-1\r\n" = putLine '$' (bytes "-1") := by decide +kernel
  rw [putNull, if_neg hProto]
  exact .nullBulkString

/-- What RESP3 has a type for and RESP2 sends as a payload. -/
theorem putBulk2_frame {three : Bytes} (hFits : Fits (if proto = 3 then three else putBulk data)) :
    Frame .read (if proto = 3 then three else putBulk data) (.bulkString (some data)) := by
  rw [if_neg hProto] at hFits ⊢
  exact putBulk_frame hFits

theorem memberScores2_frames {pairs : List (Bytes × Float)}
    (hFits : Fits (pairs.flatMap (putMemberScore display proto))) :
    Frames .read (pairs.flatMap (putMemberScore display proto))
      (pairs.flatMap fun pair => [.bulkString (some pair.1), doubleText display pair.2]) := by
  induction pairs with
  | nil => exact .nil
  | cons pair pairs ih =>
    rw [List.flatMap_cons] at hFits ⊢
    have hPair := hFits.left
    rw [putMemberScore, if_neg hProto] at hPair ⊢
    rw [List.append_assoc]
    exact .cons (putBulk_frame hPair.left) (.cons (putBulk_frame hPair.right) (ih hFits.right))

end

/-- The RESP2 encoding of a reply, if it has one, is a frame. -/
def Framed2 (display : Float → String) (proto : Nat) (value : Value) : Prop :=
  value.WellFormed display proto → Fits (encodeTo display proto value) →
    Frame .read (encodeTo display proto value) (resp2Form display value)

mutual

theorem encodeTo2_frame {proto : Nat} (hProto : proto ≠ 3) :
    (value : Value) → Framed2 display proto value
  | .simpleString text => by
    intro hWell _
    have hFrame : Frame .read _ _ := .simpleString hWell
    rwa [lossy_bytes] at hFrame
  | .error text => by
    intro hWell _
    have hFrame : Frame .read _ _ := .error hWell
    rwa [lossy_bytes] at hFrame
  | .integer value => fun hWell _ => .integer (isInteger_toString hWell.1 hWell.2)
  | .null | .bulkString none => fun _ _ => nullBulk2_frame hProto
  | .bulkString (some data) => fun _ hFits => putBulk_frame hFits
  | .array none => by
    intro _ _
    have hNull : bytes "*-1\r\n" = putLine '*' (bytes "-1") := by decide +kernel
    rw [encodeTo, putNull, if_neg hProto]
    exact .nullArray
  | .array (some items) => by
    intro hWell hFits
    have hItems := encodeItems2_frames hProto items hWell hFits.right
    exact .array (hItems.isLength_items hFits.right (length_resp2Items items)) hItems
  | .map pairs => by
    intro hWell hFits
    have hPairs := encodePairs2_frames hProto pairs hWell hFits.right
    rw [encodeTo, if_neg hProto]
    exact .array (hPairs.isLength_items hFits.right (length_resp2Pairs pairs)) hPairs
  | .set items | .push items => by
    intro hWell hFits
    have hItems := encodeItems2_frames hProto items hWell hFits.right
    rw [encodeTo, if_neg hProto]
    exact .array (hItems.isLength_items hFits.right (length_resp2Items items)) hItems
  | .boolean value => by
    intro _ _
    have hLine : bytes (if value then ":1\r\n" else ":0\r\n") =
        putLine ':' (bytes (toString (if value then (1 : Int) else 0))) := by
      cases value <;> rfl
    rw [encodeTo, if_neg hProto, hLine]
    exact .integer (isInteger_toString (by cases value <;> decide) (by cases value <;> decide))
  | .double _ | .bigNumber _ | .verbatimString .. => fun _ hFits => putBulk2_frame hProto hFits
  | .bulkError text => by
    intro hWell _
    have hFrame : Frame .read _ _ := .error (hWell hProto)
    rw [lossy_bytes] at hFrame
    rwa [encodeTo, if_neg hProto]
  | .memberScores pairs => by
    intro _ hFits
    have hPairs := memberScores2_frames hProto hFits.right
    rw [encodeTo, if_neg hProto]
    refine .array (hPairs.isLength_items hFits.right ?_) hPairs
    simp [List.length_flatMap]
  | .batch _ => fun hWell _ => hWell.elim

theorem encodeItems2_frames {proto : Nat} (hProto : proto ≠ 3) : (items : List Value) →
    ItemsWellFormed display proto items → Fits (encodeItems display proto items) →
    Frames .read (encodeItems display proto items) (resp2Items display items)
  | [], _, _ => .nil
  | item :: items, hWell, hFits =>
    .cons (encodeTo2_frame hProto item hWell.1 hFits.left)
      (encodeItems2_frames hProto items hWell.2 hFits.right)

theorem encodePairs2_frames {proto : Nat} (hProto : proto ≠ 3) : (pairs : List (Value × Value)) →
    PairsWellFormed display proto pairs → Fits (encodePairs display proto pairs) →
    Frames .read (encodePairs display proto pairs) (resp2Pairs display pairs)
  | [], _, _ => .nil
  | (key, value) :: pairs, hWell, hFits =>
    .cons (encodeTo2_frame hProto key hWell.1 hFits.left)
      (.cons (encodeTo2_frame hProto value hWell.2.1 hFits.right.left)
        (encodePairs2_frames hProto pairs hWell.2.2 hFits.right.right))

end

end

/-! ### Decoding -/

theorem Reads.taken (hReads : Reads frame value) (rest : Bytes) :
    Parser.takeFromBytesStream (frame ++ rest) = (some value, rest) := by
  obtain ⟨parsed, hLen, hTake, hParse⟩ :=
    hReads.parseMeta_append (frame ++ rest).length (by rw [List.length_append]; omega)
  rw [Parser.takeFromBytesStream, hParse rest]
  simp only [hLen, List.take_left, List.drop_left, hTake]

/-- The decoder takes a frame off the front of the stream and leaves what follows it. -/
theorem Frame.taken (hFrame : Frame .read frame value) (rest : Bytes) :
    Parser.takeFromBytesStream (frame ++ rest) = (some value, rest) :=
  hFrame.reads.taken rest

/-- A reply is decoded to its form in the protocol of the connection, whatever follows it. -/
theorem takeFromBytesStream_encodeProto (display : Float → String) (value : Value) (rest : Bytes) :
    (value.WellFormed display 3 → Fits (value.encodeProto display 3) →
      Parser.takeFromBytesStream (value.encodeProto display 3 ++ rest) =
        (some value.resp3Form, rest)) ∧
    (value.WellFormed display 2 → Fits (value.encodeProto display 2) →
      Parser.takeFromBytesStream (value.encodeProto display 2 ++ rest) =
        (some (value.resp2Form display), rest)) :=
  ⟨fun hWell hFits => by
      obtain ⟨read, hFrame, hForm⟩ := encodeTo3_frame value (.inl hWell) hFits
      exact hForm hWell ▸ hFrame.taken rest,
    fun hWell hFits => (encodeTo2_frame (by decide) value hWell hFits).taken rest⟩

/-- Aggregates inside an array, with both nulls and a carriage return in a line. -/
def sampleReply : Value :=
  .array (some [.map [(.simpleString "a\rb", .bulkString none)], .verbatimString "txt" (bytes "x"),
    .set [.bigNumber "-12", .boolean true], .push [.array none, .error "ERR"]])

theorem takeFromBytesStream_sampleReply :
    Parser.takeFromBytesStream (sampleReply.encodeProto (fun _ => "") 3 ++ bytes "+O") =
        (some sampleReply.resp3Form, bytes "+O") ∧
      Parser.takeFromBytesStream (sampleReply.encodeProto (fun _ => "") 2 ++ bytes "+O") =
        (some (sampleReply.resp2Form fun _ => ""), bytes "+O") := by
  have hLine : OneLine (bytes "a\rb") ∧ OneLine (bytes "ERR") := by decide +kernel
  have hDigits : IsDigits "12".toList 12 := isDigits_toString 12
  have hNumber : IsBigNumber "-12" := .minus hDigits
  have hFormat : (bytes "txt").length = 3 := by decide +kernel
  have hWell (proto : Nat) : sampleReply.WellFormed (fun _ => "") proto := by
    simp [sampleReply, WellFormed, ItemsWellFormed, PairsWellFormed, hLine, hNumber, hFormat]
  have hFits3 : Fits (sampleReply.encodeProto (fun _ => "") 3) := by unfold Fits; decide +kernel
  have hFits2 : Fits (sampleReply.encodeProto (fun _ => "") 2) := by unfold Fits; decide +kernel
  have hDecode := takeFromBytesStream_encodeProto (fun _ => "") sampleReply (bytes "+O")
  exact ⟨hDecode.1 (hWell 3) hFits3, hDecode.2 (hWell 2) hFits2⟩

end Protocol
end CacheCat
