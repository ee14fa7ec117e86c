import CacheCat.Protocol.RoundTrip

/-! When the bytes of a reply are exactly one frame. Payloads are sent behind their
length and may hold anything; a text that is sent as a line must not end it early. -/
namespace CacheCat

open Protocol

namespace Value

section

variable {proto : Nat}

variable {items : List Value}

theorem itemsLines_iff :
    ItemsLines proto items ↔ ∀ item ∈ items, item.Lines proto := by
  induction items with
  | nil => simp [ItemsLines]
  | cons item items ih => simp [ItemsLines, ih]

theorem pairsLines_iff {pairs : List (Value × Value)} :
    PairsLines proto pairs ↔ ∀ pair ∈ pairs, pair.1.Lines proto ∧ pair.2.Lines proto := by
  induction pairs with
  | nil => simp [PairsLines]
  | cons pair pairs ih => simp [PairsLines, ih, and_assoc]

/-! The replies of the commands. -/

@[simp] theorem lines_simpleString {text : String} (hText : '\r' ∉ text.toList) :
    (simpleString text).Lines proto :=
  oneLine_bytes hText

@[simp] theorem lines_error {text : String} (hText : '\r' ∉ text.toList) :
    (error text).Lines proto :=
  oneLine_bytes hText

@[simp] theorem lines_integer (value : Int) : (integer value).Lines proto := trivial

@[simp] theorem lines_bulkString (data : Option Bytes) : (bulkString data).Lines proto := trivial

@[simp] theorem lines_null : null.Lines proto := trivial

@[simp] theorem lines_boolean (value : Bool) : (boolean value).Lines proto := trivial

@[simp] theorem lines_double (value : Float) : (double value).Lines proto := trivial

@[simp] theorem lines_memberScores (pairs : List (Bytes × Float)) :
    (memberScores pairs).Lines proto := trivial

@[simp] theorem lines_nullArray : (array none).Lines proto := trivial

@[simp] theorem lines_array :
    (array (some items)).Lines proto ↔ ∀ item ∈ items, item.Lines proto := itemsLines_iff

@[simp] theorem lines_set :
    (set items).Lines proto ↔ ∀ item ∈ items, item.Lines proto := itemsLines_iff

@[simp] theorem lines_map {pairs : List (Value × Value)} :
    (map pairs).Lines proto ↔ ∀ pair ∈ pairs, pair.1.Lines proto ∧ pair.2.Lines proto :=
  pairsLines_iff

@[simp] theorem lines_ok : ok.Lines proto := lines_simpleString (by decide)

@[simp] theorem lines_ofBytesList (items : List Bytes) : (ofBytesList items).Lines proto := by
  simp [ofBytesList]

end
end Value

namespace Protocol

open Value

/-! ### Doubles -/

/-- The number a double frame denotes, as long as it denotes one. -/
def ReadsAsDouble (text : String) : Prop := ∃ d, Parser.doubleOfText text.toList = some d

variable {text : String} {display : Float → String} {line : Bytes}

theorem readsAsDouble_of_parseF64 {d : Float} (hParse : Text.parseF64 text.toList = some d) :
    ReadsAsDouble text := by
  unfold ReadsAsDouble Parser.doubleOfText
  split
  · exact ⟨_, rfl⟩
  · exact ⟨_, rfl⟩
  · exact ⟨_, rfl⟩
  · exact ⟨_, rfl⟩
  · exact ⟨_, rfl⟩
  · exact ⟨d, hParse⟩

theorem IsInteger.readsAsDouble {n : Int} (hText : IsInteger text n) : ReadsAsDouble text := by
  have hDecimal {digits : List Char} {n : Nat} (hDigits : IsDigits digits n) :
      ∃ d, IsDecimal digits d := by
    have hWhole : IsDigits (digits ++ []) n := (List.append_nil digits).symm ▸ hDigits
    have h := IsDecimal.mk hDigits .none hWhole .none
    rw [List.append_nil, List.append_nil] at h
    exact ⟨_, h⟩
  cases hText with
  | unsigned hDigits _ =>
    obtain ⟨d, h⟩ := hDecimal hDigits
    exact ⟨d, (IsDouble.unsigned h).doubleOfText⟩
  | plus hDigits _ =>
    obtain ⟨d, h⟩ := hDecimal hDigits
    exact ⟨d, (IsDouble.plus h).doubleOfText⟩
  | minus hDigits _ =>
    obtain ⟨d, h⟩ := hDecimal hDigits
    exact ⟨-d, (IsDouble.minus h).doubleOfText⟩

/-- Whatever the number is, a double frame holds a text that denotes one. -/
theorem readsAsDouble_formatDouble (hDisplay : ∀ d, ReadsAsDouble (display d)) (d : Float) :
    ReadsAsDouble (formatDouble display d) := by
  unfold formatDouble
  split
  · exact ⟨_, rfl⟩
  split
  · split
    · exact ⟨_, rfl⟩
    · exact ⟨_, rfl⟩
  split
  · split
    · exact readsAsDouble_of_parseF64 rfl
    · exact readsAsDouble_of_parseF64 rfl
  split
  · refine (isInteger_toString ?_ ?_).readsAsDouble
    · exact d.toInt64.le_toInt
    · exact Int.le_sub_one_of_lt d.toInt64.toInt_lt
  · exact hDisplay d

/-! ### Replies are frames -/

variable {value : Value}

section

variable {proto : Nat}

mutual

/-- Before RESP3 a reply in lines is well formed: doubles are payloads. -/
theorem wellFormed_of_lines (hProto : proto ≠ 3) :
    (value : Value) → value.Lines proto → value.Held → value.WellFormed display proto
  | .simpleString _, hLines, _ => hLines
  | .error _, hLines, _ => hLines
  | .integer _, _, hHeld => hHeld
  | .array none, _, _ => trivial
  | .array (some items), hLines, hHeld => itemsWellFormed_of_lines hProto items hLines hHeld
  | .map pairs, hLines, hHeld => pairsWellFormed_of_lines hProto pairs hLines hHeld
  | .set items, hLines, hHeld => itemsWellFormed_of_lines hProto items hLines hHeld
  | .push items, hLines, hHeld => itemsWellFormed_of_lines hProto items hLines hHeld
  | .null, _, _ => trivial
  | .bulkString _, _, _ => trivial
  | .boolean _, _, _ => trivial
  | .double _, _, _ => fun h => absurd h hProto
  | .bigNumber _, hLines, _ => hLines
  | .verbatimString .., _, _ => fun h => absurd h hProto
  | .bulkError _, hLines, _ => hLines
  | .memberScores _, _, _ => fun h => absurd h hProto
  | .batch _, hLines, _ => hLines

theorem itemsWellFormed_of_lines (hProto : proto ≠ 3) :
    (items : List Value) → ItemsLines proto items → ItemsHeld items →
      ItemsWellFormed display proto items
  | [], _, _ => trivial
  | item :: items, hLines, hHeld =>
    ⟨wellFormed_of_lines hProto item hLines.1 hHeld.1,
      itemsWellFormed_of_lines hProto items hLines.2 hHeld.2⟩

theorem pairsWellFormed_of_lines (hProto : proto ≠ 3) : (pairs : List (Value × Value)) →
    PairsLines proto pairs → PairsHeld pairs → PairsWellFormed display proto pairs
  | [], _, _ => trivial
  | (key, value) :: pairs, hLines, hHeld =>
    ⟨wellFormed_of_lines hProto key hLines.1 hHeld.1,
      wellFormed_of_lines hProto value hLines.2.1 hHeld.2.1,
        pairsWellFormed_of_lines hProto pairs hLines.2.2 hHeld.2.2⟩

end

/-- The encoding of a reply whose lines are lines is a frame of some value. -/
theorem encodeTo_framed (hDisplay : ∀ d, ReadsAsDouble (display d)) (hLines : value.Lines proto)
    (hHeld : value.Held) (hFits : Fits (encodeTo display proto value)) :
    ∃ read, Frame .read (encodeTo display proto value) read := by
  by_cases hProto : proto = 3
  · subst hProto
    have hSend : Sendable display (value.WellFormed display 3) (value.Lines 3) value.Held :=
      .inr ⟨hLines, hHeld, readsAsDouble_formatDouble hDisplay⟩
    obtain ⟨read, hFrame, -⟩ := encodeTo3_frame value hSend hFits
    exact ⟨read, hFrame⟩
  · exact ⟨_, encodeTo2_frame hProto value (wellFormed_of_lines hProto value hLines hHeld) hFits⟩

end

/-! ### Exactly one frame -/

/-- The decoder takes one value and nothing is left. -/
def ExactlyOne (output : Bytes) : Prop :=
  ∃ value, Parser.takeFromBytesStream output = (some value, [])

theorem Frame.exactlyOne {frame : Bytes} (hFrame : Frame .read frame value) : ExactlyOne frame := by
  have hTaken := hFrame.taken []
  rw [List.append_nil] at hTaken
  exact ⟨value, hTaken⟩

theorem not_exactlyOne_nil : ¬ ExactlyOne [] := by
  rintro ⟨value, hTake⟩
  cases hTake

/-- What follows a frame is left over. -/
theorem Frame.not_exactlyOne {frame rest : Bytes} (hFrame : Frame .read frame value)
    (hRest : rest ≠ []) : ¬ ExactlyOne (frame ++ rest) := by
  rintro ⟨read, hTake⟩
  rw [hFrame.taken rest] at hTake
  exact hRest (Prod.mk.inj hTake).2

/-- Bytes that do not stay on one line have a first line. -/
theorem exists_first_line (hBroken : ¬ OneLine line) :
    ∃ first rest, line = first ++ (crlf ++ rest) ∧ OneLine first := by
  rw [OneLine, not_not] at hBroken
  induction line with
  | nil => simp [crlf] at hBroken
  | cons a line ih =>
    by_cases hHere : crlf <+: a :: line
    · obtain ⟨rest, hRest⟩ := hHere
      exact ⟨[], rest, hRest.symm, by decide⟩
    · have hLater : crlf <:+: line := (List.infix_cons_iff.mp hBroken).resolve_left hHere
      obtain ⟨first, rest, rfl, hFirst⟩ := ih hLater
      refine ⟨a :: first, rest, rfl, fun hInfix => ?_⟩
      rcases List.infix_cons_iff.mp hInfix with hPrefix | hInfix
      · exact hHere (hPrefix.trans (List.prefix_append (a :: first) (crlf ++ rest)))
      · exact hFirst hInfix

/-- A reply of one line is one frame exactly if nothing in it ends the line early. -/
theorem exactlyOne_putLine_iff {mode : Char}
    (hMode : ∀ line, OneLine line → ∃ value, Frame .read (putLine mode line) value) :
    ExactlyOne (putLine mode line) ↔ OneLine line := by
  constructor
  · intro hOne
    by_contra hBroken
    obtain ⟨first, rest, rfl, hFirst⟩ := exists_first_line hBroken
    obtain ⟨value, hFrame⟩ := hMode first hFirst
    have hSplit : putLine mode (first ++ (crlf ++ rest)) =
        putLine mode first ++ (rest ++ crlf) := by
      simp [putLine]
    rw [hSplit] at hOne
    exact hFrame.not_exactlyOne (by simp [crlf]) hOne
  · intro hLine
    obtain ⟨value, hFrame⟩ := hMode line hLine
    exact hFrame.exactlyOne

variable {proto : Nat}

theorem exactlyOne_error_iff :
    ExactlyOne ((Value.error text).encodeProto display proto) ↔ OneLine (bytes text) :=
  exactlyOne_putLine_iff fun _ hLine => ⟨_, .error hLine⟩

theorem exactlyOne_simpleString_iff :
    ExactlyOne ((Value.simpleString text).encodeProto display proto) ↔ OneLine (bytes text) :=
  exactlyOne_putLine_iff fun _ hLine => ⟨_, .simpleString hLine⟩

theorem exactlyOne_of_lines (hDisplay : ∀ d, ReadsAsDouble (display d)) (hLines : value.Lines proto)
    (hHeld : value.Held) (hFits : Fits (value.encodeProto display proto)) :
    ExactlyOne (value.encodeProto display proto) := by
  obtain ⟨read, hFrame⟩ := encodeTo_framed hDisplay hLines hHeld hFits
  exact hFrame.exactlyOne

/-! ### Quoted texts -/

theorem infix_append_left_iff {x y : UInt8} {before : Bytes} (hBefore : x ∉ before) :
    [x, y] <:+: before ++ line ↔ [x, y] <:+: line := by
  induction before with
  | nil => rfl
  | cons a before ih =>
    rw [List.mem_cons, not_or] at hBefore
    rw [List.cons_append, List.infix_cons_iff, ih hBefore.2, List.cons_prefix_cons]
    exact or_iff_right fun hHead => hBefore.1 hHead.1

theorem infix_append_right_iff {x y : UInt8} {after : Bytes} (hAfter : y ∉ after) :
    [x, y] <:+: line ++ after ↔ [x, y] <:+: line := by
  have hReverse : y ∉ after.reverse := fun hMem => hAfter (List.mem_reverse.mp hMem)
  have hMirrored : [x, y].reverse <:+: after.reverse ++ line.reverse ↔
      [x, y].reverse <:+: line.reverse :=
    infix_append_left_iff hReverse
  rwa [← List.reverse_append, List.reverse_infix, List.reverse_infix] at hMirrored

/-- A byte below 128 stands for a character of its own. -/
theorem not_mem_bytes {c : Char} {b : UInt8} (hCode : b.toNat = c.toNat) (hAscii : b.toNat < 128)
    (hText : c ∉ text.toList) : b ∉ bytes text := by
  intro hMem
  obtain ⟨d, hChar, hSame⟩ := Text.mem_of_mem_bytes hMem hAscii
  have hEq : d = c := Char.ext (UInt32.toNat_inj.mp (hSame.trans hCode))
  exact hText (hEq ▸ hChar)

/-- A text put between two others breaks the line exactly if it does so by itself. -/
theorem oneLine_quoted_iff {before after : String} (hBefore : '\r' ∉ before.toList)
    (hAfter : '\n' ∉ after.toList) :
    OneLine (bytes (before ++ text ++ after)) ↔ OneLine (bytes text) := by
  have hReturn : (13 : UInt8) ∉ bytes before := not_mem_bytes rfl (by decide) hBefore
  have hNewline : (10 : UInt8) ∉ bytes after := not_mem_bytes rfl (by decide) hAfter
  exact not_congr ((infix_append_right_iff hNewline).trans (infix_append_left_iff hReturn))

end Protocol
end CacheCat
