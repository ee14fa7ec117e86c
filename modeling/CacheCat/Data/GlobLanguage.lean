import CacheCat.Data.Glob

/-! The language of a glob pattern, and that the matcher decides it on every pattern
whose brackets are closed. -/
namespace CacheCat.Glob

/-! ### Patterns -/

/-- A part of a pattern: any bytes, or one byte of a set. -/
inductive Symbol where
  | star
  | one (fits : UInt8 → Bool)

/-- The bytes and ranges up to the closing bracket, and the pattern after it. A byte is
a range with one end. -/
def ranges : Bytes → Option (List (UInt8 × UInt8) × Bytes)
  | [] => none
  | 93 :: rest => some ([], rest)
  | first :: 45 :: last :: rest => (ranges rest).map fun read => ((first, last) :: read.1, read.2)
  | c :: rest => (ranges rest).map fun read => ((c, c) :: read.1, read.2)

/-- `^` or `!` stands behind the bracket. -/
def negates (body : Bytes) : Bool := body.head? = some 94 || body.head? = some 33

/-- What stands between the brackets, and the pattern after them. -/
def bracket (body : Bytes) : Option (List (UInt8 × UInt8) × Bytes) :=
  ranges (if negates body then body.tail else body)

def covers (listed : List (UInt8 × UInt8)) (c : UInt8) : Bool :=
  listed.any fun range => range.1 ≤ c && c ≤ range.2

/-- The first part of a pattern and the rest; `none` if there is none, if its bracket
is not closed, or if it is a backslash with nothing to escape. -/
def symbol : Bytes → Option (Symbol × Bytes)
  | [] => none
  | c :: rest =>
    if c = 42 then some (.star, rest)
    else if c = 63 then some (.one fun _ => true, rest)
    else if c = 91 then
      (bracket rest).map fun read => (.one (covers read.1 · != negates rest), read.2)
    else if c = 92 then rest.head?.map fun escaped => (.one (· = escaped), rest.tail)
    else some (.one (· = c), rest)

/-- The values that a pattern stands for. -/
inductive Language : Bytes → Bytes → Prop
  | nil : Language [] []
  | star {pattern rest value : Bytes} (skipped : Bytes)
      (hSymbol : symbol pattern = some (.star, rest)) (hRest : Language rest value) :
        Language pattern (skipped ++ value)
  | one {pattern rest value : Bytes} {fits : UInt8 → Bool} {c : UInt8}
      (hSymbol : symbol pattern = some (.one fits, rest)) (hFits : fits c = true)
      (hRest : Language rest value) : Language pattern (c :: value)

/-- Every bracket of the pattern is closed. -/
inductive Closed : Bytes → Prop
  | nil : Closed []
  | backslash : Closed [92]
  | cons {pattern rest : Bytes} {first : Symbol} (hSymbol : symbol pattern = some (first, rest))
      (hRest : Closed rest) : Closed pattern

theorem language_nil_iff (value : Bytes) : Language [] value ↔ value = [] := by
  constructor
  · intro h
    cases h with
    | nil => rfl
    | star _ hSymbol _ => cases hSymbol
    | one hSymbol _ _ => cases hSymbol
  · rintro rfl
    exact .nil

theorem language_one_iff {pattern rest : Bytes} {fits : UInt8 → Bool}
    (hSymbol : symbol pattern = some (.one fits, rest)) (value : Bytes) :
    Language pattern value ↔ ∃ c after, value = c :: after ∧ fits c = true ∧
      Language rest after := by
  constructor
  · intro h
    cases h with
    | nil => cases hSymbol
    | star _ hOther _ => cases hSymbol.symm.trans hOther
    | one hOther hFits hRest =>
      cases hSymbol.symm.trans hOther
      exact ⟨_, _, rfl, hFits, hRest⟩
  · rintro ⟨c, after, rfl, hFits, hRest⟩
    exact .one hSymbol hFits hRest

/-- A star skips nothing, or a byte and then what a star may skip. -/
theorem language_star_iff {pattern rest : Bytes} (hSymbol : symbol pattern = some (.star, rest))
    (value : Bytes) :
    Language pattern value ↔
      Language rest value ∨ ∃ c after, value = c :: after ∧ Language pattern after := by
  constructor
  · intro h
    cases h with
    | nil => cases hSymbol
    | star skipped hOther hRest =>
      cases hSymbol.symm.trans hOther
      cases skipped with
      | nil => exact .inl hRest
      | cons c skipped => exact .inr ⟨c, _, rfl, .star skipped hSymbol hRest⟩
    | one hOther _ _ => cases hSymbol.symm.trans hOther
  · rintro (hRest | ⟨c, after, rfl, hAfter⟩)
    · exact .star [] hSymbol hRest
    · cases hAfter with
      | nil => cases hSymbol
      | star skipped hOther hRest => exact .star (c :: skipped) hOther hRest
      | one hOther _ _ => cases hSymbol.symm.trans hOther

/-! ### The matcher -/

section

variable {pattern value : Bytes}

theorem getElem?_of_drop {l body : Bytes} {i : Nat} (hDrop : l.drop i = body) (j : Nat) :
    l[i + j]? = body[j]? := by rw [← hDrop, List.getElem?_drop]

theorem drop_add_of_drop {l body : Bytes} {i : Nat} (hDrop : l.drop i = body) (j : Nat) :
    l.drop (i + j) = body.drop j := by rw [← hDrop, List.drop_drop]

/-- The scanner stops at the closing bracket, whatever byte it looks for. -/
theorem bracketLoop_eq {body rest : Bytes} {listed : List (UInt8 × UInt8)}
    (hRanges : ranges body = some (listed, rest)) {fuel i : Nat} (hBody : pattern.drop i = body)
    (hFuel : body.length ≤ fuel) :
    ∃ stop, (∀ c matched, bracketLoop pattern c fuel i matched =
      (matched || covers listed c, stop)) ∧ pattern.drop (stop + 1) = rest ∧ i ≤ stop ∧
        stop < pattern.length := by
  induction fuel generalizing i body listed with
  | zero =>
    rw [List.eq_nil_of_length_eq_zero (Nat.le_zero.mp hFuel)] at hRanges
    cases hRanges
  | succ fuel ih =>
    have hFirst : pattern[i]? = body[0]? := getElem?_of_drop hBody 0
    have hAt := getElem?_of_drop hBody
    have hDrop := drop_add_of_drop hBody
    unfold ranges at hRanges
    split at hRanges
    · cases hRanges
    · cases hRanges
      refine ⟨i, fun c matched => by simp [bracketLoop, hFirst, covers], hDrop 1, Nat.le_refl i, ?_⟩
      exact (List.getElem?_eq_some_iff.mp hFirst).1
    · next first last tail hNot =>
        obtain ⟨⟨others, after⟩, hMore, hEq⟩ := Option.map_eq_some_iff.mp hRanges
        cases hEq
        simp only [List.length_cons] at hFuel
        obtain ⟨stop, hLoop, hRest, hLe, hLt⟩ := ih hMore (hDrop 3) (by omega)
        refine ⟨stop, fun c matched => ?_, hRest, by omega, hLt⟩
        simp only [bracketLoop, hFirst, hAt, List.getElem?_cons_zero, List.getElem?_cons_succ,
          if_neg hNot, hLoop, covers, List.any_cons, Bool.or_assoc]
    · next c tail hClose hRange =>
        obtain ⟨⟨others, after⟩, hMore, hEq⟩ := Option.map_eq_some_iff.mp hRanges
        cases hEq
        simp only [List.length_cons] at hFuel
        obtain ⟨stop, hLoop, hRest, hLe, hLt⟩ := ih hMore (hDrop 1) (by omega)
        refine ⟨stop, fun v matched => ?_, hRest, by omega, hLt⟩
        have hByte : decide (c = v) = (decide (c ≤ v) && decide (v ≤ c)) := by
          rw [← Bool.decide_and, decide_eq_decide]
          exact UInt8.le_antisymm_iff
        simp only [bracketLoop, hFirst, hAt, List.getElem?_cons_zero, List.getElem?_cons_succ,
          if_neg hClose]
        split
        · next last hDash hLast =>
            obtain ⟨after, rfl⟩ := List.head?_eq_some_iff.mp (List.head?_eq_getElem?.trans hDash)
            obtain ⟨after, rfl⟩ := List.head?_eq_some_iff.mp (List.head?_eq_getElem?.trans hLast)
            exact (hRange _ _ rfl).elim
        · rw [hLoop, hByte, Bool.or_assoc]
          rfl

theorem matchBracket_eq {body rest : Bytes} {listed : List (UInt8 × UInt8)} {start : Nat}
    (hStart : pattern.drop start = 91 :: body) (hBracket : bracket body = some (listed, rest)) :
    ∃ stop, (∀ c, matchBracket pattern start c = (covers listed c != negates body, stop)) ∧
      pattern.drop (stop + 1) = rest ∧ start ≤ stop ∧ stop < pattern.length := by
  have hNext : pattern[start + 1]? = body.head? :=
    (getElem?_of_drop hStart 1).trans List.head?_eq_getElem?.symm
  have hFirst : pattern.drop (if negates body then start + 2 else start + 1) =
      if negates body then body.tail else body := by
    split
    · rw [drop_add_of_drop hStart 2, List.drop_succ_cons, List.drop_one]
    · exact drop_add_of_drop hStart 1
  have hFuel : (if negates body then body.tail else body).length ≤ pattern.length + 1 := by
    rw [← hFirst, List.length_drop]
    omega
  obtain ⟨stop, hLoop, hRest, hLe, hLt⟩ := bracketLoop_eq hBracket hFirst hFuel
  refine ⟨stop, fun c => ?_, hRest, by split at hLe <;> omega, hLt⟩
  have hUnfold : matchBracket pattern start c =
      let loop := bracketLoop pattern c (pattern.length + 1)
          (if negates body then start + 2 else start + 1) false
      (loop.1 != negates body, loop.2) := by
    rw [matchBracket, hNext]
    rfl
  rw [hUnfold, hLoop, Bool.false_or]

/-- The comparison with a literal byte. -/
theorem literal_eq (found : Option UInt8) (literal : UInt8) (result : Option Bool) :
    (if found = some literal then result else some false) =
      match found with
      | none => some false
      | some c => if decide (c = literal) then result else some false := by
  cases found <;> simp

/-- One step of the matcher at a symbol for one byte. -/
theorem matchInner_one (value : Bytes) {rest : Bytes} {fits : UInt8 → Bool} {pi : Nat}
    (hSymbol : symbol (pattern.drop pi) = some (.one fits, rest)) :
    ∃ next, pi < next ∧ next ≤ pattern.length ∧ pattern.drop next = rest ∧
      ∀ fuel vi, matchInner pattern value (fuel + 1) pi vi =
        match value[vi]? with
        | none => some false
        | some c => if fits c then matchInner pattern value fuel next (vi + 1) else some false := by
  cases hDrop : pattern.drop pi with
  | nil =>
    rw [hDrop] at hSymbol
    cases hSymbol
  | cons c tail =>
    have hAt : pattern[pi]? = some c := getElem?_of_drop hDrop 0
    have hLt : pi < pattern.length := (List.getElem?_eq_some_iff.mp hAt).1
    have hNext := drop_add_of_drop hDrop
    rw [hDrop, symbol] at hSymbol
    simp only [matchInner, if_neg (Nat.ne_of_lt hLt), hAt]
    split_ifs at hSymbol with h42 h63 h91 h92
    · cases hSymbol
    · cases hSymbol
      subst h63
      refine ⟨pi + 1, Nat.lt_succ_self pi, hLt, hNext 1, fun fuel vi => ?_⟩
      cases hValue : value[vi]? with
      | none => exact if_neg (Nat.not_lt.mpr (List.getElem?_eq_none_iff.mp hValue))
      | some c => exact if_pos (List.getElem?_eq_some_iff.mp hValue).1
    · obtain ⟨⟨listed, after⟩, hBracket, hEq⟩ := Option.map_eq_some_iff.mp hSymbol
      cases hEq
      subst h91
      obtain ⟨stop, hMatch, hRest, hLe, hStop⟩ := matchBracket_eq hDrop hBracket
      refine ⟨stop + 1, by omega, hStop, hRest, fun fuel vi => ?_⟩
      cases value[vi]? with
      | none => rfl
      | some c =>
        dsimp only
        rw [hMatch]
        rfl
    · obtain ⟨escaped, hEscaped, hEq⟩ := Option.map_eq_some_iff.mp hSymbol
      cases hEq
      subst h92
      have hAfter : pattern[pi + 1]? = some escaped :=
        (getElem?_of_drop hDrop 1).trans (List.head?_eq_getElem?.symm.trans hEscaped)
      refine ⟨pi + 2, by omega, (List.getElem?_eq_some_iff.mp hAfter).1, ?_, fun fuel vi => ?_⟩
      · rw [hNext 2, List.drop_succ_cons, List.drop_one]
      · simp only [hAfter]
        exact literal_eq ..
    · cases hSymbol
      refine ⟨pi + 1, Nat.lt_succ_self pi, hLt, hNext 1, fun fuel vi => ?_⟩
      split <;> next hEq => cases hEq <;> first | contradiction | exact literal_eq ..

theorem eq_of_symbol_star {rest : Bytes} (hSymbol : symbol pattern = some (.star, rest)) :
    pattern = 42 :: rest := by
  cases pattern with
  | nil => cases hSymbol
  | cons c tail =>
    rw [symbol] at hSymbol
    split_ifs at hSymbol with h42
    · cases hSymbol
      rw [h42]
    all_goals simp at hSymbol

/-- The answer is given, and it is whether the statement holds. -/
def Decides (result : Option Bool) (statement : Prop) : Prop :=
  ∃ answer, result = some answer ∧ (answer = true ↔ statement)

theorem matchInner_star {rest : Bytes} {fuel pi vi : Nat}
    (hSymbol : symbol (pattern.drop pi) = some (.star, rest))
    (hRest : ∀ {fuel vi}, vi ≤ value.length → pattern.length - (pi + 1) + (value.length - vi) <
      fuel → Decides (matchInner pattern value fuel (pi + 1) vi) (Language rest (value.drop vi)))
    (hVi : vi ≤ value.length) (hFuel : pattern.length - pi + (value.length - vi) < fuel) :
    Decides (matchInner pattern value fuel pi vi) (Language (pattern.drop pi) (value.drop vi)) := by
  have hAt : pattern[pi]? = some 42 := getElem?_of_drop (eq_of_symbol_star hSymbol) 0
  have hLt : pi < pattern.length := (List.getElem?_eq_some_iff.mp hAt).1
  induction fuel generalizing vi with
  | zero => omega
  | succ fuel ih =>
    obtain ⟨found, hFound, hIff⟩ := hRest hVi (by omega : _ < fuel)
    rw [language_star_iff hSymbol, ← hIff]
    simp only [matchInner, if_neg (Nat.ne_of_lt hLt), hAt, hFound, Option.bind_eq_bind,
      Option.bind_some]
    cases found with
    | true => exact ⟨true, rfl, by simp⟩
    | false =>
      rw [if_neg Bool.false_ne_true]
      cases hAfter : value.drop vi with
      | nil =>
        rw [if_neg (Nat.not_lt.mpr (List.drop_eq_nil_iff.mp hAfter))]
        exact ⟨false, rfl, by simp⟩
      | cons c after =>
        have hNext : vi < value.length := by
          have hFound : value[vi]? = some c := getElem?_of_drop hAfter 0
          exact (List.getElem?_eq_some_iff.mp hFound).1
        obtain ⟨answer, hAnswer, hLater⟩ := ih hNext (by omega)
        rw [drop_add_of_drop hAfter 1] at hLater
        rw [if_pos hNext]
        exact ⟨answer, hAnswer, by simp [hLater]⟩

/-- The fuel is enough for the pattern and the value that are left, and the answer is
whether the value belongs to the pattern. -/
theorem matchInner_decides {suffix : Bytes} (hClosed : Closed suffix) {fuel pi vi : Nat}
    (hSuffix : pattern.drop pi = suffix) (hPi : pi ≤ pattern.length) (hVi : vi ≤ value.length)
    (hFuel : pattern.length - pi + (value.length - vi) < fuel) :
    Decides (matchInner pattern value fuel pi vi) (Language suffix (value.drop vi)) := by
  induction hClosed generalizing fuel pi vi with
  | nil =>
    obtain ⟨fuel, rfl⟩ : ∃ less, fuel = less + 1 := ⟨fuel - 1, by omega⟩
    have hEnd : pi = pattern.length := Nat.le_antisymm hPi (List.drop_eq_nil_iff.mp hSuffix)
    refine ⟨decide (vi = value.length), by rw [matchInner, if_pos hEnd], ?_⟩
    rw [decide_eq_true_eq, language_nil_iff, List.drop_eq_nil_iff]
    omega
  | backslash =>
    obtain ⟨fuel, rfl⟩ : ∃ less, fuel = less + 1 := ⟨fuel - 1, by omega⟩
    have hAt : pattern[pi]? = some 92 := getElem?_of_drop hSuffix 0
    have hAfter : pattern[pi + 1]? = none := getElem?_of_drop hSuffix 1
    have hLt : pi < pattern.length := (List.getElem?_eq_some_iff.mp hAt).1
    refine ⟨false, by simp only [matchInner, if_neg (Nat.ne_of_lt hLt), hAt, hAfter], ?_⟩
    generalize value.drop vi = rest
    refine ⟨nofun, fun hMember => ?_⟩
    cases hMember with
    | star _ hSymbol _ => cases hSymbol
    | one hSymbol _ _ => cases hSymbol
  | @cons suffix rest first hSymbol hRest ih =>
    subst hSuffix
    cases first with
    | one fits =>
      obtain ⟨fuel, rfl⟩ : ∃ less, fuel = less + 1 := ⟨fuel - 1, by omega⟩
      obtain ⟨next, hNext, hEnd, hDrop, hStep⟩ := matchInner_one value hSymbol
      rw [hStep, language_one_iff hSymbol]
      have hAt : value[vi]? = (value.drop vi)[0]? := getElem?_of_drop rfl 0
      cases hAfter : value.drop vi with
      | nil =>
        rw [hAt, hAfter]
        exact ⟨false, rfl, by simp⟩
      | cons c after =>
        rw [hAfter, List.getElem?_cons_zero] at hAt
        have hLt : vi < value.length := (List.getElem?_eq_some_iff.mp hAt).1
        have hLater := ih hDrop hEnd hLt (show pattern.length - next + (value.length - (vi + 1)) <
            fuel by omega)
        rw [drop_add_of_drop hAfter 1] at hLater
        rw [hAt]
        cases hFits : fits c with
        | false => exact ⟨false, by simp [hFits], by simp [hFits]⟩
        | true => simpa [hFits] using hLater
    | star =>
      have hDrop := drop_add_of_drop (eq_of_symbol_star hSymbol) 1
      refine matchInner_star hSymbol (fun hVi hFuel => ih hDrop ?_ hVi hFuel) hVi hFuel
      exact (List.getElem?_eq_some_iff.mp (getElem?_of_drop (eq_of_symbol_star hSymbol) 0)).1

end

theorem isMatch_decides {pattern : Bytes} (hClosed : Closed pattern) (value : Bytes) :
    Decides (isMatch pattern value) (Language pattern value) :=
  matchInner_decides hClosed rfl (Nat.zero_le _) (Nat.zero_le _) (by omega)

theorem isMatch_star (value : Bytes) : isMatch (bytes "*") value = some true := by
  have hClosed : Closed (bytes "*") := .cons rfl .nil
  obtain ⟨answer, hAnswer, hIff⟩ := isMatch_decides hClosed value
  have hMember : Language (bytes "*") (value ++ []) := .star value rfl .nil
  rw [List.append_nil] at hMember
  rw [hAnswer, hIff.mpr hMember]

end CacheCat.Glob
