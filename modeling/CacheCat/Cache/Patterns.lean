import CacheCat.Broadcast.Broker
import CacheCat.Cache.Locks
import CacheCat.Data.GlobLanguage

/-! The patterns of KEYS and of PSUBSCRIBE. -/
namespace CacheCat.Cache

open Glob
open Broadcast (matchesPattern)

section

variable {pattern : Bytes} (hPlain : ∀ c ∈ pattern, c ≠ 91 ∧ c ≠ 92)

theorem symbol_plain {c : UInt8} (hPlain : c ≠ 91 ∧ c ≠ 92) (pattern : Bytes) :
    symbol (c :: pattern) =
      some (if c = 42 then .star else .one fun first => c = 63 || first = c, pattern) := by
  rw [symbol, if_neg hPlain.1, if_neg hPlain.2]
  split
  · rfl
  · split
    · next hAny => simp [hAny]
    · next hAny => simp [hAny]

include hPlain

theorem closed_of_plain : Closed pattern := by
  induction pattern with
  | nil => exact .nil
  | cons c pattern ih =>
    obtain ⟨hFirst, hRest⟩ := List.forall_mem_cons.mp hPlain
    exact .cons (symbol_plain hFirst pattern) (ih hRest)

theorem matchesPattern_iff (channel : Bytes) :
    matchesPattern channel pattern = true ↔ Language pattern channel := by
  induction pattern generalizing channel with
  | nil =>
    rw [language_nil_iff, ← List.isEmpty_iff]
    unfold matchesPattern
    rfl
  | cons c pattern ih =>
    obtain ⟨hFirst, hRest⟩ := List.forall_mem_cons.mp hPlain
    have hSymbol := symbol_plain hFirst pattern
    unfold matchesPattern
    by_cases hStar : c = 42
    · rw [if_pos hStar] at hSymbol
      rw [if_pos (show c = Broadcast.star from hStar), List.any_eq_true]
      simp only [ih hRest, List.mem_range]
      constructor
      · rintro ⟨i, -, hMember⟩
        rw [← List.take_append_drop i channel]
        exact .star _ hSymbol hMember
      · intro hMember
        cases hMember with
        | star skipped hOther hMember =>
          cases hSymbol.symm.trans hOther
          exact ⟨skipped.length, by rw [List.length_append]; omega, by simpa using hMember⟩
        | one hOther _ _ => cases hSymbol.symm.trans hOther
    · rw [if_neg hStar] at hSymbol
      rw [if_neg (show c ≠ Broadcast.star from hStar), language_one_iff hSymbol]
      cases channel with
      | nil => simp
      | cons first channel =>
        rw [Bool.and_eq_true, ih hRest]
        exact ⟨fun h => ⟨_, _, rfl, h.1, h.2⟩, fun ⟨_, _, hEq, h⟩ => by cases hEq; exact h⟩

end

/-- On a pattern with closed brackets the matcher of KEYS decides its language, and
without brackets and backslashes the matcher of the channels decides the same. -/
theorem glob_correct (pattern value : Bytes) :
    (Closed pattern → (isMatch pattern value = some true ↔ Language pattern value) ∧
      (isMatch pattern value = some false ↔ ¬ Language pattern value)) ∧
    ((∀ c ∈ pattern, c ≠ 91 ∧ c ≠ 92) →
      isMatch pattern value = some (matchesPattern value pattern)) := by
  refine ⟨fun hClosed => ?_, fun hPlain => ?_⟩
  · obtain ⟨answer, hAnswer, hIff⟩ := isMatch_decides hClosed value
    rw [hAnswer, ← hIff]
    cases answer <;> simp
  · obtain ⟨answer, hAnswer, hIff⟩ := isMatch_decides (closed_of_plain hPlain) value
    rw [hAnswer, Option.some.injEq, Bool.eq_iff_iff, hIff, matchesPattern_iff hPlain]

end CacheCat.Cache
