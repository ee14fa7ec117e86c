import Mathlib.Data.Int.ModEq
import Mathlib.Data.Nat.Bitwise
import CacheCat.Command.Bitmaps

/-! The numbers of BITFIELD. The bit patterns of a field and the values within its bounds
stand for each other, and `normalize` picks one of these values for every other number. -/
namespace CacheCat.BitFieldEncoding

open Text

/-- `i1` to `i64` and `u1` to `u63`. -/
def Valid (encoding : BitFieldEncoding) : Prop :=
  0 < encoding.bits ∧ encoding.bits ≤ if encoding.signed then 64 else 63

instance (encoding : BitFieldEncoding) : Decidable encoding.Valid :=
  inferInstanceAs (Decidable (_ ∧ _))

def InBounds (encoding : BitFieldEncoding) (value : Int) : Prop :=
  encoding.bounds.1 ≤ value ∧ value ≤ encoding.bounds.2

instance (encoding : BitFieldEncoding) (value : Int) : Decidable (encoding.InBounds value) :=
  inferInstanceAs (Decidable (_ ∧ _))

/-- The value of a number below `2 ^ bits`: in two's complement if the field is signed. -/
def represent (encoding : BitFieldEncoding) (number : Int) : Int :=
  if encoding.signed && 2 ^ (encoding.bits - 1) ≤ number then number - 2 ^ encoding.bits else number

/-! ### Bounds -/

variable {encoding : BitFieldEncoding}

/-- There are as many values as bit patterns, zero among them, and all of them fit. -/
theorem Valid.bounds (hValid : encoding.Valid) :
    encoding.bounds.2 - encoding.bounds.1 = 2 ^ encoding.bits - 1 ∧ encoding.InBounds 0 ∧
      i64Min ≤ encoding.bounds.1 ∧ encoding.bounds.2 ≤ i64Max := by
  obtain ⟨signed, bits⟩ := encoding
  obtain ⟨hPositive, hLimit⟩ := hValid
  obtain ⟨half, rfl⟩ : ∃ half, bits = half + 1 := ⟨bits - 1, by dsimp only at hPositive; omega⟩
  have hHalf : (1 : Int) ≤ 2 ^ half := one_le_pow₀ (by decide)
  cases signed with
  | false =>
    have hLess : (2 : Int) ^ (half + 1) ≤ 2 ^ 63 := pow_le_pow_right₀ (by decide) hLimit
    simp only [InBounds, BitFieldEncoding.bounds, i64Min, i64Max, Bool.false_eq_true, if_false] at *
    omega
  | true =>
    have hLess : (2 : Int) ^ half ≤ 2 ^ 63 :=
      pow_le_pow_right₀ (by decide) (Nat.le_of_succ_le_succ hLimit)
    simp only [InBounds, BitFieldEncoding.bounds, i64Min, i64Max, if_true, Nat.add_sub_cancel,
      pow_succ] at *
    omega

theorem Valid.fits (hValid : encoding.Valid) {value : Int} (hBounds : encoding.InBounds value) :
    FitsI64 value :=
  ⟨hValid.bounds.2.2.1.trans hBounds.1, hBounds.2.trans hValid.bounds.2.2.2⟩

theorem Valid.represent (hValid : encoding.Valid) {number : Int} (hLow : 0 ≤ number)
    (hHigh : number < 2 ^ encoding.bits) :
    encoding.InBounds (encoding.represent number) ∧
      encoding.represent number ≡ number [ZMOD 2 ^ encoding.bits] := by
  have hHalf : (2 : Int) ^ encoding.bits = 2 * 2 ^ (encoding.bits - 1) := by
    rw [← pow_succ', Nat.sub_add_cancel hValid.1]
  constructor
  · unfold InBounds BitFieldEncoding.represent BitFieldEncoding.bounds
    cases encoding.signed <;> simp
    · omega
    · split <;> omega
  · unfold BitFieldEncoding.represent
    split
    · exact Int.modEq_iff_dvd.mpr ⟨1, by omega⟩
    · exact Int.ModEq.refl _

/-- One value in bounds is congruent to a number. -/
theorem Valid.congruent_iff (hValid : encoding.Valid) {value other : Int} :
    encoding.InBounds other ∧ other ≡ value [ZMOD 2 ^ encoding.bits] ↔
      other = encoding.represent (value % 2 ^ encoding.bits) := by
  have hPow : (0 : Int) < 2 ^ encoding.bits := pow_pos (by decide) _
  obtain ⟨⟨hLow, hHigh⟩, hMod⟩ :=
    hValid.represent (Int.emod_nonneg value hPow.ne') (Int.emod_lt_of_pos value hPow)
  have hValue := hMod.trans (Int.mod_modEq value _)
  constructor
  · rintro ⟨⟨hLeast, hGreatest⟩, hOther⟩
    -- two values in bounds differ by less than the modulus
    obtain ⟨hSpan, -⟩ := hValid.bounds
    have hZero := Int.eq_zero_of_abs_lt_dvd (hOther.trans hValue.symm).dvd
        (abs_lt.mpr ⟨by omega, by omega⟩)
    omega
  · rintro rfl
    exact ⟨⟨hLow, hHigh⟩, hValue⟩

/-! ### Bit patterns -/

/-- The three words that the code shifts by the width of a field. -/
theorem toNat_shifted {width : Nat} (hWidth : width < 64) :
    (1 <<< UInt64.ofNat width : UInt64).toNat = 2 ^ width ∧
      (1 <<< UInt64.ofNat width - 1 : UInt64).toNat = 2 ^ width - 1 ∧
      (~~~0 <<< UInt64.ofNat width : UInt64).toNat = 2 ^ width * (2 ^ (64 - width) - 1) := by
  have hEach : ∀ width : Fin 64, (1 <<< UInt64.ofNat width : UInt64).toNat = 2 ^ (width : Nat) ∧
      (1 <<< UInt64.ofNat width - 1 : UInt64).toNat = 2 ^ (width : Nat) - 1 ∧
      (~~~0 <<< UInt64.ofNat width : UInt64).toNat =
        2 ^ (width : Nat) * (2 ^ (64 - width : Nat) - 1) := by
    decide +kernel
  exact hEach ⟨width, hWidth⟩

theorem Valid.toNat_encode (hValid : encoding.Valid) (value : Int) :
    ((encoding.encode value).toNat : Int) = value % 2 ^ encoding.bits := by
  have hWord : ((asU64 value).toNat : Int) = value % 2 ^ 64 := by
    rw [asU64, UInt64.toNat_ofNat', Nat.mod_eq_of_lt (by omega)]
    exact Int.toNat_of_nonneg (by omega)
  unfold encode
  split
  next hFull => rw [hFull, hWord]
  next hPart =>
    have hBits : encoding.bits < 64 := by
      have hLimit := hValid.2
      split at hLimit <;> omega
    rw [UInt64.toNat_and, (toNat_shifted hBits).2.1, Nat.and_two_pow_sub_one_eq_mod,
      Int.natCast_mod, hWord]
    exact Int.emod_emod_of_dvd value (pow_dvd_pow 2 hBits.le)

/-- Extending the sign subtracts the weight of the bit after the field. -/
theorem toNat_extended {width : Nat} (hWidth : width < 64) {raw : UInt64}
    (hRaw : raw.toNat < 2 ^ width) :
    (raw ||| (~~~(0 : UInt64) <<< UInt64.ofNat width)).toNat = 2 ^ 64 - 2 ^ width + raw.toNat := by
  rw [UInt64.toNat_or, (toNat_shifted hWidth).2.2, Nat.or_comm, ← Nat.two_pow_add_eq_or_of_lt hRaw,
    Nat.mul_sub, Nat.mul_one, ← Nat.pow_add, Nat.add_sub_cancel' hWidth.le]

theorem Valid.decode_eq (hValid : encoding.Valid) {raw : UInt64}
    (hRaw : raw.toNat < 2 ^ encoding.bits) :
    encoding.decode raw = encoding.represent raw.toNat := by
  obtain ⟨signed, bits⟩ := encoding
  obtain ⟨hPositive, hLimit⟩ := hValid
  dsimp only at hPositive hLimit hRaw
  have hCast : ((2 ^ bits : Nat) : Int) = 2 ^ bits := by push_cast; rfl
  cases signed with
  | false =>
    have hLess : 2 ^ bits ≤ 2 ^ 63 := Nat.pow_le_pow_right (by omega) hLimit
    simp only [decode, asI64, wrapI64, BitFieldEncoding.represent, Bool.not_false, if_true,
      Bool.false_and, Bool.false_eq_true, if_false]
    omega
  | true =>
    have hLimit : bits ≤ 64 := hLimit
    obtain ⟨half, rfl⟩ := Nat.exists_eq_add_one_of_ne_zero hPositive.ne'
    have hHalfCast : ((2 ^ half : Nat) : Int) = 2 ^ half := by push_cast; rfl
    simp only [decode, asI64, wrapI64, BitFieldEncoding.represent, Bool.not_true, Bool.true_and,
      Bool.false_eq_true, if_false, decide_eq_true_eq, Nat.add_sub_cancel, ← hCast, ← hHalfCast]
    by_cases hFull : half + 1 = 64
    · obtain rfl : half = 63 := by omega
      split <;> omega
    · have hSign : raw &&& 1 <<< UInt64.ofNat half ≠ 0 ↔ 2 ^ half ≤ raw.toNat := by
        rw [ne_eq, ← UInt64.toNat_inj, UInt64.toNat_and, (toNat_shifted (by omega)).1,
          Nat.and_two_pow]
        by_cases hBit : 2 ^ half ≤ raw.toNat
        · rw [Nat.testBit_of_two_pow_le_and_two_pow_add_one_gt hBit hRaw]
          simp [hBit]
        · rw [Nat.testBit_lt_two_pow (not_le.mp hBit)]
          simp [hBit]
      have hLess : 2 ^ (half + 1) ≤ 2 ^ 63 := Nat.pow_le_pow_right (by omega) (by omega)
      rw [toNat_extended (by omega) hRaw]
      simp only [hSign]
      split <;> omega

/-! ### Overflow -/

theorem normalize_eq (value : Int) (overflow : BitFieldOverflow) :
    encoding.normalize value overflow =
      if encoding.InBounds value then some value
      else match overflow with
        | .fail => none
        | .sat => some (if value < encoding.bounds.1 then encoding.bounds.1 else encoding.bounds.2)
        | .wrap => some (encoding.represent (value % 2 ^ encoding.bits)) := by
  simp only [normalize, InBounds, BitFieldEncoding.represent, Bool.and_eq_true, decide_eq_true_eq]
  split
  · rfl
  · cases overflow with
    | fail => rfl
    | sat | wrap => exact (apply_ite some _ _ _).symm

/-- Bit patterns and values within the bounds stand for each other. A number within the
bounds is kept; of any other one WRAP makes the value congruent to it, SAT the nearest one,
and FAIL none. -/
theorem number_laws (encoding : BitFieldEncoding) (hValid : encoding.Valid) :
    (∀ raw : UInt64, raw.toNat < 2 ^ encoding.bits →
      encoding.InBounds (encoding.decode raw) ∧ encoding.encode (encoding.decode raw) = raw) ∧
    (∀ value, encoding.InBounds value →
      (encoding.encode value).toNat < 2 ^ encoding.bits ∧
        encoding.decode (encoding.encode value) = value) ∧
    ∀ value : Int,
      (encoding.InBounds value → ∀ overflow, encoding.normalize value overflow = some value) ∧
      (∃ wrapped, encoding.normalize value .wrap = some wrapped ∧ ∀ other,
        encoding.InBounds other ∧ other ≡ value [ZMOD 2 ^ encoding.bits] ↔ other = wrapped) ∧
      encoding.normalize value .sat = some (max encoding.bounds.1 (min value encoding.bounds.2)) ∧
      (encoding.normalize value .fail = none ↔ ¬ encoding.InBounds value) ∧
      ∀ overflow, ∀ result ∈ encoding.normalize value overflow, encoding.InBounds result ∧
        FitsI64 result := by
  have hInside {value : Int} (hBounds : encoding.InBounds value) :
      value = encoding.represent (value % 2 ^ encoding.bits) :=
    hValid.congruent_iff.mp ⟨hBounds, .refl value⟩
  refine ⟨fun raw hRaw => ?_, fun value hBounds => ?_,
    fun value => ⟨fun hBounds overflow => ?_, ?_, ?_, ?_, ?_⟩⟩
  · obtain ⟨hBounds, hMod⟩ :=
      hValid.represent (Int.natCast_nonneg raw.toNat) (by exact_mod_cast hRaw)
    rw [hValid.decode_eq hRaw]
    refine ⟨hBounds, UInt64.toNat_inj.mp (Int.ofNat.inj ?_)⟩
    exact (hValid.toNat_encode _).trans
      (hMod.eq.trans (Int.emod_eq_of_lt (Int.natCast_nonneg _) (by exact_mod_cast hRaw)))
  · have hNumber := hValid.toNat_encode value
    have hRaw : (encoding.encode value).toNat < 2 ^ encoding.bits := by
      have := Int.emod_lt_of_pos value (pow_pos (by decide) encoding.bits :
          (0 : Int) < 2 ^ encoding.bits)
      rw [← hNumber] at this
      exact_mod_cast this
    rw [hValid.decode_eq hRaw, hNumber]
    exact ⟨hRaw, (hInside hBounds).symm⟩
  · rw [normalize_eq, if_pos hBounds]
  · refine ⟨encoding.represent (value % 2 ^ encoding.bits), ?_, fun _ => hValid.congruent_iff⟩
    rw [normalize_eq]
    split
    · next hBounds => rw [← hInside hBounds]
    · rfl
  · obtain ⟨-, ⟨hLow, hHigh⟩, -⟩ := hValid.bounds
    rw [normalize_eq]
    split
    · next hBounds => rw [min_eq_left hBounds.2, max_eq_right hBounds.1]
    · next hOutside =>
        rw [InBounds] at hOutside
        dsimp only
        split
        · rw [min_eq_left (by omega), max_eq_left (by omega)]
        · rw [min_eq_right (by omega), max_eq_right (by omega)]
  · rw [normalize_eq]
    split
    · next hBounds => simp [hBounds]
    · next hOutside => simp [hOutside]
  · intro overflow result hResult
    suffices hBounds : encoding.InBounds result from ⟨hBounds, hValid.fits hBounds⟩
    obtain ⟨-, ⟨hLow, hHigh⟩, -⟩ := hValid.bounds
    rw [normalize_eq] at hResult
    split at hResult
    · next hBounds => exact Option.some.inj hResult ▸ hBounds
    · cases overflow with
      | fail => cases hResult
      | wrap => exact (hValid.congruent_iff.mpr (Option.some.inj hResult).symm).1
      | sat =>
        obtain rfl := Option.some.inj hResult
        unfold InBounds
        split <;> omega

/-- The widest signed field: one more than its greatest value is its least. -/
theorem number_laws_i64 :
    (⟨true, 64⟩ : BitFieldEncoding).normalize (2 ^ 63) .wrap = some (-2 ^ 63) ∧
      (⟨true, 64⟩ : BitFieldEncoding).decode (encode ⟨true, 64⟩ (-2 ^ 63)) = -2 ^ 63 := by
  have hLaws := number_laws ⟨true, 64⟩ (by decide)
  obtain ⟨wrapped, hWrapped, hUnique⟩ := (hLaws.2.2 (2 ^ 63)).2.1
  refine ⟨?_, (hLaws.2.1 (-2 ^ 63) (by decide)).2⟩
  rw [hWrapped, (hUnique (-2 ^ 63)).mp ⟨by decide, by decide⟩]

end CacheCat.BitFieldEncoding
