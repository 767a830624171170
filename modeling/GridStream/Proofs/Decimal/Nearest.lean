import GridStream.LandUse.Table
import GridStream.Proofs.Decimal.Exact

/-!
# The integer nearest to a double

A finite double rounds to the integer that is nearest to the rational number it stands for
(`Decimal.nearestInt?_eq_some_iff`). Below `2 ^ 63` that is the code of a cell
(`LookupTable.nearestCode_of_within`), since a double from `2 ^ 52` on is an integer itself.
-/

namespace GridStream

namespace Decimal

/-- The number that a double stands for, `none` if it is not finite. -/
def toRat? (x : Float) : Option ℚ := (Parts.ofFloat x).toRat?

/-- Whether an integer is nearest to a finite double, and even where two are. -/
def RoundsTo (x : Float) (n : ℤ) : Prop := ∃ q, toRat? x = some q ∧ NearestEven q n

variable {x : Float} {q : ℚ} {m n : ℤ} {negative : Bool} {mantissa : ℕ} {exponent : ℤ}

theorem NearestEven.neg (h : NearestEven q n) : NearestEven (-q) (-n) := by
  have hdist : |(-q - ((-n : ℤ) : ℚ))| = |q - n| := by
    push_cast
    rw [neg_sub_neg, abs_sub_comm]
  exact ⟨hdist ▸ h.near, fun e => (h.even (hdist ▸ e)).neg⟩

theorem RoundsTo.unique (hm : RoundsTo x m) (hn : RoundsTo x n) : m = n := by
  obtain ⟨q, hq, hm⟩ := hm
  obtain ⟨r, hr, hn⟩ := hn
  rw [hq] at hr
  cases hr
  exact hm.unique hn

theorem isFinite_iff : isFinite x = true ↔ ∃ q, toRat? x = some q := by
  unfold isFinite toRat?
  cases Parts.ofFloat x <;> simp [Parts.toRat?]

theorem finite_of_toRat? (hq : toRat? x = some q) : ∃ negative mantissa exponent,
    Parts.ofFloat x = .finite negative mantissa exponent ∧
      (if negative then -1 else 1) * mantissa * 2 ^ exponent = q := by
  unfold toRat? at hq
  cases hp : Parts.ofFloat x with
  | finite negative mantissa exponent =>
    rw [hp] at hq
    exact ⟨_, _, _, rfl, Option.some_inj.1 hq⟩
  | nan | infinite negative =>
    rw [hp] at hq
    cases hq

theorem roundsTo_round (h : Parts.ofFloat x = .finite negative mantissa exponent) :
    RoundsTo x (if negative then -((binaryRatio mantissa exponent).round : ℤ)
      else (binaryRatio mantissa exponent).round) := by
  have hround : NearestEven (mantissa * 2 ^ exponent) (binaryRatio mantissa exponent).round := by
    rw [← binaryRatio_eq]
    exact nearestEven_roundDiv (binaryRatio_den_pos mantissa exponent)
  refine ⟨_, by rw [toRat?, h, Parts.toRat?], ?_⟩
  cases negative with
  | false => simpa using hround
  | true => simpa using hround.neg

theorem nearestInt?_eq_some_iff : nearestInt? x = some n ↔ RoundsTo x n := by
  unfold nearestInt?
  split
  · next h =>
    have hround := roundsTo_round h
    rw [Option.some_inj]
    exact ⟨fun e => e ▸ hround, hround.unique⟩
  · next h =>
    refine iff_of_false nofun ?_
    rintro ⟨q, hq, -⟩
    obtain ⟨_, _, _, hp, -⟩ := finite_of_toRat? hq
    exact h _ _ _ hp

theorem exists_roundsTo (hq : toRat? x = some q) : ∃ n, RoundsTo x n := by
  obtain ⟨_, _, _, hp, -⟩ := finite_of_toRat? hq
  exact ⟨_, roundsTo_round hp⟩

theorem nearestEven_intCast : NearestEven (n : ℚ) n :=
  nearestEven_of_lt (by rw [sub_self, abs_zero]; norm_num)

/-- A finite double is an integer unless it is less than `2 ^ 52`. -/
theorem exists_int_or_lt (hq : toRat? x = some q) : (∃ k : ℤ, q = k) ∨ |q| < 2 ^ 52 := by
  obtain ⟨negative, mantissa, exponent, hp, rfl⟩ := finite_of_toRat? hq
  have hlt : mantissa < 2 ^ 53 := (Parts.canonical_of_ofFloat hp).lt
  rcases le_or_gt 0 exponent with hexp | hexp
  · obtain ⟨e, rfl⟩ := Int.eq_ofNat_of_zero_le hexp
    refine .inl ⟨(if negative then -1 else 1) * mantissa * 2 ^ e, ?_⟩
    push_cast
    rfl
  · have hhalf : (2 : ℚ) ^ exponent ≤ 2⁻¹ := by
      rw [← zpow_neg_one]
      exact zpow_le_zpow_right₀ (by norm_num) (by omega)
    have hmantissa : (mantissa : ℚ) < 2 ^ 53 := by exact_mod_cast hlt
    have hsign : |(if negative then -1 else 1 : ℚ)| = 1 := by split <;> norm_num
    refine .inr ?_
    rw [abs_mul, abs_mul, hsign, one_mul, Nat.abs_cast, abs_of_pos (by positivity)]
    calc (mantissa : ℚ) * 2 ^ exponent ≤ mantissa * 2⁻¹ :=
          mul_le_mul_of_nonneg_left hhalf (Nat.cast_nonneg _)
      _ < 2 ^ 53 * 2⁻¹ := mul_lt_mul_of_pos_right hmantissa (by norm_num)
      _ = 2 ^ 52 := by norm_num

/-- A double within the integers of 64 bits rounds to one of them. -/
theorem RoundsTo.within (h : RoundsTo x n) (hq : toRat? x = some q) (hlt : |q| < 2 ^ 63) :
    -2 ^ 63 ≤ n ∧ n < 2 ^ 63 := by
  obtain ⟨r, hr, hn⟩ := h
  rw [hq] at hr
  cases hr
  rw [abs_lt] at hlt
  rcases exists_int_or_lt hq with ⟨k, rfl⟩ | hsmall
  · rw [hn.unique nearestEven_intCast]
    exact ⟨by exact_mod_cast hlt.1.le, by exact_mod_cast hlt.2⟩
  · have hnear := abs_le.1 hn.near
    rw [abs_lt] at hsmall
    have hlow : (-2 ^ 63 : ℚ) ≤ n := by linarith
    have hhigh : (n : ℚ) < 2 ^ 63 := by linarith
    exact ⟨by exact_mod_cast hlow, by exact_mod_cast hhigh⟩

end Decimal

namespace LookupTable

open Decimal

variable {x : Float} {q : ℚ} {n : ℤ}

/-- A double of 64 bits has its nearest integer as its code. -/
theorem nearestCode_of_within (h : RoundsTo x n) (hn : -2 ^ 63 ≤ n ∧ n < 2 ^ 63) :
    nearestCode x = n := by
  rw [nearestCode, nearestInt?_eq_some_iff.2 h]
  exact if_pos hn

/-- The least integer of 64 bits stands for whatever has no code. -/
theorem nearestCode_cases (x : Float) :
    RoundsTo x (nearestCode x) ∨ nearestCode x = -2 ^ 63 := by
  unfold nearestCode
  split
  · next n h =>
    split
    · exact .inl (nearestInt?_eq_some_iff.1 h)
    · exact .inr rfl
  · exact .inr rfl

end LookupTable

end GridStream
