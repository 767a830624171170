import GridStream.Proofs.Decimal.Equality
import Mathlib

/-!
# Exact values of doubles

Every finite double is a rational number (`Decimal.Parts.toRat?`), and rounding a quotient gives the
integer nearest to it, the even one where two are (`Decimal.nearestEven_roundDiv`). The double that
is nearest to a decimal has no sign (`Decimal.unsigned_ofDecimal`), and the opposite of a finite
double is finite (`Decimal.isFinite_neg`).
-/

namespace GridStream.Decimal

/-- Whether an integer is nearest to a number, and even where two integers are. -/
structure NearestEven (x : ℚ) (n : ℤ) : Prop where
  near : |x - n| ≤ 1 / 2
  even : |x - n| = 1 / 2 → Even n

theorem nearestEven_of_lt {x : ℚ} {n : ℤ} (h : |x - n| < 1 / 2) : NearestEven x n :=
  ⟨h.le, fun e => absurd e h.ne⟩

/-- Of two neighbours that are equally near, only one is even. -/
private theorem NearestEven.not_lt {x : ℚ} {m n : ℤ} (hm : NearestEven x m)
    (hn : NearestEven x n) : ¬ m < n := by
  intro hlt
  have hle : (m : ℚ) + 1 ≤ n := by exact_mod_cast hlt
  have h₁ := (abs_le.1 hm.near).2
  have h₂ := (abs_le.1 hn.near).1
  have hnext : n = m + 1 := by
    have : (n : ℚ) = m + 1 := by linarith
    exact_mod_cast this
  have hm' : x - m = 1 / 2 := by linarith
  have hn' : x - n = -(1 / 2) := by linarith
  have heven := hm.even (by rw [hm']; norm_num)
  have heven' := hn.even (by rw [hn']; norm_num)
  rw [hnext, Int.even_add_one] at heven'
  exact heven' heven

theorem NearestEven.unique {x : ℚ} {m n : ℤ} (hm : NearestEven x m) (hn : NearestEven x n) :
    m = n :=
  Int.le_antisymm (Int.not_lt.1 (hn.not_lt hm)) (Int.not_lt.1 (hm.not_lt hn))

theorem nearestEven_roundDiv {num den : ℕ} (hd : 0 < den) :
    NearestEven (num / den) (roundDiv num den) := by
  have hden : (0 : ℚ) < den := Nat.cast_pos.2 hd
  have hnum := Nat.div_add_mod num den
  have hmod := Nat.mod_lt num hd
  unfold roundDiv
  dsimp only
  generalize num / den = q at hnum ⊢
  generalize num % den = r at hnum hmod ⊢
  have hx : (num : ℚ) / den = q + r / den := by
    rw [← hnum]
    push_cast
    field_simp
  have hr : (0 : ℚ) ≤ r / den := div_nonneg (Nat.cast_nonneg r) hden.le
  rw [hx]
  split
  · next h =>
    have h : (r : ℚ) / den < 1 / 2 := by
      have : (2 * r : ℚ) < den := by exact_mod_cast h
      rw [div_lt_iff₀ hden]
      linarith
    refine nearestEven_of_lt ?_
    rw [Int.cast_natCast, add_sub_cancel_left, abs_of_nonneg hr]
    exact h
  · split
    · next h =>
      have h : (r : ℚ) / den = 1 / 2 := by
        have : (2 * r : ℚ) = den := by exact_mod_cast h
        rw [div_eq_iff hden.ne']
        linarith
      have heven : Even (q + q % 2) := by
        rw [Nat.even_iff]
        omega
      have hdist : |(q + r / den : ℚ) - ((q + q % 2 : ℕ) : ℤ)| = 1 / 2 := by
        rw [h]
        rcases Nat.mod_two_eq_zero_or_one q with hq | hq <;> rw [hq] <;> push_cast
        · rw [show (q + 1 / 2 - (q + 0) : ℚ) = 1 / 2 by ring]
          norm_num
        · rw [show (q + 1 / 2 - (q + 1) : ℚ) = -(1 / 2) by ring]
          norm_num
      exact ⟨hdist.le, fun _ => by exact_mod_cast heven⟩
    · next h h' =>
      have hlt : (r : ℚ) / den < 1 := by
        rw [div_lt_iff₀ hden, one_mul]
        exact_mod_cast hmod
      have hgt : 1 / 2 < (r : ℚ) / den := by
        have : (den : ℚ) < 2 * r := by exact_mod_cast (by omega : den < 2 * r)
        rw [lt_div_iff₀ hden]
        linarith
      refine nearestEven_of_lt (abs_lt.2 ⟨?_, ?_⟩) <;> push_cast <;> linarith

/-! ## Doubles as rational numbers -/

/-- The number that the parts of a double stand for. -/
def Parts.toRat? : Parts → Option ℚ
  | .finite negative mantissa exponent =>
    some ((if negative then -1 else 1) * mantissa * 2 ^ exponent)
  | _ => none

theorem binaryRatio_eq (mantissa : ℕ) (exponent : ℤ) :
    ((binaryRatio mantissa exponent).num / (binaryRatio mantissa exponent).den : ℚ) =
      mantissa * 2 ^ exponent := by
  simp only [binaryRatio, Nat.pow_eq]
  push_cast
  obtain ⟨n, rfl | rfl⟩ := exponent.eq_nat_or_neg
  · simp
  · simp [div_eq_mul_inv]

theorem binaryRatio_den_pos (mantissa : ℕ) (exponent : ℤ) :
    0 < (binaryRatio mantissa exponent).den := Nat.two_pow_pos _

/-! ## The sign of a decimal -/

section
open Float.Model Float.Model.UnpackedFloat

/-- Neither negative nor negative zero. -/
inductive Unsigned : UnpackedFloat → Prop
  | nan : Unsigned .notANumber
  | infinity : Unsigned (.infinity .positive)
  | zero : Unsigned (.zero .positive)
  | finite (mantissa : Nat) (exponent : Int) (pos : 0 < mantissa) :
    Unsigned (.finite .positive mantissa exponent pos)

namespace Unsigned

private theorem sign_packComponents (s : Sign) (e : BitVec 11) (m : BitVec 52) :
    Sign.ofBitVec (unpackSign (packComponents Format.binary64 s e m)) = s := by
  rw [unpackSign_packComponents, Sign.ofBitVec_toBitVec]

private theorem sign_pack {u : UnpackedFloat} (h : Unsigned u) :
    Sign.ofBitVec (unpackSign (UnpackedFloat.pack Format.binary64 u)) = .positive := by
  cases h with
  | nan | infinity | zero => exact sign_packComponents _ _ _
  | finite m e pos =>
    unfold UnpackedFloat.pack packedInfinity
    dsimp only
    split
    · exact sign_packComponents _ _ _
    · split <;> exact sign_packComponents _ _ _

private theorem unpack {b : BitVec Format.binary64.numBits}
    (h : Sign.ofBitVec (unpackSign b) = .positive) :
    Unsigned (UnpackedFloat.unpack Format.binary64 b) := by
  unfold UnpackedFloat.unpack
  simp only [h]
  split
  · split
    · exact .infinity
    · exact .nan
  · split
    · split
      · exact .zero
      · exact .finite _ _ _
    · exact .finite _ _ _

private theorem roundWithAccuracy (m : Nat) (e : Int) (a : Accuracy) :
    Unsigned (UnpackedFloat.roundWithAccuracy Format.binary64 .positive m e a) := by
  unfold UnpackedFloat.roundWithAccuracy
  dsimp only
  split
  · exact .zero
  · exact .finite _ _ _

variable {u v : UnpackedFloat}

private theorem mul (hu : Unsigned u) (hv : Unsigned v) :
    Unsigned (UnpackedFloat.mul Format.binary64 u v) := by
  cases hu <;> cases hv <;>
    first | exact .nan | exact .infinity | exact .zero | exact roundWithAccuracy _ _ _

private theorem div (hu : Unsigned u) (hv : Unsigned v) :
    Unsigned (UnpackedFloat.div Format.binary64 u v) := by
  cases hu <;> cases hv <;>
    first | exact .nan | exact .infinity | exact .zero | exact roundWithAccuracy _ _ _

private theorem ofNat (n : Nat) : Unsigned (UnpackedFloat.ofNat Format.binary64 n) := by
  unfold UnpackedFloat.ofNat UnpackedFloat.ofInt UnpackedFloat.normalize
  split
  · next h => exact absurd (Int.natCast_nonneg n) (Int.not_le.2 (Int.compare_eq_lt.1 h))
  · exact .zero
  · exact roundWithAccuracy _ _ _

private theorem ofScientific (m : Nat) (e : Int) :
    Unsigned (UnpackedFloat.ofScientific Format.binary64 m e) := by
  unfold UnpackedFloat.ofScientific
  split
  · exact .zero
  · split
    · exact .infinity
    · split
      · exact .zero
      · split
        · exact .mul (.finite _ _ _) (.finite _ _ _)
        · exact .div (.finite _ _ _) (.finite _ _ _)

end Unsigned

variable {x y : Float}

theorem unsigned_pack {u : UnpackedFloat} (h : Unsigned u) :
    Unsigned (Float.Model.pack u).unpack := .unpack h.sign_pack

theorem unsigned_div (hx : Unsigned x.toModel.unpack) (hy : Unsigned y.toModel.unpack) :
    Unsigned (x / y).toModel.unpack := unsigned_pack (.div hx hy)

theorem unsigned_mul (hx : Unsigned x.toModel.unpack) (hy : Unsigned y.toModel.unpack) :
    Unsigned (x * y).toModel.unpack := unsigned_pack (.mul hx hy)

private theorem sign_powerOfTen :
    ∀ (k : Nat) (h : k < Float.exactlyRepresentablePowersOfTen.size),
      @unpackSign Format.binary64
        Float.exactlyRepresentablePowersOfTen[k].toModel.toBits.toBitVec = 0#1 := by
  decide

private theorem unsigned_powerOfTen {k : Nat}
    (h : k < Float.exactlyRepresentablePowersOfTen.size) :
    Unsigned Float.exactlyRepresentablePowersOfTen[k].toModel.unpack :=
  .unpack (by rw [sign_powerOfTen k h]; rfl)

theorem unsigned_ofScientific (m : Nat) (s : Bool) (e : Nat) :
    Unsigned (Float.ofScientific m s e).toModel.unpack := by
  unfold Float.ofScientific
  split
  · next h =>
    have hm : Unsigned m.toUInt64.toFloat.toModel.unpack := unsigned_pack (.ofNat _)
    have he := unsigned_powerOfTen (Nat.lt_succ_of_le h.2)
    dsimp only
    split
    · exact unsigned_div hm he
    · exact unsigned_mul hm he
  · exact unsigned_pack (.ofScientific _ _)

theorem unsigned_ofDecimal (digits : Nat) (power : Int) :
    Unsigned (ofDecimal digits power).toModel.unpack := by
  unfold ofDecimal
  dsimp only
  split
  · exact unsigned_ofScientific _ _ _
  · split
    · exact unsigned_div (unsigned_ofScientific _ _ _) (unsigned_ofScientific _ _ _)
    · split <;> exact unsigned_ofScientific _ _ _

theorem negative_of_unsigned {negative : Bool} {mantissa : Nat} {exponent : Int}
    (hx : Unsigned x.toModel.unpack) (h : Parts.ofFloat x = .finite negative mantissa exponent) :
    negative = false := by
  rw [Parts.ofFloat_eq] at h
  generalize x.toModel.unpack = u at hx h
  cases hx <;> cases h <;> rfl

/-! ## The finite doubles -/

/-- Zero, or a number of either sign that fits into a double. -/
inductive Fits : UnpackedFloat → Prop
  | zero (s : Sign) : Fits (.zero s)
  | finite (s : Sign) (m : Nat) (e : Int) (pos : 0 < m) (le : e ≤ 971) : Fits (.finite s m e pos)

namespace Fits
variable {u : UnpackedFloat}

theorem neg (h : Fits u) : Fits u.neg := by
  cases h with
  | zero s => exact .zero _
  | finite s m e pos le => exact .finite _ m e pos le

private theorem unpackExponent_pack (h : Fits u) :
    @unpackExponent Format.binary64 (UnpackedFloat.pack Format.binary64 u) ≠ -1#11 := by
  cases h with
  | zero s =>
    rw [UnpackedFloat.pack, packedZero, unpackExponent_packComponents]
    decide
  | finite s m e pos le =>
    have hbiased : (e + Format.binary64.exponentBias +
        Format.binary64.mantissaBitsWithoutImplicit).toNat ≤ 2046 := by
      have hbias : (Format.binary64.exponentBias : Int) = 1023 := rfl
      have hbits : (Format.binary64.mantissaBitsWithoutImplicit : Int) = 52 := rfl
      omega
    unfold UnpackedFloat.pack
    dsimp only
    generalize (e + Format.binary64.exponentBias +
      Format.binary64.mantissaBitsWithoutImplicit).toNat = biased at hbiased
    rw [if_neg (by change ¬ 2048 ≤ biased + 1; omega)]
    split
    · rw [unpackExponent_packComponents, ne_eq, ← BitVec.toNat_inj, BitVec.toNat_ofNat]
      change ¬ biased % 2048 = 2047
      omega
    · rw [unpackExponent_packComponents]
      decide

end Fits

private theorem fits_unpack {b : BitVec Format.binary64.numBits} (h : unpackExponent b ≠ -1#11) :
    Fits (UnpackedFloat.unpack Format.binary64 b) := by
  have hlt := (unpackExponent b).isLt
  have hne : (unpackExponent b).toNat ≠ 2047 := fun e => h (BitVec.eq_of_toNat_eq e)
  have hbias : (Format.binary64.exponentBias : Int) = 1023 := rfl
  have hbits : (Format.binary64.mantissaBitsWithoutImplicit : Int) = 52 := rfl
  unfold UnpackedFloat.unpack
  dsimp only at hlt hne hbits ⊢
  rw [if_neg h]
  split
  · next hzero =>
    split
    · exact .zero _
    · refine .finite _ _ _ _ ?_
      rw [hzero, BitVec.toNat_zero]
      omega
  · exact .finite _ _ _ _ (by omega)

theorem isFinite_iff_fits : isFinite x = true ↔ Fits x.toModel.unpack := by
  unfold isFinite
  rw [Parts.ofFloat_eq]
  constructor
  · intro h
    refine fits_unpack fun hones => ?_
    unfold Float.Model.unpack UnpackedFloat.unpack at h
    dsimp only at h
    rw [if_pos hones] at h
    by_cases hm : @unpackMantissa Format.binary64 x.toModel.toBits.toBitVec = 0#52
    · rw [if_pos hm] at h
      cases h
    · rw [if_neg hm] at h
      cases h
  · intro h
    generalize x.toModel.unpack = u at h
    cases h <;> rfl

theorem isFinite_neg (h : isFinite x = true) : isFinite (-x) = true :=
  isFinite_iff_fits.2 (fits_unpack (isFinite_iff_fits.1 h).neg.unpackExponent_pack)

end

end GridStream.Decimal
