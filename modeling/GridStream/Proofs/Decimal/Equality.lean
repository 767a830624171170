import GridStream.Decimal.Binary
import Mathlib.Algebra.Group.Nat.Defs

/-!
# Equality of doubles

Two doubles compare as equal if they are the same infinity, or have sign, mantissa and exponent in
common, but for the sign of zero (`Decimal.beq_iff`). So equality is symmetric and transitive,
though not reflexive, and it agrees with equality of the integers that doubles stand for
(`Decimal.exactInt?_of_beq`, `Decimal.beq_of_exactInt?`): a double has only one mantissa and
exponent (`Parts.Canonical`).
-/

namespace GridStream.Decimal
open Float.Model Float.Model.UnpackedFloat

namespace Parts

/-- Parts of doubles that compare as equal. -/
inductive Same : Parts → Parts → Prop
  | infinite (negative : Bool) : Same (.infinite negative) (.infinite negative)
  | zero (a b : Bool) (exponent : Int) : Same (.finite a 0 exponent) (.finite b 0 exponent)
  | finite (negative : Bool) (mantissa : Nat) (exponent : Int) :
    Same (.finite negative mantissa exponent) (.finite negative mantissa exponent)

variable {p q r : Parts}

theorem Same.symm (h : Same p q) : Same q p := by
  cases h with
  | infinite n => exact .infinite n
  | zero a b e => exact .zero b a e
  | finite n m e => exact .finite n m e

theorem Same.trans (h : Same p q) (h' : Same q r) : Same p r := by
  cases h with
  | infinite n => exact h'
  | zero a b e =>
    cases h' with
    | zero _ c _ => exact .zero a c e
    | finite _ _ _ => exact .zero a b e
  | finite n m e => exact h'

theorem same_infinite_iff {a : Bool} : Same (.infinite a) q ↔ q = .infinite a :=
  ⟨fun h => by cases h; rfl, fun h => h ▸ .infinite a⟩

theorem same_finite_iff {a : Bool} {m : Nat} {e : Int} :
    Same (.finite a m e) q ↔ ∃ b, q = .finite b m e ∧ (a = b ∨ m = 0) := by
  constructor
  · intro h
    cases h with
    | zero _ b => exact ⟨b, rfl, .inr rfl⟩
    | finite => exact ⟨a, rfl, .inl rfl⟩
  · rintro ⟨b, rfl, rfl | rfl⟩
    · exact .finite _ _ _
    · exact .zero _ _ _

theorem not_same_nan : ¬ Same .nan q := nofun

/-- A mantissa of 53 bits, or of fewer at the least exponent. -/
structure Canonical (mantissa : Nat) (exponent : Int) : Prop where
  lt : mantissa < 2 ^ 53
  le : -1074 ≤ exponent
  normal : exponent = -1074 ∨ 2 ^ 52 ≤ mantissa

theorem canonical_of_ofFloat {x : Float} {negative : Bool} {mantissa : Nat} {exponent : Int}
    (h : ofFloat x = .finite negative mantissa exponent) : Canonical mantissa exponent := by
  have hf : x.toBits.toNat % 2 ^ 52 < 2 ^ 52 := Nat.mod_lt _ (by decide)
  simp only [ofFloat, Nat.pow_eq] at h
  split at h
  · split at h <;> cases h
  · split at h
    · cases h
      exact ⟨by omega, Int.le_refl _, .inl rfl⟩
    · cases h
      exact ⟨by omega, by omega, .inr (by omega)⟩

/-- A number has no second mantissa at a higher exponent. -/
private theorem Canonical.ne_of_lt {m n j k : Nat} (hm : m < 2 ^ 53) (hn : 2 ^ 52 ≤ n)
    (h : j < k) : m * 2 ^ j ≠ n * 2 ^ k := by
  obtain ⟨d, rfl⟩ := Nat.exists_eq_add_of_lt h
  intro e
  have hpow : n * 2 ^ (j + d + 1) = n * 2 ^ d * 2 * 2 ^ j := by
    rw [Nat.pow_succ, Nat.pow_add, Nat.mul_comm (2 ^ j), ← Nat.mul_assoc, ← Nat.mul_assoc,
      Nat.mul_right_comm]
  rw [hpow] at e
  have hmn : m = n * 2 ^ d * 2 := Nat.eq_of_mul_eq_mul_right (Nat.two_pow_pos j) e
  have hd : n ≤ n * 2 ^ d := Nat.le_mul_of_pos_right n (Nat.two_pow_pos d)
  omega

theorem Canonical.eq {m n j k : Nat} (hm : Canonical m (j - 1074)) (hn : Canonical n (k - 1074))
    (h : m * 2 ^ j = n * 2 ^ k) : m = n ∧ j = k := by
  rcases Nat.lt_trichotomy j k with hjk | rfl | hkj
  · have hn' : 2 ^ 52 ≤ n := hn.normal.resolve_left (by omega)
    exact absurd h (Canonical.ne_of_lt hm.lt hn' hjk)
  · exact ⟨Nat.eq_of_mul_eq_mul_right (Nat.two_pow_pos j) h, rfl⟩
  · have hm' : 2 ^ 52 ≤ m := hm.normal.resolve_left (by omega)
    exact absurd h.symm (Canonical.ne_of_lt hn.lt hm' hkj)

/-! ## The parts that doubles are compared by -/

def ofUnpacked : UnpackedFloat → Parts
  | .infinity s => .infinite (s == .negative)
  | .notANumber => .nan
  | .zero s => .finite (s == .negative) 0 (-1074)
  | .finite s m e _ => .finite (s == .negative) m e

section
variable {s : Sign} {m : Nat} {e : Int}

@[simp] theorem ofUnpacked_infinity : ofUnpacked (.infinity s) = .infinite (s == .negative) := rfl

@[simp] theorem ofUnpacked_notANumber : ofUnpacked .notANumber = .nan := rfl

@[simp] theorem ofUnpacked_zero : ofUnpacked (.zero s) = .finite (s == .negative) 0 (-1074) := rfl

@[simp] theorem ofUnpacked_finite {h : 0 < m} :
    ofUnpacked (.finite s m e h) = .finite (s == .negative) m e := rfl

end

section
variable {b : BitVec Format.binary64.numBits}

private theorem toNat_unpackMantissa : (unpackMantissa b).toNat = b.toNat % 2 ^ 52 := by
  simp [unpackMantissa, BitVec.extractLsb]

private theorem toNat_unpackExponent : (unpackExponent b).toNat = b.toNat / 2 ^ 52 % 2 ^ 11 := by
  simp [unpackExponent, BitVec.extractLsb, Nat.shiftRight_eq_div_pow]

private theorem toNat_unpackSign : (unpackSign b).toNat = b.toNat / 2 ^ 63 := by
  have hb : b.toNat < 2 ^ 64 := b.isLt
  have hs : (unpackSign b).toNat = b.toNat >>> 63 % 2 ^ 1 := rfl
  rw [hs, Nat.shiftRight_eq_div_pow]
  omega

private theorem ofBitVec_beq {v : BitVec 1} :
    (Sign.ofBitVec v == .negative) = (v.toNat == 1) := by
  revert v
  decide

private theorem toNat_append_one {m : BitVec 52} : (1#1 ++ m).toNat = m.toNat + 2 ^ 52 := by
  rw [BitVec.toNat_append, ← Nat.shiftLeft_add_eq_or_of_lt m.isLt]
  simp [Nat.shiftLeft_eq, Nat.add_comm]

theorem ofUnpacked_unpack :
    ofUnpacked (UnpackedFloat.unpack Format.binary64 b) =
      if b.toNat / 2 ^ 52 % 2 ^ 11 = 2047 then
        if b.toNat % 2 ^ 52 = 0 then .infinite (b.toNat / 2 ^ 63 == 1) else .nan
      else if b.toNat / 2 ^ 52 % 2 ^ 11 = 0 then
        .finite (b.toNat / 2 ^ 63 == 1) (b.toNat % 2 ^ 52) (-1074)
      else
        .finite (b.toNat / 2 ^ 63 == 1) (b.toNat % 2 ^ 52 + 2 ^ 52)
          (((b.toNat / 2 ^ 52 % 2 ^ 11 : Nat) : Int) - 1075) := by
  have hones : unpackExponent b = -1#11 ↔ b.toNat / 2 ^ 52 % 2 ^ 11 = 2047 := by
    rw [← toNat_unpackExponent, BitVec.toNat_eq]
    exact Iff.rfl
  have hzeros : unpackExponent b = 0#11 ↔ b.toNat / 2 ^ 52 % 2 ^ 11 = 0 := by
    rw [← toNat_unpackExponent, BitVec.toNat_eq]
    exact Iff.rfl
  have hfraction : unpackMantissa b = 0#52 ↔ b.toNat % 2 ^ 52 = 0 := by
    rw [← toNat_unpackMantissa, BitVec.toNat_eq]
    exact Iff.rfl
  have hsign : (Sign.ofBitVec (unpackSign b) == .negative) = (b.toNat / 2 ^ 63 == 1) := by
    rw [ofBitVec_beq, toNat_unpackSign]
  unfold UnpackedFloat.unpack
  dsimp only
  by_cases h₁ : b.toNat / 2 ^ 52 % 2 ^ 11 = 2047
  · rw [if_pos h₁, if_pos (hones.2 h₁)]
    by_cases h₂ : b.toNat % 2 ^ 52 = 0
    · rw [if_pos h₂, if_pos (hfraction.2 h₂), ofUnpacked_infinity, hsign]
    · rw [if_neg h₂, if_neg (mt hfraction.1 h₂), ofUnpacked_notANumber]
  · rw [if_neg h₁, if_neg (mt hones.1 h₁)]
    by_cases h₀ : b.toNat / 2 ^ 52 % 2 ^ 11 = 0
    · rw [if_pos h₀, if_pos (hzeros.2 h₀)]
      by_cases h₂ : b.toNat % 2 ^ 52 = 0
      · rw [dif_pos (hfraction.2 h₂), ofUnpacked_zero, hsign, h₂]
      · rw [dif_neg (mt hfraction.1 h₂), ofUnpacked_finite, hsign, toNat_unpackMantissa,
          toNat_unpackExponent, h₀]
        rfl
    · rw [if_neg h₀, if_neg (mt hzeros.1 h₀), ofUnpacked_finite, hsign, toNat_append_one,
        toNat_unpackMantissa, toNat_unpackExponent]
      rfl

end

theorem ofFloat_eq (x : Float) : ofFloat x = ofUnpacked x.toModel.unpack :=
  ofUnpacked_unpack.symm

theorem beq_unpacked_iff {a b : UnpackedFloat} :
    UnpackedFloat.beq a b = true ↔ Same (ofUnpacked a) (ofUnpacked b) := by
  have hsign : (Sign.negative == Sign.negative) = true ∧ (Sign.positive == Sign.negative) = false :=
    ⟨rfl, rfl⟩
  unfold UnpackedFloat.beq
  -- Only the cases below say which branch of the comparison applies.
  delta UnpackedFloat.compare
  cases a with
  | notANumber => simp [not_same_nan]
  | infinity s =>
    rw [ofUnpacked_infinity, same_infinite_iff]
    cases b with
    | infinity t => cases s <;> cases t <;> simp [hsign, compare]
    | _ => cases s <;> dsimp only [ofUnpacked] <;> simp
  | zero s =>
    rw [ofUnpacked_zero, same_finite_iff]
    cases b with
    | infinity t => cases t <;> simp
    | finite t n f hn =>
      cases t <;> dsimp only [ofUnpacked] <;> simp [Nat.ne_of_gt hn]
    | _ => simp
  | finite s m e hm =>
    rw [ofUnpacked_finite, same_finite_iff]
    have hm : m ≠ 0 := Nat.ne_of_gt hm
    cases b with
    | infinity t => cases t <;> dsimp only <;> simp
    | notANumber => dsimp only; simp
    | zero t => cases s <;> dsimp only <;> simp [hm.symm]
    | finite t n f hn =>
      cases s <;> cases t <;> dsimp only [ofUnpacked] <;> simp [hm, hsign]
      all_goals omega

end Parts

variable {x y z : Float} {n : Int}

theorem beq_iff : (x == y) = true ↔ Parts.Same (Parts.ofFloat x) (Parts.ofFloat y) := by
  rw [Parts.ofFloat_eq, Parts.ofFloat_eq]
  exact Parts.beq_unpacked_iff

theorem beq_symm (h : (x == y) = true) : (y == x) = true :=
  beq_iff.2 (beq_iff.1 h).symm

theorem beq_trans (h : (x == y) = true) (h' : (y == z) = true) : (x == z) = true :=
  beq_iff.2 ((beq_iff.1 h).trans (beq_iff.1 h'))

/-- Doubles that compare as equal stand for the same integer, if for any. -/
theorem exactInt?_of_beq (h : (x == y) = true) : exactInt? y = exactInt? x := by
  have hs := beq_iff.1 h
  unfold exactInt?
  generalize Parts.ofFloat x = p at hs
  generalize Parts.ofFloat y = q at hs
  cases hs with
  | zero a b e => simp [binaryRatio, Ratio.floor]
  | infinite | finite => rfl

/-- A double that stands for an integer is, as a quotient, equal to it. -/
private theorem of_exactInt? (h : exactInt? x = some n) : ∃ negative mantissa exponent,
    Parts.ofFloat x = .finite negative mantissa exponent ∧
      n.natAbs * 2 ^ (-exponent).toNat = mantissa * 2 ^ exponent.toNat ∧
      (n ≠ 0 → negative = decide (n < 0)) := by
  unfold exactInt? at h
  split at h
  · next negative mantissa exponent hx =>
    dsimp only at h
    split at h
    · next hdvd =>
      have hq := Nat.div_mul_cancel (Nat.dvd_of_mod_eq_zero hdvd)
      rw [Option.some.injEq] at h
      generalize hf : (binaryRatio mantissa exponent).floor = q at h
      rw [Ratio.floor] at hf
      rw [hf] at hq
      have hn : n.natAbs = q := by
        rw [← h]
        split <;> simp
      refine ⟨negative, mantissa, exponent, hx, hn ▸ hq, fun hne => ?_⟩
      cases negative <;> simp at h ⊢ <;> omega
    · cases h
  · cases h

/-- A quotient over a common power of two. -/
private theorem mul_two_pow {a m c k : Nat} (h : a * 2 ^ (-((k : Int) - c)).toNat =
    m * 2 ^ ((k : Int) - c).toNat) : a * 2 ^ c = m * 2 ^ k := by
  have hexp : ((k : Int) - c).toNat + c = k + (-((k : Int) - c)).toNat := by omega
  refine Nat.eq_of_mul_eq_mul_right (Nat.two_pow_pos (-((k : Int) - c)).toNat) ?_
  calc a * 2 ^ c * 2 ^ (-((k : Int) - c)).toNat
      = m * 2 ^ ((k : Int) - c).toNat * 2 ^ c := by rw [Nat.mul_right_comm, h]
    _ = m * 2 ^ k * 2 ^ (-((k : Int) - c)).toNat := by
      rw [Nat.mul_assoc, ← Nat.pow_add, hexp, Nat.pow_add, Nat.mul_assoc]

private theorem mul_two_pow_eq {a m m' c j k : Nat}
    (h : a * 2 ^ (-((j : Int) - c)).toNat = m * 2 ^ ((j : Int) - c).toNat)
    (h' : a * 2 ^ (-((k : Int) - c)).toNat = m' * 2 ^ ((k : Int) - c).toNat) :
    m * 2 ^ j = m' * 2 ^ k :=
  (mul_two_pow h).symm.trans (mul_two_pow h')

/-- Doubles that stand for the same integer compare as equal. -/
theorem beq_of_exactInt? (hx : exactInt? x = some n) (hy : exactInt? y = some n) :
    (x == y) = true := by
  obtain ⟨a, m, e, hpx, hm, ha⟩ := of_exactInt? hx
  obtain ⟨b, m', e', hpy, hm', hb⟩ := of_exactInt? hy
  have hc := Parts.canonical_of_ofFloat hpx
  have hc' := Parts.canonical_of_ofFloat hpy
  rw [beq_iff, hpx, hpy]
  obtain ⟨j, hj⟩ := Int.le.dest hc.le
  obtain ⟨k, hk⟩ := Int.le.dest hc'.le
  obtain rfl : e = (j : Int) - 1074 := by omega
  obtain rfl : e' = (k : Int) - 1074 := by omega
  obtain ⟨rfl, rfl⟩ := hc.eq hc' (mul_two_pow_eq hm hm')
  by_cases hn : n = 0
  · have hzero : m = 0 := by
      rw [hn, Int.natAbs_zero, Nat.zero_mul] at hm
      exact (Nat.mul_eq_zero.1 hm.symm).resolve_right (Nat.ne_of_gt (Nat.two_pow_pos _))
    rw [hzero]
    exact .zero a b _
  · rw [ha hn, hb hn]
    exact .finite _ _ _

end GridStream.Decimal
