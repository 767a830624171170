import GridStream.Text.Character
import GridStream.Text.Search
import Mathlib.Algebra.Group.Nat.Defs

/-!
# Numbers of equally many digits

Among the characters of ASCII the only digits are those from zero to nine. Texts of equally many
such digits are in the order of the numbers that they spell (`Text.ofDigitChars_lt_iff`), so that a
number has only one text of a given length (`Text.ofDigitChars_inj`). It is the text of the number
with zeros in front (`Text.ofDigitChars_padLeft`).
-/

namespace GridStream.Text

variable {c : Char} {cs as bs : List Char}

theorem le_of_isDigit (h : c.isDigit = true) : '0' ≤ c ∧ c ≤ '9' := by
  have hplain : isPlainDigit c = true := h
  simpa [isPlainDigit] using hplain

theorem natOfDigits_eq (h : ∀ c ∈ cs, c.isDigit = true) :
    natOfDigits cs = Nat.ofDigitChars 10 cs 0 := by
  have hfold : ∀ n, cs.foldl (fun n c => 10 * n + (digitValue? c).getD 0) n =
      Nat.ofDigitChars 10 cs n := by
    induction cs with
    | nil => exact fun n => rfl
    | cons c cs ih =>
      rw [List.forall_mem_cons] at h
      have hc : '0' ≤ c ∧ c ≤ '9' := le_of_isDigit h.1
      intro n
      rw [List.foldl_cons, ih h.2, Nat.ofDigitChars_cons, digitValue?, if_pos hc]
      rfl
  exact hfold 0

theorem isDigit_iff : c.isDigit = true ↔ 48 ≤ c.toNat ∧ c.toNat ≤ 57 := by
  refine ⟨fun h => le_of_isDigit h, fun h => ?_⟩
  have hplain : isPlainDigit c = true := by
    simp only [isPlainDigit, Bool.and_eq_true, decide_eq_true_eq]
    exact h
  exact hplain

theorem ascii_of_isDigit (h : c.isDigit = true) : c.toNat < 128 := by
  rw [isDigit_iff] at h
  omega

theorem isDigit_of_ascii (hc : c.toNat < 128) : isDigit c = true ↔ c.isDigit = true := by
  rw [isDigit, digitValue?, if_pos hc, isDigit_iff]
  split
  · next h => exact iff_of_true rfl h
  · next h => exact iff_of_false nofun h

/-! ## Zeros in front -/

/-- A number is read back from its digits, with or without zeros in front. -/
theorem ofDigitChars_padLeft (width n : Nat) :
    Nat.ofDigitChars 10 (padLeft width '0' (toString n)).toList 0 = n := by
  rw [padLeft, String.toList_append, String.toList_ofList, Nat.ofDigitChars_append,
    Nat.ofDigitChars_replicate_zero, Nat.toString_eq_ofList_toDigits, String.toList_ofList,
    Nat.mul_zero, Nat.ofDigitChars_ten_toDigits]

theorem isDigit_of_mem_zeroPadded {width n : Nat} (h : c ∈ (zeroPadded width n).toList) :
    c.isDigit = true := by
  rw [zeroPadded, padLeft, String.toList_append, String.toList_ofList,
    Nat.toString_eq_ofList_toDigits, String.toList_ofList, List.mem_append] at h
  rcases h with h | h
  · rw [List.eq_of_mem_replicate h]
    rfl
  · exact Nat.isDigit_of_mem_toDigits (by decide) (by decide) h

theorem length_zeroPadded {width n : Nat} (hw : 0 < width) (h : n < 10 ^ width) :
    (zeroPadded width n).toList.length = width := by
  have hlen : (Nat.toDigits 10 n).length ≤ width := (Nat.length_toDigits_le_iff (by decide) hw).2 h
  rw [zeroPadded, padLeft, String.toList_append, String.toList_ofList,
    Nat.toString_eq_ofList_toDigits, String.length_ofList, String.toList_ofList,
    List.length_append, List.length_replicate, Nat.sub_add_cancel hlen]

/-! ## The order of numbers -/

/-- The first digit counts as often as there are numbers of the digits behind it. -/
theorem ofDigitChars_cons : Nat.ofDigitChars 10 (c :: cs) 0 =
    (c.toNat - 48) * 10 ^ cs.length + Nat.ofDigitChars 10 cs 0 := by
  rw [Nat.ofDigitChars_cons, Nat.ofDigitChars_eq_ofDigitChars_zero, Nat.mul_comm, Nat.mul_zero,
    Nat.zero_add]
  rfl

theorem ofDigitChars_lt (h : ∀ c ∈ cs, c.isDigit = true) :
    Nat.ofDigitChars 10 cs 0 < 10 ^ cs.length := by
  induction cs with
  | nil => exact Nat.zero_lt_one
  | cons c cs ih =>
    rw [List.forall_mem_cons, isDigit_iff] at h
    have hc : (c.toNat - 48) * 10 ^ cs.length ≤ 9 * 10 ^ cs.length :=
      Nat.mul_le_mul_right _ (by omega)
    have hrest := ih h.2
    rw [ofDigitChars_cons, List.length_cons, Nat.pow_succ]
    omega

/-- Numbers in a positional system are ordered by their leading digit first. -/
theorem mul_add_lt_iff {m n p x y : Nat} (hx : x < p) (hy : y < p) :
    m * p + x < n * p + y ↔ m < n ∨ m = n ∧ x < y := by
  rcases Nat.lt_trichotomy m n with h | rfl | h
  · have hle : (m + 1) * p ≤ n * p := Nat.mul_le_mul_right p h
    rw [Nat.add_mul] at hle
    omega
  · omega
  · have hle : (n + 1) * p ≤ m * p := Nat.mul_le_mul_right p h
    rw [Nat.add_mul] at hle
    omega

/-- Texts of equally many digits are ordered as their numbers are. -/
theorem ofDigitChars_lt_iff (hl : as.length = bs.length) (ha : ∀ c ∈ as, c.isDigit = true)
    (hb : ∀ c ∈ bs, c.isDigit = true) :
    Nat.ofDigitChars 10 as 0 < Nat.ofDigitChars 10 bs 0 ↔ as < bs := by
  induction as generalizing bs with
  | nil =>
    obtain rfl := List.length_eq_zero_iff.1 hl.symm
    simp
  | cons a as ih =>
    cases bs with
    | nil => cases hl
    | cons b bs =>
      have hl : as.length = bs.length := Nat.succ.inj hl
      rw [List.forall_mem_cons] at ha hb
      have has := ofDigitChars_lt ha.2
      rw [hl] at has
      have hcode : a < b ↔ a.toNat - 48 < b.toNat - 48 := by
        have hda := isDigit_iff.1 ha.1
        have hdb := isDigit_iff.1 hb.1
        change a.toNat < b.toNat ↔ _
        omega
      have hsame : a = b ↔ a.toNat - 48 = b.toNat - 48 := by
        have hda := isDigit_iff.1 ha.1
        have hdb := isDigit_iff.1 hb.1
        rw [← Char.toNat_inj]
        omega
      rw [ofDigitChars_cons, ofDigitChars_cons, hl, mul_add_lt_iff has (ofDigitChars_lt hb.2),
        List.cons_lt_cons_iff, ih hl ha.2 hb.2, hcode, hsame]

theorem ofDigitChars_inj (hl : as.length = bs.length) (ha : ∀ c ∈ as, c.isDigit = true)
    (hb : ∀ c ∈ bs, c.isDigit = true) :
    Nat.ofDigitChars 10 as 0 = Nat.ofDigitChars 10 bs 0 ↔ as = bs := by
  refine ⟨fun h => ?_, fun h => by rw [h]⟩
  have hlt := mt (ofDigitChars_lt_iff hl ha hb).2 (Nat.not_lt.2 (Nat.le_of_eq h.symm))
  have hgt := mt (ofDigitChars_lt_iff hl.symm hb ha).2 (Nat.not_lt.2 (Nat.le_of_eq h))
  exact List.le_antisymm hgt hlt

end GridStream.Text
