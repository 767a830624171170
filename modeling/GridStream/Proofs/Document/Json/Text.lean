import GridStream.Document.Json.Reader
import GridStream.Document.Json.Writer

/-!
# Texts in JSON

A text is read back from the form in which it is written, whatever its characters are
(`Json.readToken_quoted`). The form has no ends of lines in it.
-/

namespace GridStream.Json

variable {c a b d e : Char} {rest cs more : List Char} {n m : Nat}

/-! ## Escapes of 16 bits -/

theorem hexValue?_digitChar (h : n < 16) : Text.hexValue? (Nat.digitChar n) = some n := by
  have hall : ∀ n < 16, Text.hexValue? (Nat.digitChar n) = some n := by decide
  exact hall n h

/-- A number with less digits than the width has zeros in front, which are what it is divided to. -/
theorem padded_toDigits (width n : Nat) (h : n < Nat.pow 16 (width + 1)) :
    List.replicate (width + 1 - (Nat.toDigits 16 n).length) '0' ++ Nat.toDigits 16 n =
      ((List.range (width + 1)).map fun k => Nat.digitChar (n / Nat.pow 16 k % 16)).reverse := by
  induction width generalizing n with
  | zero =>
    have hn : n < 16 := by simpa using h
    simp [Nat.toDigits_of_lt_base hn, Nat.mod_eq_of_lt hn]
  | succ width ih =>
    have hpow : ∀ k, Nat.pow 16 (k + 1) = 16 * Nat.pow 16 k := fun k => Nat.mul_comm ..
    rw [List.range_succ_eq_map, List.map_cons, List.map_map, List.reverse_cons]
    have hshift : (fun k => Nat.digitChar (n / Nat.pow 16 k % 16)) ∘ Nat.succ =
        fun k => Nat.digitChar (n / 16 / Nat.pow 16 k % 16) := by
      funext k
      rw [Function.comp_apply, Nat.succ_eq_add_one, hpow, Nat.div_div_eq_div_mul]
    rw [hshift, ← ih (n / 16) (Nat.div_lt_of_lt_mul (by rwa [hpow] at h))]
    by_cases hn : n < 16
    · rw [Nat.toDigits_of_lt_base hn, Nat.div_eq_of_lt hn, Nat.toDigits_zero]
      simp [Nat.mod_eq_of_lt hn, List.replicate_succ']
    · rw [Nat.toDigits_of_base_le (by decide) (Nat.not_lt.1 hn)]
      simp

/-- The four digits of a number of 16 bits. -/
theorem hex_four (h : n < 0x10000) : (Text.hex 4 n).toList =
    [Nat.digitChar (n / 4096), Nat.digitChar (n / 256 % 16), Nat.digitChar (n / 16 % 16),
      Nat.digitChar (n % 16)] := by
  have hpadded := padded_toDigits 3 n h
  have htop : n / 4096 % 16 = n / 4096 := Nat.mod_eq_of_lt (by omega)
  unfold Text.hex Text.padLeft
  rw [String.toList_append, String.toList_ofList, String.length_ofList, String.toList_ofList,
    hpadded]
  simp [List.range_succ, htop]

theorem hexNumber?_digitChar {a b d e : Nat} (ha : a < 16) (hb : b < 16) (hd : d < 16)
    (he : e < 16) : hexNumber? (Nat.digitChar a) (Nat.digitChar b) (Nat.digitChar d)
      (Nat.digitChar e) = some (((a * 16 + b) * 16 + d) * 16 + e) := by
  simp [hexNumber?, hexValue?_digitChar, ha, hb, hd, he]

/-- An escape has four digits, which spell its number. -/
theorem escapeOf_spells (h : n < 0x10000) : ∃ a b d e,
    (escapeOf n).toList = ['\\', 'u', a, b, d, e] ∧ hexNumber? a b d e = some n := by
  have htext : (escapeOf n).toList = ['\\', 'u', Nat.digitChar (n / 4096),
      Nat.digitChar (n / 256 % 16), Nat.digitChar (n / 16 % 16), Nat.digitChar (n % 16)] := by
    unfold escapeOf
    rw [String.toList_append, hex_four h]
    rfl
  have hnumber : ((n / 4096 * 16 + n / 256 % 16) * 16 + n / 16 % 16) * 16 + n % 16 = n := by
    omega
  refine ⟨_, _, _, _, htext, ?_⟩
  rw [hexNumber?_digitChar (by omega) (by omega) (by omega) (by omega), hnumber]

/-! ## Characters -/

theorem toNat_lt (c : Char) : c.toNat < 0x110000 := by
  have hvalid : c.toNat.isValidChar := c.valid
  unfold Nat.isValidChar at hvalid
  omega

theorem charOf_toNat : charOf c.toNat = c := by
  have hvalid : c.toNat.isValidChar := c.valid
  rw [charOf, if_pos hvalid, Char.ofNat_toNat]

/-- An escape that is no first half of a pair stands for its character, whatever follows. -/
theorem readText_escape (hn : hexNumber? a b d e = some n) (hhalf : isHighHalf n = false)
    (hrest : readText rest = some (cs, more)) :
    readText ('\\' :: 'u' :: a :: b :: d :: e :: rest) = some (charOf n :: cs, more) := by
  rw [readText.eq_def]
  split
  · next heq => cases heq
  · next heq => simp at heq
  · next heq =>
    simp only [List.cons.injEq, true_and] at heq
    obtain ⟨rfl, rfl, rfl, rfl, rfl⟩ := heq
    rw [hn]
    split
    · next hm _ =>
      cases hm
      simp [hhalf, hrest]
    · next hm _ =>
      cases hm
      simp [hrest]
    · next hm => cases hm
  · next heq =>
    simp only [List.cons.injEq, true_and] at heq
    obtain ⟨rfl, rfl, rfl, rfl, rfl⟩ := heq
    simp [hn, hrest]
  · next hno heq =>
    simp only [List.cons.injEq, true_and] at heq
    exact absurd heq.2.symm (hno _ _ _ _ _ heq.1.symm)
  · next hno heq =>
    simp only [List.cons.injEq] at heq
    exact absurd heq.2.symm (hno _ _ heq.1.symm)

/-- Two escapes that are the halves of a pair stand for one character. -/
theorem readText_pair {a' b' d' e' : Char} (hn : hexNumber? a b d e = some n)
    (hm : hexNumber? a' b' d' e' = some m) (hhigh : isHighHalf n) (hlow : isLowHalf m)
    (hrest : readText rest = some (cs, more)) :
    readText ('\\' :: 'u' :: a :: b :: d :: e :: '\\' :: 'u' :: a' :: b' :: d' :: e' :: rest) =
      some (charOf (0x10000 + (n - 0xD800) * 1024 + (m - 0xDC00)) :: cs, more) := by
  rw [readText, hn, hm]
  simp [hhigh, hlow, hrest]

theorem readText_short (hc : shortEscape? c = some a) (hu : c ≠ 'u')
    (hrest : readText rest = some (cs, more)) :
    readText ('\\' :: c :: rest) = some (a :: cs, more) := by
  rw [readText]
  · simp [hc, hrest]
  · exact fun _ _ _ _ _ _ _ _ _ h => absurd h hu
  · exact fun _ _ _ _ _ h => absurd h hu

theorem readText_plain (hc : 0x20 ≤ c.toNat) (hquote : c ≠ '"') (hslash : c ≠ '\\')
    (hrest : readText rest = some (cs, more)) :
    readText (c :: rest) = some (c :: cs, more) := by
  rw [readText]
  · simp [hslash, hrest, Nat.not_lt.2 hc]
  · exact hquote
  · exact fun _ _ _ _ _ _ _ _ _ h => absurd h hslash
  · exact fun _ _ _ _ _ h => absurd h hslash
  · exact fun _ _ h => absurd h hslash

/-- The halves of the pair for a character beyond 16 bits. -/
theorem readText_halves (hc : 0x10000 ≤ c.toNat) (hrest : readText rest = some (cs, more)) :
    readText ((escapeOf (0xD800 + (c.toNat - 0x10000) / 1024)).toList ++
      ((escapeOf (0xDC00 + (c.toNat - 0x10000) % 1024)).toList ++ rest)) =
        some (c :: cs, more) := by
  have hmax : c.toNat < 0x110000 := toNat_lt c
  obtain ⟨a, b, d, e, hhigh, hn⟩ := escapeOf_spells
    (n := 0xD800 + (c.toNat - 0x10000) / 1024) (by omega)
  obtain ⟨a', b', d', e', hlow, hm⟩ := escapeOf_spells
    (n := 0xDC00 + (c.toNat - 0x10000) % 1024) (by omega)
  have hread := readText_pair hn hm (by simp [isHighHalf]; omega) (by simp [isLowHalf]; omega) hrest
  have hchar : 0x10000 + (0xD800 + (c.toNat - 0x10000) / 1024 - 0xD800) * 1024 +
      (0xDC00 + (c.toNat - 0x10000) % 1024 - 0xDC00) = c.toNat := by omega
  rw [hchar, charOf_toNat] at hread
  rw [hhigh, hlow]
  exact hread

/-- A character is read back from the form in which it is written. -/
theorem readText_escaped (hrest : readText rest = some (cs, more)) :
    readText ((escaped c).toList ++ rest) = some (c :: cs, more) := by
  unfold escaped
  split
  · exact readText_short rfl (by decide) hrest
  · exact readText_short rfl (by decide) hrest
  · exact readText_short rfl (by decide) hrest
  · exact readText_short rfl (by decide) hrest
  · exact readText_short rfl (by decide) hrest
  · exact readText_short rfl (by decide) hrest
  · exact readText_short rfl (by decide) hrest
  · next hquote hslash _ _ _ _ _ =>
    dsimp only
    split
    · next h =>
      rw [Char.toString, String.toList_singleton]
      exact readText_plain h.1 hquote hslash hrest
    · split
      · next h =>
        obtain ⟨a, b, d, e, htext, hn⟩ := escapeOf_spells h
        have hhalf : isHighHalf c.toNat = false := by
          have hvalid : c.toNat.isValidChar := c.valid
          unfold Nat.isValidChar at hvalid
          simp [isHighHalf]
          omega
        have hread := readText_escape hn hhalf hrest
        rw [charOf_toNat] at hread
        rw [htext]
        exact hread
      · next h =>
        rw [String.toList_append, List.append_assoc]
        exact readText_halves (Nat.not_lt.1 h) hrest

/-- A text is read back from the form in which it is written, up to its closing mark. -/
theorem readText_join (s : List Char) :
    readText ((String.join (s.map escaped)).toList ++ '"' :: rest) = some (s, rest) := by
  induction s with
  | nil => rw [List.map_nil, String.join_nil, String.toList_empty, List.nil_append, readText]
  | cons c s ih =>
    rw [List.map_cons, String.join_cons, String.toList_append, List.append_assoc]
    exact readText_escaped ih

theorem toList_quoted (s : String) :
    (quoted s).toList = '"' :: ((String.join (s.toList.map escaped)).toList ++ ['"']) := by
  simp only [quoted, String.toList_append]
  rfl

theorem readToken_quoted (s : String) :
    readToken ((quoted s).toList ++ rest) = some (.text s, rest) := by
  rw [toList_quoted, List.cons_append, List.append_assoc, readToken, List.singleton_append,
    readText_join, Option.map_some]
  dsimp only
  rw [String.ofList_toList]

/-! ## The characters of a document -/

/-- A character that a document may have: a line feed, or what ASCII prints. -/
def Printed (c : Char) : Prop := c = '\n' ∨ 0x20 ≤ c.toNat ∧ c.toNat ≤ 0x7e

instance : DecidablePred Printed := fun c => by unfold Printed; infer_instance

/-- What holds of given characters is checked one by one. -/
theorem forall_of_all {P : Char → Prop} [DecidablePred P]
    (h : (cs.all fun c => decide (P c)) = true) : ∀ c ∈ cs, P c :=
  fun c hc => of_decide_eq_true (List.all_eq_true.1 h c hc)

theorem printed_digitChar (h : n < 16) : Printed (Nat.digitChar n) := by
  have hall : ∀ n < 16, Printed (Nat.digitChar n) := by decide
  exact hall n h

theorem printed_escapeOf (h : n < 0x10000) : ∀ c ∈ (escapeOf n).toList, Printed c := by
  unfold escapeOf
  rw [String.toList_append, hex_four h]
  have hdigits : ∀ c ∈ [Nat.digitChar (n / 4096), Nat.digitChar (n / 256 % 16),
      Nat.digitChar (n / 16 % 16), Nat.digitChar (n % 16)], Printed c := by
    simp only [List.forall_mem_cons]
    exact ⟨printed_digitChar (by omega), printed_digitChar (by omega),
      printed_digitChar (by omega), printed_digitChar (by omega), by simp⟩
  exact List.forall_mem_append.2 ⟨forall_of_all (by decide), hdigits⟩

theorem printed_escaped (c : Char) : ∀ d ∈ (escaped c).toList, Printed d := by
  have hmax : c.toNat < 0x110000 := toNat_lt c
  unfold escaped
  split
  · exact forall_of_all (by decide)
  · exact forall_of_all (by decide)
  · exact forall_of_all (by decide)
  · exact forall_of_all (by decide)
  · exact forall_of_all (by decide)
  · exact forall_of_all (by decide)
  · exact forall_of_all (by decide)
  · dsimp only
    split
    · next h => simpa [Char.toString, Printed] using .inr h
    · split
      · next h => exact printed_escapeOf h
      · rw [String.toList_append]
        exact List.forall_mem_append.2
          ⟨printed_escapeOf (by omega), printed_escapeOf (by omega)⟩

theorem printed_quoted (s : String) : ∀ c ∈ (quoted s).toList, Printed c := by
  rw [toList_quoted]
  refine List.forall_mem_cons.2
    ⟨by decide, List.forall_mem_append.2 ⟨?_, forall_of_all (by decide)⟩⟩
  induction s.toList with
  | nil => simp
  | cons c cs ih =>
    rw [List.map_cons, String.join_cons, String.toList_append]
    exact List.forall_mem_append.2 ⟨printed_escaped c, ih⟩

end GridStream.Json
