import GridStream.Proofs.Decimal.Equality
import GridStream.Proofs.Document.Json.Text
import GridStream.Proofs.Text.Digits

/-!
# Numbers in JSON

The reader of numbers stops where a value ends (`Json.readNumber_append`), so a number is read back
from a document as it is read back on its own. An integer is (`Json.readToken_int`), and so is an
infinite double. That a finite double is read back from its shortest text is left open as
`Json.ReadsBack`.
-/

namespace GridStream.Json
open Decimal

variable {c : Char} {cs rest : List Char} {negative : Bool} {x : Float}

/-- What may stand behind a value: nothing, a comma, or the end of the line. -/
def Ends (rest : List Char) : Prop := ∀ c ∈ rest.head?, c = ',' ∨ c = '\n'

theorem Ends.cases (h : Ends rest) : rest = [] ∨ (∃ more, rest = ',' :: more) ∨
    ∃ more, rest = '\n' :: more := by
  cases rest with
  | nil => exact .inl rfl
  | cons c more =>
    rcases h c rfl with rfl | rfl
    · exact .inr (.inl ⟨more, rfl⟩)
    · exact .inr (.inr ⟨more, rfl⟩)

/-! ## Where a number ends -/

/-- Digits end where a value ends. -/
theorem span_append (cs : List Char) (h : Ends rest) :
    (cs ++ rest).takeWhile Text.isPlainDigit = cs.takeWhile Text.isPlainDigit ∧
      (cs ++ rest).dropWhile Text.isPlainDigit = cs.dropWhile Text.isPlainDigit ++ rest := by
  induction cs with
  | nil =>
    rcases h.cases with rfl | ⟨more, rfl⟩ | ⟨more, rfl⟩
    · exact ⟨rfl, rfl⟩
    · exact ⟨rfl, rfl⟩
    · exact ⟨rfl, rfl⟩
  | cons c cs ih =>
    rw [List.cons_append, List.takeWhile_cons, List.takeWhile_cons, List.dropWhile_cons,
      List.dropWhile_cons, ih.1, ih.2]
    split <;> exact ⟨rfl, rfl⟩

/-- The whole part that a number begins with. -/
def wholePart (cs : List Char) : List Char × List Char :=
  match cs with
  | '0' :: rest => (['0'], rest)
  | cs => (cs.takeWhile Text.isPlainDigit, cs.dropWhile Text.isPlainDigit)

/-- The digits behind a point. -/
def fractionPart (cs : List Char) : List Char × List Char :=
  match cs with
  | '.' :: more =>
    if more.takeWhile Text.isPlainDigit = [] then ([], cs)
    else (more.takeWhile Text.isPlainDigit, more.dropWhile Text.isPlainDigit)
  | cs => ([], cs)

/-- The number with the given digits in front of the point, digits behind it, and exponent. -/
def number (negative : Bool) (whole : List Char) : List Char → Option Int → Value
  | [], none => .int (if negative then -(Text.natOfDigits whole : Int) else Text.natOfDigits whole)
  | fraction, exponent =>
    float negative (whole ++ fraction) (exponent.getD 0 - fraction.length)

theorem readNumber_eq : readNumber negative cs =
    if (wholePart cs).1 = [] then none
    else
      some (number negative (wholePart cs).1 (fractionPart (wholePart cs).2).1
          (readExponent (fractionPart (wholePart cs).2).2).1,
        (readExponent (fractionPart (wholePart cs).2).2).2) := by
  unfold readNumber
  change (if (wholePart cs).1 = [] then none else _) = _
  split
  · rfl
  split
  next fraction rest hparts =>
  have hfraction : fractionPart (wholePart cs).2 = (fraction, rest) := hparts
  rw [hfraction]
  obtain ⟨exponent, more⟩ := readExponent rest
  cases fraction with
  | nil => cases exponent <;> rfl
  | cons => rfl

/-- A character that does not end a value stands in front of what follows the value. -/
theorem Ends.of_append_eq_cons {more : List Char} (h : Ends rest) (hcomma : c ≠ ',')
    (hline : c ≠ '\n') (heq : cs ++ rest = c :: more) : ∃ front, cs = c :: front := by
  cases cs with
  | nil =>
    rw [List.nil_append] at heq
    subst heq
    exact ((h c rfl).elim hcomma hline).elim
  | cons c' front =>
    obtain ⟨rfl, -⟩ := List.cons.inj heq
    exact ⟨front, rfl⟩

theorem wholePart_append (h : Ends rest) :
    wholePart (cs ++ rest) = ((wholePart cs).1, (wholePart cs).2 ++ rest) := by
  have hdigits : ∀ text, (∀ more, text ≠ '0' :: more) → wholePart text =
      (text.takeWhile Text.isPlainDigit, text.dropWhile Text.isPlainDigit) := by
    intro text htext
    unfold wholePart
    split
    · exact absurd rfl (htext _)
    · rfl
  by_cases hzero : ∃ more, cs = '0' :: more
  · obtain ⟨more, rfl⟩ := hzero
    rfl
  · obtain ⟨htake, hdrop⟩ := span_append cs h
    rw [hdigits _ fun more heq => hzero (h.of_append_eq_cons (by decide) (by decide) heq),
      hdigits _ fun more heq => hzero ⟨more, heq⟩, htake, hdrop]

theorem fractionPart_append (h : Ends rest) :
    fractionPart (cs ++ rest) = ((fractionPart cs).1, (fractionPart cs).2 ++ rest) := by
  have hnone : ∀ text, (∀ more, text ≠ '.' :: more) → fractionPart text = ([], text) := by
    intro text htext
    unfold fractionPart
    split
    · exact absurd rfl (htext _)
    · rfl
  by_cases hpoint : ∃ more, cs = '.' :: more
  · obtain ⟨more, rfl⟩ := hpoint
    obtain ⟨htake, hdrop⟩ := span_append more h
    rw [List.cons_append, fractionPart, fractionPart, htake, hdrop]
    split <;> rfl
  · rw [hnone _ fun more heq => hpoint (h.of_append_eq_cons (by decide) (by decide) heq),
      hnone _ fun more heq => hpoint ⟨more, heq⟩]

/-- The sign that an exponent begins with. -/
def exponentSign (cs : List Char) : Bool × List Char :=
  match cs with
  | '-' :: rest => (true, rest)
  | '+' :: rest => (false, rest)
  | rest => (false, rest)

theorem exponentSign_append (h : Ends rest) :
    exponentSign (cs ++ rest) = ((exponentSign cs).1, (exponentSign cs).2 ++ rest) := by
  have hnone : ∀ text, (∀ more, text ≠ '-' :: more) → (∀ more, text ≠ '+' :: more) →
      exponentSign text = (false, text) := by
    intro text hminus hplus
    unfold exponentSign
    split
    · exact absurd rfl (hminus _)
    · exact absurd rfl (hplus _)
    · rfl
  by_cases hminus : ∃ more, cs = '-' :: more
  · obtain ⟨more, rfl⟩ := hminus
    rfl
  · by_cases hplus : ∃ more, cs = '+' :: more
    · obtain ⟨more, rfl⟩ := hplus
      rfl
    · rw [hnone _ (fun more heq => hminus (h.of_append_eq_cons (by decide) (by decide) heq))
          fun more heq => hplus (h.of_append_eq_cons (by decide) (by decide) heq),
        hnone _ (fun more heq => hminus ⟨more, heq⟩) fun more heq => hplus ⟨more, heq⟩]

theorem readExponent_append (h : Ends rest) :
    readExponent (cs ++ rest) = ((readExponent cs).1, (readExponent cs).2 ++ rest) := by
  have hcons : ∀ e text, readExponent (e :: text) =
      if e = 'e' ∨ e = 'E' then
        if (exponentSign text).2.takeWhile Text.isPlainDigit = [] then (none, e :: text)
        else (some (if (exponentSign text).1 then
              -(Text.natOfDigits ((exponentSign text).2.takeWhile Text.isPlainDigit) : Int)
            else Text.natOfDigits ((exponentSign text).2.takeWhile Text.isPlainDigit)),
          (exponentSign text).2.dropWhile Text.isPlainDigit)
      else (none, e :: text) := fun e text => rfl
  cases cs with
  | nil =>
    rcases h.cases with rfl | ⟨more, rfl⟩ | ⟨more, rfl⟩
    · rfl
    · exact hcons _ _
    · exact hcons _ _
  | cons e cs =>
    obtain ⟨htake, hdrop⟩ := span_append (exponentSign cs).2 h
    rw [List.cons_append, hcons, hcons, exponentSign_append h]
    dsimp only
    rw [htake, hdrop]
    split
    · split <;> rfl
    · rfl

theorem readNumber_append (h : Ends rest) : readNumber negative (cs ++ rest) =
    (readNumber negative cs).map fun (v, more) => (v, more ++ rest) := by
  rw [readNumber_eq, readNumber_eq, wholePart_append h, fractionPart_append h,
    readExponent_append h]
  split <;> rfl

/-! ## Integers -/

theorem toDigits_ne_zero {n : Nat} (hn : n ≠ 0) : ∀ more, Nat.toDigits 10 n ≠ '0' :: more := by
  induction n using Nat.strongRecOn with
  | ind n ih =>
    intro more h
    rw [Nat.toDigits_eq_if (by decide)] at h
    split at h
    · next hlt =>
      rw [List.cons.injEq, Nat.digitChar_eq_zero] at h
      exact hn h.1
    · next hle =>
      have hdiv : n / 10 ≠ 0 := by omega
      cases hd : Nat.toDigits 10 (n / 10) with
      | nil => exact Nat.toDigits_ne_nil hd
      | cons d ds =>
        rw [hd, List.cons_append, List.cons.injEq] at h
        rw [h.1] at hd
        exact ih (n / 10) (by omega) hdiv ds hd

theorem readNumber_toDigits (n : Nat) : readNumber negative (Nat.toDigits 10 n) =
    some (.int (if negative then -(n : Int) else n), []) := by
  have hdigits : ∀ c ∈ Nat.toDigits 10 n, c.isDigit = true := fun c hc =>
    Nat.isDigit_of_mem_toDigits (by decide) (by decide) hc
  have htake : (Nat.toDigits 10 n ++ []).takeWhile Text.isPlainDigit = Nat.toDigits 10 n ++ [] :=
    List.takeWhile_append_of_pos hdigits
  have hdrop : (Nat.toDigits 10 n ++ []).dropWhile Text.isPlainDigit = [] :=
    List.dropWhile_append_of_pos hdigits
  rw [List.append_nil] at htake hdrop
  have hwhole : wholePart (Nat.toDigits 10 n) = (Nat.toDigits 10 n, []) := by
    by_cases hn : n = 0
    · rw [hn]
      rfl
    · unfold wholePart
      split
      · next h => exact absurd h (toDigits_ne_zero hn _)
      · rw [htake, hdrop]
  rw [readNumber_eq, hwhole, if_neg Nat.toDigits_ne_nil]
  dsimp only [fractionPart, readExponent, number]
  rw [Text.natOfDigits_eq hdigits, Nat.ofDigitChars_ten_toDigits]

/-! ## Tokens of numbers -/

/-- Reads a number with its sign. -/
def readSigned : List Char → Option (Value × List Char)
  | '-' :: rest => readNumber true rest
  | cs => readNumber false cs

/-- A character that a number is written with. -/
def IsNumeral (c : Char) : Prop := c.isDigit = true ∨ c ∈ ['.', 'e', '+', '-']

instance : DecidablePred IsNumeral := fun c => by unfold IsNumeral; infer_instance

theorem find?_words (hc : IsNumeral c) (hcs : ∀ d ∈ cs.head?, d ≠ 'I') :
    (words.find? fun (word, _) => word.isPrefixOf (c :: cs)) = none := by
  have hfirst : ∀ (d : Char) (ds : List Char), ¬ IsNumeral d →
      ¬ (d :: ds).isPrefixOf (c :: cs) = true := by
    intro d ds hd h
    rw [List.isPrefixOf, Bool.and_eq_true, beq_iff_eq] at h
    exact hd (h.1 ▸ hc)
  have hinfinity : ¬ ('-' :: 'I' :: "nfinity".toList).isPrefixOf (c :: cs) = true := by
    intro h
    rw [List.isPrefixOf, Bool.and_eq_true] at h
    cases cs with
    | nil => cases h.2
    | cons d cs =>
      rw [List.isPrefixOf, Bool.and_eq_true] at h
      exact hcs d rfl (beq_iff_eq.1 h.2.1).symm
  rw [List.find?_eq_none]
  simp only [words, List.forall_mem_cons]
  exact ⟨hfirst _ _ (by decide), hfirst _ _ (by decide), hfirst _ _ (by decide),
    hfirst _ _ (by decide), hfirst _ _ (by decide), hinfinity, by simp⟩

/-- What begins as a number is read as one. -/
theorem readToken_numeral (hc : IsNumeral c) (hcs : ∀ d ∈ cs.head?, d ≠ 'I') :
    readToken (c :: cs) = (readSigned (c :: cs)).map fun (v, rest) => (.word v, rest) := by
  have hne : ∀ (d : Char) (ds : List Char), ¬ IsNumeral d → c :: cs ≠ d :: ds := by
    rintro d ds hd heq
    exact hd ((List.cons.inj heq).1 ▸ hc)
  unfold readToken
  split
  · next heq => exact absurd heq (hne _ _ (by decide))
  · next heq => exact absurd heq (hne _ _ (by decide))
  · next heq => exact absurd heq (hne _ _ (by decide))
  · next heq => exact absurd heq (hne _ _ (by decide))
  · next heq => exact absurd heq (hne _ _ (by decide))
  · next heq => exact absurd heq (hne _ _ (by decide))
  · next heq => exact absurd heq (hne _ _ (by decide))
  · rw [find?_words hc hcs]
    rfl

theorem readSigned_of_ne (h : ∀ more, cs ≠ '-' :: more) : readSigned cs = readNumber false cs := by
  unfold readSigned
  split
  · exact absurd rfl (h _)
  · rfl

theorem readSigned_append (h : Ends rest) : readSigned (cs ++ rest) =
    (readSigned cs).map fun (v, more) => (v, more ++ rest) := by
  by_cases hminus : ∃ more, cs = '-' :: more
  · obtain ⟨more, rfl⟩ := hminus
    exact readNumber_append h
  · rw [readSigned_of_ne fun more heq =>
        hminus (h.of_append_eq_cons (by decide) (by decide) heq),
      readSigned_of_ne fun more heq => hminus ⟨more, heq⟩, readNumber_append h]

/-- A number that is read on its own is read in a document. -/
theorem readToken_append {v : Value} (hread : readSigned cs = some (v, []))
    (hcs : ∀ c ∈ cs, IsNumeral c) (h : Ends rest) :
    readToken (cs ++ rest) = some (.word v, rest) := by
  have happend : readSigned (cs ++ rest) = some (v, rest) := by
    rw [readSigned_append h, hread]
    rfl
  cases cs with
  | nil => cases hread
  | cons c cs =>
    rw [List.forall_mem_cons] at hcs
    have hI : ∀ d ∈ (cs ++ rest).head?, d ≠ 'I' := by
      intro d hd
      cases cs with
      | nil => rcases h d hd with rfl | rfl <;> decide
      | cons c' cs =>
        cases hd
        rintro rfl
        exact absurd (hcs.2 _ List.mem_cons_self) (by decide)
    rw [List.cons_append] at happend ⊢
    rw [readToken_numeral hcs.1 hI, happend, Option.map_some]

theorem isNumeral_toDigits (n : Nat) : ∀ c ∈ Nat.toDigits 10 n, IsNumeral c := fun _ hc =>
  .inl (Nat.isDigit_of_mem_toDigits (by decide) (by decide) hc)

theorem toList_toString (n : Int) : (toString n).toList =
    if 0 ≤ n then Nat.toDigits 10 n.natAbs else '-' :: Nat.toDigits 10 n.natAbs := by
  rw [Int.toString_eq_repr, Int.repr_eq_if]
  split
  · next h =>
    have hn : n.toNat = n.natAbs := by omega
    rw [Nat.toList_repr, hn]
  · next h =>
    have hn : (-n).toNat = n.natAbs := by omega
    rw [String.toList_append, Nat.toList_repr, hn]
    rfl

theorem isNumeral_toString (n : Int) : ∀ c ∈ (toString n).toList, IsNumeral c := by
  rw [toList_toString]
  split
  · exact isNumeral_toDigits _
  · exact List.forall_mem_cons.2 ⟨by decide, isNumeral_toDigits _⟩

theorem readSigned_toString (n : Int) : readSigned (toString n).toList = some (.int n, []) := by
  rw [toList_toString]
  split
  · next h =>
    have hn : (n.natAbs : Int) = n := by omega
    have hminus : ∀ more, Nat.toDigits 10 n.natAbs ≠ '-' :: more := fun more heq => by
      have hdigit : ('-').isDigit = true :=
        Nat.isDigit_of_mem_toDigits (by decide) (by decide) (heq ▸ List.mem_cons_self)
      cases hdigit
    rw [readSigned_of_ne hminus, readNumber_toDigits, if_neg (by decide), hn]
  · next h =>
    have hn : -(n.natAbs : Int) = n := by omega
    rw [readSigned, readNumber_toDigits, if_pos rfl, hn]

theorem readToken_int (n : Int) (h : Ends rest) :
    readToken ((toString n).toList ++ rest) = some (.word (.int n), rest) :=
  readToken_append (readSigned_toString n) (isNumeral_toString n) h

/-! ## Doubles -/

/-- The printed digits of a double read back as the same double. -/
def ReadsBack (x : Float) : Prop :=
  readSigned (shortest x).toList = some (.float x, [])

theorem isNumeral_trimZeros {digits : List Char} (h : ∀ c ∈ digits, IsNumeral c) :
    ∀ c ∈ trimZeros digits, IsNumeral c := by
  unfold trimZeros
  split
  · exact forall_of_all (by decide)
  · intro c hc
    rw [List.mem_reverse] at hc
    exact h c (List.mem_reverse.1 ((List.dropWhile_suffix _).mem hc))

theorem isNumeral_replicate (n : Nat) : ∀ c ∈ List.replicate n '0', IsNumeral c := by
  intro c hc
  rw [(List.mem_replicate.1 hc).2]
  decide

theorem isNumeral_exponentText (exponent : Int) :
    ∀ c ∈ (exponentText exponent).toList, IsNumeral c := by
  have hsign : ∀ c ∈ (if exponent < 0 then "-" else "+").toList, IsNumeral c := by
    split <;> exact forall_of_all (by decide)
  unfold exponentText Text.zeroPadded Text.padLeft
  simp only [String.toList_append, String.toList_ofList, Nat.toString_eq_ofList_toDigits,
    List.forall_mem_append]
  exact ⟨hsign, isNumeral_replicate _, isNumeral_toDigits _⟩

variable {digits : List Char} {exponent : Int}

theorem isNumeral_scientificText (h : ∀ c ∈ digits, IsNumeral c) :
    ∀ c ∈ (scientificText digits exponent).toList, IsNumeral c := by
  have he : ∀ c ∈ "e".toList, IsNumeral c := forall_of_all (by decide)
  have hpoint : ∀ c ∈ ".".toList, IsNumeral c := forall_of_all (by decide)
  have hexponent := isNumeral_exponentText exponent
  unfold scientificText
  split
  · exact forall_of_all (by decide)
  · simp only [String.toList_append, List.forall_mem_append, Char.toString, String.toList_singleton]
    exact ⟨⟨h, he⟩, hexponent⟩
  · next d ds _ =>
    have hd : ∀ c ∈ [d], IsNumeral c := by simpa using (List.forall_mem_cons.1 h).1
    simp only [String.toList_append, List.forall_mem_append, Char.toString,
      String.toList_singleton, String.toList_ofList]
    exact ⟨⟨⟨⟨hd, hpoint⟩, (List.forall_mem_cons.1 h).2⟩, he⟩, hexponent⟩

theorem isNumeral_positionalText (h : ∀ c ∈ digits, IsNumeral c) :
    ∀ c ∈ (positionalText digits exponent).toList, IsNumeral c := by
  have hzero : ∀ c ∈ "0.".toList, IsNumeral c := forall_of_all (by decide)
  have hpoint : ∀ c ∈ ".".toList, IsNumeral c := forall_of_all (by decide)
  unfold positionalText
  split
  · simp only [String.toList_append, String.toList_ofList, List.forall_mem_append]
    exact ⟨hzero, isNumeral_replicate _, h⟩
  · have hwhole : ∀ c ∈ digits.take (exponent.toNat + 1), IsNumeral c := fun c hc =>
      h c (List.mem_of_mem_take hc)
    have hfraction : ∀ c ∈ digits.drop (exponent.toNat + 1), IsNumeral c := fun c hc =>
      h c (List.mem_of_mem_drop hc)
    simp only [String.toList_append, String.toList_ofList, List.forall_mem_append]
    refine ⟨⟨hwhole, isNumeral_replicate _⟩, ?_⟩
    split
    · exact forall_of_all (by decide)
    · simp only [String.toList_append, String.toList_ofList, List.forall_mem_append]
      exact ⟨hpoint, hfraction⟩

theorem isNumeral_shortest (h : isFinite x = true) :
    ∀ c ∈ (shortest x).toList, IsNumeral c := by
  have hsign : ∀ negative : Bool, ∀ c ∈ (if negative then "-" else "").toList, IsNumeral c := by
    intro negative
    cases negative <;> exact forall_of_all (by decide)
  have hzero : ∀ c ∈ "0.0".toList, IsNumeral c := forall_of_all (by decide)
  have hpoint : ∀ c ∈ ".0".toList, IsNumeral c := forall_of_all (by decide)
  unfold isFinite at h
  unfold shortest
  cases hx : Parts.ofFloat x with
  | nan => simp [hx] at h
  | infinite s => simp [hx] at h
  | finite negative mantissa exponent =>
    have hdigits : ∀ c ∈ trimZeros (shortestDigits mantissa exponent).1, IsNumeral c :=
      isNumeral_trimZeros (isNumeral_toDigits _)
    have hpositional : ∀ c ∈ (positionalText (trimZeros (shortestDigits mantissa exponent).1)
        (shortestDigits mantissa exponent).2).toList, IsNumeral c :=
      isNumeral_positionalText hdigits
    dsimp only
    split
    · rw [String.toList_append]
      exact List.forall_mem_append.2 ⟨hsign negative, hzero⟩
    · split
      · rw [String.toList_append]
        refine List.forall_mem_append.2 ⟨hsign negative, ?_⟩
        split
        · exact hpositional
        · rw [String.toList_append]
          exact List.forall_mem_append.2 ⟨hpositional, hpoint⟩
      · rw [String.toList_append]
        exact List.forall_mem_append.2 ⟨hsign negative, isNumeral_scientificText hdigits⟩

/-- Infinite doubles of one sign are one double: the sign decides about all bits. -/
theorem eq_of_infinite {y : Float} {s : Bool} (hx : Parts.ofFloat x = .infinite s)
    (hy : Parts.ofFloat y = .infinite s) : x = y := by
  have hbits : ∀ z : Float, Parts.ofFloat z = .infinite s →
      z.toBits.toNat / 2 ^ 52 % 2 ^ 11 = 2047 ∧ z.toBits.toNat % 2 ^ 52 = 0 ∧
        (z.toBits.toNat / 2 ^ 63 == 1) = s := by
    intro z hz
    unfold Parts.ofFloat at hz
    dsimp only at hz
    split at hz
    · next he =>
      split at hz
      · next hf =>
        cases hz
        exact ⟨he, hf, rfl⟩
      · cases hz
    · split at hz <;> cases hz
  obtain ⟨hxe, hxf, hxs⟩ := hbits x hx
  obtain ⟨hye, hyf, hys⟩ := hbits y hy
  have hsign := hxs.trans hys.symm
  have hxlt := x.toBits.toNat_lt
  have hylt := y.toBits.toNat_lt
  have hnat : x.toBits.toNat = y.toBits.toNat := by
    rw [Bool.eq_iff_iff, beq_iff_eq, beq_iff_eq] at hsign
    omega
  have hsame : x.toModel.toBits = y.toModel.toBits := UInt64.toNat_inj.1 hnat
  obtain ⟨⟨_, _⟩⟩ := x
  obtain ⟨⟨_, _⟩⟩ := y
  cases hsame
  rfl

/-- A double is read back if it is a number, and if its digits are read back. -/
theorem readToken_float (hnan : Parts.ofFloat x ≠ .nan) (hx : isFinite x = true → ReadsBack x)
    (h : Ends rest) :
    readToken ((floatText x).toList ++ rest) = some (.word (.float x), rest) := by
  unfold floatText
  split
  · next hx => exact absurd hx hnan
  · next s hs =>
    cases s with
    | true =>
      rw [eq_of_infinite hs (by decide +kernel : Parts.ofFloat (-1.0 / 0.0) = .infinite true)]
      rfl
    | false =>
      rw [eq_of_infinite hs (by decide +kernel : Parts.ofFloat (1.0 / 0.0) = .infinite false)]
      rfl
  · next hs =>
    have hfinite : isFinite x = true := by rw [isFinite, hs]
    exact readToken_append (hx hfinite) (isNumeral_shortest hfinite) h

/-! ## The characters of numbers -/

theorem IsNumeral.printed (h : IsNumeral c) : Printed c := by
  rcases h with h | h
  · have hlow : 48 ≤ c.toNat := (Text.le_of_isDigit h).1
    have hhigh : c.toNat ≤ 57 := (Text.le_of_isDigit h).2
    exact .inr ⟨by omega, by omega⟩
  · have hall : ∀ c ∈ ['.', 'e', '+', '-'], Printed c := forall_of_all (by decide)
    exact hall c h

theorem printed_toString (n : Int) : ∀ c ∈ (toString n).toList, Printed c := fun c hc =>
  (isNumeral_toString n c hc).printed

theorem printed_floatText (x : Float) : ∀ c ∈ (floatText x).toList, Printed c := by
  unfold floatText
  split
  · exact forall_of_all (by decide)
  · split <;> exact forall_of_all (by decide)
  · next hs =>
    have hfinite : isFinite x = true := by rw [isFinite, hs]
    exact fun c hc => (isNumeral_shortest hfinite c hc).printed

end GridStream.Json
