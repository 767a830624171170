import GridStream.Calendar.DateText
import GridStream.Proofs.Calendar.DayOrder
import GridStream.Proofs.Text.Digits
import GridStream.Proofs.Text.Runs

/-!
# Dates and their eight digits

`Date.SpelledBy` says what the eight digits of a date are. Although a month and a day may be read
with one digit, eight digits are read to their end just if month and day take two each
(`DateText.monthDay?_eq_some`), so the dates that are read are those that are spelled, and writing
and reading dates are inverse to each other (`parseDate_inverse`).
-/

namespace GridStream

open Text (isDigit_iff)

/-- The digits of a year, a month and a day. -/
structure Date.SpelledBy (d : Date) (cs : List Char) : Prop where
  length : cs.length = 8
  digits : ∀ c ∈ cs, c.isDigit = true
  year : Nat.ofDigitChars 10 (cs.take 4) 0 = d.year
  month : Nat.ofDigitChars 10 ((cs.drop 4).take 2) 0 = d.month
  day : Nat.ofDigitChars 10 (cs.drop 6) 0 = d.day

/-- A date as a year of four digits, a month and a day of two. -/
def Date.digits (d : Date) : String :=
  Text.zeroPadded 4 d.year ++ Text.zeroPadded 2 d.month ++ Text.zeroPadded 2 d.day

namespace Date

variable {a b d : Date} {cs as bs : List Char}

theorem spelledBy_append {y m n : List Char} (hy : y.length = 4) (hm : m.length = 2)
    (hn : n.length = 2) (hcs : ∀ c ∈ y ++ m ++ n, c.isDigit = true) :
    d.SpelledBy (y ++ m ++ n) ↔ Nat.ofDigitChars 10 y 0 = d.year ∧
      Nat.ofDigitChars 10 m 0 = d.month ∧ Nat.ofDigitChars 10 n 0 = d.day := by
  have h4 : (y ++ m ++ n).take 4 = y := by simp [hy]
  have h2 : ((y ++ m ++ n).drop 4).take 2 = m := by simp [hy, hm]
  have h6 : (y ++ m ++ n).drop 6 = n := List.drop_left' (by rw [List.length_append, hy, hm])
  constructor
  · intro h
    exact ⟨h4 ▸ h.year, h2 ▸ h.month, h6 ▸ h.day⟩
  · rintro ⟨hyear, hmonth, hday⟩
    exact ⟨by simp [hy, hm, hn], hcs, by rw [h4, hyear], by rw [h2, hmonth], by rw [h6, hday]⟩

theorem spelledBy_digits (h : d.Valid) : d.SpelledBy d.digits.toList := by
  obtain ⟨-, hy, -, hm, -, -⟩ := id h
  have hd := h.day_le
  rw [digits, String.toList_append, String.toList_append]
  refine (spelledBy_append (Text.length_zeroPadded (by decide) (by omega))
    (Text.length_zeroPadded (by decide) (by omega))
    (Text.length_zeroPadded (by decide) (by omega)) ?_).2
    ⟨Text.ofDigitChars_padLeft .., Text.ofDigitChars_padLeft .., Text.ofDigitChars_padLeft ..⟩
  simp only [List.mem_append]
  rintro c ((hc | hc) | hc) <;> exact Text.isDigit_of_mem_zeroPadded hc

/-- Eight digits spell one date. -/
theorem SpelledBy.unique (ha : a.SpelledBy cs) (hb : b.SpelledBy cs) : a = b := by
  rcases a with ⟨y, m, d⟩
  rcases b with ⟨y', m', d'⟩
  obtain rfl : y = y' := ha.year.symm.trans hb.year
  obtain rfl : m = m' := ha.month.symm.trans hb.month
  obtain rfl : d = d' := ha.day.symm.trans hb.day
  rfl

/-- The eight digits as one number. -/
theorem SpelledBy.number (h : d.SpelledBy cs) :
    Nat.ofDigitChars 10 cs 0 = d.year * 10000 + d.month * 100 + d.day := by
  have hcs : cs = cs.take 4 ++ ((cs.drop 4).take 2 ++ cs.drop 6) := by
    rw [← List.drop_drop (i := 2) (j := 4), List.take_append_drop, List.take_append_drop]
  have hlen := h.length
  rw [hcs, Nat.ofDigitChars_append, Nat.ofDigitChars_append, Nat.ofDigitChars_eq_ofDigitChars_zero,
    h.day, Nat.ofDigitChars_eq_ofDigitChars_zero, h.month, h.year]
  have htwo : ((cs.drop 4).take 2).length = 2 := by
    rw [List.length_take, List.length_drop, hlen]
    rfl
  have hlast : (cs.drop 6).length = 2 := by rw [List.length_drop, hlen]
  rw [htwo, hlast]
  omega

theorem SpelledBy.lt_iff_before (ha : a.SpelledBy as) (hb : b.SpelledBy bs) (hva : a.Valid)
    (hvb : b.Valid) : as < bs ↔ a.Before b := by
  rw [← Text.ofDigitChars_lt_iff (ha.length.trans hb.length.symm) ha.digits hb.digits, ha.number,
    hb.number]
  obtain ⟨-, -, -, hm, -, -⟩ := id hva
  obtain ⟨-, -, -, hm', -, -⟩ := id hvb
  have hd := hva.day_le
  have hd' := hvb.day_le
  unfold Before
  omega

/-- A date has one spelling. -/
theorem SpelledBy.eq_digits (h : d.SpelledBy cs) (hd : d.Valid) : cs = d.digits.toList := by
  have hdigits := spelledBy_digits hd
  rw [← Text.ofDigitChars_inj (h.length.trans hdigits.length.symm) h.digits hdigits.digits,
    h.number, hdigits.number]

end Date

/-! ## Readings -/

namespace DateText

variable {a b c d : Char} {cs rest rest' : List Char} {m n : Nat}

/-- The number of two digits. -/
def pairValue (c d : Char) : Nat := 10 * plainValue c + plainValue d

theorem ofDigitChars_pair : Nat.ofDigitChars 10 [c, d] 0 = pairValue c d := by
  rw [Nat.ofDigitChars_cons, Nat.ofDigitChars_cons, Nat.ofDigitChars_nil, Nat.mul_zero,
    Nat.zero_add]
  rfl

theorem plainValue_le (hc : c.isDigit = true) : plainValue c ≤ 9 := by
  rw [isDigit_iff] at hc
  unfold plainValue
  omega

theorem eq_iff_plainValue (hc : c.isDigit = true) (hd : d.isDigit = true) :
    c = d ↔ plainValue c = plainValue d := by
  rw [isDigit_iff] at hc hd
  rw [← Char.toNat_inj]
  unfold plainValue
  omega

theorem digitIn_iff {low high : Char} (hc : c.isDigit = true) (hl : low.isDigit = true)
    (hh : high.isDigit = true) : digitIn low high c = true ↔
      plainValue low ≤ plainValue c ∧ plainValue c ≤ plainValue high := by
  have hle : digitIn low high c = true ↔ low.toNat ≤ c.toNat ∧ c.toNat ≤ high.toNat := by
    simp only [digitIn, Bool.and_eq_true, decide_eq_true_eq]
    exact .rfl
  rw [isDigit_iff] at hc hl hh
  rw [hle]
  unfold plainValue
  omega

/-- A month of two digits is the first reading. -/
theorem monthReadings_digits (hc : c.isDigit = true) (hd : d.isDigit = true) :
    monthReadings (c :: d :: rest) =
      (if 1 ≤ pairValue c d ∧ pairValue c d ≤ 12 then [(pairValue c d, rest)] else []) ++
        monthReadings.single c (d :: rest) := by
  have hc9 := plainValue_le hc
  have hd9 := plainValue_le hd
  have h0 : c = '0' ↔ plainValue c = 0 := eq_iff_plainValue hc rfl
  have h1 : c = '1' ↔ plainValue c = 1 := eq_iff_plainValue hc rfl
  have hto2 : digitIn '0' '2' d = true ↔ 0 ≤ plainValue d ∧ plainValue d ≤ 2 :=
    digitIn_iff hd rfl rfl
  have hto9 : digitIn '1' '9' d = true ↔ 1 ≤ plainValue d ∧ plainValue d ≤ 9 :=
    digitIn_iff hd rfl rfl
  simp only [monthReadings, pairValue, Bool.and_eq_true, decide_eq_true_eq, h0, h1, hto2, hto9]
  grind

/-- A day of two digits is the first reading; if there is none, a digit is left. -/
theorem dayReading?_digits (hc : c.isDigit = true) (hd : d.isDigit = true) :
    dayReading? (c :: d :: rest) =
      if 1 ≤ pairValue c d ∧ pairValue c d ≤ 31 then some (pairValue c d, rest)
      else if 1 ≤ plainValue c then some (plainValue c, d :: rest)
      else none := by
  have hc9 := plainValue_le hc
  have hd9 := plainValue_le hd
  have hvalue : Text.digitValue? d = some (plainValue d) := if_pos (Text.le_of_isDigit hd)
  have h0 : c = '0' ↔ plainValue c = 0 := eq_iff_plainValue hc rfl
  have h3 : c = '3' ↔ plainValue c = 3 := eq_iff_plainValue hc rfl
  have hto1 : digitIn '0' '1' d = true ↔ 0 ≤ plainValue d ∧ plainValue d ≤ 1 :=
    digitIn_iff hd rfl rfl
  have hto2 : digitIn '1' '2' c = true ↔ 1 ≤ plainValue c ∧ plainValue c ≤ 2 :=
    digitIn_iff hc rfl rfl
  have hto9 : ∀ {e : Char}, e.isDigit = true →
      (digitIn '1' '9' e = true ↔ 1 ≤ plainValue e ∧ plainValue e ≤ 9) :=
    fun he => digitIn_iff he rfl rfl
  simp only [dayReading?, pairValue, Bool.and_eq_true, decide_eq_true_eq, h0, h3, hto1, hto2,
    hto9 hc, hto9 hd, Text.isDigit, hvalue, Option.isSome_some, and_true, Option.getD_some]
  grind

/-- What can be read behind a month: a day, with what follows. -/
def withDay (r : Nat × List Char) : Option (Nat × Nat × List Char) :=
  (dayReading? r.2).map fun day => (r.1, day.1, day.2)

theorem monthDay?_eq : monthDay? cs = (monthReadings cs).findSome? withDay := rfl

theorem withDay_digits {k : Nat} (hc : c.isDigit = true) (hd : d.isDigit = true) :
    withDay (k, [c, d]) = some (m, n, []) ↔ k = m ∧ pairValue c d = n ∧ 1 ≤ n ∧ n ≤ 31 := by
  rw [withDay, dayReading?_digits hc hd]
  grind

/-- Behind a month of one digit three digits are left, which are too many for a day. -/
theorem findSome?_single_ne (hb : b.isDigit = true) (hc : c.isDigit = true) :
    (monthReadings.single a [b, c, d]).findSome? withDay ≠ some (m, n, []) := by
  unfold monthReadings.single
  split
  · rw [List.findSome?_singleton, withDay, dayReading?_digits hb hc]
    grind
  · nofun

/-- Four digits are read to their end just if the month and the day have two each. -/
theorem monthDay?_eq_some (ha : a.isDigit = true) (hb : b.isDigit = true) (hc : c.isDigit = true)
    (hd : d.isDigit = true) : monthDay? [a, b, c, d] = some (m, n, []) ↔
      pairValue a b = m ∧ 1 ≤ m ∧ m ≤ 12 ∧ pairValue c d = n ∧ 1 ≤ n ∧ n ≤ 31 := by
  have hsingle := @findSome?_single_ne a b c d m n hb hc
  rw [monthDay?_eq, monthReadings_digits ha hb, List.findSome?_append, Option.or_eq_some_iff,
    or_iff_left fun h => hsingle h.2]
  split
  · next hm =>
    rw [List.findSome?_singleton, withDay_digits hc hd]
    omega
  · next hm =>
    rw [List.findSome?_nil]
    grind

/-- A date is read if nothing is left and the calendar has the day. -/
theorem read_eq_ok {t : Instant} : read cs = .ok t ↔
    ∃ m n, monthDay? (cs.drop 4) = some (m, n, []) ∧
      Instant.ofDate? ⟨Text.natOfDigits (cs.take 4), m, n⟩ = some t := by
  unfold read
  split
  · next h => simp [h]
  · next m n rest h =>
    simp only [h, Option.some.injEq, Prod.mk.injEq]
    split
    · next hrest =>
      refine iff_of_false nofun ?_
      rintro ⟨-, -, ⟨-, -, hnil⟩, -⟩
      exact hrest hnil
    · next hrest =>
      split
      · next hyear =>
        refine iff_of_false nofun ?_
        rintro ⟨_, _, -, ht⟩
        have hvalid := (Instant.ofDate?_eq_some.1 ht).1
        rw [hyear] at hvalid
        exact Nat.not_succ_le_zero 0 hvalid.1
      · constructor
        · intro h
          refine ⟨m, n, ⟨rfl, rfl, not_not.1 hrest⟩, ?_⟩
          split at h
          · next ht =>
            cases h
            exact ht
          · cases h
        · rintro ⟨_, _, ⟨rfl, rfl, -⟩, ht⟩
          rw [ht]

/-- Eight digits are a date just if they spell it. -/
theorem read_digits {t : Instant} (hlen : cs.length = 8) (hcs : ∀ c ∈ cs, c.isDigit = true) :
    read cs = .ok t ↔ t.date.SpelledBy cs ∧ t.timeOfDay = 0 := by
  have hyear : ∀ c ∈ cs.take 4, c.isDigit = true := fun c hc => hcs c (List.mem_of_mem_take hc)
  rw [read_eq_ok, Text.natOfDigits_eq hyear]
  match cs, hlen with
  | [y₁, y₂, y₃, y₄, a, b, c, d], _ =>
    have hspelled := @Date.spelledBy_append t.date [y₁, y₂, y₃, y₄] [a, b] [c, d] rfl rfl rfl hcs
    simp only [List.forall_mem_cons] at hcs
    obtain ⟨-, -, -, -, ha, hb, hc, hd, -⟩ := hcs
    change (∃ m n, monthDay? [a, b, c, d] = some (m, n, []) ∧
      Instant.ofDate? ⟨Nat.ofDigitChars 10 [y₁, y₂, y₃, y₄] 0, m, n⟩ = some t) ↔ _
    change t.date.SpelledBy [y₁, y₂, y₃, y₄, a, b, c, d] ↔ _ at hspelled
    simp only [monthDay?_eq_some ha hb hc hd, Instant.ofDate?_eq_some]
    rw [hspelled, ofDigitChars_pair, ofDigitChars_pair]
    constructor
    · rintro ⟨m, n, ⟨rfl, -, -, rfl, -, -⟩, -, hdate, htime⟩
      rw [hdate]
      exact ⟨⟨rfl, rfl, rfl⟩, htime⟩
    · rintro ⟨⟨hy, hm, hn⟩, htime⟩
      have hvalid := t.valid_date
      obtain ⟨-, -, hm1, hm12, hn1, -⟩ := id hvalid
      refine ⟨_, _, ⟨hm, hm1, hm12, hn, hn1, hvalid.day_le⟩, ?_⟩
      rw [hy]
      exact ⟨hvalid, rfl, htime⟩

end DateText

/-! ## Texts -/

section

variable {label s s' : String} {t : Instant} {d : Date}

theorem isEightDigits_iff {cs : List Char} (hcs : ∀ c ∈ cs, c.toNat < 128) :
    isEightDigits cs = true ↔ cs.length = 8 ∧ ∀ c ∈ cs, c.isDigit = true := by
  simp only [isEightDigits, Bool.and_eq_true, beq_iff_eq, List.all_eq_true]
  exact and_congr_right fun _ => forall₂_congr fun c hc => Text.isDigit_of_ascii (hcs c hc)

theorem Text.mem_of_mem_strip {c : Char} (h : c ∈ (Text.strip s).toList) : c ∈ s.toList := by
  rw [Text.strip, String.toList_ofList, Text.stripChars, List.mem_reverse] at h
  have h := (List.dropWhile_suffix _).subset h
  rw [List.mem_reverse] at h
  exact (List.dropWhile_suffix _).subset h

theorem Date.strip_digits (h : d.Valid) : Text.strip d.digits = d.digits := by
  have hdigits := (spelledBy_digits h).digits
  have hblank : ∀ c ∈ d.digits.toList, Text.isBlank c = false := fun c hc =>
    Text.isBlank_of_isDigit
      ((Text.isDigit_of_ascii (Text.ascii_of_isDigit (hdigits c hc))).2 (hdigits c hc))
  rw [Text.strip, Text.stripChars_of_stopsAt, String.ofList_toList]
  · exact fun c hc => hblank c (List.mem_of_mem_head? hc)
  · exact fun c hc => hblank c (List.mem_reverse.1 (List.mem_of_mem_head? hc))

/-- A text is a date if the digits of the day are left when the blanks are taken off. -/
theorem parseDate_eq_ok (hs : ∀ c ∈ s.toList, c.toNat < 128) : parseDate label (.text s) = .ok t ↔
    t.date.SpelledBy (Text.strip s).toList ∧ t.timeOfDay = 0 := by
  have hstrip : ∀ c ∈ (Text.strip s).toList, c.toNat < 128 := fun c hc =>
    hs c (Text.mem_of_mem_strip hc)
  unfold parseDate
  dsimp only [Value.toText]
  split
  · next h =>
    rw [isEightDigits_iff hstrip] at h
    rw [← DateText.read_digits h.1 h.2]
    cases DateText.read (Text.strip s).toList <;> simp
  · next h =>
    rw [isEightDigits_iff hstrip] at h
    exact iff_of_false nofun fun hd => h ⟨hd.1.length, hd.1.digits⟩

theorem parseDate_cases (label s : String) : (∃ t, parseDate label (.text s) = .ok t) ∨
    ∃ message, parseDate label (.text s) =
      .error (.configuration message [("value", .text s)]) := by
  unfold parseDate
  dsimp only
  split
  · split
    · exact .inl ⟨_, rfl⟩
    · exact .inr ⟨_, rfl⟩
  · exact .inr ⟨_, rfl⟩

end

/-- Reading is the inverse of writing a day with eight digits: the texts of ASCII that are read are,
but for the blanks around them, the spellings of the days of the calendar, each read as the midnight
of its day, and their order is the order of the days. -/
theorem parseDate_digits (label : String) {s s' : String} (hs : ∀ c ∈ s.toList, c.toNat < 128)
    (hs' : ∀ c ∈ s'.toList, c.toNat < 128) :
    ((∃ t, parseDate label (.text s) = .ok t) ↔
      ∃ d : Date, d.Valid ∧ d.SpelledBy (Text.strip s).toList) ∧
    (∀ t, parseDate label (.text s) = .ok t → t.date.Valid ∧
      t.date.SpelledBy (Text.strip s).toList ∧ t.date.digits = Text.strip s ∧ t.timeOfDay = 0) ∧
    ((∀ t, parseDate label (.text s) ≠ .ok t) → ∃ message, parseDate label (.text s) =
      .error (.configuration message [("value", .text s)])) ∧
    (∀ d : Date, d.Valid →
      ∃ t, parseDate label (.text d.digits) = .ok t ∧ t.date = d ∧ t.timeOfDay = 0) ∧
    ∀ t t', parseDate label (.text s) = .ok t → parseDate label (.text s') = .ok t' →
      (Text.strip s < Text.strip s' ↔ t < t') := by
  have hmidnight : ∀ {d : Date}, d.Valid → ∃ t : Instant, t.date = d ∧ t.timeOfDay = 0 := by
    intro d hd
    obtain ⟨t, ht⟩ := Option.isSome_iff_exists.1 (Instant.isSome_ofDate? hd)
    exact ⟨t, (Instant.ofDate?_eq_some.1 ht).2⟩
  refine ⟨⟨?_, ?_⟩, ?_, ?_, ?_, ?_⟩
  · rintro ⟨t, ht⟩
    exact ⟨t.date, t.valid_date, ((parseDate_eq_ok hs).1 ht).1⟩
  · rintro ⟨d, hd, hspelled⟩
    obtain ⟨t, rfl, htime⟩ := hmidnight hd
    exact ⟨t, (parseDate_eq_ok hs).2 ⟨hspelled, htime⟩⟩
  · intro t ht
    obtain ⟨hspelled, htime⟩ := (parseDate_eq_ok hs).1 ht
    exact ⟨t.valid_date, hspelled,
      String.toList_inj.1 (hspelled.eq_digits t.valid_date).symm, htime⟩
  · intro hne
    rcases parseDate_cases label s with ⟨t, ht⟩ | herror
    · exact absurd ht (hne t)
    · exact herror
  · intro d hd
    have hspelled := Date.spelledBy_digits hd
    have hascii : ∀ c ∈ d.digits.toList, c.toNat < 128 := fun c hc =>
      Text.ascii_of_isDigit (hspelled.digits c hc)
    obtain ⟨t, rfl, htime⟩ := hmidnight hd
    exact ⟨t, (parseDate_eq_ok hascii).2 ⟨(Date.strip_digits hd).symm ▸ hspelled, htime⟩, rfl,
      htime⟩
  · intro t t' ht ht'
    obtain ⟨hspelled, htime⟩ := (parseDate_eq_ok hs).1 ht
    obtain ⟨hspelled', htime'⟩ := (parseDate_eq_ok hs').1 ht'
    rw [String.lt_iff, hspelled.lt_iff_before hspelled' t.valid_date t'.valid_date,
      Instant.lt_iff_before htime htime']

/-- The leap day of a year, with blanks around it, and a day of the last year. -/
theorem parseDate_digits_leap_day : ∃ t t', parseDate "start date" (.text " 20240229\n") = .ok t ∧
    parseDate "start date" (.text "99991230") = .ok t' ∧ t.date = ⟨2024, 2, 29⟩ ∧
    t.timeOfDay = 0 ∧ t < t' := by
  have h := @parseDate_digits "start date" " 20240229\n" "99991230" (by simp) (by simp)
  have hleap : (⟨2024, 2, 29⟩ : Date).digits = Text.strip " 20240229\n" := by decide
  have hlast : (⟨9999, 12, 30⟩ : Date).digits = "99991230" := by decide
  have hspelled : (⟨2024, 2, 29⟩ : Date).SpelledBy (Text.strip " 20240229\n").toList :=
    hleap ▸ Date.spelledBy_digits (by decide)
  obtain ⟨hok, hdate, -, hdigits, horder⟩ := h
  obtain ⟨t, ht⟩ := hok.2 ⟨⟨2024, 2, 29⟩, by decide, hspelled⟩
  obtain ⟨t', ht', -, -⟩ := hdigits ⟨9999, 12, 30⟩ (by decide)
  rw [hlast] at ht'
  obtain ⟨-, hread, -, htime⟩ := hdate t ht
  exact ⟨t, t', ht, ht', hread.unique hspelled, htime, (horder t t' ht ht').1 (by decide)⟩

end GridStream
