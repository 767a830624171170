import GridStream.Proofs.Calendar.DurationGrammar
import GridStream.Proofs.Config.Acceptance
import GridStream.Proofs.Decimal.Exact
import Mathlib.Data.List.Perm.Basic

/-!
# The length of a duration

The length of a term is the product of its double and its unit, rounded half to even
(`DurationTerm.Measures`), and the length of a text that is tiled by terms is the sum of theirs
(`Span.sum?_eq_some_iff`).
-/

namespace GridStream
open Decimal

namespace DurationTerm

/-- Whether a term is `n` microseconds long: `n` is nearest to the exact product of its double and
its unit. -/
def Measures (t : DurationTerm) (n : ℤ) : Prop :=
  ∃ x, (Parts.ofFloat t.amount.value).toRat? = some x ∧ NearestEven (x * t.unit.micros) n

/-- Whether terms are `n` microseconds long together. -/
inductive Lasts : List DurationTerm → ℤ → Prop
  | nil : Lasts [] 0
  | cons {t ts m n} : t.Measures m → Lasts ts n → Lasts (t :: ts) (m + n)

variable {t : DurationTerm} {ts us : List DurationTerm} {m n : ℤ}

theorem Measures.unique (hm : t.Measures m) (hn : t.Measures n) : m = n := by
  obtain ⟨x, hx, hm⟩ := hm
  obtain ⟨y, hy, hn⟩ := hn
  obtain rfl := Option.some.inj (hx.symm.trans hy)
  exact hm.unique hn

theorem measures_of_micros? (h : t.micros? = some n) : t.Measures n ∧ 0 ≤ n := by
  unfold micros? at h
  split at h
  · next negative mantissa exponent hp =>
    have hsign : negative = false := negative_of_unsigned (unsigned_ofDecimal _ _) hp
    subst hsign
    cases h
    refine ⟨⟨_, by rw [hp]; rfl, ?_⟩, Int.natCast_nonneg _⟩
    have hnear : NearestEven (((binaryRatio mantissa exponent).num * t.unit.micros : ℕ) /
        (binaryRatio mantissa exponent).den) _ :=
      nearestEven_roundDiv (binaryRatio_den_pos mantissa exponent)
    rw [Nat.cast_mul, mul_div_right_comm, binaryRatio_eq] at hnear
    simpa using hnear
  · cases h

theorem micros?_eq_some_iff : t.micros? = some n ↔ t.Measures n := by
  refine ⟨fun h => (measures_of_micros? h).1, fun h => ?_⟩
  obtain ⟨m, hm⟩ : ∃ m, t.micros? = some m := by
    obtain ⟨x, hx, -⟩ := h
    unfold micros?
    cases hp : Parts.ofFloat t.amount.value with
    | finite => exact ⟨_, rfl⟩
    | nan | infinite =>
      rw [hp] at hx
      cases hx
  rw [hm, (measures_of_micros? hm).1.unique h]

theorem Measures.nonneg (h : t.Measures n) : 0 ≤ n :=
  (measures_of_micros? (micros?_eq_some_iff.2 h)).2

namespace Lasts

theorem singleton (h : t.Measures n) : Lasts [t] n := by
  simpa using Lasts.nil.cons h

theorem unique (hm : Lasts ts m) (hn : Lasts ts n) : m = n := by
  induction hm generalizing n with
  | nil => cases hn; rfl
  | cons ht _ ih =>
    cases hn with
    | cons ht' hts => rw [ht.unique ht', ih hts]

theorem nonneg (h : Lasts ts n) : 0 ≤ n := by
  induction h with
  | nil => exact Int.le_refl 0
  | cons ht _ ih => exact Int.add_nonneg ht.nonneg ih

theorem append (hm : Lasts ts m) (hn : Lasts us n) : Lasts (ts ++ us) (m + n) := by
  induction hm with
  | nil => simpa using hn
  | cons ht _ ih =>
    rw [Int.add_assoc]
    exact ih.cons ht

theorem perm (h : Lasts ts n) (hp : ts.Perm us) : Lasts us n := by
  induction hp generalizing n with
  | nil => exact h
  | cons t _ ih =>
    cases h with
    | cons ht h => exact (ih h).cons ht
  | swap t u ts =>
    cases h with
    | cons ht h =>
      cases h with
      | cons hu h =>
        rw [Int.add_left_comm]
        exact (h.cons ht).cons hu
  | trans _ _ ih ih' => exact ih' (ih h)

end Lasts

end DurationTerm

open DurationTerm

namespace Span

theorem ofMicros?_eq_some {n : ℤ} {d : Span} : ofMicros? n = some d ↔ d.micros = n := by
  unfold ofMicros?
  constructor
  · intro h
    split at h
    · cases h
      rfl
    · cases h
  · rintro rfl
    rw [dif_pos d.inRange]

theorem exists_micros_eq {n : ℤ} {d : Span} (h0 : 0 ≤ n) (hn : n ≤ d.micros) :
    ∃ e : Span, e.micros = n := by
  have hd := d.inRange
  exact ⟨⟨n, by omega⟩, rfl⟩

theorem span?_eq_some {t : DurationTerm} {d : Span} : t.span? = some d ↔ t.Measures d.micros := by
  rw [← micros?_eq_some_iff, span?, Option.bind_eq_some_iff]
  simp only [ofMicros?_eq_some]
  exact ⟨fun ⟨n, hn, h⟩ => h ▸ hn, fun h => ⟨_, h, rfl⟩⟩

/-- Terms have a sum if they have a length that is a span: no sum on the way is longer. -/
theorem sum?_eq_some_iff {start d : Span} {ts : List DurationTerm} (hs : 0 ≤ start.micros) :
    sum? start ts = some d ↔ ∃ n, Lasts ts n ∧ start.micros + n = d.micros := by
  induction ts generalizing start with
  | nil =>
    constructor
    · intro h
      cases h
      exact ⟨0, .nil, Int.add_zero _⟩
    · rintro ⟨n, h, hn⟩
      cases h
      rw [sum?, ← ofMicros?_eq_some.2 rfl, ofMicros?_eq_some, ← hn, Int.add_zero]
  | cons t ts ih =>
    simp only [sum?, Option.bind_eq_some_iff, span?_eq_some, add?, ofMicros?_eq_some]
    constructor
    · rintro ⟨s, ⟨u, hu, hsu⟩, hd⟩
      obtain ⟨n, hn, hd⟩ := (ih (by have := hu.nonneg; omega)).1 hd
      exact ⟨_, hn.cons hu, by omega⟩
    · rintro ⟨_, h, hd⟩
      cases h with
      | @cons _ _ m n hm hn =>
        have hm0 := hm.nonneg
        have hn0 := hn.nonneg
        obtain ⟨u, rfl⟩ := @exists_micros_eq m d hm0 (by omega)
        obtain ⟨s, hsu⟩ := @exists_micros_eq (start.micros + u.micros) d (by omega) (by omega)
        exact ⟨s, ⟨u, hm, hsu⟩, (ih (by omega)).2 ⟨n, hn, by omega⟩⟩

end Span

/-! ## Reading a duration -/

/-- The failure of reading a text that is no duration. -/
def malformedDuration (label s : String) : Failure :=
  .configuration s!"Invalid {label} '{s}'. Expected e.g. '1h', '30m', '1h30m'" [("value", .text s)]

/-- The failure of reading a duration that is not positive. -/
def nonpositiveDuration (label s : String) : Failure :=
  .configuration s!"{label} must be positive, got '{s}'" [("value", .text s)]

/-- Whether a text consists of terms, at least one, but for the blanks around it. -/
structure ConsistsOf (s : String) (xs : List (DurationTerm × List Char)) : Prop where
  ne_nil : xs ≠ []
  tiles : Tiles xs (Text.strip s).toList

variable {label s : String} {xs : List (DurationTerm × List Char)}

theorem malformedDuration_ne : malformedDuration label s ≠ nonpositiveDuration label s := by
  intro h
  have hm := congrArg (fun f => f.message.length) h
  have hlong : "'. Expected e.g. '1h', '30m', '1h30m'".length = 37 := rfl
  have hshort : " must be positive, got '".length = 24 := rfl
  simp only [malformedDuration, nonpositiveDuration, Failure.configuration, toString,
    String.length_append, hlong, hshort] at hm
  have hquote : "'".length = 1 := rfl
  omega

theorem durationTerms?_eq_some_iff {ts : List DurationTerm} :
    durationTerms? (Text.strip s) = some ts ↔ ∃ xs, ConsistsOf s xs ∧ xs.map Prod.fst = ts := by
  have hts : durationTerms? (Text.strip s) = some ts ↔
      readAll? (Text.strip s).toList = some ts ∧ ts ≠ [] := by
    unfold durationTerms?
    split
    · next h => simp [h, eq_comm]
    · next hne =>
      exact ⟨fun h => ⟨h, fun e => hne (e ▸ h)⟩, And.left⟩
  rw [hts, readAll?_eq_some_iff]
  constructor
  · rintro ⟨⟨xs, hx, rfl⟩, hne⟩
    exact ⟨xs, ⟨fun e => hne (e ▸ rfl), hx⟩, rfl⟩
  · rintro ⟨xs, ⟨hne, hx⟩, rfl⟩
    exact ⟨⟨xs, hx, rfl⟩, by simpa using hne⟩

theorem parseDuration_of_consistsOf (h : ConsistsOf s xs) :
    parseDuration label (.text s) = match Span.sum? default (xs.map Prod.fst) with
      | some d => if 0 < d.micros then .ok d else .error (nonpositiveDuration label s)
      | none => .error .outOfRange := by
  have hterms := durationTerms?_eq_some_iff.2 ⟨xs, h, rfl⟩
  have hs : (Value.text s).toText = s := rfl
  unfold parseDuration
  dsimp only
  rw [hs, hterms]
  cases hsum : Span.sum? default (xs.map Prod.fst) with
  | none => simp only [hsum, bind, Except.bind]
  | some d =>
    simp only [hsum, bind, Except.bind]
    split
    · next hd => rw [if_neg (Int.not_lt.2 hd)]; rfl
    · next hd => rw [if_pos (Int.not_le.1 hd)]

theorem parseDuration_of_not_consistsOf (h : ∀ xs, ¬ ConsistsOf s xs) :
    parseDuration label (.text s) = .error (malformedDuration label s) := by
  have hterms : durationTerms? (Text.strip s) = none := by
    rw [Option.eq_none_iff_forall_ne_some]
    intro ts hts
    obtain ⟨xs, hx, -⟩ := durationTerms?_eq_some_iff.1 hts
    exact h xs hx
  have hs : (Value.text s).toText = s := rfl
  unfold parseDuration
  dsimp only
  rw [hs, hterms]
  rfl

theorem parseDuration_ne_malformed_iff :
    parseDuration label (.text s) ≠ .error (malformedDuration label s) ↔
      ∃ xs, ConsistsOf s xs := by
  constructor
  · intro h
    by_contra hno
    exact h (parseDuration_of_not_consistsOf (not_exists.1 hno))
  · rintro ⟨xs, hx⟩ h
    rw [parseDuration_of_consistsOf hx] at h
    split at h
    · split at h
      · cases h
      · exact malformedDuration_ne (Except.error.inj h).symm
    · have hkind := congrArg Failure.kind (Except.error.inj h)
      cases hkind

theorem sum?_default_eq_some_iff {ts : List DurationTerm} {d : Span} :
    Span.sum? default ts = some d ↔ Lasts ts d.micros := by
  have hzero : (default : Span).micros = 0 := rfl
  rw [Span.sum?_eq_some_iff hzero.ge, hzero]
  simp

/-- The outcome for terms whose length is a span. -/
theorem parseDuration_of_lasts {d : Span} (h : ConsistsOf s xs)
    (hd : Lasts (xs.map Prod.fst) d.micros) : parseDuration label (.text s) =
      if 0 < d.micros then .ok d else .error (nonpositiveDuration label s) := by
  rw [parseDuration_of_consistsOf h, sum?_default_eq_some_iff.2 hd]

/-- The outcome for terms without a length or with one that is beyond the spans. -/
theorem parseDuration_of_not_lasts (h : ConsistsOf s xs)
    (hd : ∀ d : Span, ¬ Lasts (xs.map Prod.fst) d.micros) :
    parseDuration label (.text s) = .error .outOfRange := by
  have hsum : Span.sum? default (xs.map Prod.fst) = none := by
    rw [Option.eq_none_iff_forall_ne_some]
    exact fun d h => hd d (sum?_default_eq_some_iff.1 h)
  rw [parseDuration_of_consistsOf h, hsum]

theorem lasts_of_parseDuration {d : Span} (h : parseDuration label (.text s) = .ok d) :
    ∃ xs, ConsistsOf s xs ∧ Lasts (xs.map Prod.fst) d.micros ∧ 0 < d.micros := by
  obtain ⟨hd, hpos⟩ := parseDuration_eq_ok.1 h
  rw [spanNamed?_of_not_span (by simp), Option.bind_eq_some_iff] at hd
  obtain ⟨ts, hts, hd⟩ := hd
  obtain ⟨xs, hx, rfl⟩ := durationTerms?_eq_some_iff.1 hts
  exact ⟨xs, hx, sum?_default_eq_some_iff.1 hd, hpos⟩

theorem ConsistsOf.unique {ys : List (DurationTerm × List Char)} (hx : ConsistsOf s xs)
    (hy : ConsistsOf s ys) : xs = ys := hx.tiles.unique hy.tiles

theorem consistsOf_of_tiles {cs : List Char} (hne : xs ≠ []) (h : Tiles xs cs) :
    ConsistsOf (String.ofList cs) xs := by
  refine ⟨hne, ?_⟩
  rw [Text.strip, String.toList_ofList, String.toList_ofList, h.stripChars]
  exact h

theorem consistsOf_append {a b : String} {ys : List (DurationTerm × List Char)}
    (ha : Text.strip a = a) (hb : Text.strip b = b) (hx : ConsistsOf a xs) (hy : ConsistsOf b ys) :
    ConsistsOf (a ++ b) (xs ++ ys) := by
  have hxs := hx.tiles
  have hys := hy.tiles
  rw [ha] at hxs
  rw [hb] at hys
  have h := consistsOf_of_tiles (by simp [hx.ne_nil]) (hxs.append hys)
  rwa [String.ofList_append, String.ofList_toList, String.ofList_toList] at h

theorem consistsOf_perm {ys : List (DurationTerm × List Char)} (hx : ConsistsOf s xs)
    (h : xs.Perm ys) : ConsistsOf (String.ofList (ys.flatMap Prod.snd)) ys :=
  consistsOf_of_tiles (fun e => hx.ne_nil (List.perm_nil.1 (e ▸ h))) (hx.tiles.perm h)

/-- Reading a duration accepts the texts that consist of terms, in the one way in which a text can.
Their lengths add up in any order, and so do those of texts that are joined. -/
theorem parseDuration_grammar (label : String) :
    (∀ s, parseDuration label (.text s) ≠ .error (malformedDuration label s) ↔
      ∃ xs, ConsistsOf s xs) ∧
    (∀ s xs ys, ConsistsOf s xs → ConsistsOf s ys → xs = ys) ∧
    (∀ s xs as bs, ConsistsOf s xs → (Text.strip s).toList = as ++ 'm' :: 's' :: bs →
      ∃ before t amount after, xs = before ++ (t, amount ++ ['m', 's']) :: after ∧
        t.unit = .millisecond ∧ as = before.flatMap Prod.snd ++ amount ∧
          bs = after.flatMap Prod.snd) ∧
    (∀ s xs, ConsistsOf s xs →
      (∀ d : Span, Lasts (xs.map Prod.fst) d.micros → parseDuration label (.text s) =
        if 0 < d.micros then .ok d else .error (nonpositiveDuration label s)) ∧
      ((∀ d : Span, ¬ Lasts (xs.map Prod.fst) d.micros) →
        parseDuration label (.text s) = .error .outOfRange)) ∧
    (∀ a b da db, Text.strip a = a → Text.strip b = b →
      parseDuration label (.text a) = .ok da → parseDuration label (.text b) = .ok db →
      parseDuration label (.text (a ++ b)) = match Span.add? da db with
        | some d => .ok d
        | none => .error .outOfRange) ∧
    (∀ s xs ys d, ConsistsOf s xs → xs.Perm ys → parseDuration label (.text s) = .ok d →
      parseDuration label (.text (String.ofList (ys.flatMap Prod.snd))) = .ok d) := by
  refine ⟨fun s => parseDuration_ne_malformed_iff, fun s xs ys hx hy => hx.unique hy,
    fun s xs as bs hx hs => (hs ▸ hx.tiles).millisecond,
    fun s xs hx => ⟨fun d => parseDuration_of_lasts hx, parseDuration_of_not_lasts hx⟩,
    fun a b da db ha hb hda hdb => ?_, fun s xs ys d hx hp hd => ?_⟩
  · obtain ⟨xs, hx, hxs, hpos⟩ := lasts_of_parseDuration hda
    obtain ⟨ys, hy, hys, hpos'⟩ := lasts_of_parseDuration hdb
    have hxy := consistsOf_append ha hb hx hy
    have hsum : Lasts ((xs ++ ys).map Prod.fst) (da.micros + db.micros) := by
      rw [List.map_append]
      exact hxs.append hys
    cases hd : Span.add? da db with
    | some d =>
      have hd : d.micros = da.micros + db.micros := Span.ofMicros?_eq_some.1 hd
      rw [parseDuration_of_lasts hxy (hd ▸ hsum), if_pos (by omega)]
    | none =>
      refine parseDuration_of_not_lasts hxy fun d hd' => ?_
      have hadd : Span.add? da db = some d := Span.ofMicros?_eq_some.2 (hd'.unique hsum)
      rw [hd] at hadd
      cases hadd
  · obtain ⟨xs', hx', hxs, hpos⟩ := lasts_of_parseDuration hd
    obtain rfl := hx.unique hx'
    rw [parseDuration_of_lasts (consistsOf_perm hx hp) (hxs.perm (hp.map _)), if_pos hpos]

/-- The term that is written `1m`. -/
def oneMinute : DurationTerm × List Char := (⟨⟨['1'], []⟩, .minute⟩, ['1', 'm'])

/-- The term that is written `1ms`. -/
def oneMillisecond : DurationTerm × List Char := (⟨⟨['1'], []⟩, .millisecond⟩, ['1', 'm', 's'])

theorem consistsOf_singleton {t : DurationTerm} {cs : List Char} (h : t.Spelled cs) :
    ConsistsOf (String.ofList cs) [(t, cs)] :=
  consistsOf_of_tiles (by simp) ⟨by simpa using h, by simp⟩

theorem spelled_one : Amount.Spelled ⟨['1'], []⟩ ['1'] :=
  .whole (by simp) (by simp [Text.Digits]; decide)

/-- The text `1m1ms` is a minute and a millisecond, in this order or the other. -/
theorem parseDuration_grammar_minute_millisecond :
    parseDuration "interval" (.text "1m1ms") = .ok ⟨60001000, by decide⟩ ∧
      parseDuration "interval" (.text "1ms1m") = .ok ⟨60001000, by decide⟩ ∧
      ∃ before t amount after,
        [oneMinute, oneMillisecond] = before ++ (t, amount ++ ['m', 's']) :: after ∧
          t.unit = .millisecond := by
  obtain ⟨-, -, hms, hvalue, hadd, hperm⟩ := parseDuration_grammar "interval"
  have hminute : ConsistsOf "1m" [oneMinute] := consistsOf_singleton ⟨['1'], spelled_one, rfl⟩
  have hmilli : ConsistsOf "1ms" [oneMillisecond] :=
    consistsOf_singleton ⟨['1'], spelled_one, rfl⟩
  have hboth : ConsistsOf "1m1ms" [oneMinute, oneMillisecond] :=
    consistsOf_append (by cbv) (by cbv) hminute hmilli
  have hm : Lasts [oneMinute.1] 60000000 :=
    .singleton (micros?_eq_some_iff.1 (by decide +kernel))
  have hs : Lasts [oneMillisecond.1] 1000 :=
    .singleton (micros?_eq_some_iff.1 (by decide +kernel))
  have hm' : parseDuration "interval" (.text "1m") = .ok ⟨60000000, by decide⟩ :=
    ((hvalue _ _ hminute).1 ⟨60000000, by decide⟩ hm).trans (if_pos (by decide))
  have hs' : parseDuration "interval" (.text "1ms") = .ok ⟨1000, by decide⟩ :=
    ((hvalue _ _ hmilli).1 ⟨1000, by decide⟩ hs).trans (if_pos (by decide))
  have hlong : Span.add? ⟨60000000, by decide⟩ ⟨1000, by decide⟩ = some ⟨60001000, by decide⟩ := by
    decide
  have hsum : parseDuration "interval" (.text "1m1ms") = .ok ⟨60001000, by decide⟩ := by
    have h := hadd "1m" "1ms" _ _ (by cbv) (by cbv) hm' hs'
    rwa [hlong] at h
  have hswapped : String.ofList ([oneMillisecond, oneMinute].flatMap Prod.snd) = "1ms1m" := by
    decide
  refine ⟨hsum, hswapped ▸ hperm _ _ _ _ hboth (.swap _ _ []) hsum, ?_⟩
  obtain ⟨before, t, amount, after, h, hu, -⟩ := hms _ _ ['1', 'm', '1'] [] hboth (by cbv)
  exact ⟨before, t, amount, after, h, hu⟩

end GridStream
