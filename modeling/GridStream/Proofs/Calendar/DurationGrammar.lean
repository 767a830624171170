import GridStream.Calendar.DurationText
import GridStream.Proofs.Text.Runs

/-!
# The grammar of durations

How a duration is written: an amount is a run of digits with at most one point in it, a term is an
amount with the letters of a unit behind it, and a text is tiled by terms (`DurationTerm.Tiles`).
Reading from the left finds a tiling if there is one (`DurationTerm.readAll?_eq_some_iff`). There is
never a second one (`DurationTerm.Tiles.unique`), although `1ms` starts with the text of a term of
minutes: no term starts with the `s` that would be left over.
-/

namespace GridStream

variable {cs rest : List Char}

open Text (Digits StopsAt)

/-! ## Amounts -/

namespace Amount

/-- The texts of an amount. -/
inductive Spelled : Amount → List Char → Prop
  | whole {ds} : ds ≠ [] → Digits ds → Spelled ⟨ds, []⟩ ds
  /-- A point with or without digits behind it. -/
  | pointed {ds fs} : ds ≠ [] → Digits ds → Digits fs → Spelled ⟨ds, fs⟩ (ds ++ '.' :: fs)
  /-- Nothing before the point. -/
  | point {fs} : fs ≠ [] → Digits fs → Spelled ⟨[], fs⟩ ('.' :: fs)

/-- Whether a character can be part of an amount. -/
def isPart (c : Char) : Bool := c == '.' || Text.isDigit c

variable {a : Amount} {as : List Char}

theorem Spelled.isPart (h : a.Spelled as) : ∀ c ∈ as, isPart c = true := by
  have hpart : ∀ c, c = '.' ∨ Text.isDigit c = true → Amount.isPart c = true := by
    simp [Amount.isPart]
  cases h with
  | whole _ hd => exact fun c hc => hpart c (.inr (hd c hc))
  | pointed _ hd hf =>
    intro c hc
    rw [List.mem_append, List.mem_cons] at hc
    obtain hc | rfl | hc := hc
    · exact hpart c (.inr (hd c hc))
    · exact hpart _ (.inl rfl)
    · exact hpart c (.inr (hf c hc))
  | point _ hf =>
    intro c hc
    obtain rfl | hc := List.mem_cons.1 hc
    · exact hpart _ (.inl rfl)
    · exact hpart c (.inr (hf c hc))

theorem Spelled.ne_nil (h : a.Spelled as) : as ≠ [] := by
  cases h <;> simp_all

theorem read?_of_point (h : cs.dropWhile Text.isDigit = '.' :: rest) :
    read? cs = if cs.takeWhile Text.isDigit = [] ∧ rest.takeWhile Text.isDigit = [] then none
      else some (⟨cs.takeWhile Text.isDigit, rest.takeWhile Text.isDigit⟩,
        rest.dropWhile Text.isDigit) := by
  unfold read?
  rw [h]
  rfl

theorem read?_of_no_point (h : ∀ rest, cs.dropWhile Text.isDigit ≠ '.' :: rest) :
    read? cs = if cs.takeWhile Text.isDigit = [] then none
      else some (⟨cs.takeWhile Text.isDigit, []⟩, cs.dropWhile Text.isDigit) := by
  unfold read?
  dsimp only
  split
  · next rest hd => exact absurd hd (h rest)
  · rfl

theorem read?_append (h : a.Spelled as) (hr : StopsAt isPart rest) :
    read? (as ++ rest) = some (a, rest) := by
  have hdigit : StopsAt Text.isDigit rest := hr.mono fun c hc => (Bool.or_eq_false_iff.1 hc).2
  have hpoint (fs : List Char) : StopsAt Text.isDigit ('.' :: fs) := Text.stopsAt_cons.2 (by decide)
  cases h with
  | whole hne hd =>
    have htake := Text.takeWhile_append hd hdigit
    have hdrop := Text.dropWhile_append hd hdigit
    have hno : ∀ tail, rest ≠ '.' :: tail := by
      rintro tail rfl
      exact absurd (hr '.' rfl) (by decide)
    rw [read?_of_no_point (by rwa [hdrop]), htake, hdrop, if_neg hne]
  | @pointed ds fs hne hd hf =>
    have htake := Text.takeWhile_append hd (hpoint (fs ++ rest))
    have hdrop := Text.dropWhile_append hd (hpoint (fs ++ rest))
    rw [List.append_assoc, List.cons_append, read?_of_point hdrop, htake,
      Text.takeWhile_append hf hdigit, Text.dropWhile_append hf hdigit, if_neg (fun e => hne e.1)]
  | @point fs hne hf =>
    rw [List.cons_append, read?_of_point (Text.dropWhile_of_stopsAt (hpoint _)),
      Text.takeWhile_of_stopsAt (hpoint _), Text.takeWhile_append hf hdigit,
      Text.dropWhile_append hf hdigit, if_neg (fun e => hne e.2)]

theorem spelled_of_read? (h : read? cs = some (a, rest)) :
    ∃ as, a.Spelled as ∧ cs = as ++ rest := by
  have hcs := List.takeWhile_append_dropWhile (p := Text.isDigit) (l := cs)
  have hwhole := Text.digits_takeWhile cs
  unfold read? at h
  generalize cs.takeWhile Text.isDigit = ds at h hcs hwhole
  generalize cs.dropWhile Text.isDigit = tail at h hcs
  split at h
  · next tail =>
    have htail := List.takeWhile_append_dropWhile (p := Text.isDigit) (l := tail)
    have hfraction := Text.digits_takeWhile tail
    dsimp only at h
    generalize tail.takeWhile Text.isDigit = fs at h htail hfraction
    generalize tail.dropWhile Text.isDigit = rest' at h htail
    subst hcs htail
    split at h
    · cases h
    · next hne =>
      cases h
      by_cases hds : ds = []
      · subst hds
        exact ⟨_, .point (fun e => hne ⟨rfl, e⟩) hfraction, rfl⟩
      · exact ⟨_, .pointed hds hwhole hfraction, by simp⟩
  · subst hcs
    dsimp only at h
    split at h
    · cases h
    · next hne =>
      cases h
      exact ⟨_, .whole hne hwhole, rfl⟩

end Amount

/-! ## Units -/

namespace TimeUnit

/-- How a unit is written. -/
def letters : TimeUnit → List Char
  | hour => ['h']
  | minute => ['m']
  | second => ['s']
  | millisecond => ['m', 's']

variable {u : TimeUnit}

theorem read?_append (h : u = minute → rest.head? ≠ some 's') :
    read? (u.letters ++ rest) = some (u, rest) := by
  cases u with
  | minute =>
    cases rest with
    | nil => rfl
    | cons c rest =>
      have hc : c ≠ 's' := fun e => h rfl (by rw [e]; rfl)
      simp [letters, read?, hc]
  | hour | second | millisecond => rfl

theorem of_read? (h : read? cs = some (u, rest)) :
    cs = u.letters ++ rest ∧ (u = minute → rest.head? ≠ some 's') := by
  unfold read? at h
  split at h <;> cases h
  · exact ⟨rfl, nofun⟩
  · exact ⟨rfl, nofun⟩
  · next hms =>
    refine ⟨rfl, fun _ hs => ?_⟩
    obtain ⟨tail, rfl⟩ := List.head?_eq_some_iff.1 hs
    exact hms tail rfl
  · exact ⟨rfl, nofun⟩

/-- An `m` with an `s` behind it starts in a unit only if the two are the unit. -/
theorem letters_append_eq {as bs : List Char} (h : u.letters ++ rest = as ++ 'm' :: 's' :: bs)
    (hr : rest.head? ≠ some 's') : (u = millisecond ∧ as = [] ∧ rest = bs) ∨
      ∃ as', as = u.letters ++ as' ∧ rest = as' ++ 'm' :: 's' :: bs := by
  cases as with
  | nil =>
    cases u <;> simp [letters] at h
    · exact absurd (by rw [h]; rfl) hr
    · exact .inl ⟨rfl, rfl, h⟩
  | cons a as =>
    cases u with
    | millisecond =>
      cases as with
      | nil => simp [letters] at h
      | cons a' as =>
        obtain ⟨rfl, rfl, hrest⟩ : 'm' = a ∧ 's' = a' ∧ rest = as ++ 'm' :: 's' :: bs := by
          simpa [letters] using h
        exact .inr ⟨as, rfl, hrest⟩
    | hour | minute | second =>
      obtain ⟨rfl, hrest⟩ := List.cons.inj h
      exact .inr ⟨as, rfl, hrest⟩

theorem stopsAt_letters (u : TimeUnit) (rest : List Char) :
    StopsAt Amount.isPart (u.letters ++ rest) := by
  intro c hc
  cases u <;> cases hc <;> decide

end TimeUnit

/-! ## Terms -/

namespace DurationTerm

/-- The texts of a term. -/
def Spelled (t : DurationTerm) (cs : List Char) : Prop :=
  ∃ as, t.amount.Spelled as ∧ cs = as ++ t.unit.letters

variable {t : DurationTerm}

/-- At any position there is at most one term to be read: of the terms of minutes and milliseconds
that a text may start with, the one of milliseconds. -/
theorem read?_eq_some_iff : read? cs = some (t, rest) ↔
    (∃ as, t.Spelled as ∧ cs = as ++ rest) ∧ (t.unit = .minute → rest.head? ≠ some 's') := by
  constructor
  · intro h
    unfold read? at h
    split at h
    · cases h
    · next a rest' ha =>
      obtain ⟨as, has, rfl⟩ := Amount.spelled_of_read? ha
      split at h
      · cases h
      · next u rest' hu =>
        obtain ⟨rfl, hs⟩ := TimeUnit.of_read? hu
        cases h
        exact ⟨⟨_, ⟨as, has, rfl⟩, by simp⟩, hs⟩
  · rintro ⟨⟨_, ⟨as, has, rfl⟩, rfl⟩, hs⟩
    unfold read?
    rw [List.append_assoc, Amount.read?_append has (TimeUnit.stopsAt_letters _ _)]
    dsimp only
    rw [TimeUnit.read?_append hs]

theorem Spelled.ne_nil (h : t.Spelled cs) : cs ≠ [] := by
  obtain ⟨as, has, rfl⟩ := h
  simp [has.ne_nil]

/-- A term starts with a digit or a point. -/
theorem Spelled.head?_ne (h : t.Spelled cs) : (cs ++ rest).head? ≠ some 's' := by
  obtain ⟨as, has, rfl⟩ := h
  obtain ⟨c, as, rfl⟩ := List.exists_cons_of_ne_nil has.ne_nil
  intro hs
  obtain rfl : c = 's' := by simpa using hs
  exact absurd (has.isPart 's' List.mem_cons_self) (by decide)

/-- A text cut into terms, each with the text that it is written as. -/
structure Tiles (xs : List (DurationTerm × List Char)) (cs : List Char) : Prop where
  spelled : ∀ x ∈ xs, x.1.Spelled x.2
  joined : xs.flatMap Prod.snd = cs

variable {xs ys : List (DurationTerm × List Char)} {as bs : List Char}

namespace Tiles

theorem nil : Tiles [] [] := ⟨nofun, rfl⟩

theorem cons (ht : t.Spelled as) (h : Tiles xs cs) : Tiles ((t, as) :: xs) (as ++ cs) where
  spelled := List.forall_mem_cons.2 ⟨ht, h.spelled⟩
  joined := by rw [List.flatMap_cons, h.joined]

theorem of_cons (h : Tiles ((t, as) :: xs) cs) :
    ∃ rest, cs = as ++ rest ∧ t.Spelled as ∧ Tiles xs rest :=
  ⟨_, h.joined.symm, h.spelled _ List.mem_cons_self,
    fun x hx => h.spelled x (List.mem_cons_of_mem _ hx), rfl⟩

theorem append (hx : Tiles xs as) (hy : Tiles ys bs) : Tiles (xs ++ ys) (as ++ bs) where
  spelled := fun x hx' => (List.mem_append.1 hx').elim (hx.spelled x) (hy.spelled x)
  joined := by rw [List.flatMap_append, hx.joined, hy.joined]

theorem perm (hx : Tiles xs cs) (h : xs.Perm ys) : Tiles ys (ys.flatMap Prod.snd) :=
  ⟨fun y hy => hx.spelled y (h.mem_iff.2 hy), rfl⟩

theorem head?_ne (h : Tiles xs cs) : cs.head? ≠ some 's' := by
  cases xs with
  | nil =>
    rw [← h.joined]
    nofun
  | cons x xs =>
    obtain ⟨rest, rfl, ht, -⟩ := h.of_cons
    exact ht.head?_ne

theorem eq_nil_iff (h : Tiles xs cs) : cs = [] ↔ xs = [] := by
  cases xs with
  | nil => simp [← h.joined]
  | cons x xs =>
    obtain ⟨rest, rfl, ht, -⟩ := h.of_cons
    simp [ht.ne_nil]

/-- Where a tiling starts, its first term is read. -/
theorem read? (h : Tiles ((t, as) :: xs) (as ++ rest)) :
    DurationTerm.read? (as ++ rest) = some (t, rest) := by
  obtain ⟨rest', hrest, ht, hxs⟩ := h.of_cons
  obtain rfl := List.append_cancel_left hrest
  exact read?_eq_some_iff.2 ⟨⟨as, ht, rfl⟩, fun _ => hxs.head?_ne⟩

/-- A text has at most one tiling: reading finds the terms of any. -/
theorem unique (hx : Tiles xs cs) (hy : Tiles ys cs) : xs = ys := by
  induction xs generalizing ys cs with
  | nil =>
    exact (hy.eq_nil_iff.1 (hx.eq_nil_iff.2 rfl)).symm
  | cons x xs ih =>
    obtain ⟨t, as⟩ := x
    cases ys with
    | nil => exact absurd (hx.eq_nil_iff.1 (hy.eq_nil_iff.2 rfl)) (by simp)
    | cons y ys =>
      obtain ⟨u, bs⟩ := y
      obtain ⟨rest, rfl, -, hxs⟩ := hx.of_cons
      obtain ⟨rest', hcs, -, hys⟩ := hy.of_cons
      have hread : DurationTerm.read? (as ++ rest) = some (u, rest') := by
        rw [hcs] at hy ⊢
        exact hy.read?
      obtain ⟨rfl, rfl⟩ : t = u ∧ rest = rest' := by simpa using hx.read?.symm.trans hread
      rw [List.append_cancel_right hcs, ih hxs hys]

end Tiles

theorem read?_nil : read? [] = none := rfl

theorem readAll?_nil : readAll? [] = some [] := by rw [readAll?, if_pos rfl]

theorem readAll?_of_read? (h : read? cs = some (t, rest)) :
    readAll? cs = (readAll? rest).map (t :: ·) := by
  have hne : cs ≠ [] := by
    rintro rfl
    cases h
  rw [readAll?, if_neg hne]
  split
  · next hr => cases hr.symm.trans h
  · next hr => cases hr.symm.trans h; rfl

theorem readAll?_of_none (hne : cs ≠ []) (h : read? cs = none) : readAll? cs = none := by
  rw [readAll?, if_neg hne]
  split
  · rfl
  · next hr => cases hr.symm.trans h

/-- Reading from the left finds the terms of a tiling, if there is one. -/
theorem readAll?_eq_some_iff {ts : List DurationTerm} :
    readAll? cs = some ts ↔ ∃ xs, Tiles xs cs ∧ xs.map Prod.fst = ts := by
  constructor
  · intro h
    induction cs using readAll?.induct generalizing ts with
    | case1 =>
      rw [readAll?_nil] at h
      cases h
      exact ⟨[], .nil, rfl⟩
    | case2 cs hne hr => cases (readAll?_of_none hne hr).symm.trans h
    | case3 cs hne t rest hr hlt ih =>
      rw [readAll?_of_read? hr, Option.map_eq_some_iff] at h
      obtain ⟨ts, hts, rfl⟩ := h
      obtain ⟨xs, hxs, rfl⟩ := ih hts
      obtain ⟨⟨as, ht, rfl⟩, -⟩ := read?_eq_some_iff.1 hr
      exact ⟨(t, as) :: xs, hxs.cons ht, rfl⟩
  · rintro ⟨xs, hx, rfl⟩
    induction xs generalizing cs with
    | nil =>
      obtain rfl := hx.eq_nil_iff.2 rfl
      exact readAll?_nil
    | cons x xs ih =>
      obtain ⟨rest, rfl, -, hxs⟩ := hx.of_cons
      rw [readAll?_of_read? hx.read?, ih hxs]
      rfl

/-- The terms that are found in a text from left to right, and what is left of the text without
them. Where no term starts, a character is passed over. -/
def scan (cs : List Char) : List DurationTerm × List Char :=
  match h : read? cs with
  | some (t, rest) =>
    have : rest.length < cs.length := length_of_read? h
    (t :: (scan rest).1, (scan rest).2)
  | none =>
    match cs with
    | [] => ([], [])
    | c :: cs => ((scan cs).1, c :: (scan cs).2)
termination_by cs.length

/-- A text consists of terms exactly if nothing is left of it without the terms in it, and these
are then the ones that it consists of. -/
theorem readAll?_eq_some_iff_scan {ts : List DurationTerm} :
    readAll? cs = some ts ↔ scan cs = (ts, []) := by
  induction cs using scan.induct generalizing ts with
  | case1 cs t rest h hlt ih =>
    have hscan : scan cs = (t :: (scan rest).1, (scan rest).2) := by
      rw [scan]
      split
      · next hr => cases hr.symm.trans h; rfl
      · next hr => cases hr.symm.trans h
    rw [readAll?_of_read? h, hscan, Option.map_eq_some_iff]
    constructor
    · rintro ⟨ts, hts, rfl⟩
      rw [ih.1 hts]
    · intro hts
      obtain ⟨rfl, hleft⟩ := Prod.mk.inj hts
      exact ⟨_, ih.2 (Prod.ext rfl hleft), rfl⟩
  | case2 h =>
    rw [readAll?_nil, scan]
    simp [read?_nil, eq_comm]
  | case3 c cs h ih =>
    have hscan : scan (c :: cs) = ((scan cs).1, c :: (scan cs).2) := by
      rw [scan]
      split
      · next hr => cases hr.symm.trans h
      · rfl
    rw [readAll?_of_none (by simp) h, hscan]
    simp

theorem Spelled.stopsAt_isBlank (h : t.Spelled cs) :
    StopsAt Text.isBlank (cs ++ rest) ∧ StopsAt Text.isBlank (rest ++ cs).reverse := by
  obtain ⟨as, has, rfl⟩ := h
  obtain ⟨c, as, rfl⟩ := List.exists_cons_of_ne_nil has.ne_nil
  refine ⟨Text.stopsAt_cons.2 ?_, ?_⟩
  · have hc := has.isPart c List.mem_cons_self
    rw [Amount.isPart, Bool.or_eq_true, beq_iff_eq] at hc
    obtain rfl | hc := hc
    · decide
    · exact Text.isBlank_of_isDigit hc
  · obtain ⟨amount, unit⟩ := t
    cases unit <;> simp [TimeUnit.letters, Text.stopsAt_cons] <;> decide

/-- No blanks are around a text of terms. -/
theorem Tiles.stripChars (h : Tiles xs cs) : Text.stripChars cs = cs := by
  refine Text.stripChars_of_stopsAt ?_ ?_
  · cases xs with
    | nil => rw [← h.joined]; nofun
    | cons x xs =>
      obtain ⟨rest, rfl, ht, -⟩ := h.of_cons
      exact ht.stopsAt_isBlank.1
  · obtain rfl | ⟨xs, x, rfl⟩ := List.eq_nil_or_concat xs
    · rw [← h.joined]; nofun
    · rw [List.concat_eq_append] at h
      rw [← h.joined, List.flatMap_append, List.flatMap_singleton]
      exact (h.spelled x (by simp)).stopsAt_isBlank.2

/-- In a tiling, an `m` with an `s` behind it is always a millisecond. -/
theorem Tiles.millisecond (h : Tiles xs (as ++ 'm' :: 's' :: bs)) :
    ∃ before t amount after, xs = before ++ (t, amount ++ ['m', 's']) :: after ∧
      t.unit = .millisecond ∧ as = before.flatMap Prod.snd ++ amount ∧
        bs = after.flatMap Prod.snd := by
  induction xs generalizing as with
  | nil => simpa using h.joined
  | cons x xs ih =>
    obtain ⟨t, cs⟩ := x
    obtain ⟨rest, hcs, ⟨amount, hamount, rfl⟩, hxs⟩ := h.of_cons
    obtain ⟨as', rfl, hunit⟩ : ∃ as', as = amount ++ as' ∧
        t.unit.letters ++ rest = as' ++ 'm' :: 's' :: bs := by
      rw [List.append_assoc, List.append_eq_append_iff] at hcs
      obtain ⟨tail, rfl, htail⟩ | ⟨as', rfl, hunit⟩ := hcs
      · -- No amount has an `m` in it.
        cases tail with
        | nil => exact ⟨[], by simp, htail.symm⟩
        | cons c tail =>
          obtain rfl : 'm' = c := (List.cons.inj htail).1
          exact absurd (hamount.isPart 'm' (by simp)) (by decide)
      · exact ⟨as', rfl, hunit⟩
    obtain ⟨hu, rfl, rfl⟩ | ⟨as', rfl, rfl⟩ := TimeUnit.letters_append_eq hunit hxs.head?_ne
    · exact ⟨[], t, amount, xs, by rw [hu]; rfl, hu, by simp, hxs.joined.symm⟩
    · obtain ⟨before, u, amount', after, rfl, hu, rfl, hafter⟩ := ih hxs
      exact ⟨_ :: before, u, amount', after, rfl, hu, by simp, hafter⟩

end DurationTerm

end GridStream
