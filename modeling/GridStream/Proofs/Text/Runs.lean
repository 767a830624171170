import GridStream.Text.Character

/-!
# Runs of characters

A run of characters of one kind is found whole where a character of another kind follows
(`Text.takeWhile_append`, `Text.dropWhile_append`). Digits and blanks are of different kinds, in
every script (`Text.isBlank_of_isDigit`).
-/

namespace GridStream.Text

/-- Whether a run of characters that satisfy `p` ends before a text. -/
def StopsAt (p : Char → Bool) (rest : List Char) : Prop := ∀ c ∈ rest.head?, p c = false

/-- Whether a text is written with digits only. -/
def Digits (cs : List Char) : Prop := ∀ c ∈ cs, isDigit c = true

variable {p q : Char → Bool} {cs rest : List Char}

theorem StopsAt.mono (h : StopsAt q rest) (hpq : ∀ c, q c = false → p c = false) :
    StopsAt p rest := fun c hc => hpq c (h c hc)

theorem stopsAt_cons {c : Char} : StopsAt p (c :: rest) ↔ p c = false := by
  simp [StopsAt]

theorem takeWhile_append (hp : ∀ c ∈ cs, p c = true) (hr : StopsAt p rest) :
    (cs ++ rest).takeWhile p = cs := by
  rw [List.takeWhile_append_of_pos hp]
  cases rest with
  | nil => simp
  | cons c rest => simp [hr c rfl]

theorem dropWhile_append (hp : ∀ c ∈ cs, p c = true) (hr : StopsAt p rest) :
    (cs ++ rest).dropWhile p = rest := by
  rw [List.dropWhile_append_of_pos hp]
  cases rest with
  | nil => rfl
  | cons c rest => simp [hr c rfl]

theorem takeWhile_of_stopsAt (h : StopsAt p rest) : rest.takeWhile p = [] :=
  @takeWhile_append p [] rest nofun h

theorem dropWhile_of_stopsAt (h : StopsAt p rest) : rest.dropWhile p = rest :=
  @dropWhile_append p [] rest nofun h

theorem digits_takeWhile (cs : List Char) : Digits (cs.takeWhile isDigit) :=
  List.all_eq_true.1 List.all_takeWhile

theorem stripChars_of_stopsAt (h : StopsAt isBlank cs) (h' : StopsAt isBlank cs.reverse) :
    stripChars cs = cs := by
  rw [stripChars, dropWhile_of_stopsAt h, dropWhile_of_stopsAt h', List.reverse_reverse]

/-- The digits of scripts other than the first lie between the blanks. -/
private theorem zeroDigits_gap : ∀ z ∈ zeroDigits, z = 0x30 ∨ 0xA0 < z ∧ z + 9 < 0x1680 ∨
    0x1680 < z ∧ z + 9 < 0x2000 ∨ 0x3000 < z := by
  decide

theorem isBlank_of_isDigit {c : Char} (h : isDigit c = true) : isBlank c = false := by
  unfold isDigit digitValue? at h
  split at h
  · next hc =>
    have h0 : 48 ≤ c.toNat := hc.1
    have h9 : c.toNat ≤ 57 := hc.2
    simp [isBlank]
    omega
  · split at h
    · cases h
    · rw [Option.isSome_map, List.find?_isSome] at h
      obtain ⟨z, hz, hc⟩ := h
      simp only [Bool.and_eq_true, decide_eq_true_eq] at hc
      have hgap := zeroDigits_gap z hz
      simp [isBlank]
      omega

end GridStream.Text
