import GridStream.Text.Search

/-!
# Replacing what occurs

Where a pattern occurs in a text, the result of replacing it tells what it was replaced with
(`replaceAll_inj`): the length of the result tells the length of the replacement, which then stands
at the place of the first occurrence.
-/

namespace GridStream.Text

variable {pattern a b : List Char}

/-- The length of the result grows with the length of the replacement, and by as much for each
occurrence of the pattern. -/
theorem length_replaceFrom (pattern : List Char) (skip : Nat) (cs : List Char) :
    ∃ rest count, (skip = 0 → pattern ≠ [] → containsChars pattern cs → 0 < count) ∧
      ∀ a, (replaceFrom pattern a skip cs).length = rest + count * a.length := by
  induction cs generalizing skip with
  | nil =>
    refine ⟨0, 0, fun _ hne h => absurd (by simpa [containsChars] using h) hne, fun a => ?_⟩
    simp [replaceFrom]
  | cons c cs ih =>
    cases skip with
    | succ skip =>
      obtain ⟨rest, count, -, hlen⟩ := ih skip
      exact ⟨rest, count, nofun, hlen⟩
    | zero =>
      by_cases hp : pattern ≠ [] ∧ pattern.isPrefixOf (c :: cs)
      · obtain ⟨rest, count, -, hlen⟩ := ih (pattern.length - 1)
        refine ⟨rest, count + 1, fun _ _ _ => Nat.succ_pos _, fun a => ?_⟩
        rw [replaceFrom, if_pos hp, List.length_append, hlen, Nat.succ_mul]
        omega
      · obtain ⟨rest, count, hcount, hlen⟩ := ih 0
        refine ⟨rest + 1, count, fun _ hne h => hcount rfl hne ?_, fun a => ?_⟩
        · rw [containsChars, Bool.or_eq_true] at h
          exact h.resolve_left fun h => hp ⟨hne, h⟩
        · rw [replaceFrom, if_neg hp, List.length_cons, hlen]
          omega

theorem eq_of_replaceFrom_eq (hne : pattern ≠ []) (hab : a.length = b.length) {cs : List Char}
    (hc : containsChars pattern cs)
    (h : replaceFrom pattern a 0 cs = replaceFrom pattern b 0 cs) : a = b := by
  induction cs with
  | nil => exact absurd (by simpa [containsChars] using hc) hne
  | cons c cs ih =>
    by_cases hp : pattern ≠ [] ∧ pattern.isPrefixOf (c :: cs)
    · rw [replaceFrom, replaceFrom, if_pos hp, if_pos hp] at h
      exact List.append_inj_left h hab
    · rw [replaceFrom, replaceFrom, if_neg hp, if_neg hp] at h
      rw [containsChars, Bool.or_eq_true] at hc
      exact ih (hc.resolve_left fun h => hp ⟨hne, h⟩) (List.tail_eq_of_cons_eq h)

/-- Different replacements give different results. -/
theorem replaceAll_inj {pattern a b s : String} (hne : pattern ≠ "") (hc : contains pattern s) :
    replaceAll pattern a s = replaceAll pattern b s ↔ a = b := by
  refine ⟨fun h => ?_, fun h => by rw [h]⟩
  have hne : pattern.toList ≠ [] := fun e => hne (String.toList_inj.1 e)
  have h : replaceFrom pattern.toList a.toList 0 s.toList =
      replaceFrom pattern.toList b.toList 0 s.toList := String.ofList_injective h
  obtain ⟨rest, count, hcount, hlen⟩ := length_replaceFrom pattern.toList 0 s.toList
  have hcount := hcount rfl hne hc
  have hab : a.toList.length = b.toList.length := by
    have hl := congrArg List.length h
    rw [hlen, hlen] at hl
    exact Nat.eq_of_mul_eq_mul_left hcount (Nat.add_left_cancel hl)
  exact String.toList_inj.1 (eq_of_replaceFrom_eq hne hab hc h)

/-- Where the first character of a pattern does not occur, nothing is replaced. -/
theorem replaceAll_of_not_mem {pattern a s : String} {c : Char} {cs : List Char}
    (hpattern : pattern.toList = c :: cs) (h : c ∉ s.toList) : replaceAll pattern a s = s := by
  have hreplace : ∀ text : List Char, c ∉ text →
      replaceFrom pattern.toList a.toList 0 text = text := by
    intro text htext
    induction text with
    | nil => rfl
    | cons d text ih =>
      rw [List.mem_cons, not_or] at htext
      have hno : ¬ (pattern.toList ≠ [] ∧ pattern.toList.isPrefixOf (d :: text)) := by
        rintro ⟨-, hd⟩
        rw [hpattern, List.isPrefixOf, Bool.and_eq_true, beq_iff_eq] at hd
        exact htext.1 hd.1
      rw [replaceFrom, if_neg hno, ih htext.2]
  rw [replaceAll, hreplace _ h, String.ofList_toList]

end GridStream.Text
