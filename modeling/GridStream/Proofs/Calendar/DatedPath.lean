import GridStream.Calendar.Pattern
import GridStream.Proofs.Calendar.DayNumber
import GridStream.Proofs.Text.Digits
import GridStream.Proofs.Text.Replace

/-!
# Paths of dated files

Under the pattern of a date with hyphens, the path of a file carries the day on which the file
starts and nothing else of its start (`expandTemplate_dashedDate_inj`).
-/

namespace GridStream

namespace Text

theorem padLeft_toString_inj {width m n : Nat} :
    padLeft width '0' (toString m) = padLeft width '0' (toString n) ↔ m = n := by
  refine ⟨fun h => ?_, fun h => by rw [h]⟩
  rw [← ofDigitChars_padLeft width m, h, ofDigitChars_padLeft]

theorem hyphen_not_mem_padLeft {width n : Nat} :
    '-' ∉ (padLeft width '0' (toString n)).toList := fun h => by
  have hdigit : '-'.isDigit = true := isDigit_of_mem_zeroPadded h
  cases hdigit

/-- Texts are the same up to the first occurrence of a character, and behind it. -/
theorem append_cons_inj {c : Char} {as bs as' bs' : List Char} (h : c ∉ as) (h' : c ∉ as') :
    as ++ c :: bs = as' ++ c :: bs' ↔ as = as' ∧ bs = bs' := by
  refine ⟨fun e => ?_, fun ⟨e, e'⟩ => by rw [e, e']⟩
  induction as generalizing as' with
  | nil =>
    cases as' with
    | nil => exact ⟨rfl, List.tail_eq_of_cons_eq e⟩
    | cons a as' =>
      cases e
      exact absurd (List.mem_cons_self ..) h'
  | cons a as ih =>
    cases as' with
    | nil =>
      cases e
      exact absurd (List.mem_cons_self ..) h
    | cons a' as' =>
      obtain ⟨rfl, hrest⟩ := List.cons.inj e
      have hin := List.not_mem_of_not_mem_cons h
      have hin' := List.not_mem_of_not_mem_cons h'
      obtain ⟨rfl, rfl⟩ := ih hin hin' hrest
      exact ⟨rfl, rfl⟩

end Text

namespace Pattern

/-- A date with hyphens: the year, and month and day with two digits each. -/
theorem expand_dashedDate (t : Instant) : (expand dashedDate t).toList =
    (Text.padLeft 1 '0' (toString t.date.year)).toList ++
      '-' :: ((Text.padLeft 2 '0' (toString t.date.month)).toList ++
        '-' :: (Text.padLeft 2 '0' (toString t.date.day)).toList) := by
  rw [expand, String.toList_ofList]
  have hchars : dashedDate.toList = ['%', 'Y', '-', '%', 'm', '-', '%', 'd'] := rfl
  rw [hchars]
  simp [fillIn, expandFrom, Flags.with?, Text.isPlainDigit, finish, directive, number]

theorem expand_dashedDate_inj {a b : Instant} :
    expand dashedDate a = expand dashedDate b ↔ a.date = b.date := by
  rw [← String.toList_inj, expand_dashedDate, expand_dashedDate,
    Text.append_cons_inj Text.hyphen_not_mem_padLeft Text.hyphen_not_mem_padLeft,
    Text.append_cons_inj Text.hyphen_not_mem_padLeft Text.hyphen_not_mem_padLeft,
    String.toList_inj, String.toList_inj, String.toList_inj, Text.padLeft_toString_inj,
    Text.padLeft_toString_inj, Text.padLeft_toString_inj]
  rcases a.date with ⟨y, m, d⟩
  rcases b.date with ⟨y', m', d'⟩
  simp

end Pattern

/-- Files have the same path just if they start on the same day. -/
theorem expandTemplate_dashedDate_inj {template : String} {a b : Instant}
    (h : Text.contains dateMark template) :
    expandTemplate template Pattern.dashedDate a = expandTemplate template Pattern.dashedDate b ↔
      a.date = b.date := by
  rw [expandTemplate, expandTemplate, Text.replaceAll_inj (by decide) h,
    Pattern.expand_dashedDate_inj]

end GridStream
