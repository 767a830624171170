import GridStream.Files
import GridStream.Proofs.Attempt

/-!
# Finding what was written

A file that was written at a path is found there (`FolderTree.find?_write`): writing it leaves the
folders alone that the path leads through.
-/

namespace GridStream

/-- A text that does not begin with a slash names a path without a root. -/
theorem FilePath.ofText_of_relative {s : String} (h : s.toList.head? ≠ some '/') :
    FilePath.ofText s =
      ⟨"", (Text.splitAt '/' s).filter fun part => part ≠ "" ∧ part ≠ "."⟩ := by
  have hstart : s.startsWith "/" = false := by
    rw [Bool.eq_false_iff, ne_eq, String.startsWith_string_iff]
    rintro ⟨rest, hs⟩
    exact h (hs ▸ rfl)
  rw [FilePath.ofText, hstart]
  rfl

namespace FolderTree

variable {t t' : FolderTree} {p : FilePath} {place q : List String} {entry : FileEntry}

theorem find?_replace (es : List (List String × FileEntry)) :
    (set.replace place entry es).find? (·.1 == q) =
      if place = q then some (place, entry) else es.find? (·.1 == q) := by
  have hcons : ∀ (e : List String × FileEntry) es, (e :: es).find? (·.1 == q) =
      if e.1 = q then some e else es.find? (·.1 == q) := by
    intro e es
    split
    · next h => exact List.find?_cons_of_pos (by simpa using h)
    · next h => exact List.find?_cons_of_neg (by simpa using h)
  induction es with
  | nil => rw [set.replace, hcons]
  | cons e es ih =>
    rw [set.replace, hcons]
    by_cases he : e.1 = place
    · rw [if_pos he, hcons, he]
      split <;> rfl
    · rw [if_neg he, hcons, ih]
      by_cases hq : place = q
      · rw [if_pos hq, if_neg (hq ▸ he), if_pos hq]
      · rw [if_neg hq, if_neg hq]

/-- Setting what stands at a place changes this place alone. -/
theorem entry?_set (hplace : t.entry? place ≠ some .folder) :
    entry? (t.set place entry) q = if place = q then some entry else t.entry? q := by
  unfold entry? at hplace ⊢
  by_cases htop : FilePath.isTop q
  · have hne : place ≠ q := by
      rintro rfl
      exact hplace (if_pos htop)
    rw [if_pos htop, if_neg hne, if_pos htop]
  · rw [if_neg htop, if_neg htop, set, find?_replace]
    split <;> rfl

/-- Following parts leads to the same place if no folder is lost. -/
theorem follow_mono (h : ∀ q, t.entry? q = some .folder → t'.entry? q = some .folder) :
    ∀ parts q, t.follow q parts = some place → t'.follow q parts = some place := by
  intro parts
  induction parts with
  | nil => exact fun q hq => hq
  | cons part parts ih =>
    intro q hq
    rw [follow] at hq ⊢
    split at hq
    · next hfolder =>
      rw [h q hfolder]
      exact ih _ hq
    · cases hq

theorem writable_eq_ok (h : t.writable p = .ok place) :
    t.place? p = some place ∧ t.entry? place ≠ some .folder := by
  unfold writable at h
  split at h
  · cases h
  · split at h
    · cases h
    · next hplace =>
      split at h
      · cases h
      · next hno =>
        cases h
        exact ⟨hplace, hno⟩
      · cases h
      · cases h

theorem write_of_writable (text : String) (h : t.writable p = .ok place) :
    t.write p text = .ok (t.set place (.text text)) := by
  rw [write, h]
  rfl

/-- A file that was written at a path is found there. -/
theorem find?_set (h : t.writable p = .ok place) : (t.set place entry).find? p = some entry := by
  obtain ⟨hplace, hfolder⟩ := writable_eq_ok h
  have hfolders : ∀ q, t.entry? q = some .folder →
      entry? (t.set place entry) q = some .folder := by
    intro q hq
    rw [ entry?_set hfolder, if_neg, hq]
    rintro rfl
    exact hfolder hq
  have hfollow : (t.set place entry).place? p = some place := follow_mono hfolders _ _ hplace
  rw [find?, hfollow, Option.bind_some, entry?_set hfolder, if_pos rfl]

end FolderTree

end GridStream
