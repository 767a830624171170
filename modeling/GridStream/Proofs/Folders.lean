import GridStream.Logging
import GridStream.Proofs.Files

/-!
# Opening a log file

A log file can be opened if nothing but folders is on its way and no folder is at its end
(`Log.CanOpen`): then it is (`Log.openFile_of_canOpen`), and only then
(`Log.canOpen_of_openFile`). Opening it adds the folders that are missing and the file itself, and
leaves the text of every file as it is (`Log.textAt_openFile`).
-/

namespace GridStream

namespace FilePath

variable {p : FilePath}

/-- The places that parts lead through from a place on. -/
def way (place : List String) : List String → List (List String)
  | [] => []
  | part :: parts => next place part :: way (next place part) parts

/-- The folders that a file needs. -/
def folders (p : FilePath) : List (List String) := way p.origin p.parent.parts

theorem hasNull_of_parent (h : p.parent.hasNull = true) : p.hasNull = true := by
  rw [hasNull, List.any_eq_true] at h ⊢
  obtain ⟨part, hpart, hnull⟩ := h
  exact ⟨part, List.dropLast_subset _ hpart, hnull⟩

end FilePath

namespace FolderTree

variable {t t' : FolderTree} {p : FilePath} {place q : List String} {parts : List String}

/-! ## Texts -/

theorem textAt_congr (h : t'.entry? q = t.entry? q) : t'.textAt q = t.textAt q := by
  rw [textAt, textAt, h]

theorem textAt_set {text : String} (hplace : t.entry? place ≠ some .folder) :
    (t.set place (.text text)).textAt q = if place = q then text else t.textAt q := by
  have hset : entry? (t.set place (.text text)) q = _ := entry?_set hplace
  by_cases h : place = q
  · rw [if_pos h] at hset ⊢
    rw [textAt, hset]
  · rw [if_neg h] at hset ⊢
    exact textAt_congr hset

theorem textAt_appendLine {line : String} (hplace : t.entry? place ≠ some .folder) :
    (t.appendLine place line).textAt q =
      if place = q then t.textAt q ++ line ++ "\n" else t.textAt q := by
  rw [appendLine, textAt_set hplace]
  by_cases h : place = q
  · rw [if_pos h, if_pos h, h]
  · rw [if_neg h, if_neg h]

/-- What is not there has no text. -/
theorem textAt_eq_empty (h : t.entry? q = none) : t.textAt q = "" := by
  rw [textAt, h]

/-! ## Making folders -/

/-- A place where a folder is, or can be made. -/
def Passable (t : FolderTree) (place : List String) : Prop :=
  t.entry? place = none ∨ t.entry? place = some .folder

/-- Whether a folder is where a look-up has led. -/
instance (o : Option FileEntry) : Decidable (o = some .folder) :=
  match o with
  | some .folder => isTrue rfl
  | none | some (.text _) | some (.data _) => isFalse nofun

instance : Decidable (t.Passable place) := inferInstanceAs (Decidable (_ ∨ _))

theorem entry?_set_of_none {entry : FileEntry} (hplace : t.entry? place = none) :
    entry? (t.set place entry) q = if place = q then some entry else t.entry? q :=
  entry?_set (by simp [hplace])

theorem textAt_set_folder (hplace : t.entry? place = none) :
    (t.set place .folder).textAt q = t.textAt q := by
  by_cases h : place = q
  · rw [textAt, entry?_set_of_none hplace, if_pos h, textAt_eq_empty (h ▸ hplace)]
  · refine textAt_congr ?_
    rw [ entry?_set_of_none hplace, if_neg h]

theorem passable_set_folder (hplace : t.entry? place = none) :
    (t.set place .folder).Passable q ↔ t.Passable q := by
  rw [Passable, Passable, entry?_set_of_none hplace]
  by_cases h : place = q
  · simp [← h, hplace]
  · rw [if_neg h]

/-- Making folders leaves the texts of all files alone, also if it fails. -/
theorem textAt_makeFolders_go (made : Bool) :
    (makeFolders.go t place made parts).1.textAt q = t.textAt q := by
  induction parts generalizing t place made with
  | nil => rfl
  | cons part parts ih =>
    simp only [makeFolders.go]
    split
    · exact ih _
    · rfl
    · next hnone => rw [ih, textAt_set_folder hnone]

/-- Folders are made just if nothing else is in the way. -/
theorem makeFolders_go_eq_none (made : Bool) :
    (makeFolders.go t place made parts).2 = none ↔
      ∀ q ∈ FilePath.way place parts, t.Passable q := by
  induction parts generalizing t place made with
  | nil => simp [makeFolders.go, FilePath.way]
  | cons part parts ih =>
    simp only [makeFolders.go, FilePath.way, List.forall_mem_cons]
    split
    · next hfolder => rw [ih, and_iff_right (.inr hfolder)]
    · next hfolder hentry =>
      refine iff_of_false (by simp) fun h => ?_
      rcases h.1 with hnone | hsome
      · cases hentry.symm.trans hnone
      · cases hentry.symm.trans hsome
        exact hfolder rfl
    · next hnone =>
      rw [ih, and_iff_right (.inl hnone)]
      simp only [passable_set_folder hnone]

/-- The way leads through folders once it is made, and nothing else has changed. -/
theorem entry?_makeFolders_go (made : Bool) (h : ∀ q ∈ FilePath.way place parts, t.Passable q) :
    entry? (makeFolders.go t place made parts).1 q =
      if q ∈ FilePath.way place parts then some .folder else t.entry? q := by
  induction parts generalizing t place made with
  | nil => simp [makeFolders.go, FilePath.way]
  | cons part parts ih =>
    obtain ⟨hnext, hrest⟩ := List.forall_mem_cons.1 h
    simp only [makeFolders.go, FilePath.way, List.mem_cons]
    rcases hnext with hnone | hfolder
    · simp only [hnone]
      rw [ih _ fun q hq => (passable_set_folder hnone).2 (hrest q hq), entry?_set_of_none hnone]
      by_cases hq : q ∈ FilePath.way (FilePath.next place part) parts
      · rw [if_pos hq, if_pos (Or.inr hq)]
      · simp only [hq, or_false, if_false, eq_comm]
    · simp only [hfolder]
      rw [ih _ hrest]
      by_cases hq : q = FilePath.next place part
      · rw [if_pos (Or.inl hq), hq, hfolder, ite_self]
      · simp only [hq, false_or]

theorem makeFolders_eq_none : (t.makeFolders p.parent).2 = none ↔ ∀ q ∈ p.folders, t.Passable q :=
  makeFolders_go_eq_none false

theorem exists_makeFolders (h : ∀ q ∈ p.folders, t.Passable q) :
    ∃ files, t.makeFolders p.parent = (files, none) ∧
      ∀ q, files.entry? q = if q ∈ p.folders then some .folder else t.entry? q :=
  ⟨_, Prod.ext rfl (makeFolders_eq_none.2 h), fun _ => entry?_makeFolders_go false h⟩

end FolderTree

namespace Log

open FolderTree

variable {t : FolderTree} {p : FilePath} {q place : List String}

/-- A path at which a log file can be opened: no name has a null character, nothing but folders is
on the way, and no folder is at the end, nor comes to be there when the way is made. -/
structure CanOpen (t : FolderTree) (p : FilePath) : Prop where
  no_null : p.hasNull = false
  way : ∀ q ∈ p.folders, t.Passable q
  apart : p.place ∉ p.folders
  no_folder : t.entry? p.place ≠ some .folder

instance : Decidable (CanOpen t p) :=
  decidable_of_iff (p.hasNull = false ∧ (∀ q ∈ p.folders, t.Passable q) ∧
      p.place ∉ p.folders ∧ t.entry? p.place ≠ some .folder)
    ⟨fun ⟨hnull, hway, hapart, hfolder⟩ => ⟨hnull, hway, hapart, hfolder⟩,
      fun h => ⟨h.no_null, h.way, h.apart, h.no_folder⟩⟩

/-- Opening a log file adds no text to any file, also if it fails. -/
theorem textAt_openFile : (openFile t p).1.textAt q = t.textAt q := by
  have hmade : (t.makeFolders p.parent).1.textAt q = t.textAt q := textAt_makeFolders_go _
  unfold openFile
  split
  · rfl
  · split
    · next hfail => rw [hfail] at hmade; exact hmade
    · next files hok =>
      rw [hok] at hmade
      split
      · exact hmade
      · split
        · exact hmade
        · exact hmade
        · next hnone =>
          rw [textAt_set (by simp [hnone])]
          split
          · next h => rw [← hmade, ← h, textAt_eq_empty hnone]
          · exact hmade

/-- A log file is opened where it can be, and no folder is there. -/
theorem openFile_of_canOpen (h : CanOpen t p) :
    ∃ files, openFile t p = (files, .ok p.place) ∧ files.entry? p.place ≠ some .folder := by
  obtain ⟨files, hmade, hentry⟩ := exists_makeFolders h.way
  have hnull : ¬ p.hasNull = true := by simp [h.no_null]
  have hplace := (hentry p.place).trans (if_neg h.apart)
  unfold openFile
  rw [if_neg (mt FilePath.hasNull_of_parent hnull), hmade]
  dsimp only
  rw [if_neg hnull]
  cases hp : files.entry? p.place with
  | none => exact ⟨_, rfl, by rw [ne_eq, entry?_set_of_none hp, if_pos rfl]; simp⟩
  | some e =>
    cases e with
    | folder => exact absurd (hplace.symm.trans hp) h.no_folder
    | text | data => exact ⟨_, rfl, by simp [hp]⟩

/-- A log file that was opened could be opened. -/
theorem canOpen_of_openFile (h : (openFile t p).2 = .ok place) : CanOpen t p := by
  unfold openFile at h
  split at h
  · cases h
  · split at h
    · cases h
    · next files hok =>
      split at h
      · cases h
      · next hnull =>
        have hway := makeFolders_eq_none.1 (congrArg Prod.snd hok)
        obtain ⟨files', hmade, hentry⟩ := exists_makeFolders hway
        cases hok.symm.trans hmade
        have hplace : files.entry? p.place ≠ some .folder := fun hfolder => by
          rw [hfolder] at h
          cases h
        rw [hentry] at hplace
        have hapart : p.place ∉ p.folders := fun hmem => hplace (if_pos hmem)
        rw [if_neg hapart] at hplace
        exact ⟨Bool.eq_false_iff.2 hnull, hway, hapart, hplace⟩

end Log

end GridStream
