import GridStream.Logging

/-!
# What a log shows

A log that shows the lines of some level and all above puts each of them on its console once, in
the order in which they are written (`Log.console_writeAll`). A log that was set up with a level
shows the lines of that level and all above (`Log.shows_setup`).
-/

namespace GridStream

/-- A line of a log: the name of the logger, and the entry. -/
abbrev Line := String × Entry

/-- The line as it is shown. -/
def Line.text (line : Line) : String := s!"{line.1} - {line.2.level.name} - {line.2.message}"

namespace Log

/-- Writes several lines. -/
def writeAll (l : Log) (lines : List Line) : Log :=
  lines.foldl (fun l line => l.write line.1 line.2) l

/-- A log that shows the lines of a level and all above on its console. -/
structure Shows (l : Log) (n : Nat) : Prop where
  pos : l.level ≠ 0
  level : l.level ≤ n
  handlers : ∃ (m : Nat) (places : List (List String)), m ≤ n ∧
    l.handlers = .console m :: places.map .file

variable {l l' : Log} {n : Nat} {line : Line} {lines : List Line}

@[simp] theorem writeAll_nil : l.writeAll [] = l := rfl

theorem writeAll_cons : l.writeAll (line :: lines) = (l.write line.1 line.2).writeAll lines := rfl

theorem writeAll_append {lines' : List Line} :
    l.writeAll (lines ++ lines') = (l.writeAll lines).writeAll lines' :=
  List.foldl_append

theorem foldl_write (l : Log) (name : String) (entries : List Entry) :
    entries.foldl (·.write name ·) l = l.writeAll (entries.map (name, ·)) := by
  rw [writeAll, List.foldl_map]

/-! ## Writing -/

theorem emit_fixed {m : Nat} {text : String} {h : Handler} :
    (emit m text l h).level = l.level ∧ (emit m text l h).handlers = l.handlers := by
  unfold emit
  split
  · exact ⟨rfl, rfl⟩
  · cases h <;> exact ⟨rfl, rfl⟩

/-- Writing does not change where lines go to. -/
theorem write_fixed : (l.write line.1 line.2).level = l.level ∧
    (l.write line.1 line.2).handlers = l.handlers := by
  have hfold : ∀ (m : Nat) (text : String) (hs : List Handler) (l : Log),
      (hs.foldl (emit m text) l).level = l.level ∧
        (hs.foldl (emit m text) l).handlers = l.handlers := by
    intro m text hs
    induction hs with
    | nil => exact fun l => ⟨rfl, rfl⟩
    | cons h hs ih => exact fun l => ⟨(ih _).1.trans emit_fixed.1, (ih _).2.trans emit_fixed.2⟩
  unfold write
  split
  · exact ⟨rfl, rfl⟩
  · split
    · unfold showStray
      split <;> exact ⟨rfl, rfl⟩
    · exact hfold ..

theorem emit_console {m : Nat} {text : String} (h : m ≤ n) :
    emit n text l (.console m) = { l with console := l.console ++ [text] } :=
  if_neg (Nat.not_lt.2 h)

theorem emit_file {level : Level} {text : String} {place : List String} :
    emit level.number text l (.file place) =
      { l with files := l.files.appendLine place text } := by
  have hle : Level.debug.number ≤ level.number := by cases level <;> decide
  exact if_neg (Nat.not_lt.2 hle)

theorem console_emit_file {m : Nat} {text : String} {place : List String} :
    (emit m text l (.file place)).console = l.console := by
  unfold emit
  split <;> rfl

theorem console_files {m : Nat} {text : String} (places : List (List String)) (l : Log) :
    ((places.map Handler.file).foldl (emit m text) l).console = l.console := by
  induction places generalizing l with
  | nil => rfl
  | cons place places ih => exact (ih _).trans console_emit_file

namespace Shows

theorem write (h : l.Shows n) : (l.write line.1 line.2).Shows n where
  pos := by rw [write_fixed.1]; exact h.pos
  level := by rw [write_fixed.1]; exact h.level
  handlers := by rw [write_fixed.2]; exact h.handlers

theorem console_write (h : l.Shows n) (hn : n ≤ line.2.level.number) :
    (l.write line.1 line.2).console = l.console ++ [line.text] := by
  obtain ⟨m, places, hm, hplaces⟩ := h.handlers
  have hlevel := h.level
  unfold Log.write
  rw [threshold, if_neg h.pos, if_neg (by omega), hplaces, if_neg (by simp)]
  refine (console_files places _).trans ?_
  rw [emit_console (Nat.le_trans hm hn)]
  rfl

end Shows

/-- The console gets the lines that are shown, in order. -/
theorem console_writeAll (h : l.Shows n) (hn : ∀ line ∈ lines, n ≤ line.2.level.number) :
    (l.writeAll lines).console = l.console ++ lines.map Line.text := by
  induction lines generalizing l with
  | nil => exact (List.append_nil _).symm
  | cons line lines ih =>
    rw [List.forall_mem_cons] at hn
    rw [writeAll_cons, ih h.write hn.2, h.console_write hn.1, List.append_assoc]
    rfl

/-! ## Setting up -/

theorem setup_eq_some {number : Nat} {name : String} {file : Value}
    (hn : levelNumber? name = some number) (h : l.setup (.text name) file true = (l', none)) :
    l'.level = number ∧ l'.console = l.console ∧
      ∃ places : List (List String), l'.handlers = .console number :: places.map .file := by
  simp only [setup, hn] at h
  split at h
  · cases h
  · cases h
    exact ⟨rfl, rfl, [], rfl⟩
  · split at h
    · cases h
    · next place _ =>
      cases h
      exact ⟨rfl, rfl, [place], rfl⟩

/-- A log that was set up shows the lines of its level. -/
theorem shows_setup {number : Nat} {name : String} {file : Value}
    (hn : levelNumber? name = some number) (hpos : number ≠ 0)
    (h : l.setup (.text name) file true = (l', none)) :
    l'.Shows number ∧ l'.console = l.console := by
  obtain ⟨rfl, hconsole, places, hplaces⟩ := setup_eq_some hn h
  exact ⟨⟨hpos, Nat.le_refl _, _, places, Nat.le_refl _, hplaces⟩, hconsole⟩

theorem Shows.mono {m : Nat} (h : l.Shows m) (hm : m ≤ n) : l.Shows n where
  pos := h.pos
  level := Nat.le_trans h.level hm
  handlers := by
    obtain ⟨k, places, hk, hplaces⟩ := h.handlers
    exact ⟨k, places, Nat.le_trans hk hm, hplaces⟩

end Log

end GridStream
