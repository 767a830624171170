import GridStream.Proofs.Folders
import GridStream.Proofs.Logging

/-!
# Where the lines of a log go

A log is set up any number of times while lines are written to it. Each call of a known level
replaces the routing of the calls before it (`Log.call_of_routing`), a call of an unknown level
leaves everything as it is (`Log.call_of_unknown`), and a line goes where the routing says that is
in force when it is written (`Log.Follows.write`). So what is shown, and what is in each file, is an
account of the lines with their routings (`Log.account_of_acts`).
-/

namespace GridStream

/-- A call that sets a log up. -/
structure LogCall where
  level : String := "INFO"
  file : Option String := none
  console : Bool := true

/-- Where lines go, and from which level on. -/
structure Routing where
  level : Nat := 0
  console : Bool := false
  place? : Option (List String) := none
  deriving DecidableEq

/-- What is done with a log: it is set up, or a line is written. -/
inductive LogAct
  | call (c : LogCall)
  | line (line : Line)

namespace LogCall

/-- The path of the log file. An empty text asks for none. -/
def path? (c : LogCall) : Option FilePath := (c.file.filter (· ≠ "")).map FilePath.ofText

/-- The routing that a call of a known level asks for. -/
def routing? (c : LogCall) : Option Routing :=
  (levelNumber? c.level).map fun level => ⟨level, c.console, c.path?.map FilePath.place⟩

end LogCall

namespace Routing

/-- The destinations of a routing: the console, then the file. -/
def handlers (r : Routing) : List Handler :=
  (if r.console then [.console r.level] else []) ++ r.place?.toList.map .file

/-- Whether a line is important enough. Where no level is set, this is so from warnings on. -/
def admits (r : Routing) (line : Line) : Bool :=
  (if r.level = 0 then Level.warning.number else r.level) ≤ line.2.level.number

/-- Whether a line is shown on the console. -/
def shows (r : Routing) (line : Line) : Bool := r.console && r.admits line

/-- Whether a line is added to the file at a place. -/
def adds (r : Routing) (place : List String) (line : Line) : Bool :=
  r.place? = some place && r.admits line

/-- Whether the message of a line is shown on the error stream, for want of a destination. -/
def strays (r : Routing) (line : Line) : Bool :=
  !r.console && r.place?.isNone && r.admits line && Level.warning.number ≤ line.2.level.number

/-- What becomes of the files when a line is written. -/
def filesBehind (r : Routing) (line : Line) (t : FolderTree) : FolderTree :=
  match r.place? with
  | some place => if r.admits line then t.appendLine place line.text else t
  | none => t

/-- The routing that is in force after an act. -/
def next (r : Routing) : LogAct → Routing
  | .call c => c.routing?.getD r
  | .line _ => r

/-- The routing that is in force after several acts: that of the last call of a known level. -/
def last (r : Routing) (acts : List LogAct) : Routing := acts.foldl next r

/-- The lines that are written, each with the routing that is in force. -/
def routed (r : Routing) : List LogAct → List (Routing × Line)
  | [] => []
  | .call c :: acts => (r.next (.call c)).routed acts
  | .line line :: acts => (r, line) :: r.routed acts

/-- The lines that go to a destination, which `goes` tells from the routing. -/
def received (goes : Routing → Line → Bool) (lines : List (Routing × Line)) : List Line :=
  (lines.filter fun e => goes e.1 e.2).map (·.2)

section
variable {r : Routing} {line : Line} {goes : Routing → Line → Bool}
  {lines lines' : List (Routing × Line)}

@[simp] theorem received_nil : received goes [] = [] := rfl

theorem received_append :
    received goes (lines ++ lines') = received goes lines ++ received goes lines' := by
  simp only [received, List.filter_append, List.map_append]

theorem received_single : received goes [(r, line)] = if goes r line then [line] else [] := by
  cases h : goes r line <;> simp [received, h]

end

end Routing

/-- The path of the log file that an act asks for. -/
def LogAct.path? : LogAct → Option FilePath
  | .call c => c.path?
  | .line _ => none

namespace Log

/-- Sets a log up as a call says. -/
def call (l : Log) (c : LogCall) : Log × Option Failure :=
  l.setup (.text c.level) (c.file.elim .null .text) c.console

def act (l : Log) : LogAct → Log
  | .call c => (l.call c).1
  | .line line => l.write line.1 line.2

def acts (l : Log) (as : List LogAct) : Log := as.foldl act l

/-- Each log file that is asked for can be opened when it is asked for. -/
def AllOpen (l : Log) : List LogAct → Prop
  | [] => True
  | a :: as => (∀ p ∈ a.path?, CanOpen l.files p) ∧ (l.act a).AllOpen as

instance decidableAllOpen : (l : Log) → (as : List LogAct) → Decidable (l.AllOpen as)
  | _, [] => isTrue trivial
  | l, a :: as =>
    have := decidableAllOpen (l.act a) as
    inferInstanceAs (Decidable ((∀ p ∈ a.path?, CanOpen l.files p) ∧ (l.act a).AllOpen as))

/-- A log with the level and the destinations of a routing. No folder is where its file is. -/
structure Follows (l : Log) (r : Routing) : Prop where
  level : l.level = r.level
  handlers : l.handlers = r.handlers
  no_folder : ∀ place ∈ r.place?, l.files.entry? place ≠ some .folder

/-- What lines add to a log: each of them is shown on the console, added to a file or shown on the
error stream as its routing says, in their order, and nothing else is. -/
structure Gains (l l' : Log) (lines : List (Routing × Line)) : Prop where
  console : l'.console = l.console ++ (Routing.received (·.shows) lines).map (·.text)
  files : ∀ place, l'.files.textAt place = l.files.textAt place ++
    String.join ((Routing.received (·.adds place) lines).map (·.text ++ "\n"))
  stray : l'.stray = l.stray ++ (Routing.received (·.strays) lines).map (·.2.message)

variable {l l' l'' : Log} {r : Routing} {c : LogCall} {line : Line} {as : List LogAct}
  {lines lines' : List (Routing × Line)}

namespace Gains

theorem of_same (hconsole : l'.console = l.console)
    (hfiles : ∀ place, l'.files.textAt place = l.files.textAt place) (hstray : l'.stray = l.stray) :
    l.Gains l' [] where
  console := by simp [hconsole]
  files place := by simp [hfiles]
  stray := by simp [hstray]

theorem refl : l.Gains l [] := of_same rfl (fun _ => rfl) rfl

theorem trans (h : l.Gains l' lines) (h' : l'.Gains l'' lines') :
    l.Gains l'' (lines ++ lines') where
  console := by
    rw [h'.console, h.console, Routing.received_append, List.map_append, List.append_assoc]
  files place := by
    rw [h'.files, h.files, Routing.received_append, List.map_append, String.join_append,
      String.append_assoc]
  stray := by
    rw [h'.stray, h.stray, Routing.received_append, List.map_append, List.append_assoc]

end Gains

/-! ## Setting up -/

theorem filePath?_file : filePath? (c.file.elim .null .text) = .ok c.path? := by
  unfold LogCall.path?
  cases c.file with
  | none => rfl
  | some s =>
    by_cases hs : s = ""
    · simp [filePath?, Value.isTrue, Option.filter, hs]
    · simp [filePath?, Value.isTrue, Option.filter, hs]

/-- A call of an unknown level changes nothing. -/
theorem call_of_unknown (h : c.routing? = none) : ∃ f, l.call c = (l, some f) := by
  have hlevel : levelNumber? c.level = none := Option.map_eq_none_iff.1 h
  exact ⟨_, by rw [call, setup, hlevel]⟩

/-- A call of a known level succeeds if its log file can be opened, and then its routing is in
force, whatever was before. -/
theorem call_of_routing (h : c.routing? = some r) (hopen : ∀ p ∈ c.path?, CanOpen l.files p) :
    (l.call c).2 = none ∧ (l.call c).1.Follows r ∧ l.Gains (l.call c).1 [] := by
  obtain ⟨number, hlevel, rfl⟩ := Option.map_eq_some_iff.1 h
  cases hp : c.path? with
  | none =>
    have hcall : l.call c = ({ l with
        level := number, handlers := if c.console then [.console number] else [] }, none) := by
      simp only [call, setup, hlevel, filePath?_file, hp]
    rw [hcall]
    exact ⟨rfl, ⟨rfl, by simp [Routing.handlers], by simp⟩, .of_same rfl (fun _ => rfl) rfl⟩
  | some p =>
    obtain ⟨files, hfiles, hplace⟩ := openFile_of_canOpen (hopen p hp)
    have hcall : l.call c = ({ l with
        level := number, files
        handlers := (if c.console then [.console number] else []) ++ [.file p.place] }, none) := by
      simp only [call, setup, hlevel, filePath?_file, hp, hfiles]
    have htext : ∀ q, files.textAt q = l.files.textAt q := fun q => by
      have htext := textAt_openFile (t := l.files) (p := p) (q := q)
      rwa [hfiles] at htext
    rw [hcall]
    exact ⟨rfl, ⟨rfl, by simp [Routing.handlers], by simpa using hplace⟩,
      .of_same rfl htext rfl⟩

/-- A call succeeds just if its level is known and its log file can be opened. -/
theorem call_succeeds_iff :
    (l.call c).2 = none ↔ c.routing?.isSome ∧ ∀ p ∈ c.path?, CanOpen l.files p := by
  constructor
  · intro h
    cases hr : c.routing? with
    | none =>
      obtain ⟨f, hf⟩ := call_of_unknown (l := l) hr
      rw [hf] at h
      cases h
    | some r =>
      refine ⟨rfl, fun p hp => ?_⟩
      obtain ⟨number, hlevel, -⟩ := Option.map_eq_some_iff.1 hr
      cases ho : openFile l.files p with
      | mk files result =>
        cases result with
        | ok place => exact canOpen_of_openFile (congrArg Prod.snd ho)
        | error f => simp [call, setup, hlevel, filePath?_file, Option.mem_def.1 hp, ho] at h
  · rintro ⟨hr, hopen⟩
    obtain ⟨r, hr⟩ := Option.isSome_iff_exists.1 hr
    exact (call_of_routing hr hopen).1

/-! ## Writing -/

theorem threshold_eq (h : l.Follows r) :
    l.threshold = if r.level = 0 then Level.warning.number else r.level := by
  rw [threshold, h.level]

theorem write_of_admits (h : l.Follows r) (hline : r.admits line) :
    l.write line.1 line.2 =
      if r.handlers = [] then l.showStray line.2
      else r.handlers.foldl (emit line.2.level.number line.text) l := by
  rw [write, threshold_eq h, if_neg (Nat.not_lt.2 (of_decide_eq_true hline)), h.handlers]
  rfl

theorem write_of_not_admits (h : l.Follows r) (hline : ¬ r.admits line) :
    l.write line.1 line.2 = l := by
  rw [write, threshold_eq h, if_pos (Nat.not_le.1 fun hle => hline (decide_eq_true hle))]

/-- The log behind a line. -/
theorem Follows.write_eq (h : l.Follows r) : l.write line.1 line.2 = { l with
    console := l.console ++ if r.shows line then [line.text] else []
    files := r.filesBehind line l.files
    stray := l.stray ++ if r.strays line then [line.2.message] else [] } := by
  by_cases hline : r.admits line
  · have hlevel : r.level ≤ line.2.level.number := by
      have hle := of_decide_eq_true hline
      split at hle <;> omega
    rw [write_of_admits h hline]
    obtain ⟨level, console, place?⟩ := r
    simp only [Routing.shows, Routing.strays, Routing.filesBehind, hline]
    cases console <;> cases place?
    · have hnone : Routing.handlers ⟨level, false, none⟩ = [] := rfl
      rw [if_pos hnone, showStray]
      by_cases hw : line.2.level.number < Level.warning.number
      · simp [hw, Nat.not_le.2 hw]
      · simp [hw, Nat.not_lt.1 hw]
    · exact emit_file.trans (by simp)
    · exact (emit_console hlevel).trans (by simp)
    · refine (congrArg (emit _ _ · _) (emit_console hlevel)).trans (emit_file.trans (by simp))
  · have hfiles : r.filesBehind line l.files = l.files := by
      unfold Routing.filesBehind
      cases r.place? with
      | none => rfl
      | some place => exact if_neg hline
    rw [write_of_not_admits h hline]
    simp [Routing.shows, Routing.strays, hline, hfiles]

theorem textAt_filesBehind {t : FolderTree} {q : List String}
    (h : ∀ place ∈ r.place?, t.entry? place ≠ some .folder) :
    (r.filesBehind line t).textAt q =
      t.textAt q ++ if r.adds q line then line.text ++ "\n" else "" := by
  unfold Routing.filesBehind Routing.adds
  cases hp : r.place? with
  | none => simp
  | some place =>
    by_cases hline : r.admits line
    · simp only [hline, if_true]
      rw [FolderTree.textAt_appendLine (h place hp), String.append_assoc]
      by_cases hq : place = q <;> simp [hq]
    · simp [hline]

theorem entry?_filesBehind {t : FolderTree} {q : List String}
    (h : ∀ place ∈ r.place?, t.entry? place ≠ some .folder) (hq : t.entry? q ≠ some .folder) :
    FolderTree.entry? (r.filesBehind line t) q ≠ some .folder := by
  unfold Routing.filesBehind
  split
  · next place hp =>
    split
    · rw [FolderTree.appendLine, FolderTree.entry?_set (h place hp)]
      split
      · simp
      · exact hq
    · exact hq
  · exact hq

/-- A line goes where the routing says that is in force, and the routing stays in force. -/
theorem Follows.write (h : l.Follows r) :
    (l.write line.1 line.2).Follows r ∧ l.Gains (l.write line.1 line.2) [(r, line)] := by
  rw [h.write_eq]
  refine ⟨⟨h.level, h.handlers, fun place hp => ?_⟩, ⟨?_, fun place => ?_, ?_⟩⟩
  · exact entry?_filesBehind h.no_folder (h.no_folder place hp)
  · rw [Routing.received_single]
    cases r.shows line <;> rfl
  · rw [textAt_filesBehind h.no_folder, Routing.received_single]
    cases r.adds place line <;> simp
  · rw [Routing.received_single]
    cases r.strays line <;> rfl

/-! ## Several acts -/

theorem act_follows {a : LogAct} (h : l.Follows r) (hopen : ∀ p ∈ a.path?, CanOpen l.files p) :
    (l.act a).Follows (r.next a) ∧ l.Gains (l.act a) (r.routed [a]) := by
  cases a with
  | line line => exact h.write
  | call c =>
    cases hc : c.routing? with
    | some r' =>
      have hnext : r.next (.call c) = r' := by rw [Routing.next, hc, Option.getD_some]
      rw [hnext]
      exact (call_of_routing hc hopen).2
    | none =>
      have hnext : r.next (.call c) = r := by rw [Routing.next, hc, Option.getD_none]
      obtain ⟨f, hf⟩ := call_of_unknown (l := l) hc
      rw [hnext, act, hf]
      exact ⟨h, .refl⟩

/-- The routing of the last call of a known level is in force behind several acts, and each line
went where the routing said that was in force when it was written. -/
theorem acts_follow (h : l.Follows r) (hopen : l.AllOpen as) :
    (l.acts as).Follows (r.last as) ∧ l.Gains (l.acts as) (r.routed as) := by
  induction as generalizing l r with
  | nil => exact ⟨h, .refl⟩
  | cons a as ih =>
    obtain ⟨hact, hgains⟩ := act_follows h hopen.1
    obtain ⟨hacts, hgains'⟩ := ih hact hopen.2
    have hrouted : r.routed (a :: as) = r.routed [a] ++ (r.next a).routed as := by
      cases a <;> rfl
    rw [hrouted]
    exact ⟨hacts, hgains.trans hgains'⟩

theorem allOpen_append {before : List LogAct} :
    l.AllOpen (before ++ as) ↔ l.AllOpen before ∧ (l.acts before).AllOpen as := by
  induction before generalizing l with
  | nil => exact (and_iff_right trivial).symm
  | cons a before ih => exact (and_congr_right fun _ => ih).trans and_assoc.symm

/-- A log that was never set up. -/
theorem follows_fresh {files : FolderTree} : Follows { files } {} :=
  ⟨rfl, rfl, by simp⟩

/-- However often a log is set up, and whatever is written in between: each call of a known level
succeeds and puts its own routing in force, each call of an unknown level fails and changes
nothing, and what is shown and what is in the files is an account of the lines with the routings
of the last calls of a known level before them. -/
theorem account_of_acts {files : FolderTree} (hopen : AllOpen { files } as) :
    (acts { files } as).Follows (Routing.last {} as) ∧
    Gains { files } (acts { files } as) (Routing.routed {} as) ∧
    ∀ before c after, as = before ++ .call c :: after →
      (∀ r, c.routing? = some r →
        ((acts { files } before).call c).2 = none ∧ ((acts { files } before).call c).1.Follows r) ∧
      (c.routing? = none →
        ∃ f, (acts { files } before).call c = (acts { files } before, some f)) := by
  obtain ⟨hfollows, hgains⟩ := acts_follow follows_fresh hopen
  refine ⟨hfollows, hgains, fun before c after has => ⟨fun r hr => ?_, call_of_unknown⟩⟩
  rw [has, allOpen_append] at hopen
  have hc : ∀ p ∈ c.path?, CanOpen (acts { files } before).files p := hopen.2.1
  obtain ⟨hok, hafter, -⟩ := call_of_routing hr hc
  exact ⟨hok, hafter⟩

/-- A log file from an earlier run. -/
def sampleFiles : FolderTree := ⟨[(["a.log"], .text "old\n")]⟩

/-- A line of the main logger. -/
def sampleLine (level : Level) (message : String) : LogAct := .line (mainName, ⟨level, message⟩)

/-- A log that is set up four times, once in vain. The last call names the file of the first one
again, by another path, and leaves the log without a level. -/
def sampleActs : List LogAct :=
  [sampleLine .error "early",
    .call { level := "debug", file := some "a.log" },
    sampleLine .debug "one",
    .call { level := "CHATTY", file := some "c.log" },
    .line (progressName, ⟨.info, "two"⟩),
    .call { level := "ERROR", file := some "logs/b.log", console := false },
    sampleLine .warning "three",
    sampleLine .critical "four",
    .call { level := "NOTSET", file := some "logs/../a.log" },
    sampleLine .info "five",
    sampleLine .warning "six"]

theorem account_of_acts_named_again :
    AllOpen { files := sampleFiles } sampleActs ∧
    (acts { files := sampleFiles } sampleActs).Follows ⟨0, true, some ["a.log"]⟩ ∧
    (acts { files := sampleFiles } sampleActs).console =
      ["wrfcmaq_preprocessor - DEBUG - one", "wrfcmaq_preprocessor.progress - INFO - two",
        "wrfcmaq_preprocessor - WARNING - six"] ∧
    (acts { files := sampleFiles } sampleActs).files.textAt ["a.log"] =
      "old\n" ++ "wrfcmaq_preprocessor - DEBUG - one\n" ++
        "wrfcmaq_preprocessor.progress - INFO - two\n" ++
        "wrfcmaq_preprocessor - WARNING - six\n" ∧
    (acts { files := sampleFiles } sampleActs).files.textAt ["logs", "b.log"] =
      "wrfcmaq_preprocessor - CRITICAL - four\n" ∧
    (acts { files := sampleFiles } sampleActs).stray = ["early"] := by
  have hopen : AllOpen { files := sampleFiles } sampleActs := by decide +kernel
  obtain ⟨hfollows, hgains, -⟩ := account_of_acts hopen
  have hlast : Routing.last {} sampleActs = ⟨0, true, some ["a.log"]⟩ := by decide +kernel
  refine ⟨hopen, hlast ▸ hfollows, hgains.console.trans ?_, (hgains.files _).trans ?_,
    (hgains.files _).trans ?_, hgains.stray.trans ?_⟩
  all_goals decide +kernel

/-- A call with the level `NOTSET` succeeds and shows on the console what has this level or one
above, but a line with such a level is not shown: the log has no level of its own. -/
theorem unset_level_hides_info :
    LogCall.routing? { level := "NOTSET" } = some ⟨0, true, none⟩ ∧
    (call {} { level := "NOTSET" }).2 = none ∧
    (call {} { level := "NOTSET" }).1.handlers = [.console 0] ∧
    0 ≤ Level.info.number ∧
    (acts {} [.call { level := "NOTSET" }, sampleLine .info "m"]).console = [] := by
  decide +kernel

end Log

end GridStream
