import GridStream.Proofs.Document.Json.Tokens
import GridStream.Proofs.Value.Named
import GridStream.Proofs.Value.Regular

/-!
# Reading back what was written

A value that JSON has a form for (`Value.Portable`) is read back from its document as it was
(`Json.read?_document`). It is put together from the tokens that the document spells: the fuel that
this takes is bounded by the count of the tokens.
-/

namespace GridStream
open Entries

/-- A value that a document can hold as it is. Mappings have texts as their keys, no text twice. Of
doubles only those that are numbers count, and it is taken for granted that their printed digits
read back. -/
inductive Value.Portable : Value → Prop
  | null : Portable .null
  | bool (b : Bool) : Portable (.bool b)
  | int (n : Int) : Portable (.int n)
  | float {x : Float} (number : Decimal.Parts.ofFloat x ≠ .nan)
    (reads : Decimal.isFinite x = true → Json.ReadsBack x) : Portable (.float x)
  | text (s : String) : Portable (.text s)
  | list {items : List Value} (items_portable : ∀ v ∈ items, Portable v) : Portable (.list items)
  | map {entries : Mapping} (named : Named entries) (values : ∀ e ∈ entries, Portable e.2) :
    Portable (.map entries)

namespace Value.Portable

variable {v : Value} {m : Mapping} {key : Value}

theorem named (h : (Value.map m).Portable) : Named m := by
  cases h with
  | map named => exact named

theorem values (h : (Value.map m).Portable) : ∀ e ∈ m, e.2.Portable := by
  cases h with
  | map _ values => exact values

theorem of_get? (h : (Value.map m).Portable) (hv : m.get? key = some v) : v.Portable :=
  h.values _ (h.named.mem_iff.2 hv)

theorem regular (h : v.Portable) : v.Regular := by
  induction h with
  | map named _ ih => exact .map named.distinct ih
  | _ => exact .leaf rfl

/-- A value without doubles that are no numbers is equal to itself. -/
theorem same_self (h : v.Portable) : v.same v = true := by
  induction h with
  | null => rfl
  | bool b => exact (same_iff_of_number rfl).2 ⟨_, rfl, by simp [Number.same]⟩
  | int n => exact (same_iff_of_number rfl).2 ⟨_, rfl, by simp [Number.same]⟩
  | @float x number reads =>
    have hself : (x == x) = true := by
      rw [Decimal.beq_iff]
      cases hx : Decimal.Parts.ofFloat x with
      | nan => exact absurd hx number
      | infinite s => exact .infinite s
      | finite s mantissa exponent => exact .finite s mantissa exponent
    have hnumber : (Value.float x).number? = some (.float x) := rfl
    exact (same_iff_of_number hnumber).2 ⟨_, hnumber, hself⟩
  | text s => simp [same]
  | @list vs items ih =>
    rw [same]
    clear items
    induction vs with
    | nil => rfl
    | cons v vs ihs =>
      rw [List.forall_mem_cons] at ih
      rw [sameItems, ih.1, ihs ih.2]
      rfl
  | @map m named values ih =>
    refine Mapping.same_of_get? named named (fun k v hv => ⟨v, hv, ?_⟩) fun k v hv => ⟨v, hv⟩
    exact ih _ (named.mem_iff.2 hv)

end Value.Portable

namespace Json

variable {ts rest : List Token} {tss : List (List Token)} {v : Value} {vs : List Value}
  {es : Mapping} {parts : List String} {s : String} {level : Nat}

/-! ## Putting tokens together -/

/-- A value is put together from tokens in front of whatever follows. Two steps for each token are
enough. -/
def Parses (ts : List Token) (v : Value) : Prop :=
  ∀ steps rest, 2 * ts.length ≤ steps → value? steps (ts ++ rest) = some (v, rest)

theorem parses_text (s : String) : Parses [.text s] (.text s) := by
  intro steps rest hsteps
  cases steps with
  | zero => cases hsteps
  | succ steps => rw [List.singleton_append, value?]

theorem parses_word (v : Value) : Parses [.word v] v := by
  intro steps rest hsteps
  cases steps with
  | zero => cases hsteps
  | succ steps => rw [List.singleton_append, value?]

/-- A value does not begin with the end of a list. -/
theorem Parses.ne_closeList (h : Parses ts v) :
    ∀ rest more, ts ++ rest ≠ .closeList :: more := by
  intro rest more heq
  have hvalue := h (2 * ts.length + 1) rest (Nat.le_succ _)
  rw [heq] at hvalue
  simp [value?] at hvalue

theorem items?_commaSeparated (h : List.Forall₂ Parses (ts :: tss) (v :: vs)) :
    ∀ steps rest, 2 * (commaSeparated (ts :: tss)).length < steps →
      items? steps (commaSeparated (ts :: tss) ++ .closeList :: rest) = some (v :: vs, rest) := by
  induction tss generalizing ts v vs with
  | nil =>
    cases h with
    | cons hv hnil =>
      cases hnil
      intro steps rest hsteps
      cases steps with
      | zero => cases hsteps
      | succ steps =>
        rw [commaSeparated, items?, hv steps _ (Nat.le_of_lt_succ hsteps)]
  | cons next tss ih =>
    cases h with
    | cons hv hvs =>
      cases hvs with
      | cons hnext hvs =>
        intro steps rest hsteps
        cases steps with
        | zero => cases hsteps
        | succ steps =>
          rw [commaSeparated, List.length_append, List.length_cons] at hsteps
          have htail := ih (.cons hnext hvs) steps rest (by omega)
          rw [commaSeparated, List.append_assoc, List.cons_append, items?,
            hv steps _ (by omega)]
          dsimp only
          rw [htail, Option.map_some]

/-- Tokens with commas between them begin with the first. -/
theorem commaSeparated_cons (ts : List Token) (tss : List (List Token)) :
    ∃ tail, commaSeparated (ts :: tss) = ts ++ tail := by
  cases tss with
  | nil => exact ⟨[], by rw [commaSeparated, List.append_nil]⟩
  | cons next tss => exact ⟨_, by rw [commaSeparated]⟩

theorem parses_list (h : List.Forall₂ Parses tss vs) :
    Parses (.openList :: (commaSeparated tss ++ [.closeList])) (.list vs) := by
  intro steps rest hsteps
  rw [List.length_cons, List.length_append] at hsteps
  rw [List.cons_append, List.append_assoc, List.singleton_append]
  cases steps with
  | zero => cases hsteps
  | succ steps =>
    cases h with
    | nil => rfl
    | @cons ts v tss vs hv hvs =>
      have hitems := items?_commaSeparated (.cons hv hvs) steps rest (by omega)
      rw [value?, hitems, Option.map_some]
      intro more heq
      obtain ⟨tail, htail⟩ := commaSeparated_cons ts tss
      rw [htail, List.append_assoc] at heq
      exact hv.ne_closeList _ _ heq

/-- An entry is put together from its key, a colon, and the tokens of its value. -/
def ParsesEntry (ts : List Token) (e : Value × Value) : Prop :=
  ∃ key tail, ts = .text key :: .colon :: tail ∧ e.1 = .text key ∧ Parses tail e.2

theorem entries?_commaSeparated {e : Value × Value} {es : List (Value × Value)}
    (h : List.Forall₂ ParsesEntry (ts :: tss) (e :: es)) :
    ∀ steps rest, 2 * (commaSeparated (ts :: tss)).length < steps →
      entries? steps (commaSeparated (ts :: tss) ++ .closeMap :: rest) = some (e :: es, rest) := by
  induction tss generalizing ts e es with
  | nil =>
    cases h with
    | cons he hnil =>
      cases hnil
      obtain ⟨key, tail, rfl, hkey, hvalue⟩ := he
      intro steps rest hsteps
      cases steps with
      | zero => cases hsteps
      | succ steps =>
        rw [commaSeparated, List.length_cons, List.length_cons] at hsteps
        rw [commaSeparated, List.cons_append, List.cons_append, entries?,
          hvalue steps _ (by omega), ← hkey]
  | cons next tss ih =>
    cases h with
    | cons he hes =>
      cases hes with
      | cons hnext hes =>
        obtain ⟨key, tail, rfl, hkey, hvalue⟩ := he
        intro steps rest hsteps
        cases steps with
        | zero => cases hsteps
        | succ steps =>
          rw [commaSeparated, List.length_append, List.length_cons, List.length_cons,
            List.length_cons] at hsteps
          have hrest := ih (.cons hnext hes) steps rest (by omega)
          rw [commaSeparated, List.append_assoc, List.cons_append, List.cons_append,
            List.cons_append, entries?, hvalue steps _ (by omega)]
          dsimp only
          rw [hrest, Option.map_some, ← hkey]

theorem parses_map (hes : Distinct es) (h : List.Forall₂ ParsesEntry tss es) :
    Parses (.openMap :: (commaSeparated tss ++ [.closeMap])) (.map es) := by
  intro steps rest hsteps
  rw [List.length_cons, List.length_append] at hsteps
  rw [List.cons_append, List.append_assoc, List.singleton_append]
  cases steps with
  | zero => cases hsteps
  | succ steps =>
    cases h with
    | nil => rfl
    | @cons ts e tss es he htail =>
      have hentries := entries?_commaSeparated (.cons he htail) steps rest (by omega)
      have hof : Mapping.ofEntries (e :: es) = e :: es := by
        rw [Mapping.ofEntries, Mapping.update_eq]
        exact update_of_distinct hes
      rw [value?, hentries, Option.map_some]
      · dsimp only
        rw [hof]
      · intro more heq
        obtain ⟨key, tail, rfl, -, -⟩ := he
        obtain ⟨tail, htail⟩ := commaSeparated_cons (.text key :: .colon :: tail) tss
        rw [htail] at heq
        cases heq

/-! ## The form of a value -/

/-- A text is the form of a value: it spells tokens that are put together to the value. -/
def IsForm (s : String) (v : Value) : Prop :=
  (∀ c ∈ s.toList, Printed c) ∧ ∃ ts, Spells s ts ∧ Parses ts v

/-- Texts are the forms of the parts of a composed value. -/
def AreForms {α : Type} (ParsesPart : List Token → α → Prop) (parts : List String)
    (values : List α) : Prop :=
  (∀ s ∈ parts, ∀ c ∈ s.toList, Printed c) ∧
    ∃ tss, List.Forall₂ Spells parts tss ∧ List.Forall₂ ParsesPart tss values

theorem writeItems?_forms (h : ∀ v ∈ vs, ∃ s, write? level v = some s ∧ IsForm s v) :
    ∃ parts, writeItems? level vs = some parts ∧ AreForms Parses parts vs := by
  induction vs with
  | nil => exact ⟨[], rfl, by simp, [], .nil, .nil⟩
  | cons v vs ih =>
    rw [List.forall_mem_cons] at h
    obtain ⟨⟨s, hs, hprinted, ts, hspells, hparses⟩, hvs⟩ := h
    obtain ⟨parts, hparts, hall, tss, hspellss, hparsess⟩ := ih hvs
    refine ⟨s :: parts, ?_, List.forall_mem_cons.2 ⟨hprinted, hall⟩, ts :: tss,
      .cons hspells hspellss, .cons hparses hparsess⟩
    rw [writeItems?, hs, hparts]
    rfl

theorem writeEntries?_forms (hkeys : ∀ e ∈ es, ∃ s, e.1 = .text s)
    (h : ∀ e ∈ es, ∃ s, write? level e.2 = some s ∧ IsForm s e.2) :
    ∃ parts, writeEntries? level es = some parts ∧ AreForms ParsesEntry parts es := by
  induction es with
  | nil => exact ⟨[], rfl, by simp, [], .nil, .nil⟩
  | cons e es ih =>
    rw [List.forall_mem_cons] at hkeys h
    obtain ⟨⟨key, hkey⟩, hkeys⟩ := hkeys
    obtain ⟨⟨s, hs, hprinted, ts, hspells, hparses⟩, hes⟩ := h
    obtain ⟨parts, hparts, hall, tss, hspellss, hparsess⟩ := ih hkeys hes
    have hentry : ∀ c ∈ (quoted key ++ ": " ++ s).toList, Printed c := by
      simp only [String.toList_append, List.forall_mem_append]
      exact ⟨⟨printed_quoted key, forall_of_all (by decide)⟩, hprinted⟩
    refine ⟨(quoted key ++ ": " ++ s) :: parts, ?_, List.forall_mem_cons.2 ⟨hentry, hall⟩,
      (.text key :: .colon :: ts) :: tss, .cons (spells_entry key hspells) hspellss,
      .cons ⟨key, ts, rfl, hkey, hparses⟩ hparsess⟩
    obtain ⟨k, v⟩ := e
    dsimp only at hkey hs
    rw [writeEntries?, hkey, keyText?, hs, hparts]
    rfl

theorem printed_lineStart (level : Nat) : ∀ c ∈ (lineStart level).toList, Printed c := by
  rw [toList_lineStart]
  refine List.forall_mem_cons.2 ⟨by decide, fun c hc => ?_⟩
  rw [(List.mem_replicate.1 hc).2]
  decide

theorem printed_block {opening closing : Char} {parts : List String} (hopening : Printed opening)
    (hclosing : Printed closing) (hparts : ∀ s ∈ parts, ∀ c ∈ s.toList, Printed c) :
    ∀ c ∈ (block opening.toString closing.toString level parts).toList, Printed c := by
  have hmark : ∀ d, Printed d → ∀ c ∈ d.toString.toList, Printed c := fun d hd => by
    rw [Char.toString, String.toList_singleton]
    exact List.forall_mem_singleton.2 hd
  cases parts with
  | nil =>
    rw [block, String.toList_append]
    exact List.forall_mem_append.2 ⟨hmark _ hopening, hmark _ hclosing⟩
  | cons part parts =>
    have hjoin : ∀ c ∈ (String.intercalate ("," ++ lineStart (level + 1))
        (part :: parts)).toList, Printed c := by
      induction parts generalizing part with
      | nil =>
        rw [String.intercalate_singleton]
        exact (List.forall_mem_cons.1 hparts).1
      | cons next parts ih =>
        rw [List.forall_mem_cons] at hparts
        simp only [String.intercalate_cons_cons, String.toList_append, List.forall_mem_append]
        exact ⟨⟨hparts.1, forall_of_all (by decide), printed_lineStart _⟩, ih _ hparts.2⟩
    simp only [block, String.toList_append, List.forall_mem_append]
    exact ⟨⟨⟨⟨hmark _ hopening, printed_lineStart _⟩, hjoin⟩, printed_lineStart _⟩,
      hmark _ hclosing⟩

/-- A value that JSON has a form for is written in this form, at any level. -/
theorem write?_portable (h : v.Portable) : ∀ level, ∃ s, write? level v = some s ∧ IsForm s v := by
  induction h with
  | null => exact fun _ => ⟨_, rfl, forall_of_all (by decide), _, spells_null, parses_word _⟩
  | bool b =>
    refine fun _ => ⟨_, rfl, ?_, _, spells_bool b, parses_word _⟩
    cases b <;> exact forall_of_all (by decide)
  | int n =>
    exact fun _ => ⟨_, rfl, printed_toString n, _, spells_int n, parses_word _⟩
  | float number reads =>
    exact fun _ => ⟨_, rfl, printed_floatText _, _, spells_float number reads, parses_word _⟩
  | text s => exact fun _ => ⟨_, rfl, printed_quoted s, _, spells_quoted s, parses_text _⟩
  | @list vs items ih =>
    intro level
    obtain ⟨parts, hparts, hprinted, tss, hspells, hparses⟩ :=
      writeItems?_forms fun v hv => ih v hv (level + 1)
    have hwrite : write? level (.list vs) = some (block '['.toString ']'.toString level parts) := by
      rw [write?, hparts]
      rfl
    exact ⟨_, hwrite, printed_block (by decide) (by decide) hprinted, _,
      spells_block level (fun _ => rfl) (fun _ => rfl) hspells, parses_list hparses⟩
  | @map es named values ih =>
    intro level
    obtain ⟨parts, hparts, hprinted, tss, hspells, hparses⟩ :=
      writeEntries?_forms named.texts fun e he => ih e he (level + 1)
    have hwrite : write? level (.map es) =
        some (block '\x7b'.toString '\x7d'.toString level parts) := by
      rw [write?, hparts]
      rfl
    exact ⟨_, hwrite, printed_block (by decide) (by decide) hprinted, _,
      spells_block level (fun _ => rfl) (fun _ => rfl) hspells, parses_map named.distinct hparses⟩

/-- The form of a value is read as the value. -/
theorem read?_form (h : IsForm s v) : read? s = some v := by
  obtain ⟨-, ts, hspells, hparses⟩ := h
  have hlexes := hspells [] [] nofun .nil
  rw [List.append_nil, List.append_nil] at hlexes
  have htokens : tokens? s = some ts := hlexes _ (Nat.le_of_eq String.length_toList)
  have hvalue := hparses _ [] (Nat.le_refl _)
  rw [List.append_nil] at hvalue
  rw [read?, htokens]
  simp only [bind, Option.bind_some, hvalue]

/-- A value that JSON has a form for has a document, which is read as the value. -/
theorem read?_document (h : v.Portable) :
    ∃ s, document? v = some s ∧ read? s = some v ∧ ∀ c ∈ s.toList, Printed c := by
  obtain ⟨s, hs, hform⟩ := write?_portable h 0
  exact ⟨s, hs, read?_form hform, hform.1⟩

end Json

end GridStream
