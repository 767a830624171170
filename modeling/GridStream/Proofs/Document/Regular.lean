import GridStream.Config.File
import GridStream.Proofs.Attempt
import GridStream.Proofs.Value.Regular

/-!
# What documents hold

Documents of either format hold regular values only, whatever keys are repeated in them
(`ConfigFormat.regular_read`).
-/

namespace GridStream

/-- A reader that gives regular values only. -/
def Reader.Regular (read : Reader) : Prop := ∀ text v, read text = .ok v → v.Regular

namespace Json

variable {cs rest : List Char} {v : Value} {t : Token} {tokens others : List Token}

/-- A token that brings no mapping with it. -/
def Token.IsLeaf : Token → Prop
  | .word v => v.map? = none
  | _ => True

theorem no_map_of_readNumber {negative : Bool} (h : readNumber negative cs = some (v, rest)) :
    v.map? = none := by
  unfold readNumber at h
  dsimp only at h
  repeat' split at h
  all_goals
    cases h
  all_goals rfl

theorem isLeaf_of_readToken (h : readToken cs = some (t, rest)) : t.IsLeaf := by
  have hwords : ∀ w ∈ words, w.2.map? = none := by simp [words, Value.map?]
  unfold readToken at h
  split at h
  case h_7 =>
    obtain ⟨⟨s, rest⟩, -, h⟩ := Option.map_eq_some_iff.1 h
    cases h
    trivial
  case h_8 =>
    split at h
    · next hw =>
      cases h
      exact hwords _ (List.mem_of_find?_eq_some hw)
    · obtain ⟨⟨v, rest⟩, hv, h⟩ := Option.map_eq_some_iff.1 h
      cases h
      split at hv
      · exact no_map_of_readNumber hv
      · exact no_map_of_readNumber hv
  all_goals
    cases h
    trivial

theorem isLeaf_of_tokensFrom {steps : Nat} (h : tokensFrom steps cs = some tokens) :
    ∀ t ∈ tokens, t.IsLeaf := by
  induction steps generalizing cs tokens with
  | zero =>
    cases cs with
    | nil =>
      cases h
      simp
    | cons => cases h
  | succ steps ih =>
    cases cs with
    | nil =>
      cases h
      simp
    | cons c cs =>
      rw [tokensFrom] at h
      split at h
      · exact ih h
      · split at h
        · cases h
        · next ht =>
          obtain ⟨more, hm, rfl⟩ := Option.map_eq_some_iff.1 h
          exact List.forall_mem_cons.2 ⟨isLeaf_of_readToken ht, ih hm⟩

/-- With so many steps, what tokens are put together to is regular, and so is what is put together
from the tokens that are left. -/
structure RegularWithin (steps : Nat) : Prop where
  value : ∀ {tokens v rest}, (∀ t ∈ tokens, t.IsLeaf) → value? steps tokens = some (v, rest) →
    v.Regular ∧ ∀ t ∈ rest, t.IsLeaf
  items : ∀ {tokens vs rest}, (∀ t ∈ tokens, t.IsLeaf) → items? steps tokens = some (vs, rest) →
    ∀ t ∈ rest, t.IsLeaf
  entries : ∀ {tokens es rest}, (∀ t ∈ tokens, t.IsLeaf) →
    entries? steps tokens = some (es, rest) →
    (∀ e ∈ es, e.1.isKey = true ∧ e.2.Regular) ∧ ∀ t ∈ rest, t.IsLeaf

namespace RegularWithin

variable {steps : Nat} {vs : List Value} {es : List (Value × Value)}

theorem value_succ (ih : RegularWithin steps) (ht : ∀ t ∈ tokens, t.IsLeaf)
    (h : value? (steps + 1) tokens = some (v, others)) :
    v.Regular ∧ ∀ t ∈ others, t.IsLeaf := by
  unfold value? at h
  split at h
  · next heq => cases heq
  · cases h
    exact ⟨.leaf rfl, (List.forall_mem_cons.1 ht).2⟩
  · cases h
    rw [List.forall_mem_cons] at ht
    exact ⟨.leaf ht.1, ht.2⟩
  · cases h
    exact ⟨.leaf rfl, fun t hm => ht t (by simp [hm])⟩
  · next heq =>
    cases heq
    obtain ⟨⟨vs, rest⟩, hvs, h⟩ := Option.map_eq_some_iff.1 h
    cases h
    exact ⟨.leaf rfl, ih.items (List.forall_mem_cons.1 ht).2 hvs⟩
  · cases h
    exact ⟨.map .nil (by simp), fun t hm => ht t (by simp [hm])⟩
  · next heq =>
    cases heq
    obtain ⟨⟨es, rest⟩, hes, h⟩ := Option.map_eq_some_iff.1 h
    cases h
    obtain ⟨hes, hrest⟩ := ih.entries (List.forall_mem_cons.1 ht).2 hes
    exact ⟨Mapping.Regular.ofEntries (fun e he => (hes e he).1) fun e he => (hes e he).2, hrest⟩
  · cases h

theorem items_succ (ih : RegularWithin steps) (ht : ∀ t ∈ tokens, t.IsLeaf)
    (h : items? (steps + 1) tokens = some (vs, others)) : ∀ t ∈ others, t.IsLeaf := by
  unfold items? at h
  split at h
  · next hv =>
    obtain ⟨-, hrest⟩ := ih.value ht hv
    obtain ⟨⟨vs, rest⟩, hvs, h⟩ := Option.map_eq_some_iff.1 h
    cases h
    exact ih.items (List.forall_mem_cons.1 hrest).2 hvs
  · next hv =>
    obtain ⟨-, hrest⟩ := ih.value ht hv
    cases h
    exact (List.forall_mem_cons.1 hrest).2
  · cases h

theorem entries_succ (ih : RegularWithin steps) (ht : ∀ t ∈ tokens, t.IsLeaf)
    (h : entries? (steps + 1) tokens = some (es, others)) :
    (∀ e ∈ es, e.1.isKey = true ∧ e.2.Regular) ∧ ∀ t ∈ others, t.IsLeaf := by
  have hkey : ∀ s, (Value.text s).isKey = true := fun s => by simp [Value.isKey]
  unfold entries? at h
  split at h
  · next heq => cases heq
  · next heq =>
    cases heq
    have htokens := (List.forall_mem_cons.1 (List.forall_mem_cons.1 ht).2).2
    split at h
    · next hv =>
      obtain ⟨hregular, hrest⟩ := ih.value htokens hv
      obtain ⟨⟨es, rest⟩, hes, h⟩ := Option.map_eq_some_iff.1 h
      cases h
      obtain ⟨hes, hrest⟩ := ih.entries (List.forall_mem_cons.1 hrest).2 hes
      exact ⟨List.forall_mem_cons.2 ⟨⟨hkey _, hregular⟩, hes⟩, hrest⟩
    · next hv =>
      obtain ⟨hregular, hrest⟩ := ih.value htokens hv
      cases h
      exact ⟨by simpa using ⟨hkey _, hregular⟩, (List.forall_mem_cons.1 hrest).2⟩
    · cases h
  · cases h

end RegularWithin

theorem regularWithin (steps : Nat) : RegularWithin steps := by
  induction steps with
  | zero => constructor <;> simp [value?, items?, entries?]
  | succ steps ih => exact ⟨ih.value_succ, ih.items_succ, ih.entries_succ⟩

theorem regular_read? {s : String} (h : read? s = some v) : v.Regular := by
  obtain ⟨tokens, ht, h⟩ := Option.bind_eq_some_iff.1 h
  split at h
  · next hv =>
    cases h
    exact ((regularWithin _).value (isLeaf_of_tokensFrom ht) hv).1
  · cases h

end Json

theorem Fault.unless_eq_ok {α : Type} {f : Fault} {a : α} {a? : Option α}
    (h : f.unless a? = .ok a) : a? = some a := by
  cases a? <;> cases h
  rfl

namespace Yaml

variable {v : Value} {s : String} {t : Tag}

/-- What a scalar stands for is a key, and it is no mapping. -/
structure IsScalar (v : Value) : Prop where
  isKey : v.isKey = true
  no_map : v.map? = none

theorem isScalar_of_parts {parts : TimeParts} (h : parts.value? = some v) : IsScalar v := by
  unfold TimeParts.value? at h
  split at h
  · obtain ⟨d, -, rfl⟩ := Option.map_eq_some_iff.1 h
    exact ⟨by simp [Value.isKey], rfl⟩
  · split at h
    · cases h
    · obtain ⟨instant, -, h⟩ := Option.bind_eq_some_iff.1 h
      split at h
      · cases h
        exact ⟨by simp [Value.isKey], rfl⟩
      · obtain ⟨zone, -, rfl⟩ := Option.map_eq_some_iff.1 h
        exact ⟨by simp [Value.isKey], rfl⟩

theorem isScalar_of_readTime (h : readTime s = .ok v) : IsScalar v := by
  unfold readTime at h
  split at h
  · exact isScalar_of_parts (Fault.unless_eq_ok h)
  · cases h

theorem isScalar_of_readBytes (h : readBytes s = .ok v) : IsScalar v := by
  unfold readBytes at h
  split at h
  · split at h <;> cases h
    exact ⟨by simp [Value.isKey], rfl⟩
  · cases h

theorem isScalar_of_read (h : t.read s = .ok v) : IsScalar v := by
  unfold Tag.read at h
  split at h
  case h_1 | h_6 =>
    cases h
    exact ⟨by simp [Value.isKey], rfl⟩
  case h_2 | h_3 | h_4 =>
    obtain ⟨x, -, rfl⟩ := Attempt.map_eq_ok.1 h
    exact ⟨by simp [Value.isKey], rfl⟩
  case h_5 => exact isScalar_of_readTime h
  case h_7 => exact isScalar_of_readBytes h
  case h_8 => cases h

theorem isScalar_of_ofRead (h : Made.ofRead (t.read s) = .ok v) : IsScalar v :=
  isScalar_of_read (Attempt.mapError_eq_ok.1 h)

theorem isScalar_of_scalarOf {text? : Option String} (h : scalarOf t text? = .ok v) :
    IsScalar v := by
  unfold scalarOf at h
  split at h
  · split at h
    · cases h
    · exact isScalar_of_ofRead h
  · cases h

section
variable {α β : Type}

@[simp] theorem fail_ne_ok {fault : Fault} {level : Nat} {a : α} :
    Made.fail fault level ≠ .ok a := nofun

theorem both_eq_ok {a : Made α} {b : Made β} {x : α × β} (h : a.both b = .ok x) :
    a = .ok x.1 ∧ b = .ok x.2 := by
  unfold Made.both at h
  split at h <;> cases h
  exact ⟨rfl, rfl⟩

theorem collect_eq_ok {f : α → β} {a : Made α} {y : β} (h : a.collect f = .ok y) :
    ∃ x, a = .ok x ∧ f x = y := by
  unfold Made.collect at h
  split at h <;> cases h
  exact ⟨_, rfl, rfl⟩

theorem unshared_eq_ok {a : Made Value} (h : a.unshared = .ok v) : a = .ok v := by
  obtain ⟨w, ha, hw⟩ := Attempt.bind_eq_ok.1 h
  split at hw <;> cases hw
  exact ha

end

/-- A node that stands for no collection stands for a scalar. -/
theorem isScalar_of_value : ∀ (n : Node) {v : Value}, n.tag.isCollection = false →
    n.value = .ok v → IsScalar v
  | .scalar tag text, v, htag, h => by
    change tag.isCollection = false at htag
    rw [Node.value, htag] at h
    exact isScalar_of_ofRead h
  | .sequence tag items, v, htag, h => by
    rw [Node.value.eq_def] at h
    dsimp only at h
    split at h
    case h_1 | h_2 | h_3 => cases htag
    all_goals cases h
  | .mapping tag written entries, v, htag, h => by
    rw [Node.value.eq_def] at h
    dsimp only at h
    split at h
    case h_8 => exact isScalar_of_scalarOf h
    all_goals cases htag
  | .reference n, v, htag, h => by
    rw [Node.value] at h
    split at h
    · cases h
    · exact isScalar_of_value n htag (unshared_eq_ok h)

mutual

theorem regular_value : ∀ (n : Node) {v : Value}, n.value = .ok v → v.Regular
  | .scalar tag text, v, h => by
    rw [Node.value] at h
    split at h
    · cases h
    · exact .leaf (isScalar_of_ofRead h).no_map
  | .sequence tag items, v, h => by
    rw [Node.value.eq_def] at h
    dsimp only at h
    split at h
    case h_1 | h_2 | h_3 =>
      obtain ⟨vs, -, rfl⟩ := collect_eq_ok h
      exact .leaf rfl
    all_goals cases h
  | .mapping tag written entries, v, h => by
    rw [Node.value.eq_def] at h
    dsimp only at h
    split at h
    case h_1 =>
      obtain ⟨es, hes, rfl⟩ := collect_eq_ok h
      have hentries := regular_entriesOf _ hes
      exact Mapping.Regular.ofEntries (fun e he => (hentries e he).1) fun e he => (hentries e he).2
    case h_2 =>
      obtain ⟨es, -, rfl⟩ := collect_eq_ok h
      exact .leaf rfl
    case h_8 => exact .leaf (isScalar_of_scalarOf h).no_map
    all_goals cases h
  | .reference n, v, h => by
    rw [Node.value] at h
    split at h
    · cases h
    · exact regular_value n (unshared_eq_ok h)

/-- The keys of a mapping are keys, and its values regular. -/
theorem regular_entriesOf : ∀ (entries : List (Node × Node)) {es : Mapping},
    entriesOf entries = .ok es → ∀ e ∈ es, e.1.isKey = true ∧ e.2.Regular
  | [], es, h => by
    rw [entriesOf] at h
    cases h
    simp
  | (k, n) :: rest, es, h => by
    rw [entriesOf] at h
    obtain ⟨⟨⟨key, v⟩, others⟩, hall, rfl⟩ := Attempt.map_eq_ok.1 h
    obtain ⟨hfirst, hrest⟩ := both_eq_ok hall
    obtain ⟨hkey, hv⟩ := both_eq_ok hfirst
    split at hkey
    · cases hkey
    · next htag =>
      refine List.forall_mem_cons.2 ⟨⟨?_, regular_value n hv⟩, regular_entriesOf rest hrest⟩
      exact (isScalar_of_value k (by simpa using htag) hkey).isKey

end

theorem regular_read : Reader.Regular read := by
  intro s v h
  obtain ⟨⟨node?, c⟩, -, h⟩ := Attempt.bind_eq_ok.1 h
  dsimp only at h
  split at h
  · cases h
    exact .leaf rfl
  · split at h
    · cases h
    · exact regular_value _ (Attempt.mapError_eq_ok.1 h)

end Yaml

theorem ConfigFormat.regular_read {yaml : Reader} (hyaml : yaml.Regular) {format : ConfigFormat}
    {p : FilePath} {text : String} {v : Value} (h : format.read yaml p text = .ok v) :
    v.Regular := by
  unfold ConfigFormat.read at h
  cases format with
  | yaml =>
    dsimp only at h
    split at h
    · next hv =>
      cases h
      split
      · exact hyaml _ _ hv
      · exact Mapping.Regular.nil
    all_goals cases h
  | json =>
    dsimp only at h
    split at h
    · next hv =>
      cases h
      exact Json.regular_read? hv
    · cases h

end GridStream
