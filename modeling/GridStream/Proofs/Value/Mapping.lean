import GridStream.Proofs.Value.Equality

/-!
# Mappings

A list of entries stands for a mapping if its keys are keys, no two of them equal
(`Entries.Distinct`). Setting a key changes what is found under the values that are equal to it, and
nothing else (`Entries.get?_put`). What is found in a mapping over which another one is laid comes
from the upper one if that has the key (`Mapping.get?_update`).
-/

namespace GridStream

namespace Entries

variable {β : Type} {es : List (Value × β)} {e : Value × β} {key k : Value} {b : β}

def get? (es : List (Value × β)) (key : Value) : Option β :=
  (es.find? fun e => e.1.same key).map (·.2)

/-- Sets a key. A key that is there already keeps its place. -/
def put : List (Value × β) → Value → β → List (Value × β)
  | [], key, b => [(key, b)]
  | e :: rest, key, b => if e.1.same key then (e.1, b) :: rest else e :: put rest key b

/-- Entries whose keys are keys, no two of them equal. -/
structure Distinct (es : List (Value × β)) : Prop where
  isKey : ∀ e ∈ es, e.1.isKey = true
  pairwise : es.Pairwise fun e f => e.1.same f.1 = false

theorem get?_cons : get? (e :: es) key = if e.1.same key = true then some e.2 else get? es key := by
  unfold get?
  rw [List.find?_cons]
  cases e.1.same key <;> rfl

theorem get?_eq_none (h : ∀ e ∈ es, e.1.same key = false) : get? es key = none := by
  unfold get?
  rw [List.find?_eq_none.2 fun e he => by simp [h e he], Option.map_none]

/-- Equal keys have the same value. -/
theorem get?_congr (hes : ∀ e ∈ es, e.1.isKey = true) (hkey : key.isKey = true)
    (h : key.same k = true) : get? es key = get? es k := by
  induction es with
  | nil => rfl
  | cons e es ih =>
    rw [List.forall_mem_cons] at hes
    rw [get?_cons, get?_cons, Value.same_congr_right hes.1 hkey h, ih hes.2]

theorem get?_put (hes : ∀ e ∈ es, e.1.isKey = true) (hkey : key.isKey = true) :
    get? (put es key b) k = if key.same k = true then some b else get? es k := by
  induction es with
  | nil => rw [put, get?_cons]
  | cons e es ih =>
    rw [List.forall_mem_cons] at hes
    rw [put, get?_cons]
    by_cases he : e.1.same key = true
    · rw [if_pos he, get?_cons, Value.same_congr_left (w := k) hes.1 hkey he]
      split <;> rfl
    · rw [if_neg he, get?_cons, ih hes.2]
      by_cases hk : key.same k = true
      · -- An entry that has the other key would have this one.
        have hek : ¬ e.1.same k = true := by rwa [← Value.same_congr_right hes.1 hkey hk]
        rw [if_pos hk, if_pos hk, if_neg hek]
      · rw [if_neg hk, if_neg hk]

/-- The keys of a list in which a key was set. -/
theorem forall_key_put {P : Value → Prop} (hes : ∀ e ∈ es, P e.1) (hkey : P key) :
    ∀ e ∈ put es key b, P e.1 := by
  induction es with
  | nil => simpa [put] using hkey
  | cons e es ih =>
    rw [List.forall_mem_cons] at hes
    rw [put]
    split
    · exact List.forall_mem_cons.2 hes
    · exact List.forall_mem_cons.2 ⟨hes.1, ih hes.2⟩

theorem forall_value_put {P : β → Prop} (hes : ∀ e ∈ es, P e.2) (hb : P b) :
    ∀ e ∈ put es key b, P e.2 := by
  induction es with
  | nil => simpa [put] using hb
  | cons e es ih =>
    rw [List.forall_mem_cons] at hes
    rw [put]
    split
    · exact List.forall_mem_cons.2 ⟨hb, hes.2⟩
    · exact List.forall_mem_cons.2 ⟨hes.1, ih hes.2⟩

theorem mem_of_get? (h : get? es key = some b) : ∃ e ∈ es, e.1.same key = true ∧ e.2 = b := by
  obtain ⟨e, he, rfl⟩ := Option.map_eq_some_iff.1 h
  have hsame := List.find?_some he
  exact ⟨e, List.mem_of_find?_eq_some he, hsame, rfl⟩

/-- Nothing is found under a text that is not there. -/
theorem get?_text_eq_none {s : String} :
    get? es (.text s) = none ↔ Value.text s ∉ es.map (·.1) := by
  induction es with
  | nil => simp [get?]
  | cons e es ih =>
    rw [get?_cons, List.map_cons, List.mem_cons, not_or, ← ih]
    by_cases hs : e.1 = .text s
    · rw [if_pos (Value.same_text.2 hs)]
      simp [hs]
    · rw [if_neg (mt Value.same_text.1 hs)]
      simp [Ne.symm hs]

/-- Setting a key keeps the places of the others. -/
theorem map_fst_put (es : List (Value × β)) :
    ∃ new, (put es key b).map (·.1) = es.map (·.1) ++ new := by
  induction es with
  | nil => exact ⟨[key], rfl⟩
  | cons e es ih =>
    rw [put]
    split
    · exact ⟨[], by simp⟩
    · obtain ⟨new, h⟩ := ih
      exact ⟨new, by rw [List.map_cons, h, List.map_cons, List.cons_append]⟩

namespace Distinct

theorem nil : Distinct ([] : List (Value × β)) := ⟨by simp, .nil⟩

theorem cons_iff : Distinct (e :: es) ↔
    (e.1.isKey = true ∧ ∀ f ∈ es, e.1.same f.1 = false) ∧ Distinct es := by
  constructor
  · rintro ⟨hk, hp⟩
    rw [List.forall_mem_cons] at hk
    rw [List.pairwise_cons] at hp
    exact ⟨⟨hk.1, hp.1⟩, hk.2, hp.2⟩
  · rintro ⟨⟨hk, hp⟩, h⟩
    exact ⟨List.forall_mem_cons.2 ⟨hk, h.isKey⟩, List.pairwise_cons.2 ⟨hp, h.pairwise⟩⟩

/-- The keys behind the first are not equal to what it is equal to. -/
theorem get?_tail (h : Distinct (e :: es)) (hk : e.1.same k = true) : get? es k = none := by
  obtain ⟨⟨he, hne⟩, hes⟩ := cons_iff.1 h
  refine get?_eq_none fun f hf => Bool.eq_false_iff.2 fun hfk => ?_
  have hef := Value.same_trans he hk (Value.same_symm (hes.isKey f hf) hfk)
  rw [hne f hf] at hef
  cases hef

theorem put (h : Distinct es) (hkey : key.isKey = true) : Distinct (put es key b) := by
  induction es with
  | nil => exact ⟨by simpa [Entries.put] using hkey, by simp [Entries.put]⟩
  | cons e es ih =>
    obtain ⟨⟨he, hne⟩, hes⟩ := cons_iff.1 h
    rw [Entries.put]
    split
    · exact cons_iff.2 ⟨⟨he, hne⟩, hes⟩
    · next hk =>
      rw [Bool.not_eq_true] at hk
      exact cons_iff.2 ⟨⟨he, forall_key_put (P := fun v => e.1.same v = false) hne hk⟩, ih hes⟩

end Distinct

/-! ## Setting several keys -/

/-- Sets the keys of `fs` one after the other. -/
def update (es fs : List (Value × β)) : List (Value × β) := fs.foldl (fun es e => put es e.1 e.2) es

variable {fs : List (Value × β)}

@[simp] theorem update_nil : update es [] = es := rfl

@[simp] theorem update_cons : update es (e :: fs) = update (put es e.1 e.2) fs := rfl

theorem forall_key_update {P : Value → Prop} (hes : ∀ e ∈ es, P e.1) (hfs : ∀ e ∈ fs, P e.1) :
    ∀ e ∈ update es fs, P e.1 := by
  induction fs generalizing es with
  | nil => exact hes
  | cons f fs ih =>
    rw [List.forall_mem_cons] at hfs
    exact ih (forall_key_put hes hfs.1) hfs.2

theorem forall_value_update {P : β → Prop} (hes : ∀ e ∈ es, P e.2) (hfs : ∀ e ∈ fs, P e.2) :
    ∀ e ∈ update es fs, P e.2 := by
  induction fs generalizing es with
  | nil => exact hes
  | cons f fs ih =>
    rw [List.forall_mem_cons] at hfs
    exact ih (forall_value_put hes hfs.1) hfs.2

theorem distinct_update (hes : Distinct es) (hfs : ∀ e ∈ fs, e.1.isKey = true) :
    Distinct (update es fs) := by
  induction fs generalizing es with
  | nil => exact hes
  | cons f fs ih =>
    rw [List.forall_mem_cons] at hfs
    exact ih (hes.put hfs.1) hfs.2

theorem get?_update (hes : ∀ e ∈ es, e.1.isKey = true) (hfs : Distinct fs) :
    get? (update es fs) k = (get? fs k).or (get? es k) := by
  induction fs generalizing es with
  | nil => rfl
  | cons f fs ih =>
    obtain ⟨⟨hf, -⟩, hfs'⟩ := Distinct.cons_iff.1 hfs
    have hkeys : ∀ e ∈ put es f.1 f.2, e.1.isKey = true :=
      forall_key_put (P := fun v => v.isKey = true) hes hf
    rw [update_cons, ih hkeys hfs', get?_put hes hf, get?_cons]
    by_cases hk : f.1.same k = true
    · rw [if_pos hk, if_pos hk, hfs.get?_tail hk]
      rfl
    · rw [if_neg hk, if_neg hk]

theorem put_append (h : ∀ e ∈ es, e.1.same key = false) :
    put (es ++ fs) key b = es ++ put fs key b := by
  induction es with
  | nil => rfl
  | cons e es ih =>
    rw [List.forall_mem_cons] at h
    rw [List.cons_append, put, if_neg (by simp [h.1]), ih h.2, List.cons_append]

/-- Keys that are new are added at the end. -/
theorem update_append (h : Distinct (es ++ fs)) : update es fs = es ++ fs := by
  induction fs generalizing es with
  | nil => rw [List.append_nil, update_nil]
  | cons f fs ih =>
    have hnew : ∀ e ∈ es, e.1.same f.1 = false := fun e he =>
      (List.pairwise_append.1 h.pairwise).2.2 e he f List.mem_cons_self
    have hput : put es f.1 f.2 = es ++ [(f.1, f.2)] := by
      have hput : put (es ++ []) f.1 f.2 = es ++ put [] f.1 f.2 := put_append hnew
      rwa [List.append_nil] at hput
    rw [List.append_cons] at h ⊢
    rw [update_cons, hput]
    exact ih h

theorem update_of_distinct (h : Distinct fs) : update [] fs = fs := by
  have hfs : Distinct ([] ++ fs) := h
  exact update_append hfs

/-- Setting the keys that are there, and then others, gives the entries that were set. -/
theorem update_of_keys {heads : List (Value × β)} (h : Distinct (heads ++ fs))
    (hkeys : es.map (·.1) = heads.map (·.1)) (hself : ∀ e ∈ es, e.1.same e.1 = true) :
    update es (heads ++ fs) = heads ++ fs := by
  have hgo : ∀ done : List (Value × β), Distinct (done ++ (heads ++ fs)) →
      update (done ++ es) heads = done ++ heads := by
    clear h
    induction heads generalizing es with
    | nil =>
      intro done _
      rw [List.map_nil, List.map_eq_nil_iff] at hkeys
      rw [hkeys, update_nil]
    | cons head heads ih =>
      intro done h
      cases es with
      | nil => cases hkeys
      | cons e es =>
        obtain ⟨he, hkeys⟩ := List.cons.inj hkeys
        dsimp only at he
        rw [List.forall_mem_cons, he] at hself
        have hnew : ∀ f ∈ done, f.1.same head.1 = false := fun f hf =>
          (List.pairwise_append.1 h.pairwise).2.2 f hf head (by simp)
        rw [update_cons, put_append hnew, put, he, if_pos hself.1,
          List.append_cons done _ es, List.append_cons done head heads]
        exact ih hkeys hself.2 _ (by simpa using h)
  have hhead := hgo [] h
  rw [List.nil_append, List.nil_append] at hhead
  unfold update at hhead ⊢
  rw [List.foldl_append, hhead]
  exact update_append h

end Entries

namespace Mapping
open Entries

variable {m es : Mapping} {key k v : Value}

theorem get?_eq : m.get? key = Entries.get? m key := rfl

theorem put_eq : m.put key v = Entries.put m key v := by
  induction m with
  | nil => rfl
  | cons e m ih => rw [put, Entries.put, ih]

theorem update_eq : m.update es = Entries.update m es := by
  induction es generalizing m with
  | nil => rfl
  | cons e es ih =>
    rw [Entries.update_cons, ← put_eq]
    exact ih

theorem isKey_update (hm : ∀ e ∈ m, e.1.isKey = true) (hes : ∀ e ∈ es, e.1.isKey = true) :
    ∀ e ∈ m.update es, e.1.isKey = true := by
  rw [update_eq]
  exact forall_key_update (P := fun v => v.isKey = true) hm hes

theorem distinct_update (hm : Distinct m) (hes : ∀ e ∈ es, e.1.isKey = true) :
    Distinct (m.update es) := by
  rw [update_eq]
  exact Entries.distinct_update hm hes

theorem get?_update (hm : ∀ e ∈ m, e.1.isKey = true) (hes : Distinct es) :
    (m.update es).get? k = (es.get? k).or (m.get? k) := by
  rw [update_eq, get?_eq, Entries.get?_update hm hes]
  rfl

end Mapping

end GridStream
