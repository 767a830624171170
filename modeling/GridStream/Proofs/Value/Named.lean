import GridStream.Proofs.Value.Mapping

/-!
# Mappings whose keys are texts

If the keys of a mapping are texts (`Entries.Named`), then a value is found under a key exactly if
the two are an entry, and mappings are equal if they have the same keys with equal values
(`Mapping.same_of_get?`).
-/

namespace GridStream

namespace Entries

variable {β : Type} {es fs : List (Value × β)} {key : Value} {b : β}

/-- Entries whose keys are texts, no text twice. -/
structure Named (es : List (Value × β)) : Prop where
  distinct : Distinct es
  texts : ∀ e ∈ es, ∃ s, e.1 = .text s

namespace Named

theorem same_iff (h : Named es) (hkey : (key, b) ∈ es) {k : Value} :
    key.same k = true ↔ k = key := by
  obtain ⟨s, hs⟩ := h.texts _ hkey
  have hplain : key.Plain := by
    rw [show key = .text s from hs]
    trivial
  exact hplain.same_iff

theorem mem_iff (h : Named es) : (key, b) ∈ es ↔ get? es key = some b := by
  constructor
  · intro hmem
    have hself : key.same key = true := (h.same_iff hmem).2 rfl
    obtain ⟨hd, -⟩ := h
    induction es with
    | nil => cases hmem
    | cons e es ih =>
      obtain ⟨⟨-, hne⟩, hes⟩ := Distinct.cons_iff.1 hd
      rw [get?_cons]
      rcases List.mem_cons.1 hmem with rfl | hmem
      · rw [if_pos hself]
      · rw [if_neg (by simp [hne _ hmem]), ih hmem hes]
  · intro hget
    obtain ⟨⟨k, v⟩, he, hsame, rfl⟩ := mem_of_get? hget
    rwa [(h.same_iff he).1 hsame]

theorem nodup (h : Named es) : (es.map (·.1)).Nodup := by
  rw [List.Nodup, List.pairwise_map]
  refine h.distinct.pairwise.imp_of_mem fun {e f} he _ hne heq => ?_
  rw [(h.same_iff he).2 heq.symm] at hne
  cases hne

theorem mem_keys_iff (h : Named es) : key ∈ es.map (·.1) ↔ ∃ b, get? es key = some b := by
  rw [List.mem_map]
  constructor
  · rintro ⟨⟨k, b⟩, he, rfl⟩
    exact ⟨b, h.mem_iff.1 he⟩
  · rintro ⟨b, hb⟩
    exact ⟨_, h.mem_iff.2 hb, rfl⟩

theorem length_le (hes : Named es) (hfs : Named fs)
    (h : ∀ k b, get? es k = some b → ∃ c, get? fs k = some c) : es.length ≤ fs.length := by
  have hsubset : es.map (·.1) ⊆ fs.map (·.1) := fun k hk => by
    obtain ⟨b, hb⟩ := hes.mem_keys_iff.1 hk
    exact hfs.mem_keys_iff.2 (h k b hb)
  simpa using hes.nodup.length_le_of_subset hsubset

theorem update (hes : Named es) (hfs : Named fs) : Named (update es fs) where
  distinct := distinct_update hes.distinct hfs.distinct.isKey
  texts := forall_key_update (P := fun v => ∃ s, v = .text s) hes.texts hfs.texts

end Named

end Entries

namespace Mapping
open Entries

variable {m es : Mapping} {key v : Value}

theorem sameEntries_iff :
    Value.sameEntries m es = true ↔
      ∀ e ∈ m, ∃ f ∈ es, e.1.same f.1 = true ∧ e.2.same f.2 = true := by
  induction m with
  | nil => simp [Value.sameEntries]
  | cons e m ih =>
    obtain ⟨k, v⟩ := e
    rw [Value.sameEntries, Bool.and_eq_true, ih, List.forall_mem_cons, List.any_eq_true]
    simp

/-- What one of two equal mappings has under a key, the other has, too. -/
theorem get?_of_same (hm : Named m) (hes : Named es) (h : (Value.map m).same (.map es) = true)
    (hv : m.get? key = some v) : ∃ w, es.get? key = some w ∧ v.same w = true := by
  rw [Value.same, Bool.and_eq_true, sameEntries_iff] at h
  have hmem := hm.mem_iff.2 hv
  obtain ⟨⟨k, w⟩, hf, hsame, hvalue⟩ := h.2 _ hmem
  obtain rfl : k = key := (hm.same_iff hmem).1 hsame
  exact ⟨w, hes.mem_iff.1 hf, hvalue⟩

/-- Mappings with the same keys and equal values under them are equal. -/
theorem same_of_get? (hm : Named m) (hes : Named es)
    (h : ∀ k v, m.get? k = some v → ∃ w, es.get? k = some w ∧ v.same w = true)
    (hkeys : ∀ k w, es.get? k = some w → ∃ v, m.get? k = some v) :
    (Value.map m).same (.map es) = true := by
  have hle : m.length ≤ es.length := hm.length_le hes fun k v hv => by
    obtain ⟨w, hw, -⟩ := h k v hv
    exact ⟨w, hw⟩
  have hge : es.length ≤ m.length := hes.length_le hm hkeys
  rw [Value.same, Bool.and_eq_true, sameEntries_iff, beq_iff_eq]
  refine ⟨Nat.le_antisymm hle hge, ?_⟩
  rintro ⟨k, v⟩ he
  obtain ⟨w, hw, hsame⟩ := h k v (hm.mem_iff.1 he)
  exact ⟨(k, w), hes.mem_iff.2 hw, (hm.same_iff he).2 rfl, hsame⟩

end Mapping

end GridStream
