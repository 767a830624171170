import GridStream.Proofs.Value.Mapping

/-!
# Regular values

A mapping can be relied on if its keys are keys, no two of them equal, and so can the mappings that
it holds, and those that these hold (`Value.Regular`). Setting keys keeps this.
-/

namespace GridStream
open Entries

/-- A value whose mappings have keys of their own, at every depth. -/
inductive Value.Regular : Value → Prop
  | leaf {v : Value} (no_map : v.map? = none) : Regular v
  | map {entries : Mapping} (distinct : Distinct entries)
    (values : ∀ e ∈ entries, Regular e.2) : Regular (.map entries)

/-- A mapping that is regular. -/
abbrev Mapping.Regular (m : Mapping) : Prop := (Value.map m).Regular

namespace Mapping.Regular

variable {m es : Mapping} {key v : Value}

theorem distinct (h : m.Regular) : Distinct m := by
  cases h with
  | leaf h => cases h
  | map distinct => exact distinct

theorem values (h : m.Regular) : ∀ e ∈ m, e.2.Regular := by
  cases h with
  | leaf h => cases h
  | map _ values => exact values

theorem nil : Mapping.Regular [] := .map .nil (by simp)

theorem of_get? (h : m.Regular) (hv : m.get? key = some v) : v.Regular := by
  obtain ⟨e, he, -, rfl⟩ := mem_of_get? hv
  exact h.values e he

theorem put (h : m.Regular) (hkey : key.isKey = true) (hv : v.Regular) : (m.put key v).Regular := by
  rw [put_eq]
  exact .map (h.distinct.put hkey) (forall_value_put h.values hv)

theorem update (h : m.Regular) (hes : es.Regular) : (m.update es).Regular := by
  rw [update_eq]
  exact .map (Entries.distinct_update h.distinct hes.distinct.isKey)
    (forall_value_update h.values hes.values)

/-- Entries give a regular mapping even if keys are repeated. -/
theorem ofEntries (hkeys : ∀ e ∈ es, e.1.isKey = true) (hvalues : ∀ e ∈ es, e.2.Regular) :
    (Mapping.ofEntries es).Regular := by
  rw [Mapping.ofEntries, update_eq]
  exact .map (Entries.distinct_update .nil hkeys) (forall_value_update (by simp) hvalues)

end Mapping.Regular

end GridStream
