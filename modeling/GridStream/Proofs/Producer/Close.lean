import GridStream.Proofs.Producer.Move

/-!
# Closing

Closing a producer leaves no file of its tree open and changes nothing else (`handle_close`,
`slot_close_congr`). A pull that gives no grid ends with closing (`handle_pull`).
-/

namespace GridStream.Producer

variable {s : Source} {w : World} {k : Nat} {p : Producer}

theorem handle_release_of_none {key : Nat} (h : (w.slot k).handle = none) :
    ((w.release key).slot k).handle = none := by
  by_cases hk : k = key
  · rw [hk, World.handle_release_self]
  · rwa [World.slot_release_of_ne hk]

/-! ## Closing a tree -/

private theorem handle_close_aux :
    (∀ p : Producer, ∀ w, k ∈ p.leafKeys ∨ (w.slot k).handle = none →
      ((close w p).slot k).handle = none) ∧
    ∀ ps, ∀ w, k ∈ leafKeysAll ps ∨ (w.slot k).handle = none →
      ((closeAll w ps).slot k).handle = none := by
  refine forest_induction ?raw ?combined ?nil ?cons
  case raw =>
    intro key name window w h
    rw [close]
    rcases h with h | h
    · rw [leafKeys_raw, List.mem_singleton] at h
      rw [h, World.handle_release_self]
    · exact handle_release_of_none h
  case combined =>
    intro key name rule first others ih w h
    have h := ih w (by rwa [leafKeys_combined] at h)
    rwa [closeAll, ← close] at h
  case nil =>
    intro w h
    simpa [closeAll] using h
  case cons =>
    intro p ps ihp ihps w h
    rw [leafKeysAll_cons, List.mem_append, or_assoc] at h
    rw [closeAll]
    rcases h with h | h | h
    · exact ihps _ (.inr (ihp w (.inl h)))
    · exact ihps _ (.inl h)
    · exact ihps _ (.inr (ihp w (.inr h)))

/-- A producer that is closed holds no file, and neither does any that it draws on. -/
theorem handle_close (h : k ∈ p.leafKeys) : ((close w p).slot k).handle = none :=
  handle_close_aux.1 p w (.inl h)

private theorem slot_close_congr_aux (view : Slot → α)
    (hv : ∀ s : Slot, view { s with handle := none, fileTime := none } = view s) :
    (∀ p : Producer, ∀ w, view ((close w p).slot k) = view (w.slot k)) ∧
    ∀ ps, ∀ w, view ((closeAll w ps).slot k) = view (w.slot k) := by
  refine forest_induction ?raw ?combined ?nil ?cons
  case raw =>
    intro key name window w
    rw [close]
    exact World.slot_release_congr view hv
  case combined =>
    intro key name rule first others ih w
    have h := ih w
    rwa [closeAll, ← close] at h
  case nil =>
    intro w
    rw [closeAll]
  case cons =>
    intro p ps ihp ihps w
    rw [closeAll, ihps, ihp]

/-- Closing leaves everything but the files as it is. -/
theorem slot_close_congr (view : Slot → α)
    (hv : ∀ s : Slot, view { s with handle := none, fileTime := none } = view s) :
    view ((close w p).slot k) = view (w.slot k) :=
  (slot_close_congr_aux view hv).1 p w

/-! ## The end of a pull -/

/-- A pull that gives no grid leaves no file open. -/
theorem handle_settle {r : Pull Grid × World} (hr : ∀ g, r.1 ≠ .item g) (h : k ∈ p.leafKeys) :
    ((settle p r).2.slot k).handle = none := by
  obtain ⟨_ | _ | _, _⟩ := r
  · exact absurd rfl (hr _)
  · exact handle_close h
  · exact handle_close h

/-- A producer that is pulled before it has failed holds no file after a pull without a grid. -/
theorem handle_pull (hf : (w.slot p.key).failure = none) (hr : ∀ g, (p.pull s w).1 ≠ .item g)
    (h : k ∈ p.leafKeys) : ((p.pull s w).2.slot k).handle = none := by
  cases p with
  | raw key name window =>
    change (w.slot key).failure = none at hf
    rw [pull_raw hf] at hr ⊢
    rw [settle_fst] at hr
    exact handle_settle hr h
  | combined key name rule first others =>
    change (w.slot key).failure = none at hf
    rw [pull_combined hf] at hr ⊢
    rw [settle_fst] at hr
    exact handle_settle hr h

end GridStream.Producer
