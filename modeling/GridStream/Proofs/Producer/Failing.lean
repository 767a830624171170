import GridStream.Proofs.Producer.Close
import GridStream.Proofs.Producer.Run
import GridStream.Proofs.Producer.Steps

/-!
# The first failure of a tree

A pull that fails halts the producers on the path from the root to the one that failed, and no
others (`Producer.failure_pull_of_error`). A tree whose root is halted answers every further pull
with that failure and does nothing else (`Producer.pulls_of_failed`).
-/

namespace GridStream.Producer

variable {s : Source} {w w' w₁ : World} {p q : Producer} {ps : List Producer} {k n : Nat}
  {e : Stop} {f : Failure}

/-- The producers on the path of a stop belong to the tree. -/
private theorem path_subset_aux :
    (∀ (p : Producer) (e : Stop), p.eval s w k = .error e → e.path ⊆ p.nodes) ∧
    ∀ (ps : List Producer) (e : Stop), evalAll s w k ps = .error e → e.path ⊆ nodesAll ps := by
  refine forest_induction ?raw ?combined ?nil ?cons
  case raw =>
    intro key name window e h
    rw [nodes_raw]
    obtain ⟨-, rfl⟩ | ⟨t, f, -, -, rfl⟩ := eval_raw_eq_error.1 h <;> exact List.Subset.refl _
  case combined =>
    intro key name rule first others ih e h
    rw [nodes_combined]
    obtain ⟨e', he', rfl⟩ | ⟨gs, f, -, -, rfl⟩ := eval_combined_eq_error.1 h
    · exact List.cons_subset_cons _ (ih e' he')
    · exact List.cons_subset_cons _ (List.nil_subset _)
  case nil =>
    intro e h
    rw [evalAll_nil] at h
    cases h
  case cons =>
    intro p ps ihp ihps e h
    rw [nodesAll_cons]
    rcases evalAll_cons_eq_error.1 h with hp | ⟨g, -, hps⟩
    · exact List.subset_append_of_subset_left _ (ihp e hp)
    · exact List.subset_append_of_subset_right _ (ihps e hps)

theorem path_subset (h : p.eval s w k = .error e) : e.path ⊆ p.nodes :=
  path_subset_aux.1 p e h

/-- The path of a stop begins at the root. -/
theorem root_mem_path (h : p.eval s w k = .error e) : p ∈ e.path := by
  cases p with
  | raw key name window =>
    obtain ⟨-, rfl⟩ | ⟨t, f, -, -, rfl⟩ := eval_raw_eq_error.1 h <;>
      exact List.mem_singleton_self _
  | combined key name rule first others =>
    obtain ⟨e', -, rfl⟩ | ⟨gs, f, -, -, rfl⟩ := eval_combined_eq_error.1 h <;>
      exact List.mem_cons_self ..

/-! ## Who is halted -/

/-- The failure that a pull leaves in a slot where its evaluation stops. -/
def noted (e : Stop) (k : Nat) : Option Failure :=
  if k ∈ e.path.map key then e.failure? else none

theorem noted_of_not_mem (h : k ∉ e.path.map key) : noted e k = none :=
  if_neg h

theorem noted_exhausted : noted (.exhausted p) k = none := by
  simp [noted, Stop.exhausted]

theorem noted_failed : noted (.failed p f) k = if k = p.key then some f else none := by
  simp [noted, Stop.failed]

/-- The producer above is noted too. -/
theorem noted_under : noted (e.under p) k = if k = p.key then e.failure? else noted e k := by
  by_cases h : k = p.key
  · simp [noted, Stop.under, h]
  · simp [noted, Stop.under, h]

theorem failure_settle {r : Pull Grid × World} (hr : r.1 = e.answer) (hs : r.2.HasSlot p.key)
    (hn : (r.2.slot p.key).failure = none) : ((settle p r).2.slot k).failure =
      if k = p.key then e.failure? else (r.2.slot k).failure := by
  obtain ⟨r, w⟩ := r
  obtain ⟨path, _ | f⟩ := e <;> cases hr
  · change ((close w p).slot k).failure = _
    rw [slot_close_congr Slot.failure fun _ => rfl]
    split
    · next h => rw [h, hn]
    · rfl
  · change ((close (w.modify p.key _) p).slot k).failure = _
    rw [slot_close_congr Slot.failure fun _ => rfl]
    split
    · next h => rw [h, World.slot_modify_self hs]
    · next h => rw [World.slot_modify_of_ne h]

/-- A combined producer that gives no grid is left with the failure, its inputs as they are after
their own pulls. -/
private theorem failure_pull_combined {key : Nat} {name : Value} {rule : Rule} {first : Producer}
    {others : List Producer} (h : Steady s (combined key name rule first others).nodes w)
    (he : (combined key name rule first others).eval s w 0 = .error e) :
    (((combined key name rule first others).pull s w).2.slot k).failure =
      if k = key then e.failure?
      else ((pullAll s (w.record (.pulled key)) (first :: others)).2.slot k).failure := by
  obtain ⟨hplaced, hready, hkey, -⟩ := h.combined
  have hr := pull_of_error h he
  rw [pull_combined hready.failure, settle_fst] at hr
  have hself : ((pullAll s (w.record (.pulled key)) (first :: others)).2.slot key).failure =
      none := by
    rw [slot_pullAll_of_not_mem hkey]
    exact hready.failure
  have hslot : (pullAll s (w.record (.pulled key)) (first :: others)).2.HasSlot key :=
    (pullAll_moves (w := w.record (.pulled key)) _).hasSlot hplaced
  rw [pull_combined hready.failure, failure_settle (p := combined key name rule first others) hr
    (hasSlot_conclude hslot) (failure_conclude.trans hself), failure_conclude, key_combined]

/-- A combined producer is halted together with the input that has failed, and so is one that fails
by itself. -/
private theorem failure_combined {key : Nat} {name : Value} {rule : Rule} {first : Producer}
    {others : List Producer} (h : Steady s (combined key name rule first others).nodes w)
    (hi : ∀ e', evalAll s w 0 (first :: others) = .error e' → ∀ k ∈ keysAll (first :: others),
      ((pullAll s (w.record (.pulled key)) (first :: others)).2.slot k).failure = noted e' k)
    (he : (combined key name rule first others).eval s w 0 = .error e)
    (hk : k ∈ (combined key name rule first others).keys) :
    (((combined key name rule first others).pull s w).2.slot k).failure = noted e k := by
  have hin := h.combined.2.2.2 (.pulled key)
  rw [failure_pull_combined h he]
  rw [keys_combined, List.mem_cons] at hk
  obtain ⟨e', he', rfl⟩ | ⟨gs, f, hgs, -, rfl⟩ := eval_combined_eq_error.1 he
  · rw [noted_under, key_combined]
    split
    · rfl
    · next hself => exact hi e' he' k (hk.resolve_left hself)
  · rw [noted_failed, key_combined]
    split
    · rfl
    · next hself =>
      have hp := pullAll_of_ok hin (evalAll_record.trans hgs)
      rw [failure_pullAll (by simp [hp]), hin.failure (hk.resolve_left hself)]

private theorem failure_pull_aux :
    (∀ (p : Producer) (w : World), Steady s p.nodes w → ∀ e, p.eval s w 0 = .error e →
      ∀ k ∈ p.keys, ((p.pull s w).2.slot k).failure = noted e k) ∧
    ∀ (ps : List Producer) (w : World), Steady s (nodesAll ps) w →
      ∀ e, evalAll s w 0 ps = .error e →
        ∀ k ∈ keysAll ps, ((pullAll s w ps).2.slot k).failure = noted e k := by
  refine pull_induction ?raw ?combined ?nil ?stop ?cons
  case raw =>
    intro key name window w h e he k hk
    obtain ⟨hs, hr, -⟩ := steady_raw h
    have m : Moves s.Gives [key] [key] [] (w.record (.pulled key))
        (readNext s (w.record (.pulled key)) key name window).2 :=
      readNext_moves (List.mem_singleton_self _) (List.mem_singleton_self _)
    have ha : (readNext s (w.record (.pulled key)) key name window).1 = e.answer := by
      rw [← pull_of_error h he, pull_raw hr.failure, settle_fst]
    rw [keys_raw, List.mem_singleton] at hk
    subst hk
    rw [pull_raw hr.failure, failure_settle (p := raw k name window) ha (m.hasSlot hs)
      ((m.failure_eq List.not_mem_nil).trans hr.failure), key_raw, if_pos rfl]
    obtain ⟨-, rfl⟩ | ⟨t, f, -, -, rfl⟩ := eval_raw_eq_error.1 he
    · rw [noted_exhausted]
      rfl
    · rw [noted_failed, key_raw, if_pos rfl]
      rfl
  case combined =>
    intro key name rule first others w h ih e he k hk
    exact failure_combined h (fun e' he' => ih e' (evalAll_record.trans he')) he hk
  case nil =>
    intro w e he
    rw [evalAll_nil] at he
    cases he
  case stop =>
    intro p ps w w₁ e h he hp ih e' he' k hk
    obtain rfl : e = e' := by
      rcases evalAll_cons_eq_error.1 he' with he' | ⟨g, hg, -⟩
      · simpa [he] using he'
      · simp [he] at hg
    rw [hp] at ih
    rw [pullAll_of_answer hp]
    rw [keysAll_cons, List.mem_append] at hk
    by_cases hkp : k ∈ p.keys
    · exact ih e he k hkp
    · have hk := hk.resolve_left hkp
      rw [(rest_of_pull h hp).1 k hk, h.right.failure hk, noted_of_not_mem]
      exact fun hmem => hkp (List.map_subset _ (path_subset he) hmem)
  case cons =>
    intro p ps w w₁ g h hg hp hsl ihp ihps e he k hk
    have he : evalAll s w 0 ps = .error e := by
      rcases evalAll_cons_eq_error.1 he with he | ⟨g', -, he⟩
      · simp [hg] at he
      · exact he
    rw [snd_pullAll_of_item hp]
    rw [keysAll_cons, List.mem_append] at hk
    by_cases hkps : k ∈ keysAll ps
    · exact ihps e ((rest_of_pull h hp).2.2.trans he) k hkps
    · have hk := hk.resolve_right hkps
      have hf := failure_pull (s := s) (w := w) (k := k) (p := p) (by simp [hp])
      rw [hp] at hf
      rw [slot_pullAll_of_not_mem hkps, hf, h.left.failure hk, noted_of_not_mem]
      exact fun hmem => hkps (List.map_subset _ (path_subset_aux.2 ps e he) hmem)

/-- A pull that gives no grid halts the producers on the path where the evaluation stops, if it
stops because of a failure, and no others. -/
theorem failure_pull_of_error (h : Steady s p.nodes w) (he : p.eval s w 0 = .error e)
    (hk : k ∈ p.keys) : ((p.pull s w).2.slot k).failure = noted e k :=
  failure_pull_aux.1 p w h e he k hk

/-! ## After the failure -/

/-- Pulls of a halted tree repeat its failure and do nothing else, whatever the files have become.
-/
theorem pulls_of_failed (h : (w.slot p.key).failure = some f) : p.pulls s n w =
    (List.replicate n (.failed (haltedFailure p.name f)),
      { w with trace := List.replicate n (.pulled p.key) ++ w.trace }) := by
  induction n generalizing w with
  | zero => rfl
  | succ n ih =>
    have hrec : ((w.record (.pulled p.key)).slot p.key).failure = some f := h
    have htrace : List.replicate n (.pulled p.key) ++ (w.record (.pulled p.key)).trace =
        List.replicate (n + 1) (.pulled p.key) ++ w.trace := by
      rw [List.replicate_succ', List.append_assoc]
      rfl
    simp only [pulls, pull_of_failed h, ih hrec, htrace, List.replicate_succ (a := Pull.failed _)]
    rfl

/-- The first failure of a fresh tree. Let `k` be the first record for which the evaluation of the
tree fails. Then the pulls before give their grids and pull `k` fails with exactly what the failing
producer `q` fails with by itself. The pull asks the producers that are declared ahead of `q` and
those that `q` draws on, each once, and none that is declared behind; it applies no rule to grids
that differ in shape. Afterwards exactly the producers on the path from the root to `q` are halted,
and every further pull repeats the failure and changes nothing. -/
theorem first_failure {path : List Producer} (h : p.Fresh w)
    (hc : ∀ l ∈ p.leaves, (l.cursor w).InCalendar) (hok : ∀ j < k, ∃ g, p.eval s w j = .ok g)
    (he : p.eval s w k = .error ⟨path, some f⟩) :
    ∃ (gs : List Grid) (w₁ w₂ : World) (q : Producer) (pre post : List Nat) (es : List Event),
      (gs.length = k ∧ (∀ j (hj : j < gs.length), p.eval s w j = .ok gs[j]) ∧
        p.pulls s k w = (gs.map .item, w₁)) ∧
      (p.pull s w₁ = (.failed f, w₂) ∧ q ∈ p.nodes ∧ path.getLast? = some q ∧
        q.eval s w k = .error (.failed q f)) ∧
      (p.keys = pre ++ q.keys ++ post ∧ w₂.steps = w₁.steps ++ es ∧
        es.filterMap Event.pulled? = pre ++ q.keys ∧
        ∀ key, .applied key ∈ es → Derivable s w k p.nodes key) ∧
      (∀ r ∈ p.nodes, r.halted w₂ = true ↔ r.key ∈ path.map key) ∧
      (w₂.slot p.key).failure = some f ∧
      ∀ (s' : Source) (n : Nat), p.pulls s' n w₂ =
        (List.replicate n (.failed (haltedFailure p.name f)),
          { w₂ with trace := List.replicate n (.pulled p.key) ++ w₂.trace }) := by
  obtain ⟨gs, rfl, hgs⟩ := exists_grids hok
  obtain ⟨w₁, hp, hs, hshift⟩ := pulls_of_ok (h.steady hc) gs hgs
  have he₁ : p.eval s w₁ 0 = .error ⟨path, some f⟩ := by rw [hshift.eval, Nat.zero_add, he]
  have hsteps : p.steps s w₁ 0 = p.steps s w gs.length := by rw [hshift.steps, Nat.zero_add]
  obtain ⟨q, hq, hlast, hself⟩ := eval_error he
  obtain ⟨q', pre, post, hlast', hkeys, hasked⟩ := pulled_of_error he
  obtain rfl : q = q' := Option.some.inj (hlast.symm.trans hlast')
  have hhalted : ∀ k ∈ p.keys, ((p.pull s w₁).2.slot k).failure = noted ⟨path, some f⟩ k :=
    fun k hk => failure_pull_of_error hs he₁ hk
  have hroot : ((p.pull s w₁).2.slot p.key).failure = some f := by
    rw [hhalted _ p.key_mem_keys, noted, if_pos (List.mem_map_of_mem (root_mem_path he))]
  refine ⟨gs, w₁, (p.pull s w₁).2, q, pre, post, p.steps s w gs.length, ⟨rfl, hgs, hp⟩,
    ⟨?_, hq, hlast, hself⟩, ⟨hkeys, ?_, hasked, ?_⟩, ?_, hroot, ?_⟩
  · exact Prod.fst_eq_iff.1 (pull_of_error hs he₁)
  · rw [steps_pull hs, hsteps]
  · exact fun key hkey => derivable_of_applied hkey
  · intro r hr
    rw [halted, hhalted _ (List.mem_map_of_mem hr), noted]
    split <;> simp_all
  · exact fun s' n => pulls_of_failed hroot

/-- Where the second input cannot be read in the second hour, the small tree gives a grid for the
first hour and is halted then. -/
theorem first_failure_sample : sample.Fresh sampleWorld ∧
    (∀ l ∈ sample.leaves, (l.cursor sampleWorld).InCalendar) ∧
    ∃ s : Source, (∀ j < 1, ∃ g, sample.eval s sampleWorld j = .ok g) ∧
      ∃ path f, sample.eval s sampleWorld 1 = .error ⟨path, some f⟩ ∧
        ∃ w₁ w₂, (sample.pulls s 1 sampleWorld).2 = w₁ ∧ sample.pull s w₁ = (.failed f, w₂) ∧
          (w₂.slot sample.key).failure = some f := by
  let s := sampleSource fun t name => name == "A" || t.micros == 0
  have hok : ∀ j < 1, ∃ g, sample.eval s sampleWorld j = .ok g := fun j hj => by
    obtain rfl : j = 0 := by omega
    exact ⟨default, rfl⟩
  have he : sample.eval s sampleWorld 1 = .error ⟨[sample, raw 1 "B" sampleWindow],
      some (.within (reading "B" ⟨3600000000, by decide⟩ 0) .outOfCalendar)⟩ := rfl
  obtain ⟨gs, w₁, w₂, q, pre, post, es, ⟨-, -, hp⟩, ⟨hpull, -⟩, -, -, hroot, -⟩ :=
    first_failure sample_fresh sample_inCalendar hok he
  exact ⟨sample_fresh, sample_inCalendar, s, hok, _, _, he, w₁, w₂, by rw [hp], hpull, hroot⟩

end GridStream.Producer
