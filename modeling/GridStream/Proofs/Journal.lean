import GridStream.Journal
import GridStream.Proofs.Attempt

/-!
# Nested operations

A failure that leaves several nested operations keeps its kind and message if it is one of the
family, and becomes one of the family in the innermost of them otherwise. In its context each key
has the value that the outermost operation gives it that sets it (`Failure.Leaves`). The journal
shows how the operations begin, from the outside in, and how they end, from the inside out
(`Operation.outcome_and_journal`).
-/

namespace GridStream

namespace Context

variable {c items : Context} {name key : String} {value : Value}

@[simp] theorem get?_nil : get? [] key = none := rfl

theorem get?_cons : get? ((name, value) :: c) key =
    if name = key then some value else c.get? key := by
  by_cases h : name = key
  · simp [get?, h]
  · simp [get?, h]

theorem get?_append : get? (c ++ items) key = (c.get? key).or (items.get? key) := by
  rw [get?, List.find?_append, Option.map_or]
  rfl

theorem get?_put :
    (c.put name value).get? key = if name = key then some value else c.get? key := by
  induction c with
  | nil => exact get?_cons
  | cons item c ih =>
    obtain ⟨n, v⟩ := item
    by_cases h : n = name
    · rw [put, if_pos h, get?_cons, get?_cons, h]
      split <;> rfl
    · rw [put, if_neg h, get?_cons, get?_cons, ih]
      by_cases hn : n = key
      · rw [if_pos hn, if_pos hn, if_neg fun e => h (hn.trans e.symm)]
      · rw [if_neg hn, if_neg hn]

/-- The last item of a name is the one that counts. -/
theorem get?_update :
    (c.update items).get? key = (get? items.reverse key).or (c.get? key) := by
  induction items generalizing c with
  | nil => rfl
  | cons item items ih =>
    have hput : (c.update (item :: items)).get? key = _ := ih (c := c.put item.1 item.2)
    rw [hput, List.reverse_cons, get?_append, get?_cons, get?_nil, get?_put, Option.or_assoc]
    split <;> rfl

/-! ## Names that are set once -/

/-- The names that are set. -/
def names (c : Context) : List String := c.map (·.1)

theorem names_put : (c.put name value).names =
    if name ∈ c.names then c.names else c.names ++ [name] := by
  induction c with
  | nil => rfl
  | cons item c ih =>
    obtain ⟨n, v⟩ := item
    by_cases h : n = name
    · rw [put, if_pos h, if_pos (h ▸ List.mem_cons_self)]
      rfl
    · have hmem : name ∈ names ((n, v) :: c) ↔ name ∈ names c :=
        List.mem_cons.trans (or_iff_right (Ne.symm h))
      rw [put, if_neg h]
      change n :: names (put c name value) = _
      rw [ih]
      simp only [hmem]
      split <;> rfl

theorem nodup_put (h : c.names.Nodup) : (c.put name value).names.Nodup := by
  rw [names_put]
  split
  · exact h
  · next hname =>
    refine List.nodup_append.2 ⟨h, List.pairwise_singleton _ _, fun n hn m hm e => hname ?_⟩
    rw [← List.mem_singleton.1 hm, ← e]
    exact hn

theorem nodup_update (h : c.names.Nodup) : (c.update items).names.Nodup := by
  induction items generalizing c with
  | nil => exact h
  | cons item items ih => exact ih (nodup_put h)

theorem get?_eq_none_of_not_mem (h : key ∉ c.names) : c.get? key = none := by
  induction c with
  | nil => rfl
  | cons item c ih =>
    have hne := List.ne_of_not_mem_cons h
    rw [get?_cons, if_neg fun e => hne e.symm, ih (List.not_mem_of_not_mem_cons h)]

theorem get?_reverse (h : c.names.Nodup) : get? c.reverse key = c.get? key := by
  induction c with
  | nil => rfl
  | cons item c ih =>
    obtain ⟨hitem, hc⟩ := List.nodup_cons.1 h
    rw [List.reverse_cons, get?_append, ih hc, get?_cons, get?_cons, get?_nil]
    by_cases hkey : item.1 = key
    · rw [if_pos hkey, get?_eq_none_of_not_mem (hkey ▸ hitem), if_pos hkey]
      rfl
    · rw [if_neg hkey, if_neg hkey, Option.or_none]

end Context

namespace Operation

/-- The value that an operation sets a key to: an item of its own, or else its name. -/
def value? (op : Operation) (key : String) : Option Value :=
  (Context.get? op.info.reverse key).or
    (if key = "operation" then some (.text op.name) else none)

theorem get?_items {op : Operation} {key : String} : op.items.get? key = op.value? key := by
  rw [items, Context.get?_update, Context.get?_cons, Context.get?_nil, value?]
  simp only [eq_comm]

theorem get?_update_items {op : Operation} {key : String} {c : Context} :
    (c.update op.items).get? key = (op.value? key).or (c.get? key) := by
  have hnodup : op.items.names.Nodup := Context.nodup_update (List.pairwise_singleton _ _)
  rw [Context.get?_update, Context.get?_reverse hnodup, get?_items]

end Operation

namespace Failure

variable {f g h : Failure} {op : Operation} {ops : List Operation} {key : String}

/-- The context that a failure was raised with. A foreign failure has none. -/
def raisedWith (f : Failure) : Context := if f.kind.isForeign then [] else f.context

theorem raisedWith_of_foreign (hf : f.Foreign) : f.raisedWith = [] := if_pos hf

theorem raisedWith_of_not_foreign (hf : ¬ f.Foreign) : f.raisedWith = f.context := if_neg hf

/-- How a failure `f` that is raised inside operations leaves them as `g`. -/
structure Leaves (ops : List Operation) (f g : Failure) : Prop where
  family : ¬ f.Foreign → g.kind = f.kind ∧ g.message = f.message ∧ g.cause = f.cause
  foreign : f.Foreign → g.kind = .general ∧ g.message = f.text ∧ g.cause = some f.kind
  context : ∀ key, g.context.get? key =
    (ops.findSome? (·.value? key)).or (f.raisedWith.get? key)

/-- The line that reports a failure. -/
def line (f : Failure) : Entry := ⟨.error, s!"Processing error ({f.kind.name}): {f.text}"⟩

/-! ## One operation -/

theorem within_of_foreign (hf : f.Foreign) : f.within op =
    { kind := .general, message := f.text, context := op.items, cause := some f.kind } := if_pos hf

theorem within_of_not_foreign (hf : ¬ f.Foreign) :
    f.within op = { f with context := f.context.update op.items } := if_neg hf

theorem leaves_within : Leaves [op] f (f.within op) where
  family hf := by rw [within_of_not_foreign hf]; exact ⟨rfl, rfl, rfl⟩
  foreign hf := by rw [within_of_foreign hf]; exact ⟨rfl, rfl, rfl⟩
  context key := by
    rw [List.findSome?_singleton]
    by_cases hf : f.Foreign
    · rw [within_of_foreign hf, raisedWith_of_foreign hf, Operation.get?_items,
        Context.get?_nil, Option.or_none]
    · rw [within_of_not_foreign hf, raisedWith_of_not_foreign hf, Operation.get?_update_items]

/-- What left one operation is of the family, so that the next one out keeps all but the
context. -/
theorem Leaves.cons (H : Leaves ops f g) (hg : ¬ g.Foreign) :
    Leaves (op :: ops) f (g.within op) where
  family hf := by rw [within_of_not_foreign hg]; exact H.family hf
  foreign hf := by rw [within_of_not_foreign hg]; exact H.foreign hf
  context key := by
    rw [within_of_not_foreign hg, Operation.get?_update_items, H.context, List.findSome?_cons,
      ← Option.or_assoc]
    cases op.value? key <;> rfl

theorem line_within (hf : ¬ f.Foreign) : (f.within op).line = f.line := by
  rw [within_of_not_foreign hf]
  rfl

end Failure

namespace Operation

variable {α : Type} {op : Operation} {ops : List Operation} {body : Attempt α}

/-- The line that reports that an operation is through. -/
def completed (op : Operation) : Entry := ⟨.debug, s!"Completed operation: {op.name}"⟩

/-- The lines of a journal that a level lets through. -/
def journalFrom (level : Level) (ops : List Operation) (body : Attempt α) : List Entry :=
  (journal ops body).filter fun e => level.number ≤ e.level.number

/-! ## Several operations -/

theorem journal_cons :
    journal (op :: ops) body = op.started :: (journal ops body ++ [op.ended (nest ops body)]) := rfl

theorem nest_ok (ops : List Operation) (a : α) : nest ops (.ok a) = .ok a := by
  induction ops with
  | nil => rfl
  | cons op ops ih =>
    change (nest ops (.ok a)).within op = _
    rw [ih]
    rfl

theorem journal_ok (ops : List Operation) (a : α) :
    journal ops (.ok a) = ops.map started ++ ops.reverse.map completed := by
  induction ops with
  | nil => rfl
  | cons op ops ih =>
    rw [journal_cons, ih, nest_ok, List.reverse_cons, List.map_append, List.append_assoc]
    rfl

/-- The failure that leaves the operations is reported by all of them but the innermost, which
reports the one that was raised. -/
theorem exists_nest_error (op : Operation) (ops : List Operation) (f : Failure) :
    ∃ g : Failure, nest (op :: ops) (.error f : Attempt α) = .error g ∧ ¬ g.Foreign ∧
      f.Leaves (op :: ops) g ∧ journal (op :: ops) (.error f : Attempt α) =
        (op :: ops).map started ++ f.line :: List.replicate ops.length g.line := by
  induction ops generalizing op with
  | nil => exact ⟨f.within op, rfl, Failure.not_foreign_within, Failure.leaves_within, rfl⟩
  | cons op' ops ih =>
    obtain ⟨g, hnest, hg, hleaves, hjournal⟩ := ih op'
    refine ⟨g.within op, ?_, Failure.not_foreign_within, hleaves.cons hg, ?_⟩
    · change (nest (op' :: ops) (.error f)).within op = _
      rw [hnest]
      rfl
    · rw [journal_cons, hjournal, hnest, Failure.line_within hg, List.length_cons,
        List.replicate_succ', List.append_assoc]
      rfl

theorem journalFrom_debug : journalFrom .debug ops body = journal ops body := by
  refine List.filter_eq_self.2 fun e _ => ?_
  cases e.level <;> rfl

/-- What one or more nested operations make of what happens inside them, and what a logger shows
that lets everything through. The time that an operation took is one of its items. -/
theorem outcome_and_journal (op : Operation) (ops : List Operation) :
    (∀ f : Failure, ∃ g, nest (op :: ops) (.error f : Attempt α) = .error g ∧
      f.Leaves (op :: ops) g ∧ journalFrom .debug (op :: ops) (.error f : Attempt α) =
        (op :: ops).map started ++ f.line :: List.replicate ops.length g.line) ∧
    ∀ a : α, nest (op :: ops) (.ok a) = .ok a ∧
      journalFrom .debug (op :: ops) (.ok a : Attempt α) =
        (op :: ops).map started ++ (op :: ops).reverse.map completed := by
  refine ⟨fun f => ?_, fun a => ⟨nest_ok _ a, journalFrom_debug.trans (journal_ok _ a)⟩⟩
  obtain ⟨g, hnest, -, hleaves, hjournal⟩ := exists_nest_error (α := α) op ops f
  exact ⟨g, hnest, hleaves, journalFrom_debug.trans hjournal⟩

end Operation

end GridStream
