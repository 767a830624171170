import GridStream.Proofs.Decimal.Equality
import GridStream.Value.Basic

/-!
# Equality of keys

A key is a number, a time in a zone, a value that is equal to nothing but itself, or a tuple of
keys. On keys equality is symmetric and transitive (`Value.same_symm`, `Value.same_trans`). It is
not reflexive, since a double need not be equal to itself.
-/

namespace GridStream.Value

variable {u v w : Value} {m n : Number} {xs ys zs : List Value}

/-! ## Numbers -/

namespace Number

theorem same_symm {k : Number} (h : m.same k = true) : k.same m = true := by
  cases m <;> cases k <;> simp only [same, beq_iff_eq] at h ⊢
  · exact h.symm
  · exact h
  · exact h
  · exact Decimal.beq_symm h

theorem same_trans {k l : Number} (h : m.same k = true) (h' : k.same l = true) :
    m.same l = true := by
  cases m <;> cases k <;> cases l <;> simp only [same, beq_iff_eq] at h h' ⊢
  · exact h.trans h'
  · exact h.symm ▸ h'
  · exact Option.some.inj (h.symm.trans h')
  · rw [Decimal.exactInt?_of_beq h', h]
  · exact h' ▸ h
  · exact Decimal.beq_of_exactInt? h h'
  · rw [← h', Decimal.exactInt?_of_beq h]
  · exact Decimal.beq_trans h h'

end Number

/-! ## What a key is equal to -/

/-- Values that are equal to nothing but themselves. -/
def Plain : Value → Prop
  | null | text _ | bytes _ | date _ | instant _ | span _ => True
  | _ => False

theorem Plain.same_iff (h : u.Plain) : u.same v = true ↔ v = u := by
  cases u <;> cases h <;> cases v <;> simp [same]
  all_goals exact eq_comm

theorem same_text {s : String} : u.same (.text s) = true ↔ u = .text s := by
  cases u <;> simp [same, same.sameNumber, number?]

theorem same_iff_of_number (h : u.number? = some m) :
    u.same v = true ↔ ∃ n, v.number? = some n ∧ m.same n = true := by
  have hn : same.sameNumber m v = true ↔ ∃ n, v.number? = some n ∧ m.same n = true := by
    unfold same.sameNumber
    cases v.number? <;> simp
  cases u with
  | bool | int | float =>
    cases h
    rw [same]
    exact hn
  | _ => cases h

theorem same_zoned_iff {t : Instant} {z : Zone} : (zoned t z).same v = true ↔
    ∃ t' z', v = .zoned t' z' ∧ t.universalMicros z = t'.universalMicros z' := by
  cases v with
  | zoned t' z' =>
    rw [same, beq_iff_eq]
    constructor
    · exact fun h => ⟨t', z', rfl, h⟩
    · rintro ⟨_, _, heq, h⟩
      cases heq
      exact h
  | _ => simp [same]

theorem same_tuple_iff :
    (tuple xs).same v = true ↔ ∃ ys, v = .tuple ys ∧ sameItems xs ys = true := by
  cases v <;> simp [same]

theorem isKey_tuple : (tuple xs).isKey = true ↔ ∀ x ∈ xs, x.isKey = true := by
  rw [isKey]
  simp

/-- Induction over keys. -/
theorem key_induction {P : Value → Prop} (plain : ∀ u, u.Plain → P u)
    (number : ∀ u m, u.number? = some m → P u) (zoned : ∀ t z, P (.zoned t z))
    (tuple : ∀ xs, (∀ x ∈ xs, P x) → P (.tuple xs)) : ∀ u : Value, u.isKey = true → P u
  | .null, _ | .text _, _ | .bytes _, _ | .date _, _ | .instant _, _ | .span _, _ => plain _ trivial
  | .bool _, _ | .int _, _ | .float _, _ => number _ _ rfl
  | .zoned _ _, _ => zoned _ _
  | .tuple xs, h => tuple xs fun x hx =>
    key_induction plain number zoned tuple x (isKey_tuple.1 h x hx)
  | .list _, h | .set _, h | .map _, h => by simp [isKey] at h

/-- Equality goes to the other side if it does for the items. -/
private theorem sameItems_symm (hx : ∀ x ∈ xs, ∀ y, x.same y = true → y.same x = true)
    (h : sameItems xs ys = true) : sameItems ys xs = true := by
  induction xs generalizing ys with
  | nil => cases ys <;> simp_all [sameItems]
  | cons x xs ih =>
    rw [List.forall_mem_cons] at hx
    cases ys with
    | nil => simp [sameItems] at h
    | cons y ys =>
      rw [sameItems, Bool.and_eq_true] at h ⊢
      exact ⟨hx.1 y h.1, ih hx.2 h.2⟩

private theorem sameItems_trans
    (hx : ∀ x ∈ xs, ∀ y z, x.same y = true → y.same z = true → x.same z = true)
    (h : sameItems xs ys = true) (h' : sameItems ys zs = true) : sameItems xs zs = true := by
  induction xs generalizing ys zs with
  | nil =>
    cases ys with
    | nil => exact h'
    | cons => simp [sameItems] at h
  | cons x xs ih =>
    rw [List.forall_mem_cons] at hx
    cases ys with
    | nil => simp [sameItems] at h
    | cons y ys =>
      cases zs with
      | nil => simp [sameItems] at h'
      | cons z zs =>
        rw [sameItems, Bool.and_eq_true] at h h' ⊢
        exact ⟨hx.1 y z h.1 h'.1, ih hx.2 h.2 h'.2⟩

/-- A key that is equal to a value is what the value is equal to. -/
theorem same_symm (hk : u.isKey = true) (h : u.same v = true) : v.same u = true := by
  refine key_induction (P := fun u => ∀ v, u.same v = true → v.same u = true) ?plain ?number
    ?zoned ?tuple u hk v h
  case plain =>
    intro u hu v h
    obtain rfl := hu.same_iff.1 h
    exact h
  case number =>
    intro u m hm v h
    obtain ⟨n, hn, hs⟩ := (same_iff_of_number hm).1 h
    exact (same_iff_of_number hn).2 ⟨m, hm, Number.same_symm hs⟩
  case zoned =>
    intro t z v h
    obtain ⟨t', z', rfl, hs⟩ := same_zoned_iff.1 h
    exact same_zoned_iff.2 ⟨t, z, rfl, hs.symm⟩
  case tuple =>
    intro xs ih v h
    obtain ⟨ys, rfl, hs⟩ := same_tuple_iff.1 h
    exact same_tuple_iff.2 ⟨xs, rfl, sameItems_symm ih hs⟩

theorem same_trans (hk : u.isKey = true) (h : u.same v = true) (h' : v.same w = true) :
    u.same w = true := by
  refine key_induction (P := fun u => ∀ v w, u.same v = true → v.same w = true → u.same w = true)
    ?plain ?number ?zoned ?tuple u hk v w h h'
  case plain =>
    intro u hu v w h h'
    obtain rfl := hu.same_iff.1 h
    exact h'
  case number =>
    intro u m hm v w h h'
    obtain ⟨n, hn, hs⟩ := (same_iff_of_number hm).1 h
    obtain ⟨k, hk, hs'⟩ := (same_iff_of_number hn).1 h'
    exact (same_iff_of_number hm).2 ⟨k, hk, Number.same_trans hs hs'⟩
  case zoned =>
    intro t z v w h h'
    obtain ⟨t', z', rfl, hs⟩ := same_zoned_iff.1 h
    obtain ⟨t'', z'', rfl, hs'⟩ := same_zoned_iff.1 h'
    exact same_zoned_iff.2 ⟨t'', z'', rfl, hs.trans hs'⟩
  case tuple =>
    intro xs ih v w h h'
    obtain ⟨ys, rfl, hs⟩ := same_tuple_iff.1 h
    obtain ⟨zs, rfl, hs'⟩ := same_tuple_iff.1 h'
    exact same_tuple_iff.2 ⟨zs, rfl, sameItems_trans ih hs hs'⟩

/-- Keys that are equal are equal to the same values. -/
theorem same_congr_left (hu : u.isKey = true) (hv : v.isKey = true) (h : u.same v = true) :
    u.same w = v.same w :=
  Bool.eq_iff_iff.2 ⟨same_trans hv (same_symm hu h), same_trans hu h⟩

theorem same_congr_right (hu : u.isKey = true) (hv : v.isKey = true) (h : v.same w = true) :
    u.same v = u.same w :=
  Bool.eq_iff_iff.2 ⟨fun h' => same_trans hu h' h, fun h' => same_trans hu h' (same_symm hv h)⟩

end GridStream.Value
