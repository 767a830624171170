import GridStream.Proofs.ModelRun.Aligned
import Mathlib.Logic.Function.Basic

/-!
# Sessions

In a session several users work with one run. Each has producers of its own: those that it asks the
run for, and those that it joins from its own. The users take their steps in any order, in one
world. A session in which one user is alone is mirrored in every session in which others take steps
as well (`Session.Mirrors`): the slots of the user stand there under other keys, and no producer of
another user has one of them. So the answers to a user are those that the user alone would get
(`Session.answers_independent`).
-/

namespace GridStream

namespace Session

/-- What a user does with producers, which it numbers as it likes. -/
inductive Action
  | create (id : Nat) (a : Accessor)
  | combine (id : Nat) (name : Value) (rule : Rule) (inputs : List Nat)
  | pull (id : Nat)
  | close (id : Nat)

structure Step where
  user : Nat
  action : Action

/-- What comes of an action. -/
inductive Answer
  /-- The user has no producer of that number. -/
  | unknown
  | refused (f : Failure)
  | created (text : String)
  /-- With the time of the last grid, and whether the producer is halted. -/
  | pulled (r : Pull Grid) (time : Option Instant) (halted : Bool)
  | closed

end Session

/-- A world with the producers that each user has. -/
structure Session where
  world : World
  known : Nat → Nat → Option Producer

namespace Session
open Producer World

/-- A session in which nothing was done. -/
def fresh (progress : Progress) : Session := ⟨{ progress }, fun _ _ => none⟩

/-- A user gets a producer, unless there is a failure. -/
def receive (σ : Session) (user id : Nat) : Attempt (Producer × World) → Answer × Session
  | .error f => (.refused f, σ)
  | .ok (p, w) =>
    (.created p.text,
      ⟨w, Function.update σ.known user (Function.update (σ.known user) id (some p))⟩)

def act (run : ModelRun) (s : Source) (σ : Session) (user : Nat) : Action → Answer × Session
  | .create id a => σ.receive user id (run.access σ.world a)
  | .combine id name rule inputs =>
    match inputs.mapM (σ.known user) with
    | none => (.unknown, σ)
    | some ps => σ.receive user id (σ.world.addCombined name rule ps)
  | .pull id =>
    match σ.known user id with
    | none => (.unknown, σ)
    | some p =>
      let (r, w) := p.pull s σ.world
      (.pulled r (p.timestamp w) (p.halted w), { σ with world := w })
  | .close id =>
    match σ.known user id with
    | none => (.unknown, σ)
    | some p => (.closed, { σ with world := Producer.close σ.world p })

/-- The answers to steps, each with the user that it is for. -/
def answers (run : ModelRun) (s : Source) (σ : Session) : List Step → List (Nat × Answer)
  | [] => []
  | a :: as => (a.user, (σ.act run s a.user a.action).1) ::
      answers run s (σ.act run s a.user a.action).2 as

/-- The session after some steps. -/
def after (run : ModelRun) (s : Source) (σ : Session) (steps : List Step) : Session :=
  steps.foldl (fun σ a => (σ.act run s a.user a.action).2) σ

/-- Whether all that a user has in the session `σ` stands in `τ` under other keys, where no other
user can reach it. -/
structure Mirrors (user : Nat) (ρ : Nat → Nat) (σ τ : Session) : Prop where
  embeds : σ.world.Embeds ρ τ.world
  placed : ∀ id p, σ.known user id = some p → p.Placed σ.world
  known : ∀ id, τ.known user id = (σ.known user id).map (rename ρ)
  others : ∀ o ≠ user, ∀ id q, τ.known o id = some q → ∀ k ∈ q.keys,
    τ.world.HasSlot k ∧ ∀ j, σ.world.HasSlot j → ρ j ≠ k

variable {run : ModelRun} {s : Source} {user o id : Nat} {ρ : Nat → Nat} {σ τ : Session}
  {v w : World} {p q : Producer}

theorem embeds_fresh (ρ : Nat → Nat) (progress : Progress) (w : World) :
    (fresh progress).world.Embeds ρ w :=
  ⟨by simp [fresh], by simp [fresh], by simp [fresh]⟩

theorem mirrors_fresh (ρ : Nat → Nat) (progress progress' : Progress) :
    Mirrors user ρ (fresh progress') (fresh progress) where
  embeds := embeds_fresh ρ progress' _
  placed := nofun
  known _ := rfl
  others := nofun

/-- Joined producers are put behind all others. -/
theorem addCombined_eq_ok {name : Value} {rule : Rule} {ps : List Producer}
    (h : v.addCombined name rule ps = .ok (p, w)) :
    v.Grown w ∧ w.HasSlot v.slots.size ∧ p.keys = v.slots.size :: keysAll ps := by
  cases ps with
  | nil => cases h
  | cons first others =>
    cases h
    refine ⟨grown_addSlot, ?_, keys_combined⟩
    simp [World.HasSlot]

theorem mapM_map {α : Type} {f g : Nat → Option α} {r : α → α} {l : List Nat}
    (h : ∀ i, f i = (g i).map r) : l.mapM f = (l.mapM g).map (List.map r) := by
  induction l with
  | nil => rfl
  | cons i l ih =>
    rw [List.mapM_cons, List.mapM_cons, ih, h i]
    cases g i with
    | none => rfl
    | some a => cases l.mapM g <;> rfl

theorem exists_of_mapM {α : Type} {f : Nat → Option α} {l : List Nat} {as : List α} {a : α}
    (h : l.mapM f = some as) (ha : a ∈ as) : ∃ i, f i = some a := by
  have hmem : some a ∈ l.map f := by
    rw [Attempt.mapM_eq_some_iff.1 h]
    exact List.mem_map_of_mem ha
  obtain ⟨i, -, hi⟩ := List.mem_map.1 hmem
  exact ⟨i, hi⟩

namespace Mirrors

/-! ## Pulling and closing -/

/-- Slots may change so long as they do so in both worlds. -/
theorem of_alike (h : Mirrors user ρ σ τ)
    (ha : v.Alike ρ (List.range σ.world.slots.size) w)
    (hv : v.slots.size = σ.world.slots.size) (hw : w.slots.size = τ.world.slots.size) :
    Mirrors user ρ { σ with world := v } { τ with world := w } where
  embeds := by rwa [World.Embeds, hv]
  placed id p hp k hk := (hasSlot_congr hv).2 (h.placed id p hp k hk)
  known := h.known
  others o ho id q hq k hk :=
    ⟨(hasSlot_congr hw).2 (h.others o ho id q hq k hk).1,
      fun j hj => (h.others o ho id q hq k hk).2 j ((hasSlot_congr hv).1 hj)⟩

/-- Another user changes slots that no producer of the user has. -/
theorem frame (h : Mirrors user ρ σ τ) (hw : w.slots.size = τ.world.slots.size)
    (hs : ∀ j, σ.world.HasSlot j → w.slot (ρ j) = τ.world.slot (ρ j)) :
    Mirrors user ρ σ { τ with world := w } :=
  h.of_alike
    (Alike.frame h.embeds
      (fun _ hj => (hasSlot_congr hw).2 (h.embeds.hasSlot (List.mem_range.1 hj)))
      fun j hj => hs j (List.mem_range.1 hj)) rfl hw

theorem keys_subset (h : Mirrors user ρ σ τ) (hp : σ.known user id = some p) :
    p.keys ⊆ List.range σ.world.slots.size :=
  fun k hk => List.mem_range.2 (h.placed id p hp k hk)

theorem not_mem_keys (h : Mirrors user ρ σ τ) (ho : o ≠ user) (hq : τ.known o id = some q) {j : Nat}
    (hj : σ.world.HasSlot j) : ρ j ∉ q.keys :=
  fun hk => (h.others o ho id q hq _ hk).2 j hj rfl

/-! ## New producers -/

theorem receive_own (h : Mirrors user ρ σ τ) {x y : Attempt (Producer × World)}
    (hp : Paired (World.align ρ σ.world τ.world) x y)
    (hx : ∀ p v, x = .ok (p, v) → σ.world.Grown v ∧ p.Placed v)
    (hy : ∀ q w, y = .ok (q, w) → τ.world.Grown w) :
    (τ.receive user id y).1 = (σ.receive user id x).1 ∧
      ∃ ρ', Mirrors user ρ' (σ.receive user id x).2 (τ.receive user id y).2 := by
  cases hp with
  | refused f => exact ⟨rfl, ρ, h⟩
  | @made p v w ha =>
    obtain ⟨hgv, hplaced⟩ := hx p v rfl
    have hgw := hy _ w rfl
    refine ⟨by simp [receive], World.align ρ σ.world τ.world, ha.embeds, fun i q hq => ?_,
      fun i => ?_, fun o ho i q hq k hk => ?_⟩
    · simp only [receive, Function.update_self, Function.update_apply] at hq
      split at hq
      · cases hq
        exact hplaced
      · exact fun k hk => hgv.hasSlot (h.placed i q hq k hk)
    · simp only [receive, Function.update_self, Function.update_apply]
      split
      · rfl
      · rw [h.known i]
        cases hi : σ.known user i with
        | none => rfl
        | some q =>
          rw [Option.map_some, Option.map_some,
            rename_congr fun k hk => align_of_hasSlot (h.placed i q hi k hk)]
    · simp only [receive, Function.update_of_ne ho] at hq
      obtain ⟨hs, hk⟩ := h.others o ho i q hq k hk
      refine ⟨hgw.hasSlot hs, fun j _ e => ?_⟩
      by_cases hj : σ.world.HasSlot j
      · rw [align_of_hasSlot hj] at e
        exact hk j hj e
      · have hle : τ.world.slots.size ≤ World.align ρ σ.world τ.world j :=
          align_of_not_hasSlot hj
        unfold World.HasSlot at hs
        omega

theorem receive_other (h : Mirrors user ρ σ τ) (ho : o ≠ user) {y : Attempt (Producer × World)}
    (hy : ∀ q w, y = .ok (q, w) → τ.world.Grown w ∧ ∀ k ∈ q.keys,
      w.HasSlot k ∧ ∀ j, σ.world.HasSlot j → ρ j ≠ k) :
    Mirrors user ρ σ (τ.receive o id y).2 := by
  rcases y with f | ⟨q, w⟩
  · exact h
  · obtain ⟨hg, hq⟩ := hy q w rfl
    refine ⟨Alike.frame h.embeds (fun _ hj => hg.hasSlot (h.embeds.hasSlot (List.mem_range.1 hj)))
      fun j hj => hg.slot _ (h.embeds.hasSlot (List.mem_range.1 hj)), h.placed, fun i => ?_,
      fun o' ho' i q' hq' k hk => ?_⟩
    · simp only [receive, Function.update_of_ne ho.symm]
      exact h.known i
    · have hold : τ.known o' i = some q' → w.HasSlot k ∧ ∀ j, σ.world.HasSlot j → ρ j ≠ k :=
        fun hq' => (h.others o' ho' i q' hq' k hk).imp_left hg.hasSlot
      by_cases e : o' = o
      · subst e
        simp only [receive, Function.update_self, Function.update_apply] at hq'
        split at hq'
        · cases hq'
          exact hq k hk
        · exact hold hq'
      · simp only [receive, Function.update_of_ne e] at hq'
        exact hold hq'

/-! ## Steps -/

/-- The user itself is answered the same. -/
theorem act_own (run : ModelRun) (s : Source) (h : Mirrors user ρ σ τ) (a : Action) :
    (τ.act run s user a).1 = (σ.act run s user a).1 ∧
      ∃ ρ', Mirrors user ρ' (σ.act run s user a).2 (τ.act run s user a).2 := by
  cases a with
  | create id a =>
    exact h.receive_own (run.access_paired h.embeds.align a)
      (fun p v hp =>
        ⟨(ModelRun.access_created hp).grown, (ModelRun.access_created hp).fresh.placed⟩)
      fun q w hq => (ModelRun.access_created hq).grown
  | combine id name rule inputs =>
    have hknown := mapM_map (l := inputs) h.known
    simp only [act]
    rw [hknown]
    cases hps : inputs.mapM (σ.known user) with
    | none => exact ⟨rfl, ρ, h⟩
    | some ps =>
      have hplaced : ∀ k ∈ keysAll ps, σ.world.HasSlot k := fun k hk => by
        obtain ⟨p, hp, hk⟩ := mem_keysAll.1 hk
        obtain ⟨i, hi⟩ := exists_of_mapM hps hp
        exact h.placed i p hi k hk
      have hcopy : ps.map (rename ρ) = ps.map (rename (World.align ρ σ.world τ.world)) :=
        map_rename_congr fun k hk => (align_of_hasSlot (hplaced k hk)).symm
      rw [Option.map_some]
      dsimp only
      rw [hcopy]
      refine h.receive_own (addCombined_paired h.embeds.align) (fun p v hp => ?_)
        fun q w hq => (addCombined_eq_ok hq).1
      obtain ⟨hg, hs, hkeys⟩ := addCombined_eq_ok hp
      refine ⟨hg, fun k hk => ?_⟩
      rw [hkeys] at hk
      rcases List.mem_cons.1 hk with rfl | hk
      · exact hs
      · exact hg.hasSlot (hplaced k hk)
  | pull id =>
    simp only [act, h.known]
    cases hp : σ.known user id with
    | none => exact ⟨rfl, ρ, h⟩
    | some p =>
      have hkeys := h.keys_subset hp
      obtain ⟨r, v, w, hv, hw, ha⟩ := (pull_alike (s := s) h.embeds hkeys).exists_eq
      have hkey := Alike.slot ha _ (hkeys p.key_mem_keys)
      have mv := p.pull_moves (s := s) (w := σ.world)
      have mw := (p.rename ρ).pull_moves (s := s) (w := τ.world)
      rw [hv] at mv
      rw [hw] at mw
      simp only [Option.map_some, hv, hw]
      refine ⟨?_, ρ, h.of_alike ha mv.size_eq mw.size_eq⟩
      simp only [timestamp, halted, key_rename, hkey.timestamp, hkey.failure]
  | close id =>
    simp only [act, h.known]
    cases hp : σ.known user id with
    | none => exact ⟨rfl, ρ, h⟩
    | some p =>
      have ha := close_alike h.embeds (h.keys_subset hp)
      exact ⟨rfl, ρ, h.of_alike ha size_close size_close⟩

/-- Another user makes no difference. -/
theorem act_other (h : Mirrors user ρ σ τ) (ho : o ≠ user) (a : Action) :
    Mirrors user ρ σ (τ.act run s o a).2 := by
  cases a with
  | create id a =>
    refine h.receive_other ho fun q w hq => ?_
    have hc := ModelRun.access_created hq
    refine ⟨hc.grown, fun k hk => ?_⟩
    obtain ⟨n, hn, rfl⟩ := List.mem_map.1 hk
    obtain ⟨hle, hs⟩ := hc.placed n hn
    refine ⟨hs, fun j hj e => ?_⟩
    have hlt := h.embeds.hasSlot hj
    unfold World.HasSlot at hlt
    omega
  | combine id name rule inputs =>
    simp only [act]
    cases hqs : inputs.mapM (τ.known o) with
    | none => exact h
    | some qs =>
      refine h.receive_other ho fun q w hq => ?_
      obtain ⟨hg, hs, hkeys⟩ := addCombined_eq_ok hq
      refine ⟨hg, fun k hk => ?_⟩
      rw [hkeys] at hk
      rcases List.mem_cons.1 hk with rfl | hk
      · exact ⟨hs, fun j hj => Nat.ne_of_lt (h.embeds.hasSlot hj)⟩
      · obtain ⟨q, hq, hk⟩ := mem_keysAll.1 hk
        obtain ⟨i, hi⟩ := exists_of_mapM hqs hq
        exact (h.others o ho i q hi k hk).imp_left hg.hasSlot
  | pull id =>
    simp only [act]
    cases hq : τ.known o id with
    | none => exact h
    | some q =>
      exact h.frame q.pull_moves.size_eq fun j hj => slot_pull_of_not_mem (h.not_mem_keys ho hq hj)
  | close id =>
    simp only [act]
    cases hq : τ.known o id with
    | none => exact h
    | some q =>
      exact h.frame size_close fun j hj => slot_close_of_not_mem (h.not_mem_keys ho hq hj)

theorem filter_answers (h : Mirrors user ρ σ τ) (steps : List Step) :
    (τ.answers run s steps).filter (·.1 = user) =
      σ.answers run s (steps.filter (·.user = user)) := by
  induction steps generalizing ρ σ τ with
  | nil => rfl
  | cons a as ih =>
    by_cases hu : a.user = user
    · subst hu
      obtain ⟨he, ρ', h'⟩ := h.act_own run s a.action
      rw [answers, List.filter_cons_of_pos (by simp), List.filter_cons_of_pos (by simp), answers,
        he, ih h']
    · rw [answers, List.filter_cons_of_neg (by simpa using hu),
        List.filter_cons_of_neg (by simpa using hu), ih (h.act_other hu a.action)]

end Mirrors

/-- What a user is answered does not depend on what others do in between. A producer that is asked
for at any time is new and stands at the first record of the window. -/
theorem answers_independent (run : ModelRun) (s : Source) (progress progress' : Progress)
    (steps : List Step) (user : Nat) :
    ((fresh progress).answers run s steps).filter (·.1 = user) =
      (fresh progress').answers run s (steps.filter (·.user = user)) ∧
    ∀ a : Accessor,
      match run.access ((fresh progress).after run s steps).world a,
        run.access (fresh progress').world a with
      | .ok (p, w), .ok (q, _) => p.Fresh w ∧ (∀ l ∈ p.leaves, l.cursor w = .atStart run.window) ∧
        p.text = q.text
      | .error f, .error f' => f = f'
      | _, _ => False := by
  refine ⟨(mirrors_fresh (fun k => k) progress progress').filter_answers steps, fun a => ?_⟩
  have hp := run.access_paired
    (embeds_fresh (fun k => k) progress' ((fresh progress).after run s steps).world).align a
  have hc : ∀ p w, run.access ((fresh progress).after run s steps).world a = .ok (p, w) →
      p.Fresh w ∧ ∀ l ∈ p.leaves, l.cursor w = .atStart run.window := fun p w h =>
    ⟨(ModelRun.access_created h).fresh, (ModelRun.access_created h).leaf⟩
  generalize run.access (fresh progress').world a = x at hp
  generalize run.access ((fresh progress).after run s steps).world a = y at hp hc
  cases hp with
  | refused f => rfl
  | made h => exact ⟨(hc _ _ rfl).1, (hc _ _ rfl).2, text_rename⟩

end Session

end GridStream
