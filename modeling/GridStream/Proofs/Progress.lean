import GridStream.Progress
import Mathlib.Data.List.Basic

/-!
# What becomes of the messages on a queue

A queue is used from both ends: messages are handed to it, directly or with `Progress.notify`, and
fetched from it. One use does one of four things (`QueueStep`), and any sequence of uses keeps the
account `QueueAccount`: what was accepted was fetched or still waits, in the order of sending, and
what was not accepted is counted. For a new queue this is `Progress.account_of_queue`.
-/

namespace GridStream

namespace MessageQueue

/-- Whether a queue holds no more than its limit allows. -/
def Within (q : MessageQueue) : Prop := 0 < q.limit → (q.content.length : Int) ≤ q.limit

/-- Whether a queue holds as much as its limit allows. -/
def Full (q : MessageQueue) : Prop := 0 < q.limit ∧ (q.content.length : Int) = q.limit

variable {q : MessageQueue} {message : String}

theorem Within.isFull_iff (h : q.Within) : q.isFull ↔ q.Full := by
  rw [isFull, Bool.and_eq_true, decide_eq_true_eq, decide_eq_true_eq]
  exact and_congr_right fun hpos => ⟨Int.le_antisymm (h hpos), fun e => Int.le_of_eq e.symm⟩

theorem Within.put_of_full (h : q.Within) (hfull : q.Full) :
    q.put message = { q with dropped := q.dropped + 1 } := if_pos (h.isFull_iff.2 hfull)

theorem Within.put_of_not_full (h : q.Within) (hfull : ¬ q.Full) :
    q.put message = { q with content := q.content ++ [message] } :=
  if_neg (mt h.isFull_iff.1 hfull)

end MessageQueue

namespace Progress

/-- What can be done with a queue: a message is handed to it, directly or with `notify`, or the
next message is fetched. -/
inductive Use
  | send (message : String)
  | notify (message : String)
  | get

/-- The message that is handed over. -/
def Use.message? : Use → Option String
  | .send message | .notify message => some message
  | .get => none

/-- How a use ends. -/
inductive Reply
  | returned
  | raised (f : Failure)
  | got (message : String)
  /-- There is nothing to fetch. -/
  | empty

/-- The message that was fetched. -/
def Reply.message? : Reply → Option String
  | .got message => some message
  | _ => none

/-- The reply to a use, and what is there afterwards. -/
def use (p : Progress) : Use → Reply × Progress
  | .send message =>
    match p.sink.map (·.send message) with
    | none => (.returned, p)
    | some (sink, none) => (.returned, { p with sink := some sink })
    | some (sink, some f) => (.raised f, { p with sink := some sink })
  | .notify message => (.returned, p.notify message)
  | .get =>
    match p.sink with
    | some (.queue q) =>
      match q.take? with
      | some (message, rest) => (.got message, { p with sink := some (.queue rest) })
      | none => (.empty, p)
    | _ => (.empty, p)

/-- The number of messages that were dropped. -/
def dropped (p : Progress) : Nat :=
  match p.sink with
  | some (.queue q) => q.dropped
  | _ => 0

/-- One use, with what was there before and afterwards. -/
structure Moment where
  before : Progress
  use : Use
  reply : Reply
  after : Progress

/-- The message that was handed over and not counted as dropped. -/
def Moment.accepted? (m : Moment) : Option String :=
  if m.after.dropped = m.before.dropped then m.use.message? else none

/-- The moments of several uses, the first one in front. -/
def history (p : Progress) : List Use → List Moment
  | [] => []
  | u :: us => ⟨p, u, (p.use u).1, (p.use u).2⟩ :: (p.use u).2.history us

/-- What is there after several uses. -/
def uses (p : Progress) (us : List Use) : Progress := us.foldl (fun p u => (p.use u).2) p

/-- Messages that go to a queue, without any warning so far. -/
def onQueue (q : MessageQueue) : Progress := { sink := some (.queue q) }

/-- A moment of a queue. -/
def Moment.onQueue (q : MessageQueue) (u : Use) (reply : Reply) (q' : MessageQueue) : Moment :=
  ⟨.onQueue q, u, reply, .onQueue q'⟩

/-- What a use of a queue does. A message finds its place at the end, or the queue is full and
counts it. Fetching takes the message in front, or finds nothing and leaves everything as it is. -/
inductive QueueStep (q : MessageQueue) : Use → Reply → MessageQueue → Prop
  | accepted {u : Use} {message : String} (given : u.message? = some message) (fits : ¬ q.Full) :
    QueueStep q u .returned { q with content := q.content ++ [message] }
  | dropped {u : Use} {message : String} (given : u.message? = some message) (full : q.Full) :
    QueueStep q u .returned { q with dropped := q.dropped + 1 }
  | got {message : String} {rest : List String} (first : q.content = message :: rest) :
    QueueStep q .get (.got message) { q with content := rest }
  | empty (none : q.content = []) : QueueStep q .get .empty q

/-- What the moments `h` between two states `q` and `q'` of a queue account for. -/
structure QueueAccount (q : MessageQueue) (h : List Moment) (q' : MessageQueue) : Prop where
  limit : q'.limit = q.limit
  within : q'.Within
  /-- No message is lost, made up or overtaken. -/
  order : q.content ++ h.filterMap Moment.accepted? =
    h.filterMap (·.reply.message?) ++ q'.content
  count : q'.dropped + (h.filterMap Moment.accepted?).length =
    q.dropped + (h.filterMap (·.use.message?)).length
  steps : ∀ m ∈ h, ∃ r u reply r', m = .onQueue r u reply r' ∧ QueueStep r u reply r'

variable {p : Progress} {q q' : MessageQueue} {u : Use} {us : List Use} {reply : Reply}

theorem Moment.accepted?_onQueue : (Moment.onQueue q u reply q').accepted? =
    if q'.dropped = q.dropped then u.message? else none := rfl

/-! ## One use -/

theorem use_of_message {message : String} (h : u.message? = some message) :
    (onQueue q).use u = (.returned, onQueue (q.put message)) := by
  cases u with
  | send | notify =>
    cases h
    rfl
  | get => cases h

theorem use_get_of_cons {message : String} {rest : List String}
    (h : q.content = message :: rest) :
    (onQueue q).use .get = (.got message, onQueue { q with content := rest }) := by
  simp only [use, onQueue, MessageQueue.take?, h]

theorem use_get_of_nil (h : q.content = []) : (onQueue q).use .get = (.empty, onQueue q) := by
  simp only [use, onQueue, MessageQueue.take?, h]

/-- A queue has a reply to each use, and remains a queue. -/
theorem exists_queueStep (h : q.Within) (u : Use) :
    ∃ reply q', (onQueue q).use u = (reply, onQueue q') ∧ QueueStep q u reply q' := by
  cases hu : u.message? with
  | some message =>
    rw [use_of_message hu]
    by_cases hfull : q.Full
    · exact ⟨_, _, by rw [h.put_of_full hfull], .dropped hu hfull⟩
    · exact ⟨_, _, by rw [h.put_of_not_full hfull], .accepted hu hfull⟩
  | none =>
    cases u with
    | send | notify => cases hu
    | get =>
      cases hc : q.content with
      | nil => exact ⟨_, _, use_get_of_nil hc, .empty hc⟩
      | cons => exact ⟨_, _, use_get_of_cons hc, .got hc⟩

namespace QueueStep

theorem limit (h : QueueStep q u reply q') : q'.limit = q.limit := by
  cases h <;> rfl

theorem within (h : QueueStep q u reply q') (hq : q.Within) : q'.Within := by
  intro hpos
  cases h with
  | accepted _ fits =>
    have hlt : (q.content.length : Int) < q.limit :=
      Int.lt_iff_le_and_ne.2 ⟨hq hpos, fun e => fits ⟨hpos, e⟩⟩
    rw [List.length_append]
    exact hlt
  | dropped => exact hq hpos
  | got first =>
    have hle := hq hpos
    rw [first, List.length_cons] at hle
    exact Int.le_trans (Int.ofNat_le.2 (Nat.le_succ _)) hle
  | empty => exact hq hpos

theorem order (h : QueueStep q u reply q') :
    q.content ++ (Moment.onQueue q u reply q').accepted?.toList =
      reply.message?.toList ++ q'.content := by
  cases h with
  | accepted given => rw [Moment.accepted?_onQueue, if_pos rfl, given]; rfl
  | dropped =>
    rw [Moment.accepted?_onQueue, if_neg (Nat.succ_ne_self _)]
    exact List.append_nil _
  | got first =>
    rw [Moment.accepted?_onQueue, if_pos rfl, first]
    exact List.append_nil _
  | empty =>
    rw [Moment.accepted?_onQueue, if_pos rfl]
    exact List.append_nil _

theorem count (h : QueueStep q u reply q') :
    q'.dropped + (Moment.onQueue q u reply q').accepted?.toList.length =
      q.dropped + u.message?.toList.length := by
  cases h with
  | dropped given => rw [Moment.accepted?_onQueue, if_neg (Nat.succ_ne_self _), given]; rfl
  | accepted | got | empty => rw [Moment.accepted?_onQueue, if_pos rfl]

end QueueStep

/-! ## Several uses -/

/-- An account is carried back over one step. -/
theorem QueueAccount.cons {h : List Moment} {r : MessageQueue} (step : QueueStep q u reply q')
    (H : QueueAccount q' h r) :
    QueueAccount q (.onQueue q u reply q' :: h) r where
  limit := H.limit.trans step.limit
  within := H.within
  order := by
    have horder := H.order
    simp only [List.filterMap_eq_flatMap_toList, List.flatMap_cons] at horder ⊢
    rw [← List.append_assoc, step.order, List.append_assoc, horder, ← List.append_assoc]
    rfl
  count := by
    have hstep := step.count
    have hcount := H.count
    simp only [List.filterMap_eq_flatMap_toList, List.flatMap_cons, List.length_append]
      at hcount ⊢
    change _ = _ + (u.message?.toList.length + _)
    omega
  steps := List.forall_mem_cons.2 ⟨⟨q, u, reply, q', rfl, step⟩, H.steps⟩

theorem exists_account (h : q.Within) (us : List Use) :
    ∃ q', (onQueue q).uses us = onQueue q' ∧ QueueAccount q ((onQueue q).history us) q' := by
  induction us generalizing q with
  | nil => exact ⟨q, rfl, rfl, h, List.append_nil _, rfl, fun _ hm => absurd hm List.not_mem_nil⟩
  | cons u us ih =>
    obtain ⟨reply, r, huse, hstep⟩ := exists_queueStep h u
    obtain ⟨q', huses, haccount⟩ := ih (hstep.within h)
    refine ⟨q', ?_, ?_⟩
    · rw [uses, List.foldl_cons, huse]
      exact huses
    · rw [history, huse]
      exact haccount.cons hstep

/-- A new queue, whatever its limit and however it is used: what it accepted was fetched or still
waits, in the order in which it was handed over; it never holds more than its limit allows; and
each message is accepted, or found the queue full and is counted. -/
theorem account_of_queue (limit : Int) (us : List Use) :
    ∃ q, (onQueue { limit }).uses us = onQueue q ∧
      QueueAccount { limit } ((onQueue { limit }).history us) q := by
  refine exists_account (fun hpos => ?_) us
  exact Int.le_of_lt hpos

end Progress

end GridStream
