import PahoMqtt.Queue
import Mathlib.Data.List.Sort
/-!
# Publishing during a reconnection

The application thread's `publish(m)` reads `is_connected_`, then either hands `m` to the
client or queues it, and queues it also when the client's `publish` throws. A
reconnection on another thread (`switch_to_best_broker` after `connection_lost` or a swap,
or `connect` with the client's `connected` callback) sets `is_connected_` once the new
client is up, and only then takes `queue_mutex_` and flushes the queue through the client.
Each read or write of `is_connected_`, each `queue_mutex_` section of
`add_message_to_queue` and each client `publish` is one step; the flush holds
`queue_mutex_` across its publishes, so it is one step per publish with no enqueue in
between. Messages are numbered in the order the application publishes them.

A swap begun while the manager is connected (`on_broker_switch` after a measurement)
leaves `is_connected_` true while it destroys the client and connects the next one. The
model has no step of its own for that: such a swap is covered only by the runs that wait
in `.done` until the swap writes `is_connected_`, then take the step to `.connecting` and
that write with no step of the application between them. A `publish` that reads
`is_connected_` as true inside that window calls `publish` on the reset `client_`; that
dereference is outside the model.

Between the write and the flush, a message published after the reconnection goes to the
client while the messages queued before it wait, and is handed over first
(`publish_overtakes_queued`). That is the only disorder there is: any two messages handed
over out of publication order are a later one forwarded directly ahead of an earlier one
flushed from the queue (`handedOver_order`). The proof is an invariant of every reachable
state (`Inv`), kept by every step (`Inv.step`).

Nor is a message lost or duplicated, but for those the full queue evicts: on every run, the
messages handed over, queued or inside `publish`, with those `add_message_to_queue` evicted,
are each published message exactly once, and none is evicted until more than
`MAX_QUEUE_SIZE` have been published (`held_evicted_perm_range`).
-/

namespace PahoMqtt

namespace Reconnection

open scoped List

/-- How a message reached a client: forwarded by its own `publish`, or flushed from the
offline queue by `resend_queued_messages`. -/
inductive Route
  | direct
  | flushed
  deriving DecidableEq, Repr

/-- Where the application thread is: between calls, or inside `publish` of message `m`. -/
inductive AppPc
  /-- Between calls; the next step reads `is_connected_` for the next message. -/
  | idle
  /-- `is_connected_` was true: `client_->publish(m)` is next. -/
  | forward (m : ℕ)
  /-- `is_connected_` was false, or the publish threw: `add_message_to_queue(m)` is next. -/
  | enqueue (m : ℕ)
  deriving DecidableEq, Repr

/-- Where the reconnecting thread is. -/
inductive ReconnectPc
  /-- The new client is up; `is_connected_ = true` is next. -/
  | connecting
  /-- `resend_queued_messages` is next. -/
  | connected
  /-- Inside `resend_queued_messages`, holding `queue_mutex_`. -/
  | flushing
  /-- The flush is over; a later `connection_lost` starts the next reconnection. -/
  | done
  deriving DecidableEq, Repr

/-- The shared state of the two threads. `handedOver` logs the messages given to a client's
`publish` that returned, in order, with how they got there. -/
structure Sys where
  isConnected : Bool
  queue : List ℕ
  handedOver : List (ℕ × Route)
  published : ℕ
  app : AppPc
  reconnect : ReconnectPc
  deriving DecidableEq, Repr

/-- Disconnected, nothing queued or published, and a reconnection under way. -/
def init : Sys := ⟨false, [], [], 0, .idle, .connecting⟩

/-- A step of one thread. `ok` says whether a client `publish` of the step returns rather
than throws. -/
inductive Action
  | app (ok : Bool)
  | reconnect (ok : Bool)
  deriving DecidableEq, Repr

/-- One step, or `none` when the thread cannot take it: the application waiting for
`queue_mutex_` during a flush, or the reconnecting thread with nothing left to do. -/
def step : Action → Sys → Option Sys
  | .app ok, s =>
    match s.app with
    | .idle =>
      some { s with published := s.published + 1,
                    app := if s.isConnected then .forward s.published else .enqueue s.published }
    | .forward m =>
      if ok then some { s with handedOver := s.handedOver ++ [(m, .direct)], app := .idle }
      else some { s with app := .enqueue m }
    | .enqueue m =>
      if s.reconnect = .flushing then none
      else some { s with queue := addMessageToQueue m s.queue, app := .idle }
  | .reconnect ok, s =>
    match s.reconnect, s.queue with
    | .connecting, _ => some { s with isConnected := true, reconnect := .connected }
    | .connected, _ => some { s with reconnect := .flushing }
    | .flushing, [] => some { s with reconnect := .done }
    | .flushing, m :: q =>
      if ok then some { s with queue := q, handedOver := s.handedOver ++ [(m, .flushed)] }
      else some { s with reconnect := .done }
    | .done, _ => some { s with isConnected := false, reconnect := .connecting }

/-- The states some interleaving reaches from `init`. -/
inductive Reachable : Sys → Prop
  | init : Reachable init
  | step {s s' : Sys} (a : Action) : Reachable s → step a s = some s' → Reachable s'

/-- The steps of a list in order. -/
def run : List Action → Sys → Option Sys
  | [], s => some s
  | a :: as, s => (step a s).bind (run as)

theorem reachable_of_run {as : List Action} {s s' : Sys} (hs : Reachable s)
    (h : run as s = some s') : Reachable s' := by
  induction as generalizing s with
  | nil => cases h; exact hs
  | cons a as ih =>
    simp only [run] at h
    cases ha : step a s with
    | none => simp [ha] at h
    | some t => exact ih (.step a hs ha) (by simpa [ha] using h)

/-! ## The invariant -/

/-- The message inside `publish`, if any. -/
def AppPc.inFlight : AppPc → Option ℕ
  | .idle => none
  | .forward m | .enqueue m => some m

/-- Two entries of the log out of publication order are a direct forward ahead of a
flush. -/
def OrderedOrOvertaken (x y : ℕ × Route) : Prop :=
  y.1 < x.1 → x.2 = .direct ∧ y.2 = .flushed

/-- What holds in every reachable state. -/
structure Inv (s : Sys) : Prop where
  /-- The queue holds messages in publication order. -/
  sorted : s.queue.Sorted (· < ·)
  /-- Every message queued or handed over has been published. -/
  queue_lt : ∀ m ∈ s.queue, m < s.published
  handedOver_lt : ∀ x ∈ s.handedOver, x.1 < s.published
  /-- The message inside `publish` is the last one published. -/
  inFlight : ∀ m, s.app.inFlight = some m →
    m + 1 = s.published ∧ (∀ q ∈ s.queue, q < m) ∧ ∀ x ∈ s.handedOver, x.1 < m
  /-- Every message flushed so far was published before everything still queued. -/
  flushed_lt : ∀ x ∈ s.handedOver, x.2 = .flushed → ∀ m ∈ s.queue, x.1 < m
  /-- No message is handed over twice, or handed over and still queued. -/
  nodup : (s.handedOver.map (·.1) ++ s.queue).Nodup
  /-- Every disorder is a direct forward ahead of a flush. -/
  order : s.handedOver.Pairwise OrderedOrOvertaken

theorem inv_init : Inv init where
  sorted := List.sorted_nil
  queue_lt := by simp [init]
  handedOver_lt := by simp [init]
  inFlight := by simp [init, AppPc.inFlight]
  flushed_lt := by simp [init]
  nodup := List.nodup_nil
  order := List.Pairwise.nil

/-! ## Each step keeps it -/

/-- The invariant reads only the queue, the log, the counter and the application thread. -/
theorem Inv.congr {s t : Sys} (h : Inv s) (hq : t.queue = s.queue) (hh : t.handedOver = s.handedOver)
    (hp : t.published = s.published) (ha : t.app = s.app) : Inv t := by
  obtain ⟨_, q, ho, n, app, _⟩ := s
  obtain ⟨_, q', ho', n', app', _⟩ := t
  simp only at hq hh hp ha
  subst hq hh hp ha
  exact ⟨h.sorted, h.queue_lt, h.handedOver_lt, h.inFlight, h.flushed_lt, h.nodup, h.order⟩

/-- Reading `is_connected_` begins the publish of the next message. -/
theorem Inv.begin {s : Sys} (h : Inv s) :
    Inv { s with published := s.published + 1,
                 app := if s.isConnected then .forward s.published else .enqueue s.published } where
  sorted := h.sorted
  queue_lt m hm := Nat.lt_succ_of_lt (h.queue_lt m hm)
  handedOver_lt x hx := Nat.lt_succ_of_lt (h.handedOver_lt x hx)
  inFlight m hm := by
    obtain rfl : s.published = m := by split at hm <;> simpa [AppPc.inFlight] using hm
    exact ⟨rfl, h.queue_lt, h.handedOver_lt⟩
  flushed_lt := h.flushed_lt
  nodup := h.nodup
  order := h.order

/-- A publish that throws sends its message to the queue. -/
theorem Inv.requeue {s : Sys} (h : Inv s) {m : ℕ} (hm : s.app = .forward m) :
    Inv { s with app := .enqueue m } := by
  refine { h with inFlight := fun m' hm' => ?_ }
  obtain rfl : m = m' := by simpa [AppPc.inFlight] using hm'
  exact h.inFlight m (by simp [hm, AppPc.inFlight])

/-- The message in flight is newer than everything queued or handed over. -/
theorem Inv.not_mem_of_inFlight {s : Sys} (h : Inv s) {m : ℕ} (hm : s.app.inFlight = some m) :
    m ∉ s.handedOver.map (·.1) ++ s.queue := by
  obtain ⟨-, hq, hh⟩ := h.inFlight m hm
  intro hmem
  rcases List.mem_append.1 hmem with hmem | hmem
  · obtain ⟨x, hx, rfl⟩ := List.mem_map.1 hmem
    exact lt_irrefl _ (hh x hx)
  · exact lt_irrefl _ (hq m hmem)

/-- A publish that returns hands its message over, newer than everything before it. -/
theorem Inv.forward {s : Sys} (h : Inv s) {m : ℕ} (hm : s.app = .forward m) :
    Inv { s with handedOver := s.handedOver ++ [(m, .direct)], app := .idle } := by
  have hin : s.app.inFlight = some m := by simp [hm, AppPc.inFlight]
  obtain ⟨hmn, -, hh⟩ := h.inFlight m hin
  refine ⟨h.sorted, h.queue_lt, fun x hx => ?_, fun _ h' => by simp [AppPc.inFlight] at h',
    fun x hx hf => ?_, ?_, ?_⟩
  · rcases List.mem_append.1 hx with hx | hx
    · exact h.handedOver_lt x hx
    · rw [List.mem_singleton.1 hx]; show m < s.published; omega
  · rcases List.mem_append.1 hx with hx | hx
    · exact h.flushed_lt x hx hf
    · rw [List.mem_singleton.1 hx] at hf; cases hf
  · simpa [List.nodup_middle] using List.nodup_cons.2 ⟨h.not_mem_of_inFlight hin, h.nodup⟩
  · refine List.pairwise_append.2 ⟨h.order, List.pairwise_singleton _ _, fun x hx y hy => ?_⟩
    rw [List.mem_singleton.1 hy]
    exact fun hlt => absurd hlt (Nat.lt_asymm (hh x hx))

theorem exists_sublist_addMessageToQueue {α : Type} (m : α) (q : List α) :
    ∃ q', q' <+ q ∧ addMessageToQueue m q = q' ++ [m] := by
  unfold addMessageToQueue
  split
  · exact ⟨_, List.tail_sublist q, rfl⟩
  · exact ⟨_, .refl q, rfl⟩

/-- `add_message_to_queue` appends the newest message, maybe after evicting the oldest. -/
theorem Inv.enqueue {s : Sys} (h : Inv s) {m : ℕ} (hm : s.app = .enqueue m) :
    Inv { s with queue := addMessageToQueue m s.queue, app := .idle } := by
  have hin : s.app.inFlight = some m := by simp [hm, AppPc.inFlight]
  obtain ⟨hmn, hq, hh⟩ := h.inFlight m hin
  obtain ⟨q', hq', heq⟩ := exists_sublist_addMessageToQueue m s.queue
  simp only [heq]
  refine ⟨?_, fun m' hm' => ?_, h.handedOver_lt, fun _ h' => by simp [AppPc.inFlight] at h',
    fun x hx hf m' hm' => ?_, ?_, h.order⟩
  · exact List.pairwise_append.2 ⟨h.sorted.sublist hq', List.pairwise_singleton _ _,
      fun a ha b hb => List.mem_singleton.1 hb ▸ hq a (hq'.subset ha)⟩
  · rcases List.mem_append.1 hm' with hm' | hm'
    · exact h.queue_lt m' (hq'.subset hm')
    · rw [List.mem_singleton.1 hm']; show m < s.published; omega
  · rcases List.mem_append.1 hm' with hm' | hm'
    · exact h.flushed_lt x hx hf m' (hq'.subset hm')
    · rw [List.mem_singleton.1 hm']; exact hh x hx
  · have hsub : s.handedOver.map (·.1) ++ q' <+ s.handedOver.map (·.1) ++ s.queue :=
      (List.Sublist.refl _).append hq'
    rw [← List.append_assoc]
    exact (h.nodup.sublist hsub).append (List.nodup_singleton m) (List.disjoint_singleton.2
      fun hmem => h.not_mem_of_inFlight hin (hsub.subset hmem))

/-- A flushed publish that returns hands the oldest queued message over. -/
theorem Inv.flush {s : Sys} (h : Inv s) {m : ℕ} {q : List ℕ} (hq : s.queue = m :: q) :
    Inv { s with queue := q, handedOver := s.handedOver ++ [(m, .flushed)] } := by
  have hsorted := hq ▸ h.sorted
  have hmq : ∀ m' ∈ q, m < m' := List.rel_of_sorted_cons hsorted
  have hmem : m ∈ s.queue := hq ▸ List.mem_cons_self _ _
  have hsub : ∀ m' ∈ q, m' ∈ s.queue := fun m' hm' => hq ▸ List.mem_cons_of_mem _ hm'
  refine ⟨hsorted.of_cons, fun m' hm' => h.queue_lt m' (hsub m' hm'), fun x hx => ?_,
    fun m' hm' => ?_, fun x hx hf m' hm' => ?_, ?_, ?_⟩
  · rcases List.mem_append.1 hx with hx | hx
    · exact h.handedOver_lt x hx
    · rw [List.mem_singleton.1 hx]; exact h.queue_lt m hmem
  · obtain ⟨hmn, hq', hh⟩ := h.inFlight m' hm'
    refine ⟨hmn, fun q' h' => hq' q' (hsub q' h'), fun x hx => ?_⟩
    rcases List.mem_append.1 hx with hx | hx
    · exact hh x hx
    · rw [List.mem_singleton.1 hx]; exact hq' m hmem
  · rcases List.mem_append.1 hx with hx | hx
    · exact h.flushed_lt x hx hf m' (hsub m' hm')
    · rw [List.mem_singleton.1 hx]; exact hmq m' hm'
  · simpa [hq, List.append_assoc] using h.nodup
  · refine List.pairwise_append.2 ⟨h.order, List.pairwise_singleton _ _, fun x hx y hy => ?_⟩
    rw [List.mem_singleton.1 hy]
    intro hlt
    refine ⟨?_, rfl⟩
    cases hx2 : x.2
    · rfl
    · exact absurd (h.flushed_lt x hx hx2 m hmem) (Nat.lt_asymm hlt)

/-- **Every step keeps the invariant.** -/
theorem Inv.step {s s' : Sys} (h : Inv s) {a : Action} (hs : step a s = some s') : Inv s' := by
  cases a with
  | app ok =>
    simp only [Reconnection.step] at hs
    split at hs
    · cases hs; exact h.begin
    · rename_i m hm
      split at hs <;> cases hs
      · exact h.forward hm
      · exact h.requeue hm
    · rename_i m hm
      split at hs <;> cases hs
      exact h.enqueue hm
  | reconnect ok =>
    simp only [Reconnection.step] at hs
    split at hs
    · cases hs; exact h.congr rfl rfl rfl rfl
    · cases hs; exact h.congr rfl rfl rfl rfl
    · cases hs; exact h.congr rfl rfl rfl rfl
    · rename_i m q _ hq
      split at hs <;> cases hs
      · exact h.flush hq
      · exact h.congr rfl rfl rfl rfl
    · cases hs; exact h.congr rfl rfl rfl rfl

theorem Inv.of_reachable {s : Sys} (h : Reachable s) : Inv s := by
  induction h with
  | init => exact inv_init
  | step a _ hs ih => exact ih.step hs

/-! ## The order messages reach the clients in -/

/-- **Under every interleaving, the only disorder is a direct forward ahead of a flush.**
No message is handed to a client twice; any two handed over out of publication order are a
message forwarded directly by its own `publish` ahead of one published earlier and flushed
from the queue; so the direct forwards are in publication order among themselves, and so
are the flushes. -/
theorem handedOver_order {s : Sys} (h : Reachable s) :
    (s.handedOver.map (·.1)).Nodup ∧
    s.handedOver.Pairwise (fun x y => y.1 < x.1 → x.2 = .direct ∧ y.2 = .flushed) ∧
    ((s.handedOver.filter (·.2 = .direct)).map (·.1)).Sorted (· < ·) ∧
    ((s.handedOver.filter (·.2 = .flushed)).map (·.1)).Sorted (· < ·) := by
  have hi := Inv.of_reachable h
  have hnd : (s.handedOver.map (·.1)).Nodup := (List.nodup_append.1 hi.nodup).1
  have hne : s.handedOver.Pairwise (fun x y => x.1 ≠ y.1) := List.pairwise_map.1 hnd
  have sorted_of : ∀ rt : Route,
      ((s.handedOver.filter (·.2 = rt)).map (·.1)).Sorted (· < ·) := fun rt =>
    List.pairwise_map.2 (List.pairwise_filter.2 ((hi.order.and hne).imp fun ⟨hxy, hne⟩ hx hy => by
      refine lt_of_le_of_ne (not_lt.1 fun hlt => ?_) hne
      obtain ⟨h1, h2⟩ := hxy hlt
      exact absurd (h1.symm.trans (hx.trans (hy.symm.trans h2))) (by decide)))
  exact ⟨hnd, hi.order, sorted_of .direct, sorted_of .flushed⟩

/-- Message `0` is published while disconnected and queued; the reconnection sets
`is_connected_`; message `1` is published and its `publish` returns; then the flush hands
message `0` to the client. -/
def overtakingRun : List Action :=
  [.app true, .app true, .reconnect true, .app true, .app true, .reconnect true, .reconnect true]

theorem handedOver_order_overtakingRun :
    let s : Sys := ⟨true, [], [(1, .direct), (0, .flushed)], 2, .idle, .flushing⟩
    Reachable s ∧ (s.handedOver.map (·.1)).Nodup ∧
    s.handedOver.Pairwise (fun x y => y.1 < x.1 → x.2 = .direct ∧ y.2 = .flushed) ∧
    ((s.handedOver.filter (·.2 = .direct)).map (·.1)).Sorted (· < ·) ∧
    ((s.handedOver.filter (·.2 = .flushed)).map (·.1)).Sorted (· < ·) :=
  have h := reachable_of_run .init
    (by decide : run overtakingRun init = some ⟨true, [], [(1, .direct), (0, .flushed)], 2, .idle, .flushing⟩)
  ⟨h, handedOver_order h⟩

/-- A message published after the reconnection set `is_connected_` reaches the new client
before a message queued before it. -/
theorem publish_overtakes_queued :
    ∃ s, Reachable s ∧ s.handedOver = [(1, .direct), (0, .flushed)] :=
  ⟨_, reachable_of_run .init
    (by decide : run overtakingRun init = some ⟨true, [], [(1, .direct), (0, .flushed)], 2, .idle, .flushing⟩),
    rfl⟩

/-! ## What is lost is what the full queue evicts -/

/-- The messages a state holds: those handed to a client, those queued, and the one inside
`publish`. -/
def held (s : Sys) : List ℕ :=
  s.handedOver.map (·.1) ++ s.queue ++ s.app.inFlight.toList

/-- The message a step evicts: `add_message_to_queue` pops the oldest queued message when the
queue already holds `MAX_QUEUE_SIZE`. -/
def evicted (a : Action) (s : Sys) : List ℕ :=
  match a, s.app with
  | .app _, .enqueue _ => if maxQueueSize ≤ s.queue.length then s.queue.head?.toList else []
  | _, _ => []

/-- The messages a run evicts, in order. -/
def evictedBy : List Action → Sys → List ℕ
  | [], _ => []
  | a :: as, s => (step a s).elim [] fun t => evicted a s ++ evictedBy as t

theorem Inv.nodup_held {s : Sys} (h : Inv s) : (held s).Nodup := by
  unfold held
  cases hm : s.app.inFlight with
  | none => simpa using h.nodup
  | some m =>
    rw [Option.toList_some]
    exact h.nodup.append (List.nodup_singleton m)
      (List.disjoint_singleton.2 (h.not_mem_of_inFlight hm))

theorem Inv.lt_of_mem_held {s : Sys} (h : Inv s) {m : ℕ} (hm : m ∈ held s) : m < s.published := by
  simp only [held, List.mem_append, List.mem_map, Option.mem_toList] at hm
  rcases hm with (⟨x, hx, rfl⟩ | hm) | hm
  · exact h.handedOver_lt x hx
  · exact h.queue_lt m hm
  · have := (h.inFlight m hm).1
    omega

/-- At most `published` messages are held, each once. -/
theorem Inv.length_held_le {s : Sys} (h : Inv s) : (held s).length ≤ s.published :=
  ((List.subperm_of_subset h.nodup_held fun _ hm =>
    List.mem_range.2 (h.lt_of_mem_held hm)).length_le).trans_eq (List.length_range _)

/-- While at most `MAX_QUEUE_SIZE` messages have been published, no step evicts one: the
queue, the message being queued apart, holds fewer. -/
theorem Inv.evicted_eq_nil {s : Sys} (h : Inv s) (a : Action) (hbound : s.published ≤ maxQueueSize) :
    evicted a s = [] := by
  unfold evicted
  split
  · rename_i m hm
    have hlen := h.length_held_le
    simp only [held, hm, AppPc.inFlight, Option.toList_some, List.length_append, List.length_map,
      List.length_singleton] at hlen
    rw [if_neg (by omega)]
  · rfl

/-- A step publishes at most one message. -/
theorem published_step {s s' : Sys} {a : Action} (hs : step a s = some s') :
    s'.published = s.published ∨ s'.published = s.published + 1 := by
  cases a <;> simp only [Reconnection.step] at hs <;> (repeat' split at hs) <;> cases hs <;>
    simp

theorem published_le_run {as : List Action} {s s' : Sys} (h : run as s = some s') :
    s.published ≤ s'.published := by
  induction as generalizing s with
  | nil => cases h; exact le_rfl
  | cons a as ih =>
    obtain ⟨t, ht, hrun⟩ := Option.bind_eq_some.1 h
    have := published_step ht
    have := ih hrun
    omega

/-- Each step hands over, queues or evicts what it takes, and reading `is_connected_` takes
the next message. -/
theorem held_step {s s' : Sys} {a : Action} (hs : step a s = some s') :
    held s' ++ evicted a s ~
      held s ++ (if s'.published = s.published then [] else [s.published]) := by
  cases a with
  | app ok =>
    simp only [Reconnection.step] at hs
    split at hs
    · -- reading `is_connected_`: the next message is inside `publish`
      rename_i hidle
      cases hs
      have hin : (if s.isConnected then AppPc.forward s.published else .enqueue s.published).inFlight =
          some s.published := by split <;> rfl
      simp only [held, hin]
      simp [evicted, hidle, AppPc.inFlight]
    · rename_i m hfwd
      split at hs <;> cases hs
      · -- handed over directly
        simp only [held, evicted, hfwd, AppPc.inFlight]
        simpa using (List.perm_append_singleton m s.queue).symm.append_left _
      · -- the publish threw: still inside `publish`, to be queued
        simp [held, evicted, hfwd, AppPc.inFlight]
    · rename_i m henq
      split at hs <;> cases hs
      simp only [held, evicted, henq, AppPc.inFlight, addMessageToQueue, Option.toList_some,
        Option.toList_none, List.append_nil, if_true]
      cases hq : s.queue with
      | nil => simp [maxQueueSize]
      | cons x q =>
        by_cases hfull : maxQueueSize ≤ q.length + 1
        · -- the queue was full: its oldest message is evicted
          simpa [hfull] using (List.perm_append_singleton x (q ++ [m])).append_left _
        · simp [hfull]
  | reconnect ok =>
    simp only [Reconnection.step] at hs
    split at hs <;> (try split at hs) <;> cases hs <;> simp_all [held, evicted]

theorem evictedBy_cons {a : Action} {as : List Action} {s t : Sys} (h : step a s = some t) :
    evictedBy (a :: as) s = evicted a s ++ evictedBy as t := by
  simp [evictedBy, h]

/-- Along a run, what is held with what is evicted is what was held with what was published. -/
theorem held_run {as : List Action} {s s' : Sys} (h : run as s = some s') :
    held s' ++ evictedBy as s ~ held s ++ List.range' s.published (s'.published - s.published) := by
  induction as generalizing s with
  | nil => cases h; simp [evictedBy]
  | cons a as ih =>
    obtain ⟨t, ht, hrun⟩ := Option.bind_eq_some.1 h
    have hle := published_le_run hrun
    have hnew : (if t.published = s.published then [] else [s.published]) ++
        List.range' t.published (s'.published - t.published) =
        List.range' s.published (s'.published - s.published) := by
      rcases published_step ht with hp | hp <;> rw [hp] at hle ⊢
      · simp
      · rw [if_neg (by omega), show s'.published - s.published = s'.published - (s.published + 1) + 1
          by omega, List.range'_succ]
        rfl
    rw [evictedBy_cons ht, ← hnew]
    -- move the step's eviction next to what the step left held
    have h₁ : held s' ++ (evicted a s ++ evictedBy as t) ~
        (held s' ++ evictedBy as t) ++ evicted a s := by
      rw [List.append_assoc]; exact List.perm_append_comm.append_left _
    have h₂ : (held t ++ List.range' t.published (s'.published - t.published)) ++ evicted a s ~
        held t ++ (evicted a s ++ List.range' t.published (s'.published - t.published)) := by
      rw [List.append_assoc]; exact List.perm_append_comm.append_left _
    have h₃ := (held_step ht).append_right (List.range' t.published (s'.published - t.published))
    simp only [List.append_assoc] at h₃
    exact h₁.trans (((ih hrun).append_right _).trans (h₂.trans h₃))

/-- A run that ends with at most `MAX_QUEUE_SIZE` messages published evicts none. -/
theorem evictedBy_eq_nil {as : List Action} {s s' : Sys} (hs : Reachable s)
    (h : run as s = some s') (hbound : s'.published ≤ maxQueueSize) : evictedBy as s = [] := by
  induction as generalizing s with
  | nil => rfl
  | cons a as ih =>
    obtain ⟨t, ht, hrun⟩ := Option.bind_eq_some.1 h
    have hst : s.published ≤ t.published := by rcases published_step ht with h | h <;> omega
    rw [evictedBy_cons ht, (Inv.of_reachable hs).evicted_eq_nil a
      ((hst.trans (published_le_run hrun)).trans hbound), ih (.step a hs ht) hrun, List.append_nil]

/-- **No message is lost or held twice, but those the full queue evicts.** On every run of
publishes and reconnections, the messages handed to a client, those queued and the one inside
`publish`, with those `add_message_to_queue` evicted along the way, each the oldest queued at
the time, are the published messages, each exactly once. Until more than `MAX_QUEUE_SIZE`
messages have been published, none is evicted. -/
theorem held_evicted_perm_range {as : List Action} {s : Sys} (h : run as init = some s) :
    held s ++ evictedBy as init ~ List.range s.published ∧
      (s.published ≤ maxQueueSize → evictedBy as init = []) :=
  ⟨by simpa [held, init, AppPc.inFlight, List.range_eq_range'] using held_run h,
    evictedBy_eq_nil .init h⟩

/-- The run in which a publish overtakes a queued message: both messages are held, and none
is evicted. -/
theorem held_evicted_perm_range_overtakingRun :
    let s : Sys := ⟨true, [], [(1, .direct), (0, .flushed)], 2, .idle, .flushing⟩
    run overtakingRun init = some s ∧
      (held s ++ evictedBy overtakingRun init ~ List.range s.published ∧
        (s.published ≤ maxQueueSize → evictedBy overtakingRun init = [])) :=
  have h : run overtakingRun init =
      some ⟨true, [], [(1, .direct), (0, .flushed)], 2, .idle, .flushing⟩ := by decide
  ⟨h, held_evicted_perm_range h⟩

end Reconnection

end PahoMqtt
