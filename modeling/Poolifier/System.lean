import Poolifier.Lib.Composition
import Poolifier.Outcomes
import Poolifier.Records
import Poolifier.ReplyFields
/-!
# The pool and its workers together

A worker takes the task messages that the pool has posted to it, in their
order, and the pool takes the messages that the worker has sent, in theirs, as
long as the channel is open; what either takes is a copy. Between any two of
these, calls are made, promises settle, workers fail, join and leave. Nothing
here says that a response is to a task that waits for one, or that no task
message comes twice: it follows (`linked_of_run`).
-/

namespace Poolifier

open RunLib

namespace AbstractWorker

section Log
variable {V : Type} {rt : Runtime V} {type : WorkerType} {s s' : State V} {e : Event V}

theorem step_take {task : Task V} (start stop : Clock) (hcaught : s.uncaught = none) (hopen : s.closed = none)
    (hnew : task.taskId ∉ s.received.map (·.task.taskId)) :
    Step rt type s (.task task start stop) (s.take rt type task start stop) := by
  unfold Step next
  rw [if_neg (by simp [hcaught, hopen])]
  exact if_neg hnew

/-- What has been received and what has been sent stay, and so does what has reached the main worker. -/
structure Logs (new : List (Received V)) (closes : Bool) (s s' : State V) : Prop where
  received : s'.received = s.received ++ new
  sent : s.sent <+: s'.sent
  closed : s'.closed = s.closed ∨ closes = true ∧ s.closed = none ∧ s'.closed = some s.sent.length

theorem Logs.through {new : List (Received V)} {closes : Bool} (h : Logs new closes s s') : s.through <+: s'.through := by
  rcases h.closed with hclosed | ⟨-, hopen, hclosed⟩
  · rcases hc : s.closed with _ | n
    · rw [through_of_open hc, through_of_open (hclosed.trans hc)]
      exact h.sent
    · rw [through_of_closed hc, through_of_closed (hclosed.trans hc)]
      exact h.sent.take n
  · -- all that has been sent by now gets through, and nothing else
    obtain ⟨messages, hsent⟩ := h.sent
    rw [through_of_open hopen, through_of_closed hclosed, ← hsent, List.take_left]

theorem Logs.opened {new : List (Received V)} (h : Logs new false s s') : s'.closed = s.closed :=
  h.closed.resolve_right fun hcloses => Bool.false_ne_true hcloses.1

theorem Logs.isSome_closed {new : List (Received V)} {closes : Bool} (h : Logs new closes s s') (hclosed : s.closed.isSome = true) :
    s'.closed.isSome = true := by
  rcases h.closed with heq | ⟨-, -, heq⟩
  · rwa [heq]
  · rw [heq]
    rfl

/-- No message has been received. -/
theorem logs_of_kept {closes : Bool} {messages : List (MessageValue V)} (hreceived : s'.received = s.received)
    (hsent : s'.sent = s.sent ++ messages) (hclosed : s'.closed = s.closed) : Logs [] closes s s' :=
  ⟨hreceived.trans (List.append_nil _).symm, ⟨messages, hsent.symm⟩, .inl hclosed⟩

theorem logs_of_same {closes : Bool} (hreceived : s'.received = s.received) (hsent : s'.sent = s.sent)
    (hclosed : s'.closed = s.closed) : Logs [] closes s s' :=
  logs_of_kept hreceived (hsent.trans (List.append_nil _).symm) hclosed

/-- The message has been received, and earlier replies stay. -/
theorem take_logs (rt : Runtime V) (type : WorkerType) (s : State V) (task : Task V) (start stop : Clock) :
    Logs [s.receives task] false s (s.take rt type task start stop) := by
  unfold State.take
  rcases messageListener_concludes (s := { s with received := s.received ++ [s.receives task] }) rt type task start stop with
    ⟨-, hrun⟩ | ⟨fn, taskPerformance, -, -, -, -, hrun⟩ | ⟨-, hconcludes⟩
  · rw [hrun]
    exact ⟨rfl, List.prefix_rfl, .inl rfl⟩
  · rw [hrun]
    exact ⟨rfl, List.prefix_rfl, .inl rfl⟩
  · generalize messageListener rt type task start stop { s with received := s.received ++ [s.receives task] } = result
      at hconcludes
    generalize Received.reply rt type _ = reply at hconcludes
    cases hconcludes with
    | sent m _ _ hsent hkept => exact ⟨hkept.received, ⟨[m], hsent.symm⟩, .inl hkept.closed⟩
    | thrown e hsent hkept => exact ⟨hkept.received, by simp only [State.ended, hsent, List.prefix_rfl], .inl hkept.closed⟩

theorem settle_logs {r : Running V} (hstat : s.statistics.isSome = true) (rt : Runtime V) (type : WorkerType) (stop : Clock)
    (i taskId : Nat) : Logs [] false s (State.ended taskId (settle rt type r stop (s.stopped i taskId))) := by
  rcases settle_concludes (s := s.stopped i taskId) rt type hstat r stop with
    ⟨reply, m, s', -, -, -, hsent, hkept, hrun⟩ | ⟨-, s', hsent, hkept, hrun⟩
  · rw [hrun]
    exact logs_of_kept hkept.received hsent hkept.closed
  · rw [hrun]
    exact logs_of_same hkept.received hsent hkept.closed

/-- Messages are received with their events, and nothing that was sent is taken back. -/
theorem step_logs (hdet : Determined rt type s) (h : Step rt type s e s') :
    Logs (e.message.map s.receives).toList e.isClosing s s' := by
  cases (does_of_step h).2.2 with
  | told hnone _ htold =>
    rw [hnone]
    exact ⟨htold.received.trans (List.append_nil _).symm, htold.sent ▸ List.prefix_rfl, htold.closed⟩
  | task start stop _ => exact take_logs rt type s _ start stop
  | settle stop hr => exact settle_logs (hdet.running _ (List.mem_of_getElem? hr)).1 rt type stop _ _
  | cut _ _ _ => exact logs_of_same rfl rfl rfl
  | stray _ _ => exact logs_of_same rfl rfl rfl

/-- The messages received are those of the run. -/
theorem received_of_run {s₀ : State V} {es : List (Event V)} (hdet : Determined rt type s₀) (h₀ : s₀.received = [])
    (hr : Run (Step rt type) s₀ es s) : Determined rt type s ∧ s.received.map (·.task) = es.filterMap Event.message := by
  refine hr.trace_inv (fun es s => Determined rt type s ∧ s.received.map (·.task) = es.filterMap Event.message) ⟨hdet, ?_⟩ ?_
  · rw [h₀]
    rfl
  · rintro es s e s' ⟨hs, heq⟩ hstep
    refine ⟨hs.step hstep, ?_⟩
    rw [(step_logs hs hstep).received, List.map_append, heq, List.filterMap_append]
    rcases hm : e.message with _ | task <;> simp [hm, State.receives]

theorem take_running (rt : Runtime V) (type : WorkerType) (s : State V) (task : Task V) (start stop : Clock) :
    (s.take rt type task start stop).running.length ≤ s.running.length + 1 := by
  unfold State.take
  rcases messageListener_concludes (s := { s with received := s.received ++ [s.receives task] }) rt type task start stop with
    ⟨-, hrun⟩ | ⟨fn, taskPerformance, -, -, -, -, hrun⟩ | ⟨-, hconcludes⟩
  · rw [hrun]
    exact Nat.le_succ _
  · rw [hrun]
    simp [State.ended]
  · generalize messageListener rt type task start stop { s with received := s.received ++ [s.receives task] } = result
      at hconcludes
    generalize Received.reply rt type _ = reply at hconcludes
    cases hconcludes with
    | sent m _ _ _ hkept => simp [State.ended, hkept.running]
    | thrown e _ hkept => simp [State.ended, hkept.running]

theorem settle_running {r : Running V} (hstat : s.statistics.isSome = true) (rt : Runtime V) (type : WorkerType) (stop : Clock)
    (i taskId : Nat) : (State.ended taskId (settle rt type r stop (s.stopped i taskId))).running = s.running.eraseIdx i := by
  rcases settle_concludes (s := s.stopped i taskId) rt type hstat r stop with
    ⟨reply, m, s', -, -, -, -, hkept, hrun⟩ | ⟨-, s', -, hkept, hrun⟩
  · rw [hrun]
    exact hkept.running
  · rw [hrun]
    exact hkept.running

/-- What runs after an event ran before, or was started by it. -/
theorem step_running (hdet : Determined rt type s) (h : Step rt type s e s') :
    s'.running.length + e.isSettlement.toNat ≤ s.running.length + e.message.toList.length := by
  have hstopped {i : Nat} {r : Running V} (hr : s.running[i]? = some r) : (s.running.eraseIdx i).length + 1 = s.running.length :=
    List.length_eraseIdx_add_one (List.getElem?_eq_some_iff.1 hr).1
  cases (does_of_step h).2.2 with
  | told hnone hnot htold =>
    rw [hnone, hnot, htold.running]
    exact le_rfl
  | task start stop _ => exact take_running rt type s _ start stop
  | settle stop hr =>
    rw [settle_running (hdet.running _ (List.mem_of_getElem? hr)).1 rt type stop]
    exact (hstopped hr).le
  | cut _ hr _ => exact (hstopped hr).le
  | stray _ _ => exact le_rfl

/-- No more promises settle than tasks are received. -/
theorem settlements_le {taskFunctions : String → Option (TaskFunction V)} {es : List (Event V)}
    (hr : Run (Step rt type) (created taskFunctions) es s) : es.countP Event.isSettlement ≤ s.received.length := by
  have hinv := hr.trace_inv (fun es s => Determined rt type s ∧ s.running.length + es.countP Event.isSettlement ≤
    s.received.length) ⟨determined_created rt type taskFunctions, le_rfl⟩ fun es s e s' h hstep => ?_
  · exact (Nat.le_add_left _ _).trans hinv.2
  · obtain ⟨hdet, hle⟩ := h
    have hrunning := step_running hdet hstep
    have hreceived := congrArg List.length (step_logs hdet hstep).received
    refine ⟨hdet.step hstep, ?_⟩
    rw [List.length_append, Option.toList_map, List.length_map] at hreceived
    rw [List.countP_append, List.countP_singleton, hreceived]
    have hone : (if e.isSettlement = true then 1 else 0) = e.isSettlement.toNat := by cases e.isSettlement <;> rfl
    omega

end Log

end AbstractWorker

namespace System

open AbstractWorker (Runtime Clock MessageValue)

structure State (V : Type) where
  pool : Pool V V
  workers : Nat → AbstractWorker.State V
  /-- How many messages of each worker the pool has handled. -/
  handled : Nat → Nat

/-- What can happen. Messages are named for the theorems: those that are handled are the next ones. -/
inductive Event (V : Type)
  /-- The pool does something else than handling a response. -/
  | pool (e : Poolifier.Event V V)
  /-- A worker does something else than handling a task message. -/
  | worker (workerId : Nat) (e : AbstractWorker.Event V)
  | deliver (workerId : Nat) (task : Task V) (start stop : Clock)
  | reply (workerId : Nat) (message : MessageValue V)

section System
variable {V : Type} (rt : Runtime V) (type : WorkerType) (text : V → String)

/-- The next task message on its way to a worker. -/
def State.posted (s : State V) (workerId : Nat) : Option (Task V) :=
  (s.pool.record workerId).received[(s.workers workerId).received.length]?

/-- The next message on its way from a worker. -/
def State.unhandled (s : State V) (workerId : Nat) : Option (MessageValue V) :=
  (s.workers workerId).through[s.handled workerId]?

def isResponse : Poolifier.Event V V → Bool
  | .message _ (.taskResponse _) => true
  | _ => false

/-- A worker is ready for tasks once it has the statistics message, which is posted before any task. -/
structure Listens (s : AbstractWorker.State V) : Prop where
  statistics : s.statistics.isSome = true
  uncaught : s.uncaught = none
  closed : s.closed = none

/-- The pool handles an event, whether it can happen or not. -/
def Handles (s : Pool V V) (e : Poolifier.Event V V) (s' : Pool V V) : Prop :=
  ∃ fuel now r, handle fuel e { s with now } = some (r, s')

def State.withWorker (s : State V) (workerId : Nat) (x : AbstractWorker.State V) : State V :=
  { s with workers := Function.update s.workers workerId x }

inductive Step : State V → Event V → State V → Prop
  | pool {s e p} : isResponse e = false → Poolifier.Step s.pool e p → Step s (.pool e) { s with pool := p }
  | worker {s w e x} : e.message = none → AbstractWorker.Step rt type (s.workers w) e x →
      Step s (.worker w e) (s.withWorker w x)
  | deliver {s w t} (start stop) : s.posted w = some t → Listens (s.workers w) →
      Step s (.deliver w t start stop)
        (s.withWorker w ((s.workers w).take rt type (AbstractWorker.received rt t) start stop))
  | reply {s w m p} : s.unhandled w = some m → Handles s.pool (.message w (.taskResponse (m.response rt text))) p →
      Step s (.reply w m) { s with pool := p, handled := Function.update s.handled w (s.handled w + 1) }

deriving instance DecidableEq for EventLoopUtilization, TaskPerformance, Task, AbstractWorker.WorkerError, MessageValue,
  Settlement

instance (s : AbstractWorker.State V) : Decidable (Listens s) :=
  decidable_of_iff (s.statistics.isSome = true ∧ s.uncaught = none ∧ s.closed = none)
    ⟨fun h => ⟨h.1, h.2.1, h.2.2⟩, fun h => ⟨h.1, h.2, h.3⟩⟩

/-- The state after an event, if the event can happen; the pool has some fuel, at time zero. -/
def next [DecidableEq V] (fuel : Nat) (s : State V) : Event V → Option (State V)
  | .pool e =>
    if isResponse e = false ∧ Enabled s.pool e then
      (handle fuel e { s.pool with now := 0 }).map fun (_, p) => { s with pool := p }
    else none
  | .worker w e =>
    if e.message.isNone then (AbstractWorker.next rt type (s.workers w) e).map (s.withWorker w) else none
  | .deliver w t start stop =>
    if s.posted w = some t ∧ Listens (s.workers w) then
      some (s.withWorker w ((s.workers w).take rt type (AbstractWorker.received rt t) start stop))
    else none
  | .reply w m =>
    if s.unhandled w = some m then
      (handle fuel (.message w (.taskResponse (m.response rt text))) { s.pool with now := 0 }).map fun (_, p) =>
        { s with pool := p, handled := Function.update s.handled w (s.handled w + 1) }
    else none

theorem step_of_next [DecidableEq V] {fuel : Nat} {s s' : State V} {e : Event V}
    (h : next rt type text fuel s e = some s') : Step rt type text s e s' := by
  unfold next at h
  cases e with
  | pool e =>
    dsimp only at h
    split at h
    · rename_i hif
      obtain ⟨⟨r, p⟩, hp, rfl⟩ := Option.map_eq_some_iff.1 h
      exact .pool hif.1 ⟨hif.2, fuel, 0, r, hp⟩
    · cases h
  | worker w e =>
    dsimp only at h
    split at h
    · rename_i hif
      obtain ⟨x, hx, rfl⟩ := Option.map_eq_some_iff.1 h
      exact .worker (Option.isNone_iff_eq_none.1 hif) hx
    · cases h
  | deliver w t start stop =>
    dsimp only at h
    split at h
    · rename_i hif
      cases h
      exact .deliver start stop hif.1 hif.2
    · cases h
  | reply w m =>
    dsimp only at h
    split at h
    · rename_i hif
      obtain ⟨⟨r, p⟩, hp, rfl⟩ := Option.map_eq_some_iff.1 h
      exact .reply hif ⟨fuel, 0, r, hp⟩
    · cases h

/-- A pool that has been given no task, and its workers before their first messages. -/
structure Starts (taskFunctions : String → Option (AbstractWorker.TaskFunction V)) (s : State V) : Prop where
  pool : Fresh s.pool
  worker : s.pool.worker = type
  workers : ∀ w, s.workers w = AbstractWorker.created taskFunctions
  handled : ∀ w, s.handled w = 0

/-! ## What the parts see -/

/-- The event of the pool that an event is. -/
def Event.onPool : Event V → Option (Poolifier.Event V V)
  | .pool e => some e
  | .reply w m => some (.message w (.taskResponse (m.response rt text)))
  | _ => none

/-- The event of a worker that an event is. -/
def Event.onWorker (w : Nat) : Event V → Option (AbstractWorker.Event V)
  | .worker w' e => if w' = w then some e else none
  | .deliver w' t start stop => if w' = w then some (.task (AbstractWorker.received rt t) start stop) else none
  | _ => none

/-- The channel of a worker may be closed. -/
def Event.isClosing : Event V → Bool
  | .worker _ e => e.isClosing
  | _ => false

/-- The message of a worker that the pool handles. -/
def Event.replied (w : Nat) : Event V → Option (MessageValue V)
  | .reply w' m => if w' = w then some m else none
  | _ => none

end System

/-! ## Records and what has been given out -/

section Record
variable {V : Type} {p : Pool V V} {t : Task V} {w w' : Nat}

theorem received_le_issued (p : Pool V V) :
    ((p.everyNode.map fun n => (↑n.worker.received : Multiset (Task V))).sum) ≤ p.issued := by
  unfold Pool.everyNode Pool.issued
  rw [List.map_append, List.sum_append]
  refine add_le_add_left (List.sum_le_sum fun n _ => ?_) _
  exact Multiset.le_add_left _ _

theorem record_nodup {es : List (Poolifier.Event V V)} (h : Issued es p) (w : Nat) :
    ((p.record w).received.map (·.taskId)).Nodup := by
  rcases record_cases p w with hw | ⟨n, hn, -, hw⟩
  · rw [hw]
    exact List.nodup_nil
  · rw [hw]
    have hle : (↑n.worker.received : Multiset (Task V)) ≤ p.issued :=
      (List.single_le_sum (fun x _ => Multiset.zero_le x) _ (List.mem_map_of_mem hn)).trans (received_le_issued p)
    have hnodup := Multiset.nodup_of_le (Multiset.map_le_map (f := Task.taskId) hle) h.distinct
    simpa using hnodup

/-- No two workers have been sent tasks with the same id. -/
theorem record_disjoint {es : List (Poolifier.Event V V)} (h : Issued es p) (hne : w ≠ w') {t' : Task V}
    (ht : t ∈ (p.record w).received) (ht' : t' ∈ (p.record w').received) : t.taskId ≠ t'.taskId := by
  rcases record_cases p w with hw | ⟨n, hn, hid, hw⟩
  · rw [hw] at ht
    cases ht
  rcases record_cases p w' with hw' | ⟨n', hn', hid', hw'⟩
  · rw [hw'] at ht'
    cases ht'
  rw [hw] at ht
  rw [hw'] at ht'
  have hpair : [n, n'].Subperm p.everyNode := by
    refine List.subperm_of_subset ?_ ?_
    · simp only [List.nodup_cons, List.mem_singleton, List.not_mem_nil, not_false_iff, List.nodup_nil, and_true]
      rintro rfl
      exact hne (hid.symm.trans hid')
    · simp [hn, hn']
  have hle : (↑n.worker.received : Multiset (Task V)) + ↑n'.worker.received ≤ p.issued := by
    obtain ⟨l, hl, hsub⟩ := hpair
    have hsum := (hl.map fun n => (↑n.worker.received : Multiset (Task V))).sum_eq
    calc (↑n.worker.received : Multiset (Task V)) + ↑n'.worker.received
        = (l.map fun n => (↑n.worker.received : Multiset (Task V))).sum := by
          rw [hsum]
          simp
      _ ≤ (p.everyNode.map fun n => (↑n.worker.received : Multiset (Task V))).sum :=
          (hsub.map _).sum_le_sum fun x _ => Multiset.zero_le x
      _ ≤ p.issued := received_le_issued p
  have hnodup := Multiset.nodup_of_le (Multiset.map_le_map (f := Task.taskId) hle) h.distinct
  rw [Multiset.map_add, Multiset.nodup_add] at hnodup
  intro heq
  refine Multiset.disjoint_left.1 hnodup.2.2 (Multiset.mem_map_of_mem _ (Multiset.mem_coe.2 ht)) ?_
  rw [heq]
  exact Multiset.mem_map_of_mem _ (Multiset.mem_coe.2 ht')

theorem mem_issued_of_record (ht : t ∈ (p.record w).received) : t ∈ p.issued := by
  rcases record_cases p w with hw | ⟨n, hn, -, hw⟩
  · rw [hw] at ht
    cases ht
  · rw [hw] at ht
    have hle : (↑n.worker.received : Multiset (Task V)) ≤ p.issued :=
      (List.single_le_sum (fun x _ => Multiset.zero_le x) _ (List.mem_map_of_mem hn)).trans (received_le_issued p)
    exact Multiset.mem_of_le hle ht

/-- A node that the pool has or had is the one of its worker. -/
theorem nodeOf_of_mem (h : Distinct p) {n : WorkerNode V} (hn : n ∈ p.everyNode) {P : WorkerNode V → Prop} (hP : P n) :
    NodeOf p n.info.id P := by
  rcases List.mem_append.1 hn with hmem | hmem
  · exact .inl ⟨n, hmem, rfl, hP⟩
  · refine .inr ⟨fun m hm hmid => ?_, n, hmem, rfl, hP⟩
    have hdisjoint := (List.nodup_append'.1 (List.map_append ▸ h.ids)).2.2
    exact hdisjoint (List.mem_map_of_mem hm) (hmid ▸ List.mem_map_of_mem hmem)

/-- An unanswered message of a worker is one of its node. -/
theorem nodeOf_of_record (h : Distinct p) {P : WorkerNode V → Prop} (ht : t ∈ (p.record w).unanswered)
    (hP : ∀ n : WorkerNode V, t ∈ n.worker.unanswered → P n) : NodeOf p w P := by
  rcases record_cases p w with hw | ⟨n, hn, rfl, hw⟩
  · rw [hw] at ht
    cases ht
  · rw [hw] at ht
    exact nodeOf_of_mem h hn (hP n ht)

end Record

/-! ## Every run -/

section Runs
variable {V : Type} {rt : Runtime V} {type : WorkerType} {text : V → String} {s₀ s s' : State V} {es : List (Event V)}
  {e : Event V} {w : Nat}

/-- What ties the pool and its workers together, after the events `es` from `s₀`. -/
structure Linked (rt : Runtime V) (type : WorkerType) (text : V → String) (s₀ : State V) (es : List (Event V))
    (s : State V) : Prop where
  pool : Run Poolifier.Step s₀.pool (es.filterMap (·.onPool rt text)) s.pool
  workers : ∀ w, Run (AbstractWorker.Step rt type) (s₀.workers w) (es.filterMap (·.onWorker rt w)) (s.workers w)
  received : ∀ w, (s.workers w).received.map (·.task) <+: (s.pool.record w).received.map (AbstractWorker.received rt)
  handled : ∀ w, s.handled w ≤ (s.workers w).through.length
  replied : ∀ w, es.filterMap (·.replied w) = (s.workers w).sent.take (s.handled w)
  /-- A message whose reply the pool has not handled is unanswered. -/
  unanswered : ∀ w, ∀ t ∈ (s.pool.record w).received,
    t.taskId ∉ ((s.workers w).sent.take (s.handled w)).map (·.taskId) → t ∈ (s.pool.record w).unanswered

theorem State.withWorker_self (s : State V) (w : Nat) (x : AbstractWorker.State V) : (s.withWorker w x).workers w = x := by
  unfold withWorker
  exact Function.update_self ..

theorem State.withWorker_of_ne (s : State V) {w w' : Nat} (hw : w' ≠ w) (x : AbstractWorker.State V) :
    (s.withWorker w x).workers w' = s.workers w' := by
  unfold withWorker
  exact Function.update_of_ne hw ..

theorem take_eq_take {α : Type} {l l' : List α} {n : Nat} (h : l <+: l') (hn : n ≤ l.length) : l'.take n = l.take n := by
  obtain ⟨more, rfl⟩ := h
  exact List.take_append_of_le_length hn

/-- What has been handled is the beginning of what has been sent. -/
theorem Linked.handled_sent (h : Linked rt type text s₀ es s) (w : Nat) : s.handled w ≤ (s.workers w).sent.length :=
  (h.handled w).trans (AbstractWorker.through_initial _).length_le

/-- The next message is one that has been sent. -/
theorem sent_of_unhandled {m : MessageValue V} (h : s.unhandled w = some m) : (s.workers w).sent[s.handled w]? = some m := by
  obtain ⟨rest, hrest⟩ := AbstractWorker.through_initial (s.workers w)
  rw [← hrest, List.getElem?_append_left (List.getElem?_eq_some_iff.1 h).1]
  exact h

theorem Linked.distinct (h : Linked rt type text s₀ es s) (h₀ : Fresh s₀.pool) : Distinct s.pool :=
  h.pool.inv Distinct (distinct_of_fresh h₀) fun _ _ _ hd hs => hd.step hs

theorem Linked.determined (h : Linked rt type text s₀ es s) {taskFunctions : String → Option (AbstractWorker.TaskFunction V)}
    (h₀ : Starts type taskFunctions s₀) (w : Nat) : AbstractWorker.Determined rt type (s.workers w) := by
  refine (h.workers w).inv (AbstractWorker.Determined rt type) ?_ fun _ _ _ hd hs => hd.step hs
  rw [h₀.workers]
  exact AbstractWorker.determined_created rt type taskFunctions

/-- The next message to a worker is posted, and is to a task that the worker has not received. -/
theorem Linked.posted_fresh (h : Linked rt type text s₀ es s) (h₀ : Fresh s₀.pool) {t : Task V} (ht : s.posted w = some t) :
    t ∈ (s.pool.record w).received ∧ t.taskId ∉ (s.workers w).received.map (·.task.taskId) := by
  have hissued := issued_of_run h₀ h.pool
  refine ⟨List.mem_of_getElem? ht, fun hid => ?_⟩
  obtain ⟨l, hl⟩ := h.received w
  -- the message comes right after those that have been received
  have hnext : l.head? = some (AbstractWorker.received rt t) := by
    have hget : ((s.pool.record w).received.map (AbstractWorker.received rt))[(s.workers w).received.length]? =
        some (AbstractWorker.received rt t) := by
      rw [List.getElem?_map]
      exact congrArg _ ht
    rw [← hl, List.getElem?_append_right (by simp), List.length_map, Nat.sub_self] at hget
    rwa [← List.head?_eq_getElem?] at hget
  obtain ⟨rest, rfl⟩ := List.head?_eq_some_iff.1 hnext
  have hids : (s.pool.record w).received.map (·.taskId) =
      (s.workers w).received.map (·.task.taskId) ++ t.taskId :: rest.map (·.taskId) := by
    have hmap := congrArg (List.map AbstractWorker.Task.taskId) hl
    rw [List.map_append, List.map_map, List.map_map, List.map_cons] at hmap
    exact hmap.symm
  have hnodup := record_nodup hissued w
  rw [hids] at hnodup
  exact (List.nodup_append'.1 hnodup).2.2 hid List.mem_cons_self

/-- The next message from a worker is to a task that the worker has been sent, and that has not been answered. -/
theorem Linked.reply_unanswered (h : Linked rt type text s₀ es s) {taskFunctions : String → Option (AbstractWorker.TaskFunction V)}
    (h₀ : Starts type taskFunctions s₀) {m : MessageValue V} (hm : s.unhandled w = some m) :
    ∃ t ∈ (s.pool.record w).unanswered, t.taskId = m.taskId := by
  have hdet := h.determined h₀ w
  obtain ⟨x, hx, hid, -⟩ := hdet.sent m (List.mem_of_getElem? (sent_of_unhandled hm))
  have hx' : x.task ∈ (s.pool.record w).received.map (AbstractWorker.received rt) :=
    (h.received w).subset (List.mem_map_of_mem hx)
  obtain ⟨t, ht, htask⟩ := List.mem_map.1 hx'
  have htid : t.taskId = m.taskId := (congrArg AbstractWorker.Task.taskId htask).trans hid.symm
  refine ⟨t, h.unanswered w t ht fun htaken => ?_, htid⟩
  have hnodup := (List.nodup_append'.1 hdet.once).1
  rw [← List.take_append_drop (s.handled w) (s.workers w).sent, List.map_append] at hnodup
  have hdrop : m ∈ (s.workers w).sent.drop (s.handled w) := by
    refine List.mem_of_getElem? (i := 0) ?_
    rw [List.getElem?_drop]
    exact sent_of_unhandled hm
  exact (List.nodup_append'.1 hnodup).2.2 htaken (htid ▸ List.mem_map_of_mem hdrop)

/-- A worker does something, and the pool nothing. -/
theorem Linked.withWorker (h : Linked rt type text s₀ es s) {taskFunctions : String → Option (AbstractWorker.TaskFunction V)}
    (h₀ : Starts type taskFunctions s₀) {x : AbstractWorker.State V} {we : AbstractWorker.Event V}
    (hpool : e.onPool rt text = none) (hother : ∀ w', w' ≠ w → e.onWorker rt w' = none) (hself : e.onWorker rt w = some we)
    (hstep : AbstractWorker.Step rt type (s.workers w) we x)
    (hreply : ∀ w', e.replied w' = none)
    (hreceived : x.received.map (·.task) <+: (s.pool.record w).received.map (AbstractWorker.received rt)) :
    Linked rt type text s₀ (es ++ [e]) (s.withWorker w x) := by
  have hlogs := AbstractWorker.step_logs (h.determined h₀ w) hstep
  have hsame (w' : Nat) (hw : w' ≠ w) : (s.withWorker w x).workers w' = s.workers w' := s.withWorker_of_ne hw x
  have hat : (s.withWorker w x).workers w = x := s.withWorker_self w x
  refine ⟨h.pool.part (movesPart_of_none hpool), fun w' => ?_, fun w' => ?_, fun w' => ?_, fun w' => ?_, fun w' t ht hnot => ?_⟩
  all_goals by_cases hw : w' = w
  · subst hw
    rw [hat]
    exact (h.workers w').part (movesPart_of_some hself hstep)
  · rw [hsame w' hw]
    exact (h.workers w').part (movesPart_of_none (hother w' hw))
  · subst hw
    rw [hat]
    exact hreceived
  · rw [hsame w' hw]
    exact h.received w'
  · subst hw
    rw [hat]
    exact (h.handled w').trans hlogs.through.length_le
  · rw [hsame w' hw]
    exact h.handled w'
  · subst hw
    rw [hat, List.filterMap_append, List.filterMap_cons_none (hreply w'), List.filterMap_nil, List.append_nil, h.replied]
    exact (take_eq_take hlogs.sent (h.handled_sent w')).symm
  · rw [hsame w' hw, List.filterMap_append, List.filterMap_cons_none (hreply w'), List.filterMap_nil, List.append_nil]
    exact h.replied w'
  · subst hw
    rw [hat] at hnot
    refine h.unanswered w' t ht ?_
    rwa [← take_eq_take hlogs.sent (h.handled_sent w')]
  · rw [hsame w' hw] at hnot
    exact h.unanswered w' t ht hnot

/-- The pool does something, and the workers nothing. -/
theorem Linked.withPool (h : Linked rt type text s₀ es s) (h₀ : Fresh s₀.pool) {pe : Poolifier.Event V V} {p : Pool V V}
    (hpool : e.onPool rt text = some pe) (hworkers : ∀ w, e.onWorker rt w = none) (hstep : Poolifier.Step s.pool pe p)
    (hs : s' = { s with pool := p, handled := s'.handled })
    (hhandled : ∀ w, s'.handled w ≤ (s.workers w).through.length)
    (hreplied : ∀ w, (es ++ [e]).filterMap (·.replied w) = (s.workers w).sent.take (s'.handled w))
    (hunanswered : ∀ w, ∀ t ∈ (s.pool.record w).received,
      t.taskId ∉ ((s.workers w).sent.take (s'.handled w)).map (·.taskId) → t ∈ ((s.pool.taken pe).record w).unanswered) :
    Linked rt type text s₀ (es ++ [e]) s' := by
  have hd := h.distinct h₀
  have hreceived (w : Nat) : ((s.pool.taken pe).record w).received = (s.pool.record w).received := by
    rcases record_taken hd pe w with heq | ⟨m, -, heq⟩ <;> rw [heq]
  rw [hs]
  refine ⟨h.pool.part (movesPart_of_some hpool hstep), fun w => (h.workers w).part (movesPart_of_none (hworkers w)),
    fun w => ?_, hhandled, hreplied, fun w t ht hnot => ?_⟩
  · exact (h.received w).trans ((received_grows hd hstep w).map _)
  · -- what was unanswered is so still, but for the response taken, and what is posted now is unanswered
    obtain ⟨new, hnew⟩ := record_of_step hd hstep w
    dsimp only at ht hnot ⊢
    rw [hnew, Worker.post] at ht ⊢
    rcases List.mem_append.1 ht with ht | ht
    · rw [hreceived] at ht
      exact List.mem_append_left _ (hunanswered w t ht hnot)
    · exact List.mem_append_right _ ht

/-- What an event does to the pool. -/
theorem Linked.movesPool (h : Linked rt type text s₀ es s) {taskFunctions : String → Option (AbstractWorker.TaskFunction V)}
    (h₀ : Starts type taskFunctions s₀) (hstep : Step rt type text s e s') :
    MovesPart Poolifier.Step (·.onPool rt text) e s.pool s'.pool := by
  cases hstep with
  | pool _ hp => exact movesPart_of_some rfl hp
  | worker _ _ => exact movesPart_of_none rfl
  | deliver _ _ _ _ => exact movesPart_of_none rfl
  | @reply w m p hm hp =>
    obtain ⟨t, ht, hid⟩ := h.reply_unanswered h₀ hm
    have henabled : Enabled s.pool (.message w (.taskResponse (m.response rt text))) :=
      nodeOf_of_record (h.distinct h₀.pool) ht fun n hn => List.mem_map.2 ⟨t, hn, hid⟩
    exact movesPart_of_some rfl ⟨henabled, hp⟩

theorem Linked.step (h : Linked rt type text s₀ es s) {taskFunctions : String → Option (AbstractWorker.TaskFunction V)}
    (h₀ : Starts type taskFunctions s₀) (hstep : Step rt type text s e s') : Linked rt type text s₀ (es ++ [e]) s' := by
  cases hstep with
  | @pool pe p hnot hp =>
    have htaken : s.pool.taken pe = s.pool := by
      unfold Pool.taken
      split
      · cases hnot
      · rfl
    refine h.withPool h₀.pool rfl (fun _ => rfl) hp rfl h.handled (fun w => ?_) fun w t ht hnot => ?_
    · rw [List.filterMap_append, h.replied]
      exact List.append_nil _
    · rw [htaken]
      exact h.unanswered w t ht hnot
  | @worker w we x hnot hw =>
    refine h.withWorker h₀ (w := w) rfl (fun w' hw' => if_neg hw'.symm) (if_pos rfl) hw
      (fun _ => rfl) ?_
    rw [(AbstractWorker.step_logs (h.determined h₀ w) hw).received, hnot, Option.map_none, Option.toList_none, List.append_nil]
    exact h.received w
  | @deliver w t start stop ht hl =>
    obtain ⟨hmem, hnew⟩ := h.posted_fresh h₀.pool ht
    refine h.withWorker h₀ (w := w) rfl (fun w' hw' => if_neg hw'.symm) (if_pos rfl)
      (AbstractWorker.step_take start stop hl.uncaught hl.closed hnew) (fun _ => rfl) ?_
    rw [(AbstractWorker.take_logs rt type (s.workers w) (AbstractWorker.received rt t) start stop).received, List.map_append]
    obtain ⟨l, hl'⟩ := h.received w
    have hget : ((s.pool.record w).received.map (AbstractWorker.received rt))[(s.workers w).received.length]? =
        some (AbstractWorker.received rt t) := by
      rw [List.getElem?_map]
      exact congrArg _ ht
    rw [← hl', List.getElem?_append_right (by simp), List.length_map, Nat.sub_self, ← List.head?_eq_getElem?] at hget
    obtain ⟨rest, rfl⟩ := List.head?_eq_some_iff.1 hget
    exact ⟨rest, by rw [← hl', List.append_assoc]; rfl⟩
  | @reply w m p hm hp =>
    have hd := h.distinct h₀.pool
    have hlt := (List.getElem?_eq_some_iff.1 hm).1
    have hone : (s.workers w).sent.take (s.handled w + 1) = (s.workers w).sent.take (s.handled w) ++ [m] := by
      rw [List.take_add_one, sent_of_unhandled hm]
      rfl
    have hpool : (Event.reply w m).onPool rt text = some (.message w (.taskResponse (m.response rt text))) := rfl
    have hmoves := h.movesPool h₀ (.reply hm hp)
    refine h.withPool h₀.pool hpool (fun _ => rfl) (hmoves.moves _ hpool) rfl
      (fun w' => ?_) (fun w' => ?_) fun w' t' ht' hnot => ?_
    all_goals by_cases hw : w' = w
    · subst hw
      dsimp only
      rw [Function.update_self]
      exact hlt
    · dsimp only
      rw [Function.update_of_ne hw]
      exact h.handled w'
    · subst hw
      dsimp only
      rw [Function.update_self, hone, List.filterMap_append, h.replied]
      simp [Event.replied]
    · dsimp only
      rw [Function.update_of_ne hw, List.filterMap_append, h.replied]
      simp [Event.replied, Ne.symm hw]
    · -- the response takes no task but its own off the record
      subst hw
      dsimp only at hnot
      rw [Function.update_self, hone, List.map_append, List.mem_append, not_or] at hnot
      have hold := h.unanswered w' t' ht' hnot.1
      have hne : t'.taskId ≠ (m.response rt text).taskId := fun heq => hnot.2 (List.mem_singleton.2 heq)
      rcases record_taken hd (.message w' (.taskResponse (m.response rt text))) w' with heq | ⟨m', hev, heq⟩
      · rw [heq]
        exact hold
      · cases hev
        rw [heq]
        exact (List.mem_eraseP_of_neg (by simpa using hne)).2 hold
    · dsimp only at hnot
      rw [Function.update_of_ne hw] at hnot
      have hold := h.unanswered w' t' ht' hnot
      rcases record_taken hd (.message w (.taskResponse (m.response rt text))) w' with heq | ⟨m', hev, -⟩
      · rw [heq]
        exact hold
      · cases hev
        exact absurd rfl hw

/-- Whatever happens, workers receive and send more, and forget nothing. -/
theorem Linked.logs (h : Linked rt type text s₀ es s) {taskFunctions : String → Option (AbstractWorker.TaskFunction V)}
    (h₀ : Starts type taskFunctions s₀) (hstep : Step rt type text s e s') (w : Nat) :
    ∃ new, AbstractWorker.Logs new e.isClosing (s.workers w) (s'.workers w) := by
  have hsame : AbstractWorker.Logs [] e.isClosing (s.workers w) (s.workers w) := AbstractWorker.logs_of_same rfl rfl rfl
  have hone {w' : Nat} {x : AbstractWorker.State V} {new : List (AbstractWorker.Received V)}
      (hx : AbstractWorker.Logs new e.isClosing (s.workers w') x) :
      ∃ new, AbstractWorker.Logs new e.isClosing (s.workers w) ((s.withWorker w' x).workers w) := by
    by_cases hw : w = w'
    · subst hw
      rw [s.withWorker_self]
      exact ⟨new, hx⟩
    · rw [s.withWorker_of_ne hw]
      exact ⟨[], hsame⟩
  cases hstep with
  | pool _ _ => exact ⟨[], hsame⟩
  | worker _ hw => exact hone (AbstractWorker.step_logs (h.determined h₀ _) hw)
  | deliver start stop _ _ => exact hone (AbstractWorker.take_logs rt type _ _ start stop)
  | reply _ _ => exact ⟨[], hsame⟩

theorem linked_of_starts {taskFunctions : String → Option (AbstractWorker.TaskFunction V)} (h₀ : Starts type taskFunctions s₀) :
    Linked rt type text s₀ [] s₀ := by
  have hrecord (w : Nat) : s₀.pool.record w = ⟨[], []⟩ := by
    rcases record_cases s₀.pool w with hw | ⟨n, hn, -, hw⟩
    · exact hw
    · rw [hw]
      rw [Pool.everyNode, h₀.pool.removedNodes, List.append_nil] at hn
      exact (h₀.pool.nodes n hn).worker
  refine ⟨.nil, fun w => .nil, fun w => ?_, fun w => ?_, fun w => ?_, fun w t ht => ?_⟩
  · rw [h₀.workers]
    exact List.nil_prefix
  · rw [h₀.handled]
    exact Nat.zero_le _
  · rw [h₀.handled]
    rfl
  · rw [hrecord] at ht
    cases ht

theorem linked_of_run {taskFunctions : String → Option (AbstractWorker.TaskFunction V)} (h₀ : Starts type taskFunctions s₀)
    (hr : Run (Step rt type text) s₀ es s) : Linked rt type text s₀ es s :=
  hr.trace_inv (Linked rt type text s₀) (linked_of_starts h₀) fun _ _ _ _ h hs => h.step h₀ hs

end Runs

/-! ## A run -/

/-- A function that returns its data, and one that rejects them. -/
def echo (name : String) : Option (AbstractWorker.TaskFunction (Option String)) :=
  if name = "fail" then some ⟨true, fun data => .error data, id, fun _ => false⟩
  else some ⟨false, fun data => .ok data, id, fun _ => false⟩

/-- Two thread workers, with a tasks queue. -/
def echoConfig : PoolConfig (Option String) where
  type := .fixed
  worker := .thread
  numberOfWorkers := 2
  max := none
  restartWorkerOnError := true
  enableTasksQueue := true
  tasksQueueOptions := .undefined
  strategyPolicy := ⟨false, true⟩
  taskStatisticsRequirements := ⟨⟨true, false, false⟩, ⟨false, false, false⟩, ⟨false, false, false⟩⟩
  postable := fun _ => true

/-- Before the pool starts its workers. -/
def echoes : State (Option String) where
  pool := initialPool echoConfig
  workers := fun _ => AbstractWorker.created echo
  handled := fun _ => 0

/-- Two calls for the first worker: the second waits in its queue, and is rejected. -/
def callTwice : List (Event (Option String)) :=
  [.pool .start, .worker 0 (.statistics ⟨true, false⟩),
    .pool (.execute 0 none (some "a") (.key 0)), .pool (.execute 1 (some "fail") (some "b") (.key 0)),
    .deliver 0 ⟨"default", some "a", 0, 0⟩ AbstractWorker.still AbstractWorker.still,
    .reply 0 ⟨0, some (some "a"), none, some ⟨"default", 0, some 0, none⟩⟩,
    .deliver 0 ⟨"fail", some "b", 0, 1⟩ AbstractWorker.still AbstractWorker.still,
    .worker 0 (.settle 0 AbstractWorker.still),
    .reply 0 ⟨1, none, some ⟨some "fail", some "b", some "b"⟩, none⟩]

def ofText (v : Option String) : String := v.getD "undefined"

theorem starts_echoes : Starts .thread echo echoes := by
  have hfresh : Fresh (initialPool echoConfig : Pool (Option String) (Option String)) :=
    fresh_initialPool echoConfig false false
  exact ⟨hfresh, rfl, fun _ => rfl, fun _ => rfl⟩

theorem run_callTwice : ∃ s, Run (Step AbstractWorker.symbols .thread ofText) echoes callTwice s ∧
    s.pool.settled = [(0, .resolved (some (some "a"))), (1, .rejected "b")] :=
  exists_run_of_replay (f := next AbstractWorker.symbols .thread ofText 5)
    (fun _ _ _ => step_of_next AbstractWorker.symbols .thread ofText) (by decide +kernel)

end System

end Poolifier
