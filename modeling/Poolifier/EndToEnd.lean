import Poolifier.System
/-!
# From a call to its result

A promise that ends with what a worker has sent ends with what the function of
the call's name, registered on that worker when it received the task, makes of
the data of that same call, as the channel has copied them, and copies the
result. No task is run twice, on whichever worker, and the work that calls cause
is bounded.
-/

namespace Poolifier

open RunLib

/-! ## What ends a promise -/

section Ended
variable {Data Response : Type} {s s' : Pool Data Response} {e : Event Data Response} {q : Nat × Settlement Response}

/-- The event ends a promise so. -/
inductive Ended : Event Data Response → Nat × Settlement Response → Prop
  | threw {taskId name data choice x} : Ended (.execute taskId name data choice) (taskId, .thrown x)
  | answered {w m} : Ended (.message w (.taskResponse m)) (m.taskId, m.settlement)

theorem mem_settled_settle {p : Pool Data Response} {taskId : Nat} {x : Settlement Response}
    (h : q ∈ (p.settle taskId x).settled) : q ∈ p.settled ∨ q = (taskId, x) := by
  unfold Pool.settle at h
  split at h
  · exact .inl h
  · exact (List.mem_append.1 h).imp id List.mem_singleton.1

theorem Effect.settled {r : Except JsError Unit} (h : Effect s e r s') (hq : q ∈ s'.settled) : q ∈ s.settled ∨ Ended e q := by
  have hflow {s₁ s₂ : Pool Data Response} {a b : Multiset (Task Data)} (hf : Flow (s₁, a) (s₂, b)) (hq : q ∈ s₂.settled) :
      q ∈ s₁.settled := hf.rest.2.1 ▸ hq
  cases h with
  | flows hf => exact .inl (hflow hf hq)
  | fails lost _ hf => exact .inl (hflow hf hq)
  | refused hf =>
    rcases mem_settled_settle hq with hq | rfl
    · exact .inl (hflow hf hq)
    · exact .inr .threw
  | @called taskId _ _ _ s₁ _ t k _ hf hf' =>
    have hcalled : q ∈ (s₁.withPromise taskId k).settled := hflow hf' hq
    exact .inl (hflow hf hcalled)
  | @callFails taskId _ _ _ _ s₁ s₂ t k lost _ _ hf hf' _ =>
    rcases mem_settled_settle hq with hq | rfl
    · have hcalled : q ∈ (s₁.withPromise taskId k).settled := hflow hf' hq
      exact .inl (hflow hf hcalled)
    · exact .inr .threw
  | @answered w m _ _ _ k lost _ _ _ hf _ =>
    have hresponded := hflow hf hq
    have hq' : q ∈ ((s.modifyNode (s.getWorkerNodeKeyByWorkerId w) (·.answer m.taskId)).settle m.taskId m.settlement).settled :=
      hresponded
    rcases mem_settled_settle hq' with hq | rfl
    · exact .inl hq
    · exact .inr .answered
  | unknownTask _ _ => exact .inl hq
  | dangling k _ _ _ =>
    rcases mem_settled_settle hq with hq | rfl
    · exact .inl hq
    · exact .inr .answered
  | left _ => exact .inl hq

/-- Every promise that has ended was ended by an event of the run. -/
theorem ended_of_run {s₀ : Pool Data Response} {es : List (Event Data Response)} (h₀ : Fresh s₀) (hr : Run Step s₀ es s) :
    ∀ q ∈ s.settled, ∃ e ∈ es, Ended e q := by
  refine hr.trace_inv (fun es s => ∀ q ∈ s.settled, ∃ e ∈ es, Ended e q) (fun q hq => ?_) fun es s e s' h hstep q hq => ?_
  · rw [h₀.settled] at hq
    cases hq
  · obtain ⟨-, fuel, now, r, hm⟩ := hstep
    rcases (effect_of_handle hm).settled hq with hq | hended
    · obtain ⟨e', he', hended⟩ := h q hq
      exact ⟨e', List.mem_append_left _ he', hended⟩
    · exact ⟨e, List.mem_append_right _ List.mem_cons_self, hended⟩

end Ended

namespace System

open AbstractWorker (Runtime Clock MessageValue)

section Runs
variable {V : Type} {rt : Runtime V} {type : WorkerType} {text : V → String} {s₀ s : State V} {es : List (Event V)}
  {taskFunctions : String → Option (AbstractWorker.TaskFunction V)}

theorem worker_run (h₀ : Starts type taskFunctions s₀) (hr : Run (Step rt type text) s₀ es s) (w : Nat) :
    Run (AbstractWorker.Step rt type) (AbstractWorker.created taskFunctions) (es.filterMap (·.onWorker rt w)) (s.workers w) := by
  rw [← h₀.workers w]
  exact (linked_of_run h₀ hr).workers w

/-- Every run of the pool and its workers is a run of the pool, and a run of each of its workers. -/
theorem parts_of_run (h₀ : Starts type taskFunctions s₀) (hr : Run (Step rt type text) s₀ es s) :
    Run Poolifier.Step s₀.pool (es.filterMap (·.onPool rt text)) s.pool ∧
      ∀ w, Run (AbstractWorker.Step rt type) (AbstractWorker.created taskFunctions) (es.filterMap (·.onWorker rt w))
        (s.workers w) :=
  ⟨(linked_of_run h₀ hr).pool, worker_run h₀ hr⟩

theorem parts_of_callTwice : ∃ s, Run (Step AbstractWorker.symbols .thread ofText) echoes callTwice s ∧
    Run Poolifier.Step echoes.pool (callTwice.filterMap (·.onPool AbstractWorker.symbols ofText)) s.pool ∧
      ∀ w, Run (AbstractWorker.Step AbstractWorker.symbols .thread) (AbstractWorker.created echo)
        (callTwice.filterMap (·.onWorker AbstractWorker.symbols w)) (s.workers w) := by
  obtain ⟨s, hr, -⟩ := run_callTwice
  exact ⟨s, hr, parts_of_run starts_echoes hr⟩

/-! ## Where tasks and replies come from -/

/-- The task delivered to a worker. -/
def Event.delivered (w : Nat) : Event V → Option (Task V)
  | .deliver w' t _ _ => if w' = w then some t else none
  | _ => none

/-- A worker has received the tasks delivered to it. -/
theorem received_eq (h₀ : Starts type taskFunctions s₀) (hr : Run (Step rt type text) s₀ es s) (w : Nat) :
    (s.workers w).received.map (·.task) = (es.filterMap (·.delivered w)).map (AbstractWorker.received rt) := by
  have hreceived := AbstractWorker.received_of_run (AbstractWorker.determined_created rt type taskFunctions) rfl (worker_run h₀ hr w)
  rw [hreceived.2, List.filterMap_filterMap, List.map_filterMap]
  refine List.filterMap_congr fun e he => ?_
  obtain ⟨es₁, s₁, s₂, es₂, -, -, hstep, -⟩ := hr.split he
  cases hstep with
  | pool _ _ => rfl
  | @worker w' we x hnot _ => by_cases hw : w' = w <;> simp [Event.onWorker, Event.delivered, hw, hnot]
  | @deliver w' t start stop _ _ =>
    by_cases hw : w' = w <;> simp [Event.onWorker, Event.delivered, AbstractWorker.Event.message, hw]
  | reply _ _ => rfl

/-- What a worker goes by is what it had when the task was delivered. -/
theorem received_origin (h₀ : Starts type taskFunctions s₀) (hr : Run (Step rt type text) s₀ es s) (w : Nat) :
    ∀ x ∈ (s.workers w).received, ∃ es₁ s₁ t start stop es₂, es = es₁ ++ .deliver w t start stop :: es₂ ∧
      Run (Step rt type text) s₀ es₁ s₁ ∧ s₁.posted w = some t ∧ Listens (s₁.workers w) ∧
      x = (s₁.workers w).receives (AbstractWorker.received rt t) := by
  induction hr with
  | nil =>
    rw [h₀.workers]
    exact List.forall_mem_nil _
  | @step es s e s' hr hstep ih =>
    have hl := linked_of_run h₀ hr
    have hold {x} (hx : x ∈ (s.workers w).received) : ∃ es₁ s₁ t start stop es₂, es ++ [e] = es₁ ++ .deliver w t start stop :: es₂ ∧
        Run (Step rt type text) s₀ es₁ s₁ ∧ s₁.posted w = some t ∧ Listens (s₁.workers w) ∧
        x = (s₁.workers w).receives (AbstractWorker.received rt t) := by
      obtain ⟨es₁, s₁, t, start, stop, es₂, rfl, hrest⟩ := ih x hx
      exact ⟨es₁, s₁, t, start, stop, es₂ ++ [e], by simp, hrest⟩
    intro x hx
    cases hstep with
    | pool _ _ => exact hold hx
    | @worker w' e x' hnot hw =>
      by_cases hww : w = w'
      · subst hww
        rw [s.withWorker_self, (AbstractWorker.step_logs (hl.determined h₀ w) hw).received, hnot, Option.map_none, Option.toList_none,
          List.append_nil] at hx
        exact hold hx
      · rw [s.withWorker_of_ne hww] at hx
        exact hold hx
    | @deliver w' t start stop ht hlistens =>
      by_cases hww : w = w'
      · subst hww
        rw [s.withWorker_self, (AbstractWorker.take_logs ..).received] at hx
        rcases List.mem_append.1 hx with hx | hx
        · exact hold hx
        · exact ⟨es, s, t, start, stop, [], rfl, hr, ht, hlistens, List.mem_singleton.1 hx⟩
      · rw [s.withWorker_of_ne hww] at hx
        exact hold hx
    | reply _ _ => exact hold hx

/-- A task on its way to a worker has been submitted by a call. -/
theorem posted_submitted (h₀ : Starts type taskFunctions s₀) (hr : Run (Step rt type text) s₀ es s) {w : Nat} {t : Task V}
    (ht : s.posted w = some t) : ∃ e, .pool e ∈ es ∧ Submits e t := by
  have hissued := issued_of_run h₀.pool (linked_of_run h₀ hr).pool
  obtain ⟨e, he, hsubmits⟩ := hissued.submitted t (mem_issued_of_record (List.mem_of_getElem? ht))
  obtain ⟨e', he', heq⟩ := List.mem_filterMap.1 he
  cases e' with
  | pool e'' =>
    cases heq
    exact ⟨_, he', hsubmits⟩
  | reply w m =>
    cases heq
    obtain ⟨name, choice, hexecute, -⟩ := hsubmits
    cases hexecute
  | _ => cases heq

/-! ## The result of a call -/

/-- How the promise of a call ends with what a worker has sent, of which the pool gets a copy. -/
def settlement (rt : Runtime V) (text : V → String) : Except (AbstractWorker.WorkerError V) V → Settlement V
  | .ok res => .resolved (some (rt.copy res))
  | .error e => .rejected (text (rt.copy e.message))

theorem settlement_of_says {m : MessageValue V} {r : Except (AbstractWorker.WorkerError V) V} (h : m.Says r) :
    (m.response rt text).settlement = settlement rt text r := by
  cases r with
  | ok res =>
    obtain ⟨hdata, herror⟩ := h
    simp [TaskResponse.settlement, MessageValue.response, hdata, herror, settlement]
  | error e =>
    obtain ⟨hdata, herror⟩ := h
    simp [TaskResponse.settlement, MessageValue.response, herror, settlement]

/-- The task `i` of a call has been delivered to a worker, and `r` is a copy of what its function there makes of the data
that it got. -/
def Computed (rt : Runtime V) (type : WorkerType) (text : V → String) (s₀ : State V) (es : List (Event V)) (i : Nat)
    (r : Settlement V) : Prop :=
  ∃ es₁ s₁ w t start stop es₂, es = es₁ ++ .deliver w t start stop :: es₂ ∧ Run (Step rt type text) s₀ es₁ s₁ ∧
    t.taskId = i ∧ (∃ e, .pool e ∈ es₁ ∧ Submits e t) ∧ Listens (s₁.workers w) ∧
    ∃ reply, ((s₁.workers w).receives (AbstractWorker.received rt t)).reply rt type = some reply ∧ r = settlement rt text reply

/-- The pool has handled a message of a worker: it says what the function of the call made of the data. -/
theorem computed_of_reply (h₀ : Starts type taskFunctions s₀) (hr : Run (Step rt type text) s₀ es s) {w : Nat}
    {m : MessageValue V} (he : .reply w m ∈ es) : Computed rt type text s₀ es m.taskId (m.response rt text).settlement := by
  obtain ⟨es₁, s₁, s₂, es₂, rfl, hr₁, hstep, -⟩ := hr.split he
  cases hstep with
  | reply hm hp =>
    have hdet := (linked_of_run h₀ hr₁).determined h₀ w
    obtain ⟨x, hx, hid, reply, hreply, hsays⟩ := hdet.sent m (List.mem_of_getElem? (sent_of_unhandled hm))
    obtain ⟨es₃, s₃, t, start, stop, es₄, rfl, hr₃, ht, hlistens, rfl⟩ := received_origin h₀ hr₁ w x hx
    refine ⟨es₃, s₃, w, t, start, stop, es₄ ++ .reply w m :: es₂, by simp, hr₃, hid.symm, posted_submitted h₀ hr₃ ht,
      hlistens, reply, hreply, settlement_of_says hsays⟩

/-- Responses reach the pool from its workers only. -/
theorem reply_of_response (hr : Run (Step rt type text) s₀ es s) {e : Event V} (he : e ∈ es) {w : Nat} {m' : TaskResponse V}
    (hon : e.onPool rt text = some (.message w (.taskResponse m'))) : ∃ m, e = .reply w m ∧ m' = m.response rt text := by
  obtain ⟨es₁, s₁, s₂, es₂, -, -, hstep, -⟩ := hr.split he
  cases hstep with
  | pool hnot _ =>
    cases hon
    cases hnot
  | worker _ _ => cases hon
  | deliver _ _ _ _ => cases hon
  | @reply w' m p _ _ =>
    cases hon
    exact ⟨m, rfl, rfl⟩

/-- A promise that has ended was ended by an exception of its call, or by a message of a worker. -/
theorem settled_cases (h₀ : Starts type taskFunctions s₀) (hr : Run (Step rt type text) s₀ es s) {i : Nat}
    {r : Settlement V} (hq : (i, r) ∈ s.pool.settled) :
    (∃ x name data choice, r = .thrown x ∧ .pool (.execute i name data choice) ∈ es) ∨
      ∃ w m, .reply w m ∈ es ∧ m.taskId = i ∧ r = (m.response rt text).settlement := by
  obtain ⟨pe, hpe, hended⟩ := ended_of_run h₀.pool (linked_of_run h₀ hr).pool (i, r) hq
  obtain ⟨e, he, hon⟩ := List.mem_filterMap.1 hpe
  cases hended with
  | @threw _ name data choice x =>
    left
    cases e with
    | pool e' =>
      cases hon
      exact ⟨x, name, data, choice, rfl, he⟩
    | _ => cases hon
  | @answered w m' =>
    right
    obtain ⟨m, rfl, rfl⟩ := reply_of_response hr he hon
    exact ⟨w, m, he, rfl, rfl⟩

/-- The id of the task delivered. -/
def Event.deliveredId : Event V → Option Nat
  | .deliver _ t _ _ => some t.taskId
  | _ => none

/-- The id of the call made. -/
def Event.calledId : Event V → Option Nat
  | .pool (.execute taskId ..) => some taskId
  | _ => none

/-- A task that has been delivered is one of its worker's. -/
theorem delivered_received (h₀ : Starts type taskFunctions s₀) (hr : Run (Step rt type text) s₀ es s) {w : Nat} {t : Task V}
    {start stop : Clock} (he : .deliver w t start stop ∈ es) :
    t.taskId ∈ (s.workers w).received.map (·.task.taskId) ∧ ∃ t' ∈ (s.pool.record w).received, t'.taskId = t.taskId := by
  have hmem : AbstractWorker.received rt t ∈ (s.workers w).received.map (·.task) := by
    rw [received_eq h₀ hr w]
    exact List.mem_map_of_mem (List.mem_filterMap.2 ⟨_, he, if_pos rfl⟩)
  obtain ⟨x, hx, htask⟩ := List.mem_map.1 hmem
  obtain ⟨t', ht', heq⟩ := List.mem_map.1 (((linked_of_run h₀ hr).received w).subset hmem)
  exact ⟨List.mem_map.2 ⟨x, hx, congrArg AbstractWorker.Task.taskId htask⟩, t', ht',
    congrArg AbstractWorker.Task.taskId heq⟩

/-- No task is delivered twice, to the same worker or to two of them. -/
theorem nodup_deliveredIds (h₀ : Starts type taskFunctions s₀) (hr : Run (Step rt type text) s₀ es s) :
    (es.filterMap Event.deliveredId).Nodup := by
  induction hr with
  | nil => exact List.nodup_nil
  | @step es s e s' hr hstep ih =>
    rw [List.filterMap_append]
    cases hstep with
    | @deliver w t start stop ht _ =>
      refine List.nodup_append'.2 ⟨ih, List.nodup_singleton _, fun i hi hi' => ?_⟩
      obtain rfl : i = t.taskId := List.mem_singleton.1 hi'
      have hl := linked_of_run h₀ hr
      obtain ⟨hmem, hnew⟩ := hl.posted_fresh h₀.pool ht
      obtain ⟨e, he, hid⟩ := List.mem_filterMap.1 hi
      cases e with
      | deliver w' t' start' stop' =>
        have hid' : t'.taskId = t.taskId := Option.some.inj hid
        obtain ⟨hreceived, t'', ht'', hid''⟩ := delivered_received h₀ hr he
        by_cases hw : w' = w
        · -- the worker would have received the task before
          subst hw
          exact hnew (hid' ▸ hreceived)
        · exact record_disjoint (issued_of_run h₀.pool hl.pool) hw ht'' hmem (hid''.trans hid')
      | _ => cases hid
    | pool _ _ => exact (List.append_nil _).symm ▸ ih
    | worker _ _ => exact (List.append_nil _).symm ▸ ih
    | reply _ _ => exact (List.append_nil _).symm ▸ ih

theorem delivered_submitted (h₀ : Starts type taskFunctions s₀) (hr : Run (Step rt type text) s₀ es s) {w : Nat} {t : Task V}
    {start stop : Clock} (he : .deliver w t start stop ∈ es) : ∃ e, .pool e ∈ es ∧ Submits e t := by
  obtain ⟨es₁, s₁, s₂, es₂, rfl, hr₁, hstep, -⟩ := hr.split he
  cases hstep with
  | deliver _ _ ht _ =>
    obtain ⟨e, he', hsubmits⟩ := posted_submitted h₀ hr₁ ht
    exact ⟨e, List.mem_append_left _ he', hsubmits⟩

theorem deliveredIds_subset (h₀ : Starts type taskFunctions s₀) (hr : Run (Step rt type text) s₀ es s) :
    es.filterMap Event.deliveredId ⊆ es.filterMap Event.calledId := by
  intro i hi
  obtain ⟨e, he, hid⟩ := List.mem_filterMap.1 hi
  cases e with
  | deliver w t start stop =>
    obtain ⟨e', he', name, choice, rfl, -⟩ := delivered_submitted h₀ hr he
    exact List.mem_filterMap.2 ⟨_, he', hid⟩
  | _ => cases hid

/-! ## The work of a run -/

/-- The worker that an event is about. -/
def Event.workerId : Event V → Option Nat
  | .pool _ => none
  | .worker w _ => some w
  | .deliver w .. => some w
  | .reply w _ => some w

def Event.isCall : Event V → Bool
  | .pool (.execute ..) => true
  | _ => false

def Event.isDelivery : Event V → Bool
  | .deliver .. => true
  | _ => false

/-- A promise of a worker settles. -/
def Event.isSettlement : Event V → Bool
  | .worker _ (.settle ..) => true
  | _ => false

def Event.isReply : Event V → Bool
  | .reply .. => true
  | _ => false

/-- The pool and its workers go on with what has been asked of them. -/
def Event.isWork (e : Event V) : Bool := e.isDelivery || e.isSettlement || e.isReply

/-- A worker has received what has been delivered to it. -/
theorem countP_delivery (h₀ : Starts type taskFunctions s₀) (hr : Run (Step rt type text) s₀ es s) (w : Nat) :
    es.countP (fun e => e.isDelivery && e.workerId = some w) = (s.workers w).received.length := by
  have hlength := congrArg List.length (received_eq h₀ hr w)
  rw [List.length_map, List.length_map, List.length_filterMap_eq_countP] at hlength
  rw [hlength]
  congr 1
  funext e
  cases e with
  | deliver w' t start stop => by_cases hw : w' = w <;> simp [Event.isDelivery, Event.workerId, Event.delivered, hw]
  | _ => rfl

/-- No more replies are handled than have been sent, and no more sent than tasks received. -/
theorem countP_reply_le (h₀ : Starts type taskFunctions s₀) (hr : Run (Step rt type text) s₀ es s) (w : Nat) :
    es.countP (fun e => e.isReply && e.workerId = some w) ≤ (s.workers w).received.length := by
  have hl := linked_of_run h₀ hr
  have hdet := hl.determined h₀ w
  have hlength := congrArg List.length (hl.replied w)
  rw [List.length_filterMap_eq_countP] at hlength
  have hcount : es.countP (fun e => e.isReply && e.workerId = some w) = ((s.workers w).sent.take (s.handled w)).length := by
    rw [← hlength]
    congr 1
    funext e
    cases e with
    | reply w' m => by_cases hw : w' = w <;> simp [Event.isReply, Event.workerId, Event.replied, hw]
    | _ => rfl
  have hsent : (s.workers w).sent.length ≤ (s.workers w).received.length := by
    have hsub : (s.workers w).sent.map (·.taskId) ⊆ (s.workers w).received.map AbstractWorker.Received.id :=
      fun i hi => hdet.known (List.mem_append_left _ hi)
    have hle := (List.subperm_of_subset (List.nodup_append'.1 hdet.once).1 hsub).length_le
    rwa [List.length_map, List.length_map] at hle
  rw [hcount]
  exact (List.length_take_le' _ _).trans hsent

/-- The promises that have settled, and those that run, belong to tasks received. -/
theorem countP_settlement_le (h₀ : Starts type taskFunctions s₀) (hr : Run (Step rt type text) s₀ es s) (w : Nat) :
    es.countP (fun e => e.isSettlement && e.workerId = some w) ≤ (s.workers w).received.length := by
  have hle := AbstractWorker.settlements_le (worker_run h₀ hr w)
  rw [List.countP_filterMap] at hle
  refine le_trans (le_of_eq ?_) hle
  congr 1
  funext e
  cases e with
  | worker w' e' =>
    by_cases hw' : w' = w <;> cases e' <;>
      simp [Event.isSettlement, Event.workerId, Event.onWorker, AbstractWorker.Event.isSettlement, hw']
  | deliver w' t start stop =>
    by_cases hw' : w' = w <;>
      simp [Event.isSettlement, Event.onWorker, AbstractWorker.Event.isSettlement, hw']
  | _ => rfl

/-- Whatever is stolen, redistributed or sent again, the work done is at most three steps for every call. -/
theorem work_bounded (h₀ : Starts type taskFunctions s₀) (hr : Run (Step rt type text) s₀ es s) :
    es.countP Event.isWork ≤ 3 * es.countP Event.isCall := by
  have hdelivery : es.countP Event.isDelivery ≤ es.countP Event.isCall := by
    have hle := (List.subperm_of_subset (nodup_deliveredIds h₀ hr) (deliveredIds_subset h₀ hr)).length_le
    rw [List.length_filterMap_eq_countP, List.length_filterMap_eq_countP] at hle
    have hdelivered : es.countP Event.isDelivery = es.countP fun e => (e.deliveredId).isSome := by
      congr 1
      funext e
      cases e <;> rfl
    have hcalled : es.countP Event.isCall = es.countP fun e => (e.calledId).isSome := by
      congr 1
      funext e
      cases e with
      | pool e => cases e <;> rfl
      | _ => rfl
    rwa [hdelivered, hcalled]
  have hreply : es.countP Event.isReply ≤ es.countP Event.isDelivery := by
    refine countP_le_of_parts Event.workerId (fun e _ he => ?_) fun w => ?_
    · cases e <;> first | rfl | cases he
    · rw [countP_delivery h₀ hr w]
      exact countP_reply_le h₀ hr w
  have hsettlement : es.countP Event.isSettlement ≤ es.countP Event.isDelivery := by
    refine countP_le_of_parts Event.workerId (fun e _ he => ?_) fun w => ?_
    · cases e <;> first | rfl | cases he
    · rw [countP_delivery h₀ hr w]
      exact countP_settlement_le h₀ hr w
  have hwork : es.countP Event.isWork ≤ es.countP Event.isDelivery + es.countP Event.isSettlement + es.countP Event.isReply := by
    -- an event is of one of the three kinds at most
    clear hdelivery hreply hsettlement hr
    induction es with
    | nil => simp
    | cons e es ih =>
      simp only [List.countP_cons]
      have hone : (if e.isWork = true then 1 else 0) ≤ (if e.isDelivery = true then 1 else 0) +
          (if e.isSettlement = true then 1 else 0) + if e.isReply = true then 1 else 0 := by
        unfold Event.isWork
        cases e.isDelivery <;> cases e.isSettlement <;> cases e.isReply <;> simp
      omega
  omega

theorem work_bounded_callTwice : ∃ s, Run (Step AbstractWorker.symbols .thread ofText) echoes callTwice s ∧
    callTwice.countP Event.isWork ≤ 3 * callTwice.countP Event.isCall := by
  obtain ⟨s, hr, -⟩ := run_callTwice
  exact ⟨s, hr, work_bounded starts_echoes hr⟩

end Runs

end System

end Poolifier
