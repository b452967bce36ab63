import Poolifier.Conservation
import Poolifier.Counters
import Poolifier.EndToEnd
/-!
# When nothing is left to do

A pool and its workers are quiet when all messages have been handled and no
function runs. Then every call that a fixed pool has accepted has had its
result, if its tasks can be answered and no response has uncovered a queue:
nothing is left behind in a queue, on its way, or in the map of promises.
-/

namespace Poolifier

open RunLib

/-! ## The pool -/

section Pool
variable {Data Response : Type} {s s' : Pool Data Response} {es : List (Event Data Response)}

/-- Over a fixed set of workers the books are kept. -/
theorem ledger_of_run {s₀ : Pool Data Response} (h₀ : Fresh s₀) (hfixed : s₀.type = .fixed ∨ s₀.full = true)
    (hsend : ∀ t, s₀.postable t = true) (hr : Run (Guarded FixedEvent Step) s₀ es s) : Ledger s₀.started es s :=
  hr.trace_inv (Ledger s₀.started) (ledger_of_fresh h₀ hfixed hsend) fun es s e s' hl hs => by
    obtain ⟨now, hstep⟩ := fixedStep_of_step hl.pool hs.1 hs.2
    exact (hl.now now).step hstep

/-- Nothing waits, and nothing is unanswered: all that was accepted has been settled. -/
theorem Conservation.settled {started : Bool} (h : Conservation started es s) (hidle : ∀ n ∈ s.workerNodes,
    n.tasksQueue = [] ∧ n.worker.unanswered = []) : ∀ i ∈ acceptedIds started es, ∃ r, (i, r) ∈ s.settled ∧ (i, r) ∈ responses es := by
  intro i hi
  have hplaces : s.places i = 0 := by
    unfold Pool.places
    refine List.sum_eq_zero fun x hx => ?_
    obtain ⟨n, hn, rfl⟩ := List.mem_map.1 hx
    rw [(hidle n hn).1, (hidle n hn).2]
    rfl
  have hsettled : i ∈ s.settled.map Prod.fst := by
    by_contra hnot
    have hone := h.onePlace i hi hnot
    omega
  obtain ⟨q, hq, rfl⟩ := List.mem_map.1 hsettled
  refine ⟨q.2, hq, ?_⟩
  rw [← h.byOwnResponse]
  exact List.mem_filter.2 ⟨hq, by simpa using hi⟩

/-- Responses that keep the cover leave no queue without a task in flight. -/
theorem awaiting_of_run {s₀ : Pool Data Response} {c : Nat} (h₀ : Fresh s₀) (hfixed : s₀.type = .fixed ∨ s₀.full = true)
    (hsend : ∀ t, s₀.postable t = true) (hq : s₀.opts.enableTasksQueue = true) (hconc : s₀.concurrency = some c) (hc : 0 < c)
    (hr : Run (Guarded (fun s e => QueueEvent s e ∧ KeepsCover s e) Step) s₀ es s) : s.All (Awaiting fun _ => False) := by
  have hkept : Kept Response True s₀.concurrency (Awaiting (fun _ => False) : Nat → WorkerNode Data → Prop) := by
    rw [hconc]
    exact (kept_awaiting _ hc).guarded
  refine all_of_run h₀ hfixed hsend hq hr hkept (fun i n hn => ?_) fun s s' w m k fuel n now hp hcover hs hx => ?_
  · unfold Awaiting
    rw [hn.executing, hn.worker, hn.tasksQueue]
    exact ⟨Nat.zero_le _, fun hne => absurd rfl hne⟩
  · refine hx.awaiting (hp.now now).pool hc (hp.concurrency.trans hconc) ?_ hs hcover
    exact (congrArg PoolOptions.enableTasksQueue hp.opts).trans hq

end Pool

namespace System

open AbstractWorker (Runtime Clock MessageValue)

section Runs
variable {V : Type} {rt : Runtime V} {type : WorkerType} {text : V → String} {s₀ s s' : State V} {es : List (Event V)}
  {e : Event V} {taskFunctions : String → Option (AbstractWorker.TaskFunction V)}

/-- No message is on its way, and no function runs. -/
structure State.Quiet (s : State V) : Prop where
  posted : ∀ w, s.posted w = none
  running : ∀ w, (s.workers w).running = []
  unhandled : ∀ w, s.unhandled w = none

/-- The events of a fixed set of workers with queues and open channels, whose responses keep the cover. -/
def Covered (rt : Runtime V) (text : V → String) (s : State V) (e : Event V) : Prop :=
  (∀ pe ∈ e.onPool rt text, QueueEvent s.pool pe ∧ KeepsCover s.pool pe) ∧ e.isClosing = false

instance (rt : Runtime V) (text : V → String) (s : State V) (e : Event V) : Decidable (Covered rt text s e) := by
  unfold Covered
  infer_instance

theorem open_of_run (h₀ : Starts type taskFunctions s₀)
    (hr : Run (Guarded (fun _ e => e.isClosing = false) (Step rt type text)) s₀ es s) (w : Nat) : (s.workers w).closed = none := by
  refine (hr.trace_inv (fun es s => Linked rt type text s₀ es s ∧ (s.workers w).closed = none) ⟨linked_of_starts h₀, ?_⟩ ?_).2
  · rw [h₀.workers]
    rfl
  · rintro es s e s' ⟨hl, hopen⟩ ⟨hnot, hstep⟩
    obtain ⟨new, hlogs⟩ := hl.logs h₀ hstep w
    rw [hnot] at hlogs
    exact ⟨hl.step h₀ hstep, hlogs.opened.trans hopen⟩

/-- A condition on what the pool does is one on its run. -/
theorem pool_run_of_guarded {ok : Pool V V → Poolifier.Event V V → Prop} (h₀ : Starts type taskFunctions s₀)
    (hr : Run (Guarded (fun s e => ∀ pe ∈ e.onPool rt text, ok s.pool pe) (Step rt type text)) s₀ es s) :
    Run (Guarded ok Poolifier.Step) s₀.pool (es.filterMap (·.onPool rt text)) s.pool :=
  hr.part_guarded ok State.pool (Linked rt type text s₀) (linked_of_starts h₀) fun _ _ _ _ h hs => ⟨h.step h₀ hs, h.movesPool h₀ hs⟩

/-- In a quiet state all that has been posted has been received. -/
theorem State.Quiet.received (hquiet : s.Quiet) (hl : Linked rt type text s₀ es s) {w : Nat} {t : Task V}
    (ht : t ∈ (s.pool.record w).received) : ∃ x ∈ (s.workers w).received, x.task = AbstractWorker.received rt t := by
  have hlength : (s.pool.record w).received.length ≤ (s.workers w).received.length :=
    List.getElem?_eq_none_iff.1 (hquiet.posted w)
  have hall : (s.workers w).received.map (·.task) = (s.pool.record w).received.map (AbstractWorker.received rt) := by
    refine (hl.received w).eq_of_length_le ?_
    rw [List.length_map, List.length_map]
    exact hlength
  have hmem := List.mem_map_of_mem (f := AbstractWorker.received rt) ht
  rw [← hall] at hmem
  exact List.mem_map.1 hmem

/-- In a quiet state every task that can be answered has been, and the pool has handled the reply. -/
theorem State.Quiet.replied (hquiet : s.Quiet) (h₀ : Starts type taskFunctions s₀) (hr : Run (Step rt type text) s₀ es s)
    {w : Nat} (hopen : (s.workers w).closed = none) (hanswerable : ∀ x ∈ (s.workers w).received, x.Answerable rt type)
    {t : Task V} (ht : t ∈ (s.pool.record w).received) : ∃ m : MessageValue V, .reply w m ∈ es ∧ m.taskId = t.taskId := by
  have hl := linked_of_run h₀ hr
  obtain ⟨x, hx, htask⟩ := hquiet.received hl ht
  obtain ⟨-, hreplying⟩ := AbstractWorker.replying_of_run (worker_run h₀ hr w)
  have hstat : x.statistics = true := by
    obtain ⟨es₁, s₁, t', start, stop, es₂, -, -, -, hlistens, rfl⟩ := received_origin h₀ hr w x hx
    exact hlistens.statistics
  have hdone : ¬ (s.workers w).Runs x.id := by
    rintro ⟨r, hrun, -⟩
    rw [hquiet.running w] at hrun
    cases hrun
  have hreply := ((AbstractWorker.Received.answerable_iff rt type x hstat).1 (hanswerable x hx)).1
  -- what is neither replied to nor late has no reply, and the channel is open
  have hsent : x.id ∈ (s.workers w).sent.map (·.taskId) := by
    rcases hreplying.complete x hx hdone with hsent | hlate | hnone
    · exact hsent
    · rw [hreplying.onTime hopen] at hlate
      cases hlate
    · rw [hnone] at hreply
      cases hreply
  obtain ⟨m, hm, hid⟩ := List.mem_map.1 hsent
  have htid : m.taskId = t.taskId := hid.trans (congrArg AbstractWorker.Task.taskId htask)
  have hlength : (s.workers w).sent.length ≤ s.handled w := by
    rw [← AbstractWorker.through_of_open hopen]
    exact List.getElem?_eq_none_iff.1 (hquiet.unhandled w)
  have hhandled : m ∈ es.filterMap (·.replied w) := by
    rw [hl.replied w, List.take_of_length_le hlength]
    exact hm
  obtain ⟨e, he, heq⟩ := List.mem_filterMap.1 hhandled
  cases e with
  | reply w' m' =>
    by_cases hw : w' = w
    · have hm' : m' = m := Option.some.inj ((if_pos hw).symm.trans heq)
      exact ⟨m, hw ▸ hm' ▸ he, htid⟩
    · cases (if_neg hw).symm.trans heq
  | _ => cases heq

/-- A quiet pool has ended the promise of every call it has accepted, with the result of the call's function. -/
theorem settled_of_quiescent {c : Nat} (h₀ : Starts type taskFunctions s₀)
    (hfixed : s₀.pool.type = .fixed ∨ s₀.pool.full = true) (hsend : ∀ t, s₀.pool.postable t = true)
    (hq : s₀.pool.opts.enableTasksQueue = true) (hconc : s₀.pool.concurrency = some c) (hc : 0 < c)
    (hr : Run (Guarded (Covered rt text) (Step rt type text)) s₀ es s) (hquiet : s.Quiet)
    (hanswerable : ∀ w, ∀ x ∈ (s.workers w).received, x.Answerable rt type) :
    ∀ i ∈ acceptedIds s₀.pool.started (es.filterMap (·.onPool rt text)),
      ∃ r, (i, r) ∈ s.pool.settled ∧ Computed rt type text s₀ es i r := by
  have hrun : Run (Step rt type text) s₀ es s := hr.mono fun _ _ _ h => h.2
  have hpool : Run (Guarded (fun s e => QueueEvent s e ∧ KeepsCover s e) Poolifier.Step) s₀.pool
      (es.filterMap (·.onPool rt text)) s.pool :=
    pool_run_of_guarded h₀ (hr.mono fun _ _ _ h => ⟨h.1.1, h.2⟩)
  have hopen := open_of_run h₀ (hr.mono fun _ _ _ h => ⟨h.1.2, h.2⟩)
  have hledger := ledger_of_run h₀.pool hfixed hsend (hpool.mono fun _ _ _ h => ⟨h.1.1.fixedEvent, h.2⟩)
  have hconserved := hledger.conservation
  have hanswered (n : WorkerNode V) (hn : n ∈ s.pool.workerNodes) : n.worker.unanswered = [] := by
    have hrecord : s.pool.record n.info.id = n.worker :=
      record_of_mem ((linked_of_run h₀ hrun).distinct h₀.pool) (List.mem_append_left _ hn)
    refine List.eq_nil_iff_forall_not_mem.2 fun t ht => ?_
    have hreceived : t ∈ (s.pool.record n.info.id).received :=
      (unanswered_sublist h₀.pool (hpool.mono fun _ _ _ h => h.2) n.info.id).subset (hrecord ▸ ht)
    obtain ⟨m, hm, hid⟩ := hquiet.replied h₀ hrun (hopen _) (hanswerable _) hreceived
    -- a task that is still unanswered has not been settled, and this one has
    have hresponse : (t.taskId, (m.response rt text).settlement) ∈ responses (es.filterMap (·.onPool rt text)) := by
      refine List.mem_filterMap.2 ⟨_, List.mem_filterMap.2 ⟨_, hm, rfl⟩, ?_⟩
      rw [← hid]
      rfl
    rw [← hconserved.byOwnResponse] at hresponse
    have hplaced : s.pool.places t.taskId ≠ 0 := by
      rw [Pool.places_eq]
      have hmem : t ∈ s.pool.placed := Pool.mem_placed.2 ⟨n, hn, WorkerNode.mem_held.2 (.inr ht)⟩
      exact Multiset.count_ne_zero.2 (Multiset.mem_map_of_mem _ hmem)
    exact (hconserved.noOther _ hplaced).2 (List.mem_map_of_mem (List.mem_filter.1 hresponse).1)
  have hidle (n : WorkerNode V) (hn : n ∈ s.pool.workerNodes) : n.tasksQueue = [] ∧ n.worker.unanswered = [] := by
    refine ⟨?_, hanswered n hn⟩
    -- a queue that is not empty awaits a response of its own worker
    by_contra hne
    obtain ⟨i, hi⟩ := List.getElem?_of_mem hn
    rcases (awaiting_of_run h₀.pool hfixed hsend hq hconc hc hpool i n hi).2 hne with hf | hu
    · exact hf
    · exact hu (hanswered n hn)
  intro i hi
  obtain ⟨r, hsettled, hresponse⟩ := hconserved.settled hidle i hi
  refine ⟨r, hsettled, ?_⟩
  obtain ⟨pe, hpe, heq⟩ := List.mem_filterMap.1 hresponse
  obtain ⟨e, he, hon⟩ := List.mem_filterMap.1 hpe
  unfold response at heq
  split at heq
  · obtain ⟨m, rfl, rfl⟩ := reply_of_response hrun he hon
    cases heq
    exact computed_of_reply h₀ hrun he
  · cases heq

/-- Workers that have not joined the pool have been sent nothing, and have received nothing. -/
theorem nothing_received (h₀ : Starts type taskFunctions s₀) (hr : Run (Step rt type text) s₀ es s) {w : Nat}
    (hw : ¬ w < s.pool.nextWorkerId) : s.pool.record w = ⟨[], []⟩ ∧ (s.workers w).received = [] := by
  have hl := linked_of_run h₀ hr
  have hrecord : s.pool.record w = ⟨[], []⟩ :=
    record_of_forall_ne fun n hn hid => hw (hid ▸ (hl.distinct h₀.pool).below n hn)
  have hprefix := hl.received w
  rw [hrecord] at hprefix
  exact ⟨hrecord, List.map_eq_nil_iff.1 (List.prefix_nil.1 hprefix)⟩

/-- Workers that have not joined the pool are quiet. -/
theorem quiet_of_joined (h₀ : Starts type taskFunctions s₀) (hr : Run (Step rt type text) s₀ es s)
    (hjoined : ∀ w < s.pool.nextWorkerId,
      (s.posted w).isNone = true ∧ (s.workers w).running.isEmpty = true ∧ (s.unhandled w).isNone = true) : s.Quiet := by
  have hl := linked_of_run h₀ hr
  have hnone (w : Nat) (hw : ¬ w < s.pool.nextWorkerId) (i : Nat) :
      i ∉ (s.workers w).sent.map (·.taskId) ++ (s.workers w).running.map (·.task.taskId) := by
    intro hi
    have hknown := (hl.determined h₀ w).known hi
    rw [(nothing_received h₀ hr hw).2] at hknown
    cases hknown
  refine ⟨fun w => ?_, fun w => ?_, fun w => ?_⟩
  all_goals by_cases hw : w < s.pool.nextWorkerId
  · exact Option.isNone_iff_eq_none.1 (hjoined w hw).1
  · unfold State.posted
    rw [(nothing_received h₀ hr hw).1]
    rfl
  · exact List.isEmpty_iff.1 (hjoined w hw).2.1
  · refine List.eq_nil_iff_forall_not_mem.2 fun r hrun => hnone w hw r.task.taskId ?_
    exact List.mem_append_right _ (List.mem_map_of_mem hrun)
  · exact Option.isNone_iff_eq_none.1 (hjoined w hw).2.2
  · refine Option.eq_none_iff_forall_ne_some.2 fun m hm => hnone w hw m.taskId ?_
    exact List.mem_append_left _ (List.mem_map_of_mem (List.mem_of_getElem? (sent_of_unhandled hm)))

end Runs

/-! ## A run -/

/-- A value that tells nothing, and that every channel clones. -/
def units : Runtime Unit where
  ofString _ := ()
  ofError _ := ()
  instanceofError _ := .ok true
  readMessage _ := .ok ()
  isNullish _ := false
  clone _ := .ok ()
  copy := id
  clone_ofString _ := rfl

theorem answerable_units {x : AbstractWorker.Received Unit} (h : x.strays units = false) : x.Answerable units .thread := by
  refine ⟨rfl, h, ?_⟩
  rcases x.fn with _ | fn
  · rfl
  · dsimp only
    rcases fn.call x.task.data with e | res
    · exact ⟨e, rfl, rfl, rfl⟩
    · exact .inl rfl

/-- A started pool of two thread workers with queues. -/
def idle : State Unit where
  pool := startedPool 2 true ⟨some 4, some 1, true, true⟩
  workers := fun _ => AbstractWorker.created fun _ => some ⟨true, fun data => .ok data, id, fun _ => false⟩
  handled := fun _ => 0

/-- The second of two tasks waits for the first. -/
def drain : List (Event Unit) :=
  let run (taskId : Nat) : List (Event Unit) :=
    [.deliver 0 ⟨"default", (), 0, taskId⟩ AbstractWorker.still AbstractWorker.still,
      .worker 0 (.settle 0 AbstractWorker.still), .reply 0 ⟨taskId, some (), none, some ⟨"default", 0, none, none⟩⟩]
  [.worker 0 (.statistics ⟨false, false⟩), .pool (submit 0 0), .pool (submit 1 0)] ++ run 0 ++ run 1

theorem run_drain : ∃ s, Run (Guarded (Covered units fun _ => "") (Step units .thread fun _ => "")) idle drain s ∧
    (∀ w < s.pool.nextWorkerId,
      (s.posted w).isNone = true ∧ (s.workers w).running.isEmpty = true ∧ (s.unhandled w).isNone = true) ∧
    ∀ w < s.pool.nextWorkerId, ∀ x ∈ (s.workers w).received, x.strays units = false :=
  exists_run_of_replay (f := nextWhere (Covered units fun _ => "") (next units .thread (fun _ => "") 5))
    (guarded_of_nextWhere fun _ _ _ => step_of_next units .thread fun _ => "") (by decide +kernel)

theorem settled_of_quiescent_drain : ∃ s, Run (Guarded (Covered units fun _ => "") (Step units .thread fun _ => "")) idle drain s ∧
    ∀ i ∈ acceptedIds true (drain.filterMap (·.onPool units fun _ => "")),
      ∃ r, (i, r) ∈ s.pool.settled ∧ Computed units .thread (fun _ => "") idle drain i r := by
  have h₀ : Starts .thread (fun _ => some ⟨true, fun data => .ok data, id, fun _ => false⟩) idle :=
    ⟨fresh_startedPool 2 true _, rfl, fun _ => rfl, fun _ => rfl⟩
  obtain ⟨s, hr, hjoined, hstrays⟩ := run_drain
  have hrun := hr.mono fun _ _ _ h => h.2
  refine ⟨s, hr, settled_of_quiescent h₀ (.inl rfl) (fun _ => rfl) rfl rfl (by decide) hr (quiet_of_joined h₀ hrun hjoined)
    fun w x hx => answerable_units ?_⟩
  by_cases hw : w < s.pool.nextWorkerId
  · exact hstrays w hw x hx
  · rw [(nothing_received h₀ hrun hw).2] at hx
    cases hx

end System

end Poolifier
