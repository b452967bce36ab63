import Poolifier.Fifo
/-!
# A concurrency that changes while tasks wait

Without stealing, a response starts one waiting task at most, and `execute`
starts none while one waits. So a node on which tasks wait starts as many as
have ended, and where `setTasksQueueOptions` raises the concurrency it stays
below it until its queue is empty. `RefillsQuota` says exactly at which events
that shows.
-/

namespace Poolifier

open EffLib RunLib WorkerNode

variable {Data Response : Type}

/-! ## The quota of a node -/

/-- `executing >= tasksQueueOptions.concurrency`. -/
def Pool.AtQuota (p : Pool Data Response) (n : WorkerNode Data) : Prop :=
  ∃ c ∈ p.concurrency, c ≤ n.usage.tasks.executing

instance (p : Pool Data Response) (n : WorkerNode Data) : Decidable (p.AtQuota n) :=
  inferInstanceAs (Decidable (∃ c ∈ p.concurrency, c ≤ _))

section Node
variable {p : Pool Data Response} {n : WorkerNode Data}

theorem Pool.not_belowConcurrency_iff {c : Nat} (hc : p.concurrency = some c) :
    ¬ p.belowConcurrency n = true ↔ p.AtQuota n := by
  unfold Pool.belowConcurrency Pool.AtQuota
  rw [hc]
  simp

/-- No task waits below the quota after `execute`, if and only if the quota was reached, or there is one and no
task waited. -/
theorem acceptTask_atQuota_iff (t : Task Data) :
    ((p.acceptTask t n).tasksQueue ≠ [] → p.AtQuota (p.acceptTask t n)) ↔
      p.AtQuota n ∨ n.tasksQueue = [] ∧ p.concurrency ≠ none := by
  unfold Pool.acceptTask
  by_cases hs : p.shallExecute n = true
  · rw [if_pos hs, startTask_tasksQueue]
    simp only [Pool.shallExecute, Bool.and_eq_true, decide_eq_true_eq, List.length_eq_zero_iff] at hs
    obtain ⟨hnil, hbelow⟩ := hs
    refine ⟨fun _ => .inr ⟨hnil, fun hnone => ?_⟩, fun _ hne => absurd hnil hne⟩
    simp [Pool.belowConcurrency, hnone] at hbelow
  · rw [if_neg hs]
    constructor
    · intro h
      exact .inl (h (by simp))
    · rintro (h | ⟨hnil, hsome⟩) -
      · exact h
      · obtain ⟨c, hc⟩ := Option.ne_none_iff_exists'.1 hsome
        have hbelow : ¬ p.belowConcurrency n = true := by
          intro hbelow
          exact hs (by simp [Pool.shallExecute, hnil, hbelow])
        exact (Pool.not_belowConcurrency_iff hc).1 hbelow

/-- The same of a response, where `n` is the node when its task has ended, and `m` the node before. -/
theorem refill_atQuota_iff {m : WorkerNode Data} (hqueue : n.tasksQueue = m.tasksQueue)
    (hexec : n.usage.tasks.executing + 1 = m.usage.tasks.executing) :
    ((p.refill n).tasksQueue ≠ [] → p.AtQuota (p.refill n)) ↔
      p.AtQuota m ∨ m.tasksQueue = [] ∨ m.tasksQueue.length = 1 ∧ p.concurrency ≠ none := by
  unfold Pool.refill
  rcases hc : p.concurrency with _ | c
  · have hbelow : ¬ p.belowConcurrency n = true := by simp [Pool.belowConcurrency, hc]
    rw [if_neg hbelow, hqueue]
    simp [Pool.AtQuota, hc]
  · by_cases hbelow : p.belowConcurrency n = true
    · rw [if_pos hbelow]
      unfold Pool.nextTask
      rw [← hqueue]
      rcases hq : n.tasksQueue with _ | ⟨t, q⟩
      · simp [hq]
      · simp only [startTask_tasksQueue, Pool.AtQuota, startTask_executing, hexec]
        have hlast : (t :: q).length = 1 ↔ q = [] := by simp
        rw [hlast]
        simp only [reduceCtorEq, hc, not_false_eq_true, ne_eq, and_true, false_or]
        by_cases hnil : q = []
        · simp [hnil]
        · simp [hnil]
    · rw [if_neg hbelow]
      obtain ⟨c', hc', hle⟩ := (Pool.not_belowConcurrency_iff hc).1 hbelow
      refine ⟨fun _ => .inl ⟨c', hc', by omega⟩, fun _ _ => ⟨c', hc', hle⟩⟩

end Node

/-! ## Events -/

/-- Calls of `execute`, messages, and changes of the options that leave both kinds of stealing off. -/
def TuningEvent (s : Pool Data Response) : Event Data Response → Prop
  | .setTasksQueueOptions o => (checkValidTasksQueueOptions o).isOk = true →
      (buildTasksQueueOptions s.maxSize o).taskStealing = false ∧
        (buildTasksQueueOptions s.maxSize o).tasksStealingOnBackPressure = false
  | e => CallOrMessage s e

instance (s : Pool Data Response) : DecidablePred (TuningEvent s)
  | .setTasksQueueOptions _ => inferInstanceAs (Decidable (_ → _ ∧ _))
  | .execute a b c d => inferInstanceAs (Decidable (CallOrMessage s (.execute a b c d)))
  | .message a b => inferInstanceAs (Decidable (CallOrMessage s (.message a b)))
  | .poll _ | .enableTasksQueue .. | .error _ | .exit _ | .start | .destroy | .destroyed =>
    inferInstanceAs (Decidable False)

theorem TuningEvent.fixedEvent {s : Pool Data Response} {e : Event Data Response} (h : TuningEvent s e) :
    FixedEvent s e := by
  cases e with
  | setTasksQueueOptions o => trivial
  | execute a b c d => exact (CallOrMessage.queueEvent (e := .execute a b c d) h).fixedEvent
  | message a b => exact (CallOrMessage.queueEvent (e := .message a b) h).fixedEvent
  | _ => exact False.elim h

/-- The node that an event is about: `execute` assigns its task to it, or the response is to one of its tasks. -/
def Pool.servedNode (s : Pool Data Response) : Event Data Response → Option Nat
  | .execute _ name _ (.key k) => if s.started && !name.any isBlank then some k else none
  | .message _ (.taskResponse m) => s.promiseResponseMap.lookup m.taskId
  | _ => none

/-- After the event no task waits on its node below the current concurrency. -/
def FillsQuota (s : Pool Data Response) (e : Event Data Response) (s' : Pool Data Response) : Prop :=
  ∀ i ∈ s.servedNode e, ∀ n ∈ s'.workerNodes[i]?, n.tasksQueue ≠ [] → s'.AtQuota n

/-- What may wait on a node below its quota, for none to wait after the event. -/
def Pool.LastToStart (s : Pool Data Response) (n : WorkerNode Data) : Event Data Response → Prop
  | .message .. => n.tasksQueue = [] ∨ n.tasksQueue.length = 1 ∧ s.concurrency ≠ none
  | _ => n.tasksQueue = [] ∧ s.concurrency ≠ none

instance (s : Pool Data Response) (n : WorkerNode Data) : DecidablePred (s.LastToStart n)
  | .message .. => inferInstanceAs (Decidable (_ = [] ∨ _ = 1 ∧ _))
  | .execute .. | .poll _ | .setTasksQueueOptions _ | .enableTasksQueue .. | .error _ | .exit _ | .start | .destroy
  | .destroyed => inferInstanceAs (Decidable (_ = [] ∧ _))

/-- Before the event its node is at its quota, or the event starts all that waits. -/
def RefillsQuota (s : Pool Data Response) (e : Event Data Response) : Prop :=
  ∀ i ∈ s.servedNode e, ∀ n ∈ s.workerNodes[i]?, s.AtQuota n ∨ s.LastToStart n e

instance (s : Pool Data Response) : DecidablePred (RefillsQuota s) := fun e =>
  inferInstanceAs (Decidable (∀ i ∈ s.servedNode e, ∀ n ∈ s.workerNodes[i]?, _))

/-! ## Steps -/

/-- Between two events: no callback is installed, every task is on the node that its promise names, and each node
counts what is in flight on its worker. -/
structure Apart (s : Pool Data Response) : Prop where
  pool : FixedPool s 0
  enabled : s.opts.enableTasksQueue = true
  homed : Homed s
  nodes : s.All fun _ n => Plain n ∧ n.usage.tasks.executing = n.worker.unanswered.length

section Steps
variable {s s' : Pool Data Response} {e : Event Data Response}

theorem Apart.now (h : Apart s) (now : ℚ) : Apart { s with now } :=
  ⟨h.pool.of_view rfl rfl, h.enabled, h.homed, h.nodes⟩

/-- An event that is about no node. -/
theorem refillsQuota_iff_of_none (h : s.servedNode e = none) : RefillsQuota s e ↔ FillsQuota s e s' := by
  unfold RefillsQuota FillsQuota
  simp [h]

/-- An event about the node `k`, of which it makes `n'`. -/
theorem refillsQuota_iff_of_some {k : Nat} {n n' : WorkerNode Data} (h : s.servedNode e = some k)
    (hn : s.workerNodes[k]? = some n) (hn' : s'.workerNodes[k]? = some n')
    (hiff : (n'.tasksQueue ≠ [] → s'.AtQuota n') ↔ s.AtQuota n ∨ s.LastToStart n e) :
    RefillsQuota s e ↔ FillsQuota s e s' := by
  unfold RefillsQuota FillsQuota
  simp only [h, hn, hn', Option.mem_some_iff, forall_eq']
  exact hiff.symm

/-- Options that are set in a pool apart, or refused, leave it so. -/
theorem setTasksQueueOptions_apart (h : Apart s) {o : TasksQueueOptionsArgument}
    (ho : TuningEvent s (.setTasksQueueOptions o)) :
    wp (setTasksQueueOptions o) (fun _ s' => Apart s') (fun _ s' => Apart s') s := by
  have hpool := setTasksQueueOptions_fixedPool (⟨h.pool, rfl⟩ : FixedPool s 0 ∧ SamePromises s s) o
  simp only [setTasksQueueOptions, wp_bind, wp_get, h.enabled, if_true] at hpool ⊢
  rcases hc : checkValidTasksQueueOptions o with x | ⟨⟩
  · simpa [liftCheck] using h
  · obtain ⟨hsteal, hpressure⟩ := ho (by rw [hc]; rfl)
    rw [hc] at hpool
    simp only [liftCheck, setTasksQueueSize, setTaskStealing, setTasksStealingOnBackPressure, mapNodes, wp_pure,
      wp_modify, hsteal, hpressure] at hpool ⊢
    have hnode (i : Nat) (n' : WorkerNode Data) (hi : (((s.workerNodes.map fun n =>
        { n with tasksQueueBackPressureSize := (buildTasksQueueOptions s.maxSize o).size }).map
        fun n => { n with onEmptyQueue := false }).map fun n => { n with onBackPressure := false })[i]? = some n') :
        ∃ n, s.workerNodes[i]? = some n ∧ n' = { n with
          tasksQueueBackPressureSize := (buildTasksQueueOptions s.maxSize o).size
          onEmptyQueue := false
          onBackPressure := false } := by
      simp only [List.getElem?_map, Option.map_map, Option.map_eq_some_iff] at hi
      obtain ⟨n, hn, rfl⟩ := hi
      exact ⟨n, hn, rfl⟩
    refine ⟨hpool.1, h.enabled, h.homed.same (fun _ _ hl => hl) fun i n' hi => ?_, fun i n' hi => ?_⟩
    · obtain ⟨n, hn, rfl⟩ := hnode i n' hi
      exact ⟨n, hn, rfl⟩
    · obtain ⟨n, hn, rfl⟩ := hnode i n' hi
      exact ⟨⟨rfl, rfl⟩, (h.nodes i n hn).2⟩

/-- A call that assigns its task to the node `k`. -/
theorem Apart.executed (h : Apart s) {taskId k fuel : Nat} {name : Option String} {data : Data}
    (hid : taskId ∉ s.uuids) (ha : Accepts s name (.key k)) (hk : k < s.workerNodes.length) (hp : FixedPool s' 0)
    (hm : dispatchTask (callbacks fuel) k ⟨name.getD defaultTaskName, data, s.now, taskId⟩ (s.called taskId k) =
      some (.ok (), s')) :
    Apart s' ∧ (RefillsQuota s (.execute taskId name data (.key k)) ↔ FillsQuota s (.execute taskId name data (.key k)) s') := by
  obtain ⟨n, hn⟩ := Pool.node_of_lt hk
  obtain ⟨⟨hempty, hpressure⟩, hcounts⟩ := h.nodes k n hn
  generalize ht : (⟨name.getD defaultTaskName, data, s.now, taskId⟩ : Task Data) = t at hm
  obtain rfl : t.taskId = taskId := by rw [← ht]
  have hcalled : (s.called t.taskId k).workerNodes[k]? = some n := hn
  have hlive : Live (s.called t.taskId k) := h.pool.live
  have hsend := hlive.canSend (List.mem_of_getElem? hcalled) t
  rw [dispatchTask_plain hcalled hpressure h.enabled hsend] at hm
  cases hm
  refine ⟨⟨hp, h.enabled, h.homed.accept h.pool hid hn, ?_⟩, ?_⟩
  · refine Pool.All.modifyNode (p := s.called t.taskId k) h.nodes fun _ _ _ => ?_
    exact ⟨Plain.of_sameSetup ⟨hempty, hpressure⟩ (sameSetup_acceptTask _ t n), acceptTask_counts _ hcounts t⟩
  · have hserved : s.servedNode (.execute t.taskId name data (.key k)) = some k :=
      if_pos (by rw [ha.1, ha.2.1]; rfl)
    have hn' := Pool.getElem?_modifyNode_self (fun _ => (s.called t.taskId k).acceptTask t n) hcalled
    exact refillsQuota_iff_of_some hserved hn hn' (acceptTask_atQuota_iff (p := s.called t.taskId k) t)

/-- The nodes once a response of the worker whose node the promise names is taken in. -/
theorem Apart.nodes_responded (h : Apart s) {w k fuel : Nat} {m : TaskResponse Response} {n : WorkerNode Data}
    (hx : ResponseStep s w m k fuel n s') :
    (s.responded w m k).All fun _ n => Plain n ∧ n.usage.tasks.executing = n.worker.unanswered.length := by
  have hk : s.getWorkerNodeKeyByWorkerId w = k := h.homed.sender hx
  intro i b hb
  obtain ⟨a, ha, hans⟩ := Pool.node_of_responded hb
  rw [hk] at hans
  obtain ⟨hplain, hcounts⟩ := h.nodes i a ha
  refine ⟨hans.plain hplain, ?_⟩
  by_cases hki : k = i
  · subst hki
    have hnode := hx.node
    rw [hk, ha] at hnode
    cases hnode
    exact hans.counts hx.inFlight hcounts
  · have hsame := hans.sameWork hki hki
    rw [hsame.executing, hsame.worker]
    exact hcounts

/-- A response of the worker whose node the promise names. -/
theorem Apart.responded (h : Apart s) {w k fuel : Nat} {m : TaskResponse Response} {n : WorkerNode Data}
    (hx : ResponseStep s w m k fuel n s') (hp : FixedPool s' 0) :
    Apart s' ∧ (RefillsQuota s (.message w (.taskResponse m)) ↔ FillsQuota s (.message w (.taskResponse m)) s') := by
  obtain ⟨hnode, n', hn', hans⟩ := h.homed.answered hx
  have hall := h.nodes_responded hx
  obtain ⟨hplain, hcounts⟩ := hall k n' hn'
  have hresponded := h.pool.responded (k := k) hx.node hx.inFlight
  -- the task that has ended is no longer counted, and no longer in flight
  have hexec : n'.usage.tasks.executing + 1 = n.usage.tasks.executing := by
    have hpos := unanswered_pos hx.inFlight
    have hcount := (h.nodes k n hnode).2
    rw [hans.executing, if_pos rfl]
    omega
  have hopts : (s.responded w m k).opts.enableTasksQueue = true := by
    rw [responded_opts]
    exact h.enabled
  have hsend (t : Task Data) := hresponded.live.canSend (List.mem_of_getElem? hn') t
  have hnext := hx.next
  rw [executeNextTask_refill hn' hplain.1 hopts hsend] at hnext
  cases hnext
  refine ⟨⟨hp, hopts, (h.homed.responded hresponded).replace hn' (held_refill _ n'), ?_⟩, ?_⟩
  · refine hall.modifyNode fun _ _ _ => ?_
    exact ⟨hplain.of_sameSetup (sameSetup_refill _ n'), refill_counts _ hcounts⟩
  · have hserved : s.servedNode (.message w (.taskResponse m)) = some k := hx.entry
    have hn'' := Pool.getElem?_modifyNode_self (fun _ => (s.responded w m k).refill n') hn'
    have hiff := refill_atQuota_iff (p := s.responded w m k) hans.tasksQueue hexec
    have hconc : (s.responded w m k).concurrency = s.concurrency := responded_concurrency s w k m
    have hconc' : ((s.responded w m k).modifyNode k fun _ => (s.responded w m k).refill n').concurrency = s.concurrency :=
      hconc
    refine refillsQuota_iff_of_some hserved hnode hn'' ?_
    unfold Pool.AtQuota at hiff ⊢
    rw [hconc] at hiff
    rw [hconc']
    exact hiff

/-- A call that is refused. -/
theorem Apart.refused (h : Apart s) {taskId : Nat} {x : JsError}
    (hp : FixedPool (Pool.settle taskId (.thrown x) { s with uuids := taskId :: s.uuids }) 0) :
    Apart (Pool.settle taskId (.thrown x) { s with uuids := taskId :: s.uuids }) := by
  have hrest := Pool.settle_rest { s with uuids := taskId :: s.uuids } taskId (.thrown x)
  refine ⟨hp, ?_, ?_, ?_⟩
  · rw [hrest]
    exact h.enabled
  · rw [hrest]
    exact h.homed
  · rw [hrest]
    exact h.nodes

/-- A message about what the worker is. -/
theorem Apart.informed (h : Apart s) {k : Nat} {f : WorkerInfo → WorkerInfo}
    (hp : FixedPool (s.modifyNode k fun n => { n with info := f n.info }) 0) :
    Apart (s.modifyNode k fun n => { n with info := f n.info }) := by
  have hnode (i : Nat) (n' : WorkerNode Data)
      (hi : (s.modifyNode k fun n => { n with info := f n.info }).workerNodes[i]? = some n') :
      ∃ n, s.workerNodes[i]? = some n ∧ ∃ info, n' = { n with info } := by
    obtain ⟨n, hn, rfl⟩ := Pool.node_of_modifyNode hi
    refine ⟨n, hn, ?_⟩
    split
    · exact ⟨_, rfl⟩
    · exact ⟨n.info, rfl⟩
  refine ⟨hp, h.enabled, h.homed.same (fun _ _ hl => hl) fun i n' hi => ?_, fun i n' hi => ?_⟩
  · obtain ⟨n, hn, info, rfl⟩ := hnode i n' hi
    exact ⟨n, hn, rfl⟩
  · obtain ⟨n, hn, info, rfl⟩ := hnode i n' hi
    exact h.nodes i n hn

theorem servedNode_message {w : Nat} {message : WorkerMessage Response} (hm : ∀ m, message ≠ .taskResponse m) :
    s.servedNode (.message w message) = none := by
  cases message with
  | taskResponse m => exact absurd rfl (hm m)
  | _ => rfl

/-- Every event keeps the pool apart, and its condition decides whether the node it is about is filled up. -/
theorem Apart.step (h : Apart s) (he : TuningEvent s e) (hstep : FixedStep s e s') :
    Apart s' ∧ (RefillsQuota s e ↔ FillsQuota s e s') := by
  have hp := hstep.fixedPool h.pool
  cases hstep with
  | @refused taskId name data choice x hid ha =>
    have hserved : s.servedNode (.execute taskId name data choice) = none := by
      cases choice with
      | none r => rfl
      | key k =>
        refine if_neg fun hc => ?_
        simp only [Bool.and_eq_true, Bool.not_eq_true'] at hc
        exact ha ⟨hc.1, hc.2, k, rfl⟩
    exact ⟨h.refused hp, refillsQuota_iff_of_none hserved⟩
  | executed hid ha hk hm => exact h.executed hid ha hk hp hm
  | responded hn hm hl hk hx => exact h.responded ⟨hn, hm, hl, hk, hx⟩ hp
  | informed f hm hf => exact ⟨h.informed hp, refillsQuota_iff_of_none (servedNode_message hm)⟩
  | ignored hm => exact ⟨h, refillsQuota_iff_of_none (servedNode_message hm)⟩
  | polled hk hx => exact he.elim
  | @reconfigured e fuel r s' hconf hx =>
    rcases hconf with ⟨b, o, rfl⟩ | ⟨o, rfl⟩
    · exact he.elim
    · exact ⟨wp_any (I := Apart) (setTasksQueueOptions_apart h he) hx, refillsQuota_iff_of_none rfl⟩

end Steps

/-! ## Runs -/

theorem Apart.of_fresh {s₀ : Pool Data Response} {o : TasksQueueOptions} (h₀ : Fresh s₀)
    (hfixed : s₀.type = .fixed ∨ s₀.full = true) (hsend : ∀ t, s₀.postable t = true)
    (hq : s₀.opts.enableTasksQueue = true) (ho : s₀.opts.tasksQueueOptions = some o)
    (hsteal : o.taskStealing = false) (hpressure : o.tasksStealingOnBackPressure = false) : Apart s₀ := by
  refine ⟨.of_fresh h₀ hfixed hsend, hq, .of_fresh h₀, fun i n hi => ?_⟩
  have hn := h₀.nodes n (List.mem_of_getElem? hi)
  refine ⟨hn.plain ho hsteal hpressure, ?_⟩
  rw [hn.executing, hn.worker]
  rfl

/-- Every event of a run fills up the node it is about if and only if each one finds the node at its quota, or
starts all that waits on it. -/
theorem fillsQuota_iff {s₀ s : Pool Data Response} {es : List (Event Data Response)} {o : TasksQueueOptions}
    (h₀ : Fresh s₀) (hfixed : s₀.type = .fixed ∨ s₀.full = true) (hsend : ∀ t, s₀.postable t = true)
    (hq : s₀.opts.enableTasksQueue = true) (ho : s₀.opts.tasksQueueOptions = some o)
    (hsteal : o.taskStealing = false) (hpressure : o.tasksStealingOnBackPressure = false) :
    Run (Such FillsQuota (Guarded TuningEvent Step)) s₀ es s ↔
      Run (Guarded RefillsQuota (Guarded TuningEvent Step)) s₀ es s := by
  refine run_such_iff Apart (.of_fresh h₀ hfixed hsend hq ho hsteal hpressure) fun s e s' hs hstep => ?_
  obtain ⟨he, hstep⟩ := hstep
  obtain ⟨now, hfs⟩ := fixedStep_of_step hs.pool he.fixedEvent hstep
  have he' : TuningEvent { s with now } e := by
    cases e <;> exact he
  obtain ⟨hs', hiff⟩ := (hs.now now).step he' hfs
  have hserved : Pool.servedNode { s with now } e = s.servedNode e := by
    cases e with
    | execute a b c d => cases d <;> rfl
    | message a b => cases b <;> rfl
    | _ => rfl
  refine ⟨hs', ?_⟩
  unfold RefillsQuota FillsQuota at hiff ⊢
  rw [hserved] at hiff
  exact hiff

/-- A concurrency for a pool without stealing. -/
def tuneTo (c : Nat) : Event Unit Unit :=
  .setTasksQueueOptions (.object ⟨.absent, .value (.int c), .value false, .value false⟩)

theorem fillsQuota_iff_one_waiting :
    ∃ s, (∃ n ∈ s.workerNodes, n.tasksQueue.length = 1 ∧ n.usage.tasks.executing = 2) ∧
      Run (Such FillsQuota (Guarded TuningEvent Step)) (startedPool 1 true ⟨some 4, some 1, false, false⟩)
        [submit 0 0, submit 1 0, tuneTo 2, respond 0 0, submit 2 0, submit 3 0] s := by
  obtain ⟨s, hr, hs⟩ := run_to (fun s e => RefillsQuota s e ∧ TuningEvent s e) 5
    (startedPool 1 true ⟨some 4, some 1, false, false⟩)
    [submit 0 0, submit 1 0, tuneTo 2, respond 0 0, submit 2 0, submit 3 0]
    (P := fun s => ∃ n ∈ s.workerNodes, n.tasksQueue.length = 1 ∧ n.usage.tasks.executing = 2) (by decide +kernel)
  have hr' : Run (Guarded RefillsQuota (Guarded TuningEvent Step)) (startedPool 1 true ⟨some 4, some 1, false, false⟩)
      [submit 0 0, submit 1 0, tuneTo 2, respond 0 0, submit 2 0, submit 3 0] s :=
    hr.mono fun _ _ _ h => ⟨h.1.1, h.1.2, h.2⟩
  exact ⟨s, hs, (fillsQuota_iff (fresh_startedPool 1 true _) (.inl rfl) (fun _ => rfl) rfl rfl rfl rfl).2 hr'⟩

/-- Three tasks on a worker that executes one at a time; then three are allowed, and the first one ends. -/
theorem fillsQuota_lost : ¬ ∀ (s₀ s s' : Pool Unit Unit) (es : List (Event Unit Unit)) (e : Event Unit Unit)
    (o : TasksQueueOptions), Fresh s₀ → s₀.type = .fixed → (∀ t, s₀.postable t = true) →
      s₀.opts.enableTasksQueue = true → s₀.opts.tasksQueueOptions = some o → o.taskStealing = false →
        o.tasksStealingOnBackPressure = false → Run (Guarded TuningEvent Step) s₀ es s →
          Guarded TuningEvent Step s e s' → FillsQuota s e s' := by
  intro hclaim
  obtain ⟨s, hr, s', hs', hserved, n, hn, hwaits, hbelow⟩ := run_to TuningEvent 5
    (startedPool 1 true ⟨some 4, some 1, false, false⟩) [submit 0 0, submit 1 0, submit 2 0, tuneTo 3]
    (P := fun s => ∃ s' ∈ nextIf TuningEvent 5 s (respond 0 0), s.servedNode (respond 0 0) = some 0 ∧
      ∃ n ∈ s'.workerNodes[0]?, n.tasksQueue ≠ [] ∧ ¬ s'.AtQuota n) (by decide +kernel)
  have hfills := hclaim _ s s' _ (respond 0 0) _ (fresh_startedPool 1 true _) rfl (fun _ => rfl) rfl rfl rfl rfl hr
    (step_of_nextIf hs')
  exact hbelow (hfills 0 hserved n hn hwaits)

end Poolifier
