import Poolifier.TaskIds
/-!
# A send that throws

A task is entered in the promise map, and counted as executing, before it is
sent, by functions that do not know that sending can fail. When it does fail in
a call of `execute`, the promise is rejected; the entry and the counters stay.
When a task that has been queued fails to be sent later on, nobody is left who
would reject its promise: the task is nowhere, and its entry stays for good.
-/

namespace Poolifier

open EffLib RunLib WorkerNode

variable {Data Response : Type}

/-! ## Counters by key -/

/-- The executing counter of the node at a key; a node that is not there counts nothing. -/
def Pool.executing (p : Pool Data Response) (k : Nat) : Nat :=
  (p.workerNodes[k]?.map (·.usage.tasks.executing)).getD 0

/-- The executing counter of a task function of the node at a key. -/
def Pool.taskFunctionExecuting (p : Pool Data Response) (k : Nat) (name : Option String) : Nat :=
  ((p.workerNodes[k]?.bind (·.taskFunctionsUsage.lookup name)).map (·.tasks.executing)).getD 0

theorem Pool.executing_of_node {p : Pool Data Response} {k : Nat} {n : WorkerNode Data} (h : p.workerNodes[k]? = some n) :
    p.executing k = n.usage.tasks.executing := by
  simp [executing, h]

theorem Pool.taskFunctionExecuting_of_node {p : Pool Data Response} {k : Nat} {n : WorkerNode Data}
    (h : p.workerNodes[k]? = some n) (name : Option String) :
    p.taskFunctionExecuting k name = ((n.taskFunctionsUsage.lookup name).map (·.tasks.executing)).getD 0 := by
  simp [taskFunctionExecuting, h]

theorem Grown.node {p p' : Pool Data Response} (h : Grown p p') {k : Nat} {n : WorkerNode Data}
    (hn : p.workerNodes[k]? = some n) : p'.workerNodes[k]? = some n := by
  obtain ⟨new, hnodes, -⟩ := h.nodes
  rw [hnodes, List.getElem?_append_left (Pool.lt_of_node hn)]
  exact hn

/-- New nodes execute nothing. -/
theorem Grown.executing {p p' : Pool Data Response} (h : Grown p p') (k : Nat) : p'.executing k = p.executing k := by
  rcases hn : p.workerNodes[k]? with _ | n
  · obtain ⟨new, hnodes, -, -, hnew⟩ := h.nodes
    rcases hn' : p'.workerNodes[k]? with _ | n'
    · simp [Pool.executing, hn, hn']
    · have hmem : n' ∈ new := by
        rw [hnodes, List.getElem?_append_right (List.getElem?_eq_none_iff.1 hn)] at hn'
        exact List.mem_of_getElem? hn'
      rw [Pool.executing_of_node hn', (hnew n' hmem).executing]
      simp [Pool.executing, hn]
  · rw [Pool.executing_of_node hn, Pool.executing_of_node (h.node hn)]

/-- A node that keeps records of its task functions updates the one that is named. -/
theorem WorkerNode.updateTaskFunctionWorkerUsage_kept {n : WorkerNode Data}
    (h : n.shallUpdateTaskFunctionWorkerUsage = true) (name : Option String) (f : WorkerUsage → WorkerUsage) :
    (n.updateTaskFunctionWorkerUsage name f).taskFunctionsUsage = n.taskFunctionsUsage.insert (n.taskFunctionKey name)
      (f ((n.taskFunctionsUsage.lookup (n.taskFunctionKey name)).getD .init)) := by
  have hrecord : n.getTaskFunctionWorkerUsage name =
      .ok ((n.taskFunctionsUsage.lookup (n.taskFunctionKey name)).getD .init) := by
    unfold shallUpdateTaskFunctionWorkerUsage at h
    unfold getTaskFunctionWorkerUsage
    rcases hnames : n.info.taskFunctionNames with _ | names
    · rw [hnames] at h
      cases h
    · rw [hnames] at h
      have hlen : 2 < names.length := by simpa using h
      exact if_neg (by omega)
  unfold updateTaskFunctionWorkerUsage
  rw [if_pos h, hrecord]

/-- Where a node keeps a record of the task function, the record counts the task too. -/
theorem WorkerNode.beforeTaskExecution_taskFunction {n : WorkerNode Data} (h : n.shallUpdateTaskFunctionWorkerUsage = true)
    (requirements : TaskStatisticsRequirements) (now : ℚ) (t : Task Data) :
    (((n.beforeTaskExecution requirements now t).taskFunctionsUsage.lookup (n.taskFunctionKey t.name)).map
      (·.tasks.executing)).getD 0 =
        ((n.taskFunctionsUsage.lookup (n.taskFunctionKey t.name)).map (·.tasks.executing)).getD 0 + 1 := by
  have hupdate : (n.beforeTaskExecution requirements now t).taskFunctionsUsage =
      n.taskFunctionsUsage.insert (n.taskFunctionKey t.name) (WorkerUsage.beforeTaskExecution requirements now t
        ((n.taskFunctionsUsage.lookup (n.taskFunctionKey t.name)).getD .init)) :=
    updateTaskFunctionWorkerUsage_kept (n := { n with usage := n.usage.beforeTaskExecution requirements now t }) h _ _
  rw [hupdate, AList.lookup_insert]
  rcases n.taskFunctionsUsage.lookup (n.taskFunctionKey (some t.name)) with _ | u <;> rfl

/-! ## Calls of `execute` -/

/-- A call chooses the node `k` for its task, which is not to be queued, and sending it throws. -/
def SendThrows (p : Pool Data Response) (taskId : Nat) (name : Option String) (data : Data) (choice : Choice)
    (k : Nat) : Prop :=
  p.started = true ∧ name.any isBlank = false ∧ ∃ p₁ n,
    chooseWorkerNode choice { p with uuids := taskId :: p.uuids } = some (.ok k, p₁) ∧ p₁.workerNodes[k]? = some n ∧
      (p.opts.enableTasksQueue = true → p₁.shallExecute n = true) ∧
      p₁.canSend n ⟨name.getD defaultTaskName, data, p.now, taskId⟩ = false

/-- A call has left nothing behind but the rejection of its promise. -/
structure NothingLeaks (taskId : Nat) (p p' : Pool Data Response) : Prop where
  rejected : ∃ e, (taskId, .thrown e) ∈ p'.settled
  promiseResponseMap : p'.promiseResponseMap = p.promiseResponseMap
  executing : ∀ k, p'.executing k = p.executing k
  taskFunctions : ∀ k name, p'.taskFunctionExecuting k name = p.taskFunctionExecuting k name

section Execute
variable {p : Pool Data Response} {k : Nat} {n : WorkerNode Data} {t : Task Data}

/-- A task that is not to be queued is counted, and the exception is thrown on. -/
theorem dispatchTask_error (cb : Callbacks Data Response) (hn : p.workerNodes[k]? = some n)
    (hs : p.opts.enableTasksQueue = true → p.shallExecute n = true) (hc : p.canSend n t = false) :
    ∃ e, dispatchTask cb k t p =
      some (.error e, p.modifyNode k (·.beforeTaskExecution p.taskStatisticsRequirements p.now t)) := by
  obtain ⟨e, he⟩ := executeTask_error hn hc
  refine ⟨e, ?_⟩
  unfold dispatchTask
  rw [get_bind]
  by_cases hq : p.opts.enableTasksQueue = true
  · have hshall : shallExecuteTask k p = some (.ok true, p) := by
      unfold shallExecuteTask
      rw [nodeAt_bind hn, get_bind, hs hq]
      rfl
    rw [if_pos hq, executeOrEnqueueTask, bind_ok hshall, if_pos rfl, he]
  · rw [if_neg hq, he]

/-- The promise is rejected, with an entry in the map and one more task counted as executing. -/
theorem execute_error {taskId : Nat} {name : Option String} {data : Data} {choice : Choice} (cb : Callbacks Data Response)
    (h : SendThrows p taskId name data choice k) : ∃ e p₁, Grown { p with uuids := taskId :: p.uuids } p₁ ∧
      k < p₁.workerNodes.length ∧ execute cb taskId name data choice p =
        some (.error e, ((p₁.withPromise taskId k).modifyNode k (·.beforeTaskExecution p₁.taskStatisticsRequirements
          p₁.now ⟨name.getD defaultTaskName, data, p.now, taskId⟩)).settle taskId (.thrown e)) := by
  obtain ⟨hst, hname, p₁, n, hchoose, hn, hshall, hc⟩ := h
  have hg : Grown { p with uuids := taskId :: p.uuids } p₁ := (wp_ok (chooseWorkerNode_grows choice) hchoose).1
  have hq : (p₁.withPromise taskId k).opts.enableTasksQueue = true → (p₁.withPromise taskId k).shallExecute n = true := by
    intro hq
    refine hshall ?_
    rw [← hq]
    exact congrArg (·.enableTasksQueue) hg.opts.symm
  obtain ⟨e, he⟩ := dispatchTask_error cb (p := p₁.withPromise taskId k) hn hq hc
  refine ⟨e, p₁, hg, Pool.lt_of_node hn, ?_⟩
  have hexecutor : executeExecutor cb taskId name data choice { p with uuids := taskId :: p.uuids } =
      some (.error e, (p₁.withPromise taskId k).modifyNode k (·.beforeTaskExecution p₁.taskStatisticsRequirements
        p₁.now ⟨name.getD defaultTaskName, data, p.now, taskId⟩)) := by
    unfold executeExecutor
    rw [get_bind, if_neg (by simp [hst]), if_neg (by simp [hname]), bind_ok hchoose]
    exact he
  unfold execute
  rw [modify_bind]
  unfold rejectOnThrow
  rw [hexecutor]

/-- Whatever the state and the call, a send that throws leaks a map entry and an executing slot of the node, and of
the task function if its node keeps count of it. -/
theorem failed_send_leaks {taskId : Nat} {name : Option String} {data : Data} {choice : Choice} (cb : Callbacks Data Response)
    (h : SendThrows p taskId name data choice k) : ∃ e p', execute cb taskId name data choice p = some (.error e, p') ∧
      taskId ∈ p'.settled.map Prod.fst ∧ p'.promiseResponseMap = p.promiseResponseMap.insert taskId k ∧
      p'.executing k = p.executing k + 1 ∧
      (∀ n ∈ p.workerNodes[k]?, n.shallUpdateTaskFunctionWorkerUsage = true →
        p'.taskFunctionExecuting k (n.taskFunctionKey (name.getD defaultTaskName)) =
          p.taskFunctionExecuting k (n.taskFunctionKey (name.getD defaultTaskName)) + 1) ∧
      ¬ NothingLeaks taskId p p' := by
  obtain ⟨e, p₁, hg, hlt, he⟩ := execute_error cb h
  obtain ⟨n₁, hn₁⟩ := Pool.node_of_lt hlt
  generalize ht : (⟨name.getD defaultTaskName, data, p.now, taskId⟩ : Task Data) = t at he
  generalize hp' : ((p₁.withPromise taskId k).modifyNode k
    (·.beforeTaskExecution p₁.taskStatisticsRequirements p₁.now t)).settle taskId (.thrown e) = p' at he
  have hn' : p'.workerNodes[k]? = some (n₁.beforeTaskExecution p₁.taskStatisticsRequirements p₁.now t) := by
    rw [← hp', Pool.settle_workerNodes]
    exact Pool.getElem?_modifyNode_self (p := p₁.withPromise taskId k) _ hn₁
  have hmap : p'.promiseResponseMap = p.promiseResponseMap.insert taskId k := by
    rw [← hp', Pool.settle_rest]
    show p₁.promiseResponseMap.insert taskId k = _
    rw [hg.rest]
  have hexecuting : p'.executing k = p.executing k + 1 := by
    obtain ⟨m, hm⟩ := beforeTaskExecution_eq p₁.taskStatisticsRequirements p₁.now t n₁
    rw [Pool.executing_of_node hn', hm]
    show n₁.usage.tasks.executing + 1 = _
    rw [← Pool.executing_of_node hn₁, hg.executing]
    rfl
  refine ⟨e, p', he, ?_, hmap, hexecuting, fun n hn hkept => ?_, fun hnothing => ?_⟩
  · rw [← hp']
    exact Pool.mem_settle _ _ _
  · obtain rfl : n = n₁ := by
      have hn₂ := hg.node hn
      rw [hn₁] at hn₂
      exact (Option.some.inj hn₂).symm
    have hcounted := WorkerNode.beforeTaskExecution_taskFunction hkept p₁.taskStatisticsRequirements p₁.now t
    rw [Pool.taskFunctionExecuting_of_node hn', Pool.taskFunctionExecuting_of_node hn]
    rw [← ht] at hcounted ⊢
    exact hcounted
  · have hslot := hnothing.executing k
    omega

end Execute

/-- A started pool of one worker whose tasks cannot be cloned. -/
def unclonablePool : Pool Unit Unit :=
  { startedPool 1 false ⟨none, none, false, false⟩ with postable := fun _ => false }

theorem sendThrows_unclonablePool : SendThrows unclonablePool 7 none () (.key 0) 0 :=
  ⟨rfl, rfl, { unclonablePool with uuids := [7] }, _, rfl, rfl, (by rintro ⟨⟩), rfl⟩

theorem failed_send_leaks_unclonable : SendThrows unclonablePool 7 none () (.key 0) 0 ∧ ∃ e p',
    execute (callbacks 1) 7 none () (.key 0) unclonablePool = some (.error e, p') ∧
      p'.promiseResponseMap = (∅ : AList fun _ : Nat => Nat).insert 7 0 ∧ p'.executing 0 = 1 := by
  obtain ⟨e, p', he, -, hmap, hexecuting, -, -⟩ :=
    failed_send_leaks (callbacks 1) sendThrows_unclonablePool
  exact ⟨sendThrows_unclonablePool, e, p', he, hmap, hexecuting⟩

/-- After a call whose task cannot be cloned the worker counts a task that it never gets. -/
theorem unclonable_task_leaks : ¬ ∀ (p : Pool Unit Unit) (cb : Callbacks Unit Unit) (taskId : Nat) (name : Option String)
    (choice : Choice) (k : Nat), p.started = true → taskId ∉ p.uuids → SendThrows p taskId name () choice k →
    ∀ r p', execute cb taskId name () choice p = some (r, p') → NothingLeaks taskId p p' := by
  intro h
  obtain ⟨e, p₁, hg, -, he⟩ := execute_error (callbacks 1) sendThrows_unclonablePool
  have hnothing := h unclonablePool (callbacks 1) 7 none (.key 0) 0 rfl (by decide) sendThrows_unclonablePool _ _ he
  have hmap := hnothing.promiseResponseMap
  rw [Pool.settle_rest] at hmap
  have hlookup : (p₁.promiseResponseMap.insert 7 0).lookup 7 = (∅ : AList fun _ : Nat => Nat).lookup 7 :=
    congrArg (AList.lookup 7) hmap
  rw [AList.lookup_insert] at hlookup
  cases hlookup

/-! ## Queued tasks -/

/-- An event other than an exit takes a task out of its queue, but not to a worker or to another queue. -/
structure FailedDispatch (s : Pool Data Response) (e : Event Data Response) (s' : Pool Data Response) (t : Task Data) :
    Prop where
  step : Step s e s'
  notExit : ∀ w, e ≠ .exit w
  queued : ∃ n ∈ s.workerNodes, t ∈ n.tasksQueue
  lost : ∀ n ∈ s'.workerNodes, t ∉ n.held

/-- What goes wrong with a task stays with it: its promise is rejected and out of the map, no node counts it as
executing, no other promise is rejected by an exception of a call, and the other tasks are where they were, or their
promises have ended. -/
structure Contained (s s' : Pool Data Response) (t : Task Data) : Prop where
  rejected : ∃ r, (t.taskId, r) ∈ s'.settled ∧ ∀ data, r ≠ .resolved data
  removed : t.taskId ∉ s'.promiseResponseMap.keys
  slots : ∀ (k : Nat) n n', s.workerNodes[k]? = some n → s'.workerNodes[k]? = some n' →
    n'.usage.tasks.executing + n.worker.received.length ≤ n.usage.tasks.executing + n'.worker.received.length
  others : ∀ i x, (i, .thrown x) ∈ s'.settled → i = t.taskId ∨ (i, .thrown x) ∈ s.settled
  kept : ∀ u ∈ s.placed, u ≠ t → u ∈ s'.placed ∨ u.taskId ∈ s'.settledIds

section Queued
variable {s₀ s s' s'' : Pool Data Response} {es es' : List (Event Data Response)} {e : Event Data Response} {t : Task Data}

/-- A task that is lost is one that waited, so no response is to it, and nothing else has its id. -/
theorem FailedDispatch.stranded (h : FailedDispatch s e s' t) (hid : Identified s) :
    Stranded t.taskId s' ∧ (t.taskId ∈ s'.settledIds → t.taskId ∈ s.settledIds) := by
  obtain ⟨new, ha⟩ := step_accounts h.step
  have hwaiting : t ∈ s.waiting := Pool.mem_waiting.2 h.queued
  have hplaced : t ∈ s.placed := by
    rw [Pool.placed_eq]
    exact Multiset.mem_add.2 (.inl hwaiting)
  have hanswers := hid.not_answers h.step.1 hwaiting
  have hdrawn : t.taskId ∉ e.drawnIds := fun hi => h.step.1.fresh hi (hid.drawn t hplaced)
  refine ⟨⟨ha.keys _ (hid.entered t hwaiting) hanswers, ?_, fun u hu heq => ?_⟩, fun hs => ?_⟩
  · rw [step_draws h.step]
    exact List.mem_append_right _ (hid.drawn t hplaced)
  · rcases Multiset.mem_add.1 (Multiset.mem_of_le ha.placed hu) with hp | hn
    · -- the only task with its id is the lost one
      obtain rfl : u = t := Multiset.inj_on_of_nodup_map hid.distinct u hp t hplaced heq
      obtain ⟨n, hn, hheld⟩ := Pool.mem_placed.1 hu
      exact h.lost n hn hheld
    · exact hdrawn (heq ▸ Multiset.mem_of_le ha.drawn (Multiset.mem_map_of_mem _ hn))
  · rcases ha.settled _ hs with hs | hs | hs
    · exact hs
    · exact absurd hs hdrawn
    · exact absurd hs hanswers

/-- Whatever the run, the event and the task: when a queued task fails to be dispatched its entry stays in the promise
map for good, and nothing ends its promise that had not ended before. -/
theorem failed_dispatch_never_contained (h₀ : Fresh s₀) (hr : Run Step s₀ es s) (hfailed : FailedDispatch s e s' t)
    (hr' : Run Step s' es' s'') : t.taskId ∈ s''.promiseResponseMap.keys ∧
      (t.taskId ∈ s''.settledIds → t.taskId ∈ s.settledIds) ∧ ¬ Contained s s'' t := by
  obtain ⟨hstranded, hsettled⟩ := hfailed.stranded (identified_of_run h₀ hr)
  obtain ⟨hlast, hlater⟩ := hstranded.run hr'
  exact ⟨hlast.entered, fun hi => hsettled (hlater hi), fun hcontained => hcontained.removed hlast.entered⟩

end Queued

/-- A started pool of one worker that executes one task at a time, in which task `1` cannot be cloned. -/
def oneUnclonable : Pool Unit Unit :=
  { startedPool 1 true ⟨some 4, some 1, false, false⟩ with postable := fun t => t.taskId ≠ 1 }

theorem fresh_oneUnclonable : Fresh oneUnclonable := by
  have h := fresh_startedPool 1 true ⟨some 4, some 1, false, false⟩
  exact ⟨fun n hn => (h.nodes n hn).of_opts rfl, h.ids, h.idsBelow, rfl, rfl, rfl, rfl, rfl, rfl⟩

/-- Task `1` waits behind task `0`; the response to task `0` takes it out of the queue, and sending it throws. -/
theorem failedDispatch_oneUnclonable : ∃ s s' t, Run Step oneUnclonable [submit 0 0, submit 1 0] s ∧
    s.opts.enableTasksQueue = true ∧ FailedDispatch s (respond 0 0) s' t := by
  obtain ⟨s, hr, hqueue, n, hn, t, ht, hlast⟩ := run_to (fun _ _ => True) 2 oneUnclonable [submit 0 0, submit 1 0]
    (P := fun s => s.opts.enableTasksQueue = true ∧ ∃ n ∈ s.workerNodes, ∃ t ∈ n.tasksQueue,
      (nextIf (fun _ _ => True) 2 s (respond 0 0)).any (fun s' => decide
        (∀ a ∈ s'.workerNodes, a.tasksQueue = [] ∧ a.worker.unanswered = [])) = true) (by decide +kernel)
  obtain ⟨s', hs', hnone⟩ := (Option.any_eq_true _ _).1 hlast
  refine ⟨s, s', t, hr.mono fun _ _ _ h => h.2, hqueue, (step_of_nextIf hs').2, (by rintro _ ⟨⟩), ⟨n, hn, ht⟩,
    fun a ha hheld => ?_⟩
  obtain ⟨hempty, hflight⟩ := of_decide_eq_true hnone a ha
  rw [WorkerNode.mem_held, hempty, hflight] at hheld
  rcases hheld with h | h <;> cases h

theorem failed_dispatch_after_response : ∃ s s' t, Run Step oneUnclonable [submit 0 0, submit 1 0] s ∧
    FailedDispatch s (respond 0 0) s' t ∧ t.taskId ∈ s'.promiseResponseMap.keys ∧ ¬ Contained s s' t := by
  obtain ⟨s, s', t, hr, -, hfailed⟩ := failedDispatch_oneUnclonable
  obtain ⟨hentered, -, hnot⟩ := failed_dispatch_never_contained fresh_oneUnclonable hr hfailed Run.nil
  exact ⟨s, s', t, hr, hfailed, hentered, hnot⟩

theorem failed_dispatch_strands_promise : ¬ ∀ (s₀ s s' : Pool Unit Unit) (es : List (Event Unit Unit)) (e : Event Unit Unit)
    (t : Task Unit), Fresh s₀ → Run Step s₀ es s → s.opts.enableTasksQueue = true → FailedDispatch s e s' t →
    Contained s s' t := by
  intro h
  obtain ⟨s, s', t, hr, hqueue, hfailed⟩ := failedDispatch_oneUnclonable
  have hstranded := (hfailed.stranded (identified_of_run fresh_oneUnclonable hr)).1
  exact (h oneUnclonable s s' _ _ t fresh_oneUnclonable hr hqueue hfailed).removed hstranded.entered

end Poolifier
