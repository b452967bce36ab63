import Poolifier.Started
/-!
# What the handlers do

One rule for each handler: what it changes before it comes to the queue code,
and that it moves tasks from there. A rule `wp_` splits the handler; a lemma
`_moves` says that a piece of it moves tasks.
-/

namespace Poolifier

open EffLib WorkerNode

variable {Data Response : Type}

/-! ## Promises -/

namespace Pool

@[simp] theorem settle_workerNodes (p : Pool Data Response) (taskId : Nat) (r : Settlement Response) :
    (p.settle taskId r).workerNodes = p.workerNodes := by
  unfold settle
  split <;> rfl

/-- Settling a promise changes nothing but the list of ended promises. -/
theorem settle_rest (p : Pool Data Response) (taskId : Nat) (r : Settlement Response) :
    p.settle taskId r = { p with settled := (p.settle taskId r).settled } := by
  unfold settle
  split <;> rfl

/-- A promise that had not ended is the last one in the list. -/
theorem settle_settled {p : Pool Data Response} {taskId : Nat} (h : taskId ∉ p.settled.map Prod.fst)
    (r : Settlement Response) : (p.settle taskId r).settled = p.settled ++ [(taskId, r)] := by
  have : p.settled.any (·.1 = taskId) = false := by
    rw [List.any_eq_false]
    intro a ha
    have hne : a.1 ≠ taskId := fun he => h (he ▸ List.mem_map_of_mem ha)
    simpa using hne
  simp [settle, this]

/-- Whatever has ended before, the promise has ended then. -/
theorem mem_settle (p : Pool Data Response) (taskId : Nat) (r : Settlement Response) :
    taskId ∈ (p.settle taskId r).settled.map Prod.fst := by
  by_cases h : taskId ∈ p.settled.map Prod.fst
  · unfold settle
    split
    · exact h
    · simp
  · simp [settle_settled h]

theorem settled_subset_settle (p : Pool Data Response) (taskId : Nat) (r : Settlement Response) :
    p.settled.map Prod.fst ⊆ (p.settle taskId r).settled.map Prod.fst := by
  unfold settle
  split
  · exact fun _ h => h
  · simp

/-- The state in which `execute` dispatches its task: it is in the promise map under the key chosen. -/
def withPromise (p : Pool Data Response) (taskId workerNodeKey : Nat) : Pool Data Response :=
  { p with promiseResponseMap := p.promiseResponseMap.insert taskId workerNodeKey }

/-- The state in which a handled response may start the next task: the promise has ended,
the node it names has counted the response, and its entry is gone. -/
def answered (p : Pool Data Response) (message : TaskResponse Response) (workerNodeKey : Nat) :
    Pool Data Response :=
  { ((p.settle message.taskId message.settlement).modifyNode workerNodeKey
      (·.afterTaskExecution p.taskStatisticsRequirements message)) with
    promiseResponseMap := p.promiseResponseMap.erase message.taskId }

/-- A pool in which the response `m` of worker `w` has been taken in, whose promise names the key `k`. -/
def responded (p : Pool Data Response) (w : Nat) (m : TaskResponse Response) (k : Nat) : Pool Data Response :=
  (p.modifyNode (p.getWorkerNodeKeyByWorkerId w) (·.answer m.taskId)).answered m k

@[simp] theorem length_responded (p : Pool Data Response) (w : Nat) (m : TaskResponse Response) (k : Nat) :
    (p.responded w m k).workerNodes.length = p.workerNodes.length := by
  simp [responded, answered, modifyNode]

/-- The state a call of `execute` dispatches its task in. -/
def called (p : Pool Data Response) (taskId k : Nat) : Pool Data Response :=
  { p with uuids := taskId :: p.uuids }.withPromise taskId k

end Pool

/-! ## Calls of `execute` -/

section Execute
variable {cb : Callbacks Data Response} {s : Pool Data Response} {k : Nat}
  {Q : Unit → Pool Data Response → Prop} {E : JsError → Pool Data Response → Prop}

theorem wp_rejectOnThrow (taskId : Nat) (m : PoolM Data Response Unit) :
    wp (rejectOnThrow taskId m) Q E s ↔ wp m Q (fun e s' => E e (s'.settle taskId (.thrown e))) s := by
  unfold wp rejectOnThrow
  constructor
  · intro h r s' hm
    rw [hm] at h
    cases r with
    | ok a => exact h _ s' rfl
    | error e => exact h (.error e) _ rfl
  · intro h r s' hm
    rcases hms : m s with _ | ⟨_ | a, s1⟩ <;> rw [hms] at hm <;> cases hm
    · exact h _ _ hms
    · exact h _ _ hms

/-- Whether `execute` gets a key for its task, as far as the arguments and the strategy say. -/
def Accepts (s : Pool Data Response) (name : Option String) (choice : Choice) : Prop :=
  s.started = true ∧ name.any isBlank = false ∧ ∃ k, choice = .key k

/-- `execute` is refused before it has a key, or it dispatches its task to the key. -/
theorem wp_execute {taskId : Nat} {name : Option String} {data : Data} {choice : Choice}
    (hrefuse : ∀ e s', Grown { s with uuids := taskId :: s.uuids } s' →
      (s.shallCreateDynamicWorker = false → s' = { s with uuids := taskId :: s.uuids } ∧ ¬ Accepts s name choice) →
      E e (s'.settle taskId (.thrown e)))
    (hdispatch : ∀ k s', Grown { s with uuids := taskId :: s.uuids } s' →
      (choice = .key k ∨ k = s.workerNodes.length ∧ k < s'.workerNodes.length) →
      (s.shallCreateDynamicWorker = false → s' = { s with uuids := taskId :: s.uuids } ∧ choice = .key k) →
      s.started = true → name.any isBlank = false →
      wp (dispatchTask cb k ⟨name.getD defaultTaskName, data, s.now, taskId⟩) Q
        (fun e s'' => E e (s''.settle taskId (.thrown e))) (s'.withPromise taskId k)) :
    wp (execute cb taskId name data choice) Q E s := by
  simp only [execute, wp_bind, wp_modify, wp_rejectOnThrow, executeExecutor, wp_get]
  split
  · rename_i hst
    exact (wp_throw _).2 (hrefuse _ _ (.refl _) fun _ => ⟨rfl, fun ha => by simp [ha.1] at hst⟩)
  · rename_i hst
    split
    · rename_i hname
      exact (wp_throw _).2 (hrefuse _ _ (.refl _) fun _ => ⟨rfl, fun ha => by simp [ha.2.1] at hname⟩)
    · rename_i hname
      simp only [wp_bind, wp_modify]
      refine wp_mono (chooseWorkerNode_grows choice) (fun k s' hk => ?_) fun e s' hs' => ?_
      · obtain ⟨hg, hkey, hfixed⟩ := hk
        exact hdispatch k s' hg hkey hfixed (by simpa using hst) (by simpa using hname)
      · refine hrefuse e s' hs'.1 fun hc => ⟨(hs'.2 hc).1, fun ha => ?_⟩
        obtain ⟨k, hk⟩ := ha.2.2
        exact (hs'.2 hc).2 k hk

/-- At a key out of range a dispatch throws, and the pool is as it was. -/
theorem wp_dispatchTask_unknown {task : Task Data} (hk : s.workerNodes[k]? = none) :
    wp (dispatchTask cb k task) Q E s ↔ E .undefinedAccess s := by
  simp only [dispatchTask, executeOrEnqueueTask, executeTask, beforeTaskExecutionHook, shallExecuteTask, wp_bind, wp_get]
  split <;> simp only [wp_bind, wp_nodeAt_none hk]

end Execute

section Dispatch
variable {g : Prop} {c : Config Data Response} {s : Pool Data Response} {h : Multiset (Task Data)} {k : Nat}
  {t : Task Data} {cb : Callbacks Data Response}

theorem dispatchTask_moves (hcb : CallbacksMove cb) (hr : Reached g c s (t ::ₘ h)) (hk : k < c.1.workerNodes.length)
    (hg : g → s.opts.enableTasksQueue = true) :
    wp (dispatchTask cb k t) (fun _ s' => Reached g c s' h) (fun _ s' => Failed g c h s') s := by
  obtain ⟨n, hn⟩ := hr.node hk
  simp only [dispatchTask, wp_bind, wp_get]
  split
  · exact executeOrEnqueueTask_moves hcb hr hk
  · exact executeTask_moves hr hn fun h => absurd (hg h) ‹_›

/-! ## Task responses -/

theorem executeNextTask_moves (hcb : CallbacksMove cb) (hr : Reached False c s h) (hk : k < c.1.workerNodes.length) :
    wp (executeNextTask cb k) (fun _ s' => Reached False c s' h) (fun _ s' => Failed False c h s') s := by
  obtain ⟨n, hn⟩ := hr.node hk
  simp only [executeNextTask, wp_bind, wp_get]
  split
  · simp only [wp_bind, wp_nodeAt hn]
    split
    · rename_i hc
      simp only [Bool.and_eq_true, decide_eq_true_eq, gt_iff_lt, List.length_pos_iff] at hc
      refine dequeueThen_moves hcb hr hn hc.1 fun t s' hr' => ?_
      obtain ⟨m, hm⟩ := hr'.node hk
      exact executeTask_moves hr' hm False.elim
    · simpa using hr
  · simpa using hr

end Dispatch

section Response
variable {cb : Callbacks Data Response} {s : Pool Data Response} {k : Nat} {n : WorkerNode Data}
  {Q : Unit → Pool Data Response → Prop} {E : JsError → Pool Data Response → Prop}
  {message : TaskResponse Response}

theorem wp_response_unknown (hl : s.promiseResponseMap.lookup message.taskId = none) :
    wp (handleTaskExecutionResponse cb message) Q E s ↔ Q () s := by
  simp [handleTaskExecutionResponse, hl]

/-- The entry of the promise names a node that has left: the promise ends, then the handler throws. -/
theorem wp_response_dangling (hl : s.promiseResponseMap.lookup message.taskId = some k)
    (hk : s.workerNodes[k]? = none) :
    wp (handleTaskExecutionResponse cb message) Q E s ↔
      E .undefinedAccess (s.settle message.taskId message.settlement) := by
  have hk' : (s.settle message.taskId message.settlement).workerNodes[k]? = none := by simpa using hk
  simp only [handleTaskExecutionResponse, wp_bind, wp_get, hl, wp_modify, afterTaskExecutionHook, wp_nodeAt_none hk']

/-- A response that finds its node is counted there; then the next task may start. -/
theorem handleTaskExecutionResponse_eq (hl : s.promiseResponseMap.lookup message.taskId = some k)
    (hn : s.workerNodes[k]? = some n) :
    handleTaskExecutionResponse cb message s = executeNextTask cb k (s.answered message k) := by
  have hn' : (s.settle message.taskId message.settlement).workerNodes[k]? = some n := by
    rw [Pool.settle_workerNodes]
    exact hn
  have hs : { ((s.settle message.taskId message.settlement).modifyNode k
      (·.afterTaskExecution (s.settle message.taskId message.settlement).taskStatisticsRequirements message)) with
      promiseResponseMap := (s.settle message.taskId message.settlement).promiseResponseMap.erase message.taskId } =
      s.answered message k := by
    rw [Pool.answered, Pool.settle_rest]
  rw [← hs]
  unfold handleTaskExecutionResponse
  rw [get_bind, hl]
  show (Eff.modify _ >>= _) s = _
  rw [modify_bind]
  have hafter : (afterTaskExecutionHook k message : PoolM Data Response Unit)
      (s.settle message.taskId message.settlement) =
      some (.ok (), (s.settle message.taskId message.settlement).modifyNode k
        (·.afterTaskExecution (s.settle message.taskId message.settlement).taskStatisticsRequirements message)) := by
    unfold afterTaskExecutionHook
    rw [nodeAt_bind hn', get_bind]
    rfl
  show (afterTaskExecutionHook k message >>= _) _ = _
  rw [bind_ok hafter]
  rfl

theorem wp_response (hl : s.promiseResponseMap.lookup message.taskId = some k) (hn : s.workerNodes[k]? = some n) :
    wp (handleTaskExecutionResponse cb message) Q E s ↔ wp (executeNextTask cb k) Q E (s.answered message k) := by
  unfold wp
  rw [handleTaskExecutionResponse_eq hl hn]

end Response

/-! ## Nodes after a response -/

/-- What the response `m`, sent by the worker with key `j` and counted at the key `k`, makes of the node `i`. -/
structure Answered (m : TaskResponse Response) (j k i : Nat) (n n' : WorkerNode Data) : Prop where
  worker : n'.worker = if j = i then (n.answer m.taskId).worker else n.worker
  tasksQueue : n'.tasksQueue = n.tasksQueue
  usage : ∃ requirements, n'.usage = if k = i then n.usage.afterTaskExecution requirements m else n.usage
  tasksQueueBackPressureSize : n'.tasksQueueBackPressureSize = n.tasksQueueBackPressureSize
  info : n'.info = n.info
  onEmptyQueue : n'.onEmptyQueue = n.onEmptyQueue
  onEmptyQueueCount : n'.onEmptyQueueCount = n.onEmptyQueueCount
  onBackPressure : n'.onBackPressure = n.onBackPressure

theorem Pool.node_of_responded {p : Pool Data Response} {w k i : Nat} {m : TaskResponse Response}
    {n' : WorkerNode Data} (h : (p.responded w m k).workerNodes[i]? = some n') :
    ∃ n, p.workerNodes[i]? = some n ∧ Answered m (p.getWorkerNodeKeyByWorkerId w) k i n n' := by
  simp only [Pool.responded, Pool.answered, Pool.modifyNode, Pool.settle_workerNodes, List.getElem?_modify,
    Option.map_eq_map] at h
  rcases hn : p.workerNodes[i]? with _ | n
  · simp [hn] at h
  · refine ⟨n, rfl, ?_⟩
    have hafter (a : WorkerNode Data) : ∃ u, a.afterTaskExecution p.taskStatisticsRequirements m =
        { a with usage := a.usage.afterTaskExecution p.taskStatisticsRequirements m, taskFunctionsUsage := u } :=
      afterTaskExecution_eq p.taskStatisticsRequirements m a
    simp only [hn, Option.map_some, Option.some.injEq] at h
    subst h
    by_cases hj : p.getWorkerNodeKeyByWorkerId w = i <;> by_cases hk : k = i <;> simp only [hj, hk, if_true, if_false]
    · obtain ⟨u, hu⟩ := hafter (n.answer m.taskId)
      rw [hu]
      exact ⟨by simp, rfl, ⟨p.taskStatisticsRequirements, by simp [answer]⟩, rfl, rfl, rfl, rfl, rfl⟩
    · exact ⟨by simp, rfl, ⟨p.taskStatisticsRequirements, by simp [answer, hk]⟩, rfl, rfl, rfl, rfl, rfl⟩
    · obtain ⟨u, hu⟩ := hafter n
      rw [hu]
      exact ⟨by simp [hj], rfl, ⟨p.taskStatisticsRequirements, by simp⟩, rfl, rfl, rfl, rfl, rfl⟩
    · exact ⟨by simp [hj], rfl, ⟨p.taskStatisticsRequirements, by simp [hk]⟩, rfl, rfl, rfl, rfl, rfl⟩

theorem Answered.executing {m : TaskResponse Response} {j k i : Nat} {n n' : WorkerNode Data}
    (h : Answered m j k i n n') :
    n'.usage.tasks.executing = if k = i then n.usage.tasks.executing - 1 else n.usage.tasks.executing := by
  obtain ⟨requirements, hu⟩ := h.usage
  rw [hu]
  split
  · exact WorkerUsage.afterTaskExecution_executing _ _ _
  · rfl

/-- A response takes one task out of flight. -/
theorem length_unanswered_answer {n : WorkerNode Data} {taskId : Nat}
    (h : taskId ∈ n.worker.unanswered.map (·.taskId)) :
    (n.answer taskId).worker.unanswered.length = n.worker.unanswered.length - 1 := by
  obtain ⟨t, ht, rfl⟩ := List.mem_map.1 h
  exact List.length_eraseP_of_mem ht (by simp)

theorem unanswered_pos {n : WorkerNode Data} {taskId : Nat} (h : taskId ∈ n.worker.unanswered.map (·.taskId)) :
    0 < n.worker.unanswered.length := by
  have hpos := List.length_pos_of_mem h
  rwa [List.length_map] at hpos

/-- A response that is counted at its sender leaves its counter right. -/
theorem Answered.counts {m : TaskResponse Response} {k : Nat} {n n' : WorkerNode Data} (h : Answered m k k k n n')
    (hm : m.taskId ∈ n.worker.unanswered.map (·.taskId))
    (hcount : n.usage.tasks.executing = n.worker.unanswered.length) :
    n'.usage.tasks.executing = n'.worker.unanswered.length := by
  rw [h.executing, h.worker, if_pos rfl, if_pos rfl, length_unanswered_answer hm, hcount]

/-- A response changes the nodes, ends its promise and takes the entry out of the map. -/
theorem responded_rest (p : Pool Data Response) (w k : Nat) (m : TaskResponse Response) :
    p.responded w m k = { p with
      workerNodes := (p.responded w m k).workerNodes
      settled := (p.responded w m k).settled
      promiseResponseMap := p.promiseResponseMap.erase m.taskId } := by
  simp only [Pool.responded, Pool.answered]
  rw [Pool.settle_rest]
  rfl

theorem responded_opts (p : Pool Data Response) (w k : Nat) (m : TaskResponse Response) :
    (p.responded w m k).opts = p.opts := by
  rw [responded_rest]

theorem responded_errorsCaught (p : Pool Data Response) (w k : Nat) (m : TaskResponse Response) :
    (p.responded w m k).errorsCaught = p.errorsCaught := by
  rw [responded_rest]

theorem responded_concurrency (p : Pool Data Response) (w k : Nat) (m : TaskResponse Response) :
    (p.responded w m k).concurrency = p.concurrency := by
  unfold Pool.concurrency
  rw [responded_opts]

/-! ## Messages -/

section Message
variable {cb : Callbacks Data Response} {s : Pool Data Response} {fuel workerId : Nat} {n : WorkerNode Data}
  {Q : Unit → Pool Data Response → Prop} {E : JsError → Pool Data Response → Prop}

theorem wp_message_unknown {message : WorkerMessage Response}
    (hn : s.workerNodes[s.getWorkerNodeKeyByWorkerId workerId]? = none) (hE : ∀ e, E e s) :
    wp (handleMessage cb fuel workerId message) Q E s := by
  simp only [handleMessage, wp_bind, wp_get, hn, wp_throw]
  exact hE _

theorem handleMessage_taskResponse_eq (hn : s.workerNodes[s.getWorkerNodeKeyByWorkerId workerId]? = some n)
    (m : TaskResponse Response) : handleMessage cb fuel workerId (.taskResponse m) s =
      handleTaskExecutionResponse cb m (s.modifyNode (s.getWorkerNodeKeyByWorkerId workerId) (·.answer m.taskId)) := by
  unfold handleMessage
  rw [get_bind, get_bind, hn]
  rfl

theorem wp_message {message : WorkerMessage Response}
    (hn : s.workerNodes[s.getWorkerNodeKeyByWorkerId workerId]? = some n)
    (hready : ∀ names, message = .ready true names → Q () (s.modifyNode (s.getWorkerNodeKeyByWorkerId workerId)
      fun n => { n with info.ready := true, info.taskFunctionNames := some names }))
    (hnotReady : ∀ names e, message = .ready false names → E e s)
    (hnames : ∀ names, message = .taskFunctionNames names →
      Q () (s.modifyNode (s.getWorkerNodeKeyByWorkerId workerId) fun n => { n with info.taskFunctionNames := some names }))
    (hresponse : ∀ m, message = .taskResponse m → wp (handleTaskExecutionResponse cb m) Q E
      (s.modifyNode (s.getWorkerNodeKeyByWorkerId workerId) (·.answer m.taskId)))
    (hkill : ∀ behavior, message = .killRequest behavior → n.info.dynamic = true →
      wp (handleKillRequest cb fuel (s.getWorkerNodeKeyByWorkerId workerId) behavior) Q E s)
    (hnotDynamic : ∀ behavior, message = .killRequest behavior → n.info.dynamic = false → Q () s)
    (hkilled : message = .killAnswer true →
      Q () (s.modifyNode (s.getWorkerNodeKeyByWorkerId workerId) fun n => { n.closeChannel with terminated := true }))
    (hnotKilled : message = .killAnswer false → Q () s) :
    wp (handleMessage cb fuel workerId message) Q E s := by
  simp only [handleMessage, wp_bind, wp_get, hn]
  cases message with
  | ready b names =>
    cases b with
    | true => simpa using hready names rfl
    | false => simpa using hnotReady names _ rfl
  | taskFunctionNames names => simpa using hnames names rfl
  | taskResponse m => simpa using hresponse m rfl
  | killRequest behavior =>
    rcases hd : n.info.dynamic with _ | _
    · simpa [hd] using hnotDynamic behavior rfl hd
    · simpa [hd] using hkill behavior rfl hd
  | killAnswer b =>
    cases b with
    | true => simpa using hkilled rfl
    | false => simpa using hnotKilled rfl

end Message

/-! ## Polling ticks -/

section Poll
variable {g : Prop} {c : Config Data Response} {s : Pool Data Response} {h : Multiset (Task Data)} {workerId : Nat}

theorem pollingTick_moves {cb : Callbacks Data Response} (hcb : CallbacksMove cb) (hr : Reached g c s h)
    (hn : ∃ n ∈ s.workerNodes, n.info.id = workerId) :
    wp (pollingTick cb workerId) (fun _ s' => Reached g c s' h) (fun _ _ => False) s := by
  have hk := (s.key_lt_iff workerId).2 hn
  obtain ⟨n, hn'⟩ := Pool.node_of_lt hk
  simp only [pollingTick, wp_bind, wp_get, hk, if_true]
  exact startOnEmptyQueueCaught_moves hcb hr hn'

end Poll

end Poolifier
