import Mathlib.Data.List.InsertIdx
import Poolifier.Lib.Projection
import Poolifier.Moves
/-!
# What the strategies keep on the nodes

The fair share strategy keeps a timestamp on each node. No code of the pool reads
it: an event does to a pool without the timestamps what it does to the pool with
them, and leaves no others. So the theorems about runs of a pool hold as well
when its strategy writes to the nodes in between.
-/

namespace Poolifier

open EffLib RunLib

variable {Data Response : Type}

/-- The node without what a strategy keeps on it. -/
def WorkerNode.forget (n : WorkerNode Data) : WorkerNode Data := { n with strategyData := none }

/-- The pool without what a strategy keeps on its nodes. -/
def Pool.forget (p : Pool Data Response) : Pool Data Response :=
  { p with
    workerNodes := p.workerNodes.map (·.forget)
    removedNodes := p.removedNodes.map (·.forget) }

/-- The code ignores what a strategy keeps on the nodes. -/
abbrev Ignores {α : Type} (m : PoolM Data Response α) : Prop := Projects Pool.forget m m

/-! ## Nodes -/

namespace WorkerNode

theorem forget_updateTaskFunctionWorkerUsage (name : Option String) (f : WorkerUsage → WorkerUsage) (n : WorkerNode Data) :
    (n.updateTaskFunctionWorkerUsage name f).forget = n.forget.updateTaskFunctionWorkerUsage name f := by
  have hshall : n.forget.shallUpdateTaskFunctionWorkerUsage = n.shallUpdateTaskFunctionWorkerUsage := rfl
  have hget : n.forget.getTaskFunctionWorkerUsage name = n.getTaskFunctionWorkerUsage name := rfl
  unfold updateTaskFunctionWorkerUsage
  rw [hshall, hget]
  split
  · split <;> rfl
  · rfl

theorem forget_beforeTaskExecution (r : TaskStatisticsRequirements) (now : ℚ) (t : Task Data) (n : WorkerNode Data) :
    (n.beforeTaskExecution r now t).forget = n.forget.beforeTaskExecution r now t :=
  forget_updateTaskFunctionWorkerUsage _ _ _

theorem forget_afterTaskExecution (r : TaskStatisticsRequirements) (m : TaskResponse Response) (n : WorkerNode Data) :
    (n.afterTaskExecution r m).forget = n.forget.afterTaskExecution r m :=
  forget_updateTaskFunctionWorkerUsage _ _ _

theorem forget_stealTask (name : String) (n : WorkerNode Data) : (n.stealTask name).forget = n.forget.stealTask name :=
  forget_updateTaskFunctionWorkerUsage _ _ _

end WorkerNode

section Pools
variable (p : Pool Data Response)

@[simp] theorem Pool.forget_workerNodes : p.forget.workerNodes = p.workerNodes.map (·.forget) := rfl

@[simp] theorem Pool.forget_promiseResponseMap : p.forget.promiseResponseMap = p.promiseResponseMap := rfl

@[simp] theorem Pool.forget_removedNodes : p.forget.removedNodes = p.removedNodes.map (·.forget) := rfl

theorem Pool.forget_modifyNode (k : Nat) {f g : WorkerNode Data → WorkerNode Data} (h : ∀ n, (f n).forget = g n.forget) :
    (p.modifyNode k f).forget = p.forget.modifyNode k g := by
  have hnodes : (p.workerNodes.modify k f).map (·.forget) = (p.workerNodes.map (·.forget)).modify k g := by
    refine List.ext_getElem? fun i => ?_
    rw [List.getElem?_map, List.getElem?_modify, List.getElem?_modify, List.getElem?_map]
    rcases p.workerNodes[i]? with _ | n
    · rfl
    · by_cases hki : k = i
      · simp [hki, h]
      · simp [hki]
  simp only [Pool.forget, Pool.modifyNode, hnodes]

@[simp] theorem Pool.forget_getWorkerNodeKeyByWorkerId (w : Nat) :
    p.forget.getWorkerNodeKeyByWorkerId w = p.getWorkerNodeKeyByWorkerId w := by
  unfold Pool.getWorkerNodeKeyByWorkerId
  rw [Pool.forget_workerNodes, List.findIdx_map]
  rfl

theorem Pool.forget_zipIdx :
    p.forget.workerNodes.zipIdx = p.workerNodes.zipIdx.map fun a => (a.1.forget, a.2) := by
  rw [Pool.forget_workerNodes, List.zipIdx_map]
  rfl

@[simp] theorem Pool.forget_staticWorkerNodes : p.forget.staticWorkerNodes = p.staticWorkerNodes := by
  unfold Pool.staticWorkerNodes
  rw [Pool.forget_workerNodes, List.countP_map]
  rfl

@[simp] theorem Pool.forget_shallCreateDynamicWorker : p.forget.shallCreateDynamicWorker = p.shallCreateDynamicWorker := by
  have hfull : p.forget.full = p.full := by
    unfold Pool.full
    rw [Pool.forget_workerNodes, List.length_map]
    rfl
  have hbusy : p.forget.internalBusy = p.internalBusy := by
    unfold Pool.internalBusy
    simp only [Pool.forget_workerNodes, List.all_map]
    rfl
  unfold Pool.shallCreateDynamicWorker
  rw [hfull, hbusy]
  rfl

theorem forget_emptyQueueStealSource (w : Nat) :
    emptyQueueStealSource p.forget w = (emptyQueueStealSource p w).map fun a => (a.1.forget, a.2) := by
  unfold emptyQueueStealSource
  have hsorted := List.map_insertionSort (fun a b : WorkerNode Data × Nat => b.1.tasksQueue.length ≤ a.1.tasksQueue.length)
    (fun a b : WorkerNode Data × Nat => b.1.tasksQueue.length ≤ a.1.tasksQueue.length) (fun a => (a.1.forget, a.2))
    p.workerNodes.zipIdx fun _ _ _ _ => Iff.rfl
  rw [Pool.forget_zipIdx, ← hsorted, List.find?_map]
  rfl

theorem forget_redistributionKey : redistributionKey p.forget = redistributionKey p := by
  unfold redistributionKey
  rw [Pool.forget_zipIdx, List.foldl_map]
  refine List.foldl_ext _ _ _ fun k a _ => ?_
  obtain ⟨n, i⟩ := a
  have hany : (p.forget.workerNodes[k]?).any (n.tasksQueue.length < ·.tasksQueue.length) =
      (p.workerNodes[k]?).any (n.tasksQueue.length < ·.tasksQueue.length) := by
    rw [Pool.forget_workerNodes, List.getElem?_map]
    rcases p.workerNodes[k]? with _ | n' <;> rfl
  show (if n.info.ready && (p.forget.workerNodes[k]?).any (n.tasksQueue.length < ·.tasksQueue.length) then i else k) = _
  rw [hany]

end Pools

/-! ## Queues -/

section Code
variable {α : Type} {cb : Callbacks Data Response}

theorem nodeAt_bind_none {s : Pool Data Response} {k : Nat} (h : s.workerNodes[k]? = none)
    (f : WorkerNode Data → PoolM Data Response α) : (nodeAt k >>= f) s = some (.error .undefinedAccess, s) := by
  refine bind_error ?_ f
  unfold nodeAt
  rw [get_bind, h]
  rfl

theorem projects_nodeAt_bind {k : Nat} {f g : WorkerNode Data → PoolM Data Response α}
    (h : ∀ n, Projects Pool.forget (f n) (g n.forget)) : Projects Pool.forget (nodeAt k >>= f) (nodeAt k >>= g) := by
  intro s
  have hat : s.forget.workerNodes[k]? = s.workerNodes[k]?.map (·.forget) := List.getElem?_map
  rcases hn : s.workerNodes[k]? with _ | n
  · rw [hn] at hat
    exact projectsAt_of_eq (nodeAt_bind_none hn f) (nodeAt_bind_none hat g)
  · rw [hn] at hat
    unfold ProjectsAt
    rw [nodeAt_bind hat, nodeAt_bind hn]
    exact h n s

theorem ignores_modifyNode (k : Nat) {f : WorkerNode Data → WorkerNode Data} (h : ∀ n, (f n).forget = f n.forget) :
    Ignores (modifyNode k f : PoolM Data Response Unit) :=
  projects_modify fun p => p.forget_modifyNode k h

/-- The callbacks ignore it. -/
structure Callbacks.Ignoring (cb : Callbacks Data Response) : Prop where
  onEmptyQueue : ∀ w, Ignores (cb.onEmptyQueue w)
  onBackPressure : ∀ w, Ignores (cb.onBackPressure w)

theorem ignores_enqueueTask (hcb : cb.Ignoring) (k : Nat) (t : Task Data) : Ignores (enqueueTask cb k t) := by
  refine projects_nodeAt_bind fun _ => Projects.bind (ignores_modifyNode k fun _ => rfl) fun _ => ?_
  refine projects_nodeAt_bind fun n => .ite ?_ (projects_pure _)
  refine Projects.bind (ignores_modifyNode k fun _ => rfl) fun _ => (hcb.onBackPressure n.info.id).bind fun _ => ?_
  exact ignores_modifyNode k fun _ => rfl

theorem ignores_startOnEmptyQueue (hcb : cb.Ignoring) (k : Nat) : Ignores (startOnEmptyQueue cb k) := by
  refine projects_nodeAt_bind fun n => .ite (ignores_modifyNode k fun _ => rfl) ?_
  exact Projects.bind (ignores_modifyNode k fun _ => rfl) fun _ => .ite (hcb.onEmptyQueue n.info.id) (projects_pure _)

theorem ignores_startOnEmptyQueueCaught (hcb : cb.Ignoring) (k : Nat) : Ignores (startOnEmptyQueueCaught cb k) := by
  refine (ignores_startOnEmptyQueue hcb k).swallow fun p => ?_
  have hnodes := p.forget_modifyNode k (f := fun n => { n with polling := false }) (g := fun n => { n with polling := false })
    fun _ => rfl
  show { (p.modifyNode k fun n => { n with polling := false }).forget with errorsCaught := p.errorsCaught + 1 } = _
  rw [hnodes]
  rfl

theorem ignores_afterTaken (hcb : cb.Ignoring) (k : Nat) : Ignores (afterTaken cb k) :=
  projects_nodeAt_bind fun _ => .ite (ignores_startOnEmptyQueueCaught hcb k) (projects_pure _)

theorem ignores_dequeueTask (hcb : cb.Ignoring) (k : Nat) : Ignores (dequeueTask cb k) := by
  refine projects_nodeAt_bind fun n => Projects.bind (ignores_modifyNode k fun _ => rfl) fun _ => ?_
  exact (ignores_afterTaken hcb k).bind fun _ => projects_pure _

theorem ignores_popTask (hcb : cb.Ignoring) (k : Nat) : Ignores (popTask cb k) := by
  refine projects_nodeAt_bind fun n => Projects.bind (ignores_modifyNode k fun _ => rfl) fun _ => ?_
  exact (ignores_afterTaken hcb k).bind fun _ => projects_pure _

theorem ignores_beforeTaskExecutionHook (k : Nat) (t : Task Data) :
    Ignores (beforeTaskExecutionHook k t : PoolM Data Response Unit) :=
  projects_nodeAt_bind fun _ => projects_get_bind fun _ => ignores_modifyNode k fun n => n.forget_beforeTaskExecution _ _ t

theorem ignores_afterTaskExecutionHook (k : Nat) (m : TaskResponse Response) :
    Ignores (afterTaskExecutionHook k m : PoolM Data Response Unit) :=
  projects_nodeAt_bind fun _ => projects_get_bind fun _ => ignores_modifyNode k fun n => n.forget_afterTaskExecution _ m

theorem ignores_sendToWorker (k : Nat) (t : Task Data) : Ignores (sendToWorker k t : PoolM Data Response Unit) := by
  refine projects_nodeAt_bind fun n => .ite (projects_throw _) (projects_get_bind fun p => ?_)
  exact .ite (projects_throw _) (ignores_modifyNode k fun _ => rfl)

theorem ignores_executeTask (k : Nat) (t : Task Data) : Ignores (executeTask k t : PoolM Data Response Unit) :=
  (ignores_beforeTaskExecutionHook k t).bind fun _ => ignores_sendToWorker k t

theorem ignores_shallExecuteTask (k : Nat) : Ignores (shallExecuteTask k : PoolM Data Response Bool) :=
  projects_nodeAt_bind fun _ => projects_get_bind fun _ => projects_pure _

theorem ignores_executeOrEnqueueTask (hcb : cb.Ignoring) (k : Nat) (t : Task Data) : Ignores (executeOrEnqueueTask cb k t) :=
  (ignores_shallExecuteTask k).bind fun _ => .ite (ignores_executeTask k t) (ignores_enqueueTask hcb k t)

theorem ignores_dispatchStolenTask (hcb : cb.Ignoring) (k : Nat) (t : Option (Task Data)) :
    Ignores (dispatchStolenTask cb k t) := by
  cases t with
  | none => exact projects_throw _
  | some t =>
    refine (ignores_executeOrEnqueueTask hcb k t).bind fun _ => projects_nodeAt_bind fun _ => ?_
    exact ignores_modifyNode k fun n => n.forget_stealTask t.name

theorem ignores_taskStealingOnEmptyQueue (hcb : cb.Ignoring) (w : Nat) : Ignores (taskStealingOnEmptyQueue cb w) := by
  refine projects_get_bind fun p => ?_
  rw [forget_emptyQueueStealSource, Pool.forget_getWorkerNodeKeyByWorkerId]
  rcases emptyQueueStealSource p w with _ | ⟨n, source⟩
  · exact projects_pure _
  · exact (ignores_popTask hcb source).bind fun t => ignores_dispatchStolenTask hcb _ t

theorem ignores_stealOnBackPressure (hcb : cb.Ignoring) (w source node k : Nat) :
    Ignores (stealOnBackPressure cb w source node k) := by
  refine projects_nodeAt_bind fun _ => .ite ?_ (projects_pure _)
  refine projects_nodeAt_bind fun _ => projects_get_bind fun _ => .ite ?_ (projects_pure _)
  exact (ignores_popTask hcb source).bind fun t => ignores_dispatchStolenTask hcb k t

theorem ignores_tasksStealingOnBackPressure (hcb : cb.Ignoring) (w : Nat) : Ignores (tasksStealingOnBackPressure cb w) := by
  refine projects_get_bind fun p => .ite (projects_pure _) ?_
  have hsorted := List.map_insertionSort (fun a b : WorkerNode Data × Nat => a.1.tasksQueue.length ≤ b.1.tasksQueue.length)
    (fun a b : WorkerNode Data × Nat => a.1.tasksQueue.length ≤ b.1.tasksQueue.length) (fun a => (a.1.forget, a.2))
    p.workerNodes.zipIdx fun _ _ _ _ => Iff.rfl
  simp only [Pool.forget_getWorkerNodeKeyByWorkerId, Pool.forget_zipIdx, ← hsorted, List.zipIdx_map, forEach_map]
  exact .forEach (fun _ => ignores_stealOnBackPressure hcb w _ _ _) _

theorem ignoring_callbacks (fuel : Nat) : (callbacks fuel : Callbacks Data Response).Ignoring := by
  induction fuel with
  | zero => exact ⟨fun _ => projects_diverge, fun _ => projects_diverge⟩
  | succ fuel ih => exact ⟨ignores_taskStealingOnEmptyQueue ih, ignores_tasksStealingOnBackPressure ih⟩

theorem ignores_dequeueThen (hcb : cb.Ignoring) (k : Nat) {next : Task Data → PoolM Data Response Unit}
    (h : ∀ t, Ignores (next t)) : Ignores (dequeueThen cb k next) := by
  refine (ignores_dequeueTask hcb k).bind fun t => ?_
  cases t with
  | none => exact projects_throw _
  | some t => exact h t

theorem ignores_tasksQueueNotEmpty (k : Nat) : Ignores (tasksQueueNotEmpty k : PoolM Data Response Bool) :=
  projects_nodeAt_bind fun _ => projects_pure _

theorem ignores_redistributeQueuedTasks (hcb : cb.Ignoring) (fuel k : Nat) : Ignores (redistributeQueuedTasks cb fuel k) := by
  refine (ignores_tasksQueueNotEmpty k).whileDo (projects_get_bind fun p => ?_) fuel
  rw [forget_redistributionKey]
  exact ignores_dequeueThen hcb k fun t => ignores_executeOrEnqueueTask hcb _ t

theorem ignores_flushTasksQueue (hcb : cb.Ignoring) (fuel k : Nat) : Ignores (flushTasksQueue cb fuel k) := by
  refine Projects.bind ((ignores_tasksQueueNotEmpty k).whileDo ?_ fuel) fun _ => ignores_modifyNode k fun _ => rfl
  exact ignores_dequeueThen hcb k fun t => ignores_executeTask k t

theorem ignores_flushTasksQueues (hcb : cb.Ignoring) (fuel : Nat) : Ignores (flushTasksQueues cb fuel) := by
  refine projects_get_bind fun p => ?_
  rw [Pool.forget_workerNodes, List.length_map]
  exact .forEach (fun k => ignores_flushTasksQueue hcb fuel k) _

/-! ## Events -/

theorem ignores_liftCheck (c : Except JsError Unit) : Ignores (liftCheck c : PoolM Data Response Unit) := by
  cases c with
  | ok => exact projects_pure _
  | error e => exact projects_throw e

theorem ignores_mapNodes {f : WorkerNode Data → WorkerNode Data} (h : ∀ n, (f n).forget = f n.forget) :
    Ignores (mapNodes f : PoolM Data Response Unit) := by
  refine projects_modify fun p => ?_
  have hnodes : (p.workerNodes.map f).map (·.forget) = (p.workerNodes.map (·.forget)).map f := by
    rw [List.map_map, List.map_map]
    exact List.map_congr_left fun n _ => h n
  simp only [Pool.forget, hnodes]

theorem ignores_setTasksQueueOptions (o : TasksQueueOptionsArgument) :
    Ignores (setTasksQueueOptions o : PoolM Data Response Unit) := by
  refine projects_get_bind fun p => .ite ?_ (projects_modify fun _ => rfl)
  refine Projects.bind (ignores_liftCheck _) fun _ => Projects.bind (projects_modify fun _ => rfl) fun _ => ?_
  refine Projects.bind (ignores_mapNodes fun _ => rfl) fun _ => ?_
  exact Projects.bind (ignores_mapNodes fun _ => rfl) fun _ => ignores_mapNodes fun _ => rfl

theorem ignores_enableTasksQueue (hcb : cb.Ignoring) (fuel : Nat) (enable : Bool) (o : TasksQueueOptionsArgument) :
    Ignores (enableTasksQueue cb fuel enable o) := by
  have hdisable : Ignores (disableTasksQueue cb fuel) := by
    refine Projects.bind (ignores_mapNodes fun _ => rfl) fun _ => Projects.bind (ignores_mapNodes fun _ => rfl) fun _ => ?_
    exact ignores_flushTasksQueues hcb fuel
  have hrest : Ignores (do
      Eff.modify fun p => { p with opts.enableTasksQueue := enable }
      setTasksQueueOptions o : PoolM Data Response Unit) :=
    Projects.bind (projects_modify fun _ => rfl) fun _ => ignores_setTasksQueueOptions o
  exact projects_get_bind fun p => .ite (hdisable.bind fun _ => hrest) hrest

theorem ignores_createAndSetupWorkerNode : Ignores (createAndSetupWorkerNode : PoolM Data Response Nat) := by
  have hadd : Ignores (addWorkerNode : PoolM Data Response Nat) := by
    refine projects_get_bind fun p => Projects.bind (ignores_liftCheck _) fun _ => ?_
    rw [Pool.forget_workerNodes, List.length_map]
    refine Projects.bind (projects_modify fun q => ?_) fun _ => projects_pure _
    simp only [Pool.forget, List.map_append, List.map_cons, List.map_nil]
    rfl
  refine hadd.bind fun k => Projects.bind ?_ fun _ => projects_pure _
  exact projects_get_bind fun p => .ite (ignores_modifyNode k fun _ => rfl) (projects_pure _)

theorem ignores_createAndSetupDynamicWorkerNode : Ignores (createAndSetupDynamicWorkerNode : PoolM Data Response Nat) := by
  refine ignores_createAndSetupWorkerNode.bind fun k => projects_get_bind fun p => ?_
  exact Projects.bind (ignores_modifyNode k fun _ => rfl) fun _ => projects_pure _

theorem ignores_start (fuel : Nat) : Ignores (start fuel : PoolM Data Response Unit) := by
  refine Projects.bind (projects_modify fun _ => rfl) fun _ => ?_
  refine Projects.bind (Projects.whileDo ?_ ?_ fuel) fun _ => projects_modify fun _ => rfl
  · intro p
    show some (Except.ok (decide (p.forget.staticWorkerNodes < p.numberOfWorkers)), p.forget) = _
    rw [Pool.forget_staticWorkerNodes]
    rfl
  · exact ignores_createAndSetupWorkerNode.bind fun _ => projects_pure _

theorem ignores_removeWorkerNode (w : Nat) : Ignores (removeWorkerNode w : PoolM Data Response Unit) := by
  refine projects_modify fun p => ?_
  rw [Pool.forget_getWorkerNodeKeyByWorkerId, Pool.forget_workerNodes, List.getElem?_map]
  rcases p.workerNodes[p.getWorkerNodeKeyByWorkerId w]? with _ | n
  · rfl
  · simp only [Option.map_some, Pool.forget, List.map_append, List.map_cons, List.map_nil, List.eraseIdx_map]

theorem ignores_destroyWorkerNodeCaught (hcb : cb.Ignoring) (fuel k : Nat) (reason : DestroyReason) :
    Ignores (destroyWorkerNodeCaught cb fuel k reason) := by
  have hdestroy : Ignores (destroyWorkerNode cb fuel k reason) := by
    refine (ignores_flushTasksQueue hcb fuel k).bind fun _ => projects_nodeAt_bind fun n => ?_
    exact .ite (ignores_modifyNode k fun _ => rfl) (projects_throw _)
  exact hdestroy.swallow fun _ => rfl

theorem ignores_chooseWorkerNode (choice : Choice) : Ignores (chooseWorkerNode choice : PoolM Data Response Nat) := by
  have hchoose : Ignores (chooseWorkerNode.choose choice : PoolM Data Response Nat) := by
    cases choice with
    | key k => exact projects_pure k
    | none retriesCount => exact projects_throw _
  refine projects_get_bind fun p => ?_
  rw [Pool.forget_shallCreateDynamicWorker]
  exact .ite (ignores_createAndSetupDynamicWorkerNode.bind fun k => .ite (projects_pure k) hchoose) hchoose

theorem Pool.forget_settle (i : Nat) (r : Settlement Response) (p : Pool Data Response) :
    (p.settle i r).forget = p.forget.settle i r := by
  unfold Pool.settle
  show _ = if p.settled.any (·.1 = i) then _ else _
  split <;> rfl

theorem ignores_dispatchTask (hcb : cb.Ignoring) (k : Nat) (t : Task Data) : Ignores (dispatchTask cb k t) :=
  projects_get_bind fun _ => .ite (ignores_executeOrEnqueueTask hcb k t) (ignores_executeTask k t)

theorem ignores_executeExecutor (hcb : cb.Ignoring) (i : Nat) (name : Option String) (data : Data) (choice : Choice) :
    Ignores (executeExecutor cb i name data choice) := by
  refine projects_get_bind fun p => .ite (projects_throw _) (.ite (projects_throw _) ?_)
  refine (ignores_chooseWorkerNode choice).bind fun k => Projects.bind (projects_modify fun _ => rfl) fun _ => ?_
  exact ignores_dispatchTask hcb k _

theorem projects_rejectOnThrow (i : Nat) {m : PoolM Data Response Unit} (h : Ignores m) : Ignores (rejectOnThrow i m) := by
  intro s
  unfold ProjectsAt rejectOnThrow
  rw [(h s).eq]
  rcases m s with _ | ⟨e | _, s'⟩
  · rfl
  · show some (Except.error e, s'.forget.settle i (.thrown e)) = some (Except.error e, (s'.settle i (.thrown e)).forget)
    rw [Pool.forget_settle]
  · rfl

theorem ignores_executeNextTask (hcb : cb.Ignoring) (k : Nat) : Ignores (executeNextTask cb k) := by
  refine projects_get_bind fun p => .ite (projects_nodeAt_bind fun n => .ite ?_ (projects_pure _)) (projects_pure _)
  exact ignores_dequeueThen hcb k fun t => ignores_executeTask k t

theorem ignores_handleTaskExecutionResponse (hcb : cb.Ignoring) (m : TaskResponse Response) :
    Ignores (handleTaskExecutionResponse cb m) := by
  refine projects_get_bind fun p => ?_
  rw [Pool.forget_promiseResponseMap]
  rcases p.promiseResponseMap.lookup m.taskId with _ | k
  · exact projects_pure _
  · refine Projects.bind (projects_modify fun p => p.forget_settle _ _) fun _ => ?_
    refine (ignores_afterTaskExecutionHook k m).bind fun _ => Projects.bind (projects_modify fun _ => rfl) fun _ => ?_
    exact ignores_executeNextTask hcb k

theorem ignores_handleKillRequest (hcb : cb.Ignoring) (fuel k : Nat) (behavior : KillBehavior) :
    Ignores (handleKillRequest cb fuel k behavior) := by
  refine projects_nodeAt_bind fun n => projects_get_bind fun p => ?_
  cases behavior with
  | hard => exact ignores_destroyWorkerNodeCaught hcb fuel k .hardKill
  | soft => exact .ite (ignores_destroyWorkerNodeCaught hcb fuel k .softKill) (projects_pure _)

theorem ignores_handleMessage (hcb : cb.Ignoring) (fuel w : Nat) (m : WorkerMessage Response) :
    Ignores (handleMessage cb fuel w m) := by
  refine projects_get_bind fun p => projects_get_bind fun q => ?_
  rw [Pool.forget_getWorkerNodeKeyByWorkerId, Pool.forget_workerNodes, List.getElem?_map]
  rcases q.workerNodes[p.getWorkerNodeKeyByWorkerId w]? with _ | n
  · exact projects_throw _
  · cases m with
    | ready ready names =>
      cases ready with
      | true => exact ignores_modifyNode _ fun _ => rfl
      | false => exact projects_throw _
    | taskFunctionNames names => exact ignores_modifyNode _ fun _ => rfl
    | taskResponse m =>
      exact Projects.bind (ignores_modifyNode _ fun _ => rfl) fun _ => ignores_handleTaskExecutionResponse hcb m
    | killRequest behavior => exact .ite (ignores_handleKillRequest hcb fuel _ behavior) (projects_pure _)
    | killAnswer success =>
      cases success with
      | true => exact ignores_modifyNode _ fun _ => rfl
      | false => exact projects_pure _

theorem ignores_handleError (hcb : cb.Ignoring) (fuel w : Nat) : Ignores (handleError cb fuel w) := by
  refine projects_get_bind fun p => ?_
  rw [Pool.forget_getWorkerNodeKeyByWorkerId]
  generalize p.getWorkerNodeKeyByWorkerId w = k
  have hrest : Ignores (if p.started && p.opts.enableTasksQueue then redistributeQueuedTasks cb fuel k else pure ()) :=
    .ite (ignores_redistributeQueuedTasks hcb fuel k) (projects_pure _)
  refine projects_nodeAt_bind fun n => Projects.bind (ignores_modifyNode _ fun _ => rfl) fun _ => ?_
  refine .ite (.ite ?_ ?_) hrest
  · exact ignores_createAndSetupDynamicWorkerNode.bind fun _ => hrest
  · exact ignores_createAndSetupWorkerNode.bind fun _ => hrest

theorem ignores_pollingTick (hcb : cb.Ignoring) (w : Nat) : Ignores (pollingTick cb w) := by
  have hmodify (i : Nat) {f : WorkerNode Data → WorkerNode Data} (h : ∀ n, (f n).forget = f n.forget) :
      ∀ p : Pool Data Response, ({ p with removedNodes := p.removedNodes.modify i f } : Pool Data Response).forget =
        { p.forget with removedNodes := p.forget.removedNodes.modify i f } := by
    intro p
    have hnodes := congrArg Pool.workerNodes
      (Pool.forget_modifyNode { p with workerNodes := p.removedNodes } i h)
    simp only [Pool.forget, Pool.modifyNode] at hnodes ⊢
    rw [hnodes]
  have hremoved (i : Nat) : Ignores (pollingTick.removedNodeTick cb i w) := by
    refine projects_get_bind fun p => ?_
    rw [Pool.forget_removedNodes, List.getElem?_map]
    rcases p.removedNodes[i]? with _ | n
    · exact projects_pure _
    · refine .ite (projects_modify (hmodify i fun _ => rfl)) ?_
      refine Projects.bind (projects_modify (hmodify i fun _ => rfl)) fun _ => .ite ?_ (projects_pure _)
      refine (hcb.onEmptyQueue w).swallow fun p => ?_
      have hnodes := hmodify i (f := fun n => { n with polling := false }) (fun _ => rfl) p
      exact congrArg (fun q : Pool Data Response => { q with errorsCaught := p.errorsCaught + 1 }) hnodes
  refine projects_get_bind fun p => ?_
  have hfind : p.forget.removedNodes.findIdx? (·.info.id = w) = p.removedNodes.findIdx? (·.info.id = w) := by
    rw [Pool.forget_removedNodes, List.findIdx?_map]
    rfl
  rw [Pool.forget_getWorkerNodeKeyByWorkerId, Pool.forget_workerNodes, List.length_map, hfind]
  refine .ite (ignores_startOnEmptyQueueCaught hcb _) ?_
  generalize p.removedNodes.findIdx? (·.info.id = w) = found
  cases found with
  | none => exact projects_pure _
  | some i => exact hremoved i

/-- No event reads what a strategy keeps on the nodes. -/
theorem ignores_handle (fuel : Nat) (e : Event Data Response) : Ignores (handle fuel e) := by
  have hcb : (callbacks fuel : Callbacks Data Response).Ignoring := ignoring_callbacks fuel
  cases e with
  | execute i name data choice =>
    refine Projects.bind (projects_modify fun _ => rfl) fun _ => ?_
    exact projects_rejectOnThrow i (ignores_executeExecutor hcb i name data choice)
  | message w m => exact ignores_handleMessage hcb fuel w m
  | poll w => exact ignores_pollingTick hcb w
  | error w => exact ignores_handleError hcb fuel w
  | exit w => exact ignores_removeWorkerNode w
  | start => exact ignores_start fuel
  | enableTasksQueue enable o => exact ignores_enableTasksQueue hcb fuel enable o
  | setTasksQueueOptions o => exact ignores_setTasksQueueOptions o
  | destroy =>
    refine Projects.bind (projects_modify fun _ => rfl) fun _ => projects_get_bind fun p => ?_
    rw [Pool.forget_workerNodes, List.length_map]
    exact .forEach (fun k => ignores_destroyWorkerNodeCaught hcb fuel k .poolDestroyed) _
  | destroyed => exact projects_modify fun _ => rfl

end Code

/-! ## Steps -/

section Steps
variable {s : Pool Data Response} {e : Event Data Response}

theorem nodeOf_forget {w : Nat} {P : WorkerNode Data → Prop} (hP : ∀ n, P n.forget ↔ P n) :
    NodeOf s.forget w P ↔ NodeOf s w P := by
  have hid (n : WorkerNode Data) : n.forget.info.id = n.info.id := rfl
  unfold NodeOf
  simp only [Pool.forget_workerNodes, Pool.forget_removedNodes, List.mem_map, exists_exists_and_eq_and,
    forall_exists_index, and_imp, forall_apply_eq_imp_iff₂,
    hP, hid]

theorem enabled_forget : Enabled s.forget e ↔ Enabled s e := by
  cases e with
  | message w m =>
    cases m with
    | taskResponse m => exact nodeOf_forget fun _ => Iff.rfl
    | killAnswer success => exact nodeOf_forget fun _ => Iff.rfl
    | _ => exact Iff.rfl
  | poll w => exact nodeOf_forget fun _ => Iff.rfl
  | _ => exact Iff.rfl

end Steps

end Poolifier
