import Poolifier.BackPressure
import Poolifier.ChoosingTasks
import Poolifier.QueueRuns
import Poolifier.QueueSetup
/-!
# What a pool says of itself

`info` adds up the counters of the worker nodes. The counters of single nodes go
wrong once a stolen task is answered, since the response is counted at the key
its promise has kept. Over the whole pool they stay right: each response is
counted once, wherever, and each task is counted as executing where it is sent.
Only a counter that is already `0` cannot go down with a response, so
`executingTasks` may stay too high, and is never too low.
-/

namespace Poolifier

open EffLib RunLib MapLib WorkerNode

variable {Data Response : Type}

/-! ## The pool information -/

/-- `PoolInfo`, without the version, the strategy, the utilization, the measurements and `maxQueuedTasks`. -/
structure PoolInfo where
  type : PoolType
  worker : WorkerType
  started : Bool
  ready : Bool
  minSize : Nat
  maxSize : Nat
  workerNodes : Nat
  idleWorkerNodes : Nat
  busyWorkerNodes : Nat
  executedTasks : Nat
  executingTasks : Nat
  queuedTasks : Option Nat
  backPressure : Option Bool
  stolenTasks : Option Nat
  failedTasks : Nat

namespace Pool

/-- The `reduce` by which `info` adds up a counter of the worker nodes. -/
def total (count : WorkerNode Data → Nat) (p : Pool Data Response) : Nat :=
  p.workerNodes.foldl (fun accumulator n => accumulator + count n) 0

def ready (p : Pool Data Response) : Bool :=
  p.numberOfWorkers ≤ p.workerNodes.countP fun n => !n.info.dynamic && n.info.ready

def hasBackPressure (p : Pool Data Response) : Bool :=
  p.opts.enableTasksQueue && p.workerNodes.all (·.hasBackPressure)

/-- The getter `info`: three of its fields are there only while the tasks queue is enabled. -/
def info (p : Pool Data Response) : PoolInfo where
  type := p.type
  worker := p.worker
  started := p.started
  ready := p.ready
  minSize := p.numberOfWorkers
  maxSize := p.maxSize
  workerNodes := p.workerNodes.length
  idleWorkerNodes := p.workerNodes.countP (·.usage.tasks.executing = 0)
  busyWorkerNodes := p.workerNodes.countP (·.usage.tasks.executing > 0)
  executedTasks := p.total (·.usage.tasks.executed)
  executingTasks := p.total (·.usage.tasks.executing)
  queuedTasks := if p.opts.enableTasksQueue then some (p.total (·.tasksQueue.length)) else none
  backPressure := if p.opts.enableTasksQueue then some p.hasBackPressure else none
  stolenTasks := if p.opts.enableTasksQueue then some (p.total (·.usage.tasks.stolen)) else none
  failedTasks := p.total (·.usage.tasks.failed)

/-- The number of tasks that workers have been sent and not answered. -/
def tasksInFlight (p : Pool Data Response) : Nat := p.total (·.worker.unanswered.length)

end Pool

def Settlement.isResolved : Settlement Response → Bool
  | .resolved _ => true
  | _ => false

def Settlement.isRejected : Settlement Response → Bool
  | .rejected _ => true
  | _ => false

/-! ## Totals -/

section Totals
variable {p p' : Pool Data Response} {count : WorkerNode Data → Nat} {i : Nat}

theorem Pool.total_eq_sum (p : Pool Data Response) (count : WorkerNode Data → Nat) :
    p.total count = (p.workerNodes.map count).sum := by
  rw [total, List.sum_eq_foldl, List.foldl_map]

theorem Pool.total_eq_zero (h : ∀ n ∈ p.workerNodes, count n = 0) : p.total count = 0 := by
  rw [total_eq_sum]
  apply List.sum_eq_zero
  intro x hx
  obtain ⟨n, hn, rfl⟩ := List.mem_map.1 hx
  exact h n hn

theorem Pool.total_modifyNode (count : WorkerNode Data → Nat) {n : WorkerNode Data} (h : p.workerNodes[i]? = some n)
    (f : WorkerNode Data → WorkerNode Data) : (p.modifyNode i f).total count + count n = p.total count + count (f n) := by
  rw [total_eq_sum, total_eq_sum]
  exact sum_map_modify count h f

theorem Pool.total_modifyNode_same {f : WorkerNode Data → WorkerNode Data}
    (h : ∀ n, p.workerNodes[i]? = some n → count (f n) = count n) : (p.modifyNode i f).total count = p.total count := by
  rw [total_eq_sum, total_eq_sum]
  exact congrArg List.sum (map_modify_same h)

/-- A total is of what its counter reads. -/
theorem Pool.total_of_view {α : Type} {view : WorkerNode Data → α} (g : α → Nat)
    (h : p'.workerNodes.map view = p.workerNodes.map view) :
    p'.total (fun n => g (view n)) = p.total fun n => g (view n) := by
  have hmap (q : Pool Data Response) : q.workerNodes.map (fun n => g (view n)) = (q.workerNodes.map view).map g := by
    rw [List.map_map]
    rfl
  rw [total_eq_sum, total_eq_sum, hmap, hmap, h]

/-- The tasks that are placed wait or are in flight. -/
theorem Pool.card_placed (p : Pool Data Response) : p.placed.card = p.tasksInFlight + p.total (·.tasksQueue.length) := by
  rw [tasksInFlight, total_eq_sum, total_eq_sum]
  unfold placed
  induction p.workerNodes with
  | nil => rfl
  | cons n l ih =>
    simp only [List.map_cons, List.sum_cons, Multiset.card_add, ih, held, Multiset.coe_card]
    omega

end Totals

/-! ## The queue code finishes no task -/

/-- The counters of the tasks a node has finished. -/
def WorkerNode.finished (n : WorkerNode Data) : Nat × Nat := (n.usage.tasks.executed, n.usage.tasks.failed)

/-- Every node counts the same tasks as finished. -/
def SameFinished (p p' : Pool Data Response) : Prop := p'.workerNodes.map finished = p.workerNodes.map finished

instance : IsPreorder (Pool Data Response) SameFinished where
  refl _ := rfl
  trans _ _ _ h h' := Eq.trans h' h

section Finished
variable {cb : Callbacks Data Response} (k : Nat)

theorem sameFinished_modifyNode (p : Pool Data Response) {f : WorkerNode Data → WorkerNode Data}
    (hf : ∀ n, (f n).finished = n.finished) : SameFinished p (p.modifyNode k f) :=
  map_modify_same fun n _ => hf n

theorem finishes_modifyNode {f : WorkerNode Data → WorkerNode Data} (hf : ∀ n, (f n).finished = n.finished) :
    EffLib.Within SameFinished (modifyNode k f : PoolM Data Response Unit) :=
  within_modify fun p => sameFinished_modifyNode k p hf

/-- What is asked of callbacks: they finish no task. -/
structure CallbacksFinishNone (cb : Callbacks Data Response) : Prop where
  onEmptyQueue : ∀ workerId, EffLib.Within SameFinished (cb.onEmptyQueue workerId)
  onBackPressure : ∀ workerId, EffLib.Within SameFinished (cb.onBackPressure workerId)

theorem finishes_enqueueTask (hcb : CallbacksFinishNone cb) (t : Task Data) :
    EffLib.Within SameFinished (enqueueTask cb k t) := by
  refine (within_nodeAt k).bind fun _ => Within.bind (finishes_modifyNode k fun _ => rfl) fun _ => ?_
  refine (within_nodeAt k).bind fun n => ?_
  split
  · refine Within.bind (finishes_modifyNode k fun _ => rfl) fun _ => (hcb.onBackPressure n.info.id).bind fun _ => ?_
    exact finishes_modifyNode k fun _ => rfl
  · exact within_pure ()

theorem finishes_startOnEmptyQueueCaught (hcb : CallbacksFinishNone cb) :
    EffLib.Within SameFinished (startOnEmptyQueueCaught cb k) := by
  refine Within.swallow ?_ fun p => sameFinished_modifyNode k p fun _ => rfl
  refine (within_nodeAt k).bind fun n => ?_
  split
  · exact finishes_modifyNode k fun _ => rfl
  · refine Within.bind (finishes_modifyNode k fun _ => rfl) fun _ => ?_
    split
    · exact hcb.onEmptyQueue n.info.id
    · exact within_pure ()

theorem finishes_afterTaken (hcb : CallbacksFinishNone cb) : EffLib.Within SameFinished (afterTaken cb k) := by
  refine (within_nodeAt k).bind fun n => ?_
  split
  · exact finishes_startOnEmptyQueueCaught k hcb
  · exact within_pure ()

theorem finishes_popTask (hcb : CallbacksFinishNone cb) : EffLib.Within SameFinished (popTask cb k) := by
  refine (within_nodeAt k).bind fun n => Within.bind (finishes_modifyNode k fun _ => rfl) fun _ => ?_
  exact (finishes_afterTaken k hcb).bind fun _ => within_pure _

theorem finishes_dequeueTask (hcb : CallbacksFinishNone cb) : EffLib.Within SameFinished (dequeueTask cb k) := by
  refine (within_nodeAt k).bind fun n => Within.bind (finishes_modifyNode k fun _ => rfl) fun _ => ?_
  exact (finishes_afterTaken k hcb).bind fun _ => within_pure _

theorem finishes_executeTask (t : Task Data) :
    EffLib.Within SameFinished (executeTask k t : PoolM Data Response Unit) := by
  refine Within.bind ?_ fun _ => (within_nodeAt k).bind fun n => ?_
  · refine (within_nodeAt k).bind fun _ => within_get.bind fun p => finishes_modifyNode k fun n => ?_
    rw [finished, beforeTaskExecution_usage]
    rfl
  · split
    · exact within_throw _
    · refine within_get.bind fun p => ?_
      split
      · exact within_throw _
      · exact finishes_modifyNode k fun _ => rfl

theorem finishes_executeOrEnqueueTask (hcb : CallbacksFinishNone cb) (t : Task Data) :
    EffLib.Within SameFinished (executeOrEnqueueTask cb k t) := by
  refine Within.bind ((within_nodeAt k).bind fun _ => within_get.bind fun _ => within_pure _) fun shall => ?_
  split
  · exact finishes_executeTask k t
  · exact finishes_enqueueTask k hcb t

theorem finishes_dispatchStolenTask (hcb : CallbacksFinishNone cb) (task : Option (Task Data)) :
    EffLib.Within SameFinished (dispatchStolenTask cb k task) := by
  cases task with
  | none => exact within_throw _
  | some t =>
    refine (finishes_executeOrEnqueueTask k hcb t).bind fun _ => (within_nodeAt k).bind fun _ => ?_
    refine finishes_modifyNode k fun n => ?_
    obtain ⟨u, hu⟩ := stealTask_eq t.name n
    rw [hu]
    rfl

theorem finishes_stealOnBackPressure (hcb : CallbacksFinishNone cb) (w source node : Nat) :
    EffLib.Within SameFinished (stealOnBackPressure cb w source node k) := by
  refine (within_nodeAt source).bind fun a => ?_
  split
  · refine (within_nodeAt node).bind fun n => within_get.bind fun p => ?_
    split
    · exact (finishes_popTask source hcb).bind fun task => finishes_dispatchStolenTask k hcb task
    · exact within_pure ()
  · exact within_pure ()

/-- Stealing finishes no task, however deep it nests. -/
theorem callbacks_finishNone (fuel : Nat) : CallbacksFinishNone (callbacks fuel : Callbacks Data Response) := by
  induction fuel with
  | zero => exact ⟨fun _ _ => wp_diverge, fun _ _ => wp_diverge⟩
  | succ fuel ih =>
    constructor
    · intro w
      refine within_get.bind fun p => ?_
      split
      · exact within_pure ()
      · rename_i source _
        exact (finishes_popTask source ih).bind fun task => finishes_dispatchStolenTask _ ih task
    · intro w
      refine within_get.bind fun p => ?_
      split
      · exact within_pure ()
      · exact .forEach (fun a : (WorkerNode Data × Nat) × Nat => finishes_stealOnBackPressure a.2 ih w _ a.1.2) _

theorem finishes_dequeueThen (hcb : CallbacksFinishNone cb) {next : Task Data → PoolM Data Response Unit}
    (hnext : ∀ t, EffLib.Within SameFinished (next t)) : EffLib.Within SameFinished (dequeueThen cb k next) := by
  refine (finishes_dequeueTask k hcb).bind fun task => ?_
  cases task with
  | none => exact within_throw _
  | some t => exact hnext t

theorem finishes_executeNextTask (hcb : CallbacksFinishNone cb) : EffLib.Within SameFinished (executeNextTask cb k) := by
  refine within_get.bind fun p => ?_
  split
  · refine (within_nodeAt k).bind fun n => ?_
    split
    · exact finishes_dequeueThen k hcb fun t => finishes_executeTask k t
    · exact within_pure ()
  · exact within_pure ()

theorem finishes_dispatchTask (hcb : CallbacksFinishNone cb) (t : Task Data) :
    EffLib.Within SameFinished (dispatchTask cb k t) := by
  refine within_get.bind fun p => ?_
  split
  · exact finishes_executeOrEnqueueTask k hcb t
  · exact finishes_executeTask k t

theorem finishes_flushTasksQueue (hcb : CallbacksFinishNone cb) (fuel : Nat) :
    EffLib.Within SameFinished (flushTasksQueue cb fuel k) := by
  have htest : EffLib.Within SameFinished (tasksQueueNotEmpty k : PoolM Data Response Bool) :=
    (within_nodeAt k).bind fun _ => within_pure _
  refine Within.bind (htest.whileDo ?_ fuel) fun _ => finishes_modifyNode k fun _ => rfl
  exact finishes_dequeueThen k hcb fun t => finishes_executeTask k t

end Finished

/-! ## What is sent is counted as executing -/

/-- As many more tasks are in flight in `p'` as are counted as executing. -/
def Balanced (p p' : Pool Data Response) : Prop :=
  p'.total (·.usage.tasks.executing) + p.tasksInFlight = p.total (·.usage.tasks.executing) + p'.tasksInFlight

theorem Balanced.trans {p p' p'' : Pool Data Response} (h : Balanced p p') (h' : Balanced p' p'') : Balanced p p'' := by
  unfold Balanced at *
  omega

theorem balanced_of_view {p p' : Pool Data Response}
    (h : p'.workerNodes.map (fun n => (n.usage.tasks.executing, n.worker)) =
      p.workerNodes.map fun n => (n.usage.tasks.executing, n.worker)) : Balanced p p' := by
  have hexec := Pool.total_of_view Prod.fst h
  have hflight := Pool.total_of_view (fun a => a.2.unanswered.length) h
  unfold Balanced Pool.tasksInFlight
  rw [hexec, hflight]

theorem balanced_modifyNode (p : Pool Data Response) (i : Nat) {f : WorkerNode Data → WorkerNode Data}
    (hf : ∀ n, p.workerNodes[i]? = some n →
      (f n).usage.tasks.executing = n.usage.tasks.executing ∧ (f n).worker = n.worker) : Balanced p (p.modifyNode i f) :=
  balanced_of_view (map_modify_same fun n hn => by rw [(hf n hn).1, (hf n hn).2])

/-- A move that loses nothing sends just the tasks it counts. -/
theorem Move.balanced {g : Prop} {a b : Config Data Response} (h : Move g False a b) : Balanced a.1 b.1 := by
  cases h with
  | book i f hf => exact balanced_modifyNode _ i fun n hn => ⟨(hf n hn).executing, (hf n hn).worker⟩
  | shift hn hq => exact balanced_modifyNode _ _ fun n _ => ⟨rfl, rfl⟩
  | pop hn hq => exact balanced_modifyNode _ _ fun n _ => ⟨rfl, rfl⟩
  | push hn hs => exact balanced_modifyNode _ _ fun n _ => ⟨rfl, rfl⟩
  | @send p h i n t hn hg hs =>
    have hexec := Pool.total_modifyNode (·.usage.tasks.executing) hn (p.startTask t)
    have hflight := Pool.total_modifyNode (·.worker.unanswered.length) hn (p.startTask t)
    rw [startTask_executing] at hexec
    rw [length_unanswered_startTask] at hflight
    unfold Balanced Pool.tasksInFlight
    dsimp only
    omega
  | fail hl => exact hl.elim
  | drop hl => exact hl.elim

theorem Reached.balanced {g : Prop} {c : Config Data Response} {s : Pool Data Response} {h : Multiset (Task Data)}
    (hr : Reached g c s h) (hl : Live c.1) : Balanced c.1 s :=
  hr.inv_live (fun d => Balanced c.1 d.1) hl (fun _ _ hm hb => hb.trans hm.balanced) rfl

/-- No task is finished, and from live workers what is sent is counted. -/
structure KeepsTotals (p p' : Pool Data Response) : Prop where
  finished : SameFinished p p'
  live : Live p → Live p' ∧ Balanced p p'

instance : IsPreorder (Pool Data Response) KeepsTotals where
  refl _ := ⟨rfl, fun hl => ⟨hl, rfl⟩⟩
  trans _ _ _ h h' := by
    refine ⟨trans_of SameFinished h.finished h'.finished, fun hl => ?_⟩
    obtain ⟨hl', hb⟩ := h.live hl
    obtain ⟨hl'', hb'⟩ := h'.live hl'
    exact ⟨hl'', hb.trans hb'⟩

/-- What the counters of a pool and the sending of tasks rest on. -/
def WorkerNode.counted (n : WorkerNode Data) : WorkerUsage × Worker Data × Bool := (n.usage, n.worker, n.channelOpen)

theorem keepsTotals_of_view {p p' : Pool Data Response} (h : p'.workerNodes.map counted = p.workerNodes.map counted)
    (hpost : p'.postable = p.postable) : KeepsTotals p p' := by
  have hview {α : Type} (g : WorkerUsage × Worker Data × Bool → α) :
      p'.workerNodes.map (fun n => g n.counted) = p.workerNodes.map fun n => g n.counted := by
    have := congrArg (List.map g) h
    rwa [List.map_map, List.map_map] at this
  refine ⟨hview fun a => (a.1.tasks.executed, a.1.tasks.failed), fun hl => ⟨⟨fun n hn => ?_, ?_⟩, ?_⟩⟩
  · have hopen := hview fun a => a.2.2
    have hmem : n.channelOpen ∈ p.workerNodes.map fun n => n.counted.2.2 := hopen ▸ List.mem_map_of_mem hn
    obtain ⟨m, hm, heq⟩ := List.mem_map.1 hmem
    rw [← heq]
    exact hl.1 m hm
  · rw [hpost]
    exact hl.2
  · exact balanced_of_view (hview fun a => (a.1.tasks.executing, a.2.1))

theorem keepsTotals_of_moves {α : Type} {m : PoolM Data Response α} (hm : Moves m) (hf : EffLib.Within SameFinished m) :
    EffLib.Within KeepsTotals m := by
  intro s
  have hboth := wp_and (hm s) (hf s)
  refine wp_mono hboth (fun _ s' h => ⟨h.2, fun hl => ?_⟩) fun _ s' h => ⟨h.2, fun hl => ?_⟩
  · exact ⟨h.1.frame.live hl, h.1.balanced hl⟩
  · obtain ⟨lost, hr⟩ := h.1
    exact ⟨hr.frame.live hl, hr.balanced hl⟩

theorem keepsTotals_mapNodes {f : WorkerNode Data → WorkerNode Data} (hf : ∀ n, (f n).counted = n.counted) :
    EffLib.Within KeepsTotals (mapNodes f : PoolM Data Response Unit) := by
  refine within_modify fun p => keepsTotals_of_view ?_ rfl
  rw [List.map_map]
  exact List.map_congr_left fun n _ => hf n

theorem keepsTotals_setTasksQueueOptions (o : TasksQueueOptionsArgument) :
    EffLib.Within KeepsTotals (setTasksQueueOptions o : PoolM Data Response Unit) := by
  have hopts (f : Pool Data Response → PoolOptions) :
      EffLib.Within KeepsTotals (Eff.modify fun p => { p with opts := f p } : PoolM Data Response Unit) :=
    within_modify fun p => keepsTotals_of_view rfl rfl
  refine within_get.bind fun p => ?_
  split
  · refine Within.bind ?_ fun _ => (hopts fun p => { p.opts with tasksQueueOptions := _ }).bind fun _ => ?_
    · rcases checkValidTasksQueueOptions o with e | _
      · exact within_throw e
      · exact within_pure ()
    · refine Within.bind (keepsTotals_mapNodes fun _ => rfl) fun _ => ?_
      exact Within.bind (keepsTotals_mapNodes fun _ => rfl) fun _ => keepsTotals_mapNodes fun _ => rfl
  · exact hopts fun p => { p.opts with tasksQueueOptions := none }

theorem keepsTotals_enableTasksQueue (fuel : Nat) (enable : Bool) (o : TasksQueueOptionsArgument) :
    EffLib.Within KeepsTotals (enableTasksQueue (callbacks fuel) fuel enable o : PoolM Data Response Unit) := by
  have hopts : EffLib.Within KeepsTotals
      (Eff.modify fun p => { p with opts.enableTasksQueue := enable } : PoolM Data Response Unit) :=
    within_modify fun p => keepsTotals_of_view rfl rfl
  have hflush (k : Nat) : EffLib.Within KeepsTotals (flushTasksQueue (callbacks fuel) fuel k : PoolM Data Response Unit) :=
    keepsTotals_of_moves (moves_flushTasksQueue (callbacks_move fuel) fuel k)
      (finishes_flushTasksQueue k (callbacks_finishNone fuel) fuel)
  have hdisable : EffLib.Within KeepsTotals (disableTasksQueue (callbacks fuel) fuel : PoolM Data Response Unit) := by
    refine Within.bind (keepsTotals_mapNodes fun _ => rfl) fun _ => ?_
    refine Within.bind (keepsTotals_mapNodes fun _ => rfl) fun _ => ?_
    exact within_get.bind fun p => .forEach hflush _
  have hrest := hopts.bind fun _ => keepsTotals_setTasksQueueOptions o
  refine within_get.bind fun p => ?_
  dsimp only
  split
  · exact hdisable.bind fun _ => hrest
  · exact hrest

/-! ## Responses -/

section Responded
variable {s : Pool Data Response} {w k : Nat} {m : TaskResponse Response} {n a : WorkerNode Data}

/-- A response is counted once, at the node its promise names. -/
theorem Pool.total_responded (g : WorkerUsage → Nat) (ha : s.workerNodes[k]? = some a) :
    (s.responded w m k).total (fun n => g n.usage) + g a.usage =
      s.total (fun n => g n.usage) + g (a.usage.afterTaskExecution s.taskStatisticsRequirements m) := by
  -- the sender's node gives up its message first, which counts nothing
  obtain ⟨b, husage, hb⟩ : ∃ b, b.usage = a.usage ∧
      (s.modifyNode (s.getWorkerNodeKeyByWorkerId w) (·.answer m.taskId)).workerNodes[k]? = some b := by
    rw [getElem?_modifyNode, ha]
    refine ⟨_, ?_, rfl⟩
    dsimp only
    split <;> rfl
  have hanswer : (s.modifyNode (s.getWorkerNodeKeyByWorkerId w) (·.answer m.taskId)).total (fun n => g n.usage) =
      s.total fun n => g n.usage := total_modifyNode_same fun n _ => rfl
  have hcount := total_modifyNode (fun n => g n.usage) hb
    (·.afterTaskExecution s.taskStatisticsRequirements m)
  rw [hanswer, husage, afterTaskExecution_usage, husage] at hcount
  have hnodes : (s.responded w m k).workerNodes = ((s.modifyNode (s.getWorkerNodeKeyByWorkerId w)
      (·.answer m.taskId)).modifyNode k (·.afterTaskExecution s.taskStatisticsRequirements m)).workerNodes := by
    simp only [responded, answered, modifyNode, settle_workerNodes]
  unfold total at hcount ⊢
  rw [hnodes]
  exact hcount

/-- It takes one task out of flight. -/
theorem Pool.tasksInFlight_responded (hn : s.workerNodes[s.getWorkerNodeKeyByWorkerId w]? = some n)
    (hm : m.taskId ∈ n.worker.unanswered.map (·.taskId)) : (s.responded w m k).tasksInFlight + 1 = s.tasksInFlight := by
  have hcount := total_modifyNode (·.worker.unanswered.length) hn (·.answer m.taskId)
  rw [length_unanswered_answer hm] at hcount
  have hafter : (s.responded w m k).tasksInFlight =
      (s.modifyNode (s.getWorkerNodeKeyByWorkerId w) (·.answer m.taskId)).tasksInFlight := by
    unfold tasksInFlight
    rw [total_eq_sum, total_eq_sum]
    simp only [responded, answered, modifyNode, settle_workerNodes]
    refine congrArg List.sum (map_modify_same fun b _ => ?_)
    rw [afterTaskExecution_worker]
  have hpos := unanswered_pos hm
  rw [hafter]
  unfold tasksInFlight
  omega

end Responded

/-! ## The books -/

section Books
variable {started : Bool} {es : List (Event Data Response)} {s s' : Pool Data Response} {e : Event Data Response}

/-- After the events `es`, each promise that has ended is counted once, and each task that was accepted is
counted as finished or still has its promise. -/
structure Books (started : Bool) (es : List (Event Data Response)) (s : Pool Data Response) : Prop where
  ledger : Ledger started es s
  executed : s.total (·.usage.tasks.executed) = s.settled.countP (·.2.isResolved)
  failed : s.total (·.usage.tasks.failed) = s.settled.countP (·.2.isRejected)
  accepted : s.total (·.usage.tasks.executed) + s.total (·.usage.tasks.failed) + s.promiseResponseMap.keys.length =
    (acceptedIds started es).length
  executing : s.tasksInFlight ≤ s.total (·.usage.tasks.executing)

theorem acceptedIds_concat (h : acceptedId started e = none) :
    acceptedIds started (es ++ [e]) = acceptedIds started es := by
  simp [acceptedIds, h]

theorem SameFinished.totals {p p' : Pool Data Response} (h : SameFinished p p') :
    p'.total (·.usage.tasks.executed) = p.total (·.usage.tasks.executed) ∧
      p'.total (·.usage.tasks.failed) = p.total (·.usage.tasks.failed) :=
  ⟨Pool.total_of_view Prod.fst h, Pool.total_of_view Prod.snd h⟩

/-- A step that finishes nothing and accepts nothing. -/
theorem Books.same (h : Books started es s) (hl : Ledger started (es ++ [e]) s') (hs : SamePromises s s')
    (ht : KeepsTotals s s') (ha : acceptedId started e = none) : Books started (es ++ [e]) s' := by
  obtain ⟨hexecuted, hfailed⟩ := ht.finished.totals
  have hbalance := (ht.live h.ledger.pool.live).2
  have hsettled : s'.settled = s.settled := by rw [hs]
  have hmap : s'.promiseResponseMap = s.promiseResponseMap := by rw [hs]
  constructor
  · exact hl
  · rw [hexecuted, hsettled]
    exact h.executed
  · rw [hfailed, hsettled]
    exact h.failed
  · rw [hexecuted, hfailed, hmap, acceptedIds_concat ha]
    exact h.accepted
  · have hle := h.executing
    unfold Balanced at hbalance
    omega

theorem acceptedId_of_refused (taskId : Nat) {name : Option String} (data : Data) {choice : Choice}
    (ha : ¬ Accepts s name choice) :
    acceptedId s.started (.execute taskId name data choice : Event Data Response) = none := by
  cases choice with
  | none r => rfl
  | key k =>
    simp only [acceptedId, ite_eq_right_iff, reduceCtorEq, imp_false, Bool.and_eq_true, Bool.not_eq_true', not_and]
    intro hst hname
    exact ha ⟨hst, hname, k, rfl⟩

/-- A refused call ends its own promise, with an exception that no counter counts. -/
theorem Books.refused (h : Books started es s) {taskId : Nat} {name : Option String} {data : Data} {choice : Choice}
    {x : JsError} (hid : taskId ∉ s.uuids) (ha : ¬ Accepts s name choice)
    (hl : Ledger started (es ++ [.execute taskId name data choice])
      (Pool.settle taskId (.thrown x) { s with uuids := taskId :: s.uuids })) :
    Books started (es ++ [.execute taskId name data choice])
      (Pool.settle taskId (.thrown x) { s with uuids := taskId :: s.uuids }) := by
  have hnone := acceptedId_of_refused taskId data ha
  rw [h.ledger.isStarted] at hnone
  have hnew : taskId ∉ s.settled.map Prod.fst := fun hm => hid (h.ledger.settledKnown _ hm)
  have hsettled := Pool.settle_settled (p := { s with uuids := taskId :: s.uuids }) hnew (.thrown x)
  have hrest := Pool.settle_rest { s with uuids := taskId :: s.uuids } taskId (.thrown x)
  have htotal (count : WorkerNode Data → Nat) :
      (Pool.settle taskId (.thrown x) { s with uuids := taskId :: s.uuids }).total count = s.total count := by
    unfold Pool.total
    rw [Pool.settle_workerNodes]
  constructor
  · exact hl
  · rw [htotal, hsettled, List.countP_append, h.executed]
    rfl
  · rw [htotal, hsettled, List.countP_append, h.failed]
    rfl
  · rw [htotal, htotal, acceptedIds_concat hnone, hrest]
    exact h.accepted
  · unfold Pool.tasksInFlight
    rw [htotal, htotal]
    exact h.executing

/-- An accepted call has a promise, and finishes nothing. -/
theorem Books.called (h : Books started es s) {taskId k : Nat} {name : Option String} {data : Data}
    (hid : taskId ∉ s.uuids) (ha : Accepts s name (.key k)) (hs : SamePromises (s.called taskId k) s')
    (ht : KeepsTotals s s') (hl : Ledger started (es ++ [.execute taskId name data (.key k)]) s') :
    Books started (es ++ [.execute taskId name data (.key k)]) s' := by
  have hsome : acceptedId started (.execute taskId name data (.key k) : Event Data Response) = some taskId := by
    simp [acceptedId, ← h.ledger.isStarted, ha.1, ha.2.1]
  have hacc : (acceptedIds started (es ++ [.execute taskId name data (.key k)])).length =
      (acceptedIds started es).length + 1 := by
    simp [acceptedIds, hsome]
  have hkey : taskId ∉ s.promiseResponseMap.keys := fun hm => hid (h.ledger.pool.uuids _ hm)
  have hmap : s'.promiseResponseMap.keys = taskId :: s.promiseResponseMap.keys := by
    rw [hs]
    simp only [Pool.called, Pool.withPromise, AList.keys_insert, List.erase_of_not_mem hkey]
  have hsettled : s'.settled = s.settled := by
    rw [hs]
    rfl
  obtain ⟨hexecuted, hfailed⟩ := ht.finished.totals
  have hbalance := (ht.live h.ledger.pool.live).2
  constructor
  · exact hl
  · rw [hexecuted, hsettled]
    exact h.executed
  · rw [hfailed, hsettled]
    exact h.failed
  · rw [hexecuted, hfailed, hmap, hacc, List.length_cons, ← h.accepted]
    omega
  · have hle := h.executing
    unfold Balanced at hbalance
    omega

/-- Whether the node that counts a response counts a task as executing. -/
def FindsCount (s : Pool Data Response) : Event Data Response → Prop
  | .message _ (.taskResponse m) => ∀ k n, s.promiseResponseMap.lookup m.taskId = some k →
      s.workerNodes[k]? = some n → 0 < n.usage.tasks.executing
  | _ => True

/-- What a response does to the totals: the count of executing tasks goes down if there is one at its node. -/
theorem ResponseStep.totals {w k fuel : Nat} {m : TaskResponse Response} {n : WorkerNode Data} (hp : FixedPool s 0)
    (h : ResponseStep s w m k fuel n s') :
    s'.total (·.usage.tasks.executed) =
        s.total (·.usage.tasks.executed) + (if m.workerError.isNone then 1 else 0) ∧
      s'.total (·.usage.tasks.failed) =
        s.total (·.usage.tasks.failed) + (if m.workerError.isNone then 0 else 1) ∧
      ∃ a, s.workerNodes[k]? = some a ∧
        s'.total (·.usage.tasks.executing) + s.tasksInFlight + a.usage.tasks.executing =
          s.total (·.usage.tasks.executing) + s'.tasksInFlight + 1 + (a.usage.tasks.executing - 1) := by
  obtain ⟨a, ha⟩ := Pool.node_of_lt h.key
  have hlive := (hp.responded (k := k) h.node h.inFlight).live
  have hfinished := (wp_any (finishes_executeNextTask k (callbacks_finishNone fuel) _) h.next : SameFinished _ s').totals
  have hbalance : Balanced (s.responded w m k) s' := (h.reached hp).balanced hlive
  have hflight := Pool.tasksInFlight_responded (k := k) h.node h.inFlight
  have hexecuted := Pool.total_responded (w := w) (m := m) (·.tasks.executed) ha
  have hfailed := Pool.total_responded (w := w) (m := m) (·.tasks.failed) ha
  have hexecuting := Pool.total_responded (w := w) (m := m) (·.tasks.executing) ha
  rw [WorkerUsage.afterTaskExecution_tasks] at hexecuted hfailed hexecuting
  dsimp only at hexecuted hfailed hexecuting
  unfold Balanced at hbalance
  -- what the queue code does next finishes nothing, and counts what it sends
  refine ⟨?_, ?_, a, ha, ?_⟩
  · rw [hfinished.1]
    omega
  · rw [hfinished.2]
    omega
  · omega

/-- A response ends one promise, and is counted once for it. -/
theorem Books.responded (h : Books started es s) {w k fuel : Nat} {m : TaskResponse Response} {n : WorkerNode Data}
    (hstep : ResponseStep s w m k fuel n s') (hl : Ledger started (es ++ [.message w (.taskResponse m)]) s') :
    Books started (es ++ [.message w (.taskResponse m)]) s' := by
  have hframe : SamePromises (s.responded w m k) s' := (hstep.reached h.ledger.pool).frame.samePromises
  have hkey : m.taskId ∈ s.promiseResponseMap.keys :=
    AList.lookup_isSome.1 (Option.isSome_iff_exists.2 ⟨k, hstep.entry⟩)
  have hnew := ((h.ledger.keys m.taskId).1 hkey).2
  have hsettled : s'.settled = s.settled ++ [(m.taskId, m.settlement)] := by
    rw [hframe]
    exact Pool.settle_settled (p := s.modifyNode (s.getWorkerNodeKeyByWorkerId w) (·.answer m.taskId)) hnew m.settlement
  have hmap : s'.promiseResponseMap.keys.length + 1 = s.promiseResponseMap.keys.length := by
    rw [hframe, responded_rest]
    simp only [AList.keys_erase]
    exact List.length_erase_add_one hkey
  obtain ⟨hexecuted, hfailed, a, -, hexecuting⟩ := hstep.totals h.ledger.pool
  have hcounts := h.accepted
  have hle := h.executing
  constructor
  · exact hl
  · rw [hexecuted, hsettled, List.countP_append, h.executed]
    unfold TaskResponse.settlement
    cases m.workerError <;> rfl
  · rw [hfailed, hsettled, List.countP_append, h.failed]
    unfold TaskResponse.settlement
    cases m.workerError <;> rfl
  · rw [hexecuted, hfailed, acceptedIds_concat rfl]
    split <;> omega
  · omega

/-- An event that is not a response finishes no task, and what it sends is counted. -/
theorem FixedStep.keepsTotals (hp : FixedPool s 0) (h : FixedStep s e s')
    (hno : ∀ w m, e ≠ .message w (.taskResponse m)) : KeepsTotals s s' := by
  have hlive := hp.live
  cases h with
  | @refused taskId name data choice x hid ha =>
    refine keepsTotals_of_view ?_ ?_
    · rw [Pool.settle_workerNodes]
    · rw [Pool.settle_rest]
  | @executed taskId name data k fuel s' hid ha hk hm =>
    have hc := hp.called hk ⟨name.getD defaultTaskName, data, s.now, taskId⟩ hid
    have hr := dispatchTask_reached (h := 0) hc hk hm
    have hf : SameFinished (s.called taskId k) s' :=
      wp_any (finishes_dispatchTask k (callbacks_finishNone fuel) _ _) hm
    exact ⟨hf, fun _ => ⟨hr.frame.live hlive, hr.balanced hlive⟩⟩
  | responded => exact absurd rfl (hno _ _)
  | @informed w message f hm hf =>
    refine keepsTotals_of_view (map_modify_same fun n _ => ?_) rfl
    simp only [counted, channelOpen, (hf n.info).2]
  | ignored hm => exact refl_of KeepsTotals s
  | @polled w fuel s' hk hx =>
    have hr := polled_reached hk hx
    have hf : SameFinished s s' :=
      wp_any (finishes_startOnEmptyQueueCaught _ (callbacks_finishNone fuel) s) hx
    exact ⟨hf, fun _ => ⟨hr.frame.live hlive, hr.balanced hlive⟩⟩
  | @reconfigured e fuel r s' he hx =>
    rcases he with ⟨b, o, rfl⟩ | ⟨o, rfl⟩
    · exact wp_any (keepsTotals_enableTasksQueue fuel b o s) hx
    · exact wp_any (keepsTotals_setTasksQueueOptions o s) hx

/-- Every event keeps the books. -/
theorem Books.step (h : Books started es s) (hstep : FixedStep s e s') : Books started (es ++ [e]) s' := by
  have hl := h.ledger.step hstep
  have htotals := hstep.keepsTotals h.ledger.pool
  have hother {w : Nat} {message : WorkerMessage Response} (hm : ∀ m, message ≠ .taskResponse m) (v : Nat)
      (m : TaskResponse Response) : (.message w message : Event Data Response) ≠ .message v (.taskResponse m) :=
    fun he => hm m (Event.message.inj he).2
  cases hstep with
  | refused x hid ha => exact h.refused hid ha hl
  | @executed taskId name data k fuel s' hid ha hk hm =>
    have hc := h.ledger.pool.called hk ⟨name.getD defaultTaskName, data, s.now, taskId⟩ hid
    have hr := dispatchTask_reached (h := 0) hc hk hm
    exact h.called hid ha hr.frame.samePromises (htotals (by simp)) hl
  | @responded w m k fuel n s' hn hm hlookup hk hx => exact h.responded ⟨hn, hm, hlookup, hk, hx⟩ hl
  | informed f hm => exact h.same hl rfl (htotals (hother hm)) rfl
  | ignored hm => exact h.same hl rfl (htotals (hother hm)) rfl
  | polled hk hx => exact h.same hl (polled_reached hk hx).frame.samePromises (htotals (by simp)) rfl
  | reconfigured he hx =>
    have hs := (reconfigured_fixedPool h.ledger.pool he hx).2
    rcases he with ⟨b, o, rfl⟩ | ⟨o, rfl⟩
    · exact h.same hl hs (htotals (by simp)) rfl
    · exact h.same hl hs (htotals (by simp)) rfl

/-- A step leaves the count of executing tasks exact if it was, unless a response finds no count to take down. -/
theorem FixedStep.exact_iff (hp : FixedPool s 0) (h : FixedStep s e s')
    (hle : s.tasksInFlight ≤ s.total (·.usage.tasks.executing)) :
    s'.total (·.usage.tasks.executing) = s'.tasksInFlight ↔
      s.total (·.usage.tasks.executing) = s.tasksInFlight ∧ FindsCount s e := by
  by_cases hresponse : ∃ w m, e = .message w (.taskResponse m)
  · cases h with
    | @responded w m k fuel n s' hn hm hlookup hk hx =>
      have hstep : ResponseStep s w m k fuel n s' := ⟨hn, hm, hlookup, hk, hx⟩
      obtain ⟨-, -, a, ha, hexecuting⟩ := hstep.totals hp
      have hfinds : FindsCount s (.message w (.taskResponse m)) ↔ 0 < a.usage.tasks.executing := by
        constructor
        · exact fun hf => hf k a hlookup ha
        · intro hpos k' a' hk' ha'
          obtain rfl : k = k' := Option.some.inj (hlookup.symm.trans hk')
          obtain rfl : a = a' := Option.some.inj (ha.symm.trans ha')
          exact hpos
      rw [hfinds]
      -- a count of `0` stays, so the total stands one above what is in flight
      omega
    | informed f hm => exact absurd hresponse (by simpa using hm)
    | ignored hm => exact absurd hresponse (by simpa using hm)
    | reconfigured he hx => rcases he with ⟨b, o, rfl⟩ | ⟨o, rfl⟩ <;> simp at hresponse
    | _ => simp at hresponse
  · have hno (w : Nat) (m : TaskResponse Response) : e ≠ .message w (.taskResponse m) := fun he => hresponse ⟨w, m, he⟩
    have hbalance := ((h.keepsTotals hp hno).live hp.live).2
    have hfinds : FindsCount s e := by
      unfold FindsCount
      split
      · exact absurd rfl (hno _ _)
      · trivial
    unfold Balanced at hbalance
    simp only [hfinds, and_true]
    omega

theorem Books.now (h : Books started es s) (now : ℚ) : Books started es { s with now } :=
  ⟨h.ledger.now now, h.executed, h.failed, h.accepted, h.executing⟩

end Books

/-! ## New pools -/

/-- No node has counted anything. -/
def Uncounted (p : Pool Data Response) : Prop := ∀ n ∈ p.workerNodes, n.usage = .init

/-- Nodes that come have counted nothing. -/
def KeepsUncounted (p p' : Pool Data Response) : Prop := Uncounted p → Uncounted p'

instance : IsPreorder (Pool Data Response) KeepsUncounted where
  refl _ := id
  trans _ _ _ h h' hp := h' (h hp)

theorem uncounted_createAndSetupWorkerNode :
    EffLib.Within KeepsUncounted (createAndSetupWorkerNode : PoolM Data Response Nat) := by
  have hadd : EffLib.Within KeepsUncounted (addWorkerNode : PoolM Data Response Nat) := by
    refine within_get.bind fun p => Within.bind ?_ fun _ => ?_
    · rcases checkWorkerNodeArguments p.newNodeSize with e | _
      · exact within_throw e
      · exact within_pure ()
    · refine Within.bind (within_modify fun q hq n hn => ?_) fun _ => within_pure _
      rcases List.mem_append.1 hn with hn | hn
      · exact hq n hn
      · rw [List.mem_singleton.1 hn]
        rfl
  have hsetup (k : Nat) : EffLib.Within KeepsUncounted (afterWorkerNodeSetup k : PoolM Data Response Unit) := by
    refine within_get.bind fun p => ?_
    split
    · refine within_modify fun q hq n hn => ?_
      obtain ⟨i, hi⟩ := List.mem_iff_getElem?.1 hn
      obtain ⟨m, hm, rfl⟩ := Pool.node_of_modifyNode hi
      have hm := hq m (List.mem_of_getElem? hm)
      split <;> exact hm
    · exact within_pure ()
  exact hadd.bind fun k => (hsetup k).bind fun _ => within_pure k

theorem uncounted_start (fuel : Nat) : EffLib.Within KeepsUncounted (start fuel : PoolM Data Response Unit) := by
  have htest : EffLib.Within KeepsUncounted
      ((fun p => decide (p.staticWorkerNodes < p.numberOfWorkers)) <$> Eff.get : PoolM Data Response Bool) := by
    intro s
    rw [wp_map, wp_get]
    exact id
  have hbody : EffLib.Within KeepsUncounted
      (do let _ ← createAndSetupWorkerNode; pure () : PoolM Data Response Unit) :=
    uncounted_createAndSetupWorkerNode.bind fun _ => within_pure ()
  exact Within.bind (within_modify fun _ => id) fun _ =>
    Within.bind (htest.whileDo hbody fuel) fun _ => within_modify fun _ => id

/-- The workers of a pool that its constructor returns have done nothing yet. -/
theorem uncounted_of_created {c : PoolConfig Data} {startWorkers : Bool} {s : Pool Data Response}
    (h : Created c startWorkers s) : Uncounted s := by
  obtain ⟨s₀, s₁, hc, hs, hm⟩ := h
  obtain ⟨-, -, rfl⟩ := construct_ok hc
  have hinitial : Uncounted (initialPool c : Pool Data Response) := by
    intro n hn
    simp [initialPool] at hn
  have hstarted : Uncounted s₁ := by
    cases startWorkers with
    | true =>
      obtain ⟨fuel, hs⟩ := hs
      have hk : KeepsUncounted (initialPool c) s₁ := wp_any (uncounted_start fuel _) hs
      exact hk hinitial
    | false =>
      rw [if_neg Bool.false_ne_true] at hs
      rw [hs]
      exact hinitial
  unfold setMaxSize at hm
  split at hm
  · cases hm
    exact hstarted
  · rcases hd : checkDynamicPoolSize c.numberOfWorkers c.max with e | _
    · rw [hd] at hm
      cases hm
    · rw [hd] at hm
      cases hm
      exact hstarted

theorem Pool.total_of_uncounted {s : Pool Data Response} (h : Uncounted s) {g : WorkerUsage → Nat} (hg : g .init = 0) :
    s.total (fun n => g n.usage) = 0 := by
  apply total_eq_zero
  intro n hn
  rw [h n hn]
  exact hg

theorem tasksInFlight_of_fresh {s : Pool Data Response} (h : Fresh s) : s.tasksInFlight = 0 := by
  apply Pool.total_eq_zero
  intro n hn
  rw [(h.nodes n hn).worker]
  rfl

theorem books_of_created {c : PoolConfig Data} {startWorkers : Bool} {s : Pool Data Response}
    (h : Created c startWorkers s) (hfixed : c.type = .fixed) (hsend : ∀ t, c.postable t = true) : Books s.started [] s := by
  have hfresh := fresh_of_created h
  have hpost (t : Task Data) : s.postable t = true := (postable_of_created h).symm ▸ hsend t
  have hl := ledger_of_fresh hfresh (.inl ((type_of_created h).trans hfixed)) hpost
  have huncounted := uncounted_of_created h
  have hexecuted : s.total (·.usage.tasks.executed) = 0 :=
    Pool.total_of_uncounted (g := (·.tasks.executed)) huncounted rfl
  have hfailed : s.total (·.usage.tasks.failed) = 0 := Pool.total_of_uncounted (g := (·.tasks.failed)) huncounted rfl
  constructor
  · exact hl
  · rw [hexecuted, hfresh.settled]
    rfl
  · rw [hfailed, hfresh.settled]
    rfl
  · rw [hexecuted, hfailed, hfresh.promiseResponseMap]
    rfl
  · rw [tasksInFlight_of_fresh hfresh]
    exact Nat.zero_le _

/-! ## What the information is worth -/

/-- What `info` says after the events `es`: tasks finished as promises ended, every accepted task finished, in flight
or queued, and no task in flight that is not counted. -/
structure Pool.Informs (started : Bool) (es : List (Event Data Response)) (s : Pool Data Response) : Prop where
  executedTasks : s.info.executedTasks = s.settled.countP (·.2.isResolved)
  failedTasks : s.info.failedTasks = s.settled.countP (·.2.isRejected)
  accepted : s.info.executedTasks + s.info.failedTasks + s.tasksInFlight + s.info.queuedTasks.getD 0 =
    (acceptedIds started es).length
  executingTasks : s.tasksInFlight ≤ s.info.executingTasks

section Runs
variable {c : PoolConfig Data} {startWorkers : Bool} {s₀ s s' : Pool Data Response} {es : List (Event Data Response)}

/-- While the queue is off, no task waits. -/
def QueueOff (s : Pool Data Response) : Prop := s.opts.enableTasksQueue = false → s.QueuesEmpty

theorem QueueOff.step {e : Event Data Response} (h : QueueOff s) (hl : Live s) (hs : Step s e s') : QueueOff s' := by
  intro hoff'
  rcases hoff : s.opts.enableTasksQueue with _ | _
  · exact step_queuesEmpty hs hoff (h hoff)
  · obtain ⟨a, rfl⟩ := disabling_event (step_outlined hs) hoff hoff'
    exact (disable_step hs hoff fun n hn t _ => hl.canSend hn t).2

theorem Books.informs {started : Bool} (h : Books started es s) (hq : QueueOff s) : s.Informs started es := by
  have hplaced : s.placed.card = s.promiseResponseMap.keys.length := by
    have hacc := congrArg Multiset.card h.ledger.pool.accounted
    rwa [add_zero, Multiset.card_map, Multiset.coe_card] at hacc
  rw [Pool.card_placed] at hplaced
  -- without a queue `info` has no `queuedTasks`, and there are none
  have hqueued : s.info.queuedTasks.getD 0 = s.total (·.tasksQueue.length) := by
    simp only [Pool.info]
    split
    · rfl
    · rename_i hoff
      symm
      apply Pool.total_eq_zero
      intro n hn
      rw [hq (by simpa using hoff) n hn]
      rfl
  refine ⟨h.executed, h.failed, ?_, h.executing⟩
  rw [hqueued, ← h.accepted, ← hplaced]
  exact Nat.add_assoc _ _ _

theorem books_of_run (hp : Created c startWorkers s₀) (hfixed : c.type = .fixed)
    (hsend : ∀ t, c.postable t = true) (hr : Run (Guarded FixedEvent Step) s₀ es s) :
    Books s₀.started es s ∧ QueueOff s := by
  refine hr.trace_inv (fun es s => Books s₀.started es s ∧ QueueOff s)
    ⟨books_of_created hp hfixed hsend, fun _ n hn => ?_⟩ fun es s e s' hb hs => ?_
  · exact ((fresh_of_created hp).nodes n hn).tasksQueue
  · obtain ⟨hb, hq⟩ := hb
    obtain ⟨now, hstep⟩ := fixedStep_of_step hb.ledger.pool hs.1 hs.2
    exact ⟨(hb.now now).step hstep, hq.step hb.ledger.pool.live hs.2⟩

/-- Whatever is stolen, redistributed or flushed, `info` accounts for every task that was accepted. -/
theorem info_accounts (hp : Created c startWorkers s₀) (hfixed : c.type = .fixed)
    (hsend : ∀ t, c.postable t = true) (hr : Run (Guarded FixedEvent Step) s₀ es s) : s.Informs s₀.started es := by
  obtain ⟨hbooks, hqueue⟩ := books_of_run hp hfixed hsend hr
  exact hbooks.informs hqueue

/-- Two thread workers with a tasks queue and stealing. -/
def stealingPair : PoolConfig Unit := { threadPoolConfig .fixed 2 none with enableTasksQueue := true }

/-- The response of worker `w` to a task that has failed. -/
def failed (w taskId : Nat) : Event Unit Unit :=
  .message w (.taskResponse ⟨taskId, none, some ⟨"default", "failed"⟩, none⟩)

/-- Worker 1 steals task 1 from worker 0, which has answered its own task before the stolen one is answered. -/
def answerStolen : List (Event Unit Unit) :=
  [submit 0 0, submit 1 0, submit 2 1, submit 3 1, respond 1 2, failed 1 3, respond 0 0, respond 1 1]

theorem info_accounts_answerStolen : ∃ s₀ s : Pool Unit Unit,
    (s.info.executedTasks = 3 ∧ s.info.failedTasks = 1) ∧ s.Informs s₀.started answerStolen := by
  obtain ⟨s₀, s, hp, hr, hcounts⟩ := created_run_to (P := fun s => s.info.executedTasks = 3 ∧ s.info.failedTasks = 1)
    FixedEvent 6 stealingPair answerStolen (by decide +kernel)
  exact ⟨s₀, s, hcounts, info_accounts hp rfl (fun _ => rfl) hr⟩

/-- The number of executing tasks `info` gives is that of the tasks in flight if and only if no response so far has
found its node without a count. -/
theorem executingTasks_exact_iff (hp : Created c startWorkers s₀) (hfixed : c.type = .fixed)
    (hsend : ∀ t, c.postable t = true) (hr : Run (Guarded FixedEvent Step) s₀ es s) :
    s.info.executingTasks = s.tasksInFlight ↔
      Run (Guarded (fun s e => FixedEvent s e ∧ FindsCount s e) Step) s₀ es s := by
  have hstep {es : List (Event Data Response)} {s s' : Pool Data Response} {e : Event Data Response}
      (hr : Run (Guarded FixedEvent Step) s₀ es s) (he : FixedEvent s e) (hs : Step s e s') :
      s'.info.executingTasks = s'.tasksInFlight ↔ s.info.executingTasks = s.tasksInFlight ∧ FindsCount s e := by
    obtain ⟨hbooks, -⟩ := books_of_run hp hfixed hsend hr
    obtain ⟨now, hfs⟩ := fixedStep_of_step hbooks.ledger.pool he hs
    have hiff := hfs.exact_iff (hbooks.now now).ledger.pool (hbooks.now now).executing
    exact hiff
  have hforget {es : List (Event Data Response)} {s : Pool Data Response}
      (hr : Run (Guarded (fun s e => FixedEvent s e ∧ FindsCount s e) Step) s₀ es s) :
      Run (Guarded FixedEvent Step) s₀ es s := hr.mono fun _ _ _ hs => ⟨hs.1.1, hs.2⟩
  have hfirst : s₀.info.executingTasks = s₀.tasksInFlight := by
    rw [tasksInFlight_of_fresh (fresh_of_created hp)]
    exact Pool.total_of_uncounted (g := (·.tasks.executing)) (uncounted_of_created hp) rfl
  constructor
  · intro hexact
    induction hr with
    | nil => exact .nil
    | step hr hs ih =>
      obtain ⟨hbefore, hfinds⟩ := (hstep hr hs.1 hs.2).1 hexact
      exact .step (ih hbefore) ⟨⟨hs.1, hfinds⟩, hs.2⟩
  · intro hr'
    induction hr' with
    | nil => exact hfirst
    | step hr' hs ih => exact (hstep (hforget hr') hs.1.1 hs.2).2 ⟨ih (hforget hr'), hs.1.2⟩

/-- The answer to the stolen task is counted at worker 0, which executes nothing. -/
theorem executingTasks_exact_iff_answerStolen : ∃ s₀ s : Pool Unit Unit,
    (s.info.executingTasks = 1 ∧ s.tasksInFlight = 0) ∧
      ¬ Run (Guarded (fun s e => FixedEvent s e ∧ FindsCount s e) Step) s₀ answerStolen s := by
  obtain ⟨s₀, s, hp, hr, hcounts⟩ := created_run_to (P := fun s => s.info.executingTasks = 1 ∧ s.tasksInFlight = 0)
    FixedEvent 6 stealingPair answerStolen (by decide +kernel)
  refine ⟨s₀, s, hcounts, fun hfinds => ?_⟩
  have hexact := (executingTasks_exact_iff hp rfl (fun _ => rfl) hr).2 hfinds
  rw [hcounts.1, hcounts.2] at hexact
  cases hexact

end Runs

end Poolifier
