import Mathlib.Data.List.AList
import Poolifier.Lib.OrderedMap
import Poolifier.Usage
/-!
# Worker nodes

A worker node is the pool's record of one worker: its info flags, its usage
statistics, its tasks queue, and the guards and callbacks of task stealing. The
worker itself is outside the main thread. The node holds what the main thread
can tell about it (`Worker`), how far the destruction of the worker has got, and
whether the node's polling loop is alive.
-/

namespace Poolifier

inductive WorkerType
  | thread
  | cluster
deriving DecidableEq

inductive PoolType
  | fixed
  | dynamic
deriving DecidableEq

structure WorkerInfo where
  id : Nat
  type : WorkerType
  dynamic : Bool
  ready : Bool
  taskFunctionNames : Option (List String)

/-- The task messages posted to a worker, oldest first, and those of them whose
response the pool has not handled. -/
structure Worker (Data : Type) where
  received : List (Task Data)
  unanswered : List (Task Data)

/-- Why the pool destroys a worker. -/
inductive DestroyReason
  | softKill
  | hardKill
  | poolDestroyed
deriving DecidableEq

/-- Errors the code throws, with the texts of its own, and errors of the runtime:
a property read of `undefined`, a message that cannot be cloned. -/
inductive JsError
  | error (message : String)
  | typeError (message : String)
  | rangeError (message : String)
  | undefinedAccess
  | dataCloneError
deriving DecidableEq

structure WorkerNode (Data : Type) where
  worker : Worker Data
  info : WorkerInfo
  usage : WorkerUsage
  /-- `strategyData?.virtualTaskEndTimestamp`. -/
  strategyData : Option ℚ
  /-- Whether the message channel of a thread worker is open. -/
  messageChannel : Bool
  /-- `none` is `undefined`. -/
  tasksQueueBackPressureSize : Option Nat
  /-- Whether the `onBackPressure` callback is installed. -/
  onBackPressure : Bool
  /-- Whether the `onEmptyQueue` callback is installed. -/
  onEmptyQueue : Bool
  /-- The deque of waiting tasks, first to last. -/
  tasksQueue : List (Task Data)
  onBackPressureStarted : Bool
  onEmptyQueueCount : Nat
  taskFunctionsUsage : AList (fun _ : Option String => WorkerUsage)
  /-- Whether the loop of `startOnEmptyQueue` goes on: it has neither ended nor thrown. -/
  polling : Bool
  /-- Set once `destroyWorkerNode` has sent the kill message. -/
  destroying : Option DestroyReason
  /-- Whether the pool has terminated the worker. -/
  terminated : Bool

namespace WorkerNode
variable {Data Response : Type}

/-- The constructor. -/
def new (id : Nat) (type : WorkerType) (tasksQueueBackPressureSize : Nat) : WorkerNode Data where
  worker := ⟨[], []⟩
  info := ⟨id, type, false, false, none⟩
  usage := .init
  strategyData := none
  messageChannel := type = .thread
  tasksQueueBackPressureSize := some tasksQueueBackPressureSize
  onBackPressure := false
  onEmptyQueue := false
  tasksQueue := []
  onBackPressureStarted := false
  onEmptyQueueCount := 0
  taskFunctionsUsage := ∅
  polling := false
  destroying := none
  terminated := false

/-- A comparison with `undefined` is false. -/
def hasBackPressure (n : WorkerNode Data) : Bool :=
  n.tasksQueueBackPressureSize.any (· ≤ n.tasksQueue.length)

/-- Thread workers are reached through the message channel, cluster workers through their process. -/
def channelOpen (n : WorkerNode Data) : Bool :=
  match n.info.type with
  | .thread => n.messageChannel
  | .cluster => true

def closeChannel (n : WorkerNode Data) : WorkerNode Data := { n with messageChannel := false }

/-- The worker gets a task message. -/
def receive (task : Task Data) (n : WorkerNode Data) : WorkerNode Data :=
  { n with worker := ⟨n.worker.received ++ [task], n.worker.unanswered ++ [task]⟩ }

/-- The response to a task arrives. -/
def answer (taskId : Nat) (n : WorkerNode Data) : WorkerNode Data :=
  { n with worker := { n.worker with unanswered := n.worker.unanswered.eraseP (·.taskId = taskId) } }

/-! ## Task function usage -/

/-- The key of the usage record of a task function: `'default'` stands for the second listed name. -/
def taskFunctionKey (n : WorkerNode Data) (name : Option String) : Option String :=
  if name = some defaultTaskName then n.info.taskFunctionNames.bind (·[1]?) else name

/-- The record of a task function, which is created when it is first asked for. -/
def getTaskFunctionWorkerUsage (n : WorkerNode Data) (name : Option String) : Except JsError WorkerUsage :=
  let shown := name.getD "undefined"
  match n.info.taskFunctionNames with
  | none => .error (.error s!"Cannot get task function worker usage for task function name '{shown}' when task function names list is not yet defined")
  | some names =>
    if names.length < 3 then
      .error (.error s!"Cannot get task function worker usage for task function name '{shown}' when task function names list has less than 3 elements")
    else
      .ok ((n.taskFunctionsUsage.lookup (n.taskFunctionKey name)).getD .init)

def shallUpdateTaskFunctionWorkerUsage (n : WorkerNode Data) : Bool :=
  n.info.taskFunctionNames.any (·.length > 2)

/-- Updates the record of a task function, where the node keeps these records. -/
def updateTaskFunctionWorkerUsage (name : Option String) (f : WorkerUsage → WorkerUsage) (n : WorkerNode Data) :
    WorkerNode Data :=
  if n.shallUpdateTaskFunctionWorkerUsage then
    match n.getTaskFunctionWorkerUsage name with
    | .error _ => n
    | .ok usage =>
      { n with taskFunctionsUsage := n.taskFunctionsUsage.insert (n.taskFunctionKey name) (f usage) }
  else n

/-- `beforeTaskExecutionHook` on an existing node. -/
def beforeTaskExecution (requirements : TaskStatisticsRequirements) (now : ℚ) (task : Task Data)
    (n : WorkerNode Data) : WorkerNode Data :=
  let f := WorkerUsage.beforeTaskExecution requirements now task
  { n with usage := f n.usage }.updateTaskFunctionWorkerUsage (some task.name) f

/-- `afterTaskExecutionHook` on an existing node. -/
def afterTaskExecution (requirements : TaskStatisticsRequirements) (message : TaskResponse Response)
    (n : WorkerNode Data) : WorkerNode Data :=
  let f := WorkerUsage.afterTaskExecution requirements message
  { n with usage := f n.usage }.updateTaskFunctionWorkerUsage (message.taskPerformance.map TaskPerformance.name) f

/-- `updateTaskStolenStatisticsWorkerUsage` on an existing node. -/
def stealTask (taskName : String) (n : WorkerNode Data) : WorkerNode Data :=
  { n with usage := n.usage.stealTask }.updateTaskFunctionWorkerUsage (some taskName) .stealTask

/-! ## What the updates leave alone -/

/-- `n'` is `n` but for the worker, the usage statistics, the queue, the guards and the polling loop. -/
structure SameSetup (n n' : WorkerNode Data) : Prop where
  info : n'.info = n.info
  messageChannel : n'.messageChannel = n.messageChannel
  tasksQueueBackPressureSize : n'.tasksQueueBackPressureSize = n.tasksQueueBackPressureSize
  onBackPressure : n'.onBackPressure = n.onBackPressure
  onEmptyQueue : n'.onEmptyQueue = n.onEmptyQueue
  destroying : n'.destroying = n.destroying
  terminated : n'.terminated = n.terminated
  polling : (n.polling = true → 0 < n.onEmptyQueueCount) → n'.polling = true → 0 < n'.onEmptyQueueCount

theorem SameSetup.refl (n : WorkerNode Data) : SameSetup n n := ⟨rfl, rfl, rfl, rfl, rfl, rfl, rfl, id⟩

theorem SameSetup.trans {n n' n'' : WorkerNode Data} (h : SameSetup n n') (h' : SameSetup n' n'') :
    SameSetup n n'' :=
  ⟨h'.info.trans h.info, h'.messageChannel.trans h.messageChannel,
    h'.tasksQueueBackPressureSize.trans h.tasksQueueBackPressureSize, h'.onBackPressure.trans h.onBackPressure,
    h'.onEmptyQueue.trans h.onEmptyQueue, h'.destroying.trans h.destroying, h'.terminated.trans h.terminated,
    fun hp => h'.polling (h.polling hp)⟩

/-- `n'` holds the same tasks as `n`, and counts as many of them as executing. -/
structure SameTasks (n n' : WorkerNode Data) : Prop where
  setup : SameSetup n n'
  worker : n'.worker = n.worker
  tasksQueue : n'.tasksQueue = n.tasksQueue
  executing : n'.usage.tasks.executing = n.usage.tasks.executing

/-- Function usage records are the only thing `updateTaskFunctionWorkerUsage` touches. -/
theorem updateTaskFunctionWorkerUsage_eq (name : Option String) (f : WorkerUsage → WorkerUsage)
    (n : WorkerNode Data) :
    ∃ m, n.updateTaskFunctionWorkerUsage name f = { n with taskFunctionsUsage := m } := by
  unfold updateTaskFunctionWorkerUsage
  split
  · split
    · exact ⟨_, rfl⟩
    · exact ⟨_, rfl⟩
  · exact ⟨_, rfl⟩

theorem beforeTaskExecution_eq (requirements : TaskStatisticsRequirements) (now : ℚ) (task : Task Data)
    (n : WorkerNode Data) :
    ∃ m, n.beforeTaskExecution requirements now task =
      { n with usage := n.usage.beforeTaskExecution requirements now task, taskFunctionsUsage := m } :=
  updateTaskFunctionWorkerUsage_eq _ _ _

theorem afterTaskExecution_eq (requirements : TaskStatisticsRequirements) (message : TaskResponse Response)
    (n : WorkerNode Data) :
    ∃ m, n.afterTaskExecution requirements message =
      { n with usage := n.usage.afterTaskExecution requirements message, taskFunctionsUsage := m } :=
  updateTaskFunctionWorkerUsage_eq _ _ _

@[simp] theorem beforeTaskExecution_tasksQueue (requirements : TaskStatisticsRequirements) (now : ℚ) (task : Task Data)
    (n : WorkerNode Data) : (n.beforeTaskExecution requirements now task).tasksQueue = n.tasksQueue := by
  obtain ⟨m, h⟩ := beforeTaskExecution_eq requirements now task n
  rw [h]

@[simp] theorem afterTaskExecution_tasksQueue (requirements : TaskStatisticsRequirements) (message : TaskResponse Response)
    (n : WorkerNode Data) : (n.afterTaskExecution requirements message).tasksQueue = n.tasksQueue := by
  obtain ⟨m, h⟩ := afterTaskExecution_eq requirements message n
  rw [h]

@[simp] theorem beforeTaskExecution_worker (requirements : TaskStatisticsRequirements) (now : ℚ) (task : Task Data)
    (n : WorkerNode Data) : (n.beforeTaskExecution requirements now task).worker = n.worker := by
  obtain ⟨m, h⟩ := beforeTaskExecution_eq requirements now task n
  rw [h]

@[simp] theorem afterTaskExecution_worker (requirements : TaskStatisticsRequirements) (message : TaskResponse Response)
    (n : WorkerNode Data) : (n.afterTaskExecution requirements message).worker = n.worker := by
  obtain ⟨m, h⟩ := afterTaskExecution_eq requirements message n
  rw [h]

@[simp] theorem beforeTaskExecution_info (requirements : TaskStatisticsRequirements) (now : ℚ) (task : Task Data)
    (n : WorkerNode Data) : (n.beforeTaskExecution requirements now task).info = n.info := by
  obtain ⟨m, h⟩ := beforeTaskExecution_eq requirements now task n
  rw [h]

@[simp] theorem afterTaskExecution_info (requirements : TaskStatisticsRequirements) (message : TaskResponse Response)
    (n : WorkerNode Data) : (n.afterTaskExecution requirements message).info = n.info := by
  obtain ⟨m, h⟩ := afterTaskExecution_eq requirements message n
  rw [h]

@[simp] theorem beforeTaskExecution_usage (requirements : TaskStatisticsRequirements) (now : ℚ) (task : Task Data)
    (n : WorkerNode Data) : (n.beforeTaskExecution requirements now task).usage =
      n.usage.beforeTaskExecution requirements now task := by
  obtain ⟨m, h⟩ := beforeTaskExecution_eq requirements now task n
  rw [h]

@[simp] theorem afterTaskExecution_usage (requirements : TaskStatisticsRequirements) (message : TaskResponse Response)
    (n : WorkerNode Data) : (n.afterTaskExecution requirements message).usage =
      n.usage.afterTaskExecution requirements message := by
  obtain ⟨m, h⟩ := afterTaskExecution_eq requirements message n
  rw [h]

theorem sameTasks_stealTask (taskName : String) (n : WorkerNode Data) : SameTasks n (n.stealTask taskName) := by
  obtain ⟨m, h⟩ := updateTaskFunctionWorkerUsage_eq (some taskName) .stealTask
    { n with usage := n.usage.stealTask }
  rw [stealTask, h]
  exact ⟨⟨rfl, rfl, rfl, rfl, rfl, rfl, rfl, id⟩, rfl, rfl, rfl⟩

end WorkerNode

end Poolifier
