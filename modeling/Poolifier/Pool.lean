import Poolifier.Lib.Eff
import Poolifier.Node
/-!
# The pool and its queues

The state of a pool, and the code that moves tasks between queues and workers.
A worker node key is an index into `workerNodes`; where the source has `-1` for
a worker that is not found, a key here is the length of `workerNodes`, which is
out of range just as well. Reading a node at a key out of range throws.

Popping or enqueueing a task calls back into the pool (`Callbacks`), and the
callbacks pop and enqueue tasks again. `callbacks fuel` allows this to nest
`fuel` deep, and does not end beyond.
-/

namespace Poolifier

open EffLib

/-- `TasksQueueOptions`, merged with the defaults; `none` is a field that is `undefined`. -/
structure TasksQueueOptions where
  size : Option Nat
  concurrency : Option Nat
  taskStealing : Bool
  tasksStealingOnBackPressure : Bool

/-- The `PoolOptions` that the modelled code reads. -/
structure PoolOptions where
  restartWorkerOnError : Bool
  enableTasksQueue : Bool
  tasksQueueOptions : Option TasksQueueOptions

structure StrategyPolicy where
  dynamicWorkerUsage : Bool
  dynamicWorkerReady : Bool

/-- How the promise of an `execute` call ended: with the response of a worker, or
with an exception of the call itself. -/
inductive Settlement (Response : Type)
  | resolved (data : Option Response)
  | rejected (message : String)
  | thrown (e : JsError)

structure Pool (Data Response : Type) where
  type : PoolType
  worker : WorkerType
  numberOfWorkers : Nat
  max : Option Nat
  opts : PoolOptions
  strategyPolicy : StrategyPolicy
  taskStatisticsRequirements : TaskStatisticsRequirements
  workerNodes : List (WorkerNode Data)
  /-- The worker node key of each entry; its promise is in `settled` once it has ended. -/
  promiseResponseMap : AList (fun _ : Nat => Nat)
  started : Bool
  starting : Bool
  /-- The promises that have ended, in order. -/
  settled : List (Nat × Settlement Response)
  /-- The ids of the `execute` calls so far; `randomUUID` draws no id twice. -/
  uuids : List Nat
  nextWorkerId : Nat
  /-- Nodes that have left `workerNodes`: their polling loops may outlive them. -/
  removedNodes : List (WorkerNode Data)
  /-- Whether a task can be cloned, so that `postMessage` does not throw. -/
  postable : Task Data → Bool
  /-- What `performance.now()` returns. -/
  now : ℚ
  /-- How many exceptions a `catch` has dropped: of a round of a polling loop, or of the
  destruction of a node. -/
  errorsCaught : Nat
  /-- Whether `destroy()` has been called. -/
  destroying : Bool

namespace Pool
variable {Data Response : Type}

def maxSize (p : Pool Data Response) : Nat := p.max.getD p.numberOfWorkers

def modifyNode (workerNodeKey : Nat) (f : WorkerNode Data → WorkerNode Data) (p : Pool Data Response) :
    Pool Data Response :=
  { p with workerNodes := p.workerNodes.modify workerNodeKey f }

/-- The key of the node of a worker; the number of nodes if there is none. -/
def getWorkerNodeKeyByWorkerId (p : Pool Data Response) (workerId : Nat) : Nat :=
  p.workerNodes.findIdx (·.info.id = workerId)

/-- `tasksQueueOptions?.concurrency`. -/
def concurrency (p : Pool Data Response) : Option Nat := p.opts.tasksQueueOptions.bind (·.concurrency)

/-- `tasksQueueOptions?.size`. -/
def queueSize (p : Pool Data Response) : Option Nat := p.opts.tasksQueueOptions.bind (·.size)

/-- Whether the node counts fewer executing tasks than its quota. -/
def belowConcurrency (p : Pool Data Response) (n : WorkerNode Data) : Bool :=
  p.concurrency.any (n.usage.tasks.executing < ·)

/-- The test of `shallExecuteTask` on an existing node. -/
def shallExecute (p : Pool Data Response) (n : WorkerNode Data) : Bool :=
  n.tasksQueue.length = 0 && p.belowConcurrency n

/-- Whether a task message to the node's worker is posted without an exception. -/
def canSend (p : Pool Data Response) (n : WorkerNode Data) (task : Task Data) : Bool :=
  n.channelOpen && p.postable task

end Pool

abbrev PoolM (Data Response α : Type) := Eff (Pool Data Response) JsError α

section Model
variable {Data Response : Type}

/-- The node at a key; a property read on it throws when there is none. -/
def nodeAt (workerNodeKey : Nat) : PoolM Data Response (WorkerNode Data) := do
  match (← Eff.get).workerNodes[workerNodeKey]? with
  | none => Eff.throw .undefinedAccess
  | some n => pure n

def modifyNode (workerNodeKey : Nat) (f : WorkerNode Data → WorkerNode Data) : PoolM Data Response Unit :=
  Eff.modify (Pool.modifyNode workerNodeKey f)

/-- The callbacks a worker node calls with its worker id. -/
structure Callbacks (Data Response : Type) where
  onEmptyQueue : Nat → PoolM Data Response Unit
  onBackPressure : Nat → PoolM Data Response Unit

/-! ## Queue operations of a worker node -/

/-- Adds a task at the end, and calls `onBackPressure` unless its call is under way. -/
def enqueueTask (cb : Callbacks Data Response) (workerNodeKey : Nat) (task : Task Data) :
    PoolM Data Response Unit := do
  let _ ← nodeAt workerNodeKey
  modifyNode workerNodeKey fun n => { n with tasksQueue := n.tasksQueue ++ [task] }
  let n ← nodeAt workerNodeKey
  if n.onBackPressure && n.hasBackPressure && !n.onBackPressureStarted then
    modifyNode workerNodeKey fun n => { n with onBackPressureStarted := true }
    cb.onBackPressure n.info.id
    modifyNode workerNodeKey fun n => { n with onBackPressureStarted := false }
  else
    pure ()

/-- One round of the polling loop, up to its `sleep`. -/
def startOnEmptyQueue (cb : Callbacks Data Response) (workerNodeKey : Nat) : PoolM Data Response Unit := do
  let n ← nodeAt workerNodeKey
  if n.onEmptyQueueCount > 0 && (n.usage.tasks.executing > 0 || n.tasksQueue.length > 0) then
    modifyNode workerNodeKey fun n => { n with onEmptyQueueCount := 0, polling := false }
  else
    modifyNode workerNodeKey fun n => { n with onEmptyQueueCount := n.onEmptyQueueCount + 1, polling := true }
    if n.onEmptyQueue then cb.onEmptyQueue n.info.id else pure ()

/-- `startOnEmptyQueue().catch(EMPTY_FUNCTION)`: an exception ends the loop and nothing else. -/
def startOnEmptyQueueCaught (cb : Callbacks Data Response) (workerNodeKey : Nat) : PoolM Data Response Unit :=
  (startOnEmptyQueue cb workerNodeKey).swallow fun p =>
    { p.modifyNode workerNodeKey fun n => { n with polling := false } with errorsCaught := p.errorsCaught + 1 }

/-- What `dequeueTask` and `popTask` do after they have taken a task out. -/
def afterTaken (cb : Callbacks Data Response) (workerNodeKey : Nat) : PoolM Data Response Unit := do
  let n ← nodeAt workerNodeKey
  if n.onEmptyQueue && n.tasksQueue.length = 0 && n.onEmptyQueueCount = 0 then
    startOnEmptyQueueCaught cb workerNodeKey
  else
    pure ()

/-- Takes the first task out of a queue. -/
def dequeueTask (cb : Callbacks Data Response) (workerNodeKey : Nat) :
    PoolM Data Response (Option (Task Data)) := do
  let n ← nodeAt workerNodeKey
  modifyNode workerNodeKey fun n => { n with tasksQueue := n.tasksQueue.tail }
  afterTaken cb workerNodeKey
  pure n.tasksQueue.head?

/-- Takes the last task out of a queue. -/
def popTask (cb : Callbacks Data Response) (workerNodeKey : Nat) :
    PoolM Data Response (Option (Task Data)) := do
  let n ← nodeAt workerNodeKey
  modifyNode workerNodeKey fun n => { n with tasksQueue := n.tasksQueue.dropLast }
  afterTaken cb workerNodeKey
  pure n.tasksQueue.getLast?

/-! ## Executing tasks -/

def shallExecuteTask (workerNodeKey : Nat) : PoolM Data Response Bool := do
  let n ← nodeAt workerNodeKey
  pure ((← Eff.get).shallExecute n)

def beforeTaskExecutionHook (workerNodeKey : Nat) (task : Task Data) : PoolM Data Response Unit := do
  let _ ← nodeAt workerNodeKey
  let p ← Eff.get
  modifyNode workerNodeKey (·.beforeTaskExecution p.taskStatisticsRequirements p.now task)

def afterTaskExecutionHook (workerNodeKey : Nat) (message : TaskResponse Response) : PoolM Data Response Unit := do
  let _ ← nodeAt workerNodeKey
  let p ← Eff.get
  modifyNode workerNodeKey (·.afterTaskExecution p.taskStatisticsRequirements message)

/-- `sendToWorker` with a task: a closed channel is `undefined`, and a task may not be cloneable. -/
def sendToWorker (workerNodeKey : Nat) (task : Task Data) : PoolM Data Response Unit := do
  let n ← nodeAt workerNodeKey
  if !n.channelOpen then
    Eff.throw .undefinedAccess
  else if !(← Eff.get).postable task then
    Eff.throw .dataCloneError
  else
    modifyNode workerNodeKey (·.receive task)

def executeTask (workerNodeKey : Nat) (task : Task Data) : PoolM Data Response Unit := do
  beforeTaskExecutionHook workerNodeKey task
  sendToWorker workerNodeKey task

/-- The conditional that every dispatch of a task repeats. -/
def executeOrEnqueueTask (cb : Callbacks Data Response) (workerNodeKey : Nat) (task : Task Data) :
    PoolM Data Response Unit := do
  if ← shallExecuteTask workerNodeKey then
    executeTask workerNodeKey task
  else
    enqueueTask cb workerNodeKey task

def updateTaskStolenStatisticsWorkerUsage (workerNodeKey : Nat) (taskName : String) :
    PoolM Data Response Unit := do
  let _ ← nodeAt workerNodeKey
  modifyNode workerNodeKey (·.stealTask taskName)

/-! ## Task stealing -/

/-- What both stealing callbacks do with a task they have popped. -/
def dispatchStolenTask (cb : Callbacks Data Response) (workerNodeKey : Nat) :
    Option (Task Data) → PoolM Data Response Unit
  | none => Eff.throw .undefinedAccess
  | some task => do
    executeOrEnqueueTask cb workerNodeKey task
    updateTaskStolenStatisticsWorkerUsage workerNodeKey task.name

/-- The node with the longest queue among the ready nodes of other workers, with its key. -/
def emptyQueueStealSource (p : Pool Data Response) (workerId : Nat) : Option (WorkerNode Data × Nat) :=
  (p.workerNodes.zipIdx.insertionSort fun a b => b.1.tasksQueue.length ≤ a.1.tasksQueue.length).find?
    fun a => a.1.info.ready && a.1.info.id ≠ workerId && a.1.tasksQueue.length > 0

def taskStealingOnEmptyQueue (cb : Callbacks Data Response) (workerId : Nat) : PoolM Data Response Unit := do
  let p ← Eff.get
  let destinationWorkerNodeKey := p.getWorkerNodeKeyByWorkerId workerId
  match emptyQueueStealSource p workerId with
  | none => pure ()
  | some (_, source) =>
    let task ← popTask cb source
    dispatchStolenTask cb destinationWorkerNodeKey task

/-- One pass of the loop of `tasksStealingOnBackPressure`: `workerNode` is the key of the
node that is tested, `workerNodeKey` its position in the sorted copy, which the source
takes for its key. -/
def stealOnBackPressure (cb : Callbacks Data Response) (workerId source workerNode workerNodeKey : Nat) :
    PoolM Data Response Unit := do
  let sourceWorkerNode ← nodeAt source
  if sourceWorkerNode.tasksQueue.length > 0 then
    let n ← nodeAt workerNode
    if n.info.ready && n.info.id ≠ workerId && (← Eff.get).queueSize.any (n.tasksQueue.length < · - 1) then
      let task ← popTask cb source
      dispatchStolenTask cb workerNodeKey task
    else
      pure ()
  else
    pure ()

def tasksStealingOnBackPressure (cb : Callbacks Data Response) (workerId : Nat) : PoolM Data Response Unit := do
  let p ← Eff.get
  if p.queueSize.any (· ≤ 1) then
    pure ()
  else
    let source := p.getWorkerNodeKeyByWorkerId workerId
    let workerNodes := p.workerNodes.zipIdx.insertionSort fun a b => a.1.tasksQueue.length ≤ b.1.tasksQueue.length
    Eff.forEach (fun a => stealOnBackPressure cb workerId source a.1.2 a.2) workerNodes.zipIdx

/-- The callbacks the pool installs, nesting at most `fuel` deep. -/
def callbacks : Nat → Callbacks Data Response
  | 0 => ⟨fun _ => Eff.diverge, fun _ => Eff.diverge⟩
  | fuel + 1 => ⟨taskStealingOnEmptyQueue (callbacks fuel), tasksStealingOnBackPressure (callbacks fuel)⟩

/-! ## Emptying a queue -/

def tasksQueueNotEmpty (workerNodeKey : Nat) : PoolM Data Response Bool := do
  let n ← nodeAt workerNodeKey
  pure (n.tasksQueue.length > 0)

/-- Takes the first task out of the queue of a node and passes it on. -/
def dequeueThen (cb : Callbacks Data Response) (workerNodeKey : Nat) (next : Task Data → PoolM Data Response Unit) :
    PoolM Data Response Unit := do
  match ← dequeueTask cb workerNodeKey with
  | none => Eff.throw .undefinedAccess
  | some task => next task

/-- The destination `redistributeQueuedTasks` computes: a fold that starts from key `0`. -/
def redistributionKey (p : Pool Data Response) : Nat :=
  p.workerNodes.zipIdx.foldl (fun minWorkerNodeKey (n, workerNodeKey) =>
    if n.info.ready && p.workerNodes[minWorkerNodeKey]?.any (n.tasksQueue.length < ·.tasksQueue.length)
    then workerNodeKey else minWorkerNodeKey) 0

def redistributeQueuedTasks (cb : Callbacks Data Response) (fuel workerNodeKey : Nat) : PoolM Data Response Unit :=
  Eff.whileDo (tasksQueueNotEmpty workerNodeKey) (do
    let p ← Eff.get
    dequeueThen cb workerNodeKey (executeOrEnqueueTask cb (redistributionKey p))) fuel

def flushTasksQueue (cb : Callbacks Data Response) (fuel workerNodeKey : Nat) : PoolM Data Response Unit := do
  Eff.whileDo (tasksQueueNotEmpty workerNodeKey) (dequeueThen cb workerNodeKey (executeTask workerNodeKey)) fuel
  modifyNode workerNodeKey fun n => { n with tasksQueue := [] }

def flushTasksQueues (cb : Callbacks Data Response) (fuel : Nat) : PoolM Data Response Unit := do
  let p ← Eff.get
  Eff.forEach (flushTasksQueue cb fuel) (List.range p.workerNodes.length)

end Model

end Poolifier
