import Poolifier.Lib.Runs
import Poolifier.Pool
/-!
# The events a pool handles

Calls of the pool's API, messages and events of the workers, and polling ticks.
Each runs to its end before the next is handled, as the event loop has it.
`handle` is the code an event runs; `Enabled` says when the environment can
cause it: a worker answers a task it was sent and has not answered, a task id
is drawn once, a timer fires while its loop is alive.
-/

namespace Poolifier

open EffLib RunLib

/-! ## Tasks queue options -/

/-- A number given in options. -/
inductive JsNumber
  | int (z : Int)
  | notInteger
deriving DecidableEq

def JsNumber.isSafeInteger : JsNumber → Bool
  | .int z => z.natAbs < 2 ^ 53
  | .notInteger => false

/-- A field of an options object. -/
inductive OptionField (α : Type)
  | absent
  | undefined
  | value (a : α)
deriving DecidableEq

/-- A field spread over a default: an absent field keeps the default, `undefined` does not. -/
def OptionField.over {α : Type} (x : OptionField α) (default : α) : Option α :=
  match x with
  | .absent => some default
  | .undefined => none
  | .value a => some a

structure TasksQueueOptionsObject where
  size : OptionField JsNumber
  concurrency : OptionField JsNumber
  taskStealing : OptionField Bool
  tasksStealingOnBackPressure : OptionField Bool
deriving DecidableEq

/-- A tasks queue options argument. -/
inductive TasksQueueOptionsArgument
  | undefined
  | notPlainObject
  | object (o : TasksQueueOptionsObject)
deriving DecidableEq

/-- The checks `checkValidTasksQueueOptions` makes of a number; `name` is how its texts name it. -/
def checkPositiveInteger (name : String) : OptionField JsNumber → Except JsError Unit
  | .absent => .ok ()
  | .undefined => .ok ()
  | .value x =>
    if !x.isSafeInteger then
      .error (.typeError s!"Invalid worker node tasks {name}: must be an integer")
    else
      match x with
      | .int z =>
        if z ≤ 0 then
          .error (.rangeError s!"Invalid worker node tasks {name}: {z} is a negative integer or zero")
        else .ok ()
      | .notInteger => .ok ()

def checkValidTasksQueueOptions : TasksQueueOptionsArgument → Except JsError Unit
  | .undefined => .ok ()
  | .notPlainObject => .error (.typeError "Invalid tasks queue options: must be a plain object")
  | .object o => do
    checkPositiveInteger "concurrency" o.concurrency
    checkPositiveInteger "queue size" o.size

def JsNumber.toNat? : JsNumber → Option Nat
  | .int z => some z.toNat
  | .notInteger => none

/-- Options that have passed the check, spread over the defaults. -/
def buildTasksQueueOptions (maxSize : Nat) : TasksQueueOptionsArgument → TasksQueueOptions
  | .object o =>
    { size := (o.size.over (.int (maxSize ^ 2))).bind (·.toNat?)
      concurrency := (o.concurrency.over (.int 1)).bind (·.toNat?)
      taskStealing := (o.taskStealing.over true).getD false
      tasksStealingOnBackPressure := (o.tasksStealingOnBackPressure.over true).getD false }
  | _ => ⟨some (maxSize ^ 2), some 1, true, true⟩

/-- A number that passes the check. -/
theorem checkPositiveInteger_ok {name : String} {x : JsNumber} (h : checkPositiveInteger name (.value x) = .ok ()) :
    ∃ n : Nat, x = .int n ∧ 0 < n ∧ n < 2 ^ 53 := by
  cases x with
  | notInteger => cases h
  | int z =>
    unfold checkPositiveInteger at h
    dsimp only at h
    split at h
    · cases h
    · rename_i hsafe
      split at h
      · cases h
      · rename_i hpos
        simp only [JsNumber.isSafeInteger, Bool.not_eq_true', decide_eq_false_iff_not, not_not] at hsafe
        exact ⟨z.toNat, by rw [Int.toNat_of_nonneg (by omega)], by omega, by omega⟩

theorem checkValidTasksQueueOptions_ok {o : TasksQueueOptionsObject}
    (h : checkValidTasksQueueOptions (.object o) = .ok ()) :
    checkPositiveInteger "concurrency" o.concurrency = .ok () ∧ checkPositiveInteger "queue size" o.size = .ok () := by
  have heq : checkValidTasksQueueOptions (.object o) =
      (checkPositiveInteger "concurrency" o.concurrency >>= fun _ => checkPositiveInteger "queue size" o.size) := rfl
  rw [heq] at h
  rcases hc : checkPositiveInteger "concurrency" o.concurrency with e | _
  · rw [hc] at h
    cases h
  · rw [hc] at h
    exact ⟨rfl, h⟩

/-- The field that gives a queue size. -/
def TasksQueueOptionsArgument.size : TasksQueueOptionsArgument → OptionField JsNumber
  | .object o => o.size
  | _ => .absent

/-- The size that accepted options come to: a default, none where it is given as `undefined`, or the given one. -/
theorem buildTasksQueueOptions_size {a : TasksQueueOptionsArgument} (h : checkValidTasksQueueOptions a = .ok ())
    (maxSize : Nat) : a.size = .absent ∧ (buildTasksQueueOptions maxSize a).size = some (maxSize ^ 2) ∨
      a.size = .undefined ∧ (buildTasksQueueOptions maxSize a).size = none ∨
      ∃ n : Nat, a.size = .value (.int n) ∧ 0 < n ∧ n < 2 ^ 53 ∧ (buildTasksQueueOptions maxSize a).size = some n := by
  cases a with
  | undefined => exact .inl ⟨rfl, rfl⟩
  | notPlainObject => exact .inl ⟨rfl, rfl⟩
  | object o =>
    rcases hsize : o.size with _ | _ | x
    · left
      refine ⟨hsize, ?_⟩
      simp only [buildTasksQueueOptions, hsize, OptionField.over, JsNumber.toNat?, Option.bind_some]
      congr 1
    · right; left
      exact ⟨hsize, by simp [buildTasksQueueOptions, hsize, OptionField.over]⟩
    · right; right
      obtain ⟨-, hcheck⟩ := checkValidTasksQueueOptions_ok h
      rw [hsize] at hcheck
      obtain ⟨n, rfl, hpos, hlt⟩ := checkPositiveInteger_ok hcheck
      refine ⟨n, hsize, hpos, hlt, ?_⟩
      simp [buildTasksQueueOptions, hsize, OptionField.over, JsNumber.toNat?]

def OptionField.value? {α : Type} : OptionField α → Option α
  | .value a => some a
  | _ => none

/-- A size that nothing has checked, as far as the `WorkerNode` constructor tells sizes apart: it refuses
all numbers that are not safe integers alike, and all numbers that are not positive. -/
def JsNumber.givenSize (x : JsNumber) : Nat := if x.isSafeInteger then x.toNat?.getD 0 else 2 ^ 53

/-- Options as they are given: nothing checks or merges them while the queue is disabled. -/
def givenTasksQueueOptions : TasksQueueOptionsArgument → Option TasksQueueOptions
  | .object o =>
    some
      { size := o.size.value?.map (·.givenSize)
        concurrency := o.concurrency.value?.bind (·.toNat?)
        taskStealing := o.taskStealing.value?.getD false
        tasksStealingOnBackPressure := o.tasksStealingOnBackPressure.value?.getD false }
  | _ => none

section Model
variable {Data Response : Type}

/-- A check of arguments; it throws or does nothing. -/
def liftCheck : Except JsError Unit → PoolM Data Response Unit
  | .ok () => pure ()
  | .error e => Eff.throw e

def mapNodes (f : WorkerNode Data → WorkerNode Data) : PoolM Data Response Unit :=
  Eff.modify fun p => { p with workerNodes := p.workerNodes.map f }

def setTasksQueueSize (size : Option Nat) : PoolM Data Response Unit :=
  mapNodes fun n => { n with tasksQueueBackPressureSize := size }

/-- `setTaskStealing` and `unsetTaskStealing`. -/
def setTaskStealing (b : Bool) : PoolM Data Response Unit := mapNodes fun n => { n with onEmptyQueue := b }

/-- `setTasksStealingOnBackPressure` and `unsetTasksStealingOnBackPressure`. -/
def setTasksStealingOnBackPressure (b : Bool) : PoolM Data Response Unit :=
  mapNodes fun n => { n with onBackPressure := b }

def setTasksQueueOptions (tasksQueueOptions : TasksQueueOptionsArgument) : PoolM Data Response Unit := do
  let p ← Eff.get
  if p.opts.enableTasksQueue then
    liftCheck (checkValidTasksQueueOptions tasksQueueOptions)
    let o := buildTasksQueueOptions p.maxSize tasksQueueOptions
    Eff.modify fun p => { p with opts.tasksQueueOptions := some o }
    setTasksQueueSize o.size
    setTaskStealing o.taskStealing
    setTasksStealingOnBackPressure o.tasksStealingOnBackPressure
  else
    Eff.modify fun p => { p with opts.tasksQueueOptions := none }

/-- What `enableTasksQueue(false)` does while the queue is enabled. -/
def disableTasksQueue (cb : Callbacks Data Response) (fuel : Nat) : PoolM Data Response Unit := do
  setTaskStealing false
  setTasksStealingOnBackPressure false
  flushTasksQueues cb fuel

def enableTasksQueue (cb : Callbacks Data Response) (fuel : Nat) (enable : Bool)
    (tasksQueueOptions : TasksQueueOptionsArgument) : PoolM Data Response Unit := do
  let p ← Eff.get
  if p.opts.enableTasksQueue && !enable then disableTasksQueue cb fuel else pure ()
  Eff.modify fun p => { p with opts.enableTasksQueue := enable }
  setTasksQueueOptions tasksQueueOptions

/-! ## Worker nodes come and go -/

/-- The check the `WorkerNode` constructor makes of its back pressure size. -/
def checkWorkerNodeArguments (tasksQueueBackPressureSize : Nat) : Except JsError Unit :=
  if 2 ^ 53 ≤ tasksQueueBackPressureSize then
    .error (.typeError
      "Cannot construct a worker node with a tasks queue back pressure size that is not an integer")
  else if tasksQueueBackPressureSize = 0 then
    .error (.rangeError
      "Cannot construct a worker node with a tasks queue back pressure size that is not a positive integer")
  else .ok ()

/-- The back pressure size of a new node. -/
def Pool.newNodeSize (p : Pool Data Response) : Nat := p.queueSize.getD (p.maxSize ^ 2)

/-- `addWorkerNode`: the new node is the last one. -/
def addWorkerNode : PoolM Data Response Nat := do
  let p ← Eff.get
  liftCheck (checkWorkerNodeArguments p.newNodeSize)
  let n := WorkerNode.new p.nextWorkerId p.worker p.newNodeSize
  let n := { n with info.ready := p.starting }
  Eff.modify fun p => { p with workerNodes := p.workerNodes ++ [n], nextWorkerId := p.nextWorkerId + 1 }
  pure p.workerNodes.length

/-- `afterWorkerNodeSetup` installs the callbacks; its messages to a new worker succeed. -/
def afterWorkerNodeSetup (workerNodeKey : Nat) : PoolM Data Response Unit := do
  let p ← Eff.get
  if p.opts.enableTasksQueue then
    modifyNode workerNodeKey fun n =>
      { n with
        onEmptyQueue := p.opts.tasksQueueOptions.any (·.taskStealing)
        onBackPressure := p.opts.tasksQueueOptions.any (·.tasksStealingOnBackPressure) }
  else
    pure ()

def createAndSetupWorkerNode : PoolM Data Response Nat := do
  let workerNodeKey ← addWorkerNode
  afterWorkerNodeSetup workerNodeKey
  pure workerNodeKey

def createAndSetupDynamicWorkerNode : PoolM Data Response Nat := do
  let workerNodeKey ← createAndSetupWorkerNode
  let policy := (← Eff.get).strategyPolicy
  modifyNode workerNodeKey fun n =>
    { n with
      info.dynamic := true
      info.ready := n.info.ready || policy.dynamicWorkerReady || policy.dynamicWorkerUsage }
  pure workerNodeKey

def Pool.full (p : Pool Data Response) : Bool := p.maxSize ≤ p.workerNodes.length

/-- Whether every ready node executes its quota. -/
def Pool.internalBusy (p : Pool Data Response) : Bool :=
  if p.opts.enableTasksQueue then
    p.workerNodes.all fun n => !(n.info.ready && p.belowConcurrency n)
  else
    p.workerNodes.all fun n => !(n.info.ready && n.usage.tasks.executing = 0)

def Pool.shallCreateDynamicWorker (p : Pool Data Response) : Bool :=
  p.type = .dynamic && !p.full && p.internalBusy

/-- What `WorkerChoiceStrategyContext.execute` comes to: a key, or no key after its retries. -/
inductive Choice
  | key (workerNodeKey : Nat)
  | none (retriesCount : Nat)

def chooseWorkerNode (choice : Choice) : PoolM Data Response Nat := do
  let p ← Eff.get
  if p.shallCreateDynamicWorker then
    let workerNodeKey ← createAndSetupDynamicWorkerNode
    if p.strategyPolicy.dynamicWorkerUsage then pure workerNodeKey else choose choice
  else
    choose choice
where
  choose : Choice → PoolM Data Response Nat
    | .key workerNodeKey => pure workerNodeKey
    | .none retriesCount =>
      Eff.throw (.error s!"Worker node key chosen is null or undefined after {retriesCount} retries")

/-- The number of nodes that are not dynamic, which `start` brings up to `numberOfWorkers`. -/
def Pool.staticWorkerNodes (p : Pool Data Response) : Nat := p.workerNodes.countP fun n => !n.info.dynamic

def start (fuel : Nat) : PoolM Data Response Unit := do
  Eff.modify fun p => { p with starting := true }
  Eff.whileDo ((fun p => decide (p.staticWorkerNodes < p.numberOfWorkers)) <$> Eff.get)
    (do let _ ← createAndSetupWorkerNode; pure ()) fuel
  Eff.modify fun p => { p with starting := false, started := true }

/-- `removeWorkerNode`. -/
def removeWorkerNode (workerId : Nat) : PoolM Data Response Unit :=
  Eff.modify fun p =>
    match p.workerNodes[p.getWorkerNodeKeyByWorkerId workerId]? with
    | none => p
    | some n =>
      { p with
        workerNodes := p.workerNodes.eraseIdx (p.getWorkerNodeKeyByWorkerId workerId)
        removedNodes := p.removedNodes ++ [n] }

/-- `destroyWorkerNode`, up to the wait for the answer to its kill message. -/
def destroyWorkerNode (cb : Callbacks Data Response) (fuel workerNodeKey : Nat) (reason : DestroyReason) :
    PoolM Data Response Unit := do
  flushTasksQueue cb fuel workerNodeKey
  let n ← nodeAt workerNodeKey
  if n.channelOpen then
    modifyNode workerNodeKey fun n => { n with destroying := n.destroying <|> some reason }
  else
    Eff.throw .undefinedAccess

/-! ## Calls and listeners -/

/-- The code points `trim` removes. -/
def isWhiteSpace (c : Char) : Bool :=
  (9 ≤ c.toNat && c.toNat ≤ 13) || (0x2000 ≤ c.toNat && c.toNat ≤ 0x200a) ||
    c.toNat ∈ [32, 160, 0x1680, 0x2028, 0x2029, 0x202f, 0x205f, 0x3000, 0xfeff]

/-- Whether nothing is left of a name after `trim`. -/
def isBlank (name : String) : Bool := name.toList.all isWhiteSpace

/-- Ends a promise; one that has ended stays as it is. -/
def Pool.settle (taskId : Nat) (r : Settlement Response) (p : Pool Data Response) : Pool Data Response :=
  if p.settled.any (·.1 = taskId) then p else { p with settled := p.settled ++ [(taskId, r)] }

/-- The conditional at the end of the executor of `execute`. -/
def dispatchTask (cb : Callbacks Data Response) (workerNodeKey : Nat) (task : Task Data) :
    PoolM Data Response Unit := do
  let p ← Eff.get
  if p.opts.enableTasksQueue then
    executeOrEnqueueTask cb workerNodeKey task
  else
    executeTask workerNodeKey task

/-- The executor of the promise that `execute` returns. -/
def executeExecutor (cb : Callbacks Data Response) (taskId : Nat) (name : Option String) (data : Data)
    (choice : Choice) : PoolM Data Response Unit := do
  let p ← Eff.get
  if !p.started then
    Eff.throw (.error "Cannot execute a task on not started pool")
  else if name.any isBlank then
    Eff.throw (.typeError "name argument must not be an empty string")
  else
    let workerNodeKey ← chooseWorkerNode choice
    let task : Task Data := ⟨name.getD defaultTaskName, data, p.now, taskId⟩
    Eff.modify fun p =>
      { p with promiseResponseMap := p.promiseResponseMap.insert taskId workerNodeKey }
    dispatchTask cb workerNodeKey task

/-- Rejects the promise with the exception of a call, and reports that exception. -/
def rejectOnThrow (taskId : Nat) (m : PoolM Data Response Unit) : PoolM Data Response Unit := fun p =>
  match m p with
  | some (.error e, p') => some (.error e, p'.settle taskId (.thrown e))
  | r => r

/-- `execute`. Its outcome is that of the call; the promise may end later. -/
def execute (cb : Callbacks Data Response) (taskId : Nat) (name : Option String) (data : Data)
    (choice : Choice) : PoolM Data Response Unit := do
  Eff.modify fun p => { p with uuids := taskId :: p.uuids }
  rejectOnThrow taskId (executeExecutor cb taskId name data choice)

/-- How a response ends the promise of its task. -/
def TaskResponse.settlement (message : TaskResponse Response) : Settlement Response :=
  match message.workerError with
  | some workerError => .rejected workerError.message
  | none => .resolved message.data

/-- The last conditional of `handleTaskExecutionResponse`. -/
def executeNextTask (cb : Callbacks Data Response) (workerNodeKey : Nat) : PoolM Data Response Unit := do
  let p ← Eff.get
  if p.opts.enableTasksQueue then
    let n ← nodeAt workerNodeKey
    if n.tasksQueue.length > 0 && p.belowConcurrency n then
      dequeueThen cb workerNodeKey (executeTask workerNodeKey)
    else
      pure ()
  else
    pure ()

def handleTaskExecutionResponse (cb : Callbacks Data Response) (message : TaskResponse Response) :
    PoolM Data Response Unit := do
  match (← Eff.get).promiseResponseMap.lookup message.taskId with
  | none => pure ()
  | some workerNodeKey =>
    Eff.modify (Pool.settle message.taskId message.settlement)
    afterTaskExecutionHook workerNodeKey message
    Eff.modify fun p => { p with promiseResponseMap := p.promiseResponseMap.erase message.taskId }
    executeNextTask cb workerNodeKey

inductive KillBehavior
  | soft
  | hard
deriving DecidableEq

/-- The messages of a worker that the modelled listeners read. -/
inductive WorkerMessage (Response : Type)
  | ready (ready : Bool) (taskFunctionNames : List String)
  | taskFunctionNames (names : List String)
  | taskResponse (message : TaskResponse Response)
  | killRequest (behavior : KillBehavior)
  | killAnswer (success : Bool)

/-- A destruction whose exception ends nothing but itself. -/
def destroyWorkerNodeCaught (cb : Callbacks Data Response) (fuel workerNodeKey : Nat) (reason : DestroyReason) :
    PoolM Data Response Unit :=
  (destroyWorkerNode cb fuel workerNodeKey reason).swallow fun p => { p with errorsCaught := p.errorsCaught + 1 }

/-- The kill listener of a dynamic worker node. -/
def handleKillRequest (cb : Callbacks Data Response) (fuel workerNodeKey : Nat) (behavior : KillBehavior) :
    PoolM Data Response Unit := do
  let n ← nodeAt workerNodeKey
  let p ← Eff.get
  match behavior with
  | .hard => destroyWorkerNodeCaught cb fuel workerNodeKey .hardKill
  | .soft =>
    if n.usage.tasks.executing = 0 && (!p.opts.enableTasksQueue || n.tasksQueue.length = 0) then
      destroyWorkerNodeCaught cb fuel workerNodeKey .softKill
    else
      pure ()

/-- The listeners of worker messages. -/
def handleMessage (cb : Callbacks Data Response) (fuel workerId : Nat) (message : WorkerMessage Response) :
    PoolM Data Response Unit := do
  let workerNodeKey := (← Eff.get).getWorkerNodeKeyByWorkerId workerId
  match (← Eff.get).workerNodes[workerNodeKey]? with
  | none => Eff.throw (.error s!"Worker message received from unknown worker '{workerId}'")
  | some n =>
    match message with
    | .ready false _ => Eff.throw (.error s!"Worker {workerId} failed to initialize")
    | .ready true names =>
      modifyNode workerNodeKey fun n => { n with info.ready := true, info.taskFunctionNames := some names }
    | .taskFunctionNames names => modifyNode workerNodeKey fun n => { n with info.taskFunctionNames := some names }
    | .taskResponse message =>
      modifyNode workerNodeKey (·.answer message.taskId)
      handleTaskExecutionResponse cb message
    | .killRequest behavior =>
      -- the request of a worker that is not dynamic has no listener
      if n.info.dynamic then handleKillRequest cb fuel workerNodeKey behavior else pure ()
    | .killAnswer true => modifyNode workerNodeKey fun n => { n.closeChannel with terminated := true }
    | .killAnswer false => pure ()

/-- The `error` listener of a worker, for a pool that emits no events (`enableEvents` is false) or whose emitter
has a listener for them. Where `enableEvents` is true and nothing listens, `emit(PoolEvents.error)` throws the
error itself, and no worker is created and no queue redistributed. -/
def handleError (cb : Callbacks Data Response) (fuel workerId : Nat) : PoolM Data Response Unit := do
  let p ← Eff.get
  let workerNodeKey := p.getWorkerNodeKeyByWorkerId workerId
  let n ← nodeAt workerNodeKey
  modifyNode workerNodeKey fun n => { n.closeChannel with info.ready := false }
  if p.started && !p.starting && p.opts.restartWorkerOnError then
    if n.info.dynamic then
      let _ ← createAndSetupDynamicWorkerNode
    else
      let _ ← createAndSetupWorkerNode
  else
    pure ()
  if p.started && p.opts.enableTasksQueue then redistributeQueuedTasks cb fuel workerNodeKey else pure ()

/-- A timer of a polling loop fires: on a node of the pool, or on one that has left it. -/
def pollingTick (cb : Callbacks Data Response) (workerId : Nat) : PoolM Data Response Unit := do
  let p ← Eff.get
  let workerNodeKey := p.getWorkerNodeKeyByWorkerId workerId
  if workerNodeKey < p.workerNodes.length then
    startOnEmptyQueueCaught cb workerNodeKey
  else
    match p.removedNodes.findIdx? (·.info.id = workerId) with
    | none => pure ()
    | some i => removedNodeTick i workerId
where
  /-- A round of a loop whose node is no longer in `workerNodes`. -/
  removedNodeTick (i workerId : Nat) : PoolM Data Response Unit := do
    match (← Eff.get).removedNodes[i]? with
    | none => pure ()
    | some n =>
      if n.onEmptyQueueCount > 0 && (n.usage.tasks.executing > 0 || n.tasksQueue.length > 0) then
        modifyRemoved i fun n => { n with onEmptyQueueCount := 0, polling := false }
      else
        modifyRemoved i fun n => { n with onEmptyQueueCount := n.onEmptyQueueCount + 1, polling := true }
        if n.onEmptyQueue then
          (cb.onEmptyQueue workerId).swallow fun p =>
            { p with
              removedNodes := p.removedNodes.modify i fun n => { n with polling := false }
              errorsCaught := p.errorsCaught + 1 }
        else
          pure ()
  modifyRemoved (i : Nat) (f : WorkerNode Data → WorkerNode Data) : PoolM Data Response Unit :=
    Eff.modify fun p => { p with removedNodes := p.removedNodes.modify i f }

/-- `destroy`, up to its first wait: a node whose destruction throws does not stop the others. -/
def destroy (cb : Callbacks Data Response) (fuel : Nat) : PoolM Data Response Unit := do
  Eff.modify fun p => { p with destroying := true }
  let p ← Eff.get
  Eff.forEach (fun workerNodeKey => destroyWorkerNodeCaught cb fuel workerNodeKey .poolDestroyed)
    (List.range p.workerNodes.length)

/-! ## Events -/

inductive Event (Data Response : Type)
  | execute (taskId : Nat) (name : Option String) (data : Data) (choice : Choice)
  | message (workerId : Nat) (message : WorkerMessage Response)
  | poll (workerId : Nat)
  | error (workerId : Nat)
  | exit (workerId : Nat)
  | start
  | enableTasksQueue (enable : Bool) (tasksQueueOptions : TasksQueueOptionsArgument)
  | setTasksQueueOptions (tasksQueueOptions : TasksQueueOptionsArgument)
  | destroy
  /-- The last destroyed worker has exited. -/
  | destroyed

def handle (fuel : Nat) : Event Data Response → PoolM Data Response Unit
  | .execute taskId name data choice => execute (callbacks fuel) taskId name data choice
  | .message workerId message => handleMessage (callbacks fuel) fuel workerId message
  | .poll workerId => pollingTick (callbacks fuel) workerId
  | .error workerId => handleError (callbacks fuel) fuel workerId
  | .exit workerId => removeWorkerNode workerId
  | .start => start fuel
  | .enableTasksQueue enable o => enableTasksQueue (callbacks fuel) fuel enable o
  | .setTasksQueueOptions o => setTasksQueueOptions o
  | .destroy => destroy (callbacks fuel) fuel
  | .destroyed => Eff.modify fun p => { p with started := false }

/-- The node of a worker, in the pool or removed from it, is one `P` holds of. -/
def NodeOf (p : Pool Data Response) (workerId : Nat) (P : WorkerNode Data → Prop) : Prop :=
  (∃ n ∈ p.workerNodes, n.info.id = workerId ∧ P n) ∨
    (∀ n ∈ p.workerNodes, n.info.id ≠ workerId) ∧ ∃ n ∈ p.removedNodes, n.info.id = workerId ∧ P n

instance (p : Pool Data Response) (workerId : Nat) (P : WorkerNode Data → Prop) [DecidablePred P] :
    Decidable (NodeOf p workerId P) :=
  inferInstanceAs (Decidable (_ ∨ _))

/-- What the environment can cause in a state. -/
def Enabled (p : Pool Data Response) : Event Data Response → Prop
  | .execute taskId _ _ _ => taskId ∉ p.uuids
  | .message workerId (.taskResponse m) => NodeOf p workerId fun n => m.taskId ∈ n.worker.unanswered.map (·.taskId)
  | .message workerId (.killAnswer _) => NodeOf p workerId fun n => n.destroying.isSome = true
  | .poll workerId => NodeOf p workerId fun n => n.polling = true
  | .destroyed => p.destroying = true
  | _ => True

instance (p : Pool Data Response) : DecidablePred (Enabled p)
  | .execute taskId _ _ _ => inferInstanceAs (Decidable (taskId ∉ p.uuids))
  | .message _ (.taskResponse _) | .message _ (.killAnswer _) | .poll _ =>
    inferInstanceAs (Decidable (NodeOf p _ _))
  | .destroyed => inferInstanceAs (Decidable (p.destroying = true))
  | .message _ (.ready ..) | .message _ (.taskFunctionNames _) | .message _ (.killRequest _) | .error _ | .exit _
  | .start | .enableTasksQueue .. | .setTasksQueueOptions _ | .destroy => inferInstanceAs (Decidable True)

/-- The pool handles an event that can happen, at some time, and the code it runs ends. -/
def Step (s : Pool Data Response) (e : Event Data Response) (s' : Pool Data Response) : Prop :=
  Enabled s e ∧ ∃ fuel now r, handle fuel e { s with now } = some (r, s')

/-! ## Construction -/

/-- The arguments of a pool's constructor. -/
structure PoolConfig (Data : Type) where
  type : PoolType
  worker : WorkerType
  numberOfWorkers : Nat
  max : Option Nat
  restartWorkerOnError : Bool
  enableTasksQueue : Bool
  tasksQueueOptions : TasksQueueOptionsArgument
  strategyPolicy : StrategyPolicy
  taskStatisticsRequirements : TaskStatisticsRequirements
  postable : Task Data → Bool

def checkNumberOfWorkers (type : PoolType) (numberOfWorkers : Nat) : Except JsError Unit :=
  if 2 ^ 53 ≤ numberOfWorkers then
    .error (.typeError "Cannot instantiate a pool with a non safe integer number of workers")
  else if type = .fixed ∧ numberOfWorkers = 0 then
    .error (.rangeError "Cannot instantiate a fixed pool with zero worker")
  else .ok ()

/-- A pool without workers. A dynamic pool sets `max` only after the constructor of `AbstractPool`, so the
maximum size is the number of workers here. -/
def initialPool (c : PoolConfig Data) : Pool Data Response where
  type := c.type
  worker := c.worker
  numberOfWorkers := c.numberOfWorkers
  max := none
  opts :=
    { restartWorkerOnError := c.restartWorkerOnError
      enableTasksQueue := c.enableTasksQueue
      tasksQueueOptions :=
        if c.enableTasksQueue then some (buildTasksQueueOptions c.numberOfWorkers c.tasksQueueOptions)
        else givenTasksQueueOptions c.tasksQueueOptions }
  strategyPolicy := c.strategyPolicy
  taskStatisticsRequirements := c.taskStatisticsRequirements
  workerNodes := []
  promiseResponseMap := ∅
  started := false
  starting := false
  settled := []
  uuids := []
  nextWorkerId := 0
  removedNodes := []
  postable := c.postable
  now := 0
  errorsCaught := 0
  destroying := false

/-- The constructor of `AbstractPool`, up to its call of `start`. -/
def construct (c : PoolConfig Data) : Except JsError (Pool Data Response) := do
  checkNumberOfWorkers c.type c.numberOfWorkers
  if c.enableTasksQueue then
    checkValidTasksQueueOptions c.tasksQueueOptions
  pure (initialPool c)

/-- The check of the sizes of a dynamic pool; `none` is a maximum size that is missing. -/
def checkDynamicPoolSize (min : Nat) : Option Nat → Except JsError Unit
  | none =>
    .error (.typeError "Cannot instantiate a dynamic pool without specifying the maximum pool size")
  | some max =>
    if 2 ^ 53 ≤ max then
      .error (.typeError "Cannot instantiate a dynamic pool with a non safe integer maximum pool size")
    else if min > max then
      .error (.rangeError
        "Cannot instantiate a dynamic pool with a maximum pool size inferior to the minimum pool size")
    else if max = 0 then
      .error (.rangeError "Cannot instantiate a dynamic pool with a maximum pool size equal to zero")
    else if min = max then
      .error (.rangeError
        "Cannot instantiate a dynamic pool with a minimum pool size equal to the maximum pool size. Use a fixed pool instead")
    else .ok ()

/-- What the constructor of a dynamic pool does after that of `AbstractPool`. A fixed pool has no `max`. -/
def setMaxSize (c : PoolConfig Data) (s : Pool Data Response) : Except JsError (Pool Data Response) :=
  match c.type with
  | .fixed => .ok s
  | .dynamic => (checkDynamicPoolSize c.numberOfWorkers c.max).map fun _ => { s with max := c.max }

/-- The pools a constructor returns, when it starts the workers and when it does not. -/
def Created (c : PoolConfig Data) (startWorkers : Bool) (s : Pool Data Response) : Prop :=
  ∃ s₀ s₁ : Pool Data Response, construct c = .ok s₀ ∧
    (if startWorkers then ∃ fuel, start fuel s₀ = some (.ok (), s₁) else s₁ = s₀) ∧ setMaxSize c s₁ = .ok s

end Model

end Poolifier
