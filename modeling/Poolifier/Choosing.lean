import Poolifier.Cursors
import Poolifier.FairShareRuns
import Poolifier.Outline
import Poolifier.Refusals
import Poolifier.StrategyData
/-!
# A pool that chooses by its strategies

`Events.lean` leaves open which node a call of `execute` gets. Here the context
chooses it: the active strategy reads the nodes as they are then, a response
updates it, a node that leaves is removed from it, and calls may make another
strategy active. That apart the code is the same, so that a run of this pool is
one of the other, with the choices its strategies have made.
-/

namespace Poolifier

open EffLib RunLib StrategyPool

variable {Data Response : Type}

/-! ## Strategies -/

/-- `remove`; a strategy without a cursor does nothing. -/
def Strategy.remove (p : Pool Data Response) (workerNodeKey : Nat) : Strategy → Strategy
  | .cyclic s => .cyclic (s.remove p workerNodeKey)
  | s => s

/-- `update`; only the fair share strategy does something. -/
def Strategy.update (now : ℚ) (workerNodeKey : Nat) (p : Pool Data Response) : Strategy → Except JsError (Pool Data Response)
  | .fairShare s => FairShare.update now workerNodeKey s p
  | _ => .ok p

namespace StrategyContext

/-- The active strategy, with its state. -/
def active (c : StrategyContext) : Option Strategy :=
  c.workerChoiceStrategy.map fun
    | .roundRobin => .cyclic (.roundRobin c.workerChoiceStrategies.roundRobin)
    | .leastUsed => .leastUsed c.workerChoiceStrategies.leastUsed
    | .leastBusy => .leastBusy c.workerChoiceStrategies.leastBusy
    | .leastElu => .leastElu c.workerChoiceStrategies.leastElu
    | .fairShare => .fairShare c.workerChoiceStrategies.fairShare
    | .weightedRoundRobin => .cyclic (.weightedRoundRobin c.workerChoiceStrategies.weightedRoundRobin)
    | .interleavedWeightedRoundRobin =>
      .cyclic (.interleavedWeightedRoundRobin c.workerChoiceStrategies.interleavedWeightedRoundRobin)

/-- The context after a strategy has changed its state. -/
def put (c : StrategyContext) : Strategy → StrategyContext
  | .cyclic (.roundRobin s) => { c with workerChoiceStrategies.roundRobin := s }
  | .cyclic (.weightedRoundRobin s) => { c with workerChoiceStrategies.weightedRoundRobin := s }
  | .cyclic (.interleavedWeightedRoundRobin s) => { c with workerChoiceStrategies.interleavedWeightedRoundRobin := s }
  | .leastUsed s => { c with workerChoiceStrategies.leastUsed := s }
  | .leastBusy s => { c with workerChoiceStrategies.leastBusy := s }
  | .leastElu s => { c with workerChoiceStrategies.leastElu := s }
  | .fairShare s => { c with workerChoiceStrategies.fairShare := s }

end StrategyContext

namespace Choosing

/-! ## The context of a pool -/

section Code

/-- Code that only works on the pool. -/
def onPool {α : Type} (m : PoolM Data Response α) : StrategyM Data Response α := m.zoom (·.pool) fun x pool => { x with pool }

/-- `execute` of the context; `clock` is what `performance.now()` returns to the strategy. No strategy is a property
read of `undefined`. -/
def executeContext (clock : Nat → ℚ) : StrategyM Data Response Int := fun x =>
  match x.context.active with
  | none => some (.error .undefinedAccess, x)
  | some s =>
    let (r, c) := WorkerChoiceStrategyContext.execute (fun s => s.1.choose clock s.2)
      ⟨(s, x.pool), x.context.opts.retries, x.context.retriesCount⟩
    some (r,
      { x with
        pool := c.strategy.2
        context := { x.context.put c.strategy.1 with retriesCount := c.retriesCount } })

/-- `update` of the context. -/
def updateContext (clock : Nat → ℚ) (workerNodeKey : Nat) : StrategyM Data Response Unit := do
  let x ← Eff.get
  match x.context.active.map (·.update (clock 0) workerNodeKey x.pool) with
  | none => Eff.throw .undefinedAccess
  | some (Except.error e) => Eff.throw e
  | some (Except.ok pool) => Eff.modify fun x => { x with pool }

/-- `remove` of the context. -/
def removeFromContext (workerNodeKey : Nat) : StrategyM Data Response Unit := do
  let x ← Eff.get
  match x.context.active with
  | none => Eff.throw .undefinedAccess
  | some s => Eff.modify fun x => { x with context := x.context.put (s.remove x.pool workerNodeKey) }

/-! ## Calls and listeners -/

/-- A key of the source; one that is negative is out of range. -/
def keyOf (p : Pool Data Response) : Int → Nat
  | .ofNat k => k
  | .negSucc _ => p.workerNodes.length

/-- The key that the context returns. -/
def chooseKey (clock : Nat → ℚ) : StrategyM Data Response Nat := do
  let workerNodeKey ← executeContext clock
  let x ← Eff.get
  pure (keyOf x.pool workerNodeKey)

def chooseWorkerNode (clock : Nat → ℚ) : StrategyM Data Response Nat := do
  let x ← Eff.get
  if x.pool.shallCreateDynamicWorker then
    let workerNodeKey ← onPool createAndSetupDynamicWorkerNode
    if x.pool.strategyPolicy.dynamicWorkerUsage then pure workerNodeKey else chooseKey clock
  else
    chooseKey clock

/-- The executor of the promise that `execute` returns. -/
def executeExecutor (cb : Callbacks Data Response) (taskId : Nat) (name : Option String) (data : Data) (clock : Nat → ℚ) :
    StrategyM Data Response Unit := do
  let x ← Eff.get
  if !x.pool.started then
    Eff.throw (.error "Cannot execute a task on not started pool")
  else if name.any isBlank then
    Eff.throw (.typeError "name argument must not be an empty string")
  else
    let workerNodeKey ← chooseWorkerNode clock
    let task : Task Data := ⟨name.getD defaultTaskName, data, x.pool.now, taskId⟩
    onPool do
      Eff.modify fun p => { p with promiseResponseMap := p.promiseResponseMap.insert taskId workerNodeKey }
      dispatchTask cb workerNodeKey task

def rejectOnThrow (taskId : Nat) (m : StrategyM Data Response Unit) : StrategyM Data Response Unit := fun x =>
  match m x with
  | some (.error e, x') => some (.error e, { x' with pool := x'.pool.settle taskId (.thrown e) })
  | r => r

def execute (cb : Callbacks Data Response) (taskId : Nat) (name : Option String) (data : Data) (clock : Nat → ℚ) :
    StrategyM Data Response Unit := do
  onPool (Eff.modify fun p => { p with uuids := taskId :: p.uuids })
  rejectOnThrow taskId (executeExecutor cb taskId name data clock)

def handleTaskExecutionResponse (cb : Callbacks Data Response) (clock : Nat → ℚ) (message : TaskResponse Response) :
    StrategyM Data Response Unit := do
  let x ← Eff.get
  match x.pool.promiseResponseMap.lookup message.taskId with
  | none => pure ()
  | some workerNodeKey =>
    onPool (Eff.modify (Pool.settle message.taskId message.settlement))
    onPool (afterTaskExecutionHook workerNodeKey message)
    updateContext clock workerNodeKey
    onPool do
      Eff.modify fun p => { p with promiseResponseMap := p.promiseResponseMap.erase message.taskId }
      executeNextTask cb workerNodeKey

/-- The listener of a task response. -/
def handleResponse (cb : Callbacks Data Response) (clock : Nat → ℚ) (workerId : Nat) (message : TaskResponse Response) :
    StrategyM Data Response Unit := do
  let x ← Eff.get
  let workerNodeKey := x.pool.getWorkerNodeKeyByWorkerId workerId
  match x.pool.workerNodes[workerNodeKey]? with
  | none => Eff.throw (.error s!"Worker message received from unknown worker '{workerId}'")
  | some _ =>
    onPool (modifyNode workerNodeKey (·.answer message.taskId))
    handleTaskExecutionResponse cb clock message

def removeWorkerNode (workerId : Nat) : StrategyM Data Response Unit := do
  let x ← Eff.get
  let workerNodeKey := x.pool.getWorkerNodeKeyByWorkerId workerId
  onPool (Poolifier.removeWorkerNode workerId)
  if workerNodeKey < x.pool.workerNodes.length then removeFromContext workerNodeKey else pure ()

/-! ## Events -/

/-- The events of a pool; a call of `execute` leaves the choice to the strategies. -/
inductive Event (Data Response : Type)
  | execute (taskId : Nat) (name : Option String) (data : Data)
  | pool (e : Poolifier.Event Data Response)
  | call (c : StrategyCall)

def handle (fuel : Nat) (clock : Nat → ℚ) : Event Data Response → StrategyM Data Response Unit
  | .execute taskId name data => execute (callbacks fuel) taskId name data clock
  | .pool (.message workerId (.taskResponse message)) => handleResponse (callbacks fuel) clock workerId message
  | .pool (.exit workerId) => removeWorkerNode workerId
  | .pool e => onPool (Poolifier.handle fuel e)
  | .call c => c.run

/-- What the environment can cause; `none` is no strategy that the type of a call allows. -/
def Enabled (x : StrategyPool Data Response) : Event Data Response → Prop
  | .execute taskId _ _ => taskId ∉ x.pool.uuids
  | .pool (.execute ..) => False
  | .pool e => Poolifier.Enabled x.pool e
  | .call (.setWorkerChoiceStrategy none _) => False
  | .call _ => True

/-- The pool handles an event that can happen, at some time, and the code it runs ends. -/
def Step (x : StrategyPool Data Response) (e : Event Data Response) (x' : StrategyPool Data Response) : Prop :=
  Enabled x e ∧ ∃ fuel now clock r, handle fuel clock e { x with pool.now := now } = some (r, x')

end Code

end Choosing

end Poolifier
