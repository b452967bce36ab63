import Poolifier.Interleaved
import Poolifier.SuppliedOptions
/-!
# Changing the worker choice strategy

The options of a pool name a strategy, the context keeps the state of all seven
and which of them is active, and each worker is told what to measure for it. A
change of the strategy or of its options goes through all three. It resets the
usage of every node, and it checks the options only after the strategy has been
switched.
-/

namespace Poolifier

open EffLib RunLib

variable {Data Response : Type}

/-! ## Strategies and options -/

inductive WorkerChoiceStrategy
  | roundRobin
  | leastUsed
  | leastBusy
  | leastElu
  | fairShare
  | weightedRoundRobin
  | interleavedWeightedRoundRobin
deriving DecidableEq

/-- The values of `WorkerChoiceStrategies`. -/
def WorkerChoiceStrategy.ofString? : String → Option WorkerChoiceStrategy
  | "ROUND_ROBIN" => some .roundRobin
  | "LEAST_USED" => some .leastUsed
  | "LEAST_BUSY" => some .leastBusy
  | "LEAST_ELU" => some .leastElu
  | "FAIR_SHARE" => some .fairShare
  | "WEIGHTED_ROUND_ROBIN" => some .weightedRoundRobin
  | "INTERLEAVED_WEIGHTED_ROUND_ROBIN" => some .interleavedWeightedRoundRobin
  | _ => none

/-- `none` is a strategy that is `undefined` or `null`, which passes. -/
def checkValidWorkerChoiceStrategy : Option String → Except JsError Unit
  | none => .ok ()
  | some workerChoiceStrategy =>
    if (WorkerChoiceStrategy.ofString? workerChoiceStrategy).isNone then
      .error (.error s!"Invalid worker choice strategy '{workerChoiceStrategy}'")
    else .ok ()

/-- Strategy options with the fields that no check reads; `runTime`, `waitTime` and `elu` stand for
whether their medians are truthy. -/
structure StrategyOptionsObject extends WorkerChoiceStrategyOptionsObject where
  runTime : OptionField Bool
  waitTime : OptionField Bool
  elu : OptionField Bool

/-- A worker choice strategy options argument; `undefined` may be `null`. -/
inductive StrategyOptionsArgument
  | undefined
  | notPlainObject
  | object (o : StrategyOptionsObject)

namespace StrategyOptionsArgument

/-- The fields that the check reads. -/
def checked : StrategyOptionsArgument → WorkerChoiceStrategyOptionsArgument
  | .undefined => .undefined
  | .notPlainObject => .notPlainObject
  | .object o => .object o.toWorkerChoiceStrategyOptionsObject

/-- `DEFAULT_WORKER_CHOICE_STRATEGY_OPTIONS`. -/
def defaults : WorkerChoiceStrategyOptions where
  retries := some 6
  measurement := none
  runTime := false
  waitTime := false
  elu := false
  weights := none

/-- Options that have passed the check, spread over the defaults. Spreading them once more changes nothing. -/
def merged : StrategyOptionsArgument → WorkerChoiceStrategyOptions
  | .object o =>
    { retries := (o.retries.over (.int 6)).bind (·.toNat?)
      measurement := o.measurement.value?.bind Measurement.ofString?
      runTime := (o.runTime.over false).getD false
      waitTime := (o.waitTime.over false).getD false
      elu := (o.elu.over false).getD false
      weights := o.weights.value? }
  | _ => defaults

end StrategyOptionsArgument

/-! ## The context -/

def toggleMedianMeasurementStatisticsRequirements (toggleMedian : Bool) (r : MeasurementStatisticsRequirements) :
    MeasurementStatisticsRequirements :=
  let r := if r.average && toggleMedian then { r with average := false, median := toggleMedian } else r
  if r.median && !toggleMedian then { r with average := true, median := toggleMedian } else r

namespace AbstractWorkerChoiceStrategy

def setTaskStatisticsRequirements (opts : WorkerChoiceStrategyOptions) (s : AbstractWorkerChoiceStrategy) :
    AbstractWorkerChoiceStrategy :=
  { s with
    taskStatisticsRequirements :=
      { runTime := toggleMedianMeasurementStatisticsRequirements opts.runTime s.taskStatisticsRequirements.runTime
        waitTime := toggleMedianMeasurementStatisticsRequirements opts.waitTime s.taskStatisticsRequirements.waitTime
        elu := toggleMedianMeasurementStatisticsRequirements opts.elu s.taskStatisticsRequirements.elu } }

def setOptions (opts : WorkerChoiceStrategyOptions) (s : AbstractWorkerChoiceStrategy) : AbstractWorkerChoiceStrategy :=
  { s with opts }.setTaskStatisticsRequirements opts

end AbstractWorkerChoiceStrategy

/-- The strategies of a context, with their states. -/
structure WorkerChoiceStrategies where
  roundRobin : AbstractWorkerChoiceStrategy
  leastUsed : AbstractWorkerChoiceStrategy
  leastBusy : AbstractWorkerChoiceStrategy
  leastElu : AbstractWorkerChoiceStrategy
  fairShare : AbstractWorkerChoiceStrategy
  weightedRoundRobin : WeightedRoundRobin
  interleavedWeightedRoundRobin : InterleavedWeightedRoundRobin

namespace WorkerChoiceStrategies

/-- What the strategies of all kinds have. -/
def get (strategies : WorkerChoiceStrategies) : WorkerChoiceStrategy → AbstractWorkerChoiceStrategy
  | .roundRobin => strategies.roundRobin
  | .leastUsed => strategies.leastUsed
  | .leastBusy => strategies.leastBusy
  | .leastElu => strategies.leastElu
  | .fairShare => strategies.fairShare
  | .weightedRoundRobin => strategies.weightedRoundRobin.toAbstractWorkerChoiceStrategy
  | .interleavedWeightedRoundRobin => strategies.interleavedWeightedRoundRobin.toAbstractWorkerChoiceStrategy

def setOptions (opts : WorkerChoiceStrategyOptions) (strategies : WorkerChoiceStrategies) : WorkerChoiceStrategies where
  roundRobin := strategies.roundRobin.setOptions opts
  leastUsed := strategies.leastUsed.setOptions opts
  leastBusy := strategies.leastBusy.setOptions opts
  leastElu := strategies.leastElu.setOptions opts
  fairShare := strategies.fairShare.setOptions opts
  weightedRoundRobin :=
    { strategies.weightedRoundRobin with
      toAbstractWorkerChoiceStrategy :=
        strategies.weightedRoundRobin.toAbstractWorkerChoiceStrategy.setOptions opts }
  interleavedWeightedRoundRobin :=
    let s : InterleavedWeightedRoundRobin :=
      { strategies.interleavedWeightedRoundRobin with
        toAbstractWorkerChoiceStrategy :=
          strategies.interleavedWeightedRoundRobin.toAbstractWorkerChoiceStrategy.setOptions opts }
    { s with roundWeights := s.getRoundWeights }

end WorkerChoiceStrategies

/-- A strategy as its constructor makes it, from what it asks to be measured by default. -/
def AbstractWorkerChoiceStrategy.construct (requirements : TaskStatisticsRequirements) (opts : WorkerChoiceStrategyOptions) :
    AbstractWorkerChoiceStrategy :=
  AbstractWorkerChoiceStrategy.setTaskStatisticsRequirements opts
    { nextWorkerNodeKey := some 0
      previousWorkerNodeKey := 0
      taskStatisticsRequirements := requirements
      opts }

/-- The strategies that the constructor of the context makes; the default weight comes from the CPUs. -/
def WorkerChoiceStrategies.construct (opts : WorkerChoiceStrategyOptions) (defaultWorkerWeight : ℚ) :
    WorkerChoiceStrategies :=
  let unmeasured : MeasurementStatisticsRequirements := ⟨false, false, false⟩
  let aggregated : MeasurementStatisticsRequirements := ⟨true, false, false⟩
  let averaged : MeasurementStatisticsRequirements := ⟨true, true, false⟩
  let weighted := AbstractWorkerChoiceStrategy.construct ⟨averaged, unmeasured, unmeasured⟩ opts
  { roundRobin := .construct ⟨unmeasured, unmeasured, unmeasured⟩ opts
    leastUsed := .construct ⟨unmeasured, unmeasured, unmeasured⟩ opts
    leastBusy := .construct ⟨aggregated, aggregated, unmeasured⟩ opts
    leastElu := .construct ⟨unmeasured, unmeasured, aggregated⟩ opts
    fairShare := .construct ⟨averaged, unmeasured, averaged⟩ opts
    weightedRoundRobin :=
      { weighted with
        defaultWorkerWeight
        workerNodeVirtualTaskRunTime := 0 }
    interleavedWeightedRoundRobin :=
      let s : InterleavedWeightedRoundRobin :=
        { weighted with
          roundId := 0
          defaultWorkerWeight
          roundWeights := []
          workerNodeId := 0
          workerNodeVirtualTaskRunTime := 0 }
      { s with roundWeights := s.getRoundWeights } }

/-- `WorkerChoiceStrategyContext` with all its strategies; no strategy is active when the name set is `undefined`. -/
structure StrategyContext where
  workerChoiceStrategy : Option WorkerChoiceStrategy
  opts : WorkerChoiceStrategyOptions
  retriesCount : Nat
  workerChoiceStrategies : WorkerChoiceStrategies

namespace StrategyContext

def construct (workerChoiceStrategy : WorkerChoiceStrategy) (opts : WorkerChoiceStrategyOptions) (defaultWorkerWeight : ℚ) :
    StrategyContext where
  workerChoiceStrategy := some workerChoiceStrategy
  opts
  retriesCount := 0
  workerChoiceStrategies := .construct opts defaultWorkerWeight

/-- A property read of `undefined` when no strategy is active. -/
def getTaskStatisticsRequirements (c : StrategyContext) : Option TaskStatisticsRequirements :=
  c.workerChoiceStrategy.map fun s => (c.workerChoiceStrategies.get s).taskStatisticsRequirements

def setOptions (opts : WorkerChoiceStrategyOptions) (c : StrategyContext) : StrategyContext :=
  { c with opts, workerChoiceStrategies := c.workerChoiceStrategies.setOptions opts }

end StrategyContext

/-! ## The pool -/

/-- A statistics message. -/
structure Statistics where
  runTime : Bool
  elu : Bool
deriving DecidableEq

/-- A pool with the state of its worker choice strategies. -/
structure StrategyPool (Data Response : Type) where
  pool : Pool Data Response
  /-- `opts.workerChoiceStrategy`. -/
  workerChoiceStrategy : Option WorkerChoiceStrategy
  /-- `opts.workerChoiceStrategyOptions`. -/
  workerChoiceStrategyOptions : WorkerChoiceStrategyOptions
  context : StrategyContext
  /-- The last statistics message sent to each worker. -/
  statistics : Nat → Option Statistics

def WorkerNode.resetUsage (n : WorkerNode Data) : WorkerNode Data :=
  { n with usage := .init, taskFunctionsUsage := ∅ }

namespace StrategyPool

/-- The pool measures what the active strategy of the context asks for. -/
def withRequirements (x : StrategyPool Data Response) : StrategyPool Data Response :=
  { x with
    pool.taskStatisticsRequirements :=
      x.context.getTaskStatisticsRequirements.getD x.pool.taskStatisticsRequirements }

/-- A pool whose constructor has made the context; nothing has been sent to its workers. -/
def ofPool (p : Pool Data Response) (workerChoiceStrategy : WorkerChoiceStrategy) (o : StrategyOptionsArgument)
    (defaultWorkerWeight : ℚ) : StrategyPool Data Response :=
  StrategyPool.withRequirements
    { pool := p
      workerChoiceStrategy := some workerChoiceStrategy
      workerChoiceStrategyOptions := o.merged
      context := .construct workerChoiceStrategy o.merged defaultWorkerWeight
      statistics := fun _ => none }

/-- `reset` of a strategy; that of the fair share strategy is on the nodes. -/
def reset (x : StrategyPool Data Response) : Option WorkerChoiceStrategy → StrategyPool Data Response
  | some .roundRobin =>
    { x with context.workerChoiceStrategies.roundRobin := RoundRobin.reset x.context.workerChoiceStrategies.roundRobin }
  | some .fairShare => { x with pool := FairShare.reset x.pool }
  | some .weightedRoundRobin =>
    { x with
      context.workerChoiceStrategies.weightedRoundRobin := x.context.workerChoiceStrategies.weightedRoundRobin.reset }
  | some .interleavedWeightedRoundRobin =>
    { x with
      context.workerChoiceStrategies.interleavedWeightedRoundRobin :=
        x.context.workerChoiceStrategies.interleavedWeightedRoundRobin.reset }
  | some .leastUsed | some .leastBusy | some .leastElu | none => x

/-- What `setWorkerChoiceStrategy` does with a strategy that has passed the check: it sets the option, and
the context makes the strategy active and resets it. -/
def switch (workerChoiceStrategy : Option WorkerChoiceStrategy) (x : StrategyPool Data Response) :
    StrategyPool Data Response :=
  (StrategyPool.reset { x with workerChoiceStrategy, context.workerChoiceStrategy := workerChoiceStrategy }
    workerChoiceStrategy).withRequirements

/-- What `setWorkerChoiceStrategyOptions` does with options that have passed the check. -/
def configure (opts : WorkerChoiceStrategyOptions) (x : StrategyPool Data Response) : StrategyPool Data Response :=
  { x with workerChoiceStrategyOptions := opts, context := x.context.setOptions opts }.withRequirements

end StrategyPool

abbrev StrategyM (Data Response α : Type) := Eff (StrategyPool Data Response) JsError α

/-- A check of arguments; it throws or does nothing. -/
def checkArgument : Except JsError Unit → StrategyM Data Response Unit
  | .ok () => pure ()
  | .error e => Eff.throw e

/-- The message is made first, from the requirements of the active strategy. -/
def sendStatisticsMessageToWorker (workerNodeKey : Nat) : StrategyM Data Response Unit := do
  let x ← Eff.get
  match x.context.getTaskStatisticsRequirements, x.pool.workerNodes[workerNodeKey]? with
  | some r, some n =>
    if n.channelOpen then
      Eff.modify fun x =>
        { x with statistics := Function.update x.statistics n.info.id (some ⟨r.runTime.aggregate, r.elu.aggregate⟩) }
    else
      Eff.throw .undefinedAccess
  | _, _ => Eff.throw .undefinedAccess

/-- A pass of the loop of `setWorkerChoiceStrategy`. -/
def resetWorkerNode (workerNodeKey : Nat) : StrategyM Data Response Unit := do
  Eff.modify fun x => { x with pool := x.pool.modifyNode workerNodeKey (·.resetUsage) }
  sendStatisticsMessageToWorker workerNodeKey

namespace StrategyPool

def setWorkerChoiceStrategyOptions (workerChoiceStrategyOptions : StrategyOptionsArgument) : StrategyM Data Response Unit := do
  let x ← Eff.get
  checkArgument (checkValidWorkerChoiceStrategyOptions x.pool.maxSize workerChoiceStrategyOptions.checked)
  Eff.modify (configure workerChoiceStrategyOptions.merged)

def setWorkerChoiceStrategy (workerChoiceStrategy : Option String) (workerChoiceStrategyOptions : StrategyOptionsArgument) :
    StrategyM Data Response Unit := do
  checkArgument (checkValidWorkerChoiceStrategy workerChoiceStrategy)
  Eff.modify (switch (workerChoiceStrategy.bind WorkerChoiceStrategy.ofString?))
  match workerChoiceStrategyOptions with
  | .undefined => pure ()
  | o => setWorkerChoiceStrategyOptions o
  let x ← Eff.get
  Eff.forEach resetWorkerNode (List.range x.pool.workerNodes.length)

end StrategyPool

end Poolifier
