import Poolifier.Lib.Rounding
import Poolifier.Pool
/-!
# Worker choice strategies

The seven strategies that choose the worker node of a task. Each has a state of
its own and reads the worker nodes of the pool; `choose` and `update` of the
fair share strategy also write the timestamp a node keeps for it. A key is an
`Int` here: the source computes `-1` as the last key of an empty pool. The run
times that the weighted strategies add up are compared with weights, so that
rounding can show; they are added as doubles.
-/

namespace Poolifier

inductive Measurement
  | runTime
  | waitTime
  | elu
deriving DecidableEq

/-- `WorkerChoiceStrategyOptions`, merged with the defaults. `runTime`, `waitTime` and `elu`
say whether the median is measured; `none` is a field that is `undefined`. -/
structure WorkerChoiceStrategyOptions where
  retries : Option Nat
  measurement : Option Measurement
  runTime : Bool
  waitTime : Bool
  elu : Bool
  weights : Option (AList fun _ : Int => ℚ)

namespace Pool
variable {Data Response : Type}

/-- The worker node at a key, which may be negative. -/
def workerNode? (p : Pool Data Response) : Int → Option (WorkerNode Data)
  | .ofNat k => p.workerNodes[k]?
  | .negSucc _ => none

def hasWorkerNodeBackPressure (p : Pool Data Response) (n : WorkerNode Data) : Bool :=
  p.opts.enableTasksQueue && n.hasBackPressure

/-- `workerNodes.length - 1`. -/
def lastKey (p : Pool Data Response) : Int := p.workerNodes.length - 1

end Pool

/-- The state every strategy has. -/
structure AbstractWorkerChoiceStrategy where
  nextWorkerNodeKey : Option Int
  previousWorkerNodeKey : Int
  taskStatisticsRequirements : TaskStatisticsRequirements
  opts : WorkerChoiceStrategyOptions

namespace AbstractWorkerChoiceStrategy
variable {Data Response : Type}

def resetWorkerNodeKeyProperties (s : AbstractWorkerChoiceStrategy) : AbstractWorkerChoiceStrategy :=
  { s with nextWorkerNodeKey := some 0, previousWorkerNodeKey := 0 }

def setPreviousWorkerNodeKey (k : Option Int) (s : AbstractWorkerChoiceStrategy) : AbstractWorkerChoiceStrategy :=
  { s with previousWorkerNodeKey := k.getD s.previousWorkerNodeKey }

/-- `nextWorkerNodeKey ?? previousWorkerNodeKey`. -/
def currentWorkerNodeKey (s : AbstractWorkerChoiceStrategy) : Int := s.nextWorkerNodeKey.getD s.previousWorkerNodeKey

/-- The key the round robin strategies go on to. -/
def followingWorkerNodeKey (p : Pool Data Response) (s : AbstractWorkerChoiceStrategy) : Int :=
  if s.nextWorkerNodeKey = some p.lastKey then 0 else s.currentWorkerNodeKey + 1

def getWorkerNodeTaskRunTime (s : AbstractWorkerChoiceStrategy) (n : WorkerNode Data) : ℚ :=
  if s.taskStatisticsRequirements.runTime.median then n.usage.runTime.median.getD 0
  else n.usage.runTime.average.getD 0

def getWorkerNodeTaskElu (s : AbstractWorkerChoiceStrategy) (n : WorkerNode Data) : ℚ :=
  if s.taskStatisticsRequirements.elu.median then n.usage.elu.active.median.getD 0
  else n.usage.elu.active.average.getD 0

/-- The conditional on `previousWorkerNodeKey` that ends `remove` of the round robin strategies. -/
def removePrevious (p : Pool Data Response) (workerNodeKey : Int) (s : AbstractWorkerChoiceStrategy) :
    AbstractWorkerChoiceStrategy :=
  if s.previousWorkerNodeKey = workerNodeKey ∧ s.previousWorkerNodeKey > p.lastKey then
    { s with previousWorkerNodeKey := p.lastKey }
  else s

end AbstractWorkerChoiceStrategy

/-! ## Round robin -/

namespace RoundRobin
variable {Data Response : Type}

def reset (s : AbstractWorkerChoiceStrategy) : AbstractWorkerChoiceStrategy := s.resetWorkerNodeKeyProperties

def roundRobinNextWorkerNodeKey (p : Pool Data Response) (s : AbstractWorkerChoiceStrategy) :
    AbstractWorkerChoiceStrategy :=
  { s with nextWorkerNodeKey := some (s.followingWorkerNodeKey p) }

def choose (p : Pool Data Response) (s : AbstractWorkerChoiceStrategy) : Option Int × AbstractWorkerChoiceStrategy :=
  let chosenWorkerNodeKey := s.nextWorkerNodeKey
  (chosenWorkerNodeKey, roundRobinNextWorkerNodeKey p (s.setPreviousWorkerNodeKey chosenWorkerNodeKey))

/-- `remove`; the worker node has left `workerNodes` already. -/
def remove (p : Pool Data Response) (workerNodeKey : Int) (s : AbstractWorkerChoiceStrategy) :
    AbstractWorkerChoiceStrategy :=
  let s := if p.workerNodes.length = 0 then reset s else s
  let s :=
    if s.nextWorkerNodeKey = some workerNodeKey ∧ workerNodeKey > p.lastKey then
      { s with nextWorkerNodeKey := some p.lastKey }
    else s
  s.removePrevious p workerNodeKey

end RoundRobin

/-- `+` of two doubles. Exponents have no bounds: a sum that should be `Infinity` is finite, but no
weight is beyond it, and sums of doubles never lose digits to a small exponent. -/
def addDoubles (a b : ℚ) : ℚ := RoundingLib.add 53 a b

/-! ## Weighted round robin -/

structure WeightedRoundRobin extends AbstractWorkerChoiceStrategy where
  defaultWorkerWeight : ℚ
  workerNodeVirtualTaskRunTime : ℚ

namespace WeightedRoundRobin
variable {Data Response : Type}

def reset (s : WeightedRoundRobin) : WeightedRoundRobin :=
  { s with
    toAbstractWorkerChoiceStrategy := s.resetWorkerNodeKeyProperties
    workerNodeVirtualTaskRunTime := 0 }

/-- `opts.weights?.[workerNodeKey] ?? defaultWorkerWeight`. -/
def workerWeight (s : WeightedRoundRobin) (workerNodeKey : Int) : ℚ :=
  (s.opts.weights.bind (·.lookup workerNodeKey)).getD s.defaultWorkerWeight

/-- Stays with the current node until its tasks have run for its weight. The run time of a
node that does not exist is a property read of `undefined`. -/
def weightedRoundRobinNextWorkerNodeKey (p : Pool Data Response) (s : WeightedRoundRobin) :
    Except JsError (Option Int) × WeightedRoundRobin :=
  if s.workerNodeVirtualTaskRunTime < s.workerWeight s.currentWorkerNodeKey then
    match p.workerNode? s.currentWorkerNodeKey with
    | none => (.error .undefinedAccess, s)
    | some n =>
      (.ok s.nextWorkerNodeKey,
        { s with workerNodeVirtualTaskRunTime := addDoubles s.workerNodeVirtualTaskRunTime (s.getWorkerNodeTaskRunTime n) })
  else
    (.ok (some (s.followingWorkerNodeKey p)),
      { s with nextWorkerNodeKey := some (s.followingWorkerNodeKey p), workerNodeVirtualTaskRunTime := 0 })

def choose (p : Pool Data Response) (s : WeightedRoundRobin) : Except JsError (Option Int) × WeightedRoundRobin :=
  weightedRoundRobinNextWorkerNodeKey p
    { s with toAbstractWorkerChoiceStrategy := s.setPreviousWorkerNodeKey s.nextWorkerNodeKey }

def remove (p : Pool Data Response) (workerNodeKey : Int) (s : WeightedRoundRobin) : WeightedRoundRobin :=
  let s := if p.workerNodes.length = 0 then s.reset else s
  let s :=
    if s.nextWorkerNodeKey = some workerNodeKey then
      { s with
        workerNodeVirtualTaskRunTime := 0
        nextWorkerNodeKey := if workerNodeKey > p.lastKey then some p.lastKey else s.nextWorkerNodeKey }
    else s
  { s with toAbstractWorkerChoiceStrategy := s.removePrevious p workerNodeKey }

end WeightedRoundRobin

/-! ## Interleaved weighted round robin -/

structure InterleavedWeightedRoundRobin extends AbstractWorkerChoiceStrategy where
  roundId : Nat
  defaultWorkerWeight : ℚ
  roundWeights : List ℚ
  workerNodeId : Int
  workerNodeVirtualTaskRunTime : ℚ

namespace InterleavedWeightedRoundRobin
variable {Data Response : Type}

def reset (s : InterleavedWeightedRoundRobin) : InterleavedWeightedRoundRobin :=
  { s with
    toAbstractWorkerChoiceStrategy := s.resetWorkerNodeKeyProperties
    roundId := 0
    workerNodeId := 0
    workerNodeVirtualTaskRunTime := 0 }

/-- `opts.weights?.[workerNodeKey] ?? defaultWorkerWeight`. -/
def workerWeight (s : InterleavedWeightedRoundRobin) (workerNodeKey : Int) : ℚ :=
  (s.opts.weights.bind (·.lookup workerNodeKey)).getD s.defaultWorkerWeight

/-- The pass of the inner loop at a key, up to its conditional. -/
def visit (workerNodeKey : Int) (s : InterleavedWeightedRoundRobin) : InterleavedWeightedRoundRobin :=
  { s with
    workerNodeId := workerNodeKey
    workerNodeVirtualTaskRunTime :=
      if some workerNodeKey ≠ s.nextWorkerNodeKey ∧ s.workerNodeVirtualTaskRunTime ≠ 0 then 0
      else s.workerNodeVirtualTaskRunTime }

/-- The inner loop of `choose`, over the keys that are left. -/
def chooseInRound (p : Pool Data Response) (roundWeight : ℚ) :
    List Int → InterleavedWeightedRoundRobin → Except JsError (Option Int) × InterleavedWeightedRoundRobin
  | [], s => (.ok none, s)
  | workerNodeKey :: keys, s =>
    let s := s.visit workerNodeKey
    if s.workerWeight workerNodeKey ≥ roundWeight ∧ s.workerNodeVirtualTaskRunTime < s.workerWeight workerNodeKey then
      match p.workerNode? workerNodeKey with
      | none => (.error .undefinedAccess, s)
      | some n =>
        (.ok (some workerNodeKey),
          { s with
            toAbstractWorkerChoiceStrategy :=
              { s.setPreviousWorkerNodeKey s.nextWorkerNodeKey with nextWorkerNodeKey := some workerNodeKey }
            workerNodeVirtualTaskRunTime := addDoubles s.workerNodeVirtualTaskRunTime (s.getWorkerNodeTaskRunTime n) })
    else
      chooseInRound p roundWeight keys s

/-- The keys from `k` up to the last one. -/
def keysFrom (p : Pool Data Response) (k : Int) : List Int :=
  (List.range (p.workerNodes.length - k).toNat).map fun (i : Nat) => k + i

/-- The outer loop of `choose`, over the round weights that are left with their indices. -/
def chooseInRounds (p : Pool Data Response) :
    List (ℚ × Nat) → InterleavedWeightedRoundRobin → Except JsError (Option Int) × InterleavedWeightedRoundRobin
  | [], s => (.ok none, s)
  | (roundWeight, roundIndex) :: rounds, s =>
    match chooseInRound p roundWeight (keysFrom p s.workerNodeId) { s with roundId := roundIndex } with
    | (.ok none, s) => chooseInRounds p rounds s
    | r => r

def interleavedWeightedRoundRobinNextWorkerNodeId (p : Pool Data Response) (s : InterleavedWeightedRoundRobin) :
    InterleavedWeightedRoundRobin :=
  if (s.roundId : Int) = s.roundWeights.length - 1 ∧ s.workerNodeId = p.lastKey then
    { s with roundId := 0, workerNodeId := 0 }
  else if s.workerNodeId = p.lastKey then
    { s with roundId := s.roundId + 1, workerNodeId := 0 }
  else
    { s with workerNodeId := s.workerNodeId + 1 }

def choose (p : Pool Data Response) (s : InterleavedWeightedRoundRobin) :
    Except JsError (Option Int) × InterleavedWeightedRoundRobin :=
  match chooseInRounds p (s.roundWeights.zipIdx.drop s.roundId) s with
  | (.ok none, s) => (.ok none, interleavedWeightedRoundRobinNextWorkerNodeId p s)
  | r => r

def remove (p : Pool Data Response) (workerNodeKey : Int) (s : InterleavedWeightedRoundRobin) :
    InterleavedWeightedRoundRobin :=
  let s := if p.workerNodes.length = 0 then s.reset else s
  let s :=
    if s.workerNodeId = workerNodeKey ∧ s.workerNodeId > p.lastKey then { s with workerNodeId := p.lastKey } else s
  { s with toAbstractWorkerChoiceStrategy := s.removePrevious p workerNodeKey }

end InterleavedWeightedRoundRobin

/-! ## Strategies that choose the least node -/

/-- `workerNodes.reduce` from key `0`, to the key of the first node with the least measure. -/
def minWorkerNodeKey {α Data : Type} [LT α] [DecidableLT α] (measure : WorkerNode Data → α)
    (workerNodes : List (WorkerNode Data)) : Nat :=
  workerNodes.zipIdx.foldl (fun minKey (n, workerNodeKey) =>
    if workerNodes[minKey]?.any (measure n < measure ·) then workerNodeKey else minKey) 0

/-- `choose` of these strategies: the key becomes the next one. -/
def AbstractWorkerChoiceStrategy.chooseKey (key : Nat) (s : AbstractWorkerChoiceStrategy) :
    Option Int × AbstractWorkerChoiceStrategy :=
  (some key, { s.setPreviousWorkerNodeKey s.nextWorkerNodeKey with nextWorkerNodeKey := some key })

section Least
variable {Data Response : Type}

/-- The tasks a node has executed, executes and holds. -/
def LeastUsed.load (n : WorkerNode Data) : Nat :=
  n.usage.tasks.executed + n.usage.tasks.executing + n.tasksQueue.length

def LeastUsed.choose (p : Pool Data Response) (s : AbstractWorkerChoiceStrategy) :
    Option Int × AbstractWorkerChoiceStrategy :=
  s.chooseKey (minWorkerNodeKey LeastUsed.load p.workerNodes)

/-- The time a node's tasks have run and waited. -/
def LeastBusy.load (n : WorkerNode Data) : ℚ :=
  n.usage.runTime.aggregate.getD 0 + n.usage.waitTime.aggregate.getD 0

def LeastBusy.choose (p : Pool Data Response) (s : AbstractWorkerChoiceStrategy) :
    Option Int × AbstractWorkerChoiceStrategy :=
  s.chooseKey (minWorkerNodeKey LeastBusy.load p.workerNodes)

def LeastElu.load (n : WorkerNode Data) : ℚ := n.usage.elu.active.aggregate.getD 0

def LeastElu.choose (p : Pool Data Response) (s : AbstractWorkerChoiceStrategy) :
    Option Int × AbstractWorkerChoiceStrategy :=
  s.chooseKey (minWorkerNodeKey LeastElu.load p.workerNodes)

end Least

/-! ## Fair share -/

namespace FairShare
variable {Data Response : Type}

def reset (p : Pool Data Response) : Pool Data Response :=
  { p with workerNodes := p.workerNodes.map fun n => { n with strategyData := none } }

/-- `now < (virtualTaskEndTimestamp ?? -Infinity) ? virtualTaskEndTimestamp : now`. -/
def getWorkerNodeVirtualTaskStartTimestamp (now : ℚ) (n : WorkerNode Data) : ℚ :=
  match n.strategyData with
  | some virtualTaskEndTimestamp => if now < virtualTaskEndTimestamp then virtualTaskEndTimestamp else now
  | none => now

def getWorkerNodeVirtualTaskEndTimestamp (s : AbstractWorkerChoiceStrategy) (n : WorkerNode Data)
    (workerNodeVirtualTaskStartTimestamp : ℚ) : ℚ :=
  workerNodeVirtualTaskStartTimestamp +
    if s.opts.measurement = some .elu then s.getWorkerNodeTaskElu n else s.getWorkerNodeTaskRunTime n

def computeWorkerNodeVirtualTaskEndTimestamp (s : AbstractWorkerChoiceStrategy) (now : ℚ) (n : WorkerNode Data) : ℚ :=
  getWorkerNodeVirtualTaskEndTimestamp s n (getWorkerNodeVirtualTaskStartTimestamp now n)

def update (now : ℚ) (workerNodeKey : Nat) (s : AbstractWorkerChoiceStrategy) (p : Pool Data Response) :
    Except JsError (Pool Data Response) :=
  match p.workerNodes[workerNodeKey]? with
  | none => .error .undefinedAccess
  | some n =>
    .ok (p.modifyNode workerNodeKey fun _ =>
      { n with strategyData := some (computeWorkerNodeVirtualTaskEndTimestamp s now n) })

/-- The conditional that gives a node its timestamp. -/
def ensureStrategyData (s : AbstractWorkerChoiceStrategy) (now : ℚ) (n : WorkerNode Data) : WorkerNode Data :=
  match n.strategyData with
  | some _ => n
  | none => { n with strategyData := some (computeWorkerNodeVirtualTaskEndTimestamp s now n) }

/-- Whether the first timestamp is less than the second one; one that is `undefined` is not. -/
def earlier : Option ℚ → Option ℚ → Bool
  | some a, some b => a < b
  | _, _ => false

/-- A pass of the callback of `reduce`: it gives the node its timestamp, then compares it with
that of the node at the least key so far. `clock k` is what `performance.now()` returns in pass `k`. -/
def reducePass (s : AbstractWorkerChoiceStrategy) (clock : Nat → ℚ) (acc : Nat × List (WorkerNode Data))
    (workerNodeKey : Nat) : Nat × List (WorkerNode Data) :=
  let workerNodes := acc.2.modify workerNodeKey (ensureStrategyData s (clock workerNodeKey))
  let timestamp (k : Nat) := workerNodes[k]?.bind (·.strategyData)
  (if earlier (timestamp workerNodeKey) (timestamp acc.1) then workerNodeKey else acc.1, workerNodes)

def fairShareNextWorkerNodeKey (s : AbstractWorkerChoiceStrategy) (clock : Nat → ℚ)
    (workerNodes : List (WorkerNode Data)) : Nat × List (WorkerNode Data) :=
  (List.range workerNodes.length).foldl (reducePass s clock) (0, workerNodes)

def choose (clock : Nat → ℚ) (p : Pool Data Response) (s : AbstractWorkerChoiceStrategy) :
    Option Int × AbstractWorkerChoiceStrategy × Pool Data Response :=
  let (key, workerNodes) := fairShareNextWorkerNodeKey s clock p.workerNodes
  let (chosen, s) := s.chooseKey key
  (chosen, s, { p with workerNodes })

end FairShare

/-! ## All strategies -/

/-- The strategies that keep a cursor into `workerNodes`. -/
inductive CyclicStrategy
  | roundRobin (s : AbstractWorkerChoiceStrategy)
  | weightedRoundRobin (s : WeightedRoundRobin)
  | interleavedWeightedRoundRobin (s : InterleavedWeightedRoundRobin)

namespace CyclicStrategy
variable {Data Response : Type}

/-- The cursor the next `choose` uses: `nextWorkerNodeKey` or `workerNodeId`. -/
def cursor : CyclicStrategy → Option Int
  | .roundRobin s => s.nextWorkerNodeKey
  | .weightedRoundRobin s => s.nextWorkerNodeKey
  | .interleavedWeightedRoundRobin s => some s.workerNodeId

def reset : CyclicStrategy → CyclicStrategy
  | .roundRobin s => .roundRobin (RoundRobin.reset s)
  | .weightedRoundRobin s => .weightedRoundRobin s.reset
  | .interleavedWeightedRoundRobin s => .interleavedWeightedRoundRobin s.reset

def remove (p : Pool Data Response) (workerNodeKey : Int) : CyclicStrategy → CyclicStrategy
  | .roundRobin s => .roundRobin (RoundRobin.remove p workerNodeKey s)
  | .weightedRoundRobin s => .weightedRoundRobin (s.remove p workerNodeKey)
  | .interleavedWeightedRoundRobin s => .interleavedWeightedRoundRobin (s.remove p workerNodeKey)

def choose (p : Pool Data Response) : CyclicStrategy → Except JsError (Option Int) × CyclicStrategy
  | .roundRobin s => (.ok (RoundRobin.choose p s).1, .roundRobin (RoundRobin.choose p s).2)
  | .weightedRoundRobin s => ((s.choose p).1, .weightedRoundRobin (s.choose p).2)
  | .interleavedWeightedRoundRobin s => ((s.choose p).1, .interleavedWeightedRoundRobin (s.choose p).2)

end CyclicStrategy

/-- A strategy, with its state. -/
inductive Strategy
  | cyclic (s : CyclicStrategy)
  | leastUsed (s : AbstractWorkerChoiceStrategy)
  | leastBusy (s : AbstractWorkerChoiceStrategy)
  | leastElu (s : AbstractWorkerChoiceStrategy)
  | fairShare (s : AbstractWorkerChoiceStrategy)

/-- `choose` of a strategy: what it returns or throws, and the state of strategy and pool after it. -/
def Strategy.choose {Data Response : Type} (clock : Nat → ℚ) (p : Pool Data Response) :
    Strategy → Except JsError (Option Int) × Strategy × Pool Data Response
  | .cyclic s => ((s.choose p).1, .cyclic (s.choose p).2, p)
  | .leastUsed s => (.ok (LeastUsed.choose p s).1, .leastUsed (LeastUsed.choose p s).2, p)
  | .leastBusy s => (.ok (LeastBusy.choose p s).1, .leastBusy (LeastBusy.choose p s).2, p)
  | .leastElu s => (.ok (LeastElu.choose p s).1, .leastElu (LeastElu.choose p s).2, p)
  | .fairShare s =>
    let (key, s, p) := FairShare.choose clock p s
    (.ok key, .fairShare s, p)

end Poolifier
