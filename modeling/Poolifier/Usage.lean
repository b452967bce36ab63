import Mathlib.Algebra.Order.Field.Rat
import Mathlib.Data.List.Sort
/-!
# Tasks, responses and usage statistics

The messages that carry tasks and their responses, and the usage record the
pool keeps for a worker node: task counters, and measurements of run time, wait
time and event loop utilization. Times are rationals, so that the arithmetic is
exact.
-/

namespace Poolifier

/-! ## Messages -/

def defaultTaskName : String := "default"

/-- `Task`, as the main worker sends it. The id stands for a UUID. -/
structure Task (Data : Type) where
  name : String
  data : Data
  timestamp : ℚ
  taskId : Nat

/-- `WorkerError`, without the data that triggered it. -/
structure WorkerError where
  name : String
  message : String

structure EventLoopUtilization where
  idle : ℚ
  active : ℚ
  utilization : ℚ

structure TaskPerformance where
  name : String
  timestamp : ℚ
  runTime : Option ℚ
  elu : Option EventLoopUtilization

/-- A task execution response: the fields of a `MessageValue` that has a `taskId`. -/
structure TaskResponse (Response : Type) where
  taskId : Nat
  data : Option Response
  workerError : Option WorkerError
  taskPerformance : Option TaskPerformance

/-! ## Measurement statistics -/

/-- A `CircularArray`: it keeps the last `size` items pushed. -/
structure CircularArray (α : Type) where
  size : Nat
  items : List α

def defaultCircularArraySize : Nat := 1024

def CircularArray.push {α : Type} (a : CircularArray α) (x : α) : CircularArray α :=
  let items := a.items ++ [x]
  { a with items := if items.length > a.size then items.drop (items.length - a.size) else items }

structure MeasurementStatistics where
  aggregate : Option ℚ
  minimum : Option ℚ
  maximum : Option ℚ
  average : Option ℚ
  median : Option ℚ
  history : CircularArray ℚ

def MeasurementStatistics.init : MeasurementStatistics :=
  ⟨none, none, none, none, none, ⟨defaultCircularArraySize, []⟩⟩

structure MeasurementStatisticsRequirements where
  aggregate : Bool
  average : Bool
  median : Bool

/-- What the current worker choice strategy asks to be measured. -/
structure TaskStatisticsRequirements where
  runTime : MeasurementStatisticsRequirements
  waitTime : MeasurementStatisticsRequirements
  elu : MeasurementStatisticsRequirements

def average (dataSet : List ℚ) : ℚ :=
  match dataSet with
  | [] => 0
  | [x] => x
  | _ => dataSet.foldl (· + ·) 0 / dataSet.length

def median (dataSet : List ℚ) : ℚ :=
  match dataSet with
  | [] => 0
  | [x] => x
  | _ =>
    let sorted := dataSet.insertionSort (· ≤ ·)
    (sorted.getD ((sorted.length - 1) / 2) 0 + sorted.getD (sorted.length / 2) 0) / 2

def updateMeasurementStatistics (m : MeasurementStatistics) (requirements : MeasurementStatisticsRequirements)
    (value : ℚ) : MeasurementStatistics :=
  if requirements.aggregate then
    let m := { m with
      aggregate := some (m.aggregate.getD 0 + value)
      minimum := some (m.minimum.elim value (min value))
      maximum := some (m.maximum.elim value (max value)) }
    if requirements.average || requirements.median then
      let history := m.history.push value
      { m with
        history
        average := if requirements.average then some (average history.items) else none
        median := if requirements.median then some (median history.items) else none }
    else m
  else m

/-! ## Worker usage -/

/-- `TaskStatistics`. The `queued` getter reads the node's queue, so it is not stored. -/
structure TaskStatistics where
  executed : Nat
  executing : Nat
  stolen : Nat
  failed : Nat

structure EluStatistics where
  idle : MeasurementStatistics
  active : MeasurementStatistics
  utilization : Option ℚ

structure WorkerUsage where
  tasks : TaskStatistics
  runTime : MeasurementStatistics
  waitTime : MeasurementStatistics
  elu : EluStatistics

namespace WorkerUsage
variable {Data Response : Type}

/-- `initWorkerUsage` and `initTaskFunctionWorkerUsage`. -/
def init : WorkerUsage where
  tasks := ⟨0, 0, 0, 0⟩
  runTime := .init
  waitTime := .init
  elu := ⟨.init, .init, none⟩

def updateWaitTimeWorkerUsage (requirements : TaskStatisticsRequirements) (now : ℚ) (task : Task Data)
    (u : WorkerUsage) : WorkerUsage :=
  { u with waitTime := updateMeasurementStatistics u.waitTime requirements.waitTime (now - task.timestamp) }

/-- What `beforeTaskExecutionHook` does to one usage record. -/
def beforeTaskExecution (requirements : TaskStatisticsRequirements) (now : ℚ) (task : Task Data)
    (u : WorkerUsage) : WorkerUsage :=
  updateWaitTimeWorkerUsage requirements now task
    { u with tasks := { u.tasks with executing := u.tasks.executing + 1 } }

def updateTaskStatisticsWorkerUsage (message : TaskResponse Response) (u : WorkerUsage) : WorkerUsage :=
  let tasks := if u.tasks.executing > 0 then { u.tasks with executing := u.tasks.executing - 1 } else u.tasks
  if message.workerError.isNone then
    { u with tasks := { tasks with executed := tasks.executed + 1 } }
  else
    { u with tasks := { tasks with failed := tasks.failed + 1 } }

def updateRunTimeWorkerUsage (requirements : TaskStatisticsRequirements) (message : TaskResponse Response)
    (u : WorkerUsage) : WorkerUsage :=
  if message.workerError.isSome then u
  else
    let runTime := (message.taskPerformance.bind (·.runTime)).getD 0
    { u with runTime := updateMeasurementStatistics u.runTime requirements.runTime runTime }

def updateEluWorkerUsage (requirements : TaskStatisticsRequirements) (message : TaskResponse Response)
    (u : WorkerUsage) : WorkerUsage :=
  if message.workerError.isSome then u
  else
    let elu := message.taskPerformance.bind (·.elu)
    let active := updateMeasurementStatistics u.elu.active requirements.elu ((elu.map (·.active)).getD 0)
    let idle := updateMeasurementStatistics u.elu.idle requirements.elu ((elu.map (·.idle)).getD 0)
    let utilization :=
      if requirements.elu.aggregate then
        match elu, u.elu.utilization with
        | some e, some x => some ((x + e.utilization) / 2)
        | some e, none => some e.utilization
        | none, x => x
      else u.elu.utilization
    { u with elu := { idle, active, utilization } }

/-- What `afterTaskExecutionHook` does to one usage record. -/
def afterTaskExecution (requirements : TaskStatisticsRequirements) (message : TaskResponse Response)
    (u : WorkerUsage) : WorkerUsage :=
  updateEluWorkerUsage requirements message (updateRunTimeWorkerUsage requirements message
    (updateTaskStatisticsWorkerUsage message u))

/-- What `updateTaskStolenStatisticsWorkerUsage` does to one usage record. -/
def stealTask (u : WorkerUsage) : WorkerUsage :=
  { u with tasks := { u.tasks with stolen := u.tasks.stolen + 1 } }

/-! ## The counters after each update -/

@[simp] theorem updateRunTimeWorkerUsage_tasks (requirements : TaskStatisticsRequirements)
    (message : TaskResponse Response) (u : WorkerUsage) :
    (u.updateRunTimeWorkerUsage requirements message).tasks = u.tasks := by
  unfold updateRunTimeWorkerUsage; split <;> rfl

@[simp] theorem updateEluWorkerUsage_tasks (requirements : TaskStatisticsRequirements)
    (message : TaskResponse Response) (u : WorkerUsage) :
    (u.updateEluWorkerUsage requirements message).tasks = u.tasks := by
  unfold updateEluWorkerUsage; split <;> rfl

/-- A response moves one task from `executing` to `executed` or `failed`. -/
theorem afterTaskExecution_tasks (requirements : TaskStatisticsRequirements) (message : TaskResponse Response)
    (u : WorkerUsage) :
    (u.afterTaskExecution requirements message).tasks =
      { u.tasks with
        executing := u.tasks.executing - 1
        executed := u.tasks.executed + if message.workerError.isNone then 1 else 0
        failed := u.tasks.failed + if message.workerError.isNone then 0 else 1 } := by
  simp only [afterTaskExecution, updateEluWorkerUsage_tasks, updateRunTimeWorkerUsage_tasks,
    updateTaskStatisticsWorkerUsage]
  rcases Nat.eq_zero_or_pos u.tasks.executing with h | h <;> cases message.workerError <;> simp [h]

@[simp] theorem afterTaskExecution_executing (requirements : TaskStatisticsRequirements)
    (message : TaskResponse Response) (u : WorkerUsage) :
    (u.afterTaskExecution requirements message).tasks.executing = u.tasks.executing - 1 := by
  rw [afterTaskExecution_tasks]

end WorkerUsage

end Poolifier
