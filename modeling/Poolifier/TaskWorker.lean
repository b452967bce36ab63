import Poolifier.Node
import Poolifier.Lib.Runs
/-!
# Workers that run tasks

A worker runs the task functions it is asked for, and sends the main worker
what they return, or an error. Sending throws if the channel cannot clone the
message, and what arrives is a copy. What values do is a parameter (`Runtime`);
the worker handles one message after the other, and the promises of its
asynchronous functions settle in any order. A thread worker closes its port when
it is killed, and either side may close the channel: then no message arrives any
more. A worker that is terminated from outside does nothing from then on.
-/

namespace Poolifier

open RunLib

namespace AbstractWorker

/-- What the code asks of values it knows nothing about. Reading them may run code of theirs, which may throw. -/
structure Runtime (V : Type) where
  ofString : String → V
  ofError : JsError → V
  instanceofError : V → Except V Bool
  readMessage : V → Except V V
  /-- Whether a value is `null` or `undefined`. -/
  isNullish : V → Bool
  /-- Whether the channel can clone a value, or the exception it throws. -/
  clone : V → Except V Unit
  /-- What arrives of a value: its structured clone, or what JSON makes of it. -/
  copy : V → V
  clone_ofString : ∀ s, clone (ofString s) = .ok ()

/-- A task function. It may change the data it is given, which are then as `leaves` says. It `strays` if its call
leaves something behind that raises an exception later, like a promise that rejects and that nothing handles. -/
structure TaskFunction (V : Type) where
  isAsyncFunction : Bool
  call : V → Except V V
  leaves : V → V
  strays : V → Bool

/-- `Task`, as the worker receives it. -/
structure Task (V : Type) where
  name : Option String
  taskId : Nat
  data : V

structure WorkerStatistics where
  runTime : Bool
  elu : Bool

/-- `WorkerError`. -/
structure WorkerError (V : Type) where
  name : Option String
  message : V
  data : V

/-- What the worker sends the main worker about a task. -/
structure MessageValue (V : Type) where
  taskId : Nat
  data : Option V
  workerError : Option (WorkerError V)
  taskPerformance : Option TaskPerformance

/-- A task whose promise has not settled. -/
structure Running (V : Type) where
  task : Task V
  outcome : Except V V
  data : V
  taskPerformance : TaskPerformance

/-- A task message that was received, with the function it asks for. -/
structure Received (V : Type) where
  task : Task V
  fn : Option (TaskFunction V)
  statistics : Bool

structure State (V : Type) where
  taskFunctions : String → Option (TaskFunction V)
  statistics : Option WorkerStatistics
  activeInterval : Bool
  lastTaskTimestamp : ℚ
  running : List (Running V)
  sent : List (MessageValue V)
  /-- All task messages, for the theorems. -/
  received : List (Received V)
  /-- The task that raised an uncaught exception, which ends the worker. -/
  uncaught : Option Nat
  /-- After how many messages the channel to the main worker was closed. -/
  closed : Option Nat
  /-- The tasks whose promises have settled since, for the theorems. -/
  late : List Nat

/-- The readings of `performance`. -/
structure Clock where
  now : ℚ
  eventLoopUtilization : Option EventLoopUtilization → EventLoopUtilization

abbrev WorkerM (V α : Type) := EStateM V (State V) α

section Code
variable {V : Type} (rt : Runtime V) (type : WorkerType)

/-! ## Sending -/

/-- The values in a message, in the order in which they are cloned; all else in it can be cloned. -/
def MessageValue.values (message : MessageValue V) : List V :=
  message.data.toList ++ (message.workerError.map fun e => [e.message, e.data]).getD []

/-- The first value that cannot be cloned makes the channel throw. -/
def sendToMainWorker (message : MessageValue V) : WorkerM V Unit := do
  ofExcept (message.values.forM rt.clone)
  modify fun s => { s with sent := s.sent ++ [message] }

/-- `handleError`; a thread worker overrides it. -/
def handleError (error : V) : WorkerM V V := do
  match type with
  | .thread => pure error
  | .cluster => if ← ofExcept (rt.instanceofError error) then ofExcept (rt.readMessage error) else pure error

/-! ## Performance -/

def checkStatistics : WorkerM V WorkerStatistics := do
  match (← get).statistics with
  | none => throw (rt.ofError (.error "Performance statistics computation requirements not set"))
  | some statistics => pure statistics

def beginTaskPerformance (clock : Clock) (name : Option String) : WorkerM V TaskPerformance := do
  let statistics ← checkStatistics rt
  pure
    { name := name.getD defaultTaskName
      timestamp := clock.now
      runTime := none
      elu := if statistics.elu then some (clock.eventLoopUtilization none) else none }

def endTaskPerformance (clock : Clock) (taskPerformance : TaskPerformance) : WorkerM V TaskPerformance := do
  let statistics ← checkStatistics rt
  pure
    { taskPerformance with
      runTime := if statistics.runTime then some (clock.now - taskPerformance.timestamp) else taskPerformance.runTime
      elu := if statistics.elu then some (clock.eventLoopUtilization taskPerformance.elu) else taskPerformance.elu }

def updateLastTaskTimestamp (clock : Clock) : WorkerM V Unit :=
  modify fun s => if s.activeInterval then { s with lastTaskTimestamp := clock.now } else s

/-! ## Running tasks -/

/-- The message of the `catch` blocks. -/
def sendError (task : Task V) (data error : V) : WorkerM V Unit := do
  let message ← handleError rt type error
  sendToMainWorker rt ⟨task.taskId, none, some ⟨task.name, message, data⟩, none⟩

def runSync (fn : TaskFunction V) (task : Task V) (start stop : Clock) : WorkerM V Unit := do
  try
    let taskPerformance ← beginTaskPerformance rt start task.name
    let res ← ofExcept (fn.call task.data)
    let taskPerformance ← endTaskPerformance rt stop taskPerformance
    sendToMainWorker rt ⟨task.taskId, some res, none, some taskPerformance⟩
  catch error =>
    -- the function has been called, unless the performance could not begin
    let data := if (← get).statistics.isSome then fn.leaves task.data else task.data
    sendError rt type task data error
  finally
    updateLastTaskTimestamp stop

/-- `runAsync`, up to the promise of the function. -/
def runAsync (fn : TaskFunction V) (task : Task V) (start : Clock) : WorkerM V Unit := do
  let taskPerformance ← beginTaskPerformance rt start task.name
  modify fun s =>
    { s with running := s.running ++ [⟨task, fn.call task.data, fn.leaves task.data, taskPerformance⟩] }

/-- The callbacks that `runAsync` chains to the promise. -/
def settle (r : Running V) (stop : Clock) : WorkerM V Unit := do
  try
    try
      let res ← ofExcept r.outcome
      let taskPerformance ← endTaskPerformance rt stop r.taskPerformance
      sendToMainWorker rt ⟨r.task.taskId, some res, none, some taskPerformance⟩
    catch error =>
      sendError rt type r.task r.data error
    finally
      updateLastTaskTimestamp stop
  catch _ =>
    pure ()

def run (task : Task V) (start stop : Clock) : WorkerM V Unit := do
  match (← get).taskFunctions (task.name.getD defaultTaskName) with
  | none =>
    let name := task.name.getD "undefined"
    sendToMainWorker rt
      ⟨task.taskId, none, some ⟨task.name, rt.ofString s!"Task function '{name}' not found", task.data⟩, none⟩
  | some fn => if fn.isAsyncFunction then runAsync rt fn task start else runSync rt type fn task start stop

/-- `messageListener`, of a message with a task id: without data it is not taken for a task message. -/
def messageListener (task : Task V) (start stop : Clock) : WorkerM V Unit :=
  if rt.isNullish task.data then pure () else run rt type task start stop

/-- `handleKillMessage`, but for the kill handler and the answer; a thread worker overrides it to close its port. -/
def handleKillMessage (s : State V) : State V :=
  match type with
  | .thread => { s with activeInterval := false, closed := some s.sent.length }
  | .cluster => { s with activeInterval := false }

end Code

/-! ## Events -/

inductive Event (V : Type)
  | statistics (statistics : WorkerStatistics)
  | checkActive (checkActive : Bool) (clock : Clock)
  /-- A task function operation, whatever it makes of the task functions. -/
  | taskFunctionOperation (taskFunctions : String → Option (TaskFunction V))
  | task (task : Task V) (start stop : Clock)
  | kill
  /-- The main worker closes the channel. -/
  | disconnect
  /-- The promise of a running task settles. -/
  | settle (i : Nat) (stop : Clock)
  /-- What the function of a task has left behind raises an exception. -/
  | stray (taskId : Nat)

section Step
variable {V : Type} (rt : Runtime V) (type : WorkerType)

/-- The event is a message, which a closed channel does not deliver. -/
def Event.isMessage : Event V → Bool
  | .disconnect | .settle .. | .stray _ => false
  | _ => true

/-- What the worker has to go by once it has received a task message. -/
def State.receives (s : State V) (task : Task V) : Received V :=
  ⟨task, s.taskFunctions (task.name.getD defaultTaskName), s.statistics.isSome⟩

/-- The function of the task has been called, and has left something behind that raises an exception. -/
def Received.strays (x : Received V) : Bool :=
  !rt.isNullish x.task.data && x.statistics && x.fn.any fun fn => fn.strays x.task.data

/-- The messages that reach the main worker: what is sent through a closed port is dropped. -/
def State.through (s : State V) : List (MessageValue V) :=
  match s.closed with
  | none => s.sent
  | some n => s.sent.take n

/-- A promise that settles now is late if the channel has been closed. -/
def State.stopped (i taskId : Nat) (s : State V) : State V :=
  { s with running := s.running.eraseIdx i, late := if s.closed.isSome then s.late ++ [taskId] else s.late }

/-- An exception that nothing catches ends the worker. -/
def State.ended (id : Nat) : EStateM.Result V (State V) Unit → State V
  | .ok _ s => s
  | .error _ s => { s with uncaught := some id }

/-- The worker handles a task message, whichever it is. -/
def State.take (task : Task V) (start stop : Clock) (s : State V) : State V :=
  State.ended task.taskId (messageListener rt type task start stop { s with received := s.received ++ [s.receives task] })

/-- The state after an event, if the event can happen. Task ids are UUIDs, so no two messages have the same. -/
def next (s : State V) (e : Event V) : Option (State V) :=
  if s.uncaught.isSome || e.isMessage && s.closed.isSome then none
  else
    match e with
    | .statistics statistics => some { s with statistics := some statistics }
    | .checkActive true clock => some { s with activeInterval := true, lastTaskTimestamp := clock.now }
    | .checkActive false _ => some { s with activeInterval := false }
    | .taskFunctionOperation taskFunctions => some { s with taskFunctions }
    | .task task start stop =>
      if task.taskId ∈ s.received.map (·.task.taskId) then none else some (s.take rt type task start stop)
    | .kill => some (handleKillMessage type s)
    | .disconnect => some { s with closed := some (s.closed.getD s.sent.length) }
    | .settle i stop =>
      match s.running[i]? with
      | none => none
      | some r =>
        if s.closed.isSome && type = .cluster then
          -- `send` does not throw then: it makes the worker emit an error, which nothing listens for
          some { s.stopped i r.task.taskId with uncaught := some r.task.taskId }
        else
          some (State.ended r.task.taskId (settle rt type r stop (s.stopped i r.task.taskId)))
    | .stray taskId =>
      if s.received.any fun x => x.task.taskId = taskId && x.strays rt then some { s with uncaught := some taskId }
      else none

def Step (s : State V) (e : Event V) (s' : State V) : Prop := next rt type s e = some s'

/-- A worker before its first message. -/
def created (taskFunctions : String → Option (TaskFunction V)) : State V :=
  ⟨taskFunctions, none, false, 0, [], [], [], none, none, []⟩

end Step

/-! ## What a step does -/

section Does
variable {V : Type} {rt : Runtime V} {type : WorkerType} {s s' : State V} {e : Event V}

/-- The task message that an event is. -/
def Event.message : Event V → Option (Task V)
  | .task message _ _ => some message
  | _ => none

/-- The promise of a function settles. -/
def Event.isSettlement : Event V → Bool
  | .settle .. => true
  | _ => false

/-- The channel may be closed. -/
def Event.isClosing : Event V → Bool
  | .kill | .disconnect => true
  | _ => false

/-- The worker is told something that is not about a task, or its channel is closed. -/
structure Told (closes : Bool) (s s' : State V) : Prop where
  statistics : s.statistics.isSome = true → s'.statistics.isSome = true
  running : s'.running = s.running
  sent : s'.sent = s.sent
  received : s'.received = s.received
  uncaught : s'.uncaught = s.uncaught
  closed : s'.closed = s.closed ∨ closes = true ∧ s.closed = none ∧ s'.closed = some s.sent.length
  late : s'.late = s.late

/-- What an event makes of a worker. -/
inductive Does (rt : Runtime V) (type : WorkerType) (s : State V) : Event V → State V → Prop
  | told {e : Event V} {s' : State V} : e.message = none → e.isSettlement = false → Told e.isClosing s s' → Does rt type s e s'
  | task {task : Task V} (start stop : Clock) : task.taskId ∉ s.received.map (·.task.taskId) →
      Does rt type s (.task task start stop) (s.take rt type task start stop)
  | settle {i : Nat} {r : Running V} (stop : Clock) : s.running[i]? = some r →
      Does rt type s (.settle i stop) (State.ended r.task.taskId (settle rt type r stop (s.stopped i r.task.taskId)))
  /-- The promise of a cluster worker settles in a closed channel. -/
  | cut {i : Nat} {r : Running V} (stop : Clock) : s.running[i]? = some r → s.closed.isSome = true →
      Does rt type s (.settle i stop) { s.stopped i r.task.taskId with uncaught := some r.task.taskId }
  | stray {x : Received V} : x ∈ s.received → x.strays rt = true →
      Does rt type s (.stray x.task.taskId) { s with uncaught := some x.task.taskId }

/-- A worker that has ended does nothing, and messages come through an open channel only. -/
theorem does_of_step (h : Step rt type s e s') :
    s.uncaught = none ∧ (e.isMessage = true → s.closed = none) ∧ Does rt type s e s' := by
  unfold Step next at h
  split at h
  · cases h
  · rename_i hguard
    rw [Bool.or_eq_true, not_or, Bool.not_eq_true] at hguard
    have hopen (hmessage : e.isMessage = true) : s.closed = none := by simpa [hmessage] using hguard.2
    refine ⟨by simpa using hguard.1, hopen, ?_⟩
    cases e with
    | statistics statistics =>
      cases h
      exact .told rfl rfl ⟨fun _ => rfl, rfl, rfl, rfl, rfl, .inl rfl, rfl⟩
    | checkActive checkActive clock =>
      cases checkActive <;> cases h <;> exact .told rfl rfl ⟨fun hs => hs, rfl, rfl, rfl, rfl, .inl rfl, rfl⟩
    | taskFunctionOperation taskFunctions =>
      cases h
      exact .told rfl rfl ⟨fun hs => hs, rfl, rfl, rfl, rfl, .inl rfl, rfl⟩
    | task task start stop =>
      dsimp only at h
      split at h
      · cases h
      · rename_i hnew
        cases h
        exact .task start stop hnew
    | kill =>
      cases h
      cases type with
      | thread => exact .told rfl rfl ⟨fun hs => hs, rfl, rfl, rfl, rfl, .inr ⟨rfl, hopen rfl, rfl⟩, rfl⟩
      | cluster => exact .told rfl rfl ⟨fun hs => hs, rfl, rfl, rfl, rfl, .inl rfl, rfl⟩
    | disconnect =>
      cases h
      refine .told rfl rfl ⟨fun hs => hs, rfl, rfl, rfl, rfl, ?_, rfl⟩
      rcases hc : s.closed with _ | n
      · exact .inr ⟨rfl, rfl, rfl⟩
      · exact .inl rfl
    | settle i stop =>
      dsimp only at h
      split at h
      · cases h
      · rename_i r hr
        split at h <;> cases h
        · rename_i hcut
          rw [Bool.and_eq_true] at hcut
          exact .cut stop hr hcut.1
        · exact .settle stop hr
    | stray taskId =>
      dsimp only at h
      split at h
      · rename_i hany
        obtain ⟨x, hx, hstrays⟩ := List.any_eq_true.1 hany
        rw [Bool.and_eq_true, decide_eq_true_iff] at hstrays
        cases h
        rw [← hstrays.1]
        exact .stray hx hstrays.2
      · cases h

end Does

end AbstractWorker

end Poolifier
