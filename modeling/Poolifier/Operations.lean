import Poolifier.TaskFunctions
/-!
# Task function operations

The pool asks its workers to add, remove or make default a task function, and
counts their answers. A worker handles the messages it is sent one after the
other, and answers each; the pool runs the listeners that are registered on a
node for every answer of its worker. In between, workers are created, fail,
and leave.

Messages and answers say which operation they belong to, for the theorems: the
code does not have this, and `emit` does not read it.
-/

namespace Poolifier

open MapLib RunLib

namespace Operations

/-- An operation message that a worker has been sent. -/
structure Sent where
  operation : Nat
  message : OperationMessage
deriving DecidableEq

structure Answer where
  operation : Nat
  workerId : Nat
  taskFunctionOperation : TaskFunctionOperation
  taskFunctionOperationStatus : Bool
  taskFunctionName : String
  workerError : Option JsError
deriving DecidableEq

/-- The listener of an operation, sent to the node `workerNodeKey` or to all nodes. -/
inductive Listener
  | ofWorker (operation workerNodeKey : Nat)
  | ofWorkers (operation : Nat)
deriving DecidableEq

def Listener.operation : Listener → Nat
  | .ofWorker operation _ => operation
  | .ofWorkers operation => operation

/-- How the promise of an operation ends. The text of a rejection is made of the operation, the worker and
its error. -/
inductive Outcome
  | resolved
  | rejected (taskFunctionOperation : TaskFunctionOperation) (workerId : Nat) (workerError : Option JsError)
  | thrown (e : JsError)
deriving DecidableEq

/-- The promise of an operation. `targets` are the workers it was sent to. -/
structure Promise where
  message : OperationMessage
  toWorkers : Bool
  targets : List Nat
  responsesReceived : List Answer
  settled : Option Outcome
deriving DecidableEq

structure Node where
  id : Nat
  dynamic : Bool
  /-- Whether the message channel of a thread worker is open. -/
  channelOpen : Bool
  listeners : List Listener
  /-- Whether the worker still handles messages. -/
  live : Bool
  taskFunctions : TaskFunctions
  inbox : List Sent
  outbox : List Answer

structure State where
  worker : WorkerType
  workerNodes : List Node
  nextWorkerId : Nat
  taskFunctions : OrderedMap String String
  promises : List Promise
  /-- All answers that workers have sent. -/
  answers : List Answer

namespace State

def modifyNode (k : Nat) (f : Node → Node) (s : State) : State := { s with workerNodes := s.workerNodes.modify k f }

def modifyPromise (p : Nat) (f : Promise → Promise) (s : State) : State :=
  { s with promises := s.promises.modify p f }

def getWorkerNodeKeyByWorkerId (s : State) (workerId : Nat) : Nat := s.workerNodes.findIdx (·.id = workerId)

end State

/-! ## The pool sends an operation -/

/-- `registerWorkerMessageListener` and `sendToWorker`. -/
def Node.ask (l : Listener) (message : OperationMessage) (n : Node) : Node :=
  { n with listeners := n.listeners ++ [l], inbox := n.inbox ++ [⟨l.operation, message⟩] }

/-- Asks node after node, and throws at the first whose channel is closed. -/
def askEach (l : Listener) (message : OperationMessage) : List Node → List Node
  | [] => []
  | n :: nodes => if n.channelOpen then n.ask l message :: askEach l message nodes else n :: nodes

def sendTaskFunctionOperationToWorkers (message : OperationMessage) (s : State) : State :=
  let p := s.promises.length
  { s with
    workerNodes := askEach (.ofWorkers p) message s.workerNodes
    promises := s.promises ++
      [{ message := message
         toWorkers := true
         targets := (s.workerNodes.takeWhile (·.channelOpen)).map (·.id)
         responsesReceived := []
         settled := if s.workerNodes.all (·.channelOpen) then none else some (.thrown .undefinedAccess) }] }

/-- To a node whose channel is open. -/
def sendTaskFunctionOperationToWorker (workerNodeKey : Nat) (message : OperationMessage) (s : State) : State :=
  let p := s.promises.length
  { s with
    workerNodes := s.workerNodes.modify workerNodeKey (·.ask (.ofWorker p workerNodeKey) message)
    promises := s.promises ++
      [{ message := message
         toWorkers := false
         targets := (s.workerNodes[workerNodeKey]?.map (·.id)).toList
         responsesReceived := []
         settled := none }] }

/-- The calls of the pool's API. -/
inductive Call
  | addTaskFunction (name text : String)
  | removeTaskFunction (name : String)
  | setDefaultTaskFunction (name : String)
deriving DecidableEq

/-- The message of a call whose checks pass. -/
def Call.message (s : State) : Call → Except JsError OperationMessage
  | .addTaskFunction name text =>
    if isBlank name then .error (.typeError "name argument must not be an empty string")
    else .ok ⟨.add, name, some text⟩
  | .removeTaskFunction name =>
    if !s.taskFunctions.has name then
      .error (.error "Cannot remove a task function not handled on the pool side")
    else .ok ⟨.remove, name, none⟩
  | .setDefaultTaskFunction name => .ok ⟨.default, name, none⟩

/-- A call, up to its `await`. -/
def call (c : Call) (s : State) : State :=
  match c.message s with
  | .error _ => s
  | .ok message => sendTaskFunctionOperationToWorkers message s

/-! ## The pool receives an answer -/

/-- What the calls do on the pool side once their promise is resolved. Nothing else runs before. -/
def updateOnPool (message : OperationMessage) (taskFunctions : OrderedMap String String) :
    OrderedMap String String :=
  match message.taskFunctionOperation with
  | .add => taskFunctions.set message.taskFunctionName (message.taskFunction.getD "undefined")
  | .remove => taskFunctions.delete message.taskFunctionName
  | _ => taskFunctions

/-- `resolve` or `reject`, which do nothing to a promise that is settled. -/
def settle (p : Nat) (r : Outcome) (s : State) : State :=
  match s.promises[p]? with
  | none => s
  | some q =>
    if q.settled.isSome then s
    else
      { s.modifyPromise p fun q => { q with settled := some r } with
        taskFunctions := if q.toWorkers && r = .resolved then updateOnPool q.message s.taskFunctions
          else s.taskFunctions }

def deregisterWorkerMessageListener (workerId : Nat) (l : Listener) (s : State) : State :=
  s.modifyNode (s.getWorkerNodeKeyByWorkerId workerId) fun n => { n with listeners := n.listeners.erase l }

/-- What the answer of a worker comes to. -/
def Answer.outcome (message : Answer) : Outcome :=
  if message.taskFunctionOperationStatus then .resolved
  else .rejected message.taskFunctionOperation message.workerId message.workerError

/-- What the answers received come to, of which `message` is the last. -/
def outcome (responsesReceived : List Answer) (message : Answer) : Outcome :=
  match responsesReceived.find? fun r => !r.taskFunctionOperationStatus with
  | none => .resolved
  | some errorResponse =>
    .rejected message.taskFunctionOperation errorResponse.workerId errorResponse.workerError

/-- The promise with an answer more. -/
def Promise.answered (message : Answer) (q : Promise) : Promise :=
  { q with responsesReceived := q.responsesReceived ++ [message] }

/-- `taskFunctionOperationListener` and `taskFunctionOperationsListener`. -/
def Listener.run (l : Listener) (message : Answer) (s : State) : Except JsError State :=
  if s.workerNodes.length ≤ s.getWorkerNodeKeyByWorkerId message.workerId then
    .error (.error s!"Worker message received from unknown worker '{message.workerId}'")
  else
    match l with
    | .ofWorker p workerNodeKey =>
      match s.workerNodes[workerNodeKey]? with
      | none => .error .undefinedAccess
      | some n =>
        if message.workerId = n.id then
          .ok (deregisterWorkerMessageListener message.workerId l (settle p message.outcome s))
        else .ok s
    | .ofWorkers p =>
      let s := s.modifyPromise p (·.answered message)
      match s.promises[p]? with
      | none => .ok s
      | some q =>
        if q.responsesReceived.length = s.workerNodes.length then
          .ok (deregisterWorkerMessageListener message.workerId l
            (settle p (outcome q.responsesReceived message) s))
        else .ok s

/-- Runs listeners one after the other. An exception of one stops those of a cluster worker, and not those of
a message port. -/
def emit (message : Answer) : List Listener → State → State
  | [], s => s
  | l :: listeners, s =>
    match l.run message s with
    | .ok s' => emit message listeners s'
    | .error _ =>
      match s.worker with
      | .thread => emit message listeners s
      | .cluster => s

/-! ## Workers -/

/-- A worker handles its next message. -/
def Node.handle (evaluate : String → Evaluated) (notification : Option JsError) (x : Sent) (n : Node) :
    Option (TaskFunctions × Answer) :=
  (n.taskFunctions.handleTaskFunctionOperationMessage evaluate notification x.message).map fun (w, r) =>
    (w, { operation := x.operation
          workerId := n.id
          taskFunctionOperation := x.message.taskFunctionOperation
          taskFunctionOperationStatus := r.status
          taskFunctionName := x.message.taskFunctionName
          workerError := if r.status then none else r.error })

def createAndSetupWorkerNode (file : TaskFunctions) (s : State) : State :=
  { s with
    workerNodes := s.workerNodes ++
      [{ id := s.nextWorkerId
         dynamic := false
         channelOpen := true
         listeners := []
         live := true
         taskFunctions := file
         inbox := []
         outbox := [] }]
    nextWorkerId := s.nextWorkerId + 1 }

/-- The messages that tell a new dynamic worker the task functions of the pool. -/
def addMessages (taskFunctions : OrderedMap String String) : List OperationMessage :=
  taskFunctions.entries.map fun (taskFunctionName, taskFunction) => ⟨.add, taskFunctionName, some taskFunction⟩

def createAndSetupDynamicWorkerNode (file : TaskFunctions) (s : State) : State :=
  let workerNodeKey := s.workerNodes.length
  let s := (addMessages s.taskFunctions).foldl
    (fun s message => sendTaskFunctionOperationToWorker workerNodeKey message s) (createAndSetupWorkerNode file s)
  s.modifyNode workerNodeKey fun n => { n with dynamic := true }

def create (file : TaskFunctions) (dynamic : Bool) (s : State) : State :=
  if dynamic then createAndSetupDynamicWorkerNode file s else createAndSetupWorkerNode file s

/-- `closeChannel`: the worker of a channel that is closed handles no more messages. -/
def Node.closeChannel (worker : WorkerType) (n : Node) : Node :=
  match worker with
  | .thread => { n with channelOpen := false, live := false }
  | .cluster => n

/-! ## Events -/

inductive Event
  | call (c : Call)
  /-- The worker of a node handles a message; `notification` is the exception of its message of the names. -/
  | handle (workerNodeKey : Nat) (notification : Option JsError)
  | receive (workerNodeKey : Nat)
  | create (dynamic : Bool)
  /-- A worker fails, and the pool may create another in its place. -/
  | error (workerNodeKey : Nat) (restart : Bool)
  /-- A worker stops handling messages: it has been killed, or has exited. -/
  | stop (workerNodeKey : Nat)
  /-- The pool closes the channel of a worker it has destroyed. -/
  | closeChannel (workerNodeKey : Nat)
  | exit (workerNodeKey : Nat)

section Step
variable (evaluate : String → Evaluated) (file : TaskFunctions)

/-- The state after an event, if the event can happen. -/
def next (s : State) : Event → Option State
  | .call c => some (call c s)
  | .handle k notification =>
    match s.workerNodes[k]? with
    | none => none
    | some n =>
      if n.live then
        match n.inbox with
        | [] => none
        | x :: inbox =>
          match n.handle evaluate notification x with
          | none => some (s.modifyNode k fun n => { n with live := false })
          | some (w, a) =>
            some
              { s.modifyNode k fun n => { n with taskFunctions := w, inbox := inbox, outbox := n.outbox ++ [a] } with
                answers := s.answers ++ [a] }
      else none
  | .receive k =>
    match s.workerNodes[k]? with
    | none => none
    | some n =>
      if n.channelOpen then
        match n.outbox with
        | [] => none
        | a :: outbox => some (emit a n.listeners (s.modifyNode k fun n => { n with outbox := outbox }))
      else none
  | .create dynamic => some (create file dynamic s)
  | .error k restart =>
    match s.workerNodes[k]? with
    | none => none
    | some n =>
      let s := s.modifyNode k (·.closeChannel s.worker)
      some (if restart then create file n.dynamic s else s)
  | .stop k => if k < s.workerNodes.length then some (s.modifyNode k fun n => { n with live := false }) else none
  | .closeChannel k =>
    if k < s.workerNodes.length then some (s.modifyNode k (·.closeChannel s.worker)) else none
  | .exit k => if k < s.workerNodes.length then some { s with workerNodes := s.workerNodes.eraseIdx k } else none

def Step (s : State) (e : Event) (s' : State) : Prop := next evaluate file s e = some s'

/-- A pool whose workers have all started from one file, before its first operation. -/
def started (worker : WorkerType) (numberOfWorkers : Nat) : State :=
  (createAndSetupWorkerNode file)^[numberOfWorkers]
    { worker := worker
      workerNodes := []
      nextWorkerId := 0
      taskFunctions := .empty
      promises := []
      answers := [] }

end Step

/-! ## What a listener does -/

theorem modify_congr {α : Type} {f g : α → α} {l : List α} {i : Nat} (h : ∀ a, l[i]? = some a → f a = g a) :
    l.modify i f = l.modify i g := by
  apply List.ext_getElem?
  intro j
  rw [List.getElem?_modify, List.getElem?_modify]
  by_cases hij : i = j
  · subst hij
    rcases ha : l[i]? with _ | a
    · rfl
    · simp [h a ha]
  · simp [hij]

namespace Promise

/-- A promise is settled once. -/
def settle (r : Outcome) (q : Promise) : Promise := { q with settled := q.settled.or (some r) }

/-- What a listener of an operation sent to all of `n` nodes makes of its promise. -/
def receive (n : Nat) (message : Answer) (q : Promise) : Promise :=
  let q := q.answered message
  if q.responsesReceived.length = n then q.settle (outcome q.responsesReceived message) else q

theorem settle_of_pending {q : Promise} (h : q.settled = none) (r : Outcome) :
    q.settle r = { q with settled := some r } := by
  unfold settle
  rw [h]
  rfl

theorem settle_of_settled {q : Promise} (h : q.settled.isSome = true) (r : Outcome) : q.settle r = q := by
  obtain ⟨r', hr⟩ := Option.isSome_iff_exists.1 h
  unfold settle
  rw [hr, Option.some_or, ← hr]

end Promise

theorem settle_eq (p : Nat) (r : Outcome) (s : State) : ∃ taskFunctions, settle p r s =
    { s with promises := s.promises.modify p (·.settle r), taskFunctions } := by
  unfold settle
  split
  · rename_i hp
    refine ⟨s.taskFunctions, ?_⟩
    rw [List.modify_eq_self (List.getElem?_eq_none_iff.1 hp)]
  · rename_i q hp
    split
    · rename_i hq
      refine ⟨s.taskFunctions, ?_⟩
      -- a promise settles once
      have hsame : s.promises.modify p (·.settle r) = s.promises.modify p id := by
        refine modify_congr fun a ha => ?_
        rw [hp] at ha
        cases ha
        exact Promise.settle_of_settled hq r
      rw [hsame, List.modify_id]
    · rename_i hq
      refine ⟨if q.toWorkers && r = .resolved then updateOnPool q.message s.taskFunctions else s.taskFunctions, ?_⟩
      have hmod : s.promises.modify p (fun q => { q with settled := some r }) = s.promises.modify p (·.settle r) := by
        refine modify_congr fun a ha => ?_
        rw [hp] at ha
        cases ha
        exact (Promise.settle_of_pending (by simpa using hq) r).symm
      rw [← hmod]
      rfl

/-- What a listener makes of its promise, when the answer is one it does not pass over. -/
def Listener.onPromise (s : State) (message : Answer) : Listener → Promise → Promise
  | .ofWorkers _ => Promise.receive s.workerNodes.length message
  | .ofWorker _ key => if s.workerNodes[key]?.map (·.id) = some message.workerId then Promise.settle message.outcome else id

/-- A listener of the node `k` has run: its promise has changed, and where that is settled, the listener
may have been deregistered. -/
structure Ran (l : Listener) (message : Answer) (k : Nat) (s s' : State) : Prop where
  rest : s' = { s with
    workerNodes := s'.workerNodes, taskFunctions := s'.taskFunctions, promises := s'.promises }
  promises : s'.promises = s.promises.modify l.operation (l.onPromise s message)
  workerNodes : s'.workerNodes = s.workerNodes ∨
    (∀ q, s.promises[l.operation]? = some q → (l.onPromise s message q).settled.isSome = true) ∧
      s'.workerNodes = s.workerNodes.modify k fun n => { n with listeners := n.listeners.erase l }

theorem Promise.length_answered (message : Answer) (q : Promise) :
    (q.answered message).responsesReceived.length = q.responsesReceived.length + 1 := List.length_append ..

theorem Promise.length_receive (n : Nat) (message : Answer) (q : Promise) :
    (q.receive n message).responsesReceived.length = q.responsesReceived.length + 1 := by
  unfold receive
  dsimp only
  split
  · exact length_answered message q
  · exact length_answered message q

/-- A promise goes on waiting for answers. -/
theorem Promise.receive_of_ne {n : Nat} {message : Answer} {q : Promise} (h : q.responsesReceived.length + 1 ≠ n) :
    q.receive n message = q.answered message :=
  if_neg fun heq => h ((length_answered message q).symm.trans heq)

theorem Promise.settled_settle (r : Outcome) (q : Promise) : (q.settle r).settled.isSome = true := by
  unfold settle
  cases q.settled <;> rfl

section Listener
variable {s : State} {message : Answer} {k : Nat}

/-- A promise is settled, and its listener taken off the node `k`. -/
theorem workerNodes_deregister (hk : s.getWorkerNodeKeyByWorkerId message.workerId = k) (p : Nat) (r : Outcome)
    (l : Listener) : (deregisterWorkerMessageListener message.workerId l (settle p r s)).workerNodes =
      s.workerNodes.modify k fun n => { n with listeners := n.listeners.erase l } := by
  obtain ⟨taskFunctions, hsettle⟩ := settle_eq p r s
  rw [hsettle, deregisterWorkerMessageListener, State.modifyNode]
  have hkey : State.getWorkerNodeKeyByWorkerId { s with
      promises := s.promises.modify p (·.settle r), taskFunctions } message.workerId = k := hk
  rw [hkey]

theorem promise_answered (message : Answer) (p : Nat) (s : State) :
    (s.modifyPromise p (Promise.answered message)).promises[p]? = s.promises[p]?.map (Promise.answered message) := by
  rw [State.modifyPromise, List.getElem?_modify_eq]
  rfl

theorem run_ofWorker (p key : Nat) (hk : s.getWorkerNodeKeyByWorkerId message.workerId = k)
    (hlt : k < s.workerNodes.length) :
    (∃ s', (Listener.ofWorker p key).run message s = .ok s' ∧ Ran (.ofWorker p key) message k s s') ∨
      s.workerNodes.length ≤ key ∧ ∃ e, (Listener.ofWorker p key).run message s = .error e := by
  unfold Listener.run
  rw [if_neg (by omega)]
  dsimp only
  rcases hn : s.workerNodes[key]? with _ | n
  · exact .inr ⟨List.getElem?_eq_none_iff.1 hn, .undefinedAccess, rfl⟩
  · left
    dsimp only
    obtain ⟨taskFunctions, hsettle⟩ := settle_eq p message.outcome s
    split
    · rename_i hid
      have hmatch : Listener.onPromise s message (.ofWorker p key) = Promise.settle message.outcome := by
        simp [Listener.onPromise, hn, hid]
      refine ⟨_, rfl, ?_, ?_, .inr ⟨fun q _ => ?_, ?_⟩⟩
      · rw [hsettle]
        rfl
      · rw [hsettle, hmatch]
        rfl
      · rw [hmatch]
        exact Promise.settled_settle _ q
      · exact workerNodes_deregister hk p _ _
    · rename_i hid
      have hmatch : Listener.onPromise s message (.ofWorker p key) = id := by
        simp [Listener.onPromise, hn, Ne.symm hid]
      refine ⟨s, rfl, rfl, ?_, .inl rfl⟩
      rw [hmatch, List.modify_id]

theorem modify_receive {p : Nat} {q : Promise} (hq : s.promises[p]? = some q) {f : Promise → Promise}
    (hf : f q = Promise.receive s.workerNodes.length message q) :
    s.promises.modify p f = s.promises.modify p (Promise.receive s.workerNodes.length message) := by
  refine modify_congr fun a ha => ?_
  rw [hq] at ha
  cases ha
  exact hf

theorem run_ofWorkers (p : Nat) (hk : s.getWorkerNodeKeyByWorkerId message.workerId = k)
    (hlt : k < s.workerNodes.length) :
    ∃ s', (Listener.ofWorkers p).run message s = .ok s' ∧ Ran (.ofWorkers p) message k s s' := by
  unfold Listener.run
  rw [if_neg (by omega)]
  dsimp only
  rw [promise_answered]
  rcases hq : s.promises[p]? with _ | q
  · have hle : s.promises.length ≤ p := List.getElem?_eq_none_iff.1 hq
    refine ⟨s.modifyPromise p (Promise.answered message), rfl, rfl, ?_, .inl rfl⟩
    rw [State.modifyPromise, List.modify_eq_self hle, Listener.operation, List.modify_eq_self hle]
  · rw [Option.map_some]
    dsimp only
    split
    · rename_i hlast
      have hreceived : Promise.receive s.workerNodes.length message q =
          (q.answered message).settle (outcome (q.answered message).responsesReceived message) := if_pos hlast
      generalize outcome (q.answered message).responsesReceived message = r at hreceived
      obtain ⟨taskFunctions, hsettle⟩ := settle_eq p r (s.modifyPromise p (Promise.answered message))
      refine ⟨_, rfl, ?_, ?_, .inr ⟨fun a ha => ?_, ?_⟩⟩
      · rw [hsettle]
        rfl
      · rw [hsettle]
        exact (List.modify_modify_eq ..).trans (modify_receive hq hreceived.symm)
      · rw [Listener.operation, hq] at ha
        cases ha
        rw [Listener.onPromise, hreceived]
        exact Promise.settled_settle _ _
      · exact workerNodes_deregister (s := s.modifyPromise p (Promise.answered message)) hk p r _
    · rename_i hlast
      have hreceived : Promise.receive s.workerNodes.length message q = q.answered message := if_neg hlast
      exact ⟨_, rfl, rfl, modify_receive hq hreceived.symm, .inl rfl⟩

/-- A listener runs, or has a key that is out of range. -/
theorem Listener.run_cases (l : Listener) (hk : s.getWorkerNodeKeyByWorkerId message.workerId = k)
    (hlt : k < s.workerNodes.length) : (∃ s', l.run message s = .ok s' ∧ Ran l message k s s') ∨
      (∃ p key, l = .ofWorker p key ∧ s.workerNodes.length ≤ key) ∧ ∃ e, l.run message s = .error e := by
  cases l with
  | ofWorker p key =>
    refine (run_ofWorker p key hk hlt).imp id fun h => ?_
    exact ⟨⟨p, key, rfl, h.1⟩, h.2⟩
  | ofWorkers p => exact .inl (run_ofWorkers p hk hlt)

end Listener

end Operations

end Poolifier
