import Poolifier.FunctionUsage
import Poolifier.TaskReplies
/-!
# What the replies of a worker carry

The reply to a task that has not failed carries its performance, under the name
of the task; the reply to one that has failed carries an error, and nothing
under the name. So the events that the theorem about task function usage admits
are those that workers cause.
-/

namespace Poolifier

open RunLib CatchLib

namespace AbstractWorker

section Fields
variable {V : Type} {rt : Runtime V} {type : WorkerType} {s s' : State V} {task : Task V}

/-- A message with the fields of a reply to the task. -/
structure Carries (task : Task V) (m : MessageValue V) : Prop where
  taskId : m.taskId = task.taskId
  fields : m.workerError.isNone = true ∧ m.taskPerformance.map (·.name) = some (task.name.getD defaultTaskName) ∨
    m.workerError.isSome = true ∧ m.taskPerformance.isNone = true

/-- Between the two states only replies to the task have been sent, and only its function started. -/
structure Serves (task : Task V) (s s' : State V) : Prop where
  received : s'.received = s.received
  sent : ∃ messages, s'.sent = s.sent ++ messages ∧ ∀ m ∈ messages, Carries task m
  running : ∃ started, s'.running = s.running ++ started ∧
    ∀ r ∈ started, r.task = task ∧ r.taskPerformance.name = task.name.getD defaultTaskName

theorem Serves.of_same (hreceived : s'.received = s.received) (hsent : s'.sent = s.sent) (hrunning : s'.running = s.running) :
    Serves task s s' := by
  refine ⟨hreceived, ⟨[], ?_, List.forall_mem_nil _⟩, ⟨[], ?_, List.forall_mem_nil _⟩⟩
  · rw [hsent, List.append_nil]
  · rw [hrunning, List.append_nil]

theorem Serves.refl (s : State V) : Serves task s s := .of_same rfl rfl rfl

theorem Serves.trans {s'' : State V} (h : Serves task s s') (h' : Serves task s' s'') : Serves task s s'' := by
  obtain ⟨ms, hs, hms⟩ := h.sent
  obtain ⟨ms', hs', hms'⟩ := h'.sent
  obtain ⟨rs, hr, hrs⟩ := h.running
  obtain ⟨rs', hr', hrs'⟩ := h'.running
  refine ⟨h'.received.trans h.received, ⟨ms ++ ms', ?_, fun m hm => ?_⟩, ⟨rs ++ rs', ?_, fun r hr => ?_⟩⟩
  · rw [hs', hs, List.append_assoc]
  · exact (List.mem_append.1 hm).elim (hms m) (hms' m)
  · rw [hr', hr, List.append_assoc]
  · exact (List.mem_append.1 hr).elim (hrs r) (hrs' r)

theorem serves_trans (s s' s'' : State V) (h : Serves task s s') (h' : Serves task s' s'') : Serves task s s'' := h.trans h'

/-! ## The code -/

theorem serves_ofExcept {α : Type} (x : Except V α) : Keeps (Serves task) (fun _ => True) (ofExcept x : WorkerM V α) := by
  cases x with
  | ok a => exact keeps_pure .refl trivial
  | error e => exact keeps_throw .refl e

theorem serves_sendToMainWorker {m : MessageValue V} (h : Carries task m) :
    Keeps (Serves task) (fun _ => True) (sendToMainWorker rt m) := by
  refine (serves_ofExcept _).bind serves_trans fun _ _ => keeps_modify fun s => ?_
  refine ⟨rfl, ⟨[m], rfl, fun m' hm' => ?_⟩, ⟨[], (List.append_nil _).symm, List.forall_mem_nil _⟩⟩
  rw [List.mem_singleton.1 hm']
  exact h

theorem serves_sendError (data error : V) :
    Keeps (Serves task) (fun _ => True) (sendError rt type task data error) := by
  have hhandle : Keeps (Serves task) (fun _ => True) (handleError rt type error) := by
    cases type with
    | thread => exact keeps_pure .refl trivial
    | cluster =>
      refine (serves_ofExcept _).bind serves_trans fun b _ => ?_
      cases b with
      | true => exact serves_ofExcept _
      | false => exact keeps_pure .refl trivial
  exact hhandle.bind serves_trans fun message _ => serves_sendToMainWorker ⟨rfl, .inr ⟨rfl, rfl⟩⟩

theorem serves_checkStatistics : Keeps (Serves task) (fun _ => True) (checkStatistics rt) := by
  refine (keeps_get .refl).bind serves_trans fun s _ => ?_
  split
  · exact keeps_throw .refl _
  · exact keeps_pure .refl trivial

theorem serves_beginTaskPerformance (clock : Clock) (name : Option String) :
    Keeps (Serves task) (fun p => p.name = name.getD defaultTaskName) (beginTaskPerformance rt clock name) :=
  serves_checkStatistics.bind serves_trans fun _ _ => keeps_pure .refl rfl

theorem serves_endTaskPerformance (clock : Clock) (taskPerformance : TaskPerformance) :
    Keeps (Serves task) (fun p => p.name = taskPerformance.name) (endTaskPerformance rt clock taskPerformance) :=
  serves_checkStatistics.bind serves_trans fun _ _ => keeps_pure .refl rfl

theorem serves_updateLastTaskTimestamp (clock : Clock) :
    Keeps (Serves task) (fun _ => True) (updateLastTaskTimestamp clock : WorkerM V Unit) := by
  refine keeps_modify fun s => ?_
  split
  · exact .of_same rfl rfl rfl
  · exact .refl s

/-- The end of both `try` blocks: the result is sent with the performance. -/
theorem serves_sendResult {taskPerformance : TaskPerformance} (hname : taskPerformance.name = task.name.getD defaultTaskName)
    (res : V) (stop : Clock) : Keeps (Serves task) (fun _ => True) (do
      let taskPerformance ← endTaskPerformance rt stop taskPerformance
      sendToMainWorker rt ⟨task.taskId, some res, none, some taskPerformance⟩) := by
  refine (serves_endTaskPerformance stop taskPerformance).bind serves_trans fun p hp => ?_
  exact serves_sendToMainWorker ⟨rfl, .inl ⟨rfl, congrArg some (hp.trans hname)⟩⟩

theorem serves_runSync (fn : TaskFunction V) (start stop : Clock) :
    Keeps (Serves task) (fun _ => True) (runSync rt type fn task start stop) := by
  refine Keeps.finally serves_trans (Keeps.tryCatch serves_trans ?_ fun e => ?_) (serves_updateLastTaskTimestamp stop)
  · refine (serves_beginTaskPerformance start task.name).bind serves_trans fun p hp => ?_
    exact (serves_ofExcept _).bind serves_trans fun res _ => serves_sendResult hp res stop
  · exact (keeps_get .refl).bind serves_trans fun _ _ => serves_sendError _ e

theorem serves_runAsync (fn : TaskFunction V) (start : Clock) :
    Keeps (Serves task) (fun _ => True) (runAsync rt fn task start) := by
  refine (serves_beginTaskPerformance start task.name).bind serves_trans fun p hp => keeps_modify fun s => ?_
  refine ⟨rfl, ⟨[], (List.append_nil _).symm, List.forall_mem_nil _⟩, ⟨_, rfl, fun r hr => ?_⟩⟩
  rw [List.mem_singleton.1 hr]
  exact ⟨rfl, hp⟩

theorem serves_run (task : Task V) (start stop : Clock) :
    Keeps (Serves task) (fun _ => True) (run rt type task start stop) := by
  refine (keeps_get .refl).bind serves_trans fun s _ => ?_
  rcases s.taskFunctions (task.name.getD defaultTaskName) with _ | fn
  · exact serves_sendToMainWorker ⟨rfl, .inr ⟨rfl, rfl⟩⟩
  · dsimp only
    split
    · exact serves_runAsync fn start
    · exact serves_runSync fn start stop

theorem serves_messageListener (task : Task V) (start stop : Clock) :
    Keeps (Serves task) (fun _ => True) (messageListener rt type task start stop) := by
  unfold messageListener
  split
  · exact keeps_pure .refl trivial
  · exact serves_run task start stop

theorem serves_settle {r : Running V} (hname : r.taskPerformance.name = r.task.name.getD defaultTaskName) (stop : Clock) :
    Keeps (Serves r.task) (fun _ => True) (settle rt type r stop) := by
  refine Keeps.tryCatch serves_trans (Keeps.finally serves_trans (Keeps.tryCatch serves_trans ?_ fun e => ?_)
    (serves_updateLastTaskTimestamp stop)) fun _ => keeps_pure .refl trivial
  · exact (serves_ofExcept _).bind serves_trans fun res _ => serves_sendResult hname res stop
  · exact serves_sendError r.data e

/-! ## Every run -/

/-- What has been sent are replies to tasks received, and the functions that run carry the names of their tasks. -/
structure Carrying (s : State V) : Prop where
  sent : ∀ m ∈ s.sent, ∃ x ∈ s.received, Carries x.task m
  running : ∀ r ∈ s.running, (∃ x ∈ s.received, x.task = r.task) ∧
    r.taskPerformance.name = r.task.name.getD defaultTaskName

theorem Carrying.of_serves (h : Carrying s) (hserves : Serves task s s') (hreceived : ∃ x ∈ s.received, x.task = task) :
    Carrying s' := by
  obtain ⟨x, hx, hxtask⟩ := hreceived
  obtain ⟨ms, hs, hms⟩ := hserves.sent
  obtain ⟨rs, hr, hrs⟩ := hserves.running
  refine ⟨fun m hm => ?_, fun r hr' => ?_⟩
  · rw [hserves.received]
    rw [hs] at hm
    rcases List.mem_append.1 hm with hm | hm
    · exact h.sent m hm
    · exact ⟨x, hx, hxtask ▸ hms m hm⟩
  · rw [hserves.received]
    rw [hr] at hr'
    rcases List.mem_append.1 hr' with hr' | hr'
    · exact h.running r hr'
    · obtain ⟨htask, hname⟩ := hrs r hr'
      exact ⟨⟨x, hx, hxtask.trans htask.symm⟩, htask ▸ hname⟩

/-- An exception that ends the worker changes nothing else. -/
theorem Carrying.ended {m : WorkerM V Unit} (h : Carrying s) (hm : Keeps (Serves task) (fun _ => True) m)
    (hreceived : ∃ x ∈ s.received, x.task = task) (id : Nat) : Carrying (State.ended id (m s)) := by
  rcases hr : m s with ⟨⟨⟩, s'⟩ | ⟨e, s'⟩
  · exact h.of_serves (hm.1 s () s' hr).1 hreceived
  · have h' := h.of_serves (hm.2 s e s' hr) hreceived
    exact ⟨h'.sent, h'.running⟩

/-- A message has been received. -/
theorem Carrying.receive (h : Carrying s) (x : Received V) : Carrying { s with received := s.received ++ [x] } := by
  refine ⟨fun m hm => ?_, fun r hr => ?_⟩
  · obtain ⟨y, hy, hc⟩ := h.sent m hm
    exact ⟨y, List.mem_append_left _ hy, hc⟩
  · obtain ⟨⟨y, hy, hytask⟩, hname⟩ := h.running r hr
    exact ⟨⟨y, List.mem_append_left _ hy, hytask⟩, hname⟩

theorem Carrying.stopped (h : Carrying s) (i taskId : Nat) : Carrying (s.stopped i taskId) :=
  ⟨h.sent, fun r hr => h.running r (List.mem_of_mem_eraseIdx hr)⟩

theorem Carrying.step {e : Event V} (h : Carrying s) (ht : Step rt type s e s') : Carrying s' := by
  cases (does_of_step ht).2.2 with
  | told _ _ htold =>
    refine ⟨?_, ?_⟩
    · rw [htold.sent, htold.received]
      exact h.sent
    · rw [htold.running, htold.received]
      exact h.running
  | @task task start stop _ =>
    exact (h.receive (s.receives task)).ended (serves_messageListener task start stop)
      ⟨_, List.mem_append_right _ List.mem_cons_self, rfl⟩ _
  | settle stop hr =>
    obtain ⟨hreceived, hname⟩ := h.running _ (List.mem_of_getElem? hr)
    exact (h.stopped _ _).ended (serves_settle hname stop) hreceived _
  | @cut i r _ _ _ =>
    have hstopped := h.stopped i r.task.taskId
    exact ⟨hstopped.sent, hstopped.running⟩
  | stray _ _ => exact ⟨h.sent, h.running⟩

/-- Every message that a worker has sent about tasks has the fields of a reply to one that it has received. -/
theorem sent_carries {taskFunctions : String → Option (TaskFunction V)} {es : List (Event V)}
    (hr : Run (Step rt type) (created taskFunctions) es s) : ∀ m ∈ s.sent, ∃ x ∈ s.received, Carries x.task m := by
  have hrun := hr.inv Carrying ⟨List.forall_mem_nil _, List.forall_mem_nil _⟩ fun s e s' h ht => h.step ht
  exact hrun.sent

/-- A task of the pool, as its worker receives it: the data are a copy. -/
def received (rt : Runtime V) (t : Poolifier.Task V) : Task V := ⟨some t.name, t.taskId, rt.copy t.data⟩

/-- A message as the pool receives it, a copy; `text` turns the message of an error into a string. -/
def MessageValue.response (rt : Runtime V) (text : V → String) (m : MessageValue V) : TaskResponse V where
  taskId := m.taskId
  data := m.data.map rt.copy
  workerError := m.workerError.map fun e => ⟨e.name.getD "undefined", text (rt.copy e.message)⟩
  taskPerformance := m.taskPerformance

/-- The pool receives replies to the tasks it has posted. -/
theorem Carries.replies {t : Poolifier.Task V} {m : MessageValue V} (h : Carries (received rt t) m) (text : V → String) :
    (m.response rt text).taskId = t.taskId ∧ Replies t (m.response rt text) := by
  refine ⟨h.taskId, h.fields.imp (fun hdone => ⟨?_, hdone.2⟩) fun hfailed => ⟨?_, hfailed.2⟩⟩
  · simpa [MessageValue.response] using hdone.1
  · simpa [MessageValue.response] using hfailed.1

end Fields

end AbstractWorker

end Poolifier
