import Poolifier.Places
/-!
# Queues without callbacks

A node on which no stealing callback is installed is a queue and a worker, and
nothing else: each operation on it changes that node in one step, and calls
nothing back. The lemmas here say what the step is.
-/

namespace Poolifier

open EffLib WorkerNode

variable {Data Response : Type}

/-- No callback is installed on the node. -/
def Plain (n : WorkerNode Data) : Prop := n.onEmptyQueue = false ∧ n.onBackPressure = false

instance (n : WorkerNode Data) : Decidable (Plain n) := inferInstanceAs (Decidable (_ ∧ _))

theorem Plain.of_sameSetup {n n' : WorkerNode Data} (h : Plain n) (hs : SameSetup n n') : Plain n' :=
  ⟨hs.onEmptyQueue.trans h.1, hs.onBackPressure.trans h.2⟩

theorem Answered.plain {m : TaskResponse Response} {j k i : Nat} {n n' : WorkerNode Data} (h : Answered m j k i n n')
    (hn : Plain n) : Plain n' :=
  ⟨h.onEmptyQueue.trans hn.1, h.onBackPressure.trans hn.2⟩

/-! ## What the operations make of a node -/

/-- The node after `executeOrEnqueueTask`: it starts the task, or queues it. -/
def Pool.acceptTask (p : Pool Data Response) (t : Task Data) (n : WorkerNode Data) : WorkerNode Data :=
  if p.shallExecute n then p.startTask t n else { n with tasksQueue := n.tasksQueue ++ [t] }

/-- The node after `executeNextTask`, when it is below its quota: the first task that waits is started. -/
def Pool.nextTask (p : Pool Data Response) (n : WorkerNode Data) : WorkerNode Data :=
  match n.tasksQueue with
  | [] => n
  | t :: q => p.startTask t { n with tasksQueue := q }

/-- The node after `executeNextTask`: below its quota it takes the next task. -/
def Pool.refill (p : Pool Data Response) (n : WorkerNode Data) : WorkerNode Data :=
  if p.belowConcurrency n then p.nextTask n else n

section Counts
variable (p : Pool Data Response) {n : WorkerNode Data} (h : n.usage.tasks.executing = n.worker.unanswered.length)
include h

theorem acceptTask_counts (t : Task Data) :
    (p.acceptTask t n).usage.tasks.executing = (p.acceptTask t n).worker.unanswered.length := by
  unfold Pool.acceptTask
  split
  · exact startTask_counts p t n h
  · exact h

theorem refill_counts : (p.refill n).usage.tasks.executing = (p.refill n).worker.unanswered.length := by
  unfold Pool.refill Pool.nextTask
  split
  · split
    · exact h
    · exact startTask_counts p _ _ h
  · exact h

end Counts

theorem sameSetup_startTask (p : Pool Data Response) (t : Task Data) (n : WorkerNode Data) :
    SameSetup n (p.startTask t n) :=
  (sameSetup_beforeTaskExecution _ _ _ n).trans (sameSetup_receive _ t)

theorem sameSetup_acceptTask (p : Pool Data Response) (t : Task Data) (n : WorkerNode Data) :
    SameSetup n (p.acceptTask t n) := by
  unfold Pool.acceptTask
  split
  · exact sameSetup_startTask p t n
  · exact sameSetup_of_queue n _

theorem sameSetup_nextTask (p : Pool Data Response) (n : WorkerNode Data) : SameSetup n (p.nextTask n) := by
  unfold Pool.nextTask
  split
  · exact .refl n
  · exact (sameSetup_of_queue n _).trans (sameSetup_startTask p _ _)

theorem sameSetup_refill (p : Pool Data Response) (n : WorkerNode Data) : SameSetup n (p.refill n) := by
  unfold Pool.refill
  split
  · exact sameSetup_nextTask p n
  · exact .refl n

theorem held_acceptTask (p : Pool Data Response) (t : Task Data) (n : WorkerNode Data) :
    (p.acceptTask t n).held = n.held + {t} := by
  unfold Pool.acceptTask
  split
  · rw [Pool.startTask, held_receive, held_beforeTaskExecution]
  · exact held_push n t

theorem held_nextTask (p : Pool Data Response) (n : WorkerNode Data) : (p.nextTask n).held = n.held := by
  unfold Pool.nextTask
  split
  · rfl
  · rename_i t q hq
    rw [Pool.startTask, held_receive, held_beforeTaskExecution, held_tail hq, hq]
    rfl

theorem held_refill (p : Pool Data Response) (n : WorkerNode Data) : (p.refill n).held = n.held := by
  unfold Pool.refill
  split
  · exact held_nextTask p n
  · rfl

/-! ## The operations -/

section Code
variable {cb : Callbacks Data Response} {s : Pool Data Response} {k : Nat} {n : WorkerNode Data} {t : Task Data}

/-- A task that causes no back pressure, or on a node that does not call back, is only put on the queue. -/
theorem enqueueTask_quiet (hn : s.workerNodes[k]? = some n)
    (hquiet : n.onBackPressure = false ∨ { n with tasksQueue := n.tasksQueue ++ [t] }.hasBackPressure = false) :
    enqueueTask cb k t s = some (.ok (), s.modifyNode k fun m => { m with tasksQueue := m.tasksQueue ++ [t] }) := by
  have hn' := Pool.getElem?_modifyNode_self (fun m => { m with tasksQueue := m.tasksQueue ++ [t] }) hn
  have hcond : ¬ (n.onBackPressure && { n with tasksQueue := n.tasksQueue ++ [t] }.hasBackPressure &&
      !n.onBackPressureStarted) = true := by
    rcases hquiet with hoff | hcalm
    · simp [hoff]
    · simp [hcalm]
  unfold enqueueTask
  rw [nodeAt_bind hn]
  show (nodeAt k >>= _) (s.modifyNode k fun m => { m with tasksQueue := m.tasksQueue ++ [t] }) = _
  rw [nodeAt_bind hn', if_neg hcond]
  rfl

/-- Nothing follows the taking of a task where no empty queue callback is installed, or the queue is not empty. -/
theorem afterTaken_quiet (hn : s.workerNodes[k]? = some n) (hquiet : n.onEmptyQueue = false ∨ n.tasksQueue ≠ []) :
    afterTaken cb k s = some (.ok (), s) := by
  unfold afterTaken
  rw [nodeAt_bind hn, if_neg]
  · rfl
  · rcases hquiet with hoff | hne
    · simp [hoff]
    · simp [hne]

theorem dequeueTask_plain (hn : s.workerNodes[k]? = some n) (hoff : n.onEmptyQueue = false) :
    dequeueTask cb k s =
      some (.ok n.tasksQueue.head?, s.modifyNode k fun m => { m with tasksQueue := m.tasksQueue.tail }) := by
  have hn' := Pool.getElem?_modifyNode_self (fun m => { m with tasksQueue := m.tasksQueue.tail }) hn
  unfold dequeueTask
  rw [nodeAt_bind hn]
  show (afterTaken cb k >>= _) (s.modifyNode k fun m => { m with tasksQueue := m.tasksQueue.tail }) = _
  rw [bind_ok (afterTaken_quiet hn' (.inl hoff))]
  rfl

theorem popTask_plain (hn : s.workerNodes[k]? = some n) (hoff : n.onEmptyQueue = false) :
    popTask cb k s =
      some (.ok n.tasksQueue.getLast?, s.modifyNode k fun m => { m with tasksQueue := m.tasksQueue.dropLast }) := by
  have hn' := Pool.getElem?_modifyNode_self (fun m => { m with tasksQueue := m.tasksQueue.dropLast }) hn
  unfold popTask
  rw [nodeAt_bind hn]
  show (afterTaken cb k >>= _) (s.modifyNode k fun m => { m with tasksQueue := m.tasksQueue.dropLast }) = _
  rw [bind_ok (afterTaken_quiet hn' (.inl hoff))]
  rfl

theorem shallExecuteTask_eq (hn : s.workerNodes[k]? = some n) :
    shallExecuteTask k s = some (.ok (s.shallExecute n), s) := by
  unfold shallExecuteTask
  rw [nodeAt_bind hn, get_bind]
  rfl

theorem executeOrEnqueueTask_quiet (hn : s.workerNodes[k]? = some n)
    (hquiet : n.onBackPressure = false ∨ { n with tasksQueue := n.tasksQueue ++ [t] }.hasBackPressure = false)
    (hsend : s.shallExecute n = true → s.canSend n t = true) :
    executeOrEnqueueTask cb k t s = some (.ok (), s.modifyNode k fun _ => s.acceptTask t n) := by
  unfold executeOrEnqueueTask Pool.acceptTask
  rw [bind_ok (shallExecuteTask_eq hn)]
  by_cases hs : s.shallExecute n = true
  · rw [if_pos hs, executeTask_eq hn (hsend hs)]
    rw [Pool.modifyNode_congr (g := fun _ => s.startTask t n) hn rfl]
    simp only [hs, if_true]
  · rw [if_neg hs, enqueueTask_quiet hn hquiet]
    rw [Pool.modifyNode_congr (g := fun _ => { n with tasksQueue := n.tasksQueue ++ [t] }) hn rfl]
    simp only [hs]
    rfl

theorem executeOrEnqueueTask_plain (hn : s.workerNodes[k]? = some n) (hoff : n.onBackPressure = false)
    (hsend : s.shallExecute n = true → s.canSend n t = true) :
    executeOrEnqueueTask cb k t s = some (.ok (), s.modifyNode k fun _ => s.acceptTask t n) :=
  executeOrEnqueueTask_quiet hn (.inl hoff) hsend

theorem executeOrEnqueueTask_plain_error (cb : Callbacks Data Response) (hn : s.workerNodes[k]? = some n)
    (hs : s.shallExecute n = true) (hsend : s.canSend n t = false) :
    ∃ e s', executeOrEnqueueTask cb k t s = some (.error e, s') := by
  obtain ⟨e, he⟩ := executeTask_error hn hsend
  unfold executeOrEnqueueTask
  rw [bind_ok (shallExecuteTask_eq hn), if_pos hs, he]
  exact ⟨_, _, rfl⟩

/-- The first task that waits is started, whatever the quota is. -/
theorem dequeueThen_plain {q : List (Task Data)} (hn : s.workerNodes[k]? = some n) (hoff : n.onEmptyQueue = false)
    (hq : n.tasksQueue = t :: q) (hsend : s.canSend n t = true) :
    dequeueThen cb k (executeTask k) s = some (.ok (), s.modifyNode k fun _ => s.nextTask n) := by
  have hnext : s.nextTask n = s.startTask t { n with tasksQueue := q } := by
    unfold Pool.nextTask
    rw [hq]
  have hn' := Pool.getElem?_modifyNode_self (fun m => { m with tasksQueue := m.tasksQueue.tail }) hn
  unfold dequeueThen
  rw [bind_ok (dequeueTask_plain hn hoff), hq]
  show executeTask k t _ = _
  rw [executeTask_eq hn' hsend, Pool.modifyNode_modifyNode, hnext]
  rw [Pool.modifyNode_congr (g := fun _ => s.startTask t { n with tasksQueue := q }) hn ?_]
  rw [hq]
  rfl

theorem executeNextTask_refill (hn : s.workerNodes[k]? = some n) (hoff : n.onEmptyQueue = false)
    (hq : s.opts.enableTasksQueue = true) (hsend : ∀ t, s.canSend n t = true) :
    executeNextTask cb k s = some (.ok (), s.modifyNode k fun _ => s.refill n) := by
  unfold executeNextTask
  rw [get_bind, if_pos hq, nodeAt_bind hn]
  by_cases hbelow : s.belowConcurrency n = true
  · have hrefill : s.refill n = s.nextTask n := if_pos hbelow
    rw [hrefill]
    rcases hcons : n.tasksQueue with _ | ⟨t, q⟩
    · have hnext : s.nextTask n = n := by
        unfold Pool.nextTask
        rw [hcons]
      rw [if_neg (by simp), Pool.modifyNode_fixed (f := fun _ => s.nextTask n) hn hnext]
      rfl
    · rw [if_pos (by simp [hbelow])]
      exact dequeueThen_plain hn hoff hcons (hsend t)
  · have hrefill : s.refill n = n := if_neg hbelow
    rw [if_neg (by simp [hbelow]), Pool.modifyNode_fixed (f := fun _ => s.refill n) hn hrefill]
    rfl

theorem executeNextTask_plain (hn : s.workerNodes[k]? = some n) (hoff : n.onEmptyQueue = false)
    (hq : s.opts.enableTasksQueue = true) (hbelow : s.belowConcurrency n = true)
    (hsend : ∀ t, s.canSend n t = true) :
    executeNextTask cb k s = some (.ok (), s.modifyNode k fun _ => s.nextTask n) := by
  have hrefill : s.refill n = s.nextTask n := if_pos hbelow
  rw [executeNextTask_refill hn hoff hq hsend, hrefill]

/-- With the queue enabled, a task that is dispatched is started or queued. -/
theorem dispatchTask_plain (hn : s.workerNodes[k]? = some n) (hoff : n.onBackPressure = false)
    (hq : s.opts.enableTasksQueue = true) (hsend : s.canSend n t = true) :
    dispatchTask cb k t s = some (.ok (), s.modifyNode k fun _ => s.acceptTask t n) := by
  unfold dispatchTask
  rw [get_bind, if_pos hq]
  exact executeOrEnqueueTask_plain hn hoff fun _ => hsend

end Code

end Poolifier
