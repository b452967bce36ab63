import Poolifier.Lib.Catch
import Poolifier.TaskWorker
/-!
# The replies of a worker

The reply to a task is sent from inside the `try` block, or the promise chain,
whose failure path sends an error instead. So what is sent is what the function
returned, if it can be cloned, or else the error, if that can (`Received.reply`);
if not, a synchronous function leaves an uncaught exception, and an asynchronous
one nothing.
-/

namespace Poolifier

open RunLib CatchLib

namespace AbstractWorker

/-! ## When a task gets its reply -/

section Reply
variable {V : Type} (rt : Runtime V) (type : WorkerType)

/-- What `handleError` makes of an error. -/
def errorMessage (error : V) : Except V V := do
  match type with
  | .thread => pure error
  | .cluster => if ← rt.instanceofError error then rt.readMessage error else pure error

/-- The channel can clone what is sent of an error, and the data sent with it. -/
def ErrorReplies (data error : V) : Prop :=
  ∃ message, errorMessage rt type error = .ok message ∧ rt.clone message = .ok () ∧ rt.clone data = .ok ()

/-- What a function returned can be cloned; or else the error can be sent. -/
def OutcomeReplies (outcome : Except V V) (data : V) : Prop :=
  match outcome with
  | .ok res => rt.clone res = .ok () ∨ ∃ e, rt.clone res = .error e ∧ ErrorReplies rt type data e
  | .error e => ErrorReplies rt type data e

/-- A task with data, whose function leaves nothing behind, and whose reply can be cloned. -/
def Received.Answerable (x : Received V) : Prop :=
  rt.isNullish x.task.data = false ∧ x.strays rt = false ∧
    match x.fn with
    | none => rt.clone x.task.data = .ok ()
    | some fn => OutcomeReplies rt type (fn.call x.task.data) (fn.leaves x.task.data)

/-- The error that is sent of a task, if it can be sent. -/
def errorReply (task : Task V) (data error : V) : Option (WorkerError V) :=
  (do
    let message ← errorMessage rt type error
    rt.clone message
    rt.clone data
    pure ⟨task.name, message, data⟩ : Except V (WorkerError V)).toOption

/-- What is sent of a task whose function has come to an end. -/
def outcomeReply (task : Task V) (outcome : Except V V) (data : V) : Option (Except (WorkerError V) V) :=
  match outcome with
  | .error e => (errorReply rt type task data e).map .error
  | .ok res =>
    match rt.clone res with
    | .ok _ => some (.ok res)
    | .error e => (errorReply rt type task data e).map .error

/-- What is sent of a task whose function is not known. -/
def notFoundReply (task : Task V) : Option (Except (WorkerError V) V) :=
  match rt.clone task.data with
  | .ok _ =>
    let name := task.name.getD "undefined"
    some (.error ⟨task.name, rt.ofString s!"Task function '{name}' not found", task.data⟩)
  | .error _ => none

/-- What is sent of a function that is called without the statistics set. -/
def unsetReply (fn : TaskFunction V) (task : Task V) : Option (Except (WorkerError V) V) :=
  if fn.isAsyncFunction then none
  else
    (errorReply rt type task task.data (rt.ofError (.error "Performance statistics computation requirements not set"))).map
      .error

/-- What the reply to a task says, if there is one. -/
def Received.reply (x : Received V) : Option (Except (WorkerError V) V) :=
  if rt.isNullish x.task.data then none
  else
    match x.fn with
    | none => notFoundReply rt x.task
    | some fn =>
      if x.statistics then outcomeReply rt type x.task (fn.call x.task.data) (fn.leaves x.task.data)
      else unsetReply rt type fn x.task

/-- The message says that the task has come to this end. -/
def MessageValue.Says (m : MessageValue V) : Except (WorkerError V) V → Prop
  | .ok res => m.data = some res ∧ m.workerError = none
  | .error e => m.data = none ∧ m.workerError = some e

theorem errorReply_isSome (task : Task V) (data error : V) :
    (errorReply rt type task data error).isSome = true ↔ ErrorReplies rt type data error := by
  unfold errorReply ErrorReplies
  rcases hm : errorMessage rt type error with e | message
  · exact ⟨nofun, fun h => by obtain ⟨message, heq, -⟩ := h; cases heq⟩
  · rcases hc : rt.clone message with e | _
    · simp [hc, Except.toOption, bind, Except.bind]
    · rcases hd : rt.clone data with e | _ <;>
        simp [hc, Except.toOption, bind, Except.bind, pure, Except.pure]

theorem outcomeReply_isSome (task : Task V) (outcome : Except V V) (data : V) :
    (outcomeReply rt type task outcome data).isSome = true ↔ OutcomeReplies rt type outcome data := by
  unfold outcomeReply OutcomeReplies
  rcases outcome with e | res
  · simpa using errorReply_isSome rt type task data e
  · dsimp only
    rcases hc : rt.clone res with e | _
    · simpa using errorReply_isSome rt type task data e
    · simp

/-- Once the statistics are set, the tasks that have a reply are those that can be answered, strays aside. -/
theorem Received.answerable_iff (x : Received V) (hstat : x.statistics = true) :
    x.Answerable rt type ↔ (x.reply rt type).isSome = true ∧ x.strays rt = false := by
  unfold Received.Answerable Received.reply
  rcases hdata : rt.isNullish x.task.data with _ | _
  · rcases hfn : x.fn with _ | fn
    · unfold notFoundReply
      rcases hc : rt.clone x.task.data with e | _ <;> simp
    · simp only [hstat, if_true, Bool.false_eq_true, if_false, outcomeReply_isSome]
      exact ⟨fun h => ⟨h.2.2, h.2.1⟩, fun h => ⟨trivial, h.2, h.1⟩⟩
  · simp

end Reply

/-! ## What the code does -/

section Code
variable {V : Type} {rt : Runtime V} {type : WorkerType} {s : State V} {task : Task V}

def State.send (message : MessageValue V) (s : State V) : State V := { s with sent := s.sent ++ [message] }

def State.touch (clock : Clock) (s : State V) : State V :=
  if s.activeInterval then { s with lastTaskTimestamp := clock.now } else s

theorem sendToMainWorker_ok {message : MessageValue V} (h : message.values.forM rt.clone = .ok ()) :
    sendToMainWorker rt message s = .ok () (s.send message) := by
  unfold sendToMainWorker
  rw [h]
  rfl

theorem sendToMainWorker_error {message : MessageValue V} {e : V} (h : message.values.forM rt.clone = .error e) :
    sendToMainWorker rt message s = .error e s := by
  unfold sendToMainWorker
  rw [h]
  rfl

theorem handleError_eq (error : V) :
    handleError rt type error s = (ofExcept (errorMessage rt type error) : WorkerM V V) s := by
  cases type with
  | thread => rfl
  | cluster =>
    unfold handleError errorMessage
    dsimp only
    rcases rt.instanceofError error with e | b
    · rfl
    · cases b <;> rfl

theorem clone_error (taskId : Nat) (name : Option String) (message data : V) :
    (⟨taskId, none, some ⟨name, message, data⟩, none⟩ : MessageValue V).values.forM rt.clone = (do
      rt.clone message
      rt.clone data) := by
  simp only [MessageValue.values, Option.toList_none, Option.map_some, Option.getD_some, List.nil_append]
  rcases hm : rt.clone message with e | _
  · simp [hm]
  · rcases hd : rt.clone data with e | _ <;> simp [hm, hd]

theorem clone_result (taskId : Nat) (res : V) (taskPerformance : TaskPerformance) :
    (⟨taskId, some res, none, some taskPerformance⟩ : MessageValue V).values.forM rt.clone = rt.clone res := by
  rcases hr : rt.clone res with e | _ <;> simp [MessageValue.values, hr]

theorem checkStatistics_ok (rt : Runtime V) {w : WorkerStatistics} (hw : s.statistics = some w) :
    checkStatistics rt s = .ok w s := by
  have hget : (get : WorkerM V (_)) s = .ok s s := rfl
  unfold checkStatistics
  rw [bind_of_ok hget, hw]
  rfl

theorem beginTaskPerformance_ok (rt : Runtime V) (h : s.statistics.isSome = true) (clock : Clock) (name : Option String) :
    ∃ taskPerformance, beginTaskPerformance rt clock name s = .ok taskPerformance s := by
  obtain ⟨w, hw⟩ := Option.isSome_iff_exists.1 h
  exact ⟨_, bind_of_ok (checkStatistics_ok rt hw) _⟩

theorem endTaskPerformance_ok (rt : Runtime V) (h : s.statistics.isSome = true) (clock : Clock) (taskPerformance : TaskPerformance) :
    ∃ taskPerformance', endTaskPerformance rt clock taskPerformance s = .ok taskPerformance' s := by
  obtain ⟨w, hw⟩ := Option.isSome_iff_exists.1 h
  exact ⟨_, bind_of_ok (checkStatistics_ok rt hw) _⟩

theorem sendResult_error (h : s.statistics.isSome = true) {res e : V} (hc : rt.clone res = .error e) (taskId : Nat)
    (stop : Clock) (taskPerformance : TaskPerformance) :
    (endTaskPerformance rt stop taskPerformance >>= fun taskPerformance =>
      sendToMainWorker rt ⟨taskId, some res, none, some taskPerformance⟩) s = .error e s := by
  obtain ⟨taskPerformance', hend⟩ := endTaskPerformance_ok rt h stop taskPerformance
  rw [bind_of_ok hend]
  exact sendToMainWorker_error (by rw [clone_result, hc])

theorem touch_ok (clock : Clock) (s : State V) : updateLastTaskTimestamp clock s = .ok () (s.touch clock) := rfl

theorem touch_sent (clock : Clock) (s : State V) : (s.touch clock).sent = s.sent := by
  unfold State.touch
  split <;> rfl

/-- All but the messages sent is the same, and the time of the last task. -/
structure Kept (s s' : State V) : Prop where
  received : s'.received = s.received
  running : s'.running = s.running
  statistics : s'.statistics = s.statistics
  uncaught : s'.uncaught = s.uncaught
  closed : s'.closed = s.closed
  late : s'.late = s.late

theorem Kept.refl (s : State V) : Kept s s := ⟨rfl, rfl, rfl, rfl, rfl, rfl⟩

theorem kept_touch (clock : Clock) (s : State V) : Kept s (s.touch clock) := by
  unfold State.touch
  split <;> exact ⟨rfl, rfl, rfl, rfl, rfl, rfl⟩

theorem kept_send (m : MessageValue V) (clock : Clock) (s : State V) : Kept s ((s.send m).touch clock) := by
  have h := kept_touch clock (s.send m)
  exact ⟨h.received, h.running, h.statistics, h.uncaught, h.closed, h.late⟩

/-- The one reply there is to a task has been sent, or there is none and an exception is left. -/
inductive Concludes (id : Nat) (s : State V) : Option (Except (WorkerError V) V) → EStateM.Result V (State V) Unit → Prop
  | sent {r s₁} (m : MessageValue V) : m.taskId = id → m.Says r → s₁.sent = s.sent ++ [m] → Kept s s₁ →
      Concludes id s (some r) (.ok () s₁)
  | thrown {s₁} (e : V) : s₁.sent = s.sent → Kept s s₁ → Concludes id s none (.error e s₁)

theorem concludes_of_send {r : Except (WorkerError V) V} {m : MessageValue V} {result : EStateM.Result V (State V) Unit}
    (h : result = .ok () (s.send m)) (hid : m.taskId = task.taskId) (hm : m.Says r) :
    Concludes task.taskId s (some r) result := by
  rw [h]
  exact .sent m hid hm rfl ⟨rfl, rfl, rfl, rfl, rfl, rfl⟩

theorem concludes_of_refusal {id : Nat} {m : MessageValue V} {e : V} (h : m.values.forM rt.clone = .error e) :
    Concludes id s none (sendToMainWorker rt m s) := by
  rw [sendToMainWorker_error h]
  exact .thrown e rfl (.refl s)

theorem sendError_of_some {data error : V} {e : WorkerError V} (h : errorReply rt type task data error = some e) :
    sendError rt type task data error s = .ok () (s.send ⟨task.taskId, none, some e, none⟩) := by
  unfold errorReply at h
  unfold sendError
  rcases hm : errorMessage rt type error with x | message
  · rw [hm] at h
    cases h
  · have hhandle : handleError rt type error s = .ok message s := by
      rw [handleError_eq, ofExcept_ok hm]
    rw [hm] at h
    rcases hc : rt.clone message with x | _ <;> rcases hd : rt.clone data with x | _ <;>
      simp only [hc, hd, Except.toOption, bind, Except.bind, pure, Except.pure] at h
    -- there is a reply only if both the message and the data can be cloned
    all_goals cases h
    rw [bind_of_ok hhandle]
    refine sendToMainWorker_ok ?_
    rw [clone_error, hc, hd]
    rfl

theorem sendError_of_none {data error : V} (h : errorReply rt type task data error = none) :
    ∃ e, sendError rt type task data error s = .error e s := by
  unfold errorReply at h
  unfold sendError
  rcases hm : errorMessage rt type error with e | message
  · have hhandle : handleError rt type error s = .error e s := by
      rw [handleError_eq, ofExcept_error hm]
    exact ⟨e, bind_of_error hhandle _⟩
  · have hhandle : handleError rt type error s = .ok message s := by
      rw [handleError_eq, ofExcept_ok hm]
    rw [bind_of_ok hhandle]
    rcases hc : rt.clone message with e | _
    · exact ⟨e, sendToMainWorker_error (by rw [clone_error, hc]; rfl)⟩
    · rcases hd : rt.clone data with e | _
      · exact ⟨e, sendToMainWorker_error (by rw [clone_error, hc, hd]; rfl)⟩
      · rw [hm] at h
        simp only [hc, hd, Except.toOption, bind, Except.bind, pure, Except.pure] at h
        cases h

/-- The `catch` block, and the `finally` block after it. -/
theorem concludes_of_error {body : WorkerM V Unit} {handler : V → WorkerM V Unit} {e data : V} (hbody : body s = .error e s)
    (hhandler : handler e s = sendError rt type task data e s) (stop : Clock) :
    Concludes task.taskId s ((errorReply rt type task data e).map .error)
      (tryFinally (tryCatch body handler) (updateLastTaskTimestamp stop) s) := by
  rcases hr : errorReply rt type task data e with _ | x
  · -- the error cannot be sent either: what the handler throws gets out, after the `finally` block
    obtain ⟨e', hsend⟩ := sendError_of_none (s := s) hr
    have hcatch : tryCatch body handler s = .error e' s := by
      rw [tryCatch_of_error hbody, hhandler, hsend]
    rw [finally_of_error hcatch (touch_ok stop _)]
    exact .thrown e' (touch_sent stop s) (kept_touch stop s)
  · have hcatch : tryCatch body handler s = .ok () (s.send ⟨task.taskId, none, some x, none⟩) := by
      rw [tryCatch_of_error hbody, hhandler, sendError_of_some hr]
    rw [finally_of_ok hcatch (touch_ok stop _)]
    exact .sent _ rfl ⟨rfl, rfl⟩ (touch_sent stop _) (kept_send _ stop s)

theorem concludes_of_call (h : s.statistics.isSome = true) {body : WorkerM V Unit} {handler : V → WorkerM V Unit}
    {outcome : Except V V} {data : V} {stop : Clock} {taskPerformance : TaskPerformance}
    (hbody : body s = (do
      let res ← ofExcept outcome
      let taskPerformance ← endTaskPerformance rt stop taskPerformance
      sendToMainWorker rt ⟨task.taskId, some res, none, some taskPerformance⟩ : WorkerM V Unit) s)
    (hhandler : ∀ e, handler e s = sendError rt type task data e s) :
    Concludes task.taskId s (outcomeReply rt type task outcome data)
      (tryFinally (tryCatch body handler) (updateLastTaskTimestamp stop) s) := by
  unfold outcomeReply
  rcases outcome with e | res
  · rw [bind_of_error (ofExcept_error rfl)] at hbody
    exact concludes_of_error hbody (hhandler e) stop
  · rw [bind_of_ok (ofExcept_ok rfl)] at hbody
    dsimp only
    rcases hclone : rt.clone res with e | _
    · -- what the channel throws is handled like what the function throws
      rw [sendResult_error h hclone] at hbody
      exact concludes_of_error hbody (hhandler e) stop
    · obtain ⟨taskPerformance', hend⟩ := endTaskPerformance_ok rt h stop taskPerformance
      have hsent : body s = .ok () (s.send ⟨task.taskId, some res, none, some taskPerformance'⟩) := by
        rw [hbody, bind_of_ok hend]
        exact sendToMainWorker_ok (by rw [clone_result, hclone])
      rw [finally_of_ok (tryCatch_of_ok hsent handler) (touch_ok stop _)]
      exact .sent _ rfl ⟨rfl, rfl⟩ (touch_sent stop _) (kept_send _ stop s)

theorem checkStatistics_none (rt : Runtime V) (h : s.statistics.isSome = false) :
    checkStatistics rt s = .error (rt.ofError (.error "Performance statistics computation requirements not set")) s := by
  have hget : (get : WorkerM V (State V)) s = .ok s s := rfl
  have hnone : s.statistics = none := Option.isNone_iff_eq_none.1 (by simpa using h)
  unfold checkStatistics
  rw [bind_of_ok hget, hnone]
  rfl

theorem runAsync_cases (rt : Runtime V) (fn : TaskFunction V) (task : Task V) (start : Clock) :
    (s.statistics.isSome = true ∧ ∃ taskPerformance, runAsync rt fn task start s = .ok () { s with
      running := s.running ++ [⟨task, fn.call task.data, fn.leaves task.data, taskPerformance⟩] }) ∨
    s.statistics.isSome = false ∧ ∃ e, runAsync rt fn task start s = .error e s := by
  unfold runAsync
  rcases h : s.statistics.isSome with _ | _
  · exact .inr ⟨rfl, _, bind_of_error (bind_of_error (checkStatistics_none rt h) _) _⟩
  · obtain ⟨taskPerformance, hbegin⟩ := beginTaskPerformance_ok rt h start task.name
    refine .inl ⟨rfl, taskPerformance, ?_⟩
    rw [bind_of_ok hbegin]
    rfl

/-- Data that are not `null` start an asynchronous function, or are replied to when they have been handled. -/
theorem run_concludes (rt : Runtime V) (type : WorkerType) (task : Task V) (start stop : Clock)
    (hdata : rt.isNullish task.data = false) :
    (∃ fn taskPerformance, s.taskFunctions (task.name.getD defaultTaskName) = some fn ∧ s.statistics.isSome = true ∧
      fn.isAsyncFunction = true ∧ run rt type task start stop s = .ok () { s with
        running := s.running ++ [⟨task, fn.call task.data, fn.leaves task.data, taskPerformance⟩] }) ∨
    Concludes task.taskId s
      (Received.reply rt type ⟨task, s.taskFunctions (task.name.getD defaultTaskName), s.statistics.isSome⟩)
      (run rt type task start stop s) := by
  have hget : (get : WorkerM V (State V)) s = .ok s s := rfl
  unfold run Received.reply
  rw [bind_of_ok hget]
  simp only [hdata, Bool.false_eq_true, if_false]
  rcases hfn : s.taskFunctions (task.name.getD defaultTaskName) with _ | fn
  · right
    unfold notFoundReply
    dsimp only
    rcases hd : rt.clone task.data with e | _
    · exact concludes_of_refusal (e := e) (by rw [clone_error, rt.clone_ofString, hd]; rfl)
    · exact concludes_of_send (sendToMainWorker_ok (by rw [clone_error, rt.clone_ofString, hd]; rfl)) rfl ⟨rfl, rfl⟩
  · dsimp only
    rcases hasync : fn.isAsyncFunction with _ | _
    · right
      unfold runSync
      rcases hstat : s.statistics.isSome with _ | _
      · -- the function is not called, so the data are as they were received
        have hbegin : beginTaskPerformance rt start task.name s =
            .error (rt.ofError (.error "Performance statistics computation requirements not set")) s :=
          bind_of_error (checkStatistics_none rt hstat) _
        simp only [unsetReply, hasync, Bool.false_eq_true, if_false]
        refine concludes_of_error (bind_of_error hbegin _) ?_ stop
        rw [bind_of_ok hget, hstat]
        rfl
      · obtain ⟨taskPerformance, hbegin⟩ := beginTaskPerformance_ok rt hstat start task.name
        refine concludes_of_call hstat (bind_of_ok hbegin _) fun e => ?_
        rw [bind_of_ok hget, if_pos hstat]
    · rcases runAsync_cases (s := s) rt fn task start with ⟨hs, taskPerformance, hrun⟩ | ⟨hs, e, hrun⟩
      · exact .inl ⟨fn, taskPerformance, rfl, hs, hasync, hrun⟩
      · right
        simp only [hs, unsetReply, hasync, Bool.false_eq_true, if_false, if_true]
        rw [hrun]
        exact .thrown e rfl (.refl s)

/-- A task message without data is dropped; any other is run. -/
theorem messageListener_concludes (rt : Runtime V) (type : WorkerType) (task : Task V) (start stop : Clock) :
    (rt.isNullish task.data = true ∧ messageListener rt type task start stop s = .ok () s) ∨
    (∃ fn taskPerformance, rt.isNullish task.data = false ∧
      s.taskFunctions (task.name.getD defaultTaskName) = some fn ∧ s.statistics.isSome = true ∧
      fn.isAsyncFunction = true ∧ messageListener rt type task start stop s = .ok () { s with
        running := s.running ++ [⟨task, fn.call task.data, fn.leaves task.data, taskPerformance⟩] }) ∨
    rt.isNullish task.data = false ∧ Concludes task.taskId s
      (Received.reply rt type ⟨task, s.taskFunctions (task.name.getD defaultTaskName), s.statistics.isSome⟩)
      (messageListener rt type task start stop s) := by
  unfold messageListener
  rcases hdata : rt.isNullish task.data with _ | _
  · refine .inr ((run_concludes rt type task start stop hdata).imp ?_ fun h => ⟨rfl, h⟩)
    rintro ⟨fn, taskPerformance, hfn, hstat, hasync, hrun⟩
    exact ⟨fn, taskPerformance, rfl, hfn, hstat, hasync, hrun⟩
  · exact .inl ⟨rfl, rfl⟩

/-- A promise that settles is replied to, or dropped; no exception is left. -/
theorem settle_concludes (rt : Runtime V) (type : WorkerType) (h : s.statistics.isSome = true) (r : Running V) (stop : Clock) :
    (∃ reply m s', outcomeReply rt type r.task r.outcome r.data = some reply ∧ m.taskId = r.task.taskId ∧
      MessageValue.Says m reply ∧ s'.sent = s.sent ++ [m] ∧ Kept s s' ∧ settle rt type r stop s = .ok () s') ∨
    outcomeReply rt type r.task r.outcome r.data = none ∧
      ∃ s', s'.sent = s.sent ∧ Kept s s' ∧ settle rt type r stop s = .ok () s' := by
  have hconcludes := @concludes_of_call V rt type s r.task h _ (sendError rt type r.task r.data) r.outcome r.data stop
    r.taskPerformance rfl fun _ => rfl
  generalize hinner : (tryFinally (tryCatch _ _) (updateLastTaskTimestamp stop) : WorkerM V Unit) s = result at hconcludes
  generalize hreply : outcomeReply rt type r.task r.outcome r.data = reply at hconcludes
  unfold settle
  cases hconcludes with
  | @sent x s' m hid hm hsent hkept => exact .inl ⟨x, m, s', rfl, hid, hm, hsent, hkept, tryCatch_of_ok hinner _⟩
  | @thrown s' e hsent hkept => exact .inr ⟨rfl, s', hsent, hkept, tryCatch_of_error hinner _⟩

end Code

end AbstractWorker

end Poolifier
