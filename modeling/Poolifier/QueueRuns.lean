import Poolifier.FixedSet
/-!
# Runs with the tasks queue on

Over a fixed set of live workers, while the queue is enabled and its options
stay as they are. A property of single nodes that every move keeps (`Kept`)
holds in every state of such runs, as soon as it survives the one piece of code
that sends a task without asking `shallExecuteTask`: the last conditional of
`handleTaskExecutionResponse`.
-/

namespace Poolifier

open EffLib RunLib WorkerNode

variable {Data Response : Type}

/-! ## Properties of nodes -/

/-- `n'` is queued and executing what `n` is. -/
structure SameWork (n n' : WorkerNode Data) : Prop where
  worker : n'.worker = n.worker
  tasksQueue : n'.tasksQueue = n.tasksQueue
  executing : n'.usage.tasks.executing = n.usage.tasks.executing
  tasksQueueBackPressureSize : n'.tasksQueueBackPressureSize = n.tasksQueueBackPressureSize

theorem SameWork.of_sameTasks {n n' : WorkerNode Data} (h : SameTasks n n') : SameWork n n' :=
  ⟨h.worker, h.tasksQueue, h.executing, h.setup.tasksQueueBackPressureSize⟩

theorem SameWork.held {n n' : WorkerNode Data} (h : SameWork n n') : n'.held = n.held := by
  unfold WorkerNode.held
  rw [h.tasksQueue, h.worker]

/-- The test of `shallExecuteTask` on a node, at a quota. -/
def WorkerNode.idleBelow (c : Option Nat) (n : WorkerNode Data) : Bool :=
  n.tasksQueue.length = 0 && c.any (n.usage.tasks.executing < ·)

theorem Pool.shallExecute_eq (p : Pool Data Response) (n : WorkerNode Data) :
    p.shallExecute n = n.idleBelow p.concurrency := rfl

/-- `P` holds of each node of a pool, under its key. -/
def Pool.All (P : Nat → WorkerNode Data → Prop) (p : Pool Data Response) : Prop :=
  ∀ (i : Nat) n, p.workerNodes[i]? = some n → P i n

/-- What each kind of move does to one node keeps `P`, at the quota `c`. -/
structure Kept (Response : Type) (guarded : Prop) (c : Option Nat) (P : Nat → WorkerNode Data → Prop) : Prop where
  same : ∀ {i n n'}, SameWork n n' → P i n → P i n'
  take : ∀ {i n} (q : List (Task Data)), q.Sublist n.tasksQueue → P i n → P i { n with tasksQueue := q }
  push : ∀ {i n} (t : Task Data), n.idleBelow c = false → P i n → P i { n with tasksQueue := n.tasksQueue ++ [t] }
  send : ∀ {i n} (p : Pool Data Response) (t : Task Data), (guarded → n.idleBelow c = true) → P i n →
    P i (p.startTask t n)

theorem Kept.guarded {c : Option Nat} {P : Nat → WorkerNode Data → Prop} (h : Kept Response False c P) :
    Kept Response True c P :=
  ⟨h.same, h.take, h.push, fun p t _ => h.send p t False.elim⟩

theorem Pool.All.modifyNode {P : Nat → WorkerNode Data → Prop} {p : Pool Data Response} (h : p.All P) {i : Nat}
    {f : WorkerNode Data → WorkerNode Data} (hf : ∀ n, p.workerNodes[i]? = some n → P i n → P i (f n)) :
    (p.modifyNode i f).All P := by
  intro j n' hj
  obtain ⟨n, hn, rfl⟩ := Pool.node_of_modifyNode hj
  by_cases hij : i = j
  · subst hij
    simpa using hf n hn (h i n hn)
  · simpa [hij] using h j n hn

section Moves
variable {g : Prop} {c : Option Nat} {P : Nat → WorkerNode Data → Prop}

theorem Kept.move (hP : Kept Response g c P) {a b : Config Data Response} (hm : Move g False a b)
    (hc : a.1.concurrency = c) (ha : a.1.All P) : b.1.All P := by
  cases hm with
  | book i f hf => exact ha.modifyNode fun n hn => hP.same (.of_sameTasks (hf n hn))
  | shift hn hq => exact ha.modifyNode fun n _ => hP.take _ (List.tail_sublist _)
  | pop hn hq => exact ha.modifyNode fun n _ => hP.take _ (List.dropLast_sublist _)
  | push hn hs =>
    refine ha.modifyNode fun m hm => ?_
    rw [hn] at hm
    cases hm
    rw [Pool.shallExecute_eq, hc] at hs
    exact hP.push _ hs
  | send hn hg hs =>
    refine ha.modifyNode fun m hm => ?_
    rw [hn] at hm
    cases hm
    rw [Pool.shallExecute_eq, hc] at hg
    exact hP.send _ _ hg
  | fail hl => exact hl.elim
  | drop hl => exact hl.elim

/-- While every send succeeds, the queue code keeps `P` of every node. -/
theorem Kept.reached (hP : Kept Response g c P) {d : Config Data Response} {s : Pool Data Response}
    {h : Multiset (Task Data)} (hr : Reached g d s h) (hl : Live d.1) (hc : d.1.concurrency = c) (hd : d.1.All P) :
    s.All P :=
  (hr.inv_live (fun a => a.1.concurrency = c ∧ a.1.All P) hl
    (fun _ _ hm ha => ⟨hm.frame.concurrency.trans ha.1, hP.move hm ha.1 ha.2⟩) ⟨hc, hd⟩).2

end Moves

/-! ## Nodes after a response -/

/-- A node that neither sent the response nor counted it goes on as before. -/
theorem Answered.sameWork {m : TaskResponse Response} {j k i : Nat} {n n' : WorkerNode Data} (h : Answered m j k i n n')
    (hj : j ≠ i) (hk : k ≠ i) : SameWork n n' := by
  have hworker := h.worker
  have hexec := h.executing
  rw [if_neg hj] at hworker
  rw [if_neg hk] at hexec
  exact ⟨hworker, h.tasksQueue, hexec, h.tasksQueueBackPressureSize⟩

/-! ## Runs -/

/-- The events of a fixed set of workers, but for changes of the queue options. -/
def QueueEvent (s : Pool Data Response) : Event Data Response → Prop
  | .enableTasksQueue .. => False
  | .setTasksQueueOptions _ => False
  | e => FixedEvent s e

theorem QueueEvent.fixedEvent {s : Pool Data Response} {e : Event Data Response} (h : QueueEvent s e) :
    FixedEvent s e := by
  cases e <;> first | exact h | exact h.elim

instance (s : Pool Data Response) : DecidablePred (QueueEvent s)
  | .enableTasksQueue .. | .setTasksQueueOptions _ => inferInstanceAs (Decidable False)
  | .execute a b c d => inferInstanceAs (Decidable (FixedEvent s (.execute a b c d)))
  | .message a b => inferInstanceAs (Decidable (FixedEvent s (.message a b)))
  | .poll a => inferInstanceAs (Decidable (FixedEvent s (.poll a)))
  | .error _ | .exit _ | .start | .destroy | .destroyed => inferInstanceAs (Decidable False)

/-- A pool over a fixed set of live workers that still has the options it started with. -/
structure QueuePool (s₀ s : Pool Data Response) : Prop where
  pool : FixedPool s 0
  opts : s.opts = s₀.opts

theorem QueuePool.concurrency {s₀ s : Pool Data Response} (h : QueuePool s₀ s) : s.concurrency = s₀.concurrency := by
  unfold Pool.concurrency
  rw [h.opts]

theorem QueuePool.queueSize {s₀ s : Pool Data Response} (h : QueuePool s₀ s) : s.queueSize = s₀.queueSize := by
  unfold Pool.queueSize
  rw [h.opts]

theorem QueuePool.now {s₀ s : Pool Data Response} (h : QueuePool s₀ s) (now : ℚ) : QueuePool s₀ { s with now } :=
  ⟨h.pool.of_view rfl rfl, h.opts⟩

section Runs
variable {s₀ s s' : Pool Data Response} {P : Nat → WorkerNode Data → Prop} {e : Event Data Response}

/-- A response of the worker `w` to its task `m.taskId`, whose promise names the node `k`, and where it leads. -/
structure ResponseStep (s : Pool Data Response) (w : Nat) (m : TaskResponse Response) (k fuel : Nat)
    (n : WorkerNode Data) (s' : Pool Data Response) : Prop where
  node : s.workerNodes[s.getWorkerNodeKeyByWorkerId w]? = some n
  inFlight : m.taskId ∈ n.worker.unanswered.map (·.taskId)
  entry : s.promiseResponseMap.lookup m.taskId = some k
  key : k < s.workerNodes.length
  next : executeNextTask (callbacks fuel) k (s.responded w m k) = some (.ok (), s')

theorem ResponseStep.reached {w k fuel : Nat} {m : TaskResponse Response} {n : WorkerNode Data}
    (h : ResponseStep s w m k fuel n s') (hp : FixedPool s 0) :
    Reached False (s.responded w m k, 0) s' 0 := by
  refine executeNextTask_reached (hp.responded h.node h.inFlight) ?_ h.next
  simpa only [Pool.length_responded] using h.key

/-- One step: a kept property survives, if it survives responses. -/
theorem FixedStep.all (hp : QueuePool s₀ s) (hq : s₀.opts.enableTasksQueue = true) (he : QueueEvent s e)
    (h : FixedStep s e s') (hP : Kept Response True s₀.concurrency P) (hs : s.All P)
    (hresponse : ∀ w m k fuel n, e = .message w (.taskResponse m) → ResponseStep s w m k fuel n s' → s'.All P) :
    QueuePool s₀ s' ∧ s'.All P := by
  have hp' := h.fixedPool hp.pool
  cases h with
  | @refused taskId name data choice x hid ha =>
    refine ⟨⟨hp', ?_⟩, fun i n hn => ?_⟩
    · rw [Pool.settle_rest]
      exact hp.opts
    · rw [Pool.settle_workerNodes] at hn
      exact hs i n hn
  | @executed taskId name data k fuel s' hid ha hk hm =>
    have hc := hp.pool.called hk ⟨name.getD defaultTaskName, data, s.now, taskId⟩ hid
    have hr := dispatchTask_reached (h := 0) hc hk hm
    have hr' := hr.mono fun _ : True => (congrArg PoolOptions.enableTasksQueue hp.opts).trans hq
    refine ⟨⟨hp', ?_⟩, ?_⟩
    · rw [hr.frame.rest]
      exact hp.opts
    · exact hP.reached hr' hc.live hp.concurrency hs
  | @responded w m k fuel n s' hn hm hl hk hx =>
    have hstep : ResponseStep s w m k fuel n s' := ⟨hn, hm, hl, hk, hx⟩
    refine ⟨⟨hp', ?_⟩, hresponse w m k fuel n rfl hstep⟩
    rw [(hstep.reached hp.pool).frame.rest]
    exact (responded_opts s w k m).trans hp.opts
  | @informed w message f hm hf =>
    exact ⟨⟨hp', hp.opts⟩, hs.modifyNode fun n _ => hP.same ⟨rfl, rfl, rfl, rfl⟩⟩
  | ignored hm => exact ⟨hp, hs⟩
  | polled hk hx =>
    have hr := polled_reached hk hx
    refine ⟨⟨hp', ?_⟩, hP.reached hr hp.pool.live hp.concurrency hs⟩
    rw [hr.frame.rest]
    exact hp.opts
  | reconfigured hconf hx =>
    rcases hconf with ⟨b, o, rfl⟩ | ⟨o, rfl⟩
    · exact he.elim
    · exact he.elim

/-- A kept property of nodes that survives responses holds after every run. -/
theorem all_of_run {ok : Pool Data Response → Event Data Response → Prop} {es : List (Event Data Response)}
    (h₀ : Fresh s₀) (hfixed : s₀.type = .fixed ∨ s₀.full = true) (hsend : ∀ t, s₀.postable t = true)
    (hq : s₀.opts.enableTasksQueue = true) (hr : Run (Guarded (fun s e => QueueEvent s e ∧ ok s e) Step) s₀ es s)
    (hP : Kept Response True s₀.concurrency P) (hnew : ∀ i n, NewNode s₀ n → P i n)
    (hresponse : ∀ s s' w m k fuel n now, QueuePool s₀ s → ok s (.message w (.taskResponse m)) → s.All P →
      ResponseStep { s with now } w m k fuel n s' → s'.All P) : s.All P := by
  refine (hr.inv (fun s => QueuePool s₀ s ∧ s.All P) ⟨⟨.of_fresh h₀ hfixed hsend, rfl⟩, fun i n hn => ?_⟩
    fun s e s' hs hstep => ?_).2
  · exact hnew i n (h₀.nodes n (List.mem_of_getElem? hn))
  · obtain ⟨⟨he, hok⟩, hstep⟩ := hstep
    obtain ⟨now, hfs⟩ := fixedStep_of_step hs.1.pool he.fixedEvent hstep
    have he' : QueueEvent { s with now } e := by
      cases e <;> exact he
    refine hfs.all (hs.1.now now) hq he' hP hs.2 fun w m k fuel n hm hx => ?_
    subst hm
    exact hresponse s s' w m k fuel n now hs.1 hok hs.2 hx

end Runs

end Poolifier
