import Poolifier.QueueRuns
/-!
# The executing counter

`usage.tasks.executing` is meant to count the tasks in flight on the worker. A
response is counted at the key its promise has kept since `execute`; a task that
was stolen meanwhile is in flight on another node. The counters are right as
long as no response to a stolen task comes in, and a queue that waits for a
response of its own worker is never left without one.
-/

namespace Poolifier

open EffLib RunLib WorkerNode

variable {Data Response : Type}

/-! ## Counting -/

/-- The response is counted at the node of the worker that sends it. -/
def ChargedToSender (s : Pool Data Response) : Event Data Response → Prop
  | .message w (.taskResponse m) =>
    s.promiseResponseMap.lookup m.taskId = some (s.getWorkerNodeKeyByWorkerId w)
  | _ => True

instance (s : Pool Data Response) : DecidablePred (ChargedToSender s)
  | .message w (.taskResponse m) =>
    inferInstanceAs (Decidable (s.promiseResponseMap.lookup m.taskId = some (s.getWorkerNodeKeyByWorkerId w)))
  | .execute .. | .poll _ | .enableTasksQueue .. | .setTasksQueueOptions _ | .message _ (.killRequest _)
  | .message _ (.killAnswer _) | .message _ (.ready ..) | .message _ (.taskFunctionNames _) | .error _ | .exit _
  | .start | .destroy | .destroyed => inferInstanceAs (Decidable True)

/-- The node `i` counts `d` more tasks as executing than are in flight on its worker. -/
def CountedWith (d : Nat → Nat) (i : Nat) (n : WorkerNode Data) : Prop :=
  n.usage.tasks.executing = n.worker.unanswered.length + d i

/-- Sending a task raises both sides, wherever it is sent. -/
theorem kept_countedWith (d : Nat → Nat) (c : Option Nat) :
    Kept Response False c (CountedWith d : Nat → WorkerNode Data → Prop) where
  same h hn := by
    unfold CountedWith at *
    rw [h.executing, h.worker]
    exact hn
  take q hq hn := hn
  push t _ hn := hn
  send p t _ hn := by
    unfold CountedWith at *
    rw [startTask_executing, length_unanswered_startTask]
    omega

section Step
variable {s s' : Pool Data Response} {w k fuel : Nat} {m : TaskResponse Response} {n : WorkerNode Data}

/-- The counters after a response is taken in. -/
theorem ResponseStep.countedWith (h : ResponseStep s w m k fuel n s') {d : Nat → Nat} (hd : ∀ i a, s.workerNodes[i]? = some a →
      (if k = i then a.usage.tasks.executing - 1 else a.usage.tasks.executing) =
        (if s.getWorkerNodeKeyByWorkerId w = i then a.worker.unanswered.length - 1 else a.worker.unanswered.length) +
          d i) : (s.responded w m k).All (CountedWith d) := by
  intro i a' ha'
  obtain ⟨a, ha, hans⟩ := Pool.node_of_responded ha'
  have hd := hd i a ha
  unfold CountedWith
  rw [hans.executing, hans.worker, hd]
  by_cases hi : s.getWorkerNodeKeyByWorkerId w = i
  · subst hi
    obtain rfl : n = a := by
      rw [h.node] at ha
      exact Option.some.inj ha
    simp only [if_true]
    rw [length_unanswered_answer h.inFlight]
  · simp only [hi, if_false]

/-- A response that is counted at its sender leaves every counter right. -/
theorem ResponseStep.counted (h : ResponseStep s w m k fuel n s') (hp : FixedPool s 0)
    (hs : s.All (CountedWith fun _ => 0)) (hk : k = s.getWorkerNodeKeyByWorkerId w) :
    s'.All (CountedWith fun _ => 0) := by
  refine (kept_countedWith _ _).reached (h.reached hp) (hp.responded h.node h.inFlight).live rfl ?_
  refine h.countedWith fun i a ha => ?_
  have hcount := hs i a ha
  simp only [CountedWith] at hcount
  subst hk
  split <;> omega

/-- A response that is counted elsewhere leaves its sender with one task too many. -/
theorem ResponseStep.miscounted (h : ResponseStep s w m k fuel n s') (hp : FixedPool s 0)
    (hs : s.All (CountedWith fun _ => 0)) (hk : k ≠ s.getWorkerNodeKeyByWorkerId w) :
    ¬ s'.All (CountedWith fun _ => 0) := by
  intro hs'
  have hr := h.reached hp
  -- the sender keeps the surplus whatever the queue code does next
  let P : Nat → WorkerNode Data → Prop := fun i a =>
    i = s.getWorkerNodeKeyByWorkerId w → CountedWith (fun _ => 1) i a
  have hP : Kept Response False (s.responded w m k).concurrency P :=
    have hk : Kept Response False (s.responded w m k).concurrency (CountedWith fun _ => 1) := kept_countedWith _ _
    ⟨fun h hn hi => hk.same h (hn hi), fun q hq hn hi => hk.take q hq (hn hi),
      fun t hs hn hi => hk.push t hs (hn hi), fun p t hg hn hi => hk.send p t hg (hn hi)⟩
  have hsurplus : s'.All P := by
    refine hP.reached hr (hp.responded h.node h.inFlight).live rfl fun i a' ha' hi => ?_
    obtain ⟨a, ha, hans⟩ := Pool.node_of_responded ha'
    subst hi
    obtain rfl : n = a := by
      rw [h.node] at ha
      exact Option.some.inj ha
    have hcount := hs _ n ha
    have hpos := unanswered_pos h.inFlight
    simp only [CountedWith] at hcount ⊢
    rw [hans.executing, hans.worker, if_neg hk, if_pos rfl, length_unanswered_answer h.inFlight]
    omega
  have hlt : s.getWorkerNodeKeyByWorkerId w < s'.workerNodes.length := by
    rw [hr.lt]
    simpa only [Pool.length_responded] using Pool.lt_of_node h.node
  obtain ⟨a, ha⟩ := Pool.node_of_lt hlt
  have h1 := hsurplus _ a ha rfl
  have h0 := hs' _ a ha
  simp only [CountedWith] at h0 h1
  omega

end Step

section Runs
variable {s₀ s s' : Pool Data Response}

theorem NewNode.counted {n : WorkerNode Data} (h : NewNode s₀ n) (i : Nat) : CountedWith (fun _ => 0) i n := by
  unfold CountedWith
  rw [h.executing, h.worker]
  rfl

/-- From right counters, a step leaves them right just when a response it handles is counted at its sender. -/
theorem counted_step_iff {e : Event Data Response} (hp : QueuePool s₀ s) (hq : s₀.opts.enableTasksQueue = true)
    (he : QueueEvent s e) (hs : s.All (CountedWith fun _ => 0)) (h : Step s e s') :
    s'.All (CountedWith fun _ => 0) ↔ ChargedToSender s e := by
  obtain ⟨now, hstep⟩ := fixedStep_of_step hp.pool he.fixedEvent h
  have he' : QueueEvent { s with now } e := by
    cases e <;> exact he
  constructor
  · intro hs'
    cases hstep with
    | @responded w m k fuel n s' hn hm hl hk hx =>
      by_contra hne
      have hne' : k ≠ s.getWorkerNodeKeyByWorkerId w := fun heq => hne (hl.trans (congrArg some heq))
      exact ResponseStep.miscounted ⟨hn, hm, hl, hk, hx⟩ (hp.now now).pool hs hne' hs'
    | informed f hm hf =>
      rename_i w message
      cases message <;> first | trivial | exact absurd rfl (hm _)
    | ignored hm =>
      rename_i w message
      cases message <;> first | trivial | exact absurd rfl (hm _)
    | refused x hid ha => trivial
    | executed hid ha hk hm => trivial
    | polled hk hx => trivial
    | reconfigured hconf hx =>
      rcases hconf with ⟨b, o, rfl⟩ | ⟨o, rfl⟩
      · exact he.elim
      · exact he.elim
  · intro hcharged
    refine (hstep.all (hp.now now) hq he' (kept_countedWith _ _).guarded hs fun w m k fuel n hm hx => ?_).2
    subst hm
    have hk : k = s.getWorkerNodeKeyByWorkerId w := by
      have := hx.entry.symm.trans hcharged
      exact Option.some.inj this
    exact hx.counted (hp.now now).pool hs hk

/-- While every response is counted at its sender, each node counts the tasks in flight on its worker. -/
theorem executing_eq_unanswered {es : List (Event Data Response)} (h₀ : Fresh s₀)
    (hfixed : s₀.type = .fixed ∨ s₀.full = true) (hsend : ∀ t, s₀.postable t = true)
    (hq : s₀.opts.enableTasksQueue = true)
    (hr : Run (Guarded (fun s e => QueueEvent s e ∧ ChargedToSender s e) Step) s₀ es s) :
    ∀ n ∈ s.workerNodes, n.usage.tasks.executing = n.worker.unanswered.length := by
  have hall : s.All (CountedWith fun _ => 0) := by
    refine all_of_run h₀ hfixed hsend hq hr (kept_countedWith _ _).guarded (fun i n hn => hn.counted i) ?_
    intro s s' w m k fuel n now hp hcharged hs hx
    have hk : k = s.getWorkerNodeKeyByWorkerId w := by
      have := hx.entry.symm.trans hcharged
      exact Option.some.inj this
    exact hx.counted (hp.now now).pool hs hk
  intro n hn
  obtain ⟨i, hi⟩ := List.mem_iff_getElem?.1 hn
  exact hall i n hi

end Runs

/-- Worker 1 empties its queue and steals task 1 from worker 0 while task 0 is still running. -/
def stealWhileBusy : List (Event Unit Unit) := [submit 0 0, submit 1 0, submit 2 1, submit 3 1, respond 1 2]

theorem executing_eq_unanswered_steal :
    ∃ h, ∀ n ∈ ((replay (nextIf (fun s e => QueueEvent s e ∧ ChargedToSender s e) 5)
      (startedPool 2 true ⟨some 4, some 1, true, true⟩) (stealWhileBusy ++ [respond 1 3, respond 0 0])).get h).workerNodes,
      n.usage.tasks.executing = n.worker.unanswered.length :=
  have h : (replay (nextIf (fun s e => QueueEvent s e ∧ ChargedToSender s e) 5)
      (startedPool 2 true ⟨some 4, some 1, true, true⟩) (stealWhileBusy ++ [respond 1 3, respond 0 0])).isSome = true := by
    decide +kernel
  ⟨h, executing_eq_unanswered (fresh_startedPool 2 true _) (.inl rfl) (fun _ => rfl) rfl (run_of_events h)⟩

/-- A response to the stolen task is counted at the node the task was first assigned to. -/
theorem stolen_response_miscounted :
    ¬ ∀ (s₀ s : Pool Unit Unit) (es : List (Event Unit Unit)), Fresh s₀ → (s₀.type = .fixed ∨ s₀.full = true) →
      (∀ t, s₀.postable t = true) → s₀.opts.enableTasksQueue = true →
      s₀.opts.tasksQueueOptions.any (·.taskStealing) = true → Run (Guarded QueueEvent Step) s₀ es s →
      ∀ n ∈ s.workerNodes, n.usage.tasks.executing = n.worker.unanswered.length := by
  intro hall
  obtain ⟨s, hr, hbad⟩ := run_to QueueEvent 5 (startedPool 2 true ⟨some 4, some 1, true, true⟩)
    (stealWhileBusy ++ [respond 1 1])
    (P := fun s => ∃ n ∈ s.workerNodes, n.usage.tasks.executing ≠ n.worker.unanswered.length) (by decide +kernel)
  obtain ⟨n, hn, hne⟩ := hbad
  exact hne (hall _ s _ (fresh_startedPool 2 true _) (.inl rfl) (fun _ => rfl) rfl rfl hr n hn)

/-! ## Queues that wait for a response -/

/-- The response is counted at its sender, or its sender counts fewer tasks than it has in flight
and is not left to wait for nothing. -/
def KeepsCover (s : Pool Data Response) : Event Data Response → Prop
  | .message w (.taskResponse m) =>
    s.promiseResponseMap.lookup m.taskId = some (s.getWorkerNodeKeyByWorkerId w) ∨
      ∃ n ∈ s.workerNodes[s.getWorkerNodeKeyByWorkerId w]?,
        n.usage.tasks.executing < n.worker.unanswered.length ∧
          (n.tasksQueue.length = 0 ∨ 1 < n.worker.unanswered.length)
  | _ => True

instance (s : Pool Data Response) : DecidablePred (KeepsCover s)
  | .message w (.taskResponse m) =>
    inferInstanceAs (Decidable (s.promiseResponseMap.lookup m.taskId = some (s.getWorkerNodeKeyByWorkerId w) ∨
      ∃ n ∈ s.workerNodes[s.getWorkerNodeKeyByWorkerId w]?,
        n.usage.tasks.executing < n.worker.unanswered.length ∧
          (n.tasksQueue.length = 0 ∨ 1 < n.worker.unanswered.length)))
  | .execute .. | .poll _ | .enableTasksQueue .. | .setTasksQueueOptions _ | .message _ (.killRequest _)
  | .message _ (.killAnswer _) | .message _ (.ready ..) | .message _ (.taskFunctionNames _) | .error _ | .exit _
  | .start | .destroy | .destroyed => inferInstanceAs (Decidable True)

/-- The node counts no task that is not in flight, and its queue, unless `x i`, waits for one that is. -/
def Awaiting (x : Nat → Prop) (i : Nat) (n : WorkerNode Data) : Prop :=
  n.usage.tasks.executing ≤ n.worker.unanswered.length ∧ (n.tasksQueue ≠ [] → x i ∨ n.worker.unanswered ≠ [])

/-- A task is queued only behind tasks in flight: behind a queue that waits for one, or at the quota. -/
theorem kept_awaiting (x : Nat → Prop) {c : Nat} (hc : 0 < c) :
    Kept Response False (some c) (Awaiting x : Nat → WorkerNode Data → Prop) where
  same h hn := by
    unfold Awaiting at *
    rw [h.executing, h.worker, h.tasksQueue]
    exact hn
  take q hq hn := by
    refine ⟨hn.1, fun hne => hn.2 fun h => hne ?_⟩
    rw [h] at hq
    exact List.sublist_nil.1 hq
  push {i n} t hs hn := by
    refine ⟨hn.1, fun _ => ?_⟩
    by_cases hq : n.tasksQueue = []
    · simp only [idleBelow, hq, List.length_nil, decide_true, Bool.true_and, Option.any_some,
        decide_eq_false_iff_not, not_lt] at hs
      refine .inr fun hu => ?_
      have hle := hn.1
      rw [hu, List.length_nil] at hle
      omega
    · exact hn.2 hq
  send p t _ hn := by
    unfold Awaiting at *
    simp only [startTask_executing, startTask_worker, List.length_append, List.length_singleton, startTask_tasksQueue]
    exact ⟨by omega, fun _ => .inr (by simp)⟩

section Step
variable {s s' : Pool Data Response} {w k fuel : Nat} {m : TaskResponse Response} {n : WorkerNode Data} {c : Nat}

/-- After a response the node that counted it, and no other, may have to be sent its next task. -/
theorem ResponseStep.awaiting_responded (h : ResponseStep s w m k fuel n s') (hs : s.All (Awaiting fun _ => False))
    (hcover : KeepsCover s (.message w (.taskResponse m))) :
    (s.responded w m k).All (Awaiting fun i => i = k ∧ k = s.getWorkerNodeKeyByWorkerId w) := by
  intro i a' ha'
  obtain ⟨a, ha, hans⟩ := Pool.node_of_responded ha'
  obtain ⟨hle, hwait⟩ := hs i a ha
  unfold Awaiting
  rw [hans.executing, hans.worker, hans.tasksQueue]
  by_cases hi : s.getWorkerNodeKeyByWorkerId w = i
  · obtain rfl : n = a := by
      have hn := h.node
      rw [hi, ha] at hn
      exact (Option.some.inj hn).symm
    have hlen := length_unanswered_answer h.inFlight
    simp only [hi, if_true]
    rw [hlen]
    by_cases hk : k = i
    · subst hk
      simp only [if_true]
      exact ⟨by omega, fun _ => .inl ⟨trivial, trivial⟩⟩
    · rw [if_neg hk]
      -- counted elsewhere: the condition says that the sender can do without it
      rcases hcover with hl | ⟨b, hb, hlt, hone⟩
      · have : k = s.getWorkerNodeKeyByWorkerId w := Option.some.inj (h.entry.symm.trans hl)
        exact absurd (this.trans hi) hk
      · obtain rfl : b = n := by
          have hb' : s.workerNodes[s.getWorkerNodeKeyByWorkerId w]? = some b := hb
          rw [h.node] at hb'
          exact (Option.some.inj hb').symm
        refine ⟨by omega, fun hne => .inr fun hnil => ?_⟩
        rw [hnil, List.length_nil] at hlen
        rcases hone with hq | hone
        · exact hne (List.length_eq_zero_iff.1 hq)
        · omega
  · simp only [hi, if_false]
    refine ⟨?_, fun hne => .inr ?_⟩
    · split <;> omega
    · rcases hwait hne with hf | hu
      · exact hf.elim
      · exact hu

/-- The last conditional of a response handler, run from a state in which only its node may be left waiting. -/
theorem executeNextTask_awaiting (hp : FixedPool s 0) (hc : 0 < c) (hconc : s.concurrency = some c)
    (hq : s.opts.enableTasksQueue = true) (hk : k < s.workerNodes.length) (hs : s.All (Awaiting fun i => i = k))
    (hx : executeNextTask (callbacks fuel) k s = some (.ok (), s')) : s'.All (Awaiting fun _ => False) := by
  obtain ⟨n, hn⟩ := Pool.node_of_lt hk
  have hcases : wp (executeNextTask (callbacks fuel) k) (fun _ s' => s'.All (Awaiting fun _ => False))
      (fun _ _ => True) s := by
    have hdone (hwait : n.tasksQueue ≠ [] → n.worker.unanswered ≠ []) : s.All (Awaiting fun _ => False) := by
      intro i a ha
      obtain ⟨hle, hw⟩ := hs i a ha
      refine ⟨hle, fun hne => ?_⟩
      rcases hw hne with rfl | hu
      · rw [hn] at ha
        cases ha
        exact .inr (hwait hne)
      · exact .inr hu
    simp only [executeNextTask, wp_bind, wp_get, hq, if_true, wp_nodeAt hn]
    by_cases hne : n.tasksQueue = []
    · simp only [hne, List.length_nil, gt_iff_lt, lt_self_iff_false, decide_false, Bool.false_and,
        Bool.false_eq_true, if_false, wp_pure]
      exact hdone fun h => absurd hne h
    · by_cases hlt : n.usage.tasks.executing < c
      · -- the task that is dequeued is sent, so the node waits for it
        simp only [gt_iff_lt, List.length_pos_iff.2 hne, decide_true, Bool.true_and, Pool.belowConcurrency, hconc,
          Option.any_some, hlt, if_true]
        obtain ⟨t, q, hcons⟩ := List.exists_cons_of_ne_nil hne
        simp only [dequeueThen, wp_bind]
        have hr := Reached.refl (g := False) s 0
        refine wp_mono (dequeueTask_moves (callbacks_move fuel) hr hn hcons) (fun r s₁ h₁ => ?_) fun _ _ hf => hf.elim
        obtain ⟨rfl, h₁⟩ := h₁
        have hs₁ : s₁.All (Awaiting fun i => i = k) :=
          (kept_awaiting _ hc).reached h₁ hp.live hconc hs
        obtain ⟨n₁, hn₁⟩ := h₁.node hk
        have hsend := (h₁.frame.live hp.live).canSend (List.mem_of_getElem? hn₁) t
        show wp (executeTask k t) _ _ s₁
        rw [wp_executeTask hn₁ hsend]
        intro i a ha
        obtain ⟨b, hb, rfl⟩ := Pool.node_of_modifyNode ha
        obtain ⟨hle, hw⟩ := hs₁ i b hb
        by_cases hi : k = i
        · simp only [hi, if_true]
          unfold Awaiting
          simp only [startTask_executing, startTask_worker, List.length_append, List.length_singleton]
          exact ⟨by omega, fun _ => .inr (by simp)⟩
        · simp only [hi, if_false]
          refine ⟨hle, fun hne => (hw hne).imp (fun h => hi h.symm) id⟩
      · -- the counter is at the quota, so a task is in flight
        simp only [Pool.belowConcurrency, hconc, Option.any_some, hlt, decide_false, Bool.and_false,
          Bool.false_eq_true, if_false, wp_pure]
        refine hdone fun _ hu => ?_
        have hle := (hs k n hn).1
        rw [hu, List.length_nil] at hle
        omega
  have hs' := wp_ok hcases hx
  exact hs'

theorem ResponseStep.awaiting (h : ResponseStep s w m k fuel n s') (hp : FixedPool s 0)
    (hc : 0 < c) (hconc : s.concurrency = some c) (hq : s.opts.enableTasksQueue = true)
    (hs : s.All (Awaiting fun _ => False)) (hcover : KeepsCover s (.message w (.taskResponse m))) :
    s'.All (Awaiting fun _ => False) := by
  refine executeNextTask_awaiting (hp.responded (k := k) h.node h.inFlight) hc ?_ ?_ ?_ ?_ h.next
  · rw [responded_concurrency]
    exact hconc
  · rw [responded_opts]
    exact hq
  · simpa only [Pool.length_responded] using h.key
  · intro i a ha
    obtain ⟨hle, hw⟩ := h.awaiting_responded hs hcover i a ha
    exact ⟨hle, fun hne => (hw hne).imp And.left id⟩

end Step

/-- While responses keep the cover, a queue that is not empty waits for a task in flight on its own worker. -/
theorem queue_awaits_own_worker {s₀ s : Pool Data Response} {es : List (Event Data Response)} {c : Nat}
    (h₀ : Fresh s₀) (hfixed : s₀.type = .fixed ∨ s₀.full = true) (hsend : ∀ t, s₀.postable t = true)
    (hq : s₀.opts.enableTasksQueue = true) (hconc : s₀.concurrency = some c) (hc : 0 < c)
    (hr : Run (Guarded (fun s e => QueueEvent s e ∧ KeepsCover s e) Step) s₀ es s) :
    ∀ n ∈ s.workerNodes, n.tasksQueue ≠ [] → n.worker.unanswered ≠ [] := by
  have hall : s.All (Awaiting fun _ => False) := by
    have hkept : Kept Response True s₀.concurrency (Awaiting (fun _ => False) : Nat → WorkerNode Data → Prop) := by
      rw [hconc]
      exact (kept_awaiting _ hc).guarded
    refine all_of_run h₀ hfixed hsend hq hr hkept (fun i n hn => ?_) ?_
    · unfold Awaiting
      rw [hn.executing, hn.worker, hn.tasksQueue]
      exact ⟨Nat.zero_le _, fun hne => absurd rfl hne⟩
    · intro s s' w m k fuel n now hp hcover hs hx
      refine hx.awaiting (hp.now now).pool hc (hp.concurrency.trans hconc) ?_ hs hcover
      exact (congrArg PoolOptions.enableTasksQueue hp.opts).trans hq
  intro n hn hne
  obtain ⟨i, hi⟩ := List.mem_iff_getElem?.1 hn
  rcases (hall i n hi).2 hne with hf | hu
  · exact hf.elim
  · exact hu

theorem queue_awaits_own_worker_steal :
    ∃ h, ∀ n ∈ ((replay (nextIf (fun s e => QueueEvent s e ∧ KeepsCover s e) 5)
      (startedPool 2 true ⟨some 4, some 1, true, true⟩) (stealWhileBusy ++ [submit 4 0, respond 0 0])).get h).workerNodes,
      n.tasksQueue ≠ [] → n.worker.unanswered ≠ [] :=
  have h : (replay (nextIf (fun s e => QueueEvent s e ∧ KeepsCover s e) 5)
      (startedPool 2 true ⟨some 4, some 1, true, true⟩) (stealWhileBusy ++ [submit 4 0, respond 0 0])).isSome = true := by
    decide +kernel
  ⟨h, queue_awaits_own_worker (fresh_startedPool 2 true _) (.inl rfl) (fun _ => rfl) rfl rfl (by decide)
    (run_of_events h)⟩

/-- The thief has answered all it was sent, still counts the stolen task, and queues the next one for ever. -/
theorem queue_stranded :
    ¬ ∀ (s₀ s : Pool Unit Unit) (es : List (Event Unit Unit)), Fresh s₀ → (s₀.type = .fixed ∨ s₀.full = true) →
      (∀ t, s₀.postable t = true) → s₀.opts.enableTasksQueue = true → (∃ c, 0 < c ∧ s₀.concurrency = some c) →
      s₀.opts.tasksQueueOptions.any (·.taskStealing) = true → Run (Guarded QueueEvent Step) s₀ es s →
      ∀ n ∈ s.workerNodes, n.tasksQueue ≠ [] → n.worker.unanswered ≠ [] := by
  intro hall
  obtain ⟨s, hr, n, hn, hne, hnil⟩ := run_to QueueEvent 5 (startedPool 2 true ⟨some 4, some 1, true, true⟩)
    (stealWhileBusy ++ [respond 1 1, respond 1 3, submit 4 1])
    (P := fun s => ∃ n ∈ s.workerNodes, 0 < n.tasksQueue.length ∧ n.worker.unanswered.length = 0)
    (by decide +kernel)
  exact hall _ s _ (fresh_startedPool 2 true _) (.inl rfl) (fun _ => rfl) rfl ⟨1, by decide, rfl⟩ rfl hr n hn
    (List.length_pos_iff.1 hne) (List.length_eq_zero_iff.1 hnil)

end Poolifier
