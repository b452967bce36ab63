import Poolifier.Stealing
/-!
# The quota of a node

Every dispatch of a task asks `shallExecuteTask` right before it sends, but for
one: after a response, the quota is tested before the next task is dequeued, and
dequeueing the last task of a queue may steal another one for the same node and
send it first. A node exceeds its quota in exactly these steps.
-/

namespace Poolifier

open EffLib RunLib WorkerNode

variable {Data Response : Type}

/-- The node has the queue size `z`, and counts at most `c` tasks as executing, unless `x i`. -/
def Within (z : Option Nat) (c : Nat) (x : Nat → Prop) (i : Nat) (n : WorkerNode Data) : Prop :=
  (∀ v, z = some v → n.tasksQueueBackPressureSize = some v) ∧ (x i ∨ n.usage.tasks.executing ≤ c)

/-- A task that is sent only below the quota leaves the node within it. -/
theorem kept_within (z : Option Nat) (c : Nat) (x : Nat → Prop) :
    Kept Response True (some c) (Within z c x : Nat → WorkerNode Data → Prop) where
  same h hn := by
    unfold Within at *
    rw [h.tasksQueueBackPressureSize, h.executing]
    exact hn
  take q _ hn := hn
  push t _ hn := hn
  send {i n} p t hg hn := by
    have hlt := hg trivial
    simp only [idleBelow, Option.any_some, Bool.and_eq_true, decide_eq_true_eq] at hlt
    unfold Within at *
    rw [startTask_tasksQueueBackPressureSize, startTask_executing]
    exact ⟨hn.1, .inr (by omega)⟩

theorem synced_of_within {s : Pool Data Response} {h : Multiset (Task Data)} {c : Nat} {x : Nat → Prop}
    (hp : FixedPool s h) (hs : s.All (Within s.queueSize c x)) : Synced s where
  ids := hp.ids
  size n hn z hz := by
    obtain ⟨i, hi⟩ := List.mem_iff_getElem?.1 hn
    exact (hs i n hi).1 z hz

/-! ## The next task after a response -/

/-- How many tasks the node `n` starts when `executeNextTask` is run on it. -/
def nextStarts (c : Nat) (p : Pool Data Response) (n : WorkerNode Data) : Nat :=
  if n.tasksQueue.length > 0 && n.usage.tasks.executing < c then
    takenStarts p { n with tasksQueue := n.tasksQueue.tail } + 1
  else 0

section Step
variable {s s' : Pool Data Response} {w k fuel c : Nat} {m : TaskResponse Response} {n : WorkerNode Data}

/-- The node of the response starts its next task and maybe a stolen one; the others stay within the quota. -/
theorem executeNextTask_starts (hp : FixedPool s 0) (hq : s.opts.enableTasksQueue = true)
    (hconc : s.concurrency = some c) (hn : s.workerNodes[k]? = some n)
    (hs : s.All (Within s.queueSize c fun i => i = k))
    (hx : executeNextTask (callbacks fuel) k s = some (.ok (), s')) :
    s'.All fun i a => Within s.queueSize c (fun i => i = k) i a ∧
      (i = k → a.usage.tasks.executing = n.usage.tasks.executing + nextStarts c s n) := by
  have hstep : wp (executeNextTask (callbacks fuel) k) (fun _ s' => s'.All fun i a =>
      Within s.queueSize c (fun i => i = k) i a ∧
        (i = k → a.usage.tasks.executing = n.usage.tasks.executing + nextStarts c s n)) (fun _ _ => True) s := by
    simp only [executeNextTask, wp_bind, wp_get, hq, if_true, wp_nodeAt hn, Pool.belowConcurrency, hconc,
      Option.any_some]
    by_cases hc : (decide (n.tasksQueue.length > 0) && decide (n.usage.tasks.executing < c)) = true
    · rw [if_pos hc]
      have hstarts : nextStarts c s n = takenStarts s { n with tasksQueue := n.tasksQueue.tail } + 1 := by
        unfold nextStarts
        rw [if_pos hc]
      simp only [Bool.and_eq_true, decide_eq_true_eq, gt_iff_lt, List.length_pos_iff] at hc
      obtain ⟨t, q, hcons⟩ := List.exists_cons_of_ne_nil hc.1
      rw [hcons, List.tail_cons] at hstarts
      -- dequeueing moves tasks within the quotas, and serves the node itself
      have hmoves := dequeueTask_moves (g := True) (callbacks_move fuel) (Reached.refl s 0) hn hcons
      have hserves := dequeueTask_serves (callbacks_quiet fuel) (synced_of_within hp hs) hn hcons
      simp only [dequeueThen, wp_bind]
      refine wp_mono (wp_and hmoves hserves) (fun r s₁ h => ?_) fun _ _ h => h.1.elim
      obtain ⟨⟨rfl, hr⟩, -, hserve⟩ := h
      have hs₁ : s₁.All (Within s.queueSize c fun i => i = k) :=
        (kept_within _ c _).reached hr hp.live hconc hs
      obtain ⟨n₁, hn₁⟩ := hr.node (Pool.lt_of_node hn)
      have hexec := hserve.executing n n₁ hn hn₁
      have hsend := (hr.frame.live hp.live).canSend (List.mem_of_getElem? hn₁) t
      show wp (executeTask k t) _ _ s₁
      rw [wp_executeTask hn₁ hsend]
      intro i a ha
      obtain ⟨b, hb, rfl⟩ := Pool.node_of_modifyNode ha
      by_cases hi : k = i
      · subst hi
        rw [hn₁] at hb
        cases hb
        rw [if_pos rfl]
        refine ⟨⟨?_, .inl rfl⟩, fun _ => ?_⟩
        · rw [startTask_tasksQueueBackPressureSize]
          exact (hs₁ k n₁ hn₁).1
        · rw [startTask_executing, hexec, hstarts]
          omega
      · rw [if_neg hi]
        exact ⟨hs₁ i b hb, fun h => absurd h.symm hi⟩
    · rw [if_neg hc, wp_pure]
      have hstarts : nextStarts c s n = 0 := by
        unfold nextStarts
        rw [if_neg hc]
      intro i a ha
      refine ⟨hs i a ha, fun hi => ?_⟩
      subst hi
      rw [hn] at ha
      cases ha
      rw [hstarts]
      rfl
  have h := wp_ok hstep hx
  exact h

/-- What can be stolen does not change when a response is taken in. -/
theorem stealable_responded (p : Pool Data Response) (w k : Nat) (m : TaskResponse Response) (workerId : Nat) :
    (p.responded w m k).stealable workerId = p.stealable workerId := by
  refine stealable_congr ?_ workerId
  simp only [Pool.responded, Pool.answered, Pool.modifyNode, Pool.settle_workerNodes]
  have hanswer := map_modify_same (l := p.workerNodes) (i := p.getWorkerNodeKeyByWorkerId w)
    (g := fun n : WorkerNode Data => (n.info, n.tasksQueue)) (f := (·.answer m.taskId)) fun _ _ => rfl
  refine (map_modify_same fun a _ => ?_).trans hanswer
  obtain ⟨u, hu⟩ := afterTaskExecution_eq p.taskStatisticsRequirements m a
  rw [hu]

/-- How many tasks the node `n` starts after a response that is counted at it: none, its next one,
or this and a stolen one. -/
def startsAfterResponse (c : Nat) (s : Pool Data Response) (n : WorkerNode Data) : Nat :=
  if 0 < n.tasksQueue.length ∧ n.usage.tasks.executing - 1 < c then
    if n.tasksQueue.length = 1 ∧ n.onEmptyQueue = true ∧ n.onEmptyQueueCount = 0 ∧ s.stealable n.info.id = true then 2
    else 1
  else 0

theorem nextStarts_responded {n' : WorkerNode Data} (hconc : s.concurrency = some c) {j : Nat}
    (h : Answered m j k k n n') : nextStarts c (s.responded w m k) n' = startsAfterResponse c s n := by
  have hexec : n'.usage.tasks.executing = n.usage.tasks.executing - 1 := by
    rw [h.executing, if_pos rfl]
  have hbelow (b : WorkerNode Data) (hb : b.usage = n'.usage) :
      (s.responded w m k).belowConcurrency b = decide (n.usage.tasks.executing - 1 < c) := by
    simp only [Pool.belowConcurrency, responded_concurrency, hconc, Option.any_some, hb, hexec]
  unfold nextStarts startsAfterResponse takenStarts stolenStarts
  simp only [hbelow, h.tasksQueue, hexec, h.onEmptyQueue, h.onEmptyQueueCount, h.info, stealable_responded,
    List.length_tail]
  by_cases hlen : 0 < n.tasksQueue.length
  · by_cases hlt : n.usage.tasks.executing - 1 < c
    · have hone : n.tasksQueue.length - 1 = 0 ↔ n.tasksQueue.length = 1 := by omega
      simp only [gt_iff_lt, hlen, hlt, decide_true, Bool.and_self, if_true, and_self, hone, Bool.and_true,
        Bool.and_eq_true, decide_eq_true_eq]
      by_cases h1 : n.tasksQueue.length = 1 <;> by_cases h2 : n.onEmptyQueue = true <;>
        by_cases h3 : n.onEmptyQueueCount = 0 <;> by_cases h4 : s.stealable n.info.id = true <;> simp [h1, h2, h3, h4]
    · simp [hlt]
  · simp [hlen]

/-- The counters after a response. -/
theorem ResponseStep.starts (h : ResponseStep s w m k fuel n s') (hp : FixedPool s 0)
    (hq : s.opts.enableTasksQueue = true) (hconc : s.concurrency = some c)
    (hs : s.All (Within s.queueSize c fun _ => False)) {a : WorkerNode Data} (ha : s.workerNodes[k]? = some a) :
    s'.All fun i b => Within s.queueSize c (fun i => i = k) i b ∧
      (i = k → b.usage.tasks.executing = a.usage.tasks.executing - 1 + startsAfterResponse c s a) := by
  have hsize : (s.responded w m k).queueSize = s.queueSize := by
    unfold Pool.queueSize
    rw [responded_opts]
  obtain ⟨a', ha'⟩ := Pool.node_of_length (Pool.length_responded s w m k) ha
  obtain ⟨b, hb, hans⟩ := Pool.node_of_responded ha'
  rw [ha] at hb
  cases hb
  have hwithin : (s.responded w m k).All (Within (s.responded w m k).queueSize c fun i => i = k) := by
    intro i b' hb'
    obtain ⟨b, hb, hansb⟩ := Pool.node_of_responded hb'
    obtain ⟨hz, hle⟩ := hs i b hb
    unfold Within
    rw [hsize, hansb.tasksQueueBackPressureSize, hansb.executing]
    refine ⟨hz, .inr ?_⟩
    have hle := hle.resolve_left id
    split <;> omega
  have hnext := executeNextTask_starts (hp.responded (k := k) h.node h.inFlight) (by rw [responded_opts]; exact hq)
    (by rw [responded_concurrency]; exact hconc) ha' hwithin h.next
  intro i b hb
  have hib := hnext i b hb
  rw [nextStarts_responded hconc hans, hsize, hans.executing, if_pos rfl] at hib
  exact hib

end Step

/-! ## Runs -/

/-- The response is counted at a node one below its quota without it, which then dequeues its last
task, and has another one to steal. -/
def StealsAtQuota (s : Pool Data Response) : Event Data Response → Prop
  | .message _ (.taskResponse m) =>
    ∃ k ∈ s.promiseResponseMap.lookup m.taskId, ∃ n ∈ s.workerNodes[k]?,
      s.concurrency = some (n.usage.tasks.executing - 1 + 1) ∧ n.tasksQueue.length = 1 ∧ n.onEmptyQueue = true ∧
        n.onEmptyQueueCount = 0 ∧ s.stealable n.info.id = true
  | _ => False

instance (s : Pool Data Response) : DecidablePred (StealsAtQuota s)
  | .message _ (.taskResponse m) =>
    inferInstanceAs (Decidable (∃ k ∈ s.promiseResponseMap.lookup m.taskId, ∃ n ∈ s.workerNodes[k]?,
      s.concurrency = some (n.usage.tasks.executing - 1 + 1) ∧ n.tasksQueue.length = 1 ∧ n.onEmptyQueue = true ∧
        n.onEmptyQueueCount = 0 ∧ s.stealable n.info.id = true))
  | .execute .. | .poll _ | .enableTasksQueue .. | .setTasksQueueOptions _ | .message _ (.killRequest _)
  | .message _ (.killAnswer _) | .message _ (.ready ..) | .message _ (.taskFunctionNames _) | .error _ | .exit _
  | .start | .destroy | .destroyed => inferInstanceAs (Decidable False)

section Runs
variable {s₀ s s' : Pool Data Response} {c : Nat}

/-- After a response every node is within the quota, unless the node that counts it steals at its quota. -/
theorem ResponseStep.within_iff {w k fuel : Nat} {m : TaskResponse Response} {n : WorkerNode Data}
    (h : ResponseStep s w m k fuel n s') (hp : FixedPool s 0) (hq : s.opts.enableTasksQueue = true)
    (hconc : s.concurrency = some c) (hs : s.All (Within s.queueSize c fun _ => False)) :
    s'.All (Within s.queueSize c fun _ => False) ↔ ¬ StealsAtQuota s (.message w (.taskResponse m)) := by
  obtain ⟨a, ha⟩ := Pool.node_of_lt h.key
  have hstarts := h.starts hp hq hconc hs ha
  have hle := ((hs k a ha).2).resolve_left id
  constructor
  · rintro hs' ⟨k', hk', a', ha', hquota, hlen, hon, hcount, hsteal⟩
    have hk : k' = k := Option.some.inj (hk'.symm.trans h.entry)
    subst hk
    have heq : a' = a := Option.some.inj (ha'.symm.trans ha)
    subst heq
    have hlt : k' < s'.workerNodes.length := by
      rw [(h.reached hp).lt]
      simpa only [Pool.length_responded] using h.key
    obtain ⟨b, hb⟩ := Pool.node_of_lt hlt
    have hexec := (hstarts k' b hb).2 rfl
    have hb' := ((hs' k' b hb).2).resolve_left id
    rw [hconc, Option.some.injEq] at hquota
    unfold startsAfterResponse at hexec
    rw [if_pos ⟨by omega, by omega⟩, if_pos ⟨hlen, hon, hcount, hsteal⟩] at hexec
    omega
  · intro hno i b hb
    obtain ⟨⟨hz, hor⟩, hexec⟩ := hstarts i b hb
    refine ⟨hz, .inr ?_⟩
    rcases hor with rfl | hle'
    · have hexec := hexec rfl
      unfold startsAfterResponse at hexec
      split at hexec
      · rename_i hnext
        split at hexec
        · rename_i hboth
          -- two tasks are started: within the quota, or the excluded case
          by_contra hgt
          refine hno ⟨i, h.entry, a, ha, ?_, hboth⟩
          rw [hconc, Option.some.injEq]
          omega
        · omega
      · omega
    · exact hle'

/-- From nodes within their quota, a step leaves them there just when no node steals at its quota. -/
theorem within_step_iff {e : Event Data Response} (hp : QueuePool s₀ s) (hq : s₀.opts.enableTasksQueue = true)
    (hconc : s₀.concurrency = some c) (he : QueueEvent s e) (hs : s.All (Within s.queueSize c fun _ => False))
    (h : Step s e s') : s'.All (Within s.queueSize c fun _ => False) ↔ ¬ StealsAtQuota s e := by
  obtain ⟨now, hstep⟩ := fixedStep_of_step hp.pool he.fixedEvent h
  have he' : QueueEvent { s with now } e := by
    cases e <;> exact he
  have hresponse {w m k fuel n} (hx : ResponseStep { s with now } w m k fuel n s') :=
    hx.within_iff (c := c) (hp.now now).pool ((congrArg PoolOptions.enableTasksQueue hp.opts).trans hq)
      (hp.concurrency.trans hconc) hs
  constructor
  · intro hs' hsteals
    cases hstep with
    | responded hn hm hl hk hx => exact (hresponse ⟨hn, hm, hl, hk, hx⟩).1 hs' hsteals
    | informed f hm hf =>
      rename_i w message
      cases message <;> first | exact hsteals | exact absurd rfl (hm _)
    | ignored hm =>
      rename_i w message
      cases message <;> first | exact hsteals | exact absurd rfl (hm _)
    | refused x hid ha => exact hsteals
    | executed hid ha hk hm => exact hsteals
    | polled hk hx => exact hsteals
    | reconfigured hconf hx =>
      rcases hconf with ⟨b, o, rfl⟩ | ⟨o, rfl⟩
      · exact hsteals
      · exact hsteals
  · intro hno
    have hkept : Kept Response True s₀.concurrency
        (Within s.queueSize c (fun _ => False) : Nat → WorkerNode Data → Prop) := by
      rw [hconc]
      exact kept_within _ _ _
    refine (hstep.all (hp.now now) hq he' hkept hs fun w m k fuel n hm hx => ?_).2
    subst hm
    exact (hresponse hx).2 hno

/-- While no node steals at its quota, every node counts at most `c` executing tasks. -/
theorem executing_le_concurrency {es : List (Event Data Response)} (h₀ : Fresh s₀)
    (hfixed : s₀.type = .fixed ∨ s₀.full = true) (hsend : ∀ t, s₀.postable t = true)
    (hq : s₀.opts.enableTasksQueue = true) (hconc : s₀.concurrency = some c)
    (hr : Run (Guarded (fun s e => QueueEvent s e ∧ ¬ StealsAtQuota s e) Step) s₀ es s) :
    ∀ n ∈ s.workerNodes, n.usage.tasks.executing ≤ c := by
  have hall : s.All (Within s₀.queueSize c fun _ => False) := by
    have hkept : Kept Response True s₀.concurrency
        (Within s₀.queueSize c (fun _ => False) : Nat → WorkerNode Data → Prop) := by
      rw [hconc]
      exact kept_within _ _ _
    refine all_of_run h₀ hfixed hsend hq hr hkept (fun i n hn => ?_) ?_
    · refine ⟨hn.size, .inr ?_⟩
      rw [hn.executing]
      exact Nat.zero_le c
    · intro s s' w m k fuel n now hp hno hs hx
      have hq' := (congrArg PoolOptions.enableTasksQueue hp.opts).trans hq
      rw [← hp.queueSize] at hs ⊢
      exact (hx.within_iff (hp.now now).pool hq' (hp.concurrency.trans hconc) hs).2 hno
  intro n hn
  obtain ⟨i, hi⟩ := List.mem_iff_getElem?.1 hn
  exact ((hall i n hi).2).resolve_left id

end Runs

/-- The second worker runs dry, polls, and steals when the first has a task to spare. -/
def stealWhenPolling : List (Event Unit Unit) :=
  [submit 0 1, submit 1 1, respond 1 0, respond 1 1, submit 2 0, submit 3 0, .poll 1]

theorem executing_le_concurrency_poll :
    ∃ s, Run (Guarded (fun s e => QueueEvent s e ∧ ¬ StealsAtQuota s e) Step)
      (startedPool 2 true ⟨some 4, some 1, true, false⟩) stealWhenPolling s ∧
      (∃ n ∈ s.workerNodes, n.usage.tasks.stolen = 1) ∧ ∀ n ∈ s.workerNodes, n.usage.tasks.executing ≤ 1 := by
  obtain ⟨s, hr, hs⟩ := run_to (fun s e => QueueEvent s e ∧ ¬ StealsAtQuota s e) 5
    (startedPool 2 true ⟨some 4, some 1, true, false⟩) stealWhenPolling
    (P := fun s => ∃ n ∈ s.workerNodes, n.usage.tasks.stolen = 1) (by decide +kernel)
  exact ⟨s, hr, hs, executing_le_concurrency (fresh_startedPool 2 true _) (.inl rfl) (fun _ => rfl) rfl rfl hr⟩

/-- With a quota of one, a worker that dequeues its last task while another has one to steal starts both. -/
theorem quota_exceeded :
    ¬ ∀ (s₀ s : Pool Unit Unit) (es : List (Event Unit Unit)) (c : Nat), Fresh s₀ →
      (s₀.type = .fixed ∨ s₀.full = true) → (∀ t, s₀.postable t = true) → s₀.opts.enableTasksQueue = true →
      s₀.concurrency = some c → s₀.opts.tasksQueueOptions.any (·.taskStealing) = true →
      Run (Guarded QueueEvent Step) s₀ es s → ∀ n ∈ s.workerNodes, n.usage.tasks.executing ≤ c := by
  intro hall
  obtain ⟨s, hr, n, hn, hgt⟩ := run_to QueueEvent 5 (startedPool 2 true ⟨some 4, some 1, true, false⟩)
    [submit 0 0, submit 1 0, submit 2 1, submit 3 1, respond 1 2]
    (P := fun s => ∃ n ∈ s.workerNodes, 1 < n.usage.tasks.executing) (by decide +kernel)
  exact Nat.not_le.2 hgt (hall _ s _ 1 (fresh_startedPool 2 true _) (.inl rfl) (fun _ => rfl) rfl rfl rfl hr n hn)

end Poolifier
