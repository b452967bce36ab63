import Poolifier.QueueRuns
/-!
# A node that steals on an empty queue

A node whose queue runs empty steals a task for itself, and the queue it takes
from may run empty in turn. However deep that nests, a steal puts at most one
task on an empty queue, where back pressure asks for no help, so the other nodes
with an empty queue are left alone, and the thief starts at most one task
(`Serves`).
-/

namespace Poolifier

open EffLib WorkerNode

variable {Data Response : Type}

/-! ## What a steal does -/

/-- Ids are unique, and the nodes have the queue size of the options. -/
structure Synced (p : Pool Data Response) : Prop where
  ids : (p.workerNodes.map (·.info.id)).Nodup
  size : ∀ n ∈ p.workerNodes, ∀ z, p.queueSize = some z → n.tasksQueueBackPressureSize = some z

theorem Synced.frame {p p' : Pool Data Response} (h : Synced p) (hf : Frame p p') : Synced p' where
  ids := by
    rw [hf.ids]
    exact h.ids
  size n' hn' z hz := by
    obtain ⟨i, hi⟩ := List.mem_iff_getElem?.1 hn'
    obtain ⟨n, hn, hs⟩ := hf.node hi
    rw [hs.tasksQueueBackPressureSize]
    exact h.size n (List.mem_of_getElem? hn) z (hf.queueSize ▸ hz)

/-- The key of a worker's node is found by the worker's id. -/
theorem Synced.key_of_node {p : Pool Data Response} (h : Synced p) {k : Nat} {n : WorkerNode Data}
    (hn : p.workerNodes[k]? = some n) : p.getWorkerNodeKeyByWorkerId n.info.id = k := by
  have hat := Pool.node_of_key h.ids (List.mem_of_getElem? hn)
  -- the nodes at both keys have one id
  have hids : (p.workerNodes.map (·.info.id))[p.getWorkerNodeKeyByWorkerId n.info.id]? =
      (p.workerNodes.map (·.info.id))[k]? := by
    rw [List.getElem?_map, List.getElem?_map, hat, hn]
  have hlt : p.getWorkerNodeKeyByWorkerId n.info.id < (p.workerNodes.map (·.info.id)).length := by
    rw [List.length_map]
    exact Pool.lt_of_node hat
  exact (List.getElem?_inj hlt h.ids).1 hids

/-- From `s` to `s'` the node `k` is served: it starts `d` tasks, and the other nodes whose queue
was empty are as they were. -/
structure Serves (k d : Nat) (s s' : Pool Data Response) : Prop where
  frame : Frame s s'
  idle : ∀ (j : Nat) n, j ≠ k → s.workerNodes[j]? = some n → n.tasksQueue = [] → s'.workerNodes[j]? = some n
  executing : ∀ n n', s.workerNodes[k]? = some n → s'.workerNodes[k]? = some n' →
    n'.usage.tasks.executing = n.usage.tasks.executing + d

section Serves
variable {k d d' : Nat} {s s' s'' : Pool Data Response}

theorem Serves.refl (k : Nat) (s : Pool Data Response) : Serves k 0 s s where
  frame := .refl s
  idle _ _ _ hn _ := hn
  executing n n' hn hn' := by
    rw [hn] at hn'
    cases hn'
    rfl

theorem Serves.trans (h : Serves k d s s') (h' : Serves k d' s' s'') : Serves k (d + d') s s'' where
  frame := h.frame.trans h'.frame
  idle j n hj hn hq := h'.idle j n hj (h.idle j n hj hn hq) hq
  executing n n'' hn hn'' := by
    obtain ⟨n', hn', -⟩ := h'.frame.node hn''
    rw [h'.executing n' n'' hn' hn'', h.executing n n' hn hn']
    omega

theorem Serves.modifyNode (s : Pool Data Response) (k : Nat) {f : WorkerNode Data → WorkerNode Data}
    (hf : ∀ n, s.workerNodes[k]? = some n → SameSetup n (f n))
    (he : ∀ n, s.workerNodes[k]? = some n → (f n).usage.tasks.executing = n.usage.tasks.executing + d) :
    Serves k d s (s.modifyNode k f) where
  frame := .modifyNode s k f hf
  idle j n hj hn _ := by
    rw [Pool.getElem?_modifyNode_ne f (Ne.symm hj)]
    exact hn
  executing n n' hn hn' := by
    rw [Pool.getElem?_modifyNode_self f hn] at hn'
    cases hn'
    exact he n hn

theorem Serves.caught (h : Serves k d s s') (m : Nat) : Serves k d s { s' with errorsCaught := s'.errorsCaught + m } where
  frame := by
    refine ⟨?_, ?_, h.frame.length, h.frame.setup⟩
    · rw [h.frame.rest]
    · exact h.frame.errorsCaught.trans (Nat.le_add_right _ _)
  idle := h.idle
  executing := h.executing

/-- Serving the node `j`, whose queue is not empty, touches no node with an empty queue. -/
theorem Serves.other (h : Serves k d s s') {j : Nat} {n : WorkerNode Data} (hn : s.workerNodes[k]? = some n)
    (hne : n.tasksQueue ≠ []) (hj : ∀ a, s.workerNodes[j]? = some a → a.tasksQueue = []) : Serves j 0 s s' where
  frame := h.frame
  idle i a _ ha hq := by
    refine h.idle i a (fun hi => ?_) ha hq
    subst hi
    rw [hn] at ha
    cases ha
    exact hne hq
  executing a a' ha ha' := by
    have hjk : j ≠ k := by
      intro h
      subst h
      rw [hn] at ha
      cases ha
      exact hne (hj n hn)
    rw [h.idle j a hjk ha (hj a ha)] at ha'
    cases ha'
    rfl

end Serves

/-- Whether a ready node of another worker has a task to steal. -/
def Pool.stealable (p : Pool Data Response) (workerId : Nat) : Bool :=
  p.workerNodes.any fun n => n.info.ready && n.info.id ≠ workerId && n.tasksQueue.length > 0

theorem emptyQueueStealSource_isSome (p : Pool Data Response) (workerId : Nat) :
    (emptyQueueStealSource p workerId).isSome = p.stealable workerId := by
  rw [Bool.eq_iff_iff]
  unfold emptyQueueStealSource Pool.stealable
  rw [List.find?_isSome, List.any_eq_true]
  constructor
  · rintro ⟨⟨n, i⟩, hm, hp⟩
    rw [List.mem_insertionSort, List.mem_zipIdx_iff_getElem?] at hm
    exact ⟨n, List.mem_of_getElem? hm, hp⟩
  · rintro ⟨n, hn, hp⟩
    obtain ⟨i, hi⟩ := List.mem_iff_getElem?.1 hn
    refine ⟨(n, i), ?_, hp⟩
    rw [List.mem_insertionSort, List.mem_zipIdx_iff_getElem?]
    exact hi

/-- What can be stolen depends on the infos and the queues of the nodes. -/
theorem stealable_congr {p p' : Pool Data Response}
    (h : p'.workerNodes.map (fun n => (n.info, n.tasksQueue)) = p.workerNodes.map fun n => (n.info, n.tasksQueue))
    (workerId : Nat) : p'.stealable workerId = p.stealable workerId := by
  have hmap (l : List (WorkerNode Data)) : (l.any fun n => n.info.ready && n.info.id ≠ workerId && n.tasksQueue.length > 0) =
      ((l.map fun n => (n.info, n.tasksQueue)).any fun a => a.1.ready && a.1.id ≠ workerId && a.2.length > 0) := by
    rw [List.any_map]
    rfl
  unfold Pool.stealable
  rw [hmap, hmap, h]

theorem stealable_modifyNode {p : Pool Data Response} {k workerId : Nat} {f : WorkerNode Data → WorkerNode Data}
    (hf : ∀ n, (f n).info = n.info ∧ (f n).tasksQueue = n.tasksQueue) :
    (p.modifyNode k f).stealable workerId = p.stealable workerId :=
  stealable_congr (map_modify_same fun n _ => by rw [(hf n).1, (hf n).2]) _

/-- What a node can steal does not change with its own queue. -/
theorem stealable_modifyNode_own {p : Pool Data Response} {k : Nat} {n : WorkerNode Data}
    (hn : p.workerNodes[k]? = some n) {f : WorkerNode Data → WorkerNode Data} (hf : (f n).info = n.info) :
    (p.modifyNode k f).stealable n.info.id = p.stealable n.info.id := by
  rw [Bool.eq_iff_iff]
  unfold Pool.stealable
  simp only [List.any_eq_true, Bool.and_eq_true, decide_eq_true_eq]
  constructor
  · rintro ⟨a', ha', hp⟩
    obtain ⟨i, hi⟩ := List.mem_iff_getElem?.1 ha'
    obtain ⟨a, ha, rfl⟩ := Pool.node_of_modifyNode hi
    by_cases hk : k = i
    · subst hk
      rw [hn] at ha
      cases ha
      rw [if_pos rfl, hf] at hp
      exact absurd rfl hp.1.2
    · rw [if_neg hk] at hp
      exact ⟨a, List.mem_of_getElem? ha, hp⟩
  · rintro ⟨a, ha, hp⟩
    obtain ⟨i, hi⟩ := List.mem_iff_getElem?.1 ha
    have hk : k ≠ i := by
      intro hk
      subst hk
      rw [hn] at hi
      cases hi
      exact hp.1.2 rfl
    rw [← Pool.getElem?_modifyNode_ne f hk] at hi
    exact ⟨a, List.mem_of_getElem? hi, hp⟩

/-- How many tasks a node with an empty queue starts when it is asked to steal: one, if there is
a task to steal and its quota allows it. -/
def stolenStarts (p : Pool Data Response) (n : WorkerNode Data) : Nat :=
  if p.stealable n.info.id && p.belowConcurrency n then 1 else 0

/-- What is asked of the callbacks: a steal serves the thief, and back pressure on queues of
size one does nothing. -/
structure QuietCallbacks (cb : Callbacks Data Response) : Prop where
  onEmptyQueue : ∀ {s k n}, Synced s → s.workerNodes[k]? = some n → n.tasksQueue = [] →
    wp (cb.onEmptyQueue n.info.id) (fun _ => Serves k (stolenStarts s n) s) (fun _ => Serves k (stolenStarts s n) s) s
  onBackPressure : ∀ {s} (workerId : Nat), s.queueSize.all (· ≤ 1) = true →
    wp (cb.onBackPressure workerId) (fun _ s' => s' = s) (fun _ s' => s' = s) s

section Code
variable {cb : Callbacks Data Response} {s : Pool Data Response} {k : Nat} {n : WorkerNode Data} {t : Task Data}

/-- A single task on a queue causes back pressure only where the queue size is one. -/
theorem enqueueTask_serves (hcb : QuietCallbacks cb) (hs : Synced s) (hn : s.workerNodes[k]? = some n)
    (hq : n.tasksQueue = []) :
    wp (enqueueTask cb k t) (fun _ => Serves k 0 s) (fun _ => Serves k 0 s) s := by
  have hpush : Serves k 0 s (s.modifyNode k fun n => { n with tasksQueue := n.tasksQueue ++ [t] }) :=
    .modifyNode s k (fun m _ => sameSetup_of_queue m _) fun m _ => rfl
  have hn' := Pool.getElem?_modifyNode_self (fun m => { m with tasksQueue := m.tasksQueue ++ [t] }) hn
  have hflag (p : Pool Data Response) (b : Bool) :
      Serves k 0 p (p.modifyNode k fun n => { n with onBackPressureStarted := b }) :=
    .modifyNode p k (fun m _ => ⟨rfl, rfl, rfl, rfl, rfl, rfl, rfl, id⟩) fun m _ => rfl
  simp only [enqueueTask, wp_bind, wp_nodeAt hn, wp_modifyNode, wp_nodeAt hn']
  split
  · rename_i hc
    have hsize : s.queueSize.all (· ≤ 1) = true := by
      rcases hz : s.queueSize with _ | z
      · rfl
      · have hbp := hs.size n (List.mem_of_getElem? hn) z hz
        simp only [hasBackPressure, hbp, hq, List.nil_append, List.length_singleton, Option.any_some,
          Bool.and_eq_true, decide_eq_true_eq] at hc
        simpa using hc.1.2
    simp only [wp_bind, wp_modifyNode]
    refine wp_mono (hcb.onBackPressure _ hsize) (fun _ s' h => ?_) fun _ s' h => ?_
    · subst h
      exact (hpush.trans (hflag _ true)).trans (hflag _ false)
    · subst h
      exact hpush.trans (hflag _ true)
  · simpa using hpush

theorem executeOrEnqueueTask_serves (hcb : QuietCallbacks cb) (hs : Synced s) (hn : s.workerNodes[k]? = some n)
    (hq : n.tasksQueue = []) :
    wp (executeOrEnqueueTask cb k t) (fun _ => Serves k (if s.belowConcurrency n then 1 else 0) s)
      (fun _ => Serves k (if s.belowConcurrency n then 1 else 0) s) s := by
  have hshall : s.shallExecute n = s.belowConcurrency n := by
    simp [Pool.shallExecute, hq]
  simp only [executeOrEnqueueTask, wp_bind, wp_shallExecuteTask hn, hshall]
  rcases hb : s.belowConcurrency n with _ | _
  · simpa using enqueueTask_serves hcb hs hn hq
  · simp only [if_true]
    rcases hsend : s.canSend n t with _ | _
    · refine wp_executeTask_throws hn hsend fun e => ?_
      refine .modifyNode s k (fun m _ => sameSetup_beforeTaskExecution _ _ _ m) fun m _ => ?_
      obtain ⟨u, hu⟩ := beforeTaskExecution_eq s.taskStatisticsRequirements s.now t m
      rw [hu]
      rfl
    · rw [wp_executeTask hn hsend]
      refine .modifyNode s k (fun m _ => ?_) fun m _ => startTask_executing s t m
      exact (sameSetup_beforeTaskExecution _ _ _ m).trans (sameSetup_receive _ _)

theorem dispatchStolenTask_serves (hcb : QuietCallbacks cb) (hs : Synced s) (hn : s.workerNodes[k]? = some n)
    (hq : n.tasksQueue = []) :
    wp (dispatchStolenTask cb k (some t)) (fun _ => Serves k (if s.belowConcurrency n then 1 else 0) s)
      (fun _ => Serves k (if s.belowConcurrency n then 1 else 0) s) s := by
  simp only [dispatchStolenTask, wp_bind]
  refine wp_mono (executeOrEnqueueTask_serves hcb hs hn hq) (fun _ s' h => ?_) fun _ _ h => h
  obtain ⟨n', hn'⟩ := Pool.node_of_length h.frame.length hn
  simp only [updateTaskStolenStatisticsWorkerUsage, wp_bind, wp_nodeAt hn', wp_modifyNode]
  have hstolen : Serves k 0 s' (s'.modifyNode k (·.stealTask t.name)) :=
    .modifyNode s' k (fun m _ => (sameTasks_stealTask _ m).setup) fun m _ => (sameTasks_stealTask _ m).executing
  exact h.trans hstolen

/-- How many tasks a node starts when a task has been taken out of its queue. -/
def takenStarts (p : Pool Data Response) (n : WorkerNode Data) : Nat :=
  if n.onEmptyQueue && n.tasksQueue.length = 0 && n.onEmptyQueueCount = 0 then stolenStarts p n else 0

/-- The first round of the polling loop of a node whose queue has run empty. -/
theorem startOnEmptyQueueCaught_serves (hcb : QuietCallbacks cb) (hs : Synced s) (hn : s.workerNodes[k]? = some n)
    (hq : n.tasksQueue = []) (hcount : n.onEmptyQueueCount = 0) (hon : n.onEmptyQueue = true) :
    wp (startOnEmptyQueueCaught cb k) (fun _ => Serves k (stolenStarts s n) s) (fun _ _ => False) s := by
  let bump (m : WorkerNode Data) : WorkerNode Data :=
    { m with onEmptyQueueCount := m.onEmptyQueueCount + 1, polling := true }
  have hbump : Serves k 0 s (s.modifyNode k bump) :=
    .modifyNode s k (fun m _ => ⟨rfl, rfl, rfl, rfl, rfl, rfl, rfl, fun _ _ => Nat.succ_pos _⟩) fun m _ => rfl
  have hn' : (s.modifyNode k bump).workerNodes[k]? = some (bump n) := Pool.getElem?_modifyNode_self bump hn
  have hstarts : stolenStarts (s.modifyNode k bump) (bump n) = stolenStarts s n := by
    unfold stolenStarts
    rw [stealable_modifyNode (f := bump) fun m => ⟨rfl, rfl⟩]
    rfl
  have hsteal := hcb.onEmptyQueue (hs.frame hbump.frame) hn' hq
  rw [hstarts] at hsteal
  rw [startOnEmptyQueueCaught, wp_swallow, wp_congr (startOnEmptyQueue_first hn hcount), if_pos hon]
  have hbump' : ∀ s', Serves k (stolenStarts s n) (s.modifyNode k bump) s' → Serves k (stolenStarts s n) s s' := by
    intro s' h
    have := hbump.trans h
    rwa [Nat.zero_add] at this
  refine wp_mono hsteal (fun _ s' h => hbump' s' h) fun _ s' h => ?_
  have hstop : Serves k 0 s' (s'.modifyNode k fun m => { m with polling := false }) :=
    .modifyNode s' k (fun m _ => ⟨rfl, rfl, rfl, rfl, rfl, rfl, rfl, fun _ hp => by cases hp⟩) fun m _ => rfl
  exact ((hbump' s' h).trans hstop).caught 1

theorem afterTaken_serves (hcb : QuietCallbacks cb) (hs : Synced s) (hn : s.workerNodes[k]? = some n) :
    wp (afterTaken cb k) (fun _ => Serves k (takenStarts s n) s) (fun _ _ => False) s := by
  simp only [afterTaken, wp_bind, wp_nodeAt hn, takenStarts]
  split
  · rename_i hc
    simp only [Bool.and_eq_true, decide_eq_true_eq, List.length_eq_zero_iff] at hc
    exact startOnEmptyQueueCaught_serves hcb hs hn hc.1.2 hc.2 hc.1.1
  · rw [wp_pure]
    exact .refl k s

/-- Popping the last task of a queue, with what that sets off. -/
theorem popTask_serves (hcb : QuietCallbacks cb) (hs : Synced s) (hn : s.workerNodes[k]? = some n)
    {q : List (Task Data)} (hq : n.tasksQueue = q ++ [t]) :
    wp (popTask cb k) (fun r s' => r = some t ∧ ∃ d, Serves k d s s') (fun _ _ => False) s := by
  have hn' := Pool.getElem?_modifyNode_self (fun m => { m with tasksQueue := m.tasksQueue.dropLast }) hn
  have htake : Serves k 0 s (s.modifyNode k fun m => { m with tasksQueue := m.tasksQueue.dropLast }) :=
    .modifyNode s k (fun m _ => sameSetup_of_queue m _) fun m _ => rfl
  simp only [popTask, wp_bind, wp_nodeAt hn, wp_modifyNode, wp_pure, hq, List.getLast?_append, List.getLast?_singleton,
    Option.some_or, true_and]
  exact wp_mono (afterTaken_serves hcb (hs.frame htake.frame) hn') (fun _ s' h => ⟨_, htake.trans h⟩) fun _ _ h => h

/-- Taking the first task of a queue, with what that sets off. -/
theorem dequeueTask_serves (hcb : QuietCallbacks cb) (hs : Synced s) (hn : s.workerNodes[k]? = some n)
    {q : List (Task Data)} (hq : n.tasksQueue = t :: q) :
    wp (dequeueTask cb k) (fun r s' => r = some t ∧ Serves k (takenStarts s { n with tasksQueue := q }) s s')
      (fun _ _ => False) s := by
  have hn' := Pool.getElem?_modifyNode_self (fun m => { m with tasksQueue := m.tasksQueue.tail }) hn
  have htake : Serves k 0 s (s.modifyNode k fun m => { m with tasksQueue := m.tasksQueue.tail }) :=
    .modifyNode s k (fun m _ => sameSetup_of_queue m _) fun m _ => rfl
  have hstarts : takenStarts (s.modifyNode k fun m => { m with tasksQueue := m.tasksQueue.tail })
      { n with tasksQueue := n.tasksQueue.tail } = takenStarts s { n with tasksQueue := q } := by
    have hsteal := stealable_modifyNode_own (f := fun m => { m with tasksQueue := m.tasksQueue.tail }) hn rfl
    simp only [takenStarts, stolenStarts, hsteal, hq, List.tail_cons]
    rfl
  have htaken := afterTaken_serves hcb (hs.frame htake.frame) hn'
  rw [hstarts] at htaken
  simp only [dequeueTask, wp_bind, wp_nodeAt hn, wp_modifyNode, wp_pure, hq, List.head?_cons, true_and]
  refine wp_mono htaken (fun _ s' h => ?_) fun _ _ h => h
  have := htake.trans h
  rwa [Nat.zero_add] at this

theorem taskStealingOnEmptyQueue_serves (hcb : QuietCallbacks cb) (hs : Synced s) (hn : s.workerNodes[k]? = some n)
    (hq : n.tasksQueue = []) :
    wp (taskStealingOnEmptyQueue cb n.info.id) (fun _ => Serves k (stolenStarts s n) s)
      (fun _ => Serves k (stolenStarts s n) s) s := by
  have hkey := hs.key_of_node hn
  simp only [taskStealingOnEmptyQueue, wp_bind, wp_get, hkey]
  have hsome := emptyQueueStealSource_isSome s n.info.id
  rcases hsource : emptyQueueStealSource s n.info.id with _ | ⟨a, source⟩
  · rw [hsource, Option.isSome_none] at hsome
    simp only [wp_pure, stolenStarts, ← hsome, Bool.false_and, Bool.false_eq_true, if_false]
    exact .refl k s
  · rw [hsource, Option.isSome_some] at hsome
    obtain ⟨ha, -, -, hne⟩ := emptyQueueStealSource_some hsource
    have hlast := (List.dropLast_append_getLast hne).symm
    have hstarts : stolenStarts s n = if s.belowConcurrency n then 1 else 0 := by
      simp only [stolenStarts, ← hsome, Bool.true_and]
    simp only [wp_bind, hstarts]
    refine wp_mono (popTask_serves hcb hs ha hlast) (fun r s' h => ?_) fun _ _ h => h.elim
    obtain ⟨rfl, d, h⟩ := h
    -- the thief is as it was: its queue is empty, that of the source is not
    have hthief : Serves k 0 s s' := by
      refine h.other ha hne fun b hb => ?_
      rw [hn] at hb
      cases hb
      exact hq
    have hn' : s'.workerNodes[k]? = some n := by
      refine h.idle k n (fun hk => ?_) hn hq
      subst hk
      rw [hn] at ha
      cases ha
      exact hne hq
    have hbelow : s'.belowConcurrency n = s.belowConcurrency n := by
      unfold Pool.belowConcurrency
      rw [h.frame.concurrency]
    have hgive := dispatchStolenTask_serves (t := a.tasksQueue.getLast hne) hcb (hs.frame h.frame) hn' hq
    rw [hbelow] at hgive
    have hsum : ∀ s'', Serves k (if s.belowConcurrency n then 1 else 0) s' s'' →
        Serves k (if s.belowConcurrency n then 1 else 0) s s'' := by
      intro s'' h'
      have := hthief.trans h'
      rwa [Nat.zero_add] at this
    exact wp_mono hgive (fun _ s'' h' => hsum s'' h') fun _ s'' h' => hsum s'' h'

theorem tasksStealingOnBackPressure_quiet (workerId : Nat) (hsize : s.queueSize.all (· ≤ 1) = true) :
    wp (tasksStealingOnBackPressure cb workerId) (fun _ s' => s' = s) (fun _ s' => s' = s) s := by
  simp only [tasksStealingOnBackPressure, wp_bind, wp_get]
  split
  · simp
  · rename_i hany
    have hnone : s.queueSize = none := by
      rcases hz : s.queueSize with _ | z
      · rfl
      · rw [hz] at hsize hany
        simp only [Option.all_some] at hsize
        exact absurd hsize (by simpa using hany)
    -- without a queue size the test of every pass fails
    refine wp_forEach rfl fun a _ s' hs' => ?_
    subst hs'
    rcases hsource : s'.workerNodes[s'.getWorkerNodeKeyByWorkerId workerId]? with _ | m
    · simp only [stealOnBackPressure, wp_bind, wp_nodeAt_none hsource]
    · simp only [stealOnBackPressure, wp_bind, wp_nodeAt hsource]
      split
      · rcases hnode : s'.workerNodes[a.1.2]? with _ | b
        · simp only [wp_bind, wp_nodeAt_none hnode]
        · simp [wp_nodeAt hnode, hnone]
      · simp

/-- The pool's callbacks serve the node that asks, however deep they nest. -/
theorem callbacks_quiet (fuel : Nat) : QuietCallbacks (callbacks fuel : Callbacks Data Response) := by
  induction fuel with
  | zero => exact ⟨fun _ _ _ => wp_diverge, fun _ _ => wp_diverge⟩
  | succ fuel ih =>
    exact ⟨fun hs hn hq => taskStealingOnEmptyQueue_serves ih hs hn hq,
      fun workerId hsize => tasksStealingOnBackPressure_quiet workerId hsize⟩

end Code

end Poolifier
