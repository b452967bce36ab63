import Poolifier.Lib.Simulation
import Poolifier.Places
import Poolifier.Plain
import Poolifier.Started
/-!
# How deep stealing nests

Enqueueing and taking tasks calls back into the pool, and the callbacks enqueue
and take tasks on other nodes. Every call of the empty queue callback raises the
count of a node that was zero; every call of the back pressure callback that is
under way holds the flag of a node of its own. So the sum of zero counts and
free flags falls from each call to those nested in it.
-/

namespace Poolifier

open EffLib WorkerNode

variable {Data Response : Type}

/-- The callbacks the pool installs, nesting at most `fuel` deep, and back pressure callbacks at most `depth` deep. -/
def nestedCallbacks : Nat → Nat → Callbacks Data Response
  | 0, _ => ⟨fun _ => Eff.diverge, fun _ => Eff.diverge⟩
  | fuel + 1, depth =>
    { onEmptyQueue := taskStealingOnEmptyQueue (nestedCallbacks fuel depth)
      onBackPressure := match depth with
        | 0 => fun _ => Eff.diverge
        | depth + 1 => tasksStealingOnBackPressure (nestedCallbacks fuel depth) }

/-! ## Zero counts and free flags -/

/-- The number of nodes whose polling loop can be started. -/
def Pool.zeroCounts (p : Pool Data Response) : Nat :=
  (p.workerNodes.map fun n => if n.onEmptyQueueCount = 0 then 1 else 0).sum

/-- The number of nodes whose back pressure callback is not under way. -/
def Pool.freeFlags (p : Pool Data Response) : Nat :=
  (p.workerNodes.map fun n => if n.onBackPressureStarted then 0 else 1).sum

theorem sum_map_le_length {α : Type} (g : α → Nat) (hg : ∀ a, g a ≤ 1) (l : List α) : (l.map g).sum ≤ l.length := by
  induction l with
  | nil => rfl
  | cons a l ih =>
    have := hg a
    simp only [List.map_cons, List.sum_cons, List.length_cons]
    omega

theorem Pool.freeFlags_le (p : Pool Data Response) : p.freeFlags ≤ p.workerNodes.length :=
  sum_map_le_length _ (fun n => by split <;> omega) _

/-- From `s` to `s'` tasks have moved; the back pressure callbacks under way are the same, and no count has become
zero. -/
structure Steady (s s' : Pool Data Response) : Prop where
  frame : Frame s s'
  flags : s'.workerNodes.map (·.onBackPressureStarted) = s.workerNodes.map (·.onBackPressureStarted)
  zeroCounts : s'.zeroCounts ≤ s.zeroCounts

section Steady
variable {s s' s'' : Pool Data Response} {k : Nat} {n : WorkerNode Data}

theorem Steady.refl (s : Pool Data Response) : Steady s s := ⟨.refl s, rfl, le_rfl⟩

theorem Steady.trans (h : Steady s s') (h' : Steady s' s'') : Steady s s'' :=
  ⟨h.frame.trans h'.frame, h'.flags.trans h.flags, h'.zeroCounts.trans h.zeroCounts⟩

theorem Steady.freeFlags (h : Steady s s') : s'.freeFlags = s.freeFlags := by
  have hflags (p : Pool Data Response) :
      p.freeFlags = ((p.workerNodes.map (·.onBackPressureStarted)).map fun b => if b then 0 else 1).sum := by
    unfold Pool.freeFlags
    rw [List.map_map]
    rfl
  rw [hflags, hflags, h.flags]

theorem Steady.started (h : Steady s s') (hn : s.workerNodes[k]? = some n) :
    ∃ n', s'.workerNodes[k]? = some n' ∧ n'.onBackPressureStarted = n.onBackPressureStarted := by
  obtain ⟨n', hn'⟩ := Pool.node_of_length h.frame.length hn
  have hk := congrArg (·[k]?) h.flags
  simp only [List.getElem?_map, hn, hn', Option.map_some, Option.some.injEq] at hk
  exact ⟨n', hn', hk⟩

/-- A change of a node that leaves its guards alone. -/
theorem Steady.modifyNode (s : Pool Data Response) (k : Nat) {f : WorkerNode Data → WorkerNode Data}
    (hsetup : ∀ n, SameSetup n (f n)) (hstarted : ∀ n, (f n).onBackPressureStarted = n.onBackPressureStarted)
    (hcount : ∀ n, (f n).onEmptyQueueCount = n.onEmptyQueueCount) : Steady s (s.modifyNode k f) where
  frame := .modifyNode s k f fun n _ => hsetup n
  flags := map_modify_same fun n _ => hstarted n
  zeroCounts := by
    refine le_of_eq (congrArg List.sum (map_modify_same fun n _ => ?_))
    rw [hcount]

/-- A loop has been started, or has begun another round. -/
theorem zeroCounts_modifyNode (hn : s.workerNodes[k]? = some n) (f : WorkerNode Data → WorkerNode Data) :
    (s.modifyNode k f).zeroCounts + (if n.onEmptyQueueCount = 0 then 1 else 0) =
      s.zeroCounts + (if (f n).onEmptyQueueCount = 0 then 1 else 0) :=
  sum_map_modify _ hn f

theorem freeFlags_modifyNode (hn : s.workerNodes[k]? = some n) (f : WorkerNode Data → WorkerNode Data) :
    (s.modifyNode k f).freeFlags + (if n.onBackPressureStarted then 0 else 1) =
      s.freeFlags + (if (f n).onBackPressureStarted then 0 else 1) :=
  sum_map_modify _ hn f

theorem steady_startTask (s : Pool Data Response) (k : Nat) (t : Task Data) : Steady s (s.modifyNode k (s.startTask t)) := by
  have hstart (n : WorkerNode Data) : (s.startTask t n).onBackPressureStarted = n.onBackPressureStarted ∧
      (s.startTask t n).onEmptyQueueCount = n.onEmptyQueueCount := by
    obtain ⟨m, h⟩ := beforeTaskExecution_eq s.taskStatisticsRequirements s.now t n
    rw [Pool.startTask, h]
    exact ⟨rfl, rfl⟩
  exact .modifyNode s k (sameSetup_startTask s t) (fun n => (hstart n).1) fun n => (hstart n).2

theorem steady_stealTask (s : Pool Data Response) (k : Nat) (name : String) : Steady s (s.modifyNode k (·.stealTask name)) := by
  have hsteal (n : WorkerNode Data) : (n.stealTask name).onBackPressureStarted = n.onBackPressureStarted ∧
      (n.stealTask name).onEmptyQueueCount = n.onEmptyQueueCount := by
    obtain ⟨m, h⟩ := updateTaskFunctionWorkerUsage_eq (some name) .stealTask { n with usage := n.usage.stealTask }
    rw [WorkerNode.stealTask, h]
    exact ⟨rfl, rfl⟩
  exact .modifyNode s k (fun n => (sameTasks_stealTask name n).setup) (fun n => (hsteal n).1) fun n => (hsteal n).2

/-- The list of what is read from each node, when one node changes. -/
theorem map_modifyNode {α : Type} (g : WorkerNode Data → α) (hn : s.workerNodes[k]? = some n)
    (f : WorkerNode Data → WorkerNode Data) : (s.modifyNode k f).workerNodes.map g = (s.workerNodes.map g).set k (g (f n)) := by
  apply List.ext_getElem?
  intro j
  rw [List.getElem?_map, Pool.getElem?_modifyNode, List.getElem?_set]
  by_cases hj : k = j
  · subst hj
    rw [hn, if_pos rfl, List.length_map, if_pos (Pool.lt_of_node hn), Option.map_some, if_pos rfl]
    rfl
  · rw [if_neg hj, List.getElem?_map]
    simp only [hj, if_false, Option.map_id']

end Steady

/-! ## Code that ends -/

/-- The callbacks that are still possible from `s` fit in `fuel`, those of back pressure in `depth`. -/
structure Room (s : Pool Data Response) (fuel depth : Nat) : Prop where
  live : Live s
  fuel : s.zeroCounts + s.freeFlags ≤ fuel
  depth : s.freeFlags ≤ depth

theorem Room.steady {s s' : Pool Data Response} {fuel depth : Nat} (h : Room s fuel depth) (hs : Steady s s') :
    Room s' fuel depth where
  live := hs.frame.live h.live
  fuel := by
    have hcounts := hs.zeroCounts
    have hfuel := h.fuel
    have hfree := hs.freeFlags
    omega
  depth := by
    rw [hs.freeFlags]
    exact h.depth

/-- What is asked of callbacks that nest at most `fuel` deep, back pressure callbacks at most `depth` deep: they
return from the states in which there is room for them. -/
structure CallbacksEnd (cb : Callbacks Data Response) (fuel depth : Nat) : Prop where
  onEmptyQueue : ∀ s workerId, Room s fuel depth → s.getWorkerNodeKeyByWorkerId workerId < s.workerNodes.length →
    s.zeroCounts + s.freeFlags < fuel → Returns (cb.onEmptyQueue workerId) (fun _ => Steady s) s
  onBackPressure : ∀ s workerId, Room s fuel depth → s.getWorkerNodeKeyByWorkerId workerId < s.workerNodes.length →
    s.zeroCounts + s.freeFlags < fuel → s.freeFlags < depth → Returns (cb.onBackPressure workerId) (fun _ => Steady s) s

section Ends
variable {s : Pool Data Response} {k : Nat} {n : WorkerNode Data} {cb : Callbacks Data Response} {fuel depth : Nat}

theorem returns_nodeAt {Q : WorkerNode Data → Pool Data Response → Prop} (h : s.workerNodes[k]? = some n) :
    Returns (nodeAt k) Q s ↔ Q n s :=
  returns_of_ok (nodeAt_eq h)

@[simp] theorem returns_modifyNode {Q : Unit → Pool Data Response → Prop} (f : WorkerNode Data → WorkerNode Data) :
    Returns (modifyNode k f) Q s ↔ Q () (s.modifyNode k f) :=
  returns_modify _

theorem key_lt_of_node {workerId : Nat} (hn : s.workerNodes[k]? = some n) (hid : n.info.id = workerId) :
    s.getWorkerNodeKeyByWorkerId workerId < s.workerNodes.length :=
  (s.key_lt_iff workerId).2 ⟨n, List.mem_of_getElem? hn, hid⟩

/-- The back pressure callback is called with the flag of the node set, and the flag is reset after it. -/
theorem onBackPressure_ends (hcb : CallbacksEnd cb fuel depth) (hr : Room s fuel depth) (hn : s.workerNodes[k]? = some n)
    (hstarted : n.onBackPressureStarted = false) :
    Returns (do
      modifyNode k fun n => { n with onBackPressureStarted := true }
      cb.onBackPressure n.info.id
      modifyNode k fun n => { n with onBackPressureStarted := false }) (fun _ => Steady s) s := by
  have hn₁ := Pool.getElem?_modifyNode_self (fun m => { m with onBackPressureStarted := true }) hn
  have hfree := freeFlags_modifyNode hn fun m => { m with onBackPressureStarted := true }
  have hcounts := zeroCounts_modifyNode hn fun m => { m with onBackPressureStarted := true }
  have hflags := map_modifyNode (·.onBackPressureStarted) hn fun m => { m with onBackPressureStarted := true }
  have hframe : Frame s (s.modifyNode k fun m => { m with onBackPressureStarted := true }) :=
    .modifyNode s k _ fun m _ => ⟨rfl, rfl, rfl, rfl, rfl, rfl, rfl, id⟩
  simp only [returns_bind, returns_modifyNode]
  generalize (s.modifyNode k fun m => { m with onBackPressureStarted := true }) = s₁ at *
  simp only [hstarted, Bool.false_eq_true, if_false, if_true, Nat.add_zero] at hfree
  dsimp only at hcounts
  have hfuel := hr.fuel
  have hdepth := hr.depth
  have hr₁ : Room s₁ fuel depth := ⟨hframe.live hr.live, by omega, by omega⟩
  refine (hcb.onBackPressure s₁ n.info.id hr₁ (key_lt_of_node hn₁ rfl) (by omega) (by omega)).mono fun _ s₂ h₂ => ?_
  obtain ⟨n₂, hn₂, -⟩ := h₂.started hn₁
  refine ⟨hframe.trans (h₂.frame.trans (.modifyNode s₂ k _ fun m _ => ⟨rfl, rfl, rfl, rfl, rfl, rfl, rfl, id⟩)), ?_, ?_⟩
  · -- the flag was free before it was set
    have hfree : (s.workerNodes.map (·.onBackPressureStarted))[k]? = some false := by
      rw [List.getElem?_map, hn, Option.map_some, hstarted]
    obtain ⟨hlt, hk⟩ := List.getElem?_eq_some_iff.1 hfree
    rw [map_modifyNode _ hn₂, h₂.flags, hflags, List.set_set]
    conv_lhs => rw [← hk]
    exact List.set_getElem_self hlt
  · have h := zeroCounts_modifyNode hn₂ fun m => { m with onBackPressureStarted := false }
    have := h₂.zeroCounts
    dsimp only at h
    omega

theorem enqueueTask_ends (hcb : CallbacksEnd cb fuel depth) (hr : Room s fuel depth) (hn : s.workerNodes[k]? = some n)
    (t : Task Data) : Returns (enqueueTask cb k t) (fun _ => Steady s) s := by
  have hn₁ := Pool.getElem?_modifyNode_self (fun m => { m with tasksQueue := m.tasksQueue ++ [t] }) hn
  have hpush : Steady s (s.modifyNode k fun m => { m with tasksQueue := m.tasksQueue ++ [t] }) :=
    .modifyNode s k (fun m => sameSetup_of_queue m _) (fun _ => rfl) fun _ => rfl
  simp only [enqueueTask, returns_bind, returns_nodeAt hn, returns_modifyNode, returns_nodeAt hn₁]
  split
  · rename_i hc
    simp only [Bool.and_eq_true, Bool.not_eq_true'] at hc
    exact (onBackPressure_ends hcb (hr.steady hpush) hn₁ hc.2).mono fun _ _ h => hpush.trans h
  · simpa using hpush

/-- The first round of a loop makes the count of the node positive, and calls back. -/
theorem startOnEmptyQueueCaught_ends (hcb : CallbacksEnd cb fuel depth) (hr : Room s fuel depth)
    (hn : s.workerNodes[k]? = some n) (hcount : n.onEmptyQueueCount = 0) :
    Returns (startOnEmptyQueueCaught cb k) (fun _ => Steady s) s := by
  let bump (m : WorkerNode Data) : WorkerNode Data :=
    { m with onEmptyQueueCount := m.onEmptyQueueCount + 1, polling := true }
  have hn₁ : (s.modifyNode k bump).workerNodes[k]? = some (bump n) := Pool.getElem?_modifyNode_self bump hn
  have hcounts : (s.modifyNode k bump).zeroCounts + 1 = s.zeroCounts := by
    have h := zeroCounts_modifyNode hn bump
    simpa [bump, hcount] using h
  have hbump : Steady s (s.modifyNode k bump) := by
    refine ⟨.modifyNode s k bump fun m _ => ?_, map_modify_same fun m _ => rfl, by omega⟩
    exact ⟨rfl, rfl, rfl, rfl, rfl, rfl, rfl, fun _ _ => Nat.succ_pos _⟩
  refine Returns.swallow ?_ _
  rw [returns_congr (startOnEmptyQueue_first hn hcount)]
  split
  · have hfuel := hr.fuel
    have hfree := hbump.freeFlags
    refine (hcb.onEmptyQueue _ n.info.id (hr.steady hbump) (key_lt_of_node hn₁ rfl) ?_).mono fun _ _ h => hbump.trans h
    show (s.modifyNode k bump).zeroCounts + (s.modifyNode k bump).freeFlags < fuel
    omega
  · simpa using hbump

theorem afterTaken_ends (hcb : CallbacksEnd cb fuel depth) (hr : Room s fuel depth) (hn : s.workerNodes[k]? = some n) :
    Returns (afterTaken cb k) (fun _ => Steady s) s := by
  simp only [afterTaken, returns_bind, returns_nodeAt hn]
  split
  · rename_i hc
    simp only [Bool.and_eq_true, decide_eq_true_eq] at hc
    exact startOnEmptyQueueCaught_ends hcb hr hn hc.2
  · simpa using Steady.refl s

theorem dequeueTask_ends (hcb : CallbacksEnd cb fuel depth) (hr : Room s fuel depth) (hn : s.workerNodes[k]? = some n) :
    Returns (dequeueTask cb k) (fun _ => Steady s) s := by
  have hn₁ := Pool.getElem?_modifyNode_self (fun m => { m with tasksQueue := m.tasksQueue.tail }) hn
  have htake : Steady s (s.modifyNode k fun m => { m with tasksQueue := m.tasksQueue.tail }) :=
    .modifyNode s k (fun m => sameSetup_of_queue m _) (fun _ => rfl) fun _ => rfl
  simp only [dequeueTask, returns_bind, returns_nodeAt hn, returns_modifyNode, returns_pure]
  exact (afterTaken_ends hcb (hr.steady htake) hn₁).mono fun _ _ h => htake.trans h

theorem popTask_ends (hcb : CallbacksEnd cb fuel depth) (hr : Room s fuel depth) (hn : s.workerNodes[k]? = some n) :
    Returns (popTask cb k) (fun r s' => r = n.tasksQueue.getLast? ∧ Steady s s') s := by
  have hn₁ := Pool.getElem?_modifyNode_self (fun m => { m with tasksQueue := m.tasksQueue.dropLast }) hn
  have htake : Steady s (s.modifyNode k fun m => { m with tasksQueue := m.tasksQueue.dropLast }) :=
    .modifyNode s k (fun m => sameSetup_of_queue m _) (fun _ => rfl) fun _ => rfl
  simp only [popTask, returns_bind, returns_nodeAt hn, returns_modifyNode, returns_pure, true_and]
  exact (afterTaken_ends hcb (hr.steady htake) hn₁).mono fun _ _ h => htake.trans h

theorem executeOrEnqueueTask_ends (hcb : CallbacksEnd cb fuel depth) (hr : Room s fuel depth)
    (hk : k < s.workerNodes.length) (t : Task Data) : Returns (executeOrEnqueueTask cb k t) (fun _ => Steady s) s := by
  obtain ⟨n, hn⟩ := Pool.node_of_lt hk
  simp only [executeOrEnqueueTask, returns_bind, returns_of_ok (shallExecuteTask_eq hn)]
  split
  · rw [returns_of_ok (executeTask_eq hn (hr.live.canSend (List.mem_of_getElem? hn) t))]
    exact steady_startTask s k t
  · exact enqueueTask_ends hcb hr hn t

theorem dispatchStolenTask_ends (hcb : CallbacksEnd cb fuel depth) (hr : Room s fuel depth)
    (hk : k < s.workerNodes.length) (t : Task Data) : Returns (dispatchStolenTask cb k (some t)) (fun _ => Steady s) s := by
  simp only [dispatchStolenTask, returns_bind]
  refine (executeOrEnqueueTask_ends hcb hr hk t).mono fun _ s' h => ?_
  obtain ⟨n', hn'⟩ := Pool.node_of_lt (h.frame.length ▸ hk : k < s'.workerNodes.length)
  simp only [updateTaskStolenStatisticsWorkerUsage, returns_bind, returns_nodeAt hn', returns_modifyNode]
  exact h.trans (steady_stealTask s' k t.name)

/-- A task that has been popped from a queue that was not empty is dispatched. -/
theorem popThenDispatch_ends {destination : Nat} (hcb : CallbacksEnd cb fuel depth) (hr : Room s fuel depth)
    (hn : s.workerNodes[k]? = some n) (hne : n.tasksQueue ≠ []) (hd : destination < s.workerNodes.length) :
    Returns (do let task ← popTask cb k; dispatchStolenTask cb destination task) (fun _ => Steady s) s := by
  simp only [returns_bind]
  refine (popTask_ends hcb hr hn).mono fun r s' h => ?_
  obtain ⟨rfl, h⟩ := h
  rw [List.getLast?_eq_some_getLast hne]
  have hd' : destination < s'.workerNodes.length := h.frame.length ▸ hd
  exact (dispatchStolenTask_ends hcb (hr.steady h) hd' _).mono fun _ _ h' => h.trans h'

theorem taskStealingOnEmptyQueue_ends {workerId : Nat} (hcb : CallbacksEnd cb fuel depth) (hr : Room s fuel depth)
    (hkey : s.getWorkerNodeKeyByWorkerId workerId < s.workerNodes.length) :
    Returns (taskStealingOnEmptyQueue cb workerId) (fun _ => Steady s) s := by
  simp only [taskStealingOnEmptyQueue, returns_bind, returns_get]
  rcases hsource : emptyQueueStealSource s workerId with _ | ⟨a, source⟩
  · simpa using Steady.refl s
  · obtain ⟨ha, -, -, hne⟩ := emptyQueueStealSource_some hsource
    exact popThenDispatch_ends hcb hr ha hne hkey

theorem stealOnBackPressure_ends {workerId source node position : Nat} (hcb : CallbacksEnd cb fuel depth)
    (hr : Room s fuel depth) (hsource : source < s.workerNodes.length) (hnode : node < s.workerNodes.length)
    (hposition : position < s.workerNodes.length) :
    Returns (stealOnBackPressure cb workerId source node position) (fun _ => Steady s) s := by
  obtain ⟨a, ha⟩ := Pool.node_of_lt hsource
  obtain ⟨b, hb⟩ := Pool.node_of_lt hnode
  simp only [stealOnBackPressure, returns_bind, returns_nodeAt ha]
  split
  · rename_i hne
    simp only [returns_bind, returns_nodeAt hb, returns_get]
    split
    · exact popThenDispatch_ends hcb hr ha (List.ne_nil_of_length_pos hne) hposition
    · simpa using Steady.refl s
  · simpa using Steady.refl s

theorem tasksStealingOnBackPressure_ends {workerId : Nat} (hcb : CallbacksEnd cb fuel depth) (hr : Room s fuel depth)
    (hkey : s.getWorkerNodeKeyByWorkerId workerId < s.workerNodes.length) :
    Returns (tasksStealingOnBackPressure cb workerId) (fun _ => Steady s) s := by
  simp only [tasksStealingOnBackPressure, returns_bind, returns_get]
  split
  · simpa using Steady.refl s
  · refine returns_forEach (.refl s) fun a ha s' hs' => ?_
    obtain ⟨hnode, hposition⟩ := zipIdx_sorted_lt _ _ ha
    rw [← hs'.frame.length] at hkey hnode hposition
    exact (stealOnBackPressure_ends hcb (hr.steady hs') hkey hnode hposition).mono fun _ _ h => hs'.trans h

/-- The callbacks of the pool return wherever there is room for them. -/
theorem nestedCallbacks_end (fuel depth : Nat) :
    CallbacksEnd (nestedCallbacks fuel depth : Callbacks Data Response) fuel depth := by
  induction fuel generalizing depth with
  | zero => exact ⟨fun s w _ _ h => absurd h (Nat.not_lt_zero _), fun s w _ _ h => absurd h (Nat.not_lt_zero _)⟩
  | succ fuel ih =>
    constructor
    · intro s w hr hkey hfuel
      exact taskStealingOnEmptyQueue_ends (ih depth) ⟨hr.live, Nat.le_of_lt_succ hfuel, hr.depth⟩ hkey
    · intro s w hr hkey hfuel hdepth
      obtain ⟨depth, rfl⟩ := Nat.exists_eq_succ_of_ne_zero (Nat.ne_zero_of_lt hdepth)
      exact tasksStealingOnBackPressure_ends (ih depth) ⟨hr.live, Nat.le_of_lt_succ hfuel, Nat.le_of_lt_succ hdepth⟩ hkey

end Ends

/-! ## More room changes nothing -/

/-- Where a callback of `cb` ends, that of `cb'` ends the same way. -/
structure CallbacksBelow (cb cb' : Callbacks Data Response) : Prop where
  onEmptyQueue : ∀ workerId, Simulates (· = ·) (cb.onEmptyQueue workerId) (cb'.onEmptyQueue workerId)
  onBackPressure : ∀ workerId, Simulates (· = ·) (cb.onBackPressure workerId) (cb'.onBackPressure workerId)

section Below
variable {cb cb' : Callbacks Data Response} (h : CallbacksBelow cb cb') (k : Nat)
include h

theorem enqueueTask_below (t : Task Data) : Simulates (· = ·) (enqueueTask cb k t) (enqueueTask cb' k t) := by
  unfold enqueueTask
  refine .bind (simulates_refl _) fun _ => .bind (simulates_refl _) fun _ => .bind (simulates_refl _) fun n => ?_
  split
  · exact .bind (simulates_refl _) fun _ => (h.onBackPressure n.info.id).bind fun _ => simulates_refl _
  · exact simulates_pure ()

theorem startOnEmptyQueueCaught_below :
    Simulates (· = ·) (startOnEmptyQueueCaught cb k) (startOnEmptyQueueCaught cb' k) := by
  refine Simulates.swallow ?_ fun s t hst => by rw [hst]
  unfold startOnEmptyQueue
  refine .bind (simulates_refl _) fun n => ?_
  split
  · exact simulates_refl _
  · refine .bind (simulates_refl _) fun _ => ?_
    split
    · exact h.onEmptyQueue n.info.id
    · exact simulates_pure ()

theorem afterTaken_below : Simulates (· = ·) (afterTaken cb k) (afterTaken cb' k) := by
  unfold afterTaken
  refine .bind (simulates_refl _) fun n => ?_
  split
  · exact startOnEmptyQueueCaught_below h k
  · exact simulates_pure ()

theorem dequeueTask_below : Simulates (· = ·) (dequeueTask cb k) (dequeueTask cb' k) := by
  refine .bind (simulates_refl _) fun n => .bind (simulates_refl _) fun _ => ?_
  exact (afterTaken_below h k).bind fun _ => simulates_pure _

theorem popTask_below : Simulates (· = ·) (popTask cb k) (popTask cb' k) := by
  refine .bind (simulates_refl _) fun n => .bind (simulates_refl _) fun _ => ?_
  exact (afterTaken_below h k).bind fun _ => simulates_pure _

theorem dispatchStolenTask_below (task : Option (Task Data)) :
    Simulates (· = ·) (dispatchStolenTask cb k task) (dispatchStolenTask cb' k task) := by
  cases task with
  | none => exact simulates_throw _
  | some t =>
    refine Simulates.bind (.bind (simulates_refl _) fun shall => ?_) fun _ => simulates_refl _
    split
    · exact simulates_refl _
    · exact enqueueTask_below h k t

theorem taskStealingOnEmptyQueue_below (workerId : Nat) :
    Simulates (· = ·) (taskStealingOnEmptyQueue cb workerId) (taskStealingOnEmptyQueue cb' workerId) := by
  unfold taskStealingOnEmptyQueue
  refine .bind (simulates_refl _) fun p => ?_
  split
  · exact simulates_pure ()
  · rename_i source _
    exact (popTask_below h source).bind fun task => dispatchStolenTask_below h _ task

theorem tasksStealingOnBackPressure_below (workerId : Nat) :
    Simulates (· = ·) (tasksStealingOnBackPressure cb workerId) (tasksStealingOnBackPressure cb' workerId) := by
  unfold tasksStealingOnBackPressure
  refine .bind (simulates_refl _) fun p => ?_
  split
  · exact simulates_pure ()
  · refine Simulates.forEach (fun a => ?_) _
    unfold stealOnBackPressure
    refine .bind (simulates_refl _) fun n => ?_
    split
    · refine .bind (simulates_refl _) fun m => .bind (simulates_refl _) fun s => ?_
      split
      · exact (popTask_below h _).bind fun task => dispatchStolenTask_below h _ task
      · exact simulates_pure ()
    · exact simulates_pure ()

end Below

/-- Callbacks that may not be called at all. -/
theorem below_diverge (cb : Callbacks Data Response) :
    CallbacksBelow ⟨fun _ => Eff.diverge, fun _ => Eff.diverge⟩ cb :=
  ⟨fun _ => simulates_diverge _, fun _ => simulates_diverge _⟩

theorem nestedCallbacks_below (fuel depth : Nat) :
    CallbacksBelow (nestedCallbacks fuel depth : Callbacks Data Response) (callbacks fuel) := by
  induction fuel generalizing depth with
  | zero => exact below_diverge _
  | succ fuel ih =>
    refine ⟨fun w => taskStealingOnEmptyQueue_below (ih depth) w, fun w => ?_⟩
    cases depth with
    | zero => exact (below_diverge (callbacks (fuel + 1))).onBackPressure w
    | succ depth => exact tasksStealingOnBackPressure_below (ih depth) w

/-- Fuel that suffices can be more. -/
theorem nestedCallbacks_mono {fuel fuel' : Nat} (hle : fuel ≤ fuel') (depth : Nat) :
    CallbacksBelow (nestedCallbacks fuel depth : Callbacks Data Response) (nestedCallbacks fuel' depth) := by
  induction fuel generalizing fuel' depth with
  | zero => exact below_diverge _
  | succ fuel ih =>
    obtain ⟨fuel', rfl⟩ : ∃ m, fuel' = m + 1 := ⟨fuel' - 1, by omega⟩
    refine ⟨fun w => taskStealingOnEmptyQueue_below (ih (Nat.le_of_succ_le_succ hle) depth) w, fun w => ?_⟩
    cases depth with
    | zero => exact simulates_refl _
    | succ depth => exact tasksStealingOnBackPressure_below (ih (Nat.le_of_succ_le_succ hle) depth) w

/-! ## Every call of a queue ends -/

/-- The code ends, however its callbacks nest, and with at most `depth` back pressure callbacks under way at once:
it ends the same way where a call too many would not end. -/
def EndsNesting {α : Type} (depth : Nat) (code : Callbacks Data Response → PoolM Data Response α)
    (p : Pool Data Response) : Prop :=
  ∃ a p', ∃ fuel₀, ∀ fuel ≥ fuel₀, code (callbacks fuel) p = some (.ok a, p') ∧
    code (nestedCallbacks fuel depth) p = some (.ok a, p')

/-- Code that ends with a bounded nesting, and does the same with more room. -/
theorem endsNesting_of_returns {α : Type} {code : Callbacks Data Response → PoolM Data Response α}
    {p : Pool Data Response} {fuel depth : Nat} {Q : α → Pool Data Response → Prop}
    (hcode : ∀ cb cb', CallbacksBelow cb cb' → Simulates (· = ·) (code cb) (code cb'))
    (h : Returns (code (nestedCallbacks fuel depth)) Q p) : EndsNesting depth code p := by
  obtain ⟨a, p', hm, -⟩ := h
  refine ⟨a, p', fuel, fun fuel' hle => ?_⟩
  obtain ⟨_, hnested, rfl⟩ := hcode _ _ (nestedCallbacks_mono hle depth) p p rfl _ _ hm
  obtain ⟨_, hfull, rfl⟩ := hcode _ _ (nestedCallbacks_below fuel' depth) p p rfl _ _ hnested
  exact ⟨hfull, hnested⟩

theorem room_self {p : Pool Data Response} (hl : Live p) : Room p (p.zeroCounts + p.freeFlags) p.freeFlags :=
  ⟨hl, le_rfl, le_rfl⟩

/-- Each call of a queue ends, with what it sets off. The back pressure callbacks under way in it are those of
nodes whose flag was free, so they are not more than the nodes. -/
theorem queue_calls_end {p : Pool Data Response} (hl : Live p) {k : Nat} (hk : k < p.workerNodes.length) (t : Task Data) :
    p.freeFlags ≤ p.workerNodes.length ∧
      EndsNesting p.freeFlags (fun cb => enqueueTask cb k t) p ∧
      EndsNesting p.freeFlags (fun cb => dequeueTask cb k) p ∧
      EndsNesting p.freeFlags (fun cb => popTask cb k) p := by
  obtain ⟨n, hn⟩ := Pool.node_of_lt hk
  have hcb := @nestedCallbacks_end Data Response (p.zeroCounts + p.freeFlags) p.freeFlags
  refine ⟨p.freeFlags_le, ?_, ?_, ?_⟩
  · exact endsNesting_of_returns (fun cb cb' h => enqueueTask_below h k t) (enqueueTask_ends hcb (room_self hl) hn t)
  · exact endsNesting_of_returns (fun cb cb' h => dequeueTask_below h k) (dequeueTask_ends hcb (room_self hl) hn)
  · exact endsNesting_of_returns (fun cb cb' h => popTask_below h k) (popTask_ends hcb (room_self hl) hn)

/-- Busy workers with queues of a given size, which hold the tasks with the given ids. -/
def busyPool (size : Nat) (taskStealing : Bool) (queues : List (List Nat)) : Pool Unit Unit :=
  let p := startedPool queues.length true ⟨some size, some 1, taskStealing, true⟩
  let task (taskId : Nat) : Task Unit := ⟨defaultTaskName, (), 0, taskId⟩
  { p with workerNodes := (p.workerNodes.zip queues).map fun (n, queue) =>
      { p.startTask (task n.info.id) n with tasksQueue := queue.map task } }

/-- Four busy workers with queues of size two, the last of them under back pressure. -/
def crowdedPool (taskStealing : Bool) : Pool Unit Unit := busyPool 2 taskStealing [[], [4], [], [5, 6]]

theorem live_crowdedPool (taskStealing : Bool) : Live (crowdedPool taskStealing) := by
  refine ⟨?_, fun _ => rfl⟩
  cases taskStealing <;> decide +kernel

theorem queue_calls_end_crowded : (crowdedPool true).freeFlags ≤ 4 ∧
    EndsNesting (crowdedPool true).freeFlags (fun cb => enqueueTask cb 3 ⟨defaultTaskName, (), 0, 7⟩) (crowdedPool true) ∧
    EndsNesting (crowdedPool true).freeFlags (fun cb => dequeueTask cb 3) (crowdedPool true) ∧
    EndsNesting (crowdedPool true).freeFlags (fun cb => popTask cb 3) (crowdedPool true) :=
  queue_calls_end (live_crowdedPool true) (by decide) ⟨defaultTaskName, (), 0, 7⟩

/-- The room that the calls need is used: three back pressure callbacks are under way at once. -/
example : (enqueueTask (nestedCallbacks 8 2) 3 ⟨defaultTaskName, (), 0, 7⟩ (crowdedPool true)).isSome = false ∧
    (enqueueTask (nestedCallbacks 8 3) 3 ⟨defaultTaskName, (), 0, 7⟩ (crowdedPool true)).isSome = true := by
  decide +kernel

end Poolifier
