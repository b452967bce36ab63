import Poolifier.BackPressure
import Poolifier.Lib.Least
import Poolifier.Outline
import Poolifier.Stealing
/-!
# Stealing on an empty queue

The callback of a node whose queue has run empty takes a task from the longest
queue. That queue may run empty in turn, and then its node steals for itself
first: one call moves a chain of tasks (`Steals`), each of them from the longest
queue to the node that has called. A polling loop outlives its node, and there
is no node to give the task to then.
-/

namespace Poolifier

open EffLib LeastLib RunLib WorkerNode

variable {Data Response : Type}

/-! ## Steals -/

/-- A ready node of another worker, whose queue is as long as that of any. -/
structure LongestOther (p : Pool Data Response) (workerId k : Nat) (a : WorkerNode Data) : Prop where
  node : p.workerNodes[k]? = some a
  ready : a.info.ready = true
  other : a.info.id ≠ workerId
  longest : ∀ b ∈ p.workerNodes, b.info.ready = true → b.info.id ≠ workerId → b.tasksQueue.length ≤ a.tasksQueue.length

/-- Whether the taking of the last task starts the polling loop of the node. -/
def WorkerNode.loopStarts (n : WorkerNode Data) : Bool :=
  n.onEmptyQueue && n.tasksQueue.length = 1 && n.onEmptyQueueCount = 0

/-- The polling loop of the node at a key begins a round. -/
def Pool.beginRound (p : Pool Data Response) (k : Nat) : Pool Data Response :=
  p.modifyNode k fun n => { n with onEmptyQueueCount := n.onEmptyQueueCount + 1, polling := true }

/-- The callback of a worker leaves the pool alone, or takes exactly one task, from the end of a longest queue, and
places it on the worker's node. Between the two, the node that has been taken from may steal for itself; the number is
that of the tasks that are taken in all. -/
inductive Steals : Nat → Nat → Pool Data Response → Pool Data Response → Prop
  | nothing {w p} : p.stealable w = false → Steals w 0 p p
  | one {w p k a t} : LongestOther p w k a → a.tasksQueue.getLast? = some t → a.loopStarts = false →
      p.getWorkerNodeKeyByWorkerId w < p.workerNodes.length →
      Steals w 1 p ((p.takeLast k).placeStolen (p.getWorkerNodeKeyByWorkerId w) t)
  | nested {w m p s k a t} : LongestOther p w k a → a.tasksQueue.getLast? = some t → a.loopStarts = true →
      p.getWorkerNodeKeyByWorkerId w < p.workerNodes.length →
      Steals a.info.id m ((p.takeLast k).beginRound k) s →
      Steals w (m + 1) p (s.placeStolen (p.getWorkerNodeKeyByWorkerId w) t)

/-- The callback of a worker is called when the queue of its node is empty, or when the node has left the pool. -/
def FiresFor (p : Pool Data Response) (workerId : Nat) : Prop :=
  ∀ n, p.workerNodes[p.getWorkerNodeKeyByWorkerId workerId]? = some n → n.tasksQueue = []

/-- Whether the callback of a worker takes at most one task: there is none to steal, or the worker is in the pool and the
node it steals from, if that starts to steal in turn, finds nothing. -/
def Pool.stealsOnce (p : Pool Data Response) (workerId : Nat) : Bool :=
  match emptyQueueStealSource p workerId with
  | none => true
  | some (a, _) => p.getWorkerNodeKeyByWorkerId workerId < p.workerNodes.length &&
      !(a.loopStarts && p.stealable a.info.id)

/-- The number of tasks that have been counted as stolen. -/
def Pool.stolenTasks (p : Pool Data Response) : Nat := (p.workerNodes.map (·.usage.tasks.stolen)).sum

theorem frame_beginRound (p : Pool Data Response) (k : Nat) : Frame p (p.beginRound k) :=
  .modifyNode p k _ fun _ _ => ⟨rfl, rfl, rfl, rfl, rfl, rfl, rfl, fun _ _ => Nat.succ_pos _⟩

section Steals
variable {p s : Pool Data Response} {w k m : Nat} {a n : WorkerNode Data} {t : Task Data}

theorem stealable_of_longest (ha : LongestOther p w k a) (ht : a.tasksQueue.getLast? = some t) : p.stealable w = true := by
  have hne : a.tasksQueue ≠ [] := by
    rintro hnil
    rw [hnil] at ht
    cases ht
  unfold Pool.stealable
  rw [List.any_eq_true]
  refine ⟨a, List.mem_of_getElem? ha.node, ?_⟩
  simp [ha.ready, ha.other, List.length_pos_iff, hne]

theorem stealable_beginRound (p : Pool Data Response) (k w : Nat) : (p.beginRound k).stealable w = p.stealable w :=
  stealable_modifyNode fun _ => ⟨rfl, rfl⟩

/-- The node that is stolen from has a longest queue. -/
theorem emptyQueueStealSource_longest (h : emptyQueueStealSource p w = some (a, k)) : LongestOther p w k a := by
  obtain ⟨ha, hready, hid, hne⟩ := emptyQueueStealSource_some h
  refine ⟨ha, hready, hid, fun b hb hbr hbid => ?_⟩
  rcases hbq : b.tasksQueue.length with _ | l
  · exact Nat.zero_le _
  · obtain ⟨i, hi⟩ := List.mem_iff_getElem?.1 hb
    have : Std.Total fun a b : WorkerNode Data × Nat => b.1.tasksQueue.length ≤ a.1.tasksQueue.length :=
      ⟨fun a b => Nat.le_total _ _⟩
    have : IsTrans (WorkerNode Data × Nat) fun a b => b.1.tasksQueue.length ≤ a.1.tasksQueue.length :=
      ⟨fun a b c hab hbc => Nat.le_trans hbc hab⟩
    have hmem : (b, i) ∈ p.workerNodes.zipIdx := List.mem_zipIdx_iff_getElem?.2 hi
    rw [← hbq]
    exact rel_of_find?_insertionSort h hmem (by simp [hbr, hbid, hbq])

theorem Steals.frame (h : Steals w m p s) : Frame p s := by
  induction h with
  | nothing => exact .refl _
  | one => exact frame_stealTo _ _ _ _
  | nested _ _ _ _ _ ih =>
    exact (frame_takeLast _ _).trans ((frame_beginRound _ _).trans (ih.trans (frame_placeStolen _ _ _)))

theorem Steals.eq_zero_iff (h : Steals w m p s) : m = 0 ↔ p.stealable w = false := by
  cases h with
  | nothing hno => simpa using hno
  | one ha ht => simp [stealable_of_longest ha ht]
  | nested ha ht => simp [stealable_of_longest ha ht]

theorem stolenTasks_modifyNode (p : Pool Data Response) (k : Nat) {f : WorkerNode Data → WorkerNode Data}
    (hf : ∀ n, (f n).usage.tasks.stolen = n.usage.tasks.stolen) : (p.modifyNode k f).stolenTasks = p.stolenTasks :=
  congrArg List.sum (map_modify_same fun n _ => hf n)

theorem stolenTasks_placeStolen (hk : k < p.workerNodes.length) (t : Task Data) :
    (p.placeStolen k t).stolenTasks = p.stolenTasks + 1 := by
  obtain ⟨n, hn⟩ := Pool.node_of_lt hk
  have h : ((p.modifyNode k fun n => (p.acceptTask t n).stealTask t.name).stolenTasks) + n.usage.tasks.stolen =
      p.stolenTasks + ((p.acceptTask t n).stealTask t.name).usage.tasks.stolen :=
    sum_map_modify _ hn _
  have haccept : (p.acceptTask t n).usage.tasks.stolen = n.usage.tasks.stolen := by
    unfold Pool.acceptTask
    split
    · obtain ⟨u, hu⟩ := beforeTaskExecution_eq p.taskStatisticsRequirements p.now t n
      rw [Pool.startTask, hu]
      rfl
    · rfl
  rw [stolen_stealTask, haccept] at h
  rw [Pool.placeStolen, Pool.modifyNode_modifyNode]
  omega

/-- Every task that is taken is counted once. -/
theorem Steals.stolenTasks (h : Steals w m p s) : s.stolenTasks = p.stolenTasks + m := by
  induction h with
  | nothing => rfl
  | @one w p k a t _ _ _ hw =>
    rw [stolenTasks_placeStolen, Pool.takeLast, stolenTasks_modifyNode]
    · exact fun _ => rfl
    · rw [Pool.takeLast, Pool.length_modifyNode]
      exact hw
  | @nested w m p s k a t _ _ _ hw hsteals ih =>
    have hlength := hsteals.frame.length
    rw [Pool.beginRound, Pool.takeLast, Pool.length_modifyNode, Pool.length_modifyNode] at hlength
    rw [stolenTasks_placeStolen (hlength ▸ hw), ih, Pool.beginRound, Pool.takeLast, stolenTasks_modifyNode,
      stolenTasks_modifyNode]
    · omega
    · exact fun _ => rfl
    · exact fun _ => rfl

end Steals

/-! ## What the callback does -/

/-- What is asked of callbacks while every send succeeds: the empty queue callback steals. -/
structure StealingCallbacks (cb : Callbacks Data Response) : Prop where
  quiet : QuietCallbacks cb
  moves : CallbacksMove cb
  steals : ∀ (s : Pool Data Response) (k : Nat) (n : WorkerNode Data), Synced s → Live s →
    s.workerNodes[k]? = some n → n.tasksQueue = [] →
    wp (cb.onEmptyQueue n.info.id) (fun _ s' => ∃ m, Steals n.info.id m s s') (fun _ _ => False) s

section Code
variable {cb : Callbacks Data Response} {s s' : Pool Data Response} {k : Nat} {n : WorkerNode Data} {t : Task Data}

/-- While every send succeeds, the back pressure callback does not throw. -/
theorem onBackPressure_quiet {workerId : Nat} (hcb : StealingCallbacks cb) (hl : Live s)
    (hkey : s.getWorkerNodeKeyByWorkerId workerId < s.workerNodes.length) (hsize : s.queueSize.all (· ≤ 1) = true) :
    wp (cb.onBackPressure workerId) (fun _ s' => s' = s) (fun _ _ => False) s := by
  have hmoves := hcb.moves.onBackPressure workerId (Reached.refl (g := False) s 0) hkey
  exact wp_mono (wp_and (hcb.quiet.onBackPressure workerId hsize) hmoves) (fun _ _ h => h.1) fun _ _ h => not_failed hl h.2

/-- A task that is put on an empty queue stays there: the queue helps others only if its size is one, and then the
callback does nothing. -/
theorem enqueueTask_places (hcb : StealingCallbacks cb) (hs : Synced s) (hl : Live s) (hn : s.workerNodes[k]? = some n)
    (hq : n.tasksQueue = []) :
    wp (enqueueTask cb k t) (fun _ s' => s' = s.modifyNode k fun m => { m with tasksQueue := m.tasksQueue ++ [t] })
      (fun _ _ => False) s := by
  have hn₁ := Pool.getElem?_modifyNode_self (fun m => { m with tasksQueue := m.tasksQueue ++ [t] }) hn
  simp only [enqueueTask, wp_bind, wp_nodeAt hn, wp_modifyNode, wp_nodeAt hn₁]
  split
  · rename_i hc
    simp only [Bool.and_eq_true, Bool.not_eq_true'] at hc
    have hsize : s.queueSize.all (· ≤ 1) = true := by
      rcases hz : s.queueSize with _ | z
      · rfl
      · have hpressed := hc.1.2
        simp only [hasBackPressure, hs.size n (List.mem_of_getElem? hn) z hz, hq, List.nil_append, List.length_singleton,
          Option.any_some, decide_eq_true_eq] at hpressed
        simpa using hpressed
    have hn₂ := Pool.getElem?_modifyNode_self (fun m => { m with onBackPressureStarted := true }) hn₁
    have hframe : Frame s ((s.modifyNode k fun m => { m with tasksQueue := m.tasksQueue ++ [t] }).modifyNode k
        fun m => { m with onBackPressureStarted := true }) :=
      (Frame.modifyNode s k _ fun m _ => sameSetup_of_queue m _).trans
        (.modifyNode _ k _ fun m _ => ⟨rfl, rfl, rfl, rfl, rfl, rfl, rfl, id⟩)
    simp only [wp_bind, wp_modifyNode]
    have hkey := key_lt_of_node hn₂ rfl
    refine wp_mono (onBackPressure_quiet hcb (hframe.live hl) hkey (hframe.queueSize ▸ hsize)) (fun _ s' h => ?_) fun _ _ h => h
    subst h
    -- the flag was not set before
    rw [Pool.modifyNode_modifyNode, Pool.modifyNode_modifyNode]
    refine Pool.modifyNode_congr hn ?_
    rw [← hc.2]
  · simp

/-- A stolen task is placed on a node whose queue is empty. -/
theorem dispatchStolenTask_places (hcb : StealingCallbacks cb) (hs : Synced s) (hl : Live s)
    (hn : s.workerNodes[k]? = some n) (hq : n.tasksQueue = []) :
    wp (dispatchStolenTask cb k (some t)) (fun _ s' => s' = s.placeStolen k t) (fun _ _ => False) s := by
  have hplace : wp (executeOrEnqueueTask cb k t) (fun _ s' => s' = s.modifyNode k (s.acceptTask t)) (fun _ _ => False) s := by
    simp only [executeOrEnqueueTask, wp_bind, wp_shallExecuteTask hn]
    split
    · rename_i hshall
      rw [wp_executeTask hn (hl.canSend (List.mem_of_getElem? hn) t)]
      exact Pool.modifyNode_congr hn (by rw [Pool.acceptTask, if_pos hshall])
    · rename_i hshall
      refine wp_mono (enqueueTask_places hcb hs hl hn hq) (fun _ s' h => h.trans ?_) fun _ _ h => h
      exact Pool.modifyNode_congr hn (by rw [Pool.acceptTask, if_neg hshall])
  have hn' := Pool.getElem?_modifyNode_self (s.acceptTask t) hn
  simp only [dispatchStolenTask, wp_bind]
  refine wp_mono hplace (fun _ s' h => ?_) fun _ _ h => h
  subst h
  simp only [updateTaskStolenStatisticsWorkerUsage, wp_bind, wp_nodeAt hn', wp_modifyNode]
  rfl

/-- After the last task of a queue has been taken, the loop of the node may start, and the node steals for itself. -/
theorem afterTaken_steals (hcb : StealingCallbacks cb) (hs : Synced s) (hl : Live s) (hn : s.workerNodes[k]? = some n) :
    wp (afterTaken cb k) (fun _ s' => if n.onEmptyQueue && n.tasksQueue.length = 0 && n.onEmptyQueueCount = 0
      then ∃ m, Steals n.info.id m (s.beginRound k) s' else s' = s) (fun _ _ => False) s := by
  simp only [afterTaken, wp_bind, wp_nodeAt hn]
  split
  · rename_i hc
    simp only [Bool.and_eq_true, decide_eq_true_eq, List.length_eq_zero_iff] at hc
    obtain ⟨⟨hon, hq⟩, hcount⟩ := hc
    have hn₁ := Pool.getElem?_modifyNode_self
      (fun m => { m with onEmptyQueueCount := m.onEmptyQueueCount + 1, polling := true }) hn
    have hframe := frame_beginRound s k
    have hsteals := hcb.steals _ k _ (hs.frame hframe) (hframe.live hl) hn₁ hq
    rw [startOnEmptyQueueCaught, wp_swallow, wp_congr (startOnEmptyQueue_first hn hcount), if_pos hon]
    exact wp_mono hsteals (fun _ _ h => h) fun _ _ h => h.elim
  · simp

/-- What taking the last task of a queue leaves: the node may have stolen for itself. -/
def TakenLast (s : Pool Data Response) (k : Nat) (a : WorkerNode Data) (s' : Pool Data Response) : Prop :=
  if a.loopStarts then ∃ m, Steals a.info.id m ((s.takeLast k).beginRound k) s' else s' = s.takeLast k

theorem popTask_steals (hcb : StealingCallbacks cb) (hs : Synced s) (hl : Live s) (hn : s.workerNodes[k]? = some n)
    (hq : n.tasksQueue ≠ []) :
    wp (popTask cb k) (fun r s' => r = n.tasksQueue.getLast? ∧ TakenLast s k n s' ∧ ∃ d, Serves k d (s.takeLast k) s')
      (fun _ _ => False) s := by
  have hframe := frame_takeLast s k
  have hn₁ := Pool.takeLast_self hn
  have hloop : ({ n with tasksQueue := n.tasksQueue.dropLast }.onEmptyQueue &&
      { n with tasksQueue := n.tasksQueue.dropLast }.tasksQueue.length = 0 &&
      { n with tasksQueue := n.tasksQueue.dropLast }.onEmptyQueueCount = 0) = n.loopStarts := by
    have hpos := List.length_pos_iff.2 hq
    have hone : n.tasksQueue.length - 1 = 0 ↔ n.tasksQueue.length = 1 := by omega
    simp only [loopStarts, List.length_dropLast, hone]
  have htaken := wp_and (afterTaken_steals hcb (hs.frame hframe) (hframe.live hl) hn₁)
    (afterTaken_serves hcb.quiet (hs.frame hframe) hn₁)
  rw [hloop] at htaken
  simp only [popTask, wp_bind, wp_nodeAt hn, wp_modifyNode, wp_pure, true_and]
  exact wp_mono htaken (fun _ s' h => ⟨h.1, _, h.2⟩) fun _ _ h => h.1

/-- The task that has been taken is placed: with it, the node has stolen as many as the one it took from, and one more. -/
theorem TakenLast.steals {a : WorkerNode Data} {w : Nat} (h : TakenLast s k a s')
    (hsource : emptyQueueStealSource s w = some (a, k)) (ht : a.tasksQueue.getLast? = some t)
    (hw : s.getWorkerNodeKeyByWorkerId w < s.workerNodes.length) :
    ∃ m, Steals w m s (s'.placeStolen (s.getWorkerNodeKeyByWorkerId w) t) ∧ (m ≤ 1 ↔ s.stealsOnce w = true) := by
  have hlongest := emptyQueueStealSource_longest hsource
  unfold TakenLast at h
  rcases hstarts : a.loopStarts with _ | _
  · rw [hstarts] at h
    simp only [Bool.false_eq_true, if_false] at h
    subst h
    exact ⟨1, .one hlongest ht hstarts hw, by simp [Pool.stealsOnce, hsource, hstarts, hw]⟩
  · rw [hstarts] at h
    simp only [if_true] at h
    obtain ⟨m, hm⟩ := h
    refine ⟨m + 1, .nested hlongest ht hstarts hw hm, ?_⟩
    have hsteal : ((s.takeLast k).beginRound k).stealable a.info.id = s.stealable a.info.id := by
      rw [stealable_beginRound]
      exact stealable_modifyNode_own hlongest.node rfl
    have hzero := hm.eq_zero_iff
    rw [hsteal] at hzero
    simp only [Pool.stealsOnce, hsource, hstarts, hw, decide_true, Bool.true_and, Bool.not_eq_eq_eq_not, Bool.not_true]
    rw [← hzero]
    omega

/-- Called for a node with an empty queue, the callback steals, and takes more than one task just when the node it takes
from is led to steal in turn. -/
theorem taskStealingOnEmptyQueue_steals (hcb : StealingCallbacks cb) (hs : Synced s) (hl : Live s)
    (hn : s.workerNodes[k]? = some n) (hq : n.tasksQueue = []) :
    wp (taskStealingOnEmptyQueue cb n.info.id)
      (fun _ s' => ∃ m, Steals n.info.id m s s' ∧ (m ≤ 1 ↔ s.stealsOnce n.info.id = true)) (fun _ _ => False) s := by
  have hkey := hs.key_of_node hn
  have hlt : s.getWorkerNodeKeyByWorkerId n.info.id < s.workerNodes.length := key_lt_of_node hn rfl
  simp only [taskStealingOnEmptyQueue, wp_bind, wp_get, hkey]
  rcases hsource : emptyQueueStealSource s n.info.id with _ | ⟨a, source⟩
  · have hno := emptyQueueStealSource_isSome s n.info.id
    rw [hsource, Option.isSome_none] at hno
    simp only [wp_pure]
    exact ⟨0, .nothing hno.symm, by simp [Pool.stealsOnce, hsource]⟩
  · obtain ⟨ha, -, -, hne⟩ := emptyQueueStealSource_some hsource
    have hlast := List.getLast?_eq_some_getLast hne
    have hk : source ≠ k := by
      rintro rfl
      rw [hn] at ha
      cases ha
      exact hne hq
    simp only [wp_bind]
    refine wp_mono (popTask_steals hcb hs hl ha hne) (fun r s₂ h => ?_) fun _ _ h => h
    obtain ⟨rfl, htaken, d, hserves⟩ := h
    -- the thief is as it was: its queue is empty
    have hn₂ : s₂.workerNodes[k]? = some n := hserves.idle k n (Ne.symm hk) ((Pool.takeLast_ne hk).trans hn) hq
    have hframe := (frame_takeLast s source).trans hserves.frame
    rw [hlast]
    refine wp_mono (dispatchStolenTask_places hcb (hs.frame hframe) (hframe.live hl) hn₂ hq) (fun _ s₃ h₃ => ?_) fun _ _ h => h
    subst h₃
    rw [← hkey]
    exact htaken.steals hsource hlast hlt

/-- The pool's callbacks steal, however deep they nest. -/
theorem callbacks_steal (fuel : Nat) : StealingCallbacks (callbacks fuel : Callbacks Data Response) := by
  induction fuel with
  | zero => exact ⟨callbacks_quiet 0, callbacks_move 0, fun _ _ _ _ _ _ _ => wp_diverge⟩
  | succ fuel ih =>
    refine ⟨callbacks_quiet _, callbacks_move _, fun s k n hs hl hn hq => ?_⟩
    refine wp_mono (taskStealingOnEmptyQueue_steals ih hs hl hn hq) (fun _ _ h => ?_) fun _ _ h => h
    obtain ⟨m, hm, -⟩ := h
    exact ⟨m, hm⟩

/-- Called for a node of the pool, the callback ends. -/
theorem taskStealingOnEmptyQueue_returns {w : Nat} (hl : Live s) (hkey : s.getWorkerNodeKeyByWorkerId w < s.workerNodes.length) :
    ∃ fuel, Returns (taskStealingOnEmptyQueue (callbacks fuel) w) (fun _ _ => True) s := by
  have hcb := @nestedCallbacks_end Data Response (s.zeroCounts + s.freeFlags) s.freeFlags
  obtain ⟨a, s', fuel, hends⟩ := endsNesting_of_returns (fun _ _ h => taskStealingOnEmptyQueue_below h w)
    (taskStealingOnEmptyQueue_ends hcb (room_self hl) hkey)
  exact ⟨fuel, a, s', (hends fuel le_rfl).1, trivial⟩

/-- Called for a node that has left, the callback takes a task, if there is one, and throws: the task is lost. -/
theorem taskStealingOnEmptyQueue_loses {w : Nat} (fuel : Nat) (hsteal : s.stealable w = true)
    (hkey : ¬ s.getWorkerNodeKeyByWorkerId w < s.workerNodes.length) :
    wp (taskStealingOnEmptyQueue (callbacks fuel) w) (fun _ _ => False) (fun _ _ => True) s := by
  simp only [taskStealingOnEmptyQueue, wp_bind, wp_get]
  rcases hsource : emptyQueueStealSource s w with _ | ⟨a, source⟩
  · have hno := emptyQueueStealSource_isSome s w
    rw [hsource, hsteal] at hno
    cases hno
  · obtain ⟨ha, -, -, hne⟩ := emptyQueueStealSource_some hsource
    have hq := (List.dropLast_append_getLast hne).symm
    simp only [wp_bind]
    refine wp_mono (popTask_moves (callbacks_move fuel) (Reached.refl (g := False) s 0) ha hq) (fun r s' h => ?_)
      fun _ _ h => h.elim
    obtain ⟨rfl, hr⟩ := h
    have hnone : s'.workerNodes[s.getWorkerNodeKeyByWorkerId w]? = none := by
      rw [List.getElem?_eq_none_iff, hr.frame.length]
      exact Nat.le_of_not_lt hkey
    simp only [dispatchStolenTask, executeOrEnqueueTask, shallExecuteTask, wp_bind, wp_nodeAt_none hnone]

theorem taskStealingOnEmptyQueue_iff {w : Nat} (hs : Synced s) (hl : Live s) (hfires : FiresFor s w) :
    ((∃ fuel, Returns (taskStealingOnEmptyQueue (callbacks fuel) w) (fun _ s' => ∃ m, Steals w m s s') s) ↔
      (s.stealable w = true → s.getWorkerNodeKeyByWorkerId w < s.workerNodes.length)) ∧
    ((∃ fuel, Returns (taskStealingOnEmptyQueue (callbacks fuel) w) (fun _ s' => ∃ m ≤ 1, Steals w m s s') s) ↔
      s.stealsOnce w = true) := by
  by_cases hkey : s.getWorkerNodeKeyByWorkerId w < s.workerNodes.length
  · obtain ⟨n, hn⟩ := Pool.node_of_lt hkey
    obtain rfl := Pool.id_of_key hn
    have hsteals (fuel : Nat) := taskStealingOnEmptyQueue_steals (@callbacks_steal Data Response fuel) hs hl hn (hfires n hn)
    obtain ⟨fuel, hret⟩ := taskStealingOnEmptyQueue_returns hl hkey
    have hboth := hret.and_wp (hsteals fuel)
    refine ⟨iff_of_true ⟨fuel, hboth.mono fun _ _ h => ?_⟩ fun _ => hkey, fun hone => ?_, fun honce => ?_⟩
    · obtain ⟨-, m, hm, -⟩ := h
      exact ⟨m, hm⟩
    · -- the number of tasks that are counted as stolen tells how many were taken
      obtain ⟨fuel', hone⟩ := hone
      obtain ⟨_, s', -, ⟨m, hm, hsteal⟩, m', hsteal', honce⟩ := hone.and_wp (hsteals fuel')
      have hcount := hsteal.stolenTasks
      rw [hsteal'.stolenTasks] at hcount
      exact honce.1 (by omega)
    · refine ⟨fuel, hboth.mono fun _ _ h => ?_⟩
      obtain ⟨-, m, hm, hiff⟩ := h
      exact ⟨m, hiff.2 honce, hm⟩
  · have hsome := emptyQueueStealSource_isSome s w
    rcases hsource : emptyQueueStealSource s w with _ | ⟨a, source⟩
    · rw [hsource, Option.isSome_none] at hsome
      have hret : Returns (taskStealingOnEmptyQueue (callbacks 0) w) (fun _ s' => s' = s) s := by
        rw [taskStealingOnEmptyQueue, returns_bind, returns_get, hsource]
        simp
      refine ⟨iff_of_true ⟨0, hret.mono fun _ s' h => ⟨0, ?_⟩⟩ fun h => ?_,
        iff_of_true ⟨0, hret.mono fun _ s' h => ⟨0, ?_, ?_⟩⟩ ?_⟩
      · rw [h]
        exact .nothing hsome.symm
      · rw [← hsome] at h
        cases h
      · exact Nat.zero_le 1
      · rw [h]
        exact .nothing hsome.symm
      · rw [Pool.stealsOnce, hsource]
    · rw [hsource, Option.isSome_some] at hsome
      have hnot {Q : Unit → Pool Data Response → Prop} :
          ¬ ∃ fuel, Returns (taskStealingOnEmptyQueue (callbacks fuel) w) Q s := by
        rintro ⟨fuel, hret⟩
        obtain ⟨_, s', -, -, hfalse⟩ := hret.and_wp (taskStealingOnEmptyQueue_loses fuel hsome.symm hkey)
        exact hfalse
      refine ⟨iff_of_false hnot fun h => hkey (h hsome.symm), iff_of_false hnot ?_⟩
      simp [Pool.stealsOnce, hsource, hkey]

/-- A pool that has run is in step with its options. -/
theorem synced_of_run {s₀ : Pool Data Response} {es : List (Event Data Response)} (h : Fresh s₀) (hr : Run Step s₀ es s) :
    Synced s where
  ids := by
    have hids : s.outline.nodes.map (·.id) = s.workerNodes.map (·.info.id) := List.map_map ..
    rw [← hids]
    exact (outline_synced_of_run h hr).ids
  size n hn := (outline_synced_of_run h hr).size n.outline (List.mem_map_of_mem hn)

/-- In every state a pool reaches: every call of the empty queue callback, those it sets off included, leaves the queues
alone or takes exactly one task from the end of a longest queue and places it on the node it was called for, if and only
if that node is in the pool or there is no task to steal; and it is the only task that is taken if and only if
`stealsOnce` holds as well. -/
theorem steals_one_task_iff {s₀ : Pool Data Response} {es : List (Event Data Response)} {w : Nat} (h : Fresh s₀)
    (hr : Run Step s₀ es s) (hl : Live s) (hfires : FiresFor s w) :
    ((∃ fuel, Returns (taskStealingOnEmptyQueue (callbacks fuel) w) (fun _ s' => ∃ m, Steals w m s s') s) ↔
      (s.stealable w = true → s.getWorkerNodeKeyByWorkerId w < s.workerNodes.length)) ∧
    ((∃ fuel, Returns (taskStealingOnEmptyQueue (callbacks fuel) w) (fun _ s' => ∃ m ≤ 1, Steals w m s s') s) ↔
      s.stealsOnce w = true) :=
  taskStealingOnEmptyQueue_iff (synced_of_run h hr) hl hfires

end Code

/-- The second node has nothing to do, and takes one of the two tasks that wait for the first. -/
theorem steals_one_task_iff_idle : ∃ s, Run Step (startedPool 2 true ⟨some 4, some 1, true, true⟩)
    [submit 0 0, submit 1 0, submit 2 0] s ∧
      ∃ fuel, Returns (taskStealingOnEmptyQueue (callbacks fuel) 1) (fun _ s' => ∃ m ≤ 1, Steals 1 m s s') s := by
  obtain ⟨s, hr, hqueue, honce⟩ := run_to FixedEvent 4 (startedPool 2 true ⟨some 4, some 1, true, true⟩)
    [submit 0 0, submit 1 0, submit 2 0]
    (P := fun s => (∀ n ∈ s.workerNodes[s.getWorkerNodeKeyByWorkerId 1]?, n.tasksQueue.length = 0) ∧ s.stealsOnce 1 = true)
    (by decide +kernel)
  have hfresh := fresh_startedPool 2 true ⟨some 4, some 1, true, true⟩
  have hlive := (fixedPool_of_run hfresh (.inl rfl) (fun _ => rfl) hr).live
  have hrun := hr.mono fun _ _ _ h => h.2
  have hfires : FiresFor s 1 := fun n hn => List.length_eq_zero_iff.1 (hqueue n hn)
  exact ⟨s, hrun, (steals_one_task_iff hfresh hrun hlive hfires).2.2 honce⟩

/-- The loop of the first node has begun before its worker exits. It takes a task that waits for the second, and there is
no node to place it on. -/
theorem task_taken_for_removed_node : ¬ ∀ (s₀ s : Pool Unit Unit) (es : List (Event Unit Unit)) (w : Nat), Fresh s₀ →
    (∀ t, s₀.postable t = true) → Run Step s₀ es s → (∀ n ∈ s.workerNodes, n.channelOpen = true) →
    NodeOf s w (fun n => n.polling = true ∧ n.onEmptyQueue = true ∧ n.usage.tasks.executing = 0 ∧ n.tasksQueue.length = 0) →
    ∃ fuel, Returns (taskStealingOnEmptyQueue (callbacks fuel) w) (fun _ s' => ∃ m, Steals w m s s') s := by
  intro hall
  obtain ⟨s, hr, hopen, hnode, hsteal, hgone⟩ := run_to (fun _ _ => True) 4 (startedPool 2 true ⟨some 4, some 1, true, true⟩)
    [submit 0 0, submit 1 0, respond 0 0, respond 0 1, .exit 0, submit 2 0, submit 3 0]
    (P := fun s => (∀ n ∈ s.workerNodes, n.channelOpen = true) ∧
      NodeOf s 0 (fun n => n.polling = true ∧ n.onEmptyQueue = true ∧ n.usage.tasks.executing = 0 ∧ n.tasksQueue.length = 0) ∧
      s.stealable 0 = true ∧ ¬ s.getWorkerNodeKeyByWorkerId 0 < s.workerNodes.length) (by decide +kernel)
  have hfresh := fresh_startedPool 2 true ⟨some 4, some 1, true, true⟩
  obtain ⟨fuel, hret⟩ := hall _ s _ 0 hfresh (fun _ => rfl) (hr.mono fun _ _ _ h => h.2) hopen hnode
  obtain ⟨_, s', -, -, hfalse⟩ := hret.and_wp (taskStealingOnEmptyQueue_loses fuel hsteal hgone)
  exact hfalse

end Poolifier
