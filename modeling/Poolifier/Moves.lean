import Mathlib.Data.Multiset.AddSub
import Poolifier.Events
/-!
# Moves of tasks

What the queue code does to the tasks of a pool, one task and one node at a
time: a task is taken out of a queue into the hand of the code, and put on a
queue or sent to a worker from there. However deep the stealing callbacks nest,
a run of the code is a chain of these moves (`Reached`), so what every move
keeps the code keeps. The hand is empty between two events.

`guarded` says that tasks are sent only where `shallExecuteTask` holds. `lossy`
says that sending can throw, so that a task can be lost from the hand.
-/

namespace Poolifier

open EffLib Relation WorkerNode

variable {Data Response : Type}

/-! ## Nodes of a pool -/

namespace Pool

theorem getElem?_modifyNode (p : Pool Data Response) (i j : Nat) (f : WorkerNode Data → WorkerNode Data) :
    (p.modifyNode i f).workerNodes[j]? = (p.workerNodes[j]?).map fun n => if i = j then f n else n := by
  simp only [modifyNode, List.getElem?_modify]
  by_cases h : i = j <;> simp [h]

@[simp] theorem getElem?_modifyNode_self {p : Pool Data Response} {i : Nat} {n : WorkerNode Data}
    (f : WorkerNode Data → WorkerNode Data) (h : p.workerNodes[i]? = some n) :
    (p.modifyNode i f).workerNodes[i]? = some (f n) := by
  simp [getElem?_modifyNode, h]

theorem getElem?_modifyNode_ne {p : Pool Data Response} {i j : Nat} (f : WorkerNode Data → WorkerNode Data)
    (h : i ≠ j) : (p.modifyNode i f).workerNodes[j]? = p.workerNodes[j]? := by
  simp [getElem?_modifyNode, h]

@[simp] theorem length_modifyNode (p : Pool Data Response) (i : Nat) (f : WorkerNode Data → WorkerNode Data) :
    (p.modifyNode i f).workerNodes.length = p.workerNodes.length := by
  simp [modifyNode]

/-- A node after an update is an old node, updated if it is the one named. -/
theorem node_of_modifyNode {p : Pool Data Response} {i j : Nat} {f : WorkerNode Data → WorkerNode Data}
    {n' : WorkerNode Data} (h : (p.modifyNode i f).workerNodes[j]? = some n') :
    ∃ n, p.workerNodes[j]? = some n ∧ n' = if i = j then f n else n := by
  rw [getElem?_modifyNode, Option.map_eq_some_iff] at h
  obtain ⟨n, hn, rfl⟩ := h
  exact ⟨n, hn, rfl⟩

/-- An update of a node is what it makes of the node that is there. -/
theorem modifyNode_congr {p : Pool Data Response} {i : Nat} {n : WorkerNode Data} (h : p.workerNodes[i]? = some n)
    {f g : WorkerNode Data → WorkerNode Data} (hfg : f n = g n) : p.modifyNode i f = p.modifyNode i g := by
  unfold modifyNode
  congr 1
  apply List.ext_getElem?
  intro j
  rw [List.getElem?_modify, List.getElem?_modify]
  by_cases hj : i = j
  · subst hj
    simp [h, hfg]
  · simp [hj]

theorem modifyNode_modifyNode (p : Pool Data Response) (i : Nat) (f g : WorkerNode Data → WorkerNode Data) :
    (p.modifyNode i f).modifyNode i g = p.modifyNode i fun n => g (f n) := by
  unfold modifyNode
  rw [List.modify_modify_eq]
  rfl

theorem modifyNode_fixed {p : Pool Data Response} {i : Nat} {n : WorkerNode Data} (h : p.workerNodes[i]? = some n)
    {f : WorkerNode Data → WorkerNode Data} (hf : f n = n) : p.modifyNode i f = p := by
  rw [modifyNode_congr (g := id) h hf]
  unfold modifyNode
  rw [List.modify_id]

theorem node_of_lt {p : Pool Data Response} {k : Nat} (h : k < p.workerNodes.length) :
    ∃ n, p.workerNodes[k]? = some n :=
  ⟨p.workerNodes[k], List.getElem?_eq_getElem h⟩

theorem lt_of_node {p : Pool Data Response} {k : Nat} {n : WorkerNode Data} (h : p.workerNodes[k]? = some n) :
    k < p.workerNodes.length :=
  (List.getElem?_eq_some_iff.1 h).1

/-- A pool with as many nodes has one at the same key. -/
theorem node_of_length {p p' : Pool Data Response} {k : Nat} {n : WorkerNode Data}
    (h : p'.workerNodes.length = p.workerNodes.length) (hn : p.workerNodes[k]? = some n) :
    ∃ n', p'.workerNodes[k]? = some n' := by
  apply node_of_lt
  rw [h]
  exact lt_of_node hn

/-- The key of a worker's node is in range just when the pool has the worker. -/
theorem key_lt_iff (p : Pool Data Response) (workerId : Nat) :
    p.getWorkerNodeKeyByWorkerId workerId < p.workerNodes.length ↔ ∃ n ∈ p.workerNodes, n.info.id = workerId := by
  simp [getWorkerNodeKeyByWorkerId, List.findIdx_lt_length]

theorem id_of_key {p : Pool Data Response} {workerId : Nat} {n : WorkerNode Data}
    (h : p.workerNodes[p.getWorkerNodeKeyByWorkerId workerId]? = some n) : n.info.id = workerId := by
  unfold getWorkerNodeKeyByWorkerId at h
  obtain ⟨hlt, rfl⟩ := List.getElem?_eq_some_iff.1 h
  simpa using List.findIdx_getElem (w := hlt)

end Pool

section Wp
variable {α : Type} {s : Pool Data Response} {k : Nat} {n : WorkerNode Data}

@[simp] theorem wp_modifyNode {Q : Unit → Pool Data Response → Prop} {E : JsError → Pool Data Response → Prop}
    (f : WorkerNode Data → WorkerNode Data) : wp (modifyNode k f) Q E s ↔ Q () (s.modifyNode k f) :=
  wp_modify _

theorem nodeAt_eq (h : s.workerNodes[k]? = some n) : (nodeAt k : PoolM Data Response _) s = some (.ok n, s) := by
  unfold nodeAt
  rw [get_bind, h]
  rfl

theorem nodeAt_bind {β : Type} (h : s.workerNodes[k]? = some n) (f : WorkerNode Data → PoolM Data Response β) :
    (nodeAt k >>= f) s = f n s :=
  bind_ok (nodeAt_eq h) f

theorem wp_nodeAt {Q : WorkerNode Data → Pool Data Response → Prop} {E : JsError → Pool Data Response → Prop}
    (h : s.workerNodes[k]? = some n) : wp (nodeAt k) Q E s ↔ Q n s := by
  simp [nodeAt, h]

theorem wp_nodeAt_none {Q : WorkerNode Data → Pool Data Response → Prop} {E : JsError → Pool Data Response → Prop}
    (h : s.workerNodes[k]? = none) : wp (nodeAt k) Q E s ↔ E .undefinedAccess s := by
  simp [nodeAt, h]

theorem within_nodeAt {R : Pool Data Response → Pool Data Response → Prop} [IsPreorder _ R] (k : Nat) :
    Within R (nodeAt k : PoolM Data Response _) := by
  refine within_get.bind fun p => ?_
  split
  · exact within_throw _
  · exact within_pure _

end Wp

/-! ## What a move leaves alone -/

/-- `p'` is `p` but for what its nodes hold and count. -/
structure Frame (p p' : Pool Data Response) : Prop where
  rest : p' = { p with workerNodes := p'.workerNodes, errorsCaught := p'.errorsCaught }
  errorsCaught : p.errorsCaught ≤ p'.errorsCaught
  length : p'.workerNodes.length = p.workerNodes.length
  setup : ∀ (i : Nat) n n', p.workerNodes[i]? = some n → p'.workerNodes[i]? = some n' → SameSetup n n'

theorem Frame.refl (p : Pool Data Response) : Frame p p where
  rest := rfl
  errorsCaught := le_rfl
  length := rfl
  setup i n n' h h' := by
    rw [h] at h'
    cases h'
    exact .refl n

theorem Frame.trans {p p' p'' : Pool Data Response} (h : Frame p p') (h' : Frame p' p'') : Frame p p'' where
  rest := by rw [h'.rest, h.rest]
  errorsCaught := h.errorsCaught.trans h'.errorsCaught
  length := h'.length.trans h.length
  setup i n n'' hn hn'' := by
    obtain ⟨n', hn'⟩ := Pool.node_of_length h.length hn
    exact (h.setup i n n' hn hn').trans (h'.setup i n' n'' hn' hn'')

theorem Frame.modifyNode (p : Pool Data Response) (i : Nat) (f : WorkerNode Data → WorkerNode Data)
    (hf : ∀ n, p.workerNodes[i]? = some n → SameSetup n (f n)) : Frame p (p.modifyNode i f) where
  rest := rfl
  errorsCaught := le_rfl
  length := p.length_modifyNode i f
  setup j n n' hn hn' := by
    obtain ⟨n₁, hn₁, rfl⟩ := Pool.node_of_modifyNode hn'
    rw [hn] at hn₁
    cases hn₁
    by_cases hij : i = j
    · subst hij; simpa using hf n hn
    · simpa [hij] using SameSetup.refl n

/-- Every worker can be sent every task. -/
def Live (p : Pool Data Response) : Prop :=
  (∀ n ∈ p.workerNodes, n.channelOpen = true) ∧ ∀ t, p.postable t = true

theorem Live.canSend {p : Pool Data Response} (h : Live p) {n : WorkerNode Data} (hn : n ∈ p.workerNodes)
    (t : Task Data) : p.canSend n t = true := by
  simp [Pool.canSend, h.1 n hn, h.2 t]

theorem channelOpen_of_sameSetup {n n' : WorkerNode Data} (h : SameSetup n n') : n'.channelOpen = n.channelOpen := by
  simp [channelOpen, h.info, h.messageChannel]

theorem Frame.node {p p' : Pool Data Response} (h : Frame p p') {i : Nat} {n' : WorkerNode Data}
    (hn' : p'.workerNodes[i]? = some n') : ∃ n, p.workerNodes[i]? = some n ∧ SameSetup n n' := by
  obtain ⟨n, hn⟩ := Pool.node_of_length h.length.symm hn'
  exact ⟨n, hn, h.setup i n n' hn hn'⟩

theorem Frame.live {p p' : Pool Data Response} (h : Frame p p') (hl : Live p) : Live p' := by
  constructor
  · intro n' hn'
    obtain ⟨i, hi⟩ := List.mem_iff_getElem?.1 hn'
    obtain ⟨n, hn, hs⟩ := h.node hi
    rw [channelOpen_of_sameSetup hs]
    exact hl.1 n (List.mem_of_getElem? hn)
  · rw [h.rest]
    exact hl.2

theorem Frame.ids {p p' : Pool Data Response} (h : Frame p p') :
    p'.workerNodes.map (·.info.id) = p.workerNodes.map (·.info.id) := by
  refine List.ext_getElem? fun i => ?_
  rw [List.getElem?_map, List.getElem?_map]
  rcases hi : p'.workerNodes[i]? with _ | n'
  · have : p.workerNodes[i]? = none := by
      rw [List.getElem?_eq_none_iff] at hi ⊢
      rw [← h.length]
      exact hi
    simp [this]
  · obtain ⟨n, hn, hs⟩ := h.node hi
    simp [hn, hs.info]

theorem Frame.key_eq {p p' : Pool Data Response} (h : Frame p p') (workerId : Nat) :
    p'.getWorkerNodeKeyByWorkerId workerId = p.getWorkerNodeKeyByWorkerId workerId := by
  have hk (q : Pool Data Response) : q.getWorkerNodeKeyByWorkerId workerId =
      (q.workerNodes.map (·.info.id)).findIdx (· = workerId) := by
    rw [List.findIdx_map]
    rfl
  rw [hk, hk, h.ids]

theorem Frame.concurrency {p p' : Pool Data Response} (h : Frame p p') : p'.concurrency = p.concurrency := by
  rw [h.rest]
  rfl

theorem Frame.queueSize {p p' : Pool Data Response} (h : Frame p p') : p'.queueSize = p.queueSize := by
  rw [h.rest]
  rfl

/-! ## Moves -/

/-- The node of a worker that is sent a task. -/
def Pool.startTask (p : Pool Data Response) (t : Task Data) (n : WorkerNode Data) : WorkerNode Data :=
  (n.beforeTaskExecution p.taskStatisticsRequirements p.now t).receive t

section StartTask
variable (p : Pool Data Response) (t : Task Data) (n : WorkerNode Data)

@[simp] theorem startTask_worker :
    (p.startTask t n).worker = ⟨n.worker.received ++ [t], n.worker.unanswered ++ [t]⟩ := by
  obtain ⟨m, h⟩ := beforeTaskExecution_eq p.taskStatisticsRequirements p.now t n
  rw [Pool.startTask, h]
  rfl

@[simp] theorem startTask_tasksQueue : (p.startTask t n).tasksQueue = n.tasksQueue := by
  obtain ⟨m, h⟩ := beforeTaskExecution_eq p.taskStatisticsRequirements p.now t n
  rw [Pool.startTask, h]
  rfl

@[simp] theorem startTask_executing :
    (p.startTask t n).usage.tasks.executing = n.usage.tasks.executing + 1 := by
  obtain ⟨m, h⟩ := beforeTaskExecution_eq p.taskStatisticsRequirements p.now t n
  rw [Pool.startTask, h]
  rfl

theorem length_unanswered_startTask :
    (p.startTask t n).worker.unanswered.length = n.worker.unanswered.length + 1 := by
  rw [startTask_worker]
  exact List.length_append

/-- A task that is sent is counted. -/
theorem startTask_counts (h : n.usage.tasks.executing = n.worker.unanswered.length) :
    (p.startTask t n).usage.tasks.executing = (p.startTask t n).worker.unanswered.length := by
  rw [startTask_executing, length_unanswered_startTask, h]

@[simp] theorem startTask_tasksQueueBackPressureSize :
    (p.startTask t n).tasksQueueBackPressureSize = n.tasksQueueBackPressureSize := by
  obtain ⟨m, h⟩ := beforeTaskExecution_eq p.taskStatisticsRequirements p.now t n
  rw [Pool.startTask, h]
  rfl

end StartTask

/-- A pool, and the tasks the code has in hand. -/
abbrev Config (Data Response : Type) : Type := Pool Data Response × Multiset (Task Data)

inductive Move (guarded lossy : Prop) : Config Data Response → Config Data Response → Prop
  /-- Statistics, guards and loop counters change. -/
  | book {p h} (i f) : (∀ n, p.workerNodes[i]? = some n → SameTasks n (f n)) →
      Move guarded lossy (p, h) (p.modifyNode i f, h)
  | shift {p h i n t q} : p.workerNodes[i]? = some n → n.tasksQueue = t :: q →
      Move guarded lossy (p, h) (p.modifyNode i fun n => { n with tasksQueue := n.tasksQueue.tail }, t ::ₘ h)
  | pop {p h i n t q} : p.workerNodes[i]? = some n → n.tasksQueue = q ++ [t] →
      Move guarded lossy (p, h) (p.modifyNode i fun n => { n with tasksQueue := n.tasksQueue.dropLast }, t ::ₘ h)
  | push {p h i n t} : p.workerNodes[i]? = some n → p.shallExecute n = false →
      Move guarded lossy (p, t ::ₘ h) (p.modifyNode i fun n => { n with tasksQueue := n.tasksQueue ++ [t] }, h)
  | send {p h i n t} : p.workerNodes[i]? = some n → (guarded → p.shallExecute n = true) → p.canSend n t = true →
      Move guarded lossy (p, t ::ₘ h) (p.modifyNode i (p.startTask t), h)
  /-- The counter goes up, but the task is not sent. -/
  | fail {p h i t} : lossy →
      Move guarded lossy (p, h) (p.modifyNode i (·.beforeTaskExecution p.taskStatisticsRequirements p.now t), h)
  /-- An exception ends the code that has some tasks in hand. -/
  | drop {p h lost} : lossy → Move guarded lossy (p, h + lost) ({ p with errorsCaught := p.errorsCaught + 1 }, h)

theorem sameSetup_of_queue (n : WorkerNode Data) (q : List (Task Data)) :
    SameSetup n { n with tasksQueue := q } := ⟨rfl, rfl, rfl, rfl, rfl, rfl, rfl, id⟩

theorem sameSetup_beforeTaskExecution (requirements : TaskStatisticsRequirements) (now : ℚ) (t : Task Data)
    (n : WorkerNode Data) : SameSetup n (n.beforeTaskExecution requirements now t) := by
  obtain ⟨m, h⟩ := beforeTaskExecution_eq requirements now t n
  rw [h]
  exact ⟨rfl, rfl, rfl, rfl, rfl, rfl, rfl, id⟩

theorem sameSetup_receive (n : WorkerNode Data) (t : Task Data) : SameSetup n (n.receive t) :=
  ⟨rfl, rfl, rfl, rfl, rfl, rfl, rfl, id⟩

theorem Move.frame {guarded lossy : Prop} {c c' : Config Data Response} (h : Move guarded lossy c c') :
    Frame c.1 c'.1 := by
  cases h with
  | book i f hf => exact .modifyNode _ i f fun n hn => (hf n hn).setup
  | shift hn hq => exact .modifyNode _ _ _ fun n _ => sameSetup_of_queue n _
  | pop hn hq => exact .modifyNode _ _ _ fun n _ => sameSetup_of_queue n _
  | push hn hs => exact .modifyNode _ _ _ fun n _ => sameSetup_of_queue n _
  | send hn hg hs =>
    exact .modifyNode _ _ _ fun n _ => (sameSetup_beforeTaskExecution _ _ _ n).trans (sameSetup_receive _ _)
  | fail hl => exact .modifyNode _ _ _ fun n _ => sameSetup_beforeTaskExecution _ _ _ n
  | drop hl =>
    exact ⟨rfl, Nat.le_succ _, rfl, fun i n n' hn hn' => by
      simp only at hn'
      rw [hn] at hn'
      cases hn'
      exact .refl n⟩

/-! ## Chains of moves -/

/-- The code that started with `c` has come to the pool `s` with `h` in hand. -/
def Reached (guarded : Prop) (c : Config Data Response) (s : Pool Data Response) (h : Multiset (Task Data)) : Prop :=
  ReflTransGen (Move guarded (¬ Live c.1)) c (s, h)

/-- An exception has ended the code that should have kept `h` in hand; tasks may be lost. -/
def Failed (guarded : Prop) (c : Config Data Response) (h : Multiset (Task Data)) (s : Pool Data Response) : Prop :=
  ¬ Live c.1 ∧ ∃ lost, Reached guarded c s (h + lost)

section Chains
variable {g : Prop} {c : Config Data Response} {s s' : Pool Data Response} {h h' : Multiset (Task Data)}

theorem Reached.refl (p : Pool Data Response) (h : Multiset (Task Data)) : Reached g (p, h) p h :=
  ReflTransGen.refl

theorem Reached.move (hr : Reached g c s h) (hm : Move g (¬ Live c.1) (s, h) (s', h')) : Reached g c s' h' :=
  .tail hr hm

theorem Reached.book (hr : Reached g c s h) (i : Nat) {f : WorkerNode Data → WorkerNode Data}
    (hf : ∀ n, s.workerNodes[i]? = some n → SameTasks n (f n)) : Reached g c (s.modifyNode i f) h :=
  hr.move (.book i f hf)

theorem Reached.frame (hr : Reached g c s h) : Frame c.1 s :=
  RunLib.inv_of_chain (I := fun d => Frame c.1 d.1) (fun _ _ hm hf => hf.trans hm.frame) hr (.refl _)

theorem Reached.lt (hr : Reached g c s h) {k : Nat} : k < s.workerNodes.length ↔ k < c.1.workerNodes.length := by
  rw [hr.frame.length]

theorem Reached.node (hr : Reached g c s h) {k : Nat} (hk : k < c.1.workerNodes.length) :
    ∃ n, s.workerNodes[k]? = some n :=
  Pool.node_of_lt (hr.lt.2 hk)

theorem Failed.of_reached (hr : Reached g c s (h + h')) (hl : ¬ Live c.1) : Failed g c h s := ⟨hl, h', hr⟩

/-- The `catch` of code that has failed: what it had in hand is lost. -/
theorem Failed.caught (hf : Failed g c h s) : Reached g c { s with errorsCaught := s.errorsCaught + 1 } h := by
  obtain ⟨hl, lost, hr⟩ := hf
  exact hr.move (.drop hl)

/-- While every send succeeds, no code fails. -/
theorem not_failed (hl : Live c.1) : ¬ Failed g c h s := fun hf => hf.1 hl

end Chains

/-! ## The destination of a redistributed task -/

/-- The node `n` at the key `d` has the shortest queue of the ready nodes among the first `j`, and is the
first of those; or `d` is `0` because no queue of theirs is shorter than that of node `0`. -/
structure Shortest (l : List (WorkerNode Data)) (j d : Nat) (n : WorkerNode Data) : Prop where
  node : l[d]? = some n
  ready : d ≠ 0 → n.info.ready = true ∧ ∃ n₀, l[0]? = some n₀ ∧ n.tasksQueue.length < n₀.tasksQueue.length
  least : ∀ i a, i < j → l[i]? = some a → a.info.ready = true →
    n.tasksQueue.length ≤ a.tasksQueue.length ∧ (i < d → n.tasksQueue.length < a.tasksQueue.length)

/-- One more node is compared with the shortest so far. -/
theorem Shortest.next {l : List (WorkerNode Data)} {j d : Nat} {n a : WorkerNode Data} (h : Shortest l j d n)
    (hd : d ≤ j) (ha : l[j]? = some a) :
    ∃ n', Shortest l (j + 1) (if a.info.ready && l[d]?.any (a.tasksQueue.length < ·.tasksQueue.length) then j else d) n' := by
  rw [h.node, Option.any_some]
  obtain ⟨n₀, hn₀, hle⟩ : ∃ n₀, l[0]? = some n₀ ∧ n.tasksQueue.length ≤ n₀.tasksQueue.length := by
    by_cases hd0 : d = 0
    · subst hd0
      exact ⟨n, h.node, Nat.le_refl _⟩
    · obtain ⟨-, n₀, hn₀, hlt⟩ := h.ready hd0
      exact ⟨n₀, hn₀, Nat.le_of_lt hlt⟩
  by_cases hc : (a.info.ready && decide (a.tasksQueue.length < n.tasksQueue.length)) = true
  · rw [if_pos hc]
    simp only [Bool.and_eq_true, decide_eq_true_eq] at hc
    obtain ⟨hready, hlt⟩ := hc
    refine ⟨a, ha, fun _ => ⟨hready, n₀, hn₀, by omega⟩, fun i b hi hb hbr => ?_⟩
    by_cases hij : i = j
    · subst hij
      rw [ha] at hb
      cases hb
      exact ⟨Nat.le_refl _, fun hlt => absurd hlt (Nat.lt_irrefl i)⟩
    · have hleast := (h.least i b (by omega) hb hbr).1
      exact ⟨by omega, fun _ => by omega⟩
  · rw [if_neg hc]
    simp only [Bool.and_eq_true, decide_eq_true_eq, not_and, not_lt] at hc
    refine ⟨n, h.node, h.ready, fun i b hi hb hbr => ?_⟩
    by_cases hij : i = j
    · subst hij
      rw [ha] at hb
      cases hb
      exact ⟨hc hbr, fun hlt => by omega⟩
    · exact h.least i b (by omega) hb hbr

/-- The key that `redistributeQueuedTasks` computes is that of the shortest queue, or `0`. -/
theorem shortest_redistributionKey {p : Pool Data Response} (hp : 0 < p.workerNodes.length) :
    ∃ n, Shortest p.workerNodes p.workerNodes.length (redistributionKey p) n := by
  have hfold (l : List (WorkerNode Data)) : ∀ j d n, (∀ i : Nat, l[i]? = p.workerNodes[j + i]?) →
      Shortest p.workerNodes j d n → d ≤ j →
      ∃ n', Shortest p.workerNodes (j + l.length)
        ((l.zipIdx j).foldl (fun m (a : WorkerNode Data × Nat) =>
          if a.1.info.ready && p.workerNodes[m]?.any (a.1.tasksQueue.length < ·.tasksQueue.length)
          then a.2 else m) d) n' := by
    induction l with
    | nil =>
      intro j d n hl h hd
      exact ⟨n, h⟩
    | cons a l ih =>
      intro j d n hl h hd
      have ha : p.workerNodes[j]? = some a := by
        have := hl 0
        rw [List.getElem?_cons_zero] at this
        exact this.symm
      obtain ⟨n', hn'⟩ := h.next hd ha
      have hrest (i : Nat) : l[i]? = p.workerNodes[j + 1 + i]? := by
        have := hl (i + 1)
        rw [List.getElem?_cons_succ] at this
        rw [this]
        congr 1
        omega
      have hle : (if a.info.ready && p.workerNodes[d]?.any (a.tasksQueue.length < ·.tasksQueue.length) then j else d) ≤
          j + 1 := by
        split <;> omega
      obtain ⟨n'', hn''⟩ := ih (j + 1) _ n' hrest hn' hle
      have hj : j + (a :: l).length = j + 1 + l.length := by
        rw [List.length_cons]
        omega
      rw [hj]
      exact ⟨n'', hn''⟩
  obtain ⟨n₀, hn₀⟩ := Pool.node_of_lt hp
  have hinit : Shortest p.workerNodes 0 0 n₀ := by
    refine ⟨hn₀, fun h => absurd rfl h, fun i a hi => ?_⟩
    exact absurd hi (Nat.not_lt_zero i)
  have hall (i : Nat) : p.workerNodes[i]? = p.workerNodes[0 + i]? := by rw [Nat.zero_add]
  obtain ⟨n, hn⟩ := hfold p.workerNodes 0 0 n₀ hall hinit (Nat.le_refl 0)
  rw [Nat.zero_add] at hn
  exact ⟨n, hn⟩

/-! ## The queue code moves tasks -/

section Code
variable {g : Prop} {c : Config Data Response} {s : Pool Data Response} {h : Multiset (Task Data)} {k : Nat}
  {n : WorkerNode Data} {t : Task Data} {cb : Callbacks Data Response}

theorem wp_shallExecuteTask {Q : Bool → Pool Data Response → Prop} {E : JsError → Pool Data Response → Prop}
    (hn : s.workerNodes[k]? = some n) : wp (shallExecuteTask k) Q E s ↔ Q (s.shallExecute n) s := by
  simp [shallExecuteTask, wp_nodeAt hn]

theorem beforeTaskExecutionHook_eq (hn : s.workerNodes[k]? = some n) (t : Task Data) :
    beforeTaskExecutionHook k t s =
      some (.ok (), s.modifyNode k (·.beforeTaskExecution s.taskStatisticsRequirements s.now t)) := by
  unfold beforeTaskExecutionHook
  rw [nodeAt_bind hn, get_bind]
  rfl

/-- What a node is when a task message is posted to its worker. -/
theorem sendToWorker_eq (hn : s.workerNodes[k]? = some n) (t : Task Data) :
    sendToWorker k t s =
      if !n.channelOpen then some (.error .undefinedAccess, s)
      else if !s.postable t then some (.error .dataCloneError, s)
      else some (.ok (), s.modifyNode k (·.receive t)) := by
  unfold sendToWorker
  rw [nodeAt_bind hn]
  by_cases ho : n.channelOpen = true
  · rw [if_neg (by simp [ho]), if_neg (by simp [ho]), get_bind]
    by_cases hp : s.postable t = true
    · rw [if_neg (by simp [hp]), if_neg (by simp [hp])]
      rfl
    · rw [if_pos (by simp [hp]), if_pos (by simp [hp])]
      rfl
  · rw [if_pos (by simp [ho]), if_pos (by simp [ho])]
    rfl

/-- A task that can be sent is counted and sent. -/
theorem executeTask_eq (hn : s.workerNodes[k]? = some n) (hc : s.canSend n t = true) :
    executeTask k t s = some (.ok (), s.modifyNode k (s.startTask t)) := by
  have hn' := Pool.getElem?_modifyNode_self
    (fun m => m.beforeTaskExecution s.taskStatisticsRequirements s.now t) hn
  have hopen : (n.beforeTaskExecution s.taskStatisticsRequirements s.now t).channelOpen = n.channelOpen :=
    channelOpen_of_sameSetup (sameSetup_beforeTaskExecution _ _ _ n)
  simp only [Pool.canSend, Bool.and_eq_true] at hc
  have hpost : (s.modifyNode k (·.beforeTaskExecution s.taskStatisticsRequirements s.now t)).postable t = true := hc.2
  unfold executeTask
  rw [bind_ok (beforeTaskExecutionHook_eq hn t), sendToWorker_eq hn', hopen, hc.1, hpost]
  rw [Pool.modifyNode_modifyNode]
  rfl

/-- A send that throws leaves the counter up. -/
theorem executeTask_error (hn : s.workerNodes[k]? = some n) (hc : s.canSend n t = false) :
    ∃ e, executeTask k t s =
      some (.error e, s.modifyNode k (·.beforeTaskExecution s.taskStatisticsRequirements s.now t)) := by
  have hn' := Pool.getElem?_modifyNode_self
    (fun m => m.beforeTaskExecution s.taskStatisticsRequirements s.now t) hn
  have hopen : (n.beforeTaskExecution s.taskStatisticsRequirements s.now t).channelOpen = n.channelOpen :=
    channelOpen_of_sameSetup (sameSetup_beforeTaskExecution _ _ _ n)
  unfold executeTask
  rw [bind_ok (beforeTaskExecutionHook_eq hn t), sendToWorker_eq hn', hopen]
  by_cases ho : n.channelOpen = true
  · have hp : s.postable t = false := by simpa [Pool.canSend, ho] using hc
    have hpost : (s.modifyNode k (·.beforeTaskExecution s.taskStatisticsRequirements s.now t)).postable t = false := hp
    rw [if_neg (by simp [ho]), hpost]
    exact ⟨_, rfl⟩
  · rw [if_pos (by simp [ho])]
    exact ⟨_, rfl⟩

theorem wp_executeTask {Q : Unit → Pool Data Response → Prop} {E : JsError → Pool Data Response → Prop}
    (hn : s.workerNodes[k]? = some n) (hc : s.canSend n t = true) :
    wp (executeTask k t) Q E s ↔ Q () (s.modifyNode k (s.startTask t)) :=
  wp_of_ok (executeTask_eq hn hc)

theorem wp_executeTask_throws {Q : Unit → Pool Data Response → Prop} {E : JsError → Pool Data Response → Prop}
    (hn : s.workerNodes[k]? = some n) (hc : s.canSend n t = false)
    (hE : ∀ e, E e (s.modifyNode k (·.beforeTaskExecution s.taskStatisticsRequirements s.now t))) :
    wp (executeTask k t) Q E s := by
  obtain ⟨e, he⟩ := executeTask_error hn hc
  exact (wp_of_error he).2 (hE e)

/-- A task in hand is sent, or its sending throws. -/
theorem executeTask_moves (hr : Reached g c s (t ::ₘ h)) (hn : s.workerNodes[k]? = some n)
    (hg : g → s.shallExecute n = true) :
    wp (executeTask k t) (fun _ s' => Reached g c s' h) (fun _ s' => Failed g c h s') s := by
  rcases hc : s.canSend n t with _ | _
  · refine wp_executeTask_throws hn hc fun e => ?_
    have hl : ¬ Live c.1 := fun hl => by
      rw [(hr.frame.live hl).canSend (List.mem_of_getElem? hn) t] at hc
      cases hc
    refine ⟨hl, {t}, ?_⟩
    rw [Multiset.add_comm, Multiset.singleton_add]
    exact hr.move (.fail hl)
  · rw [wp_executeTask hn hc]
    exact hr.move (.send hn hg hc)

/-- What is asked of the callbacks: called with the id of a worker of the pool, they move tasks. -/
structure CallbacksMove (cb : Callbacks Data Response) : Prop where
  onEmptyQueue : ∀ {g : Prop} {c : Config Data Response} {s h} (workerId : Nat), Reached g c s h →
    c.1.getWorkerNodeKeyByWorkerId workerId < c.1.workerNodes.length →
    wp (cb.onEmptyQueue workerId) (fun _ s' => Reached g c s' h) (fun _ s' => Failed g c h s') s
  onBackPressure : ∀ {g : Prop} {c : Config Data Response} {s h} (workerId : Nat), Reached g c s h →
    c.1.getWorkerNodeKeyByWorkerId workerId < c.1.workerNodes.length →
    wp (cb.onBackPressure workerId) (fun _ s' => Reached g c s' h) (fun _ s' => Failed g c h s') s

/-- The id of a node of the pool is one the callbacks can be called with. -/
theorem Reached.key_lt (hr : Reached g c s h) (hn : s.workerNodes[k]? = some n) :
    c.1.getWorkerNodeKeyByWorkerId n.info.id < c.1.workerNodes.length := by
  rw [← hr.frame.key_eq, ← hr.frame.length, Pool.key_lt_iff]
  exact ⟨n, List.mem_of_getElem? hn, rfl⟩

theorem enqueueTask_moves (hcb : CallbacksMove cb) (hr : Reached g c s (t ::ₘ h))
    (hn : s.workerNodes[k]? = some n) (hs : s.shallExecute n = false) :
    wp (enqueueTask cb k t) (fun _ s' => Reached g c s' h) (fun _ s' => Failed g c h s') s := by
  have hr' := hr.move (.push hn hs)
  have hn' := Pool.getElem?_modifyNode_self (fun m => { m with tasksQueue := m.tasksQueue ++ [t] }) hn
  simp only [enqueueTask, wp_bind, wp_nodeAt hn, wp_modifyNode, wp_nodeAt hn']
  split
  · have hr'' := hr'.book k (f := fun m => { m with onBackPressureStarted := true })
      fun m _ => ⟨⟨rfl, rfl, rfl, rfl, rfl, rfl, rfl, id⟩, rfl, rfl, rfl⟩
    simp only [wp_bind, wp_modifyNode]
    refine wp_mono (hcb.onBackPressure _ hr'' (hr.key_lt hn)) (fun _ s' hr₃ => ?_) fun _ _ hf => hf
    exact hr₃.book k fun m _ => ⟨⟨rfl, rfl, rfl, rfl, rfl, rfl, rfl, id⟩, rfl, rfl, rfl⟩
  · simpa using hr'

/-- The first round of a loop counts itself, and calls back if there is a callback. -/
theorem startOnEmptyQueue_first (hn : s.workerNodes[k]? = some n) (hcount : n.onEmptyQueueCount = 0) :
    startOnEmptyQueue cb k s = (if n.onEmptyQueue then cb.onEmptyQueue n.info.id else pure () : PoolM Data Response Unit)
      (s.modifyNode k fun m => { m with onEmptyQueueCount := m.onEmptyQueueCount + 1, polling := true }) := by
  unfold startOnEmptyQueue
  rw [nodeAt_bind hn, if_neg (by simp [hcount])]
  rfl

theorem startOnEmptyQueue_moves (hcb : CallbacksMove cb) (hr : Reached g c s h) (hn : s.workerNodes[k]? = some n) :
    wp (startOnEmptyQueue cb k) (fun _ s' => Reached g c s' h) (fun _ s' => Failed g c h s') s := by
  simp only [startOnEmptyQueue, wp_bind, wp_nodeAt hn]
  split
  · simp only [wp_modifyNode]
    exact hr.book k fun m _ => ⟨⟨rfl, rfl, rfl, rfl, rfl, rfl, rfl, fun _ hp => by cases hp⟩, rfl, rfl, rfl⟩
  · simp only [wp_bind, wp_modifyNode]
    have hr' := hr.book k (f := fun m => { m with onEmptyQueueCount := m.onEmptyQueueCount + 1, polling := true })
      fun m _ => ⟨⟨rfl, rfl, rfl, rfl, rfl, rfl, rfl, fun _ _ => Nat.succ_pos _⟩, rfl, rfl, rfl⟩
    split
    · exact hcb.onEmptyQueue _ hr' (hr.key_lt hn)
    · simpa using hr'

theorem startOnEmptyQueueCaught_moves (hcb : CallbacksMove cb) (hr : Reached g c s h)
    (hn : s.workerNodes[k]? = some n) :
    wp (startOnEmptyQueueCaught cb k) (fun _ s' => Reached g c s' h) (fun _ _ => False) s := by
  rw [startOnEmptyQueueCaught, wp_swallow]
  refine wp_mono (startOnEmptyQueue_moves hcb hr hn) (fun _ _ hr' => hr') fun _ s' hf => ?_
  obtain ⟨hl, lost, hr'⟩ := hf
  have hr'' := hr'.book k (f := fun m => { m with polling := false })
    fun m _ => ⟨⟨rfl, rfl, rfl, rfl, rfl, rfl, rfl, fun _ hp => by cases hp⟩, rfl, rfl, rfl⟩
  exact (Failed.of_reached hr'' hl).caught

theorem afterTaken_moves (hcb : CallbacksMove cb) (hr : Reached g c s h) (hn : s.workerNodes[k]? = some n) :
    wp (afterTaken cb k) (fun _ s' => Reached g c s' h) (fun _ _ => False) s := by
  simp only [afterTaken, wp_bind, wp_nodeAt hn]
  split
  · exact startOnEmptyQueueCaught_moves hcb hr hn
  · simpa using hr

theorem dequeueTask_moves (hcb : CallbacksMove cb) (hr : Reached g c s h) (hn : s.workerNodes[k]? = some n)
    {q : List (Task Data)} (hq : n.tasksQueue = t :: q) :
    wp (dequeueTask cb k) (fun r s' => r = some t ∧ Reached g c s' (t ::ₘ h)) (fun _ _ => False) s := by
  have hn' := Pool.getElem?_modifyNode_self (fun m => { m with tasksQueue := m.tasksQueue.tail }) hn
  simp only [dequeueTask, wp_bind, wp_nodeAt hn, wp_modifyNode, wp_pure, hq, List.head?_cons, true_and]
  exact afterTaken_moves hcb (hr.move (.shift hn hq)) hn'

theorem popTask_moves (hcb : CallbacksMove cb) (hr : Reached g c s h) (hn : s.workerNodes[k]? = some n)
    {q : List (Task Data)} (hq : n.tasksQueue = q ++ [t]) :
    wp (popTask cb k) (fun r s' => r = some t ∧ Reached g c s' (t ::ₘ h)) (fun _ _ => False) s := by
  have hn' := Pool.getElem?_modifyNode_self (fun m => { m with tasksQueue := m.tasksQueue.dropLast }) hn
  simp only [popTask, wp_bind, wp_nodeAt hn, wp_modifyNode, wp_pure, hq, List.getLast?_append, List.getLast?_singleton,
    Option.some_or, true_and]
  exact afterTaken_moves hcb (hr.move (.pop hn hq)) hn'

theorem executeOrEnqueueTask_moves (hcb : CallbacksMove cb) (hr : Reached g c s (t ::ₘ h))
    (hk : k < c.1.workerNodes.length) :
    wp (executeOrEnqueueTask cb k t) (fun _ s' => Reached g c s' h) (fun _ s' => Failed g c h s') s := by
  obtain ⟨n, hn⟩ := hr.node hk
  simp only [executeOrEnqueueTask, wp_bind, wp_shallExecuteTask hn]
  rcases hs : s.shallExecute n with _ | _
  · simpa using enqueueTask_moves hcb hr hn hs
  · simpa using executeTask_moves hr hn fun _ => hs

theorem dispatchStolenTask_moves (hcb : CallbacksMove cb) (hr : Reached g c s (t ::ₘ h))
    (hk : k < c.1.workerNodes.length) :
    wp (dispatchStolenTask cb k (some t)) (fun _ s' => Reached g c s' h) (fun _ s' => Failed g c h s') s := by
  simp only [dispatchStolenTask, wp_bind]
  refine wp_mono (executeOrEnqueueTask_moves hcb hr hk) (fun _ s' hr' => ?_) fun _ _ hf => hf
  obtain ⟨n, hn⟩ := hr'.node hk
  simp only [updateTaskStolenStatisticsWorkerUsage, wp_bind, wp_nodeAt hn, wp_modifyNode]
  exact hr'.book k fun m _ => sameTasks_stealTask _ m

/-- A node the empty queue callback steals from is another worker's, is ready and has a task. -/
theorem emptyQueueStealSource_some {p : Pool Data Response} {workerId : Nat} (hs : emptyQueueStealSource p workerId = some (n, k)) :
    p.workerNodes[k]? = some n ∧ n.info.ready = true ∧ n.info.id ≠ workerId ∧ n.tasksQueue ≠ [] := by
  have hm := List.mem_of_find?_eq_some hs
  rw [List.mem_insertionSort, List.mem_zipIdx_iff_getElem?] at hm
  have hp := List.find?_some hs
  simp only [Bool.and_eq_true, decide_eq_true_eq, List.length_pos_iff] at hp
  exact ⟨hm, hp.1.1, hp.1.2, hp.2⟩

theorem taskStealingOnEmptyQueue_moves (hcb : CallbacksMove cb) (workerId : Nat) (hr : Reached g c s h)
    (hk : c.1.getWorkerNodeKeyByWorkerId workerId < c.1.workerNodes.length) :
    wp (taskStealingOnEmptyQueue cb workerId) (fun _ s' => Reached g c s' h) (fun _ s' => Failed g c h s') s := by
  simp only [taskStealingOnEmptyQueue, wp_bind, wp_get]
  rcases hs : emptyQueueStealSource s workerId with _ | ⟨n, source⟩
  · simpa using hr
  · obtain ⟨hn, -, -, hne⟩ := emptyQueueStealSource_some hs
    have hq := (List.dropLast_append_getLast hne).symm
    simp only [wp_bind]
    refine wp_mono (popTask_moves hcb hr hn hq) (fun r s' hr' => ?_) fun _ _ hf => hf.elim
    obtain ⟨rfl, hr'⟩ := hr'
    rw [hr.frame.key_eq]
    exact dispatchStolenTask_moves hcb hr' hk

theorem stealOnBackPressure_moves (hcb : CallbacksMove cb) (workerId : Nat) {source workerNode : Nat}
    (hr : Reached g c s h) (hsource : source < c.1.workerNodes.length)
    (hnode : workerNode < c.1.workerNodes.length) (hk : k < c.1.workerNodes.length) :
    wp (stealOnBackPressure cb workerId source workerNode k) (fun _ s' => Reached g c s' h)
      (fun _ s' => Failed g c h s') s := by
  obtain ⟨m, hm⟩ := hr.node hsource
  obtain ⟨n, hn⟩ := hr.node hnode
  simp only [stealOnBackPressure, wp_bind, wp_nodeAt hm]
  split
  · simp only [wp_bind, wp_nodeAt hn, wp_get]
    split
    · have hne : m.tasksQueue ≠ [] := List.length_pos_iff.1 ‹_›
      have hq := (List.dropLast_append_getLast hne).symm
      simp only [wp_bind]
      refine wp_mono (popTask_moves hcb hr hm hq) (fun r s' hr' => ?_) fun _ _ hf => hf.elim
      obtain ⟨rfl, hr'⟩ := hr'
      exact dispatchStolenTask_moves hcb hr' hk
    · simpa using hr
  · simpa using hr

/-- Keys in the sorted copy of the nodes, and positions in it, are keys of the pool. -/
theorem zipIdx_sorted_lt {α : Type} (l : List α) (r : α × Nat → α × Nat → Prop) [DecidableRel r]
    {a : (α × Nat) × Nat} (ha : a ∈ (l.zipIdx.insertionSort r).zipIdx) : a.1.2 < l.length ∧ a.2 < l.length := by
  obtain ⟨⟨x, j⟩, i⟩ := a
  have hi := List.mem_zipIdx_iff_getElem?.1 ha
  have hlt := (List.getElem?_eq_some_iff.1 hi).1
  have hm := List.mem_of_getElem? hi
  rw [List.mem_insertionSort, List.mem_zipIdx_iff_getElem?] at hm
  refine ⟨(List.getElem?_eq_some_iff.1 hm).1, ?_⟩
  simpa [List.length_insertionSort] using hlt

theorem tasksStealingOnBackPressure_moves (hcb : CallbacksMove cb) (workerId : Nat) (hr : Reached g c s h)
    (hk : c.1.getWorkerNodeKeyByWorkerId workerId < c.1.workerNodes.length) :
    wp (tasksStealingOnBackPressure cb workerId) (fun _ s' => Reached g c s' h) (fun _ s' => Failed g c h s') s := by
  simp only [tasksStealingOnBackPressure, wp_bind, wp_get]
  split
  · simpa using hr
  · refine wp_forEach (I := fun s' => Reached g c s' h) hr fun a ha s' hr' => ?_
    obtain ⟨h₁, h₂⟩ := zipIdx_sorted_lt _ _ ha
    rw [hr.frame.key_eq]
    exact stealOnBackPressure_moves hcb workerId hr' hk (hr.lt.1 h₁) (hr.lt.1 h₂)

/-- The pool's callbacks move tasks, however deep they nest. -/
theorem callbacks_move (fuel : Nat) : CallbacksMove (callbacks fuel : Callbacks Data Response) := by
  induction fuel with
  | zero => exact ⟨fun _ _ _ => wp_diverge, fun _ _ _ => wp_diverge⟩
  | succ fuel ih =>
    exact ⟨fun workerId hr hk => taskStealingOnEmptyQueue_moves ih workerId hr hk,
      fun workerId hr hk => tasksStealingOnBackPressure_moves ih workerId hr hk⟩

/-! ## Loops that empty a queue -/

theorem tasksQueueNotEmpty_moves (hr : Reached g c s h) (hk : k < c.1.workerNodes.length) :
    wp (tasksQueueNotEmpty k) (fun b s' => Reached g c s' h ∧ ∃ n, s'.workerNodes[k]? = some n ∧
      b = decide (n.tasksQueue ≠ [])) (fun _ s' => Failed g c h s') s := by
  obtain ⟨n, hn⟩ := hr.node hk
  simp only [tasksQueueNotEmpty, wp_bind, wp_nodeAt hn, wp_pure]
  refine ⟨hr, n, hn, ?_⟩
  simp [List.length_pos_iff]

theorem dequeueThen_moves (hcb : CallbacksMove cb) (hr : Reached g c s h) (hn : s.workerNodes[k]? = some n)
    (hne : n.tasksQueue ≠ []) {next : Task Data → PoolM Data Response Unit}
    (hnext : ∀ t s', Reached g c s' (t ::ₘ h) →
      wp (next t) (fun _ s' => Reached g c s' h) (fun _ s' => Failed g c h s') s') :
    wp (dequeueThen cb k next) (fun _ s' => Reached g c s' h) (fun _ s' => Failed g c h s') s := by
  obtain ⟨t, q, hq⟩ := List.exists_cons_of_ne_nil hne
  simp only [dequeueThen, wp_bind]
  refine wp_mono (dequeueTask_moves hcb hr hn hq) (fun r s' hr' => ?_) fun _ _ hf => hf.elim
  obtain ⟨rfl, hr'⟩ := hr'
  exact hnext t s' hr'

theorem redistributionKey_lt {p : Pool Data Response} (hp : 0 < p.workerNodes.length) :
    redistributionKey p < p.workerNodes.length := by
  obtain ⟨n, hn⟩ := shortest_redistributionKey hp
  exact Pool.lt_of_node hn.node

theorem redistributeQueuedTasks_moves (hcb : CallbacksMove cb) (fuel : Nat) (hr : Reached g c s h)
    (hk : k < c.1.workerNodes.length) :
    wp (redistributeQueuedTasks cb fuel k) (fun _ s' => Reached g c s' h) (fun _ s' => Failed g c h s') s := by
  refine wp_mono (wp_whileDo (I := fun s' => Reached g c s' h) hr
    (fun s' hr' => tasksQueueNotEmpty_moves hr' hk) fun s' hs' => ?_) (fun _ _ hs' => hs'.1) fun _ _ hf => hf
  obtain ⟨hr', n, hn, hne⟩ := hs'
  simp only [wp_bind, wp_get]
  refine dequeueThen_moves hcb hr' hn (by simpa using hne) fun t s'' hr'' => ?_
  exact executeOrEnqueueTask_moves hcb hr'' (hr'.lt.1 (redistributionKey_lt (Nat.zero_lt_of_lt (Pool.lt_of_node hn))))

/-- A queue is flushed to its worker whatever the worker's quota is. -/
theorem flushTasksQueue_moves (hcb : CallbacksMove cb) (fuel : Nat) (hr : Reached False c s h)
    (hk : k < c.1.workerNodes.length) :
    wp (flushTasksQueue cb fuel k) (fun _ s' => Reached False c s' h) (fun _ s' => Failed False c h s') s := by
  simp only [flushTasksQueue, wp_bind]
  refine wp_mono (wp_whileDo (I := fun s' => Reached False c s' h) hr
    (fun s' hr' => tasksQueueNotEmpty_moves hr' hk) fun s' hs' => ?_) (fun _ s' hs' => ?_) fun _ _ hf => hf
  · obtain ⟨hr', n, hn, hne⟩ := hs'
    refine dequeueThen_moves hcb hr' hn (by simpa using hne) fun t s'' hr'' => ?_
    obtain ⟨m, hm⟩ := hr''.node hk
    exact executeTask_moves hr'' hm False.elim
  · obtain ⟨hr', n, hn, hne⟩ := hs'
    have hq : n.tasksQueue = [] := by simpa using hne
    simp only [wp_modifyNode]
    refine hr'.book k fun m hm => ?_
    rw [hn] at hm
    cases hm
    exact ⟨sameSetup_of_queue n [], rfl, hq.symm, rfl⟩

theorem flushTasksQueues_moves (hcb : CallbacksMove cb) (fuel : Nat) (hr : Reached False c s h) :
    wp (flushTasksQueues cb fuel) (fun _ s' => Reached False c s' h) (fun _ s' => Failed False c h s') s := by
  simp only [flushTasksQueues, wp_bind, wp_get]
  refine wp_forEach (I := fun s' => Reached False c s' h) hr fun k hk s' hr' => ?_
  exact flushTasksQueue_moves hcb fuel hr' (hr.lt.1 (List.mem_range.1 hk))

end Code

/-! ## What every move keeps -/

section Invariants
variable {g g' : Prop} {c : Config Data Response} {s : Pool Data Response} {h : Multiset (Task Data)}

theorem Move.mono {lossy lossy' : Prop} {a b : Config Data Response} (hg : g' → g) (hl : lossy → lossy')
    (hm : Move g lossy a b) : Move g' lossy' a b := by
  cases hm with
  | book i f hf => exact .book i f hf
  | shift hn hq => exact .shift hn hq
  | pop hn hq => exact .pop hn hq
  | push hn hs => exact .push hn hs
  | send hn hs hc => exact .send hn (fun h => hs (hg h)) hc
  | fail h => exact .fail (hl h)
  | drop h => exact .drop (hl h)

theorem Reached.mono (hr : Reached g c s h) (hg : g' → g) : Reached g' c s h :=
  ReflTransGen.mono (fun _ _ (hm : Move g _ _ _) => hm.mono hg id) _ _ hr

/-- While every send succeeds, what the moves that lose nothing keep holds wherever the code comes. -/
theorem Reached.inv_live (I : Config Data Response → Prop) (hr : Reached g c s h) (hl : Live c.1)
    (hI : ∀ a b, Move g False a b → I a → I b) (hc : I c) : I (s, h) :=
  RunLib.inv_of_chain (fun a b hm => hI a b (hm.mono id fun hn => hn hl)) hr hc

end Invariants

end Poolifier
