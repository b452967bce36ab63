import Poolifier.Nesting
/-!
# Stealing under back pressure

`tasksStealingOnBackPressure` goes through a copy of the nodes that is sorted by
the lengths of their queues, and gives tasks away: it tests the node at a
position of the copy, and sends the task to the node whose key is that position.
Where the two differ, a task may go to a node that is not ready, to the node it
was taken from, or to one that comes under back pressure in turn.
-/

namespace Poolifier

open EffLib Relation WorkerNode

variable {Data Response : Type}

/-! ## A steal as it is meant -/

/-- Whether a queue of this length is shorter than `size - 1`. -/
def Pool.belowSize (p : Pool Data Response) (length : Nat) : Bool := p.queueSize.any (length < · - 1)

/-- Whether the node may be given a task of the worker. -/
def Pool.mayTake (p : Pool Data Response) (workerId : Nat) (n : WorkerNode Data) : Bool :=
  n.info.ready && n.info.id ≠ workerId && p.belowSize n.tasksQueue.length

/-- The pool after a stolen task has been sent to a node or put on its queue. -/
def Pool.placeStolen (p : Pool Data Response) (workerNodeKey : Nat) (t : Task Data) : Pool Data Response :=
  (p.modifyNode workerNodeKey (p.acceptTask t)).modifyNode workerNodeKey (·.stealTask t.name)

/-- The pool after the last task has been taken out of the queue at a key. -/
def Pool.takeLast (p : Pool Data Response) (workerNodeKey : Nat) : Pool Data Response :=
  p.modifyNode workerNodeKey fun n => { n with tasksQueue := n.tasksQueue.dropLast }

/-- The pool after a task has gone from the end of a queue to a node. -/
def Pool.stealTo (p : Pool Data Response) (source workerNodeKey : Nat) (t : Task Data) : Pool Data Response :=
  (p.takeLast source).placeStolen workerNodeKey t

/-- The last task on the queue of the worker goes to a node that may take it, which counts it as stolen. -/
inductive StealsFor (workerId : Nat) : Pool Data Response → Pool Data Response → Prop
  | steal {s k a m t} : s.workerNodes[s.getWorkerNodeKeyByWorkerId workerId]? = some a →
      a.tasksQueue.getLast? = some t → s.workerNodes[k]? = some m → s.mayTake workerId m = true →
      StealsFor workerId s (s.stealTo (s.getWorkerNodeKeyByWorkerId workerId) k t)

/-- From `p` to `s` tasks of the worker have been given to nodes that might take them, and nothing else has happened:
no other node has come under back pressure. -/
structure StolenRightly (workerId : Nat) (p s : Pool Data Response) : Prop where
  steals : ReflTransGen (StealsFor workerId) p s
  calm : ∀ (k : Nat) n n', p.workerNodes[k]? = some n → s.workerNodes[k]? = some n' → n.info.id ≠ workerId →
    n'.hasBackPressure = true → n.hasBackPressure = true

theorem stealTask_eq (name : String) (n : WorkerNode Data) :
    ∃ m, n.stealTask name = { n with usage := n.usage.stealTask, taskFunctionsUsage := m } :=
  updateTaskFunctionWorkerUsage_eq (some name) .stealTask { n with usage := n.usage.stealTask }

section Steals
variable {s s' p : Pool Data Response} {w k j : Nat} {n m : WorkerNode Data} {t : Task Data}

theorem Pool.getElem?_placeStolen (s : Pool Data Response) (k j : Nat) (t : Task Data) :
    (s.placeStolen k t).workerNodes[j]? =
      (s.workerNodes[j]?).map fun n => if k = j then (s.acceptTask t n).stealTask t.name else n := by
  unfold Pool.placeStolen
  rw [Pool.modifyNode_modifyNode, Pool.getElem?_modifyNode]

theorem Pool.placeStolen_ne (t : Task Data) (hj : k ≠ j) :
    (s.placeStolen k t).workerNodes[j]? = s.workerNodes[j]? := by
  rw [Pool.getElem?_placeStolen]
  simp only [hj, if_false, Option.map_id']

theorem frame_placeStolen (s : Pool Data Response) (k : Nat) (t : Task Data) : Frame s (s.placeStolen k t) := by
  unfold Pool.placeStolen
  rw [Pool.modifyNode_modifyNode]
  exact .modifyNode s k _ fun n _ => (sameSetup_acceptTask s t n).trans (sameTasks_stealTask _ _).setup

theorem frame_takeLast (s : Pool Data Response) (k : Nat) : Frame s (s.takeLast k) :=
  .modifyNode s k _ fun n _ => sameSetup_of_queue n _

theorem Pool.takeLast_self (hn : s.workerNodes[k]? = some n) :
    (s.takeLast k).workerNodes[k]? = some { n with tasksQueue := n.tasksQueue.dropLast } :=
  Pool.getElem?_modifyNode_self _ hn

theorem Pool.takeLast_ne (hj : k ≠ j) : (s.takeLast k).workerNodes[j]? = s.workerNodes[j]? :=
  Pool.getElem?_modifyNode_ne _ hj

theorem frame_stealTo (s : Pool Data Response) (source k : Nat) (t : Task Data) : Frame s (s.stealTo source k t) :=
  (frame_takeLast s source).trans (frame_placeStolen _ k t)

theorem StealsFor.frame (h : StealsFor w s s') : Frame s s' := by
  cases h with
  | steal ha ht hm hmay => exact frame_stealTo s _ _ _

theorem frame_of_steals (h : ReflTransGen (StealsFor w) p s) : Frame p s :=
  RunLib.inv_of_chain (I := fun s => Frame p s) (fun _ _ hs hf => hf.trans hs.frame) h (.refl p)

theorem mayTake_frame (hf : Frame p s) (w : Nat) (n : WorkerNode Data) : s.mayTake w n = p.mayTake w n := by
  unfold Pool.mayTake Pool.belowSize
  rw [hf.queueSize]

/-- The length of a queue after a task has been accepted. -/
theorem length_acceptTask (s : Pool Data Response) (t : Task Data) (n : WorkerNode Data) :
    (s.acceptTask t n).tasksQueue.length = n.tasksQueue.length + if s.shallExecute n then 0 else 1 := by
  unfold Pool.acceptTask
  split
  · simp
  · simp

theorem tasksQueue_stealTask (n : WorkerNode Data) (name : String) : (n.stealTask name).tasksQueue = n.tasksQueue := by
  obtain ⟨u, hu⟩ := stealTask_eq name n
  rw [hu]

theorem stolen_stealTask (n : WorkerNode Data) (name : String) :
    (n.stealTask name).usage.tasks.stolen = n.usage.tasks.stolen + 1 := by
  obtain ⟨u, hu⟩ := stealTask_eq name n
  rw [hu]
  rfl

/-- A node that may not take a task is given none, and counts none as stolen. -/
theorem StealsFor.unfit (h : StealsFor w s s') (hn : s.workerNodes[j]? = some n) (hunfit : s.mayTake w n = false) :
    ∃ n', s'.workerNodes[j]? = some n' ∧ n'.usage.tasks.stolen = n.usage.tasks.stolen ∧ s'.mayTake w n' = false := by
  have hframe := h.frame
  cases h with
  | @steal k a m t ha ht hm hmay =>
    have hkj : k ≠ j := by
      intro hkj
      subst hkj
      rw [hn] at hm
      cases hm
      rw [hmay] at hunfit
      cases hunfit
    refine ⟨if s.getWorkerNodeKeyByWorkerId w = j then { n with tasksQueue := n.tasksQueue.dropLast } else n, ?_, ?_, ?_⟩
    · rw [Pool.stealTo, Pool.placeStolen_ne t hkj, Pool.takeLast, Pool.getElem?_modifyNode, hn, Option.map_some]
    · split <;> rfl
    · rw [mayTake_frame hframe]
      split
      · -- the node is that of the worker itself
        rename_i hj
        have hid : n.info.id = w := Pool.id_of_key (hj ▸ hn)
        simp [Pool.mayTake, hid]
      · exact hunfit

theorem steals_unfit (h : ReflTransGen (StealsFor w) p s) (hn : p.workerNodes[j]? = some n)
    (hunfit : p.mayTake w n = false) : ∃ n', s.workerNodes[j]? = some n' ∧ n'.usage.tasks.stolen = n.usage.tasks.stolen := by
  suffices hall : ∃ n', s.workerNodes[j]? = some n' ∧ n'.usage.tasks.stolen = n.usage.tasks.stolen ∧ s.mayTake w n' = false by
    obtain ⟨n', hn', hstolen, -⟩ := hall
    exact ⟨n', hn', hstolen⟩
  induction h with
  | refl => exact ⟨n, hn, rfl, hunfit⟩
  | tail _ hs ih =>
    obtain ⟨n', hn', hstolen, hunfit'⟩ := ih
    obtain ⟨n'', hn'', hstolen', hunfit''⟩ := hs.unfit hn' hunfit'
    exact ⟨n'', hn'', hstolen'.trans hstolen, hunfit''⟩

/-- A node that has been given a task is not under back pressure, if it has the queue size of the options. -/
theorem StealsFor.calm (h : StealsFor w s s')
    (hsize : ∀ n ∈ s.workerNodes, ∀ z, s.queueSize = some z → n.tasksQueueBackPressureSize = some z)
    {n' : WorkerNode Data} (hn : s.workerNodes[j]? = some n) (hn' : s'.workerNodes[j]? = some n') (hid : n.info.id ≠ w)
    (hpressed : n'.hasBackPressure = true) : n.hasBackPressure = true := by
  have hsetup := h.frame.setup j n n' hn hn'
  cases h with
  | @steal k a m t ha ht hm hmay =>
    have hj : s.getWorkerNodeKeyByWorkerId w ≠ j := fun hj => hid (Pool.id_of_key (hj ▸ hn))
    rw [Pool.stealTo, Pool.getElem?_placeStolen, Pool.takeLast_ne hj, hn, Option.map_some,
      Option.some.injEq] at hn'
    by_cases hkj : k = j
    · -- the node has been given the task: its queue was shorter than `size - 1`
      subst hkj
      rw [hn] at hm
      cases hm
      rw [if_pos rfl] at hn'
      simp only [Pool.mayTake, Pool.belowSize, Bool.and_eq_true, Option.any_eq_true, decide_eq_true_eq] at hmay
      obtain ⟨-, z, hz, hlt⟩ := hmay
      have hnode := hsize n (List.mem_of_getElem? hn) z hz
      rw [hasBackPressure, hsetup.tasksQueueBackPressureSize, hnode, Option.any_some, decide_eq_true_eq, ← hn',
        tasksQueue_stealTask, length_acceptTask] at hpressed
      split at hpressed <;> omega
    · rw [if_neg hkj] at hn'
      rw [hn']
      exact hpressed

theorem steals_calm (h : ReflTransGen (StealsFor w) p s)
    (hsize : ∀ n ∈ p.workerNodes, ∀ z, p.queueSize = some z → n.tasksQueueBackPressureSize = some z) {n' : WorkerNode Data}
    (hn : p.workerNodes[j]? = some n) (hn' : s.workerNodes[j]? = some n') (hid : n.info.id ≠ w)
    (hpressed : n'.hasBackPressure = true) : n.hasBackPressure = true := by
  induction h generalizing n' with
  | refl =>
    rw [hn] at hn'
    cases hn'
    exact hpressed
  | @tail s s' hsteals hs ih =>
    have hframe := frame_of_steals hsteals
    obtain ⟨n₁, hn₁, -⟩ := hs.frame.node hn'
    have hinfo := (hframe.setup j n n₁ hn hn₁).info
    refine ih hn₁ (hs.calm (fun b hb z hz => ?_) hn₁ hn' (by rwa [hinfo]) hpressed)
    obtain ⟨i, hi⟩ := List.mem_iff_getElem?.1 hb
    obtain ⟨b₀, hb₀, hsetup⟩ := hframe.node hi
    rw [hsetup.tasksQueueBackPressureSize]
    exact hsize b₀ (List.mem_of_getElem? hb₀) z (hframe.queueSize ▸ hz)

end Steals

/-! ## Stolen tasks are counted for good -/

/-- No node counts fewer stolen tasks in `p'` than in `p`. -/
def StolenGrows (p p' : Pool Data Response) : Prop :=
  ∀ (k : Nat) n, p.workerNodes[k]? = some n → ∃ n', p'.workerNodes[k]? = some n' ∧ n.usage.tasks.stolen ≤ n'.usage.tasks.stolen

instance : IsPreorder (Pool Data Response) StolenGrows where
  refl p k n hn := ⟨n, hn, le_rfl⟩
  trans p p' p'' h h' k n hn := by
    obtain ⟨n', hn', hle⟩ := h k n hn
    obtain ⟨n'', hn'', hle'⟩ := h' k n' hn'
    exact ⟨n'', hn'', hle.trans hle'⟩

theorem stolenGrows_modifyNode (p : Pool Data Response) (k : Nat) {f : WorkerNode Data → WorkerNode Data}
    (hf : ∀ n, n.usage.tasks.stolen ≤ (f n).usage.tasks.stolen) : StolenGrows p (p.modifyNode k f) := by
  intro j n hn
  refine ⟨if k = j then f n else n, ?_, ?_⟩
  · rw [Pool.getElem?_modifyNode, hn, Option.map_some]
  · split
    · exact hf n
    · exact le_rfl

section Grows
variable {cb : Callbacks Data Response} (k : Nat)

theorem grows_modifyNode {f : WorkerNode Data → WorkerNode Data} (hf : ∀ n, n.usage.tasks.stolen ≤ (f n).usage.tasks.stolen) :
    Within StolenGrows (modifyNode k f : PoolM Data Response Unit) :=
  within_modify fun p => stolenGrows_modifyNode p k hf

/-- What is asked of callbacks: they leave the counts, or raise them. -/
structure CallbacksGrow (cb : Callbacks Data Response) : Prop where
  onEmptyQueue : ∀ workerId, Within StolenGrows (cb.onEmptyQueue workerId)
  onBackPressure : ∀ workerId, Within StolenGrows (cb.onBackPressure workerId)

theorem grows_enqueueTask (hcb : CallbacksGrow cb) (t : Task Data) : Within StolenGrows (enqueueTask cb k t) := by
  refine (within_nodeAt k).bind fun _ => Within.bind (grows_modifyNode k fun _ => le_rfl) fun _ => ?_
  refine (within_nodeAt k).bind fun n => ?_
  split
  · refine Within.bind (grows_modifyNode k fun _ => le_rfl) fun _ => (hcb.onBackPressure n.info.id).bind fun _ => ?_
    exact grows_modifyNode k fun _ => le_rfl
  · exact within_pure ()

theorem grows_startOnEmptyQueueCaught (hcb : CallbacksGrow cb) : Within StolenGrows (startOnEmptyQueueCaught cb k) := by
  refine Within.swallow ?_ fun p => stolenGrows_modifyNode p k fun n => le_rfl
  refine (within_nodeAt k).bind fun n => ?_
  split
  · exact grows_modifyNode k fun _ => le_rfl
  · refine Within.bind (grows_modifyNode k fun _ => le_rfl) fun _ => ?_
    split
    · exact hcb.onEmptyQueue n.info.id
    · exact within_pure ()

theorem grows_popTask (hcb : CallbacksGrow cb) : Within StolenGrows (popTask cb k) := by
  refine (within_nodeAt k).bind fun n => Within.bind (grows_modifyNode k fun _ => le_rfl) fun _ => ?_
  refine Within.bind ((within_nodeAt k).bind fun n => ?_) fun _ => within_pure _
  split
  · exact grows_startOnEmptyQueueCaught k hcb
  · exact within_pure ()

theorem grows_executeTask (t : Task Data) : Within StolenGrows (executeTask k t : PoolM Data Response Unit) := by
  refine Within.bind ?_ fun _ => (within_nodeAt k).bind fun n => ?_
  · refine (within_nodeAt k).bind fun _ => within_get.bind fun p => grows_modifyNode k fun n => ?_
    obtain ⟨u, hu⟩ := beforeTaskExecution_eq p.taskStatisticsRequirements p.now t n
    rw [hu]
    exact le_rfl
  · split
    · exact within_throw _
    · refine within_get.bind fun p => ?_
      split
      · exact within_throw _
      · exact grows_modifyNode k fun _ => le_rfl

theorem grows_executeOrEnqueueTask (hcb : CallbacksGrow cb) (t : Task Data) :
    Within StolenGrows (executeOrEnqueueTask cb k t) := by
  refine Within.bind ((within_nodeAt k).bind fun _ => within_get.bind fun _ => within_pure _) fun shall => ?_
  split
  · exact grows_executeTask k t
  · exact grows_enqueueTask k hcb t

theorem grows_dispatchStolenTask (hcb : CallbacksGrow cb) (task : Option (Task Data)) :
    Within StolenGrows (dispatchStolenTask cb k task) := by
  cases task with
  | none => exact within_throw _
  | some t =>
    refine (grows_executeOrEnqueueTask k hcb t).bind fun _ => (within_nodeAt k).bind fun _ => grows_modifyNode k fun n => ?_
    rw [stolen_stealTask]
    exact Nat.le_succ _

theorem grows_stealOnBackPressure (hcb : CallbacksGrow cb) (w source node : Nat) :
    Within StolenGrows (stealOnBackPressure cb w source node k) := by
  refine (within_nodeAt source).bind fun a => ?_
  split
  · refine (within_nodeAt node).bind fun n => within_get.bind fun p => ?_
    split
    · exact (grows_popTask source hcb).bind fun task => grows_dispatchStolenTask k hcb task
    · exact within_pure ()
  · exact within_pure ()

/-- The pool's callbacks count stolen tasks for good, however deep they nest. -/
theorem callbacks_grow (fuel : Nat) : CallbacksGrow (callbacks fuel : Callbacks Data Response) := by
  induction fuel with
  | zero => exact ⟨fun _ _ => wp_diverge, fun _ _ => wp_diverge⟩
  | succ fuel ih =>
    constructor
    · intro w
      refine within_get.bind fun p => ?_
      split
      · exact within_pure ()
      · rename_i source _
        exact (grows_popTask source ih).bind fun task => grows_dispatchStolenTask _ ih task
    · intro w
      refine within_get.bind fun p => ?_
      split
      · exact within_pure ()
      · exact .forEach (fun a : (WorkerNode Data × Nat) × Nat => grows_stealOnBackPressure a.2 ih w _ a.1.2) _

end Grows

/-! ## The passes of the loop -/

/-- The copy of the nodes, with their keys, that the loop goes through. -/
def Pool.shortestFirst (p : Pool Data Response) : List (WorkerNode Data × Nat) :=
  p.workerNodes.zipIdx.insertionSort fun a b => a.1.tasksQueue.length ≤ b.1.tasksQueue.length

/-- At each position of `l` at which a task is taken, the node with that key may take one. A task is taken while
`left` are left, if the node at the position is ready, another worker's, and its queue is short, with the tasks put on it
since; the nodes with the keys `filled` have had one put on their queue. -/
def positionsMatch (p : Pool Data Response) (workerId : Nat) :
    List ((WorkerNode Data × Nat) × Nat) → Nat → List Nat → Bool
  | [], _, _ => true
  | ((n, key), position) :: l, left, filled =>
    if 0 < left && n.info.ready && n.info.id ≠ workerId && p.belowSize (n.tasksQueue.length + filled.count key) then
      match p.workerNodes[position]? with
      | none => false
      | some m => p.mayTake workerId m &&
          positionsMatch p workerId l (left - 1) (if p.shallExecute m then filled else position :: filled)
    else positionsMatch p workerId l left filled

/-- Whether positions in the sorted copy are as good as keys where the loop takes tasks from the node `a` of the worker. -/
def Pool.keysMatch (p : Pool Data Response) (workerId : Nat) (a : WorkerNode Data) : Bool :=
  positionsMatch p workerId p.shortestFirst.zipIdx a.tasksQueue.length []

/-- The loop has come from `p` to `s`, and to the position `i`. -/
structure Passed (p : Pool Data Response) (workerId i left : Nat) (filled : List Nat) (s : Pool Data Response) : Prop where
  steals : ReflTransGen (StealsFor workerId) p s
  source : ∃ a, s.workerNodes[p.getWorkerNodeKeyByWorkerId workerId]? = some a ∧ a.tasksQueue.length = left
  filled : ∀ (k : Nat) n n', k ≠ p.getWorkerNodeKeyByWorkerId workerId → p.workerNodes[k]? = some n →
    s.workerNodes[k]? = some n' → n'.tasksQueue.length = n.tasksQueue.length + filled.count k
  ahead : ∀ k, i ≤ k → k ≠ p.getWorkerNodeKeyByWorkerId workerId → s.workerNodes[k]? = p.workerNodes[k]?

section Passes
variable {p s : Pool Data Response} {cb : Callbacks Data Response} {w source i k left : Nat} {filled : List Nat}
  {a n m : WorkerNode Data} {t : Task Data}

/-- The condition of a pass fails. -/
theorem stealOnBackPressure_idle (ha : s.workerNodes[source]? = some a) (hn : s.workerNodes[k]? = some n)
    (hidle : (decide (0 < a.tasksQueue.length) && s.mayTake w n) = false) :
    stealOnBackPressure cb w source k i s = some (.ok (), s) := by
  unfold stealOnBackPressure
  rw [nodeAt_bind ha]
  by_cases hne : a.tasksQueue.length > 0
  · rw [if_pos hne, nodeAt_bind hn, get_bind]
    simp only [hne, decide_true, Bool.true_and, Pool.mayTake, Pool.belowSize] at hidle
    rw [hidle]
    rfl
  · rw [if_neg hne]
    rfl

/-- The condition of a pass holds: the last task of the source goes to the node whose key is the position. -/
theorem stealOnBackPressure_takes (cb : Callbacks Data Response) (i : Nat) (ha : s.workerNodes[source]? = some a)
    (hoff : a.onEmptyQueue = false) (hn : s.workerNodes[k]? = some n) (hmay : s.mayTake w n = true)
    (ht : a.tasksQueue.getLast? = some t) :
    stealOnBackPressure cb w source k i s = dispatchStolenTask cb i (some t) (s.takeLast source) := by
  have hne : a.tasksQueue.length > 0 := by
    rw [gt_iff_lt, List.length_pos_iff]
    rintro hnil
    rw [hnil] at ht
    cases ht
  unfold stealOnBackPressure
  rw [nodeAt_bind ha, if_pos hne, nodeAt_bind hn, get_bind]
  simp only [Pool.mayTake, Pool.belowSize] at hmay
  rw [hmay, if_pos rfl, bind_ok (popTask_plain ha hoff), ht]
  rfl

/-- A stolen task is placed, and causes no back pressure. -/
theorem dispatchStolenTask_quiet (hl : Live s) (hn : s.workerNodes[k]? = some n)
    (hquiet : n.onBackPressure = false ∨ { n with tasksQueue := n.tasksQueue ++ [t] }.hasBackPressure = false) :
    dispatchStolenTask cb k (some t) s = some (.ok (), s.placeStolen k t) := by
  have hsend := hl.canSend (List.mem_of_getElem? hn) t
  have hn' := Pool.getElem?_modifyNode_self (s.acceptTask t) hn
  have haccept : (s.modifyNode k fun _ => s.acceptTask t n) = s.modifyNode k (s.acceptTask t) :=
    Pool.modifyNode_congr hn rfl
  unfold dispatchStolenTask
  dsimp only
  rw [bind_ok (executeOrEnqueueTask_quiet hn hquiet fun _ => hsend), haccept]
  unfold updateTaskStolenStatisticsWorkerUsage
  rw [nodeAt_bind hn']
  rfl

/-- A task that has been stolen is counted at the key it is dispatched to. -/
theorem dispatchStolenTask_counted (fuel : Nat) (t : Task Data) (hn : s.workerNodes[k]? = some n) :
    wp (dispatchStolenTask (callbacks fuel) k (some t))
      (fun _ s' => ∃ n', s'.workerNodes[k]? = some n' ∧ n.usage.tasks.stolen + 1 ≤ n'.usage.tasks.stolen)
      (fun _ _ => True) s := by
  simp only [dispatchStolenTask, wp_bind]
  refine wp_mono (grows_executeOrEnqueueTask k (callbacks_grow fuel) t s) (fun _ s' h => ?_) fun _ _ _ => trivial
  obtain ⟨n', hn', hle⟩ := h k n hn
  simp only [updateTaskStolenStatisticsWorkerUsage, wp_bind, wp_nodeAt hn', wp_modifyNode]
  refine ⟨_, Pool.getElem?_modifyNode_self _ hn', ?_⟩
  rw [stolen_stealTask]
  omega

theorem ne_key_of_mayTake (hm : p.workerNodes[i]? = some m) (hmay : p.mayTake w m = true) :
    i ≠ p.getWorkerNodeKeyByWorkerId w := by
  rintro rfl
  have hid : m.info.id = w := Pool.id_of_key hm
  simp [Pool.mayTake, hid] at hmay

/-- One more task on the queue of a node that may take it causes no back pressure. -/
theorem calm_of_mayTake (t : Task Data) (hsize : ∀ z, p.queueSize = some z → m.tasksQueueBackPressureSize = some z)
    (hmay : p.mayTake w m = true) : { m with tasksQueue := m.tasksQueue ++ [t] }.hasBackPressure = false := by
  simp only [Pool.mayTake, Pool.belowSize, Bool.and_eq_true, Option.any_eq_true, decide_eq_true_eq] at hmay
  obtain ⟨-, z, hz, hlt⟩ := hmay
  rw [hasBackPressure, hsize z hz, Option.any_some, decide_eq_false_iff_not, List.length_append, List.length_singleton]
  omega

/-- The condition of a pass, in the pool the loop has come to, as the initial pool shows it. -/
theorem Passed.condition (h : Passed p w i left filled s) (hn : p.workerNodes[k]? = some n) {n' : WorkerNode Data}
    (hn' : s.workerNodes[k]? = some n') :
    s.mayTake w n' = (n.info.ready && n.info.id ≠ w && p.belowSize (n.tasksQueue.length + filled.count k)) := by
  have hframe := frame_of_steals h.steals
  have hinfo := (hframe.setup k n n' hn hn').info
  rw [mayTake_frame hframe, Pool.mayTake, hinfo]
  by_cases hk : k = p.getWorkerNodeKeyByWorkerId w
  · have hid : n.info.id = w := Pool.id_of_key (hk ▸ hn)
    simp [hid]
  · rw [h.filled k n n' hk hn hn']

/-- A pass that takes nothing. -/
theorem Passed.skip (h : Passed p w i left filled s) : Passed p w (i + 1) left filled s :=
  ⟨h.steals, h.source, h.filled, fun k hk => h.ahead k (by omega)⟩

/-- A pass that gives the last task of the source to the node whose key is the position. -/
theorem Passed.steal (h : Passed p w i left filled s) (ha : s.workerNodes[p.getWorkerNodeKeyByWorkerId w]? = some a)
    (ht : a.tasksQueue.getLast? = some t) (hm : p.workerNodes[i]? = some m) (hmay : p.mayTake w m = true) :
    Passed p w (i + 1) (left - 1) (if p.shallExecute m then filled else i :: filled)
      (s.stealTo (p.getWorkerNodeKeyByWorkerId w) i t) := by
  have hframe := frame_of_steals h.steals
  have hkey := hframe.key_eq w
  have hi : i ≠ p.getWorkerNodeKeyByWorkerId w := ne_key_of_mayTake hm hmay
  have hms : s.workerNodes[i]? = some m := (h.ahead i le_rfl hi).trans hm
  -- the node has been given no task before
  have hcount : filled.count i = 0 := by
    have := h.filled i m m hi hm hms
    omega
  have hother (k : Nat) (hk : k ≠ p.getWorkerNodeKeyByWorkerId w) (hki : i ≠ k) :
      (s.stealTo (p.getWorkerNodeKeyByWorkerId w) i t).workerNodes[k]? = s.workerNodes[k]? := by
    rw [Pool.stealTo, Pool.placeStolen_ne t hki, Pool.takeLast_ne (Ne.symm hk)]
  refine ⟨?_, ?_, fun k n n' hk hn hn' => ?_, fun k hk hne => ?_⟩
  · rw [← hkey] at ha ⊢
    exact h.steals.tail (.steal ha ht hms (by rwa [mayTake_frame hframe]))
  · obtain ⟨a', ha', hleft⟩ := h.source
    rw [ha] at ha'
    cases ha'
    refine ⟨{ a with tasksQueue := a.tasksQueue.dropLast }, ?_, ?_⟩
    · rw [Pool.stealTo, Pool.placeStolen_ne t hi]
      exact Pool.takeLast_self ha
    · rw [List.length_dropLast, hleft]
  · by_cases hki : i = k
    · subst hki
      rw [hm] at hn
      cases hn
      rw [Pool.stealTo, Pool.getElem?_placeStolen, Pool.takeLast_ne (Ne.symm hi), hms, Option.map_some,
        if_pos rfl, Option.some.injEq] at hn'
      have hshall : (s.takeLast (p.getWorkerNodeKeyByWorkerId w)).shallExecute m = p.shallExecute m := by
        show s.shallExecute m = p.shallExecute m
        unfold Pool.shallExecute Pool.belowConcurrency
        rw [hframe.concurrency]
      rw [← hn', tasksQueue_stealTask, length_acceptTask, hshall]
      split
      · omega
      · rw [List.count_cons_self]
        omega
    · rw [hother k hk hki] at hn'
      have hcons : (if p.shallExecute m then filled else i :: filled).count k = filled.count k := by
        split
        · rfl
        · exact List.count_cons_of_ne hki
      rw [h.filled k n n' hk hn hn', hcons]
  · have hki : i ≠ k := by omega
    rw [hother k hne hki]
    exact h.ahead k (by omega) hne

/-- A task that goes to a node that may not take it is counted as stolen there for good. -/
theorem Passed.not_steals {fuel : Nat} {s₁ : Pool Data Response} {body : PoolM Data Response Unit}
    {rest : Unit → PoolM Data Response Unit} (h : Passed p w i left filled s) (hm : p.workerNodes[i]? = some m)
    (hmay : p.mayTake w m = false) (hgrows : StolenGrows s s₁)
    (hbody : body s = dispatchStolenTask (callbacks fuel) i (some t) s₁) (hrest : ∀ u, Within StolenGrows (rest u)) :
    ¬ Returns (body >>= rest) (fun _ s' => ReflTransGen (StealsFor w) p s') s := by
  rintro ⟨_, s', hrun, hsteals⟩
  obtain ⟨m₀, hm₀, hstolen⟩ := steals_unfit h.steals hm hmay
  obtain ⟨m₁, hm₁, hle⟩ := hgrows i m₀ hm₀
  have hcounted : wp (body >>= rest)
      (fun _ s' => ∃ n', s'.workerNodes[i]? = some n' ∧ m₁.usage.tasks.stolen + 1 ≤ n'.usage.tasks.stolen)
      (fun _ _ => True) s := by
    rw [wp_bind, wp_congr hbody]
    refine wp_mono (dispatchStolenTask_counted fuel t hm₁) (fun u s₂ hs₂ => ?_) fun _ _ _ => trivial
    obtain ⟨m₂, hm₂, hle₂⟩ := hs₂
    refine wp_mono (hrest u s₂) (fun _ s₃ hs₃ => ?_) fun _ _ _ => trivial
    obtain ⟨m₃, hm₃, hle₃⟩ := hs₃ i m₂ hm₂
    exact ⟨m₃, hm₃, hle₂.trans hle₃⟩
  obtain ⟨m', hm', hle'⟩ := wp_ok hcounted hrun
  obtain ⟨m'', hm'', hstolen'⟩ := steals_unfit hsteals hm hmay
  rw [hm'] at hm''
  cases hm''
  omega

/-- No task is taken where the size is too small to leave room. -/
theorem positionsMatch_of_small (hsize : ∀ length, p.belowSize length = false) (l : List ((WorkerNode Data × Nat) × Nat))
    (left : Nat) (filled : List Nat) : positionsMatch p w l left filled = true := by
  induction l with
  | nil => rfl
  | cons x l ih =>
    obtain ⟨⟨n, key⟩, position⟩ := x
    rw [positionsMatch, hsize, Bool.and_false]
    exact ih

end Passes

/-! ## What the loop does -/

section Loop
variable {p s : Pool Data Response} {w i left fuel : Nat} {filled : List Nat}

/-- The passes that are left give all tasks to nodes that may take them just when the positions match. -/
theorem passes_iff (hl : Live p) (hempty : ∀ n ∈ p.workerNodes, n.onEmptyQueue = false)
    (hsize : ∀ n ∈ p.workerNodes, ∀ z, p.queueSize = some z → n.tasksQueueBackPressureSize = some z)
    (l : List (WorkerNode Data × Nat)) (hkeys : ∀ x ∈ l, p.workerNodes[x.2]? = some x.1)
    (hlength : i + l.length ≤ p.workerNodes.length) (h : Passed p w i left filled s) :
    Returns (Eff.forEach (fun x : (WorkerNode Data × Nat) × Nat =>
        stealOnBackPressure (callbacks fuel) w (p.getWorkerNodeKeyByWorkerId w) x.1.2 x.2) (l.zipIdx i))
      (fun _ s' => ReflTransGen (StealsFor w) p s') s ↔ positionsMatch p w (l.zipIdx i) left filled = true := by
  induction l generalizing i left filled s with
  | nil =>
    simp only [List.zipIdx_nil, Eff.forEach, returns_pure, positionsMatch, iff_true]
    exact h.steals
  | cons x l ih =>
    obtain ⟨n, k⟩ := x
    rw [List.length_cons] at hlength
    have hframe := frame_of_steals h.steals
    have hn : p.workerNodes[k]? = some n := hkeys (n, k) List.mem_cons_self
    obtain ⟨n', hn'⟩ := Pool.node_of_length hframe.length hn
    obtain ⟨a, ha, hleft⟩ := h.source
    obtain ⟨a₀, ha₀, hsetup⟩ := hframe.node ha
    obtain ⟨m, hm⟩ := Pool.node_of_lt (by omega : i < p.workerNodes.length)
    have hkeys' : ∀ y ∈ l, p.workerNodes[y.2]? = some y.1 := fun y hy => hkeys y (List.mem_cons_of_mem _ hy)
    have hlength' : i + 1 + l.length ≤ p.workerNodes.length := by omega
    rw [List.zipIdx_cons, Eff.forEach, positionsMatch, hm, Bool.and_assoc, Bool.and_assoc, ← Bool.and_assoc _ _ (p.belowSize _),
      ← h.condition hn hn']
    rcases htakes : decide (0 < left) && s.mayTake w n' with _ | _
    · rw [returns_bind, returns_of_ok (stealOnBackPressure_idle ha hn' (by rwa [hleft]))]
      exact ih hkeys' hlength' h.skip
    · simp only [Bool.and_eq_true, decide_eq_true_eq] at htakes
      obtain ⟨hpos, hmay'⟩ := htakes
      have hne : a.tasksQueue ≠ [] := List.ne_nil_of_length_pos (hleft ▸ hpos)
      have ht := List.getLast?_eq_some_getLast hne
      have hoff : a.onEmptyQueue = false := hsetup.onEmptyQueue.trans (hempty a₀ (List.mem_of_getElem? ha₀))
      have hbody := stealOnBackPressure_takes (callbacks fuel) i ha hoff hn' hmay' ht
      simp only [if_true]
      rcases hmay : p.mayTake w m with _ | _
      · -- the task goes to a node that may not take it, and is counted there
        simp only [Bool.false_and, Bool.false_eq_true, iff_false]
        have hgrows : StolenGrows s (s.takeLast (p.getWorkerNodeKeyByWorkerId w)) :=
          stolenGrows_modifyNode s _ fun _ => le_rfl
        refine h.not_steals hm hmay hgrows hbody fun _ => .forEach (fun y => ?_) _
        exact grows_stealOnBackPressure y.2 (callbacks_grow fuel) w _ y.1.2
      · have hi : i ≠ p.getWorkerNodeKeyByWorkerId w := ne_key_of_mayTake hm hmay
        have hms : (s.takeLast (p.getWorkerNodeKeyByWorkerId w)).workerNodes[i]? = some m := by
          rw [Pool.takeLast_ne (Ne.symm hi), h.ahead i le_rfl hi, hm]
        have hquiet := calm_of_mayTake (a.tasksQueue.getLast hne) (hsize m (List.mem_of_getElem? hm)) hmay
        have hlive := (frame_takeLast s (p.getWorkerNodeKeyByWorkerId w)).live (hframe.live hl)
        rw [returns_bind, returns_of_ok (hbody.trans (dispatchStolenTask_quiet hlive hms (.inr hquiet))), Bool.true_and]
        exact ih hkeys' hlength' (h.steal ha ht hm hmay)

theorem passed_start {a : WorkerNode Data} (ha : p.workerNodes[p.getWorkerNodeKeyByWorkerId w]? = some a) :
    Passed p w 0 a.tasksQueue.length [] p where
  steals := .refl
  source := ⟨a, ha, rfl⟩
  filled k n n' _ hn hn' := by
    rw [hn] at hn'
    cases hn'
    simp
  ahead _ _ _ := rfl

/-- The whole call is one chain of steals just when the positions match. -/
theorem tasksStealingOnBackPressure_iff {a : WorkerNode Data} (hl : Live p)
    (ha : p.workerNodes[p.getWorkerNodeKeyByWorkerId w]? = some a) (hempty : ∀ n ∈ p.workerNodes, n.onEmptyQueue = false)
    (hsize : ∀ n ∈ p.workerNodes, ∀ z, p.queueSize = some z → n.tasksQueueBackPressureSize = some z) (fuel : Nat) :
    Returns (tasksStealingOnBackPressure (callbacks fuel) w) (fun _ s' => ReflTransGen (StealsFor w) p s') p ↔
      p.keysMatch w a = true := by
  unfold tasksStealingOnBackPressure
  rw [returns_bind, returns_get]
  split
  · rename_i hsmall
    have hnone (length : Nat) : p.belowSize length = false := by
      unfold Pool.belowSize
      rcases hz : p.queueSize with _ | z
      · rfl
      · rw [hz, Option.any_some, decide_eq_true_eq] at hsmall
        rw [Option.any_some, decide_eq_false_iff_not]
        omega
    rw [returns_pure, Pool.keysMatch, positionsMatch_of_small hnone]
    exact iff_of_true .refl rfl
  · refine passes_iff hl hempty hsize p.shortestFirst (fun x hx => ?_) ?_ (passed_start ha)
    · rw [Pool.shortestFirst, List.mem_insertionSort, List.mem_zipIdx_iff_getElem?] at hx
      exact hx
    · rw [Pool.shortestFirst, List.length_insertionSort, List.length_zipIdx, Nat.zero_add]

/-- Every task that the call takes goes to a ready node of another worker with a short queue, which counts it as
stolen, and no other node comes under back pressure, if and only if each position of the sorted copy at which a
task is taken is the key of a node that may take one. -/
theorem stolen_rightly_iff {a : WorkerNode Data} (hl : Live p)
    (ha : p.workerNodes[p.getWorkerNodeKeyByWorkerId w]? = some a) (hempty : ∀ n ∈ p.workerNodes, n.onEmptyQueue = false)
    (hsize : ∀ n ∈ p.workerNodes, ∀ z, p.queueSize = some z → n.tasksQueueBackPressureSize = some z) (fuel : Nat) :
    Returns (tasksStealingOnBackPressure (callbacks fuel) w) (fun _ s' => StolenRightly w p s') p ↔ p.keysMatch w a = true := by
  rw [← tasksStealingOnBackPressure_iff hl ha hempty hsize fuel]
  constructor
  · intro hret
    exact hret.mono fun _ s' h => h.steals
  · intro hret
    refine hret.mono fun _ s' h => ⟨h, fun k n n' hn hn' hid => steals_calm h hsize hn hn' hid⟩

end Loop

/-! ## Nodes that are in order, and nodes that are not -/

theorem positionsMatch_of_zipIdx {p : Pool Data Response} {w : Nat} (l : List (WorkerNode Data)) {i left : Nat}
    {filled : List Nat} (hl : ∀ j : Nat, l[j]? = p.workerNodes[i + j]?) : positionsMatch p w ((l.zipIdx i).zipIdx i) left filled = true := by
  induction l generalizing i left filled with
  | nil => rfl
  | cons n l ih =>
    have hn : p.workerNodes[i]? = some n := (hl 0).symm
    have hrest (j : Nat) : l[j]? = p.workerNodes[i + 1 + j]? := by
      rw [Nat.add_assoc, Nat.add_comm 1 j]
      exact hl (j + 1)
    rw [List.zipIdx_cons, List.zipIdx_cons, positionsMatch, hn]
    split
    · -- the node that is tested is the one that is given the task
      rename_i htakes
      simp only [Pool.belowSize, Bool.and_eq_true, decide_eq_true_eq, Option.any_eq_true] at htakes
      obtain ⟨⟨⟨-, hready⟩, hid⟩, z, hz, hlt⟩ := htakes
      have hmay : p.mayTake w n = true := by
        simp only [Pool.mayTake, Pool.belowSize, hready, hid, hz, Option.any_some, Bool.true_and, decide_true, ne_eq,
          not_false_eq_true, decide_eq_true_eq]
        omega
      simp only [hmay, Bool.true_and]
      exact ih hrest
    · exact ih hrest

/-- Where the nodes are in the order of their queues, positions are keys. -/
theorem keysMatch_of_sorted {p : Pool Data Response} {w : Nat}
    (hsorted : p.workerNodes.Pairwise fun m n => m.tasksQueue.length ≤ n.tasksQueue.length) (a : WorkerNode Data) :
    p.keysMatch w a = true := by
  have hcopy : p.shortestFirst = p.workerNodes.zipIdx := by
    refine List.Pairwise.insertionSort_eq ?_
    rw [← List.zipIdx_map_fst 0 p.workerNodes, List.pairwise_map] at hsorted
    exact hsorted
  rw [Pool.keysMatch, hcopy]
  exact positionsMatch_of_zipIdx p.workerNodes fun j => by rw [Nat.zero_add]

/-- Two nodes, in order, are given a task each by a third. -/
def orderedPool : Pool Unit Unit := busyPool 3 false [[], [10], [20, 21, 22]]

theorem stolen_rightly_iff_ordered : ∃ a, orderedPool.workerNodes[2]? = some a ∧ a.hasBackPressure = true ∧
    Returns (tasksStealingOnBackPressure (callbacks 1) 2) (fun _ s' => StolenRightly 2 orderedPool s') orderedPool := by
  have hsize : ∀ n ∈ orderedPool.workerNodes, n.tasksQueueBackPressureSize = orderedPool.queueSize := by decide +kernel
  refine ⟨_, rfl, rfl, (stolen_rightly_iff ⟨by decide +kernel, fun _ => rfl⟩ rfl (by decide +kernel) ?_ 1).2 ?_⟩
  · exact fun n hn z hz => (hsize n hn).trans hz
  · exact keysMatch_of_sorted (by decide +kernel) _

/-- The third node passes the test, but the task goes to the second, which comes under back pressure. -/
theorem stolen_by_untested_node : ¬ ∀ (p : Pool Unit Unit) (w : Nat) (a : WorkerNode Unit), Live p →
    p.workerNodes[p.getWorkerNodeKeyByWorkerId w]? = some a → a.hasBackPressure = true →
    (∀ n ∈ p.workerNodes, n.onEmptyQueue = false) →
    (∀ n ∈ p.workerNodes, ∀ z, p.queueSize = some z → n.tasksQueueBackPressureSize = some z) →
    ∃ fuel, Returns (tasksStealingOnBackPressure (callbacks fuel) w) (fun _ s' => StolenRightly w p s') p := by
  intro hall
  have hempty : ∀ n ∈ (crowdedPool false).workerNodes, n.onEmptyQueue = false := by decide +kernel
  have hsize : ∀ n ∈ (crowdedPool false).workerNodes, n.tasksQueueBackPressureSize = (crowdedPool false).queueSize := by
    decide +kernel
  have hsize' : ∀ n ∈ (crowdedPool false).workerNodes, ∀ z, (crowdedPool false).queueSize = some z →
      n.tasksQueueBackPressureSize = some z := fun n hn z hz => (hsize n hn).trans hz
  obtain ⟨fuel, hret⟩ := hall (crowdedPool false) 3 _ (live_crowdedPool false) rfl rfl hempty hsize'
  have hmatch := (tasksStealingOnBackPressure_iff (live_crowdedPool false) rfl hempty hsize' fuel).1
    (hret.mono fun _ s' h => h.steals)
  exact absurd hmatch (by decide +kernel)

end Poolifier
