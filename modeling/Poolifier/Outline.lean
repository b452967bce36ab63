import Poolifier.Effects
import Poolifier.Lib.OrderedMap
/-!
# The outline of a pool

Who is in a pool, how each node is set up, and the options and flags: what is
left of a pool without its tasks, messages and statistics. The code of an event
changes the outline in one way, or leaves it alone (`Outlined`), whatever the
rest of the pool is. The sizes of a pool and the callbacks of its nodes are
facts about outlines.
-/

namespace Poolifier

open EffLib RunLib WorkerNode

variable {Data Response : Type}

structure NodeOutline where
  id : Nat
  dynamic : Bool
  onEmptyQueue : Bool
  onBackPressure : Bool
  tasksQueueBackPressureSize : Option Nat

/-- A node without the stealing callbacks. -/
def NodeOutline.unset (n : NodeOutline) : NodeOutline := { n with onEmptyQueue := false, onBackPressure := false }

/-- A node set up as the options say. -/
def NodeOutline.configure (q : TasksQueueOptions) (n : NodeOutline) : NodeOutline :=
  { n with
    onEmptyQueue := q.taskStealing
    onBackPressure := q.tasksStealingOnBackPressure
    tasksQueueBackPressureSize := q.size }

structure Outline where
  type : PoolType
  numberOfWorkers : Nat
  max : Option Nat
  opts : PoolOptions
  started : Bool
  starting : Bool
  nextWorkerId : Nat
  nodes : List NodeOutline

def WorkerNode.outline (n : WorkerNode Data) : NodeOutline :=
  ⟨n.info.id, n.info.dynamic, n.onEmptyQueue, n.onBackPressure, n.tasksQueueBackPressureSize⟩

def Pool.outline (p : Pool Data Response) : Outline where
  type := p.type
  numberOfWorkers := p.numberOfWorkers
  max := p.max
  opts := p.opts
  started := p.started
  starting := p.starting
  nextWorkerId := p.nextWorkerId
  nodes := p.workerNodes.map WorkerNode.outline

/-! ## Changes of an outline -/

namespace Outline

def maxSize (o : Outline) : Nat := o.max.getD o.numberOfWorkers

def newNodeSize (o : Outline) : Nat := (o.opts.tasksQueueOptions.bind (·.size)).getD (o.maxSize ^ 2)

def CanCreate (o : Outline) : Prop := 0 < o.newNodeSize ∧ o.newNodeSize < 2 ^ 53

instance (o : Outline) : Decidable o.CanCreate := inferInstanceAs (Decidable (_ ∧ _))

/-- The number of nodes that are not dynamic. -/
def statics (o : Outline) : Nat := o.nodes.countP fun n => !n.dynamic

def newNode (o : Outline) (dynamic : Bool) : NodeOutline where
  id := o.nextWorkerId
  dynamic := dynamic
  onEmptyQueue := o.opts.enableTasksQueue && o.opts.tasksQueueOptions.any (·.taskStealing)
  onBackPressure := o.opts.enableTasksQueue && o.opts.tasksQueueOptions.any (·.tasksStealingOnBackPressure)
  tasksQueueBackPressureSize := some o.newNodeSize

def join (dynamic : Bool) (o : Outline) : Outline :=
  { o with nodes := o.nodes ++ [o.newNode dynamic], nextWorkerId := o.nextWorkerId + 1 }

def leave (workerId : Nat) (o : Outline) : Outline := { o with nodes := o.nodes.eraseP (·.id = workerId) }

/-- Whether the `error` listener creates a worker in place of the errored one. -/
def restarts (o : Outline) : Bool := o.started && !o.starting && o.opts.restartWorkerOnError

def error (workerId : Nat) (o : Outline) : Outline :=
  match o.nodes.find? (·.id = workerId) with
  | none => o
  | some n => if o.restarts = true ∧ o.CanCreate then o.join n.dynamic else o

theorem error_none {o : Outline} {w : Nat} (h : o.nodes.find? (·.id = w) = none) : o.error w = o := by
  unfold error
  rw [h]

theorem error_some {o : Outline} {w : Nat} {n : NodeOutline} (h : o.nodes.find? (·.id = w) = some n) :
    o.error w = if o.restarts = true ∧ o.CanCreate then o.join n.dynamic else o := by
  unfold error
  rw [h]

/-- Nodes that are not dynamic join, as many as are missing. -/
def fill (o : Outline) : Outline := (join false)^[o.numberOfWorkers - o.statics] o

/-- A start that cannot create a node it needs throws, and leaves its flag set. -/
def start (o : Outline) : Outline :=
  if o.numberOfWorkers ≤ o.statics ∨ o.CanCreate then { o.fill with starting := false, started := true }
  else { o with starting := true }

def unset (o : Outline) : Outline := { o with nodes := o.nodes.map NodeOutline.unset }

def setTasksQueueOptions (a : TasksQueueOptionsArgument) (o : Outline) : Outline :=
  if o.opts.enableTasksQueue then
    match checkValidTasksQueueOptions a with
    | .error _ => o
    | .ok () =>
      let q := buildTasksQueueOptions o.maxSize a
      { o with opts.tasksQueueOptions := some q, nodes := o.nodes.map (NodeOutline.configure q) }
  else { o with opts.tasksQueueOptions := none }

def enableTasksQueue (enable : Bool) (a : TasksQueueOptionsArgument) (o : Outline) : Outline :=
  let o := if o.opts.enableTasksQueue && !enable then o.unset else o
  { o with opts.enableTasksQueue := enable }.setTasksQueueOptions a

end Outline

/-- What the code of an event does to the outline of a pool. -/
inductive Outlined (o : Outline) : Event Data Response → Outline → Prop
  | execute {taskId name data choice} : Outlined o (.execute taskId name data choice) o
  | executeJoins {taskId name data choice} : o.started = true → o.type = .dynamic → o.nodes.length < o.maxSize →
      o.CanCreate → Outlined o (.execute taskId name data choice) (o.join true)
  | message {w m} : Outlined o (.message w m) o
  | poll {w} : Outlined o (.poll w) o
  | error {w} : Outlined o (.error w) (o.error w)
  | exit {w} : Outlined o (.exit w) (o.leave w)
  | start : Outlined o .start o.start
  | enableTasksQueue {enable a} : Outlined o (.enableTasksQueue enable a) (o.enableTasksQueue enable a)
  /-- A task of a queue that is flushed cannot be sent. -/
  | flushThrows {a} : o.opts.enableTasksQueue = true → Outlined o (.enableTasksQueue false a) o.unset
  | setTasksQueueOptions {a} : Outlined o (.setTasksQueueOptions a) (o.setTasksQueueOptions a)
  | destroy : Outlined o .destroy o
  | destroyed : Outlined o .destroyed { o with started := false }

/-! ## Code that leaves the outline alone -/

/-- What is asked of a relation that the code stays within which handles messages, polling ticks and destructions:
tasks move, and nothing changes on a node or in the pool that its outline shows. -/
structure Covers (R : Pool Data Response → Pool Data Response → Prop) : Prop where
  frame : ∀ {p p'}, Frame p p' → R p p'
  node : ∀ p k {f : WorkerNode Data → WorkerNode Data}, (∀ n, (f n).outline = n.outline) → R p (p.modifyNode k f)
  rest : ∀ {p p' : Pool Data Response}, p' = { p with
    promiseResponseMap := p'.promiseResponseMap, settled := p'.settled, removedNodes := p'.removedNodes,
    errorsCaught := p'.errorsCaught, destroying := p'.destroying } → R p p'

theorem moves_executeNextTask {cb : Callbacks Data Response} (hcb : CallbacksMove cb) (k : Nat) :
    Moves (executeNextTask cb k) := by
  intro s
  rcases hn : s.workerNodes[k]? with _ | n
  · simp only [executeNextTask, wp_bind, wp_get]
    split
    · simp only [wp_bind, wp_nodeAt_none hn]
      exact ⟨0, .refl s 0⟩
    · exact (wp_pure ()).2 (.refl s 0)
  · exact moves_of_reached (executeNextTask_moves hcb (.refl s 0) (Pool.lt_of_node hn))

section Covers
variable {R : Pool Data Response → Pool Data Response → Prop} {cb : Callbacks Data Response}

theorem Moves.within {α : Type} {m : PoolM Data Response α} (h : Moves m) (hR : Covers R) : Within R m := by
  intro s
  refine wp_mono (h s) (fun _ _ hr => hR.frame hr.frame) fun _ s' hr => ?_
  obtain ⟨lost, hr⟩ := hr
  exact hR.frame hr.frame

namespace Covers

theorem modifyNode (hR : Covers R) (k : Nat) {f : WorkerNode Data → WorkerNode Data} (hf : ∀ n, (f n).outline = n.outline) :
    Within R (modifyNode k f : PoolM Data Response Unit) :=
  within_modify fun p => hR.node p k hf

theorem settle (hR : Covers R) (taskId : Nat) (r : Settlement Response) (p : Pool Data Response) :
    R p (p.settle taskId r) := by
  apply hR.rest
  rw [Pool.settle_rest]

variable [IsPreorder (Pool Data Response) R]

theorem destroyWorkerNodeCaught (hR : Covers R) (hcb : CallbacksMove cb) (fuel k : Nat) (reason : DestroyReason) :
    Within R (destroyWorkerNodeCaught cb fuel k reason) := by
  refine Within.swallow ?_ fun _ => hR.rest rfl
  refine ((moves_flushTasksQueue hcb fuel k).within hR).bind fun _ => (within_nodeAt k).bind fun n => ?_
  split
  · exact hR.modifyNode k fun n => rfl
  · exact within_throw _

theorem handleKillRequest (hR : Covers R) (hcb : CallbacksMove cb) (fuel k : Nat) (behavior : KillBehavior) :
    Within R (handleKillRequest cb fuel k behavior) := by
  refine (within_nodeAt k).bind fun n => within_get.bind fun p => ?_
  cases behavior with
  | hard => exact hR.destroyWorkerNodeCaught hcb fuel k _
  | soft =>
    dsimp only
    split
    · exact hR.destroyWorkerNodeCaught hcb fuel k _
    · exact within_pure ()

theorem destroy (hR : Covers R) (hcb : CallbacksMove cb) (fuel : Nat) : Within R (destroy cb fuel) := by
  have hflag : Within R (Eff.modify fun p => { p with destroying := true } : PoolM Data Response Unit) :=
    within_modify fun p => hR.rest rfl
  refine hflag.bind fun _ => within_get.bind fun p => ?_
  exact .forEach (fun k => hR.destroyWorkerNodeCaught hcb fuel k _) _

theorem handleTaskExecutionResponse (hR : Covers R) (hcb : CallbacksMove cb) (m : TaskResponse Response) :
    Within R (handleTaskExecutionResponse cb m) := by
  refine within_get.bind fun p => ?_
  split
  · exact within_pure ()
  · rename_i k _
    have hhook : Within R (afterTaskExecutionHook k m : PoolM Data Response Unit) := by
      refine (within_nodeAt k).bind fun _ => within_get.bind fun q => hR.modifyNode k fun n => ?_
      obtain ⟨u, hu⟩ := afterTaskExecution_eq q.taskStatisticsRequirements m n
      rw [hu]
      rfl
    refine Within.bind (within_modify (hR.settle m.taskId m.settlement)) fun _ => hhook.bind fun _ => ?_
    refine Within.bind (within_modify fun p => hR.rest rfl) fun _ => ?_
    exact (moves_executeNextTask hcb k).within hR

theorem handleMessage (hR : Covers R) (hcb : CallbacksMove cb) (fuel w : Nat) (message : WorkerMessage Response) :
    Within R (handleMessage cb fuel w message) := by
  intro s
  rcases hn : s.workerNodes[s.getWorkerNodeKeyByWorkerId w]? with _ | n
  · exact wp_message_unknown hn fun _ => refl_of R s
  · refine wp_message hn (fun names _ => ?_) (fun _ _ _ => refl_of R s) (fun names _ => ?_) (fun m _ => ?_)
      (fun behavior _ _ => ?_) (fun _ _ _ => refl_of R s) (fun _ => ?_) fun _ => refl_of R s
    · exact hR.node s _ fun n => rfl
    · exact hR.node s _ fun n => rfl
    · have hanswer : R s (s.modifyNode (s.getWorkerNodeKeyByWorkerId w) (·.answer m.taskId)) := hR.node s _ fun n => rfl
      exact wp_mono (hR.handleTaskExecutionResponse hcb m _) (fun _ _ h => trans_of R hanswer h)
        fun _ _ h => trans_of R hanswer h
    · exact hR.handleKillRequest hcb fuel _ behavior s
    · exact hR.node s _ fun n => rfl

theorem pollingTick (hR : Covers R) (fuel w : Nat) :
    Within R (pollingTick (callbacks fuel) w : PoolM Data Response Unit) := by
  intro s
  by_cases hk : s.getWorkerNodeKeyByWorkerId w < s.workerNodes.length
  · have hid := (s.key_lt_iff w).1 hk
    exact wp_mono (pollingTick_moves (g := False) (callbacks_move fuel) (.refl s 0) hid)
      (fun _ _ hr => hR.frame hr.frame) fun _ _ hf => hf.elim
  · simp only [Poolifier.pollingTick, wp_bind, wp_get, if_neg hk]
    split
    · exact (wp_pure ()).2 (refl_of R s)
    · rename_i i hi
      refine (show Within R (pollingTick.removedNodeTick (callbacks fuel) i w) from ?_) s
      refine within_get.bind fun p => ?_
      split
      · exact within_pure ()
      · split
        · exact within_modify fun p => hR.rest rfl
        · refine Within.bind (within_modify fun p => hR.rest rfl) fun _ => ?_
          split
          · exact ((moves_onEmptyQueue fuel w).within hR).swallow fun p => hR.rest rfl
          · exact within_pure ()

theorem dispatchTask (hR : Covers R) (hcb : CallbacksMove cb) (k : Nat) (t : Task Data) :
    Within R (dispatchTask cb k t) := by
  intro s
  rcases hn : s.workerNodes[k]? with _ | n
  · exact (wp_dispatchTask_unknown hn).2 (refl_of R s)
  · have hr : Reached False (s, {t}) s (t ::ₘ 0) := .refl s {t}
    refine wp_mono (dispatchTask_moves hcb hr (Pool.lt_of_node hn) False.elim) (fun _ _ hr' => hR.frame hr'.frame)
      fun _ s' hf => ?_
    obtain ⟨-, lost, hr'⟩ := hf
    exact hR.frame hr'.frame

end Covers

end Covers

def SameOutline (p p' : Pool Data Response) : Prop := p'.outline = p.outline

instance : IsPreorder (Pool Data Response) SameOutline where
  refl _ := rfl
  trans _ _ _ h h' := Eq.trans h' h

theorem outline_of_sameSetup {n n' : WorkerNode Data} (h : SameSetup n n') : n'.outline = n.outline := by
  unfold WorkerNode.outline
  rw [h.info, h.onEmptyQueue, h.onBackPressure, h.tasksQueueBackPressureSize]

theorem Frame.sameOutline {p p' : Pool Data Response} (h : Frame p p') : SameOutline p p' := by
  have hnodes : p'.workerNodes.map WorkerNode.outline = p.workerNodes.map WorkerNode.outline := by
    refine List.ext_getElem? fun i => ?_
    rw [List.getElem?_map, List.getElem?_map]
    rcases hi : p'.workerNodes[i]? with _ | n'
    · have hnone : p.workerNodes[i]? = none := by
        rw [List.getElem?_eq_none_iff] at hi ⊢
        rw [← h.length]
        exact hi
      rw [hnone]
    · obtain ⟨n, hn, hs⟩ := h.node hi
      rw [hn, Option.map_some, Option.map_some, outline_of_sameSetup hs]
  unfold SameOutline Pool.outline
  rw [hnodes, h.rest]

theorem outline_modifyNode (p : Pool Data Response) (k : Nat) {f : WorkerNode Data → WorkerNode Data}
    (hf : ∀ n, (f n).outline = n.outline) : SameOutline p (p.modifyNode k f) := by
  unfold SameOutline Pool.outline Pool.modifyNode
  rw [map_modify_same fun n _ => hf n]

theorem covers_sameOutline : Covers (SameOutline : Pool Data Response → Pool Data Response → Prop) where
  frame := Frame.sameOutline
  node := outline_modifyNode
  rest h := by
    unfold SameOutline Pool.outline
    rw [h]

/-! ## Code that changes the outline -/

section Change
variable {s : Pool Data Response} {cb : Callbacks Data Response}

theorem outline_of_joined {dynamic : Bool} {p p' : Pool Data Response} (h : Joined dynamic p p') :
    p'.outline = p.outline.join dynamic := by
  obtain ⟨n, hn, hid, hdynamic, hsize, rfl⟩ := h
  have hnode : n.outline = p.outline.newNode dynamic := by
    unfold WorkerNode.outline
    rw [hid, hdynamic, hsize, hn.onEmptyQueue, hn.onBackPressure]
    rfl
  simp only [Pool.outline, Outline.join, List.map_append, List.map_singleton, hnode]

theorem createAndSetup_outline (dynamic : Bool) :
    wp (if dynamic then createAndSetupDynamicWorkerNode else createAndSetupWorkerNode)
      (fun _ s' => s.outline.CanCreate ∧ s'.outline = s.outline.join dynamic)
      (fun _ s' => ¬ s.outline.CanCreate ∧ s'.outline = s.outline) s := by
  cases dynamic with
  | true =>
    exact wp_mono createAndSetupDynamicWorkerNode_joins (fun _ _ h => ⟨h.1, outline_of_joined h.2.2⟩)
      fun _ _ h => ⟨h.1, congrArg _ h.2⟩
  | false =>
    exact wp_mono createAndSetupWorkerNode_joins (fun _ _ h => ⟨h.1, outline_of_joined h.2.2⟩)
      fun _ _ h => ⟨h.1, congrArg _ h.2⟩

/-- A dynamic pool may create a worker before it chooses one. -/
def Pool.MayJoin (s : Pool Data Response) (o : Outline) : Prop :=
  o = s.outline ∨ s.shallCreateDynamicWorker = true ∧ s.outline.CanCreate ∧ o = s.outline.join true

theorem chooseWorkerNode_outline (choice : Choice) :
    wp (chooseWorkerNode choice) (fun _ s' => s.MayJoin s'.outline) (fun _ s' => s.MayJoin s'.outline) s := by
  have hchoose : Within SameOutline (chooseWorkerNode.choose choice : PoolM Data Response Nat) := by
    cases choice with
    | key k => exact within_pure k
    | none r => exact within_throw _
  simp only [chooseWorkerNode, wp_bind, wp_get]
  split
  · rename_i hc
    simp only [wp_bind]
    refine wp_mono (createAndSetup_outline true) (fun k s' hk => ?_) fun _ _ h => .inl h.2
    obtain ⟨hcan, hs'⟩ := hk
    split
    · exact (wp_pure _).2 (.inr ⟨hc, hcan, hs'⟩)
    · exact wp_mono (hchoose s') (fun _ _ h => .inr ⟨hc, hcan, Eq.trans h hs'⟩)
        fun _ _ h => .inr ⟨hc, hcan, Eq.trans h hs'⟩
  · exact wp_mono (hchoose s) (fun _ _ h => .inl h) fun _ _ h => .inl h

theorem Pool.MayJoin.outlined {taskId : Nat} {name : Option String} {data : Data} {choice : Choice} {o : Outline}
    (h : s.MayJoin o) (hst : s.started = true) :
    Outlined s.outline (.execute taskId name data choice : Event Data Response) o := by
  obtain rfl | ⟨hc, hcan, rfl⟩ := h
  · exact .execute
  · simp only [Pool.shallCreateDynamicWorker, Pool.full, Bool.and_eq_true, Bool.not_eq_true', decide_eq_true_eq,
      decide_eq_false_iff_not, not_le] at hc
    refine .executeJoins hst hc.1.1 ?_ hcan
    rw [Pool.outline, List.length_map]
    exact hc.1.2

theorem execute_outlined (fuel taskId : Nat) (name : Option String) (data : Data) (choice : Choice) :
    let Q (s' : Pool Data Response) := Outlined s.outline (.execute taskId name data choice : Event Data Response) s'.outline
    wp (execute (callbacks fuel) taskId name data choice) (fun _ => Q) (fun _ => Q) s := by
  intro Q
  have hsame (s₁ s₂ : Pool Data Response) (h : SameOutline s₁ s₂) (hQ : Q s₁) : Q s₂ := by
    unfold SameOutline at h
    simp only [Q]
    rw [h]
    exact hQ
  have hsettle (e : JsError) (s' : Pool Data Response) : Q s' → Q (s'.settle taskId (.thrown e)) :=
    hsame _ _ (covers_sameOutline.settle taskId _ s')
  -- a pool that is not started, or a wrong task, is refused before a node is chosen
  simp only [execute, wp_bind, wp_modify, wp_rejectOnThrow, executeExecutor, wp_get]
  split
  · exact (wp_throw _).2 (hsettle _ _ .execute)
  · rename_i hst
    split
    · exact (wp_throw _).2 (hsettle _ _ .execute)
    · simp only [wp_bind, wp_modify]
      refine wp_mono (chooseWorkerNode_outline choice) (fun k s₁ hk => ?_) fun e s₁ hs₁ => ?_
      · have hQ : Q s₁ := Pool.MayJoin.outlined (s := { s with uuids := taskId :: s.uuids }) hk (by simpa using hst)
        refine wp_mono (covers_sameOutline.dispatchTask (callbacks_move fuel) k _ _) (fun _ s₂ h => ?_) fun e s₂ h => ?_
        · exact hsame _ _ h hQ
        · exact hsettle e s₂ (hsame _ _ h hQ)
      · exact hsettle e s₁ (Pool.MayJoin.outlined (s := { s with uuids := taskId :: s.uuids }) hs₁ (by simpa using hst))

/-! ### Errors and exits -/

theorem find_map_outline (l : List (WorkerNode Data)) (w : Nat) :
    (l.map WorkerNode.outline).find? (·.id = w) = (l[l.findIdx (·.info.id = w)]?).map WorkerNode.outline := by
  rw [List.find?_map, ← List.find?_eq_getElem?_findIdx]
  rfl

theorem erase_map_outline (l : List (WorkerNode Data)) (w : Nat) :
    (l.eraseIdx (l.findIdx (·.info.id = w))).map WorkerNode.outline =
      (l.map WorkerNode.outline).eraseP (·.id = w) := by
  induction l with
  | nil => rfl
  | cons n l ih =>
    by_cases h : n.info.id = w
    · simp [h, WorkerNode.outline, List.findIdx_cons]
    · have hn : ¬ n.outline.id = w := h
      simp [h, hn, List.findIdx_cons, ih]

theorem removeWorkerNode_outlined (w : Nat) :
    wp (removeWorkerNode w) (fun _ s' => s'.outline = s.outline.leave w) (fun _ s' => s'.outline = s.outline.leave w) s := by
  have herase := erase_map_outline s.workerNodes w
  simp only [removeWorkerNode, wp_modify]
  split
  · rename_i hn
    have hle : s.workerNodes.length ≤ s.workerNodes.findIdx (·.info.id = w) := List.getElem?_eq_none_iff.1 hn
    rw [List.eraseIdx_of_length_le hle] at herase
    simp only [Pool.outline, Outline.leave, ← herase]
  · simp only [Pool.outline, Outline.leave, ← herase]
    rfl

theorem handleError_outlined (fuel w : Nat) :
    wp (handleError (callbacks fuel) fuel w) (fun _ s' => s'.outline = s.outline.error w)
      (fun _ s' => s'.outline = s.outline.error w) s := by
  have hfind : s.outline.nodes.find? (·.id = w) =
      (s.workerNodes[s.getWorkerNodeKeyByWorkerId w]?).map WorkerNode.outline := find_map_outline s.workerNodes w
  simp only [handleError, wp_bind, wp_get]
  rcases hn : s.workerNodes[s.getWorkerNodeKeyByWorkerId w]? with _ | n
  · rw [hn] at hfind
    rw [wp_nodeAt_none hn, Outline.error_none hfind]
  · rw [hn] at hfind
    rw [Outline.error_some hfind, wp_nodeAt hn, wp_modifyNode]
    generalize hs₁ : s.modifyNode (s.getWorkerNodeKeyByWorkerId w)
      (fun n => { n.closeChannel with info.ready := false }) = s₁
    have hsame : s₁.outline = s.outline := by
      rw [← hs₁]
      exact outline_modifyNode s _ fun n => rfl
    have hlast : Within SameOutline (if (s.started && s.opts.enableTasksQueue) = true then
        redistributeQueuedTasks (callbacks fuel) fuel (s.getWorkerNodeKeyByWorkerId w) else pure () :
          PoolM Data Response Unit) := by
      split
      · exact (moves_redistributeQueuedTasks (callbacks_move fuel) fuel _).within covers_sameOutline
      · exact within_pure ()
    by_cases hr : (s.started && !s.starting && s.opts.restartWorkerOnError) = true
    · -- a node of the kind of the lost one joins, if its worker can be created
      have hjoin := createAndSetup_outline (s := s₁) n.info.dynamic
      rw [hsame] at hjoin
      have hthrown (s₂ : Pool Data Response) (h : ¬ s.outline.CanCreate ∧ s₂.outline = s.outline) : s₂.outline =
          if s.outline.restarts = true ∧ s.outline.CanCreate then s.outline.join n.outline.dynamic else s.outline := by
        rw [if_neg fun hc => h.1 hc.2, h.2]
      have hjoined (s₂ : Pool Data Response) (h : s.outline.CanCreate ∧ s₂.outline = s.outline.join n.info.dynamic) :
          (if s.outline.restarts = true ∧ s.outline.CanCreate then s.outline.join n.outline.dynamic else s.outline) =
            s₂.outline := by
        rw [if_pos ⟨hr, h.1⟩, h.2]
        rfl
      rw [if_pos hr]
      split
      · rename_i hdynamic
        rw [if_pos hdynamic] at hjoin
        simp only [wp_bind]
        refine wp_mono hjoin (fun _ s₂ h => ?_) fun _ s₂ h => hthrown s₂ h
        rw [hjoined s₂ h]
        exact hlast s₂
      · rename_i hdynamic
        rw [if_neg hdynamic] at hjoin
        simp only [wp_bind]
        refine wp_mono hjoin (fun _ s₂ h => ?_) fun _ s₂ h => hthrown s₂ h
        rw [hjoined s₂ h]
        exact hlast s₂
    · have hr' : ¬ (s.outline.restarts = true ∧ s.outline.CanCreate) := fun hc => hr hc.1
      rw [if_neg hr, if_neg hr', ← hsame]
      exact hlast s₁

/-! ### Starts -/

/-- The nodes that come when nodes that are not dynamic join. -/
def Outline.newNodes (o : Outline) (j : Nat) : List NodeOutline :=
  (List.range j).map fun i => { o.newNode false with id := o.nextWorkerId + i }

theorem Outline.iterate_join (o : Outline) (j : Nat) :
    (Outline.join false)^[j] o = { o with nodes := o.nodes ++ o.newNodes j, nextWorkerId := o.nextWorkerId + j } := by
  induction j with
  | zero => simp [Outline.newNodes]
  | succ j ih =>
    rw [Function.iterate_succ_apply', ih]
    simp only [Outline.join, Outline.newNodes, List.range_succ, List.map_append, List.map_singleton, List.append_assoc]
    rfl

@[simp] theorem Outline.length_newNodes (o : Outline) (j : Nat) : (o.newNodes j).length = j := by
  simp [Outline.newNodes]

theorem Outline.statics_iterate_join (o : Outline) (j : Nat) :
    ((Outline.join false)^[j] o).statics = o.statics + j := by
  have hnew : (o.newNodes j).countP (fun n => !n.dynamic) = (o.newNodes j).length := by
    rw [List.countP_eq_length]
    intro n hn
    obtain ⟨i, -, rfl⟩ := List.mem_map.1 hn
    rfl
  rw [Outline.iterate_join, Outline.statics, List.countP_append, hnew, Outline.length_newNodes]
  rfl

theorem statics_outline (p : Pool Data Response) : p.outline.statics = p.staticWorkerNodes := by
  unfold Outline.statics Pool.outline Pool.staticWorkerNodes
  rw [List.countP_map]
  rfl

/-- The nodes that have joined when the loop of `start` has made some passes. -/
def Pool.Filling (s s' : Pool Data Response) : Prop :=
  ∃ j, j ≤ s.numberOfWorkers - s.outline.statics ∧ (j = 0 ∨ s.outline.CanCreate) ∧
    s'.outline = { (Outline.join false)^[j] s.outline with starting := true }

theorem Pool.Filling.statics {s' : Pool Data Response} {j : Nat}
    (h : s'.outline = { (Outline.join false)^[j] s.outline with starting := true }) :
    s'.numberOfWorkers = s.numberOfWorkers ∧ s'.staticWorkerNodes = s.outline.statics + j := by
  have hn := congrArg Outline.numberOfWorkers h
  refine ⟨?_, ?_⟩
  · rw [Outline.iterate_join] at hn
    exact hn
  · rw [← statics_outline, h]
    exact s.outline.statics_iterate_join j

/-- One pass of the loop of `start`. -/
theorem Pool.Filling.pass {s' : Pool Data Response} (h : s.Filling s') (hlt : s'.staticWorkerNodes < s'.numberOfWorkers) :
    wp (do let _ ← createAndSetupWorkerNode; pure ()) (fun _ s'' => s.Filling s'')
      (fun _ s'' => s''.outline = s.outline.start) s' := by
  obtain ⟨j, hj, hcan, hs'⟩ := h
  obtain ⟨hn, hstatics⟩ := Pool.Filling.statics hs'
  have hsize : s'.outline.newNodeSize = s.outline.newNodeSize := by
    rw [hs', Outline.iterate_join]
    rfl
  simp only [wp_bind, wp_pure]
  refine wp_mono (createAndSetup_outline false) (fun _ s'' hjoin => ?_) fun _ s'' hthrow => ?_
  · obtain ⟨hcreate, hs''⟩ := hjoin
    refine ⟨j + 1, by omega, .inr ?_, ?_⟩
    · unfold Outline.CanCreate at hcreate ⊢
      rwa [hsize] at hcreate
    · rw [hs'', hs', Function.iterate_succ_apply']
      rfl
  · obtain ⟨hcreate, hs''⟩ := hthrow
    have hnot : ¬ s.outline.CanCreate := by
      unfold Outline.CanCreate at hcreate ⊢
      rwa [hsize] at hcreate
    -- no pass was made: the first node that is needed is refused
    obtain rfl : j = 0 := hcan.resolve_right hnot
    have hstart : ¬ (s.outline.numberOfWorkers ≤ s.outline.statics ∨ s.outline.CanCreate) := by
      rintro (hle | hc)
      · have hle' : s.numberOfWorkers ≤ s.outline.statics := hle
        omega
      · exact hnot hc
    rw [hs'', hs', Outline.start, if_neg hstart]
    rfl

theorem start_outlined (fuel : Nat) :
    wp (start fuel) (fun _ s' => s'.outline = s.outline.start) (fun _ s' => s'.outline = s.outline.start) s := by
  simp only [Poolifier.start, wp_bind, wp_modify]
  refine wp_mono (wp_whileDo (I := fun s' => s.Filling s')
    (J := fun b s' => s.Filling s' ∧ b = decide (s'.staticWorkerNodes < s'.numberOfWorkers)) ?_ (fun s' hs' => ?_)
    fun s' hs' => ?_) (fun _ s' hs' => ?_) fun _ _ h => h
  · exact ⟨0, by omega, .inl rfl, rfl⟩
  · simpa using hs'
  · exact hs'.1.pass (by simpa using hs'.2)
  · obtain ⟨⟨j, hj, hcan, hs'⟩, hexit⟩ := hs'
    obtain ⟨hn, hstatics⟩ := Pool.Filling.statics hs'
    have hle : ¬ s'.staticWorkerNodes < s'.numberOfWorkers := by simpa using hexit
    -- the loop has ended, so as many nodes have joined as were missing
    obtain rfl : j = s.numberOfWorkers - s.outline.statics := by omega
    have hstart : s.outline.numberOfWorkers ≤ s.outline.statics ∨ s.outline.CanCreate := by
      refine hcan.imp (fun h0 => ?_) id
      have hle' : s.numberOfWorkers ≤ s.outline.statics := by omega
      exact hle'
    rw [Outline.start, if_pos hstart]
    show { s'.outline with starting := false, started := true } = _
    rw [hs']
    rfl

/-- Nowhere else does a start end without an exception. -/
theorem canCreate_of_start {fuel : Nat} {s' : Pool Data Response} (h : start fuel s = some (.ok (), s')) :
    s.outline.numberOfWorkers ≤ s.outline.statics ∨ s.outline.CanCreate := by
  by_contra hc
  have hgrown : s'.starting = false := by
    have hg := wp_ok (start_grows fuel) h
    rw [hg.rest]
  have hout := wp_ok (start_outlined fuel) h
  rw [Outline.start, if_neg hc] at hout
  have hstarting : s'.starting = true := congrArg Outline.starting hout
  rw [hgrown] at hstarting
  cases hstarting
/-- A start adds nodes and sets flags. -/
theorem Outline.start_rest (o : Outline) : o.start = { o with
    nodes := o.start.nodes, nextWorkerId := o.start.nextWorkerId, started := o.start.started,
    starting := o.start.starting } := by
  unfold Outline.start
  split
  · rw [Outline.fill, Outline.iterate_join]
  · rfl

/-! ### Tasks queue options -/

theorem mapNodes_outline {f : WorkerNode Data → WorkerNode Data} {g : NodeOutline → NodeOutline}
    (hf : ∀ n, (f n).outline = g n.outline) (p : Pool Data Response) :
    { p with workerNodes := p.workerNodes.map f }.outline = { p.outline with nodes := p.outline.nodes.map g } := by
  unfold Pool.outline
  simp only [List.map_map]
  congr 1
  apply List.map_congr_left
  intro n _
  exact hf n

theorem setTasksQueueOptions_outlined (a : TasksQueueOptionsArgument) :
    wp (setTasksQueueOptions a) (fun _ s' => s'.outline = s.outline.setTasksQueueOptions a)
      (fun _ s' => s'.outline = s.outline.setTasksQueueOptions a) s := by
  simp only [setTasksQueueOptions, wp_bind, wp_get]
  by_cases he : s.opts.enableTasksQueue = true
  · have he' : s.outline.opts.enableTasksQueue = true := he
    rw [if_pos he, Outline.setTasksQueueOptions, if_pos he']
    rcases hc : checkValidTasksQueueOptions a with e | _
    · simp only [liftCheck, wp_bind, wp_throw]
    · simp only [liftCheck, wp_bind, wp_pure, wp_modify, setTasksQueueSize, setTaskStealing,
        setTasksStealingOnBackPressure, mapNodes, List.map_map]
      exact mapNodes_outline (fun n => rfl) { s with opts.tasksQueueOptions := some (buildTasksQueueOptions s.maxSize a) }
  · have he' : ¬ s.outline.opts.enableTasksQueue = true := he
    rw [if_neg he, Outline.setTasksQueueOptions, if_neg he', wp_modify]
    rfl

theorem disableTasksQueue_outlined (hcb : CallbacksMove cb) (fuel : Nat) :
    wp (disableTasksQueue cb fuel) (fun _ s' => s'.outline = s.outline.unset) (fun _ s' => s'.outline = s.outline.unset) s := by
  simp only [disableTasksQueue, setTaskStealing, setTasksStealingOnBackPressure, mapNodes, wp_bind, wp_modify,
    List.map_map]
  generalize hs₁ : { s with workerNodes := s.workerNodes.map _ } = s₁
  have hunset : s₁.outline = s.outline.unset := by
    rw [← hs₁]
    exact mapNodes_outline (fun n => rfl) s
  have hflush : Within SameOutline (flushTasksQueues cb fuel) :=
    within_get.bind fun p => .forEach (fun k => (moves_flushTasksQueue hcb fuel k).within covers_sameOutline) _
  exact wp_mono (hflush s₁) (fun _ _ h => Eq.trans h hunset) fun _ _ h => Eq.trans h hunset

theorem enableTasksQueue_outlined (fuel : Nat) (enable : Bool) (a : TasksQueueOptionsArgument) :
    let Q (s' : Pool Data Response) := Outlined s.outline (.enableTasksQueue enable a : Event Data Response) s'.outline
    wp (enableTasksQueue (callbacks fuel) fuel enable a) (fun _ => Q) (fun _ => Q) s := by
  intro Q
  have hrest (s₁ : Pool Data Response) (h : s₁.outline =
      if (s.outline.opts.enableTasksQueue && !enable) = true then s.outline.unset else s.outline) :
      wp (setTasksQueueOptions a) (fun _ => Q) (fun _ => Q) { s₁ with opts.enableTasksQueue := enable } := by
    have hQ (s' : Pool Data Response)
        (hs' : s'.outline = Outline.setTasksQueueOptions a { s₁.outline with opts.enableTasksQueue := enable }) : Q s' := by
      simp only [Q]
      rw [hs', h]
      exact .enableTasksQueue
    exact wp_mono (setTasksQueueOptions_outlined a) (fun _ s' hs' => hQ s' hs') fun _ s' hs' => hQ s' hs'
  simp only [enableTasksQueue, wp_bind, wp_get]
  by_cases hd : (s.opts.enableTasksQueue && !enable) = true
  · have hd' : (s.outline.opts.enableTasksQueue && !enable) = true := hd
    rw [if_pos hd, wp_bind]
    refine wp_mono (disableTasksQueue_outlined (callbacks_move fuel) fuel) (fun _ s₁ h => ?_) fun _ s₁ h => ?_
    · rw [wp_bind, wp_modify]
      exact hrest s₁ (by rw [if_pos hd', h])
    · obtain ⟨he, hfalse⟩ : s.opts.enableTasksQueue = true ∧ enable = false := by simpa using hd
      subst hfalse
      simp only [Q]
      rw [h]
      exact .flushThrows he
  · have hd' : ¬ (s.outline.opts.enableTasksQueue && !enable) = true := hd
    rw [if_neg hd, wp_bind, wp_modify]
    exact hrest s (by rw [if_neg hd'])

end Change

/-! ## Every event -/

/-- What an event does to the outline of a pool, however its code ends. -/
theorem handle_outlined {s : Pool Data Response} (fuel : Nat) (e : Event Data Response) :
    wp (handle fuel e) (fun _ s' => Outlined s.outline e s'.outline) (fun _ s' => Outlined s.outline e s'.outline) s := by
  have hcb : CallbacksMove (callbacks fuel : Callbacks Data Response) := callbacks_move fuel
  have hsame {m : PoolM Data Response Unit} (hm : Within SameOutline m) (he : Outlined s.outline e s.outline) :
      wp m (fun _ s' => Outlined s.outline e s'.outline) (fun _ s' => Outlined s.outline e s'.outline) s :=
    wp_mono (hm s) (fun _ s' h => by rw [h]; exact he) fun _ s' h => by rw [h]; exact he
  have hto {m : PoolM Data Response Unit} {o : Outline} (hm : wp m (fun _ s' => s'.outline = o) (fun _ s' => s'.outline = o) s)
      (he : Outlined s.outline e o) :
      wp m (fun _ s' => Outlined s.outline e s'.outline) (fun _ s' => Outlined s.outline e s'.outline) s :=
    wp_mono hm (fun _ s' h => by rw [h]; exact he) fun _ s' h => by rw [h]; exact he
  cases e with
  | execute taskId name data choice => exact execute_outlined fuel taskId name data choice
  | message w message => exact hsame (covers_sameOutline.handleMessage hcb fuel w message) .message
  | poll w => exact hsame (covers_sameOutline.pollingTick fuel w) .poll
  | error w => exact hto (handleError_outlined fuel w) .error
  | exit w => exact hto (removeWorkerNode_outlined w) .exit
  | start => exact hto (start_outlined fuel) .start
  | enableTasksQueue enable a => exact enableTasksQueue_outlined fuel enable a
  | setTasksQueueOptions a => exact hto (setTasksQueueOptions_outlined a) .setTasksQueueOptions
  | destroy => exact hsame (covers_sameOutline.destroy hcb fuel) .destroy
  | destroyed => exact (wp_modify _).2 .destroyed

theorem step_outlined {s s' : Pool Data Response} {e : Event Data Response} (h : Step s e s') :
    Outlined s.outline e s'.outline := by
  obtain ⟨-, fuel, now, r, hr⟩ := h
  have hw := wp_any (handle_outlined (s := { s with now }) fuel e) hr
  exact hw

/-! ## Created pools -/

def initialOutline (c : PoolConfig Data) : Outline := (initialPool c : Pool Data Unit).outline

/-- The outline of a pool its constructor returns. -/
def createdOutline (c : PoolConfig Data) (startWorkers : Bool) : Outline :=
  { (if startWorkers then (initialOutline c).start else initialOutline c) with
    max := if c.type = .dynamic then c.max else none }

theorem created_outline {c : PoolConfig Data} {startWorkers : Bool} {s : Pool Data Response}
    (h : Created c startWorkers s) :
    checkNumberOfWorkers c.type c.numberOfWorkers = .ok () ∧
      (c.enableTasksQueue = true → checkValidTasksQueueOptions c.tasksQueueOptions = .ok ()) ∧
      (c.type = .dynamic → checkDynamicPoolSize c.numberOfWorkers c.max = .ok ()) ∧
      s.outline = createdOutline c startWorkers := by
  obtain ⟨s₀, s₁, hc, hstart, hmax⟩ := h
  obtain ⟨hn, hq, rfl⟩ := construct_ok hc
  have hs₁ : s₁.outline = if startWorkers then (initialOutline c).start else initialOutline c := by
    cases startWorkers with
    | true =>
      obtain ⟨fuel, hf⟩ := hstart
      have hw := wp_any (start_outlined fuel) hf
      exact hw
    | false =>
      simp only [Bool.false_eq_true, if_false] at hstart
      rw [hstart]
      rfl
  refine ⟨hn, hq, ?_⟩
  unfold setMaxSize at hmax
  rcases ht : c.type with _ | _
  · rw [ht] at hmax
    cases hmax
    refine ⟨(by rintro ⟨⟩), ?_⟩
    have hnone : s.outline.max = none := by
      rw [hs₁]
      cases startWorkers with
      | true =>
        rw [if_pos rfl, Outline.start_rest]
        rfl
      | false => rfl
    rw [createdOutline, ← hs₁, ht, if_neg (by rintro ⟨⟩), ← hnone]
  · rw [ht] at hmax
    rcases hd : checkDynamicPoolSize c.numberOfWorkers c.max with e | _
    · rw [hd] at hmax
      cases hmax
    · rw [hd] at hmax
      cases hmax
      refine ⟨fun _ => rfl, ?_⟩
      rw [createdOutline, if_pos ht, ← hs₁]
      rfl

/-! ## Worker ids and queue sizes -/

/-- No two nodes share an id, and the next one is new; every node has the queue size of the options, if there is one. -/
structure Outline.Synced (o : Outline) : Prop where
  ids : (o.nodes.map (·.id)).Nodup
  below : ∀ n ∈ o.nodes, n.id < o.nextWorkerId
  size : ∀ n ∈ o.nodes, ∀ z, o.opts.tasksQueueOptions.bind (·.size) = some z → n.tasksQueueBackPressureSize = some z

section Synced
variable {o o' : Outline}

theorem Outline.Synced.join (h : o.Synced) (dynamic : Bool) : (o.join dynamic).Synced where
  ids := MapLib.nodup_map_concat h.ids fun n hn => Nat.ne_of_lt (h.below n hn)
  below n hn := by
    rcases List.mem_append.1 hn with hn | hn
    · exact Nat.lt_succ_of_lt (h.below n hn)
    · rw [List.mem_singleton.1 hn]
      exact Nat.lt_succ_self _
  size n hn z hz := by
    rcases List.mem_append.1 hn with hn | hn
    · exact h.size n hn z hz
    · have hsize : o.newNodeSize = z := by
        have hz' : o.opts.tasksQueueOptions.bind (·.size) = some z := hz
        rw [Outline.newNodeSize, hz', Option.getD_some]
      rw [List.mem_singleton.1 hn, ← hsize]
      rfl

theorem Outline.Synced.leave (h : o.Synced) (w : Nat) : (o.leave w).Synced where
  ids := h.ids.sublist (List.eraseP_sublist.map _)
  below n hn := h.below n (List.mem_of_mem_eraseP hn)
  size n hn := h.size n (List.mem_of_mem_eraseP hn)

theorem Outline.Synced.error (h : o.Synced) (w : Nat) : (o.error w).Synced := by
  rcases hf : o.nodes.find? (·.id = w) with _ | n
  · rw [Outline.error_none hf]
    exact h
  · rw [Outline.error_some hf]
    split
    · exact h.join n.dynamic
    · exact h

theorem Outline.Synced.start (h : o.Synced) : o.start.Synced := by
  have hfill (j : Nat) : ((Outline.join false)^[j] o).Synced := by
    induction j with
    | zero => exact h
    | succ j ih =>
      rw [Function.iterate_succ_apply']
      exact ih.join false
  unfold Outline.start
  split
  · exact ⟨(hfill _).ids, (hfill _).below, (hfill _).size⟩
  · exact ⟨h.ids, h.below, h.size⟩

/-- Setting up the nodes leaves their ids alone. -/
theorem Outline.Synced.mapNodes (h : o.Synced) {g : NodeOutline → NodeOutline} {opts : PoolOptions}
    (hid : ∀ n, (g n).id = n.id)
    (hsize : ∀ n ∈ o.nodes, ∀ z, opts.tasksQueueOptions.bind (·.size) = some z → (g n).tasksQueueBackPressureSize = some z) :
    { o with opts, nodes := o.nodes.map g }.Synced where
  ids := by
    have hids : (o.nodes.map g).map (·.id) = o.nodes.map (·.id) := by
      rw [List.map_map]
      exact List.map_congr_left fun n _ => hid n
    show ((o.nodes.map g).map (·.id)).Nodup
    rw [hids]
    exact h.ids
  below n hn := by
    obtain ⟨m, hm, rfl⟩ := List.mem_map.1 hn
    rw [hid]
    exact h.below m hm
  size n hn z hz := by
    obtain ⟨m, hm, rfl⟩ := List.mem_map.1 hn
    exact hsize m hm z hz

theorem Outline.Synced.unset (h : o.Synced) : o.unset.Synced := h.mapNodes (fun _ => rfl) h.size

theorem Outline.Synced.setTasksQueueOptions (h : o.Synced) (a : TasksQueueOptionsArgument) :
    (o.setTasksQueueOptions a).Synced := by
  unfold Outline.setTasksQueueOptions
  split
  · split
    · exact h
    · exact h.mapNodes (fun _ => rfl) fun _ _ _ hz => hz
  · exact ⟨h.ids, h.below, fun _ _ _ hz => by cases hz⟩

theorem Outline.Synced.enableTasksQueue (h : o.Synced) (enable : Bool) (a : TasksQueueOptionsArgument) :
    (o.enableTasksQueue enable a).Synced := by
  have hset {o : Outline} (h : o.Synced) :
      ({ o with opts.enableTasksQueue := enable }.setTasksQueueOptions a).Synced := by
    have hflag : { o with opts.enableTasksQueue := enable }.Synced := ⟨h.ids, h.below, h.size⟩
    exact hflag.setTasksQueueOptions a
  refine hset ?_
  split
  · exact h.unset
  · exact h

theorem Outlined.synced {e : Event Data Response} (he : Outlined o e o') (h : o.Synced) : o'.Synced := by
  cases he with
  | execute => exact h
  | executeJoins => exact h.join true
  | message => exact h
  | poll => exact h
  | error => exact h.error _
  | exit => exact h.leave _
  | start => exact h.start
  | enableTasksQueue => exact h.enableTasksQueue _ _
  | flushThrows => exact h.unset
  | setTasksQueueOptions => exact h.setTasksQueueOptions _
  | destroy => exact h
  | destroyed => exact ⟨h.ids, h.below, h.size⟩

/-- Whatever happens to a pool, its workers have ids of their own, and its nodes the queue size of its options. -/
theorem outline_synced_of_run {s₀ s : Pool Data Response} {es : List (Event Data Response)} (h : Fresh s₀)
    (hr : Run Step s₀ es s) : s.outline.Synced := by
  have hinit : s₀.outline.Synced := by
    refine ⟨?_, fun n hn => ?_, fun n hn => ?_⟩
    · show ((s₀.workerNodes.map WorkerNode.outline).map (·.id)).Nodup
      rw [List.map_map]
      exact h.ids
    · obtain ⟨m, hm, rfl⟩ := List.mem_map.1 hn
      exact h.idsBelow m hm
    · obtain ⟨m, hm, rfl⟩ := List.mem_map.1 hn
      exact (h.nodes m hm).size
  exact hr.inv (fun s => s.outline.Synced) hinit fun _ _ _ hs hstep => (step_outlined hstep).synced hs

end Synced

/-- A constructor returns if its checks pass and the start it makes can create the nodes it needs. -/
theorem exists_created_iff (c : PoolConfig Data) (startWorkers : Bool) :
    (∃ s : Pool Data Response, Created c startWorkers s) ↔
      checkNumberOfWorkers c.type c.numberOfWorkers = .ok () ∧
        (c.enableTasksQueue = true → checkValidTasksQueueOptions c.tasksQueueOptions = .ok ()) ∧
        (c.type = .dynamic → checkDynamicPoolSize c.numberOfWorkers c.max = .ok ()) ∧
        (startWorkers = true → c.numberOfWorkers = 0 ∨ (initialOutline c).CanCreate) := by
  constructor
  · rintro ⟨s, h⟩
    obtain ⟨hn, hq, hd, -⟩ := created_outline h
    refine ⟨hn, hq, hd, fun hw => ?_⟩
    subst hw
    obtain ⟨s₀, s₁, hc, hstart, -⟩ := h
    obtain ⟨-, -, rfl⟩ := construct_ok hc
    rw [if_pos rfl] at hstart
    obtain ⟨fuel, hf⟩ := hstart
    exact (canCreate_of_start hf).imp Nat.le_zero.1 id
  · rintro ⟨hn, hq, hd, hw⟩
    have hc : construct c = .ok (initialPool c : Pool Data Response) := by
      unfold construct
      rw [hn]
      rcases he : c.enableTasksQueue with _ | _
      · rfl
      · rw [hq he]
        rfl
    have hmax (s₁ : Pool Data Response) : ∃ s, setMaxSize c s₁ = .ok s := by
      unfold setMaxSize
      rcases ht : c.type with _ | _
      · exact ⟨s₁, rfl⟩
      · rw [hd ht]
        exact ⟨_, rfl⟩
    cases startWorkers with
    | true =>
      have hcan : (initialPool c : Pool Data Response).numberOfWorkers ≤ (initialPool c : Pool Data Response).staticWorkerNodes ∨
          (initialPool c : Pool Data Response).CanCreate := (hw rfl).imp Nat.le_zero.2 id
      obtain ⟨fuel, _, s₁, hs₁, -⟩ := start_returns hcan
      obtain ⟨s, hs⟩ := hmax s₁
      exact ⟨s, initialPool c, s₁, hc, ⟨fuel, hs₁⟩, hs⟩
    | false =>
      obtain ⟨s, hs⟩ := hmax (initialPool c)
      exact ⟨s, initialPool c, initialPool c, hc, rfl, hs⟩

theorem checkDynamicPoolSize_ok {min : Nat} {max : Option Nat} (h : checkDynamicPoolSize min max = .ok ()) :
    ∃ m, max = some m ∧ min < m ∧ m < 2 ^ 53 := by
  unfold checkDynamicPoolSize at h
  split at h
  · cases h
  · rename_i m
    refine ⟨m, rfl, ?_⟩
    split at h
    · cases h
    · split at h
      · cases h
      · split at h
        · cases h
        · split at h
          · cases h
          · omega

/-- A pool has room for its minimum size. -/
theorem numberOfWorkers_le_maxSize {c : PoolConfig Data} (startWorkers : Bool)
    (h : c.type = .dynamic → checkDynamicPoolSize c.numberOfWorkers c.max = .ok ()) :
    (createdOutline c startWorkers).numberOfWorkers = c.numberOfWorkers ∧
      c.numberOfWorkers ≤ (createdOutline c startWorkers).maxSize := by
  have hn : (createdOutline c startWorkers).numberOfWorkers = c.numberOfWorkers := by
    cases startWorkers with
    | true =>
      rw [createdOutline, if_pos rfl, Outline.start_rest]
      rfl
    | false => rfl
  refine ⟨hn, ?_⟩
  have hmax : (createdOutline c startWorkers).maxSize =
      (if c.type = .dynamic then c.max else none).getD (createdOutline c startWorkers).numberOfWorkers := rfl
  rw [hmax, hn]
  split
  · rename_i ht
    obtain ⟨m, hm, hlt, -⟩ := checkDynamicPoolSize_ok (h ht)
    rw [hm]
    exact hlt.le
  · exact le_rfl

/-- A pool as its constructor returns it, computed with given fuel. -/
def create (c : PoolConfig Data) (fuel : Nat) : Option (Pool Data Response) :=
  match construct c with
  | .error _ => none
  | .ok s₀ =>
    match start fuel s₀ with
    | some (.ok (), s₁) => (setMaxSize c s₁).toOption
    | _ => none

theorem created_of_create {c : PoolConfig Data} {fuel : Nat} {s : Pool Data Response} (h : create c fuel = some s) :
    Created c true s := by
  unfold create at h
  split at h
  · cases h
  · rename_i s₀ hc
    split at h
    · rename_i s₁ hs
      rcases hm : setMaxSize c s₁ with e | s₂
      · rw [hm] at h
        cases h
      · rw [hm] at h
        cases h
        exact ⟨s₀, s₁, hc, ⟨fuel, hs⟩, hm⟩
    · cases h

/-- A pool its constructor returns, of which `P` holds. -/
theorem exists_created {c : PoolConfig Data} (fuel : Nat) {P : Pool Data Response → Prop} [DecidablePred P]
    (h : (create c fuel).any (fun s => decide (P s)) = true) : ∃ s, Created c true s ∧ P s := by
  rcases hs : (create c fuel : Option (Pool Data Response)) with _ | s
  · rw [hs] at h
    cases h
  · rw [hs] at h
    exact ⟨s, created_of_create hs, of_decide_eq_true h⟩

/-- A pool its constructor returns, and events that run from it to a state in which `P` holds. -/
theorem created_run_to (ok : Pool Data Response → Event Data Response → Prop) [∀ s e, Decidable (ok s e)] (fuel : Nat)
    (c : PoolConfig Data) (es : List (Event Data Response)) {P : Pool Data Response → Prop} [DecidablePred P]
    (h : (create c fuel).any (fun s => decide ((replay (nextIf ok fuel) s es).any (fun s' => decide (P s')) = true)) = true) :
    ∃ s s', Created c true s ∧ Run (Guarded ok Step) s es s' ∧ P s' := by
  obtain ⟨s, hc, hs⟩ := exists_created fuel h
  obtain ⟨s', hrun, hP⟩ := run_to ok fuel s es hs
  exact ⟨s, s', hc, hrun, hP⟩

/-- The arguments of a pool of thread workers, with the default strategy and no tasks queue. -/
def threadPoolConfig (type : PoolType) (numberOfWorkers : Nat) (max : Option Nat) : PoolConfig Unit where
  type := type
  worker := .thread
  numberOfWorkers := numberOfWorkers
  max := max
  restartWorkerOnError := true
  enableTasksQueue := false
  tasksQueueOptions := .undefined
  strategyPolicy := ⟨false, true⟩
  taskStatisticsRequirements := ⟨⟨false, false, false⟩, ⟨false, false, false⟩, ⟨false, false, false⟩⟩
  postable := fun _ => true

end Poolifier
