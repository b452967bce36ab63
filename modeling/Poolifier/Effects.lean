import Poolifier.Places
/-!
# What an event does to tasks and promises

The queue code moves tasks; the code around it sets flags, installs callbacks,
creates nodes and ends polling loops, and moves none (`Tidy`). A handler is a
chain of both (`Flow`), whatever exceptions cut it short or are caught in it.
`Effect` says in these terms what every event does, once for all the theorems
about workers that come and go.
-/

namespace Poolifier

open EffLib Relation WorkerNode

variable {Data Response : Type}

/-! ## Chains of moves and tidying -/

/-- What is sent to the worker of a node, and what waits. -/
def WorkerNode.work (n : WorkerNode Data) : Worker Data × List (Task Data) := (n.worker, n.tasksQueue)

/-- Tasks and promises stay where they are; nodes without tasks may have come. -/
structure Tidy (p p' : Pool Data Response) : Prop where
  work : ∃ m, p'.workerNodes.map work = p.workerNodes.map work ++ List.replicate m (⟨[], []⟩, [])
  removedNodes : p'.removedNodes.map (·.worker) = p.removedNodes.map (·.worker)
  promiseResponseMap : p'.promiseResponseMap = p.promiseResponseMap
  settled : p'.settled = p.settled
  errorsCaught : p.errorsCaught ≤ p'.errorsCaught

theorem Tidy.refl (p : Pool Data Response) : Tidy p p := ⟨⟨0, by simp⟩, rfl, rfl, rfl, le_rfl⟩

theorem Tidy.trans {p p' p'' : Pool Data Response} (h : Tidy p p') (h' : Tidy p' p'') : Tidy p p'' where
  work := by
    obtain ⟨m, hm⟩ := h.work
    obtain ⟨m', hm'⟩ := h'.work
    refine ⟨m + m', ?_⟩
    rw [hm', hm, List.append_assoc, List.replicate_append_replicate]
  removedNodes := h'.removedNodes.trans h.removedNodes
  promiseResponseMap := h'.promiseResponseMap.trans h.promiseResponseMap
  settled := h'.settled.trans h.settled
  errorsCaught := h.errorsCaught.trans h'.errorsCaught

/-- A change of one node that leaves its tasks alone. -/
theorem Tidy.modifyNode (p : Pool Data Response) (k : Nat) {f : WorkerNode Data → WorkerNode Data}
    (hf : ∀ n, (f n).work = n.work) : Tidy p (p.modifyNode k f) := by
  refine ⟨⟨0, ?_⟩, rfl, rfl, rfl, le_rfl⟩
  rw [List.replicate_zero, List.append_nil]
  exact map_modify_same fun n _ => hf n

theorem Tidy.of_grown {p p' : Pool Data Response} (h : Grown p p') : Tidy p p' := by
  obtain ⟨new, hn, -, -, hnew⟩ := h.nodes
  have hidle : new.map WorkerNode.work = List.replicate new.length (⟨[], []⟩, []) := by
    rw [List.eq_replicate_iff]
    refine ⟨List.length_map _, fun b hb => ?_⟩
    obtain ⟨n, hmem, rfl⟩ := List.mem_map.1 hb
    unfold WorkerNode.work
    rw [(hnew n hmem).worker, (hnew n hmem).tasksQueue]
  refine ⟨⟨new.length, ?_⟩, ?_, ?_, ?_, ?_⟩
  · rw [hn, List.map_append, hidle]
  all_goals rw [h.rest]

/-- From the first pool and hand to the second, by moves and by tidying. -/
def Flow (a b : Config Data Response) : Prop :=
  ReflTransGen (fun a b => Move False True a b ∨ Tidy a.1 b.1 ∧ b.2 = a.2) a b

section Flow
variable {a b c : Config Data Response} {p p' : Pool Data Response} {h h' : Multiset (Task Data)}

theorem Flow.refl (a : Config Data Response) : Flow a a := ReflTransGen.refl

theorem Flow.trans (h : Flow a b) (h' : Flow b c) : Flow a c := ReflTransGen.trans h h'

theorem Flow.tidy (ht : Tidy p p') (h : Multiset (Task Data)) : Flow (p, h) (p', h) := .single (.inr ⟨ht, rfl⟩)

theorem Flow.of_reached {g : Prop} (hr : Reached g a p h) : Flow a (p, h) :=
  ReflTransGen.mono (fun _ _ (hm : Move g _ _ _) => .inl (hm.mono False.elim fun _ => trivial)) _ _ hr

/-- What is in hand when an exception is caught is lost. -/
theorem Flow.caught (p : Pool Data Response) (lost : Multiset (Task Data)) :
    Flow (p, lost) ({ p with errorsCaught := p.errorsCaught + 1 }, 0) := by
  have hdrop : Move False True (p, 0 + lost) ({ p with errorsCaught := p.errorsCaught + 1 }, 0) := .drop trivial
  rw [zero_add] at hdrop
  exact .single (.inl hdrop)

theorem placed_of_work (hw : p'.workerNodes.map work = p.workerNodes.map work ++ List.replicate n (⟨[], []⟩, [])) :
    p'.placed = p.placed := by
  have hheld (q : Pool Data Response) : q.placed =
      ((q.workerNodes.map work).map fun w => (↑w.2 + ↑w.1.unanswered : Multiset (Task Data))).sum := by
    unfold Pool.placed
    rw [List.map_map]
    rfl
  have hidle : ((List.replicate n ((⟨[], []⟩, []) : Worker Data × List (Task Data))).map
      fun w => (↑w.2 + ↑w.1.unanswered : Multiset (Task Data))).sum = 0 := by
    apply List.sum_eq_zero
    intro x hx
    rw [List.map_replicate] at hx
    exact (List.eq_of_mem_replicate hx).trans (add_zero _)
  rw [hheld, hheld, hw, List.map_append, List.sum_append, hidle, add_zero]

/-- What a flow leaves alone. -/
theorem Flow.rest (hf : Flow a b) : b.1.promiseResponseMap = a.1.promiseResponseMap ∧ b.1.settled = a.1.settled ∧
    b.1.removedNodes.map (·.worker) = a.1.removedNodes.map (·.worker) ∧ a.1.errorsCaught ≤ b.1.errorsCaught := by
  refine RunLib.inv_of_chain (I := fun d => d.1.promiseResponseMap = a.1.promiseResponseMap ∧
    d.1.settled = a.1.settled ∧ d.1.removedNodes.map (·.worker) = a.1.removedNodes.map (·.worker) ∧
    a.1.errorsCaught ≤ d.1.errorsCaught) (fun d e hstep ih => ?_) hf ⟨rfl, rfl, rfl, le_rfl⟩
  obtain ⟨h1, h2, h3, h4⟩ := ih
  rcases hstep with hm | ⟨ht, -⟩
  · have hframe := hm.frame
    refine ⟨?_, ?_, ?_, h4.trans hframe.errorsCaught⟩
    · rw [hframe.rest]
      exact h1
    · rw [hframe.rest]
      exact h2
    · rw [hframe.rest]
      exact h3
  · exact ⟨ht.promiseResponseMap.trans h1, ht.settled.trans h2, ht.removedNodes.trans h3,
      h4.trans ht.errorsCaught⟩

/-- Unless an exception is caught, tasks only change places. -/
theorem Flow.placed (hf : Flow a b) (hcaught : b.1.errorsCaught ≤ a.1.errorsCaught) :
    b.1.placed + b.2 = a.1.placed + a.2 := by
  induction hf with
  | refl => rfl
  | @tail d e hd hstep ih =>
    have hle : a.1.errorsCaught ≤ d.1.errorsCaught := (Flow.rest hd).2.2.2
    rcases hstep with hm | ⟨ht, hhand⟩
    · have hde := hm.frame.errorsCaught
      obtain ⟨lost, heq, -, hlost⟩ := hm.placed
      have hzero : lost = 0 := by
        by_contra hne
        have := hlost hne
        omega
      rw [← ih (hde.trans hcaught), ← heq, hzero, add_zero]
    · obtain ⟨m, hm⟩ := ht.work
      rw [placed_of_work hm, hhand, ih (ht.errorsCaught.trans hcaught)]

end Flow

instance : IsPreorder (Pool Data Response) Tidy where
  refl := .refl
  trans _ _ _ := .trans

/-! ## Code that flows -/

/-- Wherever it starts with nothing in hand, the code flows; an exception may leave tasks in hand. -/
def Flows {α : Type} (m : PoolM Data Response α) : Prop :=
  ∀ s, wp m (fun _ s' => Flow (s, 0) (s', 0)) (fun _ s' => ∃ lost, Flow (s, 0) (s', lost)) s

/-- Code that flows and does nothing but move tasks. -/
def Moves {α : Type} (m : PoolM Data Response α) : Prop :=
  ∀ s, wp m (fun _ s' => Reached False (s, 0) s' 0) (fun _ s' => ∃ lost, Reached False (s, 0) s' lost) s

section Flows
variable {α β ι : Type} {m : PoolM Data Response α}

theorem flows_of_tidy (h : Within Tidy m) : Flows m := fun s =>
  wp_mono (h s) (fun _ _ ht => .tidy ht 0) fun _ _ ht => ⟨0, .tidy ht 0⟩

theorem Moves.flows (h : Moves m) : Flows m := by
  intro s
  refine wp_mono (h s) (fun _ _ hr => .of_reached hr) fun _ s' hr => ?_
  obtain ⟨lost, hr⟩ := hr
  exact ⟨lost, .of_reached hr⟩

theorem tidies_modifyNode (k : Nat) {f : WorkerNode Data → WorkerNode Data} (hf : ∀ n, (f n).work = n.work) :
    Within Tidy (modifyNode k f : PoolM Data Response Unit) := within_modify fun p => .modifyNode p k hf

theorem tidies_mapNodes {f : WorkerNode Data → WorkerNode Data} (hf : ∀ n, (f n).work = n.work) :
    Within Tidy (mapNodes f : PoolM Data Response Unit) := by
  refine within_modify fun p => ⟨⟨0, ?_⟩, rfl, rfl, rfl, le_rfl⟩
  rw [List.map_map, List.replicate_zero, List.append_nil]
  apply List.map_congr_left
  intro n _
  exact hf n

theorem Flows.bind {f : α → PoolM Data Response β} (hm : Flows m) (hf : ∀ a, Flows (f a)) : Flows (m >>= f) := by
  intro s
  rw [wp_bind]
  refine wp_mono (hm s) (fun a s' ht => ?_) fun _ _ ht => ht
  refine wp_mono (hf a s') (fun _ _ ht' => ht.trans ht') fun _ _ ht' => ?_
  obtain ⟨lost, ht'⟩ := ht'
  exact ⟨lost, ht.trans ht'⟩

theorem Flows.forEach {body : ι → PoolM Data Response Unit} (hb : ∀ x, Flows (body x)) (l : List ι) :
    Flows (Eff.forEach body l) := by
  induction l with
  | nil => exact flows_of_tidy (within_pure ())
  | cons x l ih => exact (hb x).bind fun _ => ih

/-- A `catch` that leaves its mark on the pool. -/
theorem Flows.swallow {m : PoolM Data Response Unit} {f : Pool Data Response → Pool Data Response} (hm : Flows m)
    (hf : ∀ p, Tidy { p with errorsCaught := p.errorsCaught + 1 } (f p)) : Flows (m.swallow f) := by
  intro s
  rw [wp_swallow]
  refine wp_mono (hm s) (fun _ _ ht => ht) fun _ s' ht => ?_
  obtain ⟨lost, ht⟩ := ht
  exact (ht.trans (.caught s' lost)).trans (.tidy (hf s') 0)

end Flows

/-! ## The handlers -/

section Handlers
variable {s : Pool Data Response} {cb : Callbacks Data Response}

theorem moves_of_reached {α : Type} {m : PoolM Data Response α} {g : Prop}
    (h : wp m (fun _ s' => Reached g (s, 0) s' 0) (fun _ s' => Failed g (s, 0) 0 s') s) :
    wp m (fun _ s' => Reached False (s, 0) s' 0) (fun _ s' => ∃ lost, Reached False (s, 0) s' lost) s := by
  refine wp_mono h (fun _ _ hr => hr.mono False.elim) fun _ s' hf => ?_
  obtain ⟨-, lost, hr⟩ := hf
  rw [zero_add] at hr
  exact ⟨lost, hr.mono False.elim⟩

theorem tidies_nodeAt (k : Nat) : Within Tidy (nodeAt k : PoolM Data Response _) := by
  refine within_get.bind fun p => ?_
  split
  · exact within_throw _
  · exact within_pure _

theorem tidies_createAndSetupWorkerNode : Within Tidy (createAndSetupWorkerNode : PoolM Data Response Nat) := by
  intro s
  refine wp_mono createAndSetupWorkerNode_joins (fun k s' hk => .of_grown hk.2.2.grown) fun _ s' hs' => ?_
  rw [hs'.2]
  exact .refl s

theorem tidies_createAndSetupDynamicWorkerNode : Within Tidy (createAndSetupDynamicWorkerNode : PoolM Data Response Nat) := by
  intro s
  refine wp_mono createAndSetupDynamicWorkerNode_grows (fun k s' hk => .of_grown hk.2.2) fun _ s' hs' => ?_
  rw [hs']
  exact .refl s

theorem tidies_start (fuel : Nat) : Within Tidy (start fuel : PoolM Data Response Unit) := by
  intro s
  have hflags (a b : Bool) : Tidy s { s with starting := a, started := b } := ⟨⟨0, by simp⟩, rfl, rfl, rfl, le_rfl⟩
  exact wp_mono (start_grows fuel) (fun _ _ hg => (hflags false true).trans (.of_grown hg)) fun _ _ hg =>
    (hflags true s.started).trans (.of_grown hg)

theorem tidies_setTasksQueueOptions (o : TasksQueueOptionsArgument) :
    Within Tidy (setTasksQueueOptions o : PoolM Data Response Unit) := by
  have hopts (f : Pool Data Response → PoolOptions) : Within Tidy (Eff.modify fun p => { p with opts := f p } : PoolM Data Response Unit) :=
    within_modify fun p => ⟨⟨0, by simp⟩, rfl, rfl, rfl, le_rfl⟩
  refine within_get.bind fun p => ?_
  split
  · refine Within.bind ?_ fun _ => ?_
    · rcases checkValidTasksQueueOptions o with e | _
      · exact within_throw e
      · exact within_pure ()
    · refine (hopts fun p => { p.opts with tasksQueueOptions := _ }).bind fun _ => ?_
      refine Within.bind (tidies_mapNodes ?_) fun _ => Within.bind (tidies_mapNodes ?_) fun _ => tidies_mapNodes ?_ <;>
        exact fun n => rfl
  · exact hopts fun p => { p.opts with tasksQueueOptions := none }

/-- At a key out of range the first test of the loop throws. -/
theorem moves_flushTasksQueue (hcb : CallbacksMove cb) (fuel k : Nat) : Moves (flushTasksQueue cb fuel k) := by
  intro s
  rcases hn : s.workerNodes[k]? with _ | n
  · unfold flushTasksQueue
    cases fuel with
    | zero =>
      rw [wp_bind]
      exact wp_diverge
    | succ fuel =>
      simp only [Eff.whileDo, tasksQueueNotEmpty, wp_bind, wp_nodeAt_none hn]
      exact ⟨0, .refl s 0⟩
  · exact moves_of_reached (flushTasksQueue_moves hcb fuel (.refl s 0) (Pool.lt_of_node hn))

theorem moves_redistributeQueuedTasks (hcb : CallbacksMove cb) (fuel k : Nat) :
    Moves (redistributeQueuedTasks cb fuel k) := by
  intro s
  rcases hn : s.workerNodes[k]? with _ | n
  · unfold redistributeQueuedTasks
    cases fuel with
    | zero => exact wp_diverge
    | succ fuel =>
      simp only [Eff.whileDo, tasksQueueNotEmpty, wp_bind, wp_nodeAt_none hn]
      exact ⟨0, .refl s 0⟩
  · exact moves_of_reached (redistributeQueuedTasks_moves (g := False) hcb fuel (.refl s 0) (Pool.lt_of_node hn))

theorem flows_enableTasksQueue (hcb : CallbacksMove cb) (fuel : Nat) (enable : Bool) (o : TasksQueueOptionsArgument) :
    Flows (enableTasksQueue cb fuel enable o) := by
  have hopts : Within Tidy (Eff.modify fun p => { p with opts.enableTasksQueue := enable } : PoolM Data Response Unit) :=
    within_modify fun p => ⟨⟨0, by simp⟩, rfl, rfl, rfl, le_rfl⟩
  have hrest := flows_of_tidy (hopts.bind fun _ => tidies_setTasksQueueOptions o)
  have hdisable : Flows (disableTasksQueue cb fuel) := by
    refine Flows.bind (flows_of_tidy (tidies_mapNodes ?_)) fun _ => Flows.bind (flows_of_tidy (tidies_mapNodes ?_)) fun _ => ?_
    · exact fun n => rfl
    · exact fun n => rfl
    · exact (flows_of_tidy within_get).bind fun q => .forEach (fun k => (moves_flushTasksQueue hcb fuel k).flows) _
  refine (flows_of_tidy within_get).bind fun p => ?_
  dsimp only
  split
  · exact hdisable.bind fun _ => hrest
  · exact hrest

/-- Without a queue to flush, only options and callbacks change. -/
theorem tidies_enableTasksQueue (fuel : Nat) {enable : Bool} (o : TasksQueueOptionsArgument)
    (h : s.opts.enableTasksQueue = false ∨ enable = true) :
    wp (enableTasksQueue cb fuel enable o) (fun _ => Tidy s) (fun _ => Tidy s) s := by
  have hcond : ¬ (s.opts.enableTasksQueue && !enable) = true := by
    rcases h with h | h <;> simp [h]
  have hopts : Tidy s { s with opts.enableTasksQueue := enable } := ⟨⟨0, by simp⟩, rfl, rfl, rfl, le_rfl⟩
  unfold enableTasksQueue
  simp only [wp_bind, wp_get, if_neg hcond, wp_modify]
  exact wp_mono (tidies_setTasksQueueOptions o _) (fun _ _ ht => hopts.trans ht) fun _ _ ht => hopts.trans ht

/-- The polling loop of a node that has left steals for a key that is out of range. -/
theorem moves_taskStealingOnEmptyQueue (hcb : CallbacksMove cb) (workerId : Nat) :
    Moves (taskStealingOnEmptyQueue cb workerId) := by
  intro s
  by_cases hk : s.getWorkerNodeKeyByWorkerId workerId < s.workerNodes.length
  · exact moves_of_reached (taskStealingOnEmptyQueue_moves (g := False) hcb workerId (.refl s 0) hk)
  · simp only [taskStealingOnEmptyQueue, wp_bind, wp_get]
    rcases hs : emptyQueueStealSource s workerId with _ | ⟨n, source⟩
    · exact (wp_pure ()).2 (.refl s 0)
    · obtain ⟨hn, -, -, hne⟩ := emptyQueueStealSource_some hs
      have hq := (List.dropLast_append_getLast hne).symm
      simp only [wp_bind]
      refine wp_mono (popTask_moves (g := False) hcb (.refl s 0) hn hq) (fun r s' hr => ?_) fun _ _ hf => hf.elim
      obtain ⟨rfl, hr⟩ := hr
      have hnone : s'.workerNodes[s.getWorkerNodeKeyByWorkerId workerId]? = none := by
        rw [List.getElem?_eq_none_iff, hr.frame.length]
        exact not_lt.1 hk
      simp only [dispatchStolenTask, executeOrEnqueueTask, shallExecuteTask, wp_bind, wp_nodeAt_none hnone]
      exact ⟨_, hr⟩

theorem moves_onEmptyQueue (fuel workerId : Nat) :
    Moves ((callbacks fuel : Callbacks Data Response).onEmptyQueue workerId) := by
  cases fuel with
  | zero => exact fun s => wp_diverge
  | succ fuel => exact moves_taskStealingOnEmptyQueue (callbacks_move fuel) workerId

theorem flows_pollingTick (fuel workerId : Nat) :
    Flows (pollingTick (callbacks fuel) workerId : PoolM Data Response Unit) := by
  have hremoved (i : Nat) (f : WorkerNode Data → WorkerNode Data) (hf : ∀ n, (f n).worker = n.worker)
      (p : Pool Data Response) : Tidy p { p with removedNodes := p.removedNodes.modify i f } :=
    ⟨⟨0, by simp⟩, map_modify_same fun n _ => hf n, rfl, rfl, le_rfl⟩
  intro s
  by_cases hk : s.getWorkerNodeKeyByWorkerId workerId < s.workerNodes.length
  · have hid := (s.key_lt_iff workerId).1 hk
    exact wp_mono (pollingTick_moves (g := False) (callbacks_move fuel) (.refl s 0) hid) (fun _ _ hr => .of_reached hr)
      fun _ _ hf => hf.elim
  · simp only [pollingTick, wp_bind, wp_get, if_neg hk]
    split
    · exact (wp_pure ()).2 (.refl _)
    · rename_i i hi
      refine (show Flows (pollingTick.removedNodeTick (callbacks fuel) i workerId) from ?_) s
      refine (flows_of_tidy within_get).bind fun p => ?_
      split
      · exact flows_of_tidy (within_pure ())
      · split
        · exact (flows_of_tidy (within_modify (hremoved i _ fun n => by rfl)))
        · refine Flows.bind (flows_of_tidy (within_modify (hremoved i _ fun n => by rfl))) fun _ => ?_
          split
          · refine (moves_onEmptyQueue fuel workerId).flows.swallow fun q => ?_
            exact hremoved i _ (fun n => by rfl) { q with errorsCaught := q.errorsCaught + 1 }
          · exact flows_of_tidy (within_pure ())

theorem flows_destroyWorkerNode (hcb : CallbacksMove cb) (fuel k : Nat) (reason : DestroyReason) :
    Flows (destroyWorkerNode cb fuel k reason) := by
  refine (moves_flushTasksQueue hcb fuel k).flows.bind fun _ => (flows_of_tidy (tidies_nodeAt k)).bind fun n => ?_
  split
  · exact flows_of_tidy (tidies_modifyNode k fun n => by rfl)
  · exact flows_of_tidy (within_throw _)

theorem flows_destroyWorkerNodeCaught (hcb : CallbacksMove cb) (fuel k : Nat) (reason : DestroyReason) :
    Flows (destroyWorkerNodeCaught cb fuel k reason) :=
  (flows_destroyWorkerNode hcb fuel k reason).swallow fun _ => .refl _

theorem flows_handleKillRequest (hcb : CallbacksMove cb) (fuel k : Nat) (behavior : KillBehavior) :
    Flows (handleKillRequest cb fuel k behavior) := by
  refine (flows_of_tidy (tidies_nodeAt k)).bind fun n => (flows_of_tidy within_get).bind fun p => ?_
  cases behavior with
  | hard => exact flows_destroyWorkerNodeCaught hcb fuel k _
  | soft =>
    dsimp only
    split
    · exact flows_destroyWorkerNodeCaught hcb fuel k _
    · exact flows_of_tidy (within_pure ())

theorem flows_destroy (hcb : CallbacksMove cb) (fuel : Nat) : Flows (destroy cb fuel) := by
  have hflag : Within Tidy (Eff.modify fun p => { p with destroying := true } : PoolM Data Response Unit) :=
    within_modify fun p => ⟨⟨0, by simp⟩, rfl, rfl, rfl, le_rfl⟩
  refine (flows_of_tidy hflag).bind fun _ => (flows_of_tidy within_get).bind fun p => ?_
  exact .forEach (fun k => flows_destroyWorkerNodeCaught hcb fuel k _) _

theorem flows_handleError (hcb : CallbacksMove cb) (fuel workerId : Nat) : Flows (handleError cb fuel workerId) := by
  refine (flows_of_tidy within_get).bind fun p => (flows_of_tidy (tidies_nodeAt _)).bind fun n => ?_
  refine Flows.bind (flows_of_tidy (tidies_modifyNode _ fun n => by rfl)) fun _ => ?_
  have hlast : Flows (if (p.started && p.opts.enableTasksQueue) = true then
      redistributeQueuedTasks cb fuel (p.getWorkerNodeKeyByWorkerId workerId) else pure ()) := by
    split
    · exact (moves_redistributeQueuedTasks hcb fuel _).flows
    · exact flows_of_tidy (within_pure ())
  dsimp only
  split
  · split
    · exact (flows_of_tidy tidies_createAndSetupDynamicWorkerNode).bind fun _ => hlast
    · exact (flows_of_tidy tidies_createAndSetupWorkerNode).bind fun _ => hlast
  · exact hlast

end Handlers

/-! ## Events -/

/-- Events whose code throws, if it does, before it has a task in hand: calls and messages that are refused,
checks of options, starts. -/
def Harmless (s : Pool Data Response) : Event Data Response → Prop
  | .execute _ name _ choice => ¬ (s.started = true ∧ name.any isBlank = false ∧
      (s.shallCreateDynamicWorker = true ∨ ∃ k, choice = .key k))
  | .message w (.taskResponse _) => s.workerNodes[s.getWorkerNodeKeyByWorkerId w]? = none
  | .message w (.killRequest _) => s.workerNodes[s.getWorkerNodeKeyByWorkerId w]? = none
  | .error w => s.workerNodes[s.getWorkerNodeKeyByWorkerId w]? = none
  | .enableTasksQueue enable _ => s.opts.enableTasksQueue = false ∨ enable = true
  | .poll _ => False
  | .destroy => False
  | _ => True

/-- A call that touches no task but its own: it sends it at once, or has no node to send it to. -/
def SentAtOnce (s : Pool Data Response) : Event Data Response → Prop
  | .execute _ _ _ (.key k) => s.shallCreateDynamicWorker = false ∧
      (s.opts.enableTasksQueue = true → ∀ n ∈ s.workerNodes[k]?, s.shallExecute n = true)
  | _ => False

/-- A response to a promise that names a key out of range. -/
def Dangling (s : Pool Data Response) : Event Data Response → Prop
  | .message _ (.taskResponse m) => ∃ k, s.promiseResponseMap.lookup m.taskId = some k ∧ s.workerNodes[k]? = none
  | _ => False

/-- Events that leave every task where it is but their own, where their code throws. -/
def Spares (s : Pool Data Response) (e : Event Data Response) : Prop := Harmless s e ∨ SentAtOnce s e ∨ Dangling s e

/-- The pool after the node at a key has left it. -/
def Pool.removeNode (p : Pool Data Response) (k : Nat) (n : WorkerNode Data) : Pool Data Response :=
  { p with workerNodes := p.workerNodes.eraseIdx k, removedNodes := p.removedNodes ++ [n] }

/-- What an event does to the tasks and the promises of the pool `s`, and how its code ends. -/
inductive Effect (s : Pool Data Response) : Event Data Response → Except JsError Unit → Pool Data Response → Prop
  /-- Tasks move; an exception finds none in hand. -/
  | flows {e r s'} : Flow (s, 0) (s', 0) → Effect s e r s'
  /-- An exception ends code that has tasks in hand. -/
  | fails {e x s'} (lost) : ¬ Spares s e → Flow (s, 0) (s', lost) → Effect s e (.error x) s'
  | refused {taskId name data choice x s₁} : Flow (s, 0) (s₁, 0) →
      Effect s (.execute taskId name data choice) (.error x) (s₁.settle taskId (.thrown x))
  | called {taskId name data choice s₁ s'} (t k) : t.taskId = taskId → Flow (s, 0) (s₁, 0) →
      Flow (s₁.withPromise taskId k, {t}) (s', 0) → Effect s (.execute taskId name data choice) (.ok ()) s'
  /-- The promise is rejected, but its entry stays. -/
  | callFails {taskId name data choice x s₁ s₂} (t k lost) : ¬ Harmless s (.execute taskId name data choice) →
      t.taskId = taskId → Flow (s, 0) (s₁, 0) → Flow (s₁.withPromise taskId k, {t}) (s₂, lost) →
      (SentAtOnce s (.execute taskId name data choice) → s₂.placed = s.placed) →
      Effect s (.execute taskId name data choice) (.error x) (s₂.settle taskId (.thrown x))
  | answered {w m r s' n} (k lost) : s.workerNodes[s.getWorkerNodeKeyByWorkerId w]? = some n →
      s.promiseResponseMap.lookup m.taskId = some k → k < s.workerNodes.length →
      Flow (s.responded w m k, 0) (s', lost) →
      (r = .ok () → lost = 0) → Effect s (.message w (.taskResponse m)) r s'
  /-- The response of a worker to a task whose promise has ended. -/
  | unknownTask {w m n} : s.workerNodes[s.getWorkerNodeKeyByWorkerId w]? = some n →
      s.promiseResponseMap.lookup m.taskId = none →
      Effect s (.message w (.taskResponse m)) (.ok ()) (s.modifyNode (s.getWorkerNodeKeyByWorkerId w) (·.answer m.taskId))
  /-- The promise names a key out of range: it ends, and its entry stays. -/
  | dangling {w m x n} (k) : s.workerNodes[s.getWorkerNodeKeyByWorkerId w]? = some n →
      s.promiseResponseMap.lookup m.taskId = some k → s.workerNodes[k]? = none →
      Effect s (.message w (.taskResponse m)) (.error x)
        ((s.modifyNode (s.getWorkerNodeKeyByWorkerId w) (·.answer m.taskId)).settle m.taskId m.settlement)
  | left {w n} : s.workerNodes[s.getWorkerNodeKeyByWorkerId w]? = some n →
      Effect s (.exit w) (.ok ()) (s.removeNode (s.getWorkerNodeKeyByWorkerId w) n)

section Events
variable {s s' : Pool Data Response} {e : Event Data Response} {m : PoolM Data Response Unit}

/-- Code that flows, at an event that may lose what it has in hand. -/
theorem effect_of_flows (hm : Flows m) (he : ¬ Spares s e) :
    wp m (fun _ s' => Effect s e (.ok ()) s') (fun x s' => Effect s e (.error x) s') s := by
  refine wp_mono (hm s) (fun _ _ hf => .flows hf) fun x s' hf => ?_
  obtain ⟨lost, hf⟩ := hf
  exact .fails lost he hf

/-- Code that tidies, whatever event it is run for. -/
theorem effect_of_tidies (hm : wp m (fun _ => Tidy s) (fun _ => Tidy s) s) :
    wp m (fun _ s' => Effect s e (.ok ()) s') (fun x s' => Effect s e (.error x) s') s :=
  wp_mono hm (fun _ _ ht => .flows (.tidy ht 0)) fun _ _ ht => .flows (.tidy ht 0)

/-- A task that is sent at once leaves the places of the others alone, though sending it fails. -/
theorem placed_of_sentAtOnce {cb : Callbacks Data Response} {k : Nat} (t : Task Data)
    (hs : s.opts.enableTasksQueue = true → ∀ n ∈ s.workerNodes[k]?, s.shallExecute n = true) :
    wp (dispatchTask cb k t) (fun _ _ => True) (fun _ s' => s'.placed = s.placed) s := by
  rcases hn : s.workerNodes[k]? with _ | n
  · rw [wp_dispatchTask_unknown hn]
  · have hsend : wp (executeTask k t) (fun _ _ => True) (fun _ s' => s'.placed = s.placed) s := by
      rcases hc : s.canSend n t with _ | _
      · refine wp_executeTask_throws hn hc fun _ => ?_
        exact Pool.placed_modifyNode_same fun m _ => held_beforeTaskExecution _ _ _ m
      · rw [wp_executeTask hn hc]
        trivial
    simp only [dispatchTask, wp_bind, wp_get]
    split
    · simp only [executeOrEnqueueTask, wp_bind, wp_shallExecuteTask hn, hs ‹_› n hn, if_true]
      exact hsend
    · exact hsend

theorem execute_effect (fuel taskId : Nat) (name : Option String) (data : Data) (choice : Choice) :
    wp (execute (callbacks fuel) taskId name data choice)
      (fun _ s' => Effect s (.execute taskId name data choice) (.ok ()) s')
      (fun x s' => Effect s (.execute taskId name data choice) (.error x) s') s := by
  have hids : Tidy s { s with uuids := taskId :: s.uuids } := ⟨⟨0, by simp⟩, rfl, rfl, rfl, le_rfl⟩
  refine wp_execute (fun e s₁ hg _ => ?_) fun k s₁ hg hkey hfixed hst hname => ?_
  · exact .refused (.tidy (hids.trans (.of_grown hg)) 0)
  · have hflow : Flow (s, 0) (s₁, 0) := .tidy (hids.trans (.of_grown hg)) 0
    have hnot : ¬ Harmless s (.execute taskId name data choice) := by
      refine not_not.2 ⟨hst, hname, ?_⟩
      rcases hc : s.shallCreateDynamicWorker with _ | _
      · exact .inr ⟨k, (hfixed hc).2⟩
      · exact .inl rfl
    -- what is sent at once is sent by the pool as it was
    have hdirect : SentAtOnce s (.execute taskId name data choice) →
        wp (dispatchTask (callbacks fuel) k ⟨name.getD defaultTaskName, data, s.now, taskId⟩) (fun _ _ => True)
          (fun _ s' => s'.placed = s.placed) (s₁.withPromise taskId k) := by
      intro hs
      cases choice with
      | none r => exact hs.elim
      | key j =>
        obtain ⟨rfl, hj⟩ := hfixed hs.1
        cases hj
        exact placed_of_sentAtOnce _ hs.2
    rcases hk : s₁.workerNodes[k]? with _ | n
    · rw [wp_dispatchTask_unknown (s := s₁.withPromise taskId k) hk]
      refine .callFails ⟨name.getD defaultTaskName, data, s.now, taskId⟩ k _ hnot rfl hflow (.refl _) fun hs => ?_
      exact (wp_dispatchTask_unknown (s := s₁.withPromise taskId k) hk).1 (hdirect hs)
    · have hmoves := dispatchTask_moves (g := False) (callbacks_move fuel)
        (Reached.refl (s₁.withPromise taskId k) {⟨name.getD defaultTaskName, data, s.now, taskId⟩}) (h := 0)
        (Pool.lt_of_node hk) False.elim
      by_cases hs : SentAtOnce s (.execute taskId name data choice)
      · refine wp_mono (wp_and hmoves (hdirect hs)) (fun _ _ hr => ?_) fun x s₂ hf => ?_
        · exact .called _ k rfl hflow (.of_reached hr.1)
        · obtain ⟨⟨-, lost, hr⟩, hplaced⟩ := hf
          exact .callFails _ k _ hnot rfl hflow (.of_reached hr) fun _ => hplaced
      · refine wp_mono hmoves (fun _ _ hr => ?_) fun x s₂ hf => ?_
        · exact .called _ k rfl hflow (.of_reached hr)
        · obtain ⟨-, lost, hr⟩ := hf
          exact .callFails _ k _ hnot rfl hflow (.of_reached hr) fun h => absurd h hs

theorem taskResponse_effect {fuel w : Nat} {m : TaskResponse Response} {n : WorkerNode Data}
    (hn : s.workerNodes[s.getWorkerNodeKeyByWorkerId w]? = some n) :
    wp (handleTaskExecutionResponse (callbacks fuel) m)
      (fun _ s' => Effect s (.message w (.taskResponse m)) (.ok ()) s')
      (fun x s' => Effect s (.message w (.taskResponse m)) (.error x) s')
      (s.modifyNode (s.getWorkerNodeKeyByWorkerId w) (·.answer m.taskId)) := by
  generalize hs₁ : s.modifyNode (s.getWorkerNodeKeyByWorkerId w) (·.answer m.taskId) = s₁
  have hmap : s₁.promiseResponseMap = s.promiseResponseMap := by
    rw [← hs₁]
    rfl
  rcases hl : s.promiseResponseMap.lookup m.taskId with _ | k
  · rw [wp_response_unknown (by rw [hmap, hl]), ← hs₁]
    exact .unknownTask hn hl
  · rcases hk : s₁.workerNodes[k]? with _ | a
    · have hk' : s.workerNodes[k]? = none := by
        rw [← hs₁, Pool.getElem?_modifyNode, Option.map_eq_none_iff] at hk
        exact hk
      rw [wp_response_dangling (by rw [hmap, hl]) hk, ← hs₁]
      exact .dangling k hn hl hk'
    · rw [wp_response (by rw [hmap, hl]) hk]
      have hresponded : s₁.answered m k = s.responded w m k := by
        rw [← hs₁]
        rfl
      rw [hresponded]
      have hlen : k < s.workerNodes.length := by
        have := Pool.lt_of_node hk
        rwa [← hs₁, Pool.length_modifyNode] at this
      have hlt : k < (s.responded w m k).workerNodes.length := by
        simpa only [Pool.length_responded] using hlen
      refine wp_mono (executeNextTask_moves (callbacks_move fuel) (Reached.refl (s.responded w m k) 0) hlt)
        (fun _ s' hr => ?_) fun x s' hf => ?_
      · exact .answered k 0 hn hl hlen (.of_reached hr) fun _ => rfl
      · obtain ⟨-, lost, hr⟩ := hf
        exact .answered k _ hn hl hlen (.of_reached hr) (by rintro ⟨⟩)

/-- What every event does. -/
theorem handle_effect (fuel : Nat) (e : Event Data Response) :
    wp (handle fuel e) (fun _ s' => Effect s e (.ok ()) s') (fun x s' => Effect s e (.error x) s') s := by
  have hcb : CallbacksMove (callbacks fuel : Callbacks Data Response) := callbacks_move fuel
  cases e with
  | execute taskId name data choice => exact execute_effect fuel taskId name data choice
  | message w message =>
    rcases hn : s.workerNodes[s.getWorkerNodeKeyByWorkerId w]? with _ | n
    · exact wp_message_unknown hn fun x => .flows (.refl _)
    · refine wp_message hn (fun names _ => ?_) (fun names x _ => .flows (.refl _)) (fun names _ => ?_) ?_ ?_
        (fun _ _ _ => .flows (.refl _)) (fun _ => ?_) fun _ => .flows (.refl _)
      · exact .flows (.tidy (.modifyNode s _ fun a => by rfl) 0)
      · exact .flows (.tidy (.modifyNode s _ fun a => by rfl) 0)
      · rintro m rfl
        exact taskResponse_effect hn
      · rintro behavior rfl -
        refine effect_of_flows (flows_handleKillRequest hcb fuel _ behavior) ?_
        rintro (h | h | h)
        · rw [Harmless, hn] at h
          cases h
        · exact h
        · exact h
      · exact .flows (.tidy (.modifyNode s _ fun a => by rfl) 0)
  | poll w => exact effect_of_flows (flows_pollingTick fuel w) fun h => h.elim id (Or.elim · id id)
  | error w =>
    rcases hn : s.workerNodes[s.getWorkerNodeKeyByWorkerId w]? with _ | n
    · simp only [handle, handleError, wp_bind, wp_get, wp_nodeAt_none hn]
      exact .flows (.refl _)
    · refine effect_of_flows (flows_handleError hcb fuel w) ?_
      rintro (h | h | h)
      · rw [Harmless, hn] at h
        cases h
      · exact h
      · exact h
  | exit w =>
    simp only [handle, removeWorkerNode, wp_modify]
    rcases hn : s.workerNodes[s.getWorkerNodeKeyByWorkerId w]? with _ | n
    · exact .flows (.refl _)
    · exact .left hn
  | start => exact effect_of_tidies (tidies_start fuel s)
  | enableTasksQueue enable o =>
    by_cases h : s.opts.enableTasksQueue = false ∨ enable = true
    · exact effect_of_tidies (tidies_enableTasksQueue fuel o h)
    · exact effect_of_flows (flows_enableTasksQueue hcb fuel enable o) fun hs => hs.elim h (Or.elim · id id)
  | setTasksQueueOptions o => exact effect_of_tidies (tidies_setTasksQueueOptions o s)
  | destroy => exact effect_of_flows (flows_destroy hcb fuel) fun h => h.elim id (Or.elim · id id)
  | destroyed => exact effect_of_tidies ((wp_modify _).2 ⟨⟨0, by simp⟩, rfl, rfl, rfl, le_rfl⟩)

theorem effect_of_handle {fuel : Nat} (hm : handle fuel e s = some (r, s')) : Effect s e r s' := by
  have heffect := handle_effect (s := s) fuel e
  cases r with
  | ok a =>
    have h := wp_ok heffect hm
    exact h
  | error x =>
    have h := wp_error heffect hm
    exact h

end Events

end Poolifier
