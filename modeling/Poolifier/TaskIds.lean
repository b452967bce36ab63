import Mathlib.Algebra.Order.BigOperators.Group.List
import Mathlib.Data.Multiset.OrderedMonoid
import Poolifier.Leaving
import Poolifier.Outline
/-!
# Task ids

A call of `execute` draws an id that no call has drawn before, so two tasks that
wait or are in flight never share one, and a response that can arrive is to the
task in flight that has its id. `Accounts` says what an event does to ids: which
it draws, which it answers, and that no task comes from elsewhere.
-/

namespace Poolifier

open EffLib RunLib WorkerNode

variable {Data Response : Type}

/-! ## Ids that are drawn -/

/-- The id an event draws. -/
def Event.drawnIds : Event Data Response → List Nat
  | .execute taskId _ _ _ => [taskId]
  | _ => []

def SameIds (p p' : Pool Data Response) : Prop := p'.uuids = p.uuids

instance : IsPreorder (Pool Data Response) SameIds where
  refl _ := rfl
  trans _ _ _ h h' := Eq.trans h' h

section Ids
variable {s s' : Pool Data Response} {cb : Callbacks Data Response} {e : Event Data Response}

theorem covers_sameIds : Covers (SameIds : Pool Data Response → Pool Data Response → Prop) where
  frame h := by
    unfold SameIds
    rw [h.rest]
  node _ _ _ _ := rfl
  rest h := by
    unfold SameIds
    rw [h]

theorem Grown.sameIds {p p' : Pool Data Response} (h : Grown p p') : SameIds p p' := by
  unfold SameIds
  rw [h.rest]

theorem sameIds_createAndSetupWorkerNode : EffLib.Within SameIds (createAndSetupWorkerNode : PoolM Data Response Nat) := by
  intro s
  refine wp_mono createAndSetupWorkerNode_joins (fun k s' hk => hk.2.2.grown.sameIds) fun _ s' hs' => ?_
  rw [hs'.2]
  exact refl_of SameIds s

theorem sameIds_createAndSetupDynamicWorkerNode :
    EffLib.Within SameIds (createAndSetupDynamicWorkerNode : PoolM Data Response Nat) := by
  intro s
  refine wp_mono createAndSetupDynamicWorkerNode_grows (fun k s' hk => hk.2.2.sameIds) fun _ s' hs' => ?_
  rw [hs']
  exact refl_of SameIds s

theorem sameIds_handleError (hcb : CallbacksMove cb) (fuel w : Nat) : EffLib.Within SameIds (handleError cb fuel w) := by
  refine within_get.bind fun p => (within_nodeAt _).bind fun n => ?_
  refine EffLib.Within.bind (within_modify fun p => rfl) fun _ => ?_
  have hlast : EffLib.Within SameIds (if (p.started && p.opts.enableTasksQueue) = true then
      redistributeQueuedTasks cb fuel (p.getWorkerNodeKeyByWorkerId w) else pure ()) := by
    split
    · exact (moves_redistributeQueuedTasks hcb fuel _).within covers_sameIds
    · exact within_pure ()
  dsimp only
  split
  · split
    · exact sameIds_createAndSetupDynamicWorkerNode.bind fun _ => hlast
    · exact sameIds_createAndSetupWorkerNode.bind fun _ => hlast
  · exact hlast

theorem sameIds_setTasksQueueOptions (o : TasksQueueOptionsArgument) :
    EffLib.Within SameIds (setTasksQueueOptions o : PoolM Data Response Unit) := by
  refine within_get.bind fun p => ?_
  split
  · refine EffLib.Within.bind ?_ fun _ => EffLib.Within.bind (within_modify fun p => rfl) fun _ => ?_
    · rcases checkValidTasksQueueOptions o with e | _
      · exact within_throw e
      · exact within_pure ()
    · refine EffLib.Within.bind (within_modify fun p => rfl) fun _ => EffLib.Within.bind (within_modify fun p => rfl) fun _ => ?_
      exact within_modify fun p => rfl
  · exact within_modify fun p => rfl

theorem sameIds_enableTasksQueue (hcb : CallbacksMove cb) (fuel : Nat) (enable : Bool) (o : TasksQueueOptionsArgument) :
    EffLib.Within SameIds (enableTasksQueue cb fuel enable o) := by
  have hflush : EffLib.Within SameIds (flushTasksQueues cb fuel) :=
    within_get.bind fun p => .forEach (fun k => (moves_flushTasksQueue hcb fuel k).within covers_sameIds) _
  have hdisable : EffLib.Within SameIds (disableTasksQueue cb fuel) :=
    EffLib.Within.bind (within_modify fun p => rfl) fun _ => EffLib.Within.bind (within_modify fun p => rfl) fun _ => hflush
  refine within_get.bind fun p => ?_
  dsimp only
  split
  · exact hdisable.bind fun _ => EffLib.Within.bind (within_modify fun p => rfl) fun _ => sameIds_setTasksQueueOptions o
  · exact EffLib.Within.bind (within_modify fun p => rfl) fun _ => sameIds_setTasksQueueOptions o

theorem sameIds_start (fuel : Nat) : EffLib.Within SameIds (start fuel : PoolM Data Response Unit) := by
  intro s
  exact wp_mono (start_grows fuel) (fun _ _ hg => hg.sameIds) fun _ _ hg => hg.sameIds

theorem execute_draws (fuel taskId : Nat) (name : Option String) (data : Data) (choice : Choice) :
    wp (execute (callbacks fuel) taskId name data choice) (fun _ s' => s'.uuids = taskId :: s.uuids)
      (fun _ s' => s'.uuids = taskId :: s.uuids) s := by
  have hsettle (x : JsError) {s' : Pool Data Response} (h : s'.uuids = taskId :: s.uuids) :
      (s'.settle taskId (.thrown x)).uuids = taskId :: s.uuids := by
    rw [Pool.settle_rest]
    exact h
  refine wp_execute (fun x s₁ hg _ => hsettle x hg.sameIds) fun k s₁ hg _ _ _ _ => ?_
  have hdrawn : (s₁.withPromise taskId k).uuids = taskId :: s.uuids := hg.sameIds
  exact wp_mono (covers_sameIds.dispatchTask (callbacks_move fuel) k _ _) (fun _ _ h => Eq.trans h hdrawn)
    fun x _ h => hsettle x (Eq.trans h hdrawn)

/-- Only a call draws an id, however it ends. -/
theorem handle_draws (fuel : Nat) (e : Event Data Response) :
    wp (handle fuel e) (fun _ s' => s'.uuids = e.drawnIds ++ s.uuids) (fun _ s' => s'.uuids = e.drawnIds ++ s.uuids) s := by
  have hcb : CallbacksMove (callbacks fuel : Callbacks Data Response) := callbacks_move fuel
  cases e with
  | execute taskId name data choice => exact execute_draws fuel taskId name data choice
  | message w message => exact covers_sameIds.handleMessage hcb fuel w message s
  | poll w => exact covers_sameIds.pollingTick fuel w s
  | error w => exact sameIds_handleError hcb fuel w s
  | exit w =>
    refine within_modify (R := SameIds) (fun p => ?_) s
    split <;> rfl
  | start => exact sameIds_start fuel s
  | enableTasksQueue enable o => exact sameIds_enableTasksQueue hcb fuel enable o s
  | setTasksQueueOptions o => exact sameIds_setTasksQueueOptions o s
  | destroy => exact covers_sameIds.destroy hcb fuel s
  | destroyed => exact (wp_modify _).2 rfl

theorem step_draws (h : Step s e s') : s'.uuids = e.drawnIds ++ s.uuids := by
  obtain ⟨-, fuel, now, r, hr⟩ := h
  have hw := wp_any (handle_draws (s := { s with now }) fuel e) hr
  exact hw

end Ids

/-! ## Tasks that wait, and tasks in flight -/

/-- The tasks that wait in the queues of a pool. -/
def Pool.waiting (p : Pool Data Response) : Multiset (Task Data) :=
  (p.workerNodes.map fun n => (↑n.tasksQueue : Multiset (Task Data))).sum

/-- The tasks that workers of a pool have been sent and have not answered. -/
def Pool.inFlight (p : Pool Data Response) : Multiset (Task Data) :=
  (p.workerNodes.map fun n => (↑n.worker.unanswered : Multiset (Task Data))).sum

theorem Pool.placed_eq (p : Pool Data Response) : p.placed = p.waiting + p.inFlight := by
  unfold placed waiting inFlight
  induction p.workerNodes with
  | nil => rfl
  | cons n l ih =>
    simp only [List.map_cons, List.sum_cons, ih, held]
    abel

theorem Pool.mem_waiting {p : Pool Data Response} {t : Task Data} :
    t ∈ p.waiting ↔ ∃ n ∈ p.workerNodes, t ∈ n.tasksQueue := by
  unfold waiting
  induction p.workerNodes with
  | nil => simp
  | cons n l ih => simp [ih]

theorem Pool.mem_inFlight {p : Pool Data Response} {t : Task Data} :
    t ∈ p.inFlight ↔ ∃ n ∈ p.workerNodes, t ∈ n.worker.unanswered := by
  unfold inFlight
  induction p.workerNodes with
  | nil => simp
  | cons n l ih => simp [ih]

/-- A change of one node that takes tasks from it, or leaves it its tasks. -/
theorem sum_map_modify_le {α M : Type} [AddCommMonoid M] [PartialOrder M] [IsOrderedCancelAddMonoid M] (g : α → M)
    {l : List α} {i : Nat} {f : α → α} (hf : ∀ a, g (f a) ≤ g a) : ((l.modify i f).map g).sum ≤ (l.map g).sum := by
  rcases ha : l[i]? with _ | a
  · rw [List.modify_eq_self (List.getElem?_eq_none_iff.1 ha)]
  · have hsum := sum_map_modify g ha f
    refine le_of_add_le_add_right (a := g a) ?_
    rw [hsum]
    exact add_le_add_right (hf a) _

theorem Pool.placed_modifyNode_le (p : Pool Data Response) (k : Nat) {f : WorkerNode Data → WorkerNode Data}
    (hf : ∀ n, (f n).held ≤ n.held) : (p.modifyNode k f).placed ≤ p.placed :=
  sum_map_modify_le held hf

theorem Pool.waiting_modifyNode {p : Pool Data Response} {k : Nat} {n : WorkerNode Data} (h : p.workerNodes[k]? = some n)
    (f : WorkerNode Data → WorkerNode Data) :
    (p.modifyNode k f).waiting + ↑n.tasksQueue = p.waiting + ↑(f n).tasksQueue :=
  sum_map_modify _ h f

theorem Pool.waiting_modifyNode_same (p : Pool Data Response) (k : Nat) {f : WorkerNode Data → WorkerNode Data}
    (hf : ∀ n, p.workerNodes[k]? = some n → (f n).tasksQueue = n.tasksQueue) : (p.modifyNode k f).waiting = p.waiting := by
  unfold waiting modifyNode
  rw [map_modify_same fun n hn => ?_]
  rw [hf n hn]

theorem held_answer_le (taskId : Nat) (n : WorkerNode Data) : (n.answer taskId).held ≤ n.held := by
  refine add_le_add_right ?_ _
  exact Multiset.coe_le.2 List.eraseP_sublist.subperm

/-! ## What moves do to them -/

/-- What waits or is in hand has waited or been in hand. -/
theorem Move.waiting {g lossy : Prop} {a b : Config Data Response} (hm : Move g lossy a b) :
    b.1.waiting + b.2 ≤ a.1.waiting + a.2 := by
  cases hm with
  | @book p h i f hf =>
    refine (congrArg (· + h) (Pool.waiting_modifyNode_same p i fun n hn => ?_)).le
    exact (hf n hn).tasksQueue
  | @shift p h i n t q hn hq =>
    have hsum := Pool.waiting_modifyNode hn fun n => { n with tasksQueue := n.tasksQueue.tail }
    rw [hq, ← Multiset.cons_coe, ← Multiset.singleton_add, List.tail_cons, ← add_assoc] at hsum
    rw [← Multiset.singleton_add, ← add_assoc, add_right_cancel hsum]
  | @pop p h i n t q hn hq =>
    have hsum := Pool.waiting_modifyNode hn fun n => { n with tasksQueue := n.tasksQueue.dropLast }
    rw [hq, List.dropLast_concat, ← Multiset.coe_add, Multiset.coe_singleton, add_comm (↑q : Multiset (Task Data)),
      ← add_assoc] at hsum
    rw [← Multiset.singleton_add, ← add_assoc, add_right_cancel hsum]
  | @push p h i n t hn hs =>
    have hsum := Pool.waiting_modifyNode hn fun n => { n with tasksQueue := n.tasksQueue ++ [t] }
    rw [← Multiset.coe_add, Multiset.coe_singleton, add_comm (↑n.tasksQueue : Multiset (Task Data)), ← add_assoc] at hsum
    rw [← Multiset.singleton_add, ← add_assoc, add_right_cancel hsum]
  | @send p h i n t hn hg hs =>
    rw [← Multiset.singleton_add]
    refine add_le_add ?_ (Multiset.le_add_left h {t})
    exact (Pool.waiting_modifyNode_same p i fun n _ => startTask_tasksQueue p t n).le
  | @fail p h i t hl =>
    refine (congrArg (· + h) (Pool.waiting_modifyNode_same p i fun n _ => ?_)).le
    exact beforeTaskExecution_tasksQueue _ _ _ n
  | @drop p h lost hl => exact add_le_add_right (Multiset.le_add_right h lost) _

theorem waiting_of_work {p p' : Pool Data Response} (hw : p'.workerNodes.map work =
    p.workerNodes.map work ++ List.replicate m (⟨[], []⟩, [])) : p'.waiting = p.waiting := by
  have hqueues (q : Pool Data Response) : q.waiting =
      ((q.workerNodes.map work).map fun w => (↑w.2 : Multiset (Task Data))).sum := by
    unfold Pool.waiting
    rw [List.map_map]
    rfl
  rw [hqueues, hqueues, hw, List.map_append, List.sum_append, List.map_replicate, List.sum_replicate]
  exact (congrArg (_ + ·) (nsmul_zero m)).trans (add_zero _)

/-- A flow brings no task. -/
theorem Flow.le {a b : Config Data Response} (hf : Flow a b) :
    b.1.placed + b.2 ≤ a.1.placed + a.2 ∧ b.1.waiting + b.2 ≤ a.1.waiting + a.2 := by
  refine RunLib.inv_of_chain (I := fun d => d.1.placed + d.2 ≤ a.1.placed + a.2 ∧ d.1.waiting + d.2 ≤ a.1.waiting + a.2)
    (fun d e hstep hd => ?_) hf ⟨le_rfl, le_rfl⟩
  rcases hstep with hm | ⟨ht, hhand⟩
  · obtain ⟨lost, hplaced, -⟩ := hm.placed
    refine ⟨le_trans ?_ hd.1, hm.waiting.trans hd.2⟩
    rw [← hplaced]
    exact Multiset.le_add_right _ _
  · obtain ⟨m, hm⟩ := ht.work
    rw [placed_of_work hm, waiting_of_work hm, hhand]
    exact hd

/-! ## What events do to them -/

/-- The event is the response of a worker of the pool to the task with the id. -/
def Answers (s : Pool Data Response) (e : Event Data Response) (taskId : Nat) : Prop :=
  ∃ w m, e = .message w (.taskResponse m) ∧ m.taskId = taskId ∧
    ∃ n, s.workerNodes[s.getWorkerNodeKeyByWorkerId w]? = some n

/-- Tasks come with the ids the event draws only. They are entered in the promise map, and only what is answered
leaves it; only what is drawn or answered ends. -/
structure Accounts (s : Pool Data Response) (e : Event Data Response) (s' : Pool Data Response)
    (new : Multiset (Task Data)) : Prop where
  drawn : new.map (·.taskId) ≤ ↑e.drawnIds
  placed : s'.placed ≤ s.placed + new
  waiting : s'.waiting ≤ s.waiting + new
  entered : ∀ t ∈ new, t.taskId ∈ s'.promiseResponseMap.keys
  keys : ∀ i ∈ s.promiseResponseMap.keys, ¬ Answers s e i → i ∈ s'.promiseResponseMap.keys
  settled : ∀ i ∈ s'.settledIds, i ∈ s.settledIds ∨ i ∈ e.drawnIds ∨ Answers s e i

section Effect
variable {s s₁ s' : Pool Data Response} {e : Event Data Response} {r : Except JsError Unit} {h lost : Multiset (Task Data)}

theorem Flow.settledIds {a b : Config Data Response} (hf : Flow a b) : b.1.settledIds = a.1.settledIds := by
  unfold Pool.settledIds
  rw [hf.rest.2.1]

theorem mem_settledIds_settle {p : Pool Data Response} {taskId i : Nat} {x : Settlement Response}
    (hi : i ∈ (p.settle taskId x).settledIds) : i ∈ p.settledIds ∨ i = taskId := by
  unfold Pool.settledIds Pool.settle at hi
  split at hi
  · exact .inl hi
  · rw [List.map_append, List.mem_append] at hi
    exact hi.imp id List.mem_singleton.1

theorem waiting_settle (p : Pool Data Response) (taskId : Nat) (x : Settlement Response) :
    (p.settle taskId x).waiting = p.waiting := by
  unfold Pool.waiting
  rw [Pool.settle_workerNodes]

theorem keys_settle (p : Pool Data Response) (taskId : Nat) (x : Settlement Response) :
    (p.settle taskId x).promiseResponseMap = p.promiseResponseMap := by
  rw [Pool.settle_rest]

/-- Code that flows accounts for every event. -/
theorem Accounts.of_flow (hf : Flow (s, 0) (s', lost)) : Accounts s e s' 0 where
  drawn := Multiset.zero_le _
  placed := by
    have hle := hf.le.1
    exact (Multiset.le_add_right _ lost).trans hle
  waiting := by
    have hle := hf.le.2
    exact (Multiset.le_add_right _ lost).trans hle
  entered t ht := absurd ht (Multiset.notMem_zero t)
  keys i hi _ := by
    rw [hf.rest.1]
    exact hi
  settled i hi := by
    rw [hf.settledIds] at hi
    exact .inl hi

/-- More code flows, and may lose what it has in hand. -/
theorem Accounts.flow {new : Multiset (Task Data)} (ha : Accounts s e s₁ new) (hf : Flow (s₁, 0) (s', lost)) :
    Accounts s e s' new := by
  have hf' : Accounts s₁ e s' 0 := .of_flow hf
  refine ⟨ha.drawn, ?_, ?_, fun t ht => ?_, fun i hi hnot => ?_, fun i hi => ?_⟩
  · have hle := hf'.placed
    rw [add_zero] at hle
    exact hle.trans ha.placed
  · have hle := hf'.waiting
    rw [add_zero] at hle
    exact hle.trans ha.waiting
  · rw [hf.rest.1]
    exact ha.entered t ht
  · rw [hf.rest.1]
    exact ha.keys i hi hnot
  · rw [hf.settledIds] at hi
    exact ha.settled i hi

theorem Accounts.settle {new : Multiset (Task Data)} (ha : Accounts s e s₁ new) {taskId : Nat}
    (hid : taskId ∈ e.drawnIds ∨ Answers s e taskId) (x : Settlement Response) :
    Accounts s e (s₁.settle taskId x) new := by
  refine ⟨ha.drawn, ?_, ?_, ?_, ?_, fun i hi => ?_⟩
  · rw [placed_settle]
    exact ha.placed
  · rw [waiting_settle]
    exact ha.waiting
  · rw [keys_settle]
    exact ha.entered
  · rw [keys_settle]
    exact ha.keys
  · rcases mem_settledIds_settle hi with hi | rfl
    · exact ha.settled i hi
    · exact .inr hid

/-- A call that has got to the dispatch of its task. -/
theorem Accounts.called {t : Task Data} {k : Nat} (ha : Accounts s e s₁ 0) (hid : e.drawnIds = [t.taskId])
    (hf : Flow (s₁.withPromise t.taskId k, {t}) (s', lost)) : Accounts s e s' {t} := by
  have hle := hf.le
  have hmap : s'.promiseResponseMap = s₁.promiseResponseMap.insert t.taskId k := hf.rest.1
  have hplaced := ha.placed
  have hwaiting := ha.waiting
  rw [add_zero] at hplaced hwaiting
  refine ⟨?_, ?_, ?_, fun u hu => ?_, fun i hi hnot => ?_, fun i hi => ?_⟩
  · rw [hid]
    exact le_rfl
  · exact (Multiset.le_add_right _ lost).trans (hle.1.trans (add_le_add_left hplaced _))
  · exact (Multiset.le_add_right _ lost).trans (hle.2.trans (add_le_add_left hwaiting _))
  · rw [Multiset.mem_singleton.1 hu, hmap, ← AList.mem_keys, AList.mem_insert]
    exact .inl rfl
  · rw [hmap, ← AList.mem_keys, AList.mem_insert]
    exact .inr (AList.mem_keys.2 (ha.keys i hi hnot))
  · rw [hf.settledIds] at hi
    exact ha.settled i hi

/-- The response of a worker has been taken in, as far as that worker and the promise go. -/
theorem Accounts.responded {w : Nat} {m : TaskResponse Response} {n : WorkerNode Data}
    (hn : s.workerNodes[s.getWorkerNodeKeyByWorkerId w]? = some n) (k : Nat) :
    Accounts s (.message w (.taskResponse m)) (s.responded w m k) 0 := by
  have hans : Answers s (.message w (.taskResponse m)) m.taskId := ⟨w, m, rfl, rfl, n, hn⟩
  have hafter (a : WorkerNode Data) : (a.afterTaskExecution s.taskStatisticsRequirements m).held = a.held := by
    obtain ⟨u, hu⟩ := afterTaskExecution_eq s.taskStatisticsRequirements m a
    rw [hu]
    rfl
  refine ⟨Multiset.zero_le _, ?_, ?_, fun t ht => absurd ht (Multiset.notMem_zero t), fun i hi hnot => ?_, fun i hi => ?_⟩
  · rw [add_zero]
    calc (s.responded w m k).placed
        = ((s.modifyNode (s.getWorkerNodeKeyByWorkerId w) (·.answer m.taskId)).settle m.taskId m.settlement).placed :=
          Pool.placed_modifyNode_same fun a _ => hafter a
      _ = (s.modifyNode (s.getWorkerNodeKeyByWorkerId w) (·.answer m.taskId)).placed := placed_settle _ _ _
      _ ≤ s.placed := Pool.placed_modifyNode_le s _ (held_answer_le m.taskId)
  · rw [add_zero]
    calc (s.responded w m k).waiting
        = ((s.modifyNode (s.getWorkerNodeKeyByWorkerId w) (·.answer m.taskId)).settle m.taskId m.settlement).waiting :=
          Pool.waiting_modifyNode_same _ _ fun a _ => afterTaskExecution_tasksQueue _ _ a
      _ = (s.modifyNode (s.getWorkerNodeKeyByWorkerId w) (·.answer m.taskId)).waiting := waiting_settle _ _ _
      _ ≤ s.waiting := (Pool.waiting_modifyNode_same s _ fun a _ => by rfl).le
  · have hne : i ≠ m.taskId := by
      rintro rfl
      exact hnot hans
    exact (takenIn_responded s w m k).keys i hi hne
  · rcases mem_settledIds_settle (p := s.modifyNode (s.getWorkerNodeKeyByWorkerId w) (·.answer m.taskId)) hi with hi | rfl
    · exact .inl hi
    · exact .inr (.inr hans)

/-- The response of a worker to a task has been taken note of by the worker's node. -/
theorem Accounts.answer (k taskId : Nat) : Accounts s e (s.modifyNode k (·.answer taskId)) 0 := by
  refine ⟨Multiset.zero_le _, ?_, ?_, fun t ht => absurd ht (Multiset.notMem_zero t), fun i hi _ => hi, fun i hi => .inl hi⟩
  · rw [add_zero]
    exact Pool.placed_modifyNode_le s k (held_answer_le taskId)
  · rw [add_zero]
    exact (Pool.waiting_modifyNode_same s k fun a _ => by rfl).le

theorem Accounts.left (k : Nat) (n : WorkerNode Data) : Accounts s e (s.removeNode k n) 0 := by
  refine ⟨Multiset.zero_le _, ?_, ?_, fun t ht => absurd ht (Multiset.notMem_zero t), fun i hi _ => hi, fun i hi => .inl hi⟩
  · rw [add_zero]
    exact ((List.eraseIdx_sublist _ k).map WorkerNode.held).sum_le_sum fun _ _ => Multiset.zero_le _
  · rw [add_zero]
    exact ((List.eraseIdx_sublist _ k).map _).sum_le_sum fun _ _ => Multiset.zero_le _

theorem Effect.accounts (h : Effect s e r s') : ∃ new, Accounts s e s' new := by
  cases h with
  | flows hf => exact ⟨0, .of_flow hf⟩
  | fails lost _ hf => exact ⟨0, .of_flow hf⟩
  | refused hf => exact ⟨0, (Accounts.of_flow hf).settle (.inl (List.mem_singleton_self _)) _⟩
  | called t k hid hf hf' =>
    subst hid
    exact ⟨{t}, (Accounts.of_flow hf).called rfl hf'⟩
  | callFails t k lost _ hid hf hf' _ =>
    subst hid
    exact ⟨{t}, ((Accounts.of_flow hf).called rfl hf').settle (.inl (List.mem_singleton_self _)) _⟩
  | answered k lost hn _ _ hf _ => exact ⟨0, (Accounts.responded hn k).flow hf⟩
  | unknownTask hn _ => exact ⟨0, .answer _ _⟩
  | @dangling w m x n k hn _ _ => exact ⟨0, (Accounts.answer _ _).settle (.inr ⟨w, m, rfl, rfl, n, hn⟩) _⟩
  | left hn => exact ⟨0, .left _ _⟩

theorem step_accounts (h : Step s e s') : ∃ new, Accounts s e s' new := by
  obtain ⟨-, fuel, now, r, hm⟩ := h
  obtain ⟨new, ha⟩ := (effect_of_handle hm).accounts
  exact ⟨new, ha.drawn, ha.placed, ha.waiting, ha.entered, ha.keys, ha.settled⟩

/-- A response that can arrive from a worker of the pool is to a task in flight. -/
theorem Answers.inFlight {taskId : Nat} (h : Answers s e taskId) (hen : Enabled s e) : ∃ t ∈ s.inFlight, t.taskId = taskId := by
  obtain ⟨w, m, rfl, rfl, n, hn⟩ := h
  have hid := Pool.id_of_key hn
  rcases hen with ⟨a, ha, -, hm⟩ | ⟨hnone, -⟩
  · obtain ⟨t, ht, hid⟩ := List.mem_map.1 hm
    exact ⟨t, Pool.mem_inFlight.2 ⟨a, ha, ht⟩, hid⟩
  · exact absurd hid (hnone n (List.mem_of_getElem? hn))

end Effect

/-! ## No two tasks share an id -/

/-- Tasks have ids of their own, which have been drawn; those that wait are in the promise map. -/
structure Identified (s : Pool Data Response) : Prop where
  distinct : (s.placed.map (·.taskId)).Nodup
  drawn : ∀ t ∈ s.placed, t.taskId ∈ s.uuids
  entered : ∀ t ∈ s.waiting, t.taskId ∈ s.promiseResponseMap.keys

section Identified
variable {s s' : Pool Data Response} {e : Event Data Response}

theorem identified_of_fresh (h : Fresh s) : Identified s := by
  have hplaced : s.placed = 0 := by
    refine Multiset.eq_zero_of_forall_notMem fun t ht => ?_
    obtain ⟨n, hn, ht⟩ := Pool.mem_placed.1 ht
    rw [WorkerNode.mem_held, (h.nodes n hn).worker, (h.nodes n hn).tasksQueue] at ht
    rcases ht with ht | ht <;> cases ht
  refine ⟨?_, fun t ht => ?_, fun t ht => ?_⟩
  · rw [hplaced]
    exact Multiset.nodup_zero
  · rw [hplaced] at ht
    exact absurd ht (Multiset.notMem_zero t)
  · obtain ⟨n, hn, ht⟩ := Pool.mem_waiting.1 ht
    rw [(h.nodes n hn).tasksQueue] at ht
    cases ht

/-- No response that can arrive is to a task that waits. -/
theorem Identified.not_answers (h : Identified s) (hen : Enabled s e) {t : Task Data} (ht : t ∈ s.waiting) :
    ¬ Answers s e t.taskId := by
  intro hans
  obtain ⟨u, hu, hid⟩ := hans.inFlight hen
  have hdistinct := h.distinct
  rw [Pool.placed_eq, Multiset.map_add, Multiset.nodup_add] at hdistinct
  exact Multiset.disjoint_left.1 hdistinct.2.2 (Multiset.mem_map_of_mem _ ht) (hid ▸ Multiset.mem_map_of_mem _ hu)

/-- An id that an event draws is new. -/
theorem Enabled.fresh (hen : Enabled s e) {i : Nat} (hi : i ∈ e.drawnIds) : i ∉ s.uuids := by
  cases e with
  | execute taskId name data choice =>
    rw [List.mem_singleton.1 hi]
    exact hen
  | _ => cases hi

theorem Identified.step (h : Identified s) (hstep : Step s e s') : Identified s' := by
  obtain ⟨new, ha⟩ := step_accounts hstep
  have hmap : s'.placed.map (·.taskId) ≤ s.placed.map (·.taskId) + ↑e.drawnIds := by
    have hle := Multiset.map_le_map (f := Task.taskId) ha.placed
    rw [Multiset.map_add] at hle
    exact hle.trans (add_le_add_right ha.drawn _)
  have hdrawn (i : Nat) (hi : i ∈ s.placed.map (·.taskId)) : i ∈ s.uuids := by
    obtain ⟨t, ht, rfl⟩ := Multiset.mem_map.1 hi
    exact h.drawn t ht
  refine ⟨Multiset.nodup_of_le hmap ?_, fun t ht => ?_, fun t ht => ?_⟩
  · rw [Multiset.nodup_add]
    refine ⟨h.distinct, ?_, ?_⟩
    · cases e with
      | execute taskId name data choice => exact Multiset.nodup_singleton taskId
      | _ => exact Multiset.nodup_zero
    · exact Multiset.disjoint_left.2 fun hi hnew => hstep.1.fresh hnew (hdrawn _ hi)
  · rw [step_draws hstep, List.mem_append]
    have hi := Multiset.mem_of_le hmap (Multiset.mem_map_of_mem _ ht)
    rw [Multiset.mem_add] at hi
    exact hi.symm.imp id (hdrawn _)
  · rcases Multiset.mem_add.1 (Multiset.mem_of_le ha.waiting ht) with hw | hw
    · exact ha.keys _ (h.entered t hw) (h.not_answers hstep.1 hw)
    · exact ha.entered t hw

theorem identified_of_run {s₀ : Pool Data Response} {es : List (Event Data Response)} (h₀ : Fresh s₀)
    (hr : Run Step s₀ es s) : Identified s :=
  hr.inv Identified (identified_of_fresh h₀) fun _ _ _ h hs => h.step hs

end Identified

/-! ## Tasks that are nowhere -/

/-- The promise with the id has an entry in the map, and no task that waits or is in flight will end it. -/
structure Stranded (taskId : Nat) (s : Pool Data Response) : Prop where
  entered : taskId ∈ s.promiseResponseMap.keys
  drawn : taskId ∈ s.uuids
  nowhere : ∀ t ∈ s.placed, t.taskId ≠ taskId

/-- Nothing ever ends a promise whose task is nowhere, or takes its entry out of the map. -/
theorem Stranded.step {s s' : Pool Data Response} {e : Event Data Response} {taskId : Nat} (h : Stranded taskId s)
    (hstep : Step s e s') : Stranded taskId s' ∧ (taskId ∈ s'.settledIds → taskId ∈ s.settledIds) := by
  obtain ⟨new, ha⟩ := step_accounts hstep
  have hanswers : ¬ Answers s e taskId := by
    intro hans
    obtain ⟨t, ht, hid⟩ := hans.inFlight hstep.1
    refine h.nowhere t ?_ hid
    rw [Pool.placed_eq]
    exact Multiset.mem_add.2 (.inr ht)
  have hdrawn : taskId ∉ e.drawnIds := fun hi => hstep.1.fresh hi h.drawn
  refine ⟨⟨ha.keys taskId h.entered hanswers, ?_, fun t ht => ?_⟩, fun hs => ?_⟩
  · rw [step_draws hstep]
    exact List.mem_append_right _ h.drawn
  · rcases Multiset.mem_add.1 (Multiset.mem_of_le ha.placed ht) with hp | hn
    · exact h.nowhere t hp
    · rintro rfl
      exact hdrawn (Multiset.mem_of_le ha.drawn (Multiset.mem_map_of_mem _ hn))
  · rcases ha.settled taskId hs with hs | hs | hs
    · exact hs
    · exact absurd hs hdrawn
    · exact absurd hs hanswers

theorem Stranded.run {s s' : Pool Data Response} {es : List (Event Data Response)} {taskId : Nat} (h : Stranded taskId s)
    (hr : Run Step s es s') : Stranded taskId s' ∧ (taskId ∈ s'.settledIds → taskId ∈ s.settledIds) := by
  refine hr.inv (fun s' => Stranded taskId s' ∧ (taskId ∈ s'.settledIds → taskId ∈ s.settledIds)) ⟨h, id⟩
    fun s₁ e s₂ hs hstep => ?_
  obtain ⟨hstranded, hsettled⟩ := hs.1.step hstep
  exact ⟨hstranded, fun hi => hs.2 (hsettled hi)⟩

end Poolifier
