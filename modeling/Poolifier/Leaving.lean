import Poolifier.Effects
/-!
# Workers leave

A worker leaves when its `exit` is handled, however it came to that: after an
error, a kill, `destroy`, or on its own. Its node is spliced out of the pool with
whatever it holds. What it holds then is all that is lost: every other event
keeps each task in a queue or in flight until its promise ends, unless an
exception ends code that has the task in hand.
-/

namespace Poolifier

open EffLib RunLib WorkerNode

variable {Data Response : Type}

/-! ## Promises of the tasks that are somewhere -/

/-- The ids of the promises that have ended. -/
def Pool.settledIds (p : Pool Data Response) : List Nat := p.settled.map Prod.fst

/-- What has been sent to a worker of the pool is in flight or its promise has ended, and what is in flight,
queued or in hand has an entry in the promise map or its promise has ended. -/
structure Promised (s : Pool Data Response) (h : Multiset (Task Data)) : Prop where
  sent : ∀ n ∈ s.workerNodes, ∀ t ∈ n.worker.received, t ∈ n.worker.unanswered ∨ t.taskId ∈ s.settledIds
  known : ∀ t ∈ s.placed + h, t.taskId ∈ s.promiseResponseMap.keys ∨ t.taskId ∈ s.settledIds

theorem promised_of_fresh {p : Pool Data Response} (h : Fresh p) : Promised p 0 where
  sent n hn t ht := by
    rw [(h.nodes n hn).worker] at ht
    cases ht
  known t ht := by
    rw [add_zero, Pool.mem_placed] at ht
    obtain ⟨n, hn, ht⟩ := ht
    rw [WorkerNode.mem_held, (h.nodes n hn).worker, (h.nodes n hn).tasksQueue] at ht
    rcases ht with ht | ht <;> cases ht

theorem Promised.known_placed {p : Pool Data Response} (hp : Promised p 0) {t : Task Data} (ht : t ∈ p.placed) :
    t.taskId ∈ p.promiseResponseMap.keys ∨ t.taskId ∈ p.settledIds := by
  apply hp.known
  rwa [add_zero]

theorem mem_of_placed_eq {a b lost : Multiset (Task Data)} (h : a + lost = b) {t : Task Data} (ht : t ∈ a) : t ∈ b := by
  rw [← h]
  exact Multiset.mem_add.2 (.inl ht)

section Flow
variable {a b : Config Data Response} {s s' : Pool Data Response} {h h' : Multiset (Task Data)}

/-- A node of the new pool has been sent what a node of the old one has, or nothing, or one task more, which is
in flight. -/
theorem Move.sent (hm : Move False True a b) {n' : WorkerNode Data} (hn' : n' ∈ b.1.workerNodes) :
    ∃ n ∈ a.1.workerNodes, ∀ t ∈ n'.worker.received,
      t ∈ n'.worker.unanswered ∨ t ∈ n.worker.received ∧ (t ∈ n.worker.unanswered → t ∈ n'.worker.unanswered) := by
  obtain ⟨i, hi⟩ := List.mem_iff_getElem?.1 hn'
  have hmodify {p : Pool Data Response} {k : Nat} {f : WorkerNode Data → WorkerNode Data}
      (hf : ∀ n, p.workerNodes[k]? = some n → (f n).worker = n.worker) (hk : (p.modifyNode k f).workerNodes[i]? = some n') :
      ∃ n ∈ p.workerNodes, ∀ t ∈ n'.worker.received,
        t ∈ n'.worker.unanswered ∨ t ∈ n.worker.received ∧ (t ∈ n.worker.unanswered → t ∈ n'.worker.unanswered) := by
    obtain ⟨n, hn, rfl⟩ := Pool.node_of_modifyNode hk
    refine ⟨n, List.mem_of_getElem? hn, fun t ht => .inr ?_⟩
    by_cases hki : k = i
    · subst hki
      rw [if_pos rfl, hf n hn] at ht ⊢
      exact ⟨ht, id⟩
    · rw [if_neg hki] at ht ⊢
      exact ⟨ht, id⟩
  cases hm with
  | book k f hf => exact hmodify (fun n hn => (hf n hn).worker) hi
  | shift hn hq => exact hmodify (fun _ _ => by rfl) hi
  | pop hn hq => exact hmodify (fun _ _ => by rfl) hi
  | push hn hs => exact hmodify (fun _ _ => by rfl) hi
  | @send p h k n t hn hg hs =>
    obtain ⟨m, hm, rfl⟩ := Pool.node_of_modifyNode hi
    refine ⟨m, List.mem_of_getElem? hm, fun u hu => ?_⟩
    by_cases hki : k = i
    · rw [if_pos hki, startTask_worker] at hu ⊢
      rcases List.mem_append.1 hu with hu | hu
      · exact .inr ⟨hu, fun h => List.mem_append_left _ h⟩
      · exact .inl (List.mem_append_right _ hu)
    · rw [if_neg hki] at hu ⊢
      exact .inr ⟨hu, id⟩
  | @fail p h k t hl =>
    refine hmodify (fun n _ => ?_) hi
    obtain ⟨m, hm⟩ := beforeTaskExecution_eq p.taskStatisticsRequirements p.now t n
    rw [hm]
  | drop hl => exact ⟨n', hn', fun t ht => .inr ⟨ht, id⟩⟩

/-- A node of a tidied pool has the work of a node it had before, or none. -/
theorem Tidy.node {p p' : Pool Data Response} (ht : Tidy p p') {n' : WorkerNode Data} (hn' : n' ∈ p'.workerNodes) :
    (∃ n ∈ p.workerNodes, n'.worker = n.worker) ∨ n'.worker = ⟨[], []⟩ := by
  obtain ⟨m, hm⟩ := ht.work
  have hwork : n'.work ∈ p'.workerNodes.map WorkerNode.work := List.mem_map_of_mem hn'
  rw [hm, List.mem_append] at hwork
  rcases hwork with hwork | hwork
  · obtain ⟨n, hn, heq⟩ := List.mem_map.1 hwork
    exact .inl ⟨n, hn, (congrArg Prod.fst heq).symm⟩
  · exact .inr (congrArg Prod.fst (List.eq_of_mem_replicate hwork))

/-- The promises of the tasks outlive moves and tidying, whatever is lost. -/
theorem Promised.flow (hp : Promised a.1 a.2) (hf : Flow a b) : Promised b.1 b.2 := by
  refine RunLib.inv_of_chain (I := fun d => Promised d.1 d.2) (fun d e hstep hd => ?_) hf hp
  rcases hstep with hm | ⟨ht, hhand⟩
  · have hframe := hm.frame
    have hids : e.1.settledIds = d.1.settledIds := by
      unfold Pool.settledIds
      rw [hframe.rest]
    obtain ⟨lost, hplaced, -⟩ := hm.placed
    refine ⟨fun n' hn' t ht => ?_, fun t ht => ?_⟩
    · rw [hids]
      obtain ⟨n, hn, hsent⟩ := hm.sent hn'
      rcases hsent t ht with hin | ⟨hrec, hkeep⟩
      · exact .inl hin
      · exact (hd.sent n hn t hrec).imp hkeep id
    · rw [hids, hframe.rest]
      exact hd.known t (mem_of_placed_eq hplaced ht)
  · have hids : e.1.settledIds = d.1.settledIds := by
      unfold Pool.settledIds
      rw [ht.settled]
    refine ⟨fun n' hn' t htr => ?_, fun t htp => ?_⟩
    · rw [hids]
      rcases ht.node hn' with ⟨n, hn, hw⟩ | hw
      · rw [hw] at htr ⊢
        exact hd.sent n hn t htr
      · rw [hw] at htr
        cases htr
    · obtain ⟨m, hm⟩ := ht.work
      rw [placed_of_work hm, hhand] at htp
      rw [hids, ht.promiseResponseMap]
      exact hd.known t htp

theorem Promised.drop (hp : Promised s h) : Promised s 0 :=
  ⟨hp.sent, fun t ht => hp.known t (Multiset.mem_add.2 (.inl (by rwa [add_zero] at ht)))⟩

theorem Promised.settle (hp : Promised s h) (taskId : Nat) (r : Settlement Response) :
    Promised (s.settle taskId r) h := by
  have hsub := Pool.settled_subset_settle s taskId r
  refine ⟨fun n hn t ht => ?_, fun t ht => ?_⟩
  · rw [Pool.settle_workerNodes] at hn
    exact (hp.sent n hn t ht).imp id fun hs => hsub hs
  · unfold Pool.placed at ht
    rw [Pool.settle_workerNodes] at ht
    refine (hp.known t ht).imp (fun hk => ?_) fun hs => hsub hs
    rw [Pool.settle_rest]
    exact hk

theorem Promised.withPromise (hp : Promised s 0) {t : Task Data} {taskId : Nat} (hid : t.taskId = taskId) (k : Nat) :
    Promised (s.withPromise taskId k) {t} := by
  refine ⟨hp.sent, fun u hu => ?_⟩
  unfold Pool.withPromise
  rw [← AList.mem_keys, AList.mem_insert]
  rcases Multiset.mem_add.1 hu with hu | hu
  · have hu' : u ∈ s.placed + 0 := by
      rw [add_zero]
      exact hu
    exact (hp.known u hu').imp (fun hk => .inr (AList.mem_keys.2 hk)) id
  · rw [Multiset.mem_singleton] at hu
    rw [hu]
    exact .inl (.inl hid)

end Flow

/-! ## Responses -/

/-- The response to `taskId` takes at most that task from the node. -/
structure Relieved (taskId : Nat) (n n' : WorkerNode Data) : Prop where
  received : n'.worker.received = n.worker.received
  held : ∀ t ∈ n'.held, t ∈ n.held
  inFlight : ∀ t ∈ n.worker.unanswered, t.taskId ≠ taskId → t ∈ n'.worker.unanswered
  stays : ∀ t ∈ n.held, t.taskId ≠ taskId → t ∈ n'.held

theorem relieved_of_worker {taskId : Nat} {n n' : WorkerNode Data} (hq : n'.tasksQueue = n.tasksQueue)
    (hw : n'.worker = n.worker ∨ n'.worker = (n.answer taskId).worker) : Relieved taskId n n' := by
  have hin : ∀ t ∈ n.worker.unanswered, t.taskId ≠ taskId → t ∈ n'.worker.unanswered := by
    intro t ht hid
    rcases hw with hw | hw
    · rw [hw]
      exact ht
    · rw [hw]
      exact (List.mem_eraseP_of_neg (by simpa using hid)).2 ht
  have hout : ∀ t ∈ n'.worker.unanswered, t ∈ n.worker.unanswered := by
    intro t ht
    rcases hw with hw | hw
    · rwa [hw] at ht
    · rw [hw] at ht
      exact List.mem_of_mem_eraseP ht
  refine ⟨?_, fun t ht => ?_, hin, fun t ht hid => ?_⟩
  · rcases hw with hw | hw <;> rw [hw]
    rfl
  · rw [WorkerNode.mem_held, hq] at ht
    exact WorkerNode.mem_held.2 (ht.imp id (hout t))
  · rw [WorkerNode.mem_held] at ht
    rw [WorkerNode.mem_held, hq]
    exact ht.imp id fun hu => hin t hu hid

/-- From `s` to `s'` the response to `taskId` is taken in. -/
structure TakenIn (taskId : Nat) (s s' : Pool Data Response) : Prop where
  length : s'.workerNodes.length = s.workerNodes.length
  node : ∀ (i : Nat) n n', s.workerNodes[i]? = some n → s'.workerNodes[i]? = some n' → Relieved taskId n n'
  settled : s.settledIds ⊆ s'.settledIds
  ended : taskId ∈ s.promiseResponseMap.keys → taskId ∈ s'.settledIds
  keys : ∀ i ∈ s.promiseResponseMap.keys, i ≠ taskId → i ∈ s'.promiseResponseMap.keys

section Response
variable {s s' : Pool Data Response} {taskId w k : Nat} {m : TaskResponse Response}

theorem TakenIn.stays (h : TakenIn taskId s s') {t : Task Data} (ht : t ∈ s.placed) (hid : t.taskId ≠ taskId) :
    t ∈ s'.placed := by
  rw [Pool.mem_placed] at ht ⊢
  obtain ⟨n, hn, ht⟩ := ht
  obtain ⟨i, hi⟩ := List.mem_iff_getElem?.1 hn
  obtain ⟨n', hn'⟩ := Pool.node_of_length h.length hi
  exact ⟨n', List.mem_of_getElem? hn', (h.node i n n' hi hn').stays t ht hid⟩

theorem TakenIn.promised (h : TakenIn taskId s s') (hp : Promised s 0) : Promised s' 0 := by
  have hended (t : Task Data) (ht : t ∈ s.placed) (hid : t.taskId = taskId) : t.taskId ∈ s'.settledIds := by
    rcases hp.known_placed ht with hk | hs
    · rw [hid] at hk ⊢
      exact h.ended hk
    · exact h.settled hs
  have hnode {n' : WorkerNode Data} (hn' : n' ∈ s'.workerNodes) : ∃ n ∈ s.workerNodes, Relieved taskId n n' := by
    obtain ⟨i, hi⟩ := List.mem_iff_getElem?.1 hn'
    obtain ⟨n, hn⟩ := Pool.node_of_length h.length.symm hi
    exact ⟨n, List.mem_of_getElem? hn, h.node i n n' hn hi⟩
  refine ⟨fun n' hn' t ht => ?_, fun t ht => ?_⟩
  · obtain ⟨n, hn, hr⟩ := hnode hn'
    rw [hr.received] at ht
    rcases hp.sent n hn t ht with hu | hs
    · by_cases hid : t.taskId = taskId
      · exact .inr (hended t (Pool.mem_placed.2 ⟨n, hn, WorkerNode.mem_held.2 (.inr hu)⟩) hid)
      · exact .inl (hr.inFlight t hu hid)
    · exact .inr (h.settled hs)
  · rw [add_zero, Pool.mem_placed] at ht
    obtain ⟨n', hn', ht⟩ := ht
    obtain ⟨n, hn, hr⟩ := hnode hn'
    have hplaced := Pool.mem_placed.2 ⟨n, hn, hr.held t ht⟩
    by_cases hid : t.taskId = taskId
    · exact .inr (hended t hplaced hid)
    · exact (hp.known_placed hplaced).imp (fun hk => h.keys _ hk hid) fun hs => h.settled hs

theorem takenIn_responded (s : Pool Data Response) (w : Nat) (m : TaskResponse Response) (k : Nat) :
    TakenIn m.taskId s (s.responded w m k) := by
  have hkeys : (s.responded w m k).promiseResponseMap = s.promiseResponseMap.erase m.taskId := rfl
  have hsettled := Pool.settled_subset_settle (s.modifyNode (s.getWorkerNodeKeyByWorkerId w) (·.answer m.taskId))
    m.taskId m.settlement
  refine ⟨?_, fun i n n' hn hn' => ?_, hsettled, fun _ => Pool.mem_settle _ _ _, fun i hi hne => ?_⟩
  · exact Pool.length_responded s w m k
  · obtain ⟨a, ha, hans⟩ := Pool.node_of_responded hn'
    rw [hn] at ha
    cases ha
    refine relieved_of_worker hans.tasksQueue ?_
    rw [hans.worker]
    split
    · exact .inr rfl
    · exact .inl rfl
  · rw [hkeys, ← AList.mem_keys, AList.mem_erase]
    exact ⟨hne, AList.mem_keys.2 hi⟩

/-- The worker has answered, and the promise has ended before or ends now. -/
theorem takenIn_answer (hkeys : s'.promiseResponseMap = s.promiseResponseMap)
    (hnodes : s'.workerNodes = (s.modifyNode k (·.answer taskId)).workerNodes) (hsettled : s.settledIds ⊆ s'.settledIds)
    (hended : taskId ∈ s.promiseResponseMap.keys → taskId ∈ s'.settledIds) : TakenIn taskId s s' := by
  refine ⟨?_, fun i n n' hn hn' => ?_, hsettled, hended, fun i hi _ => ?_⟩
  · rw [hnodes]
    exact Pool.length_modifyNode _ _ _
  · rw [hnodes] at hn'
    obtain ⟨a, ha, rfl⟩ := Pool.node_of_modifyNode hn'
    rw [hn] at ha
    cases ha
    split
    · exact relieved_of_worker rfl (.inr rfl)
    · exact relieved_of_worker rfl (.inl rfl)
  · rw [hkeys]
    exact hi

end Response

/-! ## Every event keeps the promises -/

section Effect
variable {s s' : Pool Data Response} {e : Event Data Response} {r : Except JsError Unit}

theorem Promised.removeNode (hp : Promised s 0) (k : Nat) (n : WorkerNode Data) : Promised (s.removeNode k n) 0 := by
  have hsub : ∀ a ∈ (s.removeNode k n).workerNodes, a ∈ s.workerNodes := fun a ha => List.mem_of_mem_eraseIdx ha
  refine ⟨fun a ha => hp.sent a (hsub a ha), fun t ht => ?_⟩
  rw [add_zero, Pool.mem_placed] at ht
  obtain ⟨a, ha, ht⟩ := ht
  apply hp.known t
  rw [add_zero, Pool.mem_placed]
  exact ⟨a, hsub a ha, ht⟩

theorem takenIn_unknownTask {w : Nat} {m : TaskResponse Response} (hl : s.promiseResponseMap.lookup m.taskId = none) :
    TakenIn m.taskId s (s.modifyNode (s.getWorkerNodeKeyByWorkerId w) (·.answer m.taskId)) := by
  refine takenIn_answer rfl rfl (fun _ h => h) fun hk => ?_
  rw [← AList.mem_keys, ← AList.lookup_isSome, hl] at hk
  cases hk

theorem takenIn_dangling (s : Pool Data Response) (w : Nat) (m : TaskResponse Response) : TakenIn m.taskId s
    ((s.modifyNode (s.getWorkerNodeKeyByWorkerId w) (·.answer m.taskId)).settle m.taskId m.settlement) := by
  have hsettled := Pool.settled_subset_settle (s.modifyNode (s.getWorkerNodeKeyByWorkerId w) (·.answer m.taskId))
    m.taskId m.settlement
  refine takenIn_answer ?_ (Pool.settle_workerNodes _ _ _) hsettled fun _ => Pool.mem_settle _ _ _
  rw [Pool.settle_rest]
  rfl

theorem Effect.promised (h : Effect s e r s') (hp : Promised s 0) : Promised s' 0 := by
  cases h with
  | flows hf => exact hp.flow hf
  | fails lost hh hf => exact (hp.flow hf).drop
  | refused hf => exact (hp.flow hf).settle _ _
  | called t k hid hf hf' => exact ((hp.flow hf).withPromise hid k).flow hf'
  | callFails t k lost hh hid hf hf' hs => exact (((hp.flow hf).withPromise hid k).flow hf').drop.settle _ _
  | answered k lost hn hl hk hf hlost => exact (((takenIn_responded s _ _ k).promised hp).flow hf).drop
  | unknownTask hn hl => exact (takenIn_unknownTask hl).promised hp
  | dangling k hn hl hk => exact (takenIn_dangling s _ _).promised hp
  | left hn => exact hp.removeNode _ _

/-! ## Steps -/

/-- A step whose code returns and catches no exception, or throws where `spared` says that does no harm. -/
def Undisturbed (spared : Pool Data Response → Event Data Response → Prop) (s : Pool Data Response)
    (e : Event Data Response) (s' : Pool Data Response) : Prop :=
  Enabled s e ∧ ∃ fuel now r, handle fuel e { s with now } = some (r, s') ∧ s'.errorsCaught = s.errorsCaught ∧
    (r = .ok () ∨ spared s e)

theorem Undisturbed.step {spared : Pool Data Response → Event Data Response → Prop} (h : Undisturbed spared s e s') :
    Step s e s' := by
  obtain ⟨hen, fuel, now, r, hm, -⟩ := h
  exact ⟨hen, fuel, now, r, hm⟩

/-- Undisturbed steps computed with given fuel, at time zero, where a condition on the step holds. -/
def nextUndisturbed (ok : Pool Data Response → Event Data Response → Prop) [∀ s e, Decidable (ok s e)] (fuel : Nat)
    (s : Pool Data Response) (e : Event Data Response) : Option (Pool Data Response) :=
  if ok s e ∧ Enabled s e then
    match handle fuel e { s with now := 0 } with
    | some (.ok (), s') => if s'.errorsCaught = s.errorsCaught then some s' else none
    | _ => none
  else none

theorem undisturbed_of_next {ok : Pool Data Response → Event Data Response → Prop} [∀ s e, Decidable (ok s e)]
    {spared : Pool Data Response → Event Data Response → Prop} {fuel : Nat} (h : nextUndisturbed ok fuel s e = some s') :
    Guarded ok (Undisturbed spared) s e s' := by
  unfold nextUndisturbed at h
  split at h
  · rename_i hok
    split at h
    · rename_i s₁ hm
      split at h
      · rename_i hcaught
        cases h
        exact ⟨hok.1, hok.2, fuel, 0, .ok (), hm, hcaught, .inl rfl⟩
      · cases h
    · cases h
  · cases h

/-- Undisturbed events that run to a state in which `P` holds. -/
theorem undisturbed_run_to (ok spared : Pool Data Response → Event Data Response → Prop) [∀ s e, Decidable (ok s e)]
    (fuel : Nat) (s : Pool Data Response) (es : List (Event Data Response)) {P : Pool Data Response → Prop}
    [DecidablePred P] (h : (replay (nextUndisturbed ok fuel) s es).any (fun s' => decide (P s')) = true) :
    ∃ s', Run (Guarded ok (Undisturbed spared)) s es s' ∧ P s' :=
  exists_run_of_replay (fun _ _ _ => undisturbed_of_next) h

theorem Promised.step (hp : Promised s 0) (h : Step s e s') : Promised s' 0 := by
  obtain ⟨-, fuel, now, r, hm⟩ := h
  exact (effect_of_handle hm).promised (s := { s with now }) ⟨hp.sent, hp.known⟩

/-- The promises of the tasks that are somewhere are known in every state reached. -/
theorem promised_of_run {s₀ : Pool Data Response} {es : List (Event Data Response)} (h₀ : Fresh s₀)
    (hr : Run Step s₀ es s) : Promised s 0 :=
  hr.inv (fun s => Promised s 0) (promised_of_fresh h₀) fun _ _ _ hp hs => hp.step hs

end Effect

/-! ## No promise is left behind -/

/-- An exit finds no task with an entry in the promise map queued or in flight on the node that leaves. -/
def NothingPending (s : Pool Data Response) : Event Data Response → Prop
  | .exit w => ∀ n ∈ s.workerNodes[s.getWorkerNodeKeyByWorkerId w]?, ∀ t ∈ n.tasksQueue ++ n.worker.unanswered,
      t.taskId ∉ s.promiseResponseMap.keys
  | _ => True

instance (s : Pool Data Response) : DecidablePred (NothingPending s)
  | .exit w => inferInstanceAs (Decidable (∀ n ∈ s.workerNodes[s.getWorkerNodeKeyByWorkerId w]?,
      ∀ t ∈ n.tasksQueue ++ n.worker.unanswered, t.taskId ∉ s.promiseResponseMap.keys))
  | .execute .. | .message .. | .poll _ | .error _ | .start | .enableTasksQueue .. | .setTasksQueueOptions _ | .destroy
  | .destroyed => inferInstanceAs (Decidable True)

/-- The promises of the tasks sent to workers that have left have ended. -/
def LeftSettled (s : Pool Data Response) : Prop :=
  ∀ n ∈ s.removedNodes, ∀ t ∈ n.worker.received, t.taskId ∈ s.settledIds

/-- Each entry of the promise map belongs to a task that waits or is in flight on a node of the pool. -/
def EntriesPlaced (s : Pool Data Response) : Prop :=
  ∀ taskId ∈ s.promiseResponseMap.keys, ∃ n ∈ s.workerNodes, ∃ t ∈ n.held, t.taskId = taskId

section Pending
variable {s s' : Pool Data Response} {e : Event Data Response} {r : Except JsError Unit}

theorem NothingPending.held {w : Nat} {n : WorkerNode Data} (hp : NothingPending s (.exit w))
    (hn : s.workerNodes[s.getWorkerNodeKeyByWorkerId w]? = some n) {t : Task Data} (ht : t ∈ n.held) :
    t.taskId ∉ s.promiseResponseMap.keys := by
  apply hp n hn t
  rw [List.mem_append]
  exact WorkerNode.mem_held.1 ht

/-- Promises stay ended, and no node leaves. -/
structure NoneLeft (s s' : Pool Data Response) : Prop where
  settled : s.settledIds ⊆ s'.settledIds
  removed : s'.removedNodes.map (·.worker) = s.removedNodes.map (·.worker)

theorem NoneLeft.trans {s'' : Pool Data Response} (h : NoneLeft s s') (h' : NoneLeft s' s'') : NoneLeft s s'' :=
  ⟨fun _ hi => h'.settled (h.settled hi), h'.removed.trans h.removed⟩

theorem Flow.noneLeft {p p' : Pool Data Response} {h h' : Multiset (Task Data)} (hf : Flow (p, h) (p', h')) :
    NoneLeft p p' := by
  obtain ⟨-, hsettled, hremoved, -⟩ := hf.rest
  refine ⟨fun i hi => ?_, hremoved⟩
  unfold Pool.settledIds at hi ⊢
  rw [hsettled]
  exact hi

theorem noneLeft_settle (p : Pool Data Response) (taskId : Nat) (x : Settlement Response) :
    NoneLeft p (p.settle taskId x) := by
  refine ⟨Pool.settled_subset_settle p taskId x, ?_⟩
  rw [Pool.settle_rest]

theorem noneLeft_withPromise (p : Pool Data Response) (taskId k : Nat) : NoneLeft p (p.withPromise taskId k) :=
  ⟨fun _ hi => hi, rfl⟩

theorem noneLeft_modifyNode (p : Pool Data Response) (k : Nat) (f : WorkerNode Data → WorkerNode Data) :
    NoneLeft p (p.modifyNode k f) :=
  ⟨fun _ hi => hi, rfl⟩

/-- A node leaves the pool by the exit of its worker alone. -/
theorem Effect.noneLeft (h : Effect s e r s') : NoneLeft s s' ∨
    ∃ w n, e = .exit w ∧ s.workerNodes[s.getWorkerNodeKeyByWorkerId w]? = some n ∧
      s' = s.removeNode (s.getWorkerNodeKeyByWorkerId w) n := by
  cases h with
  | flows hf => exact .inl hf.noneLeft
  | fails lost hh hf => exact .inl hf.noneLeft
  | refused hf => exact .inl (hf.noneLeft.trans (noneLeft_settle _ _ _))
  | called t k hid hf hf' => exact .inl ((hf.noneLeft.trans (noneLeft_withPromise _ _ _)).trans hf'.noneLeft)
  | callFails t k lost hh hid hf hf' hs =>
    exact .inl (((hf.noneLeft.trans (noneLeft_withPromise _ _ _)).trans hf'.noneLeft).trans (noneLeft_settle _ _ _))
  | @answered w m r s' n k lost hn hl hk hf hlost =>
    refine .inl (NoneLeft.trans ⟨(takenIn_responded s w m k).settled, ?_⟩ hf.noneLeft)
    exact ((noneLeft_modifyNode s _ _).trans (noneLeft_settle _ m.taskId m.settlement)).removed
  | unknownTask hn hl => exact .inl (noneLeft_modifyNode s _ _)
  | dangling k hn hl hk => exact .inl ((noneLeft_modifyNode s _ _).trans (noneLeft_settle _ _ _))
  | left hn => exact .inr ⟨_, _, rfl, hn, rfl⟩

theorem LeftSettled.effect (hl : LeftSettled s) (hp : Promised s 0) (h : Effect s e r s') (hnone : NothingPending s e) :
    LeftSettled s' := by
  rcases h.noneLeft with hsame | ⟨w, n, rfl, hn, rfl⟩
  · intro a' ha' t ht
    have hwork : a'.worker ∈ s'.removedNodes.map (·.worker) := List.mem_map_of_mem ha'
    rw [hsame.removed] at hwork
    obtain ⟨a, ha, heq⟩ := List.mem_map.1 hwork
    rw [← heq] at ht
    exact hsame.settled (hl a ha t ht)
  · intro a ha t ht
    rcases List.mem_append.1 ha with ha | ha
    · exact hl a ha t ht
    · -- what was sent to the worker is unanswered without an entry, or its promise has ended
      rw [List.mem_singleton] at ha
      subst ha
      have hmem := List.mem_of_getElem? hn
      rcases hp.sent a hmem t ht with hu | hs
      · have hheld : t ∈ a.held := WorkerNode.mem_held.2 (.inr hu)
        have hplaced : t ∈ s.placed := Pool.mem_placed.2 ⟨a, hmem, hheld⟩
        exact (hp.known_placed hplaced).resolve_left (hnone.held hn hheld)
      · exact hs

theorem Flow.entriesPlaced {a b : Config Data Response} (hf : Flow a b)
    (hcaught : b.1.errorsCaught ≤ a.1.errorsCaught)
    (ha : ∀ taskId ∈ a.1.promiseResponseMap.keys, ∃ t ∈ a.1.placed + a.2, t.taskId = taskId) :
    ∀ taskId ∈ b.1.promiseResponseMap.keys, ∃ t ∈ b.1.placed + b.2, t.taskId = taskId := by
  intro taskId hk
  rw [hf.rest.1] at hk
  obtain ⟨t, ht, hid⟩ := ha taskId hk
  rw [← hf.placed hcaught] at ht
  exact ⟨t, ht, hid⟩

theorem entriesPlaced_iff : EntriesPlaced s ↔
    ∀ taskId ∈ s.promiseResponseMap.keys, ∃ t ∈ s.placed + 0, t.taskId = taskId := by
  refine forall₂_congr fun taskId _ => ⟨?_, ?_⟩
  · rintro ⟨n, hn, t, ht, hid⟩
    rw [add_zero]
    exact ⟨t, Pool.mem_placed.2 ⟨n, hn, ht⟩, hid⟩
  · rintro ⟨t, ht, hid⟩
    rw [add_zero, Pool.mem_placed] at ht
    obtain ⟨n, hn, ht⟩ := ht
    exact ⟨n, hn, t, ht, hid⟩

/-- A node is the one that leaves, or stays. -/
theorem Pool.mem_removeNode {k : Nat} {n a : WorkerNode Data} (hn : s.workerNodes[k]? = some n) (ha : a ∈ s.workerNodes) :
    a = n ∨ a ∈ (s.removeNode k n).workerNodes :=
  MapLib.eq_or_mem_eraseIdx hn ha

theorem EntriesPlaced.left {w : Nat} {n : WorkerNode Data} (he : EntriesPlaced s)
    (hn : s.workerNodes[s.getWorkerNodeKeyByWorkerId w]? = some n) (hnone : NothingPending s (.exit w)) :
    EntriesPlaced (s.removeNode (s.getWorkerNodeKeyByWorkerId w) n) := by
  intro taskId hk
  obtain ⟨a, ha, t, ht, hid⟩ := he taskId hk
  rcases Pool.mem_removeNode hn ha with rfl | ha
  · -- the task is not on the node that leaves
    refine absurd ?_ (hnone.held hn ht)
    rw [hid]
    exact hk
  · exact ⟨a, ha, t, ht, hid⟩

theorem TakenIn.entries {taskId : Nat} (h : TakenIn taskId s s') (he : EntriesPlaced s)
    (hkeys : ∀ i ∈ s'.promiseResponseMap.keys, i ∈ s.promiseResponseMap.keys ∧ i ≠ taskId) : EntriesPlaced s' := by
  intro i hi
  obtain ⟨hold, hne⟩ := hkeys i hi
  obtain ⟨n, hn, t, ht, hid⟩ := he i hold
  have hplaced := h.stays (Pool.mem_placed.2 ⟨n, hn, ht⟩) (by rwa [hid])
  obtain ⟨n', hn', ht'⟩ := Pool.mem_placed.1 hplaced
  exact ⟨n', hn', t, ht', hid⟩

theorem EntriesPlaced.effect (he : EntriesPlaced s) (h : Effect s e r s') (hnone : NothingPending s e)
    (hcaught : s'.errorsCaught ≤ s.errorsCaught) (hret : r = .ok () ∨ Harmless s e) : EntriesPlaced s' := by
  have hall := entriesPlaced_iff.1 he
  cases h with
  | flows hf => exact entriesPlaced_iff.2 (hf.entriesPlaced hcaught hall)
  | fails lost hh hf => exact absurd (.inl (hret.resolve_left (by rintro ⟨⟩))) hh
  | @refused taskId name data choice x s₁ hf =>
    rw [Pool.settle_rest] at hcaught
    have h₁ : EntriesPlaced s₁ := entriesPlaced_iff.2 (hf.entriesPlaced hcaught hall)
    intro i hi
    rw [Pool.settle_workerNodes]
    rw [Pool.settle_rest] at hi
    exact h₁ i hi
  | @called taskId name data choice s₁ s' t k hid hf hf' =>
    have h₁ := hf.entriesPlaced (hf'.rest.2.2.2.trans hcaught) hall
    refine entriesPlaced_iff.2 (hf'.entriesPlaced (hcaught.trans hf.rest.2.2.2) fun i hi => ?_)
    dsimp only [Pool.withPromise] at hi
    rw [← AList.mem_keys, AList.mem_insert] at hi
    rcases hi with rfl | hi
    · exact ⟨t, Multiset.mem_add.2 (.inr (Multiset.mem_singleton_self t)), hid⟩
    · obtain ⟨u, hu, hui⟩ := h₁ i (AList.mem_keys.1 hi)
      rw [add_zero] at hu
      exact ⟨u, Multiset.mem_add.2 (.inl hu), hui⟩
  | callFails t k lost hh hid hf hf' hs => exact absurd (hret.resolve_left (by rintro ⟨⟩)) hh
  | @answered w m r s' n k lost hn hl hk hf hlost =>
    have hok : r = .ok () := by
      refine hret.resolve_right fun hh => ?_
      rw [Harmless, hn] at hh
      cases hh
    have hresponded : EntriesPlaced (s.responded w m k) := by
      refine (takenIn_responded s w m k).entries he fun i hi => ?_
      rw [show (s.responded w m k).promiseResponseMap = s.promiseResponseMap.erase m.taskId from rfl, ← AList.mem_keys,
        AList.mem_erase] at hi
      exact ⟨AList.mem_keys.1 hi.2, hi.1⟩
    rw [hlost hok] at hf
    refine entriesPlaced_iff.2 (hf.entriesPlaced (hcaught.trans_eq ?_) (entriesPlaced_iff.1 hresponded))
    exact (responded_errorsCaught s w k m).symm
  | @unknownTask w m n hn hl =>
    refine (takenIn_unknownTask hl).entries he fun i hi => ⟨hi, fun heq => ?_⟩
    have hi' : i ∈ s.promiseResponseMap.keys := hi
    rw [heq, ← AList.mem_keys, ← AList.lookup_isSome, hl] at hi'
    cases hi'
  | dangling k hn hl hk =>
    have hh := hret.resolve_left (by rintro ⟨⟩)
    rw [Harmless, hn] at hh
    cases hh
  | left hn => exact he.left hn hnone

end Pending

section Runs
variable {s₀ s : Pool Data Response} {es : List (Event Data Response)}

theorem leftSettled_of_run (h₀ : Fresh s₀) (hr : Run (Guarded NothingPending Step) s₀ es s) : LeftSettled s := by
  refine (hr.inv (fun s => LeftSettled s ∧ Promised s 0) ⟨?_, promised_of_fresh h₀⟩ fun s e s' hs hstep => ?_).1
  · intro n hn
    rw [h₀.removedNodes] at hn
    cases hn
  · obtain ⟨hnone, hen, fuel, now, r, hm⟩ := hstep
    have heffect := effect_of_handle hm
    exact ⟨LeftSettled.effect (s := { s with now }) hs.1 ⟨hs.2.sent, hs.2.known⟩ heffect (by cases e <;> exact hnone),
      hs.2.step ⟨hen, fuel, now, r, hm⟩⟩

theorem entriesPlaced_of_run (h₀ : Fresh s₀) (hr : Run (Guarded NothingPending (Undisturbed Harmless)) s₀ es s) :
    EntriesPlaced s := by
  refine hr.inv EntriesPlaced ?_ fun s e s' hs hstep => ?_
  · intro taskId hk
    rw [h₀.promiseResponseMap] at hk
    cases hk
  · obtain ⟨hnone, -, fuel, now, r, hm, hcaught, hret⟩ := hstep
    refine EntriesPlaced.effect (s := { s with now }) hs (effect_of_handle hm) ?_ hcaught.le (hret.imp_right ?_)
    · cases e <;> exact hnone
    · intro hh
      cases e with
      | message w m => cases m <;> exact hh
      | _ => exact hh

/-- When no exit finds a task whose promise is pending on the node that leaves, every promise whose task was
sent to a worker that has left has ended; and where no exception ends code with tasks in hand either, each
entry of the promise map belongs to a task that waits or is in flight in the pool. -/
theorem promises_settled_on_exit (h₀ : Fresh s₀) (hr : Run (Guarded NothingPending Step) s₀ es s) :
    (∀ n ∈ s.removedNodes, ∀ t ∈ n.worker.received, t.taskId ∈ s.settledIds) ∧
      (Run (Guarded NothingPending (Undisturbed Harmless)) s₀ es s →
        ∀ taskId ∈ s.promiseResponseMap.keys, ∃ n ∈ s.workerNodes, ∃ t ∈ n.held, t.taskId = taskId) :=
  ⟨leftSettled_of_run h₀ hr, entriesPlaced_of_run h₀⟩

end Runs

/-- Worker `0` exits with its task answered, while the second has one in flight. -/
theorem promises_settled_on_quiet_exit :
    ∃ s, (∃ n ∈ s.removedNodes, n.worker.received ≠ []) ∧ s.promiseResponseMap.keys ≠ [] ∧
      Run (Guarded NothingPending (Undisturbed Harmless)) (startedPool 2 false ⟨none, none, false, false⟩)
        [submit 0 0, respond 0 0, submit 1 1, .exit 0] s ∧
      (∀ n ∈ s.removedNodes, ∀ t ∈ n.worker.received, t.taskId ∈ s.settledIds) ∧
      ∀ taskId ∈ s.promiseResponseMap.keys, ∃ n ∈ s.workerNodes, ∃ t ∈ n.held, t.taskId = taskId := by
  obtain ⟨s, hr, hs⟩ := undisturbed_run_to NothingPending Harmless 1 (startedPool 2 false ⟨none, none, false, false⟩)
    [submit 0 0, respond 0 0, submit 1 1, .exit 0]
    (P := fun s => (∃ n ∈ s.removedNodes, n.worker.received ≠ []) ∧ s.promiseResponseMap.keys ≠ []) (by decide +kernel)
  have hr' : Run (Guarded NothingPending Step) _ _ s := hr.mono fun _ _ _ h => ⟨h.1, h.2.step⟩
  obtain ⟨hleft, hplaced⟩ := promises_settled_on_exit (fresh_startedPool 2 false _) hr'
  exact ⟨s, hs.1, hs.2, hr, hleft, hplaced hr⟩

/-- A worker exits with a task in flight: nothing settles its promise, and its entry stays. -/
theorem promise_pending_after_exit :
    ¬ ∀ (s₀ s : Pool Unit Unit) (es : List (Event Unit Unit)), Fresh s₀ → s₀.started = true → Run Step s₀ es s →
      (∀ n ∈ s.removedNodes, ∀ t ∈ n.worker.received, t.taskId ∈ s.settledIds) ∨
        ∀ taskId ∈ s.promiseResponseMap.keys, ∃ n ∈ s.workerNodes, ∃ t ∈ n.held, t.taskId = taskId := by
  intro hall
  obtain ⟨s, hr, hpending, hplaced⟩ := run_to (fun _ _ => True) 1 (startedPool 2 false ⟨none, none, false, false⟩)
    [submit 0 0, .exit 0]
    (P := fun s => (∃ n ∈ s.removedNodes, ∃ t ∈ n.worker.received, t.taskId ∉ s.settledIds) ∧
      0 ∈ s.promiseResponseMap.keys ∧ ∀ n ∈ s.workerNodes, n.tasksQueue = [] ∧ n.worker.unanswered = [])
    (by decide +kernel)
  rcases hall _ s _ (fresh_startedPool 2 false _) rfl (hr.mono fun _ _ _ h => h.2) with h | h
  · obtain ⟨n, hn, t, ht, hnot⟩ := hpending
    exact hnot (h n hn t ht)
  · obtain ⟨n, hn, t, ht, -⟩ := h 0 hplaced.1
    obtain ⟨hqueue, hflight⟩ := hplaced.2 n hn
    rw [WorkerNode.mem_held, hqueue, hflight] at ht
    rcases ht with ht | ht <;> cases ht

/-! ## Redistributed queues -/

/-- What waits in the queue of a worker of the pool. -/
def Pool.queueOf (s : Pool Data Response) (w : Nat) : List (Task Data) :=
  s.workerNodes[s.getWorkerNodeKeyByWorkerId w]?.elim [] (·.tasksQueue)

theorem Pool.queueOf_of_node {s : Pool Data Response} {w : Nat} {n : WorkerNode Data}
    (hn : s.workerNodes[s.getWorkerNodeKeyByWorkerId w]? = some n) : s.queueOf w = n.tasksQueue := by
  unfold Pool.queueOf
  rw [hn]
  rfl

section Redistribution
variable {s : Pool Data Response} {cb : Callbacks Data Response} {w : Nat}

theorem Pool.key_modifyNode (s : Pool Data Response) (k w : Nat) {f : WorkerNode Data → WorkerNode Data}
    (hf : ∀ n, (f n).info.id = n.info.id) :
    (s.modifyNode k f).getWorkerNodeKeyByWorkerId w = s.getWorkerNodeKeyByWorkerId w := by
  have hids : (s.workerNodes.modify k f).map (·.info.id) = s.workerNodes.map (·.info.id) :=
    map_modify_same fun n _ => hf n
  have hkey (l : List (WorkerNode Data)) : l.findIdx (·.info.id = w) = (l.map (·.info.id)).findIdx (· = w) := by
    rw [List.findIdx_map]
    rfl
  unfold Pool.getWorkerNodeKeyByWorkerId Pool.modifyNode
  rw [hkey, hkey, hids]

/-- The loop of a redistribution is left when the queue is empty, whatever callbacks have put there meanwhile. -/
theorem redistributeQueuedTasks_empties (fuel k : Nat) :
    wp (redistributeQueuedTasks cb fuel k) (fun _ s' => ∀ n, s'.workerNodes[k]? = some n → n.tasksQueue = [])
      (fun _ _ => True) s := by
  unfold redistributeQueuedTasks
  refine wp_mono (wp_whileDo (I := fun _ => True)
    (J := fun b (s' : Pool Data Response) => b = false → ∀ n, s'.workerNodes[k]? = some n → n.tasksQueue = [])
    trivial (fun s₁ _ => ?_) fun s₁ _ r s' _ => ?_) (fun _ _ h => h rfl) fun _ _ h => h
  · -- the condition is read off the node, so when it is false the queue is empty
    rcases hn : s₁.workerNodes[k]? with _ | n
    · simp only [tasksQueueNotEmpty, wp_bind, wp_nodeAt_none hn]
    · simp only [tasksQueueNotEmpty, wp_bind, wp_nodeAt hn, wp_pure]
      intro hfalse m hm
      rw [hn] at hm
      cases hm
      simpa using hfalse
  · cases r <;> trivial

/-- The queue of a worker of the pool is empty once it has been redistributed. -/
theorem queueOf_redistributed (hcb : CallbacksMove cb) (fuel : Nat) {k : Nat} (hk : s.getWorkerNodeKeyByWorkerId w = k) :
    wp (redistributeQueuedTasks cb fuel k) (fun _ s' => s'.queueOf w = []) (fun _ _ => True) s := by
  refine wp_mono (wp_and (moves_redistributeQueuedTasks hcb fuel k s) (redistributeQueuedTasks_empties fuel k))
    (fun _ s' h => ?_) fun _ _ _ => trivial
  obtain ⟨hr, hempty⟩ := h
  have hk' : s'.getWorkerNodeKeyByWorkerId w = k := (hr.frame.key_eq w).trans hk
  unfold Pool.queueOf
  rw [hk']
  rcases hn : s'.workerNodes[k]? with _ | n
  · rfl
  · exact hempty n hn

/-- A failed worker has nothing left in its queue when the handler of its error has returned. -/
theorem handleError_empties (hcb : CallbacksMove cb) (fuel : Nat) (hst : s.started = true)
    (hq : s.opts.enableTasksQueue = true) :
    wp (handleError cb fuel w) (fun _ s' => s'.queueOf w = []) (fun _ _ => True) s := by
  have hlast {s₁ : Pool Data Response} (hk : s₁.getWorkerNodeKeyByWorkerId w = s.getWorkerNodeKeyByWorkerId w) :
      wp (if (s.started && s.opts.enableTasksQueue) = true then
        redistributeQueuedTasks cb fuel (s.getWorkerNodeKeyByWorkerId w) else pure ())
        (fun _ s' => s'.queueOf w = []) (fun _ _ => True) s₁ := by
    rw [if_pos (by rw [hst, hq]; rfl)]
    exact queueOf_redistributed hcb fuel hk
  simp only [handleError, wp_bind, wp_get]
  rcases hn : s.workerNodes[s.getWorkerNodeKeyByWorkerId w]? with _ | n
  · rw [wp_nodeAt_none hn]
    trivial
  · rw [wp_nodeAt hn, wp_modifyNode]
    generalize hs₁ : s.modifyNode (s.getWorkerNodeKeyByWorkerId w)
      (fun n => { n.closeChannel with info.ready := false }) = s₁
    have hlen : s₁.workerNodes.length = s.workerNodes.length := by
      rw [← hs₁]
      exact Pool.length_modifyNode _ _ _
    have hkey : s₁.getWorkerNodeKeyByWorkerId w = s.getWorkerNodeKeyByWorkerId w := by
      rw [← hs₁]
      exact Pool.key_modifyNode s _ w fun n => rfl
    have hlt : s₁.getWorkerNodeKeyByWorkerId w < s₁.workerNodes.length := by
      rw [hkey, hlen]
      exact Pool.lt_of_node hn
    split
    · -- the node that comes is the last one, and leaves the key as it is
      split
      · rw [wp_bind]
        refine wp_mono createAndSetupDynamicWorkerNode_grows (fun _ s₂ h => ?_) fun _ _ _ => trivial
        exact hlast ((h.2.2.key_eq hlt).trans hkey)
      · rw [wp_bind]
        refine wp_mono createAndSetupWorkerNode_joins (fun _ s₂ h => ?_) fun _ _ _ => trivial
        exact hlast ((h.2.2.grown.key_eq hlt).trans hkey)
    · exact hlast hkey

end Redistribution

/-! ## Runs that watch the failed workers -/

/-- A pool, and the failed workers whose queues it has redistributed, with nothing put there since. -/
abbrev Drained (Data Response : Type) : Type := Pool Data Response × List Nat

/-- The worker whose queue an event makes the pool redistribute. -/
def redistributedBy (s : Pool Data Response) : Event Data Response → List Nat
  | .error w => if s.started && s.opts.enableTasksQueue then [w] else []
  | _ => []

/-- From `s` to `s'` no task is put in the queue of the worker. -/
def NonePut (s s' : Pool Data Response) (w : Nat) : Prop :=
  ∀ t ∈ s'.queueOf w, t.taskId ∈ (s.queueOf w).map (·.taskId)

instance (s s' : Pool Data Response) (w : Nat) : Decidable (NonePut s s' w) :=
  inferInstanceAs (Decidable (∀ t ∈ s'.queueOf w, _))

namespace Drained

/-- The workers watched after an event: a redistribution counts when the handler of the error has returned. -/
def watch (s : Pool Data Response) (e : Event Data Response) (s' : Pool Data Response) (ws : List Nat) :
    Except JsError Unit → List Nat
  | .ok () => redistributedBy s e ++ ws.filter fun w => NonePut s s' w
  | .error _ => ws.filter fun w => NonePut s s' w

/-- An event is handled, which ends with `r`. -/
def Ends (r : Except JsError Unit) (x : Drained Data Response) (e : Event Data Response) (x' : Drained Data Response) :
    Prop :=
  Enabled x.1 e ∧ (∃ fuel now, handle fuel e { x.1 with now } = some (r, x'.1)) ∧ x'.2 = watch x.1 e x'.1 x.2 r

def Step (x : Drained Data Response) (e : Event Data Response) (x' : Drained Data Response) : Prop :=
  ∃ r, Ends r x e x'

/-- A step whose code returns and catches no exception, or throws without harm to queued tasks. -/
def Undisturbed (x : Drained Data Response) (e : Event Data Response) (x' : Drained Data Response) : Prop :=
  ∃ r, Ends r x e x' ∧ x'.1.errorsCaught = x.1.errorsCaught ∧ (r = .ok () ∨ Spares x.1 e)

/-- A worker that exits has had its queue redistributed after its error, with nothing put there since, or does
not have the task in its queue; and the task is not in flight on it. -/
def ExitsClear (taskId : Nat) (x : Drained Data Response) : Event Data Response → Prop
  | .exit w => (w ∈ x.2 ∨ ∀ t ∈ x.1.queueOf w, t.taskId ≠ taskId) ∧
      ∀ n ∈ x.1.workerNodes[x.1.getWorkerNodeKeyByWorkerId w]?, ∀ t ∈ n.worker.unanswered, t.taskId ≠ taskId
  | _ => True

instance (taskId : Nat) (x : Drained Data Response) : DecidablePred (ExitsClear taskId x)
  | .exit w => inferInstanceAs (Decidable ((w ∈ x.2 ∨ ∀ t ∈ x.1.queueOf w, t.taskId ≠ taskId) ∧
      ∀ n ∈ x.1.workerNodes[x.1.getWorkerNodeKeyByWorkerId w]?, ∀ t ∈ n.worker.unanswered, t.taskId ≠ taskId))
  | .execute .. | .message .. | .poll _ | .error _ | .start | .enableTasksQueue .. | .setTasksQueueOptions _ | .destroy
  | .destroyed => inferInstanceAs (Decidable True)

/-- The watched workers that are in the pool have nothing in their queues. -/
def Emptied (x : Drained Data Response) : Prop := ∀ w ∈ x.2, x.1.queueOf w = []

section Steps
variable {x x' : Drained Data Response} {e : Event Data Response} {r : Except JsError Unit}

theorem Ends.step (h : Ends r x e x') : Poolifier.Step x.1 e x'.1 := by
  obtain ⟨hen, ⟨fuel, now, hm⟩, -⟩ := h
  exact ⟨hen, fuel, now, r, hm⟩

theorem redistributed_empty (h : Ends (.ok ()) x e x') {w : Nat} (hw : w ∈ redistributedBy x.1 e) : x'.1.queueOf w = [] := by
  obtain ⟨-, ⟨fuel, now, hm⟩, -⟩ := h
  cases e with
  | error v =>
    rw [redistributedBy] at hw
    split at hw
    · rename_i hon
      rw [List.mem_singleton] at hw
      subst hw
      simp only [Bool.and_eq_true] at hon
      have hempties := handleError_empties (s := { x.1 with now }) (w := w) (callbacks_move fuel) fuel hon.1 hon.2
      have hends := wp_ok hempties hm
      exact hends
    · cases hw
  | _ => cases hw

/-- What the watch says of the queues, every step keeps. -/
theorem Emptied.step (hx : Emptied x) (h : Ends r x e x') : Emptied x' := by
  have hkept {w : Nat} (hw : w ∈ x.2.filter fun w => NonePut x.1 x'.1 w) : x'.1.queueOf w = [] := by
    obtain ⟨hold, hnone⟩ := List.mem_filter.1 hw
    have hput : NonePut x.1 x'.1 w := of_decide_eq_true hnone
    rw [List.eq_nil_iff_forall_not_mem]
    intro t ht
    have hid := hput t ht
    rw [hx w hold] at hid
    cases hid
  intro w hw
  have hwatch := h.2.2
  cases r with
  | ok u =>
    rw [hwatch, watch, List.mem_append] at hw
    exact hw.elim (redistributed_empty h) hkept
  | error err =>
    rw [hwatch, watch] at hw
    exact hkept hw

theorem emptied_of_run {s₀ : Pool Data Response} {es : List (Event Data Response)} (hr : Run Step (s₀, []) es x) :
    Emptied x :=
  hr.inv Emptied (fun _ hw => by cases hw) fun _ _ _ hx hstep => hx.step hstep.choose_spec

/-- The node that leaves does not hold the task. -/
theorem Emptied.not_held (hx : Emptied x) {taskId w : Nat} (hclear : ExitsClear taskId x (.exit w)) {n : WorkerNode Data}
    (hn : x.1.workerNodes[x.1.getWorkerNodeKeyByWorkerId w]? = some n) {t : Task Data} (ht : t ∈ n.held) :
    t.taskId ≠ taskId := by
  obtain ⟨hqueue, hflight⟩ := hclear
  rcases WorkerNode.mem_held.1 ht with ht | ht
  · rw [← Pool.queueOf_of_node hn] at ht
    rcases hqueue with hw | hnot
    · rw [hx w hw] at ht
      cases ht
    · exact hnot t ht
  · exact hflight n hn t ht

/-- Steps computed with given fuel, at time zero. -/
def next (taskId fuel : Nat) (x : Drained Data Response) (e : Event Data Response) : Option (Drained Data Response) :=
  if ExitsClear taskId x e ∧ Enabled x.1 e then
    match handle fuel e { x.1 with now := 0 } with
    | some (.ok (), s') => if s'.errorsCaught = x.1.errorsCaught then some (s', watch x.1 e s' x.2 (.ok ())) else none
    | _ => none
  else none

theorem step_of_next {taskId fuel : Nat} (h : next taskId fuel x e = some x') :
    Guarded (ExitsClear taskId) Undisturbed x e x' := by
  unfold next at h
  split at h
  · rename_i hok
    split at h
    · rename_i s₁ hm
      split at h
      · rename_i hcaught
        cases h
        exact ⟨hok.1, .ok (), ⟨hok.2, ⟨fuel, 0, hm⟩, rfl⟩, hcaught, .inl rfl⟩
      · cases h
    · cases h
  · cases h

end Steps

end Drained

/-! ## Queued tasks are kept -/

/-- The task waits or is in flight on a node of the pool, or its promise has ended. -/
def Accounted (t : Task Data) (s : Pool Data Response) : Prop := t ∈ s.placed ∨ t.taskId ∈ s.settledIds

section Accounted
variable {s s' : Pool Data Response} {e : Event Data Response} {r : Except JsError Unit} {t : Task Data}

theorem TakenIn.accounted {taskId : Nat} (h : TakenIn taskId s s') (hp : Promised s 0) (ht : t ∈ s.placed) : Accounted t s' := by
  by_cases hid : t.taskId = taskId
  · refine .inr ?_
    rcases hp.known_placed ht with hk | hs
    · rw [hid] at hk ⊢
      exact h.ended hk
    · exact h.settled hs
  · exact .inl (h.stays ht hid)

theorem Accounted.left {k : Nat} {n : WorkerNode Data} (ht : t ∈ s.placed) (hn : s.workerNodes[k]? = some n)
    (hnot : t ∉ n.held) : Accounted t (s.removeNode k n) := by
  obtain ⟨a, ha, ht⟩ := Pool.mem_placed.1 ht
  rcases Pool.mem_removeNode hn ha with rfl | ha
  · exact absurd ht hnot
  · exact .inl (Pool.mem_placed.2 ⟨a, ha, ht⟩)

theorem Flow.kept {p p' : Pool Data Response} {h h' : Multiset (Task Data)} (hf : Flow (p, h) (p', h'))
    (hcaught : p'.errorsCaught ≤ p.errorsCaught) (ht : t ∈ p.placed) : t ∈ p'.placed + h' := by
  rw [hf.placed hcaught]
  exact Multiset.mem_add.2 (.inl ht)

theorem placed_settle (p : Pool Data Response) (taskId : Nat) (x : Settlement Response) :
    (p.settle taskId x).placed = p.placed := by
  unfold Pool.placed
  rw [Pool.settle_workerNodes]

theorem Accounted.effect (hk : Accounted t s) (hp : Promised s 0) (h : Effect s e r s')
    (hleaves : ∀ w, e = .exit w → ∀ n, s.workerNodes[s.getWorkerNodeKeyByWorkerId w]? = some n → t ∉ n.held)
    (hcaught : s'.errorsCaught ≤ s.errorsCaught) (hret : r = .ok () ∨ Spares s e) : Accounted t s' := by
  rcases hk with ht | hs
  · have hflow {p p' : Pool Data Response} (hf : Flow (p, 0) (p', 0)) (hle : p'.errorsCaught ≤ p.errorsCaught)
        (ht : t ∈ p.placed) : t ∈ p'.placed := by
      have := hf.kept hle ht
      rwa [add_zero] at this
    cases h with
    | flows hf => exact .inl (hflow hf hcaught ht)
    | fails lost hh hf => exact absurd (hret.resolve_left (by rintro ⟨⟩)) hh
    | @refused taskId name data choice x s₁ hf =>
      rw [Pool.settle_rest] at hcaught
      refine .inl ?_
      rw [placed_settle]
      exact hflow hf hcaught ht
    | @called taskId name data choice s₁ s' u k hid hf hf' =>
      have ht₁ := hflow hf (hf'.rest.2.2.2.trans hcaught) ht
      have ht' := hf'.kept (hcaught.trans hf.rest.2.2.2) ht₁
      rw [add_zero] at ht'
      exact .inl ht'
    | @callFails taskId name data choice x s₁ s₂ u k lost hh hid hf hf' hs =>
      -- only a call that sends its task at once may throw
      rcases hret.resolve_left (by rintro ⟨⟩) with hharmless | hsent | hdangling
      · exact absurd hharmless hh
      · refine .inl ?_
        rw [placed_settle, hs hsent]
        exact ht
      · exact hdangling.elim
    | @answered w m r s' n k lost hn hl hk hf hlost =>
      have hok : r = .ok () := by
        refine hret.resolve_right ?_
        rintro (hh | hh | ⟨j, hj, hnone⟩)
        · rw [Harmless, hn] at hh
          cases hh
        · exact hh
        · rw [hl] at hj
          cases hj
          rw [List.getElem?_eq_none_iff] at hnone
          omega
      rw [hlost hok] at hf
      rcases (takenIn_responded s w m k).accounted hp ht with ht' | hs'
      · refine .inl (hflow hf (hcaught.trans_eq ?_) ht')
        exact (responded_errorsCaught s w k m).symm
      · exact .inr (hf.noneLeft.settled hs')
    | unknownTask hn hl => exact (takenIn_unknownTask hl).accounted hp ht
    | dangling k hn hl hk => exact (takenIn_dangling s _ _).accounted hp ht
    | left hn => exact Accounted.left ht hn (hleaves _ rfl _ hn)
  · rcases h.noneLeft with hnone | ⟨w, n, rfl, hn, rfl⟩
    · exact .inr (hnone.settled hs)
    · exact .inr hs

/-- The task stays where the pool can reach it in every undisturbed step whose exit is clear of it. -/
theorem Accounted.step {x x' : Drained Data Response} (hk : Accounted t x.1) (hp : Promised x.1 0) (hx : x.Emptied)
    (h : Guarded (Drained.ExitsClear t.taskId) Drained.Undisturbed x e x') : Accounted t x'.1 := by
  obtain ⟨hclear, r, ⟨-, ⟨fuel, now, hm⟩, -⟩, hcaught, hret⟩ := h
  refine Accounted.effect (s := { x.1 with now }) hk ⟨hp.sent, hp.known⟩ (effect_of_handle hm) ?_ hcaught.le ?_
  · rintro w rfl n hn ht
    exact hx.not_held hclear hn ht rfl
  · refine hret.imp_right fun hspared => ?_
    cases e with
    | message w m => cases m <;> exact hspared
    | _ => exact hspared

/-- A failed worker whose queue has been redistributed, with nothing put there since, has an empty queue. And
while a worker exits only like that, or without the task in its queue, and no exception ends code with queued
tasks in hand, a task that waits in a queue is queued or sent until its promise ends. -/
theorem queued_task_kept {s₀ : Pool Data Response} {x₁ x₂ : Drained Data Response} {es₁ es₂ : List (Event Data Response)}
    (h₀ : Fresh s₀) (hr₁ : Run Drained.Step (s₀, []) es₁ x₁) {n : WorkerNode Data} (hn : n ∈ x₁.1.workerNodes)
    (ht : t ∈ n.tasksQueue) (hr₂ : Run (Guarded (Drained.ExitsClear t.taskId) Drained.Undisturbed) x₁ es₂ x₂) :
    (∀ w ∈ x₂.2, x₂.1.queueOf w = []) ∧ ((∃ a ∈ x₂.1.workerNodes, t ∈ a.held) ∨ t.taskId ∈ x₂.1.settledIds) := by
  have hkept : Accounted t x₁.1 := .inl (Pool.mem_placed.2 ⟨n, hn, WorkerNode.mem_held.2 (.inl ht)⟩)
  have hpromised : Promised x₁.1 0 := by
    refine hr₁.inv (fun x => Promised x.1 0) (promised_of_fresh h₀) fun _ _ _ hp hstep => ?_
    exact hp.step hstep.choose_spec.step
  have hend : Accounted t x₂.1 ∧ Promised x₂.1 0 ∧ x₂.Emptied := by
    refine hr₂.inv (fun x => Accounted t x.1 ∧ Promised x.1 0 ∧ x.Emptied)
      ⟨hkept, hpromised, Drained.emptied_of_run hr₁⟩ fun x e x' hx hstep => ?_
    obtain ⟨hacc, hprom, hempty⟩ := hx
    have hstep' := hstep
    obtain ⟨-, r, hends, -⟩ := hstep
    exact ⟨hacc.step hprom hempty hstep', hprom.step hends.step, hempty.step hends⟩
  exact ⟨hend.2.2, hend.1.imp Pool.mem_placed.1 id⟩

end Accounted

/-- The first of two workers fails with a task in flight and one in its queue, which goes to the second; then
the failed worker exits. -/
theorem queued_task_kept_after_error :
    ∃ x₁ x₂, Run Drained.Step (startedPool 2 true ⟨some 4, some 1, false, false⟩, []) [submit 0 0, submit 1 0] x₁ ∧
      Run (Guarded (Drained.ExitsClear 1) Drained.Undisturbed) x₁ [.error 0, .exit 0] x₂ ∧
      ∃ n ∈ x₁.1.workerNodes, n.info.id = 0 ∧ ∃ t ∈ n.tasksQueue, t.taskId = 1 ∧ (∀ w ∈ x₂.2, x₂.1.queueOf w = []) ∧
        ((∃ a ∈ x₂.1.workerNodes, t ∈ a.held) ∨ t.taskId ∈ x₂.1.settledIds) := by
  obtain ⟨x₁, hr₁, n, hn, hid, t, ht, htid, hsome⟩ := exists_run_of_replay (fun _ _ _ => Drained.step_of_next)
    (P := fun x : Drained Unit Unit => ∃ n ∈ x.1.workerNodes, n.info.id = 0 ∧ ∃ t ∈ n.tasksQueue, t.taskId = 1 ∧
      (replay (Drained.next 1 3) x [.error 0, .exit 0]).any (fun _ => decide True) = true)
    (show (replay (Drained.next 1 2) (startedPool 2 true ⟨some 4, some 1, false, false⟩, [])
      [submit 0 0, submit 1 0]).any _ = true by decide +kernel)
  have hr₁' : Run Drained.Step _ _ x₁ := hr₁.mono fun _ _ _ h => h.2.imp fun _ hx => hx.1
  obtain ⟨x₂, hr₂, -⟩ := exists_run_of_replay (fun _ _ _ => Drained.step_of_next) hsome
  refine ⟨x₁, x₂, hr₁', hr₂, n, hn, hid, t, ht, htid, ?_⟩
  exact queued_task_kept (fresh_startedPool 2 true _) hr₁' hn ht (by rwa [htid])

/-- A worker exits without an `error` event before: nothing moves its queue. -/
theorem queued_task_dropped_on_exit :
    ¬ ∀ (s₀ s s' : Pool Unit Unit) (es : List (Event Unit Unit)), Fresh s₀ → s₀.started = true →
      s₀.opts.enableTasksQueue = true → Run Step s₀ es s → s.destroying = false →
      ∀ n ∈ s.workerNodes, Run Step s [.exit n.info.id] s' → ∀ t ∈ n.tasksQueue,
        (∃ a ∈ s'.workerNodes, t ∈ a.held) ∨ t.taskId ∈ s'.settledIds := by
  intro hall
  obtain ⟨s, hr, hdestroying, n, hn, t, ht, hexit⟩ := run_to (fun _ _ => True) 2
    (startedPool 2 true ⟨some 4, some 1, false, false⟩) [submit 0 0, submit 1 0]
    (P := fun s => s.destroying = false ∧ ∃ n ∈ s.workerNodes, ∃ t ∈ n.tasksQueue,
      (replay (nextIf (fun _ _ => True) 1) s [.exit n.info.id]).any (fun s' => decide
        ((∀ a ∈ s'.workerNodes, a.tasksQueue = [] ∧ a.worker.unanswered = []) ∧ t.taskId ∉ s'.settledIds)) = true)
    (by decide +kernel)
  obtain ⟨s', hr', hnone, hpending⟩ := exists_run_of_replay (fun _ _ _ => step_of_nextIf) hexit
  rcases hall _ s s' _ (fresh_startedPool 2 true _) rfl rfl (hr.mono fun _ _ _ h => h.2) hdestroying n hn
    (hr'.mono fun _ _ _ h => h.2) t ht with ⟨a, ha, hheld⟩ | hsettled
  · obtain ⟨hqueue, hflight⟩ := hnone a ha
    rw [WorkerNode.mem_held, hqueue, hflight] at hheld
    rcases hheld with h | h <;> cases h
  · exact hpending hsettled

end Poolifier
