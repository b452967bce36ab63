import Poolifier.QueueRuns
/-!
# The keys in the promise map

`execute` remembers the node of a task as an index into `workerNodes`, and
`removeWorkerNode` splices that array. The index stays right for the tasks in
flight on the nodes before the one that leaves, and for these the response is
counted where it should be. For a task in flight behind it the index is off by
one from then on: its response is counted at another node, or throws.
-/

namespace Poolifier

open EffLib RunLib MapLib WorkerNode

variable {Data Response : Type}

/-! ## One response -/

/-- From `s` to `s'` the response `m` of the worker `w` is counted once, at the node of `w`, and the
promise map forgets its task. -/
structure CountedOnce (s : Pool Data Response) (w : Nat) (m : TaskResponse Response) (s' : Pool Data Response) :
    Prop where
  sender : ∃ n n', s.workerNodes[s.getWorkerNodeKeyByWorkerId w]? = some n ∧
    s'.workerNodes[s.getWorkerNodeKeyByWorkerId w]? = some n' ∧ 0 < n.usage.tasks.executing ∧
    n'.usage.tasks = { n.usage.tasks with
      executing := n.usage.tasks.executing - 1
      executed := n.usage.tasks.executed + if m.workerError.isNone then 1 else 0
      failed := n.usage.tasks.failed + if m.workerError.isNone then 0 else 1 }
  others : ∀ i, i ≠ s.getWorkerNodeKeyByWorkerId w →
    (s'.workerNodes[i]?).map (·.usage) = (s.workerNodes[i]?).map (·.usage)
  erased : s'.promiseResponseMap.lookup m.taskId = none

section Response
variable (cb : Callbacks Data Response) (fuel : Nat) {s : Pool Data Response} {w k : Nat} {m : TaskResponse Response}
  {n : WorkerNode Data}

/-- With the queue off, the handler is done once it has counted the response. -/
theorem taskResponse_eq (hq : s.opts.enableTasksQueue = false)
    (hn : s.workerNodes[s.getWorkerNodeKeyByWorkerId w]? = some n) (hl : s.promiseResponseMap.lookup m.taskId = some k)
    (hk : k < s.workerNodes.length) :
    handleMessage cb fuel w (.taskResponse m) s = some (.ok (), s.responded w m k) := by
  have hk' : k < (s.modifyNode (s.getWorkerNodeKeyByWorkerId w) (·.answer m.taskId)).workerNodes.length := by
    rw [Pool.length_modifyNode]
    exact hk
  obtain ⟨b, hb⟩ := Pool.node_of_lt hk'
  rw [handleMessage_taskResponse_eq hn, handleTaskExecutionResponse_eq (s := s.modifyNode _ _) hl hb]
  show executeNextTask cb k (s.responded w m k) = _
  have hoff : (s.responded w m k).opts.enableTasksQueue = false := by
    rw [responded_opts]
    exact hq
  unfold executeNextTask
  rw [get_bind, if_neg (by rw [hoff]; exact Bool.false_ne_true)]
  rfl

/-- The key of the promise is out of range: the handler throws. -/
theorem taskResponse_dangling (hn : s.workerNodes[s.getWorkerNodeKeyByWorkerId w]? = some n)
    (hl : s.promiseResponseMap.lookup m.taskId = some k) (hk : s.workerNodes[k]? = none) {Q} :
    ¬ Returns (handleMessage cb fuel w (.taskResponse m)) Q s := by
  have hk' : (s.modifyNode (s.getWorkerNodeKeyByWorkerId w) (·.answer m.taskId)).workerNodes[k]? = none := by
    rw [Pool.getElem?_modifyNode, hk]
    rfl
  intro hret
  obtain ⟨a, s', hm, -⟩ := hret
  rw [handleMessage_taskResponse_eq hn] at hm
  have hthrow : wp (handleTaskExecutionResponse cb m) (fun _ _ => False) (fun _ _ => True)
      (s.modifyNode (s.getWorkerNodeKeyByWorkerId w) (·.answer m.taskId)) :=
    (wp_response_dangling (s := s.modifyNode _ _) hl hk').2 trivial
  have hfalse := wp_ok hthrow hm
  exact hfalse

/-- There is no entry: the handler does nothing more. -/
theorem taskResponse_unknown (hn : s.workerNodes[s.getWorkerNodeKeyByWorkerId w]? = some n)
    (hl : s.promiseResponseMap.lookup m.taskId = none) :
    handleMessage cb fuel w (.taskResponse m) s =
      some (.ok (), s.modifyNode (s.getWorkerNodeKeyByWorkerId w) (·.answer m.taskId)) := by
  rw [handleMessage_taskResponse_eq hn]
  unfold handleTaskExecutionResponse
  have hl' : (s.modifyNode (s.getWorkerNodeKeyByWorkerId w) (·.answer m.taskId)).promiseResponseMap.lookup m.taskId = none := hl
  rw [get_bind, hl']
  rfl

/-- A response is counted as it should be just when its promise names the node of its worker. -/
theorem countedOnce_iff (hq : s.opts.enableTasksQueue = false)
    (hn : s.workerNodes[s.getWorkerNodeKeyByWorkerId w]? = some n) (hpos : 0 < n.usage.tasks.executing) :
    Returns (handleMessage cb fuel w (.taskResponse m)) (fun _ => CountedOnce s w m) s ↔
      s.promiseResponseMap.lookup m.taskId = some (s.getWorkerNodeKeyByWorkerId w) := by
  constructor
  · intro hret
    rcases hl : s.promiseResponseMap.lookup m.taskId with _ | k
    · -- nothing was counted
      obtain ⟨a, s', hm, hc⟩ := hret
      rw [taskResponse_unknown cb fuel hn hl] at hm
      cases hm
      obtain ⟨b, b', hb, hb', -, htasks⟩ := hc.sender
      rw [hn] at hb
      cases hb
      rw [Pool.getElem?_modifyNode_self _ hn] at hb'
      cases hb'
      have := congrArg TaskStatistics.executing htasks
      simp only [answer] at this
      omega
    · rcases hk : s.workerNodes[k]? with _ | b
      · exact absurd hret (taskResponse_dangling cb fuel hn hl hk)
      · by_contra hne
        -- counted at another node, so not at that of the sender
        obtain ⟨a, s', hm, hc⟩ := hret
        rw [taskResponse_eq cb fuel hq hn hl (Pool.lt_of_node hk)] at hm
        cases hm
        obtain ⟨c, c', hc₁, hc', -, htasks⟩ := hc.sender
        obtain ⟨d, hd, hans⟩ := Pool.node_of_responded hc'
        rw [hn] at hc₁ hd
        cases hc₁
        cases hd
        have hexec := hans.executing
        rw [if_neg fun h => hne (congrArg some h)] at hexec
        have := congrArg TaskStatistics.executing htasks
        simp only at this
        omega
  · intro hl
    refine ⟨(), _, taskResponse_eq cb fuel hq hn hl (Pool.lt_of_node hn), ⟨?_, fun i hi => ?_, ?_⟩⟩
    · obtain ⟨n', hn'⟩ := Pool.node_of_length (Pool.length_responded s w m (s.getWorkerNodeKeyByWorkerId w)) hn
      obtain ⟨b, hb, hans⟩ := Pool.node_of_responded hn'
      rw [hn] at hb
      cases hb
      obtain ⟨requirements, husage⟩ := hans.usage
      rw [if_pos rfl] at husage
      refine ⟨n, n', hn, hn', hpos, ?_⟩
      rw [husage, WorkerUsage.afterTaskExecution_tasks]
    · rcases hi' : (s.responded w m (s.getWorkerNodeKeyByWorkerId w)).workerNodes[i]? with _ | b'
      · have hnone : s.workerNodes[i]? = none := by
          rw [List.getElem?_eq_none_iff] at hi' ⊢
          simpa only [Pool.length_responded] using hi'
        rw [hnone]
      · obtain ⟨b, hb, hans⟩ := Pool.node_of_responded hi'
        obtain ⟨requirements, husage⟩ := hans.usage
        rw [if_neg (Ne.symm hi)] at husage
        rw [hb, Option.map_some, Option.map_some, husage]
    · show (s.promiseResponseMap.erase m.taskId).lookup m.taskId = none
      rw [AList.lookup_erase]

end Response

/-! ## What keeps the keys right -/

/-- The promises of the tasks in flight on the node `i` name that node, and the node counts them all. -/
structure Addressed (map : AList fun _ : Nat => Nat) (i : Nat) (n : WorkerNode Data) : Prop where
  entry : ∀ t ∈ n.worker.unanswered, map.lookup t.taskId = some i
  distinct : (n.worker.unanswered.map (·.taskId)).Nodup
  counted : n.worker.unanswered.length ≤ n.usage.tasks.executing

/-- A pool with the queue off in which every promise of a task in flight names the right node. -/
structure KeysRight (p : Pool Data Response) : Prop where
  queueOff : p.opts.enableTasksQueue = false
  ids : (p.workerNodes.map (·.info.id)).Nodup
  idsBelow : ∀ n ∈ p.workerNodes, n.info.id < p.nextWorkerId
  known : ∀ taskId k, p.promiseResponseMap.lookup taskId = some k → taskId ∈ p.uuids
  nodes : p.All (Addressed p.promiseResponseMap)

/-- No task is in flight on a node behind the one that leaves. -/
def NoneBehind (s : Pool Data Response) : Event Data Response → Prop
  | .exit w => ∀ n ∈ s.workerNodes.drop (s.getWorkerNodeKeyByWorkerId w + 1), n.worker.unanswered.length = 0
  | _ => True

instance (s : Pool Data Response) : DecidablePred (NoneBehind s)
  | .exit w => inferInstanceAs (Decidable (∀ n ∈ s.workerNodes.drop (s.getWorkerNodeKeyByWorkerId w + 1),
      n.worker.unanswered.length = 0))
  | .execute .. | .poll _ | .enableTasksQueue .. | .setTasksQueueOptions _ | .message _ _ | .error _ | .start
  | .destroy | .destroyed => inferInstanceAs (Decidable True)

/-- Calls of `execute`, which create dynamic workers, messages and responses of the workers, and exits. -/
def CallOrExit : Event Data Response → Prop
  | .execute .. => True
  | .message _ (.taskResponse _) => True
  | .message _ (.ready ..) => True
  | .message _ (.taskFunctionNames _) => True
  | .exit _ => True
  | _ => False

instance : DecidablePred (CallOrExit : Event Data Response → Prop)
  | .execute .. | .message _ (.taskResponse _) | .message _ (.ready ..) | .message _ (.taskFunctionNames _) | .exit _ =>
    inferInstanceAs (Decidable True)
  | .message _ (.killRequest _) | .message _ (.killAnswer _) | .poll _ | .enableTasksQueue ..
  | .setTasksQueueOptions _ | .error _ | .start | .destroy | .destroyed => inferInstanceAs (Decidable False)

section Keeps
variable {p p' : Pool Data Response} {k : Nat} {n : WorkerNode Data} {t : Task Data}

theorem KeysRight.of_fresh (h : Fresh p) (hq : p.opts.enableTasksQueue = false) : KeysRight p where
  queueOff := hq
  ids := h.ids
  idsBelow := h.idsBelow
  known taskId k hl := by
    rw [h.promiseResponseMap] at hl
    cases hl
  nodes i n hn := by
    have hnew := h.nodes n (List.mem_of_getElem? hn)
    constructor
    · rw [hnew.worker]
      intro t ht
      cases ht
    · rw [hnew.worker]
      exact List.nodup_nil
    · rw [hnew.worker]
      exact Nat.zero_le _

/-- New nodes have no task in flight. -/
theorem KeysRight.grown (h : KeysRight p) (hg : Grown p p') : KeysRight p' := by
  obtain ⟨new, hnodes, -, -, hnew⟩ := hg.nodes
  obtain ⟨hids, hbelow⟩ := hg.ids h.ids h.idsBelow
  have hrest := hg.rest
  refine ⟨?_, hids, hbelow, ?_, fun i a ha => ?_⟩
  · rw [hrest]
    exact h.queueOff
  · rw [hrest]
    exact h.known
  · rw [hrest]
    rw [hnodes, List.getElem?_append] at ha
    split at ha
    · exact h.nodes i a ha
    · have hn := hnew a (List.mem_of_getElem? ha)
      constructor
      · rw [hn.worker]
        intro t ht
        cases ht
      · rw [hn.worker]
        exact List.nodup_nil
      · rw [hn.worker]
        exact Nat.zero_le _

/-- Only these fields matter to the keys. -/
theorem KeysRight.of_rest (h : KeysRight p) (hrest : p' = { p with
    settled := p'.settled, now := p'.now, uuids := p'.uuids, removedNodes := p'.removedNodes })
    (huuids : p.uuids ⊆ p'.uuids) : KeysRight p' := by
  rw [hrest]
  exact ⟨h.queueOff, h.ids, h.idsBelow, fun i k hl => huuids (h.known i k hl), h.nodes⟩

theorem KeysRight.settle (h : KeysRight p) (taskId : Nat) (r : Settlement Response) : KeysRight (p.settle taskId r) := by
  have hrest := Pool.settle_rest p taskId r
  refine h.of_rest ?_ ?_
  · rw [hrest]
  · rw [hrest]
    exact fun _ hi => hi

/-- An update of a node that leaves its identity and its tasks in flight alone. -/
theorem KeysRight.modifyNode (h : KeysRight p) (k : Nat) {f : WorkerNode Data → WorkerNode Data}
    (hf : ∀ n, (f n).info.id = n.info.id ∧ (f n).worker = n.worker ∧
      n.usage.tasks.executing ≤ (f n).usage.tasks.executing) : KeysRight (p.modifyNode k f) := by
  have hids : (p.modifyNode k f).workerNodes.map (·.info.id) = p.workerNodes.map (·.info.id) :=
    map_modify_same fun n _ => (hf n).1
  refine ⟨h.queueOff, ?_, fun a ha => ?_, h.known, ?_⟩
  · rw [hids]
    exact h.ids
  · have hm : a.info.id ∈ (p.modifyNode k f).workerNodes.map (·.info.id) := List.mem_map_of_mem ha
    rw [hids] at hm
    obtain ⟨b, hb, he⟩ := List.mem_map.1 hm
    rw [← he]
    exact h.idsBelow b hb
  · refine h.nodes.modifyNode fun n _ hn => ?_
    obtain ⟨hentry, hdistinct, hcounted⟩ := hn
    obtain ⟨-, hworker, hexec⟩ := hf n
    constructor
    · rw [hworker]
      exact hentry
    · rw [hworker]
      exact hdistinct
    · rw [hworker]
      omega

/-- The promise of a new task is put in the map, under the key `k`. -/
theorem KeysRight.withPromise (h : KeysRight p) {taskId : Nat} (hnew : p.promiseResponseMap.lookup taskId = none)
    (hid : taskId ∈ p.uuids) (k : Nat) : KeysRight (p.withPromise taskId k) ∧
      ∀ (i : Nat) n, p.workerNodes[i]? = some n → ∀ t ∈ n.worker.unanswered, t.taskId ≠ taskId := by
  have hother (i : Nat) (n : WorkerNode Data) (hn : p.workerNodes[i]? = some n) (t : Task Data)
      (ht : t ∈ n.worker.unanswered) : t.taskId ≠ taskId := by
    intro he
    have := (h.nodes i n hn).entry t ht
    rw [he, hnew] at this
    cases this
  refine ⟨⟨h.queueOff, h.ids, h.idsBelow, fun i j hl => ?_, fun i n hn => ?_⟩, hother⟩
  · by_cases hi : i = taskId
    · rw [hi]
      exact hid
    · have hl' : p.promiseResponseMap.lookup i = some j := by
        have hl' : AList.lookup i (p.promiseResponseMap.insert taskId k) = some j := hl
        rwa [AList.lookup_insert_ne hi] at hl'
      exact h.known i j hl'
  · obtain ⟨hentry, hdistinct, hcounted⟩ := h.nodes i n hn
    refine ⟨fun t ht => ?_, hdistinct, hcounted⟩
    show AList.lookup t.taskId (p.promiseResponseMap.insert taskId k) = some i
    rw [AList.lookup_insert_ne (hother i n hn t ht)]
    exact hentry t ht

/-- A task is sent to the node that its promise names. -/
theorem KeysRight.send (h : KeysRight p) (hl : p.promiseResponseMap.lookup t.taskId = some k)
    (hnew : ∀ (i : Nat) n, p.workerNodes[i]? = some n → ∀ u ∈ n.worker.unanswered, u.taskId ≠ t.taskId) :
    KeysRight (p.modifyNode k (p.startTask t)) := by
  have hinfo (a : WorkerNode Data) : (p.startTask t a).info = a.info :=
    ((sameSetup_beforeTaskExecution _ _ _ a).trans (sameSetup_receive _ t)).info
  have hids : (p.modifyNode k (p.startTask t)).workerNodes.map (·.info.id) = p.workerNodes.map (·.info.id) :=
    map_modify_same fun a _ => by rw [hinfo]
  refine ⟨h.queueOff, ?_, fun a ha => ?_, h.known, ?_⟩
  · rw [hids]
    exact h.ids
  · have hm : a.info.id ∈ (p.modifyNode k (p.startTask t)).workerNodes.map (·.info.id) := List.mem_map_of_mem ha
    rw [hids] at hm
    obtain ⟨b, hb, he⟩ := List.mem_map.1 hm
    rw [← he]
    exact h.idsBelow b hb
  · refine h.nodes.modifyNode fun a ha haddr => ?_
    obtain ⟨hentry, hdistinct, hcounted⟩ := haddr
    constructor
    · intro u hu
      rw [startTask_worker, List.mem_append, List.mem_singleton] at hu
      rcases hu with hu | rfl
      · exact hentry u hu
      · exact hl
    · rw [startTask_worker]
      exact nodup_map_concat hdistinct (hnew k a ha)
    · rw [startTask_executing, length_unanswered_startTask]
      omega

theorem ids_responded (p : Pool Data Response) (w k : Nat) (m : TaskResponse Response) :
    (p.responded w m k).workerNodes.map (·.info.id) = p.workerNodes.map (·.info.id) := by
  apply List.ext_getElem?
  intro i
  rw [List.getElem?_map, List.getElem?_map]
  rcases hi : (p.responded w m k).workerNodes[i]? with _ | a
  · have hnone : p.workerNodes[i]? = none := by
      rw [List.getElem?_eq_none_iff] at hi ⊢
      simpa only [Pool.length_responded] using hi
    rw [hnone]
  · obtain ⟨b, hb, hans⟩ := Pool.node_of_responded hi
    rw [hb, Option.map_some, Option.map_some, hans.info]

/-- The task that the worker has answered is gone, and the entries of its other tasks are not. -/
theorem Addressed.answered {map : AList fun _ : Nat => Nat} {n n' : WorkerNode Data} {m : TaskResponse Response}
    (h : Addressed map k n) (hans : Answered m k k k n n') (hm : m.taskId ∈ n.worker.unanswered.map (·.taskId)) :
    Addressed (map.erase m.taskId) k n' := by
  have hworker := hans.worker
  have hexec := hans.executing
  rw [if_pos rfl] at hworker hexec
  have hsub : (n.answer m.taskId).worker.unanswered.Sublist n.worker.unanswered := List.eraseP_sublist
  constructor
  · intro u hu
    rw [hworker] at hu
    -- ids are distinct, so no other task has the one that was answered
    rw [AList.lookup_erase_ne (ne_of_mem_eraseP h.distinct hu)]
    exact h.entry u (hsub.subset hu)
  · rw [hworker]
    exact h.distinct.sublist (hsub.map _)
  · have hcounted := h.counted
    rw [hworker, hexec, length_unanswered_answer hm]
    omega

/-- A response of another worker, whose promise names another node, changes nothing here. -/
theorem Addressed.unanswered {map : AList fun _ : Nat => Nat} {i : Nat} {n n' : WorkerNode Data}
    {m : TaskResponse Response} (h : Addressed map i n) (hans : Answered m k k i n n')
    (hhome : map.lookup m.taskId = some k) (hne : k ≠ i) : Addressed (map.erase m.taskId) i n' := by
  have hworker := hans.worker
  have hexec := hans.executing
  rw [if_neg hne] at hworker hexec
  constructor
  · intro u hu
    rw [hworker] at hu
    have hentry := h.entry u hu
    rw [AList.lookup_erase_ne ?_]
    · exact hentry
    · intro heq
      rw [heq, hhome] at hentry
      exact hne (Option.some.inj hentry)
  · rw [hworker]
    exact h.distinct
  · rw [hworker, hexec]
    exact h.counted

/-- A response that is counted at its sender. -/
theorem KeysRight.responded (h : KeysRight p) {w : Nat} {m : TaskResponse Response}
    (hn : p.workerNodes[p.getWorkerNodeKeyByWorkerId w]? = some n)
    (hm : m.taskId ∈ n.worker.unanswered.map (·.taskId)) :
    KeysRight (p.responded w m (p.getWorkerNodeKeyByWorkerId w)) := by
  have hids := ids_responded p w (p.getWorkerNodeKeyByWorkerId w) m
  have hrest := responded_rest p w (p.getWorkerNodeKeyByWorkerId w) m
  obtain ⟨t₀, ht₀, hid₀⟩ := List.mem_map.1 hm
  have hhome : p.promiseResponseMap.lookup m.taskId = some (p.getWorkerNodeKeyByWorkerId w) := by
    rw [← hid₀]
    exact (h.nodes _ n hn).entry t₀ ht₀
  refine ⟨?_, ?_, fun a ha => ?_, fun i k hl => ?_, fun i a ha => ?_⟩
  · rw [hrest]
    exact h.queueOff
  · rw [hids]
    exact h.ids
  · have hmem : a.info.id ∈ (p.responded w m (p.getWorkerNodeKeyByWorkerId w)).workerNodes.map (·.info.id) :=
      List.mem_map_of_mem ha
    rw [hids] at hmem
    obtain ⟨b, hb, he⟩ := List.mem_map.1 hmem
    rw [hrest, ← he]
    exact h.idsBelow b hb
  · have hl' : (p.promiseResponseMap.erase m.taskId).lookup i = some k := hl
    have hne : i ≠ m.taskId := by
      intro he
      rw [he, AList.lookup_erase] at hl'
      cases hl'
    rw [AList.lookup_erase_ne hne] at hl'
    rw [hrest]
    exact h.known i k hl'
  · obtain ⟨b, hb, hans⟩ := Pool.node_of_responded ha
    by_cases hi : p.getWorkerNodeKeyByWorkerId w = i
    · subst hi
      rw [hn] at hb
      cases hb
      exact (h.nodes _ n hn).answered hans hm
    · exact (h.nodes i b hb).unanswered hans hhome hi

/-- A node leaves, with no task in flight behind it. -/
theorem KeysRight.exit (h : KeysRight p) {j : Nat}
    (hbehind : ∀ n ∈ p.workerNodes.drop (j + 1), n.worker.unanswered.length = 0) (removed : List (WorkerNode Data)) :
    KeysRight { p with workerNodes := p.workerNodes.eraseIdx j, removedNodes := removed } := by
  have hsub : (p.workerNodes.eraseIdx j).Sublist p.workerNodes := List.eraseIdx_sublist _ _
  refine ⟨h.queueOff, h.ids.sublist (hsub.map _), fun a ha => h.idsBelow a (hsub.subset ha), h.known, fun i a ha => ?_⟩
  have ha' : (p.workerNodes.eraseIdx j)[i]? = some a := ha
  rw [List.getElem?_eraseIdx] at ha'
  split at ha'
  · exact h.nodes i a ha'
  · -- this node has moved down by one
    have hnil : a.worker.unanswered = [] := by
      have hmem : a ∈ p.workerNodes.drop (j + 1) := by
        refine List.mem_of_getElem? (i := i - j) ?_
        rw [List.getElem?_drop]
        rwa [show j + 1 + (i - j) = i + 1 by omega]
      exact List.length_eq_zero_iff.1 (hbehind a hmem)
    obtain ⟨-, hdistinct, hcounted⟩ := h.nodes (i + 1) a ha'
    refine ⟨fun u hu => ?_, hdistinct, hcounted⟩
    rw [hnil] at hu
    cases hu

/-- A node that has moved down with a task in flight has a promise that names another node. -/
theorem KeysRight.exit_wrong (h : KeysRight p) {j : Nat} {removed : List (WorkerNode Data)}
    (h' : KeysRight { p with workerNodes := p.workerNodes.eraseIdx j, removedNodes := removed }) :
    ∀ n ∈ p.workerNodes.drop (j + 1), n.worker.unanswered.length = 0 := by
  intro n hn
  obtain ⟨i, hi⟩ := List.mem_iff_getElem?.1 hn
  rw [List.getElem?_drop] at hi
  rcases hu : n.worker.unanswered with _ | ⟨t, l⟩
  · rfl
  · have ht : t ∈ n.worker.unanswered := by
      rw [hu]
      exact List.mem_cons_self
    have hold := (h.nodes _ n hi).entry t ht
    have hmoved : (p.workerNodes.eraseIdx j)[j + i]? = some n := by
      rw [List.getElem?_eraseIdx, if_neg (by omega)]
      rwa [show j + i + 1 = j + 1 + i by omega]
    have hnew := (h'.nodes (j + i) n hmoved).entry t ht
    have hnew' : p.promiseResponseMap.lookup t.taskId = some (j + i) := hnew
    rw [hold] at hnew'
    have := Option.some.inj hnew'
    omega

end Keeps

/-! ## Runs -/

section Runs
variable {s₀ s s' : Pool Data Response} {e : Event Data Response} {fuel : Nat}

/-- With the queue off, a call sends its task to the node that its promise names, or throws. -/
theorem dispatchTask_keysRight {cb : Callbacks Data Response} {k : Nat} {t : Task Data} (h : KeysRight s)
    (hnew : s.promiseResponseMap.lookup t.taskId = none) (hid : t.taskId ∈ s.uuids) :
    wp (dispatchTask cb k t) (fun _ => KeysRight) (fun _ => KeysRight) (s.withPromise t.taskId k) := by
  obtain ⟨hp, hother⟩ := h.withPromise hnew hid k
  rcases hn : (s.withPromise t.taskId k).workerNodes[k]? with _ | n
  · rw [wp_dispatchTask_unknown hn]
    exact hp
  · simp only [dispatchTask, wp_bind, wp_get, hp.queueOff, Bool.false_eq_true, if_false]
    rcases hc : (s.withPromise t.taskId k).canSend n t with _ | _
    · refine wp_executeTask_throws hn hc fun x => ?_
      refine hp.modifyNode k fun a => ?_
      obtain ⟨u, hu⟩ := beforeTaskExecution_eq (s.withPromise t.taskId k).taskStatisticsRequirements
        (s.withPromise t.taskId k).now t a
      rw [hu]
      exact ⟨rfl, rfl, Nat.le_succ _⟩
    · rw [wp_executeTask hn hc]
      exact hp.send (AList.lookup_insert _) hother

theorem handle_keysRight (fuel : Nat) (h : KeysRight s) (he : CallOrExit e) (hbehind : NoneBehind s e) (hen : Enabled s e) :
    wp (handle fuel e) (fun _ => KeysRight) (fun _ => KeysRight) s := by
  cases e with
  | execute taskId name data choice =>
    have h₁ : KeysRight { s with uuids := taskId :: s.uuids } :=
      h.of_rest rfl (List.subset_cons_self taskId s.uuids)
    refine wp_execute (fun x s₁ hg _ => (h₁.grown hg).settle _ _) fun k s₁ hg _ _ _ _ => ?_
    have hrest := hg.rest
    have hnew : s₁.promiseResponseMap.lookup taskId = none := by
      rw [hrest]
      rcases hl : s.promiseResponseMap.lookup taskId with _ | j
      · rfl
      · exact absurd (h.known taskId j hl) hen
    have hid : taskId ∈ s₁.uuids := by
      rw [hrest]
      exact List.mem_cons_self
    exact wp_mono (dispatchTask_keysRight (t := ⟨name.getD defaultTaskName, data, s.now, taskId⟩) (h₁.grown hg) hnew hid)
      (fun _ _ h => h) fun x s₂ h => h.settle _ _
  | message w message =>
    rcases hn : s.workerNodes[s.getWorkerNodeKeyByWorkerId w]? with _ | n
    · exact wp_message_unknown hn fun _ => h
    · refine wp_message hn ?_ ?_ ?_ ?_ ?_ ?_ ?_ ?_
      · intro names _
        exact h.modifyNode _ fun a => ⟨rfl, rfl, Nat.le_refl _⟩
      · intro _ _ _
        exact h
      · intro names _
        exact h.modifyNode _ fun a => ⟨rfl, rfl, Nat.le_refl _⟩
      · rintro m rfl
        have hin : m.taskId ∈ n.worker.unanswered.map (·.taskId) := by
          rcases hen with ⟨a, ha, hid, hm⟩ | ⟨hnone, -⟩
          · have hat := Pool.node_of_key h.ids ha
            rw [hid, hn] at hat
            cases hat
            exact hm
          · exact absurd (Pool.id_of_key hn) (hnone n (List.mem_of_getElem? hn))
        obtain ⟨t, ht, hid⟩ := List.mem_map.1 hin
        have hl := (h.nodes _ n hn).entry t ht
        rw [hid] at hl
        have heq := taskResponse_eq (callbacks fuel) fuel h.queueOff hn hl (Pool.lt_of_node hn)
        rw [handleMessage_taskResponse_eq hn] at heq
        unfold wp
        rw [heq]
        intro r s' hr
        cases hr
        exact h.responded hn hin
      · rintro behavior rfl
        exact he.elim
      · rintro behavior rfl
        exact he.elim
      · rintro rfl
        exact he.elim
      · rintro rfl
        exact he.elim
  | exit w =>
    simp only [handle, removeWorkerNode, wp_modify]
    split
    · exact h
    · exact h.exit hbehind _
  | poll w => exact he.elim
  | error w => exact he.elim
  | start => exact he.elim
  | enableTasksQueue b o => exact he.elim
  | setTasksQueueOptions o => exact he.elim
  | destroy => exact he.elim
  | destroyed => exact he.elim

theorem KeysRight.now (h : KeysRight s) (now : ℚ) : KeysRight { s with now } :=
  h.of_rest rfl fun _ hi => hi

/-- While nodes leave only with no task in flight behind them, the promises name the right nodes. -/
theorem keysRight_of_run {es : List (Event Data Response)} (h₀ : Fresh s₀) (hq : s₀.opts.enableTasksQueue = false)
    (hr : Run (Guarded (fun s e => CallOrExit e ∧ NoneBehind s e) Step) s₀ es s) : KeysRight s := by
  refine hr.inv KeysRight (.of_fresh h₀ hq) fun s e s' h hstep => ?_
  obtain ⟨⟨he, hbehind⟩, hen, fuel, now, r, hm⟩ := hstep
  have hbehind' : NoneBehind { s with now } e := by
    cases e <;> exact hbehind
  have hen' : Enabled { s with now } e := by
    cases e with
    | message w message => cases message <;> exact hen
    | _ => exact hen
  have hw := handle_keysRight fuel (h.now now) he hbehind' hen'
  exact wp_any (I := KeysRight) hw hm

/-- While nodes leave only with no task in flight behind them, the response of a worker to a task it was
sent is handled without an exception, and counted once, at the node of the worker. -/
theorem response_counted_once {es : List (Event Data Response)} (h₀ : Fresh s₀)
    (hq : s₀.opts.enableTasksQueue = false)
    (hr : Run (Guarded (fun s e => CallOrExit e ∧ NoneBehind s e) Step) s₀ es s) {n : WorkerNode Data}
    (hn : n ∈ s.workerNodes) {m : TaskResponse Response} (hm : m.taskId ∈ n.worker.unanswered.map (·.taskId))
    (fuel : Nat) (now : ℚ) :
    Returns (handle fuel (.message n.info.id (.taskResponse m))) (fun _ => CountedOnce s n.info.id m)
      { s with now } := by
  have h := keysRight_of_run h₀ hq hr
  have hat := Pool.node_of_key h.ids hn
  obtain ⟨t, ht, hid⟩ := List.mem_map.1 hm
  obtain ⟨hentry, -, hcounted⟩ := h.nodes _ n hat
  have hl := hentry t ht
  rw [hid] at hl
  have hpos : 0 < n.usage.tasks.executing := by
    have := List.length_pos_of_mem ht
    omega
  have hret := (countedOnce_iff (callbacks fuel) fuel (h.now now).queueOff hat hpos).2 hl
  refine hret.mono fun _ s' hc => ?_
  exact ⟨hc.sender, hc.others, hc.erased⟩

end Runs

/-- A dynamic pool of one static worker, busy with a task that a second, created worker leaves first. -/
theorem response_counted_once_exit :
    ∃ s, Run (Guarded (fun s e => CallOrExit e ∧ NoneBehind s e) Step)
      { startedPool 1 false ⟨none, none, false, false⟩ with type := .dynamic, max := some 2 }
      [submit 0 0, submit 1 1, respond 1 1, .exit 1] s ∧ ∃ n ∈ s.workerNodes,
      Returns (handle 1 (.message n.info.id (.taskResponse ⟨0, some (), none, none⟩)))
        (fun _ => CountedOnce s n.info.id ⟨0, some (), none, none⟩) { s with now := 1 } := by
  obtain ⟨s, hr, n, hn, hm⟩ := run_to (fun s e => CallOrExit e ∧ NoneBehind s e) 1
    { startedPool 1 false ⟨none, none, false, false⟩ with type := .dynamic, max := some 2 }
    [submit 0 0, submit 1 1, respond 1 1, .exit 1]
    (P := fun s => ∃ n ∈ s.workerNodes, 0 ∈ n.worker.unanswered.map (·.taskId)) (by decide +kernel)
  exact ⟨s, hr, n, hn, response_counted_once ((fresh_startedPool 1 false _).resize .dynamic (some 2)) rfl hr hn hm 1 1⟩

/-- The first of two workers exits while the second has a task: the promise names a key out of range. -/
theorem response_miscounted_after_exit :
    ¬ ∀ (s₀ s : Pool Unit Unit) (es : List (Event Unit Unit)), Fresh s₀ → s₀.started = true →
      s₀.opts.enableTasksQueue = false → Run (Guarded (fun _ e => CallOrExit e) Step) s₀ es s → ∀ n ∈ s.workerNodes, ∀ m : TaskResponse Unit,
      m.taskId ∈ n.worker.unanswered.map (·.taskId) → ∀ (fuel : Nat) (now : ℚ),
      Returns (handle fuel (.message n.info.id (.taskResponse m))) (fun _ => CountedOnce s n.info.id m)
        { s with now } := by
  intro hall
  obtain ⟨s, hr, n, hn, hm, hthrow⟩ := run_to (fun _ e => CallOrExit e) 1
    (startedPool 2 false ⟨none, none, false, false⟩) [submit 0 0, submit 1 1, .exit 0]
    (P := fun s => ∃ n ∈ s.workerNodes, 1 ∈ n.worker.unanswered.map (·.taskId) ∧
      (handle 1 (.message n.info.id (.taskResponse ⟨1, some (), none, none⟩)) { s with now := 0 }).any
        (fun r => r.1.toOption.isNone) = true) (by decide +kernel)
  obtain ⟨a, s', hret, -⟩ := hall _ s _ (fresh_startedPool 2 false _) rfl rfl hr n hn ⟨1, some (), none, none⟩ hm 1 0
  rw [hret] at hthrow
  cases hthrow

end Poolifier
