import Poolifier.Plain
import Poolifier.QueueRuns
/-!
# Pools without a queue

While the tasks queue is disabled, `execute` sends each task to the worker it
chooses, and the node is charged for the task at once. Over workers that stay,
a task in flight has a promise that names the node it is in flight on
(`Direct`), so a response is counted where it comes from. `DirectStep` says what
each event does then.
-/

namespace Poolifier

open EffLib RunLib MapLib WorkerNode

variable {Data Response : Type}

/-- Calls of `execute` and task responses. -/
def TaskEvent : Event Data Response → Prop
  | .execute .. => True
  | .message _ (.taskResponse _) => True
  | _ => False

instance : DecidablePred (TaskEvent : Event Data Response → Prop)
  | .execute .. | .message _ (.taskResponse _) => inferInstanceAs (Decidable True)
  | .message _ (.ready ..) | .message _ (.taskFunctionNames _) | .message _ (.killRequest _) | .message _ (.killAnswer _)
  | .poll _ | .error _ | .exit _ | .start | .enableTasksQueue .. | .setTasksQueueOptions _ | .destroy | .destroyed =>
    inferInstanceAs (Decidable False)

/-- A pool without a queue between two events: no worker is to be created, and each task in flight has an
id of its own and a promise that names its node. -/
structure Direct (s : Pool Data Response) : Prop where
  queueOff : s.opts.enableTasksQueue = false
  fixed : s.type = .fixed ∨ s.full = true
  ids : (s.workerNodes.map (·.info.id)).Nodup
  entries : s.All fun i n => ∀ t ∈ n.worker.unanswered, s.promiseResponseMap.lookup t.taskId = some i
  known : s.All fun _ n => ∀ t ∈ n.worker.unanswered, t.taskId ∈ s.uuids
  distinct : s.All fun _ n => (n.worker.unanswered.map (·.taskId)).Nodup

/-- Where no task is in flight, nothing is asked of promises. -/
theorem Direct.of_idle {s : Pool Data Response} (hq : s.opts.enableTasksQueue = false)
    (hfixed : s.type = .fixed ∨ s.full = true) (hids : (s.workerNodes.map (·.info.id)).Nodup)
    (hidle : ∀ n ∈ s.workerNodes, n.worker.unanswered = []) : Direct s where
  queueOff := hq
  fixed := hfixed
  ids := hids
  entries i n hn t ht := by
    rw [hidle n (List.mem_of_getElem? hn)] at ht
    cases ht
  known i n hn t ht := by
    rw [hidle n (List.mem_of_getElem? hn)] at ht
    cases ht
  distinct i n hn := by
    simp only [hidle n (List.mem_of_getElem? hn), List.map_nil, List.nodup_nil]

theorem Direct.of_fresh {s : Pool Data Response} (h : Fresh s) (hq : s.opts.enableTasksQueue = false)
    (hfixed : s.type = .fixed ∨ s.full = true) : Direct s :=
  .of_idle hq hfixed h.ids fun n hn => by rw [(h.nodes n hn).worker]

theorem Direct.now {s : Pool Data Response} (h : Direct s) (now : ℚ) : Direct { s with now } :=
  ⟨h.queueOff, h.fixed, h.ids, h.entries, h.known, h.distinct⟩

/-! ## What an event does -/

/-- The task a call of `execute` makes. -/
def Pool.newTask (s : Pool Data Response) (taskId : Nat) (name : Option String) (data : Data) : Task Data :=
  ⟨name.getD defaultTaskName, data, s.now, taskId⟩

inductive DirectStep (s : Pool Data Response) : Event Data Response → Pool Data Response → Prop
  /-- A call of `execute` that gets no key. -/
  | refused {taskId name data choice} (e) : taskId ∉ s.uuids → ¬ Accepts s name choice →
      DirectStep s (.execute taskId name data choice)
        (Pool.settle taskId (.thrown e) { s with uuids := taskId :: s.uuids })
  /-- The key is out of range. -/
  | noNode {taskId name data k} (e) : taskId ∉ s.uuids → Accepts s name (.key k) → s.workerNodes[k]? = none →
      DirectStep s (.execute taskId name data (.key k)) ((s.called taskId k).settle taskId (.thrown e))
  /-- The message throws when it is sent: the task has been counted. -/
  | notSent {taskId name data k n} (e) : taskId ∉ s.uuids → Accepts s name (.key k) → s.workerNodes[k]? = some n →
      s.canSend n (s.newTask taskId name data) = false →
      DirectStep s (.execute taskId name data (.key k))
        (((s.called taskId k).modifyNode k
          (·.beforeTaskExecution s.taskStatisticsRequirements s.now (s.newTask taskId name data))).settle taskId
            (.thrown e))
  | sent {taskId name data k n} : taskId ∉ s.uuids → Accepts s name (.key k) → s.workerNodes[k]? = some n →
      s.canSend n (s.newTask taskId name data) = true →
      DirectStep s (.execute taskId name data (.key k))
        ((s.called taskId k).modifyNode k (s.startTask (s.newTask taskId name data)))
  | responded {w m n} : s.workerNodes[s.getWorkerNodeKeyByWorkerId w]? = some n →
      m.taskId ∈ n.worker.unanswered.map (·.taskId) →
      DirectStep s (.message w (.taskResponse m)) (s.responded w m (s.getWorkerNodeKeyByWorkerId w))
  /-- The worker has left the pool. -/
  | ignored {w m} : s.workerNodes[s.getWorkerNodeKeyByWorkerId w]? = none →
      DirectStep s (.message w (.taskResponse m)) s

section Step
variable {s s' : Pool Data Response} {e : Event Data Response}

theorem Direct.not_shallCreate (h : Direct s) : s.shallCreateDynamicWorker = false := by
  rcases h.fixed with ht | hf
  · simp [Pool.shallCreateDynamicWorker, ht]
  · simp [Pool.shallCreateDynamicWorker, hf]

/-- Without a queue a task is executed as soon as it is dispatched. -/
theorem dispatchTask_direct (hq : s.opts.enableTasksQueue = false) (cb : Callbacks Data Response) (k : Nat)
    (t : Task Data) : dispatchTask cb k t s = executeTask k t s := by
  unfold dispatchTask
  rw [get_bind, if_neg (by rw [hq]; exact Bool.false_ne_true)]

theorem executeNextTask_direct (hq : s.opts.enableTasksQueue = false) (cb : Callbacks Data Response) (k : Nat) :
    executeNextTask cb k s = some (.ok (), s) := by
  unfold executeNextTask
  rw [get_bind, if_neg (by rw [hq]; exact Bool.false_ne_true)]
  rfl

theorem execute_direct (h : Direct s) (fuel : Nat) {taskId : Nat} (hid : taskId ∉ s.uuids) (name : Option String)
    (data : Data) (choice : Choice) : wp (execute (callbacks fuel) taskId name data choice)
      (fun _ => DirectStep s (.execute taskId name data choice))
      (fun _ => DirectStep s (.execute taskId name data choice)) s := by
  refine wp_execute (fun e s₁ _ hc => ?_) fun k s₁ _ _ hc hst hname => ?_
  · obtain ⟨rfl, ha⟩ := hc h.not_shallCreate
    exact .refused e hid ha
  · obtain ⟨rfl, rfl⟩ := hc h.not_shallCreate
    have ha : Accepts s name (.key k) := ⟨hst, hname, k, rfl⟩
    rcases hn : s.workerNodes[k]? with _ | n
    · refine (wp_dispatchTask_unknown (s := s.called taskId k) hn).2 ?_
      exact .noNode _ hid ha hn
    · refine (wp_congr (dispatchTask_direct (s := s.called taskId k) h.queueOff _ k _)).2 ?_
      rcases hsend : s.canSend n (s.newTask taskId name data) with _ | _
      · refine wp_executeTask_throws (s := s.called taskId k) hn hsend fun e => ?_
        exact .notSent e hid ha hn hsend
      · refine (wp_executeTask (s := s.called taskId k) hn hsend).2 ?_
        exact .sent hid ha hn hsend

theorem taskResponse_direct (h : Direct s) (fuel : Nat) {w : Nat} {m : TaskResponse Response}
    (hen : Enabled s (.message w (.taskResponse m))) : wp (handleMessage (callbacks fuel) fuel w (.taskResponse m))
      (fun _ => DirectStep s (.message w (.taskResponse m))) (fun _ => DirectStep s (.message w (.taskResponse m))) s := by
  rcases hen with ⟨n, hn, rfl, hm⟩ | ⟨hnone, -⟩
  · -- the promise of the task names the node of the worker
    have hnode := Pool.node_of_key h.ids hn
    obtain ⟨t, ht, heq⟩ := List.mem_map.1 hm
    have hl := h.entries _ n hnode t ht
    rw [heq] at hl
    have hnode' := Pool.getElem?_modifyNode_self (·.answer m.taskId) hnode
    have hq : (s.responded n.info.id m (s.getWorkerNodeKeyByWorkerId n.info.id)).opts.enableTasksQueue = false := by
      rw [responded_opts]
      exact h.queueOff
    refine (wp_congr (handleMessage_taskResponse_eq hnode m)).2 ?_
    refine (wp_congr (handleTaskExecutionResponse_eq (s := s.modifyNode _ _) hl hnode')).2 ?_
    exact (wp_of_ok (executeNextTask_direct hq _ _)).2 (.responded hnode hm)
  · have hunknown : s.workerNodes[s.getWorkerNodeKeyByWorkerId w]? = none := by
      rw [List.getElem?_eq_none_iff, ← not_lt, Pool.key_lt_iff]
      rintro ⟨n, hn, hid⟩
      exact hnone n hn hid
    exact wp_message_unknown hunknown fun _ => .ignored hunknown

/-- The steps of a pool without a queue, inverted. -/
theorem directStep_of_step (h : Direct s) (he : TaskEvent e) (hs : Step s e s') :
    ∃ now, DirectStep { s with now } e s' := by
  obtain ⟨hen, fuel, now, r, hm⟩ := hs
  refine ⟨now, ?_⟩
  cases e with
  | execute taskId name data choice =>
    exact wp_any (I := DirectStep { s with now } (.execute taskId name data choice))
      (execute_direct (h.now now) fuel hen name data choice) hm
  | message w message =>
    cases message with
    | taskResponse m =>
      exact wp_any (I := DirectStep { s with now } (.message w (.taskResponse m)))
        (taskResponse_direct (h.now now) fuel hen) hm
    | _ => exact he.elim
  | _ => exact he.elim

/-! ## Every event keeps the invariant -/

theorem Direct.called (h : Direct s) {taskId : Nat} (hid : taskId ∉ s.uuids) (k : Nat) : Direct (s.called taskId k) where
  queueOff := h.queueOff
  fixed := h.fixed
  ids := h.ids
  entries i n hn t ht := by
    have hne : t.taskId ≠ taskId := fun heq => hid (heq ▸ h.known i n hn t ht)
    exact (AList.lookup_insert_ne hne).trans (h.entries i n hn t ht)
  known i n hn t ht := List.mem_cons_of_mem _ (h.known i n hn t ht)
  distinct := h.distinct

/-- Nothing is asked of the promises that have ended. -/
theorem Direct.of_settled (h : Direct s) (hrest : s' = { s with settled := s'.settled }) : Direct s' := by
  rw [hrest]
  exact ⟨h.queueOff, h.fixed, h.ids, h.entries, h.known, h.distinct⟩

theorem Direct.settle (h : Direct s) (taskId : Nat) (r : Settlement Response) : Direct (s.settle taskId r) :=
  h.of_settled (Pool.settle_rest s taskId r)

theorem full_modifyNode (s : Pool Data Response) (k : Nat) (f : WorkerNode Data → WorkerNode Data) :
    (s.modifyNode k f).full = s.full := by
  unfold Pool.full
  rw [Pool.length_modifyNode]
  rfl

theorem ids_modifyNode (s : Pool Data Response) (k : Nat) {f : WorkerNode Data → WorkerNode Data}
    (hf : ∀ n, (f n).info = n.info) :
    (s.modifyNode k f).workerNodes.map (·.info.id) = s.workerNodes.map (·.info.id) :=
  map_modify_same fun n _ => by rw [hf]

/-- The node at `k` changes, and what is in flight on it stays in flight or is new. -/
theorem Direct.modifyNode (h : Direct s) {k : Nat} {f : WorkerNode Data → WorkerNode Data} (hinfo : ∀ n, (f n).info = n.info)
    (hf : ∀ n, s.workerNodes[k]? = some n → (∀ t ∈ (f n).worker.unanswered,
      s.promiseResponseMap.lookup t.taskId = some k ∧ t.taskId ∈ s.uuids) ∧
        ((f n).worker.unanswered.map (·.taskId)).Nodup) : Direct (s.modifyNode k f) where
  queueOff := h.queueOff
  fixed := by
    rw [full_modifyNode]
    exact h.fixed
  ids := by
    rw [ids_modifyNode s k hinfo]
    exact h.ids
  entries := by
    refine h.entries.modifyNode fun n hn _ t ht => ?_
    exact ((hf n hn).1 t ht).1
  known := by
    refine h.known.modifyNode fun n hn _ t ht => ?_
    exact ((hf n hn).1 t ht).2
  distinct := by
    refine h.distinct.modifyNode fun n hn _ => ?_
    exact (hf n hn).2

/-- The nodes after a response: only the one it comes from, which counts it, has changed. -/
theorem workerNodes_responded (s : Pool Data Response) (w : Nat) (m : TaskResponse Response) :
    (s.responded w m (s.getWorkerNodeKeyByWorkerId w)).workerNodes =
      (s.modifyNode (s.getWorkerNodeKeyByWorkerId w) fun n =>
        (n.answer m.taskId).afterTaskExecution s.taskStatisticsRequirements m).workerNodes := by
  simp only [Pool.responded, Pool.answered, Pool.modifyNode, Pool.settle_workerNodes]
  exact List.modify_modify_eq ..

/-- A response takes the id of its task out of flight. -/
theorem ids_answer (n : WorkerNode Data) (taskId : Nat) :
    (n.answer taskId).worker.unanswered.map (·.taskId) = (n.worker.unanswered.map (·.taskId)).erase taskId := by
  rw [List.erase_eq_eraseP', List.eraseP_map]
  rfl

theorem Direct.erase (h : Direct s) {taskId : Nat} (hne : s.All fun _ n => ∀ t ∈ n.worker.unanswered, t.taskId ≠ taskId) :
    Direct { s with promiseResponseMap := s.promiseResponseMap.erase taskId } where
  queueOff := h.queueOff
  fixed := h.fixed
  ids := h.ids
  entries i n hn t ht := (AList.lookup_erase_ne (hne i n hn t ht)).trans (h.entries i n hn t ht)
  known := h.known
  distinct := h.distinct

theorem Direct.responded (h : Direct s) {w : Nat} {m : TaskResponse Response} {n : WorkerNode Data}
    (hn : s.workerNodes[s.getWorkerNodeKeyByWorkerId w]? = some n) (hm : m.taskId ∈ n.worker.unanswered.map (·.taskId)) :
    Direct (s.responded w m (s.getWorkerNodeKeyByWorkerId w)) := by
  rw [responded_rest, workerNodes_responded]
  generalize s.getWorkerNodeKeyByWorkerId w = k at hn
  generalize hf : (fun n : WorkerNode Data => (n.answer m.taskId).afterTaskExecution s.taskStatisticsRequirements m) = f
  have hworker (n : WorkerNode Data) : (f n).worker = (n.answer m.taskId).worker := by
    rw [← hf]
    exact afterTaskExecution_worker _ _ _
  have hmodified : Direct (s.modifyNode k f) := by
    refine h.modifyNode (fun n => ?_) fun n hn => ?_
    · rw [← hf]
      exact afterTaskExecution_info _ _ _
    · rw [hworker]
      refine ⟨fun t ht => ?_, ?_⟩
      · have ht' := List.mem_of_mem_eraseP ht
        exact ⟨h.entries k n hn t ht', h.known k n hn t ht'⟩
      · rw [ids_answer]
        exact (h.distinct k n hn).erase _
  -- no other task in flight has the id that is erased
  have hne : (s.modifyNode k f).All fun _ n => ∀ t ∈ n.worker.unanswered, t.taskId ≠ m.taskId := by
    intro i n' hn' t ht heq
    obtain ⟨a, ha, rfl⟩ := Pool.node_of_modifyNode hn'
    by_cases hi : k = i
    · subst hi
      rw [if_pos rfl, hworker] at ht
      have hmem := List.mem_map_of_mem (f := fun t : Task Data => t.taskId) ht
      rw [ids_answer, heq] at hmem
      exact (h.distinct k a ha).not_mem_erase hmem
    · rw [if_neg hi] at ht
      obtain ⟨u, hu, hid⟩ := List.mem_map.1 hm
      have hl := h.entries k n hn u hu
      rw [hid, ← heq, h.entries i a ha t ht] at hl
      exact hi (Option.some.inj hl).symm
  exact (hmodified.erase hne).of_settled rfl

theorem DirectStep.direct (hs : DirectStep s e s') (h : Direct s) : Direct s' := by
  cases hs with
  | @refused taskId _ _ _ x hid ha =>
    have huuids : Direct { s with uuids := taskId :: s.uuids } :=
      ⟨h.queueOff, h.fixed, h.ids, h.entries, fun i n hn t ht => List.mem_cons_of_mem _ (h.known i n hn t ht), h.distinct⟩
    exact huuids.settle taskId _
  | noNode x hid ha hn => exact (h.called hid _).settle _ _
  | @notSent taskId name data k n x hid ha hn hsend =>
    have hc := h.called hid k
    refine (hc.modifyNode (fun n => ?_) fun n hn' => ?_).settle _ _
    · exact beforeTaskExecution_info _ _ _ n
    · rw [beforeTaskExecution_worker]
      exact ⟨fun t ht => ⟨hc.entries _ n hn' t ht, hc.known _ n hn' t ht⟩, hc.distinct _ n hn'⟩
  | @sent taskId name data k n hid ha hn hsend =>
    have hc := h.called hid k
    refine hc.modifyNode (fun n => (sameSetup_startTask s _ n).info) fun n hn' => ?_
    rw [startTask_worker]
    refine ⟨fun t ht => ?_, ?_⟩
    · rcases List.mem_append.1 ht with ht | ht
      · exact ⟨hc.entries k n hn' t ht, hc.known k n hn' t ht⟩
      · rw [List.mem_singleton.1 ht]
        exact ⟨AList.lookup_insert _, List.mem_cons_self⟩
    · refine nodup_map_concat (h.distinct k n hn') fun t ht heq => ?_
      have heq : t.taskId = taskId := heq
      exact hid (heq ▸ h.known k n hn' t ht)
  | @responded w m n hn hm => exact h.responded hn hm
  | ignored => exact h

/-- A property of nodes survives an event that keeps it where a task is counted, sent or answered. -/
theorem DirectStep.all {P : Nat → WorkerNode Data → Prop} (hs : DirectStep s e s') (h : s.All P)
    (hcount : ∀ taskId name data k n, e = .execute taskId name data (.key k) → Accepts s name (.key k) →
      s.workerNodes[k]? = some n → s.canSend n (s.newTask taskId name data) = false → P k n →
        P k (n.beforeTaskExecution s.taskStatisticsRequirements s.now (s.newTask taskId name data)))
    (hsend : ∀ taskId name data k n, e = .execute taskId name data (.key k) → s.workerNodes[k]? = some n → P k n →
      P k (s.startTask (s.newTask taskId name data) n))
    (hanswer : ∀ w m k n, e = .message w (.taskResponse m) → s.workerNodes[k]? = some n →
      m.taskId ∈ n.worker.unanswered.map (·.taskId) → P k n →
        P k ((n.answer m.taskId).afterTaskExecution s.taskStatisticsRequirements m)) : s'.All P := by
  cases hs with
  | @refused taskId name data choice x hid ha =>
    intro i n hn
    rw [Pool.settle_workerNodes] at hn
    exact h i n hn
  | @noNode taskId name data k x hid ha hk =>
    intro i n hn
    rw [Pool.settle_workerNodes] at hn
    exact h i n hn
  | @notSent taskId name data k n x hid ha hn hfail =>
    have hc : (s.called taskId k).All P := h
    have hm := hc.modifyNode fun n' hn' hP => by
      cases hn.symm.trans hn'
      exact hcount taskId name data k n rfl ha hn hfail hP
    intro i n hn
    rw [Pool.settle_workerNodes] at hn
    exact hm i n hn
  | @sent taskId name data k n hid ha hn hsend' =>
    have hc : (s.called taskId k).All P := h
    exact hc.modifyNode fun n' hn' hP => hsend taskId name data k n' rfl hn' hP
  | @responded w m n hn hm =>
    have hall : (s.modifyNode (s.getWorkerNodeKeyByWorkerId w) fun n =>
        (n.answer m.taskId).afterTaskExecution s.taskStatisticsRequirements m).All P := by
      refine h.modifyNode fun n' hn' hP => ?_
      cases hn.symm.trans hn'
      exact hanswer w m _ n rfl hn hm hP
    intro i n hn
    rw [workerNodes_responded] at hn
    exact hall i n hn
  | ignored => exact h

end Step

/-! ## The counters -/

/-- Each node counts the tasks in flight on its worker. -/
def CountsInFlight (s : Pool Data Response) : Prop :=
  s.All fun _ n => n.usage.tasks.executing = n.worker.unanswered.length

/-- A task that is submitted can be sent to the node chosen for it. -/
def Sendable (s : Pool Data Response) : Event Data Response → Prop
  | .execute taskId name data (.key k) =>
    Accepts s name (.key k) → ∀ n, s.workerNodes[k]? = some n → s.canSend n (s.newTask taskId name data) = true
  | _ => True

theorem sendable_key_iff {s : Pool Data Response} {taskId k : Nat} {name : Option String} {data : Data} :
    Sendable s (.execute taskId name data (.key k)) ↔ (s.started = true ∧ name.any isBlank = false →
      s.workerNodes[k]?.all (s.canSend · (s.newTask taskId name data)) = true) := by
  unfold Sendable Accepts
  simp only [Option.all_eq_true]
  refine ⟨fun h ha => ?_, fun h ha => ?_⟩
  · exact h ⟨ha.1, ha.2, k, rfl⟩
  · exact h ⟨ha.1, ha.2.1⟩

instance (s : Pool Data Response) : DecidablePred (Sendable s)
  | .execute _ _ _ (.key _) => decidable_of_iff _ sendable_key_iff.symm
  | .execute _ _ _ (.none _) | .message .. | .poll _ | .error _ | .exit _ | .start | .enableTasksQueue ..
  | .setTasksQueueOptions _ | .destroy | .destroyed => inferInstanceAs (Decidable True)

section Counters
variable {s s' : Pool Data Response} {e : Event Data Response}

theorem DirectStep.countsInFlight (hs : DirectStep s e s') (h : CountsInFlight s) (hsend : Sendable s e) :
    CountsInFlight s' := by
  refine hs.all h (fun taskId name data k n heq ha hn hfail _ => ?_) (fun taskId name data k n _ _ hcount => ?_)
    fun w m k n _ _ hm hcount => ?_
  · subst heq
    rw [hsend ha n hn] at hfail
    cases hfail
  · exact startTask_counts s _ n hcount
  · have hlen := length_unanswered_answer hm
    have husage : (n.answer m.taskId).usage = n.usage := rfl
    simp only [afterTaskExecution_worker, afterTaskExecution_usage, WorkerUsage.afterTaskExecution_executing, husage]
    omega

/-- An event keeps the counters right if and only if the task it submits, if any, can be sent: one that
cannot has been counted when its message throws. -/
theorem DirectStep.countsInFlight_iff (hs : DirectStep s e s') (h : CountsInFlight s) :
    Sendable s e ↔ CountsInFlight s' := by
  refine ⟨hs.countsInFlight h, fun h' => ?_⟩
  cases hs with
  | refused x hid ha =>
    cases ‹Choice› with
    | key k => exact fun ha' => absurd ha' ha
    | none => trivial
  | noNode x hid ha hn =>
    intro _ n hn'
    rw [hn] at hn'
    cases hn'
  | @notSent taskId name data k n x hid ha hn hfail =>
    have hnode := Pool.getElem?_modifyNode_self
      (·.beforeTaskExecution s.taskStatisticsRequirements s.now (s.newTask taskId name data)) hn
    have hcount := h k n hn
    have hcount' := h' k _ (by rw [Pool.settle_workerNodes]; exact hnode)
    simp only [beforeTaskExecution_worker, beforeTaskExecution_usage] at hcount'
    simp only [WorkerUsage.beforeTaskExecution, WorkerUsage.updateWaitTimeWorkerUsage] at hcount'
    omega
  | sent hid ha hn hsend =>
    intro _ n' hn'
    cases hn.symm.trans hn'
    exact hsend
  | responded => trivial
  | ignored => trivial

theorem DirectStep.postable (hs : DirectStep s e s') : s'.postable = s.postable := by
  cases hs with
  | refused => rw [Pool.settle_rest]
  | noNode | notSent =>
    rw [Pool.settle_rest]
    rfl
  | sent => rfl
  | responded => rw [responded_rest]
  | ignored => rfl

/-- Whether a task can be cloned depends on its data alone: its id, name and time can be. -/
def ClonesByData (s : Pool Data Response) : Prop := ∀ t t' : Task Data, t.data = t'.data → s.postable t = s.postable t'

theorem DirectStep.clonesByData (hs : DirectStep s e s') (h : ClonesByData s) : ClonesByData s' := by
  unfold ClonesByData
  rw [hs.postable]
  exact h

theorem sendable_now (h : ClonesByData s) (now : ℚ) : Sendable { s with now } e ↔ Sendable s e := by
  cases e with
  | execute taskId name data choice =>
    cases choice with
    | key k =>
      have hsend (n : WorkerNode Data) : Pool.canSend { s with now } n (Pool.newTask { s with now } taskId name data) =
          s.canSend n (s.newTask taskId name data) := congrArg (n.channelOpen && ·) (h _ _ rfl)
      unfold Sendable
      simp only [hsend]
      exact Iff.rfl
    | none => exact Iff.rfl
  | _ => exact Iff.rfl

/-- The counters stay right through a run of calls and responses if and only if the tasks submitted in it can be sent. -/
theorem Direct.through_countsInFlight_iff {es : List (Event Data Response)} (h : Direct s) (hclone : ClonesByData s)
    (hcount : CountsInFlight s) :
    Through CountsInFlight (Guarded (fun _ e => TaskEvent e) Step) s es s' ↔
      Run (Guarded Sendable (Guarded (fun _ e => TaskEvent e) Step)) s es s' := by
  refine through_iff (fun s => Direct s ∧ ClonesByData s) ⟨h, hclone⟩ hcount fun s e s' hs hcount hstep => ?_
  obtain ⟨now, hd⟩ := directStep_of_step hs.1 hstep.1 hstep.2
  refine ⟨⟨hd.direct (hs.1.now now), hd.clonesByData hs.2⟩, ?_⟩
  rw [← sendable_now hs.2 now]
  exact hd.countsInFlight_iff hcount

end Counters

end Poolifier
