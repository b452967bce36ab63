import Poolifier.Plain
import Poolifier.QueueRuns
/-!
# Without stealing, each node is a queue of its own

With both stealing options off no callback is installed, so a task stays on the
node that `execute` assigned it to. Direct execution, queueing and the dequeue
after a response then keep the bound, the work and the order of each node
together.
-/

namespace Poolifier

open EffLib RunLib WorkerNode

variable {Data Response : Type}

/-! ## One node -/

/-- The ids of the tasks assigned to the node `i` by an event. -/
def assignedId (started : Bool) (i : Nat) : Event Data Response → Option Nat
  | .execute taskId name _ (.key k) => if started && !name.any isBlank && k = i then some taskId else none
  | _ => none

def assignedIds (started : Bool) (i : Nat) (es : List (Event Data Response)) : List Nat :=
  es.filterMap (assignedId started i)

/-- A node with the quota `c` that has been assigned the tasks `ids`: its worker has been sent a prefix
of them, in order, and the rest waits. -/
structure InOrder (c : Nat) (ids : List Nat) (n : WorkerNode Data) : Prop where
  executing : n.usage.tasks.executing = n.worker.unanswered.length
  quota : n.usage.tasks.executing ≤ c
  busy : n.tasksQueue ≠ [] → n.usage.tasks.executing = c
  order : (n.worker.received ++ n.tasksQueue).map (·.taskId) = ids

section Node
variable {c : Nat} {ids : List Nat} {n : WorkerNode Data} {t : Task Data}

theorem InOrder.same (h : InOrder c ids n) {n' : WorkerNode Data} (hw : SameWork n n') : InOrder c ids n' where
  executing := by
    rw [hw.executing, hw.worker]
    exact h.executing
  quota := by
    rw [hw.executing]
    exact h.quota
  busy := by
    rw [hw.tasksQueue, hw.executing]
    exact h.busy
  order := by
    rw [hw.worker, hw.tasksQueue]
    exact h.order

/-- A task comes: it is started if nothing waits and the quota allows it, and waits otherwise. -/
theorem InOrder.accept (h : InOrder c ids n) {p : Pool Data Response} (hconc : p.concurrency = some c) :
    InOrder c (ids ++ [t.taskId]) (p.acceptTask t n) := by
  obtain ⟨hexec, hquota, hbusy, horder⟩ := h
  unfold Pool.acceptTask
  by_cases hs : p.shallExecute n = true
  · rw [if_pos hs]
    simp only [Pool.shallExecute, Pool.belowConcurrency, hconc, Option.any_some, Bool.and_eq_true, decide_eq_true_eq,
      List.length_eq_zero_iff] at hs
    obtain ⟨hnil, hlt⟩ := hs
    constructor
    · exact startTask_counts p t n hexec
    · rw [startTask_executing]
      omega
    · rw [startTask_tasksQueue]
      intro hne
      exact absurd hnil hne
    · rw [startTask_worker, startTask_tasksQueue, ← horder, hnil]
      simp
  · rw [if_neg hs]
    simp only [Pool.shallExecute, Pool.belowConcurrency, hconc, Option.any_some, Bool.and_eq_true, decide_eq_true_eq,
      List.length_eq_zero_iff, not_and, not_lt] at hs
    refine ⟨hexec, hquota, fun _ => ?_, ?_⟩
    · by_cases hnil : n.tasksQueue = []
      · have hle := hs hnil
        have hexec' : n.usage.tasks.executing = c := by omega
        exact hexec'
      · exact hbusy hnil
    · rw [← horder, ← List.append_assoc, List.map_append]
      rfl

/-- A response comes: the first task that waits takes the place of the one that has ended. -/
theorem InOrder.next (h : InOrder c ids n) {n' : WorkerNode Data} {m : TaskResponse Response} {k : Nat}
    (hin : m.taskId ∈ n.worker.unanswered.map (·.taskId)) (ha : Answered m k k k n n') (p : Pool Data Response) :
    n'.usage.tasks.executing < c ∧ InOrder c ids (p.nextTask n') := by
  obtain ⟨hexec, hquota, hbusy, horder⟩ := h
  have hpos := unanswered_pos hin
  have hworker := ha.worker
  have hexec' := ha.executing
  rw [if_pos rfl] at hworker hexec'
  have hlen : n'.worker.unanswered.length = n.worker.unanswered.length - 1 := by
    rw [hworker, length_unanswered_answer hin]
  have hreceived : n'.worker.received = n.worker.received := by
    rw [hworker]
    rfl
  refine ⟨by omega, ?_⟩
  unfold Pool.nextTask
  split
  · rename_i hnil
    constructor
    · omega
    · omega
    · intro hne
      exact absurd hnil hne
    · rw [hreceived, ha.tasksQueue]
      exact horder
  · rename_i t q hcons
    have hcons' : n.tasksQueue = t :: q := by rw [← ha.tasksQueue, hcons]
    have hfull : n.usage.tasks.executing = c := by
      apply hbusy
      rw [hcons']
      exact List.cons_ne_nil t q
    constructor
    · exact startTask_counts p t _ (ha.counts hin hexec)
    · rw [startTask_executing, hexec']
      omega
    · intro _
      rw [startTask_executing, hexec']
      omega
    · rw [startTask_worker, startTask_tasksQueue, hreceived, ← horder, hcons']
      simp

end Node

/-! ## Tasks at the nodes they were assigned to -/

/-- The promise of each task names the node that has the task. -/
def Homed (p : Pool Data Response) : Prop :=
  ∀ (i : Nat) n, p.workerNodes[i]? = some n → ∀ t ∈ n.held, p.promiseResponseMap.lookup t.taskId = some i

section Homes
variable {s s' : Pool Data Response} {w k fuel : Nat} {m : TaskResponse Response} {n : WorkerNode Data}

theorem Homed.of_fresh (h : Fresh s) : Homed s := by
  intro i n hi t ht
  have hn := h.nodes n (List.mem_of_getElem? hi)
  rw [WorkerNode.mem_held, hn.worker, hn.tasksQueue] at ht
  simp at ht

/-- Where both kinds of stealing are off, a new node has no callback. -/
theorem NewNode.plain {o : TasksQueueOptions} (h : NewNode s n) (ho : s.opts.tasksQueueOptions = some o)
    (hsteal : o.taskStealing = false) (hpressure : o.tasksStealingOnBackPressure = false) : Plain n := by
  refine ⟨?_, ?_⟩
  · rw [h.onEmptyQueue, ho]
    simp [hsteal]
  · rw [h.onBackPressure, ho]
    simp [hpressure]

theorem Homed.same (h : Homed s)
    (hkeys : ∀ taskId k, s.promiseResponseMap.lookup taskId = some k → s'.promiseResponseMap.lookup taskId = some k)
    (hn : ∀ (i : Nat) n', s'.workerNodes[i]? = some n' → ∃ n, s.workerNodes[i]? = some n ∧ n'.held = n.held) :
    Homed s' := by
  intro i n' hi t ht
  obtain ⟨n, hni, hheld⟩ := hn i n' hi
  apply hkeys
  apply h i n hni
  rwa [hheld] at ht

/-- The promise of a response names the node of the worker that sent it. -/
theorem Homed.sender (h : Homed s) (hx : ResponseStep s w m k fuel n s') : s.getWorkerNodeKeyByWorkerId w = k := by
  obtain ⟨t, ht, hid⟩ := List.mem_map.1 hx.inFlight
  have hhome := h _ n hx.node t (WorkerNode.mem_held.2 (.inr ht))
  rw [hid, hx.entry] at hhome
  exact (Option.some.inj hhome).symm

/-- The node a response is about, and what taking the response in makes of it. -/
theorem Homed.answered (h : Homed s) (hx : ResponseStep s w m k fuel n s') :
    s.workerNodes[k]? = some n ∧ ∃ n', (s.responded w m k).workerNodes[k]? = some n' ∧ Answered m k k k n n' := by
  have hk : s.getWorkerNodeKeyByWorkerId w = k := h.sender hx
  have hnode := hx.node
  rw [hk] at hnode
  have hlt : k < (s.responded w m k).workerNodes.length := by
    simpa only [Pool.length_responded] using hx.key
  obtain ⟨n', hn'⟩ := Pool.node_of_lt hlt
  obtain ⟨a, ha, hans⟩ := Pool.node_of_responded hn'
  rw [hk] at hans
  rw [hnode] at ha
  cases ha
  exact ⟨hnode, n', hn', hans⟩

/-- The node `k` is replaced by one that has the same tasks. -/
theorem Homed.replace (h : Homed s) (hn : s.workerNodes[k]? = some n) {n' : WorkerNode Data}
    (hheld : n'.held = n.held) : Homed (s.modifyNode k fun _ => n') := by
  intro i b hi t ht
  obtain ⟨a, ha, rfl⟩ := Pool.node_of_modifyNode hi
  by_cases hki : k = i
  · subst hki
    rw [if_pos rfl, hheld] at ht
    exact h k n hn t ht
  · rw [if_neg hki] at ht
    exact h i a ha t ht

/-- A call of `execute` assigns its task to the node `k`. -/
theorem Homed.accept (h : Homed s) (hp : FixedPool s 0) {t : Task Data} (hid : t.taskId ∉ s.uuids)
    (hn : s.workerNodes[k]? = some n) :
    Homed ((s.called t.taskId k).modifyNode k fun _ => (s.called t.taskId k).acceptTask t n) := by
  intro i b hi u hu
  obtain ⟨a, ha, rfl⟩ := Pool.node_of_modifyNode hi
  show AList.lookup u.taskId (s.promiseResponseMap.insert t.taskId k) = some i
  have hother (hu : s.promiseResponseMap.lookup u.taskId = some i) :
      AList.lookup u.taskId (s.promiseResponseMap.insert t.taskId k) = some i := by
    have hne : u.taskId ≠ t.taskId := by
      intro he
      apply hid
      apply hp.uuids
      rw [← he]
      exact AList.lookup_isSome.1 (by rw [hu]; rfl)
    rw [AList.lookup_insert_ne hne]
    exact hu
  by_cases hki : k = i
  · subst hki
    rw [if_pos rfl, held_acceptTask, Multiset.mem_add, Multiset.mem_singleton] at hu
    rcases hu with hu | rfl
    · exact hother (h k n hn u hu)
    · exact AList.lookup_insert _
  · rw [if_neg hki] at hu
    exact hother (h i a ha u hu)

/-- A task that the pool still has after a response keeps its entry. -/
theorem lookup_responded_of_held {i : Nat} {b : WorkerNode Data} {u : Task Data}
    (hp : FixedPool (s.responded w m k) 0) (hb : (s.responded w m k).workerNodes[i]? = some b) (hu : u ∈ b.held) :
    (s.responded w m k).promiseResponseMap.lookup u.taskId = s.promiseResponseMap.lookup u.taskId := by
  have hkey : u.taskId ∈ (s.responded w m k).promiseResponseMap.keys := by
    have hplaced := Pool.mem_placed.2 ⟨b, List.mem_of_getElem? hb, hu⟩
    have hacc := hp.accounted
    rw [add_zero] at hacc
    have hmem := Multiset.mem_map_of_mem (·.taskId) hplaced
    rwa [hacc, Multiset.mem_coe] at hmem
  have hmap : (s.responded w m k).promiseResponseMap = s.promiseResponseMap.erase m.taskId := rfl
  have hne : u.taskId ≠ m.taskId := by
    intro he
    rw [hmap, he, AList.keys_erase] at hkey
    exact (AList.keys_nodup _).not_mem_erase hkey
  rw [hmap, AList.lookup_erase_ne hne]

/-- A response takes one task away. -/
theorem Homed.responded (h : Homed s) (hp : FixedPool (s.responded w m k) 0) : Homed (s.responded w m k) := by
  intro i b hb u hu
  obtain ⟨a, ha, hans⟩ := Pool.node_of_responded hb
  exact (lookup_responded_of_held hp hb hu).trans (h i a ha u (hans.held hu))

end Homes

/-! ## Steps -/

/-- The calls of `execute` and the messages of the workers. -/
def CallOrMessage (s : Pool Data Response) : Event Data Response → Prop
  | .poll _ => False
  | e => QueueEvent s e

theorem CallOrMessage.queueEvent {s : Pool Data Response} {e : Event Data Response} (h : CallOrMessage s e) :
    QueueEvent s e := by
  cases e <;> first | exact h | exact h.elim

instance (s : Pool Data Response) : DecidablePred (CallOrMessage s)
  | .poll _ => inferInstanceAs (Decidable False)
  | .execute a b c d => inferInstanceAs (Decidable (QueueEvent s (.execute a b c d)))
  | .message a b => inferInstanceAs (Decidable (QueueEvent s (.message a b)))
  | .enableTasksQueue .. | .setTasksQueueOptions _ | .error _ | .exit _ | .start | .destroy | .destroyed =>
    inferInstanceAs (Decidable False)

/-- After the events `es`, every node has its tasks in order, and the promises name the nodes that have them. -/
structure Ordered (s₀ : Pool Data Response) (c : Nat) (es : List (Event Data Response)) (s : Pool Data Response) :
    Prop where
  pool : QueuePool s₀ s
  started : s.started = s₀.started
  plain : ∀ (i : Nat) n, s.workerNodes[i]? = some n → Plain n
  nodes : ∀ (i : Nat) n, s.workerNodes[i]? = some n → InOrder c (assignedIds s₀.started i es) n
  homed : ∀ (i : Nat) n, s.workerNodes[i]? = some n → ∀ t ∈ n.held, s.promiseResponseMap.lookup t.taskId = some i

section Steps
variable {s₀ s s' : Pool Data Response} {c : Nat} {es : List (Event Data Response)}

theorem assignedIds_concat_none {e : Event Data Response} {b : Bool} {i : Nat} (h : assignedId b i e = none) :
    assignedIds b i (es ++ [e]) = assignedIds b i es := by
  simp [assignedIds, h]

/-- An event that assigns no task and leaves the work of the nodes alone. -/
theorem Ordered.same (h : Ordered s₀ c es s) {e : Event Data Response} (hp : QueuePool s₀ s')
    (hst : s'.started = s.started) (he : ∀ i, assignedId s₀.started i e = none)
    (hkeys : ∀ taskId k, s.promiseResponseMap.lookup taskId = some k → s'.promiseResponseMap.lookup taskId = some k)
    (hn : ∀ (i : Nat) n', s'.workerNodes[i]? = some n' → ∃ n, s.workerNodes[i]? = some n ∧ SameWork n n' ∧
      n'.onEmptyQueue = n.onEmptyQueue ∧ n'.onBackPressure = n.onBackPressure) : Ordered s₀ c (es ++ [e]) s' := by
  have hhomed : Homed s' := by
    apply Homed.same h.homed hkeys
    intro i n' hi
    obtain ⟨n, hni, hw, -⟩ := hn i n' hi
    exact ⟨n, hni, hw.held⟩
  refine ⟨hp, hst.trans h.started, fun i n' hi => ?_, fun i n' hi => ?_, hhomed⟩ <;>
    obtain ⟨n, hni, hw, h1, h2⟩ := hn i n' hi
  · obtain ⟨hp1, hp2⟩ := h.plain i n hni
    exact ⟨h1.trans hp1, h2.trans hp2⟩
  · rw [assignedIds_concat_none (he i)]
    exact (h.nodes i n hni).same hw

/-- A call that assigns its task to the node `k`. -/
theorem Ordered.executed (h : Ordered s₀ c es s) (hq : s₀.opts.enableTasksQueue = true)
    (hconc : s₀.concurrency = some c) {taskId k fuel : Nat} {name : Option String} {data : Data}
    (hid : taskId ∉ s.uuids) (ha : Accepts s name (.key k)) (hk : k < s.workerNodes.length)
    (hp : QueuePool s₀ s')
    (hm : dispatchTask (callbacks fuel) k ⟨name.getD defaultTaskName, data, s.now, taskId⟩ (s.called taskId k) =
      some (.ok (), s')) : Ordered s₀ c (es ++ [.execute taskId name data (.key k)]) s' := by
  obtain ⟨n, hn⟩ := Pool.node_of_lt hk
  generalize ht : (⟨name.getD defaultTaskName, data, s.now, taskId⟩ : Task Data) = t at hm
  obtain rfl : t.taskId = taskId := by rw [← ht]
  have hcalled : (s.called t.taskId k).workerNodes[k]? = some n := hn
  have hlive : Live (s.called t.taskId k) := h.pool.pool.live
  -- without callbacks the dispatch does one thing to one node
  obtain rfl : s' = (s.called t.taskId k).modifyNode k fun _ => (s.called t.taskId k).acceptTask t n := by
    have hopts : (s.called t.taskId k).opts.enableTasksQueue = true :=
      (congrArg PoolOptions.enableTasksQueue h.pool.opts).trans hq
    have hsend := hlive.canSend (List.mem_of_getElem? hcalled) t
    rw [dispatchTask_plain hcalled (h.plain k n hn).2 hopts hsend] at hm
    cases hm
    rfl
  have hassigned (i : Nat) : assignedIds s₀.started i (es ++ [.execute t.taskId name data (.key k)]) =
      assignedIds s₀.started i es ++ if k = i then [t.taskId] else [] := by
    have hst : s₀.started = true := h.started ▸ ha.1
    by_cases hi : k = i <;> simp [assignedIds, assignedId, hst, ha.2.1, hi]
  have hplain : ((s.called t.taskId k).modifyNode k fun _ => (s.called t.taskId k).acceptTask t n).All fun _ n => Plain n :=
    Pool.All.modifyNode (p := s.called t.taskId k) h.plain fun _ _ _ =>
      (h.plain k n hn).of_sameSetup (sameSetup_acceptTask _ t n)
  refine ⟨hp, h.started, hplain, fun i n' hi => ?_, Homed.accept h.homed h.pool.pool hid hn⟩
  · obtain ⟨b, hb, rfl⟩ := Pool.node_of_modifyNode hi
    rw [hassigned]
    by_cases hik : k = i
    · subst hik
      rw [if_pos rfl, if_pos rfl]
      exact (h.nodes k n hn).accept (t := t) (p := s.called t.taskId k) (h.pool.concurrency.trans hconc)
    · rw [if_neg hik, if_neg hik, List.append_nil]
      exact h.nodes i b hb

/-- Without callbacks the response handler does one thing to one node. -/
theorem Ordered.nextTask (h : Ordered s₀ c es s) (hq : s₀.opts.enableTasksQueue = true)
    (hconc : s₀.concurrency = some c) {w k fuel : Nat} {m : TaskResponse Response} {n n' : WorkerNode Data}
    (hx : ResponseStep s w m k fuel n s') (hn : s.workerNodes[k]? = some n)
    (hn' : (s.responded w m k).workerNodes[k]? = some n') (hans : Answered m k k k n n') :
    InOrder c (assignedIds s₀.started k es) ((s.responded w m k).nextTask n') ∧
      s' = (s.responded w m k).modifyNode k fun _ => (s.responded w m k).nextTask n' := by
  have hconc' : (s.responded w m k).concurrency = some c := by
    rw [responded_concurrency]
    exact h.pool.concurrency.trans hconc
  obtain ⟨hbelow, hnext⟩ := (h.nodes k n hn).next hx.inFlight hans (s.responded w m k)
  refine ⟨hnext, ?_⟩
  have hbelow' : (s.responded w m k).belowConcurrency n' = true := by
    simp only [Pool.belowConcurrency, hconc', Option.any_some, hbelow, decide_true]
  have hopts : (s.responded w m k).opts.enableTasksQueue = true := by
    rw [responded_opts]
    exact (congrArg PoolOptions.enableTasksQueue h.pool.opts).trans hq
  have hsend (t : Task Data) := (h.pool.pool.responded (k := k) hx.node hx.inFlight).live.canSend
    (List.mem_of_getElem? hn') t
  have hx' := hx.next
  rw [executeNextTask_plain hn' (hans.plain (h.plain k n hn)).1 hopts hbelow' hsend] at hx'
  cases hx'
  rfl

/-- A response of the worker whose node the promise names. -/
theorem Ordered.responded (h : Ordered s₀ c es s) (hq : s₀.opts.enableTasksQueue = true)
    (hconc : s₀.concurrency = some c) {w k fuel : Nat} {m : TaskResponse Response} {n : WorkerNode Data}
    (hx : ResponseStep s w m k fuel n s') (hp : QueuePool s₀ s') :
    Ordered s₀ c (es ++ [.message w (.taskResponse m)]) s' := by
  have hk : s.getWorkerNodeKeyByWorkerId w = k := Homed.sender h.homed hx
  obtain ⟨hnode, n', hn', hans⟩ := Homed.answered h.homed hx
  obtain ⟨hnext, rfl⟩ := h.nextTask hq hconc hx hnode hn' hans
  have hnone (i : Nat) : assignedId s₀.started i (.message w (.taskResponse m) : Event Data Response) = none := rfl
  have hresponded : Homed (s.responded w m k) := Homed.responded h.homed (h.pool.pool.responded hx.node hx.inFlight)
  have hhomed : Homed ((s.responded w m k).modifyNode k fun _ => (s.responded w m k).nextTask n') :=
    hresponded.replace hn' (held_nextTask _ n')
  have hplain : (s.responded w m k).All fun _ n => Plain n := fun i b hb => by
    obtain ⟨a, ha, hans⟩ := Pool.node_of_responded hb
    exact hans.plain (h.plain i a ha)
  refine ⟨hp, ?_, hplain.modifyNode fun _ _ _ => ?_, fun i b' hi => ?_, hhomed⟩
  · have hrest : (s.responded w m k).started = s.started := by
      simp only [Pool.responded, Pool.answered]
      rw [Pool.settle_rest]
      rfl
    exact hrest.trans h.started
  · exact (hplain k n' hn').of_sameSetup (sameSetup_nextTask _ n')
  · obtain ⟨b, hb, rfl⟩ := Pool.node_of_modifyNode hi
    obtain ⟨a, ha, hansb⟩ := Pool.node_of_responded hb
    rw [assignedIds_concat_none (hnone i)]
    by_cases hik : k = i
    · subst hik
      rw [if_pos rfl]
      exact hnext
    · rw [if_neg hik]
      rw [hk] at hansb
      exact (h.nodes i a ha).same (hansb.sameWork hik hik)

/-- Every event keeps the nodes in order. -/
theorem Ordered.step (h : Ordered s₀ c es s) (hq : s₀.opts.enableTasksQueue = true) (hconc : s₀.concurrency = some c)
    {e : Event Data Response} (he : CallOrMessage s e) (hstep : FixedStep s e s') (hp : QueuePool s₀ s') :
    Ordered s₀ c (es ++ [e]) s' := by
  cases hstep with
  | @refused taskId name data choice x hid ha =>
    have hnot (i : Nat) : assignedId s₀.started i (.execute taskId name data choice : Event Data Response) = none := by
      cases choice with
      | none r => rfl
      | key k =>
        refine if_neg fun hc => ?_
        simp only [Bool.and_eq_true, Bool.not_eq_true', decide_eq_true_eq] at hc
        exact ha ⟨h.started.trans hc.1.1, hc.1.2, k, rfl⟩
    have hrest := Pool.settle_rest { s with uuids := taskId :: s.uuids } taskId (.thrown x)
    refine h.same hp (by rw [hrest]) hnot (fun i k hl => by rw [hrest]; exact hl) fun i n' hn' => ?_
    rw [Pool.settle_workerNodes] at hn'
    exact ⟨n', hn', ⟨rfl, rfl, rfl, rfl⟩, rfl, rfl⟩
  | executed hid ha hk hm => exact h.executed hq hconc hid ha hk hp hm
  | responded hn hm hl hk hx => exact h.responded hq hconc ⟨hn, hm, hl, hk, hx⟩ hp
  | @informed w message f hm hf =>
    refine h.same hp rfl (fun i => rfl) (fun i k hl => hl) fun i n' hn' => ?_
    obtain ⟨n, hn, rfl⟩ := Pool.node_of_modifyNode hn'
    refine ⟨n, hn, ?_⟩
    split <;> exact ⟨⟨rfl, rfl, rfl, rfl⟩, rfl, rfl⟩
  | ignored hm =>
    exact h.same hp rfl (fun i => rfl) (fun i k hl => hl) fun i n' hn' => ⟨n', hn', ⟨rfl, rfl, rfl, rfl⟩, rfl, rfl⟩
  | polled hk hx => exact he.elim
  | reconfigured hconf hx =>
    rcases hconf with ⟨b, o, rfl⟩ | ⟨o, rfl⟩
    · exact he.elim
    · exact he.elim

end Steps

/-! ## Runs -/

/-- Without stealing every node counts what is in flight on its worker, keeps to its quota, leaves no
task waiting below it, and sends its tasks in the order in which they were assigned. -/
theorem fifo_per_node {s₀ s : Pool Data Response} {es : List (Event Data Response)} {o : TasksQueueOptions} {c : Nat}
    (h₀ : Fresh s₀) (hfixed : s₀.type = .fixed ∨ s₀.full = true) (hsend : ∀ t, s₀.postable t = true)
    (hq : s₀.opts.enableTasksQueue = true) (ho : s₀.opts.tasksQueueOptions = some o) (hconc : o.concurrency = some c)
    (hsteal : o.taskStealing = false) (hpressure : o.tasksStealingOnBackPressure = false)
    (hr : Run (Guarded CallOrMessage Step) s₀ es s) :
    ∀ (i : Nat) n, s.workerNodes[i]? = some n → InOrder c (assignedIds s₀.started i es) n := by
  have hconc' : s₀.concurrency = some c := by
    unfold Pool.concurrency
    rw [ho]
    exact hconc
  have hinit : Ordered s₀ c [] s₀ := by
    refine ⟨⟨.of_fresh h₀ hfixed hsend, rfl⟩, rfl, fun i n hi => ?_, fun i n hi => ?_, Homed.of_fresh h₀⟩ <;>
      have hn := h₀.nodes n (List.mem_of_getElem? hi)
    · exact hn.plain ho hsteal hpressure
    · constructor
      · rw [hn.executing, hn.worker]
        rfl
      · rw [hn.executing]
        exact Nat.zero_le c
      · intro hne
        exact absurd hn.tasksQueue hne
      · rw [hn.worker, hn.tasksQueue]
        rfl
  have hrun := hr.trace_inv (Ordered s₀ c) hinit fun es s e s' hs hstep => by
    obtain ⟨he, hstep⟩ := hstep
    obtain ⟨now, hfs⟩ := fixedStep_of_step hs.pool.pool he.queueEvent.fixedEvent hstep
    have he' : CallOrMessage { s with now } e := by
      cases e <;> exact he
    have hpool := (hfs.all (P := fun _ _ => True) (hs.pool.now now) hq he'.queueEvent
      ⟨fun _ _ => trivial, fun _ _ _ => trivial, fun _ _ _ => trivial, fun _ _ _ _ => trivial⟩
      (fun _ _ _ => trivial) fun _ _ _ _ _ _ _ _ _ _ => trivial).1
    exact Ordered.step ⟨hs.pool.now now, hs.started, hs.plain, hs.nodes, hs.homed⟩ hq hconc' he' hfs hpool
  exact hrun.nodes

theorem fifo_per_node_two_workers :
    ∃ s, Run (Guarded CallOrMessage Step) (startedPool 2 true ⟨some 4, some 1, false, false⟩)
      [submit 0 0, submit 1 0, submit 2 1, submit 3 0, respond 0 0] s ∧
      (∃ n ∈ s.workerNodes, n.tasksQueue.length = 1 ∧ n.worker.received.length = 2) ∧
      ∀ (i : Nat) n, s.workerNodes[i]? = some n →
        InOrder 1 (assignedIds true i [submit 0 0, submit 1 0, submit 2 1, submit 3 0, respond 0 0]) n := by
  obtain ⟨s, hr, hs⟩ := run_to CallOrMessage 5 (startedPool 2 true ⟨some 4, some 1, false, false⟩)
    [submit 0 0, submit 1 0, submit 2 1, submit 3 0, respond 0 0]
    (P := fun s => ∃ n ∈ s.workerNodes, n.tasksQueue.length = 1 ∧ n.worker.received.length = 2) (by decide +kernel)
  exact ⟨s, hr, hs, fifo_per_node (fresh_startedPool 2 true _) (.inl rfl) (fun _ => rfl) rfl rfl rfl rfl rfl hr⟩

end Poolifier
