import Poolifier.Moves
/-!
# Worker nodes come

`Grown p p'`: nodes have been added at the end of `p`, each with nothing in its
queue and nothing sent to its worker, and with the callbacks and the back
pressure size the options ask for. Starting a pool and creating a dynamic worker
do no more than this. A pool as its constructor returns it is `Fresh`: it holds
no task, and every theorem about runs starts from there.
-/

namespace Poolifier

open EffLib WorkerNode

variable {Data Response : Type}

/-! ## New nodes -/

/-- A node as the pool `p` sets it up. -/
structure NewNode (p : Pool Data Response) (n : WorkerNode Data) : Prop where
  worker : n.worker = ⟨[], []⟩
  tasksQueue : n.tasksQueue = []
  executing : n.usage.tasks.executing = 0
  onEmptyQueueCount : n.onEmptyQueueCount = 0
  polling : n.polling = false
  destroying : n.destroying = none
  channelOpen : n.channelOpen = true
  onEmptyQueue : n.onEmptyQueue = (p.opts.enableTasksQueue && p.opts.tasksQueueOptions.any (·.taskStealing))
  onBackPressure : n.onBackPressure =
    (p.opts.enableTasksQueue && p.opts.tasksQueueOptions.any (·.tasksStealingOnBackPressure))
  size : ∀ z, p.queueSize = some z → n.tasksQueueBackPressureSize = some z
  terminated : n.terminated = false

/-- The nodes of `p'` are those of `p` and new ones, with ids of their own. -/
structure Grown (p p' : Pool Data Response) : Prop where
  rest : p' = { p with workerNodes := p'.workerNodes, nextWorkerId := p'.nextWorkerId }
  nodes : ∃ new, p'.workerNodes = p.workerNodes ++ new ∧ p'.nextWorkerId = p.nextWorkerId + new.length ∧
    new.map (·.info.id) = List.range' p.nextWorkerId new.length ∧ ∀ n ∈ new, NewNode p n

theorem Grown.refl (p : Pool Data Response) : Grown p p := ⟨rfl, [], by simp, rfl, rfl, by simp⟩

/-- How a node is set up depends on the options of the pool. -/
theorem NewNode.of_opts {p p' : Pool Data Response} {n : WorkerNode Data} (hn : NewNode p' n) (h : p'.opts = p.opts) :
    NewNode p n := by
  obtain ⟨h1, h2, h3, h4, h5, h6, h7, h8, h9, h10, h11⟩ := hn
  unfold Pool.queueSize at h10
  rw [h] at h8 h9 h10
  exact ⟨h1, h2, h3, h4, h5, h6, h7, h8, h9, h10, h11⟩

theorem Grown.opts {p p' : Pool Data Response} (h : Grown p p') : p'.opts = p.opts := by
  rw [h.rest]

theorem Grown.trans {p p' p'' : Pool Data Response} (h : Grown p p') (h' : Grown p' p'') : Grown p p'' := by
  obtain ⟨new, hn, hnext, hids, hnew⟩ := h.nodes
  obtain ⟨new', hn', hnext', hids', hnew'⟩ := h'.nodes
  refine ⟨by rw [h'.rest, h.rest], new ++ new', ?_, ?_, ?_, ?_⟩
  · rw [hn', hn, List.append_assoc]
  · rw [hnext', hnext, List.length_append]
    omega
  · rw [List.map_append, hids, hids', hnext, List.length_append, ← List.range'_append_1]
  · intro n hmem
    rcases List.mem_append.1 hmem with hmem | hmem
    · exact hnew n hmem
    · exact (hnew' n hmem).of_opts h.opts

/-- A worker that has a node keeps its key when nodes come. -/
theorem Grown.key_eq {p p' : Pool Data Response} (h : Grown p p') {w : Nat}
    (hw : p.getWorkerNodeKeyByWorkerId w < p.workerNodes.length) :
    p'.getWorkerNodeKeyByWorkerId w = p.getWorkerNodeKeyByWorkerId w := by
  obtain ⟨new, hnodes, -⟩ := h.nodes
  unfold Pool.getWorkerNodeKeyByWorkerId at hw ⊢
  rw [hnodes, List.findIdx_append, if_pos hw]

/-- Worker ids stay unique when nodes come. -/
theorem Grown.ids {p p' : Pool Data Response} (h : Grown p p') (hids : (p.workerNodes.map (·.info.id)).Nodup)
    (hbelow : ∀ n ∈ p.workerNodes, n.info.id < p.nextWorkerId) :
    (p'.workerNodes.map (·.info.id)).Nodup ∧ ∀ n ∈ p'.workerNodes, n.info.id < p'.nextWorkerId := by
  obtain ⟨new, hnodes, hnext, hnewIds, -⟩ := h.nodes
  have hnew (a : WorkerNode Data) (ha : a ∈ new) : p.nextWorkerId ≤ a.info.id ∧ a.info.id < p'.nextWorkerId := by
    have hm : a.info.id ∈ new.map (·.info.id) := List.mem_map_of_mem ha
    rw [hnewIds, List.mem_range'_1] at hm
    omega
  refine ⟨?_, fun a ha => ?_⟩
  · rw [hnodes, List.map_append, List.nodup_append]
    refine ⟨hids, hnewIds ▸ List.nodup_range', ?_⟩
    intro x hx y hy hxy
    obtain ⟨a, ha, rfl⟩ := List.mem_map.1 hx
    obtain ⟨b, hb, rfl⟩ := List.mem_map.1 hy
    have h₁ := hbelow a ha
    have h₂ := hnew b hb
    omega
  · rw [hnodes, List.mem_append] at ha
    rcases ha with ha | ha
    · have := hbelow a ha
      omega
    · exact (hnew a ha).2

theorem Grown.append {p : Pool Data Response} {n : WorkerNode Data} (hn : NewNode p n)
    (hid : n.info.id = p.nextWorkerId) :
    Grown p { p with workerNodes := p.workerNodes ++ [n], nextWorkerId := p.nextWorkerId + 1 } :=
  ⟨rfl, [n], rfl, rfl, by simp [hid], by simpa using hn⟩

theorem modify_append_length {α : Type} (l : List α) (a : α) (f : α → α) :
    (l ++ [a]).modify l.length f = l ++ [f a] := by
  induction l with
  | nil => rfl
  | cons b l ih => simp [ih]

/-- A node has joined `p`: it is the last one, and has the next worker id. -/
def Joined (dynamic : Bool) (p p' : Pool Data Response) : Prop :=
  ∃ n, NewNode p n ∧ n.info.id = p.nextWorkerId ∧ n.info.dynamic = dynamic ∧
    n.tasksQueueBackPressureSize = some p.newNodeSize ∧
    p' = { p with workerNodes := p.workerNodes ++ [n], nextWorkerId := p.nextWorkerId + 1 }

theorem Joined.grown {dynamic : Bool} {p p' : Pool Data Response} (h : Joined dynamic p p') : Grown p p' := by
  obtain ⟨n, hn, hid, -, -, rfl⟩ := h
  exact .append hn hid

theorem Joined.length_lt {dynamic : Bool} {p p' : Pool Data Response} (h : Joined dynamic p p') :
    p.workerNodes.length < p'.workerNodes.length := by
  obtain ⟨n, -, -, -, -, rfl⟩ := h
  simp

/-- Whether the constructor of a worker node accepts the back pressure size a new node gets. -/
def Pool.CanCreate (p : Pool Data Response) : Prop := 0 < p.newNodeSize ∧ p.newNodeSize < 2 ^ 53

instance (p : Pool Data Response) : Decidable p.CanCreate := inferInstanceAs (Decidable (_ ∧ _))

theorem Joined.canCreate {dynamic : Bool} {p p' : Pool Data Response} (h : Joined dynamic p p') :
    p'.CanCreate ↔ p.CanCreate := by
  obtain ⟨n, -, -, -, -, rfl⟩ := h
  exact Iff.rfl

theorem Joined.statics {p p' : Pool Data Response} (h : Joined false p p') :
    p'.staticWorkerNodes = p.staticWorkerNodes + 1 ∧ p'.numberOfWorkers = p.numberOfWorkers := by
  obtain ⟨n, -, -, hd, -, rfl⟩ := h
  refine ⟨?_, rfl⟩
  simp [Pool.staticWorkerNodes, hd]

/-! ## Creating worker nodes -/

section Create
variable {s : Pool Data Response}

/-- A node joins, or its back pressure size is refused. -/
theorem checkWorkerNodeArguments_cases (p : Pool Data Response) :
    p.CanCreate ∧ checkWorkerNodeArguments p.newNodeSize = .ok () ∨
      ¬ p.CanCreate ∧ ∃ e, checkWorkerNodeArguments p.newNodeSize = .error e := by
  unfold Pool.CanCreate checkWorkerNodeArguments
  split
  · exact .inr ⟨by omega, _, rfl⟩
  · split
    · exact .inr ⟨by omega, _, rfl⟩
    · exact .inl ⟨by omega, rfl⟩

theorem createAndSetupWorkerNode_throws (h : ¬ s.CanCreate) :
    ∃ e, createAndSetupWorkerNode s = some (.error e, s) := by
  obtain ⟨hc, -⟩ | ⟨-, e, he⟩ := checkWorkerNodeArguments_cases s
  · exact absurd hc h
  · refine ⟨e, ?_⟩
    simp only [createAndSetupWorkerNode, addWorkerNode, bind, Eff.bind, Eff.get, he, liftCheck, Eff.throw]

theorem createAndSetupWorkerNode_returns (h : s.CanCreate) :
    Returns createAndSetupWorkerNode (fun k s' => k = s.workerNodes.length ∧ Joined false s s') s := by
  obtain ⟨-, hok⟩ | ⟨hc, -⟩ := checkWorkerNodeArguments_cases s
  · have hsize : ∀ z, s.queueSize = some z → some s.newNodeSize = some z := by
      intro z hz
      rw [Pool.newNodeSize, hz]
      rfl
    have hopen : (WorkerNode.new s.nextWorkerId s.worker s.newNodeSize : WorkerNode Data).channelOpen = true := by
      rcases hw : s.worker with _ | _ <;> rfl
    simp only [createAndSetupWorkerNode, addWorkerNode, afterWorkerNodeSetup, returns_bind, returns_get, hok, liftCheck,
      returns_modify, returns_pure]
    split
    · rename_i he
      simp only [modifyNode, returns_modify, Pool.modifyNode, modify_append_length, true_and]
      refine ⟨_, ?_, ?_, ?_, ?_, rfl⟩
      · exact ⟨rfl, rfl, rfl, rfl, rfl, rfl, hopen, by simp [he], by simp [he], hsize, rfl⟩
      · rfl
      · rfl
      · rfl
    · rename_i he
      simp only [returns_pure, true_and]
      refine ⟨_, ?_, ?_, ?_, ?_, rfl⟩
      · exact ⟨rfl, rfl, rfl, rfl, rfl, rfl, hopen, by simp [he, WorkerNode.new], by simp [he, WorkerNode.new], hsize, rfl⟩
      · rfl
      · rfl
      · rfl
  · exact absurd h hc

/-- A worker node that is created is the last one. -/
theorem createAndSetupWorkerNode_joins :
    wp createAndSetupWorkerNode (fun k s' => s.CanCreate ∧ k = s.workerNodes.length ∧ Joined false s s')
      (fun _ s' => ¬ s.CanCreate ∧ s' = s) s := by
  by_cases h : s.CanCreate
  · exact ((createAndSetupWorkerNode_returns h).mono fun k s' hk => ⟨h, hk⟩).wp _
  · obtain ⟨e, he⟩ := createAndSetupWorkerNode_throws h
    exact (wp_of_error he).2 ⟨h, rfl⟩

theorem createAndSetupDynamicWorkerNode_joins :
    wp createAndSetupDynamicWorkerNode (fun k s' => s.CanCreate ∧ k = s.workerNodes.length ∧ Joined true s s')
      (fun _ s' => ¬ s.CanCreate ∧ s' = s) s := by
  simp only [createAndSetupDynamicWorkerNode, wp_bind, wp_get]
  refine wp_mono createAndSetupWorkerNode_joins (fun k s' hk => ?_) fun _ _ h => h
  obtain ⟨hc, rfl, n, hn, hid, -, hsize, rfl⟩ := hk
  simp only [wp_modifyNode, Pool.modifyNode, modify_append_length, wp_pure]
  refine ⟨hc, trivial, _, ?_, ?_, ?_, ?_, rfl⟩
  · obtain ⟨h1, h2, h3, h4, h5, h6, h7, h8, h9, h10, h11⟩ := hn
    exact ⟨h1, h2, h3, h4, h5, h6, h7, h8, h9, h10, h11⟩
  · exact hid
  · rfl
  · exact hsize

theorem createAndSetupDynamicWorkerNode_grows :
    wp createAndSetupDynamicWorkerNode
      (fun k s' => k = s.workerNodes.length ∧ k < s'.workerNodes.length ∧ Grown s s') (fun _ s' => s' = s) s := by
  refine wp_mono createAndSetupDynamicWorkerNode_joins (fun k s' hk => ?_) fun _ _ h => h.2
  obtain ⟨-, rfl, hj⟩ := hk
  exact ⟨rfl, hj.length_lt, hj.grown⟩

/-- A dynamic pool may create a worker; the key is the strategy's, or that of the new worker. -/
theorem chooseWorkerNode_grows (choice : Choice) :
    wp (chooseWorkerNode choice) (fun k s' => Grown s s' ∧
      (choice = .key k ∨ k = s.workerNodes.length ∧ k < s'.workerNodes.length) ∧
      (s.shallCreateDynamicWorker = false → s' = s ∧ choice = .key k))
      (fun _ s' => Grown s s' ∧ (s.shallCreateDynamicWorker = false → s' = s ∧ ∀ k, choice ≠ .key k)) s := by
  have choose (s' : Pool Data Response) (hs : Grown s s') (hc : s.shallCreateDynamicWorker = false → s' = s) :
      wp (chooseWorkerNode.choose choice) (fun k s' => Grown s s' ∧
        (choice = .key k ∨ k = s.workerNodes.length ∧ k < s'.workerNodes.length) ∧
        (s.shallCreateDynamicWorker = false → s' = s ∧ choice = .key k))
        (fun _ s' => Grown s s' ∧ (s.shallCreateDynamicWorker = false → s' = s ∧ ∀ k, choice ≠ .key k)) s' := by
    cases choice with
    | key k => exact (wp_pure _).2 ⟨hs, .inl rfl, fun h => ⟨hc h, rfl⟩⟩
    | none r => exact (wp_throw _).2 ⟨hs, fun h => ⟨hc h, by simp⟩⟩
  simp only [chooseWorkerNode, wp_bind, wp_get]
  rcases hc : s.shallCreateDynamicWorker with _ | _
  · simpa [hc] using choose s (.refl s) fun _ => rfl
  · simp only [if_true, wp_bind]
    refine wp_mono createAndSetupDynamicWorkerNode_grows (fun k s' hk => ?_) fun _ s' hs' => ?_
    · obtain ⟨hk, hlt, hs⟩ := hk
      split
      · simp only [wp_pure]
        exact ⟨hs, .inr ⟨hk, hlt⟩, fun h => by simp at h⟩
      · simpa [hc] using choose s' hs fun h => by simp [hc] at h
    · rw [hs']
      exact ⟨.refl s, fun h => by simp at h⟩

theorem start_grows (fuel : Nat) :
    wp (start fuel) (fun _ s' => Grown { s with starting := false, started := true } s')
      (fun _ s' => Grown { s with starting := true } s') s := by
  simp only [start, wp_bind, wp_modify]
  refine wp_mono (wp_whileDo (I := fun s' => Grown { s with starting := true } s')
    (J := fun _ s' => Grown { s with starting := true } s') (.refl _) (fun s' hs' => ?_) fun s' hs' => ?_)
    (fun _ s' hs' => ?_) fun _ _ h => h
  · simpa using hs'
  · simp only [wp_bind, wp_pure]
    refine wp_mono createAndSetupWorkerNode_joins (fun k s'' hk => hs'.trans hk.2.2.grown) fun _ s'' h => ?_
    rw [h.2]
    exact hs'
  · obtain ⟨new, hn, hnext, hids, hnew⟩ := hs'.nodes
    refine ⟨?_, new, hn, hnext, hids, fun n hn => (hnew n hn).of_opts rfl⟩
    rw [hs'.rest]

/-- The loop of a start ends where every node that is missing can be created. -/
theorem start_loop_returns (j : Nat) (s : Pool Data Response) (hj : s.numberOfWorkers ≤ s.staticWorkerNodes + j)
    (h : s.numberOfWorkers ≤ s.staticWorkerNodes ∨ s.CanCreate) :
    Returns (Eff.whileDo ((fun p => decide (p.staticWorkerNodes < p.numberOfWorkers)) <$> Eff.get)
      (do let _ ← createAndSetupWorkerNode; pure ()) (j + 1)) (fun _ _ => True) s := by
  have hcond : ((fun p : Pool Data Response => decide (p.staticWorkerNodes < p.numberOfWorkers)) <$> Eff.get :
      PoolM Data Response Bool) s = some (.ok (decide (s.staticWorkerNodes < s.numberOfWorkers)), s) := rfl
  rw [returns_whileDo_succ hcond]
  by_cases hlt : s.staticWorkerNodes < s.numberOfWorkers
  · have hc : s.CanCreate := h.resolve_left (by omega)
    rw [if_pos (decide_eq_true hlt)]
    simp only [returns_bind, returns_pure]
    refine (createAndSetupWorkerNode_returns hc).mono fun k s' hk => ?_
    obtain ⟨-, hjoin⟩ := hk
    obtain ⟨hstatics, hn⟩ := hjoin.statics
    cases j with
    | zero => omega
    | succ j => exact start_loop_returns j s' (by omega) (.inr (hjoin.canCreate.2 hc))
  · rw [if_neg (by simpa using hlt)]
    trivial

/-- A start ends, and does not throw, where every node that is missing can be created. -/
theorem start_returns (h : s.numberOfWorkers ≤ s.staticWorkerNodes ∨ s.CanCreate) :
    ∃ fuel, Returns (start fuel) (fun _ _ => True) s := by
  refine ⟨s.numberOfWorkers + 1, ?_⟩
  simp only [start, returns_bind, returns_modify]
  refine (start_loop_returns s.numberOfWorkers { s with starting := true } ?_ h).mono fun _ _ _ => trivial
  exact Nat.le_add_left _ _

end Create

/-! ## Fresh pools -/

/-- A pool that has been given no task yet. -/
structure Fresh (p : Pool Data Response) : Prop where
  nodes : ∀ n ∈ p.workerNodes, NewNode p n
  ids : (p.workerNodes.map (·.info.id)).Nodup
  idsBelow : ∀ n ∈ p.workerNodes, n.info.id < p.nextWorkerId
  promiseResponseMap : p.promiseResponseMap = ∅
  settled : p.settled = []
  uuids : p.uuids = []
  removedNodes : p.removedNodes = []
  errorsCaught : p.errorsCaught = 0
  destroying : p.destroying = false

theorem Fresh.of_grown {p p' : Pool Data Response} (h : Fresh p) (hp : p.workerNodes = []) (hg : Grown p p') :
    Fresh p' := by
  obtain ⟨new, hn, hnext, hids, hnew⟩ := hg.nodes
  rw [hp, List.nil_append] at hn
  have hrest := hg.rest
  constructor
  · intro n hmem
    exact (hnew n (hn ▸ hmem)).of_opts hg.opts.symm
  · rw [hn, hids]
    exact List.nodup_range'
  · intro n hmem
    have hid : n.info.id ∈ new.map (·.info.id) := List.mem_map_of_mem (hn ▸ hmem)
    rw [hids, List.mem_range'_1] at hid
    rw [hnext]
    exact hid.2
  all_goals rw [hrest]
  · exact h.promiseResponseMap
  · exact h.settled
  · exact h.uuids
  · exact h.removedNodes
  · exact h.errorsCaught
  · exact h.destroying

/-- Nothing that is fresh depends on the type and the maximum size of a pool. -/
theorem Fresh.resize {p : Pool Data Response} (h : Fresh p) (type : PoolType) (max : Option Nat) :
    Fresh { p with type, max } where
  nodes n hn := (h.nodes n hn).of_opts rfl
  ids := h.ids
  idsBelow := h.idsBelow
  promiseResponseMap := h.promiseResponseMap
  settled := h.settled
  uuids := h.uuids
  removedNodes := h.removedNodes
  errorsCaught := h.errorsCaught
  destroying := h.destroying

/-- The pool the constructor starts, if its checks pass. -/
theorem construct_ok {c : PoolConfig Data} {s₀ : Pool Data Response} (h : construct c = .ok s₀) :
    checkNumberOfWorkers c.type c.numberOfWorkers = .ok () ∧
      (c.enableTasksQueue = true → checkValidTasksQueueOptions c.tasksQueueOptions = .ok ()) ∧
      s₀ = initialPool c := by
  unfold construct at h
  rcases hw : checkNumberOfWorkers c.type c.numberOfWorkers with e | _
  · rw [hw] at h
    cases h
  · rw [hw] at h
    rcases he : c.enableTasksQueue with _ | _
    · rw [he] at h
      cases h
      exact ⟨rfl, (by rintro ⟨⟩), rfl⟩
    · rcases hq : checkValidTasksQueueOptions c.tasksQueueOptions with e | _
      · rw [he, hq] at h
        cases h
      · rw [he, hq] at h
        cases h
        exact ⟨rfl, fun _ => rfl, rfl⟩

theorem fresh_initialPool (c : PoolConfig Data) (starting started : Bool) :
    Fresh { (initialPool c : Pool Data Response) with starting, started } :=
  ⟨by simp [initialPool], by simp [initialPool], by simp [initialPool], rfl, rfl, rfl, rfl, rfl, rfl⟩

theorem fresh_of_start {c : PoolConfig Data} {fuel : Nat} {s : Pool Data Response}
    (hs : start fuel (initialPool c) = some (.ok (), s)) : Fresh s := by
  have hg := wp_ok (start_grows (s := initialPool c) fuel) hs
  exact (fresh_initialPool c false true).of_grown rfl hg

/-- What a constructor returns is fresh. -/
theorem fresh_of_created {c : PoolConfig Data} {startWorkers : Bool} {s : Pool Data Response}
    (h : Created c startWorkers s) : Fresh s := by
  obtain ⟨s₀, s₁, hc, hs, hm⟩ := h
  obtain ⟨-, -, rfl⟩ := construct_ok hc
  have hfresh : Fresh s₁ := by
    cases startWorkers with
    | true =>
      obtain ⟨fuel, hs⟩ := hs
      exact fresh_of_start hs
    | false =>
      rw [if_neg Bool.false_ne_true] at hs
      rw [hs]
      exact fresh_initialPool c false false
  unfold setMaxSize at hm
  split at hm
  · cases hm
    exact hfresh
  · rcases hd : checkDynamicPoolSize c.numberOfWorkers c.max with e | _
    · rw [hd] at hm
      cases hm
    · rw [hd] at hm
      cases hm
      exact hfresh.resize s₁.type c.max

/-- A started fixed pool of `n` thread workers, with the default strategy. -/
def startedPool (n : Nat) (enableTasksQueue : Bool) (o : TasksQueueOptions) : Pool Unit Unit where
  type := .fixed
  worker := .thread
  numberOfWorkers := n
  max := none
  opts := ⟨true, enableTasksQueue, if enableTasksQueue then some o else none⟩
  strategyPolicy := ⟨false, true⟩
  taskStatisticsRequirements := ⟨⟨false, false, false⟩, ⟨false, false, false⟩, ⟨false, false, false⟩⟩
  workerNodes := (List.range n).map fun i =>
    { WorkerNode.new i .thread (if enableTasksQueue then o.size.getD (n ^ 2) else n ^ 2) with
      info := ⟨i, .thread, false, true, none⟩
      onEmptyQueue := enableTasksQueue && o.taskStealing
      onBackPressure := enableTasksQueue && o.tasksStealingOnBackPressure }
  promiseResponseMap := ∅
  started := true
  starting := false
  settled := []
  uuids := []
  nextWorkerId := n
  removedNodes := []
  postable := fun _ => true
  now := 0
  errorsCaught := 0
  destroying := false

theorem fresh_startedPool (n : Nat) (enableTasksQueue : Bool) (o : TasksQueueOptions) :
    Fresh (startedPool n enableTasksQueue o) where
  nodes m hm := by
    simp only [startedPool, List.mem_map, List.mem_range] at hm
    obtain ⟨i, -, rfl⟩ := hm
    refine ⟨rfl, rfl, rfl, rfl, rfl, rfl, rfl, ?_, ?_, fun z hz => ?_, rfl⟩
    · cases enableTasksQueue <;> rfl
    · cases enableTasksQueue <;> rfl
    · cases enableTasksQueue with
      | false => cases hz
      | true =>
        have hsize : o.size = some z := hz
        simp [WorkerNode.new, hsize]
  ids := by
    have : (startedPool n enableTasksQueue o).workerNodes.map (·.info.id) = List.range n := by
      simp [startedPool, Function.comp_def]
    rw [this]
    exact List.nodup_range
  idsBelow m hm := by
    simp only [startedPool, List.mem_map, List.mem_range] at hm
    obtain ⟨i, hi, rfl⟩ := hm
    exact hi
  promiseResponseMap := rfl
  settled := rfl
  uuids := rfl
  removedNodes := rfl
  errorsCaught := rfl
  destroying := rfl

/-! ## Running events -/

/-- Steps computed with given fuel, at time zero, where a condition on the step holds. -/
def nextIf (ok : Pool Data Response → Event Data Response → Prop) [∀ s e, Decidable (ok s e)] (fuel : Nat)
    (s : Pool Data Response) (e : Event Data Response) : Option (Pool Data Response) :=
  if ok s e ∧ Enabled s e then (handle fuel e { s with now := 0 }).map Prod.snd else none

theorem step_of_nextIf {ok : Pool Data Response → Event Data Response → Prop} [∀ s e, Decidable (ok s e)] {fuel : Nat}
    {s s' : Pool Data Response} {e : Event Data Response} (h : nextIf ok fuel s e = some s') :
    RunLib.Guarded ok Step s e s' := by
  unfold nextIf at h
  split at h
  · obtain ⟨⟨r, s1⟩, hr, rfl⟩ := Option.map_eq_some_iff.1 h
    exact ⟨‹_ ∧ _›.1, ‹_ ∧ _›.2, fuel, 0, r, hr⟩
  · cases h

theorem run_of_events {ok : Pool Data Response → Event Data Response → Prop} [∀ s e, Decidable (ok s e)] {fuel : Nat}
    {s : Pool Data Response} {es : List (Event Data Response)} (h : (RunLib.replay (nextIf ok fuel) s es).isSome = true) :
    RunLib.Run (RunLib.Guarded ok Step) s es ((RunLib.replay (nextIf ok fuel) s es).get h) :=
  RunLib.run_of_replay (fun _ _ _ => step_of_nextIf) (Option.some_get h).symm

/-- Events that run to a state in which `P` holds. -/
theorem run_to (ok : Pool Data Response → Event Data Response → Prop) [∀ s e, Decidable (ok s e)] (fuel : Nat)
    (s : Pool Data Response) (es : List (Event Data Response)) {P : Pool Data Response → Prop} [DecidablePred P]
    (h : (RunLib.replay (nextIf ok fuel) s es).any (fun s' => decide (P s')) = true) :
    ∃ s', RunLib.Run (RunLib.Guarded ok Step) s es s' ∧ P s' :=
  RunLib.exists_run_of_replay (fun _ _ _ => step_of_nextIf) h

/-- A call of `execute` without a name, whose strategy chooses the node `k`. -/
def submit (taskId k : Nat) : Event Unit Unit := .execute taskId none () (.key k)

/-- The response of worker `w` to a task that has not failed. -/
def respond (w taskId : Nat) : Event Unit Unit := .message w (.taskResponse ⟨taskId, some (), none, none⟩)

end Poolifier
