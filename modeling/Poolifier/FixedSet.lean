import Poolifier.Places
/-!
# Pools over a fixed set of live workers

No worker comes or goes, and every send succeeds. `FixedPool` is what holds of
such a pool between two events: the promise map names nodes of the pool, and it
has one entry for each task that waits or is in flight. `FixedStep` says what
each event does, once for all the theorems about fixed sets; a handler that
starts the queue code is left at the state in which it starts it.
-/

namespace Poolifier

open EffLib WorkerNode

variable {Data Response : Type}

/-! ## The events and the invariant -/

/-- The events of a fixed set of workers. A strategy chooses a node of the set, or none. -/
def FixedEvent (s : Pool Data Response) : Event Data Response → Prop
  | .execute _ _ _ (.key k) => k < s.workerNodes.length
  | .execute _ _ _ (.none _) => True
  | .message _ (.taskResponse _) => True
  | .message _ (.ready ..) => True
  | .message _ (.taskFunctionNames _) => True
  | .poll _ => True
  | .enableTasksQueue .. => True
  | .setTasksQueueOptions _ => True
  | _ => False

instance (s : Pool Data Response) : DecidablePred (FixedEvent s)
  | .execute _ _ _ (.key k) => inferInstanceAs (Decidable (k < s.workerNodes.length))
  | .execute _ _ _ (.none _) | .message _ (.taskResponse _) | .message _ (.ready ..) | .message _ (.taskFunctionNames _)
  | .poll _ | .enableTasksQueue .. | .setTasksQueueOptions _ => inferInstanceAs (Decidable True)
  | .message _ (.killRequest _) | .message _ (.killAnswer _) | .error _ | .exit _ | .start | .destroy | .destroyed =>
    inferInstanceAs (Decidable False)

/-- A pool over a fixed set of live workers, while the code has `h` in hand. -/
structure FixedPool (p : Pool Data Response) (h : Multiset (Task Data)) : Prop where
  live : Live p
  fixed : p.type = .fixed ∨ p.full = true
  ids : (p.workerNodes.map (·.info.id)).Nodup
  removedNodes : p.removedNodes = []
  keys : ∀ taskId k, p.promiseResponseMap.lookup taskId = some k → k < p.workerNodes.length
  uuids : ∀ taskId ∈ p.promiseResponseMap.keys, taskId ∈ p.uuids
  /-- The promise map has an entry for each task, and each task one place. -/
  accounted : (p.placed + h).map (·.taskId) = ↑p.promiseResponseMap.keys

theorem FixedPool.of_fresh {p : Pool Data Response} (h : Fresh p) (hfixed : p.type = .fixed ∨ p.full = true)
    (hpost : ∀ t, p.postable t = true) : FixedPool p 0 where
  live := ⟨fun n hn => (h.nodes n hn).channelOpen, hpost⟩
  fixed := hfixed
  ids := h.ids
  removedNodes := h.removedNodes
  keys taskId k hk := by simp [h.promiseResponseMap] at hk
  uuids taskId hk := by simp [h.promiseResponseMap] at hk
  accounted := by
    have hplaced : p.placed = 0 := by
      refine List.sum_eq_zero fun m hm => ?_
      obtain ⟨n, hn, rfl⟩ := List.mem_map.1 hm
      simp [held, (h.nodes n hn).worker, (h.nodes n hn).tasksQueue]
    simp [hplaced, h.promiseResponseMap]

/-- What the invariant reads of a node. -/
def nodeView (n : WorkerNode Data) : Nat × Multiset (Task Data) × Bool := (n.info.id, n.held, n.channelOpen)

/-- The invariant reads nothing of options, time and ended promises. -/
theorem FixedPool.of_view {p p' : Pool Data Response} {h : Multiset (Task Data)} (hp : FixedPool p h)
    (hn : p'.workerNodes.map nodeView = p.workerNodes.map nodeView)
    (hrest : p' = { p with workerNodes := p'.workerNodes, opts := p'.opts, now := p'.now, settled := p'.settled }) :
    FixedPool p' h := by
  have hlen : p'.workerNodes.length = p.workerNodes.length := by
    simpa using congrArg List.length hn
  have hids : p'.workerNodes.map (·.info.id) = p.workerNodes.map (·.info.id) := by
    simpa [nodeView, Function.comp_def] using congrArg (List.map Prod.fst) hn
  have hheld : p'.placed = p.placed := by
    have := congrArg (List.map fun v : Nat × Multiset (Task Data) × Bool => v.2.1) hn
    simp only [List.map_map] at this
    exact congrArg List.sum this
  have hopen : p'.workerNodes.map (·.channelOpen) = p.workerNodes.map (·.channelOpen) := by
    simpa [nodeView, Function.comp_def] using
      congrArg (List.map fun v : Nat × Multiset (Task Data) × Bool => v.2.2) hn
  refine ⟨⟨fun n hn' => ?_, ?_⟩, ?_, ?_, ?_, ?_, ?_, ?_⟩
  · have hm : n.channelOpen ∈ p.workerNodes.map (·.channelOpen) := hopen ▸ List.mem_map_of_mem hn'
    obtain ⟨m, hm, he⟩ := List.mem_map.1 hm
    rw [← he]
    exact hp.live.1 m hm
  · rw [hrest]
    exact hp.live.2
  · rcases hp.fixed with ht | hf
    · exact .inl (by rw [hrest]; exact ht)
    · refine .inr ?_
      simp only [Pool.full, decide_eq_true_eq] at hf ⊢
      rw [hlen, hrest]
      exact hf
  · rw [hids]
    exact hp.ids
  · rw [hrest]
    exact hp.removedNodes
  · intro taskId k hk
    rw [hlen]
    rw [hrest] at hk
    exact hp.keys taskId k hk
  · rw [hrest]
    exact hp.uuids
  · rw [hheld, hrest]
    exact hp.accounted

/-- The queue code keeps the invariant. -/
theorem FixedPool.reached {g : Prop} {c : Config Data Response} {s : Pool Data Response} {h : Multiset (Task Data)}
    (hc : FixedPool c.1 c.2) (hr : Reached g c s h) : FixedPool s h := by
  have hf := hr.frame
  refine ⟨hf.live hc.live, ?_, ?_, ?_, ?_, ?_, ?_⟩
  · rcases hc.fixed with ht | hfull
    · exact .inl (by rw [hf.rest]; exact ht)
    · refine .inr ?_
      simp only [Pool.full, decide_eq_true_eq] at hfull ⊢
      rw [hf.length, hf.rest]
      exact hfull
  · rw [hf.ids]
    exact hc.ids
  · rw [hf.rest]
    exact hc.removedNodes
  · intro taskId k hk
    rw [hf.length]
    rw [hf.rest] at hk
    exact hc.keys taskId k hk
  · rw [hf.rest]
    exact hc.uuids
  · obtain ⟨lost, heq, hlost⟩ := hr.placed
    rw [hlost hc.live, add_zero] at heq
    rw [heq, hf.rest]
    exact hc.accounted

/-- A fixed set grows by no worker. -/
theorem FixedPool.not_shallCreate {p : Pool Data Response} {h : Multiset (Task Data)} (hp : FixedPool p h) :
    p.shallCreateDynamicWorker = false := by
  rcases hp.fixed with ht | hf
  · simp [Pool.shallCreateDynamicWorker, ht]
  · simp [Pool.shallCreateDynamicWorker, hf]

/-! ## Responses and promises -/

theorem Pool.node_of_key {p : Pool Data Response} (hids : (p.workerNodes.map (·.info.id)).Nodup)
    {n : WorkerNode Data} (hn : n ∈ p.workerNodes) :
    p.workerNodes[p.getWorkerNodeKeyByWorkerId n.info.id]? = some n := by
  obtain ⟨m, hm⟩ := Pool.node_of_lt ((p.key_lt_iff n.info.id).2 ⟨n, hn, rfl⟩)
  rw [hm, List.inj_on_of_nodup_map hids (List.mem_of_getElem? hm) hn (Pool.id_of_key hm)]

/-- A response takes the task it answers out of flight. -/
theorem held_answer {n : WorkerNode Data} {taskId : Nat} (h : taskId ∈ n.worker.unanswered.map (·.taskId)) :
    ∃ t, t.taskId = taskId ∧ n.held = (n.answer taskId).held + {t} := by
  obtain ⟨t₀, ht₀, he⟩ := List.mem_map.1 h
  obtain ⟨t, l₁, l₂, -, ht, hl, heq⟩ := List.exists_of_eraseP (p := fun t => decide (t.taskId = taskId)) ht₀ (by simpa using he)
  refine ⟨t, by simpa using ht, ?_⟩
  simp only [held, answer, heq]
  rw [hl]
  simp only [← Multiset.coe_add, ← Multiset.cons_coe, ← Multiset.singleton_add]
  abel

theorem FixedPool.called {p : Pool Data Response} (hp : FixedPool p 0) {k : Nat} (hk : k < p.workerNodes.length)
    (t : Task Data) (hid : t.taskId ∉ p.uuids) : FixedPool (p.called t.taskId k) {t} where
  live := hp.live
  fixed := hp.fixed
  ids := hp.ids
  removedNodes := hp.removedNodes
  keys taskId j hj := by
    simp only [Pool.called, Pool.withPromise] at hj ⊢
    by_cases he : taskId = t.taskId
    · subst he
      rw [AList.lookup_insert] at hj
      cases hj
      exact hk
    · rw [AList.lookup_insert_ne he] at hj
      exact hp.keys taskId j hj
  uuids taskId hmem := by
    simp only [Pool.called, Pool.withPromise, AList.keys_insert, List.mem_cons] at hmem ⊢
    rcases hmem with rfl | hmem
    · exact .inl rfl
    · exact .inr (hp.uuids taskId (List.mem_of_mem_erase hmem))
  accounted := by
    have hkey : t.taskId ∉ p.promiseResponseMap.keys := fun hm => hid (hp.uuids _ hm)
    have hacc := hp.accounted
    simp only [add_zero] at hacc
    have hplaced : (p.called t.taskId k).placed = p.placed := rfl
    simp only [hplaced, Multiset.map_add, hacc, Multiset.map_singleton]
    simp only [Pool.called, Pool.withPromise, AList.keys_insert, List.erase_of_not_mem hkey, ← Multiset.cons_coe,
      ← Multiset.singleton_add]
    abel

theorem FixedPool.responded {p : Pool Data Response} (hp : FixedPool p 0) {w k : Nat} {n : WorkerNode Data}
    {m : TaskResponse Response} (hn : p.workerNodes[p.getWorkerNodeKeyByWorkerId w]? = some n)
    (hm : m.taskId ∈ n.worker.unanswered.map (·.taskId)) : FixedPool (p.responded w m k) 0 := by
  obtain ⟨t, ht, hheld⟩ := held_answer hm
  -- the view of the nodes after the response is that after `answer` alone
  have hview : (p.responded w m k).workerNodes.map nodeView =
      (p.modifyNode (p.getWorkerNodeKeyByWorkerId w) (·.answer m.taskId)).workerNodes.map nodeView := by
    simp only [Pool.responded, Pool.answered, Pool.modifyNode, Pool.settle_workerNodes]
    refine map_modify_same fun a _ => ?_
    obtain ⟨u, hu⟩ := afterTaskExecution_eq
      (p.modifyNode (p.getWorkerNodeKeyByWorkerId w) (·.answer m.taskId)).taskStatisticsRequirements m a
    simp only [Pool.modifyNode] at hu
    rw [hu]
    rfl
  have hanswer : FixedPool { p.modifyNode (p.getWorkerNodeKeyByWorkerId w) (·.answer m.taskId) with
      promiseResponseMap := p.promiseResponseMap.erase m.taskId } 0 := by
    refine ⟨⟨fun a ha => ?_, hp.live.2⟩, ?_, ?_, hp.removedNodes, ?_, ?_, ?_⟩
    · obtain ⟨j, hj⟩ := List.mem_iff_getElem?.1 ha
      obtain ⟨b, hb, rfl⟩ := Pool.node_of_modifyNode hj
      have hopen := hp.live.1 b (List.mem_of_getElem? hb)
      split <;> exact hopen
    · refine hp.fixed.imp id fun hf => ?_
      simp only [Pool.full, decide_eq_true_eq] at hf ⊢
      exact (Pool.length_modifyNode _ _ _).symm ▸ hf
    · have hids := map_modify_same (l := p.workerNodes) (i := p.getWorkerNodeKeyByWorkerId w)
        (g := fun n : WorkerNode Data => n.info.id) (f := (·.answer m.taskId)) fun _ _ => rfl
      simp only [Pool.modifyNode, hids]
      exact hp.ids
    · intro taskId j hj
      simp only [Pool.length_modifyNode] at hj ⊢
      refine hp.keys taskId j ?_
      by_cases he : taskId = m.taskId
      · subst he; simp at hj
      · rwa [AList.lookup_erase_ne he] at hj
    · intro taskId hk
      simp only [AList.keys_erase] at hk
      exact hp.uuids taskId (List.mem_of_mem_erase hk)
    · have hplaced := Pool.placed_take hn (f := (·.answer m.taskId)) hheld
      have hacc := hp.accounted
      simp only [add_zero] at hacc
      rw [← hplaced, Multiset.map_add, Multiset.map_singleton, ht] at hacc
      have : (p.modifyNode (p.getWorkerNodeKeyByWorkerId w) (·.answer m.taskId)).placed.map (·.taskId) =
          (↑(p.promiseResponseMap.keys.erase m.taskId) : Multiset Nat) := by
        rw [← Multiset.coe_erase, ← hacc, add_comm, Multiset.singleton_add, Multiset.erase_cons_head]
      simp only [add_zero, AList.keys_erase]
      exact this
  refine hanswer.of_view hview ?_
  simp only [Pool.responded, Pool.answered]
  rw [Pool.settle_rest]
  rfl

/-! ## What an event does -/

/-- What an event does to a fixed set of live workers. -/
inductive FixedStep (s : Pool Data Response) : Event Data Response → Pool Data Response → Prop
  /-- A call of `execute` that gets no key. -/
  | refused {taskId name data choice} (e) : taskId ∉ s.uuids → ¬ Accepts s name choice →
      FixedStep s (.execute taskId name data choice)
        (Pool.settle taskId (.thrown e) { s with uuids := taskId :: s.uuids })
  | executed {taskId name data k fuel s'} : taskId ∉ s.uuids → Accepts s name (.key k) → k < s.workerNodes.length →
      dispatchTask (callbacks fuel) k ⟨name.getD defaultTaskName, data, s.now, taskId⟩ (s.called taskId k) =
        some (.ok (), s') →
      FixedStep s (.execute taskId name data (.key k)) s'
  | responded {w m k fuel n s'} : s.workerNodes[s.getWorkerNodeKeyByWorkerId w]? = some n →
      m.taskId ∈ n.worker.unanswered.map (·.taskId) → s.promiseResponseMap.lookup m.taskId = some k →
      k < s.workerNodes.length → executeNextTask (callbacks fuel) k (s.responded w m k) = some (.ok (), s') →
      FixedStep s (.message w (.taskResponse m)) s'
  /-- A worker says that it is ready, or names its task functions. -/
  | informed {w message} (f : WorkerInfo → WorkerInfo) : (∀ m, message ≠ .taskResponse m) →
      (∀ i, (f i).id = i.id ∧ (f i).type = i.type) →
      FixedStep s (.message w message)
        (s.modifyNode (s.getWorkerNodeKeyByWorkerId w) fun n => { n with info := f n.info })
  | ignored {w message} : (∀ m, message ≠ .taskResponse m) → FixedStep s (.message w message) s
  | polled {w fuel s'} : s.getWorkerNodeKeyByWorkerId w < s.workerNodes.length →
      startOnEmptyQueueCaught (callbacks fuel) (s.getWorkerNodeKeyByWorkerId w) s = some (.ok (), s') →
      FixedStep s (.poll w) s'
  | reconfigured {e fuel r s'} : ((∃ b o, e = .enableTasksQueue b o) ∨ ∃ o, e = .setTasksQueueOptions o) →
      handle fuel e s = some (r, s') → FixedStep s e s'

/-- In a fixed set, a worker that sends or polls is one of the pool. -/
theorem FixedPool.node_of {p : Pool Data Response} {h : Multiset (Task Data)} (hp : FixedPool p h) {w : Nat}
    {P : WorkerNode Data → Prop} (hw : NodeOf p w P) :
    ∃ n, p.workerNodes[p.getWorkerNodeKeyByWorkerId w]? = some n ∧ P n := by
  rcases hw with ⟨n, hn, rfl, hP⟩ | ⟨-, n, hn, -⟩
  · exact ⟨n, Pool.node_of_key hp.ids hn, hP⟩
  · simp [hp.removedNodes] at hn

/-- The promise of a task in flight is in the map, under the key of a node. -/
theorem FixedPool.entry {p : Pool Data Response} (hp : FixedPool p 0) {i : Nat} {n : WorkerNode Data}
    (hn : p.workerNodes[i]? = some n) {taskId : Nat} (hm : taskId ∈ n.worker.unanswered.map (·.taskId)) :
    ∃ k, p.promiseResponseMap.lookup taskId = some k ∧ k < p.workerNodes.length := by
  obtain ⟨t, ht, rfl⟩ := List.mem_map.1 hm
  have hplaced : t ∈ p.placed := Pool.mem_placed.2 ⟨n, List.mem_of_getElem? hn, WorkerNode.mem_held.2 (.inr ht)⟩
  have hkey : t.taskId ∈ (↑p.promiseResponseMap.keys : Multiset Nat) := by
    rw [← hp.accounted, add_zero]
    exact Multiset.mem_map_of_mem _ hplaced
  obtain ⟨k, hk⟩ := Option.isSome_iff_exists.1 (AList.lookup_isSome.2 (Multiset.mem_coe.1 hkey))
  exact ⟨k, hk, hp.keys _ k hk⟩

theorem fixedStep_of_handle {s s' : Pool Data Response} {e : Event Data Response} {fuel : Nat}
    {r : Except JsError Unit} (hp : FixedPool s 0) (he : FixedEvent s e) (hen : Enabled s e)
    (hm : handle fuel e s = some (r, s')) : FixedStep s e s' := by
  have hstep : wp (handle fuel e) (fun _ => FixedStep s e) (fun _ => FixedStep s e) s := by
    cases e with
    | execute taskId name data choice =>
      refine wp_execute (fun e s₁ _ hc => ?_) fun k s₁ _ _ hc hst hname => ?_
      · obtain ⟨rfl, ha⟩ := hc hp.not_shallCreate
        exact .refused e hen ha
      · obtain ⟨rfl, rfl⟩ := hc hp.not_shallCreate
        intro r s₂ hm₂
        cases r with
        | ok u => exact .executed hen ⟨hst, hname, k, rfl⟩ he hm₂
        | error e =>
          have hr := Reached.refl (g := False) (s.called taskId k)
            {(⟨name.getD defaultTaskName, data, s.now, taskId⟩ : Task Data)}
          have hf := wp_error (dispatchTask_moves (callbacks_move fuel) hr he False.elim) hm₂
          exact absurd hf (not_failed hp.live)
    | message w message =>
      rcases hn : s.workerNodes[s.getWorkerNodeKeyByWorkerId w]? with _ | n
      · refine wp_message_unknown hn fun _ => .ignored ?_
        rintro m rfl
        obtain ⟨n, hn', -⟩ := hp.node_of hen
        rw [hn] at hn'
        cases hn'
      · refine wp_message hn ?_ ?_ ?_ ?_ ?_ ?_ ?_ ?_
        · rintro names rfl
          exact .informed (fun i => { i with ready := true, taskFunctionNames := some names }) (by simp)
            fun _ => ⟨rfl, rfl⟩
        · rintro names e rfl
          exact .ignored (by simp)
        · rintro names rfl
          exact .informed (fun i => { i with taskFunctionNames := some names }) (by simp) fun _ => ⟨rfl, rfl⟩
        · rintro m rfl
          obtain ⟨n', hn', hm'⟩ := hp.node_of hen
          obtain ⟨k, hl, hk⟩ := hp.entry hn' hm'
          have hk' : k < (s.modifyNode (s.getWorkerNodeKeyByWorkerId w) (·.answer m.taskId)).workerNodes.length := by
            rwa [Pool.length_modifyNode]
          obtain ⟨n'', hn''⟩ := Pool.node_of_lt hk'
          rw [wp_response (s := s.modifyNode _ _) hl hn'']
          intro r s₂ hm₂
          cases r with
          | ok u => exact .responded hn' hm' hl hk hm₂
          | error e =>
            have hres := hp.responded (k := k) hn' hm'
            have hr := Reached.refl (g := False) (s.responded w m k) 0
            have hf := wp_error (executeNextTask_moves (callbacks_move fuel) hr
              (by rwa [Pool.length_responded])) hm₂
            exact absurd hf (not_failed hres.live)
        · rintro behavior rfl
          exact he.elim
        · rintro behavior rfl
          exact he.elim
        · rintro rfl
          exact he.elim
        · rintro rfl
          exact he.elim
    | poll w =>
      obtain ⟨n, hn, -⟩ := hp.node_of hen
      have hk := Pool.lt_of_node hn
      simp only [handle, pollingTick, wp_bind, wp_get, hk, if_true]
      intro r s₂ hm₂
      cases r with
      | ok u => exact .polled hk hm₂
      | error e =>
        have hr := Reached.refl (g := False) s 0
        exact (wp_error (startOnEmptyQueueCaught_moves (callbacks_move fuel) hr hn) hm₂).elim
    | enableTasksQueue b o => exact fun r s₁ hm₁ => by cases r <;> exact .reconfigured (.inl ⟨b, o, rfl⟩) hm₁
    | setTasksQueueOptions o => exact fun r s₁ hm₁ => by cases r <;> exact .reconfigured (.inr ⟨o, rfl⟩) hm₁
    | error w => exact he.elim
    | exit w => exact he.elim
    | start => exact he.elim
    | destroy => exact he.elim
    | destroyed => exact he.elim
  exact wp_any hstep hm

/-- The steps of a fixed set, inverted. -/
theorem fixedStep_of_step {s s' : Pool Data Response} {e : Event Data Response} (hp : FixedPool s 0)
    (he : FixedEvent s e) (h : Step s e s') : ∃ now, FixedStep { s with now } e s' := by
  obtain ⟨hen, fuel, now, r, hm⟩ := h
  exact ⟨now, fixedStep_of_handle (hp.of_view rfl rfl) he hen hm⟩

/-! ## Every event keeps the invariant -/

/-- `p'` is `p` but for what its nodes hold and how the queue is set up. -/
def SamePromises (p p' : Pool Data Response) : Prop :=
  p' = { p with workerNodes := p'.workerNodes, opts := p'.opts, errorsCaught := p'.errorsCaught }

theorem SamePromises.trans {p p' p'' : Pool Data Response} (h : SamePromises p p') (h' : SamePromises p' p'') :
    SamePromises p p'' := by
  rw [SamePromises, h', h]

theorem Frame.samePromises {p p' : Pool Data Response} (h : Frame p p') : SamePromises p p' := by
  rw [SamePromises, h.rest]

section Options
variable {s₀ s : Pool Data Response}

theorem setTasksQueueOptions_fixedPool (hs : FixedPool s 0 ∧ SamePromises s₀ s) (o : TasksQueueOptionsArgument) :
    wp (setTasksQueueOptions o) (fun _ s' => FixedPool s' 0 ∧ SamePromises s₀ s')
      (fun _ s' => FixedPool s' 0 ∧ SamePromises s₀ s') s := by
  simp only [setTasksQueueOptions, wp_bind, wp_get]
  split
  · rcases hc : checkValidTasksQueueOptions o with e | ⟨⟩
    · simpa [liftCheck] using hs
    · simp only [liftCheck, setTasksQueueSize, setTaskStealing, setTasksStealingOnBackPressure, mapNodes, wp_bind,
        wp_pure, wp_modify]
      refine ⟨hs.1.of_view ?_ rfl, hs.2.trans rfl⟩
      simp only [List.map_map]
      rfl
  · exact (wp_modify _).2 ⟨hs.1.of_view rfl rfl, hs.2.trans rfl⟩

theorem disableTasksQueue_fixedPool (hs : FixedPool s 0 ∧ SamePromises s₀ s) (fuel : Nat) :
    wp (disableTasksQueue (callbacks fuel) fuel) (fun _ s' => FixedPool s' 0 ∧ SamePromises s₀ s')
      (fun _ s' => FixedPool s' 0 ∧ SamePromises s₀ s') s := by
  simp only [disableTasksQueue, setTaskStealing, setTasksStealingOnBackPressure, mapNodes, wp_bind, wp_modify]
  generalize hs₁ : ({ s with
    workerNodes := (s.workerNodes.map fun n => { n with onEmptyQueue := false }).map
      fun n => { n with onBackPressure := false } } : Pool Data Response) = s₁
  have hset : FixedPool s₁ 0 ∧ SamePromises s₀ s₁ := by
    subst hs₁
    refine ⟨hs.1.of_view ?_ rfl, hs.2.trans rfl⟩
    simp only [List.map_map]
    rfl
  refine wp_mono (flushTasksQueues_moves (callbacks_move fuel) fuel (Reached.refl s₁ 0)) (fun _ s₂ h₂ => ?_)
    fun _ _ hf => absurd hf (not_failed hset.1.live)
  exact ⟨FixedPool.reached (c := (s₁, 0)) hset.1 h₂, hset.2.trans h₂.frame.samePromises⟩

theorem enableTasksQueue_fixedPool (hs : FixedPool s 0 ∧ SamePromises s₀ s) (fuel : Nat) (b : Bool)
    (o : TasksQueueOptionsArgument) :
    wp (enableTasksQueue (callbacks fuel) fuel b o) (fun _ s' => FixedPool s' 0 ∧ SamePromises s₀ s')
      (fun _ s' => FixedPool s' 0 ∧ SamePromises s₀ s') s := by
  have hset (s₁ : Pool Data Response) (h₁ : FixedPool s₁ 0 ∧ SamePromises s₀ s₁) :
      FixedPool { s₁ with opts.enableTasksQueue := b } 0 ∧ SamePromises s₀ { s₁ with opts.enableTasksQueue := b } :=
    ⟨h₁.1.of_view rfl rfl, h₁.2.trans rfl⟩
  simp only [enableTasksQueue, wp_bind, wp_get]
  split
  · simp only [wp_bind, wp_modify]
    refine wp_mono (disableTasksQueue_fixedPool hs fuel) (fun _ s₁ h₁ => ?_) fun _ _ h => h
    exact setTasksQueueOptions_fixedPool (hset s₁ h₁) o
  · simp only [wp_bind, wp_modify]
    exact setTasksQueueOptions_fixedPool (hset s hs) o

theorem reconfigured_fixedPool {s' : Pool Data Response} {e : Event Data Response} {fuel : Nat}
    {r : Except JsError Unit} (hp : FixedPool s 0)
    (he : (∃ b o, e = .enableTasksQueue b o) ∨ ∃ o, e = .setTasksQueueOptions o)
    (hm : handle fuel e s = some (r, s')) : FixedPool s' 0 ∧ SamePromises s s' := by
  rcases he with ⟨b, o, rfl⟩ | ⟨o, rfl⟩
  · have hw := enableTasksQueue_fixedPool (⟨hp, rfl⟩ : FixedPool s 0 ∧ SamePromises s s) fuel b o
    exact wp_any (I := fun s' => FixedPool s' 0 ∧ SamePromises s s') hw hm
  · have hw := setTasksQueueOptions_fixedPool (⟨hp, rfl⟩ : FixedPool s 0 ∧ SamePromises s s) o
    exact wp_any (I := fun s' => FixedPool s' 0 ∧ SamePromises s s') hw hm

end Options

/-- Where the queue code ends that an event of a fixed set starts, it has moved tasks. -/
theorem dispatchTask_reached {s s' : Pool Data Response} {fuel k : Nat} {t : Task Data} {r : Except JsError Unit}
    {h : Multiset (Task Data)} (hp : FixedPool s (t ::ₘ h)) (hk : k < s.workerNodes.length)
    (hm : dispatchTask (callbacks fuel) k t s = some (r, s')) :
    Reached (s.opts.enableTasksQueue = true) (s, t ::ₘ h) s' h := by
  have hw := dispatchTask_moves (g := s.opts.enableTasksQueue = true) (callbacks_move fuel)
    (Reached.refl s (t ::ₘ h)) hk id
  cases r with
  | ok u =>
    have hr := wp_ok hw hm
    exact hr
  | error e => exact absurd (wp_error hw hm) (not_failed hp.live)

theorem executeNextTask_reached {s s' : Pool Data Response} {fuel k : Nat} {r : Except JsError Unit}
    (hp : FixedPool s 0) (hk : k < s.workerNodes.length)
    (hm : executeNextTask (callbacks fuel) k s = some (r, s')) : Reached False (s, 0) s' 0 := by
  have hw := executeNextTask_moves (callbacks_move fuel) (Reached.refl s 0) hk
  cases r with
  | ok u =>
    have hr := wp_ok hw hm
    exact hr
  | error e => exact absurd (wp_error hw hm) (not_failed hp.live)

theorem polled_reached {s s' : Pool Data Response} {fuel k : Nat} {r : Except JsError Unit}
    (hk : k < s.workerNodes.length) (hm : startOnEmptyQueueCaught (callbacks fuel) k s = some (r, s')) :
    Reached True (s, 0) s' 0 := by
  obtain ⟨n, hn⟩ := Pool.node_of_lt hk
  have hw := startOnEmptyQueueCaught_moves (g := True) (callbacks_move fuel) (Reached.refl s 0) hn
  cases r with
  | ok u =>
    have hr := wp_ok hw hm
    exact hr
  | error e => exact (wp_error hw hm).elim

theorem FixedStep.fixedPool {s s' : Pool Data Response} {e : Event Data Response} (hp : FixedPool s 0)
    (h : FixedStep s e s') : FixedPool s' 0 := by
  cases h with
  | @refused taskId name data choice e hid ha =>
    refine FixedPool.of_view (p := { s with uuids := taskId :: s.uuids }) ?_ ?_ ?_
    · exact ⟨hp.live, hp.fixed, hp.ids, hp.removedNodes, hp.keys,
        fun i hi => List.mem_cons_of_mem _ (hp.uuids i hi), hp.accounted⟩
    · rw [Pool.settle_workerNodes]
    · rw [Pool.settle_rest]
  | @executed taskId name data k fuel s' hid ha hk hm =>
    have hc := hp.called hk ⟨name.getD defaultTaskName, data, s.now, taskId⟩ hid
    exact FixedPool.reached (c := (_, _)) hc (dispatchTask_reached (h := 0) hc hk hm)
  | @responded w m k fuel n s' hn hm hl hk hx =>
    have hc := hp.responded (k := k) hn hm
    have hlt : k < (s.responded w m k).workerNodes.length := by rwa [Pool.length_responded]
    exact FixedPool.reached (c := (_, _)) hc (executeNextTask_reached hc hlt hx)
  | @informed w message f hm hf =>
    refine hp.of_view (map_modify_same fun n _ => ?_) rfl
    simp [nodeView, held, channelOpen, hf]
  | ignored hm => exact hp
  | polled hk hx => exact FixedPool.reached (c := (_, _)) hp (polled_reached hk hx)
  | reconfigured he hx => exact (reconfigured_fixedPool hp he hx).1

/-- Every run over a fixed set of live workers keeps them so. -/
theorem fixedPool_of_run {s₀ s : Pool Data Response} {es : List (Event Data Response)} (h₀ : Fresh s₀)
    (hfixed : s₀.type = .fixed ∨ s₀.full = true) (hsend : ∀ t, s₀.postable t = true)
    (hr : RunLib.Run (RunLib.Guarded FixedEvent Step) s₀ es s) : FixedPool s 0 := by
  refine hr.inv (FixedPool · 0) (.of_fresh h₀ hfixed hsend) fun s e s' hp hs => ?_
  obtain ⟨now, hstep⟩ := fixedStep_of_step hp hs.1 hs.2
  have hnow : FixedPool { s with now } 0 := hp.of_view rfl rfl
  exact hstep.fixedPool hnow

end Poolifier
