import Poolifier.Effects
import Poolifier.Stealing
/-!
# Soft kills

A dynamic worker asks to be killed, the pool looks whether the worker is idle
and sends it the kill message, the worker answers, and the pool terminates it.
Its node stays in `workerNodes` until the exit, like any other: what keeps it
idle is that nobody gives it a task. A call of `execute` may choose it, the node
may steal a task for itself while its polling loop goes on, and back pressure
elsewhere may push tasks to it.
-/

namespace Poolifier

open EffLib Relation RunLib WorkerNode

variable {Data Response : Type}

/-! ## Doomed nodes -/

/-- The pool has decided to destroy the worker, or has terminated it. -/
def WorkerNode.Doomed (n : WorkerNode Data) : Prop := n.destroying.isSome = true ∨ n.terminated = true

instance (n : WorkerNode Data) : Decidable n.Doomed := inferInstanceAs (Decidable (_ ∨ _))

/-- No task waits for the worker, and none is in flight on it. -/
def WorkerNode.Drained (n : WorkerNode Data) : Prop := n.tasksQueue = [] ∧ n.worker.unanswered = []

instance (n : WorkerNode Data) : Decidable n.Drained := inferInstanceAs (Decidable (_ ∧ _))

/-- From `n` to `n'` a doomed node gets no task, and a node that is doomed now is drained. -/
structure Passes (n n' : WorkerNode Data) : Prop where
  id : n'.info.id = n.info.id
  size : n'.tasksQueueBackPressureSize = n.tasksQueueBackPressureSize
  polling : (n.polling = true → 0 < n.onEmptyQueueCount) → n'.polling = true → 0 < n'.onEmptyQueueCount
  doomed : n.Doomed → n'.Doomed ∧ n'.worker.received = n.worker.received
  drained : (n.Doomed → n.Drained) → n'.Doomed → n'.Drained

theorem Passes.refl (n : WorkerNode Data) : Passes n n := ⟨rfl, rfl, fun h => h, fun h => ⟨h, rfl⟩, fun h => h⟩

theorem Passes.trans {n n' n'' : WorkerNode Data} (h : Passes n n') (h' : Passes n' n'') : Passes n n'' where
  id := h'.id.trans h.id
  size := h'.size.trans h.size
  polling hp := h'.polling (h.polling hp)
  doomed hd := by
    obtain ⟨hd', hr⟩ := h.doomed hd
    obtain ⟨hd'', hr'⟩ := h'.doomed hd'
    exact ⟨hd'', hr'.trans hr⟩
  drained hn := h'.drained (h.drained hn)

theorem doomed_of_sameSetup {n n' : WorkerNode Data} (h : SameSetup n n') : n'.Doomed ↔ n.Doomed := by
  unfold WorkerNode.Doomed
  rw [h.destroying, h.terminated]

/-- A node whose setup stays passes, if its tasks stay too where it is doomed. -/
theorem WorkerNode.SameSetup.passes {n n' : WorkerNode Data} (h : SameSetup n n')
    (hd : n.Doomed → n'.tasksQueue = n.tasksQueue ∧ n'.worker = n.worker) : Passes n n' where
  id := by rw [h.info]
  size := h.tasksQueueBackPressureSize
  polling := h.polling
  doomed hn := by
    refine ⟨(doomed_of_sameSetup h).2 hn, ?_⟩
    rw [(hd hn).2]
  drained hn hn' := by
    have hdoomed := (doomed_of_sameSetup h).1 hn'
    obtain ⟨hqueue, hflight⟩ := hn hdoomed
    obtain ⟨hq, hw⟩ := hd hdoomed
    constructor
    · rw [hq]
      exact hqueue
    · rw [hw]
      exact hflight

/-- Code that leaves the worker, the queue and the destruction of a node alone. -/
theorem Passes.of_same {n n' : WorkerNode Data} (hid : n'.info.id = n.info.id)
    (hsize : n'.tasksQueueBackPressureSize = n.tasksQueueBackPressureSize) (hpolling : n'.polling = n.polling)
    (hcount : n'.onEmptyQueueCount = n.onEmptyQueueCount) (hwork : n'.work = n.work)
    (hdestroying : n'.destroying = n.destroying) (hterminated : n'.terminated = n.terminated) : Passes n n' where
  id := hid
  size := hsize
  polling hp := by
    rw [hpolling, hcount]
    exact hp
  doomed hn := by
    have hw : n'.worker = n.worker := congrArg Prod.fst hwork
    rw [hw]
    unfold WorkerNode.Doomed at *
    rw [hdestroying, hterminated]
    exact ⟨hn, rfl⟩
  drained hn hn' := by
    have hw : n'.worker = n.worker := congrArg Prod.fst hwork
    have hq : n'.tasksQueue = n.tasksQueue := congrArg Prod.snd hwork
    unfold WorkerNode.Doomed WorkerNode.Drained at *
    rw [hdestroying, hterminated] at hn'
    rw [hw, hq]
    exact hn hn'

/-! ## Pools with doomed nodes -/

/-- What a node that has left keeps. -/
def WorkerNode.remains (n : WorkerNode Data) : (Worker Data × List (Task Data)) × Option DestroyReason × Bool :=
  (n.work, n.destroying, n.terminated)

/-- Every node passes, and no node comes or goes. -/
structure AllPass (s s' : Pool Data Response) : Prop where
  nextWorkerId : s'.nextWorkerId = s.nextWorkerId
  opts : s'.opts = s.opts
  removedNodes : s'.removedNodes.map remains = s.removedNodes.map remains
  length : s'.workerNodes.length = s.workerNodes.length
  node : ∀ (i : Nat) n n', s.workerNodes[i]? = some n → s'.workerNodes[i]? = some n' → Passes n n'

section AllPass
variable {s s' s'' : Pool Data Response} {k d : Nat}

theorem AllPass.same (hnext : s'.nextWorkerId = s.nextWorkerId) (hopts : s'.opts = s.opts)
    (hremoved : s'.removedNodes = s.removedNodes) (hnodes : s'.workerNodes = s.workerNodes) : AllPass s s' where
  nextWorkerId := hnext
  opts := hopts
  removedNodes := by rw [hremoved]
  length := by rw [hnodes]
  node i n n' hn hn' := by
    rw [hnodes, hn] at hn'
    cases hn'
    exact .refl n

theorem AllPass.refl (s : Pool Data Response) : AllPass s s := .same rfl rfl rfl rfl

theorem AllPass.trans (h : AllPass s s') (h' : AllPass s' s'') : AllPass s s'' where
  nextWorkerId := h'.nextWorkerId.trans h.nextWorkerId
  opts := h'.opts.trans h.opts
  removedNodes := h'.removedNodes.trans h.removedNodes
  length := h'.length.trans h.length
  node i n n'' hn hn'' := by
    obtain ⟨n', hn'⟩ := Pool.node_of_length h.length hn
    exact (h.node i n n' hn hn').trans (h'.node i n' n'' hn' hn'')

theorem AllPass.modifyNode (s : Pool Data Response) (k : Nat) {f : WorkerNode Data → WorkerNode Data}
    (hf : ∀ n, s.workerNodes[k]? = some n → Passes n (f n)) : AllPass s (s.modifyNode k f) where
  nextWorkerId := rfl
  opts := rfl
  removedNodes := rfl
  length := s.length_modifyNode k f
  node i n n' hn hn' := by
    obtain ⟨a, ha, rfl⟩ := Pool.node_of_modifyNode hn'
    rw [hn] at ha
    cases ha
    by_cases hi : k = i
    · subst hi
      rw [if_pos rfl]
      exact hf n hn
    · rw [if_neg hi]
      exact .refl n

theorem Frame.allPass (h : Frame s s') (hd : ∀ (i : Nat) n n', s.workerNodes[i]? = some n → s'.workerNodes[i]? = some n' →
    n.Doomed → n'.tasksQueue = n.tasksQueue ∧ n'.worker = n.worker) : AllPass s s' where
  nextWorkerId := by rw [h.rest]
  opts := by rw [h.rest]
  removedNodes := by rw [h.rest]
  length := h.length
  node i n n' hn hn' := (h.setup i n n' hn hn').passes (hd i n n' hn hn')

/-- Serving a node that is not doomed leaves the doomed ones alone, which have an empty queue. -/
theorem Serves.allPass (h : Serves k d s s') (hk : ∀ n, s.workerNodes[k]? = some n → ¬ n.Doomed)
    (hd : ∀ n ∈ s.workerNodes, n.Doomed → n.Drained) : AllPass s s' := by
  refine h.frame.allPass fun i n n' hn hn' hdoomed => ?_
  have hik : i ≠ k := by
    intro hik
    subst hik
    exact hk n hn hdoomed
  rw [h.idle i n hik hn (hd n (List.mem_of_getElem? hn) hdoomed).1] at hn'
  cases hn'
  exact ⟨rfl, rfl⟩

theorem AllPass.swallowed (h : AllPass s s') (m : Nat) : AllPass s { s' with errorsCaught := m } :=
  ⟨h.nextWorkerId, h.opts, h.removedNodes, h.length, h.node⟩

end AllPass

/-- Worker ids are unique, the nodes have the queue size of the options, a polling loop has counted a round,
and doomed nodes are drained. -/
structure Orderly (s : Pool Data Response) : Prop where
  ids : (s.workerNodes.map (·.info.id)).Nodup
  idsBelow : ∀ n ∈ s.workerNodes, n.info.id < s.nextWorkerId
  size : ∀ n ∈ s.workerNodes, ∀ z, s.queueSize = some z → n.tasksQueueBackPressureSize = some z
  polling : ∀ n ∈ s.workerNodes, n.polling = true → 0 < n.onEmptyQueueCount
  drained : ∀ n ∈ s.workerNodes ++ s.removedNodes, n.Doomed → n.Drained

section Orderly
variable {s s' : Pool Data Response}

theorem Orderly.synced (h : Orderly s) : Synced s := ⟨h.ids, h.size⟩

theorem Orderly.drained_node (h : Orderly s) {n : WorkerNode Data} (hn : n ∈ s.workerNodes) (hd : n.Doomed) : n.Drained :=
  h.drained n (List.mem_append_left _ hn) hd

/-- Worker ids are unique, so what holds of a node of a worker holds of the one at its key. -/
theorem Orderly.node_of_nodeOf (h : Orderly s) {w : Nat} {n : WorkerNode Data} {P : WorkerNode Data → Prop}
    (hn : s.workerNodes[s.getWorkerNodeKeyByWorkerId w]? = some n) (hP : NodeOf s w P) : P n := by
  rcases hP with ⟨a, ha, hid, hPa⟩ | ⟨hnone, -⟩
  · have hat := Pool.node_of_key h.ids ha
    rw [hid, hn] at hat
    cases hat
    exact hPa
  · exact absurd (Pool.id_of_key hn) (hnone n (List.mem_of_getElem? hn))

theorem NewNode.not_doomed {n : WorkerNode Data} (h : NewNode s n) : ¬ n.Doomed := by
  unfold WorkerNode.Doomed
  rw [h.destroying, h.terminated]
  rintro (h | h) <;> cases h

theorem orderly_of_fresh (h : Fresh s) : Orderly s where
  ids := h.ids
  idsBelow := h.idsBelow
  size n hn := (h.nodes n hn).size
  polling n hn hp := by
    rw [(h.nodes n hn).polling] at hp
    cases hp
  drained n hn hd := by
    rw [h.removedNodes, List.append_nil] at hn
    exact absurd hd (h.nodes n hn).not_doomed

theorem AllPass.back (h : AllPass s s') {n' : WorkerNode Data} (hn' : n' ∈ s'.workerNodes) :
    ∃ n ∈ s.workerNodes, Passes n n' := by
  obtain ⟨i, hi⟩ := List.mem_iff_getElem?.1 hn'
  obtain ⟨n, hn⟩ := Pool.node_of_length h.length.symm hi
  exact ⟨n, List.mem_of_getElem? hn, h.node i n n' hn hi⟩

theorem AllPass.ids (h : AllPass s s') : s'.workerNodes.map (·.info.id) = s.workerNodes.map (·.info.id) := by
  apply List.ext_getElem?
  intro i
  rw [List.getElem?_map, List.getElem?_map]
  rcases hn : s.workerNodes[i]? with _ | n
  · have hnone : s'.workerNodes[i]? = none := by
      rw [List.getElem?_eq_none_iff, h.length]
      exact List.getElem?_eq_none_iff.1 hn
    rw [hnone]
  · obtain ⟨n', hn'⟩ := Pool.node_of_length h.length hn
    rw [hn', Option.map_some, Option.map_some, (h.node i n n' hn hn').id]

theorem Orderly.allPass (ho : Orderly s) (h : AllPass s s') : Orderly s' where
  ids := by
    rw [h.ids]
    exact ho.ids
  idsBelow n' hn' := by
    obtain ⟨n, hn, hp⟩ := h.back hn'
    rw [hp.id, h.nextWorkerId]
    exact ho.idsBelow n hn
  size n' hn' z hz := by
    obtain ⟨n, hn, hp⟩ := h.back hn'
    rw [hp.size]
    unfold Pool.queueSize at hz
    rw [h.opts] at hz
    exact ho.size n hn z hz
  polling n' hn' := by
    obtain ⟨n, hn, hp⟩ := h.back hn'
    exact hp.polling (ho.polling n hn)
  drained n' hn' := by
    rcases List.mem_append.1 hn' with hn' | hn'
    · obtain ⟨n, hn, hp⟩ := h.back hn'
      exact hp.drained (ho.drained_node hn)
    · -- a node that has left keeps what it had
      have hmem : n'.remains ∈ s'.removedNodes.map remains := List.mem_map_of_mem hn'
      rw [h.removedNodes] at hmem
      obtain ⟨n, hn, heq⟩ := List.mem_map.1 hmem
      have hw : n.worker = n'.worker := congrArg (·.1.1) heq
      have hq : n.tasksQueue = n'.tasksQueue := congrArg (·.1.2) heq
      have hdestroying : n.destroying = n'.destroying := congrArg (·.2.1) heq
      have hterminated : n.terminated = n'.terminated := congrArg (·.2.2) heq
      have hdrained := ho.drained n (List.mem_append_right _ hn)
      unfold WorkerNode.Doomed WorkerNode.Drained at *
      rw [hdestroying, hterminated, hw, hq] at hdrained
      exact hdrained

theorem Orderly.grown (ho : Orderly s) (h : Grown s s') : Orderly s' := by
  obtain ⟨new, hnodes, -, -, hnew⟩ := h.nodes
  obtain ⟨hids, hbelow⟩ := h.ids ho.ids ho.idsBelow
  have hmem {n : WorkerNode Data} (hn : n ∈ s'.workerNodes) : n ∈ s.workerNodes ∨ NewNode s n := by
    rw [hnodes, List.mem_append] at hn
    exact hn.imp_right (hnew n)
  refine ⟨hids, hbelow, fun n hn z hz => ?_, fun n hn hp => ?_, fun n hn hd => ?_⟩
  · have hz' : s.queueSize = some z := by
      unfold Pool.queueSize at hz ⊢
      rwa [h.opts] at hz
    rcases hmem hn with hn | hn
    · exact ho.size n hn z hz'
    · exact hn.size z hz'
  · rcases hmem hn with hn | hn
    · exact ho.polling n hn hp
    · rw [hn.polling] at hp
      cases hp
  · rcases List.mem_append.1 hn with hn | hn
    · rcases hmem hn with hn | hn
      · exact ho.drained_node hn hd
      · exact absurd hd hn.not_doomed
    · rw [h.rest] at hn
      exact ho.drained n (List.mem_append_right _ hn) hd

theorem Orderly.removeNode (ho : Orderly s) {k : Nat} {n : WorkerNode Data} (hn : s.workerNodes[k]? = some n) :
    Orderly (s.removeNode k n) := by
  have hsub : (s.workerNodes.eraseIdx k).Sublist s.workerNodes := List.eraseIdx_sublist _ _
  refine ⟨ho.ids.sublist (hsub.map _), fun a ha => ho.idsBelow a (hsub.subset ha), fun a ha => ho.size a (hsub.subset ha),
    fun a ha => ho.polling a (hsub.subset ha), fun a ha => ?_⟩
  apply ho.drained a
  rcases List.mem_append.1 ha with ha | ha
  · exact List.mem_append_left _ (hsub.subset ha)
  · rcases List.mem_append.1 ha with ha | ha
    · exact List.mem_append_right _ ha
    · rw [List.mem_singleton] at ha
      subst ha
      exact List.mem_append_left _ (List.mem_of_getElem? hn)

end Orderly

/-! ## Chains -/

/-- From one pool to another nodes pass, come and leave. -/
def Handled (s s' : Pool Data Response) : Prop :=
  ReflTransGen (fun a b => AllPass a b ∨ Grown a b ∨ ∃ k n, a.workerNodes[k]? = some n ∧ b = a.removeNode k n) s s'

section Handled
variable {s s' : Pool Data Response}

theorem Handled.trans {s'' : Pool Data Response} (h : Handled s s') (h' : Handled s' s'') : Handled s s'' :=
  ReflTransGen.trans h h'

theorem AllPass.handled (h : AllPass s s') : Handled s s' := .single (.inl h)

theorem Handled.orderly (h : Handled s s') (ho : Orderly s) : Orderly s' := by
  refine RunLib.inv_of_chain (fun a b hstep ha => ?_) h ho
  rcases hstep with hp | hg | ⟨k, n, hn, rfl⟩
  · exact ha.allPass hp
  · exact ha.grown hg
  · exact ha.removeNode hn

/-- While a doomed node is in the pool, its worker is sent nothing. -/
theorem Handled.received (h : Handled s s') (ho : Orderly s) {n : WorkerNode Data} (hn : n ∈ s.workerNodes)
    (hd : n.Doomed) : ∀ n' ∈ s'.workerNodes, n'.info.id = n.info.id → n'.Doomed ∧ n'.worker.received = n.worker.received := by
  let I (p : Pool Data Response) : Prop := Orderly p ∧ n.info.id < p.nextWorkerId ∧
    ∀ n' ∈ p.workerNodes, n'.info.id = n.info.id → n'.Doomed ∧ n'.worker.received = n.worker.received
  have h₀ : I s := by
    refine ⟨ho, ho.idsBelow n hn, fun n' hn' hid => ?_⟩
    have heq : n' = n := by
      have h₁ := Pool.node_of_key ho.ids hn'
      have h₂ := Pool.node_of_key ho.ids hn
      rw [hid, h₂] at h₁
      exact (Option.some.inj h₁).symm
    rw [heq]
    exact ⟨hd, rfl⟩
  refine (RunLib.inv_of_chain (I := I) (fun a b hstep ha => ?_) h h₀).2.2
  obtain ⟨hoa, hbelow, hnode⟩ := ha
  rcases hstep with hp | hg | ⟨k, m, hm, rfl⟩
  · refine ⟨hoa.allPass hp, by rwa [hp.nextWorkerId], fun n' hn' hid => ?_⟩
    obtain ⟨m, hm, hpass⟩ := hp.back hn'
    obtain ⟨hdm, hrm⟩ := hnode m hm (hpass.id.symm.trans hid)
    obtain ⟨hdn, hrn⟩ := hpass.doomed hdm
    exact ⟨hdn, hrn.trans hrm⟩
  · obtain ⟨new, hnodes, hnext, hids, -⟩ := hg.nodes
    refine ⟨hoa.grown hg, by omega, fun n' hn' hid => ?_⟩
    rw [hnodes, List.mem_append] at hn'
    rcases hn' with hn' | hn'
    · exact hnode n' hn' hid
    · -- a new worker has an id of its own
      have hmem : n'.info.id ∈ new.map (·.info.id) := List.mem_map_of_mem hn'
      rw [hids, List.mem_range'_1] at hmem
      omega
  · exact ⟨hoa.removeNode hm, hbelow, fun n' hn' hid => hnode n' (List.mem_of_mem_eraseIdx hn') hid⟩

end Handled

/-! ## Dispatching a task -/

/-- Whether one more task in its queue makes the node call for help. -/
def WorkerNode.asksForHelp (n : WorkerNode Data) : Bool :=
  n.onBackPressure && n.tasksQueueBackPressureSize.any (· ≤ n.tasksQueue.length + 1) && !n.onBackPressureStarted

section Dispatch
variable {s : Pool Data Response} {k fuel : Nat} {n : WorkerNode Data} {t : Task Data}

/-- A task that is sent changes a node that is not doomed. -/
theorem executeTask_allPass (hn : s.workerNodes[k]? = some n) (hnot : ¬ n.Doomed) :
    wp (executeTask k t) (fun _ => AllPass s) (fun _ => AllPass s) s := by
  have hpass {f : WorkerNode Data → WorkerNode Data} (hf : ∀ m, SameSetup m (f m)) : AllPass s (s.modifyNode k f) := by
    refine .modifyNode s k fun m hm => (hf m).passes fun hd => ?_
    rw [hn] at hm
    cases hm
    exact absurd hd hnot
  rcases hsend : s.canSend n t with _ | _
  · exact wp_executeTask_throws hn hsend fun e => hpass fun m => sameSetup_beforeTaskExecution _ _ _ m
  · rw [wp_executeTask hn hsend]
    exact hpass fun m => (sameSetup_beforeTaskExecution _ _ _ m).trans (sameSetup_receive _ _)

/-- Help moves tasks to any node; it is not asked for, or there is no doomed node. -/
theorem enqueueTask_allPass (hn : s.workerNodes[k]? = some n) (hnot : ¬ n.Doomed) (hshall : s.shallExecute n = false)
    (hhelp : n.asksForHelp = true → ∀ a ∈ s.workerNodes, ¬ a.Doomed) :
    wp (enqueueTask (callbacks fuel) k t) (fun _ => AllPass s) (fun _ => AllPass s) s := by
  rcases hask : n.asksForHelp with _ | _
  · have hn' := Pool.getElem?_modifyNode_self (fun m => { m with tasksQueue := m.tasksQueue ++ [t] }) hn
    simp only [enqueueTask, wp_bind, wp_nodeAt hn, wp_modifyNode, wp_nodeAt hn']
    have hpush : AllPass s (s.modifyNode k fun m => { m with tasksQueue := m.tasksQueue ++ [t] }) := by
      refine .modifyNode s k fun m hm => (sameSetup_of_queue m _).passes fun hd => ?_
      rw [hn] at hm
      cases hm
      exact absurd hd hnot
    split
    · rename_i hc
      unfold WorkerNode.asksForHelp at hask
      simp only [hasBackPressure, List.length_append, List.length_singleton] at hc
      rw [hask] at hc
      cases hc
    · exact (wp_pure ()).2 hpush
  · have hnone := hhelp hask
    have hmoves := enqueueTask_moves (g := False) (callbacks_move fuel) (Reached.refl s {t}) (h := 0) hn hshall
    have hpass {s' : Pool Data Response} (hf : Frame s s') : AllPass s s' :=
      hf.allPass fun i a a' ha _ hd => absurd hd (hnone a (List.mem_of_getElem? ha))
    refine wp_mono hmoves (fun _ _ hr => hpass hr.frame) fun _ _ hf => ?_
    obtain ⟨-, lost, hr⟩ := hf
    exact hpass hr.frame

theorem dispatchTask_allPass (ho : Orderly s) (hn : s.workerNodes[k]? = some n) (hnot : ¬ n.Doomed)
    (hhelp : n.tasksQueue ≠ [] → n.asksForHelp = true → ∀ a ∈ s.workerNodes, ¬ a.Doomed) :
    wp (dispatchTask (callbacks fuel) k t) (fun _ => AllPass s) (fun _ => AllPass s) s := by
  have hk : ∀ a, s.workerNodes[k]? = some a → ¬ a.Doomed := by
    intro a ha
    rw [hn] at ha
    cases ha
    exact hnot
  simp only [dispatchTask, wp_bind, wp_get]
  split
  · by_cases hq : n.tasksQueue = []
    · refine wp_mono (executeOrEnqueueTask_serves (callbacks_quiet fuel) ho.synced hn hq) (fun _ _ h => ?_) fun _ _ h => ?_
      · exact h.allPass hk fun a => ho.drained_node
      · exact h.allPass hk fun a => ho.drained_node
    · have hshall : s.shallExecute n = false := by simp [Pool.shallExecute, hq]
      simp only [executeOrEnqueueTask, wp_bind, wp_shallExecuteTask hn, hshall, Bool.false_eq_true, if_false]
      exact enqueueTask_allPass hn hnot hshall (hhelp hq)
  · exact executeTask_allPass hn hnot

/-- The node that takes its next task has a queue, so it is not doomed. -/
theorem executeNextTask_allPass (ho : Orderly s) :
    wp (executeNextTask (callbacks fuel) k) (fun _ => AllPass s) (fun _ => AllPass s) s := by
  simp only [executeNextTask, wp_bind, wp_get]
  split
  · rcases hn : s.workerNodes[k]? with _ | n
    · simp only [wp_bind, wp_nodeAt_none hn]
      exact .refl s
    · simp only [wp_bind, wp_nodeAt hn]
      split
      · rename_i hc
        simp only [Bool.and_eq_true, decide_eq_true_eq, gt_iff_lt, List.length_pos_iff] at hc
        obtain ⟨t, q, hcons⟩ := List.exists_cons_of_ne_nil hc.1
        have hnot : ¬ n.Doomed := fun hd => hc.1 (ho.drained_node (List.mem_of_getElem? hn) hd).1
        simp only [dequeueThen, wp_bind]
        refine wp_mono (dequeueTask_serves (callbacks_quiet fuel) ho.synced hn hcons) (fun r s₁ h => ?_) fun _ _ h => h.elim
        obtain ⟨rfl, hserve⟩ := h
        have hpass : AllPass s s₁ := by
          refine hserve.allPass (fun a ha => ?_) fun a => ho.drained_node
          rw [hn] at ha
          cases ha
          exact hnot
        obtain ⟨n₁, hn₁⟩ := Pool.node_of_length hpass.length hn
        have hnot₁ : ¬ n₁.Doomed := fun hd => hnot ((doomed_of_sameSetup (hserve.frame.setup k n n₁ hn hn₁)).1 hd)
        exact wp_mono (executeTask_allPass hn₁ hnot₁) (fun _ _ h => hpass.trans h) fun _ _ h => hpass.trans h
      · exact (wp_pure ()).2 (.refl s)
  · exact (wp_pure ()).2 (.refl s)

end Dispatch

/-! ## Handling an event -/

section Handlers
variable {s : Pool Data Response} {k w fuel : Nat} {n : WorkerNode Data}

theorem passes_answer (taskId : Nat) (n : WorkerNode Data) : Passes n (n.answer taskId) where
  id := rfl
  size := rfl
  polling hp := hp
  doomed hd := ⟨hd, rfl⟩
  drained hn hd := by
    obtain ⟨hqueue, hflight⟩ := hn hd
    refine ⟨hqueue, ?_⟩
    unfold WorkerNode.answer
    rw [hflight]
    rfl

theorem passes_afterTaskExecution (requirements : TaskStatisticsRequirements) (m : TaskResponse Response)
    (n : WorkerNode Data) : Passes n (n.afterTaskExecution requirements m) := by
  obtain ⟨u, hu⟩ := afterTaskExecution_eq requirements m n
  rw [hu]
  exact .of_same rfl rfl rfl rfl rfl rfl rfl

theorem allPass_settle (s : Pool Data Response) (taskId : Nat) (x : Settlement Response) : AllPass s (s.settle taskId x) := by
  rw [Pool.settle_rest]
  exact .same rfl rfl rfl rfl

theorem allPass_answered (s : Pool Data Response) (m : TaskResponse Response) (k : Nat) : AllPass s (s.answered m k) := by
  have hafter : AllPass (s.settle m.taskId m.settlement) (s.answered m k) := by
    have h := AllPass.modifyNode (s.settle m.taskId m.settlement) k
      (fun a _ => passes_afterTaskExecution s.taskStatisticsRequirements m a)
    exact ⟨h.nextWorkerId, h.opts, h.removedNodes, h.length, h.node⟩
  exact (allPass_settle s _ _).trans hafter

theorem taskResponse_allPass (ho : Orderly s) (m : TaskResponse Response) :
    wp (handleTaskExecutionResponse (callbacks fuel) m) (fun _ => AllPass s) (fun _ => AllPass s) s := by
  rcases hl : s.promiseResponseMap.lookup m.taskId with _ | k
  · rw [wp_response_unknown hl]
    exact .refl s
  · rcases hk : s.workerNodes[k]? with _ | a
    · rw [wp_response_dangling hl hk]
      exact allPass_settle s _ _
    · rw [wp_response hl hk]
      have hanswered := allPass_answered s m k
      refine wp_mono (executeNextTask_allPass (ho.allPass hanswered)) (fun _ _ h => ?_) fun _ _ h => ?_
      · exact hanswered.trans h
      · exact hanswered.trans h

/-- A drained node that is to be destroyed has nothing to flush. -/
theorem destroyWorkerNodeCaught_allPass (hn : s.workerNodes[k]? = some n) (hdrained : n.Drained) (reason : DestroyReason) :
    wp (destroyWorkerNodeCaught (callbacks fuel) fuel k reason) (fun _ => AllPass s) (fun _ => AllPass s) s := by
  let flushed (m : WorkerNode Data) : WorkerNode Data := { m with tasksQueue := [] }
  have hflushed : AllPass s (s.modifyNode k flushed) := by
    refine .modifyNode s k fun m hm => ?_
    rw [hn] at hm
    cases hm
    exact .of_same rfl rfl rfl rfl (by unfold WorkerNode.work; rw [hdrained.1]) rfl rfl
  have hn' : (s.modifyNode k flushed).workerNodes[k]? = some (flushed n) := Pool.getElem?_modifyNode_self flushed hn
  cases fuel with
  | zero =>
    simp only [destroyWorkerNodeCaught, wp_swallow, destroyWorkerNode, flushTasksQueue, wp_bind, Eff.whileDo]
    exact wp_diverge
  | succ fuel =>
    simp only [destroyWorkerNodeCaught, wp_swallow, destroyWorkerNode, flushTasksQueue, wp_bind, Eff.whileDo,
      tasksQueueNotEmpty, wp_nodeAt hn, wp_pure, hdrained.1, List.length_nil, gt_iff_lt, lt_self_iff_false, decide_false,
      Bool.false_eq_true, if_false, wp_modifyNode]
    show wp (nodeAt k) _ _ (s.modifyNode k flushed)
    rw [wp_nodeAt hn']
    split
    · rw [wp_modifyNode]
      refine hflushed.trans (.modifyNode _ k fun m hm => ?_)
      rw [hn'] at hm
      cases hm
      exact ⟨rfl, rfl, id, fun _ => ⟨.inl (by simp), rfl⟩, fun _ _ => ⟨rfl, hdrained.2⟩⟩
    · rw [wp_throw]
      exact hflushed.swallowed _

/-- What the pool tests before it grants a soft kill. -/
def Pool.grantsSoftKill (p : Pool Data Response) (n : WorkerNode Data) : Bool :=
  n.usage.tasks.executing = 0 && (!p.opts.enableTasksQueue || n.tasksQueue.length = 0)

theorem softKill_allPass (hn : s.workerNodes[k]? = some n) (hgrant : s.grantsSoftKill n = true → n.Drained) :
    wp (handleKillRequest (callbacks fuel) fuel k .soft) (fun _ => AllPass s) (fun _ => AllPass s) s := by
  simp only [handleKillRequest, wp_bind, wp_nodeAt hn, wp_get]
  split
  · rename_i hc
    exact destroyWorkerNodeCaught_allPass hn (hgrant hc) .softKill
  · exact (wp_pure ()).2 (.refl s)

/-! ## Polling ticks -/

theorem emptyQueueStealSource_none (h : s.stealable w = false) : emptyQueueStealSource s w = none := by
  have hsome := emptyQueueStealSource_isSome s w
  rw [h, Option.isSome_eq_false_iff, Option.isNone_iff_eq_none] at hsome
  exact hsome

theorem wp_onEmptyQueue {Q : Unit → Pool Data Response → Prop} {E : JsError → Pool Data Response → Prop}
    (h : ∀ fuel, wp (taskStealingOnEmptyQueue (callbacks fuel) w) Q E s) :
    wp ((callbacks fuel : Callbacks Data Response).onEmptyQueue w) Q E s := by
  cases fuel with
  | zero => exact wp_diverge
  | succ fuel => exact h fuel

theorem onEmptyQueue_nothing (h : s.stealable w = false) :
    wp ((callbacks fuel : Callbacks Data Response).onEmptyQueue w) (fun _ s' => s' = s) (fun _ s' => s' = s) s := by
  refine wp_onEmptyQueue fun fuel => ?_
  simp only [taskStealingOnEmptyQueue, wp_bind, wp_get, emptyQueueStealSource_none h, wp_pure]

/-- The loop of a node that has left takes a task from a queue, for a key that is out of range. -/
theorem onEmptyQueue_unknown (ho : Orderly s) (hk : ¬ s.getWorkerNodeKeyByWorkerId w < s.workerNodes.length) :
    wp ((callbacks fuel : Callbacks Data Response).onEmptyQueue w) (fun _ => AllPass s) (fun _ => AllPass s) s := by
  refine wp_onEmptyQueue fun fuel => ?_
  simp only [taskStealingOnEmptyQueue, wp_bind, wp_get]
  rcases hs : emptyQueueStealSource s w with _ | ⟨a, source⟩
  · exact (wp_pure ()).2 (.refl s)
  · obtain ⟨ha, -, -, hne⟩ := emptyQueueStealSource_some hs
    have hlast := (List.dropLast_append_getLast hne).symm
    simp only [wp_bind]
    refine wp_mono (popTask_serves (callbacks_quiet fuel) ho.synced ha hlast) (fun r s' h => ?_) fun _ _ h => h.elim
    obtain ⟨rfl, d, hserve⟩ := h
    have hpass : AllPass s s' := by
      refine hserve.allPass (fun b hb hd => ?_) fun b => ho.drained_node
      rw [ha] at hb
      cases hb
      exact hne (ho.drained_node (List.mem_of_getElem? ha) hd).1
    have hnone : s'.workerNodes[s.getWorkerNodeKeyByWorkerId w]? = none := by
      rw [List.getElem?_eq_none_iff, hpass.length]
      exact not_lt.1 hk
    simp only [dispatchStolenTask, executeOrEnqueueTask, shallExecuteTask, wp_bind, wp_nodeAt_none hnone]
    exact hpass

/-- A steal serves an idle node that is not doomed, and a doomed one finds nothing. -/
theorem onEmptyQueue_allPass (fuel : Nat) (ho : Orderly s) (hn : s.workerNodes[k]? = some n) (hq : n.tasksQueue = [])
    (hidle : n.Doomed → s.stealable n.info.id = false) :
    wp ((callbacks fuel : Callbacks Data Response).onEmptyQueue n.info.id) (fun _ => AllPass s) (fun _ => AllPass s) s := by
  by_cases hd : n.Doomed
  · refine wp_mono (onEmptyQueue_nothing (hidle hd)) (fun _ s' h => ?_) fun _ s' h => ?_
    · rw [h]
      exact .refl s
    · rw [h]
      exact .refl s
  · have hpass {d : Nat} {s' : Pool Data Response} (h : Serves k d s s') : AllPass s s' := by
      refine h.allPass (fun a ha => ?_) fun a => ho.drained_node
      rw [hn] at ha
      cases ha
      exact hd
    exact wp_mono ((callbacks_quiet fuel).onEmptyQueue ho.synced hn hq) (fun _ _ h => hpass h) fun _ _ h => hpass h

theorem allPass_polling (s : Pool Data Response) (k : Nat) {f : WorkerNode Data → WorkerNode Data}
    (hf : ∀ m, SameSetup m (f m) ∧ (f m).tasksQueue = m.tasksQueue ∧ (f m).worker = m.worker) :
    AllPass s (s.modifyNode k f) :=
  .modifyNode s k fun m _ => (hf m).1.passes fun _ => (hf m).2

/-- A loop that goes on has counted a round, so it steals only for an idle node. -/
theorem startOnEmptyQueueCaught_allPass (ho : Orderly s) (hn : s.workerNodes[k]? = some n) (hp : n.polling = true)
    (hidle : n.Doomed → n.onEmptyQueue = true → n.usage.tasks.executing = 0 → s.stealable n.info.id = false) :
    wp (startOnEmptyQueueCaught (callbacks fuel) k) (fun _ => AllPass s) (fun _ => AllPass s) s := by
  have hcount := ho.polling n (List.mem_of_getElem? hn) hp
  let bump (m : WorkerNode Data) : WorkerNode Data :=
    { m with onEmptyQueueCount := m.onEmptyQueueCount + 1, polling := true }
  have hbump : AllPass s (s.modifyNode k bump) :=
    allPass_polling s k fun m => ⟨⟨rfl, rfl, rfl, rfl, rfl, rfl, rfl, fun _ _ => Nat.succ_pos _⟩, rfl, rfl⟩
  have hn' : (s.modifyNode k bump).workerNodes[k]? = some (bump n) := Pool.getElem?_modifyNode_self bump hn
  rw [startOnEmptyQueueCaught, wp_swallow]
  simp only [startOnEmptyQueue, wp_bind, wp_nodeAt hn]
  split
  · rw [wp_modifyNode]
    exact allPass_polling s k fun m => ⟨⟨rfl, rfl, rfl, rfl, rfl, rfl, rfl, fun _ hp => by cases hp⟩, rfl, rfl⟩
  · rename_i hc
    have hrest : n.usage.tasks.executing = 0 ∧ n.tasksQueue = [] := by
      simp only [Bool.and_eq_true, Bool.or_eq_true, decide_eq_true_eq, gt_iff_lt, List.length_pos_iff] at hc
      refine ⟨?_, ?_⟩
      · by_contra hne
        exact hc ⟨hcount, .inl (Nat.pos_of_ne_zero hne)⟩
      · by_contra hne
        exact hc ⟨hcount, .inr hne⟩
    simp only [wp_bind, wp_modifyNode]
    split
    · rename_i hon
      have hnothing (hd : n.Doomed) : (s.modifyNode k bump).stealable n.info.id = false := by
        rw [stealable_modifyNode (f := bump) fun m => ⟨rfl, rfl⟩]
        exact hidle hd hon hrest.1
      have hsteal := onEmptyQueue_allPass (n := bump n) fuel (ho.allPass hbump) hn' hrest.2 hnothing
      refine wp_mono hsteal (fun _ s' h => hbump.trans h) fun _ s' h => ?_
      -- the exception is caught, and ends the loop
      have hoff : AllPass s' (s'.modifyNode k fun m => { m with polling := false }) :=
        allPass_polling s' k fun m => ⟨⟨rfl, rfl, rfl, rfl, rfl, rfl, rfl, fun _ hp => by cases hp⟩, rfl, rfl⟩
      exact ((hbump.trans h).trans hoff).swallowed _
    · exact (wp_pure ()).2 hbump

theorem allPass_modifyRemoved (s : Pool Data Response) (i : Nat) {f : WorkerNode Data → WorkerNode Data}
    (hf : ∀ m, (f m).remains = m.remains) : AllPass s { s with removedNodes := s.removedNodes.modify i f } where
  nextWorkerId := rfl
  opts := rfl
  removedNodes := map_modify_same fun m _ => hf m
  length := rfl
  node j n n' hn hn' := by
    have heq : some n = some n' := hn.symm.trans hn'
    cases heq
    exact .refl n

theorem removedNodeTick_allPass (ho : Orderly s) (i : Nat) (hk : ¬ s.getWorkerNodeKeyByWorkerId w < s.workerNodes.length) :
    wp (pollingTick.removedNodeTick (callbacks fuel) i w) (fun _ => AllPass s) (fun _ => AllPass s) s := by
  simp only [pollingTick.removedNodeTick, wp_bind, wp_get]
  split
  · exact (wp_pure ()).2 (.refl s)
  · split
    · exact (wp_modify _).2 (allPass_modifyRemoved s i fun m => rfl)
    · have hbump := allPass_modifyRemoved s i
        (f := fun m => { m with onEmptyQueueCount := m.onEmptyQueueCount + 1, polling := true }) fun m => rfl
      simp only [pollingTick.modifyRemoved, wp_bind, wp_modify]
      split
      · rw [wp_swallow]
        refine wp_mono (onEmptyQueue_unknown (ho.allPass hbump) hk) (fun _ _ h => hbump.trans h) fun _ s' h => ?_
        have hoff := allPass_modifyRemoved s' i (f := fun m => { m with polling := false }) fun m => rfl
        exact (hbump.trans (h.trans hoff)).swallowed _
      · exact (wp_pure ()).2 hbump

theorem pollingTick_allPass (ho : Orderly s) (hen : NodeOf s w fun n => n.polling = true)
    (hidle : ∀ n ∈ s.workerNodes[s.getWorkerNodeKeyByWorkerId w]?, n.Doomed → n.onEmptyQueue = true →
      n.usage.tasks.executing = 0 → s.stealable w = false) :
    wp (pollingTick (callbacks fuel) w) (fun _ => AllPass s) (fun _ => AllPass s) s := by
  by_cases hk : s.getWorkerNodeKeyByWorkerId w < s.workerNodes.length
  · simp only [pollingTick, wp_bind, wp_get, if_pos hk]
    obtain ⟨n, hn⟩ := Pool.node_of_lt hk
    have hid := Pool.id_of_key hn
    have hp : n.polling = true := ho.node_of_nodeOf hn hen
    refine startOnEmptyQueueCaught_allPass ho hn hp ?_
    rw [hid]
    exact hidle n hn
  · simp only [pollingTick, wp_bind, wp_get, if_neg hk]
    split
    · exact (wp_pure ()).2 (.refl s)
    · exact removedNodeTick_allPass ho _ hk

end Handlers

/-! ## Runs -/

/-- Calls, messages but for hard kills, polling ticks and exits. -/
def HandshakeEvent : Event Data Response → Prop
  | .execute .. | .poll _ | .exit _ => True
  | .message _ (.killRequest .hard) => False
  | .message .. => True
  | _ => False

instance : DecidablePred (HandshakeEvent : Event Data Response → Prop)
  | .execute .. | .poll _ | .exit _ | .message _ (.killRequest .soft) | .message _ (.ready ..) | .message _ (.taskResponse _)
  | .message _ (.taskFunctionNames _) | .message _ (.killAnswer _) => inferInstanceAs (Decidable True)
  | .message _ (.killRequest .hard) | .error _ | .start | .enableTasksQueue .. | .setTasksQueueOptions _ | .destroy
  | .destroyed => inferInstanceAs (Decidable False)

/-- No call chooses a doomed node or, while there is one, makes a node call for help; a soft kill that is granted
finds the node drained; a doomed node that polls finds no task to steal. -/
def SparesDoomed (s : Pool Data Response) : Event Data Response → Prop
  | .execute _ _ _ (.key k) => ∀ n ∈ s.workerNodes[k]?, ¬ n.Doomed ∧
      (n.tasksQueue ≠ [] → n.asksForHelp = true → ∀ a ∈ s.workerNodes, ¬ a.Doomed)
  | .message w (.killRequest .soft) => ∀ n ∈ s.workerNodes[s.getWorkerNodeKeyByWorkerId w]?,
      n.info.dynamic = true → s.grantsSoftKill n = true → n.Drained
  | .poll w => ∀ n ∈ s.workerNodes[s.getWorkerNodeKeyByWorkerId w]?, n.Doomed → n.onEmptyQueue = true →
      n.usage.tasks.executing = 0 → s.stealable w = false
  | _ => True

instance (s : Pool Data Response) : DecidablePred (SparesDoomed s)
  | .execute _ _ _ (.key k) => inferInstanceAs (Decidable (∀ n ∈ s.workerNodes[k]?, ¬ n.Doomed ∧
      (n.tasksQueue ≠ [] → n.asksForHelp = true → ∀ a ∈ s.workerNodes, ¬ a.Doomed)))
  | .message w (.killRequest .soft) => inferInstanceAs (Decidable (∀ n ∈ s.workerNodes[s.getWorkerNodeKeyByWorkerId w]?,
      n.info.dynamic = true → s.grantsSoftKill n = true → n.Drained))
  | .poll w => inferInstanceAs (Decidable (∀ n ∈ s.workerNodes[s.getWorkerNodeKeyByWorkerId w]?, n.Doomed →
      n.onEmptyQueue = true → n.usage.tasks.executing = 0 → s.stealable w = false))
  | .execute _ _ _ (.none _) | .message _ (.killRequest .hard) | .message _ (.ready ..) | .message _ (.taskResponse _)
  | .message _ (.taskFunctionNames _) | .message _ (.killAnswer _) | .exit _ | .error _ | .start | .enableTasksQueue ..
  | .setTasksQueueOptions _ | .destroy | .destroyed => inferInstanceAs (Decidable True)

section Runs
variable {s₀ s s' : Pool Data Response} {e : Event Data Response} {es : List (Event Data Response)}

/-- The node chosen is one of the pool's, or a new one, which has nothing to do. -/
theorem execute_handled (ho : Orderly s) (fuel taskId : Nat) (name : Option String) (data : Data) (choice : Choice)
    (hspares : SparesDoomed s (.execute taskId name data choice)) :
    wp (execute (callbacks fuel) taskId name data choice) (fun _ => Handled s) (fun _ => Handled s) s := by
  have hids : Handled s { s with uuids := taskId :: s.uuids } := by
    refine (AllPass.same ?_ ?_ ?_ ?_).handled <;> rfl
  refine wp_execute (fun x s₁ hg _ => ?_) fun k s₁ hg hkey _ _ _ => ?_
  · have hgrown : Handled s s₁ := hids.tail (.inr (.inl hg))
    exact hgrown.trans (allPass_settle s₁ _ _).handled
  · have hgrown : Handled s s₁ := hids.tail (.inr (.inl hg))
    have hcalled : Handled s (s₁.withPromise taskId k) := by
      refine hgrown.trans (AllPass.same ?_ ?_ ?_ ?_).handled <;> rfl
    have ho' := hcalled.orderly ho
    rcases hk : s₁.workerNodes[k]? with _ | n
    · rw [wp_dispatchTask_unknown (s := s₁.withPromise taskId k) hk]
      exact hcalled.trans (allPass_settle _ _ _).handled
    · obtain ⟨new, hnodes, -, -, hnew⟩ := hg.nodes
      have hnone : ∀ a ∈ new, ¬ a.Doomed := fun a ha => (hnew a ha).not_doomed
      have hspared : ¬ n.Doomed ∧ (n.tasksQueue ≠ [] → n.asksForHelp = true → ∀ a ∈ s₁.workerNodes, ¬ a.Doomed) := by
        have hmem := hk
        rw [hnodes, List.getElem?_append] at hmem
        split at hmem
        · rename_i hlt
          rcases hkey with rfl | ⟨rfl, -⟩
          · obtain ⟨hnot, hhelp⟩ := hspares n hmem
            refine ⟨hnot, fun hq hask a ha => ?_⟩
            rw [hnodes, List.mem_append] at ha
            exact ha.elim (hhelp hq hask a) (hnone a)
          · exact absurd hlt (lt_irrefl _)
        · have hn := hnew n (List.mem_of_getElem? hmem)
          exact ⟨hn.not_doomed, fun hq => absurd hn.tasksQueue hq⟩
      refine wp_mono (dispatchTask_allPass (s := s₁.withPromise taskId k) ho' hk hspared.1 hspared.2) (fun _ _ h => ?_)
        fun x s₂ h => ?_
      · exact hcalled.trans h.handled
      · exact hcalled.trans (h.trans (allPass_settle s₂ _ _)).handled

theorem message_handled (ho : Orderly s) (fuel w : Nat) (message : WorkerMessage Response)
    (he : HandshakeEvent (.message w message : Event Data Response)) (hspares : SparesDoomed s (.message w message))
    (hen : Enabled s (.message w message)) :
    wp (handleMessage (callbacks fuel) fuel w message) (fun _ => Handled s) (fun _ => Handled s) s := by
  have hpass {m : PoolM Data Response Unit} (h : wp m (fun _ => AllPass s) (fun _ => AllPass s) s) :
      wp m (fun _ => Handled s) (fun _ => Handled s) s := wp_mono h (fun _ _ h => h.handled) fun _ _ h => h.handled
  rcases hn : s.workerNodes[s.getWorkerNodeKeyByWorkerId w]? with _ | n
  · exact wp_message_unknown hn fun x => (AllPass.refl s).handled
  · refine wp_message hn (fun names _ => ?_) (fun names x _ => ?_) (fun names _ => ?_) (fun m hm => ?_)
      (fun behavior hm hdynamic => ?_) (fun _ _ _ => ?_) (fun hm => ?_) fun _ => ?_
    · refine (AllPass.modifyNode s _ fun a _ => ?_).handled
      exact .of_same rfl rfl rfl rfl rfl rfl rfl
    · exact (AllPass.refl s).handled
    · refine (AllPass.modifyNode s _ fun a _ => ?_).handled
      exact .of_same rfl rfl rfl rfl rfl rfl rfl
    · have hanswer : AllPass s (s.modifyNode (s.getWorkerNodeKeyByWorkerId w) (·.answer m.taskId)) :=
        .modifyNode s _ fun a _ => passes_answer m.taskId a
      refine wp_mono (taskResponse_allPass (ho.allPass hanswer) m) (fun _ _ h => ?_) fun _ _ h => ?_
      · exact (hanswer.trans h).handled
      · exact (hanswer.trans h).handled
    · subst hm
      cases behavior with
      | hard => exact he.elim
      | soft => exact hpass (softKill_allPass hn (hspares n hn hdynamic))
    · exact (AllPass.refl s).handled
    · -- the worker answers a kill message: its node is doomed already
      subst hm
      have hdoomed : n.Doomed := .inl (ho.node_of_nodeOf hn hen)
      refine (AllPass.modifyNode s _ fun a ha => ?_).handled
      rw [hn] at ha
      cases ha
      exact ⟨rfl, rfl, id, fun _ => ⟨.inr rfl, rfl⟩, fun h _ => h hdoomed⟩
    · exact (AllPass.refl s).handled

theorem handle_handled (ho : Orderly s) (fuel : Nat) (he : HandshakeEvent e) (hspares : SparesDoomed s e)
    (hen : Enabled s e) : wp (handle fuel e) (fun _ => Handled s) (fun _ => Handled s) s := by
  cases e with
  | execute taskId name data choice => exact execute_handled ho fuel taskId name data choice hspares
  | message w message => exact message_handled ho fuel w message he hspares hen
  | poll w =>
    exact wp_mono (pollingTick_allPass ho hen hspares) (fun _ _ h => h.handled) fun _ _ h => h.handled
  | exit w =>
    simp only [handle, removeWorkerNode, wp_modify]
    rcases hn : s.workerNodes[s.getWorkerNodeKeyByWorkerId w]? with _ | n
    · exact (AllPass.refl s).handled
    · exact .single (.inr (.inr ⟨_, n, hn, rfl⟩))
  | error w => exact he.elim
  | start => exact he.elim
  | enableTasksQueue enable o => exact he.elim
  | setTasksQueueOptions o => exact he.elim
  | destroy => exact he.elim
  | destroyed => exact he.elim

/-- What a run of the handshake does to the nodes. -/
theorem handled_of_run (ho : Orderly s) (hr : Run (Guarded (fun s e => HandshakeEvent e ∧ SparesDoomed s e) Step) s es s') :
    Handled s s' := by
  refine hr.inv (Handled s) .refl fun a e b ha hstep => ?_
  obtain ⟨⟨he, hspares⟩, hen, fuel, now, r, hm⟩ := hstep
  have hnow : Handled a { a with now } := by
    refine (AllPass.same ?_ ?_ ?_ ?_).handled <;> rfl
  have hoa := (ha.trans hnow).orderly ho
  have hspares' : SparesDoomed { a with now } e := by
    cases e with
    | execute _ _ _ choice => cases choice <;> exact hspares
    | message w m =>
      cases m with
      | killRequest behavior => cases behavior <;> exact hspares
      | _ => trivial
    | poll w => exact hspares
    | _ => trivial
  have hen' : Enabled { a with now } e := by
    cases e with
    | message w m => cases m <;> exact hen
    | _ => exact hen
  exact (ha.trans hnow).trans (wp_any (handle_handled hoa fuel he hspares' hen') hm)

/-- When a soft kill is granted to drained nodes only, no call chooses a doomed node, and no steal finds its way
to one, every doomed node is drained until it leaves, and its worker is sent no further task. -/
theorem soft_kill_loses_no_task (h₀ : Fresh s₀)
    (hr : Run (Guarded (fun s e => HandshakeEvent e ∧ SparesDoomed s e) Step) s₀ es s) :
    (∀ n ∈ s.workerNodes ++ s.removedNodes, n.destroying.isSome = true ∨ n.terminated = true →
      n.tasksQueue = [] ∧ n.worker.unanswered = []) ∧
    ∀ es' s', Run (Guarded (fun s e => HandshakeEvent e ∧ SparesDoomed s e) Step) s es' s' →
      ∀ n ∈ s.workerNodes, n.destroying.isSome = true → ∀ n' ∈ s'.workerNodes, n'.info.id = n.info.id →
        n'.worker.received = n.worker.received := by
  have hrun := handled_of_run (orderly_of_fresh h₀) hr
  have ho := hrun.orderly (orderly_of_fresh h₀)
  refine ⟨ho.drained, fun es' s' hr' n hn hd n' hn' hid => ?_⟩
  exact ((handled_of_run ho hr').received ho hn (.inl hd) n' hn' hid).2

end Runs

/-- A dynamic pool of one static worker, whose second worker is killed softly after its task. -/
theorem soft_kill_of_idle_worker :
    ∃ s s', Run (Guarded (fun s e => HandshakeEvent e ∧ SparesDoomed s e) Step)
        { startedPool 1 true ⟨some 4, some 1, false, false⟩ with type := .dynamic, max := some 2 }
        [submit 0 0, submit 1 1, respond 1 1, .message 1 (.killRequest .soft)] s ∧
      Run (Guarded (fun s e => HandshakeEvent e ∧ SparesDoomed s e) Step) s
        [submit 2 0, .message 1 (.killAnswer true)] s' ∧
      (∃ n ∈ s.workerNodes, n.destroying.isSome = true) ∧
      (∃ n ∈ s'.workerNodes, n.terminated = true) ∧
      (∀ n ∈ s'.workerNodes ++ s'.removedNodes, n.destroying.isSome = true ∨ n.terminated = true →
        n.tasksQueue = [] ∧ n.worker.unanswered = []) ∧
      ∀ n ∈ s.workerNodes, n.destroying.isSome = true → ∀ n' ∈ s'.workerNodes, n'.info.id = n.info.id →
        n'.worker.received = n.worker.received := by
  obtain ⟨s, hr, hdoomed, hnext⟩ := run_to (fun s e => HandshakeEvent e ∧ SparesDoomed s e) 2
    { startedPool 1 true ⟨some 4, some 1, false, false⟩ with type := .dynamic, max := some 2 }
    [submit 0 0, submit 1 1, respond 1 1, .message 1 (.killRequest .soft)]
    (P := fun s => (∃ n ∈ s.workerNodes, n.destroying.isSome = true) ∧
      (replay (nextIf (fun s e => HandshakeEvent e ∧ SparesDoomed s e) 2) s
        [submit 2 0, .message 1 (.killAnswer true)]).any
        (fun s' => decide (∃ n ∈ s'.workerNodes, n.terminated = true)) = true) (by decide +kernel)
  obtain ⟨s', hr', hterminated⟩ := run_to _ 2 s [submit 2 0, .message 1 (.killAnswer true)] hnext
  have h₀ : Fresh { startedPool 1 true ⟨some 4, some 1, false, false⟩ with type := .dynamic, max := some 2 } :=
    (fresh_startedPool 1 true _).resize .dynamic (some 2)
  obtain ⟨-, hsame⟩ := soft_kill_loses_no_task h₀ hr
  obtain ⟨hdrained, -⟩ := soft_kill_loses_no_task h₀ (hr.append hr')
  exact ⟨s, s', hr, hr', hdoomed, hterminated, hdrained, hsame _ s' hr'⟩

/-- Between the kill message and its answer a call chooses the idle worker, which is then terminated. -/
theorem soft_kill_loses_task :
    ¬ ∀ (s₀ s : Pool Unit Unit) (es : List (Event Unit Unit)), Fresh s₀ → s₀.started = true →
      Run (Guarded (fun _ e => HandshakeEvent e) Step) s₀ es s → ∀ n ∈ s.workerNodes, n.terminated = true →
      n.tasksQueue = [] ∧ n.worker.unanswered = [] := by
  intro hall
  obtain ⟨s, hr, n, hn, hterminated, hflight⟩ := run_to (fun _ e => HandshakeEvent e) 2
    { startedPool 1 true ⟨some 4, some 1, false, false⟩ with type := .dynamic, max := some 2 }
    [submit 0 0, submit 1 1, respond 1 1, .message 1 (.killRequest .soft), submit 2 1, .message 1 (.killAnswer true)]
    (P := fun s => ∃ n ∈ s.workerNodes, n.terminated = true ∧ n.worker.unanswered ≠ []) (by decide +kernel)
  exact hflight (hall _ s _ ((fresh_startedPool 1 true _).resize .dynamic (some 2)) rfl hr n hn hterminated).2

end Poolifier
