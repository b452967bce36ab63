import Poolifier.Listeners
/-!
# The listeners that are used once

An operation is answered to a listener that is registered for it alone.
`sendTaskFunctionOperationToWorker` takes it off its node again.
`sendTaskFunctionOperationToWorkers` has it on every node, and takes it off the
node whose answer is the last: where there is one node, the listeners are those
of promises that are pending (`Waits`), and where there are more, all nodes but
one keep the listener for good (`Left`).
-/

namespace Poolifier

open MapLib RunLib

namespace Operations

/-! ## Listeners that wait -/

/-- Every listener waits for a promise that is pending, and no other listener does. -/
structure Waits (s : State) : Prop where
  pending : ∀ n ∈ s.workerNodes, ∀ l ∈ n.listeners, ∃ q, s.promises[l.operation]? = some q ∧ q.settled = none
  once : ∀ n ∈ s.workerNodes, ∀ m ∈ s.workerNodes, ∀ l ∈ n.listeners, ∀ l' ∈ m.listeners, l.operation = l'.operation →
    n.id = m.id ∧ l = l'

section Waits
variable {s s' : State} {k : Nat} {n : Node} {l : Listener} {message : Answer}

/-- Nodes may lose listeners, as long as the promises of those that stay are pending. -/
theorem Waits.lessened (h : Waits s)
    (hnodes : ∀ n' ∈ s'.workerNodes, n'.listeners = [] ∨
      ∃ n ∈ s.workerNodes, n'.id = n.id ∧ n'.listeners ⊆ n.listeners)
    (hpromises : ∀ n' ∈ s'.workerNodes, ∀ l ∈ n'.listeners, ∀ q, s.promises[l.operation]? = some q → q.settled = none →
      ∃ q', s'.promises[l.operation]? = some q' ∧ q'.settled = none) : Waits s' := by
  -- where a listener has been before
  have hold (n' : Node) (hn' : n' ∈ s'.workerNodes) (l : Listener) (hl : l ∈ n'.listeners) :
      ∃ n ∈ s.workerNodes, n'.id = n.id ∧ l ∈ n.listeners := by
    rcases hnodes n' hn' with hnone | ⟨n, hn, hid, hsub⟩
    · rw [hnone] at hl
      cases hl
    · exact ⟨n, hn, hid, hsub hl⟩
  constructor
  · intro n' hn' l hl
    obtain ⟨n, hn, -, hl'⟩ := hold n' hn' l hl
    obtain ⟨q, hq, hpending⟩ := h.pending n hn l hl'
    exact hpromises n' hn' l hl q hq hpending
  · intro n' hn' m' hm' l hl l' hl' heq
    obtain ⟨n, hn, hid, hln⟩ := hold n' hn' l hl
    obtain ⟨m, hm, hid', hlm⟩ := hold m' hm' l' hl'
    obtain ⟨hsame, hl⟩ := h.once n hn m hm l hln l' hlm heq
    exact ⟨hid.trans (hsame.trans hid'.symm), hl⟩

theorem Waits.modifyNode (h : Waits s) {f : Node → Node} {answers : List Answer}
    (hf : ∀ n, (f n).id = n.id ∧ (f n).listeners = n.listeners) : Waits { s.modifyNode k f with answers } := by
  refine h.lessened (fun n' hn' => ?_) fun _ _ _ _ q hq hs => ⟨q, hq, hs⟩
  obtain ⟨n, hn, rfl | rfl⟩ := mem_of_modify hn'
  · exact .inr ⟨n', hn, rfl, List.Subset.refl _⟩
  · obtain ⟨hid, hl⟩ := hf n
    exact .inr ⟨n, hn, hid, hl ▸ List.Subset.refl _⟩

theorem Waits.closeChannel (h : Waits s) {worker : WorkerType} : Waits (s.modifyNode k (·.closeChannel worker)) := by
  refine h.modifyNode fun n => ?_
  cases worker with
  | thread => exact ⟨rfl, rfl⟩
  | cluster => exact ⟨rfl, rfl⟩

/-- One node is asked, with a listener and a promise of their own. -/
theorem Waits.ask (h : Waits s) (hsound : Sound s) {q₀ : Promise} (hpending : q₀.settled = none)
    (hl : l.operation = s.promises.length) (operation : OperationMessage) {nodes : List Node}
    (hnodes : nodes = s.workerNodes.modify k (·.ask l operation)) :
    Waits { s with workerNodes := nodes, promises := s.promises ++ [q₀] } := by
  -- a listener that was there has an operation of before
  have hcase (n' : Node) (hn' : n' ∈ nodes) (l' : Listener) (hl' : l' ∈ n'.listeners) :
      (l'.operation < s.promises.length ∧ ∃ n ∈ s.workerNodes, n'.id = n.id ∧ l' ∈ n.listeners) ∨
        l' = l ∧ s.workerNodes[k]?.map (·.id) = some n'.id := by
    obtain ⟨i, hi⟩ := List.mem_iff_getElem?.1 hn'
    rw [hnodes] at hi
    obtain ⟨n, hn, ⟨-, rfl⟩ | ⟨rfl, rfl⟩⟩ := node_of_modify (s := s) hi
    · have hmem := List.mem_of_getElem? hn
      exact .inl ⟨(hsound.node n' hmem).registered l' hl', n', hmem, rfl, hl'⟩
    · have hmem := List.mem_of_getElem? hn
      rcases listeners_ask hl' with hl' | rfl
      · exact .inl ⟨(hsound.node n hmem).registered l' hl', n, hmem, rfl, hl'⟩
      · exact .inr ⟨rfl, by rw [hn]; rfl⟩
  constructor
  · intro n' hn' l' hl'
    rcases hcase n' hn' l' hl' with ⟨hlt, n, hn, -, hln⟩ | ⟨rfl, -⟩
    · obtain ⟨q, hq, hs⟩ := h.pending n hn l' hln
      exact ⟨q, (List.getElem?_append_left hlt).trans hq, hs⟩
    · refine ⟨q₀, ?_, hpending⟩
      rw [hl]
      exact List.getElem?_concat_length
  · intro n' hn' m' hm' l₁ hl₁ l₂ hl₂ heq
    rcases hcase n' hn' l₁ hl₁ with ⟨hlt, n, hn, hid, hln⟩ | ⟨rfl, hkey⟩
    · rcases hcase m' hm' l₂ hl₂ with ⟨-, m, hm, hid', hlm⟩ | ⟨rfl, -⟩
      · obtain ⟨hsame, heq⟩ := h.once n hn m hm l₁ hln l₂ hlm heq
        exact ⟨hid.trans (hsame.trans hid'.symm), heq⟩
      · omega
    · rcases hcase m' hm' l₂ hl₂ with ⟨hlt, -⟩ | ⟨rfl, hkey'⟩
      · omega
      · exact ⟨Option.some.inj (hkey.symm.trans hkey'), rfl⟩

theorem Waits.createNode (h : Waits s) (file : TaskFunctions) : Waits (createAndSetupWorkerNode file s) := by
  refine h.lessened (fun n' hn' => ?_) fun _ _ _ _ q hq hs => ⟨q, hq, hs⟩
  rcases List.mem_append.1 hn' with hn' | hn'
  · exact .inr ⟨n', hn', rfl, List.Subset.refl _⟩
  · rw [List.mem_singleton.1 hn']
    exact .inl rfl

theorem Waits.create (h : Waits s) (hsound : Sound s) (file : TaskFunctions) (dynamic : Bool) :
    Waits (create file dynamic s) := by
  cases dynamic with
  | false => exact h.createNode file
  | true =>
    refine (createDynamic_inv (I := fun s => Sound s ∧ Waits s) ⟨hsound.createNode file, h.createNode file⟩ ?_ ?_).2
    · rintro s' message ⟨hsound', h'⟩ -
      exact ⟨hsound'.toWorker _ message, h'.ask hsound' rfl rfl message rfl⟩
    · rintro s' ⟨hsound', h'⟩
      refine ⟨hsound'.modifyNode fun n hn => ⟨rfl, .refl _, (hsound'.node n (List.mem_of_getElem? hn)).outbox⟩, ?_⟩
      exact h'.modifyNode fun n => ⟨rfl, rfl⟩

/-- An operation for all workers of a pool that has one at most, or whose first node has no channel. -/
theorem Waits.toWorkers (h : Waits s) (hsound : Sound s)
    (hone : s.workerNodes.length ≤ 1 ∨ s.workerNodes.head?.any (·.channelOpen) = false) (operation : OperationMessage) :
    Waits (sendTaskFunctionOperationToWorkers operation s) := by
  have hnone {nodes : List Node} (hnodes : nodes = s.workerNodes) (q₀ : Promise) :
      Waits { s with workerNodes := nodes, promises := s.promises ++ [q₀] } := by
    subst hnodes
    refine h.lessened (fun n hn => .inr ⟨n, hn, rfl, List.Subset.refl _⟩) fun n hn l hl q hq hs => ⟨q, ?_, hs⟩
    exact (List.getElem?_append_left ((hsound.node n hn).registered l hl)).trans hq
  unfold sendTaskFunctionOperationToWorkers
  dsimp only
  rcases hnodes : s.workerNodes with _ | ⟨n, rest⟩
  · exact hnone hnodes.symm _
  · by_cases hopen : n.channelOpen = true
    · -- the node is the only one
      have hrest : rest = [] := by
        rw [hnodes] at hone
        rcases hone with hlen | hclosed
        · exact List.length_eq_zero_iff.1 (Nat.le_zero.1 (Nat.le_of_succ_le_succ hlen))
        · exact absurd hopen (by simpa using hclosed)
      subst hrest
      refine h.ask (k := 0) (l := .ofWorkers s.promises.length) hsound ?_ rfl operation ?_
      · simp [hopen]
      · rw [hnodes]
        simp [askEach, hopen]
    · -- the call throws before it has registered a listener
      refine hnone ?_ _
      rw [askEach, if_neg hopen, hnodes]

/-- The exit of a worker takes its listeners along. -/
theorem Waits.exit (h : Waits s) (k : Nat) : Waits { s with workerNodes := s.workerNodes.eraseIdx k } := by
  refine h.lessened (fun n hn => .inr ⟨n, ?_, rfl, List.Subset.refl _⟩) fun _ _ _ _ q hq hs => ⟨q, hq, hs⟩
  exact (List.eraseIdx_sublist ..).subset hn

/-! ## An answer -/

/-- A listener is taken off its node, or leaves the nodes as they are and its promise pending. -/
theorem Listener.run_erases (hk : s.getWorkerNodeKeyByWorkerId message.workerId = k) (hlt : k < s.workerNodes.length)
    (hrun : l.run message s = .ok s') :
    s'.workerNodes = (s.workerNodes.modify k fun n => { n with listeners := n.listeners.erase l }) ∨
      s'.workerNodes = s.workerNodes ∧ ∀ q, s.promises[l.operation]? = some q → q.settled = none →
        ∃ q', s'.promises[l.operation]? = some q' ∧ q'.settled = none := by
  unfold Listener.run at hrun
  rw [if_neg (by omega)] at hrun
  cases l with
  | ofWorker p key =>
    dsimp only at hrun
    split at hrun
    · cases hrun
    · split at hrun
      · cases hrun
        exact .inl (workerNodes_deregister hk p _ _)
      · cases hrun
        exact .inr ⟨rfl, fun q hq hs => ⟨q, hq, hs⟩⟩
  | ofWorkers p =>
    have hanswered (q : Promise) (hq : s.promises[p]? = some q) (hs : q.settled = none) :
        ∃ q', (s.modifyPromise p (Promise.answered message)).promises[p]? = some q' ∧ q'.settled = none := by
      rw [promise_answered, hq]
      exact ⟨_, rfl, hs⟩
    dsimp only at hrun
    split at hrun
    · cases hrun
      exact .inr ⟨rfl, hanswered⟩
    · split at hrun
      · cases hrun
        exact .inl (workerNodes_deregister (s := s.modifyPromise p (Promise.answered message)) hk p _ _)
      · cases hrun
        exact .inr ⟨rfl, hanswered⟩

theorem Waits.ran {ls : List Listener} (h : Waits s) (he : Emits message k (l :: ls) s) (hrun : l.run message s = .ok s')
    (hr : Ran l message k s s') : Waits s' := by
  obtain ⟨n, hn, -, hsub⟩ := he.node
  obtain ⟨hkey, hlt⟩ := he.key
  have hother (p : Nat) (hp : p ≠ l.operation) : s'.promises[p]? = s.promises[p]? := by
    rw [hr.promises]
    exact List.getElem?_modify_ne _ _ (Ne.symm hp)
  rcases Listener.run_erases hkey hlt hrun with hnodes | ⟨hnodes, hpending⟩
  · refine h.lessened (fun n' hn' => ?_) fun n' hn' l' hl' q hq hs => ?_
    · obtain ⟨m, hm, rfl | rfl⟩ := hr.mem hn'
      · exact .inr ⟨n', hm, rfl, List.Subset.refl _⟩
      · exact .inr ⟨m, hm, rfl, List.erase_subset⟩
    · -- no listener of the promise is left
      refine ⟨q, (hother _ fun heq => ?_).trans hq, hs⟩
      rw [hnodes] at hn'
      obtain ⟨i, hi⟩ := List.mem_iff_getElem?.1 hn'
      have hl := hsub List.mem_cons_self
      obtain ⟨m, hm, ⟨hik, rfl⟩ | ⟨rfl, rfl⟩⟩ := node_of_modify (s := s) hi
      · obtain ⟨hsame, -⟩ := h.once n' (List.mem_of_getElem? hm) n (List.mem_of_getElem? hn) l' hl' l hl heq
        exact hik (he.sound.key_of_id hm hn hsame)
      · rw [hn] at hm
        cases hm
        have hmem := List.mem_of_getElem? hn
        obtain ⟨-, rfl⟩ := h.once n hmem n hmem l' (List.erase_subset hl') l hl heq
        have hnodup := (he.sound.node n hmem).nodup.of_map
        exact hnodup.not_mem_erase hl'
  · refine h.lessened (fun n' hn' => ?_) fun n' hn' l' hl' q hq hs => ?_
    · rw [hnodes] at hn'
      exact .inr ⟨n', hn', rfl, List.Subset.refl _⟩
    · by_cases heq : l'.operation = l.operation
      · rw [heq] at hq ⊢
        exact hpending q hq hs
      · exact ⟨q, (hother _ heq).trans hq, hs⟩

theorem Waits.emit {ls : List Listener} (h : Waits s) (he : Emits message k ls s) : Waits (emit message ls s) := by
  refine he.emit_inv (J := fun _ => Waits) ?_ (fun p key ls s hj _ _ => hj) (fun p key ls s hj _ _ => hj)
    (fun s hj => hj) h
  exact fun l ls s s' he hj hrun hr => hj.ran he hrun hr

end Waits

/-! ## Listeners that are left -/

/-- No channel is closed, and the listeners are those of operations for all workers. -/
structure Staying (s : State) : Prop where
  channelOpen : ∀ n ∈ s.workerNodes, n.channelOpen = true
  ofWorkers : ∀ n ∈ s.workerNodes, ∀ l ∈ n.listeners, ∃ p, l = .ofWorkers p

/-- The operation `p` waits, and its listener is on all nodes; or it has all answers, and its listener is on all nodes but
one. -/
def Left (p : Nat) (s : State) : Prop :=
  ∃ q, s.promises[p]? = some q ∧
    (q.settled = none ∧ q.responsesReceived.length < s.workerNodes.length ∧
        (∀ n ∈ s.workerNodes, Listener.ofWorkers p ∈ n.listeners) ∨
      s.workerNodes.length ≤ q.responsesReceived.length ∧
        ∃ k, ∀ (i : Nat) (n : Node), s.workerNodes[i]? = some n → i ≠ k → Listener.ofWorkers p ∈ n.listeners)

section Left
variable {s s' : State} {k p : Nat} {l : Listener} {message : Answer}

/-- Nodes that keep the listener of an operation whose promise stays as it is. -/
theorem Left.of_nodes (h : Left p s) (hp : ∀ q, s.promises[p]? = some q → s'.promises[p]? = some q)
    (hlen : s'.workerNodes.length = s.workerNodes.length)
    (hnodes : ∀ (i : Nat) (n' : Node), s'.workerNodes[i]? = some n' → ∃ n : Node, s.workerNodes[i]? = some n ∧
      (Listener.ofWorkers p ∈ n.listeners → Listener.ofWorkers p ∈ n'.listeners)) : Left p s' := by
  obtain ⟨q, hq, hleft⟩ := h
  refine ⟨q, hp q hq, ?_⟩
  rw [hlen]
  refine hleft.imp ?_ ?_
  · rintro ⟨hpending, hlt, hall⟩
    refine ⟨hpending, hlt, fun n' hn' => ?_⟩
    obtain ⟨i, hi⟩ := List.mem_iff_getElem?.1 hn'
    obtain ⟨n, hn, hkept⟩ := hnodes i n' hi
    exact hkept (hall n (List.mem_of_getElem? hn))
  · rintro ⟨hle, k, hall⟩
    refine ⟨hle, k, fun i n' hi hne => ?_⟩
    obtain ⟨n, hn, hkept⟩ := hnodes i n' hi
    exact hkept (hall i n hn hne)

theorem Left.modifyNode (h : Left p s) {f : Node → Node} {answers : List Answer} (hf : ∀ n, (f n).listeners = n.listeners) :
    Left p { s.modifyNode k f with answers } := by
  refine h.of_nodes (fun q hq => hq) (List.length_modify ..) fun i n' hn' => ?_
  obtain ⟨n, hn, ⟨-, rfl⟩ | ⟨-, rfl⟩⟩ := node_of_modify hn'
  · exact ⟨n', hn, id⟩
  · exact ⟨n, hn, fun hl => (hf n).symm ▸ hl⟩

/-- A listener of an operation for all workers is taken off by the last answer, and by no other. -/
theorem run_ofWorkers_nodes {q : Promise} (hk : s.getWorkerNodeKeyByWorkerId message.workerId = k)
    (hlt : k < s.workerNodes.length) (hq : s.promises[p]? = some q)
    (hrun : (Listener.ofWorkers p).run message s = .ok s') :
    s'.workerNodes = if q.responsesReceived.length + 1 = s.workerNodes.length then
        s.workerNodes.modify k fun n => { n with listeners := n.listeners.erase (.ofWorkers p) }
      else s.workerNodes := by
  unfold Listener.run at hrun
  rw [if_neg (by omega)] at hrun
  dsimp only at hrun
  rw [promise_answered, hq, Option.map_some] at hrun
  have hnodes : (s.modifyPromise p (Promise.answered message)).workerNodes = s.workerNodes := rfl
  dsimp only at hrun
  rw [Promise.length_answered, hnodes] at hrun
  by_cases hlast : q.responsesReceived.length + 1 = s.workerNodes.length
  · rw [if_pos hlast] at hrun ⊢
    cases hrun
    exact workerNodes_deregister (s := s.modifyPromise p (Promise.answered message)) hk p _ _
  · rw [if_neg hlast] at hrun ⊢
    cases hrun
    rfl

theorem Left.ran {ls : List Listener} (h : Left p s) (hs : Staying s) (he : Emits message k (l :: ls) s)
    (hrun : l.run message s = .ok s') (hr : Ran l message k s s') : Left p s' := by
  obtain ⟨n, hn, -, hsub⟩ := he.node
  obtain ⟨hkey, hlt⟩ := he.key
  obtain ⟨p', rfl⟩ := hs.ofWorkers n (List.mem_of_getElem? hn) l (hsub List.mem_cons_self)
  by_cases hp : p' = p
  · subst hp
    obtain ⟨q, hq, hleft⟩ := h
    have hnodes := run_ofWorkers_nodes hkey hlt hq hrun
    have hq' : s'.promises[p']? = some (q.receive s.workerNodes.length message) := by
      rw [hr.promises, Listener.operation, List.getElem?_modify_eq, hq]
      rfl
    refine ⟨_, hq', ?_⟩
    rw [hr.length, Promise.length_receive]
    by_cases hlast : q.responsesReceived.length + 1 = s.workerNodes.length
    · -- the last answer, after which the listener is on all nodes but `k`
      rw [if_pos hlast] at hnodes
      refine .inr ⟨hlast.ge, k, fun i n' hi hne => ?_⟩
      rw [hnodes] at hi
      obtain ⟨m, hm, ⟨-, rfl⟩ | ⟨heq, -⟩⟩ := node_of_modify (s := s) hi
      · rcases hleft with ⟨-, -, hall⟩ | ⟨hle, -⟩
        · exact hall n' (List.mem_of_getElem? hm)
        · omega
      · exact absurd heq hne
    · -- any other answer, after which it is where it was
      rw [if_neg hlast] at hnodes
      rw [hnodes]
      refine hleft.imp ?_ fun h => ⟨h.1.trans (Nat.le_succ _), h.2⟩
      rintro ⟨hpending, hless, hall⟩
      refine ⟨?_, by omega, hall⟩
      rw [Promise.receive_of_ne hlast]
      exact hpending
  · -- the listener of another operation
    refine h.of_nodes (fun q hq => ?_) hr.length fun i n' hi => ?_
    · rw [hr.promises]
      exact (List.getElem?_modify_ne _ _ hp).trans hq
    · obtain ⟨m, hm, rfl | ⟨-, rfl⟩⟩ := hr.node hi
      · exact ⟨n', hm, id⟩
      · refine ⟨m, hm, fun hl => (List.mem_erase_of_ne ?_).2 hl⟩
        rintro ⟨⟩
        exact hp rfl

/-- Nodes that lose listeners, if any. -/
theorem Staying.of_nodes (h : Staying s) (hnodes : ∀ n' ∈ s'.workerNodes, ∃ n ∈ s.workerNodes,
    n'.channelOpen = n.channelOpen ∧ n'.listeners ⊆ n.listeners) : Staying s' := by
  constructor
  · intro n' hn'
    obtain ⟨n, hn, hopen, -⟩ := hnodes n' hn'
    exact hopen.trans (h.channelOpen n hn)
  · intro n' hn' l hl
    obtain ⟨n, hn, -, hsub⟩ := hnodes n' hn'
    exact h.ofWorkers n hn l (hsub hl)

theorem Staying.modifyNode (h : Staying s) {f : Node → Node} {answers : List Answer}
    (hf : ∀ n, (f n).channelOpen = n.channelOpen ∧ (f n).listeners = n.listeners) :
    Staying { s.modifyNode k f with answers } := by
  refine h.of_nodes fun n' hn' => ?_
  obtain ⟨n, hn, rfl | rfl⟩ := mem_of_modify hn'
  · exact ⟨n', hn, rfl, List.Subset.refl _⟩
  · obtain ⟨hopen, hl⟩ := hf n
    exact ⟨n, hn, hopen, hl ▸ List.Subset.refl _⟩

theorem Staying.ran (h : Staying s) (hr : Ran l message k s s') : Staying s' := by
  refine h.of_nodes fun n' hn' => ?_
  obtain ⟨n, hn, rfl | rfl⟩ := hr.mem hn'
  · exact ⟨n', hn, rfl, List.Subset.refl _⟩
  · exact ⟨n, hn, rfl, List.erase_subset⟩

theorem workerNodes_toWorkers (h : Staying s) (operation : OperationMessage) :
    (sendTaskFunctionOperationToWorkers operation s).workerNodes =
      s.workerNodes.map (·.ask (.ofWorkers s.promises.length) operation) :=
  askEach_of_open h.channelOpen ..

theorem Staying.toWorkers (h : Staying s) (operation : OperationMessage) :
    Staying (sendTaskFunctionOperationToWorkers operation s) := by
  constructor
  · intro n' hn'
    rw [workerNodes_toWorkers h] at hn'
    obtain ⟨n, hn, rfl⟩ := List.mem_map.1 hn'
    exact h.channelOpen n hn
  · intro n' hn' l hl
    rw [workerNodes_toWorkers h] at hn'
    obtain ⟨n, hn, rfl⟩ := List.mem_map.1 hn'
    rcases listeners_ask hl with hl | rfl
    · exact h.ofWorkers n hn l hl
    · exact ⟨_, rfl⟩

theorem Left.toWorkers (h : Left p s) (hs : Staying s) (operation : OperationMessage) :
    Left p (sendTaskFunctionOperationToWorkers operation s) := by
  have hnodes := workerNodes_toWorkers hs operation
  refine h.of_nodes (fun q hq => ?_) (by rw [hnodes, List.length_map]) fun i n' hi => ?_
  · exact (List.getElem?_append_left (List.getElem?_eq_some_iff.1 hq).1).trans hq
  · rw [hnodes, List.getElem?_map] at hi
    obtain ⟨n, hn, rfl⟩ := Option.map_eq_some_iff.1 hi
    exact ⟨n, hn, fun hl => List.mem_append_left _ hl⟩

/-- An operation that has been sent to all workers. -/
theorem left_toWorkers (hs : Staying s) (hpos : 0 < s.workerNodes.length) (operation : OperationMessage) :
    Left s.promises.length (sendTaskFunctionOperationToWorkers operation s) := by
  have hnodes := workerNodes_toWorkers hs operation
  refine ⟨_, List.getElem?_concat_length, .inl ⟨if_pos (List.all_eq_true.2 hs.channelOpen), ?_, fun n' hn' => ?_⟩⟩
  · rw [hnodes, List.length_map]
    exact hpos
  · rw [hnodes] at hn'
    obtain ⟨n, hn, rfl⟩ := List.mem_map.1 hn'
    exact List.mem_append_right _ (List.mem_singleton.2 rfl)

theorem emit_staying {ls : List Listener} (hs : Staying s) (he : Emits message k ls s) :
    Staying (emit message ls s) ∧ (emit message ls s).workerNodes.map (·.id) = s.workerNodes.map (·.id) ∧
      ∀ p, Left p s → Left p (emit message ls s) := by
  refine he.emit_inv (J := fun _ s₁ => Staying s₁ ∧ s₁.workerNodes.map (·.id) = s.workerNodes.map (·.id) ∧
    ∀ p, Left p s → Left p s₁) ?_ (fun p key ls s hj _ _ => hj) (fun p key ls s hj _ _ => hj) (fun s hj => hj)
    ⟨hs, rfl, fun _ h => h⟩
  rintro l ls s₁ s' he ⟨hstaying, hids, hleft⟩ hrun hr
  exact ⟨hstaying.ran hr, hr.ids.trans hids, fun p h => (hleft p h).ran hstaying he hrun hr⟩

/-- No worker joins, fails or leaves. -/
def Stays : Event → Prop
  | .call _ | .handle .. | .receive _ => True
  | _ => False

theorem Staying.step {evaluate : String → Evaluated} {file : TaskFunctions} {e : Event} (h : Staying s)
    (hsound : Sound s) (hok : Stays e) (ht : Step evaluate file s e s') :
    Staying s' ∧ s'.workerNodes.map (·.id) = s.workerNodes.map (·.id) ∧ ∀ p, Left p s → Left p s' := by
  have hread {f : Node → Node} {k : Nat} {answers : List Answer} (hid : ∀ n, (f n).id = n.id)
      (hf : ∀ n, (f n).channelOpen = n.channelOpen ∧ (f n).listeners = n.listeners) :
      Staying { s.modifyNode k f with answers } ∧ (s.modifyNode k f).workerNodes.map (·.id) = s.workerNodes.map (·.id) ∧
        ∀ p, Left p s → Left p { s.modifyNode k f with answers } :=
    ⟨h.modifyNode hf, map_id_modify fun n _ => hid n, fun p hp => hp.modifyNode fun n => (hf n).2⟩
  cases takes_of_step ht with
  | call c =>
    unfold Operations.call
    split
    · exact ⟨h, rfl, fun _ hp => hp⟩
    · rename_i message hm
      refine ⟨h.toWorkers message, ?_, fun p hp => hp.toWorkers h message⟩
      exact map_id_askEach ..
  | handle => exact hread (fun _ => rfl) fun _ => ⟨rfl, rfl⟩
  | throw => exact hread (fun _ => rfl) fun _ => ⟨rfl, rfl⟩
  | @receive k n a outbox hn hopen hout =>
    obtain ⟨hs, hids, hleft⟩ := hread (f := fun n => { n with outbox := outbox }) (k := k) (fun _ => rfl)
      fun _ => ⟨rfl, rfl⟩
    obtain ⟨hs', hids', hleft'⟩ := emit_staying hs (hsound.emits hn hout)
    exact ⟨hs', hids'.trans hids, fun p hp => hleft' p (hleft p hp)⟩
  | _ => exact hok.elim

end Left

/-- An operation for all workers is refused, or the pool has no more than one, or its first node has no channel. -/
def AsksOne (s : State) : Event → Prop
  | .call c => (c.message s).toOption.isSome = true →
      s.workerNodes.length ≤ 1 ∨ s.workerNodes.head?.any (·.channelOpen) = false
  | _ => True

instance (s : State) (e : Event) : Decidable (AsksOne s e) :=
  match e with
  | .call _ => inferInstanceAs (Decidable (_ → _))
  | .handle .. | .receive _ | .create _ | .error .. | .stop _ | .closeChannel _ | .exit _ =>
    inferInstanceAs (Decidable True)

theorem Waits.step {evaluate : String → Evaluated} {file : TaskFunctions} {s s' : State} {e : Event} (h : Waits s)
    (hsound : Sound s) (hok : AsksOne s e) (ht : Step evaluate file s e s') : Waits s' := by
  cases takes_of_step ht with
  | call c =>
    unfold Operations.call
    split
    · exact h
    · rename_i message hm
      refine h.toWorkers hsound (hok ?_) message
      rw [hm]
      rfl
  | handle => exact h.modifyNode fun n => ⟨rfl, rfl⟩
  | throw => exact h.modifyNode fun n => ⟨rfl, rfl⟩
  | @receive k n a outbox hn hopen hout =>
    have hread : Waits (s.modifyNode k fun n => { n with outbox := outbox }) := h.modifyNode fun n => ⟨rfl, rfl⟩
    exact hread.emit (hsound.emits hn hout)
  | create dynamic => exact h.create hsound file dynamic
  | error => exact h.closeChannel
  | restart hn => exact h.closeChannel.create (hsound.closeChannel _ _) file _
  | stop => exact h.modifyNode fun n => ⟨rfl, rfl⟩
  | closeChannel => exact h.closeChannel
  | exit hk => exact h.exit _

end Operations

end Poolifier
