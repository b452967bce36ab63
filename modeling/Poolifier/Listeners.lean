import Poolifier.Operations
/-!
# Listeners and the answers they see

What holds in every run of task function operations: the nodes have distinct
ids, a node has at most one listener of an operation, and the answers it hands
the pool are those of its own worker. Handling an answer therefore runs each
listener of one node once, on its own promise (`Emits.emit_inv`).
-/

namespace Poolifier

open MapLib RunLib

namespace Operations

/-! ## Changing nodes -/

/-- A node of the pool after one has changed. -/
theorem node_of_modify {s : State} {k i : Nat} {f : Node → Node} {n' : Node}
    (h : (s.modifyNode k f).workerNodes[i]? = some n') :
    ∃ n, s.workerNodes[i]? = some n ∧ (i ≠ k ∧ n' = n ∨ i = k ∧ n' = f n) := by
  rw [State.modifyNode, List.getElem?_modify] at h
  rcases hn : s.workerNodes[i]? with _ | n
  · rw [hn] at h
    cases h
  · rw [hn] at h
    refine ⟨n, rfl, ?_⟩
    by_cases hk : k = i
    · simp [hk] at h
      exact .inr ⟨hk.symm, h.symm⟩
    · simp [hk] at h
      exact .inl ⟨Ne.symm hk, h.symm⟩

theorem mem_of_modify {s : State} {k : Nat} {f : Node → Node} {n' : Node} (h : n' ∈ (s.modifyNode k f).workerNodes) :
    ∃ n ∈ s.workerNodes, n' = n ∨ n' = f n := by
  obtain ⟨i, hi⟩ := List.mem_iff_getElem?.1 h
  obtain ⟨n, hn, hcase⟩ := node_of_modify hi
  exact ⟨n, List.mem_of_getElem? hn, hcase.imp And.right And.right⟩

theorem map_id_modify {s : State} {k : Nat} {f : Node → Node} (hf : ∀ n, s.workerNodes[k]? = some n → (f n).id = n.id) :
    (s.modifyNode k f).workerNodes.map (·.id) = s.workerNodes.map (·.id) := by
  apply List.ext_getElem?
  intro i
  rw [List.getElem?_map, List.getElem?_map, State.modifyNode, List.getElem?_modify]
  rcases hn : s.workerNodes[i]? with _ | n
  · rfl
  · by_cases hk : k = i
    · subst hk
      simp [hf n hn]
    · simp [hk]

theorem map_id_askEach (l : Listener) (message : OperationMessage) (nodes : List Node) :
    (askEach l message nodes).map (·.id) = nodes.map (·.id) := by
  induction nodes with
  | nil => rfl
  | cons n nodes ih =>
    unfold askEach
    split
    · rw [List.map_cons, ih]
      rfl
    · rfl

theorem listeners_ask {n : Node} {l l' : Listener} {message : OperationMessage}
    (hl : l' ∈ (n.ask l message).listeners) : l' ∈ n.listeners ∨ l' = l :=
  (List.mem_append.1 hl).imp id List.mem_singleton.1

theorem node_of_askEach {l : Listener} {message : OperationMessage} {nodes : List Node} {i : Nat} {n' : Node}
    (h : (askEach l message nodes)[i]? = some n') :
    ∃ n, nodes[i]? = some n ∧ (n' = n ∨ n' = n.ask l message) := by
  induction nodes generalizing i with
  | nil => cases h
  | cons n nodes ih =>
    unfold askEach at h
    split at h
    · cases i with
      | zero => exact ⟨n, rfl, .inr (Option.some.inj h).symm⟩
      | succ i => exact ih h
    · exact ⟨n', h, .inl rfl⟩

theorem askEach_of_open {nodes : List Node} (h : ∀ n ∈ nodes, n.channelOpen = true) (l : Listener)
    (message : OperationMessage) : askEach l message nodes = nodes.map (·.ask l message) := by
  induction nodes with
  | nil => rfl
  | cons n nodes ih =>
    rw [askEach, if_pos (h n List.mem_cons_self), List.map_cons, ih fun m hm => h m (List.mem_cons_of_mem _ hm)]

theorem promise_of_concat {promises : List Promise} {q₀ q : Promise} {p : Nat} (h : (promises ++ [q₀])[p]? = some q) :
    p < promises.length ∧ promises[p]? = some q ∨ p = promises.length ∧ q = q₀ := by
  rcases Nat.lt_trichotomy p promises.length with hlt | rfl | hgt
  · rw [List.getElem?_append_left hlt] at h
    exact .inl ⟨hlt, h⟩
  · rw [List.getElem?_concat_length] at h
    exact .inr ⟨rfl, (Option.some.inj h).symm⟩
  · rw [List.getElem?_eq_none (by rw [List.length_append]; exact hgt)] at h
    cases h

/-! ## What holds in every run -/

/-- A node of a pool that has started as many operations. -/
structure Node.Sound (operations : Nat) (n : Node) : Prop where
  nodup : (n.listeners.map (·.operation)).Nodup
  registered : ∀ l ∈ n.listeners, l.operation < operations
  outbox : ∀ a ∈ n.outbox, a.workerId = n.id

structure Sound (s : State) : Prop where
  ids : (s.workerNodes.map (·.id)).Nodup
  idsBelow : ∀ n ∈ s.workerNodes, n.id < s.nextWorkerId
  node : ∀ n ∈ s.workerNodes, n.Sound s.promises.length

namespace Node.Sound
variable {n n' : Node} {operations : Nat}

theorem mono (h : n.Sound operations) {operations' : Nat} (hle : operations ≤ operations') : n.Sound operations' where
  nodup := h.nodup
  registered l hl := (h.registered l hl).trans_le hle
  outbox := h.outbox

theorem lessened (h : n.Sound operations) (hid : n'.id = n.id) (hl : n'.listeners.Sublist n.listeners)
    (hout : ∀ a ∈ n'.outbox, a.workerId = n.id) : n'.Sound operations where
  nodup := h.nodup.sublist (hl.map _)
  registered l hm := h.registered l (hl.subset hm)
  outbox a ha := by rw [hid]; exact hout a ha

theorem ask (h : n.Sound operations) {l : Listener} (hl : l.operation = operations) (message : OperationMessage) :
    (n.ask l message).Sound (operations + 1) where
  nodup := by
    show ((n.listeners ++ [l]).map (·.operation)).Nodup
    refine nodup_map_concat h.nodup fun l' hl' => ?_
    have hlt := h.registered l' hl'
    omega
  registered l' hl' := by
    rcases listeners_ask hl' with hl' | rfl
    · exact Nat.lt_succ_of_lt (h.registered l' hl')
    · rw [hl]
      exact Nat.lt_succ_self _
  outbox := h.outbox

end Node.Sound

namespace Sound
variable {s s' : State} {k : Nat} {n : Node}

/-- The nodes have kept their ids, and each is sound if it was. -/
theorem of_nodes (h : Sound s) (hids : s'.workerNodes.map (·.id) = s.workerNodes.map (·.id))
    (hnext : s'.nextWorkerId = s.nextWorkerId)
    (hnode : ∀ (i : Nat) (n' : Node), s'.workerNodes[i]? = some n' →
      ∃ n : Node, s.workerNodes[i]? = some n ∧ (n.Sound s.promises.length → n'.Sound s'.promises.length)) : Sound s' where
  ids := by
    rw [hids]
    exact h.ids
  idsBelow n hn := by
    have hmem : n.id ∈ s.workerNodes.map (·.id) := hids ▸ List.mem_map_of_mem hn
    obtain ⟨m, hm, heq⟩ := List.mem_map.1 hmem
    rw [← heq, hnext]
    exact h.idsBelow m hm
  node n' hn' := by
    obtain ⟨i, hi⟩ := List.mem_iff_getElem?.1 hn'
    obtain ⟨n, hn, hsound⟩ := hnode i n' hi
    exact hsound (h.node n (List.mem_of_getElem? hn))

theorem modifyNode (h : Sound s) {f : Node → Node} {answers : List Answer}
    (hf : ∀ n, s.workerNodes[k]? = some n → (f n).id = n.id ∧ (f n).listeners.Sublist n.listeners ∧
      ∀ a ∈ (f n).outbox, a.workerId = n.id) : Sound { s.modifyNode k f with answers } := by
  refine h.of_nodes (map_id_modify fun n hn => (hf n hn).1) rfl fun i n' hn' => ?_
  obtain ⟨n, hn, ⟨-, rfl⟩ | ⟨rfl, rfl⟩⟩ := node_of_modify hn'
  · exact ⟨n', hn, id⟩
  · obtain ⟨hid, hl, hout⟩ := hf n hn
    exact ⟨n, hn, fun hs => hs.lessened hid hl hout⟩

theorem stop (h : Sound s) (k : Nat) : Sound (s.modifyNode k fun n => { n with live := false }) :=
  h.modifyNode fun n hn => ⟨rfl, .refl _, (h.node n (List.mem_of_getElem? hn)).outbox⟩

theorem closeChannel (h : Sound s) (k : Nat) (worker : WorkerType) :
    Sound (s.modifyNode k (·.closeChannel worker)) := by
  refine h.modifyNode fun n hn => ?_
  have hout := (h.node n (List.mem_of_getElem? hn)).outbox
  cases worker with
  | thread => exact ⟨rfl, .refl _, hout⟩
  | cluster => exact ⟨rfl, .refl _, hout⟩

theorem toWorkers (h : Sound s) (message : OperationMessage) :
    Sound (sendTaskFunctionOperationToWorkers message s) := by
  refine h.of_nodes (map_id_askEach ..) rfl fun i n' hn' => ?_
  have hlen : (sendTaskFunctionOperationToWorkers message s).promises.length = s.promises.length + 1 :=
    List.length_append ..
  rw [hlen]
  obtain ⟨n, hn, rfl | rfl⟩ := node_of_askEach hn'
  · exact ⟨n', hn, fun hs => hs.mono (Nat.le_succ _)⟩
  · exact ⟨n, hn, fun hs => hs.ask rfl message⟩

theorem toWorker (h : Sound s) (k : Nat) (message : OperationMessage) :
    Sound (sendTaskFunctionOperationToWorker k message s) := by
  refine h.of_nodes (map_id_modify fun _ _ => rfl) rfl fun i n' hn' => ?_
  have hlen : (sendTaskFunctionOperationToWorker k message s).promises.length = s.promises.length + 1 :=
    List.length_append ..
  rw [hlen]
  obtain ⟨n, hn, ⟨-, rfl⟩ | ⟨-, rfl⟩⟩ := node_of_modify hn'
  · exact ⟨n', hn, fun hs => hs.mono (Nat.le_succ _)⟩
  · exact ⟨n, hn, fun hs => hs.ask rfl message⟩

theorem createNode (h : Sound s) (file : TaskFunctions) : Sound (createAndSetupWorkerNode file s) where
  ids := by
    show (List.map Node.id (s.workerNodes ++ [_])).Nodup
    exact nodup_map_concat h.ids fun m hm => (h.idsBelow m hm).ne
  idsBelow m hm := by
    rcases List.mem_append.1 hm with hm | hm
    · exact Nat.lt_succ_of_lt (h.idsBelow m hm)
    · rw [List.mem_singleton.1 hm]
      exact Nat.lt_succ_self _
  node m hm := by
    rcases List.mem_append.1 hm with hm | hm
    · exact h.node m hm
    · rw [List.mem_singleton.1 hm]
      exact ⟨List.nodup_nil, List.forall_mem_nil _, List.forall_mem_nil _⟩

end Sound

/-- What every operation sent to the new node keeps holds after a dynamic creation. -/
theorem createDynamic_inv {I : State → Prop} {s : State} {file : TaskFunctions}
    (hcreated : I (createAndSetupWorkerNode file s))
    (hsend : ∀ s' message, I s' → message ∈ addMessages s.taskFunctions →
      I (sendTaskFunctionOperationToWorker s.workerNodes.length message s'))
    (hflag : ∀ s', I s' → I (s'.modifyNode s.workerNodes.length fun n => { n with dynamic := true })) :
    I (createAndSetupDynamicWorkerNode file s) := by
  refine hflag _ ?_
  generalize createAndSetupWorkerNode file s = s₁ at hcreated
  generalize addMessages s.taskFunctions = messages at hsend
  induction messages generalizing s₁ with
  | nil => exact hcreated
  | cons message messages ih =>
    exact ih _ (hsend s₁ message hcreated List.mem_cons_self) fun s' m hs' hm =>
      hsend s' m hs' (List.mem_cons_of_mem _ hm)

theorem Sound.create {s : State} (h : Sound s) (file : TaskFunctions) (dynamic : Bool) :
    Sound (create file dynamic s) := by
  cases dynamic with
  | false => exact h.createNode file
  | true =>
    exact createDynamic_inv (h.createNode file) (fun s' message hs' _ => hs'.toWorker _ message)
      fun s' hs' => hs'.modifyNode fun n hn => ⟨rfl, .refl _, (hs'.node n (List.mem_of_getElem? hn)).outbox⟩

theorem Sound.exit {s : State} (h : Sound s) (k : Nat) : Sound { s with workerNodes := s.workerNodes.eraseIdx k } := by
  have hsub : (s.workerNodes.eraseIdx k).Sublist s.workerNodes := List.eraseIdx_sublist ..
  exact ⟨h.ids.sublist (hsub.map _), fun m hm => h.idsBelow m (hsub.subset hm), fun m hm => h.node m (hsub.subset hm)⟩

/-! ## What a listener does -/

section Listener
variable {s : State} {message : Answer} {q : Promise}

theorem onPromise_ofWorker (p key : Nat) : Listener.onPromise s message (.ofWorker p key) =
    if s.workerNodes[key]?.map (·.id) = some message.workerId then Promise.settle message.outcome else id := rfl

theorem onPromise_ofWorkers (p : Nat) :
    Listener.onPromise s message (.ofWorkers p) = Promise.receive s.workerNodes.length message := rfl

end Listener

section Ran
variable {s s' : State} {message : Answer} {k : Nat} {l : Listener}

theorem Ran.promise (h : Ran l message k s s') {p : Nat} {q' : Promise} (hq : s'.promises[p]? = some q') :
    ∃ q, s.promises[p]? = some q ∧
      (p ≠ l.operation ∧ q' = q ∨ p = l.operation ∧ q' = l.onPromise s message q) := by
  rw [h.promises, List.getElem?_modify] at hq
  rcases hp : s.promises[p]? with _ | q
  · rw [hp] at hq
    cases hq
  · rw [hp] at hq
    refine ⟨q, rfl, ?_⟩
    by_cases heq : l.operation = p
    · simp [heq] at hq
      exact .inr ⟨heq.symm, hq.symm⟩
    · simp [heq] at hq
      exact .inl ⟨Ne.symm heq, hq.symm⟩

/-- Listeners change nodes in no other way than that one may be gone. -/
theorem Ran.node (h : Ran l message k s s') {i : Nat} {n' : Node} (hn : s'.workerNodes[i]? = some n') :
    ∃ n, s.workerNodes[i]? = some n ∧ (n' = n ∨ i = k ∧ n' = { n with listeners := n.listeners.erase l }) := by
  rcases h.workerNodes with heq | ⟨-, heq⟩
  · rw [heq] at hn
    exact ⟨n', hn, .inl rfl⟩
  · rw [heq] at hn
    obtain ⟨n, hn, hcase⟩ := node_of_modify hn
    exact ⟨n, hn, hcase.imp And.right id⟩

theorem Ran.mem (h : Ran l message k s s') {n' : Node} (hn : n' ∈ s'.workerNodes) :
    ∃ n ∈ s.workerNodes, n' = n ∨ n' = { n with listeners := n.listeners.erase l } := by
  obtain ⟨i, hi⟩ := List.mem_iff_getElem?.1 hn
  obtain ⟨n, hn, hcase⟩ := h.node hi
  exact ⟨n, List.mem_of_getElem? hn, hcase.imp id And.right⟩

theorem Ran.ids (h : Ran l message k s s') : s'.workerNodes.map (·.id) = s.workerNodes.map (·.id) := by
  rcases h.workerNodes with heq | ⟨-, heq⟩
  · rw [heq]
  · rw [heq]
    exact map_id_modify fun _ _ => rfl

theorem Ran.length (h : Ran l message k s s') : s'.workerNodes.length = s.workerNodes.length := by
  have hlen := congrArg List.length h.ids
  simpa using hlen

theorem Ran.sound (h : Ran l message k s s') (hs : Sound s) : Sound s' := by
  have hlen : s'.promises.length = s.promises.length := by rw [h.promises, List.length_modify]
  refine hs.of_nodes h.ids (by rw [h.rest]) fun i n' hn' => ?_
  rw [hlen]
  obtain ⟨n, hn, rfl | ⟨-, rfl⟩⟩ := h.node hn'
  · exact ⟨n', hn, id⟩
  · exact ⟨n, hn, fun hsound => hsound.lessened rfl List.erase_sublist hsound.outbox⟩

end Ran

/-! ## Handling an answer -/

theorem getWorkerNodeKey_of_node {s : State} (hids : (s.workerNodes.map (·.id)).Nodup) {k : Nat} {n : Node}
    (h : s.workerNodes[k]? = some n) : s.getWorkerNodeKeyByWorkerId n.id = k := by
  obtain ⟨hlt, rfl⟩ := List.getElem?_eq_some_iff.1 h
  unfold State.getWorkerNodeKeyByWorkerId
  refine (List.findIdx_eq hlt).2 ⟨by simp, fun j hj => ?_⟩
  simp only [decide_eq_false_iff_not]
  intro heq
  have hj' : j < s.workerNodes.length := by omega
  have hsame : (s.workerNodes.map (·.id)).get ⟨j, by simpa using hj'⟩ =
      (s.workerNodes.map (·.id)).get ⟨k, by simpa using hlt⟩ := by
    simpa using heq
  have hinj := List.nodup_iff_injective_get.1 hids hsame
  simp only [Fin.mk.injEq] at hinj
  omega

theorem Sound.key_of_id {s : State} (h : Sound s) {i j : Nat} {n m : Node} (hi : s.workerNodes[i]? = some n)
    (hj : s.workerNodes[j]? = some m) (heq : n.id = m.id) : i = j := by
  rw [← getWorkerNodeKey_of_node h.ids hi, ← getWorkerNodeKey_of_node h.ids hj, heq]

/-- The listeners `ls` of the node `k` are still to run on an answer of its worker. -/
structure Emits (message : Answer) (k : Nat) (ls : List Listener) (s : State) : Prop where
  sound : Sound s
  node : ∃ n, s.workerNodes[k]? = some n ∧ n.id = message.workerId ∧ ls ⊆ n.listeners
  operations : (ls.map (·.operation)).Nodup

section Emits
variable {s s' : State} {message : Answer} {k : Nat} {l : Listener} {ls : List Listener}

theorem Emits.key (h : Emits message k ls s) :
    s.getWorkerNodeKeyByWorkerId message.workerId = k ∧ k < s.workerNodes.length := by
  obtain ⟨n, hn, hid, -⟩ := h.node
  refine ⟨?_, (List.getElem?_eq_some_iff.1 hn).1⟩
  rw [← hid]
  exact getWorkerNodeKey_of_node h.sound.ids hn

theorem Emits.operation_ne (h : Emits message k (l :: ls) s) : ∀ l' ∈ ls, l'.operation ≠ l.operation := by
  intro l' hl' heq
  have hnodup := h.operations
  rw [List.map_cons, List.nodup_cons] at hnodup
  exact hnodup.1 (heq ▸ List.mem_map_of_mem hl')

/-- A listener is passed over that has thrown. -/
theorem Emits.rest (h : Emits message k (l :: ls) s) : Emits message k ls s := by
  obtain ⟨n, hn, hid, hsub⟩ := h.node
  have hnodup := h.operations
  rw [List.map_cons, List.nodup_cons] at hnodup
  exact ⟨h.sound, ⟨n, hn, hid, fun x hx => hsub (List.mem_cons_of_mem _ hx)⟩, hnodup.2⟩

theorem Emits.ran (h : Emits message k (l :: ls) s) (hr : Ran l message k s s') : Emits message k ls s' := by
  obtain ⟨n, hn, hid, hsub⟩ := h.rest.node
  refine ⟨hr.sound h.sound, ?_, h.rest.operations⟩
  have hlt : k < s'.workerNodes.length := by
    rw [hr.length]
    exact (List.getElem?_eq_some_iff.1 hn).1
  have hn' := List.getElem?_eq_getElem hlt
  refine ⟨_, hn', ?_⟩
  obtain ⟨m, hm, hcase⟩ := hr.node hn'
  rw [hn] at hm
  cases hm
  rcases hcase with heq | ⟨-, heq⟩
  · rw [heq]
    exact ⟨hid, hsub⟩
  · rw [heq]
    refine ⟨hid, fun x hx => ?_⟩
    -- the listeners still to run are of other operations, so they stay
    have hne : x ≠ l := fun hx' => h.operation_ne x hx (by rw [hx'])
    exact (List.mem_erase_of_ne hne).2 (hsub hx)

/-- What every listener keeps that runs, and every one that throws, holds when the answer has been handled. -/
theorem Emits.emit_inv {J : List Listener → State → Prop} {Q : State → Prop}
    (hran : ∀ l ls s s', Emits message k (l :: ls) s → J (l :: ls) s → l.run message s = .ok s' →
      Ran l message k s s' → J ls s')
    (hskip : ∀ p key ls s, J (.ofWorker p key :: ls) s → s.workerNodes.length ≤ key → s.worker = .thread → J ls s)
    (hstop : ∀ p key ls s, J (.ofWorker p key :: ls) s → s.workerNodes.length ≤ key → s.worker = .cluster → Q s)
    (hend : ∀ s, J [] s → Q s) (h : Emits message k ls s) (hj : J ls s) : Q (emit message ls s) := by
  -- one listener after the other, over the list as it was when the message came
  induction ls generalizing s with
  | nil => exact hend s hj
  | cons l ls ih =>
    obtain ⟨hkey, hlt⟩ := h.key
    unfold emit
    rcases l.run_cases hkey hlt with ⟨s', hs', hr⟩ | ⟨⟨p, key, rfl, hle⟩, e, he⟩
    · rw [hs']
      exact ih (h.ran hr) (hran l ls s s' h hj hs' hr)
    · rw [he]
      dsimp only
      split
      · rename_i hw
        exact ih h.rest (hskip p key ls s hj hle hw)
      · rename_i hw
        exact hstop p key ls s hj hle hw

/-- Handling an answer leaves the pool sound. -/
theorem Emits.emit (h : Emits message k ls s) : Sound (emit message ls s) := by
  refine h.emit_inv (J := fun _ => Sound) (fun l ls s s' _ hj _ hr => hr.sound hj) ?_ ?_ (fun s hj => hj) h.sound
  · exact fun p key ls s hj _ _ => hj
  · exact fun p key ls s hj _ _ => hj

end Emits

/-- The pool takes the next answer of a node. -/
theorem Sound.emits {s : State} (h : Sound s) {k : Nat} {n : Node} {a : Answer} {outbox : List Answer}
    (hn : s.workerNodes[k]? = some n) (hout : n.outbox = a :: outbox) :
    Emits a k n.listeners (s.modifyNode k fun n => { n with outbox := outbox }) := by
  have hnode := h.node n (List.mem_of_getElem? hn)
  refine ⟨h.modifyNode fun m hm => ?_, ⟨{ n with outbox := outbox }, ?_, ?_, fun _ hl => hl⟩, hnode.nodup⟩
  · rw [hn] at hm
    cases hm
    exact ⟨rfl, .refl _, fun b hb => hnode.outbox b (by rw [hout]; exact List.mem_cons_of_mem _ hb)⟩
  · rw [State.modifyNode, List.getElem?_modify_eq, hn]
    rfl
  · exact (hnode.outbox a (by rw [hout]; exact List.mem_cons_self)).symm

/-! ## Every run -/

section Runs
variable {evaluate : String → Evaluated} {file : TaskFunctions} {s s' : State}

theorem of_handle {n : Node} {notification : Option JsError} {x : Sent} {w : TaskFunctions} {a : Answer}
    (h : n.handle evaluate notification x = some (w, a)) : a.operation = x.operation ∧ a.workerId = n.id := by
  obtain ⟨⟨w', r⟩, -, heq⟩ := Option.map_eq_some_iff.1 h
  cases heq
  exact ⟨rfl, rfl⟩

/-- What an event does. -/
inductive Takes (evaluate : String → Evaluated) (file : TaskFunctions) (s : State) : Event → State → Prop
  | call (c : Call) : Takes evaluate file s (.call c) (call c s)
  | handle {k : Nat} {notification : Option JsError} {n : Node} {x : Sent} {inbox : List Sent} {w : TaskFunctions}
      {a : Answer} (hn : s.workerNodes[k]? = some n) (hlive : n.live = true) (hin : n.inbox = x :: inbox)
      (ha : n.handle evaluate notification x = some (w, a)) : Takes evaluate file s (.handle k notification)
        { s.modifyNode k fun n => { n with taskFunctions := w, inbox := inbox, outbox := n.outbox ++ [a] } with
          answers := s.answers ++ [a] }
  | throw {k : Nat} {notification : Option JsError} {n : Node} {x : Sent} {inbox : List Sent}
      (hn : s.workerNodes[k]? = some n) (hlive : n.live = true) (hin : n.inbox = x :: inbox)
      (ha : n.handle evaluate notification x = none) :
      Takes evaluate file s (.handle k notification) (s.modifyNode k fun n => { n with live := false })
  | receive {k : Nat} {n : Node} {a : Answer} {outbox : List Answer} (hn : s.workerNodes[k]? = some n)
      (hopen : n.channelOpen = true) (hout : n.outbox = a :: outbox) :
      Takes evaluate file s (.receive k) (emit a n.listeners (s.modifyNode k fun n => { n with outbox := outbox }))
  | create (dynamic : Bool) : Takes evaluate file s (.create dynamic) (create file dynamic s)
  | error {k : Nat} : Takes evaluate file s (.error k false) (s.modifyNode k (·.closeChannel s.worker))
  | restart {k : Nat} {n : Node} (hn : s.workerNodes[k]? = some n) : Takes evaluate file s (.error k true)
      (Operations.create file n.dynamic (s.modifyNode k (·.closeChannel s.worker)))
  | stop {k : Nat} : Takes evaluate file s (.stop k) (s.modifyNode k fun n => { n with live := false })
  | closeChannel {k : Nat} : Takes evaluate file s (.closeChannel k) (s.modifyNode k (·.closeChannel s.worker))
  | exit {k : Nat} (hk : k < s.workerNodes.length) :
      Takes evaluate file s (.exit k) { s with workerNodes := s.workerNodes.eraseIdx k }

theorem takes_of_step {e : Event} (ht : Step evaluate file s e s') : Takes evaluate file s e s' := by
  unfold Step next at ht
  cases e with
  | call c =>
    cases ht
    exact .call c
  | handle k notification =>
    dsimp only at ht
    split at ht
    · cases ht
    · rename_i n hn
      split at ht
      · rename_i hlive
        split at ht
        · cases ht
        · rename_i x inbox hin
          split at ht
          · rename_i ha
            cases ht
            exact .throw hn hlive hin ha
          · rename_i w a ha
            cases ht
            exact .handle hn hlive hin ha
      · cases ht
  | receive k =>
    dsimp only at ht
    split at ht
    · cases ht
    · rename_i n hn
      split at ht
      · rename_i hopen
        split at ht
        · cases ht
        · rename_i a outbox hout
          cases ht
          exact .receive hn hopen hout
      · cases ht
  | create dynamic =>
    cases ht
    exact .create dynamic
  | error k restart =>
    dsimp only at ht
    split at ht
    · cases ht
    · rename_i n hn
      cases ht
      cases restart with
      | false => exact .error
      | true => exact .restart hn
  | stop k =>
    dsimp only at ht
    split at ht
    · cases ht
      exact .stop
    · cases ht
  | closeChannel k =>
    dsimp only at ht
    split at ht
    · cases ht
      exact .closeChannel
    · cases ht
  | exit k =>
    dsimp only at ht
    split at ht
    · rename_i hk
      cases ht
      exact .exit hk
    · cases ht

theorem Sound.step {e : Event} (h : Sound s) (ht : Step evaluate file s e s') : Sound s' := by
  cases takes_of_step ht with
  | call c =>
    unfold Operations.call
    split
    · exact h
    · exact h.toWorkers _
  | handle hn hlive hin ha =>
    refine h.modifyNode fun m hm => ⟨rfl, .refl _, fun b hb => ?_⟩
    rw [hn] at hm
    cases hm
    rcases List.mem_append.1 hb with hb | hb
    · exact (h.node _ (List.mem_of_getElem? hn)).outbox b hb
    · rw [List.mem_singleton.1 hb]
      exact (of_handle ha).2
  | throw hn hlive hin ha => exact h.stop _
  | receive hn hopen hout => exact (h.emits hn hout).emit
  | create dynamic => exact h.create file dynamic
  | error => exact h.closeChannel _ _
  | restart hn => exact (h.closeChannel _ _).create file _
  | stop => exact h.stop _
  | closeChannel => exact h.closeChannel _ _
  | exit hk => exact h.exit _

/-- What a node more keeps holds at the start, if it does of a pool without nodes. -/
theorem started_inv {I : State → Prop} {worker : WorkerType} (hnone : I ⟨worker, [], 0, .empty, [], []⟩)
    (hnode : ∀ s, I s → I (createAndSetupWorkerNode file s)) (numberOfWorkers : Nat) :
    I (started file worker numberOfWorkers) :=
  Function.Iterate.rec I hnone hnode numberOfWorkers

theorem sound_started (file : TaskFunctions) (worker : WorkerType) (numberOfWorkers : Nat) :
    Sound (started file worker numberOfWorkers) :=
  started_inv ⟨List.nodup_nil, List.forall_mem_nil _, List.forall_mem_nil _⟩ (fun _ h => h.createNode file) numberOfWorkers

end Runs

end Operations

end Poolifier
