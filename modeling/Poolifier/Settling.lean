import Poolifier.Listeners
/-!
# Operations that end

The promise of an operation sent to all workers ends at the answer that makes
its answers as many as the pool has nodes then. Its listener sees the answers
of the nodes it is registered on, so it ends if these still owe enough of them
at every change of the size (`EnoughAnswers`).
-/

namespace Poolifier

open MapLib RunLib

namespace Operations

/-- The answers that the operation `p` will still see of a node. -/
def Node.owes (p : Nat) (n : Node) : Nat :=
  if .ofWorkers p ∈ n.listeners then n.inbox.length + n.outbox.length else 0

def owed (p : Nat) (nodes : List Node) : Nat := (nodes.map (·.owes p)).sum

/-- With `size` nodes in the pool, of which `nodes` owe answers, an operation sees neither too many nor too few. -/
def State.Awaits (s : State) (nodes : List Node) (size : Nat) : Prop :=
  ∀ p < s.promises.length, ∀ q ∈ s.promises[p]?, q.toWorkers = true → q.settled = none →
    q.responsesReceived.length < size ∧ size ≤ q.responsesReceived.length + owed p nodes

instance (s : State) (nodes : List Node) (size : Nat) : Decidable (s.Awaits nodes size) := by
  unfold State.Awaits
  infer_instance

/-- The listener does not throw in a pool of `size` nodes. -/
def Listener.InRange (size : Nat) : Listener → Prop
  | .ofWorker _ key => key < size
  | .ofWorkers _ => True

instance (size : Nat) : DecidablePred (Listener.InRange size)
  | .ofWorker _ key => inferInstanceAs (Decidable (key < size))
  | .ofWorkers _ => inferInstanceAs (Decidable True)

/-- No listener throws that keeps others from the answers of a cluster worker. -/
def State.InRange (s : State) (nodes : List Node) (size : Nat) : Prop :=
  s.worker = .cluster → ∀ n ∈ nodes, ∀ l ∈ n.listeners, l.InRange size

instance (s : State) (nodes : List Node) (size : Nat) : Decidable (s.InRange nodes size) :=
  inferInstanceAs (Decidable (_ → _))

/-- An operation starts in a pool that has nodes; workers come and go where the answers owed are still enough. -/
def EnoughAnswers (s : State) : Event → Prop
  | .call c => (c.message s).isOk = true → 0 < s.workerNodes.length
  | .create _ => s.Awaits s.workerNodes (s.workerNodes.length + 1)
  | .error _ restart => restart = true → s.Awaits s.workerNodes (s.workerNodes.length + 1)
  | .exit k =>
    s.Awaits (s.workerNodes.eraseIdx k) (s.workerNodes.length - 1) ∧
      s.InRange (s.workerNodes.eraseIdx k) (s.workerNodes.length - 1)
  | _ => True

instance (s : State) : DecidablePred (EnoughAnswers s)
  | .call _ => inferInstanceAs (Decidable (_ → 0 < s.workerNodes.length))
  | .create _ => inferInstanceAs (Decidable (s.Awaits _ _))
  | .error _ _ => inferInstanceAs (Decidable (_ → s.Awaits _ _))
  | .exit _ => inferInstanceAs (Decidable (s.Awaits _ _ ∧ _))
  | .handle .. | .receive _ | .stop _ | .closeChannel _ => inferInstanceAs (Decidable True)

/-- Every operation message has been answered, and every answer has been handled. -/
def State.Quiet (s : State) : Prop := ∀ n ∈ s.workerNodes, n.inbox = [] ∧ n.outbox = []

instance (s : State) : Decidable s.Quiet := inferInstanceAs (Decidable (∀ n ∈ s.workerNodes, _))

/-! ## What nodes owe -/

section Owed
variable {p k : Nat} {n : Node} {nodes : List Node} {f : Node → Node}

theorem sum_map_modify {α : Type} (g : α → Nat) (f : α → α) {l : List α} {k : Nat} {a : α} (h : l[k]? = some a) :
    ((l.modify k f).map g).sum + g a = (l.map g).sum + g (f a) := by
  induction l generalizing k with
  | nil => cases h
  | cons b l ih =>
    cases k with
    | zero =>
      cases h
      simp only [List.modify_zero_cons, List.map_cons, List.sum_cons]
      omega
    | succ k =>
      have hrest := ih h
      simp only [List.modify_succ_cons, List.map_cons, List.sum_cons]
      omega

theorem owed_modify (hn : nodes[k]? = some n) (f : Node → Node) :
    owed p (nodes.modify k f) + n.owes p = owed p nodes + (f n).owes p := sum_map_modify _ f hn

theorem owed_modify_of_same (hf : ∀ n, nodes[k]? = some n → (f n).owes p = n.owes p) :
    owed p (nodes.modify k f) = owed p nodes := by
  rcases hn : nodes[k]? with _ | n
  · rw [List.modify_eq_self (List.getElem?_eq_none_iff.1 hn)]
  · have hsum := owed_modify (p := p) hn f
    rw [hf n hn] at hsum
    omega

theorem owes_ask_le (l : Listener) (message : OperationMessage) (n : Node) : n.owes p ≤ (n.ask l message).owes p := by
  unfold Node.owes Node.ask
  by_cases h : Listener.ofWorkers p ∈ n.listeners
  · rw [if_pos h, if_pos (List.mem_append_left _ h), List.length_append]
    dsimp only
    omega
  · rw [if_neg h]
    exact Nat.zero_le _

theorem owes_ask_self (message : OperationMessage) (n : Node) : 0 < (n.ask (.ofWorkers p) message).owes p := by
  unfold Node.owes Node.ask
  rw [if_pos (List.mem_append_right _ (List.mem_singleton.2 rfl)), List.length_append, List.length_singleton]
  omega

theorem owed_askEach_le (l : Listener) (message : OperationMessage) (nodes : List Node) :
    owed p nodes ≤ owed p (askEach l message nodes) := by
  induction nodes with
  | nil => exact le_rfl
  | cons n nodes ih =>
    unfold askEach
    split
    · have hle := owes_ask_le (p := p) l message n
      unfold owed at ih ⊢
      simp only [List.map_cons, List.sum_cons]
      omega
    · exact le_rfl

/-- Every node that is asked owes an answer. -/
theorem length_le_owed (message : OperationMessage) (nodes : List Node) :
    nodes.length ≤ owed p (nodes.map (·.ask (.ofWorkers p) message)) := by
  induction nodes with
  | nil => exact le_rfl
  | cons n nodes ih =>
    have hpos := owes_ask_self (p := p) message n
    unfold owed at ih ⊢
    simp only [List.map_cons, List.sum_cons, List.length_cons]
    omega

theorem owes_erase {l : Listener} (h : l ≠ .ofWorkers p) (n : Node) :
    Node.owes p { n with listeners := n.listeners.erase l } = n.owes p := by
  unfold Node.owes
  exact if_congr (List.mem_erase_of_ne h.symm) rfl rfl

end Owed

/-! ## The invariant -/

structure Settling (s : State) : Prop where
  awaits : s.Awaits s.workerNodes s.workerNodes.length
  inRange : s.InRange s.workerNodes s.workerNodes.length

section Events
variable {s s' : State} {k : Nat}

theorem Listener.InRange.mono {l : Listener} {size size' : Nat} (h : l.InRange size) (hle : size ≤ size') :
    l.InRange size' := by
  cases l with
  | ofWorker p key => exact Nat.lt_of_lt_of_le h hle
  | ofWorkers p => trivial

/-- A node may change so that it owes as much as before and has no listener more. -/
theorem Settling.modifyNode (h : Settling s) {f : Node → Node} {answers : List Answer}
    (hf : ∀ n, s.workerNodes[k]? = some n → (∀ p, (f n).owes p = n.owes p) ∧ (f n).listeners ⊆ n.listeners) :
    Settling { s.modifyNode k f with answers } := by
  have hlen : (s.modifyNode k f).workerNodes.length = s.workerNodes.length := List.length_modify ..
  constructor
  · intro p hp q hq hw hs
    obtain ⟨hlt, hle⟩ := h.awaits p hp q hq hw hs
    have howed : owed p (s.modifyNode k f).workerNodes = owed p s.workerNodes :=
      owed_modify_of_same fun n hn => (hf n hn).1 p
    rw [hlen, howed]
    exact ⟨hlt, hle⟩
  · intro hc m hm l hl
    rw [hlen]
    obtain ⟨i, hi⟩ := List.mem_iff_getElem?.1 hm
    obtain ⟨n, hn, ⟨-, rfl⟩ | ⟨rfl, rfl⟩⟩ := node_of_modify hi
    · exact h.inRange hc m (List.mem_of_getElem? hn) l hl
    · exact h.inRange hc n (List.mem_of_getElem? hn) l ((hf n hn).2 hl)

theorem Settling.toWorkers (h : Settling s) (hpos : 0 < s.workerNodes.length) (message : OperationMessage) :
    Settling (sendTaskFunctionOperationToWorkers message s) := by
  have hlen : (askEach (.ofWorkers s.promises.length) message s.workerNodes).length = s.workerNodes.length := by
    have hids := congrArg List.length (map_id_askEach (.ofWorkers s.promises.length) message s.workerNodes)
    simpa using hids
  unfold sendTaskFunctionOperationToWorkers
  dsimp only
  constructor
  · intro p hp q hq hw hs
    dsimp only at hq ⊢
    rw [hlen]
    rcases promise_of_concat hq with ⟨hlt, hold⟩ | ⟨rfl, rfl⟩
    · obtain ⟨hlt', hle⟩ := h.awaits p hlt q hold hw hs
      have hmore := owed_askEach_le (p := p) (.ofWorkers s.promises.length) message s.workerNodes
      exact ⟨hlt', hle.trans (Nat.add_le_add_left hmore _)⟩
    · -- sent to all nodes, or thrown
      by_cases hopen : s.workerNodes.all (·.channelOpen) = true
      · rw [askEach_of_open (List.all_eq_true.1 hopen)]
        exact ⟨hpos, (length_le_owed message s.workerNodes).trans (Nat.le_add_left ..)⟩
      · simp only [if_neg hopen] at hs
        cases hs
  · intro hc m hm l hl
    obtain ⟨i, hi⟩ := List.mem_iff_getElem?.1 hm
    rw [hlen]
    obtain ⟨n, hn, rfl | rfl⟩ := node_of_askEach hi
    · exact h.inRange hc m (List.mem_of_getElem? hn) l hl
    · rcases listeners_ask hl with hl | rfl
      · exact h.inRange hc n (List.mem_of_getElem? hn) l hl
      · trivial

theorem Settling.toWorker (h : Settling s) (hk : k < s.workerNodes.length) (message : OperationMessage) :
    Settling (sendTaskFunctionOperationToWorker k message s) := by
  have hlen : (sendTaskFunctionOperationToWorker k message s).workerNodes.length = s.workerNodes.length :=
    List.length_modify ..
  constructor
  · intro p hp q hq hw hs
    rw [hlen]
    rcases promise_of_concat hq with ⟨hlt, hold⟩ | ⟨rfl, rfl⟩
    · obtain ⟨hlt', hle⟩ := h.awaits p hlt q hold hw hs
      have hsum := owed_modify (p := p) (List.getElem?_eq_getElem hk) (·.ask (.ofWorker s.promises.length k) message)
      have hmore := owes_ask_le (p := p) (.ofWorker s.promises.length k) message s.workerNodes[k]
      refine ⟨hlt', ?_⟩
      show _ ≤ _ + owed p (s.workerNodes.modify k _)
      omega
    · cases hw
  · intro hc m hm l hl
    obtain ⟨i, hi⟩ := List.mem_iff_getElem?.1 hm
    rw [hlen]
    obtain ⟨n, hn, ⟨-, rfl⟩ | ⟨-, rfl⟩⟩ := node_of_modify hi
    · exact h.inRange hc m (List.mem_of_getElem? hn) l hl
    · rcases listeners_ask hl with hl | rfl
      · exact h.inRange hc n (List.mem_of_getElem? hn) l hl
      · exact hk

theorem Settling.createNode (h : Settling s) (hs : s.Awaits s.workerNodes (s.workerNodes.length + 1))
    (file : TaskFunctions) : Settling (createAndSetupWorkerNode file s) := by
  have hlen : (createAndSetupWorkerNode file s).workerNodes.length = s.workerNodes.length + 1 := List.length_append ..
  constructor
  · intro p hp q hq hw hsettled
    obtain ⟨hlt, hle⟩ := hs p hp q hq hw hsettled
    rw [hlen]
    refine ⟨hlt, ?_⟩
    -- the new node owes nothing
    have howed : owed p (createAndSetupWorkerNode file s).workerNodes = owed p s.workerNodes := by
      simp [owed, createAndSetupWorkerNode, Node.owes]
    rw [howed]
    exact hle
  · intro hc m hm l hl
    rw [hlen]
    rcases List.mem_append.1 hm with hm | hm
    · exact (h.inRange hc m hm l hl).mono (Nat.le_succ _)
    · rw [List.mem_singleton.1 hm] at hl
      cases hl

theorem Settling.create (h : Settling s) (hs : s.Awaits s.workerNodes (s.workerNodes.length + 1))
    (file : TaskFunctions) (dynamic : Bool) : Settling (create file dynamic s) := by
  cases dynamic with
  | false => exact h.createNode hs file
  | true =>
    have hinv : Settling (createAndSetupDynamicWorkerNode file s) ∧
        s.workerNodes.length < (createAndSetupDynamicWorkerNode file s).workerNodes.length := by
      refine createDynamic_inv (I := fun s' => Settling s' ∧ s.workerNodes.length < s'.workerNodes.length)
        ⟨h.createNode hs file, ?_⟩ ?_ ?_
      · simp [createAndSetupWorkerNode]
      · rintro s' message ⟨hs', hlt⟩ -
        refine ⟨hs'.toWorker hlt message, ?_⟩
        simpa [sendTaskFunctionOperationToWorker] using hlt
      · rintro s' ⟨hs', hlt⟩
        refine ⟨hs'.modifyNode fun n _ => ⟨fun _ => rfl, fun _ hl => hl⟩, ?_⟩
        simpa [State.modifyNode] using hlt
    exact hinv.1

theorem Settling.closeChannel (h : Settling s) (k : Nat) (worker : WorkerType) :
    Settling (s.modifyNode k (·.closeChannel worker)) := by
  refine h.modifyNode fun n _ => ?_
  cases worker <;> exact ⟨fun _ => rfl, fun _ hl => hl⟩

theorem State.Awaits.of_close {size : Nat} (h : s.Awaits s.workerNodes size) (k : Nat) (worker : WorkerType) :
    (s.modifyNode k (·.closeChannel worker)).Awaits (s.modifyNode k (·.closeChannel worker)).workerNodes size := by
  intro p hp q hq hw hs
  have howed : owed p (s.modifyNode k (·.closeChannel worker)).workerNodes = owed p s.workerNodes := by
    refine owed_modify_of_same fun n _ => ?_
    cases worker <;> rfl
  rw [howed]
  exact h p hp q hq hw hs

end Events

/-! ## Receiving an answer -/

/-- The listeners `ls` are still to run on an answer: the operations that wait there will see one more. -/
structure Counting (ls : List Listener) (s : State) : Prop where
  awaits : ∀ (p : Nat) (q : Promise), s.promises[p]? = some q → q.toWorkers = true → q.settled = none →
    q.responsesReceived.length < s.workerNodes.length ∧ s.workerNodes.length ≤
      q.responsesReceived.length + owed p s.workerNodes + if .ofWorkers p ∈ ls then 1 else 0
  inRange : s.InRange s.workerNodes s.workerNodes.length
  listeners : s.worker = .cluster → ∀ l ∈ ls, l.InRange s.workerNodes.length

section Receive
variable {s s' : State} {message : Answer} {k : Nat} {l : Listener} {ls : List Listener} {q : Promise}

theorem onPromise_toWorkers (l : Listener) : (l.onPromise s message q).toWorkers = q.toWorkers := by
  cases l with
  | ofWorker p key =>
    rw [onPromise_ofWorker]
    split <;> rfl
  | ofWorkers p =>
    rw [onPromise_ofWorkers]
    unfold Promise.receive
    dsimp only
    split <;> rfl

/-- A promise that still waits after a listener has run. -/
theorem pending_cases (h : (l.onPromise s message q).settled = none) :
    q.settled = none ∧ ((∃ p key, l = .ofWorker p key) ∧ l.onPromise s message q = q ∨
      ∃ p, l = .ofWorkers p ∧ l.onPromise s message q = q.answered message ∧
        q.responsesReceived.length + 1 ≠ s.workerNodes.length) := by
  have hsettle (q : Promise) (r : Outcome) : (q.settle r).settled ≠ none := by
    have hsome := Promise.settled_settle r q
    intro hnone
    rw [hnone] at hsome
    cases hsome
  cases l with
  | ofWorker p key =>
    rw [onPromise_ofWorker] at h ⊢
    by_cases hmatch : s.workerNodes[key]?.map (·.id) = some message.workerId
    · rw [if_pos hmatch] at h
      exact absurd h (hsettle q _)
    · rw [if_neg hmatch] at h ⊢
      exact ⟨h, .inl ⟨⟨p, key, rfl⟩, rfl⟩⟩
  | ofWorkers p =>
    rw [onPromise_ofWorkers] at h ⊢
    unfold Promise.receive at h ⊢
    dsimp only at h ⊢
    by_cases hlast : (q.answered message).responsesReceived.length = s.workerNodes.length
    · rw [if_pos hlast] at h
      exact absurd h (hsettle _ _)
    · rw [if_neg hlast] at h ⊢
      refine ⟨h, .inr ⟨p, rfl, rfl, ?_⟩⟩
      simpa [Promise.answered] using hlast

/-- A listener that runs is deregistered only if its own promise has ended. -/
theorem Ran.owed (h : Ran l message k s s') {p : Nat} {q' : Promise} (hq : s'.promises[p]? = some q')
    (hs : q'.settled = none) : owed p s'.workerNodes = owed p s.workerNodes := by
  rcases h.workerNodes with heq | ⟨hsettled, heq⟩
  · rw [heq]
  · rw [heq]
    refine owed_modify_of_same fun n _ => owes_erase ?_ n
    rintro rfl
    obtain ⟨q, hold, ⟨hne, -⟩ | ⟨-, rfl⟩⟩ := h.promise hq
    · exact hne rfl
    · have hsome := hsettled q hold
      rw [hs] at hsome
      cases hsome

/-- Where the listener that runs is not one of the operation, as many answers are to come without it. -/
theorem Counting.awaits_of_ne (h : Counting (l :: ls) s) {p : Nat} (hne : .ofWorkers p ≠ l)
    (hq : s.promises[p]? = some q) (hw : q.toWorkers = true) (hs : q.settled = none) :
    q.responsesReceived.length < s.workerNodes.length ∧ s.workerNodes.length ≤
      q.responsesReceived.length + owed p s.workerNodes + if .ofWorkers p ∈ ls then 1 else 0 := by
  have hmem : Listener.ofWorkers p ∈ l :: ls ↔ Listener.ofWorkers p ∈ ls :=
    ⟨List.mem_of_ne_of_mem hne, List.mem_cons_of_mem l⟩
  have hwaits := h.awaits p q hq hw hs
  rwa [if_congr hmem rfl rfl] at hwaits

theorem Counting.ran (h : Counting (l :: ls) s) (he : Emits message k (l :: ls) s) (hr : Ran l message k s s') :
    Counting ls s' := by
  have hworker : s'.worker = s.worker := by rw [hr.rest]
  constructor
  · intro p q' hq' hw hs
    rw [hr.length, hr.owed hq' hs]
    obtain ⟨q, hq, ⟨hne, rfl⟩ | ⟨rfl, rfl⟩⟩ := hr.promise hq'
    · refine h.awaits_of_ne ?_ hq hw hs
      rintro rfl
      exact hne rfl
    · rw [onPromise_toWorkers] at hw
      obtain ⟨hpending, hcase⟩ := pending_cases hs
      rcases hcase with ⟨⟨p, key, rfl⟩, heq⟩ | ⟨p, rfl, heq, hne⟩
      · rw [heq]
        exact h.awaits_of_ne (by rintro ⟨⟩) hq hw hpending
      · -- one answer more has been received, and one less is to come
        obtain ⟨hlt, hle⟩ := h.awaits _ q hq hw hpending
        have hnot : Listener.ofWorkers p ∉ ls := fun hm => he.operation_ne _ hm rfl
        rw [Listener.operation, if_pos List.mem_cons_self] at hle
        rw [heq, Listener.operation, if_neg hnot]
        simp only [Promise.answered, List.length_append, List.length_singleton]
        omega
  · intro hc m hm l' hl'
    rw [hr.length]
    obtain ⟨i, hi⟩ := List.mem_iff_getElem?.1 hm
    rw [hworker] at hc
    obtain ⟨n, hn, rfl | ⟨-, rfl⟩⟩ := hr.node hi
    · exact h.inRange hc m (List.mem_of_getElem? hn) l' hl'
    · exact h.inRange hc n (List.mem_of_getElem? hn) l' (List.erase_subset hl')
  · intro hc l' hl'
    rw [hr.length]
    rw [hworker] at hc
    exact h.listeners hc l' (List.mem_cons_of_mem _ hl')

theorem Counting.skip {p key : Nat} (h : Counting (.ofWorker p key :: ls) s) : Counting ls s := by
  refine ⟨fun p' q hq hw hs => h.awaits_of_ne (by rintro ⟨⟩) hq hw hs, h.inRange, fun hc l' hl' => ?_⟩
  exact h.listeners hc l' (List.mem_cons_of_mem _ hl')

theorem Counting.emit (h : Counting ls s) (he : Emits message k ls s) : Settling (emit message ls s) := by
  refine he.emit_inv (J := Counting) (fun l ls s s' he hj _ hr => hj.ran he hr) ?_ ?_ ?_ h
  · exact fun p key ls s hj _ _ => hj.skip
  · intro p key ls s hj hle hc
    have hlt : key < s.workerNodes.length := hj.listeners hc _ List.mem_cons_self
    omega
  · intro s hj
    refine ⟨fun p _ q hq hw hs => ?_, hj.inRange⟩
    have hwaits := hj.awaits p q hq hw hs
    rwa [if_neg List.not_mem_nil] at hwaits

theorem Settling.receive (h : Settling s) (hsound : Sound s) {n : Node} {a : Answer} {outbox : List Answer}
    (hn : s.workerNodes[k]? = some n) (hout : n.outbox = a :: outbox) :
    Settling (emit a n.listeners (s.modifyNode k fun n => { n with outbox := outbox })) := by
  have hlen : (s.modifyNode k fun n => { n with outbox := outbox }).workerNodes.length = s.workerNodes.length :=
    List.length_modify ..
  refine Counting.emit ⟨fun p q hq hw hs => ?_, ?_, ?_⟩ (hsound.emits hn hout)
  · obtain ⟨hlt, hle⟩ := h.awaits p (List.getElem?_eq_some_iff.1 hq).1 q hq hw hs
    rw [hlen]
    refine ⟨hlt, ?_⟩
    have hsum := owed_modify (p := p) hn fun n => { n with outbox := outbox }
    show _ ≤ _ + owed p (s.workerNodes.modify k _) + _
    by_cases hl : Listener.ofWorkers p ∈ n.listeners
    · simp only [Node.owes, if_pos hl, hout, List.length_cons] at hsum
      rw [if_pos hl]
      omega
    · simp only [Node.owes, if_neg hl] at hsum
      rw [if_neg hl]
      omega
  · intro hc m hm l hl
    rw [hlen]
    obtain ⟨n', hn', rfl | rfl⟩ := mem_of_modify hm
    · exact h.inRange hc m hn' l hl
    · exact h.inRange hc n' hn' l hl
  · intro hc l hl
    rw [hlen]
    exact h.inRange hc n (List.mem_of_getElem? hn) l hl

end Receive

/-! ## Every run -/

section Runs
variable {evaluate : String → Evaluated} {file : TaskFunctions} {s s' : State}

theorem Settling.step {e : Event} (h : Settling s) (hsound : Sound s) (hok : EnoughAnswers s e)
    (ht : Step evaluate file s e s') : Settling s' := by
  cases takes_of_step ht with
  | call c =>
    unfold Operations.call
    split
    · exact h
    · rename_i message hm
      refine h.toWorkers (hok ?_) message
      rw [hm]
      rfl
  | handle hn hlive hin ha =>
    -- a message is taken, and an answer given
    refine h.modifyNode fun m hm => ⟨fun p => ?_, fun _ hl => hl⟩
    rw [hn] at hm
    cases hm
    simp only [Node.owes, hin, List.length_cons, List.length_append, List.length_nil]
    split <;> omega
  | throw hn hlive hin ha => exact h.modifyNode fun n _ => ⟨fun _ => rfl, fun _ hl => hl⟩
  | receive hn hopen hout => exact h.receive hsound hn hout
  | create dynamic => exact h.create hok file dynamic
  | error => exact h.closeChannel _ _
  | @restart k n hn =>
    have hawaits := (hok rfl).of_close k s.worker
    have hlen : (s.modifyNode k (·.closeChannel s.worker)).workerNodes.length = s.workerNodes.length :=
      List.length_modify ..
    rw [← hlen] at hawaits
    exact (h.closeChannel _ _).create hawaits file _
  | stop => exact h.modifyNode fun n _ => ⟨fun _ => rfl, fun _ hl => hl⟩
  | closeChannel => exact h.closeChannel _ _
  | @exit k hk =>
    have hlen : (s.workerNodes.eraseIdx k).length = s.workerNodes.length - 1 := List.length_eraseIdx_of_lt hk
    obtain ⟨hawaits, hrange⟩ := hok
    rw [← hlen] at hawaits hrange
    exact ⟨hawaits, hrange⟩

theorem settling_started (file : TaskFunctions) (worker : WorkerType) (numberOfWorkers : Nat) :
    Settling (started file worker numberOfWorkers) := by
  have h : Settling (started file worker numberOfWorkers) ∧ (started file worker numberOfWorkers).promises = [] := by
    refine started_inv (I := fun s => Settling s ∧ s.promises = []) ⟨⟨(by rintro _ ⟨⟩), fun _ => List.forall_mem_nil _⟩, rfl⟩ ?_ _
    rintro s ⟨hs, hnone⟩
    refine ⟨hs.createNode (fun p hp => ?_) file, hnone⟩
    rw [hnone] at hp
    exact absurd hp (Nat.not_lt_zero p)
  exact h.1

/-- Where enough answers are owed, an operation has ended once there is nothing left to answer or to handle. -/
theorem settled_of_quiet {worker : WorkerType} {numberOfWorkers : Nat} {es : List Event}
    (h : Run (Guarded EnoughAnswers (Step evaluate file)) (started file worker numberOfWorkers) es s)
    (hquiet : s.Quiet) {p : Nat} {q : Promise} (hq : s.promises[p]? = some q) (hw : q.toWorkers = true) :
    q.settled.isSome = true := by
  have hinv : Sound s ∧ Settling s := by
    refine h.inv (fun s => Sound s ∧ Settling s)
      ⟨sound_started file worker numberOfWorkers, settling_started file worker numberOfWorkers⟩ ?_
    rintro s e s' ⟨hsound, hsettling⟩ ⟨hok, ht⟩
    exact ⟨hsound.step ht, hsettling.step hsound hok ht⟩
  have howed : owed p s.workerNodes = 0 := by
    refine List.sum_eq_zero_iff_forall_eq_nat.2 fun x hx => ?_
    obtain ⟨n, hn, rfl⟩ := List.mem_map.1 hx
    obtain ⟨hin, hout⟩ := hquiet n hn
    simp [Node.owes, hin, hout]
  rcases hs : q.settled with _ | r
  · obtain ⟨hlt, hle⟩ := hinv.2.awaits p (List.getElem?_eq_some_iff.1 hq).1 q hq hw hs
    omega
  · rfl

/-- One of three workers leaves while they add a function, before its answer. -/
theorem settled_of_quiet_exit : ∃ s, Run (Guarded EnoughAnswers (Step (fun _ => .function) (.ofFunction "fn" "f")))
    (started (.ofFunction "fn" "f") .cluster 3)
    [.call (.addTaskFunction "added" "g"), .handle 1 none, .exit 0, .receive 0, .handle 1 none, .receive 1] s ∧
      s.workerNodes.length = 2 ∧ s.promises.length = 1 ∧
      ∀ q, s.promises[0]? = some q → q.toWorkers = true → q.settled.isSome = true := by
  have h : (replay (nextWhere EnoughAnswers (next (fun _ => .function) (.ofFunction "fn" "f")))
      (started (.ofFunction "fn" "f") .cluster 3) [.call (.addTaskFunction "added" "g"), .handle 1 none, .exit 0,
        .receive 0, .handle 1 none, .receive 1]).any (fun s =>
          decide (s.Quiet ∧ s.workerNodes.length = 2 ∧ s.promises.length = 1)) = true := by
    decide +kernel
  obtain ⟨s, hr, hquiet, hnodes, hpromises⟩ := exists_run_of_replay
    (P := fun s : State => s.Quiet ∧ s.workerNodes.length = 2 ∧ s.promises.length = 1)
    (guarded_of_nextWhere fun _ _ _ hs => hs) h
  exact ⟨s, hr, hnodes, hpromises, fun q hq hw => settled_of_quiet hr hquiet hq hw⟩

/-- An operation of a pool without workers waits for an answer that nobody owes. -/
theorem pending_without_workers : ¬ ∀ (evaluate : String → Evaluated) (file : TaskFunctions) (worker : WorkerType)
    (numberOfWorkers : Nat) (es : List Event) (s : State),
    Run (Step evaluate file) (started file worker numberOfWorkers) es s → s.Quiet →
      ∀ (p : Nat) (q : Promise), s.promises[p]? = some q → q.toWorkers = true → q.settled.isSome = true := by
  intro h
  have hrun : (replay (next (fun _ => .function) (.ofFunction "fn" "f")) (started (.ofFunction "fn" "f") .thread 0)
      [.call (.addTaskFunction "added" "g")]).any (fun s => decide (s.Quiet ∧
        ∃ q ∈ s.promises[0]?, Promise.toWorkers q = true ∧ Promise.settled q = none)) = true := by
    decide +kernel
  obtain ⟨s, hr, hquiet, q, hq, hw, hs⟩ := exists_run_of_replay
    (P := fun s : State => s.Quiet ∧ ∃ q ∈ s.promises[0]?, Promise.toWorkers q = true ∧ Promise.settled q = none)
    (fun _ _ _ hs => hs) hrun
  have hsome := h _ _ _ _ _ s hr hquiet 0 q (Option.mem_def.1 hq) hw
  rw [hs] at hsome
  cases hsome

end Runs

end Operations

end Poolifier
