import Mathlib.Data.List.Perm.Subperm
import Mathlib.Data.List.TakeWhile
import Poolifier.Listeners
/-!
# Whose answers an operation counts

A listener takes every answer that reaches it for one to its own operation.
That is right as long as an operation starts when no worker it is sent to owes
an answer, and no listener of an earlier one is still waiting there
(`OwnAnswers`). Then a promise is fulfilled only once every worker has answered
its operation, and rejected only for an answer to it.
-/

namespace Poolifier

open MapLib RunLib

namespace Operations

/-- A worker has sent an answer to an operation. -/
def Answered (answers : List Answer) (p workerId : Nat) (status : Bool) : Prop :=
  ∃ a ∈ answers, a.operation = p ∧ a.workerId = workerId ∧ a.taskFunctionOperationStatus = status

instance (answers : List Answer) (p workerId : Nat) (status : Bool) : Decidable (Answered answers p workerId status) :=
  inferInstanceAs (Decidable (∃ a ∈ answers, _))

/-- A promise has not ended, or as the answers of its workers say. -/
def Promise.Right (answers : List Answer) (p : Nat) (q : Promise) : Prop :=
  match q.settled with
  | none => True
  | some .resolved => ∀ w ∈ q.targets, Answered answers p w true
  | some _ => ∃ w ∈ q.targets, Answered answers p w false

instance (answers : List Answer) (p : Nat) (q : Promise) : Decidable (q.Right answers p) := by
  unfold Promise.Right
  split <;> infer_instance

/-- The operations of which a node may still hand the pool an answer. -/
def Node.due (n : Node) : List Nat :=
  if n.channelOpen then
    n.outbox.map (·.operation) ++ if n.live then n.inbox.map (·.operation) else []
  else []

def State.Pending (s : State) (p : Nat) : Prop := ∃ q ∈ s.promises[p]?, q.settled = none

instance (s : State) (p : Nat) : Decidable (s.Pending p) := by
  unfold State.Pending
  infer_instance

/-- A listener that waits, and would take an answer of the node for one to its operation. -/
def Listener.Counts (s : State) (n : Node) : Listener → Prop
  | .ofWorker p key => s.Pending p ∧ s.workerNodes[key]?.map (·.id) = some n.id
  | .ofWorkers p => s.Pending p

instance (s : State) (n : Node) : DecidablePred (Listener.Counts s n)
  | .ofWorker p _ => inferInstanceAs (Decidable (s.Pending p ∧ _))
  | .ofWorkers p => inferInstanceAs (Decidable (s.Pending p))

/-- With `n` nodes in the pool, a promise does not end before all its workers have answered. -/
def Promise.Suits (n : Nat) (q : Promise) : Prop := q.targets.length ≤ n ∨ n ≤ q.responsesReceived.length

instance (n : Nat) (q : Promise) : Decidable (q.Suits n) := inferInstanceAs (Decidable (_ ∨ _))

/-- The promises that `nodes` have listeners for suit `n` nodes. -/
def State.Suits (s : State) (nodes : List Node) (n : Nat) : Prop :=
  ∀ m ∈ nodes, ∀ l ∈ m.listeners, ∀ q ∈ s.promises[l.operation]?, q.settled = none → q.Suits n

instance (s : State) (nodes : List Node) (n : Nat) : Decidable (s.Suits nodes n) := by
  unfold State.Suits
  infer_instance

/-- A worker joins where no operation would end too early for it, and is sent no more than one operation. -/
def State.Joins (s : State) (dynamic : Bool) : Prop :=
  s.Suits s.workerNodes (s.workerNodes.length + 1) ∧ (dynamic = true → s.taskFunctions.entries.length ≤ 1)

instance (s : State) (dynamic : Bool) : Decidable (s.Joins dynamic) := inferInstanceAs (Decidable (_ ∧ _))

/-- An operation starts where every channel is open, no worker owes an answer and no listener counts; workers
come and go where no operation in progress would end too early for it. -/
def OwnAnswers (s : State) : Event → Prop
  | .call c => (c.message s).isOk = true →
    ∀ n ∈ s.workerNodes, n.channelOpen = true ∧ n.due = [] ∧ ∀ l ∈ n.listeners, ¬ l.Counts s n
  | .create dynamic => s.Joins dynamic
  | .error k restart => restart = true → ∀ n ∈ s.workerNodes[k]?, s.Joins n.dynamic
  | .exit k => s.Suits (s.workerNodes.eraseIdx k) (s.workerNodes.length - 1)
  | _ => True

instance (s : State) : DecidablePred (OwnAnswers s)
  | .call _ => inferInstanceAs (Decidable (_ → ∀ n ∈ s.workerNodes, _))
  | .create dynamic => inferInstanceAs (Decidable (s.Joins dynamic))
  | .error _ _ => inferInstanceAs (Decidable (_ → _))
  | .exit _ => inferInstanceAs (Decidable (s.Suits _ _))
  | .handle .. | .receive _ | .stop _ | .closeChannel _ => inferInstanceAs (Decidable True)

/-! ## The invariant -/

def Promise.responders (q : Promise) : List Nat := q.responsesReceived.map (·.workerId)

/-- What a waiting listener of the node `n`, with key `i`, will take for answers to its operation are answers to it. -/
def Listener.Attributed (i : Nat) (n : Node) (q : Promise) : Listener → Prop
  | .ofWorker p key => q.targets = [n.id] ∧ i ≤ key ∧ (i = key → ∀ p' ∈ n.due, p' = p)
  | .ofWorkers p => n.id ∈ q.targets ∧ ∀ p' ∈ n.due, p' = p ∧ n.id ∉ q.responders

structure Node.Attributed (promises : List Promise) (answers : List Answer) (i : Nat) (n : Node) : Prop where
  outbox : n.outbox ⊆ answers
  due : n.due.length ≤ 1
  listener : ∀ l ∈ n.listeners, ∀ q, promises[l.operation]? = some q → q.settled = none → l.Attributed i n q

/-- The answers received by a promise that waits are answers to its operation, one from each worker. -/
structure Promise.Received (answers : List Answer) (p : Nat) (q : Promise) : Prop where
  answer : ∀ r ∈ q.responsesReceived, r.operation = p ∧ r ∈ answers ∧ r.workerId ∈ q.targets
  nodup : q.responders.Nodup

structure Attributed (s : State) : Prop where
  node : ∀ (i : Nat) (n : Node), s.workerNodes[i]? = some n → n.Attributed s.promises s.answers i
  received : ∀ (p : Nat) (q : Promise), s.promises[p]? = some q → q.settled = none → q.Received s.answers p
  suits : s.Suits s.workerNodes s.workerNodes.length
  right : ∀ (p : Nat) (q : Promise), s.promises[p]? = some q → q.Right s.answers p

/-! ## Promises -/

namespace Promise
variable {q : Promise} {message : Answer} {n : Nat}

theorem receive_targets : (q.receive n message).targets = q.targets := by
  unfold receive
  dsimp only
  split <;> rfl

theorem receive_settled (h : q.settled.isSome = true) : (q.receive n message).settled = q.settled := by
  unfold receive
  dsimp only
  split
  · rw [settle_of_settled (by exact h)]
    rfl
  · rfl

/-- A promise that waits goes on waiting, or all answers are there. -/
theorem receive_pending (h : q.settled = none) :
    (q.responsesReceived.length + 1 ≠ n ∧ q.receive n message = q.answered message) ∨
      q.responsesReceived.length + 1 = n ∧
        (q.receive n message).settled = some (outcome (q.responsesReceived ++ [message]) message) := by
  by_cases heq : q.responsesReceived.length + 1 = n
  · refine .inr ⟨heq, ?_⟩
    unfold receive
    dsimp only
    rw [if_pos ((length_answered message q).trans heq), settle_of_pending (by exact h)]
    rfl
  · exact .inl ⟨heq, receive_of_ne heq⟩

end Promise

theorem Answered.mono {answers answers' : List Answer} {p w : Nat} {b : Bool} (h : Answered answers p w b)
    (hsub : answers ⊆ answers') : Answered answers' p w b := by
  obtain ⟨a, ha, hp⟩ := h
  exact ⟨a, hsub ha, hp⟩

theorem Promise.Right.mono {answers answers' : List Answer} {p : Nat} {q : Promise} (h : q.Right answers p)
    (hsub : answers ⊆ answers') : q.Right answers' p := by
  unfold Promise.Right at h ⊢
  split at h
  · trivial
  · exact fun w hw => (h w hw).mono hsub
  · obtain ⟨w, hw, ha⟩ := h
    exact ⟨w, hw, ha.mono hsub⟩

theorem Promise.right_of_pending {answers : List Answer} {p : Nat} {q : Promise} (h : q.settled = none) :
    q.Right answers p := by
  unfold Promise.Right
  rw [h]
  trivial

/-- Answers to the operation from all of its workers settle its promise rightly. -/
theorem Promise.Received.right {answers : List Answer} {p : Nat} {q : Promise} {message : Answer}
    (h : q.Received answers p) (hall : q.targets.length ≤ q.responsesReceived.length)
    (hs : q.settled = some (outcome q.responsesReceived message)) : q.Right answers p := by
  have hresponder (w : Nat) (hw : w ∈ q.targets) : ∃ r ∈ q.responsesReceived, r.workerId = w := by
    have hsub : q.responders ⊆ q.targets := by
      intro x hx
      obtain ⟨r, hr, rfl⟩ := List.mem_map.1 hx
      exact (h.answer r hr).2.2
    have hperm : q.responders.Perm q.targets :=
      (List.subperm_of_subset h.nodup hsub).perm_of_length_le (by simpa [Promise.responders] using hall)
    obtain ⟨r, hr, hrw⟩ := List.mem_map.1 (hperm.symm.subset hw)
    exact ⟨r, hr, hrw⟩
  rcases hf : q.responsesReceived.find? (fun r => !r.taskFunctionOperationStatus) with _ | e
  · have hout : outcome q.responsesReceived message = .resolved := by
      unfold outcome
      rw [hf]
    rw [Promise.Right, hs, hout]
    intro w hw
    obtain ⟨r, hr, hrw⟩ := hresponder w hw
    obtain ⟨hp, hmem, -⟩ := h.answer r hr
    have htrue := List.find?_eq_none.1 hf r hr
    exact ⟨r, hmem, hp, hrw, by simpa using htrue⟩
  · have hout : outcome q.responsesReceived message =
        .rejected message.taskFunctionOperation e.workerId e.workerError := by
      unfold outcome
      rw [hf]
    rw [Promise.Right, hs, hout]
    have hmem := List.mem_of_find?_eq_some hf
    obtain ⟨hp, hans, htarget⟩ := h.answer e hmem
    have hfalse := List.find?_some hf
    exact ⟨e.workerId, htarget, e, hans, hp, rfl, by simpa using hfalse⟩

/-! ## Changing a node -/

theorem Node.Attributed.mono {promises promises' : List Promise} {answers answers' : List Answer} {i : Nat} {n : Node}
    (h : n.Attributed promises answers i) (hsub : answers ⊆ answers')
    (hp : ∀ l ∈ n.listeners, ∀ q, promises'[l.operation]? = some q → q.settled = none →
      promises[l.operation]? = some q) : n.Attributed promises' answers' i where
  outbox := List.Subset.trans h.outbox hsub
  due := h.due
  listener l hl q hq hs := h.listener l hl q (hp l hl q hq hs) hs

/-- A waiting listener is right about a node that owes no more than before. -/
theorem Listener.Attributed.of_due {i : Nat} {n n' : Node} {q : Promise} {l : Listener} (h : l.Attributed i n q)
    (hid : n'.id = n.id) (hdue : n'.due ⊆ n.due) : l.Attributed i n' q := by
  cases l with
  | ofWorker p key =>
    obtain ⟨htarget, hle, hown⟩ := h
    exact ⟨by rw [hid, htarget], hle, fun hik p' hp' => hown hik p' (hdue hp')⟩
  | ofWorkers p =>
    obtain ⟨htarget, hown⟩ := h
    refine ⟨by rwa [hid], fun p' hp' => ?_⟩
    rw [hid]
    exact hown p' (hdue hp')

theorem Node.Attributed.lessened {promises : List Promise} {answers : List Answer} {i : Nat} {n n' : Node}
    (h : n.Attributed promises answers i) (hid : n'.id = n.id) (hl : n'.listeners ⊆ n.listeners)
    (hdue : n'.due.Sublist n.due) (hout : n'.outbox ⊆ answers) : n'.Attributed promises answers i where
  outbox := hout
  due := hdue.length_le.trans h.due
  listener l hm q hq hs := (h.listener l (hl hm) q hq hs).of_due hid hdue.subset

/-- A node may change so that it owes no more and has no listener more, as answers are sent. -/
theorem Attributed.modifyNode {s : State} (h : Attributed s) {k : Nat} {f : Node → Node} {answers : List Answer}
    (hsub : s.answers ⊆ answers)
    (hf : ∀ n, s.workerNodes[k]? = some n → (f n).id = n.id ∧ (f n).listeners ⊆ n.listeners ∧
      (f n).due.Sublist n.due ∧ (f n).outbox ⊆ answers) : Attributed { s.modifyNode k f with answers } := by
  have hnode (i : Nat) (n' : Node) (hn' : (s.modifyNode k f).workerNodes[i]? = some n') :
      n'.Attributed s.promises answers i ∧ ∃ n, s.workerNodes[i]? = some n ∧ n'.listeners ⊆ n.listeners := by
    obtain ⟨n, hn, hcase⟩ := node_of_modify hn'
    have hmono := (h.node i n hn).mono hsub fun _ _ _ hq _ => hq
    rcases hcase with ⟨-, rfl⟩ | ⟨rfl, rfl⟩
    · exact ⟨hmono, n', hn, fun _ hl => hl⟩
    · obtain ⟨hid, hl, hdue, hout⟩ := hf n hn
      exact ⟨hmono.lessened hid hl hdue hout, n, hn, hl⟩
  have hlen : (s.modifyNode k f).workerNodes.length = s.workerNodes.length := List.length_modify ..
  constructor
  · exact fun i n' hn' => (hnode i n' hn').1
  · intro p q hq hs
    have hr := h.received p q hq hs
    exact ⟨fun r hr' => ⟨(hr.answer r hr').1, hsub (hr.answer r hr').2.1, (hr.answer r hr').2.2⟩, hr.nodup⟩
  · intro m hm l hl q hq hs
    obtain ⟨i, hi⟩ := List.mem_iff_getElem?.1 hm
    obtain ⟨-, n, hn, hsub'⟩ := hnode i m hi
    show q.Suits (s.modifyNode k f).workerNodes.length
    rw [hlen]
    exact h.suits n (List.mem_of_getElem? hn) l (hsub' hl) q hq hs
  · exact fun p q hq => (h.right p q hq).mono hsub

/-! ## Receiving an answer -/

/-- A waiting listener of the node `k` that takes the answer for one to its operation is right. -/
def Listener.Takes (k : Nat) (message : Answer) (q : Promise) : Listener → Prop
  | .ofWorker p key => k = key → message.operation = p
  | .ofWorkers p => message.operation = p ∧ message.workerId ∉ q.responders

/-- The listeners `ls` of the node `k` are still to run on the last answer that its worker owed. -/
structure Emitting (message : Answer) (k : Nat) (ls : List Listener) (s : State) : Prop where
  attributed : Attributed s
  due : ∀ n : Node, s.workerNodes[k]? = some n → n.due = []
  sent : message ∈ s.answers
  own : ∀ l ∈ ls, ∀ q, s.promises[l.operation]? = some q → q.settled = none → l.Takes k message q

section Receive
variable {s s' : State} {message : Answer} {k : Nat} {l : Listener} {ls : List Listener} {q : Promise}

theorem onPromise_targets (l : Listener) : (l.onPromise s message q).targets = q.targets := by
  cases l with
  | ofWorker p key =>
    rw [onPromise_ofWorker]
    split <;> rfl
  | ofWorkers p => exact Promise.receive_targets

theorem onPromise_settled (l : Listener) (h : q.settled.isSome = true) :
    (l.onPromise s message q).settled = q.settled := by
  cases l with
  | ofWorker p key =>
    rw [onPromise_ofWorker]
    split
    · rw [Promise.settle_of_settled h]
    · rfl
  | ofWorkers p => exact Promise.receive_settled h

/-- The answer of the one worker that an operation was sent to. -/
theorem right_of_answer {answers : List Answer} {p : Nat} (hm : message ∈ answers) (hp : message.operation = p)
    (ht : q.targets = [message.workerId]) (hs : q.settled = some message.outcome) : q.Right answers p := by
  unfold Answer.outcome at hs
  by_cases hstatus : message.taskFunctionOperationStatus = true
  · rw [if_pos hstatus] at hs
    rw [Promise.Right, hs, ht]
    intro w hw
    exact ⟨message, hm, hp, (List.mem_singleton.1 hw).symm, hstatus⟩
  · rw [if_neg hstatus] at hs
    rw [Promise.Right, hs, ht]
    exact ⟨message.workerId, List.mem_singleton.2 rfl, message, hm, hp, rfl, by simpa using hstatus⟩

theorem pending_of_onPromise (h : (l.onPromise s message q).settled = none) : q.settled = none := by
  rcases hq : q.settled with _ | r
  · rfl
  · rw [onPromise_settled l (by rw [hq]; rfl), hq] at h
    cases h

theorem Emitting.waiting (h : Emitting message k (l :: ls) s) (he : Emits message k (l :: ls) s) (hq : s.promises[l.operation]? = some q)
    (hs : q.settled = none) : l.Takes k message q ∧ q.Received s.answers l.operation ∧
      q.Suits s.workerNodes.length ∧ ∃ n, s.workerNodes[k]? = some n ∧ n.id = message.workerId ∧ l.Attributed k n q := by
  obtain ⟨n, hn, hid, hsub⟩ := he.node
  have hl : l ∈ n.listeners := hsub List.mem_cons_self
  exact ⟨h.own l List.mem_cons_self q hq hs, h.attributed.received _ q hq hs,
    h.attributed.suits n (List.mem_of_getElem? hn) l hl q hq hs, n, hn, hid,
    (h.attributed.node k n hn).listener l hl q hq hs⟩

theorem responders_answered (q : Promise) (message : Answer) :
    (q.answered message).responders = q.responders ++ [message.workerId] := by
  simp [Promise.responders, Promise.answered]

/-- An answer from a worker that had not answered the operation is one more to it. -/
theorem Promise.Received.answered {answers : List Answer} {p : Nat} (h : q.Received answers p) (hp : message.operation = p)
    (hm : message ∈ answers) (ht : message.workerId ∈ q.targets) (hnew : message.workerId ∉ q.responders) :
    (q.answered message).Received answers p := by
  constructor
  · intro r hr
    rcases List.mem_append.1 hr with hr | hr
    · exact h.answer r hr
    · rw [List.mem_singleton.1 hr]
      exact ⟨hp, hm, ht⟩
  · rw [responders_answered, List.nodup_append]
    refine ⟨h.nodup, List.nodup_singleton _, ?_⟩
    intro a ha b hb hab
    rw [List.mem_singleton.1 hb] at hab
    exact hnew (hab ▸ ha)

/-- What a listener makes of a promise that waits: it ends rightly, or goes on waiting. -/
theorem Emitting.onPromise (h : Emitting message k (l :: ls) s) (he : Emits message k (l :: ls) s)
    (hq : s.promises[l.operation]? = some q) (hs : q.settled = none) : (l.onPromise s message q).Right s.answers l.operation ∧
      ((l.onPromise s message q).settled = none → (l.onPromise s message q).Received s.answers l.operation ∧
        (l.onPromise s message q).Suits s.workerNodes.length ∧
        ∀ w ∈ (l.onPromise s message q).responders, w ∈ q.responders ∨ w = message.workerId) := by
  obtain ⟨htakes, hreceived, hsuits, n, hn, hid, hattr⟩ := h.waiting he hq hs
  cases l with
  | ofWorker p key =>
    obtain ⟨htargets, -, -⟩ := hattr
    rw [onPromise_ofWorker]
    split
    · rename_i hmatch
      obtain ⟨m, hm, hmid⟩ := Option.map_eq_some_iff.1 hmatch
      have hk : k = key := he.sound.key_of_id hn hm (hid.trans hmid.symm)
      rw [Promise.settle_of_pending hs]
      refine ⟨right_of_answer h.sent (htakes hk) ?_ rfl, (by rintro ⟨⟩)⟩
      rw [← hid]
      exact htargets
    · exact ⟨Promise.right_of_pending hs, fun _ => ⟨hreceived, hsuits, fun w hw => .inl hw⟩⟩
  | ofWorkers p =>
    obtain ⟨hp, hnew⟩ := htakes
    obtain ⟨htarget, -⟩ := hattr
    have hanswered : (q.answered message).Received s.answers p :=
      hreceived.answered hp h.sent (hid ▸ htarget) hnew
    rw [onPromise_ofWorkers]
    rcases Promise.receive_pending hs with ⟨hne, heq⟩ | ⟨heq, hsettled⟩
    · rw [heq]
      refine ⟨Promise.right_of_pending hs, fun _ => ⟨hanswered, ?_, ?_⟩⟩
      · refine hsuits.imp id fun hle => ?_
        simp only [Promise.answered, List.length_append, List.length_singleton]
        omega
      · intro w hw
        rw [responders_answered] at hw
        exact (List.mem_append.1 hw).imp id List.mem_singleton.1
    · refine ⟨?_, fun hnone => by rw [hsettled] at hnone; cases hnone⟩
      have hall : q.targets.length ≤ s.workerNodes.length := hsuits.resolve_right (by omega)
      have hsame : Promise.receive s.workerNodes.length message q =
          (q.answered message).settle (outcome (q.answered message).responsesReceived message) :=
        if_pos (by simpa [Promise.answered] using heq)
      rw [hsame, Promise.settle_of_pending (by exact hs)]
      have hlast : (⟨q.message, q.toWorkers, q.targets, q.responsesReceived ++ [message],
          some (outcome (q.responsesReceived ++ [message]) message)⟩ : Promise).Received s.answers p :=
        ⟨hanswered.answer, hanswered.nodup⟩
      refine hlast.right ?_ rfl
      simp only [List.length_append, List.length_singleton]
      omega

end Receive

section Receive
variable {s s' : State} {message : Answer} {k : Nat} {l : Listener} {ls : List Listener}

theorem Ran.node_same (h : Ran l message k s s') {i : Nat} {n' : Node} (hn : s'.workerNodes[i]? = some n') :
    ∃ n, s.workerNodes[i]? = some n ∧ n'.id = n.id ∧ n'.due = n.due ∧ n'.outbox = n.outbox ∧
      n'.listeners ⊆ n.listeners := by
  obtain ⟨n, hm, rfl | ⟨-, rfl⟩⟩ := h.node hn
  · exact ⟨n', hm, rfl, rfl, rfl, fun _ hl => hl⟩
  · exact ⟨n, hm, rfl, rfl, rfl, List.erase_subset⟩

/-- What waits after a listener has run waited before, and is right about a node still. -/
theorem Emitting.listener_of_ran (h : Emitting message k (l :: ls) s) (he : Emits message k (l :: ls) s)
    {l' : Listener} {i : Nat} {n n' : Node} {q : Promise} (hn : s.workerNodes[i]? = some n) (hid : n'.id = n.id)
    (hdue : n'.due = n.due) (hq : s.promises[l.operation]? = some q) (hs : (l.onPromise s message q).settled = none)
    (hold : l'.Attributed i n q) : l'.Attributed i n' (l.onPromise s message q) := by
  obtain ⟨-, hwaits⟩ := h.onPromise he hq (pending_of_onPromise hs)
  obtain ⟨-, -, hresponders⟩ := hwaits hs
  cases l' with
  | ofWorker p key =>
    obtain ⟨htargets, hle, hown⟩ := hold
    refine ⟨by rw [onPromise_targets, hid, htargets], hle, ?_⟩
    rw [hdue]
    exact hown
  | ofWorkers p =>
    obtain ⟨htarget, hown⟩ := hold
    refine ⟨by rwa [onPromise_targets, hid], fun p' hp' => ?_⟩
    rw [hdue] at hp'
    obtain ⟨hp, hnot⟩ := hown p' hp'
    refine ⟨hp, fun hmem => ?_⟩
    rw [hid] at hmem
    rcases hresponders _ hmem with hold | hnew
    · exact hnot hold
    · -- the node of the answer owes nothing now
      obtain ⟨m, hm, hmid, -⟩ := he.node
      have hik := he.sound.key_of_id hn hm (hnew.trans hmid.symm)
      subst hik
      rw [h.due n hn] at hp'
      cases hp'

theorem Emitting.attributed_of_ran (h : Emitting message k (l :: ls) s) (he : Emits message k (l :: ls) s)
    (hr : Ran l message k s s') : Attributed s' := by
  have hanswers : s'.answers = s.answers := by rw [hr.rest]
  constructor
  · intro i n' hn'
    obtain ⟨n, hn, hid, hdue, hout, hsub⟩ := hr.node_same hn'
    have hattr := h.attributed.node i n hn
    refine ⟨?_, by rw [hdue]; exact hattr.due, fun l' hl' q' hq' hs' => ?_⟩
    · rw [hout, hanswers]
      exact hattr.outbox
    · obtain ⟨q, hq, ⟨-, rfl⟩ | ⟨heq, rfl⟩⟩ := hr.promise hq'
      · exact (hattr.listener l' (hsub hl') q' hq hs').of_due hid (by rw [hdue]; exact fun _ h => h)
      · -- another listener of the operation that the answer is to
        have hold := hattr.listener l' (hsub hl') q hq (pending_of_onPromise hs')
        exact h.listener_of_ran he hn hid hdue (heq ▸ hq) hs' hold
  · intro p q' hq' hs'
    rw [hanswers]
    obtain ⟨q, hq, ⟨-, rfl⟩ | ⟨rfl, rfl⟩⟩ := hr.promise hq'
    · exact h.attributed.received p q' hq hs'
    · exact ((h.onPromise he hq (pending_of_onPromise hs')).2 hs').1
  · intro m hm l' hl' q' hq' hs'
    obtain ⟨i, hi⟩ := List.mem_iff_getElem?.1 hm
    obtain ⟨n, hn, -, -, -, hsub⟩ := hr.node_same hi
    rw [hr.length]
    obtain ⟨q, hq, ⟨-, rfl⟩ | ⟨heq, rfl⟩⟩ := hr.promise hq'
    · exact h.attributed.suits n (List.mem_of_getElem? hn) l' (hsub hl') q' hq hs'
    · rw [heq] at hq
      exact ((h.onPromise he hq (pending_of_onPromise hs')).2 hs').2.1
  · intro p q' hq'
    rw [hanswers]
    obtain ⟨q, hq, ⟨-, rfl⟩ | ⟨rfl, rfl⟩⟩ := hr.promise hq'
    · exact h.attributed.right p q' hq
    · rcases hs : q.settled with _ | r
      · exact (h.onPromise he hq hs).1
      · have hright := h.attributed.right _ q hq
        unfold Promise.Right at hright ⊢
        rwa [onPromise_settled l (by rw [hs]; rfl), onPromise_targets]

theorem Emitting.ran (h : Emitting message k (l :: ls) s) (he : Emits message k (l :: ls) s)
    (hr : Ran l message k s s') : Emitting message k ls s' := by
  refine ⟨h.attributed_of_ran he hr, fun n' hn' => ?_, ?_, fun l' hl' q' hq' hs' => ?_⟩
  · obtain ⟨n, hn, -, hdue, -⟩ := hr.node_same hn'
    rw [hdue]
    exact h.due n hn
  · rw [hr.rest]
    exact h.sent
  · obtain ⟨q, hq, ⟨-, rfl⟩ | ⟨heq, -⟩⟩ := hr.promise hq'
    · exact h.own l' (List.mem_cons_of_mem _ hl') q' hq hs'
    · exact absurd heq (he.operation_ne l' hl')

theorem Emitting.rest (h : Emitting message k (l :: ls) s) : Emitting message k ls s :=
  ⟨h.attributed, h.due, h.sent, fun l' hl' => h.own l' (List.mem_cons_of_mem _ hl')⟩

/-- Handling an answer keeps all promises right. -/
theorem Emitting.emit (h : Emitting message k ls s) (he : Emits message k ls s) : Attributed (emit message ls s) := by
  refine he.emit_inv (J := Emitting message k) (fun l ls s s' he hj _ hr => hj.ran he hr) ?_ ?_
    (fun s hj => hj.attributed) h
  · exact fun p key ls s hj _ _ => hj.rest
  · exact fun p key ls s hj _ _ => hj.attributed

end Receive

/-! ## The other events -/

section Events
variable {s s' : State} {k : Nat} {n : Node} {l : Listener} {message : OperationMessage}

/-- A node that owed nothing and is asked owes an answer to what it is asked. -/
theorem due_ask (h : n.due = []) (l : Listener) (message : OperationMessage) :
    (n.ask l message).due = [] ∨ (n.ask l message).due = [l.operation] := by
  unfold Node.due Node.ask at *
  dsimp only
  split
  · rename_i hopen
    rw [if_pos hopen] at h
    obtain ⟨hout, hin⟩ := List.append_eq_nil_iff.1 h
    rw [hout]
    split
    · rename_i hlive
      rw [if_pos hlive] at hin
      rw [List.map_append, hin]
      exact .inr rfl
    · exact .inl rfl
  · exact .inl rfl

theorem operation_of_due (h : n.due = []) {p : Nat} (hp : p ∈ (n.ask l message).due) : p = l.operation := by
  rcases due_ask h l message with heq | heq
  · rw [heq] at hp
    cases hp
  · rw [heq] at hp
    exact List.mem_singleton.1 hp

/-- A new operation leaves the nodes alone that it is not sent to. -/
theorem Node.Attributed.concat {promises : List Promise} {answers : List Answer} {i : Nat} (q₀ : Promise)
    (h : n.Attributed promises answers i) (hn : n.Sound promises.length) :
    n.Attributed (promises ++ [q₀]) answers i := by
  refine h.mono (fun _ ha => ha) fun l hl q hq _ => ?_
  rcases promise_of_concat hq with ⟨-, hq⟩ | ⟨heq, -⟩
  · exact hq
  · exact absurd heq (hn.registered l hl).ne

/-- A node that owes nothing is asked, by a listener that is right about it. -/
theorem Node.Attributed.ask {answers : List Answer} {i : Nat} {q₀ : Promise} (h : n.Attributed s.promises answers i)
    (hn : n.Sound s.promises.length) (hdue : n.due = []) (hop : l.operation = s.promises.length)
    (hquiet : ∀ l' ∈ n.listeners, ∀ q, s.promises[l'.operation]? = some q → q.settled = none →
      l'.Attributed i (n.ask l message) q)
    (hnew : l.Attributed i (n.ask l message) q₀) :
    (n.ask l message).Attributed (s.promises ++ [q₀]) answers i := by
  refine ⟨h.outbox, ?_, fun l' hl' q hq hs => ?_⟩
  · rcases due_ask hdue l message with heq | heq
    · rw [heq]
      exact Nat.zero_le _
    · rw [heq]
      exact le_rfl
  · rcases listeners_ask hl' with hl' | rfl
    · rcases promise_of_concat hq with ⟨-, hq⟩ | ⟨heq, -⟩
      · exact hquiet l' hl' q hq hs
      · exact absurd heq (hn.registered l' hl').ne
    · rcases promise_of_concat hq with ⟨hlt, -⟩ | ⟨-, rfl⟩
      · omega
      · exact hnew

/-- An operation is started whose promise suits the pool, and every node is one that it was sent to or not. -/
theorem Attributed.start (h : Attributed s) {nodes : List Node} {q₀ : Promise}
    (hlen : nodes.length = s.workerNodes.length)
    (hnodes : ∀ (i : Nat) (n' : Node), nodes[i]? = some n' → ∃ n : Node, s.workerNodes[i]? = some n ∧
      n'.Attributed (s.promises ++ [q₀]) s.answers i ∧
      ∀ l ∈ n'.listeners, l ∈ n.listeners ∨ Listener.operation l = s.promises.length)
    (hempty : q₀.responsesReceived = []) (hpending : q₀.settled = none) (hsuits : q₀.Suits s.workerNodes.length) :
    Attributed { s with workerNodes := nodes, promises := s.promises ++ [q₀] } := by
  constructor
  · intro i n' hn'
    obtain ⟨-, -, hattr, -⟩ := hnodes i n' hn'
    exact hattr
  · intro p q hq hs
    rcases promise_of_concat hq with ⟨-, hq⟩ | ⟨-, rfl⟩
    · exact h.received p q hq hs
    · refine ⟨by rw [hempty]; rintro _ ⟨⟩, ?_⟩
      rw [Promise.responders, hempty]
      exact List.nodup_nil
  · intro m hm l hl q hq hs
    obtain ⟨i, hi⟩ := List.mem_iff_getElem?.1 hm
    obtain ⟨n, hn, -, hl'⟩ := hnodes i m hi
    show q.Suits nodes.length
    rw [hlen]
    rcases promise_of_concat hq with ⟨hlt, hq⟩ | ⟨-, rfl⟩
    · exact h.suits n (List.mem_of_getElem? hn) l ((hl' l hl).resolve_right hlt.ne) q hq hs
    · exact hsuits
  · intro p q hq
    rcases promise_of_concat hq with ⟨-, hq⟩ | ⟨-, rfl⟩
    · exact h.right p q hq
    · exact Promise.right_of_pending hpending

theorem Listener.counts_of_key {key : Nat} {p : Nat} {q : Promise} (hn : s.workerNodes[key]? = some n)
    (hq : s.promises[p]? = some q) (hs : q.settled = none) : (Listener.ofWorker p key).Counts s n :=
  ⟨⟨q, hq, hs⟩, by rw [hn]; rfl⟩

theorem Attributed.toWorkers (h : Attributed s) (hsound : Sound s)
    (hok : ∀ n ∈ s.workerNodes, n.channelOpen = true ∧ n.due = [] ∧ ∀ l ∈ n.listeners, ¬ l.Counts s n)
    (message : OperationMessage) : Attributed (sendTaskFunctionOperationToWorkers message s) := by
  have hopen : ∀ n ∈ s.workerNodes, n.channelOpen = true := fun n hn => (hok n hn).1
  have htargets : s.workerNodes.takeWhile (·.channelOpen) = s.workerNodes := List.takeWhile_eq_self_iff.2 hopen
  unfold sendTaskFunctionOperationToWorkers
  dsimp only
  rw [askEach_of_open hopen, htargets, if_pos (List.all_eq_true.2 hopen)]
  refine h.start (List.length_map ..) (fun i n' hn' => ?_) rfl rfl (.inl (by simp))
  · rw [List.getElem?_map] at hn'
    obtain ⟨n, hn, rfl⟩ := Option.map_eq_some_iff.1 hn'
    have hmem := List.mem_of_getElem? hn
    obtain ⟨-, hdue, hcounts⟩ := hok n hmem
    refine ⟨n, hn, (h.node i n hn).ask (hsound.node n hmem) hdue rfl ?_ ?_, ?_⟩
    · -- the listeners that were there do not count
      intro l' hl' q hq hs
      have hold := (h.node i n hn).listener l' hl' q hq hs
      cases l' with
      | ofWorker p key =>
        obtain ⟨ht, hle, -⟩ := hold
        refine ⟨ht, hle, fun hik => ?_⟩
        subst hik
        exact absurd (Listener.counts_of_key hn hq hs) (hcounts _ hl')
      | ofWorkers p => exact absurd ⟨q, hq, hs⟩ (hcounts _ hl')
    · have hid : n.id ∈ s.workerNodes.map (·.id) := List.mem_map_of_mem hmem
      exact ⟨hid, fun p' hp' => ⟨operation_of_due hdue hp', List.not_mem_nil⟩⟩
    · intro l hl
      exact (listeners_ask hl).imp id (congrArg Listener.operation)

theorem Attributed.toWorker (h : Attributed s) (hsound : Sound s) (hn : s.workerNodes[k]? = some n)
    (hdue : n.due = []) (hl : n.listeners = []) (message : OperationMessage) :
    Attributed (sendTaskFunctionOperationToWorker k message s) := by
  have hlt := (List.getElem?_eq_some_iff.1 hn).1
  unfold sendTaskFunctionOperationToWorker
  dsimp only
  rw [hn]
  refine h.start (List.length_modify ..) (fun i n' hn' => ?_) rfl rfl (.inl (Nat.le_trans (le_refl 1) (by omega)))
  · obtain ⟨m, hm, ⟨hne, rfl⟩ | ⟨rfl, rfl⟩⟩ := node_of_modify hn'
    · exact ⟨n', hm, (h.node i n' hm).concat _ (hsound.node n' (List.mem_of_getElem? hm)), fun l hl => .inl hl⟩
    · rw [hn] at hm
      cases hm
      refine ⟨n, hn, (h.node i n hn).ask (hsound.node n (List.mem_of_getElem? hn)) hdue rfl ?_ ?_, ?_⟩
      · rw [hl]
        rintro _ ⟨⟩
      · exact ⟨rfl, le_rfl, fun _ p' hp' => operation_of_due hdue hp'⟩
      · intro l hl'
        exact (listeners_ask hl').imp id (congrArg Listener.operation)

/-- A new node has no listeners and owes nothing. -/
theorem Attributed.createNode (h : Attributed s) (hs : s.Suits s.workerNodes (s.workerNodes.length + 1))
    (file : TaskFunctions) : Attributed (createAndSetupWorkerNode file s) := by
  unfold createAndSetupWorkerNode
  constructor
  · intro i n' hn'
    rcases Nat.lt_or_ge i s.workerNodes.length with hlt | hge
    · rw [List.getElem?_append_left hlt] at hn'
      exact h.node i n' hn'
    · rw [List.getElem?_append_right hge] at hn'
      rw [List.mem_singleton.1 (List.mem_of_getElem? hn')]
      exact ⟨(by rintro _ ⟨⟩), Nat.zero_le _, (by rintro _ ⟨⟩)⟩
  · exact h.received
  · intro m hm l hl q hq hsettled
    show q.Suits (s.workerNodes ++ [_]).length
    rw [List.length_append]
    rcases List.mem_append.1 hm with hm | hm
    · exact hs m hm l hl q hq hsettled
    · rw [List.mem_singleton.1 hm] at hl
      cases hl
  · exact h.right

theorem Attributed.create (h : Attributed s) (hsound : Sound s) {dynamic : Bool} (hj : s.Joins dynamic)
    (file : TaskFunctions) : Attributed (create file dynamic s) := by
  have hcreated := h.createNode hj.1 file
  cases dynamic with
  | false => exact hcreated
  | true =>
    unfold Operations.create createAndSetupDynamicWorkerNode
    rw [if_pos rfl]
    have hlen : (addMessages s.taskFunctions).length ≤ 1 := by
      rw [addMessages, List.length_map]
      exact hj.2 rfl
    have hlast : (createAndSetupWorkerNode file s).workerNodes[s.workerNodes.length]? = some
        ⟨s.nextWorkerId, false, true, [], true, file, [], []⟩ := List.getElem?_concat_length ..
    have hflag (s₁ : State) (h₁ : Attributed s₁) :
        Attributed (s₁.modifyNode s.workerNodes.length fun n => { n with dynamic := true }) :=
      h₁.modifyNode (fun _ ha => ha) fun n hn => ⟨rfl, fun _ hl => hl, .refl _, (h₁.node _ n hn).outbox⟩
    dsimp only
    rcases hm : addMessages s.taskFunctions with _ | ⟨message, _ | _⟩
    · exact hflag _ hcreated
    · exact hflag _ (hcreated.toWorker (hsound.createNode file) hlast rfl rfl message)
    · rw [hm] at hlen
      exact absurd hlen (by simp)

theorem Attributed.exit (h : Attributed s) (hs : s.Suits (s.workerNodes.eraseIdx k) (s.workerNodes.length - 1))
    (hk : k < s.workerNodes.length) : Attributed { s with workerNodes := s.workerNodes.eraseIdx k } := by
  constructor
  · intro i n' hn'
    rw [List.getElem?_eraseIdx] at hn'
    split at hn'
    · exact h.node i n' hn'
    · -- the node had the next key
      have hattr := h.node (i + 1) n' hn'
      refine ⟨hattr.outbox, hattr.due, fun l hl q hq hs => ?_⟩
      have hold := hattr.listener l hl q hq hs
      cases l with
      | ofWorker p key =>
        obtain ⟨ht, hle, -⟩ := hold
        exact ⟨ht, by omega, fun hik => by omega⟩
      | ofWorkers p => exact hold
  · exact h.received
  · intro m hm l hl q hq hsettled
    show q.Suits (s.workerNodes.eraseIdx k).length
    rw [List.length_eraseIdx_of_lt hk]
    exact hs m hm l hl q hq hsettled
  · exact h.right

end Events

/-! ## Every run -/

section Runs
variable {evaluate : String → Evaluated} {file : TaskFunctions} {s s' : State}

theorem Attributed.handle (h : Attributed s) {k : Nat} {n : Node} {x : Sent} {inbox : List Sent} {w : TaskFunctions}
    {a : Answer} {notification : Option JsError} (hn : s.workerNodes[k]? = some n) (hlive : n.live = true)
    (hin : n.inbox = x :: inbox) (ha : n.handle evaluate notification x = some (w, a)) :
    Attributed { s.modifyNode k fun n => { n with taskFunctions := w, inbox := inbox, outbox := n.outbox ++ [a] } with
      answers := s.answers ++ [a] } := by
  have hop := (of_handle ha).1
  refine h.modifyNode (fun _ hb => List.mem_append_left _ hb) fun m hm => ?_
  rw [hn] at hm
  cases hm
  refine ⟨rfl, fun _ hl => hl, ?_, ?_⟩
  · -- the answer takes the place of the message
    have hdue : Node.due { n with taskFunctions := w, inbox := inbox, outbox := n.outbox ++ [a] } = n.due := by
      simp [Node.due, hlive, hin, hop]
    rw [hdue]
  · intro b hb
    rcases List.mem_append.1 hb with hb | hb
    · exact List.mem_append_left _ ((h.node k n hn).outbox hb)
    · exact List.mem_append_right _ hb

theorem Attributed.stop (h : Attributed s) (k : Nat) : Attributed (s.modifyNode k fun n => { n with live := false }) := by
  refine h.modifyNode (fun _ ha => ha) fun n hn => ⟨rfl, fun _ hl => hl, ?_, (h.node k n hn).outbox⟩
  unfold Node.due
  dsimp only
  split
  · rw [if_neg (by decide), List.append_nil]
    exact List.sublist_append_left ..
  · exact .refl _

theorem Attributed.closeChannel (h : Attributed s) (k : Nat) (worker : WorkerType) :
    Attributed (s.modifyNode k (·.closeChannel worker)) := by
  refine h.modifyNode (fun _ ha => ha) fun n hn => ?_
  cases worker with
  | thread => exact ⟨rfl, fun _ hl => hl, List.nil_sublist _, (h.node k n hn).outbox⟩
  | cluster => exact ⟨rfl, fun _ hl => hl, .refl _, (h.node k n hn).outbox⟩

theorem Attributed.receive (h : Attributed s) (hsound : Sound s) {k : Nat} {n : Node} {a : Answer} {outbox : List Answer}
    (hn : s.workerNodes[k]? = some n) (hopen : n.channelOpen = true) (hout : n.outbox = a :: outbox) :
    Attributed (emit a n.listeners (s.modifyNode k fun n => { n with outbox := outbox })) := by
  have hattr := h.node k n hn
  have hdue : n.due = a.operation :: Node.due { n with outbox := outbox } := by
    simp [Node.due, hopen, hout]
  -- the worker owed this answer only
  have hnone : Node.due { n with outbox := outbox } = [] := by
    have hlen := hattr.due
    rw [hdue, List.length_cons] at hlen
    exact List.length_eq_zero_iff.1 (by omega)
  have hid := (hsound.node n (List.mem_of_getElem? hn)).outbox a (by rw [hout]; exact List.mem_cons_self)
  refine Emitting.emit ⟨?_, ?_, ?_, ?_⟩ (hsound.emits hn hout)
  · refine h.modifyNode (fun _ hb => hb) fun m hm => ?_
    rw [hn] at hm
    cases hm
    refine ⟨rfl, fun _ hl => hl, by rw [hnone]; exact List.nil_sublist _, fun b hb => ?_⟩
    exact hattr.outbox (by rw [hout]; exact List.mem_cons_of_mem _ hb)
  · intro m hm
    rw [State.modifyNode, List.getElem?_modify_eq, hn] at hm
    cases hm
    exact hnone
  · exact hattr.outbox (by rw [hout]; exact List.mem_cons_self)
  · intro l hl q hq hs
    have hl' := hattr.listener l hl q hq hs
    have hdue' : a.operation ∈ n.due := by rw [hdue]; exact List.mem_cons_self
    cases l with
    | ofWorker p key =>
      obtain ⟨-, -, hown⟩ := hl'
      exact fun hk => hown hk _ hdue'
    | ofWorkers p =>
      obtain ⟨-, hown⟩ := hl'
      rw [Listener.Takes, hid]
      exact hown _ hdue'

theorem State.Joins.of_modify {f : Node → Node} {dynamic : Bool} {k : Nat} (h : s.Joins dynamic)
    (hf : ∀ n, (f n).listeners = n.listeners) : (s.modifyNode k f).Joins dynamic := by
  refine ⟨?_, h.2⟩
  intro m hm l hl q hq hs
  have hlen : (s.modifyNode k f).workerNodes.length = s.workerNodes.length := List.length_modify ..
  rw [hlen]
  obtain ⟨n, hn, rfl | rfl⟩ := mem_of_modify hm
  · exact h.1 m hn l hl q hq hs
  · exact h.1 n hn l (hf n ▸ hl) q hq hs

theorem Attributed.step {e : Event} (h : Attributed s) (hsound : Sound s) (hok : OwnAnswers s e)
    (ht : Step evaluate file s e s') : Attributed s' := by
  cases takes_of_step ht with
  | call c =>
    unfold Operations.call
    split
    · exact h
    · rename_i message hm
      refine h.toWorkers hsound (hok ?_) message
      rw [hm]
      rfl
  | handle hn hlive hin ha => exact h.handle hn hlive hin ha
  | throw hn hlive hin ha => exact h.stop _
  | receive hn hopen hout => exact h.receive hsound hn hopen hout
  | create dynamic => exact h.create hsound hok file
  | error => exact h.closeChannel _ _
  | restart hn =>
    have hjoins := hok rfl _ (Option.mem_def.2 hn)
    refine (h.closeChannel _ _).create (hsound.closeChannel _ _) (hjoins.of_modify fun m => ?_) file
    cases s.worker <;> rfl
  | stop => exact h.stop _
  | closeChannel => exact h.closeChannel _ _
  | exit hk => exact h.exit hok hk

theorem attributed_started (file : TaskFunctions) (worker : WorkerType) (numberOfWorkers : Nat) :
    Attributed (started file worker numberOfWorkers) := by
  have h : Attributed (started file worker numberOfWorkers) ∧ (started file worker numberOfWorkers).promises = [] := by
    have hnone : Attributed ⟨worker, [], 0, .empty, [], []⟩ := by
      refine ⟨fun _ _ hn => ?_, fun _ _ hq => ?_, List.forall_mem_nil _, fun _ _ hq => ?_⟩
      · cases hn
      · cases hq
      · cases hq
    refine started_inv (I := fun s => Attributed s ∧ s.promises = []) ⟨hnone, rfl⟩ ?_ _
    rintro s ⟨hs, hnone⟩
    refine ⟨hs.createNode (fun _ _ _ _ q hq => ?_) file, hnone⟩
    rw [hnone] at hq
    cases hq
  exact h.1

/-- Where every operation starts after the answers of those before it, promises end as their own answers say. -/
theorem promises_right {worker : WorkerType} {numberOfWorkers : Nat} {es : List Event}
    (h : Run (Guarded OwnAnswers (Step evaluate file)) (started file worker numberOfWorkers) es s) {p : Nat}
    {q : Promise} (hq : s.promises[p]? = some q) : q.Right s.answers p := by
  have hinv : Sound s ∧ Attributed s := by
    refine h.inv (fun s => Sound s ∧ Attributed s)
      ⟨sound_started file worker numberOfWorkers, attributed_started file worker numberOfWorkers⟩ ?_
    rintro s e s' ⟨hsound, hattributed⟩ ⟨hok, ht⟩
    exact ⟨hsound.step ht, hattributed.step hsound hok ht⟩
  exact hinv.2.right p q hq

/-- Two workers add a function, and answer in the other order. -/
theorem promises_right_add : ∃ s, Run (Guarded OwnAnswers (Step (fun _ => .function) (.ofFunction "fn" "f")))
    (started (.ofFunction "fn" "f") .thread 2)
    [.call (.addTaskFunction "added" "g"), .handle 1 none, .handle 0 none, .receive 1, .receive 0] s ∧
      s.promises.map (·.settled) = [some .resolved] ∧ ∀ q, s.promises[0]? = some q → q.Right s.answers 0 := by
  have h : (replay (nextWhere OwnAnswers (next (fun _ => .function) (.ofFunction "fn" "f")))
      (started (.ofFunction "fn" "f") .thread 2) [.call (.addTaskFunction "added" "g"), .handle 1 none, .handle 0 none,
        .receive 1, .receive 0]).any (fun s => decide (s.promises.map (·.settled) = [some .resolved])) = true := by
    decide +kernel
  obtain ⟨s, hr, hs⟩ := exists_run_of_replay (P := fun s : State => s.promises.map (·.settled) = [some .resolved])
    (guarded_of_nextWhere fun _ _ _ hs => hs) h
  exact ⟨s, hr, hs, fun q hq => promises_right hr hq⟩

/-- The refusal to make a function the default that does not exist yet also rejects the operation that adds it. -/
theorem rejected_by_another_answer : ¬ ∀ (evaluate : String → Evaluated) (file : TaskFunctions) (worker : WorkerType)
    (numberOfWorkers : Nat) (es : List Event) (s : State),
    Run (Step evaluate file) (started file worker numberOfWorkers) es s →
      ∀ (p : Nat) (q : Promise), s.promises[p]? = some q → q.Right s.answers p := by
  intro h
  have hrun : (replay (next (fun _ => .function) (.ofFunction "fn" "f")) (started (.ofFunction "fn" "f") .thread 1)
      [.call (.setDefaultTaskFunction "added"), .call (.addTaskFunction "added" "g"), .handle 0 none,
        .receive 0]).any (fun s => decide (∃ q ∈ s.promises[1]?, ¬ Promise.Right s.answers 1 q)) = true := by
    decide +kernel
  obtain ⟨s, hr, q, hq, hwrong⟩ := exists_run_of_replay
    (P := fun s : State => ∃ q ∈ s.promises[1]?, ¬ q.Right s.answers 1) (fun _ _ _ hs => hs) hrun
  exact hwrong (h _ _ _ _ _ s hr 1 q (Option.mem_def.1 hq))

end Runs

end Operations

end Poolifier
