import Poolifier.OneShotListeners
/-!
# Kill messages, and what is left of the listeners

Three methods of the pool register a listener for the answers to one message:
`sendTaskFunctionOperationToWorker`, `sendTaskFunctionOperationToWorkers` and
`sendKillMessageToWorker`, which leaves it where it is. The listeners that a
node has from its creation on are left out: none of the methods touches them.
-/

namespace Poolifier

open MapLib RunLib

namespace Kills

open Operations (Listener Node Promise)

/-! ## The code -/

/-- How the promise of a kill message ends. -/
inductive Outcome
  | resolved
  | rejected (workerId : Nat)
  | thrown (e : JsError)
deriving DecidableEq

structure State where
  pool : Operations.State
  /-- The promises of the kill messages, if they are settled. -/
  promises : List (Option Outcome)
  /-- The worker that a `killMessageListener` is registered on, and its promise. -/
  listeners : List (Nat × Nat)
  /-- The workers that have a kill message to handle. Its order among their other messages is left open. -/
  messages : List Nat
  /-- What workers have answered, and the pool has not received: `true` is 'success', `false` is 'failure'. -/
  answers : List (Nat × Bool)

def sendKillMessageToWorker (n : Node) (s : State) : State :=
  if n.channelOpen then
    { s with
      promises := s.promises ++ [none]
      listeners := s.listeners ++ [(n.id, s.promises.length)]
      messages := s.messages ++ [n.id] }
  else
    -- there is no port to register a listener on
    { s with promises := s.promises ++ [some (.thrown .undefinedAccess)] }

/-- The `killMessageListener` of a promise, which stays registered. -/
def killMessageListener (workerId : Nat) (success : Bool) (s : State) (p : Nat) : State :=
  { s with promises := s.promises.modify p (·.or (some (if success then .resolved else .rejected workerId))) }

/-- The promises of the kill listeners of a node, in the order they were registered in. -/
def State.killListeners (s : State) (n : Node) : List Nat :=
  (s.listeners.filter (·.1 = n.id)).map Prod.snd

/-- The kill listeners of a node that run on an answer. -/
def State.heardBy (s : State) (n : Node) (heard : Nat) : List Nat :=
  match s.pool.worker with
  | .thread => s.killListeners n
  | .cluster => (s.killListeners n).take heard

/-- The listeners of a node that were registered to be used once. -/
def State.oneShotListeners (s : State) (n : Node) : List (Listener ⊕ Nat) :=
  n.listeners.map .inl ++ (s.killListeners n).map .inr

inductive Event
  /-- An event of the pool that is not about kill messages. -/
  | operation (e : Operations.Event)
  | sendKill (workerNodeKey : Nat)
  /-- `handleKillMessage` of a worker, whose kill handler may fail. -/
  | handleKill (workerNodeKey : Nat) (success : Bool)
  /-- The pool receives the answer of a worker. Of a cluster worker only the first `heard` kill listeners run, if another
  listener throws. -/
  | receiveKill (workerNodeKey heard : Nat)

section Step
variable (evaluate : String → Evaluated) (file : TaskFunctions)

/-- The state after an event, if the event can happen. -/
def next (s : State) : Event → Option State
  | .operation e => (Operations.next evaluate file s.pool e).map fun pool => { s with pool }
  | .sendKill k => s.pool.workerNodes[k]?.map fun n => sendKillMessageToWorker n s
  | .handleKill k success =>
    match s.pool.workerNodes[k]? with
    | none => none
    | some n =>
      if n.live ∧ n.id ∈ s.messages then
        some { s with messages := s.messages.erase n.id, answers := s.answers ++ [(n.id, success)] }
      else none
  | .receiveKill k heard =>
    match s.pool.workerNodes[k]? with
    | none => none
    | some n =>
      match s.answers.find? (·.1 = n.id) with
      | none => none
      | some a =>
        if n.channelOpen then
          some ((s.heardBy n heard).foldl (killMessageListener a.1 a.2) { s with answers := s.answers.erase a })
        else none

def Step (s : State) (e : Event) (s' : State) : Prop := next evaluate file s e = some s'

/-- A pool whose workers have all started from one file, before its first operation. -/
def started (worker : WorkerType) (numberOfWorkers : Nat) : State where
  pool := Operations.started file worker numberOfWorkers
  promises := []
  listeners := []
  messages := []
  answers := []

end Step

/-- The promises of all operations and kill messages have settled. -/
def State.Settled (s : State) : Prop :=
  (∀ q ∈ s.pool.promises, q.settled.isSome = true) ∧ ∀ q ∈ s.promises, q.isSome = true

/-- Every listener has been taken off that was registered to be used once. -/
def State.Clean (s : State) : Prop := ∀ n ∈ s.pool.workerNodes, s.oneShotListeners n = []

/-- Operations ask one node at most, and a kill message is only sent where there is no channel. -/
def Removes (s : State) : Event → Prop
  | .operation e => Operations.AsksOne s.pool e
  | .sendKill k => s.pool.workerNodes[k]?.any (·.channelOpen) = false
  | _ => True

instance (s : State) : Decidable s.Settled := inferInstanceAs (Decidable (_ ∧ _))

instance (s : State) : Decidable s.Clean := inferInstanceAs (Decidable (∀ n ∈ s.pool.workerNodes, _))

instance (s : State) (e : Event) : Decidable (Removes s e) :=
  match e with
  | .operation _ => inferInstanceAs (Decidable (Operations.AsksOne _ _))
  | .sendKill _ => inferInstanceAs (Decidable (_ = _))
  | .handleKill .. | .receiveKill .. => inferInstanceAs (Decidable True)

/-! ## Every run -/

section Runs
variable {evaluate : String → Evaluated} {file : TaskFunctions} {s s' : State}

/-- What holds as long as all listeners are removed: those of operations wait, and there are none of kill messages. -/
structure Inv (s : State) : Prop where
  sound : Operations.Sound s.pool
  waits : Operations.Waits s.pool
  noKill : s.listeners = []

theorem listeners_killMessageListener (workerId : Nat) (success : Bool) (s : State) (ps : List Nat) :
    (ps.foldl (killMessageListener workerId success) s).listeners = s.listeners ∧
      (ps.foldl (killMessageListener workerId success) s).pool = s.pool := by
  induction ps generalizing s with
  | nil => exact ⟨rfl, rfl⟩
  | cons p ps ih => exact ih _

/-- What an event does. -/
inductive Takes (evaluate : String → Evaluated) (file : TaskFunctions) (s : State) : Event → State → Prop
  | operation {e : Operations.Event} {pool : Operations.State} (hpool : Operations.Step evaluate file s.pool e pool) :
      Takes evaluate file s (.operation e) { s with pool }
  | sendKill {k : Nat} {n : Node} (hn : s.pool.workerNodes[k]? = some n) :
      Takes evaluate file s (.sendKill k) (sendKillMessageToWorker n s)
  | handleKill {k : Nat} {success : Bool} {n : Node} (hn : s.pool.workerNodes[k]? = some n) (hlive : n.live = true)
      (hmem : n.id ∈ s.messages) : Takes evaluate file s (.handleKill k success)
        { s with messages := s.messages.erase n.id, answers := s.answers ++ [(n.id, success)] }
  | receiveKill {k heard : Nat} {n : Node} {a : Nat × Bool} (hn : s.pool.workerNodes[k]? = some n)
      (ha : s.answers.find? (·.1 = n.id) = some a) (hopen : n.channelOpen = true) :
      Takes evaluate file s (.receiveKill k heard)
        ((s.heardBy n heard).foldl (killMessageListener a.1 a.2) { s with answers := s.answers.erase a })

theorem takes_of_step {e : Event} (ht : Step evaluate file s e s') : Takes evaluate file s e s' := by
  unfold Step next at ht
  cases e with
  | operation e =>
    obtain ⟨pool, hpool, rfl⟩ := Option.map_eq_some_iff.1 ht
    exact .operation hpool
  | sendKill k =>
    obtain ⟨n, hn, rfl⟩ := Option.map_eq_some_iff.1 ht
    exact .sendKill hn
  | handleKill k success =>
    dsimp only at ht
    split at ht
    · cases ht
    · rename_i n hn
      split at ht
      · rename_i hok
        cases ht
        exact .handleKill hn hok.1 hok.2
      · cases ht
  | receiveKill k heard =>
    dsimp only at ht
    split at ht
    · cases ht
    · rename_i n hn
      split at ht
      · cases ht
      · rename_i a ha
        split at ht
        · rename_i hopen
          cases ht
          exact .receiveKill hn ha hopen
        · cases ht

theorem Inv.step {e : Event} (h : Inv s) (hok : Removes s e) (ht : Step evaluate file s e s') : Inv s' := by
  cases takes_of_step ht with
  | operation hpool => exact ⟨h.sound.step hpool, h.waits.step h.sound hok hpool, h.noKill⟩
  | @sendKill k n hn =>
    have hclosed : s.pool.workerNodes[k]?.any (·.channelOpen) = false := hok
    rw [hn] at hclosed
    unfold sendKillMessageToWorker
    rw [if_neg (by simpa using hclosed)]
    exact ⟨h.sound, h.waits, h.noKill⟩
  | handleKill => exact ⟨h.sound, h.waits, h.noKill⟩
  | @receiveKill k heard n a hn ha hopen =>
    obtain ⟨hlisteners, hpool⟩ := listeners_killMessageListener a.1 a.2 { s with answers := s.answers.erase a }
      (s.heardBy n heard)
    exact ⟨by rw [hpool]; exact h.sound, by rw [hpool]; exact h.waits, hlisteners.trans h.noKill⟩

theorem inv_started (file : TaskFunctions) (worker : WorkerType) (numberOfWorkers : Nat) :
    Inv (started file worker numberOfWorkers) := by
  refine ⟨Operations.sound_started file worker numberOfWorkers, ?_, rfl⟩
  refine Operations.started_inv (I := Operations.Waits) ?_ (fun _ h => h.createNode file) numberOfWorkers
  exact ⟨List.forall_mem_nil _, List.forall_mem_nil _⟩

/-- Where all promises have settled no listener is left. -/
theorem Inv.clean (h : Inv s) (hs : s.Settled) : s.Clean := by
  intro n hn
  have hlisteners : n.listeners = [] := by
    refine List.eq_nil_iff_forall_not_mem.2 fun l hl => ?_
    obtain ⟨q, hq, hpending⟩ := h.waits.pending n hn l hl
    have hsettled := hs.1 q (List.mem_of_getElem? hq)
    rw [hpending] at hsettled
    cases hsettled
  unfold State.oneShotListeners State.killListeners
  rw [hlisteners, h.noKill]
  rfl

theorem inv_of_removes {worker : WorkerType} {numberOfWorkers : Nat} {es : List Event}
    (h : Run (Guarded Removes (Step evaluate file)) (started file worker numberOfWorkers) es s) : Inv s := by
  refine h.inv Inv (inv_started file worker numberOfWorkers) ?_
  rintro s e s' hinv ⟨hok, ht⟩
  exact hinv.step hok ht

/-- Where operations ask one node at most and no kill message is sent, every listener is removed after usage. -/
theorem clean_of_settled {worker : WorkerType} {numberOfWorkers : Nat} {es : List Event}
    (h : Run (Guarded Removes (Step evaluate file)) (started file worker numberOfWorkers) es s) (hs : s.Settled) :
    s.Clean := (inv_of_removes h).clean hs

/-- The one worker of a pool adds a function. -/
theorem clean_of_settled_one : ∃ s,
    Run (Guarded Removes (Step (fun _ => .function) (.ofFunction "fn" "f"))) (started (.ofFunction "fn" "f") .thread 1)
      [.operation (.call (.addTaskFunction "added" "g")), .operation (.handle 0 none), .operation (.receive 0)] s ∧
      s.Settled ∧ s.Clean := by
  have h : (replay (nextWhere Removes (next (fun _ => .function) (.ofFunction "fn" "f")))
      (started (.ofFunction "fn" "f") .thread 1) [.operation (.call (.addTaskFunction "added" "g")),
        .operation (.handle 0 none), .operation (.receive 0)]).any (fun s => decide s.Settled) = true := by
    decide +kernel
  obtain ⟨s, hr, hs⟩ := exists_run_of_replay (P := State.Settled) (guarded_of_nextWhere fun _ _ _ hs => hs) h
  exact ⟨s, hr, hs, clean_of_settled hr hs⟩

/-- Two workers add a function: the one that answers first keeps the listener. -/
theorem listener_left : ¬ ∀ (evaluate : String → Evaluated) (file : TaskFunctions) (worker : WorkerType)
    (numberOfWorkers : Nat) (es : List Event) (s : State),
    Run (Step evaluate file) (started file worker numberOfWorkers) es s → s.Settled → s.Clean := by
  intro hclaim
  have h : (replay (next (fun _ => .function) (.ofFunction "fn" "f")) (started (.ofFunction "fn" "f") .thread 2)
      [.operation (.call (.addTaskFunction "added" "g")), .operation (.handle 0 none), .operation (.handle 1 none),
        .operation (.receive 0), .operation (.receive 1)]).any (fun s => decide (s.Settled ∧ ¬ s.Clean)) = true := by
    decide +kernel
  obtain ⟨s, hr, hs, hleft⟩ := exists_run_of_replay (P := fun s : State => s.Settled ∧ ¬ s.Clean) (fun _ _ _ hs => hs) h
  exact hleft (hclaim _ _ _ _ _ s hr hs)

/-! ## Listeners that are left -/

/-- No worker joins, fails or leaves. -/
def Stays : Event → Prop
  | .operation e => Operations.Stays e
  | _ => True

/-- Some operation for all workers has left, or will leave, its listener on a node, or a kill message has. -/
def Leftover (s : State) : Prop :=
  2 ≤ s.pool.workerNodes.length ∧ (∃ p, Operations.Left p s.pool) ∨ ∃ n ∈ s.pool.workerNodes, s.killListeners n ≠ []

theorem Leftover.not_clean (h : Leftover s) (hs : s.Settled) : ¬ s.Clean := by
  intro hclean
  rcases h with ⟨hlen, p, q, hq, ⟨hpending, -⟩ | ⟨-, k, hall⟩⟩ | ⟨n, hn, hkill⟩
  · have hsettled := hs.1 q (List.mem_of_getElem? hq)
    rw [hpending] at hsettled
    cases hsettled
  · -- one of the first two nodes has the listener
    have hkept {i : Nat} (hi : i < s.pool.workerNodes.length) (hne : i ≠ k) : False := by
      have hl := hall i _ (List.getElem?_eq_getElem hi) hne
      have hnone := (List.append_eq_nil_iff.1 (hclean _ (List.getElem_mem hi))).1
      rw [List.map_eq_nil_iff.1 hnone] at hl
      cases hl
    by_cases hk : k = 0
    · exact hkept (i := 1) (by omega) (by omega)
    · exact hkept (i := 0) (by omega) (Ne.symm hk)
  · have hnone := (List.append_eq_nil_iff.1 (hclean n hn)).2
    exact hkill (List.map_eq_nil_iff.1 hnone)

/-- What a step leaves as it was: the workers, and the listeners that are left. -/
structure Keeps (s s' : State) : Prop where
  ids : s'.pool.workerNodes.map (·.id) = s.pool.workerNodes.map (·.id)
  left : ∀ p, Operations.Left p s.pool → Operations.Left p s'.pool
  listeners : ∃ ls, s'.listeners = s.listeners ++ ls

theorem Leftover.mono (h : Leftover s) (hkeeps : Keeps s s') : Leftover s' := by
  obtain ⟨hids, hleft, ls, hl⟩ := hkeeps
  have hlen : s'.pool.workerNodes.length = s.pool.workerNodes.length := by simpa using congrArg List.length hids
  refine h.imp ?_ ?_
  · rintro ⟨htwo, p, hp⟩
    exact ⟨hlen ▸ htwo, p, hleft p hp⟩
  · rintro ⟨n, hn, hkill⟩
    have hmem : n.id ∈ s'.pool.workerNodes.map (·.id) := hids ▸ List.mem_map_of_mem hn
    obtain ⟨n', hn', hid⟩ := List.mem_map.1 hmem
    refine ⟨n', hn', fun hnone => hkill ?_⟩
    unfold State.killListeners at hnone ⊢
    rw [hl, hid, List.filter_append, List.map_append] at hnone
    exact (List.append_eq_nil_iff.1 hnone).1

theorem keeps_of_pool (hpool : s'.pool = s.pool) (hl : ∃ ls, s'.listeners = s.listeners ++ ls) : Keeps s s' :=
  ⟨by rw [hpool], fun _ hp => hpool.symm ▸ hp, hl⟩

theorem sendKillMessageToWorker_frame (n : Node) (s : State) : (sendKillMessageToWorker n s).pool = s.pool ∧
    ∃ ls, (sendKillMessageToWorker n s).listeners = s.listeners ++ ls := by
  unfold sendKillMessageToWorker
  split
  · exact ⟨rfl, _, rfl⟩
  · exact ⟨rfl, [], (List.append_nil _).symm⟩

theorem keeps_of_step {e : Event} (hsound : Operations.Sound s.pool) (hstaying : Operations.Staying s.pool)
    (hok : Stays e) (ht : Step evaluate file s e s') :
    Operations.Sound s'.pool ∧ Operations.Staying s'.pool ∧ Keeps s s' := by
  have hsame (hpool : s'.pool = s.pool) (hl : ∃ ls, s'.listeners = s.listeners ++ ls) :
      Operations.Sound s'.pool ∧ Operations.Staying s'.pool ∧ Keeps s s' :=
    ⟨hpool.symm ▸ hsound, hpool.symm ▸ hstaying, keeps_of_pool hpool hl⟩
  cases takes_of_step ht with
  | operation hpool =>
    obtain ⟨hs, hids, hleft⟩ := hstaying.step hsound hok hpool
    exact ⟨hsound.step hpool, hs, hids, hleft, [], (List.append_nil _).symm⟩
  | @sendKill k n hn =>
    obtain ⟨hpool, hl⟩ := sendKillMessageToWorker_frame n s
    exact hsame hpool hl
  | handleKill => exact hsame rfl ⟨[], (List.append_nil _).symm⟩
  | @receiveKill k heard n a hn ha hopen =>
    obtain ⟨hlisteners, hpool⟩ := listeners_killMessageListener a.1 a.2 { s with answers := s.answers.erase a }
      (s.heardBy n heard)
    exact hsame hpool ⟨[], hlisteners.trans (List.append_nil _).symm⟩

theorem staying_started (file : TaskFunctions) (worker : WorkerType) (numberOfWorkers : Nat) :
    Operations.Staying (started file worker numberOfWorkers).pool := by
  refine Operations.started_inv (I := Operations.Staying) ⟨List.forall_mem_nil _, List.forall_mem_nil _⟩ ?_ numberOfWorkers
  intro s hs
  refine ⟨fun n hn => ?_, fun n hn l hl => ?_⟩
  · rcases List.mem_append.1 hn with hn | hn
    · exact hs.channelOpen n hn
    · rw [List.mem_singleton.1 hn]
  · rcases List.mem_append.1 hn with hn | hn
    · exact hs.ofWorkers n hn l hl
    · rw [List.mem_singleton.1 hn] at hl
      cases hl

/-- An operation that asks two nodes or more. -/
theorem leftover_of_call {pool : Operations.State} {c : Operations.Call} (hstaying : Operations.Staying pool)
    (hnot : ¬ Operations.AsksOne pool (.call c)) : 2 ≤ (Operations.call c pool).workerNodes.length ∧
      ∃ p, Operations.Left p (Operations.call c pool) := by
  have hcall : ¬ ((c.message pool).toOption.isSome = true →
    pool.workerNodes.length ≤ 1 ∨ pool.workerNodes.head?.any (·.channelOpen) = false) := hnot
  rw [Classical.not_imp, not_or] at hcall
  obtain ⟨hmessage, hlen, -⟩ := hcall
  unfold Operations.call
  rcases hm : c.message pool with error | message
  · rw [hm] at hmessage
    cases hmessage
  · have hnodes := Operations.workerNodes_toWorkers hstaying message
    refine ⟨?_, pool.promises.length, Operations.left_toWorkers hstaying (by omega) message⟩
    dsimp only
    rw [hnodes, List.length_map]
    omega

/-- A step that breaks the condition leaves a listener. -/
theorem leftover_of_not_removes {e : Event} (hstaying : Operations.Staying s.pool) (hok : Stays e)
    (hnot : ¬ Removes s e) (ht : Step evaluate file s e s') : Leftover s' := by
  cases takes_of_step ht with
  | @operation e pool hpool =>
    cases e with
    | call c =>
      cases hpool
      exact .inl (leftover_of_call hstaying hnot)
    | handle => exact absurd trivial hnot
    | receive => exact absurd trivial hnot
    | _ => exact hok.elim
  | @sendKill k n hn =>
    have hopen := hstaying.channelOpen n (List.mem_of_getElem? hn)
    unfold sendKillMessageToWorker
    rw [if_pos hopen]
    refine .inr ⟨n, List.mem_of_getElem? hn, ?_⟩
    unfold State.killListeners
    rw [List.filter_append]
    simp
  | handleKill => exact absurd trivial hnot
  | receiveKill => exact absurd trivial hnot

/-- While no worker joins, fails or leaves, the listeners have been removed when the promises have settled if and only if
no operation has asked two nodes, and no kill message has been sent. -/
theorem clean_iff {worker : WorkerType} {numberOfWorkers : Nat} {es : List Event}
    (h : Run (Guarded (fun _ => Stays) (Step evaluate file)) (started file worker numberOfWorkers) es s) (hs : s.Settled) :
    s.Clean ↔ Run (Guarded Removes (Step evaluate file)) (started file worker numberOfWorkers) es s := by
  constructor
  · intro hclean
    have hinv : (Operations.Sound s.pool ∧ Operations.Staying s.pool) ∧
        (Leftover s ∨ Run (Guarded Removes (Step evaluate file)) (started file worker numberOfWorkers) es s) := by
      -- from the first step that breaks the condition on, some listener is left
      refine h.trace_inv (fun es s => (Operations.Sound s.pool ∧ Operations.Staying s.pool) ∧
        (Leftover s ∨ Run (Guarded Removes (Step evaluate file)) (started file worker numberOfWorkers) es s)) ?_ ?_
      · exact ⟨⟨Operations.sound_started file worker numberOfWorkers, staying_started file worker numberOfWorkers⟩, .inr .nil⟩
      · rintro es s e s' ⟨⟨hsound, hstaying⟩, hcase⟩ ⟨hok, ht⟩
        obtain ⟨hsound', hstaying', hkeeps⟩ := keeps_of_step hsound hstaying hok ht
        refine ⟨⟨hsound', hstaying'⟩, ?_⟩
        rcases hcase with hleftover | hrun
        · exact .inl (hleftover.mono hkeeps)
        · by_cases hremoves : Removes s e
          · exact .inr (.step hrun ⟨hremoves, ht⟩)
          · exact .inl (leftover_of_not_removes hstaying hok hremoves ht)
    exact hinv.2.resolve_left fun hleftover => hleftover.not_clean hs hclean
  · intro hrun
    exact (inv_of_removes hrun).clean hs

end Runs

end Kills

end Poolifier
