import Mathlib.Algebra.Order.BigOperators.Group.List
import Poolifier.Plain
import Poolifier.Started
/-!
# Redistributing the queue of a node that has failed

`redistributeQueuedTasks` chooses a destination for each task with a fold that
starts from key `0`, whether or not node `0` is ready, and compares strictly. The
destination is right while the ready nodes have room below the queue of node
`0`; beyond that the task goes to node `0`, or goes round for ever when node `0`
is the one that has failed. `Pool.HasRoom` is the bound.
-/

namespace Poolifier

open EffLib WorkerNode

variable {Data Response : Type}

/-! ## One pass of the loop -/

/-- The node `k` has failed, and no node has a callback installed. -/
structure Errored (s : Pool Data Response) (k : Nat) (n : WorkerNode Data) : Prop where
  node : s.workerNodes[k]? = some n
  notReady : n.info.ready = false
  plain : ∀ a ∈ s.workerNodes, Plain a

/-- The first task that waits at `k` goes to the node `n` at `d`. -/
def Pool.redistributed (s : Pool Data Response) (k d : Nat) (t : Task Data) (n : WorkerNode Data) : Pool Data Response :=
  (s.modifyNode k fun m => { m with tasksQueue := m.tasksQueue.tail }).modifyNode d fun _ => s.acceptTask t n

section Pass
variable {cb : Callbacks Data Response} {s : Pool Data Response} {k fuel : Nat} {nk : WorkerNode Data}
  {Q : Unit → Pool Data Response → Prop}

theorem tasksQueueNotEmpty_eq (hk : s.workerNodes[k]? = some nk) :
    tasksQueueNotEmpty k s = some (.ok (decide (nk.tasksQueue.length > 0)), s) := by
  unfold tasksQueueNotEmpty
  rw [nodeAt_bind hk]
  rfl

theorem redistribute_zero : Returns (redistributeQueuedTasks cb 0 k) Q s ↔ False := by
  unfold redistributeQueuedTasks Eff.whileDo
  rw [returns_diverge]

theorem redistribute_nil (hk : s.workerNodes[k]? = some nk) (hq : nk.tasksQueue = []) :
    Returns (redistributeQueuedTasks cb (fuel + 1) k) Q s ↔ Q () s := by
  unfold redistributeQueuedTasks
  rw [returns_whileDo_succ (tasksQueueNotEmpty_eq hk), hq]
  rfl

/-- The node that is given a task, when it is the one that has failed. -/
theorem Errored.taker_self (he : Errored s k nk) {t : Task Data} {q : List (Task Data)} (hq : nk.tasksQueue = t :: q)
    (hk : redistributionKey s = k) :
    (s.modifyNode k fun m => { m with tasksQueue := m.tasksQueue.tail }).workerNodes[redistributionKey s]? =
      some { nk with tasksQueue := q } := by
  rw [hk, Pool.getElem?_modifyNode_self _ he.node, hq]
  rfl

theorem taker_other {nd : WorkerNode Data} (hk : redistributionKey s ≠ k)
    (hnd : s.workerNodes[redistributionKey s]? = some nd) :
    (s.modifyNode k fun m => { m with tasksQueue := m.tasksQueue.tail }).workerNodes[redistributionKey s]? = some nd := by
  rw [Pool.getElem?_modifyNode_ne _ (Ne.symm hk)]
  exact hnd

/-- A pass moves one task, if its destination can be sent it where it is to be sent. -/
theorem redistribute_cons (he : Errored s k nk) {t : Task Data} {q : List (Task Data)} (hq : nk.tasksQueue = t :: q)
    {nd : WorkerNode Data}
    (hd : (s.modifyNode k fun m => { m with tasksQueue := m.tasksQueue.tail }).workerNodes[redistributionKey s]? = some nd) :
    Returns (redistributeQueuedTasks cb (fuel + 1) k) Q s ↔ (s.shallExecute nd = true → s.canSend nd t = true) ∧
      Returns (redistributeQueuedTasks cb fuel k) Q (s.redistributed k (redistributionKey s) t nd) := by
  have hplain : Plain nk := he.plain nk (List.mem_of_getElem? he.node)
  have hplain' : Plain nd := by
    obtain ⟨a, ha, rfl⟩ := Pool.node_of_modifyNode hd
    have hpa := he.plain a (List.mem_of_getElem? ha)
    split
    · exact hpa.of_sameSetup (sameSetup_of_queue a _)
    · exact hpa
  unfold redistributeQueuedTasks
  rw [returns_whileDo_succ (tasksQueueNotEmpty_eq he.node), hq]
  simp only [List.length_cons, gt_iff_lt, Nat.zero_lt_succ, decide_true, if_true]
  rw [returns_bind, returns_get]
  unfold dequeueThen
  rw [returns_bind, returns_of_ok (dequeueTask_plain he.node hplain.1), hq]
  show Returns (executeOrEnqueueTask cb (redistributionKey s) t) _ _ ↔ _
  by_cases hsend : s.shallExecute nd = true → s.canSend nd t = true
  · rw [returns_of_ok (executeOrEnqueueTask_plain hd hplain'.2 hsend)]
    exact ⟨fun h => ⟨hsend, h⟩, fun h => h.2⟩
  · rw [Classical.not_imp, Bool.not_eq_true] at hsend
    obtain ⟨e, s', herr⟩ := executeOrEnqueueTask_plain_error cb hd hsend.1 hsend.2
    rw [returns_of_error herr]
    simp [hsend.1, hsend.2]

end Pass

/-! ## Room for the tasks -/

/-- What is queued or in flight on the nodes that are ready. -/
def Pool.readyHeld (p : Pool Data Response) : Multiset (Task Data) :=
  (p.workerNodes.map fun n => if n.info.ready then n.held else 0).sum

/-- The length up to which a ready node is preferred to node `0`, until the queue of `k` is empty. -/
def Pool.redistributionBound (p : Pool Data Response) (k : Nat) : Nat :=
  if k = 0 then 1 else p.workerNodes[0]?.elim 0 (·.tasksQueue.length)

/-- The tasks that a ready node takes before its queue has the length `bound`, those it starts included. -/
def WorkerNode.room (concurrency bound : Nat) (n : WorkerNode Data) : Nat :=
  if n.info.ready then
    (bound - n.tasksQueue.length) +
      if n.tasksQueue.length = 0 ∧ 0 < bound then concurrency - n.usage.tasks.executing else 0
  else 0

def Pool.room (p : Pool Data Response) (k : Nat) : Nat :=
  (p.workerNodes.map (WorkerNode.room (p.concurrency.getD 0) (p.redistributionBound k))).sum

/-- Node `0` is ready, or the ready nodes have room for the queue of `n`, the node at `k`. -/
def Pool.HasRoom (p : Pool Data Response) (k : Nat) (n : WorkerNode Data) : Prop :=
  p.workerNodes[0]?.any (·.info.ready) = true ∨ n.tasksQueue.length ≤ p.room k

/-- Whether the worker can be sent a task, for each that it is sent at once, and the task after these that is queued. -/
def Pool.nodeSlots (p : Pool Data Response) (n : WorkerNode Data) : List (Task Data → Bool) :=
  if n.info.ready && n.tasksQueue.length = 0 then
    List.replicate (p.concurrency.getD 0 - n.usage.tasks.executing) (p.canSend n) ++ [fun _ => true]
  else []

/-- The ready nodes with empty queues come first, one after the other. -/
def Pool.slots (p : Pool Data Response) : List (Task Data → Bool) := p.workerNodes.flatMap p.nodeSlots

/-- Each task of a queue that is sent at once can be sent; the others are queued. -/
def Pool.Sendable (p : Pool Data Response) (q : List (Task Data)) : Prop := ∀ x ∈ q.zip p.slots, x.2 x.1 = true

instance (p : Pool Data Response) (k : Nat) (n : WorkerNode Data) : Decidable (p.HasRoom k n) :=
  inferInstanceAs (Decidable (_ ∨ _))

instance (p : Pool Data Response) (q : List (Task Data)) : Decidable (p.Sendable q) :=
  inferInstanceAs (Decidable (∀ x ∈ q.zip p.slots, x.2 x.1 = true))

/-- Nothing waits at `k` any more, and the ready nodes hold `h`. -/
structure Emptied (k : Nat) (h : Multiset (Task Data)) (s : Pool Data Response) : Prop where
  node : ∃ n, s.workerNodes[k]? = some n ∧ n.info.ready = false ∧ n.tasksQueue = []
  readyHeld : s.readyHeld = h

section Accept
variable (p : Pool Data Response) (t : Task Data) (n : WorkerNode Data)

theorem shallExecute_iff : p.shallExecute n = true ↔
    n.tasksQueue.length = 0 ∧ n.usage.tasks.executing < p.concurrency.getD 0 := by
  unfold Pool.shallExecute Pool.belowConcurrency
  rcases p.concurrency with _ | c <;> simp

/-- A task that is taken takes one place. -/
theorem room_acceptTask (bound : Nat) : (p.acceptTask t n).room (p.concurrency.getD 0) bound =
    n.room (p.concurrency.getD 0) bound - 1 := by
  have hinfo := (sameSetup_acceptTask p t n).info
  unfold room
  rw [hinfo]
  by_cases hr : n.info.ready = true
  · rw [if_pos hr, if_pos hr]
    unfold Pool.acceptTask
    by_cases hs : p.shallExecute n = true
    · rw [if_pos hs, startTask_tasksQueue, startTask_executing]
      obtain ⟨hq, hlt⟩ := (shallExecute_iff p n).1 hs
      rw [hq]
      by_cases hb : 0 < bound
      · simp only [true_and, hb, if_true]
        omega
      · simp only [hb, and_false, if_false]
        omega
    · rw [if_neg hs]
      have hlen : { n with tasksQueue := n.tasksQueue ++ [t] }.tasksQueue.length = n.tasksQueue.length + 1 := by simp
      rw [hlen, if_neg (by omega)]
      rw [shallExecute_iff] at hs
      split
      · omega
      · omega
  · rw [if_neg hr, if_neg hr]

theorem nodeSlots_acceptTask : p.nodeSlots (p.acceptTask t n) = (p.nodeSlots n).tail := by
  have hsetup := sameSetup_acceptTask p t n
  have hsend : p.canSend (p.acceptTask t n) = p.canSend n := by
    funext u
    unfold Pool.canSend
    rw [channelOpen_of_sameSetup hsetup]
  unfold Pool.nodeSlots
  rw [hsetup.info, hsend]
  by_cases hr : (n.info.ready && decide (n.tasksQueue.length = 0)) = true
  · rw [if_pos hr]
    unfold Pool.acceptTask
    by_cases hs : p.shallExecute n = true
    · rw [if_pos hs, startTask_tasksQueue, startTask_executing, if_pos hr]
      obtain ⟨-, hlt⟩ := (shallExecute_iff p n).1 hs
      have hne : p.concurrency.getD 0 - n.usage.tasks.executing ≠ 0 := by omega
      obtain ⟨m, hm⟩ := Nat.exists_eq_add_one_of_ne_zero hne
      have hm' : p.concurrency.getD 0 - (n.usage.tasks.executing + 1) = m := by omega
      rw [hm, hm', List.replicate_succ]
      rfl
    · rw [if_neg hs]
      have hfull : p.concurrency.getD 0 - n.usage.tasks.executing = 0 := by
        simp only [Bool.and_eq_true, decide_eq_true_eq] at hr
        rw [shallExecute_iff] at hs
        omega
      simp [hfull]
  · rw [if_neg hr]
    have hr' : ¬ (n.info.ready && decide ((p.acceptTask t n).tasksQueue.length = 0)) = true := by
      simp only [Bool.and_eq_true, decide_eq_true_eq, not_and] at hr ⊢
      intro hready
      have hne := hr hready
      unfold Pool.acceptTask
      split
      · rw [startTask_tasksQueue]
        exact hne
      · simp
    rw [if_neg hr']
    rfl

/-- The first slot of a ready node says whether it can take a task. -/
theorem nodeSlots_head (hr : n.info.ready = true) :
    (∀ f ∈ (p.nodeSlots n).head?, f t = true) ↔ (p.shallExecute n = true → p.canSend n t = true) := by
  unfold Pool.nodeSlots
  rw [shallExecute_iff, hr]
  by_cases hq : n.tasksQueue.length = 0
  · simp only [hq, decide_true, Bool.and_self, if_true, true_and]
    rcases hm : p.concurrency.getD 0 - n.usage.tasks.executing with _ | m
    · have hle : ¬ n.usage.tasks.executing < p.concurrency.getD 0 := by omega
      simp [hle]
    · have hlt : n.usage.tasks.executing < p.concurrency.getD 0 := by omega
      simp [hlt, List.replicate_succ]
  · simp [hq]

end Accept

/-! ## What a pass changes -/

/-- Where the lists of the entries before `d` are empty, an entry that loses its head is the head of all. -/
theorem flatMap_modify_tail {α β : Type} {g : α → List β} {f : α → α} {l : List α} {d : Nat} {a : α} (hd : l[d]? = some a)
    (hbefore : ∀ i b, i < d → l[i]? = some b → g b = []) (hnil : g a = [] → ∀ b ∈ l, g b = [])
    (hf : g (f a) = (g a).tail) :
    (l.modify d f).flatMap g = (l.flatMap g).tail ∧ (l.flatMap g).head? = (g a).head? := by
  obtain ⟨hlt, ha⟩ := List.getElem?_eq_some_iff.1 hd
  obtain ⟨l₁, b, l₂, rfl, rfl, hm⟩ := List.exists_of_modify f hlt
  obtain rfl : b = a := by simpa using ha
  have h₁ : l₁.flatMap g = [] := by
    rw [List.flatMap_eq_nil_iff]
    intro c hc
    obtain ⟨i, hi⟩ := List.mem_iff_getElem?.1 hc
    have hilt := (List.getElem?_eq_some_iff.1 hi).1
    apply hbefore i c hilt
    rw [List.getElem?_append_left hilt]
    exact hi
  rw [hm, List.flatMap_append, List.flatMap_append, h₁, List.nil_append, List.nil_append, List.flatMap_cons,
    List.flatMap_cons, hf]
  rcases hg : g b with _ | ⟨y, r⟩
  · have h₂ : l₂.flatMap g = [] := by
      rw [List.flatMap_eq_nil_iff]
      intro c hc
      exact hnil hg c (by simp [hc])
    rw [h₂]
    exact ⟨rfl, rfl⟩
  · exact ⟨rfl, rfl⟩

section Changes
variable {s : Pool Data Response} {k d : Nat} {nk nd : WorkerNode Data} {t : Task Data} {q : List (Task Data)}

/-- A quantity summed over the nodes, which does not see the queue of the failed one. -/
theorem sum_redistributed {M : Type} [AddCommMonoid M] (g : WorkerNode Data → M) (hk : s.workerNodes[k]? = some nk)
    (hg : g { nk with tasksQueue := nk.tasksQueue.tail } = g nk)
    (hd : (s.modifyNode k fun m => { m with tasksQueue := m.tasksQueue.tail }).workerNodes[d]? = some nd) [IsCancelAdd M] :
    ((s.redistributed k d t nd).workerNodes.map g).sum + g nd = (s.workerNodes.map g).sum + g (s.acceptTask t nd) := by
  have hfirst := sum_map_modify g hk (fun m => { m with tasksQueue := m.tasksQueue.tail })
  rw [hg] at hfirst
  have hsame := add_right_cancel hfirst
  have hsecond := sum_map_modify g hd (fun _ => s.acceptTask t nd)
  unfold Pool.redistributed
  rw [← hsame]
  exact hsecond

theorem readyHeld_redistributed (he : Errored s k nk)
    (hd : (s.modifyNode k fun m => { m with tasksQueue := m.tasksQueue.tail }).workerNodes[d]? = some nd) :
    (s.redistributed k d t nd).readyHeld = s.readyHeld + if nd.info.ready then {t} else 0 := by
  have hsum := sum_redistributed (t := t) (fun n => if n.info.ready then n.held else 0) he.node (by simp [he.notReady]) hd
  rw [(sameSetup_acceptTask s t nd).info, held_acceptTask] at hsum
  unfold Pool.readyHeld
  by_cases hr : nd.info.ready = true
  · simp only [hr, if_true] at hsum ⊢
    rw [add_comm nd.held, ← add_assoc] at hsum
    exact add_right_cancel hsum
  · simpa only [hr, Bool.false_eq_true, if_false, add_zero] using hsum

/-- The task goes to another node. -/
theorem Errored.pass (he : Errored s k nk) (hq : nk.tasksQueue = t :: q) (hne : d ≠ k)
    (hd : s.workerNodes[d]? = some nd) :
    Errored (s.redistributed k d t nd) k { nk with tasksQueue := q } := by
  refine ⟨?_, he.notReady, fun a ha => ?_⟩
  · unfold Pool.redistributed
    rw [Pool.getElem?_modifyNode_ne _ hne, Pool.getElem?_modifyNode_self _ he.node, hq]
    rfl
  · obtain ⟨i, hi⟩ := List.mem_iff_getElem?.1 ha
    obtain ⟨b, hb, rfl⟩ := Pool.node_of_modifyNode hi
    obtain ⟨c, hc, rfl⟩ := Pool.node_of_modifyNode hb
    split
    · exact (he.plain nd (List.mem_of_getElem? hd)).of_sameSetup (sameSetup_acceptTask s t nd)
    · have hpc := he.plain c (List.mem_of_getElem? hc)
      split
      · exact hpc.of_sameSetup (sameSetup_of_queue c _)
      · exact hpc

/-- The task goes back to the node that has failed. -/
theorem Errored.pass_back (he : Errored s k nk) :
    Errored (s.redistributed k k t { nk with tasksQueue := q }) k (s.acceptTask t { nk with tasksQueue := q }) := by
  have hsetup : SameSetup nk (s.acceptTask t { nk with tasksQueue := q }) :=
    (sameSetup_of_queue nk q).trans (sameSetup_acceptTask s t _)
  refine ⟨?_, ?_, fun a ha => ?_⟩
  · unfold Pool.redistributed
    have hk' := Pool.getElem?_modifyNode_self (fun m => { m with tasksQueue := m.tasksQueue.tail }) he.node
    exact Pool.getElem?_modifyNode_self _ hk'
  · rw [hsetup.info]
    exact he.notReady
  · obtain ⟨i, hi⟩ := List.mem_iff_getElem?.1 ha
    obtain ⟨b, hb, rfl⟩ := Pool.node_of_modifyNode hi
    obtain ⟨c, hc, rfl⟩ := Pool.node_of_modifyNode hb
    by_cases hki : k = i
    · rw [if_pos hki]
      exact (he.plain nk (List.mem_of_getElem? he.node)).of_sameSetup hsetup
    · rw [if_neg hki, if_neg hki]
      exact he.plain c (List.mem_of_getElem? hc)

theorem redistributionBound_redistributed (hbound : k = 0 ∨ d ≠ 0) :
    (s.redistributed k d t nd).redistributionBound k = s.redistributionBound k := by
  unfold Pool.redistributionBound
  by_cases hk : k = 0
  · rw [if_pos hk, if_pos hk]
  · rw [if_neg hk, if_neg hk]
    unfold Pool.redistributed
    rw [Pool.getElem?_modifyNode_ne _ (hbound.resolve_left hk), Pool.getElem?_modifyNode_ne _ hk]

theorem room_redistributed (he : Errored s k nk) (hbound : k = 0 ∨ d ≠ 0)
    (hd : (s.modifyNode k fun m => { m with tasksQueue := m.tasksQueue.tail }).workerNodes[d]? = some nd) :
    (s.redistributed k d t nd).room k + nd.room (s.concurrency.getD 0) (s.redistributionBound k) =
      s.room k + (nd.room (s.concurrency.getD 0) (s.redistributionBound k) - 1) := by
  rw [← room_acceptTask s t nd]
  unfold Pool.room
  rw [redistributionBound_redistributed hbound]
  apply sum_redistributed _ he.node _ hd
  unfold room
  rw [he.notReady]
  rfl

/-- The slot of the task is used up. -/
theorem slots_redistributed (he : Errored s k nk) (hs : Shortest s.workerNodes s.workerNodes.length d nd)
    (hr : nd.info.ready = true) (hne : d ≠ k) :
    (s.redistributed k d t nd).slots = s.slots.tail ∧ s.slots.head? = (s.nodeSlots nd).head? := by
  have hempty (b : WorkerNode Data) (hb : b.info.ready = true → b.tasksQueue.length ≠ 0) : s.nodeSlots b = [] := by
    unfold Pool.nodeSlots
    apply if_neg
    simp only [Bool.and_eq_true, decide_eq_true_eq, not_and]
    exact hb
  -- the failed node has no slots, so it does not matter that a task is taken from its queue
  have hshift : (s.workerNodes.modify k fun m => { m with tasksQueue := m.tasksQueue.tail }).flatMap s.nodeSlots =
      s.slots := by
    unfold Pool.slots
    rw [List.flatMap_def, List.flatMap_def, map_modify_same]
    intro a ha
    rw [he.node] at ha
    cases ha
    unfold Pool.nodeSlots
    simp [he.notReady]
  have hd : (s.workerNodes.modify k fun m => { m with tasksQueue := m.tasksQueue.tail })[d]? = some nd :=
    (Pool.getElem?_modifyNode_ne (p := s) _ hne.symm).trans hs.node
  have hnode {i : Nat} {b : WorkerNode Data}
      (hb : (s.workerNodes.modify k fun m => { m with tasksQueue := m.tasksQueue.tail })[i]? = some b)
      (hbr : b.info.ready = true) : i < s.workerNodes.length ∧ s.workerNodes[i]? = some b := by
    obtain ⟨a, ha, rfl⟩ := Pool.node_of_modifyNode (p := s) hb
    by_cases hki : k = i
    · subst hki
      rw [he.node] at ha
      cases ha
      rw [if_pos rfl] at hbr
      exact absurd hbr (by simp [he.notReady])
    · rw [if_neg hki]
      exact ⟨Pool.lt_of_node ha, ha⟩
  have hmod := flatMap_modify_tail (g := s.nodeSlots) (f := fun _ => s.acceptTask t nd) hd (fun i b hi hb => ?_)
    (fun hnil b hb => ?_) (nodeSlots_acceptTask s t nd)
  · rw [hshift] at hmod
    exact hmod
  · apply hempty
    intro hbr
    obtain ⟨hlt, hb'⟩ := hnode hb hbr
    have := (hs.least i b hlt hb' hbr).2 hi
    omega
  · apply hempty
    intro hbr hlen
    obtain ⟨i, hi⟩ := List.mem_iff_getElem?.1 hb
    obtain ⟨hlt, hi'⟩ := hnode hi hbr
    have := (hs.least i b hlt hi' hbr).1
    have hzero : nd.tasksQueue.length = 0 := by omega
    unfold Pool.nodeSlots at hnil
    simp [hr, hzero] at hnil

/-! ## Where the destination is -/

/-- A node with room is ready, and its queue is shorter than the bound. -/
theorem exists_room (hroom : 0 < s.room k) : ∃ (i : Nat) (a : WorkerNode Data), s.workerNodes[i]? = some a ∧
    a.info.ready = true ∧ a.tasksQueue.length < s.redistributionBound k := by
  by_contra hno
  have hzero : s.room k = 0 := by
    unfold Pool.room
    apply List.sum_eq_zero
    intro x hx
    obtain ⟨a, ha, rfl⟩ := List.mem_map.1 hx
    obtain ⟨i, hi⟩ := List.mem_iff_getElem?.1 ha
    unfold room
    by_cases hr : a.info.ready = true
    · have hle : ¬ a.tasksQueue.length < s.redistributionBound k := fun hlt => hno ⟨i, a, hi, hr, hlt⟩
      rw [if_pos hr, if_neg (by omega)]
      omega
    · rw [if_neg hr]
  omega

/-- While there is room the destination is ready, and below the bound unless node `0` is ready. -/
theorem destination_of_hasRoom (he : Errored s k nk) (hq : nk.tasksQueue = t :: q) (hroom : s.HasRoom k nk)
    (hs : Shortest s.workerNodes s.workerNodes.length d nd) :
    nd.info.ready = true ∧ (s.workerNodes[0]?.any (·.info.ready) = true ∨
      d ≠ 0 ∧ nd.tasksQueue.length < s.redistributionBound k) := by
  rcases hroom with h₀ | hle
  · refine ⟨?_, .inl h₀⟩
    by_cases hd : d = 0
    · subst hd
      rw [hs.node] at h₀
      exact h₀
    · exact (hs.ready hd).1
  · have hpos : 0 < s.room k := by
      rw [hq, List.length_cons] at hle
      omega
    obtain ⟨i, a, hi, har, hlt⟩ := exists_room hpos
    have hmin := (hs.least i a (Pool.lt_of_node hi) hi har).1
    have hd : d ≠ 0 := by
      rintro rfl
      unfold Pool.redistributionBound at hlt
      split at hlt
      · rename_i hk
        subst hk
        have hnode := hs.node
        rw [he.node] at hnode
        cases hnode
        rw [hq, List.length_cons] at hmin
        omega
      · rw [hs.node, Option.elim_some] at hlt
        omega
    exact ⟨(hs.ready hd).1, .inr ⟨hd, by omega⟩⟩

/-- A node that is ready and below the bound has room. -/
theorem room_pos {c bound : Nat} (hr : nd.info.ready = true) (hlt : nd.tasksQueue.length < bound) :
    0 < nd.room c bound := by
  unfold room
  rw [if_pos hr]
  omega

theorem room_le_room (hd : nd ∈ s.workerNodes) :
    nd.room (s.concurrency.getD 0) (s.redistributionBound k) ≤ s.room k :=
  List.single_le_sum (fun _ _ => Nat.zero_le _) _ (List.mem_map_of_mem hd)

theorem firstReady_redistributed
    (hd : (s.modifyNode k fun m => { m with tasksQueue := m.tasksQueue.tail }).workerNodes[d]? = some nd) :
    (s.redistributed k d t nd).workerNodes[0]?.any (·.info.ready) = s.workerNodes[0]?.any (·.info.ready) := by
  have hinfos : (s.redistributed k d t nd).workerNodes.map (·.info) = s.workerNodes.map (·.info) := by
    unfold Pool.redistributed
    refine (map_modify_same fun a ha => ?_).trans (map_modify_same fun _ _ => rfl)
    rw [hd] at ha
    cases ha
    exact (sameSetup_acceptTask s t nd).info
  have hfirst := congrArg (fun l => l[0]?.any (·.ready)) hinfos
  simpa only [List.getElem?_map, Option.any_map] using hfirst

/-- Room for the queue is room for the rest of it after a pass. -/
theorem hasRoom_redistributed (he : Errored s k nk) (hq : nk.tasksQueue = t :: q) (hroom : s.HasRoom k nk)
    (hs : Shortest s.workerNodes s.workerNodes.length d nd)
    (hd : (s.modifyNode k fun m => { m with tasksQueue := m.tasksQueue.tail }).workerNodes[d]? = some nd) :
    (s.redistributed k d t nd).HasRoom k { nk with tasksQueue := q } := by
  obtain ⟨hr, hdest⟩ := destination_of_hasRoom he hq hroom hs
  unfold Pool.HasRoom
  rw [firstReady_redistributed hd]
  rcases hdest with h₀ | ⟨hd0, hlt⟩
  · exact .inl h₀
  · refine hroom.imp id fun hle => ?_
    have hsum := room_redistributed (t := t) he (.inr hd0) hd
    have hpos := room_pos (c := s.concurrency.getD 0) hr hlt
    rw [hq, List.length_cons] at hle
    show q.length ≤ _
    omega

/-- A queue there is no room for has no room after a pass either, if the destination is ready. -/
theorem not_hasRoom_redistributed (he : Errored s k nk) (hq : nk.tasksQueue = t :: q) (hroom : ¬ s.HasRoom k nk)
    (hs : Shortest s.workerNodes s.workerNodes.length d nd) (hr : nd.info.ready = true)
    (hd : (s.modifyNode k fun m => { m with tasksQueue := m.tasksQueue.tail }).workerNodes[d]? = some nd) :
    ¬ (s.redistributed k d t nd).HasRoom k { nk with tasksQueue := q } := by
  unfold Pool.HasRoom at hroom ⊢
  rw [firstReady_redistributed hd]
  rw [not_or, not_le, hq, List.length_cons] at hroom
  obtain ⟨h₀, hgt⟩ := hroom
  have hd0 : d ≠ 0 := by
    rintro rfl
    rw [hs.node] at h₀
    exact h₀ hr
  obtain ⟨-, n₀, hn₀, hlt₀⟩ := hs.ready hd0
  have hsum := room_redistributed (t := t) he (.inr hd0) hd
  have hle := room_le_room (k := k) (List.mem_of_getElem? hs.node)
  rw [not_or, not_le]
  refine ⟨h₀, ?_⟩
  show _ < q.length
  by_cases hlt : nd.tasksQueue.length < s.redistributionBound k
  · have hpos := room_pos (c := s.concurrency.getD 0) hr hlt
    omega
  · -- only the last tasks of node `0` itself are left without any room
    have hzero : s.room k = 0 := by
      by_contra hpos
      obtain ⟨i, a, hi, har, hai⟩ := exists_room (Nat.pos_of_ne_zero hpos)
      have hmin := (hs.least i a (Pool.lt_of_node hi) hi har).1
      omega
    unfold Pool.redistributionBound at hlt
    split at hlt
    · rename_i hk
      subst hk
      rw [he.node] at hn₀
      cases hn₀
      rw [hq, List.length_cons] at hlt₀
      omega
    · rw [hn₀, Option.elim_some] at hlt
      omega

theorem sendable_cons (u : Task Data) (l : List (Task Data)) : s.Sendable (u :: l) ↔
    (∀ f ∈ s.slots.head?, f u = true) ∧ ∀ x ∈ l.zip s.slots.tail, x.2 x.1 = true := by
  unfold Pool.Sendable
  rcases s.slots with _ | ⟨f, r⟩ <;> simp

end Changes

/-! ## The whole queue -/

section Queue
variable {cb : Callbacks Data Response} {s : Pool Data Response} {k : Nat} {nk : WorkerNode Data}

/-- Where there is room, every task goes to a ready node in a pass of its own. -/
theorem redistribute_room {q : List (Task Data)} (he : Errored s k nk) (hq : nk.tasksQueue = q) (hroom : s.HasRoom k nk)
    (fuel : Nat) : Returns (redistributeQueuedTasks cb fuel k) (fun _ => Emptied k (s.readyHeld + ↑q)) s ↔
      q.length < fuel ∧ s.Sendable q := by
  induction q generalizing s nk fuel with
  | nil =>
    cases fuel with
    | zero => simp [redistribute_zero]
    | succ fuel =>
      rw [redistribute_nil he.node hq]
      constructor
      · intro _
        refine ⟨Nat.zero_lt_succ fuel, fun x hx => ?_⟩
        rw [List.zip_nil_left] at hx
        cases hx
      · intro _
        exact ⟨⟨nk, he.node, he.notReady, hq⟩, by simp⟩
  | cons t q ih =>
    cases fuel with
    | zero => simp [redistribute_zero]
    | succ fuel =>
      obtain ⟨nd, hs⟩ := shortest_redistributionKey (Nat.zero_lt_of_lt (Pool.lt_of_node he.node))
      obtain ⟨hr, -⟩ := destination_of_hasRoom he hq hroom hs
      have hne : redistributionKey s ≠ k := by
        intro heq
        have hnode := hs.node
        rw [heq, he.node] at hnode
        cases hnode
        rw [he.notReady] at hr
        cases hr
      have hd := taker_other hne hs.node
      obtain ⟨hslots, hhead⟩ := slots_redistributed (t := t) he hs hr hne
      have hheld := readyHeld_redistributed (t := t) he hd
      rw [hr, if_pos rfl] at hheld
      have hrest := ih (he.pass hq hne hs.node) rfl (hasRoom_redistributed he hq hroom hs hd) fuel
      rw [hheld, add_assoc, Multiset.singleton_add, Multiset.cons_coe] at hrest
      unfold Pool.Sendable at hrest
      rw [hslots] at hrest
      rw [redistribute_cons he hq hd, hrest, sendable_cons, hhead, nodeSlots_head s t nd hr, List.length_cons]
      constructor
      · rintro ⟨hsend, hlt, hzip⟩
        exact ⟨Nat.succ_lt_succ hlt, hsend, hzip⟩
      · rintro ⟨hlt, hsend, hzip⟩
        exact ⟨hsend, Nat.lt_of_succ_lt_succ hlt, hzip⟩

/-- The ready nodes never get more than what waited at the node that has failed. -/
theorem readyHeld_le {h : Multiset (Task Data)} {fuel : Nat} (he : Errored s k nk)
    (hret : Returns (redistributeQueuedTasks cb fuel k) (fun _ => Emptied k h) s) :
    Multiset.card h ≤ Multiset.card s.readyHeld + nk.tasksQueue.length := by
  induction fuel generalizing s nk with
  | zero => exact (redistribute_zero.1 hret).elim
  | succ fuel ih =>
    rcases hq : nk.tasksQueue with _ | ⟨t, q⟩
    · rw [redistribute_nil he.node hq] at hret
      rw [hret.readyHeld]
      exact Nat.le_add_right _ _
    · obtain ⟨nd, hs⟩ := shortest_redistributionKey (Nat.zero_lt_of_lt (Pool.lt_of_node he.node))
      by_cases hk : redistributionKey s = k
      · have hd := he.taker_self hq hk
        rw [redistribute_cons he hq hd] at hret
        obtain ⟨-, hret⟩ := hret
        rw [hk] at hret hd
        have hle := ih he.pass_back hret
        have hheld := readyHeld_redistributed (t := t) he hd
        have hnot : ¬ ({ nk with tasksQueue := q } : WorkerNode Data).info.ready = true := by simp [he.notReady]
        rw [if_neg hnot, add_zero] at hheld
        have hlen : (s.acceptTask t { nk with tasksQueue := q }).tasksQueue.length ≤ q.length + 1 := by
          unfold Pool.acceptTask
          split
          · rw [startTask_tasksQueue]
            exact Nat.le_succ _
          · simp
        rw [hheld] at hle
        rw [List.length_cons]
        omega
      · have hd := taker_other hk hs.node
        rw [redistribute_cons he hq hd] at hret
        have hle := ih (he.pass hq hk hs.node) hret.2
        rw [readyHeld_redistributed (t := t) he hd, Multiset.card_add] at hle
        have hone : Multiset.card (if nd.info.ready then ({t} : Multiset (Task Data)) else 0) ≤ 1 := by
          split <;> simp
        have hlen : ({ nk with tasksQueue := q } : WorkerNode Data).tasksQueue.length = q.length := rfl
        rw [hlen] at hle
        rw [List.length_cons]
        omega

/-- A task that goes back to the node that has failed leaves as little room as there was. -/
theorem not_hasRoom_back (he : Errored s k nk) (hq : nk.tasksQueue = t :: q) (hroom : ¬ s.HasRoom k nk) (hk : k = 0)
    (hd : (s.modifyNode k fun m => { m with tasksQueue := m.tasksQueue.tail }).workerNodes[k]? =
      some { nk with tasksQueue := q }) :
    ¬ (s.redistributed k k t { nk with tasksQueue := q }).HasRoom k { nk with tasksQueue := q ++ [t] } := by
  have hnot : ¬ ({ nk with tasksQueue := q } : WorkerNode Data).info.ready = true := by simp [he.notReady]
  unfold Pool.HasRoom at hroom ⊢
  have hsum := room_redistributed (t := t) he (.inl hk) hd
  have hzero : ({ nk with tasksQueue := q } : WorkerNode Data).room (s.concurrency.getD 0)
      (s.redistributionBound k) = 0 := if_neg hnot
  rw [hzero] at hsum
  rw [hq, List.length_cons] at hroom
  rw [firstReady_redistributed hd, List.length_append, List.length_singleton]
  rwa [show (s.redistributed k k t { nk with tasksQueue := q }).room k = s.room k by omega]

/-- Where there is no room, a task goes to a node that is not ready, or round for ever. -/
theorem redistribute_no_room {h : Multiset (Task Data)} (fuel : Nat) (he : Errored s k nk) (hroom : ¬ s.HasRoom k nk)
    (hh : h = s.readyHeld + ↑nk.tasksQueue) :
    ¬ Returns (redistributeQueuedTasks cb fuel k) (fun _ => Emptied k h) s := by
  induction fuel generalizing s nk with
  | zero => exact redistribute_zero.1
  | succ fuel ih =>
    rcases hq : nk.tasksQueue with _ | ⟨t, q⟩
    · refine absurd (.inr ?_) hroom
      rw [hq]
      exact Nat.zero_le _
    · obtain ⟨nd, hs⟩ := shortest_redistributionKey (Nat.zero_lt_of_lt (Pool.lt_of_node he.node))
      have hcard : Multiset.card h = Multiset.card s.readyHeld + q.length + 1 := by
        rw [hh, hq, Multiset.card_add, Multiset.coe_card, List.length_cons]
        omega
      by_cases hk : redistributionKey s = k
      · have hd := he.taker_self hq hk
        rw [redistribute_cons he hq hd]
        rintro ⟨-, hret⟩
        rw [hk] at hret hd
        have hnot : ¬ ({ nk with tasksQueue := q } : WorkerNode Data).info.ready = true := by simp [he.notReady]
        have hheld := readyHeld_redistributed (t := t) he hd
        rw [if_neg hnot, add_zero] at hheld
        by_cases hsh : s.shallExecute { nk with tasksQueue := q } = true
        · -- the worker that has failed is sent the task
          have hle := readyHeld_le he.pass_back hret
          have hqueue : (s.acceptTask t { nk with tasksQueue := q }).tasksQueue = q := by
            unfold Pool.acceptTask
            rw [if_pos hsh, startTask_tasksQueue]
          rw [hheld, hqueue] at hle
          omega
        · have haccept : s.acceptTask t { nk with tasksQueue := q } = { nk with tasksQueue := q ++ [t] } := by
            unfold Pool.acceptTask
            rw [if_neg hsh]
          have hk0 : k = 0 := by
            by_contra hne
            obtain ⟨hr, -⟩ := hs.ready (by rwa [hk])
            have hnode := hs.node
            rw [hk, he.node] at hnode
            cases hnode
            exact hnot hr
          have hback := he.pass_back (t := t) (q := q)
          rw [haccept] at hback
          refine ih hback (not_hasRoom_back he hq hroom hk0 hd) ?_ hret
          · rw [hh, hheld, hq]
            congr 1
            exact Multiset.coe_eq_coe.2 (List.perm_append_singleton t q).symm
      · have hd := taker_other hk hs.node
        rw [redistribute_cons he hq hd]
        rintro ⟨-, hret⟩
        have hheld := readyHeld_redistributed (t := t) he hd
        by_cases hr : nd.info.ready = true
        · refine ih (he.pass hq hk hs.node) (not_hasRoom_redistributed he hq hroom hs hr hd) ?_ hret
          rw [hh, hheld, if_pos hr, hq, add_assoc, Multiset.singleton_add, Multiset.cons_coe]
        · -- a node that is not ready gets the task
          have hle := readyHeld_le (he.pass hq hk hs.node) hret
          have hqueue : ({ nk with tasksQueue := q } : WorkerNode Data).tasksQueue = q := rfl
          rw [hheld, if_neg hr, add_zero, hqueue] at hle
          omega

/-- The queue of a node that has failed is emptied, every task of it going to a ready node, exactly when node
`0` is ready or the other nodes have room for it, and the tasks that are sent at once can be sent. -/
theorem redistributeQueuedTasks_iff (hk : s.workerNodes[k]? = some nk) (hready : nk.info.ready = false)
    (hplain : ∀ a ∈ s.workerNodes, Plain a) :
    (∃ fuel, Returns (redistributeQueuedTasks (callbacks fuel) fuel k)
      (fun _ => Emptied k (s.readyHeld + (↑nk.tasksQueue : Multiset (Task Data)))) s) ↔ s.HasRoom k nk ∧ s.Sendable nk.tasksQueue := by
  have he : Errored s k nk := ⟨hk, hready, hplain⟩
  constructor
  · rintro ⟨fuel, hret⟩
    have hroom : s.HasRoom k nk := by
      by_contra hno
      exact redistribute_no_room fuel he hno rfl hret
    exact ⟨hroom, ((redistribute_room he rfl hroom fuel).1 hret).2⟩
  · rintro ⟨hroom, hsend⟩
    refine ⟨nk.tasksQueue.length + 1, ?_⟩
    exact (redistribute_room he rfl hroom _).2 ⟨Nat.lt_succ_self _, hsend⟩

end Queue

/-- The first of `size` workers fails, with a task in flight and two in the queue; the second has as many. -/
def failedPool (size : Nat) : Pool Unit Unit :=
  let p := startedPool size true ⟨some 4, some 1, false, false⟩
  let task (taskId : Nat) : Task Unit := ⟨defaultTaskName, (), 0, taskId⟩
  (p.modifyNode 0 fun n =>
    { (p.startTask (task 0) n).closeChannel with info.ready := false, tasksQueue := [task 1, task 2] }).modifyNode 1
    fun n => { p.startTask (task 3) n with tasksQueue := [task 4, task 5] }

/-- The third worker is idle, and takes both tasks. -/
theorem redistributed_to_idle_worker : ∃ n, (failedPool 3).workerNodes[0]? = some n ∧ n.tasksQueue.length = 2 ∧
    ∃ fuel, Returns (redistributeQueuedTasks (callbacks fuel) fuel 0)
      (fun _ => Emptied 0 ((failedPool 3).readyHeld + (↑n.tasksQueue : Multiset (Task Unit)))) (failedPool 3) :=
  ⟨_, rfl, rfl, (redistributeQueuedTasks_iff rfl rfl (by decide +kernel)).2 (by decide +kernel)⟩

/-- No queue is shorter than that of the worker that has failed, once it has been taken from: its last task
goes back to it for ever. -/
theorem redistribution_goes_round :
    ¬ ∀ (s : Pool Unit Unit) (k : Nat) (n : WorkerNode Unit), s.opts.enableTasksQueue = true →
      s.workerNodes[k]? = some n → n.info.ready = false → (∃ a ∈ s.workerNodes, a.info.ready = true) →
      (∀ a ∈ s.workerNodes, Plain a) → (∀ a ∈ s.workerNodes, a.info.ready = true → ∀ t, s.canSend a t = true) →
      ∃ fuel, Returns (redistributeQueuedTasks (callbacks fuel) fuel k)
        (fun _ => Emptied k (s.readyHeld + (↑n.tasksQueue : Multiset (Task Unit)))) s := by
  intro hall
  have hplain : ∀ a ∈ (failedPool 2).workerNodes, Plain a := by decide +kernel
  have hopen : ∀ a ∈ (failedPool 2).workerNodes, a.info.ready = true → a.channelOpen = true := by decide +kernel
  obtain ⟨fuel, hret⟩ := hall (failedPool 2) 0 _ rfl rfl rfl (by decide +kernel) hplain fun a ha hr t => by
    unfold Pool.canSend
    rw [hopen a ha hr]
    rfl
  exact redistribute_no_room fuel ⟨rfl, rfl, hplain⟩ (by decide +kernel) rfl hret

end Poolifier
