import Poolifier.Outline
import Poolifier.Plain
/-!
# Nodes agree with the tasks queue options

While the tasks queue is enabled, the callbacks and the back pressure size of
every node are those the options ask for; while it is disabled, no callback is
installed and every queue is empty. Nodes get their setup from the constructor
of a node, from `afterWorkerNodeSetup` and from the setters of the options, and
all of them write the same.
-/

namespace Poolifier

open EffLib RunLib WorkerNode

variable {Data Response : Type}

/-- No field of the options is given as `undefined`. -/
def TasksQueueOptionsArgument.Defined : TasksQueueOptionsArgument → Prop
  | .object o =>
    o.size ≠ .undefined ∧ o.concurrency ≠ .undefined ∧ o.taskStealing ≠ .undefined ∧
      o.tasksStealingOnBackPressure ≠ .undefined
  | _ => True

instance : DecidablePred TasksQueueOptionsArgument.Defined
  | .object o => inferInstanceAs (Decidable (o.size ≠ .undefined ∧ _))
  | .undefined | .notPlainObject => inferInstanceAs (Decidable True)

/-- A node is set up as the options of its pool say. -/
def Pool.Agrees (p : Pool Data Response) (n : WorkerNode Data) : Prop :=
  if p.opts.enableTasksQueue then
    ∃ q, p.opts.tasksQueueOptions = some q ∧ n.onEmptyQueue = q.taskStealing ∧
      n.onBackPressure = q.tasksStealingOnBackPressure ∧ n.tasksQueueBackPressureSize = q.size
  else n.onEmptyQueue = false ∧ n.onBackPressure = false ∧ n.tasksQueue = []

/-- Options that are to be checked are accepted, and no field is `undefined`. -/
def TasksQueueOptionsArgument.Accepted (a : TasksQueueOptionsArgument) : Prop :=
  checkValidTasksQueueOptions a = .ok () ∧ a.Defined

instance : DecidablePred TasksQueueOptionsArgument.Accepted := fun a => inferInstanceAs (Decidable (_ ∧ a.Defined))

/-- Calls with accepted options; where the queue is disabled, each task that waits can be sent to its worker. -/
def OptionsAccepted (p : Pool Data Response) : Event Data Response → Prop
  | .enableTasksQueue true a => a.Accepted
  | .enableTasksQueue false _ => p.opts.enableTasksQueue = true →
      ∀ n ∈ p.workerNodes, ∀ t ∈ n.tasksQueue, p.canSend n t = true
  | .setTasksQueueOptions a => p.opts.enableTasksQueue = true → a.Accepted
  | _ => True

instance (p : Pool Data Response) : DecidablePred (OptionsAccepted p)
  | .enableTasksQueue true a => inferInstanceAs (Decidable a.Accepted)
  | .enableTasksQueue false _ =>
    inferInstanceAs (Decidable (p.opts.enableTasksQueue = true → ∀ n ∈ p.workerNodes, ∀ t ∈ n.tasksQueue, _))
  | .setTasksQueueOptions a => inferInstanceAs (Decidable (p.opts.enableTasksQueue = true → a.Accepted))
  | .execute .. | .message .. | .poll _ | .error _ | .exit _ | .start | .destroy | .destroyed =>
    inferInstanceAs (Decidable True)

/-! ## The outline -/

/-- Accepted options leave no size open. -/
theorem size_of_accepted {a : TasksQueueOptionsArgument} (h : a.Accepted) (maxSize : Nat) :
    ∃ z, (buildTasksQueueOptions maxSize a).size = some z := by
  obtain ⟨hcheck, hdefined⟩ := h
  rcases buildTasksQueueOptions_size hcheck maxSize with ⟨-, hsize⟩ | ⟨hundefined, -⟩ | ⟨n, -, -, -, hsize⟩
  · exact ⟨_, hsize⟩
  · cases a with
    | object o => exact absurd hundefined hdefined.1
    | undefined => cases hundefined
    | notPlainObject => cases hundefined
  · exact ⟨n, hsize⟩

namespace Outline

/-- The callbacks and sizes of all nodes are those the options ask for. -/
def Agrees (o : Outline) : Prop :=
  if o.opts.enableTasksQueue then
    ∃ q z, o.opts.tasksQueueOptions = some q ∧ q.size = some z ∧ ∀ n ∈ o.nodes, n.configure q = n
  else ∀ n ∈ o.nodes, n.unset = n

variable {o : Outline}

theorem agrees_enabled (h : o.opts.enableTasksQueue = true) :
    o.Agrees ↔ ∃ q z, o.opts.tasksQueueOptions = some q ∧ q.size = some z ∧ ∀ n ∈ o.nodes, n.configure q = n := by
  rw [Agrees, if_pos h]

theorem agrees_disabled (h : o.opts.enableTasksQueue = false) : o.Agrees ↔ ∀ n ∈ o.nodes, n.unset = n := by
  rw [Agrees, if_neg (Bool.eq_false_iff.1 h)]

theorem Agrees.join (h : o.Agrees) (dynamic : Bool) : (o.join dynamic).Agrees := by
  rcases he : o.opts.enableTasksQueue with _ | _
  · rw [agrees_disabled he] at h
    rw [agrees_disabled (o := o.join dynamic) he]
    intro n hn
    rcases List.mem_append.1 hn with hn | hn
    · exact h n hn
    · rw [List.mem_singleton.1 hn]
      simp [newNode, NodeOutline.unset, he]
  · obtain ⟨q, z, hq, hz, hnodes⟩ := (agrees_enabled he).1 h
    refine (agrees_enabled (o := o.join dynamic) he).2 ⟨q, z, hq, hz, fun n hn => ?_⟩
    rcases List.mem_append.1 hn with hn | hn
    · exact hnodes n hn
    · rw [List.mem_singleton.1 hn]
      simp [newNode, newNodeSize, NodeOutline.configure, he, hq, hz]

theorem Agrees.leave (h : o.Agrees) (w : Nat) : (o.leave w).Agrees := by
  have hsub : ∀ n ∈ (o.leave w).nodes, n ∈ o.nodes := fun n hn => List.mem_of_mem_eraseP hn
  rcases he : o.opts.enableTasksQueue with _ | _
  · rw [agrees_disabled he] at h
    exact (agrees_disabled (o := o.leave w) he).2 fun n hn => h n (hsub n hn)
  · obtain ⟨q, z, hq, hz, hnodes⟩ := (agrees_enabled he).1 h
    exact (agrees_enabled (o := o.leave w) he).2 ⟨q, z, hq, hz, fun n hn => hnodes n (hsub n hn)⟩

theorem Agrees.error (h : o.Agrees) (w : Nat) : (o.error w).Agrees := by
  rcases hf : o.nodes.find? (·.id = w) with _ | n
  · rw [error_none hf]
    exact h
  · rw [error_some hf]
    split
    · exact h.join _
    · exact h

/-- The flags do not matter. -/
theorem Agrees.setFlags (h : o.Agrees) (starting started : Bool) : Agrees { o with starting, started } := h

theorem Agrees.fill (h : o.Agrees) : o.fill.Agrees := by
  unfold Outline.fill
  generalize o.numberOfWorkers - o.statics = j
  induction j with
  | zero => exact h
  | succ j ih =>
    rw [Function.iterate_succ_apply']
    exact ih.join false

theorem Agrees.start (h : o.Agrees) : o.start.Agrees := by
  unfold Outline.start
  split
  · exact h.fill.setFlags false true
  · exact h.setFlags true o.started

/-- Where the queue is enabled, accepted options set every node up anew. -/
theorem agrees_setTasksQueueOptions {a : TasksQueueOptionsArgument} (he : o.opts.enableTasksQueue = true) (ha : a.Accepted) :
    (o.setTasksQueueOptions a).Agrees := by
  obtain ⟨z, hz⟩ := size_of_accepted ha o.maxSize
  rw [Outline.setTasksQueueOptions, if_pos he, ha.1]
  dsimp only
  rw [agrees_enabled (by exact he)]
  refine ⟨_, z, rfl, hz, fun n hn => ?_⟩
  obtain ⟨m, -, rfl⟩ := List.mem_map.1 hn
  rfl

/-- Where it is disabled, the options are dropped, and no node has callbacks to lose. -/
theorem Agrees.dropTasksQueueOptions (h : o.Agrees) (he : o.opts.enableTasksQueue = false) (a : TasksQueueOptionsArgument) :
    (o.setTasksQueueOptions a).Agrees := by
  rw [Outline.setTasksQueueOptions, if_neg (Bool.eq_false_iff.1 he)]
  rw [agrees_disabled (by exact he)]
  exact (agrees_disabled he).1 h

theorem Agrees.setTasksQueueOptions (h : o.Agrees) {a : TasksQueueOptionsArgument}
    (ha : o.opts.enableTasksQueue = true → a.Accepted) : (o.setTasksQueueOptions a).Agrees := by
  rcases he : o.opts.enableTasksQueue with _ | _
  · exact h.dropTasksQueueOptions he a
  · exact agrees_setTasksQueueOptions he (ha he)

theorem Agrees.enableTasksQueue (h : o.Agrees) {enable : Bool} {a : TasksQueueOptionsArgument}
    (ha : enable = true → a.Accepted) : (o.enableTasksQueue enable a).Agrees := by
  unfold Outline.enableTasksQueue
  cases enable with
  | true => exact agrees_setTasksQueueOptions rfl (ha rfl)
  | false =>
    refine Agrees.dropTasksQueueOptions ((agrees_disabled rfl).2 ?_) rfl a
    rcases he : o.opts.enableTasksQueue with _ | _
    · exact (agrees_disabled he).1 h
    · intro n hn
      obtain ⟨m, -, rfl⟩ := List.mem_map.1 hn
      rfl

end Outline

/-- Options that the constructor has checked are those of its first nodes. -/
theorem agrees_of_created {c : PoolConfig Data} {startWorkers : Bool} {s : Pool Data Response}
    (h : Created c startWorkers s) (hc : c.tasksQueueOptions.Defined) : s.outline.Agrees := by
  obtain ⟨-, hcheck, -, hout⟩ := created_outline h
  have hinit : (initialOutline c).Agrees := by
    rcases he : c.enableTasksQueue with _ | _
    · exact (Outline.agrees_disabled he).2 (List.forall_mem_nil _)
    · obtain ⟨z, hz⟩ := size_of_accepted ⟨hcheck he, hc⟩ c.numberOfWorkers
      refine (Outline.agrees_enabled he).2 ⟨buildTasksQueueOptions c.numberOfWorkers c.tasksQueueOptions, z, ?_, hz, List.forall_mem_nil _⟩
      simp [initialOutline, Pool.outline, initialPool, he]
  rw [hout, createdOutline]
  cases startWorkers with
  | true =>
    rw [if_pos rfl]
    exact hinit.start
  | false =>
    rw [if_neg Bool.false_ne_true]
    exact hinit

/-! ## Empty queues stay empty -/

def Pool.QueuesEmpty (p : Pool Data Response) : Prop := ∀ n ∈ p.workerNodes, n.tasksQueue = []

section Empty
variable {p p' s s' : Pool Data Response}

theorem Pool.QueuesEmpty.of_map (h : p.QueuesEmpty)
    (hq : p'.workerNodes.map (·.tasksQueue) = p.workerNodes.map (·.tasksQueue)) : p'.QueuesEmpty := by
  intro n hn
  have hm : n.tasksQueue ∈ p.workerNodes.map (·.tasksQueue) := hq ▸ List.mem_map_of_mem hn
  obtain ⟨m, hm, heq⟩ := List.mem_map.1 hm
  rw [← heq]
  exact h m hm

theorem Pool.QueuesEmpty.modifyNode (h : p.QueuesEmpty) (k : Nat) {f : WorkerNode Data → WorkerNode Data}
    (hf : ∀ n, p.workerNodes[k]? = some n → (f n).tasksQueue = n.tasksQueue) : (p.modifyNode k f).QueuesEmpty :=
  h.of_map (map_modify_same fun n hn => hf n hn)

/-- With nothing in hand and nothing queued, there is nothing to move. -/
theorem Move.queuesEmpty {g l : Prop} {a b : Config Data Response} (hm : Move g l a b)
    (h : a.1.QueuesEmpty ∧ a.2 = 0) : b.1.QueuesEmpty ∧ b.2 = 0 := by
  obtain ⟨he, hhand⟩ := h
  cases hm with
  | book i f hf => exact ⟨he.modifyNode i fun n hn => (hf n hn).tasksQueue, hhand⟩
  | shift hn hq =>
    rw [he _ (List.mem_of_getElem? hn)] at hq
    cases hq
  | pop hn hq =>
    rw [he _ (List.mem_of_getElem? hn)] at hq
    simp at hq
  | push hn hs => exact absurd hhand (Multiset.cons_ne_zero)
  | send hn hg hs => exact absurd hhand (Multiset.cons_ne_zero)
  | fail hl => exact ⟨he.modifyNode _ fun n _ => beforeTaskExecution_tasksQueue _ _ _ n, hhand⟩
  | drop hl =>
    have hcard := congrArg Multiset.card hhand
    rw [Multiset.card_add, Multiset.card_zero, Nat.add_eq_zero_iff] at hcard
    exact ⟨he, Multiset.card_eq_zero.1 hcard.1⟩

theorem Tidy.queuesEmpty (h : Tidy p p') (he : p.QueuesEmpty) : p'.QueuesEmpty := by
  obtain ⟨m, hm⟩ := h.work
  intro n hn
  have hwork : n.work ∈ p'.workerNodes.map WorkerNode.work := List.mem_map_of_mem hn
  rw [hm] at hwork
  rcases List.mem_append.1 hwork with hw | hw
  · obtain ⟨a, ha, heq⟩ := List.mem_map.1 hw
    have hq : a.tasksQueue = n.tasksQueue := congrArg Prod.snd heq
    rw [← hq]
    exact he a ha
  · exact congrArg Prod.snd (List.eq_of_mem_replicate hw)

theorem Flow.queuesEmpty {h : Multiset (Task Data)} (hf : Flow (p, 0) (p', h)) (he : p.QueuesEmpty) :
    p'.QueuesEmpty := by
  have hinv := RunLib.inv_of_chain (I := fun c : Config Data Response => c.1.QueuesEmpty ∧ c.2 = 0)
    (fun a b hab ha => ?_) hf ⟨he, rfl⟩
  · exact hinv.1
  · rcases hab with hm | ⟨ht, hhand⟩
    · exact hm.queuesEmpty ha
    · exact ⟨ht.queuesEmpty ha.1, hhand.trans ha.2⟩

theorem Pool.QueuesEmpty.settle (h : p.QueuesEmpty) (taskId : Nat) (r : Settlement Response) :
    (p.settle taskId r).QueuesEmpty := by
  unfold Pool.QueuesEmpty
  rw [Pool.settle_workerNodes]
  exact h

theorem Pool.QueuesEmpty.responded (h : p.QueuesEmpty) (w : Nat) (m : TaskResponse Response) (k : Nat) :
    (p.responded w m k).QueuesEmpty := by
  have hanswer : (p.modifyNode (p.getWorkerNodeKeyByWorkerId w) (·.answer m.taskId)).QueuesEmpty :=
    h.modifyNode _ fun n _ => rfl
  exact (hanswer.settle m.taskId m.settlement).modifyNode k fun n _ => afterTaskExecution_tasksQueue _ m n

theorem Effect.queuesEmpty {e : Event Data Response} {r : Except JsError Unit} (h : Effect s e r s')
    (hexec : ∀ taskId name data choice, e ≠ .execute taskId name data choice) (he : s.QueuesEmpty) : s'.QueuesEmpty := by
  cases h with
  | flows hf => exact hf.queuesEmpty he
  | fails lost hs hf => exact hf.queuesEmpty he
  | refused hf => exact absurd rfl (hexec _ _ _ _)
  | called t k ht hf hf' => exact absurd rfl (hexec _ _ _ _)
  | callFails t k lost hh ht hf hf' hp => exact absurd rfl (hexec _ _ _ _)
  | answered k lost hn hl hk hf hr => exact hf.queuesEmpty (he.responded _ _ k)
  | unknownTask hn hl => exact he.modifyNode _ fun n _ => rfl
  | dangling k hn hl hk =>
    refine Pool.QueuesEmpty.settle ?_ _ _
    exact he.modifyNode _ fun n _ => rfl
  | left hn => exact fun n hn => he n (List.mem_of_mem_eraseIdx hn)

/-- A call sends its task at once where the tasks queue is disabled. -/
theorem execute_queuesEmpty {cb : Callbacks Data Response} (taskId : Nat) (name : Option String) (data : Data)
    (choice : Choice) (hoff : s.opts.enableTasksQueue = false) (he : s.QueuesEmpty) :
    wp (execute cb taskId name data choice) (fun _ s' => s'.QueuesEmpty) (fun _ s' => s'.QueuesEmpty) s := by
  have hgrown (s₁ : Pool Data Response) (hg : Grown { s with uuids := taskId :: s.uuids } s₁) : s₁.QueuesEmpty :=
    (Tidy.of_grown hg).queuesEmpty (p := { s with uuids := taskId :: s.uuids }) he
  refine wp_execute (fun e s₁ hg _ => (hgrown s₁ hg).settle _ _) fun k s₁ hg _ _ _ _ => ?_
  have he₁ : (s₁.withPromise taskId k).QueuesEmpty := hgrown s₁ hg
  have hoff₁ : (s₁.withPromise taskId k).opts.enableTasksQueue = false :=
    (congrArg PoolOptions.enableTasksQueue hg.opts).trans hoff
  generalize s₁.withPromise taskId k = s₂ at he₁ hoff₁
  rcases hn : s₂.workerNodes[k]? with _ | n
  · rw [wp_dispatchTask_unknown hn]
    exact he₁.settle _ _
  · simp only [dispatchTask, wp_bind, wp_get, hoff₁, Bool.false_eq_true, if_false]
    rcases hc : s₂.canSend n ⟨name.getD defaultTaskName, data, s.now, taskId⟩ with _ | _
    · refine wp_executeTask_throws hn hc fun e => Pool.QueuesEmpty.settle ?_ _ _
      exact he₁.modifyNode k fun m _ => beforeTaskExecution_tasksQueue _ _ _ m
    · rw [wp_executeTask hn hc]
      exact he₁.modifyNode k fun m _ => startTask_tasksQueue _ _ m

/-- While the tasks queue is disabled, no task is queued. -/
theorem step_queuesEmpty {e : Event Data Response} (h : Step s e s') (hoff : s.opts.enableTasksQueue = false)
    (he : s.QueuesEmpty) : s'.QueuesEmpty := by
  obtain ⟨-, fuel, now, r, hr⟩ := h
  have hexec : (∃ taskId name data choice, e = .execute taskId name data choice) ∨
      ∀ taskId name data choice, e ≠ .execute taskId name data choice := by
    cases e <;> simp
  rcases hexec with ⟨taskId, name, data, choice, rfl⟩ | hexec
  · have hw := wp_any (execute_queuesEmpty (s := { s with now }) taskId name data choice hoff he) hr
    exact hw
  · exact (effect_of_handle hr).queuesEmpty hexec he

end Empty

/-! ## Disabling the queue -/

section Flush
variable {s p : Pool Data Response} {cb : Callbacks Data Response}

/-- A pool of `l` nodes whose queues are being flushed: no callback takes part, and every task can be sent. -/
structure Flushing (l : Nat) (p : Pool Data Response) : Prop where
  length : p.workerNodes.length = l
  off : ∀ n ∈ p.workerNodes, n.onEmptyQueue = false
  sends : ∀ n ∈ p.workerNodes, ∀ t ∈ n.tasksQueue, p.canSend n t = true

/-- The queue of the node at a key is empty. -/
def Flushed (k : Nat) (p : Pool Data Response) : Prop := ∀ n, p.workerNodes[k]? = some n → n.tasksQueue = []

theorem nextTask_tasksQueue (p : Pool Data Response) (n : WorkerNode Data) :
    (p.nextTask n).tasksQueue = n.tasksQueue.tail := by
  unfold Pool.nextTask
  split
  · rename_i hq
    rw [hq]
    rfl
  · rename_i t q hq
    rw [startTask_tasksQueue, hq]
    rfl

theorem Flushing.next {l k : Nat} {n : WorkerNode Data} (h : Flushing l p) (hn : p.workerNodes[k]? = some n) :
    Flushing l (p.modifyNode k fun _ => p.nextTask n) ∧
      ∀ j, Flushed j p → Flushed j (p.modifyNode k fun _ => p.nextTask n) := by
  have hmem := List.mem_of_getElem? hn
  have hnode : ∀ m' ∈ (p.modifyNode k fun _ => p.nextTask n).workerNodes,
      m' ∈ p.workerNodes ∨ m' = p.nextTask n := by
    intro m' hm'
    obtain ⟨j, hj⟩ := List.mem_iff_getElem?.1 hm'
    obtain ⟨m, hm, rfl⟩ := Pool.node_of_modifyNode hj
    split
    · exact .inr rfl
    · exact .inl (List.mem_of_getElem? hm)
  -- sending a task changes neither the hooks nor the channel of its node
  have hsetup := sameSetup_nextTask p n
  refine ⟨⟨(p.length_modifyNode k _).trans h.length, fun m' hm' => ?_, fun m' hm' t ht => ?_⟩, fun j hj m' hm' => ?_⟩
  · rcases hnode m' hm' with hm | rfl
    · exact h.off m' hm
    · rw [hsetup.onEmptyQueue]
      exact h.off n hmem
  · rcases hnode m' hm' with hm | rfl
    · exact h.sends m' hm t ht
    · rw [nextTask_tasksQueue] at ht
      have hs := h.sends n hmem t (List.mem_of_mem_tail ht)
      unfold Pool.canSend at hs ⊢
      rw [channelOpen_of_sameSetup hsetup]
      exact hs
  · obtain ⟨m, hm, rfl⟩ := Pool.node_of_modifyNode hm'
    split
    · rename_i hkj
      subst hkj
      rw [nextTask_tasksQueue, hj n hn]
      rfl
    · exact hj m hm

/-- A flush sends all tasks of a queue, and leaves the other queues as empty as they were. -/
theorem flushTasksQueue_flushes {l k : Nat} (fuel : Nat) (h : Flushing l p) (hk : k < l) :
    wp (flushTasksQueue cb fuel k)
      (fun _ p' => Flushing l p' ∧ Flushed k p' ∧ ∀ j, Flushed j p → Flushed j p') (fun _ _ => False) p := by
  simp only [flushTasksQueue, wp_bind, wp_modifyNode]
  refine wp_mono (wp_whileDo (I := fun p' => Flushing l p' ∧ ∀ j, Flushed j p → Flushed j p')
    (J := fun b p' => (Flushing l p' ∧ ∀ j, Flushed j p → Flushed j p') ∧
      ∃ n, p'.workerNodes[k]? = some n ∧ b = decide (n.tasksQueue ≠ []))
    ⟨h, fun _ => id⟩ (fun p' hp' => ?_) fun p' hp' => ?_) (fun _ p' hp' => ?_) fun _ _ hf => hf
  · obtain ⟨n, hn⟩ := Pool.node_of_lt (hp'.1.length.symm ▸ hk : k < p'.workerNodes.length)
    simp only [tasksQueueNotEmpty, wp_bind, wp_nodeAt hn, wp_pure]
    exact ⟨hp', n, hn, by simp [List.length_pos_iff]⟩
  · obtain ⟨⟨hp', hkeep⟩, n, hn, hne⟩ := hp'
    obtain ⟨t, q, hq⟩ := List.exists_cons_of_ne_nil (by simpa using hne : n.tasksQueue ≠ [])
    have hmem := List.mem_of_getElem? hn
    have hsend := hp'.sends n hmem t (by simp [hq])
    obtain ⟨hnext, hkeep'⟩ := hp'.next hn
    rw [wp_of_ok (dequeueThen_plain hn (hp'.off n hmem) hq hsend)]
    exact ⟨hnext, fun j hj => hkeep' j (hkeep j hj)⟩
  · obtain ⟨⟨hp', hkeep⟩, n, hn, hne⟩ := hp'
    have hq : n.tasksQueue = [] := by simpa using hne
    have hsame : p'.modifyNode k (fun n => { n with tasksQueue := [] }) = p' := by
      refine Pool.modifyNode_fixed hn ?_
      rw [← hq]
    rw [hsame]
    refine ⟨hp', fun m hm => ?_, hkeep⟩
    rw [hn] at hm
    cases hm
    exact hq

theorem flushTasksQueues_flushes (fuel : Nat) (h : Flushing p.workerNodes.length p) :
    wp (flushTasksQueues cb fuel) (fun _ p' => p'.QueuesEmpty) (fun _ _ => False) p := by
  simp only [flushTasksQueues, wp_bind, wp_get]
  refine wp_mono (wp_forEach_each (P := Flushed) h fun k hk p' hp' => ?_) (fun _ p' hp' => ?_) fun _ _ hf => hf
  · exact flushTasksQueue_flushes fuel hp' (List.mem_range.1 hk)
  · obtain ⟨hp', hall, -⟩ := hp'
    intro n hn
    obtain ⟨k, hk⟩ := List.mem_iff_getElem?.1 hn
    exact hall k (List.mem_range.2 (hp'.length ▸ Pool.lt_of_node hk)) n hk

/-- A queue that is disabled has been flushed. -/
theorem enableTasksQueue_flushes (fuel : Nat) (a : TasksQueueOptionsArgument) (he : s.opts.enableTasksQueue = true)
    (hs : ∀ n ∈ s.workerNodes, ∀ t ∈ n.tasksQueue, s.canSend n t = true) :
    wp (enableTasksQueue cb fuel false a) (fun _ s' => s'.opts.enableTasksQueue = false ∧ s'.QueuesEmpty)
      (fun _ _ => False) s := by
  simp only [enableTasksQueue, wp_bind, wp_get, he, Bool.not_false, Bool.and_true, if_true]
  simp only [disableTasksQueue, setTaskStealing, setTasksStealingOnBackPressure, mapNodes, wp_bind, wp_modify,
    List.map_map]
  generalize hs₁ : { s with workerNodes := s.workerNodes.map _ } = s₁
  have hflushing : Flushing s₁.workerNodes.length s₁ := by
    refine ⟨rfl, fun n hn => ?_, fun n hn t ht => ?_⟩
    · rw [← hs₁] at hn
      obtain ⟨m, -, rfl⟩ := List.mem_map.1 hn
      rfl
    · rw [← hs₁] at hn ⊢
      obtain ⟨m, hm, rfl⟩ := List.mem_map.1 hn
      exact hs m hm t ht
  refine wp_mono (flushTasksQueues_flushes fuel hflushing) (fun _ p hp => ?_) fun _ _ hf => hf
  simp only [setTasksQueueOptions, wp_bind, wp_get, Bool.false_eq_true, if_false, wp_modify, true_and]
  exact hp

end Flush

/-! ## Runs -/

/-- What holds of a pool whose options are changed with accepted options. -/
structure Pool.SetUp (p : Pool Data Response) : Prop where
  outline : p.outline.Agrees
  queues : p.opts.enableTasksQueue = false → p.QueuesEmpty

theorem Pool.SetUp.agrees {p : Pool Data Response} (h : p.SetUp) : ∀ n ∈ p.workerNodes, p.Agrees n := by
  intro n hn
  have hmem : n.outline ∈ p.outline.nodes := List.mem_map_of_mem hn
  rcases he : p.opts.enableTasksQueue with _ | _
  · have hunset := (Outline.agrees_disabled he).1 h.outline n.outline hmem
    rw [Pool.Agrees, if_neg (Bool.eq_false_iff.1 he)]
    exact ⟨(congrArg NodeOutline.onEmptyQueue hunset).symm, (congrArg NodeOutline.onBackPressure hunset).symm,
      h.queues he n hn⟩
  · obtain ⟨q, z, hq, -, hnodes⟩ := (Outline.agrees_enabled he).1 h.outline
    have hconf := hnodes n.outline hmem
    rw [Pool.Agrees, if_pos he]
    exact ⟨q, hq, (congrArg NodeOutline.onEmptyQueue hconf).symm, (congrArg NodeOutline.onBackPressure hconf).symm,
      (congrArg NodeOutline.tasksQueueBackPressureSize hconf).symm⟩

/-- A call that disables the queue, as one piece. -/
theorem disable_step {s s' : Pool Data Response} {a : TasksQueueOptionsArgument} (h : Step s (.enableTasksQueue false a) s')
    (he : s.opts.enableTasksQueue = true) (hs : ∀ n ∈ s.workerNodes, ∀ t ∈ n.tasksQueue, s.canSend n t = true) :
    s'.opts.enableTasksQueue = false ∧ s'.QueuesEmpty := by
  obtain ⟨-, fuel, now, r, hr⟩ := h
  have hw : wp (enableTasksQueue (callbacks fuel) fuel false a)
      (fun _ p => p.opts.enableTasksQueue = false ∧ p.QueuesEmpty) (fun _ _ => False) { s with now } :=
    enableTasksQueue_flushes fuel a he hs
  cases r with
  | ok u =>
    have h := wp_ok hw hr
    exact h
  | error x =>
    have h := wp_error hw hr
    exact h.elim

theorem Outline.enabled_setTasksQueueOptions (o : Outline) (a : TasksQueueOptionsArgument) :
    (o.setTasksQueueOptions a).opts.enableTasksQueue = o.opts.enableTasksQueue := by
  unfold Outline.setTasksQueueOptions
  split
  · split <;> rfl
  · rfl

theorem Outline.enabled_error (o : Outline) (w : Nat) :
    (o.error w).opts.enableTasksQueue = o.opts.enableTasksQueue := by
  unfold Outline.error
  split
  · rfl
  · split <;> rfl

/-- Only one call disables the queue. -/
theorem disabling_event {o o' : Outline} {e : Event Data Response} (h : Outlined o e o')
    (hon : o.opts.enableTasksQueue = true) (hoff : o'.opts.enableTasksQueue = false) : ∃ a, e = .enableTasksQueue false a := by
  have hsame (hopts : o'.opts.enableTasksQueue = o.opts.enableTasksQueue) : ∃ a, e = .enableTasksQueue false a :=
    absurd (hoff.symm.trans (hopts.trans hon)) (by rintro ⟨⟩)
  cases h with
  | execute => exact hsame rfl
  | executeJoins => exact hsame rfl
  | message => exact hsame rfl
  | poll => exact hsame rfl
  | error => exact hsame (o.enabled_error _)
  | exit => exact hsame rfl
  | start =>
    refine hsame ?_
    rw [Outline.start_rest]
  | @enableTasksQueue enable a =>
    cases enable with
    | true =>
      have hset := Outline.enabled_setTasksQueueOptions { o with opts.enableTasksQueue := true } a
      simp only [Outline.enableTasksQueue, Bool.not_true, Bool.and_false, Bool.false_eq_true, if_false] at hoff
      exact absurd (hoff.symm.trans hset) (by rintro ⟨⟩)
    | false => exact ⟨a, rfl⟩
  | flushThrows => exact hsame rfl
  | setTasksQueueOptions => exact hsame (o.enabled_setTasksQueueOptions _)
  | destroy => exact hsame rfl
  | destroyed => exact hsame rfl

theorem setUp_step {s s' : Pool Data Response} {e : Event Data Response} (h : s.SetUp)
    (ht : Guarded OptionsAccepted Step s e s') : s'.SetUp := by
  obtain ⟨hok, hstep⟩ := ht
  have hout := step_outlined hstep
  constructor
  · generalize ho : s'.outline = o' at hout
    have ha := h.outline
    cases hout with
    | execute => exact ha
    | executeJoins => exact ha.join true
    | message => exact ha
    | poll => exact ha
    | error => exact ha.error _
    | exit => exact ha.leave _
    | start => exact ha.start
    | @enableTasksQueue enable a =>
      refine ha.enableTasksQueue fun he => ?_
      subst he
      exact hok
    | flushThrows he =>
      -- the flush has not thrown: it would have left the queue enabled
      obtain ⟨hoff, -⟩ := disable_step hstep he (hok he)
      have hon : s'.outline.opts.enableTasksQueue = true := by
        rw [ho]
        exact he
      exact absurd (hoff.symm.trans hon) (by rintro ⟨⟩)
    | setTasksQueueOptions => exact ha.setTasksQueueOptions hok
    | destroy => exact ha
    | destroyed => exact ha
  · intro hoff'
    rcases hoff : s.opts.enableTasksQueue with _ | _
    · exact step_queuesEmpty hstep hoff (h.queues hoff)
    · obtain ⟨a, rfl⟩ := disabling_event hout hoff hoff'
      exact (disable_step hstep hoff (hok hoff)).2

/-- In every pool whose options are given without undefined fields and are accepted, and whose queued tasks can
be sent when the queue is disabled, every node agrees with the options. -/
theorem nodes_agree_with_options {c : PoolConfig Data} {startWorkers : Bool} {s₀ s : Pool Data Response}
    {es : List (Event Data Response)} (h : Created c startWorkers s₀) (hc : c.tasksQueueOptions.Defined)
    (hr : Run (Guarded OptionsAccepted Step) s₀ es s) : ∀ n ∈ s.workerNodes, s.Agrees n := by
  have hinit : s₀.SetUp := by
    refine ⟨agrees_of_created h hc, fun _ n hn => ?_⟩
    exact ((fresh_of_created h).nodes n hn).tasksQueue
  exact (hr.inv Pool.SetUp hinit fun _ _ _ => setUp_step).agrees

theorem nodes_agree_with_options_reset : ∃ s₀ s : Pool Unit Unit,
    Created { threadPoolConfig .dynamic 1 (some 2) with enableTasksQueue := true } true s₀ ∧
    s.workerNodes.length = 2 ∧ ∀ n ∈ s.workerNodes, s.Agrees n := by
  obtain ⟨s₀, s, hc, hrun, hlen⟩ := created_run_to OptionsAccepted 4
    { threadPoolConfig .dynamic 1 (some 2) with enableTasksQueue := true }
    [.execute 0 none () (.key 0), .execute 1 none () (.key 0), .execute 2 none () (.key 0),
      .enableTasksQueue false .undefined, .enableTasksQueue true (.object ⟨.value (.int 3), .absent, .value false, .absent⟩)]
    (P := fun s : Pool Unit Unit => s.workerNodes.length = 2) (by decide +kernel)
  exact ⟨s₀, s, hc, hlen, nodes_agree_with_options hc trivial hrun⟩

end Poolifier
