import Poolifier.EmptyQueue
import Poolifier.Quiescence
import Poolifier.Shutdown
/-!
# The destruction of a pool

Destroying a pool empties every queue before the kill message of its node, also
where the nodes steal tasks while they are flushed: a node that has been flushed
gets no task from the others. So no accepted call is lost, if its data have not
become null on the way, its function is not asynchronous and no worker exits
before it has answered.
-/

namespace Poolifier

open EffLib RunLib WorkerNode

/-! ## Queues are flushed -/

section Flush
variable {Data Response : Type} {cb : Callbacks Data Response} {s p : Pool Data Response} {k i : Nat} {ms : List KillPost}

/-- A queue that is flushed is empty in the end, and the empty queues of the other nodes stay as they were. -/
theorem flushTasksQueue_serves (hcb : QuietCallbacks cb) (hs : Synced s) (hk : k < s.workerNodes.length) (fuel : Nat) :
    wp (flushTasksQueue cb fuel k) (fun _ s' => (∃ d, Serves k d s s') ∧ ∃ n, s'.workerNodes[k]? = some n ∧ n.tasksQueue = [])
      (fun _ _ => True) s := by
  have hnode {s' : Pool Data Response} {d : Nat} (h : Serves k d s s') : ∃ n, s'.workerNodes[k]? = some n :=
    Pool.node_of_lt (h.frame.length ▸ hk)
  simp only [flushTasksQueue, wp_bind]
  refine wp_mono (wp_whileDo (I := fun s' => ∃ d, Serves k d s s') (J := fun b s' => (∃ d, Serves k d s s') ∧
    ∃ n, s'.workerNodes[k]? = some n ∧ (b = true → n.tasksQueue ≠ [])) (E := fun _ _ => True) ⟨0, .refl k s⟩
    (fun s' h => ?_) fun s' h => ?_) (fun _ s' h => ?_) fun _ _ h => h
  · obtain ⟨d, h⟩ := h
    obtain ⟨n, hn⟩ := hnode h
    simp only [tasksQueueNotEmpty, wp_bind, wp_nodeAt hn, wp_pure]
    exact ⟨⟨d, h⟩, n, hn, fun hpos => List.length_pos_iff.1 (by simpa using hpos)⟩
  · obtain ⟨⟨d, h⟩, n, hn, hne⟩ := h
    obtain ⟨t, q, hq⟩ := List.exists_cons_of_ne_nil (hne rfl)
    simp only [dequeueThen, wp_bind]
    refine wp_mono (dequeueTask_serves hcb (hs.frame h.frame) hn hq) (fun r s₁ h₁ => ?_) fun _ _ h => h.elim
    obtain ⟨rfl, h₁⟩ := h₁
    obtain ⟨m, hm⟩ := hnode (h.trans h₁)
    rcases hsend : s₁.canSend m t with _ | _
    · exact wp_executeTask_throws hm hsend fun _ => trivial
    · rw [wp_executeTask hm hsend]
      refine ⟨_, (h.trans h₁).trans (.modifyNode s₁ k (fun a _ => ?_) fun a _ => startTask_executing s₁ t a)⟩
      exact (sameSetup_beforeTaskExecution _ _ _ a).trans (sameSetup_receive _ _)
  · obtain ⟨⟨d, h⟩, n, hn, -⟩ := h
    simp only [wp_modifyNode]
    refine ⟨⟨d + 0, h.trans (.modifyNode s' k (fun a _ => sameSetup_of_queue a []) fun _ _ => rfl)⟩, ?_⟩
    exact ⟨_, Pool.getElem?_modifyNode_self _ hn, rfl⟩

/-- The first `i` nodes of `s` have been flushed and sent the kill messages `ms`, which has come to `p`. -/
structure FlushedTo (s p : Pool Data Response) (i : Nat) (ms : List KillPost) : Prop where
  synced : Synced p
  live : Live p
  length : p.workerNodes.length = s.workerNodes.length
  placed : p.placed = s.placed
  posts : ms = (p.workerNodes.take i).map fun n => ⟨n.info.id, n.worker.received.length⟩
  empty : ∀ n ∈ p.workerNodes.take i, n.tasksQueue = []

/-- A node that is marked as being destroyed. -/
theorem synced_mark (h : Synced p) (k : Nat) (reason : DestroyReason) :
    Synced (p.modifyNode k fun n => { n with destroying := n.destroying <|> some reason }) where
  ids := by
    rw [ids_modifyNode (f := fun n => { n with destroying := n.destroying <|> some reason }) p k fun _ => rfl]
    exact h.ids
  size n' hn' z hz := by
    obtain ⟨i, hi⟩ := List.mem_iff_getElem?.1 hn'
    obtain ⟨n, hn, rfl⟩ := Pool.node_of_modifyNode hi
    have hsize := h.size n (List.mem_of_getElem? hn) z hz
    split <;> exact hsize

theorem live_mark (h : Live p) (k : Nat) (reason : DestroyReason) :
    Live (p.modifyNode k fun n => { n with destroying := n.destroying <|> some reason }) := by
  refine ⟨fun n' hn' => ?_, h.2⟩
  obtain ⟨i, hi⟩ := List.mem_iff_getElem?.1 hn'
  obtain ⟨n, hn, rfl⟩ := Pool.node_of_modifyNode hi
  have hopen := h.1 n (List.mem_of_getElem? hn)
  split <;> exact hopen

/-- Serving a node changes none of those before it, if their queues are empty. -/
theorem Serves.take {d : Nat} {s' : Pool Data Response} (h : Serves k d s s') (hempty : ∀ n ∈ s.workerNodes.take k, n.tasksQueue = []) :
    s'.workerNodes.take k = s.workerNodes.take k := by
  refine List.ext_getElem? fun j => ?_
  simp only [List.getElem?_take]
  split
  · rename_i hj
    rcases hn : s.workerNodes[j]? with _ | n
    · rw [List.getElem?_eq_none_iff, h.frame.length]
      exact List.getElem?_eq_none_iff.1 hn
    · refine h.idle j n (by omega) hn (hempty n ?_)
      exact List.mem_of_getElem? (i := j) (by rw [List.getElem?_take, if_pos hj, hn])
  · rfl

/-- The next node is flushed. -/
theorem FlushedTo.next {fuel : Nat} (h : FlushedTo s p i ms) (hi : i < s.workerNodes.length) :
    wp (destroyWorkerNodeCaughtPosting (callbacks fuel) fuel i .poolDestroyed)
      (fun more p' => FlushedTo s p' (i + 1) (ms ++ more)) (fun _ _ => False) p := by
  have hk : i < p.workerNodes.length := h.length ▸ hi
  have hmoves := flushTasksQueue_moves (callbacks_move fuel) fuel (.refl p 0) hk
  have hserves := flushTasksQueue_serves (callbacks_quiet fuel) h.synced hk fuel
  simp only [destroyWorkerNodeCaughtPosting, wp_swallowLogged, destroyWorkerNodePosting, destroyWorkerNode, wp_bind, wp_get,
    wp_pure]
  refine wp_mono (wp_and hmoves hserves) (fun _ p₁ hp₁ => ?_) fun _ p₁ hp₁ => absurd hp₁.1 (not_failed h.live)
  obtain ⟨hreached, ⟨d, hd⟩, n, hn, hempty⟩ := hp₁
  have hlive := hreached.frame.live h.live
  have hopen := hlive.1 n (List.mem_of_getElem? hn)
  simp only [wp_nodeAt hn, hopen, if_true, wp_modifyNode]
  generalize hp₂ : (p₁.modifyNode i fun n => { n with destroying := n.destroying <|> some .poolDestroyed }) = p₂
  have hat : p₂.workerNodes[i]? = some { n with destroying := n.destroying <|> some .poolDestroyed } := by
    rw [← hp₂]
    exact Pool.getElem?_modifyNode_self _ hn
  -- the nodes before this one are as they were
  have htake : p₂.workerNodes.take i = p.workerNodes.take i := by
    rw [← hd.take h.empty, ← hp₂]
    refine List.ext_getElem? fun j => ?_
    simp only [List.getElem?_take]
    split
    · exact Pool.getElem?_modifyNode_ne _ (by omega)
    · rfl
  have hnext : p₂.workerNodes.take (i + 1) =
      p.workerNodes.take i ++ [{ n with destroying := n.destroying <|> some .poolDestroyed }] := by
    rw [List.take_add_one, hat, htake]
    rfl
  obtain ⟨lost, hplaced, hlost⟩ := hreached.placed
  rw [hlost h.live, add_zero, add_zero, add_zero] at hplaced
  refine ⟨?_, ?_, ?_, ?_, ?_, fun a ha => ?_⟩
  · rw [← hp₂]
    exact synced_mark (h.synced.frame hd.frame) i _
  · rw [← hp₂]
    exact live_mark hlive i _
  · rw [← hp₂, Pool.length_modifyNode, hd.frame.length, h.length]
  · rw [← hp₂, Pool.placed_modifyNode_same (f := fun n => { n with destroying := n.destroying <|> some .poolDestroyed })
      fun _ _ => rfl]
    exact hplaced.trans h.placed
  · rw [hnext, List.map_append, ← h.posts, Pool.killPost, hat]
    rfl
  · rw [hnext] at ha
    rcases List.mem_append.1 ha with ha | ha
    · exact h.empty a ha
    · rw [List.mem_singleton.1 ha]
      exact hempty

/-- Destroying a pool flushes every queue before the kill message of its node, and leaves no task in a queue. -/
theorem destroyPosting_flushed (hs : Synced s) (hl : Live s) (fuel : Nat) : wp (destroyPosting (callbacks fuel) fuel)
    (fun ms s' => FlushedTo s s' s.workerNodes.length ms) (fun _ _ => False) s := by
  simp only [destroyPosting, wp_bind, wp_modify, wp_get]
  refine wp_mono (wp_collect_along (J := fun done ms p => FlushedTo s p done.length ms) ?_ fun done x rest hl ms p hp => ?_)
    (fun ms p h => ?_) fun _ _ h => h
  · refine ⟨⟨hs.ids, hs.size⟩, hl, rfl, rfl, rfl, fun n hn => ?_⟩
    cases hn
  · have hx : x = done.length := by
      have hget := congrArg (·[done.length]?) hl
      rw [List.getElem?_append_right le_rfl, Nat.sub_self, List.getElem?_cons_zero] at hget
      obtain ⟨hlt, heq⟩ := List.getElem?_eq_some_iff.1 hget
      rw [List.getElem_range] at heq
      exact heq.symm
    have hlt : done.length < s.workerNodes.length := by
      have hlength := congrArg List.length hl
      simp only [List.length_range, List.length_append, List.length_cons] at hlength
      omega
    subst hx
    rw [List.length_append]
    exact hp.next hlt
  · rwa [List.length_range] at h

end Flush

/-! ## Calls that have thrown -/

section Thrown
variable {Data Response : Type} {s s' : Pool Data Response} {e : Event Data Response} {es : List (Event Data Response)} {i : Nat}

theorem settlement_ne_thrown (m : TaskResponse Response) (x : JsError) : m.settlement ≠ .thrown x := by
  unfold TaskResponse.settlement
  split <;> nofun

/-- Promises stay ended. -/
theorem step_settledIds (h : Step s e s') : s.settledIds ⊆ s'.settledIds := by
  obtain ⟨-, fuel, now, r, hm⟩ := h
  rcases (effect_of_handle hm).noneLeft with hnone | ⟨w, n, -, -, rfl⟩
  · exact hnone.settled
  · exact fun _ hi => hi

/-- A call whose id has been drawn throws no more. -/
theorem thrown_of_run (hr : Run Step s es s') (hi : i ∈ s.uuids) {x : JsError} (hq : (i, .thrown x) ∈ s'.settled) :
    (i, .thrown x) ∈ s.settled := by
  refine (hr.inv (fun s' => i ∈ s'.uuids ∧ ((i, .thrown x) ∈ s'.settled → (i, .thrown x) ∈ s.settled)) ⟨hi, id⟩
    fun s₁ e s₂ h hstep => ⟨?_, fun hq => ?_⟩).2 hq
  · rw [step_draws hstep]
    exact List.mem_append_right _ h.1
  · obtain ⟨henabled, fuel, now, r, hm⟩ := hstep
    rcases (effect_of_handle hm).settled hq with hq | hended
    · exact h.2 hq
    · generalize hpair : (i, Settlement.thrown x) = q at hended
      cases hended with
      | threw =>
        cases hpair
        exact absurd h.1 henabled
      | answered => exact absurd (congrArg Prod.snd hpair).symm (settlement_ne_thrown _ x)

end Thrown

namespace Shutdown

open AbstractWorker (Runtime Clock MessageValue)

section Destroyed
variable {V : Type} {rt : Runtime V} {type : WorkerType} {text : V → String} {s₀ s₁ s₂ s s' : State V}
  {es es₁ es₂ : List (Event V)} {e : Event V} {taskFunctions : String → Option (AbstractWorker.TaskFunction V)} {w k : Nat}
  {t : Task V}

/-- The events of a fixed set of workers, none of which is destroyed. -/
def Fixed (rt : Runtime V) (text : V → String) (s : State V) (e : Event V) : Prop := ∀ pe ∈ e.onPool rt text, FixedEvent s.system.pool pe

/-- No worker exits before it has answered a kill message. -/
def AnswersFirst (s : State V) : Event V → Prop
  | .system (.pool (.exit w)) => 0 < (s.ports w).heard
  | _ => True

instance (rt : Runtime V) (text : V → String) (s : State V) (e : Event V) : Decidable (Fixed rt text s e) := by
  unfold Fixed
  infer_instance

instance (s : State V) (e : Event V) : Decidable (AnswersFirst s e) := by
  unfold AnswersFirst
  split <;> infer_instance

theorem pool_run_of_guarded {ok : Pool V V → Poolifier.Event V V → Prop} (h₀ : Starts type taskFunctions s₀)
    (hr : Run (Guarded (fun s e => ∀ pe ∈ e.onPool rt text, ok s.system.pool pe) (Step rt type text)) s₀ es s) :
    Run (Guarded ok Poolifier.Step) s₀.system.pool (es.filterMap (·.onPool rt text)) s.system.pool :=
  hr.part_guarded ok (fun s => s.system.pool) (Along rt type text s₀) (along_of_run h₀ .nil)
    fun _ _ _ _ h hs => ⟨h.step h₀ hs, h.movesPool h₀ hs⟩

/-- Kill messages are posted by events of the pool, and none is taken back. -/
theorem kills_step (hstep : Step rt type text s e s') (w : Nat) : (s'.ports w).kills = (s.ports w).kills ∨
    ∃ pe ms p, e = .system (.pool pe) ∧ Posts s.system.pool pe ms p ∧
      (s'.ports w).kills = (s.ports w).kills ++ (ms.filter (·.workerId = w)).map (·.after) := by
  have hport {x : System.State V} {f : Port → Port} (hf : ∀ p, (f p).kills = p.kills) (w' : Nat) :
      (({ s with system := x }.withPort w' f).ports w).kills = (s.ports w).kills := by
    by_cases hw : w = w'
    · subst hw
      rw [State.withPort_self]
      exact hf _
    · rw [State.withPort_of_ne _ hw]
  cases hstep with
  | pool _ _ hposts => exact .inr ⟨_, _, _, rfl, hposts, rfl⟩
  | worker _ _ => exact .inl rfl
  | deliver _ _ => exact .inl rfl
  | reply _ _ => exact .inl rfl
  | takeKill _ _ _ => exact .inl (hport (fun _ => Port.handleKillMessage_kills ..) _)
  | settleKill success _ _ => exact .inl (hport (f := (·.settleKill _ success _)) (fun _ => Port.settleKill_kills ..) _)
  | killAnswer _ _ => exact .inl (hport (f := fun q => { q with heard := q.heard + 1 }) (fun _ => rfl) _)

/-- An event of a fixed set of workers posts no kill message. -/
theorem posts_of_fixed {p p' : Pool V V} {pe : Poolifier.Event V V} {ms : List KillPost} (h : Posts p pe ms p')
    (hfixed : FixedEvent p pe) : ms = [] := by
  obtain ⟨-, fuel, now, r, hm, rfl⟩ := h
  have hnone : wp (handle fuel pe >>= fun _ => pure []) (fun (ms : List KillPost) _ => ms = []) (fun _ _ => True)
      { p with now } := by
    rw [wp_bind]
    rintro r s' -
    cases r with
    | ok _ => exact (wp_pure _).2 rfl
    | error _ => trivial
  have hposting : handlePosting fuel pe = (handle fuel pe >>= fun _ => pure []) := by
    cases pe with
    | message w message =>
      cases message with
      | killRequest _ => exact hfixed.elim
      | _ => rfl
    | destroy => exact hfixed.elim
    | _ => rfl
  rw [hposting] at hm
  rcases r with x | ms
  · rfl
  · exact hnone (.ok ms) p' hm

theorem flushed_of_posts {p p' : Pool V V} {ms : List KillPost} (hs : Synced p) (hl : Live p) (h : Posts p .destroy ms p') :
    FlushedTo p p' p.workerNodes.length ms := by
  obtain ⟨-, fuel, now, r, hm, rfl⟩ := h
  have hflushed := destroyPosting_flushed (s := { p with now }) ⟨hs.ids, hs.size⟩ hl fuel r p' hm
  rcases r with x | ms
  · exact hflushed.elim
  · exact ⟨hflushed.synced, hflushed.live, hflushed.length, hflushed.placed, hflushed.posts, hflushed.empty⟩

theorem heard_step (hstep : Step rt type text s e s') (he : ∀ success, e ≠ .killAnswer w success) :
    (s'.ports w).heard = (s.ports w).heard := by
  have hport {x : System.State V} {f : Port → Port} {w' : Nat} (hf : w = w' → ∀ p, (f p).heard = p.heard) :
      (({ s with system := x }.withPort w' f).ports w).heard = (s.ports w).heard := by
    by_cases hw : w = w'
    · subst hw
      rw [State.withPort_self]
      exact hf rfl _
    · rw [State.withPort_of_ne _ hw]
  cases hstep with
  | pool _ _ _ => rfl
  | worker _ _ => rfl
  | deliver _ _ => rfl
  | reply _ _ => rfl
  | takeKill outcome _ _ =>
    refine hport fun _ p => ?_
    unfold Port.handleKillMessage
    cases outcome <;> rfl
  | settleKill success _ _ =>
    refine hport (f := (·.settleKill _ success _)) fun _ p => ?_
    unfold Port.settleKill
    split <;> rfl
  | @killAnswer w' success p _ _ =>
    refine hport fun hw => ?_
    subst hw
    exact absurd rfl (he success)

/-- The pool sees the exit of a worker as such. -/
theorem exit_answered (hon : e.onPool rt text = some (.exit w)) (hfirst : AnswersFirst s e) : 0 < (s.ports w).heard := by
  cases e with
  | system se =>
    cases se with
    | pool pe =>
      cases hon
      exact hfirst
    | _ => cases hon
  | _ => cases hon

/-- The worker `w` has been posted the task before its first kill message, and has not answered. -/
structure Owed (w k : Nat) (t : Task V) (s : State V) : Prop where
  heard : (s.ports w).heard = 0
  known : System.Known s.system.pool w
  kill : k ∈ (s.ports w).kills.head?
  posted : t ∈ (s.system.pool.record w).received.take k

/-- The answer to the kill message finds the promise of the task ended. -/
theorem Owed.step (h : Owed w k t s) (ha : Along rt type text s₀ es s) (h₀ : Starts type taskFunctions s₀)
    (hfirst : AnswersFirst s e) (hstep : Step rt type text s e s')
    (himmediate : ∀ x ∈ (s.system.workers w).received, x.id = t.taskId → x.immediate rt = true) :
    Owed w k t s' ∨ t.taskId ∈ s'.system.pool.settledIds := by
  have hmoves := ha.movesPool h₀ hstep
  by_cases hanswer : ∃ success, e = .killAnswer w success
  · obtain ⟨success, rfl⟩ := hanswer
    right
    have hpool := hmoves.moves _ rfl
    cases hstep with
    | killAnswer hnext _ =>
      exact step_settledIds hpool (ha.killAnswer h₀ hnext h.known h.kill h.posted himmediate)
  · refine .inl ⟨?_, ?_, ?_, ?_⟩
    · exact (heard_step hstep fun success he => hanswer ⟨success, he⟩).trans h.heard
    · rcases hon : e.onPool rt text with _ | pe
      · rw [hmoves.stays hon]
        exact h.known
      · refine h.known.step (hmoves.moves pe hon) fun hexit => ?_
        subst hexit
        have hpos := exit_answered hon hfirst
        rw [h.heard] at hpos
        exact absurd hpos (lt_irrefl 0)
    · have hfirst' {more : List Nat} (hk : k ∈ (s.ports w).kills.head?) : k ∈ ((s.ports w).kills ++ more).head? := by
        obtain ⟨rest, heq⟩ := List.head?_eq_some_iff.1 hk
        rw [heq]
        rfl
      rcases kills_step hstep w with heq | ⟨pe, ms, p, -, -, heq⟩
      · rw [heq]
        exact h.kill
      · rw [heq]
        exact hfirst' h.kill
    · have hgrows : (s.system.pool.record w).received <+: (s'.system.pool.record w).received := by
        rcases hon : e.onPool rt text with _ | pe
        · rw [hmoves.stays hon]
        · exact received_grows ((System.linked_of_run h₀.system ha.system).distinct h₀.system.pool) (hmoves.moves pe hon) w
      exact (hgrows.take k).subset h.posted

/-- While the set of workers is fixed, there are neither kill messages nor answers. -/
theorem ports_of_fixed (h₀ : Starts type taskFunctions s₀) (hr : Run (Guarded (Fixed rt text) (Step rt type text)) s₀ es s) (w : Nat) :
    (s.ports w).kills = [] ∧ (s.ports w).heard = 0 := by
  refine hr.inv (fun s => (s.ports w).kills = [] ∧ (s.ports w).heard = 0) ?_ fun s e s' h hstep => ⟨?_, ?_⟩
  · rw [h₀.ports]
    exact ⟨rfl, rfl⟩
  · rcases kills_step hstep.2 w with heq | ⟨pe, ms, p, rfl, hposts, heq⟩
    · exact heq.trans h.1
    · rw [heq, h.1, posts_of_fixed hposts (hstep.1 pe rfl)]
      rfl
  · refine (heard_step hstep.2 fun success he => ?_).trans h.2
    subst he
    exact hstep.1 _ rfl

/-- Of the kill messages for nodes with different ids, one is for each. -/
theorem killPosts_of_mem {l : List (WorkerNode V)} (hids : (l.map (·.info.id)).Nodup) {n : WorkerNode V} (hn : n ∈ l) :
    ((l.map fun n => KillPost.mk n.info.id n.worker.received.length).filter (·.workerId = n.info.id)).map (·.after) =
      [n.worker.received.length] := by
  induction l with
  | nil => cases hn
  | cons a l ih =>
    rw [List.map_cons, List.nodup_cons] at hids
    rw [List.map_cons]
    rcases List.mem_cons.1 hn with rfl | hn
    · have hnone : (l.map fun n => KillPost.mk n.info.id n.worker.received.length).filter (·.workerId = n.info.id) = [] := by
        refine List.filter_eq_nil_iff.2 fun m hm => ?_
        obtain ⟨b, hb, rfl⟩ := List.mem_map.1 hm
        have hne : b.info.id ≠ n.info.id := fun heq => hids.1 (heq ▸ List.mem_map_of_mem hb)
        simpa using hne
      rw [List.filter_cons_of_pos (by simp), hnone]
      rfl
    · have hne : a.info.id ≠ n.info.id := fun heq => hids.1 (heq ▸ List.mem_map_of_mem hn)
      rw [List.filter_cons_of_neg (by simpa using hne)]
      exact ih hids.2 hn

/-- When a fixed pool is destroyed, a call that has no result yet is owed by the worker that has its task. -/
theorem owed_of_destroy (h₀ : Starts type taskFunctions s₀)
    (hfixed : s₀.system.pool.type = .fixed ∨ s₀.system.pool.full = true) (hsend : ∀ t, s₀.system.pool.postable t = true)
    (hr : Run (Guarded (Fixed rt text) (Step rt type text)) s₀ es s₁)
    (hdestroy : Step rt type text s₁ (.system (.pool .destroy)) s₂) {i : Nat}
    (hi : i ∈ acceptedIds s₀.system.pool.started (es.filterMap (·.onPool rt text))) (hnot : i ∉ s₁.system.pool.settledIds) :
    ∃ w k t, t.taskId = i ∧ Owed w k t s₂ := by
  have hpool := pool_run_of_guarded h₀ hr
  have hledger := ledger_of_run h₀.system.pool hfixed hsend hpool
  have hrun : Run Poolifier.Step s₀.system.pool (es.filterMap (·.onPool rt text)) s₁.system.pool := hpool.mono fun _ _ _ h => h.2
  have hplace := hledger.conservation.onePlace i hi hnot
  rw [Pool.places_eq] at hplace
  obtain ⟨t, ht, rfl⟩ := Multiset.mem_map.1 (Multiset.count_pos.1 (by rw [hplace]; exact Nat.one_pos))
  cases hdestroy with
  | @pool pe ms p _ _ hposts =>
    have hflushed := flushed_of_posts (synced_of_run h₀.system.pool hrun) hledger.pool.live hposts
    have hlater := hrun.step (posts_step hposts).1
    have hall : p.workerNodes.take s₁.system.pool.workerNodes.length = p.workerNodes := by
      rw [← hflushed.length, List.take_length]
    rw [← hflushed.placed] at ht
    obtain ⟨n, hn, hheld⟩ := Pool.mem_placed.1 ht
    have hempty : n.tasksQueue = [] := hflushed.empty n (hall.symm ▸ hn)
    have hunanswered : t ∈ n.worker.unanswered := by
      refine (WorkerNode.mem_held.1 hheld).resolve_left ?_
      rw [hempty]
      exact List.not_mem_nil
    have hdistinct : Distinct p := hlater.inv Distinct (distinct_of_fresh h₀.system.pool) fun _ _ _ hd hs => hd.step hs
    have hrecord : p.record n.info.id = n.worker := record_of_mem hdistinct (List.mem_append_left _ hn)
    obtain ⟨hkills, hheard⟩ := ports_of_fixed h₀ hr n.info.id
    refine ⟨n.info.id, n.worker.received.length, t, rfl, hheard, ⟨n, hn, rfl⟩, ?_, ?_⟩
    · have hpost : ((posts ms s₁.ports) n.info.id).kills = [n.worker.received.length] := by
        unfold posts
        dsimp only
        rw [hkills, List.nil_append, hflushed.posts, hall]
        exact killPosts_of_mem hflushed.synced.ids hn
      dsimp only
      rw [hpost]
      rfl
    · have hreceived : t ∈ (p.record n.info.id).received :=
        (unanswered_sublist h₀.system.pool hlater n.info.id).subset (hrecord.symm ▸ hunanswered)
      dsimp only
      rw [hrecord] at hreceived ⊢
      rwa [List.take_length]

/-- What is owed is owed until the promise of the task ends. -/
theorem Owed.run (h : Owed w k t s₂) (h₀ : Starts type taskFunctions s₀) (hr : Run (Step rt type text) s₀ es s₂)
    (hr₂ : Run (Guarded AnswersFirst (Step rt type text)) s₂ es₂ s)
    (himmediate : ∀ x ∈ (s.system.workers w).received, x.id = t.taskId → x.immediate rt = true) :
    Owed w k t s ∨ t.taskId ∈ s.system.pool.settledIds := by
  refine (hr₂.trace_inv (fun es₂ s => Along rt type text s₀ (es ++ es₂) s ∧
    ((∀ x ∈ (s.system.workers w).received, x.id = t.taskId → x.immediate rt = true) →
      Owed w k t s ∨ t.taskId ∈ s.system.pool.settledIds)) ⟨?_, fun _ => .inl h⟩ ?_).2 himmediate
  · rw [List.append_nil]
    exact along_of_run h₀ hr
  · rintro es' s' e s'' ⟨ha, howed⟩ ⟨hfirst, hstep⟩
    refine ⟨?_, fun himmediate => ?_⟩
    · rw [← List.append_assoc]
      exact ha.step h₀ hstep
    · have hgrows := (ha.grows h₀ (ha.movesSystem h₀ hstep) w).1
      have himmediate' : ∀ x ∈ (s'.system.workers w).received, x.id = t.taskId → x.immediate rt = true :=
        fun x hx => himmediate x (hgrows.subset hx)
      rcases howed himmediate' with howed | hsettled
      · exact howed.step ha h₀ hfirst hstep himmediate'
      · right
        have hmoves := ha.movesPool h₀ hstep
        rcases hon : e.onPool rt text with _ | pe
        · rw [hmoves.stays hon]
          exact hsettled
        · exact step_settledIds (hmoves.moves pe hon) hsettled

/-- The calls that a fixed pool has accepted when it is destroyed have their results once every worker has answered, if
their data have not become null and their functions are not asynchronous. -/
theorem settled_of_destroyed (h₀ : Starts type taskFunctions s₀)
    (hfixed : s₀.system.pool.type = .fixed ∨ s₀.system.pool.full = true) (hsend : ∀ t, s₀.system.pool.postable t = true)
    (hr₁ : Run (Guarded (Fixed rt text) (Step rt type text)) s₀ es₁ s₁)
    (hdestroy : Step rt type text s₁ (.system (.pool .destroy)) s₂)
    (hr₂ : Run (Guarded AnswersFirst (Step rt type text)) s₂ es₂ s)
    (hheard : ∀ w, System.Known s₂.system.pool w → 0 < (s.ports w).heard) {i : Nat}
    (hi : i ∈ acceptedIds s₀.system.pool.started (es₁.filterMap (·.onPool rt text)))
    (himmediate : ∀ w, ∀ x ∈ (s.system.workers w).received, x.id = i → x.immediate rt = true) :
    ∃ r, (i, r) ∈ s.system.pool.settled ∧ System.Computed rt type text s₀.system
      ((es₁ ++ .system (.pool .destroy) :: es₂).filterMap Event.onSystem) i r := by
  have hrun₁ : Run (Step rt type text) s₀ es₁ s₁ := hr₁.mono fun _ _ _ h => h.2
  have hlater : Run (Step rt type text) s₁ (.system (.pool .destroy) :: es₂) s :=
    (Run.step .nil hdestroy).append (hr₂.mono fun _ _ _ h => h.2)
  have hrun := hrun₁.append hlater
  have ha := along_of_run h₀ hrun
  have hpool₁ := pool_run_of_guarded h₀ hr₁
  have hledger := ledger_of_run h₀.system.pool hfixed hsend hpool₁
  have hpool : Run Poolifier.Step s₁.system.pool ((.system (.pool .destroy) :: es₂).filterMap (·.onPool rt text)) s.system.pool := by
    refine (Run.part_guarded (fun _ _ => True) (fun s : State V => s.system.pool)
      (fun es s => Along rt type text s₀ (es₁ ++ es) s) ?_ (fun es s e s' h hs => ⟨?_, h.movesPool h₀ hs⟩)
      (hlater.mono fun _ _ _ h => ⟨fun _ _ => trivial, h⟩)).mono fun _ _ _ h => h.2
    · rw [List.append_nil]
      exact along_of_run h₀ hrun₁
    · rw [← List.append_assoc]
      exact h.step h₀ hs
  have hsettled : i ∈ s.system.pool.settledIds := by
    by_cases hsettled₁ : i ∈ s₁.system.pool.settledIds
    · exact hpool.inv (fun p => i ∈ p.settledIds) hsettled₁ fun _ _ _ h hs => step_settledIds hs h
    · obtain ⟨w, k, t, rfl, howed⟩ := owed_of_destroy h₀ hfixed hsend hr₁ hdestroy hi hsettled₁
      refine (howed.run h₀ (hrun₁.step hdestroy) hr₂ (himmediate w)).resolve_left fun howed' => ?_
      have hpos := hheard w howed.known
      rw [howed'.heard] at hpos
      exact absurd hpos (lt_irrefl 0)
  obtain ⟨⟨i, r⟩, hq, rfl⟩ := List.mem_map.1 hsettled
  refine ⟨r, hq, ?_⟩
  rcases System.settled_cases h₀.system ha.system hq with ⟨x, -, -, -, rfl, -⟩ | ⟨w, m, he, hid, rfl⟩
  · -- the exception would have been thrown before, where accepted calls have ended by their own responses
    have hbefore := thrown_of_run hpool (hledger.acceptedKnown i hi) hq
    have hown : (i, .thrown x) ∈ responses (es₁.filterMap (·.onPool rt text)) := by
      rw [← hledger.byOwnResponse]
      exact List.mem_filter.2 ⟨hbefore, by simpa using hi⟩
    obtain ⟨pe, -, hresponse⟩ := List.mem_filterMap.1 hown
    unfold response at hresponse
    split at hresponse
    · exact absurd (congrArg Prod.snd (Option.some.inj hresponse)) (settlement_ne_thrown _ x)
    · cases hresponse
  · rw [← hid]
    exact System.computed_of_reply h₀.system ha.system he

end Destroyed

/-! ## A run -/

/-- A started pool of two thread workers with queues, whose functions are not asynchronous. -/
def quick : State Unit where
  system :=
    { pool := startedPool 2 true ⟨some 4, some 1, true, true⟩
      workers := fun _ => AbstractWorker.created fun _ => some ⟨false, fun data => .ok data, id, fun _ => false⟩
      handled := fun _ => 0 }
  ports := fun _ => ⟨[], 0, 0, [], 0⟩

def calls : List (Event Unit) :=
  [.system (.worker 0 (.statistics ⟨false, false⟩)), .system (.pool (submit 0 0)), .system (.pool (submit 1 0))]

/-- The second task, which has been in the queue, is replied to before the kill message is answered. -/
def farewell : List (Event Unit) :=
  let reply (taskId : Nat) : Event Unit := .system (.reply 0 ⟨taskId, some (), none, some ⟨"default", 0, none, none⟩⟩)
  [.system (.deliver 0 ⟨"default", (), 0, 0⟩ AbstractWorker.still AbstractWorker.still),
    .system (.deliver 0 ⟨"default", (), 0, 1⟩ AbstractWorker.still AbstractWorker.still),
    .takeKill 0 .returned, .takeKill 1 .threw, reply 0, reply 1, .killAnswer 0 true,
    .system (.pool (.exit 0)), .killAnswer 1 false]

/-- The state after the destruction and the events that follow it. -/
def afterDestroy (s : State Unit) : Option (State Unit × State Unit) := do
  let s₂ ← next System.units .thread (fun _ => "") 5 s (.system (.pool .destroy))
  let s₃ ← replay (nextWhere AnswersFirst (next System.units .thread (fun _ => "") 5)) s₂ farewell
  pure (s₂, s₃)

theorem run_farewell : ∃ s₁ s₂ s, Run (Guarded (Fixed System.units fun _ => "") (Step System.units .thread fun _ => "")) quick calls s₁ ∧
    Step System.units .thread (fun _ => "") s₁ (.system (.pool .destroy)) s₂ ∧
    Run (Guarded AnswersFirst (Step System.units .thread fun _ => "")) s₂ farewell s ∧
    (∀ n ∈ s₂.system.pool.workerNodes, 0 < (s.ports n.info.id).heard) ∧
    ∀ x ∈ (s.system.workers 0).received, x.immediate System.units = true := by
  have hnext (s : State Unit) (e : Event Unit) (s' : State Unit) : next System.units .thread (fun _ => "") 5 s e = some s' →
      Step System.units .thread (fun _ => "") s e s' := step_of_next System.units .thread fun _ => ""
  have hrun : ∃ s₁, Run (Guarded (Fixed System.units fun _ => "") (Step System.units .thread fun _ => "")) quick calls s₁ ∧
      (afterDestroy s₁).any (fun (s₂, s) => decide ((∀ n ∈ s₂.system.pool.workerNodes, 0 < (s.ports n.info.id).heard) ∧
        ∀ x ∈ (s.system.workers 0).received, x.immediate System.units = true)) = true :=
    exists_run_of_replay (f := nextWhere (Fixed System.units fun _ => "") (next System.units .thread (fun _ => "") 5))
      (guarded_of_nextWhere hnext) (by decide +kernel)
  obtain ⟨s₁, hr₁, hafter⟩ := hrun
  obtain ⟨⟨s₂, s⟩, hsome, hdecide⟩ := (Option.any_eq_true ..).1 hafter
  obtain ⟨s₂, hdestroy, hrest⟩ := Option.bind_eq_some_iff.1 hsome
  obtain ⟨s, hreplay, hpair⟩ := Option.bind_eq_some_iff.1 hrest
  cases hpair
  exact ⟨s₁, s₂, s, hr₁, hnext _ _ _ hdestroy, run_of_replay (guarded_of_nextWhere hnext) hreplay, of_decide_eq_true hdecide⟩

theorem settled_of_destroyed_farewell : ∃ s, Run (Step System.units .thread fun _ => "") quick
    (calls ++ .system (.pool .destroy) :: farewell) s ∧ ∃ r, (1, r) ∈ s.system.pool.settled ∧
      System.Computed System.units .thread (fun _ => "") quick.system
        ((calls ++ .system (.pool .destroy) :: farewell).filterMap Event.onSystem) 1 r := by
  have h₀ : Starts .thread (fun _ => some ⟨false, fun data => .ok data, id, fun _ => false⟩) quick :=
    ⟨⟨fresh_startedPool 2 true _, rfl, fun _ => rfl, fun _ => rfl⟩, fun _ => rfl⟩
  obtain ⟨s₁, s₂, s, hr₁, hdestroy, hr₂, hheard, himmediate⟩ := run_farewell
  have hrun := (hr₁.mono fun _ _ _ h => h.2).append ((Run.step .nil hdestroy).append (hr₂.mono fun _ _ _ h => h.2))
  have hheard' (w : Nat) (hw : System.Known s₂.system.pool w) : 0 < (s.ports w).heard := by
    obtain ⟨n, hn, rfl⟩ := hw
    exact hheard n hn
  have himmediate' (w : Nat) : ∀ x ∈ (s.system.workers w).received, x.id = 1 → x.immediate System.units = true := by
    intro x hx _
    by_cases hw : w = 0
    · subst hw
      exact himmediate x hx
    · -- no task is delivered to another worker
      have hreceived := System.received_eq h₀.system (along_of_run h₀ hrun).system w
      have hmem := List.mem_map_of_mem (f := (·.task)) hx
      rw [hreceived] at hmem
      simp [calls, farewell, Event.onSystem, System.Event.delivered, submit, Ne.symm hw] at hmem
  exact ⟨s, hrun, settled_of_destroyed h₀ (.inl rfl) (fun _ => rfl) hr₁ hdestroy hr₂ hheard' (by decide) himmediate'⟩

end Shutdown

end Poolifier
