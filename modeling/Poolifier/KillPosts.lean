import Poolifier.Lib.Logged
import Poolifier.Records
/-!
# The kill messages of a pool

Destroying a node flushes its queue and posts a kill message to its worker,
through the channel of its tasks. The code here is that of the events that
destroy nodes, and tells which kill messages it posts, and after how many task
messages; that apart, it is the code of `handle`.
-/

namespace Poolifier

open EffLib RunLib WorkerNode

/-- A kill message, and how many task messages the worker had been posted before it. -/
structure KillPost where
  workerId : Nat
  after : Nat
deriving DecidableEq

section Code
variable {Data Response : Type}

/-- The kill message that follows what has been posted to the worker of a node. -/
def Pool.killPost (p : Pool Data Response) (workerNodeKey : Nat) : List KillPost :=
  (p.workerNodes[workerNodeKey]?.map fun n => ⟨n.info.id, n.worker.received.length⟩).toList

/-- `destroyWorkerNode`, up to the wait for the answer to the kill message, which is the last it posts. -/
def destroyWorkerNodePosting (cb : Callbacks Data Response) (fuel workerNodeKey : Nat) (reason : DestroyReason) :
    PoolM Data Response (List KillPost) := do
  destroyWorkerNode cb fuel workerNodeKey reason
  pure ((← Eff.get).killPost workerNodeKey)

/-- A destruction whose exception ends nothing but itself. -/
def destroyWorkerNodeCaughtPosting (cb : Callbacks Data Response) (fuel workerNodeKey : Nat) (reason : DestroyReason) :
    PoolM Data Response (List KillPost) :=
  (destroyWorkerNodePosting cb fuel workerNodeKey reason).swallowLogged fun p =>
    { p with errorsCaught := p.errorsCaught + 1 }

/-- The kill listener of a dynamic worker node. -/
def handleKillRequestPosting (cb : Callbacks Data Response) (fuel workerNodeKey : Nat) (behavior : KillBehavior) :
    PoolM Data Response (List KillPost) := do
  let n ← nodeAt workerNodeKey
  let p ← Eff.get
  match behavior with
  | .hard => destroyWorkerNodeCaughtPosting cb fuel workerNodeKey .hardKill
  | .soft =>
    if n.usage.tasks.executing = 0 && (!p.opts.enableTasksQueue || n.tasksQueue.length = 0) then
      destroyWorkerNodeCaughtPosting cb fuel workerNodeKey .softKill
    else
      pure []

/-- The listeners of a kill request. -/
def handleKillMessagePosting (cb : Callbacks Data Response) (fuel workerId : Nat) (behavior : KillBehavior) :
    PoolM Data Response (List KillPost) := do
  let workerNodeKey := (← Eff.get).getWorkerNodeKeyByWorkerId workerId
  match (← Eff.get).workerNodes[workerNodeKey]? with
  | none => Eff.throw (.error s!"Worker message received from unknown worker '{workerId}'")
  | some n => if n.info.dynamic then handleKillRequestPosting cb fuel workerNodeKey behavior else pure []

/-- `destroy`, up to its first wait. -/
def destroyPosting (cb : Callbacks Data Response) (fuel : Nat) : PoolM Data Response (List KillPost) := do
  Eff.modify fun p => { p with destroying := true }
  let p ← Eff.get
  Eff.collect (fun workerNodeKey => destroyWorkerNodeCaughtPosting cb fuel workerNodeKey .poolDestroyed)
    (List.range p.workerNodes.length)

/-- The code of an event; no other than these posts a kill message. -/
def handlePosting (fuel : Nat) : Event Data Response → PoolM Data Response (List KillPost)
  | .message workerId (.killRequest behavior) => handleKillMessagePosting (callbacks fuel) fuel workerId behavior
  | .destroy => destroyPosting (callbacks fuel) fuel
  | e => do
    handle fuel e
    pure []

/-! ## Without the kill messages -/

variable {cb : Callbacks Data Response}

theorem erases_destroyWorkerNodeCaughtPosting (cb : Callbacks Data Response) (fuel k : Nat) (reason : DestroyReason) :
    Erases (destroyWorkerNodeCaughtPosting cb fuel k reason) (destroyWorkerNodeCaught cb fuel k reason) :=
  ((erases_self _).andThen fun _ => .after Eff.get fun _ => erases_pure _).swallow _

/-- The code is that of `handle`, whichever event it is for. -/
theorem erases_handlePosting (fuel : Nat) (e : Event Data Response) :
    Erases (handlePosting fuel e : PoolM Data Response (List KillPost)) (handle fuel e) := by
  have hother : Erases (handle fuel e >>= fun _ => pure [] : PoolM Data Response (List KillPost)) (handle fuel e) :=
    (erases_self _).andThen fun _ => erases_pure []
  cases e with
  | message w message =>
    cases message with
    | killRequest behavior =>
      refine .after Eff.get fun p => .after Eff.get fun q => ?_
      rcases q.workerNodes[p.getWorkerNodeKeyByWorkerId w]? with _ | n
      · exact erases_throw _
      · dsimp only
        split
        · refine .after (nodeAt _) fun n => .after Eff.get fun p => ?_
          cases behavior with
          | hard => exact erases_destroyWorkerNodeCaughtPosting _ fuel _ _
          | soft =>
            dsimp only
            split
            · exact erases_destroyWorkerNodeCaughtPosting _ fuel _ _
            · exact erases_pure []
        · exact erases_pure []
    | _ => exact hother
  | destroy =>
    refine .after (Eff.modify _) fun _ => .after Eff.get fun p => ?_
    exact .collect (fun k => erases_destroyWorkerNodeCaughtPosting _ fuel k _) _
  | _ => exact hother

end Code

/-! ## What has been posted -/

section Posted
variable {Data Response : Type} {s s' s'' : Pool Data Response} {cb : Callbacks Data Response} {e : Event Data Response}
  {k : Nat}

/-- A worker that is being destroyed stays so, also when its node has left. -/
def StaysDoomed (p p' : Pool Data Response) : Prop :=
  ∀ n ∈ p.everyNode, n.destroying.isSome = true → ∃ n' ∈ p'.everyNode, n'.info.id = n.info.id ∧ n'.destroying.isSome = true

instance : IsPreorder (Pool Data Response) StaysDoomed where
  refl _ n hn hd := ⟨n, hn, rfl, hd⟩
  trans _ _ _ h h' n hn hd := by
    obtain ⟨n', hn', hid, hd'⟩ := h n hn hd
    obtain ⟨n'', hn'', hid', hd''⟩ := h' n' hn' hd'
    exact ⟨n'', hn'', hid'.trans hid, hd''⟩

theorem mem_of_forall₂ {α : Type} {r : α → α → Prop} {l l' : List α} (h : List.Forall₂ r l l') {a : α} (ha : a ∈ l) :
    ∃ b ∈ l', r a b := by
  induction h with
  | nil => cases ha
  | @cons c d l l' hcd _ ih =>
    rcases List.mem_cons.1 ha with rfl | ha
    · exact ⟨d, List.mem_cons_self, hcd⟩
    · obtain ⟨b, hb, hab⟩ := ih ha
      exact ⟨b, List.mem_cons_of_mem _ hb, hab⟩

theorem lenient_staysDoomed : Lenient (StaysDoomed : Pool Data Response → Pool Data Response → Prop) where
  nodes heq h n hn hd := by
    rcases List.mem_append.1 hn with hn | hn
    · obtain ⟨n', hn', hp⟩ := mem_of_forall₂ h hn
      exact ⟨n', List.mem_append_left _ hn', hp.id, hp.destroying hd⟩
    · refine ⟨n, List.mem_append_right _ ?_, rfl, hd⟩
      rw [heq]
      exact hn
  removed heq h n hn hd := by
    rcases List.mem_append.1 hn with hn | hn
    · refine ⟨n, List.mem_append_left _ ?_, rfl, hd⟩
      rw [heq]
      exact hn
    · obtain ⟨n', hn', hp⟩ := mem_of_forall₂ h hn
      exact ⟨n', List.mem_append_right _ hn', hp.id, hp.destroying hd⟩
  grown h n hn hd := by
    obtain ⟨new, hnodes, -⟩ := h.nodes
    refine ⟨n, ?_, rfl, hd⟩
    unfold Pool.everyNode at hn ⊢
    rw [h.rest, hnodes, List.append_assoc, List.mem_append]
    exact (List.mem_append.1 hn).imp id fun hn => List.mem_append_right _ hn
  rest heq n hn hd := by
    refine ⟨n, ?_, rfl, hd⟩
    unfold Pool.everyNode at hn ⊢
    rw [heq]
    exact hn

theorem step_staysDoomed (h : Step s e s') : StaysDoomed s s' := by
  by_cases hexit : ∃ w, e = .exit w
  · obtain ⟨w, rfl⟩ := hexit
    intro n hn hd
    exact ⟨n, (step_exit h).1.mem_iff.2 hn, rfl, hd⟩
  · exact lenient_staysDoomed.step h fun w he => hexit ⟨w, he⟩

/-- No node comes or goes, and each may have been posted more task messages. -/
def Advances (p p' : Pool Data Response) : Prop :=
  List.Forall₂ (fun n n' : WorkerNode Data => Continues n n' ∧ n.worker.received.length ≤ n'.worker.received.length)
    p.workerNodes p'.workerNodes

instance : IsPreorder (Pool Data Response) Advances where
  refl _ := List.forall₂_same.2 fun n _ => ⟨.refl n, le_rfl⟩
  trans _ _ _ h h' := by
    refine List.forall₂_iff_get.2 ⟨h.length_eq.trans h'.length_eq, fun i hi hi' => ?_⟩
    have hmid := h.length_eq ▸ hi
    obtain ⟨hp, hle⟩ := h.get hi hmid
    obtain ⟨hp', hle'⟩ := h'.get hmid hi'
    exact ⟨⟨hp'.id.trans hp.id, fun hd => hp'.destroying (hp.destroying hd)⟩, hle.trans hle'⟩

theorem advances_of_eq (h : s'.workerNodes = s.workerNodes) : Advances s s' := by
  unfold Advances
  rw [h]
  exact refl_of Advances s

theorem Moves.advances {α : Type} {m : PoolM Data Response α} (h : Moves m) : EffLib.Within Advances m := by
  have hreached {lost : Multiset (Task Data)} {p p' : Pool Data Response} (hr : Reached False (p, 0) p' lost) :
      Advances p p' := by
    refine List.forall₂_iff_get.2 ⟨hr.frame.length.symm, fun i hi hi' => ?_⟩
    have hsetup := hr.frame.setup i _ _ (List.getElem?_eq_getElem hi) (List.getElem?_eq_getElem hi')
    refine ⟨⟨congrArg WorkerInfo.id hsetup.info, fun hd => hsetup.destroying ▸ hd⟩, ?_⟩
    obtain ⟨new, hnew⟩ := (Flow.of_reached hr).posts i
    rw [workers_getD, workers_getD, List.getElem?_eq_getElem hi, List.getElem?_eq_getElem hi'] at hnew
    have hreceived := congrArg (·.received.length) hnew
    simp only [Option.elim_some, Worker.post, List.length_append] at hreceived
    simp only [List.get_eq_getElem]
    omega
  intro s
  refine wp_mono (h s) (fun _ _ hr => hreached hr) fun _ s' hr => ?_
  obtain ⟨lost, hr⟩ := hr
  exact hreached hr

/-- The worker of the message is being destroyed, and no task message it has been posted is taken back. -/
def KillPost.HoldsIn (m : KillPost) (p : Pool Data Response) : Prop :=
  ∃ n ∈ p.workerNodes, n.info.id = m.workerId ∧ n.destroying.isSome = true ∧ m.after ≤ n.worker.received.length

theorem KillPost.HoldsIn.mono {m : KillPost} (h : m.HoldsIn s) (hs : Advances s s') : m.HoldsIn s' := by
  obtain ⟨n, hn, hid, hd, hle⟩ := h
  obtain ⟨n', hn', hp, hle'⟩ := mem_of_forall₂ hs hn
  exact ⟨n', hn', hp.id.trans hid, hp.destroying hd, hle.trans hle'⟩

/-- The message comes after all that its worker had been posted. -/
def KillPost.Follows (m : KillPost) (p : Pool Data Response) : Prop :=
  ∃ n ∈ p.workerNodes, n.info.id = m.workerId ∧ n.worker.received.length ≤ m.after

theorem KillPost.Follows.of_later {m : KillPost} (h : m.Follows s') (hs : Advances s s') : m.Follows s := by
  obtain ⟨n', hn', hid, hle⟩ := h
  obtain ⟨n, hn, hp, hle'⟩ := mem_of_forall₂ (List.Forall₂.flip hs) hn'
  exact ⟨n, hn, hp.id.symm.trans hid, hle'.trans hle⟩

theorem destroyWorkerNodePosting_posts (hcb : CallbacksMove cb) (fuel k : Nat) (reason : DestroyReason) :
    wp (destroyWorkerNodePosting cb fuel k reason)
      (fun ms s' => Advances s s' ∧ ∀ m ∈ ms, m.HoldsIn s' ∧ m.Follows s) (fun _ s' => Advances s s') s := by
  unfold destroyWorkerNodePosting destroyWorkerNode
  simp only [wp_bind, wp_get, wp_pure]
  refine wp_mono ((moves_flushTasksQueue hcb fuel k).advances s) (fun _ s₁ hs₁ => ?_) fun _ _ h => h
  rcases hn : s₁.workerNodes[k]? with _ | n
  · exact (wp_nodeAt_none hn).2 hs₁
  · rw [wp_nodeAt hn]
    split
    · rw [wp_modifyNode]
      generalize hs₂ : (s₁.modifyNode k fun n => { n with destroying := n.destroying <|> some reason }) = s₂
      have hat : s₂.workerNodes[k]? = some { n with destroying := n.destroying <|> some reason } := by
        rw [← hs₂, Pool.getElem?_modifyNode, hn, Option.map_some, if_pos rfl]
      have hdoomed : (n.destroying <|> some reason).isSome = true := by cases n.destroying <;> rfl
      have hmodified : Advances s₁ s₂ := by
        rw [← hs₂]
        refine forall₂_modify _ k (fun n => ⟨.refl n, le_rfl⟩) fun n => ⟨⟨rfl, fun hd => ?_⟩, le_rfl⟩
        obtain ⟨x, hx⟩ := Option.isSome_iff_exists.1 hd
        dsimp only
        rw [hx]
        rfl
      have hall := trans_of Advances hs₁ hmodified
      refine ⟨hall, fun m hm => ?_⟩
      have hmem : { n with destroying := n.destroying <|> some reason } ∈ s₂.workerNodes := List.mem_of_getElem? hat
      rw [Pool.killPost, hat] at hm
      obtain rfl := List.mem_singleton.1 hm
      refine ⟨⟨_, hmem, rfl, hdoomed, le_rfl⟩, KillPost.Follows.of_later ⟨_, hmem, rfl, le_rfl⟩ hall⟩
    · exact (wp_throw _).2 hs₁

theorem destroyWorkerNodeCaughtPosting_posts (hcb : CallbacksMove cb) (fuel k : Nat) (reason : DestroyReason) :
    wp (destroyWorkerNodeCaughtPosting cb fuel k reason)
      (fun ms s' => Advances s s' ∧ ∀ m ∈ ms, m.HoldsIn s' ∧ m.Follows s) (fun _ _ => False) s := by
  unfold destroyWorkerNodeCaughtPosting
  rw [wp_swallowLogged]
  refine wp_mono (destroyWorkerNodePosting_posts hcb fuel k reason) (fun _ _ h => h) fun _ s' h => ?_
  exact ⟨trans_of Advances h (advances_of_eq rfl), List.forall_mem_nil _⟩

/-- What is true of every kill message an event posts. -/
theorem handlePosting_posts (fuel : Nat) (e : Event Data Response) :
    wp (handlePosting fuel e) (fun ms s' => ∀ m ∈ ms, m.HoldsIn s' ∧ m.Follows s) (fun _ _ => True) s := by
  have hcb : CallbacksMove (callbacks fuel : Callbacks Data Response) := callbacks_move fuel
  have hnone {m : PoolM Data Response Unit} :
      wp (m >>= fun _ => pure []) (fun ms s' => ∀ m ∈ ms, KillPost.HoldsIn m s' ∧ m.Follows s) (fun _ _ => True) s := by
    rw [wp_bind]
    rintro r s' -
    cases r with
    | ok _ => exact (wp_pure _).2 (List.forall_mem_nil _)
    | error _ => trivial
  have hone (k : Nat) (reason : DestroyReason) : wp (destroyWorkerNodeCaughtPosting (callbacks fuel) fuel k reason)
      (fun ms s' => ∀ m ∈ ms, m.HoldsIn s' ∧ m.Follows s) (fun _ _ => True) s :=
    wp_mono (destroyWorkerNodeCaughtPosting_posts hcb fuel k reason) (fun _ _ h => h.2) fun _ _ h => h.elim
  cases e with
  | message w message =>
    cases message with
    | killRequest behavior =>
      simp only [handlePosting, handleKillMessagePosting, wp_bind, wp_get]
      rcases hn : s.workerNodes[s.getWorkerNodeKeyByWorkerId w]? with _ | n
      · exact (wp_throw _).2 trivial
      · dsimp only
        split
        · simp only [handleKillRequestPosting, wp_bind, wp_nodeAt hn, wp_get]
          cases behavior with
          | hard => exact hone _ _
          | soft =>
            dsimp only
            split
            · exact hone _ _
            · exact (wp_pure _).2 (List.forall_mem_nil _)
        · exact (wp_pure _).2 (List.forall_mem_nil _)
    | _ => exact hnone
  | destroy =>
    simp only [handlePosting, destroyPosting, wp_bind, wp_modify, wp_get]
    generalize hs₁ : ({ s with destroying := true } : Pool Data Response) = s₁
    have hsame : Advances s s₁ := advances_of_eq (by rw [← hs₁])
    refine wp_mono (wp_collect (I := Advances s₁) (P := fun m p => m.HoldsIn p ∧ m.Follows s₁) (refl_of Advances s₁)
      fun k _ p hp => ?_) (fun ms p h m hm => ?_) fun _ _ h => h
    · refine wp_mono (destroyWorkerNodeCaughtPosting_posts hcb fuel k .poolDestroyed) (fun ms p' h => ?_) fun _ _ h => h.elim
      obtain ⟨hadv, hms⟩ := h
      refine ⟨trans_of Advances hp hadv, fun m hm => ⟨(hms m hm).1, (hms m hm).2.of_later hp⟩, fun m hm => ?_⟩
      exact ⟨hm.1.mono hadv, hm.2⟩
    · exact ⟨(h.2.1 m hm).1, (h.2.1 m hm).2.of_later hsame⟩
  | _ => exact hnone

end Posted

end Poolifier
