import Poolifier.Issued
/-!
# What each worker has been sent

A pool posts task messages to its workers and takes in their responses. Under
its id, the record of a worker says which messages it has been posted, oldest
first, and which of them are unanswered. The record outlives the node: a worker
that has left may still answer. Events add messages at the end of records, and
a response takes one off the unanswered ones of its sender.
-/

namespace Poolifier

open EffLib RunLib WorkerNode

variable {Data Response : Type}

/-! ## What no event takes back -/

/-- A node of a pool keeps its id, and is not spared once it is being destroyed. -/
structure Continues (n n' : WorkerNode Data) : Prop where
  id : n'.info.id = n.info.id
  destroying : n.destroying.isSome = true → n'.destroying.isSome = true

/-- A node that has left keeps its messages, too. -/
structure Remains (n n' : WorkerNode Data) : Prop extends Continues n n' where
  worker : n'.worker = n.worker

theorem Continues.refl (n : WorkerNode Data) : Continues n n := ⟨rfl, fun hd => hd⟩

theorem Remains.refl (n : WorkerNode Data) : Remains n n := ⟨.refl n, rfl⟩

theorem forall₂_map_right {α : Type} {r : α → α → Prop} {f : α → α} (l : List α) (hf : ∀ a, r a (f a)) :
    List.Forall₂ r l (l.map f) := by
  rw [List.forall₂_map_right_iff]
  exact List.forall₂_same.2 fun a _ => hf a

theorem forall₂_modify {α : Type} {r : α → α → Prop} {f : α → α} (l : List α) (k : Nat) (hr : ∀ a, r a a)
    (hf : ∀ a, r a (f a)) : List.Forall₂ r l (l.modify k f) := by
  induction l generalizing k with
  | nil =>
    rw [List.modify_nil]
    exact .nil
  | cons a l ih =>
    cases k with
    | zero => exact .cons (hf a) (List.forall₂_same.2 fun b _ => hr b)
    | succ k => exact .cons (hr a) (ih k)

/-- What is asked of a relation that the code of every event stays within, the exits of workers apart: it lets nodes
persist, and nodes that have left remain; it lets nodes join; and it asks nothing of the rest of a pool. -/
structure Lenient (R : Pool Data Response → Pool Data Response → Prop) : Prop where
  nodes : ∀ {p p' : Pool Data Response}, p' = { p with workerNodes := p'.workerNodes } →
    List.Forall₂ Continues p.workerNodes p'.workerNodes → R p p'
  removed : ∀ {p p' : Pool Data Response}, p' = { p with removedNodes := p'.removedNodes } →
    List.Forall₂ Remains p.removedNodes p'.removedNodes → R p p'
  grown : ∀ {p p'}, Grown p p' → R p p'
  rest : ∀ {p p' : Pool Data Response}, p' = { p' with
    workerNodes := p.workerNodes, removedNodes := p.removedNodes, nextWorkerId := p.nextWorkerId } → R p p'

namespace Lenient
variable {R : Pool Data Response → Pool Data Response → Prop} {s s' : Pool Data Response} {cb : Callbacks Data Response}
  {e : Event Data Response} {α : Type}

theorem modifyNode (hR : Lenient R) (k : Nat) {f : WorkerNode Data → WorkerNode Data} (hf : ∀ n, Continues n (f n))
    (p : Pool Data Response) : R p (p.modifyNode k f) :=
  hR.nodes rfl (forall₂_modify _ k .refl hf)

theorem mapNodes (hR : Lenient R) {f : WorkerNode Data → WorkerNode Data} (hf : ∀ n, Continues n (f n)) :
    EffLib.Within R (mapNodes f : PoolM Data Response Unit) :=
  within_modify fun _ => hR.nodes rfl (forall₂_map_right _ hf)

theorem settle (hR : Lenient R) (taskId : Nat) (x : Settlement Response) (p : Pool Data Response) : R p (p.settle taskId x) := by
  apply hR.rest
  rw [Pool.settle_rest]

variable [IsPreorder (Pool Data Response) R]

theorem frame (hR : Lenient R) (h : Frame s s') : R s s' := by
  have hnodes : R s { s with workerNodes := s'.workerNodes } := by
    refine hR.nodes rfl (List.forall₂_iff_get.2 ⟨h.length.symm, fun i hi hi' => ?_⟩)
    have hsetup := h.setup i _ _ (List.getElem?_eq_getElem hi) (List.getElem?_eq_getElem hi')
    exact ⟨congrArg WorkerInfo.id hsetup.info, fun hd => hsetup.destroying ▸ hd⟩
  refine trans_of R hnodes (hR.rest ?_)
  rw [h.rest]

theorem moves (hR : Lenient R) {m : PoolM Data Response α} (h : Moves m) : EffLib.Within R m := by
  intro s
  refine wp_mono (h s) (fun _ _ hr => hR.frame hr.frame) fun _ s' hr => ?_
  obtain ⟨lost, hr⟩ := hr
  exact hR.frame hr.frame

theorem destroyWorkerNode (hR : Lenient R) (hcb : CallbacksMove cb) (fuel k : Nat) (reason : DestroyReason) :
    EffLib.Within R (destroyWorkerNode cb fuel k reason) := by
  refine (hR.moves (moves_flushTasksQueue hcb fuel k)).bind fun _ => (within_nodeAt k).bind fun n => ?_
  split
  · refine within_modify (hR.modifyNode k fun n => ⟨rfl, fun hd => ?_⟩)
    obtain ⟨x, hx⟩ := Option.isSome_iff_exists.1 hd
    dsimp only
    rw [hx]
    rfl
  · exact within_throw _

theorem destroyWorkerNodeCaught (hR : Lenient R) (hcb : CallbacksMove cb) (fuel k : Nat) (reason : DestroyReason) :
    EffLib.Within R (destroyWorkerNodeCaught cb fuel k reason) :=
  (hR.destroyWorkerNode hcb fuel k reason).swallow fun _ => hR.rest rfl

theorem destroy (hR : Lenient R) (hcb : CallbacksMove cb) (fuel : Nat) : EffLib.Within R (destroy cb fuel) := by
  refine Within.bind (within_modify fun _ => hR.rest rfl) fun _ => within_get.bind fun p => ?_
  exact .forEach (fun k => hR.destroyWorkerNodeCaught hcb fuel k _) _

theorem handleTaskExecutionResponse (hR : Lenient R) (hcb : CallbacksMove cb) (m : TaskResponse Response) :
    EffLib.Within R (handleTaskExecutionResponse cb m) := by
  refine within_get.bind fun p => ?_
  split
  · exact within_pure ()
  · rename_i k _
    have hhook : EffLib.Within R (afterTaskExecutionHook k m : PoolM Data Response Unit) := by
      refine (within_nodeAt k).bind fun _ => within_get.bind fun q => within_modify (hR.modifyNode k fun n => ?_)
      obtain ⟨u, hu⟩ := afterTaskExecution_eq q.taskStatisticsRequirements m n
      rw [hu]
      exact ⟨rfl, id⟩
    refine Within.bind (within_modify (hR.settle m.taskId m.settlement)) fun _ => hhook.bind fun _ => ?_
    exact Within.bind (within_modify fun _ => hR.rest rfl) fun _ => hR.moves (moves_executeNextTask hcb k)

theorem handleMessage (hR : Lenient R) (hcb : CallbacksMove cb) (fuel w : Nat) (message : WorkerMessage Response) :
    EffLib.Within R (handleMessage cb fuel w message) := by
  intro s
  rcases hn : s.workerNodes[s.getWorkerNodeKeyByWorkerId w]? with _ | n
  · exact wp_message_unknown hn fun _ => refl_of R s
  · have hnode {f : WorkerNode Data → WorkerNode Data} (hf : ∀ n, Continues n (f n)) :
        R s (s.modifyNode (s.getWorkerNodeKeyByWorkerId w) f) := hR.modifyNode _ hf s
    refine wp_message hn (fun _ _ => hnode fun _ => ⟨rfl, id⟩) (fun _ _ _ => refl_of R s)
      (fun _ _ => hnode fun _ => ⟨rfl, id⟩) (fun m _ => ?_) (fun behavior _ _ => ?_) (fun _ _ _ => refl_of R s)
      (fun _ => hnode fun _ => ⟨rfl, id⟩) fun _ => refl_of R s
    · have hanswer : R s (s.modifyNode (s.getWorkerNodeKeyByWorkerId w) (·.answer m.taskId)) :=
        hnode fun _ => ⟨rfl, id⟩
      exact wp_mono (hR.handleTaskExecutionResponse hcb m _) (fun _ _ h => trans_of R hanswer h)
        fun _ _ h => trans_of R hanswer h
    · refine (show EffLib.Within R (handleKillRequest cb fuel (s.getWorkerNodeKeyByWorkerId w) behavior) from ?_) s
      refine (within_nodeAt _).bind fun n => within_get.bind fun p => ?_
      cases behavior with
      | hard => exact hR.destroyWorkerNodeCaught hcb fuel _ _
      | soft =>
        dsimp only
        split
        · exact hR.destroyWorkerNodeCaught hcb fuel _ _
        · exact within_pure ()

/-- A round of a loop that has outlived its node changes the loop counter of that node. -/
theorem pollingTick (hR : Lenient R) (fuel w : Nat) :
    EffLib.Within R (pollingTick (callbacks fuel) w : PoolM Data Response Unit) := by
  have hremoved (i : Nat) (f : WorkerNode Data → WorkerNode Data) (hf : ∀ n, Remains n (f n))
      (p : Pool Data Response) : R p { p with removedNodes := p.removedNodes.modify i f } :=
    hR.removed rfl (forall₂_modify _ i .refl hf)
  intro s
  by_cases hk : s.getWorkerNodeKeyByWorkerId w < s.workerNodes.length
  · have hid := (s.key_lt_iff w).1 hk
    exact wp_mono (pollingTick_moves (g := False) (callbacks_move fuel) (.refl s 0) hid)
      (fun _ _ hr => hR.frame hr.frame) fun _ _ hf => hf.elim
  · simp only [Poolifier.pollingTick, wp_bind, wp_get, if_neg hk]
    split
    · exact (wp_pure ()).2 (refl_of R s)
    · rename_i i hi
      refine (show EffLib.Within R (pollingTick.removedNodeTick (callbacks fuel) i w) from ?_) s
      refine within_get.bind fun p => ?_
      split
      · exact within_pure ()
      · split
        · exact within_modify (hremoved i _ fun n => ⟨⟨rfl, id⟩, rfl⟩)
        · refine Within.bind (within_modify (hremoved i _ fun n => ⟨⟨rfl, id⟩, rfl⟩)) fun _ => ?_
          split
          · refine (hR.moves (moves_onEmptyQueue fuel w)).swallow fun q => ?_
            have hcaught : R q { q with errorsCaught := q.errorsCaught + 1 } := hR.rest rfl
            refine trans_of R hcaught (hremoved i _ (fun n => ?_) { q with errorsCaught := q.errorsCaught + 1 })
            exact ⟨⟨rfl, id⟩, rfl⟩
          · exact within_pure ()

theorem createAndSetup (hR : Lenient R) :
    EffLib.Within R (createAndSetupWorkerNode : PoolM Data Response Nat) ∧
      EffLib.Within R (createAndSetupDynamicWorkerNode : PoolM Data Response Nat) := by
  refine ⟨fun s => ?_, fun s => ?_⟩
  · refine wp_mono createAndSetupWorkerNode_joins (fun k s' hk => hR.grown hk.2.2.grown) fun _ s' hs' => ?_
    rw [hs'.2]
    exact refl_of R s
  · refine wp_mono createAndSetupDynamicWorkerNode_grows (fun k s' hk => hR.grown hk.2.2) fun _ s' hs' => ?_
    rw [hs']
    exact refl_of R s

theorem handleError (hR : Lenient R) (hcb : CallbacksMove cb) (fuel w : Nat) : EffLib.Within R (handleError cb fuel w) := by
  refine within_get.bind fun p => (within_nodeAt _).bind fun n =>
    Within.bind (within_modify (hR.modifyNode _ fun _ => ⟨rfl, id⟩)) fun _ => ?_
  have hlast : EffLib.Within R (if (p.started && p.opts.enableTasksQueue) = true then
      redistributeQueuedTasks cb fuel (p.getWorkerNodeKeyByWorkerId w) else pure ()) := by
    split
    · exact hR.moves (moves_redistributeQueuedTasks hcb fuel _)
    · exact within_pure ()
  dsimp only
  split
  · split
    · exact hR.createAndSetup.2.bind fun _ => hlast
    · exact hR.createAndSetup.1.bind fun _ => hlast
  · exact hlast

theorem setTasksQueueOptions (hR : Lenient R) (o : TasksQueueOptionsArgument) :
    EffLib.Within R (setTasksQueueOptions o : PoolM Data Response Unit) := by
  refine within_get.bind fun p => ?_
  split
  · refine Within.bind ?_ fun _ => Within.bind (within_modify fun _ => hR.rest rfl) fun _ => ?_
    · rcases checkValidTasksQueueOptions o with e | _
      · exact within_throw e
      · exact within_pure ()
    · refine Within.bind (hR.mapNodes fun _ => ⟨rfl, id⟩) fun _ => Within.bind (hR.mapNodes fun _ => ⟨rfl, id⟩) fun _ => ?_
      exact hR.mapNodes fun _ => ⟨rfl, id⟩
  · exact within_modify fun _ => hR.rest rfl

theorem enableTasksQueue (hR : Lenient R) (hcb : CallbacksMove cb) (fuel : Nat) (enable : Bool)
    (o : TasksQueueOptionsArgument) : EffLib.Within R (enableTasksQueue cb fuel enable o) := by
  have hflush : EffLib.Within R (flushTasksQueues cb fuel) :=
    within_get.bind fun p => .forEach (fun k => hR.moves (moves_flushTasksQueue hcb fuel k)) _
  have hdisable : EffLib.Within R (disableTasksQueue cb fuel) :=
    Within.bind (hR.mapNodes fun _ => ⟨rfl, id⟩) fun _ => Within.bind (hR.mapNodes fun _ => ⟨rfl, id⟩) fun _ => hflush
  have hrest : EffLib.Within R (Eff.modify (fun p => { p with opts.enableTasksQueue := enable }) >>= fun _ =>
      Poolifier.setTasksQueueOptions o : PoolM Data Response Unit) :=
    Within.bind (within_modify fun _ => hR.rest rfl) fun _ => hR.setTasksQueueOptions o
  refine within_get.bind fun p => ?_
  dsimp only
  split
  · exact hdisable.bind fun _ => hrest
  · exact hrest

theorem execute (hR : Lenient R) (fuel taskId : Nat) (name : Option String) (data : Data) (choice : Choice) :
    EffLib.Within R (execute (callbacks fuel) taskId name data choice : PoolM Data Response Unit) := by
  intro s
  have hdraw : R s { s with uuids := taskId :: s.uuids } := hR.rest rfl
  refine wp_execute (fun x s₁ hg _ => ?_) fun k s₁ hg _ _ _ _ => ?_
  · exact trans_of R (trans_of R hdraw (hR.grown hg)) (hR.settle _ _ _)
  · have hpromise : R s₁ (s₁.withPromise taskId k) := hR.rest rfl
    have hfirst : R s (s₁.withPromise taskId k) := trans_of R (trans_of R hdraw (hR.grown hg)) hpromise
    rcases hk : s₁.workerNodes[k]? with _ | n
    · rw [wp_dispatchTask_unknown (s := s₁.withPromise taskId k) hk]
      exact trans_of R hfirst (hR.settle _ _ _)
    · have hr : Reached False (s₁.withPromise taskId k, {⟨name.getD defaultTaskName, data, s.now, taskId⟩})
          (s₁.withPromise taskId k) (⟨name.getD defaultTaskName, data, s.now, taskId⟩ ::ₘ 0) := .refl _ _
      refine wp_mono (dispatchTask_moves (callbacks_move fuel) hr (Pool.lt_of_node hk) False.elim)
        (fun _ _ hr' => trans_of R hfirst (hR.frame hr'.frame)) fun x s' hf => ?_
      obtain ⟨-, lost, hr'⟩ := hf
      exact trans_of R (trans_of R hfirst (hR.frame hr'.frame)) (hR.settle _ _ _)

/-- An event that is not an exit stays within any lenient relation. -/
theorem step (hR : Lenient R) (h : Step s e s') (he : ∀ w, e ≠ .exit w) : R s s' := by
  have hcb (fuel : Nat) : CallbacksMove (callbacks fuel : Callbacks Data Response) := callbacks_move fuel
  obtain ⟨-, fuel, now, r, hm⟩ := h
  have hnow : R s { s with now } := hR.rest rfl
  refine trans_of R hnow ?_
  have hany (hw : EffLib.Within R (handle fuel e : PoolM Data Response Unit)) : R { s with now } s' := wp_any (hw _) hm
  cases e with
  | execute taskId name data choice => exact hany (hR.execute fuel taskId name data choice)
  | message w message => exact hany (hR.handleMessage (hcb fuel) fuel w message)
  | poll w => exact hany (hR.pollingTick fuel w)
  | error w => exact hany (hR.handleError (hcb fuel) fuel w)
  | exit w => exact absurd rfl (he w)
  | start =>
    refine hany fun s => ?_
    have hflags (a b : Bool) : R s { s with starting := a, started := b } := hR.rest rfl
    exact wp_mono (start_grows fuel) (fun _ _ hg => trans_of R (hflags false true) (hR.grown hg)) fun _ _ hg =>
      trans_of R (hflags true s.started) (hR.grown hg)
  | enableTasksQueue enable o => exact hany (hR.enableTasksQueue (hcb fuel) fuel enable o)
  | setTasksQueueOptions o => exact hany (hR.setTasksQueueOptions o)
  | destroy => exact hany (hR.destroy (hcb fuel) fuel)
  | destroyed => exact hany (within_modify fun _ => hR.rest rfl)

end Lenient

/-! ## Nodes that have left -/

/-- The same nodes have left, with the same messages. -/
def SameLeft (p p' : Pool Data Response) : Prop :=
  p'.removedNodes.map (fun n => (n.info.id, n.worker)) = p.removedNodes.map fun n => (n.info.id, n.worker)

instance : IsPreorder (Pool Data Response) SameLeft where
  refl _ := rfl
  trans _ _ _ h h' := Eq.trans h' h

section SameLeft
variable {s s' : Pool Data Response} {e : Event Data Response}

theorem map_eq_of_forall₂ {α β : Type} {r : α → α → Prop} {g : α → β} {l l' : List α} (h : List.Forall₂ r l l')
    (hg : ∀ a b, r a b → g b = g a) : l'.map g = l.map g := by
  induction h with
  | nil => rfl
  | @cons a b l l' hab _ ih => rw [List.map_cons, List.map_cons, hg a b hab, ih]

theorem lenient_sameLeft : Lenient (SameLeft : Pool Data Response → Pool Data Response → Prop) where
  nodes h _ := by
    unfold SameLeft
    rw [h]
  removed _ h := map_eq_of_forall₂ h fun _ _ hn => Prod.ext hn.id hn.worker
  grown h := by
    unfold SameLeft
    rw [h.rest]
  rest h := by
    unfold SameLeft
    rw [h]

/-- Nodes leave with their exits only, and what has left stays as it is. -/
theorem step_sameLeft (h : Step s e s') (he : ∀ w, e ≠ .exit w) : SameLeft s s' := lenient_sameLeft.step h he

end SameLeft

/-! ## Messages posted, key by key -/

/-- More messages have been posted to a worker. -/
def Worker.post (new : List (Task Data)) (x : Worker Data) : Worker Data := ⟨x.received ++ new, x.unanswered ++ new⟩

def Pool.workers (p : Pool Data Response) : List (Worker Data) := p.workerNodes.map (·.worker)

/-- More messages have been posted to the workers of a list, and workers may have joined it. -/
def Posts (ws ws' : List (Worker Data)) : Prop := ∀ i : Nat, ∃ new, ws'.getD i ⟨[], []⟩ = (ws.getD i ⟨[], []⟩).post new

section Posts
variable {ws ws' ws'' : List (Worker Data)} {s s' : Pool Data Response} {e : Event Data Response}

theorem Worker.post_nil (x : Worker Data) : x.post [] = x := by
  simp [Worker.post]

theorem Worker.post_post (x : Worker Data) (new new' : List (Task Data)) : (x.post new).post new' = x.post (new ++ new') := by
  simp [Worker.post]

theorem Posts.refl (ws : List (Worker Data)) : Posts ws ws := fun _ => ⟨[], (Worker.post_nil _).symm⟩

theorem Posts.trans (h : Posts ws ws') (h' : Posts ws' ws'') : Posts ws ws'' := by
  intro i
  obtain ⟨new, hnew⟩ := h i
  obtain ⟨new', hnew'⟩ := h' i
  refine ⟨new ++ new', ?_⟩
  rw [hnew', hnew, Worker.post_post]

theorem workers_getD (p : Pool Data Response) (i : Nat) :
    p.workers.getD i ⟨[], []⟩ = (p.workerNodes[i]?).elim ⟨[], []⟩ (·.worker) := by
  rw [Pool.workers, List.getD_eq_getElem?_getD, List.getElem?_map]
  cases p.workerNodes[i]? <;> rfl

theorem posts_modifyNode (p : Pool Data Response) (k : Nat) {f : WorkerNode Data → WorkerNode Data}
    (hf : ∀ n, p.workerNodes[k]? = some n → ∃ new, (f n).worker = n.worker.post new) :
    Posts p.workers (p.modifyNode k f).workers := by
  intro i
  rw [workers_getD, workers_getD, Pool.getElem?_modifyNode]
  rcases hi : p.workerNodes[i]? with _ | n
  · exact ⟨[], (Worker.post_nil _).symm⟩
  · by_cases hk : k = i
    · subst hk
      obtain ⟨new, hnew⟩ := hf n hi
      exact ⟨new, by simpa using hnew⟩
    · exact ⟨[], by simp [hk, Worker.post_nil]⟩

theorem posts_modifyNode_same (p : Pool Data Response) (k : Nat) {f : WorkerNode Data → WorkerNode Data}
    (hf : ∀ n, p.workerNodes[k]? = some n → (f n).worker = n.worker) : Posts p.workers (p.modifyNode k f).workers :=
  posts_modifyNode p k fun n hn => ⟨[], by rw [hf n hn, Worker.post_nil]⟩

theorem Move.posts {g lossy : Prop} {a b : Config Data Response} (hm : Move g lossy a b) : Posts a.1.workers b.1.workers := by
  cases hm with
  | book i f hf => exact posts_modifyNode_same _ i fun n hn => (hf n hn).worker
  | shift hn hq => exact posts_modifyNode_same _ _ fun _ _ => rfl
  | pop hn hq => exact posts_modifyNode_same _ _ fun _ _ => rfl
  | push hn hs => exact posts_modifyNode_same _ _ fun _ _ => rfl
  | @send p h i n t hn hg hs => exact posts_modifyNode _ _ fun m _ => ⟨[t], startTask_worker p t m⟩
  | fail hl => exact posts_modifyNode_same _ _ fun n _ => beforeTaskExecution_worker _ _ _ n
  | drop hl => exact .refl _

theorem Tidy.posts (h : Tidy s s') : Posts s.workers s'.workers := by
  obtain ⟨m, hm⟩ := h.work
  have hworkers : s'.workers = s.workers ++ List.replicate m ⟨[], []⟩ := by
    have hfst := congrArg (List.map Prod.fst) hm
    simpa [Pool.workers, List.map_map, Function.comp_def, WorkerNode.work] using hfst
  intro i
  refine ⟨[], ?_⟩
  rw [hworkers, Worker.post_nil, List.getD_eq_getElem?_getD, List.getD_eq_getElem?_getD, List.getElem?_append]
  split
  · rfl
  · rename_i hlt
    rw [List.getElem?_eq_none (not_lt.1 hlt), List.getElem?_replicate]
    split <;> rfl

theorem Flow.posts {a b : Config Data Response} (hf : Flow a b) : Posts a.1.workers b.1.workers := by
  refine RunLib.inv_of_chain (I := fun d => Posts a.1.workers d.1.workers) (fun d e hstep hd => ?_) hf (.refl _)
  rcases hstep with hm | ⟨ht, -⟩
  · exact hd.trans hm.posts
  · exact hd.trans ht.posts

theorem workers_settle (p : Pool Data Response) (taskId : Nat) (x : Settlement Response) :
    (p.settle taskId x).workers = p.workers := by
  unfold Pool.workers
  rw [Pool.settle_workerNodes]

/-- A pool whose sender of a response has been told that it has answered. -/
def Pool.taken (s : Pool Data Response) : Event Data Response → Pool Data Response
  | .message w (.taskResponse m) => s.modifyNode (s.getWorkerNodeKeyByWorkerId w) (·.answer m.taskId)
  | _ => s

/-- A response is taken note of by the node of its sender, whatever comes of it; then messages may be posted. -/
theorem taskResponse_posts (fuel w : Nat) (m : TaskResponse Response) :
    wp (handleMessage (callbacks fuel) fuel w (.taskResponse m))
      (fun _ s' => Posts (s.taken (.message w (.taskResponse m))).workers s'.workers)
      (fun _ s' => Posts (s.taken (.message w (.taskResponse m))).workers s'.workers) s := by
  rcases hn : s.workerNodes[s.getWorkerNodeKeyByWorkerId w]? with _ | n
  · refine wp_message_unknown hn fun _ => ?_
    rw [Pool.taken, Pool.modifyNode_of_none hn]
    exact .refl _
  · generalize hs₁ : s.taken (.message w (.taskResponse m)) = s₁
    have heq : handleMessage (callbacks fuel) fuel w (.taskResponse m) s =
        handleTaskExecutionResponse (callbacks fuel) m s₁ := by
      rw [handleMessage_taskResponse_eq hn, ← hs₁]
      rfl
    rw [wp_congr heq]
    rcases hl : s₁.promiseResponseMap.lookup m.taskId with _ | k
    · rw [wp_response_unknown hl]
      exact .refl _
    · rcases hk : s₁.workerNodes[k]? with _ | a
      · rw [wp_response_dangling hl hk, workers_settle]
        exact .refl _
      · rw [wp_response hl hk]
        have hanswered : Posts s₁.workers (s₁.answered m k).workers := by
          have hafter := posts_modifyNode_same (s₁.settle m.taskId m.settlement) k
            (f := (·.afterTaskExecution s₁.taskStatisticsRequirements m)) fun n _ => afterTaskExecution_worker _ _ n
          rw [workers_settle] at hafter
          exact hafter
        have hlt : k < (s₁.answered m k).workerNodes.length := by
          have hlen := Pool.lt_of_node hk
          simpa [Pool.answered] using hlen
        refine wp_mono (executeNextTask_moves (callbacks_move fuel) (Reached.refl (s₁.answered m k) 0) hlt)
          (fun _ s' hr => hanswered.trans (Flow.of_reached hr).posts) fun x s' hf => ?_
        obtain ⟨-, lost, hr⟩ := hf
        exact hanswered.trans (Flow.of_reached hr).posts

/-- What any other event does to the messages of the nodes of a pool. -/
theorem Effect.posts {r : Except JsError Unit} (h : Effect s e r s') (hexit : ∀ w, e ≠ .exit w)
    (hresponse : ∀ w m, e ≠ .message w (.taskResponse m)) : Posts s.workers s'.workers := by
  cases h with
  | flows hf => exact hf.posts
  | fails lost _ hf => exact hf.posts
  | @refused taskId name data choice x s₁ hf =>
    rw [workers_settle]
    exact hf.posts
  | called t k _ hf hf' => exact hf.posts.trans hf'.posts
  | callFails t k lost _ _ hf hf' _ =>
    rw [workers_settle]
    exact hf.posts.trans hf'.posts
  | answered k lost _ _ _ hf _ => exact absurd rfl (hresponse _ _)
  | unknownTask _ _ => exact absurd rfl (hresponse _ _)
  | dangling k _ _ _ => exact absurd rfl (hresponse _ _)
  | left hn => exact absurd rfl (hexit _)

theorem step_posts (h : Step s e s') (hexit : ∀ w, e ≠ .exit w) : Posts (s.taken e).workers s'.workers := by
  obtain ⟨-, fuel, now, r, hm⟩ := h
  by_cases hresponse : ∃ w m, e = .message w (.taskResponse m)
  · obtain ⟨w, m, rfl⟩ := hresponse
    have hw := wp_any (taskResponse_posts (s := { s with now }) fuel w m) hm
    exact hw
  · have hne (w : Nat) (m : TaskResponse Response) : e ≠ .message w (.taskResponse m) := fun he => hresponse ⟨w, m, he⟩
    have htaken : s.taken e = s := by
      unfold Pool.taken
      split
      · exact absurd rfl (hne _ _)
      · rfl
    rw [htaken]
    have hposts := (effect_of_handle hm).posts hexit hne
    exact hposts

end Posts

/-! ## Ids of workers -/

/-- The nodes of a pool, and those that have left it. -/
def Pool.everyNode (p : Pool Data Response) : List (WorkerNode Data) := p.workerNodes ++ p.removedNodes

/-- Each worker has an id of its own, and the next one is new. -/
structure Distinct (p : Pool Data Response) : Prop where
  ids : (p.everyNode.map (·.info.id)).Nodup
  below : ∀ n ∈ p.everyNode, n.info.id < p.nextWorkerId

/-- The ids that join with an event are the next ones. -/
structure Joins (o o' : Outline) : Prop where
  le : o.nextWorkerId ≤ o'.nextWorkerId
  ids : o'.nodes.map (·.id) = o.nodes.map (·.id) ++ List.range' o.nextWorkerId (o'.nextWorkerId - o.nextWorkerId)

section Distinct
variable {o o' : Outline} {s s' : Pool Data Response} {e : Event Data Response}

theorem joins_of_same (hnext : o'.nextWorkerId = o.nextWorkerId) (hids : o'.nodes.map (·.id) = o.nodes.map (·.id)) :
    Joins o o' := by
  refine ⟨hnext.ge, ?_⟩
  rw [hnext, hids, Nat.sub_self]
  exact (List.append_nil _).symm

theorem joins_newNodes (o : Outline) (j : Nat) :
    Joins o { o with nodes := o.nodes ++ o.newNodes j, nextWorkerId := o.nextWorkerId + j } := by
  refine ⟨Nat.le_add_right _ _, ?_⟩
  rw [Nat.add_sub_cancel_left, List.map_append]
  congr 1
  rw [Outline.newNodes, List.map_map, List.range'_eq_map_range]
  rfl

theorem joins_join (o : Outline) (dynamic : Bool) : Joins o (o.join dynamic) := by
  refine ⟨Nat.le_succ _, ?_⟩
  have hone : (o.join dynamic).nextWorkerId - o.nextWorkerId = 1 := Nat.add_sub_cancel_left _ _
  rw [hone, Outline.join, List.map_append]
  rfl

/-- Options come and go without nodes. -/
theorem setTasksQueueOptions_ids (a : TasksQueueOptionsArgument) (o : Outline) :
    (o.setTasksQueueOptions a).nextWorkerId = o.nextWorkerId ∧
      (o.setTasksQueueOptions a).nodes.map (·.id) = o.nodes.map (·.id) := by
  unfold Outline.setTasksQueueOptions
  split
  · split
    · exact ⟨rfl, rfl⟩
    · refine ⟨rfl, ?_⟩
      rw [List.map_map]
      rfl
  · exact ⟨rfl, rfl⟩

theorem unset_ids (o : Outline) : o.unset.nodes.map (·.id) = o.nodes.map (·.id) := by
  rw [Outline.unset, List.map_map]
  rfl

/-- Whatever the event, only its exit takes a node from a pool, and new nodes are the last ones. -/
theorem Outlined.joins (h : Outlined o e o') (hexit : ∀ w, e ≠ .exit w) : Joins o o' := by
  cases h with
  | execute => exact joins_of_same rfl rfl
  | executeJoins => exact joins_join _ _
  | message => exact joins_of_same rfl rfl
  | poll => exact joins_of_same rfl rfl
  | @error w =>
    rcases hf : o.nodes.find? (·.id = w) with _ | n
    · rw [Outline.error_none hf]
      exact joins_of_same rfl rfl
    · rw [Outline.error_some hf]
      split
      · exact joins_join _ _
      · exact joins_of_same rfl rfl
  | exit => exact absurd rfl (hexit _)
  | start =>
    unfold Outline.start
    split
    · have hjoins := joins_newNodes o (o.numberOfWorkers - o.statics)
      rw [Outline.fill, Outline.iterate_join]
      exact ⟨hjoins.le, hjoins.ids⟩
    · exact joins_of_same rfl rfl
  | @enableTasksQueue enable a =>
    obtain ⟨hnext, hids⟩ := setTasksQueueOptions_ids a
      { (if (o.opts.enableTasksQueue && !enable) = true then o.unset else o) with opts.enableTasksQueue := enable }
    refine joins_of_same (hnext.trans ?_) (hids.trans ?_)
    · show (if (o.opts.enableTasksQueue && !enable) = true then o.unset else o).nextWorkerId = _
      split <;> rfl
    · show (if (o.opts.enableTasksQueue && !enable) = true then o.unset else o).nodes.map (·.id) = _
      split
      · exact unset_ids o
      · rfl
  | flushThrows => exact joins_of_same rfl (unset_ids o)
  | setTasksQueueOptions => exact joins_of_same (setTasksQueueOptions_ids _ o).1 (setTasksQueueOptions_ids _ o).2
  | destroy => exact joins_of_same rfl rfl
  | destroyed => exact joins_of_same rfl rfl

/-- The pool `s'` after the exit of a worker: the node at the key of the worker has left, if there is one. -/
def Exited (w : Nat) (s s' : Pool Data Response) : Prop :=
  s' = s ∨ ∃ n, s.workerNodes[s.getWorkerNodeKeyByWorkerId w]? = some n ∧
    s' = s.removeNode (s.getWorkerNodeKeyByWorkerId w) n

theorem removeWorkerNode_exited (w : Nat) : EffLib.Within (Exited w) (removeWorkerNode w : PoolM Data Response Unit) := by
  intro s
  simp only [removeWorkerNode, wp_modify]
  rcases hn : s.workerNodes[s.getWorkerNodeKeyByWorkerId w]? with _ | n
  · exact .inl rfl
  · exact .inr ⟨n, hn, rfl⟩

/-- A node that leaves changes its place among all nodes. -/
theorem everyNode_removeNode {k : Nat} {n : WorkerNode Data} (hn : s.workerNodes[k]? = some n) :
    (s.removeNode k n).everyNode.Perm s.everyNode := by
  obtain ⟨hk, rfl⟩ := List.getElem?_eq_some_iff.1 hn
  have hperm := List.getElem_cons_eraseIdx_perm hk
  unfold Pool.everyNode Pool.removeNode
  calc s.workerNodes.eraseIdx k ++ (s.removedNodes ++ [s.workerNodes[k]])
      = s.workerNodes.eraseIdx k ++ s.removedNodes ++ [s.workerNodes[k]] := (List.append_assoc _ _ _).symm
    List.Perm _ (s.workerNodes[k] :: (s.workerNodes.eraseIdx k ++ s.removedNodes)) := List.perm_append_singleton _ _
    List.Perm _ (s.workerNodes ++ s.removedNodes) := hperm.append_right _

/-- An exit leaves every node where it is, or moves one to those that have left. -/
theorem step_exit {w : Nat} (h : Step s (.exit w) s') :
    s'.everyNode.Perm s.everyNode ∧ s'.nextWorkerId = s.nextWorkerId := by
  obtain ⟨-, fuel, now, r, hm⟩ := h
  rcases wp_any (removeWorkerNode_exited w { s with now }) hm with rfl | ⟨n, hn, rfl⟩
  · exact ⟨.refl _, rfl⟩
  · exact ⟨everyNode_removeNode (s := { s with now }) hn, rfl⟩

theorem Distinct.of_perm (h : Distinct s) (hperm : s'.everyNode.Perm s.everyNode) (hnext : s'.nextWorkerId = s.nextWorkerId) :
    Distinct s' := by
  refine ⟨(hperm.map (·.info.id)).nodup_iff.2 h.ids, fun n hn => ?_⟩
  rw [hnext]
  exact h.below n (hperm.mem_iff.1 hn)

theorem Distinct.of_joins (h : Distinct s) (hjoins : Joins s.outline s'.outline) (hleft : SameLeft s s') : Distinct s' := by
  have hnodes (p : Pool Data Response) : p.workerNodes.map (·.info.id) = p.outline.nodes.map (·.id) := by
    show _ = (p.workerNodes.map WorkerNode.outline).map (·.id)
    rw [List.map_map]
    rfl
  have hremoved : s'.removedNodes.map (·.info.id) = s.removedNodes.map (·.info.id) := by
    have hfst := congrArg (List.map Prod.fst) hleft
    rw [List.map_map, List.map_map] at hfst
    exact hfst
  have hids : s'.everyNode.map (·.info.id) = s.workerNodes.map (·.info.id) ++
      List.range' s.nextWorkerId (s'.nextWorkerId - s.nextWorkerId) ++ s.removedNodes.map (·.info.id) := by
    rw [Pool.everyNode, List.map_append, hremoved, hnodes, hnodes, hjoins.ids]
    rfl
  have hperm : (s'.everyNode.map (·.info.id)).Perm
      (s.everyNode.map (·.info.id) ++ List.range' s.nextWorkerId (s'.nextWorkerId - s.nextWorkerId)) := by
    rw [hids, Pool.everyNode, List.map_append, List.append_assoc, List.append_assoc]
    exact List.perm_append_comm.append_left _
  have hle : s.nextWorkerId ≤ s'.nextWorkerId := hjoins.le
  refine ⟨hperm.nodup_iff.2 (List.nodup_append'.2 ⟨h.ids, List.nodup_range', ?_⟩), fun n hn => ?_⟩
  · intro i hi hnew
    obtain ⟨n, hn, rfl⟩ := List.mem_map.1 hi
    have hbelow := h.below n hn
    rw [List.mem_range'_1] at hnew
    omega
  · have hi := hperm.mem_iff.1 (List.mem_map_of_mem hn)
    rcases List.mem_append.1 hi with hi | hi
    · obtain ⟨m, hm, hid⟩ := List.mem_map.1 hi
      have hbelow := h.below m hm
      omega
    · rw [List.mem_range'_1] at hi
      omega

theorem Distinct.step (h : Distinct s) (hstep : Step s e s') : Distinct s' := by
  by_cases hexit : ∃ w, e = .exit w
  · obtain ⟨w, rfl⟩ := hexit
    obtain ⟨hperm, hnext⟩ := step_exit hstep
    exact h.of_perm hperm hnext
  · have hne (w : Nat) : e ≠ .exit w := fun he => hexit ⟨w, he⟩
    exact h.of_joins ((step_outlined hstep).joins hne) (step_sameLeft hstep hne)

theorem distinct_of_fresh (h : Fresh s) : Distinct s := by
  refine ⟨?_, ?_⟩
  all_goals rw [Pool.everyNode, h.removedNodes, List.append_nil]
  · exact h.ids
  · exact h.idsBelow

end Distinct

/-! ## Records -/

/-- What the worker with an id has been posted, nothing if there is none. -/
def Pool.record (p : Pool Data Response) (w : Nat) : Worker Data :=
  (p.everyNode.find? (·.info.id = w)).elim ⟨[], []⟩ (·.worker)

section Record
variable {s s' : Pool Data Response} {e : Event Data Response} {n : WorkerNode Data} {w : Nat}

theorem record_of_mem (h : Distinct s) (hn : n ∈ s.everyNode) : s.record n.info.id = n.worker := by
  have hfind : s.everyNode.find? (·.info.id = n.info.id) = some n := by
    rcases hf : s.everyNode.find? (·.info.id = n.info.id) with _ | m
    · rw [List.find?_eq_none] at hf
      have hne := hf n hn
      simp at hne
    · have hid : m.info.id = n.info.id := by simpa using List.find?_some hf
      exact hf.trans (congrArg some (List.inj_on_of_nodup_map h.ids (List.mem_of_find?_eq_some hf) hn hid))
  unfold Pool.record
  rw [hfind]
  rfl

theorem record_of_forall_ne (h : ∀ n ∈ s.everyNode, n.info.id ≠ w) : s.record w = ⟨[], []⟩ := by
  have hfind : s.everyNode.find? (·.info.id = w) = none := by
    rw [List.find?_eq_none]
    intro n hn
    simpa using h n hn
  unfold Pool.record
  rw [hfind]
  rfl

/-- The messages of a worker are the messages of its node, if they are any. -/
theorem record_cases (p : Pool Data Response) (w : Nat) :
    p.record w = ⟨[], []⟩ ∨ ∃ n ∈ p.everyNode, n.info.id = w ∧ p.record w = n.worker := by
  unfold Pool.record
  rcases hf : p.everyNode.find? (·.info.id = w) with _ | n
  · left
    rw [hf]
    rfl
  · refine .inr ⟨n, List.mem_of_find?_eq_some hf, by simpa using List.find?_some hf, ?_⟩
    rw [hf]
    rfl

theorem record_of_perm (h : Distinct s) (h' : Distinct s') (hperm : s'.everyNode.Perm s.everyNode) (w : Nat) :
    s'.record w = s.record w := by
  by_cases hw : ∃ n ∈ s.everyNode, n.info.id = w
  · obtain ⟨n, hn, rfl⟩ := hw
    rw [record_of_mem h hn, record_of_mem h' (hperm.mem_iff.2 hn)]
  · have hnone : ∀ n ∈ s.everyNode, n.info.id ≠ w := fun n hn hid => hw ⟨n, hn, hid⟩
    rw [record_of_forall_ne hnone, record_of_forall_ne fun n hn => hnone n (hperm.mem_iff.1 hn)]

theorem taken_removedNodes (s : Pool Data Response) (e : Event Data Response) :
    (s.taken e).removedNodes = s.removedNodes := by
  unfold Pool.taken
  split <;> rfl

theorem taken_ids (s : Pool Data Response) (e : Event Data Response) :
    (s.taken e).workerNodes.map (·.info.id) = s.workerNodes.map (·.info.id) := by
  unfold Pool.taken
  split
  · exact map_modify_same fun _ _ => rfl
  · rfl

theorem taken_everyNode_ids (s : Pool Data Response) (e : Event Data Response) :
    (s.taken e).everyNode.map (·.info.id) = s.everyNode.map (·.info.id) := by
  rw [Pool.everyNode, Pool.everyNode, List.map_append, List.map_append, taken_ids, taken_removedNodes]

theorem Distinct.taken (h : Distinct s) (e : Event Data Response) : Distinct (s.taken e) := by
  have hids := taken_everyNode_ids s e
  have hnext : (s.taken e).nextWorkerId = s.nextWorkerId := by
    unfold Pool.taken
    split <;> rfl
  refine ⟨hids ▸ h.ids, fun n hn => ?_⟩
  have hmem : n.info.id ∈ s.everyNode.map (·.info.id) := hids ▸ List.mem_map_of_mem hn
  obtain ⟨m, hm, hid⟩ := List.mem_map.1 hmem
  rw [hnext, ← hid]
  exact h.below m hm

theorem record_of_id (h : Distinct s) {i : Nat} (hn : s.workerNodes[i]? = some n) (hw : n.info.id = w) :
    s.record w = s.workers.getD i ⟨[], []⟩ := by
  rw [← hw, record_of_mem h (List.mem_append_left _ (List.mem_of_getElem? hn)), workers_getD, hn]
  rfl

/-- An event adds messages at the end of the records, once a response has been taken note of. -/
theorem record_of_step (h : Distinct s) (hstep : Step s e s') (w : Nat) :
    ∃ new, s'.record w = ((s.taken e).record w).post new := by
  by_cases hexit : ∃ w, e = .exit w
  · obtain ⟨w', rfl⟩ := hexit
    refine ⟨[], ?_⟩
    rw [Worker.post_nil]
    exact record_of_perm h (h.step hstep) (step_exit hstep).1 w
  · have hne (w : Nat) : e ≠ .exit w := fun he => hexit ⟨w, he⟩
    have h' := h.step hstep
    have ht := h.taken e
    have hleft := step_sameLeft hstep hne
    have hids : s'.workerNodes.map (·.info.id) =
        (s.taken e).workerNodes.map (·.info.id) ++ List.range' s.nextWorkerId (s'.nextWorkerId - s.nextWorkerId) := by
      have hjoins := ((step_outlined hstep).joins hne).ids
      rw [taken_ids]
      simpa [Pool.outline, List.map_map, Function.comp_def, WorkerNode.outline] using hjoins
    by_cases hw : ∃ n ∈ s'.everyNode, n.info.id = w
    · obtain ⟨n, hn, hid⟩ := hw
      rcases List.mem_append.1 hn with hn | hn
      · obtain ⟨i, hi⟩ := List.getElem?_of_mem hn
        obtain ⟨new, hnew⟩ := step_posts hstep hne i
        refine ⟨new, ?_⟩
        rw [record_of_id h' hi hid, hnew]
        congr 1
        have hget : ((s.taken e).workerNodes.map (·.info.id) ++
            List.range' s.nextWorkerId (s'.nextWorkerId - s.nextWorkerId))[i]? = some w := by
          rw [← hids, List.getElem?_map, hi, ← hid]
          rfl
        rcases hi₀ : (s.taken e).workerNodes[i]? with _ | n₀
        · -- The node has joined.
          rw [List.getElem?_append_right (by simpa using hi₀)] at hget
          have hnew := List.mem_of_getElem? hget
          rw [List.mem_range'_1] at hnew
          rw [workers_getD, hi₀, record_of_forall_ne]
          · rfl
          · intro m hm hmw
            have hmem : m.info.id ∈ s.everyNode.map (·.info.id) := taken_everyNode_ids s e ▸ List.mem_map_of_mem hm
            obtain ⟨m₀, hm₀, hid₀⟩ := List.mem_map.1 hmem
            have hbelow := h.below m₀ hm₀
            omega
        · have hlt := (List.getElem?_eq_some_iff.1 hi₀).1
          rw [List.getElem?_append_left (by simpa using hlt), List.getElem?_map, hi₀] at hget
          rw [record_of_id ht hi₀ (Option.some.inj hget)]
      · refine ⟨[], ?_⟩
        have hmem : (n.info.id, n.worker) ∈ s.removedNodes.map fun n => (n.info.id, n.worker) :=
          hleft ▸ List.mem_map_of_mem (f := fun n : WorkerNode Data => (n.info.id, n.worker)) hn
        obtain ⟨m, hm, hpair⟩ := List.mem_map.1 hmem
        obtain ⟨hmid, hmw⟩ := Prod.mk.inj hpair
        have hold : m ∈ (s.taken e).everyNode := by
          rw [Pool.everyNode, taken_removedNodes]
          exact List.mem_append_right _ hm
        rw [Worker.post_nil, ← hid, record_of_mem h' (List.mem_append_right _ hn), ← hmid, record_of_mem ht hold, hmw]
    · refine ⟨[], ?_⟩
      have hnone : ∀ n ∈ s'.everyNode, n.info.id ≠ w := fun n hn hid => hw ⟨n, hn, hid⟩
      rw [Worker.post_nil, record_of_forall_ne hnone, record_of_forall_ne]
      intro m hm hmw
      rcases List.mem_append.1 hm with hm | hm
      · have hmem : w ∈ s'.workerNodes.map (·.info.id) := by
          rw [hids, ← hmw]
          exact List.mem_append_left _ (List.mem_map_of_mem hm)
        obtain ⟨n, hn, hid⟩ := List.mem_map.1 hmem
        exact hnone n (List.mem_append_left _ hn) hid
      · rw [taken_removedNodes] at hm
        have hmem : (m.info.id, m.worker) ∈ s'.removedNodes.map fun n => (n.info.id, n.worker) :=
          hleft ▸ List.mem_map_of_mem (f := fun n : WorkerNode Data => (n.info.id, n.worker)) hm
        obtain ⟨n, hn, hpair⟩ := List.mem_map.1 hmem
        exact hnone n (List.mem_append_right _ hn) ((Prod.mk.inj hpair).1.trans hmw)

/-- A response is taken off the unanswered messages of its sender. -/
theorem record_taken_self (h : Distinct s) (hn : s.workerNodes[s.getWorkerNodeKeyByWorkerId w]? = some n)
    (m : TaskResponse Response) : (s.taken (.message w (.taskResponse m))).record w =
      ⟨(s.record w).received, (s.record w).unanswered.eraseP (·.taskId = m.taskId)⟩ := by
  have ht := h.taken (.message w (.taskResponse m))
  have hid : n.info.id = w := Pool.id_of_key hn
  have hafter : (s.taken (.message w (.taskResponse m))).workerNodes[s.getWorkerNodeKeyByWorkerId w]? =
      some (n.answer m.taskId) := by
    rw [Pool.taken, Pool.getElem?_modifyNode, hn]
    simp
  rw [record_of_id ht hafter hid, record_of_id h hn hid, workers_getD, workers_getD, hafter, hn]
  rfl

/-- Taking note of a response leaves the messages posted, and takes none off the unanswered ones of other workers. -/
theorem record_taken (h : Distinct s) (e : Event Data Response) (w : Nat) :
    (s.taken e).record w = s.record w ∨ ∃ m : TaskResponse Response, e = .message w (.taskResponse m) ∧
      (s.taken e).record w = ⟨(s.record w).received, (s.record w).unanswered.eraseP (·.taskId = m.taskId)⟩ := by
  by_cases hresponse : ∃ w' m, e = .message w' (.taskResponse m)
  · obtain ⟨w', m, rfl⟩ := hresponse
    rcases hn : s.workerNodes[s.getWorkerNodeKeyByWorkerId w']? with _ | n
    · left
      rw [Pool.taken, Pool.modifyNode_of_none hn]
    · have ht := h.taken (.message w' (.taskResponse m))
      have hid : n.info.id = w' := Pool.id_of_key hn
      by_cases hw : w' = w
      · subst hw
        exact .inr ⟨m, rfl, record_taken_self h hn m⟩
      · left
        by_cases hof : ∃ a ∈ s.everyNode, a.info.id = w
        · obtain ⟨a, ha, haw⟩ := hof
          have hsame : a ∈ (s.taken (.message w' (.taskResponse m))).everyNode := by
            rcases List.mem_append.1 ha with ha | ha
            · obtain ⟨i, hi⟩ := List.getElem?_of_mem ha
              have hne : s.getWorkerNodeKeyByWorkerId w' ≠ i := by
                rintro rfl
                exact hw (hid.symm.trans (Option.some.inj (hn.symm.trans hi) ▸ haw))
              refine List.mem_append_left _ (List.mem_of_getElem? (i := i) ?_)
              rw [Pool.taken, Pool.getElem?_modifyNode, hi, Option.map_some, if_neg hne]
            · exact List.mem_append_right _ ha
          rw [← haw, record_of_mem h ha, record_of_mem ht hsame]
        · have hnone : ∀ a ∈ s.everyNode, a.info.id ≠ w := fun a ha haw => hof ⟨a, ha, haw⟩
          rw [record_of_forall_ne hnone, record_of_forall_ne]
          intro a ha haw
          have hmem : w ∈ s.everyNode.map (·.info.id) := by
            rw [← taken_everyNode_ids s (.message w' (.taskResponse m)), ← haw]
            exact List.mem_map_of_mem ha
          obtain ⟨b, hb, hbw⟩ := List.mem_map.1 hmem
          exact hnone b hb hbw
  · left
    unfold Pool.taken
    split
    · exact absurd ⟨_, _, rfl⟩ hresponse
    · rfl

/-- No task message is taken back from the record of a worker. -/
theorem received_grows (h : Distinct s) (hstep : Step s e s') (w : Nat) : (s.record w).received <+: (s'.record w).received := by
  obtain ⟨new, hnew⟩ := record_of_step h hstep w
  have hreceived : ((s.taken e).record w).received = (s.record w).received := by
    rcases record_taken h e w with heq | ⟨m, -, heq⟩ <;> rw [heq]
  rw [hnew, Worker.post, hreceived]
  exact List.prefix_append _ _

/-- What has not been answered has been posted, in this order. -/
theorem unanswered_sublist {s₀ : Pool Data Response} {es : List (Event Data Response)} (h₀ : Fresh s₀)
    (hr : Run Step s₀ es s) (w : Nat) : (s.record w).unanswered.Sublist (s.record w).received := by
  have hinv := hr.inv (fun s => Distinct s ∧ ∀ w, (s.record w).unanswered.Sublist (s.record w).received)
    ⟨distinct_of_fresh h₀, fun w => ?_⟩ fun s e s' h hstep => ?_
  · exact hinv.2 w
  · rcases record_cases s₀ w with hw | ⟨n, hn, -, hw⟩
    · rw [hw]
    · rw [Pool.everyNode, h₀.removedNodes, List.append_nil] at hn
      rw [hw, (h₀.nodes n hn).worker]
  · refine ⟨h.1.step hstep, fun w => ?_⟩
    obtain ⟨new, hnew⟩ := record_of_step h.1 hstep w
    have htaken : ((s.taken e).record w).unanswered.Sublist ((s.taken e).record w).received := by
      rcases record_taken h.1 e w with heq | ⟨m, -, heq⟩
      · rw [heq]
        exact h.2 w
      · rw [heq]
        exact (List.eraseP_sublist).trans (h.2 w)
    rw [hnew]
    exact htaken.append (List.Sublist.refl new)

end Record

end Poolifier
