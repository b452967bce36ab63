import Poolifier.ChosenKeys
import Poolifier.PoolSize
import Poolifier.StrategyChanges
/-!
# Runs of a pool that chooses by its strategies

A pool has nodes once it has started, or may create one; its active strategy
fits them, whatever strategy a call has made active. Both hold along every run in
which no worker leaves that would put a cursor out of range. So a run is one of
`Events.lean` between two calls that change the strategy, and each choice of
`execute` names a node.
-/

namespace Poolifier

open EffLib RunLib StrategyPool

variable {Data Response : Type}

/-! ## Nodes to choose from -/

/-- The pool may create a node when it has none. -/
def Outline.Expandable (o : Outline) : Prop := o.type = .dynamic ∧ 0 < o.maxSize

/-- A pool that has started has nodes, or may create one. -/
structure Outline.Manned (o : Outline) : Prop where
  started : o.started = true → o.nodes ≠ [] ∨ o.Expandable
  room : 0 < o.numberOfWorkers ∨ o.Expandable

section Manned
variable {o o' : Outline} {e : Event Data Response}

theorem Outline.statics_le_length (o : Outline) : o.statics ≤ o.nodes.length := List.countP_le_length

theorem Outline.length_fill (o : Outline) : o.fill.nodes.length = o.nodes.length + (o.numberOfWorkers - o.statics) := by
  rw [fill, length_iterate_join]

/-- Nodes leave a pool with their workers only. -/
theorem Outlined.length_le (h : Outlined o e o') (he : ∀ w, e ≠ .exit w) : o.nodes.length ≤ o'.nodes.length := by
  cases h with
  | execute => exact le_rfl
  | executeJoins => exact (List.length_append ..).symm ▸ Nat.le_add_right _ _
  | message => exact le_rfl
  | poll => exact le_rfl
  | @error w =>
    rcases hf : o.nodes.find? (·.id = w) with _ | n
    · rw [Outline.error_none hf]
    · rw [Outline.error_some hf]
      split
      · exact (List.length_append ..).symm ▸ Nat.le_add_right _ _
      · exact le_rfl
  | exit => exact absurd rfl (he _)
  | start =>
    unfold Outline.start
    split
    · exact o.length_fill.symm ▸ Nat.le_add_right _ _
    · exact le_rfl
  | @enableTasksQueue enable a => exact (o.length_enableTasksQueue enable a).1.ge
  | flushThrows => exact (List.length_map _).ge
  | @setTasksQueueOptions a => exact (o.length_setTasksQueueOptions a).1.ge
  | destroy => exact le_rfl
  | destroyed => exact le_rfl

/-- What a pool is made with is the same, and it is started if it was. -/
structure Outline.Same (o o' : Outline) : Prop where
  type : o'.type = o.type
  numberOfWorkers : o'.numberOfWorkers = o.numberOfWorkers
  max : o'.max = o.max
  started : o'.started = o.started

theorem Outline.same_error (o : Outline) (w : Nat) : o.Same (o.error w) := by
  rcases hf : o.nodes.find? (·.id = w) with _ | n
  · rw [error_none hf]
    exact ⟨rfl, rfl, rfl, rfl⟩
  · rw [error_some hf]
    split <;> exact ⟨rfl, rfl, rfl, rfl⟩

theorem Outline.same_setTasksQueueOptions (o : Outline) (a : TasksQueueOptionsArgument) :
    o.Same (o.setTasksQueueOptions a) := by
  unfold setTasksQueueOptions
  split
  · split <;> exact ⟨rfl, rfl, rfl, rfl⟩
  · exact ⟨rfl, rfl, rfl, rfl⟩

theorem Outline.same_enableTasksQueue (o : Outline) (enable : Bool) (a : TasksQueueOptionsArgument) :
    o.Same (o.enableTasksQueue enable a) := by
  unfold enableTasksQueue
  split
  · obtain ⟨h1, h2, h3, h4⟩ := same_setTasksQueueOptions { o.unset with opts.enableTasksQueue := enable } a
    exact ⟨h1, h2, h3, h4⟩
  · obtain ⟨h1, h2, h3, h4⟩ := same_setTasksQueueOptions { o with opts.enableTasksQueue := enable } a
    exact ⟨h1, h2, h3, h4⟩

/-- A start that succeeds brings the workers. -/
theorem Outline.length_start {o : Outline} (h : o.start.started = true) :
    o.started = true ∨ o.numberOfWorkers ≤ o.start.nodes.length := by
  unfold start at h ⊢
  by_cases hc : o.numberOfWorkers ≤ o.statics ∨ o.CanCreate
  · rw [if_pos hc]
    have hlen := o.length_fill
    have hle := o.statics_le_length
    refine .inr ?_
    show o.numberOfWorkers ≤ o.fill.nodes.length
    omega
  · rw [if_neg hc] at h
    exact .inl h

/-- What a pool is made with does not change; a pool that is started has been so, or has just got its workers. -/
theorem Outlined.sizes (h : Outlined o e o') : o.Same { o' with started := o.started } ∧
    (o'.started = true → o.started = true ∨ o.numberOfWorkers ≤ o'.nodes.length) := by
  have hsame (h : o.Same o') : o.Same { o' with started := o.started } ∧
      (o'.started = true → o.started = true ∨ o.numberOfWorkers ≤ o'.nodes.length) :=
    ⟨⟨h.type, h.numberOfWorkers, h.max, rfl⟩, fun hst => .inl (h.started ▸ hst)⟩
  cases h with
  | error => exact hsame (o.same_error _)
  | start =>
    refine ⟨?_, Outline.length_start⟩
    rw [Outline.start_rest]
    exact ⟨rfl, rfl, rfl, rfl⟩
  | enableTasksQueue => exact hsame (o.same_enableTasksQueue _ _)
  | setTasksQueueOptions => exact hsame (o.same_setTasksQueueOptions _)
  | destroyed => exact ⟨⟨rfl, rfl, rfl, rfl⟩, nofun⟩
  | _ => exact hsame ⟨rfl, rfl, rfl, rfl⟩

theorem Outlined.manned (h : Outlined o e o') (hm : o.Manned) (hne : o.nodes ≠ [] → o'.nodes ≠ []) : o'.Manned := by
  obtain ⟨⟨htype, hnumber, hmax, -⟩, hstarted⟩ := h.sizes
  dsimp only at htype hnumber hmax
  have hexp : o'.Expandable ↔ o.Expandable := by
    unfold Outline.Expandable Outline.maxSize
    rw [htype, hnumber, hmax]
  refine ⟨fun hst => ?_, ?_⟩
  · rw [hexp]
    rcases hstarted hst with hst | hle
    · exact (hm.started hst).imp_left hne
    · refine hm.room.imp_left fun hpos => ?_
      rw [← List.length_pos_iff]
      exact hpos.trans_le hle
  · rw [hexp, hnumber]
    exact hm.room

end Manned

theorem type_createdOutline (c : PoolConfig Data) (startWorkers : Bool) : (createdOutline c startWorkers).type = c.type := by
  cases startWorkers with
  | true =>
    rw [createdOutline, if_pos rfl, Outline.start_rest]
    rfl
  | false => rfl

theorem manned_of_created {c : PoolConfig Data} {startWorkers : Bool} {p : Pool Data Response} (h : Created c startWorkers p) :
    p.outline.Manned := by
  obtain ⟨hnumber, -, hdynamic, hout⟩ := created_outline h
  obtain ⟨hn, hle⟩ := numberOfWorkers_le_maxSize startWorkers hdynamic
  have hroom : 0 < c.numberOfWorkers ∨ (createdOutline c startWorkers).Expandable := by
    rcases ht : c.type with _ | _
    · refine .inl (Nat.pos_of_ne_zero fun hzero => ?_)
      rw [checkNumberOfWorkers, if_neg (by omega), if_pos ⟨ht, hzero⟩] at hnumber
      cases hnumber
    · obtain ⟨m, hm, hlt, -⟩ := checkDynamicPoolSize_ok (hdynamic ht)
      refine .inr ⟨(type_createdOutline c startWorkers).trans ht, ?_⟩
      show 0 < (if c.type = .dynamic then c.max else none).getD _
      rw [if_pos ht, hm]
      exact Nat.zero_lt_of_lt hlt
  rw [hout]
  refine ⟨fun hst => ?_, hn ▸ hroom⟩
  cases startWorkers with
  | true =>
    refine hroom.imp_left fun hpos => ?_
    have hstart : (initialOutline c).start.started = true := hst
    have hlen := (Outline.length_start hstart).resolve_left Bool.false_ne_true
    rw [← List.length_pos_iff]
    exact hpos.trans_le hlen
  | false => cases hst

@[simp] theorem outline_forget (p : Pool Data Response) : p.forget.outline = p.outline := by
  unfold Pool.outline
  rw [Pool.forget_workerNodes, List.map_map]
  rfl

/-- A pool that is started has a node to choose, or creates one. -/
theorem Outline.Manned.choosable {p : Pool Data Response} (h : p.outline.Manned) (hst : p.started = true) :
    p.workerNodes ≠ [] ∨ p.shallCreateDynamicWorker = true := by
  by_cases hnil : p.workerNodes = []
  · have hnodes : p.outline.nodes = [] := List.map_eq_nil_iff.2 hnil
    obtain ⟨htype, hmax⟩ := (h.started hst).resolve_left fun hne => hne hnodes
    have hdynamic : p.type = .dynamic := htype
    have hsize : 0 < p.maxSize := hmax
    refine .inr ?_
    simp [Pool.shallCreateDynamicWorker, Pool.full, Pool.internalBusy, hnil, hdynamic, hsize.ne']
  · exact .inl hnil

namespace Choosing

section Events
variable {x x' : StrategyPool Data Response} {clock : Nat → ℚ} {fuel : Nat} {r : Except JsError Unit}

/-! ## Code that leaves the strategies alone -/

/-- The context is the same. -/
def SameContext (x x' : StrategyPool Data Response) : Prop := x'.context = x.context

instance : IsPreorder (StrategyPool Data Response) SameContext where
  refl _ := rfl
  trans _ _ _ h h' := Eq.trans h' h

theorem within_onPool {α : Type} (m : PoolM Data Response α) : EffLib.Within SameContext (onPool m) := by
  intro x
  have hends (r : Except JsError α) (x' : StrategyPool Data Response) (h : onPool m x = some (r, x')) : SameContext x x' := by
    obtain ⟨p, -, rfl⟩ := zoom_ends h
    rfl
  intro r x' h
  cases r with
  | ok a => exact hends _ x' h
  | error e => exact hends _ x' h

theorem within_updateContext (k : Nat) : EffLib.Within SameContext (updateContext clock k : StrategyM Data Response Unit) := by
  refine within_get.bind fun x => ?_
  generalize x.context.active.map (·.update (clock 0) k x.pool) = updated
  rcases updated with _ | _ | p
  · exact within_throw _
  · exact within_throw _
  · exact within_modify fun _ => rfl

theorem within_handleResponse (cb : Callbacks Data Response) (w : Nat) (m : TaskResponse Response) :
    EffLib.Within SameContext (handleResponse cb clock w m) := by
  refine within_get.bind fun x => ?_
  dsimp only
  rcases x.pool.workerNodes[x.pool.getWorkerNodeKeyByWorkerId w]? with _ | n
  · exact within_throw _
  · refine (within_onPool _).bind fun _ => within_get.bind fun x => ?_
    rcases x.pool.promiseResponseMap.lookup m.taskId with _ | k
    · exact within_pure ()
    · refine (within_onPool _).bind fun _ => (within_onPool _).bind fun _ => ?_
      exact (within_updateContext k).bind fun _ => within_onPool _

/-! ## Calls of `execute` -/

/-- The strategies choose for a call of `execute` as a choice of `Events.lean` does, which names a node. -/
theorem executeExecutor_spec (hfit : Fit x) (hm : x.pool.outline.Manned) {taskId : Nat} {name : Option String} {data : Data}
    (h : executeExecutor (callbacks fuel) taskId name data clock x = some (r, x')) : Fit x' ∧ ∃ choice,
      Names x'.pool.workerNodes.length choice ∧
        Poolifier.executeExecutor (callbacks fuel) taskId name data choice (seen x) = some (r, seen x') := by
  unfold executeExecutor at h
  rw [get_bind] at h
  unfold Poolifier.executeExecutor
  simp only [get_bind]
  have hstarted : (seen x).started = x.pool.started := rfl
  have hnow : (seen x).now = x.pool.now := rfl
  rw [hstarted, hnow]
  by_cases hst : x.pool.started = true
  · have hns : ¬ (!x.pool.started) = true := by simp [hst]
    rw [if_neg hns] at h
    simp only [if_neg hns]
    by_cases hname : name.any isBlank = true
    · rw [if_pos hname] at h
      simp only [if_pos hname]
      cases h
      exact ⟨hfit, .none 0, trivial, rfl⟩
    · rw [if_neg hname] at h
      simp only [if_neg hname]
      rcases bind_ends h with ⟨k, x₁, hchoose, hrest⟩ | ⟨e, hchoose, rfl⟩
      · obtain ⟨hfit₁, -, -, choice, hnames, habstract⟩ := chooseWorkerNode_spec hfit (hm.choosable hst) hchoose
        let task : Task Data := ⟨name.getD defaultTaskName, data, x.pool.now, taskId⟩
        have hinsert : Ignores (Eff.modify fun p => { p with promiseResponseMap := p.promiseResponseMap.insert taskId k } :
            PoolM Data Response Unit) := projects_modify fun _ => rfl
        have hdispatch : Ignores (dispatchTask (callbacks fuel) k task : PoolM Data Response Unit) :=
          ignores_dispatchTask (ignoring_callbacks fuel) k task
        have hrest' := (projects_onPool (hinsert.bind fun _ => hdispatch)).ends hrest
        obtain ⟨p, hp, rfl⟩ := zoom_ends hrest
        have hsame : SameOutline x₁.pool p := by
          rw [modify_bind] at hp
          have hout := wp_any (covers_sameOutline.dispatchTask (callbacks_move fuel) k task _) hp
          exact hout
        have hlen : p.workerNodes.length = x₁.pool.workerNodes.length := by
          have hnodes := congrArg (fun o : Outline => o.nodes.length) hsame
          simpa [Pool.outline] using hnodes
        refine ⟨hfit₁.of_le rfl hlen.ge, choice, ?_, ?_⟩
        · show Names p.workerNodes.length choice
          rw [hlen]
          exact hnames
        · rw [bind_ok habstract]
          exact hrest'
      · obtain ⟨hfit₁, -, -, choice, hnames, habstract⟩ := chooseWorkerNode_spec hfit (hm.choosable hst) hchoose
        exact ⟨hfit₁, choice, hnames, bind_error habstract _⟩
  · have hns : (!x.pool.started) = true := by simpa using hst
    rw [if_pos hns] at h
    simp only [if_pos hns]
    cases h
    exact ⟨hfit, .none 0, trivial, rfl⟩

theorem rejectOnThrow_ends {i : Nat} {m : StrategyM Data Response Unit} (h : rejectOnThrow i m x = some (r, x')) :
    ∃ x₁, m x = some (r, x₁) ∧ x'.context = x₁.context ∧ x'.pool.workerNodes = x₁.pool.workerNodes ∧
      ∀ m' : PoolM Data Response Unit, m' (seen x) = some (r, seen x₁) →
        Poolifier.rejectOnThrow i m' (seen x) = some (r, seen x') := by
  unfold rejectOnThrow at h
  rcases hm : m x with _ | ⟨e | a, x₁⟩
  · rw [hm] at h
    cases h
  · rw [hm] at h
    cases h
    refine ⟨x₁, rfl, rfl, Pool.settle_workerNodes .., fun m' hm' => ?_⟩
    unfold Poolifier.rejectOnThrow
    rw [hm']
    show some (Except.error e, (seen x₁).settle i (.thrown e)) = some (Except.error e, (x₁.pool.settle i (.thrown e)).forget)
    rw [Pool.forget_settle]
  · rw [hm] at h
    cases h
    refine ⟨x', rfl, rfl, rfl, fun m' hm' => ?_⟩
    unfold Poolifier.rejectOnThrow
    rw [hm']

theorem execute_spec (hfit : Fit x) (hm : x.pool.outline.Manned) {taskId : Nat} {name : Option String} {data : Data}
    (h : execute (callbacks fuel) taskId name data clock x = some (r, x')) : Fit x' ∧ ∃ choice,
      Names x'.pool.workerNodes.length choice ∧
        Poolifier.execute (callbacks fuel) taskId name data choice (seen x) = some (r, seen x') := by
  let x₀ : StrategyPool Data Response := { x with pool := { x.pool with uuids := taskId :: x.pool.uuids } }
  have hcall : rejectOnThrow taskId (executeExecutor (callbacks fuel) taskId name data clock) x₀ = some (r, x') := h
  obtain ⟨x₁, hx₁, hcontext, hnodes, hreject⟩ := rejectOnThrow_ends hcall
  obtain ⟨hfit₁, choice, hnames, habstract⟩ := executeExecutor_spec (x := x₀) hfit hm hx₁
  have hlen : x'.pool.workerNodes.length = x₁.pool.workerNodes.length := congrArg List.length hnodes
  refine ⟨hfit₁.of_le hcontext hlen.ge, choice, hlen ▸ hnames, ?_⟩
  exact hreject _ habstract

/-! ## Workers that leave -/

/-- Whether a node leaves the cursor of the active strategy in range: it is not the only one, and not one before a
cursor at the last one. -/
def LeavesRange (x : StrategyPool Data Response) (k : Nat) : Prop :=
  k < x.pool.workerNodes.length → 2 ≤ x.pool.workerNodes.length ∧ ∀ s ∈ x.context.active, s.Spares x.pool k

theorem removeWorkerNode_unknown {p : Pool Data Response} {w : Nat} (hn : p.workerNodes[p.getWorkerNodeKeyByWorkerId w]? = none) :
    Poolifier.removeWorkerNode w p = some (.ok (), p) := by
  simp only [Poolifier.removeWorkerNode, Eff.modify, hn]

theorem removeWorkerNode_known {p : Pool Data Response} {w : Nat} {n : WorkerNode Data}
    (hn : p.workerNodes[p.getWorkerNodeKeyByWorkerId w]? = some n) :
    Poolifier.removeWorkerNode w p = some (.ok (), { p with
      workerNodes := p.workerNodes.eraseIdx (p.getWorkerNodeKeyByWorkerId w)
      removedNodes := p.removedNodes ++ [n] }) := by
  simp only [Poolifier.removeWorkerNode, Eff.modify, hn]

theorem onPool_ends {α : Type} {m : PoolM Data Response α} {r : Except JsError α} {p : Pool Data Response}
    (h : m x.pool = some (r, p)) : onPool m x = some (r, { x with pool := p }) := by
  unfold onPool Eff.zoom
  rw [h]
  rfl

theorem removeWorkerNode_spec (hfit : Fit x) {w : Nat} (hleaves : LeavesRange x (x.pool.getWorkerNodeKeyByWorkerId w))
    (h : removeWorkerNode w x = some (r, x')) :
    Fit x' ∧ (x.pool.workerNodes ≠ [] → x'.pool.workerNodes ≠ []) ∧
      Poolifier.removeWorkerNode w (seen x) = some (r, seen x') := by
  have habstract {p : Pool Data Response} (hp : Poolifier.removeWorkerNode w x.pool = some (.ok (), p)) :
      Poolifier.removeWorkerNode w (seen x) = some (.ok (), p.forget) := (ignores_removeWorkerNode w).ends hp
  unfold removeWorkerNode at h
  rw [get_bind] at h
  rcases hn : x.pool.workerNodes[x.pool.getWorkerNodeKeyByWorkerId w]? with _ | n
  · have hrun := removeWorkerNode_unknown hn
    have hno : ¬ x.pool.getWorkerNodeKeyByWorkerId w < x.pool.workerNodes.length := by
      rw [List.getElem?_eq_none_iff] at hn
      omega
    rw [bind_ok (onPool_ends hrun), if_neg hno] at h
    cases h
    exact ⟨hfit, id, habstract hrun⟩
  · have hrun := removeWorkerNode_known hn
    generalize x.pool.getWorkerNodeKeyByWorkerId w = k at h hn hrun hleaves
    have hlt : k < x.pool.workerNodes.length := Pool.lt_of_node hn
    obtain ⟨htwo, hspares⟩ := hleaves hlt
    have hlen : (x.pool.workerNodes.eraseIdx k).length = x.pool.workerNodes.length - 1 := List.length_eraseIdx_of_lt hlt
    obtain ⟨s, hs, hfits⟩ := hfit
    rw [bind_ok (onPool_ends hrun), if_pos hlt] at h
    unfold removeFromContext at h
    rw [get_bind, hs] at h
    cases h
    let p : Pool Data Response :=
      { x.pool with workerNodes := x.pool.workerNodes.eraseIdx k, removedNodes := x.pool.removedNodes ++ [n] }
    refine ⟨⟨s.remove p k, ?_, ?_⟩, fun _ => ?_, habstract hrun⟩
    · refine StrategyContext.active_put ?_
      rw [Strategy.remove_name]
      exact StrategyContext.workerChoiceStrategy_of_active hs
    · have hremoved := Strategy.remove_fits hfits hlt htwo (hspares s hs) (x.pool.removedNodes ++ [n])
      rw [← hlen] at hremoved
      exact hremoved
    · rw [← List.length_pos_iff]
      show 0 < (x.pool.workerNodes.eraseIdx k).length
      omega

/-! ## Calls that change the strategy -/

/-- A strategy that has been reset fits every pool. -/
theorem fits_switch (s : WorkerChoiceStrategy) (n : Nat) (x : StrategyPool Data Response) :
    (x.switch (some s)).context.Fits n := by
  have hzero : ∃ c : Int, some 0 = some c ∧ 0 ≤ c ∧ (c < n ∨ c = 0) := ⟨0, rfl, le_rfl, .inr rfl⟩
  cases s with
  | roundRobin => exact ⟨_, rfl, hzero⟩
  | weightedRoundRobin => exact ⟨_, rfl, hzero⟩
  | interleavedWeightedRoundRobin => exact ⟨_, rfl, hzero⟩
  | _ => exact ⟨_, rfl, trivial⟩

/-- Options do not move a cursor. -/
theorem fits_setOptions {c : StrategyContext} {n : Nat} (h : c.Fits n) (opts : WorkerChoiceStrategyOptions) :
    (c.setOptions opts).Fits n := by
  obtain ⟨s, hs, hfits⟩ := h
  obtain ⟨name, hname, rfl⟩ := Option.map_eq_some_iff.1 hs
  unfold StrategyContext.Fits StrategyContext.active
  have hsame : (c.setOptions opts).workerChoiceStrategy = some name := hname
  rw [hsame]
  cases name with
  | roundRobin => exact ⟨_, rfl, hfits⟩
  | weightedRoundRobin => exact ⟨_, rfl, hfits⟩
  | interleavedWeightedRoundRobin => exact ⟨_, rfl, hfits⟩
  | _ => exact ⟨_, rfl, trivial⟩

theorem within_resetWorkerNode (k : Nat) : EffLib.Within SameContext (resetWorkerNode k : StrategyM Data Response Unit) := by
  refine Within.bind (within_modify fun _ => rfl) fun _ => within_get.bind fun x => ?_
  split
  · split
    · exact within_modify fun _ => rfl
    · exact within_throw _
  · exact within_throw _

theorem setWorkerChoiceStrategyOptions_fits {n : Nat} (h : x.context.Fits n) (o : StrategyOptionsArgument) :
    wp (StrategyPool.setWorkerChoiceStrategyOptions o) (fun _ x' => x'.context.Fits n) (fun _ x' => x'.context.Fits n) x :=
  wp_setWorkerChoiceStrategyOptions (fun _ => fits_setOptions h _) fun _ _ => h

theorem setWorkerChoiceStrategy_fits {n : Nat} (h : x.context.Fits n) (name : String) (o : StrategyOptionsArgument) :
    wp (StrategyPool.setWorkerChoiceStrategy (some name) o) (fun _ x' => x'.context.Fits n)
      (fun _ x' => x'.context.Fits n) x := by
  unfold StrategyPool.setWorkerChoiceStrategy
  rw [wp_bind]
  rcases hname : WorkerChoiceStrategy.ofString? name with _ | s
  · have hcheck : checkValidWorkerChoiceStrategy (some name) = .error (.error s!"Invalid worker choice strategy '{name}'") := by
      simp [checkValidWorkerChoiceStrategy, hname]
    rw [hcheck]
    exact (wp_throw _).2 h
  · have hcheck : checkValidWorkerChoiceStrategy (some name) = .ok () := by
      simp [checkValidWorkerChoiceStrategy, hname]
    rw [hcheck, Option.bind_some, hname]
    refine (wp_pure _).2 ?_
    rw [wp_bind, wp_modify]
    have hswitch := fits_switch s n x
    have hloop (y : StrategyPool Data Response) (hy : y.context.Fits n) :
        wp (do let x ← Eff.get; Eff.forEach resetWorkerNode (List.range x.pool.workerNodes.length) : StrategyM Data Response Unit)
          (fun _ x' => x'.context.Fits n) (fun _ x' => x'.context.Fits n) y := by
      rw [wp_bind, wp_get]
      have hsame := Within.forEach (R := SameContext) within_resetWorkerNode (List.range y.pool.workerNodes.length) y
      exact wp_mono hsame (fun _ _ hc => hc ▸ hy) fun _ _ hc => hc ▸ hy
    cases o with
    | undefined => exact (wp_bind _ _).2 ((wp_pure _).2 (hloop _ hswitch))
    | _ =>
      refine (wp_bind _ _).2 (wp_mono (setWorkerChoiceStrategyOptions_fits hswitch _) (fun _ y hy => ?_) fun _ _ hy => hy)
      exact hloop y hy

/-- A call leaves a strategy active, whose cursor is in range. -/
theorem call_fit (hfit : Fit x) {c : StrategyCall} (henabled : Enabled x (.call c)) (h : c.run x = some (r, x')) :
    Fit x' ∧ x'.pool.outline = x.pool.outline := by
  have hsame : SameWorkers x.pool x'.pool :=
    wp_any (I := fun y : StrategyPool Data Response => SameWorkers x.pool y.pool) (run_sameWorkers c x) h
  have hlen : x'.pool.workerNodes.length = x.pool.workerNodes.length := by
    have hnodes := congrArg (fun o : Outline => o.nodes.length) hsame.outline
    simpa [Pool.outline] using hnodes
  refine ⟨?_, hsame.outline⟩
  unfold Fit at hfit ⊢
  rw [hlen]
  cases c with
  | setWorkerChoiceStrategy name o =>
    cases name with
    | none => exact henabled.elim
    | some name =>
      exact wp_any (I := fun y : StrategyPool Data Response => y.context.Fits x.pool.workerNodes.length)
        (setWorkerChoiceStrategy_fits hfit name o) h
  | setWorkerChoiceStrategyOptions o =>
    exact wp_any (I := fun y : StrategyPool Data Response => y.context.Fits x.pool.workerNodes.length)
      (setWorkerChoiceStrategyOptions_fits hfit o) h

/-! ## Steps -/

/-- Whether an event leaves the cursor of the active strategy in range. -/
def Safe (x : StrategyPool Data Response) : Event Data Response → Prop
  | .pool (.exit workerId) => LeavesRange x (x.pool.getWorkerNodeKeyByWorkerId workerId)
  | _ => True

/-- What an event is in `Events.lean`: a call of `execute` with a choice, or the same. -/
inductive Observes : Event Data Response → Poolifier.Event Data Response → Prop
  | execute {taskId name data choice} : Observes (.execute taskId name data) (.execute taskId name data choice)
  | pool {e} : Observes (.pool e) e

/-- The choice of a call names a node of the pool. -/
def NamesNode (p : Pool Data Response) : Poolifier.Event Data Response → Prop
  | .execute _ _ _ choice => Names p.workerNodes.length choice
  | _ => True

/-- The steps of `Events.lean` whose choices name nodes. -/
abbrev NamingStep : Pool Data Response → Poolifier.Event Data Response → Pool Data Response → Prop :=
  Such (fun _ e p => NamesNode p e) Poolifier.Step

/-- The active strategy fits the pool, which has nodes to choose from. -/
structure Ready (x : StrategyPool Data Response) : Prop where
  fit : Fit x
  manned : x.pool.outline.Manned

theorem manned_step (h : x.pool.outline.Manned) {e : Poolifier.Event Data Response} (hstep : Poolifier.Step (seen x) e (seen x'))
    (hne : x.pool.workerNodes ≠ [] → x'.pool.workerNodes ≠ []) : x'.pool.outline.Manned := by
  have hout := step_outlined hstep
  rw [outline_forget, outline_forget] at hout
  refine hout.manned h fun hnodes => ?_
  rw [Pool.outline, Ne, List.map_eq_nil_iff] at hnodes ⊢
  exact hne hnodes

theorem length_le_step {e : Poolifier.Event Data Response} (he : ∀ w, e ≠ .exit w)
    (hstep : Poolifier.Step (seen x) e (seen x')) : x.pool.workerNodes.length ≤ x'.pool.workerNodes.length := by
  have hle := (step_outlined hstep).length_le he
  simpa [Pool.outline] using hle

/-- A step that is no call is one of `Events.lean`, with a choice that names a node. -/
theorem Ready.event (h : Ready x) {e : Event Data Response} (hsafe : Safe x e) (hcall : ∀ c, e ≠ .call c)
    (hstep : Step x e x') : Ready x' ∧ ∃ e', Observes e e' ∧ NamingStep (seen x) e' (seen x') := by
  have hfit := h.fit
  have hm := h.manned
  obtain ⟨henabled, fuel, now, clock, r, hr⟩ := hstep
  let x₀ : StrategyPool Data Response := { x with pool.now := now }
  have hstep' (e' : Poolifier.Event Data Response) (hen : Poolifier.Enabled x.pool e')
      (hh : Poolifier.handle fuel e' (seen x₀) = some (r, seen x')) : Poolifier.Step (seen x) e' (seen x') :=
    ⟨enabled_forget.2 hen, fuel, now, r, hh⟩
  -- an event that no worker leaves with adds nodes or none
  have hgrows {e' : Poolifier.Event Data Response} (he : ∀ w, e' ≠ .exit w) (hs : Poolifier.Step (seen x) e' (seen x'))
      (hfit' : x.pool.workerNodes.length ≤ x'.pool.workerNodes.length → Fit x') : Ready x' := by
    have hle := length_le_step he hs
    refine ⟨hfit' hle, manned_step hm hs fun hne => ?_⟩
    rw [← List.length_pos_iff] at hne ⊢
    omega
  cases e with
  | execute taskId name data =>
    obtain ⟨hfit', choice, hnames, habstract⟩ := execute_spec (x := x₀) hfit hm hr
    have hs := hstep' (.execute taskId name data choice) henabled habstract
    refine ⟨hgrows (by rintro _ ⟨⟩) hs fun _ => hfit', _, .execute, ?_, hs⟩
    show Names (seen x').workerNodes.length choice
    rw [Pool.forget_workerNodes, List.length_map]
    exact hnames
  | pool e =>
    have hother (hh : handle fuel clock (.pool e) = onPool (Poolifier.handle fuel e)) (he : ∀ w, e ≠ .exit w)
        (hen : Poolifier.Enabled x.pool e) (hnames : NamesNode (seen x') e) :
        Ready x' ∧ ∃ e', Observes (.pool e) e' ∧ NamingStep (seen x) e' (seen x') := by
      rw [hh] at hr
      have hs := hstep' e hen ((projects_onPool (ignores_handle fuel e)).ends hr)
      have hsame : SameContext x₀ x' := wp_any (within_onPool _ x₀) hr
      exact ⟨hgrows he hs fun hle => hfit.of_le hsame hle, e, .pool, hnames, hs⟩
    cases e with
    | execute => exact henabled.elim
    | message w m =>
      cases m with
      | taskResponse m =>
        obtain ⟨s, hs, -⟩ := hfit
        have hresponse := (handleResponse_projects (x := x₀) clock (ignoring_callbacks fuel) hs fuel w m).ends hr
        have hs := hstep' (.message w (.taskResponse m)) henabled hresponse
        have hsame : SameContext x₀ x' := wp_any (within_handleResponse _ w m x₀) hr
        exact ⟨hgrows (by rintro _ ⟨⟩) hs fun hle => h.fit.of_le hsame hle, _, .pool, trivial, hs⟩
      | _ => exact hother rfl nofun henabled trivial
    | exit w =>
      obtain ⟨hfit', hne, habstract⟩ := removeWorkerNode_spec (x := x₀) hfit hsafe hr
      have hs := hstep' (.exit w) henabled habstract
      exact ⟨⟨hfit', manned_step hm hs hne⟩, _, .pool, trivial, hs⟩
    | _ => exact hother rfl nofun henabled trivial
  | call c => exact absurd rfl (hcall c)

/-- A step leaves the pool ready. -/
theorem Ready.step (h : Ready x) {e : Event Data Response} (hsafe : Safe x e) (hstep : Step x e x') : Ready x' := by
  by_cases hcall : ∀ c, e ≠ .call c
  · exact (h.event hsafe hcall hstep).1
  · simp only [not_forall, not_not] at hcall
    obtain ⟨c, rfl⟩ := hcall
    obtain ⟨henabled, fuel, now, clock, r, hr⟩ := hstep
    obtain ⟨hfit, hout⟩ := call_fit (x := { x with pool.now := now }) h.fit henabled hr
    exact ⟨hfit, hout ▸ h.manned⟩

theorem ready_of_created {c : PoolConfig Data} {startWorkers : Bool} {p : Pool Data Response} (h : Created c startWorkers p)
    (s : WorkerChoiceStrategy) (o : StrategyOptionsArgument) (defaultWorkerWeight : ℚ) :
    Ready (ofPool p s o defaultWorkerWeight) := by
  have hm : (ofPool p s o defaultWorkerWeight).pool.outline.Manned := by
    have hp := manned_of_created h
    exact hp
  refine ⟨?_, hm⟩
  have hzero (n : Nat) : ∃ c : Int, some 0 = some c ∧ 0 ≤ c ∧ (c < n ∨ c = 0) := ⟨0, rfl, le_rfl, .inr rfl⟩
  cases s with
  | roundRobin => exact ⟨_, rfl, hzero _⟩
  | weightedRoundRobin => exact ⟨_, rfl, hzero _⟩
  | interleavedWeightedRoundRobin => exact ⟨_, rfl, hzero _⟩
  | _ => exact ⟨_, rfl, trivial⟩

end Events

/-! ## Runs -/

section Runs
variable {c : PoolConfig Data} {startWorkers : Bool} {p : Pool Data Response} {s : WorkerChoiceStrategy}
  {o : StrategyOptionsArgument} {defaultWorkerWeight : ℚ} {es₀ es : List (Event Data Response)}
  {x x' : StrategyPool Data Response}

/-- A pool is ready after every run in which each worker that leaves does so safely. -/
theorem ready_of_run (hp : Created c startWorkers p) (h : Run (Guarded Safe Step) (ofPool p s o defaultWorkerWeight) es x) :
    Ready x :=
  h.inv Ready (ready_of_created hp s o defaultWorkerWeight) fun _ _ _ hready ht => hready.step ht.1 ht.2

/-- Between two calls that change the strategy, a pool with strategies is one whose choices are open, and the choices
its strategies make name nodes. -/
theorem choosing_refines (hp : Created c startWorkers p)
    (h₀ : Run (Guarded Safe Step) (ofPool p s o defaultWorkerWeight) es₀ x) (h : Run (Guarded Safe Step) x es x')
    (hcalls : ∀ call, Event.call call ∉ es) :
    ∃ es', List.Forall₂ Observes es es' ∧ Run NamingStep (seen x) es' (seen x') := by
  refine (h.refines Ready (ready_of_run hp h₀) fun x e x' he hready ht => ?_).2
  refine hready.event ht.1 (fun call hcall => ?_) ht.2
  exact hcalls call (hcall ▸ he)

theorem createAndSetupDynamicWorkerNode_ends (p : Pool Data Response) :
    ∃ r p', createAndSetupDynamicWorkerNode p = some (r, p') := by
  by_cases hc : p.CanCreate
  · obtain ⟨k, p', hp, -⟩ := createAndSetupWorkerNode_returns hc
    exact ⟨_, _, (bind_ok hp _).trans rfl⟩
  · obtain ⟨e, he⟩ := createAndSetupWorkerNode_throws hc
    exact ⟨_, _, bind_error he _⟩

theorem chooseKey_ends (hfit : Fit x) (hne : x.pool.workerNodes ≠ []) (clock : Nat → ℚ) :
    ∃ r x', chooseKey clock x = some (r, x') := by
  obtain ⟨r, x₁, hm, -, -⟩ := executeContext_spec hfit hne clock
  cases r with
  | ok k => exact ⟨_, _, (bind_ok hm _).trans rfl⟩
  | error e => exact ⟨_, _, bind_error hm _⟩

theorem chooseWorkerNode_ends (hfit : Fit x) (hsome : x.pool.workerNodes ≠ [] ∨ x.pool.shallCreateDynamicWorker = true)
    (clock : Nat → ℚ) : ∃ r x', chooseWorkerNode clock x = some (r, x') := by
  unfold chooseWorkerNode
  rw [get_bind]
  by_cases hc : x.pool.shallCreateDynamicWorker = true
  · rw [if_pos hc]
    obtain ⟨r, p, hp⟩ := createAndSetupDynamicWorkerNode_ends x.pool
    have hm := onPool_ends hp
    cases r with
    | error e => exact ⟨_, _, bind_error hm _⟩
    | ok k =>
      rw [bind_ok hm]
      split
      · exact ⟨_, _, rfl⟩
      · obtain ⟨-, -, hjoined⟩ := wp_ok createAndSetupDynamicWorkerNode_joins hp
        have hlt := hjoined.length_lt
        have hfit₁ : Fit { x with pool := p } := hfit.of_le rfl hlt.le
        exact chooseKey_ends hfit₁ (List.length_pos_iff.1 (Nat.zero_lt_of_lt hlt)) clock
  · rw [if_neg hc]
    exact chooseKey_ends hfit (hsome.resolve_right hc) clock

/-- Whatever strategies have been active, a pool that has started chooses one of its nodes, unless it cannot create
the one it wants or the interleaved strategy finds none. -/
theorem chosen_of_run (hp : Created c startWorkers p) (h : Run (Guarded Safe Step) (ofPool p s o defaultWorkerWeight) es x)
    (hst : x.pool.started = true) (clock : Nat → ℚ) : ∃ r x', chooseWorkerNode clock x = some (r, x') ∧ Chosen x x' r := by
  obtain ⟨hfit, hm⟩ := ready_of_run hp h
  obtain ⟨r, x', hr⟩ := chooseWorkerNode_ends hfit (hm.choosable hst) clock
  obtain ⟨-, -, hchosen, -⟩ := chooseWorkerNode_spec hfit (hm.choosable hst) hr
  exact ⟨r, x', hr, hchosen⟩

end Runs

/-! ## Running events -/

section Running

instance (p : Pool Data Response) (k : Nat) : DecidablePred (Strategy.Spares p k)
  | .cyclic s => inferInstanceAs (Decidable (s.cursor = some p.lastKey → _))
  | .leastUsed _ | .leastBusy _ | .leastElu _ | .fairShare _ => inferInstanceAs (Decidable True)

instance (x : StrategyPool Data Response) (k : Nat) : Decidable (LeavesRange x k) :=
  inferInstanceAs (Decidable (_ → _ ∧ ∀ s ∈ x.context.active, s.Spares x.pool k))

instance (x : StrategyPool Data Response) : DecidablePred (Safe x)
  | .pool (.exit _) => inferInstanceAs (Decidable (LeavesRange x _))
  | .execute .. | .call _ | .pool (.execute ..) | .pool (.message ..) | .pool (.poll _) | .pool (.error _) | .pool .start
  | .pool (.enableTasksQueue ..) | .pool (.setTasksQueueOptions _) | .pool .destroy | .pool .destroyed =>
    inferInstanceAs (Decidable True)

instance (x : StrategyPool Data Response) : DecidablePred (Enabled x)
  | .execute taskId _ _ => inferInstanceAs (Decidable (taskId ∉ x.pool.uuids))
  | .pool (.execute ..) => inferInstanceAs (Decidable False)
  | .pool (.message w m) => inferInstanceAs (Decidable (Poolifier.Enabled x.pool (.message w m)))
  | .pool (.poll w) => inferInstanceAs (Decidable (Poolifier.Enabled x.pool (.poll w)))
  | .pool .destroyed => inferInstanceAs (Decidable (Poolifier.Enabled x.pool .destroyed))
  | .call (.setWorkerChoiceStrategy none _) => inferInstanceAs (Decidable False)
  | .call (.setWorkerChoiceStrategy (some _) _) | .call (.setWorkerChoiceStrategyOptions _) | .pool (.error _)
  | .pool (.exit _) | .pool .start | .pool (.enableTasksQueue ..) | .pool (.setTasksQueueOptions _) | .pool .destroy =>
    inferInstanceAs (Decidable True)

/-- Steps computed with given fuel, at time zero. -/
def next (fuel : Nat) (x : StrategyPool Data Response) (e : Event Data Response) : Option (StrategyPool Data Response) :=
  if Enabled x e then (handle fuel (fun _ => 0) e { x with pool.now := 0 }).map Prod.snd else none

theorem step_of_next {fuel : Nat} (x : StrategyPool Data Response) (e : Event Data Response) (x' : StrategyPool Data Response)
    (h : next fuel x e = some x') : Step x e x' := by
  unfold next at h
  split at h
  · rename_i henabled
    obtain ⟨⟨r, x₁⟩, hr, rfl⟩ := Option.map_eq_some_iff.1 h
    exact ⟨henabled, fuel, 0, fun _ => 0, r, hr⟩
  · cases h

/-- The strategy becomes round robin. -/
def switchToRoundRobin : List (Event Unit Unit) := [.call (.setWorkerChoiceStrategy (some "ROUND_ROBIN") .undefined)]

/-- Calls, a response, and the exit of the last worker, at whose node the cursor is. -/
def callsAndExit : List (Event Unit Unit) :=
  [.execute 0 none (), .execute 1 none (), .pool (respond 0 0), .pool (.exit 2), .execute 2 none ()]

theorem run_callsAndExit : ∃ (p : Pool Unit Unit) (x x' : StrategyPool Unit Unit),
    Created (threadPoolConfig .fixed 3 none) true p ∧
      Run (Guarded Safe Step) (ofPool p .leastUsed .undefined 1) switchToRoundRobin x ∧
      Run (Guarded Safe Step) x callsAndExit x' ∧ x'.pool.started = true ∧ x'.pool.promiseResponseMap.lookup 2 = some 1 := by
  let runs (x : StrategyPool Unit Unit) : Bool :=
    (replay (nextWhere Safe (next 5)) x callsAndExit).any fun x' =>
      decide (x'.pool.started = true ∧ x'.pool.promiseResponseMap.lookup 2 = some 1)
  have hcreated : ∃ p : Pool Unit Unit, Created (threadPoolConfig .fixed 3 none) true p ∧
      (replay (nextWhere Safe (next 5)) (ofPool p .leastUsed .undefined 1) switchToRoundRobin).any
        (fun x => decide (runs x = true)) = true :=
    exists_created 5 (by decide +kernel)
  obtain ⟨p, hp, hruns⟩ := hcreated
  obtain ⟨x, hx, hrest⟩ := exists_run_of_replay (guarded_of_nextWhere step_of_next) hruns
  obtain ⟨x', hx', hst, hkey⟩ := exists_run_of_replay (guarded_of_nextWhere step_of_next) hrest
  exact ⟨p, x, x', hp, hx, hx', hst, hkey⟩

theorem choosing_refines_calls : ∃ (x x' : StrategyPool Unit Unit) (es' : List (Poolifier.Event Unit Unit)),
    List.Forall₂ Observes callsAndExit es' ∧ Run NamingStep (seen x) es' (seen x') ∧
      x'.pool.promiseResponseMap.lookup 2 = some 1 := by
  obtain ⟨p, x, x', hp, h₀, h, -, hkey⟩ := run_callsAndExit
  obtain ⟨es', hobs, hrun⟩ := choosing_refines hp h₀ h (by simp [callsAndExit])
  exact ⟨x, x', es', hobs, hrun, hkey⟩

theorem chosen_of_run_calls : ∃ (x : StrategyPool Unit Unit) (r : Except JsError Nat) (x' : StrategyPool Unit Unit),
    x.pool.promiseResponseMap.lookup 2 = some 1 ∧ chooseWorkerNode (fun _ => 0) x = some (r, x') ∧ Chosen x x' r := by
  obtain ⟨p, x, x', hp, h₀, h, hst, hkey⟩ := run_callsAndExit
  obtain ⟨r, x'', hr, hchosen⟩ := chosen_of_run hp (h₀.append h) hst fun _ => 0
  exact ⟨x', r, x'', hkey, hr, hchosen⟩

end Running

end Choosing

end Poolifier
