import Poolifier.Direct
import Poolifier.Refusals
/-!
# What a change of the strategy does to the counters

A change of the strategy resets the usage of every node, and with it the number
of executing tasks, which other code takes for the number of tasks in flight.
The two agree afterwards if no task was in flight at the change, and only then.
-/

namespace Poolifier

open EffLib RunLib StrategyPool WorkerNode

variable {Data Response : Type}

/-! ## A pool over all changes -/

inductive StrategyEvent (Data Response : Type)
  | event (e : Event Data Response)
  | call (c : StrategyCall)

/-- The pool with what the fair share strategy keeps on the nodes. -/
def Pool.withStrategyData (p : Pool Data Response) (f : Nat → Option ℚ) : Pool Data Response :=
  { p with workerNodes := p.workerNodes.map fun n => { n with strategyData := f n.info.id } }

/-- The events of a pool, in which its strategies may do what they like with their states, and the calls that
change the strategy or its options. -/
inductive StrategyStep : StrategyPool Data Response → StrategyEvent Data Response → StrategyPool Data Response → Prop
  | event {x e p} (timestamps : Nat → Option ℚ) (strategies : WorkerChoiceStrategies) (retriesCount : Nat) :
      Step x.pool e p → StrategyStep x (.event e)
        { x with
          pool := p.withStrategyData timestamps
          context := { x.context with retriesCount, workerChoiceStrategies := strategies } }
  | call {x c r x'} : c.run x = some (r, x') → StrategyStep x (.call c) x'

/-- The pool but for the usage of its nodes and what strategies keep there. -/
structure SameWorkers (p p' : Pool Data Response) : Prop where
  outline : p'.outline = p.outline
  workers : p'.workerNodes.map (·.worker) = p.workerNodes.map (·.worker)
  postable : p'.postable = p.postable

theorem SameWorkers.refl (p : Pool Data Response) : SameWorkers p p := ⟨rfl, rfl, rfl⟩

theorem SameWorkers.trans {p p' p'' : Pool Data Response} (h : SameWorkers p p') (h' : SameWorkers p' p'') :
    SameWorkers p p'' :=
  ⟨h'.outline.trans h.outline, h'.workers.trans h.workers, h'.postable.trans h.postable⟩

section Calls
variable {x x' : StrategyPool Data Response} {o : StrategyOptionsArgument}

theorem sameWorkers_mapNodes (p : Pool Data Response) {f : WorkerNode Data → WorkerNode Data}
    (houtline : ∀ n, (f n).outline = n.outline) (hworker : ∀ n, (f n).worker = n.worker) :
    SameWorkers p { p with workerNodes := p.workerNodes.map f } := by
  refine ⟨?_, ?_, rfl⟩
  · unfold Pool.outline
    simp only [List.map_map]
    congr 1
    exact List.map_congr_left fun n _ => houtline n
  · rw [List.map_map]
    exact List.map_congr_left fun n _ => hworker n

theorem sameWorkers_modifyNode (p : Pool Data Response) (k : Nat) {f : WorkerNode Data → WorkerNode Data}
    (houtline : ∀ n, (f n).outline = n.outline) (hworker : ∀ n, (f n).worker = n.worker) :
    SameWorkers p (p.modifyNode k f) :=
  ⟨outline_modifyNode p k houtline, map_modify_same fun n _ => hworker n, rfl⟩

theorem withStrategyData_sameWorkers (p : Pool Data Response) (f : Nat → Option ℚ) : SameWorkers p (p.withStrategyData f) :=
  sameWorkers_mapNodes p (fun _ => rfl) fun _ => rfl

theorem switch_sameWorkers (x : StrategyPool Data Response) (s : Option WorkerChoiceStrategy) :
    SameWorkers x.pool (x.switch s).pool := by
  have hfair : SameWorkers x.pool (FairShare.reset x.pool) := sameWorkers_mapNodes _ (fun _ => rfl) fun _ => rfl
  rcases s with _ | s
  · exact ⟨rfl, rfl, rfl⟩
  · cases s with
    | fairShare => exact ⟨hfair.outline, hfair.workers, rfl⟩
    | _ => exact ⟨rfl, rfl, rfl⟩

theorem configure_sameWorkers (x : StrategyPool Data Response) (opts : WorkerChoiceStrategyOptions) :
    SameWorkers x.pool (x.configure opts).pool := ⟨rfl, rfl, rfl⟩

/-- A pass resets its node, and leaves the others as they are. -/
theorem resetWorkerNode_spec (x : StrategyPool Data Response) (k : Nat) :
    wp (resetWorkerNode k) (fun _ x' => x'.pool = x.pool.modifyNode k (·.resetUsage))
      (fun _ x' => x'.pool = x.pool.modifyNode k (·.resetUsage)) x := by
  simp only [resetWorkerNode, sendStatisticsMessageToWorker, wp_bind, wp_modify, wp_get]
  split
  · split
    · exact (wp_modify _).2 rfl
    · exact (wp_throw _).2 rfl
  · exact (wp_throw _).2 rfl

theorem resetLoop_spec {p : Pool Data Response} (h : SameWorkers p x.pool) :
    wp (do let x ← Eff.get; Eff.forEach resetWorkerNode (List.range x.pool.workerNodes.length) : StrategyM Data Response Unit)
      (fun _ x' => SameWorkers p x'.pool ∧ ∀ n ∈ x'.pool.workerNodes, n.usage = .init)
      (fun _ x' => SameWorkers p x'.pool) x := by
  rw [wp_bind, wp_get]
  have hpass (y : StrategyPool Data Response) (k : Nat) (hy : SameWorkers p y.pool) :
      SameWorkers p (y.pool.modifyNode k (·.resetUsage)) :=
    hy.trans (sameWorkers_modifyNode _ _ (fun _ => rfl) fun _ => rfl)
  have hbody (k : Nat) (y : StrategyPool Data Response) (hy : SameWorkers p y.pool) :
      wp (resetWorkerNode k)
        (fun _ y' => SameWorkers p y'.pool ∧ (∀ n : WorkerNode Data, y'.pool.workerNodes[k]? = some n → n.usage = .init) ∧
          ∀ j : Nat, (∀ n : WorkerNode Data, y.pool.workerNodes[j]? = some n → n.usage = .init) →
            ∀ n : WorkerNode Data, y'.pool.workerNodes[j]? = some n → n.usage = .init)
        (fun _ y' => SameWorkers p y'.pool) y := by
    refine wp_mono (resetWorkerNode_spec y k) (fun _ y' hy' => ?_) fun _ y' hy' => ?_
    · rw [hy']
      refine ⟨hpass y k hy, fun n hn => ?_, fun j hj n hn => ?_⟩
      · obtain ⟨a, -, rfl⟩ := Pool.node_of_modifyNode hn
        rw [if_pos rfl]
        rfl
      · obtain ⟨a, ha, rfl⟩ := Pool.node_of_modifyNode hn
        by_cases hkj : k = j
        · rw [if_pos hkj]
          rfl
        · rw [if_neg hkj]
          exact hj a ha
    · rw [hy']
      exact hpass y k hy
  have hloop := wp_forEach_each (I := fun y : StrategyPool Data Response => SameWorkers p y.pool)
    (P := fun k y => ∀ n, y.pool.workerNodes[k]? = some n → n.usage = .init)
    (E := fun _ y => SameWorkers p y.pool) h fun k (_ : k ∈ List.range x.pool.workerNodes.length) y hy => hbody k y hy
  refine wp_mono hloop (fun _ x' h' => ⟨h'.1, fun n hn => ?_⟩) fun _ _ h' => h'
  obtain ⟨hsame, hall, -⟩ := h'
  obtain ⟨k, hk⟩ := List.mem_iff_getElem?.1 hn
  have hlen : x'.pool.workerNodes.length = x.pool.workerNodes.length := by
    have hworkers := congrArg List.length (hsame.workers.trans h.workers.symm)
    simpa using hworkers
  have hlt : k < x.pool.workerNodes.length := by
    rw [← hlen]
    exact (List.getElem?_eq_some_iff.1 hk).1
  exact hall k (List.mem_range.2 hlt) n hk

/-- However a call ends, the workers and what is in flight on them are the same; where it returns, the usage of
each node is reset. -/
theorem setWorkerChoiceStrategy_spec (x : StrategyPool Data Response) (name : Option String) (o : StrategyOptionsArgument) :
    wp (StrategyPool.setWorkerChoiceStrategy name o)
      (fun _ x' => SameWorkers x.pool x'.pool ∧ ∀ n ∈ x'.pool.workerNodes, n.usage = .init)
      (fun _ x' => SameWorkers x.pool x'.pool) x := by
  unfold StrategyPool.setWorkerChoiceStrategy
  rw [wp_bind]
  rcases hname : checkValidWorkerChoiceStrategy name with e | _
  · exact (wp_throw e).2 (.refl _)
  · refine (wp_pure _).2 ?_
    rw [wp_bind, wp_modify]
    have hswitch := switch_sameWorkers x (name.bind WorkerChoiceStrategy.ofString?)
    cases o with
    | undefined => exact (wp_bind _ _).2 ((wp_pure _).2 (resetLoop_spec hswitch))
    | _ =>
      refine (wp_bind _ _).2 (wp_setWorkerChoiceStrategyOptions (fun _ => ?_) fun e _ => hswitch)
      exact resetLoop_spec (hswitch.trans (configure_sameWorkers _ _))

theorem run_sameWorkers (c : StrategyCall) (x : StrategyPool Data Response) :
    wp c.run (fun _ x' => SameWorkers x.pool x'.pool) (fun _ x' => SameWorkers x.pool x'.pool) x := by
  cases c with
  | setWorkerChoiceStrategy name o => exact wp_mono (setWorkerChoiceStrategy_spec x name o) (fun _ _ h => h.1) fun _ _ h => h
  | setWorkerChoiceStrategyOptions o =>
    exact wp_setWorkerChoiceStrategyOptions (fun _ => configure_sameWorkers _ _) fun _ _ => .refl _

theorem StrategyStep.synced {e : StrategyEvent Data Response} (hs : StrategyStep x e x') (h : x.pool.outline.Synced) :
    x'.pool.outline.Synced := by
  cases hs with
  | event timestamps strategies retriesCount hstep =>
    rw [(withStrategyData_sameWorkers _ timestamps).outline]
    exact (step_outlined hstep).synced h
  | call hrun =>
    have hsame : SameWorkers x.pool x'.pool := wp_any (I := fun y : StrategyPool Data Response => SameWorkers x.pool y.pool)
      (run_sameWorkers _ x) hrun
    rw [hsame.outline]
    exact h

/-- Whatever has happened to a pool, its workers have ids of their own. -/
theorem ids_of_strategyRun {x₀ : StrategyPool Data Response} {es : List (StrategyEvent Data Response)}
    (h₀ : Fresh x₀.pool) (hr : Run StrategyStep x₀ es x) : x.pool.outline.Synced :=
  hr.inv (fun x => x.pool.outline.Synced) (outline_synced_of_run h₀ .nil) fun _ _ _ hs hstep => hstep.synced hs

end Calls

/-! ## The counters after the change -/

theorem SameWorkers.fixed {p p' : Pool Data Response} (h : SameWorkers p p') (hfixed : p.type = .fixed ∨ p.full = true) :
    p'.type = .fixed ∨ p'.full = true := by
  have htype : p'.type = p.type := congrArg Outline.type h.outline
  have hnumber : p'.numberOfWorkers = p.numberOfWorkers := congrArg Outline.numberOfWorkers h.outline
  have hmax : p'.max = p.max := congrArg Outline.max h.outline
  have hlen : p'.workerNodes.length = p.workerNodes.length := by
    simpa using congrArg List.length h.workers
  unfold Pool.full Pool.maxSize at hfixed ⊢
  rw [htype, hnumber, hmax, hlen]
  exact hfixed

theorem SameWorkers.idle_iff {p p' : Pool Data Response} (h : SameWorkers p p') :
    (∀ n ∈ p.workerNodes, n.worker.unanswered = []) ↔ ∀ n ∈ p'.workerNodes, n.worker.unanswered = [] := by
  rw [← List.forall_mem_map (P := fun w : Worker Data => w.unanswered = []) (f := fun n : WorkerNode Data => n.worker)]
  rw [← h.workers, List.forall_mem_map]

/-- With every usage reset, the counters are right if and only if the workers are idle. -/
theorem countsInFlight_iff_idle {p : Pool Data Response} (hinit : ∀ n ∈ p.workerNodes, n.usage = .init) :
    CountsInFlight p ↔ ∀ n ∈ p.workerNodes, n.worker.unanswered = [] := by
  constructor
  · intro h n hn
    obtain ⟨i, hi⟩ := List.mem_iff_getElem?.1 hn
    have hcount : n.usage.tasks.executing = n.worker.unanswered.length := h i n hi
    rw [hinit n hn] at hcount
    exact List.length_eq_zero_iff.1 hcount.symm
  · intro h i n hi
    have hn := List.mem_of_getElem? hi
    simp only [hinit n hn, h n hn]
    rfl

/-- The pool after a change of the strategy, if its workers are idle. -/
theorem SameWorkers.direct {p p' : Pool Data Response} (h : SameWorkers p p') (hsynced : p.outline.Synced)
    (hq : p.opts.enableTasksQueue = false) (hfixed : p.type = .fixed ∨ p.full = true)
    (hidle : ∀ n ∈ p'.workerNodes, n.worker.unanswered = []) : Direct p' := by
  have hids : (p'.workerNodes.map (·.info.id)).Nodup := by
    have hids := hsynced.ids
    rw [← h.outline] at hids
    simpa [Pool.outline, Function.comp_def, WorkerNode.outline] using hids
  have hopts : p'.opts = p.opts := congrArg Outline.opts h.outline
  refine .of_idle ?_ (h.fixed hfixed) hids hidle
  rw [hopts]
  exact hq

/-- After a change of the strategy that returns, the counters agree with what is in flight through every run of
calls and responses that follows if and only if nothing was in flight at the change, and the tasks submitted
in the run can be sent. -/
theorem executing_after_change_iff {x₀ x x' : StrategyPool Data Response} {es₀ : List (StrategyEvent Data Response)}
    {name : Option String} {o : StrategyOptionsArgument} {es : List (Event Data Response)} {s : Pool Data Response}
    (h₀ : Fresh x₀.pool) (hr₀ : Run StrategyStep x₀ es₀ x)
    (hcall : StrategyPool.setWorkerChoiceStrategy name o x = some (.ok (), x'))
    (hq : x.pool.opts.enableTasksQueue = false) (hfixed : x.pool.type = .fixed ∨ x.pool.full = true)
    (hclone : ClonesByData x.pool) :
    Through CountsInFlight (Guarded (fun _ e => TaskEvent e) Step) x'.pool es s ↔
      (∀ n ∈ x.pool.workerNodes, n.worker.unanswered = []) ∧
        Run (Guarded Sendable (Guarded (fun _ e => TaskEvent e) Step)) x'.pool es s := by
  obtain ⟨hsame, hinit⟩ := wp_ok (setWorkerChoiceStrategy_spec x name o) hcall
  have hclone' : ClonesByData x'.pool := by
    unfold ClonesByData
    rw [hsame.postable]
    exact hclone
  have hthrough (hcounts : CountsInFlight x'.pool) :
      Through CountsInFlight (Guarded (fun _ e => TaskEvent e) Step) x'.pool es s ↔
        Run (Guarded Sendable (Guarded (fun _ e => TaskEvent e) Step)) x'.pool es s := by
    have hidle := (countsInFlight_iff_idle hinit).1 hcounts
    have hdirect := hsame.direct (ids_of_strategyRun h₀ hr₀) hq hfixed hidle
    exact hdirect.through_countsInFlight_iff hclone' hcounts
  rw [hsame.idle_iff, ← countsInFlight_iff_idle hinit]
  constructor
  · intro h
    exact ⟨h.first, (hthrough h.first).1 h⟩
  · rintro ⟨hcounts, hrun⟩
    exact (hthrough hcounts).2 hrun

/-- `roundRobinPool` after a change to the least used strategy. -/
def leastUsedPool : StrategyPool Unit Unit :=
  let x := roundRobinPool.switch (some .leastUsed)
  { x with
    pool := x.pool.modifyNode 0 (·.resetUsage)
    statistics := Function.update x.statistics 0 (some ⟨false, false⟩) }

/-- A change before any task, and tasks after it. -/
theorem executing_after_change_iff_idle :
    StrategyPool.setWorkerChoiceStrategy (some "LEAST_USED") .undefined roundRobinPool = some (.ok (), leastUsedPool) ∧
    ∃ s, Through CountsInFlight (Guarded (fun _ e => TaskEvent e) Step) leastUsedPool.pool
      [submit 0 0, respond 0 0, submit 1 0] s := by
  have hcall : StrategyPool.setWorkerChoiceStrategy (some "LEAST_USED") .undefined roundRobinPool =
    some (.ok (), leastUsedPool) := rfl
  obtain ⟨s, hs, -⟩ := run_to (fun s e => TaskEvent e ∧ Sendable s e) 1 leastUsedPool.pool
    [submit 0 0, respond 0 0, submit 1 0] (P := fun _ => True) (by decide +kernel)
  have hrun : Run (Guarded Sendable (Guarded (fun _ e => TaskEvent e) Step)) leastUsedPool.pool _ s :=
    hs.mono fun s e s' h => ⟨h.1.2, h.1.1, h.2⟩
  refine ⟨hcall, s, (executing_after_change_iff (fresh_startedPool 1 false _) .nil hcall rfl (.inl rfl)
    fun _ _ _ => rfl).2 ⟨?_, hrun⟩⟩
  decide

/-- `roundRobinPool` with a task in flight. -/
def oneTaskPool : StrategyPool Unit Unit :=
  let p := roundRobinPool.pool
  { roundRobinPool with
    pool := Pool.withStrategyData ((p.called 0 0).modifyNode 0 (p.startTask (p.newTask 0 none ()))) fun _ => none }

/-- The task in flight at the change is not counted after it. -/
theorem executing_after_change_lost : ¬ ∀ (x₀ x x' : StrategyPool Unit Unit) (es₀ : List (StrategyEvent Unit Unit))
    (name : Option String) (o : StrategyOptionsArgument), Fresh x₀.pool → Run StrategyStep x₀ es₀ x →
      StrategyPool.setWorkerChoiceStrategy name o x = some (.ok (), x') → x.pool.opts.enableTasksQueue = false →
        x.pool.type = .fixed → (∀ t, x.pool.postable t = true) → CountsInFlight x'.pool := by
  intro hclaim
  have hhandle : handle 1 (submit 0 0) { roundRobinPool.pool with now := 0 } = some (.ok (), _) := rfl
  have hstep : StrategyStep roundRobinPool (.event (submit 0 0)) oneTaskPool :=
    .event (fun _ => none) roundRobinPool.context.workerChoiceStrategies 0 ⟨List.not_mem_nil, 1, 0, _, hhandle⟩
  have hcall : StrategyPool.setWorkerChoiceStrategy (some "LEAST_USED") .undefined oneTaskPool = some (.ok (), _) := rfl
  have hcounts := hclaim _ _ _ _ _ _ (fresh_startedPool 1 false _) (.step .nil hstep) hcall rfl rfl (fun _ => rfl) 0 _ rfl
  cases hcounts

end Poolifier
