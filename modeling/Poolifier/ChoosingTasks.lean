import Poolifier.ChoosingRuns
import Poolifier.Conservation
/-!
# No task is lost, whichever strategy chooses

A call that changes the strategy touches neither queues nor promises, and what a
strategy keeps on a node is no task. So what holds of the tasks over a fixed set
of live workers, for all choices that name a node, holds of a pool that chooses
by its strategies, however often they change.
-/

namespace Poolifier

open EffLib RunLib StrategyPool WorkerNode

variable {Data Response : Type}

/-! ## What the ledger does not read -/

section Ledger
variable {p p' : Pool Data Response} {h : Multiset (Task Data)} {started : Bool} {es : List (Event Data Response)}

theorem nodeView_forget (p : Pool Data Response) : p.forget.workerNodes.map nodeView = p.workerNodes.map nodeView := by
  rw [Pool.forget_workerNodes, List.map_map]
  rfl

theorem fixedPool_forget : FixedPool p.forget h ↔ FixedPool p h := by
  constructor
  · intro hp
    have hremoved : p.removedNodes = [] := List.map_eq_nil_iff.1 hp.removedNodes
    refine hp.of_view (nodeView_forget p).symm ?_
    simp only [Pool.forget, hremoved, List.map_nil]
    rw [← hremoved]
  · intro hp
    refine hp.of_view (nodeView_forget p) ?_
    simp only [Pool.forget, hp.removedNodes, List.map_nil]

theorem ledger_forget : Ledger started es p.forget ↔ Ledger started es p := by
  constructor
  · rintro ⟨hp, hst, hkeys, honce, hown, hacc, hsettled⟩
    exact ⟨fixedPool_forget.1 hp, hst, hkeys, honce, hown, hacc, hsettled⟩
  · rintro ⟨hp, hst, hkeys, honce, hown, hacc, hsettled⟩
    exact ⟨fixedPool_forget.2 hp, hst, hkeys, honce, hown, hacc, hsettled⟩

/-- The pools differ in the usage of their nodes, and in what they measure. -/
structure DiffersInUsage (p p' : Pool Data Response) : Prop where
  nodes : p'.workerNodes.map nodeView = p.workerNodes.map nodeView
  rest : p' = { p with workerNodes := p'.workerNodes, taskStatisticsRequirements := p'.taskStatisticsRequirements }

theorem DiffersInUsage.refl (p : Pool Data Response) : DiffersInUsage p p := ⟨rfl, rfl⟩

theorem DiffersInUsage.trans {p'' : Pool Data Response} (h : DiffersInUsage p p') (h' : DiffersInUsage p' p'') : DiffersInUsage p p'' := by
  refine ⟨h'.nodes.trans h.nodes, ?_⟩
  rw [h'.rest, h.rest]

theorem DiffersInUsage.fixedPool (hs : DiffersInUsage p p') (hp : FixedPool p h) : FixedPool p' h := by
  obtain ⟨hnodes, hrest⟩ := hs
  generalize p'.taskStatisticsRequirements = r at hrest
  generalize p'.workerNodes = workerNodes at hnodes hrest
  subst hrest
  have hp₁ : FixedPool { p with taskStatisticsRequirements := r } h :=
    ⟨hp.live, hp.fixed, hp.ids, hp.removedNodes, hp.keys, hp.uuids, hp.accounted⟩
  exact hp₁.of_view hnodes rfl

theorem DiffersInUsage.ledger (hs : DiffersInUsage p p') (hl : Ledger started es p) : Ledger started es p' := by
  refine ⟨hs.fixedPool hl.pool, ?_, ?_, ?_, ?_, ?_, ?_⟩
  all_goals rw [hs.rest]
  · exact hl.isStarted
  · exact hl.keys
  · exact hl.settledOnce
  · exact hl.byOwnResponse
  · exact hl.acceptedKnown
  · exact hl.settledKnown

end Ledger

/-- The constructor sets the type and what can be posted. -/
theorem type_of_created {c : PoolConfig Data} {startWorkers : Bool} {p : Pool Data Response} (h : Created c startWorkers p) :
    p.type = c.type := by
  obtain ⟨-, -, -, hout⟩ := created_outline h
  have htype : p.type = (createdOutline c startWorkers).type := congrArg Outline.type hout
  rw [htype, type_createdOutline]

theorem postable_of_created {c : PoolConfig Data} {startWorkers : Bool} {p : Pool Data Response}
    (h : Created c startWorkers p) : p.postable = c.postable := by
  obtain ⟨s₀, s₁, hc, hstart, hmax⟩ := h
  obtain ⟨-, -, rfl⟩ := construct_ok hc
  have hs₁ : s₁.postable = c.postable := by
    cases startWorkers with
    | true =>
      obtain ⟨fuel, hf⟩ := hstart
      rw [(wp_ok (start_grows fuel) hf).rest]
      rfl
    | false =>
      rw [if_neg Bool.false_ne_true] at hstart
      rw [hstart]
      rfl
  rw [← hs₁]
  unfold setMaxSize at hmax
  split at hmax
  · cases hmax
    rfl
  · rcases hd : checkDynamicPoolSize c.numberOfWorkers c.max with e | _
    · rw [hd] at hmax
      cases hmax
    · rw [hd] at hmax
      cases hmax
      rfl

namespace Choosing

variable {x x' : StrategyPool Data Response}

/-! ## Calls that change the strategy -/

/-- The pools have the same tasks. -/
def KeepsTasks (x x' : StrategyPool Data Response) : Prop := DiffersInUsage x.pool x'.pool

instance : IsPreorder (StrategyPool Data Response) KeepsTasks where
  refl x := .refl x.pool
  trans _ _ _ h h' := DiffersInUsage.trans h h'

theorem keepsTasks_switch (s : Option WorkerChoiceStrategy) (x : StrategyPool Data Response) : KeepsTasks x (x.switch s) := by
  rcases s with _ | s
  · exact ⟨rfl, rfl⟩
  · cases s with
    | fairShare =>
      refine ⟨?_, rfl⟩
      show (x.pool.workerNodes.map _).map nodeView = _
      rw [List.map_map]
      exact List.map_congr_left fun _ _ => rfl
    | _ => exact ⟨rfl, rfl⟩

theorem within_checkArgument (c : Except JsError Unit) : EffLib.Within KeepsTasks (checkArgument c : StrategyM Data Response Unit) := by
  cases c with
  | ok => exact within_pure ()
  | error e => exact within_throw e

theorem keepsTasks_resetWorkerNode (k : Nat) : EffLib.Within KeepsTasks (resetWorkerNode k : StrategyM Data Response Unit) := by
  refine Within.bind (within_modify fun x => ⟨map_modify_same fun _ _ => rfl, rfl⟩) fun _ => within_get.bind fun x => ?_
  split
  · split
    · exact within_modify fun _ => ⟨rfl, rfl⟩
    · exact within_throw _
  · exact within_throw _

/-- No call moves a task. -/
theorem within_run (c : StrategyCall) : EffLib.Within KeepsTasks (c.run : StrategyM Data Response Unit) := by
  have hoptions (o : StrategyOptionsArgument) :
      EffLib.Within KeepsTasks (StrategyPool.setWorkerChoiceStrategyOptions o : StrategyM Data Response Unit) := by
    refine within_get.bind fun x => (within_checkArgument _).bind fun _ => ?_
    exact within_modify fun _ => ⟨rfl, rfl⟩
  have hloop : EffLib.Within KeepsTasks (do
      let x ← Eff.get
      Eff.forEach resetWorkerNode (List.range x.pool.workerNodes.length) : StrategyM Data Response Unit) :=
    within_get.bind fun x => .forEach keepsTasks_resetWorkerNode _
  cases c with
  | setWorkerChoiceStrategyOptions o => exact hoptions o
  | setWorkerChoiceStrategy name o =>
    refine (within_checkArgument _).bind fun _ => Within.bind (within_modify fun x => keepsTasks_switch _ x) fun _ => ?_
    cases o with
    | undefined => exact (within_pure ()).bind fun _ => hloop
    | _ => exact (hoptions _).bind fun _ => hloop

/-! ## Runs -/

/-- The events over a fixed set of workers. -/
def Steady (x : StrategyPool Data Response) : Event Data Response → Prop
  | .pool e => FixedEvent x.pool e
  | .execute .. | .call _ => True

instance (x : StrategyPool Data Response) : DecidablePred (Steady x)
  | .pool e => inferInstanceAs (Decidable (FixedEvent x.pool e))
  | .execute .. | .call _ => inferInstanceAs (Decidable True)

theorem Steady.safe {e : Event Data Response} (h : Steady x e) : Safe x e := by
  cases e with
  | pool e =>
    cases e with
    | exit w => exact h.elim
    | _ => trivial
  | _ => trivial

def Event.isCall : Event Data Response → Bool
  | .call _ => true
  | _ => false

/-- No worker joins a fixed set for a call. -/
theorem length_of_fixed {h : Multiset (Task Data)} {s s' : Pool Data Response} (hs : FixedPool s h) {taskId : Nat}
    {name : Option String} {data : Data} {choice : Choice} (hstep : Poolifier.Step s (.execute taskId name data choice) s') :
    s'.workerNodes.length = s.workerNodes.length := by
  have hout := step_outlined hstep
  have hlen (p : Pool Data Response) : p.outline.nodes.length = p.workerNodes.length := List.length_map _
  rw [← hlen, ← hlen]
  generalize s'.outline = o' at hout
  cases hout with
  | execute => rfl
  | executeJoins _ htype hlt _ =>
    rcases hs.fixed with hfixed | hfull
    · have hdynamic : s.type = .dynamic := htype
      cases hfixed.symm.trans hdynamic
    · have hmax : s.maxSize ≤ s.workerNodes.length := by simpa [Pool.full] using hfull
      have hroom : s.workerNodes.length < s.maxSize := by
        rw [← hlen]
        exact hlt
      omega

theorem fixedEvent_of_observes {e : Event Data Response} {e' : Poolifier.Event Data Response} (hfixed : FixedPool (seen x) 0)
    (he : Steady x e) (hobs : Observes e e') (hstep : NamingStep (seen x) e' (seen x')) : FixedEvent (seen x) e' := by
  obtain ⟨hnames, hstep⟩ := hstep
  cases hobs with
  | @execute taskId name data choice =>
    cases choice with
    | none n => trivial
    | key k =>
      have hlt : k < (seen x').workerNodes.length := hnames
      rw [length_of_fixed hfixed hstep] at hlt
      exact hlt
  | pool =>
    cases e' with
    | execute taskId name data choice =>
      cases choice with
      | none n => trivial
      | key k =>
        have hlt : k < x.pool.workerNodes.length := he
        show k < (seen x).workerNodes.length
        rw [Pool.forget_workerNodes, List.length_map]
        exact hlt
    | message w m => cases m <;> exact he
    | _ => exact he

/-- Over a fixed set of live workers no strategy, and no change of the strategy, loses or duplicates a task. -/
theorem conserved_by_strategies {c : PoolConfig Data} {startWorkers : Bool} {p : Pool Data Response}
    {s : WorkerChoiceStrategy} {o : StrategyOptionsArgument} {defaultWorkerWeight : ℚ} {es : List (Event Data Response)}
    (hp : Created c startWorkers p) (hfixed : c.type = .fixed) (hsend : ∀ t, c.postable t = true)
    (h : Run (Guarded Steady Step) (ofPool p s o defaultWorkerWeight) es x) :
    ∃ es', List.Forall₂ Observes (es.filter fun e => !e.isCall) es' ∧ Conservation p.started es' x.pool := by
  let I (es : List (Event Data Response)) (x : StrategyPool Data Response) : Prop :=
    Ready x ∧ ∃ es', List.Forall₂ Observes (es.filter fun e => !e.isCall) es' ∧ Ledger p.started es' (seen x)
  have h₀ : I [] (ofPool p s o defaultWorkerWeight) := by
    have htype : p.type = .fixed := (type_of_created hp).trans hfixed
    have hpost (t : Task Data) : p.postable t = true := (postable_of_created hp).symm ▸ hsend t
    have hledger : Ledger p.started [] p := ledger_of_fresh (fresh_of_created hp) (.inl htype) hpost
    have hsame : DiffersInUsage p (ofPool p s o defaultWorkerWeight).pool := ⟨rfl, rfl⟩
    exact ⟨ready_of_created hp s o defaultWorkerWeight, [], .nil, ledger_forget.2 (hsame.ledger hledger)⟩
  have hI : I es x := by
    refine h.trace_inv I h₀ fun es x e x' hx ht => ?_
    obtain ⟨hready, es', hobs, hl⟩ := hx
    obtain ⟨hsteady, hstep⟩ := ht
    refine ⟨hready.step hsteady.safe hstep, ?_⟩
    by_cases hcall : ∃ call, e = .call call
    · obtain ⟨call, rfl⟩ := hcall
      obtain ⟨-, fuel, now, clock, r, hr⟩ := hstep
      refine ⟨es', ?_, ledger_forget.2 ?_⟩
      · simpa [Event.isCall] using hobs
      · have hnow : Ledger p.started es' { x.pool with now } := (ledger_forget.1 hl).now now
        have hkeeps : KeepsTasks { x with pool.now := now } x' := wp_any (within_run call _) hr
        exact DiffersInUsage.ledger hkeeps hnow
    · obtain ⟨-, e', he', hnaming⟩ := hready.event hsteady.safe (fun call he => hcall ⟨call, he⟩) hstep
      obtain ⟨now, hfixedStep⟩ := fixedStep_of_step hl.pool (fixedEvent_of_observes hl.pool hsteady he' hnaming) hnaming.2
      refine ⟨es' ++ [e'], ?_, (hl.now now).step hfixedStep⟩
      have hnot : e.isCall = false := by
        cases e with
        | call call => exact absurd ⟨call, rfl⟩ hcall
        | _ => rfl
      rw [List.filter_append]
      refine List.rel_append hobs ?_
      simpa [hnot] using he'
  obtain ⟨-, es', hobs, hl⟩ := hI
  exact ⟨es', hobs, (ledger_forget.1 hl).conservation⟩

/-- Two workers with a tasks queue, one task for each. -/
def queueConfig : PoolConfig Unit := { threadPoolConfig .fixed 2 none with enableTasksQueue := true }

/-- The strategy changes while tasks wait and are in flight. -/
def switchInFlight : List (Event Unit Unit) :=
  [.execute 0 none (), .execute 1 none (), .execute 2 none (), .call (.setWorkerChoiceStrategy (some "LEAST_USED") .undefined),
    .execute 3 none (), .pool (respond 0 0), .pool (respond 1 1), .execute 4 none ()]

theorem conserved_by_strategies_switch : ∃ (p : Pool Unit Unit) (x : StrategyPool Unit Unit)
    (es' : List (Poolifier.Event Unit Unit)), x.pool.promiseResponseMap.keys = [4, 3, 2] ∧
      List.Forall₂ Observes (switchInFlight.filter fun e => !e.isCall) es' ∧ Conservation p.started es' x.pool := by
  have hcreated : ∃ p : Pool Unit Unit, Created queueConfig true p ∧
      (replay (nextWhere Steady (next 5)) (ofPool p .roundRobin .undefined 1) switchInFlight).any
        (fun x => decide (x.pool.promiseResponseMap.keys = [4, 3, 2])) = true :=
    exists_created 5 (by decide +kernel)
  obtain ⟨p, hp, hruns⟩ := hcreated
  obtain ⟨x, hx, hkeys⟩ := exists_run_of_replay (guarded_of_nextWhere step_of_next) hruns
  obtain ⟨es', hobs, hconserved⟩ := conserved_by_strategies hp rfl (fun _ => rfl) hx
  exact ⟨p, x, es', hkeys, hobs, hconserved⟩

end Choosing

end Poolifier
