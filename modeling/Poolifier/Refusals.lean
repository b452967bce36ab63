import Poolifier.StrategyContext
/-!
# Refused changes of the strategy

A call that changes the strategy or its options may be refused for an invalid
argument. `setWorkerChoiceStrategyOptions` checks its argument first and leaves
everything as it was. `setWorkerChoiceStrategy` switches the strategy before it
looks at the options, so that a refusal of the options finds the strategy
switched and reset.
-/

namespace Poolifier

open EffLib StrategyPool

variable {Data Response : Type}

inductive StrategyCall
  | setWorkerChoiceStrategy (workerChoiceStrategy : Option String) (workerChoiceStrategyOptions : StrategyOptionsArgument)
  | setWorkerChoiceStrategyOptions (workerChoiceStrategyOptions : StrategyOptionsArgument)

def StrategyCall.run : StrategyCall → StrategyM Data Response Unit
  | .setWorkerChoiceStrategy s o => StrategyPool.setWorkerChoiceStrategy s o
  | .setWorkerChoiceStrategyOptions o => StrategyPool.setWorkerChoiceStrategyOptions o

namespace StrategyPool

/-- Whether the check of the options lets them pass. -/
def AcceptsOptions (x : StrategyPool Data Response) (o : StrategyOptionsArgument) : Prop :=
  checkValidWorkerChoiceStrategyOptions x.pool.maxSize o.checked = .ok ()

/-- The call has an invalid argument: one that a check refuses, or no strategy at all. -/
def InvalidArgument (x : StrategyPool Data Response) : StrategyCall → Prop
  | .setWorkerChoiceStrategy s o => checkValidWorkerChoiceStrategy s ≠ .ok () ∨ s = none ∨ ¬ x.AcceptsOptions o
  | .setWorkerChoiceStrategyOptions o => ¬ x.AcceptsOptions o

/-- Options, context, the usage of the nodes and what the strategies keep on them, and the statistics
messages are the same. -/
structure Unchanged (x x' : StrategyPool Data Response) : Prop where
  opts : x'.pool.opts = x.pool.opts
  workerChoiceStrategy : x'.workerChoiceStrategy = x.workerChoiceStrategy
  workerChoiceStrategyOptions : x'.workerChoiceStrategyOptions = x.workerChoiceStrategyOptions
  context : x'.context = x.context
  usage : x'.pool.workerNodes.map (fun n => (n.usage, n.taskFunctionsUsage)) =
    x.pool.workerNodes.map fun n => (n.usage, n.taskFunctionsUsage)
  strategyData : x'.pool.workerNodes.map (·.strategyData) = x.pool.workerNodes.map (·.strategyData)
  statistics : x'.statistics = x.statistics

theorem Unchanged.refl (x : StrategyPool Data Response) : Unchanged x x := ⟨rfl, rfl, rfl, rfl, rfl, rfl, rfl⟩

/-- The strategy is as `reset` leaves it. -/
def AtReset (x : StrategyPool Data Response) : Option WorkerChoiceStrategy → Prop
  | some .roundRobin =>
    let s := x.context.workerChoiceStrategies.roundRobin
    s.nextWorkerNodeKey = some 0 ∧ s.previousWorkerNodeKey = 0
  | some .fairShare => ∀ n ∈ x.pool.workerNodes, n.strategyData = none
  | some .weightedRoundRobin =>
    let s := x.context.workerChoiceStrategies.weightedRoundRobin
    (s.nextWorkerNodeKey = some 0 ∧ s.previousWorkerNodeKey = 0) ∧ s.workerNodeVirtualTaskRunTime = 0
  | some .interleavedWeightedRoundRobin =>
    let s := x.context.workerChoiceStrategies.interleavedWeightedRoundRobin
    (s.nextWorkerNodeKey = some 0 ∧ s.previousWorkerNodeKey = 0) ∧ s.roundId = 0 ∧ s.workerNodeId = 0 ∧
      s.workerNodeVirtualTaskRunTime = 0
  | some .leastUsed | some .leastBusy | some .leastElu | none => True

/-- The strategy is the one in use already, and at its start. -/
def InUse (x : StrategyPool Data Response) (s : Option WorkerChoiceStrategy) : Prop :=
  x.workerChoiceStrategy = s ∧ x.context.workerChoiceStrategy = s ∧ x.AtReset s

/-- The options are those in use already. -/
def HasOptions (x : StrategyPool Data Response) (opts : WorkerChoiceStrategyOptions) : Prop :=
  x.workerChoiceStrategyOptions = opts ∧ x.context.setOptions opts = x.context

/-- Whether a call that throws for an invalid argument leaves everything as it was. A call without a strategy
whose options pass throws at the first node, which it has reset. -/
def LeavesUnchanged (x : StrategyPool Data Response) : StrategyCall → Prop
  | .setWorkerChoiceStrategy s o =>
    checkValidWorkerChoiceStrategy s ≠ .ok () ∨
      x.InUse (s.bind WorkerChoiceStrategy.ofString?) ∧ (¬ x.AcceptsOptions o ∨
        (o = .undefined ∨ x.HasOptions o.merged) ∧
          ∀ n, x.pool.workerNodes[0]? = some n → n.usage = .init ∧ n.taskFunctionsUsage = ∅)
  | .setWorkerChoiceStrategyOptions _ => True

end StrategyPool

section Calls
variable {x x' : StrategyPool Data Response} {s : Option WorkerChoiceStrategy} {o : StrategyOptionsArgument}

/-! ## What is switched and reset -/

@[simp] theorem switch_maxSize (x : StrategyPool Data Response) (s : Option WorkerChoiceStrategy) :
    (x.switch s).pool.maxSize = x.pool.maxSize := by
  rcases s with _ | s
  · rfl
  · cases s <;> rfl

theorem resetWorkerNodeKeyProperties_eq_iff (s : AbstractWorkerChoiceStrategy) :
    s.resetWorkerNodeKeyProperties = s ↔ s.nextWorkerNodeKey = some 0 ∧ s.previousWorkerNodeKey = 0 := by
  constructor
  · intro h
    rw [← h]
    exact ⟨rfl, rfl⟩
  · intro h
    unfold AbstractWorkerChoiceStrategy.resetWorkerNodeKeyProperties
    rw [← h.1, ← h.2]

theorem weightedRoundRobin_reset_eq_iff (s : WeightedRoundRobin) :
    s.reset = s ↔ (s.nextWorkerNodeKey = some 0 ∧ s.previousWorkerNodeKey = 0) ∧ s.workerNodeVirtualTaskRunTime = 0 := by
  constructor
  · intro h
    rw [← h]
    exact ⟨⟨rfl, rfl⟩, rfl⟩
  · rintro ⟨hkeys, htime⟩
    unfold WeightedRoundRobin.reset
    rw [(resetWorkerNodeKeyProperties_eq_iff _).2 hkeys, ← htime]

theorem interleavedWeightedRoundRobin_reset_eq_iff (s : InterleavedWeightedRoundRobin) :
    s.reset = s ↔ (s.nextWorkerNodeKey = some 0 ∧ s.previousWorkerNodeKey = 0) ∧ s.roundId = 0 ∧ s.workerNodeId = 0 ∧
      s.workerNodeVirtualTaskRunTime = 0 := by
  constructor
  · intro h
    rw [← h]
    exact ⟨⟨rfl, rfl⟩, rfl, rfl, rfl⟩
  · rintro ⟨hkeys, hround, hnode, htime⟩
    unfold InterleavedWeightedRoundRobin.reset
    rw [(resetWorkerNodeKeyProperties_eq_iff _).2 hkeys]
    cases s
    simp only at hround hnode htime
    subst hround hnode htime
    rfl

theorem fairShare_reset_strategyData (p : Pool Data Response) :
    (FairShare.reset p).workerNodes.map (·.strategyData) = p.workerNodes.map (·.strategyData) ↔
      ∀ n ∈ p.workerNodes, n.strategyData = none := by
  unfold FairShare.reset
  rw [List.map_map, List.map_inj_left]
  exact forall₂_congr fun n _ => eq_comm

theorem reset_of_atReset (h : x.AtReset s) : x.reset s = x := by
  rcases s with _ | s
  · rfl
  · cases s with
    | roundRobin =>
      have hreset : RoundRobin.reset x.context.workerChoiceStrategies.roundRobin = _ :=
        (resetWorkerNodeKeyProperties_eq_iff _).2 h
      unfold StrategyPool.reset
      rw [hreset]
    | fairShare =>
      have hnodes : x.pool.workerNodes.map (fun n => { n with strategyData := none }) = x.pool.workerNodes := by
        conv_rhs => rw [← List.map_id x.pool.workerNodes]
        refine List.map_congr_left fun n hn => ?_
        rw [← h n hn]
        rfl
      unfold StrategyPool.reset FairShare.reset
      rw [hnodes]
    | weightedRoundRobin =>
      unfold StrategyPool.reset
      rw [(weightedRoundRobin_reset_eq_iff _).2 h]
    | interleavedWeightedRoundRobin =>
      unfold StrategyPool.reset
      rw [(interleavedWeightedRoundRobin_reset_eq_iff _).2 h]
    | _ => rfl

/-- A switch changes nothing if and only if it is to the strategy in use, which is at its start. -/
theorem switch_unchanged_iff : Unchanged x (x.switch s) ↔ x.InUse s := by
  constructor
  · intro h
    have hactive : x.context.workerChoiceStrategy = s := by
      rw [← h.context]
      rcases s with _ | s
      · rfl
      · cases s <;> rfl
    have hoption : x.workerChoiceStrategy = s := by
      rw [← h.workerChoiceStrategy]
      rcases s with _ | s
      · rfl
      · cases s <;> rfl
    refine ⟨hoption, hactive, ?_⟩
    have hstrategies := congrArg StrategyContext.workerChoiceStrategies h.context
    rcases s with _ | s
    · trivial
    · cases s with
      | roundRobin => exact (resetWorkerNodeKeyProperties_eq_iff _).1 (congrArg (·.roundRobin) hstrategies)
      | fairShare => exact (fairShare_reset_strategyData _).1 h.strategyData
      | weightedRoundRobin => exact (weightedRoundRobin_reset_eq_iff _).1 (congrArg (·.weightedRoundRobin) hstrategies)
      | interleavedWeightedRoundRobin =>
        exact (interleavedWeightedRoundRobin_reset_eq_iff _).1 (congrArg (·.interleavedWeightedRoundRobin) hstrategies)
      | _ => trivial
  · rintro ⟨hoption, hactive, hreset⟩
    have hsame : { x with workerChoiceStrategy := s, context.workerChoiceStrategy := s } = x := by
      obtain ⟨pool, strategy, opts, ⟨active, contextOpts, retriesCount, strategies⟩, statistics⟩ := x
      obtain rfl : strategy = s := hoption
      obtain rfl : active = strategy := hactive
      rfl
    unfold StrategyPool.switch
    rw [hsame, reset_of_atReset hreset]
    exact ⟨rfl, rfl, rfl, rfl, rfl, rfl, rfl⟩

/-! ## How a call throws -/

/-- The first node has been reset. -/
def StrategyPool.resetFirst (x : StrategyPool Data Response) : StrategyPool Data Response :=
  { x with pool := x.pool.modifyNode 0 (·.resetUsage) }

/-- The options are applied, if there are any. -/
def StrategyPool.configured (x : StrategyPool Data Response) : StrategyOptionsArgument → StrategyPool Data Response
  | .undefined => x
  | o => x.configure o.merged

/-- Where `setWorkerChoiceStrategy` throws, and the state it leaves. -/
inductive ThrownIn (x : StrategyPool Data Response) (name : Option String) (o : StrategyOptionsArgument) :
    StrategyPool Data Response → Prop
  | strategy : checkValidWorkerChoiceStrategy name ≠ .ok () → ThrownIn x name o x
  | options : checkValidWorkerChoiceStrategy name = .ok () → ¬ x.AcceptsOptions o →
      ThrownIn x name o (x.switch (name.bind WorkerChoiceStrategy.ofString?))
  /-- No strategy is active, so there are no requirements to send. -/
  | inactive : name = none → x.AcceptsOptions o → x.pool.workerNodes ≠ [] →
      ThrownIn x name o ((x.switch none).configured o).resetFirst
  /-- A channel is closed. -/
  | channel (y : StrategyPool Data Response) : checkValidWorkerChoiceStrategy name = .ok () → x.AcceptsOptions o →
      name ≠ none → ThrownIn x name o y

theorem wp_setWorkerChoiceStrategyOptions {Q : Unit → StrategyPool Data Response → Prop}
    {E : JsError → StrategyPool Data Response → Prop} (hok : x.AcceptsOptions o → Q () (x.configure o.merged))
    (herr : ∀ e, ¬ x.AcceptsOptions o → E e x) : wp (StrategyPool.setWorkerChoiceStrategyOptions o) Q E x := by
  simp only [StrategyPool.setWorkerChoiceStrategyOptions, wp_bind, wp_get, wp_modify]
  rcases hcheck : checkValidWorkerChoiceStrategyOptions x.pool.maxSize o.checked with e | _
  · refine (wp_throw e).2 (herr e fun h => ?_)
    cases hcheck.symm.trans h
  · exact (wp_pure _).2 (hok hcheck)

/-- With no strategy active, the loop over the nodes ends in its first pass. -/
theorem resetWorkerNode_inactive (h : x.context.workerChoiceStrategy = none) (k : Nat) :
    resetWorkerNode k x = some (.error .undefinedAccess, { x with pool := x.pool.modifyNode k (·.resetUsage) }) := by
  have hnone : x.context.getTaskStatisticsRequirements = none := by
    unfold StrategyContext.getTaskStatisticsRequirements
    rw [h]
    rfl
  unfold resetWorkerNode sendStatisticsMessageToWorker
  rw [modify_bind, get_bind]
  simp only [hnone]
  rfl

theorem acceptsOptions_switch (x : StrategyPool Data Response) (s : Option WorkerChoiceStrategy) (o : StrategyOptionsArgument) :
    (x.switch s).AcceptsOptions o ↔ x.AcceptsOptions o := by
  unfold AcceptsOptions
  rw [switch_maxSize]

theorem workerChoiceStrategy_configured (x : StrategyPool Data Response) (o : StrategyOptionsArgument) :
    (x.configured o).context.workerChoiceStrategy = x.context.workerChoiceStrategy := by
  cases o <;> rfl

theorem workerNodes_configured (x : StrategyPool Data Response) (o : StrategyOptionsArgument) :
    (x.configured o).pool.workerNodes = x.pool.workerNodes := by
  cases o <;> rfl

theorem wp_setWorkerChoiceStrategy (x : StrategyPool Data Response) (name : Option String) (o : StrategyOptionsArgument) :
    wp (StrategyPool.setWorkerChoiceStrategy name o) (fun _ _ => True) (fun _ x' => ThrownIn x name o x') x := by
  have hloop (hname : checkValidWorkerChoiceStrategy name = .ok ()) (hacc : x.AcceptsOptions o) :
      wp (do let x ← Eff.get; Eff.forEach resetWorkerNode (List.range x.pool.workerNodes.length) : StrategyM Data Response Unit)
        (fun _ _ => True) (fun _ x' => ThrownIn x name o x')
          ((x.switch (name.bind WorkerChoiceStrategy.ofString?)).configured o) := by
    rw [wp_bind, wp_get]
    rcases hn : name with _ | name'
    · rcases hlen : ((x.switch none).configured o).pool.workerNodes.length with _ | len
      · simp only [Option.bind_none, hlen, List.range_zero]
        exact (wp_pure _).2 trivial
      · simp only [Option.bind_none, hlen, List.range_succ_eq_map, Eff.forEach, wp_bind]
        refine (wp_of_error (resetWorkerNode_inactive ?_ 0)).2 ?_
        · rw [workerChoiceStrategy_configured]
          rfl
        · refine .inactive rfl hacc fun hnil => ?_
          rw [workerNodes_configured] at hlen
          have hlen : x.pool.workerNodes.length = len + 1 := hlen
          rw [hnil] at hlen
          cases hlen
    · intro r x' hm
      cases r with
      | ok u => trivial
      | error e => exact .channel x' (by rw [← hn]; exact hname) hacc (by rintro ⟨⟩)
  unfold StrategyPool.setWorkerChoiceStrategy
  rw [wp_bind]
  rcases hname : checkValidWorkerChoiceStrategy name with e | _
  · refine (wp_throw e).2 (.strategy ?_)
    rw [hname]
    rintro ⟨⟩
  · refine (wp_pure _).2 ?_
    rw [wp_bind, wp_modify]
    cases o with
    | undefined => exact (wp_bind _ _).2 ((wp_pure _).2 (hloop hname rfl))
    | _ =>
      refine (wp_bind _ _).2 (wp_setWorkerChoiceStrategyOptions (fun h => ?_) fun e h => ?_)
      · exact hloop hname ((acceptsOptions_switch _ _ _).1 h)
      · exact .options hname fun hacc => h ((acceptsOptions_switch _ _ _).2 hacc)

/-! ## Refused calls -/

theorem resetFirst_usage (x : StrategyPool Data Response) :
    x.resetFirst.pool.workerNodes.map (fun n => (n.usage, n.taskFunctionsUsage)) =
        x.pool.workerNodes.map (fun n => (n.usage, n.taskFunctionsUsage)) ↔
      ∀ n, x.pool.workerNodes[0]? = some n → n.usage = .init ∧ n.taskFunctionsUsage = ∅ := by
  unfold StrategyPool.resetFirst Pool.modifyNode
  rcases x.pool.workerNodes with _ | ⟨n, nodes⟩
  · simp
  · simp [WorkerNode.resetUsage, eq_comm]

theorem switch_none_context (h : x.context.workerChoiceStrategy = none) : (x.switch none).context = x.context := by
  show { x.context with workerChoiceStrategy := none } = x.context
  rw [← h]

/-- A call without a strategy changes nothing if and only if there was none before, and neither its options nor
the reset of the first node change anything. -/
theorem inactive_unchanged_iff : Unchanged x ((x.switch none).configured o).resetFirst ↔
    x.InUse none ∧ (o = .undefined ∨ x.HasOptions o.merged) ∧
      ∀ n, x.pool.workerNodes[0]? = some n → n.usage = .init ∧ n.taskFunctionsUsage = ∅ := by
  have hnodes : ((x.switch none).configured o).pool.workerNodes = x.pool.workerNodes := by
    rw [workerNodes_configured]
    rfl
  have husage := resetFirst_usage ((x.switch none).configured o)
  rw [hnodes] at husage
  constructor
  · intro h
    have hactive : x.context.workerChoiceStrategy = none := by
      rw [← h.context]
      exact workerChoiceStrategy_configured (x.switch none) o
    have hcontext := switch_none_context hactive
    have hoption : x.workerChoiceStrategy = none := by
      rw [← h.workerChoiceStrategy]
      cases o <;> rfl
    refine ⟨⟨hoption, hactive, trivial⟩, ?_, husage.1 h.usage⟩
    cases o with
    | undefined => exact .inl rfl
    | _ =>
      right
      refine ⟨h.workerChoiceStrategyOptions.symm, ?_⟩
      rw [← hcontext]
      exact h.context.trans hcontext.symm
  · rintro ⟨⟨hoption, hactive, -⟩, hopts, hfirst⟩
    have hcontext := switch_none_context hactive
    have hsame : ((x.switch none).configured o).context = x.context ∧
        ((x.switch none).configured o).workerChoiceStrategyOptions = x.workerChoiceStrategyOptions := by
      cases o with
      | undefined => exact ⟨hcontext, rfl⟩
      | _ =>
        rcases hopts with heq | ⟨hset, hcontext'⟩
        · cases heq
        · refine ⟨?_, hset.symm⟩
          show (x.switch none).context.setOptions _ = _
          rw [hcontext]
          exact hcontext'
    refine ⟨?_, ?_, hsame.2, hsame.1, husage.2 hfirst, ?_, ?_⟩
    · cases o <;> rfl
    · rw [hoption]
      cases o <;> rfl
    · unfold StrategyPool.resetFirst
      rw [← hnodes]
      exact map_modify_same fun _ _ => rfl
    · cases o <;> rfl

/-- A call that throws for an invalid argument leaves everything as it was if and only if the strategy is
refused, or was in use and at its start already, or the call is for the options only. -/
theorem refused_call_unchanged_iff {call : StrategyCall} {e : JsError} (h : call.run x = some (.error e, x'))
    (hinv : x.InvalidArgument call) : Unchanged x x' ↔ x.LeavesUnchanged call := by
  cases call with
  | setWorkerChoiceStrategyOptions o =>
    have hx : x' = x := wp_error (Q := fun _ _ => True) (E := fun _ x' => x' = x)
      (wp_setWorkerChoiceStrategyOptions (fun _ => trivial) fun _ _ => rfl) h
    rw [hx]
    exact ⟨fun _ => trivial, fun _ => .refl x⟩
  | setWorkerChoiceStrategy name o =>
    have hthrown : ThrownIn x name o x' := wp_setWorkerChoiceStrategy x name o (.error e) x' h
    cases hthrown with
    | strategy hrefused => exact ⟨fun _ => .inl hrefused, fun _ => .refl x⟩
    | options hname hrefused =>
      rw [switch_unchanged_iff]
      exact ⟨fun huse => .inr ⟨huse, .inl hrefused⟩, fun hcond => hcond.elim (absurd hname) And.left⟩
    | inactive hname hacc _ =>
      subst hname
      rw [inactive_unchanged_iff]
      constructor
      · rintro ⟨huse, hrest⟩
        exact .inr ⟨huse, .inr hrest⟩
      · rintro (hrefused | ⟨huse, hrefused | hrest⟩)
        · exact absurd rfl hrefused
        · exact absurd hacc hrefused
        · exact ⟨huse, hrest⟩
    | channel _ hname hacc hsome =>
      rcases hinv with hrefused | hnone | hrefused
      · exact absurd hname hrefused
      · exact absurd hnone hsome
      · exact absurd hacc hrefused

end Calls

/-- A pool of one thread worker that goes through its nodes in turn. -/
def roundRobinPool : StrategyPool Unit Unit :=
  .ofPool (startedPool 1 false ⟨none, none, false, false⟩) .roundRobin .undefined 1

theorem refused_call_unchanged_iff_unknown : Unchanged roundRobinPool roundRobinPool ↔
    roundRobinPool.LeavesUnchanged (.setWorkerChoiceStrategy (some "RANDOM") .undefined) := by
  have hrun : (StrategyCall.setWorkerChoiceStrategy (some "RANDOM") .undefined).run roundRobinPool =
    some (.error _, roundRobinPool) := rfl
  exact refused_call_unchanged_iff hrun (.inl (by rintro ⟨⟩))

/-- The options of a switch are refused, and the strategy has been switched. -/
theorem refused_call_switches : ¬ ∀ (x x' : StrategyPool Unit Unit) (call : StrategyCall) (e : JsError),
    call.run x = some (.error e, x') → x.InvalidArgument call → Unchanged x x' := by
  intro hclaim
  have hrun : (StrategyCall.setWorkerChoiceStrategy (some "LEAST_USED")
      (.object ⟨⟨.value (.int (-1)), .absent, .absent⟩, .absent, .absent, .absent⟩)).run roundRobinPool =
        some (.error _, roundRobinPool.switch (some .leastUsed)) := rfl
  have h := (hclaim _ _ _ _ hrun (.inr (.inr (by rintro ⟨⟩)))).workerChoiceStrategy
  cases h

end Poolifier
