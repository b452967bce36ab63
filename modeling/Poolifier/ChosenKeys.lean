import Poolifier.Choosing
/-!
# The keys that the strategies choose

While its cursor is in range, a strategy chooses a node that exists, and only the
interleaved one may choose none. A choice leaves the cursor in range, and so does
every event of the pool but the exit of a worker: `remove` does not adjust a
cursor behind the node that leaves. In the runs without such exits the pool is
the one of `Events.lean`, and every accepted call of `execute` has its node.
-/

namespace Poolifier

open EffLib RunLib StrategyPool LeastLib

variable {Data Response : Type}

/-! ## One choice -/

/-- The name of a strategy. -/
def Strategy.name : Strategy → WorkerChoiceStrategy
  | .cyclic (.roundRobin _) => .roundRobin
  | .cyclic (.weightedRoundRobin _) => .weightedRoundRobin
  | .cyclic (.interleavedWeightedRoundRobin _) => .interleavedWeightedRoundRobin
  | .leastUsed _ => .leastUsed
  | .leastBusy _ => .leastBusy
  | .leastElu _ => .leastElu
  | .fairShare _ => .fairShare

/-- The cursor, if the strategy has one, is at one of `n` nodes, or at the start where there are none. -/
def Strategy.Fits (n : Nat) : Strategy → Prop
  | .cyclic s => ∃ c, s.cursor = some c ∧ 0 ≤ c ∧ (c < n ∨ c = 0)
  | _ => True

theorem FairShare.choose_forget (clock : Nat → ℚ) (p : Pool Data Response) (s : AbstractWorkerChoiceStrategy) :
    (FairShare.choose clock p s).2.2.forget = p.forget := by
  have hnodes : (FairShare.choose clock p s).2.2.workerNodes.map (·.forget) = p.workerNodes.map (·.forget) := by
    rw [workerNodes_choose]
    refine List.ext_getElem? fun k => ?_
    rw [List.getElem?_map, List.getElem?_mapIdx, List.getElem?_map]
    rcases p.workerNodes[k]? with _ | n
    · rfl
    · show some (ensureStrategyData s (clock k) n).forget = some n.forget
      unfold ensureStrategyData
      split <;> rfl
  show { p with
    workerNodes := (FairShare.choose clock p s).2.2.workerNodes.map (·.forget)
    removedNodes := p.removedNodes.map (·.forget) } = p.forget
  rw [hnodes]
  rfl

/-- The weighted round robin strategy always has a node to stay with or to go on to. -/
theorem weightedNext_ne_none (p : Pool Data Response) {s : WeightedRoundRobin} {c : Int} (hc : s.nextWorkerNodeKey = some c) :
    (s.weightedRoundRobinNextWorkerNodeKey p).1 ≠ .ok none := by
  unfold WeightedRoundRobin.weightedRoundRobinNextWorkerNodeKey
  split
  · rw [hc]
    rcases p.workerNode? s.currentWorkerNodeKey with _ | n <;> exact nofun
  · exact nofun

/-- What a strategy that fits makes of a choice. -/
structure Strategy.Chooses (s : Strategy) (p : Pool Data Response)
    (r : Except JsError (Option Int) × Strategy × Pool Data Response) (key : Option Int) : Prop where
  result : r.1 = .ok key
  name : r.2.1.name = s.name
  fits : r.2.1.Fits p.workerNodes.length
  forget : r.2.2.forget = p.forget
  lt : ∀ k, key = some k → 0 ≤ k ∧ k < p.workerNodes.length
  none : key = none → s.name = .interleavedWeightedRoundRobin

theorem Strategy.choose_spec {s : Strategy} {p : Pool Data Response} (clock : Nat → ℚ) (hp : p.workerNodes ≠ [])
    (hs : s.Fits p.workerNodes.length) : ∃ key, s.Chooses p (s.choose clock p) key := by
  have hleast {α : Type} [LinearOrder α] [Zero α] (load : WorkerNode Data → α) :
      ∀ k : Int, some ((minWorkerNodeKey load p.workerNodes : Nat) : Int) = some k → 0 ≤ k ∧ k < p.workerNodes.length := by
    rintro k ⟨⟩
    exact ⟨Int.natCast_nonneg _, Int.ofNat_lt.2 (minWorkerNodeKey_firstLeast load hp).lt⟩
  cases s with
  | leastUsed s => exact ⟨_, rfl, rfl, trivial, rfl, hleast LeastUsed.load, nofun⟩
  | leastBusy s => exact ⟨_, rfl, rfl, trivial, rfl, hleast LeastBusy.load, nofun⟩
  | leastElu s => exact ⟨_, rfl, rfl, trivial, rfl, hleast LeastElu.load, nofun⟩
  | fairShare s =>
    obtain ⟨k, hk, hfirst⟩ := FairShare.choose_firstLeast s clock hp
    refine ⟨some k, congrArg _ hk, rfl, trivial, FairShare.choose_forget clock p s, ?_, nofun⟩
    rintro k' ⟨⟩
    exact ⟨Int.natCast_nonneg _, Int.ofNat_lt.2 hfirst.lt⟩
  | cyclic s =>
    obtain ⟨c, hc, h0, hlt⟩ := hs
    have hpos : 0 < p.workerNodes.length := List.length_pos_iff.2 hp
    obtain ⟨⟨d, hd, hd0, hdlt⟩, key, hkey, hrange⟩ := Served.choose_chosen (p := p) hc h0 (by omega)
    refine ⟨key, hkey, ?_, ⟨d, hd, hd0, .inl hdlt⟩, rfl, hrange, ?_⟩
    · cases s <;> rfl
    · rintro rfl
      cases s with
      | roundRobin s =>
        have hnone : s.nextWorkerNodeKey = none := Except.ok.inj hkey
        cases hnone.symm.trans hc
      | weightedRoundRobin s =>
        exact absurd hkey (weightedNext_ne_none p (s := { s with
          toAbstractWorkerChoiceStrategy := s.setPreviousWorkerNodeKey s.nextWorkerNodeKey }) hc)
      | interleavedWeightedRoundRobin s => rfl

theorem Strategy.remove_name (p : Pool Data Response) (k : Nat) (s : Strategy) : (s.remove p k).name = s.name := by
  cases s with
  | cyclic s => cases s <;> rfl
  | _ => rfl

/-- Whether a node that leaves lets the cursor stay in range: it does not come before a cursor at the last node. -/
def Strategy.Spares (p : Pool Data Response) (k : Nat) : Strategy → Prop
  | .cyclic s => s.cursor = some p.lastKey → (k : Int) = p.lastKey
  | _ => True

/-- The strategy after a node has left that was not the only one. -/
theorem Strategy.remove_fits {s : Strategy} {p : Pool Data Response} {k : Nat} (hs : s.Fits p.workerNodes.length)
    (hk : k < p.workerNodes.length) (htwo : 2 ≤ p.workerNodes.length) (hspares : s.Spares p k) (f : List (WorkerNode Data)) :
    (s.remove { p with workerNodes := p.workerNodes.eraseIdx k, removedNodes := f } k).Fits (p.workerNodes.length - 1) := by
  cases s with
  | cyclic s =>
    obtain ⟨c, hc, h0, hlt⟩ := hs
    have hlen : (p.workerNodes.eraseIdx k).length = p.workerNodes.length - 1 := List.length_eraseIdx_of_lt hk
    have hnone : ¬ p.workerNodes.length - 1 = 0 := by omega
    refine ⟨_, Served.remove_cursor s _ k hc, ?_⟩
    have hlast (hcl : c = p.lastKey) : (k : Int) = p.lastKey := hspares (hcl ▸ hc)
    simp only [Pool.lastKey, hlen, hnone, if_false] at hlast ⊢
    split <;> omega
  | _ => exact trivial

/-! ## The context -/

namespace WorkerChoiceStrategyContext
variable {σ : Type} {choose : σ → Except JsError (Option Int) × σ} {c : WorkerChoiceStrategyContext σ}

/-- A strategy that does not throw yields a key, or the context throws after its retries; what every choice keeps
holds after the call. -/
theorem execute_kept {P : σ → Prop} {Q : Int → Prop} {D : Prop}
    (hP : ∀ s, P s → ∃ key, (choose s).1 = .ok key ∧ P (choose s).2 ∧ (∀ k, key = some k → Q k) ∧ (key = none → D))
    (h : P c.strategy) : P (execute choose c).2.strategy ∧ ((∃ k, (execute choose c).1 = .ok k ∧ Q k) ∨
      D ∧ ∃ n : Nat, (execute choose c).1 =
        .error (.error s!"Worker node key chosen is null or undefined after {n} retries")) := by
  induction hleft : c.retries.getD 0 - c.retriesCount using Nat.strong_induction_on generalizing c with
  | _ left ih =>
    obtain ⟨key, hkey, hkept, hQ, hD⟩ := hP c.strategy h
    have hchoose : choose c.strategy = (.ok key, (choose c.strategy).2) := Prod.ext hkey rfl
    cases key with
    | some k =>
      rw [execute_of_some hchoose]
      exact ⟨hkept, .inl ⟨k, rfl, hQ k rfl⟩⟩
    | none =>
      by_cases hmore : c.retries.any (c.retriesCount < ·) = true
      · obtain ⟨retries, hretries, hlt⟩ := (Option.any_eq_true ..).1 hmore
        rw [decide_eq_true_eq] at hlt
        rw [execute_of_retry hchoose hretries hlt]
        rw [hretries, Option.getD_some] at hleft
        refine ih (retries - (c.retriesCount + 1)) (by omega) hkept ?_
        show c.retries.getD 0 - (c.retriesCount + 1) = _
        rw [hretries, Option.getD_some]
      · rw [execute_of_exhausted hchoose hmore]
        exact ⟨hkept, .inr ⟨hD rfl, c.retriesCount, rfl⟩⟩

end WorkerChoiceStrategyContext

namespace StrategyContext
variable {c : StrategyContext} {s : Strategy}

theorem workerChoiceStrategy_of_active (h : c.active = some s) : c.workerChoiceStrategy = some s.name := by
  obtain ⟨name, hname, rfl⟩ := Option.map_eq_some_iff.1 h
  rw [hname]
  cases name <;> rfl

theorem active_put (h : c.workerChoiceStrategy = some s.name) : (c.put s).active = some s := by
  cases s with
  | cyclic s => cases s <;> (simp only [active, put, h]; rfl)
  | _ => simp only [active, put, h]; rfl

theorem put_workerChoiceStrategy (c : StrategyContext) (s : Strategy) :
    (c.put s).workerChoiceStrategy = c.workerChoiceStrategy := by
  cases s with
  | cyclic s => cases s <;> rfl
  | _ => rfl

/-- A strategy is active, and fits a pool of `n` nodes. -/
def Fits (n : Nat) (c : StrategyContext) : Prop := ∃ s, c.active = some s ∧ s.Fits n

end StrategyContext

namespace Choosing

section Calls
variable {x x' : StrategyPool Data Response}

theorem length_of_forget {p p' : Pool Data Response} (h : p'.forget = p.forget) :
    p'.workerNodes.length = p.workerNodes.length := by
  have hlen := congrArg (fun p : Pool Data Response => p.workerNodes.length) h
  simpa using hlen

/-- The active strategy fits the pool. -/
def Fit (x : StrategyPool Data Response) : Prop := x.context.Fits x.pool.workerNodes.length

/-- Nothing has changed but what strategies keep, and the active one still fits. -/
structure Keeps (x x' : StrategyPool Data Response) : Prop where
  forget : x'.pool.forget = x.pool.forget
  strategy : x'.context.workerChoiceStrategy = x.context.workerChoiceStrategy
  fit : Fit x'

/-- What a call of `execute` that cannot choose is told. -/
def noChoice (retriesCount : Nat) : JsError :=
  .error s!"Worker node key chosen is null or undefined after {retriesCount} retries"

/-- The context yields the key of a node, unless the interleaved strategy finds none. -/
theorem executeContext_spec (h : Fit x) (hne : x.pool.workerNodes ≠ []) (clock : Nat → ℚ) :
    ∃ r x', executeContext clock x = some (r, x') ∧ Keeps x x' ∧
      ((∃ k : Nat, r = .ok (k : Int) ∧ k < x.pool.workerNodes.length) ∨
        x.context.workerChoiceStrategy = some .interleavedWeightedRoundRobin ∧ ∃ n, r = .error (noChoice n)) := by
  obtain ⟨s, hs, hfits⟩ := h
  have hname := StrategyContext.workerChoiceStrategy_of_active hs
  have hchoose (t : Strategy × Pool Data Response)
      (ht : t.1.name = s.name ∧ t.2.forget = x.pool.forget ∧ t.1.Fits x.pool.workerNodes.length) :
      ∃ key, (t.1.choose clock t.2).1 = .ok key ∧
        ((t.1.choose clock t.2).2.1.name = s.name ∧ (t.1.choose clock t.2).2.2.forget = x.pool.forget ∧
          (t.1.choose clock t.2).2.1.Fits x.pool.workerNodes.length) ∧
        (∀ k, key = some k → 0 ≤ k ∧ k < x.pool.workerNodes.length) ∧
        (key = none → s.name = .interleavedWeightedRoundRobin) := by
    obtain ⟨hkind, hforget, hfits⟩ := ht
    have hlen := length_of_forget hforget
    have hne' : t.2.workerNodes ≠ [] := by
      rw [← List.length_pos_iff, hlen]
      exact List.length_pos_iff.2 hne
    obtain ⟨key, hchooses⟩ := t.1.choose_spec clock hne' (by rwa [hlen])
    refine ⟨key, hchooses.result, ⟨hchooses.name.trans hkind, hchooses.forget.trans hforget, ?_⟩, ?_, ?_⟩
    · rw [← hlen]
      exact hchooses.fits
    · rw [← hlen]
      exact hchooses.lt
    · exact fun hnone => hkind ▸ hchooses.none hnone
  obtain ⟨⟨hkind, hforget, hfits'⟩, hresult⟩ := WorkerChoiceStrategyContext.execute_kept
    (c := ⟨(s, x.pool), x.context.opts.retries, x.context.retriesCount⟩) hchoose ⟨rfl, rfl, hfits⟩
  unfold executeContext
  rw [hs]
  refine ⟨_, _, rfl, ⟨hforget, ?_, ?_⟩, ?_⟩
  · exact StrategyContext.put_workerChoiceStrategy _ _
  · refine ⟨_, ?_, (length_of_forget hforget).symm ▸ hfits'⟩
    exact StrategyContext.active_put (hname.trans (congrArg some hkind.symm))
  · rcases hresult with ⟨k, hk, h0, hlt⟩ | ⟨hD, n, hn⟩
    · obtain ⟨j, rfl⟩ := Int.eq_ofNat_of_zero_le h0
      exact .inl ⟨j, hk, Int.ofNat_lt.1 hlt⟩
    · exact .inr ⟨hname.trans (congrArg some hD), n, hn⟩

/-- What comes of choosing a node in a pool that has one or creates one: a node, a creation that is refused, or an
interleaved strategy without a choice. -/
inductive Chosen (x x' : StrategyPool Data Response) : Except JsError Nat → Prop
  | node {k} : k < x'.pool.workerNodes.length → Chosen x x' (.ok k)
  | refused {e} : x.pool.shallCreateDynamicWorker = true → ¬ x.pool.CanCreate → Chosen x x' (.error e)
  | none {n} : x.context.workerChoiceStrategy = some .interleavedWeightedRoundRobin → Chosen x x' (.error (noChoice n))

/-- The choice is none, or the key of one of `n` nodes. -/
def Names (n : Nat) : Choice → Prop
  | .key k => k < n
  | .none _ => True

/-- A choice of the strategies is one that `Events.lean` allows. -/
theorem chooseKey_spec (h : Fit x) (hne : x.pool.workerNodes ≠ []) {clock : Nat → ℚ} {r : Except JsError Nat}
    (hr : chooseKey clock x = some (r, x')) : Keeps x x' ∧ Chosen x x' r ∧ ∃ choice,
      Names x'.pool.workerNodes.length choice ∧ chooseWorkerNode.choose choice x.pool.forget = some (r, x'.pool.forget) := by
  obtain ⟨r₁, x₁, hm, hkeeps, hresult⟩ := executeContext_spec h hne clock
  have hlen := length_of_forget hkeeps.forget
  rcases hresult with ⟨k, rfl, hlt⟩ | ⟨hname, n, rfl⟩
  · have hkey : chooseKey clock x = some (.ok k, x₁) := bind_ok hm _
    rw [hkey] at hr
    cases hr
    have hnode : k < x'.pool.workerNodes.length := by rwa [hlen]
    refine ⟨hkeeps, .node hnode, .key k, hnode, ?_⟩
    rw [hkeeps.forget]
    rfl
  · have hthrown : chooseKey clock x = some (.error (noChoice n), x₁) := bind_error hm _
    rw [hthrown] at hr
    cases hr
    refine ⟨hkeeps, .none hname, .none n, trivial, ?_⟩
    rw [hkeeps.forget]
    rfl

theorem projects_onPool {α : Type} {m : PoolM Data Response α} (h : Ignores m) :
    Projects (fun x : StrategyPool Data Response => x.pool.forget) (onPool m) m :=
  Projects.trans (projects_zoom (fun _ _ => rfl) m) h

theorem Fit.of_le (h : Fit x) (hcontext : x'.context = x.context)
    (hle : x.pool.workerNodes.length ≤ x'.pool.workerNodes.length) : Fit x' := by
  obtain ⟨s, hs, hfits⟩ := h
  refine ⟨s, hcontext ▸ hs, ?_⟩
  cases s with
  | cyclic s =>
    obtain ⟨c, hc, h0, hlt⟩ := hfits
    exact ⟨c, hc, h0, by omega⟩
  | _ => trivial

/-- The strategies choose a node, after the pool may have created one. -/
theorem chooseWorkerNode_spec (h : Fit x) (hsome : x.pool.workerNodes ≠ [] ∨ x.pool.shallCreateDynamicWorker = true)
    {clock : Nat → ℚ} {r : Except JsError Nat} (hr : chooseWorkerNode clock x = some (r, x')) :
    Fit x' ∧ x'.context.workerChoiceStrategy = x.context.workerChoiceStrategy ∧ Chosen x x' r ∧ ∃ choice,
      Names x'.pool.workerNodes.length choice ∧ Poolifier.chooseWorkerNode choice x.pool.forget = some (r, x'.pool.forget) := by
  unfold chooseWorkerNode at hr
  rw [get_bind] at hr
  have habstract (choice : Choice) : Poolifier.chooseWorkerNode choice x.pool.forget =
      (if x.pool.shallCreateDynamicWorker then do
        let workerNodeKey ← createAndSetupDynamicWorkerNode
        if x.pool.strategyPolicy.dynamicWorkerUsage then pure workerNodeKey else chooseWorkerNode.choose choice
      else chooseWorkerNode.choose choice : PoolM Data Response Nat) x.pool.forget := by
    unfold Poolifier.chooseWorkerNode
    rw [get_bind, Pool.forget_shallCreateDynamicWorker]
    rfl
  simp only [habstract]
  by_cases hc : x.pool.shallCreateDynamicWorker = true
  · rw [if_pos hc] at hr
    simp only [if_pos hc]
    rcases bind_ends hr with ⟨k, x₁, hm, hrest⟩ | ⟨e, hm, rfl⟩
    · have hm' := (projects_onPool ignores_createAndSetupDynamicWorkerNode).ends hm
      obtain ⟨p, hp, rfl⟩ := zoom_ends hm
      obtain ⟨-, rfl, hjoined⟩ := wp_ok createAndSetupDynamicWorkerNode_joins hp
      have hlt := hjoined.length_lt
      have hfit₁ : Fit { x with pool := p } := h.of_le rfl hlt.le
      simp only [bind_ok hm']
      by_cases husage : x.pool.strategyPolicy.dynamicWorkerUsage = true
      · rw [if_pos husage] at hrest
        simp only [if_pos husage]
        cases hrest
        exact ⟨hfit₁, rfl, .node hlt, .none 0, trivial, rfl⟩
      · rw [if_neg husage] at hrest
        simp only [if_neg husage]
        obtain ⟨hkeeps, hchosen, choice, hnames, habs⟩ := chooseKey_spec hfit₁ (List.length_pos_iff.1 (Nat.zero_lt_of_lt hlt)) hrest
        refine ⟨hkeeps.fit, hkeeps.strategy, ?_, choice, hnames, habs⟩
        cases hchosen with
        | node hk => exact .node hk
        | refused hcreate hno => exact .refused hc fun hcan => hno (hjoined.canCreate.2 hcan)
        | none hname => exact .none hname
    · have hm' := (projects_onPool ignores_createAndSetupDynamicWorkerNode).ends hm
      obtain ⟨p, hp, rfl⟩ := zoom_ends hm
      obtain ⟨hno, rfl⟩ := wp_error createAndSetupDynamicWorkerNode_joins hp
      exact ⟨h, rfl, .refused hc hno, .none 0, trivial, bind_error hm' _⟩
  · rw [if_neg hc] at hr
    simp only [if_neg hc]
    obtain ⟨hkeeps, hchosen, choice, hnames, habs⟩ := chooseKey_spec h (hsome.resolve_right hc) hr
    exact ⟨hkeeps.fit, hkeeps.strategy, hchosen, choice, hnames, habs⟩

/-! ## Events -/

variable {s : Strategy} {cb : Callbacks Data Response} {clock : Nat → ℚ} {k : Nat}

theorem updateContext_spec (clock : Nat → ℚ) (hs : x.context.active = some s) {n : WorkerNode Data} (hn : x.pool.workerNodes[k]? = some n) :
    ∃ x', updateContext clock k x = some (.ok (), x') ∧ x'.pool.forget = x.pool.forget ∧ x'.context = x.context := by
  have hupdate : ∃ p, s.update (clock 0) k x.pool = .ok p ∧ p.forget = x.pool.forget := by
    cases s with
    | fairShare s =>
      refine ⟨_, by rw [Strategy.update, FairShare.update, hn], ?_⟩
      have hnodes : (x.pool.modifyNode k fun _ => { n with
          strategyData := some (FairShare.computeWorkerNodeVirtualTaskEndTimestamp s (clock 0) n) }).workerNodes.map (·.forget) =
            x.pool.workerNodes.map (·.forget) := by
        refine map_modify_same fun n' hn' => ?_
        cases hn.symm.trans hn'
        rfl
      unfold Pool.forget
      rw [hnodes]
      rfl
    | _ => exact ⟨x.pool, rfl, rfl⟩
  obtain ⟨p, hp, hforget⟩ := hupdate
  refine ⟨{ x with pool := p }, ?_, hforget, rfl⟩
  unfold updateContext
  rw [get_bind, hs, Option.map_some, hp]
  rfl

/-- What is seen of a pool with strategies. -/
abbrev seen (x : StrategyPool Data Response) : Pool Data Response := x.pool.forget

/-- The hook that runs after a task has found its node. -/
theorem node_of_afterTaskExecutionHook {m : TaskResponse Response} {p p' : Pool Data Response}
    (h : afterTaskExecutionHook k m p = some (.ok (), p')) : ∃ n, p'.workerNodes[k]? = some n := by
  rcases hn : p.workerNodes[k]? with _ | n
  · have hthrown : afterTaskExecutionHook k m p = some (.error .undefinedAccess, p) := nodeAt_bind_none hn _
    rw [hthrown] at h
    cases h
  · unfold afterTaskExecutionHook at h
    rw [nodeAt_bind hn, get_bind] at h
    cases h
    exact ⟨_, Pool.getElem?_modifyNode_self _ hn⟩

theorem handleTaskExecutionResponse_projects (hcb : cb.Ignoring) (hs : x.context.active = some s) (m : TaskResponse Response) :
    ProjectsAt seen (handleTaskExecutionResponse cb clock m) (Poolifier.handleTaskExecutionResponse cb m) x := by
  have hsettle : Ignores (Eff.modify (Pool.settle m.taskId m.settlement) : PoolM Data Response Unit) :=
    projects_modify fun p => p.forget_settle _ _
  have herase : Ignores (Eff.modify fun p => { p with promiseResponseMap := p.promiseResponseMap.erase m.taskId } :
      PoolM Data Response Unit) := projects_modify fun _ => rfl
  refine ProjectsAt.read ?_
  rw [Pool.forget_promiseResponseMap]
  rcases x.pool.promiseResponseMap.lookup m.taskId with _ | k
  · exact projects_pure () x
  · refine (projects_onPool hsettle x).bind fun _ x₁ hx₁ => ?_
    refine (projects_onPool (ignores_afterTaskExecutionHook k m) x₁).bind fun _ x₂ hx₂ => ?_
    obtain ⟨p₁, -, rfl⟩ := zoom_ends hx₁
    obtain ⟨p₂, hp₂, rfl⟩ := zoom_ends hx₂
    obtain ⟨n, hn⟩ := node_of_afterTaskExecutionHook hp₂
    obtain ⟨x₃, hx₃, hforget, -⟩ := updateContext_spec (x := { x with pool := p₂ }) clock hs hn
    refine .skip hx₃ hforget ?_
    exact projects_onPool (herase.bind fun _ => ignores_executeNextTask hcb k) x₃

theorem handleResponse_projects (clock : Nat → ℚ) (hcb : cb.Ignoring) (hs : x.context.active = some s) (fuel w : Nat) (m : TaskResponse Response) :
    ProjectsAt seen (handleResponse cb clock w m) (handleMessage cb fuel w (.taskResponse m)) x := by
  have hanswer (k : Nat) : Ignores (modifyNode k (·.answer m.taskId) : PoolM Data Response Unit) :=
    ignores_modifyNode k fun _ => rfl
  refine ProjectsAt.read (ProjectsAt.reread ?_)
  rw [Pool.forget_getWorkerNodeKeyByWorkerId, Pool.forget_workerNodes, List.getElem?_map]
  dsimp only
  rcases x.pool.workerNodes[x.pool.getWorkerNodeKeyByWorkerId w]? with _ | n
  · exact projects_throw _ x
  · refine ProjectsAt.bind (projects_onPool (hanswer _) x) fun _ x₁ hx₁ => ?_
    obtain ⟨p₁, -, rfl⟩ := zoom_ends hx₁
    exact handleTaskExecutionResponse_projects (x := { x with pool := p₁ }) hcb hs m

end Calls

end Choosing

end Poolifier
