import Mathlib.Order.WithBot
import Poolifier.Interleaved
/-!
# Fair share over whole runs

Each node has the timestamp at which its virtual tasks end, once it has got one.
An update moves it on by the estimated run time of one more task, from the
current time if it lies in the past; a choice gives every node without one the
end of a first task, and takes the first node with the least. Absent timestamps
are `⊥`, before all times.
-/

namespace Poolifier

open RunLib LeastLib

namespace FairShare
variable {Data Response : Type}

/-- The estimated time of one task of a node. -/
def estimate (s : AbstractWorkerChoiceStrategy) (n : WorkerNode Data) : ℚ :=
  if s.opts.measurement = some .elu then s.getWorkerNodeTaskElu n else s.getWorkerNodeTaskRunTime n

/-- The estimate of the node at a key. -/
def estimateAt (s : AbstractWorkerChoiceStrategy) (p : Pool Data Response) (k : Nat) : ℚ :=
  (p.workerNodes[k]?.map (estimate s)).getD 0

/-- `virtualTaskEndTimestamp` of the node at a key. -/
def timestamp (p : Pool Data Response) (k : Nat) : WithBot ℚ := p.workerNodes[k]?.bind (·.strategyData)

/-- The strategy and the pool it chooses from. -/
structure State (Data Response : Type) where
  strategy : AbstractWorkerChoiceStrategy
  pool : Pool Data Response

inductive Event
  | update (now : ℚ) (workerNodeKey : Nat)
  | choose (clock : Nat → ℚ)
  | measure

/-- No estimate is negative. -/
def State.Measured (st : State Data Response) : Prop := ∀ n ∈ st.pool.workerNodes, 0 ≤ estimate st.strategy n

/-- Updates and choices, and tasks whose measurements change the estimates. -/
inductive Step : State Data Response → Event → State Data Response → Prop
  | update {st now k p} : FairShare.update now k st.strategy st.pool = .ok p → Step st (.update now k) ⟨st.strategy, p⟩
  | choose {st} (clock) : Step st (.choose clock)
      ⟨(FairShare.choose clock st.pool st.strategy).2.1, (FairShare.choose clock st.pool st.strategy).2.2⟩
  | measure {st} (usage : Nat → WorkerUsage) {p} :
      p = { st.pool with workerNodes := st.pool.workerNodes.mapIdx fun k n => { n with usage := usage k } } →
      State.Measured ⟨st.strategy, p⟩ → Step st .measure ⟨st.strategy, p⟩

section Calls
variable {s : AbstractWorkerChoiceStrategy} {p p' : Pool Data Response} {now : ℚ} {clock : Nat → ℚ} {k : Nat}

/-- The documented recurrence, for a node with a timestamp and for one without. -/
theorem computeWorkerNodeVirtualTaskEndTimestamp_eq (s : AbstractWorkerChoiceStrategy) (now : ℚ) (n : WorkerNode Data) :
    (computeWorkerNodeVirtualTaskEndTimestamp s now n : WithBot ℚ) = max (now : WithBot ℚ) n.strategyData + estimate s n := by
  have hstart : (getWorkerNodeVirtualTaskStartTimestamp now n : WithBot ℚ) = max (now : WithBot ℚ) n.strategyData := by
    rw [getWorkerNodeVirtualTaskStartTimestamp]
    rcases n.strategyData with _ | a
    · exact (max_bot_right (now : WithBot ℚ)).symm
    · refine Eq.trans ?_ (WithBot.coe_max now a)
      dsimp only
      split
      · rename_i hlt
        rw [max_eq_right hlt.le]
      · rename_i hle
        rw [max_eq_left (not_lt.1 hle)]
  rw [computeWorkerNodeVirtualTaskEndTimestamp, getWorkerNodeVirtualTaskEndTimestamp, ← hstart, ← WithBot.coe_add]
  rfl

/-- An update moves the timestamp of its node, and no other one. -/
theorem update_timestamp (s : AbstractWorkerChoiceStrategy) (now : ℚ) (hk : k < p.workerNodes.length) :
    ∃ p', update now k s p = .ok p' ∧
      ∀ i, timestamp p' i = if i = k then max (now : WithBot ℚ) (timestamp p k) + estimateAt s p k else timestamp p i := by
  have hn : p.workerNodes[k]? = some p.workerNodes[k] := List.getElem?_eq_getElem hk
  refine ⟨_, by rw [update, hn], fun i => ?_⟩
  rcases eq_or_ne i k with rfl | hne
  · rw [if_pos rfl, timestamp, timestamp, estimateAt, Pool.getElem?_modifyNode_self _ hn, hn]
    exact computeWorkerNodeVirtualTaskEndTimestamp_eq s now _
  · rw [if_neg hne, timestamp, timestamp, Pool.getElem?_modifyNode_ne _ hne.symm]

/-- The timestamp of a node after `choose` has filled the absent ones. -/
def filledTimestamp (s : AbstractWorkerChoiceStrategy) (clock : Nat → ℚ) (p : Pool Data Response) (k : Nat) : ℚ :=
  (timestamp p k).unbotD (clock k + estimateAt s p k)

theorem timestampAt_eq (hk : k < p.workerNodes.length) :
    timestampAt s clock p.workerNodes k = filledTimestamp s clock p k := by
  have hn : p.workerNodes[k]? = some p.workerNodes[k] := List.getElem?_eq_getElem hk
  rw [timestampAt, filledTimestamp, timestamp, estimateAt, hn]
  rcases hd : p.workerNodes[k].strategyData with _ | a
  · simp only [Option.map_some, Option.getD_some, Option.bind_some, hd, Option.getD_none,
      computeWorkerNodeVirtualTaskEndTimestamp, getWorkerNodeVirtualTaskStartTimestamp]
    rfl
  · simp only [Option.map_some, Option.getD_some, Option.bind_some, hd]
    rfl

/-- The nodes after `choose`. -/
theorem workerNodes_choose (s : AbstractWorkerChoiceStrategy) (clock : Nat → ℚ) (p : Pool Data Response) :
    (choose clock p s).2.2.workerNodes = p.workerNodes.mapIdx fun k => ensureStrategyData s (clock k) := by
  refine List.ext_getElem? fun k => ?_
  refine ((reduced_fairShareNextWorkerNodeKey s clock p.workerNodes).nodes k).trans ?_
  rw [List.getElem?_mapIdx]
  rcases hn : p.workerNodes[k]? with _ | n
  · rfl
  · simp only [Option.map_some, if_pos (List.getElem?_eq_some_iff.1 hn).1]

/-- `choose` gives every node its timestamp. -/
theorem choose_timestamp (hk : k < p.workerNodes.length) :
    timestamp (choose clock p s).2.2 k = filledTimestamp s clock p k := by
  have hn : p.workerNodes[k]? = some p.workerNodes[k] := List.getElem?_eq_getElem hk
  rw [← timestampAt_eq hk, timestamp, workerNodes_choose, List.getElem?_mapIdx, timestampAt, hn]
  exact ensureStrategyData_eq (clock k) _

/-- `choose` returns the first node with the least timestamp. -/
theorem choose_firstLeast (s : AbstractWorkerChoiceStrategy) (clock : Nat → ℚ) (h : p.workerNodes ≠ []) :
    ∃ k : Nat, (choose clock p s).1 = some (k : Int) ∧
      FirstLeast (filledTimestamp s clock p) p.workerNodes.length k :=
  ⟨_, rfl, (fairShareNextWorkerNodeKey_firstLeast h).congr fun _ hi => timestampAt_eq hi⟩

end Calls

/-! ## Runs -/

section Runs
variable {st st' : State Data Response} {e : Event} {es es' : List Event} {N : Nat}

/-- There are `N` nodes, and none has a negative estimate. -/
structure State.Fixed (N : Nat) (st : State Data Response) : Prop where
  length : st.pool.workerNodes.length = N
  measured : st.Measured

theorem timestamp_none {p : Pool Data Response} {k : Nat} (h : p.workerNodes.length ≤ k) : timestamp p k = ⊥ := by
  rw [timestamp, List.getElem?_eq_none h]
  rfl

theorem State.Fixed.estimateAt_nonneg (h : st.Fixed N) (k : Nat) : 0 ≤ estimateAt st.strategy st.pool k := by
  rw [estimateAt]
  rcases hn : st.pool.workerNodes[k]? with _ | n
  · exact le_rfl
  · exact h.measured n (List.mem_of_getElem? hn)

theorem State.Fixed.update {now : ℚ} {k : Nat} {p : Pool Data Response} (h : st.Fixed N)
    (hp : FairShare.update now k st.strategy st.pool = .ok p) :
    State.Fixed N ⟨st.strategy, p⟩ ∧ ∀ i, timestamp st.pool i ≤ timestamp p i := by
  rcases hn : st.pool.workerNodes[k]? with _ | n
  · rw [FairShare.update, hn] at hp
    cases hp
  · obtain ⟨p', hp', htime⟩ := update_timestamp st.strategy now (List.getElem?_eq_some_iff.1 hn).1
    cases hp'.symm.trans hp
    rw [FairShare.update, hn] at hp
    cases hp
    refine ⟨⟨(Pool.length_modifyNode ..).trans h.length, fun m hm => ?_⟩, fun i => ?_⟩
    · obtain ⟨i, hi⟩ := List.mem_iff_getElem?.1 hm
      obtain ⟨m', hm', rfl⟩ := Pool.node_of_modifyNode hi
      split
      · exact h.measured n (List.mem_of_getElem? hn)
      · exact h.measured m' (List.mem_of_getElem? hm')
    · rw [htime]
      split
      · rename_i heq
        rw [heq]
        exact (le_max_right _ _).trans (le_add_of_nonneg_right (WithBot.coe_nonneg.2 (h.estimateAt_nonneg k)))
      · exact le_rfl

theorem State.Fixed.choose (h : st.Fixed N) (clock : Nat → ℚ) :
    State.Fixed N ⟨(FairShare.choose clock st.pool st.strategy).2.1, (FairShare.choose clock st.pool st.strategy).2.2⟩ ∧
      ∀ i, timestamp st.pool i ≤ timestamp (FairShare.choose clock st.pool st.strategy).2.2 i := by
  have hnodes := workerNodes_choose st.strategy clock st.pool
  refine ⟨⟨?_, fun m hm => ?_⟩, fun i => ?_⟩
  · exact (congrArg List.length hnodes).trans (List.length_mapIdx.trans h.length)
  · obtain ⟨i, hi⟩ := List.mem_iff_getElem?.1 hm
    rw [hnodes, List.getElem?_mapIdx, Option.map_eq_some_iff] at hi
    obtain ⟨n, hn, rfl⟩ := hi
    have hest : estimate (FairShare.choose clock st.pool st.strategy).2.1 (ensureStrategyData st.strategy (clock i) n) =
        estimate st.strategy n := by
      rw [ensureStrategyData]
      split <;> rfl
    show 0 ≤ estimate (FairShare.choose clock st.pool st.strategy).2.1 _
    rw [hest]
    exact h.measured n (List.mem_of_getElem? hn)
  · rcases Nat.lt_or_ge i st.pool.workerNodes.length with hi | hi
    · rw [choose_timestamp hi, filledTimestamp]
      rcases timestamp st.pool i with _ | a
      · exact bot_le
      · exact le_rfl
    · rw [timestamp_none hi]
      exact bot_le

theorem State.Fixed.measure {usage : Nat → WorkerUsage} {p : Pool Data Response} (h : st.Fixed N)
    (hp : p = { st.pool with workerNodes := st.pool.workerNodes.mapIdx fun k n => { n with usage := usage k } })
    (hm : State.Measured ⟨st.strategy, p⟩) :
    State.Fixed N ⟨st.strategy, p⟩ ∧ ∀ i, timestamp st.pool i ≤ timestamp p i := by
  refine ⟨⟨?_, hm⟩, fun i => le_of_eq ?_⟩
  · rw [hp]
    exact List.length_mapIdx.trans h.length
  · rw [hp, timestamp, timestamp, List.getElem?_mapIdx]
    rcases st.pool.workerNodes[i]? with _ | n
    · rfl
    · rfl

/-- No step takes a timestamp back. -/
theorem State.Fixed.step (h : st.Fixed N) (hs : Step st e st') :
    st'.Fixed N ∧ ∀ i, timestamp st.pool i ≤ timestamp st'.pool i := by
  cases hs with
  | update hp => exact h.update hp
  | choose clock => exact h.choose clock
  | measure usage hp hm => exact h.measure hp hm

theorem State.Fixed.run (h : st.Fixed N) (hr : Run Step st es st') :
    st'.Fixed N ∧ ∀ i, timestamp st.pool i ≤ timestamp st'.pool i := by
  refine hr.inv (fun st' => st'.Fixed N ∧ ∀ i, timestamp st.pool i ≤ timestamp st'.pool i) ⟨h, fun i => le_rfl⟩ ?_
  rintro a e b ⟨ha, hle⟩ hs
  obtain ⟨hb, hle'⟩ := ha.step hs
  exact ⟨hb, fun i => (hle i).trans (hle' i)⟩

theorem fixed_reset {s : AbstractWorkerChoiceStrategy} {p : Pool Data Response}
    (hm : ∀ n ∈ p.workerNodes, 0 ≤ estimate s n) : State.Fixed p.workerNodes.length ⟨s, reset p⟩ where
  length := List.length_map ..
  measured n hn := by
    obtain ⟨m, hm', rfl⟩ := List.mem_map.1 hn
    exact hm m hm'

/-- In every state after `reset`: an update follows the recurrence, no later state takes a timestamp back, and a
choice fills the absent timestamps and takes the first node with the least. -/
theorem fair_share_schedule {s : AbstractWorkerChoiceStrategy} {p : Pool Data Response} (hne : p.workerNodes ≠ [])
    (hm : ∀ n ∈ p.workerNodes, 0 ≤ estimate s n) (hr : Run Step ⟨s, reset p⟩ es st) :
    (∀ now, ∀ k < p.workerNodes.length, ∃ p', update now k st.strategy st.pool = .ok p' ∧
      ∀ i, timestamp p' i = if i = k then max (now : WithBot ℚ) (timestamp st.pool k) +
        estimateAt st.strategy st.pool k else timestamp st.pool i) ∧
    (∀ es' st', Run Step st es' st' → ∀ k, timestamp st.pool k ≤ timestamp st'.pool k) ∧
    ∀ clock, (∃ k : Nat, (choose clock st.pool st.strategy).1 = some (k : Int) ∧
        FirstLeast (filledTimestamp st.strategy clock st.pool) p.workerNodes.length k) ∧
      ∀ k < p.workerNodes.length,
        timestamp (choose clock st.pool st.strategy).2.2 k = filledTimestamp st.strategy clock st.pool k := by
  obtain ⟨hfixed, -⟩ := (fixed_reset hm).run hr
  have hlen := hfixed.length
  refine ⟨fun now k hk => update_timestamp st.strategy now (hlen ▸ hk), fun es' st' hr' => (hfixed.run hr').2,
    fun clock => ⟨?_, fun k hk => choose_timestamp (hlen ▸ hk)⟩⟩
  have hne' : st.pool.workerNodes ≠ [] := by
    rw [← List.length_pos_iff, hlen, List.length_pos_iff]
    exact hne
  rw [← hlen]
  exact choose_firstLeast st.strategy clock hne'

end Runs

/-- Measures average run times. -/
def initial : AbstractWorkerChoiceStrategy where
  nextWorkerNodeKey := some 0
  previousWorkerNodeKey := 0
  taskStatisticsRequirements := ⟨⟨true, true, false⟩, ⟨false, false, false⟩, ⟨true, true, false⟩⟩
  opts := ⟨some 6, none, false, false, false, none⟩

/-- Two nodes, of which the first is updated before a choice at a later time. -/
theorem fair_share_schedule_update : ∃ st : State Unit Unit,
    Run Step ⟨initial, reset (measuredPool [2, 3])⟩ [.update 1 0, .choose fun _ => 4] st ∧
      ∀ es' st', Run Step st es' st' → ∀ k, timestamp st.pool k ≤ timestamp st'.pool k := by
  have hupdate : Step ⟨initial, reset (measuredPool [2, 3])⟩ (.update 1 0) ⟨initial, _⟩ := .update rfl
  have hr := Run.step (Run.step Run.nil hupdate) (Step.choose fun _ => 4)
  have hm : ∀ n ∈ (measuredPool [2, 3]).workerNodes, 0 ≤ estimate initial n := by
    simp [measuredPool, initial, estimate, AbstractWorkerChoiceStrategy.getWorkerNodeTaskRunTime]
  exact ⟨_, hr, (fair_share_schedule (by decide) hm hr).2.1⟩

end FairShare

end Poolifier
