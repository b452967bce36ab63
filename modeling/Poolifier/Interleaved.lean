import Mathlib.Data.List.Dedup
import Poolifier.Context
import Poolifier.Eligibility
/-!
# Interleaved weighted round robin over many calls

A fixed set of nodes, each with a positive weight. Between two calls the strategy
is at the node it chose last (`At`) or, after a search that found none, back at
the start (`Wrapped`): it stays with a node whose virtual run time is below the
weight, goes on to the next one, and at the last one wraps around. A search from
the last node goes through the later rounds without leaving that node, so every
choice is made in round 0.
-/

namespace Poolifier

open RoundingLib (Digits digits_zero digits_add sum)

namespace AbstractWorkerChoiceStrategy
variable {Data Response : Type}

/-- The estimated run time of a task on the node at a key. -/
def runTimeOf (s : AbstractWorkerChoiceStrategy) (p : Pool Data Response) (k : Nat) : ℚ :=
  (p.workerNodes[k]?.map s.getWorkerNodeTaskRunTime).getD 0

theorem runTimeOf_eq (s : AbstractWorkerChoiceStrategy) {p : Pool Data Response} {k : Nat}
    (hk : k < p.workerNodes.length) :
    ∃ n, p.workerNodes[k]? = some n ∧ s.runTimeOf p k = s.getWorkerNodeTaskRunTime n := by
  refine ⟨_, List.getElem?_eq_getElem hk, ?_⟩
  rw [runTimeOf, List.getElem?_eq_getElem hk]
  rfl

theorem runTimeOf_of_forall {s : AbstractWorkerChoiceStrategy} {p : Pool Data Response} {P : ℚ → Prop} {k : Nat}
    (h : ∀ n ∈ p.workerNodes, P (s.getWorkerNodeTaskRunTime n)) (hk : k < p.workerNodes.length) : P (s.runTimeOf p k) := by
  obtain ⟨n, hn, hrun⟩ := s.runTimeOf_eq hk
  rw [hrun]
  exact h n (List.mem_of_getElem? hn)

end AbstractWorkerChoiceStrategy

/-- A started pool of thread workers whose tasks have these average run times. -/
def measuredPool (runTimes : List ℚ) : Pool Unit Unit :=
  { startedPool runTimes.length false ⟨none, none, false, false⟩ with
    workerNodes := runTimes.zipIdx.map fun (runTime, i) =>
      { WorkerNode.new i .thread 1 with usage.runTime.average := some runTime } }

namespace InterleavedWeightedRoundRobin
variable {Data Response : Type}

def getRoundWeights (s : InterleavedWeightedRoundRobin) : List ℚ :=
  match s.opts.weights with
  | none => [s.defaultWorkerWeight]
  | some weights => ((weights.entries.map fun e => e.2).insertionSort (· ≤ ·)).dedup

/-- The keys below `N` have positive weights, and the weights of the options are those of these keys. -/
structure Weighted (s : InterleavedWeightedRoundRobin) (N : Nat) : Prop where
  positive : ∀ k < N, 0 < s.workerWeight k
  keys : ∀ weights, s.opts.weights = some weights → ∀ k : Int, k ∈ weights ↔ 0 ≤ k ∧ k < N
  roundWeights : s.roundWeights = s.getRoundWeights

section Weights
variable {s : InterleavedWeightedRoundRobin} {N : Nat}

theorem Weighted.pairwise_roundWeights (h : s.Weighted N) : s.roundWeights.Pairwise (· < ·) := by
  rw [h.roundWeights, getRoundWeights]
  split
  · exact List.pairwise_singleton ..
  · rename_i weights _
    have hle := (List.pairwise_insertionSort (· ≤ ·) (weights.entries.map fun e => e.2)).sublist
      (List.dedup_sublist _)
    exact (hle.and (List.nodup_dedup _)).imp fun h => lt_of_le_of_ne h.1 h.2

/-- The round weights are the weights of the keys. -/
theorem Weighted.mem_roundWeights (h : s.Weighted N) (hN : 0 < N) {w : ℚ} :
    w ∈ s.roundWeights ↔ ∃ k < N, s.workerWeight (k : Nat) = w := by
  rw [h.roundWeights, getRoundWeights]
  rcases hw : s.opts.weights with _ | weights
  · have hweight (k : Int) : s.workerWeight k = s.defaultWorkerWeight := by
      simp [workerWeight, hw]
    simp only [List.mem_singleton, hweight]
    constructor
    · rintro rfl
      exact ⟨0, hN, rfl⟩
    · rintro ⟨k, -, rfl⟩
      rfl
  · have hkeys := h.keys weights hw
    have hweight (k : Int) (a : ℚ) (hk : weights.lookup k = some a) : s.workerWeight k = a := by
      simp [workerWeight, hw, hk]
    simp only [List.mem_dedup, List.mem_insertionSort, List.mem_map]
    constructor
    · rintro ⟨⟨k, a⟩, hmem, rfl⟩
      have hlookup : weights.lookup k = some a := AList.mem_lookup_iff.2 hmem
      obtain ⟨h0, hlt⟩ := (hkeys k).1 (AList.lookup_isSome.1 (by rw [hlookup]; rfl))
      refine ⟨k.toNat, by omega, ?_⟩
      rw [Int.toNat_of_nonneg h0]
      exact hweight k a hlookup
    · rintro ⟨k, hk, rfl⟩
      obtain ⟨a, ha⟩ := Option.isSome_iff_exists.1 (AList.lookup_isSome.2 ((hkeys k).2 ⟨by omega, by omega⟩))
      exact ⟨⟨k, a⟩, AList.mem_lookup_iff.1 ha, (hweight k a ha).symm⟩

/-- No weight is below that of round 0. -/
theorem Weighted.first_round (h : s.Weighted N) (hN : 0 < N) :
    ∃ W rest, s.roundWeights = W :: rest ∧ ∀ k < N, W ≤ s.workerWeight (k : Nat) := by
  rcases hr : s.roundWeights with _ | ⟨W, rest⟩
  · have hmem := (h.mem_roundWeights hN).2 ⟨0, hN, rfl⟩
    rw [hr] at hmem
    exact absurd hmem List.not_mem_nil
  · refine ⟨W, rest, rfl, fun k hk => ?_⟩
    have hmem := (h.mem_roundWeights hN).2 ⟨k, hk, rfl⟩
    have hsorted := h.pairwise_roundWeights
    rw [hr] at hmem hsorted
    rcases List.mem_cons.1 hmem with heq | hmem
    · exact heq.ge
    · exact (List.rel_of_pairwise_cons hsorted hmem).le

end Weights

/-! ## One call -/

/-- `s'` has the weights of `s` and measures run times as `s` does. -/
structure SameWeights (s s' : InterleavedWeightedRoundRobin) : Prop where
  opts : s'.opts = s.opts
  defaultWorkerWeight : s'.defaultWorkerWeight = s.defaultWorkerWeight
  roundWeights : s'.roundWeights = s.roundWeights
  taskStatisticsRequirements : s'.taskStatisticsRequirements = s.taskStatisticsRequirements

/-- The node at `k` has been chosen last, in round 0, and has run for `v` since the strategy came to it. -/
structure At (s s' : InterleavedWeightedRoundRobin) (k : Nat) (v : ℚ) : Prop where
  weights : SameWeights s s'
  roundId : s'.roundId = 0
  workerNodeId : s'.workerNodeId = k
  nextWorkerNodeKey : s'.nextWorkerNodeKey = some (k : Int)
  runTime : s'.workerNodeVirtualTaskRunTime = v

/-- The strategy has come back to its start from the node at `k`, which has run for `v`. -/
structure Wrapped (s s' : InterleavedWeightedRoundRobin) (k : Nat) (v : ℚ) : Prop where
  weights : SameWeights s s'
  roundId : s'.roundId = 0
  workerNodeId : s'.workerNodeId = 0
  nextWorkerNodeKey : s'.nextWorkerNodeKey = some (k : Int)
  runTime : s'.workerNodeVirtualTaskRunTime = v

section Calls
variable {s s' : InterleavedWeightedRoundRobin} {N k : Nat} {v : ℚ} {p : Pool Data Response} {n : WorkerNode Data}

theorem SameWeights.trans {s'' : InterleavedWeightedRoundRobin} (h : SameWeights s s') (h' : SameWeights s' s'') :
    SameWeights s s'' :=
  ⟨h'.opts.trans h.opts, h'.defaultWorkerWeight.trans h.defaultWorkerWeight, h'.roundWeights.trans h.roundWeights,
    h'.taskStatisticsRequirements.trans h.taskStatisticsRequirements⟩

theorem SameWeights.workerWeight (h : SameWeights s s') (k : Int) : s'.workerWeight k = s.workerWeight k := by
  simp only [InterleavedWeightedRoundRobin.workerWeight, h.opts, h.defaultWorkerWeight]

theorem SameWeights.getWorkerNodeTaskRunTime (h : SameWeights s s') (n : WorkerNode Data) :
    s'.getWorkerNodeTaskRunTime n = s.getWorkerNodeTaskRunTime n := by
  simp only [AbstractWorkerChoiceStrategy.getWorkerNodeTaskRunTime, h.taskStatisticsRequirements]

theorem at_reset (s : InterleavedWeightedRoundRobin) : At s s.reset 0 0 :=
  ⟨⟨rfl, rfl, rfl, rfl⟩, rfl, rfl, rfl, rfl⟩

/-- A search that begins at the node chosen last changes nothing there. -/
theorem visit_next (hid : s'.workerNodeId = k) (hnext : s'.nextWorkerNodeKey = some (k : Int)) : s'.visit k = s' := by
  simp only [visit, hnext, ne_eq, not_true_eq_false, false_and, if_false]
  rw [← hid]

/-- A round chooses the node it comes to first if that takes part and has time left. -/
theorem chooseInRound_offer {w : ℚ} (keys : List Int) (h : SameWeights s s') (hround : s'.roundId = 0)
    (hn : p.workerNodes[k]? = some n) (hw : w ≤ s.workerWeight k)
    (hrun : (s'.visit k).workerNodeVirtualTaskRunTime = v) (hv : v < s.workerWeight k) :
    ∃ s'', chooseInRound p w (k :: keys) s' = (.ok (some (k : Int)), s'') ∧
      At s s'' k (addDoubles v (s.getWorkerNodeTaskRunTime n)) := by
  have hnode : p.workerNode? k = some n := hn
  have hoffer : w ≤ (s'.visit k).workerWeight k ∧
      (s'.visit k).workerNodeVirtualTaskRunTime < (s'.visit k).workerWeight k := by
    have heq : (s'.visit k).workerWeight k = s.workerWeight k := h.workerWeight k
    rw [heq, hrun]
    exact ⟨hw, hv⟩
  rw [chooseInRound, if_pos hoffer, hnode]
  refine ⟨_, rfl, h.trans ⟨rfl, rfl, rfl, rfl⟩, hround, rfl, rfl, ?_⟩
  show addDoubles (s'.visit k).workerNodeVirtualTaskRunTime (s'.getWorkerNodeTaskRunTime n) = _
  rw [hrun, h.getWorkerNodeTaskRunTime]

theorem chooseInRound_pass {w : ℚ} {key : Int} {keys : List Int}
    (hv : s'.workerWeight key ≤ (s'.visit key).workerNodeVirtualTaskRunTime) :
    chooseInRound p w (key :: keys) s' = chooseInRound p w keys (s'.visit key) := by
  rw [chooseInRound, if_neg fun h => not_le.2 h.2 hv]

/-- What the first round chooses is what `choose` returns. -/
theorem choose_of_first {W : ℚ} {rest : List ℚ} {s'' : InterleavedWeightedRoundRobin} {key : Int}
    (hround : s'.roundId = 0) (hweights : s'.roundWeights = W :: rest)
    (h : chooseInRound p W (keysFrom p s'.workerNodeId) s' = (.ok (some key), s'')) :
    s'.choose p = (.ok (some key), s'') := by
  have hs : { s' with roundId := 0 } = s' := by rw [← hround]
  rw [choose, hround, hweights, List.drop_zero, List.zipIdx_cons, chooseInRounds, hs, h]

/-- The rounds find nothing at the last key while the node there, chosen last, has no time left. -/
theorem chooseInRounds_exhausted (rounds : List (ℚ × Nat)) (hid : s'.workerNodeId = p.lastKey) (hkey : p.lastKey = k)
    (hnext : s'.nextWorkerNodeKey = some (k : Int)) (hv : s'.workerWeight k ≤ s'.workerNodeVirtualTaskRunTime) :
    chooseInRounds p rounds s' =
      (.ok none, { s' with roundId := (rounds.getLast?.map Prod.snd).getD s'.roundId }) := by
  induction rounds generalizing s' with
  | nil => rfl
  | cons round rounds ih =>
    obtain ⟨w, i⟩ := round
    have hvisit : visit k { s' with roundId := i } = { s' with roundId := i } := visit_next (hid.trans hkey) hnext
    have hkeys : keysFrom p s'.workerNodeId = [(k : Int)] := by
      rw [hid, keysFrom_of_le le_rfl, keysFrom_of_lt (by omega), hkey]
    rw [chooseInRounds, hkeys, chooseInRound_pass (by rw [hvisit]; exact hv), hvisit, chooseInRound]
    refine Eq.trans (ih ?_ ?_ ?_) ?_
    · exact hid
    · exact hnext
    · exact hv
    · rw [List.getLast?_cons]
      cases rounds.getLast? <;> rfl

/-- The strategy stays with a node that has time left. -/
theorem At.stay (hs : s.Weighted N) (h : At s s' k v) (hk : k < N) (hlen : p.workerNodes.length = N)
    (hv : v < s.workerWeight k) :
    ∃ s'', s'.choose p = (.ok (some (k : Int)), s'') ∧ At s s'' k (addDoubles v (s.runTimeOf p k)) := by
  obtain ⟨n, hn, hrun⟩ := s.runTimeOf_eq (p := p) (k := k) (hlen ▸ hk)
  obtain ⟨W, rest, hW, hle⟩ := hs.first_round (Nat.zero_lt_of_lt hk)
  have hvisit : s'.visit k = s' := visit_next h.workerNodeId h.nextWorkerNodeKey
  obtain ⟨s'', hs'', hat⟩ := chooseInRound_offer (keysFrom p (k + 1)) h.weights h.roundId hn (hle k hk)
    (by rw [hvisit, h.runTime]) hv
  rw [← hrun] at hat
  refine ⟨s'', choose_of_first h.roundId (h.weights.roundWeights.trans hW) ?_, hat⟩
  rw [h.workerNodeId, keysFrom_of_le (by simp only [Pool.lastKey]; omega)]
  exact hs''

/-- The strategy goes on from a node that has no time left, and the next one starts from nothing. -/
theorem At.advance (hs : s.Weighted N) (h : At s s' k v) (hk : k + 1 < N) (hlen : p.workerNodes.length = N)
    (hv : s.workerWeight k ≤ v) :
    ∃ s'', s'.choose p = (.ok (some ((k + 1 : Nat) : Int)), s'') ∧
      At s s'' (k + 1) (addDoubles 0 (s.runTimeOf p (k + 1))) := by
  obtain ⟨n, hn, hrun⟩ := s.runTimeOf_eq (p := p) (k := k + 1) (hlen ▸ hk)
  obtain ⟨W, rest, hW, hle⟩ := hs.first_round (Nat.zero_lt_of_lt hk)
  have hvisit : s'.visit k = s' := visit_next h.workerNodeId h.nextWorkerNodeKey
  have hleft : (s'.visit (k + 1 : Nat)).workerNodeVirtualTaskRunTime = 0 := by
    have hpos := hs.positive k (by omega)
    have hne : (k : Int) + 1 ≠ k := by omega
    simp [visit, h.nextWorkerNodeKey, h.runTime, hne, (lt_of_lt_of_le hpos hv).ne']
  obtain ⟨s'', hs'', hat⟩ := chooseInRound_offer (keysFrom p ((k + 1 : Nat) + 1)) h.weights h.roundId hn
    (hle (k + 1) hk) hleft (hs.positive (k + 1) hk)
  rw [← hrun] at hat
  refine ⟨s'', choose_of_first h.roundId (h.weights.roundWeights.trans hW) ?_, hat⟩
  have hkeys : keysFrom p s'.workerNodeId = (k : Int) :: ((k + 1 : Nat) : Int) :: keysFrom p ((k + 1 : Nat) + 1) := by
    rw [h.workerNodeId, keysFrom_of_le (by simp only [Pool.lastKey]; omega), ← Nat.cast_succ,
      keysFrom_of_le (by simp only [Pool.lastKey]; omega)]
  rw [hkeys, chooseInRound_pass, hvisit]
  · exact hs''
  · rw [hvisit, h.runTime, h.weights.workerWeight]
    exact hv

/-- At the last node, with no time left, the search finds none and goes back to the start. -/
theorem At.wrap (hs : s.Weighted N) (h : At s s' k v) (hlen : p.workerNodes.length = N) (hk : k + 1 = N)
    (hv : s.workerWeight k ≤ v) : ∃ s'', s'.choose p = (.ok none, s'') ∧ Wrapped s s'' k v := by
  obtain ⟨W, rest, hW, -⟩ := hs.first_round (by omega)
  have hkey : p.lastKey = k := by
    simp only [Pool.lastKey]
    omega
  have hsearch := chooseInRounds_exhausted (s'.roundWeights.zipIdx.drop s'.roundId) (h.workerNodeId.trans hkey.symm) hkey
    h.nextWorkerNodeKey (by rw [h.weights.workerWeight, h.runTime]; exact hv)
  rw [h.roundId, List.drop_zero] at hsearch
  have hlast : ((s'.roundWeights.zipIdx.getLast?.map Prod.snd).getD 0 : Int) = s'.roundWeights.length - 1 := by
    rw [h.weights.roundWeights, hW, List.getLast?_zipIdx, List.getLast?_cons]
    simp
  refine ⟨_, by rw [choose, h.roundId, List.drop_zero, hsearch], ?_⟩
  rw [interleavedWeightedRoundRobinNextWorkerNodeId, if_pos ⟨hlast, h.workerNodeId.trans hkey.symm⟩]
  exact ⟨h.weights.trans ⟨rfl, rfl, rfl, rfl⟩, rfl, rfl, h.nextWorkerNodeKey, h.runTime⟩

/-- Back at its start the strategy chooses the first node, which starts from nothing. -/
theorem Wrapped.restart (hs : s.Weighted N) (h : Wrapped s s' k v) (hk : k ≠ 0) (hN : 0 < N)
    (hlen : p.workerNodes.length = N) :
    ∃ s'', s'.choose p = (.ok (some 0), s'') ∧ At s s'' 0 (addDoubles 0 (s.runTimeOf p 0)) := by
  obtain ⟨n, hn, hrun⟩ := s.runTimeOf_eq (p := p) (k := 0) (hlen ▸ hN)
  obtain ⟨W, rest, hW, hle⟩ := hs.first_round hN
  have hleft : (s'.visit (0 : Nat)).workerNodeVirtualTaskRunTime = 0 := by
    have hne : (0 : Int) ≠ k := by omega
    simp [visit, h.nextWorkerNodeKey, hne]
  obtain ⟨s'', hs'', hat⟩ := chooseInRound_offer (keysFrom p ((0 : Nat) + 1)) h.weights h.roundId hn (hle 0 hN)
    hleft (hs.positive 0 hN)
  rw [← hrun] at hat
  refine ⟨s'', choose_of_first h.roundId (h.weights.roundWeights.trans hW) ?_, hat⟩
  rw [h.workerNodeId, keysFrom_of_le (by simp only [Pool.lastKey]; omega)]
  exact hs''

/-- What `choose` does from the node chosen last. -/
inductive Turns (s s' : InterleavedWeightedRoundRobin) (N k : Nat) (v : ℚ) (p : Pool Data Response) : Prop
  | stay (s'') : v < s.workerWeight k → s'.choose p = (.ok (some (k : Int)), s'') →
      At s s'' k (addDoubles v (s.runTimeOf p k)) → Turns s s' N k v p
  | advance (s'') : s.workerWeight k ≤ v → k + 1 < N → s'.choose p = (.ok (some ((k + 1 : Nat) : Int)), s'') →
      At s s'' (k + 1) (addDoubles 0 (s.runTimeOf p (k + 1))) → Turns s s' N k v p
  | wrap (s'') : s.workerWeight k ≤ v → k + 1 = N → s'.choose p = (.ok none, s'') → Wrapped s s'' k v →
      Turns s s' N k v p

theorem At.turns (hs : s.Weighted N) (h : At s s' k v) (hk : k < N) (hlen : p.workerNodes.length = N) :
    Turns s s' N k v p := by
  rcases lt_or_ge v (s.workerWeight k) with hv | hv
  · obtain ⟨s'', hs'', hat⟩ := h.stay hs hk hlen hv
    exact .stay s'' hv hs'' hat
  · rcases Nat.lt_or_ge (k + 1) N with hlast | hlast
    · obtain ⟨s'', hs'', hat⟩ := h.advance hs hlast hlen hv
      exact .advance s'' hv hlast hs'' hat
    · obtain ⟨s'', hs'', hwrap⟩ := h.wrap hs hlen (by omega) hv
      exact .wrap s'' hv (by omega) hs'' hwrap

end Calls

/-! ## Calls of `execute` -/

/-- What successive calls of `execute` return or throw, each on the pool as it is then. -/
def executeEach (c : WorkerChoiceStrategyContext InterleavedWeightedRoundRobin) :
    List (Pool Data Response) → List (Except JsError Int)
  | [] => []
  | p :: ps => (c.execute (choose p)).1 :: executeEach (c.execute (choose p)).2 ps

/-- A call has returned the key of one of `N` nodes. -/
def Yields (N : Nat) (r : Except JsError Int) : Prop := ∃ k < N, r = .ok (k : Int)

section Executing
variable {s : InterleavedWeightedRoundRobin} {c : WorkerChoiceStrategyContext InterleavedWeightedRoundRobin}
  {N k retries : Nat} {v : ℚ} {p : Pool Data Response}

/-- With more than one node `execute` yields a key, after one retry at the most. -/
theorem At.execute (hs : s.Weighted N) (hN : 2 ≤ N) (h : At s c.strategy k v) (hk : k < N)
    (hretries : c.retries = some retries) (hr : 1 ≤ retries) (hcount : c.retriesCount = 0)
    (hlen : p.workerNodes.length = N) :
    ∃ c' k' v', c.execute (choose p) = (.ok ((k' : Nat) : Int), c') ∧ k' < N ∧ At s c'.strategy k' v' ∧
      c'.retries = some retries ∧ c'.retriesCount = 0 := by
  cases h.turns hs hk hlen with
  | stay s' hv hs' hat => exact ⟨_, k, _, WorkerChoiceStrategyContext.execute_of_some hs', hk, hat, hretries, rfl⟩
  | advance s' hv hlast hs' hat =>
    exact ⟨_, k + 1, _, WorkerChoiceStrategyContext.execute_of_some hs', hlast, hat, hretries, rfl⟩
  | wrap s' hv hlast hs' hwrap =>
    -- the search ends at the last node, and the retry begins at the first
    obtain ⟨s'', hs'', hat⟩ := hwrap.restart hs (by omega) (by omega) hlen
    have hretry := WorkerChoiceStrategyContext.execute_of_retry hs' hretries (by omega)
    refine ⟨_, 0, _, hretry.trans (WorkerChoiceStrategyContext.execute_of_some ?_), by omega, hat, hretries, rfl⟩
    exact hs''

/-- A single node that has no time left is never chosen again: its time is reset when the search
leaves it, and there is no other node to go to. -/
theorem At.execute_throws (hs : s.Weighted 1) (h : At s c.strategy 0 v) (hlen : p.workerNodes.length = 1)
    (hv : s.workerWeight 0 ≤ v) : ∃ e c', c.execute (choose p) = (.error e, c') := by
  refine WorkerChoiceStrategyContext.execute_throws (fun s' => At s s' 0 v) (fun s' hs' => ?_) h
  obtain ⟨s'', hchoose, hwrap⟩ := hs'.wrap hs hlen rfl hv
  exact ⟨s'', hchoose, hwrap.weights, hwrap.roundId, hwrap.workerNodeId, hwrap.nextWorkerNodeKey, hwrap.runTime⟩

theorem yields_of_two_le (hs : s.Weighted N) (hN : 2 ≤ N) (hr : 1 ≤ retries) (ps : List (Pool Data Response))
    (hps : ∀ p ∈ ps, p.workerNodes.length = N) (h : At s c.strategy k v) (hk : k < N)
    (hretries : c.retries = some retries) (hcount : c.retriesCount = 0) : ∀ r ∈ executeEach c ps, Yields N r := by
  induction ps generalizing c k v with
  | nil => exact List.forall_mem_nil _
  | cons p ps ih =>
    obtain ⟨c', k', v', hexec, hk', hat, hretries', hcount'⟩ :=
      h.execute hs hN hk hretries hr hcount (hps p List.mem_cons_self)
    rw [executeEach, hexec]
    refine List.forall_mem_cons.2 ⟨⟨k', hk', rfl⟩, ?_⟩
    exact ih (fun q hq => hps q (List.mem_cons_of_mem _ hq)) hat hk' hretries' hcount'

/-- A single node yields its key while the time charged before a call is below its weight. -/
theorem yields_single_iff (hs : s.Weighted 1) (ps : List (Pool Data Response))
    (hps : ∀ p ∈ ps, p.workerNodes.length = 1 ∧ ∀ n ∈ p.workerNodes, 0 ≤ s.getWorkerNodeTaskRunTime n)
    (h : At s c.strategy 0 v) (hv : Digits 53 v) (h0 : 0 ≤ v) : (∀ r ∈ executeEach c ps, Yields 1 r) ↔
      ps = [] ∨ sum 53 v (ps.dropLast.map (s.runTimeOf · 0)) < s.workerWeight 0 := by
  induction ps generalizing c v with
  | nil => simp [executeEach]
  | cons p ps ih =>
    obtain ⟨hlen, hnonneg⟩ := hps p List.mem_cons_self
    have hrest := fun q hq => hps q (List.mem_cons_of_mem p hq)
    have htimes : ∀ x ∈ (p :: ps).dropLast.map (s.runTimeOf · 0), 0 ≤ x := by
      intro x hx
      obtain ⟨q, hq, rfl⟩ := List.mem_map.1 hx
      obtain ⟨hlenq, hq0⟩ := hps q (List.dropLast_subset _ hq)
      exact AbstractWorkerChoiceStrategy.runTimeOf_of_forall hq0 (by omega)
    by_cases hlt : v < s.workerWeight 0
    · obtain ⟨s', hs', hat⟩ := h.stay hs Nat.one_pos hlen hlt
      have hpos : 0 ≤ s.runTimeOf p 0 := AbstractWorkerChoiceStrategy.runTimeOf_of_forall hnonneg (by omega)
      have hle : v ≤ addDoubles v (s.runTimeOf p 0) := hv.le_add (by decide) h0 hpos
      rw [executeEach, WorkerChoiceStrategyContext.execute_of_some hs', List.forall_mem_cons,
        ih hrest hat (digits_add _ _ _) (h0.trans hle)]
      rcases ps with _ | ⟨q, ps⟩
      · simpa [Yields, sum] using hlt
      · simp [Yields, sum, List.dropLast_cons_cons]
    · obtain ⟨e, c', hexec⟩ := h.execute_throws hs hlen (not_lt.1 hlt)
      rw [executeEach, hexec]
      constructor
      · intro hall
        obtain ⟨k, -, hk⟩ := hall _ List.mem_cons_self
        cases hk
      · rintro (hnil | hsum)
        · cases hnil
        · exact absurd ((hv.le_sum (by decide) h0 htimes).trans_lt hsum) hlt

/-- Every call of `execute` yields a key exactly if there is more than one node, or if the run times of the tasks
chosen for the single node before the last call, added as doubles, are less than its weight. -/
theorem execute_yields_iff (hN : 1 ≤ N) (hs : s.Weighted N) (hr : 1 ≤ retries) (ps : List (Pool Data Response))
    (hps : ∀ p ∈ ps, p.workerNodes.length = N ∧ ∀ n ∈ p.workerNodes, 0 ≤ s.getWorkerNodeTaskRunTime n) :
    (∀ r ∈ executeEach ⟨s.reset, some retries, 0⟩ ps, Yields N r) ↔
      2 ≤ N ∨ (ps.dropLast.map (s.runTimeOf · 0)).foldl addDoubles 0 < s.workerWeight 0 := by
  rcases eq_or_lt_of_le hN with rfl | hN2
  · rw [yields_single_iff hs ps hps (at_reset s) (digits_zero 53) le_rfl]
    have hsum : sum 53 0 (ps.dropLast.map (s.runTimeOf · 0)) =
        (ps.dropLast.map (s.runTimeOf · 0)).foldl addDoubles 0 := rfl
    rw [hsum, or_iff_right_of_imp]
    · simp
    · rintro rfl
      exact hs.positive 0 Nat.one_pos
  · exact ⟨fun _ => .inl hN2, fun _ => yields_of_two_le hs hN2 hr ps (fun p hp => (hps p hp).1) (at_reset s)
      (by omega) rfl rfl⟩

end Executing

/-- The constructor, with the default options but for the weights. -/
def initial (weights : Option (AList fun _ : Int => ℚ)) (defaultWorkerWeight : ℚ) : InterleavedWeightedRoundRobin :=
  let s : InterleavedWeightedRoundRobin :=
    { nextWorkerNodeKey := some 0
      previousWorkerNodeKey := 0
      taskStatisticsRequirements := ⟨⟨true, true, false⟩, ⟨false, false, false⟩, ⟨false, false, false⟩⟩
      opts := ⟨some 6, none, false, false, false, weights⟩
      roundId := 0
      defaultWorkerWeight
      roundWeights := []
      workerNodeId := 0
      workerNodeVirtualTaskRunTime := 0 }
  { s with roundWeights := s.getRoundWeights }

theorem weighted_initial {w : ℚ} (hw : 0 < w) (N : Nat) : (initial none w).Weighted N where
  positive _ _ := hw
  keys weights h := by cases h
  roundWeights := rfl

/-- Two nodes, whose tasks run for longer and longer. -/
theorem execute_yields_two_nodes : ∃ rs, executeEach ⟨(initial none 5).reset, some 1, 0⟩
    [measuredPool [3, 4], measuredPool [5, 4], measuredPool [6, 8], measuredPool [9, 9]] = rs ∧ rs.length = 4 ∧
    ∀ r ∈ rs, Yields 2 r := by
  refine ⟨_, rfl, by decide +kernel, ?_⟩
  refine (execute_yields_iff (by decide) (weighted_initial (by decide) 2) le_rfl _ ?_).2 (.inl le_rfl)
  simp [measuredPool, initial, AbstractWorkerChoiceStrategy.getWorkerNodeTaskRunTime]

/-- The only node of a pool has weight 1, and its first task runs for that long. -/
theorem single_node_stuck : ¬ ∀ (N retries : Nat) (s : InterleavedWeightedRoundRobin) (ps : List (Pool Unit Unit)),
    1 ≤ N → s.Weighted N → 1 ≤ retries →
    (∀ p ∈ ps, p.workerNodes.length = N ∧ ∀ n ∈ p.workerNodes, 0 ≤ s.getWorkerNodeTaskRunTime n) →
    ∀ r ∈ executeEach ⟨s.reset, some retries, 0⟩ ps, Yields N r := by
  intro h
  have hps : ∀ p ∈ [measuredPool [1], measuredPool [1]],
      p.workerNodes.length = 1 ∧ ∀ n ∈ p.workerNodes, 0 ≤ (initial none 1).getWorkerNodeTaskRunTime n := by
    simp [measuredPool, initial, AbstractWorkerChoiceStrategy.getWorkerNodeTaskRunTime]
  have hs := weighted_initial one_pos 1
  have hall := (yields_single_iff hs _ hps (at_reset (initial none 1))
    (digits_zero 53) le_rfl).1 (h 1 6 (initial none 1) _ le_rfl hs (by decide) hps)
  rcases hall with hnil | hlt
  · cases hnil
  · exact absurd hlt (by decide +kernel)

end InterleavedWeightedRoundRobin

end Poolifier
