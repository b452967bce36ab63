import Mathlib.Data.List.Infix
import Poolifier.Interleaved
/-!
# The schedules of the weighted strategies

The order in which the weighted strategies choose the nodes of a fixed set while
weights and run times do not change. The interleaved strategy chooses every node
in round 0 and then starts again, so its later rounds stand idle. The other one
goes through the nodes in blocks, and charges no run time for the first choice
of a block but the first one, so that these blocks are one choice too long. Run
times are added as doubles are, so a block also depends on how its sums round.
-/

namespace Poolifier

open RunLib RoundingLib Relation

variable {Data Response : Type}

/-! ## Interleaved weighted round robin -/

namespace InterleavedWeightedRoundRobin

/-- The calls of `choose` until the strategy is back at round 0 and worker node 0, with the rounds and keys
of the choices. -/
inductive Cycle (p : Pool Data Response) :
    InterleavedWeightedRoundRobin → List (Nat × Int) → InterleavedWeightedRoundRobin → Prop
  | wrap {s s'} : s.choose p = (.ok none, s') → s'.roundId = 0 ∧ s'.workerNodeId = 0 → Cycle p s [] s'
  | skip {s s' pairs s''} : s.choose p = (.ok none, s') → ¬ (s'.roundId = 0 ∧ s'.workerNodeId = 0) →
      Cycle p s' pairs s'' → Cycle p s pairs s''
  | assign {s k s' pairs s''} : s.choose p = (.ok (some k), s') → Cycle p s' pairs s'' →
      Cycle p s ((s'.roundId, k) :: pairs) s''

/-- The order of rounds, and of keys within a round. -/
def Before (a b : Nat × Int) : Prop := a.1 < b.1 ∨ a.1 = b.1 ∧ a.2 ≤ b.2

/-- Every node is visited in each round whose weight is no more than its own, in the order of the rounds. -/
def VisitsRounds (s : InterleavedWeightedRoundRobin) (N : Nat) (pairs : List (Nat × Int)) : Prop :=
  (∀ r k, (r, k) ∈ pairs ↔ ∃ i < N, k = ((i : Nat) : Int) ∧ ∃ w, s.roundWeights[r]? = some w ∧ w ≤ s.workerWeight i) ∧
    pairs.Pairwise Before

/-- The choices of a cycle are made in round 0, at `k` or after it, in order, and at every node after it. -/
structure RoundZero (N k : Nat) (pairs : List (Nat × Int)) : Prop where
  mem : ∀ a ∈ pairs, a.1 = 0 ∧ ∃ i < N, k ≤ i ∧ a.2 = ((i : Nat) : Int)
  all : ∀ i < N, k < i → (0, (i : Int)) ∈ pairs
  pairwise : pairs.Pairwise Before

section Cycles
variable {s s' s'' : InterleavedWeightedRoundRobin} {N k : Nat} {v : ℚ} {p : Pool Data Response}
  {pairs : List (Nat × Int)}

theorem RoundZero.nil (hk : k + 1 = N) : RoundZero N k [] where
  mem := List.forall_mem_nil _
  all i hi hki := absurd hki (by omega)
  pairwise := .nil

theorem RoundZero.cons (h : RoundZero N k pairs) (hk : k < N) : RoundZero N k ((0, (k : Int)) :: pairs) where
  mem := List.forall_mem_cons.2 ⟨⟨rfl, k, hk, le_rfl, rfl⟩, h.mem⟩
  all i hi hki := List.mem_cons_of_mem _ (h.all i hi hki)
  pairwise := by
    refine List.pairwise_cons.2 ⟨fun a ha => .inr ?_, h.pairwise⟩
    obtain ⟨hround, i, -, hki, heq⟩ := h.mem a ha
    refine ⟨hround.symm, ?_⟩
    rw [heq]
    exact Int.ofNat_le.2 hki

/-- From `k` the choices go on to the next node. -/
theorem RoundZero.advance (h : RoundZero N (k + 1) pairs) (hmem : (0, ((k + 1 : Nat) : Int)) ∈ pairs) :
    RoundZero N k pairs where
  mem a ha := by
    obtain ⟨hround, i, hi, hki, heq⟩ := h.mem a ha
    exact ⟨hround, i, hi, by omega, heq⟩
  all i hi hki := by
    rcases eq_or_lt_of_le (Nat.succ_le_of_lt hki) with rfl | hlt
    · exact hmem
    · exact h.all i hi hlt
  pairwise := h.pairwise

/-- What is left of a cycle after a choice at `k` is spent in round 0, and ends at the last node. -/
theorem Cycle.roundZero (hs : s.Weighted N) (hlen : p.workerNodes.length = N) (hc : Cycle p s' pairs s'')
    (h : At s s' k v) (hk : k < N) :
    RoundZero N k pairs ∧ (v < s.workerWeight k → (0, (k : Int)) ∈ pairs) ∧
      ∃ i v', i + 1 = N ∧ Wrapped s s'' i v' := by
  induction hc generalizing k v with
  | wrap hchoose hback =>
    cases h.turns hs hk hlen with
    | stay _ _ hs' _ | advance _ _ _ hs' _ => cases hchoose.symm.trans hs'
    | wrap t hv hlast hs' hwrap =>
      cases hchoose.symm.trans hs'
      exact ⟨.nil hlast, fun hlt => absurd hv (not_le.2 hlt), k, v, hlast, hwrap⟩
  | skip hchoose hback _ _ =>
    cases h.turns hs hk hlen with
    | stay _ _ hs' _ | advance _ _ _ hs' _ => cases hchoose.symm.trans hs'
    | wrap t hv hlast hs' hwrap =>
      cases hchoose.symm.trans hs'
      exact absurd ⟨hwrap.roundId, hwrap.workerNodeId⟩ hback
  | assign hchoose _ ih =>
    cases h.turns hs hk hlen with
    | stay t hv hs' hat =>
      cases hchoose.symm.trans hs'
      obtain ⟨hzero, -, hend⟩ := ih hat hk
      rw [hat.roundId]
      exact ⟨hzero.cons hk, fun _ => List.mem_cons_self, hend⟩
    | advance t hv hlast hs' hat =>
      cases hchoose.symm.trans hs'
      obtain ⟨hzero, -, hend⟩ := ih hat hlast
      rw [hat.roundId]
      exact ⟨(hzero.cons hlast).advance List.mem_cons_self, fun hlt => absurd hv (not_le.2 hlt), hend⟩
    | wrap _ _ _ hs' _ => cases hchoose.symm.trans hs'

/-- The run times of the tasks of a node, added as doubles, come to its weight. -/
def Reaches (s : InterleavedWeightedRoundRobin) (p : Pool Data Response) (k : Nat) : Prop :=
  ∃ m, s.workerWeight k ≤ times 53 (s.runTimeOf p k) m

/-- They do unless a run time is lost beside the weight. -/
theorem reaches_of_lt (hR : 0 < s.runTimeOf p k) (h : s.workerWeight k < (2 ^ 53 - 1) * s.runTimeOf p k) :
    s.Reaches p k := exists_le_times (by decide) hR h

/-- From the node chosen last, which has been charged `m` times, the strategy comes back to its start. -/
theorem At.exists_cycle (hs : s.Weighted N) (hlen : p.workerNodes.length = N) (hR : ∀ i < N, 0 < s.runTimeOf p i)
    (hreach : ∀ i < N, k ≤ i → s.Reaches p i) {m : Nat} (h : At s s' k (times 53 (s.runTimeOf p k) m)) (hk : k < N) :
    ∃ pairs s'', Cycle p s' pairs s'' := by
  -- by induction on the nodes after this one, and on the choices that use up the time it has left
  induction hd : N - k generalizing s' k m with
  | zero => omega
  | succ d ihd =>
    obtain ⟨M, hM⟩ := hreach k hk le_rfl
    have hnext (t : InterleavedWeightedRoundRobin) (hlast : k + 1 < N)
        (hat : At s t (k + 1) (addDoubles 0 (s.runTimeOf p (k + 1)))) : ∃ pairs s'', Cycle p t pairs s'' :=
      ihd (m := 1) (fun i hi hki => hreach i hi (by omega)) hat hlast (by omega)
    induction hleft : M - m generalizing s' m with
    | zero =>
      cases h.turns hs hk hlen with
      | stay _ hv _ _ =>
        have hmono := times_mono (p := 53) (by decide) (hR k hk).le (show M ≤ m by omega)
        exact absurd hv (not_lt.2 (hM.trans hmono))
      | advance t hv hlast hs' hat =>
        obtain ⟨pairs, s'', hc⟩ := hnext t hlast hat
        exact ⟨_, s'', .assign hs' hc⟩
      | wrap t hv hlast hs' hwrap => exact ⟨[], t, .wrap hs' ⟨hwrap.roundId, hwrap.workerNodeId⟩⟩
    | succ left ihm =>
      cases h.turns hs hk hlen with
      | stay t hv hs' hat =>
        obtain ⟨pairs, s'', hc⟩ := ihm (m := m + 1) hat (by omega)
        exact ⟨_, s'', .assign hs' hc⟩
      | advance t hv hlast hs' hat =>
        obtain ⟨pairs, s'', hc⟩ := hnext t hlast hat
        exact ⟨_, s'', .assign hs' hc⟩
      | wrap t hv hlast hs' hwrap => exact ⟨[], t, .wrap hs' ⟨hwrap.roundId, hwrap.workerNodeId⟩⟩

/-- It leaves a node for the weight that its tasks have come to. -/
theorem Cycle.reaches (hs : s.Weighted N) (hlen : p.workerNodes.length = N) (hc : Cycle p s' pairs s'') {m : Nat}
    (h : At s s' k (times 53 (s.runTimeOf p k) m)) (hk : k < N) : ∀ i < N, k ≤ i → s.Reaches p i := by
  induction hc generalizing k m with
  | wrap hchoose hback | skip hchoose hback _ _ =>
    cases h.turns hs hk hlen with
    | stay _ _ hs' _ | advance _ _ _ hs' _ => cases hchoose.symm.trans hs'
    | wrap t hv hlast hs' hwrap =>
      intro i hi hki
      obtain rfl : i = k := by omega
      exact ⟨m, hv⟩
  | assign hchoose _ ih =>
    cases h.turns hs hk hlen with
    | stay t hv hs' hat =>
      cases hchoose.symm.trans hs'
      exact ih (m := m + 1) hat hk
    | advance t hv hlast hs' hat =>
      cases hchoose.symm.trans hs'
      intro i hi hki
      rcases eq_or_lt_of_le hki with rfl | hlt
      · exact ⟨m, hv⟩
      · exact ih (m := 1) hat hlast i hi hlt
    | wrap _ _ _ hs' _ => cases hchoose.symm.trans hs'

/-- Where a cycle begins: after `reset`, or at the end of a cycle. -/
def AtStart (s s' : InterleavedWeightedRoundRobin) (N : Nat) : Prop :=
  At s s' 0 0 ∨ ∃ k v, k + 1 = N ∧ Wrapped s s' k v

/-- A cycle ends if and only if it can leave every node. -/
theorem AtStart.exists_cycle_iff (hs : s.Weighted N) (hN : 2 ≤ N) (hlen : p.workerNodes.length = N)
    (hR : ∀ i < N, 0 < s.runTimeOf p i) (h : AtStart s s' N) :
    (∃ pairs s'', Cycle p s' pairs s'') ↔ ∀ i < N, s.Reaches p i := by
  rcases h with hat | ⟨k, v, hk, hwrap⟩
  · constructor
    · rintro ⟨pairs, s'', hc⟩
      exact fun i hi => hc.reaches hs hlen (m := 0) hat (by omega) i hi (Nat.zero_le i)
    · exact fun hreach => At.exists_cycle hs hlen hR (fun i hi _ => hreach i hi) (m := 0) hat (by omega)
  · obtain ⟨t, hs', hat⟩ := hwrap.restart hs (by omega) (by omega) hlen
    constructor
    · rintro ⟨pairs, s'', hc⟩
      cases hc with
      | wrap hchoose _ | skip hchoose _ _ => cases hchoose.symm.trans hs'
      | assign hchoose hc =>
        cases hchoose.symm.trans hs'
        exact fun i hi => hc.reaches hs hlen (m := 1) hat (by omega) i hi (Nat.zero_le i)
    · intro hreach
      obtain ⟨pairs, s'', hc⟩ := At.exists_cycle hs hlen hR (fun i hi _ => hreach i hi) (m := 1) hat (by omega)
      exact ⟨_, s'', .assign hs' hc⟩

/-- A whole cycle is spent in round 0. -/
theorem Cycle.wholeRound (hs : s.Weighted N) (hN : 2 ≤ N) (hlen : p.workerNodes.length = N)
    (h : AtStart s s' N) (hc : Cycle p s' pairs s'') :
    RoundZero N 0 pairs ∧ (0, 0) ∈ pairs ∧ AtStart s s'' N := by
  rcases h with hat | ⟨k, v, hk, hwrap⟩
  · obtain ⟨hzero, hmem, i, v', hend⟩ := hc.roundZero hs hlen hat (by omega)
    exact ⟨hzero, hmem (hs.positive 0 (by omega)), .inr ⟨i, v', hend⟩⟩
  · obtain ⟨t, hs', hat⟩ := hwrap.restart hs (by omega) (by omega) hlen
    cases hc with
    | wrap hchoose _ | skip hchoose _ _ => cases hchoose.symm.trans hs'
    | assign hchoose hc =>
      cases hchoose.symm.trans hs'
      obtain ⟨hzero, -, i, v', hend⟩ := hc.roundZero hs hlen hat (by omega)
      rw [hat.roundId]
      exact ⟨hzero.cons (by omega), List.mem_cons_self, .inr ⟨i, v', hend⟩⟩

/-- The cycles after `reset`, one after the other. -/
abbrev Cycles (p : Pool Data Response) (s s' : InterleavedWeightedRoundRobin) : Prop :=
  ReflTransGen (fun a b => ∃ pairs, Cycle p a pairs b) s s'

theorem atStart_of_cycles (hs : s.Weighted N) (hN : 2 ≤ N) (hlen : p.workerNodes.length = N)
    (h : Cycles p s.reset s') : AtStart s s' N := by
  refine inv_of_chain (I := fun c => AtStart s c N) ?_ h (.inl (at_reset s))
  rintro a b ⟨pairs, hc⟩ ha
  exact (hc.wholeRound hs hN hlen ha).2.2

/-- Round 0 visits every node, and is the only round where all weights are equal. -/
theorem RoundZero.visitsRounds_iff (hs : s.Weighted N) (hN : 0 < N) (h : RoundZero N 0 pairs) (hmem : (0, 0) ∈ pairs) :
    VisitsRounds s N pairs ↔ ∀ i < N, ∀ j < N, s.workerWeight (i : Nat) = s.workerWeight (j : Nat) := by
  obtain ⟨W, rest, hW, hle⟩ := hs.first_round hN
  constructor
  · rintro ⟨hvisits, -⟩
    have hfirst (i : Nat) (hi : i < N) : s.workerWeight i = W := by
      obtain ⟨r, hr⟩ := List.mem_iff_getElem?.1 ((hs.mem_roundWeights hN).2 ⟨i, hi, rfl⟩)
      have hpair := (hvisits r i).2 ⟨i, hi, rfl, _, hr, le_rfl⟩
      have hround : r = 0 := (h.mem _ hpair).1
      rw [hround, hW, List.getElem?_cons_zero] at hr
      exact (Option.some.inj hr).symm
    intro i hi j hj
    rw [hfirst i hi, hfirst j hj]
  · intro heq
    refine ⟨fun r k => ⟨fun hpair => ?_, ?_⟩, h.pairwise⟩
    · obtain ⟨rfl, i, hi, -, rfl⟩ := h.mem _ hpair
      exact ⟨i, hi, rfl, W, by rw [hW]; rfl, hle i hi⟩
    · rintro ⟨i, hi, rfl, w, hr, -⟩
      -- two round weights are weights of nodes, so there is only one
      have hround : r = 0 := by
        by_contra hr0
        have hlt : W < w := by
          have hsorted := hs.pairwise_roundWeights
          obtain ⟨r, rfl⟩ := Nat.exists_eq_succ_of_ne_zero hr0
          rw [hW] at hsorted hr
          exact List.rel_of_pairwise_cons hsorted (List.mem_of_getElem? hr)
        obtain ⟨a, ha, haw⟩ := (hs.mem_roundWeights hN).1 (List.mem_of_getElem? hr)
        obtain ⟨b, hb, hbW⟩ := (hs.mem_roundWeights hN).1 (by rw [hW]; exact List.mem_cons_self)
        rw [← haw, ← hbW, heq a ha b hb] at hlt
        exact lt_irrefl _ hlt
      subst hround
      rcases Nat.eq_zero_or_pos i with rfl | hpos
      · exact hmem
      · exact h.all i hi hpos

/-- A cycle ends unless the time of a node stops short of its weight, and visits each node in its rounds exactly if
all weights are equal. -/
theorem cycle_visitsRounds_iff (hs : s.Weighted N) (hN : 2 ≤ N) (hlen : p.workerNodes.length = N)
    (hR : ∀ n ∈ p.workerNodes, 0 < s.getWorkerNodeTaskRunTime n) (h : Cycles p s.reset s') :
    ((∃ pairs s'', Cycle p s' pairs s'') ↔ ∀ i < N, s.Reaches p i) ∧ ∀ pairs s'', Cycle p s' pairs s'' →
      (VisitsRounds s N pairs ↔ ∀ i < N, ∀ j < N, s.workerWeight (i : Nat) = s.workerWeight (j : Nat)) := by
  have hstart := atStart_of_cycles hs hN hlen h
  have hR' : ∀ i < N, 0 < s.runTimeOf p i := fun i hi =>
    AbstractWorkerChoiceStrategy.runTimeOf_of_forall hR (hlen ▸ hi)
  refine ⟨hstart.exists_cycle_iff hs hN hlen hR', fun pairs s'' hc => ?_⟩
  obtain ⟨hzero, hmem, -⟩ := hc.wholeRound hs hN hlen hstart
  exact hzero.visitsRounds_iff hs (by omega) hmem

end Cycles

/-- Two nodes of equal weight. -/
theorem cycle_visitsRounds_equal_weights :
    (∃ pairs s'', Cycle (measuredPool [1, 2]) (initial none 5).reset pairs s'') ∧
      ∀ pairs s'', Cycle (measuredPool [1, 2]) (initial none 5).reset pairs s'' →
        (VisitsRounds (initial none 5) 2 pairs ↔
          ∀ i < 2, ∀ j < 2, (initial none 5).workerWeight (i : Nat) = (initial none 5).workerWeight (j : Nat)) := by
  obtain ⟨hends, hvisits⟩ := cycle_visitsRounds_iff (weighted_initial (by decide) 2) le_rfl
    (p := measuredPool [1, 2]) (s := initial none 5) rfl (by
      simp [measuredPool, initial, AbstractWorkerChoiceStrategy.getWorkerNodeTaskRunTime]) .refl
  have hpos : ∀ i < 2, 0 < (initial none 5).runTimeOf (measuredPool [1, 2]) i := by decide +kernel
  have hlt : ∀ i < 2, (initial none 5).workerWeight (i : Nat) <
      (2 ^ 53 - 1) * (initial none 5).runTimeOf (measuredPool [1, 2]) i := by decide +kernel
  exact ⟨hends.2 fun i hi => reaches_of_lt (hpos i hi) (hlt i hi), hvisits⟩

/-- The weights 1 and 2 of two nodes. -/
def twoWeights : AList fun _ : Int => ℚ := (AList.insert 0 1 ∅).insert 1 2

theorem weighted_twoWeights : (initial (some twoWeights) 1).Weighted 2 where
  positive k hk := by
    rcases Nat.le_one_iff_eq_zero_or_eq_one.1 (Nat.le_of_lt_succ hk) with rfl | rfl
    · decide +kernel
    · decide +kernel
  keys weights h k := by
    have hweights : twoWeights = weights := Option.some.inj h
    rw [← hweights, twoWeights, AList.mem_insert, AList.mem_insert]
    have hempty : k ∉ (∅ : AList fun _ : Int => ℚ) := AList.notMem_empty k
    simp only [hempty, or_false]
    omega
  roundWeights := rfl

/-- With weights 1 and 2 the second node is never chosen in round 1. -/
theorem second_round_idle : ¬ ∀ (N : Nat) (s s' s'' : InterleavedWeightedRoundRobin) (p : Pool Unit Unit)
    (pairs : List (Nat × Int)), 2 ≤ N → s.Weighted N → p.workerNodes.length = N →
    (∀ n ∈ p.workerNodes, 0 < s.getWorkerNodeTaskRunTime n) → Cycles p s.reset s' → Cycle p s' pairs s'' →
    VisitsRounds s N pairs := by
  intro h
  have hs := weighted_twoWeights
  have hR : ∀ n ∈ (measuredPool [1, 1]).workerNodes, 0 < (initial (some twoWeights) 1).getWorkerNodeTaskRunTime n := by
    simp [measuredPool, initial, AbstractWorkerChoiceStrategy.getWorkerNodeTaskRunTime]
  have hstart : AtStart (initial (some twoWeights) 1) (initial (some twoWeights) 1).reset 2 := .inl (at_reset _)
  have hreach : ∀ i < 2, (initial (some twoWeights) 1).workerWeight (i : Nat) ≤
      times 53 ((initial (some twoWeights) 1).runTimeOf (measuredPool [1, 1]) i) 2 := by decide +kernel
  obtain ⟨pairs, s'', hc⟩ := (hstart.exists_cycle_iff hs le_rfl (p := measuredPool [1, 1]) rfl (by decide +kernel)).2
    fun i hi => ⟨2, hreach i hi⟩
  obtain ⟨hzero, hmem, -⟩ := hc.wholeRound hs le_rfl rfl hstart
  have hvisits := h 2 _ _ s'' _ pairs le_rfl hs rfl hR .refl hc
  have heq := (hzero.visitsRounds_iff hs (by decide) hmem).1 hvisits 0 (by decide) 1 (by decide)
  exact absurd heq (by decide +kernel)

end InterleavedWeightedRoundRobin

/-! ## Weighted round robin -/

namespace WeightedRoundRobin

/-- What `n` successive calls of `choose` return. -/
def chooseTimes (p : Pool Data Response) : Nat → WeightedRoundRobin → List (Except JsError (Option Int))
  | 0, _ => []
  | n + 1, s => (s.choose p).1 :: chooseTimes p n (s.choose p).2

/-- The key of block `j`. -/
def blockKey (N j : Nat) : Except JsError (Option Int) := .ok (some ((j % N : Nat) : Int))

/-- The number of choices whose run times reach the weight of a node. -/
def choicesToWeight (s : WeightedRoundRobin) (p : Pool Data Response) (k : Nat) : Nat :=
  ⌈s.workerWeight k / s.runTimeOf p k⌉₊

/-- The length of block `j`, as the weights ask for it. -/
def blockLength (s : WeightedRoundRobin) (p : Pool Data Response) (N j : Nat) : Nat := choicesToWeight s p (j % N)

/-- The choices of `q` blocks from block `j` on, where block `i` has `len i` of them. -/
def blocks (N : Nat) (len : Nat → Nat) (j q : Nat) : List (Except JsError (Option Int)) :=
  (List.range' j q).flatMap fun i => List.replicate (len i) (blockKey N i)

/-- The choices before block `j`. -/
def choicesBefore (s : WeightedRoundRobin) (p : Pool Data Response) (N : Nat) : Nat → Nat
  | 0 => 0
  | j + 1 => choicesBefore s p N j + blockLength s p N j

/-- How many of the first `u` choices of block `j` are charged: the first one of a block is not, but for that of block 0. -/
def charges (j u : Nat) : Nat := if j = 0 then u else u - 1

/-- The run times charged, added as doubles, are less than the weight just as long as choices are left in the block. -/
def ReachesInTime (s : WeightedRoundRobin) (p : Pool Data Response) (N n : Nat) : Prop :=
  ∀ j, ∀ u ≤ blockLength s p N j, choicesBefore s p N j + u < n →
    (times 53 (s.runTimeOf p (j % N)) (charges j u) < s.workerWeight (j % N : Nat) ↔ u < blockLength s p N j)

/-- The strategy is in block `j`, whose node has been charged `m` times. -/
structure InBlock (s : WeightedRoundRobin) (p : Pool Data Response) (N : Nat) (s' : WeightedRoundRobin) (j m : Nat) :
    Prop where
  opts : s'.opts = s.opts
  defaultWorkerWeight : s'.defaultWorkerWeight = s.defaultWorkerWeight
  taskStatisticsRequirements : s'.taskStatisticsRequirements = s.taskStatisticsRequirements
  nextWorkerNodeKey : s'.nextWorkerNodeKey = some ((j % N : Nat) : Int)
  runTime : s'.workerNodeVirtualTaskRunTime = times 53 (s.runTimeOf p (j % N)) m

section Blocks
variable {s s' : WeightedRoundRobin} {N j m n : Nat} {p : Pool Data Response}

@[simp] theorem blocks_succ (N : Nat) (len : Nat → Nat) (j q : Nat) :
    blocks N len j (q + 1) = List.replicate (len j) (blockKey N j) ++ blocks N len (j + 1) q := rfl

/-- The first choice of a block, and those that follow it. -/
theorem exists_prefix_blocks_iff {len : Nat → Nat} (hlen : 0 < len j) {b : Except JsError (Option Int)}
    {l : List (Except JsError (Option Int))} : (∃ q, b :: l <+: blocks N len j q) ↔
      b = blockKey N j ∧ ∃ q, l <+: List.replicate (len j - 1) (blockKey N j) ++ blocks N len (j + 1) q := by
  obtain ⟨t, ht⟩ := Nat.exists_eq_succ_of_ne_zero hlen.ne'
  simp only [ht, Nat.succ_sub_one]
  constructor
  · rintro ⟨q, hq⟩
    cases q with
    | zero => exact absurd hq.length_le (by simp [blocks])
    | succ q =>
      rw [blocks_succ, ht, List.replicate_succ, List.cons_append, List.cons_prefix_cons] at hq
      exact ⟨hq.1, q, hq.2⟩
  · rintro ⟨rfl, q, hq⟩
    refine ⟨q + 1, ?_⟩
    rw [blocks_succ, ht, List.replicate_succ, List.cons_append, List.cons_prefix_cons]
    exact ⟨rfl, hq⟩

theorem charges_succ {u : Nat} (hu : j = 0 ∨ 1 ≤ u) : charges j (u + 1) = charges j u + 1 := by
  unfold charges
  split <;> omega

theorem succ_mod_eq (hN : 0 < N) : (j + 1) % N = if j % N = N - 1 then 0 else j % N + 1 := by
  have hlt := Nat.mod_lt j hN
  rw [← Nat.mod_add_mod]
  split
  · rename_i hlast
    rw [hlast, Nat.sub_add_cancel hN, Nat.mod_self]
  · exact Nat.mod_eq_of_lt (by omega)

theorem blockKey_succ_ne (hN : 2 ≤ N) (j : Nat) : blockKey N (j + 1) ≠ blockKey N j := by
  intro h
  simp only [blockKey, Except.ok.injEq, Option.some.injEq, Nat.cast_inj] at h
  rw [succ_mod_eq (by omega)] at h
  split at h <;> omega

theorem InBlock.workerWeight (h : InBlock s p N s' j m) (k : Int) : s'.workerWeight k = s.workerWeight k := by
  simp only [WeightedRoundRobin.workerWeight, h.opts, h.defaultWorkerWeight]

theorem inBlock_reset (s : WeightedRoundRobin) (p : Pool Data Response) (N : Nat) : InBlock s p N s.reset 0 0 where
  opts := rfl
  defaultWorkerWeight := rfl
  taskStatisticsRequirements := rfl
  nextWorkerNodeKey := by
    rw [Nat.zero_mod]
    rfl
  runTime := rfl

/-- A call that charges the node of the block. -/
theorem InBlock.stay (h : InBlock s p N s' j m) (hlen : p.workerNodes.length = N) (hN : 0 < N)
    (hv : times 53 (s.runTimeOf p (j % N)) m < s.workerWeight (j % N : Nat)) :
    ∃ s'', s'.choose p = (blockKey N j, s'') ∧ InBlock s p N s'' j (m + 1) := by
  obtain ⟨n, hn, hrun⟩ := s.runTimeOf_eq (p := p) (k := j % N) (by rw [hlen]; exact Nat.mod_lt j hN)
  have hnode : p.workerNode? (j % N : Nat) = some n := hn
  refine ⟨{ s' with
    previousWorkerNodeKey := (j % N : Nat)
    workerNodeVirtualTaskRunTime := addDoubles s'.workerNodeVirtualTaskRunTime (s.runTimeOf p (j % N)) }, ?_, ?_⟩
  · have hreq : s'.getWorkerNodeTaskRunTime n = s.getWorkerNodeTaskRunTime n := by
      simp only [AbstractWorkerChoiceStrategy.getWorkerNodeTaskRunTime, h.taskStatisticsRequirements]
    simp only [choose, weightedRoundRobinNextWorkerNodeKey, AbstractWorkerChoiceStrategy.currentWorkerNodeKey,
      AbstractWorkerChoiceStrategy.setPreviousWorkerNodeKey, h.nextWorkerNodeKey, Option.getD_some]
    rw [if_pos, hnode, hrun, ← hreq]
    · rfl
    · rw [h.runTime]
      exact hv.trans_eq (h.workerWeight _).symm
  · refine ⟨h.opts, h.defaultWorkerWeight, h.taskStatisticsRequirements, h.nextWorkerNodeKey, ?_⟩
    dsimp only
    rw [h.runTime]
    rfl

/-- A call that goes on to the next block charges nothing. -/
theorem InBlock.next (h : InBlock s p N s' j m) (hN : 0 < N) (hlen : p.workerNodes.length = N)
    (hv : ¬ times 53 (s.runTimeOf p (j % N)) m < s.workerWeight (j % N : Nat)) :
    ∃ s'', s'.choose p = (blockKey N (j + 1), s'') ∧ InBlock s p N s'' (j + 1) 0 := by
  have hfollow : (if (j % N : Nat) = p.lastKey then 0 else ((j % N : Nat) : Int) + 1) = ((j + 1) % N : Nat) := by
    have hlast : ((j % N : Nat) : Int) = p.lastKey ↔ j % N = N - 1 := by
      simp only [Pool.lastKey]
      omega
    rw [succ_mod_eq hN]
    simp only [hlast]
    split <;> rfl
  refine ⟨{ s' with
    previousWorkerNodeKey := (j % N : Nat)
    nextWorkerNodeKey := some ((j + 1) % N : Nat)
    workerNodeVirtualTaskRunTime := 0 }, ?_, ?_⟩
  · simp only [choose, weightedRoundRobinNextWorkerNodeKey, AbstractWorkerChoiceStrategy.currentWorkerNodeKey,
      AbstractWorkerChoiceStrategy.setPreviousWorkerNodeKey, AbstractWorkerChoiceStrategy.followingWorkerNodeKey,
      h.nextWorkerNodeKey, Option.getD_some, Option.some.injEq]
    rw [if_neg, hfollow]
    · rfl
    · rw [h.runTime]
      exact fun hlt => hv (hlt.trans_eq (h.workerWeight _))
  · exact ⟨h.opts, h.defaultWorkerWeight, h.taskStatisticsRequirements, rfl, rfl⟩

theorem choicesBefore_mono (s : WeightedRoundRobin) (p : Pool Data Response) (N : Nat) : Monotone (choicesBefore s p N) :=
  monotone_nat_of_le_succ fun _ => Nat.le_add_right _ _

/-- From a choice on the choices are as the weights ask for exactly if the run times charged are less than the weight
just as long as choices are left in a block. -/
theorem InBlock.blocks_iff (hN : 2 ≤ N) (hlen : p.workerNodes.length = N) (hw : ∀ k < N, 0 < s.workerWeight (k : Nat))
    (hpos : ∀ k < N, 0 < choicesToWeight s p k) {u : Nat} (h : InBlock s p N s' j (charges j u)) (hu : j = 0 ∨ 1 ≤ u)
    (hle : u ≤ blockLength s p N j) (n : Nat) :
    (∃ q, chooseTimes p n s' <+: List.replicate (blockLength s p N j - u) (blockKey N j) ++
        blocks N (blockLength s p N) (j + 1) q) ↔
      ∀ i, ∀ v ≤ blockLength s p N i, (j < i ∨ i = j ∧ u ≤ v) →
        choicesBefore s p N i + v < choicesBefore s p N j + u + n →
        (times 53 (s.runTimeOf p (i % N)) (charges i v) < s.workerWeight (i % N : Nat) ↔
          v < blockLength s p N i) := by
  have hbefore (i : Nat) (hi : j < i) : choicesBefore s p N j + blockLength s p N j ≤ choicesBefore s p N i :=
    choicesBefore_mono s p N (Nat.succ_le_of_lt hi)
  induction n generalizing s' j u with
  | zero =>
    refine ⟨fun _ i v _ hi hlt => ?_, fun _ => ⟨0, List.nil_prefix⟩⟩
    rcases hi with hi | ⟨rfl, hv⟩
    · have := hbefore i hi
      omega
    · omega
  | succ n ih =>
    rcases Nat.lt_or_ge u (blockLength s p N j) with hlt | hge
    · -- choices are left in the block
      obtain ⟨t, ht⟩ : ∃ t, blockLength s p N j - u = t + 1 := ⟨blockLength s p N j - u - 1, by omega⟩
      by_cases hv : times 53 (s.runTimeOf p (j % N)) (charges j u) < s.workerWeight (j % N : Nat)
      · obtain ⟨s'', hs'', hstay⟩ := h.stay hlen (by omega) hv
        rw [← charges_succ hu] at hstay
        have hrest := ih hstay (.inr (by omega)) hlt hbefore
        have hleft : blockLength s p N j - (u + 1) = t := by omega
        simp only [chooseTimes, hs'', ht, List.replicate_succ, List.cons_append, List.cons_prefix_cons, true_and]
        rw [hleft] at hrest
        refine Iff.trans hrest ?_
        constructor
        · intro hall i v hvi hi hpos
          by_cases hhere : i = j ∧ v = u
          · obtain ⟨rfl, rfl⟩ := hhere
            exact iff_of_true hv hlt
          · exact hall i v hvi (by omega) (by omega)
        · exact fun hall i v hvi hi hpos => hall i v hvi (by omega) (by omega)
      · obtain ⟨s'', hs'', -⟩ := h.next (by omega) hlen hv
        simp only [chooseTimes, hs'', ht, List.replicate_succ, List.cons_append, List.cons_prefix_cons]
        refine iff_of_false (fun ⟨_, heq, _⟩ => blockKey_succ_ne hN j heq) fun hall => hv ?_
        exact (hall j u hle (.inr ⟨rfl, le_rfl⟩) (by omega)).2 hlt
    · -- the next choice is the first one of the next block
      obtain rfl : u = blockLength s p N j := le_antisymm hle hge
      have hnext : 0 < blockLength s p N (j + 1) := hpos ((j + 1) % N) (Nat.mod_lt _ (by omega))
      rw [Nat.sub_self, List.replicate_zero]
      simp only [chooseTimes, List.nil_append, exists_prefix_blocks_iff hnext]
      by_cases hv : times 53 (s.runTimeOf p (j % N)) (charges j (blockLength s p N j)) < s.workerWeight (j % N : Nat)
      · obtain ⟨s'', hs'', -⟩ := h.stay hlen (by omega) hv
        rw [hs'']
        refine iff_of_false (fun hq => blockKey_succ_ne hN j hq.1.symm) fun hall => ?_
        exact lt_irrefl _ ((hall j _ le_rfl (.inr ⟨rfl, le_rfl⟩) (by omega)).1 hv)
      · obtain ⟨s'', hs'', hin⟩ := h.next (by omega) hlen hv
        have hone : charges (j + 1) 1 = 0 := rfl
        rw [← hone] at hin
        have hrest := ih hin (.inr le_rfl) hnext fun i hi => choicesBefore_mono s p N (Nat.succ_le_of_lt hi)
        have hstart : choicesBefore s p N (j + 1) = choicesBefore s p N j + blockLength s p N j := rfl
        rw [hs'']
        simp only [true_and]
        refine Iff.trans hrest ?_
        constructor
        · intro hall i v hvi hi hlt
          rcases Nat.lt_trichotomy i (j + 1) with hij | rfl | hij
          · obtain ⟨rfl, hvu⟩ : i = j ∧ blockLength s p N j ≤ v := by omega
            obtain rfl : v = blockLength s p N i := le_antisymm hvi hvu
            exact iff_of_false hv (lt_irrefl _)
          · cases v with
            | zero => exact iff_of_true (hw _ (Nat.mod_lt _ (by omega))) hnext
            | succ v => exact hall (j + 1) (v + 1) hvi (.inr ⟨rfl, by omega⟩) (by omega)
          · exact hall i v hvi (.inl hij) (by omega)
        · exact fun hall i v hvi hi hlt => hall i v hvi (by omega) (by omega)

/-- The choices go through the nodes in blocks, each of as many choices as it takes to reach the weight. -/
def InWeightedBlocks (s : WeightedRoundRobin) (p : Pool Data Response) (N n : Nat) : Prop :=
  ∃ q, chooseTimes p n s.reset <+: blocks N (blockLength s p N) 0 q

theorem choicesToWeight_pos {k : Nat} (hw : 0 < s.workerWeight k) (hR : 0 < s.runTimeOf p k) :
    0 < choicesToWeight s p k := Nat.ceil_pos.2 (div_pos hw hR)

theorem inWeightedBlocks_iff_reachesInTime (hN : 2 ≤ N) (hlen : p.workerNodes.length = N)
    (hw : ∀ k < N, 0 < s.workerWeight (k : Nat)) (hR : ∀ k < N, 0 < s.runTimeOf p k) (n : Nat) :
    InWeightedBlocks s p N n ↔ s.ReachesInTime p N n := by
  have hpos : ∀ k < N, 0 < choicesToWeight s p k := fun k hk => choicesToWeight_pos (hw k hk) (hR k hk)
  have hiff := (inBlock_reset s p N).blocks_iff hN hlen hw hpos (u := 0) (.inl rfl) (Nat.zero_le _) n
  have hfirst : InWeightedBlocks s p N n ↔ ∃ q, chooseTimes p n s.reset <+:
      List.replicate (blockLength s p N 0 - 0) (blockKey N 0) ++
        blocks N (blockLength s p N) (0 + 1) q := by
    constructor
    · rintro ⟨q, hq⟩
      cases q with
      | zero => exact ⟨0, hq.trans List.nil_prefix⟩
      | succ q => exact ⟨q, hq⟩
    · rintro ⟨q, hq⟩
      exact ⟨q + 1, hq⟩
  rw [hfirst, hiff]
  simp only [choicesBefore, Nat.zero_add]
  refine forall_congr' fun i => forall₂_congr fun v _ => ?_
  have htrue : 0 < i ∨ i = 0 ∧ 0 ≤ v := by omega
  simp only [htrue, forall_const]

/-- Sums that are not rounded are less than the weight as long as choices are left. -/
theorem lt_workerWeight_iff {k : Nat} (hR : 0 < s.runTimeOf p k) (m : Nat) :
    m * s.runTimeOf p k < s.workerWeight (k : Nat) ↔ m < choicesToWeight s p k := by
  rw [choicesToWeight, Nat.lt_ceil, lt_div_iff₀ hR]

/-- Where no sum is rounded, this ends with the second block. -/
theorem reachesInTime_iff_of_exact (hN : 2 ≤ N) (hw : ∀ k < N, 0 < s.workerWeight (k : Nat))
    (hR : ∀ k < N, 0 < s.runTimeOf p k)
    (hexact : ∀ k < N, ∀ m ≤ choicesToWeight s p k, times 53 (s.runTimeOf p k) m = m * s.runTimeOf p k) (n : Nat) :
    s.ReachesInTime p N n ↔ n ≤ choicesToWeight s p 0 + choicesToWeight s p 1 := by
  have h0 : 0 % N = 0 := Nat.zero_mod N
  have h1 : 1 % N = 1 := Nat.mod_eq_of_lt (by omega)
  have hlength0 : blockLength s p N 0 = choicesToWeight s p 0 := by rw [blockLength, h0]
  have hlength1 : blockLength s p N 1 = choicesToWeight s p 1 := by rw [blockLength, h1]
  have hpos := choicesToWeight_pos (hw 1 (by omega)) (hR 1 (by omega))
  have hbefore1 : choicesBefore s p N 1 = choicesToWeight s p 0 := by
    rw [choicesBefore, choicesBefore, Nat.zero_add, hlength0]
  have hbefore2 : choicesBefore s p N 2 = choicesToWeight s p 0 + choicesToWeight s p 1 := by
    rw [choicesBefore, hbefore1, hlength1]
  -- in the second block one choice less is charged
  have hcharged {u : Nat} (hu : u ≤ choicesToWeight s p 1) :
      times 53 (s.runTimeOf p 1) (charges 1 u) < s.workerWeight (1 : Nat) := by
    have hcount : charges 1 u = u - 1 := rfl
    rw [hcount, hexact 1 (by omega) _ (by omega), lt_workerWeight_iff (hR 1 (by omega))]
    omega
  constructor
  · intro h
    by_contra hlt
    have hend := h 1 (choicesToWeight s p 1) hlength1.ge (by rw [hbefore1]; omega)
    rw [h1, hlength1] at hend
    exact lt_irrefl _ (hend.1 (hcharged le_rfl))
  · intro hn j u hu hlt
    rcases j with _ | _ | j
    · rw [hlength0] at hu ⊢
      have hcount : charges 0 u = u := rfl
      rw [h0, hcount, hexact 0 (by omega) u hu]
      exact lt_workerWeight_iff (hR 0 (by omega)) u
    · rw [Nat.zero_add, hlength1] at hu ⊢
      rw [Nat.zero_add, hbefore1] at hlt
      rw [h1]
      exact iff_of_true (hcharged hu) (by omega)
    · have hmono := choicesBefore_mono s p N (show 2 ≤ j + 1 + 1 by omega)
      omega

/-- A run of choices goes through the nodes in blocks as the weights ask for exactly as long as the run times that are
charged reach them in time; where no sum is rounded, as long as it does not go beyond the second block. -/
theorem inWeightedBlocks_iff (hN : 2 ≤ N) (hlen : p.workerNodes.length = N) (hw : ∀ k < N, 0 < s.workerWeight (k : Nat))
    (hR : ∀ n ∈ p.workerNodes, 0 < s.getWorkerNodeTaskRunTime n) (n : Nat) :
    (InWeightedBlocks s p N n ↔ s.ReachesInTime p N n) ∧
      ((∀ k < N, ∀ m ≤ choicesToWeight s p k, times 53 (s.runTimeOf p k) m = m * s.runTimeOf p k) →
        (InWeightedBlocks s p N n ↔ n ≤ choicesToWeight s p 0 + choicesToWeight s p 1)) := by
  have hR' : ∀ i < N, 0 < s.runTimeOf p i := fun i hi =>
    AbstractWorkerChoiceStrategy.runTimeOf_of_forall hR (hlen ▸ hi)
  have hiff := inWeightedBlocks_iff_reachesInTime hN hlen hw hR' n
  exact ⟨hiff, fun hexact => hiff.trans (reachesInTime_iff_of_exact hN hw hR' hexact n)⟩

end Blocks

/-- The constructor, with the default options. -/
def initial (defaultWorkerWeight : ℚ) : WeightedRoundRobin where
  nextWorkerNodeKey := some 0
  previousWorkerNodeKey := 0
  taskStatisticsRequirements := ⟨⟨true, true, false⟩, ⟨false, false, false⟩, ⟨false, false, false⟩⟩
  opts := ⟨some 6, none, false, false, false, none⟩
  defaultWorkerWeight
  workerNodeVirtualTaskRunTime := 0

/-- Two nodes of weight 5, which it takes three and two choices to reach. -/
theorem inWeightedBlocks_five : InWeightedBlocks (initial 5) (measuredPool [2, 3]) 2 5 := by
  have hiff := (inWeightedBlocks_iff (s := initial 5) (p := measuredPool [2, 3]) le_rfl rfl
    (fun _ _ => show (0 : ℚ) < 5 by decide) (by
      simp [measuredPool, initial, AbstractWorkerChoiceStrategy.getWorkerNodeTaskRunTime]) 5).2 (by decide +kernel)
  exact hiff.2 (by decide +kernel)

/-- With weights and run times 1 the second node is chosen twice in a row. -/
theorem second_block_too_long : ¬ ∀ (N n : Nat) (s : WeightedRoundRobin) (p : Pool Unit Unit), 2 ≤ N →
    p.workerNodes.length = N → (∀ k < N, 0 < s.workerWeight (k : Nat)) →
    (∀ n ∈ p.workerNodes, 0 < s.getWorkerNodeTaskRunTime n) → InWeightedBlocks s p N n := by
  intro h
  have hblocks := h 2 3 (initial 1) (measuredPool [1, 1]) le_rfl rfl (fun _ _ => one_pos) (by
    simp [measuredPool, initial, AbstractWorkerChoiceStrategy.getWorkerNodeTaskRunTime])
  have hreach := (inWeightedBlocks_iff_reachesInTime le_rfl rfl (fun _ _ => one_pos) (by decide +kernel) 3).1 hblocks
  -- the first choice of the second block is not charged
  exact absurd (hreach 1 1 (by decide +kernel) (by decide +kernel)) (by decide +kernel)

end WeightedRoundRobin

end Poolifier
