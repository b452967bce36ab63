import Poolifier.Lib.Cursor
import Poolifier.Started
import Poolifier.Strategies
/-!
# Cursors of the round robin strategies

The three round robin strategies keep a key of `workerNodes` between two
choices. Worker nodes are added at the end of the array and removed anywhere,
and `remove` adjusts the key. Each of the three is a cursor (`CursorLib`), so
the key stays in range exactly while every change is a safe one: `remove` does
not adjust a key that points behind the removed one, and leaves `-1` when the
array is empty.
-/

namespace Poolifier

open EffLib RunLib CursorLib

variable {Data Response : Type}

/-! ## Changes of the worker nodes -/

/-- What happens to `workerNodes` and a strategy. -/
inductive NodesEvent (Data : Type)
  | add (n : WorkerNode Data)
  | remove (k : Nat)
  | choose
  /-- The statistics, the flags or the queue of a node change. -/
  | change (k : Nat) (f : WorkerNode Data → WorkerNode Data)

/-- A cyclic strategy and the pool it serves. -/
abbrev Served (Data Response : Type) : Type := CyclicStrategy × Pool Data Response

namespace Served

def next (s : Served Data Response) : NodesEvent Data → Option (Served Data Response)
  | .add n => some (s.1, { s.2 with workerNodes := s.2.workerNodes ++ [n] })
  | .remove k =>
    if k < s.2.workerNodes.length then
      let p := { s.2 with workerNodes := s.2.workerNodes.eraseIdx k }
      some (s.1.remove p k, p)
    else none
  | .choose => if s.2.workerNodes.isEmpty then none else some ((s.1.choose s.2).2, s.2)
  | .change k f => some (s.1, s.2.modifyNode k f)

def Step (s : Served Data Response) (e : NodesEvent Data) (s' : Served Data Response) : Prop := s.next e = some s'

/-- A key that names a worker node. -/
def Names (s : Served Data Response) (k : Int) : Prop := 0 ≤ k ∧ k < s.2.workerNodes.length

/-- Where there are worker nodes, the cursor names one, and so does the key that is chosen. -/
def InRange (s : Served Data Response) : Prop :=
  s.2.workerNodes ≠ [] →
    (∃ c, s.1.cursor = some c ∧ s.Names c) ∧ ∀ k, (s.1.choose s.2).1 = .ok (some k) → s.Names k

/-- The changes that keep the cursor in range: no worker node is added to a pool that a removal
has emptied, and no worker node before the cursor is removed while the cursor is at the last one. -/
def Safe (s : Served Data Response) : NodesEvent Data → Prop
  | .add _ => s.2.workerNodes = [] → s.1.cursor = some 0
  | .remove k => s.1.cursor = some s.2.lastKey → (k : Int) = s.2.lastKey
  | .choose => True
  | .change _ _ => True

/-- What an event does to the cursor. -/
def toChange : NodesEvent Data → Change
  | .add _ => .grow
  | .remove k => .drop k
  | .choose => .walk
  | .change _ _ => .stay

/-- The strategy is the cursor `c`. -/
structure Shows (s : Served Data Response) (c : Cursor) : Prop where
  cursor : s.1.cursor = some c.pos
  size : s.2.workerNodes.length = c.size

variable {s s' : Served Data Response} {c : Cursor} {e : NodesEvent Data}

/-! ## What `remove` does -/

theorem reset_cursor (s : CyclicStrategy) : s.reset.cursor = some 0 := by
  cases s <;> rfl

theorem removePrevious_next (p : Pool Data Response) (k : Int) (s : AbstractWorkerChoiceStrategy) :
    (s.removePrevious p k).nextWorkerNodeKey = s.nextWorkerNodeKey := by
  unfold AbstractWorkerChoiceStrategy.removePrevious
  split <;> rfl

/-- All three adjust their cursor in the same way. -/
theorem remove_cursor (σ : CyclicStrategy) (p : Pool Data Response) (k : Nat) {pos : Int} (h : σ.cursor = some pos) :
    (σ.remove p k).cursor =
      let pos := if p.workerNodes.length = 0 then 0 else pos
      some (if pos = k ∧ pos > p.lastKey then p.lastKey else pos) := by
  cases σ with
  | roundRobin s =>
    have hs : (if p.workerNodes.length = 0 then RoundRobin.reset s else s).nextWorkerNodeKey =
        some (if p.workerNodes.length = 0 then 0 else pos) := by
      split
      · rfl
      · exact h
    simp only [CyclicStrategy.cursor, CyclicStrategy.remove, RoundRobin.remove, removePrevious_next]
    -- only the key after a possible reset matters from here on
    generalize (if p.workerNodes.length = 0 then RoundRobin.reset s else s) = s' at hs ⊢
    generalize (if p.workerNodes.length = 0 then 0 else pos) = pos' at hs ⊢
    simp only [hs, Option.some.injEq]
    by_cases hk : pos' = k
    · by_cases hgt : (k : Int) > p.lastKey <;> simp [hk, hgt, hs]
    · simp [hk, hs]
  | weightedRoundRobin s =>
    have hs : (if p.workerNodes.length = 0 then s.reset else s).nextWorkerNodeKey =
        some (if p.workerNodes.length = 0 then 0 else pos) := by
      split
      · rfl
      · exact h
    simp only [CyclicStrategy.cursor, CyclicStrategy.remove, WeightedRoundRobin.remove, removePrevious_next]
    generalize (if p.workerNodes.length = 0 then s.reset else s) = s' at hs ⊢
    generalize (if p.workerNodes.length = 0 then 0 else pos) = pos' at hs ⊢
    simp only [hs, Option.some.injEq]
    by_cases hk : pos' = k
    · by_cases hgt : (k : Int) > p.lastKey <;> simp [hk, hgt]
    · simp [hk, hs]
  | interleavedWeightedRoundRobin s =>
    have hs : (if p.workerNodes.length = 0 then s.reset else s).workerNodeId =
        if p.workerNodes.length = 0 then 0 else pos := by
      split
      · rfl
      · exact Option.some.inj h
    simp only [CyclicStrategy.cursor, CyclicStrategy.remove, InterleavedWeightedRoundRobin.remove]
    generalize (if p.workerNodes.length = 0 then s.reset else s) = s' at hs ⊢
    generalize (if p.workerNodes.length = 0 then 0 else pos) = pos' at hs ⊢
    simp only [hs]
    split <;> simp [hs]

/-! ## What `choose` does -/

/-- The result of a choice in a pool of `n` nodes: it does not throw, and what it chooses and where
it leaves the cursor are in range. -/
def Chosen (n : Nat) (cursor : Option Int) (r : Except JsError (Option Int)) : Prop :=
  (∃ c, cursor = some c ∧ 0 ≤ c ∧ c < n) ∧ ∃ key, r = .ok key ∧ ∀ k, key = some k → 0 ≤ k ∧ k < n

theorem workerNode?_of_inRange {p : Pool Data Response} {k : Int} (h0 : 0 ≤ k) (hk : k < p.workerNodes.length) :
    ∃ n, p.workerNode? k = some n := by
  obtain ⟨j, rfl⟩ := Int.eq_ofNat_of_zero_le h0
  exact Pool.node_of_lt (Int.ofNat_lt.1 hk)

/-- The next key of a round robin is in range where the current one is. -/
theorem followingWorkerNodeKey_inRange {p : Pool Data Response} {s : AbstractWorkerChoiceStrategy} {c : Int}
    (hc : s.nextWorkerNodeKey = some c) (h0 : 0 ≤ c) (hlt : c < p.workerNodes.length) :
    0 ≤ s.followingWorkerNodeKey p ∧ s.followingWorkerNodeKey p < p.workerNodes.length := by
  simp only [AbstractWorkerChoiceStrategy.followingWorkerNodeKey, AbstractWorkerChoiceStrategy.currentWorkerNodeKey,
    Pool.lastKey, hc, Option.some.injEq, Option.getD_some]
  split <;> omega

theorem roundRobin_chosen {p : Pool Data Response} {s : AbstractWorkerChoiceStrategy} {c : Int}
    (hc : s.nextWorkerNodeKey = some c) (h0 : 0 ≤ c) (hlt : c < p.workerNodes.length) :
    Chosen p.workerNodes.length (RoundRobin.choose p s).2.nextWorkerNodeKey (.ok (RoundRobin.choose p s).1) := by
  refine ⟨⟨_, rfl, followingWorkerNodeKey_inRange (c := c) hc h0 hlt⟩, some c, congrArg _ hc, ?_⟩
  rintro k ⟨⟩
  exact ⟨h0, hlt⟩

theorem weightedNext_chosen {p : Pool Data Response} {s : WeightedRoundRobin} {c : Int}
    (hc : s.nextWorkerNodeKey = some c) (h0 : 0 ≤ c) (hlt : c < p.workerNodes.length) :
    Chosen p.workerNodes.length (s.weightedRoundRobinNextWorkerNodeKey p).2.nextWorkerNodeKey
      (s.weightedRoundRobinNextWorkerNodeKey p).1 := by
  have hcur : s.currentWorkerNodeKey = c := by
    rw [AbstractWorkerChoiceStrategy.currentWorkerNodeKey, hc]
    rfl
  unfold WeightedRoundRobin.weightedRoundRobinNextWorkerNodeKey
  split
  · -- it stays with the current node, which exists
    obtain ⟨n, hn⟩ := workerNode?_of_inRange h0 hlt
    rw [hcur, hn]
    refine ⟨⟨c, hc, h0, hlt⟩, some c, congrArg _ hc, ?_⟩
    rintro k ⟨⟩
    exact ⟨h0, hlt⟩
  · have hnext := followingWorkerNodeKey_inRange hc h0 hlt
    refine ⟨⟨_, rfl, hnext⟩, some _, rfl, ?_⟩
    rintro k ⟨⟩
    exact hnext

/-- The inner loop chooses one of its keys or none. -/
theorem chooseInRound_chosen {p : Pool Data Response} (w : ℚ) (keys : List Int)
    (hkeys : ∀ k ∈ keys, 0 ≤ k ∧ k < p.workerNodes.length) (s : InterleavedWeightedRoundRobin)
    (hs : 0 ≤ s.workerNodeId ∧ s.workerNodeId < p.workerNodes.length) :
    Chosen p.workerNodes.length (some (InterleavedWeightedRoundRobin.chooseInRound p w keys s).2.workerNodeId)
      (InterleavedWeightedRoundRobin.chooseInRound p w keys s).1 := by
  induction keys generalizing s with
  | nil => exact ⟨⟨_, rfl, hs⟩, none, rfl, by simp⟩
  | cons k keys ih =>
    have hk := hkeys k (by simp)
    simp only [InterleavedWeightedRoundRobin.chooseInRound]
    split
    · obtain ⟨n, hn⟩ := workerNode?_of_inRange hk.1 hk.2
      rw [hn]
      refine ⟨⟨k, rfl, hk⟩, some k, rfl, ?_⟩
      rintro k' ⟨⟩
      exact hk
    · exact ih (fun k' hk' => hkeys k' (by simp [hk'])) (s.visit k) hk

theorem mem_keysFrom {p : Pool Data Response} {i k : Int} :
    k ∈ InterleavedWeightedRoundRobin.keysFrom p i ↔ i ≤ k ∧ k < p.workerNodes.length := by
  simp only [InterleavedWeightedRoundRobin.keysFrom, List.mem_map, List.mem_range]
  constructor
  · rintro ⟨j, hj, rfl⟩
    omega
  · rintro ⟨h1, h2⟩
    exact ⟨(k - i).toNat, by omega, by omega⟩

theorem chooseInRounds_chosen {p : Pool Data Response} (rounds : List (ℚ × Nat)) (s : InterleavedWeightedRoundRobin)
    (hs : 0 ≤ s.workerNodeId ∧ s.workerNodeId < p.workerNodes.length) :
    Chosen p.workerNodes.length (some (InterleavedWeightedRoundRobin.chooseInRounds p rounds s).2.workerNodeId)
      (InterleavedWeightedRoundRobin.chooseInRounds p rounds s).1 := by
  induction rounds generalizing s with
  | nil => exact ⟨⟨_, rfl, hs⟩, none, rfl, by simp⟩
  | cons round rounds ih =>
    obtain ⟨w, i⟩ := round
    have hround := chooseInRound_chosen (p := p) w (InterleavedWeightedRoundRobin.keysFrom p s.workerNodeId)
      (fun k hk => by have := mem_keysFrom.1 hk; omega) { s with roundId := i } hs
    simp only [InterleavedWeightedRoundRobin.chooseInRounds]
    split
    · rename_i s' heq
      rw [heq] at hround
      obtain ⟨⟨c, hc, hrange⟩, -⟩ := hround
      cases hc
      exact ih s' hrange
    · exact hround

theorem interleavedNext_inRange {p : Pool Data Response} {s : InterleavedWeightedRoundRobin}
    (hs : 0 ≤ s.workerNodeId ∧ s.workerNodeId < p.workerNodes.length) :
    0 ≤ (s.interleavedWeightedRoundRobinNextWorkerNodeId p).workerNodeId ∧
      (s.interleavedWeightedRoundRobinNextWorkerNodeId p).workerNodeId < p.workerNodes.length := by
  unfold InterleavedWeightedRoundRobin.interleavedWeightedRoundRobinNextWorkerNodeId
  split
  · exact ⟨le_rfl, hs.1.trans_lt hs.2⟩
  · split
    · exact ⟨le_rfl, hs.1.trans_lt hs.2⟩
    · rename_i h
      simp only [Pool.lastKey] at h ⊢
      omega

/-- A cursor that is in range stays there when a node is chosen, and so is the key of that node. -/
theorem choose_chosen {σ : CyclicStrategy} {p : Pool Data Response} {c : Int} (hc : σ.cursor = some c) (h0 : 0 ≤ c)
    (hlt : c < p.workerNodes.length) : Chosen p.workerNodes.length (σ.choose p).2.cursor (σ.choose p).1 := by
  cases σ with
  | roundRobin s => exact roundRobin_chosen hc h0 hlt
  | weightedRoundRobin s => exact weightedNext_chosen (s := { s with
      toAbstractWorkerChoiceStrategy := s.setPreviousWorkerNodeKey s.nextWorkerNodeKey }) hc h0 hlt
  | interleavedWeightedRoundRobin s =>
    have hid : s.workerNodeId = c := Option.some.inj hc
    have h := chooseInRounds_chosen (p := p) (s.roundWeights.zipIdx.drop s.roundId) s (by rw [hid]; exact ⟨h0, hlt⟩)
    simp only [CyclicStrategy.cursor, CyclicStrategy.choose, InterleavedWeightedRoundRobin.choose]
    split
    · rename_i s' heq
      rw [heq] at h
      obtain ⟨⟨d, hd, hrange⟩, -⟩ := h
      cases hd
      exact ⟨⟨_, rfl, interleavedNext_inRange hrange⟩, none, rfl, by simp⟩
    · exact h

/-! ## Runs -/

theorem Shows.inRange_iff (h : s.Shows c) : s.InRange ↔ c.InRange := by
  have hne : s.2.workerNodes ≠ [] ↔ 0 < c.size := by
    rw [← h.size, List.length_pos_iff]
  constructor
  · intro hs hpos
    obtain ⟨⟨d, hd, h0, hlt⟩, -⟩ := hs (hne.2 hpos)
    rw [h.cursor] at hd
    cases hd
    rw [← h.size]
    exact ⟨h0, hlt⟩
  · intro hc hs
    obtain ⟨h0, hlt⟩ := hc (hne.1 hs)
    rw [← h.size] at hlt
    refine ⟨⟨_, h.cursor, h0, hlt⟩, fun k hk => ?_⟩
    obtain ⟨-, key, hkey, hrange⟩ := choose_chosen h.cursor h0 hlt
    rw [hkey] at hk
    cases hk
    exact hrange k rfl

theorem Shows.safe_iff (h : s.Shows c) (e : NodesEvent Data) : s.Safe e ↔ c.Safe (toChange e) := by
  have hlast : s.2.lastKey = c.size - 1 := by
    rw [Pool.lastKey, h.size]
  cases e with
  | add n =>
    simp only [Safe, Cursor.Safe, toChange, h.cursor, Option.some.injEq, ← h.size, List.length_eq_zero_iff]
  | remove k =>
    simp only [Safe, Cursor.Safe, toChange, h.cursor, Option.some.injEq, hlast]
    constructor
    · intro hs hp
      rw [hp, hs hp]
    · intro hs hp
      rw [← hs hp, hp]
  | choose => exact Iff.rfl
  | change k f => exact Iff.rfl

/-- A step of a cyclic strategy whose cursor is in range is a step of the cursor. -/
theorem Shows.step (h : s.Shows c) (hc : c.InRange) (ht : s.Step e s') : ∃ c', Cursor.Step c (toChange e) c' ∧ s'.Shows c' := by
  cases e with
  | add n =>
    cases ht
    refine ⟨_, .grow c, h.cursor, ?_⟩
    simp [h.size]
  | remove k =>
    obtain ⟨hk, hs'⟩ := Option.ite_none_right_eq_some.1 ht
    cases hs'
    have hsize := h.size
    have hlen : (s.2.workerNodes.eraseIdx k).length = c.size - 1 := by
      rw [List.length_eraseIdx_of_lt hk, hsize]
    refine ⟨_, .drop c k (hsize ▸ hk), ?_, hlen⟩
    rw [remove_cursor s.1 _ k h.cursor]
    simp only [Cursor.drop, Pool.lastKey, hlen]
    rw [hsize] at hk
    -- `remove` sees the pool without the node, `drop` the cursor with it
    have h1 : c.size - 1 = 0 ↔ c.size = 1 := by omega
    have h2 : ((c.size - 1 : Nat) : Int) - 1 = c.size - 2 := by omega
    simp only [h1, h2]
  | choose =>
    obtain ⟨hne, hs'⟩ := Option.ite_none_left_eq_some.1 ht
    cases hs'
    have hpos : 0 < c.size := by
      rw [← h.size, List.length_pos_iff]
      simpa using hne
    obtain ⟨h0, hlt⟩ := hc hpos
    obtain ⟨⟨d, hd, hd0, hdlt⟩, -⟩ := choose_chosen (p := s.2) h.cursor h0 (by rw [h.size]; exact hlt)
    rw [h.size] at hdlt
    exact ⟨_, .walk c d hpos fun _ => ⟨hd0, hdlt⟩, hd, h.size⟩
  | change k f =>
    cases ht
    refine ⟨c, .stay c, h.cursor, ?_⟩
    rw [← h.size]
    exact s.2.length_modifyNode k f

/-- The strategy is a cursor, and one that is at rest while the pool is empty. -/
def Rests (s : Served Data Response) : Prop := ∃ c, s.Shows c ∧ c.AtRest

theorem step_inRange_iff (hrest : s.Rests) (hs : s.InRange) (ht : s.Step e s') :
    s'.Rests ∧ (s.Safe e ↔ s'.InRange) := by
  obtain ⟨c, hc, hat⟩ := hrest
  have hin := hc.inRange_iff.1 hs
  obtain ⟨c', hstep, hc'⟩ := hc.step hin ht
  obtain ⟨hat', hsafe⟩ := Cursor.step_inRange_iff hat hin hstep
  refine ⟨⟨c', hc', hat'⟩, ?_⟩
  rw [hc.safe_iff, hc'.inRange_iff]
  exact hsafe

theorem shows_reset (σ : CyclicStrategy) (p : Pool Data Response) :
    Shows (σ.reset, p) ⟨p.workerNodes.length, 0⟩ :=
  ⟨reset_cursor σ, rfl⟩

end Served

/-- From its reset state a round robin strategy keeps its cursor in range, and chooses only worker
nodes that exist, in exactly the runs whose changes are safe. -/
theorem cursor_in_range_iff (σ : CyclicStrategy) (p : Pool Data Response) (es : List (NodesEvent Data))
    (s : Served Data Response) :
    Through Served.InRange Served.Step (σ.reset, p) es s ↔
      Run (Guarded Served.Safe Served.Step) (σ.reset, p) es s := by
  have hshows := Served.shows_reset σ p
  have hin : Served.InRange (σ.reset, p) := by
    rw [hshows.inRange_iff]
    intro hpos
    exact ⟨le_rfl, Int.natCast_pos.2 hpos⟩
  exact through_iff Served.Rests ⟨_, hshows, fun _ => .inl rfl⟩ hin fun s e s' hrest hs ht =>
    Served.step_inRange_iff hrest hs ht

/-- A round robin strategy on three worker nodes, of which it chooses two, and then loses the first
node: its cursor stays at the key of the last node, which is gone. -/
theorem cursor_out_of_range : ¬ ∀ (σ : CyclicStrategy) (p : Pool Unit Unit) (es : List (NodesEvent Unit))
    (s : Served Unit Unit), Run Served.Step (σ.reset, p) es s → s.InRange := by
  intro h
  let σ : CyclicStrategy := .roundRobin ⟨some 0, 0, ⟨⟨false, false, false⟩, ⟨false, false, false⟩, ⟨false, false, false⟩⟩,
    ⟨some 6, none, false, false, false, none⟩⟩
  let p := startedPool 3 false ⟨some 9, some 1, true, true⟩
  have hrun : replay Served.next (σ.reset, p) [.choose, .choose, .remove 0] ≠ none := by
    decide +kernel
  obtain ⟨s, hs⟩ := Option.ne_none_iff_exists'.1 hrun
  have hcursor : (replay Served.next (σ.reset, p) [.choose, .choose, .remove 0]).all (fun s =>
      s.1.cursor = some 2 ∧ s.2.workerNodes.length = 2) = true := by
    decide +kernel
  rw [hs, Option.all_some, decide_eq_true_eq] at hcursor
  obtain ⟨⟨c, hc, -, hlt⟩, -⟩ := h σ p _ s (run_of_replay (fun _ _ _ h => h) hs)
    (List.length_pos_iff.1 (by rw [hcursor.2]; decide))
  rw [hcursor.1] at hc
  cases hc
  rw [hcursor.2] at hlt
  exact absurd hlt (by decide)

end Poolifier
