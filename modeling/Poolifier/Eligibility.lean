import Poolifier.Lib.Least
import Poolifier.Started
import Poolifier.Strategies
/-!
# Eligible worker nodes

`choose` is documented to return the key of an eligible worker node, one that is
ready and has no back pressure, or `undefined`. No strategy looks at either.
Where a strategy returns a key is therefore where its own order puts it: at its
cursor, at the first offer of its rounds, or at the first node with the least
load. `choose` keeps its contract if and only if the node there is eligible.
-/

namespace Poolifier

open LeastLib

variable {Data Response : Type}

/-! ## The contract of `choose` -/

def Pool.isWorkerNodeEligible (p : Pool Data Response) (n : WorkerNode Data) : Bool :=
  n.info.ready && !p.hasWorkerNodeBackPressure n

/-- The key names an eligible worker node. -/
def Pool.Eligible (p : Pool Data Response) (k : Int) : Prop :=
  ∃ n, p.workerNode? k = some n ∧ p.isWorkerNodeEligible n = true

/-- A result of `choose`: `undefined`, or the key of an eligible worker node. -/
def Pool.MeetsContract (p : Pool Data Response) (r : Except JsError (Option Int)) : Prop :=
  ∃ key, r = .ok key ∧ ∀ k, key = some k → p.Eligible k

section Contract
variable {p : Pool Data Response}

@[simp] theorem meetsContract_none : p.MeetsContract (.ok none) := ⟨none, rfl, by simp⟩

@[simp] theorem not_meetsContract_error {e : JsError} : ¬ p.MeetsContract (.error e) := by
  rintro ⟨key, hkey, -⟩
  cases hkey

end Contract

/-! ## Where the weighted strategies look -/

namespace InterleavedWeightedRoundRobin
variable (s : InterleavedWeightedRoundRobin)

/-- The virtual task run time with which the search comes to a key: it counts for the node chosen
last, and only while the search has not left it. -/
def runTimeAt (k : Int) : ℚ :=
  if some k = s.nextWorkerNodeKey ∧ k = s.workerNodeId then s.workerNodeVirtualTaskRunTime else 0

/-- The search from `s` has come to the key `k`, and has not changed what it depends on. -/
structure Searching (s s' : InterleavedWeightedRoundRobin) (k : Int) : Prop where
  opts : s'.opts = s.opts
  defaultWorkerWeight : s'.defaultWorkerWeight = s.defaultWorkerWeight
  nextWorkerNodeKey : s'.nextWorkerNodeKey = s.nextWorkerNodeKey
  runTime : s'.workerNodeVirtualTaskRunTime = s.runTimeAt k

variable {s} {s' : InterleavedWeightedRoundRobin} {p : Pool Data Response} {k k' : Int}

/-- The search goes up the keys, so it leaves the node chosen last for good. -/
theorem Searching.visit (h : Searching s s' k) (hk : s.workerNodeId ≤ k) (hle : k ≤ k') :
    Searching s (s'.visit k') k' := by
  refine ⟨h.opts, h.defaultWorkerWeight, h.nextWorkerNodeKey, ?_⟩
  simp only [InterleavedWeightedRoundRobin.visit, h.runTime, h.nextWorkerNodeKey]
  rcases eq_or_lt_of_le hle with rfl | hlt
  · simp only [runTimeAt]
    split <;> split <;> simp_all
  · have hne : k' ≠ s.workerNodeId := by omega
    have hk' : s.runTimeAt k' = 0 := if_neg fun h => hne h.2
    rw [hk']
    split
    · rfl
    · rename_i hstay
      by_contra hrun
      -- the time counts at `k`, so `k` is the node chosen last, and `k'` is not
      refine hstay ⟨fun heq => ?_, hrun⟩
      by_cases hcount : some k = s.nextWorkerNodeKey ∧ k = s.workerNodeId
      · rw [← hcount.1] at heq
        cases heq
        exact lt_irrefl _ hlt
      · exact hrun (if_neg hcount)

theorem keysFrom_of_le (h : k ≤ p.lastKey) : keysFrom p k = k :: keysFrom p (k + 1) := by
  have hlen : (p.workerNodes.length - k).toNat = (p.workerNodes.length - (k + 1)).toNat + 1 := by
    simp only [Pool.lastKey] at h
    omega
  rw [keysFrom, keysFrom, hlen, List.range_succ_eq_map, List.map_cons, List.map_map, Nat.cast_zero, add_zero]
  congr 2
  funext i
  simp only [Function.comp_apply, Nat.succ_eq_add_one, Nat.cast_add, Nat.cast_one]
  omega

theorem keysFrom_of_lt (h : p.lastKey < k) : keysFrom p k = [] := by
  have hlen : (p.workerNodes.length - k).toNat = 0 := by
    simp only [Pool.lastKey] at h
    omega
  rw [keysFrom, hlen]
  rfl

end InterleavedWeightedRoundRobin

/-! ## Where the least strategies look -/

section Least
variable {α : Type} [LinearOrder α]

/-- The measure of the node at a key. -/
def measureAt [Zero α] (measure : WorkerNode Data → α) (workerNodes : List (WorkerNode Data)) (k : Nat) : α :=
  (workerNodes[k]?.map measure).getD 0

theorem minWorkerNodeKey_firstLeast [Zero α] (measure : WorkerNode Data → α) {workerNodes : List (WorkerNode Data)}
    (h : workerNodes ≠ []) :
    FirstLeast (measureAt measure workerNodes) workerNodes.length (minWorkerNodeKey measure workerNodes) := by
  have hinv := foldl_zipIdx_inv (fun j k => (j = 0 ∧ k = 0) ∨ FirstLeast (measureAt measure workerNodes) j k)
    workerNodes (fun minKey a => if workerNodes[minKey]?.any (measure a.1 < measure ·) then a.2 else minKey) 0 (.inl ⟨rfl, rfl⟩)
    fun j n k hn hk => ?_
  · rcases hinv with ⟨hlen, -⟩ | hinv
    · exact absurd (List.length_eq_zero_iff.1 hlen) h
    · exact hinv
  · right
    rcases hk with ⟨rfl, rfl⟩ | hk
    · simpa [hn] using firstLeast_one (measureAt measure workerNodes)
    · have hnext := hk.next
      have hj : k < workerNodes.length := hk.lt.trans (List.getElem?_eq_some_iff.1 hn).1
      simpa [measureAt, hn, List.getElem?_eq_getElem hj] using hnext

end Least

namespace FairShare
variable (s : AbstractWorkerChoiceStrategy) (clock : Nat → ℚ) (workerNodes : List (WorkerNode Data))

/-- The timestamp of a node, or the one `choose` gives it. -/
def timestampAt (k : Nat) : ℚ :=
  (workerNodes[k]?.map fun n => n.strategyData.getD (computeWorkerNodeVirtualTaskEndTimestamp s (clock k) n)).getD 0

/-- The worker nodes after the first `j` passes, and the least key among those. -/
structure Reduced (j : Nat) (acc : Nat × List (WorkerNode Data)) : Prop where
  nodes : ∀ i : Nat, acc.2[i]? = workerNodes[i]?.map fun n => if i < j then ensureStrategyData s (clock i) n else n
  least : j = 0 ∧ acc.1 = 0 ∨ FirstLeast (timestampAt s clock workerNodes) j acc.1

variable {s clock workerNodes}

theorem ensureStrategyData_eq (now : ℚ) (n : WorkerNode Data) : (ensureStrategyData s now n).strategyData =
    some (n.strategyData.getD (computeWorkerNodeVirtualTaskEndTimestamp s now n)) := by
  unfold ensureStrategyData
  split <;> rename_i h <;> simp [h]

theorem Reduced.pass {j : Nat} {acc : Nat × List (WorkerNode Data)} (h : Reduced s clock workerNodes j acc)
    (hj : j < workerNodes.length) : Reduced s clock workerNodes (j + 1) (reducePass s clock acc j) := by
  have hnodes (i : Nat) : (acc.2.modify j (ensureStrategyData s (clock j)))[i]? =
      workerNodes[i]?.map fun n => if i < j + 1 then ensureStrategyData s (clock i) n else n := by
    rw [List.getElem?_modify, h.nodes i, Option.map_eq_map, Option.map_map]
    congr 1
    funext n
    rcases Nat.lt_trichotomy i j with hlt | rfl | hlt
    · simp [hlt, hlt.ne', Nat.lt_succ_of_lt hlt]
    · simp
    · simp [hlt.ne, Nat.not_lt.2 hlt.le, Nat.not_lt.2 (Nat.succ_le_of_lt hlt)]
  -- every node up to `j` has its timestamp by now
  have htime (i : Nat) (hi : i < j + 1) : ((acc.2.modify j (ensureStrategyData s (clock j)))[i]?.bind (·.strategyData)) =
      some (timestampAt s clock workerNodes i) := by
    rw [hnodes i, List.getElem?_eq_getElem (by omega)]
    simp [timestampAt, hi, ensureStrategyData_eq, List.getElem?_eq_getElem (show i < workerNodes.length by omega)]
  refine ⟨hnodes, .inr ?_⟩
  rcases h.least with ⟨rfl, hacc⟩ | hleast
  · simp only [reducePass, hacc, ite_self]
    exact firstLeast_one _
  · simp only [reducePass, earlier, htime j (Nat.lt_succ_self j), htime acc.1 (Nat.lt_succ_of_lt hleast.lt),
      decide_eq_true_eq]
    exact hleast.next

/-- The worker nodes and the key after all passes. -/
theorem reduced_fairShareNextWorkerNodeKey (s : AbstractWorkerChoiceStrategy) (clock : Nat → ℚ)
    (workerNodes : List (WorkerNode Data)) :
    Reduced s clock workerNodes workerNodes.length (fairShareNextWorkerNodeKey s clock workerNodes) :=
  foldl_range_inv (Reduced s clock workerNodes) workerNodes.length (reducePass s clock) (0, workerNodes)
    ⟨fun i => by simp, .inl ⟨rfl, rfl⟩⟩ fun j acc hj hacc => hacc.pass hj

theorem fairShareNextWorkerNodeKey_firstLeast (h : workerNodes ≠ []) : FirstLeast (timestampAt s clock workerNodes)
    workerNodes.length (fairShareNextWorkerNodeKey s clock workerNodes).1 := by
  rcases (reduced_fairShareNextWorkerNodeKey s clock workerNodes).least with ⟨hlen, -⟩ | hleast
  · exact absurd (List.length_eq_zero_iff.1 hlen) h
  · exact hleast

end FairShare

/-! ## The contract of every strategy -/

end Poolifier
