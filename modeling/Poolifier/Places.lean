import Mathlib.Data.Multiset.Count
import Mathlib.Algebra.BigOperators.Group.List.Basic
import Mathlib.Algebra.Order.Group.Multiset
import Mathlib.Tactic.Abel
import Poolifier.Handlers
/-!
# Where the tasks are

A task has a place while it waits in a queue or is in flight on a worker.
Moves change places one by one; what is placed and what is in hand stays the
same together, but for what an exception loses (`Reached.placed`).
-/

namespace Poolifier

open EffLib WorkerNode

variable {Data Response : Type}

/-- The tasks that wait in the queue of a node, and those in flight on its worker. -/
def WorkerNode.held (n : WorkerNode Data) : Multiset (Task Data) := ↑n.tasksQueue + ↑n.worker.unanswered

/-- The tasks that wait or are in flight on the nodes of a pool. -/
def Pool.placed (p : Pool Data Response) : Multiset (Task Data) := (p.workerNodes.map held).sum

theorem Pool.mem_placed {p : Pool Data Response} {t : Task Data} : t ∈ p.placed ↔ ∃ n ∈ p.workerNodes, t ∈ n.held := by
  unfold placed
  induction p.workerNodes with
  | nil => simp
  | cons n l ih => simp [ih]

theorem WorkerNode.mem_held {n : WorkerNode Data} {t : Task Data} :
    t ∈ n.held ↔ t ∈ n.tasksQueue ∨ t ∈ n.worker.unanswered := by
  simp [held]

theorem sum_map_modify {α M : Type} [AddCommMonoid M] (g : α → M) {l : List α} {i : Nat} {a : α}
    (h : l[i]? = some a) (f : α → α) : ((l.modify i f).map g).sum + g a = (l.map g).sum + g (f a) := by
  obtain ⟨hi, ha⟩ := List.getElem?_eq_some_iff.1 h
  obtain ⟨l₁, b, l₂, rfl, rfl, hm⟩ := List.exists_of_modify f hi
  obtain rfl : b = a := by simpa using ha
  simp only [hm, List.map_append, List.map_cons, List.sum_append, List.sum_cons]
  abel

theorem map_modify_same {α β : Type} {g : α → β} {f : α → α} {l : List α} {i : Nat}
    (hf : ∀ a, l[i]? = some a → g (f a) = g a) : (l.modify i f).map g = l.map g := by
  apply List.ext_getElem?
  intro j
  rw [List.getElem?_map, List.getElem?_map, List.getElem?_modify]
  rcases ha : l[j]? with _ | a
  · rfl
  · by_cases hij : i = j
    · subst hij
      simp [hf a ha]
    · simp [hij]

/-- Changing one node changes what is placed by what that node holds. -/
theorem Pool.placed_modifyNode {p : Pool Data Response} {i : Nat} {n : WorkerNode Data}
    (h : p.workerNodes[i]? = some n) (f : WorkerNode Data → WorkerNode Data) :
    (p.modifyNode i f).placed + n.held = p.placed + (f n).held :=
  sum_map_modify held h f

theorem Pool.modifyNode_of_none {p : Pool Data Response} {i : Nat} (h : p.workerNodes[i]? = none)
    (f : WorkerNode Data → WorkerNode Data) : p.modifyNode i f = p := by
  rw [modifyNode, List.modify_eq_self (List.getElem?_eq_none_iff.1 h)]

theorem Pool.placed_modifyNode_same {p : Pool Data Response} {i : Nat} {f : WorkerNode Data → WorkerNode Data}
    (h : ∀ n, p.workerNodes[i]? = some n → (f n).held = n.held) : (p.modifyNode i f).placed = p.placed := by
  rcases hn : p.workerNodes[i]? with _ | n
  · rw [modifyNode_of_none hn]
  · have hs := placed_modifyNode hn f
    rw [h n hn] at hs
    exact add_right_cancel hs

theorem held_beforeTaskExecution (requirements : TaskStatisticsRequirements) (now : ℚ) (t : Task Data)
    (n : WorkerNode Data) : (n.beforeTaskExecution requirements now t).held = n.held := by
  obtain ⟨m, h⟩ := beforeTaskExecution_eq requirements now t n
  rw [h]
  rfl

/-! ## What a node holds -/

theorem held_tail {n : WorkerNode Data} {t : Task Data} {q : List (Task Data)} (hq : n.tasksQueue = t :: q) :
    n.held = { n with tasksQueue := n.tasksQueue.tail }.held + {t} := by
  simp only [held, hq, List.tail_cons, ← Multiset.cons_coe, ← Multiset.singleton_add]
  abel

theorem held_dropLast {n : WorkerNode Data} {t : Task Data} {q : List (Task Data)} (hq : n.tasksQueue = q ++ [t]) :
    n.held = { n with tasksQueue := n.tasksQueue.dropLast }.held + {t} := by
  simp only [held, hq, List.dropLast_concat, ← Multiset.coe_add, Multiset.coe_singleton]
  abel

theorem held_push (n : WorkerNode Data) (t : Task Data) :
    { n with tasksQueue := n.tasksQueue ++ [t] }.held = n.held + {t} := by
  simp only [held, ← Multiset.coe_add, Multiset.coe_singleton]
  abel

theorem held_receive (n : WorkerNode Data) (t : Task Data) : (n.receive t).held = n.held + {t} := by
  simp only [held, receive, ← Multiset.coe_add, Multiset.coe_singleton]
  abel

/-- A response adds nothing to what a node holds. -/
theorem Answered.held {m : TaskResponse Response} {j k i : Nat} {n n' : WorkerNode Data} (h : Answered m j k i n n')
    {t : Task Data} (ht : t ∈ n'.held) : t ∈ n.held := by
  rw [WorkerNode.mem_held, h.tasksQueue, h.worker] at ht
  rw [WorkerNode.mem_held]
  refine ht.imp id fun hu => ?_
  split at hu
  · exact List.mem_of_mem_eraseP hu
  · exact hu

theorem Pool.placed_take {p : Pool Data Response} {i : Nat} {n : WorkerNode Data} {t : Task Data}
    (h : p.workerNodes[i]? = some n) {f : WorkerNode Data → WorkerNode Data} (hf : n.held = (f n).held + {t}) :
    (p.modifyNode i f).placed + {t} = p.placed := by
  have hs := placed_modifyNode h f
  rw [hf, add_comm (f n).held, ← add_assoc] at hs
  exact add_right_cancel hs

theorem Pool.placed_put {p : Pool Data Response} {i : Nat} {n : WorkerNode Data} {t : Task Data}
    (h : p.workerNodes[i]? = some n) {f : WorkerNode Data → WorkerNode Data} (hf : (f n).held = n.held + {t}) :
    (p.modifyNode i f).placed = p.placed + {t} := by
  have hs := placed_modifyNode h f
  rw [hf, add_comm n.held, ← add_assoc] at hs
  exact add_right_cancel hs

/-! ## Moves conserve tasks -/

/-- What a move takes from the places it puts in hand, and the other way round; only an
exception that is caught loses tasks. -/
theorem Move.placed {g lossy : Prop} {a b : Config Data Response} (hm : Move g lossy a b) :
    ∃ lost, b.1.placed + b.2 + lost = a.1.placed + a.2 ∧ (¬ lossy → lost = 0) ∧
      (lost ≠ 0 → a.1.errorsCaught < b.1.errorsCaught) := by
  have keep {p p' : Pool Data Response} {h h' : Multiset (Task Data)} (hp : p'.placed + h' = p.placed + h) :
      ∃ lost, p'.placed + h' + lost = p.placed + h ∧ (¬ lossy → lost = 0) ∧ (lost ≠ 0 → p.errorsCaught < p'.errorsCaught) :=
    ⟨0, by rw [add_zero, hp], fun _ => rfl, fun h => absurd rfl h⟩
  cases hm with
  | @book p h i f hf =>
    refine keep (congrArg (· + h) (Pool.placed_modifyNode_same fun n hn => ?_))
    simp only [held, (hf n hn).tasksQueue, (hf n hn).worker]
  | @shift p h i n t q hn hq =>
    refine keep ?_
    rw [← Pool.placed_take hn (f := fun n => { n with tasksQueue := n.tasksQueue.tail }) (held_tail hq),
      ← Multiset.singleton_add, add_assoc]
  | @pop p h i n t q hn hq =>
    refine keep ?_
    rw [← Pool.placed_take hn (f := fun n => { n with tasksQueue := n.tasksQueue.dropLast }) (held_dropLast hq),
      ← Multiset.singleton_add, add_assoc]
  | @push p h i n t hn hs =>
    refine keep ?_
    rw [Pool.placed_put hn (held_push n t), ← Multiset.singleton_add, add_assoc]
  | @send p h i n t hn hg hs =>
    refine keep ?_
    rw [Pool.placed_put hn (t := t) (by rw [Pool.startTask, held_receive, held_beforeTaskExecution]),
      ← Multiset.singleton_add, add_assoc]
  | @fail p h i t hl =>
    exact keep (congrArg (· + h) (Pool.placed_modifyNode_same fun n _ => held_beforeTaskExecution _ _ _ n))
  | @drop p h lost hl => exact ⟨lost, by rw [add_assoc]; rfl, fun hn => absurd hl hn, fun _ => Nat.lt_succ_self _⟩

/-- The code conserves tasks; only where a send may throw are some lost. -/
theorem Reached.placed {g : Prop} {c : Config Data Response} {s : Pool Data Response} {h : Multiset (Task Data)}
    (hr : Reached g c s h) : ∃ lost, s.placed + h + lost = c.1.placed + c.2 ∧ (Live c.1 → lost = 0) := by
  refine RunLib.inv_of_chain (I := fun d => ∃ lost, d.1.placed + d.2 + lost = c.1.placed + c.2 ∧
    (Live c.1 → lost = 0)) (fun a b hm ha => ?_) hr ⟨0, add_zero _, fun _ => rfl⟩
  obtain ⟨lost, heq, hlive⟩ := ha
  obtain ⟨more, heq', hlive', -⟩ := hm.placed
  refine ⟨more + lost, by rw [← add_assoc, heq', heq], fun hl => ?_⟩
  rw [hlive hl, hlive' (not_not.2 hl), add_zero]

end Poolifier
