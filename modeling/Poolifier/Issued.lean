import Poolifier.TaskIds
/-!
# The tasks a pool has given out

A task that waits, or that a worker has been sent, was given to a call of
`execute`, and is one of a kind: no code makes a second task of it, whatever
is stolen, flushed or redistributed, and whichever workers come and go.
-/

namespace Poolifier

open EffLib RunLib WorkerNode

variable {Data Response : Type}

/-- The tasks that wait on a node, and those its worker has ever been sent. -/
def WorkerNode.given (n : WorkerNode Data) : Multiset (Task Data) := ↑n.tasksQueue + ↑n.worker.received

/-- The tasks that wait, and those that workers have been sent, workers that have left included. -/
def Pool.issued (p : Pool Data Response) : Multiset (Task Data) :=
  (p.workerNodes.map given).sum + (p.removedNodes.map fun n => (↑n.worker.received : Multiset (Task Data))).sum

/-- The call that an event is has made the task. -/
def Submits (e : Event Data Response) (t : Task Data) : Prop :=
  ∃ name choice, e = .execute t.taskId name t.data choice ∧ t.name = name.getD defaultTaskName

/-! ## What a node has been given -/

section Given
variable {α M : Type} [AddCommMonoid M] {g : α → M} {l : List α} {i : Nat} {a : α} {f : α → α} {x : M}

/-- A change of one element that takes something from it. -/
theorem sum_map_modify_take [IsCancelAdd M] (h : l[i]? = some a) (hf : g a = g (f a) + x) :
    ((l.modify i f).map g).sum + x = (l.map g).sum := by
  have hsum := sum_map_modify g h f
  rw [hf, add_comm (g (f a)), ← add_assoc] at hsum
  exact add_right_cancel hsum

/-- A change of one element that puts something there. -/
theorem sum_map_modify_put [IsCancelAdd M] (h : l[i]? = some a) (hf : g (f a) = g a + x) :
    ((l.modify i f).map g).sum = (l.map g).sum + x := by
  have hsum := sum_map_modify g h f
  rw [hf, add_comm (g a), ← add_assoc] at hsum
  exact add_right_cancel hsum

end Given

section Move
variable {p p' : Pool Data Response} {k : Nat} {n : WorkerNode Data} {t : Task Data}

theorem Pool.issued_modifyNode_same (p : Pool Data Response) (k : Nat) {f : WorkerNode Data → WorkerNode Data}
    (hf : ∀ n, p.workerNodes[k]? = some n → (f n).given = n.given) : (p.modifyNode k f).issued = p.issued := by
  unfold issued modifyNode
  rw [map_modify_same hf]

theorem Pool.issued_take (h : p.workerNodes[k]? = some n) {f : WorkerNode Data → WorkerNode Data}
    (hf : n.given = (f n).given + {t}) : (p.modifyNode k f).issued + {t} = p.issued := by
  unfold issued modifyNode
  rw [← sum_map_modify_take h hf]
  abel

theorem Pool.issued_put (h : p.workerNodes[k]? = some n) {f : WorkerNode Data → WorkerNode Data}
    (hf : (f n).given = n.given + {t}) : (p.modifyNode k f).issued = p.issued + {t} := by
  unfold issued modifyNode
  rw [sum_map_modify_put h hf]
  abel

/-- What is given out or in hand has been given out or in hand. -/
theorem Move.issued {g lossy : Prop} {a b : Config Data Response} (hm : Move g lossy a b) :
    b.1.issued + b.2 ≤ a.1.issued + a.2 := by
  cases hm with
  | @book p h i f hf =>
    refine (congrArg (· + h) (Pool.issued_modifyNode_same p i fun n hn => ?_)).le
    rw [given, given, (hf n hn).tasksQueue, (hf n hn).worker]
  | @shift p h i n t q hn hq =>
    rw [← Pool.issued_take hn (t := t) (f := fun n => { n with tasksQueue := n.tasksQueue.tail }) ?_,
      ← Multiset.singleton_add, add_assoc]
    simp only [given, hq, List.tail_cons, ← Multiset.cons_coe, ← Multiset.singleton_add]
    abel
  | @pop p h i n t q hn hq =>
    rw [← Pool.issued_take hn (t := t) (f := fun n => { n with tasksQueue := n.tasksQueue.dropLast }) ?_,
      ← Multiset.singleton_add, add_assoc]
    simp only [given, hq, List.dropLast_concat, ← Multiset.coe_add, Multiset.coe_singleton]
    abel
  | @push p h i n t hn hs =>
    rw [Pool.issued_put hn (t := t) ?_, ← Multiset.singleton_add, add_assoc]
    simp only [given, ← Multiset.coe_add, Multiset.coe_singleton]
    abel
  | @send p h i n t hn hg hs =>
    rw [Pool.issued_put hn (t := t) ?_, ← Multiset.singleton_add, add_assoc]
    simp only [given, startTask_tasksQueue, startTask_worker, ← Multiset.coe_add, Multiset.coe_singleton]
    abel
  | @fail p h i t hl =>
    refine (congrArg (· + h) (Pool.issued_modifyNode_same p i fun n _ => ?_)).le
    rw [given, given, beforeTaskExecution_tasksQueue, beforeTaskExecution_worker]
  | @drop p h lost hl => exact add_le_add_right (Multiset.le_add_right h lost) _

theorem issued_of_tidy (h : Tidy p p') : p'.issued = p.issued := by
  obtain ⟨m, hm⟩ := h.work
  have hgiven (q : Pool Data Response) : (q.workerNodes.map given).sum =
      ((q.workerNodes.map work).map fun w => (↑w.2 + ↑w.1.received : Multiset (Task Data))).sum := by
    rw [List.map_map]
    rfl
  have hremoved (q : Pool Data Response) : q.removedNodes.map (fun n => (↑n.worker.received : Multiset (Task Data))) =
      (q.removedNodes.map (·.worker)).map fun w => ↑w.received := by
    rw [List.map_map]
    rfl
  have hidle : ((List.replicate m ((⟨[], []⟩, []) : Worker Data × List (Task Data))).map
      fun w => (↑w.2 + ↑w.1.received : Multiset (Task Data))).sum = 0 := by
    apply List.sum_eq_zero
    intro x hx
    rw [List.map_replicate] at hx
    exact (List.eq_of_mem_replicate hx).trans (add_zero _)
  unfold Pool.issued
  rw [hgiven, hgiven, hremoved, hremoved, hm, h.removedNodes, List.map_append, List.sum_append, hidle, add_zero]

/-- A flow gives out what it has in hand, and nothing else. -/
theorem Flow.issued {a b : Config Data Response} (hf : Flow a b) : b.1.issued + b.2 ≤ a.1.issued + a.2 := by
  refine RunLib.inv_of_chain (I := fun d => d.1.issued + d.2 ≤ a.1.issued + a.2) (fun d e hstep hd => ?_) hf le_rfl
  rcases hstep with hm | ⟨ht, hhand⟩
  · exact hm.issued.trans hd
  · rw [issued_of_tidy ht, hhand]
    exact hd

theorem Reached.issued {g : Prop} {c : Config Data Response} {s : Pool Data Response} {h : Multiset (Task Data)}
    (hr : Reached g c s h) : s.issued + h ≤ c.1.issued + c.2 :=
  (Flow.of_reached hr).issued

end Move

/-! ## What an event gives out -/

section Step
variable {s s' : Pool Data Response} {e : Event Data Response} {r : Except JsError Unit}

theorem issued_settle (p : Pool Data Response) (taskId : Nat) (x : Settlement Response) :
    (p.settle taskId x).issued = p.issued := by
  rw [Pool.settle_rest]
  rfl

theorem issued_answer (p : Pool Data Response) (k taskId : Nat) :
    (p.modifyNode k (·.answer taskId)).issued = p.issued :=
  Pool.issued_modifyNode_same p k fun _ _ => rfl

theorem issued_responded (p : Pool Data Response) (w k : Nat) (m : TaskResponse Response) :
    (p.responded w m k).issued = p.issued := by
  have hafter (q : Pool Data Response) :
      (q.modifyNode k (·.afterTaskExecution p.taskStatisticsRequirements m)).issued = q.issued := by
    refine Pool.issued_modifyNode_same q k fun n _ => ?_
    rw [given, given, afterTaskExecution_tasksQueue, afterTaskExecution_worker]
  calc (p.responded w m k).issued
      = ((p.modifyNode (p.getWorkerNodeKeyByWorkerId w) (·.answer m.taskId)).settle m.taskId m.settlement).issued :=
        hafter _
    _ = (p.modifyNode (p.getWorkerNodeKeyByWorkerId w) (·.answer m.taskId)).issued := issued_settle _ _ _
    _ = p.issued := issued_answer _ _ _

/-- The queue of a node that leaves goes with it. -/
theorem issued_removeNode {k : Nat} {n : WorkerNode Data} (hn : s.workerNodes[k]? = some n) :
    (s.removeNode k n).issued ≤ s.issued := by
  obtain ⟨hk, rfl⟩ := List.getElem?_eq_some_iff.1 hn
  have hsum : (s.workerNodes.map given).sum = ((s.workerNodes.eraseIdx k).map given).sum + (s.workerNodes[k]).given := by
    have hperm := (List.getElem_cons_eraseIdx_perm hk).map given
    rw [← hperm.sum_eq, List.map_cons, List.sum_cons, add_comm]
  unfold Pool.issued Pool.removeNode
  rw [hsum, List.map_append, List.sum_append, List.map_singleton, List.sum_singleton]
  have hle : (↑(s.workerNodes[k]).worker.received : Multiset (Task Data)) ≤ (s.workerNodes[k]).given :=
    Multiset.le_add_left _ _
  calc _ ≤ ((s.workerNodes.eraseIdx k).map given).sum +
        ((s.removedNodes.map fun n => (↑n.worker.received : Multiset (Task Data))).sum + (s.workerNodes[k]).given) :=
        add_le_add_right (add_le_add_right hle _) _
    _ = _ := by abel

/-- A call gives out its own task at most. -/
theorem execute_issues (fuel taskId : Nat) (name : Option String) (data : Data) (choice : Choice) :
    wp (execute (callbacks fuel) taskId name data choice)
      (fun _ s' => s'.issued ≤ s.issued + {⟨name.getD defaultTaskName, data, s.now, taskId⟩})
      (fun _ s' => s'.issued ≤ s.issued + {⟨name.getD defaultTaskName, data, s.now, taskId⟩}) s := by
  have hgrown {s₁ : Pool Data Response} (hg : Grown { s with uuids := taskId :: s.uuids } s₁) : s₁.issued = s.issued := by
    have hsame := issued_of_tidy (.of_grown hg)
    exact hsame
  refine wp_execute (fun x s₁ hg _ => ?_) fun k s₁ hg _ _ _ _ => ?_
  · rw [issued_settle, hgrown hg]
    exact Multiset.le_add_right _ _
  · have hsame := hgrown hg
    have hpromise : (s₁.withPromise taskId k).issued = s.issued := hsame
    rcases hk : s₁.workerNodes[k]? with _ | n
    · rw [wp_dispatchTask_unknown (s := s₁.withPromise taskId k) hk, issued_settle, hpromise]
      exact Multiset.le_add_right _ _
    · have hmoves := dispatchTask_moves (g := False) (callbacks_move fuel)
        (Reached.refl (s₁.withPromise taskId k) {⟨name.getD defaultTaskName, data, s.now, taskId⟩}) (h := 0)
        (Pool.lt_of_node hk) False.elim
      refine wp_mono hmoves (fun _ s' hr => ?_) fun x s' hf => ?_
      · have hle := hr.issued
        rw [add_zero, hpromise] at hle
        exact hle
      · obtain ⟨-, lost, hr⟩ := hf
        have hle := hr.issued
        rw [hpromise] at hle
        rw [issued_settle]
        exact (Multiset.le_add_right _ _).trans hle

/-- No other event gives out a task. -/
theorem Effect.issued (h : Effect s e r s') (he : e.drawnIds = []) : s'.issued ≤ s.issued := by
  have hflow {s₁ : Pool Data Response} {lost : Multiset (Task Data)} (hf : Flow (s₁, 0) (s', lost)) :
      s'.issued ≤ s₁.issued := by
    have hle := hf.issued
    rw [add_zero] at hle
    exact (Multiset.le_add_right _ _).trans hle
  cases h with
  | flows hf => exact hflow hf
  | fails lost _ hf => exact hflow hf
  | refused _ => cases he
  | called => cases he
  | callFails => cases he
  | answered k lost _ _ _ hf _ =>
    have hle := hflow hf
    rwa [issued_responded] at hle
  | unknownTask _ _ => exact (issued_answer _ _ _).le
  | dangling k _ _ _ =>
    rw [issued_settle]
    exact (issued_answer _ _ _).le
  | left hn => exact issued_removeNode hn

/-- An event gives out the task it submits, if any. -/
theorem step_issues (h : Step s e s') : ∃ new : Multiset (Task Data), s'.issued ≤ s.issued + new ∧
    new.map (·.taskId) = ↑e.drawnIds ∧ ∀ t ∈ new, Submits e t := by
  obtain ⟨-, fuel, now, r, hm⟩ := h
  by_cases he : e.drawnIds = []
  · refine ⟨0, ?_, ?_, fun t ht => absurd ht (Multiset.notMem_zero t)⟩
    · rw [add_zero]
      exact (effect_of_handle hm).issued he
    · rw [he]
      rfl
  · cases e with
    | execute taskId name data choice =>
      have hw := wp_any (execute_issues (s := { s with now }) fuel taskId name data choice) hm
      refine ⟨{⟨name.getD defaultTaskName, data, now, taskId⟩}, hw, rfl, fun t ht => ?_⟩
      rw [Multiset.mem_singleton.1 ht]
      exact ⟨name, choice, rfl, rfl⟩
    | _ => exact absurd rfl he

end Step

/-! ## Every run -/

/-- The tasks given out have ids of their own, which have been drawn, and calls have submitted them. -/
structure Issued (es : List (Event Data Response)) (s : Pool Data Response) : Prop where
  distinct : (s.issued.map (·.taskId)).Nodup
  drawn : ∀ t ∈ s.issued, t.taskId ∈ s.uuids
  submitted : ∀ t ∈ s.issued, ∃ e ∈ es, Submits e t
  uuids : s.uuids = (es.flatMap Event.drawnIds).reverse

section Runs
variable {s s' : Pool Data Response} {e : Event Data Response} {es : List (Event Data Response)}

theorem issued_of_fresh (h : Fresh s) : s.issued = 0 := by
  have hnodes : (s.workerNodes.map given).sum = 0 := by
    refine List.sum_eq_zero fun x hx => ?_
    obtain ⟨n, hn, rfl⟩ := List.mem_map.1 hx
    rw [given, (h.nodes n hn).tasksQueue, (h.nodes n hn).worker]
    rfl
  unfold Pool.issued
  rw [hnodes, h.removedNodes]
  rfl

theorem Issued.step (h : Issued es s) (hstep : Step s e s') : Issued (es ++ [e]) s' := by
  obtain ⟨new, hle, hids, hnew⟩ := step_issues hstep
  have hmap : s'.issued.map (·.taskId) ≤ s.issued.map (·.taskId) + ↑e.drawnIds := by
    have hle' := Multiset.map_le_map (f := Task.taskId) hle
    rwa [Multiset.map_add, hids] at hle'
  refine ⟨Multiset.nodup_of_le hmap ?_, fun t ht => ?_, fun t ht => ?_, ?_⟩
  · rw [Multiset.nodup_add]
    refine ⟨h.distinct, ?_, ?_⟩
    · cases e with
      | execute taskId name data choice => exact Multiset.nodup_singleton taskId
      | _ => exact Multiset.nodup_zero
    · refine Multiset.disjoint_left.2 fun hi hd => hstep.1.fresh hd ?_
      obtain ⟨t, ht, rfl⟩ := Multiset.mem_map.1 hi
      exact h.drawn t ht
  · rw [step_draws hstep, List.mem_append]
    rcases Multiset.mem_add.1 (Multiset.mem_of_le hle ht) with ht | ht
    · exact .inr (h.drawn t ht)
    · left
      have hmem : t.taskId ∈ new.map (·.taskId) := Multiset.mem_map_of_mem _ ht
      rwa [hids] at hmem
  · rcases Multiset.mem_add.1 (Multiset.mem_of_le hle ht) with ht | ht
    · obtain ⟨e', he', hsub⟩ := h.submitted t ht
      exact ⟨e', List.mem_append_left _ he', hsub⟩
    · exact ⟨e, List.mem_append_right _ List.mem_cons_self, hnew t ht⟩
  · have hdrawn : e.drawnIds.reverse = e.drawnIds := by cases e <;> rfl
    rw [step_draws hstep, h.uuids, List.flatMap_append, List.reverse_append, List.flatMap_singleton, hdrawn]

theorem issued_of_run {s₀ : Pool Data Response} (h₀ : Fresh s₀) (hr : Run Step s₀ es s) : Issued es s := by
  refine hr.trace_inv Issued ⟨?_, ?_, ?_, h₀.uuids⟩ fun _ _ _ _ h hs => h.step hs
  all_goals rw [issued_of_fresh h₀]
  · exact Multiset.nodup_zero
  · exact fun t ht => absurd ht (Multiset.notMem_zero t)
  · exact fun t ht => absurd ht (Multiset.notMem_zero t)

end Runs

end Poolifier
