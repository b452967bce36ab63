import Poolifier.Outline
/-!
# The size of a pool

A pool is to contain at most its maximum number of workers. Only the creation of
a dynamic worker checks this; a worker that replaces an errored one comes before
the errored one leaves, and a start counts the nodes that are not dynamic and no
others. `SizeChecked` says where these two have room.
-/

namespace Poolifier

open EffLib RunLib

variable {Data Response : Type}

def Pool.WithinMaxSize (p : Pool Data Response) : Prop := p.workerNodes.length ≤ p.maxSize

instance : DecidablePred (Pool.WithinMaxSize : Pool Data Response → Prop) :=
  fun p => inferInstanceAs (Decidable (p.workerNodes.length ≤ p.maxSize))

/-- Whether the `error` event of a worker makes the pool create another. -/
def Pool.Restarts (p : Pool Data Response) (workerId : Nat) : Prop :=
  (∃ n ∈ p.workerNodes, n.info.id = workerId) ∧ p.started = true ∧ p.starting = false ∧
    p.opts.restartWorkerOnError = true ∧ p.CanCreate

instance (p : Pool Data Response) (workerId : Nat) : Decidable (p.Restarts workerId) :=
  inferInstanceAs (Decidable (_ ∧ _))

/-- A worker is replaced, and a pool started, only with room for the nodes that come. -/
def SizeChecked (p : Pool Data Response) : Event Data Response → Prop
  | .error workerId => p.Restarts workerId → p.workerNodes.length < p.maxSize
  | .start => p.CanCreate → p.workerNodes.length + (p.numberOfWorkers - p.staticWorkerNodes) ≤ p.maxSize
  | _ => True

instance (p : Pool Data Response) : DecidablePred (SizeChecked p)
  | .error _ | .start => inferInstanceAs (Decidable (_ → _))
  | .execute .. | .message .. | .poll _ | .exit _ | .enableTasksQueue .. | .setTasksQueueOptions _ | .destroy
  | .destroyed => inferInstanceAs (Decidable True)

namespace Outline

theorem length_iterate_join (o : Outline) (j : Nat) :
    ((join false)^[j] o).nodes.length = o.nodes.length + j := by
  rw [iterate_join, List.length_append, length_newNodes]

theorem length_setTasksQueueOptions (o : Outline) (a : TasksQueueOptionsArgument) :
    (o.setTasksQueueOptions a).nodes.length = o.nodes.length ∧ (o.setTasksQueueOptions a).maxSize = o.maxSize := by
  unfold setTasksQueueOptions
  split
  · split
    · exact ⟨rfl, rfl⟩
    · exact ⟨List.length_map _, rfl⟩
  · exact ⟨rfl, rfl⟩

theorem length_enableTasksQueue (o : Outline) (enable : Bool) (a : TasksQueueOptionsArgument) :
    (o.enableTasksQueue enable a).nodes.length = o.nodes.length ∧ (o.enableTasksQueue enable a).maxSize = o.maxSize := by
  unfold enableTasksQueue
  split
  · obtain ⟨h1, h2⟩ := length_setTasksQueueOptions { o.unset with opts.enableTasksQueue := enable } a
    exact ⟨h1.trans (List.length_map _), h2⟩
  · exact length_setTasksQueueOptions { o with opts.enableTasksQueue := enable } a

end Outline

theorem withinMaxSize_iff (p : Pool Data Response) : p.WithinMaxSize ↔ p.outline.nodes.length ≤ p.outline.maxSize := by
  rw [Pool.WithinMaxSize, Pool.outline, List.length_map]
  rfl

theorem restarts_iff (p : Pool Data Response) (w : Nat) :
    p.Restarts w ↔ (∃ n, p.outline.nodes.find? (·.id = w) = some n) ∧ p.outline.restarts = true ∧ p.outline.CanCreate := by
  have hfind : (∃ n, p.outline.nodes.find? (·.id = w) = some n) ↔ ∃ n ∈ p.workerNodes, n.info.id = w := by
    rw [← Option.isSome_iff_exists, List.find?_isSome]
    simp [Pool.outline, WorkerNode.outline]
  rw [hfind]
  simp only [Pool.Restarts, Outline.restarts, Bool.and_eq_true, Bool.not_eq_true', and_assoc]
  exact Iff.rfl

theorem error_sizeChecked_iff {s : Pool Data Response} (hs : s.WithinMaxSize) (w : Nat) :
    SizeChecked s (.error w : Event Data Response) ↔ (s.outline.error w).nodes.length ≤ (s.outline.error w).maxSize := by
  have hlen : s.workerNodes.length = s.outline.nodes.length := (List.length_map _).symm
  have hmax : s.maxSize = s.outline.maxSize := rfl
  rw [withinMaxSize_iff] at hs
  rw [SizeChecked, restarts_iff, hlen, hmax]
  rcases hf : s.outline.nodes.find? (·.id = w) with _ | n
  · rw [Outline.error_none hf]
    refine ⟨fun _ => hs, fun _ h => ?_⟩
    obtain ⟨⟨n, hn⟩, -⟩ := h
    rw [hf] at hn
    cases hn
  · rw [Outline.error_some hf]
    by_cases hr : s.outline.restarts = true ∧ s.outline.CanCreate
    · rw [if_pos hr]
      simp only [Outline.join, List.length_append, List.length_singleton]
      exact ⟨fun h => h ⟨⟨n, hf⟩, hr⟩, fun h _ => h⟩
    · rw [if_neg hr]
      exact ⟨fun _ => hs, fun _ h => absurd h.2 hr⟩

theorem start_sizeChecked_iff {s : Pool Data Response} (hs : s.WithinMaxSize) :
    SizeChecked s (.start : Event Data Response) ↔ s.outline.start.nodes.length ≤ s.outline.start.maxSize := by
  have hlen : s.workerNodes.length = s.outline.nodes.length := (List.length_map _).symm
  have hmax : s.maxSize = s.outline.maxSize := rfl
  have hcan : s.CanCreate ↔ s.outline.CanCreate := Iff.rfl
  have hn : s.numberOfWorkers = s.outline.numberOfWorkers := rfl
  rw [withinMaxSize_iff] at hs
  rw [SizeChecked, ← statics_outline, hlen, hmax, hcan, hn, Outline.start]
  by_cases hc : s.outline.numberOfWorkers ≤ s.outline.statics ∨ s.outline.CanCreate
  · rw [if_pos hc, Outline.fill]
    have hjoined := s.outline.length_iterate_join (s.outline.numberOfWorkers - s.outline.statics)
    have hmax' : ((Outline.join false)^[s.outline.numberOfWorkers - s.outline.statics] s.outline).maxSize =
        s.outline.maxSize := by
      rw [Outline.iterate_join]
      rfl
    simp only [Outline.maxSize] at hmax' hs ⊢
    rw [hjoined, hmax']
    constructor
    · intro h
      -- a start that creates nothing leaves the nodes that are there
      rcases hc with hle | hc
      · omega
      · exact h hc
    · exact fun h _ => h
  · rw [if_neg hc]
    exact ⟨fun _ => hs, fun _ h => absurd (.inr h) hc⟩

/-- A step leaves the pool within its maximum size if and only if there is room for the nodes it adds. -/
theorem sizeChecked_iff {s s' : Pool Data Response} {e : Event Data Response} (hs : s.WithinMaxSize) (h : Step s e s') :
    SizeChecked s e ↔ s'.WithinMaxSize := by
  have hs₁ := hs
  have hout := step_outlined h
  rw [withinMaxSize_iff] at hs ⊢
  generalize s'.outline = o' at hout
  cases hout with
  | execute => exact ⟨fun _ => hs, fun _ => trivial⟩
  | executeJoins hst ht hlt hc =>
    refine ⟨fun _ => ?_, fun _ => trivial⟩
    simp only [Outline.join, List.length_append, List.length_singleton]
    exact hlt
  | message => exact ⟨fun _ => hs, fun _ => trivial⟩
  | poll => exact ⟨fun _ => hs, fun _ => trivial⟩
  | error => exact error_sizeChecked_iff hs₁ _
  | exit =>
    refine ⟨fun _ => ?_, fun _ => trivial⟩
    exact (List.eraseP_sublist).length_le.trans hs
  | start => exact start_sizeChecked_iff hs₁
  | @enableTasksQueue enable a =>
    obtain ⟨hlen, hmax⟩ := s.outline.length_enableTasksQueue enable a
    rw [hlen, hmax]
    exact ⟨fun _ => hs, fun _ => trivial⟩
  | flushThrows he =>
    refine ⟨fun _ => ?_, fun _ => trivial⟩
    simp only [Outline.unset, List.length_map]
    exact hs
  | @setTasksQueueOptions a =>
    obtain ⟨hlen, hmax⟩ := s.outline.length_setTasksQueueOptions a
    rw [hlen, hmax]
    exact ⟨fun _ => hs, fun _ => trivial⟩
  | destroy => exact ⟨fun _ => hs, fun _ => trivial⟩
  | destroyed => exact ⟨fun _ => hs, fun _ => trivial⟩

/-- A constructor creates no more nodes than the minimum size asks for, and refuses a smaller maximum. -/
theorem withinMaxSize_of_created {c : PoolConfig Data} {startWorkers : Bool} {s : Pool Data Response}
    (h : Created c startWorkers s) : s.WithinMaxSize := by
  obtain ⟨-, -, hdynamic, hout⟩ := created_outline h
  have hlen : (createdOutline c startWorkers).nodes.length ≤ c.numberOfWorkers := by
    cases startWorkers with
    | false => exact Nat.zero_le _
    | true =>
      simp only [createdOutline, if_true, Outline.start]
      split
      · rw [Outline.fill]
        refine (Outline.length_iterate_join _ _).le.trans ?_
        simp [initialOutline, initialPool, Pool.outline, Outline.statics]
      · exact Nat.zero_le _
  rw [withinMaxSize_iff, hout]
  exact hlen.trans (numberOfWorkers_le_maxSize startWorkers hdynamic).2

/-- From its construction on, a pool contains at most its maximum number of workers in exactly the runs
that add nodes only where there is room for them. -/
theorem within_max_size_iff {c : PoolConfig Data} {startWorkers : Bool} {s₀ : Pool Data Response}
    (h : Created c startWorkers s₀) (es : List (Event Data Response)) (s : Pool Data Response) :
    Through Pool.WithinMaxSize Step s₀ es s ↔ Run (Guarded SizeChecked Step) s₀ es s :=
  through_iff (fun _ => True) trivial (withinMaxSize_of_created h) fun _ _ _ _ hs ht =>
    ⟨trivial, sizeChecked_iff hs ht⟩

theorem within_max_size_restart : ∃ s₀ s : Pool Unit Unit, Created (threadPoolConfig .dynamic 1 (some 2)) true s₀ ∧
    Through Pool.WithinMaxSize Step s₀ [.error 0, .exit 0] s := by
  obtain ⟨s₀, s, hc, hrun, -⟩ := created_run_to SizeChecked 4 (threadPoolConfig .dynamic 1 (some 2))
    [.error 0, .exit 0] (P := fun _ : Pool Unit Unit => True) (by decide +kernel)
  exact ⟨s₀, s, hc, (within_max_size_iff hc _ s).2 hrun⟩

/-- The worker that replaces the only worker of a fixed pool comes before that one leaves. -/
theorem max_size_exceeded : ¬ ∀ (c : PoolConfig Unit) (startWorkers : Bool) (s₀ s : Pool Unit Unit)
    (es : List (Event Unit Unit)), Created c startWorkers s₀ → Run Step s₀ es s → s.WithinMaxSize := by
  intro h
  obtain ⟨s₀, s, hc, hrun, hs⟩ := created_run_to (fun _ _ => True) 4 (threadPoolConfig .fixed 1 none)
    [.error 0] (P := fun s : Pool Unit Unit => ¬ s.WithinMaxSize) (by decide +kernel)
  exact hs (h _ true s₀ s _ hc (hrun.mono fun _ _ _ ht => ht.2))

end Poolifier
