import Poolifier.FixedSet
/-!
# No task is lost or duplicated

Over a fixed set of live workers, in every run of calls, responses, polling ticks
and changes of the queue options: the tasks that `execute` has accepted and that
are not settled have one place each, the promise map has exactly their ids, and
a promise ends with the response that carries its id.
-/

namespace Poolifier

open EffLib RunLib MapLib WorkerNode

variable {Data Response : Type}

/-! ## What a run asks and answers -/

/-- The id of the task an event submits, if the pool accepts it. -/
def acceptedId (started : Bool) : Event Data Response → Option Nat
  | .execute taskId name _ (.key _) => if started && !name.any isBlank then some taskId else none
  | _ => none

/-- The promise an event ends, and how. -/
def response : Event Data Response → Option (Nat × Settlement Response)
  | .message _ (.taskResponse m) => some (m.taskId, m.settlement)
  | _ => none

def acceptedIds (started : Bool) (es : List (Event Data Response)) : List Nat := es.filterMap (acceptedId started)

def responses (es : List (Event Data Response)) : List (Nat × Settlement Response) := es.filterMap response

/-- The number of places a task has in a pool: positions in queues, and messages in flight. -/
def Pool.places (p : Pool Data Response) (taskId : Nat) : Nat :=
  (p.workerNodes.map fun n =>
    (n.tasksQueue.map (·.taskId)).count taskId + (n.worker.unanswered.map (·.taskId)).count taskId).sum

theorem Pool.places_eq (p : Pool Data Response) (taskId : Nat) :
    p.places taskId = (p.placed.map (·.taskId)).count taskId := by
  unfold places placed
  induction p.workerNodes with
  | nil => rfl
  | cons n l ih => simp [held, ih, Multiset.count_add, add_assoc]

/-- What holds of the tasks after the events `es`, in the pool `s`. -/
structure Conservation (started : Bool) (es : List (Event Data Response)) (s : Pool Data Response) : Prop where
  onePlace : ∀ taskId ∈ acceptedIds started es, taskId ∉ s.settled.map Prod.fst → s.places taskId = 1
  noOther : ∀ taskId, s.places taskId ≠ 0 →
    taskId ∈ acceptedIds started es ∧ taskId ∉ s.settled.map Prod.fst
  keys : ∀ taskId, taskId ∈ s.promiseResponseMap.keys ↔
    taskId ∈ acceptedIds started es ∧ taskId ∉ s.settled.map Prod.fst
  settledOnce : (s.settled.map Prod.fst).Nodup
  byOwnResponse : s.settled.filter (·.1 ∈ acceptedIds started es) = responses es

/-! ## The invariant -/

/-- `Conservation` and what a step needs to keep it. -/
structure Ledger (started : Bool) (es : List (Event Data Response)) (s : Pool Data Response) : Prop where
  pool : FixedPool s 0
  isStarted : s.started = started
  keys : ∀ taskId, taskId ∈ s.promiseResponseMap.keys ↔
    taskId ∈ acceptedIds started es ∧ taskId ∉ s.settled.map Prod.fst
  settledOnce : (s.settled.map Prod.fst).Nodup
  byOwnResponse : s.settled.filter (·.1 ∈ acceptedIds started es) = responses es
  acceptedKnown : ∀ taskId ∈ acceptedIds started es, taskId ∈ s.uuids
  settledKnown : ∀ taskId ∈ s.settled.map Prod.fst, taskId ∈ s.uuids

theorem Ledger.conservation {started : Bool} {es : List (Event Data Response)} {s : Pool Data Response}
    (h : Ledger started es s) : Conservation started es s := by
  have hplaces (taskId : Nat) : s.places taskId = s.promiseResponseMap.keys.count taskId := by
    have hacc := h.pool.accounted
    rw [add_zero] at hacc
    rw [Pool.places_eq, hacc, Multiset.coe_count]
  have hnodup : s.promiseResponseMap.keys.Nodup := AList.keys_nodup _
  refine ⟨fun taskId ha hs => ?_, fun taskId hne => ?_, h.keys, h.settledOnce, h.byOwnResponse⟩
  · rw [hplaces]
    exact List.count_eq_one_of_mem hnodup ((h.keys taskId).2 ⟨ha, hs⟩)
  · rw [hplaces] at hne
    exact (h.keys taskId).1 (List.count_pos_iff.1 (Nat.pos_of_ne_zero hne))

theorem ledger_of_fresh {p : Pool Data Response} (h : Fresh p) (hfixed : p.type = .fixed ∨ p.full = true)
    (hpost : ∀ t, p.postable t = true) : Ledger p.started [] p where
  pool := .of_fresh h hfixed hpost
  isStarted := rfl
  keys taskId := by simp [h.promiseResponseMap, acceptedIds]
  settledOnce := by simp [h.settled]
  byOwnResponse := by simp [h.settled, responses]
  acceptedKnown taskId ht := by simp [acceptedIds] at ht
  settledKnown taskId ht := by simp [h.settled] at ht

section Step
variable {started : Bool} {es : List (Event Data Response)} {s s' : Pool Data Response} {e : Event Data Response}

/-- An event that neither submits a task nor answers one leaves the ledger as it is. -/
theorem Ledger.same (h : Ledger started es s) (hs : SamePromises s s') (hp : FixedPool s' 0)
    (ha : acceptedId started e = none) (hr : response e = none) : Ledger started (es ++ [e]) s' := by
  have hacc : acceptedIds started (es ++ [e]) = acceptedIds started es := by simp [acceptedIds, ha]
  have hres : responses (es ++ [e]) = responses es := by simp [responses, hr]
  constructor
  · exact hp
  all_goals rw [hs]
  · exact h.isStarted
  · rw [hacc]; exact h.keys
  · exact h.settledOnce
  · rw [hacc, hres]; exact h.byOwnResponse
  · rw [hacc]; exact h.acceptedKnown
  · exact h.settledKnown

theorem Ledger.refused (h : Ledger started es s) {taskId : Nat} {name : Option String} {data : Data}
    {choice : Choice} {x : JsError} (hid : taskId ∉ s.uuids) (ha : ¬ Accepts s name choice)
    (hp : FixedPool (Pool.settle taskId (.thrown x) { s with uuids := taskId :: s.uuids }) 0) :
    Ledger started (es ++ [.execute taskId name data choice])
      (Pool.settle taskId (.thrown x) { s with uuids := taskId :: s.uuids }) := by
  have hnone : acceptedId started (.execute taskId name data choice : Event Data Response) = none := by
    cases choice with
    | none r => rfl
    | key k =>
      simp only [acceptedId, ite_eq_right_iff, reduceCtorEq, imp_false, Bool.and_eq_true, Bool.not_eq_true', not_and,
        Bool.not_eq_false]
      intro hst
      by_contra hname
      exact ha ⟨h.isStarted.trans hst, by simpa using hname, k, rfl⟩
  have hacc : acceptedIds started (es ++ [.execute taskId name data choice]) = acceptedIds started es := by
    simp [acceptedIds, hnone]
  have hres : responses (es ++ [.execute taskId name data choice]) = responses es := by simp [responses, response]
  have hnew : taskId ∉ s.settled.map Prod.fst := fun hm => hid (h.settledKnown _ hm)
  have hnacc : taskId ∉ acceptedIds started es := fun hm => hid (h.acceptedKnown _ hm)
  have hsettled := Pool.settle_settled (p := { s with uuids := taskId :: s.uuids }) hnew (.thrown x)
  have hrest := Pool.settle_rest { s with uuids := taskId :: s.uuids } taskId (.thrown x)
  refine ⟨hp, ?_, fun i => ?_, ?_, ?_, fun i hi => ?_, fun i hi => ?_⟩
  · rw [hrest]
    exact h.isStarted
  · rw [hacc, hsettled, hrest]
    refine (h.keys i).trans (and_congr_right fun hi => ?_)
    have hne : i ≠ taskId := fun he => hnacc (he ▸ hi)
    simp [hne]
  · rw [hsettled]
    refine nodup_map_concat h.settledOnce fun a ha (heq : a.1 = taskId) => ?_
    exact hnew (heq ▸ List.mem_map_of_mem ha)
  · rw [hacc, hres, hsettled, List.filter_append, h.byOwnResponse]
    simp [hnacc]
  · rw [hacc] at hi
    rw [hrest]
    exact List.mem_cons_of_mem _ (h.acceptedKnown i hi)
  · rw [hsettled, List.map_append, List.mem_append] at hi
    rw [hrest]
    rcases hi with hi | hi
    · exact List.mem_cons_of_mem _ (h.settledKnown i hi)
    · obtain rfl : i = taskId := by simpa using hi
      exact List.mem_cons_self

theorem Ledger.executed (h : Ledger started es s) {taskId k : Nat} {name : Option String} {data : Data}
    (hid : taskId ∉ s.uuids) (ha : Accepts s name (.key k)) (hs : SamePromises (s.called taskId k) s')
    (hp : FixedPool s' 0) : Ledger started (es ++ [.execute taskId name data (.key k)]) s' := by
  have hsome : acceptedId started (.execute taskId name data (.key k) : Event Data Response) = some taskId := by
    simp [acceptedId, ← h.isStarted, ha.1, ha.2.1]
  have hacc : acceptedIds started (es ++ [.execute taskId name data (.key k)]) = acceptedIds started es ++ [taskId] := by
    simp [acceptedIds, hsome]
  have hres : responses (es ++ [.execute taskId name data (.key k)]) = responses es := by simp [responses, response]
  have hnew : taskId ∉ s.settled.map Prod.fst := fun hm => hid (h.settledKnown _ hm)
  have hkey : taskId ∉ s.promiseResponseMap.keys := fun hm => hid (h.pool.uuids _ hm)
  constructor
  · exact hp
  all_goals rw [hs]
  · exact h.isStarted
  · intro i
    simp only [Pool.called, Pool.withPromise, AList.keys_insert, List.erase_of_not_mem hkey, List.mem_cons, hacc,
      List.mem_append, List.not_mem_nil, or_false, h.keys i]
    by_cases he : i = taskId
    · subst he
      simp [hnew]
    · simp [he]
  · exact h.settledOnce
  · rw [hacc, hres, ← h.byOwnResponse]
    refine List.filter_congr fun a ha => ?_
    have hne : a.1 ≠ taskId := fun he => hnew (he ▸ List.mem_map_of_mem ha)
    simp [hne]
  · intro i hi
    rw [hacc, List.mem_append, List.mem_singleton] at hi
    rcases hi with hi | rfl
    · exact List.mem_cons_of_mem _ (h.acceptedKnown i hi)
    · exact List.mem_cons_self
  · exact fun i hi => List.mem_cons_of_mem _ (h.settledKnown i hi)

theorem Ledger.responded (h : Ledger started es s) {w k : Nat} {m : TaskResponse Response}
    (hl : s.promiseResponseMap.lookup m.taskId = some k) (hs : SamePromises (s.responded w m k) s')
    (hp : FixedPool s' 0) : Ledger started (es ++ [.message w (.taskResponse m)]) s' := by
  have hacc : acceptedIds started (es ++ [.message w (.taskResponse m)]) = acceptedIds started es := by
    simp [acceptedIds, acceptedId]
  have hres : responses (es ++ [.message w (.taskResponse m)]) = responses es ++ [(m.taskId, m.settlement)] := by
    simp [responses, response]
  have hkey : m.taskId ∈ s.promiseResponseMap.keys :=
    AList.lookup_isSome.1 (Option.isSome_iff_exists.2 ⟨k, hl⟩)
  obtain ⟨hma, hnew⟩ := (h.keys m.taskId).1 hkey
  have hsettled : (s.responded w m k).settled = s.settled ++ [(m.taskId, m.settlement)] := by
    have := Pool.settle_settled (p := s.modifyNode (s.getWorkerNodeKeyByWorkerId w) (·.answer m.taskId)) hnew
      m.settlement
    exact this
  have hrest := responded_rest s w k m
  constructor
  · exact hp
  all_goals rw [hs]
  · rw [hrest]
    exact h.isStarted
  · intro i
    rw [hacc, hsettled, hrest]
    simp only [AList.keys_erase, List.map_append, List.map_cons, List.map_nil, List.mem_append, List.mem_singleton,
      not_or]
    rw [(AList.keys_nodup _).mem_erase_iff, h.keys i]
    tauto
  · rw [hsettled]
    refine nodup_map_concat h.settledOnce fun a ha (heq : a.1 = m.taskId) => ?_
    exact hnew (heq ▸ List.mem_map_of_mem ha)
  · rw [hacc, hres, hsettled, List.filter_append, h.byOwnResponse]
    simp [hma]
  · intro i hi
    rw [hacc] at hi
    rw [hrest]
    exact h.acceptedKnown i hi
  · intro i hi
    rw [hsettled, List.map_append, List.mem_append] at hi
    rw [hrest]
    rcases hi with hi | hi
    · exact h.settledKnown i hi
    · obtain rfl : i = m.taskId := by simpa using hi
      exact h.acceptedKnown _ hma

/-- Every event keeps the ledger. -/
theorem Ledger.step (h : Ledger started es s) (hstep : FixedStep s e s') : Ledger started (es ++ [e]) s' := by
  have hp := hstep.fixedPool h.pool
  cases hstep with
  | refused x hid ha => exact h.refused hid ha hp
  | @executed taskId name data k fuel s' hid ha hk hm =>
    have hc := h.pool.called hk ⟨name.getD defaultTaskName, data, s.now, taskId⟩ hid
    exact h.executed hid ha (dispatchTask_reached (h := 0) hc hk hm).frame.samePromises hp
  | @responded w m k fuel n s' hn hm hl hk hx =>
    have hc := h.pool.responded (k := k) hn hm
    have hlt : k < (s.responded w m k).workerNodes.length := by rwa [Pool.length_responded]
    exact h.responded hl (executeNextTask_reached hc hlt hx).frame.samePromises hp
  | @informed w message f hm hf =>
    refine h.same rfl hp ?_ ?_
    · rfl
    · cases message <;> first | rfl | exact absurd rfl (hm _)
  | @ignored w message hm =>
    refine h.same rfl hp ?_ ?_
    · rfl
    · cases message <;> first | rfl | exact absurd rfl (hm _)
  | polled hk hx => exact h.same (polled_reached hk hx).frame.samePromises hp rfl rfl
  | reconfigured he hx =>
    have hs := (reconfigured_fixedPool h.pool he hx).2
    rcases he with ⟨b, o, rfl⟩ | ⟨o, rfl⟩
    · exact h.same hs hp rfl rfl
    · exact h.same hs hp rfl rfl

end Step

/-! ## Runs -/

/-- Time passes without a change of the ledger. -/
theorem Ledger.now {started : Bool} {es : List (Event Data Response)} {s : Pool Data Response}
    (h : Ledger started es s) (now : ℚ) : Ledger started es { s with now } :=
  ⟨h.pool.of_view rfl rfl, h.isStarted, h.keys, h.settledOnce, h.byOwnResponse, h.acceptedKnown, h.settledKnown⟩

/-- No run over a fixed set of live workers loses or duplicates a task. -/
theorem tasks_conserved {s₀ s : Pool Data Response} {es : List (Event Data Response)} (h₀ : Fresh s₀)
    (hfixed : s₀.type = .fixed ∨ s₀.full = true) (hsend : ∀ t, s₀.postable t = true)
    (hr : Run (Guarded FixedEvent Step) s₀ es s) : Conservation s₀.started es s := by
  have hl := hr.trace_inv (Ledger s₀.started) (ledger_of_fresh h₀ hfixed hsend) fun es s e s' hl hs => by
    obtain ⟨now, hstep⟩ := fixedStep_of_step hl.pool hs.1 hs.2
    exact (hl.now now).step hstep
  exact hl.conservation

/-- Two tasks for each of two workers; the second empties its queue and steals from the first,
then the queue is turned off. -/
def stealThenDisable : List (Event Unit Unit) :=
  [submit 0 0, submit 1 0, submit 2 1, submit 3 1, respond 1 2, respond 1 1, .enableTasksQueue false .undefined]

theorem tasks_conserved_steal :
    ∃ h, Conservation true stealThenDisable ((replay (nextIf FixedEvent 5)
      (startedPool 2 true ⟨some 4, some 1, true, true⟩) stealThenDisable).get h) :=
  have h : (replay (nextIf FixedEvent 5) (startedPool 2 true ⟨some 4, some 1, true, true⟩) stealThenDisable).isSome =
      true := by decide +kernel
  ⟨h, tasks_conserved (fresh_startedPool 2 true _) (.inl rfl) (fun _ => rfl) (run_of_events h)⟩

end Poolifier
