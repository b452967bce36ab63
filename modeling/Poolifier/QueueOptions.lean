import Poolifier.Plain
import Poolifier.StrategyContext
/-!
# Tasks queue options that are refused, and options that are merged

`enableTasksQueue` sets the flag before `setTasksQueueOptions` checks the
options, so options that are refused leave a queue enabled that was not, and
perhaps without a quota. Options that pass may have a field that is `undefined`:
the check takes it for one that is absent, but it overwrites the default.
-/

namespace Poolifier

open EffLib

variable {Data Response : Type}

/-! ## Refused options -/

inductive TasksQueueCall
  | enableTasksQueue (enable : Bool) (tasksQueueOptions : TasksQueueOptionsArgument)
  | setTasksQueueOptions (tasksQueueOptions : TasksQueueOptionsArgument)

def TasksQueueCall.options : TasksQueueCall → TasksQueueOptionsArgument
  | .enableTasksQueue _ o | .setTasksQueueOptions o => o

def TasksQueueCall.run (fuel : Nat) : TasksQueueCall → PoolM Data Response Unit
  | .enableTasksQueue enable o => Poolifier.enableTasksQueue (callbacks fuel) fuel enable o
  | .setTasksQueueOptions o => Poolifier.setTasksQueueOptions o

/-- The options, and the callbacks, back pressure size and queue of each node, are the same. -/
structure SameQueues (s s' : Pool Data Response) : Prop where
  opts : s'.opts = s.opts
  nodes : s'.workerNodes.map (fun n => (n.onEmptyQueue, n.onBackPressure, n.tasksQueueBackPressureSize, n.tasksQueue)) =
    s.workerNodes.map fun n => (n.onEmptyQueue, n.onBackPressure, n.tasksQueueBackPressureSize, n.tasksQueue)

/-- A task that is dispatched to an idle worker is executed, not queued. -/
def ExecutesOnIdle (s : Pool Data Response) : Prop :=
  ∀ n ∈ s.workerNodes, n.tasksQueue = [] → n.usage.tasks.executing = 0 → s.opts.enableTasksQueue = true →
    s.shallExecute n = true

section Refused
variable {s s' : Pool Data Response} {a : TasksQueueOptionsArgument} {cb : Callbacks Data Response}

/-- The conditional of `execute` at an idle worker. -/
theorem dispatchTask_idle (h : ExecutesOnIdle s) {k : Nat} {n : WorkerNode Data} (hn : s.workerNodes[k]? = some n)
    (hqueue : n.tasksQueue = []) (hidle : n.usage.tasks.executing = 0) (t : Task Data) :
    dispatchTask cb k t s = executeTask k t s := by
  unfold dispatchTask
  rw [get_bind]
  by_cases hq : s.opts.enableTasksQueue = true
  · rw [if_pos hq]
    unfold executeOrEnqueueTask
    rw [bind_ok (shallExecuteTask_eq hn), h n (List.mem_of_getElem? hn) hqueue hidle hq]
    rfl
  · rw [if_neg hq]

/-- A worker that is idle executes a task if there is a quota, which is never zero. -/
theorem shallExecute_idle {n : WorkerNode Data} (hqueue : n.tasksQueue = []) (hidle : n.usage.tasks.executing = 0) :
    s.shallExecute n = true ↔ ∃ c, s.concurrency = some c ∧ 0 < c := by
  unfold Pool.shallExecute Pool.belowConcurrency
  rw [hqueue, hidle]
  simp [Option.any_eq_true]

theorem checkPositiveInteger_error {name : String} {x : OptionField JsNumber} {e : JsError}
    (h : checkPositiveInteger name x = .error e) : ∃ text, e = .typeError text ∨ e = .rangeError text := by
  unfold checkPositiveInteger at h
  split at h
  · cases h
  · cases h
  · split at h
    · cases h
      exact ⟨_, .inl rfl⟩
    · split at h
      · split at h
        · cases h
          exact ⟨_, .inr rfl⟩
        · cases h
      · cases h

/-- Invalid options are refused with a `TypeError` or a `RangeError`. -/
theorem checkValidTasksQueueOptions_error {e : JsError} (h : checkValidTasksQueueOptions a = .error e) :
    ∃ text, e = .typeError text ∨ e = .rangeError text := by
  cases a with
  | undefined => cases h
  | notPlainObject =>
    cases h
    exact ⟨_, .inl rfl⟩
  | object o =>
    have heq : checkValidTasksQueueOptions (.object o) =
      (checkPositiveInteger "concurrency" o.concurrency >>= fun _ => checkPositiveInteger "queue size" o.size) := rfl
    rw [heq] at h
    rcases hc : checkPositiveInteger "concurrency" o.concurrency with e' | _
    · rw [hc] at h
      cases h
      exact checkPositiveInteger_error hc
    · rw [hc] at h
      exact checkPositiveInteger_error h

/-- A node that is missing, a channel that is closed or a task that cannot be cloned. -/
def SendError (e : JsError) : Prop := e = .undefinedAccess ∨ e = .dataCloneError

theorem throwsOnly_nodeAt (k : Nat) : ThrowsOnly SendError (nodeAt k : PoolM Data Response (WorkerNode Data)) := by
  refine throwsOnly_get.bind fun p => ?_
  split
  · exact throwsOnly_throw (.inl rfl)
  · exact throwsOnly_pure _

theorem throwsOnly_executeTask (k : Nat) (t : Task Data) :
    ThrowsOnly SendError (executeTask k t : PoolM Data Response Unit) := by
  refine ThrowsOnly.bind ?_ fun _ => ?_
  · exact (throwsOnly_nodeAt k).bind fun _ => throwsOnly_get.bind fun p => throwsOnly_modify _
  · refine (throwsOnly_nodeAt k).bind fun n => ?_
    split
    · exact throwsOnly_throw (.inl rfl)
    · refine throwsOnly_get.bind fun p => ?_
      split
      · exact throwsOnly_throw (.inr rfl)
      · exact throwsOnly_modify _

theorem throwsOnly_dequeueThen (cb : Callbacks Data Response) (k : Nat) {next : Task Data → PoolM Data Response Unit}
    (hnext : ∀ t, ThrowsOnly SendError (next t)) : ThrowsOnly SendError (dequeueThen cb k next) := by
  have htaken : ThrowsOnly SendError (afterTaken cb k) := by
    refine (throwsOnly_nodeAt k).bind fun n => ?_
    split
    · exact throwsOnly_swallow _ _
    · exact throwsOnly_pure _
  have hdequeue : ThrowsOnly SendError (dequeueTask cb k) :=
    (throwsOnly_nodeAt k).bind fun n => (throwsOnly_modify _).bind fun _ => htaken.bind fun _ => throwsOnly_pure _
  refine hdequeue.bind fun t => ?_
  cases t with
  | none => exact throwsOnly_throw (.inl rfl)
  | some t => exact hnext t

theorem throwsOnly_disableTasksQueue (cb : Callbacks Data Response) (fuel : Nat) :
    ThrowsOnly SendError (disableTasksQueue cb fuel) := by
  refine (throwsOnly_modify _).bind fun _ => (throwsOnly_modify _).bind fun _ => throwsOnly_get.bind fun p => ?_
  refine ThrowsOnly.forEach (fun k => ?_) _
  refine ThrowsOnly.bind ?_ fun _ => throwsOnly_modify _
  refine ThrowsOnly.whileDo ?_ (throwsOnly_dequeueThen cb k (throwsOnly_executeTask k)) fuel
  exact (throwsOnly_nodeAt k).bind fun n => throwsOnly_pure _

/-- While the queue is enabled, options that are refused change nothing. -/
theorem setTasksQueueOptions_refused {e : JsError} (hq : s.opts.enableTasksQueue = true)
    (hcheck : checkValidTasksQueueOptions a = .error e) : setTasksQueueOptions a s = some (.error e, s) := by
  unfold setTasksQueueOptions
  rw [get_bind, if_pos hq, hcheck]
  rfl

theorem setTasksQueueOptions_disabled (hq : ¬ s.opts.enableTasksQueue = true) :
    setTasksQueueOptions a s = some (.ok (), { s with opts.tasksQueueOptions := none }) := by
  unfold setTasksQueueOptions
  rw [get_bind, if_neg hq]
  rfl

/-- A call that disables the queue checks no options. -/
theorem throwsOnly_enableTasksQueue_false (cb : Callbacks Data Response) (fuel : Nat) (a : TasksQueueOptionsArgument) :
    ThrowsOnly SendError (enableTasksQueue cb fuel false a) := by
  have hrest : ThrowsOnly SendError (do
      Eff.modify fun p => { p with opts.enableTasksQueue := false }
      setTasksQueueOptions a : PoolM Data Response Unit) := by
    intro p
    rw [wp_bind, wp_modify]
    exact (wp_of_ok (setTasksQueueOptions_disabled Bool.false_ne_true)).2 trivial
  refine throwsOnly_get.bind fun p => ?_
  split
  · exact (throwsOnly_disableTasksQueue cb fuel).bind fun _ => hrest
  · exact (throwsOnly_pure ()).bind fun _ => hrest

/-- A call that throws the exception of the check finds everything as it was, and a task for an idle worker
executed, if and only if the queue was enabled before it and a task for an idle worker was executed. -/
theorem refused_options_iff (c : TasksQueueCall) {fuel : Nat} {e : JsError} (h : c.run fuel s = some (.error e, s'))
    (hcheck : checkValidTasksQueueOptions c.options = .error e) :
    SameQueues s s' ∧ ExecutesOnIdle s' ↔ s.opts.enableTasksQueue = true ∧ ExecutesOnIdle s := by
  have hstate : s' = { s with opts.enableTasksQueue := true } := by
    cases c with
    | setTasksQueueOptions a =>
      by_cases hq : s.opts.enableTasksQueue = true
      · cases (setTasksQueueOptions_refused hq hcheck).symm.trans h
        rw [← hq]
      · cases (setTasksQueueOptions_disabled hq).symm.trans h
    | enableTasksQueue enable a =>
      cases enable with
      | true =>
        have h : enableTasksQueue (callbacks fuel) fuel true a s = some (.error e, s') := h
        rw [Supply.enableTasksQueue_eq] at h
        cases (setTasksQueueOptions_refused rfl hcheck).symm.trans h
        rfl
      | false =>
        have hsend : SendError e := throwsOnly_enableTasksQueue_false (callbacks fuel) fuel a s (.error e) s' h
        obtain ⟨text, rfl | rfl⟩ := checkValidTasksQueueOptions_error hcheck
        · rcases hsend with hsend | hsend <;> cases hsend
        · rcases hsend with hsend | hsend <;> cases hsend
  constructor
  · rintro ⟨hsame, hidle⟩
    have hq : s.opts.enableTasksQueue = true := by
      rw [← hsame.opts, hstate]
    refine ⟨hq, ?_⟩
    have hsame : s' = s := by
      rw [hstate, ← hq]
    rwa [hsame] at hidle
  · rintro ⟨hq, hidle⟩
    have hsame : s' = s := by
      rw [hstate, ← hq]
    rw [hsame]
    exact ⟨⟨rfl, rfl⟩, hidle⟩

end Refused

/-- Options with a quota of zero. -/
def zeroConcurrency : TasksQueueOptionsArgument := .object ⟨.absent, .value (.int 0), .absent, .absent⟩

theorem refused_options_iff_enabled :
    let s := startedPool 1 true ⟨some 1, some 1, false, false⟩
    SameQueues s s ∧ ExecutesOnIdle s ↔ s.opts.enableTasksQueue = true ∧ ExecutesOnIdle s := by
  have hrun : (TasksQueueCall.setTasksQueueOptions zeroConcurrency).run 0
    (startedPool 1 true ⟨some 1, some 1, false, false⟩) = some (.error _, startedPool 1 true ⟨some 1, some 1, false, false⟩) := rfl
  exact refused_options_iff _ hrun rfl

/-- The queue has been enabled without options, and a task for an idle worker is queued. -/
theorem refused_options_enable : ¬ ∀ (s s' : Pool Unit Unit) (c : TasksQueueCall) (fuel : Nat) (e : JsError),
    c.run fuel s = some (.error e, s') → checkValidTasksQueueOptions c.options = .error e →
      SameQueues s s' ∧ ExecutesOnIdle s' := by
  intro hclaim
  have hrun : (TasksQueueCall.enableTasksQueue true zeroConcurrency).run 0 (startedPool 1 false ⟨none, none, false, false⟩) =
    some (.error _, { startedPool 1 false ⟨none, none, false, false⟩ with opts.enableTasksQueue := true }) := rfl
  have hopts := (hclaim _ _ _ _ _ hrun rfl).1.opts
  cases hopts

/-! ## Merged options -/

/-- Where options are merged: in the constructor of a pool, or in calls on a pool whose queue is enabled. -/
inductive MergeSite (Data Response : Type)
  | construction (c : PoolConfig Data)
  | calls (p : Pool Data Response)

namespace MergeSite

/-- What the merge reads as the maximum size: the constructor of a dynamic pool sets `max` later. -/
def maxSizeRead : MergeSite Data Response → Nat
  | .construction c => c.numberOfWorkers
  | .calls p => p.maxSize

def maxSize : MergeSite Data Response → Nat
  | .construction c =>
    match c.type with
    | .fixed => c.numberOfWorkers
    | .dynamic => c.max.getD c.numberOfWorkers
  | .calls p => p.maxSize

/-- A size that is absent is not read from a maximum size of zero. -/
def DefaultsSize (a : TasksQueueOptionsArgument) : MergeSite Data Response → Prop
  | .construction c => a.size = .absent → 1 ≤ c.numberOfWorkers
  | .calls _ => True

/-- The pool and its context once the options have been merged. -/
def Sets (a : TasksQueueOptionsArgument) (w : StrategyOptionsArgument) (p' : Pool Data Response) (context : StrategyContext) :
    MergeSite Data Response → Prop
  | .construction c =>
    p' = initialPool { c with enableTasksQueue := true, tasksQueueOptions := a } ∧
      ∃ strategy weight, context = .construct strategy w.merged weight
  | .calls p =>
    setTasksQueueOptions a { p with opts.enableTasksQueue := true } = some (.ok (), p') ∧
      ∃ before : StrategyContext, context = before.setOptions w.merged

end MergeSite

/-- The field that gives a concurrency. -/
def TasksQueueOptionsArgument.concurrency : TasksQueueOptionsArgument → OptionField JsNumber
  | .object o => o.concurrency
  | _ => .absent

/-- The field that gives the retries. -/
def StrategyOptionsArgument.retries : StrategyOptionsArgument → OptionField JsNumber
  | .object o => o.retries
  | _ => .absent

/-- Size and concurrency are positive integers, and retries an integer that is not negative. -/
structure CompleteOptions (q : TasksQueueOptions) (o : WorkerChoiceStrategyOptions) : Prop where
  size : ∃ n, q.size = some n ∧ 0 < n
  concurrency : ∃ n, q.concurrency = some n ∧ 0 < n
  retries : o.retries.isSome = true

/-- `shallExecuteTask`, `hasBackPressure` of each node and `execute` of the context compare with numbers. -/
structure ComparesNumbers (p : Pool Data Response) (context : StrategyContext) : Prop where
  shallExecuteTask : p.concurrency.isSome = true
  hasBackPressure : ∀ n ∈ p.workerNodes, n.tasksQueueBackPressureSize.isSome = true
  execute : context.opts.retries.isSome = true

section Merged
variable {a : TasksQueueOptionsArgument} {w : StrategyOptionsArgument} {p : Pool Data Response} {context : StrategyContext}

/-- A number that passes its check is merged to a positive one, unless it is `undefined`, or absent and its
default is zero. -/
theorem merged_positive_iff {name : String} {x : OptionField JsNumber} (h : checkPositiveInteger name x = .ok ())
    (default : Nat) : (∃ n, (x.over (.int default)).bind (·.toNat?) = some n ∧ 0 < n) ↔
      x ≠ .undefined ∧ (x = .absent → 0 < default) := by
  cases x with
  | absent =>
    refine ⟨?_, fun hx => ⟨default, rfl, hx.2 rfl⟩⟩
    rintro ⟨n, hn, hpos⟩
    obtain rfl : default = n := Option.some.inj hn
    exact ⟨(by rintro ⟨⟩), fun _ => hpos⟩
  | undefined =>
    refine ⟨?_, fun hx => absurd rfl hx.1⟩
    rintro ⟨n, ⟨⟩, -⟩
  | value x =>
    obtain ⟨n, rfl, hpos, -⟩ := checkPositiveInteger_ok h
    exact ⟨fun _ => ⟨(by rintro ⟨⟩), (by rintro ⟨⟩)⟩, fun _ => ⟨n, rfl, hpos⟩⟩

theorem merged_retries_iff {maxSize : Nat} (h : checkValidWorkerChoiceStrategyOptions maxSize w.checked = .ok ()) :
    w.merged.retries.isSome = true ↔ w.retries ≠ .undefined := by
  cases w with
  | undefined => exact ⟨fun _ => (by rintro ⟨⟩), fun _ => rfl⟩
  | notPlainObject => cases h
  | object o =>
    have hr : checkRetries o.retries = .ok () := by
      rw [StrategyOptionsArgument.checked, check_object] at h
      rcases hr : checkRetries o.retries with e | _
      · rw [hr] at h
        cases h
      · rfl
    show ((o.retries.over (.int 6)).bind (·.toNat?)).isSome = true ↔ o.retries ≠ .undefined
    rcases hx : o.retries with _ | _ | x
    · exact ⟨fun _ => (by rintro ⟨⟩), fun _ => rfl⟩
    · exact ⟨(by rintro ⟨⟩), fun hne => absurd rfl hne⟩
    · refine ⟨fun _ => (by rintro ⟨⟩), fun _ => ?_⟩
      cases x with
      | int z => rfl
      | notInteger =>
        rw [hx] at hr
        cases hr

theorem complete_iff {maxSize maxSize' : Nat} (ha : checkValidTasksQueueOptions a = .ok ())
    (hw : checkValidWorkerChoiceStrategyOptions maxSize' w.checked = .ok ()) :
    CompleteOptions (buildTasksQueueOptions maxSize a) w.merged ↔
      a.size ≠ .undefined ∧ a.concurrency ≠ .undefined ∧ w.retries ≠ .undefined ∧ (a.size = .absent → 1 ≤ maxSize) := by
  have habsent (name : String) : checkPositiveInteger name .absent = .ok () := rfl
  have hsize : (∃ n, (buildTasksQueueOptions maxSize a).size = some n ∧ 0 < n) ↔
      a.size ≠ .undefined ∧ (a.size = .absent → 0 < maxSize ^ 2) := by
    cases a with
    | undefined => exact merged_positive_iff (habsent "queue size") (maxSize ^ 2)
    | notPlainObject => cases ha
    | object o =>
      have hx := merged_positive_iff (checkValidTasksQueueOptions_ok ha).2 (maxSize ^ 2)
      rw [Nat.cast_pow] at hx
      exact hx
  have hconcurrency : (∃ n, (buildTasksQueueOptions maxSize a).concurrency = some n ∧ 0 < n) ↔
      a.concurrency ≠ .undefined ∧ (a.concurrency = .absent → 0 < 1) := by
    cases a with
    | undefined => exact merged_positive_iff (habsent "concurrency") 1
    | notPlainObject => cases ha
    | object o => exact merged_positive_iff (checkValidTasksQueueOptions_ok ha).1 1
  have hpos : 0 < maxSize ^ 2 ↔ 1 ≤ maxSize := pow_pos_iff two_ne_zero
  constructor
  · intro h
    obtain ⟨hsome, hdefault⟩ := hsize.1 h.size
    exact ⟨hsome, (hconcurrency.1 h.concurrency).1, (merged_retries_iff hw).1 h.retries, fun hx => hpos.1 (hdefault hx)⟩
  · rintro ⟨hs, hc, hr, hmax⟩
    exact ⟨hsize.2 ⟨hs, fun hx => hpos.2 (hmax hx)⟩, hconcurrency.2 ⟨hc, fun _ => Nat.one_pos⟩, (merged_retries_iff hw).2 hr⟩

/-- Merged where the options are set. -/
theorem MergeSite.Sets.merged {site : MergeSite Data Response} (h : site.Sets a w p context)
    (ha : checkValidTasksQueueOptions a = .ok ()) :
    p.opts.tasksQueueOptions = some (buildTasksQueueOptions site.maxSizeRead a) ∧
      (∀ n ∈ p.workerNodes, n.tasksQueueBackPressureSize = (buildTasksQueueOptions site.maxSizeRead a).size) ∧
        context.opts = w.merged := by
  cases site with
  | construction c =>
    obtain ⟨rfl, strategy, weight, rfl⟩ := h
    exact ⟨rfl, List.forall_mem_nil _, rfl⟩
  | calls p₀ =>
    obtain ⟨hset, before, rfl⟩ := h
    unfold setTasksQueueOptions at hset
    rw [get_bind, if_pos rfl, ha] at hset
    cases hset
    refine ⟨rfl, fun n hn => ?_, rfl⟩
    obtain ⟨n₃, hn₃, rfl⟩ := List.mem_map.1 hn
    obtain ⟨n₂, hn₂, rfl⟩ := List.mem_map.1 hn₃
    obtain ⟨n₁, -, rfl⟩ := List.mem_map.1 hn₂
    rfl

theorem MergeSite.defaultsSize_iff {site : MergeSite Data Response} (hmax : 1 ≤ site.maxSize) :
    site.DefaultsSize a ↔ (a.size = .absent → 1 ≤ site.maxSizeRead) := by
  cases site with
  | construction c => exact Iff.rfl
  | calls p => exact ⟨fun _ _ => hmax, fun _ => trivial⟩

/-- Accepted options are merged to complete ones, and no comparison is with `undefined`, if and only if no number
among them is given as `undefined`, and the queue size is not left to a maximum size read too early. -/
theorem merged_options_iff (site : MergeSite Data Response) (hmax : 1 ≤ site.maxSize)
    (ha : checkValidTasksQueueOptions a = .ok ())
    (hw : checkValidWorkerChoiceStrategyOptions site.maxSizeRead w.checked = .ok ()) (hs : site.Sets a w p context) :
    (∃ q, p.opts.tasksQueueOptions = some q ∧ CompleteOptions q context.opts) ∧ ComparesNumbers p context ↔
      a.size ≠ .undefined ∧ a.concurrency ≠ .undefined ∧ w.retries ≠ .undefined ∧ site.DefaultsSize a := by
  obtain ⟨hq, hnodes, hopts⟩ := hs.merged ha
  rw [MergeSite.defaultsSize_iff hmax, ← complete_iff ha hw, hq, hopts]
  constructor
  · rintro ⟨⟨q, heq, hcomplete⟩, -⟩
    cases heq
    exact hcomplete
  · intro h
    refine ⟨⟨_, rfl, h⟩, ?_, fun n hn => ?_, ?_⟩
    · obtain ⟨c, hc, -⟩ := h.concurrency
      unfold Pool.concurrency
      rw [hq, Option.bind_some, hc]
      rfl
    · obtain ⟨z, hz, -⟩ := h.size
      rw [hnodes n hn, hz]
      rfl
    · rw [hopts]
      exact h.retries

end Merged

/-- The calls that change the options of a pool to the defaults. -/
theorem merged_options_iff_defaults : ∃ p context,
    (MergeSite.calls (startedPool 1 true ⟨some 1, some 2, false, false⟩)).Sets .undefined .undefined p context ∧
      ComparesNumbers p context := by
  have hset : setTasksQueueOptions .undefined { startedPool 1 true ⟨some 1, some 2, false, false⟩ with
    opts.enableTasksQueue := true } = some (.ok (), _) := rfl
  have hs : (MergeSite.calls (startedPool 1 true ⟨some 1, some 2, false, false⟩)).Sets .undefined .undefined _ _ :=
    ⟨hset, .construct .roundRobin StrategyOptionsArgument.defaults 1, rfl⟩
  exact ⟨_, _, hs, ((merged_options_iff _ le_rfl rfl rfl hs).2 ⟨(by rintro ⟨⟩), (by rintro ⟨⟩), (by rintro ⟨⟩), trivial⟩).2⟩

/-- A concurrency that is `undefined` passes the check and overwrites the default. -/
theorem merged_options_undefined : ¬ ∀ (site : MergeSite Unit Unit) (a : TasksQueueOptionsArgument)
    (w : StrategyOptionsArgument) (p : Pool Unit Unit) (context : StrategyContext), 1 ≤ site.maxSize →
      checkValidTasksQueueOptions a = .ok () →
        checkValidWorkerChoiceStrategyOptions site.maxSizeRead w.checked = .ok () → site.Sets a w p context →
          (∃ q, p.opts.tasksQueueOptions = some q ∧ CompleteOptions q context.opts) ∧ ComparesNumbers p context := by
  intro hclaim
  have hset : setTasksQueueOptions (.object ⟨.absent, .undefined, .absent, .absent⟩)
    { startedPool 1 true ⟨some 1, some 2, false, false⟩ with opts.enableTasksQueue := true } = some (.ok (), _) := rfl
  have hcompares := (hclaim (.calls (startedPool 1 true ⟨some 1, some 2, false, false⟩)) _ .undefined _ _ le_rfl rfl rfl
    ⟨hset, .construct .roundRobin StrategyOptionsArgument.defaults 1, rfl⟩).2.shallExecuteTask
  cases hcompares

end Poolifier
