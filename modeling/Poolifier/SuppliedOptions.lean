import Poolifier.Outline
import Poolifier.Strategies
/-!
# Options given early and late

A dynamic pool can be given its options when it is constructed, or by calls
later. The code that checks them and fills in defaults is the same, but reads
the maximum size of the pool, which the constructor of `AbstractPool` does not
know yet and takes for the minimum size. The main result says for which options
this makes no difference.
-/

namespace Poolifier

open EffLib RunLib

variable {Data Response : Type}

/-! ## Worker choice strategy options -/

/-- The fields that the check reads; a measurement may be any string. -/
structure WorkerChoiceStrategyOptionsObject where
  retries : OptionField JsNumber
  weights : OptionField (AList fun _ : Int => ℚ)
  measurement : OptionField String

/-- A worker choice strategy options argument. -/
inductive WorkerChoiceStrategyOptionsArgument
  | undefined
  | notPlainObject
  | object (o : WorkerChoiceStrategyOptionsObject)

def Measurement.ofString? : String → Option Measurement
  | "runTime" => some .runTime
  | "waitTime" => some .waitTime
  | "elu" => some .elu
  | _ => none

def checkRetries : OptionField JsNumber → Except JsError Unit
  | .absent => .ok ()
  | .undefined => .ok ()
  | .value x =>
    if !x.isSafeInteger then
      .error (.typeError "Invalid worker choice strategy options: retries must be an integer")
    else
      match x with
      | .int z =>
        if z < 0 then
          .error (.rangeError
            s!"Invalid worker choice strategy options: retries '{z}' must be greater or equal than zero")
        else .ok ()
      | .notInteger => .ok ()

/-- The check that depends on the maximum size of the pool. -/
def checkWeights (maxSize : Nat) : OptionField (AList fun _ : Int => ℚ) → Except JsError Unit
  | .absent => .ok ()
  | .undefined => .ok ()
  | .value weights =>
    if weights.keys.length ≠ maxSize then
      .error (.error "Invalid worker choice strategy options: must have a weight for each worker node")
    else .ok ()

def checkMeasurement : OptionField String → Except JsError Unit
  | .absent => .ok ()
  | .undefined => .ok ()
  | .value measurement =>
    if (Measurement.ofString? measurement).isNone then
      .error (.error s!"Invalid worker choice strategy options: invalid measurement '{measurement}'")
    else .ok ()

def checkValidWorkerChoiceStrategyOptions (maxSize : Nat) : WorkerChoiceStrategyOptionsArgument → Except JsError Unit
  | .undefined => .ok ()
  | .notPlainObject => .error (.typeError "Invalid worker choice strategy options: must be a plain object")
  | .object o => do
    checkRetries o.retries
    checkWeights maxSize o.weights
    checkMeasurement o.measurement

/-- `setWorkerChoiceStrategyOptions`, as far as the state of the pool goes: the options are the strategy's. -/
def setWorkerChoiceStrategyOptions (w : WorkerChoiceStrategyOptionsArgument) : PoolM Data Response Unit := do
  let p ← Eff.get
  liftCheck (checkValidWorkerChoiceStrategyOptions p.maxSize w)

/-! ## The check of the weights -/

/-- The weights that the check comes to: those of options whose retries it accepts. -/
def WorkerChoiceStrategyOptionsArgument.checkedWeights : WorkerChoiceStrategyOptionsArgument → Option (AList fun _ : Int => ℚ)
  | .object o => if checkRetries o.retries = .ok () then o.weights.value? else none
  | _ => none

/-- Options without weights that are accepted, whatever the size of the pool. -/
def WorkerChoiceStrategyOptionsArgument.Unweighted : WorkerChoiceStrategyOptionsArgument → Prop
  | .undefined => True
  | .notPlainObject => False
  | .object o => checkRetries o.retries = .ok () ∧ o.weights.value? = none ∧ checkMeasurement o.measurement = .ok ()

section Check
variable {w : WorkerChoiceStrategyOptionsArgument} {weights : AList fun _ : Int => ℚ}

theorem check_object (maxSize : Nat) (o : WorkerChoiceStrategyOptionsObject) :
    checkValidWorkerChoiceStrategyOptions maxSize (.object o) =
      (checkRetries o.retries >>= fun _ => checkWeights maxSize o.weights >>= fun _ => checkMeasurement o.measurement) :=
  rfl

theorem checkWeights_of_none {weights : OptionField (AList fun _ : Int => ℚ)} (h : weights.value? = none) (maxSize : Nat) :
    checkWeights maxSize weights = .ok () := by
  cases weights with
  | absent => rfl
  | undefined => rfl
  | value weights => cases h

theorem check_of_unweighted (h : w.Unweighted) (maxSize : Nat) :
    checkValidWorkerChoiceStrategyOptions maxSize w = .ok () := by
  cases w with
  | undefined => rfl
  | notPlainObject => exact h.elim
  | object o =>
    obtain ⟨hr, hw, hm⟩ := h
    rw [check_object, hr, checkWeights_of_none hw, hm]
    rfl

theorem unweighted_of_check {maxSize : Nat} (hw : w.checkedWeights = none)
    (h : checkValidWorkerChoiceStrategyOptions maxSize w = .ok ()) : w.Unweighted := by
  cases w with
  | undefined => trivial
  | notPlainObject => cases h
  | object o =>
    rw [check_object] at h
    rcases hr : checkRetries o.retries with e | _
    · rw [hr] at h
      cases h
    · simp only [WorkerChoiceStrategyOptionsArgument.checkedWeights, hr, if_true] at hw
      rw [hr, checkWeights_of_none hw] at h
      exact ⟨hr, hw, h⟩

theorem check_of_no_weights (h : w.checkedWeights = none) (maxSize maxSize' : Nat) :
    checkValidWorkerChoiceStrategyOptions maxSize w = checkValidWorkerChoiceStrategyOptions maxSize' w := by
  cases w with
  | undefined => rfl
  | notPlainObject => rfl
  | object o =>
    rw [check_object, check_object]
    rcases hr : checkRetries o.retries with e | _
    · rfl
    · simp only [WorkerChoiceStrategyOptionsArgument.checkedWeights, hr, if_true] at h
      rw [checkWeights_of_none h, checkWeights_of_none h]

theorem check_of_weights (h : w.checkedWeights = some weights) : ∃ o, w = .object o ∧ ∀ maxSize,
    checkValidWorkerChoiceStrategyOptions maxSize w =
      (checkWeights maxSize (.value weights) >>= fun _ => checkMeasurement o.measurement) := by
  cases w with
  | undefined => cases h
  | notPlainObject => cases h
  | object o =>
    refine ⟨o, rfl, fun maxSize => ?_⟩
    unfold WorkerChoiceStrategyOptionsArgument.checkedWeights at h
    dsimp only at h
    split at h
    · rename_i hr
      have hw : o.weights = .value weights := by
        rcases hw : o.weights with _ | _ | weights' <;> rw [hw] at h <;> cases h
        rfl
      rw [check_object, hr, hw]
      rfl
    · cases h

/-- The exception of weights that are not one for each worker node. -/
def weightsError : JsError := .error "Invalid worker choice strategy options: must have a weight for each worker node"

theorem checkMeasurement_ne (measurement : OptionField String) : checkMeasurement measurement ≠ .error weightsError := by
  unfold checkMeasurement
  split
  · rintro ⟨⟩
  · rintro ⟨⟩
  · split
    · intro he
      simp only [Except.error.injEq, weightsError, JsError.error.injEq] at he
      -- the texts differ after their common beginning
      have hchar := congrArg (fun s : String => s.toList[41]?) he
      simp only [String.toList_append, List.append_assoc] at hchar
      rw [List.getElem?_append_left (by decide)] at hchar
      exact absurd hchar (by decide)
    · rintro ⟨⟩

/-- Weights are refused as weights if and only if they are not as many as the nodes. -/
theorem check_weightsError_iff (h : w.checkedWeights = some weights) (maxSize : Nat) :
    checkValidWorkerChoiceStrategyOptions maxSize w = .error weightsError ↔ weights.keys.length ≠ maxSize := by
  obtain ⟨o, -, hcheck⟩ := check_of_weights h
  rw [hcheck, checkWeights]
  by_cases heq : weights.keys.length = maxSize
  · rw [if_neg (not_not.2 heq)]
    exact ⟨fun he => absurd he (checkMeasurement_ne _), fun hne => absurd heq hne⟩
  · rw [if_pos heq]
    exact ⟨fun _ => heq, fun _ => rfl⟩

/-- Two sizes give the same check, where the weights are no reason to tell them apart. -/
theorem check_eq_iff {min max : Nat} (hlt : min ≠ max) :
    checkValidWorkerChoiceStrategyOptions min w = checkValidWorkerChoiceStrategyOptions max w ↔
      ∀ weights, w.checkedWeights = some weights → weights.keys.length ≠ min ∧ weights.keys.length ≠ max := by
  constructor
  · intro h weights hw
    have hiff : weights.keys.length ≠ min ↔ weights.keys.length ≠ max := by
      rw [← check_weightsError_iff hw, ← check_weightsError_iff hw, h]
    constructor
    · intro heq
      exact hiff.2 (fun heq' => hlt (heq.symm.trans heq')) heq
    · intro heq
      exact hiff.1 (fun heq' => hlt (heq'.symm.trans heq)) heq
  · intro h
    rcases hw : w.checkedWeights with _ | weights
    · exact check_of_no_weights hw min max
    · obtain ⟨hmin, hmax⟩ := h weights hw
      rw [(check_weightsError_iff hw min).2 hmin, (check_weightsError_iff hw max).2 hmax]

end Check

/-! ## Two ways to supply options -/

/-- The sizes a dynamic pool accepts. -/
structure DynamicPoolSize where
  min : Nat
  max : Nat
  valid : checkDynamicPoolSize min (some max) = .ok ()

/-- The options of a call, and the arguments of the constructor that neither way supplies. -/
structure Supply (Data : Type) where
  size : DynamicPoolSize
  startWorkers : Bool
  worker : WorkerType
  restartWorkerOnError : Bool
  strategyPolicy : StrategyPolicy
  taskStatisticsRequirements : TaskStatisticsRequirements
  postable : Task Data → Bool
  workerChoiceStrategyOptions : WorkerChoiceStrategyOptionsArgument
  tasksQueueOptions : TasksQueueOptionsArgument

namespace Supply

/-- The arguments of the constructor. -/
def config (x : Supply Data) (enableTasksQueue : Bool) (tasksQueueOptions : TasksQueueOptionsArgument) : PoolConfig Data where
  type := .dynamic
  worker := x.worker
  numberOfWorkers := x.size.min
  max := some x.size.max
  restartWorkerOnError := x.restartWorkerOnError
  enableTasksQueue := enableTasksQueue
  tasksQueueOptions := tasksQueueOptions
  strategyPolicy := x.strategyPolicy
  taskStatisticsRequirements := x.taskStatisticsRequirements
  postable := x.postable

/-- The constructor has accepted the options, and returned `s`. -/
def AtConstruction (x : Supply Data) (s : Pool Data Response) : Prop :=
  checkValidWorkerChoiceStrategyOptions (initialPool (x.config true x.tasksQueueOptions) : Pool Data Response).maxSize
    x.workerChoiceStrategyOptions = .ok () ∧ Created (x.config true x.tasksQueueOptions) x.startWorkers s

/-- The constructor has returned a pool without the options, and calls have accepted them and left `s`. -/
def Afterwards (x : Supply Data) (s : Pool Data Response) : Prop :=
  ∃ s₀, Created (x.config false .undefined) x.startWorkers s₀ ∧
    setWorkerChoiceStrategyOptions x.workerChoiceStrategyOptions s₀ = some (.ok (), s₀) ∧
    ∃ fuel, enableTasksQueue (callbacks fuel) fuel true x.tasksQueueOptions s₀ = some (.ok (), s)

/-- The two ways come to the same, for pools with responses of a given type. -/
structure Equivalent (Response : Type) (x : Supply Data) : Prop where
  accepted : (∃ s : Pool Data Response, x.AtConstruction s) ↔ ∃ s : Pool Data Response, x.Afterwards s
  sameCheck : checkValidWorkerChoiceStrategyOptions x.size.min x.workerChoiceStrategyOptions =
    checkValidWorkerChoiceStrategyOptions x.size.max x.workerChoiceStrategyOptions
  sameOptions : ∀ s s' : Pool Data Response, x.AtConstruction s → x.Afterwards s' →
    s.opts.tasksQueueOptions = s'.opts.tasksQueueOptions
  /-- Later, a node that is created has a positive back pressure size. -/
  positiveSize : ∀ s : Pool Data Response, x.AtConstruction s ∨ x.Afterwards s →
    ∀ es s', Run Step s es s' → 0 < s'.newNodeSize

end Supply

/-- Where the queue is enabled, accepted options are set on every node. -/
theorem Outline.setTasksQueueOptions_ok {o : Outline} {a : TasksQueueOptionsArgument} (he : o.opts.enableTasksQueue = true)
    (ha : checkValidTasksQueueOptions a = .ok ()) : o.setTasksQueueOptions a =
      { o with
        opts.tasksQueueOptions := some (buildTasksQueueOptions o.maxSize a)
        nodes := o.nodes.map (NodeOutline.configure (buildTasksQueueOptions o.maxSize a)) } := by
  rw [Outline.setTasksQueueOptions, if_pos he, ha]

namespace Supply
variable {x : Supply Data}

theorem min_lt_max (x : Supply Data) : x.size.min < x.size.max ∧ x.size.max < 2 ^ 53 := by
  obtain ⟨m, hm, hlt, hsafe⟩ := checkDynamicPoolSize_ok x.size.valid
  cases hm
  exact ⟨hlt, hsafe⟩

/-- The first nodes, if the constructor creates any, can have the default back pressure size. -/
def FitsDefault (x : Supply Data) : Prop := x.startWorkers = true → x.size.min = 0 ∨ x.size.min ^ 2 < 2 ^ 53

instance (x : Supply Data) : Decidable x.FitsDefault := inferInstanceAs (Decidable (_ → _))

/-- Neither check of the options has a reason to refuse them. -/
def Valid (x : Supply Data) : Prop :=
  x.workerChoiceStrategyOptions.Unweighted ∧ checkValidTasksQueueOptions x.tasksQueueOptions = .ok ()

/-- The sizes of the pool that the two ways read make no difference: no weights are compared with either, and
the queue size has no default, or is the default that the first nodes are refused for. -/
structure Indifferent (x : Supply Data) : Prop where
  weights : ∀ weights, x.workerChoiceStrategyOptions.checkedWeights = some weights →
    weights.keys.length ≠ x.size.min ∧ weights.keys.length ≠ x.size.max
  size : x.Valid → if x.FitsDefault then x.tasksQueueOptions.size ≠ .absent else x.tasksQueueOptions.size.value? = none

/-! ### When the options are accepted -/

theorem checkNumberOfWorkers_min (x : Supply Data) : checkNumberOfWorkers .dynamic x.size.min = .ok () := by
  obtain ⟨hlt, hmax⟩ := x.min_lt_max
  rw [checkNumberOfWorkers, if_neg (by omega), if_neg (by simp)]

theorem created_iff (enableTasksQueue : Bool) (a : TasksQueueOptionsArgument) :
    (∃ s : Pool Data Response, Created (x.config enableTasksQueue a) x.startWorkers s) ↔
      (enableTasksQueue = true → checkValidTasksQueueOptions a = .ok ()) ∧
        (x.startWorkers = true → x.size.min = 0 ∨ (initialOutline (x.config enableTasksQueue a)).CanCreate) := by
  rw [exists_created_iff]
  constructor
  · rintro ⟨-, hq, -, hw⟩
    exact ⟨hq, hw⟩
  · rintro ⟨hq, hw⟩
    exact ⟨x.checkNumberOfWorkers_min, hq, fun _ => x.size.valid, hw⟩

/-- Accepted options that leave the queue size open have a default for the first nodes. -/
theorem canCreate_default (hmin : x.size.min ≠ 0) {a : TasksQueueOptionsArgument}
    (ha : checkValidTasksQueueOptions a = .ok ()) :
    (initialOutline (x.config true a)).CanCreate ↔ x.size.min ^ 2 < 2 ^ 53 ∨ a.size.value?.isSome = true := by
  have hpos : 0 < x.size.min ^ 2 := Nat.pow_pos (by omega)
  have hsize : (initialOutline (x.config true a)).newNodeSize =
      (buildTasksQueueOptions x.size.min a).size.getD (x.size.min ^ 2) := rfl
  rw [Outline.CanCreate, hsize]
  rcases buildTasksQueueOptions_size ha x.size.min with ⟨hfield, hb⟩ | ⟨hfield, hb⟩ | ⟨n, hfield, hn, hlt, hb⟩
  · rw [hb, hfield]
    simp [OptionField.value?, hpos]
  · rw [hb, hfield]
    simp [OptionField.value?, hpos]
  · rw [hb, hfield]
    simpa [OptionField.value?, hn] using hlt

theorem canCreate_undefined (hmin : x.size.min ≠ 0) :
    (initialOutline (x.config false .undefined)).CanCreate ↔ x.size.min ^ 2 < 2 ^ 53 := by
  have hpos : 0 < x.size.min ^ 2 := Nat.pow_pos (by omega)
  have hsize : (initialOutline (x.config false .undefined)).newNodeSize = x.size.min ^ 2 := rfl
  rw [Outline.CanCreate, hsize]
  exact and_iff_right hpos

theorem atConstruction_iff :
    (∃ s : Pool Data Response, x.AtConstruction s) ↔
      checkValidWorkerChoiceStrategyOptions x.size.min x.workerChoiceStrategyOptions = .ok () ∧
        checkValidTasksQueueOptions x.tasksQueueOptions = .ok () ∧
        (x.FitsDefault ∨ x.tasksQueueOptions.size.value?.isSome = true) := by
  have hcreated : (∃ s : Pool Data Response, Created (x.config true x.tasksQueueOptions) x.startWorkers s) ↔ _ :=
    x.created_iff true x.tasksQueueOptions
  have hmax : (initialPool (x.config true x.tasksQueueOptions) : Pool Data Response).maxSize = x.size.min := rfl
  constructor
  · rintro ⟨s, hw, hs⟩
    rw [hmax] at hw
    obtain ⟨hq, hcan⟩ := hcreated.1 ⟨s, hs⟩
    refine ⟨hw, hq rfl, ?_⟩
    by_cases hfits : x.FitsDefault
    · exact .inl hfits
    · simp only [FitsDefault, Classical.not_imp, not_or, not_lt] at hfits
      -- where the default size does not fit, only a size that is given can
      obtain ⟨hstart, hmin, hlarge⟩ := hfits
      have hc := (hcan hstart).resolve_left hmin
      exact .inr (((canCreate_default hmin (hq rfl)).1 hc).resolve_left (not_lt.2 hlarge))
  · rintro ⟨hw, hq, hsize⟩
    have hcan (hstart : x.startWorkers = true) :
        x.size.min = 0 ∨ (initialOutline (x.config true x.tasksQueueOptions)).CanCreate := by
      by_cases hmin : x.size.min = 0
      · exact .inl hmin
      · exact .inr ((canCreate_default hmin hq).2 (hsize.imp (fun h => (h hstart).resolve_left hmin) id))
    obtain ⟨s, hs⟩ := hcreated.2 ⟨fun _ => hq, hcan⟩
    exact ⟨s, by rwa [hmax], hs⟩

theorem enableTasksQueue_eq (cb : Callbacks Data Response) (fuel : Nat) (a : TasksQueueOptionsArgument)
    (s : Pool Data Response) :
    enableTasksQueue cb fuel true a s = setTasksQueueOptions a { s with opts.enableTasksQueue := true } := by
  unfold enableTasksQueue
  rw [get_bind, Bool.not_true, Bool.and_false, if_neg Bool.false_ne_true]
  rfl

/-- The queue is enabled if the options are accepted. -/
theorem enableTasksQueue_returns_iff (fuel : Nat) (a : TasksQueueOptionsArgument) (s : Pool Data Response) :
    (∃ s', enableTasksQueue (callbacks fuel) fuel true a s = some (.ok (), s')) ↔
      checkValidTasksQueueOptions a = .ok () := by
  rw [enableTasksQueue_eq, setTasksQueueOptions, get_bind, if_pos rfl]
  rcases checkValidTasksQueueOptions a with e | _
  · exact ⟨(by rintro ⟨s', ⟨⟩⟩), (by rintro ⟨⟩)⟩
  · exact ⟨fun _ => rfl, fun _ => ⟨_, rfl⟩⟩

theorem setWorkerChoiceStrategyOptions_iff (w : WorkerChoiceStrategyOptionsArgument) (s : Pool Data Response) :
    setWorkerChoiceStrategyOptions w s = some (.ok (), s) ↔ checkValidWorkerChoiceStrategyOptions s.maxSize w = .ok () := by
  rw [setWorkerChoiceStrategyOptions, get_bind]
  rcases checkValidWorkerChoiceStrategyOptions s.maxSize w with e | _
  · exact ⟨(by rintro ⟨⟩), (by rintro ⟨⟩)⟩
  · exact ⟨fun _ => rfl, fun _ => rfl⟩

/-! ### The pools that come of them -/


theorem createdOutline_rest (c : PoolConfig Data) (startWorkers : Bool) :
    (createdOutline c startWorkers).opts = (initialOutline c).opts ∧
      (createdOutline c startWorkers).max = if c.type = .dynamic then c.max else none := by
  refine ⟨?_, rfl⟩
  cases startWorkers with
  | true => rw [createdOutline, if_pos rfl, Outline.start_rest]
  | false => rfl

/-- A pool is set up as `q` says, and knows its maximum size. -/
def SetUpBy (x : Supply Data) (o : Outline) (q : Option TasksQueueOptions) : Prop :=
  o.opts.tasksQueueOptions = q ∧ o.maxSize = x.size.max

theorem created_setUpBy {enableTasksQueue : Bool} {a : TasksQueueOptionsArgument} {s : Pool Data Response}
    (h : Created (x.config enableTasksQueue a) x.startWorkers s) :
    x.SetUpBy s.outline (if enableTasksQueue then some (buildTasksQueueOptions x.size.min a)
      else givenTasksQueueOptions a) := by
  obtain ⟨-, -, -, hout⟩ := created_outline h
  obtain ⟨hopts, hmax⟩ := createdOutline_rest (x.config enableTasksQueue a) x.startWorkers
  constructor
  · rw [hout, hopts]
    rfl
  · rw [hout, Outline.maxSize, hmax]
    rfl

theorem AtConstruction.setUpBy {s : Pool Data Response} (h : x.AtConstruction s) :
    x.SetUpBy s.outline (some (buildTasksQueueOptions x.size.min x.tasksQueueOptions)) :=
  created_setUpBy h.2

theorem Afterwards.setUpBy {s : Pool Data Response} (h : x.Afterwards s) :
    x.SetUpBy s.outline (some (buildTasksQueueOptions x.size.max x.tasksQueueOptions)) := by
  obtain ⟨s₀, hc, -, fuel, hs⟩ := h
  obtain ⟨-, hmax⟩ := created_setUpBy hc
  have hcheck := (enableTasksQueue_returns_iff fuel x.tasksQueueOptions s₀).1 ⟨s, hs⟩
  have hw := wp_any (enableTasksQueue_outlined fuel true x.tasksQueueOptions) hs
  have hout : s.outline = s₀.outline.enableTasksQueue true x.tasksQueueOptions := by
    generalize s.outline = o at hw
    cases hw
    rfl
  rw [hout, Outline.enableTasksQueue, Bool.not_true, Bool.and_false, if_neg Bool.false_ne_true]
  rw [Outline.setTasksQueueOptions_ok (by rfl) hcheck]
  refine ⟨?_, hmax⟩
  rw [← hmax]
  rfl

theorem afterwards_iff :
    (∃ s : Pool Data Response, x.Afterwards s) ↔
      checkValidWorkerChoiceStrategyOptions x.size.max x.workerChoiceStrategyOptions = .ok () ∧
        checkValidTasksQueueOptions x.tasksQueueOptions = .ok () ∧ x.FitsDefault := by
  have hcreated : (∃ s : Pool Data Response, Created (x.config false .undefined) x.startWorkers s) ↔ _ :=
    x.created_iff false .undefined
  constructor
  · rintro ⟨s, s₀, hs₀, hw, fuel, hs⟩
    obtain ⟨-, hcan⟩ := hcreated.1 ⟨s₀, hs₀⟩
    obtain ⟨-, hmax⟩ := created_setUpBy hs₀
    have hmax' : s₀.maxSize = x.size.max := hmax
    rw [setWorkerChoiceStrategyOptions_iff, hmax'] at hw
    refine ⟨hw, (enableTasksQueue_returns_iff fuel _ s₀).1 ⟨s, hs⟩, fun hstart => ?_⟩
    by_cases hmin : x.size.min = 0
    · exact .inl hmin
    · exact .inr ((canCreate_undefined hmin).1 ((hcan hstart).resolve_left hmin))
  · rintro ⟨hw, hq, hfits⟩
    have hcan (hstart : x.startWorkers = true) :
        x.size.min = 0 ∨ (initialOutline (x.config false .undefined)).CanCreate := by
      by_cases hmin : x.size.min = 0
      · exact .inl hmin
      · exact .inr ((canCreate_undefined hmin).2 ((hfits hstart).resolve_left hmin))
    obtain ⟨s₀, hs₀⟩ := hcreated.2 ⟨(by rintro ⟨⟩), hcan⟩
    -- the queue is enabled on a pool that was created without one
    obtain ⟨s, hs⟩ := (enableTasksQueue_returns_iff 0 x.tasksQueueOptions s₀).2 hq
    obtain ⟨-, hmax⟩ := created_setUpBy hs₀
    have hmax' : s₀.maxSize = x.size.max := hmax
    exact ⟨s, s₀, hs₀, by rwa [setWorkerChoiceStrategyOptions_iff, hmax'], 0, hs⟩

end Supply

/-! ## Positive sizes -/

namespace Outline

/-- Every size that a new node can get is positive. -/
def Positive (o : Outline) : Prop :=
  0 < o.maxSize ∧ ∀ q, o.opts.tasksQueueOptions = some q → ∀ z, q.size = some z → 0 < z

variable {o : Outline}

theorem Positive.newNodeSize (h : o.Positive) : 0 < o.newNodeSize := by
  obtain ⟨hmax, hsize⟩ := h
  unfold Outline.newNodeSize
  rcases hq : o.opts.tasksQueueOptions with _ | q
  · exact Nat.pow_pos hmax
  · rcases hz : q.size with _ | z
    · simp only [Option.bind_some, hz]
      exact Nat.pow_pos hmax
    · simp only [Option.bind_some, hz]
      exact hsize q hq z hz

/-- A default size and a checked one are positive. -/
theorem size_pos_of_check {a : TasksQueueOptionsArgument} (ha : checkValidTasksQueueOptions a = .ok ()) {maxSize : Nat}
    (h : a.size = .absent → 0 < maxSize) : ∀ z, (buildTasksQueueOptions maxSize a).size = some z → 0 < z := by
  intro z hz
  rcases buildTasksQueueOptions_size ha maxSize with ⟨hfield, hb⟩ | ⟨-, hb⟩ | ⟨n, -, hn, -, hb⟩
  · rw [hb] at hz
    cases hz
    exact Nat.pow_pos (h hfield)
  · rw [hb] at hz
    cases hz
  · rw [hb] at hz
    cases hz
    exact hn

theorem Positive.setTasksQueueOptions (h : o.Positive) (a : TasksQueueOptionsArgument) :
    (o.setTasksQueueOptions a).Positive := by
  by_cases he : o.opts.enableTasksQueue = true
  · rcases hc : checkValidTasksQueueOptions a with e | _
    · rw [Outline.setTasksQueueOptions, if_pos he, hc]
      exact h
    · rw [setTasksQueueOptions_ok he hc]
      refine ⟨h.1, ?_⟩
      rintro _ ⟨⟩
      exact size_pos_of_check hc fun _ => h.1
  · rw [Outline.setTasksQueueOptions, if_neg he]
    exact ⟨h.1, (by rintro _ ⟨⟩)⟩

theorem Positive.enableTasksQueue (h : o.Positive) (enable : Bool) (a : TasksQueueOptionsArgument) :
    (o.enableTasksQueue enable a).Positive := by
  unfold Outline.enableTasksQueue
  refine Positive.setTasksQueueOptions ?_ a
  split
  · exact h
  · exact h

theorem Positive.error (h : o.Positive) (w : Nat) : (o.error w).Positive := by
  rcases hf : o.nodes.find? (·.id = w) with _ | n
  · rw [error_none hf]
    exact h
  · rw [error_some hf]
    split
    · exact h
    · exact h

theorem Positive.start (h : o.Positive) : o.start.Positive := by
  rw [Outline.start_rest]
  exact h

theorem Positive.outlined {e : Event Data Response} {o' : Outline} (h : o.Positive) (ho : Outlined o e o') :
    o'.Positive := by
  cases ho with
  | execute => exact h
  | executeJoins => exact h
  | message => exact h
  | poll => exact h
  | error => exact h.error _
  | exit => exact h
  | start => exact h.start
  | enableTasksQueue => exact h.enableTasksQueue _ _
  | flushThrows => exact h
  | setTasksQueueOptions => exact h.setTasksQueueOptions _
  | destroy => exact h
  | destroyed => exact h

end Outline

/-- Once the sizes for new nodes are positive they stay so. -/
theorem newNodeSize_pos_of_run {s s' : Pool Data Response} {es : List (Event Data Response)} (h : Run Step s es s')
    (hs : s.outline.Positive) : 0 < s'.newNodeSize :=
  (h.inv (fun s : Pool Data Response => s.outline.Positive) hs fun _ _ _ hp ht => hp.outlined (step_outlined ht)).newNodeSize

namespace Supply
variable {x : Supply Data}

theorem SetUpBy.positive {o : Outline} {maxSize : Nat}
    (h : x.SetUpBy o (some (buildTasksQueueOptions maxSize x.tasksQueueOptions)))
    (ha : checkValidTasksQueueOptions x.tasksQueueOptions = .ok ())
    (hpos : x.tasksQueueOptions.size = .absent → 0 < maxSize) : o.Positive := by
  obtain ⟨hopts, hmax⟩ := h
  obtain ⟨hlt, -⟩ := x.min_lt_max
  refine ⟨by omega, fun q hq => ?_⟩
  rw [hopts] at hq
  cases hq
  exact Outline.size_pos_of_check ha hpos

/-! ## Equivalence -/

theorem build_eq {a : TasksQueueOptionsArgument} (h : a.size ≠ .absent) (maxSize maxSize' : Nat) :
    buildTasksQueueOptions maxSize a = buildTasksQueueOptions maxSize' a := by
  cases a with
  | undefined => exact absurd rfl h
  | notPlainObject => exact absurd rfl h
  | object o =>
    rcases hs : o.size with _ | _ | z
    · exact absurd hs h
    · simp only [buildTasksQueueOptions, hs, OptionField.over]
    · simp only [buildTasksQueueOptions, hs, OptionField.over]

/-- A default size tells which size of the pool it comes from. -/
theorem build_ne {a : TasksQueueOptionsArgument} (ha : checkValidTasksQueueOptions a = .ok ()) (h : a.size = .absent)
    {min max : Nat} (hlt : min < max) : buildTasksQueueOptions min a ≠ buildTasksQueueOptions max a := by
  have hsize (n : Nat) : (buildTasksQueueOptions n a).size = some (n ^ 2) := by
    rcases buildTasksQueueOptions_size ha n with ⟨-, hb⟩ | ⟨hfield, -⟩ | ⟨m, hfield, -⟩
    · exact hb
    · rw [h] at hfield
      cases hfield
    · rw [h] at hfield
      cases hfield
  intro heq
  have hsquares : some (min ^ 2) = some (max ^ 2) := by rw [← hsize min, ← hsize max, heq]
  exact absurd (Option.some.inj hsquares) (Nat.pow_lt_pow_left hlt (by decide)).ne

/-- What the check accepts is valid, if it gives the same for both sizes of the pool. -/
theorem Indifferent.valid (h : x.Indifferent)
    (hw : checkValidWorkerChoiceStrategyOptions x.size.max x.workerChoiceStrategyOptions = .ok ())
    (hq : checkValidTasksQueueOptions x.tasksQueueOptions = .ok ()) : x.Valid := by
  refine ⟨unweighted_of_check ?_ hw, hq⟩
  rcases hc : x.workerChoiceStrategyOptions.checkedWeights with _ | weights
  · rfl
  · rw [(check_weightsError_iff hc _).2 (h.weights weights hc).2] at hw
    cases hw

theorem Indifferent.check_eq (h : x.Indifferent) :
    checkValidWorkerChoiceStrategyOptions x.size.min x.workerChoiceStrategyOptions =
      checkValidWorkerChoiceStrategyOptions x.size.max x.workerChoiceStrategyOptions :=
  (check_eq_iff x.min_lt_max.1.ne).2 h.weights

theorem Indifferent.equivalent (h : x.Indifferent) : x.Equivalent Response := by
  have hcheck := h.check_eq
  -- a pool made in the first way is one whose first nodes could have the default size
  have hfits (hs : ∃ s : Pool Data Response, x.AtConstruction s) :
      x.FitsDefault ∧ x.tasksQueueOptions.size ≠ .absent := by
    obtain ⟨hw, hq, hsize⟩ := atConstruction_iff.1 hs
    rw [hcheck] at hw
    have hgiven := h.size (h.valid hw hq)
    by_cases hf : x.FitsDefault
    · rw [if_pos hf] at hgiven
      exact ⟨hf, hgiven⟩
    · rw [if_neg hf] at hgiven
      rw [hgiven] at hsize
      exact absurd (hsize.resolve_left hf) (by rintro ⟨⟩)
  have haccepted : (∃ s : Pool Data Response, x.AtConstruction s) ↔ ∃ s : Pool Data Response, x.Afterwards s := by
    rw [atConstruction_iff, afterwards_iff, hcheck]
    constructor
    · intro hs
      have hc : ∃ s : Pool Data Response, x.AtConstruction s := atConstruction_iff.2 (by rwa [hcheck])
      exact ⟨hs.1, hs.2.1, (hfits hc).1⟩
    · rintro ⟨hw, hq, hf⟩
      exact ⟨hw, hq, .inl hf⟩
  constructor
  · exact haccepted
  · exact hcheck
  · intro s s' hs hs'
    have hopts : s.opts.tasksQueueOptions = _ := hs.setUpBy.1
    have hopts' : s'.opts.tasksQueueOptions = _ := hs'.setUpBy.1
    rw [hopts, hopts', build_eq (hfits ⟨s, hs⟩).2 x.size.min x.size.max]
  · rintro s (hs | hs) es s' hrun
    · obtain ⟨-, hq, -⟩ := atConstruction_iff.1 ⟨s, hs⟩
      exact newNodeSize_pos_of_run hrun (hs.setUpBy.positive hq fun habsent => absurd habsent (hfits ⟨s, hs⟩).2)
    · obtain ⟨-, hq, -⟩ := afterwards_iff.1 ⟨s, hs⟩
      obtain ⟨hlt, -⟩ := x.min_lt_max
      exact newNodeSize_pos_of_run hrun (hs.setUpBy.positive hq fun _ => by omega)

theorem indifferent_of_equivalent (h : x.Equivalent Response) : x.Indifferent := by
  obtain ⟨hlt, -⟩ := x.min_lt_max
  refine ⟨(check_eq_iff hlt.ne).1 h.sameCheck, fun hv => ?_⟩
  obtain ⟨hw, hq⟩ := hv
  have hcheck := check_of_unweighted hw
  split
  · rename_i hf
    intro habsent
    obtain ⟨s, hs⟩ : ∃ s : Pool Data Response, x.AtConstruction s := atConstruction_iff.2 ⟨hcheck _, hq, .inl hf⟩
    obtain ⟨s', hs'⟩ : ∃ s : Pool Data Response, x.Afterwards s := afterwards_iff.2 ⟨hcheck _, hq, hf⟩
    have hopts : s.opts.tasksQueueOptions = _ := hs.setUpBy.1
    have hopts' : s'.opts.tasksQueueOptions = _ := hs'.setUpBy.1
    have heq := h.sameOptions s s' hs hs'
    rw [hopts, hopts'] at heq
    exact build_ne hq habsent hlt (Option.some.inj heq)
  · rename_i hf
    rcases hsize : x.tasksQueueOptions.size.value? with _ | z
    · rfl
    · -- the first way is open, as the given size is accepted, and the second is not
      have hs : ∃ s : Pool Data Response, x.AtConstruction s :=
        atConstruction_iff.2 ⟨hcheck _, hq, .inr (by rw [hsize]; rfl)⟩
      exact absurd (afterwards_iff.1 (h.accepted.1 hs)).2.2 hf

/-- The two ways come to the same if and only if no weights are compared with a size of the pool, and
the queue size has no default that could tell the sizes apart. -/
theorem supplied_equivalently_iff (x : Supply Data) : x.Equivalent Response ↔ x.Indifferent :=
  ⟨indifferent_of_equivalent, Indifferent.equivalent⟩

/-- The options of a pool of threads. -/
def ofThreads (size : DynamicPoolSize) (w : WorkerChoiceStrategyOptionsArgument) (a : TasksQueueOptionsArgument) :
    Supply Unit where
  size := size
  startWorkers := true
  worker := .thread
  restartWorkerOnError := true
  strategyPolicy := ⟨false, true⟩
  taskStatisticsRequirements := ⟨⟨false, false, false⟩, ⟨false, false, false⟩, ⟨false, false, false⟩⟩
  postable := fun _ => true
  workerChoiceStrategyOptions := w
  tasksQueueOptions := a

/-- A queue that is enabled without options: the pool that starts empty can create no worker. -/
theorem default_size_zero : ¬ ∀ x : Supply Unit, x.Equivalent Unit := by
  intro h
  let x := ofThreads ⟨0, 1, rfl⟩ .undefined .undefined
  obtain ⟨s, hs, hsize⟩ := exists_created 1 (c := x.config true .undefined)
    (P := fun s : Pool Unit Unit => s.newNodeSize = 0) (by decide +kernel)
  have hpos := (h x).positiveSize s (.inl ⟨rfl, hs⟩) [] s .nil
  omega

end Supply

end Poolifier
