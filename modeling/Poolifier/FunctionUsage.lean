import Poolifier.Direct
import Poolifier.Lib.Tally
/-!
# The usage of each task function

A node whose worker has two task functions or more keeps a usage record for
each of them, besides its own. `execute` finds the record by the name of the
task, and the response handler by the name in `taskPerformance`, which only the
responses to tasks that have not failed carry: a task that fails is counted in
the record of `undefined`.
-/

namespace Poolifier

open EffLib RunLib MapLib TallyLib WorkerNode

variable {Data Response : Type}

/-! ## The names of the task functions -/

/-- Names of two task functions or more: the alias of the default one, then the name of each, the default one
first, which may have no name but the alias. -/
structure FunctionList (names : List String) : Prop where
  first : names[0]? = some defaultTaskName
  nodup : names.tail.Nodup
  unnamed : defaultTaskName ∈ names.tail → names[1]? = some defaultTaskName
  two : 2 < names.length

namespace WorkerNode
variable {n : WorkerNode Data}

/-- The names the worker has listed. -/
def listedNames (n : WorkerNode Data) : List String := n.info.taskFunctionNames.getD []

/-- The names of its functions, without the alias. -/
def functionNames (n : WorkerNode Data) : List String := n.listedNames.tail

/-- The worker has listed two task functions or more. -/
def Listed (n : WorkerNode Data) : Prop := ∃ names, n.info.taskFunctionNames = some names ∧ FunctionList names

theorem Listed.nodup (h : n.Listed) : n.functionNames.Nodup := by
  obtain ⟨names, hnames, hlist⟩ := h
  unfold functionNames listedNames
  rw [hnames]
  exact hlist.nodup

/-- The name of a function stands for itself. -/
theorem Listed.key_self (h : n.Listed) {name : String} (hname : name ∈ n.functionNames) :
    n.taskFunctionKey (some name) = some name := by
  obtain ⟨names, hnames, hlist⟩ := h
  unfold functionNames listedNames at hname
  rw [hnames] at hname
  unfold taskFunctionKey
  by_cases hdefault : name = defaultTaskName
  · subst hdefault
    rw [if_pos rfl, hnames]
    exact hlist.unnamed hname
  · rw [if_neg fun heq => hdefault (Option.some.inj heq)]

/-- Each listed name, the alias included, stands for one of the functions. -/
theorem Listed.key_mem (h : n.Listed) {name : String} (hname : name ∈ n.listedNames) :
    ∃ f ∈ n.functionNames, n.taskFunctionKey (some name) = some f := by
  obtain ⟨names, hnames, hlist⟩ := h
  unfold functionNames listedNames taskFunctionKey
  unfold listedNames at hname
  rw [hnames] at hname ⊢
  obtain ⟨hfirst, -, -, hlen⟩ := hlist
  rcases names with _ | ⟨a, _ | ⟨b, l⟩⟩
  · cases hname
  · simp at hlen
  · obtain rfl : a = defaultTaskName := Option.some.inj hfirst
    by_cases hdefault : name = defaultTaskName
    · refine ⟨b, List.mem_cons_self, ?_⟩
      rw [if_pos (congrArg some hdefault)]
      rfl
    · refine ⟨name, ?_, if_neg fun heq => hdefault (Option.some.inj heq)⟩
      exact (List.mem_cons.1 hname).resolve_left hdefault

/-! ## Records -/

/-- The record under a key, whether or not it has been created. -/
def record (n : WorkerNode Data) (key : Option String) : WorkerUsage := (n.taskFunctionsUsage.lookup key).getD .init

theorem Listed.getTaskFunctionWorkerUsage (h : n.Listed) (name : Option String) :
    n.getTaskFunctionWorkerUsage name = .ok (n.record (n.taskFunctionKey name)) := by
  obtain ⟨names, hnames, hlist⟩ := h
  unfold WorkerNode.getTaskFunctionWorkerUsage
  simp only [hnames]
  rw [if_neg (not_lt.2 hlist.two)]
  rfl

theorem Listed.update (h : n.Listed) (name : Option String) (f : WorkerUsage → WorkerUsage) :
    n.updateTaskFunctionWorkerUsage name f = { n with
      taskFunctionsUsage := n.taskFunctionsUsage.insert (n.taskFunctionKey name) (f (n.record (n.taskFunctionKey name))) } := by
  have hshall : n.shallUpdateTaskFunctionWorkerUsage = true := by
    obtain ⟨names, hnames, hlist⟩ := h
    unfold shallUpdateTaskFunctionWorkerUsage
    rw [hnames]
    exact decide_eq_true hlist.two
  unfold updateTaskFunctionWorkerUsage
  rw [if_pos hshall, h.getTaskFunctionWorkerUsage]

/-- The record of a function is updated, and no other. -/
theorem Listed.record_update (h : n.Listed) (name : Option String) (f : WorkerUsage → WorkerUsage) :
    (n.updateTaskFunctionWorkerUsage name f).record =
      Function.update n.record (n.taskFunctionKey name) (f (n.record (n.taskFunctionKey name))) := by
  funext key
  rw [h.update]
  unfold record
  by_cases hkey : key = n.taskFunctionKey name
  · subst hkey
    rw [Function.update_self, AList.lookup_insert]
    rfl
  · rw [Function.update_of_ne hkey, AList.lookup_insert_ne hkey]

/-- A counter of the function `name`, as `getTaskFunctionWorkerUsage` gives it. -/
def functionCount (counter : TaskStatistics → Nat) (n : WorkerNode Data) (name : String) : Nat :=
  match n.getTaskFunctionWorkerUsage (some name) with
  | .ok usage => counter usage.tasks
  | .error _ => 0

theorem Listed.functionCount (h : n.Listed) (counter : TaskStatistics → Nat) (name : String) :
    n.functionCount counter name = counter (n.record (n.taskFunctionKey (some name))).tasks := by
  unfold WorkerNode.functionCount
  rw [h.getTaskFunctionWorkerUsage]

/-! ## What is in flight -/

/-- The keys of the records of the tasks in flight. -/
def keysInFlight (n : WorkerNode Data) : Multiset (Option String) :=
  ↑(n.worker.unanswered.map fun t => n.taskFunctionKey (some t.name))

/-- How many tasks of the function `name` are in flight. -/
def unansweredOf (n : WorkerNode Data) (name : String) : Nat :=
  n.worker.unanswered.countP fun t => n.taskFunctionKey (some t.name) = n.taskFunctionKey (some name)

theorem count_keysInFlight (n : WorkerNode Data) (name : String) :
    n.keysInFlight.count (n.taskFunctionKey (some name)) = n.unansweredOf name := by
  unfold keysInFlight unansweredOf
  rw [Multiset.coe_count]
  unfold List.count
  rw [List.countP_map]
  rfl

theorem card_keysInFlight (n : WorkerNode Data) : n.keysInFlight.card = n.worker.unanswered.length := by
  unfold keysInFlight
  rw [Multiset.coe_card, List.length_map]

/-- The worker has listed its functions, and only tasks of theirs are in flight. -/
structure Named (n : WorkerNode Data) : Prop where
  listed : n.Listed
  known : ∀ key ∈ n.keysInFlight, key ∈ n.functionNames.map some

/-- Each record counts the tasks in flight that are under its key. -/
def Tallied (n : WorkerNode Data) : Prop := Tallies (fun key => (n.record key).tasks.executing) n.keysInFlight

/-- The counter of each task function is right, and they add up to the counter of the node. -/
structure CountsByFunction (n : WorkerNode Data) : Prop where
  each : ∀ name ∈ n.listedNames, ∃ usage, n.getTaskFunctionWorkerUsage (some name) = .ok usage ∧
    usage.tasks.executing = n.unansweredOf name
  sum : (n.functionNames.map (n.functionCount (·.executing))).sum = n.usage.tasks.executing

/-- The tasks of all the functions are all the tasks in flight. -/
theorem Named.sum_unansweredOf (h : n.Named) :
    (n.functionNames.map n.unansweredOf).sum = n.worker.unanswered.length := by
  have hsum := Tallies.sum_eq_card (f := (n.keysInFlight.count ·)) (fun _ => rfl)
    (h.listed.nodup.map (Option.some_injective _)) h.known
  rw [card_keysInFlight, List.map_map] at hsum
  rw [← hsum]
  refine congrArg List.sum (List.map_congr_left fun name hname => ?_)
  rw [← count_keysInFlight, h.listed.key_self hname]
  rfl

theorem CountsByFunction.executing (h : n.CountsByFunction) (hnamed : n.Named) :
    n.usage.tasks.executing = n.worker.unanswered.length := by
  rw [← hnamed.sum_unansweredOf, ← h.sum]
  refine congrArg List.sum (List.map_congr_left fun name hname => ?_)
  obtain ⟨usage, hget, hcount⟩ := h.each name (List.mem_of_mem_tail hname)
  unfold functionCount
  rw [hget]
  exact hcount

theorem Tallied.countsByFunction (h : n.Tallied) (hnamed : n.Named)
    (hexec : n.usage.tasks.executing = n.worker.unanswered.length) : n.CountsByFunction where
  each name _ := ⟨_, hnamed.listed.getTaskFunctionWorkerUsage _, (h _).trans (count_keysInFlight n name)⟩
  sum := by
    rw [hexec, ← hnamed.sum_unansweredOf]
    refine congrArg List.sum (List.map_congr_left fun name _ => ?_)
    rw [hnamed.listed.functionCount, ← count_keysInFlight]
    exact h _

/-! ## What an event does to a node -/

theorem taskFunctionKey_congr {n' : WorkerNode Data} (h : n'.info = n.info) : n'.taskFunctionKey = n.taskFunctionKey := by
  funext name
  unfold taskFunctionKey
  rw [h]

theorem Listed.congr (h : n.Listed) {n' : WorkerNode Data} (hinfo : n'.info = n.info) : n'.Listed := by
  unfold Listed
  rw [hinfo]
  exact h

/-- The same names are listed, and what is in flight is known. -/
theorem Named.congr (h : n.Named) {n' : WorkerNode Data} (hinfo : n'.info = n.info)
    (hkeys : ∀ t ∈ n'.worker.unanswered, t ∈ n.worker.unanswered ∨ t.name ∈ n.listedNames) : n'.Named := by
  refine ⟨h.listed.congr hinfo, fun key hkey => ?_⟩
  unfold functionNames listedNames
  rw [hinfo]
  unfold keysInFlight at hkey
  rw [taskFunctionKey_congr hinfo] at hkey
  obtain ⟨t, ht, rfl⟩ := List.mem_map.1 (Multiset.mem_coe.1 hkey)
  rcases hkeys t ht with ht' | hname
  · exact h.known _ (Multiset.mem_coe.2 (List.mem_map_of_mem ht'))
  · obtain ⟨f, hf, hkey⟩ := h.listed.key_mem hname
    rw [hkey]
    exact List.mem_map_of_mem hf

/-- Updating one record updates one counter. -/
theorem executing_of_update {r r' : Option String → WorkerUsage} {key : Option String} {usage : WorkerUsage}
    (h : r' = Function.update r key usage) : (fun k => (r' k).tasks.executing) =
      Function.update (fun k => (r k).tasks.executing) key usage.tasks.executing := by
  subst h
  exact Function.comp_update (fun u : WorkerUsage => u.tasks.executing) r key usage

theorem Listed.record_startTask (h : n.Listed) (p : Pool Data Response) (t : Task Data) : (p.startTask t n).record =
    Function.update n.record (n.taskFunctionKey (some t.name))
      ((n.record (n.taskFunctionKey (some t.name))).beforeTaskExecution p.taskStatisticsRequirements p.now t) := by
  have hn : ({ n with usage := n.usage.beforeTaskExecution p.taskStatisticsRequirements p.now t } :
    WorkerNode Data).Listed := h.congr rfl
  exact hn.record_update (some t.name) _

theorem Listed.record_afterTaskExecution (h : n.Listed) (requirements : TaskStatisticsRequirements)
    (m : TaskResponse Response) : (n.afterTaskExecution requirements m).record =
    Function.update n.record (n.taskFunctionKey (m.taskPerformance.map (·.name)))
      ((n.record (n.taskFunctionKey (m.taskPerformance.map (·.name)))).afterTaskExecution requirements m) := by
  have hn : ({ n with usage := n.usage.afterTaskExecution requirements m } : WorkerNode Data).Listed := h.congr rfl
  exact hn.record_update _ _

theorem keysInFlight_startTask (p : Pool Data Response) (t : Task Data) (n : WorkerNode Data) :
    (p.startTask t n).keysInFlight = n.taskFunctionKey (some t.name) ::ₘ n.keysInFlight := by
  unfold keysInFlight
  rw [taskFunctionKey_congr (sameSetup_startTask p t n).info, startTask_worker, List.map_append, ← Multiset.coe_add,
    add_comm]
  rfl

theorem keysInFlight_afterTaskExecution (requirements : TaskStatisticsRequirements) (m : TaskResponse Response)
    (n : WorkerNode Data) : (n.afterTaskExecution requirements m).keysInFlight = n.keysInFlight := by
  unfold keysInFlight
  rw [taskFunctionKey_congr (afterTaskExecution_info _ _ _), afterTaskExecution_worker]

/-- A response takes one task out of flight. -/
theorem keysInFlight_answer {taskId : Nat} (hm : taskId ∈ n.worker.unanswered.map (·.taskId)) :
    ∃ t ∈ n.worker.unanswered, t.taskId = taskId ∧
      n.keysInFlight = n.taskFunctionKey (some t.name) ::ₘ (n.answer taskId).keysInFlight := by
  obtain ⟨t₀, ht₀, he⟩ := List.mem_map.1 hm
  obtain ⟨t, l₁, l₂, -, ht, hl, heq⟩ :=
    List.exists_of_eraseP (p := fun t => decide (t.taskId = taskId)) ht₀ (by simpa using he)
  refine ⟨t, by simp [hl], by simpa using ht, ?_⟩
  unfold keysInFlight answer
  rw [heq, hl, List.map_append, List.map_cons, List.map_append]
  exact Multiset.coe_eq_coe.2 List.perm_middle

theorem Tallied.start (h : n.Tallied) (hlisted : n.Listed) (p : Pool Data Response) (t : Task Data) :
    (p.startTask t n).Tallied := by
  unfold Tallied
  rw [keysInFlight_startTask, executing_of_update (hlisted.record_startTask p t)]
  exact h.cons _

/-- The response to a task that has not failed is counted where the task was. -/
theorem Tallied.answer (h : n.Tallied) (hlisted : n.Listed) (requirements : TaskStatisticsRequirements)
    {m : TaskResponse Response} (hm : m.taskId ∈ n.worker.unanswered.map (·.taskId))
    (hname : ∀ t ∈ n.worker.unanswered, t.taskId = m.taskId → m.taskPerformance.map (·.name) = some t.name) :
    ((n.answer m.taskId).afterTaskExecution requirements m).Tallied := by
  obtain ⟨t, ht, hid, hkeys⟩ := keysInFlight_answer hm
  have hrecord := Listed.record_afterTaskExecution (n := n.answer m.taskId) (hlisted.congr rfl) requirements m
  rw [hname t ht hid] at hrecord
  unfold Tallied at h ⊢
  rw [hkeys] at h
  rw [executing_of_update hrecord, WorkerUsage.afterTaskExecution_executing]
  rw [keysInFlight_afterTaskExecution]
  exact h.of_cons

/-- The response to a task that has failed is not: the counter of its function stays as it was. -/
theorem Tallied.not_countsByFunction (h : n.Tallied) (hnamed : n.Named) (requirements : TaskStatisticsRequirements)
    {m : TaskResponse Response} (hm : m.taskId ∈ n.worker.unanswered.map (·.taskId)) (hnone : m.taskPerformance = none) :
    ¬ ((n.answer m.taskId).afterTaskExecution requirements m).CountsByFunction := by
  intro hcounts
  obtain ⟨t, ht, -, hkeys⟩ := keysInFlight_answer hm
  have hlisted : (n.answer m.taskId).Listed := hnamed.listed.congr rfl
  have hrecord := hlisted.record_afterTaskExecution requirements m
  have hinfo : ((n.answer m.taskId).afterTaskExecution requirements m).info = n.info := afterTaskExecution_info _ _ _
  have hname : n.taskFunctionKey (some t.name) ∈ n.functionNames.map some :=
    hnamed.known _ (Multiset.mem_coe.2 (List.mem_map_of_mem ht))
  obtain ⟨f, hf, hkey⟩ := List.mem_map.1 hname
  have hself := hnamed.listed.key_self hf
  have hmem : f ∈ ((n.answer m.taskId).afterTaskExecution requirements m).listedNames := by
    unfold listedNames
    rw [hinfo]
    exact List.mem_of_mem_tail hf
  obtain ⟨usage, hget, hcount⟩ := hcounts.each f hmem
  -- the record of the function is not the one that is updated
  have hrecord' : ((n.answer m.taskId).afterTaskExecution requirements m).record (some f) = n.record (some f) := by
    rw [hrecord, hnone]
    exact Function.update_of_ne (Option.some_ne_none f) _ _
  rw [(hnamed.listed.congr hinfo).getTaskFunctionWorkerUsage, taskFunctionKey_congr hinfo, hself, hrecord'] at hget
  cases hget
  have hbefore : (n.record (some f)).tasks.executing = n.keysInFlight.count (some f) := h (some f)
  rw [hkeys, ← hkey, Multiset.count_cons_self] at hbefore
  rw [← count_keysInFlight, taskFunctionKey_congr hinfo, hself, keysInFlight_afterTaskExecution] at hcount
  omega

end WorkerNode
/-! ## Events -/

/-- What a worker sends about a task: its performance, with the name of the task, or an error and no performance. -/
def Replies (t : Task Data) (m : TaskResponse Response) : Prop :=
  m.workerError.isNone = true ∧ m.taskPerformance.map (·.name) = some t.name ∨
    m.workerError.isSome = true ∧ m.taskPerformance.isNone = true

instance (t : Task Data) (m : TaskResponse Response) : Decidable (Replies t m) :=
  inferInstanceAs (Decidable (_ ∧ _ ∨ _ ∧ _))

/-- A task is submitted by a name that its worker has listed, or a worker replies to one of its tasks. -/
def FunctionEvent (s : Pool Data Response) : Event Data Response → Prop
  | .execute _ name _ (.key k) => ∀ n ∈ s.workerNodes[k]?, name.getD defaultTaskName ∈ n.listedNames
  | .execute _ _ _ (.none _) => True
  | .message w (.taskResponse m) => s.getWorkerNodeKeyByWorkerId w < s.workerNodes.length ∧
      ∀ n ∈ s.workerNodes, ∀ t ∈ n.worker.unanswered, t.taskId = m.taskId → Replies t m
  | _ => False

instance (s : Pool Data Response) : DecidablePred (FunctionEvent s)
  | .execute _ _ _ (.key k) => inferInstanceAs (Decidable (∀ n ∈ s.workerNodes[k]?, _))
  | .execute _ _ _ (.none _) => inferInstanceAs (Decidable True)
  | .message _ (.taskResponse m) => inferInstanceAs (Decidable (_ < _ ∧
      ∀ n ∈ s.workerNodes, ∀ t ∈ n.worker.unanswered, t.taskId = m.taskId → Replies t m))
  | .message _ (.ready ..) | .message _ (.taskFunctionNames _) | .message _ (.killRequest _) | .message _ (.killAnswer _)
  | .poll _ | .error _ | .exit _ | .start | .enableTasksQueue .. | .setTasksQueueOptions _ | .destroy | .destroyed =>
    inferInstanceAs (Decidable False)

theorem FunctionEvent.taskEvent {s : Pool Data Response} {e : Event Data Response} (h : FunctionEvent s e) :
    TaskEvent e := by
  cases e with
  | execute a b c d => trivial
  | message w message =>
    cases message with
    | taskResponse m => trivial
    | _ => exact h
  | _ => exact h

/-- The task that a response is about has not failed. -/
def Succeeds : Event Data Response → Prop
  | .message _ (.taskResponse m) => m.workerError.isNone = true
  | _ => True

instance : DecidablePred (Succeeds : Event Data Response → Prop)
  | .message _ (.taskResponse m) => inferInstanceAs (Decidable (m.workerError.isNone = true))
  | .message _ (.ready ..) | .message _ (.taskFunctionNames _) | .message _ (.killRequest _) | .message _ (.killAnswer _)
  | .execute .. | .poll _ | .error _ | .exit _ | .start | .enableTasksQueue .. | .setTasksQueueOptions _ | .destroy
  | .destroyed => inferInstanceAs (Decidable True)

/-- If the event is the response to a task that has failed, it is counted as a failure of its function. -/
def CountsFailure (s : Pool Data Response) (e : Event Data Response) (s' : Pool Data Response) : Prop :=
  ∀ w m, e = .message w (.taskResponse m) → m.workerError.isSome = true →
    ∀ n ∈ s.workerNodes[s.getWorkerNodeKeyByWorkerId w]?, ∀ n' ∈ s'.workerNodes[s.getWorkerNodeKeyByWorkerId w]?,
      ∀ t ∈ n.worker.unanswered, t.taskId = m.taskId →
        n'.functionCount (·.failed) t.name = n.functionCount (·.failed) t.name + 1

/-- After the event every node counts its task functions, and the event has been counted. -/
def CountsFunctions (s : Pool Data Response) (e : Event Data Response) (s' : Pool Data Response) : Prop :=
  (s'.All fun _ n => n.CountsByFunction) ∧ CountsFailure s e s'

/-! ## Runs -/

/-- A pool without a queue that knows the functions of its workers, while no task has failed. -/
structure FunctionPool (s : Pool Data Response) : Prop where
  direct : Direct s
  clones : ClonesByData s
  named : s.All fun _ n => n.Named
  counts : CountsInFlight s
  tallied : s.All fun _ n => n.Tallied

section Steps
variable {s s' : Pool Data Response} {e : Event Data Response}

theorem FunctionPool.now (h : FunctionPool s) (now : ℚ) : FunctionPool { s with now } :=
  ⟨h.direct.now now, h.clones, h.named, h.counts, h.tallied⟩

theorem FunctionPool.countsByFunction (h : FunctionPool s) : s.All fun _ n => n.CountsByFunction :=
  fun i n hn => (h.tallied i n hn).countsByFunction (h.named i n hn) (h.counts i n hn)

/-- Only tasks of listed functions are ever in flight. -/
theorem FunctionPool.named_step (h : FunctionPool s) (he : FunctionEvent s e) (hd : DirectStep s e s') :
    s'.All fun _ n => n.Named := by
  refine hd.all h.named (fun taskId name data k n _ _ _ _ hnamed => ?_) (fun taskId name data k n heq hn hnamed => ?_)
    fun w m k n _ _ _ hnamed => ?_
  · refine hnamed.congr (beforeTaskExecution_info _ _ _ n) fun t ht => ?_
    rw [beforeTaskExecution_worker] at ht
    exact .inl ht
  · subst heq
    refine hnamed.congr (sameSetup_startTask s _ n).info fun t ht => ?_
    rw [startTask_worker] at ht
    rcases List.mem_append.1 ht with ht | ht
    · exact .inl ht
    · rw [List.mem_singleton.1 ht]
      exact .inr (he n hn)
  · refine hnamed.congr (afterTaskExecution_info _ _ _) fun t ht => ?_
    rw [afterTaskExecution_worker] at ht
    exact .inl (List.mem_of_mem_eraseP ht)

/-- A task that is sent, and one that ends without failing, are counted where they belong. -/
theorem FunctionPool.tallied_step (h : FunctionPool s) (he : FunctionEvent s e) (hd : DirectStep s e s')
    (hsend : Sendable s e) (hsuccess : Succeeds e) : s'.All fun _ n => n.Tallied := by
  have hlisted : s.All fun _ n => n.Listed ∧ n.Tallied := fun i n hn => ⟨(h.named i n hn).listed, h.tallied i n hn⟩
  have hlisted' : s'.All fun _ n => n.Listed ∧ n.Tallied := by
    refine hd.all hlisted (fun taskId name data k n heq ha hn hfail _ => ?_)
      (fun taskId name data k n heq hn hn' => ?_) fun w m k n heq hn hm hn' => ?_
    · subst heq
      rw [hsend ha n hn] at hfail
      cases hfail
    · obtain ⟨hlist, htally⟩ := hn'
      exact ⟨hlist.congr (sameSetup_startTask s _ n).info, htally.start hlist s _⟩
    · subst heq
      obtain ⟨hlist, htally⟩ := hn'
      refine ⟨hlist.congr (afterTaskExecution_info _ _ _), htally.answer hlist _ hm fun t ht hid => ?_⟩
      rcases he.2 n (List.mem_of_getElem? hn) t ht hid with ⟨-, hname⟩ | ⟨hfailed, -⟩
      · exact hname
      · rw [Option.isSome_iff_ne_none] at hfailed
        exact absurd (Option.isNone_iff_eq_none.1 hsuccess) hfailed
  exact fun i n hn => (hlisted' i n hn).2

/-- An event leaves every function counted if and only if it sends the task that it submits, if any, and is not
the response to a task that has failed. -/
theorem FunctionPool.step (h : FunctionPool s) (he : FunctionEvent s e) (hd : DirectStep s e s') :
    (Sendable s e ∧ Succeeds e ↔ CountsFunctions s e s') ∧ (Sendable s e ∧ Succeeds e → FunctionPool s') := by
  have hnamed := h.named_step he hd
  have hkept (hok : Sendable s e ∧ Succeeds e) : FunctionPool s' :=
    ⟨hd.direct h.direct, hd.clonesByData h.clones, hnamed, hd.countsInFlight h.counts hok.1, h.tallied_step he hd hok.1 hok.2⟩
  refine ⟨⟨fun hok => ⟨(hkept hok).countsByFunction, ?_⟩, fun hgood => ⟨?_, ?_⟩⟩, hkept⟩
  · rintro w m rfl hfailed
    rw [Option.isSome_iff_ne_none] at hfailed
    exact absurd (Option.isNone_iff_eq_none.1 hok.2) hfailed
  · refine (hd.countsInFlight_iff h.counts).2 fun i n hn => ?_
    exact (hgood.1 i n hn).executing (hnamed i n hn)
  · cases hd with
    | @responded w m n hn hm =>
      rcases hworkerError : m.workerError with _ | x
      · show m.workerError.isNone = true
        rw [hworkerError]
        rfl
      · obtain ⟨t, ht, hid⟩ := List.mem_map.1 hm
        have hnone : m.taskPerformance = none := by
          rcases he.2 n (List.mem_of_getElem? hn) t ht hid with ⟨hnone, -⟩ | ⟨-, hnone⟩
          · rw [hworkerError] at hnone
            cases hnone
          · exact Option.isNone_iff_eq_none.1 hnone
        have hn' := Pool.getElem?_modifyNode_self
          (fun n => (n.answer m.taskId).afterTaskExecution s.taskStatisticsRequirements m) hn
        rw [← workerNodes_responded] at hn'
        exact absurd (hgood.1 _ _ hn') ((h.tallied _ n hn).not_countsByFunction (h.named _ n hn) _ hm hnone)
    | ignored hnone => exact absurd he.1 (not_lt.2 (List.getElem?_eq_none_iff.1 hnone))
    | _ => trivial

end Steps

theorem FunctionPool.of_fresh {s₀ : Pool Data Response} (h₀ : Fresh s₀) (hq : s₀.opts.enableTasksQueue = false)
    (hfixed : s₀.type = .fixed ∨ s₀.full = true) (hclone : ClonesByData s₀)
    (hlisted : ∀ n ∈ s₀.workerNodes, n.Listed ∧ n.taskFunctionsUsage = ∅) : FunctionPool s₀ := by
  have hkeys (n : WorkerNode Data) (hn : n ∈ s₀.workerNodes) : n.keysInFlight = 0 := by
    unfold keysInFlight
    rw [(h₀.nodes n hn).worker]
    rfl
  refine ⟨.of_fresh h₀ hq hfixed, hclone, fun i n hi => ?_, fun i n hi => ?_, fun i n hi => ?_⟩ <;>
    have hn := List.mem_of_getElem? hi
  · refine ⟨(hlisted n hn).1, fun key hkey => ?_⟩
    rw [hkeys n hn] at hkey
    exact absurd hkey (Multiset.notMem_zero key)
  · show n.usage.tasks.executing = n.worker.unanswered.length
    rw [(h₀.nodes n hn).executing, (h₀.nodes n hn).worker]
    rfl
  · have hempty : (fun key => (n.record key).tasks.executing) = fun _ => 0 := by
      funext key
      unfold record
      rw [(hlisted n hn).2]
      rfl
    show Tallies (fun key => (n.record key).tasks.executing) n.keysInFlight
    rw [hempty, hkeys n hn]
    exact tallies_zero

/-- In a run of calls and replies the usage of every task function counts the tasks of it that are in flight, and
those that have failed, if and only if every task can be sent and none has failed. -/
theorem countsFunctions_iff {s₀ s : Pool Data Response} {es : List (Event Data Response)} (h₀ : Fresh s₀)
    (hq : s₀.opts.enableTasksQueue = false) (hfixed : s₀.type = .fixed ∨ s₀.full = true) (hclone : ClonesByData s₀)
    (hlisted : ∀ n ∈ s₀.workerNodes, n.Listed ∧ n.taskFunctionsUsage = ∅) :
    (s₀.All fun _ n => n.CountsByFunction) ∧
      (Run (Such CountsFunctions (Guarded FunctionEvent Step)) s₀ es s ↔
        Run (Guarded (fun s e => Sendable s e ∧ Succeeds e) (Guarded FunctionEvent Step)) s₀ es s) := by
  have hpool := FunctionPool.of_fresh h₀ hq hfixed hclone hlisted
  refine ⟨hpool.countsByFunction, run_such_iff_of_kept FunctionPool hpool fun s e s' hs hstep => ?_⟩
  obtain ⟨he, hstep⟩ := hstep
  obtain ⟨now, hd⟩ := directStep_of_step hs.direct he.taskEvent hstep
  have he' : FunctionEvent { s with now } e := by
    cases e with
    | execute a b c d => cases d <;> exact he
    | message a b => cases b <;> exact he
    | _ => exact he
  have hiff := (hs.now now).step he' hd
  rw [sendable_now hs.clones now] at hiff
  exact hiff

/-! ## Runs of a pool with two task functions -/

/-- The pool when its workers have listed their task functions. -/
def Pool.listNames (names : List String) (p : Pool Data Response) : Pool Data Response :=
  { p with workerNodes := p.workerNodes.map fun n => { n with info := { n.info with taskFunctionNames := some names } } }

theorem Fresh.listNames {p : Pool Data Response} (h : Fresh p) (names : List String) : Fresh (p.listNames names) where
  nodes n hn := by
    obtain ⟨a, ha, rfl⟩ := List.mem_map.1 hn
    have hnew := h.nodes a ha
    refine ⟨hnew.worker, hnew.tasksQueue, hnew.executing, hnew.onEmptyQueueCount, hnew.polling, hnew.destroying, ?_,
      hnew.onEmptyQueue, hnew.onBackPressure, hnew.size, hnew.terminated⟩
    exact hnew.channelOpen
  ids := by
    unfold Pool.listNames
    rw [List.map_map]
    exact h.ids
  idsBelow n hn := by
    obtain ⟨a, ha, rfl⟩ := List.mem_map.1 hn
    exact h.idsBelow a ha
  promiseResponseMap := h.promiseResponseMap
  settled := h.settled
  uuids := h.uuids
  removedNodes := h.removedNodes
  errorsCaught := h.errorsCaught
  destroying := h.destroying

/-- One worker with the task functions `a`, the default one, and `b`. -/
def twoFunctions : Pool Unit Unit :=
  (startedPool 1 false ⟨none, none, false, false⟩).listNames [defaultTaskName, "a", "b"]

theorem twoFunctions_listed : ∀ n ∈ twoFunctions.workerNodes, n.Listed ∧ n.taskFunctionsUsage = ∅ := by
  intro n hn
  obtain rfl := List.mem_singleton.1 hn
  exact ⟨⟨_, rfl, rfl, by decide, by decide, by decide⟩, rfl⟩

/-- A task submitted by name. -/
def submitTo (taskId : Nat) (name : Option String) : Event Unit Unit := .execute taskId name () (.key 0)

/-- The reply to a task that has not failed. -/
def replyOf (taskId : Nat) (name : String) : Event Unit Unit :=
  .message 0 (.taskResponse ⟨taskId, some (), none, some ⟨name, 0, none, none⟩⟩)

theorem countsFunctions_iff_alias : ∃ s, (∃ n ∈ s.workerNodes, n.functionCount (·.executing) "a" = 1) ∧
    Run (Such CountsFunctions (Guarded FunctionEvent Step)) twoFunctions
      [submitTo 0 none, submitTo 1 (some "a"), submitTo 2 (some "b"), replyOf 0 "default", replyOf 2 "b"] s := by
  obtain ⟨s, hr, hs⟩ := run_to (fun s e => (Sendable s e ∧ Succeeds e) ∧ FunctionEvent s e) 1 twoFunctions
    [submitTo 0 none, submitTo 1 (some "a"), submitTo 2 (some "b"), replyOf 0 "default", replyOf 2 "b"]
    (P := fun s => ∃ n ∈ s.workerNodes, n.functionCount (·.executing) "a" = 1) (by decide +kernel)
  have hr' : Run (Guarded (fun s e => Sendable s e ∧ Succeeds e) (Guarded FunctionEvent Step)) twoFunctions
      [submitTo 0 none, submitTo 1 (some "a"), submitTo 2 (some "b"), replyOf 0 "default", replyOf 2 "b"] s :=
    hr.mono fun _ _ _ h => ⟨h.1.1, h.1.2, h.2⟩
  exact ⟨s, hs, (countsFunctions_iff ((fresh_startedPool 1 false _).listNames _) rfl (.inl rfl) (fun _ _ _ => rfl)
    twoFunctions_listed).2.2 hr'⟩

/-- A task of `a` fails: the counter of `a` keeps it. -/
theorem countsFunctions_lost : ¬ ∀ (s₀ s s' : Pool Unit Unit) (es : List (Event Unit Unit)) (e : Event Unit Unit),
    Fresh s₀ → s₀.opts.enableTasksQueue = false → s₀.type = .fixed → (∀ t, s₀.postable t = true) →
      (∀ n ∈ s₀.workerNodes, n.Listed ∧ n.taskFunctionsUsage = ∅) → Run (Guarded FunctionEvent Step) s₀ es s →
        Guarded FunctionEvent Step s e s' → CountsFunctions s e s' := by
  intro hclaim
  obtain ⟨s, hr, s', hs', n, hn, hmem, hcount, hnone⟩ := run_to FunctionEvent 1 twoFunctions [submitTo 0 (some "a")]
    (P := fun s => ∃ s' ∈ nextIf FunctionEvent 1 s (.message 0 (.taskResponse ⟨0, none, some ⟨"a", "failed"⟩, none⟩)),
      ∃ n ∈ s'.workerNodes[0]?, "a" ∈ n.listedNames ∧ n.functionCount (·.executing) "a" = 1 ∧ n.unansweredOf "a" = 0)
    (by decide +kernel)
  have hgood := hclaim _ s s' _ _ ((fresh_startedPool 1 false _).listNames _) rfl rfl (fun _ => rfl)
    twoFunctions_listed hr (step_of_nextIf hs')
  obtain ⟨usage, hget, hexec⟩ := (hgood.1 0 n hn).each "a" hmem
  unfold functionCount at hcount
  rw [hget] at hcount
  have hcount' : usage.tasks.executing = 1 := hcount
  omega

end Poolifier
