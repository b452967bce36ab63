import Poolifier.Direct
import Poolifier.Eligibility
import Poolifier.Context
import Poolifier.Lib.Shares
/-!
# Even loads and even turns

Without a queue, over workers that stay and answer with success, the least used
strategy keeps the loads of the nodes within one of each other: a task goes to a
node no other is below, and a response moves it from one counter of its load to
another. The round robin strategy goes through the keys in turn, so every window
of its choices has each key as often as any other, up to one.
-/

namespace Poolifier

open EffLib RunLib MapLib LeastLib SharesLib WorkerNode

variable {Data Response : Type}

/-! ## The least used strategy -/

/-- `choose` as the context calls it: it does not throw. -/
def LeastUsed.chosen (p : Pool Data Response) (s : AbstractWorkerChoiceStrategy) :
    Except JsError (Option Int) × AbstractWorkerChoiceStrategy :=
  (.ok (LeastUsed.choose p s).1, (LeastUsed.choose p s).2)

/-- What `chooseWorkerNode` gets from a context whose strategy is the least used one. -/
def chooseLeastUsed (p : Pool Data Response) (c : WorkerChoiceStrategyContext AbstractWorkerChoiceStrategy) :
    Choice × WorkerChoiceStrategyContext AbstractWorkerChoiceStrategy :=
  match c.execute (LeastUsed.chosen p) with
  | (.ok workerNodeKey, c) => (.key workerNodeKey.toNat, c)
  | (.error _, c) => (.none c.retriesCount, c)

/-- The calls of `execute`, which ask the context once their arguments are accepted, and the
responses of tasks that have not failed. -/
inductive LeastUsedStep : Pool Data Response × WorkerChoiceStrategyContext AbstractWorkerChoiceStrategy →
    Event Data Response → Pool Data Response × WorkerChoiceStrategyContext AbstractWorkerChoiceStrategy → Prop
  | asked {s c s' taskId name data} : s.started = true → name.any isBlank = false →
      Step s (.execute taskId name data (chooseLeastUsed s c).1) s' →
      LeastUsedStep (s, c) (.execute taskId name data (chooseLeastUsed s c).1) (s', (chooseLeastUsed s c).2)
  | refused {s c s' taskId name data choice} : ¬ (s.started = true ∧ name.any isBlank = false) →
      Step s (.execute taskId name data choice) s' →
      LeastUsedStep (s, c) (.execute taskId name data choice) (s', c)
  | responded {s c s' w m} : m.workerError = none → Step s (.message w (.taskResponse m)) s' →
      LeastUsedStep (s, c) (.message w (.taskResponse m)) (s', c)

/-- The least used strategy, or the round robin one, as it is constructed without options. -/
def AbstractWorkerChoiceStrategy.initial : AbstractWorkerChoiceStrategy where
  nextWorkerNodeKey := some 0
  previousWorkerNodeKey := 0
  taskStatisticsRequirements := ⟨⟨false, false, false⟩, ⟨false, false, false⟩, ⟨false, false, false⟩⟩
  opts := ⟨some 6, none, false, false, false, none⟩

/-- No worker has been given a task. -/
structure Unused (s : Pool Data Response) : Prop where
  ids : (s.workerNodes.map (·.info.id)).Nodup
  idle : ∀ n ∈ s.workerNodes, n.worker.unanswered = []
  zero : ∀ n ∈ s.workerNodes, LeastUsed.load n = 0

/-- Each node counts the tasks in flight on it, and the loads are level. -/
structure LevelLoads (s : Pool Data Response) : Prop where
  direct : Direct s
  charged : s.All fun _ n => n.worker.unanswered.length ≤ n.usage.tasks.executing
  level : Level (s.workerNodes.map LeastUsed.load)

section LeastUsed
variable {s s' : Pool Data Response} {e : Event Data Response} {n : WorkerNode Data}
  {c c' : WorkerChoiceStrategyContext AbstractWorkerChoiceStrategy}

theorem chooseLeastUsed_fst (s : Pool Data Response) (c : WorkerChoiceStrategyContext AbstractWorkerChoiceStrategy) :
    (chooseLeastUsed s c).1 = .key (minWorkerNodeKey LeastUsed.load s.workerNodes) := by
  have hchosen : LeastUsed.chosen s c.strategy =
      (.ok (some ((minWorkerNodeKey LeastUsed.load s.workerNodes : Nat) : Int)), (LeastUsed.choose s c.strategy).2) := rfl
  unfold chooseLeastUsed
  rw [WorkerChoiceStrategyContext.execute_of_some hchosen]
  rfl

@[simp] theorem load_beforeTaskExecution (r : TaskStatisticsRequirements) (now : ℚ) (t : Task Data) (n : WorkerNode Data) :
    LeastUsed.load (n.beforeTaskExecution r now t) = LeastUsed.load n + 1 := by
  simp only [LeastUsed.load, beforeTaskExecution_usage, beforeTaskExecution_tasksQueue]
  simp only [WorkerUsage.beforeTaskExecution, WorkerUsage.updateWaitTimeWorkerUsage]
  omega

@[simp] theorem load_startTask (p : Pool Data Response) (t : Task Data) (n : WorkerNode Data) :
    LeastUsed.load (p.startTask t n) = LeastUsed.load n + 1 :=
  load_beforeTaskExecution _ _ t n

/-- A task that has not failed goes from `executing` to `executed`. -/
theorem load_afterTaskExecution (r : TaskStatisticsRequirements) {m : TaskResponse Response} (hok : m.workerError = none)
    (hpos : 0 < n.usage.tasks.executing) :
    LeastUsed.load ((n.answer m.taskId).afterTaskExecution r m) = LeastUsed.load n := by
  have husage : (n.answer m.taskId).usage = n.usage := rfl
  have hqueue : (n.answer m.taskId).tasksQueue = n.tasksQueue := rfl
  simp only [LeastUsed.load, afterTaskExecution_usage, afterTaskExecution_tasksQueue, husage, hqueue,
    WorkerUsage.afterTaskExecution_tasks, hok, Option.isNone_none, if_true]
  omega

/-- One more task for the node the strategy chooses. -/
theorem LevelLoads.give (h : LevelLoads s) {k : Nat} (hk : k = minWorkerNodeKey LeastUsed.load s.workerNodes)
    (hn : s.workerNodes[k]? = some n) {f : WorkerNode Data → WorkerNode Data}
    (hf : ∀ n, LeastUsed.load (f n) = LeastUsed.load n + 1) :
    Level ((s.modifyNode k f).workerNodes.map LeastUsed.load) := by
  have hne : s.workerNodes ≠ [] := by
    intro hnil
    rw [hnil] at hn
    cases hn
  have hleast := minWorkerNodeKey_firstLeast LeastUsed.load hne
  rw [← hk] at hleast
  have hmap : (s.modifyNode k f).workerNodes.map LeastUsed.load = (s.workerNodes.map LeastUsed.load).modify k (· + 1) := by
    refine List.ext_getElem? fun i => ?_
    rw [List.getElem?_map, Pool.getElem?_modifyNode, List.getElem?_modify, List.getElem?_map]
    rcases s.workerNodes[i]? with _ | a
    · rfl
    · by_cases hi : k = i
      · simp [hi, hf]
      · simp [hi]
  rw [hmap]
  refine h.level.give (x := LeastUsed.load n) (by rw [List.getElem?_map, hn]; rfl) fun y hy => ?_
  obtain ⟨a, ha, rfl⟩ := List.mem_map.1 hy
  obtain ⟨i, hi⟩ := List.mem_iff_getElem?.1 ha
  have hle := hleast.le i (List.getElem?_eq_some_iff.1 hi).1
  simpa [measureAt, hn, hi] using hle

/-- Every event keeps the loads level, if tasks go where the strategy says and none fails. -/
theorem DirectStep.levelLoads (hs : DirectStep s e s') (h : LevelLoads s)
    (hkey : ∀ taskId name data k, e = .execute taskId name data (.key k) → Accepts s name (.key k) →
      k = minWorkerNodeKey LeastUsed.load s.workerNodes)
    (hok : ∀ w m, e = .message w (.taskResponse m) → m.workerError = none) : LevelLoads s' where
  direct := hs.direct h.direct
  charged := by
    refine hs.all h.charged (fun taskId name data k n _ _ _ _ hle => ?_) (fun taskId name data k n _ _ hle => ?_)
      fun w m k n _ _ hm hle => ?_
    · simp only [beforeTaskExecution_worker, beforeTaskExecution_usage]
      exact hle.trans (Nat.le_succ _)
    · rw [startTask_executing, length_unanswered_startTask]
      exact Nat.succ_le_succ hle
    · have hlen := length_unanswered_answer hm
      simp only [afterTaskExecution_worker, afterTaskExecution_usage, WorkerUsage.afterTaskExecution_executing]
      have husage : (n.answer m.taskId).usage = n.usage := rfl
      rw [husage]
      omega
  level := by
    cases hs with
    | refused x hid ha =>
      rw [Pool.settle_workerNodes]
      exact h.level
    | noNode x hid ha hn =>
      rw [Pool.settle_workerNodes]
      exact h.level
    | @notSent taskId name data k n x hid ha hn hsend =>
      rw [Pool.settle_workerNodes]
      exact h.give (hkey _ _ _ _ rfl ha) hn fun n => load_beforeTaskExecution _ _ _ n
    | @sent taskId name data k n hid ha hn hsend =>
      exact h.give (hkey _ _ _ _ rfl ha) hn fun n => load_startTask _ _ n
    | @responded w m n hn hm =>
      rw [workerNodes_responded]
      have hpos : 0 < n.usage.tasks.executing := by
        have hlen : 0 < n.worker.unanswered.length := by
          rw [← List.length_map (f := fun t : Task Data => t.taskId)]
          exact List.length_pos_of_mem hm
        exact hlen.trans_le (h.charged _ n hn)
      have hsame : (s.modifyNode (s.getWorkerNodeKeyByWorkerId w) fun n =>
          (n.answer m.taskId).afterTaskExecution s.taskStatisticsRequirements m).workerNodes.map LeastUsed.load =
            s.workerNodes.map LeastUsed.load := by
        refine map_modify_same fun n' hn' => ?_
        cases hn.symm.trans hn'
        exact load_afterTaskExecution _ (hok _ _ rfl) hpos
      rw [hsame]
      exact h.level
    | ignored => exact h.level

theorem LevelLoads.now (h : LevelLoads s) (now : ℚ) : LevelLoads { s with now } :=
  ⟨h.direct.now now, h.charged, h.level⟩

theorem LeastUsedStep.levelLoads (hs : LeastUsedStep (s, c) e (s', c')) (h : LevelLoads s) : LevelLoads s' := by
  cases hs with
  | @asked _ _ _ taskId name data hst hname hstep =>
    obtain ⟨now, hd⟩ := directStep_of_step h.direct (by exact trivial) hstep
    refine hd.levelLoads (h.now now) (fun taskId' name' data' k heq _ => ?_) fun w m heq => ?_
    · rw [chooseLeastUsed_fst] at heq
      cases heq
      rfl
    · cases heq
  | @refused _ _ _ taskId name data choice hno hstep =>
    obtain ⟨now, hd⟩ := directStep_of_step h.direct (by exact trivial) hstep
    refine hd.levelLoads (h.now now) (fun taskId' name' data' k heq ha => ?_) fun w m heq => ?_
    · cases heq
      exact absurd ⟨ha.1, ha.2.1⟩ hno
    · cases heq
  | @responded _ _ _ w m hok hstep =>
    obtain ⟨now, hd⟩ := directStep_of_step h.direct (by exact trivial) hstep
    refine hd.levelLoads (h.now now) (fun taskId' name' data' k heq _ => ?_) fun w' m' heq => ?_
    · cases heq
    · cases heq
      exact hok

/-- In every state the loads of two nodes differ by at most one. -/
theorem loads_differ_by_one {s₀ : Pool Data Response} {c₀ : WorkerChoiceStrategyContext AbstractWorkerChoiceStrategy}
    {es : List (Event Data Response)} (hunused : Unused s₀) (htype : s₀.type = .fixed)
    (hq : s₀.opts.enableTasksQueue = false) (hr : Run LeastUsedStep (s₀, c₀) es (s, c)) :
    ∀ n ∈ s.workerNodes, ∀ n' ∈ s.workerNodes, LeastUsed.load n ≤ LeastUsed.load n' + 1 := by
  have h₀ : LevelLoads s₀ := by
    refine ⟨.of_idle hq (.inl htype) hunused.ids hunused.idle, fun i n hn => ?_, level_of_zero fun x hx => ?_⟩
    · simp only [hunused.idle n (List.mem_of_getElem? hn), List.length_nil, Nat.zero_le]
    · obtain ⟨n, hn, rfl⟩ := List.mem_map.1 hx
      exact hunused.zero n hn
  have h : LevelLoads s := by
    refine hr.inv (fun a => LevelLoads a.1) h₀ fun a e b ha hstep => ?_
    exact LeastUsedStep.levelLoads hstep ha
  intro n hn n' hn'
  exact h.level.le_succ (List.mem_map_of_mem hn) (List.mem_map_of_mem hn')

/-- Events whose tasks go to the node the strategy chooses, and do not fail. -/
def GoesToLeast (s : Pool Data Response) : Event Data Response → Prop
  | .execute _ _ _ (.key k) => k = minWorkerNodeKey LeastUsed.load s.workerNodes
  | .message _ (.taskResponse m) => m.workerError.isNone = true
  | _ => False

instance (s : Pool Data Response) : DecidablePred (GoesToLeast s)
  | .execute _ _ _ (.key k) => inferInstanceAs (Decidable (k = minWorkerNodeKey LeastUsed.load s.workerNodes))
  | .message _ (.taskResponse m) => inferInstanceAs (Decidable (m.workerError.isNone = true))
  | .execute _ _ _ (.none _) | .message _ (.ready ..) | .message _ (.taskFunctionNames _) | .message _ (.killRequest _)
  | .message _ (.killAnswer _) | .poll _ | .error _ | .exit _ | .start | .enableTasksQueue .. | .setTasksQueueOptions _
  | .destroy | .destroyed => inferInstanceAs (Decidable False)

/-- Such runs of the pool are those of a context with it. -/
theorem leastUsedRun_of_run {s₀ : Pool Data Response} {es : List (Event Data Response)}
    (hr : Run (Guarded GoesToLeast Step) s₀ es s) (c₀ : WorkerChoiceStrategyContext AbstractWorkerChoiceStrategy) :
    ∃ c, Run LeastUsedStep (s₀, c₀) es (s, c) := by
  induction hr with
  | nil => exact ⟨c₀, .nil⟩
  | @step es s e s' _ hstep ih =>
    obtain ⟨c, hc⟩ := ih
    obtain ⟨hgoes, hstep⟩ := hstep
    cases e with
    | execute taskId name data choice =>
      cases choice with
      | none => exact hgoes.elim
      | key k =>
        have hk : Choice.key k = (chooseLeastUsed s c).1 := by
          rw [chooseLeastUsed_fst]
          exact congrArg Choice.key hgoes
        by_cases ha : s.started = true ∧ name.any isBlank = false
        · rw [hk] at hstep ⊢
          exact ⟨_, .step hc (.asked ha.1 ha.2 hstep)⟩
        · exact ⟨_, .step hc (.refused ha hstep)⟩
    | message w message =>
      cases message with
      | taskResponse m => exact ⟨_, .step hc (.responded (Option.isNone_iff_eq_none.1 hgoes) hstep)⟩
      | _ => exact hgoes.elim
    | _ => exact hgoes.elim

/-- Three tasks and a response, on two workers. -/
theorem loads_differ_by_one_two_workers :
    ∃ s c, Run LeastUsedStep (startedPool 2 false ⟨none, none, false, false⟩,
        ⟨.initial, some 6, 0⟩) [submit 0 0, submit 1 1, respond 0 0, submit 2 0] (s, c) ∧
      ∀ n ∈ s.workerNodes, ∀ n' ∈ s.workerNodes, LeastUsed.load n ≤ LeastUsed.load n' + 1 := by
  obtain ⟨s, hs, -⟩ := run_to GoesToLeast 1 (startedPool 2 false ⟨none, none, false, false⟩)
    [submit 0 0, submit 1 1, respond 0 0, submit 2 0] (P := fun _ => True) (by decide +kernel)
  obtain ⟨c, hc⟩ := leastUsedRun_of_run hs _
  exact ⟨s, c, hc, loads_differ_by_one ⟨by decide, by decide, by decide⟩ rfl rfl hc⟩

end LeastUsed

/-! ## The round robin strategy -/

/-- A call of `choose` returns the key, over `N` worker nodes that may have changed since the last call. -/
def RoundRobin.Chooses (Data Response : Type) (N : Nat) (s : AbstractWorkerChoiceStrategy) (key : Option Int)
    (s' : AbstractWorkerChoiceStrategy) : Prop :=
  ∃ p : Pool Data Response, p.workerNodes.length = N ∧ RoundRobin.choose p s = (key, s')

section RoundRobin
variable {N : Nat} {s₀ s s' : AbstractWorkerChoiceStrategy} {key : Option Int} {keys before : List (Option Int)}

/-- After `a` calls the cursor is at `a`, modulo the number of nodes. -/
theorem RoundRobin.Chooses.turn (hN : 0 < N) (h : RoundRobin.Chooses Data Response N s key s') {a : Nat}
    (ha : s.nextWorkerNodeKey = some ((a % N : Nat) : Int)) :
    key = some ((a % N : Nat) : Int) ∧ s'.nextWorkerNodeKey = some (((a + 1) % N : Nat) : Int) := by
  obtain ⟨p, rfl, hchoose⟩ := h
  obtain ⟨rfl, rfl⟩ := Prod.mk.inj hchoose
  refine ⟨ha, ?_⟩
  have hlt : a % p.workerNodes.length < p.workerNodes.length := Nat.mod_lt a hN
  simp only [RoundRobin.roundRobinNextWorkerNodeKey, AbstractWorkerChoiceStrategy.followingWorkerNodeKey,
    AbstractWorkerChoiceStrategy.setPreviousWorkerNodeKey, AbstractWorkerChoiceStrategy.currentWorkerNodeKey, ha,
    Option.getD_some, Pool.lastKey, Option.some.injEq]
  have hmod : (a + 1) % p.workerNodes.length = (a % p.workerNodes.length + 1) % p.workerNodes.length :=
    (Nat.mod_add_mod a _ 1).symm
  rw [hmod]
  split
  · rename_i hlast
    have hwrap : a % p.workerNodes.length + 1 = p.workerNodes.length := by omega
    rw [hwrap, Nat.mod_self]
    rfl
  · rename_i hlast
    have hstay : a % p.workerNodes.length + 1 < p.workerNodes.length := by omega
    rw [Nat.mod_eq_of_lt hstay, Nat.cast_succ]

/-- The calls of `choose` after turn `a` return the keys in turn. -/
theorem keys_of_run (hN : 0 < N) (hr : Run (RoundRobin.Chooses Data Response N) s keys s') {a : Nat}
    (ha : s.nextWorkerNodeKey = some ((a % N : Nat) : Int)) :
    keys = (window N a keys.length).map (fun i => some ((i : Nat) : Int)) ∧
      s'.nextWorkerNodeKey = some (((a + keys.length) % N : Nat) : Int) := by
  induction hr with
  | nil => exact ⟨rfl, ha⟩
  | @step keys s₁ key s₂ _ hstep ih =>
    obtain ⟨hkeys, hcursor⟩ := ih
    obtain ⟨rfl, hnext⟩ := hstep.turn hN hcursor
    rw [List.length_append, List.length_singleton]
    refine ⟨?_, hnext⟩
    rw [window_succ, List.map_append, ← hkeys]
    rfl

/-- Any window of the calls after `reset` returns each key as often as any other, up to one, and a window
of `N` calls returns each key once. -/
theorem roundRobin_windows (hN : 0 < N) (hbefore : Run (RoundRobin.Chooses Data Response N) (RoundRobin.reset s₀) before s)
    (hr : Run (RoundRobin.Chooses Data Response N) s keys s') :
    (∀ i < N, keys.count (some ((i : Nat) : Int)) = keys.length / N ∨
      keys.count (some ((i : Nat) : Int)) = keys.length ⌈/⌉ N) ∧
    (keys.length = N → keys.Perm ((List.range N).map fun i => some ((i : Nat) : Int))) := by
  have hstart : (RoundRobin.reset s₀).nextWorkerNodeKey = some ((0 % N : Nat) : Int) := by
    rw [Nat.zero_mod]
    rfl
  have hcursor := (keys_of_run hN hbefore hstart).2
  obtain ⟨hkeys, -⟩ := keys_of_run hN hr hcursor
  have hinj : Function.Injective fun i : Nat => some ((i : Nat) : Int) := by
    intro i j h
    exact Int.ofNat.inj (Option.some.inj h)
  constructor
  · intro i hi
    have hcount : keys.count (some ((i : Nat) : Int)) = (window N (0 + before.length) keys.length).count i := by
      conv_lhs => rw [hkeys]
      exact List.count_map_of_injective _ _ hinj i
    rw [hcount]
    exact count_window_floor_or_ceil hi _ _
  · intro hlen
    rw [hkeys, hlen]
    exact (window_perm hN _).map _

/-- Computes the calls over a pool that return given keys. -/
def RoundRobin.nextChoice (p : Pool Data Response) (s : AbstractWorkerChoiceStrategy) (key : Option Int) :
    Option AbstractWorkerChoiceStrategy :=
  if (RoundRobin.choose p s).1 = key then some (RoundRobin.choose p s).2 else none

theorem chooses_of_nextChoice (p : Pool Data Response) (s : AbstractWorkerChoiceStrategy) (key : Option Int)
    (s' : AbstractWorkerChoiceStrategy) (h : RoundRobin.nextChoice p s key = some s') :
    RoundRobin.Chooses Data Response p.workerNodes.length s key s' := by
  unfold RoundRobin.nextChoice at h
  split at h
  · cases h
    exact ⟨p, rfl, Prod.ext ‹_› rfl⟩
  · cases h

/-- A window of four of the calls over three nodes, after two calls. -/
theorem roundRobin_windows_three_nodes : ∃ s s',
    Run (RoundRobin.Chooses Unit Unit 3) (RoundRobin.reset .initial) [some 0, some 1] s ∧
    Run (RoundRobin.Chooses Unit Unit 3) s [some 2, some 0, some 1, some 2] s' ∧
    ∀ i < 3, [some 2, some 0, some 1, some 2].count (some ((i : Nat) : Int)) = 1 ∨
      [some 2, some 0, some 1, some 2].count (some ((i : Nat) : Int)) = 2 := by
  have hnext := chooses_of_nextChoice (startedPool 3 false ⟨none, none, false, false⟩)
  have hbefore : Run (RoundRobin.Chooses Unit Unit 3) (RoundRobin.reset .initial) [some 0, some 1]
    { AbstractWorkerChoiceStrategy.initial with nextWorkerNodeKey := some 2, previousWorkerNodeKey := 1 } :=
    run_of_replay hnext rfl
  have hr : Run (RoundRobin.Chooses Unit Unit 3) { AbstractWorkerChoiceStrategy.initial with
      nextWorkerNodeKey := some 2, previousWorkerNodeKey := 1 } [some 2, some 0, some 1, some 2] _ :=
    run_of_replay hnext rfl
  exact ⟨_, _, hbefore, hr, (roundRobin_windows (by decide) hbefore hr).1⟩

end RoundRobin

end Poolifier
