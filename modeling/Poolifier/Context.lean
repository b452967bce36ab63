import Poolifier.Lib.Runs
import Poolifier.Strategies
/-!
# The worker choice strategy context

The context asks the active strategy for a worker node key, and asks again when
it gets none: `retriesCount` counts how often, over all calls since the last one
that returned. The strategy is a parameter here: a state and its `choose`.

A call that throws leaves the counter where it is, so the next call has one
attempt only. `execute_spec` says what a call does with what the counter leaves
it.
-/

namespace Poolifier

open RunLib

/-- The active strategy of the context, and what `execute` reads and writes besides; `retries` is
that of the options. -/
structure WorkerChoiceStrategyContext (σ : Type) where
  strategy : σ
  retries : Option Nat
  retriesCount : Nat

namespace WorkerChoiceStrategyContext
variable {σ : Type}

/-- `execute`; a comparison with `undefined` is false. -/
def execute (choose : σ → Except JsError (Option Int) × σ) (c : WorkerChoiceStrategyContext σ) :
    Except JsError Int × WorkerChoiceStrategyContext σ :=
  match choose c.strategy with
  | (.error e, strategy) => (.error e, { c with strategy })
  | (.ok (some workerNodeKey), strategy) => (.ok workerNodeKey, { c with strategy, retriesCount := 0 })
  | (.ok none, strategy) =>
    if _h : c.retries.any (c.retriesCount < ·) then
      execute choose { c with strategy, retriesCount := c.retriesCount + 1 }
    else
      (.error (.error s!"Worker node key chosen is null or undefined after {c.retriesCount} retries"),
        { c with strategy })
termination_by c.retries.getD 0 - c.retriesCount
decreasing_by
  obtain ⟨retries, hretries, hlt⟩ := (Option.any_eq_true ..).1 _h
  simp only [hretries, Option.getD_some, decide_eq_true_eq] at hlt ⊢
  omega

variable {choose : σ → Except JsError (Option Int) × σ} {c : WorkerChoiceStrategyContext σ} {strategy : σ}

theorem execute_of_some {k : Int} (h : choose c.strategy = (.ok (some k), strategy)) :
    execute choose c = (.ok k, { c with strategy, retriesCount := 0 }) := by
  rw [execute, h]

theorem execute_of_retry {retries : Nat} (h : choose c.strategy = (.ok none, strategy)) (hr : c.retries = some retries)
    (hlt : c.retriesCount < retries) :
    execute choose c = execute choose { c with strategy, retriesCount := c.retriesCount + 1 } := by
  rw [execute, h]
  simp [hr, hlt]

theorem execute_of_exhausted (h : choose c.strategy = (.ok none, strategy))
    (hstop : ¬ c.retries.any (c.retriesCount < ·) = true) : execute choose c =
      (.error (.error s!"Worker node key chosen is null or undefined after {c.retriesCount} retries"),
        { c with strategy }) := by
  rw [execute, h]
  exact dif_neg hstop

/-- A strategy that never yields a key from some states makes `execute` throw there. -/
theorem execute_throws (P : σ → Prop) (hP : ∀ s, P s → ∃ s', choose s = (.ok none, s') ∧ P s') (h : P c.strategy) :
    ∃ e c', execute choose c = (.error e, c') := by
  induction hleft : c.retries.getD 0 - c.retriesCount generalizing c with
  | zero =>
    obtain ⟨s', hs', -⟩ := hP _ h
    have hstop : ¬ c.retries.any (c.retriesCount < ·) = true := by
      rcases hr : c.retries with _ | retries
      · simp
      · simp only [hr, Option.getD_some] at hleft
        simp only [Option.any_some, decide_eq_true_eq]
        omega
    exact ⟨_, _, execute_of_exhausted hs' hstop⟩
  | succ left ih =>
    obtain ⟨s', hs', hs⟩ := hP _ h
    rcases hr : c.retries with _ | retries
    · simp [hr] at hleft
    · simp only [hr, Option.getD_some] at hleft
      rw [execute_of_retry hs' hr (by omega)]
      refine ih (c := { c with strategy := s', retriesCount := c.retriesCount + 1 }) hs ?_
      simp only [hr, Option.getD_some]
      omega

/-! ## Sequences of calls -/

/-- A strategy that yields a sequence of keys and `undefined` results; its state counts the calls of `choose`. -/
def choices (answers : Nat → Option Int) (i : Nat) : Except JsError (Option Int) × Nat := (.ok (answers i), i + 1)

/-- A call of `execute`, with what it returns or throws. -/
def Call (answers : Nat → Option Int) (c : WorkerChoiceStrategyContext Nat) (r : Except JsError Int)
    (c' : WorkerChoiceStrategyContext Nat) : Prop :=
  execute (choices answers) c = (r, c')

/-- A call that asks again at most `retries` times: it stops at the first key and returns it, or throws
after one attempt more than that. -/
def RetriesUpTo (answers : Nat → Option Int) (retries : Nat) (c : WorkerChoiceStrategyContext Nat)
    (r : Except JsError Int) (c' : WorkerChoiceStrategyContext Nat) : Prop :=
  ∃ n ≤ retries, (∀ j < n, answers (c.strategy + j) = none) ∧ c'.strategy = c.strategy + n + 1 ∧
    ((∃ k, answers (c.strategy + n) = some k ∧ r = .ok k) ∨
      answers (c.strategy + n) = none ∧ n = retries ∧ ∃ e, r = .error e)

/-- The last call did not throw, or the call gets a key at once, or there are no retries anyway. -/
def HasAllAttempts (answers : Nat → Option Int) (retries : Nat) (c : WorkerChoiceStrategyContext Nat) : Prop :=
  c.retriesCount = 0 ∨ (answers c.strategy).isSome = true ∨ retries = 0

/-- The counter is zero after a call that returned, and at its bound after one that threw. -/
structure Counted (retries : Nat) (c : WorkerChoiceStrategyContext Nat) : Prop where
  option : c.retries = some retries
  counter : c.retriesCount = 0 ∨ c.retriesCount = retries

section Calls
variable {answers : Nat → Option Int} {retries : Nat} {c c' : WorkerChoiceStrategyContext Nat} {r : Except JsError Int}

theorem RetriesUpTo.one_more (h : RetriesUpTo answers retries { c with strategy := c.strategy + 1, retriesCount := q } r c')
    (hnone : answers c.strategy = none) : RetriesUpTo answers (retries + 1) c r c' := by
  obtain ⟨n, hn, hbefore, hstrategy, hend⟩ := h
  have hat : c.strategy + 1 + n = c.strategy + (n + 1) := by omega
  simp only [hat] at hend
  refine ⟨n + 1, Nat.succ_le_succ hn, fun j hj => ?_, by rw [hstrategy, hat], ?_⟩
  · cases j with
    | zero => exact hnone
    | succ j =>
      have hj := hbefore j (Nat.lt_of_succ_lt_succ hj)
      rwa [Nat.add_right_comm] at hj
  · rcases hend with hkey | ⟨hat, hlast, hthrown⟩
    · exact .inl hkey
    · exact .inr ⟨hat, by rw [hlast], hthrown⟩

/-- A call retries as often as the counter leaves it. -/
theorem execute_spec (hr : c.retries = some retries) (hq : c.retriesCount ≤ retries) (h : Call answers c r c') :
    RetriesUpTo answers (retries - c.retriesCount) c r c' ∧ Counted retries c' := by
  induction hleft : retries - c.retriesCount generalizing c with
  | zero =>
    rcases ha : answers c.strategy with _ | k
    · have hchoose : choices answers c.strategy = (.ok none, c.strategy + 1) := by rw [choices, ha]
      have hstop : ¬ c.retries.any (c.retriesCount < ·) = true := by
        simp only [hr, Option.any_some, decide_eq_true_eq]
        omega
      obtain ⟨rfl, rfl⟩ := Prod.mk.inj ((execute_of_exhausted hchoose hstop).symm.trans h)
      refine ⟨⟨0, le_rfl, fun j hj => absurd hj (Nat.not_lt_zero j), rfl, .inr ⟨ha, rfl, _, rfl⟩⟩, hr, .inr ?_⟩
      show c.retriesCount = retries
      omega
    · have hchoose : choices answers c.strategy = (.ok (some k), c.strategy + 1) := by rw [choices, ha]
      obtain ⟨rfl, rfl⟩ := Prod.mk.inj ((execute_of_some hchoose).symm.trans h)
      exact ⟨⟨0, le_rfl, fun j hj => absurd hj (Nat.not_lt_zero j), rfl, .inl ⟨k, ha, rfl⟩⟩, hr, .inl rfl⟩
  | succ left ih =>
    rcases ha : answers c.strategy with _ | k
    · have hchoose : choices answers c.strategy = (.ok none, c.strategy + 1) := by rw [choices, ha]
      have hretry := (execute_of_retry hchoose hr (by omega)).symm.trans h
      obtain ⟨hspec, hcounted⟩ := ih (c := { c with strategy := c.strategy + 1, retriesCount := c.retriesCount + 1 }) hr
        (by show c.retriesCount + 1 ≤ retries; omega) hretry (by show retries - (c.retriesCount + 1) = left; omega)
      exact ⟨hspec.one_more ha, hcounted⟩
    · have hchoose : choices answers c.strategy = (.ok (some k), c.strategy + 1) := by rw [choices, ha]
      obtain ⟨rfl, rfl⟩ := Prod.mk.inj ((execute_of_some hchoose).symm.trans h)
      exact ⟨⟨0, Nat.zero_le _, fun j hj => absurd hj (Nat.not_lt_zero j), rfl, .inl ⟨k, ha, rfl⟩⟩, hr, .inl rfl⟩

/-- A call has all its attempts if and only if none was used up before, or it needs one only. -/
theorem retriesUpTo_iff (hc : Counted retries c) (h : Call answers c r c') :
    RetriesUpTo answers retries c r c' ↔ HasAllAttempts answers retries c := by
  have hle : c.retriesCount ≤ retries := by
    rcases hc.counter with h0 | hr
    · rw [h0]
      exact Nat.zero_le _
    · exact hr.le
  obtain ⟨hspec, -⟩ := execute_spec hc.option hle h
  rcases hc.counter with h0 | hfull
  · rw [h0, Nat.sub_zero] at hspec
    exact ⟨fun _ => .inl h0, fun _ => hspec⟩
  · rw [hfull, Nat.sub_self] at hspec
    obtain ⟨n, hn, -, hstrategy, hend⟩ := hspec
    obtain rfl : n = 0 := Nat.le_zero.1 hn
    constructor
    · rintro ⟨n', -, -, hstrategy', hend'⟩
      obtain rfl : n' = 0 := by omega
      rcases hend' with ⟨k, hk, -⟩ | ⟨-, hlast, -⟩
      · exact .inr (.inl (by rw [Nat.add_zero] at hk; rw [hk]; rfl))
      · exact .inr (.inr hlast.symm)
    · rintro (h0 | hsome | hzero)
      · have hzero : retries = 0 := hfull.symm.trans h0
        subst hzero
        exact ⟨0, le_rfl, fun j hj => absurd hj (Nat.not_lt_zero j), hstrategy, hend⟩
      · rcases hend with hkey | ⟨hnone, -⟩
        · exact ⟨0, Nat.zero_le _, fun j hj => absurd hj (Nat.not_lt_zero j), hstrategy, .inl hkey⟩
        · rw [Nat.add_zero] at hnone
          rw [hnone] at hsome
          cases hsome
      · subst hzero
        exact ⟨0, le_rfl, fun j hj => absurd hj (Nat.not_lt_zero j), hstrategy, hend⟩

/-- The context before its first call. -/
def initial (retries : Nat) : WorkerChoiceStrategyContext Nat := ⟨0, some retries, 0⟩

/-- All calls of a sequence have all their attempts if and only if none of them comes after one that threw
and needs a second attempt. -/
theorem retries_of_each_call_iff {rs : List (Except JsError Int)} :
    Run (Such (RetriesUpTo answers retries) (Call answers)) (initial retries) rs c ↔
      Run (Guarded (fun c _ => HasAllAttempts answers retries c) (Call answers)) (initial retries) rs c := by
  refine run_such_iff (Counted retries) ⟨rfl, .inl rfl⟩ fun c r c' hc h => ?_
  have hle : c.retriesCount ≤ retries := by
    rcases hc.counter with h0 | hr
    · rw [h0]
      exact Nat.zero_le _
    · exact hr.le
  exact ⟨(execute_spec hc.option hle h).2, (retriesUpTo_iff hc h).symm⟩

/-- With one retry, a call that threw leaves one attempt to the next call, though the strategy would yield a
key at the second one. -/
theorem retries_of_each_call_lost : ¬ ∀ (answers : Nat → Option Int) (retries : Nat) (rs : List (Except JsError Int))
    (c : WorkerChoiceStrategyContext Nat), Run (Call answers) (initial retries) rs c →
      ∀ r c', Call answers c r c' → RetriesUpTo answers retries c r c' := by
  intro hclaim
  let answers : Nat → Option Int := fun i => if i < 3 then none else some 0
  have hthrown : execute (choices answers) (initial 1) =
      (.error (.error "Worker node key chosen is null or undefined after 1 retries"), ⟨2, some 1, 1⟩) := by
    have hfirst : choices answers (initial 1).strategy = (.ok none, 1) := rfl
    have hretries : (initial 1).retries = some 1 := rfl
    rw [execute_of_retry hfirst hretries (by decide)]
    exact execute_of_exhausted rfl (by decide)
  have hrun : Run (Call answers) (initial 1) _ ⟨2, some 1, 1⟩ := .step .nil hthrown
  have hsecond := (retriesUpTo_iff (c := ⟨2, some 1, 1⟩) ⟨rfl, .inr rfl⟩ rfl).1 (hclaim answers 1 _ _ hrun _ _ rfl)
  rcases hsecond with hzero | hsome | hone
  · cases hzero
  · cases hsome
  · cases hone

end Calls

end WorkerChoiceStrategyContext

end Poolifier
