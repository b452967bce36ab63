import Poolifier.Guards
import Mathlib.Tactic.Linarith
import Mathlib.Tactic.Ring
/-!
# The delays of a polling loop

A polling loop of a worker node sleeps between its rounds, twice as long each
time, and the count of its rounds has no cap. A timer takes no delay beyond 31
bits: it fires after a millisecond instead.
-/

namespace Poolifier

open EffLib RunLib LoopedNode

variable {Data : Type}

/-! ## Delays -/

def exponentialDelay (retryNumber : Nat) (delayFactor secureRandom : ℚ) : ℚ :=
  let delay := 2 ^ retryNumber * delayFactor
  let randomSum := delay * (1 / 5) * secureRandom
  delay + randomSum

/-- The default of `exponentialDelay`, in milliseconds. -/
def defaultDelayFactor : ℚ := 100

/-- The greatest delay that a timer takes. -/
def maxTimerDelay : ℚ := 2 ^ 31 - 1

/-- The delay after which `setTimeout` fires. -/
def timerDelay (ms : ℚ) : ℚ := if 1 ≤ ms ∧ ms ≤ maxTimerDelay then ms else 1

/-- A round of a polling loop. It returns what is passed to `sleep`, or nothing if it is the last round. -/
def NodeM.sleepingRound (callback : NodeM Data Unit) (secureRandom : ℚ) : NodeM Data (Option ℚ) := do
  let n ← self
  if n.onEmptyQueueCount > 0 && (n.usage.tasks.executing > 0 || n.tasksQueue.length > 0) then
    Eff.modify fun s => endLoop (update (fun n => { n with onEmptyQueueCount := 0 }) s)
    pure none
  else
    Eff.modify (update fun n => { n with onEmptyQueueCount := n.onEmptyQueueCount + 1, polling := true })
    if n.onEmptyQueue then callback else pure ()
    let n ← self
    pure (some (exponentialDelay n.onEmptyQueueCount defaultDelayFactor secureRandom))

/-- What follows the callback of a round: the node sleeps, unless the callback has thrown. -/
def slept (secureRandom : ℚ) : Except JsError Unit × LoopedNode Data → Except JsError (Option ℚ) × LoopedNode Data
  | (.ok (), s) => (.ok (some (exponentialDelay s.node.onEmptyQueueCount defaultDelayFactor secureRandom)), s)
  | (.error e, s) => (.error e, s)

section Rounds
variable {s s' : LoopedNode Data} {callback : NodeM Data Unit} {secureRandom delay : ℚ}

theorem sleepingRound_last (h : s.lastRound = true) : NodeM.sleepingRound callback secureRandom s =
    some (.ok none, endLoop (update (fun n => { n with onEmptyQueueCount := 0 }) s)) := by
  unfold LoopedNode.lastRound at h
  unfold NodeM.sleepingRound
  rw [self_bind, if_pos h]
  rfl

theorem sleepingRound_quiet (h : s.lastRound = false) (hcb : s.node.onEmptyQueue = false) :
    NodeM.sleepingRound callback secureRandom s = some (slept secureRandom (.ok (), beginRound s)) := by
  unfold LoopedNode.lastRound at h
  unfold NodeM.sleepingRound
  rw [self_bind, if_neg (by rw [h]; exact Bool.false_ne_true), modify_bind,
    if_neg (by rw [hcb]; exact Bool.false_ne_true)]
  rfl

theorem sleepingRound_calls (h : s.lastRound = false) (hcb : s.node.onEmptyQueue = true) :
    NodeM.sleepingRound callback secureRandom s = (callback (beginRound s)).map (slept secureRandom) := by
  unfold LoopedNode.lastRound at h
  unfold NodeM.sleepingRound
  rw [self_bind, if_neg (by rw [h]; exact Bool.false_ne_true), modify_bind, if_pos hcb]
  change Eff.bind callback _ (beginRound s) = _
  unfold Eff.bind
  rcases callback (beginRound s) with _ | ⟨_ | _, s₁⟩ <;> rfl

/-- Up to its sleep it is the round of a loop as `startOnEmptyQueue` has it: an exception ends the loop, and
nothing else does but the last round. -/
theorem sleepingRound_swallow : (do let _ ← NodeM.sleepingRound callback secureRandom : NodeM Data Unit).swallow endLoop s =
    NodeM.startOnEmptyQueueCaught callback s := by
  change Eff.swallow (Eff.bind (NodeM.sleepingRound callback secureRandom) fun _ => Eff.pure ()) endLoop s = _
  unfold Eff.swallow Eff.bind
  rcases hlast : s.lastRound with _ | _
  · rcases hcb : s.node.onEmptyQueue with _ | _
    · rw [sleepingRound_quiet hlast hcb, tick_quiet hlast hcb]
      rfl
    · rw [sleepingRound_calls hlast hcb, tick_calls hlast hcb]
      rcases callback (beginRound s) with _ | ⟨_ | _, s₁⟩ <;> rfl
  · rw [sleepingRound_last hlast, tick_last hlast]
    rfl

/-- A round that sleeps has counted itself, and its callback has returned if it was called. -/
theorem sleepingRound_sleeps (h : NodeM.sleepingRound callback secureRandom s = some (.ok (some delay), s')) :
    (callback (beginRound s) = some (.ok (), s') ∨ s' = beginRound s) ∧
      delay = exponentialDelay s'.node.onEmptyQueueCount defaultDelayFactor secureRandom := by
  rcases hlast : s.lastRound with _ | _
  · rcases hcb : s.node.onEmptyQueue with _ | _
    · rw [sleepingRound_quiet hlast hcb] at h
      cases h
      exact ⟨.inr rfl, rfl⟩
    · rw [sleepingRound_calls hlast hcb] at h
      rcases hrun : callback (beginRound s) with _ | ⟨_ | _, s₁⟩
      · rw [hrun] at h
        cases h
      · rw [hrun] at h
        cases h
      · rw [hrun] at h
        cases h
        exact ⟨.inl rfl, rfl⟩
  · rw [sleepingRound_last hlast] at h
    cases h

end Rounds

/-! ## Idle rounds -/

/-- A round that finds the node idle, with what its callback does, the random number drawn and the delay
passed to `sleep`; and what happens to the node up to the next round. -/
structure IdleRound (Data : Type) where
  callback : Behaviour Data
  secureRandom : ℚ
  delay : ℚ
  meanwhile : Behaviour Data

def IdleRound.Step (s : LoopedNode Data) (round : IdleRound Data) (s' : LoopedNode Data) : Prop :=
  0 ≤ round.secureRandom ∧ round.secureRandom < 1 ∧ ∃ s₁ r,
    NodeM.sleepingRound round.callback.run round.secureRandom s = some (.ok (some round.delay), s₁) ∧
      round.meanwhile.run s₁ = some (r, s')

theorem exponentialDelay_eq (n : Nat) (r : ℚ) : exponentialDelay n defaultDelayFactor r = 2 ^ n * (100 + 20 * r) := by
  unfold exponentialDelay defaultDelayFactor
  ring

theorem exponentialDelay_le_iff {n : Nat} {r : ℚ} (h0 : 0 ≤ r) (h1 : r < 1) :
    exponentialDelay n defaultDelayFactor r ≤ maxTimerDelay ↔ n ≤ 24 := by
  have hpow : (0 : ℚ) < 2 ^ n := pow_pos two_pos n
  rw [exponentialDelay_eq, maxTimerDelay]
  constructor
  · intro hle
    by_contra hlt
    have hpow' : (2 : ℚ) ^ 25 ≤ 2 ^ n := pow_le_pow_right₀ one_le_two (not_le.1 hlt)
    nlinarith
  · intro hle
    have hpow' : (2 : ℚ) ^ n ≤ 2 ^ 24 := pow_le_pow_right₀ one_le_two hle
    nlinarith

theorem one_le_exponentialDelay (n : Nat) {r : ℚ} (h0 : 0 ≤ r) : 1 ≤ exponentialDelay n defaultDelayFactor r := by
  have hpow : (1 : ℚ) ≤ 2 ^ n := one_le_pow₀ one_le_two
  rw [exponentialDelay_eq]
  nlinarith

/-- The timer fires after a millisecond if the delay is too long for it. -/
theorem timerDelay_of_lt {ms : ℚ} (h : maxTimerDelay < ms) : timerDelay ms = 1 := if_neg fun hle => not_lt.2 hle.2 h

theorem timerDelay_exponentialDelay {n : Nat} {r : ℚ} (h0 : 0 ≤ r) (h1 : r < 1) (hn : n ≤ 24) :
    timerDelay (exponentialDelay n defaultDelayFactor r) = exponentialDelay n defaultDelayFactor r :=
  if_pos ⟨one_le_exponentialDelay n h0, (exponentialDelay_le_iff h0 h1).2 hn⟩

section Runs
variable {s₀ s s' : LoopedNode Data} {rounds : List (IdleRound Data)}

/-- What the callback and the time between two rounds do leaves the count as it is. -/
theorem IdleRound.Step.counts {round : IdleRound Data} (h : IdleRound.Step s round s') :
    s'.node.onEmptyQueueCount = s.node.onEmptyQueueCount + 1 ∧
      round.delay = exponentialDelay s'.node.onEmptyQueueCount defaultDelayFactor round.secureRandom := by
  obtain ⟨-, -, s₁, r, hround, hmeanwhile⟩ := h
  obtain ⟨hcallback, hdelay⟩ := sleepingRound_sleeps hround
  have hbegun : 0 < (beginRound s).node.onEmptyQueueCount := Nat.succ_pos _
  have hcount : s₁.node.onEmptyQueueCount = s.node.onEmptyQueueCount + 1 := by
    rcases hcallback with hrun | rfl
    · exact ((Behaviour.persists _ hrun).count hbegun).1
    · rfl
  have hkept := ((Behaviour.persists _ hmeanwhile).count (by omega)).1
  rw [hkept]
  exact ⟨hcount, hdelay⟩

/-- The delay of a round is that of its number. -/
theorem delays_of_run (h : Run IdleRound.Step s₀ rounds s) (h0 : s₀.node.onEmptyQueueCount = 0) :
    s.node.onEmptyQueueCount = rounds.length ∧ ∀ i round, rounds[i]? = some round →
      0 ≤ round.secureRandom ∧ round.secureRandom < 1 ∧
        round.delay = exponentialDelay (i + 1) defaultDelayFactor round.secureRandom := by
  refine h.trace_inv (fun rounds s => s.node.onEmptyQueueCount = rounds.length ∧ ∀ i round, rounds[i]? = some round →
    0 ≤ round.secureRandom ∧ round.secureRandom < 1 ∧
      round.delay = exponentialDelay (i + 1) defaultDelayFactor round.secureRandom) ⟨h0, by simp⟩ ?_
  rintro rounds s round s' ⟨hcount, hdelays⟩ hstep
  obtain ⟨hcount', hdelay⟩ := hstep.counts
  rw [hcount] at hcount'
  refine ⟨by rw [hcount', List.length_append, List.length_singleton], fun i round' hround' => ?_⟩
  rcases Nat.lt_or_ge i rounds.length with hlt | hle
  · rw [List.getElem?_append_left hlt] at hround'
    exact hdelays i round' hround'
  · rw [List.getElem?_append_right hle, List.getElem?_singleton] at hround'
    obtain ⟨hi, hround'⟩ := Option.ite_none_right_eq_some.1 hround'
    obtain rfl := Option.some.inj hround'
    have hi' : i = rounds.length := by omega
    rw [hi', ← hcount']
    exact ⟨hstep.1, hstep.2.1, hdelay⟩

end Runs

/-! ## A node that stays idle -/

/-- A new node whose loop has started; it has no callback. -/
def idleNode (rounds : Nat) : LoopedNode Unit :=
  ⟨{ WorkerNode.new 0 .thread 1 with onEmptyQueueCount := rounds, polling := 0 < rounds }, 1⟩

def idleRound (n : Nat) : IdleRound Unit := ⟨.ret, 1 / 2, exponentialDelay (n + 1) defaultDelayFactor (1 / 2), .ret⟩

theorem idleRound_step (n : Nat) : IdleRound.Step (idleNode n) (idleRound n) (idleNode (n + 1)) := by
  have hround : NodeM.sleepingRound (idleRound n).callback.run (1 / 2) (idleNode n) =
      some (slept (1 / 2) (.ok (), beginRound (idleNode n))) :=
    sleepingRound_quiet (by simp [lastRound, idleNode, WorkerNode.new, WorkerUsage.init]) rfl
  have hbegun : beginRound (idleNode n) = idleNode (n + 1) := by simp [beginRound, idleNode, update]
  rw [hbegun] at hround
  have hhalf : (0 : ℚ) ≤ 1 / 2 ∧ (1 / 2 : ℚ) < 1 := by decide +kernel
  exact ⟨hhalf.1, hhalf.2, idleNode (n + 1), .ok (), hround, rfl⟩

theorem idle_run (n : Nat) : Run IdleRound.Step (idleNode 0) ((List.range n).map idleRound) (idleNode n) := by
  induction n with
  | zero => exact .nil
  | succ n ih =>
    rw [List.range_succ, List.map_append]
    exact .step ih (idleRound_step n)

/-! ## Delays that a timer takes -/

/-- From the 25th round on the delay is too long for a timer, whatever the random numbers. -/
theorem delays_within_iff {s₀ s : LoopedNode Data} {rounds : List (IdleRound Data)}
    (h : Run IdleRound.Step s₀ rounds s) (h0 : s₀.node.onEmptyQueueCount = 0) :
    (∀ round ∈ rounds, round.delay ≤ maxTimerDelay ∧ timerDelay round.delay = round.delay) ↔
      rounds.length ≤ 24 := by
  obtain ⟨-, hdelays⟩ := delays_of_run h h0
  constructor
  · intro hall
    by_contra hlt
    have hlen : 24 < rounds.length := not_le.1 hlt
    obtain ⟨hr0, hr1, hdelay⟩ := hdelays 24 _ (List.getElem?_eq_getElem hlen)
    have hle := (hall _ (List.getElem_mem hlen)).1
    rw [hdelay, exponentialDelay_le_iff hr0 hr1] at hle
    exact absurd hle (by decide)
  · intro hle round hround
    obtain ⟨i, hi⟩ := List.mem_iff_getElem?.1 hround
    obtain ⟨hr0, hr1, hdelay⟩ := hdelays i round hi
    have hlt := (List.getElem?_eq_some_iff.1 hi).1
    rw [hdelay, exponentialDelay_le_iff hr0 hr1]
    exact ⟨by omega, timerDelay_exponentialDelay hr0 hr1 (by omega)⟩

theorem delays_within_two : (220 : ℚ) ≤ maxTimerDelay ∧ timerDelay 220 = 220 := by
  have hmem : idleRound 0 ∈ (List.range 2).map idleRound := List.mem_map_of_mem (List.mem_range.2 (by decide))
  have hdelay : (idleRound 0).delay = 220 := by decide +kernel
  have hfirst := (delays_within_iff (idle_run 2) rfl).2 (by decide) _ hmem
  rwa [hdelay] at hfirst

theorem twenty_fifth_round : ¬ ∀ (s₀ s : LoopedNode Unit) (rounds : List (IdleRound Unit)),
    Run IdleRound.Step s₀ rounds s → s₀.node.onEmptyQueueCount = 0 →
    ∀ round ∈ rounds, round.delay ≤ maxTimerDelay ∧ timerDelay round.delay = round.delay := by
  intro h
  have hmem : idleRound 24 ∈ (List.range 25).map idleRound := List.mem_map_of_mem (List.mem_range.2 (by decide))
  have hle := (h _ _ _ (idle_run 25) rfl _ hmem).1
  rw [idleRound, exponentialDelay_le_iff (by decide +kernel) (by decide +kernel)] at hle
  exact absurd hle (by decide)

end Poolifier
