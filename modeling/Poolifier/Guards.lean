import Poolifier.Lib.Runs
import Poolifier.Lib.Simulation
import Poolifier.Moves
/-!
# The guards of task stealing

A worker node on its own, with callbacks that do whatever they like: call the
node's methods again, change it in other ways, catch what they throw, return or
throw. `onBackPressureStarted` keeps the back pressure callback from being
called while it runs; `onEmptyQueueCount` keeps a second polling loop from being
started. Both are reset by code that an exception of a callback skips.
-/

namespace Poolifier

open EffLib RunLib

/-- A worker node, and how many of its polling loops are alive. -/
structure LoopedNode (Data : Type) where
  node : WorkerNode Data
  loops : Nat

abbrev NodeM (Data α : Type) := Eff (LoopedNode Data) JsError α

variable {Data Response : Type}

namespace LoopedNode

def update (f : WorkerNode Data → WorkerNode Data) (s : LoopedNode Data) : LoopedNode Data := { s with node := f s.node }

/-- A loop has ended or thrown. -/
def endLoop (s : LoopedNode Data) : LoopedNode Data :=
  { node := { s.node with polling := false }, loops := s.loops - 1 }

end LoopedNode

open LoopedNode

/-! ## The methods of a worker node -/

namespace NodeM

def self : NodeM Data (WorkerNode Data) := fun s => some (.ok s.node, s)

/-- The conditional at the end of `enqueueTask` and `unshiftTask`. -/
def callOnBackPressure (callback : NodeM Data Unit) : NodeM Data Unit := do
  let n ← self
  if n.onBackPressure && n.hasBackPressure && !n.onBackPressureStarted then
    Eff.modify (update fun n => { n with onBackPressureStarted := true })
    callback
    Eff.modify (update fun n => { n with onBackPressureStarted := false })
  else
    pure ()

def enqueueTask (callback : NodeM Data Unit) (task : Task Data) : NodeM Data Unit := do
  Eff.modify (update fun n => { n with tasksQueue := n.tasksQueue ++ [task] })
  callOnBackPressure callback

/-- Adds a task at the front. -/
def unshiftTask (callback : NodeM Data Unit) (task : Task Data) : NodeM Data Unit := do
  Eff.modify (update fun n => { n with tasksQueue := task :: n.tasksQueue })
  callOnBackPressure callback

/-- One round of a polling loop, up to its `sleep`. -/
def startOnEmptyQueue (callback : NodeM Data Unit) : NodeM Data Unit := do
  let n ← self
  if n.onEmptyQueueCount > 0 && (n.usage.tasks.executing > 0 || n.tasksQueue.length > 0) then
    Eff.modify fun s => endLoop (update (fun n => { n with onEmptyQueueCount := 0 }) s)
  else
    Eff.modify (update fun n => { n with onEmptyQueueCount := n.onEmptyQueueCount + 1, polling := true })
    if n.onEmptyQueue then callback else pure ()

/-- An exception ends the loop and nothing else. -/
def startOnEmptyQueueCaught (callback : NodeM Data Unit) : NodeM Data Unit := (startOnEmptyQueue callback).swallow endLoop

/-- The conditional at the end of `dequeueTask` and `popTask`. -/
def afterTaken (callback : NodeM Data Unit) : NodeM Data Unit := do
  let n ← self
  if n.onEmptyQueue && n.tasksQueue.length = 0 && n.onEmptyQueueCount = 0 then
    Eff.modify fun s => { s with loops := s.loops + 1 }
    startOnEmptyQueueCaught callback
  else
    pure ()

def dequeueTask (callback : NodeM Data Unit) : NodeM Data (Option (Task Data)) := do
  let n ← self
  Eff.modify (update fun n => { n with tasksQueue := n.tasksQueue.tail })
  afterTaken callback
  pure n.tasksQueue.head?

def popTask (callback : NodeM Data Unit) : NodeM Data (Option (Task Data)) := do
  let n ← self
  Eff.modify (update fun n => { n with tasksQueue := n.tasksQueue.dropLast })
  afterTaken callback
  pure n.tasksQueue.getLast?

end NodeM

/-! ## What callbacks do -/

/-- A call of a method of the node. -/
inductive Operation (Data : Type)
  | enqueueTask (task : Task Data)
  | unshiftTask (task : Task Data)
  | dequeueTask
  | popTask

/-- What a callback does, one thing after the other, up to its end. -/
inductive Behaviour (Data : Type)
  | ret
  | throw (e : JsError)
  /-- The node becomes `n`, but for its guards and its loop. -/
  | change (n : WorkerNode Data) (next : Behaviour Data)
  /-- A method is called; if it calls its callback, that does `inner`. What follows may depend on whether the method
  throws: an exception is caught, or thrown on. -/
  | call (operation : Operation Data) (inner : Behaviour Data) (next : Bool → Behaviour Data)

/-- Everything but the guards and the loop is that of `m`. -/
def WorkerNode.adopt (m n : WorkerNode Data) : WorkerNode Data :=
  { m with
    onBackPressureStarted := n.onBackPressureStarted
    onEmptyQueueCount := n.onEmptyQueueCount
    polling := n.polling }

/-- How the methods of a node run in some state. -/
structure Methods (Data σ : Type) where
  perform : Operation Data → Eff σ JsError Unit → Eff σ JsError Unit
  change : WorkerNode Data → σ → σ

def Behaviour.runWith {σ : Type} (methods : Methods Data σ) : Behaviour Data → Eff σ JsError Unit
  | .ret => pure ()
  | .throw e => Eff.throw e
  | .change n next => do
    Eff.modify (methods.change n)
    next.runWith methods
  | .call operation inner next => do
    let threw ← (methods.perform operation (inner.runWith methods)).attempt
    (next threw).runWith methods

def Operation.perform (callback : NodeM Data Unit) : Operation Data → NodeM Data Unit
  | .enqueueTask task => NodeM.enqueueTask callback task
  | .unshiftTask task => NodeM.unshiftTask callback task
  | .dequeueTask => do let _ ← NodeM.dequeueTask callback
  | .popTask => do let _ ← NodeM.popTask callback

def nodeMethods : Methods Data (LoopedNode Data) :=
  ⟨fun operation callback => operation.perform callback, fun m => update m.adopt⟩

/-- What the behaviour does to the node. -/
def Behaviour.run (b : Behaviour Data) : NodeM Data Unit := b.runWith nodeMethods

/-! ## When a method calls its callback -/

/-- The call of the back pressure callback is over. -/
def pushBack : Except JsError Unit × LoopedNode Data → Except JsError Unit × LoopedNode Data
  | (.ok (), s) => (.ok (), update (fun n => { n with onBackPressureStarted := false }) s)
  | (.error e, s) => (.error e, s)

/-- The call of the empty queue callback is over. -/
def pollBack : Except JsError Unit × LoopedNode Data → Except JsError Unit × LoopedNode Data
  | (.ok (), s) => (.ok (), s)
  | (.error _, s) => (.ok (), endLoop s)

namespace LoopedNode

/-- The state in which the back pressure callback is called, if it is. -/
def callsOnBackPressure (s : LoopedNode Data) : Option (LoopedNode Data) :=
  if s.node.onBackPressure && s.node.hasBackPressure && !s.node.onBackPressureStarted then
    some (update (fun n => { n with onBackPressureStarted := true }) s)
  else none

/-- A round of the loop has begun. -/
def beginRound (s : LoopedNode Data) : LoopedNode Data :=
  update (fun n => { n with onEmptyQueueCount := n.onEmptyQueueCount + 1, polling := true }) s

/-- The state in which a method that has taken a task calls the empty queue callback, if it does. -/
def callsOnEmptyQueue (s : LoopedNode Data) : Option (LoopedNode Data) :=
  if s.node.onEmptyQueue && s.node.tasksQueue.length = 0 && s.node.onEmptyQueueCount = 0 then
    some (beginRound { s with loops := s.loops + 1 })
  else none

/-- Whether the round of a loop is its last one. -/
def lastRound (s : LoopedNode Data) : Bool :=
  s.node.onEmptyQueueCount > 0 && (s.node.usage.tasks.executing > 0 || s.node.tasksQueue.length > 0)

end LoopedNode

namespace Operation

/-- What the method does to the queue. -/
def move : Operation Data → LoopedNode Data → LoopedNode Data
  | .enqueueTask task => update fun n => { n with tasksQueue := n.tasksQueue ++ [task] }
  | .unshiftTask task => update fun n => { n with tasksQueue := task :: n.tasksQueue }
  | .dequeueTask => update fun n => { n with tasksQueue := n.tasksQueue.tail }
  | .popTask => update fun n => { n with tasksQueue := n.tasksQueue.dropLast }

def calls : Operation Data → LoopedNode Data → Option (LoopedNode Data)
  | .enqueueTask _ | .unshiftTask _ => callsOnBackPressure
  | .dequeueTask | .popTask => callsOnEmptyQueue

def back : Operation Data → Except JsError Unit × LoopedNode Data → Except JsError Unit × LoopedNode Data
  | .enqueueTask _ | .unshiftTask _ => pushBack
  | .dequeueTask | .popTask => pollBack

end Operation

section Methods
variable {s s' : LoopedNode Data} {callback : NodeM Data Unit} {r : Except JsError Unit}

theorem self_bind {α : Type} (f : WorkerNode Data → NodeM Data α) : (NodeM.self >>= f) s = f s.node s := rfl

theorem callOnBackPressure_none (h : s.callsOnBackPressure = none) :
    NodeM.callOnBackPressure callback s = some (.ok (), s) := by
  unfold LoopedNode.callsOnBackPressure at h
  unfold NodeM.callOnBackPressure
  rw [self_bind]
  split at h
  · cases h
  · rename_i hc
    rw [if_neg hc]
    rfl

theorem callOnBackPressure_some (h : s.callsOnBackPressure = some s') :
    NodeM.callOnBackPressure callback s = (callback s').map pushBack := by
  unfold LoopedNode.callsOnBackPressure at h
  unfold NodeM.callOnBackPressure
  rw [self_bind]
  split at h
  · rename_i hc
    rw [if_pos hc, modify_bind, Option.some.inj h]
    show Eff.bind callback _ s' = _
    unfold Eff.bind
    rcases callback s' with _ | ⟨_ | _, s₁⟩ <;> rfl
  · cases h

theorem afterTaken_none (h : s.callsOnEmptyQueue = none) : NodeM.afterTaken callback s = some (.ok (), s) := by
  unfold LoopedNode.callsOnEmptyQueue at h
  unfold NodeM.afterTaken
  rw [self_bind]
  split at h
  · cases h
  · rename_i hc
    rw [if_neg hc]
    rfl

/-- A round of a loop that comes to running `m`: an exception ends the loop. -/
theorem startOnEmptyQueueCaught_eq {m : NodeM Data Unit} (h : NodeM.startOnEmptyQueue callback s = m s') :
    NodeM.startOnEmptyQueueCaught callback s = (m s').map pollBack := by
  unfold NodeM.startOnEmptyQueueCaught Eff.swallow
  rw [h]
  rcases m s' with _ | ⟨_ | _, s₁⟩ <;> rfl

/-- The first round of a new loop calls back, as the count is zero. -/
theorem afterTaken_some (h : s.callsOnEmptyQueue = some s') : NodeM.afterTaken callback s = (callback s').map pollBack := by
  unfold LoopedNode.callsOnEmptyQueue at h
  unfold NodeM.afterTaken
  rw [self_bind]
  split at h
  · rename_i hc
    have hc' := hc
    simp only [Bool.and_eq_true, decide_eq_true_eq] at hc'
    have hround : NodeM.startOnEmptyQueue callback { s with loops := s.loops + 1 } = callback s' := by
      unfold NodeM.startOnEmptyQueue
      rw [self_bind, if_neg (by simp [hc'.2]), modify_bind, if_pos hc'.1.1, ← Option.some.inj h]
      rfl
    rw [if_pos hc, modify_bind]
    exact startOnEmptyQueueCaught_eq hround
  · cases h

/-- What a method returns does not matter for the node. -/
theorem discard_eq {α : Type} (m : NodeM Data Unit) (a : α) :
    (do let _ ← (do m; pure a : NodeM Data α) : NodeM Data Unit) s = m s := by
  show Eff.bind (Eff.bind m fun _ => Eff.pure a) (fun _ => Eff.pure ()) s = _
  unfold Eff.bind
  rcases m s with _ | ⟨_ | _, s₁⟩ <;> rfl

theorem perform_none {operation : Operation Data} (h : operation.calls (operation.move s) = none) :
    operation.perform callback s = some (.ok (), operation.move s) := by
  cases operation with
  | enqueueTask t => exact callOnBackPressure_none h
  | unshiftTask t => exact callOnBackPressure_none h
  | dequeueTask => exact (discard_eq (NodeM.afterTaken callback) _).trans (afterTaken_none h)
  | popTask => exact (discard_eq (NodeM.afterTaken callback) _).trans (afterTaken_none h)

theorem perform_some {operation : Operation Data} (h : operation.calls (operation.move s) = some s') :
    operation.perform callback s = (callback s').map operation.back := by
  cases operation with
  | enqueueTask t => exact callOnBackPressure_some h
  | unshiftTask t => exact callOnBackPressure_some h
  | dequeueTask => exact (discard_eq (NodeM.afterTaken callback) _).trans (afterTaken_some h)
  | popTask => exact (discard_eq (NodeM.afterTaken callback) _).trans (afterTaken_some h)

theorem tick_last (h : s.lastRound = true) : NodeM.startOnEmptyQueueCaught callback s =
    some (.ok (), endLoop (update (fun n => { n with onEmptyQueueCount := 0 }) s)) := by
  have hround : NodeM.startOnEmptyQueue callback s =
      (pure () : NodeM Data Unit) (endLoop (update (fun n => { n with onEmptyQueueCount := 0 }) s)) := by
    unfold LoopedNode.lastRound at h
    unfold NodeM.startOnEmptyQueue
    rw [self_bind, if_pos h]
    rfl
  exact startOnEmptyQueueCaught_eq hround

theorem tick_calls (h : s.lastRound = false) (hcb : s.node.onEmptyQueue = true) :
    NodeM.startOnEmptyQueueCaught callback s = (callback (beginRound s)).map pollBack := by
  have hround : NodeM.startOnEmptyQueue callback s = callback (beginRound s) := by
    unfold LoopedNode.lastRound at h
    unfold NodeM.startOnEmptyQueue
    rw [self_bind, if_neg (by rw [h]; exact Bool.false_ne_true), modify_bind, if_pos hcb]
    rfl
  exact startOnEmptyQueueCaught_eq hround

theorem tick_quiet (h : s.lastRound = false) (hcb : s.node.onEmptyQueue = false) :
    NodeM.startOnEmptyQueueCaught callback s = some (.ok (), beginRound s) := by
  have hround : NodeM.startOnEmptyQueue callback s = (pure () : NodeM Data Unit) (beginRound s) := by
    unfold LoopedNode.lastRound at h
    unfold NodeM.startOnEmptyQueue
    rw [self_bind, if_neg (by rw [h]; exact Bool.false_ne_true), modify_bind, if_neg (by rw [hcb]; exact Bool.false_ne_true)]
    rfl
  exact startOnEmptyQueueCaught_eq hround

end Methods

/-! ## Callbacks that throw -/

/-- The behaviour, in the state `s`, comes to its end without an exception. -/
def Behaviour.Returns (b : Behaviour Data) (s : LoopedNode Data) : Prop := ∃ s', b.run s = some (.ok (), s')

/-- No callback that is called while the behaviour runs in the state `s` throws. -/
def Behaviour.Calm : Behaviour Data → LoopedNode Data → Prop
  | .ret, _ => True
  | .throw _, _ => True
  | .change m next, s => next.Calm (update m.adopt s)
  | .call operation inner next, s =>
    (∀ s₁ ∈ operation.calls (operation.move s), inner.Calm s₁ ∧ inner.Returns s₁) ∧
      ∀ threw s', (operation.perform inner.run).attempt s = some (.ok threw, s') → (next threw).Calm s'

/-- No callback that is called during the call of the method throws. -/
def Operation.Calm (operation : Operation Data) (callback : Behaviour Data) (s : LoopedNode Data) : Prop :=
  ∀ s₁ ∈ operation.calls (operation.move s), callback.Calm s₁ ∧ callback.Returns s₁

/-- No callback that is called during the tick throws. -/
def TickCalm (callback : Behaviour Data) (s : LoopedNode Data) : Prop :=
  s.lastRound = false → s.node.onEmptyQueue = true → callback.Calm (beginRound s) ∧ callback.Returns (beginRound s)

/-- The guards are as they should be; `started` says whether a call of the back pressure callback is under way. -/
structure GuardsSound (started : Bool) (s : LoopedNode Data) : Prop where
  onBackPressureStarted : s.node.onBackPressureStarted = started
  counted : 0 < s.node.onEmptyQueueCount ↔ 0 < s.loops
  single : s.loops ≤ 1

/-- A guard is set, and what it guards is over. -/
def Stuck (started : Bool) (s : LoopedNode Data) : Prop :=
  started = false ∧ s.node.onBackPressureStarted = true ∨ 0 < s.node.onEmptyQueueCount ∧ s.loops = 0

theorem Stuck.not_sound {started : Bool} {s : LoopedNode Data} (h : Stuck started s) : ¬ GuardsSound started s := by
  intro hs
  rcases h with ⟨rfl, hstarted⟩ | ⟨hcount, hloops⟩
  · rw [hs.onBackPressureStarted] at hstarted
    cases hstarted
  · have := hs.counted.1 hcount
    omega

/-- From `s` to `s'` a call of the back pressure callback that is under way goes on, and so does the loop. -/
structure Persists (s s' : LoopedNode Data) : Prop where
  started : s.node.onBackPressureStarted = true → s'.node.onBackPressureStarted = true
  count : 0 < s.node.onEmptyQueueCount → s'.node.onEmptyQueueCount = s.node.onEmptyQueueCount ∧ s'.loops = s.loops

theorem Persists.refl (s : LoopedNode Data) : Persists s s := ⟨id, fun _ => ⟨rfl, rfl⟩⟩

theorem Persists.trans {s s' s'' : LoopedNode Data} (h : Persists s s') (h' : Persists s' s'') : Persists s s'' where
  started hs := h'.started (h.started hs)
  count hc := by
    obtain ⟨hcount, hloops⟩ := h.count hc
    obtain ⟨hcount', hloops'⟩ := h'.count (by rwa [hcount])
    exact ⟨hcount'.trans hcount, hloops'.trans hloops⟩

theorem Stuck.persists {started : Bool} {s s' : LoopedNode Data} (h : Stuck started s) (hp : Persists s s') :
    Stuck started s' := by
  rcases h with ⟨hfalse, hstarted⟩ | ⟨hcount, hloops⟩
  · exact .inl ⟨hfalse, hp.started hstarted⟩
  · obtain ⟨hcount', hloops'⟩ := hp.count hcount
    exact .inr ⟨by omega, by omega⟩

section Callbacks
variable {s s' s₁ : LoopedNode Data} {operation : Operation Data} {r : Except JsError Unit}

/-- A method moves a task, and leaves the guards alone. -/
theorem persists_move (operation : Operation Data) (s : LoopedNode Data) : Persists s (operation.move s) := by
  cases operation <;> exact ⟨id, fun _ => ⟨rfl, rfl⟩⟩

theorem sound_move (operation : Operation Data) {started : Bool} (h : GuardsSound started s) :
    GuardsSound started (operation.move s) := by
  cases operation <;> exact ⟨h.onBackPressureStarted, h.counted, h.single⟩

/-- The back pressure callback is called only if no call of it is under way. -/
theorem of_callsOnBackPressure (h : s.callsOnBackPressure = some s₁) : s.node.onBackPressureStarted = false ∧
    s₁ = update (fun n => { n with onBackPressureStarted := true }) s := by
  unfold LoopedNode.callsOnBackPressure at h
  split at h
  · rename_i hc
    simp only [Bool.and_eq_true, Bool.not_eq_true'] at hc
    exact ⟨hc.2, (Option.some.inj h).symm⟩
  · cases h

/-- A method starts a loop only if the count is zero. -/
theorem of_callsOnEmptyQueue (h : s.callsOnEmptyQueue = some s₁) : s.node.onEmptyQueueCount = 0 ∧
    s₁ = beginRound { s with loops := s.loops + 1 } := by
  unfold LoopedNode.callsOnEmptyQueue at h
  split at h
  · rename_i hc
    simp only [Bool.and_eq_true, decide_eq_true_eq] at hc
    exact ⟨hc.2, (Option.some.inj h).symm⟩
  · cases h

/-- What a method makes of a callback that leaves what is under way alone. -/
theorem persists_back (hcalls : operation.calls s = some s₁) (hp : Persists s₁ s') :
    Persists s (operation.back (r, s')).2 := by
  have hpush (h : s.callsOnBackPressure = some s₁) : Persists s (pushBack (r, s')).2 := by
    obtain ⟨hfree, rfl⟩ := of_callsOnBackPressure h
    have hcount := hp.count
    rcases r with e | _
    · exact ⟨fun hs => by simp [hs] at hfree, hcount⟩
    · exact ⟨fun hs => by simp [hs] at hfree, hcount⟩
  have hpoll (h : s.callsOnEmptyQueue = some s₁) : Persists s (pollBack (r, s')).2 := by
    obtain ⟨hzero, rfl⟩ := of_callsOnEmptyQueue h
    rcases r with e | _
    · exact ⟨fun hs => hp.started hs, fun hcount => by omega⟩
    · exact ⟨fun hs => hp.started hs, fun hcount => by omega⟩
  cases operation with
  | enqueueTask t => exact hpush hcalls
  | unshiftTask t => exact hpush hcalls
  | dequeueTask => exact hpoll hcalls
  | popTask => exact hpoll hcalls

/-- How the call of a method ends. -/
theorem perform_cases {callback : NodeM Data Unit} (h : operation.perform callback s = some (r, s')) :
    operation.calls (operation.move s) = none ∧ s' = operation.move s ∨
      ∃ s₁ r₁ s₂, operation.calls (operation.move s) = some s₁ ∧ callback s₁ = some (r₁, s₂) ∧
        s' = (operation.back (r₁, s₂)).2 := by
  rcases hcalls : operation.calls (operation.move s) with _ | s₁
  · rw [perform_none hcalls] at h
    cases h
    exact .inl ⟨rfl, rfl⟩
  · rw [perform_some hcalls, Option.map_eq_some_iff] at h
    obtain ⟨⟨r₁, s₂⟩, hrun, hback⟩ := h
    exact .inr ⟨s₁, r₁, s₂, rfl, hrun, by rw [hback]⟩

/-- How a round of a loop ends: it is the last one, or calls back if there is a callback. -/
theorem round_cases {callback : NodeM Data Unit} (h : NodeM.startOnEmptyQueueCaught callback s = some (r, s')) :
    s.lastRound = true ∧ s' = endLoop (update (fun n => { n with onEmptyQueueCount := 0 }) s) ∨
      s.node.onEmptyQueue = false ∧ s' = beginRound s ∨
      s.lastRound = false ∧ s.node.onEmptyQueue = true ∧
        ∃ r₁ s₁, callback (beginRound s) = some (r₁, s₁) ∧ s' = (pollBack (r₁, s₁)).2 := by
  rcases hlast : s.lastRound with _ | _
  · rcases hcb : s.node.onEmptyQueue with _ | _
    · rw [tick_quiet hlast hcb] at h
      cases h
      exact .inr (.inl ⟨rfl, rfl⟩)
    · rw [tick_calls hlast hcb, Option.map_eq_some_iff] at h
      obtain ⟨⟨r₁, s₁⟩, hrun, hback⟩ := h
      exact .inr (.inr ⟨rfl, rfl, r₁, s₁, hrun, by rw [hback]⟩)
  · rw [tick_last hlast] at h
    cases h
    exact .inl ⟨rfl, rfl⟩

/-- A behaviour that calls a method first. -/
theorem run_call {inner : Behaviour Data} {next : Bool → Behaviour Data}
    (h : (Behaviour.call operation inner next).run s = some (r, s')) : ∃ threw r₁ s₁,
      (operation.perform inner.run).attempt s = some (.ok threw, s₁) ∧ operation.perform inner.run s = some (r₁, s₁) ∧
        (next threw).run s₁ = some (r, s') := by
  change Eff.bind (operation.perform inner.run).attempt (fun threw => (next threw).run) s = some (r, s') at h
  unfold Eff.bind at h
  rcases hattempt : (operation.perform inner.run).attempt s with _ | ⟨r₂, s₁⟩
  · rw [hattempt] at h
    cases h
  · obtain ⟨r₁, hperform, threw, rfl⟩ := attempt_eq_some hattempt
    rw [hattempt] at h
    exact ⟨threw, r₁, s₁, rfl, hperform, h⟩

/-- What is under way on a node when a callback is called is so when it ends. -/
theorem Behaviour.persists (b : Behaviour Data) : ∀ {s r s'}, b.run s = some (r, s') → Persists s s' := by
  induction b with
  | ret =>
    intro s r s' h
    cases h
    exact .refl s
  | throw e =>
    intro s r s' h
    cases h
    exact .refl s
  | change m next ih =>
    intro s r s' h
    have hchange : Persists s (update m.adopt s) := ⟨id, fun _ => ⟨rfl, rfl⟩⟩
    exact hchange.trans (ih h)
  | call operation inner next ihInner ihNext =>
    intro s r s' h
    obtain ⟨threw, r₁, s₁, -, hperform, hnext⟩ := run_call h
    have hmethod : Persists s s₁ := by
      obtain ⟨-, rfl⟩ | ⟨s₂, r₂, s₃, hcalls, hrun, rfl⟩ := perform_cases hperform
      · exact persists_move operation s
      · exact (persists_move operation s).trans (persists_back hcalls (ihInner hrun))
    exact hmethod.trans (ihNext threw hnext)

/-- The back pressure callback has been called from a node with sound guards: the flag is reset, unless the callback
has thrown. -/
theorem pushBack_cases {calm : Prop} {s₂ : LoopedNode Data} (hstarted : s₁.node.onBackPressureStarted = true)
    (hp : Persists s₁ s₂) (h : calm ∧ GuardsSound true s₂ ∨ ¬ calm ∧ Stuck true s₂) :
    (calm ∧ r = .ok ()) ∧ GuardsSound false (pushBack (r, s₂)).2 ∨
      ¬ (calm ∧ r = .ok ()) ∧ Stuck false (pushBack (r, s₂)).2 := by
  cases r with
  | error e => exact .inr ⟨fun hc => (by cases hc.2), .inl ⟨rfl, hp.started hstarted⟩⟩
  | ok a =>
    rcases h with ⟨hcalm, hs⟩ | ⟨hnot, hs⟩
    · exact .inl ⟨⟨hcalm, rfl⟩, rfl, hs.counted, hs.single⟩
    · exact .inr ⟨fun hc => hnot hc.1, .inr (hs.resolve_left fun hf => (by cases hf.1))⟩

/-- The empty queue callback has been called from a round of a loop: the loop goes on, unless the callback has
thrown. -/
theorem pollBack_cases {calm : Prop} {started : Bool} {s₂ : LoopedNode Data} (hcount : 0 < s₁.node.onEmptyQueueCount)
    (hsingle : s₁.loops ≤ 1) (hp : Persists s₁ s₂)
    (h : calm ∧ GuardsSound started s₂ ∨ ¬ calm ∧ Stuck started s₂) :
    (calm ∧ r = .ok ()) ∧ GuardsSound started (pollBack (r, s₂)).2 ∨
      ¬ (calm ∧ r = .ok ()) ∧ Stuck started (pollBack (r, s₂)).2 := by
  obtain ⟨hcount', hloops'⟩ := hp.count hcount
  cases r with
  | error e =>
    refine .inr ⟨fun hc => (by cases hc.2), .inr ⟨?_, ?_⟩⟩
    · show 0 < s₂.node.onEmptyQueueCount
      omega
    · show s₂.loops - 1 = 0
      omega
  | ok a =>
    rcases h with ⟨hcalm, hs⟩ | ⟨hnot, hs⟩
    · exact .inl ⟨⟨hcalm, rfl⟩, hs⟩
    · exact .inr ⟨fun hc => hnot hc.1, hs⟩

/-- The state a method calls back from has sound guards too. -/
theorem calls_cases {started : Bool} (hs : GuardsSound started s) (hcalls : operation.calls s = some s₁) :
    operation.back = pushBack ∧ started = false ∧ s₁.node.onBackPressureStarted = true ∧ GuardsSound true s₁ ∨
      operation.back = pollBack ∧ 0 < s₁.node.onEmptyQueueCount ∧ GuardsSound started s₁ := by
  have hpush (h : s.callsOnBackPressure = some s₁) :
      started = false ∧ s₁.node.onBackPressureStarted = true ∧ GuardsSound true s₁ := by
    obtain ⟨hfree, rfl⟩ := of_callsOnBackPressure h
    exact ⟨hs.onBackPressureStarted.symm.trans hfree, rfl, rfl, hs.counted, hs.single⟩
  have hpoll (h : s.callsOnEmptyQueue = some s₁) : 0 < s₁.node.onEmptyQueueCount ∧ GuardsSound started s₁ := by
    obtain ⟨hzero, rfl⟩ := of_callsOnEmptyQueue h
    -- the count is zero, so no loop is alive
    have hnone : s.loops = 0 := by
      have hcounted := hs.counted
      omega
    refine ⟨Nat.succ_pos _, hs.onBackPressureStarted, ?_, ?_⟩
    · exact ⟨fun _ => Nat.succ_pos _, fun _ => Nat.succ_pos _⟩
    · show s.loops + 1 ≤ 1
      omega
  cases operation with
  | enqueueTask t => exact .inl ⟨rfl, hpush hcalls⟩
  | unshiftTask t => exact .inl ⟨rfl, hpush hcalls⟩
  | dequeueTask => exact .inr ⟨rfl, hpoll hcalls⟩
  | popTask => exact .inr ⟨rfl, hpoll hcalls⟩

/-- Whether the behaviour returns is seen from how it runs. -/
theorem returns_iff {b : Behaviour Data} (h : b.run s = some (r, s')) : b.Returns s ↔ r = .ok () := by
  constructor
  · rintro ⟨s₂, hs₂⟩
    rw [h] at hs₂
    cases hs₂
    rfl
  · rintro rfl
    exact ⟨s', h⟩

theorem calm_of_called {b : Behaviour Data} (hcalls : operation.calls (operation.move s) = some s₁)
    (h : b.run s₁ = some (r, s')) : operation.Calm b s ↔ b.Calm s₁ ∧ r = .ok () := by
  unfold Operation.Calm
  rw [hcalls, ← returns_iff h]
  simp

/-- A method leaves the guards sound if and only if no callback throws. -/
theorem method_cases {callback : Behaviour Data} {started : Bool} (hs : GuardsSound started s)
    (ih : ∀ {started s r s'}, GuardsSound started s → callback.run s = some (r, s') →
      callback.Calm s ∧ GuardsSound started s' ∨ ¬ callback.Calm s ∧ Stuck started s')
    (h : operation.perform callback.run s = some (r, s')) :
    operation.Calm callback s ∧ GuardsSound started s' ∨ ¬ operation.Calm callback s ∧ Stuck started s' := by
  obtain ⟨hnone, rfl⟩ | ⟨s₂, r₂, s₃, hcalls, hrun, rfl⟩ := perform_cases h
  · refine .inl ⟨fun s₂ hs₂ => ?_, sound_move operation hs⟩
    rw [hnone] at hs₂
    cases hs₂
  · rw [calm_of_called hcalls hrun]
    have hp := callback.persists hrun
    obtain ⟨hback, rfl, hstarted, hs₂⟩ | ⟨hback, hcount, hs₂⟩ := calls_cases (sound_move operation hs) hcalls
    · rw [hback]
      exact pushBack_cases hstarted hp (ih hs₂ hrun)
    · rw [hback]
      exact pollBack_cases hcount hs₂.single hp (ih hs₂ hrun)

/-- Whatever a callback does, the guards are sound after it if and only if no callback it brings about throws. -/
theorem Behaviour.run_cases (b : Behaviour Data) : ∀ {started s r s'}, GuardsSound started s → b.run s = some (r, s') →
    b.Calm s ∧ GuardsSound started s' ∨ ¬ b.Calm s ∧ Stuck started s' := by
  induction b with
  | ret =>
    intro started s r s' hs h
    cases h
    exact .inl ⟨trivial, hs⟩
  | throw e =>
    intro started s r s' hs h
    cases h
    exact .inl ⟨trivial, hs⟩
  | change m next ih =>
    intro started s r s' hs h
    have hchanged : GuardsSound started (update m.adopt s) := ⟨hs.onBackPressureStarted, hs.counted, hs.single⟩
    exact ih hchanged h
  | call operation inner next ihInner ihNext =>
    intro started s r s' hs h
    obtain ⟨threw, r₁, s₁, hattempt, hperform, hnext⟩ := run_call h
    have hcalm : (Behaviour.call operation inner next).Calm s ↔ operation.Calm inner s ∧ (next threw).Calm s₁ := by
      refine and_congr Iff.rfl ⟨fun hall => hall threw s₁ hattempt, fun hone threw' s₂ hattempt' => ?_⟩
      rw [hattempt] at hattempt'
      cases hattempt'
      exact hone
    rw [hcalm]
    rcases method_cases hs ihInner hperform with ⟨hmethod, hs₁⟩ | ⟨hmethod, hstuck⟩
    · rcases ihNext threw hs₁ hnext with ⟨hlast, hs'⟩ | ⟨hlast, hs'⟩
      · exact .inl ⟨⟨hmethod, hlast⟩, hs'⟩
      · exact .inr ⟨fun hc => hlast hc.2, hs'⟩
    · exact .inr ⟨fun hc => hmethod hc.1, hstuck.persists ((next threw).persists hnext)⟩

/-- A tick leaves the guards sound if and only if no callback throws. -/
theorem tick_cases {callback : Behaviour Data} {started : Bool} (hs : GuardsSound started s) (halive : 0 < s.loops)
    (h : NodeM.startOnEmptyQueueCaught callback.run s = some (r, s')) :
    TickCalm callback s ∧ GuardsSound started s' ∨ ¬ TickCalm callback s ∧ Stuck started s' := by
  have hsingle := hs.single
  have hbegun : GuardsSound started (beginRound s) :=
    ⟨hs.onBackPressureStarted, ⟨fun _ => halive, fun _ => Nat.succ_pos _⟩, hsingle⟩
  obtain ⟨hlast, rfl⟩ | ⟨hcb, rfl⟩ | ⟨hlast, hcb, r₁, s₁, hrun, rfl⟩ := round_cases h
  · refine .inl ⟨fun hc => ?_, hs.onBackPressureStarted, ⟨fun hc => ?_, fun hc => ?_⟩, ?_⟩
    · rw [hlast] at hc
      cases hc
    · cases hc
    · change 0 < s.loops - 1 at hc
      omega
    · show s.loops - 1 ≤ 1
      omega
  · refine .inl ⟨fun _ hc => ?_, hbegun⟩
    rw [hcb] at hc
    cases hc
  · have hcalm : TickCalm callback s ↔ callback.Calm (beginRound s) ∧ r₁ = .ok () := by
      rw [← returns_iff hrun]
      exact ⟨fun hc => hc hlast hcb, fun hc _ _ => hc⟩
    have hcount : 0 < (beginRound s).node.onEmptyQueueCount := Nat.succ_pos _
    rw [hcalm]
    exact pollBack_cases hcount hsingle (callback.persists hrun) (callback.run_cases hbegun hrun)

end Callbacks

/-! ## Runs of a node -/

/-- What happens to a node: a method is called, a timer of its loop fires, or the pool changes it. -/
inductive NodeEvent (Data : Type)
  | call (operation : Operation Data) (callback : Behaviour Data)
  | tick (callback : Behaviour Data)
  | change (n : WorkerNode Data)

namespace NodeEvent

def run : NodeEvent Data → NodeM Data Unit
  | .call operation callback => operation.perform callback.run
  | .tick callback => NodeM.startOnEmptyQueueCaught callback.run
  | .change m => Eff.modify (update m.adopt)

/-- No callback throws. -/
def Calm (s : LoopedNode Data) : NodeEvent Data → Prop
  | .call operation callback => operation.Calm callback s
  | .tick callback => TickCalm callback s
  | .change _ => True

/-- A timer fires only while its loop is alive. -/
def Step (s : LoopedNode Data) (e : NodeEvent Data) (s' : LoopedNode Data) : Prop :=
  (∀ callback, e = .tick callback → 0 < s.loops) ∧ ∃ r, e.run s = some (r, s')

end NodeEvent

section Runs
variable {s₀ s s' : LoopedNode Data} {es : List (NodeEvent Data)} {e : NodeEvent Data} {started : Bool}

theorem guards_step (hs : GuardsSound started s) (h : NodeEvent.Step s e s') : e.Calm s ↔ GuardsSound started s' := by
  obtain ⟨halive, r, hr⟩ := h
  have hcases : e.Calm s ∧ GuardsSound started s' ∨ ¬ e.Calm s ∧ Stuck started s' := by
    cases e with
    | call operation callback => exact method_cases hs callback.run_cases hr
    | tick callback => exact tick_cases hs (halive callback rfl) hr
    | change m =>
      cases hr
      exact .inl ⟨trivial, hs.onBackPressureStarted, hs.counted, hs.single⟩
  rcases hcases with ⟨hcalm, hsound⟩ | ⟨hnot, hstuck⟩
  · exact iff_of_true hcalm hsound
  · exact iff_of_false hnot hstuck.not_sound

/-- In a run of a node the guards are sound after every step, and as they were before it, if and only if no callback
that is called throws. -/
theorem guards_sound_iff (h₀ : GuardsSound started s₀) :
    Through (GuardsSound started) NodeEvent.Step s₀ es s ↔ Run (Guarded NodeEvent.Calm NodeEvent.Step) s₀ es s :=
  through_iff (fun _ => True) trivial h₀ fun _ _ _ _ hs hstep => ⟨trivial, guards_step hs hstep⟩

theorem tick_started {callback : Behaviour Data} {r : Except JsError Unit} (hs : s.node.onBackPressureStarted = true)
    (h : NodeM.startOnEmptyQueueCaught callback.run s = some (r, s')) : s'.node.onBackPressureStarted = true := by
  obtain ⟨-, rfl⟩ | ⟨-, rfl⟩ | ⟨-, -, r₁, s₁, hrun, rfl⟩ := round_cases h
  · exact hs
  · exact hs
  · have hkept := (callback.persists hrun).started hs
    cases r₁ with
    | error e => exact hkept
    | ok a => exact hkept

/-- Method calls leave what is under way alone, and so do ticks, but for their loop. -/
theorem Stuck.step (h : Stuck started s) (hstep : NodeEvent.Step s e s') : Stuck started s' := by
  obtain ⟨halive, r, hr⟩ := hstep
  cases e with
  | call operation callback =>
    refine h.persists ?_
    obtain ⟨-, rfl⟩ | ⟨s₁, r₁, s₂, hcalls, hrun, rfl⟩ := perform_cases hr
    · exact persists_move operation s
    · exact (persists_move operation s).trans (persists_back hcalls (callback.persists hrun))
  | tick callback =>
    have hpos := halive callback rfl
    rcases h with ⟨hfalse, hstarted⟩ | ⟨-, hnone⟩
    · exact .inl ⟨hfalse, tick_started hstarted hr⟩
    · omega
  | change m =>
    cases hr
    exact h

/-- One callback that throws disables stealing on the node for good. -/
theorem stuck_for_good (h : Stuck started s) (hr : Run NodeEvent.Step s es s') : Stuck started s' :=
  hr.inv (Stuck started) h fun _ _ _ hs hstep => hs.step hstep

/-- Methods and ticks end, whatever their callbacks do. -/
theorem NodeEvent.ends (e : NodeEvent Data) (s : LoopedNode Data) : ∃ r s', e.run s = some (r, s') := by
  have hmap (callback : NodeM Data Unit) (hends : ∀ s, ∃ r s', callback s = some (r, s')) (s₁ : LoopedNode Data)
      (f : Except JsError Unit × LoopedNode Data → Except JsError Unit × LoopedNode Data) :
      ∃ r s', (callback s₁).map f = some (r, s') := by
    obtain ⟨r, s', hrun⟩ := hends s₁
    exact ⟨_, _, by rw [hrun]; rfl⟩
  have hmethod (operation : Operation Data) (callback : NodeM Data Unit) (hends : ∀ s, ∃ r s', callback s = some (r, s'))
      (s : LoopedNode Data) : ∃ r s', operation.perform callback s = some (r, s') := by
    rcases hcalls : operation.calls (operation.move s) with _ | s₁
    · exact ⟨_, _, perform_none hcalls⟩
    · rw [perform_some hcalls]
      exact hmap callback hends s₁ _
  have hbehaviour (b : Behaviour Data) : ∀ s, ∃ r s', b.run s = some (r, s') := by
    induction b with
    | ret => exact fun s => ⟨_, s, rfl⟩
    | throw x => exact fun s => ⟨_, s, rfl⟩
    | change m next ih => exact fun s => ih (update m.adopt s)
    | call operation inner next ihInner ihNext =>
      intro s
      obtain ⟨r₁, s₁, hperform⟩ := hmethod operation inner.run ihInner s
      obtain ⟨threw, hattempt⟩ := attempt_of_some hperform
      obtain ⟨r, s', hnext⟩ := ihNext threw s₁
      exact ⟨r, s', (bind_ok hattempt _).trans hnext⟩
  cases e with
  | call operation callback => exact hmethod operation callback.run (hbehaviour callback) s
  | change m => exact ⟨_, _, rfl⟩
  | tick callback =>
    rcases hlast : s.lastRound with _ | _
    · rcases hcb : s.node.onEmptyQueue with _ | _
      · exact ⟨_, _, tick_quiet hlast hcb⟩
      · rw [NodeEvent.run, tick_calls hlast hcb]
        exact hmap callback.run (hbehaviour callback) (beginRound s) _
    · exact ⟨_, _, tick_last hlast⟩

end Runs

/-- A node that calls back when it has one task, and when it has none. -/
def callingNode : LoopedNode Unit := ⟨{ WorkerNode.new 0 .thread 1 with onBackPressure := true, onEmptyQueue := true }, 0⟩

theorem sound_callingNode : GuardsSound false callingNode := ⟨rfl, iff_of_false (by rintro ⟨⟩) (by rintro ⟨⟩), Nat.zero_le 1⟩

/-- The back pressure callback takes the task back, which starts a loop; then the timer of the loop fires. -/
theorem guards_sound_reentrant : ∃ s, Run (Guarded NodeEvent.Calm NodeEvent.Step) callingNode
    [.call (.enqueueTask ⟨"f", (), 0, 0⟩) (.call .popTask .ret fun _ => .ret), .tick .ret] s ∧
      Through (GuardsSound false) NodeEvent.Step callingNode
        [.call (.enqueueTask ⟨"f", (), 0, 0⟩) (.call .popTask .ret fun _ => .ret), .tick .ret] s := by
  have hret (s : LoopedNode Unit) : Behaviour.ret.Calm s ∧ Behaviour.ret.Returns s := ⟨trivial, s, rfl⟩
  have hcalm : Operation.Calm (.enqueueTask ⟨"f", (), 0, 0⟩) (.call .popTask .ret fun _ => .ret) callingNode := by
    intro s₁ hs₁
    cases hs₁
    exact ⟨⟨fun s₂ _ => hret s₂, fun _ _ _ => trivial⟩, _, rfl⟩
  obtain ⟨s₁, hs₁, hloops⟩ : ∃ s₁, NodeEvent.Step callingNode
      (.call (.enqueueTask ⟨"f", (), 0, 0⟩) (.call .popTask .ret fun _ => .ret)) s₁ ∧ 0 < s₁.loops :=
    ⟨_, ⟨(by rintro _ ⟨⟩), _, rfl⟩, Nat.succ_pos _⟩
  obtain ⟨r, s, hs⟩ := NodeEvent.ends (.tick .ret) s₁
  have hr : Run (Guarded NodeEvent.Calm NodeEvent.Step) callingNode
      [.call (.enqueueTask ⟨"f", (), 0, 0⟩) (.call .popTask .ret fun _ => .ret), .tick .ret] s :=
    Run.step (Run.step Run.nil ⟨hcalm, hs₁⟩) ⟨fun _ _ => hret _, fun _ _ => hloops, r, hs⟩
  exact ⟨s, hr, (guards_sound_iff sound_callingNode).2 hr⟩

/-- A steal that throws out of the back pressure callback leaves the flag set. -/
theorem guard_stays_set : ¬ ∀ (s₀ s : LoopedNode Unit) (es : List (NodeEvent Unit)),
    GuardsSound s₀.node.onBackPressureStarted s₀ → Run NodeEvent.Step s₀ es s →
    GuardsSound s₀.node.onBackPressureStarted s := by
  intro h
  obtain ⟨s, hs, hset⟩ : ∃ s, NodeEvent.Step callingNode
      (.call (.enqueueTask ⟨"f", (), 0, 0⟩) (.throw .dataCloneError)) s ∧ s.node.onBackPressureStarted = true :=
    ⟨_, ⟨(by rintro _ ⟨⟩), _, rfl⟩, rfl⟩
  have hsound := h callingNode s _ sound_callingNode (Run.step Run.nil hs)
  rw [hsound.onBackPressureStarted] at hset
  cases hset

/-! ## A node of a pool -/

/-- The methods of the node at the key `k` of a pool. -/
def poolMethods (k : Nat) : Methods Data (Pool Data Response) where
  perform
    | .enqueueTask task, callback => enqueueTask ⟨fun _ => callback, fun _ => callback⟩ k task
    | .unshiftTask task, callback => do
      let _ ← nodeAt k
      modifyNode k fun n => { n with tasksQueue := task :: n.tasksQueue }
      let n ← nodeAt k
      if n.onBackPressure && n.hasBackPressure && !n.onBackPressureStarted then
        modifyNode k fun n => { n with onBackPressureStarted := true }
        callback
        modifyNode k fun n => { n with onBackPressureStarted := false }
      else
        pure ()
    | .dequeueTask, callback => do let _ ← dequeueTask ⟨fun _ => callback, fun _ => callback⟩ k
    | .popTask, callback => do let _ ← popTask ⟨fun _ => callback, fun _ => callback⟩ k
  change m := Pool.modifyNode k m.adopt

/-- The node of `s` is the one at the key `k`. -/
def StandsAt (k : Nat) (s : LoopedNode Data) (p : Pool Data Response) : Prop := p.workerNodes[k]? = some s.node

section Pool
variable {k : Nat}

/-- Behaviours are simulated where methods and changes are. -/
theorem Behaviour.simulates {σ τ : Type} {R : σ → τ → Prop} {methods : Methods Data σ} {methods' : Methods Data τ}
    (hperform : ∀ operation m m', Simulates R m m' → Simulates R (methods.perform operation m) (methods'.perform operation m'))
    (hchange : ∀ n s t, R s t → R (methods.change n s) (methods'.change n t)) (b : Behaviour Data) :
    Simulates R (b.runWith methods) (b.runWith methods') := by
  induction b with
  | ret => exact simulates_pure ()
  | throw e => exact simulates_throw e
  | change n next ih => exact (simulates_modify (hchange n)).bind fun _ => ih
  | call operation inner next ihInner ihNext => exact (hperform operation _ _ ihInner).attempt.bind ihNext

theorem simulates_nodeAt : Simulates (StandsAt k) (NodeM.self : NodeM Data _) (nodeAt k : PoolM Data Response _) := by
  intro s p h r s' hm
  cases hm
  exact ⟨p, nodeAt_eq h, h⟩

theorem simulates_modifyNode {f : LoopedNode Data → LoopedNode Data} {g : WorkerNode Data → WorkerNode Data}
    (hfg : ∀ s, (f s).node = g s.node) :
    Simulates (StandsAt k) (Eff.modify f : NodeM Data Unit) (modifyNode k g : PoolM Data Response Unit) := by
  refine simulates_modify fun s p h => ?_
  unfold StandsAt
  rw [Pool.getElem?_modifyNode_self g h, hfg]

/-- What a method does after it has looked at its node. -/
theorem simulates_after_nodeAt {α : Type} {m : NodeM Data α} {f : WorkerNode Data → PoolM Data Response α}
    (h : ∀ n, Simulates (StandsAt k) m (f n)) : Simulates (StandsAt k) m (nodeAt k >>= f) := by
  intro s p hsp r s' hm
  rw [nodeAt_bind hsp]
  exact h s.node s p hsp r s' hm

variable {m : NodeM Data Unit} {m' : PoolM Data Response Unit}

/-- `callOnBackPressure` is the conditional that the pool's methods repeat. -/
theorem simulates_callOnBackPressure (h : Simulates (StandsAt k) m m') : Simulates (StandsAt k) (NodeM.callOnBackPressure m)
    (do
      let n ← nodeAt k
      if n.onBackPressure && n.hasBackPressure && !n.onBackPressureStarted then
        modifyNode k fun n => { n with onBackPressureStarted := true }
        m'
        modifyNode k fun n => { n with onBackPressureStarted := false }
      else
        pure ()) := by
  refine simulates_nodeAt.bind fun n => ?_
  split
  · exact (simulates_modifyNode fun s => rfl).bind fun _ => h.bind fun _ => simulates_modifyNode fun s => rfl
  · exact simulates_pure ()

theorem simulates_afterTaken (h : Simulates (StandsAt k) m m') :
    Simulates (StandsAt k) (NodeM.afterTaken m) (afterTaken ⟨fun _ => m', fun _ => m'⟩ k) := by
  have hround : Simulates (StandsAt k) (NodeM.startOnEmptyQueueCaught m)
      (startOnEmptyQueueCaught ⟨fun _ => m', fun _ => m'⟩ k) := by
    refine Simulates.swallow ?_ fun s p hsp => ?_
    · refine simulates_nodeAt.bind fun n => ?_
      split
      · exact simulates_modifyNode fun s => rfl
      · refine (simulates_modifyNode fun s => rfl).bind fun _ => ?_
        split
        · exact h
        · exact simulates_pure ()
    · exact Pool.getElem?_modifyNode_self _ hsp
  refine simulates_nodeAt.bind fun n => ?_
  split
  · intro s p hsp r s' hm
    exact hround { s with loops := s.loops + 1 } p hsp r s' hm
  · exact simulates_pure ()

/-- The methods of a node of a pool do to the node what they do to a node on its own. -/
theorem simulates_methods (operation : Operation Data) (h : Simulates (StandsAt k) m m') :
    Simulates (StandsAt k) (operation.perform m) ((poolMethods k).perform operation m') := by
  cases operation with
  | enqueueTask t =>
    refine simulates_after_nodeAt fun _ => ?_
    exact (simulates_modifyNode fun s => rfl).bind fun _ => simulates_callOnBackPressure h
  | unshiftTask t =>
    refine simulates_after_nodeAt fun _ => ?_
    exact (simulates_modifyNode fun s => rfl).bind fun _ => simulates_callOnBackPressure h
  | dequeueTask =>
    refine Simulates.bind ?_ fun _ => simulates_pure ()
    exact simulates_nodeAt.bind fun n => (simulates_modifyNode fun s => rfl).bind fun _ =>
      (simulates_afterTaken h).bind fun _ => simulates_pure _
  | popTask =>
    refine Simulates.bind ?_ fun _ => simulates_pure ()
    exact simulates_nodeAt.bind fun n => (simulates_modifyNode fun s => rfl).bind fun _ =>
      (simulates_afterTaken h).bind fun _ => simulates_pure _

/-- So do methods whose callbacks behave alike, however these call back into the node. -/
theorem method_in_pool (operation : Operation Data) (callback : Behaviour Data) : Simulates (StandsAt k)
    (operation.perform callback.run) ((poolMethods k).perform operation
      (callback.runWith (poolMethods k : Methods Data (Pool Data Response)))) := by
  refine simulates_methods operation (Behaviour.simulates (fun op m m' h => simulates_methods op h) ?_ callback)
  intro n s p hsp
  exact Pool.getElem?_modifyNode_self _ hsp

end Pool

end Poolifier
