import Poolifier.Handled
import Poolifier.KillPosts
/-!
# Kill messages and their answers

A kill message comes through the channel of the tasks, and its answer through
that of the replies. A worker that handles it stops its activity checks, calls
its kill handler and answers; a thread worker then closes its port, so what it
has not sent by then is never sent. All else is as in a pool and its workers
together, of which every run here is a run.
-/

namespace Poolifier

open EffLib RunLib

namespace AbstractWorker

section Prompt
variable {V : Type} {rt : Runtime V} {type : WorkerType} {s s' : State V} {e : Event V}

/-- The task has data, and its function is not asynchronous, or there is none. -/
def Received.immediate (rt : Runtime V) (x : Received V) : Bool :=
  !rt.isNullish x.task.data && x.fn.all fun fn => !fn.isAsyncFunction

/-- A task that is immediate is replied to when it is received, or ends the worker. -/
def State.Prompt (rt : Runtime V) (s : State V) : Prop := s.uncaught = none → ∀ x ∈ s.received, x.immediate rt = true → x.id ∈ s.sent.map (·.taskId)

theorem closed_of_kill (h : Step rt .thread s .kill s') : s'.closed.isSome = true := by
  unfold Step next at h
  split at h
  · cases h
  · cases h
    rfl

theorem take_prompt {task : Task V} {start stop : Clock} (hnone : (s.take rt type task start stop).uncaught = none)
    (himmediate : (s.receives task).immediate rt = true) : task.taskId ∈ (s.take rt type task start stop).sent.map (·.taskId) := by
  unfold State.take at hnone ⊢
  obtain ⟨hdata, hall⟩ : rt.isNullish task.data = false ∧ (s.receives task).fn.all (fun fn => !fn.isAsyncFunction) = true := by
    simpa [Received.immediate, State.receives] using himmediate
  rcases messageListener_concludes (s := { s with received := s.received ++ [s.receives task] }) rt type task start stop with
    ⟨hnull, -⟩ | ⟨fn, taskPerformance, -, hfn, -, hasync, -⟩ | ⟨-, hconcludes⟩
  · rw [hdata] at hnull
    cases hnull
  · -- a function that is asynchronous is not immediate
    have hreceives : (s.receives task).fn = some fn := hfn
    simp [hreceives, hasync] at hall
  · generalize messageListener rt type task start stop { s with received := s.received ++ [s.receives task] } = result
      at hconcludes hnone ⊢
    generalize Received.reply rt type _ = reply at hconcludes
    cases hconcludes with
    | sent m hid _ hsent _ =>
      simp only [State.ended, hsent, List.map_append, List.mem_append]
      exact .inr (List.mem_singleton.2 hid.symm)
    | thrown e _ _ => cases hnone

theorem State.Prompt.step (h : s.Prompt rt) (hdet : Determined rt type s) (hstep : Step rt type s e s') : s'.Prompt rt := by
  obtain ⟨hcaught, -, hdoes⟩ := does_of_step hstep
  have hlogs := step_logs hdet hstep
  intro hnone x hx himmediate
  rw [hlogs.received] at hx
  rcases List.mem_append.1 hx with hx | hx
  · exact (hlogs.sent.map _).subset (h hcaught x hx himmediate)
  · cases hdoes with
    | told hmessage _ _ =>
      rw [hmessage] at hx
      cases hx
    | task start stop _ =>
      obtain rfl := List.mem_singleton.1 hx
      exact take_prompt hnone himmediate
    | settle _ _ => cases hx
    | cut _ _ _ => cases hx
    | stray _ _ => cases hx

theorem prompt_of_run {taskFunctions : String → Option (TaskFunction V)} {es : List (Event V)}
    (hr : Run (Step rt type) (created taskFunctions) es s) : s.Prompt rt :=
  (hr.inv (fun s => Determined rt type s ∧ s.Prompt rt) ⟨determined_created rt type taskFunctions, fun _ => List.forall_mem_nil _⟩
    fun _ _ _ h hs => ⟨h.1.step hs, h.2.step h.1 hs⟩).2

end Prompt

end AbstractWorker

namespace Shutdown

open AbstractWorker (Runtime Clock MessageValue)

/-- What comes of a call of the kill handler. -/
inductive KillOutcome
  | returned
  | threw
  /-- The handler is an asynchronous function. -/
  | promised
deriving DecidableEq

/-- What a worker and the pool have exchanged of kill messages. -/
structure Port where
  /-- After how many task messages each kill message has been posted. -/
  kills : List Nat
  /-- How many of these the worker has handled. -/
  killed : Nat
  /-- The kill handlers whose promises have not settled. -/
  pending : Nat
  /-- The answers that have been sent: after how many replies, and whether they tell of success. -/
  answers : List (Nat × Bool)
  /-- How many of these the pool has handled. -/
  heard : Nat
deriving DecidableEq

structure State (V : Type) where
  system : System.State V
  ports : Nat → Port

inductive Event (V : Type)
  | system (e : System.Event V)
  | takeKill (workerId : Nat) (outcome : KillOutcome)
  /-- The promise of a kill handler settles. -/
  | settleKill (workerId : Nat) (success : Bool)
  | killAnswer (workerId : Nat) (success : Bool)

/-! ## Ports -/

/-- The next kill message on its way to the worker. -/
def Port.nextKill (p : Port) : Option Nat := p.kills[p.killed]?

/-- The next answer on its way from the worker. -/
def Port.nextAnswer (p : Port) : Option (Nat × Bool) := p.answers[p.heard]?

/-- The worker can receive a task message after `received` others. -/
def Port.Delivers (p : Port) (received : Nat) : Prop := ∀ k ∈ p.nextKill, received < k

/-- The pool can receive a reply after `handled` others. -/
def Port.Replies (p : Port) (handled : Nat) : Prop := ∀ a ∈ p.nextAnswer, handled < a.1

instance (p : Port) (received : Nat) : Decidable (p.Delivers received) := by
  unfold Port.Delivers
  infer_instance

instance (p : Port) (handled : Nat) : Decidable (p.Replies handled) := by
  unfold Port.Replies
  infer_instance

/-- `sendToMainWorker` of an answer, after `sent` replies. -/
def Port.answer (sent : Nat) (success : Bool) (p : Port) : Port := { p with answers := p.answers ++ [(sent, success)] }

/-- `handleKillMessage`, before a thread worker closes its port. -/
def Port.handleKillMessage (outcome : KillOutcome) (sent : Nat) (p : Port) : Port :=
  let p := { p with killed := p.killed + 1 }
  match outcome with
  | .returned => p.answer sent true
  | .threw => p.answer sent false
  | .promised => { p with pending := p.pending + 1 }

/-- The promise of a kill handler has been fulfilled, or rejected; no answer gets through a closed channel. -/
def Port.settleKill (closed success : Bool) (sent : Nat) (p : Port) : Port :=
  let p := { p with pending := p.pending - 1 }
  if closed then p else p.answer sent success

/-- The kill messages are on their way. -/
def posts (ms : List KillPost) (ports : Nat → Port) : Nat → Port := fun w =>
  { ports w with kills := (ports w).kills ++ (ms.filter (·.workerId = w)).map (·.after) }

/-! ## Steps -/

section Step
variable {V : Type} (rt : Runtime V) (type : WorkerType) (text : V → String)

def isAnswer : Poolifier.Event V V → Bool
  | .message _ (.killAnswer _) => true
  | _ => false

def isKill : AbstractWorker.Event V → Bool
  | .kill => true
  | _ => false

/-- The pool handles an event that can happen, and posts kill messages, if it throws no exception. -/
def Posts (p : Pool V V) (e : Poolifier.Event V V) (ms : List KillPost) (p' : Pool V V) : Prop :=
  Enabled p e ∧ ∃ fuel now r, handlePosting fuel e { p with now } = some (r, p') ∧ ms = r.toOption.getD []

def State.withPort (s : State V) (workerId : Nat) (f : Port → Port) : State V :=
  { s with ports := Function.update s.ports workerId (f (s.ports workerId)) }

inductive Step : State V → Event V → State V → Prop
  | pool {s e ms p} : System.isResponse e = false → isAnswer e = false → Posts s.system.pool e ms p →
      Step s (.system (.pool e)) ⟨{ s.system with pool := p }, posts ms s.ports⟩
  | worker {s w e x} : isKill e = false → System.Step rt type text s.system (.worker w e) x →
      Step s (.system (.worker w e)) { s with system := x }
  | deliver {s w t start stop x} : (s.ports w).Delivers (s.system.workers w).received.length →
      System.Step rt type text s.system (.deliver w t start stop) x →
      Step s (.system (.deliver w t start stop)) { s with system := x }
  | reply {s w m x} : (s.ports w).Replies (s.system.handled w) → System.Step rt type text s.system (.reply w m) x →
      Step s (.system (.reply w m)) { s with system := x }
  | takeKill {s w x} (outcome) : (s.ports w).nextKill = some (s.system.workers w).received.length →
      System.Step rt type text s.system (.worker w .kill) x →
      Step s (.takeKill w outcome)
        ({ s with system := x }.withPort w (·.handleKillMessage outcome (s.system.workers w).sent.length))
  | settleKill {s w} (success) : 0 < (s.ports w).pending → (s.system.workers w).uncaught = none →
      Step s (.settleKill w success)
        (s.withPort w (·.settleKill (s.system.workers w).closed.isSome success (s.system.workers w).sent.length))
  | killAnswer {s w success p} : (s.ports w).nextAnswer = some (s.system.handled w, success) →
      System.Handles s.system.pool (.message w (.killAnswer success)) p →
      Step s (.killAnswer w success)
        ({ s with system := { s.system with pool := p } }.withPort w fun q => { q with heard := q.heard + 1 })

/-- The state after an event, if the event can happen; the pool has some fuel, at time zero. -/
def next [DecidableEq V] (fuel : Nat) (s : State V) : Event V → Option (State V)
  | .system (.pool e) =>
    if System.isResponse e = false ∧ isAnswer e = false ∧ Enabled s.system.pool e then
      (handlePosting fuel e { s.system.pool with now := 0 }).map fun (r, p) =>
        ⟨{ s.system with pool := p }, posts (r.toOption.getD []) s.ports⟩
    else none
  | .system (.worker w e) =>
    if isKill e then none
    else (System.next rt type text fuel s.system (.worker w e)).map fun x => { s with system := x }
  | .system (.deliver w t start stop) =>
    if (s.ports w).Delivers (s.system.workers w).received.length then
      (System.next rt type text fuel s.system (.deliver w t start stop)).map fun x => { s with system := x }
    else none
  | .system (.reply w m) =>
    if (s.ports w).Replies (s.system.handled w) then
      (System.next rt type text fuel s.system (.reply w m)).map fun x => { s with system := x }
    else none
  | .takeKill w outcome =>
    if (s.ports w).nextKill = some (s.system.workers w).received.length then
      (System.next rt type text fuel s.system (.worker w .kill)).map fun x =>
        { s with system := x }.withPort w (·.handleKillMessage outcome (s.system.workers w).sent.length)
    else none
  | .settleKill w success =>
    if 0 < (s.ports w).pending ∧ (s.system.workers w).uncaught = none then
      some (s.withPort w (·.settleKill (s.system.workers w).closed.isSome success (s.system.workers w).sent.length))
    else none
  | .killAnswer w success =>
    if (s.ports w).nextAnswer = some (s.system.handled w, success) then
      (handle fuel (.message w (.killAnswer success)) { s.system.pool with now := 0 }).map fun (_, p) =>
        { s with system := { s.system with pool := p } }.withPort w fun q => { q with heard := q.heard + 1 }
    else none

theorem step_of_next [DecidableEq V] {fuel : Nat} {s s' : State V} {e : Event V}
    (h : next rt type text fuel s e = some s') : Step rt type text s e s' := by
  have hstep {e' : System.Event V} {x : System.State V} (hx : System.next rt type text fuel s.system e' = some x) :
      System.Step rt type text s.system e' x := System.step_of_next rt type text hx
  unfold next at h
  split at h
  · split at h
    · rename_i hif
      obtain ⟨⟨r, p⟩, hp, rfl⟩ := Option.map_eq_some_iff.1 h
      exact .pool hif.1 hif.2.1 ⟨hif.2.2, fuel, 0, r, hp, rfl⟩
    · cases h
  · split at h
    · cases h
    · rename_i hif
      obtain ⟨x, hx, rfl⟩ := Option.map_eq_some_iff.1 h
      exact .worker (by simpa using hif) (hstep hx)
  · split at h
    · rename_i hif
      obtain ⟨x, hx, rfl⟩ := Option.map_eq_some_iff.1 h
      exact .deliver hif (hstep hx)
    · cases h
  · split at h
    · rename_i hif
      obtain ⟨x, hx, rfl⟩ := Option.map_eq_some_iff.1 h
      exact .reply hif (hstep hx)
    · cases h
  · split at h
    · rename_i hif
      obtain ⟨x, hx, rfl⟩ := Option.map_eq_some_iff.1 h
      exact .takeKill _ hif (hstep hx)
    · cases h
  · split at h
    · rename_i hif
      cases h
      exact .settleKill _ hif.1 hif.2
    · cases h
  · split at h
    · rename_i hif
      obtain ⟨⟨r, p⟩, hp, rfl⟩ := Option.map_eq_some_iff.1 h
      exact .killAnswer hif ⟨fuel, 0, r, hp⟩
    · cases h

/-- A system that starts, before any kill message. -/
structure Starts (taskFunctions : String → Option (AbstractWorker.TaskFunction V)) (s : State V) : Prop where
  system : System.Starts type taskFunctions s.system
  ports : ∀ w, s.ports w = ⟨[], 0, 0, [], 0⟩

/-- The event of the pool and its workers that an event is. -/
def Event.onSystem : Event V → Option (System.Event V)
  | .system e => some e
  | .takeKill w _ => some (.worker w .kill)
  | .settleKill .. => none
  | .killAnswer w success => some (.pool (.message w (.killAnswer success)))

/-- The event of the pool that an event is. -/
def Event.onPool (e : Event V) : Option (Poolifier.Event V V) := e.onSystem.bind (·.onPool rt text)

end Step

/-! ## What holds of a port -/

section Ports
variable {V : Type} {rt : Runtime V} {p : Port} {x x' : AbstractWorker.State V}

@[simp] theorem Port.handleKillMessage_kills (outcome : KillOutcome) (sent : Nat) (p : Port) :
    (p.handleKillMessage outcome sent).kills = p.kills := by
  unfold handleKillMessage
  cases outcome <;> rfl

@[simp] theorem Port.settleKill_kills (closed success : Bool) (sent : Nat) (p : Port) :
    (p.settleKill closed success sent).kills = p.kills := by
  unfold settleKill
  cases closed <;> rfl

/-- What a worker has done about kill messages, by its port. -/
structure Port.Sound (rt : Runtime V) (p : Port) (x : AbstractWorker.State V) : Prop where
  killed : p.killed ≤ p.kills.length
  /-- What is done about a kill message is done after one has been handled. -/
  asked : p.answers ≠ [] ∨ 0 < p.pending → 0 < p.killed
  sent : ∀ a ∈ p.answers, a.1 ≤ x.sent.length
  /-- Every task before the first kill message has been received, and replied to before each answer if it can be at once. -/
  prompt : 0 < p.killed → ∀ k ∈ p.kills.head?, k ≤ x.received.length ∧ ∀ y ∈ x.received.take k, y.immediate rt = true →
    y.id ∈ x.sent.map (·.taskId) ∧ ∀ a ∈ p.answers, y.id ∈ (x.sent.take a.1).map (·.taskId)

theorem sound_start (x : AbstractWorker.State V) : Port.Sound rt ⟨[], 0, 0, [], 0⟩ x where
  killed := le_rfl
  asked h := by simp at h
  sent _ ha := by cases ha
  prompt h := absurd h (lt_irrefl 0)

/-- The worker receives and sends more. -/
theorem Port.Sound.grow (h : p.Sound rt x) (hreceived : x.received <+: x'.received) (hsent : x.sent <+: x'.sent) : p.Sound rt x' where
  killed := h.killed
  asked := h.asked
  sent a ha := (h.sent a ha).trans hsent.length_le
  prompt hkilled k hk := by
    obtain ⟨hle, hprompt⟩ := h.prompt hkilled k hk
    refine ⟨hle.trans hreceived.length_le, fun y hy himmediate => ?_⟩
    rw [System.take_eq_take hreceived hle] at hy
    obtain ⟨hid, hanswers⟩ := hprompt y hy himmediate
    refine ⟨(hsent.map _).subset hid, fun a ha => ?_⟩
    rw [System.take_eq_take hsent (h.sent a ha)]
    exact hanswers a ha

/-- More kill messages are posted. -/
theorem Port.Sound.post (h : p.Sound rt x) (ks : List Nat) : { p with kills := p.kills ++ ks }.Sound rt x where
  killed := by
    rw [List.length_append]
    exact h.killed.trans (Nat.le_add_right _ _)
  asked := h.asked
  sent := h.sent
  prompt hkilled k hk := by
    refine h.prompt hkilled k ?_
    -- there is a first one, and it stays the first
    rcases hkills : p.kills with _ | ⟨k', ks'⟩
    · have hle := h.killed
      rw [hkills] at hle
      exact absurd hle (Nat.not_le.2 hkilled)
    · rw [hkills] at hk
      exact hk

/-- An answer is sent after a kill message. -/
theorem Port.Sound.answer (h : p.Sound rt x) (hkilled : 0 < p.killed) (success : Bool) :
    (p.answer x.sent.length success).Sound rt x := by
  refine ⟨h.killed, fun _ => hkilled, fun a ha => ?_, fun _ k hk => ?_⟩
  · rcases List.mem_append.1 ha with ha | ha
    · exact h.sent a ha
    · rw [List.mem_singleton.1 ha]
  · obtain ⟨hle, hprompt⟩ := h.prompt hkilled k hk
    refine ⟨hle, fun y hy himmediate => ?_⟩
    obtain ⟨hid, hanswers⟩ := hprompt y hy himmediate
    refine ⟨hid, fun a ha => ?_⟩
    rcases List.mem_append.1 ha with ha | ha
    · exact hanswers a ha
    · rw [List.mem_singleton.1 ha, List.take_length]
      exact hid

/-- A worker that has handled all before it takes a kill message. -/
theorem Port.Sound.kill (h : p.Sound rt x) (hprompt : x.Prompt rt) (hcaught : x.uncaught = none)
    (hnext : p.nextKill = some x.received.length) : { p with killed := p.killed + 1 }.Sound rt x where
  killed := (List.getElem?_eq_some_iff.1 hnext).1
  asked _ := Nat.succ_pos _
  sent := h.sent
  prompt _ k hk := by
    rcases Nat.eq_zero_or_pos p.killed with hzero | hkilled
    · have hk' : k = x.received.length := by
        unfold Port.nextKill at hnext
        rw [hzero, ← List.head?_eq_getElem?] at hnext
        exact Option.some.inj (hk.symm.trans hnext)
      refine ⟨hk'.le, fun y hy himmediate => ⟨hprompt hcaught y (List.mem_of_mem_take hy) himmediate, fun a ha => ?_⟩⟩
      have hpos := h.asked (.inl (List.ne_nil_of_mem ha))
      omega
    · exact h.prompt hkilled k hk

theorem Port.Sound.handleKillMessage (h : p.Sound rt x) (hprompt : x.Prompt rt) (hcaught : x.uncaught = none)
    (hnext : p.nextKill = some x.received.length) (outcome : KillOutcome) :
    (p.handleKillMessage outcome x.sent.length).Sound rt x := by
  have hkill := h.kill hprompt hcaught hnext
  have hpos : 0 < p.killed + 1 := Nat.succ_pos _
  unfold Port.handleKillMessage
  cases outcome with
  | returned => exact hkill.answer hpos true
  | threw => exact hkill.answer hpos false
  | promised => exact ⟨hkill.killed, fun _ => hpos, hkill.sent, hkill.prompt⟩

theorem Port.Sound.settleKill (h : p.Sound rt x) (hpending : 0 < p.pending) (closed success : Bool) :
    (p.settleKill closed success x.sent.length).Sound rt x := by
  have hpos := h.asked (.inr hpending)
  have hless : { p with pending := p.pending - 1 }.Sound rt x := ⟨h.killed, fun _ => hpos, h.sent, h.prompt⟩
  unfold Port.settleKill
  cases closed with
  | true => exact hless
  | false => exact hless.answer hpos success

end Ports

/-! ## Every run -/

section Runs
variable {V : Type} {rt : Runtime V} {type : WorkerType} {text : V → String} {s₀ s s' : State V} {es : List (Event V)}
  {e : Event V} {taskFunctions : String → Option (AbstractWorker.TaskFunction V)} {w : Nat}

/-- The worker is being destroyed, or has been. -/
def Doomed (p : Pool V V) (w : Nat) : Prop := ∃ n ∈ p.everyNode, n.info.id = w ∧ n.destroying.isSome = true

theorem posts_step {p p' : Pool V V} {pe : Poolifier.Event V V} {ms : List KillPost} (h : Posts p pe ms p') :
    Poolifier.Step p pe p' ∧ ∀ m ∈ ms, m.HoldsIn p' ∧ m.Follows p := by
  obtain ⟨henabled, fuel, now, r, hm, rfl⟩ := h
  refine ⟨⟨henabled, fuel, now, r.map fun _ => (), ?_⟩, fun m hmem => ?_⟩
  · rw [erases_handlePosting fuel pe, hm]
    rfl
  · have hposts := handlePosting_posts fuel pe r p' hm
    rcases r with x | ms
    · cases hmem
    · exact hposts m hmem

/-- What is known after the events `es` from `s₀`. -/
structure Along (rt : Runtime V) (type : WorkerType) (text : V → String) (s₀ : State V) (es : List (Event V))
    (s : State V) : Prop where
  system : Run (System.Step rt type text) s₀.system (es.filterMap Event.onSystem) s.system
  /-- Kill messages are for workers that are being destroyed. -/
  doomed : ∀ w, (s.ports w).kills ≠ [] → Doomed s.system.pool w
  sound : ∀ w, (s.ports w).Sound rt (s.system.workers w)

/-- Workers receive and send more, and forget nothing. -/
theorem Along.grows (h : Along rt type text s₀ es s) (h₀ : Starts type taskFunctions s₀) {x : System.State V}
    (hmoves : MovesPart (System.Step rt type text) Event.onSystem e s.system x) (w : Nat) :
    (s.system.workers w).received <+: (x.workers w).received ∧ (s.system.workers w).sent <+: (x.workers w).sent := by
  rcases hon : e.onSystem with _ | e'
  · rw [hmoves.stays hon]
    exact ⟨List.prefix_rfl, List.prefix_rfl⟩
  · obtain ⟨new, hlogs⟩ := (System.linked_of_run h₀.system h.system).logs h₀.system (hmoves.moves e' hon) w
    exact ⟨hlogs.received ▸ List.prefix_append _ _, hlogs.sent⟩

/-- The pool and its workers do something, or nothing, and the ports change. -/
theorem Along.next (h : Along rt type text s₀ es s) (h₀ : Starts type taskFunctions s₀) {x : System.State V} {ports : Nat → Port}
    (hsystem : MovesPart (System.Step rt type text) Event.onSystem e s.system x)
    (hkills : ∀ w, (ports w).kills ≠ [] → (s.ports w).kills ≠ [] ∨ Doomed x.pool w)
    (hsound : ∀ w, (ports w).Sound rt (s.system.workers w)) : Along rt type text s₀ (es ++ [e]) ⟨x, ports⟩ := by
  have hl := System.linked_of_run h₀.system h.system
  refine ⟨h.system.part hsystem, fun w hne => ?_, fun w => ?_⟩
  · rcases hkills w hne with hold | hnew
    · obtain ⟨n, hn, rfl, hdestroying⟩ := h.doomed w hold
      have hpool : MovesPart Poolifier.Step (·.onPool rt text) e s.system.pool x.pool :=
        hsystem.comp fun _ hs => hl.movesPool h₀.system hs
      have hstays : StaysDoomed s.system.pool x.pool := by
        rcases hon : e.onPool rt text with _ | pe
        · rw [hpool.stays hon]
          exact refl_of StaysDoomed s.system.pool
        · exact step_staysDoomed (hpool.moves pe hon)
      exact hstays n hn hdestroying
    · exact hnew
  · obtain ⟨hreceived, hsent⟩ := h.grows h₀ hsystem w
    exact (hsound w).grow hreceived hsent

/-- A kill message that has been answered was for a worker that is being destroyed. -/
theorem Along.enabled (h : Along rt type text s₀ es s) (h₀ : Starts type taskFunctions s₀) {a : Nat × Bool}
    (ha : a ∈ (s.ports w).answers) (success : Bool) : Enabled s.system.pool (.message w (.killAnswer success)) := by
  have hpos := (h.sound w).asked (.inl (List.ne_nil_of_mem ha))
  have hkills : (s.ports w).kills ≠ [] := List.ne_nil_of_length_pos (hpos.trans_le (h.sound w).killed)
  obtain ⟨n, hn, rfl, hdestroying⟩ := h.doomed w hkills
  exact System.nodeOf_of_mem ((System.linked_of_run h₀.system h.system).distinct h₀.system.pool) hn hdestroying

theorem State.withPort_self (s : State V) (w : Nat) (f : Port → Port) : (s.withPort w f).ports w = f (s.ports w) := by
  unfold withPort
  exact Function.update_self ..

theorem State.withPort_of_ne (s : State V) {w w' : Nat} (hw : w' ≠ w) (f : Port → Port) :
    (s.withPort w f).ports w' = s.ports w' := by
  unfold withPort
  exact Function.update_of_ne hw ..

/-- The port of one worker changes. -/
theorem Along.withPort (h : Along rt type text s₀ es s) (h₀ : Starts type taskFunctions s₀) {x : System.State V} {f : Port → Port}
    (hsystem : MovesPart (System.Step rt type text) Event.onSystem e s.system x)
    (hkills : (f (s.ports w)).kills = (s.ports w).kills) (hsound : (f (s.ports w)).Sound rt (s.system.workers w)) :
    Along rt type text s₀ (es ++ [e]) ({ s with system := x }.withPort w f) := by
  refine h.next h₀ hsystem (fun w' hne => .inl ?_) fun w' => ?_
  all_goals by_cases hw : w' = w
  · subst hw
    rwa [Function.update_self, hkills] at hne
  · rwa [Function.update_of_ne hw] at hne
  · subst hw
    rw [Function.update_self]
    exact hsound
  · rw [Function.update_of_ne hw]
    exact h.sound w'

/-- What an event does to the pool and its workers. -/
theorem Along.movesSystem (h : Along rt type text s₀ es s) (h₀ : Starts type taskFunctions s₀)
    (hstep : Step rt type text s e s') : MovesPart (System.Step rt type text) Event.onSystem e s.system s'.system := by
  cases hstep with
  | pool hresponse _ hposts => exact movesPart_of_some rfl (.pool hresponse (posts_step hposts).1)
  | worker _ hx => exact movesPart_of_some rfl hx
  | deliver _ hx => exact movesPart_of_some rfl hx
  | reply _ hx => exact movesPart_of_some rfl hx
  | takeKill _ _ hx => exact movesPart_of_some rfl hx
  | settleKill _ _ _ => exact movesPart_of_none rfl
  | killAnswer hnext hp => exact movesPart_of_some rfl (.pool rfl ⟨h.enabled h₀ (List.mem_of_getElem? hnext) _, hp⟩)

theorem Along.movesPool (h : Along rt type text s₀ es s) (h₀ : Starts type taskFunctions s₀)
    (hstep : Step rt type text s e s') : MovesPart Poolifier.Step (·.onPool rt text) e s.system.pool s'.system.pool :=
  (h.movesSystem h₀ hstep).comp fun _ hs => (System.linked_of_run h₀.system h.system).movesPool h₀.system hs

theorem Along.step (h : Along rt type text s₀ es s) (h₀ : Starts type taskFunctions s₀) (hstep : Step rt type text s e s') :
    Along rt type text s₀ (es ++ [e]) s' := by
  have hmoves := h.movesSystem h₀ hstep
  cases hstep with
  | @pool pe ms p _ _ hposts =>
    refine h.next h₀ hmoves (fun w hne => ?_) fun w => (h.sound w).post _
    by_cases hkills : (s.ports w).kills = []
    · right
      have hnew : (ms.filter (·.workerId = w)).map (·.after) ≠ [] := by
        intro hnil
        simp [posts, hkills, hnil] at hne
      obtain ⟨k, hk⟩ := List.exists_mem_of_ne_nil _ hnew
      obtain ⟨m, hm, -⟩ := List.mem_map.1 hk
      obtain ⟨hmem, hw⟩ := List.mem_filter.1 hm
      obtain ⟨⟨n, hn, hid, hdestroying, -⟩, -⟩ := (posts_step hposts).2 m hmem
      exact ⟨n, List.mem_append_left _ hn, hid.trans (by simpa using hw), hdestroying⟩
    · exact .inl hkills
  | worker _ _ => exact h.next h₀ hmoves (fun _ hne => .inl hne) h.sound
  | deliver _ _ => exact h.next h₀ hmoves (fun _ hne => .inl hne) h.sound
  | reply _ _ => exact h.next h₀ hmoves (fun _ hne => .inl hne) h.sound
  | @takeKill w₁ x outcome hnext hx =>
    have hcaught : (s.system.workers w₁).uncaught = none := by
      cases hx with
      | worker _ hw => exact (AbstractWorker.does_of_step hw).1
    have hprompt := AbstractWorker.prompt_of_run (System.worker_run h₀.system h.system w₁)
    refine h.withPort h₀ hmoves (Port.handleKillMessage_kills ..) ?_
    exact (h.sound w₁).handleKillMessage hprompt hcaught hnext outcome
  | @settleKill w₁ success hpending _ =>
    exact h.withPort h₀ hmoves (Port.settleKill_kills ..) ((h.sound w₁).settleKill hpending _ success)
  | @killAnswer w₁ success p _ _ =>
    have hs := h.sound w₁
    exact h.withPort h₀ hmoves rfl ⟨hs.killed, hs.asked, hs.sent, hs.prompt⟩

theorem along_of_run (h₀ : Starts type taskFunctions s₀) (hr : Run (Step rt type text) s₀ es s) : Along rt type text s₀ es s := by
  refine hr.trace_inv (Along rt type text s₀) ⟨.nil, fun w hne => ?_, fun w => ?_⟩ fun _ _ _ _ h hs => h.step h₀ hs
  · rw [h₀.ports] at hne
    exact absurd rfl hne
  · rw [h₀.ports]
    exact sound_start _

end Runs

/-! ## What comes of the tasks -/

section Tasks
variable {V : Type} {rt : Runtime V} {type : WorkerType} {text : V → String} {s₀ s s' : State V} {es : List (Event V)}
  {e : Event V} {taskFunctions : String → Option (AbstractWorker.TaskFunction V)} {w : Nat}

/-- Every run with kill messages is one of the pool and its workers, which answer no kill message but of a pool that
destroys them. -/
theorem system_of_run (h₀ : Starts type taskFunctions s₀) (hr : Run (Step rt type text) s₀ es s) :
    Run (System.Step rt type text) s₀.system (es.filterMap Event.onSystem) s.system :=
  (along_of_run h₀ hr).system

/-- A task posted before the first kill message has been received when that message is. -/
theorem Along.received (h : Along rt type text s₀ es s) (h₀ : Starts type taskFunctions s₀) (hkilled : 0 < (s.ports w).killed)
    {k : Nat} (hk : k ∈ (s.ports w).kills.head?) {t : Task V} (ht : t ∈ (s.system.pool.record w).received.take k) :
    ∃ x ∈ (s.system.workers w).received.take k, x.task = AbstractWorker.received rt t := by
  have hle := ((h.sound w).prompt hkilled k hk).1
  have hprefix := (System.linked_of_run h₀.system h.system).received w
  have htake := System.take_eq_take hprefix (n := k) (by rwa [List.length_map])
  rw [← List.map_take, ← List.map_take] at htake
  have hmem := List.mem_map_of_mem (f := AbstractWorker.received rt) ht
  rw [htake] at hmem
  exact List.mem_map.1 hmem

/-- When the pool handles the answer to a kill message, the promises of all tasks that were posted before that message have
ended, if they have data and their functions are not asynchronous. -/
theorem Along.killAnswer (h : Along rt type text s₀ es s) (h₀ : Starts type taskFunctions s₀) {success : Bool}
    (hnext : (s.ports w).nextAnswer = some (s.system.handled w, success)) (hknown : System.Known s.system.pool w) {k : Nat}
    (hk : k ∈ (s.ports w).kills.head?) {t : Task V} (ht : t ∈ (s.system.pool.record w).received.take k)
    (himmediate : ∀ x ∈ (s.system.workers w).received, x.id = t.taskId → x.immediate rt = true) :
    t.taskId ∈ s.system.pool.settledIds := by
  have ha := List.mem_of_getElem? hnext
  have hkilled := (h.sound w).asked (.inl (List.ne_nil_of_mem ha))
  obtain ⟨x, hx, htask⟩ := h.received h₀ hkilled hk ht
  have hid : x.id = t.taskId := congrArg AbstractWorker.Task.taskId htask
  have hreplied := (((h.sound w).prompt hkilled k hk).2 x hx (himmediate x (List.mem_of_mem_take hx) hid)).2 _ ha
  obtain ⟨m, hm, hmid⟩ := List.mem_map.1 hreplied
  rw [← hid, ← hmid]
  exact System.mem_settledIds_of_handled h₀.system h.system hknown hm

/-- Before the pool handles the answer to a kill message, all tasks that were posted before that message have had their
results, if they have data and their functions are not asynchronous. -/
theorem settled_of_killAnswer (h₀ : Starts type taskFunctions s₀) (hr : Run (Step rt type text) s₀ es s) {success : Bool}
    (hstep : Step rt type text s (.killAnswer w success) s') (hknown : System.Known s.system.pool w) {k : Nat}
    (hk : k ∈ (s.ports w).kills.head?) {t : Task V} (ht : t ∈ (s.system.pool.record w).received.take k)
    (himmediate : ∀ x ∈ (s.system.workers w).received, x.id = t.taskId → x.immediate rt = true) :
    ∃ r, (t.taskId, r) ∈ s.system.pool.settled ∧
      ((∃ x, r = .thrown x) ∨ System.Computed rt type text s₀.system (es.filterMap Event.onSystem) t.taskId r) := by
  have h := along_of_run h₀ hr
  cases hstep with
  | killAnswer hnext _ =>
    obtain ⟨⟨i, r⟩, hq, rfl⟩ := List.mem_map.1 (h.killAnswer h₀ hnext hknown hk ht himmediate)
    refine ⟨r, hq, ?_⟩
    rcases System.settled_cases h₀.system h.system hq with ⟨x, -, -, -, rfl, -⟩ | ⟨w', m', he, hid', rfl⟩
    · exact .inl ⟨x, rfl⟩
    · rw [← hid']
      exact .inr (System.computed_of_reply h₀.system h.system he)

/-- The pool handles nothing that was sent after the channel had been closed. -/
theorem handled_le_closed (h : System.Linked rt type text s₀.system (es.filterMap Event.onSystem) s.system) {c : Nat}
    (hclosed : (s.system.workers w).closed = some c) : s.system.handled w ≤ c := by
  have hle := h.handled w
  rw [AbstractWorker.through_of_closed hclosed, List.length_take] at hle
  exact hle.trans (Nat.min_le_left ..)

/-- A task that a worker has not replied to before its channel is closed never has a result, unless its call throws. -/
theorem abandoned_of_closed (h₀ : Starts type taskFunctions s₀) (hr : Run (Step rt type text) s₀ es s) {c : Nat}
    (hclosed : (s.system.workers w).closed = some c) {t : Task V} (ht : t ∈ (s.system.pool.record w).received)
    (hnot : t.taskId ∉ ((s.system.workers w).sent.take c).map (·.taskId)) :
    ∀ r, (t.taskId, r) ∈ s.system.pool.settled → ∃ x, r = .thrown x := by
  have h := along_of_run h₀ hr
  have hl := System.linked_of_run h₀.system h.system
  intro r hq
  refine (System.reply_of_settled h₀.system h.system hq).resolve_right ?_
  rintro ⟨w', m, hm, hid, -⟩
  obtain ⟨t', ht', htid⟩ := hl.posted_of_sent h₀.system (List.mem_of_mem_take hm)
  have hw : w' = w := by
    by_contra hne
    exact System.record_disjoint (issued_of_run h₀.system.pool hl.pool) hne ht' ht (htid.trans hid)
  subst hw
  exact hnot (List.mem_map.2 ⟨m, List.take_subset_take_left _ (handled_le_closed hl hclosed) hm, hid⟩)

/-- What a thread worker has done about kill messages, after the events `es`. -/
structure Silent (w : Nat) (es : List (Event V)) (p : Port) (x : AbstractWorker.State V) : Prop where
  killed : x.closed = none → p.killed = 0
  /-- A handler that has given a promise is never heard of again. -/
  promised : .takeKill w .promised ∈ es → x.closed.isSome = true ∧ p.answers = []
  answered : ∀ success, .killAnswer w success ∈ es → p.answers ≠ []

/-- An event that is none of these, and leaves what has been done about kill messages as it is. -/
theorem Silent.other {p p' : Port} {x x' : AbstractWorker.State V} (h : Silent w es p x) (hkill : e ≠ .takeKill w .promised)
    (hanswer : ∀ success, e ≠ .killAnswer w success) (hclosed : x.closed.isSome = true → x'.closed.isSome = true)
    (hkilled : p'.killed = p.killed) (hanswers : p'.answers = p.answers) : Silent w (es ++ [e]) p' x' := by
  have hold {e' : Event V} (he' : e' ∈ es ++ [e]) (hne : e ≠ e') : e' ∈ es := by
    rcases List.mem_append.1 he' with he' | he'
    · exact he'
    · exact absurd (List.mem_singleton.1 he').symm hne
  refine ⟨fun hnone => ?_, fun he => ?_, fun success he => ?_⟩
  · rw [hkilled]
    refine h.killed ?_
    by_contra hne
    have hsome := hclosed (Option.isSome_iff_ne_none.2 hne)
    rw [hnone] at hsome
    cases hsome
  · obtain ⟨hsome, hnil⟩ := h.promised (hold he hkill)
    exact ⟨hclosed hsome, hanswers.trans hnil⟩
  · rw [hanswers]
    exact h.answered success (hold he (hanswer success))

/-- The worker takes its first kill message, and closes the port. -/
theorem Silent.takeKill {p : Port} {x x' : AbstractWorker.State V} (h : Silent w es p x) (hnone : x.closed = none)
    (hanswers : p.answers = []) (hclosed : x'.closed.isSome = true) (outcome : KillOutcome) (sent : Nat) :
    Silent w (es ++ [.takeKill w outcome]) (p.handleKillMessage outcome sent) x' := by
  have hnever (success : Bool) : .killAnswer w success ∉ es ++ [.takeKill w outcome] := by
    intro he
    rcases List.mem_append.1 he with he | he
    · exact h.answered success he hanswers
    · cases List.mem_singleton.1 he
  refine ⟨fun hnone' => ?_, fun he => ⟨hclosed, ?_⟩, fun success he => absurd he (hnever success)⟩
  · rw [hnone'] at hclosed
    cases hclosed
  · rcases List.mem_append.1 he with he | he
    · have hsome := (h.promised he).1
      rw [hnone] at hsome
      cases hsome
    · cases List.mem_singleton.1 he
      exact hanswers

theorem Silent.step (h : Silent w es (s.ports w) (s.system.workers w)) (halong : Along rt .thread text s₀ es s)
    (h₀ : Starts .thread taskFunctions s₀) (hstep : Step rt .thread text s e s') :
    Silent w (es ++ [e]) (s'.ports w) (s'.system.workers w) := by
  have hl := System.linked_of_run h₀.system halong.system
  have hfirst (hnone : (s.system.workers w).closed = none) : (s.ports w).answers = [] ∧ (s.ports w).pending = 0 := by
    have hzero := h.killed hnone
    refine ⟨by_contra fun hne => ?_, Nat.eq_zero_of_not_pos fun hpos => ?_⟩
    · exact absurd ((halong.sound w).asked (.inl hne)) (by omega)
    · exact absurd ((halong.sound w).asked (.inr hpos)) (by omega)
  -- a channel that has been closed stays so
  have hclosed : (s.system.workers w).closed.isSome = true → (s'.system.workers w).closed.isSome = true := by
    have hmoves := halong.movesSystem h₀ hstep
    rcases hon : e.onSystem with _ | e'
    · rw [hmoves.stays hon]
      exact id
    · obtain ⟨new, hlogs⟩ := hl.logs h₀.system (hmoves.moves e' hon) w
      exact hlogs.isSome_closed
  cases hstep with
  | pool _ _ _ => exact h.other nofun nofun hclosed rfl rfl
  | worker _ _ => exact h.other nofun nofun hclosed rfl rfl
  | deliver _ _ => exact h.other nofun nofun hclosed rfl rfl
  | reply _ _ => exact h.other nofun nofun hclosed rfl rfl
  | @takeKill w' x outcome _ hx =>
    by_cases hw : w = w'
    · subst hw
      rw [State.withPort_self]
      cases hx with
      | @worker _ _ x _ hkill =>
        have hnone := (AbstractWorker.does_of_step hkill).2.1 rfl
        refine h.takeKill hnone (hfirst hnone).1 ?_ outcome _
        show ((s.system.withWorker w x).workers w).closed.isSome = true
        rw [s.system.withWorker_self]
        exact AbstractWorker.closed_of_kill hkill
    · rw [State.withPort_of_ne _ hw]
      refine h.other (fun heq => ?_) nofun hclosed rfl rfl
      cases heq
      exact hw rfl
  | @settleKill w' success hpending _ =>
    by_cases hw : w = w'
    · subst hw
      rw [State.withPort_self]
      -- what the promise of the handler tells is sent through a closed port
      have hsome : (s.system.workers w).closed.isSome = true := by
        by_contra hnot
        rw [(hfirst (by simpa using hnot)).2] at hpending
        exact absurd hpending (lt_irrefl 0)
      rw [hsome]
      exact h.other nofun nofun hclosed rfl rfl
    · rw [State.withPort_of_ne _ hw]
      exact h.other nofun nofun hclosed rfl rfl
  | @killAnswer w' success p hnext _ =>
    by_cases hw : w = w'
    · subst hw
      rw [State.withPort_self]
      have hne := List.ne_nil_of_mem (List.mem_of_getElem? hnext)
      refine ⟨h.killed, fun he => ?_, fun _ _ => hne⟩
      rcases List.mem_append.1 he with he | he
      · exact absurd (h.promised he).2 hne
      · cases List.mem_singleton.1 he
    · rw [State.withPort_of_ne _ hw]
      refine h.other nofun (fun success' heq => ?_) hclosed rfl rfl
      cases heq
      exact hw rfl

/-- A kill handler that is an asynchronous function is never heard of on a thread worker: the port is closed before its
promise settles. -/
theorem unanswered_of_promised (h₀ : Starts .thread taskFunctions s₀) (hr : Run (Step rt .thread text) s₀ es s)
    (hkill : .takeKill w .promised ∈ es) : ∀ success, .killAnswer w success ∉ es := by
  have h : Along rt .thread text s₀ es s ∧ Silent w es (s.ports w) (s.system.workers w) := by
    refine hr.trace_inv (fun es s => Along rt .thread text s₀ es s ∧ Silent w es (s.ports w) (s.system.workers w))
      ⟨along_of_run h₀ .nil, ?_⟩ fun es s e s' h hstep => ⟨h.1.step h₀ hstep, h.2.step h.1 h₀ hstep⟩
    rw [h₀.ports]
    exact ⟨fun _ => rfl, fun he => absurd he List.not_mem_nil, fun _ he => absurd he List.not_mem_nil⟩
  exact fun success he => h.2.answered success he (h.2.promised hkill).2

end Tasks

/-! ## A run -/

/-- Before the pool starts its workers. -/
def echoes : State (Option String) := ⟨System.echoes, fun _ => ⟨[], 0, 0, [], 0⟩⟩

theorem starts_echoes : Starts .thread System.echo echoes := ⟨System.starts_echoes, fun _ => rfl⟩

/-- Two tasks for a worker that is destroyed: the second, whose function is asynchronous, is flushed from the queue. -/
def destroyTwo (outcome : KillOutcome) : List (Event (Option String)) :=
  [.system (.pool .start), .system (.worker 0 (.statistics ⟨true, false⟩)),
    .system (.pool (.execute 0 none (some "a") (.key 0))), .system (.pool (.execute 1 (some "fail") (some "b") (.key 0))),
    .system (.pool .destroy),
    .system (.deliver 0 ⟨"default", some "a", 0, 0⟩ AbstractWorker.still AbstractWorker.still),
    .system (.deliver 0 ⟨"fail", some "b", 0, 1⟩ AbstractWorker.still AbstractWorker.still),
    .takeKill 0 outcome, .system (.worker 0 (.settle 0 AbstractWorker.still)),
    .system (.reply 0 ⟨0, some (some "a"), none, some ⟨"default", 0, some 0, none⟩⟩)]

theorem system_of_destroyTwo : ∃ s, Run (Step AbstractWorker.symbols .thread System.ofText) echoes
    (destroyTwo .returned ++ [.killAnswer 0 true]) s ∧
    Run (System.Step AbstractWorker.symbols .thread System.ofText) System.echoes
      ((destroyTwo .returned ++ [Event.killAnswer 0 true]).filterMap Event.onSystem) s.system := by
  have hrun : ∃ s, Run (Step AbstractWorker.symbols .thread System.ofText) echoes
      (destroyTwo .returned ++ [.killAnswer 0 true]) s ∧ True :=
    exists_run_of_replay (f := next AbstractWorker.symbols .thread System.ofText 5)
      (fun _ _ _ => step_of_next AbstractWorker.symbols .thread System.ofText) (by decide +kernel)
  obtain ⟨s, hr, -⟩ := hrun
  exact ⟨s, hr, system_of_run starts_echoes hr⟩

theorem settled_of_killAnswer_destroyTwo : ∃ s, Run (Step AbstractWorker.symbols .thread System.ofText) echoes
    (destroyTwo .returned) s ∧ ∃ r, (0, r) ∈ s.system.pool.settled ∧ ((∃ x, r = .thrown x) ∨
      System.Computed AbstractWorker.symbols .thread System.ofText System.echoes
        ((destroyTwo .returned).filterMap Event.onSystem) 0 r) := by
  have hrun : ∃ s, Run (Step AbstractWorker.symbols .thread System.ofText) echoes (destroyTwo .returned) s ∧
      System.Known s.system.pool 0 ∧ 2 ∈ (s.ports 0).kills.head? ∧
        ⟨"default", some "a", 0, 0⟩ ∈ (s.system.pool.record 0).received.take 2 ∧
        (∀ x ∈ (s.system.workers 0).received, x.id = 0 → x.immediate AbstractWorker.symbols = true) ∧
        (next AbstractWorker.symbols .thread System.ofText 5 s (.killAnswer 0 true)).isSome = true :=
    exists_run_of_replay (f := next AbstractWorker.symbols .thread System.ofText 5)
      (fun _ _ _ => step_of_next AbstractWorker.symbols .thread System.ofText) (by decide +kernel)
  obtain ⟨s, hr, hknown, hk, ht, himmediate, hnext⟩ := hrun
  obtain ⟨s', hs'⟩ := Option.isSome_iff_exists.1 hnext
  exact ⟨s, hr, settled_of_killAnswer starts_echoes hr (step_of_next _ _ _ hs') hknown hk ht himmediate⟩

theorem abandoned_of_closed_destroyTwo : ∃ s, Run (Step AbstractWorker.symbols .thread System.ofText) echoes
    (destroyTwo .returned ++ [.killAnswer 0 true]) s ∧ ∀ r, (1, r) ∈ s.system.pool.settled → ∃ x, r = .thrown x := by
  have hrun : ∃ s, Run (Step AbstractWorker.symbols .thread System.ofText) echoes (destroyTwo .returned ++ [.killAnswer 0 true]) s ∧
      (s.system.workers 0).closed = some 1 ∧ ⟨"fail", some "b", 0, 1⟩ ∈ (s.system.pool.record 0).received ∧
        1 ∉ ((s.system.workers 0).sent.take 1).map (·.taskId) :=
    exists_run_of_replay (f := next AbstractWorker.symbols .thread System.ofText 5)
      (fun _ _ _ => step_of_next AbstractWorker.symbols .thread System.ofText) (by decide +kernel)
  obtain ⟨s, hr, hclosed, ht, hnot⟩ := hrun
  exact ⟨s, hr, abandoned_of_closed starts_echoes hr hclosed ht hnot⟩

theorem unanswered_of_promised_destroyTwo : ∃ s, Run (Step AbstractWorker.symbols .thread System.ofText) echoes
    (destroyTwo .promised ++ [.settleKill 0 true]) s ∧
    ∀ success, Event.killAnswer 0 success ∉ destroyTwo .promised ++ [.settleKill 0 true] := by
  have hrun : ∃ s, Run (Step AbstractWorker.symbols .thread System.ofText) echoes
      (destroyTwo .promised ++ [.settleKill 0 true]) s ∧ True :=
    exists_run_of_replay (f := next AbstractWorker.symbols .thread System.ofText 5)
      (fun _ _ _ => step_of_next AbstractWorker.symbols .thread System.ofText) (by decide +kernel)
  obtain ⟨s, hr, -⟩ := hrun
  have hkill : .takeKill 0 .promised ∈ destroyTwo .promised ++ [.settleKill 0 true] := by simp [destroyTwo]
  exact ⟨s, hr, unanswered_of_promised starts_echoes hr hkill⟩

end Shutdown

end Poolifier
