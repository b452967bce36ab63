import Poolifier.TaskReplies
/-!
# What a worker replies

What the reply to a task says is decided when the task is received: it is what
the function registered then returns, or the error that is sent in its place,
or there is none (`Determined`). Neither the other tasks, nor the order in which
promises settle, nor task functions that are added later have a part in it. What
is not replied to has no reply, or its promise settled too late (`Replying`).
-/

namespace Poolifier

open RunLib MapLib

namespace AbstractWorker

section Runs
variable {V : Type} {rt : Runtime V} {type : WorkerType} {s s' : State V}

def Received.id (x : Received V) : Nat := x.task.taskId

/-- The promise of a task has not settled. -/
def State.Runs (s : State V) (id : Nat) : Prop := ∃ r ∈ s.running, r.task.taskId = id

def State.repliesTo (s : State V) (id : Nat) : Nat := s.through.countP (·.taskId = id)

/-- Exactly one message with the id of the task reaches the main worker, and it has raised no uncaught exception. -/
def State.Replied (s : State V) (id : Nat) : Prop := s.repliesTo id = 1 ∧ s.uncaught ≠ some id

/-- The function of a task has come to its end, and not after the channel was closed. -/
def State.InTime (s : State V) (id : Nat) : Prop := ¬ s.Runs id ∧ id ∉ s.late

/-- What the function of a task has left behind has raised its exception, if it does. -/
def State.Strayed (rt : Runtime V) (s : State V) (x : Received V) : Prop := x.strays rt = true → s.uncaught = some x.id

/-! ## What is sent -/

/-- The message is the reply to one of the tasks. -/
def ReplyOf (rt : Runtime V) (type : WorkerType) (xs : List (Received V)) (m : MessageValue V) : Prop :=
  ∃ x ∈ xs, m.taskId = x.id ∧ ∃ r, x.reply rt type = some r ∧ m.Says r

/-- What has been sent are replies to tasks received, one for each, and what runs will be replied to as it was decided. -/
structure Determined (rt : Runtime V) (type : WorkerType) (s : State V) : Prop where
  ids : (s.received.map Received.id).Nodup
  once : (s.sent.map (·.taskId) ++ s.running.map (·.task.taskId)).Nodup
  sent : ∀ m ∈ s.sent, ReplyOf rt type s.received m
  running : ∀ r ∈ s.running, s.statistics.isSome = true ∧ ∃ x ∈ s.received, x.task = r.task ∧
    x.reply rt type = outcomeReply rt type r.task r.outcome r.data

theorem ReplyOf.mono {xs xs' : List (Received V)} {m : MessageValue V} (h : ReplyOf rt type xs m) (hxs : xs ⊆ xs') :
    ReplyOf rt type xs' m := by
  obtain ⟨x, hx, hid, hrest⟩ := h
  exact ⟨x, hxs hx, hid, hrest⟩

theorem Determined.known (h : Determined rt type s) {id : Nat}
    (hid : id ∈ s.sent.map (·.taskId) ++ s.running.map (·.task.taskId)) : id ∈ s.received.map Received.id := by
  rcases List.mem_append.1 hid with hid | hid
  · obtain ⟨m, hm, rfl⟩ := List.mem_map.1 hid
    obtain ⟨x, hx, heq, -⟩ := h.sent m hm
    exact heq ▸ List.mem_map_of_mem hx
  · obtain ⟨r, hr, rfl⟩ := List.mem_map.1 hid
    obtain ⟨-, x, hx, heq, -⟩ := h.running r hr
    exact heq ▸ List.mem_map_of_mem hx

theorem Determined.received_inj (h : Determined rt type s) {x y : Received V} (hx : x ∈ s.received) (hy : y ∈ s.received)
    (heq : x.id = y.id) : x = y :=
  List.inj_on_of_nodup_map h.ids hx hy heq

/-- A worker that is told something that is not about a task, or of whose tasks nothing more is heard. -/
theorem Determined.of_same (h : Determined rt type s)
    (hstatistics : s.statistics.isSome = true → s'.statistics.isSome = true) (hreceived : s'.received = s.received)
    (hrunning : s'.running.Sublist s.running) (hsent : s'.sent = s.sent) : Determined rt type s' := by
  refine ⟨hreceived ▸ h.ids, ?_, ?_, fun r hr => ?_⟩
  · rw [hsent]
    exact h.once.sublist ((hrunning.map _).append_left _)
  · rw [hsent, hreceived]
    exact h.sent
  · obtain ⟨hstat, hrest⟩ := h.running r (hrunning.subset hr)
    rw [hreceived]
    exact ⟨hstatistics hstat, hrest⟩

/-- A reply more, to a task that no other reply and no running function is for. -/
theorem Determined.send (h : Determined rt type s) {m : MessageValue V} (hreceived : s'.received = s.received)
    (hrunning : s'.running = s.running) (hstatistics : s'.statistics = s.statistics) (hsent : s'.sent = s.sent ++ [m])
    (hm : ReplyOf rt type s.received m) (hnew : m.taskId ∉ s.sent.map (·.taskId) ++ s.running.map (·.task.taskId)) :
    Determined rt type s' := by
  refine ⟨hreceived ▸ h.ids, ?_, fun m' hm' => ?_, ?_⟩
  · rw [hsent, hrunning, List.map_append, List.append_assoc, List.map_singleton]
    exact List.nodup_middle.2 (List.nodup_cons.2 ⟨hnew, h.once⟩)
  · rw [hreceived]
    rw [hsent] at hm'
    rcases List.mem_append.1 hm' with hm' | hm'
    · exact h.sent m' hm'
    · rw [List.mem_singleton.1 hm']
      exact hm
  · rw [hrunning, hreceived, hstatistics]
    exact h.running

theorem Determined.receive (h : Determined rt type s) {x : Received V} (hx : x.id ∉ s.received.map Received.id) :
    Determined rt type { s with received := s.received ++ [x] } := by
  refine ⟨nodup_map_concat h.ids fun y hy heq => hx (heq ▸ List.mem_map_of_mem hy), h.once, fun m hm => ?_, fun r hr => ?_⟩
  · exact (h.sent m hm).mono (List.subset_append_left _ _)
  · obtain ⟨hstat, y, hy, hrest⟩ := h.running r hr
    exact ⟨hstat, y, List.mem_append_left _ hy, hrest⟩

/-- A task with a new id, whether it raises an exception or not. -/
theorem Determined.task (h : Determined rt type s) {task : Task V} (hnew : task.taskId ∉ s.received.map Received.id)
    (start stop : Clock) : Determined rt type (s.take rt type task start stop) := by
  unfold State.take
  generalize hx : s.receives task = x
  unfold State.receives at hx
  have hid : x.id = task.taskId := by
    rw [← hx]
    rfl
  have hmem : x ∈ s.received ++ [x] := List.mem_append_right _ (List.mem_singleton.2 rfl)
  have hreceived := h.receive (x := x) (by rwa [hid])
  have hfresh : task.taskId ∉ s.sent.map (·.taskId) ++ s.running.map (·.task.taskId) := fun hknown => hnew (h.known hknown)
  rcases messageListener_concludes (s := { s with received := s.received ++ [x] }) rt type task start stop with
    ⟨-, hrun⟩ | ⟨fn, taskPerformance, hdata, hfn, hstat, -, hrun⟩ | ⟨-, hconcludes⟩
  · rw [hrun]
    exact hreceived
  · -- the function is asynchronous: what its promise will make of the task is known from now on
    rw [hrun]
    dsimp only at hfn hstat
    refine ⟨hreceived.ids, ?_, hreceived.sent, fun r hr => ?_⟩
    · simp only [State.ended, List.map_append, List.map_singleton, ← List.append_assoc]
      refine List.nodup_append'.2 ⟨h.once, List.nodup_singleton _, fun i hi hi' => ?_⟩
      rw [List.mem_singleton.1 hi'] at hi
      exact hfresh hi
    · rcases List.mem_append.1 hr with hr | hr
      · exact hreceived.running r hr
      · rw [List.mem_singleton.1 hr]
        refine ⟨hstat, x, hmem, by rw [← hx], ?_⟩
        rw [← hx, hfn, Received.reply]
        simp only [hdata, Bool.false_eq_true, if_false]
        exact if_pos hstat
  · dsimp only at hconcludes
    rw [hx] at hconcludes
    generalize messageListener rt type task start stop { s with received := s.received ++ [x] } = result at hconcludes
    generalize hreply : x.reply rt type = reply at hconcludes
    cases hconcludes with
    | @sent r s' m hmid hm hsent hkept =>
      refine hreceived.send hkept.received hkept.running hkept.statistics hsent
        ⟨x, hmem, hmid.trans hid.symm, r, hreply, hm⟩ ?_
      rw [hmid]
      exact hfresh
    | @thrown s' e hsent hkept =>
      refine hreceived.of_same (fun hs => ?_) hkept.received (by rw [← hkept.running]; exact .refl _) hsent
      rw [← hkept.statistics] at hs
      exact hs

theorem Determined.stopped (h : Determined rt type s) (i taskId : Nat) : Determined rt type (s.stopped i taskId) :=
  h.of_same (fun hs => hs) rfl (List.eraseIdx_sublist ..) rfl

theorem Determined.settle (h : Determined rt type s) {i : Nat} {r : Running V} (hr : s.running[i]? = some r) (stop : Clock) :
    Determined rt type (State.ended r.task.taskId (settle rt type r stop (s.stopped i r.task.taskId))) := by
  obtain ⟨hstat, x, hx, htask, hreply⟩ := h.running r (List.mem_of_getElem? hr)
  have hstopped := h.stopped i r.task.taskId
  rcases settle_concludes (s := s.stopped i r.task.taskId) rt type hstat r stop with
    ⟨reply, m, s', hout, hid, hm, hsent, hkept, hrun⟩ | ⟨-, s', hsent, hkept, hrun⟩
  · rw [hrun]
    refine hstopped.send hkept.received hkept.running hkept.statistics hsent
      ⟨x, hx, hid.trans (congrArg Task.taskId htask).symm, reply, hreply.trans hout, hm⟩ ?_
    -- no task runs twice, and none that runs has been replied to
    rw [hid, List.mem_append, not_or]
    have hdisjoint := (List.nodup_append'.1 h.once).2.2
    refine ⟨fun hsent => hdisjoint hsent (List.mem_map_of_mem (List.mem_of_getElem? hr)), fun hrunning => ?_⟩
    obtain ⟨r', hr', heq⟩ := List.mem_map.1 hrunning
    exact ne_of_mem_eraseIdx (f := (·.task.taskId)) (List.nodup_append'.1 h.once).2.1 hr hr' heq
  · rw [hrun]
    refine hstopped.of_same (fun hs => ?_) hkept.received (by rw [← hkept.running]; exact .refl _) hsent
    rw [← hkept.statistics] at hs
    exact hs

theorem Determined.step {e : Event V} (h : Determined rt type s) (ht : Step rt type s e s') : Determined rt type s' := by
  cases (does_of_step ht).2.2 with
  | told _ _ htold => exact h.of_same htold.statistics htold.received (htold.running ▸ .refl _) htold.sent
  | task start stop hnew => exact h.task hnew start stop
  | settle stop hr => exact h.settle hr stop
  | @cut i r _ _ _ => exact (h.stopped i r.task.taskId).of_same (fun hs => hs) rfl (.refl _) rfl
  | stray _ _ => exact h.of_same (fun hs => hs) rfl (.refl _) rfl

theorem determined_created (rt : Runtime V) (type : WorkerType) (taskFunctions : String → Option (TaskFunction V)) :
    Determined rt type (created taskFunctions) :=
  ⟨List.nodup_nil, List.nodup_nil, List.forall_mem_nil _, List.forall_mem_nil _⟩

/-! ## What is replied to -/

theorem through_of_open (h : s.closed = none) : s.through = s.sent := by
  unfold State.through
  rw [h]

theorem through_of_closed {n : Nat} (h : s.closed = some n) : s.through = s.sent.take n := by
  unfold State.through
  rw [h]

theorem through_initial (s : State V) : s.through <+: s.sent := by
  unfold State.through
  split
  · exact List.prefix_rfl
  · exact List.take_prefix ..

/-- What is sent once the channel is closed does not reach the main worker. -/
theorem through_append {messages : List (MessageValue V)} {n : Nat} (h : s.closed = some n) (hn : n ≤ s.sent.length)
    (hclosed : s'.closed = s.closed) (hsent : s'.sent = s.sent ++ messages) : s'.through = s.through := by
  rw [through_of_closed (hclosed.trans h), through_of_closed h, hsent, List.take_append_of_le_length hn]

/-- What has come to its end and is not replied to has no reply, or came to its end once the channel was closed; and what
was then sent did not reach the main worker. -/
structure Replying (rt : Runtime V) (type : WorkerType) (s : State V) : Prop where
  complete : ∀ x ∈ s.received, ¬ s.Runs x.id →
    x.id ∈ s.sent.map (·.taskId) ∨ x.id ∈ s.late ∨ x.reply rt type = none
  closed : ∀ n, s.closed = some n → n ≤ s.sent.length
  onTime : s.closed = none → s.late = []
  inTime : ∀ m ∈ s.sent, m ∈ s.through ∨ m.taskId ∈ s.late
  tooLate : ∀ m ∈ s.through, m.taskId ∉ s.late
  uncaught : ∀ x ∈ s.received, s.uncaught = some x.id →
    x.strays rt = true ∨ x.id ∈ s.late ∨ x.reply rt type = none

theorem runs_of_running (h : s'.running = s.running) (id : Nat) : s'.Runs id ↔ s.Runs id := by
  unfold State.Runs
  rw [h]

theorem Replying.told {closes : Bool} (h : Replying rt type s) (htold : Told closes s s') : Replying rt type s' := by
  have hthrough : s'.through = s.through := by
    rcases htold.closed with hclosed | ⟨-, hopen, hclosed⟩
    · unfold State.through
      rw [hclosed, htold.sent]
    · rw [through_of_closed hclosed, through_of_open hopen, htold.sent, List.take_length]
  refine ⟨fun x hx hruns => ?_, fun n hn => ?_, fun hopen => ?_, ?_, ?_, fun x hx hcaught => ?_⟩
  · rw [htold.sent, htold.late]
    exact h.complete x (htold.received ▸ hx) fun hx => hruns ((runs_of_running htold.running _).2 hx)
  · rw [htold.sent]
    rcases htold.closed with hclosed | ⟨-, -, hclosed⟩
    · exact h.closed n (hclosed ▸ hn)
    · rw [hclosed] at hn
      cases hn
      exact Nat.le_refl _
  · rw [htold.late]
    rcases htold.closed with hclosed | ⟨-, -, hclosed⟩
    · exact h.onTime (hclosed ▸ hopen)
    · rw [hclosed] at hopen
      cases hopen
  · rw [htold.sent, hthrough, htold.late]
    exact h.inTime
  · rw [hthrough, htold.late]
    exact h.tooLate
  · rw [htold.late]
    exact h.uncaught x (htold.received ▸ hx) (htold.uncaught ▸ hcaught)

/-- A task has been received: it runs, or has been replied to, or has no reply. -/
theorem Replying.receive (h : Replying rt type s) (hopen : s.closed = none) {x : Received V} (messages : List (MessageValue V))
    (hreceived : s'.received = s.received ++ [x]) (hruns : ∀ id, s.Runs id → s'.Runs id)
    (hsent : s'.sent = s.sent ++ messages) (hclosed : s'.closed = s.closed) (hlate : s'.late = s.late)
    (hdone : ¬ s'.Runs x.id → x.id ∈ messages.map (·.taskId) ∨ x.reply rt type = none)
    (huncaught : ∀ y ∈ s'.received, s'.uncaught = some y.id → y.reply rt type = none) : Replying rt type s' := by
  have hopen' : s'.closed = none := hclosed.trans hopen
  have hempty : s'.late = [] := hlate.trans (h.onTime hopen)
  have hthrough : s'.through = s'.sent := through_of_open hopen'
  refine ⟨fun y hy hgone => ?_, fun n hn => ?_, fun _ => hempty, fun m hm => ?_, fun m _ => ?_, fun y hy hcaught => ?_⟩
  · -- the tasks received before are as they were, and this one is done or runs
    rw [hsent, List.map_append, List.mem_append]
    rw [hreceived] at hy
    rcases List.mem_append.1 hy with hy | hy
    · rw [hlate]
      exact (h.complete y hy fun hy => hgone (hruns _ hy)).imp Or.inl id
    · rw [List.mem_singleton.1 hy] at hgone ⊢
      exact (hdone hgone).imp Or.inr Or.inr
  · rw [hopen'] at hn
    cases hn
  · rw [hthrough]
    exact .inl hm
  · rw [hempty]
    exact List.not_mem_nil
  · exact .inr (.inr (huncaught y hy hcaught))

/-- A task message, in an open channel. -/
theorem Replying.task (h : Replying rt type s) (hopen : s.closed = none) (hnone : s.uncaught = none)
    (hids : (s.received.map Received.id).Nodup) {task : Task V} (hnew : task.taskId ∉ s.received.map Received.id)
    (start stop : Clock) : Replying rt type (s.take rt type task start stop) := by
  unfold State.take
  generalize hx : s.receives task = x
  unfold State.receives at hx
  have hid : x.id = task.taskId := by
    rw [← hx]
    rfl
  rcases messageListener_concludes (s := { s with received := s.received ++ [x] }) rt type task start stop with
    ⟨hdata, hrun⟩ | ⟨fn, taskPerformance, -, -, -, -, hrun⟩ | ⟨-, hconcludes⟩
  · rw [hrun]
    refine h.receive hopen [] rfl (fun id hs => hs) (List.append_nil _).symm rfl rfl (fun _ => .inr ?_) ?_
    · rw [← hx]
      exact if_pos hdata
    · intro y _ hcaught
      exact absurd (hnone.symm.trans hcaught) nofun
  · -- the function is asynchronous, and runs from now on
    rw [hrun]
    refine h.receive hopen [] rfl ?_ (List.append_nil _).symm rfl rfl (fun hgone => ?_) ?_
    · rintro id ⟨r, hr, hrid⟩
      exact ⟨r, List.mem_append_left _ hr, hrid⟩
    · exact absurd ⟨_, List.mem_append_right _ (List.mem_singleton.2 rfl), hid.symm⟩ hgone
    · intro y _ hcaught
      exact absurd (hnone.symm.trans hcaught) nofun
  · dsimp only at hconcludes
    rw [hx] at hconcludes
    generalize messageListener rt type task start stop { s with received := s.received ++ [x] } = result at hconcludes
    generalize hreply : x.reply rt type = reply at hconcludes
    cases hconcludes with
    | @sent r s' m hmid hm hsent hkept =>
      refine h.receive hopen [m] hkept.received (fun id => (runs_of_running hkept.running id).2) hsent
        hkept.closed hkept.late (fun _ => .inl ?_) ?_
      · rw [List.map_singleton, List.mem_singleton, hmid, hid]
      · intro y _ hcaught
        exact absurd (hnone.symm.trans (hkept.uncaught.symm.trans hcaught)) nofun
    | @thrown s' e hsent hkept =>
      -- there is no reply, and the exception ends the worker
      show Replying rt type { s' with uncaught := some task.taskId }
      refine h.receive hopen [] hkept.received
        (fun id => (runs_of_running hkept.running id).2) (by rw [List.append_nil]; exact hsent) hkept.closed hkept.late
        (fun _ => .inr hreply) ?_
      intro y hy hcaught
      have hyid : y.id = x.id := (Option.some.inj hcaught).symm.trans hid.symm
      have hnodup : ((s.received ++ [x]).map Received.id).Nodup :=
        nodup_map_concat hids fun z hz heq => hnew (hid ▸ heq ▸ List.mem_map_of_mem hz)
      have hy' : y ∈ s.received ++ [x] := by
        rw [← show s'.received = s.received ++ [x] from hkept.received]
        exact hy
      have heq : y = x := List.inj_on_of_nodup_map hnodup hy' (List.mem_append_right _ (List.mem_singleton.2 rfl)) hyid
      rw [heq]
      exact hreply

theorem stopped_late_of_closed (h : s.closed.isSome = true) (i taskId : Nat) : (s.stopped i taskId).late = s.late ++ [taskId] :=
  if_pos h

theorem stopped_late_of_open (h : s.closed = none) (i taskId : Nat) : (s.stopped i taskId).late = s.late :=
  if_neg (by rw [h]; exact Bool.false_ne_true)

theorem late_subset_stopped (s : State V) (i taskId : Nat) : s.late ⊆ (s.stopped i taskId).late := by
  unfold State.stopped
  split
  · exact List.subset_append_left _ _
  · exact List.Subset.refl _

/-- What ran and runs no more is the task whose promise has settled. -/
theorem runs_stopped {i : Nat} {r : Running V} (hr : s.running[i]? = some r) {id : Nat} (h : s.Runs id) :
    (s.stopped i r.task.taskId).Runs id ∨ id = r.task.taskId := by
  obtain ⟨r', hr', hid⟩ := h
  rcases eq_or_mem_eraseIdx hr hr' with rfl | hr'
  · exact .inr hid.symm
  · exact .inl ⟨r', hr', hid⟩

/-- The promise of a task has settled: it has been replied to, or is late, or has no reply. -/
theorem Replying.settled (h : Replying rt type s) (hdet : Determined rt type s) {i : Nat} {r : Running V}
    (hr : s.running[i]? = some r) (messages : List (MessageValue V)) (hmessages : ∀ m ∈ messages, m.taskId = r.task.taskId)
    (hreceived : s'.received = s.received) (hrunning : s'.running = (s.stopped i r.task.taskId).running)
    (hsent : s'.sent = s.sent ++ messages) (hclosed : s'.closed = s.closed)
    (hlate : s'.late = (s.stopped i r.task.taskId).late)
    (hdone : ∀ x ∈ s.received, x.id = r.task.taskId →
      x.id ∈ messages.map (·.taskId) ∨ x.id ∈ s'.late ∨ x.reply rt type = none)
    (huncaught : ∀ id, s'.uncaught = some id → id ∈ s'.late) : Replying rt type s' := by
  have hsub : s.late ⊆ s'.late := by
    rw [hlate]
    exact late_subset_stopped ..
  refine ⟨fun x hx hgone => ?_, fun n hn => ?_, fun hopen => ?_, fun m hm => ?_, fun m hm hml => ?_, fun x _ hcaught => ?_⟩
  · rw [hreceived] at hx
    rw [hsent, List.map_append, List.mem_append]
    by_cases hid : x.id = r.task.taskId
    · exact (hdone x hx hid).imp Or.inr fun h => h
    · -- another task is as far as it was
      have hgone' : ¬ s.Runs x.id := fun hruns =>
        (runs_stopped hr hruns).elim (fun hruns => hgone ((runs_of_running hrunning _).2 hruns)) hid
      rcases h.complete x hx hgone' with hs | hl | hnone
      · exact .inl (.inl hs)
      · exact .inr (.inl (hsub hl))
      · exact .inr (.inr hnone)
  · rw [hsent, List.length_append]
    have hle := h.closed n (hclosed ▸ hn)
    omega
  · have hopen' : s.closed = none := hclosed ▸ hopen
    rw [hlate, stopped_late_of_open hopen']
    exact h.onTime hopen'
  · rcases hc : s.closed with _ | n
    · rw [through_of_open (hclosed.trans hc)]
      exact .inl hm
    · -- what is sent now is late
      rw [through_append hc (h.closed n hc) hclosed hsent]
      rw [hsent] at hm
      rcases List.mem_append.1 hm with hm | hm
      · exact (h.inTime m hm).imp id fun hm => hsub hm
      · rw [hmessages m hm, hlate, stopped_late_of_closed (by rw [hc]; rfl)]
        exact .inr (List.mem_append_right _ (List.mem_singleton.2 rfl))
  · rcases hc : s.closed with _ | n
    · rw [hlate, stopped_late_of_open hc, h.onTime hc] at hml
      exact absurd hml List.not_mem_nil
    · rw [through_append hc (h.closed n hc) hclosed hsent] at hm
      rw [hlate, stopped_late_of_closed (by rw [hc]; rfl)] at hml
      rcases List.mem_append.1 hml with hml | hml
      · exact h.tooLate m hm hml
      · -- nothing has been sent about a task that runs
        have hmem : m.taskId ∈ s.sent.map (·.taskId) := List.mem_map_of_mem ((through_initial s).subset hm)
        rw [List.mem_singleton.1 hml] at hmem
        exact (List.nodup_append'.1 hdet.once).2.2 hmem (List.mem_map_of_mem (List.mem_of_getElem? hr))
  · exact .inr (.inl (huncaught _ hcaught))

theorem Replying.settle (h : Replying rt type s) (hdet : Determined rt type s) (hnone : s.uncaught = none) {i : Nat}
    {r : Running V} (hr : s.running[i]? = some r) (stop : Clock) :
    Replying rt type (State.ended r.task.taskId (settle rt type r stop (s.stopped i r.task.taskId))) := by
  obtain ⟨hstat, x, hx, htask, hreply⟩ := hdet.running r (List.mem_of_getElem? hr)
  have hnot (s' : State V) (hs' : s'.uncaught = s.uncaught) (id : Nat) : s'.uncaught = some id → id ∈ s'.late := by
    rw [hs', hnone]
    exact nofun
  rcases settle_concludes (s := s.stopped i r.task.taskId) rt type hstat r stop with
    ⟨reply, m, s', -, hid, -, hsent, hkept, hrun⟩ | ⟨hout, s', hsent, hkept, hrun⟩
  · rw [hrun]
    refine h.settled hdet hr [m] (fun m' hm' => ?_) hkept.received hkept.running hsent hkept.closed
      hkept.late (fun y _ hy => .inl ?_) (hnot _ hkept.uncaught)
    · rw [List.mem_singleton.1 hm', hid]
    · rw [List.map_singleton, List.mem_singleton, hy, hid]
  · rw [hrun]
    refine h.settled hdet hr [] (List.forall_mem_nil _) hkept.received hkept.running
      (hsent.trans (List.append_nil _).symm) hkept.closed hkept.late (fun y hy hyid => .inr (.inr ?_)) (hnot _ hkept.uncaught)
    have heq : y = x := hdet.received_inj hy hx (hyid.trans (congrArg Task.taskId htask).symm)
    rw [heq, hreply, hout]

/-- The promise of a task has settled after the channel was closed, and has ended the worker. -/
theorem Replying.cut (h : Replying rt type s) (hdet : Determined rt type s) {i : Nat} {r : Running V}
    (hr : s.running[i]? = some r) (hclosed : s.closed.isSome = true) :
    Replying rt type { s.stopped i r.task.taskId with uncaught := some r.task.taskId } := by
  have hlate : r.task.taskId ∈ (s.stopped i r.task.taskId).late := by
    rw [stopped_late_of_closed hclosed]
    exact List.mem_append_right _ (List.mem_singleton.2 rfl)
  refine h.settled hdet hr [] (List.forall_mem_nil _) rfl rfl (List.append_nil _).symm rfl rfl
    (fun x _ hid => .inr (.inl (hid ▸ hlate))) fun id hid => ?_
  cases hid
  exact hlate

theorem Replying.stray (h : Replying rt type s) (hdet : Determined rt type s) {x : Received V} (hx : x ∈ s.received)
    (hstrays : x.strays rt = true) : Replying rt type { s with uncaught := some x.task.taskId } := by
  refine ⟨h.complete, h.closed, h.onTime, h.inTime, h.tooLate, fun y hy hcaught => .inl ?_⟩
  have heq : y = x := hdet.received_inj hy hx (Option.some.inj hcaught).symm
  rw [heq]
  exact hstrays

theorem Replying.step {e : Event V} (h : Replying rt type s) (hdet : Determined rt type s) (ht : Step rt type s e s') :
    Replying rt type s' := by
  obtain ⟨hnone, hopen, hdoes⟩ := does_of_step ht
  cases hdoes with
  | told _ _ htold => exact h.told htold
  | task start stop hnew => exact h.task (hopen rfl) hnone hdet.ids hnew start stop
  | settle stop hr => exact h.settle hdet hnone hr stop
  | cut _ hr hclosed => exact h.cut hdet hr hclosed
  | stray hx hstrays => exact h.stray hdet hx hstrays

theorem replying_created (rt : Runtime V) (type : WorkerType) (taskFunctions : String → Option (TaskFunction V)) :
    Replying rt type (created taskFunctions) := by
  refine ⟨List.forall_mem_nil _, fun n hn => ?_, fun _ => rfl, List.forall_mem_nil _, List.forall_mem_nil _,
    List.forall_mem_nil _⟩
  cases hn

theorem replying_of_run {taskFunctions : String → Option (TaskFunction V)} {es : List (Event V)}
    (h : Run (Step rt type) (created taskFunctions) es s) : Determined rt type s ∧ Replying rt type s := by
  refine h.inv (fun s => Determined rt type s ∧ Replying rt type s)
    ⟨determined_created rt type taskFunctions, replying_created rt type taskFunctions⟩ fun s _ s' hs ht => ?_
  exact ⟨hs.1.step ht, hs.2.step hs.1 ht⟩

theorem Determined.repliesTo_eq_one_iff (h : Determined rt type s) (id : Nat) :
    s.repliesTo id = 1 ↔ id ∈ s.through.map (·.taskId) := by
  have hnodup : (s.through.map (·.taskId)).Nodup :=
    (List.nodup_append'.1 h.once).1.sublist ((through_initial s).sublist.map _)
  have hcount : s.repliesTo id = (s.through.map (·.taskId)).count id := by
    rw [List.count, List.countP_map]
    unfold State.repliesTo
    congr 1
  rw [hcount]
  refine ⟨fun hone => List.count_pos_iff.1 (by omega), fun hmem => List.count_eq_one_of_mem hnodup hmem⟩

/-- A task has been replied to exactly once, without an uncaught exception, if and only if it can be answered and its
function has come to its end in time. -/
theorem replied_once_iff {taskFunctions : String → Option (TaskFunction V)} {es : List (Event V)}
    (h : Run (Step rt type) (created taskFunctions) es s) {x : Received V} (hx : x ∈ s.received)
    (hstat : x.statistics = true) (hstrayed : s.Strayed rt x) :
    s.Replied x.id ↔ x.Answerable rt type ∧ s.InTime x.id := by
  obtain ⟨hdet, hreplying⟩ := replying_of_run h
  unfold State.Replied State.InTime
  rw [hdet.repliesTo_eq_one_iff, Received.answerable_iff rt type x hstat]
  constructor
  · rintro ⟨hsent, hcaught⟩
    obtain ⟨m, hm, hid⟩ := List.mem_map.1 hsent
    have hmem := (through_initial s).subset hm
    obtain ⟨y, hy, hyid, r, hr, -⟩ := hdet.sent m hmem
    have heq : y = x := hdet.received_inj hy hx (hyid.symm.trans hid)
    rw [heq] at hr
    refine ⟨⟨by rw [hr]; rfl, ?_⟩, fun hruns => ?_, hid ▸ hreplying.tooLate m hm⟩
    · rw [← Bool.not_eq_true]
      exact fun hs => hcaught (hstrayed hs)
    · obtain ⟨r', hr', hrid⟩ := hruns
      refine (List.nodup_append'.1 hdet.once).2.2 (List.mem_map_of_mem hmem) ?_
      exact List.mem_map.2 ⟨r', hr', hrid.trans hid.symm⟩
  · -- of the ways to come to an end, and to end the worker, only the reply is left
    rintro ⟨⟨hsome, hstrays⟩, hgone, hlate⟩
    have hreply : x.reply rt type ≠ none := Option.isSome_iff_ne_none.1 hsome
    constructor
    · rcases hreplying.complete x hx hgone with hsent | hl | hnone
      · obtain ⟨m, hm, hid⟩ := List.mem_map.1 hsent
        refine List.mem_map.2 ⟨m, (hreplying.inTime m hm).resolve_right ?_, hid⟩
        rw [hid]
        exact hlate
      · exact absurd hl hlate
      · exact absurd hnone hreply
    · intro hcaught
      rcases hreplying.uncaught x hx hcaught with hs | hl | hnone
      · rw [hstrays] at hs
        cases hs
      · exact hlate hl
      · exact hreply hnone

end Runs

/-! ## Symbols -/

/-- Strings, and a symbol, which cannot be cloned. -/
def symbols : Runtime (Option String) where
  ofString := some
  ofError _ := some "Error"
  instanceofError v := .ok (v = some "DataCloneError")
  readMessage _ := .ok (some "Symbol() could not be cloned.")
  isNullish _ := false
  clone v := if v.isSome then .ok () else .error (some "DataCloneError")
  copy := id
  clone_ofString _ := rfl

def still : Clock := ⟨0, fun _ => ⟨0, 0, 0⟩⟩

instance {V : Type} (s : State V) (id : Nat) : Decidable (s.Runs id) :=
  inferInstanceAs (Decidable (∃ r ∈ s.running, r.task.taskId = id))

instance {V : Type} (s : State V) (id : Nat) : Decidable (s.Replied id) :=
  inferInstanceAs (Decidable (s.repliesTo id = 1 ∧ s.uncaught ≠ some id))

instance {V : Type} (rt : Runtime V) (s : State V) (x : Received V) : Decidable (s.Strayed rt x) :=
  inferInstanceAs (Decidable (x.strays rt = true → s.uncaught = some x.id))

/-- A function returns a symbol: the error is sent in its place. -/
theorem replied_once_symbol : ∃ s,
    Run (Step symbols .thread) (created fun _ => some ⟨false, fun _ => .ok none, id, fun _ => false⟩)
      [.statistics ⟨true, true⟩, .task ⟨none, 0, some "data"⟩ still still] s ∧
      ∃ x ∈ s.received, s.Replied x.id ∧ x.Answerable symbols .thread := by
  have h : (replay (next symbols .thread) (created fun _ => some ⟨false, fun _ => .ok none, id, fun _ => false⟩)
      [.statistics ⟨true, true⟩, .task ⟨none, 0, some "data"⟩ still still]).any (fun s => decide
        (∃ x ∈ s.received, x.statistics = true ∧ s.Strayed symbols x ∧ s.Replied x.id)) = true := by
    decide +kernel
  obtain ⟨s, hr, x, hx, hstat, hstrayed, hreplied⟩ := exists_run_of_replay
    (P := fun s : State (Option String) => ∃ x ∈ s.received, x.statistics = true ∧ s.Strayed symbols x ∧ s.Replied x.id)
    (fun _ _ _ hs => hs) h
  exact ⟨s, hr, x, hx, hreplied, ((replied_once_iff hr hx hstat hstrayed).1 hreplied).1⟩

/-- An asynchronous function throws a symbol: nothing is sent. -/
theorem rejection_without_reply : ¬ ∀ (V : Type) (rt : Runtime V) (type : WorkerType)
    (taskFunctions : String → Option (TaskFunction V)) (es : List (Event V)) (s : State V),
    Run (Step rt type) (created taskFunctions) es s →
      ∀ x ∈ s.received, x.statistics = true → ¬ s.Runs x.id → s.Strayed rt x → s.Replied x.id := by
  intro h
  have hrun : (replay (next symbols .thread) (created fun _ => some ⟨true, fun _ => .error none, id, fun _ => false⟩)
      [.statistics ⟨true, true⟩, .task ⟨none, 0, some "data"⟩ still still, .settle 0 still]).any (fun s => decide
        (∃ x ∈ s.received, x.statistics = true ∧ ¬ s.Runs x.id ∧ s.Strayed symbols x ∧ ¬ s.Replied x.id)) = true := by
    decide +kernel
  obtain ⟨s, hr, x, hx, hstat, hdone, hstrayed, hnot⟩ := exists_run_of_replay
    (P := fun s : State (Option String) => ∃ x ∈ s.received, x.statistics = true ∧ ¬ s.Runs x.id ∧ s.Strayed symbols x ∧ ¬ s.Replied x.id)
    (fun _ _ _ hs => hs) hrun
  exact hnot (h _ _ _ _ _ s hr x hx hstat hdone hstrayed)

end AbstractWorker

end Poolifier
