import Poolifier.EndToEnd
import Poolifier.Leaving
/-!
# Replies that have been handled

A reply that the pool handles while the worker's node is still in the pool ends
the promise of its task, whichever key the promise names. A reply that comes
when the node has left is refused.
-/

namespace Poolifier

open EffLib RunLib

namespace System

/-- The node of the worker is in the pool. -/
def Known {V : Type} (p : Pool V V) (w : Nat) : Prop := ∃ n ∈ p.workerNodes, n.info.id = w

instance {V : Type} (p : Pool V V) (w : Nat) : Decidable (Known p w) := inferInstanceAs (Decidable (∃ _ ∈ _, _))

section Handled
variable {V : Type} {rt : AbstractWorker.Runtime V} {type : WorkerType} {text : V → String} {s₀ s s' : State V}
  {es : List (Event V)} {e : Event V} {taskFunctions : String → Option (AbstractWorker.TaskFunction V)} {w : Nat}

/-- A node that is in the pool has been in it, or has joined. -/
theorem Known.of_step {p p' : Pool V V} {pe : Poolifier.Event V V} (h : Known p' w) (hstep : Poolifier.Step p pe p') :
    Known p w ∨ p.nextWorkerId ≤ w := by
  obtain ⟨n, hn, rfl⟩ := h
  by_cases hexit : ∃ w', pe = .exit w'
  · obtain ⟨w', rfl⟩ := hexit
    obtain ⟨-, fuel, now, r, hm⟩ := hstep
    rcases wp_any (removeWorkerNode_exited w' { p with now }) hm with rfl | ⟨a, -, rfl⟩
    · exact .inl ⟨n, hn, rfl⟩
    · exact .inl ⟨n, List.eraseIdx_subset hn, rfl⟩
  · have hjoins := ((step_outlined hstep).joins fun w' he => hexit ⟨w', he⟩).ids
    have hids : n.info.id ∈ p'.outline.nodes.map (·.id) := by
      rw [Pool.outline, List.map_map]
      exact List.mem_map_of_mem (f := fun n : WorkerNode V => n.outline.id) hn
    rw [hjoins, List.mem_append] at hids
    rcases hids with hid | hid
    · rw [Pool.outline, List.map_map] at hid
      obtain ⟨a, ha, heq⟩ := List.mem_map.1 hid
      exact .inl ⟨a, ha, heq⟩
    · exact .inr (List.mem_range'_1.1 hid).1

/-- A node leaves the pool by the exit of its worker alone. -/
theorem Known.step {p p' : Pool V V} {pe : Poolifier.Event V V} (h : Known p w) (hstep : Poolifier.Step p pe p') (hne : pe ≠ .exit w) :
    Known p' w := by
  obtain ⟨n, hn, rfl⟩ := h
  by_cases hexit : ∃ w', pe = .exit w'
  · obtain ⟨w', rfl⟩ := hexit
    obtain ⟨-, fuel, now, r, hm⟩ := hstep
    rcases wp_any (removeWorkerNode_exited w' { p with now }) hm with rfl | ⟨a, ha, rfl⟩
    · exact ⟨n, hn, rfl⟩
    · rcases Pool.mem_removeNode (s := { p with now }) ha hn with rfl | hmem
      · have hid : n.info.id = w' := Pool.id_of_key ha
        exact absurd (congrArg Poolifier.Event.exit hid.symm) hne
      · exact ⟨n, hmem, rfl⟩
  · have hjoins := ((step_outlined hstep).joins fun w' he => hexit ⟨w', he⟩).ids
    have hids : n.info.id ∈ p'.outline.nodes.map (·.id) := by
      rw [hjoins, List.mem_append]
      left
      rw [Pool.outline, List.map_map]
      exact List.mem_map_of_mem (f := fun n : WorkerNode V => n.outline.id) hn
    rw [Pool.outline, List.map_map] at hids
    obtain ⟨n', hn', heq⟩ := List.mem_map.1 hids
    exact ⟨n', hn', heq⟩

/-- What a worker has sent is about a task that it has been posted. -/
theorem Linked.posted_of_sent (h : Linked rt type text s₀ es s) (h₀ : Starts type taskFunctions s₀)
    {m : AbstractWorker.MessageValue V} (hm : m ∈ (s.workers w).sent) :
    ∃ t ∈ (s.pool.record w).received, t.taskId = m.taskId := by
  obtain ⟨x, hx, hid, -⟩ := (h.determined h₀ w).sent m hm
  obtain ⟨t, ht, htask⟩ := List.mem_map.1 ((h.received w).subset (List.mem_map_of_mem hx))
  exact ⟨t, ht, (congrArg AbstractWorker.Task.taskId htask).trans hid.symm⟩

/-- A worker that has sent something and whose node is in the pool has been in it before. -/
theorem Linked.known_before (h : Linked rt type text s₀ es s) (h₀ : Starts type taskFunctions s₀) {pe : Poolifier.Event V V}
    {p : Pool V V} (hstep : Poolifier.Step s.pool pe p) (hp : Known p w) {m : AbstractWorker.MessageValue V}
    (hm : m ∈ (s.workers w).sent) : Known s.pool w := by
  refine (hp.of_step hstep).resolve_right fun hle => ?_
  obtain ⟨t, ht, -⟩ := h.posted_of_sent h₀ hm
  rcases record_cases s.pool w with hnone | ⟨n, hn, hid, -⟩
  · rw [hnone] at ht
    cases ht
  · have hbelow := (h.distinct h₀.pool).below n hn
    omega

/-- Replies that have been handled are to messages that are no longer unanswered, if the node is in the pool. -/
def Answered (s : State V) : Prop :=
  ∀ w, Known s.pool w → ∀ m ∈ (s.workers w).sent.take (s.handled w), ∀ t ∈ (s.pool.record w).unanswered, t.taskId ≠ m.taskId

/-- Messages that have been posted anew are to tasks of which nothing has been heard. -/
theorem Linked.answered_post (h : Linked rt type text s₀ es s) (h₀ : Starts type taskFunctions s₀) {pe : Poolifier.Event V V}
    {p : Pool V V} (hstep : Poolifier.Step s.pool pe p) {m : AbstractWorker.MessageValue V} (hm : m ∈ (s.workers w).sent)
    (hold : ∀ t ∈ ((s.pool.taken pe).record w).unanswered, t.taskId ≠ m.taskId) :
    ∀ t ∈ (p.record w).unanswered, t.taskId ≠ m.taskId := by
  have hd := h.distinct h₀.pool
  obtain ⟨new, hnew⟩ := record_of_step hd hstep w
  intro t ht
  rw [hnew, Worker.post] at ht
  rcases List.mem_append.1 ht with ht | ht
  · exact hold t ht
  · intro heq
    obtain ⟨t', ht', hid⟩ := h.posted_of_sent h₀ hm
    have hreceived : ((s.pool.taken pe).record w).received = (s.pool.record w).received := by
      rcases record_taken hd pe w with heq | ⟨m, -, heq⟩ <;> rw [heq]
    have hnodup := record_nodup (issued_of_run h₀.pool (h.pool.step hstep)) w
    rw [hnew, Worker.post, hreceived, List.map_append] at hnodup
    have hold : m.taskId ∈ (s.pool.record w).received.map (·.taskId) := List.mem_map.2 ⟨t', ht', hid⟩
    exact (List.nodup_append'.1 hnodup).2.2 hold (List.mem_map.2 ⟨t, ht, heq⟩)

/-- What is left has another id than what has been taken off. -/
theorem ne_of_mem_eraseP {l : List (Task V)} {i : Nat} (h : (l.map (·.taskId)).Nodup) {t : Task V}
    (ht : t ∈ l.eraseP (·.taskId == i)) : t.taskId ≠ i := by
  induction l with
  | nil => cases ht
  | cons a l ih =>
    rw [List.map_cons, List.nodup_cons] at h
    by_cases ha : a.taskId = i
    · rw [List.eraseP_cons_of_pos (by simpa using ha)] at ht
      exact fun heq => h.1 (List.mem_map.2 ⟨t, ht, heq.trans ha.symm⟩)
    · rw [List.eraseP_cons_of_neg (by simpa using ha)] at ht
      rcases List.mem_cons.1 ht with rfl | ht
      · exact ha
      · exact ih h.2 ht

/-- The worker does something, and the pool nothing. -/
theorem Answered.withWorker (hs : Answered s) (h : Linked rt type text s₀ es s) {x : AbstractWorker.State V}
    (hsent : (s.workers w).sent <+: x.sent) : Answered (s.withWorker w x) := by
  intro w' hknown m hm t ht
  by_cases hw : w' = w
  · subst hw
    rw [s.withWorker_self] at hm
    have hm' : m ∈ x.sent.take (s.handled w') := hm
    rw [take_eq_take hsent (h.handled_sent w')] at hm'
    exact hs w' hknown m hm' t ht
  · rw [s.withWorker_of_ne hw] at hm
    exact hs w' hknown m hm t ht

theorem Answered.step (hs : Answered s) (h : Linked rt type text s₀ es s) (h₀ : Starts type taskFunctions s₀)
    (hstep : Step rt type text s e s') : Answered s' := by
  have hd := h.distinct h₀.pool
  cases hstep with
  | @pool pe p hnot hp =>
    intro w hknown m hm
    have hsent := List.mem_of_mem_take hm
    refine h.answered_post h₀ hp hsent ?_
    have htaken : s.pool.taken pe = s.pool := by
      unfold Pool.taken
      split
      · cases hnot
      · rfl
    rw [htaken]
    exact hs w (h.known_before h₀ hp hknown hsent) m hm
  | worker _ hw => exact hs.withWorker h (AbstractWorker.step_logs (h.determined h₀ _) hw).sent
  | deliver start stop _ _ => exact hs.withWorker h (AbstractWorker.take_logs rt type _ _ start stop).sent
  | @reply w₁ m₁ p hm₁ hp =>
    intro w hknown m hm
    have hmoves := h.movesPool h₀ (.reply hm₁ hp)
    have hstep := hmoves.moves _ rfl
    have hsent : m ∈ (s.workers w).sent := List.mem_of_mem_take hm
    have hbefore := h.known_before h₀ hstep hknown hsent
    refine h.answered_post h₀ hstep hsent fun t ht => ?_
    by_cases hw : w₁ = w
    · subst hw
      obtain ⟨n, hn, hid⟩ := hbefore
      have hkey : s.pool.workerNodes[s.pool.getWorkerNodeKeyByWorkerId w₁]? = some n :=
        hid ▸ Pool.node_of_key (List.nodup_append'.1 (List.map_append ▸ hd.ids)).1 hn
      rw [record_taken_self hd hkey] at ht
      have hmem := List.mem_of_mem_eraseP ht
      dsimp only at hm
      rw [Function.update_self, List.take_add_one, List.mem_append] at hm
      rcases hm with hm | hm
      · exact hs w₁ ⟨n, hn, hid⟩ m hm t hmem
      · -- the message that has been taken off was the only one with its id
        obtain rfl : m = m₁ := by
          rw [sent_of_unhandled hm₁] at hm
          exact List.mem_singleton.1 hm
        intro heq
        have hnodup : ((s.pool.record w₁).unanswered.map (·.taskId)).Nodup :=
          (record_nodup (issued_of_run h₀.pool h.pool) w₁).sublist ((unanswered_sublist h₀.pool h.pool w₁).map _)
        exact ne_of_mem_eraseP hnodup ht heq
    · have hsame : ((s.pool.taken (.message w₁ (.taskResponse (m₁.response rt text)))).record w) = s.pool.record w := by
        rcases record_taken hd (.message w₁ (.taskResponse (m₁.response rt text))) w with heq | ⟨m', hev, -⟩
        · exact heq
        · cases hev
          exact absurd rfl hw
      rw [hsame] at ht
      dsimp only at hm
      rw [Function.update_of_ne (Ne.symm hw)] at hm
      exact hs w hbefore m hm t ht

/-- What has been handled from a worker in the pool has ended the promise of its task. -/
theorem mem_settledIds_of_handled (h₀ : Starts type taskFunctions s₀) (hr : Run (Step rt type text) s₀ es s)
    (hknown : Known s.pool w) {m : AbstractWorker.MessageValue V} (hm : m ∈ (s.workers w).sent.take (s.handled w)) :
    m.taskId ∈ s.pool.settledIds := by
  have hl := linked_of_run h₀ hr
  have hanswered : Answered s := by
    refine (hr.trace_inv (fun es s => Linked rt type text s₀ es s ∧ Answered s) ⟨linked_of_starts h₀, ?_⟩ ?_).2
    · intro w _ m hm
      rw [h₀.workers] at hm
      exact absurd (List.mem_of_mem_take hm) List.not_mem_nil
    · rintro es s e s' ⟨hl, hs⟩ hstep
      exact ⟨hl.step h₀ hstep, hs.step hl h₀ hstep⟩
  obtain ⟨t, ht, hid⟩ := hl.posted_of_sent h₀ (List.mem_of_mem_take hm)
  obtain ⟨n, hn, rfl⟩ := hknown
  have hrecord := record_of_mem (hl.distinct h₀.pool) (List.mem_append_left _ hn)
  rcases (promised_of_run h₀.pool hl.pool).sent n hn t (hrecord ▸ ht) with hun | hsettled
  · exact absurd hid (hanswered n.info.id ⟨n, hn, rfl⟩ m hm t (hrecord ▸ hun))
  · exact hid ▸ hsettled

/-- No two messages of the workers are about the same task. -/
theorem Linked.message_unique (h : Linked rt type text s₀ es s) (h₀ : Starts type taskFunctions s₀) {w' : Nat}
    {m m' : AbstractWorker.MessageValue V} (hm : m ∈ (s.workers w).sent) (hm' : m' ∈ (s.workers w').sent)
    (hid : m'.taskId = m.taskId) : w' = w ∧ m' = m := by
  obtain ⟨t, ht, htid⟩ := h.posted_of_sent h₀ hm
  obtain ⟨t', ht', htid'⟩ := h.posted_of_sent h₀ hm'
  have hw : w' = w := by
    by_contra hne
    exact record_disjoint (issued_of_run h₀.pool h.pool) hne ht' ht (htid'.trans (hid.trans htid.symm))
  subst hw
  have hnodup := (List.nodup_append'.1 (h.determined h₀ w').once).1
  exact ⟨rfl, List.inj_on_of_nodup_map hnodup hm' hm hid⟩

/-- The promise of a task whose function's result has come from a worker ends with it. -/
theorem reply_of_settled (h₀ : Starts type taskFunctions s₀) (hr : Run (Step rt type text) s₀ es s) {i : Nat}
    {r : Settlement V} (hq : (i, r) ∈ s.pool.settled) : (∃ x, r = .thrown x) ∨
      ∃ w, ∃ m ∈ (s.workers w).sent.take (s.handled w), m.taskId = i ∧ r = (m.response rt text).settlement := by
  rcases settled_cases h₀ hr hq with ⟨x, -, -, -, rfl, -⟩ | ⟨w, m, he, rfl, rfl⟩
  · exact .inl ⟨x, rfl⟩
  · refine .inr ⟨w, m, ?_, rfl, rfl⟩
    rw [← (linked_of_run h₀ hr).replied w]
    exact List.mem_filterMap.2 ⟨_, he, if_pos rfl⟩

/-- A message that has been handled from a worker in the pool has ended the promise of its task, with what it says, unless
the call has thrown. -/
theorem settled_of_handled (h₀ : Starts type taskFunctions s₀) (hr : Run (Step rt type text) s₀ es s)
    (hknown : Known s.pool w) {m : AbstractWorker.MessageValue V} (hm : m ∈ (s.workers w).sent.take (s.handled w)) :
    ∃ r, (m.taskId, r) ∈ s.pool.settled ∧ ((∃ x, r = .thrown x) ∨ r = (m.response rt text).settlement) := by
  obtain ⟨⟨i, r⟩, hq, rfl⟩ := List.mem_map.1 (mem_settledIds_of_handled h₀ hr hknown hm)
  refine ⟨r, hq, (reply_of_settled h₀ hr hq).imp_right ?_⟩
  rintro ⟨w', m', hm', hid, rfl⟩
  obtain ⟨-, rfl⟩ := (linked_of_run h₀ hr).message_unique h₀ (List.mem_of_mem_take hm) (List.mem_of_mem_take hm') hid
  rfl

end Handled

theorem settled_of_handled_callTwice : ∃ s, Run (Step AbstractWorker.symbols .thread ofText) echoes callTwice s ∧
    ∃ r, (1, r) ∈ s.pool.settled ∧ ((∃ x, r = .thrown x) ∨ r = .rejected "b") := by
  have hrun : ∃ s, Run (Step AbstractWorker.symbols .thread ofText) echoes callTwice s ∧ Known s.pool 0 ∧
      ⟨1, none, some ⟨some "fail", some "b", some "b"⟩, none⟩ ∈ (s.workers 0).sent.take (s.handled 0) :=
    exists_run_of_replay (f := next AbstractWorker.symbols .thread ofText 5)
      (fun _ _ _ => step_of_next AbstractWorker.symbols .thread ofText) (by decide +kernel)
  obtain ⟨s, hr, hknown, hm⟩ := hrun
  exact ⟨s, hr, settled_of_handled starts_echoes hr hknown hm⟩

end System

end Poolifier
