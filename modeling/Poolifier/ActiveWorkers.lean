import Poolifier.PoolSize
/-!
# The workers that are always active

A pool is to keep its minimum number of workers that are not dynamic. The
listener of an `error` event creates the replacement of a worker, and that of
the `exit` event removes the worker, whether it has been replaced or not. Where
only replaced workers exit, the nodes that have not been replaced are never
fewer than the minimum.
-/

namespace Poolifier

open EffLib RunLib MapLib

variable {Data Response : Type}

/-- A pool, and the workers whose replacement it has created. -/
abbrev Watched (Data Response : Type) : Type := Pool Data Response × List Nat

/-- The worker an event makes the pool replace. -/
def replacedBy (p : Pool Data Response) : Event Data Response → List Nat
  | .error workerId => if p.Restarts workerId then [workerId] else []
  | _ => []

namespace Watched

def Step (x : Watched Data Response) (e : Event Data Response) (x' : Watched Data Response) : Prop :=
  Poolifier.Step x.1 e x'.1 ∧ x'.2 = replacedBy x.1 e ++ x.2

/-- A worker that is not dynamic exits only once it has been replaced, and the pool is not destroyed. -/
def ReplacedOnExit (x : Watched Data Response) : Event Data Response → Prop
  | .exit workerId => ∀ n ∈ x.1.workerNodes, n.info.id = workerId → n.info.dynamic = false → workerId ∈ x.2
  | .destroy => False
  | .destroyed => False
  | _ => True

instance (x : Watched Data Response) : DecidablePred (ReplacedOnExit x)
  | .exit _ => inferInstanceAs (Decidable (∀ n ∈ x.1.workerNodes, _))
  | .destroy | .destroyed => inferInstanceAs (Decidable False)
  | .execute .. | .message .. | .poll _ | .error _ | .start | .enableTasksQueue .. | .setTasksQueueOptions _ =>
    inferInstanceAs (Decidable True)

/-- Steps computed with given fuel, at time zero. -/
def next (fuel : Nat) (x : Watched Data Response) (e : Event Data Response) : Option (Watched Data Response) :=
  if ReplacedOnExit x e then
    (nextIf (fun _ _ => True) fuel x.1 e).map fun p => (p, replacedBy x.1 e ++ x.2)
  else none

theorem step_of_next {fuel : Nat} {x x' : Watched Data Response} {e : Event Data Response} (h : next fuel x e = some x') :
    Guarded ReplacedOnExit Watched.Step x e x' := by
  unfold next at h
  split at h
  · rename_i hok
    obtain ⟨p, hp, rfl⟩ := Option.map_eq_some_iff.1 h
    exact ⟨hok, (step_of_nextIf hp).2, rfl⟩
  · cases h

end Watched

/-! ## Counting -/

/-- Of nodes with ids of their own, at most one has a given id. -/
theorem countP_le_countP_add_one {α : Type} {id : α → Nat} {w : Nat} {l : List α} (hids : (l.map id).Nodup)
    {p q : α → Bool} (h : ∀ a ∈ l, p a = true → id a ≠ w → q a = true) : l.countP p ≤ l.countP q + 1 := by
  induction l with
  | nil => exact Nat.zero_le _
  | cons a l ih =>
    rw [List.map_cons, List.nodup_cons] at hids
    rw [List.countP_cons, List.countP_cons]
    by_cases ha : id a = w
    · have hle : l.countP p ≤ l.countP q := by
        refine List.countP_mono_left fun b hb hp => h b (List.mem_cons_of_mem a hb) hp fun hw => ?_
        exact hids.1 (List.mem_map.2 ⟨b, hb, hw.trans ha.symm⟩)
      split <;> omega
    · have hle := ih hids.2 fun b hb => h b (List.mem_cons_of_mem a hb)
      have hpq := fun hp => h a List.mem_cons_self hp ha
      split
      · rename_i hp
        rw [if_pos (hpq hp)]
        omega
      · omega

/-- Erasing an element that is not counted. -/
theorem countP_eraseP_of_not {α : Type} {p q : α → Bool} {l : List α} (h : ∀ a ∈ l, q a = true → p a = false) :
    (l.eraseP q).countP p = l.countP p := by
  rcases List.exists_or_eq_self_of_eraseP q l with he | ⟨a, l₁, l₂, -, hqa, hl, he⟩
  · rw [he]
  · have hp : p a = false := h a (by rw [hl]; simp) hqa
    rw [he, hl, List.countP_append, List.countP_append, List.countP_cons, hp]
    simp

namespace Outline

/-- The nodes that are not dynamic and have not been replaced. -/
def actives (replaced : List Nat) (o : Outline) : Nat := o.nodes.countP fun n => !n.dynamic && n.id ∉ replaced

/-- What holds of a pool whose workers exit only once they have been replaced. -/
structure Active (replaced : List Nat) (o : Outline) : Prop where
  enough : o.started = true → o.starting = false ∧ o.numberOfWorkers ≤ o.actives replaced
  empty : o.started = false → o.nodes = []
  ids : (o.nodes.map (·.id)).Nodup
  idsBelow : ∀ n ∈ o.nodes, n.id < o.nextWorkerId
  replacedBelow : ∀ w ∈ replaced, w < o.nextWorkerId

variable {r : List Nat} {o : Outline}

theorem actives_le_statics (r : List Nat) (o : Outline) : o.actives r ≤ o.statics := by
  refine List.countP_mono_left fun n _ h => ?_
  simp only [Bool.and_eq_true] at h
  exact h.1

theorem actives_join (hid : o.nextWorkerId ∉ r) (dynamic : Bool) :
    (o.join dynamic).actives r = o.actives r + if dynamic then 0 else 1 := by
  rw [actives, join, List.countP_append]
  cases dynamic <;> simp [newNode, hid, actives]

theorem Active.next_not_mem (h : o.Active r) : o.nextWorkerId ∉ r :=
  fun hm => absurd (h.replacedBelow _ hm) (lt_irrefl _)

theorem Active.join (h : o.Active r) (hst : o.started = true) (dynamic : Bool) : (o.join dynamic).Active r where
  enough _ := by
    obtain ⟨hflag, hle⟩ := h.enough hst
    refine ⟨hflag, ?_⟩
    rw [actives_join h.next_not_mem]
    exact hle.trans (Nat.le_add_right _ _)
  empty hnot := by
    have hnot' : o.started = false := hnot
    rw [hst] at hnot'
    cases hnot'
  ids := nodup_map_concat h.ids fun n hn => (h.idsBelow n hn).ne
  idsBelow n hn := by
    rw [Outline.join, List.mem_append, List.mem_singleton] at hn
    rcases hn with hn | rfl
    · exact Nat.lt_succ_of_lt (h.idsBelow n hn)
    · exact Nat.lt_succ_self _
  replacedBelow w hw := Nat.lt_succ_of_lt (h.replacedBelow w hw)

/-- The nodes that are left when a worker counts as replaced. -/
theorem Active.actives_replaced (h : o.Active r) {n : NodeOutline} (hn : n ∈ o.nodes) :
    o.actives r ≤ o.actives (n.id :: r) + if n.dynamic then 0 else 1 := by
  by_cases hd : n.dynamic = true
  · rw [if_pos hd, Nat.add_zero]
    refine List.countP_mono_left fun a ha hp => ?_
    simp only [Bool.and_eq_true, Bool.not_eq_true', decide_eq_true_eq, List.mem_cons, not_or] at hp ⊢
    refine ⟨hp.1, fun hid => ?_, hp.2⟩
    have han : a = n := List.inj_on_of_nodup_map h.ids ha hn hid
    rw [han, hd] at hp
    cases hp.1
  · rw [if_neg hd]
    refine countP_le_countP_add_one (w := n.id) h.ids fun a ha hp hid => ?_
    simp only [Bool.and_eq_true, Bool.not_eq_true', decide_eq_true_eq, List.mem_cons, not_or] at hp ⊢
    exact ⟨hp.1, hid, hp.2⟩

/-- The replacement of an errored worker has joined. -/
theorem Active.replace (h : o.Active r) (hst : o.started = true) {n : NodeOutline} (hn : n ∈ o.nodes) :
    (o.join n.dynamic).Active (n.id :: r) := by
  have hj := h.join hst n.dynamic
  have hlt := h.idsBelow n hn
  have hbelow : ∀ w ∈ n.id :: r, w < o.nextWorkerId := by
    intro w hw
    rcases List.mem_cons.1 hw with rfl | hw
    · exact hlt
    · exact h.replacedBelow w hw
  refine ⟨fun _ => ?_, hj.empty, hj.ids, hj.idsBelow, fun w hw => Nat.lt_succ_of_lt (hbelow w hw)⟩
  obtain ⟨hflag, hle⟩ := h.enough hst
  refine ⟨hflag, ?_⟩
  rw [actives_join fun hm => absurd (hbelow _ hm) (lt_irrefl _)]
  exact hle.trans (h.actives_replaced hn)

/-- A worker that counts as replaced, or is dynamic, has left. -/
theorem Active.leave (h : o.Active r) {w : Nat} (hw : ∀ n ∈ o.nodes, n.id = w → n.dynamic = false → w ∈ r) :
    (o.leave w).Active r := by
  have hcount : (o.leave w).actives r = o.actives r := by
    refine countP_eraseP_of_not fun n hn hid => ?_
    have hid' : n.id = w := by simpa using hid
    rcases hd : n.dynamic with _ | _
    · simp [hid', hw n hn hid' hd]
    · rfl
  have hsub : (o.leave w).nodes.Sublist o.nodes := List.eraseP_sublist
  refine ⟨fun hst => ?_, fun hst => ?_, (hsub.map _).nodup h.ids, fun n hn => h.idsBelow n (hsub.subset hn),
    h.replacedBelow⟩
  · rw [hcount]
    exact h.enough hst
  · have hnil := h.empty hst
    rw [hnil] at hsub
    exact List.sublist_nil.1 hsub

/-- The nodes that come with a start are active. -/
theorem actives_newNodes (h : o.Active r) (j : Nat) :
    ((o.newNodes j).countP fun n => !n.dynamic && n.id ∉ r) = j := by
  have hall : (o.newNodes j).countP (fun n => !n.dynamic && n.id ∉ r) = (o.newNodes j).length := by
    rw [List.countP_eq_length]
    intro n hn
    obtain ⟨i, -, rfl⟩ := List.mem_map.1 hn
    -- new ids are above those of the workers replaced so far
    have hid : o.nextWorkerId + i ∉ r := fun hm => absurd (h.replacedBelow _ hm) (by omega)
    simp [newNode, hid]
  rw [hall, length_newNodes]

/-- A started pool has nothing to start; one that is not started has no nodes, and gets the nodes it needs. -/
theorem Active.start (h : o.Active r) : o.start.Active r := by
  rcases hst : o.started with _ | _
  · have hnil := h.empty hst
    -- a start that throws leaves the pool as empty as it was
    by_cases hc : o.numberOfWorkers ≤ o.statics ∨ o.CanCreate
    · have hstatics : o.statics = 0 := by
        rw [statics, hnil]
        rfl
      rw [Outline.start, if_pos hc, fill, iterate_join, hstatics, hnil, Nat.sub_zero, List.nil_append]
      refine ⟨fun _ => ⟨rfl, ?_⟩, (by rintro ⟨⟩), ?_, fun n hn => ?_, fun w hw => ?_⟩
      · exact (actives_newNodes h o.numberOfWorkers).ge
      · rw [newNodes, List.map_map]
        exact List.nodup_range.map fun i j hij => Nat.add_left_cancel hij
      · obtain ⟨i, hi, rfl⟩ := List.mem_map.1 hn
        exact Nat.add_lt_add_left (List.mem_range.1 hi) _
      · exact Nat.lt_add_right _ (h.replacedBelow w hw)
    · rw [Outline.start, if_neg hc]
      exact ⟨fun hst' => absurd (hst.symm.trans hst') (by rintro ⟨⟩), fun _ => hnil, h.ids, h.idsBelow, h.replacedBelow⟩
  · obtain ⟨hflag, hle⟩ := h.enough hst
    have hle' : o.numberOfWorkers ≤ o.statics := hle.trans (actives_le_statics r o)
    have hsame : o.start = o := by
      rw [Outline.start, if_pos (.inl hle'), fill, Nat.sub_eq_zero_of_le hle', Function.iterate_zero, id_eq, ← hflag,
        ← hst]
    rw [hsame]
    exact h

/-- The setup of the nodes and the options do not matter. -/
theorem Active.map (h : o.Active r) (opts : PoolOptions) {f : NodeOutline → NodeOutline}
    (hf : ∀ n, (f n).id = n.id ∧ (f n).dynamic = n.dynamic) : Active r { o with opts, nodes := o.nodes.map f } := by
  have hids : (o.nodes.map f).map (·.id) = o.nodes.map (·.id) := by
    rw [List.map_map]
    exact List.map_congr_left fun n _ => (hf n).1
  have hcount : actives r { o with opts, nodes := o.nodes.map f } = o.actives r := by
    rw [actives, List.countP_map]
    refine List.countP_congr fun n _ => ?_
    rw [Function.comp_apply, (hf n).1, (hf n).2]
  refine ⟨fun hst => ?_, fun hst => ?_, ?_, fun n hn => ?_, h.replacedBelow⟩
  · rw [hcount]
    exact h.enough hst
  · rw [h.empty hst]
    rfl
  · rw [hids]
    exact h.ids
  · obtain ⟨m, hm, rfl⟩ := List.mem_map.1 hn
    rw [(hf m).1]
    exact h.idsBelow m hm

theorem Active.setOpts (h : o.Active r) (opts : PoolOptions) : Active r { o with opts } := by
  have hmap := h.map opts (f := id) fun n => ⟨rfl, rfl⟩
  rwa [List.map_id] at hmap

theorem Active.setTasksQueueOptions (h : o.Active r) (a : TasksQueueOptionsArgument) :
    (o.setTasksQueueOptions a).Active r := by
  unfold Outline.setTasksQueueOptions
  split
  · split
    · exact h
    · exact h.map _ fun n => ⟨rfl, rfl⟩
  · exact h.setOpts _

theorem Active.enableTasksQueue (h : o.Active r) (enable : Bool) (a : TasksQueueOptionsArgument) :
    (o.enableTasksQueue enable a).Active r := by
  unfold Outline.enableTasksQueue
  split
  · have hunset : o.unset.Active r := h.map o.opts fun n => ⟨rfl, rfl⟩
    exact (hunset.setOpts _).setTasksQueueOptions a
  · exact (h.setOpts _).setTasksQueueOptions a

end Outline

/-! ## Runs -/

theorem active_error {x : Watched Data Response} (h : x.1.outline.Active x.2) (w : Nat) :
    (x.1.outline.error w).Active (replacedBy x.1 (.error w) ++ x.2) := by
  rw [replacedBy]
  by_cases hr : x.1.Restarts w
  · obtain ⟨⟨n, hn⟩, hrestarts, hcan⟩ := (restarts_iff x.1 w).1 hr
    have hid : n.id = w := by simpa using List.find?_some hn
    have hst : x.1.outline.started = true := by
      simp only [Outline.restarts, Bool.and_eq_true] at hrestarts
      exact hrestarts.1.1
    rw [if_pos hr, Outline.error_some hn, if_pos ⟨hrestarts, hcan⟩, ← hid]
    exact h.replace hst (List.mem_of_find?_eq_some hn)
  · rw [if_neg hr]
    rcases hf : x.1.outline.nodes.find? (·.id = w) with _ | n
    · rw [Outline.error_none hf]
      exact h
    · rw [Outline.error_some hf, if_neg fun hc => hr ((restarts_iff x.1 w).2 ⟨⟨n, hf⟩, hc⟩)]
      exact h

theorem active_exit {x : Watched Data Response} (h : x.1.outline.Active x.2) {w : Nat}
    (hw : ∀ n ∈ x.1.workerNodes, n.info.id = w → n.info.dynamic = false → w ∈ x.2) :
    (x.1.outline.leave w).Active x.2 := by
  refine h.leave fun n hn hid hd => ?_
  obtain ⟨m, hm, rfl⟩ := List.mem_map.1 hn
  exact hw m hm hid hd

/-- One step of a pool whose workers exit only once they have been replaced. -/
theorem Watched.step_active {x x' : Watched Data Response} {e : Event Data Response} (h : x.1.outline.Active x.2)
    (ht : Guarded ReplacedOnExit Watched.Step x e x') : x'.1.outline.Active x'.2 := by
  obtain ⟨hok, hstep, hr⟩ := ht
  have hout := step_outlined hstep
  rw [hr]
  generalize x'.1.outline = o' at hout
  cases hout with
  | execute => exact h
  | executeJoins hst => exact h.join hst true
  | message => exact h
  | poll => exact h
  | error => exact active_error h _
  | exit => exact active_exit h hok
  | start => exact h.start
  | enableTasksQueue => exact h.enableTasksQueue _ _
  | flushThrows he => exact h.map _ fun n => ⟨rfl, rfl⟩
  | setTasksQueueOptions => exact h.setTasksQueueOptions _
  | destroy => exact h
  | destroyed => exact hok.elim

theorem active_of_created {c : PoolConfig Data} {startWorkers : Bool} {s : Pool Data Response}
    (h : Created c startWorkers s) : s.outline.Active [] := by
  obtain ⟨-, -, -, hout⟩ := created_outline h
  have hinit : (initialOutline c).Active [] :=
    ⟨(by rintro ⟨⟩), fun _ => rfl, List.nodup_nil, List.forall_mem_nil _, List.forall_mem_nil _⟩
  rw [hout, createdOutline]
  cases startWorkers with
  | true =>
    obtain ⟨h1, h2, h3, h4, h5⟩ := hinit.start
    rw [if_pos rfl]
    exact ⟨h1, h2, h3, h4, h5⟩
  | false =>
    obtain ⟨h1, h2, h3, h4, h5⟩ := hinit
    rw [if_neg Bool.false_ne_true]
    exact ⟨h1, h2, h3, h4, h5⟩

/-- From the construction of a pool on, while only replaced workers exit, the pool keeps its minimum number
of workers that are not dynamic. -/
theorem min_workers_active {c : PoolConfig Data} {startWorkers : Bool} {s₀ : Pool Data Response}
    (h : Created c startWorkers s₀) {es : List (Event Data Response)} {x : Watched Data Response}
    (hr : Run (Guarded Watched.ReplacedOnExit Watched.Step) (s₀, []) es x) (hst : x.1.started = true) :
    x.1.numberOfWorkers ≤ x.1.staticWorkerNodes := by
  have hactive := hr.inv (fun x => x.1.outline.Active x.2) (active_of_created h) fun _ _ _ hx ht =>
    Watched.step_active hx ht
  obtain ⟨-, hle⟩ := hactive.enough hst
  rw [← statics_outline]
  exact hle.trans (Outline.actives_le_statics _ _)

theorem min_workers_active_replaced : ∃ (s₀ : Pool Unit Unit) (x : Watched Unit Unit),
    Created (threadPoolConfig .dynamic 1 (some 2)) true s₀ ∧
    Run (Guarded Watched.ReplacedOnExit Watched.Step) (s₀, []) [.error 0, .exit 0] x ∧
    x.1.numberOfWorkers ≤ x.1.staticWorkerNodes := by
  obtain ⟨s₀, hc, hs⟩ := exists_created (c := threadPoolConfig .dynamic 1 (some 2)) 4 (P := fun s : Pool Unit Unit =>
    (replay (Watched.next 4) (s, []) [.error 0, .exit 0]).any (fun x => decide (x.1.started = true)) = true)
    (by decide +kernel)
  obtain ⟨x, hrun, hst⟩ := exists_run_of_replay (P := fun x : Watched Unit Unit => x.1.started = true)
    (fun _ _ _ => Watched.step_of_next) hs
  exact ⟨s₀, x, hc, hrun, min_workers_active hc hrun hst⟩

/-- The destruction of the pool has not begun. -/
def Event.isAlive : Event Data Response → Bool
  | .destroy | .destroyed => false
  | _ => true

/-- A worker that exits without an error is not replaced. -/
theorem min_workers_lost : ¬ ∀ (c : PoolConfig Unit) (startWorkers : Bool) (s₀ s : Pool Unit Unit)
    (es : List (Event Unit Unit)), c.restartWorkerOnError = true → Created c startWorkers s₀ →
    Run (Guarded (fun _ e => e.isAlive = true) Step) s₀ es s → s.started = true →
    s.numberOfWorkers ≤ s.staticWorkerNodes := by
  intro h
  obtain ⟨s₀, s, hc, hrun, hst, hs⟩ := created_run_to (fun _ e => e.isAlive = true) 4 (threadPoolConfig .fixed 1 none)
    [.exit 0] (P := fun s : Pool Unit Unit => s.started = true ∧ ¬ s.numberOfWorkers ≤ s.staticWorkerNodes)
    (by decide +kernel)
  exact hs (h _ true s₀ s _ rfl hc hrun hst)

end Poolifier
