import Mathlib.Data.List.Forall2
import Poolifier.Lib.Eff
import Poolifier.Lib.Runs
/-!
# Code seen through a projection

Code over a state, and code over what a projection leaves of it: the second does
on the projected state what the first does on the whole one (`Projects`), so
each ends where the other does, in the same way. The rules follow the structure
of the code; `ProjectsAt` is for code that needs to know where it starts. Code
that works on a part of a state (`Eff.zoom`) projects to the code it is made of.
Runs go along: where each step is one of what is projected, so is a run.
-/

namespace EffLib

variable {σ τ υ ε α β ι : Type} {f : σ → τ}

/-- From a state, `m'` does on what is projected of it what `m` does on the whole one. -/
def ProjectsAt (f : σ → τ) (m : Eff σ ε α) (m' : Eff τ ε α) (s : σ) : Prop := m' (f s) = (m s).map fun x => (x.1, f x.2)

/-- The same from every state. -/
def Projects (f : σ → τ) (m : Eff σ ε α) (m' : Eff τ ε α) : Prop := ∀ s, ProjectsAt f m m' s

/-- Code on a part of a state. -/
def Eff.zoom (get : τ → σ) (set : τ → σ → τ) (m : Eff σ ε α) : Eff τ ε α := fun t =>
  (m (get t)).map fun x => (x.1, set t x.2)

section Ends
variable {m : Eff σ ε α} {m' : Eff τ ε α} {s s' : σ} {r : Except ε α}

theorem ProjectsAt.eq (h : ProjectsAt f m m' s) : m' (f s) = (m s).map fun x => (x.1, f x.2) := h

theorem ProjectsAt.ends (h : ProjectsAt f m m' s) (hm : m s = some (r, s')) : m' (f s) = some (r, f s') := by
  rw [h.eq, hm]
  rfl

theorem Projects.ends (h : Projects f m m') (hm : m s = some (r, s')) : m' (f s) = some (r, f s') := (h s).ends hm

theorem projectsAt_of_eq {r' : Except ε α} (hm : m s = some (r', s')) (hm' : m' (f s) = some (r', f s')) :
    ProjectsAt f m m' s := by
  unfold ProjectsAt
  rw [hm, hm']
  rfl

theorem ProjectsAt.bind {k : α → Eff σ ε β} {k' : α → Eff τ ε β} (hm : ProjectsAt f m m' s)
    (hk : ∀ a s', m s = some (.ok a, s') → ProjectsAt f (k a) (k' a) s') : ProjectsAt f (m >>= k) (m' >>= k') s := by
  show Eff.bind m' k' (f s) = (Eff.bind m k s).map _
  unfold Eff.bind
  rw [hm.eq]
  rcases hms : m s with _ | ⟨_ | a, s'⟩
  · rfl
  · rfl
  · exact hk a s' hms

/-- Both codes read their state first. -/
theorem ProjectsAt.read {k : σ → Eff σ ε α} {k' : τ → Eff τ ε α} (h : ProjectsAt f (k s) (k' (f s)) s) :
    ProjectsAt f (Eff.get >>= k) (Eff.get >>= k') s := h

/-- The code on what is projected reads its state once more. -/
theorem ProjectsAt.reread {k' : τ → Eff τ ε α} (h : ProjectsAt f m (k' (f s)) s) : ProjectsAt f m (Eff.get >>= k') s := h

/-- Code of which nothing is seen comes first. -/
theorem ProjectsAt.skip {a : α} {k : α → Eff σ ε β} {n : Eff τ ε β} (hm : m s = some (.ok a, s')) (hf : f s' = f s)
    (hk : ProjectsAt f (k a) n s') : ProjectsAt f (m >>= k) n s := by
  unfold ProjectsAt at hk ⊢
  rw [bind_ok hm, ← hf]
  exact hk

end Ends

theorem forEach_map (g : β → ι) (body : ι → Eff σ ε Unit) (l : List β) :
    Eff.forEach body (l.map g) = Eff.forEach (fun x => body (g x)) l := by
  induction l with
  | nil => rfl
  | cons x l ih => rw [List.map_cons, Eff.forEach, Eff.forEach, ih]

/-! ## Rules -/

theorem projects_pure (a : α) : Projects f (pure a : Eff σ ε α) (pure a) := fun _ => rfl

theorem projects_throw (e : ε) : Projects f (Eff.throw e : Eff σ ε α) (Eff.throw e) := fun _ => rfl

theorem projects_diverge : Projects f (Eff.diverge : Eff σ ε α) Eff.diverge := fun _ => rfl

theorem projects_modify {g : σ → σ} {g' : τ → τ} (h : ∀ s, f (g s) = g' (f s)) :
    Projects f (Eff.modify g : Eff σ ε Unit) (Eff.modify g') := by
  intro s
  show some (Except.ok (), g' (f s)) = some (Except.ok (), f (g s))
  rw [h]

/-- Code that reads its state goes on alike on the whole state and on what is left of it. -/
theorem projects_get_bind {k : σ → Eff σ ε α} {k' : τ → Eff τ ε α} (h : ∀ s, Projects f (k s) (k' (f s))) :
    Projects f (Eff.get >>= k) (Eff.get >>= k') :=
  fun s => h s s

theorem Projects.bind {m : Eff σ ε α} {m' : Eff τ ε α} {k : α → Eff σ ε β} {k' : α → Eff τ ε β} (hm : Projects f m m')
    (hk : ∀ a, Projects f (k a) (k' a)) : Projects f (m >>= k) (m' >>= k') :=
  fun s => (hm s).bind fun a s' _ => hk a s'

theorem Projects.ite {m n : Eff σ ε α} {m' n' : Eff τ ε α} {c : Prop} [Decidable c] (hm : Projects f m m')
    (hn : Projects f n n') : Projects f (if c then m else n) (if c then m' else n') := by
  split
  · exact hm
  · exact hn

theorem Projects.swallow {m : Eff σ ε Unit} {m' : Eff τ ε Unit} {g : σ → σ} {g' : τ → τ} (hm : Projects f m m')
    (hg : ∀ s, f (g s) = g' (f s)) : Projects f (m.swallow g) (m'.swallow g') := by
  intro s
  unfold ProjectsAt Eff.swallow
  rw [(hm s).eq]
  rcases m s with _ | ⟨_ | _, s'⟩
  · rfl
  · show some (Except.ok (), g' (f s')) = some (Except.ok (), f (g s'))
    rw [hg]
  · rfl

theorem Projects.forEach {body : ι → Eff σ ε Unit} {body' : ι → Eff τ ε Unit} (hb : ∀ x, Projects f (body x) (body' x))
    (l : List ι) : Projects f (Eff.forEach body l) (Eff.forEach body' l) := by
  induction l with
  | nil => exact projects_pure ()
  | cons x l ih => exact (hb x).bind fun _ => ih

theorem Projects.whileDo {cond : Eff σ ε Bool} {cond' : Eff τ ε Bool} {body : Eff σ ε Unit} {body' : Eff τ ε Unit}
    (hc : Projects f cond cond') (hb : Projects f body body') (fuel : Nat) :
    Projects f (Eff.whileDo cond body fuel) (Eff.whileDo cond' body' fuel) := by
  induction fuel with
  | zero => exact projects_diverge
  | succ fuel ih =>
    refine hc.bind fun b => ?_
    cases b with
    | true => exact hb.bind fun _ => ih
    | false => exact projects_pure ()

/-- Code on a part is seen from that part as what it is made of. -/
theorem projects_zoom {get : τ → σ} {set : τ → σ → τ} (h : ∀ t s, get (set t s) = s) (m : Eff σ ε α) :
    Projects get (m.zoom get set) m := by
  intro t
  unfold ProjectsAt Eff.zoom
  rcases m (get t) with _ | ⟨r, s'⟩
  · rfl
  · show some (r, s') = some (r, get (set t s'))
    rw [h]

theorem zoom_ends {get : τ → σ} {set : τ → σ → τ} {m : Eff σ ε α} {t t' : τ} {r : Except ε α}
    (h : m.zoom get set t = some (r, t')) : ∃ s', m (get t) = some (r, s') ∧ set t s' = t' := by
  obtain ⟨⟨r', s'⟩, hm, heq⟩ := Option.map_eq_some_iff.1 h
  cases heq
  exact ⟨s', hm, rfl⟩

theorem Projects.trans {g : τ → υ} {m : Eff σ ε α} {m' : Eff τ ε α} {m'' : Eff υ ε α} (h : Projects f m m')
    (h' : Projects g m' m'') : Projects (fun s => g (f s)) m m'' := by
  intro s
  unfold ProjectsAt
  rw [(h' (f s)).eq, (h s).eq]
  rcases m s with _ | ⟨r, s'⟩ <;> rfl

end EffLib

namespace RunLib

variable {St Ev St' Ev' : Type} {Step : St → Ev → St → Prop} {Step' : St' → Ev' → St' → Prop} {s₀ s : St} {es : List Ev}

/-- Steps that keep an invariant, and where it holds are steps of another system of what is projected, with an event
that goes with theirs. -/
theorem Run.refines {f : St → St'} {obs : Ev → Ev' → Prop} (I : St → Prop) (h : Run Step s₀ es s) (h0 : I s₀)
    (hs : ∀ s e s', e ∈ es → I s → Step s e s' → I s' ∧ ∃ e', obs e e' ∧ Step' (f s) e' (f s')) :
    I s ∧ ∃ es', List.Forall₂ obs es es' ∧ Run Step' (f s₀) es' (f s) := by
  induction h with
  | nil => exact ⟨h0, [], .nil, .nil⟩
  | @step es s e s' _ ht ih =>
    obtain ⟨hinv, es', hobs, hrun⟩ := ih fun s e s' he => hs s e s' (List.mem_append_left _ he)
    obtain ⟨hinv', e', he', ht'⟩ := hs s e s' (List.mem_append_right _ List.mem_cons_self) hinv ht
    exact ⟨hinv', es' ++ [e'], List.rel_append hobs (.cons he' .nil), .step hrun ht'⟩

end RunLib
