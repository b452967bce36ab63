import Poolifier.Lib.Eff
/-!
# Simulation of code

`Simulates R m m'`: where `m` ends from a state, `m'` ends the same way from
every state that `R` relates to it, and in related states. The rules follow the
structure of the code.
-/

namespace EffLib

variable {σ τ ε α β : Type} {R : σ → τ → Prop}

/-- Runs `m`, and tells whether it has thrown. -/
def Eff.attempt (m : Eff σ ε α) : Eff σ ε Bool := fun s =>
  match m s with
  | none => none
  | some (.error _, s') => some (.ok true, s')
  | some (.ok _, s') => some (.ok false, s')

/-- An attempt ends where the code does. -/
theorem attempt_eq_some {m : Eff σ ε α} {s s' : σ} {r : Except ε Bool} (h : m.attempt s = some (r, s')) :
    ∃ r₁ : Except ε α, m s = some (r₁, s') ∧ ∃ threw, r = .ok threw := by
  unfold Eff.attempt at h
  rcases hm : m s with _ | ⟨e | a, s₁⟩
  · rw [hm] at h
    cases h
  · rw [hm] at h
    cases h
    exact ⟨.error e, rfl, true, rfl⟩
  · rw [hm] at h
    cases h
    exact ⟨.ok a, rfl, false, rfl⟩

theorem attempt_of_some {m : Eff σ ε α} {s s' : σ} {r : Except ε α} (h : m s = some (r, s')) :
    ∃ threw, m.attempt s = some (.ok threw, s') := by
  unfold Eff.attempt
  rw [h]
  rcases r with e | a
  · exact ⟨true, rfl⟩
  · exact ⟨false, rfl⟩

def Simulates (R : σ → τ → Prop) (m : Eff σ ε α) (m' : Eff τ ε α) : Prop :=
  ∀ s t, R s t → ∀ r s', m s = some (r, s') → ∃ t', m' t = some (r, t') ∧ R s' t'

theorem simulates_pure (a : α) : Simulates R (pure a : Eff σ ε α) (pure a) := by
  intro s t h r s' hm
  cases hm
  exact ⟨t, rfl, h⟩

theorem simulates_throw (e : ε) : Simulates R (Eff.throw e : Eff σ ε α) (Eff.throw e) := by
  intro s t h r s' hm
  cases hm
  exact ⟨t, rfl, h⟩

theorem simulates_modify {f : σ → σ} {g : τ → τ} (hfg : ∀ s t, R s t → R (f s) (g t)) :
    Simulates R (Eff.modify f : Eff σ ε Unit) (Eff.modify g) := by
  intro s t h r s' hm
  cases hm
  exact ⟨g t, rfl, hfg s t h⟩

/-- Code that does not end is simulated by any other. -/
theorem simulates_diverge (m : Eff τ ε α) : Simulates R (Eff.diverge : Eff σ ε α) m := by
  intro s t h r s' hm
  cases hm

/-- Code simulates itself. -/
theorem simulates_refl (m : Eff σ ε α) : Simulates (· = ·) m m := by
  rintro s _ rfl r s' hm
  exact ⟨s', hm, rfl⟩

/-- Code and what simulates it end together, if the code ends. -/
theorem Simulates.ends {m : Eff σ ε α} {m' : Eff τ ε α} {s : σ} {t : τ} (hm : Simulates R m m') (h : R s t) :
    m s = none ∨ ∃ r s' t', m s = some (r, s') ∧ m' t = some (r, t') ∧ R s' t' := by
  rcases hms : m s with _ | ⟨r, s'⟩
  · exact .inl rfl
  · obtain ⟨t', ht', h'⟩ := hm s t h r s' hms
    exact .inr ⟨r, s', t', rfl, ht', h'⟩

theorem Simulates.bind {m : Eff σ ε α} {m' : Eff τ ε α} {f : α → Eff σ ε β} {f' : α → Eff τ ε β}
    (hm : Simulates R m m') (hf : ∀ a, Simulates R (f a) (f' a)) : Simulates R (m >>= f) (m' >>= f') := by
  intro s t h r s' hr
  show ∃ t', Eff.bind m' f' t = some (r, t') ∧ R s' t'
  change Eff.bind m f s = some (r, s') at hr
  unfold Eff.bind at hr ⊢
  obtain hnone | ⟨r₁, s₁, t₁, hs₁, ht₁, h₁⟩ := hm.ends h
  · rw [hnone] at hr
    cases hr
  · rw [hs₁] at hr
    rw [ht₁]
    cases r₁ with
    | error e =>
      cases hr
      exact ⟨t₁, rfl, h₁⟩
    | ok a => exact hf a s₁ t₁ h₁ r s' hr

theorem Simulates.forEach {ι : Type} {body : ι → Eff σ ε Unit} {body' : ι → Eff τ ε Unit}
    (hb : ∀ x, Simulates R (body x) (body' x)) (l : List ι) : Simulates R (Eff.forEach body l) (Eff.forEach body' l) := by
  induction l with
  | nil => exact simulates_pure ()
  | cons x l ih => exact (hb x).bind fun _ => ih

theorem Simulates.swallow {m : Eff σ ε Unit} {m' : Eff τ ε Unit} {f : σ → σ} {g : τ → τ} (hm : Simulates R m m')
    (hfg : ∀ s t, R s t → R (f s) (g t)) : Simulates R (m.swallow f) (m'.swallow g) := by
  intro s t h r s' hr
  unfold Eff.swallow at hr ⊢
  obtain hnone | ⟨r₁, s₁, t₁, hs₁, ht₁, h₁⟩ := hm.ends h
  · rw [hnone] at hr
    cases hr
  · rw [hs₁] at hr
    rw [ht₁]
    cases r₁ with
    | error e =>
      cases hr
      exact ⟨g t₁, rfl, hfg s₁ t₁ h₁⟩
    | ok a =>
      cases hr
      exact ⟨t₁, rfl, h₁⟩

theorem Simulates.attempt {m : Eff σ ε α} {m' : Eff τ ε α} (hm : Simulates R m m') :
    Simulates R m.attempt m'.attempt := by
  intro s t h r s' hr
  unfold Eff.attempt at hr ⊢
  obtain hnone | ⟨r₁, s₁, t₁, hs₁, ht₁, h₁⟩ := hm.ends h
  · rw [hnone] at hr
    cases hr
  · rw [hs₁] at hr
    rw [ht₁]
    cases r₁ with
    | error e =>
      cases hr
      exact ⟨t₁, rfl, h₁⟩
    | ok a =>
      cases hr
      exact ⟨t₁, rfl, h₁⟩

end EffLib
