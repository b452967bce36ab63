import Mathlib.Logic.Relation
import Mathlib.Order.Defs.Unbundled
/-!
# Code with state, exceptions and divergence

Imperative code as a function of the state it starts in: it ends with a value
or a thrown exception, in some state, or it does not end. A throw keeps the
changes made before it, as in JavaScript. Loops and callbacks that may not end
take fuel and do not end when it runs out, so `∃ fuel` means termination.

`wp m Q E s` is partial correctness: if `m`, started in `s`, returns then `Q`
holds of the value and the state, and if it throws then `E` does. `Returns m Q s`
is total correctness: `m` does return, with a value and in a state of which `Q`
holds. The `wp_` and `returns_` lemmas rewrite these along the structure of the
code.
-/

namespace EffLib

variable {σ ε α β ι : Type}

/-- Code over a state `σ` that returns an `α`, throws an `ε`, or does not end. -/
def Eff (σ ε α : Type) : Type := σ → Option (Except ε α × σ)

namespace Eff

protected def pure (a : α) : Eff σ ε α := fun s => some (.ok a, s)

protected def bind (m : Eff σ ε α) (f : α → Eff σ ε β) : Eff σ ε β := fun s =>
  match m s with
  | none => none
  | some (.error e, s') => some (.error e, s')
  | some (.ok a, s') => f a s'

instance : Monad (Eff σ ε) where
  pure := Eff.pure
  bind := Eff.bind

def get : Eff σ ε σ := fun s => some (.ok s, s)

def modify (f : σ → σ) : Eff σ ε Unit := fun s => some (.ok (), f s)

def throw (e : ε) : Eff σ ε α := fun s => some (.error e, s)

/-- Code that never ends. -/
def diverge : Eff σ ε α := fun _ => none

/-- Runs `m`; an exception is dropped and `h` applied to the state it left. -/
def swallow (m : Eff σ ε Unit) (h : σ → σ) : Eff σ ε Unit := fun s =>
  match m s with
  | none => none
  | some (.error _, s') => some (.ok (), h s')
  | some (.ok (), s') => some (.ok (), s')

/-- `for (const x of l) body(x)`. -/
def forEach (body : ι → Eff σ ε Unit) : List ι → Eff σ ε Unit
  | [] => pure ()
  | x :: l => do body x; forEach body l

/-- `while (cond) body`, for at most `fuel` tests of the condition. -/
def whileDo (cond : Eff σ ε Bool) (body : Eff σ ε Unit) : Nat → Eff σ ε Unit
  | 0 => diverge
  | fuel + 1 => do
    if ← cond then
      body
      whileDo cond body fuel
    else
      pure ()

end Eff

/-! ## Running code -/

theorem bind_ok {m : Eff σ ε β} {s s' : σ} {b : β} (h : m s = some (.ok b, s')) (f : β → Eff σ ε α) :
    (m >>= f) s = f b s' := by
  show Eff.bind m f s = f b s'
  unfold Eff.bind
  rw [h]

theorem bind_error {m : Eff σ ε β} {s s' : σ} {e : ε} (h : m s = some (.error e, s')) (f : β → Eff σ ε α) :
    (m >>= f) s = some (.error e, s') := by
  show Eff.bind m f s = some (.error e, s')
  unfold Eff.bind
  rw [h]

/-- Code that ends has ended in its first part, with an exception, or in what comes after. -/
theorem bind_ends {m : Eff σ ε β} {f : β → Eff σ ε α} {s s' : σ} {r : Except ε α} (h : (m >>= f) s = some (r, s')) :
    (∃ a s₁, m s = some (.ok a, s₁) ∧ f a s₁ = some (r, s')) ∨ ∃ e, m s = some (.error e, s') ∧ r = .error e := by
  rcases hm : m s with _ | ⟨e | a, s₁⟩
  · have hnone : (m >>= f) s = none := by
      show Eff.bind m f s = none
      unfold Eff.bind
      rw [hm]
    rw [hnone] at h
    cases h
  · rw [bind_error hm] at h
    cases h
    exact .inr ⟨e, rfl, rfl⟩
  · rw [bind_ok hm] at h
    exact .inl ⟨a, s₁, rfl, h⟩

theorem get_bind (f : σ → Eff σ ε α) (s : σ) : (Eff.get >>= f) s = f s s := rfl

theorem modify_bind (g : σ → σ) (f : Unit → Eff σ ε α) (s : σ) : (Eff.modify g >>= f) s = f () (g s) := rfl

/-! ## Weakest preconditions -/

/-- If `m` ends from `s`, then in a state satisfying `Q` (returned) or `E` (thrown). -/
def wp (m : Eff σ ε α) (Q : α → σ → Prop) (E : ε → σ → Prop) (s : σ) : Prop :=
  ∀ r s', m s = some (r, s') → match r with
    | .ok a => Q a s'
    | .error e => E e s'

theorem wp_ok {m : Eff σ ε α} {Q : α → σ → Prop} {E : ε → σ → Prop} {s s' : σ} {a : α} (h : wp m Q E s)
    (hm : m s = some (.ok a, s')) : Q a s' := h _ _ hm

theorem wp_error {m : Eff σ ε α} {Q : α → σ → Prop} {E : ε → σ → Prop} {s s' : σ} {e : ε} (h : wp m Q E s)
    (hm : m s = some (.error e, s')) : E e s' := h _ _ hm

/-- Code whose two postconditions say the same ends in a state that satisfies it. -/
theorem wp_any {m : Eff σ ε α} {I : σ → Prop} {s s' : σ} {r : Except ε α} (h : wp m (fun _ => I) (fun _ => I) s)
    (hm : m s = some (r, s')) : I s' := by
  cases r with
  | ok a => exact wp_ok h hm
  | error e => exact wp_error h hm

theorem wp_mono {m : Eff σ ε α} {Q Q' : α → σ → Prop} {E E' : ε → σ → Prop} {s : σ} (h : wp m Q E s)
    (hQ : ∀ a s', Q a s' → Q' a s') (hE : ∀ e s', E e s' → E' e s') : wp m Q' E' s := by
  intro r s' hm
  cases r with
  | ok a => exact hQ a s' (wp_ok h hm)
  | error e => exact hE e s' (wp_error h hm)

theorem wp_and {m : Eff σ ε α} {Q Q' : α → σ → Prop} {E E' : ε → σ → Prop} {s : σ} (h : wp m Q E s)
    (h' : wp m Q' E' s) : wp m (fun a t => Q a t ∧ Q' a t) (fun e t => E e t ∧ E' e t) s := by
  intro r s' hm
  cases r with
  | ok a => exact ⟨wp_ok h hm, wp_ok h' hm⟩
  | error e => exact ⟨wp_error h hm, wp_error h' hm⟩

section Rules
variable {Q : α → σ → Prop} {E : ε → σ → Prop} {s : σ}

/-- Code that ends alike, from a state of its own. -/
theorem wp_congr {m m' : Eff σ ε α} {s' : σ} (h : m s = m' s') : wp m Q E s ↔ wp m' Q E s' := by
  unfold wp
  rw [h]

theorem wp_of_ok {m : Eff σ ε α} {a : α} {s' : σ} (hm : m s = some (.ok a, s')) : wp m Q E s ↔ Q a s' := by
  unfold wp
  rw [hm]
  exact ⟨fun h => h _ _ rfl, fun h r s'' heq => by cases heq; exact h⟩

theorem wp_of_error {m : Eff σ ε α} {e : ε} {s' : σ} (hm : m s = some (.error e, s')) : wp m Q E s ↔ E e s' := by
  unfold wp
  rw [hm]
  exact ⟨fun h => h _ _ rfl, fun h r s'' heq => by cases heq; exact h⟩

@[simp] theorem wp_pure (a : α) : wp (pure a : Eff σ ε α) Q E s ↔ Q a s :=
  ⟨fun h => wp_ok h rfl, fun h r s' hm => by cases hm; exact h⟩

@[simp] theorem wp_bind (m : Eff σ ε β) (f : β → Eff σ ε α) :
    wp (m >>= f) Q E s ↔ wp m (fun b s' => wp (f b) Q E s') E s := by
  have hb : (m >>= f) s = match m s with
    | none => none
    | some (.error e, s') => some (.error e, s')
    | some (.ok b, s') => f b s' := rfl
  simp only [wp, hb]
  constructor
  · intro h r s' hm
    cases r with
    | ok b => intro r2 s2 h2; exact h r2 s2 (by rw [hm]; exact h2)
    | error e => exact h (.error e) s' (by rw [hm])
  · intro h r s' hm
    rcases hms : m s with _ | ⟨_ | b, s1⟩ <;> rw [hms] at hm
    · cases hm
    · cases hm; exact h _ _ hms
    · exact h _ _ hms r s' hm

@[simp] theorem wp_map (m : Eff σ ε β) (f : β → α) : wp (f <$> m) Q E s ↔ wp m (fun b => Q (f b)) E s := by
  have : (f <$> m) = m >>= fun b => pure (f b) := rfl
  simp only [this, wp_bind, wp_pure]

@[simp] theorem wp_get {Q : σ → σ → Prop} : wp (Eff.get : Eff σ ε σ) Q E s ↔ Q s s :=
  ⟨fun h => wp_ok h rfl, fun h r s' hm => by cases hm; exact h⟩

@[simp] theorem wp_modify {Q : Unit → σ → Prop} (f : σ → σ) :
    wp (Eff.modify f : Eff σ ε Unit) Q E s ↔ Q () (f s) :=
  ⟨fun h => wp_ok h rfl, fun h r s' hm => by cases hm; exact h⟩

@[simp] theorem wp_throw (e : ε) : wp (Eff.throw e : Eff σ ε α) Q E s ↔ E e s :=
  ⟨fun h => wp_error h rfl, fun h r s' hm => by cases hm; exact h⟩

@[simp] theorem wp_diverge : wp (Eff.diverge : Eff σ ε α) Q E s :=
  fun _ _ hm => by cases hm

@[simp] theorem wp_swallow {Q : Unit → σ → Prop} (m : Eff σ ε Unit) (h : σ → σ) :
    wp (m.swallow h) Q E s ↔ wp m Q (fun _ s' => Q () (h s')) s := by
  have hb : m.swallow h s = match m s with
    | none => none
    | some (.error _, s') => some (.ok (), h s')
    | some (.ok (), s') => some (.ok (), s') := rfl
  simp only [wp, hb]
  constructor
  · intro hw r s' hm
    cases r with
    | ok u => exact hw (.ok ()) s' (by rw [hm])
    | error e => exact hw (.ok ()) (h s') (by rw [hm])
  · intro hw r s' hm
    rcases hms : m s with _ | ⟨_ | u, s1⟩ <;> rw [hms] at hm
    · cases hm
    · cases hm; exact hw _ _ hms
    · cases hm; exact hw _ _ hms

end Rules

/-- A loop over a list keeps what every pass keeps. -/
theorem wp_forEach {body : ι → Eff σ ε Unit} {l : List ι} {I : σ → Prop} {E : ε → σ → Prop} {s : σ} (hs : I s)
    (hb : ∀ x ∈ l, ∀ s, I s → wp (body x) (fun _ => I) E s) : wp (Eff.forEach body l) (fun _ => I) E s := by
  induction l generalizing s with
  | nil => simpa [Eff.forEach] using hs
  | cons x l ih =>
    simp only [Eff.forEach, wp_bind]
    refine wp_mono (hb x (by simp) s hs) (fun _ s' h => ?_) (fun _ _ h => h)
    exact ih h (fun y hy => hb y (by simp [hy]))

/-- A `while` loop keeps what its test and its body keep; it is left when the test fails. -/
theorem wp_whileDo {cond : Eff σ ε Bool} {body : Eff σ ε Unit} {I : σ → Prop} {J : Bool → σ → Prop}
    {E : ε → σ → Prop} {fuel : Nat} {s : σ} (hs : I s) (hc : ∀ s, I s → wp cond J E s)
    (hb : ∀ s, J true s → wp body (fun _ => I) E s) : wp (Eff.whileDo cond body fuel) (fun _ => J false) E s := by
  induction fuel generalizing s with
  | zero => exact wp_diverge
  | succ fuel ih =>
    simp only [Eff.whileDo, wp_bind]
    refine wp_mono (hc s hs) (fun b s' h => ?_) (fun _ _ h => h)
    cases b with
    | true =>
      simp only [if_true, wp_bind]
      exact wp_mono (hb s' h) (fun _ s'' h => ih h) (fun _ _ h => h)
    | false => simpa using h

/-- A loop over a list does for each element what its pass does for it, if the other passes leave it done. -/
theorem wp_forEach_each {body : ι → Eff σ ε Unit} {l : List ι} {I : σ → Prop} {P : ι → σ → Prop} {E : ε → σ → Prop}
    {s : σ} (hs : I s)
    (hb : ∀ x ∈ l, ∀ s, I s → wp (body x) (fun _ s' => I s' ∧ P x s' ∧ ∀ y, P y s → P y s') E s) :
    wp (Eff.forEach body l) (fun _ s' => I s' ∧ (∀ x ∈ l, P x s') ∧ ∀ y, P y s → P y s') E s := by
  induction l generalizing s with
  | nil => simpa [Eff.forEach] using hs
  | cons x l ih =>
    simp only [Eff.forEach, wp_bind]
    refine wp_mono (hb x (by simp) s hs) (fun _ s' h => ?_) fun _ _ h => h
    obtain ⟨hI, hx, hkeep⟩ := h
    refine wp_mono (ih hI fun y hy => hb y (by simp [hy])) (fun _ s'' h' => ?_) fun _ _ h => h
    obtain ⟨hI', hl, hkeep'⟩ := h'
    refine ⟨hI', fun y hy => ?_, fun y hy => hkeep' y (hkeep y hy)⟩
    rcases List.mem_cons.1 hy with rfl | hy
    · exact hkeep' y hx
    · exact hl y hy

/-! ## Code that stays within a relation -/

/-- However `m` ends, in a state that `R` relates to the one it started in. -/
def Within (R : σ → σ → Prop) (m : Eff σ ε α) : Prop := ∀ s, wp m (fun _ => R s) (fun _ => R s) s

section Within
variable {R : σ → σ → Prop} {m : Eff σ ε α}

theorem within_pure [Std.Refl R] (a : α) : Within R (pure a : Eff σ ε α) := fun s => (wp_pure a).2 (Std.Refl.refl s)

theorem within_throw [Std.Refl R] (e : ε) : Within R (Eff.throw e : Eff σ ε α) :=
  fun s => (wp_throw e).2 (Std.Refl.refl s)

theorem within_get [Std.Refl R] : Within R (Eff.get : Eff σ ε σ) := fun s => wp_get.2 (Std.Refl.refl s)

theorem within_modify {f : σ → σ} (hf : ∀ s, R s (f s)) : Within R (Eff.modify f : Eff σ ε Unit) :=
  fun s => (wp_modify f).2 (hf s)

theorem Within.bind [IsTrans σ R] {f : α → Eff σ ε β} (hm : Within R m) (hf : ∀ a, Within R (f a)) :
    Within R (m >>= f) := by
  intro s
  rw [wp_bind]
  refine wp_mono (hm s) (fun a s' h => ?_) fun _ _ h => h
  exact wp_mono (hf a s') (fun _ _ h' => IsTrans.trans _ _ _ h h') fun _ _ h' => IsTrans.trans _ _ _ h h'

theorem Within.swallow [IsTrans σ R] {m : Eff σ ε Unit} {f : σ → σ} (hm : Within R m) (hf : ∀ s, R s (f s)) :
    Within R (m.swallow f) := by
  intro s
  rw [wp_swallow]
  exact wp_mono (hm s) (fun _ _ h => h) fun _ s' h => IsTrans.trans _ _ _ h (hf s')

theorem Within.forEach [IsPreorder σ R] {body : ι → Eff σ ε Unit} (hb : ∀ x, Within R (body x)) (l : List ι) :
    Within R (Eff.forEach body l) := by
  induction l with
  | nil => exact within_pure ()
  | cons x l ih => exact (hb x).bind fun _ => ih

theorem Within.whileDo [IsPreorder σ R] {cond : Eff σ ε Bool} {body : Eff σ ε Unit} (hc : Within R cond)
    (hb : Within R body) (fuel : Nat) : Within R (Eff.whileDo cond body fuel) := by
  induction fuel with
  | zero => exact fun _ => wp_diverge
  | succ fuel ih =>
    refine hc.bind fun b => ?_
    cases b with
    | true => exact hb.bind fun _ => ih
    | false => exact within_pure ()

end Within

/-! ## Which exceptions code throws -/

/-- Every exception of `m` is one of which `T` holds. -/
def ThrowsOnly (T : ε → Prop) (m : Eff σ ε α) : Prop := ∀ s, wp m (fun _ _ => True) (fun e _ => T e) s

section ThrowsOnly
variable {T : ε → Prop} {m : Eff σ ε α}

theorem throwsOnly_pure (a : α) : ThrowsOnly T (pure a : Eff σ ε α) := fun _ => (wp_pure a).2 trivial

theorem throwsOnly_throw {e : ε} (h : T e) : ThrowsOnly T (Eff.throw e : Eff σ ε α) := fun _ => (wp_throw e).2 h

theorem throwsOnly_get : ThrowsOnly T (Eff.get : Eff σ ε σ) := fun _ => wp_get.2 trivial

theorem throwsOnly_modify (f : σ → σ) : ThrowsOnly T (Eff.modify f : Eff σ ε Unit) := fun _ => (wp_modify f).2 trivial

theorem ThrowsOnly.bind {f : α → Eff σ ε β} (hm : ThrowsOnly T m) (hf : ∀ a, ThrowsOnly T (f a)) :
    ThrowsOnly T (m >>= f) := by
  intro s
  rw [wp_bind]
  exact wp_mono (hm s) (fun a s' _ => hf a s') fun _ _ h => h

/-- Whatever `m` throws is dropped. -/
theorem throwsOnly_swallow (m : Eff σ ε Unit) (f : σ → σ) : ThrowsOnly T (m.swallow f) := by
  intro s
  rw [wp_swallow]
  intro r s' _
  cases r <;> trivial

theorem ThrowsOnly.forEach {body : ι → Eff σ ε Unit} (hb : ∀ x, ThrowsOnly T (body x)) (l : List ι) :
    ThrowsOnly T (Eff.forEach body l) := by
  induction l with
  | nil => exact throwsOnly_pure ()
  | cons x l ih => exact (hb x).bind fun _ => ih

theorem ThrowsOnly.whileDo {cond : Eff σ ε Bool} {body : Eff σ ε Unit} (hc : ThrowsOnly T cond) (hb : ThrowsOnly T body)
    (fuel : Nat) : ThrowsOnly T (Eff.whileDo cond body fuel) := by
  induction fuel with
  | zero => exact fun _ => wp_diverge
  | succ fuel ih =>
    refine hc.bind fun b => ?_
    cases b with
    | true => exact hb.bind fun _ => ih
    | false => exact throwsOnly_pure ()

end ThrowsOnly

/-! ## Total correctness -/

/-- `m` returns from `s`, with a value and in a state that satisfy `Q`. -/
def Returns (m : Eff σ ε α) (Q : α → σ → Prop) (s : σ) : Prop := ∃ a s', m s = some (.ok a, s') ∧ Q a s'

/-- Code ends in one way only. -/
theorem Returns.wp {m : Eff σ ε α} {Q : α → σ → Prop} {s : σ} (h : Returns m Q s) (E : ε → σ → Prop) : wp m Q E s := by
  obtain ⟨a, s₁, hm, hQ⟩ := h
  intro r s' hm'
  rw [hm] at hm'
  cases hm'
  exact hQ

theorem Returns.and_wp {m : Eff σ ε α} {Q Q' : α → σ → Prop} {E : ε → σ → Prop} {s : σ} (h : Returns m Q s)
    (h' : EffLib.wp m Q' E s) : Returns m (fun a t => Q a t ∧ Q' a t) s := by
  obtain ⟨a, s', hm, hQ⟩ := h
  exact ⟨a, s', hm, hQ, wp_ok h' hm⟩

theorem Returns.mono {m : Eff σ ε α} {Q Q' : α → σ → Prop} {s : σ} (h : Returns m Q s)
    (hQ : ∀ a s', Q a s' → Q' a s') : Returns m Q' s := by
  obtain ⟨a, s', hm, h⟩ := h
  exact ⟨a, s', hm, hQ a s' h⟩

section Rules
variable {Q : α → σ → Prop} {s : σ}

theorem returns_congr {m m' : Eff σ ε α} {s' : σ} (h : m s = m' s') : Returns m Q s ↔ Returns m' Q s' := by
  unfold Returns
  rw [h]

theorem returns_of_ok {m : Eff σ ε α} {a : α} {s' : σ} (hm : m s = some (.ok a, s')) : Returns m Q s ↔ Q a s' := by
  unfold Returns
  rw [hm]
  constructor
  · rintro ⟨b, s₁, heq, h⟩
    cases heq
    exact h
  · intro h
    exact ⟨a, s', rfl, h⟩

theorem returns_of_error {m : Eff σ ε α} {e : ε} {s' : σ} (hm : m s = some (.error e, s')) :
    Returns m Q s ↔ False := by
  unfold Returns
  rw [hm]
  refine ⟨?_, False.elim⟩
  rintro ⟨b, s₁, heq, -⟩
  cases heq

@[simp] theorem returns_pure (a : α) : Returns (pure a : Eff σ ε α) Q s ↔ Q a s := by
  constructor
  · rintro ⟨b, s', hm, h⟩
    cases hm
    exact h
  · intro h
    exact ⟨a, s, rfl, h⟩

@[simp] theorem returns_bind (m : Eff σ ε β) (f : β → Eff σ ε α) :
    Returns (m >>= f) Q s ↔ Returns m (fun b s' => Returns (f b) Q s') s := by
  have hb : (m >>= f) s = match m s with
    | none => none
    | some (.error e, s') => some (.error e, s')
    | some (.ok b, s') => f b s' := rfl
  unfold Returns
  rw [hb]
  constructor
  · rintro ⟨a, s', hm, h⟩
    rcases hms : m s with _ | ⟨_ | b, s₁⟩ <;> rw [hms] at hm
    · cases hm
    · cases hm
    · exact ⟨b, s₁, rfl, a, s', hm, h⟩
  · rintro ⟨b, s₁, hm, a, s', hf, h⟩
    rw [hm]
    exact ⟨a, s', hf, h⟩

@[simp] theorem returns_get {Q : σ → σ → Prop} : Returns (Eff.get : Eff σ ε σ) Q s ↔ Q s s := returns_of_ok rfl

@[simp] theorem returns_modify {Q : Unit → σ → Prop} (f : σ → σ) :
    Returns (Eff.modify f : Eff σ ε Unit) Q s ↔ Q () (f s) := returns_of_ok rfl

@[simp] theorem returns_throw (e : ε) : Returns (Eff.throw e : Eff σ ε α) Q s ↔ False := by
  refine ⟨?_, False.elim⟩
  rintro ⟨a, s', hm, -⟩
  cases hm

@[simp] theorem returns_diverge : Returns (Eff.diverge : Eff σ ε α) Q s ↔ False := by
  refine ⟨?_, False.elim⟩
  rintro ⟨a, s', hm, -⟩
  cases hm

theorem Returns.swallow {m : Eff σ ε Unit} {Q : Unit → σ → Prop} (h : Returns m Q s) (f : σ → σ) :
    Returns (m.swallow f) Q s := by
  obtain ⟨a, s', hm, hQ⟩ := h
  refine ⟨(), s', ?_, hQ⟩
  unfold Eff.swallow
  rw [hm]

/-- A loop over a list whose passes return, and keep an invariant. -/
theorem returns_forEach {body : ι → Eff σ ε Unit} {l : List ι} {I : σ → Prop} (hs : I s)
    (hb : ∀ x ∈ l, ∀ s, I s → Returns (body x) (fun _ s' => I s') s) :
    Returns (Eff.forEach body l) (fun _ s' => I s') s := by
  induction l generalizing s with
  | nil => simpa [Eff.forEach] using hs
  | cons x l ih =>
    simp only [Eff.forEach, returns_bind]
    refine (hb x (by simp) s hs).mono fun _ s' hs' => ?_
    exact ih hs' fun y hy => hb y (by simp [hy])

/-- A `while` loop with fuel left: it ends if its test fails, and goes on after one more pass if it holds. -/
theorem returns_whileDo_succ {cond : Eff σ ε Bool} {body : Eff σ ε Unit} {fuel : Nat} {Q : Unit → σ → Prop} {b : Bool}
    (hc : cond s = some (.ok b, s)) : Returns (Eff.whileDo cond body (fuel + 1)) Q s ↔
      if b then Returns body (fun _ => Returns (Eff.whileDo cond body fuel) Q) s else Q () s := by
  rw [Eff.whileDo, returns_bind, returns_of_ok hc]
  cases b with
  | true => simp only [if_true, returns_bind]
  | false => simp only [Bool.false_eq_true, if_false, returns_pure]

end Rules

end EffLib
