/-!
# Exceptions that keep the state

What `EStateM` code does, from what its parts do: a `catch` block runs in the
state that the exception left, and a `finally` block after either end. `Keeps`
is about code that may end either way: it relates the states before and after.
-/

namespace CatchLib

variable {ε σ α β : Type} {m : EStateM ε σ α} {s s' s'' : σ} {a : α} {e : ε}

theorem bind_of_ok (h : m s = .ok a s') (f : α → EStateM ε σ β) : (m >>= f) s = f a s' := by
  show EStateM.bind m f s = f a s'
  unfold EStateM.bind
  rw [h]

theorem bind_of_error (h : m s = .error e s') (f : α → EStateM ε σ β) : (m >>= f) s = .error e s' := by
  show EStateM.bind m f s = .error e s'
  unfold EStateM.bind
  rw [h]

theorem ofExcept_ok {x : Except ε α} (h : x = .ok a) : (ofExcept x : EStateM ε σ α) s = .ok a s := by
  rw [h]
  rfl

theorem ofExcept_error {x : Except ε α} (h : x = .error e) : (ofExcept x : EStateM ε σ α) s = .error e s := by
  rw [h]
  rfl

theorem bind_get (f : σ → EStateM ε σ β) (s : σ) : (get >>= f) s = f s s := rfl

theorem tryCatch_of_ok (h : m s = .ok a s') (f : ε → EStateM ε σ α) : (tryCatch m f) s = .ok a s' := by
  show EStateM.tryCatch m f s = .ok a s'
  unfold EStateM.tryCatch
  dsimp only
  rw [h]

/-- A `catch` block runs in the state that the exception left. -/
theorem tryCatch_of_error (h : m s = .error e s') (f : ε → EStateM ε σ α) : (tryCatch m f) s = f e s' := by
  show EStateM.tryCatch m f s = f e s'
  unfold EStateM.tryCatch
  dsimp only
  rw [h]
  rfl

/-- Reading the state first does not change what is caught. -/
theorem tryCatch_get (k : σ → EStateM ε σ α) (f : ε → EStateM ε σ α) (s : σ) :
    (tryCatch (get >>= k) f) s = (tryCatch (k s) f) s := rfl

theorem finally_of_ok {f : EStateM ε σ Unit} (h : m s = .ok a s') (hf : f s' = .ok () s'') :
    (tryFinally m f) s = .ok a s'' := by
  simp [tryFinally, tryFinally', Functor.map, EStateM.map, h, hf]

theorem finally_of_error {f : EStateM ε σ Unit} (h : m s = .error e s') (hf : f s' = .ok () s'') :
    (tryFinally m f) s = .error e s'' := by
  simp [tryFinally, tryFinally', Functor.map, EStateM.map, h, hf]

theorem finally_of_ok_of_error {f : EStateM ε σ Unit} (h : m s = .ok a s') (hf : f s' = .error e s'') :
    (tryFinally m f) s = .error e s'' := by
  simp [tryFinally, tryFinally', Functor.map, EStateM.map, h, hf]

theorem finally_of_error_of_error {f : EStateM ε σ Unit} {e' : ε} (h : m s = .error e s') (hf : f s' = .error e' s'') :
    (tryFinally m f) s = .error e' s'' := by
  simp [tryFinally, tryFinally', Functor.map, EStateM.map, h, hf]

/-! ## What code keeps -/

section Keeps
variable {R : σ → σ → Prop} {Q : α → Prop} {Q' : β → Prop}

/-- However the code ends, `R` relates the state before to the state after, and `Q` holds of what it returns. -/
def Keeps (R : σ → σ → Prop) (Q : α → Prop) (m : EStateM ε σ α) : Prop :=
  (∀ s a s', m s = .ok a s' → R s s' ∧ Q a) ∧ ∀ s e s', m s = .error e s' → R s s'

variable (hrefl : ∀ s, R s s) (htrans : ∀ s s' s'', R s s' → R s' s'' → R s s'')

include hrefl in
theorem keeps_pure (h : Q a) : Keeps R Q (pure a : EStateM ε σ α) := by
  refine ⟨fun s b s' hs => ?_, fun s e s' hs => ?_⟩
  · cases hs
    exact ⟨hrefl s, h⟩
  · cases hs

include hrefl in
theorem keeps_throw (e : ε) : Keeps R Q (throw e : EStateM ε σ α) := by
  refine ⟨fun s b s' hs => ?_, fun s e s' hs => ?_⟩
  · cases hs
  · cases hs
    exact hrefl s

include hrefl in
theorem keeps_get : Keeps R (fun _ => True) (get : EStateM ε σ σ) := by
  refine ⟨fun s b s' hs => ?_, fun s e s' hs => ?_⟩
  · cases hs
    exact ⟨hrefl s, trivial⟩
  · cases hs

theorem keeps_modify {f : σ → σ} (h : ∀ s, R s (f s)) : Keeps R (fun _ => True) (modify f : EStateM ε σ PUnit) := by
  refine ⟨fun s b s' hs => ?_, fun s e s' hs => ?_⟩
  · cases hs
    exact ⟨h s, trivial⟩
  · cases hs

include htrans in
theorem Keeps.bind {f : α → EStateM ε σ β} (hm : Keeps R Q m) (hf : ∀ a, Q a → Keeps R Q' (f a)) :
    Keeps R Q' (m >>= f) := by
  refine ⟨fun s b s' hs => ?_, fun s e s' hs => ?_⟩ <;> rcases h : m s with ⟨a, s₁⟩ | ⟨e₁, s₁⟩
  · rw [bind_of_ok h] at hs
    obtain ⟨hr, hq⟩ := hm.1 s a s₁ h
    obtain ⟨hr', hq'⟩ := (hf a hq).1 s₁ b s' hs
    exact ⟨htrans _ _ _ hr hr', hq'⟩
  · rw [bind_of_error h] at hs
    cases hs
  · rw [bind_of_ok h] at hs
    obtain ⟨hr, hq⟩ := hm.1 s a s₁ h
    exact htrans _ _ _ hr ((hf a hq).2 s₁ e s' hs)
  · rw [bind_of_error h] at hs
    cases hs
    exact hm.2 s _ _ h

include htrans in
theorem Keeps.tryCatch {f : ε → EStateM ε σ α} (hm : Keeps R Q m) (hf : ∀ e, Keeps R Q (f e)) :
    Keeps R Q (tryCatch m f) := by
  refine ⟨fun s b s' hs => ?_, fun s e s' hs => ?_⟩ <;> rcases h : m s with ⟨a, s₁⟩ | ⟨e₁, s₁⟩
  · rw [tryCatch_of_ok h] at hs
    cases hs
    exact hm.1 s _ _ h
  · rw [tryCatch_of_error h] at hs
    obtain ⟨hr, hq⟩ := (hf e₁).1 s₁ b s' hs
    exact ⟨htrans _ _ _ (hm.2 s e₁ s₁ h) hr, hq⟩
  · rw [tryCatch_of_ok h] at hs
    cases hs
  · rw [tryCatch_of_error h] at hs
    exact htrans _ _ _ (hm.2 s e₁ s₁ h) ((hf e₁).2 s₁ e s' hs)

include htrans in
theorem Keeps.finally {f : EStateM ε σ Unit} (hm : Keeps R Q m) (hf : Keeps R (fun _ => True) f) :
    Keeps R Q (tryFinally m f) := by
  refine ⟨fun s b s' hs => ?_, fun s e s' hs => ?_⟩ <;> rcases h : m s with ⟨a, s₁⟩ | ⟨e₁, s₁⟩ <;>
    rcases h' : f s₁ with ⟨⟨⟩, s₂⟩ | ⟨e₂, s₂⟩
  · rw [finally_of_ok h h'] at hs
    cases hs
    obtain ⟨hr, hq⟩ := hm.1 s _ _ h
    exact ⟨htrans _ _ _ hr (hf.1 _ _ _ h').1, hq⟩
  · rw [finally_of_ok_of_error h h'] at hs
    cases hs
  · rw [finally_of_error h h'] at hs
    cases hs
  · rw [finally_of_error_of_error h h'] at hs
    cases hs
  · rw [finally_of_ok h h'] at hs
    cases hs
  · rw [finally_of_ok_of_error h h'] at hs
    cases hs
    exact htrans _ _ _ (hm.1 s _ _ h).1 (hf.2 _ _ _ h')
  · rw [finally_of_error h h'] at hs
    cases hs
    exact htrans _ _ _ (hm.2 s _ _ h) (hf.1 _ _ _ h').1
  · rw [finally_of_error_of_error h h'] at hs
    cases hs
    exact htrans _ _ _ (hm.2 s _ _ h) (hf.2 _ _ _ h')

end Keeps

end CatchLib
