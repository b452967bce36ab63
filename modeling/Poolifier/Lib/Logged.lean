import Poolifier.Lib.Eff
/-!
# Code with a log

Code that returns what it has done, for those who reason about it. Without the
log it is other code (`Erases`), which does the same and ends the same way.
-/

namespace EffLib

variable {σ ε α β ι : Type}

/-- A loop over a list whose passes return lists, all of them. -/
def Eff.collect (body : ι → Eff σ ε (List α)) : List ι → Eff σ ε (List α)
  | [] => pure []
  | x :: l => do
    let logged ← body x
    let rest ← Eff.collect body l
    pure (logged ++ rest)

/-- A `catch` after which nothing is returned. -/
def Eff.swallowLogged (m : Eff σ ε (List α)) (h : σ → σ) : Eff σ ε (List α) := fun s =>
  match m s with
  | none => none
  | some (.error _, s') => some (.ok [], h s')
  | some (.ok logged, s') => some (.ok logged, s')

/-- `m'` is `m` without what it returns. -/
def Erases (m : Eff σ ε α) (m' : Eff σ ε Unit) : Prop := ∀ s, m' s = (m s).map fun x => (x.1.map fun _ => (), x.2)

section Erases
variable {m : Eff σ ε α} {m' : Eff σ ε Unit}

theorem erases_pure (a : α) : Erases (pure a : Eff σ ε α) (pure ()) := fun _ => rfl

theorem erases_throw (e : ε) : Erases (Eff.throw e : Eff σ ε α) (Eff.throw e) := fun _ => rfl

theorem erases_self (m : Eff σ ε Unit) : Erases m m := by
  intro s
  rcases m s with _ | ⟨_ | _, s'⟩ <;> rfl

/-- Code after which only the log is made. -/
theorem Erases.andThen {f : α → Eff σ ε β} (hm : Erases m m') (hf : ∀ a, Erases (f a) (pure ())) : Erases (m >>= f) m' := by
  intro s
  show _ = (Eff.bind m f s).map _
  unfold Eff.bind
  rw [hm s]
  rcases m s with _ | ⟨_ | a, s'⟩
  · rfl
  · rfl
  · exact hf a s'

theorem Erases.bind {f : α → Eff σ ε β} {f' : Eff σ ε Unit} (hm : Erases m m') (hf : ∀ a, Erases (f a) f') :
    Erases (m >>= f) (m' >>= fun _ => f') := by
  intro s
  show Eff.bind m' (fun _ => f') s = (Eff.bind m f s).map _
  unfold Eff.bind
  rw [hm s]
  rcases m s with _ | ⟨_ | a, s'⟩
  · rfl
  · rfl
  · exact hf a s'

/-- The same code first. -/
theorem Erases.after {f : α → Eff σ ε β} {f' : α → Eff σ ε Unit} (m : Eff σ ε α) (hf : ∀ a, Erases (f a) (f' a)) :
    Erases (m >>= f) (m >>= f') := by
  intro s
  show Eff.bind m f' s = (Eff.bind m f s).map _
  unfold Eff.bind
  rcases m s with _ | ⟨_ | a, s'⟩
  · rfl
  · rfl
  · exact hf a s'

theorem Erases.swallow {m : Eff σ ε (List α)} (hm : Erases m m') (h : σ → σ) : Erases (m.swallowLogged h) (m'.swallow h) := by
  intro s
  unfold Eff.swallow Eff.swallowLogged
  rw [hm s]
  rcases m s with _ | ⟨_ | a, s'⟩ <;> rfl

theorem Erases.collect {body : ι → Eff σ ε (List α)} {body' : ι → Eff σ ε Unit} (hb : ∀ x, Erases (body x) (body' x))
    (l : List ι) : Erases (Eff.collect body l) (Eff.forEach body' l) := by
  induction l with
  | nil => exact erases_pure []
  | cons x l ih =>
    refine (hb x).bind fun logged => ?_
    intro s
    have hrest := ih s
    show _ = (Eff.bind (Eff.collect body l) (fun rest => pure (logged ++ rest)) s).map _
    unfold Eff.bind
    rw [hrest]
    rcases Eff.collect body l s with _ | ⟨_ | rest, s'⟩ <;> rfl

/-- Code that ends does so with a log, of which the code that returns it tells. -/
theorem Erases.logged {s s' : σ} {r : Except ε Unit} (h : Erases m m') (hm : m' s = some (r, s')) :
    ∃ r₁, m s = some (r₁, s') ∧ r = r₁.map fun _ => () := by
  rw [h s] at hm
  obtain ⟨⟨r₁, s₁⟩, hs, heq⟩ := Option.map_eq_some_iff.1 hm
  cases heq
  exact ⟨r₁, hs, rfl⟩

theorem Erases.forget {s s' : σ} {r : Except ε α} (h : Erases m m') (hm : m s = some (r, s')) :
    m' s = some (r.map fun _ => (), s') := by
  rw [h s, hm]
  rfl

end Erases

section Rules
variable {Q : List α → σ → Prop} {E : ε → σ → Prop} {s : σ}

@[simp] theorem wp_swallowLogged (m : Eff σ ε (List α)) (h : σ → σ) :
    wp (m.swallowLogged h) Q E s ↔ wp m Q (fun _ s' => Q [] (h s')) s := by
  have hb : m.swallowLogged h s = match m s with
    | none => none
    | some (.error _, s') => some (.ok [], h s')
    | some (.ok logged, s') => some (.ok logged, s') := rfl
  simp only [wp, hb]
  constructor
  · intro hw r s' hm
    cases r with
    | ok logged => exact hw (.ok logged) s' (by rw [hm])
    | error e => exact hw (.ok []) (h s') (by rw [hm])
  · intro hw r s' hm
    rcases hms : m s with _ | ⟨_ | logged, s1⟩ <;> rw [hms] at hm
    · cases hm
    · cases hm; exact hw _ _ hms
    · cases hm; exact hw _ _ hms

/-- A loop keeps what its passes keep, and what has been logged stays true of the states that come. -/
theorem wp_collect {body : ι → Eff σ ε (List α)} {I : σ → Prop} {P : α → σ → Prop} {l : List ι} {s : σ} (hs : I s)
    (hb : ∀ x ∈ l, ∀ s, I s → wp (body x) (fun logged s' => I s' ∧ (∀ a ∈ logged, P a s') ∧ ∀ a, P a s → P a s') E s) :
    wp (Eff.collect body l) (fun logged s' => I s' ∧ (∀ a ∈ logged, P a s') ∧ ∀ a, P a s → P a s') E s := by
  induction l generalizing s with
  | nil => exact (wp_pure _).2 ⟨hs, List.forall_mem_nil _, fun _ h => h⟩
  | cons x l ih =>
    simp only [Eff.collect, wp_bind, wp_pure]
    refine wp_mono (hb x List.mem_cons_self s hs) (fun logged s' h => ?_) fun _ _ h => h
    obtain ⟨hI, hlogged, hkeep⟩ := h
    refine wp_mono (ih hI fun y hy => hb y (List.mem_cons_of_mem _ hy)) (fun rest s'' h' => ?_) fun _ _ h => h
    obtain ⟨hI', hrest, hkeep'⟩ := h'
    refine ⟨hI', fun a ha => ?_, fun a ha => hkeep' a (hkeep a ha)⟩
    rcases List.mem_append.1 ha with ha | ha
    · exact hkeep' a (hlogged a ha)
    · exact hrest a ha

/-- What a loop over a list has done after each of its passes, by the elements it has passed and the log so far. -/
theorem wp_collect_along {body : ι → Eff σ ε (List α)} {J : List ι → List α → σ → Prop} {l : List ι} {s : σ} (hs : J [] [] s)
    (hb : ∀ done x rest, l = done ++ x :: rest → ∀ logged s, J done logged s →
      wp (body x) (fun more s' => J (done ++ [x]) (logged ++ more) s') E s) :
    wp (Eff.collect body l) (fun logged s' => J l logged s') E s := by
  have hrest (todo done : List ι) (logged : List α) (s : σ) (hl : l = done ++ todo) (hJ : J done logged s) :
      wp (Eff.collect body todo) (fun more s' => J l (logged ++ more) s') E s := by
    induction todo generalizing done logged s with
    | nil =>
      rw [List.append_nil] at hl
      refine (wp_pure _).2 ?_
      rwa [List.append_nil, hl]
    | cons x todo ih =>
      simp only [Eff.collect, wp_bind, wp_pure]
      refine wp_mono (hb done x todo hl logged s hJ) (fun more s' h => ?_) fun _ _ h => h
      refine wp_mono (ih (done ++ [x]) (logged ++ more) s' (by rw [hl, List.append_assoc]; rfl) h) (fun rest s'' h => ?_)
        fun _ _ h => h
      rwa [← List.append_assoc]
  exact hrest l [] [] s rfl hs

end Rules

end EffLib
