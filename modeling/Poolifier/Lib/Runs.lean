import Mathlib.Logic.Relation
/-!
# Runs of a step relation

A `Run` is a sequence of events that a system handles one after the other. A
theorem about every `Run` holds for every interleaving of the parties that
cause the events. Conditions on single steps are runs of a smaller relation
(`Guarded`), so the rules below serve for these too.
-/

namespace RunLib

variable {St Ev : Type}

/-- The runs of `Step` from `s₀`: the events handled so far and the state reached. -/
inductive Run (Step : St → Ev → St → Prop) (s₀ : St) : List Ev → St → Prop
  | nil : Run Step s₀ [] s₀
  | step {es s e s'} : Run Step s₀ es s → Step s e s' → Run Step s₀ (es ++ [e]) s'

/-- The steps of `Step` that meet a condition on the state before them and the event. -/
def Guarded (ok : St → Ev → Prop) (Step : St → Ev → St → Prop) (s : St) (e : Ev) (s' : St) : Prop :=
  ok s e ∧ Step s e s'

variable {Step Step' : St → Ev → St → Prop} {s₀ s : St} {es : List Ev}

/-- What every step keeps holds after every run, of the events and the state. -/
theorem Run.trace_inv (I : List Ev → St → Prop) (h : Run Step s₀ es s) (h0 : I [] s₀)
    (hs : ∀ es s e s', I es s → Step s e s' → I (es ++ [e]) s') : I es s := by
  induction h with
  | nil => exact h0
  | step _ ht ih => exact hs _ _ _ _ ih ht

/-- What every step keeps holds after every run. -/
theorem Run.inv (I : St → Prop) (h : Run Step s₀ es s) (h0 : I s₀) (hs : ∀ s e s', I s → Step s e s' → I s') :
    I s :=
  h.trace_inv (fun _ => I) h0 fun _ => hs

/-- Steps that keep an invariant, and are steps of another relation where it holds. -/
theorem Run.mono_of_inv (I : St → Prop) (h : Run Step s₀ es s) (h0 : I s₀)
    (hs : ∀ s e s', I s → Step s e s' → I s' ∧ Step' s e s') : I s ∧ Run Step' s₀ es s := by
  induction h with
  | nil => exact ⟨h0, .nil⟩
  | step _ ht ih =>
    obtain ⟨hinv, hrun⟩ := ih
    obtain ⟨hinv', ht'⟩ := hs _ _ _ hinv ht
    exact ⟨hinv', .step hrun ht'⟩

theorem Run.mono (h : Run Step s₀ es s) (hs : ∀ s e s', Step s e s' → Step' s e s') : Run Step' s₀ es s :=
  (h.mono_of_inv (fun _ => True) trivial fun s e s' _ ht => ⟨trivial, hs s e s' ht⟩).2

theorem Run.append {es' : List Ev} {s' : St} (h : Run Step s₀ es s) (h' : Run Step s es' s') :
    Run Step s₀ (es ++ es') s' := by
  induction h' with
  | nil => simpa using h
  | step _ ht ih => rw [← List.append_assoc]; exact .step ih ht

/-! ## Runs through good states -/

/-- A run all of whose states are good. -/
def Through (good : St → Prop) (Step : St → Ev → St → Prop) (s₀ : St) (es : List Ev) (s : St) : Prop :=
  Run (Guarded (fun s _ => good s) Step) s₀ es s ∧ good s

/-- A run through good states starts in one. -/
theorem Through.first {good : St → Prop} (h : Through good Step s₀ es s) : good s₀ := by
  obtain ⟨hr, hgood⟩ := h
  induction hr with
  | nil => exact hgood
  | step _ ht ih => exact ih ht.1

/-- Where a condition on the step before decides whether the next state is good, a run is through
good states if and only if its steps meet the condition. -/
theorem through_iff {good : St → Prop} {ok : St → Ev → Prop} (I : St → Prop) (h0 : I s₀) (hg : good s₀)
    (hs : ∀ s e s', I s → good s → Step s e s' → I s' ∧ (ok s e ↔ good s')) :
    Through good Step s₀ es s ↔ Run (Guarded ok Step) s₀ es s := by
  constructor
  · rintro ⟨h, hgood⟩
    have hrun : I s ∧ Run (Guarded ok Step) s₀ es s := by
      induction h with
      | nil => exact ⟨h0, .nil⟩
      | step _ ht ih =>
        obtain ⟨hinv, hrun⟩ := ih ht.1
        obtain ⟨hinv', hok⟩ := hs _ _ _ hinv ht.1 ht.2
        exact ⟨hinv', .step hrun ⟨hok.2 hgood, ht.2⟩⟩
    exact hrun.2
  · intro h
    have hrun : (I s ∧ good s) ∧ Run (Guarded (fun s _ => good s) Step) s₀ es s := by
      refine h.mono_of_inv (fun s => I s ∧ good s) ⟨h0, hg⟩ ?_
      rintro s e s' ⟨hinv, hgood⟩ ⟨hmeets, ht⟩
      obtain ⟨hinv', hok⟩ := hs s e s' hinv hgood ht
      exact ⟨⟨hinv', hok.1 hmeets⟩, hgood, ht⟩
    exact ⟨hrun.2, hrun.1.2⟩

/-- The steps of `Step` that are good. -/
def Such (good : St → Ev → St → Prop) (Step : St → Ev → St → Prop) (s : St) (e : Ev) (s' : St) : Prop :=
  good s e s' ∧ Step s e s'

/-- Where a condition on the state before decides whether a step is good, and good steps keep what the decision
rests on, the steps of a run are good if and only if they meet the condition. -/
theorem run_such_iff_of_kept {good : St → Ev → St → Prop} {ok : St → Ev → Prop} (I : St → Prop) (h0 : I s₀)
    (hs : ∀ s e s', I s → Step s e s' → (ok s e ↔ good s e s') ∧ (ok s e → I s')) :
    Run (Such good Step) s₀ es s ↔ Run (Guarded ok Step) s₀ es s := by
  constructor
  · intro h
    refine (h.mono_of_inv I h0 ?_).2
    rintro s e s' hinv ⟨hgood, ht⟩
    obtain ⟨hok, hinv'⟩ := hs s e s' hinv ht
    exact ⟨hinv' (hok.2 hgood), hok.2 hgood, ht⟩
  · intro h
    refine (h.mono_of_inv I h0 ?_).2
    rintro s e s' hinv ⟨hmeets, ht⟩
    obtain ⟨hok, hinv'⟩ := hs s e s' hinv ht
    exact ⟨hinv' hmeets, hok.1 hmeets, ht⟩

/-- The same, where every step keeps what the decision rests on. -/
theorem run_such_iff {good : St → Ev → St → Prop} {ok : St → Ev → Prop} (I : St → Prop) (h0 : I s₀)
    (hs : ∀ s e s', I s → Step s e s' → I s' ∧ (ok s e ↔ good s e s')) :
    Run (Such good Step) s₀ es s ↔ Run (Guarded ok Step) s₀ es s := by
  refine run_such_iff_of_kept I h0 fun s e s' hinv ht => ?_
  obtain ⟨hinv', hok⟩ := hs s e s' hinv ht
  exact ⟨hok, fun _ => hinv'⟩

/-! ## Running a list of events -/

/-- Runs `es` one after the other with a function that computes steps. -/
def replay (next : St → Ev → Option St) : St → List Ev → Option St
  | s, [] => some s
  | s, e :: es => (next s e).bind fun s' => replay next s' es

theorem run_of_replay {f : St → Ev → Option St} (hn : ∀ s e s', f s e = some s' → Step s e s') {s' : St}
    (h : replay f s es = some s') : Run Step s es s' := by
  induction es generalizing s with
  | nil => cases h; exact .nil
  | cons e es ih =>
    obtain ⟨s1, h1, h2⟩ := Option.bind_eq_some_iff.1 h
    exact Run.append (.step .nil (hn _ _ _ h1)) (ih h2)

/-- Events that run to a state in which `P` holds. -/
theorem exists_run_of_replay {f : St → Ev → Option St} (hn : ∀ s e s', f s e = some s' → Step s e s') {P : St → Prop}
    [DecidablePred P] (h : (replay f s es).any (fun s' => decide (P s')) = true) : ∃ s', Run Step s es s' ∧ P s' := by
  rcases hs : replay f s es with _ | s'
  · rw [hs] at h
    cases h
  · rw [hs] at h
    exact ⟨s', run_of_replay hn hs, of_decide_eq_true h⟩

/-- Computes the steps that meet a condition. -/
def nextWhere (ok : St → Ev → Prop) [∀ s e, Decidable (ok s e)] (f : St → Ev → Option St) (s : St) (e : Ev) :
    Option St := if ok s e then f s e else none

theorem guarded_of_nextWhere {ok : St → Ev → Prop} [∀ s e, Decidable (ok s e)] {f : St → Ev → Option St}
    (hn : ∀ s e s', f s e = some s' → Step s e s') (s : St) (e : Ev) (s' : St) (h : nextWhere ok f s e = some s') :
    Guarded ok Step s e s' := by
  unfold nextWhere at h
  split at h
  · rename_i hok
    exact ⟨hok, hn s e s' h⟩
  · cases h

/-! ## Closed predicates -/

/-- A predicate kept by every step of a relation is kept along its chains. -/
theorem inv_of_chain {α : Type} {r : α → α → Prop} {I : α → Prop} (hr : ∀ a b, r a b → I a → I b) {a b : α}
    (h : Relation.ReflTransGen r a b) (ha : I a) : I b := by
  induction h with
  | refl => exact ha
  | tail _ hbc ih => exact hr _ _ hbc ih

end RunLib
