import Mathlib.Algebra.BigOperators.Group.Finset.Piecewise
import Mathlib.Algebra.Order.BigOperators.Group.Finset
import Mathlib.Data.Finset.Lattice.Basic
import Poolifier.Lib.Runs
/-!
# Runs of a system and of its parts

The parts of a system keep states of their own, and an event of the system
moves a part or leaves it as it is. So a run of the system is a run of each of
its parts, over the events that move it; and what is counted part by part is
bounded as a whole.
-/

namespace RunLib

variable {St Ev St' Ev' : Type} {Step : St → Ev → St → Prop} {Step' : St' → Ev' → St' → Prop} {on : Ev → Option Ev'}
  {s₀ s : St} {a₀ a a' : St'} {es : List Ev} {e : Ev}

/-- What an event of a system does to one of its parts: the step that it is there, or nothing. -/
structure MovesPart (Step' : St' → Ev' → St' → Prop) (on : Ev → Option Ev') (e : Ev) (a a' : St') : Prop where
  moves : ∀ e', on e = some e' → Step' a e' a'
  stays : on e = none → a' = a

theorem movesPart_of_some {e' : Ev'} (he : on e = some e') (h : Step' a e' a') : MovesPart Step' on e a a' := by
  refine ⟨fun e'' he'' => ?_, fun hnone => ?_⟩
  · rw [he] at he''
    cases he''
    exact h
  · rw [he] at hnone
    cases hnone

theorem movesPart_of_none (he : on e = none) : MovesPart Step' on e a a := by
  refine ⟨fun e' he' => ?_, fun _ => rfl⟩
  rw [he] at he'
  cases he'

/-- A part of a part is a part. -/
theorem MovesPart.comp {St'' Ev'' : Type} {Step'' : St'' → Ev'' → St'' → Prop} {on' : Ev' → Option Ev''} {part : St' → St''}
    (h : MovesPart Step' on e a a') (h' : ∀ e', Step' a e' a' → MovesPart Step'' on' e' (part a) (part a')) :
    MovesPart Step'' (fun e => (on e).bind on') e (part a) (part a') := by
  rcases hon : on e with _ | e'
  · rw [h.stays hon]
    exact movesPart_of_none (by simp [hon])
  · have hpart := h' e' (h.moves e' hon)
    refine ⟨fun e'' he'' => hpart.moves e'' ?_, fun hnone => hpart.stays ?_⟩
    · simpa [hon] using he''
    · simpa [hon] using hnone

/-- The run of a part goes on with the events of the system. -/
theorem Run.part (h : Run Step' a₀ (es.filterMap on) a) (he : MovesPart Step' on e a a') :
    Run Step' a₀ ((es ++ [e]).filterMap on) a' := by
  rw [List.filterMap_append]
  rcases hon : on e with _ | e'
  · rw [he.stays hon]
    simpa [hon] using h
  · have hstep := Run.step h (he.moves e' hon)
    simpa [hon] using hstep

/-- A run whose events satisfy a condition on what they do to a part is a run of the part under that condition. -/
theorem Run.part_guarded (ok : St' → Ev' → Prop) (part : St → St') (I : List Ev → St → Prop) (h₀ : I [] s₀)
    (hI : ∀ es s e s', I es s → Step s e s' → I (es ++ [e]) s' ∧ MovesPart Step' on e (part s) (part s'))
    (h : Run (Guarded (fun s e => ∀ e' ∈ on e, ok (part s) e') Step) s₀ es s) :
    Run (Guarded ok Step') (part s₀) (es.filterMap on) (part s) := by
  have hboth := h.trace_inv (fun es s => I es s ∧ Run (Guarded ok Step') (part s₀) (es.filterMap on) (part s)) ⟨h₀, .nil⟩ ?_
  · exact hboth.2
  · rintro es s e s' ⟨hs, hr⟩ ⟨hok, hstep⟩
    obtain ⟨hs', hmoves⟩ := hI es s e s' hs hstep
    exact ⟨hs', hr.part ⟨fun e' he' => ⟨hok e' he', hmoves.moves e' he'⟩, hmoves.stays⟩⟩

/-- A run up to one of its events, and on from there. -/
theorem Run.split (h : Run Step s₀ es s) (he : e ∈ es) : ∃ es₁ s₁ s₂ es₂, es = es₁ ++ e :: es₂ ∧
    Run Step s₀ es₁ s₁ ∧ Step s₁ e s₂ ∧ Run Step s₂ es₂ s := by
  induction h with
  | nil => cases he
  | @step es s e' s' hrun hstep ih =>
    rcases List.mem_append.1 he with he | he
    · obtain ⟨es₁, s₁, s₂, es₂, rfl, hbefore, hat, hafter⟩ := ih he
      refine ⟨es₁, s₁, s₂, es₂ ++ [e'], ?_, hbefore, hat, .step hafter hstep⟩
      rw [List.append_assoc, List.cons_append]
    · rw [List.mem_singleton.1 he]
      exact ⟨es, s, s', [], rfl, hrun, hstep, .nil⟩

/-! ## Counting part by part -/

section Count
variable {ι : Type} [DecidableEq ι] {part : Ev → Option ι} {p q : Ev → Bool}

theorem sum_countP_le (part : Ev → Option ι) (q : Ev → Bool) (W : Finset ι) (es : List Ev) :
    ∑ i ∈ W, es.countP (fun e => q e && part e = some i) ≤ es.countP q := by
  induction es with
  | nil => simp
  | cons e es ih =>
    simp only [List.countP_cons, Finset.sum_add_distrib]
    refine Nat.add_le_add ih ?_
    rcases hpart : part e with _ | i
    · simp
    · cases hq : q e <;> simp [Finset.sum_ite_eq]
      split <;> simp

theorem countP_le_sum {W : Finset ι} (h : ∀ e ∈ es, p e = true → ∃ i ∈ W, part e = some i) :
    es.countP p ≤ ∑ i ∈ W, es.countP (fun e => p e && part e = some i) := by
  induction es with
  | nil => simp
  | cons e es ih =>
    simp only [List.countP_cons, Finset.sum_add_distrib]
    refine Nat.add_le_add (ih fun e' he' => h e' (List.mem_cons_of_mem _ he')) ?_
    cases hp : p e
    · simp
    · obtain ⟨i, hi, hpart⟩ := h e List.mem_cons_self hp
      simp [hpart, hi, Finset.sum_ite_eq]

/-- Events of parts that are no more than others in each part are no more than these in the system. -/
theorem countP_le_of_parts (part : Ev → Option ι) (hp : ∀ e ∈ es, p e = true → (part e).isSome = true)
    (h : ∀ i, es.countP (fun e => p e && part e = some i) ≤ es.countP (fun e => q e && part e = some i)) :
    es.countP p ≤ es.countP q :=
  calc es.countP p
      ≤ ∑ i ∈ (es.filterMap part).toFinset, es.countP (fun e => p e && part e = some i) := by
        refine countP_le_sum fun e he hpe => ?_
        obtain ⟨i, hi⟩ := Option.isSome_iff_exists.1 (hp e he hpe)
        exact ⟨i, List.mem_toFinset.2 (List.mem_filterMap.2 ⟨e, he, hi⟩), hi⟩
    _ ≤ ∑ i ∈ (es.filterMap part).toFinset, es.countP (fun e => q e && part e = some i) :=
        Finset.sum_le_sum fun i _ => h i
    _ ≤ es.countP q := sum_countP_le part q _ es

end Count

end RunLib
