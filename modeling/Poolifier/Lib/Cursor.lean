import Poolifier.Lib.Runs
/-!
# A cursor into a list whose size changes

A cursor points at the element of a list that is served next. The list grows at
its end and loses elements anywhere; the cursor walks over it. When an element
is lost, the cursor starts again if nothing is left, and steps back if it
pointed at that element and at nothing now. `Safe` is the condition under which
a change keeps the cursor in range.
-/

namespace CursorLib

open RunLib

structure Cursor where
  size : Nat
  pos : Int

inductive Change
  | grow
  | drop (k : Nat)
  | walk
  | stay

namespace Cursor

def InRange (c : Cursor) : Prop := 0 < c.size → 0 ≤ c.pos ∧ c.pos < c.size

/-- The element at `k` is lost. -/
def drop (k : Nat) (c : Cursor) : Cursor :=
  let pos := if c.size = 1 then 0 else c.pos
  ⟨c.size - 1, if pos = k ∧ pos > (c.size : Int) - 2 then (c.size : Int) - 2 else pos⟩

/-- A walk from a position in range goes to one in range. -/
inductive Step : Cursor → Change → Cursor → Prop
  | grow (c : Cursor) : Step c .grow ⟨c.size + 1, c.pos⟩
  | drop (c : Cursor) (k : Nat) : k < c.size → Step c (.drop k) (c.drop k)
  | walk (c : Cursor) (pos : Int) : 0 < c.size → (c.InRange → 0 ≤ pos ∧ pos < c.size) → Step c .walk ⟨c.size, pos⟩
  | stay (c : Cursor) : Step c .stay c

/-- A list that is empty does not grow unless the cursor is at its start, and a cursor at
the last element loses no element before it. -/
def Safe (c : Cursor) : Change → Prop
  | .grow => c.size = 0 → c.pos = 0
  | .drop k => c.pos = c.size - 1 → c.pos = k
  | .walk => True
  | .stay => True

/-- Where the cursor can be while it is in range: an empty list leaves it at the start or before it. -/
def AtRest (c : Cursor) : Prop := c.size = 0 → c.pos = 0 ∨ c.pos = -1

theorem drop_atRest {c : Cursor} {k : Nat} (hk : k < c.size) : (c.drop k).AtRest := by
  intro h
  simp only [drop] at h ⊢
  have h1 : c.size = 1 := by omega
  have hk0 : k = 0 := by omega
  rw [if_pos h1, h1, hk0]
  decide

theorem drop_inRange_iff {c : Cursor} {k : Nat} (hc : c.InRange) (hk : k < c.size) :
    (c.Safe (.drop k) ↔ (c.drop k).InRange) := by
  obtain ⟨h0, hlt⟩ := hc (by omega)
  simp only [Safe, InRange, drop]
  by_cases h1 : c.size = 1
  · constructor
    · intro _ h
      omega
    · intro _ h
      omega
  · rw [if_neg h1]
    by_cases hp : c.pos = k ∧ c.pos > (c.size : Int) - 2
    · rw [if_pos hp]
      omega
    · rw [if_neg hp]
      omega

theorem step_inRange_iff {c c' : Cursor} {e : Change} (hrest : c.AtRest) (hc : c.InRange) (h : Step c e c') :
    c'.AtRest ∧ (c.Safe e ↔ c'.InRange) := by
  cases h with
  | grow =>
    refine ⟨fun h => absurd h (Nat.succ_ne_zero _), ?_⟩
    simp only [Safe, InRange]
    rcases Nat.eq_zero_or_pos c.size with h0 | hpos
    · have := hrest h0
      omega
    · have := hc hpos
      omega
  | drop k hk => exact ⟨drop_atRest hk, drop_inRange_iff hc hk⟩
  | walk pos hpos hw =>
    refine ⟨fun h => absurd h (Nat.pos_iff_ne_zero.1 hpos), ?_⟩
    exact ⟨fun _ _ => hw hc, fun _ => trivial⟩
  | stay => exact ⟨hrest, fun _ => hc, fun _ => trivial⟩

end Cursor

end CursorLib
