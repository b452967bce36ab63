import Mathlib.Data.List.Nodup
import Mathlib.Logic.Relation
/-!
# Chains of links

A doubly linked list whose cells are named by keys: `next` and `prev` give the
key that a cell points to, if any. `Chained` says that the cells of a list of
keys, and no other cells, are linked to each other in that order. Its rules say
what happens at one end; `Chained.mirror` carries each over to the other end.
-/

namespace ChainLib

variable {κ : Type} {next prev next' prev' : κ → Option κ} {head tail : Option κ} {l : List κ} {k t a b : κ}

/-! ## One direction -/

/-- Each cell of the list points to the one after it, the last one to none. -/
def Linked (next : κ → Option κ) : List κ → Prop
  | [] => True
  | k :: l => next k = l.head? ∧ Linked next l

theorem Linked.congr (h : Linked next l) (heq : ∀ a ∈ l, next' a = next a) : Linked next' l := by
  induction l with
  | nil => trivial
  | cons k l ih =>
    obtain ⟨hk, hl⟩ := h
    refine ⟨?_, ih hl fun a ha => heq a (List.mem_cons_of_mem k ha)⟩
    rw [heq k (List.mem_cons_self ..), hk]

/-- A cell before the last one still points to the cell after it. -/
theorem next_eq_of_not_last (ha : next a = some b) (hnot : a ∉ b :: l)
    (hrest : (b :: l).getLast? ≠ some a → next' a = next a) : next' a = some b := by
  have hne : (b :: l).getLast? ≠ some a := by
    intro heq
    exact hnot (List.mem_of_getLast? heq)
  rw [hrest hne, ha]

/-- A cell is linked in after the last one. -/
theorem Linked.concat (h : Linked next l) (hn : l.Nodup) (hk : next' k = none)
    (hlast : ∀ a, l.getLast? = some a → next' a = some k)
    (hrest : ∀ a ∈ l, l.getLast? ≠ some a → next' a = next a) : Linked next' (l ++ [k]) := by
  induction l with
  | nil => exact ⟨hk, trivial⟩
  | cons a l ih =>
    obtain ⟨ha, hl⟩ := h
    obtain ⟨hnot, hn⟩ := List.nodup_cons.1 hn
    cases l with
    | nil => exact ⟨hlast a rfl, hk, trivial⟩
    | cons b l =>
      rw [List.getLast?_cons_cons] at hlast hrest
      refine ⟨?_, ih hl hn hlast fun c hc => hrest c (List.mem_cons_of_mem a hc)⟩
      exact next_eq_of_not_last ha hnot (hrest a (List.mem_cons_self ..))

/-- The last cell is unlinked. -/
theorem Linked.dropLast (h : Linked next (l ++ [k])) (hn : (l ++ [k]).Nodup)
    (hlast : ∀ a, l.getLast? = some a → next' a = none)
    (hrest : ∀ a ∈ l, l.getLast? ≠ some a → next' a = next a) : Linked next' l := by
  induction l with
  | nil => trivial
  | cons a l ih =>
    obtain ⟨ha, hl⟩ := h
    obtain ⟨hnot, hn⟩ := List.nodup_cons.1 hn
    cases l with
    | nil => exact ⟨hlast a rfl, trivial⟩
    | cons b l =>
      rw [List.getLast?_cons_cons] at hlast hrest
      refine ⟨?_, ih hl hn hlast fun c hc => hrest c (List.mem_cons_of_mem a hc)⟩
      refine next_eq_of_not_last ha ?_ (hrest a (List.mem_cons_self ..))
      exact fun hmem => hnot (List.mem_append_left [k] hmem)

theorem Linked.of_append_right {l₁ : List κ} (h : Linked next (l₁ ++ l)) : Linked next l := by
  induction l₁ with
  | nil => exact h
  | cons _ _ ih => exact ih h.2

/-- A cell of the list points into it. -/
theorem Linked.mem (h : Linked next l) (ha : a ∈ l) (hb : next a = some b) : b ∈ l := by
  induction l with
  | nil => cases ha
  | cons k l ih =>
    obtain ⟨hk, hl⟩ := h
    rcases List.mem_cons.1 ha with rfl | ha
    · rw [hk] at hb
      exact List.mem_cons_of_mem _ (List.mem_of_head? hb)
    · exact List.mem_cons_of_mem _ (ih hl ha)

/-- The last cell points to none. -/
theorem Linked.next_last (h : Linked next l) (ha : l.getLast? = some a) : next a = none := by
  obtain ⟨before, rfl⟩ := List.getLast?_eq_some_iff.1 ha
  exact h.of_append_right.1

/-- The cells that can be reached from a cell. -/
def Reaches (next : κ → Option κ) : κ → κ → Prop := Relation.ReflTransGen fun a b => next a = some b

/-- The cells of a list are those that can be reached from its first one. -/
theorem Linked.mem_iff (h : Linked next l) : a ∈ l ↔ ∃ k, l.head? = some k ∧ Reaches next k a := by
  constructor
  · intro ha
    induction l with
    | nil => cases ha
    | cons k l ih =>
      obtain ⟨hk, hl⟩ := h
      refine ⟨k, rfl, ?_⟩
      rcases List.mem_cons.1 ha with rfl | ha
      · exact .refl
      · obtain ⟨b, hb, hr⟩ := ih hl ha
        exact .head (hk.trans hb) hr
  · rintro ⟨k, hk, hr⟩
    induction hr with
    | refl => exact List.mem_of_head? hk
    | tail _ hb ih => exact h.mem ih hb

/-! ## Both directions -/

/-- The cells of the list are linked in both directions, between the two ends. -/
structure Chained (next prev : κ → Option κ) (head tail : Option κ) (l : List κ) : Prop where
  nodup : l.Nodup
  next : Linked next l
  prev : Linked prev l.reverse
  head : head = l.head?
  tail : tail = l.getLast?

namespace Chained

theorem nil : Chained next prev none none ([] : List κ) := ⟨List.nodup_nil, trivial, trivial, rfl, rfl⟩

/-- The chain read from its other end. -/
theorem mirror (h : Chained next prev head tail l) : Chained prev next tail head l.reverse where
  nodup := List.nodup_reverse.2 h.nodup
  next := h.prev
  prev := by rw [List.reverse_reverse]; exact h.next
  head := by rw [List.head?_reverse, h.tail]
  tail := by rw [List.getLast?_reverse, h.head]

theorem singleton (hn : next k = none) (hp : prev k = none) : Chained next prev (some k) (some k) [k] :=
  ⟨List.nodup_singleton k, ⟨hn, trivial⟩, ⟨hp, trivial⟩, rfl, rfl⟩

theorem head_eq_none_iff (h : Chained next prev head tail l) : head = none ↔ l = [] := by
  rw [h.head, List.head?_eq_none_iff]

theorem tail_eq_none_iff (h : Chained next prev head tail l) : tail = none ↔ l = [] := by
  rw [h.tail, List.getLast?_eq_none_iff]

/-- A cell that is linked in after the tail is the new tail. -/
theorem concat (h : Chained next prev head (some t) l) (hmem : k ∉ l) (hk : next' k = none) (hp : prev' k = some t)
    (ht : next' t = some k) (hnext : ∀ a ∈ l, a ≠ t → next' a = next a) (hprev : ∀ a ∈ l, prev' a = prev a) :
    Chained next' prev' head (some k) (l ++ [k]) where
  nodup := by
    rw [← List.concat_eq_append, List.nodup_concat]
    exact ⟨hmem, h.nodup⟩
  next := by
    refine h.next.concat h.nodup hk ?_ ?_
    · intro a ha
      rw [← h.tail] at ha
      rwa [← Option.some.inj ha]
    · intro a ha hne
      rw [← h.tail] at hne
      refine hnext a ha ?_
      rintro rfl
      exact hne rfl
  prev := by
    rw [List.reverse_concat]
    refine ⟨?_, h.prev.congr fun a ha => hprev a (List.mem_reverse.1 ha)⟩
    rw [hp, h.tail, List.head?_reverse]
  head := by
    rw [h.head, List.head?_append_of_ne_nil]
    exact mt h.tail_eq_none_iff.2 (Option.some_ne_none t)
  tail := by rw [List.getLast?_concat]

/-- A cell that is linked in before the head is the new head. -/
theorem cons (h : Chained next prev (some t) tail l) (hmem : k ∉ l) (hk : prev' k = none) (hn : next' k = some t)
    (ht : prev' t = some k) (hprev : ∀ a ∈ l, a ≠ t → prev' a = prev a) (hnext : ∀ a ∈ l, next' a = next a) :
    Chained next' prev' (some k) tail (k :: l) := by
  have hcat := h.mirror.concat (mt List.mem_reverse.1 hmem) hk hn ht
    (fun a ha => hprev a (List.mem_reverse.1 ha)) (fun a ha => hnext a (List.mem_reverse.1 ha))
  simpa only [List.reverse_concat, List.reverse_reverse] using hcat.mirror

/-- The last cell points back to the one before it. -/
theorem prev_last (h : Chained next prev head tail (l ++ [k])) : prev k = l.getLast? := by
  have hp := h.prev
  rw [List.reverse_concat] at hp
  rw [hp.1, List.head?_reverse]

/-- The cell before the last one is the tail once it points to none. -/
theorem unlink_last (h : Chained next prev head tail (l ++ [k])) (ht : prev k = some t) (hlast : next' t = none)
    (hnext : ∀ a ∈ l, a ≠ t → next' a = next a) (hprev : ∀ a ∈ l, prev' a = prev a) :
    Chained next' prev' head (some t) l where
  nodup := h.nodup.of_append_left
  next := by
    rw [h.prev_last] at ht
    refine h.next.dropLast h.nodup ?_ ?_
    · intro a ha
      rw [ht] at ha
      rwa [← Option.some.inj ha]
    · intro a ha hne
      refine hnext a ha ?_
      rintro rfl
      exact hne ht
  prev := by
    have hp := h.prev
    rw [List.reverse_concat] at hp
    exact hp.2.congr fun a ha => hprev a (List.mem_reverse.1 ha)
  head := by
    rw [h.head, List.head?_append_of_ne_nil]
    rintro rfl
    rw [h.prev_last] at ht
    cases ht
  tail := by rw [← ht, h.prev_last]

/-- The first cell points to the one after it. -/
theorem next_first (h : Chained next prev head tail (k :: l)) : next k = l.head? := h.next.1

/-- The cell after the first one is the head once it points back to none. -/
theorem unlink_first (h : Chained next prev head tail (k :: l)) (ht : next k = some t) (hfirst : prev' t = none)
    (hprev : ∀ a ∈ l, a ≠ t → prev' a = prev a) (hnext : ∀ a ∈ l, next' a = next a) :
    Chained next' prev' (some t) tail l := by
  have hm := h.mirror
  rw [List.reverse_cons] at hm
  have hcut := hm.unlink_last ht hfirst (fun a ha => hprev a (List.mem_reverse.1 ha))
    (fun a ha => hnext a (List.mem_reverse.1 ha))
  simpa only [List.reverse_reverse] using hcut.mirror

/-- What a cell points to points back to it. -/
theorem prev_of_next (h : Chained next prev head tail l) (ha : a ∈ l) (hb : next a = some b) :
    prev b = some a := by
  obtain ⟨before, after, rfl⟩ := List.append_of_mem ha
  have hafter : next a = after.head? := h.next.of_append_right.1
  rw [hafter] at hb
  cases after with
  | nil => cases hb
  | cons c after =>
    obtain rfl : c = b := Option.some.inj hb
    have hp := h.prev
    rw [List.reverse_append, List.reverse_cons, List.reverse_cons, List.append_assoc, List.append_assoc] at hp
    exact hp.of_append_right.1

theorem next_of_prev (h : Chained next prev head tail l) (ha : a ∈ l) (hb : prev a = some b) :
    next b = some a := h.mirror.prev_of_next (List.mem_reverse.2 ha) hb

theorem next_tail (h : Chained next prev head (some a) l) : next a = none := h.next.next_last h.tail.symm

theorem prev_head (h : Chained next prev (some a) tail l) : prev a = none := h.mirror.next_tail

/-- The cells of a chain are those that can be reached from its head. -/
theorem mem_iff (h : Chained next prev head tail l) : a ∈ l ↔ ∃ k, head = some k ∧ Reaches next k a := by
  rw [h.head]
  exact h.next.mem_iff

end Chained

end ChainLib
