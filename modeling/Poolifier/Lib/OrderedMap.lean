import Mathlib.Data.List.Nodup
/-!
# Lists with distinct keys, and maps that keep the order of insertion

A map as JavaScript has it: its entries are in the order in which their keys
were first set. Setting a key again changes its value in place.
-/

namespace MapLib

/-! ## Lists with distinct keys -/

section Distinct
variable {α κ : Type} {f : α → κ} {l : List α} {a b : α}

theorem nodup_map_concat (h : (l.map f).Nodup) (ha : ∀ b ∈ l, f b ≠ f a) : ((l ++ [a]).map f).Nodup := by
  rw [List.map_append, List.map_singleton, ← List.concat_eq_append, List.nodup_concat]
  refine ⟨fun hmem => ?_, h⟩
  obtain ⟨b, hb, heq⟩ := List.mem_map.1 hmem
  exact ha b hb heq

/-- A member is the one that is erased, or stays. -/
theorem eq_or_mem_eraseIdx {i : Nat} (ha : l[i]? = some a) (hb : b ∈ l) : b = a ∨ b ∈ l.eraseIdx i := by
  obtain ⟨j, hj⟩ := List.mem_iff_getElem?.1 hb
  by_cases hji : j = i
  · rw [hji, ha] at hj
    cases hj
    exact .inl rfl
  · exact .inr (List.mem_eraseIdx_iff_getElem?.2 ⟨j, hji, hj⟩)

theorem ne_of_mem_eraseIdx (h : (l.map f).Nodup) {i : Nat} (ha : l[i]? = some a) (hb : b ∈ l.eraseIdx i) :
    f b ≠ f a := by
  obtain ⟨j, hne, hj⟩ := List.mem_eraseIdx_iff_getElem?.1 hb
  intro heq
  apply hne
  have hlt : j < (l.map f).length := by
    rw [List.length_map]
    exact (List.getElem?_eq_some_iff.1 hj).1
  refine (List.getElem?_inj hlt h).1 ?_
  rw [List.getElem?_map, List.getElem?_map, ha, hj, Option.map_some, Option.map_some, heq]

theorem ne_of_mem_eraseP [DecidableEq κ] {k : κ} (h : (l.map f).Nodup) (hb : b ∈ l.eraseP fun x => f x = k) :
    f b ≠ k := by
  induction l with
  | nil => cases hb
  | cons x l ih =>
    obtain ⟨hx, hl⟩ := List.nodup_cons.1 h
    by_cases hk : f x = k
    · rw [List.eraseP_cons_of_pos (by simpa using hk)] at hb
      rintro rfl
      exact hx (hk ▸ List.mem_map_of_mem hb)
    · rw [List.eraseP_cons_of_neg (by simpa using hk)] at hb
      rcases List.mem_cons.1 hb with rfl | hb
      · exact hk
      · exact ih hl hb

end Distinct

/-! ## Maps -/

structure OrderedMap (κ ν : Type) where
  entries : List (κ × ν)
  nodup : (entries.map Prod.fst).Nodup
deriving DecidableEq

namespace OrderedMap

variable {κ ν : Type}

def empty : OrderedMap κ ν := ⟨[], List.nodup_nil⟩

def keys (m : OrderedMap κ ν) : List κ := m.entries.map Prod.fst

variable [DecidableEq κ]

def get (m : OrderedMap κ ν) (k : κ) : Option ν := (m.entries.find? (·.1 = k)).map Prod.snd

def has (m : OrderedMap κ ν) (k : κ) : Bool := (m.get k).isSome

/-- The value of an entry changes if its key is `k`. -/
def assign (k : κ) (v : ν) (e : κ × ν) : κ × ν := if e.1 = k then (k, v) else e

theorem assign_fst (k : κ) (v : ν) (e : κ × ν) : (assign k v e).1 = e.1 := by
  unfold assign
  split
  · rename_i h
    exact h.symm
  · rfl

theorem map_assign_fst (k : κ) (v : ν) (l : List (κ × ν)) : (l.map (assign k v)).map Prod.fst = l.map Prod.fst := by
  rw [List.map_map]
  congr 1
  funext e
  exact assign_fst k v e

def set (m : OrderedMap κ ν) (k : κ) (v : ν) : OrderedMap κ ν :=
  if h : k ∈ m.keys then ⟨m.entries.map (assign k v), by rw [map_assign_fst]; exact m.nodup⟩
  else ⟨m.entries ++ [(k, v)], by
    rw [List.map_append, List.nodup_append]
    refine ⟨m.nodup, List.nodup_singleton k, ?_⟩
    intro a ha b hb hab
    have hbk : b = k := by simpa using hb
    rw [hab, hbk] at ha
    exact h ha⟩

def delete (m : OrderedMap κ ν) (k : κ) : OrderedMap κ ν where
  entries := m.entries.filter fun e => e.1 ≠ k
  nodup := m.nodup.sublist ((List.filter_sublist).map Prod.fst)

/-! ## Reading back -/

variable {m : OrderedMap κ ν} {k k' : κ} {v : ν}

@[simp] theorem get_empty (k : κ) : (empty : OrderedMap κ ν).get k = none := rfl

theorem get_eq_none_iff : m.get k = none ↔ k ∉ m.keys := by
  unfold get keys
  rw [Option.map_eq_none_iff, List.find?_eq_none, List.mem_map]
  constructor
  · rintro h ⟨e, he, rfl⟩
    exact h e he (by simp)
  · intro h e he heq
    exact h ⟨e, he, by simpa using heq⟩

theorem mem_keys_of_get (h : m.get k = some v) : k ∈ m.keys := by
  by_contra hnot
  rw [get_eq_none_iff.2 hnot] at h
  cases h

theorem find_keys_of_get (h : m.get k = some v) : m.keys.find? (· = k) = some k := by
  rcases hfind : m.keys.find? (· = k) with _ | found
  · exact absurd (decide_eq_true rfl) (List.find?_eq_none.1 hfind _ (mem_keys_of_get h))
  · have hfound := List.find?_some hfind
    rw [of_decide_eq_true hfound]

theorem find_map_assign_self {l : List (κ × ν)} (h : k ∈ l.map Prod.fst) :
    (l.map (assign k v)).find? (·.1 = k) = some (k, v) := by
  induction l with
  | nil => cases h
  | cons e l ih =>
    by_cases he : e.1 = k
    · simp [assign, he]
    · have hmem : k ∈ l.map Prod.fst := by simpa [Ne.symm he] using h
      rw [List.map_cons, List.find?_cons_of_neg (by simpa [assign_fst] using he)]
      exact ih hmem

theorem find_map_assign_ne (hne : k' ≠ k) (l : List (κ × ν)) :
    (l.map (assign k v)).find? (·.1 = k') = l.find? (·.1 = k') := by
  induction l with
  | nil => rfl
  | cons e l ih =>
    by_cases he : e.1 = k'
    · simp [assign, he, hne]
    · rw [List.map_cons, List.find?_cons_of_neg (by simpa [assign_fst] using he),
        List.find?_cons_of_neg (by simpa using he)]
      exact ih

@[simp] theorem get_set_self (m : OrderedMap κ ν) (k : κ) (v : ν) : (m.set k v).get k = some v := by
  unfold set
  split
  · rename_i h
    unfold get
    rw [find_map_assign_self h]
    rfl
  · rename_i h
    have hnone : m.entries.find? (·.1 = k) = none := by
      have hget := get_eq_none_iff.2 h
      rwa [get, Option.map_eq_none_iff] at hget
    simp [get, List.find?_append, hnone]

theorem get_set_ne (m : OrderedMap κ ν) (v : ν) (h : k' ≠ k) : (m.set k v).get k' = m.get k' := by
  unfold set
  split
  · unfold get
    rw [find_map_assign_ne h]
  · simp [get, List.find?_append, Ne.symm h]

theorem get_set (m : OrderedMap κ ν) (k k' : κ) (v : ν) :
    (m.set k v).get k' = if k' = k then some v else m.get k' := by
  split
  · rename_i h
    rw [h, get_set_self]
  · rename_i h
    exact get_set_ne m v h

/-- Setting the value that is there changes nothing. -/
theorem set_of_get (h : m.get k = some v) : m.set k v = m := by
  have hassign (e : κ × ν) (he : e ∈ m.entries) : assign k v e = e := by
    unfold assign
    split
    · rename_i hk
      obtain ⟨found, hfind, hv⟩ := Option.map_eq_some_iff.1 h
      have hfound : found.1 = k := by simpa using List.find?_some hfind
      have hsame : found = e :=
        List.inj_on_of_nodup_map m.nodup (List.mem_of_find?_eq_some hfind) he (hfound.trans hk.symm)
      rw [← hsame, ← hfound, ← hv]
    · rfl
  unfold set
  rw [dif_pos (mem_keys_of_get h)]
  cases m
  rw [OrderedMap.mk.injEq]
  exact (List.map_congr_left hassign).trans (List.map_id _)

theorem get_delete (m : OrderedMap κ ν) (k k' : κ) : (m.delete k).get k' = if k' = k then none else m.get k' := by
  unfold delete get
  rw [List.find?_filter]
  split
  · rename_i h
    subst h
    rw [Option.map_eq_none_iff, List.find?_eq_none]
    intro e _
    simp
  · rename_i h
    congr 2
    funext e
    by_cases he : e.1 = k'
    · simp [he, h]
    · simp [he]

/-- Deleting a key that is not there changes nothing. -/
theorem delete_of_get_eq_none (h : m.get k = none) : m.delete k = m := by
  have hkey := get_eq_none_iff.1 h
  have hentries : m.entries.filter (fun e => e.1 ≠ k) = m.entries := by
    rw [List.filter_eq_self]
    intro e he
    refine decide_eq_true fun heq => hkey ?_
    rw [← heq]
    exact List.mem_map_of_mem he
  cases m
  unfold delete
  rw [OrderedMap.mk.injEq]
  exact hentries

end OrderedMap

end MapLib
