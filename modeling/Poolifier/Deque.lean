import Poolifier.Node
import Poolifier.Lib.Chain
import Mathlib.Data.List.Induction
import Mathlib.Order.Bounds.Defs
/-!
# The deque

`Deque`, the doubly linked list that holds the tasks of a worker node and the
promises of its queues. Its nodes are objects that are shared by reference, so
they are in a list of all the nodes ever made, and a reference is a position in
it. Over any sequence of calls the structure is the plain list that the model
of the pool has in its place.
-/

namespace Poolifier
open ChainLib

variable {α : Type}

/-! ## Nodes and links -/

namespace Deque

/-- A `Node` of a deque. -/
structure Node (α : Type) where
  data : α
  next : Option Nat
  prev : Option Nat

end Deque

structure Deque (α : Type) where
  /-- Every node made so far. -/
  nodes : List (Deque.Node α)
  head : Option Nat
  tail : Option Nat
  size : Int
  maxSize : Int

namespace Deque

def next (d : Deque α) (node : Nat) : Option Nat := d.nodes[node]?.bind Node.next

def prev (d : Deque α) (node : Nat) : Option Nat := d.nodes[node]?.bind Node.prev

def data (d : Deque α) (node : Nat) : Option α := d.nodes[node]?.map Node.data

/-- `new Node(data)`: the new node is at the end of the list of nodes. -/
def newNode (d : Deque α) (data : α) : Deque α := { d with nodes := d.nodes ++ [⟨data, none, none⟩] }

/-- `node.next = next`, or `delete node.next`. -/
def setNext (d : Deque α) (node : Nat) (next : Option Nat) : Deque α :=
  { d with nodes := d.nodes.modify node fun n => { n with next } }

/-- `node.prev = prev`, or `delete node.prev`. -/
def setPrev (d : Deque α) (node : Nat) (prev : Option Nat) : Deque α :=
  { d with nodes := d.nodes.modify node fun n => { n with prev } }

section Fields
variable (d : Deque α) (x : α) (a b : Nat) (v head tail : Option Nat) (size maxSize : Int)

/-- Links and data are those of the nodes, whatever the other fields are. -/
@[simp] theorem next_mk : (Deque.mk d.nodes head tail size maxSize).next = d.next := rfl
@[simp] theorem prev_mk : (Deque.mk d.nodes head tail size maxSize).prev = d.prev := rfl
@[simp] theorem data_mk : (Deque.mk d.nodes head tail size maxSize).data = d.data := rfl

theorem getElem?_newNode_ne (h : a ≠ d.nodes.length) : (d.newNode x).nodes[a]? = d.nodes[a]? := by
  unfold newNode
  rcases Nat.lt_or_gt_of_ne h with h | h
  · rw [List.getElem?_append_left h]
  · rw [List.getElem?_eq_none h.le, List.getElem?_eq_none (by rw [List.length_append]; exact h)]

/-- A new node points to none, as no node did. -/
theorem next_newNode : (d.newNode x).next a = d.next a := by
  unfold next
  rcases eq_or_ne a d.nodes.length with rfl | h
  · simp [newNode]
  · rw [getElem?_newNode_ne d x a h]

theorem prev_newNode : (d.newNode x).prev a = d.prev a := by
  unfold prev
  rcases eq_or_ne a d.nodes.length with rfl | h
  · simp [newNode]
  · rw [getElem?_newNode_ne d x a h]

theorem data_newNode_self : (d.newNode x).data d.nodes.length = some x := by simp [data, newNode]

theorem data_newNode_of_ne (h : a ≠ d.nodes.length) : (d.newNode x).data a = d.data a := by
  unfold data
  rw [getElem?_newNode_ne d x a h]

/-- A write to a node is not seen in what it leaves as it was. -/
theorem bind_modify {β : Type} (f : Node α → Node α) (g : Node α → Option β) (hg : ∀ n, g (f n) = g n) :
    (d.nodes.modify a f)[b]?.bind g = d.nodes[b]?.bind g := by
  rw [List.getElem?_modify]
  cases d.nodes[b]? with
  | none => rfl
  | some n =>
    change g (if a = b then f n else n) = g n
    split
    · exact hg n
    · rfl

theorem next_setNext_self (h : a < d.nodes.length) : (d.setNext a v).next a = v := by
  simp [next, setNext, List.getElem?_eq_getElem h]

theorem next_setNext_none : (d.setNext a none).next a = none := by
  unfold next setNext
  rw [List.getElem?_modify_eq]
  cases d.nodes[a]? <;> rfl

theorem next_setNext_of_ne (h : b ≠ a) : (d.setNext a v).next b = d.next b := by
  unfold next setNext
  rw [List.getElem?_modify_ne _ _ h.symm]

@[simp] theorem prev_setNext : (d.setNext a v).prev b = d.prev b :=
  bind_modify d a b _ _ fun _ => rfl

@[simp] theorem data_setNext : (d.setNext a v).data b = d.data b := by
  unfold data setNext
  rw [Option.map_eq_bind, Option.map_eq_bind, bind_modify]
  exact fun _ => rfl

theorem prev_setPrev_self (h : a < d.nodes.length) : (d.setPrev a v).prev a = v := by
  simp [prev, setPrev, List.getElem?_eq_getElem h]

theorem prev_setPrev_none : (d.setPrev a none).prev a = none := by
  unfold prev setPrev
  rw [List.getElem?_modify_eq]
  cases d.nodes[a]? <;> rfl

theorem prev_setPrev_of_ne (h : b ≠ a) : (d.setPrev a v).prev b = d.prev b := by
  unfold prev setPrev
  rw [List.getElem?_modify_ne _ _ h.symm]

@[simp] theorem next_setPrev : (d.setPrev a v).next b = d.next b :=
  bind_modify d a b _ _ fun _ => rfl

@[simp] theorem data_setPrev : (d.setPrev a v).data b = d.data b := by
  unfold data setPrev
  rw [Option.map_eq_bind, Option.map_eq_bind, bind_modify]
  exact fun _ => rfl

/-- The node that is made next has no links yet. -/
theorem next_fresh : d.next d.nodes.length = none := by
  rw [next, List.getElem?_eq_none le_rfl]
  rfl

theorem prev_fresh : d.prev d.nodes.length = none := by
  rw [prev, List.getElem?_eq_none le_rfl]
  rfl

theorem length_newNode : (d.newNode x).nodes.length = d.nodes.length + 1 := by
  rw [newNode, List.length_append, List.length_singleton]

theorem length_setNext : (d.setNext a v).nodes.length = d.nodes.length := List.length_modify ..

theorem length_setPrev : (d.setPrev a v).nodes.length = d.nodes.length := List.length_modify ..

end Fields

/-! ## The methods -/

/-- The constructor clears the deque. -/
def clear (d : Deque α) : Deque α := { d with head := none, tail := none, size := 0, maxSize := 0 }

def new : Deque α := clear ⟨[], none, none, 0, 0⟩

def incrementSize (d : Deque α) : Deque α × Int :=
  let d := { d with size := d.size + 1 }
  let d := if d.size > d.maxSize then { d with maxSize := d.size } else d
  (d, d.size)

def push (d : Deque α) (data : α) : Deque α × Int :=
  let node := d.nodes.length
  match d.tail with
  | none => incrementSize { d.newNode data with head := some node, tail := some node }
  | some tail =>
    incrementSize { ((d.newNode data).setPrev node (some tail)).setNext tail (some node) with tail := some node }

def unshift (d : Deque α) (data : α) : Deque α × Int :=
  let node := d.nodes.length
  match d.head with
  | none => incrementSize { d.newNode data with head := some node, tail := some node }
  | some head =>
    incrementSize { ((d.newNode data).setNext node (some head)).setPrev head (some node) with head := some node }

theorem incrementSize_eq (d : Deque α) :
    d.incrementSize = ({ d with size := d.size + 1, maxSize := max d.maxSize (d.size + 1) }, d.size + 1) := by
  by_cases h : d.size + 1 > d.maxSize
  · simp only [incrementSize, if_pos h, max_eq_right h.le]
  · simp only [incrementSize, if_neg h, max_eq_left (not_lt.1 h)]

/-- `pop` reads the tail once it has seen a head. -/
def pop (d : Deque α) : Except JsError (Deque α × Option α) :=
  match d.head, d.tail with
  | none, _ => .ok (d, none)
  | some _, none => .error .undefinedAccess
  | some _, some tail =>
    let d' := { d with tail := d.prev tail }
    let d' := match d'.tail with
      | none => { d' with head := none }
      | some last => d'.setNext last none
    .ok ({ d' with size := d'.size - 1 }, d.data tail)

def shift (d : Deque α) : Deque α × Option α :=
  match d.head with
  | none => (d, none)
  | some head =>
    let d' := { d with head := d.next head }
    let d' := match d'.head with
      | none => { d' with tail := none }
      | some first => d'.setPrev first none
    ({ d' with size := d'.size - 1 }, d.data head)

def peekFirst (d : Deque α) : Option α := d.head.bind d.data

def peekLast (d : Deque α) : Option α := d.tail.bind d.data

/-! ## Iteration -/

structure IteratorResult (α : Type) where
  value : Option α
  done : Bool

/-- `next()` of the iterator that `Symbol.iterator` gives, with the node it is at. -/
def forwardNext (d : Deque α) : Option Nat → IteratorResult α × Option Nat
  | none => (⟨none, true⟩, none)
  | some node => (⟨d.data node, false⟩, d.next node)

/-- `next()` of the iterator that `backward()` gives. -/
def backwardNext (d : Deque α) : Option Nat → IteratorResult α × Option Nat
  | none => (⟨none, true⟩, none)
  | some node => (⟨d.data node, false⟩, d.prev node)

/-- The values that an iterator gives until it is done, if it is within so many calls. -/
def iterate (next : Option Nat → IteratorResult α × Option Nat) : Nat → Option Nat → Option (List (Option α))
  | 0, _ => none
  | calls + 1, node =>
    let (result, node) := next node
    if result.done then some [] else (iterate next calls node).map (result.value :: ·)

def forward (d : Deque α) (calls : Nat) : Option (List (Option α)) := iterate d.forwardNext calls d.head

def backward (d : Deque α) (calls : Nat) : Option (List (Option α)) := iterate d.backwardNext calls d.tail

/-! ## What a chain of nodes holds -/

/-- The nodes of the deque are those of `chain`, which hold `items`. -/
structure Holds (d : Deque α) (chain : List Nat) (items : List α) : Prop where
  chained : Chained d.next d.prev d.head d.tail chain
  data : chain.map d.data = items.map some
  size : d.size = items.length
  size_le : d.size ≤ d.maxSize

section Holds
variable {d : Deque α} {chain : List Nat} {items : List α} {x : α}

theorem holds_clear (d : Deque α) : Holds d.clear [] [] := ⟨.nil, rfl, rfl, le_rfl⟩

theorem Holds.lt (h : Holds d chain items) {a : Nat} (ha : a ∈ chain) : a < d.nodes.length := by
  have hmem : d.data a ∈ chain.map d.data := List.mem_map_of_mem ha
  rw [h.data] at hmem
  obtain ⟨x, -, hx⟩ := List.mem_map.1 hmem
  by_contra hle
  rw [Deque.data, List.getElem?_eq_none (Nat.le_of_not_lt hle)] at hx
  cases hx

theorem Holds.fresh (h : Holds d chain items) : d.nodes.length ∉ chain := fun hmem => lt_irrefl _ (h.lt hmem)

/-- A node made since is not one of the chain. -/
theorem Holds.map_data (h : Holds d chain items) : chain.map (d.newNode x).data = items.map some := by
  rw [← h.data]
  refine List.map_congr_left fun a ha => data_newNode_of_ne d x a ?_
  rintro rfl
  exact h.fresh ha

theorem Holds.length_eq (h : Holds d chain items) : chain.length = items.length := by
  have hlen := congrArg List.length h.data
  rwa [List.length_map, List.length_map] at hlen

theorem Holds.eq_nil_iff (h : Holds d chain items) : chain = [] ↔ items = [] := by
  rw [← List.length_eq_zero_iff, ← List.length_eq_zero_iff, h.length_eq]

/-! ## What each method does to it -/

/-- A call leaves the chain of the list `items'`, and the size that was the greatest so far. -/
def Leaves (d d' : Deque α) (items' : List α) : Prop :=
  (∃ chain', Holds d' chain' items') ∧ d'.maxSize = max d.maxSize items'.length

/-- A node more is counted once it is linked in. -/
theorem incrementSize_leaves {d' : Deque α} {items' : List α} (chain' : List Nat)
    (hc : Chained d'.next d'.prev d'.head d'.tail chain') (hd : chain'.map d'.data = items'.map some)
    (hs : d'.size + 1 = items'.length) (hm : d'.maxSize = d.maxSize) :
    Leaves d d'.incrementSize.1 items' ∧ d'.incrementSize.2 = items'.length := by
  rw [incrementSize_eq]
  refine ⟨⟨⟨chain', hc, hd, hs, le_max_right _ _⟩, ?_⟩, hs⟩
  change max d'.maxSize (d'.size + 1) = max d.maxSize items'.length
  rw [hm, hs]

/-- A node less is counted once it is unlinked. -/
theorem Holds.leaves_less (h : Holds d chain items) {d' : Deque α} {items' : List α} (chain' : List Nat)
    (hc : Chained d'.next d'.prev d'.head d'.tail chain') (hd : chain'.map d'.data = items'.map some)
    (hs : d'.size = d.size - 1) (hlen : items.length = items'.length + 1) (hm : d'.maxSize = d.maxSize) :
    Leaves d d' items' := by
  have hsize : d'.size = items'.length := by
    rw [hs, h.size, hlen, Nat.cast_add, Nat.cast_one, add_sub_cancel_right]
  have hle : d'.size ≤ d.maxSize := by
    have hle := h.size_le
    omega
  refine ⟨⟨chain', hc, hd, hsize, by rwa [hm]⟩, ?_⟩
  rw [hm, ← hsize, max_eq_left hle]

theorem Holds.tail_mem (h : Holds d chain items) {a : Nat} (ha : d.tail = some a) : a ∈ chain := by
  rw [h.chained.tail] at ha
  exact List.mem_of_getLast? ha

theorem Holds.head_mem (h : Holds d chain items) {a : Nat} (ha : d.head = some a) : a ∈ chain := by
  rw [h.chained.head] at ha
  exact List.mem_of_head? ha

/-- The node that is made next is none of the chain's. -/
theorem Holds.ne_fresh (h : Holds d chain items) {a : Nat} (ha : a ∈ chain) : a ≠ d.nodes.length := by
  rintro rfl
  exact h.fresh ha

theorem Holds.push (h : Holds d chain items) (x : α) :
    Leaves d (d.push x).1 (items ++ [x]) ∧ (d.push x).2 = (items ++ [x]).length := by
  have hdata : (chain ++ [d.nodes.length]).map (d.newNode x).data = (items ++ [x]).map some := by
    rw [List.map_append, h.map_data, List.map_singleton, data_newNode_self, List.map_append, List.map_singleton]
  have hsize : d.size + 1 = (items ++ [x]).length := by
    rw [h.size, List.length_append, List.length_singleton, Nat.cast_add, Nat.cast_one]
  unfold Deque.push
  rcases htail : d.tail with _ | tail
  · refine incrementSize_leaves _ ?_ hdata hsize rfl
    rw [h.chained.tail_eq_none_iff.1 htail]
    exact .singleton (by rw [next_mk, next_newNode, next_fresh]) (by rw [prev_mk, prev_newNode, prev_fresh])
  · have hmem := h.tail_mem htail
    refine incrementSize_leaves (chain ++ [d.nodes.length]) ?_ ?_ hsize rfl
    · have hc := h.chained
      rw [htail] at hc
      refine hc.concat h.fresh ?_ ?_ ?_ ?_ ?_
      · rw [next_mk, next_setNext_of_ne _ _ _ _ (h.ne_fresh hmem).symm, next_setPrev, next_newNode, next_fresh]
      · rw [prev_mk, prev_setNext, prev_setPrev_self]
        rw [length_newNode]
        exact Nat.lt_succ_self _
      · rw [next_mk, next_setNext_self]
        rw [length_setPrev, length_newNode]
        exact Nat.lt_succ_of_lt (h.lt hmem)
      · intro a ha hne
        rw [next_mk, next_setNext_of_ne _ _ _ _ hne, next_setPrev, next_newNode]
      · intro a ha
        rw [prev_mk, prev_setNext, prev_setPrev_of_ne _ _ _ _ (h.ne_fresh ha), prev_newNode]
    · rw [← hdata]
      refine List.map_congr_left fun a _ => ?_
      rw [data_mk, data_setNext, data_setPrev]

theorem Holds.unshift (h : Holds d chain items) (x : α) :
    Leaves d (d.unshift x).1 (x :: items) ∧ (d.unshift x).2 = (x :: items).length := by
  have hdata : (d.nodes.length :: chain).map (d.newNode x).data = (x :: items).map some := by
    rw [List.map_cons, h.map_data, data_newNode_self, List.map_cons]
  have hsize : d.size + 1 = (x :: items).length := by
    rw [h.size, List.length_cons, Nat.cast_add, Nat.cast_one]
  unfold Deque.unshift
  rcases hhead : d.head with _ | head
  · refine incrementSize_leaves _ ?_ hdata hsize rfl
    rw [h.chained.head_eq_none_iff.1 hhead]
    exact .singleton (by rw [next_mk, next_newNode, next_fresh]) (by rw [prev_mk, prev_newNode, prev_fresh])
  · have hmem := h.head_mem hhead
    refine incrementSize_leaves (d.nodes.length :: chain) ?_ ?_ hsize rfl
    · have hc := h.chained
      rw [hhead] at hc
      refine hc.cons h.fresh ?_ ?_ ?_ ?_ ?_
      · rw [prev_mk, prev_setPrev_of_ne _ _ _ _ (h.ne_fresh hmem).symm, prev_setNext, prev_newNode, prev_fresh]
      · rw [next_mk, next_setPrev, next_setNext_self]
        rw [length_newNode]
        exact Nat.lt_succ_self _
      · rw [prev_mk, prev_setPrev_self]
        rw [length_setNext, length_newNode]
        exact Nat.lt_succ_of_lt (h.lt hmem)
      · intro a ha hne
        rw [prev_mk, prev_setPrev_of_ne _ _ _ _ hne, prev_setNext, prev_newNode]
      · intro a ha
        rw [next_mk, next_setPrev, next_setNext_of_ne _ _ _ _ (h.ne_fresh ha), next_newNode]
    · rw [← hdata]
      refine List.map_congr_left fun a _ => ?_
      rw [data_mk, data_setPrev, data_setNext]

/-- The last node holds the last item. -/
theorem Holds.last (h : Holds d chain (items ++ [x])) :
    ∃ chain' node, chain = chain' ++ [node] ∧ chain'.map d.data = items.map some ∧ d.data node = some x := by
  have hdata := h.data
  rw [List.map_append] at hdata
  obtain ⟨chain', last, rfl, hchain, hlast⟩ := List.map_eq_append_iff.1 hdata
  obtain ⟨node, rfl, hnode⟩ := List.map_eq_singleton_iff.1 hlast
  exact ⟨chain', node, rfl, hchain, hnode⟩

/-- The first node holds the first item. -/
theorem Holds.first (h : Holds d chain (x :: items)) :
    ∃ chain' node, chain = node :: chain' ∧ chain'.map d.data = items.map some ∧ d.data node = some x := by
  obtain ⟨node, chain', rfl, hnode, hchain⟩ := List.map_eq_cons_iff.1 h.data
  exact ⟨chain', node, rfl, hchain, hnode⟩

theorem Holds.pop_empty (h : Holds d chain []) : d.pop = .ok (d, none) := by
  have hhead : d.head = none := h.chained.head_eq_none_iff.2 (h.eq_nil_iff.2 rfl)
  unfold Deque.pop
  simp only [hhead]

theorem Holds.shift_empty (h : Holds d chain []) : d.shift = (d, none) := by
  have hhead : d.head = none := h.chained.head_eq_none_iff.2 (h.eq_nil_iff.2 rfl)
  unfold Deque.shift
  simp only [hhead]

theorem Holds.pop (h : Holds d chain (items ++ [x])) :
    ∃ d', d.pop = .ok (d', some x) ∧ Leaves d d' items := by
  obtain ⟨chain', node, rfl, hchain, hnode⟩ := h.last
  have htail : d.tail = some node := by rw [h.chained.tail, List.getLast?_concat]
  have hlen : (items ++ [x]).length = items.length + 1 := by rw [List.length_append, List.length_singleton]
  rcases hhead : d.head with _ | head
  · have hnil := h.chained.head_eq_none_iff.1 hhead
    rw [List.append_eq_nil_iff] at hnil
    cases hnil.2
  unfold Deque.pop
  simp only [hhead, htail, hnode]
  rcases hprev : d.prev node with _ | last
  · refine ⟨_, rfl, h.leaves_less chain' ?_ hchain rfl hlen rfl⟩
    have hnil : chain' = [] := by
      rw [← List.getLast?_eq_none_iff, ← h.chained.prev_last, hprev]
    subst hnil
    exact .nil
  · refine ⟨_, rfl, h.leaves_less chain' ?_ ?_ rfl hlen rfl⟩
    · have hc := h.chained
      rw [hhead] at hc
      refine hc.unlink_last hprev ?_ ?_ ?_
      · exact next_setNext_none _ _
      · intro a _ hne
        exact next_setNext_of_ne _ _ _ _ hne
      · intro a _
        exact prev_setNext _ _ _ _
    · rw [← hchain]
      exact List.map_congr_left fun a _ => data_setNext _ _ _ _

theorem Holds.shift (h : Holds d chain (x :: items)) :
    d.shift.2 = some x ∧ Leaves d d.shift.1 items := by
  obtain ⟨chain', node, rfl, hchain, hnode⟩ := h.first
  have hhead : d.head = some node := by rw [h.chained.head, List.head?_cons]
  have hlen : (x :: items).length = items.length + 1 := List.length_cons
  unfold Deque.shift
  simp only [hhead]
  refine ⟨hnode, ?_⟩
  rcases hnext : d.next node with _ | first
  · refine h.leaves_less chain' ?_ hchain rfl hlen rfl
    have hnil : chain' = [] := by
      rw [← List.head?_eq_none_iff, ← h.chained.next_first, hnext]
    subst hnil
    exact .nil
  · refine h.leaves_less chain' ?_ ?_ rfl hlen rfl
    · refine h.chained.unlink_first hnext ?_ ?_ ?_
      · exact prev_setPrev_none _ _
      · intro a _ hne
        exact prev_setPrev_of_ne _ _ _ _ hne
      · intro a _
        exact next_setPrev _ _ _ _
    · rw [← hchain]
      exact List.map_congr_left fun a _ => data_setPrev _ _ _ _

end Holds

/-! ## Calls -/

/-- A call of one of the methods. -/
inductive Call (α : Type)
  | push (data : α)
  | unshift (data : α)
  | pop
  | shift
  | peekFirst
  | peekLast
  | clear
deriving DecidableEq

/-- What a call returns: a size, data or `undefined`, or nothing. -/
inductive Returned (α : Type)
  | size (size : Int)
  | data (data : Option α)
  | nothing
deriving DecidableEq

def call (d : Deque α) : Call α → Except JsError (Deque α × Returned α)
  | .push data => .ok ((d.push data).1, .size (d.push data).2)
  | .unshift data => .ok ((d.unshift data).1, .size (d.unshift data).2)
  | .pop => do
    let (d, data) ← d.pop
    return (d, .data data)
  | .shift => .ok (d.shift.1, .data d.shift.2)
  | .peekFirst => .ok (d, .data d.peekFirst)
  | .peekLast => .ok (d, .data d.peekLast)
  | .clear => .ok (d.clear, .nothing)

/-- One call of a sequence, with what the calls before it returned. -/
def step (s : Deque α × List (Returned α)) (c : Call α) : Except JsError (Deque α × List (Returned α)) := do
  let (d, returned) ← s.1.call c
  return (d, s.2 ++ [returned])

/-- A new deque after the calls, with what they returned. -/
def run (calls : List (Call α)) : Except JsError (Deque α × List (Returned α)) := calls.foldlM step (new, [])

/-! ## The list -/

/-- What a call does to a plain list, and what it returns. -/
def listCall (items : List α) : Call α → List α × Returned α
  | .push data => (items ++ [data], .size (items ++ [data]).length)
  | .unshift data => (data :: items, .size (data :: items).length)
  | .pop => (items.dropLast, .data items.getLast?)
  | .shift => (items.tail, .data items.head?)
  | .peekFirst => (items, .data items.head?)
  | .peekLast => (items, .data items.getLast?)
  | .clear => ([], .nothing)

def listStep (s : List α × List (Returned α)) (c : Call α) : List α × List (Returned α) :=
  ((listCall s.1 c).1, s.2 ++ [(listCall s.1 c).2])

/-- An empty list after the calls, with what they returned. -/
def listRun (calls : List (Call α)) : List α × List (Returned α) := calls.foldl listStep ([], [])

/-- The lengths the list has had since the last `clear`, or since it was made. -/
def lengthsSinceClear (calls : List (Call α)) : Set Int :=
  {n | ∃ before after, calls = before ++ after ∧ Call.clear ∉ after ∧ n = (listRun before).1.length}

theorem run_concat (calls : List (Call α)) (c : Call α) : run (calls ++ [c]) = run calls >>= (step · c) := by
  unfold run
  rw [List.foldlM_append]
  simp only [List.foldlM_cons, List.foldlM_nil, bind_pure]

theorem listRun_concat (calls : List (Call α)) (c : Call α) :
    listRun (calls ++ [c]) = listStep (listRun calls) c := by
  rw [listRun, List.foldl_append]
  rfl

theorem mem_lengthsSinceClear_concat (calls : List (Call α)) (c : Call α) (n : Int) :
    n ∈ lengthsSinceClear (calls ++ [c]) ↔
      n = (listRun (calls ++ [c])).1.length ∨ c ≠ .clear ∧ n ∈ lengthsSinceClear calls := by
  constructor
  · rintro ⟨before, after, heq, hclear, rfl⟩
    rcases List.eq_nil_or_concat after with rfl | ⟨after, c', rfl⟩
    · rw [List.append_nil] at heq
      exact .inl (by rw [heq])
    · rw [List.concat_eq_append, ← List.append_assoc] at heq
      rw [List.concat_eq_append, List.mem_append, List.mem_singleton, not_or] at hclear
      obtain ⟨hcalls, hc⟩ := List.append_inj' heq rfl
      obtain rfl := List.singleton_inj.1 hc
      exact .inr ⟨fun hc => hclear.2 hc.symm, before, after, hcalls, hclear.1, rfl⟩
  · rintro (rfl | ⟨hc, before, after, rfl, hclear, rfl⟩)
    · exact ⟨calls ++ [c], [], (List.append_nil _).symm, List.not_mem_nil, rfl⟩
    · refine ⟨before, after ++ [c], List.append_assoc .., ?_, rfl⟩
      rw [List.mem_append, List.mem_singleton, not_or]
      exact ⟨hclear, fun hc' => hc hc'.symm⟩

/-- After a `clear` the greatest length is that of the empty list. -/
theorem isGreatest_clear (calls : List (Call α)) : IsGreatest (lengthsSinceClear (calls ++ [.clear])) 0 := by
  have hzero : ((listRun (calls ++ [.clear])).1.length : Int) = 0 := by
    rw [listRun_concat]
    rfl
  have hmem := mem_lengthsSinceClear_concat calls .clear
  refine ⟨(hmem 0).2 (.inl hzero.symm), fun n hn => ?_⟩
  rcases (hmem n).1 hn with rfl | ⟨hne, -⟩
  · exact hzero.le
  · exact absurd rfl hne

/-- After any other call it is the greatest so far, or that of the list now. -/
theorem isGreatest_concat {calls : List (Call α)} {c : Call α} {m : Int} (h : IsGreatest (lengthsSinceClear calls) m)
    (hc : c ≠ .clear) :
    IsGreatest (lengthsSinceClear (calls ++ [c])) (max m ((listRun (calls ++ [c])).1.length : Int)) := by
  have hmem := mem_lengthsSinceClear_concat calls c
  constructor
  · rcases max_choice m ((listRun (calls ++ [c])).1.length : Int) with heq | heq
    · rw [heq]
      exact (hmem _).2 (.inr ⟨hc, h.1⟩)
    · rw [heq]
      exact (hmem _).2 (.inl rfl)
  · intro n hn
    rcases (hmem n).1 hn with rfl | ⟨-, hn⟩
    · exact le_max_right _ _
    · exact (h.2 hn).trans (le_max_left _ _)

/-! ## The deque is a list -/

/-- A node of the deque: one that can be reached from its head. -/
def Member (d : Deque α) (node : Nat) : Prop := ∃ first, d.head = some first ∧ Reaches d.next first node

/-- The deque is the list `items` for all that can be seen of it. -/
structure Represents (d : Deque α) (items : List α) : Prop where
  /-- Both iterators end, after one call more than there are items. -/
  forward : ∀ calls, items.length < calls → d.forward calls = some (items.map some)
  backward : ∀ calls, items.length < calls → d.backward calls = some (items.reverse.map some)
  next : ∀ a b, d.Member a → d.next a = some b → d.Member b ∧ d.prev b = some a
  prev : ∀ a b, d.Member a → d.prev a = some b → d.Member b ∧ d.next b = some a
  head : ∀ a, d.head = some a → d.Member a ∧ d.prev a = none
  tail : ∀ a, d.tail = some a → d.Member a ∧ d.next a = none
  size : d.size = items.length

section Calls
variable {d : Deque α} {chain : List Nat} {items : List α}

theorem bind_of_map_eq {κ : Type} {node : Option κ} {f : κ → Option α} {item : Option α}
    (h : node.map f = item.map some) : node.bind f = item := by
  cases node with
  | none =>
    cases item with
    | none => rfl
    | some _ => cases h
  | some node =>
    cases item with
    | none => cases h
    | some item => exact Option.some.inj h

theorem Holds.peekFirst (h : Holds d chain items) : d.peekFirst = items.head? := by
  apply bind_of_map_eq
  rw [h.chained.head, ← List.head?_map, h.data, List.head?_map]

theorem Holds.peekLast (h : Holds d chain items) : d.peekLast = items.getLast? := by
  apply bind_of_map_eq
  rw [h.chained.tail, ← List.getLast?_map, h.data, List.getLast?_map]

/-- A call that changes nothing leaves the list as it is. -/
theorem Holds.leaves_self (h : Holds d chain items) : Leaves d d items := by
  refine ⟨⟨chain, h⟩, ?_⟩
  rw [← h.size, max_eq_left h.size_le]

/-- A call does not throw, and does and returns what it does on the list. -/
def Follows (d : Deque α) (items : List α) (c : Call α) : Prop :=
  ∃ d', d.call c = .ok (d', (listCall items c).2) ∧ (∃ chain', Holds d' chain' (listCall items c).1) ∧
    (c = .clear → d'.maxSize = 0) ∧ (c ≠ .clear → d'.maxSize = max d.maxSize (listCall items c).1.length)

theorem Leaves.follows {d' : Deque α} {c : Call α} (hl : Leaves d d' (listCall items c).1) (hc : c ≠ .clear)
    (hd' : d.call c = .ok (d', (listCall items c).2)) : Follows d items c :=
  ⟨d', hd', hl.1, fun h => absurd h hc, fun _ => hl.2⟩

theorem Holds.follows (h : Holds d chain items) (c : Call α) : Follows d items c := by
  cases c with
  | push x =>
    refine (h.push x).1.follows (by rintro ⟨⟩) ?_
    rw [Deque.call, (h.push x).2]
    rfl
  | unshift x =>
    refine (h.unshift x).1.follows (by rintro ⟨⟩) ?_
    rw [Deque.call, (h.unshift x).2]
    rfl
  | pop =>
    rcases List.eq_nil_or_concat items with rfl | ⟨items, x, rfl⟩
    · refine Leaves.follows h.leaves_self (by rintro ⟨⟩) ?_
      rw [Deque.call, h.pop_empty]
      rfl
    · rw [List.concat_eq_append] at h ⊢
      obtain ⟨d', hd', hl⟩ := h.pop
      have hl' : Leaves d d' (listCall (items ++ [x]) .pop).1 := by rwa [listCall, List.dropLast_concat]
      refine hl'.follows (by rintro ⟨⟩) ?_
      rw [Deque.call, hd', listCall, List.getLast?_concat]
      rfl
  | shift =>
    cases items with
    | nil =>
      refine Leaves.follows h.leaves_self (by rintro ⟨⟩) ?_
      rw [Deque.call, h.shift_empty]
      rfl
    | cons x items =>
      refine h.shift.2.follows (by rintro ⟨⟩) ?_
      rw [Deque.call, h.shift.1]
      rfl
  | peekFirst =>
    refine Leaves.follows h.leaves_self (by rintro ⟨⟩) ?_
    rw [Deque.call, h.peekFirst]
    rfl
  | peekLast =>
    refine Leaves.follows h.leaves_self (by rintro ⟨⟩) ?_
    rw [Deque.call, h.peekLast]
    rfl
  | clear => exact ⟨d.clear, rfl, ⟨[], holds_clear d⟩, fun _ => rfl, fun hc => absurd rfl hc⟩

/-- An iterator that starts at the first of a list of linked nodes gives their data. -/
theorem iterate_of_linked {link : Nat → Option Nat} (next : Option Nat → IteratorResult α × Option Nat)
    (hnone : next none = (⟨none, true⟩, none)) (hsome : ∀ node, next (some node) = (⟨d.data node, false⟩, link node))
    (h : Linked link chain) : ∀ calls, chain.length < calls → iterate next calls chain.head? = some (chain.map d.data) := by
  induction chain with
  | nil =>
    intro calls hlt
    cases calls with
    | zero => cases hlt
    | succ calls => simp [iterate, hnone]
  | cons node chain ih =>
    intro calls hlt
    cases calls with
    | zero => cases hlt
    | succ calls => simp [iterate, hsome, h.1, ih h.2 calls (Nat.lt_of_succ_lt_succ hlt)]

theorem Holds.represents (h : Holds d chain items) : Represents d items where
  forward := by
    intro calls hlt
    rw [← h.length_eq] at hlt
    rw [Deque.forward, h.chained.head, iterate_of_linked d.forwardNext rfl (fun _ => rfl) h.chained.next calls hlt, h.data]
  backward := by
    intro calls hlt
    rw [← h.length_eq, ← List.length_reverse] at hlt
    rw [Deque.backward, h.chained.tail, ← List.head?_reverse,
      iterate_of_linked d.backwardNext rfl (fun _ => rfl) h.chained.prev calls hlt, List.map_reverse, h.data, List.map_reverse]
  next := by
    intro a b ha hb
    have ha := h.chained.mem_iff.2 ha
    exact ⟨h.chained.mem_iff.1 (h.chained.next.mem ha hb), h.chained.prev_of_next ha hb⟩
  prev := by
    intro a b ha hb
    have ha := h.chained.mem_iff.2 ha
    have hb' := h.chained.prev.mem (List.mem_reverse.2 ha) hb
    exact ⟨h.chained.mem_iff.1 (List.mem_reverse.1 hb'), h.chained.next_of_prev ha hb⟩
  head := by
    intro a ha
    have hc := h.chained
    rw [ha] at hc
    exact ⟨⟨a, ha, .refl⟩, hc.prev_head⟩
  tail := by
    intro a ha
    have hc := h.chained
    rw [ha] at hc
    exact ⟨h.chained.mem_iff.1 (h.tail_mem ha), hc.next_tail⟩
  size := h.size

end Calls

/-- The deque after a sequence of calls, with what is known of it. -/
theorem run_holds (calls : List (Call α)) :
    ∃ d, run calls = .ok (d, (listRun calls).2) ∧ (∃ chain, Holds d chain (listRun calls).1) ∧
      IsGreatest (lengthsSinceClear calls) d.maxSize := by
  induction calls using List.reverseRecOn with
  | nil =>
    refine ⟨new, rfl, ⟨[], holds_clear _⟩, ⟨[], [], rfl, List.not_mem_nil, rfl⟩, ?_⟩
    rintro n ⟨before, after, heq, -, rfl⟩
    rw [(List.nil_eq_append_iff.1 heq).1]
    exact le_rfl
  | append_singleton calls c ih =>
    obtain ⟨d, hrun, ⟨chain, hd⟩, hmax⟩ := ih
    obtain ⟨d', hcall, hd', hclear, hother⟩ := hd.follows c
    refine ⟨d', ?_, ?_, ?_⟩
    · rw [run_concat, hrun, listRun_concat]
      change (do let r ← d.call c; return (r.1, _)) = _
      rw [hcall]
      rfl
    · rw [listRun_concat]
      exact hd'
    · have hlen : (listCall (listRun calls).1 c).1 = (listRun (calls ++ [c])).1 := by rw [listRun_concat, listStep]
      rw [hlen] at hother
      by_cases hc : c = .clear
      · rw [hclear hc, hc]
        exact isGreatest_clear calls
      · rw [hother hc]
        exact isGreatest_concat hmax hc

theorem run_represents (calls : List (Call α)) :
    ∃ d, run calls = .ok (d, (listRun calls).2) ∧ Represents d (listRun calls).1 ∧
      IsGreatest (lengthsSinceClear calls) d.maxSize := by
  obtain ⟨d, hrun, ⟨chain, hd⟩, hmax⟩ := run_holds calls
  exact ⟨d, hrun, hd.represents, hmax⟩

end Deque
end Poolifier
