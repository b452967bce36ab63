import Mathlib.Data.List.DropRight
import Mathlib.Data.List.Perm.Basic
import Poolifier.Lib.Numbers
/-!
# Array methods

`Array.prototype.splice` and `concat`, on the list of an array's elements. An
array is taken to have no holes.
-/

namespace JsArrayLib
open NumberLib

variable {α : Type} {l : List α}

/-! ## The last elements -/

theorem length_rtake (l : List α) (n : Nat) : (l.rtake n).length = min n l.length := by
  rw [List.rtake, List.length_drop]
  omega

theorem rtake_of_length_le {n : Nat} (h : l.length ≤ n) : l.rtake n = l := by
  rw [List.rtake, Nat.sub_eq_zero_of_le h, List.drop_zero]

theorem rtake_append (l l' : List α) (n : Nat) : (l ++ l').rtake n = l.rtake (n - l'.length) ++ l'.rtake n := by
  unfold List.rtake
  rw [List.length_append, List.drop_append]
  rcases Nat.le_total n l'.length with h | h
  · have hl : l.drop (l.length + l'.length - n) = [] := List.drop_of_length_le (by omega)
    have hl' : l.drop (l.length - (n - l'.length)) = [] := List.drop_of_length_le (by omega)
    have hcount : l.length + l'.length - n - l.length = l'.length - n := by omega
    rw [hl, hl', hcount]
  · have hcount : l.length + l'.length - n = l.length - (n - l'.length) := by omega
    have hcount' : l.length + l'.length - n - l.length = l'.length - n := by omega
    rw [hcount', hcount]

theorem rtake_rtake {n m : Nat} (h : m ≤ n) (l : List α) : (l.rtake n).rtake m = l.rtake m := by
  rw [List.rtake, List.rtake, List.rtake, List.drop_drop, List.length_drop]
  congr 1
  omega

theorem map_rtake {β : Type} (f : α → β) (l : List α) (n : Nat) : (l.rtake n).map f = (l.map f).rtake n := by
  rw [List.rtake, List.rtake, List.map_drop, List.length_map]

theorem length_rdrop (l : List α) (n : Nat) : (l.rdrop n).length = l.length - n := by
  rw [List.rdrop, List.length_take, Nat.min_eq_left (Nat.sub_le _ _)]

theorem dropLast_iterate (n : Nat) (l : List α) : List.dropLast^[n] l = l.rdrop n := by
  induction n with
  | zero => exact (List.rdrop_zero l).symm
  | succ n ih =>
    rw [Function.iterate_succ_apply', ih, List.dropLast_eq_take, ← List.rdrop, List.rdrop_add]

/-! ## Indices -/

inductive IntegerOrInfinity
  | integer (z : Int)
  | posInf
  | negInf

/-- Not a number is zero, a fraction is cut off. -/
def toIntegerOrInfinity : Number → IntegerOrInfinity
  | .finite q => .integer (if 0 ≤ q then ⌊q⌋ else ⌈q⌉)
  | .posInf => .posInf
  | .negInf => .negInf
  | .nan => .integer 0

/-- The index that a relative one stands for: counted from the end if it is negative. -/
def relativeIndex (length : Nat) (index : Number) : Nat :=
  match toIntegerOrInfinity index with
  | .integer z => if z < 0 then (length + z).toNat else min z.toNat length
  | .posInf => length
  | .negInf => 0

/-- A count of elements, of which there are at most `most`. -/
def clampCount (most : Nat) (count : Number) : Nat :=
  match toIntegerOrInfinity count with
  | .integer z => min z.toNat most
  | .posInf => most
  | .negInf => 0

theorem toIntegerOrInfinity_natCast (n : Nat) : toIntegerOrInfinity n = .integer n := by
  rw [Number.natCast_eq, toIntegerOrInfinity, if_pos (Nat.cast_nonneg n), Int.floor_natCast]

theorem relativeIndex_natCast (length n : Nat) : relativeIndex length n = min n length := by
  rw [relativeIndex, toIntegerOrInfinity_natCast]
  exact if_neg (not_lt.2 (Int.natCast_nonneg n))

theorem clampCount_natCast (most n : Nat) : clampCount most n = min n most := by
  rw [clampCount, toIntegerOrInfinity_natCast]
  rfl

/-! ## splice -/

/-- The arguments of a call of `splice`: the start only, or more than that. -/
inductive SpliceArguments (α : Type)
  | start (start : Number)
  | counted (start : Number) (deleteCount : Option Number) (items : List α)

namespace SpliceArguments

/-- The items to insert. -/
def items : SpliceArguments α → List α
  | start _ => []
  | counted _ _ items => items

/-- The number of elements to delete, if it is a number. -/
def deleteCount : SpliceArguments α → Option Number
  | start _ => none
  | counted _ deleteCount _ => deleteCount

end SpliceArguments

/-- Where a call starts in an array, and how many elements it deletes there. -/
def spliceRange (length : Nat) : SpliceArguments α → Nat × Nat
  | .start start => (relativeIndex length start, length - relativeIndex length start)
  | .counted start deleteCount _ =>
    (relativeIndex length start, clampCount (length - relativeIndex length start) (deleteCount.getD .nan))

/-- What `splice` leaves of an array, and what it removes. -/
def splice (l : List α) (args : SpliceArguments α) : List α × List α :=
  let (start, count) := spliceRange l.length args
  (l.take start ++ args.items ++ l.drop (start + count), (l.drop start).take count)

theorem cut_perm (l items : List α) (start count : Nat) :
    (l.take start ++ items ++ l.drop (start + count) ++ (l.drop start).take count).Perm (l ++ items) := by
  have hsplit : l.take start ++ ((l.drop start).take count ++ l.drop (start + count)) = l := by
    rw [← List.drop_drop, List.take_append_drop, List.take_append_drop]
  calc l.take start ++ items ++ l.drop (start + count) ++ (l.drop start).take count
    _ = l.take start ++ (items ++ (l.drop (start + count) ++ (l.drop start).take count)) := by
      rw [List.append_assoc, List.append_assoc]
    List.Perm _ (l.take start ++ (items ++ ((l.drop start).take count ++ l.drop (start + count)))) :=
      List.perm_append_comm.append_left items |>.append_left _
    List.Perm _ (l.take start ++ ((l.drop start).take count ++ l.drop (start + count) ++ items)) :=
      List.perm_append_comm.append_left _
    _ = l ++ items := by rw [← List.append_assoc, hsplit]

/-- Nothing is lost, and nothing is doubled. -/
theorem splice_perm (l : List α) (args : SpliceArguments α) :
    ((splice l args).1 ++ (splice l args).2).Perm (l ++ args.items) :=
  cut_perm l args.items _ _

/-- An array into which nothing is inserted does not get longer. -/
theorem length_splice_le (l : List α) {args : SpliceArguments α} (h : args.items = []) :
    (splice l args).1.length ≤ l.length := by
  have hlen := (splice_perm l args).length_eq
  rw [h, List.append_nil, List.length_append] at hlen
  omega

/-- The first elements are removed. -/
theorem splice_front (l : List α) {n : Nat} (h : n ≤ l.length) :
    splice l (.counted (0 : Nat) (some n) []) = (l.drop n, l.take n) := by
  simp only [splice, spliceRange, relativeIndex_natCast, Option.getD_some, clampCount_natCast, Nat.zero_min,
    Nat.sub_zero, Nat.min_eq_left h]
  simp [SpliceArguments.items]

/-- The elements from an index on are removed, if the count is of so many. -/
theorem splice_back (l : List α) {i n : Nat} (h : l.length ≤ i + n) :
    (splice l (.counted i (some n) [])).1 = l.take i := by
  have hdrop : l.length ≤ min i l.length + min n (l.length - min i l.length) := by omega
  simp only [splice, spliceRange, relativeIndex_natCast, Option.getD_some, clampCount_natCast,
    List.drop_of_length_le hdrop]
  simp [SpliceArguments.items, ← List.take_eq_take_min]

/-! ## concat -/

/-- The arguments are elements, or arrays that are spread. -/
def concat (l : List α) (items : List (α ⊕ List α)) : List α :=
  l ++ items.flatMap fun item => item.elim (fun x => [x]) id

theorem concat_nil (l : List α) : concat l [] = l := List.append_nil l

theorem concat_append (l : List α) (items items' : List (α ⊕ List α)) :
    concat l (items ++ items') = concat (concat l items) items' := by
  rw [concat, concat, concat, List.flatMap_append, List.append_assoc]

theorem concat_array (l l' : List α) : concat l [.inr l'] = l ++ l' := by
  rw [concat, List.flatMap_singleton]
  rfl

/-- Arguments none of which is an array are appended as they are. -/
theorem map_inl_concat (l : List α) {items : List (α ⊕ List α)} (h : ∀ item ∈ items, item.isLeft) :
    (concat l items).map Sum.inl = l.map Sum.inl ++ items := by
  have hspread : (items.flatMap fun item => item.elim (fun x => [x]) id).map Sum.inl = items := by
    induction items with
    | nil => rfl
    | cons item items ih =>
      obtain ⟨hitem, hitems⟩ := List.forall_mem_cons.1 h
      obtain ⟨x, rfl⟩ := Sum.isLeft_iff.1 hitem
      rw [List.flatMap_cons, List.map_append, ih hitems]
      rfl
  rw [concat, List.map_append, hspread]

end JsArrayLib
