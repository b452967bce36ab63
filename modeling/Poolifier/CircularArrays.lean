import Poolifier.Lib.Catch
import Poolifier.Lib.JsArrays
import Poolifier.Usage
/-!
# Circular arrays

The methods of `CircularArray`, a subclass of `Array` with a maximum length.
Built-in methods make the arrays they return through the constructor of the
subclass, with the number of elements they will have as its size.
-/

namespace Poolifier
open NumberLib JsArrayLib CatchLib

variable {α : Type}

namespace CircularArrays

/-! ## The methods -/

/-- Why a size is refused: a `TypeError` in the first case, a `RangeError` in the second. -/
inductive SizeError
  | notSafeInteger (size : Number)
  | negative (size : Number)
deriving DecidableEq

/-- `Number.isSafeInteger`. -/
def isSafeInteger : Number → Bool
  | .finite q => q.den = 1 ∧ q.num.natAbs < 2 ^ 53
  | _ => false

def checkSize (size : Number) : Except SizeError Unit :=
  if !isSafeInteger size then .error (.notSafeInteger size)
  else if size.lt (0 : Nat) then .error (.negative size)
  else .ok ()

/-- A size that has been checked. -/
def toNat : Number → Nat
  | .finite q => q.num.toNat
  | _ => 0

/-- `super.splice`: what it removes is returned in an array of that size. -/
def superSplice (a : CircularArray α) (args : SpliceArguments α) : CircularArray α × CircularArray α :=
  let (items, itemsRemoved) := JsArrayLib.splice a.items args
  ({ a with items }, ⟨itemsRemoved.length, itemsRemoved⟩)

/-- `super.splice(0, length)`. -/
def spliceFront (a : CircularArray α) (length : Nat) : CircularArray α × CircularArray α :=
  superSplice a (.counted (0 : Nat) (some length) [])

def push (a : CircularArray α) (items : List α) : CircularArray α × Nat :=
  let a := { a with items := a.items ++ items }
  let length := a.items.length
  let a := if length > a.size then (spliceFront a (length - a.size)).1 else a
  (a, a.items.length)

def unshift (a : CircularArray α) (items : List α) : CircularArray α × Nat :=
  let a := { a with items := items ++ a.items }
  let length := a.items.length
  let a := if length > a.size then (superSplice a (.counted a.size (some items.length) [])).1 else a
  (a, a.items.length)

def construct (size : Option Number) (items : List α) : Except SizeError (CircularArray α) := do
  let size := size.getD defaultCircularArraySize
  checkSize size
  let a : CircularArray α := ⟨toNat size, []⟩
  return if items.length > 0 then (push a items).1 else a

/-- The array after the call, and the array returned. The calls with three arguments or more whose
`deleteCount` is a number are apart from those with two arguments and from all others. -/
def splice (a : CircularArray α) : SpliceArguments α → CircularArray α × CircularArray α
  | .counted start (some deleteCount) (x :: items) =>
    let (a, itemsRemoved) := superSplice a (.counted start (some deleteCount) (x :: items))
    if a.items.length > a.size then
      let (a, itemsOverflowing) := spliceFront a (a.items.length - a.size)
      (a, (push ⟨itemsRemoved.items.length + itemsOverflowing.items.length, []⟩
        (itemsRemoved.items ++ itemsOverflowing.items)).1)
    else (a, itemsRemoved)
  | .counted start deleteCount [] => superSplice a (.counted start deleteCount [])
  | .counted start none (_ :: _) => superSplice a (.start start)
  | .start start => superSplice a (.start start)

/-- The array returned, and the array after the call. The items are passed on as one array. -/
def concat (a : CircularArray α) (items : List (α ⊕ List α)) : CircularArray (α ⊕ List α) × CircularArray α :=
  let concatenatedCircularArray : CircularArray (α ⊕ List α) :=
    { size := a.size, items := JsArrayLib.concat (a.items.map .inl) [.inr items] }
  let length := concatenatedCircularArray.items.length
  if length > a.size then
    ((splice concatenatedCircularArray (.counted (0 : Nat) (some ((length - a.size : Nat) : Number)) [])).1, a)
  else (concatenatedCircularArray, a)

def resize (a : CircularArray α) (size : Number) : Except SizeError (CircularArray α) := do
  checkSize size
  let items :=
    if toNat size = 0 then []
    else if toNat size < a.size then List.dropLast^[a.size - toNat size] a.items
    else a.items
  return ⟨toNat size, items⟩

/-- `super.pop`. -/
def superPop (a : CircularArray α) : CircularArray α := { a with items := a.items.dropLast }

/-- `resize` as it changes the array step by step: what is done before it throws would stay. No step of the
loop changes the size that bounds it. -/
def resizeInPlace (size : Number) : EStateM SizeError (CircularArray α) Unit := do
  ofExcept (checkSize size)
  if toNat size = 0 then
    modify fun a => { a with items := [] }
  else if toNat size < (← get).size then
    for _ in List.range' (toNat size) ((← get).size - toNat size) do
      modify superPop
  modify fun a => { a with size := toNat size }

def empty (a : CircularArray α) : Bool := a.items.length = 0

def full (a : CircularArray α) : Bool := a.items.length = a.size

/-! ## What each method leaves -/

section Methods
variable (a : CircularArray α) (xs : List α)

theorem superSplice_items (args : SpliceArguments α) :
    (superSplice a args).1.items = (JsArrayLib.splice a.items args).1 := rfl

theorem superSplice_removed (args : SpliceArguments α) :
    (superSplice a args).2 = ⟨(JsArrayLib.splice a.items args).2.length, (JsArrayLib.splice a.items args).2⟩ := rfl

theorem spliceFront_eq {n : Nat} (h : n ≤ a.items.length) :
    spliceFront a n = ({ a with items := a.items.drop n }, ⟨n, a.items.take n⟩) := by
  simp only [spliceFront, superSplice, splice_front a.items h, List.length_take, Nat.min_eq_left h]

/-- The elements over the size are removed at the front. -/
theorem truncated : (if a.items.length > a.size then (spliceFront a (a.items.length - a.size)).1 else a) =
    { a with items := a.items.rtake a.size } := by
  split
  · rw [spliceFront_eq a (Nat.sub_le _ _)]
    rfl
  · rename_i h
    rw [rtake_of_length_le (not_lt.1 h)]

theorem push_eq : push a xs =
    ({ a with items := (a.items ++ xs).rtake a.size }, ((a.items ++ xs).rtake a.size).length) :=
  congrArg (fun b : CircularArray α => (b, b.items.length)) (truncated { a with items := a.items ++ xs })

/-- A call that pushes one element, as the usage statistics do. -/
theorem push_singleton (x : α) : (push a [x]).1 = a.push x := by
  rw [push_eq]
  unfold CircularArray.push
  by_cases h : (a.items ++ [x]).length > a.size
  · simp only [if_pos h, List.rtake]
  · simp only [if_neg h, rtake_of_length_le (not_lt.1 h)]

/-- The elements that `unshift` removes are all those after the last one it keeps, as the array was
not longer than its size before. -/
theorem unshift_eq (h : a.items.length ≤ a.size) : unshift a xs =
    ({ a with items := (xs ++ a.items).take a.size }, ((xs ++ a.items).take a.size).length) := by
  have hback : (if (xs ++ a.items).length > a.size then
      (superSplice { a with items := xs ++ a.items } (.counted a.size (some xs.length) [])).1
      else { a with items := xs ++ a.items }) = { a with items := (xs ++ a.items).take a.size } := by
    split
    · have hlen : (xs ++ a.items).length ≤ a.size + xs.length := by
        rw [List.length_append]
        omega
      simp only [superSplice, splice_back _ hlen]
    · rename_i hle
      rw [List.take_of_length_le (not_lt.1 hle)]
  exact congrArg (fun b : CircularArray α => (b, b.items.length)) hback

/-- An array that is made for as many elements as are pushed to it has them all. -/
theorem push_new {n : Nat} (h : n = xs.length) : (push (⟨n, []⟩ : CircularArray α) xs).1 = ⟨xs.length, xs⟩ := by
  rw [push_eq, h]
  simp only [List.nil_append, rtake_of_length_le le_rfl]

/-- A call that inserts, with a `deleteCount` that is a number. -/
theorem splice_inserting (args : SpliceArguments α) {start deleteCount : Number} {x : α}
    (h : args = .counted start (some deleteCount) (x :: xs)) :
    (splice a args).1 = { a with items := (JsArrayLib.splice a.items args).1.rtake a.size } ∧
      (splice a args).2.items =
        (JsArrayLib.splice a.items args).2 ++ (JsArrayLib.splice a.items args).1.rdrop a.size ∧
      (splice a args).2.items.length = (splice a args).2.size := by
  rcases hplain : JsArrayLib.splice a.items args with ⟨left, removed⟩
  have hsuper : superSplice a args = ({ a with items := left }, ⟨removed.length, removed⟩) := by
    simp only [superSplice, hplain]
  subst h
  simp only [splice, hsuper]
  by_cases hle : left.length > a.size
  · rw [if_pos hle, spliceFront_eq _ (Nat.sub_le _ _)]
    simp only [push_new _ List.length_append.symm]
    exact ⟨rfl, rfl, trivial⟩
  · rw [if_neg hle, rtake_of_length_le (not_lt.1 hle), List.rdrop, Nat.sub_eq_zero_of_le (not_lt.1 hle),
      List.take_zero, List.append_nil]
    exact ⟨rfl, rfl, rfl⟩

/-- A call that inserts nothing. -/
theorem splice_removing {args : SpliceArguments α} (h : args.items = []) : splice a args = superSplice a args := by
  cases args with
  | start start => rfl
  | counted start deleteCount items =>
    obtain rfl : items = [] := h
    cases deleteCount <;> rfl

/-- A call that inserts without a count removes all elements from the start on. -/
theorem splice_uncounted (start : Number) (x : α) :
    splice a (.counted start none (x :: xs)) = superSplice a (.start start) := rfl

theorem splice_cases (args : SpliceArguments α) :
    (∃ start deleteCount x xs, args = .counted start (some deleteCount) (x :: xs)) ∨
      (∃ start x xs, args = .counted start none (x :: xs)) ∨ args.items = [] := by
  rcases args with start | ⟨start, _ | deleteCount, _ | ⟨x, xs⟩⟩
  · exact .inr (.inr rfl)
  · exact .inr (.inr rfl)
  · exact .inr (.inl ⟨start, x, xs, rfl⟩)
  · exact .inr (.inr rfl)
  · exact .inl ⟨start, deleteCount, x, xs, rfl⟩

theorem length_splice_le_size {a : CircularArray α} (args : SpliceArguments α) (h : a.items.length ≤ a.size) :
    (splice a args).1.items.length ≤ (splice a args).1.size := by
  rcases splice_cases args with ⟨start, deleteCount, x, xs, rfl⟩ | ⟨start, x, xs, rfl⟩ | hitems
  · rw [(splice_inserting a xs _ rfl).1, length_rtake]
    exact Nat.min_le_left _ _
  · have hnone : (SpliceArguments.start start : SpliceArguments α).items = [] := rfl
    exact (length_splice_le _ hnone).trans h
  · rw [splice_removing a hitems]
    exact (length_splice_le _ hitems).trans h

/-- The array that `splice` returns is as long as its size. -/
theorem spliced_full (args : SpliceArguments α) : (splice a args).2.items.length = (splice a args).2.size := by
  rcases splice_cases args with ⟨start, deleteCount, x, xs, rfl⟩ | ⟨start, x, xs, rfl⟩ | hitems
  · exact (splice_inserting a xs _ rfl).2.2
  · rfl
  · rw [splice_removing a hitems]
    rfl

theorem concat_eq (items : List (α ⊕ List α)) :
    concat a items = (⟨a.size, List.rtake (a.items.map Sum.inl ++ items) a.size⟩, a) := by
  unfold concat
  simp only [concat_array]
  by_cases h : (a.items.map Sum.inl ++ items).length > a.size
  · rw [if_pos h, splice_removing _ rfl]
    exact congrArg (fun b : CircularArray _ × CircularArray _ => (b.1, a)) (spliceFront_eq _ (Nat.sub_le _ _))
  · rw [if_neg h, rtake_of_length_le (not_lt.1 h)]

theorem toNat_natCast (n : Nat) : toNat n = n := by
  rw [Number.natCast_eq, toNat, Rat.num_natCast, Int.toNat_natCast]

/-- The number of a length is a size that the constructor accepts. -/
theorem checkSize_natCast {n : Nat} (h : n < 2 ^ 53) : checkSize n = .ok () := by
  have hsafe : isSafeInteger n = true := by
    change decide ((n : ℚ).den = 1 ∧ (n : ℚ).num.natAbs < 2 ^ 53) = true
    rw [Rat.den_natCast, Rat.num_natCast, Int.natAbs_natCast, decide_eq_true_eq]
    exact ⟨rfl, h⟩
  have hlt : Number.lt n (0 : Nat) = false := by
    simp [Number.natCast_eq]
  simp [checkSize, hsafe, hlt]

/-- What a built-in method makes for the elements it returns is what the constructor makes. -/
theorem construct_natCast {n : Nat} (h : n < 2 ^ 53) :
    (construct (some (n : Number)) [] : Except SizeError (CircularArray α)) = .ok ⟨n, []⟩ := by
  simp only [construct, Option.getD_some, checkSize_natCast h, toNat_natCast]
  rfl

theorem construct_ok {size : Option Number} {items : List α} {a : CircularArray α}
    (h : construct size items = .ok a) : ∃ n, a = ⟨n, []⟩ ∨ a = (push ⟨n, []⟩ items).1 := by
  unfold construct at h
  rcases hcheck : checkSize (size.getD defaultCircularArraySize) with e | u
  · simp only [hcheck] at h
    cases h
  · simp only [hcheck] at h
    obtain rfl := Except.ok.inj h
    refine ⟨toNat (size.getD defaultCircularArraySize), ?_⟩
    split
    · exact .inr rfl
    · exact .inl rfl

theorem resize_eq (size : Number) : resize a size = (checkSize size).map fun _ =>
    ⟨toNat size, if toNat size = 0 then [] else a.items.rdrop (a.size - toNat size)⟩ := by
  have hitems : (if toNat size < a.size then List.dropLast^[a.size - toNat size] a.items else a.items) =
      a.items.rdrop (a.size - toNat size) := by
    split
    · exact dropLast_iterate _ _
    · rename_i hle
      rw [Nat.sub_eq_zero_of_le (not_lt.1 hle), List.rdrop_zero]
  unfold resize
  rw [hitems]
  rfl

theorem resize_ok {a a' : CircularArray α} {size : Number} (h : resize a size = .ok a') : checkSize size = .ok () ∧
    a' = ⟨toNat size, if toNat size = 0 then [] else a.items.rdrop (a.size - toNat size)⟩ := by
  rw [resize_eq] at h
  rcases hcheck : checkSize size with e | ⟨⟩
  · rw [hcheck] at h
    cases h
  · rw [hcheck] at h
    exact ⟨rfl, (Except.ok.inj h).symm⟩

theorem resize_natCast {n : Nat} (h : n < 2 ^ 53) :
    resize a n = .ok ⟨n, if n = 0 then [] else a.items.rdrop (a.size - n)⟩ := by
  rw [resize_eq, checkSize_natCast h, toNat_natCast]
  rfl

theorem resize_error_iff {size : Number} {e : SizeError} : resize a size = .error e ↔ checkSize size = .error e := by
  rw [resize_eq]
  rcases checkSize size with e' | ⟨⟩ <;> simp [Except.map]

end Methods

/-! ## Arrays that calls can lead to -/

/-- The arrays made by the constructor, by calls of the methods, and those that `splice` and `concat` return. -/
inductive Reachable : {α : Type} → CircularArray α → Prop
  | construct {α : Type} {size : Option Number} {items : List α} {a : CircularArray α} :
      construct size items = .ok a → Reachable a
  | push {α : Type} {a : CircularArray α} (items : List α) : Reachable a → Reachable (push a items).1
  | unshift {α : Type} {a : CircularArray α} (items : List α) : Reachable a → Reachable (unshift a items).1
  | splice {α : Type} {a : CircularArray α} (args : SpliceArguments α) : Reachable a → Reachable (splice a args).1
  | spliced {α : Type} {a : CircularArray α} (args : SpliceArguments α) : Reachable a → Reachable (splice a args).2
  | resize {α : Type} {a a' : CircularArray α} {size : Number} :
      Reachable a → resize a size = .ok a' → Reachable a'
  | concat {α : Type} {a : CircularArray α} (items : List (α ⊕ List α)) : Reachable a → Reachable (concat a items).1

/-- An array is not longer than its size. -/
theorem Reachable.bounded {a : CircularArray α} (h : Reachable a) : a.items.length ≤ a.size := by
  induction h with
  | construct h =>
    obtain ⟨n, rfl | ⟨items, rfl⟩⟩ := construct_ok h
    · exact Nat.zero_le _
    · rw [push_eq, length_rtake]
      exact Nat.min_le_left _ _
  | push items _ _ =>
    rw [push_eq, length_rtake]
    exact Nat.min_le_left _ _
  | unshift items _ ih =>
    rw [unshift_eq _ _ ih, List.length_take]
    exact Nat.min_le_left _ _
  | splice args _ ih => exact length_splice_le_size args ih
  | spliced args _ _ => exact (spliced_full _ args).le
  | resize _ h ih =>
    obtain ⟨-, rfl⟩ := resize_ok h
    dsimp only
    split
    · exact Nat.zero_le _
    · rw [length_rdrop]
      omega
  | concat items _ _ =>
    rw [concat_eq, length_rtake]
    exact Nat.min_le_left _ _

/-- An array is never longer than its size; `push` keeps the last elements, `unshift` the first ones. -/
theorem kept_in_size {a : CircularArray α} (h : Reachable a) (xs : List α) :
    a.items.length ≤ a.size ∧
      (push a xs).1 = ⟨a.size, (a.items ++ xs).rtake a.size⟩ ∧ (push a xs).2 = (push a xs).1.items.length ∧
      (unshift a xs).1 = ⟨a.size, (xs ++ a.items).take a.size⟩ ∧
      (unshift a xs).2 = (unshift a xs).1.items.length := by
  refine ⟨h.bounded, ?_, rfl, ?_, rfl⟩
  · rw [push_eq]
  · rw [unshift_eq a xs h.bounded]

theorem reachable_three : Reachable (⟨5, [1, 2, 3]⟩ : CircularArray Nat) :=
  .push [1, 2, 3] (.construct (construct_natCast (n := 5) (by decide)))

theorem kept_in_size_five : [1, 2, 3].length ≤ 5 ∧
    (push ⟨5, [1, 2, 3]⟩ [4, 5, 6]).1 = ⟨5, [2, 3, 4, 5, 6]⟩ ∧ (push ⟨5, [1, 2, 3]⟩ [4, 5, 6]).2 = 5 ∧
    (unshift ⟨5, [1, 2, 3]⟩ [4, 5, 6]).1 = ⟨5, [4, 5, 6, 1, 2]⟩ ∧ (unshift ⟨5, [1, 2, 3]⟩ [4, 5, 6]).2 = 5 := by
  obtain ⟨hle, hpush, hlen, hunshift, hlen'⟩ := kept_in_size reachable_three [4, 5, 6]
  rw [hpush] at hlen
  rw [hunshift] at hlen'
  exact ⟨hle, hpush, hlen, hunshift, hlen'⟩

/-! ## resize in place -/

/-- The loop of `resize`, which counts from the new size up to the old one. -/
theorem forIn_superPop (count first : Nat) (a : CircularArray α) :
    (forIn (List.range' first count) PUnit.unit (fun _ _ => do
      modify superPop
      pure (ForInStep.yield PUnit.unit)) : EStateM SizeError (CircularArray α) PUnit) a =
      .ok () { a with items := List.dropLast^[count] a.items } := by
  induction count generalizing first a with
  | zero => rfl
  | succ count ih =>
    rw [List.range'_succ, List.forIn_cons]
    exact ih (first + 1) (superPop a)

theorem resizeInPlace_of_ok {a a' : CircularArray α} {size : Number} (h : resize a size = .ok a') :
    resizeInPlace size a = .ok () a' := by
  obtain ⟨hcheck, rfl⟩ := resize_ok h
  unfold resizeInPlace
  rw [bind_of_ok (ofExcept_ok hcheck)]
  by_cases hzero : toNat size = 0
  · simp only [if_pos hzero]
    rfl
  · simp only [if_neg hzero]
    rw [bind_get]
    by_cases hlt : toNat size < a.size
    · simp only [if_pos hlt]
      rw [bind_get, bind_of_ok (forIn_superPop _ _ a), ← dropLast_iterate]
      rfl
    · simp only [if_neg hlt, Nat.sub_eq_zero_of_le (not_lt.1 hlt), List.rdrop_zero]
      rfl

/-- The size is checked before anything is changed. -/
theorem resizeInPlace_of_error {a : CircularArray α} {size : Number} {e : SizeError} (h : resize a size = .error e) :
    resizeInPlace size a = .error e a := by
  unfold resizeInPlace
  rw [bind_of_error (ofExcept_error ((resize_error_iff a).1 h))]

/-! ## splice and concat against those of an array -/

/-- After `splice` the array has the last elements of what the built-in method leaves. The elements
removed are returned, then those that had no room. -/
def SplicesAs (a : CircularArray α) (args : SpliceArguments α) : Prop :=
  (splice a args).1 = ⟨a.size, (JsArrayLib.splice a.items args).1.rtake a.size⟩ ∧
    (splice a args).2.items =
      (JsArrayLib.splice a.items args).2 ++ (JsArrayLib.splice a.items args).1.rdrop a.size ∧
    ((splice a args).1.items ++ (splice a args).2.items).Perm (a.items ++ args.items)

/-- What is kept and what had no room are what was left. -/
theorem rtake_removed_perm (left removed : List α) (n : Nat) :
    (left.rtake n ++ (removed ++ left.rdrop n)).Perm (left ++ removed) :=
  calc left.rtake n ++ (removed ++ left.rdrop n)
    List.Perm _ (left.rtake n ++ (left.rdrop n ++ removed)) := List.perm_append_comm.append_left _
    _ = left.rtake n ++ left.rdrop n ++ removed := (List.append_assoc ..).symm
    List.Perm _ (left.rdrop n ++ left.rtake n ++ removed) := List.perm_append_comm.append_right _
    _ = left ++ removed := by rw [List.rdrop, List.rtake, List.take_append_drop]

theorem splicesAs_inserting (a : CircularArray α) (start deleteCount : Number) (x : α) (xs : List α) :
    SplicesAs a (.counted start (some deleteCount) (x :: xs)) := by
  obtain ⟨hleft, hremoved, -⟩ := splice_inserting a xs (.counted start (some deleteCount) (x :: xs)) rfl
  refine ⟨hleft, hremoved, ?_⟩
  rw [hleft, hremoved]
  exact (rtake_removed_perm _ _ _).trans (splice_perm a.items _)

/-- The items are neither in the array after the call nor among those returned. -/
theorem not_splicesAs_uncounted (a : CircularArray α) (start : Number) (x : α) (xs : List α) :
    ¬ SplicesAs a (.counted start none (x :: xs)) := by
  rintro ⟨-, -, hperm⟩
  have hkept := (splice_perm a.items (.start start)).length_eq
  have hlen := hperm.length_eq
  rw [splice_uncounted, superSplice_items, superSplice_removed, hkept] at hlen
  simp [SpliceArguments.items] at hlen

theorem splicesAs_removing_iff (a : CircularArray α) {args : SpliceArguments α} (h : args.items = []) :
    SplicesAs a args ↔ (JsArrayLib.splice a.items args).1.length ≤ a.size := by
  unfold SplicesAs
  rw [splice_removing a h, superSplice_items, superSplice_removed]
  constructor
  · rintro ⟨hleft, -, -⟩
    have hlen := congrArg (fun b : CircularArray α => b.items.length) hleft
    rw [length_rtake] at hlen
    exact hlen.le.trans (Nat.min_le_left _ _)
  · intro hle
    refine ⟨?_, ?_, splice_perm a.items args⟩
    · rw [rtake_of_length_le hle]
      rfl
    · rw [List.rdrop, Nat.sub_eq_zero_of_le hle, List.take_zero, List.append_nil]

theorem splicesAs_iff (a : CircularArray α) (args : SpliceArguments α) : SplicesAs a args ↔
    (args.items ≠ [] → args.deleteCount ≠ none) ∧
      (args.items = [] → (JsArrayLib.splice a.items args).1.length ≤ a.size) := by
  rcases splice_cases args with ⟨start, deleteCount, x, xs, rfl⟩ | ⟨start, x, xs, rfl⟩ | hitems
  · exact iff_of_true (splicesAs_inserting a start deleteCount x xs)
      ⟨fun _ => Option.some_ne_none _, fun h => absurd h (List.cons_ne_nil x xs)⟩
  · exact iff_of_false (not_splicesAs_uncounted a start x xs) fun h => h.1 (List.cons_ne_nil x xs) rfl
  · rw [splicesAs_removing_iff a hitems, and_iff_right fun h => absurd hitems h, imp_iff_right hitems]

/-- An array that is not longer than its size. -/
theorem splicesAs_iff_of_le {a : CircularArray α} (h : a.items.length ≤ a.size) (args : SpliceArguments α) :
    SplicesAs a args ↔ (args.items ≠ [] → args.deleteCount ≠ none) := by
  rcases splice_cases args with ⟨start, deleteCount, x, xs, rfl⟩ | ⟨start, x, xs, rfl⟩ | hitems
  · exact iff_of_true (splicesAs_inserting a start deleteCount x xs) fun _ => Option.some_ne_none _
  · exact iff_of_false (not_splicesAs_uncounted a start x xs) fun h => h (List.cons_ne_nil x xs) rfl
  · rw [splicesAs_removing_iff a hitems]
    exact iff_of_true ((length_splice_le _ hitems).trans h) fun hne => absurd hitems hne

theorem items_not_inserted : ¬ ∀ (a : CircularArray Nat) (args : SpliceArguments Nat), Reachable a → SplicesAs a args := by
  intro h
  obtain ⟨-, hremoved, -⟩ := h _ (.counted (1 : Nat) none [9]) reachable_three
  revert hremoved
  decide

/-- `concat` has the last elements of what the built-in method returns, and leaves the array alone. -/
def ConcatsAs (a : CircularArray α) (items : List (α ⊕ List α)) : Prop :=
  (concat a items).1 = ⟨a.size, ((JsArrayLib.concat a.items items).rtake a.size).map .inl⟩ ∧ (concat a items).2 = a

theorem concatsAs_iff (a : CircularArray α) (items : List (α ⊕ List α)) :
    ConcatsAs a items ↔ ∀ item ∈ items.rtake a.size, item.isLeft := by
  unfold ConcatsAs
  rw [concat_eq, rtake_append]
  constructor
  · rintro ⟨heq, -⟩ item hitem
    have hitems : (a.items.map Sum.inl).rtake (a.size - items.length) ++ items.rtake a.size =
        ((JsArrayLib.concat a.items items).rtake a.size).map Sum.inl := congrArg CircularArray.items heq
    have hmem := List.mem_append_right ((a.items.map Sum.inl).rtake (a.size - items.length)) hitem
    rw [hitems] at hmem
    obtain ⟨x, -, rfl⟩ := List.mem_map.1 hmem
    rfl
  · intro h
    refine ⟨?_, rfl⟩
    have hsplit : items.rdrop a.size ++ items.rtake a.size = items := List.take_append_drop _ _
    have hplain : (JsArrayLib.concat a.items items).map Sum.inl =
        (JsArrayLib.concat a.items (items.rdrop a.size)).map Sum.inl ++ items.rtake a.size := by
      rw [← map_inl_concat _ h, ← concat_append, hsplit]
    rw [map_rtake, hplain, rtake_append, length_rtake, rtake_of_length_le (l := items.rtake a.size)]
    · rcases Nat.le_total a.size items.length with hle | hle
      · rw [Nat.min_eq_left hle, Nat.sub_self, Nat.sub_eq_zero_of_le hle, List.rtake_zero, List.rtake_zero]
      · rw [Nat.min_eq_right hle, List.rdrop, Nat.sub_eq_zero_of_le hle, List.take_zero, concat_nil]
    · rw [length_rtake]
      exact Nat.min_le_left _ _

theorem array_not_spread : ¬ ∀ (a : CircularArray Nat) (items : List (Nat ⊕ List Nat)), Reachable a → ConcatsAs a items := by
  intro h
  obtain ⟨heq, -⟩ := h _ [.inl 4, .inr [5, 6]] reachable_three
  have hitems := congrArg CircularArray.items heq
  revert hitems
  decide

/-! ## resize against the first elements -/

/-- Only a safe integer that is not negative is a size. -/
theorem checkSize_ok {size : Number} (h : checkSize size = .ok ()) : ∃ n : Nat, n < 2 ^ 53 ∧ size = n := by
  rcases hsafe : isSafeInteger size with _ | _
  · simp [checkSize, hsafe] at h
  · rcases size with q | _ | _ | _
    · obtain ⟨hden, hnum⟩ : q.den = 1 ∧ q.num.natAbs < 2 ^ 53 := by simpa [isSafeInteger] using hsafe
      by_cases hneg : q < 0
      · simp [checkSize, hsafe, Number.natCast_eq, hneg] at h
      · have hnat : (q.num.toNat : Int) = q.num := Int.toNat_of_nonneg (Rat.num_nonneg.2 (not_lt.1 hneg))
        refine ⟨q.num.toNat, by omega, ?_⟩
        rw [Number.natCast_eq, ← Int.cast_natCast, hnat, (Rat.den_eq_one_iff q).1 hden]
    all_goals cases hsafe

/-- `resize` leaves an array of the size with the elements that fit, the first ones. If the size is negative or
no safe integer it throws, and leaves the array as it was. -/
def ResizesAs (a : CircularArray α) (size : Number) : Prop :=
  (∀ n : Nat, n < 2 ^ 53 → size = n → resizeInPlace size a = .ok () ⟨n, a.items.take n⟩) ∧
    ((∀ n : Nat, n < 2 ^ 53 → size ≠ n) → ∃ e, resizeInPlace size a = .error e a)

/-- A smaller size than before removes as many elements as it is smaller, also where there is room. -/
theorem rdrop_eq_take_iff {n : Nat} (hpos : 0 < n) (a : CircularArray α) :
    a.items.rdrop (a.size - n) = a.items.take n ↔
      (n < a.size → empty a ∨ full a) ∧ (a.size ≤ n → a.items.length ≤ n) := by
  rw [List.rdrop, List.take_eq_take_iff, empty, full, decide_eq_true_eq, decide_eq_true_eq]
  omega

theorem resizesAs_iff (a : CircularArray α) (size : Number) : ResizesAs a size ↔
    ∀ n : Nat, 0 < n → n < 2 ^ 53 → size = n →
      (n < a.size → empty a ∨ full a) ∧ (a.size ≤ n → a.items.length ≤ n) := by
  constructor
  · rintro ⟨hvalid, -⟩ n hpos hn rfl
    have heq := hvalid n hn rfl
    rw [resizeInPlace_of_ok (resize_natCast a hn), if_neg hpos.ne'] at heq
    injection heq with _ heq
    exact (rdrop_eq_take_iff hpos a).1 (congrArg CircularArray.items heq)
  · refine fun h => ⟨?_, fun hinvalid => ?_⟩
    · rintro n hn rfl
      rw [resizeInPlace_of_ok (resize_natCast a hn)]
      rcases Nat.eq_zero_or_pos n with rfl | hpos
      · rfl
      · rw [if_neg hpos.ne', (rdrop_eq_take_iff hpos a).2 (h n hpos hn rfl)]
    · rcases hcheck : checkSize size with e | ⟨⟩
      · exact ⟨e, resizeInPlace_of_error ((resize_error_iff a).2 hcheck)⟩
      · obtain ⟨n, hn, heq⟩ := checkSize_ok hcheck
        exact absurd heq (hinvalid n hn)

theorem fitting_items_discarded : ¬ ∀ (a : CircularArray Nat) (size : Number), Reachable a → ResizesAs a size := by
  intro h
  have heq := (h _ (3 : Nat) reachable_three).1 3 (by decide) rfl
  rw [resizeInPlace_of_ok (resize_natCast _ (by decide))] at heq
  injection heq with _ heq
  have hitems := congrArg CircularArray.items heq
  revert hitems
  decide

end CircularArrays
end Poolifier
