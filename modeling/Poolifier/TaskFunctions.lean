import Poolifier.Events
import Poolifier.Lib.OrderedMap
/-!
# The task functions of a worker

A worker keeps its task functions under their names; the one under the reserved
name is the default, and is under its own name too. Which function that is, is
told by identity: each `bind` makes a new function. `Table` is what two workers
have to agree on: the names, their texts, and which function is the default.
-/

namespace Poolifier

open MapLib

/-- A function as `bind` returns it. Two are the same if the same `bind` made them. -/
structure TaskFunction where
  text : String
  bound : Nat
deriving DecidableEq

/-- The task functions of a worker, and the number of functions it has bound. -/
structure TaskFunctions where
  map : OrderedMap String TaskFunction
  bindings : Nat
  below : ∀ name f, map.get name = some f → f.bound < bindings
  /-- No function has two names of its own. -/
  distinct : ∀ name name' f, map.get name = some f → map.get name' = some f → name ≠ defaultTaskName →
    name' ≠ defaultTaskName → name = name'

/-- What evaluating `return text` gives. -/
inductive Evaluated
  | throws
  | notFunction
  | function
deriving DecidableEq

structure TaskFunctionOperationResult where
  status : Bool
  error : Option JsError

def checkTaskFunctionName (name : String) : Except JsError Unit :=
  if isBlank name then .error (.typeError "name parameter is an empty string") else .ok ()

/-- The names that every operation refuses. -/
def Refused (name : String) : Prop := isBlank name = true ∨ name = defaultTaskName

instance (name : String) : Decidable (Refused name) := inferInstanceAs (Decidable (_ ∨ _))

inductive TaskFunctionOperation
  | add
  | remove
  | default
  | unknown
deriving DecidableEq

/-- A message that asks a worker for a task function operation. -/
structure OperationMessage where
  taskFunctionOperation : TaskFunctionOperation
  taskFunctionName : String
  taskFunction : Option String
deriving DecidableEq

namespace TaskFunctions

variable {w : TaskFunctions}

/-- Whether a name has the default function; a name that is missing has it if there is none. -/
def isDefault (w : TaskFunctions) (name : String) : Bool := w.map.get name = w.map.get defaultTaskName

/-- A function that is bound now, under its name and under the default one too or not. -/
theorem below_store (w : TaskFunctions) (b : Bool) (name text : String) : ∀ name' f,
    ((if b then w.map.set defaultTaskName ⟨text, w.bindings⟩ else w.map).set name ⟨text, w.bindings⟩).get name' = some f →
      f.bound < w.bindings + 1 := by
  intro name' f h
  rw [OrderedMap.get_set] at h
  split at h
  · cases h
    exact Nat.lt_succ_self _
  · split at h
    · rw [OrderedMap.get_set] at h
      split at h
      · cases h
        exact Nat.lt_succ_self _
      · exact Nat.lt_succ_of_lt (w.below _ _ h)
    · exact Nat.lt_succ_of_lt (w.below _ _ h)

/-- Only the name itself gets the new function, of the names but the default one. -/
theorem distinct_store (w : TaskFunctions) (b : Bool) (name text : String) : ∀ n n' f,
    ((if b then w.map.set defaultTaskName ⟨text, w.bindings⟩ else w.map).set name ⟨text, w.bindings⟩).get n = some f →
    ((if b then w.map.set defaultTaskName ⟨text, w.bindings⟩ else w.map).set name ⟨text, w.bindings⟩).get n' = some f →
    n ≠ defaultTaskName → n' ≠ defaultTaskName → n = n' := by
  -- a name other than the added one has the function it had
  have hold (n : String) (f : TaskFunction) (hn : n ≠ defaultTaskName) (hne : n ≠ name)
      (h : ((if b then w.map.set defaultTaskName ⟨text, w.bindings⟩ else w.map).set name
        ⟨text, w.bindings⟩).get n = some f) : w.map.get n = some f := by
    rw [OrderedMap.get_set_ne _ _ hne] at h
    split at h
    · rwa [OrderedMap.get_set_ne _ _ hn] at h
    · exact h
  intro n n' f hf hf' hn hn'
  by_cases h : n = name
  · by_cases h' : n' = name
    · rw [h, h']
    · have hb := w.below _ _ (hold n' f hn' h' hf')
      rw [h, OrderedMap.get_set_self] at hf
      cases hf
      exact absurd hb (Nat.lt_irrefl _)
  · by_cases h' : n' = name
    · have hb := w.below _ _ (hold n f hn h hf)
      rw [h', OrderedMap.get_set_self] at hf'
      cases hf'
      exact absurd hb (Nat.lt_irrefl _)
    · exact w.distinct n n' f (hold n f hn h hf) (hold n' f hn' h' hf') hn hn'

/-- The updates of `addTaskFunction`. -/
def add (w : TaskFunctions) (name text : String) : TaskFunctions where
  map := (if w.isDefault name then w.map.set defaultTaskName ⟨text, w.bindings⟩ else w.map).set name ⟨text, w.bindings⟩
  bindings := w.bindings + 1
  below := below_store w (w.isDefault name) name text
  distinct := distinct_store w (w.isDefault name) name text

/-- The update of `removeTaskFunction`. -/
def delete (w : TaskFunctions) (name : String) : TaskFunctions where
  map := w.map.delete name
  bindings := w.bindings
  below name' f h := by
    rw [OrderedMap.get_delete] at h
    split at h
    · cases h
    · exact w.below _ _ h
  distinct n n' f hf hf' hn hn' := by
    rw [OrderedMap.get_delete] at hf hf'
    split at hf
    · cases hf
    · split at hf'
      · cases hf'
      · exact w.distinct n n' f hf hf' hn hn'

/-- The update of `setDefaultTaskFunction`. -/
def setDefault (w : TaskFunctions) (name : String) (f : TaskFunction) (hf : w.map.get name = some f) : TaskFunctions where
  map := w.map.set defaultTaskName f
  bindings := w.bindings
  below name' g h := by
    rw [OrderedMap.get_set] at h
    split at h
    · cases h
      exact w.below _ _ hf
    · exact w.below _ _ h
  distinct n n' g hg hg' hn hn' := by
    rw [OrderedMap.get_set_ne _ _ hn] at hg
    rw [OrderedMap.get_set_ne _ _ hn'] at hg'
    exact w.distinct n n' g hg hg' hn hn'

/-- What `checkTaskFunctions` keeps of a worker that is given one function, of the name `name`. -/
def ofFunction (name text : String) : TaskFunctions where
  map := (OrderedMap.empty.set defaultTaskName ⟨text, 0⟩).set (if isBlank name then "fn1" else name) ⟨text, 0⟩
  bindings := 1
  below n f h := by
    simp only [OrderedMap.get_set, OrderedMap.get_empty] at h
    generalize (if isBlank name then "fn1" else name) = own at h
    by_cases hown : n = own
    · rw [if_pos hown] at h
      cases h
      exact Nat.zero_lt_one
    · rw [if_neg hown] at h
      split at h
      · cases h
        exact Nat.zero_lt_one
      · cases h
  distinct n n' f hf hf' hn hn' := by
    simp only [OrderedMap.get_set, OrderedMap.get_empty, if_neg hn, if_neg hn'] at hf hf'
    generalize (if isBlank name then "fn1" else name) = own at hf hf'
    by_cases hown : n = own
    · by_cases hown' : n' = own
      · rw [hown, hown']
      · rw [if_neg hown'] at hf'
        cases hf'
    · rw [if_neg hown] at hf
      cases hf

/-! ## Operations -/

/-- The result of an operation that has made its update and tells the main worker the names; `notification` is
the exception of that message, if it throws. -/
def notified (status : Bool) (notification : Option JsError) : TaskFunctionOperationResult :=
  match notification with
  | none => ⟨status, none⟩
  | some e => ⟨false, some e⟩

/-- `addTaskFunction`; `fn` is the text of the parameter, if it is a function. -/
def addTaskFunction (notification : Option JsError) (name : String) (fn : Option String) (w : TaskFunctions) :
    TaskFunctions × TaskFunctionOperationResult :=
  match checkTaskFunctionName name with
  | .error e => (w, ⟨false, some e⟩)
  | .ok () =>
    if name = defaultTaskName then
      (w, ⟨false, some (.error "Cannot add a task function with the default reserved name")⟩)
    else
      match fn with
      | none => (w, ⟨false, some (.typeError "fn parameter is not a function")⟩)
      | some text => (w.add name text, notified true notification)

def removeTaskFunction (notification : Option JsError) (name : String) (w : TaskFunctions) :
    TaskFunctions × TaskFunctionOperationResult :=
  match checkTaskFunctionName name with
  | .error e => (w, ⟨false, some e⟩)
  | .ok () =>
    if name = defaultTaskName then
      (w, ⟨false, some (.error "Cannot remove the task function with the default reserved name")⟩)
    else if w.isDefault name then
      (w, ⟨false, some (.error "Cannot remove the task function used as the default task function")⟩)
    else
      (w.delete name, notified (w.map.has name) notification)

def setDefaultTaskFunction (notification : Option JsError) (name : String) (w : TaskFunctions) :
    TaskFunctions × TaskFunctionOperationResult :=
  match checkTaskFunctionName name with
  | .error e => (w, ⟨false, some e⟩)
  | .ok () =>
    if name = defaultTaskName then
      (w, ⟨false, some (.error
        "Cannot set the default task function reserved name as the default task function")⟩)
    else
      match hf : w.map.get name with
      | none =>
        (w, ⟨false, some (.error "Cannot set the default task function to a non-existing task function")⟩)
      | some f => (w.setDefault name f hf, notified true notification)

/-- `handleTaskFunctionOperationMessage`, up to its answer. An evaluation that throws is not caught. -/
def handleTaskFunctionOperationMessage (evaluate : String → Evaluated) (notification : Option JsError)
    (message : OperationMessage) (w : TaskFunctions) : Option (TaskFunctions × TaskFunctionOperationResult) :=
  match message.taskFunctionOperation with
  | .add =>
    let text := message.taskFunction.getD "undefined"
    match evaluate text with
    | .throws => none
    | .notFunction => some (addTaskFunction notification message.taskFunctionName none w)
    | .function => some (addTaskFunction notification message.taskFunctionName (some text) w)
  | .remove => some (removeTaskFunction notification message.taskFunctionName w)
  | .default => some (setDefaultTaskFunction notification message.taskFunctionName w)
  | .unknown => some (w, ⟨false, some (.error "Unknown task operation")⟩)

/-! ## What workers agree on -/

end TaskFunctions

/-- The names of task functions with their texts, and whether they have the default function. -/
def Table : Type := String → Option (String × Bool)

namespace Table

variable {v : Table}

@[ext] theorem ext {v v' : Table} (h : ∀ name, v name = v' name) : v = v' := funext h

/-- Whether a name has the default function; a name that is missing has it if there is none. -/
def isDefault (v : Table) (name : String) : Bool :=
  match v name with
  | some (_, b) => b
  | none => (v defaultTaskName).isNone

def add (v : Table) (name text : String) : Table := fun n =>
  if n = name then some (text, v.isDefault name)
  else if n = defaultTaskName ∧ v.isDefault name = true then some (text, true)
  else (v n).map fun e => (e.1, e.2 && !v.isDefault name)

def delete (v : Table) (name : String) : Table := fun n => if n = name then none else v n

def setDefault (v : Table) (name : String) : Table := fun n =>
  if n = defaultTaskName ∨ n = name then (v name).map fun e => (e.1, true)
  else (v n).map fun e => (e.1, false)

/-- What a message changes. -/
def handle (evaluate : String → Evaluated) (message : OperationMessage) (v : Table) : Table :=
  let name := message.taskFunctionName
  if Refused name then v
  else
    match message.taskFunctionOperation with
    | .add =>
      let text := message.taskFunction.getD "undefined"
      if evaluate text = .function then v.add name text else v
    | .remove => if v.isDefault name then v else v.delete name
    | .default => if (v name).isSome then v.setDefault name else v
    | .unknown => v

end Table

namespace TaskFunctions

variable {w : TaskFunctions}

def table (w : TaskFunctions) : Table := fun name =>
  (w.map.get name).map fun f => (f.text, w.map.get defaultTaskName = some f)

/-- The task functions after a message; a worker that throws keeps them. -/
def after (evaluate : String → Evaluated) (message : OperationMessage) (w : TaskFunctions) : TaskFunctions :=
  match w.handleTaskFunctionOperationMessage evaluate none message with
  | none => w
  | some (w', _) => w'

theorem table_eq_some {name : String} {f : TaskFunction} (h : w.map.get name = some f) :
    w.table name = some (f.text, decide (w.map.get defaultTaskName = some f)) := by
  unfold table
  rw [h]
  rfl

theorem table_eq_none {name : String} (h : w.map.get name = none) : w.table name = none := by
  unfold table
  rw [h]
  rfl

theorem isDefault_table (w : TaskFunctions) (name : String) : w.table.isDefault name = w.isDefault name := by
  rcases hf : w.map.get name with _ | f
  · rcases hd : w.map.get defaultTaskName with _ | d
    · simp [Table.isDefault, isDefault, table_eq_none hf, table_eq_none hd, hf, hd]
    · simp [Table.isDefault, isDefault, table_eq_none hf, table_eq_some hd, hf, hd]
  · simp [Table.isDefault, isDefault, table_eq_some hf, hf, eq_comm]

/-- A function that is bound now has no name yet. -/
theorem new_ne {name : String} {f : TaskFunction} (h : w.map.get name = some f) (text : String) :
    f ≠ ⟨text, w.bindings⟩ := by
  rintro rfl
  exact Nat.lt_irrefl _ (w.below _ _ h)

theorem table_add (w : TaskFunctions) {name : String} (text : String) (hname : name ≠ defaultTaskName) :
    (w.add name text).table = w.table.add name text := by
  have hnew (n : String) : w.map.get n ≠ some ⟨text, w.bindings⟩ := fun h => new_ne h text rfl
  funext n
  unfold Table.add
  rw [isDefault_table]
  rcases hd : w.isDefault name with _ | _
  · by_cases hn : n = name
    · simp [table, add, hd, hn, OrderedMap.get_set, Ne.symm hname, hnew]
    · simp [table, add, hd, hn, OrderedMap.get_set, Ne.symm hname]
      rfl
  · by_cases hn : n = name
    · simp [table, add, hd, hn, OrderedMap.get_set, Ne.symm hname]
    · -- the name was the default, which follows to the new function
      by_cases hdef : n = defaultTaskName
      · simp [table, add, hd, hdef, OrderedMap.get_set, Ne.symm hname]
      · rcases hf : w.map.get n with _ | f
        · simp [table, add, hd, hn, hdef, hf, OrderedMap.get_set, Ne.symm hname]
        · simp [table, add, hd, hn, hdef, hf, OrderedMap.get_set, Ne.symm hname, (new_ne hf text).symm]

theorem table_delete (w : TaskFunctions) {name : String} (hname : name ≠ defaultTaskName) :
    (w.delete name).table = w.table.delete name := by
  funext n
  unfold Table.delete
  by_cases hn : n = name
  · simp [table, delete, hn, OrderedMap.get_delete]
  · simp [table, delete, hn, OrderedMap.get_delete, Ne.symm hname]

theorem table_setDefault (w : TaskFunctions) {name : String} {f : TaskFunction} (hf : w.map.get name = some f)
    (hname : name ≠ defaultTaskName) : (w.setDefault name f hf).table = w.table.setDefault name := by
  funext n
  unfold Table.setDefault
  by_cases hdef : n = defaultTaskName
  · simp [table, setDefault, hdef, hf]
  · by_cases hn : n = name
    · simp [table, setDefault, hn, hf, OrderedMap.get_set, hname]
    · rcases hg : w.map.get n with _ | g
      · simp [table, setDefault, hdef, hn, hg, OrderedMap.get_set]
      · -- another name has another function
        have hne : f ≠ g := by
          rintro rfl
          exact hn (w.distinct n name f hg hf hdef hname)
        simp [table, setDefault, hdef, hn, hg, hne, OrderedMap.get_set]

/-! ### What an operation changes -/

theorem addTaskFunction_fst (notification : Option JsError) (name : String) (fn : Option String) (w : TaskFunctions) :
    (addTaskFunction notification name fn w).1 =
      if Refused name then w else (fn.map fun text => w.add name text).getD w := by
  unfold addTaskFunction checkTaskFunctionName Refused
  by_cases hblank : isBlank name = true
  · simp [hblank]
  · by_cases hname : name = defaultTaskName
    · simp [hname]
      split <;> rfl
    · cases fn <;> simp [hblank, hname]

theorem removeTaskFunction_fst (notification : Option JsError) (name : String) (w : TaskFunctions) :
    (removeTaskFunction notification name w).1 = if Refused name ∨ w.isDefault name = true then w else w.delete name := by
  unfold removeTaskFunction checkTaskFunctionName Refused
  by_cases hblank : isBlank name = true
  · simp [hblank]
  · by_cases hname : name = defaultTaskName
    · simp [hname]
      split <;> rfl
    · by_cases hd : w.isDefault name = true
      · simp [hblank, hname, hd]
      · simp [hblank, hname, hd]

theorem setDefaultTaskFunction_fst (notification : Option JsError) (name : String) (w : TaskFunctions) :
    (setDefaultTaskFunction notification name w).1 = if Refused name then w else
      match hf : w.map.get name with
      | none => w
      | some f => w.setDefault name f hf := by
  unfold setDefaultTaskFunction checkTaskFunctionName Refused
  by_cases hblank : isBlank name = true
  · simp [hblank]
  · by_cases hname : name = defaultTaskName
    · simp only [hname, or_true, if_true]
      split <;> rfl
    · simp only [hblank, hname, or_false, if_false, Bool.false_eq_true]
      split <;> rfl

/-- A message has the same effect whether the main worker can be told of it or not. -/
theorem after_of_handle {evaluate : String → Evaluated} {notification : Option JsError} {message : OperationMessage}
    {w' : TaskFunctions} {r : TaskFunctionOperationResult}
    (h : w.handleTaskFunctionOperationMessage evaluate notification message = some (w', r)) :
    w' = w.after evaluate message := by
  have hfst : (w.handleTaskFunctionOperationMessage evaluate none message).map Prod.fst = some w' := by
    have hmap := congrArg (Option.map Prod.fst) h
    rw [Option.map_some] at hmap
    rw [← hmap]
    unfold handleTaskFunctionOperationMessage
    cases message.taskFunctionOperation with
    | add =>
      dsimp only
      cases evaluate (message.taskFunction.getD "undefined") with
      | throws => rfl
      | notFunction => simp only [Option.map_some, addTaskFunction_fst]
      | function => simp only [Option.map_some, addTaskFunction_fst]
    | remove => simp only [Option.map_some, removeTaskFunction_fst]
    | default => simp only [Option.map_some, setDefaultTaskFunction_fst]
    | unknown => rfl
  -- `after` is that of a notification that succeeds
  obtain ⟨⟨w₁, r₁⟩, heq, rfl⟩ := Option.map_eq_some_iff.1 hfst
  unfold after
  rw [heq]

theorem table_after (evaluate : String → Evaluated) (message : OperationMessage) (w : TaskFunctions) :
    (w.after evaluate message).table = w.table.handle evaluate message := by
  obtain ⟨operation, name, fn⟩ := message
  unfold Table.handle after handleTaskFunctionOperationMessage
  dsimp only
  by_cases hrefused : Refused name
  · rw [if_pos hrefused]
    cases operation with
    | add => cases evaluate (fn.getD "undefined") <;> simp [addTaskFunction_fst, hrefused]
    | remove => simp [removeTaskFunction_fst, hrefused]
    | default => simp [setDefaultTaskFunction_fst, hrefused]
    | unknown => rfl
  · have hname : name ≠ defaultTaskName := fun h => hrefused (.inr h)
    rw [if_neg hrefused]
    cases operation with
    | add =>
      rcases he : evaluate (fn.getD "undefined") with _ | _ | _
      · simp
      · simp [addTaskFunction_fst, hrefused]
      · simp [addTaskFunction_fst, hrefused, table_add w _ hname]
    | remove =>
      rw [isDefault_table]
      rcases hd : w.isDefault name with _ | _
      · simp [removeTaskFunction_fst, hrefused, hd, table_delete w hname]
      · simp [removeTaskFunction_fst, hd]
    | default =>
      simp only [setDefaultTaskFunction_fst, if_neg hrefused]
      split
      · rename_i hf
        rw [table_eq_none hf]
        rfl
      · rename_i f hf
        rw [table_eq_some hf, Option.isSome_some, if_pos rfl]
        exact table_setDefault w hf hname
    | unknown => rfl

end TaskFunctions

end Poolifier
