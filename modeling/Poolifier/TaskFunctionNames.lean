import Poolifier.OperationMessages
/-!
# The names of a worker's task functions

The constructor of a worker stores the default function under the reserved name
and under a name of its own, and the methods that change the functions keep the
two together. The list of names, whose second element is how a pool knows the
default function, is right where they are together. An argument that uses the
reserved name itself parts them: nothing in the constructor refuses it.
-/

namespace Poolifier

open MapLib

/-- The `taskFunctions` parameter. A function has a name that is a string or not. The entries of an object
are in the order of `Object.entries`; the value of one is the text of a function, if it is a function. -/
inductive TaskFunctionsArgument
  | missing
  | function (name : Option String) (text : String)
  | object (entries : OrderedMap String (Option String))
  | other

/-- The name that a function on its own is stored under. -/
def ownName (name : Option String) : String := if isBlank (name.getD "") then "fn1" else name.getD ""

/-- The names of its own that an argument gives to functions. -/
def TaskFunctionsArgument.names : TaskFunctionsArgument → List String
  | .function name _ => [ownName name]
  | .object entries => entries.keys
  | _ => []

namespace TaskFunctions

/-! ## The constructor -/

/-- The text of the function, if the entry is valid. -/
def checkValidTaskFunctionEntry (name : String) (fn : Option String) : Except JsError String :=
  if isBlank name then .error (.typeError "A taskFunctions parameter object key is an empty string")
  else
    -- the reserved name passes, unlike in the methods
    match fn with
    | none => .error (.typeError "A taskFunctions parameter object value is not a function")
    | some text => .ok text

def empty : TaskFunctions := ⟨.empty, 0, by simp, by simp⟩

/-- What the loop of `checkTaskFunctions` stores of an entry. -/
def bindEntry (firstEntry : Bool) (name text : String) (w : TaskFunctions) : TaskFunctions where
  map := (if firstEntry then w.map.set defaultTaskName ⟨text, w.bindings⟩ else w.map).set name ⟨text, w.bindings⟩
  bindings := w.bindings + 1
  below := below_store w firstEntry name text
  distinct := distinct_store w firstEntry name text

/-- The loop of `checkTaskFunctions`. It also returns `firstEntry`. -/
def bindEntries : List (String × Option String) → Bool → TaskFunctions → Except JsError (Bool × TaskFunctions)
  | [], firstEntry, w => .ok (firstEntry, w)
  | (name, fn) :: entries, firstEntry, w => do
    let text ← checkValidTaskFunctionEntry name fn
    bindEntries entries false (w.bindEntry firstEntry name text)

def checkTaskFunctions : TaskFunctionsArgument → Except JsError TaskFunctions
  | .missing => .error (.error "taskFunctions parameter is mandatory")
  | .function name text => .ok (ofFunction (name.getD "") text)
  | .object entries => do
    let (firstEntry, w) ← bindEntries entries.entries true empty
    if firstEntry then .error (.error "taskFunctions parameter object is empty") else .ok w
  | .other => .error (.typeError "taskFunctions parameter is not a function or a plain object")

/-! ## Calls -/

/-- A call of a method that changes the task functions; the function of `addTaskFunction` is its text. -/
inductive Call
  | addTaskFunction (name : String) (fn : Option String)
  | removeTaskFunction (name : String)
  | setDefaultTaskFunction (name : String)

/-- What a call does, with the exception of its message to the main worker, if that throws. -/
def call (notification : Option JsError) (w : TaskFunctions) : Call → TaskFunctions × TaskFunctionOperationResult
  | .addTaskFunction name fn => w.addTaskFunction notification name fn
  | .removeTaskFunction name => w.removeTaskFunction notification name
  | .setDefaultTaskFunction name => w.setDefaultTaskFunction notification name

def afterCalls (w : TaskFunctions) (calls : List (Call × Option JsError)) : TaskFunctions :=
  calls.foldl (fun w c => (w.call c.2 c.1).1) w

/-! ## The list of names -/

/-- The reserved name and exactly one other name have the default function. The list has the two, and then the other
names in the order they have been added in, each once. -/
def ListsNames (w : TaskFunctions) : Prop :=
  ∃ own f, own ≠ defaultTaskName ∧ w.map.get defaultTaskName = some f ∧
    (∀ name, name ≠ defaultTaskName → (w.map.get name = some f ↔ name = own)) ∧
    ∃ names, names = defaultTaskName :: own :: w.map.keys.filter (fun name => name ≠ defaultTaskName ∧ name ≠ own) ∧
      w.listTaskFunctionNames = names.map some ∧ names.Nodup ∧ ∀ name, name ∈ names ↔ name ∈ w.map.keys

/-- The default function is under the name `own` too. -/
structure NamedDefault (w : TaskFunctions) (own : String) : Prop where
  ne : own ≠ defaultTaskName
  hasDefault : (w.map.get defaultTaskName).isSome = true
  same : w.map.get own = w.map.get defaultTaskName

/-- The default function is under no name of its own. -/
def Lone (w : TaskFunctions) : Prop :=
  ∃ f, w.map.get defaultTaskName = some f ∧ ∀ name, name ≠ defaultTaskName → w.map.get name ≠ some f

section Names
variable {w : TaskFunctions} {own : String}

/-- The function of the two names. -/
theorem NamedDefault.exists_function (h : NamedDefault w own) :
    ∃ f, w.map.get defaultTaskName = some f ∧ w.map.get own = some f := by
  obtain ⟨f, hf⟩ := Option.isSome_iff_exists.1 h.hasDefault
  exact ⟨f, hf, h.same.trans hf⟩

/-- The default function is told from all others by its identity. -/
theorem NamedDefault.unique (h : NamedDefault w own) {name : String} (hname : name ≠ defaultTaskName)
    (hsame : w.map.get name = w.map.get defaultTaskName) : name = own := by
  obtain ⟨f, hdefault, hown⟩ := h.exists_function
  exact w.distinct name own f (hsame.trans hdefault) hown hname h.ne

theorem NamedDefault.defaultTaskFunctionName_eq (h : NamedDefault w own) : w.defaultTaskFunctionName = own := by
  obtain ⟨f, hdefault, hown⟩ := h.exists_function
  unfold defaultTaskFunctionName
  rcases hfind : w.map.keys.find? (fun name => name ≠ defaultTaskName ∧ w.isDefault name) with _ | found
  · have hnot := List.find?_eq_none.1 hfind own (OrderedMap.mem_keys_of_get hown)
    exact absurd (decide_eq_true ⟨h.ne, decide_eq_true h.same⟩) hnot
  · have hfound := List.find?_some hfind
    obtain ⟨hne, hsame⟩ := of_decide_eq_true hfound
    exact h.unique hne (of_decide_eq_true hsame)

theorem listsNames_iff : ListsNames w ↔ ∃ own, NamedDefault w own := by
  constructor
  · rintro ⟨own, f, hne, hdefault, hnames, -⟩
    refine ⟨own, hne, ?_, ?_⟩
    · rw [hdefault]
      rfl
    · rw [hdefault]
      exact (hnames own hne).2 rfl
  · rintro ⟨own, h⟩
    obtain ⟨f, hdefault, hown⟩ := h.exists_function
    refine ⟨own, f, h.ne, hdefault, fun name hname => ⟨fun hf => ?_, fun heq => heq ▸ hown⟩, _, rfl, ?_, ?_, ?_⟩
    · exact h.unique hname (hf.trans hdefault.symm)
    · unfold listTaskFunctionNames
      dsimp only
      rw [OrderedMap.find_keys_of_get hdefault, h.defaultTaskFunctionName_eq]
      rfl
    · have hfilter {name : String} (hmem : name ∈ w.map.keys.filter fun name => name ≠ defaultTaskName ∧ name ≠ own) :
          name ≠ defaultTaskName ∧ name ≠ own := of_decide_eq_true (List.mem_filter.1 hmem).2
      refine List.nodup_cons.2 ⟨fun hmem => ?_, List.nodup_cons.2 ⟨fun hmem => (hfilter hmem).2 rfl, ?_⟩⟩
      · rcases List.mem_cons.1 hmem with heq | hmem
        · exact h.ne heq.symm
        · exact (hfilter hmem).1 rfl
      · exact w.map.nodup.filter _
    · intro name
      have hdefaultMem := OrderedMap.mem_keys_of_get hdefault
      have hownMem := OrderedMap.mem_keys_of_get hown
      rw [List.mem_cons, List.mem_cons, List.mem_filter, decide_eq_true_iff]
      constructor
      · rintro (rfl | rfl | ⟨hmem, -⟩)
        · exact hdefaultMem
        · exact hownMem
        · exact hmem
      · intro hmem
        by_cases hname : name = defaultTaskName
        · exact .inl hname
        · by_cases hname' : name = own
          · exact .inr (.inl hname')
          · exact .inr (.inr ⟨hmem, hname, hname'⟩)

theorem Lone.not_listsNames (h : Lone w) : ¬ ListsNames w := by
  obtain ⟨f, hdefault, hnames⟩ := h
  rw [listsNames_iff]
  rintro ⟨own, hown⟩
  exact hnames own hown.ne (hown.same.trans hdefault)

end Names

/-! ## The methods -/

section Methods
variable {w : TaskFunctions} {own name : String}

theorem NamedDefault.add (h : NamedDefault w own) (hname : name ≠ defaultTaskName) (text : String) :
    NamedDefault (w.add name text) own := by
  by_cases hown : name = own
  · have hd : w.isDefault name = true := decide_eq_true (hown ▸ h.same)
    have hget : (w.add name text).map.get defaultTaskName = some ⟨text, w.bindings⟩ := by
      simp [TaskFunctions.add, hd, OrderedMap.get_set_ne _ _ hname.symm]
    refine ⟨h.ne, by rw [hget]; rfl, ?_⟩
    rw [hget, ← hown]
    simp [TaskFunctions.add]
  · -- another name does not have the default function, and the two names stay as they are
    have hd : w.isDefault name = false := decide_eq_false fun hsame => hown (h.unique hname hsame)
    have hkept {n : String} (hn : n ≠ name) : (w.add name text).map.get n = w.map.get n := by
      simp [TaskFunctions.add, hd, OrderedMap.get_set_ne _ _ hn]
    refine ⟨h.ne, ?_, ?_⟩
    · rw [hkept hname.symm]
      exact h.hasDefault
    · rw [hkept hname.symm, hkept (Ne.symm hown)]
      exact h.same

theorem NamedDefault.delete (h : NamedDefault w own) (hname : name ≠ defaultTaskName) (hd : w.isDefault name = false) :
    NamedDefault (w.delete name) own := by
  have hown : own ≠ name := by
    rintro rfl
    exact of_decide_eq_false hd h.same
  have hkept {n : String} (hn : n ≠ name) : (w.delete name).map.get n = w.map.get n := by
    simp [TaskFunctions.delete, OrderedMap.get_delete, hn]
  refine ⟨h.ne, ?_, ?_⟩
  · rw [hkept hname.symm]
    exact h.hasDefault
  · rw [hkept hname.symm, hkept hown]
    exact h.same

/-- The name that is set is the one that the default function has. -/
theorem namedDefault_setDefault {f : TaskFunction} (hname : name ≠ defaultTaskName) (hf : w.map.get name = some f) :
    NamedDefault (w.setDefault name f hf) name := by
  have hget : (w.setDefault name f hf).map.get defaultTaskName = some f := OrderedMap.get_set_self _ _ _
  refine ⟨hname, by rw [hget]; rfl, ?_⟩
  rw [hget]
  exact (OrderedMap.get_set_ne _ _ hname).trans hf

theorem NamedDefault.call (h : NamedDefault w own) (notification : Option JsError) (c : Call) :
    ∃ own', NamedDefault (w.call notification c).1 own' := by
  cases c with
  | addTaskFunction name fn =>
    unfold TaskFunctions.call
    dsimp only
    rw [addTaskFunction_fst]
    split
    · exact ⟨own, h⟩
    · rename_i hrefused
      cases fn with
      | none => exact ⟨own, h⟩
      | some text => exact ⟨own, h.add (fun hname => hrefused (.inr hname)) text⟩
  | removeTaskFunction name =>
    unfold TaskFunctions.call
    dsimp only
    rw [removeTaskFunction_fst]
    split
    · exact ⟨own, h⟩
    · rename_i hrefused
      rw [not_or, Bool.not_eq_true] at hrefused
      exact ⟨own, h.delete (fun hname => hrefused.1 (.inr hname)) hrefused.2⟩
  | setDefaultTaskFunction name =>
    unfold TaskFunctions.call
    dsimp only
    rw [setDefaultTaskFunction_fst]
    split
    · exact ⟨own, h⟩
    · rename_i hrefused
      split
      · exact ⟨own, h⟩
      · exact ⟨name, namedDefault_setDefault (fun hname => hrefused (.inr hname)) _⟩

/-- No calls part the two names, whether the main worker can be told of them or not. -/
theorem NamedDefault.afterCalls (h : NamedDefault w own) (calls : List (Call × Option JsError)) :
    ∃ own', NamedDefault (w.afterCalls calls) own' := by
  -- the name changes with every `setDefaultTaskFunction` that is not refused
  induction calls generalizing w own with
  | nil => exact ⟨own, h⟩
  | cons c calls ih =>
    obtain ⟨own', h'⟩ := h.call c.2 c.1
    exact ih h'

end Methods

/-! ## What the constructor stores -/

section Constructor
variable {w w' : TaskFunctions} {b b' : Bool} {own name text : String} {fn : Option String}
  {entries : List (String × Option String)}

theorem get_bindEntry_self (b : Bool) (name text : String) (w : TaskFunctions) :
    (w.bindEntry b name text).map.get name = some ⟨text, w.bindings⟩ := OrderedMap.get_set_self _ _ _

theorem get_bindEntry_ne (hne : own ≠ name) (hown : own ≠ defaultTaskName) (b : Bool) (text : String) (w : TaskFunctions) :
    (w.bindEntry b name text).map.get own = w.map.get own := by
  cases b with
  | false => exact OrderedMap.get_set_ne _ _ hne
  | true => exact (OrderedMap.get_set_ne _ _ hne).trans (OrderedMap.get_set_ne _ _ hown)

/-- The first entry names the default function. -/
theorem namedDefault_bindEntry (hname : name ≠ defaultTaskName) (text : String) (w : TaskFunctions) :
    NamedDefault (w.bindEntry true name text) name := by
  have hget : (w.bindEntry true name text).map.get defaultTaskName = some ⟨text, w.bindings⟩ :=
    (OrderedMap.get_set_ne _ _ hname.symm).trans (OrderedMap.get_set_self _ _ _)
  refine ⟨hname, by rw [hget]; rfl, ?_⟩
  rw [hget]
  exact get_bindEntry_self _ _ _ _

/-- An entry of another name leaves the two names as they are. -/
theorem NamedDefault.bindEntry (h : NamedDefault w own) (hname : name ≠ defaultTaskName) (hown : own ≠ name)
    (text : String) : NamedDefault (w.bindEntry false name text) own := by
  have hget : (w.bindEntry false name text).map.get defaultTaskName = w.map.get defaultTaskName :=
    OrderedMap.get_set_ne _ _ hname.symm
  refine ⟨h.ne, ?_, ?_⟩
  · rw [hget]
    exact h.hasDefault
  · rw [hget, get_bindEntry_ne hown h.ne]
    exact h.same

/-- The loop has got through an entry if the entry is valid. -/
theorem bindEntries_cons (h : bindEntries ((name, fn) :: entries) b w = .ok (b', w')) :
    ∃ text, bindEntries entries false (w.bindEntry b name text) = .ok (b', w') := by
  rcases hcheck : checkValidTaskFunctionEntry name fn with e | text
  · rw [bindEntries, hcheck] at h
    cases h
  · rw [bindEntries, hcheck] at h
    exact ⟨text, h⟩

theorem NamedDefault.bindEntries (h : NamedDefault w own)
    (hloop : bindEntries entries false w = .ok (b', w')) (hreserved : defaultTaskName ∉ entries.map Prod.fst)
    (hown : own ∉ entries.map Prod.fst) : NamedDefault w' own := by
  -- over the entries after the first, none of which has either of the two names
  induction entries generalizing w with
  | nil =>
    cases hloop
    exact h
  | cons entry entries ih =>
    obtain ⟨name, fn⟩ := entry
    obtain ⟨text, hloop⟩ := bindEntries_cons hloop
    rw [List.map_cons, List.mem_cons, not_or] at hreserved hown
    exact ih (h.bindEntry (Ne.symm hreserved.1) hown.1 text) hloop hreserved.2 hown.2

/-- An entry that uses the reserved name leaves the default function without a name of its own. -/
theorem lone_bindEntry_default (b : Bool) (text : String) (w : TaskFunctions) :
    Lone (w.bindEntry b defaultTaskName text) := by
  refine ⟨_, get_bindEntry_self _ _ _ _, fun name hname hnew => ?_⟩
  rw [get_bindEntry_ne hname hname] at hnew
  exact new_ne hnew text rfl

theorem Lone.bindEntry (h : Lone w) (name text : String) : Lone (w.bindEntry false name text) := by
  by_cases hname : name = defaultTaskName
  · rw [hname]
    exact lone_bindEntry_default _ _ _
  · obtain ⟨f, hdefault, hnames⟩ := h
    refine ⟨f, (OrderedMap.get_set_ne _ _ (Ne.symm hname)).trans hdefault, fun n hn hf => ?_⟩
    by_cases hne : n = name
    · rw [hne, get_bindEntry_self] at hf
      exact new_ne hdefault text (Option.some.inj hf).symm
    · rw [get_bindEntry_ne hne hn] at hf
      exact hnames n hn hf

theorem lone_bindEntries (hloop : bindEntries entries b w = .ok (b', w'))
    (h : defaultTaskName ∈ entries.map Prod.fst ∨ b = false ∧ Lone w) : Lone w' := by
  -- the entry of the reserved name is yet to come, or has been stored
  induction entries generalizing b w with
  | nil =>
    cases hloop
    rcases h with hnil | ⟨-, h⟩
    · cases hnil
    · exact h
  | cons entry entries ih =>
    obtain ⟨name, fn⟩ := entry
    obtain ⟨text, hloop⟩ := bindEntries_cons hloop
    by_cases hname : name = defaultTaskName
    · rw [hname] at hloop
      exact ih hloop (.inr ⟨rfl, lone_bindEntry_default _ _ _⟩)
    · rcases h with hmem | ⟨rfl, h⟩
      · rw [List.map_cons, List.mem_cons] at hmem
        exact ih hloop (.inl (hmem.resolve_left (Ne.symm hname)))
      · exact ih hloop (.inr ⟨rfl, h.bindEntry _ _⟩)

theorem bindEntries_of_object {entries : OrderedMap String (Option String)}
    (h : checkTaskFunctions (.object entries) = .ok w) : bindEntries entries.entries true empty = .ok (false, w) := by
  rw [checkTaskFunctions] at h
  rcases hloop : bindEntries entries.entries true empty with e | ⟨b, w'⟩
  · rw [hloop] at h
    cases h
  · rw [hloop] at h
    cases b with
    | true => cases h
    | false =>
      cases h
      rfl

theorem namedDefault_checkTaskFunctions {arg : TaskFunctionsArgument} (h : checkTaskFunctions arg = .ok w)
    (hreserved : defaultTaskName ∉ arg.names) : ∃ own, NamedDefault w own := by
  cases arg with
  | missing => cases h
  | other => cases h
  | function name text =>
    cases h
    exact ⟨_, namedDefault_bindEntry (Ne.symm (List.ne_of_not_mem_cons hreserved)) text empty⟩
  | object entries =>
    have hloop := bindEntries_of_object h
    obtain ⟨entries, hnodup⟩ := entries
    cases entries with
    | nil => cases hloop
    | cons entry entries =>
      obtain ⟨name, fn⟩ := entry
      obtain ⟨text, hloop⟩ := bindEntries_cons hloop
      obtain ⟨hname, hrest⟩ := not_or.1 fun hmem => hreserved (List.mem_cons.2 hmem)
      exact ⟨name, (namedDefault_bindEntry (Ne.symm hname) text empty).bindEntries hloop hrest (List.nodup_cons.1 hnodup).1⟩

theorem lone_checkTaskFunctions {arg : TaskFunctionsArgument} (h : checkTaskFunctions arg = .ok w)
    (hreserved : defaultTaskName ∈ arg.names) : Lone w := by
  cases arg with
  | missing => cases h
  | other => cases h
  | function name text =>
    cases h
    have hname : ownName name = defaultTaskName := (List.mem_singleton.1 hreserved).symm
    have hlone := lone_bindEntry_default true text empty
    rw [← hname] at hlone
    exact hlone
  | object entries => exact lone_bindEntries (bindEntries_of_object h) (.inl hreserved)

end Constructor

/-- Whatever calls are made, the names are listed right if and only if the argument does not use the reserved name. -/
theorem listsNames_afterCalls_iff (arg : TaskFunctionsArgument) (w : TaskFunctions) (h : checkTaskFunctions arg = .ok w) :
    (∀ calls, ListsNames (w.afterCalls calls)) ↔ defaultTaskName ∉ arg.names := by
  constructor
  · intro hlists hreserved
    exact (lone_checkTaskFunctions h hreserved).not_listsNames (hlists [])
  · intro hreserved calls
    obtain ⟨own, hown⟩ := namedDefault_checkTaskFunctions h hreserved
    exact listsNames_iff.2 (hown.afterCalls calls)

/-- A worker that is given one function gets another, which is made the default and replaced. -/
theorem listsNames_afterCalls_function :
    ListsNames ((ofFunction "fn" "() => 1").afterCalls
      [(.addTaskFunction "fn2" (some "() => 2"), none), (.setDefaultTaskFunction "fn2", none),
        (.addTaskFunction "fn2" (some "() => 3"), none), (.removeTaskFunction "fn", none)]) :=
  (listsNames_afterCalls_iff (.function (some "fn") "() => 1") _ rfl).2 (by decide) _

/-- The object `{ fn1: () => 1, default: () => 2 }`, whose second entry is not refused. -/
theorem listsNames_afterCalls_reserved :
    ¬ ∀ arg w, checkTaskFunctions arg = .ok w → ∀ calls, ListsNames (w.afterCalls calls) := by
  intro hclaim
  refine (lone_bindEntry_default false "() => 2" (empty.bindEntry true "fn1" "() => 1")).not_listsNames ?_
  exact hclaim (.object ⟨[("fn1", some "() => 1"), ("default", some "() => 2")], by decide⟩) _ rfl []

end TaskFunctions
end Poolifier
