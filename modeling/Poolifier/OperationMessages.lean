import Poolifier.FunctionUsage
import Poolifier.Lib.Catch
import Poolifier.TaskFunctions
/-!
# The answer to a task function operation

`handleTaskFunctionOperationMessage` with the messages that it sends. The
methods of the worker catch their exceptions, and return them as results; the
text of a function is evaluated before the method is called, so an exception of
the evaluation leaves the handler, and no answer is sent. After an update the
worker also sends the names of its functions, always as a list that the usage
records of a pool are made for (`SendsLists`).
-/

namespace Poolifier

open CatchLib MapLib

/-! ## The names of the task functions -/

namespace TaskFunctions

/-- The name of its own that the default function has, if any, or else the reserved one. -/
def defaultTaskFunctionName (w : TaskFunctions) : String :=
  (w.map.keys.find? fun name => name ≠ defaultTaskName ∧ w.isDefault name).getD defaultTaskName

/-- `none` is the `undefined` at the key -1, where no function has the reserved name. -/
def listTaskFunctionNames (w : TaskFunctions) : List (Option String) :=
  let names := w.map.keys
  names.find? (· = defaultTaskName) :: some w.defaultTaskFunctionName ::
    (names.filter fun name => name ≠ defaultTaskName ∧ name ≠ w.defaultTaskFunctionName).map some

/-- The list of a worker that has a default function, with that function or not under a name of its own. -/
theorem listTaskFunctionNames_functionList {w : TaskFunctions} (h : (w.map.get defaultTaskName).isSome = true) :
    ∃ names, w.listTaskFunctionNames = names.map some ∧ (2 < names.length → FunctionList names) := by
  obtain ⟨f, hf⟩ := Option.isSome_iff_exists.1 h
  let others := w.map.keys.filter fun name => name ≠ defaultTaskName ∧ name ≠ w.defaultTaskFunctionName
  have hothers {name : String} (hmem : name ∈ others) : name ≠ defaultTaskName ∧ name ≠ w.defaultTaskFunctionName :=
    of_decide_eq_true (List.mem_filter.1 hmem).2
  refine ⟨defaultTaskName :: w.defaultTaskFunctionName :: others, ?_, fun htwo => ⟨rfl, ?_, fun hmem => ?_, htwo⟩⟩
  · unfold listTaskFunctionNames
    dsimp only
    rw [OrderedMap.find_keys_of_get hf]
    rfl
  · exact List.nodup_cons.2 ⟨fun hmem => (hothers hmem).2 rfl, w.map.nodup.filter _⟩
  · rcases List.mem_cons.1 hmem with hown | hmem
    · exact congrArg some hown.symm
    · exact absurd rfl (hothers hmem).1

/-! ## Setting the default function -/

section Default
variable {w : TaskFunctions} {name : String} {notification : Option JsError}

theorem setDefaultTaskFunction_refused {e : JsError} (h : checkTaskFunctionName name = .error e) (w : TaskFunctions) :
    setDefaultTaskFunction notification name w = (w, ⟨false, some e⟩) := by
  unfold setDefaultTaskFunction
  rw [h]

theorem setDefaultTaskFunction_missing {u : Unit} (h : checkTaskFunctionName name = .ok u) (hname : name ≠ defaultTaskName)
    (hf : w.map.get name = none) : setDefaultTaskFunction notification name w =
      (w, ⟨false, some (.error "Cannot set the default task function to a non-existing task function")⟩) := by
  unfold setDefaultTaskFunction
  rw [h]
  simp only [if_neg hname]
  split
  · rfl
  · rename_i hf'
    rw [hf] at hf'
    cases hf'

theorem setDefaultTaskFunction_stored {u : Unit} {f : TaskFunction} (h : checkTaskFunctionName name = .ok u)
    (hname : name ≠ defaultTaskName) (hf : w.map.get name = some f) :
    setDefaultTaskFunction notification name w = (w.setDefault name f hf, notified true notification) := by
  unfold setDefaultTaskFunction
  rw [h]
  simp only [if_neg hname]
  split
  · rename_i hf'
    rw [hf] at hf'
    cases hf'
  · rename_i f' hf'
    obtain rfl : f = f' := Option.some.inj (hf.symm.trans hf')
    rfl

end Default

end TaskFunctions

/-! ## The messages of a worker -/

/-- The answer to an operation. `handleError` makes the text of `workerError` from the exception. -/
structure OperationAnswer where
  taskFunctionOperation : TaskFunctionOperation
  taskFunctionOperationStatus : Bool
  taskFunctionName : String
  workerError : Option (String × JsError)

namespace OperationWorker

inductive Message
  | taskFunctionNames (names : List (Option String))
  | taskFunctionOperation (answer : OperationAnswer)

def Message.answer? : Message → Option OperationAnswer
  | .taskFunctionNames _ => none
  | .taskFunctionOperation answer => some answer

/-- A worker, as far as operations concern it, with the messages it has sent. -/
structure State where
  taskFunctions : TaskFunctions
  sent : List Message

def State.answers (s : State) : List OperationAnswer := s.sent.filterMap Message.answer?

abbrev OperationM (α : Type) := EStateM JsError State α

/-! ## The code -/

def sendToMainWorker (message : Message) : OperationM Unit := modify fun s => { s with sent := s.sent ++ [message] }

def sendTaskFunctionNamesToMainWorker : OperationM Unit := do
  sendToMainWorker (.taskFunctionNames (← get).taskFunctions.listTaskFunctionNames)

/-- `fn` is the text of the parameter, if it is a function. -/
def addTaskFunction (name : String) (fn : Option String) : OperationM TaskFunctionOperationResult := do
  try
    ofExcept (checkTaskFunctionName name)
    if name = defaultTaskName then
      throw (.error "Cannot add a task function with the default reserved name")
    else
      match fn with
      | none => throw (.typeError "fn parameter is not a function")
      | some text =>
        modify fun s => { s with taskFunctions := s.taskFunctions.add name text }
        sendTaskFunctionNamesToMainWorker
        pure ⟨true, none⟩
  catch error => pure ⟨false, some error⟩

def removeTaskFunction (name : String) : OperationM TaskFunctionOperationResult := do
  try
    ofExcept (checkTaskFunctionName name)
    if name = defaultTaskName then
      throw (.error "Cannot remove the task function with the default reserved name")
    else
      let s ← get
      if s.taskFunctions.isDefault name then
        throw (.error "Cannot remove the task function used as the default task function")
      else
        let deleteStatus := s.taskFunctions.map.has name
        set { s with taskFunctions := s.taskFunctions.delete name }
        sendTaskFunctionNamesToMainWorker
        pure ⟨deleteStatus, none⟩
  catch error => pure ⟨false, some error⟩

def setDefaultTaskFunction (name : String) : OperationM TaskFunctionOperationResult := do
  try
    ofExcept (checkTaskFunctionName name)
    if name = defaultTaskName then
      throw (.error "Cannot set the default task function reserved name as the default task function")
    else
      let s ← get
      match hf : s.taskFunctions.map.get name with
      | none => throw (.error "Cannot set the default task function to a non-existing task function")
      | some f =>
        set { s with taskFunctions := s.taskFunctions.setDefault name f hf }
        sendTaskFunctionNamesToMainWorker
        pure ⟨true, none⟩
  catch error => pure ⟨false, some error⟩

/-- `evaluate` tells of `new Function('return ' + text)()` whether it is a function, or what it throws. -/
def operate (evaluate : String → Except JsError Bool) (message : OperationMessage) :
    OperationM TaskFunctionOperationResult :=
  match message.taskFunctionOperation with
  | .add => do
    let text := message.taskFunction.getD "undefined"
    let isFunction ← ofExcept (evaluate text)
    addTaskFunction message.taskFunctionName (if isFunction then some text else none)
  | .remove => removeTaskFunction message.taskFunctionName
  | .default => setDefaultTaskFunction message.taskFunctionName
  | .unknown => pure ⟨false, some (.error "Unknown task operation")⟩

/-- What is sent of a result. -/
def answerTo (message : OperationMessage) (response : TaskFunctionOperationResult) : OperationAnswer where
  taskFunctionOperation := message.taskFunctionOperation
  taskFunctionOperationStatus := response.status
  taskFunctionName := message.taskFunctionName
  workerError := if response.status then none else response.error.map fun e => (message.taskFunctionName, e)

def handleTaskFunctionOperationMessage (evaluate : String → Except JsError Bool) (message : OperationMessage) :
    OperationM Unit := do
  let response ← operate evaluate message
  sendToMainWorker (.taskFunctionOperation (answerTo message response))

/-! ## What the methods do -/

section Code
variable {s : State} {name : String}

/-- What a method sends: after an update the names, and otherwise nothing. -/
def Notifies (w : TaskFunctions) (messages : List Message) : Prop :=
  messages = [] ∨ messages = [.taskFunctionNames w.listTaskFunctionNames]

/-- The method has made of the worker what `result` says, and has sent no answer. -/
def Ends (m : OperationM TaskFunctionOperationResult) (s : State) (result : TaskFunctions × TaskFunctionOperationResult) :
    Prop :=
  ∃ s' messages, m s = .ok result.2 s' ∧ s'.taskFunctions = result.1 ∧ s'.sent = s.sent ++ messages ∧
    Notifies result.1 messages

theorem Ends.unchanged {m : OperationM TaskFunctionOperationResult} {r : TaskFunctionOperationResult} (h : m s = .ok r s) :
    Ends m s (s.taskFunctions, r) :=
  ⟨s, [], h, rfl, (List.append_nil _).symm, .inl rfl⟩

/-- The worker has made an update, and has told the main worker the names. -/
theorem Ends.notified {m : OperationM TaskFunctionOperationResult} {r : TaskFunctionOperationResult} {w : TaskFunctions}
    (h : m s = .ok r ⟨w, s.sent ++ [.taskFunctionNames w.listTaskFunctionNames]⟩) : Ends m s (w, r) :=
  ⟨_, _, h, rfl, rfl, .inr rfl⟩

theorem answers_of_notifies {s' : State} {w : TaskFunctions} {messages rest : List Message} (h : Notifies w messages)
    (hsent : s'.sent = s.sent ++ messages ++ rest) : s'.answers = s.answers ++ rest.filterMap Message.answer? := by
  unfold State.answers
  rw [hsent, List.filterMap_append, List.filterMap_append]
  rcases h with rfl | rfl
  · exact congrArg (· ++ _) (List.append_nil _)
  · exact congrArg (· ++ _) (List.append_nil _)

/-- After a check that passes, a method reads the task functions. -/
theorem tryCatch_checked {α : Type} (u : Unit) (k : State → OperationM α) (f : JsError → OperationM α) (s : State) :
    tryCatch (ofExcept (.ok u) >>= fun _ => get >>= k) f s = tryCatch (k s) f s := by
  rcases hk : k s s with ⟨a, s'⟩ | ⟨e, s'⟩
  · rw [tryCatch_of_ok hk]
    exact tryCatch_of_ok hk f
  · rw [tryCatch_of_error hk]
    exact tryCatch_of_error hk f

theorem addTaskFunction_ends (s : State) (name : String) (fn : Option String) :
    Ends (addTaskFunction name fn) s (TaskFunctions.addTaskFunction none name fn s.taskFunctions) := by
  unfold addTaskFunction TaskFunctions.addTaskFunction
  rcases hcheck : checkTaskFunctionName name with e | ⟨⟩
  · exact Ends.unchanged rfl
  · by_cases hname : name = defaultTaskName
    · simp only [if_pos hname]
      exact Ends.unchanged rfl
    · simp only [if_neg hname]
      cases fn with
      | none => exact Ends.unchanged rfl
      | some text => exact Ends.notified rfl

theorem removeTaskFunction_ends (s : State) (name : String) :
    Ends (removeTaskFunction name) s (TaskFunctions.removeTaskFunction none name s.taskFunctions) := by
  unfold removeTaskFunction TaskFunctions.removeTaskFunction
  rcases hcheck : checkTaskFunctionName name with e | ⟨⟩
  · exact Ends.unchanged rfl
  · by_cases hname : name = defaultTaskName
    · simp only [if_pos hname]
      exact Ends.unchanged rfl
    · simp only [if_neg hname]
      unfold Ends
      rw [tryCatch_checked]
      by_cases hdefault : s.taskFunctions.isDefault name = true
      · rw [if_pos hdefault, if_pos hdefault]
        exact Ends.unchanged rfl
      · rw [if_neg hdefault, if_neg hdefault]
        exact Ends.notified rfl

theorem setDefaultTaskFunction_ends (s : State) (name : String) :
    Ends (setDefaultTaskFunction name) s (TaskFunctions.setDefaultTaskFunction none name s.taskFunctions) := by
  unfold setDefaultTaskFunction
  rcases hcheck : checkTaskFunctionName name with e | u
  · rw [TaskFunctions.setDefaultTaskFunction_refused hcheck]
    exact Ends.unchanged rfl
  · by_cases hname : name = defaultTaskName
    · unfold TaskFunctions.setDefaultTaskFunction
      rw [hcheck]
      simp only [if_pos hname]
      exact Ends.unchanged rfl
    · simp only [if_neg hname]
      unfold Ends
      rw [tryCatch_checked]
      split
      · rename_i hf
        rw [TaskFunctions.setDefaultTaskFunction_missing hcheck hname hf]
        exact Ends.unchanged rfl
      · rename_i f hf
        rw [TaskFunctions.setDefaultTaskFunction_stored hcheck hname hf]
        exact Ends.notified rfl

/-- What evaluating a text comes to for the other models. -/
def evaluated : Except JsError Bool → Evaluated
  | .error _ => .throws
  | .ok true => .function
  | .ok false => .notFunction

/-- An operation whose text does not throw ends as `TaskFunctions` has it. -/
theorem operate_ends {evaluate : String → Except JsError Bool} {message : OperationMessage}
    {result : TaskFunctions × TaskFunctionOperationResult} (s : State)
    (h : s.taskFunctions.handleTaskFunctionOperationMessage (fun text => evaluated (evaluate text)) none message =
      some result) : Ends (operate evaluate message) s result := by
  unfold TaskFunctions.handleTaskFunctionOperationMessage at h
  unfold operate
  cases hoperation : message.taskFunctionOperation with
  | add =>
    rw [hoperation] at h
    dsimp only at h ⊢
    rcases he : evaluate (message.taskFunction.getD "undefined") with e | b
    · rw [he] at h
      cases h
    · rw [he] at h
      cases b with
      | true =>
        cases h
        exact addTaskFunction_ends s _ (some _)
      | false =>
        cases h
        exact addTaskFunction_ends s _ none
  | remove =>
    rw [hoperation] at h
    cases h
    exact removeTaskFunction_ends s _
  | default =>
    rw [hoperation] at h
    cases h
    exact setDefaultTaskFunction_ends s _
  | unknown =>
    rw [hoperation] at h
    cases h
    exact Ends.unchanged rfl

end Code

end OperationWorker

/-! ## Updates -/

/-- The task functions have been updated as the message asks. -/
def Updated (message : OperationMessage) (w w' : TaskFunctions) : Prop :=
  let name := message.taskFunctionName
  match message.taskFunctionOperation with
  | .add =>
    let text := message.taskFunction.getD "undefined"
    w'.map.get name = some ⟨text, w.bindings⟩ ∧ w'.table = w.table.add name text
  | .remove => (w.table name).isSome = true ∧ w'.table = w.table.delete name
  | .default => ¬ Refused name ∧ (w.table name).isSome = true ∧ w'.table = w.table.setDefault name
  | .unknown => False

namespace TaskFunctions

theorem not_refused {name : String} {u : Unit} (h : checkTaskFunctionName name = .ok u) (hname : name ≠ defaultTaskName) :
    ¬ Refused name := by
  rintro (hblank | hdefault)
  · unfold checkTaskFunctionName at h
    rw [if_pos hblank] at h
    cases h
  · exact hname hdefault

theorem addTaskFunction_cases (name : String) (fn : Option String) (w : TaskFunctions) :
    (∃ e, addTaskFunction none name fn w = (w, ⟨false, some e⟩)) ∨
      ∃ text, fn = some text ∧ name ≠ defaultTaskName ∧ addTaskFunction none name fn w = (w.add name text, ⟨true, none⟩) := by
  unfold addTaskFunction
  rcases checkTaskFunctionName name with e | ⟨⟩
  · exact .inl ⟨e, rfl⟩
  · by_cases hname : name = defaultTaskName
    · simp only [if_pos hname]
      exact .inl ⟨_, rfl⟩
    · simp only [if_neg hname]
      cases fn with
      | none => exact .inl ⟨_, rfl⟩
      | some text => exact .inr ⟨text, rfl, hname, rfl⟩

theorem removeTaskFunction_cases (name : String) (w : TaskFunctions) :
    (∃ e, removeTaskFunction none name w = (w, ⟨false, some e⟩)) ∨
      name ≠ defaultTaskName ∧ removeTaskFunction none name w = (w.delete name, ⟨w.map.has name, none⟩) := by
  unfold removeTaskFunction
  rcases checkTaskFunctionName name with e | ⟨⟩
  · exact .inl ⟨e, rfl⟩
  · by_cases hname : name = defaultTaskName
    · simp only [if_pos hname]
      exact .inl ⟨_, rfl⟩
    · simp only [if_neg hname]
      by_cases hdefault : w.isDefault name = true
      · rw [if_pos hdefault]
        exact .inl ⟨_, rfl⟩
      · rw [if_neg hdefault]
        exact .inr ⟨hname, rfl⟩

theorem setDefaultTaskFunction_cases (name : String) (w : TaskFunctions) :
    (∃ e, (Refused name ∨ w.map.get name = none) ∧ setDefaultTaskFunction none name w = (w, ⟨false, some e⟩)) ∨
      ∃ f hf, ¬ Refused name ∧ setDefaultTaskFunction none name w = (w.setDefault name f hf, ⟨true, none⟩) := by
  rcases hcheck : checkTaskFunctionName name with e | u
  · refine .inl ⟨e, .inl (.inl ?_), setDefaultTaskFunction_refused hcheck w⟩
    unfold checkTaskFunctionName at hcheck
    split at hcheck
    · assumption
    · cases hcheck
  · by_cases hname : name = defaultTaskName
    · left
      unfold setDefaultTaskFunction
      rw [hcheck]
      simp only [if_pos hname]
      exact ⟨_, .inl (.inr hname), rfl⟩
    · by_cases hf : w.map.get name = none
      · exact .inl ⟨_, .inr hf, setDefaultTaskFunction_missing hcheck hname hf⟩
      · obtain ⟨f, hf⟩ := Option.ne_none_iff_exists'.1 hf
        exact .inr ⟨f, hf, not_refused hcheck hname, setDefaultTaskFunction_stored hcheck hname hf⟩

theorem delete_of_get_eq_none {w : TaskFunctions} {name : String} (h : w.map.get name = none) : w.delete name = w := by
  have hmap := OrderedMap.delete_of_get_eq_none h
  cases w
  unfold delete
  rw [TaskFunctions.mk.injEq]
  exact ⟨hmap, rfl⟩

/-- The status of a result says whether the task functions have been updated as the message asks; if they have
not, they are as they were. -/
def Reports (message : OperationMessage) (w w' : TaskFunctions) (r : TaskFunctionOperationResult) : Prop :=
  (r.status = true ↔ Updated message w w') ∧ (r.status = false → w' = w)

section Reports
variable {w w' : TaskFunctions} {name : String} {fn : Option String} {r : TaskFunctionOperationResult}

theorem addTaskFunction_reports {fn' : Option String} (hfn' : ∀ text, fn' = some text → text = fn.getD "undefined")
    (h : addTaskFunction none name fn' w = (w', r)) : Reports ⟨.add, name, fn⟩ w w' r := by
  rcases addTaskFunction_cases name fn' w with ⟨e, heq⟩ | ⟨text, htext, hname, heq⟩
  · rw [heq] at h
    cases h
    refine ⟨⟨(by rintro ⟨⟩), ?_⟩, fun _ => rfl⟩
    -- the function would be one that is yet to be bound
    rintro ⟨hget, -⟩
    exact absurd (w.below _ _ hget) (Nat.lt_irrefl _)
  · rw [heq] at h
    cases h
    obtain rfl := hfn' text htext
    exact ⟨⟨fun _ => ⟨OrderedMap.get_set_self _ _ _, table_add w _ hname⟩, fun _ => rfl⟩, (by rintro ⟨⟩)⟩

theorem removeTaskFunction_reports (h : removeTaskFunction none name w = (w', r)) : Reports ⟨.remove, name, fn⟩ w w' r := by
  rcases removeTaskFunction_cases name w with ⟨e, heq⟩ | ⟨hname, heq⟩
  · rw [heq] at h
    cases h
    refine ⟨⟨(by rintro ⟨⟩), ?_⟩, fun _ => rfl⟩
    rintro ⟨hsome, htable⟩
    rw [htable] at hsome
    unfold Table.delete at hsome
    rw [if_pos rfl] at hsome
    cases hsome
  · rw [heq] at h
    cases h
    have hhas : w.map.has name = (w.table name).isSome := by
      unfold OrderedMap.has table
      rw [Option.isSome_map]
    refine ⟨⟨fun hstatus => ⟨hhas ▸ hstatus, table_delete w hname⟩, fun hupdated => ?_⟩, fun hstatus => ?_⟩
    · exact hhas.trans hupdated.1
    · refine delete_of_get_eq_none ?_
      unfold OrderedMap.has at hstatus
      simpa using hstatus

theorem setDefaultTaskFunction_reports (h : setDefaultTaskFunction none name w = (w', r)) :
    Reports ⟨.default, name, fn⟩ w w' r := by
  rcases setDefaultTaskFunction_cases name w with ⟨e, hwhy, heq⟩ | ⟨f, hf, hrefused, heq⟩
  · rw [heq] at h
    cases h
    refine ⟨⟨(by rintro ⟨⟩), ?_⟩, fun _ => rfl⟩
    rintro ⟨hrefused, hsome, -⟩
    have hnone := hwhy.resolve_left hrefused
    rw [table_eq_none hnone] at hsome
    cases hsome
  · rw [heq] at h
    cases h
    have hname : name ≠ defaultTaskName := fun heq => hrefused (.inr heq)
    refine ⟨⟨fun _ => ⟨hrefused, ?_, table_setDefault w hf hname⟩, fun _ => rfl⟩, (by rintro ⟨⟩)⟩
    rw [table_eq_some hf]
    rfl

theorem add_default (name text : String) (h : (w.map.get defaultTaskName).isSome = true) :
    ((w.add name text).map.get defaultTaskName).isSome = true := by
  unfold add
  rw [OrderedMap.get_set]
  split
  · rfl
  · split
    · rw [OrderedMap.get_set_self]
      rfl
    · exact h

/-- Every operation keeps a default function. -/
theorem handle_default {evaluate : String → Evaluated} {message : OperationMessage}
    (hdefault : (w.map.get defaultTaskName).isSome = true)
    (h : w.handleTaskFunctionOperationMessage evaluate none message = some (w', r)) :
    (w'.map.get defaultTaskName).isSome = true := by
  obtain ⟨operation, name, fn⟩ := message
  have hadd {fn' : Option String} (h : addTaskFunction none name fn' w = (w', r)) :
      (w'.map.get defaultTaskName).isSome = true := by
    rcases addTaskFunction_cases name fn' w with ⟨e, heq⟩ | ⟨text, -, -, heq⟩
    · rw [heq] at h
      cases h
      exact hdefault
    · rw [heq] at h
      cases h
      exact add_default name text hdefault
  unfold handleTaskFunctionOperationMessage at h
  cases operation with
  | add =>
    dsimp only at h
    cases he : evaluate (fn.getD "undefined") with
    | throws =>
      rw [he] at h
      cases h
    | notFunction =>
      rw [he] at h
      exact hadd (Option.some.inj h)
    | function =>
      rw [he] at h
      exact hadd (Option.some.inj h)
  | remove =>
    have h := Option.some.inj h
    rcases removeTaskFunction_cases name w with ⟨e, heq⟩ | ⟨hname, heq⟩
    · rw [heq] at h
      cases h
      exact hdefault
    · rw [heq] at h
      cases h
      have hkept := OrderedMap.get_delete w.map name defaultTaskName
      rw [if_neg hname.symm] at hkept
      exact (congrArg Option.isSome hkept).trans hdefault
  | default =>
    have h := Option.some.inj h
    rcases setDefaultTaskFunction_cases name w with ⟨e, -, heq⟩ | ⟨f, hf, -, heq⟩
    · rw [heq] at h
      cases h
      exact hdefault
    · rw [heq] at h
      cases h
      exact congrArg Option.isSome (OrderedMap.get_set_self w.map defaultTaskName f)
  | unknown =>
    cases h
    exact hdefault

/-- An operation whose text does not throw reports what it has done. -/
theorem handle_reports {evaluate : String → Evaluated} {message : OperationMessage}
    (h : w.handleTaskFunctionOperationMessage evaluate none message = some (w', r)) : Reports message w w' r := by
  obtain ⟨operation, name, fn⟩ := message
  unfold handleTaskFunctionOperationMessage at h
  cases operation with
  | add =>
    dsimp only at h
    cases he : evaluate (fn.getD "undefined") with
    | throws =>
      rw [he] at h
      cases h
    | notFunction =>
      rw [he] at h
      exact addTaskFunction_reports (by rintro _ ⟨⟩) (Option.some.inj h)
    | function =>
      rw [he] at h
      exact addTaskFunction_reports (by rintro _ ⟨⟩; rfl) (Option.some.inj h)
  | remove => exact removeTaskFunction_reports (Option.some.inj h)
  | default => exact setDefaultTaskFunction_reports (Option.some.inj h)
  | unknown =>
    cases h
    exact ⟨⟨(by rintro ⟨⟩), False.elim⟩, fun _ => rfl⟩

end Reports

end TaskFunctions

/-! ## Every message -/

namespace OperationWorker

/-- Exactly one answer has been sent: of the operation and the name of the message, with a status that is `true`
if and only if the task functions have been updated as asked; if not, they are as they were. -/
def Answered (message : OperationMessage) (s s' : State) : Prop :=
  ∃ answer, s'.answers = s.answers ++ [answer] ∧ answer.taskFunctionOperation = message.taskFunctionOperation ∧
    answer.taskFunctionName = message.taskFunctionName ∧
    (answer.taskFunctionOperationStatus = true ↔ Updated message s.taskFunctions s'.taskFunctions) ∧
    (answer.taskFunctionOperationStatus = false → s'.taskFunctions = s.taskFunctions)

/-- A handler whose text does not throw does what `TaskFunctions` has, and sends the answer. -/
theorem handle_ends {evaluate : String → Except JsError Bool} {message : OperationMessage}
    {result : TaskFunctions × TaskFunctionOperationResult} (s : State)
    (h : s.taskFunctions.handleTaskFunctionOperationMessage (fun text => evaluated (evaluate text)) none message =
      some result) :
    ∃ s' messages, handleTaskFunctionOperationMessage evaluate message s = .ok () s' ∧ s'.taskFunctions = result.1 ∧
      s'.sent = s.sent ++ messages ++ [.taskFunctionOperation (answerTo message result.2)] ∧ Notifies result.1 messages := by
  obtain ⟨s', messages, hs', hfunctions, hsent, hnotifies⟩ := operate_ends s h
  unfold handleTaskFunctionOperationMessage
  rw [bind_of_ok hs']
  exact ⟨_, messages, rfl, hfunctions, congrArg (· ++ _) hsent, hnotifies⟩

/-- The text of the function throws when it is evaluated. -/
def Throws (evaluate : String → Except JsError Bool) (message : OperationMessage) : Prop :=
  message.taskFunctionOperation = .add ∧ ∃ e, evaluate (message.taskFunction.getD "undefined") = .error e

/-- The exception of a text leaves the handler, and the worker as it was. -/
theorem handle_throws {evaluate : String → Except JsError Bool} {message : OperationMessage}
    (h : Throws evaluate message) (s : State) :
    ∃ e, handleTaskFunctionOperationMessage evaluate message s = .error e s := by
  obtain ⟨hadd, e, he⟩ := h
  refine ⟨e, ?_⟩
  unfold handleTaskFunctionOperationMessage
  refine bind_of_error ?_ _
  unfold operate
  rw [hadd]
  dsimp only
  rw [he]
  rfl

/-- Without such an exception `TaskFunctions` has a result. -/
theorem result_of_not_throws {evaluate : String → Except JsError Bool} {message : OperationMessage}
    (h : ¬ Throws evaluate message) (w : TaskFunctions) :
    ∃ result, w.handleTaskFunctionOperationMessage (fun text => evaluated (evaluate text)) none message = some result := by
  unfold TaskFunctions.handleTaskFunctionOperationMessage
  cases hoperation : message.taskFunctionOperation with
  | add =>
    rcases he : evaluate (message.taskFunction.getD "undefined") with e | b
    · exact absurd ⟨hoperation, e, he⟩ h
    · dsimp only
      rw [he]
      cases b <;> exact ⟨_, rfl⟩
  | _ => exact ⟨_, rfl⟩

/-- The handler answers a message if and only if it does not evaluate a text that throws. -/
theorem answered_iff (evaluate : String → Except JsError Bool) (message : OperationMessage) (s : State) :
    (∃ s', handleTaskFunctionOperationMessage evaluate message s = .ok () s' ∧ Answered message s s') ↔
      ¬ (message.taskFunctionOperation = .add ∧ ∃ e, evaluate (message.taskFunction.getD "undefined") = .error e) := by
  constructor
  · rintro ⟨s', hs', -⟩ hthrows
    obtain ⟨e, he⟩ := handle_throws hthrows s
    rw [he] at hs'
    cases hs'
  · intro hok
    obtain ⟨⟨w', r⟩, hresult⟩ := result_of_not_throws hok s.taskFunctions
    obtain ⟨s', messages, hs', hfunctions, hsent, hnotifies⟩ := handle_ends s hresult
    obtain ⟨hstatus, hsame⟩ := TaskFunctions.handle_reports hresult
    refine ⟨s', hs', _, answers_of_notifies hnotifies hsent, rfl, rfl, ?_, fun hfalse => ?_⟩
    · rw [hfunctions]
      exact hstatus
    · rw [hfunctions]
      exact hsame hfalse

/-- The text of `method() { return 1 }` as a method of an object, which is not an expression. -/
def methodText : String := "method() \x7b return 1 \x7d"

/-- The text of a method cannot be evaluated. -/
theorem answered_iff_method : ¬ ∀ (evaluate : String → Except JsError Bool) (message : OperationMessage) (s : State),
    ∃ s', handleTaskFunctionOperationMessage evaluate message s = .ok () s' ∧ Answered message s s' := by
  intro hclaim
  obtain ⟨s', hs', -⟩ := hclaim
    (fun text => if text = methodText then .error (.error "Unexpected token") else .ok true)
    ⟨.add, "method", some methodText⟩ ⟨.ofFunction "fn" "() => 1", []⟩
  cases hs'

/-! ## The lists of a worker -/

/-- The handler has run, to its end or to an exception. -/
def Handles (evaluate : String → Except JsError Bool) (s : State) (message : OperationMessage) (s' : State) : Prop :=
  handleTaskFunctionOperationMessage evaluate message s = .ok () s' ∨
    ∃ e, handleTaskFunctionOperationMessage evaluate message s = .error e s'

/-- Every list of names that the worker has sent is one a pool can keep usage records by, if it has two task functions
or more. -/
structure SendsLists (s : State) : Prop where
  hasDefault : (s.taskFunctions.map.get defaultTaskName).isSome = true
  lists : ∀ names, .taskFunctionNames names ∈ s.sent →
    ∃ listed : List String, names = listed.map some ∧ (2 < listed.length → FunctionList listed)

theorem SendsLists.step {evaluate : String → Except JsError Bool} {message : OperationMessage} {s s' : State}
    (h : SendsLists s) (hstep : Handles evaluate s message s') : SendsLists s' := by
  by_cases hthrows : Throws evaluate message
  · obtain ⟨e, he⟩ := handle_throws hthrows s
    rcases hstep with hok | ⟨e', herror⟩
    · cases he.symm.trans hok
    · cases he.symm.trans herror
      exact h
  · obtain ⟨⟨w', r⟩, hresult⟩ := result_of_not_throws hthrows s.taskFunctions
    obtain ⟨s'', messages, hok, hfunctions, hsent, hnotifies⟩ := handle_ends s hresult
    have hstate : s' = s'' := by
      rcases hstep with hok' | ⟨e', herror⟩
      · cases hok.symm.trans hok'
        rfl
      · cases hok.symm.trans herror
    subst hstate
    have hdefault : (w'.map.get defaultTaskName).isSome = true := TaskFunctions.handle_default h.hasDefault hresult
    refine ⟨hfunctions ▸ hdefault, fun names hmem => ?_⟩
    rw [hsent, List.mem_append, List.mem_append, List.mem_singleton] at hmem
    rcases hmem with (hold | hnew) | hanswer
    · exact h.lists names hold
    · rcases hnotifies with rfl | rfl
      · cases hnew
      · cases List.mem_singleton.1 hnew
        exact w'.listTaskFunctionNames_functionList hdefault
    · cases hanswer

/-- Whatever operations a worker is asked for, it lists its functions as the usage records need them. -/
theorem sendsLists_of_run {evaluate : String → Except JsError Bool} {messages : List OperationMessage} {s₀ s : State}
    (h₀ : SendsLists s₀) (hr : RunLib.Run (Handles evaluate) s₀ messages s) : SendsLists s :=
  hr.inv SendsLists h₀ fun _ _ _ hs hstep => hs.step hstep

/-- A worker that is given one function, and has told its names when it got ready. -/
theorem sendsLists_ofFunction (name text : String) :
    SendsLists ⟨.ofFunction name text, [.taskFunctionNames (TaskFunctions.ofFunction name text).listTaskFunctionNames]⟩ := by
  have hdefault : ((TaskFunctions.ofFunction name text).map.get defaultTaskName).isSome = true := by
    unfold TaskFunctions.ofFunction
    dsimp only
    generalize (if isBlank name then "fn1" else name) = own
    rw [OrderedMap.get_set]
    split
    · rfl
    · rw [OrderedMap.get_set_self]
      rfl
  refine ⟨hdefault, fun names hmem => ?_⟩
  cases List.mem_singleton.1 hmem
  exact TaskFunctions.listTaskFunctionNames_functionList hdefault

end OperationWorker

end Poolifier
