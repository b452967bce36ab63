import Poolifier.TaskFunctionNames
/-!
# Calls that cannot tell the main worker

A method that changes the task functions makes its update, and then tells the
main worker the names. Both are in one `try` block: an exception of the message,
which is one of `postMessage` or of a port that is not there yet, becomes the
failure of a call that has made its update.
-/

namespace Poolifier

open CatchLib MapLib

/-! ## What a call asks for -/

namespace TaskFunctions

/-- The task functions that a call asks for, unless it is refused. -/
def requested (w : TaskFunctions) : Call → Option TaskFunctions
  | .addTaskFunction name fn => if Refused name then none else fn.map (w.add name)
  | .removeTaskFunction name => if Refused name ∨ w.isDefault name = true then none else some (w.delete name)
  | .setDefaultTaskFunction name =>
    if Refused name then none
    else
      match hf : w.map.get name with
      | none => none
      | some f => some (w.setDefault name f hf)

/-- The status that a call returns once it has told the main worker. -/
def status (w : TaskFunctions) : Call → Bool
  | .removeTaskFunction name => w.map.has name
  | _ => true

/-- The call is not refused, and does not ask for what is there already. -/
def Changes (w : TaskFunctions) : Call → Prop
  | .addTaskFunction name fn => ¬ Refused name ∧ fn.isSome = true
  | .removeTaskFunction name => ¬ Refused name ∧ w.isDefault name = false ∧ w.map.has name = true
  | .setDefaultTaskFunction name => ¬ Refused name ∧ w.map.has name = true ∧ w.isDefault name = false

/-- The message that asks a worker for the same. -/
def Call.message : Call → OperationMessage
  | .addTaskFunction name fn => ⟨.add, name, fn⟩
  | .removeTaskFunction name => ⟨.remove, name, none⟩
  | .setDefaultTaskFunction name => ⟨.default, name, none⟩

section Changes
variable {w : TaskFunctions} {name : String} {f : TaskFunction} {hf : w.map.get name = some f}

/-- A function that is added is not one that was there. -/
theorem map_add_ne (w : TaskFunctions) (name text : String) : (w.add name text).map ≠ w.map := by
  intro hmap
  have hnew : (w.add name text).map.get name = some ⟨text, w.bindings⟩ := OrderedMap.get_set_self _ _ _
  rw [hmap] at hnew
  exact new_ne hnew text rfl

theorem map_delete_eq_iff : (w.delete name).map = w.map ↔ w.map.has name = false := by
  unfold OrderedMap.has
  constructor
  · intro hmap
    have hnone : (w.delete name).map.get name = none := (OrderedMap.get_delete _ _ _).trans (if_pos rfl)
    rw [← hmap, hnone]
    rfl
  · intro hhas
    exact OrderedMap.delete_of_get_eq_none (Option.isNone_iff_eq_none.1 (by simpa using hhas))

theorem map_setDefault_eq_iff : (w.setDefault name f hf).map = w.map ↔ w.isDefault name = true := by
  unfold isDefault
  rw [decide_eq_true_iff, hf]
  constructor
  · intro hmap
    have hdefault : (w.setDefault name f hf).map.get defaultTaskName = some f := OrderedMap.get_set_self _ _ _
    rw [hmap] at hdefault
    exact hdefault.symm
  · intro hdefault
    exact OrderedMap.set_of_get hdefault.symm

end Changes

end TaskFunctions

namespace NotifyingWorker

open OperationWorker (Message State OperationM)
open TaskFunctions (Call)

/-! ## The code -/

/-- `notification` is what sending throws, if it throws. -/
def sendToMainWorker (notification : Option JsError) (message : Message) : OperationM Unit :=
  match notification with
  | none => OperationWorker.sendToMainWorker message
  | some error => throw error

def sendTaskFunctionNamesToMainWorker (notification : Option JsError) : OperationM Unit := do
  sendToMainWorker notification (.taskFunctionNames (← get).taskFunctions.listTaskFunctionNames)

/-- `fn` is the text of the parameter, if it is a function. -/
def addTaskFunction (notification : Option JsError) (name : String) (fn : Option String) :
    OperationM TaskFunctionOperationResult := do
  try
    ofExcept (checkTaskFunctionName name)
    if name = defaultTaskName then
      throw (.error "Cannot add a task function with the default reserved name")
    else
      match fn with
      | none => throw (.typeError "fn parameter is not a function")
      | some text =>
        modify fun s => { s with taskFunctions := s.taskFunctions.add name text }
        -- an exception leaves the update as it is
        sendTaskFunctionNamesToMainWorker notification
        pure ⟨true, none⟩
  catch error => pure ⟨false, some error⟩

def removeTaskFunction (notification : Option JsError) (name : String) : OperationM TaskFunctionOperationResult := do
  try
    ofExcept (checkTaskFunctionName name)
    if name = defaultTaskName then
      throw (.error "Cannot remove the task function with the default reserved name")
    else
      let s ← get
      if s.taskFunctions.isDefault name then
        throw (.error "Cannot remove the task function used as the default task function")
      else
        let deleteStatus := s.taskFunctions.map.has name
        set { s with taskFunctions := s.taskFunctions.delete name }
        sendTaskFunctionNamesToMainWorker notification
        pure ⟨deleteStatus, none⟩
  catch error => pure ⟨false, some error⟩

def setDefaultTaskFunction (notification : Option JsError) (name : String) :
    OperationM TaskFunctionOperationResult := do
  try
    ofExcept (checkTaskFunctionName name)
    if name = defaultTaskName then
      throw (.error "Cannot set the default task function reserved name as the default task function")
    else
      let s ← get
      match hf : s.taskFunctions.map.get name with
      | none => throw (.error "Cannot set the default task function to a non-existing task function")
      | some f =>
        set { s with taskFunctions := s.taskFunctions.setDefault name f hf }
        sendTaskFunctionNamesToMainWorker notification
        pure ⟨true, none⟩
  catch error => pure ⟨false, some error⟩

def call (notification : Option JsError) : Call → OperationM TaskFunctionOperationResult
  | .addTaskFunction name fn => addTaskFunction notification name fn
  | .removeTaskFunction name => removeTaskFunction notification name
  | .setDefaultTaskFunction name => setDefaultTaskFunction notification name

/-! ## What a call does -/

section Code
variable {notification : Option JsError} {name text : String} {fn : Option String} {w' : TaskFunctions} {c : Call}
  {s : State} {e : JsError}

/-- A method that has updated the task functions to `w'`: the names are sent, or the exception is caught. -/
def ending (notification : Option JsError) (status : Bool) (w' : TaskFunctions) (s : State) :
    EStateM.Result JsError State TaskFunctionOperationResult :=
  match notification with
  | none => .ok ⟨status, none⟩ ⟨w', s.sent ++ [.taskFunctionNames w'.listTaskFunctionNames]⟩
  | some error => .ok ⟨false, some error⟩ ⟨w', s.sent⟩

/-- The name of a method is refused by the check, or as the reserved one. -/
theorem checked_of_refused (h : Refused name) (e : JsError) (m : OperationM TaskFunctionOperationResult) (s : State) :
    ∃ e', tryCatch (ofExcept (checkTaskFunctionName name) >>= fun _ => if name = defaultTaskName then throw e else m)
      (fun error => pure ⟨false, some error⟩) s = .ok ⟨false, some e'⟩ s := by
  by_cases hblank : isBlank name = true
  · have hcheck : checkTaskFunctionName name = .error (.typeError "name parameter is an empty string") := if_pos hblank
    rw [hcheck]
    exact ⟨_, rfl⟩
  · have hcheck : checkTaskFunctionName name = .ok () := if_neg hblank
    rw [hcheck]
    simp only [if_pos (h.resolve_left hblank)]
    exact ⟨e, rfl⟩

/-- A method goes on with a name that is not refused. -/
theorem checked_of_not_refused (h : ¬ Refused name) (e : JsError) (m : OperationM TaskFunctionOperationResult) (s : State) :
    tryCatch (ofExcept (checkTaskFunctionName name) >>= fun _ => if name = defaultTaskName then throw e else m)
      (fun error => pure ⟨false, some error⟩) s = tryCatch m (fun error => pure ⟨false, some error⟩) s := by
  have hcheck : checkTaskFunctionName name = .ok () := if_neg fun hblank => h (.inl hblank)
  have hname : name ≠ defaultTaskName := fun hname => h (.inr hname)
  rw [hcheck]
  simp only [if_neg hname]
  rfl

theorem addTaskFunction_refused (h : Refused name ∨ fn = none) (s : State) :
    ∃ e, addTaskFunction notification name fn s = .ok ⟨false, some e⟩ s := by
  unfold addTaskFunction
  by_cases hrefused : Refused name
  · exact checked_of_refused hrefused _ _ s
  · rw [checked_of_not_refused hrefused, h.resolve_left hrefused]
    exact ⟨_, rfl⟩

theorem addTaskFunction_ending (h : ¬ Refused name) (text : String) (s : State) :
    addTaskFunction notification name (some text) s = ending notification true (s.taskFunctions.add name text) s := by
  unfold addTaskFunction
  rw [checked_of_not_refused h]
  cases notification with
  | none => rfl
  | some error => rfl

theorem removeTaskFunction_refused (h : Refused name ∨ s.taskFunctions.isDefault name = true) :
    ∃ e, removeTaskFunction notification name s = .ok ⟨false, some e⟩ s := by
  unfold removeTaskFunction
  by_cases hrefused : Refused name
  · exact checked_of_refused hrefused _ _ s
  · rw [checked_of_not_refused hrefused, tryCatch_get, if_pos (h.resolve_left hrefused)]
    exact ⟨_, rfl⟩

theorem removeTaskFunction_ending (h : ¬ Refused name) (hdefault : s.taskFunctions.isDefault name = false) :
    removeTaskFunction notification name s =
      ending notification (s.taskFunctions.map.has name) (s.taskFunctions.delete name) s := by
  unfold removeTaskFunction
  rw [checked_of_not_refused h, tryCatch_get, if_neg (Bool.not_eq_true _ ▸ hdefault)]
  cases notification with
  | none => rfl
  | some error => rfl

theorem setDefaultTaskFunction_refused (h : Refused name ∨ s.taskFunctions.map.get name = none) :
    ∃ e, setDefaultTaskFunction notification name s = .ok ⟨false, some e⟩ s := by
  unfold setDefaultTaskFunction
  by_cases hrefused : Refused name
  · exact checked_of_refused hrefused _ _ s
  · rw [checked_of_not_refused hrefused, tryCatch_get]
    split
    · exact ⟨_, rfl⟩
    · rename_i f hf
      cases (h.resolve_left hrefused).symm.trans hf

theorem setDefaultTaskFunction_ending {f : TaskFunction} (h : ¬ Refused name) (hf : s.taskFunctions.map.get name = some f) :
    setDefaultTaskFunction notification name s = ending notification true (s.taskFunctions.setDefault name f hf) s := by
  unfold setDefaultTaskFunction
  rw [checked_of_not_refused h, tryCatch_get]
  split
  · rename_i hnone
    cases hnone.symm.trans hf
  · rename_i f' hf'
    obtain rfl : f' = f := Option.some.inj (hf'.symm.trans hf)
    cases notification with
    | none => rfl
    | some error => rfl

theorem call_refused (notification : Option JsError) (h : s.taskFunctions.requested c = none) :
    ∃ e, call notification c s = .ok ⟨false, some e⟩ s := by
  unfold TaskFunctions.requested at h
  cases c with
  | addTaskFunction name fn =>
    dsimp only at h
    refine addTaskFunction_refused ?_ s
    split at h
    · exact .inl (by assumption)
    · exact .inr (Option.map_eq_none_iff.1 h)
  | removeTaskFunction name =>
    dsimp only at h
    refine removeTaskFunction_refused ?_
    split at h
    · assumption
    · cases h
  | setDefaultTaskFunction name =>
    dsimp only at h
    refine setDefaultTaskFunction_refused ?_
    split at h
    · exact .inl (by assumption)
    · split at h
      · exact .inr (by assumption)
      · cases h

theorem call_ending (notification : Option JsError) (h : s.taskFunctions.requested c = some w') :
    call notification c s = ending notification (s.taskFunctions.status c) w' s := by
  unfold TaskFunctions.requested at h
  cases c with
  | addTaskFunction name fn =>
    dsimp only at h
    split at h
    · cases h
    · rename_i hrefused
      obtain ⟨text, rfl, rfl⟩ := Option.map_eq_some_iff.1 h
      exact addTaskFunction_ending hrefused text s
  | removeTaskFunction name =>
    dsimp only at h
    split at h
    · cases h
    · rename_i hrefused
      rw [not_or, Bool.not_eq_true] at hrefused
      cases h
      exact removeTaskFunction_ending hrefused.1 hrefused.2
  | setDefaultTaskFunction name =>
    dsimp only at h
    split at h
    · cases h
    · rename_i hrefused
      split at h
      · cases h
      · cases h
        exact setDefaultTaskFunction_ending hrefused _

/-- A call has made of the task functions, and returned, what `result` says. -/
def Refines (m : OperationM TaskFunctionOperationResult) (s : State) (result : TaskFunctions × TaskFunctionOperationResult) :
    Prop :=
  ∃ s', m s = .ok result.2 s' ∧ s'.taskFunctions = result.1

theorem addTaskFunction_refines (notification : Option JsError) (name : String) (fn : Option String) (s : State) :
    Refines (addTaskFunction notification name fn) s (s.taskFunctions.addTaskFunction notification name fn) := by
  unfold addTaskFunction TaskFunctions.addTaskFunction
  rcases checkTaskFunctionName name with e | ⟨⟩
  · exact ⟨s, rfl, rfl⟩
  · by_cases hname : name = defaultTaskName
    · simp only [if_pos hname]
      exact ⟨s, rfl, rfl⟩
    · simp only [if_neg hname]
      cases fn with
      | none => exact ⟨s, rfl, rfl⟩
      | some text => cases notification <;> exact ⟨_, rfl, rfl⟩

theorem removeTaskFunction_refines (notification : Option JsError) (name : String) (s : State) :
    Refines (removeTaskFunction notification name) s (s.taskFunctions.removeTaskFunction notification name) := by
  unfold removeTaskFunction TaskFunctions.removeTaskFunction
  rcases checkTaskFunctionName name with e | ⟨⟩
  · exact ⟨s, rfl, rfl⟩
  · by_cases hname : name = defaultTaskName
    · simp only [if_pos hname]
      exact ⟨s, rfl, rfl⟩
    · simp only [if_neg hname]
      unfold Refines
      rw [OperationWorker.tryCatch_checked]
      by_cases hdefault : s.taskFunctions.isDefault name = true
      · rw [if_pos hdefault, if_pos hdefault]
        exact ⟨s, rfl, rfl⟩
      · rw [if_neg hdefault, if_neg hdefault]
        cases notification <;> exact ⟨_, rfl, rfl⟩

theorem setDefaultTaskFunction_refines (notification : Option JsError) (name : String) (s : State) :
    Refines (setDefaultTaskFunction notification name) s (s.taskFunctions.setDefaultTaskFunction notification name) := by
  unfold setDefaultTaskFunction
  rcases hcheck : checkTaskFunctionName name with e | u
  · rw [TaskFunctions.setDefaultTaskFunction_refused hcheck]
    exact ⟨s, rfl, rfl⟩
  · by_cases hname : name = defaultTaskName
    · unfold TaskFunctions.setDefaultTaskFunction
      rw [hcheck]
      simp only [if_pos hname]
      exact ⟨s, rfl, rfl⟩
    · simp only [if_neg hname]
      unfold Refines
      rw [OperationWorker.tryCatch_checked]
      split
      · rename_i hf
        rw [TaskFunctions.setDefaultTaskFunction_missing hcheck hname hf]
        exact ⟨s, rfl, rfl⟩
      · rename_i f hf
        rw [TaskFunctions.setDefaultTaskFunction_stored hcheck hname hf]
        cases notification <;> exact ⟨_, rfl, rfl⟩

/-- The calls are those of `TaskFunctions`. -/
theorem call_refines (notification : Option JsError) (c : Call) (s : State) :
    Refines (call notification c) s (s.taskFunctions.call notification c) := by
  cases c with
  | addTaskFunction name fn => exact addTaskFunction_refines notification name fn s
  | removeTaskFunction name => exact removeTaskFunction_refines notification name s
  | setDefaultTaskFunction name => exact setDefaultTaskFunction_refines notification name s

end Code

/-! ## What a result says -/

section Reports
variable {w w' : TaskFunctions} {c : Call} {s : State} {notification : Option JsError}

/-- A result that is a failure says that nothing has changed; any other, that the task functions are what has been
asked for and that the main worker has been sent their names. -/
def Reports (c : Call) (s s' : State) (r : TaskFunctionOperationResult) : Prop :=
  (r.status = false → s'.taskFunctions.map = s.taskFunctions.map) ∧
    (r.status = true → s.taskFunctions.requested c = some s'.taskFunctions ∧
      Updated c.message s.taskFunctions s'.taskFunctions ∧
      s'.sent = s.sent ++ [.taskFunctionNames s'.taskFunctions.listTaskFunctionNames])

/-- What is asked for is an update, or else the removal of what is not there. -/
theorem updated_of_requested (h : w.requested c = some w') (hstatus : w.status c = true) : Updated c.message w w' := by
  unfold TaskFunctions.requested at h
  cases c with
  | addTaskFunction name fn =>
    dsimp only at h
    split at h
    · cases h
    · rename_i hrefused
      obtain ⟨text, rfl, rfl⟩ := Option.map_eq_some_iff.1 h
      exact ⟨OrderedMap.get_set_self _ _ _, TaskFunctions.table_add w text fun hname => hrefused (.inr hname)⟩
  | removeTaskFunction name =>
    dsimp only at h
    split at h
    · cases h
    · rename_i hrefused
      cases h
      refine ⟨?_, TaskFunctions.table_delete w fun hname => hrefused (.inl (.inr hname))⟩
      unfold TaskFunctions.table
      rw [Option.isSome_map]
      exact hstatus
  | setDefaultTaskFunction name =>
    dsimp only at h
    split at h
    · cases h
    · rename_i hrefused
      split at h
      · cases h
      · rename_i f hf
        cases h
        have hsome : (w.table name).isSome = true := by
          rw [TaskFunctions.table_eq_some hf]
          rfl
        exact ⟨hrefused, hsome, TaskFunctions.table_setDefault w hf fun hname => hrefused (.inr hname)⟩

/-- The removal of what is not there changes nothing. -/
theorem map_of_status (h : w.requested c = some w') (hstatus : w.status c = false) : w'.map = w.map := by
  unfold TaskFunctions.requested at h
  cases c with
  | addTaskFunction name fn => cases hstatus
  | removeTaskFunction name =>
    dsimp only at h
    split at h
    · cases h
    · cases h
      exact TaskFunctions.map_delete_eq_iff.2 hstatus
  | setDefaultTaskFunction name => cases hstatus

theorem changes_iff : w.Changes c ↔ ∃ w', w.requested c = some w' ∧ w'.map ≠ w.map := by
  unfold TaskFunctions.Changes TaskFunctions.requested
  cases c with
  | addTaskFunction name fn =>
    dsimp only
    split
    · rename_i hrefused
      exact ⟨fun h => absurd hrefused h.1, (by rintro ⟨w', ⟨⟩, -⟩)⟩
    · rename_i hrefused
      cases fn with
      | none => exact ⟨(by rintro ⟨-, ⟨⟩⟩), (by rintro ⟨w', ⟨⟩, -⟩)⟩
      | some text => exact ⟨fun _ => ⟨_, rfl, TaskFunctions.map_add_ne w name text⟩, fun _ => ⟨hrefused, rfl⟩⟩
  | removeTaskFunction name =>
    dsimp only
    split
    · rename_i hrefused
      refine ⟨fun h => ?_, (by rintro ⟨w', ⟨⟩, -⟩)⟩
      rcases hrefused with hrefused | hdefault
      · exact absurd hrefused h.1
      · exact absurd (hdefault.symm.trans h.2.1) (by decide)
    · rename_i hrefused
      rw [not_or, Bool.not_eq_true] at hrefused
      constructor
      · intro h
        refine ⟨_, rfl, fun hmap => ?_⟩
        exact absurd ((TaskFunctions.map_delete_eq_iff.1 hmap).symm.trans h.2.2) (by decide)
      · rintro ⟨w', hw', hne⟩
        cases hw'
        exact ⟨hrefused.1, hrefused.2, Bool.not_eq_false _ ▸ fun hhas => hne (TaskFunctions.map_delete_eq_iff.2 hhas)⟩
  | setDefaultTaskFunction name =>
    dsimp only
    split
    · rename_i hrefused
      exact ⟨fun h => absurd hrefused h.1, (by rintro ⟨w', ⟨⟩, -⟩)⟩
    · rename_i hrefused
      split
      · rename_i hnone
        refine ⟨fun h => ?_, (by rintro ⟨w', ⟨⟩, -⟩)⟩
        have hhas := h.2.1
        unfold OrderedMap.has at hhas
        rw [hnone] at hhas
        cases hhas
      · rename_i f hf
        constructor
        · intro h
          refine ⟨_, rfl, fun hmap => ?_⟩
          exact absurd ((TaskFunctions.map_setDefault_eq_iff.1 hmap).symm.trans h.2.2) (by decide)
        · rintro ⟨w', hw', hne⟩
          cases hw'
          refine ⟨hrefused, ?_, Bool.eq_false_iff.2 fun hd => hne (TaskFunctions.map_setDefault_eq_iff.2 hd)⟩
          unfold OrderedMap.has
          rw [hf]
          rfl

/-- A call reports what it has done unless it changes the task functions and cannot tell the main worker. -/
theorem call_reports_iff (notification : Option JsError) (c : Call) (s : State) :
    (∃ r s', call notification c s = .ok r s' ∧ Reports c s s' r) ↔
      notification = none ∨ ¬ s.taskFunctions.Changes c := by
  rw [changes_iff]
  rcases hrequested : s.taskFunctions.requested c with _ | w'
  -- a call that is refused makes no update and sends nothing
  · obtain ⟨e, hcall⟩ := call_refused notification hrequested
    exact ⟨fun _ => .inr (by rintro ⟨w', ⟨⟩, -⟩), fun _ => ⟨_, _, hcall, fun _ => rfl, (by rintro ⟨⟩)⟩⟩
  · have hcall := call_ending notification hrequested
    cases notification with
    | none =>
      refine ⟨fun _ => .inl rfl, fun _ => ⟨_, _, hcall, fun hfalse => ?_, fun htrue => ⟨hrequested, ?_, rfl⟩⟩⟩
      · exact map_of_status hrequested hfalse
      · exact updated_of_requested hrequested htrue
    | some e =>
      -- the update has been made before the exception
      constructor
      · rintro ⟨r, s', hr, hreports, -⟩
        cases hcall.symm.trans hr
        refine .inr ?_
        rintro ⟨w'', hw'', hne⟩
        cases hw''
        exact hne (hreports rfl)
      · intro h
        have hsame : w'.map = s.taskFunctions.map := by
          by_contra hne
          exact h.resolve_left (by rintro ⟨⟩) ⟨w', rfl, hne⟩
        exact ⟨_, _, hcall, fun _ => hsame, (by rintro ⟨⟩)⟩

/-- A worker thread before the message that brings its port: `this.port.postMessage` throws, and the function is added. -/
theorem call_reports_no_port : ¬ ∀ (notification : Option JsError) (c : Call) (s : State),
    ∃ r s', call notification c s = .ok r s' ∧ Reports c s s' r := by
  intro hclaim
  obtain ⟨r, s', hr, hreports, -⟩ :=
    hclaim (some (.typeError "Cannot read properties of undefined (reading 'postMessage')"))
      (.addTaskFunction "fn2" (some "() => 2")) ⟨.ofFunction "fn1" "() => 1", []⟩
  cases hr
  exact TaskFunctions.map_add_ne _ _ _ (hreports rfl)

end Reports

end NotifyingWorker

end Poolifier
