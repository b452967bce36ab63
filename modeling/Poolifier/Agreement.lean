import Poolifier.Listeners
/-!
# Whether workers have the same task functions

Every worker handles the operations it is sent in the order of sending, so
workers that have the same functions go on having the same ones once their
inboxes are empty. A new worker has what its file has and, if it is dynamic,
what the pool adds: that has to be what the others come to (`SetUpAlike`).
-/

namespace Poolifier

open MapLib RunLib

namespace TaskFunctions

/-- The task functions have the same names, with the same texts, and the same name has the default function. -/
def Same (w w' : TaskFunctions) : Prop := ∀ name ∈ w.map.keys ++ w'.map.keys, w.table name = w'.table name

instance (w w' : TaskFunctions) : DecidablePred fun name => w.table name = w'.table name := fun name =>
  inferInstanceAs (Decidable ((w.table name : Option (String × Bool)) = w'.table name))

instance (w w' : TaskFunctions) : Decidable (w.Same w') :=
  List.decidableBAll (fun name => w.table name = w'.table name) (w.map.keys ++ w'.map.keys)

theorem table_of_not_mem {w : TaskFunctions} {name : String} (h : name ∉ w.map.keys) : w.table name = none :=
  table_eq_none (OrderedMap.get_eq_none_iff.2 h)

theorem same_iff {w w' : TaskFunctions} : w.Same w' ↔ w.table = w'.table := by
  constructor
  · intro h
    apply Table.ext
    intro name
    by_cases hname : name ∈ w.map.keys ++ w'.map.keys
    · exact h name hname
    · rw [List.mem_append, not_or] at hname
      rw [table_of_not_mem hname.1, table_of_not_mem hname.2]
  · intro h name _
    rw [h]

/-- The task functions after messages. -/
def afterAll (evaluate : String → Evaluated) (messages : List OperationMessage) (w : TaskFunctions) : TaskFunctions :=
  messages.foldl (fun w message => w.after evaluate message) w

end TaskFunctions

namespace Operations

def State.Agree (s : State) : Prop :=
  ∀ n ∈ s.workerNodes, ∀ m ∈ s.workerNodes, n.live = true → m.live = true →
    n.taskFunctions.table = m.taskFunctions.table

/-- No operation message is on its way to a worker that lives. -/
def State.Delivered (s : State) : Prop := ∀ n ∈ s.workerNodes, n.live = true → n.inbox = []

instance (s : State) : Decidable s.Delivered := inferInstanceAs (Decidable (∀ n ∈ s.workerNodes, _))

section Final
variable (evaluate : String → Evaluated)

/-- What a worker comes to once it has handled its messages. -/
def Node.final (n : Node) : TaskFunctions := n.taskFunctions.afterAll evaluate (n.inbox.map (·.message))

/-- What a new worker comes to. -/
def setUp (file : TaskFunctions) (dynamic : Bool) (s : State) : TaskFunctions :=
  file.afterAll evaluate (if dynamic then addMessages s.taskFunctions else [])

/-- A new worker comes to what the others come to. -/
def State.Alike (file : TaskFunctions) (dynamic : Bool) (s : State) : Prop :=
  ∀ n ∈ s.workerNodes, n.live = true → (n.final evaluate).Same (setUp evaluate file dynamic s)

instance (file : TaskFunctions) (dynamic : Bool) (s : State) : Decidable (s.Alike evaluate file dynamic) :=
  inferInstanceAs (Decidable (∀ n ∈ s.workerNodes, _))

/-- Operations are sent where every channel is open, and workers are created where they are set up as the others. -/
def SetUpAlike (file : TaskFunctions) (s : State) : Event → Prop
  | .call c => (c.message s).isOk = true → ∀ n ∈ s.workerNodes, n.channelOpen = true
  | .create dynamic => s.Alike evaluate file dynamic
  | .error k restart => restart = true →
    ∀ n ∈ s.workerNodes[k]?, (s.modifyNode k (·.closeChannel s.worker)).Alike evaluate file n.dynamic
  | _ => True

instance (file : TaskFunctions) (s : State) : DecidablePred (SetUpAlike evaluate file s)
  | .call _ => inferInstanceAs (Decidable (_ → ∀ n ∈ s.workerNodes, _))
  | .create dynamic => inferInstanceAs (Decidable (s.Alike evaluate file dynamic))
  | .error k restart => inferInstanceAs (Decidable (restart = true → ∀ n ∈ s.workerNodes[k]?, _))
  | .handle .. | .receive _ | .stop _ | .closeChannel _ | .exit _ => inferInstanceAs (Decidable True)

/-- Workers that live come to the same task functions. -/
def Agreed (s : State) : Prop :=
  ∀ n ∈ s.workerNodes, ∀ m ∈ s.workerNodes, n.live = true → m.live = true →
    (n.final evaluate).table = (m.final evaluate).table

end Final

/-! ## What workers come to -/

section Final
variable {evaluate : String → Evaluated} {file : TaskFunctions} {s s' : State} {n : Node}

theorem afterAll_append (messages messages' : List OperationMessage) (w : TaskFunctions) :
    w.afterAll evaluate (messages ++ messages') = (w.afterAll evaluate messages).afterAll evaluate messages' :=
  List.foldl_append

theorem final_ask (l : Listener) (message : OperationMessage) (n : Node) :
    ((n.ask l message).final evaluate).table = (n.final evaluate).table.handle evaluate message := by
  have hinbox : (n.ask l message).inbox.map (·.message) = n.inbox.map (·.message) ++ [message] := List.map_append ..
  unfold Node.final
  rw [hinbox, afterAll_append]
  exact TaskFunctions.table_after evaluate message _

theorem final_handle {x : Sent} {inbox : List Sent} {notification : Option JsError} {w : TaskFunctions} {a : Answer}
    (hin : n.inbox = x :: inbox) (ha : n.handle evaluate notification x = some (w, a)) (outbox : List Answer) :
    Node.final evaluate { n with taskFunctions := w, inbox := inbox, outbox := outbox } = n.final evaluate := by
  obtain ⟨⟨w', r⟩, hw, heq⟩ := Option.map_eq_some_iff.1 ha
  cases heq
  have hafter := TaskFunctions.after_of_handle hw
  unfold Node.final TaskFunctions.afterAll
  rw [hin, hafter]
  rfl

/-- Workers go on agreeing if each that lives has come on alike from one that lived. -/
theorem Agreed.of_nodes (h : Agreed evaluate s) (g : Table → Table)
    (hnode : ∀ n' ∈ s'.workerNodes, n'.live = true → ∃ n ∈ s.workerNodes, n.live = true ∧
      (n'.final evaluate).table = g (n.final evaluate).table) : Agreed evaluate s' := by
  intro n' hn' m' hm' hlive hlive'
  obtain ⟨n, hn, hnlive, hntable⟩ := hnode n' hn' hlive
  obtain ⟨m, hm, hmlive, hmtable⟩ := hnode m' hm' hlive'
  rw [hntable, hmtable, h n hn m hm hnlive hmlive]

theorem Agreed.modifyNode (h : Agreed evaluate s) {k : Nat} {f : Node → Node} {answers : List Answer}
    (hf : ∀ n, s.workerNodes[k]? = some n → (f n).live = true → n.live = true ∧ (f n).final evaluate = n.final evaluate) :
    Agreed evaluate { s.modifyNode k f with answers } := by
  refine h.of_nodes id fun n' hn' hlive => ?_
  obtain ⟨i, hi⟩ := List.mem_iff_getElem?.1 hn'
  obtain ⟨n, hn, ⟨-, rfl⟩ | ⟨rfl, rfl⟩⟩ := node_of_modify hi
  · exact ⟨n', List.mem_of_getElem? hn, hlive, rfl⟩
  · obtain ⟨hnlive, hfinal⟩ := hf n hn hlive
    exact ⟨n, List.mem_of_getElem? hn, hnlive, by rw [hfinal]; rfl⟩

theorem Agreed.toWorkers (h : Agreed evaluate s) (hopen : ∀ n ∈ s.workerNodes, n.channelOpen = true)
    (message : OperationMessage) : Agreed evaluate (sendTaskFunctionOperationToWorkers message s) := by
  refine h.of_nodes (·.handle evaluate message) fun n' hn' hlive => ?_
  unfold sendTaskFunctionOperationToWorkers at hn'
  dsimp only at hn'
  rw [askEach_of_open hopen] at hn'
  obtain ⟨n, hn, rfl⟩ := List.mem_map.1 hn'
  exact ⟨n, hn, hlive, final_ask _ message n⟩

/-- An answer that is handled changes no worker. -/
theorem Agreed.emit {message : Answer} {k : Nat} {ls : List Listener} (h : Agreed evaluate s)
    (he : Emits message k ls s) : Agreed evaluate (emit message ls s) := by
  refine he.emit_inv (J := fun _ => Agreed evaluate) ?_ (fun p key ls s hj _ _ => hj) (fun p key ls s hj _ _ => hj)
    (fun s hj => hj) h
  intro l ls s s' _ hj _ hr
  refine hj.of_nodes id fun n' hn' hlive => ?_
  obtain ⟨n, hn, rfl | rfl⟩ := hr.mem hn'
  · exact ⟨n', hn, hlive, rfl⟩
  · exact ⟨n, hn, hlive, rfl⟩

end Final

/-! ## A worker is created -/

section Create
variable {evaluate : String → Evaluated} {file : TaskFunctions} {s s' : State}

/-- The last worker of `s'` has joined those of `s`. -/
structure Joined (s s' : State) (messages : List OperationMessage) (file : TaskFunctions) : Prop where
  others : ∀ i < s.workerNodes.length, s'.workerNodes[i]? = s.workerNodes[i]?
  length : s'.workerNodes.length = s.workerNodes.length + 1
  last : ∃ n, s'.workerNodes[s.workerNodes.length]? = some n ∧ n.taskFunctions = file ∧
    n.inbox.map (·.message) = messages

theorem joined_createNode (file : TaskFunctions) (s : State) : Joined s (createAndSetupWorkerNode file s) [] file where
  others i hi := by
    unfold createAndSetupWorkerNode
    exact List.getElem?_append_left hi
  length := List.length_append ..
  last := ⟨_, List.getElem?_concat_length .., rfl, rfl⟩

/-- A change of the last worker. -/
theorem Joined.modifyNode {messages messages' : List OperationMessage} (h : Joined s s' messages file)
    {f : Node → Node} (hf : ∀ n, (f n).taskFunctions = n.taskFunctions)
    (hinbox : ∀ n, (f n).inbox.map (·.message) = n.inbox.map (·.message) ++ messages') {s'' : State}
    (hs : s''.workerNodes = s'.workerNodes.modify s.workerNodes.length f) :
    Joined s s'' (messages ++ messages') file where
  others i hi := by
    rw [hs, List.getElem?_modify_ne _ _ hi.ne']
    exact h.others i hi
  length := by
    rw [hs, List.length_modify]
    exact h.length
  last := by
    obtain ⟨n, hn, hfile, hmessages⟩ := h.last
    refine ⟨f n, ?_, by rw [hf, hfile], by rw [hinbox, hmessages]⟩
    rw [hs, List.getElem?_modify_eq, hn]
    rfl

theorem joined_foldl {sent : List OperationMessage} (h : Joined s s' sent file) (messages : List OperationMessage) :
    Joined s (messages.foldl (fun s' message => sendTaskFunctionOperationToWorker s.workerNodes.length message s') s')
      (sent ++ messages) file := by
  induction messages generalizing s' sent with
  | nil =>
    rw [List.append_nil]
    exact h
  | cons message messages ih =>
    rw [List.append_cons]
    exact ih (h.modifyNode (f := (·.ask (.ofWorker s'.promises.length s.workerNodes.length) message)) (fun _ => rfl)
      (fun n => List.map_append ..) rfl)

theorem joined_create (file : TaskFunctions) (dynamic : Bool) (s : State) :
    Joined s (create file dynamic s) (if dynamic then addMessages s.taskFunctions else []) file := by
  cases dynamic with
  | false => exact joined_createNode file s
  | true =>
    have hsent := joined_foldl (joined_createNode file s) (addMessages s.taskFunctions)
    rw [List.nil_append] at hsent
    have hflag : Joined s (createAndSetupDynamicWorkerNode file s) (addMessages s.taskFunctions ++ []) file :=
      hsent.modifyNode (f := fun n => { n with dynamic := true }) (fun _ => rfl)
        (fun _ => (List.append_nil _).symm) rfl
    rw [List.append_nil] at hflag
    exact hflag

theorem Agreed.create (h : Agreed evaluate s) {dynamic : Bool} (hs : s.Alike evaluate file dynamic) :
    Agreed evaluate (create file dynamic s) := by
  have hj := joined_create file dynamic s
  -- every worker comes to what the new one does, or was there
  have hcases (n' : Node) (hn' : n' ∈ (Operations.create file dynamic s).workerNodes) :
      n' ∈ s.workerNodes ∨ (n'.final evaluate) = setUp evaluate file dynamic s := by
    obtain ⟨i, hi⟩ := List.mem_iff_getElem?.1 hn'
    have hlt := (List.getElem?_eq_some_iff.1 hi).1
    rw [hj.length] at hlt
    rcases Nat.lt_or_ge i s.workerNodes.length with hold | hnew
    · rw [hj.others i hold] at hi
      exact .inl (List.mem_of_getElem? hi)
    · have hlast : i = s.workerNodes.length := by omega
      subst hlast
      obtain ⟨n, hn, hfile, hmessages⟩ := hj.last
      rw [hn] at hi
      cases hi
      right
      unfold Node.final setUp
      rw [hfile, hmessages]
  intro n hn m hm hlive hlive'
  rcases hcases n hn with hn | hn
  · rcases hcases m hm with hm | hm
    · exact h n hn m hm hlive hlive'
    · rw [hm]
      exact TaskFunctions.same_iff.1 (hs n hn hlive)
  · rcases hcases m hm with hm | hm
    · rw [hn]
      exact (TaskFunctions.same_iff.1 (hs m hm hlive')).symm
    · rw [hn, hm]

end Create

/-! ## Every run -/

section Runs
variable {evaluate : String → Evaluated} {file : TaskFunctions} {s s' : State}

theorem Agreed.closeChannel (h : Agreed evaluate s) (k : Nat) (worker : WorkerType) :
    Agreed evaluate (s.modifyNode k (·.closeChannel worker)) := by
  refine h.modifyNode fun n _ hlive => ?_
  cases worker with
  | thread => cases hlive
  | cluster => exact ⟨hlive, rfl⟩

theorem Agreed.step {e : Event} (h : Agreed evaluate s) (hsound : Sound s) (hok : SetUpAlike evaluate file s e)
    (ht : Step evaluate file s e s') : Agreed evaluate s' := by
  cases takes_of_step ht with
  | call c =>
    unfold Operations.call
    split
    · exact h
    · rename_i message hm
      refine h.toWorkers (hok ?_) message
      rw [hm]
      rfl
  | handle hn hlive hin ha =>
    -- what was to be handled has been handled, and the rest is as before
    refine h.modifyNode fun m hm _ => ?_
    rw [hn] at hm
    cases hm
    exact ⟨hlive, final_handle hin ha _⟩
  | throw hn hlive hin ha => exact h.modifyNode fun n _ => (by rintro ⟨⟩)
  | receive hn hopen hout =>
    refine Agreed.emit ?_ (hsound.emits hn hout)
    exact h.modifyNode fun n _ hlive => ⟨hlive, rfl⟩
  | create dynamic => exact h.create hok
  | error => exact h.closeChannel _ _
  | restart hn => exact (h.closeChannel _ _).create (hok rfl _ (Option.mem_def.2 hn))
  | stop => exact h.modifyNode fun n _ => (by rintro ⟨⟩)
  | closeChannel => exact h.closeChannel _ _
  | exit hk => exact h.of_nodes id fun n hn hlive => ⟨n, List.mem_of_mem_eraseIdx hn, hlive, rfl⟩

theorem agreed_started (evaluate : String → Evaluated) (file : TaskFunctions) (worker : WorkerType)
    (numberOfWorkers : Nat) : Agreed evaluate (started file worker numberOfWorkers) := by
  have h : Agreed evaluate (started file worker numberOfWorkers) ∧
      ∀ n ∈ (started file worker numberOfWorkers).workerNodes, n.final evaluate = file := by
    refine started_inv (I := fun s => Agreed evaluate s ∧ ∀ n ∈ s.workerNodes, n.final evaluate = file)
      ⟨List.forall_mem_nil _, List.forall_mem_nil _⟩ ?_ _
    rintro s ⟨hs, hfile⟩
    have halike : s.Alike evaluate file false := by
      intro n hn _
      rw [hfile n hn]
      exact TaskFunctions.same_iff.2 rfl
    refine ⟨hs.create halike, fun n hn => ?_⟩
    rcases List.mem_append.1 hn with hn | hn
    · exact hfile n hn
    · rw [List.mem_singleton.1 hn]
      rfl
  exact h.1

/-- Where new workers are set up as the others are, workers that have handled their messages have the same task
functions. -/
theorem workers_agree {worker : WorkerType} {numberOfWorkers : Nat} {es : List Event}
    (h : Run (Guarded (SetUpAlike evaluate file) (Step evaluate file)) (started file worker numberOfWorkers) es s)
    (hdelivered : s.Delivered) : s.Agree := by
  have hinv : Sound s ∧ Agreed evaluate s := by
    refine h.inv (fun s => Sound s ∧ Agreed evaluate s)
      ⟨sound_started file worker numberOfWorkers, agreed_started evaluate file worker numberOfWorkers⟩ ?_
    rintro s e s' ⟨hsound, hagreed⟩ ⟨hok, ht⟩
    exact ⟨hsound.step ht, hagreed.step hsound hok ht⟩
  have hfinal (n : Node) (hn : n ∈ s.workerNodes) (hlive : n.live = true) : n.final evaluate = n.taskFunctions := by
    unfold Node.final
    rw [hdelivered n hn hlive]
    rfl
  intro n hn m hm hlive hlive'
  rw [← hfinal n hn hlive, ← hfinal m hm hlive']
  exact hinv.2 n hn m hm hlive hlive'

/-- A worker fails before, and a dynamic worker joins after a function is added. -/
theorem workers_agree_dynamic : ∃ s, Run (Guarded (SetUpAlike (fun _ => .function) (.ofFunction "fn" "f"))
    (Step (fun _ => .function) (.ofFunction "fn" "f"))) (started (.ofFunction "fn" "f") .thread 2)
    [.error 0 true, .exit 0, .call (.addTaskFunction "added" "g"), .handle 0 none, .handle 1 none, .receive 1,
      .receive 0, .create true, .handle 2 none] s ∧ s.workerNodes.length = 3 ∧ s.Agree := by
  have h : (replay (nextWhere (SetUpAlike (fun _ => .function) (.ofFunction "fn" "f"))
      (next (fun _ => .function) (.ofFunction "fn" "f"))) (started (.ofFunction "fn" "f") .thread 2)
      [.error 0 true, .exit 0, .call (.addTaskFunction "added" "g"), .handle 0 none, .handle 1 none, .receive 1,
        .receive 0, .create true, .handle 2 none]).any (fun s => decide (s.Delivered ∧ s.workerNodes.length = 3)) =
      true := by
    decide +kernel
  obtain ⟨s, hr, hdelivered, hlen⟩ := exists_run_of_replay
    (P := fun s : State => s.Delivered ∧ s.workerNodes.length = 3) (guarded_of_nextWhere fun _ _ _ hs => hs) h
  exact ⟨s, hr, hlen, workers_agree hr hdelivered⟩

/-- Each operation starts after the one before has succeeded, and workers are created dynamically or in place of one
that fails. -/
def Awaited (s : State) : Event → Prop
  | .call _ => ∀ q ∈ s.promises, q.toWorkers = true → q.settled = some .resolved
  | .create dynamic => dynamic = true
  | .error _ restart => restart = true
  | .stop _ | .closeChannel _ => False
  | .handle .. | .receive _ | .exit _ => True

instance (s : State) : DecidablePred (Awaited s)
  | .call _ => inferInstanceAs (Decidable (∀ q ∈ s.promises, _))
  | .create dynamic => inferInstanceAs (Decidable (dynamic = true))
  | .error _ restart => inferInstanceAs (Decidable (restart = true))
  | .stop _ | .closeChannel _ => inferInstanceAs (Decidable False)
  | .handle .. | .receive _ | .exit _ => inferInstanceAs (Decidable True)

/-- The worker that takes the place of one that failed does not have the function that was added. -/
theorem restarted_lacks_function : ¬ ∀ (evaluate : String → Evaluated) (file : TaskFunctions) (worker : WorkerType)
    (numberOfWorkers : Nat) (es : List Event) (s : State),
    Run (Guarded Awaited (Step evaluate file)) (started file worker numberOfWorkers) es s →
      (∀ q ∈ s.promises, q.toWorkers = true → q.settled = some .resolved) → s.Delivered → s.Agree := by
  intro h
  have hrun : (replay (nextWhere Awaited (next (fun _ => .function) (.ofFunction "fn" "f")))
      (started (.ofFunction "fn" "f") .thread 2) [.call (.addTaskFunction "added" "g"), .handle 0 none, .handle 1 none,
        .receive 0, .receive 1, .error 0 true, .exit 0]).any (fun s => decide
          ((∀ q ∈ s.promises, q.toWorkers = true → q.settled = some .resolved) ∧ s.Delivered ∧
            ∃ n ∈ s.workerNodes, ∃ m ∈ s.workerNodes, (n.live = true ∧ m.live = true) ∧
              ¬ n.taskFunctions.Same m.taskFunctions)) = true := by
    decide +kernel
  obtain ⟨s, hr, hresolved, hdelivered, n, hn, m, hm, ⟨hlive, hlive'⟩, hne⟩ := exists_run_of_replay
    (P := fun s : State => (∀ q ∈ s.promises, q.toWorkers = true → q.settled = some .resolved) ∧ s.Delivered ∧
      ∃ n ∈ s.workerNodes, ∃ m ∈ s.workerNodes, (n.live = true ∧ m.live = true) ∧
        ¬ n.taskFunctions.Same m.taskFunctions) (guarded_of_nextWhere fun _ _ _ hs => hs) hrun
  have hagree := h _ _ _ _ _ s hr hresolved hdelivered
  exact hne (TaskFunctions.same_iff.2 (hagree n hn m hm hlive hlive'))

end Runs

end Operations

end Poolifier
