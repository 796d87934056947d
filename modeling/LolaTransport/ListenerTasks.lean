import LolaTransport.Lib.Run
import LolaTransport.Listeners

/-!
# Listener calls and listener tasks

Register and unregister calls and the tasks that run `listener_loop` share the list of listeners and
the slot for the task's handle, each behind a lock of its own.  No lock is held across an await, so
what runs without interruption is what stands between two awaits, and a phase is what a call or a
task waits for.

An await suspends its task if it is not ready.  A task whose abort has been requested runs on until
it is suspended, and then ends there.  The transport is alive throughout, and a callback returns: it
does not panic.
-/

namespace LolaTransport

/-- The backends the crate is built for. -/
inductive Backend
  | stub
  | native
  deriving DecidableEq, Repr

/-- Where a listener task is. -/
inductive TaskPhase (S F L : Type)
  /-- It waits for the list, to see whether it is empty. -/
  | checking
  | polling
  /-- The stub's poll has taken a sample and waits for the list. -/
  | matching (sample : S) (probe : F)
  | delivering (deliveries : List (L × F))
  /-- It waits for a callback, and has these deliveries left. -/
  | inCallback (deliveries : List (L × F))
  | sleeping
  /-- It has left its loop and has yet to end. -/
  | left
  | ended

structure ListenerTask (S F L : Type) where
  phase : TaskPhase S F L := .checking
  aborted : Bool := false
  /-- It has been spawned and not run yet, or its await was not ready. -/
  suspended : Bool := true

inductive ListenerApi
  | register
  | unregister
  deriving DecidableEq, Repr

/-- Where a call is: at the lock of the list, at that of the task's handle, or over. -/
inductive CallPhase
  | listeners
  | task
  | returned (result : Except Fault Unit)

structure ListenerCall (Φ L : Type) where
  api : ListenerApi
  filters : Φ
  listener : L
  phase : CallPhase := .listeners

structure ListenerState (Φ S F L σ : Type) where
  listeners : List (ListenerRegistration Φ L σ) := []
  /-- The handle of a task: its place among them. -/
  listenerTask : Option ℕ := none
  tasks : List (ListenerTask S F L) := []
  calls : List (ListenerCall Φ L) := []
  /-- The samples of the stub backend. -/
  pending : List S := []

inductive ListenerAction (Φ S L σ : Type)
  | call (api : ListenerApi) (filters : Φ) (listener : L)
  /-- The call at this place gets the lock it waits for.  `created` is what the creation of a
  subscriber comes to, and `runtime` what `Handle::try_current` does. -/
  | advance (c : ℕ) (created : Except Fault σ) (runtime : Except String Unit)
  /-- The task at this place runs to its next await. -/
  | run (t : ℕ)
  /-- The await it stands at is not ready. -/
  | suspend (t : ℕ)
  /-- The abort of the task takes effect. -/
  | cancel (t : ℕ)
  | arrive (sample : S)

variable {Φ S F L σ : Type}

namespace ListenerState

def setCall (s : ListenerState Φ S F L σ) (c : ℕ) (call : ListenerCall Φ L)
    (phase : CallPhase) : ListenerState Φ S F L σ :=
  { s with calls := s.calls.set c { call with phase } }

def setTask (s : ListenerState Φ S F L σ) (t : ℕ) (task : ListenerTask S F L)
    (phase : TaskPhase S F L) (suspended : Bool := false) : ListenerState Φ S F L σ :=
  { s with tasks := s.tasks.set t { task with phase, suspended } }

/-- `JoinHandle::is_finished`. -/
def isFinished (s : ListenerState Φ S F L σ) (t : ℕ) : Bool :=
  match s.tasks[t]? with
  | some task => match task.phase with
    | .ended => true
    | _ => false
  | none => true

/-- `ensure_listener_task`. -/
def ensureListenerTask (runtime : Except String Unit) (s : ListenerState Φ S F L σ) :
    Except Fault Unit × ListenerState Φ S F L σ :=
  if s.listenerTask.any (!s.isFinished ·) then (.ok (), s)
  else
    match runtime with
    | .error error =>
      (.error (failWithCode .FAILED_PRECONDITION
        s!"LoLa listener registration requires a Tokio runtime: {error}"), s)
    | .ok () => (.ok (), { s with
        listenerTask := some s.tasks.length
        tasks := s.tasks ++ [{}] })

/-- The handle of the listener task is taken, and the task's abort requested. -/
def stopListenerTask (s : ListenerState Φ S F L σ) : ListenerState Φ S F L σ :=
  match s.listenerTask with
  | none => s
  | some t => { s with
      listenerTask := none
      tasks := s.tasks.modify t fun task => { task with aborted := true } }

section Calls

variable [DecidableEq Φ] [DecidableEq L]

/-- `register_validated_zero_copy_listener`, while nothing else runs. -/
def registerValidatedZeroCopyListener (filters : Φ) (listener : L) (created : Except Fault σ)
    (runtime : Except String Unit) (s : ListenerState Φ S F L σ) :
    Except Fault Unit × ListenerState Φ S F L σ :=
  match registerListener filters listener created s.listeners with
  | .error e => (.error e, s)
  | .ok listeners => { s with listeners }.ensureListenerTask runtime

/-- What the call at `c` does under the lock it waits for. -/
def advance (s : ListenerState Φ S F L σ) (c : ℕ) (created : Except Fault σ)
    (runtime : Except String Unit) (call : ListenerCall Φ L) :
    Option (ListenerState Φ S F L σ) :=
  match call.api, call.phase with
  | .register, .listeners =>
    match registerListener call.filters call.listener created s.listeners with
    | .error e => some (s.setCall c call (.returned (.error e)))
    | .ok listeners => some ({ s with listeners }.setCall c call .task)
  | .unregister, .listeners =>
    match unregisterListener call.filters call.listener s.listeners with
    | .error e => some (s.setCall c call (.returned (.error e)))
    | .ok (listeners, shouldStop) => some ({ s with listeners }.setCall c call
        (if shouldStop then .task else .returned (.ok ())))
  | .register, .task =>
    let (result, s) := s.ensureListenerTask runtime
    some (s.setCall c call (.returned result))
  | .unregister, .task => some (s.stopListenerTask.setCall c call (.returned (.ok ())))
  | _, .returned _ => none

end Calls

section Tasks

variable (backend : Backend) (receive : σ → Except Fault S × σ) (C : FrameCodec Φ S F)

/-- What the loop does with the outcome of a poll: it sleeps, or goes over the deliveries. -/
def afterPoll : Except Fault (List (L × F)) → TaskPhase S F L
  | .ok [] => .sleeping
  | .ok (delivery :: deliveries) => .delivering (delivery :: deliveries)
  | .error _ => .sleeping

/-- What the task at `t` does until its next await. -/
def run (s : ListenerState Φ S F L σ) (t : ℕ) (task : ListenerTask S F L) :
    Option (ListenerState Φ S F L σ) :=
  match task.phase with
  | .checking => some (s.setTask t task (if s.listeners.isEmpty then .left else .polling))
  | .polling =>
    match backend with
    | .native =>
      let (polled, listeners) := pollListenerFrames receive C s.listeners
      some ({ s with listeners }.setTask t task (afterPoll polled))
    | .stub =>
      match s.pending with
      | [] => some (s.setTask t task .sleeping)
      | sample :: pending => some ({ s with pending }.setTask t task
          (match C.decode sample with
          | .error _ => .sleeping
          | .ok probe => .matching sample probe))
  | .matching sample probe =>
    some (s.setTask t task (afterPoll (matchListeners C sample probe s.listeners)))
  | .delivering [] => some (s.setTask t task .checking)
  | .delivering (_ :: deliveries) => some (s.setTask t task (.inCallback deliveries))
  | .inCallback deliveries => some (s.setTask t task (.delivering deliveries))
  | .sleeping => some (s.setTask t task .checking)
  | .left => some (s.setTask t task .ended)
  | .ended => none

/-- The task at `t` is suspended, where it awaits something. -/
def suspend (s : ListenerState Φ S F L σ) (t : ℕ) (task : ListenerTask S F L) :
    Option (ListenerState Φ S F L σ) :=
  match task.phase with
  | .delivering _ | .left | .ended => none
  | _ => some (s.setTask t task task.phase true)

/-- The task at `t` ends where it is suspended, if its abort has been requested. -/
def cancel (s : ListenerState Φ S F L σ) (t : ℕ) (task : ListenerTask S F L) :
    Option (ListenerState Φ S F L σ) :=
  if task.aborted && task.suspended then some (s.setTask t task .ended) else none

variable [DecidableEq Φ] [DecidableEq L]

def step (s : ListenerState Φ S F L σ) :
    ListenerAction Φ S L σ → Option (ListenerState Φ S F L σ)
  | .call api filters listener => some { s with
      calls := s.calls ++ [{ api, filters, listener }] }
  | .advance c created runtime => s.calls[c]?.bind (s.advance c created runtime)
  | .run t => do
    let task ← s.tasks[t]?
    if task.aborted && task.suspended then none else s.run backend receive C t task
  | .suspend t => s.tasks[t]?.bind (s.suspend t)
  | .cancel t => s.tasks[t]?.bind (s.cancel t)
  | .arrive sample => some { s with pending := s.pending ++ [sample] }

end Tasks

end ListenerState

end LolaTransport
