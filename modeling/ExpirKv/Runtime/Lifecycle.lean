import ExpirKv.Runtime.Threads

namespace ExpirKv

structure LifecycleInner where
  acceptingOperations : Bool
  externalLeases : Nat
  operationGuards : Nat
  deriving DecidableEq, Repr

def isQuiescent (inner : LifecycleInner) : Bool := inner.externalLeases == 0 && inner.operationGuards == 0

-- The critical sections of the controller.
namespace LifecycleInner

def new : LifecycleInner := ⟨true,1,0⟩

def acquireOperation (inner : LifecycleInner) : Option LifecycleInner :=
  if inner.acceptingOperations = false then none
  else some {inner with operationGuards := inner.operationGuards + 1}

def cloneExternalLease (inner : LifecycleInner) : LifecycleInner :=
  {inner with externalLeases := inner.externalLeases + 1}

-- Nothing where the subtraction underflows; else whether admission was closed, and whether to notify.
def releaseExternalLease (inner : LifecycleInner) : Option (LifecycleInner × Bool × Bool) :=
  if inner.externalLeases = 0 then none
  else
    let externalLeases := inner.externalLeases - 1
    let closed := externalLeases == 0
    let inner := {inner with
      externalLeases
      acceptingOperations := if closed then false else inner.acceptingOperations}
    some (inner,closed,isQuiescent inner)

def releaseOperationGuard (inner : LifecycleInner) : Option (LifecycleInner × Bool) :=
  if inner.operationGuards = 0 then none
  else
    let inner := {inner with operationGuards := inner.operationGuards - 1}
    some (inner,isQuiescent inner)

end LifecycleInner

-- What a call of the controller still has to do behind its critical section.
inductive LifecycleAction where
  | closeWriteAdmission
  | awaitClosed
  | notifyAll
  | recheck
  deriving DecidableEq, Repr

inductive LifecycleCall where
  | cloneLease (lease : Nat)
  | dropLease (lease : Nat)
  | acquireOperation
  | dropGuard (guard : Nat)
  | waitForQuiescence
  deriving DecidableEq, Repr

-- The controller, the runtime bound to it, and the values that are alive: a number for each `ExternalLease` and each
-- `OperationGuard` from the section that counts it to the section that uncounts it. `swept` are the writes that the close
-- of the last release took out of the queue; nothing in the code reads it.
structure LifecycleController where
  inner : LifecycleInner
  runtimeBound : Bool
  runtime : Machine
  asleep : ThreadId → Bool
  pending : ThreadId → List LifecycleAction
  leases : List Nat
  guards : List Nat
  nextValue : Nat
  swept : List RequestId

namespace LifecycleController

def newWithExternalLease : LifecycleController := ⟨.new,false,.new,fun _ => false,fun _ => [],[0],[],1,[]⟩

def bindRuntime (s : LifecycleController) : LifecycleController := {s with runtimeBound := true}

-- `Db::open` binds the runtime before the first lease leaves it.
def opened : LifecycleController := newWithExternalLease.bindRuntime

def withPending (s : LifecycleController) (t : ThreadId) (actions : List LifecycleAction) : LifecycleController :=
  {s with pending := Function.update s.pending t actions}

def cloneExternalLease (s : LifecycleController) : LifecycleController :=
  {s with
    inner := s.inner.cloneExternalLease
    leases := s.nextValue :: s.leases
    nextValue := s.nextValue + 1}

def acquireOperation (s : LifecycleController) : LifecycleController :=
  match s.inner.acquireOperation with
  | none => s
  | some inner => {s with inner,guards := s.nextValue :: s.guards,nextValue := s.nextValue + 1}

def afterRelease (s : LifecycleController) (closed notify : Bool) : List LifecycleAction :=
  (if closed = true ∧ s.runtimeBound = true then [.closeWriteAdmission] else []) ++
    (if notify = true then [.notifyAll] else [])

def releaseExternalLease (s : LifecycleController) (t : ThreadId) (lease : Nat) : Option LifecycleController :=
  match s.inner.releaseExternalLease with
  | none => none
  | some (inner,closed,notify) =>
    some ({s with inner,leases := s.leases.erase lease}.withPending t (s.afterRelease closed notify))

def releaseOperationGuard (s : LifecycleController) (t : ThreadId) (guard : Nat) : Option LifecycleController :=
  match s.inner.releaseOperationGuard with
  | none => none
  | some (inner,notify) =>
    some ({s with inner,guards := s.guards.erase guard}.withPending t (s.afterRelease false notify))

-- One turn of `wait_for_quiescence`: it returns, or gives the lock up and sleeps.
def waitTurn (s : LifecycleController) (t : ThreadId) (rest : List LifecycleAction) : LifecycleController :=
  if isQuiescent s.inner = true then s.withPending t rest
  else {s.withPending t (.recheck :: rest) with asleep := Function.update s.asleep t true}

-- Each call takes the lock once, before anything else. A clone borrows its lease, a drop consumes its value.
def begin (s : LifecycleController) (t : ThreadId) : LifecycleCall → Option LifecycleController
  | .cloneLease lease => if lease ∈ s.leases then some s.cloneExternalLease else none
  | .dropLease lease => if lease ∈ s.leases then s.releaseExternalLease t lease else none
  | .acquireOperation => some s.acquireOperation
  | .dropGuard guard => if guard ∈ s.guards then s.releaseOperationGuard t guard else none
  | .waitForQuiescence => some (s.waitTurn t [])

-- `close_write_admission` is a call of the runtime; it is awaited before the waiters are notified.
def perform (s : LifecycleController) (t : ThreadId) (rest : List LifecycleAction) :
    LifecycleAction → Option LifecycleController
  | .closeWriteAdmission =>
    if s.runtime.threads t = [] then
      some ({s with runtime := s.runtime.withThread s.runtime.shared t (Shared.callActions .closeWriteAdmission)}.withPending
        t (.awaitClosed :: rest))
    else none
  | .awaitClosed => if s.runtime.threads t = [] then some (s.withPending t rest) else none
  | .notifyAll => some {s.withPending t rest with asleep := fun _ => false}
  | .recheck => if s.asleep t = false then some (s.waitTurn t rest) else none

def sweep (s : LifecycleController) (t : ThreadId) (action : Action) : List RequestId :=
  if action = .closeWriteAdmission ∧ .awaitClosed ∈ s.pending t then
    s.swept ++ s.runtime.shared.control.gate.orderedQueue
  else s.swept

-- Any thread may call the controller or the runtime, and any thread that is inside one of them may go on. A wait may wake
-- for no reason, and one that is awake may find its time over.
inductive Step (s : LifecycleController) : LifecycleController → Prop
  | call {t : ThreadId} {call : LifecycleCall} {s' : LifecycleController} :
      s.pending t = [] → s.begin t call = some s' → Step s s'
  | act {t : ThreadId} {action : LifecycleAction} {rest : List LifecycleAction} {s' : LifecycleController} :
      s.pending t = action :: rest → s.perform t rest action = some s' → Step s s'
  | wake (t : ThreadId) : Step s {s with asleep := Function.update s.asleep t false}
  | timeOut {t : ThreadId} {rest : List LifecycleAction} :
      s.pending t = .recheck :: rest → s.asleep t = false → Step s (s.withPending t rest)
  | runtimeCall {t : ThreadId} {call : Call} {shared : Shared} :
      s.runtime.threads t = [] → s.runtime.shared.begin t call = some shared →
      Step s {s with runtime := s.runtime.withThread shared t (Shared.callActions call)}
  | runtimeAct {t : ThreadId} {action : Action} {rest followUps : List Action} {shared : Shared} :
      s.runtime.threads t = action :: rest → s.runtime.shared.perform t action = some (shared,followUps) →
      Step s {s with
        runtime := s.runtime.withThread shared t (followUps ++ rest)
        swept := s.sweep t action}

abbrev Runs : LifecycleController → LifecycleController → Prop := Relation.ReflTransGen Step

-- One schedule, without the waits.
inductive Move where
  | call (t : ThreadId) (call : LifecycleCall)
  | act (t : ThreadId)
  | runtimeCall (t : ThreadId) (call : Call)
  | runtimeAct (t : ThreadId)
  deriving DecidableEq, Repr

def move (s : LifecycleController) : Move → Option LifecycleController
  | .call t call => if s.pending t = [] then s.begin t call else none
  | .act t =>
    match s.pending t with
    | [] => none
    | action :: rest => s.perform t rest action
  | .runtimeCall t call =>
    if s.runtime.threads t = [] then
      (s.runtime.shared.begin t call).map (fun shared =>
        {s with runtime := s.runtime.withThread shared t (Shared.callActions call)})
    else none
  | .runtimeAct t =>
    match s.runtime.threads t with
    | [] => none
    | action :: rest =>
      (s.runtime.shared.perform t action).map (fun next =>
        {s with runtime := s.runtime.withThread next.1 t (next.2 ++ rest),swept := s.sweep t action})

def play (s : LifecycleController) : List Move → Option LifecycleController
  | [] => some s
  | next :: rest => (s.move next).bind (fun s => s.play rest)

theorem move_step {s s' : LifecycleController} {next : Move} (moved : s.move next = some s') : Step s s' := by
  cases next with
  | call t call =>
    simp only [move] at moved
    split at moved
    · exact .call ‹_› moved
    · cases moved
  | act t =>
    simp only [move] at moved
    split at moved
    · cases moved
    · rename_i action rest pending
      exact .act pending moved
  | runtimeCall t call =>
    simp only [move] at moved
    split at moved
    · rename_i idle
      obtain ⟨shared,begun,rfl⟩ := Option.map_eq_some_iff.mp moved
      exact .runtimeCall idle begun
    · cases moved
  | runtimeAct t =>
    simp only [move] at moved
    split at moved
    · cases moved
    · rename_i action rest pending
      obtain ⟨⟨shared,followUps⟩,performed,rfl⟩ := Option.map_eq_some_iff.mp moved
      exact .runtimeAct pending performed

theorem play_runs {schedule : List Move} {s s' : LifecycleController} (played : s.play schedule = some s') :
    Runs s s' := by
  induction schedule generalizing s with
  | nil =>
    cases played
    exact .refl
  | cons next rest ih =>
    obtain ⟨middle,moved,played⟩ := Option.bind_eq_some_iff.mp played
    exact .head (move_step moved) (ih played)

end LifecycleController
end ExpirKv
