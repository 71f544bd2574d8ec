import ExpirKv.Runtime.State
import Mathlib.Logic.Function.Basic
import Mathlib.Logic.Relation

namespace ExpirKv

abbrev ThreadId := Nat

-- What a call still has to do, one atomic access each: a load, a critical section of
-- the gate, the phase lock of one request, or the lock of the stored statistics.
inductive Action where
  | admitWrite (operation : Operation)
  | enqueueWrite (id : RequestId)
  | issueTicket (id : RequestId)
  | markStarted (id : RequestId)
  | markCompleted (id : RequestId)
  | cancelForState (id : RequestId) (state : InstanceState)
  | cancelQueuedWrite (id : RequestId)
  | finishTicket (id : RequestId)
  | finishWrite (id : RequestId)
  | abandonWrite (id : RequestId)
  | latchFailure (target : InstanceState) (error : StorageError)
  | storeState (current : StateSnapshot) (summary : LatchedErrorSummary)
  | closeWriteAdmission
  | publishStats (snapshot : StateSnapshot)
  | updateRuntimeState (snapshot : StateSnapshot) (firstLatchedError : Option LatchedErrorSummary)
  | updateCommitState (headSeq durableSeq : Nat) (durableVlogEnd : Option VLogPosition)
      (activeVlogFileId : Option Nat) (vlogFileCount vlogLogicalBytes : Nat)
  | loadStats
  | snapshotStats (state : StateSnapshot)
  | errorStats (state : StateSnapshot) (snapshot : DbStats)
  | beginRead (operation : Operation) (failure : Option (ReadFailureDomain × StorageError))
  | handleReadFailure (domain : ReadFailureDomain) (error : StorageError) (operation : Operation)
  | completeRead (started : StateSnapshot)
  deriving DecidableEq, Repr

-- A ticket is not cloned: the thread that finishes or drops it takes it.
inductive Ticket where
  | unissued
  | alive
  | taken (holder : ThreadId)
  deriving DecidableEq, Repr

-- What has happened so far. Nothing in the code reads it.
structure Past where
  admitted : List RequestId
  activated : List RequestId
  finished : List RequestId
  withdrawn : List RequestId
  started : List RequestId
  cancelled : List RequestId
  abandoned : List (ThreadId × RequestId)
  upgrades : List (StateSnapshot × LatchedErrorSummary)
  statsReturned : List DbStats
  readsReturned : List StateSnapshot

def Past.none : Past := ⟨[],[],[],[],[],[],[],[],[],[]⟩

structure Shared where
  control : RuntimeControl
  -- The gate stays locked between the two stores of `latch_failure`.
  gateHeldBy : Option ThreadId
  nextRequestId : Nat
  operation : RequestId → Operation
  phase : RequestId → RequestPhase
  ticket : RequestId → Ticket
  past : Past

def Shared.new : Shared := ⟨.new,none,1,fun _ => .put,fun _ => .queued,fun _ => .unissued,.none⟩

-- `stats_invariant_error`, from the coordinator.
def statsInvariantError : StorageError :=
  {StorageError.codecError .corruption .background .maintenance none .restoreOrRepair with
    instanceState := some .poisoned}

namespace Shared

def whileUnlocked (s : Shared) (next : Shared × List Action) : Option (Shared × List Action) :=
  if s.gateHeldBy = none then some next else none

def withPhase (s : Shared) (id : RequestId) (phase : RequestPhase) : Shared :=
  {s with phase := Function.update s.phase id phase}

def withTicket (s : Shared) (id : RequestId) (ticket : Ticket) : Shared :=
  {s with ticket := Function.update s.ticket id ticket}

-- Requests are created in phase `Queued`, which every unused number has.
def admitWrite (s : Shared) (operation : Operation) : Shared × List Action :=
  if s.control.state.instanceState ≠ .healthy then (s,[])
  else
    ({s with
      nextRequestId := s.nextRequestId + 1
      operation := Function.update s.operation s.nextRequestId operation},
     [.enqueueWrite s.nextRequestId])

def enqueueWrite (s : Shared) (id : RequestId) : Shared × List Action :=
  match s.control.enqueueGate id with
  | none => (s,[])
  | some (control,true) =>
    ({s with control,past := {s.past with
        admitted := s.past.admitted ++ [id]
        activated := s.past.activated ++ [id]}},
     [.markStarted id,.issueTicket id])
  | some (control,false) =>
    ({s with control,past := {s.past with admitted := s.past.admitted ++ [id]}},[.issueTicket id])

def markStarted (s : Shared) (id : RequestId) : Shared :=
  let marked := s.withPhase id (s.phase id).markStarted
  if s.phase id = .queued then {marked with past := {s.past with started := s.past.started ++ [id]}} else marked

def markCompleted (s : Shared) (id : RequestId) : Shared := s.withPhase id (s.phase id).markCompleted

def cancelForState (s : Shared) (id : RequestId) (state : InstanceState) : Shared :=
  let marked := s.withPhase id ((s.phase id).cancelForState state)
  if s.phase id = .queued then {marked with past := {s.past with cancelled := s.past.cancelled ++ [id]}} else marked

def withdraw (s : Shared) (id : RequestId) : Shared :=
  {s with control := s.control.withdrawGate id,past := {s.past with withdrawn := s.past.withdrawn ++ [id]}}

def cancelQueuedWrite (s : Shared) (id : RequestId) : Shared × List Action :=
  if id ∈ s.control.gate.orderedQueue then (s.withdraw id,[.cancelForState id .healthy]) else (s,[])

-- `finish_write`, and what its caller does when it returns false.
def finishWrite (s : Shared) (id : RequestId) (otherwise : List Action) : Shared × List Action :=
  match s.control.finishGate id with
  | none => (s,otherwise)
  | some (control,next) =>
    ({s with control,past := {s.past with
        finished := s.past.finished ++ [id]
        activated := s.past.activated ++ next.toList}},
     .markCompleted id :: next.toList.map .markStarted)

def abandonWrite (s : Shared) (t : ThreadId) (id : RequestId) : Shared × List Action :=
  if id ∈ s.control.gate.orderedQueue then (s.withdraw id,[.cancelForState id .healthy])
  else if s.control.gate.activeRequest = some id then
    ({s with past := {s.past with abandoned := s.past.abandoned ++ [(t,id)]}},
     [.latchFailure .poisoned (abandonedActiveWriteError (s.operation id)),.finishWrite id])
  else (s,[])

-- Up to the store of the error; the gate is kept until the state is stored too.
def latchFailure (s : Shared) (t : ThreadId) (target : InstanceState) (error : StorageError) :
    Shared × List Action :=
  let target := requiredFailureState target error
  let summary := LatchedErrorSummary.fromStorageError error
  let previous := s.control.state
  if isUpgrade previous.instanceState target = false then (s,[])
  else
    ({s with
      control := if previous.instanceState = .healthy then s.control.setFirstError summary else s.control
      gateHeldBy := some t},
     [.storeState (RuntimeControl.upgraded previous target) summary])

def storeState (s : Shared) (current : StateSnapshot) (summary : LatchedErrorSummary) : Shared × List Action :=
  ({s with
    control := s.control.storeState current
    gateHeldBy := none
    past := {s.past with
      withdrawn := s.past.withdrawn ++ s.control.gate.orderedQueue
      upgrades := s.past.upgrades ++ [(current,summary)]}},
   s.control.gate.orderedQueue.map (Action.cancelForState · current.instanceState) ++ [.publishStats current])

def closeWriteAdmission (s : Shared) : Shared × List Action :=
  ({s with
    control := s.control.closeGate
    past := {s.past with withdrawn := s.past.withdrawn ++ s.control.gate.orderedQueue}},
   s.control.gate.orderedQueue.map (Action.cancelForState · s.control.state.instanceState))

def updateCommitState (s : Shared) (headSeq durableSeq : Nat) (durableVlogEnd : Option VLogPosition)
    (activeVlogFileId : Option Nat) (vlogFileCount vlogLogicalBytes : Nat) : Shared × List Action :=
  match s.control.stats.updateCommitState headSeq durableSeq durableVlogEnd activeVlogFileId vlogFileCount
      vlogLogicalBytes with
  | none => (s,[.latchFailure .poisoned statsInvariantError])
  | some stats => ({s with control := {s.control with stats}},[])

def beginRead (s : Shared) (operation : Operation) (failure : Option (ReadFailureDomain × StorageError)) :
    List Action :=
  if beginReadAllowed s.control.state then
    match failure with
    | none => [.completeRead s.control.state]
    | some (domain,error) => [.handleReadFailure domain error operation]
  else []

def handleReadFailure (domain : ReadFailureDomain) (error : StorageError) (operation : Operation) : List Action :=
  match failureTarget domain error.kind with
  | none => []
  | some target => [.latchFailure target (readFailureError error domain operation target)]

def completeRead (s : Shared) (started : StateSnapshot) : Shared :=
  if completeReadAllowed started s.control.state then
    {s with past := {s.past with readsReturned := s.past.readsReturned ++ [s.control.state]}}
  else s

-- One atomic step of a thread, with the steps it still has to make because of it.
def perform (s : Shared) (t : ThreadId) : Action → Option (Shared × List Action)
  | .admitWrite operation => some (s.admitWrite operation)
  | .enqueueWrite id => s.whileUnlocked (s.enqueueWrite id)
  | .issueTicket id => some (s.withTicket id .alive,[])
  | .markStarted id => some (s.markStarted id,[])
  | .markCompleted id => some (s.markCompleted id,[])
  | .cancelForState id state => some (s.cancelForState id state,[])
  | .cancelQueuedWrite id => s.whileUnlocked (s.cancelQueuedWrite id)
  | .finishTicket id => s.whileUnlocked (s.finishWrite id [.abandonWrite id])
  | .finishWrite id => s.whileUnlocked (s.finishWrite id [])
  | .abandonWrite id => s.whileUnlocked (s.abandonWrite t id)
  | .latchFailure target error => s.whileUnlocked (s.latchFailure t target error)
  | .storeState current summary => some (s.storeState current summary)
  | .closeWriteAdmission => s.whileUnlocked s.closeWriteAdmission
  | .publishStats snapshot => some (s,[.updateRuntimeState snapshot s.control.firstLatchedError])
  | .updateRuntimeState snapshot first => some ({s with control := s.control.publishStats snapshot first},[])
  | .updateCommitState head durable vlogEnd active count bytes =>
    some (s.updateCommitState head durable vlogEnd active count bytes)
  | .loadStats => some (s,[.snapshotStats s.control.state])
  | .snapshotStats state => some (s,[.errorStats state s.control.stats])
  | .errorStats state snapshot =>
    some ({s with past := {s.past with statsReturned :=
      s.past.statsReturned ++ [RuntimeControl.statsFrom state snapshot s.control.firstLatchedError]}},[])
  | .beginRead operation failure => some (s,s.beginRead operation failure)
  | .handleReadFailure domain error operation => some (s,handleReadFailure domain error operation)
  | .completeRead started => some (s.completeRead started,[])

end Shared

-- The calls a thread may make. A read ends in success unless the index or the value
-- log fails with the given error.
inductive Call where
  | enqueueWrite (operation : Operation)
  | finish (id : RequestId)
  | drop (id : RequestId)
  | cancelQueued (id : RequestId)
  | latchFailure (target : InstanceState) (error : StorageError)
  | closeWriteAdmission
  | updateCommitState (headSeq durableSeq : Nat) (durableVlogEnd : Option VLogPosition)
      (activeVlogFileId : Option Nat) (vlogFileCount vlogLogicalBytes : Nat)
  | stats
  | read (operation : Operation) (failure : Option (ReadFailureDomain × StorageError))
  deriving DecidableEq, Repr

namespace Shared

def noteDrop (s : Shared) (t : ThreadId) (id : RequestId) : Shared :=
  if s.control.gate.activeRequest = some id then
    {s with past := {s.past with abandoned := s.past.abandoned ++ [(t,id)]}}
  else s

def callActions : Call → List Action
  | .enqueueWrite operation => [.admitWrite operation]
  | .finish id => [.finishTicket id]
  | .drop id => [.abandonWrite id]
  | .cancelQueued id => [.cancelQueuedWrite id]
  | .latchFailure target error => [.latchFailure target error]
  | .closeWriteAdmission => [.closeWriteAdmission]
  | .updateCommitState head durable vlogEnd active count bytes =>
    [.updateCommitState head durable vlogEnd active count bytes]
  | .stats => [.loadStats]
  | .read operation failure => [.beginRead operation failure]

-- `finish` and `drop` need the ticket and take it; `cancel_queued` borrows it.
def begin (s : Shared) (t : ThreadId) (call : Call) : Option Shared :=
  match call with
  | .finish id => if s.ticket id = .alive then some (s.withTicket id (.taken t)) else none
  | .drop id => if s.ticket id = .alive then some ((s.noteDrop t id).withTicket id (.taken t)) else none
  | .cancelQueued id => if s.ticket id = .alive then some s else none
  | _ => some s

end Shared

structure Machine where
  shared : Shared
  threads : ThreadId → List Action

namespace Machine

def new : Machine := ⟨.new,fun _ => []⟩

def withThread (m : Machine) (shared : Shared) (t : ThreadId) (actions : List Action) : Machine :=
  ⟨shared,Function.update m.threads t actions⟩

inductive Step (m : Machine) : Machine → Prop
  | call {t : ThreadId} {call : Call} {shared : Shared} :
      m.threads t = [] → m.shared.begin t call = some shared →
      Step m (m.withThread shared t (Shared.callActions call))
  | act {t : ThreadId} {action : Action} {rest followUps : List Action} {shared : Shared} :
      m.threads t = action :: rest → m.shared.perform t action = some (shared,followUps) →
      Step m (m.withThread shared t (followUps ++ rest))

abbrev Runs : Machine → Machine → Prop := Relation.ReflTransGen Step

-- One schedule: the thread that moves next, with the call it makes when it is idle.
def move (m : Machine) : ThreadId × Option Call → Option Machine
  | (t,some call) =>
    if m.threads t = [] then
      (m.shared.begin t call).map (fun shared => m.withThread shared t (Shared.callActions call))
    else none
  | (t,none) =>
    match m.threads t with
    | [] => none
    | action :: rest => (m.shared.perform t action).map (fun next => m.withThread next.1 t (next.2 ++ rest))

def play (m : Machine) : List (ThreadId × Option Call) → Option Machine
  | [] => some m
  | next :: rest => (m.move next).bind (fun m => m.play rest)

theorem move_step {m m' : Machine} {next : ThreadId × Option Call} (moved : m.move next = some m') : Step m m' := by
  obtain ⟨t,_ | call⟩ := next
  · simp only [move] at moved
    split at moved
    · cases moved
    · rename_i action rest pending
      obtain ⟨⟨shared,followUps⟩,performed,rfl⟩ := Option.map_eq_some_iff.mp moved
      exact .act pending performed
  · simp only [move] at moved
    split at moved
    · rename_i idle
      obtain ⟨shared,begun,rfl⟩ := Option.map_eq_some_iff.mp moved
      exact .call idle begun
    · cases moved

theorem play_runs {schedule : List (ThreadId × Option Call)} {m m' : Machine}
    (played : m.play schedule = some m') : Runs m m' := by
  induction schedule generalizing m with
  | nil =>
    cases played
    exact .refl
  | cons next rest ih =>
    obtain ⟨middle,moved,played⟩ := Option.bind_eq_some_iff.mp played
    exact .head (move_step moved) (ih played)

end Machine

end ExpirKv
