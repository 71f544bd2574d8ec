import ExpirKv.Vlog.Geometry

namespace ExpirKv

structure LatchedErrorSummary where
  kind : StorageErrorKind
  operation : Operation
  protocolStage : ProtocolStage
  retryAdvice : RetryAdvice
  osCode : Option Int
  commitSeq : Option Nat
  vlogFileId : Option Nat
  vlogOffset : Option Nat
  deriving DecidableEq, Repr

def LatchedErrorSummary.fromStorageError (error : StorageError) : LatchedErrorSummary :=
  ⟨error.kind,error.operation,error.protocolStage,error.retryAdvice,error.osCode,error.commitSeq,error.vlogFileId,
    error.vlogOffset⟩

structure DbStats where
  schemaVersion : Nat
  instanceState : InstanceState
  stateEpoch : Nat
  firstLatchedError : Option LatchedErrorSummary
  headSeq : Nat
  durableSeq : Nat
  durabilityLag : Nat
  durableVlogEnd : Option VLogPosition
  activeVlogFileId : Option Nat
  vlogFileCount : Nat
  vlogLogicalBytes : Nat
  deriving DecidableEq, Repr

namespace DbStats

def new : DbStats := ⟨1,.healthy,0,none,0,0,0,none,none,0,0⟩

-- A snapshot of an older epoch is dropped.
def updateRuntimeState (stats : DbStats) (instanceState : InstanceState) (stateEpoch : Nat)
    (firstLatchedError : Option LatchedErrorSummary) : DbStats :=
  if stateEpoch > stats.stateEpoch ∨ (stateEpoch = stats.stateEpoch ∧ instanceState = stats.instanceState) then
    {stats with instanceState,stateEpoch,firstLatchedError}
  else stats

def updateCommitState (stats : DbStats) (headSeq durableSeq : Nat) (durableVlogEnd : Option VLogPosition)
    (activeVlogFileId : Option Nat) (vlogFileCount vlogLogicalBytes : Nat) : Option DbStats :=
  if headSeq < durableSeq then none
  else some {stats with
    headSeq
    durableSeq
    durabilityLag := headSeq - durableSeq
    durableVlogEnd
    activeVlogFileId
    vlogFileCount
    vlogLogicalBytes}

end DbStats

structure StateSnapshot where
  instanceState : InstanceState
  stateEpoch : Nat
  deriving DecidableEq, Repr

def stateRank : InstanceState → Nat
  | .healthy => 0
  | .writeStopped => 1
  | .poisoned => 2

def isUpgrade (current target : InstanceState) : Bool := decide (stateRank target > stateRank current)

-- The state in the two low bits of a 64-bit word, the epoch above it.
def encodeState (snapshot : StateSnapshot) : Nat :=
  (snapshot.stateEpoch <<< 2) % 2 ^ 64 ||| stateRank snapshot.instanceState

def decodeState (word : Nat) : StateSnapshot :=
  ⟨match word &&& 3 with
    | 0 => .healthy
    | 1 => .writeStopped
    | _ => .poisoned,
   word >>> 2⟩

theorem stateRank_lt (state : InstanceState) : stateRank state < 2 ^ 2 := by cases state <;> decide

theorem decodeState_encodeState {snapshot : StateSnapshot} (bounded : snapshot.stateEpoch < 2 ^ 62) :
    decodeState (encodeState snapshot) = snapshot := by
  obtain ⟨state,epoch⟩ := snapshot
  have rank := stateRank_lt state
  have word : encodeState ⟨state,epoch⟩ = epoch * 4 + stateRank state := by
    have fits : (epoch <<< 2) % 2 ^ 64 = epoch <<< 2 := by
      rw [Nat.shiftLeft_eq]
      exact Nat.mod_eq_of_lt (by simp only at bounded; omega)
    rw [encodeState,fits,← Nat.shiftLeft_add_eq_or_of_lt rank,Nat.shiftLeft_eq]
  have low : (epoch * 4 + stateRank state) &&& 3 = stateRank state := by
    rw [show 3 = 2 ^ 2 - 1 from rfl,Nat.and_two_pow_sub_one_eq_mod]
    omega
  have high : (epoch * 4 + stateRank state) >>> 2 = epoch := by
    rw [Nat.shiftRight_eq_div_pow]
    omega
  rw [word,decodeState,low,high]
  cases state <;> rfl

-- The state an error forces, whatever its reporter asked for.
def errorFailureState (error : StorageError) : InstanceState :=
  if error.writeOutcome = some .commitUnknown ∨ error.protocolStage = .vlogSync ∨
      error.kind = .corruption ∨ error.kind = .invalidLayout ∨ error.kind = .incompatibleFormat ∨
      error.kind = .storagePoisoned ∨ error.kind = .unrecoverable then .poisoned
  else if error.kind = .storageWriteStopped then .writeStopped
  else .healthy

def requiredFailureState (target : InstanceState) (error : StorageError) : InstanceState :=
  let required := errorFailureState error
  if stateRank required > stateRank target then required else target

theorem requiredFailureState_poisoned (error : StorageError) :
    requiredFailureState .poisoned error = .poisoned := by
  unfold requiredFailureState
  cases errorFailureState error <;> rfl

-- Requests are told apart by the number they take from a process-wide counter.
abbrev RequestId := Nat

structure WriteGateInner where
  acceptingWrites : Bool
  orderedQueue : List RequestId
  activeRequest : Option RequestId
  deriving DecidableEq, Repr

def WriteGateInner.new : WriteGateInner := ⟨true,[],none⟩

inductive RequestPhase where
  | queued
  | started
  | cancelled (state : InstanceState)
  | completed
  deriving DecidableEq, Repr

namespace RequestPhase

def markStarted : RequestPhase → RequestPhase
  | .queued => .started
  | phase => phase

def markCompleted : RequestPhase → RequestPhase
  | .started => .completed
  | phase => phase

def cancelForState (state : InstanceState) : RequestPhase → RequestPhase
  | .queued => .cancelled state
  | phase => phase

end RequestPhase

def abandonedActiveWriteError (operation : Operation) : StorageError :=
  {StorageError.codecError .storagePoisoned operation .lifecycle (some .commitUnknown) .reopenAndVerify with
    instanceState := some .poisoned}

structure RuntimeControl where
  stateWord : Nat
  firstLatchedError : Option LatchedErrorSummary
  gate : WriteGateInner
  stats : DbStats
  deriving DecidableEq, Repr

namespace RuntimeControl

def state (control : RuntimeControl) : StateSnapshot := decodeState control.stateWord

def publishStats (control : RuntimeControl) (snapshot : StateSnapshot)
    (firstLatchedError : Option LatchedErrorSummary) : RuntimeControl :=
  {control with
    stats := control.stats.updateRuntimeState snapshot.instanceState snapshot.stateEpoch firstLatchedError}

def new : RuntimeControl :=
  publishStats ⟨encodeState ⟨.healthy,0⟩,none,.new,.new⟩ ⟨.healthy,0⟩ none

-- The part of `enqueue_write` under the gate: refused, active at once, or queued.
def enqueueGate (control : RuntimeControl) (id : RequestId) : Option (RuntimeControl × Bool) :=
  if control.state.instanceState ≠ .healthy ∨ control.gate.acceptingWrites = false then none
  else if control.gate.activeRequest = none ∧ control.gate.orderedQueue = [] then
    some ({control with gate := {control.gate with activeRequest := some id}},true)
  else some ({control with gate := {control.gate with orderedQueue := control.gate.orderedQueue ++ [id]}},false)

-- `finish_write` under the gate, with the request that becomes active.
def finishGate (control : RuntimeControl) (id : RequestId) : Option (RuntimeControl × Option RequestId) :=
  if control.gate.activeRequest ≠ some id then none
  else if control.state.instanceState = .healthy ∧ control.gate.acceptingWrites = true then
    match control.gate.orderedQueue with
    | next :: rest => some ({control with gate := {control.gate with orderedQueue := rest,activeRequest := some next}},some next)
    | [] => some ({control with gate := {control.gate with activeRequest := none}},none)
  else some ({control with gate := {control.gate with activeRequest := none}},none)

-- `cancel_queued_write` and the first half of `abandon_write` take the request out of the queue.
def withdrawGate (control : RuntimeControl) (id : RequestId) : RuntimeControl :=
  {control with gate := {control.gate with orderedQueue := control.gate.orderedQueue.erase id}}

def closeGate (control : RuntimeControl) : RuntimeControl :=
  {control with gate := {control.gate with acceptingWrites := false,orderedQueue := []}}

-- `first_latched_error.set` keeps the error that is there.
def setFirstError (control : RuntimeControl) (summary : LatchedErrorSummary) : RuntimeControl :=
  {control with firstLatchedError := some (control.firstLatchedError.getD summary)}

def upgraded (previous : StateSnapshot) (target : InstanceState) : StateSnapshot :=
  ⟨target,min (previous.stateEpoch + 1) (2 ^ 64 - 1)⟩

def storeState (control : RuntimeControl) (current : StateSnapshot) : RuntimeControl :=
  {control.closeGate with stateWord := encodeState current}

-- `stats()` from the three things it reads.
def statsFrom (state : StateSnapshot) (snapshot : DbStats) (firstLatchedError : Option LatchedErrorSummary) : DbStats :=
  {snapshot with
    instanceState := state.instanceState
    stateEpoch := state.stateEpoch
    firstLatchedError := if state.instanceState = .healthy then none else firstLatchedError}

end RuntimeControl

inductive ReadFailureDomain where
  | index
  | valueLog
  deriving DecidableEq, Repr

def failureTarget (domain : ReadFailureDomain) (kind : StorageErrorKind) : Option InstanceState :=
  match domain,kind with
  | _,.busy | _,.resourceExhausted => none
  | .valueLog,.io | .valueLog,.storageWriteStopped => some .writeStopped
  | .index,.storageWriteStopped => some .writeStopped
  | _,_ => some .poisoned

def readRetryAdvice (_ : ReadFailureDomain) (kind : StorageErrorKind) (finalState : InstanceState) : RetryAdvice :=
  if finalState = .poisoned then
    match kind with
    | .corruption | .invalidLayout | .unrecoverable => .restoreOrRepair
    | .incompatibleFormat | .invalidArgument | .notFound | .unsupported | .capacityExceeded => .doNotRetry
    | .busy | .resourceExhausted | .io | .storageWriteStopped | .storagePoisoned => .reopenAndVerify
  else
    match kind with
    | .invalidArgument => .fixRequestAndRetrySameInstance
    | .busy | .resourceExhausted => .retrySameInstance
    | .io | .storageWriteStopped => .fixEnvironmentAndReopen
    | .storagePoisoned => .reopenAndVerify
    | .corruption | .invalidLayout | .unrecoverable => .restoreOrRepair
    | .incompatibleFormat | .notFound | .unsupported | .capacityExceeded => .doNotRetry

-- The error `handle_read_failure` hands to the latch.
def readFailureError (error : StorageError) (domain : ReadFailureDomain) (operation : Operation)
    (target : InstanceState) : StorageError :=
  {error with
    operation
    protocolStage := .read
    writeOutcome := none
    retryAdvice := readRetryAdvice domain error.kind target}

-- `begin_read` and `complete_read` on the state they load.
def beginReadAllowed (state : StateSnapshot) : Bool := state.instanceState != .poisoned

def completeReadAllowed (started current : StateSnapshot) : Bool :=
  !(current.instanceState == .poisoned && current.stateEpoch != started.stateEpoch)

end ExpirKv
