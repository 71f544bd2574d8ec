import ExpirKv.Commit.Durability
import ExpirKv.Runtime.Threads
import ExpirKv.Commit.Coordinated

namespace ExpirKv
open VLogGeometry Storage ValueLog

-- `admission_error`, which is also the error of a cancelled request.
def admissionError (operation : Operation) (state : InstanceState) : StorageError :=
  let (kind,retryAdvice) : StorageErrorKind × RetryAdvice := match state with
    | .healthy => (.busy,.retrySameInstance)
    | .writeStopped => (.storageWriteStopped,.fixEnvironmentAndReopen)
    | .poisoned => (.storagePoisoned,.reopenAndVerify)
  {StorageError.codecError kind operation .admission (some .notCommitted) retryAdvice with instanceState := some state}

namespace RuntimeControl

-- `latch_failure` without another thread in between.
def latchFailure (control : RuntimeControl) (target : InstanceState) (error : StorageError) : RuntimeControl :=
  let target := requiredFailureState target error
  let previous := control.state
  if isUpgrade previous.instanceState target = false then control
  else
    let control := if previous.instanceState = .healthy then control.setFirstError (.fromStorageError error) else control
    let current := upgraded previous target
    (control.storeState current).publishStats current control.firstLatchedError

def latchAll (control : RuntimeControl) (failures : List (InstanceState × StorageError)) : RuntimeControl :=
  failures.foldl (fun control failure => control.latchFailure failure.1 failure.2) control

end RuntimeControl

namespace ValueLogWriter

def activeFileId (writer : ValueLogWriter) : Option Nat :=
  match writer.state with
  | .open fileId _ => some fileId
  | _ => none

def fileCount (writer : ValueLogWriter) : Nat :=
  match writer.state with
  | .empty => 0
  | .open fileId _ => min (fileId + 1) 4294967295
  | .atFileLimit lastFileId => min (lastFileId + 1) 4294967295

def logicalBytes (writer : ValueLogWriter) : Nat :=
  min (min (writer.position.fileId * writer.geometry.maxFileSize) 18446744073709551615 + writer.position.offset)
    18446744073709551615

end ValueLogWriter

structure CommitState where
  headSeq : Nat
  durableFrontier : DurableFrontier
  headVlogSeq : Nat
  headVlogEnd : Option VLogPosition
  deriving DecidableEq, Repr

-- The index, the files and the writer are the log. The mutexes are left out: the write gate starts one
-- request at a time, and nothing but a request takes them.
structure CommitCoordinator where
  runtime : RuntimeControl
  log : ValueLog
  state : CommitState

-- How a call can end early: with an error, or in an `expect` that fails.
inductive Halt where
  | panicked
  | failed (error : StorageError)
  deriving DecidableEq, Repr

-- What a request meets besides the answers of the storage: reads of the index that fail, the random source, whether
-- each group of reservations succeeds, and what other threads latch until its own failure is latched and after it.
structure Surroundings where
  refused : Bytes → Option StorageError
  uuidSource : Except IoError Uuid
  allocated : Bool
  reserved : Bool
  framed : Bool
  latchedBefore : List (InstanceState × StorageError)
  latchedAfter : List (InstanceState × StorageError)

def Surroundings.getUser (around : Surroundings) (index : Index) (key : Bytes) : Result (Option Bytes) :=
  match around.refused key with
  | some error => .error error
  | none => .ok index.user[key]?

def frontierFromOptional (seq vlogSeq : Nat) (vlogEnd : Option VLogPosition) : DurableFrontier :=
  match vlogSeq,vlogEnd with
  | 0,none => ⟨seq,0,none⟩
  | _,some position => ⟨seq,vlogSeq,some position⟩
  | _,_ => ⟨seq,vlogSeq,none⟩

def initialStateError : StorageError := .codecError .invalidLayout .open .preflight none .restoreOrRepair

def validateInitialState (headSeq : Nat) (frontier : DurableFrontier) (headVlogSeq : Nat)
    (headVlogEnd : Option VLogPosition) (writer : ValueLogWriter) : Result Unit := do
  (frontier.validateAgainstHead headSeq).mapError (fun _ => initialStateError)
  let validLogicalFrontier := frontier.durableSeq = headSeq ∧ frontier.durableVlogSeq = headVlogSeq ∧
    headVlogSeq ≤ headSeq ∧ frontier.durableVlogEnd = headVlogEnd
  let validVlogFrontier : Bool := match headVlogSeq,headVlogEnd with
    | 0,none => writer.position = ⟨0,0⟩
    | 0,some _ => false
    | _,none => false
    | _,some vlogEnd => vlogEnd = writer.position
  rejectIf (writer.databaseUuid.isZero ∨ ¬validLogicalFrontier ∨ validVlogFrontier = false) initialStateError

def classifyVlogAppendFailure (error : StorageError) (terminal : Bool) : InstanceState :=
  if terminal = false then .healthy
  else if error.kind = .capacityExceeded ∨ error.osCode = some 28 ∨ error.osCode = some 30 ∨ error.osCode = some 69 ∨
      error.osCode = some 122 then .writeStopped
  else .poisoned

def remapWriterOperation (error : StorageError) (operation : Operation) : StorageError := {error with operation}

def identifiedAs (error : StorageError) (identity : Option (Nat × Uuid)) : StorageError :=
  match identity with
  | some (commitSeq,txUuid) => {error with commitSeq := some commitSeq,txUuid := some txUuid}
  | none => error

def mapIndexCommitError (error : IndexCommitError) (operation : Operation) (stage : ProtocolStage)
    (identity : Option (Nat × Uuid)) : StorageError × InstanceState :=
  let (outcome,state,retry) : WriteOutcome × InstanceState × RetryAdvice := match error.applyState,error.source.kind with
    | .unknown,_ => (.commitUnknown,.poisoned,.reopenAndVerify)
    | .notApplied,.corruption | .notApplied,.invalidLayout | .notApplied,.unrecoverable =>
      (.notCommitted,.poisoned,.restoreOrRepair)
    | .notApplied,.incompatibleFormat => (.notCommitted,.poisoned,.doNotRetry)
    | .notApplied,.io | .notApplied,.storagePoisoned => (.notCommitted,.poisoned,.reopenAndVerify)
    | .notApplied,_ => (.notCommitted,.writeStopped,.fixEnvironmentAndReopen)
  let mapped := {StorageError.writeProtocol error.source.kind operation stage outcome state retry with
    osCode := error.source.osCode}
  (identifiedAs mapped identity,state)

def retryForState (error : StorageError) (state : InstanceState) : RetryAdvice :=
  if error.writeOutcome = some .commitUnknown then .reopenAndVerify
  else if error.instanceState = some state then error.retryAdvice
  else
    match state,error.kind with
    | .healthy,_ => error.retryAdvice
    | .writeStopped,_ => .fixEnvironmentAndReopen
    | .poisoned,.corruption | .poisoned,.invalidLayout | .poisoned,.unrecoverable => .restoreOrRepair
    | .poisoned,.incompatibleFormat => .doNotRetry
    | .poisoned,_ => .reopenAndVerify

namespace CommitCoordinator

def onLog {ε α : Type} (x : Eff ValueLog ε α) : Eff CommitCoordinator ε α :=
  x.within CommitCoordinator.log (fun coordinator log => {coordinator with log})

def onRuntime {ε : Type} (change : RuntimeControl → RuntimeControl) : Eff CommitCoordinator ε Unit :=
  modify (fun coordinator => {coordinator with runtime := change coordinator.runtime})

def statsPublished (coordinator : CommitCoordinator) : RuntimeControl :=
  let state := coordinator.state
  let writer := coordinator.log.writer
  match coordinator.runtime.stats.updateCommitState state.headSeq state.durableFrontier.durableSeq
      state.durableFrontier.durableVlogEnd writer.activeFileId writer.fileCount writer.logicalBytes with
  | some stats => {coordinator.runtime with stats}
  | none => coordinator.runtime.latchFailure .poisoned statsInvariantError

def publishStats {ε : Type} : Eff CommitCoordinator ε Unit :=
  modify (fun coordinator => {coordinator with runtime := coordinator.statsPublished})

def new (runtime : RuntimeControl) (log : ValueLog) (headSeq : Nat) (durableFrontier : DurableFrontier)
    (headVlogSeq : Nat) (headVlogEnd : Option VLogPosition) : Result CommitCoordinator := do
  validateInitialState headSeq durableFrontier headVlogSeq headVlogEnd log.writer
  let coordinator : CommitCoordinator := ⟨runtime,log,⟨headSeq,durableFrontier,headVlogSeq,headVlogEnd⟩⟩
  return {coordinator with runtime := coordinator.statsPublished}

-- A request that has to wait starts or is cancelled; what it waits for happens between the requests here.
def startRequest (operation : Operation) : Eff CommitCoordinator Halt Unit := do
  let runtime := (← get).runtime
  if runtime.state.instanceState ≠ .healthy ∨ runtime.gate.acceptingWrites = false then
    throw (.failed (admissionError operation runtime.state.instanceState))

-- `Option::expect` on the guard of the writer.
def expectWriter (held : Bool) : Eff CommitCoordinator Halt Unit :=
  if held then return () else throw .panicked

def failStarted {α : Type} (error : StorageError) (requestedState : Option InstanceState)
    (identity : Option (Nat × Uuid)) (around : Surroundings) : Eff CommitCoordinator Halt α := do
  let error := identifiedAs error identity
  let target := requiredFailureState ((requestedState.or error.instanceState).getD .healthy) error
  let error := {error with retryAdvice := retryForState error target,instanceState := some target}
  onRuntime (fun runtime => runtime.latchAll around.latchedBefore)
  if target ≠ .healthy then onRuntime (fun runtime => runtime.latchFailure target error)
  onRuntime (fun runtime => runtime.latchAll around.latchedAfter)
  let state := (← get).runtime.state.instanceState
  publishStats
  throw (.failed {error with retryAdvice := retryForState error state,instanceState := some state})

def finishFrontierAfterSuccess (synced : FrontierSync) (operation : Operation) : Eff CommitCoordinator Halt Unit := do
  match ← (onLog (frontierSucceeded synced)).attempt with
  | .ok () => return ()
  | .error error =>
    onRuntime (fun runtime => runtime.latchFailure .poisoned
      {error with operation,instanceState := some .poisoned,retryAdvice := .reopenAndVerify})

-- Both ends of a frontier: with a token the guard has to be there.
def settleSucceeded (synced : Option FrontierSync) (held : Bool) (operation : Operation) :
    Eff CommitCoordinator Halt Unit :=
  match synced with
  | some synced => do
    expectWriter held
    finishFrontierAfterSuccess synced operation
  | none => return ()

def settleFailed (synced : Option FrontierSync) (held : Bool) : Eff CommitCoordinator Halt Unit :=
  match synced with
  | some synced => do
    expectWriter held
    let _ ← (onLog (frontierFailed synced)).attempt
    return ()
  | none => return ()

-- The commit state behind a nonempty commit.
def committedState (state : CommitState) (commitSeq : Nat) (kind : TransactionKind) (targetVlogSeq : Nat)
    (targetVlogEnd : Option VLogPosition) (frontier : Option DurableFrontier) : CommitState :=
  let state := {state with headSeq := commitSeq}
  let state := match kind with
    | .vlogEnvelope => {state with headVlogSeq := targetVlogSeq,headVlogEnd := targetVlogEnd}
    | .indexOnlyDelete => state
  {state with durableFrontier := frontier.getD state.durableFrontier}

def publishNonemptySuccess (commitSeq : Nat) (kind : TransactionKind) (targetVlogSeq : Nat)
    (targetVlogEnd : Option VLogPosition) (frontier : Option DurableFrontier) : Eff CommitCoordinator Halt Unit := do
  modify (fun coordinator => {coordinator with
    state := committedState coordinator.state commitSeq kind targetVlogSeq targetVlogEnd frontier})
  publishStats

def publishEmptyBarrierSuccess (frontier : DurableFrontier) : Eff CommitCoordinator Halt Unit := do
  modify (fun coordinator => {coordinator with state := {coordinator.state with durableFrontier := frontier}})
  publishStats

-- The end of the log behind a prepared commit.
def vlogTarget (state : CommitState) (prepared : PreparedCommit) : Nat × Option VLogPosition :=
  match prepared.envelope with
  | some envelope => (prepared.commitSeq,some envelope.vlogEnd)
  | none => (state.headVlogSeq,state.headVlogEnd)

section commit
variable [Crc32c]

def addFrontier (batch : IndexAtomicBatch) (frontier : Option DurableFrontier) (operation : Operation) (framed : Bool) :
    Result IndexAtomicBatch :=
  match frontier with
  | some frontier => addFrontierToBatch batch frontier operation framed
  | none => .ok batch

-- The guard is there when the preparation had the writer.
def appendPrepared (prepared : PreparedCommit) (held : Bool) (operation : Operation) (around : Surroundings) :
    Eff CommitCoordinator Halt Unit :=
  match prepared.envelope with
  | none => return ()
  | some envelope => do
    expectWriter held
    match ← (onLog (append envelope)).attempt with
    | .ok () => return ()
    | .error error => do
      let terminal := (← get).log.writer.appendFailed
      let error := remapWriterOperation error operation
      failStarted error (some (classifyVlogAppendFailure error terminal)) (some (prepared.commitSeq,prepared.txUuid)) around

-- `sync_through` when it is due, with the token it hands out.
def syncTarget (needed : Bool) (targetSeq : Nat) (targetEnd : Option VLogPosition) (operation : Operation)
    (identity : Option (Nat × Uuid)) (around : Surroundings) : Eff CommitCoordinator Halt (Option FrontierSync) :=
  if needed then do
    match ← (onLog (syncThrough targetSeq targetEnd)).attempt with
    | .ok synced => return some synced
    | .error error => failStarted (remapWriterOperation error operation) (some .poisoned) identity around
  else return none

def commitPrepared (prepared : PreparedCommit) (write : ValidatedWrite) (sync : Bool) (state : CommitState)
    (around : Surroundings) : Eff CommitCoordinator Halt Unit := do
  let operation := write.publicOperation
  let held := decide (write.transactionKind = .vlogEnvelope)
  let target := vlogTarget state prepared
  let frontier := if sync then some (frontierFromOptional prepared.commitSeq target.1 target.2) else none
  match addFrontier prepared.indexBatch frontier operation around.framed with
  | .error error => failStarted error none none around
  | .ok batch => do
    let identity := some (prepared.commitSeq,prepared.txUuid)
    appendPrepared prepared held operation around
    let needed := sync && decide (target.1 > state.durableFrontier.durableVlogSeq)
    let synced ← syncTarget needed target.1 target.2 operation identity around
    match ← (onLog (onStorage (commitAtomic batch (if sync then .syncAll else .buffer)))).attempt with
    | .ok () => do
      settleSucceeded synced (held || needed) operation
      publishNonemptySuccess prepared.commitSeq write.transactionKind target.1 target.2 frontier
    | .error error => do
      settleFailed synced (held || needed)
      let (error,target) := mapIndexCommitError error operation .indexCommit identity
      failStarted error (some target) none around

def prepare (coordinator : CommitCoordinator) (write : ValidatedWrite) (around : Surroundings) : Result PreparedCommit :=
  prepareCommit write coordinator.state.headSeq (coordinatorContext write coordinator.log.writer)
    (around.getUser coordinator.log.storage.index) around.uuidSource around.allocated

def commitStarted (write : ValidatedWrite) (sync : Bool) (around : Surroundings) : Eff CommitCoordinator Halt Unit := do
  startRequest write.publicOperation
  let coordinator ← get
  match coordinator.prepare write around with
  | .error error => failStarted error none none around
  | .ok prepared => commitPrepared prepared write sync coordinator.state around

def commitEmptyBarrier (around : Surroundings) : Eff CommitCoordinator Halt Unit := do
  let captured := (← get).state
  if captured.headSeq = captured.durableFrontier.durableSeq then return ()
  else do
    let frontier := frontierFromOptional captured.headSeq captured.headVlogSeq captured.headVlogEnd
    match frontierOnlyBatch frontier .writeBatch around.reserved around.framed with
    | .error error => failStarted error none none around
    | .ok batch => do
      let needed := decide (captured.headVlogSeq > captured.durableFrontier.durableVlogSeq)
      let synced ← syncTarget needed captured.headVlogSeq captured.headVlogEnd .writeBatch none around
      if (← get).state.durableFrontier.durableSeq ≥ captured.headSeq then settleSucceeded synced needed .writeBatch
      else do
        match ← (onLog (onStorage (commitAtomic batch .syncAll))).attempt with
        | .ok () => do
          settleSucceeded synced needed .writeBatch
          publishEmptyBarrierSuccess frontier
        | .error error => do
          settleFailed synced needed
          let (error,target) := mapIndexCommitError error .writeBatch .durableFrontier none
          failStarted error (some target) none around

def commitNonempty (write : ValidatedWrite) (around : Surroundings) : Eff CommitCoordinator Halt Unit :=
  commitStarted write write.sync around

def commitEmptyBatch (sync : Bool) (around : Surroundings) : Eff CommitCoordinator Halt Unit := do
  startRequest .writeBatch
  if sync then commitEmptyBarrier around

end commit

end CommitCoordinator

inductive WriteRequest where
  | nonempty (write : ValidatedWrite)
  | empty (sync : Bool)

def WriteRequest.operation : WriteRequest → Operation
  | .nonempty write => write.publicOperation
  | .empty _ => .writeBatch

def CommitCoordinator.commit [Crc32c] (request : WriteRequest) (around : Surroundings) :
    Eff CommitCoordinator Halt Unit :=
  match request with
  | .nonempty write => commitNonempty write around
  | .empty sync => commitEmptyBatch sync around

end ExpirKv
