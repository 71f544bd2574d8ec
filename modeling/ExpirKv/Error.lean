import ExpirKv.Library.Results

namespace ExpirKv

inductive WriteOutcome where
  | notCommitted
  | commitUnknown
  deriving DecidableEq, Repr

inductive InstanceState where
  | healthy
  | writeStopped
  | poisoned
  deriving DecidableEq, Repr

inductive RetryAdvice where
  | fixRequestAndRetrySameInstance
  | retrySameInstance
  | fixEnvironmentAndReopen
  | reopenAndVerify
  | restoreOrRepair
  | doNotRetry
  deriving DecidableEq, Repr

inductive StorageErrorKind where
  | invalidArgument
  | notFound
  | busy
  | unsupported
  | resourceExhausted
  | capacityExceeded
  | io
  | corruption
  | invalidLayout
  | incompatibleFormat
  | storageWriteStopped
  | storagePoisoned
  | unrecoverable
  deriving DecidableEq, Repr

inductive Operation where
  | open
  | put
  | delete
  | writeBatch
  | get
  | snapshot
  | iterator
  | range
  | sync
  | destroy
  | drop
  | background
  | recovery
  deriving DecidableEq, Repr

inductive ProtocolStage where
  | admission
  | preflight
  | vlogAppend
  | vlogSync
  | indexCommit
  | durableFrontier
  | read
  | recovery
  | maintenance
  | lifecycle
  deriving DecidableEq, Repr

-- A sixteen-byte identity; the length travels with the bytes.
abbrev Uuid := {bytes : Bytes // bytes.length = 16}

def Uuid.isZero (uuid : Uuid) : Bool := uuid.val.all (fun byte => byte == 0)

-- The parts of an error that the protocol reads. The message, the boxed source
-- and the destroy context are never consulted by the modelled code.
structure StorageError where
  kind : StorageErrorKind
  operation : Operation
  protocolStage : ProtocolStage
  writeOutcome : Option WriteOutcome
  instanceState : Option InstanceState
  retryAdvice : RetryAdvice
  osCode : Option Int := none
  commitSeq : Option Nat := none
  txUuid : Option Uuid := none
  vlogFileId : Option Nat := none
  vlogOffset : Option Nat := none
  deriving DecidableEq, Repr

abbrev Result (α : Type) := Except StorageError α

namespace StorageError

def writePreflightInState (kind : StorageErrorKind) (operation : Operation) (instanceState : InstanceState)
    (retryAdvice : RetryAdvice) : StorageError :=
  {kind, operation, protocolStage := .preflight, writeOutcome := some .notCommitted,
   instanceState := some instanceState, retryAdvice}

def writePreflight (kind : StorageErrorKind) (operation : Operation) (retryAdvice : RetryAdvice) : StorageError :=
  writePreflightInState kind operation .healthy retryAdvice

def writeProtocol (kind : StorageErrorKind) (operation : Operation) (protocolStage : ProtocolStage)
    (writeOutcome : WriteOutcome) (instanceState : InstanceState) (retryAdvice : RetryAdvice) : StorageError :=
  {kind, operation, protocolStage, writeOutcome := some writeOutcome,
   instanceState := some instanceState, retryAdvice}

def readOperationError (kind : StorageErrorKind) (operation : Operation) (instanceState : InstanceState)
    (retryAdvice : RetryAdvice) : StorageError :=
  {kind, operation, protocolStage := .read, writeOutcome := none, instanceState := some instanceState, retryAdvice}

def readError (kind : StorageErrorKind) (instanceState : InstanceState) (retryAdvice : RetryAdvice) : StorageError :=
  readOperationError kind .get instanceState retryAdvice

def codecError (kind : StorageErrorKind) (operation : Operation) (protocolStage : ProtocolStage)
    (writeOutcome : Option WriteOutcome) (retryAdvice : RetryAdvice) : StorageError :=
  {kind, operation, protocolStage, writeOutcome, instanceState := none, retryAdvice}

end StorageError

-- `std::io::ErrorKind`, as far as the code distinguishes it.
inductive IoErrorKind where
  | interrupted
  | wouldBlock
  | storageFull
  | writeZero
  | notFound
  | other
  deriving DecidableEq, Repr

structure IoError where
  kind : IoErrorKind
  rawOsError : Option Int := none
  deriving DecidableEq, Repr

-- `recovery_context`: the same rewriting in the reader, the recovery module and the index.
def recoveryContext (error : StorageError) : StorageError :=
  {error with operation := .open, protocolStage := .recovery, writeOutcome := none, instanceState := none}

@[simp] theorem recoveryContext_kind (error : StorageError) : (recoveryContext error).kind = error.kind := rfl

-- `recovery_corruption`.
def recoveryCorruption : StorageError :=
  .codecError .corruption .open .recovery none .restoreOrRepair

def recoveryCorruptionAt (fileId offset : Nat) : StorageError :=
  {recoveryCorruption with vlogFileId := some fileId, vlogOffset := some offset}

def isRejectableEnvelopeError (kind : StorageErrorKind) : Bool :=
  match kind with
  | .corruption | .invalidLayout | .incompatibleFormat => true
  | _ => false

-- What a decoder may answer on arbitrary bytes.
def Rejectable (error : StorageError) : Prop := isRejectableEnvelopeError error.kind = true

@[simp] theorem recoveryCorruption_rejectable : Rejectable recoveryCorruption := rfl
@[simp] theorem recoveryCorruptionAt_rejectable (fileId offset : Nat) :
    Rejectable (recoveryCorruptionAt fileId offset) := rfl

theorem FailsWith.recoveryContext {x : Result α} (inner : FailsWith Rejectable x) :
    FailsWith Rejectable (x.mapError recoveryContext) := failsWith_mapError.mpr inner

end ExpirKv
