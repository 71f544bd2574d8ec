import ExpirKv.Index
import ExpirKv.Vlog.Envelope

namespace ExpirKv
open VLogGeometry

def invalidArgument (operation : Operation) : StorageError :=
  .writePreflight .invalidArgument operation .fixRequestAndRetrySameInstance

def capacityExceeded (operation : Operation) : StorageError :=
  .writePreflight .capacityExceeded operation .fixRequestAndRetrySameInstance

def permanentCapacityExceeded (operation : Operation) : StorageError :=
  .writePreflight .capacityExceeded operation .doNotRetry

def resourceExhausted (operation : Operation) : StorageError :=
  .writePreflight .resourceExhausted operation .retrySameInstance

def remapPreflight (error : StorageError) (operation : Operation) : StorageError :=
  let mapped : InstanceState × RetryAdvice :=
    match error.kind with
    | .resourceExhausted => (.healthy,.retrySameInstance)
    | .corruption | .invalidLayout => (.poisoned,.restoreOrRepair)
    | .incompatibleFormat => (.poisoned,.doNotRetry)
    | .capacityExceeded =>
      if error.retryAdvice = .doNotRetry then (.healthy,.doNotRetry) else (.healthy,.fixRequestAndRetrySameInstance)
    | _ => (.healthy,.fixRequestAndRetrySameInstance)
  {(StorageError.writePreflightInState error.kind operation mapped.1 mapped.2) with osCode := error.osCode}

def remapIndexRead (error : StorageError) (operation : Operation) : StorageError :=
  let mapped : InstanceState × RetryAdvice :=
    match error.kind with
    | .resourceExhausted | .busy => (.healthy,.retrySameInstance)
    | .storageWriteStopped => (.writeStopped,.fixEnvironmentAndReopen)
    | .io | .storagePoisoned => (.poisoned,.reopenAndVerify)
    | .corruption | .invalidLayout | .unrecoverable => (.poisoned,.restoreOrRepair)
    | .incompatibleFormat => (.poisoned,.doNotRetry)
    | .invalidArgument | .notFound | .unsupported | .capacityExceeded => (.poisoned,.doNotRetry)
  {(StorageError.writePreflightInState error.kind operation mapped.1 mapped.2) with osCode := error.osCode}

def storedPointerError (kind : StorageErrorKind) (operation : Operation) : StorageError :=
  .writePreflightInState kind operation .poisoned
    (if kind = .incompatibleFormat then .doNotRetry else .restoreOrRepair)

def remapStoredPointer (error : StorageError) (operation : Operation) : StorageError :=
  {(storedPointerError error.kind operation) with osCode := error.osCode}

def mapIndexConstructionError (error : InternalIndexError) (operation : Operation) : StorageError :=
  .writePreflight error.kind operation
    (if error.kind = .resourceExhausted then .retrySameInstance else .fixRequestAndRetrySameInstance)

section preflight

def validateKey (key : Bytes) (operation : Operation) : Result Unit := do
  rejectIf (key.isEmpty ∨ key.length > maxKeyValueSize) (invalidArgument operation)
  rejectIf (key.length ≥ 65536) (capacityExceeded operation)

def validatePut (key value : Bytes) (operation : Operation) : Result Unit := do
  validateKey key operation
  rejectIf (value.length ≥ 65536) (capacityExceeded operation)
  rejectIf (key.length + value.length > maxKeyValueSize) (invalidArgument operation)

def validateOperationCount (operationCount maxOperationCount : Nat) (operation : Operation) : Result Unit :=
  rejectIf (operationCount > maxOperationCount ∨ operationCount ≥ 4294967296) (capacityExceeded operation)

def validatePutEncoding (key value : Bytes) (operation : Operation) : Result Unit := do
  validatePut key value operation
  let encodedLen := minKvRecordLen - 1 + (key.length + value.length)
  rejectIf (encodedLen ≥ 4294967296) (capacityExceeded operation)
  rejectIf (encodedLen > maxKvRecordLen) (invalidArgument operation)

def validateDeleteEncoding (key : Bytes) (operation : Operation) : Result Unit := do
  validateKey key operation
  rejectIf (minDeleteRecordLen - 1 + key.length ≥ 4294967296) (capacityExceeded operation)

-- `NormalizedOperation`, `BatchOperation` and `LogicalOperationRef` have the same two cases.
def validateEncoding (operation : Operation) : LogicalOperation → Result Unit
  | .put key value => validatePutEncoding key value operation
  | .delete key => validateDeleteEncoding key operation

-- One turn of the ordinal loop. The ordinal map of the source gives the place of a key in
-- `distinct_keys`; a search of that list gives the same.
def assignOrdinal (state : List Bytes × List Nat) (operation : LogicalOperation) : List Bytes × List Nat :=
  let key := operationKey operation
  if key ∈ state.1 then (state.1,state.2 ++ [state.1.idxOf key])
  else (state.1 ++ [key],state.2 ++ [state.1.length])

def assignOrdinals (operations : List LogicalOperation) : List Bytes × List Nat :=
  operations.foldl assignOrdinal ([],[])

-- The limits of one operation.
def LogicalOperation.Valid : LogicalOperation → Prop
  | .put key value => key ≠ [] ∧ key.length + value.length ≤ 60000
  | .delete key => key ≠ [] ∧ key.length ≤ 60000

def checkNormalized (operations : List LogicalOperation) (publicOperation : Operation) (maxOperationCount : Nat) :
    Result Unit := do
  rejectIf operations.isEmpty (invalidArgument publicOperation)
  validateOperationCount operations.length maxOperationCount publicOperation
  operations.forM (validateEncoding publicOperation)

theorem validateEncoding_valid {publicOperation : Operation} {operation : LogicalOperation}
    (checked : validateEncoding publicOperation operation = .ok ()) : operation.Valid := by
  cases operation with
  | put key value =>
    simp only [validateEncoding,validatePutEncoding,validatePut,validateKey,bind_ok,exists_unit,rejectIf_ok,
      List.isEmpty_iff,maxKeyValueSize] at checked
    exact ⟨fun empty => checked.1.1.1 (.inl empty),by omega⟩
  | delete key =>
    simp only [validateEncoding,validateDeleteEncoding,validateKey,bind_ok,exists_unit,rejectIf_ok,
      List.isEmpty_iff,maxKeyValueSize] at checked
    exact ⟨fun empty => checked.1.1 (.inl empty),by omega⟩

theorem checkNormalized_ok {operations : List LogicalOperation} {publicOperation : Operation} {maxOperationCount : Nat}
    (checked : checkNormalized operations publicOperation maxOperationCount = .ok ()) :
    operations ≠ [] ∧ operations.length < 4294967296 ∧ ∀ operation ∈ operations, operation.Valid := by
  simp only [checkNormalized,validateOperationCount,bind_ok,exists_unit,rejectIf_ok,List.isEmpty_iff] at checked
  exact ⟨checked.1,by omega,fun operation member => validateEncoding_valid (forM_ok.mp checked.2.2 operation member)⟩

theorem assignOrdinals_exact (operations : List LogicalOperation) :
    (assignOrdinals operations).1 = firstOccurrences (operations.map operationKey) ∧
      (assignOrdinals operations).2 =
        operations.map (fun operation => (assignOrdinals operations).1.idxOf (operationKey operation)) := by
  induction operations using List.reverseRecOn with
  | nil => exact ⟨rfl,rfl⟩
  | append_singleton operations operation ih =>
    obtain ⟨keys,ordinals⟩ := ih
    have step : assignOrdinals (operations ++ [operation]) = assignOrdinal (assignOrdinals operations) operation := by
      simp [assignOrdinals]
    rw [step]
    generalize assignOrdinals operations = state at keys ordinals ⊢
    obtain ⟨names,numbers⟩ := state
    simp only at keys ordinals
    have member : operationKey operation ∈ names ↔ operationKey operation ∈ operations.map operationKey := by
      rw [keys,mem_firstOccurrences]
    unfold assignOrdinal
    rw [List.map_append,List.map_singleton,firstOccurrences_concat]
    by_cases known : operationKey operation ∈ names
    · rw [if_pos known,if_pos (member.mp known)]
      exact ⟨keys,by simp [ordinals]⟩
    · rw [if_neg known,if_neg (fun earlier => known (member.mpr earlier))]
      refine ⟨by rw [keys],?_⟩
      simp only [List.map_append,List.map_singleton]
      congr 1
      · rw [ordinals]
        apply List.map_congr_left
        intro earlier present
        have named : operationKey earlier ∈ names := by
          rw [keys,mem_firstOccurrences]
          exact List.mem_map_of_mem present
        rw [List.idxOf_append_of_mem named]
      · rw [List.idxOf_append_of_notMem known]
        simp

-- A write that passed the preflight. The fields are private in the source: only the
-- preflight builds one, and what it checked travels with it.
structure ValidatedWrite where
  operations : List LogicalOperation
  sync : Bool
  distinctKeys : List Bytes
  operationOrdinals : List Nat
  publicOperation : Operation
  nonempty : operations ≠ []
  counted : operations.length < 4294967296
  valid : ∀ operation ∈ operations, operation.Valid
  keyed : distinctKeys = firstOccurrences (operations.map operationKey)
  numbered : operationOrdinals = operations.map (fun operation => distinctKeys.idxOf (operationKey operation))

-- `allocated` is false when one of the reservations of the call fails.
def validateNormalized (operations : List LogicalOperation) (sync : Bool) (publicOperation : Operation)
    (maxOperationCount : Nat) (allocated : Bool) : Result ValidatedWrite :=
  match checked : checkNormalized operations publicOperation maxOperationCount with
  | .error error => .error error
  | .ok () =>
    if allocated then
      .ok ⟨operations,sync,(assignOrdinals operations).1,(assignOrdinals operations).2,publicOperation,
        (checkNormalized_ok checked).1,(checkNormalized_ok checked).2.1,(checkNormalized_ok checked).2.2,
        (assignOrdinals_exact operations).1,(assignOrdinals_exact operations).2⟩
    else .error (resourceExhausted publicOperation)

def preflightPut (key value : Bytes) (sync allocated : Bool) : Result ValidatedWrite := do
  validatePut key value .put
  validateNormalized [.put key value] sync .put 4294967295 allocated

def preflightDelete (key : Bytes) (sync allocated : Bool) : Result ValidatedWrite := do
  validateKey key .delete
  validateNormalized [.delete key] sync .delete 4294967295 allocated

def preflightBatch (batch : List LogicalOperation) (sync allocated : Bool) : Result ValidatedWrite := do
  validateOperationCount batch.length 4294967295 .writeBatch
  batch.forM (validateEncoding .writeBatch)
  validateNormalized batch sync .writeBatch 4294967295 allocated

end preflight

namespace ValidatedWrite

def transactionKind (write : ValidatedWrite) : TransactionKind :=
  if write.operations.any LogicalOperation.isPut then .vlogEnvelope else .indexOnlyDelete

end ValidatedWrite

structure PreparedCommit where
  commitSeq : Nat
  txUuid : Uuid
  transactionKind : TransactionKind
  envelope : Option PreparedEnvelope
  indexBatch : IndexAtomicBatch
  sync : Bool
  deriving DecidableEq, Repr

-- The version and variant bits of a random identity.
def stampTxUuid (bytes : Uuid) : Uuid :=
  ⟨(bytes.val.modify 6 (fun byte => (byte &&& 0x0f) ||| 0x40)).modify 8 (fun byte => (byte &&& 0x3f) ||| 0x80),by
    simp [bytes.property]⟩

def allocateTxUuid (source : Except IoError Uuid) (operation : Operation) : Result Uuid :=
  match source with
  | .ok bytes => .ok (stampTxUuid bytes)
  | .error error =>
    .error {(StorageError.writePreflight .io operation .retrySameInstance) with osCode := error.rawOsError}

def decodeBeforeStatePointer (encodedPointer userKey : Bytes) (operation : Operation) :
    Result (Option ValuePointer) := do
  let pointer ← (ValuePointer.decode encodedPointer).mapError (fun error => remapStoredPointer error operation)
  let layout ← pointer.layout.mapError (fun error => remapStoredPointer error operation)
  rejectIf (layout.keyLen ≠ userKey.length) (storedPointerError .corruption operation)
  return some pointer

def readBeforeState (getUser : Bytes → Result (Option Bytes)) (operation : Operation) (key : Bytes) :
    Result (Option ValuePointer) := do
  let stored ← (getUser key).mapError (fun error => remapIndexRead error operation)
  match stored with
  | none => return none
  | some encodedPointer => decodeBeforeStatePointer encodedPointer key operation

-- The plan of a key has the fields of a mutation; `descriptor_mutations` copies them over.
abbrev KeyPlan := TxMutation

def plannedAfterState (kind : TransactionKind) (operation : LogicalOperation)
    (pointer : Option (Option ValuePointer)) (publicOperation : Operation) : Result (Option ValuePointer) :=
  match kind with
  | .vlogEnvelope => do
    let pointer ← orError pointer (invalidArgument publicOperation)
    match operation,pointer with
    | .put _ _,some pointer => return some pointer
    | .delete _,none => return none
    | _,_ => throw (invalidArgument publicOperation)
  | .indexOnlyDelete =>
    match operation with
    | .delete _ => .ok none
    | .put _ _ => .error (invalidArgument publicOperation)

-- The loop over the operations; each overwrites the after state of its key.
def planOperations (kind : TransactionKind) (valuePointers : Option (List (Option ValuePointer)))
    (publicOperation : Operation) (operationIndex : Nat) (plans : List KeyPlan) :
    List (LogicalOperation × Nat) → Result (List KeyPlan)
  | [] => .ok plans
  | (operation,ordinal) :: rest => do
    rejectIf (ordinal ≥ plans.length) (invalidArgument publicOperation)
    let afterState ← plannedAfterState kind operation
      (valuePointers.bind (fun pointers => pointers[operationIndex]?)) publicOperation
    planOperations kind valuePointers publicOperation (operationIndex + 1)
      (plans.modify ordinal (fun plan => {plan with afterState})) rest

def pointersMatch (kind : TransactionKind) (valuePointers : Option (List (Option ValuePointer))) (count : Nat) : Bool :=
  match kind,valuePointers with
  | .vlogEnvelope,some pointers => pointers.length == count
  | .indexOnlyDelete,none => true
  | _,_ => false

def buildKeyPlans (write : ValidatedWrite) (beforeStates : List (Option ValuePointer)) (kind : TransactionKind)
    (valuePointers : Option (List (Option ValuePointer))) : Result (List KeyPlan) := do
  rejectIf (beforeStates.length ≠ write.distinctKeys.length ∨
    write.operationOrdinals.length ≠ write.operations.length) (invalidArgument write.publicOperation)
  rejectIf (pointersMatch kind valuePointers write.operations.length = false) (invalidArgument write.publicOperation)
  let plans := (write.distinctKeys.zip beforeStates).map (fun plan => ⟨plan.1,plan.2,plan.2⟩)
  planOperations kind valuePointers write.publicOperation 0 plans (write.operations.zip write.operationOrdinals)

def pushIndex (batch : IndexAtomicBatch) (mutation : IndexMutation) (operation : Operation) :
    Result IndexAtomicBatch :=
  (batch.tryPush mutation).mapError (fun error => mapIndexConstructionError error operation)

def userMutation (userKey : Bytes) (state : Option ValuePointer) (context : StorageError → StorageError) :
    Result IndexMutation :=
  match state with
  | none => .ok (.deleteUser userKey)
  | some pointer => do
    let encodedPointer ← pointer.encode.mapError context
    return .putUser userKey encodedPointer

def buildIndexBatch (plans : List KeyPlan) (descriptor : EncodedDescriptor) (commitSeq : Nat) (operation : Operation) :
    Result IndexAtomicBatch := do
  let batch ← plans.foldlM (fun batch plan => do
    let mutation ← userMutation plan.userKey plan.afterState (fun error => remapPreflight error operation)
    pushIndex batch mutation operation) []
  let batch ← pushIndex batch (.putInternal .transaction descriptor.metaKey descriptor.metaValue) operation
  let batch ← descriptor.mutations.foldlM (fun batch mutation =>
    pushIndex batch (.putInternal .transaction mutation.key mutation.value) operation) batch
  pushIndex batch (.putInternal .system headSeqKey (encodeHeadSeq commitSeq)) operation

section prepare
variable [Crc32c]

-- What the value log contributes: the identity of the database, the append position and the geometry.
structure VlogContext where
  databaseUuid : Uuid
  appendCursor : VLogPosition
  geometry : VLogGeometry

def prepareCommitEnvelope (write : ValidatedWrite) (commitSeq : Nat) (txUuid : Uuid)
    (vlogContext : Option VlogContext) : Result (Option PreparedEnvelope) :=
  match write.transactionKind with
  | .vlogEnvelope => do
    let context ← orError vlogContext (invalidArgument write.publicOperation)
    rejectIf context.databaseUuid.isZero (invalidArgument write.publicOperation)
    let planner ← (LayoutPlanner.fromPosition context.geometry context.appendCursor).mapError
      (fun error => remapPreflight error write.publicOperation)
    let prepared ← (prepareEnvelope planner context.databaseUuid commitSeq txUuid write.operations).mapError
      (fun error => remapPreflight error write.publicOperation)
    return some prepared.1
  | .indexOnlyDelete => do
    rejectIf vlogContext.isSome (invalidArgument write.publicOperation)
    return none

def commitTxMeta (write : ValidatedWrite) (headSeq commitSeq : Nat) (txUuid : Uuid)
    (envelope : Option PreparedEnvelope) (plans : List KeyPlan) : TxMeta where
  transactionKind := write.transactionKind
  commitSeq := commitSeq
  txUuid := txUuid
  prevSeq := headSeq
  vlogBegin := (envelope.map PreparedEnvelope.vlogBegin).getD ⟨0,0⟩
  vlogEnd := (envelope.map PreparedEnvelope.vlogEnd).getD ⟨0,0⟩
  logicalOpCount := write.operations.length
  distinctKeyCount := plans.length
  envelopeCrc32c := (envelope.map PreparedEnvelope.envelopeCrc32c).getD 0
  descriptorCrc32c := 0

-- The descriptor is handed on beside the prepared commit: the batch only holds its encoding.
def prepareDescribed (write : ValidatedWrite) (headSeq : Nat) (vlogContext : Option VlogContext)
    (getUser : Bytes → Result (Option Bytes)) (uuidSource : Except IoError Uuid) (allocated : Bool) :
    Result (PreparedCommit × TransactionDescriptor) := do
  let commitSeq ← (nextCommitSeq headSeq).mapError (fun _ => permanentCapacityExceeded write.publicOperation)
  rejectIf (allocated = false) (resourceExhausted write.publicOperation)
  let beforeStates ← write.distinctKeys.mapM (readBeforeState getUser write.publicOperation)
  let txUuid ← allocateTxUuid uuidSource write.publicOperation
  let envelope ← prepareCommitEnvelope write commitSeq txUuid vlogContext
  let plans ← buildKeyPlans write beforeStates write.transactionKind (envelope.map PreparedEnvelope.valuePointers)
  let descriptor : TransactionDescriptor := ⟨commitTxMeta write headSeq commitSeq txUuid envelope plans,plans⟩
  let encodedDescriptor ← (encodeDescriptor descriptor).mapError (fun error => remapPreflight error write.publicOperation)
  let indexBatch ← buildIndexBatch plans encodedDescriptor commitSeq write.publicOperation
  return (⟨commitSeq,txUuid,write.transactionKind,envelope,indexBatch,write.sync⟩,descriptor)

def prepareCommit (write : ValidatedWrite) (headSeq : Nat) (vlogContext : Option VlogContext)
    (getUser : Bytes → Result (Option Bytes)) (uuidSource : Except IoError Uuid) (allocated : Bool) :
    Result PreparedCommit :=
  (prepareDescribed write headSeq vlogContext getUser uuidSource allocated).map Prod.fst

end prepare

end ExpirKv
