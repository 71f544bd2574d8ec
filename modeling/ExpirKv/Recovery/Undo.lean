import ExpirKv.Commit.Protocol
import ExpirKv.Storage

namespace ExpirKv
open Storage

-- `PhysicalTail::Empty` and `DurableVLogEnd::Empty` are `none`.
structure RecoveryPlan where
  databaseIdentity : Bytes
  durableFrontier : DurableFrontier
  headSeq : Nat
  acceptedSeq : Nat
  acceptedVlogSeq : Nat
  publishedEnd : Option VLogPosition
  acceptedEnd : Option VLogPosition
  physicalTail : Option VLogPosition
  descriptors : List TransactionDescriptor
  recoveryState : Option RecoveryState
  needsUndo : Bool
  needsPromote : Bool
  needsTrim : Bool
  deriving DecidableEq, Repr

def recoveryRetryAdvice : StorageErrorKind → RetryAdvice
  | .invalidArgument | .incompatibleFormat => .doNotRetry
  | .busy | .resourceExhausted => .retrySameInstance
  | .corruption | .invalidLayout | .unrecoverable | .notFound => .restoreOrRepair
  | .unsupported => .doNotRetry
  | .capacityExceeded | .io | .storageWriteStopped | .storagePoisoned => .fixEnvironmentAndReopen

def indexBatchContext (error : InternalIndexError) : StorageError :=
  {(StorageError.codecError error.kind .open .recovery none (recoveryRetryAdvice error.kind)) with
    osCode := error.osCode}

def recoveryCommitError (error : IndexCommitError) : StorageError :=
  {(StorageError.codecError error.source.kind .open .recovery none
      (match error.applyState with
        | .unknown => .reopenAndVerify
        | .notApplied => recoveryRetryAdvice error.source.kind)) with
    osCode := error.source.osCode}

section
variable [Crc32c]

def commitRecoveryBatch (batch : IndexAtomicBatch) : Eff Storage StorageError Unit :=
  (commitAtomic batch .syncAll).mapError recoveryCommitError

end

structure LoadedDescriptor where
  descriptor : TransactionDescriptor
  metaEntry : Bytes × Bytes
  mutations : List (Bytes × Bytes)
  deriving DecidableEq, Repr

def expectedDescriptor (plan : RecoveryPlan) (commitSeq : Nat) : Result TransactionDescriptor := do
  rejectIf (commitSeq < plan.durableFrontier.durableSeq + 1) recoveryCorruption
  orError plan.descriptors[commitSeq - plan.durableFrontier.durableSeq - 1]? recoveryCorruption

-- The first ten bytes of the metadata key: every key of the sequence starts with them.
def txSequencePrefix (commitSeq : Nat) : Result Bytes := do
  let key ← (encodeTxMetaKey commitSeq).mapError recoveryContext
  orError (slice? key 0 10) recoveryCorruption

def descriptorRange (commitSeq : Nat) : Result KeyRange := do
  let start ← txSequencePrefix commitSeq
  if commitSeq + 1 < 18446744073709551616 then do
    let stop ← txSequencePrefix (commitSeq + 1)
    return ⟨some start,some stop⟩
  else return ⟨some start,none⟩

-- One entry of the scan: the metadata once, or the next mutation.
def collectEntry (commitSeq : Nat) (state : Option (Bytes × Bytes) × List (Bytes × Bytes)) (entry : Bytes × Bytes) :
    Result (Option (Bytes × Bytes) × List (Bytes × Bytes)) :=
  if entry.1.length = txMetaKeyEncodedLen then do
    let seq ← (decodeTxMetaKey entry.1).mapError recoveryContext
    rejectIf (seq ≠ commitSeq ∨ state.1.isSome) recoveryCorruption
    return (some entry,state.2)
  else if entry.1.length = txMutationKeyEncodedLen then do
    let decoded ← (decodeTxMutationKey entry.1).mapError recoveryContext
    rejectIf (decoded.1 ≠ commitSeq) recoveryCorruption
    return (state.1,state.2 ++ [entry])
  else .error recoveryCorruption

section
variable [Crc32c]

def loadEntries (expected : TransactionDescriptor) (entries : List (Bytes × Bytes)) : Result LoadedDescriptor := do
  let collected ← entries.foldlM (collectEntry expected.txMeta.commitSeq) (none,[])
  let metaEntry ← orError collected.1 recoveryCorruption
  let descriptor ← (decodeDescriptor metaEntry.1 metaEntry.2 collected.2).mapError recoveryContext
  rejectIf (descriptor ≠ expected) recoveryCorruption
  return ⟨descriptor,metaEntry,collected.2⟩

def loadDescriptor (expected : TransactionDescriptor) : Eff Storage StorageError LoadedDescriptor := do
  let range ← Eff.lift (descriptorRange expected.txMeta.commitSeq)
  let entries ← (scanInternal .transaction range).mapError recoveryContext
  Eff.lift (loadEntries expected entries)

end

def afterStateMatches (actual : Option Bytes) (afterState : Option ValuePointer) : Result Bool :=
  match afterState with
  | none => .ok actual.isNone
  | some pointer => do
    let encoded ← pointer.encode.mapError recoveryContext
    return actual == some encoded

def validateCurrentAfterState (mutation : TxMutation) : Eff Storage StorageError Unit := do
  let actual ← (getUser mutation.userKey).mapError recoveryContext
  let same ← Eff.lift (afterStateMatches actual mutation.afterState)
  Eff.lift (rejectIf (same = false) recoveryCorruption)

def validateCurrentAfterStates (descriptor : TransactionDescriptor) : Eff Storage StorageError Unit :=
  descriptor.mutations.forM validateCurrentAfterState

def pushRecovery (batch : IndexAtomicBatch) (mutation : IndexMutation) : Result IndexAtomicBatch :=
  (batch.tryPush mutation).mapError indexBatchContext

section
variable [Crc32c]

def buildUndoBatch (loaded : LoadedDescriptor) (nextState : RecoveryState) : Result IndexAtomicBatch := do
  let batch ← loaded.descriptor.mutations.foldlM (fun batch mutation => do
    let operation ← userMutation mutation.userKey mutation.beforeState recoveryContext
    pushRecovery batch operation) []
  let batch ← loaded.mutations.foldlM (fun batch mutation =>
    pushRecovery batch (.deleteInternal .transaction mutation.1)) batch
  let batch ← pushRecovery batch (.deleteInternal .transaction loaded.metaEntry.1)
  let batch ← pushRecovery batch (.putInternal .system headSeqKey (encodeHeadSeq nextState.nextUndoSeq))
  let encoded ← nextState.encode.mapError recoveryContext
  pushRecovery batch (.putInternal .system recoveryStateKey encoded)

-- One turn of the loop: the transaction `next_undo_seq` is taken back.
def undoTransaction (plan : RecoveryPlan) (state : RecoveryState) : Eff Storage StorageError RecoveryState := do
  let expected ← Eff.lift (expectedDescriptor plan state.nextUndoSeq)
  let loaded ← loadDescriptor expected
  validateCurrentAfterStates loaded.descriptor
  let nextState : RecoveryState := {state with nextUndoSeq := state.nextUndoSeq - 1}
  let batch ← Eff.lift (buildUndoBatch loaded nextState)
  commitRecoveryBatch batch
  return nextState

def undoTurns (plan : RecoveryPlan) : Nat → RecoveryState → Eff Storage StorageError RecoveryState
  | 0,state => return state
  | turns + 1,state => do
    let next ← undoTransaction plan state
    undoTurns plan turns next

-- `while state.next_undo_seq > state.target_seq`: every turn lowers the sequence by one.
def undoTransactions (plan : RecoveryPlan) (state : RecoveryState) : Eff Storage StorageError RecoveryState :=
  undoTurns plan (state.nextUndoSeq - state.targetSeq) state

end

end ExpirKv
