import ExpirKv.Recovery.Analyze
import ExpirKv.Vlog.Writer

namespace ExpirKv
open VLogGeometry Storage

@[simp] abbrev eloop : Int := 40

def recoveryVlogContext (fileId offset : Option Nat) (error : StorageError) : StorageError :=
  {(recoveryContext error) with vlogFileId := fileId,vlogOffset := offset}

def recoveryVlogIo (fileId : Nat) (offset : Option Nat) (source : IoError) : StorageError :=
  if source.kind = .notFound ∨ source.rawOsError = some eloop then
    {recoveryCorruption with osCode := source.rawOsError,vlogFileId := some fileId,vlogOffset := offset}
  else
    {(StorageError.codecError .io .open .recovery none .fixEnvironmentAndReopen) with
      osCode := source.rawOsError,vlogFileId := some fileId,vlogOffset := offset}

def recoveryVlogDirectoryIo (source : IoError) : StorageError :=
  {(StorageError.codecError .io .open .recovery none .fixEnvironmentAndReopen) with osCode := source.rawOsError}

def openIo (position : VLogPosition) (source : IoError) : StorageError :=
  let missing := source.kind = .notFound ∨ source.rawOsError = some eloop
  {(StorageError.codecError (if missing then .corruption else .io) .open .recovery none
      (if missing then .restoreOrRepair else .fixEnvironmentAndReopen)) with
    osCode := source.rawOsError,vlogFileId := some position.fileId,vlogOffset := some position.offset}

def openContext (position : Option VLogPosition) (error : StorageError) : StorageError :=
  match position with
  | none => recoveryContext error
  | some position =>
    {(recoveryContext error) with vlogFileId := some position.fileId,vlogOffset := some position.offset}

namespace ValueLogRecovery

def syncAcceptedFile (fileId : Nat) : Eff Storage StorageError Unit := do
  (openWritable fileId).mapError (recoveryVlogIo fileId none)
  (verify fileId).mapError (recoveryVlogContext (some fileId) none)
  (syncFile fileId).mapError (recoveryVlogIo fileId none)

-- `first_file_id..=accepted.file_id`.
def acceptedFiles (durableEnd : Option VLogPosition) (accepted : VLogPosition) : List Nat :=
  let first := (durableEnd.map VLogPosition.fileId).getD 0
  List.range' first (accepted.fileId + 1 - first)

def syncAcceptedRange (durableEnd acceptedEnd : Option VLogPosition) : Eff Storage StorageError Unit := do
  if durableEnd = acceptedEnd then return ()
  else do
    let accepted ← Eff.lift (orError acceptedEnd recoveryCorruption)
    let geometry := (← get).vlog.geometry
    Eff.lift (rejectIf (durableEnd.any (fun durable => decide (accepted ≤ durable)) = true ∨
      accepted.fileId > geometry.maxFileId ∨ accepted.offset = 0 ∨ accepted.offset > geometry.maxFileSize)
      recoveryCorruption)
    (acceptedFiles durableEnd accepted).forM syncAcceptedFile
    if durableEnd.all (fun durable => decide (durable.fileId < accepted.fileId)) then
      syncDirectory.mapError recoveryVlogDirectoryIo

def cutFile (accepted : VLogPosition) : Eff Storage StorageError Unit := do
  let io := recoveryVlogIo accepted.fileId (some accepted.offset)
  (openWritable accepted.fileId).mapError io
  (verify accepted.fileId).mapError (recoveryVlogContext (some accepted.fileId) (some accepted.offset))
  let currentLen ← (fileLen accepted.fileId).mapError io
  Eff.lift (rejectIf (currentLen < accepted.offset) (recoveryCorruptionAt accepted.fileId accepted.offset))
  if currentLen ≠ accepted.offset then
    (truncateFile accepted.fileId accepted.offset).mapError io
  (syncFile accepted.fileId).mapError io

def trimFile (inventoriedFileIds : List Nat) : Option VLogPosition → Eff Storage StorageError Unit
  | none => return ()
  | some accepted => do
    let geometry := (← get).vlog.geometry
    Eff.lift (rejectIf (accepted.fileId > geometry.maxFileId ∨ accepted.offset = 0 ∨
      accepted.offset > geometry.maxFileSize ∨ accepted.fileId ∉ inventoriedFileIds) recoveryCorruption)
    cutFile accepted

def removeSuffixFile (fileId : Nat) : Eff Storage StorageError Unit := do
  (removeFile fileId).mapError (recoveryVlogIo fileId none)
  (unregister fileId).mapError (recoveryVlogContext (some fileId) none)

def suffixFiles (acceptedEnd : Option VLogPosition) (inventoriedFileIds : List Nat) : List Nat :=
  inventoriedFileIds.reverse.filter (fun fileId => acceptedEnd.all (fun accepted => decide (fileId > accepted.fileId)))

def trim (acceptedEnd : Option VLogPosition) (inventoriedFileIds : List Nat) : Eff Storage StorageError Unit := do
  trimFile inventoriedFileIds acceptedEnd
  (suffixFiles acceptedEnd inventoriedFileIds).forM removeSuffixFile
  syncDirectory.mapError recoveryVlogDirectoryIo

section
variable [Crc32c]

-- The headers of an accepted file, read again.
def checkAcceptedHeaders (databaseUuid : Uuid) (fileId : Nat) (contents : Bytes) : Result Unit := do
  let encodedHeaders ← (readExactAt contents 0 (pageHeaderEncodedLen + fileHeaderEncodedLen) fileId).mapError
    (openContext none)
  let pageHeader ← (PageHeader.decode (encodedHeaders.take pageHeaderEncodedLen)).mapError (openContext (some ⟨fileId,0⟩))
  rejectIf (pageHeader.fileId ≠ fileId ∨ pageHeader.pageNo ≠ 0) (recoveryCorruptionAt fileId 0)
  let fileHeader ← (VLogFileHeader.decode (encodedHeaders.drop pageHeaderEncodedLen)).mapError
    (openContext (some ⟨fileId,pageHeaderEncodedLen⟩))
  rejectIf (fileHeader.databaseUuid ≠ databaseUuid ∨ fileHeader.fileId ≠ fileId ∨ fileHeader.pageSize ≠ vlogPageSize ∨
    fileHeader.maxFileSize ≠ maxVlogFileSize) (recoveryCorruptionAt fileId pageHeaderEncodedLen)

def checkAcceptedFile (acceptedEnd : VLogPosition) (fileId : Nat) : Eff Storage StorageError Unit := do
  (openWritable fileId).mapError (openIo ⟨fileId,0⟩)
  (verify fileId).mapError (openContext none)
  let files := (← get).vlog
  let expectedLen := if fileId < acceptedEnd.fileId then files.geometry.maxFileSize else acceptedEnd.offset
  let actualLen ← (fileLen fileId).mapError (openIo ⟨fileId,expectedLen⟩)
  Eff.lift (rejectIf (actualLen ≠ expectedLen) (openContext (some ⟨fileId,actualLen⟩) (appendLayout ⟨fileId,actualLen⟩)))
  let checked ← reading (fun storage => checkAcceptedHeaders storage.vlog.databaseUuid fileId (storage.contents fileId))
  Eff.lift checked

def validateAcceptedCatalog (acceptedEnd : VLogPosition) : Eff Storage StorageError Unit := do
  let fileIds := (← get).vlog.catalog.toList
  Eff.lift (rejectIf (fileIds ≠ List.range (acceptedEnd.fileId + 1))
    (openContext (some acceptedEnd) (appendLayout acceptedEnd)))
  fileIds.forM (checkAcceptedFile acceptedEnd)

def openAppendState (acceptedEnd : Option VLogPosition) : Eff Storage StorageError AppendState :=
  match acceptedEnd with
  | none => do
    Eff.lift (rejectIf ((← get).vlog.catalog.isEmpty = false) (openContext none (appendLayout ⟨0,0⟩)))
    return .empty
  | some position => do
    let geometry := (← get).vlog.geometry
    let _ ← Eff.lift ((LayoutPlanner.fromPosition geometry position).mapError
      (fun _ => openContext (some position) (appendLayout position)))
    Eff.lift (rejectIf (position.offset = 0) (openContext (some position) (appendLayout position)))
    (openWritable position.fileId).mapError (openIo position)
    (verify position.fileId).mapError (openContext (some position))
    let len ← (fileLen position.fileId).mapError (openIo position)
    Eff.lift (rejectIf (len ≠ position.offset) (openContext (some position) (appendLayout position)))
    validateAcceptedCatalog position
    return if position.offset = geometry.maxFileSize then .atFileLimit position.fileId
      else .open position.fileId position.offset

def intoWriter (acceptedEnd : Option VLogPosition) : Eff Storage StorageError ValueLogWriter := do
  let state ← openAppendState acceptedEnd
  let files := (← get).vlog
  return ⟨files.databaseUuid,files.geometry,state,⟨∅,∅⟩,none,1,false,none⟩

end

end ValueLogRecovery

-- The recovered runtime: where it stands and the writer it goes on with.
structure RecoveredState where
  headSeq : Nat
  durableFrontier : DurableFrontier
  writer : ValueLogWriter

section execute
variable [Crc32c]

def recoveryStateBatch (state : RecoveryState) : Result IndexAtomicBatch := do
  let encoded ← state.encode.mapError recoveryContext
  pushRecovery [] (.putInternal .system recoveryStateKey encoded)

def pushRecoveryState (batch : IndexAtomicBatch) : Option RecoveryState → Result IndexAtomicBatch
  | none => .ok batch
  | some state => do
    let encoded ← state.encode.mapError recoveryContext
    pushRecovery batch (.putInternal .system recoveryStateKey encoded)

def targetFrontierBatch (headSeq : Nat) (frontier : DurableFrontier) (state : Option RecoveryState) :
    Result IndexAtomicBatch := do
  rejectIf (headSeq ≠ frontier.durableSeq) recoveryCorruption
  let batch ← pushRecovery [] (.putInternal .system headSeqKey (encodeHeadSeq headSeq))
  let encoded ← frontier.encode.mapError recoveryContext
  let batch ← pushRecovery batch (.putInternal .system durableFrontierKey encoded)
  pushRecoveryState batch state

def deleteRecoveryStateBatch : Result IndexAtomicBatch :=
  pushRecovery [] (.deleteInternal .system recoveryStateKey)

def checkIdentity (format : FormatMetadata) (plan : RecoveryPlan) : Eff Storage StorageError Unit := do
  let identity ← readIdentity
  Eff.lift (rejectIf (identity ≠ plan.databaseIdentity) recoveryCorruption)
  Eff.lift (validateDatabaseIdentity format identity)

-- Reader, recovery and root share one file set and one directory here.
def validateRecoveryBindings (format : FormatMetadata) (plan : RecoveryPlan) : Eff Storage StorageError Unit := do
  let files := (← get).vlog
  Eff.lift (rejectIf (files.geometry ≠ production ∨ files.databaseUuid ≠ format.databaseUuid) recoveryCorruption)
  checkIdentity format plan
  (reading (fun _ => ())).mapError recoveryContext

def syncNewAcceptedVlog (plan : RecoveryPlan) : Eff Storage StorageError Unit := do
  if plan.acceptedVlogSeq = plan.durableFrontier.durableVlogSeq then
    Eff.lift (rejectIf (plan.acceptedEnd ≠ plan.durableFrontier.durableVlogEnd) recoveryCorruption)
  else do
    Eff.lift (rejectIf (plan.acceptedVlogSeq < plan.durableFrontier.durableVlogSeq) recoveryCorruption)
    ValueLogRecovery.syncAcceptedRange plan.durableFrontier.durableVlogEnd plan.acceptedEnd

def RecoveryPlan.target (plan : RecoveryPlan) : DurableFrontier :=
  ⟨plan.acceptedSeq,plan.acceptedVlogSeq,plan.acceptedEnd⟩

def acceptedDescriptor (plan : RecoveryPlan) : Result TransactionDescriptor := do
  rejectIf (plan.acceptedVlogSeq < plan.durableFrontier.durableSeq + 1) recoveryCorruption
  let descriptor ← orError plan.descriptors[plan.acceptedVlogSeq - plan.durableFrontier.durableSeq - 1]?
    recoveryCorruption
  rejectIf (descriptor.txMeta.commitSeq ≠ plan.acceptedVlogSeq ∨ descriptor.txMeta.transactionKind ≠ .vlogEnvelope ∨
    some descriptor.txMeta.vlogEnd ≠ plan.acceptedEnd) recoveryCorruption
  return descriptor

def validateAcceptedBoundary (plan : RecoveryPlan) : Eff Storage StorageError Unit := do
  if plan.acceptedVlogSeq = plan.durableFrontier.durableVlogSeq then do
    Eff.lift (rejectIf (plan.acceptedEnd ≠ plan.durableFrontier.durableVlogEnd) recoveryCorruption)
    validateStableBoundary plan.target
  else do
    let descriptor ← Eff.lift (acceptedDescriptor plan)
    readingVlog (fun files => readAndValidateEnvelope files descriptor)

def RecoveryPlan.newState (plan : RecoveryPlan) : RecoveryState :=
  { phase := .undo
    originalHead := plan.headSeq
    targetSeq := plan.acceptedSeq
    targetVlogSeq := plan.acceptedVlogSeq
    targetVlogEnd := plan.acceptedEnd
    nextUndoSeq := plan.headSeq
    trimRequired := plan.needsTrim }

def commitBuilt (batch : Result IndexAtomicBatch) : Eff Storage StorageError Unit := do
  let batch ← Eff.lift batch
  commitRecoveryBatch batch

def createRecoveryState (plan : RecoveryPlan) : Eff Storage StorageError (Option RecoveryState) := do
  if plan.recoveryState = none ∧ (plan.needsUndo = true ∨ plan.needsTrim = true) then do
    syncNewAcceptedVlog plan
    validateAcceptedBoundary plan
    commitBuilt (recoveryStateBatch plan.newState)
    return some plan.newState
  else return plan.recoveryState

-- `current_head`, `current_frontier` and `recovery_state`.
structure RecoveryProgress where
  headSeq : Nat
  frontier : DurableFrontier
  state : Option RecoveryState
  deriving DecidableEq, Repr

def RecoveryState.afterUndo (state : RecoveryState) : RecoveryState :=
  {state with phase := if state.trimRequired then .trim else .finalize,nextUndoSeq := state.targetSeq}

def reachTarget (plan : RecoveryPlan) (recoveryState : Option RecoveryState) :
    Eff Storage StorageError RecoveryProgress :=
  match recoveryState with
  | some state =>
    if state.phase = .undo then do
      let undone ← undoTransactions plan state
      validateAcceptedBoundary plan
      commitBuilt (targetFrontierBatch plan.acceptedSeq plan.target (some undone.afterUndo))
      return ⟨plan.acceptedSeq,plan.target,some undone.afterUndo⟩
    else return ⟨plan.headSeq,plan.durableFrontier,some state⟩
  | none =>
    if plan.needsPromote = true then do
      syncNewAcceptedVlog plan
      validateAcceptedBoundary plan
      commitBuilt (targetFrontierBatch plan.acceptedSeq plan.target none)
      return ⟨plan.acceptedSeq,plan.target,none⟩
    else return ⟨plan.headSeq,plan.durableFrontier,none⟩

def verifyTail (format : FormatMetadata) (expected : Option VLogPosition) : Eff Storage StorageError Unit := do
  let inventory ← (ManagedInventory.inspect format).mapError recoveryContext
  let topology ← Eff.lift (RecoveryTopology.analyze inventory expected)
  Eff.lift (rejectIf (topology.physicalTailMatches expected = false) recoveryCorruption)

def trimSuffix (format : FormatMetadata) (plan : RecoveryPlan) : Eff Storage StorageError Unit := do
  let beforeTrim ← (ManagedInventory.inspect format).mapError recoveryContext
  ValueLogRecovery.trim plan.acceptedEnd (beforeTrim.vlogFiles.map VLogInventoryEntry.fileId)
  verifyTail format plan.acceptedEnd

-- What is left of the recovery state after its last phase.
def finishPhase (format : FormatMetadata) (plan : RecoveryPlan) (recoveryState : Option RecoveryState) :
    Eff Storage StorageError (Option RecoveryState) :=
  match recoveryState with
  | none => return none
  | some state =>
    match state.phase with
    | .undo => return some state
    | .trim => do
      trimSuffix format plan
      commitBuilt deleteRecoveryStateBatch
      return none
    | .finalize => do
      commitBuilt deleteRecoveryStateBatch
      return none

def verifyFinalState (format : FormatMetadata) (plan : RecoveryPlan) (expectedHead : Nat)
    (expectedFrontier : DurableFrontier) : Eff Storage StorageError Unit := do
  checkIdentity format plan
  let encodedHead ← requiredInternal headSeqKey
  let actualHead ← Eff.lift ((decodeHeadSeq encodedHead).mapError recoveryContext)
  let encodedFrontier ← requiredInternal durableFrontierKey
  let actualFrontier ← Eff.lift ((DurableFrontier.decode encodedFrontier).mapError recoveryContext)
  Eff.lift ((actualFrontier.validateAgainstHead actualHead).mapError recoveryContext)
  let left ← (getInternal .system recoveryStateKey).mapError recoveryContext
  Eff.lift (rejectIf (actualHead ≠ expectedHead ∨ actualFrontier ≠ expectedFrontier ∨ left ≠ none) recoveryCorruption)
  verifyTail format actualFrontier.durableVlogEnd

def executeRecovery (format : FormatMetadata) (plan : RecoveryPlan) : Eff Storage StorageError RecoveredState := do
  validateRecoveryBindings format plan
  let created ← createRecoveryState plan
  let progress ← reachTarget plan created
  let left ← finishPhase format plan progress.state
  Eff.lift (rejectIf (left ≠ none) recoveryCorruption)
  verifyFinalState format plan progress.headSeq progress.frontier
  let writer ← ValueLogRecovery.intoWriter progress.frontier.durableVlogEnd
  Eff.lift (rejectIf (writer.position ≠ appendPosition progress.frontier.durableVlogEnd) recoveryCorruption)
  return ⟨progress.headSeq,progress.frontier,writer⟩

-- `register_inventory`: an open starts from a catalog of the files it found.
def registerInventory (inventory : ManagedInventory) : Eff Storage StorageError Unit :=
  inventory.vlogFiles.forM (fun entry => do
    (openWritable entry.fileId).mapError (openIo ⟨entry.fileId,0⟩)
    let len ← (fileLen entry.fileId).mapError (openIo ⟨entry.fileId,0⟩)
    Eff.lift (rejectIf (len ≠ entry.len) {(metadataError .corruption) with vlogFileId := some entry.fileId})
    (register entry.fileId).mapError recoveryContext)

end execute

end ExpirKv
