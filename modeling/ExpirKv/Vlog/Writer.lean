import ExpirKv.Storage

namespace ExpirKv
open VLogGeometry Storage

@[simp] abbrev eintrRetryLimit : Nat := 8
@[simp] abbrev eagainRetryLimit : Nat := 3

inductive AppendState where
  | empty
  | open (fileId offset : Nat)
  | atFileLimit (lastFileId : Nat)
  deriving DecidableEq, Repr

structure VLogDirtyState where
  dirtyFiles : Std.ExtTreeSet Nat compare
  pendingDirectoryEntries : Std.ExtTreeMap Nat Nat compare

structure FrontierSync where
  id : Nat
  targetSeq : Nat
  targetEnd : Option VLogPosition
  files : List Nat
  directoryEntries : List Nat
  deriving DecidableEq, Repr

structure AppendedTail where
  commitSeq : Nat
  vlogEnd : VLogPosition
  deriving DecidableEq, Repr

structure ValueLogWriter where
  databaseUuid : Uuid
  geometry : VLogGeometry
  state : AppendState
  dirty : VLogDirtyState
  pendingSyncId : Option Nat
  nextSyncId : Nat
  appendFailed : Bool
  lastAppended : Option AppendedTail

-- The writer and what it writes to.
structure ValueLog where
  storage : Storage
  writer : ValueLogWriter

section errors

def appendLayout (position : VLogPosition) : StorageError :=
  {(StorageError.codecError .invalidLayout .writeBatch .vlogAppend (some .notCommitted) .restoreOrRepair) with
    vlogFileId := some position.fileId, vlogOffset := some position.offset}

def IoError.transient (error : IoError) : Bool :=
  match error.kind with
  | .interrupted | .wouldBlock => true
  | _ => false

def appendIo (commitSeq : Nat) (position : VLogPosition) (physicalProgress : Bool) (source : IoError) : StorageError :=
  let transientWithoutProgress := !physicalProgress && source.transient
  let kind : StorageErrorKind :=
    if source.kind = .storageFull then .capacityExceeded
    else if transientWithoutProgress then .resourceExhausted
    else .io
  {(StorageError.codecError kind .writeBatch .vlogAppend (some .notCommitted)
      (if transientWithoutProgress then .retrySameInstance else .fixEnvironmentAndReopen)) with
    osCode := source.rawOsError, commitSeq := some commitSeq, vlogFileId := some position.fileId,
    vlogOffset := some position.offset}

def appendContext (error : StorageError) (commitSeq : Nat) (position : VLogPosition) : StorageError :=
  {error with
    operation := .writeBatch, protocolStage := .vlogAppend, writeOutcome := some .notCommitted, instanceState := none,
    commitSeq := some commitSeq, vlogFileId := some position.fileId, vlogOffset := some position.offset}

-- `writer_stopped` and `writer_busy`.
def writerRefused (kind : StorageErrorKind) (retryAdvice : RetryAdvice) (commitSeq : Nat) (position : VLogPosition) :
    StorageError :=
  {(StorageError.codecError kind .writeBatch .admission (some .notCommitted) retryAdvice) with
    commitSeq := some commitSeq, vlogFileId := some position.fileId, vlogOffset := some position.offset}

def writerStopped (commitSeq : Nat) (position : VLogPosition) : StorageError :=
  writerRefused .storageWriteStopped .fixEnvironmentAndReopen commitSeq position

def writerBusy (commitSeq : Nat) (position : VLogPosition) : StorageError :=
  writerRefused .busy .retrySameInstance commitSeq position

-- The errors of a sync name the target.
def syncError (kind : StorageErrorKind) (stage : ProtocolStage) (retryAdvice : RetryAdvice) (targetSeq : Nat)
    (targetEnd : Option VLogPosition) : StorageError :=
  {(StorageError.codecError kind .sync stage (some .notCommitted) retryAdvice) with
    commitSeq := some targetSeq, vlogFileId := targetEnd.map VLogPosition.fileId,
    vlogOffset := targetEnd.map VLogPosition.offset}

def syncStopped (targetSeq : Nat) (targetEnd : Option VLogPosition) : StorageError :=
  syncError .storageWriteStopped .admission .fixEnvironmentAndReopen targetSeq targetEnd

def syncStateError (targetSeq : Nat) (targetEnd : Option VLogPosition) : StorageError :=
  syncError .invalidArgument .vlogSync .doNotRetry targetSeq targetEnd

def syncDirectoryIo (targetSeq : Nat) (targetEnd : Option VLogPosition) (source : IoError) : StorageError :=
  {(syncError .io .vlogSync .fixEnvironmentAndReopen targetSeq targetEnd) with osCode := source.rawOsError}

def syncFileIo (targetSeq fileId : Nat) (offset : Option Nat) (source : IoError) : StorageError :=
  {(StorageError.codecError .io .sync .vlogSync (some .notCommitted) .fixEnvironmentAndReopen) with
    osCode := source.rawOsError, commitSeq := some targetSeq, vlogFileId := some fileId, vlogOffset := offset}

def syncContext (targetSeq : Nat) (targetEnd : Option VLogPosition) (fileId : Nat) (error : StorageError) :
    StorageError :=
  {error with
    operation := .sync, protocolStage := .vlogSync, writeOutcome := some .notCommitted, instanceState := none,
    commitSeq := some targetSeq, vlogFileId := some fileId,
    vlogOffset := (targetEnd.filter (fun position => position.fileId = fileId)).map VLogPosition.offset}

end errors

-- `write_all_positioned`. On failure the count of what the calls reported comes with the error.
-- Every turn takes bytes off or uses up an attempt.
def writeAllPositioned (fileId start : Nat) (bytes : Bytes) (written interrupted transient : Nat) :
    Eff Storage (Nat × IoError) Nat :=
  if bytes.isEmpty then return written
  else do
    match ← (Storage.writeAt fileId (start + written) bytes).attempt with
    | .ok 0 => throw (written,⟨.writeZero,none⟩)
    | .ok (count + 1) =>
      if count + 1 ≤ bytes.length then
        writeAllPositioned fileId start (bytes.drop (count + 1)) (written + (count + 1)) 0 0
      else throw (written,⟨.other,none⟩)
    | .error error =>
      if error.kind = .interrupted ∧ interrupted < eintrRetryLimit then
        writeAllPositioned fileId start bytes written (interrupted + 1) transient
      else if error.kind = .wouldBlock ∧ transient < eagainRetryLimit then
        writeAllPositioned fileId start bytes written interrupted (transient + 1)
      else throw (written,error)
termination_by bytes.length * 12 + (eintrRetryLimit - interrupted) + (eagainRetryLimit - transient)
decreasing_by
  all_goals simp only [eintrRetryLimit,eagainRetryLimit,List.length_drop] at *
  all_goals omega

def statePosition (geometry : VLogGeometry) : AppendState → VLogPosition
  | .empty => ⟨0,0⟩
  | .open fileId offset => ⟨fileId,offset⟩
  | .atFileLimit lastFileId => ⟨lastFileId,geometry.maxFileSize⟩

namespace ValueLogWriter

def position (writer : ValueLogWriter) : VLogPosition := statePosition writer.geometry writer.state

def markDirty (writer : ValueLogWriter) (fileId : Nat) : ValueLogWriter :=
  {writer with dirty := {writer.dirty with dirtyFiles := writer.dirty.dirtyFiles.insert fileId}}

def fail (writer : ValueLogWriter) : ValueLogWriter := {writer with appendFailed := true}

end ValueLogWriter

namespace ValueLog

def onStorage {ε α : Type} (x : Eff Storage ε α) : Eff ValueLog ε α :=
  x.within ValueLog.storage (fun log storage => {log with storage})

def onWriter {ε : Type} (change : ValueLogWriter → ValueLogWriter) : Eff ValueLog ε Unit :=
  modify (fun log => {log with writer := change log.writer})

section append
variable [Crc32c]

def nextChunkStart (position : VLogPosition) (geometry : VLogGeometry) : Result VLogPosition :=
  nextPosition (appendLayout position) position geometry

def chunkEndForAppend (chunk : PhysicalChunk) (geometry : VLogGeometry) : Result VLogPosition :=
  (chunkEnd chunk geometry).mapError (fun _ => appendLayout chunk.position)

def validateStructuralChunk (writer : ValueLogWriter) (chunk : PhysicalChunk) : Result Unit :=
  if chunk.position.offset % writer.geometry.pageSize = 0 then do
    rejectIf (chunk.bytes.length ≠ pageHeaderEncodedLen) (appendLayout chunk.position)
    let header ← (PageHeader.decode chunk.bytes).mapError (fun _ => appendLayout chunk.position)
    rejectIf (chunk.position.offset / writer.geometry.pageSize ≥ 4294967296) (appendLayout chunk.position)
    rejectIf (header.fileId ≠ chunk.position.fileId ∨
      header.pageNo ≠ chunk.position.offset / writer.geometry.pageSize) (appendLayout chunk.position)
  else if chunk.position.offset = pageHeaderEncodedLen then do
    rejectIf (chunk.bytes.length ≠ fileHeaderEncodedLen) (appendLayout chunk.position)
    let header ← (VLogFileHeader.decode chunk.bytes).mapError (fun _ => appendLayout chunk.position)
    rejectIf (header.fileId ≠ chunk.position.fileId ∨ header.databaseUuid ≠ writer.databaseUuid ∨
      header.pageSize ≠ vlogPageSize ∨ header.maxFileSize ≠ maxVlogFileSize) (appendLayout chunk.position)
  else .ok ()

-- The loop over the chunks; `expected` is where the next one has to start.
def validateChunks (writer : ValueLogWriter) (expected : VLogPosition) : List PhysicalChunk → Result VLogPosition
  | [] => .ok expected
  | chunk :: rest => do
    rejectIf (chunk.position ≠ expected ∨ chunk.bytes.isEmpty) (appendLayout chunk.position)
    validateStructuralChunk writer chunk
    let stop ← chunkEndForAppend chunk writer.geometry
    if stop.offset = writer.geometry.maxFileSize ∧ rest ≠ [] then do
      let next ← nextChunkStart stop writer.geometry
      validateChunks writer next rest
    else validateChunks writer stop rest

def validateEnvelopeChunks (writer : ValueLogWriter) (envelope : PreparedEnvelope) : Result Unit := do
  rejectIf (envelope.commitSeq = 0 ∨ envelope.txUuid.isZero ∨ envelope.vlogBegin ≠ writer.position ∨
    envelope.vlogEnd ≤ envelope.vlogBegin ∨ envelope.chunks.isEmpty) (appendLayout envelope.vlogBegin)
  let expected ← nextChunkStart envelope.vlogBegin writer.geometry
  let expected ← validateChunks writer expected envelope.chunks
  rejectIf (expected ≠ envelope.vlogEnd) (appendLayout expected)

-- A new file in place of a terminal state, which is handed back for a rollback.
def createFile (commitSeq fileId : Nat) (position : VLogPosition) (previousState : AppendState) :
    Eff ValueLog StorageError (Option AppendState) := do
  if fileId ≠ position.fileId ∨ position.offset ≠ 0 ∨ fileId > (← get).writer.geometry.maxFileId then
    throw (appendLayout position)
  (onStorage (createNew fileId)).mapError (appendIo commitSeq ⟨fileId,0⟩ false)
  onWriter (fun writer =>
    {writer with
      dirty := {writer.dirty with
        pendingDirectoryEntries := writer.dirty.pendingDirectoryEntries.insert fileId commitSeq}
      state := .open fileId 0})
  return some previousState

def ensureFileForChunk (commitSeq : Nat) (position : VLogPosition) :
    Eff ValueLog StorageError (Option AppendState) := do
  match (← get).writer.state with
  | .empty => createFile commitSeq 0 position .empty
  | .open fileId offset =>
    if fileId = position.fileId ∧ offset = position.offset then return none else throw (appendLayout position)
  | .atFileLimit lastFileId => createFile commitSeq (lastFileId + 1) position (.atFileLimit lastFileId)

def rollbackNewEmptyFile (fileId : Nat) (previousState : AppendState) : Eff ValueLog IoError Unit := do
  let len ← onStorage (fileLen fileId)
  if len ≠ 0 then throw ⟨.other,none⟩
  onStorage (removeFile fileId)
  onWriter (fun writer =>
    {writer with
      state := previousState
      dirty := ⟨writer.dirty.dirtyFiles.erase fileId,writer.dirty.pendingDirectoryEntries.erase fileId⟩})

def writtenCount : Except (Nat × IoError) Nat → Nat
  | .ok written => written
  | .error (written,_) => written

def transientZeroProgress : Except (Nat × IoError) Nat → Bool
  | .error (0,error) => error.transient
  | _ => false

-- What follows the bytes of a chunk: the catalog entry once both headers stand, and the file limit.
def finishChunk (commitSeq : Nat) : Eff ValueLog StorageError Unit := do
  match (← get).writer.state with
  | .open fileId offset => do
    if offset ≥ pageHeaderEncodedLen + fileHeaderEncodedLen then
      (onStorage (register fileId)).mapError (fun error => appendContext error commitSeq ⟨fileId,offset⟩)
    if offset = (← get).writer.geometry.maxFileSize then
      onWriter (fun writer => {writer with state := .atFileLimit fileId})
  | _ => return ()

-- A failed write: a file that was created for it and is still empty goes away again.
def failChunk (commitSeq fileId : Nat) (previousState : Option AppendState) (transient : Bool) (error : StorageError) :
    Eff ValueLog StorageError Unit := do
  match transient,previousState,(← get).writer.state with
  | true,some previousState,.open _ 0 => do
    match ← (rollbackNewEmptyFile fileId previousState).attempt with
    | .ok () => throw error
    | .error rollbackError => throw (appendIo commitSeq ⟨fileId,0⟩ true rollbackError)
  | _,_,_ => throw error

def writeChunk (commitSeq : Nat) (envelopeBegin : VLogPosition) (chunk : PhysicalChunk) :
    Eff ValueLog StorageError Unit := do
  let previousState ← ensureFileForChunk commitSeq chunk.position
  match (← get).writer.state with
  | .open fileId offset =>
    if fileId = chunk.position.fileId ∧ offset = chunk.position.offset then do
      let result ← (onStorage (writeAllPositioned fileId offset chunk.bytes 0 0 0)).attempt
      let written := writtenCount result
      if written > 0 then
        onWriter (fun writer => {writer with state := .open fileId (offset + written)}.markDirty fileId)
      let positionBeforeCreation := previousState.map (statePosition (← get).writer.geometry)
      let physicalProgress : Bool :=
        if previousState.isSome ∧ written = 0 then positionBeforeCreation ≠ some envelopeBegin
        else fileId ≠ envelopeBegin.fileId ∨ offset + written ≠ envelopeBegin.offset
      match result with
      | .ok _ => finishChunk commitSeq
      | .error (_,error) =>
        failChunk commitSeq fileId previousState (transientZeroProgress result)
          (appendIo commitSeq ⟨fileId,offset + written⟩ physicalProgress error)
    else throw (appendLayout chunk.position)
  | _ => throw (appendLayout chunk.position)

def appendChunks (envelope : PreparedEnvelope) : List PhysicalChunk → Eff ValueLog StorageError Unit
  | [] => return ()
  | chunk :: rest => do
    match ← (writeChunk envelope.commitSeq envelope.vlogBegin chunk).attempt with
    | .ok () => appendChunks envelope rest
    | .error error => do
      if error.kind = .resourceExhausted ∧ (← get).writer.position = envelope.vlogBegin then throw error
      else do
        onWriter ValueLogWriter.fail
        throw error

def append (envelope : PreparedEnvelope) : Eff ValueLog StorageError Unit := do
  let writer := (← get).writer
  if writer.appendFailed then throw (writerStopped envelope.commitSeq envelope.vlogBegin)
  if writer.pendingSyncId.isSome then throw (writerBusy envelope.commitSeq envelope.vlogBegin)
  if writer.lastAppended.any (fun previous => envelope.commitSeq ≤ previous.commitSeq) then
    throw (appendLayout envelope.vlogBegin)
  Eff.lift (validateEnvelopeChunks writer envelope)
  appendChunks envelope envelope.chunks
  if (← get).writer.position ≠ envelope.vlogEnd then do
    onWriter ValueLogWriter.fail
    throw (appendLayout envelope.vlogEnd)
  onWriter (fun writer => {writer with lastAppended := some ⟨envelope.commitSeq,envelope.vlogEnd⟩})

end append

section sync

def syncOneFile (fileId targetSeq : Nat) : Eff ValueLog StorageError Unit := do
  let writer := (← get).writer
  match writer.state with
  | .open activeId _ =>
    if activeId = fileId then
      (onStorage (syncFile fileId)).mapError (syncFileIo targetSeq fileId (some writer.position.offset))
    else closed writer
  | _ => closed writer
where
  closed (writer : ValueLogWriter) : Eff ValueLog StorageError Unit := do
    (onStorage (openWritable fileId)).mapError (syncFileIo targetSeq fileId none)
    (onStorage (verify fileId)).mapError (syncContext targetSeq (some writer.position) fileId)
    (onStorage (syncFile fileId)).mapError (syncFileIo targetSeq fileId none)

-- A failure of a sync stops the writer for good.
def orStop {α : Type} (x : Eff ValueLog StorageError α) : Eff ValueLog StorageError α := do
  match ← x.attempt with
  | .ok value => return value
  | .error error => do
    onWriter ValueLogWriter.fail
    throw error

def checkSyncTarget (writer : ValueLogWriter) (targetSeq : Nat) (targetEnd : Option VLogPosition) : Result Unit :=
  match targetSeq,targetEnd with
  | 0,none =>
    rejectIf (writer.state ≠ .empty ∨ writer.dirty.dirtyFiles.isEmpty = false ∨
      writer.dirty.pendingDirectoryEntries.isEmpty = false) (syncStateError targetSeq targetEnd)
  | 0,some _ => .error (syncStateError targetSeq targetEnd)
  | _,none => .error (syncStateError targetSeq targetEnd)
  | _,some vlogEnd => do
    let _ ← (LayoutPlanner.fromPosition writer.geometry vlogEnd).mapError
      (syncContext targetSeq targetEnd vlogEnd.fileId)
    rejectIf (writer.state = .empty ∨ vlogEnd ≠ writer.position) (syncStateError targetSeq targetEnd)

def syncFiles (dirty : VLogDirtyState) (targetEnd : Option VLogPosition) : List Nat :=
  dirty.dirtyFiles.toList.filter (fun fileId => targetEnd.any (fun vlogEnd => fileId ≤ vlogEnd.fileId))

def syncDirectoryEntries (dirty : VLogDirtyState) (targetSeq : Nat) (targetEnd : Option VLogPosition) : List Nat :=
  dirty.pendingDirectoryEntries.toList.filterMap (fun entry =>
    if entry.2 ≤ targetSeq ∧ targetEnd.any (fun vlogEnd => entry.1 ≤ vlogEnd.fileId) then some entry.1 else none)

def syncThrough (targetSeq : Nat) (targetEnd : Option VLogPosition) : Eff ValueLog StorageError FrontierSync := do
  let writer := (← get).writer
  if writer.appendFailed then throw (syncStopped targetSeq targetEnd)
  if writer.pendingSyncId.isSome then throw (syncStateError targetSeq targetEnd)
  Eff.lift (checkSyncTarget writer targetSeq targetEnd)
  if writer.lastAppended.any (fun appended => targetSeq ≠ appended.commitSeq ∨ targetEnd ≠ some appended.vlogEnd) then
    throw (syncStateError targetSeq targetEnd)
  if writer.dirty.pendingDirectoryEntries.toList.any (fun entry => entry.2 > targetSeq) then
    throw (syncStateError targetSeq targetEnd)
  let files := syncFiles writer.dirty targetEnd
  let directoryEntries := syncDirectoryEntries writer.dirty targetSeq targetEnd
  files.forM (fun fileId => orStop (syncOneFile fileId targetSeq))
  if directoryEntries ≠ [] then
    orStop ((onStorage syncDirectory).mapError (syncDirectoryIo targetSeq targetEnd))
  if writer.nextSyncId + 1 ≥ 18446744073709551616 then do
    onWriter ValueLogWriter.fail
    throw (syncStateError targetSeq targetEnd)
  onWriter (fun current =>
    {current with nextSyncId := writer.nextSyncId + 1, pendingSyncId := some writer.nextSyncId})
  return ⟨writer.nextSyncId,targetSeq,targetEnd,files,directoryEntries⟩

def consumeSync (writer : ValueLogWriter) (synced : FrontierSync) : Result Unit :=
  rejectIf (writer.pendingSyncId ≠ some synced.id) (syncStateError synced.targetSeq synced.targetEnd)

def frontierSucceeded (synced : FrontierSync) : Eff ValueLog StorageError Unit := do
  Eff.lift (consumeSync (← get).writer synced)
  onWriter (fun writer =>
    {writer with
      dirty := ⟨synced.files.foldl (fun files fileId => files.erase fileId) writer.dirty.dirtyFiles,
        synced.directoryEntries.foldl (fun entries fileId => entries.erase fileId)
          writer.dirty.pendingDirectoryEntries⟩
      pendingSyncId := none})

def frontierFailed (synced : FrontierSync) : Eff ValueLog StorageError Unit := do
  Eff.lift (consumeSync (← get).writer synced)
  onWriter (fun writer => {writer with pendingSyncId := none, appendFailed := true})

end sync

end ValueLog

end ExpirKv
