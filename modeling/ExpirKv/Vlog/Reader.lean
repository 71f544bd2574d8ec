import ExpirKv.Vlog.Scan

namespace ExpirKv
open VLogGeometry

variable [Crc32c]

-- File contents by file id: the names `D000000.data` are one to one with the ids.
abbrev Directory := Std.ExtTreeMap Nat Bytes compare

-- The verified catalog and the directory behind it. A cached handle was validated when it
-- was opened and the header it checked is never rewritten, so the cache is left out.
structure FileSet where
  files : Directory
  catalog : Std.ExtTreeSet Nat compare
  databaseUuid : Uuid
  geometry : VLogGeometry

def readCorruption (fileId : Nat) (offset : Option Nat) : StorageError :=
  {(StorageError.codecError .corruption .get .read none .restoreOrRepair) with
    vlogFileId := some fileId, vlogOffset := offset}

def readContext (fileId offset : Option Nat) (error : StorageError) : StorageError :=
  {error with
    operation := .get, protocolStage := .read, writeOutcome := none, instanceState := none,
    vlogFileId := fileId, vlogOffset := offset}

-- A positioned read of a whole buffer; it stops at the end of the file.
def readExactAt (contents : Bytes) (offset len fileId : Nat) : Result Bytes :=
  orError (slice? contents offset len) (readCorruption fileId (some (max offset contents.length)))

namespace FileSet

def validateCandidate (files : FileSet) (fileId : Nat) (contents : Bytes) : Result Unit := do
  rejectIf (contents.length > files.geometry.maxFileSize) (readCorruption fileId none)
  let encodedHeader ← readExactAt contents pageHeaderEncodedLen fileHeaderEncodedLen fileId
  let fileHeader ← (VLogFileHeader.decode encodedHeader).mapError
    (readContext (some fileId) (some pageHeaderEncodedLen))
  rejectIf (fileHeader.fileId ≠ fileId ∨ fileHeader.databaseUuid ≠ files.databaseUuid ∨
    fileHeader.pageSize ≠ vlogPageSize ∨ fileHeader.maxFileSize ≠ maxVlogFileSize) (readCorruption fileId none)

-- A handle stands for the contents it reads.
def handle (files : FileSet) (fileId : Nat) : Result Bytes := do
  rejectIf (fileId ∉ files.catalog) (readCorruption fileId none)
  let contents ← orError files.files[fileId]? (readCorruption fileId none)
  files.validateCandidate fileId contents
  return contents

end FileSet

def readPointer (files : FileSet) (pointer : ValuePointer) (expectedKey : Bytes) : Result Bytes := do
  let context := readContext (some pointer.fileId) (some pointer.recordOffset)
  let _ ← pointer.layout.mapError context
  let contents ← files.handle pointer.fileId
  let pointerLayout ← (pointer.validateFileBounds contents.length).mapError context
  let encoded ← readExactAt contents pointer.recordOffset pointer.recordLen pointer.fileId
  let record ← (decodeRecordAt encoded ⟨pointer.fileId,pointer.recordOffset⟩ files.geometry).mapError context
  match record with
  | .kvRecord record => do
    rejectIf (record.key ≠ expectedKey ∨ record.key.length ≠ pointerLayout.keyLen ∨
      record.value.length ≠ pointer.valueLen) (readCorruption pointer.fileId (some pointer.recordOffset))
    return record.value
  | _ => throw (readCorruption pointer.fileId (some pointer.recordOffset))

def readValue (files : FileSet) (encodedPointer expectedKey : Bytes) : Result Bytes := do
  let pointer ← (ValuePointer.decode encodedPointer).mapError (readContext none none)
  readPointer files pointer expectedKey

structure EnvelopeFinalState where
  userKey : Bytes
  state : Option ValuePointer
  deriving DecidableEq, Repr

structure RecoveryEnvelope where
  scanned : ScannedEnvelope
  finalStates : List EnvelopeFinalState
  deriving DecidableEq, Repr

def recoveryNextPosition (position : VLogPosition) (geometry : VLogGeometry) : Result VLogPosition :=
  nextPosition recoveryCorruption position geometry

def readRecoveryBytes (files : FileSet) (fileId offset len : Nat) : Result Bytes := do
  let contents ← (files.handle fileId).mapError recoveryContext
  rejectIf (offset + len > contents.length ∨ offset + len > files.geometry.maxFileSize)
    (recoveryCorruptionAt fileId offset)
  (readExactAt contents offset len fileId).mapError recoveryContext

-- The length of the chunk at the cursor: a header of known size, or what the record says.
def recoveryChunkLen (files : FileSet) (vlogEnd cursor : VLogPosition) : Result Nat :=
  if cursor.offset % files.geometry.pageSize = 0 then .ok pageHeaderEncodedLen
  else if cursor.offset = pageHeaderEncodedLen then .ok fileHeaderEncodedLen
  else do
    let headerEnd := cursor.offset + recordHeaderEncodedLen
    rejectIf (cursor.fileId = vlogEnd.fileId ∧ headerEnd > vlogEnd.offset)
      (recoveryCorruptionAt cursor.fileId cursor.offset)
    let encoded ← readRecoveryBytes files cursor.fileId cursor.offset recordHeaderEncodedLen
    let header ← (RecordHeader.decode encoded).mapError recoveryContext
    rejectIf (header.encodedLen < recordHeaderEncodedLen) recoveryCorruption
    return header.encodedLen

def recoveryNextCursor (chunkEnd vlogEnd : VLogPosition) (geometry : VLogGeometry) : Result VLogPosition :=
  if chunkEnd = vlogEnd then .ok chunkEnd else recoveryNextPosition chunkEnd geometry

-- One turn of the loop: the chunk at the cursor and the next cursor.
def readRecoveryChunk (files : FileSet) (vlogEnd cursor : VLogPosition) :
    Result (PhysicalChunk × VLogPosition) := do
  rejectIf (cursor.fileId > vlogEnd.fileId) recoveryCorruption
  let encodedLen ← recoveryChunkLen files vlogEnd cursor
  rejectIf (encodedLen = 0) recoveryCorruption
  let chunkEndOffset := cursor.offset + encodedLen
  let endOffset := (cursor.offset / files.geometry.pageSize + 1) * files.geometry.pageSize
  rejectIf (chunkEndOffset > endOffset ∨ chunkEndOffset > files.geometry.maxFileSize) recoveryCorruption
  let chunkEnd : VLogPosition := ⟨cursor.fileId,chunkEndOffset⟩
  rejectIf (vlogEnd < chunkEnd) recoveryCorruption
  let bytes ← readRecoveryBytes files cursor.fileId cursor.offset encodedLen
  let next ← recoveryNextCursor chunkEnd vlogEnd files.geometry
  return (⟨cursor,bytes⟩,next)

theorem readRecoveryChunk_progress {files : FileSet} {vlogEnd cursor next : VLogPosition} {chunk : PhysicalChunk}
    (read : readRecoveryChunk files vlogEnd cursor = .ok (chunk,next)) :
    (cursor.fileId = next.fileId ∧ cursor.offset < next.offset ∧ next.offset ≤ files.geometry.maxFileSize) ∨
      (next.fileId = cursor.fileId + 1 ∧ cursor.fileId ≤ vlogEnd.fileId) := by
  simp only [readRecoveryChunk,bind_ok,exists_unit,rejectIf_ok,pure_ok,Except.ok.injEq,Prod.mk.injEq] at read
  obtain ⟨before,len,-,positive,bounds,-,bytes,-,next,stepped,-,rfl⟩ := read
  unfold recoveryNextCursor at stepped
  split at stepped
  · obtain rfl := Except.ok.inj stepped
    exact .inl ⟨rfl,by simp only; omega,by simp only; omega⟩
  · unfold recoveryNextPosition nextPosition at stepped
    split at stepped
    · obtain rfl := Except.ok.inj stepped
      exact .inl ⟨rfl,by simp only; omega,by simp only; omega⟩
    · split at stepped
      · cases stepped
      · obtain rfl := Except.ok.inj stepped
        exact .inr ⟨rfl,by omega⟩

def readRecoveryChunksFrom (files : FileSet) (vlogEnd cursor : VLogPosition) : Result (List PhysicalChunk) :=
  if cursor < vlogEnd then
    match _read : readRecoveryChunk files vlogEnd cursor with
    | .error error => .error error
    | .ok (chunk,next) => (readRecoveryChunksFrom files vlogEnd next).map (fun chunks => chunk :: chunks)
  else if cursor ≠ vlogEnd then .error recoveryCorruption
  else .ok []
termination_by (vlogEnd.fileId + 1 - cursor.fileId,files.geometry.maxFileSize - cursor.offset)
decreasing_by
  have progress := readRecoveryChunk_progress _read
  obtain ⟨same,later,bounded⟩ | ⟨rolled,inside⟩ := progress
  · rw [same]
    exact .right _ (by omega)
  · exact .left _ _ (by omega)

def readRecoveryChunks (files : FileSet) (vlogBegin vlogEnd : VLogPosition) : Result (List PhysicalChunk) := do
  rejectIf (vlogEnd ≤ vlogBegin ∨ vlogBegin.fileId > files.geometry.maxFileId ∨
    vlogEnd.fileId > files.geometry.maxFileId ∨ vlogBegin.offset > files.geometry.maxFileSize ∨
    vlogEnd.offset > files.geometry.maxFileSize) recoveryCorruption
  let cursor ← recoveryNextPosition vlogBegin files.geometry
  readRecoveryChunksFrom files vlogEnd cursor

-- The key index of the source finds the entry of a key; a search of the list finds the same.
def setFinalState (states : List EnvelopeFinalState) (userKey : Bytes) (state : Option ValuePointer) :
    List EnvelopeFinalState :=
  match states with
  | [] => [⟨userKey,state⟩]
  | first :: rest =>
    if first.userKey = userKey then ⟨userKey,state⟩ :: rest else first :: setFinalState rest userKey state

def collectFinalState (geometry : VLogGeometry) (states : List EnvelopeFinalState) (chunk : PhysicalChunk) :
    Result (List EnvelopeFinalState) :=
  if chunk.position.offset % geometry.pageSize = 0 ∨
      (chunk.position.offset < geometry.pageSize ∧ chunk.position.offset = pageHeaderEncodedLen) then .ok states
  else do
    let decoded ← (decodeRecordAt chunk.bytes chunk.position geometry).mapError recoveryContext
    match decoded with
    | .kvRecord record => do
      rejectIf (chunk.position.offset ≥ 4294967296 ∨ chunk.bytes.length ≥ 4294967296 ∨
        record.value.length ≥ 65536) recoveryCorruption
      return setFinalState states record.key
        (some ⟨0,chunk.position.fileId,chunk.position.offset,chunk.bytes.length,record.value.length⟩)
    | .deleteRecord record => return setFinalState states record.key none
    | _ => return states

def collectFinalStates (chunks : List PhysicalChunk) (geometry : VLogGeometry) :
    Result (List EnvelopeFinalState) := chunks.foldlM (collectFinalState geometry) []

def readRecoveryEnvelope (files : FileSet) (vlogBegin vlogEnd : VLogPosition)
    (expectedEnvelopeCrc32c : Option Nat) : Result RecoveryEnvelope := do
  let chunks ← readRecoveryChunks files vlogBegin vlogEnd
  let scanned ← (scanPreparedEnvelope chunks files.geometry files.databaseUuid vlogBegin vlogEnd
    expectedEnvelopeCrc32c).mapError recoveryContext
  let finalStates ← collectFinalStates chunks files.geometry
  return ⟨scanned,finalStates⟩

def readStableEnvelopeFromEnd (files : FileSet) (vlogEnd : VLogPosition) : Result RecoveryEnvelope := do
  rejectIf (vlogEnd.fileId > files.geometry.maxFileId ∨ vlogEnd.offset = 0 ∨
    vlogEnd.offset > files.geometry.maxFileSize) recoveryCorruption
  let pageStart := (vlogEnd.offset - 1) / files.geometry.pageSize * files.geometry.pageSize
  let tailStartOffset :=
    if pageStart = 0 then pageHeaderEncodedLen + fileHeaderEncodedLen else pageStart + pageHeaderEncodedLen
  rejectIf (tailStartOffset ≥ vlogEnd.offset) recoveryCorruption
  let tail ← readRecoveryBytes files vlogEnd.fileId tailStartOffset (vlogEnd.offset - tailStartOffset)
  let located ← (locateFooterFromEnd ⟨vlogEnd.fileId,tailStartOffset⟩ tail vlogEnd files.geometry).mapError
    recoveryContext
  readRecoveryEnvelope files located.footer.vlogBegin vlogEnd (some located.footer.envelopeCrc32c)

end ExpirKv
