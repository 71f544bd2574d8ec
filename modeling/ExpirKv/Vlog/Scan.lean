import ExpirKv.Vlog.Envelope

namespace ExpirKv
open VLogGeometry

variable [Crc32c]

structure ScannedEnvelope where
  commitSeq : Nat
  txUuid : Uuid
  vlogBegin : VLogPosition
  vlogEnd : VLogPosition
  logicalOpCount : Nat
  distinctKeyCount : Nat
  kvRecordCount : Nat
  deleteRecordCount : Nat
  envelopeCrc32c : Nat
  deriving DecidableEq, Repr

-- What the scan is asked to find.
structure ScanTarget where
  geometry : VLogGeometry
  databaseUuid : Uuid
  vlogBegin : VLogPosition
  vlogEnd : VLogPosition
  expectedEnvelopeCrc32c : Option Nat

-- The loop variables of `scan_prepared_envelope`.
structure ScanState where
  physicalEnd : VLogPosition
  identity : Option (Nat × Uuid)
  begin : Option TxBegin
  footer : Option TxPreparedEnd
  envelopeCrc : EnvelopeCrc32c
  logicalOpCount : Nat
  kvRecordCount : Nat
  deleteRecordCount : Nat
  distinctKeys : List Bytes
  previousTransactionRecordWasPageEnd : Bool
  expectingFileHeader : Bool
  deriving DecidableEq, Repr

namespace ScanState

def scanPageHeader (target : ScanTarget) (state : ScanState) (chunk : PhysicalChunk) : Result ScanState := do
  rejectIf (state.expectingFileHeader = true) (decodeError .corruption)
  rejectIf (chunk.bytes.length ≠ pageHeaderEncodedLen) (decodeError .corruption)
  let header ← PageHeader.decode chunk.bytes
  rejectIf (header.fileId ≠ chunk.position.fileId ∨
    header.pageNo ≠ chunk.position.offset / target.geometry.pageSize) (decodeError .corruption)
  return {state with expectingFileHeader := header.pageNo == 0}

def scanFileHeader (target : ScanTarget) (state : ScanState) (chunk : PhysicalChunk) : Result ScanState := do
  rejectIf (state.expectingFileHeader = false) (decodeError .corruption)
  rejectIf (chunk.bytes.length ≠ fileHeaderEncodedLen) (decodeError .corruption)
  let header ← VLogFileHeader.decode chunk.bytes
  rejectIf (header.databaseUuid ≠ target.databaseUuid ∨ header.fileId ≠ chunk.position.fileId)
    (decodeError .corruption)
  return {state with expectingFileHeader := false}

-- The first record fixes the identity, every later one repeats it.
def checkIdentity (state : ScanState) (header : RecordHeader) : Result ScanState :=
  match state.identity with
  | some (commitSeq,txUuid) => do
    rejectIf (header.commitSeq ≠ commitSeq ∨ header.txUuid ≠ txUuid) (decodeError .corruption)
    return state
  | none => .ok {state with identity := some (header.commitSeq,header.txUuid)}

-- `PAGE_END` is not a transaction record, so its end is not checked; the others are.
def acceptRecord (target : ScanTarget) (state : ScanState) (isLast : Bool) :
    DecodedRecord → Result (ScanState × Bool)
  | .pageEnd => do
    rejectIf (state.footer.isSome ∨ state.previousTransactionRecordWasPageEnd = true) (decodeError .corruption)
    return ({state with previousTransactionRecordWasPageEnd := true},false)
  | .txBegin found => do
    rejectIf (state.begin.isSome ∨ state.footer.isSome ∨ state.logicalOpCount ≠ 0) (decodeError .corruption)
    rejectIf (found.vlogBegin ≠ target.vlogBegin) (decodeError .corruption)
    let envelopeCrc ← state.envelopeCrc.updateTxBegin found
    return ({state with envelopeCrc,begin := some found,previousTransactionRecordWasPageEnd := false},true)
  | .kvRecord found => do
    rejectIf (state.begin.isNone ∨ state.footer.isSome ∨ found.opIndex ≠ state.logicalOpCount)
      (decodeError .corruption)
    let envelopeCrc ← state.envelopeCrc.updateKvRecord found
    return ({state with
      envelopeCrc
      distinctKeys := state.distinctKeys.insert found.key
      logicalOpCount := state.logicalOpCount + 1
      kvRecordCount := state.kvRecordCount + 1
      previousTransactionRecordWasPageEnd := false},true)
  | .deleteRecord found => do
    rejectIf (state.begin.isNone ∨ state.footer.isSome ∨ found.opIndex ≠ state.logicalOpCount)
      (decodeError .corruption)
    let envelopeCrc ← state.envelopeCrc.updateDeleteRecord found
    return ({state with
      envelopeCrc
      distinctKeys := state.distinctKeys.insert found.key
      logicalOpCount := state.logicalOpCount + 1
      deleteRecordCount := state.deleteRecordCount + 1
      previousTransactionRecordWasPageEnd := false},true)
  | .txPreparedEnd found => do
    let declaredBegin ← orError state.begin (decodeError .corruption)
    rejectIf (state.footer.isSome ∨ found.commitSeq ≠ declaredBegin.commitSeq ∨
      found.txUuid ≠ declaredBegin.txUuid ∨ found.vlogBegin ≠ declaredBegin.vlogBegin ∨
      found.vlogEnd ≠ target.vlogEnd ∨ found.logicalOpCount ≠ declaredBegin.logicalOpCount ∨
      found.distinctKeyCount ≠ declaredBegin.distinctKeyCount ∨ found.logicalOpCount ≠ state.logicalOpCount ∨
      found.distinctKeyCount ≠ state.distinctKeys.length ∨ found.kvRecordCount ≠ state.kvRecordCount ∨
      found.deleteRecordCount ≠ state.deleteRecordCount ∨ isLast = false) (decodeError .corruption)
    let calculatedCrc ← state.envelopeCrc.finishWithFooter found
    rejectIf (calculatedCrc ≠ found.envelopeCrc32c ∨
      ∃ expected ∈ target.expectedEnvelopeCrc32c, expected ≠ calculatedCrc) (decodeError .corruption)
    return ({state with footer := some found,previousTransactionRecordWasPageEnd := false},true)

def scanRecord (target : ScanTarget) (state : ScanState) (chunk : PhysicalChunk) (isLast : Bool) :
    Result (ScanState × Bool) := do
  rejectIf (state.expectingFileHeader = true) (decodeError .corruption)
  let decoded ← decodeRecordAt chunk.bytes chunk.position target.geometry
  let header ← RecordHeader.decode chunk.bytes
  let state ← state.checkIdentity header
  state.acceptRecord target isLast decoded

def scanContents (target : ScanTarget) (state : ScanState) (chunk : PhysicalChunk) (isLast : Bool) :
    Result (ScanState × Bool) :=
  if chunk.position.offset % target.geometry.pageSize = 0 then
    (state.scanPageHeader target chunk).map (fun state => (state,false))
  else if chunk.position.offset < target.geometry.pageSize ∧ chunk.position.offset = pageHeaderEncodedLen then
    (state.scanFileHeader target chunk).map (fun state => (state,false))
  else state.scanRecord target chunk isLast

def checkRecordEnd (target : ScanTarget) (transactionRecord : Bool) (recordEnd : VLogPosition) : Result Unit :=
  if transactionRecord then validateTransactionRecordEnd recordEnd target.geometry else .ok ()

-- The first chunk stands where the envelope begins; the physical end starts there too.
def scanChunk (target : ScanTarget) (state : ScanState) (chunk : PhysicalChunk) (isLast : Bool) :
    Result ScanState := do
  rejectIf (chunk.bytes.isEmpty = true) (decodeError .corruption)
  let expectedStart ← nextChunkPosition state.physicalEnd target.geometry
  rejectIf (chunk.position ≠ expectedStart) (decodeError .corruption)
  let scanned ← state.scanContents target chunk isLast
  let physicalEnd ← chunkEnd chunk target.geometry
  checkRecordEnd target scanned.2 physicalEnd
  return {scanned.1 with physicalEnd}

def scanChunks (target : ScanTarget) (state : ScanState) : List PhysicalChunk → Result ScanState
  | [] => .ok state
  | chunk :: rest => do
    let state ← state.scanChunk target chunk rest.isEmpty
    scanChunks target state rest

end ScanState

def ScanTarget.initial (target : ScanTarget) : ScanState :=
  ⟨target.vlogBegin,none,none,none,.new,0,0,0,[],false,false⟩

def scanPreparedEnvelope (chunks : List PhysicalChunk) (geometry : VLogGeometry) (databaseUuid : Uuid)
    (vlogBegin vlogEnd : VLogPosition) (expectedEnvelopeCrc32c : Option Nat) : Result ScannedEnvelope := do
  geometry.validateForDecode
  let firstChunkPosition ← nextChunkPosition vlogBegin geometry
  rejectIf (chunks.isEmpty = true ∨ databaseUuid.isZero = true ∨ vlogEnd ≤ vlogBegin ∨
    chunks.head?.map PhysicalChunk.position ≠ some firstChunkPosition) (decodeError .corruption)
  let target : ScanTarget := ⟨geometry,databaseUuid,vlogBegin,vlogEnd,expectedEnvelopeCrc32c⟩
  let state ← target.initial.scanChunks target chunks
  rejectIf (state.physicalEnd ≠ vlogEnd) (decodeError .corruption)
  let begin ← orError state.begin (decodeError .corruption)
  let footer ← orError state.footer (decodeError .corruption)
  return ⟨begin.commitSeq,begin.txUuid,vlogBegin,vlogEnd,state.logicalOpCount,footer.distinctKeyCount,
    state.kvRecordCount,state.deleteRecordCount,footer.envelopeCrc32c⟩

structure LocatedFooter where
  recordStart : VLogPosition
  footer : TxPreparedEnd
  deriving DecidableEq, Repr

def locateFooterFromEnd (tailStart : VLogPosition) (tail : Bytes) (vlogEnd : VLogPosition)
    (geometry : VLogGeometry) : Result LocatedFooter := do
  geometry.validateForDecode
  rejectIf (tailStart.fileId ≠ vlogEnd.fileId ∨ tail.length < 8) (decodeError .corruption)
  rejectIf (tailStart.offset + tail.length ≠ vlogEnd.offset ∨ vlogEnd.offset > geometry.maxFileSize)
    (decodeError .corruption)
  let trailerOffset := tail.length - 8
  rejectIf (slice? tail (trailerOffset + 4) 4 ≠ some endTrailerMagic) (decodeError .corruption)
  let endRecordLen ← readU32 tail trailerOffset
  rejectIf (vlogEnd.offset < endRecordLen) (decodeError .corruption)
  let recordStartOffset := vlogEnd.offset - endRecordLen
  rejectIf (recordStartOffset < tailStart.offset ∨ vlogEnd.offset < 1 ∨
    recordStartOffset / geometry.pageSize ≠ (vlogEnd.offset - 1) / geometry.pageSize) (decodeError .corruption)
  let relativeStart := recordStartOffset - tailStart.offset
  rejectIf (relativeStart > tail.length) (decodeError .corruption)
  let record := tail.drop relativeStart
  let recordStart : VLogPosition := ⟨vlogEnd.fileId,recordStartOffset⟩
  match ← decodeRecordAt record recordStart geometry with
  | .txPreparedEnd footer =>
    if footer.vlogEnd = vlogEnd then return ⟨recordStart,footer⟩ else throw (decodeError .corruption)
  | _ => throw (decodeError .corruption)

end ExpirKv
