import ExpirKv.Vlog.Planner

namespace ExpirKv
open VLogGeometry

variable [Crc32c]

inductive LogicalOperation where
  | put (key value : Bytes)
  | delete (key : Bytes)
  deriving DecidableEq, Repr

def operationKey : LogicalOperation → Bytes
  | .put key _ => key
  | .delete key => key

structure PreparedEnvelope where
  commitSeq : Nat
  txUuid : Uuid
  vlogBegin : VLogPosition
  vlogEnd : VLogPosition
  envelopeCrc32c : Nat
  chunks : List PhysicalChunk
  valuePointers : List (Option ValuePointer)
  deriving DecidableEq, Repr

-- The first pass: every length is checked before anything is placed.
def recordLength (operation : LogicalOperation) : Result Nat := do
  let key := operationKey operation
  rejectIf (key.isEmpty ∨ key.length > maxKeyValueSize) (invalidVlogError .invalidArgument)
  match operation with
  | .put _ value => do
    rejectIf (value.length ≥ 65536) (invalidVlogError .invalidArgument)
    rejectIf (key.length + value.length > maxKeyValueSize) (invalidVlogError .invalidArgument)
    return kvRecordFixedLenWithCrc + (key.length + value.length)
  | .delete _ => return 53 + key.length

-- The key set only serves to count; an insertion-ordered list counts the same.
def distinctKeys (operations : List LogicalOperation) : List Bytes :=
  operations.foldl (fun keys operation => keys.insert (operationKey operation)) []

def LogicalOperation.isPut : LogicalOperation → Bool
  | .put _ _ => true
  | .delete _ => false

-- `for encoded_len in record_lengths { placements.push(candidate.plan_record(encoded_len)?) }`.
def planRecords (planner : LayoutPlanner) : List Nat → Result (List RecordPlacement × LayoutPlanner)
  | [] => .ok ([],planner)
  | encodedLen :: rest => do
    let placed ← planner.planRecord encodedLen
    let later ← planRecords placed.2 rest
    return (placed.1 :: later.1,later.2)

def updateOperation (crc : EnvelopeCrc32c) (commitSeq : Nat) (txUuid : Uuid) (opIndex : Nat) :
    LogicalOperation → Result EnvelopeCrc32c
  | .put key value => crc.updateKvRecord ⟨commitSeq,txUuid,opIndex,key,value⟩
  | .delete key => crc.updateDeleteRecord ⟨commitSeq,txUuid,opIndex,key⟩

def updateOperations (crc : EnvelopeCrc32c) (commitSeq : Nat) (txUuid : Uuid) (opIndex : Nat) :
    List LogicalOperation → Result EnvelopeCrc32c
  | [] => .ok crc
  | operation :: rest => do
    let crc ← updateOperation crc commitSeq txUuid opIndex operation
    updateOperations crc commitSeq txUuid (opIndex + 1) rest

def preludeChunk (databaseUuid : Uuid) (commitSeq : Nat) (txUuid : Uuid) (geometry : VLogGeometry) :
    LayoutPrelude → Result PhysicalChunk
  | .pageHeader position pageNo => do
    let encoded ← PageHeader.encode ⟨position.fileId,pageNo⟩
    return ⟨position,encoded⟩
  | .fileHeader position => do
    let encoded ← (VLogFileHeader.new databaseUuid position.fileId).encode
    return ⟨position,encoded⟩
  | .pageEnd position encodedLen => do
    let bytes ← encodePageEnd commitSeq txUuid position geometry
    rejectIf (bytes.length ≠ encodedLen) (decodeError .invalidLayout)
    return ⟨position,bytes⟩

def appendPlacement (placement : RecordPlacement) (recordBytes : Bytes) (databaseUuid : Uuid) (commitSeq : Nat)
    (txUuid : Uuid) (geometry : VLogGeometry) : Result (List PhysicalChunk) := do
  rejectIf (recordBytes.length ≠ placement.encodedLen) (decodeError .invalidLayout)
  let chunks ← placement.preludes.mapM (preludeChunk databaseUuid commitSeq txUuid geometry)
  return chunks ++ [⟨placement.recordStart,recordBytes⟩]

def encodeOperation (commitSeq : Nat) (txUuid : Uuid) (opIndex : Nat) (placement : RecordPlacement) :
    LogicalOperation → Result (Bytes × Option ValuePointer)
  | .put key value => do
    let bytes ← encodeKvRecord ⟨commitSeq,txUuid,opIndex,key,value⟩
    rejectIf (placement.recordStart.offset ≥ 4294967296) (decodeError .invalidLayout)
    rejectIf (value.length ≥ 65536) (invalidVlogError .invalidArgument)
    return (bytes,some ⟨valuePointerFormatVersion,placement.recordStart.fileId,placement.recordStart.offset,
      placement.encodedLen,value.length⟩)
  | .delete key => do
    let bytes ← encodeDeleteRecord ⟨commitSeq,txUuid,opIndex,key⟩
    return (bytes,none)

-- The loop over the operations, each with the placement behind its index.
def appendOperations (databaseUuid : Uuid) (commitSeq : Nat) (txUuid : Uuid) (geometry : VLogGeometry)
    (opIndex : Nat) :
    List LogicalOperation → List RecordPlacement → Result (List PhysicalChunk × List (Option ValuePointer))
  | [],_ => .ok ([],[])
  | _ :: _,[] => .error (decodeError .invalidLayout)
  | operation :: operations,placement :: placements => do
    let encoded ← encodeOperation commitSeq txUuid opIndex placement operation
    let chunks ← appendPlacement placement encoded.1 databaseUuid commitSeq txUuid geometry
    let later ← appendOperations databaseUuid commitSeq txUuid geometry (opIndex + 1) operations placements
    return (chunks ++ later.1,encoded.2 :: later.2)

def prepareEnvelope (planner : LayoutPlanner) (databaseUuid : Uuid) (commitSeq : Nat) (txUuid : Uuid)
    (operations : List LogicalOperation) : Result (PreparedEnvelope × LayoutPlanner) := do
  (validateIdentity commitSeq txUuid).mapError (fun _ => invalidVlogError .invalidArgument)
  rejectIf (databaseUuid.isZero ∨ operations.isEmpty) (invalidVlogError .invalidArgument)
  let logicalOpCount := operations.length
  rejectIf (logicalOpCount ≥ 18446744073709551616) (invalidVlogError .capacityExceeded)
  let operationLengths ← operations.mapM recordLength
  let recordLengths := txBeginEncodedLen :: operationLengths ++ [txPreparedEndEncodedLen]
  let distinctKeyCount := (distinctKeys operations).length
  let kvRecordCount := operations.countP LogicalOperation.isPut
  let deleteRecordCount := operations.countP (fun operation => !operation.isPut)
  let vlogBegin := planner.position
  let planned ← planRecords planner recordLengths
  let vlogEnd := planned.2.position
  let begin : TxBegin := ⟨commitSeq,txUuid,vlogBegin,logicalOpCount,distinctKeyCount⟩
  let unsealed : TxPreparedEnd := ⟨commitSeq,txUuid,vlogBegin,vlogEnd,logicalOpCount,distinctKeyCount,
    kvRecordCount,deleteRecordCount,0⟩
  let crc ← EnvelopeCrc32c.new.updateTxBegin begin
  let crc ← updateOperations crc commitSeq txUuid 0 operations
  let envelopeCrc32c ← crc.finishWithFooter unsealed
  let footer : TxPreparedEnd := {unsealed with envelopeCrc32c}
  let beginBytes ← encodeTxBegin begin
  let beginPlacement ← orError planned.1.head? (decodeError .invalidLayout)
  let beginChunks ← appendPlacement beginPlacement beginBytes databaseUuid commitSeq txUuid planner.geometry
  let appended ← appendOperations databaseUuid commitSeq txUuid planner.geometry 0 operations planned.1.tail
  let footerPlacement ← orError planned.1.getLast? (decodeError .invalidLayout)
  let footerBytes ← encodeTxPreparedEnd footer
  let footerChunks ← appendPlacement footerPlacement footerBytes databaseUuid commitSeq txUuid planner.geometry
  return (⟨commitSeq,txUuid,vlogBegin,vlogEnd,envelopeCrc32c,beginChunks ++ appended.1 ++ footerChunks,appended.2⟩,
    planned.2)

end ExpirKv
