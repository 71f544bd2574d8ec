import ExpirKv.Library.Effects
import ExpirKv.Vlog.Envelope

namespace ExpirKv

-- A planner behind `&mut`, and the answers the allocator has left: behind the list every request is granted.
structure Reserving where
  planner : LayoutPlanner
  grants : List Bool

namespace Reserving
variable {α : Type}

def exhausted : StorageError := invalidVlogError .resourceExhausted

-- `try_reserve` at any of the sites.
def reserve : Eff Reserving StorageError Unit := do
  let granted := (← get).grants.head?.getD true
  modify (fun state => {state with grants := state.grants.tail})
  if granted then return () else throw exhausted

-- An encoder validates, reserves its bytes and fills them.
def reserved (encoded : Result Bytes) : Eff Reserving StorageError Bytes := do
  let bytes ← Eff.lift encoded
  reserve
  return bytes

def assign (planner : LayoutPlanner) : Eff Reserving StorageError Unit :=
  modify (fun state => {state with planner})

def moveTo (position : VLogPosition) : Eff Reserving StorageError Unit :=
  modify (fun state => {state with planner := {state.planner with position}})

-- A method called on a clone. The allocator is the same, and the planner behind `&mut` stays.
def onClone (clone : LayoutPlanner) (method : Eff Reserving StorageError α) :
    Eff Reserving StorageError (α × LayoutPlanner) :=
  (do let value ← method
      return (value,(← get).planner)).within
    (fun state => {state with planner := clone}) (fun state reached => {state with grants := reached.grants})

def ensureRecordArea : Eff Reserving StorageError (List LayoutPrelude) := do
  let self := (← get).planner
  let position ← Eff.lift (LayoutPlanner.rollFullFile self.geometry self.position)
  let opened := LayoutPlanner.areaHeaders self.geometry position
  moveTo opened.2
  Eff.lift (validateRecordStart opened.2 self.geometry)
  return opened.1

def padPage (remaining : Nat) : Eff Reserving StorageError (List LayoutPrelude) := do
  let self := (← get).planner
  Eff.lift (rejectIf (remaining < pageEndMinSize) (decodeError .invalidLayout))
  moveTo ⟨self.position.fileId,self.position.offset + remaining⟩
  let opened ← ensureRecordArea
  return .pageEnd self.position remaining :: opened

-- The planner has moved when the bound of the file is checked.
def placeRecord (preludes : List LayoutPrelude) (encodedLen : Nat) : Eff Reserving StorageError RecordPlacement := do
  let self := (← get).planner
  let remaining ← Eff.lift (remainingInPage self.position.offset self.geometry)
  Eff.lift (rejectIf (encodedLen > remaining) (invalidVlogError .invalidArgument))
  let after := remaining - encodedLen
  Eff.lift (rejectIf (after ≠ 0 ∧ after < pageEndMinSize) (decodeError .invalidLayout))
  let recordEnd := self.position.offset + encodedLen
  moveTo ⟨self.position.fileId,recordEnd⟩
  Eff.lift (rejectIf (recordEnd > self.geometry.maxFileSize) capacityError)
  return ⟨preludes,self.position,encodedLen⟩

def planRecordInner (encodedLen : Nat) : Eff Reserving StorageError RecordPlacement := do
  reserve
  let opened ← ensureRecordArea
  let self := (← get).planner
  let remaining ← Eff.lift (remainingInPage self.position.offset self.geometry)
  if LayoutPlanner.needsPageEnd remaining encodedLen then do
    let padded ← padPage remaining
    placeRecord (opened ++ padded) encodedLen
  else placeRecord opened encodedLen

-- `*self = candidate` once the inner call has returned.
def planRecord (encodedLen : Nat) : Eff Reserving StorageError RecordPlacement := do
  let self := (← get).planner
  Eff.lift (rejectIf (encodedLen < pageEndMinSize ∨ encodedLen > self.geometry.pageSize)
    (invalidVlogError .invalidArgument))
  let placed ← onClone self (planRecordInner encodedLen)
  assign placed.2
  return placed.1

def planRecords (candidate : LayoutPlanner) :
    List Nat → Eff Reserving StorageError (List RecordPlacement × LayoutPlanner)
  | [] => return ([],candidate)
  | encodedLen :: rest => do
    let placed ← onClone candidate (planRecord encodedLen)
    let later ← planRecords placed.2 rest
    return (placed.1 :: later.1,later.2)

section encoding
variable [Crc32c]

def preludeChunk (databaseUuid : Uuid) (commitSeq : Nat) (txUuid : Uuid) (geometry : VLogGeometry) :
    LayoutPrelude → Eff Reserving StorageError PhysicalChunk
  | .pageHeader position pageNo => do
    let encoded ← reserved (PageHeader.encode ⟨position.fileId,pageNo⟩)
    return ⟨position,encoded⟩
  | .fileHeader position => do
    let encoded ← reserved (VLogFileHeader.new databaseUuid position.fileId).encode
    return ⟨position,encoded⟩
  | .pageEnd position encodedLen => do
    let bytes ← reserved (encodePageEnd commitSeq txUuid position geometry)
    Eff.lift (rejectIf (bytes.length ≠ encodedLen) (decodeError .invalidLayout))
    return ⟨position,bytes⟩

def preludeChunks (databaseUuid : Uuid) (commitSeq : Nat) (txUuid : Uuid) (geometry : VLogGeometry) :
    List LayoutPrelude → Eff Reserving StorageError (List PhysicalChunk)
  | [] => return []
  | entry :: rest => do
    let chunk ← preludeChunk databaseUuid commitSeq txUuid geometry entry
    let later ← preludeChunks databaseUuid commitSeq txUuid geometry rest
    return chunk :: later

def appendPlacement (placement : RecordPlacement) (recordBytes : Bytes) (databaseUuid : Uuid) (commitSeq : Nat)
    (txUuid : Uuid) (geometry : VLogGeometry) : Eff Reserving StorageError (List PhysicalChunk) := do
  Eff.lift (rejectIf (recordBytes.length ≠ placement.encodedLen) (decodeError .invalidLayout))
  let chunks ← preludeChunks databaseUuid commitSeq txUuid geometry placement.preludes
  return chunks ++ [⟨placement.recordStart,recordBytes⟩]

def encodeOperation (commitSeq : Nat) (txUuid : Uuid) (opIndex : Nat) (placement : RecordPlacement) :
    LogicalOperation → Eff Reserving StorageError (Bytes × Option ValuePointer)
  | .put key value => do
    let bytes ← reserved (encodeKvRecord ⟨commitSeq,txUuid,opIndex,key,value⟩)
    Eff.lift (rejectIf (placement.recordStart.offset ≥ 4294967296) (decodeError .invalidLayout))
    Eff.lift (rejectIf (value.length ≥ 65536) (invalidVlogError .invalidArgument))
    return (bytes,some ⟨valuePointerFormatVersion,placement.recordStart.fileId,placement.recordStart.offset,
      placement.encodedLen,value.length⟩)
  | .delete key => do
    let bytes ← reserved (encodeDeleteRecord ⟨commitSeq,txUuid,opIndex,key⟩)
    return (bytes,none)

def appendOperations (databaseUuid : Uuid) (commitSeq : Nat) (txUuid : Uuid) (geometry : VLogGeometry)
    (opIndex : Nat) : List LogicalOperation → List RecordPlacement →
    Eff Reserving StorageError (List PhysicalChunk × List (Option ValuePointer))
  | [],_ => return ([],[])
  | _ :: _,[] => throw (decodeError .invalidLayout)
  | operation :: operations,placement :: placements => do
    let encoded ← encodeOperation commitSeq txUuid opIndex placement operation
    let chunks ← appendPlacement placement encoded.1 databaseUuid commitSeq txUuid geometry
    let later ← appendOperations databaseUuid commitSeq txUuid geometry (opIndex + 1) operations placements
    return (chunks ++ later.1,encoded.2 :: later.2)

-- All of `prepare_envelope` in front of `*planner = candidate`.
def encodeEnvelope (planner : LayoutPlanner) (databaseUuid : Uuid) (commitSeq : Nat) (txUuid : Uuid)
    (operations : List LogicalOperation) : Eff Reserving StorageError (PreparedEnvelope × LayoutPlanner) := do
  Eff.lift ((validateIdentity commitSeq txUuid).mapError (fun _ => invalidVlogError .invalidArgument))
  Eff.lift (rejectIf (databaseUuid.isZero ∨ operations.isEmpty) (invalidVlogError .invalidArgument))
  let logicalOpCount := operations.length
  Eff.lift (rejectIf (logicalOpCount ≥ 18446744073709551616) (invalidVlogError .capacityExceeded))
  -- the set of keys and the list of lengths
  reserve
  reserve
  let operationLengths ← Eff.lift (operations.mapM recordLength)
  let recordLengths := txBeginEncodedLen :: operationLengths ++ [txPreparedEndEncodedLen]
  let distinctKeyCount := (distinctKeys operations).length
  let kvRecordCount := operations.countP LogicalOperation.isPut
  let deleteRecordCount := operations.countP (fun operation => !operation.isPut)
  let vlogBegin := planner.position
  reserve
  let planned ← planRecords planner recordLengths
  let vlogEnd := planned.2.position
  let begin : TxBegin := ⟨commitSeq,txUuid,vlogBegin,logicalOpCount,distinctKeyCount⟩
  let unsealed : TxPreparedEnd := ⟨commitSeq,txUuid,vlogBegin,vlogEnd,logicalOpCount,distinctKeyCount,
    kvRecordCount,deleteRecordCount,0⟩
  let crc ← Eff.lift (EnvelopeCrc32c.new.updateTxBegin begin)
  let crc ← Eff.lift (updateOperations crc commitSeq txUuid 0 operations)
  let envelopeCrc32c ← Eff.lift (crc.finishWithFooter unsealed)
  let footer : TxPreparedEnd := {unsealed with envelopeCrc32c}
  -- the chunks and the pointers
  reserve
  reserve
  let beginBytes ← reserved (encodeTxBegin begin)
  let beginPlacement ← Eff.lift (orError planned.1.head? (decodeError .invalidLayout))
  let beginChunks ← appendPlacement beginPlacement beginBytes databaseUuid commitSeq txUuid planner.geometry
  let appended ← appendOperations databaseUuid commitSeq txUuid planner.geometry 0 operations planned.1.tail
  let footerPlacement ← Eff.lift (orError planned.1.getLast? (decodeError .invalidLayout))
  let footerBytes ← reserved (encodeTxPreparedEnd footer)
  let footerChunks ← appendPlacement footerPlacement footerBytes databaseUuid commitSeq txUuid planner.geometry
  return (⟨commitSeq,txUuid,vlogBegin,vlogEnd,envelopeCrc32c,beginChunks ++ appended.1 ++ footerChunks,appended.2⟩,
    planned.2)

def prepareEnvelope (databaseUuid : Uuid) (commitSeq : Nat) (txUuid : Uuid) (operations : List LogicalOperation) :
    Eff Reserving StorageError PreparedEnvelope := do
  let prepared ← encodeEnvelope (← get).planner databaseUuid commitSeq txUuid operations
  assign prepared.2
  return prepared.1

end encoding

end Reserving

end ExpirKv
