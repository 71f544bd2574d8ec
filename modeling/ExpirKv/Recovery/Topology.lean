import ExpirKv.Storage

namespace ExpirKv
open VLogGeometry Storage

-- `FormatMetadataV0`, as far as recovery reads it.
structure FormatMetadata where
  formatVersion : Nat
  databaseUuid : Uuid
  pageSize : Nat
  deriving DecidableEq, Repr

structure VLogInventoryEntry where
  fileId : Nat
  len : Nat
  deriving DecidableEq, Repr

structure ManagedInventory where
  vlogFiles : List VLogInventoryEntry
  deriving DecidableEq, Repr

-- `PhysicalTail::Empty` is `none`.
structure RecoveryTopology where
  physicalTail : Option VLogPosition
  fileCount : Nat
  deriving DecidableEq, Repr

def layoutError : StorageError := .codecError .invalidLayout .open .preflight none .restoreOrRepair

def openInventoryError (kind : StorageErrorKind) : StorageError :=
  .codecError kind .open .recovery none (if kind = .incompatibleFormat then .doNotRetry else .restoreOrRepair)

def openHeaderDecodeError (error : StorageError) : StorageError := openInventoryError error.kind

def inventoryCorruption : StorageError := openInventoryError .corruption

section inspect
variable [Crc32c]

def validateFileIdentity (format : FormatMetadata) (fileId : Nat) (contents : Bytes) : Result Unit := do
  let encodedPage ← orError (slice? contents 0 pageHeaderEncodedLen) inventoryCorruption
  let encodedFile ← orError (slice? contents pageHeaderEncodedLen fileHeaderEncodedLen) inventoryCorruption
  let pageHeader ← (PageHeader.decode encodedPage).mapError openHeaderDecodeError
  let fileHeader ← (VLogFileHeader.decode encodedFile).mapError openHeaderDecodeError
  rejectIf (pageHeader.fileId ≠ fileId ∨ pageHeader.pageNo ≠ 0 ∨ fileHeader.fileId ≠ fileId ∨
    fileHeader.databaseUuid ≠ format.databaseUuid ∨ fileHeader.formatVersion ≠ format.formatVersion ∨
    fileHeader.pageSize ≠ format.pageSize ∨ fileHeader.maxFileSize ≠ maxVlogFileSize) inventoryCorruption

-- A name outside `D000000.data` to `D999999.data` is no managed file.
def inspectFile (format : FormatMetadata) (entry : Nat × Bytes) : Result VLogInventoryEntry := do
  rejectIf (entry.1 > maxVlogFileId) layoutError
  rejectIf (entry.2.length > maxVlogFileSize) layoutError
  if entry.2.length ≥ pageHeaderEncodedLen + fileHeaderEncodedLen then do
    validateFileIdentity format entry.1 entry.2
    return ⟨entry.1,entry.2.length⟩
  else return ⟨entry.1,entry.2.length⟩

def inspectFiles (format : FormatMetadata) (files : Directory) : Result ManagedInventory := do
  let vlogFiles ← files.toList.mapM (inspectFile format)
  return ⟨vlogFiles⟩

-- A refused answer stands for a failing call and for a root whose other entries are not as expected.
def ManagedInventory.inspect (format : FormatMetadata) : Eff Storage StorageError ManagedInventory := do
  let inspected ← reading (fun storage => inspectFiles format storage.vlog.files)
  Eff.lift inspected

end inspect

def validateInventoryEntry (geometry : VLogGeometry) (previous : Option Nat) (entry : VLogInventoryEntry) :
    Result (Option Nat) := do
  rejectIf (entry.fileId > geometry.maxFileId ∨ entry.len > geometry.maxFileSize ∨
    previous.any (fun fileId => fileId ≥ entry.fileId) = true) inventoryCorruption
  return some entry.fileId

def validateInventoryOrder (inventory : ManagedInventory) (geometry : VLogGeometry) : Result Unit := do
  let _ ← inventory.vlogFiles.foldlM (validateInventoryEntry geometry) none
  return ()

-- The loop over the files up to the stable end: each the next, each full but the last.
def validateStableFile (geometry : VLogGeometry) (stableEnd : VLogPosition) (expectedFileId : Nat) :
    List VLogInventoryEntry → Result Unit
  | [] => .error inventoryCorruption
  | entry :: rest => do
    rejectIf (entry.fileId ≠ expectedFileId) inventoryCorruption
    if entry.fileId < stableEnd.fileId then do
      rejectIf (entry.len ≠ geometry.maxFileSize) inventoryCorruption
      validateStableFile geometry stableEnd (expectedFileId + 1) rest
    else rejectIf (entry.len < stableEnd.offset) inventoryCorruption

def validateStableFiles (inventory : ManagedInventory) (stableEnd : Option VLogPosition) (geometry : VLogGeometry) :
    Result Unit :=
  match stableEnd with
  | none => .ok ()
  | some stableEnd => do
    rejectIf (stableEnd.fileId > geometry.maxFileId ∨ stableEnd.offset > geometry.maxFileSize) inventoryCorruption
    validateStableFile geometry stableEnd 0
      (inventory.vlogFiles.takeWhile (fun entry => decide (entry.fileId ≤ stableEnd.fileId)))

namespace RecoveryTopology

def analyze (inventory : ManagedInventory) (stableEnd : Option VLogPosition) : Result RecoveryTopology := do
  validateInventoryOrder inventory production
  validateStableFiles inventory stableEnd production
  return ⟨inventory.vlogFiles.getLast?.map (fun entry => ⟨entry.fileId,entry.len⟩),inventory.vlogFiles.length⟩

-- The binary search runs over ids that were just checked to increase.
def containsEnd (inventory : ManagedInventory) : Option VLogPosition → Bool
  | none => true
  | some position =>
    (inventory.vlogFiles.find? (fun entry => entry.fileId == position.fileId)).any (fun entry => entry.len ≥ position.offset)

def hasSuffixAfter (inventory : ManagedInventory) : Option VLogPosition → Bool
  | none => !inventory.vlogFiles.isEmpty
  | some position => inventory.vlogFiles.any (fun entry =>
      entry.fileId > position.fileId || (entry.fileId == position.fileId && entry.len > position.offset))

def physicalTailMatches (topology : RecoveryTopology) (expected : Option VLogPosition) : Bool :=
  topology.physicalTail == expected

end RecoveryTopology

end ExpirKv
