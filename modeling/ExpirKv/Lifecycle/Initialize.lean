import ExpirKv.Lifecycle.Root

namespace ExpirKv
open RootLock

-- The index library, as a directory tree it writes and reads. A creation passes through `creating` before
-- it has `created`; an open may tidy up and leaves `leaves` behind.
structure Fjall where
  creating : List (List (Bytes × Node))
  created : List (Bytes × Node)
  committed : List (Bytes × Node) → IndexAtomicBatch → List (Bytes × Node)
  opens : List (Bytes × Node) → Result Index
  leaves : List (Bytes × Node) → List (Bytes × Node)
  verifies : List (Bytes × Node) → Result Index

structure OpenOptions where
  createIfMissing : Bool
  errorIfExists : Bool
  deriving DecidableEq, Repr

structure OpenPreparation where
  format : FormatMetadata
  inventory : ManagedInventory
  index : Index

def notFoundError : StorageError := .codecError .notFound .open .preflight none .doNotRetry
def invalidArgumentError : StorageError :=
  .codecError .invalidArgument .open .preflight none .fixRequestAndRetrySameInstance

section index
variable [Crc32c]

def validateFinalIdentity (index : Index) (format : FormatMetadata) : Result Unit := do
  let encoded ← orError index.system[databaseIdentityKey]? (metadataError .corruption)
  let identity ← DatabaseIdentity.decode encoded
  identity.validateAgainst format.formatVersion format.databaseUuid
  rejectIf (index.system[headSeqKey]? = none ∨ index.system[durableFrontierKey]? = none) (metadataError .corruption)

-- One turn of the scan over the system keyspace.
def checkInitialEntry (encodedIdentity : Bytes) (entry : Bytes × Bytes) : Result Unit :=
  if entry.1 = databaseIdentityKey then rejectIf (entry.2 ≠ encodedIdentity) (metadataError .corruption)
  else if entry.1 = headSeqKey then rejectIf (isEncodedHeadSeqZero entry.2 = false) (metadataError .corruption)
  else if entry.1 = durableFrontierKey then
    rejectIf (isEncodedEmptyDurableFrontier entry.2 = false) (metadataError .corruption)
  else .error layoutError

-- A key occurs once in a scan, so the three flags of the loop say which of the keys are there.
def validateInterruptedIndex (index : Index) (temporaryFormat : FormatMetadata) : Result Unit :=
  match index.system[databaseIdentityKey]? with
  | none => rejectIf (index.user.isEmpty = false ∨ index.transaction.isEmpty = false ∨ index.system.isEmpty = false) layoutError
  | some encodedIdentity => do
    let identity ← DatabaseIdentity.decode encodedIdentity
    identity.validateAgainst temporaryFormat.formatVersion temporaryFormat.databaseUuid
    rejectIf (index.user.isEmpty = false ∨ index.transaction.isEmpty = false) layoutError
    index.system.toList.forM (checkInitialEntry encodedIdentity)
    rejectIf (index.system[headSeqKey]? = none ∨ index.system[durableFrontierKey]? = none) (metadataError .corruption)

end index

-- Four draws from the random source.
def generateDatabaseUuid (drawn : List (Except IoError Uuid)) : Result Uuid :=
  go (drawn.take 4)
where
  go : List (Except IoError Uuid) → Result Uuid
    | [] => .error (.codecError .unrecoverable .open .preflight none .doNotRetry)
    | .error error :: _ => .error (openIoError error)
    | .ok uuid :: rest => if uuid.isZero then go rest else .ok uuid

def createSyncedFormatTemp (format : FormatMetadata) : Eff Disk StorageError Unit := do
  let encoded ← Eff.lift format.encode
  createNewRegular formatTempFileName
  writeWhole formatTempFileName encoded
  request
  syncRoot

def publishFormatTemp : Eff Disk StorageError Unit := do
  let format ← inspectChild formatFileName
  let temporary ← inspectChild formatTempFileName
  match format,temporary with
  | .missing,.regularFile _ => do
    renameChild formatTempFileName formatFileName
    syncRoot
  | _,_ => throw layoutError

def indexPreflightError (error : InternalIndexError) : StorageError :=
  {(StorageError.codecError error.kind .open .preflight none (retryAdviceFor error.kind)) with osCode := error.osCode}

def initializationCommitError (error : IndexCommitError) : StorageError :=
  {(StorageError.codecError error.source.kind .open .indexCommit none
      (if error.applyState = .unknown then .reopenAndVerify else retryAdviceFor error.source.kind)) with
    osCode := error.source.osCode}

def commitFault : Answer → Option CommitFault
  | .index fault => some fault
  | .io error => some (.notApplied ⟨.io,error.rawOsError⟩)
  | _ => none

def unknownApplied : Option CommitFault → Bool
  | some (.unknown _ applied) => applied
  | _ => false

namespace Fjall

def store (fjall : Fjall) (batch : IndexAtomicBatch) (disk : Disk) : Disk :=
  match disk.root indexDirectoryName with
  | some (.directory entries) => disk.set indexDirectoryName (some (.directory (fjall.committed entries batch)))
  | _ => disk

-- `create_for_open_preparation`: the target has to be empty, and the creation may be cut on its way.
def createForOpenPreparation (fjall : Fjall) : Eff Disk StorageError Index := do
  let entries ← readDirectory indexDirectoryName
  if entries ≠ [] then throw layoutError
  match (← get).calls.script.headD .fine with
  | .short count => do
    modify (fun disk => {disk.set indexDirectoryName (some (.directory (fjall.creating[count]?.getD []))) with
      calls := {disk.calls with script := disk.calls.script.tail}})
    throw (openIoError ⟨.other,none⟩)
  | _ => do
    perform (fun disk => disk.set indexDirectoryName (some (.directory fjall.created)))
    return .empty

-- `open_existing_for_open_preparation`.
def openExistingForOpenPreparation (fjall : Fjall) (entries : List (Bytes × Node)) : Eff Disk StorageError Index := do
  perform (fun disk => disk.set indexDirectoryName (some (.directory (fjall.leaves entries))))
  Eff.lift (fjall.opens entries)

variable [Crc32c]

-- `commit_atomic`. A batch that was applied is on the disk, whatever the answer said.
def commitAtomic (fjall : Fjall) (index : Index) (batch : IndexAtomicBatch) : Eff Disk StorageError Index := do
  let fault := commitFault ((← get).calls.script.headD .fine)
  modify (fun disk => {disk with calls := {disk.calls with script := disk.calls.script.tail}})
  match index.commitAtomic batch .syncAll fault with
  | (.ok (),next) => do
    modify (fjall.store batch)
    return next
  | (.error error,_) => do
    if error.applyState = .unknown ∧ unknownApplied fault = true then modify (fjall.store batch)
    throw (initializationCommitError error)

end Fjall

def requireRegular (name : String) (expectedLen : Option Nat) : Eff Disk StorageError Unit := do
  match ← inspectChild name with
  | .regularFile len => if expectedLen.all (fun expected => expected = len) then return () else throw layoutError
  | _ => throw layoutError

def requireDirectory (name : String) : Eff Disk StorageError Unit := do
  match ← inspectChild name with
  | .directory => return ()
  | _ => throw layoutError

section opening
variable [Crc32c]

-- `ManagedInventory::inspect` on a root.
def inspectRoot (format : FormatMetadata) : Eff Disk StorageError ManagedInventory := do
  requireRegular lockFileName none
  requireRegular formatFileName (some formatEncodedLen)
  if (← inspectChild formatTempFileName) ≠ .missing then throw layoutError
  requireDirectory indexDirectoryName
  requireDirectory vlogDirectoryName
  let entries ← readDirectory vlogDirectoryName
  Eff.lift (inspectListing format entries)

def initializeDatabase (fjall : Fjall) (drawn : List (Except IoError Uuid)) : Eff Disk StorageError OpenPreparation := do
  let databaseUuid ← Eff.lift (generateDatabaseUuid drawn)
  let format ← Eff.lift (FormatMetadata.new databaseUuid)
  createSyncedFormatTemp format
  createDirectory indexDirectoryName
  createDirectory vlogDirectoryName
  syncRoot
  let index ← fjall.createForOpenPreparation
  let batch ← Eff.lift ((initializationBatch format.formatVersion format.databaseUuid).mapError indexPreflightError)
  let index ← fjall.commitAtomic index batch
  let tree ← readDirectory indexDirectoryName
  if everyEntry isFile tree = false then throw layoutError
  syncDirectory
  syncRoot
  if (← readFormat true) ≠ some format then throw (metadataError .corruption)
  publishFormatTemp
  let inventory ← inspectRoot format
  Eff.lift (validateFinalIdentity index format)
  return ⟨format,inventory,index⟩

def prepareExisting (fjall : Fjall) (options : OpenOptions) (format : FormatMetadata) :
    Eff Disk StorageError OpenPreparation := do
  let inventory ← inspectRoot format
  let entries ← readDirectory indexDirectoryName
  let index ← fjall.openExistingForOpenPreparation entries
  Eff.lift (validateFinalIdentity index format)
  if options.errorIfExists then throw invalidArgumentError
  return ⟨format,inventory,index⟩

def validateInterruptedInitialization (fjall : Fjall) (temporaryFormat : FormatMetadata) :
    Eff Disk StorageError Unit := do
  match ← inspectChild vlogDirectoryName with
  | .missing => pure ()
  | .directory => do
    let entries ← readDirectory vlogDirectoryName
    if entries ≠ [] then throw layoutError
  | _ => throw layoutError
  match ← inspectChild indexDirectoryName with
  | .missing => return ()
  | .directory => do
    let entries ← readDirectory indexDirectoryName
    if entries = [] then return ()
    let index ← fjall.openExistingForOpenPreparation entries
    Eff.lift (validateInterruptedIndex index temporaryFormat)
  | _ => throw layoutError

def cleanupInterruptedInitialization : Eff Disk StorageError Unit := do
  removeDirectoryTreeTracked indexDirectoryName
  removeDirectoryTreeTracked vlogDirectoryName
  let _ ← removeRegularChildTracked formatTempFileName
  syncRoot

-- `prepare_open`.
def prepareOpen (fjall : Fjall) (options : OpenOptions) (drawn : List (Except IoError Uuid)) :
    Eff Disk StorageError OpenPreparation := do
  if (← acquire options.createIfMissing) = false then throw notFoundError
  let formatPresent := (← inspectChild formatFileName) ≠ .missing
  let temporaryFormatPresent := (← inspectChild formatTempFileName) ≠ .missing
  if formatPresent ∧ temporaryFormatPresent then throw layoutError
  let format ← readFormat false
  let temporaryFormat ← readFormat true
  match format,temporaryFormat with
  | some _,some _ => throw layoutError
  | some format,none => prepareExisting fjall options format
  | none,some temporaryFormat => do
    validateInterruptedInitialization fjall temporaryFormat
    if options.createIfMissing = false then throw notFoundError
    cleanupInterruptedInitialization
    initializeDatabase fjall drawn
  | none,none => do
    if (← inspectChild indexDirectoryName) ≠ .missing then throw layoutError
    if (← inspectChild vlogDirectoryName) ≠ .missing then throw layoutError
    if options.createIfMissing = false then throw notFoundError
    initializeDatabase fjall drawn

end opening

end ExpirKv
