import ExpirKv.Lifecycle.Initialize

namespace ExpirKv
open RootLock

structure DestroyInventory where
  format : Option FormatMetadata
  temporaryFormat : Option FormatMetadata
  indexPresent : Bool
  vlogPresent : Bool
  vlogFiles : List VLogInventoryEntry

-- The flag is read where the failure is reported.
def orDestroy {α : Type} (object : ManagedObject) (stage : DestroyStage) (x : Eff Disk StorageError α) :
    Eff Disk DestroyError α := do
  match ← x.attempt with
  | .ok value => return value
  | .error error => throw (destroyFailure error object stage (← get).calls.partiallyDeleted)

def validateDestroyFileKind (kind : ManagedEntryKind) (object : ManagedObject) : Except DestroyError Unit :=
  match kind with
  | .missing | .regularFile _ => .ok ()
  | _ => .error (destroyLayoutFailure object .inventory false)

def validateDestroyDirectoryKind (kind : ManagedEntryKind) (object : ManagedObject) : Except DestroyError Bool :=
  match kind with
  | .missing => .ok false
  | .directory => .ok true
  | _ => .error (destroyLayoutFailure object .inventory false)

section inventory
variable [Crc32c]

-- The read-only copy is opened, checked and closed. Whatever fails in it is one failure.
def verifyIndex (fjall : Fjall) (entries : List (Bytes × Node)) (check : Index → Result Unit) :
    Eff Disk StorageError Unit := do
  request
  let index ← Eff.lift (fjall.verifies entries)
  Eff.lift (check index)

-- The outcome of the verification: a failure counts unless a partly deleted index is allowed.
def settleVerification (allowPartiallyDeletedIndex : Bool) : Except StorageError Unit → Eff Disk DestroyError Unit
  | .ok () => return ()
  | .error error =>
    if allowPartiallyDeletedIndex then return ()
    else throw (destroyFailure error .databaseIdentity .inventory false)

def validateDestroyIndex (fjall : Fjall) (format temporaryFormat : Option FormatMetadata)
    (allowPartiallyDeletedIndex : Bool) : Eff Disk DestroyError Unit := do
  let entries ← orDestroy .indexDirectory .inventory (readDirectory indexDirectoryName)
  if everyEntry isRemovable entries = false then throw (destroyLayoutFailure .indexDirectory .inventory false)
  match format,temporaryFormat with
  | some format,_ =>
    if entries = [] ∧ allowPartiallyDeletedIndex then return ()
    else if entries = [] then throw (destroyCorruptionFailure .databaseIdentity .inventory false)
    else do
      let validation ← (verifyIndex fjall entries (fun index => validateFinalIdentity index format)).attempt
      settleVerification allowPartiallyDeletedIndex validation
  | none,some temporary =>
    if entries = [] then return ()
    else do
      let validation ← (verifyIndex fjall entries (fun index => validateInterruptedIndex index temporary)).attempt
      settleVerification allowPartiallyDeletedIndex validation
  | none,none => return ()

def destroyVlogFiles (format temporaryFormat : Option FormatMetadata) : Eff Disk DestroyError (List VLogInventoryEntry) := do
  let entries ← orDestroy .vlogDirectory .inventory (readDirectory vlogDirectoryName)
  match temporaryFormat,format with
  | some _,_ => if entries ≠ [] then throw (destroyLayoutFailure .vlogDirectory .inventory false) else return []
  | none,some format => Eff.lift (inventoryVlogForDestroy format entries)
  | none,none => throw (destroyLayoutFailure .format .inventory false)

def inventoryForDestroy (fjall : Fjall) : Eff Disk DestroyError DestroyInventory := do
  let formatKind ← orDestroy .format .inventory (inspectChild formatFileName)
  let temporaryKind ← orDestroy .formatTemporary .inventory (inspectChild formatTempFileName)
  Eff.lift (validateDestroyFileKind formatKind .format)
  Eff.lift (validateDestroyFileKind temporaryKind .formatTemporary)
  if formatKind ≠ .missing ∧ temporaryKind ≠ .missing then
    throw (destroyLayoutFailure .formatTemporary .inventory false)
  let format ← orDestroy .format .inventory (readFormat false)
  let temporaryFormat ← orDestroy .formatTemporary .inventory (readFormat true)
  let indexKind ← orDestroy .indexDirectory .inventory (inspectChild indexDirectoryName)
  let vlogKind ← orDestroy .vlogDirectory .inventory (inspectChild vlogDirectoryName)
  let indexPresent ← Eff.lift (validateDestroyDirectoryKind indexKind .indexDirectory)
  let vlogPresent ← Eff.lift (validateDestroyDirectoryKind vlogKind .vlogDirectory)
  if format = none ∧ temporaryFormat = none then do
    if indexPresent then throw (destroyLayoutFailure .indexDirectory .inventory false)
    if vlogPresent then throw (destroyLayoutFailure .vlogDirectory .inventory false)
    return ⟨format,temporaryFormat,indexPresent,vlogPresent,[]⟩
  else do
    if indexPresent then validateDestroyIndex fjall format temporaryFormat (format.isSome && !vlogPresent)
    else if format.isSome ∧ vlogPresent then throw (destroyCorruptionFailure .databaseIdentity .inventory false)
    let vlogFiles ← if vlogPresent then destroyVlogFiles format temporaryFormat else pure []
    return ⟨format,temporaryFormat,indexPresent,vlogPresent,vlogFiles⟩

end inventory

-- `remove_file_for_destroy`: `unlinkat` of the name that belongs to the id.
def unlinkVlogFile (fileId : Nat) (disk : Disk) : Disk :=
  match disk.root vlogDirectoryName with
  | some (.directory entries) =>
    {disk.set vlogDirectoryName (some (.directory (entries.eraseP (fun entry =>
      entry.1 == [0x44] ++ paddedDigits 6 fileId ++ vlogSuffix)))) with calls := disk.calls.removed}
  | _ => disk

def removeFileForDestroy (fileId : Nat) : Eff Disk StorageError Unit := do
  match (← get).root vlogDirectoryName with
  | some (.directory entries) =>
    if entries.any (fun entry => entry.1 == [0x44] ++ paddedDigits 6 fileId ++ vlogSuffix) then
      perform (unlinkVlogFile fileId)
    else throw (openIoError Storage.notFound)
  | _ => throw (openIoError Storage.notFound)

def removeDestroyFormat (temporary : Bool) : Eff Disk DestroyError Unit := do
  let name := if temporary then formatTempFileName else formatFileName
  let object := if temporary then ManagedObject.formatTemporary else ManagedObject.format
  let _ ← orDestroy object .removeFile (removeRegularChildTracked name)
  orDestroy object .syncDirectory syncRoot

def removeVlog (files : List VLogInventoryEntry) : Eff Disk DestroyError Unit := do
  orDestroy .vlogDirectory .inventory request
  files.reverse.forM (fun entry =>
    orDestroy (.vlogFile entry.fileId) .removeFile (removeFileForDestroy entry.fileId))
  orDestroy .vlogDirectory .syncDirectory syncDirectory
  let _ ← orDestroy .vlogDirectory .removeTree (removeEmptyDirectoryTracked vlogDirectoryName)
  orDestroy .vlogDirectory .syncDirectory syncRoot

def removeInventory (inventory : DestroyInventory) : Eff Disk DestroyError Unit := do
  if inventory.vlogPresent then removeVlog inventory.vlogFiles
  else if inventory.indexPresent then orDestroy .vlogDirectory .syncDirectory syncRoot
  if inventory.indexPresent then
    orDestroy .indexDirectory .removeTree (removeDirectoryTreeTracked indexDirectoryName)
  orDestroy .indexDirectory .syncDirectory syncRoot
  if inventory.temporaryFormat.isSome then removeDestroyFormat true
  if inventory.format.isSome then removeDestroyFormat false

def destroyDatabase [Crc32c] (fjall : Fjall) : Eff Disk DestroyError Unit := do
  modify (fun disk => {disk with calls := {disk.calls with partiallyDeleted := false}})
  if ← orDestroy .lock .acquireLock (acquire false) then do
    let inventory ← inventoryForDestroy fjall
    if inventory.format = none ∧ inventory.temporaryFormat = none then orDestroy .format .syncDirectory syncRoot
    else removeInventory inventory

end ExpirKv
