import ExpirKv.Vlog.Planner
import ExpirKv.Vlog.Retries
import Mathlib.Logic.Function.Basic
import Mathlib.Logic.Relation

namespace ExpirKv
open VLogGeometry

-- The handle cache of a file set and the threads that share it.
namespace HandleCaching

structure FileIdentity where
  device : Nat
  inode : Nat
  deriving DecidableEq, Repr

structure Metadata where
  isFile : Bool
  identity : FileIdentity
  len : Nat
  deriving DecidableEq, Repr

-- What a descriptor answers while it is looked at: its metadata, and every positioned read.
structure OpenedFile where
  metadata : Except IoError Metadata
  device : Retrying.Device
  contents : Nat → Nat → UInt8

-- An `Arc<File>`. They are numbered as they are made, so equal numbers are equal pointers.
abbrev Handle := Nat

def cacheInternalError : StorageError := StorageError.codecError .storagePoisoned .get .read none .restoreOrRepair

-- A critical section is one step; none of them can panic, so nothing sets the flag.
structure RwLock (α : Type) where
  value : α
  poisoned : Bool

namespace RwLock
variable {α : Type}

def new (value : α) : RwLock α := ⟨value,false⟩

def readLock (lock : RwLock α) : Result α := if lock.poisoned then .error cacheInternalError else .ok lock.value

def writeLock (lock : RwLock α) : Result α := if lock.poisoned then .error cacheInternalError else .ok lock.value

end RwLock

structure FileCatalog where
  entries : RwLock (Std.ExtTreeMap Nat FileIdentity compare)

namespace FileCatalog

def new : FileCatalog := ⟨.new ∅⟩

-- The identity that is catalogued now, and the catalog.
def register (catalog : FileCatalog) (fileId : Nat) (metadata : Except IoError Metadata) :
    Result (FileIdentity × FileCatalog) := do
  rejectIf (fileId > maxVlogFileId) (readCorruption fileId none)
  let metadata ← metadata.mapError (Retrying.readIo fileId none)
  rejectIf (metadata.isFile = false) (readCorruption fileId none)
  let entries ← catalog.entries.writeLock
  rejectIf (entries[fileId]?.any (fun current => current ≠ metadata.identity)) (readCorruption fileId none)
  return (metadata.identity,⟨{catalog.entries with value := entries.insert fileId metadata.identity}⟩)

def unregister (catalog : FileCatalog) (fileId : Nat) : Result FileCatalog := do
  let entries ← catalog.entries.writeLock
  return ⟨{catalog.entries with value := entries.erase fileId}⟩

def identity (catalog : FileCatalog) (fileId : Nat) : Result FileIdentity := do
  let entries ← catalog.entries.readLock
  orError entries[fileId]? (readCorruption fileId none)

end FileCatalog

structure HandleCacheInner where
  handles : Std.ExtTreeMap Nat Handle compare
  insertionOrder : List Nat

-- The three ways out of `insert_or_get`: no capacity, a handle that is there already, or the candidate stored, with the
-- popped id and what the map held under it when the cache was full.
inductive Inserted where
  | uncached
  | existing (handle : Handle)
  | stored (evicted : Option (Nat × Option Handle))
  deriving DecidableEq, Repr

def Inserted.handle (candidate : Handle) : Inserted → Handle
  | .uncached => candidate
  | .existing handle => handle
  | .stored _ => candidate

namespace HandleCacheInner

def makeRoom (inner : HandleCacheInner) (capacity : Nat) :
    Result (Option (Nat × Option Handle) × HandleCacheInner) :=
  if inner.handles.size = capacity then
    match inner.insertionOrder with
    | [] => .error cacheInternalError
    | oldest :: order => .ok (some (oldest,inner.handles[oldest]?),⟨inner.handles.erase oldest,order⟩)
  else .ok (none,inner)

def insertOrGet (inner : HandleCacheInner) (capacity fileId : Nat) (candidate : Handle) :
    Result (Inserted × HandleCacheInner) :=
  match inner.handles[fileId]? with
  | some existing => .ok (.existing existing,inner)
  | none => do
    let room ← inner.makeRoom capacity
    return (.stored room.1,⟨room.2.handles.insert fileId candidate,room.2.insertionOrder ++ [fileId]⟩)

def clear (inner : HandleCacheInner) : List Handle × HandleCacheInner := (inner.handles.values,⟨∅,[]⟩)

def remove (inner : HandleCacheInner) (fileId : Nat) : Option Handle × HandleCacheInner :=
  (inner.handles[fileId]?,⟨inner.handles.erase fileId,inner.insertionOrder.filter (· ≠ fileId)⟩)

end HandleCacheInner

structure ReadHandleCache where
  capacity : Nat
  inner : RwLock HandleCacheInner

namespace ReadHandleCache

def new (capacity : Nat) : ReadHandleCache := ⟨capacity,.new ⟨∅,[]⟩⟩

def withInner (cache : ReadHandleCache) (inner : HandleCacheInner) : ReadHandleCache :=
  {cache with inner := {cache.inner with value := inner}}

def hit (cache : ReadHandleCache) (fileId : Nat) : Result (Option Handle) := do
  let inner ← cache.inner.readLock
  return inner.handles[fileId]?

def insertOrGet (cache : ReadHandleCache) (fileId : Nat) (candidate : Handle) : Result (Inserted × ReadHandleCache) :=
  if cache.capacity = 0 then .ok (.uncached,cache)
  else do
    let inner ← cache.inner.writeLock
    let inserted ← inner.insertOrGet cache.capacity fileId candidate
    return (inserted.1,cache.withInner inserted.2)

def clear (cache : ReadHandleCache) : Result (List Handle × ReadHandleCache) := do
  let inner ← cache.inner.writeLock
  return (inner.clear.1,cache.withInner inner.clear.2)

def remove (cache : ReadHandleCache) (fileId : Nat) : Result (Option Handle × ReadHandleCache) := do
  let inner ← cache.inner.writeLock
  return ((inner.remove fileId).1,cache.withInner (inner.remove fileId).2)

end ReadHandleCache

structure FileSet where
  databaseUuid : Uuid
  geometry : VLogGeometry
  catalog : FileCatalog
  readCache : ReadHandleCache

def OpenedFile.readExactAt (file : OpenedFile) (len offset fileId : Nat) : Result Bytes :=
  match Retrying.readExactAtImpl (Retrying.Device.readAt file.contents) fileId [] len offset 0 0 file.device with
  | .ok bytes _ => .ok bytes
  | .error error _ => .error error

-- What the open loop keeps from one attempt to the next.
structure OpenAttempt where
  emfileRetried : Bool
  interruptedAttempts : Nat
  transientAttempts : Nat
  deriving DecidableEq, Repr

def OpenAttempt.first : OpenAttempt := ⟨false,0,0⟩

inductive OpenRetry where
  | again (attempt : OpenAttempt)
  | clear (attempt : OpenAttempt)
  | fail (error : StorageError)
  deriving DecidableEq, Repr

-- The arms of the loop for a refused open, in their order.
def OpenAttempt.refused (attempt : OpenAttempt) (fileId : Nat) (error : IoError) : OpenRetry :=
  if error.rawOsError = some Retrying.emfile ∧ attempt.emfileRetried = false then
    .clear {attempt with emfileRetried := true}
  else if error.kind = .interrupted ∧ attempt.interruptedAttempts < eintrRetryLimit then
    .again {attempt with interruptedAttempts := attempt.interruptedAttempts + 1}
  else if error.kind = .wouldBlock ∧ attempt.transientAttempts < Retrying.transientOpenRetryLimit then
    .again {attempt with transientAttempts := attempt.transientAttempts + 1}
  else if error.rawOsError = some Retrying.enfile ∧ attempt.transientAttempts < Retrying.transientOpenRetryLimit then
    .again {attempt with transientAttempts := attempt.transientAttempts + 1}
  else .fail (Retrying.classifyOpenError fileId error)

-- The loop of an open that nothing interrupts takes the same arms.
section loops
variable {σ α : Type} (openReadHandle : Eff σ IoError α) (validateCandidate : α → Eff σ StorageError Unit)
  (clear : Eff σ StorageError Unit) (fileId : Nat)

def openCandidate (attempt : OpenAttempt) : Eff σ StorageError α :=
  Retrying.openCandidate openReadHandle validateCandidate clear fileId attempt.emfileRetried
    attempt.interruptedAttempts attempt.transientAttempts

def OpenRetry.follow : OpenRetry → Eff σ StorageError α
  | .again next => openCandidate openReadHandle validateCandidate clear fileId next
  | .clear next => do
    clear
    openCandidate openReadHandle validateCandidate clear fileId next
  | .fail error => throw error

def OpenAttempt.answered (attempt : OpenAttempt) : Except IoError α → Eff σ StorageError α
  | .ok file => do
    validateCandidate file
    return file
  | .error error => (attempt.refused fileId error).follow openReadHandle validateCandidate clear fileId

theorem openCandidate_answered (attempt : OpenAttempt) :
    openCandidate openReadHandle validateCandidate clear fileId attempt =
      openReadHandle.attempt >>= attempt.answered openReadHandle validateCandidate clear fileId := by
  unfold openCandidate
  rw [Retrying.openCandidate]
  refine bind_congr fun answer => ?_
  cases answer with
  | ok file => rfl
  | error error =>
    unfold OpenAttempt.answered OpenAttempt.refused
    by_cases exhausts : error.rawOsError = some Retrying.emfile ∧ attempt.emfileRetried = false
    · simp only [if_pos exhausts]
      rfl
    · simp only [if_neg exhausts]
      by_cases interrupts : error.kind = .interrupted ∧ attempt.interruptedAttempts < eintrRetryLimit
      · simp only [if_pos interrupts]
        rfl
      · simp only [if_neg interrupts]
        by_cases blocks : error.kind = .wouldBlock ∧ attempt.transientAttempts < Retrying.transientOpenRetryLimit
        · simp only [if_pos blocks]
          rfl
        · simp only [if_neg blocks]
          by_cases full : error.rawOsError = some Retrying.enfile ∧
              attempt.transientAttempts < Retrying.transientOpenRetryLimit
          · simp only [if_pos full]
            rfl
          · simp only [if_neg full]
            rfl

end loops

namespace FileSet

def new (databaseUuid : Uuid) (geometry : VLogGeometry) (catalog : FileCatalog) (capacity : Nat) : Result FileSet := do
  rejectIf databaseUuid.isZero (readCorruption 0 none)
  let _ ← (LayoutPlanner.empty geometry).mapError (readContext none none)
  return ⟨databaseUuid,geometry,catalog,.new capacity⟩

variable [Crc32c]

def validateCandidate (files : FileSet) (fileId : Nat) (expected : FileIdentity) (file : OpenedFile) : Result Unit := do
  let metadata ← file.metadata.mapError (Retrying.readIo fileId none)
  rejectIf (metadata.isFile = false ∨ metadata.identity ≠ expected ∨ metadata.len > files.geometry.maxFileSize)
    (readCorruption fileId none)
  let encodedHeader ← file.readExactAt fileHeaderEncodedLen pageHeaderEncodedLen fileId
  let fileHeader ← (VLogFileHeader.decode encodedHeader).mapError
    (readContext (some fileId) (some pageHeaderEncodedLen))
  rejectIf (fileHeader.fileId ≠ fileId ∨ fileHeader.databaseUuid ≠ files.databaseUuid ∨
    fileHeader.pageSize ≠ vlogPageSize ∨ fileHeader.maxFileSize ≠ maxVlogFileSize) (readCorruption fileId none)

end FileSet

end HandleCaching

end ExpirKv
