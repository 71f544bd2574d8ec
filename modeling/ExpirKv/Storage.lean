import ExpirKv.Index
import ExpirKv.Library.Effects
import ExpirKv.Vlog.Laying

namespace ExpirKv
open VLogGeometry

variable [Crc32c]

-- What the environment answers to one call. An answer that does not concern a call lets it through.
inductive Answer where
  | fine
  | io (error : IoError)
  | short (count : Nat)
  | index (fault : CommitFault)
  | refused (error : StorageError)
  deriving DecidableEq, Repr

-- The effects that outlive the process, newest first in a trace. `found` opens a trace with
-- the files that were there before.
inductive Event where
  | found (fileId len : Nat)
  | created (fileId : Nat)
  | wrote (fileId offset len : Nat)
  | syncedFile (fileId len : Nat)
  | syncedDirectory
  | truncated (fileId len : Nat)
  | removed (fileId : Nat)
  | submitted (batch : IndexAtomicBatch) (mode : IndexCommitMode)
  | applied (batch : IndexAtomicBatch) (mode : IndexCommitMode)
  deriving DecidableEq, Repr

structure Storage where
  index : Index
  vlog : FileSet
  script : List Answer
  trace : List Event

namespace Event

-- How many bytes of a file a successful sync covers after they were written.
def covered : List Event → Nat → Nat
  | [],_ => 0
  | .found file len :: rest,fileId => if file = fileId then len else covered rest fileId
  | .created file :: rest,fileId => if file = fileId then 0 else covered rest fileId
  | .wrote file offset _ :: rest,fileId => if file = fileId then min (covered rest fileId) offset else covered rest fileId
  | .syncedFile file len :: rest,fileId => if file = fileId then len else covered rest fileId
  | .truncated file len :: rest,fileId => if file = fileId then min (covered rest fileId) len else covered rest fileId
  | .removed file :: rest,fileId => if file = fileId then 0 else covered rest fileId
  | .syncedDirectory :: rest,fileId => covered rest fileId
  | .submitted _ _ :: rest,fileId => covered rest fileId
  | .applied _ _ :: rest,fileId => covered rest fileId

-- Whether a directory sync followed the creation of a file.
def linked : List Event → Nat → Bool
  | [],_ => false
  | .found file _ :: rest,fileId => file == fileId || linked rest fileId
  | .created file :: rest,fileId => file != fileId && linked rest fileId
  | .removed file :: rest,fileId => file != fileId && linked rest fileId
  | .syncedDirectory :: _,_ => true
  | .wrote _ _ _ :: rest,fileId => linked rest fileId
  | .syncedFile _ _ :: rest,fileId => linked rest fileId
  | .truncated _ _ :: rest,fileId => linked rest fileId
  | .submitted _ _ :: rest,fileId => linked rest fileId
  | .applied _ _ :: rest,fileId => linked rest fileId

end Event

namespace Storage

def tick {ε : Type} : Eff Storage ε Answer := fun storage =>
  .ok (storage.script.headD .fine) {storage with script := storage.script.tail}

def contents (storage : Storage) (fileId : Nat) : Bytes := storage.vlog.files[fileId]?.getD []

def record (storage : Storage) (event : Event) : Storage := {storage with trace := event :: storage.trace}

def setFile (storage : Storage) (fileId : Nat) (bytes : Bytes) : Storage :=
  {storage with vlog := {storage.vlog with files := storage.vlog.files.insert fileId bytes}}

-- A call that fails without any effect or takes its whole effect.
def perform (change : Storage → Storage) : Eff Storage IoError Unit := do
  match ← tick with
  | .io error => throw error
  | _ => modify change

def notFound : IoError := ⟨.notFound,some 2⟩
def alreadyExists : IoError := ⟨.other,some 17⟩

def createNew (fileId : Nat) : Eff Storage IoError Unit := do
  if (← get).vlog.files.contains fileId then throw alreadyExists
  perform (fun storage => (storage.setFile fileId []).record (.created fileId))

-- A positioned write reports how much it wrote, which is at most what it was given.
def writeAt (fileId offset : Nat) (bytes : Bytes) : Eff Storage IoError Nat := do
  match ← tick with
  | .io error => throw error
  | .short count => do
    modify (put (bytes.take count))
    return (bytes.take count).length
  | _ => do
    modify (put bytes)
    return bytes.length
where
  put (bytes : Bytes) (storage : Storage) : Storage :=
    if bytes.isEmpty then storage
    else (storage.setFile fileId (ExpirKv.writeAt (storage.contents fileId) offset bytes)).record
      (.wrote fileId offset bytes.length)

def syncFile (fileId : Nat) : Eff Storage IoError Unit :=
  perform (fun storage => storage.record (.syncedFile fileId (storage.contents fileId).length))

def syncDirectory : Eff Storage IoError Unit := perform (fun storage => storage.record .syncedDirectory)

-- `set_len`.
def truncateFile (fileId len : Nat) : Eff Storage IoError Unit :=
  perform (fun storage =>
    (storage.setFile fileId ((storage.contents fileId).take len ++
      List.replicate (len - (storage.contents fileId).length) 0)).record (.truncated fileId len))

def removeFile (fileId : Nat) : Eff Storage IoError Unit := do
  if (← get).vlog.files.contains fileId = false then throw notFound
  perform (fun storage =>
    {storage with vlog := {storage.vlog with files := storage.vlog.files.erase fileId}}.record (.removed fileId))

def openWritable (fileId : Nat) : Eff Storage IoError Unit := do
  if (← get).vlog.files.contains fileId = false then throw notFound
  perform id

-- `metadata().len()` of an open file.
def fileLen (fileId : Nat) : Eff Storage IoError Nat := do
  perform id
  return ((← get).contents fileId).length

def readIo (fileId : Nat) (error : IoError) : StorageError :=
  let transient : Bool := match error.kind with
    | .wouldBlock | .interrupted => true
    | _ => false
  {(StorageError.codecError (if transient then .resourceExhausted else .io) .get .read none
      (if transient then .retrySameInstance else .fixEnvironmentAndReopen)) with
    osCode := error.rawOsError, vlogFileId := some fileId}

-- The catalog keeps the identity of a file; a name is never given to another file while it stays listed,
-- so membership stands for it.
def register (fileId : Nat) : Eff Storage StorageError Unit := do
  if fileId > maxVlogFileId then throw (readCorruption fileId none)
  (perform id).mapError (readIo fileId)
  modify (fun storage => {storage with vlog := {storage.vlog with catalog := storage.vlog.catalog.insert fileId}})

def unregister (fileId : Nat) : Eff Storage StorageError Unit :=
  modify (fun storage => {storage with vlog := {storage.vlog with catalog := storage.vlog.catalog.erase fileId}})

def verify (fileId : Nat) : Eff Storage StorageError Unit := do
  if fileId ∉ (← get).vlog.catalog then throw (readCorruption fileId none)
  (perform id).mapError (readIo fileId)

-- A read that fails as a whole or answers from the state.
def reading {α : Type} (answer : Storage → α) : Eff Storage StorageError α := do
  match ← tick with
  | .refused error => throw error
  | _ => return answer (← get)

def getUser (key : Bytes) : Eff Storage StorageError (Option Bytes) :=
  reading (fun storage => storage.index.user[key]?)

def getInternal (space : InternalIndexSpace) (key : Bytes) : Eff Storage StorageError (Option Bytes) :=
  reading (fun storage => (storage.index.keyspace (.internal space))[key]?)

def getDatabaseIdentity : Eff Storage StorageError (Option Bytes) := getInternal .system databaseIdentityKey

def scanInternal (space : InternalIndexSpace) (range : KeyRange) : Eff Storage StorageError (List (Bytes × Bytes)) :=
  reading (fun storage => (storage.index.keyspace (.internal space)).scan range)

-- The durability a batch has after the call. A batch applied under an unknown answer promises none.
def landedMode (answer : Except IndexCommitError Unit) (fault : Option CommitFault) (mode : IndexCommitMode) :
    Option IndexCommitMode :=
  match answer,fault with
  | .ok (),_ => some mode
  | .error error,some (.unknown _ true) => if error.applyState = .unknown then some .buffer else none
  | .error _,_ => none

def commitFault : Answer → Option CommitFault
  | .index fault => some fault
  | _ => none

def commitAtomic (batch : IndexAtomicBatch) (mode : IndexCommitMode) : Eff Storage IndexCommitError Unit := do
  let fault := commitFault (← tick)
  let storage ← get
  let committed := storage.index.commitAtomic batch mode fault
  let handed := storage.record (.submitted batch mode)
  set {(match landedMode committed.1 fault mode with
    | some landed => handed.record (.applied batch landed)
    | none => handed) with index := committed.2}
  Eff.lift committed.1

-- Storage that answers every call.
def Honest (storage : Storage) : Prop := storage.script = []

-- After an ordinary batch that the index took.
def committed (storage : Storage) (batch : IndexAtomicBatch) (mode : IndexCommitMode) : Storage :=
  {(storage.record (.submitted batch mode)).record (.applied batch mode) with index := storage.index.apply batch}

section calls
variable {storage : Storage} {ε α : Type}

omit [Crc32c] in
theorem delivers_tick {post : Answer → Storage → Prop} {fail : ε → Storage → Prop} :
    Delivers (tick : Eff Storage ε Answer) storage post fail ↔
      post (storage.script.headD .fine) {storage with script := storage.script.tail} := Iff.rfl

omit [Crc32c] in
theorem delivers_tick_honest {post : Answer → Storage → Prop} {fail : ε → Storage → Prop} (honest : storage.Honest) :
    Delivers (tick : Eff Storage ε Answer) storage post fail ↔ post .fine storage := by
  obtain ⟨index,vlog,script,trace⟩ := storage
  obtain rfl : script = [] := honest
  exact Iff.rfl

omit [Crc32c] in
-- A call under any answer: whole or not at all.
theorem delivers_perform {change : Storage → Storage} {post : Unit → Storage → Prop}
    {fail : IoError → Storage → Prop} (good : ∀ script, post () (change {storage with script}))
    (bad : ∀ error script, fail error {storage with script}) : Delivers (perform change) storage post fail := by
  rw [perform,delivers_bind,delivers_tick]
  split
  · exact bad _ _
  · exact good _

omit [Crc32c] in
theorem delivers_reading_honest {answer : Storage → α} {post : α → Storage → Prop}
    {fail : StorageError → Storage → Prop} (honest : storage.Honest) :
    Delivers (reading answer) storage post fail ↔ post (answer storage) storage := by
  rw [reading,delivers_bind,delivers_tick_honest honest]
  rfl

omit [Crc32c] in
theorem delivers_reading {answer : Storage → α} {post : α → Storage → Prop} {fail : StorageError → Storage → Prop}
    (good : ∀ script, post (answer {storage with script}) {storage with script})
    (bad : ∀ error script, fail error {storage with script}) : Delivers (reading answer) storage post fail := by
  rw [reading,delivers_bind,delivers_tick]
  split
  · exact bad _ _
  · exact good _

theorem delivers_commitAtomic_honest {batch : IndexAtomicBatch} {mode : IndexCommitMode}
    {post : Unit → Storage → Prop} {fail : IndexCommitError → Storage → Prop} (honest : storage.Honest)
    (ordinary : batch.Ordinary) (identified : storage.index.system[databaseIdentityKey]? ≠ none) :
    Delivers (commitAtomic batch mode) storage post fail ↔ post () (storage.committed batch mode) := by
  rw [commitAtomic,delivers_bind,delivers_tick_honest honest]
  simp only [commitFault,delivers_bind,delivers_get,ordinary.commit mode none identified,landedMode,delivers_set]
  exact Iff.rfl

-- A batch under any answer: applied as a whole, or not at all. Only an unknown answer leaves it open.
theorem delivers_commitAtomic {batch : IndexAtomicBatch} {mode : IndexCommitMode}
    {post : Unit → Storage → Prop} {fail : IndexCommitError → Storage → Prop}
    (ordinary : batch.Ordinary) (identified : storage.index.system[databaseIdentityKey]? ≠ none)
    (good : ∀ script, post () ({storage with script}.committed batch mode))
    (refused : ∀ source script, fail ⟨.notApplied,source⟩ ({storage with script}.record (.submitted batch mode)))
    (unknown : ∀ source script, fail ⟨.unknown,source⟩ ({storage with script}.record (.submitted batch mode)))
    (landed : ∀ source script, fail ⟨.unknown,source⟩ {{storage with script}.committed batch mode with
      trace := .applied batch .buffer :: .submitted batch mode :: storage.trace}) :
    Delivers (commitAtomic batch mode) storage post fail := by
  rw [commitAtomic,delivers_bind,delivers_tick]
  simp only [delivers_bind,delivers_get,ordinary.commit mode _ identified]
  cases commitFault (storage.script.headD .fine) with
  | none => exact good storage.script.tail
  | some fault =>
    cases fault with
    | notApplied source => exact refused source storage.script.tail
    | unknown source applied =>
      cases applied with
      | false => exact unknown source storage.script.tail
      | true => exact landed source storage.script.tail

end calls

end Storage

end ExpirKv
