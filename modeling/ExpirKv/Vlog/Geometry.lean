import ExpirKv.Error
import ExpirKv.Library.Checksum

namespace ExpirKv

@[simp] abbrev maxVlogFileId : Nat := 999999
@[simp] abbrev maxVlogFileSize : Nat := 4294967296
@[simp] abbrev vlogPageSize : Nat := 65536
@[simp] abbrev firstPageRecordAreaStart : Nat := 64
@[simp] abbrev otherPageRecordAreaOffset : Nat := 16
@[simp] abbrev minKvRecordLen : Nat := 56
@[simp] abbrev maxKvRecordLen : Nat := 60055
@[simp] abbrev maxKeyValueSize : Nat := 60000
@[simp] abbrev kvRecordFixedLenWithCrc : Nat := 55
@[simp] abbrev recordCrcLen : Nat := 4
@[simp] abbrev pageHeaderEncodedLen : Nat := 16
@[simp] abbrev fileHeaderEncodedLen : Nat := 48
@[simp] abbrev recordHeaderEncodedLen : Nat := 39
@[simp] abbrev txBeginEncodedLen : Nat := 71
@[simp] abbrev minDeleteRecordLen : Nat := 54
@[simp] abbrev txPreparedEndEncodedLen : Nat := 111
@[simp] abbrev pageEndMinSize : Nat := 43

def invalidVlogError (kind : StorageErrorKind) : StorageError :=
  .codecError kind .writeBatch .vlogAppend (some .notCommitted)
    (if kind = .resourceExhausted then .retrySameInstance
     else if kind = .incompatibleFormat then .doNotRetry
     else .fixRequestAndRetrySameInstance)

def capacityError : StorageError :=
  .codecError .capacityExceeded .writeBatch .vlogAppend (some .notCommitted) .doNotRetry

def encodeError : StorageError :=
  .codecError .invalidArgument .writeBatch .preflight (some .notCommitted) .fixRequestAndRetrySameInstance

def decodeError (kind : StorageErrorKind) : StorageError :=
  .codecError kind .get .read none
    (if kind = .incompatibleFormat then .doNotRetry else .restoreOrRepair)

@[simp] theorem decodeError_kind (kind : StorageErrorKind) : (decodeError kind).kind = kind := rfl
@[simp] theorem invalidVlogError_kind (kind : StorageErrorKind) : (invalidVlogError kind).kind = kind := rfl
@[simp] theorem decodeError_corruption : Rejectable (decodeError .corruption) := rfl
@[simp] theorem decodeError_layout : Rejectable (decodeError .invalidLayout) := rfl
@[simp] theorem decodeError_format : Rejectable (decodeError .incompatibleFormat) := rfl

structure VLogPosition where
  fileId : Nat
  offset : Nat
  deriving DecidableEq, Repr

namespace VLogPosition

-- The derived order of the source: file first, then offset.
instance : LT VLogPosition := ⟨fun a b => a.fileId < b.fileId ∨ (a.fileId = b.fileId ∧ a.offset < b.offset)⟩
instance : LE VLogPosition := ⟨fun a b => a.fileId < b.fileId ∨ (a.fileId = b.fileId ∧ a.offset ≤ b.offset)⟩

theorem lt_def (a b : VLogPosition) :
    a < b ↔ a.fileId < b.fileId ∨ (a.fileId = b.fileId ∧ a.offset < b.offset) := Iff.rfl
theorem le_def (a b : VLogPosition) :
    a ≤ b ↔ a.fileId < b.fileId ∨ (a.fileId = b.fileId ∧ a.offset ≤ b.offset) := Iff.rfl

instance (a b : VLogPosition) : Decidable (a < b) := decidable_of_iff' _ (lt_def a b)
instance (a b : VLogPosition) : Decidable (a ≤ b) := decidable_of_iff' _ (le_def a b)

theorem le_iff_lt_or_eq {a b : VLogPosition} : a ≤ b ↔ a < b ∨ a = b := by
  obtain ⟨af,ao⟩ := a
  obtain ⟨bf,bo⟩ := b
  simp only [le_def,lt_def,mk.injEq]
  omega

theorem not_lt {a b : VLogPosition} : ¬a < b ↔ b ≤ a := by
  simp only [le_def,lt_def]; omega

theorem not_le {a b : VLogPosition} : ¬a ≤ b ↔ b < a := by
  simp only [le_def,lt_def]; omega

theorem le_refl (a : VLogPosition) : a ≤ a := by simp [le_def]

theorem le_of_lt {a b : VLogPosition} (h : a < b) : a ≤ b := le_iff_lt_or_eq.mpr (.inl h)

theorem le_trans {a b c : VLogPosition} (left : a ≤ b) (right : b ≤ c) : a ≤ c := by
  simp only [le_def] at *; omega

theorem lt_of_le_of_lt {a b c : VLogPosition} (left : a ≤ b) (right : b < c) : a < c := by
  simp only [le_def,lt_def] at *; omega

theorem lt_of_lt_of_le {a b c : VLogPosition} (left : a < b) (right : b ≤ c) : a < c := by
  simp only [le_def,lt_def] at *; omega

theorem lt_trans {a b c : VLogPosition} (left : a < b) (right : b < c) : a < c :=
  lt_of_lt_of_le left (le_of_lt right)

theorem lt_irrefl (a : VLogPosition) : ¬a < a := by simp [lt_def]

-- `VLogPosition::validate` and `VLogPos::is_valid` test the same bounds.
def isValid (position : VLogPosition) : Bool :=
  decide (position.fileId ≤ maxVlogFileId) && decide (position.offset ≤ maxVlogFileSize)

def validate (position : VLogPosition) : Result Unit :=
  rejectIf (position.fileId > maxVlogFileId ∨ position.offset > maxVlogFileSize) (decodeError .corruption)

theorem isValid_iff {position : VLogPosition} :
    position.isValid = true ↔ position.fileId ≤ 999999 ∧ position.offset ≤ 4294967296 := by
  simp [isValid]

end VLogPosition

structure VLogGeometry where
  pageSize : Nat
  maxFileSize : Nat
  maxFileId : Nat
  deriving DecidableEq, Repr

namespace VLogGeometry

abbrev production : VLogGeometry := ⟨vlogPageSize,maxVlogFileSize,maxVlogFileId⟩

def validate (geometry : VLogGeometry) : Result Unit := do
  rejectIf (geometry.pageSize ≤ firstPageRecordAreaStart ∨ geometry.pageSize > vlogPageSize ∨
    geometry.maxFileSize = 0 ∨ geometry.maxFileSize > maxVlogFileSize ∨
    geometry.maxFileSize % geometry.pageSize ≠ 0 ∨ geometry.maxFileId > maxVlogFileId)
    (invalidVlogError .invalidArgument)
  let pageCount := geometry.maxFileSize / geometry.pageSize
  rejectIf (pageCount = 0 ∨ pageCount > 65536) (invalidVlogError .invalidArgument)

def validateForDecode (geometry : VLogGeometry) : Result Unit :=
  geometry.validate.mapError (fun _ => decodeError .corruption)

@[simp] theorem production_validate : production.validate = .ok () := rfl
@[simp] theorem production_validateForDecode : production.validateForDecode = .ok () := rfl

end VLogGeometry

-- Offsets are at most the 64-bit range here, and every sum the source forms with
-- `checked_add` is bounded again with the same error, so plain sums are used.
def pageEnd (offset : Nat) (geometry : VLogGeometry) : Result Nat := do
  rejectIf (offset ≥ geometry.maxFileSize) (decodeError .invalidLayout)
  let endOffset := (offset / geometry.pageSize + 1) * geometry.pageSize
  rejectIf (¬endOffset ≤ geometry.maxFileSize) (decodeError .invalidLayout)
  return endOffset

def remainingInPage (offset : Nat) (geometry : VLogGeometry) : Result Nat := do
  let endOffset ← pageEnd offset geometry
  rejectIf (endOffset < offset) (decodeError .invalidLayout)
  return endOffset - offset

def validateRecordStart (position : VLogPosition) (geometry : VLogGeometry) : Result Unit := do
  rejectIf (position.fileId > geometry.maxFileId ∨ position.offset ≥ geometry.maxFileSize)
    (decodeError .invalidLayout)
  let pageOffset := position.offset % geometry.pageSize
  let recordAreaOffset :=
    if position.offset < geometry.pageSize then firstPageRecordAreaStart else otherPageRecordAreaOffset
  rejectIf (pageOffset < recordAreaOffset) (decodeError .invalidLayout)

def validateRecordBounds (encoded : Bytes) (recordStart : VLogPosition) (geometry : VLogGeometry) :
    Result Unit := do
  (validateRecordStart recordStart geometry).mapError (fun _ => decodeError .corruption)
  let recordEnd := recordStart.offset + encoded.length
  rejectIf (recordEnd > geometry.maxFileSize) (decodeError .corruption)
  let endOffset ← pageEnd recordStart.offset geometry
  rejectIf (recordEnd > endOffset) (decodeError .corruption)

structure PhysicalChunk where
  position : VLogPosition
  bytes : Bytes
  deriving DecidableEq, Repr

def chunkEnd (chunk : PhysicalChunk) (geometry : VLogGeometry) : Result VLogPosition := do
  rejectIf (chunk.position.fileId > geometry.maxFileId) (decodeError .corruption)
  let offset := chunk.position.offset + chunk.bytes.length
  rejectIf (offset > geometry.maxFileSize) (decodeError .corruption)
  return ⟨chunk.position.fileId,offset⟩

-- The step from a full file to the next one. The reader and the writer repeat it
-- with their own error, which is the parameter.
def nextPosition (error : StorageError) (previousEnd : VLogPosition) (geometry : VLogGeometry) :
    Result VLogPosition :=
  if previousEnd.offset < geometry.maxFileSize then .ok previousEnd
  else if previousEnd.offset ≠ geometry.maxFileSize ∨ previousEnd.fileId ≥ geometry.maxFileId then .error error
  else .ok ⟨previousEnd.fileId + 1,0⟩

def nextChunkPosition (previousEnd : VLogPosition) (geometry : VLogGeometry) : Result VLogPosition :=
  nextPosition (decodeError .corruption) previousEnd geometry

def validateTransactionRecordEnd (recordEnd : VLogPosition) (geometry : VLogGeometry) : Result Unit := do
  rejectIf (recordEnd.fileId > geometry.maxFileId ∨ recordEnd.offset > geometry.maxFileSize)
    (decodeError .corruption)
  if recordEnd.offset = geometry.maxFileSize ∨ recordEnd.offset % geometry.pageSize = 0 then
    return ()
  let remaining ← (remainingInPage recordEnd.offset geometry).mapError (fun _ => decodeError .corruption)
  rejectIf (remaining < pageEndMinSize) (decodeError .corruption)

section production
open VLogGeometry

-- Page arithmetic in the production geometry, stated with its numbers.
theorem pageEnd_production {offset : Nat} (inside : offset < 4294967296) :
    pageEnd offset production = .ok ((offset / 65536 + 1) * 65536) := by
  have bound : (offset / 65536 + 1) * 65536 ≤ 4294967296 := by omega
  simp [pageEnd,rejectIf,Nat.not_le.mpr inside,bound]

theorem remainingInPage_production {offset : Nat} (inside : offset < 4294967296) :
    remainingInPage offset production = .ok ((offset / 65536 + 1) * 65536 - offset) := by
  have above : ¬(offset / 65536 + 1) * 65536 < offset := by omega
  simp [remainingInPage,pageEnd_production inside,rejectIf,above]

-- A position at which a record may start.
def InRecordArea (position : VLogPosition) : Prop :=
  position.fileId ≤ 999999 ∧ position.offset < 4294967296 ∧ 16 ≤ position.offset % 65536 ∧ 64 ≤ position.offset

theorem validateRecordStart_production {position : VLogPosition} :
    validateRecordStart position production = .ok () ↔ InRecordArea position := by
  simp only [validateRecordStart,bind_ok,exists_unit,rejectIf_ok,InRecordArea,vlogPageSize,
    maxVlogFileSize,maxVlogFileId,firstPageRecordAreaStart,otherPageRecordAreaOffset]
  split <;> omega

theorem validateRecordBounds_production {encoded : Bytes} {start : VLogPosition} :
    validateRecordBounds encoded start production = .ok () ↔
      InRecordArea start ∧ start.offset + encoded.length ≤ (start.offset / 65536 + 1) * 65536 := by
  unfold validateRecordBounds
  constructor
  · intro accepted
    simp only [bind_ok,exists_unit,mapError_ok,rejectIf_ok] at accepted
    obtain ⟨started,_,endOffset,ended,bounds⟩ := accepted
    have area := validateRecordStart_production.mp started
    rw [pageEnd_production area.2.1] at ended
    cases ended
    exact ⟨area,by omega⟩
  · rintro ⟨area,inside⟩
    simp only [bind_ok,exists_unit,mapError_ok,rejectIf_ok]
    have bounded := area.2.1
    refine ⟨validateRecordStart_production.mpr area,?_,_,pageEnd_production bounded,by omega⟩
    simp only [maxVlogFileSize]
    omega

theorem chunkEnd_production (chunk : PhysicalChunk) (file : chunk.position.fileId ≤ 999999)
    (inside : chunk.position.offset + chunk.bytes.length ≤ 4294967296) :
    chunkEnd chunk production = .ok ⟨chunk.position.fileId,chunk.position.offset + chunk.bytes.length⟩ := by
  simp [chunkEnd,rejectIf,Nat.not_lt.mpr file,Nat.not_lt.mpr inside]

theorem nextPosition_inside (error : StorageError) {position : VLogPosition} (inside : position.offset < 4294967296) :
    nextPosition error position production = .ok position := by simp [nextPosition,inside]

theorem nextPosition_full (error : StorageError) {file : Nat} (room : file < 999999) :
    nextPosition error ⟨file,4294967296⟩ production = .ok ⟨file + 1,0⟩ := by
  simp [nextPosition,Nat.not_le.mpr room]

theorem nextPosition_ok {error : StorageError} {position next : VLogPosition}
    (stepped : nextPosition error position production = .ok next) :
    (position.offset < 4294967296 ∧ next = position) ∨
      (position.offset = 4294967296 ∧ position.fileId < 999999 ∧ next = ⟨position.fileId + 1,0⟩) := by
  unfold nextPosition at stepped
  simp only [maxVlogFileSize,maxVlogFileId] at stepped
  split at stepped
  · rename_i inside
    exact .inl ⟨inside,(Except.ok.inj stepped).symm⟩
  · split at stepped
    · cases stepped
    · rename_i full
      exact .inr ⟨by omega,by omega,(Except.ok.inj stepped).symm⟩

-- A record end that leaves room for a later PAGE_END, or needs none.
def GoodEnd (position : VLogPosition) : Prop :=
  position.fileId ≤ 999999 ∧ position.offset ≤ 4294967296 ∧
    (position.offset % 65536 = 0 ∨ position.offset % 65536 ≤ 65493)

theorem validateTransactionRecordEnd_production {position : VLogPosition} :
    validateTransactionRecordEnd position production = .ok () ↔ GoodEnd position := by
  unfold validateTransactionRecordEnd GoodEnd
  simp only [bind_ok,exists_unit,rejectIf_ok,vlogPageSize,maxVlogFileId,maxVlogFileSize]
  constructor
  · rintro ⟨bounds,rest⟩
    split at rest
    · omega
    · rename_i inner
      simp only [bind_ok,mapError_ok,rejectIf_ok] at rest
      obtain ⟨remaining,counted,room⟩ := rest
      rw [remainingInPage_production (by omega)] at counted
      cases counted
      simp only [pageEndMinSize] at room
      omega
  · rintro ⟨file,offset,room⟩
    refine ⟨by omega,?_⟩
    split
    · rfl
    · rename_i inner
      simp only [bind_ok,mapError_ok,rejectIf_ok]
      refine ⟨_,remainingInPage_production (by omega),?_⟩
      simp only [pageEndMinSize]
      omega

end production

end ExpirKv
