import ExpirKv.Library.Effects
import ExpirKv.Vlog.Laying
import ExpirKv.Vlog.ScanExact
import ExpirKv.Vlog.ScanSound

namespace ExpirKv
open VLogGeometry

section checked
variable [Crc32c]

structure PositionedRead where
  fileId : Nat
  offset : Nat
  len : Nat
  deriving DecidableEq, Repr

-- The cursor of every turn of the loop and every read it issued, oldest first.
structure RecoveryTrace where
  cursors : List VLogPosition
  reads : List PositionedRead
  deriving DecidableEq, Repr

-- The loop of the reader again, with the trace it leaves.
namespace Traced

def readRecoveryBytes (files : FileSet) (fileId offset len : Nat) : Eff RecoveryTrace StorageError Bytes := do
  let contents ← Eff.lift ((files.handle fileId).mapError recoveryContext)
  Eff.lift (rejectIf (offset + len > contents.length ∨ offset + len > files.geometry.maxFileSize)
    (recoveryCorruptionAt fileId offset))
  modify (fun trace => {trace with reads := trace.reads ++ [⟨fileId,offset,len⟩]})
  Eff.lift ((readExactAt contents offset len fileId).mapError recoveryContext)

def recoveryChunkLen (files : FileSet) (vlogEnd cursor : VLogPosition) : Eff RecoveryTrace StorageError Nat :=
  if cursor.offset % files.geometry.pageSize = 0 then return pageHeaderEncodedLen
  else if cursor.offset = pageHeaderEncodedLen then return fileHeaderEncodedLen
  else do
    let headerEnd := cursor.offset + recordHeaderEncodedLen
    Eff.lift (rejectIf (cursor.fileId = vlogEnd.fileId ∧ headerEnd > vlogEnd.offset)
      (recoveryCorruptionAt cursor.fileId cursor.offset))
    let encoded ← readRecoveryBytes files cursor.fileId cursor.offset recordHeaderEncodedLen
    let header ← Eff.lift ((RecordHeader.decode encoded).mapError recoveryContext)
    Eff.lift (rejectIf (header.encodedLen < recordHeaderEncodedLen) recoveryCorruption)
    return header.encodedLen

def readRecoveryChunk (files : FileSet) (vlogEnd cursor : VLogPosition) :
    Eff RecoveryTrace StorageError (PhysicalChunk × VLogPosition) := do
  modify (fun trace => {trace with cursors := trace.cursors ++ [cursor]})
  Eff.lift (rejectIf (cursor.fileId > vlogEnd.fileId) recoveryCorruption)
  let encodedLen ← recoveryChunkLen files vlogEnd cursor
  Eff.lift (rejectIf (encodedLen = 0) recoveryCorruption)
  let chunkEndOffset := cursor.offset + encodedLen
  let endOffset := (cursor.offset / files.geometry.pageSize + 1) * files.geometry.pageSize
  Eff.lift (rejectIf (chunkEndOffset > endOffset ∨ chunkEndOffset > files.geometry.maxFileSize) recoveryCorruption)
  let chunkEnd : VLogPosition := ⟨cursor.fileId,chunkEndOffset⟩
  Eff.lift (rejectIf (vlogEnd < chunkEnd) recoveryCorruption)
  let bytes ← readRecoveryBytes files cursor.fileId cursor.offset encodedLen
  let next ← Eff.lift (recoveryNextCursor chunkEnd vlogEnd files.geometry)
  return (⟨cursor,bytes⟩,next)

end Traced

-- A read that stays inside the file it opens and in front of the end it was given.
structure PositionedRead.Inside (files : FileSet) (vlogEnd : VLogPosition) (read : PositionedRead) : Prop where
  file : ∃ contents, files.handle read.fileId = .ok contents ∧ read.offset + read.len ≤ contents.length
  before : (⟨read.fileId,read.offset + read.len⟩ : VLogPosition) ≤ vlogEnd
  within : read.offset + read.len ≤ files.geometry.maxFileSize

-- No sum a turn forms leaves its type: 32 bits for a file, 64 bits for an offset.
structure Representable (files : FileSet) (vlogEnd cursor : VLogPosition) : Prop where
  file : cursor.fileId + 1 < 4294967296
  header : cursor.offset + recordHeaderEncodedLen < 18446744073709551616
  page : (cursor.offset / files.geometry.pageSize + 1) * files.geometry.pageSize < 18446744073709551616
  chunk : ∀ len, recoveryChunkLen files vlogEnd cursor = .ok len → cursor.offset + len < 18446744073709551616

section turns
variable {files : FileSet} {vlogEnd cursor : VLogPosition} {trace : RecoveryTrace}

-- Whatever a part of a turn answers, it answers what the reader answers and has issued reads inside alone.
def Follows {α : Type} (files : FileSet) (vlogEnd : VLogPosition) (trace : RecoveryTrace)
    (traced : Eff RecoveryTrace StorageError α) (plain : Result α) : Prop :=
  Delivers traced trace
    (fun value next => plain = .ok value ∧ next.cursors = trace.cursors ∧
      ∀ read ∈ next.reads, read ∈ trace.reads ∨ read.Inside files vlogEnd)
    (fun error next => plain = .error error ∧ next.cursors = trace.cursors ∧
      ∀ read ∈ next.reads, read ∈ trace.reads ∨ read.Inside files vlogEnd)

theorem Follows.lift {α : Type} (plain : Result α) : Follows files vlogEnd trace (Eff.lift plain) plain :=
  delivers_lift.mpr ⟨fun _ same => ⟨same,rfl,fun _ => .inl⟩,fun _ same => ⟨same,rfl,fun _ => .inl⟩⟩

theorem Follows.bind {α β : Type} {traced : Eff RecoveryTrace StorageError α} {plain : Result α}
    {tracedRest : α → Eff RecoveryTrace StorageError β} {rest : α → Result β}
    (first : Follows files vlogEnd trace traced plain)
    (later : ∀ value next, plain = .ok value → Follows files vlogEnd next (tracedRest value) (rest value)) :
    Follows files vlogEnd trace (traced >>= tracedRest) (plain >>= rest) := by
  refine Delivers.bind first ?_ ?_
  · intro value reached done
    obtain ⟨same,cursors,reads⟩ := done
    rw [same,ok_bind]
    have joins : ∀ next : RecoveryTrace, next.cursors = reached.cursors ∧
        (∀ read ∈ next.reads, read ∈ reached.reads ∨ read.Inside files vlogEnd) →
        next.cursors = trace.cursors ∧ ∀ read ∈ next.reads, read ∈ trace.reads ∨ read.Inside files vlogEnd := by
      intro next step
      refine ⟨step.1.trans cursors,?_⟩
      intro read member
      rcases step.2 read member with earlier | inside
      · exact reads read earlier
      · exact .inr inside
    refine (later value reached same).mono ?_ ?_
    · intro answer next step
      exact ⟨step.1,joins next step.2⟩
    · intro error next step
      exact ⟨step.1,joins next step.2⟩
  · intro error reached done
    obtain ⟨same,facts⟩ := done
    exact ⟨by rw [same]; rfl,facts⟩

theorem Traced.readRecoveryBytes_follows {fileId offset len : Nat}
    (before : (⟨fileId,offset + len⟩ : VLogPosition) ≤ vlogEnd) :
    Follows files vlogEnd trace (Traced.readRecoveryBytes files fileId offset len)
      (ExpirKv.readRecoveryBytes files fileId offset len) := by
  refine (Follows.lift _).bind ?_
  intro contents reached opened
  refine (Follows.lift _).bind ?_
  intro _ later bounds
  obtain ⟨inside,limit⟩ := not_or.mp (rejectIf_ok.mp bounds)
  have counted : (⟨fileId,offset,len⟩ : PositionedRead).Inside files vlogEnd :=
    ⟨⟨contents,mapError_ok.mp opened,Nat.le_of_not_lt inside⟩,before,Nat.le_of_not_lt limit⟩
  have logged : ∀ read ∈ later.reads ++ [⟨fileId,offset,len⟩], read ∈ later.reads ∨ read.Inside files vlogEnd := by
    intro read member
    rcases List.mem_append.mp member with earlier | new
    · exact .inl earlier
    · rw [List.mem_singleton.mp new]
      exact .inr counted
  exact delivers_lift.mpr ⟨fun _ same => ⟨same,rfl,logged⟩,fun _ same => ⟨same,rfl,logged⟩⟩

theorem Traced.recoveryChunkLen_follows (inside : cursor.fileId ≤ vlogEnd.fileId) :
    Follows files vlogEnd trace (Traced.recoveryChunkLen files vlogEnd cursor)
      (ExpirKv.recoveryChunkLen files vlogEnd cursor) := by
  unfold Traced.recoveryChunkLen ExpirKv.recoveryChunkLen
  split
  · exact Follows.lift (.ok pageHeaderEncodedLen)
  · split
    · exact Follows.lift (.ok fileHeaderEncodedLen)
    · refine (Follows.lift _).bind ?_
      intro _ _ room
      have before := rejectIf_ok.mp room
      refine (Traced.readRecoveryBytes_follows ?_).bind ?_
      · simp only [VLogPosition.le_def,recordHeaderEncodedLen] at before ⊢
        omega
      · intro encoded _ _
        refine (Follows.lift _).bind ?_
        intro header _ _
        refine (Follows.lift _).bind ?_
        intro _ _ _
        exact Follows.lift (.ok header.encodedLen)

-- A turn as a whole leaves its cursor too.
theorem Traced.readRecoveryChunk_follows :
    Delivers (Traced.readRecoveryChunk files vlogEnd cursor) trace
      (fun turn next => ExpirKv.readRecoveryChunk files vlogEnd cursor = .ok turn ∧
        next.cursors = trace.cursors ++ [cursor] ∧ ∀ read ∈ next.reads, read ∈ trace.reads ∨ read.Inside files vlogEnd)
      (fun error next => ExpirKv.readRecoveryChunk files vlogEnd cursor = .error error ∧
        next.cursors = trace.cursors ++ [cursor] ∧
        ∀ read ∈ next.reads, read ∈ trace.reads ∨ read.Inside files vlogEnd) := by
  rw [Traced.readRecoveryChunk,delivers_bind,delivers_modify]
  change Follows files vlogEnd {trace with cursors := trace.cursors ++ [cursor]} _ _
  refine (Follows.lift (rejectIf (cursor.fileId > vlogEnd.fileId) recoveryCorruption)).bind ?_
  intro _ _ reached
  have inside := rejectIf_ok.mp reached
  refine (Traced.recoveryChunkLen_follows (by omega)).bind ?_
  intro encodedLen _ _
  refine (Follows.lift _).bind ?_
  intro _ _ _
  refine (Follows.lift _).bind ?_
  intro _ _ _
  refine (Follows.lift _).bind ?_
  intro _ _ ends
  refine (Traced.readRecoveryBytes_follows (VLogPosition.not_lt.mp (rejectIf_ok.mp ends))).bind ?_
  intro bytes _ _
  refine (Follows.lift _).bind ?_
  intro next _ _
  exact Follows.lift (.ok ((⟨cursor,bytes⟩ : PhysicalChunk),next))

end turns

namespace Traced

def readRecoveryChunksFrom (files : FileSet) (vlogEnd cursor : VLogPosition) (trace : RecoveryTrace) :
    EStateM.Result StorageError RecoveryTrace (List PhysicalChunk) :=
  if cursor < vlogEnd then
    match _turn : readRecoveryChunk files vlogEnd cursor trace with
    | .error error reached => .error error reached
    | .ok (chunk,next) reached =>
      match readRecoveryChunksFrom files vlogEnd next reached with
      | .error error last => .error error last
      | .ok chunks last => .ok (chunk :: chunks) last
  else if cursor ≠ vlogEnd then .error recoveryCorruption trace
  else .ok [] trace
termination_by (vlogEnd.fileId + 1 - cursor.fileId,files.geometry.maxFileSize - cursor.offset)
decreasing_by
  have progress := readRecoveryChunk_progress (readRecoveryChunk_follows.of_ok _turn).1
  obtain ⟨same,later,bounded⟩ | ⟨rolled,inside⟩ := progress
  · rw [same]
    exact .right _ (by omega)
  · exact .left _ _ (by omega)

def readRecoveryChunks (files : FileSet) (vlogBegin vlogEnd : VLogPosition) :
    Eff RecoveryTrace StorageError (List PhysicalChunk) := do
  Eff.lift (rejectIf (vlogEnd ≤ vlogBegin ∨ vlogBegin.fileId > files.geometry.maxFileId ∨
    vlogEnd.fileId > files.geometry.maxFileId ∨ vlogBegin.offset > files.geometry.maxFileSize ∨
    vlogEnd.offset > files.geometry.maxFileSize) recoveryCorruption)
  let cursor ← Eff.lift (recoveryNextPosition vlogBegin files.geometry)
  fun trace => readRecoveryChunksFrom files vlogEnd cursor trace

end Traced

structure RecoveryTrace.Orderly (files : FileSet) (vlogEnd : VLogPosition) (trace : RecoveryTrace) : Prop where
  rising : trace.cursors.Pairwise (· < ·)
  before : ∀ cursor ∈ trace.cursors, cursor < vlogEnd
  fits : ∀ cursor ∈ trace.cursors, Representable files vlogEnd cursor
  inside : ∀ read ∈ trace.reads, read.Inside files vlogEnd

-- A position behind some bytes and the one the next bytes stand at: the same, or over the end of a full file.
def CarriesOver (geometry : VLogGeometry) (previous cursor : VLogPosition) : Prop :=
  previous = cursor ∨ (previous.offset = geometry.maxFileSize ∧ cursor = ⟨previous.fileId + 1,0⟩)

section loop
variable {files : FileSet} {vlogEnd cursor next : VLogPosition} {chunk : PhysicalChunk}

theorem readRecoveryChunk_rises (read : readRecoveryChunk files vlogEnd cursor = .ok (chunk,next)) : cursor < next := by
  rcases readRecoveryChunk_progress read with ⟨same,later,-⟩ | ⟨rolled,-⟩
  · exact .inr ⟨same,later⟩
  · exact .inl (by omega)

omit [Crc32c] in
theorem recoveryNextPosition_carriesOver {geometry : VLogGeometry} {previous : VLogPosition} (positive : 0 < geometry.maxFileSize)
    (stepped : recoveryNextPosition previous geometry = .ok next) :
    CarriesOver geometry previous next ∧ next.offset < geometry.maxFileSize := by
  unfold recoveryNextPosition nextPosition at stepped
  split at stepped
  · rename_i inside
    obtain rfl := Except.ok.inj stepped
    exact ⟨.inl rfl,inside⟩
  · split at stepped
    · cases stepped
    · rename_i outside full
      obtain rfl := Except.ok.inj stepped
      exact ⟨.inr ⟨by omega,rfl⟩,positive⟩

-- Everything one turn settles.
theorem readRecoveryChunk_ok (positive : 0 < files.geometry.maxFileSize)
    (read : readRecoveryChunk files vlogEnd cursor = .ok (chunk,next)) :
    chunk.position = cursor ∧ chunk.bytes ≠ [] ∧ cursor.fileId ≤ vlogEnd.fileId ∧
      cursor.offset + chunk.bytes.length ≤ files.geometry.maxFileSize ∧
      cursor.offset + chunk.bytes.length ≤ (cursor.offset / files.geometry.pageSize + 1) * files.geometry.pageSize ∧
      CarriesOver files.geometry chunk.next next ∧ (next < vlogEnd → next.offset < files.geometry.maxFileSize) := by
  simp only [readRecoveryChunk,bind_ok,exists_unit,rejectIf_ok,pure_ok,Except.ok.injEq,Prod.mk.injEq] at read
  obtain ⟨before,len,-,positive,bounds,-,bytes,taken,after,stepped,rfl,rfl⟩ := read
  obtain ⟨contents,-,taken⟩ := readRecoveryBytes_ok taken
  have width : bytes.length = len := slice?_length taken
  have filled : bytes ≠ [] := by
    intro empty
    rw [empty,List.length_nil] at width
    exact positive width.symm
  obtain ⟨page,limit⟩ := not_or.mp bounds
  refine ⟨rfl,filled,Nat.le_of_not_lt before,by rw [width]; omega,by rw [width]; omega,?_⟩
  unfold recoveryNextCursor at stepped
  split at stepped
  · rename_i last
    obtain rfl := Except.ok.inj stepped
    rw [last]
    exact ⟨.inl (by rw [PhysicalChunk.next,width,last]),fun past => absurd past (VLogPosition.lt_irrefl _)⟩
  · obtain ⟨stands,inside⟩ := recoveryNextPosition_carriesOver ‹_› stepped
    rw [PhysicalChunk.next,width]
    exact ⟨stands,fun _ => inside⟩

theorem recoveryChunkLen_lt {len : Nat} (found : recoveryChunkLen files vlogEnd cursor = .ok len) : len < 4294967296 := by
  unfold recoveryChunkLen at found
  split at found
  · obtain rfl := Except.ok.inj found
    decide
  · split at found
    · obtain rfl := Except.ok.inj found
      decide
    · simp only [bind_ok,exists_unit,mapError_ok,pure_ok,Except.ok.injEq] at found
      obtain ⟨-,encoded,-,header,decoded,-,rfl⟩ := found
      exact (RecordHeader.decode_canonical decoded).2.2.2.1

-- What a reader knows of its geometry since it was built.
omit [Crc32c] in
theorem VLogGeometry.validate_ok {geometry : VLogGeometry} (accepted : geometry.validate = .ok ()) :
    64 < geometry.pageSize ∧ geometry.pageSize ≤ 65536 ∧ 0 < geometry.maxFileSize ∧
      geometry.maxFileSize ≤ 4294967296 ∧ geometry.maxFileSize % geometry.pageSize = 0 ∧ geometry.maxFileId ≤ 999999 := by
  simp only [validate,bind_ok,exists_unit,rejectIf_ok,firstPageRecordAreaStart,vlogPageSize,maxVlogFileSize,
    maxVlogFileId] at accepted
  omega

theorem representable (valid : files.geometry.validate = .ok ()) (file : cursor.fileId ≤ files.geometry.maxFileId)
    (inside : cursor.offset < files.geometry.maxFileSize) : Representable files vlogEnd cursor := by
  obtain ⟨-,page,-,size,-,last⟩ := VLogGeometry.validate_ok valid
  have floor := Nat.div_mul_le_self cursor.offset files.geometry.pageSize
  have above : (cursor.offset / files.geometry.pageSize + 1) * files.geometry.pageSize =
      cursor.offset / files.geometry.pageSize * files.geometry.pageSize + files.geometry.pageSize := Nat.succ_mul _ _
  refine ⟨by omega,by simp only [recordHeaderEncodedLen]; omega,by omega,?_⟩
  intro len found
  have short := recoveryChunkLen_lt found
  omega

-- A turn below the end keeps the trace in order.
theorem RecoveryTrace.Orderly.turn {trace reached : RecoveryTrace} (orderly : trace.Orderly files vlogEnd)
    (valid : files.geometry.validate = .ok ()) (lastFile : vlogEnd.fileId ≤ files.geometry.maxFileId)
    (behind : ∀ passed ∈ trace.cursors, passed < cursor) (below : cursor < vlogEnd)
    (inside : cursor.offset < files.geometry.maxFileSize) (cursors : reached.cursors = trace.cursors ++ [cursor])
    (reads : ∀ read ∈ reached.reads, read ∈ trace.reads ∨ read.Inside files vlogEnd) :
    reached.Orderly files vlogEnd := by
  have file : cursor.fileId ≤ files.geometry.maxFileId := by
    have order := (VLogPosition.lt_def _ _).mp below
    omega
  refine ⟨?_,?_,?_,?_⟩
  · rw [cursors,List.pairwise_append]
    refine ⟨orderly.rising,List.pairwise_singleton _ _,?_⟩
    intro passed member here same
    rw [List.mem_singleton.mp same]
    exact behind passed member
  · rw [cursors]
    intro passed member
    rcases List.mem_append.mp member with earlier | here
    · exact orderly.before passed earlier
    · rw [List.mem_singleton.mp here]
      exact below
  · rw [cursors]
    intro passed member
    rcases List.mem_append.mp member with earlier | here
    · exact orderly.fits passed earlier
    · rw [List.mem_singleton.mp here]
      exact representable valid file inside
  · intro read member
    rcases reads read member with earlier | here
    · exact orderly.inside read earlier
    · exact here

omit [Crc32c] in
theorem passed_turn {trace reached : RecoveryTrace} (behind : ∀ passed ∈ trace.cursors, passed < cursor)
    (rises : cursor < next) (cursors : reached.cursors = trace.cursors ++ [cursor]) :
    ∀ passed ∈ reached.cursors, passed < next := by
  rw [cursors]
  intro passed member
  rcases List.mem_append.mp member with earlier | here
  · exact VLogPosition.lt_trans (behind passed earlier) rises
  · rw [List.mem_singleton.mp here]
    exact rises

theorem readRecoveryChunksFrom_done : readRecoveryChunksFrom files vlogEnd vlogEnd = .ok [] := by
  rw [readRecoveryChunksFrom,if_neg (VLogPosition.lt_irrefl _),if_neg (fun differs => differs rfl)]

theorem readRecoveryChunksFrom_below (below : cursor < vlogEnd) :
    readRecoveryChunksFrom files vlogEnd cursor = (do
      let turn ← readRecoveryChunk files vlogEnd cursor
      (readRecoveryChunksFrom files vlogEnd turn.2).map (fun chunks => turn.1 :: chunks)) := by
  rw [readRecoveryChunksFrom,if_pos below]
  split
  · rename_i error failed
    rw [failed]
    rfl
  · rename_i chunk next read
    rw [read]
    rfl

-- The trace in front of a cursor stays in order to the end of the loop, whatever the files hold.
theorem Traced.readRecoveryChunksFrom_orderly {trace : RecoveryTrace} (valid : files.geometry.validate = .ok ())
    (lastFile : vlogEnd.fileId ≤ files.geometry.maxFileId) (orderly : trace.Orderly files vlogEnd)
    (behind : ∀ passed ∈ trace.cursors, passed < cursor)
    (inside : cursor < vlogEnd → cursor.offset < files.geometry.maxFileSize) :
    Delivers (Traced.readRecoveryChunksFrom files vlogEnd cursor) trace
      (fun chunks last => ExpirKv.readRecoveryChunksFrom files vlogEnd cursor = .ok chunks ∧
        last.Orderly files vlogEnd)
      (fun error last => ExpirKv.readRecoveryChunksFrom files vlogEnd cursor = .error error ∧
        last.Orderly files vlogEnd) := by
  have positive := (VLogGeometry.validate_ok valid).2.2.1
  unfold Delivers
  fun_induction Traced.readRecoveryChunksFrom files vlogEnd cursor trace with
  | case1 cursor trace below error reached failed =>
    obtain ⟨answer,cursors,reads⟩ := readRecoveryChunk_follows.of_error failed
    refine ⟨?_,orderly.turn valid lastFile behind below (inside below) cursors reads⟩
    rw [readRecoveryChunksFrom_below below,answer]
    rfl
  | case2 cursor trace below chunk next reached turn error last failed ih =>
    obtain ⟨answer,cursors,reads⟩ := readRecoveryChunk_follows.of_ok turn
    have kept := orderly.turn valid lastFile behind below (inside below) cursors reads
    have later := passed_turn behind (readRecoveryChunk_rises answer) cursors
    have rest := ih kept later (readRecoveryChunk_ok positive answer).2.2.2.2.2.2
    rw [failed] at rest
    refine ⟨?_,rest.2⟩
    rw [readRecoveryChunksFrom_below below,answer,ok_bind,rest.1]
    rfl
  | case3 cursor trace below chunk next reached turn chunks last finished ih =>
    obtain ⟨answer,cursors,reads⟩ := readRecoveryChunk_follows.of_ok turn
    have kept := orderly.turn valid lastFile behind below (inside below) cursors reads
    have later := passed_turn behind (readRecoveryChunk_rises answer) cursors
    have rest := ih kept later (readRecoveryChunk_ok positive answer).2.2.2.2.2.2
    rw [finished] at rest
    refine ⟨?_,rest.2⟩
    rw [readRecoveryChunksFrom_below below,answer,ok_bind,rest.1]
    rfl
  | case4 cursor trace above differs =>
    exact ⟨by rw [ExpirKv.readRecoveryChunksFrom,if_neg above,if_pos differs],orderly⟩
  | case5 cursor trace above same =>
    exact ⟨by rw [ExpirKv.readRecoveryChunksFrom,if_neg above,if_neg same],orderly⟩

-- A loop that ends well has tiled what was in front of it, up to the end or to the end of the file before it.
theorem readRecoveryChunksFrom_tiles {previous : VLogPosition} {chunks : List PhysicalChunk}
    (positive : 0 < files.geometry.maxFileSize) (lastFile : vlogEnd.fileId ≤ files.geometry.maxFileId)
    (stands : CarriesOver files.geometry previous cursor)
    (inside : cursor < vlogEnd → cursor.offset < files.geometry.maxFileSize)
    (read : readRecoveryChunksFrom files vlogEnd cursor = .ok chunks) :
    ∃ stop, Tiles files.geometry previous chunks stop ∧ CarriesOver files.geometry stop vlogEnd := by
  fun_induction readRecoveryChunksFrom files vlogEnd cursor generalizing previous chunks with
  | case1 cursor below error failed => cases read
  | case2 cursor below chunk next first ih =>
    obtain ⟨later,rest,rfl⟩ := map_ok.mp read
    obtain ⟨rfl,filled,file,limit,page,after,room⟩ := readRecoveryChunk_ok positive first
    obtain ⟨stop,tiles,ends⟩ := ih after room rest
    refine ⟨stop,.cons ?_ filled (Nat.le_trans file lastFile) limit page tiles,ends⟩
    rcases stands with same | full
    · exact .inl ⟨by rw [same]; exact inside below,same.symm⟩
    · exact .inr full
  | case3 cursor above differs => cases read
  | case4 cursor above same =>
    obtain rfl := Except.ok.inj read
    rw [Decidable.not_not.mp same] at stands
    exact ⟨previous,.nil,stands⟩

end loop

-- The scan without its checks of where a chunk stands, how long it is and where the last one ends.
namespace ScanState

def takeChunk (target : ScanTarget) (state : ScanState) (chunk : PhysicalChunk) (isLast : Bool) :
    Result ScanState := do
  let scanned ← state.scanContents target chunk isLast
  checkRecordEnd target scanned.2 chunk.next
  return {scanned.1 with physicalEnd := chunk.next}

def takeChunks (target : ScanTarget) (state : ScanState) : List PhysicalChunk → Result ScanState
  | [] => .ok state
  | chunk :: rest => do
    let state ← state.takeChunk target chunk rest.isEmpty
    takeChunks target state rest

end ScanState

def takePreparedEnvelope (chunks : List PhysicalChunk) (geometry : VLogGeometry) (databaseUuid : Uuid)
    (vlogBegin vlogEnd : VLogPosition) (expectedEnvelopeCrc32c : Option Nat) : Result ScannedEnvelope := do
  geometry.validateForDecode
  rejectIf (databaseUuid.isZero = true) (decodeError .corruption)
  let target : ScanTarget := ⟨geometry,databaseUuid,vlogBegin,vlogEnd,expectedEnvelopeCrc32c⟩
  let state ← target.initial.takeChunks target chunks
  let begin ← orError state.begin (decodeError .corruption)
  let footer ← orError state.footer (decodeError .corruption)
  return ⟨begin.commitSeq,begin.txUuid,vlogBegin,vlogEnd,state.logicalOpCount,footer.distinctKeyCount,
    state.kvRecordCount,state.deleteRecordCount,footer.envelopeCrc32c⟩

section tiled
variable {target : ScanTarget} {state : ScanState} {chunks : List PhysicalChunk} {geometry : VLogGeometry}
  {position stop : VLogPosition}

omit [Crc32c] in
theorem Succeeds.next {start : VLogPosition} (succeeds : Succeeds geometry position start)
    (file : start.fileId ≤ geometry.maxFileId) (error : StorageError) :
    nextPosition error position geometry = .ok start := by
  rcases succeeds with ⟨inside,same⟩ | ⟨full,same⟩
  · rw [nextPosition,if_pos inside,same]
  · subst same
    rw [nextPosition,if_neg (by omega),if_neg (by simp only at file; omega)]

omit [Crc32c] in
theorem chunkEnd_inside {chunk : PhysicalChunk} (file : chunk.position.fileId ≤ geometry.maxFileId)
    (limit : chunk.position.offset + chunk.bytes.length ≤ geometry.maxFileSize) :
    chunkEnd chunk geometry = .ok chunk.next := by
  simp only [chunkEnd]
  rw [rejectIf_false (by omega),ok_bind,rejectIf_false (by omega),ok_bind]
  rfl

theorem Tiles.scanChunks (tiles : Tiles target.geometry state.physicalEnd chunks stop) :
    state.scanChunks target chunks = state.takeChunks target chunks := by
  induction chunks generalizing state with
  | nil => rfl
  | cons chunk rest ih =>
    cases tiles with
    | cons follows filled file limit page later =>
      have here : state.scanChunk target chunk rest.isEmpty = state.takeChunk target chunk rest.isEmpty := by
        rw [ScanState.scanChunk,rejectIf_false (by simpa using filled),ok_bind,nextChunkPosition,
          follows.next file,ok_bind,rejectIf_false (by simp),ok_bind,ScanState.takeChunk]
        refine bind_congr ?_
        intro scanned
        rw [chunkEnd_inside file limit,ok_bind]
      rw [ScanState.scanChunks,ScanState.takeChunks,here]
      cases taken : state.takeChunk target chunk rest.isEmpty with
      | error error => rfl
      | ok next =>
        rw [ok_bind,ok_bind]
        refine ih ?_
        simp only [ScanState.takeChunk,bind_ok,exists_unit,pure_ok,Except.ok.injEq] at taken
        obtain ⟨scanned,-,-,rfl⟩ := taken
        exact later

theorem Tiles.takeChunks {next : ScanState} (tiles : Tiles target.geometry state.physicalEnd chunks stop)
    (taken : state.takeChunks target chunks = .ok next) : next.physicalEnd = stop := by
  induction chunks generalizing state with
  | nil =>
    cases tiles
    obtain rfl := Except.ok.inj taken
    rfl
  | cons chunk rest ih =>
    cases tiles with
    | cons follows filled file limit page later =>
      simp only [ScanState.takeChunks,ScanState.takeChunk,bind_ok,exists_unit,pure_ok,Except.ok.injEq] at taken
      obtain ⟨middle,⟨scanned,-,-,rfl⟩,taken⟩ := taken
      exact ih later taken

theorem Tiles.scanPreparedEnvelope {databaseUuid : Uuid} {expected : Option Nat}
    (tiles : Tiles geometry position chunks stop) (before : position < stop) :
    scanPreparedEnvelope chunks geometry databaseUuid position stop expected =
      takePreparedEnvelope chunks geometry databaseUuid position stop expected := by
  cases tiles with
  | nil => exact absurd before (VLogPosition.lt_irrefl _)
  | cons follows filled file limit page later =>
    rename_i chunk rest
    have whole : Tiles geometry position (chunk :: rest) stop := .cons follows filled file limit page later
    have first : (((chunk :: rest).isEmpty = true ∨ databaseUuid.isZero = true ∨ stop ≤ position ∨
        (chunk :: rest).head?.map PhysicalChunk.position ≠ some chunk.position)) ↔ databaseUuid.isZero = true := by
      simp [VLogPosition.not_le.mpr before]
    simp only [ExpirKv.scanPreparedEnvelope,takePreparedEnvelope,nextChunkPosition,follows.next file,ok_bind,first]
    refine bind_congr ?_
    intro _
    refine bind_congr ?_
    intro _
    have start : Tiles (ScanTarget.mk geometry databaseUuid position stop expected).geometry
        (ScanTarget.mk geometry databaseUuid position stop expected).initial.physicalEnd (chunk :: rest) stop := whole
    rw [start.scanChunks]
    cases taken : ScanState.takeChunks ⟨geometry,databaseUuid,position,stop,expected⟩
        (ScanTarget.mk geometry databaseUuid position stop expected).initial (chunk :: rest) with
    | error error => rfl
    | ok state => rw [ok_bind,ok_bind,rejectIf_false (by simp [start.takeChunks taken]),ok_bind]

omit [Crc32c] in
theorem Tiles.stop_eq (tiles : Tiles geometry position chunks stop) : stop = position ∧ chunks = [] ∨ 0 < stop.offset := by
  induction tiles with
  | nil => exact .inl ⟨rfl,rfl⟩
  | cons follows filled file limit page later ih =>
    rcases ih with ⟨same,-⟩ | past
    · rw [same]
      exact .inr (Nat.add_pos_right _ (List.length_pos_iff.mpr filled))
    · exact .inr past

end tiled

theorem recovery_chunks_tile (files : FileSet) (vlogBegin vlogEnd : VLogPosition)
    (valid : files.geometry.validate = .ok ()) :
    Delivers (Traced.readRecoveryChunks files vlogBegin vlogEnd) ⟨[],[]⟩
      (fun chunks trace => readRecoveryChunks files vlogBegin vlogEnd = .ok chunks ∧ trace.Orderly files vlogEnd)
      (fun error trace => readRecoveryChunks files vlogBegin vlogEnd = .error error ∧ trace.Orderly files vlogEnd) ∧
    (∀ cursor chunk next, readRecoveryChunk files vlogEnd cursor = .ok (chunk,next) → cursor < next) ∧
    ∀ chunks, readRecoveryChunks files vlogBegin vlogEnd = .ok chunks →
      (∀ chunk ∈ chunks, Holds files chunk) ∧
      ∃ stop, Tiles files.geometry vlogBegin chunks stop ∧
        (∀ target state, target.geometry = files.geometry → state.physicalEnd = vlogBegin →
          ScanState.scanChunks target state chunks = ScanState.takeChunks target state chunks) ∧
        (vlogEnd.offset ≠ 0 → stop = vlogEnd ∧ chunks ≠ [] ∧ ∀ databaseUuid expected,
          scanPreparedEnvelope chunks files.geometry databaseUuid vlogBegin vlogEnd expected =
            takePreparedEnvelope chunks files.geometry databaseUuid vlogBegin vlogEnd expected) ∧
        (vlogEnd.offset = 0 → stop.offset = files.geometry.maxFileSize ∧ vlogEnd = ⟨stop.fileId + 1,0⟩ ∧
          ∀ databaseUuid expected scanned,
            scanPreparedEnvelope chunks files.geometry databaseUuid vlogBegin vlogEnd expected ≠ .ok scanned) := by
  have positive := (VLogGeometry.validate_ok valid).2.2.1
  refine ⟨?_,fun cursor chunk next => readRecoveryChunk_rises,?_⟩
  · have empty : (⟨[],[]⟩ : RecoveryTrace).Orderly files vlogEnd := by
      refine ⟨.nil,?_,?_,?_⟩ <;> intro _ member <;> cases member
    rw [Traced.readRecoveryChunks,delivers_bind,delivers_lift]
    simp only [readRecoveryChunks]
    refine ⟨?_,?_⟩
    · intro _ accepted
      refine delivers_bind.mpr (delivers_lift.mpr ⟨?_,?_⟩)
      · intro cursor stepped
        rw [accepted,ok_bind,stepped,ok_bind]
        refine Traced.readRecoveryChunksFrom_orderly valid ?_ empty (fun _ member => by cases member) ?_
        · have bounds := rejectIf_ok.mp accepted
          omega
        · intro _
          exact (recoveryNextPosition_carriesOver positive stepped).2
      · intro error failed
        rw [accepted,ok_bind,failed]
        exact ⟨rfl,empty⟩
    · intro error failed
      rw [failed]
      exact ⟨rfl,empty⟩
  · intro chunks read
    simp only [readRecoveryChunks,bind_ok,exists_unit,rejectIf_ok] at read
    obtain ⟨bounds,cursor,stepped,read⟩ := read
    have before : vlogBegin < vlogEnd := VLogPosition.not_le.mp (fun above => bounds (.inl above))
    obtain ⟨stands,inside⟩ := recoveryNextPosition_carriesOver positive stepped
    obtain ⟨stop,tiles,ends⟩ :=
      readRecoveryChunksFrom_tiles positive (by omega) stands (fun _ => inside) read
    refine ⟨readRecoveryChunksFrom_holds read,stop,tiles,?_,?_,?_⟩
    · intro target state geometry physicalEnd
      rw [← geometry,← physicalEnd] at tiles
      exact tiles.scanChunks
    · intro nonzero
      rcases ends with rfl | ⟨-,wrapped⟩
      · refine ⟨rfl,?_,fun databaseUuid expected => tiles.scanPreparedEnvelope before⟩
        rintro rfl
        cases tiles
        exact VLogPosition.lt_irrefl _ before
      · rw [wrapped] at nonzero
        exact absurd rfl nonzero
    · intro zero
      have full : stop.offset = files.geometry.maxFileSize ∧ vlogEnd = ⟨stop.fileId + 1,0⟩ := by
        rcases ends with rfl | wrapped
        · rcases tiles.stop_eq with ⟨same,-⟩ | past
          · rw [same] at before
            exact absurd before (VLogPosition.lt_irrefl _)
          · omega
        · exact wrapped
      refine ⟨full.1,full.2,?_⟩
      intro databaseUuid expected scanned accepted
      simp only [scanPreparedEnvelope,bind_ok,exists_unit,rejectIf_ok,not_not,ne_eq] at accepted
      obtain ⟨-,first,-,-,state,taken,reached,-⟩ := accepted
      have start : Tiles (ScanTarget.mk files.geometry databaseUuid vlogBegin vlogEnd expected).geometry
          (ScanTarget.mk files.geometry databaseUuid vlogBegin vlogEnd expected).initial.physicalEnd chunks stop := tiles
      rw [start.scanChunks] at taken
      have stopped := start.takeChunks taken
      rw [stopped,full.2] at reached
      have offset : stop.offset = 0 := congrArg VLogPosition.offset reached
      omega

end checked

-- The first envelope of a database: a page header, a file header, a begin, two operations and a footer are read in
-- that order and fill the range.
theorem recovery_chunks_tile_first :
    let database : Uuid := ⟨List.replicate 16 1,rfl⟩
    ∃ envelope next trace,
      @prepareEnvelope castagnoli ⟨production,⟨0,0⟩⟩ database 1 ⟨List.replicate 16 7,rfl⟩ [.put [1] [2,3],.delete [4]] =
        .ok (envelope,next) ∧
      @Traced.readRecoveryChunks castagnoli ((FileSet.empty database).layAll envelope.chunks) ⟨0,0⟩ envelope.vlogEnd
        ⟨[],[]⟩ = .ok envelope.chunks trace ∧
      @RecoveryTrace.Orderly castagnoli ((FileSet.empty database).layAll envelope.chunks) envelope.vlogEnd trace ∧
      envelope.chunks.length = 6 ∧ Tiles production ⟨0,0⟩ envelope.chunks envelope.vlogEnd := by
  intro database
  have counted : (@prepareEnvelope castagnoli ⟨production,⟨0,0⟩⟩ database 1 ⟨List.replicate 16 7,rfl⟩
      [.put [1] [2,3],.delete [4]]).toOption.any
        (fun pair => decide (pair.1.chunks.length = 6 ∧ pair.1.vlogEnd.offset ≠ 0)) = true := by
    decide +kernel
  obtain ⟨⟨envelope,next⟩,prepared,count⟩ := ok_of_any counted
  simp only [decide_eq_true_eq] at count
  have laid := (@prepareEnvelope_laid castagnoli _ _ _ _ _ _ _ (by decide) prepared).1
  obtain ⟨ended,-,held⟩ := @EnvelopeLaid.lays castagnoli _ _ _ _ _ _ _ laid (@EndsAt.empty castagnoli database) rfl
  have geometry := @EndsAt.geometry castagnoli _ _ ended
  have read := @EnvelopeLaid.readChunks castagnoli _ _ _ _ _ _ _ laid geometry ⟨by decide,by decide⟩ held
  obtain ⟨runs,-,whole⟩ := @recovery_chunks_tile castagnoli ((FileSet.empty database).layAll envelope.chunks) ⟨0,0⟩
    envelope.vlogEnd (by rw [geometry]; rfl)
  obtain ⟨-,stop,tiles,-,ends,-⟩ := whole envelope.chunks read
  obtain ⟨rfl,-⟩ := ends count.2
  unfold Delivers at runs
  split at runs
  · rename_i chunks trace ran
    obtain rfl := Except.ok.inj (read.symm.trans runs.1)
    exact ⟨envelope,next,trace,prepared,ran,runs.2,count.1,geometry ▸ tiles⟩
  · have failed := read.symm.trans runs.1
    cases failed

-- An end at the start of a file: the step over the full file before it meets the end, no chunk is read, and the scan
-- refuses what the loop returned.
theorem recovery_chunks_none_at_file_start :
    @readRecoveryChunks castagnoli ⟨∅,∅,⟨List.replicate 16 7,rfl⟩,production⟩ ⟨0,4294967296⟩ ⟨1,0⟩ = .ok [] ∧
      ∀ databaseUuid expected,
        @scanPreparedEnvelope castagnoli [] production databaseUuid ⟨0,4294967296⟩ ⟨1,0⟩ expected =
          .error (decodeError .corruption) := by
  refine ⟨?_,fun databaseUuid expected => rfl⟩
  have stepped : recoveryNextPosition ⟨0,4294967296⟩ production = .ok ⟨1,0⟩ := rfl
  unfold readRecoveryChunks
  rw [rejectIf_false (by decide),ok_bind,stepped,ok_bind]
  exact @readRecoveryChunksFrom_done castagnoli _ _

end ExpirKv
