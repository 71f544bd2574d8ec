import ExpirKv.Vlog.EnvelopeFacts

namespace ExpirKv
open VLogGeometry

variable [Crc32c] {databaseUuid txUuid : Uuid} {commitSeq : Nat} {target : ScanTarget} {state : ScanState}

omit [Crc32c] in
theorem InRecordArea.notHeader {position : VLogPosition} (area : InRecordArea position) :
    ¬position.offset % 65536 = 0 ∧ ¬(position.offset < 65536 ∧ position.offset = 16) ∧ ¬position.offset = 16 := by
  obtain ⟨-,-,low,first⟩ := area
  omega

theorem scanChunk_pageHeader {file offset : Nat} {bytes : Bytes} {isLast : Bool} (geometry : target.geometry = production)
    (follows : nextChunkPosition state.physicalEnd production = .ok ⟨file,offset⟩)
    (idle : state.expectingFileHeader = false) (bound : file ≤ 999999) (inside : offset < 4294967296)
    (aligned : offset % 65536 = 0) (decoded : PageHeader.decode bytes = .ok ⟨file,offset / 65536⟩)
    (width : bytes.length = 16) :
    state.scanChunk target ⟨⟨file,offset⟩,bytes⟩ isLast =
      .ok {state with physicalEnd := ⟨file,offset + 16⟩,expectingFileHeader := offset / 65536 == 0} := by
  have filled : bytes.isEmpty = false := by cases bytes <;> simp_all
  have ends := chunkEnd_production ⟨⟨file,offset⟩,bytes⟩ bound (by simp only; omega)
  simp only [width] at ends
  simp [ScanState.scanChunk,ScanState.scanContents,ScanState.scanPageHeader,ScanState.checkRecordEnd,geometry,
    follows,idle,aligned,decoded,width,filled,ends]

theorem scanChunk_fileHeader {file : Nat} {bytes : Bytes} {isLast : Bool} (geometry : target.geometry = production)
    (identity : target.databaseUuid = databaseUuid) (follows : state.physicalEnd = ⟨file,16⟩)
    (waiting : state.expectingFileHeader = true) (bound : file ≤ 999999)
    (decoded : VLogFileHeader.decode bytes = .ok (.new databaseUuid file)) (width : bytes.length = 48) :
    state.scanChunk target ⟨⟨file,16⟩,bytes⟩ isLast =
      .ok {state with physicalEnd := ⟨file,64⟩,expectingFileHeader := false} := by
  have filled : bytes.isEmpty = false := by cases bytes <;> simp_all
  have stepped := nextPosition_inside (decodeError .corruption) (show (⟨file,16⟩ : VLogPosition).offset < 4294967296 by simp)
  have ends := chunkEnd_production ⟨⟨file,16⟩,bytes⟩ bound (by simp only; omega)
  simp only [width] at ends
  simp [ScanState.scanChunk,ScanState.scanContents,ScanState.scanFileHeader,ScanState.checkRecordEnd,geometry,
    nextChunkPosition,follows,stepped,waiting,decoded,width,filled,ends,VLogFileHeader.new,identity]

theorem Headers.scan (state : ScanState) {position start : VLogPosition} {headers rest : List PhysicalChunk}
    (laid : Headers databaseUuid position headers start) (geometry : target.geometry = production)
    (identity : target.databaseUuid = databaseUuid) (follows : state.physicalEnd = position)
    (idle : state.expectingFileHeader = false) :
    state.scanChunks target (headers ++ rest) =
      ({state with physicalEnd := start} : ScanState).scanChunks target rest := by
  cases laid with
  | inside area => simp only [List.nil_append,←follows]
  | page bound low inside aligned decoded width =>
    rename_i file offset bytes
    have stepped : nextChunkPosition state.physicalEnd production = .ok ⟨file,offset⟩ := by
      rw [follows]
      exact nextPosition_inside _ inside
    have page : (offset / 65536 == 0) = false := by simp; omega
    simp only [List.cons_append,List.nil_append,ScanState.scanChunks,
      scanChunk_pageHeader geometry stepped idle bound inside aligned decoded width,ok_bind,page,←idle]
  | file stepped bound pageDecoded pageWidth fileDecoded fileWidth =>
    rename_i file pageBytes fileBytes
    have first : nextChunkPosition state.physicalEnd production = .ok ⟨file,0⟩ := by
      rw [follows]
      exact stepped _
    simp only [List.cons_append,List.nil_append,ScanState.scanChunks,
      scanChunk_pageHeader geometry first idle bound (by simp) (by simp) pageDecoded pageWidth,ok_bind]
    rw [scanChunk_fileHeader geometry identity (by rfl) (by rfl) bound fileDecoded fileWidth,ok_bind]
    simp only [←idle]

theorem scanChunk_record (state : ScanState) {bytes : Bytes} {entry : Entry} {isLast : Bool} (geometry : target.geometry = production)
    (recorded : Recorded commitSeq txUuid bytes entry) (follows : state.physicalEnd = entry.start)
    (idle : state.expectingFileHeader = false)
    (known : state.identity = none ∨ state.identity = some (commitSeq,txUuid)) :
    state.scanChunk target ⟨entry.start,bytes⟩ isLast =
      (({state with identity := some (commitSeq,txUuid)} : ScanState).acceptRecord target isLast entry.record).map
        (fun scanned => {scanned.1 with physicalEnd := entry.next}) := by
  obtain ⟨header,reads,sameSeq,sameUuid⟩ := recorded.reads
  obtain ⟨notPage,notFile,-⟩ := recorded.area.notHeader
  obtain ⟨file,inside,-,-⟩ := recorded.area
  have stepped := nextPosition_inside (decodeError .corruption) inside
  have good := validateTransactionRecordEnd_production.mpr recorded.good
  have bound := recorded.inside
  have ends := chunkEnd_production ⟨entry.start,bytes⟩ file (by simp only [recorded.sized]; omega)
  simp only [recorded.sized] at ends
  have filled : bytes.isEmpty = false := by
    have long := reads.long
    cases bytes <;> simp_all
  have checked : state.checkIdentity header = .ok {state with identity := some (commitSeq,txUuid)} := by
    unfold ScanState.checkIdentity
    obtain none | same := known
    · simp only [none,sameSeq,sameUuid]
    · simp [same,sameSeq,sameUuid,rejectIf]
      rw [←same]
  have contents : state.scanContents target ⟨entry.start,bytes⟩ isLast =
      ScanState.acceptRecord target {state with identity := some (commitSeq,txUuid)} isLast entry.record := by
    rw [ScanState.scanContents,geometry,if_neg notPage,if_neg notFile,ScanState.scanRecord,
      rejectIf_false (by simp [idle]),ok_bind,geometry,reads.decoded,ok_bind,reads.header_decode,ok_bind,checked,ok_bind]
  generalize ScanState.acceptRecord target {state with identity := some (commitSeq,txUuid)} isLast entry.record =
    outcome at contents ⊢
  rw [ScanState.scanChunk,rejectIf_false (by simp [filled]),ok_bind,geometry,nextChunkPosition,follows,stepped,ok_bind,
    rejectIf_false (by simp),ok_bind,contents]
  cases outcome with
  | error error => rfl
  | ok scanned =>
    have checkedEnd : ScanState.checkRecordEnd target scanned.2 entry.next = .ok () := by
      unfold ScanState.checkRecordEnd
      rw [geometry,good]
      split <;> rfl
    rw [ok_bind,ends,ok_bind]
    exact (congrArg (fun x => x >>= _) checkedEnd).trans rfl

-- A transaction record is accepted the same wherever it stands and whether or not
-- a PAGE_END came before it.
theorem acceptRecord_moved (target : ScanTarget) (state : ScanState) {record : DecodedRecord} (isLast : Bool)
    (position place : VLogPosition) (padded : Bool) (transaction : record ≠ .pageEnd) :
    (({state with physicalEnd := position,previousTransactionRecordWasPageEnd := padded} :
        ScanState).acceptRecord target isLast record).map (fun scanned => {scanned.1 with physicalEnd := place}) =
      (state.acceptRecord target isLast record).map (fun scanned => {scanned.1 with physicalEnd := place}) := by
  cases record with
  | pageEnd => exact absurd rfl transaction
  | txBegin found => simp only [ScanState.acceptRecord,map_bind,pure_ok,ok_map]
  | kvRecord found => simp only [ScanState.acceptRecord,map_bind,pure_ok,ok_map]
  | deleteRecord found => simp only [ScanState.acceptRecord,map_bind,pure_ok,ok_map]
  | txPreparedEnd found => simp only [ScanState.acceptRecord,map_bind,pure_ok,ok_map]

theorem acceptRecord_pageEnd (target : ScanTarget) (state : ScanState) {isLast : Bool}
    (unfinished : state.footer = none) (fresh : state.previousTransactionRecordWasPageEnd = false) :
    state.acceptRecord target isLast .pageEnd =
      .ok ({state with previousTransactionRecordWasPageEnd := true},false) := by
  rw [ScanState.acceptRecord,rejectIf_false (by simp [unfinished,fresh]),ok_bind,pure_ok]

-- The state in which the scan can take another record of the transaction.
structure Scanning (target : ScanTarget) (state : ScanState) (databaseUuid : Uuid) (commitSeq : Nat) (txUuid : Uuid)
    (position : VLogPosition) : Prop where
  geometry : target.geometry = production
  identity : target.databaseUuid = databaseUuid
  follows : state.physicalEnd = position
  idle : state.expectingFileHeader = false
  unfinished : state.footer = none
  fresh : state.previousTransactionRecordWasPageEnd = false
  known : state.identity = none ∨ state.identity = some (commitSeq,txUuid)

theorem Segment.scan {position : VLogPosition} {chunks rest : List PhysicalChunk} {entry : Entry}
    (segment : Segment databaseUuid commitSeq txUuid position chunks entry)
    (ready : Scanning target state databaseUuid commitSeq txUuid position) (transaction : entry.record ≠ .pageEnd) :
    state.scanChunks target (chunks ++ rest) =
      (({state with identity := some (commitSeq,txUuid)} : ScanState).acceptRecord target rest.isEmpty entry.record).map
        (fun scanned => {scanned.1 with physicalEnd := entry.next}) >>= fun state => state.scanChunks target rest := by
  obtain ⟨geometry,identity,follows,idle,unfinished,fresh,known⟩ := ready
  cases segment with
  | direct headers recorded =>
    rw [List.append_assoc,headers.scan state geometry identity follows idle,List.cons_append,List.nil_append,
      ScanState.scanChunks,scanChunk_record {state with physicalEnd := entry.start} geometry recorded rfl idle known]
    have moved := acceptRecord_moved target {state with identity := some (commitSeq,txUuid)} rest.isEmpty
      entry.start entry.next state.previousTransactionRecordWasPageEnd transaction
    exact congrArg (fun x => x >>= _) moved
  | padded before isPad padding after recorded =>
    rename_i pad
    rw [List.append_assoc,before.scan state geometry identity follows idle,List.cons_append,ScanState.scanChunks,
      scanChunk_record {state with physicalEnd := pad.start} geometry padding rfl idle known,isPad]
    rw [acceptRecord_pageEnd target
        {state with physicalEnd := pad.start,identity := some (commitSeq,txUuid)} unfinished fresh,
      ok_map,ok_bind,List.append_assoc,after.scan {state with
        physicalEnd := pad.next,identity := some (commitSeq,txUuid),previousTransactionRecordWasPageEnd := true}
        geometry identity rfl idle,List.cons_append,List.nil_append,ScanState.scanChunks,
      scanChunk_record {state with
        physicalEnd := entry.start,identity := some (commitSeq,txUuid),previousTransactionRecordWasPageEnd := true}
        geometry recorded rfl idle (.inr rfl)]
    have moved := acceptRecord_moved target {state with identity := some (commitSeq,txUuid)} rest.isEmpty
      entry.start entry.next true transaction
    exact congrArg (fun x => x >>= _) moved

end ExpirKv
