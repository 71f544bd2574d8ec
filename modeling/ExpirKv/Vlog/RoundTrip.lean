import ExpirKv.Library.LastWrite
import ExpirKv.Vlog.ReaderFacts

namespace ExpirKv
open VLogGeometry

variable [Crc32c] {databaseUuid txUuid : Uuid} {commitSeq : Nat}

-- The scan takes one operation record: it must continue the count and the checksum.
theorem acceptRecord_operation {target : ScanTarget} {state : ScanState} {operation : LogicalOperation}
    {crc : EnvelopeCrc32c} {isLast : Bool} (begun : state.begin.isSome) (unfinished : state.footer = none)
    (updated : updateOperation state.envelopeCrc commitSeq txUuid state.logicalOpCount operation = .ok crc) :
    state.acceptRecord target isLast (operationRecord commitSeq txUuid state.logicalOpCount operation) =
      .ok ({state with
        envelopeCrc := crc
        distinctKeys := state.distinctKeys.insert (operationKey operation)
        logicalOpCount := state.logicalOpCount + 1
        kvRecordCount := state.kvRecordCount + [operation].countP LogicalOperation.isPut
        deleteRecordCount := state.deleteRecordCount + [operation].countP (fun operation => !operation.isPut)
        previousTransactionRecordWasPageEnd := false},true) := by
  have refused : ¬(state.begin.isNone ∨ state.footer.isSome ∨ state.logicalOpCount ≠ state.logicalOpCount) := by
    simp [unfinished,Option.isSome_iff_ne_none.mp begun]
  cases operation with
  | put key value =>
    rw [operationRecord,ScanState.acceptRecord,rejectIf_false refused,ok_bind]
    rw [updateOperation] at updated
    rw [updated,ok_bind]
    simp [operationKey,LogicalOperation.isPut]
  | delete key =>
    rw [operationRecord,ScanState.acceptRecord,rejectIf_false refused,ok_bind]
    rw [updateOperation] at updated
    rw [updated,ok_bind]
    simp [operationKey,LogicalOperation.isPut]

omit [Crc32c] in
theorem operationRecord_ne_pageEnd (opIndex : Nat) (operation : LogicalOperation) :
    operationRecord commitSeq txUuid opIndex operation ≠ .pageEnd := by
  cases operation <;> simp [operationRecord]

theorem Segments.scanOperations {target : ScanTarget} {state : ScanState} {operations : List LogicalOperation}
    {position stop : VLogPosition} {chunks rest : List PhysicalChunk} {entries : List Entry} {ended : EnvelopeCrc32c}
    (segments : Segments databaseUuid commitSeq txUuid position chunks entries stop)
    (records : entries.map Entry.record = operationRecords commitSeq txUuid state.logicalOpCount operations)
    (ready : Scanning target state databaseUuid commitSeq txUuid position)
    (known : state.identity = some (commitSeq,txUuid)) (begun : state.begin.isSome)
    (updated : updateOperations state.envelopeCrc commitSeq txUuid state.logicalOpCount operations = .ok ended) :
    state.scanChunks target (chunks ++ rest) =
      ({state with
        physicalEnd := stop
        envelopeCrc := ended
        distinctKeys := operations.foldl (fun keys operation => keys.insert (operationKey operation)) state.distinctKeys
        logicalOpCount := state.logicalOpCount + operations.length
        kvRecordCount := state.kvRecordCount + operations.countP LogicalOperation.isPut
        deleteRecordCount := state.deleteRecordCount + operations.countP (fun operation => !operation.isPut)} :
        ScanState).scanChunks target rest := by
  induction operations generalizing state position chunks entries with
  | nil =>
    cases segments with
    | nil =>
      simp only [updateOperations,Except.ok.injEq] at updated
      simp [←updated,←ready.follows]
    | cons _ _ => simp [operationRecords] at records
  | cons operation operations ih =>
    cases segments with
    | nil => simp [operationRecords] at records
    | cons segment later =>
      rename_i first more entry entries
      simp only [List.map_cons,operationRecords,List.cons.injEq] at records
      obtain ⟨isOperation,others⟩ := records
      simp only [updateOperations,bind_ok] at updated
      obtain ⟨crc,one,remaining⟩ := updated
      have transaction : entry.record ≠ .pageEnd := isOperation ▸ operationRecord_ne_pageEnd _ _
      have same : ({state with identity := some (commitSeq,txUuid)} : ScanState) = state := by rw [←known]
      rw [List.append_assoc,segment.scan ready transaction,same,isOperation,
        acceptRecord_operation begun ready.unfinished one,ok_map,ok_bind]
      have next : Scanning target {state with
          physicalEnd := entry.next
          envelopeCrc := crc
          distinctKeys := state.distinctKeys.insert (operationKey operation)
          logicalOpCount := state.logicalOpCount + 1
          kvRecordCount := state.kvRecordCount + [operation].countP LogicalOperation.isPut
          deleteRecordCount := state.deleteRecordCount + [operation].countP (fun operation => !operation.isPut)
          previousTransactionRecordWasPageEnd := false} databaseUuid commitSeq txUuid entry.next :=
        ⟨ready.geometry,ready.identity,rfl,ready.idle,ready.unfinished,rfl,ready.known⟩
      rw [ih later others next known begun remaining]
      simp only [List.foldl_cons,List.length_cons,List.countP_cons,List.countP_nil,Nat.zero_add,ready.fresh]
      congr 2 <;> omega

def EnvelopeLaid.scanned (position : VLogPosition) (commitSeq : Nat) (txUuid : Uuid)
    (operations : List LogicalOperation) (envelope : PreparedEnvelope) : ScannedEnvelope :=
  ⟨commitSeq,txUuid,position,envelope.vlogEnd,operations.length,(distinctKeys operations).length,
    operations.countP LogicalOperation.isPut,operations.countP (fun operation => !operation.isPut),
    envelope.envelopeCrc32c⟩

theorem EnvelopeLaid.nonempty_chunks {position : VLogPosition} {operations : List LogicalOperation}
    {envelope : PreparedEnvelope} (laid : EnvelopeLaid databaseUuid position commitSeq txUuid operations envelope) :
    envelope.chunks ≠ [] := by
  obtain ⟨beginEntry,entries,footerEntry,segments,-,-,-,-⟩ := laid.laid
  intro empty
  rw [empty] at segments
  generalize none : ([] : List PhysicalChunk) = chunks at segments
  cases segments with
  | cons segment _ =>
    have nothing := (List.append_eq_nil_iff.mp none.symm).1
    cases segment <;> simp at nothing

-- The scan of the whole envelope, in the order of its segments: begin, operations, footer.
theorem EnvelopeLaid.scanChunks {position : VLogPosition} {operations : List LogicalOperation}
    {envelope : PreparedEnvelope} {expected : Option Nat}
    (laid : EnvelopeLaid databaseUuid position commitSeq txUuid operations envelope)
    (agreed : ∀ checksum ∈ expected, checksum = envelope.envelopeCrc32c) :
    ∃ ended : EnvelopeCrc32c,
      (ScanTarget.initial ⟨production,databaseUuid,position,envelope.vlogEnd,expected⟩).scanChunks
        ⟨production,databaseUuid,position,envelope.vlogEnd,expected⟩ envelope.chunks =
        .ok ⟨envelope.vlogEnd,some (commitSeq,txUuid),
          some ⟨commitSeq,txUuid,position,operations.length,(distinctKeys operations).length⟩,
          some ⟨commitSeq,txUuid,position,envelope.vlogEnd,operations.length,(distinctKeys operations).length,
            operations.countP LogicalOperation.isPut,operations.countP (fun operation => !operation.isPut),
            envelope.envelopeCrc32c⟩,
          ended,operations.length,operations.countP LogicalOperation.isPut,
          operations.countP (fun operation => !operation.isPut),distinctKeys operations,false,false⟩ := by
  obtain ⟨beginEntry,entries,footerEntry,segments,isBegin,isFooter,records,-⟩ := laid.laid
  obtain ⟨begun,ended,beginCrc,operationsCrc,footerCrc⟩ := laid.checksum
  refine ⟨ended,?_⟩
  generalize targetEq : (⟨production,databaseUuid,position,envelope.vlogEnd,expected⟩ : ScanTarget) = target
  have geometry : target.geometry = production := by rw [←targetEq]
  have identity : target.databaseUuid = databaseUuid := by rw [←targetEq]
  have starts : target.vlogBegin = position := by rw [←targetEq]
  have stops : target.vlogEnd = envelope.vlogEnd := by rw [←targetEq]
  have expects : target.expectedEnvelopeCrc32c = expected := by rw [←targetEq]
  generalize envelope.chunks = chunks at segments ⊢
  rw [List.cons_append] at segments
  cases segments with
  | cons beginSegment rest =>
    obtain ⟨operationChunks,footerChunks,middle,rfl,operationSegments,footerSegments⟩ := rest.split
    have ready : Scanning target target.initial databaseUuid commitSeq txUuid position :=
      ⟨geometry,identity,starts,rfl,rfl,rfl,.inl rfl⟩
    rw [beginSegment.scan ready (by simp [isBegin]),isBegin,ScanState.acceptRecord,
      rejectIf_false (by simp [ScanTarget.initial]),ok_bind,rejectIf_false (by simp [starts]),ok_bind]
    simp only [ScanTarget.initial,beginCrc,ok_bind,pure_ok,ok_map]
    rw [operationSegments.scanOperations records ⟨geometry,identity,rfl,rfl,rfl,rfl,.inr rfl⟩ rfl rfl operationsCrc]
    cases footerSegments with
    | cons footerSegment none =>
      obtain ⟨rfl,ends⟩ := none.nil_inv
      rw [footerSegment.scan ⟨geometry,identity,rfl,rfl,rfl,rfl,.inr rfl⟩ (by simp [isFooter]),isFooter,
        ScanState.acceptRecord,ends]
      simp only [orError,ok_bind,Nat.zero_add]
      rw [rejectIf_false (by simp [stops,distinctKeys]),ok_bind,footerCrc,ok_bind,
        rejectIf_false (by simpa [expects] using agreed),ok_bind]
      rfl

theorem EnvelopeLaid.scan {position : VLogPosition} {operations : List LogicalOperation} {envelope : PreparedEnvelope}
    {expected : Option Nat} (laid : EnvelopeLaid databaseUuid position commitSeq txUuid operations envelope)
    (agreed : ∀ checksum ∈ expected, checksum = envelope.envelopeCrc32c) :
    scanPreparedEnvelope envelope.chunks production databaseUuid position envelope.vlogEnd expected =
      .ok (EnvelopeLaid.scanned position commitSeq txUuid operations envelope) := by
  obtain ⟨beginEntry,entries,footerEntry,segments,-,-,-,-⟩ := laid.laid
  have chain := segments.chain
  obtain ⟨first,others,split⟩ := List.exists_cons_of_ne_nil laid.nonempty_chunks
  rw [split] at chain
  have ordered : ¬envelope.vlogEnd ≤ position := VLogPosition.not_le.mpr chain.lt.2
  have follows : nextChunkPosition position production = .ok first.position := by
    cases chain with
    | cons follows _ _ => exact follows _
  have checks : ¬(envelope.chunks.isEmpty = true ∨ databaseUuid.isZero = true ∨ envelope.vlogEnd ≤ position ∨
      envelope.chunks.head?.map PhysicalChunk.position ≠ some first.position) := by
    simp [split,ordered,laid.identity.2.2]
  obtain ⟨ended,scanned⟩ := laid.scanChunks agreed
  rw [scanPreparedEnvelope,production_validateForDecode,ok_bind,follows,ok_bind,rejectIf_false checks,ok_bind]
  simp only [scanned,ok_bind,ne_eq,not_true_eq_false,not_false_eq_true,rejectIf_false,orError,pure_ok]
  rfl

theorem decodeRecordAt_kv {encoded : Bytes} {start : VLogPosition} {record : KvRecord}
    (decoded : decodeRecordAt encoded start production = .ok (.kvRecord record)) :
    InRecordArea start ∧ start.offset + encoded.length ≤ (start.offset / 65536 + 1) * 65536 ∧
      0 < record.key.length ∧ record.key.length + record.value.length ≤ 60000 ∧
      encoded.length = 55 + (record.key.length + record.value.length) := by
  simp only [decodeRecordAt,production_validateForDecode,ok_bind,bind_ok,exists_unit,rejectIf_ok,
    validateRecordBounds_production] at decoded
  obtain ⟨⟨area,inside⟩,header,-,-,body⟩ := decoded
  unfold decodeRecordBody at body
  cases recordType : header.recordType with
  | kvRecord =>
    simp only [recordType,map_ok,decodeKvRecord,bind_ok,exists_unit,rejectIf_ok,orError_ok,pure_ok,Except.ok.injEq,
      DecodedRecord.kvRecord.injEq,maxKeyValueSize] at body
    obtain ⟨_,⟨-,keyLen,-,valueLen,-,payload,whole,-,key,keyTaken,value,valueTaken,opIndex,-,rfl⟩,rfl⟩ := body
    have keyWidth := slice?_length keyTaken
    have valueWidth := slice?_length valueTaken
    refine ⟨area,inside,?_,?_,?_⟩ <;> simp only <;> omega
  | txBegin => simp [recordType] at body
  | deleteRecord => simp [recordType] at body
  | txPreparedEnd => simp [recordType] at body
  | pageEnd => simp [recordType] at body

-- What the reader makes of one record.
def Entry.collect (states : List EnvelopeFinalState) (entry : Entry) : List EnvelopeFinalState :=
  match entry.record with
  | .kvRecord record => setFinalState states record.key entry.pointer
  | .deleteRecord record => setFinalState states record.key none
  | _ => states

theorem Recorded.collect {bytes : Bytes} {entry : Entry} (recorded : Recorded commitSeq txUuid bytes entry)
    (states : List EnvelopeFinalState) :
    collectFinalState production states ⟨entry.start,bytes⟩ = .ok (entry.collect states) := by
  obtain ⟨header,reads,-,-⟩ := recorded.reads
  obtain ⟨notPage,notFile,-⟩ := recorded.area.notHeader
  have skipped : ¬(entry.start.offset % 65536 = 0 ∨ (entry.start.offset < 65536 ∧ entry.start.offset = 16)) :=
    fun either => either.elim notPage notFile
  have decoded := reads.decoded
  have inside := recorded.area.2.1
  rw [collectFinalState,if_neg skipped,decoded]
  simp only [Except.mapError,ok_bind]
  unfold Entry.collect Entry.pointer
  cases isRecord : entry.record with
  | kvRecord record =>
    rw [isRecord] at decoded
    have lengths := decodeRecordAt_kv decoded
    simp only [recorded.sized] at lengths ⊢
    rw [rejectIf_false (by omega),ok_bind,pure_ok]
  | deleteRecord record => rfl
  | txBegin begin => rfl
  | txPreparedEnd footer => rfl
  | pageEnd => rfl

theorem collectFinalState_header {chunk : PhysicalChunk} (states : List EnvelopeFinalState)
    (header : chunk.position.offset % 65536 = 0 ∨ chunk.position.offset = 16) :
    collectFinalState production states chunk = .ok states := by
  rw [collectFinalState,if_pos]
  simp only [vlogPageSize,pageHeaderEncodedLen]
  omega

theorem Headers.collect {position start : VLogPosition} {headers : List PhysicalChunk}
    (laid : Headers databaseUuid position headers start) (states : List EnvelopeFinalState) :
    headers.foldlM (collectFinalState production) states = .ok states := by
  cases laid with
  | inside area => rfl
  | page bound low inside aligned decoded width =>
    rw [List.foldlM_cons,collectFinalState_header states (.inl aligned),ok_bind]
    rfl
  | file stepped bound pageDecoded pageWidth fileDecoded fileWidth =>
    rw [List.foldlM_cons,collectFinalState_header states (.inl (by simp)),ok_bind,
      List.foldlM_cons,collectFinalState_header states (.inr rfl),ok_bind]
    rfl

theorem Segment.collect {position : VLogPosition} {chunks : List PhysicalChunk} {entry : Entry}
    (segment : Segment databaseUuid commitSeq txUuid position chunks entry) (states : List EnvelopeFinalState) :
    chunks.foldlM (collectFinalState production) states = .ok (entry.collect states) := by
  cases segment with
  | direct headers recorded =>
    rw [List.foldlM_append,headers.collect,ok_bind,List.foldlM_cons,recorded.collect,ok_bind]
    rfl
  | padded before isPad padding after recorded =>
    rename_i pad
    have unchanged : pad.collect states = states := by simp [Entry.collect,isPad]
    rw [List.foldlM_append,before.collect,ok_bind,List.foldlM_cons,padding.collect,ok_bind,unchanged,
      List.foldlM_append,after.collect,ok_bind,List.foldlM_cons,recorded.collect,ok_bind]
    rfl

theorem Segments.collect {position stop : VLogPosition} {chunks : List PhysicalChunk} {entries : List Entry}
    (segments : Segments databaseUuid commitSeq txUuid position chunks entries stop)
    (states : List EnvelopeFinalState) :
    chunks.foldlM (collectFinalState production) states = .ok (entries.foldl Entry.collect states) := by
  induction segments generalizing states with
  | nil => rfl
  | cons segment _ ih => rw [List.foldlM_append,segment.collect,ok_bind,ih,List.foldl_cons]

-- The states of an envelope: for each key, in the order of first occurrence, its last operation.
def envelopeWrites (operations : List LogicalOperation) (pointers : List (Option ValuePointer)) :
    List (Bytes × Option ValuePointer) := (operations.map operationKey).zip pointers

def envelopeFinalStates (operations : List LogicalOperation) (pointers : List (Option ValuePointer)) :
    List EnvelopeFinalState :=
  (lastWrites (envelopeWrites operations pointers)).map (fun write => ⟨write.1,write.2⟩)

omit [Crc32c] in
theorem setFinalState_setLast (writes : List (Bytes × Option ValuePointer)) (key : Bytes)
    (pointer : Option ValuePointer) :
    setFinalState (writes.map (fun write => ⟨write.1,write.2⟩)) key pointer =
      (setLast writes key pointer).map (fun write => ⟨write.1,write.2⟩) := by
  induction writes with
  | nil => rfl
  | cons first rest ih =>
    simp only [List.map_cons,setFinalState,setLast]
    split
    · rfl
    · rw [ih,List.map_cons]

omit [Crc32c] in
theorem foldl_setFinalState (writes done : List (Bytes × Option ValuePointer)) :
    writes.foldl (fun states write => setFinalState states write.1 write.2)
        ((lastWrites done).map (fun write => ⟨write.1,write.2⟩)) =
      (lastWrites (done ++ writes)).map (fun write => ⟨write.1,write.2⟩) := by
  induction writes generalizing done with
  | nil => simp
  | cons write writes ih =>
    rw [List.foldl_cons,setFinalState_setLast,←lastWrites_concat,ih,List.append_assoc]
    rfl

omit [Crc32c] in
theorem collect_operations {entries : List Entry} {operations : List LogicalOperation} {opIndex : Nat}
    (records : entries.map Entry.record = operationRecords commitSeq txUuid opIndex operations)
    (states : List EnvelopeFinalState) :
    entries.foldl Entry.collect states =
      (envelopeWrites operations (entries.map Entry.pointer)).foldl
        (fun states write => setFinalState states write.1 write.2) states := by
  induction operations generalizing entries opIndex states with
  | nil =>
    simp only [operationRecords,List.map_eq_nil_iff] at records
    subst records
    rfl
  | cons operation operations ih =>
    cases entries with
    | nil => simp [operationRecords] at records
    | cons entry entries =>
      simp only [List.map_cons,operationRecords,List.cons.injEq] at records
      have one : entry.collect states = setFinalState states (operationKey operation) entry.pointer := by
        unfold Entry.collect Entry.pointer
        rw [records.1]
        cases operation <;> rfl
      rw [List.foldl_cons,one,ih records.2]
      rfl

theorem EnvelopeLaid.collect {position : VLogPosition} {operations : List LogicalOperation}
    {envelope : PreparedEnvelope} (laid : EnvelopeLaid databaseUuid position commitSeq txUuid operations envelope) :
    collectFinalStates envelope.chunks production = .ok (envelopeFinalStates operations envelope.valuePointers) := by
  obtain ⟨beginEntry,entries,footerEntry,segments,isBegin,isFooter,records,pointers⟩ := laid.laid
  have begins : beginEntry.collect [] = [] := by simp [Entry.collect,isBegin]
  have ends : ∀ states, footerEntry.collect states = states := fun states => by simp [Entry.collect,isFooter]
  rw [collectFinalStates,segments.collect,List.cons_append,List.foldl_cons,begins,List.foldl_append,
    collect_operations records,pointers]
  congr 1
  simp only [List.foldl_cons,List.foldl_nil,ends]
  exact foldl_setFinalState (envelopeWrites operations envelope.valuePointers) []

-- An envelope that stands in the files is read back as it was prepared.
theorem EnvelopeLaid.readChunks {files : FileSet} {position : VLogPosition} {operations : List LogicalOperation}
    {envelope : PreparedEnvelope} (laid : EnvelopeLaid databaseUuid position commitSeq txUuid operations envelope)
    (geometry : files.geometry = production) (begins : position.fileId ≤ 999999 ∧ position.offset ≤ 4294967296)
    (held : ∀ chunk ∈ envelope.chunks, Holds files chunk) :
    readRecoveryChunks files position envelope.vlogEnd = .ok envelope.chunks := by
  obtain ⟨_,_,_,segments,-,-,-,-⟩ := laid.laid
  have ends := laid.placeable.good
  exact segments.chain.read laid.nonempty_chunks geometry begins ⟨ends.1,ends.2.1⟩ held

theorem EnvelopeLaid.read {files : FileSet} {position : VLogPosition} {operations : List LogicalOperation}
    {envelope : PreparedEnvelope} {expected : Option Nat}
    (laid : EnvelopeLaid databaseUuid position commitSeq txUuid operations envelope)
    (geometry : files.geometry = production) (identity : files.databaseUuid = databaseUuid)
    (begins : position.fileId ≤ 999999 ∧ position.offset ≤ 4294967296)
    (agreed : ∀ checksum ∈ expected, checksum = envelope.envelopeCrc32c)
    (held : ∀ chunk ∈ envelope.chunks, Holds files chunk) :
    readRecoveryEnvelope files position envelope.vlogEnd expected =
      .ok ⟨EnvelopeLaid.scanned position commitSeq txUuid operations envelope,
        envelopeFinalStates operations envelope.valuePointers⟩ := by
  rw [readRecoveryEnvelope,laid.readChunks geometry begins held,ok_bind,geometry,identity,laid.scan agreed]
  simp only [Except.mapError,ok_bind,laid.collect,pure_ok]

end ExpirKv
