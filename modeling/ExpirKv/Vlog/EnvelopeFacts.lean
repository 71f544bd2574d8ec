import ExpirKv.Vlog.Segments

namespace ExpirKv
open VLogGeometry

variable [Crc32c] {databaseUuid txUuid : Uuid} {commitSeq : Nat}

def operationRecord (commitSeq : Nat) (txUuid : Uuid) (opIndex : Nat) : LogicalOperation → DecodedRecord
  | .put key value => .kvRecord ⟨commitSeq,txUuid,opIndex,key,value⟩
  | .delete key => .deleteRecord ⟨commitSeq,txUuid,opIndex,key⟩

def operationRecords (commitSeq : Nat) (txUuid : Uuid) (opIndex : Nat) : List LogicalOperation → List DecodedRecord
  | [] => []
  | operation :: rest =>
    operationRecord commitSeq txUuid opIndex operation :: operationRecords commitSeq txUuid (opIndex + 1) rest

omit [Crc32c] in
theorem operationRecords_length (commitSeq : Nat) (txUuid : Uuid) (opIndex : Nat) (operations : List LogicalOperation) :
    (operationRecords commitSeq txUuid opIndex operations).length = operations.length := by
  induction operations generalizing opIndex with
  | nil => rfl
  | cons operation rest ih => simp [operationRecords,ih]

omit [Crc32c] in
theorem operationRecords_getElem? (commitSeq : Nat) (txUuid : Uuid) (opIndex : Nat) (operations : List LogicalOperation)
    (index : Nat) :
    (operationRecords commitSeq txUuid opIndex operations)[index]? =
      (operations[index]?).map (operationRecord commitSeq txUuid (opIndex + index)) := by
  induction operations generalizing opIndex index with
  | nil => rfl
  | cons operation rest ih =>
    cases index with
    | zero => rfl
    | succ index =>
      simp only [operationRecords,List.getElem?_cons_succ,ih]
      congr 2
      omega

omit [Crc32c] in
theorem distinctKeys_concat (operations : List LogicalOperation) (operation : LogicalOperation) :
    distinctKeys (operations ++ [operation]) = (distinctKeys operations).insert (operationKey operation) := by
  simp [distinctKeys]

omit [Crc32c] in
theorem distinctKeys_exact (operations : List LogicalOperation) :
    (distinctKeys operations).Nodup ∧ ∀ key, key ∈ distinctKeys operations ↔ key ∈ operations.map operationKey := by
  induction operations using List.reverseRecOn with
  | nil => exact ⟨List.nodup_nil,by simp [distinctKeys]⟩
  | append_singleton operations operation ih =>
    rw [distinctKeys_concat]
    refine ⟨ih.1.insert,?_⟩
    intro key
    simp only [List.mem_insert_iff,ih.2,List.map_append,List.map_singleton,List.mem_append,List.mem_singleton]
    tauto

-- The pointer that reads a placed record back, for the records that have a value.
def Entry.pointer (entry : Entry) : Option ValuePointer :=
  match entry.record with
  | .kvRecord record => some ⟨0,entry.start.fileId,entry.start.offset,entry.len,record.value.length⟩
  | _ => none

inductive PlannedRun : VLogPosition → List Nat → List RecordPlacement → VLogPosition → Prop
  | nil {position : VLogPosition} : PlannedRun position [] [] position
  | cons {position next stop : VLogPosition} {len : Nat} {placement : RecordPlacement} {lens : List Nat}
      {placements : List RecordPlacement} : Planned position len placement next →
      PlannedRun next lens placements stop → PlannedRun position (len :: lens) (placement :: placements) stop

omit [Crc32c] in
theorem planRecords_run {position : VLogPosition} {lens : List Nat} {placements : List RecordPlacement}
    {next : LayoutPlanner} (planned : planRecords ⟨production,position⟩ lens = .ok (placements,next)) :
    PlannedRun position lens placements next.position ∧ next.geometry = production := by
  induction lens generalizing position placements with
  | nil =>
    simp only [planRecords,Except.ok.injEq,Prod.mk.injEq] at planned
    obtain ⟨rfl,rfl⟩ := planned
    exact ⟨.nil,rfl⟩
  | cons len lens ih =>
    simp only [planRecords,bind_ok,pure_ok,Except.ok.injEq,Prod.mk.injEq] at planned
    obtain ⟨⟨placement,⟨geometry,middle⟩⟩,first,⟨later,last⟩,rest,rfl,rfl⟩ := planned
    obtain ⟨one,rfl⟩ := planRecord_planned first
    obtain ⟨run,same⟩ := ih rest
    exact ⟨.cons one run,same⟩

omit [Crc32c] in
theorem recordLength_ok {operation : LogicalOperation} {len : Nat} (measured : recordLength operation = .ok len) :
    len = match operation with
      | .put key value => 55 + (key.length + value.length)
      | .delete key => 53 + key.length := by
  cases operation with
  | put key value =>
    simp only [recordLength,operationKey,bind_ok,exists_unit,rejectIf_ok,pure_ok,Except.ok.injEq] at measured
    exact measured.2.2.2.symm
  | delete key =>
    simp only [recordLength,operationKey,bind_ok,exists_unit,pure_ok,Except.ok.injEq] at measured
    exact measured.2.symm

-- One operation: its record reads back, and its pointer is the one of the entry.
theorem encodeOperation_reads {opIndex len : Nat} {operation : LogicalOperation} {placement : RecordPlacement}
    {position next : VLogPosition} {bytes : Bytes} {pointer : Option ValuePointer}
    (seq : commitSeq < 18446744073709551616) (index : opIndex < 18446744073709551616)
    (measured : recordLength operation = .ok len) (planned : Planned position len placement next)
    (encoded : encodeOperation commitSeq txUuid opIndex placement operation = .ok (bytes,pointer)) :
    (∃ header, ReadsAs bytes placement.recordStart header (operationRecord commitSeq txUuid opIndex operation) ∧
      header.commitSeq = commitSeq ∧ header.txUuid = txUuid) ∧
    pointer = (⟨operationRecord commitSeq txUuid opIndex operation,placement.recordStart,len⟩ : Entry).pointer := by
  have width := recordLength_ok measured
  have inside := planned.inside
  cases operation with
  | put key value =>
    simp only [encodeOperation,bind_ok,exists_unit,rejectIf_ok,pure_ok,Except.ok.injEq,Prod.mk.injEq] at encoded
    obtain ⟨_,written,-,-,rfl,rfl⟩ := encoded
    simp only at width
    subst width
    refine ⟨⟨_,encodeKvRecord_reads written seq index planned.opened.area inside,rfl,rfl⟩,?_⟩
    simp [Entry.pointer,operationRecord,planned.sized]
  | delete key =>
    simp only [encodeOperation,bind_ok,pure_ok,Except.ok.injEq,Prod.mk.injEq] at encoded
    obtain ⟨_,written,rfl,rfl⟩ := encoded
    simp only at width
    subst width
    exact ⟨⟨_,encodeDeleteRecord_reads written seq index planned.opened.area inside,rfl,rfl⟩,rfl⟩

theorem appendOperations_segments {operations : List LogicalOperation} {opIndex : Nat} {position stop : VLogPosition}
    {lens rest : List Nat} {placements : List RecordPlacement} {chunks : List PhysicalChunk}
    {pointers : List (Option ValuePointer)} (seq : commitSeq < 18446744073709551616)
    (index : opIndex + operations.length < 18446744073709551616) (measured : operations.mapM recordLength = .ok lens)
    (run : PlannedRun position (lens ++ rest) placements stop)
    (appended : appendOperations databaseUuid commitSeq txUuid production opIndex operations placements =
      .ok (chunks,pointers)) :
    ∃ entries middle taken later, Segments databaseUuid commitSeq txUuid position chunks entries middle ∧
      PlannedRun middle rest later stop ∧ placements = taken ++ later ∧
      entries.map Entry.record = operationRecords commitSeq txUuid opIndex operations ∧
      entries.map Entry.pointer = pointers := by
  induction operations generalizing opIndex position lens placements chunks pointers with
  | nil =>
    obtain rfl := mapM_ok_nil measured
    simp only [appendOperations,Except.ok.injEq,Prod.mk.injEq] at appended
    obtain ⟨rfl,rfl⟩ := appended
    exact ⟨[],position,[],placements,.nil,run,rfl,rfl,rfl⟩
  | cons operation operations ih =>
    obtain ⟨len,lens,one,others,rfl⟩ := mapM_ok_cons measured
    rw [List.cons_append] at run
    cases run with
    | cons planned remaining =>
      rename_i next placement placements
      simp only [List.length_cons] at index
      simp only [appendOperations,bind_ok,pure_ok,Except.ok.injEq,Prod.mk.injEq] at appended
      obtain ⟨⟨bytes,pointer⟩,encoded,first,written,⟨later,more⟩,appendedLater,rfl,rfl⟩ := appended
      obtain ⟨⟨header,reads,sameSeq,sameUuid⟩,rfl⟩ := encodeOperation_reads seq (by omega) one planned encoded
      obtain ⟨segment,rfl⟩ := appendPlacement_segment seq planned written reads sameSeq sameUuid
      obtain ⟨entries,middle,taken,left,segments,last,rfl,records,pointed⟩ :=
        ih (by omega) others remaining appendedLater
      refine ⟨_ :: entries,middle,placement :: taken,left,.cons segment segments,last,rfl,?_,?_⟩
      · simp [operationRecords,records]
      · simp [pointed]

-- What a prepared envelope is: begin record, one record for each operation, footer, laid
-- out from the planner's position to its new one.
structure EnvelopeLaid (databaseUuid : Uuid) (position : VLogPosition) (commitSeq : Nat) (txUuid : Uuid)
    (operations : List LogicalOperation) (envelope : PreparedEnvelope) : Prop where
  commitSeq_eq : envelope.commitSeq = commitSeq
  txUuid_eq : envelope.txUuid = txUuid
  vlogBegin_eq : envelope.vlogBegin = position
  identity : commitSeq ≠ 0 ∧ txUuid.isZero = false ∧ databaseUuid.isZero = false
  nonempty : operations ≠ []
  measured : ∃ lens, operations.mapM recordLength = .ok lens
  counted : operations.length < 18446744073709551616
  placeable : Placeable envelope.vlogEnd
  laid : ∃ beginEntry entries footerEntry,
    Segments databaseUuid commitSeq txUuid position envelope.chunks (beginEntry :: entries ++ [footerEntry])
      envelope.vlogEnd ∧
    beginEntry.record = .txBegin ⟨commitSeq,txUuid,position,operations.length,(distinctKeys operations).length⟩ ∧
    footerEntry.record = .txPreparedEnd ⟨commitSeq,txUuid,position,envelope.vlogEnd,operations.length,
      (distinctKeys operations).length,operations.countP LogicalOperation.isPut,
      operations.countP (fun operation => !operation.isPut),envelope.envelopeCrc32c⟩ ∧
    entries.map Entry.record = operationRecords commitSeq txUuid 0 operations ∧
    entries.map Entry.pointer = envelope.valuePointers
  checksum : ∃ begun ended,
    EnvelopeCrc32c.new.updateTxBegin ⟨commitSeq,txUuid,position,operations.length,(distinctKeys operations).length⟩ =
      .ok begun ∧
    updateOperations begun commitSeq txUuid 0 operations = .ok ended ∧
    ended.finishWithFooter ⟨commitSeq,txUuid,position,envelope.vlogEnd,operations.length,
      (distinctKeys operations).length,operations.countP LogicalOperation.isPut,
      operations.countP (fun operation => !operation.isPut),envelope.envelopeCrc32c⟩ = .ok envelope.envelopeCrc32c

-- The entry behind the operation of an index: its chunk, its record and the pointer to it.
theorem EnvelopeLaid.entry {databaseUuid txUuid : Uuid} {position : VLogPosition} {commitSeq : Nat}
    {operations : List LogicalOperation} {envelope : PreparedEnvelope}
    (laid : EnvelopeLaid databaseUuid position commitSeq txUuid operations envelope) {index : Nat}
    {operation : LogicalOperation} (found : operations[index]? = some operation) :
    ∃ entry bytes, ⟨entry.start,bytes⟩ ∈ envelope.chunks ∧ Recorded commitSeq txUuid bytes entry ∧
      entry.record = operationRecord commitSeq txUuid index operation ∧
      envelope.valuePointers[index]? = some entry.pointer := by
  obtain ⟨_,entries,_,segments,-,-,records,pointers⟩ := laid.laid
  have here : (entries.map Entry.record)[index]? = some (operationRecord commitSeq txUuid index operation) := by
    rw [records,operationRecords_getElem?,found,Nat.zero_add]
    rfl
  rw [List.getElem?_map,Option.map_eq_some_iff] at here
  obtain ⟨entry,there,isRecord⟩ := here
  obtain ⟨bytes,stands,recorded⟩ := @Segments.chunk _ _ _ _ _ _ _ _ segments entry
    (by simp [List.mem_of_getElem? there])
  refine ⟨entry,bytes,stands,recorded,isRecord,?_⟩
  rw [←pointers,List.getElem?_map,there]
  rfl

theorem EnvelopeCrc32c.finishWithFooter_lt {crc : EnvelopeCrc32c} {footer : TxPreparedEnd} {checksum : Nat}
    (finished : crc.finishWithFooter footer = .ok checksum) : checksum < 4294967296 := by
  simp only [finishWithFooter,bind_ok,exists_unit,pure_ok,Except.ok.injEq] at finished
  rw [←finished.2]
  exact crc32cAppend_lt _ _

theorem prepareEnvelope_laid {position : VLogPosition} {operations : List LogicalOperation}
    {envelope : PreparedEnvelope} {next : LayoutPlanner} (seq : commitSeq < 18446744073709551616)
    (prepared : prepareEnvelope ⟨production,position⟩ databaseUuid commitSeq txUuid operations = .ok (envelope,next)) :
    EnvelopeLaid databaseUuid position commitSeq txUuid operations envelope ∧
      next = ⟨production,envelope.vlogEnd⟩ := by
  simp only [prepareEnvelope,bind_ok,exists_unit,mapError_ok,rejectIf_ok,orError_ok,pure_ok,Except.ok.injEq,
    Prod.mk.injEq,validateIdentity_ok] at prepared
  obtain ⟨⟨nonzero,uuid⟩,filled,counted,lens,measured,⟨placements,⟨geometry,stop⟩⟩,planned,begun,beginCrc,ended,
    operationsCrc,checksum,finished,beginBytes,beginWritten,beginPlacement,beginHead,beginChunks,beginAppended,
    ⟨chunks,pointers⟩,appended,footerPlacement,footerLast,footerBytes,footerWritten,footerChunks,footerAppended,
    rfl,rfl⟩ := prepared
  obtain ⟨run,rfl⟩ := planRecords_run planned
  simp only [List.cons_append] at run
  cases run with
  | cons beginPlanned operationsRun =>
    rename_i afterBegin beginPlaced placements
    simp only [List.head?_cons,Option.some.injEq] at beginHead
    subst beginHead
    have count : operations.length < 18446744073709551616 := by omega
    have beginReads := encodeTxBegin_reads beginWritten seq count beginPlanned.opened.area beginPlanned.inside
    obtain ⟨beginSegment,rfl⟩ := appendPlacement_segment seq beginPlanned beginAppended beginReads rfl rfl
    obtain ⟨entries,middle,taken,later,segments,footerRun,rfl,records,pointed⟩ :=
      appendOperations_segments seq (by omega) measured operationsRun appended
    cases footerRun with
    | cons footerPlanned noMore =>
      rename_i placement _
      cases noMore with
      | nil =>
        have last : placement = footerPlacement := by
          rw [←List.cons_append,List.getLast?_concat] at footerLast
          exact Option.some.inj footerLast
        subst last
        have footerReads := encodeTxPreparedEnd_reads footerWritten seq count
          (EnvelopeCrc32c.finishWithFooter_lt finished) footerPlanned.opened.area footerPlanned.inside
          footerPlanned.ends
        obtain ⟨footerSegment,ends⟩ :=
          appendPlacement_segment seq footerPlanned footerAppended footerReads rfl rfl
        refine ⟨⟨rfl,rfl,rfl,⟨nonzero,uuid,?_⟩,?_,⟨lens,measured⟩,count,footerPlanned.placeable,
          ⟨⟨_,beginPlaced.recordStart,71⟩,entries,⟨_,placement.recordStart,111⟩,?_,rfl,rfl,records,pointed⟩,⟨begun,ended,beginCrc,operationsCrc,finished⟩⟩,rfl⟩
        · simpa using fun zero => filled (.inl zero)
        · simpa using fun empty => filled (.inr empty)
        · rw [List.append_assoc]
          exact .cons beginSegment (segments.append (footerSegment.single ends.symm))

end ExpirKv
