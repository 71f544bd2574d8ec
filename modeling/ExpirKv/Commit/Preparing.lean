import ExpirKv.Commit.Batch
import ExpirKv.Vlog.EnvelopeFacts
import ExpirKv.Vlog.FormatExact
import ExpirKv.Vlog.PlannerExact

namespace ExpirKv
open VLogGeometry

section lengths

-- What the first pass measures for an operation.
def LogicalOperation.recordLen : LogicalOperation → Nat
  | .put key value => 55 + (key.length + value.length)
  | .delete key => 53 + key.length

theorem LogicalOperation.Valid.measured {operation : LogicalOperation} (valid : operation.Valid) :
    recordLength operation = .ok operation.recordLen ∧ EnvelopeRecordLen operation.recordLen := by
  cases operation with
  | put key value =>
    obtain ⟨named,payload⟩ := valid
    have positive := List.length_pos_iff.mpr named
    simp only [recordLength,operationKey,bind_ok,exists_unit,rejectIf_ok,pure_ok,List.isEmpty_iff,named,
      false_or,LogicalOperation.recordLen,EnvelopeRecordLen,maxKeyValueSize,kvRecordFixedLenWithCrc,minKvRecordLen,
      maxKvRecordLen]
    exact ⟨⟨by omega,by omega,rejectIf_false (by omega),trivial⟩,.inr (.inr (.inl ⟨by omega,by omega⟩))⟩
  | delete key =>
    obtain ⟨named,short⟩ := valid
    have positive := List.length_pos_iff.mpr named
    simp only [recordLength,operationKey,bind_ok,exists_unit,rejectIf_ok,pure_ok,List.isEmpty_iff,named,
      false_or,LogicalOperation.recordLen,EnvelopeRecordLen,maxKeyValueSize,minDeleteRecordLen]
    exact ⟨⟨by omega,trivial⟩,.inr (.inr (.inr ⟨by omega,by omega⟩))⟩

-- The lengths an envelope plans.
def envelopeLens (operations : List LogicalOperation) : List Nat :=
  txBeginEncodedLen :: operations.map LogicalOperation.recordLen ++ [txPreparedEndEncodedLen]

theorem envelopeLens_allowed {operations : List LogicalOperation} (valid : ∀ operation ∈ operations, operation.Valid) :
    ∀ len ∈ envelopeLens operations, EnvelopeRecordLen len := by
  intro len member
  simp only [envelopeLens,List.cons_append,List.mem_cons,List.mem_append,List.mem_map] at member
  obtain rfl | ⟨operation,present,rfl⟩ | rfl | none := member
  · exact .inl rfl
  · exact (valid operation present).measured.2
  · exact .inr (.inl rfl)
  · cases none

end lengths

section planning

-- Some record of the run would open a file behind the last one.
def LogFull (position : VLogPosition) (lens : List Nat) : Prop :=
  ∃ before len after placements middle, lens = before ++ len :: after ∧
    planRecords ⟨production,position⟩ before = .ok (placements,⟨production,middle⟩) ∧ 999999 < recordFileId middle len

-- A run of records is planned, unless the log is full.
theorem planRecords_total {position : VLogPosition} {lens : List Nat} (placeable : Placeable position)
    (allowed : ∀ len ∈ lens, EnvelopeRecordLen len) :
    (∃ placements next, planRecords ⟨production,position⟩ lens = .ok (placements,next)) ∨
      (LogFull position lens ∧ planRecords ⟨production,position⟩ lens = .error capacityError) := by
  induction lens generalizing position with
  | nil => exact .inl ⟨[],⟨production,position⟩,rfl⟩
  | cons len rest ih =>
    obtain ⟨long,short⟩ := (allowed len List.mem_cons_self).bounds
    rcases planRecord_total placeable long short with ⟨-,placement,next,placed,-⟩ | ⟨full,refused⟩
    · obtain ⟨planned,geometry⟩ := planRecord_planned placed
      obtain ⟨_,middle⟩ := next
      simp only at geometry planned
      subst geometry
      simp only [planRecords,placed,ok_bind]
      rcases ih planned.placeable (fun other member => allowed other (List.mem_cons_of_mem _ member)) with
        ⟨placements,last,later⟩ | ⟨⟨before,full,after,placements,stop,split,run,outgrown⟩,refused⟩
      · rw [later]
        exact .inl ⟨_,_,rfl⟩
      · rw [refused]
        refine .inr ⟨⟨len :: before,full,after,placement :: placements,stop,by rw [split]; rfl,?_,outgrown⟩,rfl⟩
        simp only [planRecords,placed,ok_bind,run,pure_ok]
    · have stopped : planRecords ⟨production,position⟩ (len :: rest) = .error capacityError := by
        rw [planRecords,refused,error_bind]
      exact .inr ⟨⟨[],len,rest,[],position,rfl,rfl,full⟩,stopped⟩

variable {position start stop next : VLogPosition} {preludes : List LayoutPrelude} {placement : RecordPlacement}
  {placements : List RecordPlacement} {lens : List Nat} {len : Nat}

theorem Opens.le (opens : Opens position preludes start) : position ≤ start := by
  cases opens with
  | inside area => exact VLogPosition.le_refl _
  | page file low high aligned => exact .inr ⟨rfl,Nat.le_add_right _ _⟩
  | file file => exact .inr ⟨rfl,Nat.zero_le _⟩
  | roll file => exact .inl (Nat.lt_succ_self _)

theorem Prelude.le (opened : Prelude position preludes start) : position ≤ start := by
  cases opened with
  | direct opens => exact opens.le
  | padded opens fills long opens' =>
    rename_i pad before after len
    have moved : pad ≤ ⟨pad.fileId,pad.offset + len⟩ := .inr ⟨rfl,Nat.le_add_right _ _⟩
    exact VLogPosition.le_trans opens.le (VLogPosition.le_trans moved opens'.le)

theorem Planned.lt (planned : Planned position len placement next) (filled : 0 < len) : position < next := by
  rw [planned.ends]
  exact VLogPosition.lt_of_le_of_lt planned.opened.le (.inr ⟨rfl,Nat.lt_add_of_pos_right filled⟩)

theorem PlannedRun.le (run : PlannedRun position lens placements stop) : position ≤ stop := by
  induction run with
  | nil => exact VLogPosition.le_refl _
  | @cons position next stop len placement lens placements planned _ ih =>
    have first : position ≤ next := by
      rw [planned.ends]
      exact VLogPosition.le_trans planned.opened.le (.inr ⟨rfl,Nat.le_add_right _ _⟩)
    exact VLogPosition.le_trans first ih

theorem PlannedRun.placeable (run : PlannedRun position lens placements stop) (placeable : Placeable position) :
    Placeable stop := by
  induction run with
  | nil => exact placeable
  | cons planned _ ih => exact ih planned.placeable

theorem PlannedRun.split {more : List Nat} (run : PlannedRun position (lens ++ more) placements stop) :
    ∃ taken later middle, placements = taken ++ later ∧ PlannedRun position lens taken middle ∧
      PlannedRun middle more later stop := by
  induction lens generalizing position placements with
  | nil => exact ⟨[],placements,position,rfl,.nil,run⟩
  | cons len lens ih =>
    cases run with
    | cons planned rest =>
      obtain ⟨taken,later,middle,rfl,first,second⟩ := ih rest
      exact ⟨_ :: taken,later,middle,rfl,.cons planned first,second⟩

end planning

section writing
variable [Crc32c] {databaseUuid txUuid : Uuid} {commitSeq opIndex : Nat} {position next stop : VLogPosition}
  {placement : RecordPlacement} {len : Nat}

-- Every valid content has an encoding of the length that was planned for it.
theorem encodeRecordAt_sized {record : DecodedRecord} {start : VLogPosition} (valid : record.Valid commitSeq txUuid start)
    (fits : record.FitsPage start) :
    ∃ encoded, encodeRecordAt commitSeq txUuid start production record = .ok encoded ∧
      encoded.length = record.encodedLen start := by
  obtain ⟨encoded,written⟩ := encodeRecordAt_ok valid fits
  refine ⟨encoded,written,?_⟩
  obtain ⟨area,inside⟩ := fits
  cases record with
  | txBegin begin => exact (encodeTxBegin_reads written valid.1.2.1 valid.2.2.2.2 area inside).sized.symm
  | kvRecord record => exact (encodeKvRecord_reads written valid.1.2.1 valid.2.1 area inside).sized.symm
  | deleteRecord record => exact (encodeDeleteRecord_reads written valid.1.2.1 valid.2.1 area inside).sized.symm
  | txPreparedEnd footer =>
    obtain ⟨identity,-,-,ends,-,-,counted,-,checksum⟩ := valid
    exact (encodeTxPreparedEnd_reads written identity.2.1 counted checksum area inside ends).sized.symm
  | pageEnd =>
    have ends := (encodePageEnd_reads written valid.1.2.1).2
    simp only [DecodedRecord.encodedLen]
    omega

theorem preludeChunk_total {entry : LayoutPrelude} (identity : ValidIdentity commitSeq txUuid)
    (named : databaseUuid.isZero = false) (sound : entry.Sound) :
    ∃ chunk, preludeChunk databaseUuid commitSeq txUuid production entry = .ok chunk := by
  cases entry with
  | pageHeader page pageNo =>
    obtain ⟨encoded,written⟩ := @PageHeader.encode_ok _ ⟨page.fileId,pageNo⟩ sound.1 sound.2.1
    exact ⟨⟨page,encoded⟩,by rw [preludeChunk,written,ok_bind,pure_ok]⟩
  | fileHeader page =>
    obtain ⟨encoded,written⟩ := @VLogFileHeader.encode_ok _ databaseUuid page.fileId named sound
    exact ⟨⟨page,encoded⟩,by rw [preludeChunk,written,ok_bind,pure_ok]⟩
  | pageEnd pad encodedLen =>
    obtain ⟨area,fills,long⟩ := sound
    have fits : DecodedRecord.pageEnd.FitsPage pad := ⟨area,by simp only [DecodedRecord.encodedLen]; omega⟩
    obtain ⟨encoded,written,width⟩ := @encodeRecordAt_sized _ txUuid commitSeq .pageEnd pad ⟨identity,by omega⟩ fits
    simp only [DecodedRecord.encodedLen] at width
    simp only [encodeRecordAt] at written
    refine ⟨⟨pad,encoded⟩,?_⟩
    rw [preludeChunk,written,ok_bind,rejectIf_false (by omega),ok_bind,pure_ok]

theorem appendPlacement_total {bytes : Bytes} (identity : ValidIdentity commitSeq txUuid)
    (named : databaseUuid.isZero = false) (planned : Planned position len placement next) (width : bytes.length = len) :
    ∃ chunks, appendPlacement placement bytes databaseUuid commitSeq txUuid production = .ok chunks := by
  obtain ⟨chunks,mapped⟩ := mapM_ok_iff.mpr (fun entry member =>
    @preludeChunk_total _ databaseUuid txUuid commitSeq entry identity named (planned.opened.sound entry member))
  refine ⟨chunks ++ [⟨placement.recordStart,bytes⟩],?_⟩
  rw [appendPlacement,rejectIf_false (fun differs => differs (width.trans planned.sized.symm)),ok_bind,mapped,ok_bind,
    pure_ok]

section operations
variable {operation : LogicalOperation} {operations : List LogicalOperation}

omit [Crc32c] in
theorem operationRecord_valid (identity : ValidIdentity commitSeq txUuid) (index : opIndex < 18446744073709551616)
    (valid : operation.Valid) (start : VLogPosition) :
    (operationRecord commitSeq txUuid opIndex operation).Valid commitSeq txUuid start ∧
      (operationRecord commitSeq txUuid opIndex operation).encodedLen start = operation.recordLen := by
  cases operation with
  | put key value => exact ⟨⟨identity,index,valid⟩,rfl⟩
  | delete key => exact ⟨⟨identity,index,valid⟩,rfl⟩

theorem encodeOperation_total (identity : ValidIdentity commitSeq txUuid) (index : opIndex < 18446744073709551616)
    (valid : operation.Valid) (planned : Planned position operation.recordLen placement next) :
    ∃ bytes pointer, encodeOperation commitSeq txUuid opIndex placement operation = .ok (bytes,pointer) ∧
      bytes.length = operation.recordLen := by
  obtain ⟨accepted,sized⟩ := operationRecord_valid identity index valid placement.recordStart
  have area := planned.opened.area
  obtain ⟨bytes,written,width⟩ := encodeRecordAt_sized accepted ⟨area,by rw [sized]; exact planned.inside⟩
  rw [sized] at width
  have place : ¬placement.recordStart.offset ≥ 4294967296 := Nat.not_le.mpr area.2.1
  cases operation with
  | put key value =>
    simp only [operationRecord,encodeRecordAt] at written
    have short := valid.2
    simp only [encodeOperation,written,ok_bind]
    rw [rejectIf_false place,ok_bind,rejectIf_false (by omega),ok_bind,pure_ok]
    exact ⟨_,_,rfl,width⟩
  | delete key =>
    simp only [operationRecord,encodeRecordAt] at written
    simp only [encodeOperation,written,ok_bind,pure_ok]
    exact ⟨_,_,rfl,width⟩

theorem appendOperations_total {placements : List RecordPlacement} (more : List RecordPlacement)
    (identity : ValidIdentity commitSeq txUuid) (named : databaseUuid.isZero = false)
    (bound : opIndex + operations.length < 18446744073709551616) (valid : ∀ operation ∈ operations, operation.Valid)
    (run : PlannedRun position (operations.map LogicalOperation.recordLen) placements stop) :
    ∃ appended, appendOperations databaseUuid commitSeq txUuid production opIndex operations (placements ++ more) =
      .ok appended := by
  induction operations generalizing opIndex position placements with
  | nil => exact ⟨_,rfl⟩
  | cons operation rest ih =>
    rw [List.map_cons] at run
    cases run with
    | cons planned later =>
      rename_i next placement placements
      simp only [List.length_cons] at bound
      have here : opIndex < 18446744073709551616 := by omega
      have behind : opIndex + 1 + rest.length < 18446744073709551616 := by omega
      obtain ⟨bytes,pointer,encoded,width⟩ := encodeOperation_total identity here (valid operation List.mem_cons_self)
        planned
      obtain ⟨chunks,written⟩ := @appendPlacement_total _ databaseUuid txUuid commitSeq _ _ _ _ bytes identity named planned
        width
      obtain ⟨others,done⟩ := ih behind (fun other member => valid other (List.mem_cons_of_mem _ member)) later
      rw [List.cons_append,appendOperations,encoded,ok_bind,written,ok_bind,done]
      exact ⟨_,rfl⟩

theorem updateOperation_total (crc : EnvelopeCrc32c) (identity : ValidIdentity commitSeq txUuid) (valid : operation.Valid) :
    ∃ next, updateOperation crc commitSeq txUuid opIndex operation = .ok next := by
  cases operation with
  | put key value =>
    obtain ⟨filled,short⟩ := valid
    have positive := List.length_pos_iff.mpr filled
    simp only [updateOperation,EnvelopeCrc32c.updateKvRecord,identity.accepted,ok_bind,maxKeyValueSize]
    rw [rejectIf_false (by omega),ok_bind,rejectIf_false (by omega),ok_bind,pure_ok]
    exact ⟨_,rfl⟩
  | delete key =>
    obtain ⟨filled,short⟩ := valid
    have positive := List.length_pos_iff.mpr filled
    simp only [updateOperation,EnvelopeCrc32c.updateDeleteRecord,identity.accepted,ok_bind,maxKeyValueSize]
    rw [rejectIf_false (by omega),ok_bind,rejectIf_false (by omega),ok_bind,pure_ok]
    exact ⟨_,rfl⟩

theorem updateOperations_total (crc : EnvelopeCrc32c) (identity : ValidIdentity commitSeq txUuid)
    (valid : ∀ operation ∈ operations, operation.Valid) :
    ∃ next, updateOperations crc commitSeq txUuid opIndex operations = .ok next := by
  induction operations generalizing crc opIndex with
  | nil => exact ⟨crc,rfl⟩
  | cons operation rest ih =>
    obtain ⟨first,updated⟩ := @updateOperation_total _ txUuid commitSeq opIndex operation crc identity
      (valid operation List.mem_cons_self)
    obtain ⟨last,later⟩ := @ih (opIndex + 1) first (fun other member => valid other (List.mem_cons_of_mem _ member))
    exact ⟨last,by rw [updateOperations,updated,ok_bind,later]⟩

-- Both counts of the begin record and the footer.
omit [Crc32c] in
theorem distinctKeys_counted (nonempty : operations ≠ []) :
    0 < (distinctKeys operations).length ∧ (distinctKeys operations).length ≤ operations.length := by
  obtain ⟨distinct,named⟩ := distinctKeys_exact operations
  constructor
  · obtain ⟨operation,rest,rfl⟩ := List.exists_cons_of_ne_nil nonempty
    exact List.length_pos_of_mem ((named (operationKey operation)).mpr (by simp))
  · have within := (List.subperm_of_subset distinct (fun key member => (named key).mp member)).length_le
    rwa [List.length_map] at within

omit [Crc32c] in
theorem records_counted (operations : List LogicalOperation) :
    operations.countP LogicalOperation.isPut + operations.countP (fun operation => !operation.isPut) =
      operations.length := by
  have split := List.length_eq_countP_add_countP LogicalOperation.isPut (l := operations)
  simpa using split.symm

end operations

theorem updateTxBegin_total (crc : EnvelopeCrc32c) {begin : TxBegin} {encoded : Bytes}
    (written : encodeTxBegin begin = .ok encoded) : ∃ next, crc.updateTxBegin begin = .ok next := by
  simp only [encodeTxBegin,bind_ok,exists_unit,mapError_ok] at written
  rw [EnvelopeCrc32c.updateTxBegin,written.1,ok_bind,pure_ok]
  exact ⟨_,rfl⟩

theorem finishWithFooter_total (crc : EnvelopeCrc32c) {footer : TxPreparedEnd} {encoded : Bytes}
    (written : encodeTxPreparedEnd footer = .ok encoded) : ∃ checksum, crc.finishWithFooter footer = .ok checksum := by
  simp only [encodeTxPreparedEnd,bind_ok,exists_unit,mapError_ok] at written
  rw [EnvelopeCrc32c.finishWithFooter,written.1,ok_bind,pure_ok]
  exact ⟨_,rfl⟩

-- The records of a valid envelope are placed, and everything written over them has an encoding: only the
-- end of the log refuses.
theorem prepareEnvelope_total {operations : List LogicalOperation} (placeable : Placeable position)
    (identity : ValidIdentity commitSeq txUuid) (named : databaseUuid.isZero = false) (nonempty : operations ≠ [])
    (counted : operations.length < 4294967296) (valid : ∀ operation ∈ operations, operation.Valid) :
    (∃ envelope next, prepareEnvelope ⟨production,position⟩ databaseUuid commitSeq txUuid operations =
      .ok (envelope,next)) ∨
    (LogFull position (envelopeLens operations) ∧
      prepareEnvelope ⟨production,position⟩ databaseUuid commitSeq txUuid operations = .error capacityError) := by
  have measured : operations.mapM recordLength = .ok (operations.map LogicalOperation.recordLen) :=
    mapM_eq_map (fun operation member => (valid operation member).measured.1)
  have filled : ¬(databaseUuid.isZero ∨ operations.isEmpty) := by simp [named,nonempty]
  obtain ⟨present,distinct⟩ := distinctKeys_counted nonempty
  have total := records_counted operations
  have begins : position.isValid = true := VLogPosition.isValid_iff.mpr ⟨placeable.good.1,placeable.good.2.1⟩
  simp only [prepareEnvelope,identity.accepted,Except.mapError,ok_bind,measured]
  rw [rejectIf_false filled,ok_bind,rejectIf_false (by omega),ok_bind]
  rcases planRecords_total placeable (envelopeLens_allowed valid) with ⟨placements,⟨_,stop⟩,planned⟩ | ⟨full,refused⟩
  · obtain ⟨run,geometry⟩ := planRecords_run planned
    simp only at run geometry
    subst geometry
    simp only [envelopeLens,List.cons_append] at planned run
    cases run with
    | cons beginPlanned operationsRun =>
      rename_i afterBegin beginPlacement rest
      obtain ⟨taken,later,middle,rfl,operationsPlanned,footerRun⟩ := operationsRun.split
      cases footerRun with
      | cons footerPlanned noMore =>
        rename_i footerPlacement _
        cases noMore with
        | nil =>
          have rises := VLogPosition.lt_of_lt_of_le (beginPlanned.lt (by decide)) operationsRun.le
          obtain ⟨beginBytes,beginWritten,beginWidth⟩ := encodeRecordAt_sized
            (show (DecodedRecord.txBegin ⟨commitSeq,txUuid,position,operations.length,
              (distinctKeys operations).length⟩).Valid commitSeq txUuid beginPlacement.recordStart from
              ⟨identity,begins,present,distinct,Nat.lt_trans counted (by decide)⟩)
            ⟨beginPlanned.opened.area,beginPlanned.inside⟩
          have footers : ∀ checksum < 4294967296, ∃ encoded, encodeTxPreparedEnd ⟨commitSeq,txUuid,position,stop,
              operations.length,(distinctKeys operations).length,operations.countP LogicalOperation.isPut,
              operations.countP (fun operation => !operation.isPut),checksum⟩ = .ok encoded ∧ encoded.length = 111 := by
            intro checksum small
            exact encodeRecordAt_sized (show (DecodedRecord.txPreparedEnd _).Valid commitSeq txUuid
              footerPlacement.recordStart from ⟨identity,begins,rises,footerPlanned.ends,present,distinct,
                Nat.lt_trans counted (by decide),total,small⟩) ⟨footerPlanned.opened.area,footerPlanned.inside⟩
          simp only [encodeRecordAt] at beginWritten
          obtain ⟨begun,beginCrc⟩ := updateTxBegin_total EnvelopeCrc32c.new beginWritten
          obtain ⟨ended,operationsCrc⟩ := @updateOperations_total _ txUuid commitSeq 0 _ begun identity valid
          obtain ⟨unsealedBytes,unsealed,-⟩ := footers 0 (by decide)
          obtain ⟨checksum,finished⟩ := finishWithFooter_total ended unsealed
          obtain ⟨footerBytes,footerWritten,footerWidth⟩ := footers checksum (EnvelopeCrc32c.finishWithFooter_lt finished)
          obtain ⟨beginChunks,beginAppended⟩ := @appendPlacement_total _ databaseUuid txUuid commitSeq _ _ _ _ beginBytes
            identity named beginPlanned beginWidth
          obtain ⟨appended,operationsAppended⟩ := appendOperations_total [footerPlacement] identity named
            (by omega : 0 + operations.length < 18446744073709551616) valid operationsPlanned
          obtain ⟨footerChunks,footerAppended⟩ := @appendPlacement_total _ databaseUuid txUuid commitSeq _ _ _ _
            footerBytes identity named footerPlanned footerWidth
          have last : (beginPlacement :: (taken ++ [footerPlacement])).getLast? = some footerPlacement := by
            rw [←List.cons_append,List.getLast?_concat]
          refine .inl ⟨⟨commitSeq,txUuid,position,stop,checksum,beginChunks ++ appended.1 ++ footerChunks,appended.2⟩,
            ⟨production,stop⟩,?_⟩
          simp only [List.cons_append,planned,ok_bind,beginCrc,operationsCrc,finished,beginWritten,List.head?_cons,orError,
            beginAppended,List.tail_cons,operationsAppended,last,footerWritten,footerAppended,pure_ok]
  · simp only [envelopeLens,List.cons_append] at refused
    refine .inr ⟨full,?_⟩
    simp only [List.cons_append,refused,error_bind]

end writing

end ExpirKv
