import ExpirKv.Library.Framing
import ExpirKv.Vlog.ScanSound

namespace ExpirKv
open VLogGeometry

-- What the checksum of an envelope is fed, in the order of the calls.
section pieces

def recordPrefixPieces (recordType : RecordType) (canonicalBodyLen : Nat) : List Bytes :=
  [[recordType.code],leBytes 4 canonicalBodyLen]

def VLogPosition.pieces (position : VLogPosition) : List Bytes :=
  [leBytes 4 position.fileId,leBytes 8 position.offset]

def TxBegin.pieces (begin : TxBegin) : List Bytes :=
  recordPrefixPieces .txBegin 52 ++ [leBytes 8 begin.commitSeq,begin.txUuid.val] ++ begin.vlogBegin.pieces ++
    [leBytes 8 begin.logicalOpCount,leBytes 8 begin.distinctKeyCount]

def KvRecord.pieces (record : KvRecord) : List Bytes :=
  recordPrefixPieces .kvRecord (36 + (record.key.length + record.value.length)) ++
    [leBytes 8 record.commitSeq,record.txUuid.val,leBytes 8 record.opIndex,leBytes 2 record.key.length,
      leBytes 2 record.value.length,record.key,record.value]

def DeleteRecord.pieces (record : DeleteRecord) : List Bytes :=
  recordPrefixPieces .deleteRecord (34 + record.key.length) ++
    [leBytes 8 record.commitSeq,record.txUuid.val,leBytes 8 record.opIndex,leBytes 2 record.key.length,record.key]

def TxPreparedEnd.pieces (footer : TxPreparedEnd) : List Bytes :=
  recordPrefixPieces .txPreparedEnd 80 ++ [leBytes 8 footer.commitSeq,footer.txUuid.val] ++ footer.vlogBegin.pieces ++
    footer.vlogEnd.pieces ++ [leBytes 8 footer.logicalOpCount,leBytes 8 footer.distinctKeyCount,
      leBytes 8 footer.kvRecordCount,leBytes 8 footer.deleteRecordCount]

-- A page end is a record too, but it is not fed.
def DecodedRecord.pieces : DecodedRecord → List Bytes
  | .txBegin begin => begin.pieces
  | .kvRecord record => record.pieces
  | .deleteRecord record => record.pieces
  | .txPreparedEnd footer => footer.pieces
  | .pageEnd => []

theorem transactionRecords_pieces (records : List DecodedRecord) :
    (transactionRecords records).flatMap DecodedRecord.pieces = records.flatMap DecodedRecord.pieces := by
  induction records with
  | nil => rfl
  | cons record rest ih =>
    by_cases ending : record = .pageEnd
    · have skipped : transactionRecords (record :: rest) = transactionRecords rest := by
        simp [transactionRecords,ending]
      rw [skipped,ih,List.flatMap_cons,ending]
      rfl
    · have kept : transactionRecords (record :: rest) = record :: transactionRecords rest := by
        simp [transactionRecords,ending]
      rw [kept,List.flatMap_cons,List.flatMap_cons,ih]

end pieces

section separate

def VLogPosition.Fits (position : VLogPosition) : Prop :=
  position.fileId < 4294967296 ∧ position.offset < 18446744073709551616

structure TxBegin.Fits (begin : TxBegin) : Prop where
  commitSeq : begin.commitSeq < 18446744073709551616
  vlogBegin : begin.vlogBegin.Fits
  logical : begin.logicalOpCount < 18446744073709551616
  distinct : begin.distinctKeyCount < 18446744073709551616

structure KvRecord.Fits (record : KvRecord) : Prop where
  commitSeq : record.commitSeq < 18446744073709551616
  opIndex : record.opIndex < 18446744073709551616
  key : record.key.length < 65536
  value : record.value.length < 65536

structure DeleteRecord.Fits (record : DeleteRecord) : Prop where
  commitSeq : record.commitSeq < 18446744073709551616
  opIndex : record.opIndex < 18446744073709551616
  key : record.key.length < 65536

structure TxPreparedEnd.Fits (footer : TxPreparedEnd) : Prop where
  commitSeq : footer.commitSeq < 18446744073709551616
  vlogBegin : footer.vlogBegin.Fits
  vlogEnd : footer.vlogEnd.Fits
  logical : footer.logicalOpCount < 18446744073709551616
  distinct : footer.distinctKeyCount < 18446744073709551616
  kv : footer.kvRecordCount < 18446744073709551616
  deletes : footer.deleteRecordCount < 18446744073709551616

def TxPreparedEnd.unsealed (footer : TxPreparedEnd) : TxPreparedEnd := {footer with envelopeCrc32c := 0}

theorem Uuid.separates : Separates (fun _ => True) (fun uuid : Uuid => uuid.val) := by
  intro left right more others _ _ same
  obtain ⟨word,rest⟩ := List.append_inj same (by simp)
  exact ⟨Subtype.ext word,rest⟩

theorem VLogPosition.separates : Separates VLogPosition.Fits (fun position => position.pieces.flatten) := by
  rintro ⟨file,offset⟩ ⟨otherFile,otherOffset⟩ more others first second same
  simp only [pieces,List.flatten_cons,List.flatten_nil,List.append_assoc,List.nil_append] at same
  obtain ⟨files,same⟩ := leBytes_separates 4 first.1 second.1 same
  obtain ⟨offsets,same⟩ := leBytes_separates 8 first.2 second.2 same
  exact ⟨VLogPosition.mk.injEq _ _ _ _ ▸ ⟨files,offsets⟩,same⟩

theorem TxBegin.separates : Separates TxBegin.Fits (fun begin => begin.pieces.flatten) := by
  rintro ⟨seq,uuid,place,logical,distinct⟩ ⟨otherSeq,otherUuid,otherPlace,otherLogical,otherDistinct⟩ more others
    first second same
  simp only [pieces,recordPrefixPieces,List.flatten_append,List.flatten_cons,List.flatten_nil,List.append_assoc,
    List.nil_append] at same
  obtain ⟨-,same⟩ := List.append_inj same rfl
  obtain ⟨-,same⟩ := List.append_inj same rfl
  obtain ⟨seqs,same⟩ := leBytes_separates 8 first.commitSeq second.commitSeq same
  obtain ⟨uuids,same⟩ := Uuid.separates trivial trivial same
  obtain ⟨places,same⟩ := VLogPosition.separates first.vlogBegin second.vlogBegin same
  obtain ⟨logicals,same⟩ := leBytes_separates 8 first.logical second.logical same
  obtain ⟨distincts,rest⟩ := leBytes_separates 8 first.distinct second.distinct same
  simp only at seqs uuids places logicals distincts
  subst seqs uuids places logicals distincts
  exact ⟨rfl,rest⟩

theorem KvRecord.separates : Separates KvRecord.Fits (fun record => record.pieces.flatten) := by
  rintro ⟨seq,uuid,index,key,value⟩ ⟨otherSeq,otherUuid,otherIndex,otherKey,otherValue⟩ more others first second same
  simp only [pieces,recordPrefixPieces,List.flatten_append,List.flatten_cons,List.flatten_nil,List.append_assoc,
    List.nil_append] at same
  obtain ⟨-,same⟩ := List.append_inj same rfl
  obtain ⟨-,same⟩ := List.append_inj same (by simp)
  obtain ⟨seqs,same⟩ := leBytes_separates 8 first.commitSeq second.commitSeq same
  obtain ⟨uuids,same⟩ := Uuid.separates trivial trivial same
  obtain ⟨indices,same⟩ := leBytes_separates 8 first.opIndex second.opIndex same
  obtain ⟨keyLens,same⟩ := leBytes_separates 2 first.key second.key same
  obtain ⟨valueLens,same⟩ := leBytes_separates 2 first.value second.value same
  obtain ⟨keys,same⟩ := List.append_inj same keyLens
  obtain ⟨values,rest⟩ := List.append_inj same valueLens
  subst seqs uuids indices keys values
  exact ⟨rfl,rest⟩

theorem DeleteRecord.separates : Separates DeleteRecord.Fits (fun record => record.pieces.flatten) := by
  rintro ⟨seq,uuid,index,key⟩ ⟨otherSeq,otherUuid,otherIndex,otherKey⟩ more others first second same
  simp only [pieces,recordPrefixPieces,List.flatten_append,List.flatten_cons,List.flatten_nil,List.append_assoc,
    List.nil_append] at same
  obtain ⟨-,same⟩ := List.append_inj same rfl
  obtain ⟨-,same⟩ := List.append_inj same (by simp)
  obtain ⟨seqs,same⟩ := leBytes_separates 8 first.commitSeq second.commitSeq same
  obtain ⟨uuids,same⟩ := Uuid.separates trivial trivial same
  obtain ⟨indices,same⟩ := leBytes_separates 8 first.opIndex second.opIndex same
  obtain ⟨lens,same⟩ := leBytes_separates 2 first.key second.key same
  obtain ⟨keys,rest⟩ := List.append_inj same lens
  subst seqs uuids indices keys
  exact ⟨rfl,rest⟩

-- The footer up to the checksum it carries.
theorem TxPreparedEnd.separates :
    Separates (fun footer : TxPreparedEnd => footer.Fits ∧ footer.envelopeCrc32c = 0)
      (fun footer => footer.pieces.flatten) := by
  rintro ⟨seq,uuid,start,stop,logical,distinct,kv,deletes,crc⟩
    ⟨otherSeq,otherUuid,otherStart,otherStop,otherLogical,otherDistinct,otherKv,otherDeletes,otherCrc⟩ more others
    ⟨first,empty⟩ ⟨second,otherEmpty⟩ same
  simp only [pieces,recordPrefixPieces,List.flatten_append,List.flatten_cons,List.flatten_nil,List.append_assoc,
    List.nil_append] at same
  obtain ⟨-,same⟩ := List.append_inj same rfl
  obtain ⟨-,same⟩ := List.append_inj same rfl
  obtain ⟨seqs,same⟩ := leBytes_separates 8 first.commitSeq second.commitSeq same
  obtain ⟨uuids,same⟩ := Uuid.separates trivial trivial same
  obtain ⟨starts,same⟩ := VLogPosition.separates first.vlogBegin second.vlogBegin same
  obtain ⟨stops,same⟩ := VLogPosition.separates first.vlogEnd second.vlogEnd same
  obtain ⟨logicals,same⟩ := leBytes_separates 8 first.logical second.logical same
  obtain ⟨distincts,same⟩ := leBytes_separates 8 first.distinct second.distinct same
  obtain ⟨kvs,same⟩ := leBytes_separates 8 first.kv second.kv same
  obtain ⟨deletions,rest⟩ := leBytes_separates 8 first.deletes second.deletes same
  simp only at seqs uuids starts stops logicals distincts kvs deletions empty otherEmpty
  subst seqs uuids starts stops logicals distincts kvs deletions empty otherEmpty
  exact ⟨rfl,rest⟩

-- The records a stream is made of.
def DecodedRecord.Fed : DecodedRecord → Prop
  | .txBegin begin => begin.Fits
  | .kvRecord record => record.Fits
  | .deleteRecord record => record.Fits
  | .txPreparedEnd footer => footer.Fits ∧ footer.envelopeCrc32c = 0
  | .pageEnd => False

def DecodedRecord.recordType : DecodedRecord → RecordType
  | .txBegin _ => .txBegin
  | .kvRecord _ => .kvRecord
  | .deleteRecord _ => .deleteRecord
  | .txPreparedEnd _ => .txPreparedEnd
  | .pageEnd => .pageEnd

theorem RecordType.code_injective {left right : RecordType} (same : left.code = right.code) : left = right := by
  have decoded := RecordType.decode_code left
  rw [same,RecordType.decode_code] at decoded
  exact (Except.ok.inj decoded).symm

theorem DecodedRecord.Fed.head {record : DecodedRecord} (fed : record.Fed) :
    ∃ body, record.pieces.flatten = record.recordType.code :: body := by
  cases record with
  | pageEnd => exact absurd fed not_false
  | txBegin _ => exact ⟨_,rfl⟩
  | kvRecord _ => exact ⟨_,rfl⟩
  | deleteRecord _ => exact ⟨_,rfl⟩
  | txPreparedEnd _ => exact ⟨_,rfl⟩

-- The type code tells the records apart, behind it each kind has its own layout.
theorem DecodedRecord.separates : Separates DecodedRecord.Fed (fun record => record.pieces.flatten) := by
  intro left right more others first second same
  have types : left.recordType = right.recordType := by
    obtain ⟨body,headed⟩ := first.head
    obtain ⟨otherBody,otherHeaded⟩ := second.head
    simp only [headed,otherHeaded,List.cons_append] at same
    exact RecordType.code_injective (List.cons.inj same).1
  cases left with
  | pageEnd => exact absurd first not_false
  | txBegin begin =>
    cases right with
    | txBegin other =>
      obtain ⟨rfl,rest⟩ := TxBegin.separates first second same
      exact ⟨rfl,rest⟩
    | _ => exact absurd types (by simp [recordType])
  | kvRecord record =>
    cases right with
    | kvRecord other =>
      obtain ⟨rfl,rest⟩ := KvRecord.separates first second same
      exact ⟨rfl,rest⟩
    | _ => exact absurd types (by simp [recordType])
  | deleteRecord record =>
    cases right with
    | deleteRecord other =>
      obtain ⟨rfl,rest⟩ := DeleteRecord.separates first second same
      exact ⟨rfl,rest⟩
    | _ => exact absurd types (by simp [recordType])
  | txPreparedEnd footer =>
    cases right with
    | txPreparedEnd other =>
      obtain ⟨rfl,rest⟩ := TxPreparedEnd.separates first second same
      exact ⟨rfl,rest⟩
    | _ => exact absurd types (by simp [recordType])

end separate

section feeding
variable [Crc32c]

def EnvelopeCrc32c.feed (crc : EnvelopeCrc32c) (pieces : List Bytes) : EnvelopeCrc32c :=
  pieces.foldl EnvelopeCrc32c.update crc

@[simp] theorem EnvelopeCrc32c.feed_append (crc : EnvelopeCrc32c) (pieces more : List Bytes) :
    crc.feed (pieces ++ more) = (crc.feed pieces).feed more := List.foldl_append

theorem EnvelopeCrc32c.feed_checksum (crc : EnvelopeCrc32c) (pieces : List Bytes) :
    (crc.feed pieces).checksum = pieces.foldl crc32cAppend crc.checksum := by
  induction pieces generalizing crc with
  | nil => rfl
  | cons piece rest ih => exact ih (crc.update piece)

variable {crc after : EnvelopeCrc32c}

theorem updateTxBegin_feeds {begin : TxBegin} (updated : crc.updateTxBegin begin = .ok after) :
    after = crc.feed begin.pieces := by
  simp only [EnvelopeCrc32c.updateTxBegin,bind_ok,exists_unit,pure_ok,Except.ok.injEq] at updated
  exact updated.2.symm

theorem updateKvRecord_feeds {record : KvRecord} (updated : crc.updateKvRecord record = .ok after) :
    after = crc.feed record.pieces ∧ record.key.length < 65536 ∧ record.value.length < 65536 := by
  simp only [EnvelopeCrc32c.updateKvRecord,bind_ok,exists_unit,rejectIf_ok,pure_ok,Except.ok.injEq,not_or,
    Nat.not_le] at updated
  obtain ⟨-,⟨keyFits,valueFits⟩,-,rfl⟩ := updated
  exact ⟨rfl,keyFits,valueFits⟩

theorem updateDeleteRecord_feeds {record : DeleteRecord} (updated : crc.updateDeleteRecord record = .ok after) :
    after = crc.feed record.pieces ∧ record.key.length < 65536 := by
  simp only [EnvelopeCrc32c.updateDeleteRecord,bind_ok,exists_unit,rejectIf_ok,pure_ok,Except.ok.injEq,
    Nat.not_le] at updated
  obtain ⟨-,keyFits,-,rfl⟩ := updated
  exact ⟨rfl,keyFits⟩

theorem finishWithFooter_feeds {footer : TxPreparedEnd} {checksum : Nat}
    (finished : crc.finishWithFooter footer = .ok checksum) : checksum = (crc.feed footer.pieces).checksum := by
  simp only [EnvelopeCrc32c.finishWithFooter,bind_ok,exists_unit,pure_ok,Except.ok.injEq] at finished
  exact finished.2.symm

end feeding

-- An envelope as the checksum sees it: a begin, any sequence of operation records, a footer.
section contents

inductive EnvelopeOperation where
  | kvRecord (record : KvRecord)
  | deleteRecord (record : DeleteRecord)
  deriving DecidableEq, Repr

def EnvelopeOperation.record : EnvelopeOperation → DecodedRecord
  | .kvRecord record => .kvRecord record
  | .deleteRecord record => .deleteRecord record

structure EnvelopeContent where
  begin : TxBegin
  operations : List EnvelopeOperation
  footer : TxPreparedEnd
  deriving DecidableEq, Repr

namespace EnvelopeContent

def records (content : EnvelopeContent) : List DecodedRecord :=
  .txBegin content.begin :: content.operations.map EnvelopeOperation.record ++ [.txPreparedEnd content.footer]

def pieces (content : EnvelopeContent) : List Bytes := content.records.flatMap DecodedRecord.pieces

def stream (content : EnvelopeContent) : Bytes := envelopeCrcMagic ++ content.pieces.flatten

-- The same envelope, the checksum in its footer left out.
def unsealed (content : EnvelopeContent) : EnvelopeContent := {content with footer := content.footer.unsealed}

structure Fits (content : EnvelopeContent) : Prop where
  begin : content.begin.Fits
  operation : ∀ operation ∈ content.operations, operation.record.Fed
  footer : content.footer.Fits

theorem records_injective {left right : EnvelopeContent} (same : left.records = right.records) : left = right := by
  simp only [records,List.cons_append,List.cons.injEq,DecodedRecord.txBegin.injEq] at same
  obtain ⟨begins,rest⟩ := same
  obtain ⟨operations,footers⟩ := List.append_inj' rest rfl
  have record : Function.Injective EnvelopeOperation.record := by
    intro one other equal
    cases one with
    | kvRecord _ => cases other <;> simp_all [EnvelopeOperation.record]
    | deleteRecord _ => cases other <;> simp_all [EnvelopeOperation.record]
  have listed := List.map_injective_iff.mpr record operations
  simp only [List.cons.injEq,DecodedRecord.txPreparedEnd.injEq,and_true] at footers
  cases left
  cases right
  simp only at begins listed footers
  subst begins listed footers
  rfl

theorem Fits.fed {content : EnvelopeContent} (fits : content.Fits) :
    ∀ record ∈ content.unsealed.records, record.Fed := by
  intro record member
  simp only [records,unsealed,List.mem_append,List.mem_cons,List.mem_map,List.not_mem_nil,or_false] at member
  rcases member with (rfl | ⟨operation,found,rfl⟩) | rfl
  · exact fits.begin
  · exact fits.operation operation found
  · exact ⟨⟨fits.footer.commitSeq,fits.footer.vlogBegin,fits.footer.vlogEnd,fits.footer.logical,fits.footer.distinct,
      fits.footer.kv,fits.footer.deletes⟩,rfl⟩

theorem unsealed_stream (content : EnvelopeContent) : content.unsealed.stream = content.stream := by
  simp only [stream,pieces,records,unsealed,List.flatMap_append,List.flatMap_cons,List.flatMap_nil]
  rfl

theorem stream_injective {left right : EnvelopeContent} (first : left.Fits) (second : right.Fits)
    (same : left.stream = right.stream) : left.unsealed = right.unsealed := by
  rw [←left.unsealed_stream,←right.unsealed_stream] at same
  have fed := List.append_cancel_left same
  simp only [pieces,List.flatMap_def,List.flatten_flatten,List.map_map] at fed
  have filled : ∀ record : DecodedRecord, record.Fed → record.pieces.flatten ≠ [] := by
    intro record isFed
    obtain ⟨body,headed⟩ := isFed.head
    simp [headed]
  refine records_injective (DecodedRecord.separates.flatMap_injective filled first.fed second.fed ?_)
  rw [List.flatMap_def,List.flatMap_def]
  exact fed

end EnvelopeContent

end contents

section checksums
variable [Crc32c]

def EnvelopeOperation.update (crc : EnvelopeCrc32c) : EnvelopeOperation → Result EnvelopeCrc32c
  | .kvRecord record => crc.updateKvRecord record
  | .deleteRecord record => crc.updateDeleteRecord record

def EnvelopeContent.checksum (content : EnvelopeContent) : Result Nat := do
  let crc ← EnvelopeCrc32c.new.updateTxBegin content.begin
  let crc ← content.operations.foldlM EnvelopeOperation.update crc
  crc.finishWithFooter content.footer

def EnvelopeOperation.Words : EnvelopeOperation → Prop
  | .kvRecord record => record.commitSeq < 18446744073709551616 ∧ record.opIndex < 18446744073709551616
  | .deleteRecord record => record.commitSeq < 18446744073709551616 ∧ record.opIndex < 18446744073709551616

-- The fields of the three records are machine words.
structure EnvelopeContent.Words (content : EnvelopeContent) : Prop where
  begin : content.begin.Fits
  operation : ∀ operation ∈ content.operations, operation.Words
  footer : content.footer.Fits

theorem EnvelopeOperation.update_feeds {crc after : EnvelopeCrc32c} {operation : EnvelopeOperation}
    (updated : operation.update crc = .ok after) :
    after = crc.feed operation.record.pieces ∧ (operation.Words → operation.record.Fed) := by
  cases operation with
  | kvRecord record =>
    obtain ⟨rfl,keyFits,valueFits⟩ := updateKvRecord_feeds updated
    exact ⟨rfl,fun words => ⟨words.1,words.2,keyFits,valueFits⟩⟩
  | deleteRecord record =>
    obtain ⟨rfl,keyFits⟩ := updateDeleteRecord_feeds updated
    exact ⟨rfl,fun words => ⟨words.1,words.2,keyFits⟩⟩

theorem updates_feed {crc after : EnvelopeCrc32c} {operations : List EnvelopeOperation}
    (updated : operations.foldlM EnvelopeOperation.update crc = .ok after) :
    after = crc.feed ((operations.map EnvelopeOperation.record).flatMap DecodedRecord.pieces) ∧
      ∀ operation ∈ operations, operation.Words → operation.record.Fed := by
  induction operations generalizing crc with
  | nil =>
    obtain rfl := Except.ok.inj updated
    exact ⟨rfl,fun _ none => by cases none⟩
  | cons operation rest ih =>
    simp only [foldlM_ok_cons] at updated
    obtain ⟨middle,stepped,updated⟩ := updated
    obtain ⟨rfl,fed⟩ := operation.update_feeds stepped
    obtain ⟨rfl,others⟩ := ih updated
    refine ⟨by simp only [List.map_cons,List.flatMap_cons,EnvelopeCrc32c.feed_append],?_⟩
    intro one member
    rcases List.mem_cons.mp member with rfl | member
    · exact fed
    · exact others one member

theorem EnvelopeContent.checksum_feeds {content : EnvelopeContent} {checksum : Nat}
    (computed : content.checksum = .ok checksum) :
    checksum = content.pieces.foldl crc32cAppend (crc32c envelopeCrcMagic) ∧ (content.Words → content.Fits) := by
  simp only [EnvelopeContent.checksum,bind_ok] at computed
  obtain ⟨begun,opened,ended,updated,finished⟩ := computed
  obtain rfl := updateTxBegin_feeds opened
  obtain ⟨rfl,fed⟩ := updates_feed updated
  refine ⟨?_,fun words => ⟨words.begin,fun operation member => fed operation member (words.operation operation member),
    words.footer⟩⟩
  have total : (EnvelopeCrc32c.new.feed content.pieces).checksum = checksum := by
    rw [finishWithFooter_feeds finished]
    simp only [EnvelopeContent.pieces,EnvelopeContent.records,List.flatMap_append,List.flatMap_cons,List.flatMap_nil,
      List.append_nil,DecodedRecord.pieces,EnvelopeCrc32c.feed_append]
  rw [←total,EnvelopeCrc32c.feed_checksum]
  rfl

end checksums

-- The two sides of the checksum.
section sides
variable [Crc32c]

def numberedOperation (commitSeq : Nat) (txUuid : Uuid) (opIndex : Nat) : LogicalOperation → EnvelopeOperation
  | .put key value => .kvRecord ⟨commitSeq,txUuid,opIndex,key,value⟩
  | .delete key => .deleteRecord ⟨commitSeq,txUuid,opIndex,key⟩

def numberedOperations (commitSeq : Nat) (txUuid : Uuid) (opIndex : Nat) : List LogicalOperation → List EnvelopeOperation
  | [] => []
  | operation :: rest =>
    numberedOperation commitSeq txUuid opIndex operation :: numberedOperations commitSeq txUuid (opIndex + 1) rest

omit [Crc32c] in
theorem numberedOperations_records (commitSeq : Nat) (txUuid : Uuid) (opIndex : Nat) (operations : List LogicalOperation) :
    (numberedOperations commitSeq txUuid opIndex operations).map EnvelopeOperation.record =
      operationRecords commitSeq txUuid opIndex operations := by
  induction operations generalizing opIndex with
  | nil => rfl
  | cons operation rest ih =>
    rw [numberedOperations,List.map_cons,ih,operationRecords]
    cases operation <;> rfl

theorem updateOperations_numbered (crc : EnvelopeCrc32c) (commitSeq : Nat) (txUuid : Uuid) (opIndex : Nat)
    (operations : List LogicalOperation) :
    updateOperations crc commitSeq txUuid opIndex operations =
      (numberedOperations commitSeq txUuid opIndex operations).foldlM EnvelopeOperation.update crc := by
  induction operations generalizing crc opIndex with
  | nil => rfl
  | cons operation rest ih =>
    have one : updateOperation crc commitSeq txUuid opIndex operation =
        (numberedOperation commitSeq txUuid opIndex operation).update crc := by cases operation <;> rfl
    simp only [updateOperations,numberedOperations,List.foldlM_cons,one,ih]

-- What the operations of one transaction are to the checksum.
def transactionContent (begin : TxBegin) (operations : List LogicalOperation) (footer : TxPreparedEnd) : EnvelopeContent :=
  ⟨begin,numberedOperations begin.commitSeq begin.txUuid 0 operations,footer⟩

theorem canonicalEnvelopeCrc_checksum (begin : TxBegin) (operations : List LogicalOperation) (footer : TxPreparedEnd) :
    canonicalEnvelopeCrc begin operations footer = (transactionContent begin operations footer).checksum := by
  simp only [canonicalEnvelopeCrc,openedCrc,EnvelopeContent.checksum,transactionContent,updateOperations_numbered,
    bind_assoc]

-- The writer: the records it is about to lay, whatever the place and the geometry.
def PreparedEnvelope.content (envelope : PreparedEnvelope) (operations : List LogicalOperation) : EnvelopeContent :=
  transactionContent
    ⟨envelope.commitSeq,envelope.txUuid,envelope.vlogBegin,operations.length,(distinctKeys operations).length⟩ operations
    ⟨envelope.commitSeq,envelope.txUuid,envelope.vlogBegin,envelope.vlogEnd,operations.length,
      (distinctKeys operations).length,operations.countP LogicalOperation.isPut,
      operations.countP (fun operation => !operation.isPut),envelope.envelopeCrc32c⟩

theorem prepareEnvelope_feeds {planner next : LayoutPlanner} {databaseUuid txUuid : Uuid} {commitSeq : Nat}
    {operations : List LogicalOperation} {envelope : PreparedEnvelope}
    (prepared : prepareEnvelope planner databaseUuid commitSeq txUuid operations = .ok (envelope,next)) :
    (envelope.content operations).checksum = .ok envelope.envelopeCrc32c ∧ envelope.commitSeq = commitSeq ∧
      envelope.txUuid = txUuid ∧ envelope.vlogBegin = planner.position := by
  simp only [prepareEnvelope,bind_ok,exists_unit,rejectIf_ok,mapError_ok,orError_ok,pure_ok,Except.ok.injEq,
    Prod.mk.injEq] at prepared
  obtain ⟨-,-,-,lens,-,planned,-,begun,opened,ended,updated,checksum,finished,-,-,-,-,-,-,-,-,-,-,-,-,-,-,rfl,-⟩ :=
    prepared
  rw [updateOperations_numbered] at updated
  refine ⟨?_,rfl,rfl,rfl⟩
  simp only [EnvelopeContent.checksum,PreparedEnvelope.content,transactionContent,opened,ok_bind,updated]
  exact finished

-- The reader: the records the chunks were decoded to, with or without the page ends between them.
theorem scanPreparedEnvelope_feeds {chunks : List PhysicalChunk} {geometry : VLogGeometry} {databaseUuid : Uuid}
    {vlogBegin vlogEnd : VLogPosition} {expected : Option Nat} {scanned : ScannedEnvelope}
    (accepted : scanPreparedEnvelope chunks geometry databaseUuid vlogBegin vlogEnd expected = .ok scanned) :
    ∃ records, ∃ content : EnvelopeContent, Laid geometry databaseUuid (scanned.commitSeq,scanned.txUuid) chunks records ∧
      transactionRecords records = content.records ∧ content.checksum = .ok scanned.envelopeCrc32c ∧
      content.footer.envelopeCrc32c = scanned.envelopeCrc32c ∧
      scanned.envelopeCrc32c =
        (records.flatMap DecodedRecord.pieces).foldl crc32cAppend (crc32c envelopeCrcMagic) := by
  obtain ⟨-,records,begin,operations,footer,sound⟩ := scanPreparedEnvelope_sound accepted
  have computed := sound.agrees.checksum
  rw [canonicalEnvelopeCrc_checksum,←sound.checksum] at computed
  have ordered : transactionRecords records = (transactionContent begin operations footer).records := by
    rw [sound.ordered,EnvelopeContent.records,transactionContent,numberedOperations_records,sound.identity.1,
      sound.identity.2]
  refine ⟨records,transactionContent begin operations footer,sound.laid,ordered,computed,sound.checksum.symm,?_⟩
  rw [←transactionRecords_pieces,ordered]
  exact (EnvelopeContent.checksum_feeds computed).1

-- The records among chunks, read back from their bytes.
def chunkRecord (geometry : VLogGeometry) (chunk : PhysicalChunk) : Option DecodedRecord :=
  if chunk.position.offset % geometry.pageSize = 0 ∨ chunk.position.offset = 16 then none
  else (decodeRecordAt chunk.bytes chunk.position geometry).toOption

def chunkRecords (geometry : VLogGeometry) (chunks : List PhysicalChunk) : List DecodedRecord :=
  chunks.filterMap (chunkRecord geometry)

theorem Laid.chunkRecords_eq {geometry : VLogGeometry} {databaseUuid : Uuid} {identity : Nat × Uuid}
    {chunks : List PhysicalChunk} {records : List DecodedRecord} (wide : 64 < geometry.pageSize)
    (laid : Laid geometry databaseUuid identity chunks records) : chunkRecords geometry chunks = records := by
  induction laid with
  | nil => rfl
  | page aligned nonzero written rest ih =>
    rw [chunkRecords,List.filterMap_cons_none (by rw [chunkRecord,if_pos (.inl aligned)])]
    exact ih
  | file zero written place header rest ih =>
    rw [chunkRecords,List.filterMap_cons_none (by rw [chunkRecord,if_pos (.inl (by rw [zero,Nat.zero_mod]))]),
      List.filterMap_cons_none (by rw [chunkRecord,if_pos (.inr (by rw [place]))])]
    exact ih
  | @record chunk rest record records holds laid ih =>
    have area := holds.area
    have plain : ¬(chunk.position.offset % geometry.pageSize = 0 ∨ chunk.position.offset = 16) := by
      rintro (aligned | place)
      · rw [aligned] at area
        split at area <;> omega
      · rw [place,if_pos (by omega),Nat.mod_eq_of_lt (by omega)] at area
        omega
    have read : chunkRecord geometry chunk = some record := by
      rw [chunkRecord,if_neg plain,holds.decoded]
      rfl
    rw [chunkRecords,List.filterMap_cons_some read]
    exact congrArg _ ih

theorem Recorded.chunkRecord_eq {commitSeq : Nat} {txUuid : Uuid} {bytes : Bytes} {entry : Entry}
    (recorded : Recorded commitSeq txUuid bytes entry) :
    chunkRecord production ⟨entry.start,bytes⟩ = some entry.record := by
  obtain ⟨header,reads,-,-⟩ := recorded.reads
  obtain ⟨notPage,-,notFile⟩ := recorded.area.notHeader
  rw [chunkRecord,if_neg (fun either => either.elim notPage notFile),reads.decoded]
  rfl

theorem Headers.chunkRecords_eq {databaseUuid : Uuid} {position start : VLogPosition} {headers : List PhysicalChunk}
    (laid : Headers databaseUuid position headers start) : chunkRecords production headers = [] := by
  cases laid with
  | inside area => rfl
  | page bound low inside aligned decoded width =>
    rw [chunkRecords,List.filterMap_cons_none (by rw [chunkRecord,if_pos (.inl aligned)])]
    rfl
  | file stepped bound pageDecoded pageWidth fileDecoded fileWidth =>
    rw [chunkRecords,List.filterMap_cons_none (by rw [chunkRecord,if_pos (.inl rfl)]),
      List.filterMap_cons_none (by rw [chunkRecord,if_pos (.inr rfl)])]
    rfl

theorem Segment.transactionRecords_eq {databaseUuid txUuid : Uuid} {commitSeq : Nat} {position : VLogPosition}
    {chunks : List PhysicalChunk} {entry : Entry}
    (segment : Segment databaseUuid commitSeq txUuid position chunks entry) (transaction : entry.record ≠ .pageEnd) :
    transactionRecords (chunkRecords production chunks) = [entry.record] := by
  have kept : transactionRecords [entry.record] = [entry.record] := by simp [transactionRecords,transaction]
  cases segment with
  | direct headers recorded =>
    have none := headers.chunkRecords_eq
    rw [chunkRecords] at none ⊢
    rw [List.filterMap_append,none,List.nil_append,List.filterMap_cons_some recorded.chunkRecord_eq]
    exact kept
  | padded first isPad padded second recorded =>
    have none := first.chunkRecords_eq
    have noneAfter := second.chunkRecords_eq
    rw [chunkRecords] at none noneAfter ⊢
    rw [List.filterMap_append,none,List.nil_append,List.filterMap_cons_some padded.chunkRecord_eq,List.filterMap_append,
      noneAfter,List.nil_append,List.filterMap_cons_some recorded.chunkRecord_eq,isPad]
    exact kept

theorem Segments.transactionRecords_eq {databaseUuid txUuid : Uuid} {commitSeq : Nat} {position stop : VLogPosition}
    {chunks : List PhysicalChunk} {entries : List Entry}
    (segments : Segments databaseUuid commitSeq txUuid position chunks entries stop)
    (transaction : ∀ entry ∈ entries, entry.record ≠ .pageEnd) :
    transactionRecords (chunkRecords production chunks) = entries.map Entry.record := by
  induction segments with
  | nil => rfl
  | cons segment rest ih =>
    have first := segment.transactionRecords_eq (transaction _ List.mem_cons_self)
    have later := ih (fun entry member => transaction entry (List.mem_cons_of_mem _ member))
    rw [chunkRecords,transactionRecords] at first later ⊢
    rw [List.filterMap_append,List.filter_append,first,later]
    rfl

-- The chunks of a prepared envelope hold the very records its writer hashed.
theorem prepared_records {position : VLogPosition} {next : LayoutPlanner} {databaseUuid txUuid : Uuid}
    {commitSeq : Nat} {operations : List LogicalOperation} {envelope : PreparedEnvelope}
    (seq : commitSeq < 18446744073709551616)
    (prepared : prepareEnvelope ⟨production,position⟩ databaseUuid commitSeq txUuid operations = .ok (envelope,next)) :
    transactionRecords (chunkRecords production envelope.chunks) = (envelope.content operations).records := by
  obtain ⟨built,-⟩ := prepareEnvelope_laid seq prepared
  obtain ⟨beginEntry,entries,footerEntry,segments,begins,footers,numbered,-⟩ := built.laid
  have transaction : ∀ entry ∈ beginEntry :: entries ++ [footerEntry], entry.record ≠ .pageEnd := by
    intro entry member
    rcases List.mem_append.mp member with early | last
    · rcases List.mem_cons.mp early with rfl | member
      · simp [begins]
      · have among : entry.record ∈ operationRecords commitSeq txUuid 0 operations := by
          rw [←numbered]
          exact List.mem_map_of_mem member
        rw [←numberedOperations_records] at among
        obtain ⟨operation,-,same⟩ := List.mem_map.mp among
        rw [←same]
        cases operation <;> simp [EnvelopeOperation.record]
    · rw [List.mem_singleton.mp last,footers]
      simp
  rw [segments.transactionRecords_eq transaction,List.map_append,List.map_cons,begins,List.map_cons,footers,numbered,
    EnvelopeContent.records,PreparedEnvelope.content,transactionContent,numberedOperations_records,built.commitSeq_eq,
    built.txUuid_eq,built.vlogBegin_eq]
  rfl

-- Headers and page ends go by without a trace in the checksum.
theorem scanChunk_feeds_nothing {target : ScanTarget} {state next : ScanState} {chunk : PhysicalChunk} {isLast : Bool}
    (decodable : target.geometry.validateForDecode = .ok ())
    (accepted : state.scanChunk target chunk isLast = .ok next)
    (structural : chunk.position.offset % target.geometry.pageSize = 0 ∨ state.expectingFileHeader = true ∨
      decodeRecordAt chunk.bytes chunk.position target.geometry = .ok .pageEnd) :
    next.envelopeCrc = state.envelopeCrc := by
  obtain ⟨-,-,-,-,-,-,taken⟩ := scanChunk_takes decodable accepted
  obtain ⟨wide,-⟩ := VLogGeometry.validateForDecode_ok decodable
  cases taken with
  | page waiting aligned written => rfl
  | file waiting place written => rfl
  | @record named after header record waiting checked taken holds =>
    have ended : record = .pageEnd := by
      rcases structural with aligned | expecting | decoded
      · have area := holds.area
        rw [aligned] at area
        split at area <;> omega
      · exact Bool.noConfusion (waiting.symm.trans expecting)
      · exact Except.ok.inj (holds.decoded.symm.trans decoded)
    have kept : named.envelopeCrc = state.envelopeCrc := by
      unfold ScanState.checkIdentity at checked
      split at checked
      · simp only [bind_ok,exists_unit,pure_ok,Except.ok.injEq] at checked
        rw [checked.2]
      · rw [←Except.ok.inj checked]
    subst ended
    simp only [ScanState.acceptRecord,bind_ok,exists_unit,pure_ok,Except.ok.injEq,Prod.mk.injEq] at taken
    obtain ⟨-,rfl,-⟩ := taken
    exact kept

end sides

end ExpirKv
