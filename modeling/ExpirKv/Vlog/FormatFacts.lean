import ExpirKv.Vlog.Format

namespace ExpirKv
open VLogGeometry

@[simp] theorem pageHeaderMagic_length : pageHeaderMagic.length = 4 := by decide
@[simp] theorem fileHeaderMagic_length : fileHeaderMagic.length = 8 := by decide
@[simp] theorem recordHeaderMagic_length : recordHeaderMagic.length = 4 := by decide
@[simp] theorem endTrailerMagic_length : endTrailerMagic.length = 4 := by decide
@[simp] theorem Uuid.length (uuid : Uuid) : uuid.val.length = 16 := uuid.property
@[simp] theorem writePosition_length (position : VLogPosition) : (writePosition position).length = 12 := by
  simp [writePosition]

@[simp] theorem RecordType.decode_code (recordType : RecordType) :
    RecordType.decode recordType.code = .ok recordType := by cases recordType <;> rfl

section fields

-- Reading a fixed field: skip what stands before it, then take it.
@[simp] theorem readUint_skip {width : Nat} {first rest : Bytes} {offset : Nat} (past : first.length ≤ offset) :
    readUint width (first ++ rest) offset = readUint width rest (offset - first.length) := by
  simp only [readUint,slice?_skip past]

@[simp] theorem readUint_cons {width : Nat} {first : UInt8} {rest : Bytes} {offset : Nat} (past : 1 ≤ offset) :
    readUint width (first :: rest) offset = readUint width rest (offset - 1) :=
  @readUint_skip width [first] rest offset past

@[simp] theorem readUint_here {width n : Nat} (rest : Bytes) (fits : n < 256 ^ width) :
    readUint width (leBytes width n ++ rest) 0 = .ok n := by
  simp [readUint,slice?_here,leNat_leBytes fits,orError,Except.map]

@[simp] theorem readUint_last {width n : Nat} (fits : n < 256 ^ width) :
    readUint width (leBytes width n) 0 = .ok n := by
  simpa using readUint_here [] fits

theorem readUint_lt {width offset value : Nat} {encoded : Bytes} (read : readUint width encoded offset = .ok value) :
    value < 256 ^ width := by
  unfold readUint at read
  cases taken : slice? encoded offset width with
  | none => simp [taken,orError,Except.map] at read
  | some field =>
    simp only [taken,orError,Except.map,Except.ok.injEq] at read
    have bound := leNat_lt field
    rw [slice?_length taken] at bound
    omega

-- The bytes behind a number are the ones it would be written as.
theorem readUint_slice {width offset value : Nat} {encoded : Bytes}
    (read : readUint width encoded offset = .ok value) :
    slice? encoded offset width = some (leBytes width value) := by
  simp only [readUint,map_ok,orError_ok] at read
  obtain ⟨field,taken,rfl⟩ := read
  have round := leBytes_leNat field
  rw [slice?_length taken] at round
  rw [taken,round]

@[simp] theorem readArray16_skip {first rest : Bytes} {offset : Nat} (past : first.length ≤ offset) :
    readArray16 (first ++ rest) offset = readArray16 rest (offset - first.length) := by
  unfold readArray16
  have bound : offset + 16 ≤ (first ++ rest).length ↔ offset - first.length + 16 ≤ rest.length := by
    simp only [List.length_append]; omega
  simp only [bound,List.drop_append,List.drop_eq_nil_of_le past,List.nil_append]

@[simp] theorem readArray16_cons {first : UInt8} {rest : Bytes} {offset : Nat} (past : 1 ≤ offset) :
    readArray16 (first :: rest) offset = readArray16 rest (offset - 1) :=
  @readArray16_skip [first] rest offset past

@[simp] theorem readArray16_here {uuid : Uuid} {rest : Bytes} : readArray16 (uuid.val ++ rest) 0 = .ok uuid := by
  have inside : 0 + 16 ≤ (uuid.val ++ rest).length := by simp
  simp only [readArray16,dif_pos inside,List.drop_zero]
  congr 1
  exact Subtype.ext (List.take_left' uuid.property)

@[simp] theorem readPosition_skip {first rest : Bytes} {offset : Nat} (past : first.length ≤ offset) :
    readPosition (first ++ rest) offset = readPosition rest (offset - first.length) := by
  have later : first.length ≤ offset + 4 := by omega
  have moved : offset + 4 - first.length = offset - first.length + 4 := by omega
  simp only [readPosition,readU32,readU64,readUint_skip past,readUint_skip later,moved]

@[simp] theorem readPosition_cons {first : UInt8} {rest : Bytes} {offset : Nat} (past : 1 ≤ offset) :
    readPosition (first :: rest) offset = readPosition rest (offset - 1) :=
  @readPosition_skip [first] rest offset past

@[simp] theorem readPosition_here {position : VLogPosition} {rest : Bytes} (file : position.fileId ≤ 999999)
    (bounded : position.offset ≤ 4294967296) :
    readPosition (writePosition position ++ rest) 0 = .ok position := by
  have narrow : position.fileId < 256 ^ 4 := by omega
  have wide : position.offset < 256 ^ 8 := by omega
  simp [readPosition,writePosition,readU32,readU64,readUint_here _ narrow,readUint_here _ wide]

end fields

section checksummed
variable [Crc32c]

@[simp] theorem appendCrc_length (body : Bytes) : (appendCrc body).length = body.length + 4 := by
  simp [appendCrc]

theorem appendCrc_take {body : Bytes} {len : Nat} (width : body.length = len) :
    (appendCrc body).take len = body := List.take_left' width

theorem appendCrc_crc {body : Bytes} {len : Nat} (width : body.length = len) :
    readUint 4 (appendCrc body) len = .ok (crc32c body) := by
  rw [appendCrc,readUint_skip (by omega),width,Nat.sub_self]
  exact readUint_last (crc32c_lt body)

theorem verifyStandardRecordCrc_appendCrc (body : Bytes) :
    verifyStandardRecordCrc (appendCrc body) = .ok () := by
  have cut : (appendCrc body).length - 4 = body.length := by simp
  have long : ¬(appendCrc body).length < 4 := by simp
  simp only [verifyStandardRecordCrc,recordCrcLen,cut,readU32,appendCrc_crc rfl,appendCrc_take rfl,
    rejectIf_false long,ok_bind,ne_eq,not_true_eq_false,not_false_eq_true,rejectIf_false]

theorem PageHeader.decode_encode {header : PageHeader} {encoded : Bytes} (written : header.encode = .ok encoded) :
    PageHeader.decode encoded = .ok header ∧ encoded.length = 16 := by
  simp only [encode,bind_ok,exists_unit,rejectIf_ok,pure_ok,Except.ok.injEq] at written
  obtain ⟨valid,rfl⟩ := written
  obtain ⟨fileId,pageNo⟩ := header
  simp only [maxVlogFileId] at valid
  have file : fileId < 4294967296 := by omega
  have page : pageNo < 4294967296 := by omega
  constructor
  · rw [decode,appendCrc_take (by simp),readU32,appendCrc_crc (by simp)]
    simp [appendCrc,readU32,slice?_here,file,page]
    omega
  · simp

theorem PageHeader.encode_ok {header : PageHeader} (file : header.fileId ≤ 999999) (page : header.pageNo ≤ 65535) :
    ∃ encoded, header.encode = .ok encoded := by
  simp only [encode,bind_ok,exists_unit,rejectIf_ok,pure_ok,Except.ok.injEq,exists_and_left,exists_eq',and_true,
    maxVlogFileId]
  omega

omit [Crc32c] in
theorem VLogFileHeader.validate_new {databaseUuid : Uuid} {fileId : Nat} :
    (new databaseUuid fileId).validate = .ok () ↔ databaseUuid.isZero = false ∧ fileId ≤ 999999 := by
  simp [validate,new]

theorem VLogFileHeader.decode_encode {databaseUuid : Uuid} {fileId : Nat} {encoded : Bytes}
    (written : (new databaseUuid fileId).encode = .ok encoded) :
    VLogFileHeader.decode encoded = .ok (new databaseUuid fileId) ∧ encoded.length = 48 := by
  simp only [encode,bind_ok,exists_unit,mapError_ok,pure_ok,Except.ok.injEq] at written
  obtain ⟨valid,rfl⟩ := written
  have bounds := validate_new.mp valid
  have file : fileId < 4294967296 := by omega
  constructor
  · rw [decode,appendCrc_take (by simp),readU32,appendCrc_crc (by simp)]
    simp only [new,fileFormatVersion,vlogPageSize,maxVlogFileSize] at valid
    simp [appendCrc,readU32,readU64,slice?_here,file,valid,new]
  · simp

theorem VLogFileHeader.encode_ok {databaseUuid : Uuid} {fileId : Nat} (identity : databaseUuid.isZero = false)
    (file : fileId ≤ 999999) : ∃ encoded, (new databaseUuid fileId).encode = .ok encoded := by
  simp [encode,validate_new.mpr ⟨identity,file⟩]

-- A record header is read from any record that starts with it.
theorem RecordHeader.decode_encode {header : RecordHeader} {encoded : Bytes} (rest : Bytes)
    (written : header.encode = .ok encoded)
    (len : header.encodedLen < 4294967296) (seq : header.commitSeq < 18446744073709551616) :
    RecordHeader.decode (encoded ++ rest) = .ok header ∧ encoded.length = 39 := by
  simp only [encode,bind_ok,exists_unit,mapError_ok,pure_ok,Except.ok.injEq] at written
  obtain ⟨valid,rfl⟩ := written
  obtain ⟨formatVersion,recordType,encodedLen,commitSeq,txUuid⟩ := header
  have version : formatVersion = 0 := by
    simp only [validate,bind_ok,exists_unit,rejectIf_ok] at valid
    simpa using valid.1
  subst version
  simp only at len seq
  generalize bodyEq : recordHeaderMagic ++ leBytes 2 0 ++ [recordType.code] ++ leBytes 4 encodedLen ++
    leBytes 8 commitSeq ++ txUuid.val = body
  have width : body.length = 35 := by simp [←bodyEq]
  have cut : (appendCrc body ++ rest).take 35 = body := by
    rw [List.take_append_of_le_length (by simp [width]),appendCrc_take width]
  have crc : readUint 4 (appendCrc body ++ rest) 35 = .ok (crc32c body) := by
    rw [appendCrc,List.append_assoc,readUint_skip (by omega),width,Nat.sub_self]
    exact readUint_here rest (crc32c_lt body)
  have code : (appendCrc body ++ rest)[6]? = some recordType.code := by
    simp only [appendCrc,←bodyEq,List.append_assoc]
    rw [List.getElem?_append_right (by simp),List.getElem?_append_right (by simp)]
    simp
  constructor
  · rw [decode,cut,readU32,crc,code]
    simp only [appendCrc,←bodyEq]
    simp [readU16,readU32,readU64,slice?_here,orError,len,seq,valid]
    omega
  · simp [width]

omit [Crc32c] in
theorem validateIdentity_ok {commitSeq : Nat} {txUuid : Uuid} :
    validateIdentity commitSeq txUuid = .ok () ↔ commitSeq ≠ 0 ∧ txUuid.isZero = false := by
  simp [validateIdentity]

omit [Crc32c] in
theorem VLogPosition.validate_ok {position : VLogPosition} :
    position.validate = .ok () ↔ position.fileId ≤ 999999 ∧ position.offset ≤ 4294967296 := by
  simp [VLogPosition.validate]

-- What a written record answers to both ways of reading it: by its header alone,
-- and decoded whole at its place in the page.
structure ReadsAs (encoded : Bytes) (start : VLogPosition) (header : RecordHeader) (record : DecodedRecord) :
    Prop where
  headed : ∃ front rest, encoded = front ++ rest ∧ front.length = 39 ∧
    ∀ rest, RecordHeader.decode (front ++ rest) = .ok header
  sized : header.encodedLen = encoded.length
  decoded : decodeRecordAt encoded start production = .ok record

theorem ReadsAs.header_decode {encoded : Bytes} {start : VLogPosition} {header : RecordHeader} {record : DecodedRecord}
    (reads : ReadsAs encoded start header record) : RecordHeader.decode encoded = .ok header := by
  obtain ⟨front,rest,rfl,-,decoded⟩ := reads.headed
  exact decoded rest

theorem ReadsAs.front_decode {encoded : Bytes} {start : VLogPosition} {header : RecordHeader} {record : DecodedRecord}
    (reads : ReadsAs encoded start header record) : RecordHeader.decode (encoded.take 39) = .ok header := by
  obtain ⟨front,rest,rfl,width,decoded⟩ := reads.headed
  rw [List.take_left' width]
  simpa using decoded []

theorem ReadsAs.long {encoded : Bytes} {start : VLogPosition} {header : RecordHeader} {record : DecodedRecord}
    (reads : ReadsAs encoded start header record) : 39 ≤ encoded.length := by
  obtain ⟨front,rest,rfl,width,-⟩ := reads.headed
  simp only [List.length_append]
  omega

section records
variable {encoded : Bytes} {start : VLogPosition}

-- The part common to the five records: a header of the right type and length in front
-- of a body that fits its page leaves only the body's own decoder to run.
theorem ReadsAs.of_body {recordType : RecordType} {len commitSeq : Nat} {txUuid : Uuid} {front body : Bytes}
    {record : DecodedRecord} (written : (RecordHeader.new recordType len commitSeq txUuid).encode = .ok front)
    (seq : commitSeq < 18446744073709551616) (area : InRecordArea start) (width : 39 + body.length = len)
    (fits : start.offset + len ≤ (start.offset / 65536 + 1) * 65536)
    (decoded : front.length = 39 →
      decodeRecordBody (front ++ body) start production (.new recordType len commitSeq txUuid) = .ok record) :
    ReadsAs (front ++ body) start (.new recordType len commitSeq txUuid) record := by
  have inside := area.2.1
  have small : len < 4294967296 := by omega
  have header := fun rest => RecordHeader.decode_encode rest written small seq
  have front39 := (header []).2
  have sized : (front ++ body).length = len := by simp only [List.length_append]; omega
  have bounds := validateRecordBounds_production.mpr ⟨area,sized.symm ▸ fits⟩
  refine ⟨⟨front,body,rfl,front39,fun rest => (header rest).1⟩,sized.symm,?_⟩
  simp only [decodeRecordAt,production_validateForDecode,bounds,(header body).1,ok_bind]
  rw [rejectIf_false (by simp [RecordHeader.new,sized]),ok_bind]
  exact decoded front39

-- Four of them end in the checksum of everything before it.
theorem ReadsAs.of_checksummed {recordType : RecordType} {len commitSeq : Nat} {txUuid : Uuid} {front body : Bytes}
    {record : DecodedRecord} (written : (RecordHeader.new recordType len commitSeq txUuid).encode = .ok front)
    (seq : commitSeq < 18446744073709551616) (area : InRecordArea start) (width : 43 + body.length = len)
    (fits : start.offset + len ≤ (start.offset / 65536 + 1) * 65536)
    (decoded : ∀ encoded checksum, encoded = front ++ (body ++ checksum) → front.length = 39 →
      checksum.length = 4 → verifyStandardRecordCrc encoded = .ok () →
      decodeRecordBody encoded start production (.new recordType len commitSeq txUuid) = .ok record) :
    ReadsAs (appendCrc (front ++ body)) start (.new recordType len commitSeq txUuid) record := by
  have verified := verifyStandardRecordCrc_appendCrc (front ++ body)
  rw [appendCrc,List.append_assoc] at *
  refine .of_body written seq area (by simp; omega) fits ?_
  intro front39
  exact decoded _ _ rfl front39 (by simp) verified

theorem encodeTxBegin_reads {begin : TxBegin} (written : encodeTxBegin begin = .ok encoded)
    (seq : begin.commitSeq < 18446744073709551616) (count : begin.logicalOpCount < 18446744073709551616)
    (area : InRecordArea start) (fits : start.offset + 71 ≤ (start.offset / 65536 + 1) * 65536) :
    ReadsAs encoded start (.new .txBegin 71 begin.commitSeq begin.txUuid) (.txBegin begin) := by
  simp only [encodeTxBegin,bind_ok,exists_unit,mapError_ok,pure_ok,Except.ok.injEq] at written
  obtain ⟨valid,front,header,rfl⟩ := written
  have checks := valid
  simp only [validateTxBegin,bind_ok,exists_unit,rejectIf_ok,VLogPosition.validate_ok] at checks
  obtain ⟨-,⟨file,bounded⟩,counts⟩ := checks
  have distinct : begin.distinctKeyCount < 18446744073709551616 := by omega
  refine .of_checksummed header seq area (by simp) fits ?_
  rintro _ checksum rfl front39 - verified
  simp only [List.append_assoc] at verified ⊢
  simp [decodeRecordBody,RecordHeader.new,decodeTxBegin,verified,readU64,front39,file,bounded,
    count,distinct,valid]

theorem encodeKvRecord_reads {record : KvRecord} (written : encodeKvRecord record = .ok encoded)
    (seq : record.commitSeq < 18446744073709551616) (index : record.opIndex < 18446744073709551616)
    (area : InRecordArea start)
    (fits : start.offset + (55 + (record.key.length + record.value.length)) ≤ (start.offset / 65536 + 1) * 65536) :
    ReadsAs encoded start (.new .kvRecord (55 + (record.key.length + record.value.length)) record.commitSeq
      record.txUuid) (.kvRecord record) := by
  simp only [encodeKvRecord,bind_ok,exists_unit,mapError_ok,pure_ok,Except.ok.injEq,rejectIf_ok] at written
  obtain ⟨valid,lens,payload,front,header,rfl⟩ := written
  simp only [maxKeyValueSize] at payload
  have keyLen : record.key.length < 65536 := by omega
  have valueLen : record.value.length < 65536 := by omega
  have nonempty : record.key ≠ [] := by intro empty; simp [empty] at payload
  refine .of_checksummed header seq area (by simp; omega) fits ?_
  rintro _ checksum rfl front39 checksum4 verified
  -- The value's place depends on the key's length, so its slice is stated apart.
  have atValue := slice?_mid (front ++ (leBytes 8 record.opIndex ++ (leBytes 2 record.key.length ++
    (leBytes 2 record.value.length ++ record.key)))) record.value checksum
    (show _ = 51 + record.key.length by simp [front39]; omega) rfl
  simp only [List.append_assoc] at verified atValue ⊢
  simp [decodeRecordBody,RecordHeader.new,decodeKvRecord,verified,atValue,readU64,readU16,front39,checksum4,
    index,keyLen,valueLen,slice?_skip,slice?_here,nonempty]
  omega

theorem encodeDeleteRecord_reads {record : DeleteRecord} (written : encodeDeleteRecord record = .ok encoded)
    (seq : record.commitSeq < 18446744073709551616) (index : record.opIndex < 18446744073709551616)
    (area : InRecordArea start)
    (fits : start.offset + (53 + record.key.length) ≤ (start.offset / 65536 + 1) * 65536) :
    ReadsAs encoded start (.new .deleteRecord (53 + record.key.length) record.commitSeq record.txUuid)
      (.deleteRecord record) := by
  simp only [encodeDeleteRecord,bind_ok,exists_unit,mapError_ok,pure_ok,Except.ok.injEq,rejectIf_ok] at written
  obtain ⟨valid,keyLen,payload,front,header,rfl⟩ := written
  simp only [maxKeyValueSize] at payload
  have nonempty : record.key ≠ [] := by intro empty; simp [empty] at payload
  refine .of_checksummed header seq area (by simp; omega) fits ?_
  rintro _ checksum rfl front39 checksum4 verified
  have short : record.key.length < 65536 := by omega
  simp only [List.append_assoc] at verified ⊢
  simp [decodeRecordBody,RecordHeader.new,decodeDeleteRecord,verified,readU64,readU16,front39,checksum4,
    index,short,slice?_skip,slice?_here,nonempty]
  omega

theorem encodePageEnd_reads {commitSeq : Nat} {txUuid : Uuid}
    (written : encodePageEnd commitSeq txUuid start production = .ok encoded)
    (seq : commitSeq < 18446744073709551616) :
    ReadsAs encoded start (.new .pageEnd encoded.length commitSeq txUuid) .pageEnd ∧
      start.offset + encoded.length = (start.offset / 65536 + 1) * 65536 := by
  simp only [encodePageEnd,bind_ok,exists_unit,mapError_ok,pure_ok,Except.ok.injEq,rejectIf_ok,
    production_validate,true_and,validateRecordStart_production] at written
  obtain ⟨valid,area,endOffset,ended,above,small,large,front,header,rfl⟩ := written
  rw [pageEnd_production area.2.1] at ended
  obtain rfl := Except.ok.inj ended
  simp only [pageEndMinSize] at large
  generalize lenEq : (start.offset / 65536 + 1) * 65536 - start.offset = len at *
  have front39 := (RecordHeader.decode_encode [] header (by simp only [RecordHeader.new]; omega) seq).2
  have sized : (appendCrc (front ++ List.replicate (len - pageEndMinSize) 0)).length = len := by
    simp [front39]; omega
  rw [sized]
  refine ⟨.of_checksummed header seq area (by simp; omega) (by omega) ?_,by omega⟩
  rintro _ checksum rfl - checksum4 verified
  have whole : (front ++ (List.replicate (len - pageEndMinSize) 0 ++ checksum)).length = len := by
    simp [front39,checksum4]; omega
  have padding := slice?_mid front (List.replicate (len - 43) 0) checksum front39
    (show _ = len - 4 - 39 by simp; omega)
  simp only [pageEndMinSize] at whole verified padding ⊢
  simp [decodeRecordBody,RecordHeader.new,decodePageEnd,verified,whole,padding,pageEnd_production area.2.1]
  omega

theorem encodeTxPreparedEnd_reads {footer : TxPreparedEnd} (written : encodeTxPreparedEnd footer = .ok encoded)
    (seq : footer.commitSeq < 18446744073709551616) (count : footer.logicalOpCount < 18446744073709551616)
    (crc : footer.envelopeCrc32c < 4294967296) (area : InRecordArea start)
    (fits : start.offset + 111 ≤ (start.offset / 65536 + 1) * 65536)
    (ends : footer.vlogEnd = ⟨start.fileId,start.offset + 111⟩) :
    ReadsAs encoded start (.new .txPreparedEnd 111 footer.commitSeq footer.txUuid) (.txPreparedEnd footer) := by
  simp only [encodeTxPreparedEnd,bind_ok,exists_unit,mapError_ok,pure_ok,Except.ok.injEq] at written
  obtain ⟨valid,front,header,rfl⟩ := written
  have checks := valid
  simp only [validateTxPreparedEnd,bind_ok,exists_unit,rejectIf_ok,VLogPosition.validate_ok] at checks
  obtain ⟨-,⟨beginFile,beginOffset⟩,⟨endFile,endOffset⟩,counts⟩ := checks
  have distinct : footer.distinctKeyCount < 18446744073709551616 := by omega
  have kv : footer.kvRecordCount < 18446744073709551616 := by omega
  have deletes : footer.deleteRecordCount < 18446744073709551616 := by omega
  have front39 := (RecordHeader.decode_encode [] header (by simp [RecordHeader.new]) seq).2
  generalize bodyEq : writePosition footer.vlogBegin ++ writePosition footer.vlogEnd ++
    leBytes 8 footer.logicalOpCount ++ leBytes 8 footer.distinctKeyCount ++ leBytes 8 footer.kvRecordCount ++
    leBytes 8 footer.deleteRecordCount ++ leBytes 4 footer.envelopeCrc32c = body at *
  have body60 : body.length = 60 := by simp [←bodyEq]
  have trailer8 : (leBytes 4 txPreparedEndEncodedLen ++ endTrailerMagic).length = 8 := by simp
  generalize crcEq : crc32cAppend (crc32c (front ++ body)) (leBytes 4 txPreparedEndEncodedLen ++ endTrailerMagic)
    = checksum
  have narrow : checksum < 4294967296 := by rw [←crcEq]; exact crc32cAppend_lt _ _
  rw [List.append_assoc,List.append_assoc]
  refine .of_body header seq area (by simp [body60]) fits ?_
  intro _
  have cut : (front ++ (body ++ (leBytes 4 checksum ++ (leBytes 4 txPreparedEndEncodedLen ++ endTrailerMagic)))).take 99
      = front ++ body := by
    rw [←List.append_assoc]
    exact List.take_left' (by simp [front39,body60])
  have tail : ((front ++ (body ++ (leBytes 4 checksum ++ (leBytes 4 txPreparedEndEncodedLen ++
      endTrailerMagic)))).drop 103).take 8 = leBytes 4 txPreparedEndEncodedLen ++ endTrailerMagic := by
    rw [←List.append_assoc,←List.append_assoc,List.drop_left' (by simp [front39,body60]),
      List.take_of_length_le (by rw [trailer8])]
  simp only [decodeRecordBody,RecordHeader.new,decodeTxPreparedEnd,cut,tail,crcEq]
  simp only [←bodyEq,List.append_assoc]
  simp [readU32,readU64,front39,slice?_skip,slice?_whole,beginFile,beginOffset,endFile,endOffset,count,distinct,
    kv,deletes,crc,narrow,valid]
  exact rejectIf_false (not_not.mpr ends)

end records

-- On arbitrary bytes a decoder answers only with the three rejectable kinds.
section rejectable

omit [Crc32c] in
@[simp] theorem readUint_fails (width : Nat) (encoded : Bytes) (offset : Nat) :
    FailsWith Rejectable (readUint width encoded offset) := by simp [readUint]

omit [Crc32c] in
@[simp] theorem readArray16_fails (encoded : Bytes) (offset : Nat) :
    FailsWith Rejectable (readArray16 encoded offset) := by
  unfold readArray16
  split <;> simp

omit [Crc32c] in
@[simp] theorem readPosition_fails (encoded : Bytes) (offset : Nat) :
    FailsWith Rejectable (readPosition encoded offset) := by simp [readPosition,readU32,readU64]

omit [Crc32c] in
@[simp] theorem RecordType.decode_fails (encoded : UInt8) : FailsWith Rejectable (RecordType.decode encoded) := by
  unfold RecordType.decode
  split <;> simp

omit [Crc32c] in
@[simp] theorem validateIdentity_fails (commitSeq : Nat) (txUuid : Uuid) :
    FailsWith Rejectable (validateIdentity commitSeq txUuid) := by simp [validateIdentity]

omit [Crc32c] in
@[simp] theorem VLogPosition.validate_fails (position : VLogPosition) : FailsWith Rejectable position.validate := by
  simp [VLogPosition.validate]

omit [Crc32c] in
@[simp] theorem validateTxBegin_fails (begin : TxBegin) : FailsWith Rejectable (validateTxBegin begin) := by
  simp [validateTxBegin]

omit [Crc32c] in
@[simp] theorem validateTxPreparedEnd_fails (footer : TxPreparedEnd) :
    FailsWith Rejectable (validateTxPreparedEnd footer) := by simp [validateTxPreparedEnd]

@[simp] theorem verifyStandardRecordCrc_fails (encoded : Bytes) :
    FailsWith Rejectable (verifyStandardRecordCrc encoded) := by simp [verifyStandardRecordCrc,readU32]

omit [Crc32c] in
@[simp] theorem pageEnd_fails (offset : Nat) (geometry : VLogGeometry) :
    FailsWith Rejectable (pageEnd offset geometry) := by simp [pageEnd]

omit [Crc32c] in
@[simp] theorem validateRecordBounds_fails (encoded : Bytes) (start : VLogPosition) (geometry : VLogGeometry) :
    FailsWith Rejectable (validateRecordBounds encoded start geometry) := by
  simp [validateRecordBounds,validateRecordStart]

@[simp] theorem PageHeader.decode_fails (encoded : Bytes) : FailsWith Rejectable (PageHeader.decode encoded) := by
  simp [PageHeader.decode,readU32]

@[simp] theorem VLogFileHeader.decode_fails (encoded : Bytes) :
    FailsWith Rejectable (VLogFileHeader.decode encoded) := by
  simp [VLogFileHeader.decode,VLogFileHeader.validate,readU32,readU64]

@[simp] theorem RecordHeader.decode_fails (encoded : Bytes) :
    FailsWith Rejectable (RecordHeader.decode encoded) := by
  simp [RecordHeader.decode,RecordHeader.validate,readU16,readU32,readU64]

@[simp] theorem decodeRecordBody_fails (encoded : Bytes) (start : VLogPosition) (geometry : VLogGeometry)
    (header : RecordHeader) : FailsWith Rejectable (decodeRecordBody encoded start geometry header) := by
  unfold decodeRecordBody
  cases header.recordType with
  | txBegin => simp [decodeTxBegin,readU64]
  | kvRecord => simp [decodeKvRecord,readU16,readU64]
  | deleteRecord => simp [decodeDeleteRecord,readU16,readU64]
  | txPreparedEnd => simp [decodeTxPreparedEnd,readU32,readU64]
  | pageEnd => simp [decodePageEnd]

@[simp] theorem decodeRecordAt_fails (encoded : Bytes) (start : VLogPosition) (geometry : VLogGeometry) :
    FailsWith Rejectable (decodeRecordAt encoded start geometry) := by
  simp [decodeRecordAt,VLogGeometry.validateForDecode,VLogGeometry.validate]

@[simp] theorem EnvelopeCrc32c.updateTxBegin_fails (crc : EnvelopeCrc32c) (begin : TxBegin) :
    FailsWith Rejectable (crc.updateTxBegin begin) := by simp [EnvelopeCrc32c.updateTxBegin]

@[simp] theorem EnvelopeCrc32c.updateKvRecord_fails (crc : EnvelopeCrc32c) (record : KvRecord) :
    FailsWith Rejectable (crc.updateKvRecord record) := by simp [EnvelopeCrc32c.updateKvRecord]

@[simp] theorem EnvelopeCrc32c.updateDeleteRecord_fails (crc : EnvelopeCrc32c) (record : DeleteRecord) :
    FailsWith Rejectable (crc.updateDeleteRecord record) := by simp [EnvelopeCrc32c.updateDeleteRecord]

@[simp] theorem EnvelopeCrc32c.finishWithFooter_fails (crc : EnvelopeCrc32c) (footer : TxPreparedEnd) :
    FailsWith Rejectable (crc.finishWithFooter footer) := by simp [EnvelopeCrc32c.finishWithFooter]

end rejectable

end checksummed

namespace ValuePointer

theorem validateFields_ok {pointer : ValuePointer} :
    pointer.validateFields = .ok () ↔ pointer.formatVersion = 0 ∧ pointer.fileId ≤ 999999 ∧
      pointer.recordLen ≤ 60055 ∧ 55 + pointer.valueLen < pointer.recordLen := by
  simp only [validateFields,bind_ok,exists_unit,rejectIf_ok,valuePointerFormatVersion,maxVlogFileId,
    minKvRecordLen,maxKvRecordLen,maxKeyValueSize,kvRecordFixedLenWithCrc]
  omega

theorem encode_ok {pointer : ValuePointer} (valid : pointer.validateFields = .ok ()) :
    ∃ encoded, pointer.encode = .ok encoded := by
  simp [encode,valid]

theorem decode_encode {pointer : ValuePointer} {encoded : Bytes} (written : pointer.encode = .ok encoded)
    (offset : pointer.recordOffset < 4294967296) :
    ValuePointer.decode encoded = .ok pointer ∧ encoded.length = 16 := by
  simp only [encode,bind_ok,exists_unit,mapError_ok,pure_ok,Except.ok.injEq] at written
  obtain ⟨valid,rfl⟩ := written
  obtain ⟨version,file,len,value⟩ := validateFields_ok.mp valid
  have fileId : pointer.fileId < 4294967296 := by omega
  have recordLen : pointer.recordLen < 4294967296 := by omega
  have valueLen : pointer.valueLen < 65536 := by omega
  refine ⟨?_,by simp⟩
  simp [decode,readU16,readU32,version,fileId,offset,recordLen,valueLen]
  simp [←version,valid]

-- The encoding is canonical: no other string is read as the same pointer.
theorem encode_decode {pointer : ValuePointer} {encoded : Bytes} (read : ValuePointer.decode encoded = .ok pointer) :
    pointer.encode = .ok encoded := by
  simp only [decode,bind_ok,exists_unit,rejectIf_ok,readU16,readU32,pure_ok,Except.ok.injEq,
    valuePointerEncodedLen] at read
  obtain ⟨width,version,first,-,fileId,second,recordOffset,third,recordLen,fourth,valueLen,fifth,valid,rfl⟩ := read
  have split : encoded = leBytes 2 version ++ (leBytes 4 fileId ++ (leBytes 4 recordOffset ++
      (leBytes 4 recordLen ++ (leBytes 2 valueLen ++ encoded.drop 16)))) := by
    have at0 := drop_eq_slice (readUint_slice first)
    have at2 := drop_eq_slice (readUint_slice second)
    have at6 := drop_eq_slice (readUint_slice third)
    have at10 := drop_eq_slice (readUint_slice fourth)
    have at14 := drop_eq_slice (readUint_slice fifth)
    simp only [List.drop_zero,Nat.zero_add,Nat.reduceAdd] at at0 at2 at6 at10 at14
    rw [←at14,←at10,←at6,←at2,←at0]
  have done : encoded.drop 16 = [] := List.drop_eq_nil_of_le (by omega)
  rw [done] at split
  simp only [encode,valid,Except.mapError,ok_bind,pure_ok]
  rw [split]
  simp

theorem decode_offset {pointer : ValuePointer} {encoded : Bytes} (read : ValuePointer.decode encoded = .ok pointer) :
    pointer.recordOffset < 4294967296 ∧ pointer.validateFields = .ok () := by
  simp only [decode,bind_ok,exists_unit,rejectIf_ok,readU16,readU32,pure_ok,Except.ok.injEq] at read
  obtain ⟨-,version,-,-,fileId,-,recordOffset,offset,recordLen,-,valueLen,-,valid,rfl⟩ := read
  exact ⟨readUint_lt offset,valid⟩

end ValuePointer

end ExpirKv
