import ExpirKv.Vlog.FormatFacts

namespace ExpirKv
open VLogGeometry

-- The other direction of the codecs: what a decoder accepts is what the encoder writes.
section fields

theorem readUint_split {width offset value : Nat} {encoded : Bytes} (read : readUint width encoded offset = .ok value) :
    encoded.drop offset = leBytes width value ++ encoded.drop (offset + width) := drop_eq_slice (readUint_slice read)

theorem readArray16_split {offset : Nat} {encoded : Bytes} {uuid : Uuid} (read : readArray16 encoded offset = .ok uuid) :
    encoded.drop offset = uuid.val ++ encoded.drop (offset + 16) := by
  unfold readArray16 at read
  split at read
  · obtain rfl := Except.ok.inj read
    rw [←List.drop_drop,List.take_append_drop]
  · cases read

theorem readPosition_split {offset : Nat} {encoded : Bytes} {position : VLogPosition}
    (read : readPosition encoded offset = .ok position) :
    encoded.drop offset = writePosition position ++ encoded.drop (offset + 12) := by
  simp only [readPosition,readU32,readU64,bind_ok,pure_ok,Except.ok.injEq] at read
  obtain ⟨fileId,first,place,second,rfl⟩ := read
  rw [readUint_split first,readUint_split second,writePosition,List.append_assoc]

theorem getElem_split {offset : Nat} {encoded : Bytes} {byte : UInt8} (read : encoded[offset]? = some byte) :
    encoded.drop offset = byte :: encoded.drop (offset + 1) := by
  obtain ⟨bound,rfl⟩ := List.getElem?_eq_some_iff.mp read
  exact List.drop_eq_getElem_cons bound

theorem RecordType.decode_canonical {encoded : UInt8} {recordType : RecordType}
    (read : RecordType.decode encoded = .ok recordType) : recordType.code = encoded := by
  unfold RecordType.decode at read
  split at read
  case h_6 => cases read
  all_goals obtain rfl := Except.ok.inj read; rfl

end fields

section checked
variable [Crc32c]

-- The header in front of a record, with the raw slices it takes inside the record.
theorem RecordHeader.decode_canonical {encoded : Bytes} {header : RecordHeader}
    (read : RecordHeader.decode encoded = .ok header) :
    header.encode = .ok (encoded.take 39) ∧ 39 ≤ encoded.length ∧ header.commitSeq < 18446744073709551616 ∧
      header.encodedLen < 4294967296 ∧ header = .new header.recordType header.encodedLen header.commitSeq header.txUuid ∧
      header.commitSeq ≠ 0 ∧ header.txUuid.isZero = false := by
  simp only [decode,bind_ok,exists_unit,rejectIf_ok,orError_ok,readU16,readU32,readU64,pure_ok,Except.ok.injEq,not_or,
    not_not,ne_eq,recordHeaderEncodedLen,Nat.not_lt,vlogFormatVersion] at read
  obtain ⟨⟨long,magic⟩,storedCrc,crcRead,checksum,version,versionRead,rfl,typeCode,typeRead,recordType,typeDecoded,
    encodedLen,lenRead,commitSeq,seqRead,txUuid,uuidRead,valid,rfl⟩ := read
  have split : encoded = (recordHeaderMagic ++ leBytes 2 0 ++ [recordType.code] ++ leBytes 4 encodedLen ++
      leBytes 8 commitSeq ++ txUuid.val) ++ (leBytes 4 storedCrc ++ encoded.drop 39) := by
    have at0 := drop_eq_slice magic
    have at4 := readUint_split versionRead
    have at6 := getElem_split typeRead
    have at7 := readUint_split lenRead
    have at11 := readUint_split seqRead
    have at19 := readArray16_split uuidRead
    have at35 := readUint_split crcRead
    simp only [List.drop_zero,Nat.zero_add,Nat.reduceAdd] at at0 at4 at6 at7 at11 at19 at35
    rw [RecordType.decode_canonical typeDecoded]
    simp only [List.append_assoc,List.cons_append,List.nil_append]
    rw [←at35,←at19,←at11,←at7,←at6,←at4,←at0]
  have width : (recordHeaderMagic ++ leBytes 2 0 ++ [recordType.code] ++ leBytes 4 encodedLen ++
      leBytes 8 commitSeq ++ txUuid.val).length = 35 := by simp
  have body : encoded.take 35 = recordHeaderMagic ++ leBytes 2 0 ++ [recordType.code] ++ leBytes 4 encodedLen ++
      leBytes 8 commitSeq ++ txUuid.val := by
    rw [split]
    exact List.take_left' width
  have front : encoded.take 39 = appendCrc (recordHeaderMagic ++ leBytes 2 0 ++ [recordType.code] ++
      leBytes 4 encodedLen ++ leBytes 8 commitSeq ++ txUuid.val) := by
    rw [appendCrc,←body,checksum,body,split,←List.append_assoc]
    exact List.take_left' (by simp)
  have identity := valid
  simp only [validate,bind_ok,exists_unit,rejectIf_ok,not_or,Bool.not_eq_true] at identity
  refine ⟨?_,long,readUint_lt seqRead,readUint_lt lenRead,rfl,identity.2⟩
  rw [front,encode,valid]
  rfl

-- A header whose last four bytes are the checksum of the rest, put together from what was read of it.
theorem sealed_canonical {encoded body : Bytes} {len storedCrc : Nat} (width : body.length = len)
    (whole : encoded = body ++ (leBytes 4 storedCrc ++ encoded.drop (len + 4))) (sized : encoded.length = len + 4)
    (checksum : crc32c (encoded.take len) = storedCrc) : encoded = appendCrc body := by
  have front : encoded.take len = body := by
    rw [whole]
    exact List.take_left' width
  have done : encoded.drop (len + 4) = [] := List.drop_eq_nil_of_le (by omega)
  rw [done,List.append_nil,←checksum,front] at whole
  exact whole

theorem PageHeader.decode_canonical {encoded : Bytes} {header : PageHeader}
    (read : PageHeader.decode encoded = .ok header) : header.encode = .ok encoded := by
  simp only [decode,readU32,bind_ok,exists_unit,rejectIf_ok,pure_ok,Except.ok.injEq,not_or,not_not,ne_eq,
    pageHeaderEncodedLen] at read
  obtain ⟨⟨sized,magic⟩,storedCrc,crcRead,checksum,fileId,fileRead,pageNo,pageRead,bounds,rfl⟩ := read
  have whole : encoded = (pageHeaderMagic ++ leBytes 4 fileId ++ leBytes 4 pageNo) ++
      (leBytes 4 storedCrc ++ encoded.drop (12 + 4)) := by
    have at0 := drop_eq_slice magic
    have at4 := readUint_split fileRead
    have at8 := readUint_split pageRead
    have at12 := readUint_split crcRead
    simp only [List.drop_zero,Nat.zero_add,Nat.reduceAdd] at at0 at4 at8 at12 ⊢
    simp only [List.append_assoc]
    rw [←at12,←at8,←at4,←at0]
  have accepted : ¬(fileId > maxVlogFileId ∨ pageNo > 65535) := by omega
  rw [encode,rejectIf_false accepted,ok_bind,pure_ok,←sealed_canonical (by simp) whole sized checksum]

theorem VLogFileHeader.decode_canonical {encoded : Bytes} {header : VLogFileHeader}
    (read : VLogFileHeader.decode encoded = .ok header) :
    header = .new header.databaseUuid header.fileId ∧ header.encode = .ok encoded := by
  simp only [decode,readU32,readU64,bind_ok,exists_unit,rejectIf_ok,pure_ok,Except.ok.injEq,not_or,not_not,ne_eq,
    fileHeaderEncodedLen,fileFormatVersion] at read
  obtain ⟨⟨sized,magic⟩,storedCrc,crcRead,checksum,version,versionRead,rfl,databaseUuid,uuidRead,fileId,fileRead,
    pageSize,pageRead,maxFileSize,maxRead,valid,rfl⟩ := read
  have whole : encoded = (fileHeaderMagic ++ leBytes 4 0 ++ databaseUuid.val ++ leBytes 4 fileId ++
      leBytes 4 pageSize ++ leBytes 8 maxFileSize) ++ (leBytes 4 storedCrc ++ encoded.drop (44 + 4)) := by
    have at0 := drop_eq_slice magic
    have at8 := readUint_split versionRead
    have at12 := readArray16_split uuidRead
    have at28 := readUint_split fileRead
    have at32 := readUint_split pageRead
    have at36 := readUint_split maxRead
    have at44 := readUint_split crcRead
    simp only [List.drop_zero,Nat.zero_add,Nat.reduceAdd] at at0 at8 at12 at28 at32 at36 at44 ⊢
    simp only [List.append_assoc]
    rw [←at44,←at36,←at32,←at28,←at12,←at8,←at0]
  have fixed := valid
  simp only [validate,bind_ok,exists_unit,rejectIf_ok,not_or,not_not,ne_eq] at fixed
  obtain ⟨-,-,-,rfl,rfl⟩ := fixed
  refine ⟨rfl,?_⟩
  rw [encode,valid]
  simp only [Except.mapError,ok_bind,pure_ok]
  rw [←sealed_canonical (by simp) whole sized checksum]

-- Four of the records end in the checksum of all that stands before it.
theorem verifyStandardRecordCrc_canonical {encoded : Bytes} (verified : verifyStandardRecordCrc encoded = .ok ()) :
    encoded = appendCrc (encoded.take (encoded.length - 4)) := by
  simp only [verifyStandardRecordCrc,readU32,bind_ok,exists_unit,rejectIf_ok,recordCrcLen,not_not,Nat.not_lt,
    ne_eq] at verified
  obtain ⟨long,storedCrc,read,rfl⟩ := verified
  have last := readUint_split read
  have done : encoded.drop (encoded.length - 4 + 4) = [] := List.drop_eq_nil_of_le (by omega)
  rw [done,List.append_nil] at last
  rw [appendCrc,←last,List.take_append_drop]

-- A record of header, body and checksum, put together again from what was read of it.
theorem checksummed_canonical {encoded body : Bytes} (verified : verifyStandardRecordCrc encoded = .ok ())
    (split : encoded.drop 39 = body ++ encoded.drop (encoded.length - 4)) (long : 43 ≤ encoded.length) :
    encoded = appendCrc (encoded.take 39 ++ body) := by
  have whole : encoded = (encoded.take 39 ++ body) ++ encoded.drop (encoded.length - 4) := by
    rw [List.append_assoc,←split,List.take_append_drop]
  have width : (encoded.take 39 ++ body).length = encoded.length - 4 := by
    have count := congrArg List.length whole
    simp only [List.length_append,List.length_drop] at count ⊢
    omega
  have front : encoded.take (encoded.length - 4) = encoded.take 39 ++ body := by
    have cut := congrArg (List.take (encoded.length - 4)) whole
    rwa [List.take_left' width] at cut
  rw [←front]
  exact verifyStandardRecordCrc_canonical verified

variable {encoded : Bytes} {header : RecordHeader}

theorem decodeTxBegin_canonical {begin : TxBegin} (headed : RecordHeader.decode encoded = .ok header)
    (sized : header.encodedLen = encoded.length) (typed : header.recordType = .txBegin)
    (read : decodeTxBegin encoded header = .ok begin) :
    encodeTxBegin begin = .ok encoded ∧ begin.commitSeq = header.commitSeq ∧ begin.txUuid = header.txUuid := by
  obtain ⟨written,-,-,-,formed,-,-⟩ := RecordHeader.decode_canonical headed
  simp only [decodeTxBegin,readU64,bind_ok,exists_unit,rejectIf_ok,pure_ok,Except.ok.injEq,not_not,ne_eq,
    txBeginEncodedLen] at read
  obtain ⟨len,verified,vlogBegin,beginRead,logicalOpCount,logicalRead,distinctKeyCount,distinctRead,valid,rfl⟩ := read
  have split : encoded.drop 39 = (writePosition vlogBegin ++ leBytes 8 logicalOpCount ++ leBytes 8 distinctKeyCount) ++
      encoded.drop (encoded.length - 4) := by
    have at39 := readPosition_split beginRead
    have at51 := readUint_split logicalRead
    have at59 := readUint_split distinctRead
    simp only [Nat.reduceAdd] at at39 at51 at59
    rw [←sized,len,List.append_assoc,List.append_assoc,←at59,←at51,←at39]
  refine ⟨?_,rfl,rfl⟩
  rw [typed,len] at formed
  rw [formed] at written
  simp only [encodeTxBegin,valid,Except.mapError,ok_bind,written,pure_ok,txBeginEncodedLen]
  rw [←checksummed_canonical verified split (by omega)]

theorem decodeKvRecord_canonical {record : KvRecord} (headed : RecordHeader.decode encoded = .ok header)
    (sized : header.encodedLen = encoded.length) (typed : header.recordType = .kvRecord)
    (read : decodeKvRecord encoded header = .ok record) :
    encodeKvRecord record = .ok encoded ∧ record.commitSeq = header.commitSeq ∧ record.txUuid = header.txUuid := by
  obtain ⟨written,-,-,-,formed,identity⟩ := RecordHeader.decode_canonical headed
  simp only [decodeKvRecord,readU16,readU64,bind_ok,exists_unit,rejectIf_ok,orError_ok,pure_ok,Except.ok.injEq,not_not,
    ne_eq,maxKeyValueSize] at read
  obtain ⟨-,keyLen,keyLenRead,valueLen,valueLenRead,payload,len,verified,key,keyRead,value,valueRead,opIndex,indexRead,
    rfl⟩ := read
  have keyWidth := slice?_length keyRead
  have valueWidth := slice?_length valueRead
  have split : encoded.drop 39 = (leBytes 8 opIndex ++ leBytes 2 keyLen ++ leBytes 2 valueLen ++ key ++ value) ++
      encoded.drop (encoded.length - 4) := by
    have at39 := readUint_split indexRead
    have at47 := readUint_split keyLenRead
    have at49 := readUint_split valueLenRead
    have at51 := drop_eq_slice keyRead
    have later := drop_eq_slice valueRead
    simp only [Nat.reduceAdd] at at39 at47 at49
    rw [show encoded.length - 4 = 51 + keyLen + valueLen by omega]
    simp only [List.append_assoc]
    rw [←later,←at51,←at49,←at47,←at39]
  refine ⟨?_,rfl,rfl⟩
  rw [typed,show header.encodedLen = kvRecordFixedLenWithCrc + (key.length + value.length) by
    simp only [kvRecordFixedLenWithCrc]; omega] at formed
  rw [formed] at written
  have accepted : validateIdentity header.commitSeq header.txUuid = .ok () := validateIdentity_ok.mpr identity
  simp only [encodeKvRecord,accepted,Except.mapError,ok_bind,pure_ok,maxKeyValueSize,keyWidth,valueWidth]
  simp only [keyWidth,valueWidth] at written
  rw [rejectIf_false (by omega),ok_bind,rejectIf_false payload,ok_bind,written,ok_bind]
  rw [←checksummed_canonical verified split (by omega)]

theorem decodeDeleteRecord_canonical {record : DeleteRecord} (headed : RecordHeader.decode encoded = .ok header)
    (sized : header.encodedLen = encoded.length) (typed : header.recordType = .deleteRecord)
    (read : decodeDeleteRecord encoded header = .ok record) :
    encodeDeleteRecord record = .ok encoded ∧ record.commitSeq = header.commitSeq ∧ record.txUuid = header.txUuid := by
  obtain ⟨written,-,-,-,formed,identity⟩ := RecordHeader.decode_canonical headed
  simp only [decodeDeleteRecord,readU16,readU64,bind_ok,exists_unit,rejectIf_ok,orError_ok,pure_ok,Except.ok.injEq,
    not_not,ne_eq,maxKeyValueSize] at read
  obtain ⟨-,keyLen,keyLenRead,payload,len,verified,key,keyRead,opIndex,indexRead,rfl⟩ := read
  have keyWidth := slice?_length keyRead
  have split : encoded.drop 39 = (leBytes 8 opIndex ++ leBytes 2 keyLen ++ key) ++
      encoded.drop (encoded.length - 4) := by
    have at39 := readUint_split indexRead
    have at47 := readUint_split keyLenRead
    have at49 := drop_eq_slice keyRead
    simp only [Nat.reduceAdd] at at39 at47
    rw [show encoded.length - 4 = 49 + keyLen by omega]
    simp only [List.append_assoc]
    rw [←at49,←at47,←at39]
  refine ⟨?_,rfl,rfl⟩
  rw [typed,show header.encodedLen = 53 + key.length by omega] at formed
  rw [formed] at written
  have accepted : validateIdentity header.commitSeq header.txUuid = .ok () := validateIdentity_ok.mpr identity
  simp only [encodeDeleteRecord,accepted,Except.mapError,ok_bind,pure_ok,maxKeyValueSize,keyWidth]
  simp only [keyWidth] at written
  rw [rejectIf_false (by omega),ok_bind,rejectIf_false payload,ok_bind,written,ok_bind]
  rw [←checksummed_canonical verified split (by omega)]

-- The footer alone puts its checksum in front of the trailer.
theorem decodeTxPreparedEnd_canonical {footer : TxPreparedEnd} (headed : RecordHeader.decode encoded = .ok header)
    (sized : header.encodedLen = encoded.length) (typed : header.recordType = .txPreparedEnd)
    (read : decodeTxPreparedEnd encoded header = .ok footer) :
    encodeTxPreparedEnd footer = .ok encoded ∧ footer.commitSeq = header.commitSeq ∧ footer.txUuid = header.txUuid := by
  obtain ⟨written,-,-,-,formed,-,-⟩ := RecordHeader.decode_canonical headed
  simp only [decodeTxPreparedEnd,readU32,readU64,bind_ok,exists_unit,rejectIf_ok,pure_ok,Except.ok.injEq,not_or,not_not,
    ne_eq,txPreparedEndEncodedLen] at read
  obtain ⟨⟨len,magic⟩,_,trailerRead,rfl,storedCrc,crcRead,checksum,vlogBegin,beginRead,vlogEnd,endRead,
    logicalOpCount,logicalRead,distinctKeyCount,distinctRead,kvRecordCount,kvRead,deleteRecordCount,deleteRead,
    envelopeCrc32c,envelopeRead,valid,rfl⟩ := read
  generalize bodyEq : writePosition vlogBegin ++ writePosition vlogEnd ++ leBytes 8 logicalOpCount ++
    leBytes 8 distinctKeyCount ++ leBytes 8 kvRecordCount ++ leBytes 8 deleteRecordCount ++
    leBytes 4 envelopeCrc32c = body
  have trailer : encoded.drop 103 = leBytes 4 111 ++ endTrailerMagic := by
    have at103 := readUint_split trailerRead
    have at107 := drop_eq_slice magic
    simp only [Nat.reduceAdd] at at103 at107
    rw [List.drop_eq_nil_of_le (show encoded.length ≤ 111 by omega),List.append_nil] at at107
    rw [at103,at107]
  have split : encoded = (encoded.take 39 ++ body) ++ (leBytes 4 storedCrc ++ (leBytes 4 111 ++ endTrailerMagic)) := by
    have at39 := readPosition_split beginRead
    have at51 := readPosition_split endRead
    have at63 := readUint_split logicalRead
    have at71 := readUint_split distinctRead
    have at79 := readUint_split kvRead
    have at87 := readUint_split deleteRead
    have at95 := readUint_split envelopeRead
    have at99 := readUint_split crcRead
    simp only [Nat.reduceAdd] at at39 at51 at63 at71 at79 at87 at95 at99
    rw [←trailer,←at99,←bodyEq]
    simp only [List.append_assoc]
    rw [←at95,←at87,←at79,←at71,←at63,←at51,←at39,List.take_append_drop]
  have width : (encoded.take 39 ++ body).length = 99 := by
    simp only [←bodyEq,List.length_append,List.length_take,writePosition_length,leBytes_length]
    omega
  have front : encoded.take 99 = encoded.take 39 ++ body := by
    have cut := congrArg (List.take 99) split
    rwa [List.take_left' width] at cut
  have behind : (encoded.drop 103).take 8 = leBytes 4 111 ++ endTrailerMagic := by
    rw [trailer]
    exact List.take_of_length_le (by simp)
  refine ⟨?_,rfl,rfl⟩
  rw [typed,len] at formed
  rw [formed] at written
  rw [front,behind] at checksum
  simp only [encodeTxPreparedEnd,valid,Except.mapError,ok_bind,written,pure_ok,txPreparedEndEncodedLen,bodyEq]
  rw [←checksum,List.append_assoc,←split]

theorem decodePageEnd_canonical {start : VLogPosition} {geometry : VLogGeometry}
    (headed : RecordHeader.decode encoded = .ok header) (sized : header.encodedLen = encoded.length)
    (typed : header.recordType = .pageEnd) (accepted : geometry.validate = .ok ())
    (started : validateRecordStart start geometry = .ok ()) (read : decodePageEnd encoded start geometry = .ok ()) :
    encodePageEnd header.commitSeq header.txUuid start geometry = .ok encoded := by
  obtain ⟨written,-,-,-,formed,identity⟩ := RecordHeader.decode_canonical headed
  simp only [decodePageEnd,bind_ok,exists_unit,rejectIf_ok,orError_ok,not_not,ne_eq,pageEndMinSize,recordCrcLen,
    recordHeaderEncodedLen,List.any_eq_true,bne_iff_ne,not_exists,not_and] at read
  obtain ⟨small,large,endOffset,ended,reaches,padding,paddingRead,zeros,verified⟩ := read
  have paddingWidth := slice?_length paddingRead
  have blank : padding = List.replicate (encoded.length - pageEndMinSize) 0 := by
    rw [show encoded.length - pageEndMinSize = padding.length by simp only [pageEndMinSize]; omega]
    exact List.eq_replicate_of_mem zeros
  have split : encoded.drop 39 = padding ++ encoded.drop (encoded.length - 4) := by
    have at39 := drop_eq_slice paddingRead
    rwa [show 39 + (encoded.length - 4 - 39) = encoded.length - 4 by omega] at at39
  have whole := checksummed_canonical verified split (by omega)
  have valid : validateIdentity header.commitSeq header.txUuid = .ok () := validateIdentity_ok.mpr identity
  have length : endOffset - start.offset = encoded.length := by omega
  rw [typed,sized] at formed
  rw [formed] at written
  simp only [encodePageEnd,valid,accepted,started,ended,Except.mapError,ok_bind,length,pure_ok]
  rw [rejectIf_false (by omega),ok_bind,rejectIf_false (by omega),ok_bind,
    rejectIf_false (by simp only [pageEndMinSize]; omega),ok_bind,written,ok_bind,←blank,←whole]

-- The encoder of a decoded record. A page end carries nothing of its own, so it takes the
-- identity of its transaction and its place.
def encodeRecordAt (commitSeq : Nat) (txUuid : Uuid) (start : VLogPosition) (geometry : VLogGeometry) :
    DecodedRecord → Result Bytes
  | .txBegin begin => encodeTxBegin begin
  | .kvRecord record => encodeKvRecord record
  | .deleteRecord record => encodeDeleteRecord record
  | .txPreparedEnd footer => encodeTxPreparedEnd footer
  | .pageEnd => encodePageEnd commitSeq txUuid start geometry

def DecodedRecord.encodedLen (start : VLogPosition) : DecodedRecord → Nat
  | .txBegin _ => 71
  | .kvRecord record => 55 + (record.key.length + record.value.length)
  | .deleteRecord record => 53 + record.key.length
  | .txPreparedEnd _ => 111
  | .pageEnd => (start.offset / 65536 + 1) * 65536 - start.offset

def ValidIdentity (commitSeq : Nat) (txUuid : Uuid) : Prop :=
  commitSeq ≠ 0 ∧ commitSeq < 18446744073709551616 ∧ txUuid.isZero = false

-- The contents each record may have. The end of a footer is the place behind it.
def DecodedRecord.Valid (commitSeq : Nat) (txUuid : Uuid) (start : VLogPosition) : DecodedRecord → Prop
  | .txBegin begin => ValidIdentity begin.commitSeq begin.txUuid ∧ begin.vlogBegin.isValid = true ∧
      0 < begin.distinctKeyCount ∧ begin.distinctKeyCount ≤ begin.logicalOpCount ∧
      begin.logicalOpCount < 18446744073709551616
  | .kvRecord record => ValidIdentity record.commitSeq record.txUuid ∧ record.opIndex < 18446744073709551616 ∧
      record.key ≠ [] ∧ record.key.length + record.value.length ≤ 60000
  | .deleteRecord record => ValidIdentity record.commitSeq record.txUuid ∧ record.opIndex < 18446744073709551616 ∧
      record.key ≠ [] ∧ record.key.length ≤ 60000
  | .txPreparedEnd footer => ValidIdentity footer.commitSeq footer.txUuid ∧ footer.vlogBegin.isValid = true ∧
      footer.vlogBegin < footer.vlogEnd ∧ footer.vlogEnd = ⟨start.fileId,start.offset + 111⟩ ∧
      0 < footer.distinctKeyCount ∧ footer.distinctKeyCount ≤ footer.logicalOpCount ∧
      footer.logicalOpCount < 18446744073709551616 ∧
      footer.kvRecordCount + footer.deleteRecordCount = footer.logicalOpCount ∧ footer.envelopeCrc32c < 4294967296
  | .pageEnd => ValidIdentity commitSeq txUuid ∧ start.offset + 43 ≤ (start.offset / 65536 + 1) * 65536

-- A record stands in the record area of one page.
def DecodedRecord.FitsPage (start : VLogPosition) (record : DecodedRecord) : Prop :=
  InRecordArea start ∧ start.offset + record.encodedLen start ≤ (start.offset / 65536 + 1) * 65536

theorem RecordHeader.encode_ok {recordType : RecordType} {len commitSeq : Nat} {txUuid : Uuid}
    (identity : ValidIdentity commitSeq txUuid) :
    ∃ encoded, (RecordHeader.new recordType len commitSeq txUuid).encode = .ok encoded := by
  simp [RecordHeader.encode,RecordHeader.new,RecordHeader.validate,identity.1,identity.2.2]

omit [Crc32c] in
theorem ValidIdentity.accepted {commitSeq : Nat} {txUuid : Uuid} (identity : ValidIdentity commitSeq txUuid) :
    validateIdentity commitSeq txUuid = .ok () := validateIdentity_ok.mpr ⟨identity.1,identity.2.2⟩

-- Every valid content has an encoding.
theorem encodeRecordAt_ok {record : DecodedRecord} {commitSeq : Nat} {txUuid : Uuid} {start : VLogPosition}
    (valid : record.Valid commitSeq txUuid start) (fits : record.FitsPage start) :
    ∃ encoded, encodeRecordAt commitSeq txUuid start production record = .ok encoded := by
  obtain ⟨area,inside⟩ := fits
  cases record with
  | txBegin begin =>
    obtain ⟨identity,begins,some,ordered,-⟩ := valid
    have bounds := VLogPosition.validate_ok.mpr (VLogPosition.isValid_iff.mp begins)
    have accepted : validateTxBegin begin = .ok () := by
      rw [validateTxBegin,identity.accepted,ok_bind,bounds,ok_bind,rejectIf_false (by omega)]
    obtain ⟨front,written⟩ := @RecordHeader.encode_ok _ .txBegin 71 _ _ identity
    exact ⟨_,by simp only [encodeRecordAt,encodeTxBegin,accepted,Except.mapError,ok_bind,written,pure_ok]; rfl⟩
  | kvRecord record =>
    obtain ⟨identity,-,named,payload⟩ := valid
    have positive := List.length_pos_iff.mpr named
    obtain ⟨front,written⟩ := @RecordHeader.encode_ok _ .kvRecord (55 + (record.key.length + record.value.length)) _ _
      identity
    simp only [encodeRecordAt,encodeKvRecord,identity.accepted,Except.mapError,ok_bind,maxKeyValueSize]
    rw [rejectIf_false (by omega),ok_bind,rejectIf_false (by omega),ok_bind,written,ok_bind,pure_ok]
    exact ⟨_,rfl⟩
  | deleteRecord record =>
    obtain ⟨identity,-,named,payload⟩ := valid
    have positive := List.length_pos_iff.mpr named
    obtain ⟨front,written⟩ := @RecordHeader.encode_ok _ .deleteRecord (53 + record.key.length) _ _ identity
    simp only [encodeRecordAt,encodeDeleteRecord,identity.accepted,Except.mapError,ok_bind,maxKeyValueSize]
    rw [rejectIf_false (by omega),ok_bind,rejectIf_false (by omega),ok_bind,written,ok_bind,pure_ok]
    exact ⟨_,rfl⟩
  | txPreparedEnd footer =>
    obtain ⟨identity,begins,ordered,ends,some,counted,-,total,-⟩ := valid
    have beginBounds := VLogPosition.validate_ok.mpr (VLogPosition.isValid_iff.mp begins)
    have endBounds : footer.vlogEnd.validate = .ok () := by
      have low := area.2.1
      simp only [DecodedRecord.encodedLen] at inside
      rw [VLogPosition.validate_ok,ends]
      exact ⟨area.1,by simp only; omega⟩
    have accepted : validateTxPreparedEnd footer = .ok () := by
      rw [validateTxPreparedEnd,identity.accepted,ok_bind,beginBounds,ok_bind,endBounds,ok_bind]
      refine rejectIf_false ?_
      rintro (backwards | rest)
      · exact VLogPosition.not_le.mpr ordered backwards
      · omega
    obtain ⟨front,written⟩ := @RecordHeader.encode_ok _ .txPreparedEnd 111 _ _ identity
    exact ⟨_,by simp only [encodeRecordAt,encodeTxPreparedEnd,accepted,Except.mapError,ok_bind,written,pure_ok]; rfl⟩
  | pageEnd =>
    obtain ⟨identity,room⟩ := valid
    have low := area.2.1
    have started := validateRecordStart_production.mpr area
    obtain ⟨front,written⟩ := @RecordHeader.encode_ok _ .pageEnd ((start.offset / 65536 + 1) * 65536 - start.offset) _ _
      identity
    simp only [encodeRecordAt,encodePageEnd,identity.accepted,production_validate,started,Except.mapError,ok_bind,
      pageEnd_production low,pageEndMinSize]
    rw [rejectIf_false (by omega),ok_bind,rejectIf_false (by omega),ok_bind,rejectIf_false (by omega),ok_bind,written,
      ok_bind,pure_ok]
    exact ⟨_,rfl⟩

theorem decodeRecordAt_encode {record : DecodedRecord} {commitSeq : Nat} {txUuid : Uuid} {start : VLogPosition}
    (valid : record.Valid commitSeq txUuid start) (fits : record.FitsPage start)
    (written : encodeRecordAt commitSeq txUuid start production record = .ok encoded) :
    decodeRecordAt encoded start production = .ok record := by
  obtain ⟨area,inside⟩ := fits
  cases record with
  | txBegin begin =>
    obtain ⟨identity,-,-,-,count⟩ := valid
    exact (encodeTxBegin_reads written identity.2.1 count area inside).decoded
  | kvRecord record =>
    obtain ⟨identity,index,-,-⟩ := valid
    exact (encodeKvRecord_reads written identity.2.1 index area inside).decoded
  | deleteRecord record =>
    obtain ⟨identity,index,-,-⟩ := valid
    exact (encodeDeleteRecord_reads written identity.2.1 index area inside).decoded
  | txPreparedEnd footer =>
    obtain ⟨identity,-,-,ends,-,-,count,-,crc⟩ := valid
    exact (encodeTxPreparedEnd_reads written identity.2.1 count crc area inside ends).decoded
  | pageEnd =>
    obtain ⟨identity,-⟩ := valid
    exact (encodePageEnd_reads written identity.2.1).1.decoded

theorem encodeRecordAt_decode {record : DecodedRecord} {start : VLogPosition} {geometry : VLogGeometry}
    (read : decodeRecordAt encoded start geometry = .ok record) :
    ∃ header, RecordHeader.decode encoded = .ok header ∧ header.encodedLen = encoded.length ∧
      encodeRecordAt header.commitSeq header.txUuid start geometry record = .ok encoded ∧
      (∀ footer, record = .txPreparedEnd footer →
        footer.vlogEnd = ⟨start.fileId,start.offset + encoded.length⟩) := by
  simp only [decodeRecordAt,VLogGeometry.validateForDecode,validateRecordBounds,bind_ok,exists_unit,mapError_ok,
    rejectIf_ok,not_not,ne_eq] at read
  obtain ⟨accepted,⟨started,-⟩,header,headed,sized,read⟩ := read
  refine ⟨header,headed,sized,?_⟩
  cases typed : header.recordType with
  | txBegin =>
    simp only [decodeRecordBody,typed,map_ok] at read
    obtain ⟨begin,read,rfl⟩ := read
    exact ⟨(decodeTxBegin_canonical headed sized typed read).1,fun _ other => by cases other⟩
  | kvRecord =>
    simp only [decodeRecordBody,typed,map_ok] at read
    obtain ⟨kv,read,rfl⟩ := read
    exact ⟨(decodeKvRecord_canonical headed sized typed read).1,fun _ other => by cases other⟩
  | deleteRecord =>
    simp only [decodeRecordBody,typed,map_ok] at read
    obtain ⟨deletion,read,rfl⟩ := read
    exact ⟨(decodeDeleteRecord_canonical headed sized typed read).1,fun _ other => by cases other⟩
  | txPreparedEnd =>
    simp only [decodeRecordBody,typed,bind_ok,exists_unit,rejectIf_ok,pure_ok,Except.ok.injEq,not_not,ne_eq] at read
    obtain ⟨footer,read,ends,rfl⟩ := read
    refine ⟨(decodeTxPreparedEnd_canonical headed sized typed read).1,?_⟩
    rintro _ ⟨⟩
    rw [ends,sized]
  | pageEnd =>
    simp only [decodeRecordBody,typed,bind_ok,exists_unit,pure_ok,Except.ok.injEq] at read
    obtain ⟨read,rfl⟩ := read
    exact ⟨decodePageEnd_canonical headed sized typed accepted started read,fun _ other => by cases other⟩

-- The codec of the five records is exact in both directions and total on arbitrary bytes. The last two parts bound
-- the slices the decoder takes without a check of their own.
theorem record_codec_exact :
    (∀ (record : DecodedRecord) (commitSeq : Nat) (txUuid : Uuid) (start : VLogPosition),
      record.Valid commitSeq txUuid start → record.FitsPage start →
      ∃ encoded, encodeRecordAt commitSeq txUuid start production record = .ok encoded ∧
        decodeRecordAt encoded start production = .ok record) ∧
    (∀ (encoded : Bytes) (start : VLogPosition) (geometry : VLogGeometry) (record : DecodedRecord),
      decodeRecordAt encoded start geometry = .ok record →
      ∃ header, RecordHeader.decode encoded = .ok header ∧
        encodeRecordAt header.commitSeq header.txUuid start geometry record = .ok encoded ∧
        ∀ footer, record = .txPreparedEnd footer →
          footer.vlogEnd = ⟨start.fileId,start.offset + encoded.length⟩) ∧
    (∀ (encoded : Bytes) (start : VLogPosition) (geometry : VLogGeometry),
      (∃ record, decodeRecordAt encoded start geometry = .ok record) ∨
      ∃ error, decodeRecordAt encoded start geometry = .error error ∧
        (error.kind = .corruption ∨ error.kind = .invalidLayout ∨ error.kind = .incompatibleFormat)) ∧
    (∀ encoded : Bytes, RecordHeader.decode encoded = .error (decodeError .corruption) ∨ 39 ≤ encoded.length) ∧
    (∀ (encoded : Bytes) (header : RecordHeader), header.encodedLen = encoded.length →
      decodeTxPreparedEnd encoded header = .error (decodeError .corruption) ∨ encoded.length = 111) := by
  refine ⟨?_,?_,?_,?_,?_⟩
  · intro record commitSeq txUuid start valid fits
    obtain ⟨encoded,written⟩ := encodeRecordAt_ok valid fits
    exact ⟨encoded,written,decodeRecordAt_encode valid fits written⟩
  · intro encoded start geometry record read
    obtain ⟨header,headed,-,written,ends⟩ := encodeRecordAt_decode read
    exact ⟨header,headed,written,ends⟩
  · intro encoded start geometry
    cases read : decodeRecordAt encoded start geometry with
    | ok record => exact .inl ⟨record,rfl⟩
    | error error =>
      have rejected : Rejectable error := decodeRecordAt_fails encoded start geometry error read
      refine .inr ⟨error,rfl,?_⟩
      unfold Rejectable isRejectableEnvelopeError at rejected
      split at rejected
      · rename_i kind; exact .inl kind
      · rename_i kind; exact .inr (.inl kind)
      · rename_i kind; exact .inr (.inr kind)
      · cases rejected
  · intro encoded
    by_cases long : 39 ≤ encoded.length
    · exact .inr long
    · refine .inl ?_
      have refused : encoded.length < recordHeaderEncodedLen ∨ slice? encoded 0 4 ≠ some recordHeaderMagic :=
        .inl (Nat.not_le.mp long)
      rw [RecordHeader.decode,rejectIf,if_pos refused,error_bind]
  · intro encoded header sized
    by_cases len : encoded.length = 111
    · exact .inr len
    · refine .inl ?_
      have refused : header.encodedLen ≠ txPreparedEndEncodedLen ∨ slice? encoded 107 4 ≠ some endTrailerMagic :=
        .inl (fun same => len (sized.symm.trans same))
      rw [decodeTxPreparedEnd,rejectIf,if_pos refused,error_bind]

end checked

-- A put at the first place of a file, encoded and decoded with the real checksum.
theorem record_codec_exact_put :
    let record : DecodedRecord := .kvRecord ⟨1,⟨List.replicate 16 7,rfl⟩,0,[1],[2,3]⟩
    ∃ encoded, @encodeRecordAt castagnoli 1 ⟨List.replicate 16 7,rfl⟩ ⟨0,64⟩ production record = .ok encoded ∧
      @decodeRecordAt castagnoli encoded ⟨0,64⟩ production = .ok record := by
  intro record
  refine (@record_codec_exact castagnoli).1 record 1 ⟨List.replicate 16 7,rfl⟩ ⟨0,64⟩ ?_ ?_
  · exact ⟨⟨by decide,by decide,by decide⟩,by decide,by decide,by decide⟩
  · exact ⟨⟨by decide,by decide,by decide,by decide⟩,by decide⟩

end ExpirKv
