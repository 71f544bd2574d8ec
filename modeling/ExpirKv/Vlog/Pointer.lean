import ExpirKv.Vlog.FormatExact
import ExpirKv.Vlog.Laying

namespace ExpirKv
open VLogGeometry

section fields

-- The lengths a pointer stands for.
def ValuePointer.spans (pointer : ValuePointer) : ValuePointerLayout :=
  ⟨pointer.recordLen - 55 - pointer.valueLen,pointer.recordLen - 4 - pointer.valueLen,
    pointer.recordOffset + (pointer.recordLen - 4 - pointer.valueLen),pointer.recordOffset + pointer.recordLen - 4,
    pointer.recordOffset + pointer.recordLen⟩

-- Once the fields are valid no subtraction and no conversion of the layout can fail.
theorem ValuePointer.layout_spans {pointer : ValuePointer} (valid : pointer.validateFields = .ok ()) :
    pointer.layout = .ok pointer.spans := by
  obtain ⟨-,-,len,value⟩ := validateFields_ok.mp valid
  simp only [layout,valid,ok_bind,kvRecordFixedLenWithCrc,recordCrcLen]
  rw [rejectIf_false (by omega),ok_bind,rejectIf_false (by omega),ok_bind,rejectIf_false (by omega),ok_bind,
    rejectIf_false (by omega),ok_bind]
  rfl

theorem ValuePointer.validateFileBounds_ok {pointer : ValuePointer} {len : Nat} {found : ValuePointerLayout} :
    pointer.validateFileBounds len = .ok found ↔ pointer.validateFields = .ok () ∧ found = pointer.spans ∧
      len ≤ 4294967296 ∧ pointer.recordOffset + pointer.recordLen ≤ len ∧ 16 ≤ pointer.recordOffset % 65536 ∧
      64 ≤ pointer.recordOffset ∧
      pointer.recordOffset + pointer.recordLen ≤ (pointer.recordOffset / 65536 + 1) * 65536 := by
  by_cases valid : pointer.validateFields = .ok ()
  · simp only [validateFileBounds,layout_spans valid,ok_bind,bind_ok,exists_unit,rejectIf_ok,pure_ok,Except.ok.injEq,spans,
      maxVlogFileSize,vlogPageSize,firstPageRecordAreaStart,otherPageRecordAreaOffset,valid,true_and]
    by_cases first : pointer.recordOffset / 65536 = 0
    · simp only [first,if_true]
      constructor
      · rintro ⟨bounds,place,rfl⟩
        exact ⟨rfl,by omega,by omega,by omega,by omega,by omega⟩
      · rintro ⟨rfl,small,inside,area,low,page⟩
        exact ⟨by omega,by omega,rfl⟩
    · simp only [first,if_false]
      constructor
      · rintro ⟨bounds,place,rfl⟩
        exact ⟨rfl,by omega,by omega,by omega,by omega,by omega⟩
      · rintro ⟨rfl,small,inside,area,low,page⟩
        exact ⟨by omega,by omega,rfl⟩
  · constructor
    · intro accepted
      simp only [validateFileBounds,layout,bind_ok,exists_unit] at accepted
      obtain ⟨_,⟨checked,-⟩,-⟩ := accepted
      exact ⟨checked,absurd checked valid⟩
    · intro accepted
      exact absurd accepted.1 valid

-- The sums over fields of any sixteen bytes stay inside their machine words.
theorem pointerFields_fit {encoded : Bytes} {recordOffset recordLen valueLen : Nat}
    (offset : readU32 encoded 6 = .ok recordOffset) (len : readU32 encoded 10 = .ok recordLen)
    (value : readU16 encoded 14 = .ok valueLen) :
    recordOffset + recordLen < 18446744073709551616 ∧
      recordOffset / 65536 * 65536 + 65536 < 18446744073709551616 ∧
      recordLen - 55 - valueLen + valueLen < 4294967296 := by
  have first := readUint_lt offset
  have second := readUint_lt len
  have third := readUint_lt value
  omega

end fields

section dereference
variable [Crc32c]

theorem EnvelopeLaid.pointer {databaseUuid txUuid : Uuid} {position : VLogPosition} {commitSeq : Nat}
    {operations : List LogicalOperation} {envelope : PreparedEnvelope}
    (laid : EnvelopeLaid databaseUuid position commitSeq txUuid operations envelope) {index : Nat} {key value : Bytes}
    (found : operations[index]? = some (.put key value)) :
    ∃ start bytes, ⟨start,bytes⟩ ∈ envelope.chunks ∧
      decodeRecordAt bytes start production = .ok (.kvRecord ⟨commitSeq,txUuid,index,key,value⟩) ∧
      envelope.valuePointers[index]? = some (some ⟨0,start.fileId,start.offset,bytes.length,value.length⟩) := by
  obtain ⟨entry,bytes,stands,recorded,isRecord,pointed⟩ := laid.entry found
  obtain ⟨header,reads,-,-⟩ := recorded.reads
  have decoded := reads.decoded
  rw [isRecord] at decoded
  refine ⟨entry.start,bytes,stands,decoded,?_⟩
  rw [pointed]
  simp only [Entry.pointer,isRecord,operationRecord,recorded.sized]

theorem readPointer_held {files : FileSet} {start : VLogPosition} {bytes : Bytes} {record : KvRecord}
    (geometry : files.geometry = production) (held : Holds files ⟨start,bytes⟩)
    (decoded : decodeRecordAt bytes start production = .ok (.kvRecord record)) :
    readPointer files ⟨0,start.fileId,start.offset,bytes.length,record.value.length⟩ record.key = .ok record.value := by
  obtain ⟨area,inside,named,small,width⟩ := decodeRecordAt_kv decoded
  obtain ⟨contents,opened,taken⟩ := held
  obtain ⟨fits,-⟩ := slice?_eq_some.mp taken
  obtain ⟨file,offset,low,first⟩ := area
  have bounded : contents.length ≤ 4294967296 := by
    simp only [FileSet.handle,FileSet.validateCandidate,bind_ok,exists_unit,rejectIf_ok,pure_ok,Except.ok.injEq,
      geometry,maxVlogFileSize] at opened
    obtain ⟨-,_,-,⟨size,-⟩,rfl⟩ := opened
    omega
  have valid : (⟨0,start.fileId,start.offset,bytes.length,record.value.length⟩ : ValuePointer).validateFields = .ok () :=
    ValuePointer.validateFields_ok.mpr ⟨rfl,file,by simp only; omega,by simp only; omega⟩
  have spans := ValuePointer.validateFileBounds_ok.mpr ⟨valid,rfl,bounded,fits,low,first,inside⟩
  simp only [readPointer,ValuePointer.layout_spans valid,Except.mapError,ok_bind,opened,spans,readExactAt,taken,orError,
    geometry,decoded]
  rw [rejectIf_false (by simp [ValuePointer.spans,width]),ok_bind,pure_ok]

-- What a successful read has read, whatever the pointer and the files are.
theorem readPointer_sound {files : FileSet} {pointer : ValuePointer} {expectedKey value : Bytes}
    (read : readPointer files pointer expectedKey = .ok value) :
    ∃ contents bytes record, files.handle pointer.fileId = .ok contents ∧
      slice? contents pointer.recordOffset pointer.recordLen = some bytes ∧ encodeKvRecord record = .ok bytes ∧
      record.key = expectedKey ∧ record.value = value ∧ 16 ≤ pointer.recordOffset % 65536 ∧
      64 ≤ pointer.recordOffset ∧
      pointer.recordOffset + pointer.recordLen ≤ (pointer.recordOffset / 65536 + 1) * 65536 := by
  simp only [readPointer,bind_ok,mapError_ok,readExactAt,orError_ok] at read
  obtain ⟨_,-,contents,opened,layout,bounded,bytes,taken,record,decoded,rest⟩ := read
  obtain ⟨-,-,-,-,low,first,inside⟩ := ValuePointer.validateFileBounds_ok.mp bounded
  cases record with
  | kvRecord record =>
    simp only [bind_ok,exists_unit,rejectIf_ok,not_or,not_not,ne_eq,pure_ok,Except.ok.injEq] at rest
    obtain ⟨⟨keyed,-,-⟩,valued⟩ := rest
    obtain ⟨header,-,-,written,-⟩ := encodeRecordAt_decode decoded
    exact ⟨contents,bytes,record,opened,taken,written,keyed,valued,low,first,inside⟩
  | txBegin begin => simp at rest
  | deleteRecord record => simp at rest
  | txPreparedEnd footer => simp at rest
  | pageEnd => simp at rest

-- A pointer of an envelope reads its value back; a value is only read from the whole record of its key.
theorem pointer_dereference_exact :
    (∀ (position : VLogPosition) (databaseUuid txUuid : Uuid) (commitSeq : Nat) (operations : List LogicalOperation)
      (envelope : PreparedEnvelope) (next : LayoutPlanner), commitSeq < 18446744073709551616 →
      prepareEnvelope ⟨production,position⟩ databaseUuid commitSeq txUuid operations = .ok (envelope,next) →
      ∀ (index : Nat) (key value : Bytes), operations[index]? = some (.put key value) →
      ∃ pointer encoded, envelope.valuePointers[index]? = some (some pointer) ∧ pointer.encode = .ok encoded ∧
        encoded.length = 16 ∧ ValuePointer.decode encoded = .ok pointer ∧
        (∀ len, pointer.recordOffset + pointer.recordLen ≤ len → len ≤ 4294967296 →
          ∃ layout, pointer.validateFileBounds len = .ok layout) ∧
        ∀ files : FileSet, files.geometry = production → (∀ chunk ∈ envelope.chunks, Holds files chunk) →
          readPointer files pointer key = .ok value ∧ readValue files encoded key = .ok value) ∧
    (∀ (files : FileSet) (encodedPointer expectedKey value : Bytes),
      readValue files encodedPointer expectedKey = .ok value →
      ∃ pointer contents bytes record, ValuePointer.decode encodedPointer = .ok pointer ∧
        files.handle pointer.fileId = .ok contents ∧
        slice? contents pointer.recordOffset pointer.recordLen = some bytes ∧ encodeKvRecord record = .ok bytes ∧
        record.key = expectedKey ∧ record.value = value ∧ 16 ≤ pointer.recordOffset % 65536 ∧
        64 ≤ pointer.recordOffset ∧
        pointer.recordOffset + pointer.recordLen ≤ (pointer.recordOffset / 65536 + 1) * 65536) ∧
    (∀ (encoded : Bytes) (recordOffset recordLen valueLen : Nat), readU32 encoded 6 = .ok recordOffset →
      readU32 encoded 10 = .ok recordLen → readU16 encoded 14 = .ok valueLen →
      recordOffset + recordLen < 18446744073709551616 ∧
      recordOffset / 65536 * 65536 + 65536 < 18446744073709551616 ∧
      recordLen - 55 - valueLen + valueLen < 4294967296) ∧
    ∀ (encoded : Bytes) (pointer : ValuePointer), ValuePointer.decode encoded = .ok pointer →
      pointer.layout = .ok pointer.spans := by
  refine ⟨?_,?_,fun _ _ _ _ => pointerFields_fit,fun encoded pointer read =>
    ValuePointer.layout_spans (ValuePointer.decode_offset read).2⟩
  · intro position databaseUuid txUuid commitSeq operations envelope next seq prepared index key value found
    have laid := (prepareEnvelope_laid seq prepared).1
    obtain ⟨start,bytes,stands,decoded,pointed⟩ := laid.pointer found
    obtain ⟨⟨file,offset,low,first⟩,inside,named,small,width⟩ := decodeRecordAt_kv decoded
    have valid : (⟨0,start.fileId,start.offset,bytes.length,value.length⟩ : ValuePointer).validateFields = .ok () :=
      ValuePointer.validateFields_ok.mpr ⟨rfl,file,by simp only at *; omega,by simp only at *; omega⟩
    have written : ∃ encoded, (⟨0,start.fileId,start.offset,bytes.length,value.length⟩ : ValuePointer).encode =
        .ok encoded := by simp [ValuePointer.encode,valid,Except.mapError]
    obtain ⟨encoded,written⟩ := written
    obtain ⟨back,size⟩ := ValuePointer.decode_encode written offset
    refine ⟨_,encoded,pointed,written,size,back,?_,?_⟩
    · intro len above below
      exact ⟨_,ValuePointer.validateFileBounds_ok.mpr ⟨valid,rfl,below,above,low,first,inside⟩⟩
    · intro files geometry held
      have reads := readPointer_held geometry (held _ stands) decoded
      refine ⟨reads,?_⟩
      simp only [readValue,back,Except.mapError,ok_bind]
      exact reads
  · intro files encodedPointer expectedKey value read
    simp only [readValue,bind_ok,mapError_ok] at read
    obtain ⟨pointer,decoded,read⟩ := read
    obtain ⟨contents,bytes,record,sound⟩ := readPointer_sound read
    exact ⟨pointer,contents,bytes,record,decoded,sound⟩

end dereference

-- The last put of two to one key, read through its pointer.
theorem pointer_dereference_exact_second :
    let database : Uuid := ⟨List.replicate 16 1,rfl⟩
    let operations : List LogicalOperation := [.put [1] [2,3],.delete [4],.put [1] [9]]
    ∃ envelope next pointer,
      @prepareEnvelope castagnoli ⟨production,⟨0,0⟩⟩ database 1 ⟨List.replicate 16 7,rfl⟩ operations =
        .ok (envelope,next) ∧ envelope.valuePointers[2]? = some (some pointer) ∧
      @readPointer castagnoli ((FileSet.empty database).layAll envelope.chunks) pointer [1] = .ok [9] := by
  intro database operations
  have succeeds : (@prepareEnvelope castagnoli ⟨production,⟨0,0⟩⟩ database 1 ⟨List.replicate 16 7,rfl⟩
    operations).toOption.isSome = true := by decide +kernel
  obtain ⟨⟨envelope,next⟩,prepared⟩ := ok_of_isSome succeeds
  have laid := (@prepareEnvelope_laid castagnoli _ _ _ _ _ _ _ (by decide) prepared).1
  obtain ⟨done,-,held⟩ := @EnvelopeLaid.lays castagnoli _ _ _ _ _ _ _ laid (@EndsAt.empty castagnoli database) rfl
  obtain ⟨pointer,encoded,pointed,-,-,-,-,reads⟩ := (@pointer_dereference_exact castagnoli).1 _ _ _ _ _ _ _ (by decide)
    prepared 2 [1] [9] rfl
  exact ⟨envelope,next,pointer,prepared,pointed,(reads _ (@EndsAt.geometry castagnoli _ _ done) held).1⟩

end ExpirKv
