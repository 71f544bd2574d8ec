import ExpirKv.Commit.DescriptorExact
import ExpirKv.Library.Framing

namespace ExpirKv

section ends

theorem writeDurableEnd_split {encoded : Bytes} {offset : Nat} {durableEnd : Option VLogPosition}
    (read : readDurableEnd encoded offset = .ok durableEnd) :
    encoded.drop offset = writeDurableEnd durableEnd ++ encoded.drop (offset + 13) := by
  simp only [readDurableEnd,bind_ok,orError_ok,orCorrupt_ok] at read
  obtain ⟨tag,tagRead,position,placeRead,known⟩ := read
  have atTag := getElem_split tagRead
  have atPlace := readPosition_split placeRead
  simp only [Nat.add_assoc,Nat.reduceAdd] at atPlace
  rw [atTag,atPlace]
  split at known
  · split at known
    · rename_i zero
      obtain rfl := Except.ok.inj known
      obtain ⟨file,place⟩ := position
      obtain ⟨rfl,rfl⟩ := zero
      rfl
    · cases known
  · split at known
    · obtain rfl := Except.ok.inj known
      rfl
    · cases known
  · cases known

variable [Crc32c]

theorem verifyCrc_split {encoded : Bytes} {len : Nat} (verified : verifyCrc encoded len len = .ok ())
    (width : encoded.length = len + 4) : encoded = appendCrc (encoded.take len) := by
  simp only [verifyCrc,readU32,bind_ok,orError_ok,orCorrupt_ok,rejectIf_ok,not_not,ne_eq] at verified
  obtain ⟨covered,taken,expected,read,same⟩ := verified
  obtain ⟨-,rfl⟩ := slice?_eq_some.mp taken
  have last := readUint_split read
  rw [List.drop_eq_nil_of_le (show encoded.length ≤ len + 4 by omega),List.append_nil,←same,List.drop_zero] at last
  rw [appendCrc,←last,List.take_append_drop]

theorem DurableFrontier.decode_canonical {encoded : Bytes} {frontier : DurableFrontier}
    (read : DurableFrontier.decode encoded = .ok frontier) :
    frontier.encode = .ok encoded ∧ frontier.durableSeq < 18446744073709551616 := by
  simp only [decode,bind_ok,exists_unit,rejectIf_ok,orCorrupt_ok,readU16,readU64,pure_ok,Except.ok.injEq,not_or,not_not,
    ne_eq,durableFrontierEncodedLen,formatVersion] at read
  obtain ⟨⟨width,magic⟩,crc,_,versionRead,rfl,durableSeq,seqRead,durableVlogSeq,vlogRead,durableVlogEnd,endRead,valid,
    rfl⟩ := read
  have at0 := drop_eq_slice magic
  have at4 := readUint_split versionRead
  have at6 := readUint_split seqRead
  have at14 := readUint_split vlogRead
  have at22 := writeDurableEnd_split endRead
  simp only [List.drop_zero,Nat.zero_add,Nat.reduceAdd] at at0 at4 at6 at14 at22
  have body : encoded.take 35 = durableFrontierMagic ++ leBytes 2 0 ++ leBytes 8 durableSeq ++
      leBytes 8 durableVlogSeq ++ writeDurableEnd durableVlogEnd := by
    rw [at0,at4,at6,at14,at22]
    simp only [←List.append_assoc]
    exact List.take_left' (by simp [writeDurableEnd_length])
  refine ⟨?_,readUint_lt seqRead⟩
  rw [encode,valid,Except.mapError,ok_bind,pure_ok,formatVersion,←body,←verifyCrc_split crc width]

omit [Crc32c] in
theorem RecoveryPhase.decode_canonical {encoded : UInt8} {phase : RecoveryPhase}
    (read : RecoveryPhase.decode encoded = .ok phase) : phase.encode = encoded := by
  unfold RecoveryPhase.decode at read
  split at read
  case h_4 => cases read
  all_goals obtain rfl := Except.ok.inj read; rfl

omit [Crc32c] in
theorem decodeTrimRequired_canonical {encoded : UInt8} {trimRequired : Bool}
    (read : decodeTrimRequired encoded = .ok trimRequired) : encoded = if trimRequired then 1 else 0 := by
  unfold decodeTrimRequired at read
  split at read
  case h_3 => cases read
  all_goals obtain rfl := Except.ok.inj read; rfl

theorem RecoveryState.decode_canonical {encoded : Bytes} {state : RecoveryState}
    (read : RecoveryState.decode encoded = .ok state) :
    state.encode = .ok encoded ∧ state.originalHead < 18446744073709551616 := by
  simp only [decode,bind_ok,exists_unit,rejectIf_ok,orCorrupt_ok,orError_ok,readU16,readU64,pure_ok,Except.ok.injEq,
    not_or,not_not,ne_eq,recoveryStateEncodedLen,formatVersion] at read
  obtain ⟨⟨width,magic⟩,crc,_,versionRead,rfl,phaseCode,phaseRead,phase,phaseDecoded,trimCode,trimRead,trimRequired,
    trimDecoded,originalHead,headRead,targetSeq,targetRead,targetVlogSeq,vlogRead,targetVlogEnd,endRead,nextUndoSeq,
    undoRead,valid,rfl⟩ := read
  have at0 := drop_eq_slice magic
  have at4 := readUint_split versionRead
  have at6 : encoded.drop 6 = [phaseCode] ++ encoded.drop 7 := getElem_split phaseRead
  have at7 := readUint_split headRead
  have at15 := readUint_split targetRead
  have at23 := readUint_split vlogRead
  have at31 := writeDurableEnd_split endRead
  have at44 := readUint_split undoRead
  have at52 : encoded.drop 52 = [trimCode] ++ encoded.drop 53 := getElem_split trimRead
  simp only [List.drop_zero,Nat.zero_add,Nat.reduceAdd] at at0 at4 at7 at15 at23 at31 at44
  have body : encoded.take 53 = recoveryStateMagic ++ leBytes 2 0 ++ [phase.encode] ++ leBytes 8 originalHead ++
      leBytes 8 targetSeq ++ leBytes 8 targetVlogSeq ++ writeDurableEnd targetVlogEnd ++ leBytes 8 nextUndoSeq ++
      [if trimRequired then 1 else 0] := by
    rw [at0,at4,at6,at7,at15,at23,at31,at44,at52,RecoveryPhase.decode_canonical phaseDecoded,
      ←decodeTrimRequired_canonical trimDecoded]
    simp only [←List.append_assoc]
    exact List.take_left' (by simp [writeDurableEnd_length])
  refine ⟨?_,readUint_lt headRead⟩
  rw [encode,valid,Except.mapError,ok_bind,pure_ok,formatVersion,←body,←verifyCrc_split crc width]

end ends

section codecs
variable [Crc32c]

theorem DurableFrontier.codec : ExactCodec (fun frontier : DurableFrontier => frontier.durableSeq < 18446744073709551616)
    (fun frontier => frontier.validate = .ok ()) DurableFrontier.encode DurableFrontier.decode := by
  refine ⟨?_,fun frontier encoded fits written => (decode_encode written fits).1,
    fun encoded frontier read => decode_canonical read⟩
  intro frontier
  constructor
  · rintro ⟨encoded,written⟩
    simp only [encode,bind_ok,exists_unit,mapError_ok] at written
    exact written.1
  · exact encode_ok

theorem RecoveryState.codec : ExactCodec (fun state : RecoveryState => state.originalHead < 18446744073709551616)
    (fun state => state.validate = .ok ()) RecoveryState.encode RecoveryState.decode := by
  refine ⟨?_,fun state encoded fits written => (decode_encode written fits).1,
    fun encoded state read => decode_canonical read⟩
  intro state
  constructor
  · rintro ⟨encoded,written⟩
    simp only [encode,bind_ok,exists_unit,mapError_ok] at written
    exact written.1
  · exact encode_ok

omit [Crc32c] in
theorem ValuePointer.codec : ExactCodec (fun pointer : ValuePointer => pointer.recordOffset < 4294967296)
    (fun pointer => pointer.validateFields = .ok ()) ValuePointer.encode ValuePointer.decode := by
  refine ⟨?_,fun pointer encoded fits written => (decode_encode written fits).1,
    fun encoded pointer read => ⟨encode_decode read,(decode_offset read).1⟩⟩
  intro pointer
  constructor
  · rintro ⟨encoded,written⟩
    simp only [encode,bind_ok,exists_unit,mapError_ok] at written
    exact written.1
  · exact encode_ok

omit [Crc32c] in
theorem TxMeta.codec : ExactCodec TxMeta.Fits (fun txMeta => ∀ encoding, validateTxMeta txMeta encoding = .ok ())
    encodeTxMeta decodeTxMeta := by
  refine ⟨?_,fun txMeta encoded fits written => (decodeTxMeta_encode written fits).1,
    fun encoded txMeta read => decodeTxMeta_canonical read⟩
  intro txMeta
  constructor
  · rintro ⟨encoded,written⟩ encoding
    simp only [encodeTxMeta,bind_ok,exists_unit] at written
    exact validateTxMeta_ok.mpr (validateTxMeta_ok.mp written.1)
  · intro valid
    exact ⟨_,by rw [encodeTxMeta,valid true,ok_bind,pure_ok]⟩

theorem PageHeader.codec : ExactCodec (fun _ : PageHeader => True)
    (fun header => header.fileId ≤ maxVlogFileId ∧ header.pageNo ≤ 65535) PageHeader.encode PageHeader.decode := by
  refine ⟨?_,fun header encoded _ written => (decode_encode written).1,
    fun encoded header read => ⟨decode_canonical read,trivial⟩⟩
  intro header
  simp only [encode,bind_ok,exists_unit,rejectIf_ok,not_or,Nat.not_lt,pure_ok,Except.ok.injEq]
  constructor
  · rintro ⟨encoded,bounds,-⟩
    exact bounds
  · intro bounds
    exact ⟨_,bounds,rfl⟩

theorem VLogFileHeader.codec : ExactCodec (fun _ : VLogFileHeader => True)
    (fun header => header.validate = .ok ()) VLogFileHeader.encode VLogFileHeader.decode := by
  have fixed : ∀ header : VLogFileHeader, header.validate = .ok () → header = .new header.databaseUuid header.fileId := by
    intro header valid
    obtain ⟨version,uuid,file,page,size⟩ := header
    simp only [validate,bind_ok,exists_unit,rejectIf_ok,not_or,not_not,ne_eq] at valid
    obtain ⟨rfl,-,-,rfl,rfl⟩ := valid
    rfl
  have admitted : ∀ header encoded, VLogFileHeader.encode header = .ok encoded → header.validate = .ok () := by
    intro header encoded written
    simp only [encode,bind_ok,exists_unit,mapError_ok] at written
    exact written.1
  refine ⟨?_,?_,fun encoded header read => ⟨(decode_canonical read).2,trivial⟩⟩
  · intro header
    constructor
    · rintro ⟨encoded,written⟩
      exact admitted header encoded written
    · intro valid
      exact ⟨_,by rw [encode,valid,Except.mapError,ok_bind,pure_ok]⟩
  · intro header encoded _ written
    have new := fixed header (admitted header encoded written)
    rw [new] at written ⊢
    exact (decode_encode written).1

end codecs

end ExpirKv
