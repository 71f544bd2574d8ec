import ExpirKv.Commit.DescriptorFacts
import ExpirKv.Vlog.FormatExact

namespace ExpirKv

-- What the metadata decoders accept is what their encoders write.
section keys

theorem readU64Be_split {encoded : Bytes} {offset value : Nat} (read : readU64Be encoded offset = .ok value) :
    encoded.drop offset = beBytes 8 value ++ encoded.drop (offset + 8) ∧ value < 18446744073709551616 := by
  simp only [readU64Be,map_ok,orError_ok] at read
  obtain ⟨field,taken,rfl⟩ := read
  have width := slice?_length taken
  have round := beBytes_beNat field
  have bound := beNat_lt field
  rw [width] at round bound
  exact ⟨by rw [round]; exact drop_eq_slice taken,by omega⟩

theorem decodeTxMetaKey_canonical {key : Bytes} {commitSeq : Nat} (read : decodeTxMetaKey key = .ok commitSeq) :
    encodeTxMetaKey commitSeq = .ok key ∧ commitSeq < 18446744073709551616 := by
  simp only [decodeTxMetaKey,bind_ok,exists_unit,rejectIf_ok,pure_ok,Except.ok.injEq,not_or,not_not,ne_eq,
    txMetaKeyEncodedLen] at read
  obtain ⟨⟨width,magic,kind⟩,seq,seqRead,present,rfl⟩ := read
  obtain ⟨at2,bound⟩ := readU64Be_split seqRead
  have at0 := drop_eq_slice magic
  have at10 := getElem_split kind
  simp only [List.drop_zero,Nat.zero_add,Nat.reduceAdd] at at0 at2 at10
  rw [List.drop_eq_nil_of_le (show key.length ≤ 11 by omega)] at at10
  refine ⟨encodeTxMetaKey_ok.mpr ⟨present,?_⟩,bound⟩
  rw [txKeyHead,List.append_assoc,←at10,←at2,←at0]

theorem decodeTxMutationKey_canonical {key : Bytes} {commitSeq ordinal : Nat}
    (read : decodeTxMutationKey key = .ok (commitSeq,ordinal)) :
    encodeTxMutationKey commitSeq ordinal = .ok key ∧ commitSeq < 18446744073709551616 ∧
      ordinal < 18446744073709551616 := by
  simp only [decodeTxMutationKey,bind_ok,exists_unit,rejectIf_ok,pure_ok,Except.ok.injEq,not_or,not_not,ne_eq,
    txMutationKeyEncodedLen,Prod.mk.injEq] at read
  obtain ⟨⟨width,magic,kind⟩,seq,seqRead,place,placeRead,present,rfl,rfl⟩ := read
  obtain ⟨at2,bound⟩ := readU64Be_split seqRead
  obtain ⟨at11,small⟩ := readU64Be_split placeRead
  have at0 := drop_eq_slice magic
  have at10 := getElem_split kind
  simp only [List.drop_zero,Nat.zero_add,Nat.reduceAdd] at at0 at2 at10 at11
  rw [List.drop_eq_nil_of_le (show key.length ≤ 19 by omega),List.append_nil] at at11
  refine ⟨encodeTxMutationKey_ok.mpr ⟨present,?_⟩,bound,small⟩
  rw [txKeyHead,List.append_assoc,←at11,←at10,←at2,←at0]

end keys

section records

theorem TransactionKind.decode_canonical {encoded : UInt8} {kind : TransactionKind} (read : decode encoded = .ok kind) :
    kind.encode = encoded := by
  unfold decode at read
  split at read
  case h_3 => cases read
  all_goals obtain rfl := Except.ok.inj read; rfl

theorem decodeTxMeta_canonical {encoded : Bytes} {txMeta : TxMeta} (read : decodeTxMeta encoded = .ok txMeta) :
    encodeTxMeta txMeta = .ok encoded ∧ txMeta.Fits := by
  simp only [decodeTxMeta,bind_ok,exists_unit,rejectIf_ok,orCorrupt_ok,orError_ok,readU16,readU32,readU64,pure_ok,
    Except.ok.injEq,not_or,not_not,ne_eq,txMetaEncodedLen,formatVersion] at read
  obtain ⟨⟨width,magic⟩,_,versionRead,rfl,kindCode,kindRead,transactionKind,kindDecoded,commitSeq,seqRead,txUuid,uuidRead,
    prevSeq,prevRead,vlogBegin,beginRead,vlogEnd,endRead,logicalOpCount,logicalRead,distinctKeyCount,distinctRead,
    envelopeCrc32c,envelopeRead,descriptorCrc32c,crcRead,valid,rfl⟩ := read
  have at0 := drop_eq_slice magic
  have at4 := readUint_split versionRead
  have at6 := getElem_split kindRead
  have at7 := readUint_split seqRead
  have at15 := readArray16_split uuidRead
  have at31 := readUint_split prevRead
  have at39 := readPosition_split beginRead
  have at51 := readPosition_split endRead
  have at63 := readUint_split logicalRead
  have at71 := readUint_split distinctRead
  have at79 := readUint_split envelopeRead
  have at83 := readUint_split crcRead
  simp only [List.drop_zero,Nat.zero_add,Nat.reduceAdd] at at0 at4 at6 at7 at15 at31 at39 at51 at63 at71 at79 at83
  rw [List.drop_eq_nil_of_le (show encoded.length ≤ 87 by omega),List.append_nil] at at83
  have accepted := (@validateTxMeta_ok _ true).mpr (validateTxMeta_ok.mp valid)
  refine ⟨?_,readUint_lt seqRead,readUint_lt logicalRead,readUint_lt envelopeRead,readUint_lt crcRead⟩
  rw [encodeTxMeta,accepted,ok_bind,pure_ok,txMetaBody,TransactionKind.decode_canonical kindDecoded]
  simp only [List.append_assoc,List.cons_append,List.nil_append,formatVersion]
  rw [←at83,←at79,←at71,←at63,←at51,←at39,←at31,←at15,←at7,←at6,←at4,←at0]

theorem decodeValueState_canonical {encoded : Bytes} {state : Option ValuePointer} {taken : Nat}
    (read : decodeValueState encoded = .ok (state,taken)) :
    ∃ written, encodeValueState state = .ok written ∧ encoded = written ++ encoded.drop taken ∧
      taken = written.length ∧ StateFits state := by
  unfold decodeValueState at read
  split at read
  · rename_i rest
    simp only [Except.ok.injEq,Prod.mk.injEq] at read
    obtain ⟨rfl,rfl⟩ := read
    exact ⟨[0],rfl,rfl,rfl,fun pointer none => by cases none⟩
  · rename_i rest
    simp only [bind_ok,orError_ok,mapError_ok,pure_ok,Except.ok.injEq,Prod.mk.injEq] at read
    obtain ⟨bytes,field,pointer,decoded,rfl,rfl⟩ := read
    have split := drop_eq_slice field
    have width := slice?_length field
    simp only [List.drop_succ_cons,List.drop_zero,Nat.reduceAdd] at split
    refine ⟨1 :: bytes,?_,?_,by simp [width],?_⟩
    · simp [encodeValueState,ValuePointer.encode_decode decoded]
    · simp only [List.drop_succ_cons,List.cons_append]
      rw [←split]
    · intro other same
      obtain rfl := Option.mem_some_iff.mp same
      exact (ValuePointer.decode_offset decoded).1
  · cases read

theorem suffix?_ok {bytes rest : Bytes} {offset : Nat} :
    suffix? bytes offset = some rest ↔ offset ≤ bytes.length ∧ bytes.drop offset = rest := by
  unfold suffix?
  split
  · rename_i inside
    simp [inside]
  · rename_i outside
    simp [outside]

theorem decodeTxMutation_canonical {encoded : Bytes} {mutation : TxMutation}
    (read : decodeTxMutation encoded = .ok mutation) : encodeTxMutation mutation = .ok encoded ∧ mutation.Fits := by
  simp only [decodeTxMutation,bind_ok,exists_unit,rejectIf_ok,orCorrupt_ok,orError_ok,readU16,pure_ok,Except.ok.injEq,
    not_not,ne_eq,maxUserKeyLen,suffix?_ok] at read
  obtain ⟨keyLen,lenRead,bounds,userKey,keyRead,_,⟨-,rfl⟩,⟨before,beforeLen⟩,beforeRead,_,⟨-,rfl⟩,⟨after,afterLen⟩,
    afterRead,consumed,beforeKey,afterKey,rfl⟩ := read
  simp only at afterRead consumed beforeKey afterKey
  obtain ⟨beforeBytes,beforeWritten,beforeSplit,rfl,beforeFits⟩ := decodeValueState_canonical beforeRead
  obtain ⟨afterBytes,afterWritten,afterSplit,rfl,afterFits⟩ := decodeValueState_canonical afterRead
  have width := slice?_length keyRead
  have at0 := readUint_split lenRead
  have at2 := drop_eq_slice keyRead
  simp only [List.drop_zero,Nat.zero_add] at at0
  rw [List.drop_drop] at beforeSplit afterSplit
  have done : encoded.drop (2 + keyLen + beforeBytes.length + afterBytes.length) = [] :=
    List.drop_eq_nil_of_le (by omega)
  rw [done,List.append_nil] at afterSplit
  have keyed : validateUserKey userKey true = .ok () := by
    refine rejectIf_false ?_
    rw [List.isEmpty_iff,←List.length_eq_zero_iff,width]
    exact bounds
  have acceptedBefore := (@validateValueStateKeyLen_ok _ _ true).mpr (validateValueStateKeyLen_ok.mp beforeKey)
  have acceptedAfter := (@validateValueStateKeyLen_ok _ _ true).mpr (validateValueStateKeyLen_ok.mp afterKey)
  refine ⟨?_,beforeFits,afterFits⟩
  simp only [encodeTxMutation,keyed,acceptedBefore,acceptedAfter,ok_bind,beforeWritten,afterWritten,pure_ok]
  rw [rejectIf_false (by rw [width]; omega),ok_bind,width,List.append_assoc,List.append_assoc,←afterSplit,
    ←beforeSplit,←at2,←at0]

end records

section descriptor
variable [Crc32c]

def entryMutation (entry : Bytes × Bytes) : EncodedMutation := ⟨entry.1,entry.2⟩

omit [Crc32c] in
theorem entryMutation_entry (entries : List (Bytes × Bytes)) :
    (entries.map entryMutation).map EncodedMutation.entry = entries := by
  rw [List.map_map]
  exact List.map_id _

-- The loop of the decoder, read backwards: the entries are those the encoder writes for the mutations.
theorem decodeMutations_canonical {commitSeq ordinal crc checksum : Nat} {seen : List Bytes}
    {entries : List (Bytes × Bytes)} {mutations : List TxMutation}
    (read : decodeMutations commitSeq ordinal crc seen entries = .ok (mutations,checksum)) :
    encodeMutations commitSeq ordinal seen mutations = .ok (entries.map entryMutation) ∧
      checksum = (entries.map entryMutation).foldl mutationCrc crc ∧ (∀ mutation ∈ mutations, mutation.Fits) ∧
      (∀ mutation ∈ entries.map entryMutation, mutation.value.length < 4294967296) ∧
      ∀ index (bound : index < entries.length),
        decodeTxMutationKey (entries[index]).1 = .ok (commitSeq,ordinal + index) := by
  induction entries generalizing ordinal crc seen mutations with
  | nil =>
    simp only [decodeMutations,Except.ok.injEq,Prod.mk.injEq] at read
    obtain ⟨rfl,rfl⟩ := read
    exact ⟨rfl,rfl,by simp,by simp,by simp⟩
  | cons entry rest ih =>
    obtain ⟨key,value⟩ := entry
    simp only [decodeMutations,bind_ok,exists_unit,rejectIf_ok,pure_ok,Except.ok.injEq,Prod.mk.injEq,not_or,not_not,
      ne_eq,Nat.not_le,ge_iff_le] at read
    obtain ⟨⟨_,_⟩,keyRead,⟨rfl,rfl⟩,mutation,mutationRead,fresh,width,⟨later,_⟩,read,rfl,rfl⟩ := read
    obtain ⟨encodes,summed,fits,small,keyed⟩ := ih read
    obtain ⟨keyWritten,-,-⟩ := decodeTxMutationKey_canonical keyRead
    obtain ⟨written,mutationFits⟩ := decodeTxMutation_canonical mutationRead
    refine ⟨?_,summed,?_,?_,?_⟩
    · simp only [encodeMutations,keyWritten,written,encodes,ok_bind,pure_ok]
      rw [rejectIf_false fresh,ok_bind]
      rfl
    · rw [List.forall_mem_cons]
      exact ⟨mutationFits,fits⟩
    · rw [List.map_cons,List.forall_mem_cons]
      exact ⟨width,small⟩
    · intro index bound
      cases index with
      | zero => exact keyRead
      | succ index =>
        have next := keyed index (by simpa using bound)
        rw [Nat.add_assoc,Nat.add_comm 1] at next
        exact next

-- The checksum over the metadata and every entry, as both sides compute it.
def descriptorChecksum (metaValue : Bytes) (mutations : List EncodedMutation) : Nat :=
  mutations.foldl mutationCrc (crc32cAppend (crc32c descriptorCrcMagic) (metaValue.take 83))

theorem descriptorCrc_eq {metaValue : Bytes} {mutations : List EncodedMutation} (encoding : Bool)
    (small : ∀ mutation ∈ mutations, mutation.value.length < 4294967296) :
    descriptorCrc metaValue mutations encoding = .ok (descriptorChecksum metaValue mutations) := by
  unfold descriptorCrc descriptorChecksum
  generalize crc32cAppend (crc32c descriptorCrcMagic) (metaValue.take 83) = start
  induction mutations generalizing start with
  | nil => rfl
  | cons mutation rest ih =>
    have bound := small mutation List.mem_cons_self
    rw [List.foldlM_cons,rejectIf_false (by omega),ok_bind,pure_ok,ok_bind,List.foldl_cons]
    exact ih (fun other member => small other (List.mem_cons_of_mem _ member)) _

omit [Crc32c] in
theorem encodeTxMeta_checksum {txMeta : TxMeta} {encoded : Bytes} (written : encodeTxMeta txMeta = .ok encoded)
    (checksum : Nat) :
    encodeTxMeta {txMeta with descriptorCrc32c := checksum} = .ok (txMetaBody txMeta ++ leBytes 4 checksum) := by
  simp only [encodeTxMeta,bind_ok,exists_unit,pure_ok,Except.ok.injEq] at written
  have accepted : validateTxMeta {txMeta with descriptorCrc32c := checksum} true = .ok () := written.1
  rw [encodeTxMeta,accepted]
  rfl

theorem decodeDescriptor_canonical {metaKey metaValue : Bytes} {entries : List (Bytes × Bytes)}
    {descriptor : TransactionDescriptor} (read : decodeDescriptor metaKey metaValue entries = .ok descriptor) :
    encodeDescriptor descriptor = .ok ⟨metaKey,metaValue,entries.map entryMutation⟩ ∧ descriptor.Fits ∧
      descriptor.txMeta.descriptorCrc32c = descriptorChecksum metaValue (entries.map entryMutation) ∧
      decodeTxMeta metaValue = .ok descriptor.txMeta ∧ entries.length = descriptor.txMeta.distinctKeyCount ∧
      ∀ index (bound : index < entries.length),
        decodeTxMutationKey (entries[index]).1 = .ok (descriptor.txMeta.commitSeq,index) := by
  simp only [decodeDescriptor,bind_ok,exists_unit,rejectIf_ok,pure_ok,Except.ok.injEq,not_not,ne_eq] at read
  obtain ⟨keySeq,keyRead,txMeta,metaRead,rfl,count,⟨mutations,checksum⟩,decoded,summed,kinds,rfl⟩ := read
  obtain ⟨keyWritten,-⟩ := decodeTxMetaKey_canonical keyRead
  obtain ⟨metaWritten,fits⟩ := decodeTxMeta_canonical metaRead
  obtain ⟨encodes,total,each,small,keyed⟩ := decodeMutations_canonical decoded
  have body := (decodeTxMeta_encode metaWritten fits).2.2
  have valid := metaWritten
  simp only [encodeTxMeta,bind_ok,exists_unit,pure_ok,Except.ok.injEq] at valid
  have length : mutations.length = txMeta.distinctKeyCount := by
    rw [←count,←(encodeMutations_entry encodes).1,List.length_map]
  have allowed : validateTransactionMutations txMeta.transactionKind mutations true = .ok () := by
    simpa [validateTransactionMutations] using kinds
  have covered : (txMetaBody txMeta ++ leBytes 4 0).take 83 = txMetaBody txMeta :=
    List.take_left' (txMetaBody_length txMeta)
  have computed := @descriptorCrc_eq _ (txMetaBody txMeta ++ leBytes 4 0) (entries.map entryMutation) true small
  have stored := total
  rw [body] at total
  rw [descriptorChecksum,covered,←total] at computed
  refine ⟨?_,⟨fits.seq,fits.count,fits.envelope,each⟩,summed.symm.trans stored,metaRead,count,?_⟩
  · simp only [encodeDescriptor,valid.1,allowed,encodes,encodeTxMeta_checksum metaWritten,ok_bind]
    rw [rejectIf_false (by simp [length]),ok_bind,computed]
    simp only [ok_bind,keyWritten,pure_ok]
    simp only at summed
    rw [summed,valid.2]
  · intro index bound
    simpa using keyed index bound

-- The descriptors a transaction may have.
structure TxMutation.Valid (mutation : TxMutation) : Prop where
  named : mutation.userKey ≠ []
  short : mutation.userKey.length ≤ 60000
  pointer : ∀ pointer : ValuePointer, pointer ∈ mutation.beforeState ∨ pointer ∈ mutation.afterState →
    pointer.validateFields = .ok () ∧ pointer.recordOffset < 4294967296 ∧
      pointer.recordLen = 55 + (mutation.userKey.length + pointer.valueLen)

structure TransactionDescriptor.Valid (descriptor : TransactionDescriptor) : Prop where
  seq : 0 < descriptor.txMeta.commitSeq ∧ descriptor.txMeta.commitSeq < 18446744073709551616
  prev : descriptor.txMeta.prevSeq = descriptor.txMeta.commitSeq - 1
  identity : descriptor.txMeta.txUuid.isZero = false
  nonempty : descriptor.mutations ≠ []
  counted : descriptor.txMeta.distinctKeyCount = descriptor.mutations.length
  logical : descriptor.mutations.length ≤ descriptor.txMeta.logicalOpCount ∧
    descriptor.txMeta.logicalOpCount < 18446744073709551616
  placed : descriptor.txMeta.placed = true
  envelope : descriptor.txMeta.envelopeCrc32c < 4294967296
  distinct : (descriptor.mutations.map TxMutation.userKey).Nodup
  mutation : ∀ mutation ∈ descriptor.mutations, mutation.Valid
  deletes : descriptor.txMeta.transactionKind = .indexOnlyDelete →
    ∀ mutation ∈ descriptor.mutations, mutation.afterState = none

omit [Crc32c] in
theorem ValuePointer.layout_ok {pointer : ValuePointer} {keyLen : Nat} (valid : pointer.validateFields = .ok ())
    (sized : pointer.recordLen = 55 + (keyLen + pointer.valueLen)) :
    ∃ layout, pointer.layout = .ok layout ∧ layout.keyLen = keyLen := by
  have bounds := ValuePointer.validateFields_ok.mp valid
  simp only [ValuePointer.layout,valid,ok_bind,kvRecordFixedLenWithCrc,recordCrcLen]
  rw [rejectIf_false (by omega),ok_bind,rejectIf_false (by omega),ok_bind,rejectIf_false (by omega),ok_bind,
    rejectIf_false (by omega),ok_bind,pure_ok]
  exact ⟨_,rfl,by simp only; omega⟩

omit [Crc32c] in
theorem encodeValueState_ok {state : Option ValuePointer}
    (valid : ∀ pointer ∈ state, pointer.validateFields = .ok ()) : ∃ encoded, encodeValueState state = .ok encoded := by
  cases state with
  | none => exact ⟨_,rfl⟩
  | some pointer =>
    obtain ⟨bytes,written⟩ := ValuePointer.encode_ok (valid pointer rfl)
    exact ⟨1 :: bytes,by simp [encodeValueState,written]⟩

omit [Crc32c] in
theorem TxMutation.Valid.encodes {mutation : TxMutation} (valid : mutation.Valid) :
    ∃ encoded, encodeTxMutation mutation = .ok encoded := by
  have short := valid.short
  have keyed : validateUserKey mutation.userKey true = .ok () := by
    refine rejectIf_false ?_
    simp only [List.isEmpty_iff,valid.named,maxUserKeyLen,false_or]
    omega
  have before : validateValueStateKeyLen mutation.beforeState mutation.userKey.length true = .ok () := by
    refine validateValueStateKeyLen_ok.mpr (fun pointer present => ?_)
    obtain ⟨fields,-,sized⟩ := valid.pointer pointer (.inl present)
    exact ValuePointer.layout_ok fields sized
  have after : validateValueStateKeyLen mutation.afterState mutation.userKey.length true = .ok () := by
    refine validateValueStateKeyLen_ok.mpr (fun pointer present => ?_)
    obtain ⟨fields,-,sized⟩ := valid.pointer pointer (.inr present)
    exact ValuePointer.layout_ok fields sized
  obtain ⟨beforeBytes,beforeWritten⟩ := encodeValueState_ok
    (fun pointer present => (valid.pointer pointer (.inl present)).1)
  obtain ⟨afterBytes,afterWritten⟩ := encodeValueState_ok
    (fun pointer present => (valid.pointer pointer (.inr present)).1)
  simp only [encodeTxMutation,keyed,before,after,ok_bind]
  rw [rejectIf_false (by omega),ok_bind,beforeWritten,ok_bind,afterWritten,ok_bind,pure_ok]
  exact ⟨_,rfl⟩

omit [Crc32c] in
theorem encodeMutations_exists {commitSeq : Nat} (present : commitSeq ≠ 0) {mutations : List TxMutation}
    (valid : ∀ mutation ∈ mutations, mutation.Valid) (ordinal : Nat) (seen : List Bytes)
    (distinct : (mutations.map TxMutation.userKey).Nodup)
    (fresh : ∀ mutation ∈ mutations, mutation.userKey ∉ seen) :
    ∃ encoded, encodeMutations commitSeq ordinal seen mutations = .ok encoded := by
  induction mutations generalizing ordinal seen with
  | nil => exact ⟨_,rfl⟩
  | cons mutation rest ih =>
    obtain ⟨value,written⟩ := (valid mutation List.mem_cons_self).encodes
    rw [List.map_cons,List.nodup_cons] at distinct
    obtain ⟨later,done⟩ := ih (fun other member => valid other (List.mem_cons_of_mem _ member)) (ordinal + 1)
      (mutation.userKey :: seen) distinct.2 (by
        intro other member repeated
        rcases List.mem_cons.mp repeated with same | earlier
        · exact distinct.1 (same ▸ List.mem_map_of_mem member)
        · exact fresh other (List.mem_cons_of_mem _ member) earlier)
    have keyed := encodeTxMutationKey_ok.mpr (show commitSeq ≠ 0 ∧ _ = txKeyHead commitSeq ++ txMutationKind ::
      beBytes 8 ordinal from ⟨present,rfl⟩)
    rw [encodeMutations,rejectIf_false (fresh mutation List.mem_cons_self),ok_bind,keyed,ok_bind,written,ok_bind,done]
    exact ⟨_,rfl⟩

omit [Crc32c] in
theorem TransactionDescriptor.Valid.fits {descriptor : TransactionDescriptor} (valid : descriptor.Valid) :
    descriptor.Fits := by
  refine ⟨valid.seq.2,valid.logical.2,valid.envelope,?_⟩
  intro mutation member
  exact ⟨fun pointer present => ((valid.mutation mutation member).pointer pointer (.inl present)).2.1,
    fun pointer present => ((valid.mutation mutation member).pointer pointer (.inr present)).2.1⟩

theorem TransactionDescriptor.Valid.encodes {descriptor : TransactionDescriptor} (valid : descriptor.Valid) :
    ∃ encoded, encodeDescriptor descriptor = .ok encoded := by
  have positive := List.length_pos_iff.mpr valid.nonempty
  have present : descriptor.txMeta.commitSeq ≠ 0 := Nat.pos_iff_ne_zero.mp valid.seq.1
  obtain ⟨mutations,encodes⟩ := encodeMutations_exists present valid.mutation 0 [] valid.distinct (by simp)
  have accepted : validateTxMeta descriptor.txMeta true = .ok () := by
    refine validateTxMeta_ok.mpr ⟨⟨present,valid.prev,valid.identity,?_,?_⟩,valid.placed⟩
    · rw [valid.counted]
      omega
    · rw [valid.counted]
      exact valid.logical.1
  have allowed : validateTransactionMutations descriptor.txMeta.transactionKind descriptor.mutations true = .ok () := by
    refine rejectIf_false ?_
    rintro ⟨kind,put⟩
    obtain ⟨mutation,member,isPut⟩ := List.any_eq_true.mp put
    rw [valid.deletes kind mutation member] at isPut
    cases isPut
  have written : encodeTxMeta descriptor.txMeta = .ok (txMetaBody descriptor.txMeta ++
      leBytes 4 descriptor.txMeta.descriptorCrc32c) := by
    rw [encodeTxMeta,accepted,ok_bind,pure_ok]
  have small : ∀ mutation ∈ mutations, mutation.value.length < 4294967296 := by
    intro mutation member
    obtain ⟨index,bound,rfl⟩ := List.mem_iff_getElem.mp member
    obtain ⟨-,source,there,encoded⟩ := (encodeMutations_entry encodes).2 index bound
    have fits := valid.fits.mutation source there
    exact (decodeTxMutation_encode encoded fits.1 fits.2).2.2
  have keyed := encodeTxMetaKey_ok.mpr (show descriptor.txMeta.commitSeq ≠ 0 ∧ _ = txKeyHead
    descriptor.txMeta.commitSeq ++ [txMetaKind] from ⟨present,rfl⟩)
  simp only [encodeDescriptor,accepted,allowed,encodes,encodeTxMeta_checksum written,ok_bind]
  rw [rejectIf_false (fun differs => differs valid.counted),ok_bind,descriptorCrc_eq true small,ok_bind,keyed,ok_bind,
    pure_ok]
  exact ⟨_,rfl⟩

-- What the metadata decoders answer on arbitrary bytes.
def MetadataRejectable (error : StorageError) : Prop :=
  error.kind = .corruption ∨ error.kind = .incompatibleFormat

omit [Crc32c] in
@[simp] theorem decodeCorruption_rejectable : MetadataRejectable decodeCorruption := .inl rfl

omit [Crc32c] in
@[simp] theorem decodeIncompatible_rejectable : MetadataRejectable decodeIncompatible := .inr rfl

omit [Crc32c] in
@[simp] theorem metadataErrorFromPointer_rejectable (kind : StorageErrorKind) :
    MetadataRejectable (metadataErrorFromPointer kind) := by
  cases kind <;> first | exact .inl rfl | exact .inr rfl

omit [Crc32c] in
@[simp] theorem orCorrupt_fails (x : Result α) : FailsWith MetadataRejectable (orCorrupt x) := by
  cases x <;> simp [orCorrupt,Except.mapError]

omit [Crc32c] in
theorem validateValueStateKeyLen_fails (state : Option ValuePointer) (userKeyLen : Nat) :
    FailsWith MetadataRejectable (validateValueStateKeyLen state userKeyLen false) := by
  cases state with
  | none => exact failsWith_ok ()
  | some pointer =>
    have mapped : FailsWith MetadataRejectable (pointer.layout.mapError (fun error =>
        if (false : Bool) = true then encodeInvalid else metadataErrorFromPointer error.kind)) := by
      cases pointer.layout <;> simp [Except.mapError]
    exact failsWith_bind.mpr ⟨mapped,fun layout _ => by simp [metadataInvalid]⟩

omit [Crc32c] in
theorem decodeValueState_fails (encoded : Bytes) : FailsWith MetadataRejectable (decodeValueState encoded) := by
  unfold decodeValueState
  split
  · exact failsWith_ok _
  · refine failsWith_bind.mpr ⟨by simp,fun bytes _ => failsWith_bind.mpr ⟨?_,fun pointer _ => by simp⟩⟩
    cases ValuePointer.decode bytes <;> simp [Except.mapError]
  · simp

omit [Crc32c] in
theorem decodeTxMutation_fails (encoded : Bytes) : FailsWith MetadataRejectable (decodeTxMutation encoded) := by
  simp [decodeTxMutation,decodeValueState_fails,validateValueStateKeyLen_fails]

omit [Crc32c] in
theorem decodeTxMutationKey_fails (key : Bytes) : FailsWith MetadataRejectable (decodeTxMutationKey key) := by
  simp [decodeTxMutationKey,readU64Be]

theorem decodeMutations_fails (commitSeq ordinal crc : Nat) (seen : List Bytes) (entries : List (Bytes × Bytes)) :
    FailsWith MetadataRejectable (decodeMutations commitSeq ordinal crc seen entries) := by
  induction entries generalizing ordinal crc seen with
  | nil => exact failsWith_ok _
  | cons entry rest ih =>
    simp [decodeMutations,decodeTxMutationKey_fails,decodeTxMutation_fails,ih]

omit [Crc32c] in
theorem decodeTxMeta_fails (encoded : Bytes) : FailsWith MetadataRejectable (decodeTxMeta encoded) := by
  have kinds : ∀ code, FailsWith MetadataRejectable (TransactionKind.decode code) := by
    intro code
    unfold TransactionKind.decode
    split <;> simp
  simp [decodeTxMeta,kinds,validateTxMeta,metadataInvalid]

theorem decodeDescriptor_fails (metaKey metaValue : Bytes) (entries : List (Bytes × Bytes)) :
    FailsWith MetadataRejectable (decodeDescriptor metaKey metaValue entries) := by
  simp [decodeDescriptor,decodeTxMetaKey,readU64Be,decodeTxMeta_fails,decodeMutations_fails,
    validateTransactionMutations,metadataInvalid]

-- The stored form of a descriptor is unique, and no other list of entries passes with its metadata.
theorem descriptor_codec_exact :
    (∀ descriptor : TransactionDescriptor, descriptor.Valid →
      ∃ encoded, encodeDescriptor descriptor = .ok encoded ∧
        decodeDescriptor encoded.metaKey encoded.metaValue (encoded.mutations.map EncodedMutation.entry) =
          .ok (descriptor.sealed (descriptorChecksum encoded.metaValue encoded.mutations))) ∧
    (∀ (metaKey metaValue : Bytes) (entries : List (Bytes × Bytes)) (descriptor : TransactionDescriptor),
      decodeDescriptor metaKey metaValue entries = .ok descriptor →
      encodeDescriptor descriptor = .ok ⟨metaKey,metaValue,entries.map entryMutation⟩ ∧
      (∀ other : List (Bytes × Bytes), (∀ entry ∈ other, entry ∈ entries) → other ≠ entries →
        ∃ error, decodeDescriptor metaKey metaValue other = .error error) ∧
      (∀ other : List (Bytes × Bytes),
        (∃ entry ∈ other, ∃ commitSeq ordinal, decodeTxMutationKey entry.1 = .ok (commitSeq,ordinal) ∧
          commitSeq ≠ descriptor.txMeta.commitSeq) →
        ∃ error, decodeDescriptor metaKey metaValue other = .error error)) ∧
    (∀ (metaKey metaValue : Bytes) (entries : List (Bytes × Bytes)),
      (∃ descriptor, decodeDescriptor metaKey metaValue entries = .ok descriptor) ∨
      ∃ error, decodeDescriptor metaKey metaValue entries = .error error ∧
        (error.kind = .corruption ∨ error.kind = .incompatibleFormat)) ∧
    (∀ encoded : Bytes, ValuePointer.decode encoded = .error (decodeError .corruption) ∨ encoded.length = 16) := by
  refine ⟨?_,?_,?_,?_⟩
  · intro descriptor valid
    obtain ⟨encoded,written⟩ := valid.encodes
    obtain ⟨crc,-,read⟩ := decodeDescriptor_encode written valid.fits
    obtain ⟨-,-,computed,-⟩ := decodeDescriptor_canonical read
    have same : (encoded.mutations.map EncodedMutation.entry).map entryMutation = encoded.mutations := by
      rw [List.map_map]
      exact List.map_id _
    rw [same] at computed
    exact ⟨encoded,written,by rw [←computed]; exact read⟩
  · intro metaKey metaValue entries descriptor read
    obtain ⟨written,-,-,metaRead,count,keyed⟩ := decodeDescriptor_canonical read
    refine ⟨written,?_,?_⟩
    · intro other drawn different
      cases again : decodeDescriptor metaKey metaValue other with
      | error error => exact ⟨error,rfl⟩
      | ok second =>
        obtain ⟨-,-,-,secondMeta,secondCount,secondKeyed⟩ := decodeDescriptor_canonical again
        have sameMeta : second.txMeta = descriptor.txMeta := Except.ok.inj (secondMeta.symm.trans metaRead)
        have length : other.length = entries.length := by rw [secondCount,count,sameMeta]
        refine absurd (List.ext_getElem length ?_) different
        intro index left right
        -- The entry at a place carries the ordinal of that place, so it is the one that stood there.
        obtain ⟨place,bound,found⟩ := List.mem_iff_getElem.mp (drawn (other[index]) (List.getElem_mem left))
        have here := secondKeyed index left
        rw [←found,keyed place bound,sameMeta] at here
        simp only [Except.ok.injEq,Prod.mk.injEq,true_and] at here
        subst here
        exact found.symm
    · rintro other ⟨entry,member,commitSeq,ordinal,entryRead,foreign⟩
      cases again : decodeDescriptor metaKey metaValue other with
      | error error => exact ⟨error,rfl⟩
      | ok second =>
        obtain ⟨-,-,-,secondMeta,-,secondKeyed⟩ := decodeDescriptor_canonical again
        have sameMeta : second.txMeta = descriptor.txMeta := Except.ok.inj (secondMeta.symm.trans metaRead)
        obtain ⟨index,bound,rfl⟩ := List.mem_iff_getElem.mp member
        rw [secondKeyed index bound,sameMeta] at entryRead
        simp only [Except.ok.injEq,Prod.mk.injEq] at entryRead
        exact absurd entryRead.1.symm foreign
  · intro metaKey metaValue entries
    cases read : decodeDescriptor metaKey metaValue entries with
    | ok descriptor => exact .inl ⟨descriptor,rfl⟩
    | error error => exact .inr ⟨error,rfl,decodeDescriptor_fails metaKey metaValue entries error read⟩
  · intro encoded
    by_cases width : encoded.length = 16
    · exact .inr width
    · refine .inl ?_
      rw [ValuePointer.decode,rejectIf,if_pos width,error_bind]

end descriptor

-- A put of one key and a deletion of another, stored and read back with the real checksum.
theorem descriptor_codec_exact_put :
    let descriptor : TransactionDescriptor :=
      ⟨⟨.vlogEnvelope,1,⟨List.replicate 16 7,rfl⟩,0,⟨0,0⟩,⟨0,300⟩,2,2,5,0⟩,
        [⟨[1],none,some ⟨0,0,135,58,2⟩⟩,⟨[2],some ⟨0,0,300,59,3⟩,none⟩]⟩
    ∃ encoded checksum, @encodeDescriptor castagnoli descriptor = .ok encoded ∧
      @decodeDescriptor castagnoli encoded.metaKey encoded.metaValue (encoded.mutations.map EncodedMutation.entry) =
        .ok (descriptor.sealed checksum) := by
  intro descriptor
  have valid : descriptor.Valid := by
    refine ⟨by decide,rfl,by decide,by decide,rfl,by decide,by decide,by decide,by decide,?_,fun other => by cases other⟩
    intro mutation member
    simp only [descriptor,List.mem_cons,List.not_mem_nil,or_false] at member
    rcases member with rfl | rfl
    · refine ⟨by decide,by decide,?_⟩
      rintro pointer (none | same)
      · cases none
      · obtain rfl := Option.mem_some_iff.mp same
        exact ⟨rfl,by decide,by decide⟩
    · refine ⟨by decide,by decide,?_⟩
      rintro pointer (same | none)
      · obtain rfl := Option.mem_some_iff.mp same
        exact ⟨rfl,by decide,by decide⟩
      · cases none
  obtain ⟨encoded,written,read⟩ := (@descriptor_codec_exact castagnoli).1 descriptor valid
  exact ⟨encoded,_,written,read⟩

end ExpirKv
