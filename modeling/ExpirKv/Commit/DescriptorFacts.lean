import ExpirKv.Library.Keyspace
import ExpirKv.Commit.Descriptor
import ExpirKv.Vlog.FormatFacts

namespace ExpirKv

@[simp] theorem txKeyMagic_length : txKeyMagic.length = 2 := by decide
@[simp] theorem txMetaMagic_length : txMetaMagic.length = 4 := by decide
@[simp] theorem durableFrontierMagic_length : durableFrontierMagic.length = 4 := by decide
@[simp] theorem recoveryStateMagic_length : recoveryStateMagic.length = 4 := by decide
@[simp] theorem txKeyHead_length (commitSeq : Nat) : (txKeyHead commitSeq).length = 10 := by simp [txKeyHead]

@[simp] theorem orCorrupt_ok {x : Result α} {value : α} : orCorrupt x = .ok value ↔ x = .ok value := mapError_ok
@[simp] theorem orCorrupt_value (value : α) : orCorrupt (.ok value : Result α) = .ok value := rfl

section keys

theorem encodeTxMetaKey_ok {commitSeq : Nat} {key : Bytes} :
    encodeTxMetaKey commitSeq = .ok key ↔ commitSeq ≠ 0 ∧ txKeyHead commitSeq ++ [txMetaKind] = key := by
  simp [encodeTxMetaKey]

theorem encodeTxMutationKey_ok {commitSeq ordinal : Nat} {key : Bytes} :
    encodeTxMutationKey commitSeq ordinal = .ok key ↔
      commitSeq ≠ 0 ∧ txKeyHead commitSeq ++ txMutationKind :: beBytes 8 ordinal = key := by
  simp [encodeTxMutationKey]

theorem readU64Be_mid (before after : Bytes) {value offset : Nat} (place : before.length = offset)
    (fits : value < 18446744073709551616) :
    readU64Be (before ++ (beBytes 8 value ++ after)) offset = .ok value := by
  have field := slice?_mid before (beBytes 8 value) after place (beBytes_length 8 value)
  have round : beNat (beBytes 8 value) = value := beNat_beBytes (by omega)
  simp [readU64Be,field,orError,Except.map,round]

theorem decodeTxMetaKey_encode {commitSeq : Nat} {key : Bytes} (written : encodeTxMetaKey commitSeq = .ok key)
    (fits : commitSeq < 18446744073709551616) : decodeTxMetaKey key = .ok commitSeq ∧ key.length = 11 := by
  obtain ⟨present,rfl⟩ := encodeTxMetaKey_ok.mp written
  have seq := readU64Be_mid txKeyMagic [txMetaKind] txKeyMagic_length fits
  have start := slice?_here (beBytes 8 commitSeq ++ [txMetaKind]) txKeyMagic_length
  simp only [txKeyHead,List.append_assoc] at *
  refine ⟨?_,by simp⟩
  simp [decodeTxMetaKey,seq,start,present]

theorem decodeTxMutationKey_encode {commitSeq ordinal : Nat} {key : Bytes}
    (written : encodeTxMutationKey commitSeq ordinal = .ok key) (fits : commitSeq < 18446744073709551616)
    (small : ordinal < 18446744073709551616) :
    decodeTxMutationKey key = .ok (commitSeq,ordinal) ∧ key.length = 19 := by
  obtain ⟨present,rfl⟩ := encodeTxMutationKey_ok.mp written
  have seq := readU64Be_mid txKeyMagic (txMutationKind :: beBytes 8 ordinal) txKeyMagic_length fits
  have start := slice?_here (beBytes 8 commitSeq ++ txMutationKind :: beBytes 8 ordinal) txKeyMagic_length
  have last := readU64Be_mid (txKeyMagic ++ (beBytes 8 commitSeq ++ [txMutationKind])) []
    (by simp : _ = 11) small
  simp only [txKeyHead,List.append_assoc,List.cons_append,List.nil_append,List.append_nil] at *
  refine ⟨?_,by simp⟩
  simp [decodeTxMutationKey,seq,start,last,present]

theorem txKeyHead_lt {left right : Nat} (fits : right < 18446744073709551616) (lower : left < right) :
    compare (txKeyHead left) (txKeyHead right) = .lt := by
  rw [txKeyHead,txKeyHead,compare_append_left]
  exact compare_beBytes_lt fits lower

-- The entries of a transaction stand in one stretch of the keyspace.
theorem txKey_compare {left right : Nat} (rest : Bytes) (first : left < 18446744073709551616)
    (second : right < 18446744073709551616) :
    compare (txKeyHead left ++ rest) (txKeyHead right) = .lt ↔ left < right := by
  constructor
  · intro before
    by_contra upper
    by_cases same : left = right
    · subst same
      have swapped : compare (txKeyHead left) (txKeyHead left ++ rest) = .gt := Std.OrientedCmp.gt_of_lt before
      cases rest with
      | nil => simp at swapped
      | cons byte rest => rw [compare_append_right _ _ (by simp)] at swapped; cases swapped
    · have above := compare_append_of_lt [] rest (by simp) (txKeyHead_lt first (by omega : right < left))
      rw [List.append_nil] at above
      rw [Std.OrientedCmp.gt_of_lt above] at before
      cases before
  · intro lower
    have step := compare_append_of_lt rest [] (by simp) (txKeyHead_lt second lower)
    rwa [List.append_nil] at step

end keys

section records

@[simp] theorem TransactionKind.decode_encode (kind : TransactionKind) : decode kind.encode = .ok kind := by
  cases kind <;> rfl

@[simp] theorem RecoveryPhase.decode_encode (phase : RecoveryPhase) : decode phase.encode = .ok phase := by
  cases phase <;> rfl

@[simp] theorem txMetaBody_length (txMeta : TxMeta) : (txMetaBody txMeta).length = 83 := by
  simp [txMetaBody]

theorem validateTxMeta_ok {txMeta : TxMeta} {encoding : Bool} :
    validateTxMeta txMeta encoding = .ok () ↔
      (txMeta.commitSeq ≠ 0 ∧ txMeta.prevSeq = txMeta.commitSeq - 1 ∧ txMeta.txUuid.isZero = false ∧
        txMeta.distinctKeyCount ≠ 0 ∧ txMeta.distinctKeyCount ≤ txMeta.logicalOpCount) ∧ txMeta.placed = true := by
  simp only [validateTxMeta,bind_ok,exists_unit,rejectIf_ok,Bool.not_eq_false,not_or,not_not,Bool.not_eq_true]
  constructor
  · rintro ⟨⟨seq,prev,uuid,logical,distinct,bound⟩,placed⟩
    exact ⟨⟨seq,prev,uuid,distinct,by omega⟩,placed⟩
  · rintro ⟨⟨seq,prev,uuid,distinct,bound⟩,placed⟩
    exact ⟨⟨seq,prev,uuid,by omega,distinct,by omega⟩,placed⟩

-- Both kinds leave positions that fit their fields.
theorem TxMeta.placed_valid {txMeta : TxMeta} (placed : txMeta.placed = true) :
    txMeta.vlogBegin.isValid = true ∧ txMeta.vlogEnd.isValid = true := by
  unfold TxMeta.placed at placed
  split at placed
  · simp only [Bool.and_eq_true] at placed
    exact placed.1
  · simp only [Bool.and_eq_true,beq_iff_eq] at placed
    rw [placed.1.1,placed.1.2]
    decide

-- The widths of the fields that the validator leaves open.
structure TxMeta.Fits (txMeta : TxMeta) : Prop where
  seq : txMeta.commitSeq < 18446744073709551616
  count : txMeta.logicalOpCount < 18446744073709551616
  envelope : txMeta.envelopeCrc32c < 4294967296
  checksum : txMeta.descriptorCrc32c < 4294967296

theorem decodeTxMeta_encode {txMeta : TxMeta} {encoded : Bytes} (written : encodeTxMeta txMeta = .ok encoded)
    (fits : txMeta.Fits) :
    decodeTxMeta encoded = .ok txMeta ∧ encoded.length = 87 ∧ encoded.take 83 = txMetaBody txMeta := by
  simp only [encodeTxMeta,bind_ok,exists_unit,pure_ok,Except.ok.injEq] at written
  obtain ⟨valid,rfl⟩ := written
  have accepted : validateTxMeta txMeta false = .ok () := validateTxMeta_ok.mpr (validateTxMeta_ok.mp valid)
  obtain ⟨⟨seq,prev,-,-,distinct⟩,placed⟩ := validateTxMeta_ok.mp valid
  obtain ⟨begins,ends⟩ := TxMeta.placed_valid placed
  rw [VLogPosition.isValid_iff] at begins ends
  obtain ⟨seqFits,countFits,envelopeFits,checksumFits⟩ := fits
  have prevFits : txMeta.prevSeq < 18446744073709551616 := by omega
  have distinctFits : txMeta.distinctKeyCount < 18446744073709551616 := by omega
  refine ⟨?_,by simp,List.take_left' (txMetaBody_length txMeta)⟩
  simp [decodeTxMeta,txMetaBody,readU16,readU32,readU64,slice?_here,seqFits,countFits,
    envelopeFits,checksumFits,prevFits,distinctFits,begins,ends,accepted]

-- The width of the offset field; every other field of a pointer is validated.
def StateFits (state : Option ValuePointer) : Prop := ∀ pointer ∈ state, pointer.recordOffset < 4294967296

theorem decodeValueState_encode {state : Option ValuePointer} {encoded : Bytes} (rest : Bytes)
    (written : encodeValueState state = .ok encoded) (fits : StateFits state) :
    decodeValueState (encoded ++ rest) = .ok (state,encoded.length) ∧ encoded.length ≤ 17 := by
  cases state with
  | none =>
    obtain rfl := Except.ok.inj written
    exact ⟨rfl,by decide⟩
  | some pointer =>
    simp only [encodeValueState,bind_ok,pure_ok,Except.ok.injEq] at written
    obtain ⟨bytes,written,rfl⟩ := written
    obtain ⟨read,width⟩ := ValuePointer.decode_encode written (fits pointer rfl)
    have field : slice? (1 :: (bytes ++ rest)) 1 16 = some bytes := slice?_mid [1] bytes rest rfl width
    constructor
    · simp [decodeValueState,field,orError,read,Except.mapError,width]
    · simp [width]

theorem validateValueStateKeyLen_ok {state : Option ValuePointer} {userKeyLen : Nat} {encoding : Bool} :
    validateValueStateKeyLen state userKeyLen encoding = .ok () ↔
      ∀ pointer ∈ state, ∃ layout, pointer.layout = .ok layout ∧ layout.keyLen = userKeyLen := by
  cases state with
  | none => simp [validateValueStateKeyLen]
  | some pointer => simp [validateValueStateKeyLen]

theorem decodeTxMutation_encode {mutation : TxMutation} {encoded : Bytes}
    (written : encodeTxMutation mutation = .ok encoded) (before : StateFits mutation.beforeState)
    (after : StateFits mutation.afterState) :
    decodeTxMutation encoded = .ok mutation ∧ encoded ≠ [] ∧ encoded.length < 4294967296 := by
  simp only [encodeTxMutation,bind_ok,exists_unit,rejectIf_ok,validateUserKey,pure_ok,Except.ok.injEq] at written
  obtain ⟨key,keyBefore,keyAfter,width,beforeBytes,beforeWritten,afterBytes,afterWritten,rfl⟩ := written
  simp only [maxUserKeyLen,List.isEmpty_iff] at key
  have present : mutation.userKey.length ≠ 0 := fun empty => key (.inl (List.length_eq_zero_iff.mp empty))
  have beforeRead := decodeValueState_encode afterBytes beforeWritten before
  have afterRead := decodeValueState_encode [] afterWritten after
  have front : ∀ rest : Bytes, (leBytes 2 mutation.userKey.length ++ mutation.userKey ++ rest).drop
      (2 + mutation.userKey.length) = rest := fun rest => List.drop_left' (by simp)
  have tail : (leBytes 2 mutation.userKey.length ++ mutation.userKey ++ beforeBytes ++ afterBytes).drop
      (2 + mutation.userKey.length + beforeBytes.length) = afterBytes :=
    List.drop_left' (by simp only [List.length_append,leBytes_length])
  have field := slice?_mid (leBytes 2 mutation.userKey.length) mutation.userKey (beforeBytes ++ afterBytes)
    (leBytes_length 2 _) rfl
  rw [validateValueStateKeyLen_ok] at keyBefore keyAfter
  have acceptedBefore := (@validateValueStateKeyLen_ok _ _ false).mpr keyBefore
  have acceptedAfter := (@validateValueStateKeyLen_ok _ _ false).mpr keyAfter
  have len : readUint 2 (leBytes 2 mutation.userKey.length ++ (mutation.userKey ++ (beforeBytes ++ afterBytes))) 0 =
      .ok mutation.userKey.length := readUint_here _ (by omega)
  simp only [List.append_assoc,List.append_nil] at *
  refine ⟨?_,?_,?_⟩
  · simp only [decodeTxMutation,readU16,len,orCorrupt_value,ok_bind,maxUserKeyLen,field,orError]
    rw [rejectIf_false (by omega),ok_bind,suffix?,if_pos (by simp),front]
    simp only [ok_bind,beforeRead.1]
    rw [suffix?,if_pos (by simp; omega),tail]
    simp only [ok_bind,afterRead.1]
    rw [rejectIf_false (by simp; omega),ok_bind,acceptedBefore,ok_bind,acceptedAfter,ok_bind,pure_ok]
  · intro empty
    have none := congrArg List.length empty
    simp at none
  · simp only [List.length_append,leBytes_length]
    omega

end records

section ends

theorem writeDurableEnd_length (vlogEnd : Option VLogPosition) : (writeDurableEnd vlogEnd).length = 13 := by
  cases vlogEnd <;> simp [writeDurableEnd]

theorem vlogEndMatches_valid {vlogSeq : Nat} {vlogEnd : Option VLogPosition}
    (matched : vlogEndMatches vlogSeq vlogEnd = true) : ∀ position ∈ vlogEnd, position.isValid = true := by
  intro position present
  obtain rfl := Option.mem_def.mp present
  simp only [vlogEndMatches,Bool.and_eq_true] at matched
  exact matched.2

theorem readDurableEnd_write {vlogEnd : Option VLogPosition} (before after : Bytes) {offset : Nat}
    (place : before.length = offset) (valid : ∀ position ∈ vlogEnd, position.isValid = true) :
    readDurableEnd (before ++ (writeDurableEnd vlogEnd ++ after)) offset = .ok vlogEnd := by
  have skipped := @readPosition_skip before (writeDurableEnd vlogEnd ++ after) (offset + 1) (by omega)
  have one : offset + 1 - before.length = 1 := by omega
  rw [one] at skipped
  rw [readDurableEnd]
  cases vlogEnd with
  | none =>
    have tag : (before ++ (writeDurableEnd none ++ after))[offset]? = some 0 := by
      simp [writeDurableEnd,←place]
    have zero : readPosition (writeDurableEnd none ++ after) 1 = .ok ⟨0,0⟩ := rfl
    rw [tag,skipped,zero]
    rfl
  | some position =>
    have tag : (before ++ (writeDurableEnd (some position) ++ after))[offset]? = some 1 := by
      simp [writeDurableEnd,←place]
    have bounds := VLogPosition.isValid_iff.mp (valid position rfl)
    have here : readPosition (writeDurableEnd (some position) ++ after) 1 = .ok position := by
      simp only [writeDurableEnd,List.cons_append]
      rw [readPosition_cons (Nat.le_refl 1),Nat.sub_self,readPosition_here bounds.1 bounds.2]
    rw [tag,skipped,here]
    exact if_pos (valid position rfl)

theorem DurableFrontier.validate_ok {frontier : DurableFrontier} :
    frontier.validate = .ok () ↔ frontier.durableVlogSeq ≤ frontier.durableSeq ∧
      vlogEndMatches frontier.durableVlogSeq frontier.durableVlogEnd = true := by
  simp [validate]

theorem RecoveryState.validate_ok {state : RecoveryState} :
    state.validate = .ok () ↔
      (state.targetVlogSeq ≤ state.targetSeq ∧ state.targetSeq ≤ state.nextUndoSeq ∧
        state.nextUndoSeq ≤ state.originalHead) ∧
      vlogEndMatches state.targetVlogSeq state.targetVlogEnd = true ∧ state.phaseMatches = true := by
  simp only [validate,bind_ok,exists_unit,rejectIf_ok,Bool.not_eq_false,not_or,Nat.not_lt,gt_iff_lt]

theorem decodeHeadSeq_encode {headSeq : Nat} (fits : headSeq < 18446744073709551616) :
    decodeHeadSeq (encodeHeadSeq headSeq) = .ok headSeq := by
  have fits : headSeq < 256 ^ 8 := by omega
  simp [decodeHeadSeq,encodeHeadSeq,readU64,readUint_last fits]

end ends

section descriptor
variable [Crc32c]

def EncodedMutation.entry (mutation : EncodedMutation) : Bytes × Bytes := (mutation.key,mutation.value)

def TxMutation.Fits (mutation : TxMutation) : Prop :=
  StateFits mutation.beforeState ∧ StateFits mutation.afterState

omit [Crc32c] in
-- What the loop of the encoder leaves: one entry for each mutation, keyed by its ordinal.
theorem encodeMutations_entry {commitSeq ordinal : Nat} {seen : List Bytes} {mutations : List TxMutation}
    {encoded : List EncodedMutation} (written : encodeMutations commitSeq ordinal seen mutations = .ok encoded) :
    encoded.length = mutations.length ∧ ∀ index (bound : index < encoded.length),
      (encoded[index]).key = txKeyHead commitSeq ++ txMutationKind :: beBytes 8 (ordinal + index) ∧
      ∃ mutation ∈ mutations, encodeTxMutation mutation = .ok (encoded[index]).value := by
  induction mutations generalizing ordinal seen encoded with
  | nil =>
    obtain rfl := Except.ok.inj written
    exact ⟨rfl,fun index bound => absurd bound (by simp)⟩
  | cons mutation rest ih =>
    simp only [encodeMutations,bind_ok,exists_unit,rejectIf_ok,pure_ok,Except.ok.injEq] at written
    obtain ⟨-,key,keyed,value,valued,later,done,rfl⟩ := written
    obtain ⟨-,rfl⟩ := encodeTxMutationKey_ok.mp keyed
    obtain ⟨count,entries⟩ := ih done
    refine ⟨by simp [count],?_⟩
    intro index bound
    cases index with
    | zero => exact ⟨rfl,mutation,List.mem_cons_self,valued⟩
    | succ index =>
      obtain ⟨named,other,member,encodes⟩ := entries index (by simpa using bound)
      refine ⟨?_,other,List.mem_cons_of_mem _ member,encodes⟩
      simpa [Nat.add_assoc,Nat.add_comm 1] using named

theorem decodeMutations_encode {commitSeq ordinal : Nat} {seen : List Bytes} {mutations : List TxMutation}
    {encoded : List EncodedMutation} (crc : Nat)
    (written : encodeMutations commitSeq ordinal seen mutations = .ok encoded)
    (fits : ∀ mutation ∈ mutations, mutation.Fits) (seq : commitSeq < 18446744073709551616)
    (count : ordinal + mutations.length ≤ 18446744073709551616) :
    decodeMutations commitSeq ordinal crc seen (encoded.map EncodedMutation.entry) =
      .ok (mutations,encoded.foldl mutationCrc crc) := by
  induction mutations generalizing ordinal seen encoded crc with
  | nil =>
    obtain rfl := Except.ok.inj written
    rfl
  | cons mutation rest ih =>
    simp only [encodeMutations,bind_ok,exists_unit,rejectIf_ok,pure_ok,Except.ok.injEq] at written
    obtain ⟨fresh,key,keyed,value,valued,later,done,rfl⟩ := written
    simp only [List.length_cons] at count
    have keyRead := (decodeTxMutationKey_encode keyed seq (by omega)).1
    have both := fits mutation List.mem_cons_self
    obtain ⟨valueRead,-,width⟩ := decodeTxMutation_encode valued both.1 both.2
    have rest := ih (mutationCrc crc ⟨key,value⟩) done (fun other member => fits other (List.mem_cons_of_mem _ member))
      (by omega)
    simp [decodeMutations,EncodedMutation.entry,keyRead,valueRead,fresh,width,rejectIf_false]
    simpa [EncodedMutation.entry] using rest

theorem descriptorCrc_ok {metaValue : Bytes} {mutations : List EncodedMutation} {encoding : Bool} {crc : Nat}
    (computed : descriptorCrc metaValue mutations encoding = .ok crc) :
    crc = mutations.foldl mutationCrc (crc32cAppend (crc32c descriptorCrcMagic) (metaValue.take 83)) := by
  unfold descriptorCrc at computed
  generalize crc32cAppend (crc32c descriptorCrcMagic) (metaValue.take 83) = start at computed ⊢
  induction mutations generalizing start with
  | nil => exact (Except.ok.inj computed).symm
  | cons mutation rest ih =>
    simp only [foldlM_ok_cons,bind_ok,exists_unit,rejectIf_ok,pure_ok,Except.ok.injEq] at computed
    obtain ⟨next,⟨-,rfl⟩,done⟩ := computed
    exact ih _ done

theorem foldl_mutationCrc_lt (mutations : List EncodedMutation) (crc : Nat) (small : crc < 4294967296) :
    mutations.foldl mutationCrc crc < 4294967296 := by
  induction mutations generalizing crc with
  | nil => exact small
  | cons mutation rest ih => exact ih _ (crc32cAppend_lt _ _)

-- The descriptor as it is stored: its checksum filled in.
def TransactionDescriptor.sealed (descriptor : TransactionDescriptor) (descriptorCrc32c : Nat) :
    TransactionDescriptor :=
  {descriptor with txMeta := {descriptor.txMeta with descriptorCrc32c}}

structure TransactionDescriptor.Fits (descriptor : TransactionDescriptor) : Prop where
  seq : descriptor.txMeta.commitSeq < 18446744073709551616
  count : descriptor.txMeta.logicalOpCount < 18446744073709551616
  envelope : descriptor.txMeta.envelopeCrc32c < 4294967296
  mutation : ∀ mutation ∈ descriptor.mutations, mutation.Fits

theorem decodeDescriptor_encode {descriptor : TransactionDescriptor} {encoded : EncodedDescriptor}
    (written : encodeDescriptor descriptor = .ok encoded) (fits : descriptor.Fits) :
    ∃ crc < 4294967296, decodeDescriptor encoded.metaKey encoded.metaValue (encoded.mutations.map EncodedMutation.entry) =
      .ok (descriptor.sealed crc) := by
  simp only [encodeDescriptor,bind_ok,exists_unit,rejectIf_ok,pure_ok,Except.ok.injEq,not_not,ne_eq] at written
  obtain ⟨count,valid,kinds,mutations,encodes,unsealed,unsealedWritten,crc,computed,metaKey,keyed,metaValue,
    metaWritten,rfl⟩ := written
  obtain ⟨seq,logical,envelope,each⟩ := fits
  have unsealedBody := (decodeTxMeta_encode unsealedWritten ⟨seq,logical,envelope,by simp⟩).2.2
  have crcEq := descriptorCrc_ok computed
  have small : crc < 4294967296 := by
    rw [crcEq]
    exact foldl_mutationCrc_lt _ _ (crc32cAppend_lt _ _)
  obtain ⟨metaRead,-,sealedBody⟩ := decodeTxMeta_encode metaWritten ⟨seq,logical,envelope,small⟩
  have keyRead := (decodeTxMetaKey_encode keyed seq).1
  obtain ⟨⟨-,-,-,-,distinct⟩,-⟩ := validateTxMeta_ok.mp valid
  have entries := decodeMutations_encode (crc32cAppend (crc32c descriptorCrcMagic) (metaValue.take 83)) encodes each seq
    (by omega)
  -- The checksum of the encoder covers the same 83 bytes, with or without itself behind them.
  have sameBody : metaValue.take 83 = unsealed.take 83 := sealedBody.trans unsealedBody.symm
  rw [sameBody,←crcEq] at entries
  have length : (mutations.map EncodedMutation.entry).length = descriptor.txMeta.distinctKeyCount := by
    rw [List.length_map,(encodeMutations_entry encodes).1,count]
  have accepted : validateTransactionMutations descriptor.txMeta.transactionKind descriptor.mutations false = .ok () := by
    simpa [validateTransactionMutations] using kinds
  refine ⟨crc,small,?_⟩
  rw [decodeDescriptor,keyRead,ok_bind,metaRead,ok_bind,rejectIf_false (by simp),ok_bind,
    rejectIf_false (fun differs => differs length),ok_bind,sameBody]
  simp only [entries,ok_bind]
  rw [rejectIf_false (by simp),ok_bind,accepted,ok_bind,pure_ok]
  rfl

theorem verifyCrc_appendCrc {body : Bytes} {len : Nat} (width : body.length = len) :
    verifyCrc (appendCrc body) len len = .ok () := by
  have covered : slice? (appendCrc body) 0 len = some body := slice?_here _ width
  simp [verifyCrc,covered,readU32,appendCrc_crc width,orError]

theorem DurableFrontier.encode_ok {frontier : DurableFrontier} (valid : frontier.validate = .ok ()) :
    ∃ encoded, frontier.encode = .ok encoded := by
  simp [encode,valid]

theorem DurableFrontier.decode_encode {frontier : DurableFrontier} {encoded : Bytes}
    (written : frontier.encode = .ok encoded) (fits : frontier.durableSeq < 18446744073709551616) :
    DurableFrontier.decode encoded = .ok frontier ∧ encoded.length = 39 := by
  simp only [encode,bind_ok,exists_unit,mapError_ok,pure_ok,Except.ok.injEq] at written
  obtain ⟨valid,rfl⟩ := written
  obtain ⟨ordered,matched⟩ := validate_ok.mp valid
  obtain ⟨durableSeq,durableVlogSeq,durableVlogEnd⟩ := frontier
  simp only at fits ordered matched
  have vlogFits : durableVlogSeq < 18446744073709551616 := by omega
  have width := writeDurableEnd_length durableVlogEnd
  have crc := @verifyCrc_appendCrc _ (durableFrontierMagic ++ leBytes 2 formatVersion ++ leBytes 8 durableSeq ++
    leBytes 8 durableVlogSeq ++ writeDurableEnd durableVlogEnd) 35 (by simp [width])
  refine ⟨?_,by simp [width]⟩
  simp only [decode,crc]
  simp only [appendCrc,List.append_assoc]
  have ending := fun after => readDurableEnd_write (durableFrontierMagic ++ (leBytes 2 formatVersion ++
    (leBytes 8 durableSeq ++ leBytes 8 durableVlogSeq))) after (by simp : _ = 22) (vlogEndMatches_valid matched)
  simp only [List.append_assoc] at ending
  simp [readU16,readU64,slice?_here,fits,vlogFits,width,ending,valid]

theorem RecoveryState.encode_ok {state : RecoveryState} (valid : state.validate = .ok ()) :
    ∃ encoded, state.encode = .ok encoded := by
  simp [encode,valid]

theorem RecoveryState.decode_encode {state : RecoveryState} {encoded : Bytes} (written : state.encode = .ok encoded)
    (fits : state.originalHead < 18446744073709551616) :
    RecoveryState.decode encoded = .ok state ∧ encoded.length = 57 := by
  simp only [encode,bind_ok,exists_unit,mapError_ok,pure_ok,Except.ok.injEq] at written
  obtain ⟨valid,rfl⟩ := written
  obtain ⟨⟨vlogOrder,targetOrder,undoOrder⟩,matched,-⟩ := validate_ok.mp valid
  obtain ⟨phase,originalHead,targetSeq,targetVlogSeq,targetVlogEnd,nextUndoSeq,trimRequired⟩ := state
  simp only at fits vlogOrder targetOrder undoOrder matched
  have undoFits : nextUndoSeq < 18446744073709551616 := by omega
  have targetFits : targetSeq < 18446744073709551616 := by omega
  have vlogFits : targetVlogSeq < 18446744073709551616 := by omega
  have width := writeDurableEnd_length targetVlogEnd
  have crc := @verifyCrc_appendCrc _ (recoveryStateMagic ++ leBytes 2 formatVersion ++ [phase.encode] ++
    leBytes 8 originalHead ++ leBytes 8 targetSeq ++ leBytes 8 targetVlogSeq ++ writeDurableEnd targetVlogEnd ++
    leBytes 8 nextUndoSeq ++ [if trimRequired then 1 else 0]) 53 (by simp [width])
  refine ⟨?_,by simp [width]⟩
  simp only [decode,crc]
  simp only [appendCrc,List.append_assoc]
  have ending := fun after => readDurableEnd_write (recoveryStateMagic ++ (leBytes 2 formatVersion ++
    ([phase.encode] ++ (leBytes 8 originalHead ++ (leBytes 8 targetSeq ++ leBytes 8 targetVlogSeq))))) after
    (by simp : _ = 31) (vlogEndMatches_valid matched)
  simp only [List.append_assoc] at ending
  simp only [readU16,readU64,ending]
  cases trimRequired <;> simp [slice?_here,fits,undoFits,targetFits,vlogFits,width,valid,decodeTrimRequired]

end descriptor

end ExpirKv
