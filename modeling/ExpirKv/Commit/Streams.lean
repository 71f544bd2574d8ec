import ExpirKv.Commit.DescriptorExact
import ExpirKv.Vlog.Streams

namespace ExpirKv

-- What the checksum of a descriptor is fed: the metadata up to the checksum in it, then entry by entry.
section descriptors

def EncodedMutation.pieces (mutation : EncodedMutation) : List Bytes :=
  [mutation.key,leBytes 4 mutation.value.length,mutation.value]

def descriptorPieces (metaValue : Bytes) (mutations : List EncodedMutation) : List Bytes :=
  metaValue.take 83 :: mutations.flatMap EncodedMutation.pieces

def descriptorStream (metaValue : Bytes) (mutations : List EncodedMutation) : Bytes :=
  descriptorCrcMagic ++ (descriptorPieces metaValue mutations).flatten

-- A key of nineteen bytes and a value whose length fits its field.
def EncodedMutation.Framed (mutation : EncodedMutation) : Prop :=
  mutation.key.length = 19 ∧ mutation.value.length < 4294967296

theorem EncodedMutation.separates : Separates EncodedMutation.Framed (fun mutation => mutation.pieces.flatten) := by
  rintro ⟨key,value⟩ ⟨otherKey,otherValue⟩ more others ⟨width,small⟩ ⟨otherWidth,otherSmall⟩ same
  simp only [pieces,List.flatten_cons,List.flatten_nil,List.append_assoc,List.nil_append] at same
  obtain ⟨keys,same⟩ := List.append_inj same (width.trans otherWidth.symm)
  obtain ⟨lens,same⟩ := leBytes_separates 4 small otherSmall same
  obtain ⟨values,rest⟩ := List.append_inj same lens
  subst keys values
  exact ⟨rfl,rest⟩

theorem descriptorStream_injective {metaValue otherMeta : Bytes} {mutations others : List EncodedMutation}
    (width : metaValue.length = 87) (otherWidth : otherMeta.length = 87)
    (framed : ∀ mutation ∈ mutations, mutation.Framed) (othersFramed : ∀ mutation ∈ others, mutation.Framed)
    (same : descriptorStream metaValue mutations = descriptorStream otherMeta others) :
    metaValue.take 83 = otherMeta.take 83 ∧ mutations = others := by
  have fed := List.append_cancel_left same
  simp only [descriptorPieces,List.flatten_cons] at fed
  obtain ⟨bodies,entries⟩ := List.append_inj fed (by simp [width,otherWidth])
  refine ⟨bodies,?_⟩
  have filled : ∀ mutation : EncodedMutation, mutation.Framed → mutation.pieces.flatten ≠ [] := by
    rintro ⟨key,value⟩ ⟨wide,-⟩ none
    have empty := congrArg List.length none
    simp only [EncodedMutation.pieces,List.flatten_cons,List.length_append,List.length_nil] at empty wide
    omega
  refine EncodedMutation.separates.flatMap_injective filled framed othersFramed ?_
  simp only [List.flatMap_def,List.flatten_flatten,List.map_map] at entries
  rw [List.flatMap_def,List.flatMap_def]
  exact entries

variable [Crc32c]

theorem descriptorChecksum_feeds (metaValue : Bytes) (mutations : List EncodedMutation) :
    descriptorChecksum metaValue mutations =
      (descriptorPieces metaValue mutations).foldl crc32cAppend (crc32c descriptorCrcMagic) := by
  rw [descriptorChecksum,descriptorPieces,List.foldl_cons]
  generalize crc32cAppend (crc32c descriptorCrcMagic) (metaValue.take 83) = start
  induction mutations generalizing start with
  | nil => rfl
  | cons mutation rest ih =>
    rw [List.foldl_cons,List.flatMap_cons,List.foldl_append,ih]
    rfl

theorem descriptorCrc_small {metaValue : Bytes} {mutations : List EncodedMutation} {encoding : Bool} {crc : Nat}
    (computed : descriptorCrc metaValue mutations encoding = .ok crc) :
    ∀ mutation ∈ mutations, mutation.value.length < 4294967296 := by
  unfold descriptorCrc at computed
  generalize crc32cAppend (crc32c descriptorCrcMagic) (metaValue.take 83) = start at computed
  induction mutations generalizing start with
  | nil => exact fun _ none => by cases none
  | cons mutation rest ih =>
    simp only [foldlM_ok_cons,bind_ok,exists_unit,rejectIf_ok,pure_ok,Except.ok.injEq,Nat.not_le] at computed
    obtain ⟨next,⟨small,-⟩,done⟩ := computed
    intro one member
    rcases List.mem_cons.mp member with rfl | member
    · exact small
    · exact ih next done one member

-- The encoder stores the checksum behind the bytes it covers.
theorem encodeDescriptor_feeds {descriptor : TransactionDescriptor} {encoded : EncodedDescriptor}
    (written : encodeDescriptor descriptor = .ok encoded) :
    encoded.metaValue.length = 87 ∧ (∀ mutation ∈ encoded.mutations, mutation.Framed) ∧
      encoded.metaValue.drop 83 = leBytes 4 (descriptorChecksum encoded.metaValue encoded.mutations) := by
  simp only [encodeDescriptor,bind_ok,exists_unit,rejectIf_ok,pure_ok,Except.ok.injEq] at written
  obtain ⟨-,-,-,mutations,encodes,unsealed,unsealedWritten,crc,computed,metaKey,-,metaValue,metaWritten,rfl⟩ := written
  have crcEq := descriptorCrc_ok computed
  simp only [encodeTxMeta,bind_ok,exists_unit,pure_ok,Except.ok.injEq] at unsealedWritten metaWritten
  obtain ⟨-,rfl⟩ := unsealedWritten
  obtain ⟨-,rfl⟩ := metaWritten
  have width : ∀ txMeta : TxMeta, (txMetaBody txMeta).length = 83 := txMetaBody_length
  have small := descriptorCrc_small computed
  refine ⟨by simp [width],?_,?_⟩
  · intro mutation member
    obtain ⟨index,bound,rfl⟩ := List.mem_iff_getElem.mp member
    obtain ⟨key,-⟩ := (encodeMutations_entry encodes).2 index bound
    exact ⟨by simp [key,txKeyHead],small _ (List.getElem_mem bound)⟩
  · rw [List.drop_left' (width _),descriptorChecksum,List.take_left' (width _),crcEq,List.take_left' (width _)]
    rfl

theorem decodeDescriptor_feeds {metaKey metaValue : Bytes} {entries : List (Bytes × Bytes)}
    {descriptor : TransactionDescriptor} (read : decodeDescriptor metaKey metaValue entries = .ok descriptor) :
    metaValue.length = 87 ∧ (∀ mutation ∈ entries.map entryMutation, mutation.Framed) ∧
      descriptor.txMeta.descriptorCrc32c = descriptorChecksum metaValue (entries.map entryMutation) := by
  obtain ⟨written,-,checksum,-⟩ := decodeDescriptor_canonical read
  obtain ⟨width,framed,-⟩ := encodeDescriptor_feeds written
  exact ⟨width,framed,checksum⟩

end descriptors

section streams
variable [Crc32c]

-- Either checksum is taken over a stream that has only one content, the same one on the side that writes it and on the
-- side that reads it, and what only lays records out on pages is not in it.
theorem checksum_streams_exact :
    (∀ (content : EnvelopeContent) (checksum : Nat), content.checksum = .ok checksum →
      checksum = content.pieces.foldl crc32cAppend (crc32c envelopeCrcMagic)) ∧
    (∀ (content : EnvelopeContent) (checksum : Nat), @EnvelopeContent.checksum castagnoli content = .ok checksum →
      checksum = Castagnoli.append 0 content.stream) ∧
    (∀ left right : EnvelopeContent, left.Words → right.Words → (∃ checksum, left.checksum = .ok checksum) →
      (∃ checksum, right.checksum = .ok checksum) → left.stream = right.stream → left.unsealed = right.unsealed) ∧
    (∀ (metaValue : Bytes) (mutations : List EncodedMutation),
      descriptorChecksum metaValue mutations =
        (descriptorPieces metaValue mutations).foldl crc32cAppend (crc32c descriptorCrcMagic) ∧
      @descriptorChecksum castagnoli metaValue mutations =
        Castagnoli.append 0 (descriptorStream metaValue mutations)) ∧
    (∀ (metaValue otherMeta : Bytes) (mutations others : List EncodedMutation), metaValue.length = 87 →
      otherMeta.length = 87 → (∀ mutation ∈ mutations, mutation.Framed) → (∀ mutation ∈ others, mutation.Framed) →
      descriptorStream metaValue mutations = descriptorStream otherMeta others →
      metaValue.take 83 = otherMeta.take 83 ∧ mutations = others) ∧
    (∀ (planner next : LayoutPlanner) (databaseUuid txUuid : Uuid) (commitSeq : Nat)
      (operations : List LogicalOperation) (envelope : PreparedEnvelope),
      prepareEnvelope planner databaseUuid commitSeq txUuid operations = .ok (envelope,next) →
      (envelope.content operations).checksum = .ok envelope.envelopeCrc32c) ∧
    (∀ (chunks : List PhysicalChunk) (geometry : VLogGeometry) (databaseUuid : Uuid) (vlogBegin vlogEnd : VLogPosition)
      (expected : Option Nat) (scanned : ScannedEnvelope),
      scanPreparedEnvelope chunks geometry databaseUuid vlogBegin vlogEnd expected = .ok scanned →
      ∃ content : EnvelopeContent, transactionRecords (chunkRecords geometry chunks) = content.records ∧
        content.checksum = .ok scanned.envelopeCrc32c) ∧
    (∀ (position : VLogPosition) (next : LayoutPlanner) (databaseUuid txUuid : Uuid) (commitSeq : Nat)
      (operations : List LogicalOperation) (envelope : PreparedEnvelope), commitSeq < 18446744073709551616 →
      prepareEnvelope ⟨VLogGeometry.production,position⟩ databaseUuid commitSeq txUuid operations =
        .ok (envelope,next) →
      transactionRecords (chunkRecords VLogGeometry.production envelope.chunks) =
        (envelope.content operations).records) ∧
    (∀ (descriptor : TransactionDescriptor) (encoded : EncodedDescriptor), encodeDescriptor descriptor = .ok encoded →
      encoded.metaValue.length = 87 ∧ (∀ mutation ∈ encoded.mutations, mutation.Framed) ∧
        encoded.metaValue.drop 83 = leBytes 4 (descriptorChecksum encoded.metaValue encoded.mutations)) ∧
    (∀ (metaKey metaValue : Bytes) (entries : List (Bytes × Bytes)) (descriptor : TransactionDescriptor),
      decodeDescriptor metaKey metaValue entries = .ok descriptor →
      metaValue.length = 87 ∧ (∀ mutation ∈ entries.map entryMutation, mutation.Framed) ∧
        descriptor.txMeta.descriptorCrc32c = descriptorChecksum metaValue (entries.map entryMutation)) ∧
    (∀ (target : ScanTarget) (state next : ScanState) (chunk : PhysicalChunk) (isLast : Bool),
      target.geometry.validateForDecode = .ok () → state.scanChunk target chunk isLast = .ok next →
      (chunk.position.offset % target.geometry.pageSize = 0 ∨ state.expectingFileHeader = true ∨
        decodeRecordAt chunk.bytes chunk.position target.geometry = .ok .pageEnd) →
      next.envelopeCrc = state.envelopeCrc) := by
  refine ⟨fun content checksum computed => (EnvelopeContent.checksum_feeds computed).1,?_,?_,?_,?_,?_,?_,?_,?_,?_,?_⟩
  · intro content checksum computed
    rw [(@EnvelopeContent.checksum_feeds castagnoli _ _ computed).1]
    exact Castagnoli.foldl_append 0 envelopeCrcMagic content.pieces
  · intro left right words otherWords accepted otherAccepted same
    obtain ⟨checksum,computed⟩ := accepted
    obtain ⟨other,otherComputed⟩ := otherAccepted
    exact EnvelopeContent.stream_injective ((EnvelopeContent.checksum_feeds computed).2 words)
      ((EnvelopeContent.checksum_feeds otherComputed).2 otherWords) same
  · intro metaValue mutations
    refine ⟨descriptorChecksum_feeds metaValue mutations,?_⟩
    rw [@descriptorChecksum_feeds castagnoli]
    exact Castagnoli.foldl_append 0 descriptorCrcMagic _
  · intro metaValue otherMeta mutations others width otherWidth framed othersFramed same
    exact descriptorStream_injective width otherWidth framed othersFramed same
  · intro planner next databaseUuid txUuid commitSeq operations envelope prepared
    exact (prepareEnvelope_feeds prepared).1
  · intro chunks geometry databaseUuid vlogBegin vlogEnd expected scanned accepted
    obtain ⟨wide,-⟩ := scanPreparedEnvelope_sound accepted
    obtain ⟨records,content,laid,ordered,computed,-⟩ := scanPreparedEnvelope_feeds accepted
    exact ⟨content,by rw [laid.chunkRecords_eq wide,ordered],computed⟩
  · intro position next databaseUuid txUuid commitSeq operations envelope seq prepared
    exact prepared_records seq prepared
  · intro descriptor encoded written
    exact encodeDescriptor_feeds written
  · intro metaKey metaValue entries descriptor read
    exact decodeDescriptor_feeds read
  · intro target state next chunk isLast decodable accepted structural
    exact scanChunk_feeds_nothing decodable accepted structural

end streams

-- One put of a key and a value: moving a byte from the value to the key is seen in the stream.
theorem checksum_streams_exact_split :
    let uuid : Uuid := ⟨List.replicate 16 7,rfl⟩
    let begin : TxBegin := ⟨1,uuid,⟨0,64⟩,1,1⟩
    let footer : TxPreparedEnd := ⟨1,uuid,⟨0,64⟩,⟨0,400⟩,1,1,1,0,0⟩
    let left : EnvelopeContent := ⟨begin,[.kvRecord ⟨1,uuid,0,[1],[2,3]⟩],footer⟩
    let right : EnvelopeContent := ⟨begin,[.kvRecord ⟨1,uuid,0,[1,2],[3]⟩],footer⟩
    left.stream ≠ right.stream := by
  intro uuid begin footer left right same
  have beginFits : begin.Fits := ⟨by decide,⟨by decide,by decide⟩,by decide,by decide⟩
  have footerFits : footer.Fits :=
    ⟨by decide,⟨by decide,by decide⟩,⟨by decide,by decide⟩,by decide,by decide,by decide,by decide⟩
  have words : left.Words := by
    refine ⟨beginFits,?_,footerFits⟩
    intro operation member
    rw [List.mem_singleton.mp member]
    exact ⟨by decide,by decide⟩
  have otherWords : right.Words := by
    refine ⟨beginFits,?_,footerFits⟩
    intro operation member
    rw [List.mem_singleton.mp member]
    exact ⟨by decide,by decide⟩
  have equal := (@checksum_streams_exact castagnoli).2.2.1 left right words otherWords ⟨_,rfl⟩ ⟨_,rfl⟩ same
  exact absurd equal (by decide)

end ExpirKv
