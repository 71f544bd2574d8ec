import ExpirKv.Commit.Codecs
import ExpirKv.Lifecycle.InitializeFacts

namespace ExpirKv

-- The identity as the descriptor module keeps it, next to the one the index reads.
namespace Descriptor

def databaseFormatVersion : Nat := 0
def keyspaceLayoutVersion : Nat := 0

structure DatabaseIdentity where
  identityFormatVersion : Nat
  databaseFormatVersion : Nat
  databaseUuid : Uuid
  keyspaceLayoutVersion : Nat
  deriving DecidableEq, Repr

namespace DatabaseIdentity
variable [Crc32c]

def encode (identity : DatabaseIdentity) : Result Bytes := do
  rejectIf (identity.identityFormatVersion ≠ formatVersion ∨
    identity.databaseFormatVersion ≠ Descriptor.databaseFormatVersion ∨ identity.databaseUuid.isZero ∨
    identity.keyspaceLayoutVersion ≠ Descriptor.keyspaceLayoutVersion) encodeInvalid
  return appendCrc (databaseIdentityMagic ++ leBytes 2 identity.identityFormatVersion ++
    leBytes 4 identity.databaseFormatVersion ++ identity.databaseUuid.val ++ leBytes 2 identity.keyspaceLayoutVersion)

def decode (encoded : Bytes) : Result DatabaseIdentity := do
  rejectIf (encoded.length ≠ databaseIdentityEncodedLen ∨ slice? encoded 0 4 ≠ some databaseIdentityMagic)
    decodeCorruption
  verifyCrc encoded 28 28
  let identityFormatVersion ← orCorrupt (readU16 encoded 4)
  let keyspaceLayoutVersion ← orCorrupt (readU16 encoded 26)
  rejectIf (identityFormatVersion ≠ formatVersion ∨ keyspaceLayoutVersion ≠ Descriptor.keyspaceLayoutVersion)
    decodeIncompatible
  let databaseFormatVersion ← orCorrupt (readU32 encoded 6)
  let databaseUuid ← orCorrupt (readArray16 encoded 10)
  let identity : DatabaseIdentity :=
    ⟨identityFormatVersion,databaseFormatVersion,databaseUuid,keyspaceLayoutVersion⟩
  rejectIf identity.databaseUuid.isZero decodeCorruption
  return identity

end DatabaseIdentity

end Descriptor

section agreement
variable [Crc32c]

-- What a decoder answers, as far as the two of them can be compared: the fields, or the kind of the error.
def DatabaseIdentity.answer (encoded : Bytes) : Except StorageErrorKind (Nat × Nat × Uuid × Nat) :=
  ((DatabaseIdentity.decode encoded).mapError StorageError.kind).map (fun identity =>
    (identity.identityFormatVersion,identity.databaseFormatVersion,identity.databaseUuid,
      identity.keyspaceLayoutVersion))

def Descriptor.DatabaseIdentity.answer (encoded : Bytes) : Except StorageErrorKind (Nat × Nat × Uuid × Nat) :=
  ((Descriptor.DatabaseIdentity.decode encoded).mapError StorageError.kind).map (fun identity =>
    (identity.identityFormatVersion,identity.databaseFormatVersion,identity.databaseUuid,
      identity.keyspaceLayoutVersion))

omit [Crc32c] in
theorem readUint_present {encoded : Bytes} {width offset : Nat} (inside : offset + width ≤ encoded.length) :
    ∃ value, readUint width encoded offset = .ok value := by
  simp [readUint,slice?,inside,orError,Except.map]

omit [Crc32c] in
theorem readArray16_present {encoded : Bytes} {offset : Nat} (inside : offset + 16 ≤ encoded.length) :
    ∃ uuid, readArray16 encoded offset = .ok uuid := by
  simp [readArray16,inside]

theorem verifyCrc_trailing {encoded : Bytes} {len : Nat} (inside : len + 4 ≤ encoded.length) :
    verifyCrc encoded len len =
      if hasValidTrailingCrc encoded len = true then .ok () else .error decodeCorruption := by
  have front : slice? encoded 0 len = some (encoded.take len) := slice?_eq_some.mpr ⟨by omega,by simp⟩
  have back : slice? encoded len 4 = some ((encoded.drop len).take 4) := slice?_eq_some.mpr ⟨inside,rfl⟩
  simp only [verifyCrc,hasValidTrailingCrc,front,back,readU32,readUint,orError,orCorrupt,Except.map,Except.mapError,
    ok_bind,beq_iff_eq,rejectIf]
  by_cases same : crc32c (encoded.take len) = leNat ((encoded.drop len).take 4)
  · rw [if_neg (by simpa using same),if_pos same]
  · rw [if_pos same,if_neg same]

-- The same checks in the same order of consequence: what one refuses the other refuses for the same kind of reason.
theorem identity_answers (encoded : Bytes) :
    DatabaseIdentity.answer encoded = Descriptor.DatabaseIdentity.answer encoded := by
  unfold DatabaseIdentity.answer Descriptor.DatabaseIdentity.answer DatabaseIdentity.decode
    Descriptor.DatabaseIdentity.decode
  by_cases shaped : encoded.length ≠ databaseIdentityEncodedLen ∨ slice? encoded 0 4 ≠ some databaseIdentityMagic
  · rw [rejectIf_true (by rcases shaped with wide | magic <;> simp [*]),rejectIf_true shaped]
    rfl
  · have width : encoded.length = 32 := by
      by_contra other
      exact shaped (.inl other)
    have magic : slice? encoded 0 4 = some databaseIdentityMagic := by
      by_contra other
      exact shaped (.inr other)
    rw [rejectIf_false shaped,ok_bind,verifyCrc_trailing (by omega)]
    by_cases crc : hasValidTrailingCrc encoded 28 = true
    · obtain ⟨version,versionRead⟩ := @readUint_present encoded 2 4 (by omega)
      obtain ⟨format,formatRead⟩ := @readUint_present encoded 4 6 (by omega)
      obtain ⟨uuid,uuidRead⟩ := @readArray16_present encoded 10 (by omega)
      obtain ⟨layout,layoutRead⟩ := @readUint_present encoded 2 26 (by omega)
      rw [rejectIf_false (by simp [width,magic,crc]),if_pos crc]
      simp only [readU16,readU32,versionRead,formatRead,uuidRead,layoutRead,orCorrupt,Except.mapError,ok_bind]
      by_cases versions : version ≠ 0 ∨ layout ≠ 0
      · have foreign : version ≠ formatVersion ∨ layout ≠ Descriptor.keyspaceLayoutVersion := versions
        rw [rejectIf_true versions,rejectIf_true foreign]
        rfl
      · have known : ¬(version ≠ formatVersion ∨ layout ≠ Descriptor.keyspaceLayoutVersion) := versions
        rw [rejectIf_false versions,rejectIf_false known]
        simp only [ok_bind]
        by_cases zero : uuid.isZero = true
        · rw [rejectIf_true zero,rejectIf_true zero]
          rfl
        · rw [rejectIf_false zero,rejectIf_false zero]
          rfl
    · rw [rejectIf_true (.inr (.inr (by simpa using crc))),if_neg crc]
      rfl

end agreement

-- What the guard of the first batch recognizes is what the decoders read from it.
section initial
variable [Crc32c]

theorem DatabaseIdentity.decode_canonical {encoded : Bytes} {identity : DatabaseIdentity}
    (read : DatabaseIdentity.decode encoded = .ok identity) :
    encoded = appendCrc (databaseIdentityMagic ++ leBytes 2 0 ++ leBytes 4 identity.databaseFormatVersion ++
      identity.databaseUuid.val ++ leBytes 2 0) ∧ identity.databaseUuid.isZero = false ∧
      identity.identityFormatVersion = 0 ∧ identity.keyspaceLayoutVersion = 0 := by
  simp only [decode,bind_ok,exists_unit,rejectIf_ok,mapError_ok,readU16,readU32,pure_ok,Except.ok.injEq,not_or,not_not,
    ne_eq,databaseIdentityEncodedLen,Bool.not_eq_false,Bool.not_eq_true] at read
  obtain ⟨⟨width,magic,crc⟩,version,versionRead,format,formatRead,uuid,uuidRead,layout,layoutRead,⟨rfl,rfl⟩,present,
    rfl⟩ := read
  have at0 := drop_eq_slice magic
  have at4 := readUint_split versionRead
  have at6 := readUint_split formatRead
  have at10 := readArray16_split uuidRead
  have at26 := readUint_split layoutRead
  simp only [List.drop_zero,Nat.zero_add,Nat.reduceAdd] at at0 at4 at6 at10 at26
  have body : encoded.take 28 = databaseIdentityMagic ++ leBytes 2 0 ++ leBytes 4 format ++ uuid.val ++ leBytes 2 0 := by
    rw [at0,at4,at6,at10,at26]
    simp only [←List.append_assoc]
    exact List.take_left' (by simp [databaseIdentityMagic])
  have front : slice? encoded 0 28 = some (encoded.take 28) := slice?_eq_some.mpr ⟨by omega,by simp⟩
  refine ⟨?_,present,rfl,rfl⟩
  rw [←body]
  exact trailingCrc_split front crc width

theorem validInitialIdentity_iff (encoded : Bytes) :
    isValidInitialDatabaseIdentity encoded = true ↔
      ∃ identity, DatabaseIdentity.decode encoded = .ok identity ∧ identity.databaseFormatVersion = 0 := by
  constructor
  · intro valid
    obtain ⟨uuid,present,rfl⟩ := isValidInitialDatabaseIdentity_exact valid
    have same : databaseIdentityMagic ++ List.replicate 6 0 ++ uuid.val ++ [0,0] =
        databaseIdentityMagic ++ [0,0] ++ leBytes 4 0 ++ uuid.val ++ [0,0] := by simp [leBytes,List.replicate]
    rw [same]
    exact ⟨_,decode_encodedIdentity present,rfl⟩
  · rintro ⟨identity,read,format⟩
    obtain ⟨rfl,present,-,-⟩ := DatabaseIdentity.decode_canonical read
    rw [format]
    exact encodedIdentity_initial present

theorem emptyFrontier_encode : DurableFrontier.encode ⟨0,0,none⟩ = .ok encodedFrontierOf := rfl

theorem emptyDurableFrontier_iff (encoded : Bytes) :
    isEncodedEmptyDurableFrontier encoded = true ↔ DurableFrontier.decode encoded = .ok ⟨0,0,none⟩ := by
  rw [DurableFrontier.codec.decode_ok (by decide),emptyFrontier_encode]
  constructor
  · intro valid
    rw [isEncodedEmptyDurableFrontier_exact valid]
    rfl
  · intro same
    rw [←Except.ok.inj same]
    exact encodedFrontier_empty

theorem initializationBatch_ok {databaseFormatVersion : Nat} {databaseUuid : Uuid} {batch : IndexAtomicBatch}
    (built : initializationBatch databaseFormatVersion databaseUuid = .ok batch) :
    databaseFormatVersion = 0 ∧ databaseUuid.isZero = false ∧ batch = firstBatch databaseUuid := by
  have accepted := built
  simp only [initializationBatch,bind_ok,exists_unit,rejectIf_ok,not_or,not_not,Bool.not_eq_true] at accepted
  obtain ⟨⟨rfl,present⟩,-⟩ := accepted
  rw [initializationBatch_first present] at built
  exact ⟨rfl,present,(Except.ok.inj built).symm⟩

theorem encodedIdentity_encode {databaseUuid : Uuid} (present : databaseUuid.isZero = false) :
    Descriptor.DatabaseIdentity.encode ⟨0,0,databaseUuid,0⟩ = .ok (encodedIdentityOf databaseUuid) := by
  rw [Descriptor.DatabaseIdentity.encode,rejectIf_false (by simp [present,Descriptor.databaseFormatVersion,
    Descriptor.keyspaceLayoutVersion]),ok_bind,pure_ok,encodedIdentityOf]
  have zeros : leBytes 2 0 = ([0,0] : Bytes) := rfl
  simp only [zeros]

end initial

-- The fixed formats of the system space: exact codecs, and checks written twice that cannot be told apart.
theorem system_metadata_exact [Crc32c] :
    ExactCodec (fun frontier : DurableFrontier => frontier.durableSeq < 18446744073709551616)
      (fun frontier => frontier.validate = .ok ()) DurableFrontier.encode DurableFrontier.decode ∧
    ExactCodec (fun state : RecoveryState => state.originalHead < 18446744073709551616)
      (fun state => state.validate = .ok ()) RecoveryState.encode RecoveryState.decode ∧
    ExactCodec (fun pointer : ValuePointer => pointer.recordOffset < 4294967296)
      (fun pointer => pointer.validateFields = .ok ()) ValuePointer.encode ValuePointer.decode ∧
    ExactCodec TxMeta.Fits (fun txMeta => ∀ encoding, validateTxMeta txMeta encoding = .ok ()) encodeTxMeta
      decodeTxMeta ∧
    ExactCodec (fun _ : PageHeader => True) (fun header => header.fileId ≤ maxVlogFileId ∧ header.pageNo ≤ 65535)
      PageHeader.encode PageHeader.decode ∧
    ExactCodec (fun _ : VLogFileHeader => True) (fun header => header.validate = .ok ()) VLogFileHeader.encode
      VLogFileHeader.decode ∧
    (∀ encoded, DatabaseIdentity.answer encoded = Descriptor.DatabaseIdentity.answer encoded) ∧
    (∀ encoded, isEncodedEmptyDurableFrontier encoded = true ↔ DurableFrontier.decode encoded = .ok ⟨0,0,none⟩) ∧
    (∀ encoded, isValidInitialDatabaseIdentity encoded = true ↔
      ∃ identity, DatabaseIdentity.decode encoded = .ok identity ∧ identity.databaseFormatVersion = 0) ∧
    (∀ (databaseFormatVersion : Nat) (databaseUuid : Uuid) (batch : IndexAtomicBatch),
      initializationBatch databaseFormatVersion databaseUuid = .ok batch →
      ∃ identity frontier, batch = [.initializeDatabaseIdentity identity,.putInternal .system headSeqKey
          (encodeHeadSeq 0),.putInternal .system durableFrontierKey frontier] ∧
        isInitializationTriple batch = true ∧ isEncodedHeadSeqZero (encodeHeadSeq 0) = true ∧
        isValidInitialDatabaseIdentity identity = true ∧ isEncodedEmptyDurableFrontier frontier = true ∧
        DatabaseIdentity.decode identity = .ok ⟨0,databaseFormatVersion,databaseUuid,0⟩ ∧
        DatabaseIdentity.answer identity = .ok (0,databaseFormatVersion,databaseUuid,0) ∧
        Descriptor.DatabaseIdentity.answer identity = .ok (0,databaseFormatVersion,databaseUuid,0) ∧
        Descriptor.DatabaseIdentity.encode ⟨0,databaseFormatVersion,databaseUuid,0⟩ = .ok identity ∧
        DurableFrontier.decode frontier = .ok ⟨0,0,none⟩ ∧ DurableFrontier.encode ⟨0,0,none⟩ = .ok frontier) := by
  refine ⟨DurableFrontier.codec,RecoveryState.codec,ValuePointer.codec,TxMeta.codec,PageHeader.codec,
    VLogFileHeader.codec,identity_answers,emptyDurableFrontier_iff,validInitialIdentity_iff,?_⟩
  intro databaseFormatVersion databaseUuid batch built
  obtain ⟨rfl,present,rfl⟩ := initializationBatch_ok built
  have read := decode_encodedIdentity present
  have answered : DatabaseIdentity.answer (encodedIdentityOf databaseUuid) = .ok (0,0,databaseUuid,0) := by
    rw [DatabaseIdentity.answer,read]
    rfl
  exact ⟨encodedIdentityOf databaseUuid,encodedFrontierOf,rfl,firstBatch_triple present,rfl,
    encodedIdentity_initial present,encodedFrontier_empty,read,answered,(identity_answers _).symm.trans answered,
    encodedIdentity_encode present,(emptyDurableFrontier_iff _).mp encodedFrontier_empty,emptyFrontier_encode⟩

end ExpirKv
