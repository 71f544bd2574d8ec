import ExpirKv.Vlog.Format

namespace ExpirKv

-- `b"head_seq"`, `b"durable_frontier"` and `b"recovery_state"`.
def headSeqKey : Bytes := [0x68,0x65,0x61,0x64,0x5F,0x73,0x65,0x71]
def durableFrontierKey : Bytes :=
  [0x64,0x75,0x72,0x61,0x62,0x6C,0x65,0x5F,0x66,0x72,0x6F,0x6E,0x74,0x69,0x65,0x72]
def recoveryStateKey : Bytes := [0x72,0x65,0x63,0x6F,0x76,0x65,0x72,0x79,0x5F,0x73,0x74,0x61,0x74,0x65]

def txKeyMagic : Bytes := [0x54,0x58]
def txMetaKind : UInt8 := 0
def txMutationKind : UInt8 := 1
def txMetaMagic : Bytes := [0x52,0x4B,0x54,0x4D]
def descriptorCrcMagic : Bytes := [0x52,0x4B,0x44,0x45,0x53,0x43,0x30]
def durableFrontierMagic : Bytes := [0x52,0x4B,0x44,0x46]
def recoveryStateMagic : Bytes := [0x52,0x4B,0x52,0x53]
@[simp] abbrev formatVersion : Nat := 0
@[simp] abbrev txMetaKeyEncodedLen : Nat := 11
@[simp] abbrev txMutationKeyEncodedLen : Nat := 19
@[simp] abbrev txMetaEncodedLen : Nat := 87
@[simp] abbrev headSeqEncodedLen : Nat := 8
@[simp] abbrev durableFrontierEncodedLen : Nat := 39
@[simp] abbrev recoveryStateEncodedLen : Nat := 57
@[simp] abbrev maxUserKeyLen : Nat := 60000

def metadataEncodeError (kind : StorageErrorKind) (retryAdvice : RetryAdvice) : StorageError :=
  .codecError kind .writeBatch .preflight (some .notCommitted) retryAdvice

def encodeInvalid : StorageError := metadataEncodeError .invalidArgument .fixRequestAndRetrySameInstance
def encodeCapacity : StorageError := metadataEncodeError .capacityExceeded .fixRequestAndRetrySameInstance

def metadataDecodeError (kind : StorageErrorKind) (retryAdvice : RetryAdvice) : StorageError :=
  .codecError kind .recovery .recovery none retryAdvice

def decodeCorruption : StorageError := metadataDecodeError .corruption .restoreOrRepair
def decodeIncompatible : StorageError := metadataDecodeError .incompatibleFormat .doNotRetry

def metadataErrorFromPointer (kind : StorageErrorKind) : StorageError :=
  match kind with
  | .incompatibleFormat => decodeIncompatible
  | _ => decodeCorruption

-- The validators run on both sides; only the error tells the encoder from the decoder.
def metadataInvalid (encoding : Bool) : StorageError := if encoding then encodeInvalid else decodeCorruption

-- `read_..(..).ok_or_else(decode_corruption)`.
def orCorrupt (x : Result α) : Result α := x.mapError (fun _ => decodeCorruption)

def readU64Be (encoded : Bytes) (offset : Nat) : Result Nat :=
  (orError (slice? encoded offset 8) decodeCorruption).map beNat

inductive TransactionKind where
  | vlogEnvelope
  | indexOnlyDelete
  deriving DecidableEq, Repr

namespace TransactionKind

def encode : TransactionKind → UInt8
  | vlogEnvelope => 0
  | indexOnlyDelete => 1

def decode (encoded : UInt8) : Result TransactionKind :=
  match encoded with
  | 0 => .ok vlogEnvelope
  | 1 => .ok indexOnlyDelete
  | _ => .error decodeCorruption

end TransactionKind

structure TxMeta where
  transactionKind : TransactionKind
  commitSeq : Nat
  txUuid : Uuid
  prevSeq : Nat
  vlogBegin : VLogPosition
  vlogEnd : VLogPosition
  logicalOpCount : Nat
  distinctKeyCount : Nat
  envelopeCrc32c : Nat
  descriptorCrc32c : Nat
  deriving DecidableEq, Repr

-- A value state is absent or a pointer.
structure TxMutation where
  userKey : Bytes
  beforeState : Option ValuePointer
  afterState : Option ValuePointer
  deriving DecidableEq, Repr

structure TransactionDescriptor where
  txMeta : TxMeta
  mutations : List TxMutation
  deriving DecidableEq, Repr

structure EncodedMutation where
  key : Bytes
  value : Bytes
  deriving DecidableEq, Repr

structure EncodedDescriptor where
  metaKey : Bytes
  metaValue : Bytes
  mutations : List EncodedMutation
  deriving DecidableEq, Repr

-- `DurableVLogEnd::Empty` is `none`.
structure DurableFrontier where
  durableSeq : Nat
  durableVlogSeq : Nat
  durableVlogEnd : Option VLogPosition
  deriving DecidableEq, Repr

inductive RecoveryPhase where
  | undo
  | trim
  | finalize
  deriving DecidableEq, Repr

structure RecoveryState where
  phase : RecoveryPhase
  originalHead : Nat
  targetSeq : Nat
  targetVlogSeq : Nat
  targetVlogEnd : Option VLogPosition
  nextUndoSeq : Nat
  trimRequired : Bool
  deriving DecidableEq, Repr

def txKeyHead (commitSeq : Nat) : Bytes := txKeyMagic ++ beBytes 8 commitSeq

def encodeTxMetaKey (commitSeq : Nat) : Result Bytes := do
  rejectIf (commitSeq = 0) encodeInvalid
  return txKeyHead commitSeq ++ [txMetaKind]

def decodeTxMetaKey (encoded : Bytes) : Result Nat := do
  rejectIf (encoded.length ≠ txMetaKeyEncodedLen ∨ slice? encoded 0 2 ≠ some txKeyMagic ∨
    encoded[10]? ≠ some txMetaKind) decodeCorruption
  let commitSeq ← readU64Be encoded 2
  rejectIf (commitSeq = 0) decodeCorruption
  return commitSeq

def encodeTxMutationKey (commitSeq ordinal : Nat) : Result Bytes := do
  rejectIf (commitSeq = 0) encodeInvalid
  return txKeyHead commitSeq ++ txMutationKind :: beBytes 8 ordinal

def decodeTxMutationKey (encoded : Bytes) : Result (Nat × Nat) := do
  rejectIf (encoded.length ≠ txMutationKeyEncodedLen ∨ slice? encoded 0 2 ≠ some txKeyMagic ∨
    encoded[10]? ≠ some txMutationKind) decodeCorruption
  let commitSeq ← readU64Be encoded 2
  let ordinal ← readU64Be encoded 11
  rejectIf (commitSeq = 0) decodeCorruption
  return (commitSeq,ordinal)

-- What the kind of a transaction says about its stretch of the log.
def TxMeta.placed (txMeta : TxMeta) : Bool :=
  match txMeta.transactionKind with
  | .vlogEnvelope => txMeta.vlogBegin.isValid && txMeta.vlogEnd.isValid && txMeta.vlogBegin < txMeta.vlogEnd
  | .indexOnlyDelete =>
    txMeta.vlogBegin == ⟨0,0⟩ && txMeta.vlogEnd == ⟨0,0⟩ && txMeta.envelopeCrc32c == 0

def validateTxMeta (txMeta : TxMeta) (encoding : Bool) : Result Unit := do
  rejectIf (txMeta.commitSeq = 0 ∨ txMeta.prevSeq ≠ txMeta.commitSeq - 1 ∨ txMeta.txUuid.isZero ∨
    txMeta.logicalOpCount = 0 ∨ txMeta.distinctKeyCount = 0 ∨
    txMeta.distinctKeyCount > txMeta.logicalOpCount) (metadataInvalid encoding)
  rejectIf (txMeta.placed = false) (metadataInvalid encoding)

def validateTransactionMutations (kind : TransactionKind) (mutations : List TxMutation) (encoding : Bool) :
    Result Unit :=
  rejectIf (kind = .indexOnlyDelete ∧ mutations.any (fun mutation => mutation.afterState.isSome))
    (metadataInvalid encoding)

def validateUserKey (userKey : Bytes) (encoding : Bool) : Result Unit :=
  rejectIf (userKey.isEmpty ∨ userKey.length > maxUserKeyLen) (metadataInvalid encoding)

def validateValueStateKeyLen (state : Option ValuePointer) (userKeyLen : Nat) (encoding : Bool) : Result Unit :=
  match state with
  | none => .ok ()
  | some pointer => do
    let layout ← pointer.layout.mapError (fun error =>
      if encoding then encodeInvalid else metadataErrorFromPointer error.kind)
    rejectIf (layout.keyLen ≠ userKeyLen) (metadataInvalid encoding)

-- Every field but the checksum; `encode_tx_meta` and `descriptor_crc` share these 83 bytes.
def txMetaBody (txMeta : TxMeta) : Bytes :=
  txMetaMagic ++ leBytes 2 formatVersion ++ [txMeta.transactionKind.encode] ++ leBytes 8 txMeta.commitSeq ++
    txMeta.txUuid.val ++ leBytes 8 txMeta.prevSeq ++ writePosition txMeta.vlogBegin ++
    writePosition txMeta.vlogEnd ++ leBytes 8 txMeta.logicalOpCount ++ leBytes 8 txMeta.distinctKeyCount ++
    leBytes 4 txMeta.envelopeCrc32c

def encodeTxMeta (txMeta : TxMeta) : Result Bytes := do
  validateTxMeta txMeta true
  return txMetaBody txMeta ++ leBytes 4 txMeta.descriptorCrc32c

def decodeTxMeta (encoded : Bytes) : Result TxMeta := do
  rejectIf (encoded.length ≠ txMetaEncodedLen ∨ slice? encoded 0 4 ≠ some txMetaMagic) decodeCorruption
  let version ← orCorrupt (readU16 encoded 4)
  rejectIf (version ≠ formatVersion) decodeIncompatible
  let kindCode ← orError encoded[6]? decodeCorruption
  let transactionKind ← TransactionKind.decode kindCode
  let commitSeq ← orCorrupt (readU64 encoded 7)
  let txUuid ← orCorrupt (readArray16 encoded 15)
  let prevSeq ← orCorrupt (readU64 encoded 31)
  let vlogBegin ← orCorrupt (readPosition encoded 39)
  let vlogEnd ← orCorrupt (readPosition encoded 51)
  let logicalOpCount ← orCorrupt (readU64 encoded 63)
  let distinctKeyCount ← orCorrupt (readU64 encoded 71)
  let envelopeCrc32c ← orCorrupt (readU32 encoded 79)
  let descriptorCrc32c ← orCorrupt (readU32 encoded 83)
  let txMeta : TxMeta := ⟨transactionKind,commitSeq,txUuid,prevSeq,vlogBegin,vlogEnd,logicalOpCount,
    distinctKeyCount,envelopeCrc32c,descriptorCrc32c⟩
  validateTxMeta txMeta false
  return txMeta

def encodeValueState (state : Option ValuePointer) : Result Bytes :=
  match state with
  | none => .ok [0]
  | some pointer => do
    let encoded ← pointer.encode
    return 1 :: encoded

-- The state and the number of bytes it took.
def decodeValueState (encoded : Bytes) : Result (Option ValuePointer × Nat) :=
  match encoded with
  | 0 :: _ => .ok (none,1)
  | 1 :: _ => do
    let pointerBytes ← orError (slice? encoded 1 16) decodeCorruption
    let pointer ← (ValuePointer.decode pointerBytes).mapError (fun error => metadataErrorFromPointer error.kind)
    return (some pointer,17)
  | _ => .error decodeCorruption

def encodeTxMutation (mutation : TxMutation) : Result Bytes := do
  validateUserKey mutation.userKey true
  validateValueStateKeyLen mutation.beforeState mutation.userKey.length true
  validateValueStateKeyLen mutation.afterState mutation.userKey.length true
  rejectIf (mutation.userKey.length ≥ 65536) encodeCapacity
  let before ← encodeValueState mutation.beforeState
  let after ← encodeValueState mutation.afterState
  return leBytes 2 mutation.userKey.length ++ mutation.userKey ++ before ++ after

-- `bytes.get(offset..)`.
def suffix? (bytes : Bytes) (offset : Nat) : Option Bytes :=
  if offset ≤ bytes.length then some (bytes.drop offset) else none

def decodeTxMutation (encoded : Bytes) : Result TxMutation := do
  let userKeyLen ← orCorrupt (readU16 encoded 0)
  rejectIf (userKeyLen = 0 ∨ userKeyLen > maxUserKeyLen) decodeCorruption
  let keyEnd := 2 + userKeyLen
  let userKey ← orError (slice? encoded 2 userKeyLen) decodeCorruption
  let beforeBytes ← orError (suffix? encoded keyEnd) decodeCorruption
  let before ← decodeValueState beforeBytes
  let afterStart := keyEnd + before.2
  let afterBytes ← orError (suffix? encoded afterStart) decodeCorruption
  let after ← decodeValueState afterBytes
  rejectIf (afterStart + after.2 ≠ encoded.length) decodeCorruption
  validateValueStateKeyLen before.1 userKey.length false
  validateValueStateKeyLen after.1 userKey.length false
  return ⟨userKey,before.1,after.1⟩

section checked
variable [Crc32c]

def mutationCrc (crc : Nat) (mutation : EncodedMutation) : Nat :=
  crc32cAppend (crc32cAppend (crc32cAppend crc mutation.key) (leBytes 4 mutation.value.length)) mutation.value

def descriptorCrc (metaValue : Bytes) (mutations : List EncodedMutation) (encoding : Bool) : Result Nat :=
  mutations.foldlM (fun crc mutation => do
    rejectIf (mutation.value.length ≥ 4294967296) (if encoding then encodeCapacity else decodeCorruption)
    return mutationCrc crc mutation) (crc32cAppend (crc32c descriptorCrcMagic) (metaValue.take 83))

-- The loop of `encode_descriptor`; `seen` is its key set.
def encodeMutations (commitSeq ordinal : Nat) (seen : List Bytes) :
    List TxMutation → Result (List EncodedMutation)
  | [] => .ok []
  | mutation :: rest => do
    rejectIf (mutation.userKey ∈ seen) encodeInvalid
    let key ← encodeTxMutationKey commitSeq ordinal
    let value ← encodeTxMutation mutation
    let later ← encodeMutations commitSeq (ordinal + 1) (mutation.userKey :: seen) rest
    return ⟨key,value⟩ :: later

def encodeDescriptor (descriptor : TransactionDescriptor) : Result EncodedDescriptor := do
  rejectIf (descriptor.txMeta.distinctKeyCount ≠ descriptor.mutations.length) encodeInvalid
  validateTxMeta descriptor.txMeta true
  validateTransactionMutations descriptor.txMeta.transactionKind descriptor.mutations true
  let mutations ← encodeMutations descriptor.txMeta.commitSeq 0 [] descriptor.mutations
  let unsealed : TxMeta := {descriptor.txMeta with descriptorCrc32c := 0}
  let metaWithoutCrc ← encodeTxMeta unsealed
  let descriptorCrc32c ← descriptorCrc metaWithoutCrc mutations true
  let sealedMeta : TxMeta := {unsealed with descriptorCrc32c}
  let metaKey ← encodeTxMetaKey sealedMeta.commitSeq
  let metaValue ← encodeTxMeta sealedMeta
  return ⟨metaKey,metaValue,mutations⟩

-- The loop of `decode_descriptor`: the mutations and the running checksum.
def decodeMutations (commitSeq ordinal crc : Nat) (seen : List Bytes) :
    List (Bytes × Bytes) → Result (List TxMutation × Nat)
  | [] => .ok ([],crc)
  | (key,value) :: rest => do
    let decodedKey ← decodeTxMutationKey key
    rejectIf (decodedKey.1 ≠ commitSeq ∨ decodedKey.2 ≠ ordinal) decodeCorruption
    let mutation ← decodeTxMutation value
    rejectIf (mutation.userKey ∈ seen) decodeCorruption
    rejectIf (value.length ≥ 4294967296) decodeCorruption
    let later ← decodeMutations commitSeq (ordinal + 1) (mutationCrc crc ⟨key,value⟩) (mutation.userKey :: seen) rest
    return (mutation :: later.1,later.2)

def decodeDescriptor (metaKey metaValue : Bytes) (mutationEntries : List (Bytes × Bytes)) :
    Result TransactionDescriptor := do
  let keyCommitSeq ← decodeTxMetaKey metaKey
  let txMeta ← decodeTxMeta metaValue
  rejectIf (keyCommitSeq ≠ txMeta.commitSeq) decodeCorruption
  rejectIf (mutationEntries.length ≠ txMeta.distinctKeyCount) decodeCorruption
  let crc := crc32cAppend (crc32c descriptorCrcMagic) (metaValue.take 83)
  let decoded ← decodeMutations txMeta.commitSeq 0 crc [] mutationEntries
  rejectIf (decoded.2 ≠ txMeta.descriptorCrc32c) decodeCorruption
  validateTransactionMutations txMeta.transactionKind decoded.1 false
  return ⟨txMeta,decoded.1⟩

def encodeHeadSeq (headSeq : Nat) : Bytes := leBytes 8 headSeq

def decodeHeadSeq (encoded : Bytes) : Result Nat := do
  rejectIf (encoded.length ≠ headSeqEncodedLen) decodeCorruption
  orCorrupt (readU64 encoded 0)

def nextCommitSeq (headSeq : Nat) : Result Nat := do
  rejectIf (headSeq + 1 ≥ 18446744073709551616) encodeCapacity
  return headSeq + 1

def writeDurableEnd : Option VLogPosition → Bytes
  | none => 0 :: List.replicate 12 0
  | some position => 1 :: writePosition position

def readDurableEnd (encoded : Bytes) (offset : Nat) : Result (Option VLogPosition) := do
  let tag ← orError encoded[offset]? decodeCorruption
  let position ← orCorrupt (readPosition encoded (offset + 1))
  match tag with
  | 0 => if position.fileId = 0 ∧ position.offset = 0 then .ok none else .error decodeCorruption
  | 1 => if position.isValid then .ok (some position) else .error decodeCorruption
  | _ => .error decodeCorruption

def verifyCrc (encoded : Bytes) (coveredLen crcOffset : Nat) : Result Unit := do
  let covered ← orError (slice? encoded 0 coveredLen) decodeCorruption
  let expected ← orCorrupt (readU32 encoded crcOffset)
  rejectIf (crc32c covered ≠ expected) decodeCorruption

-- An envelope sequence and its end are both there or both missing.
def vlogEndMatches (vlogSeq : Nat) (vlogEnd : Option VLogPosition) : Bool :=
  match vlogEnd with
  | none => vlogSeq == 0
  | some position => vlogSeq != 0 && position.isValid

namespace DurableFrontier

def validate (frontier : DurableFrontier) : Result Unit := do
  rejectIf (frontier.durableVlogSeq > frontier.durableSeq) decodeCorruption
  rejectIf (vlogEndMatches frontier.durableVlogSeq frontier.durableVlogEnd = false) decodeCorruption

def encode (frontier : DurableFrontier) : Result Bytes := do
  frontier.validate.mapError (fun _ => encodeInvalid)
  return appendCrc (durableFrontierMagic ++ leBytes 2 formatVersion ++ leBytes 8 frontier.durableSeq ++
    leBytes 8 frontier.durableVlogSeq ++ writeDurableEnd frontier.durableVlogEnd)

def decode (encoded : Bytes) : Result DurableFrontier := do
  rejectIf (encoded.length ≠ durableFrontierEncodedLen ∨ slice? encoded 0 4 ≠ some durableFrontierMagic)
    decodeCorruption
  verifyCrc encoded 35 35
  let version ← orCorrupt (readU16 encoded 4)
  rejectIf (version ≠ formatVersion) decodeIncompatible
  let durableSeq ← orCorrupt (readU64 encoded 6)
  let durableVlogSeq ← orCorrupt (readU64 encoded 14)
  let durableVlogEnd ← readDurableEnd encoded 22
  let frontier : DurableFrontier := ⟨durableSeq,durableVlogSeq,durableVlogEnd⟩
  frontier.validate
  return frontier

def validateAgainstHead (frontier : DurableFrontier) (headSeq : Nat) : Result Unit := do
  frontier.validate
  rejectIf (frontier.durableSeq > headSeq) decodeCorruption

end DurableFrontier

namespace RecoveryPhase

def encode : RecoveryPhase → UInt8
  | undo => 1
  | trim => 2
  | finalize => 3

def decode (encoded : UInt8) : Result RecoveryPhase :=
  match encoded with
  | 1 => .ok undo
  | 2 => .ok trim
  | 3 => .ok finalize
  | _ => .error decodeCorruption

end RecoveryPhase

def decodeTrimRequired (encoded : UInt8) : Result Bool :=
  match encoded with
  | 0 => .ok false
  | 1 => .ok true
  | _ => .error decodeCorruption

namespace RecoveryState

-- The later phases begin once every undo is done, and the flag picks which one.
def phaseMatches (state : RecoveryState) : Bool :=
  match state.phase with
  | .undo => true
  | .trim => state.nextUndoSeq == state.targetSeq && state.trimRequired
  | .finalize => state.nextUndoSeq == state.targetSeq && !state.trimRequired

def validate (state : RecoveryState) : Result Unit := do
  rejectIf (state.targetVlogSeq > state.targetSeq ∨ state.targetSeq > state.nextUndoSeq ∨
    state.nextUndoSeq > state.originalHead) decodeCorruption
  rejectIf (vlogEndMatches state.targetVlogSeq state.targetVlogEnd = false) decodeCorruption
  rejectIf (state.phaseMatches = false) decodeCorruption

def encode (state : RecoveryState) : Result Bytes := do
  state.validate.mapError (fun _ => encodeInvalid)
  return appendCrc (recoveryStateMagic ++ leBytes 2 formatVersion ++ [state.phase.encode] ++
    leBytes 8 state.originalHead ++ leBytes 8 state.targetSeq ++ leBytes 8 state.targetVlogSeq ++
    writeDurableEnd state.targetVlogEnd ++ leBytes 8 state.nextUndoSeq ++ [if state.trimRequired then 1 else 0])

def decode (encoded : Bytes) : Result RecoveryState := do
  rejectIf (encoded.length ≠ recoveryStateEncodedLen ∨ slice? encoded 0 4 ≠ some recoveryStateMagic)
    decodeCorruption
  verifyCrc encoded 53 53
  let version ← orCorrupt (readU16 encoded 4)
  rejectIf (version ≠ formatVersion) decodeIncompatible
  let phaseCode ← orError encoded[6]? decodeCorruption
  let phase ← RecoveryPhase.decode phaseCode
  let trimCode ← orError encoded[52]? decodeCorruption
  let trimRequired ← decodeTrimRequired trimCode
  let originalHead ← orCorrupt (readU64 encoded 7)
  let targetSeq ← orCorrupt (readU64 encoded 15)
  let targetVlogSeq ← orCorrupt (readU64 encoded 23)
  let targetVlogEnd ← readDurableEnd encoded 31
  let nextUndoSeq ← orCorrupt (readU64 encoded 44)
  let state : RecoveryState := ⟨phase,originalHead,targetSeq,targetVlogSeq,targetVlogEnd,nextUndoSeq,trimRequired⟩
  state.validate
  return state

end RecoveryState

end checked

end ExpirKv
