import ExpirKv.Vlog.Geometry

namespace ExpirKv

variable [Crc32c]

def pageHeaderMagic : Bytes := [0x52,0x4B,0x56,0x50]
def fileHeaderMagic : Bytes := [0x52,0x4B,0x56,0x4C,0x4F,0x47,0x30,0x30]
def recordHeaderMagic : Bytes := [0x52,0x4B,0x56,0x52]
def endTrailerMagic : Bytes := [0x52,0x4B,0x54,0x45]
def envelopeCrcMagic : Bytes := [0x52,0x4B,0x45,0x4E,0x56,0x30]
@[simp] abbrev vlogFormatVersion : Nat := 0
@[simp] abbrev fileFormatVersion : Nat := 0
@[simp] abbrev valuePointerFormatVersion : Nat := 0
@[simp] abbrev valuePointerEncodedLen : Nat := 16

def readUint (width : Nat) (encoded : Bytes) (offset : Nat) : Result Nat :=
  (orError (slice? encoded offset width) (decodeError .corruption)).map leNat

def readU16 (encoded : Bytes) (offset : Nat) : Result Nat := readUint 2 encoded offset
def readU32 (encoded : Bytes) (offset : Nat) : Result Nat := readUint 4 encoded offset
def readU64 (encoded : Bytes) (offset : Nat) : Result Nat := readUint 8 encoded offset

def readArray16 (encoded : Bytes) (offset : Nat) : Result Uuid :=
  if inside : offset + 16 ≤ encoded.length then
    .ok ⟨(encoded.drop offset).take 16,by simp only [List.length_take,List.length_drop]; omega⟩
  else .error (decodeError .corruption)

def readPosition (encoded : Bytes) (offset : Nat) : Result VLogPosition := do
  let fileId ← readU32 encoded offset
  let positionOffset ← readU64 encoded (offset + 4)
  return ⟨fileId,positionOffset⟩

def writePosition (position : VLogPosition) : Bytes := leBytes 4 position.fileId ++ leBytes 8 position.offset

-- A body followed by its own checksum, as every header and record but the footer ends.
def appendCrc (body : Bytes) : Bytes := body ++ leBytes 4 (crc32c body)

inductive RecordType where
  | txBegin
  | kvRecord
  | deleteRecord
  | txPreparedEnd
  | pageEnd
  deriving DecidableEq, Repr

namespace RecordType

def code : RecordType → UInt8
  | txBegin => 0x01
  | kvRecord => 0x02
  | deleteRecord => 0x03
  | txPreparedEnd => 0x04
  | pageEnd => 0x05

def decode (encoded : UInt8) : Result RecordType :=
  match encoded with
  | 0x01 => .ok txBegin
  | 0x02 => .ok kvRecord
  | 0x03 => .ok deleteRecord
  | 0x04 => .ok txPreparedEnd
  | 0x05 => .ok pageEnd
  | _ => .error (decodeError .corruption)

end RecordType

structure PageHeader where
  fileId : Nat
  pageNo : Nat
  deriving DecidableEq, Repr

namespace PageHeader

def encode (header : PageHeader) : Result Bytes := do
  rejectIf (header.fileId > maxVlogFileId ∨ header.pageNo > 65535) (invalidVlogError .invalidArgument)
  return appendCrc (pageHeaderMagic ++ leBytes 4 header.fileId ++ leBytes 4 header.pageNo)

def decode (encoded : Bytes) : Result PageHeader := do
  rejectIf (encoded.length ≠ pageHeaderEncodedLen ∨ slice? encoded 0 4 ≠ some pageHeaderMagic)
    (decodeError .corruption)
  let storedCrc ← readU32 encoded 12
  rejectIf (crc32c (encoded.take 12) ≠ storedCrc) (decodeError .corruption)
  let fileId ← readU32 encoded 4
  let pageNo ← readU32 encoded 8
  rejectIf (fileId > maxVlogFileId ∨ pageNo > 65535) (decodeError .corruption)
  return ⟨fileId,pageNo⟩

end PageHeader

structure VLogFileHeader where
  formatVersion : Nat
  databaseUuid : Uuid
  fileId : Nat
  pageSize : Nat
  maxFileSize : Nat
  deriving DecidableEq, Repr

namespace VLogFileHeader

def new (databaseUuid : Uuid) (fileId : Nat) : VLogFileHeader :=
  ⟨fileFormatVersion,databaseUuid,fileId,vlogPageSize,maxVlogFileSize⟩

def validate (header : VLogFileHeader) : Result Unit := do
  rejectIf (header.formatVersion ≠ fileFormatVersion) (decodeError .incompatibleFormat)
  rejectIf (header.databaseUuid.isZero ∨ header.fileId > maxVlogFileId ∨ header.pageSize ≠ vlogPageSize ∨
    header.maxFileSize ≠ maxVlogFileSize) (decodeError .corruption)

def encode (header : VLogFileHeader) : Result Bytes := do
  header.validate.mapError (fun error =>
    invalidVlogError (if error.kind = .incompatibleFormat then .incompatibleFormat else .invalidArgument))
  return appendCrc (fileHeaderMagic ++ leBytes 4 header.formatVersion ++ header.databaseUuid.val ++
    leBytes 4 header.fileId ++ leBytes 4 header.pageSize ++ leBytes 8 header.maxFileSize)

def decode (encoded : Bytes) : Result VLogFileHeader := do
  rejectIf (encoded.length ≠ fileHeaderEncodedLen ∨ slice? encoded 0 8 ≠ some fileHeaderMagic)
    (decodeError .corruption)
  let storedCrc ← readU32 encoded 44
  rejectIf (crc32c (encoded.take 44) ≠ storedCrc) (decodeError .corruption)
  let formatVersion ← readU32 encoded 8
  rejectIf (formatVersion ≠ fileFormatVersion) (decodeError .incompatibleFormat)
  let databaseUuid ← readArray16 encoded 12
  let fileId ← readU32 encoded 28
  let pageSize ← readU32 encoded 32
  let maxFileSize ← readU64 encoded 36
  let header : VLogFileHeader := ⟨formatVersion,databaseUuid,fileId,pageSize,maxFileSize⟩
  header.validate
  return header

end VLogFileHeader

structure RecordHeader where
  formatVersion : Nat
  recordType : RecordType
  encodedLen : Nat
  commitSeq : Nat
  txUuid : Uuid
  deriving DecidableEq, Repr

namespace RecordHeader

def new (recordType : RecordType) (encodedLen commitSeq : Nat) (txUuid : Uuid) : RecordHeader :=
  ⟨vlogFormatVersion,recordType,encodedLen,commitSeq,txUuid⟩

def validate (header : RecordHeader) : Result Unit := do
  rejectIf (header.formatVersion ≠ vlogFormatVersion) (decodeError .incompatibleFormat)
  rejectIf (header.commitSeq = 0 ∨ header.txUuid.isZero) (decodeError .corruption)

def encode (header : RecordHeader) : Result Bytes := do
  header.validate.mapError (fun error =>
    invalidVlogError (if error.kind = .incompatibleFormat then .incompatibleFormat else .invalidArgument))
  return appendCrc (recordHeaderMagic ++ leBytes 2 header.formatVersion ++ [header.recordType.code] ++
    leBytes 4 header.encodedLen ++ leBytes 8 header.commitSeq ++ header.txUuid.val)

def decode (encoded : Bytes) : Result RecordHeader := do
  rejectIf (encoded.length < recordHeaderEncodedLen ∨ slice? encoded 0 4 ≠ some recordHeaderMagic)
    (decodeError .corruption)
  let storedCrc ← readU32 encoded 35
  rejectIf (crc32c (encoded.take 35) ≠ storedCrc) (decodeError .corruption)
  let formatVersion ← readU16 encoded 4
  rejectIf (formatVersion ≠ vlogFormatVersion) (decodeError .incompatibleFormat)
  let typeCode ← orError encoded[6]? (decodeError .corruption)
  let recordType ← RecordType.decode typeCode
  let encodedLen ← readU32 encoded 7
  let commitSeq ← readU64 encoded 11
  let txUuid ← readArray16 encoded 19
  let header : RecordHeader := ⟨formatVersion,recordType,encodedLen,commitSeq,txUuid⟩
  header.validate
  return header

end RecordHeader

structure TxBegin where
  commitSeq : Nat
  txUuid : Uuid
  vlogBegin : VLogPosition
  logicalOpCount : Nat
  distinctKeyCount : Nat
  deriving DecidableEq, Repr

structure TxPreparedEnd where
  commitSeq : Nat
  txUuid : Uuid
  vlogBegin : VLogPosition
  vlogEnd : VLogPosition
  logicalOpCount : Nat
  distinctKeyCount : Nat
  kvRecordCount : Nat
  deleteRecordCount : Nat
  envelopeCrc32c : Nat
  deriving DecidableEq, Repr

structure KvRecord where
  commitSeq : Nat
  txUuid : Uuid
  opIndex : Nat
  key : Bytes
  value : Bytes
  deriving DecidableEq, Repr

structure DeleteRecord where
  commitSeq : Nat
  txUuid : Uuid
  opIndex : Nat
  key : Bytes
  deriving DecidableEq, Repr

inductive DecodedRecord where
  | txBegin (begin : TxBegin)
  | kvRecord (record : KvRecord)
  | deleteRecord (record : DeleteRecord)
  | txPreparedEnd (footer : TxPreparedEnd)
  | pageEnd
  deriving DecidableEq, Repr

def validateIdentity (commitSeq : Nat) (txUuid : Uuid) : Result Unit :=
  rejectIf (commitSeq = 0 ∨ txUuid.isZero) (decodeError .corruption)

def validateTxBegin (begin : TxBegin) : Result Unit := do
  validateIdentity begin.commitSeq begin.txUuid
  begin.vlogBegin.validate
  rejectIf (begin.logicalOpCount = 0 ∨ begin.distinctKeyCount = 0 ∨
    begin.distinctKeyCount > begin.logicalOpCount) (decodeError .corruption)

def validateTxPreparedEnd (footer : TxPreparedEnd) : Result Unit := do
  validateIdentity footer.commitSeq footer.txUuid
  footer.vlogBegin.validate
  footer.vlogEnd.validate
  let actualCount := footer.kvRecordCount + footer.deleteRecordCount
  rejectIf (footer.vlogEnd ≤ footer.vlogBegin ∨ footer.logicalOpCount = 0 ∨ footer.distinctKeyCount = 0 ∨
    footer.distinctKeyCount > footer.logicalOpCount ∨ actualCount ≠ footer.logicalOpCount)
    (decodeError .corruption)

def encodeTxBegin (begin : TxBegin) : Result Bytes := do
  (validateTxBegin begin).mapError (fun _ => invalidVlogError .invalidArgument)
  let header ← (RecordHeader.new .txBegin txBeginEncodedLen begin.commitSeq begin.txUuid).encode
  return appendCrc (header ++ (writePosition begin.vlogBegin ++
    leBytes 8 begin.logicalOpCount ++ leBytes 8 begin.distinctKeyCount))

def encodeKvRecord (record : KvRecord) : Result Bytes := do
  (validateIdentity record.commitSeq record.txUuid).mapError (fun _ => invalidVlogError .invalidArgument)
  rejectIf (record.key.length ≥ 65536 ∨ record.value.length ≥ 65536) (invalidVlogError .invalidArgument)
  let payloadLen := record.key.length + record.value.length
  rejectIf (record.key.length = 0 ∨ payloadLen > maxKeyValueSize) (invalidVlogError .invalidArgument)
  let encodedLen := kvRecordFixedLenWithCrc + payloadLen
  let header ← (RecordHeader.new .kvRecord encodedLen record.commitSeq record.txUuid).encode
  return appendCrc (header ++ (leBytes 8 record.opIndex ++ leBytes 2 record.key.length ++
    leBytes 2 record.value.length ++ record.key ++ record.value))

def encodeDeleteRecord (record : DeleteRecord) : Result Bytes := do
  (validateIdentity record.commitSeq record.txUuid).mapError (fun _ => invalidVlogError .invalidArgument)
  rejectIf (record.key.length ≥ 65536) (invalidVlogError .invalidArgument)
  rejectIf (record.key.length = 0 ∨ record.key.length > maxKeyValueSize) (invalidVlogError .invalidArgument)
  let encodedLen := 53 + record.key.length
  let header ← (RecordHeader.new .deleteRecord encodedLen record.commitSeq record.txUuid).encode
  return appendCrc (header ++ (leBytes 8 record.opIndex ++ leBytes 2 record.key.length ++ record.key))

-- The footer checksum skips its own field and covers the trailer behind it.
def encodeTxPreparedEnd (footer : TxPreparedEnd) : Result Bytes := do
  (validateTxPreparedEnd footer).mapError (fun _ => invalidVlogError .invalidArgument)
  let header ← (RecordHeader.new .txPreparedEnd txPreparedEndEncodedLen footer.commitSeq footer.txUuid).encode
  let body := header ++ (writePosition footer.vlogBegin ++ writePosition footer.vlogEnd ++
    leBytes 8 footer.logicalOpCount ++ leBytes 8 footer.distinctKeyCount ++ leBytes 8 footer.kvRecordCount ++
    leBytes 8 footer.deleteRecordCount ++ leBytes 4 footer.envelopeCrc32c)
  let trailer := leBytes 4 txPreparedEndEncodedLen ++ endTrailerMagic
  return body ++ leBytes 4 (crc32cAppend (crc32c body) trailer) ++ trailer

def encodePageEnd (commitSeq : Nat) (txUuid : Uuid) (recordStart : VLogPosition) (geometry : VLogGeometry) :
    Result Bytes := do
  (validateIdentity commitSeq txUuid).mapError (fun _ => invalidVlogError .invalidArgument)
  geometry.validate
  (validateRecordStart recordStart geometry).mapError (fun _ => invalidVlogError .invalidArgument)
  let endOffset ← pageEnd recordStart.offset geometry
  rejectIf (endOffset < recordStart.offset) (invalidVlogError .invalidArgument)
  let encodedLen := endOffset - recordStart.offset
  rejectIf (encodedLen ≥ 4294967296) (invalidVlogError .invalidArgument)
  rejectIf (encodedLen < pageEndMinSize) (invalidVlogError .invalidArgument)
  let header ← (RecordHeader.new .pageEnd encodedLen commitSeq txUuid).encode
  return appendCrc (header ++ List.replicate (encodedLen - pageEndMinSize) 0)

def verifyStandardRecordCrc (encoded : Bytes) : Result Unit := do
  rejectIf (encoded.length < recordCrcLen) (decodeError .corruption)
  let crcOffset := encoded.length - recordCrcLen
  let storedCrc ← readU32 encoded crcOffset
  rejectIf (storedCrc ≠ crc32c (encoded.take crcOffset)) (decodeError .corruption)

def decodeTxBegin (encoded : Bytes) (header : RecordHeader) : Result TxBegin := do
  rejectIf (header.encodedLen ≠ txBeginEncodedLen) (decodeError .corruption)
  verifyStandardRecordCrc encoded
  let vlogBegin ← readPosition encoded 39
  let logicalOpCount ← readU64 encoded 51
  let distinctKeyCount ← readU64 encoded 59
  let begin : TxBegin := ⟨header.commitSeq,header.txUuid,vlogBegin,logicalOpCount,distinctKeyCount⟩
  validateTxBegin begin
  return begin

def decodeKvRecord (encoded : Bytes) (header : RecordHeader) : Result KvRecord := do
  rejectIf (header.encodedLen < minKvRecordLen ∨ header.encodedLen > maxKvRecordLen) (decodeError .corruption)
  let keyLen ← readU16 encoded 47
  let valueLen ← readU16 encoded 49
  let payloadLen := keyLen + valueLen
  rejectIf (keyLen = 0 ∨ payloadLen > maxKeyValueSize) (decodeError .corruption)
  rejectIf (55 + payloadLen ≠ encoded.length) (decodeError .corruption)
  verifyStandardRecordCrc encoded
  let key ← orError (slice? encoded 51 keyLen) (decodeError .corruption)
  let value ← orError (slice? encoded (51 + keyLen) valueLen) (decodeError .corruption)
  let opIndex ← readU64 encoded 39
  return ⟨header.commitSeq,header.txUuid,opIndex,key,value⟩

def decodeDeleteRecord (encoded : Bytes) (header : RecordHeader) : Result DeleteRecord := do
  rejectIf (header.encodedLen < minDeleteRecordLen ∨ header.encodedLen > 60053) (decodeError .corruption)
  let keyLen ← readU16 encoded 47
  rejectIf (keyLen = 0 ∨ keyLen > maxKeyValueSize) (decodeError .corruption)
  rejectIf (53 + keyLen ≠ encoded.length) (decodeError .corruption)
  verifyStandardRecordCrc encoded
  let key ← orError (slice? encoded 49 keyLen) (decodeError .corruption)
  let opIndex ← readU64 encoded 39
  return ⟨header.commitSeq,header.txUuid,opIndex,key⟩

def decodeTxPreparedEnd (encoded : Bytes) (header : RecordHeader) : Result TxPreparedEnd := do
  rejectIf (header.encodedLen ≠ txPreparedEndEncodedLen ∨ slice? encoded 107 4 ≠ some endTrailerMagic)
    (decodeError .corruption)
  let trailerLen ← readU32 encoded 103
  rejectIf (trailerLen ≠ txPreparedEndEncodedLen) (decodeError .corruption)
  let storedCrc ← readU32 encoded 99
  let calculatedCrc := crc32cAppend (crc32c (encoded.take 99)) ((encoded.drop 103).take 8)
  rejectIf (storedCrc ≠ calculatedCrc) (decodeError .corruption)
  let vlogBegin ← readPosition encoded 39
  let vlogEnd ← readPosition encoded 51
  let logicalOpCount ← readU64 encoded 63
  let distinctKeyCount ← readU64 encoded 71
  let kvRecordCount ← readU64 encoded 79
  let deleteRecordCount ← readU64 encoded 87
  let envelopeCrc32c ← readU32 encoded 95
  let footer : TxPreparedEnd := ⟨header.commitSeq,header.txUuid,vlogBegin,vlogEnd,logicalOpCount,
    distinctKeyCount,kvRecordCount,deleteRecordCount,envelopeCrc32c⟩
  validateTxPreparedEnd footer
  return footer

def decodePageEnd (encoded : Bytes) (recordStart : VLogPosition) (geometry : VLogGeometry) : Result Unit := do
  rejectIf (encoded.length ≥ 4294967296) (decodeError .corruption)
  rejectIf (encoded.length < pageEndMinSize) (decodeError .corruption)
  let endOffset ← pageEnd recordStart.offset geometry
  rejectIf (recordStart.offset + encoded.length ≠ endOffset) (decodeError .corruption)
  let padding ← orError (slice? encoded recordHeaderEncodedLen
    (encoded.length - recordCrcLen - recordHeaderEncodedLen)) (decodeError .corruption)
  rejectIf (padding.any (fun byte => byte != 0)) (decodeError .corruption)
  verifyStandardRecordCrc encoded

def decodeRecordBody (encoded : Bytes) (recordStart : VLogPosition) (geometry : VLogGeometry)
    (header : RecordHeader) : Result DecodedRecord :=
  match header.recordType with
  | .txBegin => (decodeTxBegin encoded header).map .txBegin
  | .kvRecord => (decodeKvRecord encoded header).map .kvRecord
  | .deleteRecord => (decodeDeleteRecord encoded header).map .deleteRecord
  | .txPreparedEnd => do
    let footer ← decodeTxPreparedEnd encoded header
    rejectIf (footer.vlogEnd ≠ ⟨recordStart.fileId,recordStart.offset + header.encodedLen⟩)
      (decodeError .corruption)
    return .txPreparedEnd footer
  | .pageEnd => do
    decodePageEnd encoded recordStart geometry
    return .pageEnd

def decodeRecordAt (encoded : Bytes) (recordStart : VLogPosition) (geometry : VLogGeometry) :
    Result DecodedRecord := do
  geometry.validateForDecode
  validateRecordBounds encoded recordStart geometry
  let header ← RecordHeader.decode encoded
  rejectIf (header.encodedLen ≠ encoded.length) (decodeError .corruption)
  decodeRecordBody encoded recordStart geometry header

structure ValuePointer where
  formatVersion : Nat
  fileId : Nat
  recordOffset : Nat
  recordLen : Nat
  valueLen : Nat
  deriving DecidableEq, Repr

structure ValuePointerLayout where
  keyLen : Nat
  valueRelativeOffset : Nat
  valueStart : Nat
  valueEnd : Nat
  recordEnd : Nat
  deriving DecidableEq, Repr

namespace ValuePointer

def validateFields (pointer : ValuePointer) : Result Unit := do
  rejectIf (pointer.formatVersion ≠ valuePointerFormatVersion) (decodeError .incompatibleFormat)
  rejectIf (pointer.fileId > maxVlogFileId ∨ pointer.recordLen < minKvRecordLen ∨
    pointer.recordLen > maxKvRecordLen ∨ pointer.valueLen > maxKeyValueSize) (decodeError .corruption)
  rejectIf (pointer.recordLen < kvRecordFixedLenWithCrc) (decodeError .corruption)
  let payloadLen := pointer.recordLen - kvRecordFixedLenWithCrc
  rejectIf (payloadLen < pointer.valueLen) (decodeError .corruption)
  let keyLen := payloadLen - pointer.valueLen
  rejectIf (keyLen = 0 ∨ keyLen + pointer.valueLen > maxKeyValueSize) (decodeError .corruption)

def encode (pointer : ValuePointer) : Result Bytes := do
  pointer.validateFields.mapError (fun _ => encodeError)
  return leBytes 2 pointer.formatVersion ++ leBytes 4 pointer.fileId ++ leBytes 4 pointer.recordOffset ++
    leBytes 4 pointer.recordLen ++ leBytes 2 pointer.valueLen

def decode (encoded : Bytes) : Result ValuePointer := do
  rejectIf (encoded.length ≠ valuePointerEncodedLen) (decodeError .corruption)
  let formatVersion ← readU16 encoded 0
  rejectIf (formatVersion ≠ valuePointerFormatVersion) (decodeError .incompatibleFormat)
  let fileId ← readU32 encoded 2
  let recordOffset ← readU32 encoded 6
  let recordLen ← readU32 encoded 10
  let valueLen ← readU16 encoded 14
  let pointer : ValuePointer := ⟨formatVersion,fileId,recordOffset,recordLen,valueLen⟩
  pointer.validateFields
  return pointer

def layout (pointer : ValuePointer) : Result ValuePointerLayout := do
  pointer.validateFields
  rejectIf (pointer.recordLen < kvRecordFixedLenWithCrc) (decodeError .corruption)
  let payloadLen := pointer.recordLen - kvRecordFixedLenWithCrc
  rejectIf (payloadLen < pointer.valueLen) (decodeError .corruption)
  let keyLen := payloadLen - pointer.valueLen
  rejectIf (keyLen ≥ 65536) (decodeError .corruption)
  rejectIf (pointer.recordLen < recordCrcLen + pointer.valueLen) (decodeError .corruption)
  let valueRelativeOffset := pointer.recordLen - recordCrcLen - pointer.valueLen
  let recordEnd := pointer.recordOffset + pointer.recordLen
  return ⟨keyLen,valueRelativeOffset,pointer.recordOffset + valueRelativeOffset,recordEnd - recordCrcLen,recordEnd⟩

def validateFileBounds (pointer : ValuePointer) (fileStSize : Nat) : Result ValuePointerLayout := do
  let layout ← pointer.layout
  rejectIf (fileStSize > maxVlogFileSize ∨ layout.recordEnd > maxVlogFileSize ∨ layout.recordEnd > fileStSize)
    (decodeError .corruption)
  let pageNo := pointer.recordOffset / vlogPageSize
  let pageStart := pageNo * vlogPageSize
  let recordAreaStart := if pageNo = 0 then firstPageRecordAreaStart else pageStart + otherPageRecordAreaOffset
  let endOffset := pageStart + vlogPageSize
  rejectIf (pointer.recordOffset < recordAreaStart ∨ layout.recordEnd > endOffset) (decodeError .corruption)
  return layout

end ValuePointer

-- The running checksum of an envelope. It reads contents, never physical layout.
structure EnvelopeCrc32c where
  checksum : Nat
  deriving DecidableEq, Repr

namespace EnvelopeCrc32c

def new : EnvelopeCrc32c := ⟨crc32c envelopeCrcMagic⟩

def update (crc : EnvelopeCrc32c) (bytes : Bytes) : EnvelopeCrc32c := ⟨crc32cAppend crc.checksum bytes⟩

def updateU64 (crc : EnvelopeCrc32c) (value : Nat) : EnvelopeCrc32c := crc.update (leBytes 8 value)

def updatePosition (crc : EnvelopeCrc32c) (position : VLogPosition) : EnvelopeCrc32c :=
  (crc.update (leBytes 4 position.fileId)).update (leBytes 8 position.offset)

def updateRecordPrefix (crc : EnvelopeCrc32c) (recordType : RecordType) (canonicalBodyLen : Nat) :
    EnvelopeCrc32c := (crc.update [recordType.code]).update (leBytes 4 canonicalBodyLen)

def updateTxBegin (crc : EnvelopeCrc32c) (begin : TxBegin) : Result EnvelopeCrc32c := do
  validateTxBegin begin
  let crc := crc.updateRecordPrefix .txBegin 52
  let crc := (crc.updateU64 begin.commitSeq).update begin.txUuid.val
  let crc := crc.updatePosition begin.vlogBegin
  return (crc.updateU64 begin.logicalOpCount).updateU64 begin.distinctKeyCount

def updateKvRecord (crc : EnvelopeCrc32c) (record : KvRecord) : Result EnvelopeCrc32c := do
  validateIdentity record.commitSeq record.txUuid
  rejectIf (record.key.length ≥ 65536 ∨ record.value.length ≥ 65536) (decodeError .corruption)
  let payloadLen := record.key.length + record.value.length
  rejectIf (record.key.length = 0 ∨ payloadLen > maxKeyValueSize) (decodeError .corruption)
  let crc := crc.updateRecordPrefix .kvRecord (36 + payloadLen)
  let crc := ((crc.updateU64 record.commitSeq).update record.txUuid.val).updateU64 record.opIndex
  let crc := (crc.update (leBytes 2 record.key.length)).update (leBytes 2 record.value.length)
  return (crc.update record.key).update record.value

def updateDeleteRecord (crc : EnvelopeCrc32c) (record : DeleteRecord) : Result EnvelopeCrc32c := do
  validateIdentity record.commitSeq record.txUuid
  rejectIf (record.key.length ≥ 65536) (decodeError .corruption)
  rejectIf (record.key.length = 0 ∨ record.key.length > maxKeyValueSize) (decodeError .corruption)
  let crc := crc.updateRecordPrefix .deleteRecord (34 + record.key.length)
  let crc := ((crc.updateU64 record.commitSeq).update record.txUuid.val).updateU64 record.opIndex
  return (crc.update (leBytes 2 record.key.length)).update record.key

def finishWithFooter (crc : EnvelopeCrc32c) (footer : TxPreparedEnd) : Result Nat := do
  validateTxPreparedEnd footer
  let crc := crc.updateRecordPrefix .txPreparedEnd 80
  let crc := (crc.updateU64 footer.commitSeq).update footer.txUuid.val
  let crc := (crc.updatePosition footer.vlogBegin).updatePosition footer.vlogEnd
  let crc := (crc.updateU64 footer.logicalOpCount).updateU64 footer.distinctKeyCount
  return ((crc.updateU64 footer.kvRecordCount).updateU64 footer.deleteRecordCount).checksum

end EnvelopeCrc32c

end ExpirKv
