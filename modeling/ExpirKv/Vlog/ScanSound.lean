import ExpirKv.Vlog.FormatExact
import ExpirKv.Vlog.RoundTrip

namespace ExpirKv

-- The place behind a position: itself, or the start of the next file once this one is full.
def Succeeds (geometry : VLogGeometry) (previous start : VLogPosition) : Prop :=
  (previous.offset < geometry.maxFileSize ∧ start = previous) ∨
    (previous.offset = geometry.maxFileSize ∧ start = ⟨previous.fileId + 1,0⟩)

-- Chunks that cover a range without a gap, each of them inside one page.
inductive Tiles (geometry : VLogGeometry) : VLogPosition → List PhysicalChunk → VLogPosition → Prop
  | nil {position : VLogPosition} : Tiles geometry position [] position
  | cons {position stop : VLogPosition} {chunk : PhysicalChunk} {rest : List PhysicalChunk} :
      Succeeds geometry position chunk.position → chunk.bytes ≠ [] → chunk.position.fileId ≤ geometry.maxFileId →
      chunk.position.offset + chunk.bytes.length ≤ geometry.maxFileSize →
      chunk.position.offset + chunk.bytes.length ≤
        (chunk.position.offset / geometry.pageSize + 1) * geometry.pageSize →
      Tiles geometry chunk.next rest stop → Tiles geometry position (chunk :: rest) stop

-- What a scan may rely on once the geometry was accepted.
theorem VLogGeometry.validateForDecode_ok {geometry : VLogGeometry} (accepted : geometry.validateForDecode = .ok ()) :
    64 < geometry.pageSize ∧ geometry.maxFileSize % geometry.pageSize = 0 := by
  simp only [validateForDecode,validate,mapError_ok,bind_ok,exists_unit,rejectIf_ok,firstPageRecordAreaStart] at accepted
  exact ⟨by omega,by omega⟩

theorem nextChunkPosition_succeeds {geometry : VLogGeometry} {previous start : VLogPosition}
    (stepped : nextChunkPosition previous geometry = .ok start) : Succeeds geometry previous start := by
  unfold nextChunkPosition nextPosition at stepped
  split at stepped
  · rename_i inside
    exact .inl ⟨inside,(Except.ok.inj stepped).symm⟩
  · split at stepped
    · cases stepped
    · rename_i full
      exact .inr ⟨by omega,(Except.ok.inj stepped).symm⟩

-- A page that begins inside the range begins with a chunk.
theorem Tiles.starts_page {geometry : VLogGeometry} {position stop start : VLogPosition} {chunks : List PhysicalChunk}
    (tiles : Tiles geometry position chunks stop)
    (aligned : start.offset % geometry.pageSize = 0) (inside : start.offset < geometry.maxFileSize)
    (low : position ≤ start) (high : start < stop) : ∃ chunk ∈ chunks, chunk.position = start := by
  induction tiles with
  | nil => exact absurd (VLogPosition.lt_of_le_of_lt low high) (VLogPosition.lt_irrefl _)
  | cons follows filled file limit page rest ih =>
    rename_i position stop chunk rest
    have reached : chunk.position ≤ start := by
      rcases follows with ⟨-,here⟩ | ⟨full,here⟩
      · rw [here]
        exact low
      · rw [here]
        simp only [VLogPosition.le_def] at low ⊢
        omega
    by_cases before : chunk.next ≤ start
    · obtain ⟨found,member,here⟩ := ih before high
      exact ⟨found,List.mem_cons_of_mem _ member,here⟩
    · have within := VLogPosition.not_le.mp before
      simp only [VLogPosition.lt_def,VLogPosition.le_def,PhysicalChunk.next] at within reached
      have sameFile : start.fileId = chunk.position.fileId := by omega
      have upper : start.offset < (chunk.position.offset / geometry.pageSize + 1) * geometry.pageSize := by omega
      have pages : start.offset / geometry.pageSize ≤ chunk.position.offset / geometry.pageSize :=
        Nat.le_of_lt_succ (Nat.div_lt_of_lt_mul (by rw [Nat.mul_comm]; exact upper))
      have exact : start.offset = start.offset / geometry.pageSize * geometry.pageSize :=
        (Nat.div_mul_cancel (Nat.dvd_of_mod_eq_zero aligned)).symm
      have scaled := Nat.mul_le_mul_right geometry.pageSize pages
      have floor := Nat.div_mul_le_self chunk.position.offset geometry.pageSize
      have sameOffset : start.offset = chunk.position.offset := by omega
      refine ⟨chunk,List.mem_cons_self,?_⟩
      rw [show start = ⟨start.fileId,start.offset⟩ from rfl,sameFile,sameOffset]

section contents
variable [Crc32c]

def DecodedRecord.Names (commitSeq : Nat) (txUuid : Uuid) : DecodedRecord → Prop
  | .txBegin begin => begin.commitSeq = commitSeq ∧ begin.txUuid = txUuid
  | .kvRecord record => record.commitSeq = commitSeq ∧ record.txUuid = txUuid
  | .deleteRecord record => record.commitSeq = commitSeq ∧ record.txUuid = txUuid
  | .txPreparedEnd footer => footer.commitSeq = commitSeq ∧ footer.txUuid = txUuid
  | .pageEnd => True

-- One record of a transaction, whole and inside its page. Only a page end reaches to the end of the page for sure; the
-- others leave nothing behind them or room for a page end.
structure HoldsRecord (geometry : VLogGeometry) (identity : Nat × Uuid) (chunk : PhysicalChunk) (record : DecodedRecord) :
    Prop where
  decoded : decodeRecordAt chunk.bytes chunk.position geometry = .ok record
  written : encodeRecordAt identity.1 identity.2 chunk.position geometry record = .ok chunk.bytes
  named : record.Names identity.1 identity.2
  area : (if chunk.position.offset < geometry.pageSize then 64 else 16) ≤ chunk.position.offset % geometry.pageSize
  within : chunk.position.offset + chunk.bytes.length ≤
    (chunk.position.offset / geometry.pageSize + 1) * geometry.pageSize
  fills : record = .pageEnd → chunk.position.offset + chunk.bytes.length =
    (chunk.position.offset / geometry.pageSize + 1) * geometry.pageSize
  room : record ≠ .pageEnd → (chunk.position.offset + chunk.bytes.length) % geometry.pageSize = 0 ∨
    (chunk.position.offset + chunk.bytes.length) % geometry.pageSize + 43 ≤ geometry.pageSize

-- What an envelope is made of: the header of each page, behind the first page of a file the header of the file, and the
-- records between them.
inductive Laid (geometry : VLogGeometry) (databaseUuid : Uuid) (identity : Nat × Uuid) :
    List PhysicalChunk → List DecodedRecord → Prop
  | nil : Laid geometry databaseUuid identity [] []
  | page {chunk : PhysicalChunk} {rest : List PhysicalChunk} {records : List DecodedRecord} :
      chunk.position.offset % geometry.pageSize = 0 → chunk.position.offset ≠ 0 →
      PageHeader.encode ⟨chunk.position.fileId,chunk.position.offset / geometry.pageSize⟩ = .ok chunk.bytes →
      Laid geometry databaseUuid identity rest records → Laid geometry databaseUuid identity (chunk :: rest) records
  | file {head chunk : PhysicalChunk} {rest : List PhysicalChunk} {records : List DecodedRecord} :
      head.position.offset = 0 → PageHeader.encode ⟨head.position.fileId,0⟩ = .ok head.bytes →
      chunk.position = ⟨head.position.fileId,16⟩ →
      (VLogFileHeader.new databaseUuid head.position.fileId).encode = .ok chunk.bytes →
      Laid geometry databaseUuid identity rest records →
      Laid geometry databaseUuid identity (head :: chunk :: rest) records
  | record {chunk : PhysicalChunk} {rest : List PhysicalChunk} {record : DecodedRecord} {records : List DecodedRecord} :
      HoldsRecord geometry identity chunk record → Laid geometry databaseUuid identity rest records →
      Laid geometry databaseUuid identity (chunk :: rest) (record :: records)

-- A chunk at the start of a page is a header and nothing else.
theorem Laid.header {geometry : VLogGeometry} {databaseUuid : Uuid} {identity : Nat × Uuid}
    {chunks : List PhysicalChunk} {records : List DecodedRecord} {chunk : PhysicalChunk}
    (laid : Laid geometry databaseUuid identity chunks records) (member : chunk ∈ chunks)
    (aligned : chunk.position.offset % geometry.pageSize = 0) (wide : 64 < geometry.pageSize) :
    PageHeader.encode ⟨chunk.position.fileId,chunk.position.offset / geometry.pageSize⟩ = .ok chunk.bytes ∧
      (chunk.position.offset = 0 → ∃ next ∈ chunks, next.position = ⟨chunk.position.fileId,16⟩ ∧
        (VLogFileHeader.new databaseUuid chunk.position.fileId).encode = .ok next.bytes) := by
  induction laid with
  | nil => cases member
  | page here nonzero written rest ih =>
    rcases List.mem_cons.mp member with rfl | member
    · exact ⟨written,fun zero => absurd zero nonzero⟩
    · obtain ⟨header,following⟩ := ih member
      refine ⟨header,?_⟩
      intro zero
      obtain ⟨next,found,facts⟩ := following zero
      exact ⟨next,List.mem_cons_of_mem _ found,facts⟩
  | file here written place header rest ih =>
    rename_i head second others records
    rcases List.mem_cons.mp member with rfl | member
    · refine ⟨by rw [here,Nat.zero_div]; exact written,?_⟩
      intro zero
      exact ⟨second,by simp,place,header⟩
    · rcases List.mem_cons.mp member with rfl | member
      · rw [place] at aligned
        simp only [Nat.mod_eq_of_lt (show 16 < geometry.pageSize by omega)] at aligned
        cases aligned
      · obtain ⟨header,following⟩ := ih member
        refine ⟨header,?_⟩
        intro zero
        obtain ⟨next,found,facts⟩ := following zero
        exact ⟨next,List.mem_cons_of_mem _ (List.mem_cons_of_mem _ found),facts⟩
  | record holds rest ih =>
    rcases List.mem_cons.mp member with rfl | member
    · have area := holds.area
      rw [aligned] at area
      split at area <;> omega
    · obtain ⟨header,following⟩ := ih member
      refine ⟨header,?_⟩
      intro zero
      obtain ⟨next,found,facts⟩ := following zero
      exact ⟨next,List.mem_cons_of_mem _ found,facts⟩

theorem decodeRecordAt_names {geometry : VLogGeometry} {chunk : PhysicalChunk} {record : DecodedRecord}
    {header : RecordHeader} (decoded : decodeRecordAt chunk.bytes chunk.position geometry = .ok record)
    (headed : RecordHeader.decode chunk.bytes = .ok header) : record.Names header.commitSeq header.txUuid := by
  simp only [decodeRecordAt,bind_ok,exists_unit,headed,Except.ok.injEq,exists_eq_left'] at decoded
  obtain ⟨-,-,-,body⟩ := decoded
  unfold decodeRecordBody at body
  split at body
  · obtain ⟨begin,read,rfl⟩ := map_ok.mp body
    simp only [decodeTxBegin,bind_ok,exists_unit,pure_ok,Except.ok.injEq] at read
    obtain ⟨-,-,_,-,_,-,_,-,-,rfl⟩ := read
    exact ⟨rfl,rfl⟩
  · obtain ⟨found,read,rfl⟩ := map_ok.mp body
    simp only [decodeKvRecord,bind_ok,exists_unit,pure_ok,Except.ok.injEq] at read
    obtain ⟨-,_,-,_,-,-,-,-,_,-,_,-,_,-,rfl⟩ := read
    exact ⟨rfl,rfl⟩
  · obtain ⟨found,read,rfl⟩ := map_ok.mp body
    simp only [decodeDeleteRecord,bind_ok,exists_unit,pure_ok,Except.ok.injEq] at read
    obtain ⟨-,_,-,-,-,-,_,-,_,-,rfl⟩ := read
    exact ⟨rfl,rfl⟩
  · simp only [decodeTxPreparedEnd,bind_ok,exists_unit,pure_ok,Except.ok.injEq] at body
    obtain ⟨footer,⟨-,_,-,-,_,-,-,_,-,_,-,_,-,_,-,_,-,_,-,_,-,-,rfl⟩,-,rfl⟩ := body
    exact ⟨rfl,rfl⟩
  · simp only [bind_ok,exists_unit,pure_ok,Except.ok.injEq] at body
    obtain ⟨-,rfl⟩ := body
    exact trivial

end contents

section steps
variable [Crc32c] {target : ScanTarget} {state next : ScanState} {chunk : PhysicalChunk} {isLast : Bool}

-- Everything one chunk of an accepted scan can be.
inductive TakesChunk (target : ScanTarget) (chunk : PhysicalChunk) (isLast : Bool) : ScanState → ScanState → Prop
  | page {state : ScanState} :
      state.expectingFileHeader = false → chunk.position.offset % target.geometry.pageSize = 0 →
      PageHeader.encode ⟨chunk.position.fileId,chunk.position.offset / target.geometry.pageSize⟩ = .ok chunk.bytes →
      TakesChunk target chunk isLast state
        {state with
          expectingFileHeader := chunk.position.offset / target.geometry.pageSize == 0
          physicalEnd := chunk.next}
  | file {state : ScanState} :
      state.expectingFileHeader = true → chunk.position.offset = 16 →
      (VLogFileHeader.new target.databaseUuid chunk.position.fileId).encode = .ok chunk.bytes →
      TakesChunk target chunk isLast state {state with expectingFileHeader := false,physicalEnd := chunk.next}
  | record {state named after : ScanState} {header : RecordHeader} {record : DecodedRecord} :
      state.expectingFileHeader = false → state.checkIdentity header = .ok named →
      named.acceptRecord target isLast record = .ok (after,decide (record ≠ .pageEnd)) →
      HoldsRecord target.geometry (header.commitSeq,header.txUuid) chunk record →
      TakesChunk target chunk isLast state {after with physicalEnd := chunk.next}

-- Only page ends are not transaction records.
theorem acceptRecord_flag {scanned : ScanState × Bool} {record : DecodedRecord}
    (accepted : state.acceptRecord target isLast record = .ok scanned) : scanned.2 = decide (record ≠ .pageEnd) := by
  cases record with
  | pageEnd =>
    simp only [ScanState.acceptRecord,bind_ok,exists_unit,pure_ok,Except.ok.injEq] at accepted
    obtain ⟨-,rfl⟩ := accepted
    simp
  | txBegin found =>
    simp only [ScanState.acceptRecord,bind_ok,exists_unit,pure_ok,Except.ok.injEq] at accepted
    obtain ⟨-,-,_,-,rfl⟩ := accepted
    simp
  | kvRecord found =>
    simp only [ScanState.acceptRecord,bind_ok,exists_unit,pure_ok,Except.ok.injEq] at accepted
    obtain ⟨-,_,-,rfl⟩ := accepted
    simp
  | deleteRecord found =>
    simp only [ScanState.acceptRecord,bind_ok,exists_unit,pure_ok,Except.ok.injEq] at accepted
    obtain ⟨-,_,-,rfl⟩ := accepted
    simp
  | txPreparedEnd found =>
    simp only [ScanState.acceptRecord,bind_ok,exists_unit,pure_ok,Except.ok.injEq] at accepted
    obtain ⟨_,-,-,_,-,-,rfl⟩ := accepted
    simp

omit [Crc32c] in
theorem validateTransactionRecordEnd_room {geometry : VLogGeometry} {stop : VLogPosition}
    (whole : geometry.maxFileSize % geometry.pageSize = 0)
    (accepted : validateTransactionRecordEnd stop geometry = .ok ()) :
    stop.offset % geometry.pageSize = 0 ∨ stop.offset % geometry.pageSize + 43 ≤ geometry.pageSize := by
  simp only [validateTransactionRecordEnd,bind_ok,exists_unit,rejectIf_ok] at accepted
  obtain ⟨-,rest⟩ := accepted
  split at rest
  · rename_i bounds
    rcases bounds with full | aligned
    · rw [full]
      exact .inl whole
    · exact .inl aligned
  · simp only [remainingInPage,pageEnd,bind_ok,exists_unit,mapError_ok,rejectIf_ok,pure_ok,Except.ok.injEq,
      pageEndMinSize] at rest
    obtain ⟨remaining,⟨ending,⟨-,-,rfl⟩,-,rfl⟩,enough⟩ := rest
    have split := Nat.div_add_mod stop.offset geometry.pageSize
    rw [Nat.mul_comm] at split
    rw [Nat.add_mul,Nat.one_mul] at enough
    exact .inr (by omega)

omit [Crc32c] in
theorem pageEnd_value {geometry : VLogGeometry} {offset stop : Nat} (ended : pageEnd offset geometry = .ok stop) :
    stop = (offset / geometry.pageSize + 1) * geometry.pageSize := by
  simp only [pageEnd,bind_ok,exists_unit,rejectIf_ok,pure_ok,Except.ok.injEq] at ended
  exact ended.2.2.symm

theorem decodeRecordAt_place {geometry : VLogGeometry} {record : DecodedRecord}
    (decoded : decodeRecordAt chunk.bytes chunk.position geometry = .ok record) :
    (if chunk.position.offset < geometry.pageSize then 64 else 16) ≤ chunk.position.offset % geometry.pageSize ∧
      chunk.position.offset + chunk.bytes.length ≤
        (chunk.position.offset / geometry.pageSize + 1) * geometry.pageSize ∧
      (record = .pageEnd → chunk.position.offset + chunk.bytes.length =
        (chunk.position.offset / geometry.pageSize + 1) * geometry.pageSize) := by
  simp only [decodeRecordAt,validateRecordBounds,validateRecordStart,bind_ok,exists_unit,mapError_ok,rejectIf_ok,
    firstPageRecordAreaStart,otherPageRecordAreaOffset,Nat.not_lt] at decoded
  obtain ⟨-,⟨⟨-,area⟩,-,stop,ended,inside⟩,header,-,-,body⟩ := decoded
  have reach := pageEnd_value ended
  refine ⟨area,by omega,?_⟩
  rintro rfl
  unfold decodeRecordBody at body
  split at body
  · obtain ⟨_,-,no⟩ := map_ok.mp body
    cases no
  · obtain ⟨_,-,no⟩ := map_ok.mp body
    cases no
  · obtain ⟨_,-,no⟩ := map_ok.mp body
    cases no
  · simp only [bind_ok,pure_ok,Except.ok.injEq,reduceCtorEq,and_false,exists_false] at body
  · simp only [decodePageEnd,bind_ok,exists_unit,rejectIf_ok,not_not,ne_eq] at body
    obtain ⟨⟨-,-,last,found,same,-⟩,-⟩ := body
    rw [same]
    exact pageEnd_value found

theorem scanChunk_takes (decodable : target.geometry.validateForDecode = .ok ())
    (accepted : state.scanChunk target chunk isLast = .ok next) :
    Succeeds target.geometry state.physicalEnd chunk.position ∧ chunk.bytes ≠ [] ∧
      chunk.position.fileId ≤ target.geometry.maxFileId ∧
      chunk.position.offset + chunk.bytes.length ≤ target.geometry.maxFileSize ∧
      chunk.position.offset + chunk.bytes.length ≤
        (chunk.position.offset / target.geometry.pageSize + 1) * target.geometry.pageSize ∧
      next.physicalEnd = chunk.next ∧ TakesChunk target chunk isLast state next := by
  obtain ⟨wide,whole⟩ := VLogGeometry.validateForDecode_ok decodable
  simp only [ScanState.scanChunk,bind_ok,exists_unit,rejectIf_ok,pure_ok,Except.ok.injEq,not_not,ne_eq,
    List.isEmpty_iff] at accepted
  obtain ⟨filled,expected,follows,here,scanned,contents,stop,stopped,room,rfl⟩ := accepted
  simp only [chunkEnd,bind_ok,exists_unit,rejectIf_ok,pure_ok,Except.ok.injEq,Nat.not_lt] at stopped
  obtain ⟨file,inside,rfl⟩ := stopped
  rw [←here] at follows
  have floor : chunk.position.offset % target.geometry.pageSize = 0 →
      (chunk.position.offset / target.geometry.pageSize + 1) * target.geometry.pageSize =
        chunk.position.offset + target.geometry.pageSize := by
    intro aligned
    rw [Nat.add_mul,Nat.one_mul,Nat.div_mul_cancel (Nat.dvd_of_mod_eq_zero aligned)]
  suffices taken : chunk.position.offset + chunk.bytes.length ≤
      (chunk.position.offset / target.geometry.pageSize + 1) * target.geometry.pageSize ∧
      TakesChunk target chunk isLast state {scanned.1 with physicalEnd := chunk.next} from
    ⟨nextChunkPosition_succeeds follows,filled,file,inside,taken.1,rfl,taken.2⟩
  unfold ScanState.scanContents at contents
  split at contents
  · rename_i aligned
    simp only [ScanState.scanPageHeader,map_ok,bind_ok,exists_unit,rejectIf_ok,pure_ok,Except.ok.injEq,not_or,not_not,
      ne_eq,Bool.not_eq_true,pageHeaderEncodedLen] at contents
    obtain ⟨after,⟨waiting,sized,header,read,⟨sameFile,samePage⟩,rfl⟩,rfl⟩ := contents
    have written := PageHeader.decode_canonical read
    rw [show header = ⟨chunk.position.fileId,chunk.position.offset / target.geometry.pageSize⟩ by
      rw [←sameFile,←samePage]] at written
    rw [floor aligned,samePage]
    exact ⟨by omega,.page waiting aligned written⟩
  · split at contents
    · rename_i place
      simp only [ScanState.scanFileHeader,map_ok,bind_ok,exists_unit,rejectIf_ok,pure_ok,Except.ok.injEq,not_or,not_not,
        ne_eq,Bool.not_eq_false,fileHeaderEncodedLen] at contents
      obtain ⟨after,⟨waiting,sized,header,read,⟨sameUuid,sameFile⟩,rfl⟩,rfl⟩ := contents
      obtain ⟨formed,written⟩ := VLogFileHeader.decode_canonical read
      rw [sameUuid,sameFile] at formed
      rw [formed] at written
      have offset : chunk.position.offset = 16 := place.2
      rw [Nat.div_eq_of_lt place.1,Nat.zero_add,Nat.one_mul]
      exact ⟨by omega,.file waiting offset written⟩
    · simp only [ScanState.scanRecord,bind_ok,exists_unit,rejectIf_ok,Bool.not_eq_true] at contents
      obtain ⟨waiting,record,decoded,header,headed,named,checked,taken⟩ := contents
      obtain ⟨area,within,fills⟩ := decodeRecordAt_place decoded
      obtain ⟨again,headedAgain,-,written,-⟩ := encodeRecordAt_decode decoded
      obtain rfl := Except.ok.inj (headed.symm.trans headedAgain)
      have flag := acceptRecord_flag taken
      refine ⟨within,.record waiting checked (flag ▸ taken)
        ⟨decoded,written,decodeRecordAt_names decoded headed,area,within,fills,?_⟩⟩
      intro transaction
      rw [flag] at room
      simp only [ScanState.checkRecordEnd,ne_eq,transaction,not_false_eq_true,decide_true,if_true] at room
      exact validateTransactionRecordEnd_room whole room

end steps

section gathered
variable [Crc32c] {target : ScanTarget} {state next final : ScanState} {chunk : PhysicalChunk} {isLast : Bool}
  {record : DecodedRecord} {seen : List DecodedRecord}

-- The checksum over a begin and the operations behind it, and over the whole envelope.
def openedCrc (begin : TxBegin) (operations : List LogicalOperation) : Result EnvelopeCrc32c := do
  let crc ← EnvelopeCrc32c.new.updateTxBegin begin
  updateOperations crc begin.commitSeq begin.txUuid 0 operations

def canonicalEnvelopeCrc (begin : TxBegin) (operations : List LogicalOperation) (footer : TxPreparedEnd) : Result Nat := do
  let crc ← openedCrc begin operations
  crc.finishWithFooter footer

def transactionRecords (records : List DecodedRecord) : List DecodedRecord :=
  records.filter (fun record => decide (record ≠ .pageEnd))

structure ScanCounts (state : ScanState) (operations : List LogicalOperation) : Prop where
  logical : state.logicalOpCount = operations.length
  kv : state.kvRecordCount = operations.countP LogicalOperation.isPut
  deletes : state.deleteRecordCount = operations.countP (fun operation => !operation.isPut)
  keys : state.distinctKeys = distinctKeys operations

-- A footer that tells the truth about the begin and the operations before it.
structure FooterAgrees (target : ScanTarget) (begin : TxBegin) (operations : List LogicalOperation) (footer : TxPreparedEnd) :
    Prop where
  commitSeq : footer.commitSeq = begin.commitSeq
  txUuid : footer.txUuid = begin.txUuid
  begins : footer.vlogBegin = target.vlogBegin
  ends : footer.vlogEnd = target.vlogEnd
  declared : begin.logicalOpCount = operations.length ∧ begin.distinctKeyCount = (distinctKeys operations).length
  logical : footer.logicalOpCount = operations.length
  distinct : footer.distinctKeyCount = (distinctKeys operations).length
  kv : footer.kvRecordCount = operations.countP LogicalOperation.isPut
  deletes : footer.deleteRecordCount = operations.countP (fun operation => !operation.isPut)
  checksum : canonicalEnvelopeCrc begin operations footer = .ok footer.envelopeCrc32c
  expected : ∀ expected ∈ target.expectedEnvelopeCrc32c, expected = footer.envelopeCrc32c

-- How far the scan is, in terms of the transaction records behind it.
inductive Progress (target : ScanTarget) (state : ScanState) : List DecodedRecord → Prop
  | unopened : state.begin = none → state.footer = none → state.envelopeCrc = .new → ScanCounts state [] →
      Progress target state []
  | opened {begin : TxBegin} {operations : List LogicalOperation} :
      state.begin = some begin → state.footer = none → state.identity = some (begin.commitSeq,begin.txUuid) →
      begin.vlogBegin = target.vlogBegin → openedCrc begin operations = .ok state.envelopeCrc →
      ScanCounts state operations →
      Progress target state (.txBegin begin :: operationRecords begin.commitSeq begin.txUuid 0 operations)
  | closed {begin : TxBegin} {operations : List LogicalOperation} {footer : TxPreparedEnd} :
      state.begin = some begin → state.footer = some footer → state.identity = some (begin.commitSeq,begin.txUuid) →
      begin.vlogBegin = target.vlogBegin → ScanCounts state operations → FooterAgrees target begin operations footer →
      Progress target state (.txBegin begin :: operationRecords begin.commitSeq begin.txUuid 0 operations ++
        [.txPreparedEnd footer])

-- The accumulated state of the scan, as a function of the records it has passed.
structure Seen (target : ScanTarget) (state : ScanState) (records : List DecodedRecord) : Prop where
  progress : Progress target state (transactionRecords records)
  apart : records.IsChain (fun earlier later => earlier ≠ .pageEnd ∨ later ≠ .pageEnd)
  ended : state.previousTransactionRecordWasPageEnd = true ↔ records.getLast? = some .pageEnd

omit [Crc32c] in
theorem transactionRecords_append {record : DecodedRecord} (transaction : record ≠ .pageEnd) :
    transactionRecords (seen ++ [record]) = transactionRecords seen ++ [record] := by
  simp [transactionRecords,transaction]

omit [Crc32c] in
theorem isChain_concat {related : DecodedRecord → DecodedRecord → Prop} {records : List DecodedRecord}
    (chain : records.IsChain related) (last : ∀ earlier, records.getLast? = some earlier → related earlier record) :
    (records ++ [record]).IsChain related := by
  refine List.isChain_append.mpr ⟨chain,List.isChain_singleton _,?_⟩
  intro earlier found later same
  simp only [List.head?_cons,Option.mem_def,Option.some.injEq] at same
  rw [←same]
  exact last earlier found

omit [Crc32c] in
theorem operationRecords_concat (commitSeq : Nat) (txUuid : Uuid) (start : Nat) (operations : List LogicalOperation)
    (operation : LogicalOperation) :
    operationRecords commitSeq txUuid start (operations ++ [operation]) =
      operationRecords commitSeq txUuid start operations ++
        [operationRecord commitSeq txUuid (start + operations.length) operation] := by
  induction operations generalizing start with
  | nil => rfl
  | cons first rest ih =>
    simp only [List.cons_append,operationRecords,ih,List.length_cons]
    rw [show start + 1 + rest.length = start + (rest.length + 1) by omega]

theorem updateOperations_concat {crc after last : EnvelopeCrc32c} {commitSeq start : Nat} {txUuid : Uuid}
    {operations : List LogicalOperation} {operation : LogicalOperation}
    (updated : updateOperations crc commitSeq txUuid start operations = .ok after)
    (further : updateOperation after commitSeq txUuid (start + operations.length) operation = .ok last) :
    updateOperations crc commitSeq txUuid start (operations ++ [operation]) = .ok last := by
  induction operations generalizing start crc with
  | nil =>
    obtain rfl := Except.ok.inj updated
    simp only [List.length_nil,Nat.add_zero] at further
    simp only [List.nil_append,updateOperations,further,ok_bind]
  | cons first rest ih =>
    simp only [updateOperations,bind_ok] at updated
    obtain ⟨middle,stepped,updated⟩ := updated
    simp only [List.cons_append,updateOperations,stepped,ok_bind]
    refine ih updated ?_
    rw [show start + 1 + rest.length = start + (first :: rest).length by simp only [List.length_cons]; omega]
    exact further

-- An operation continues an open envelope.
theorem Progress.operation {operation : LogicalOperation} {crc : EnvelopeCrc32c} {commitSeq : Nat} {txUuid : Uuid}
    {records : List DecodedRecord} (progress : Progress target state records) (begun : state.begin.isSome)
    (unfinished : state.footer = none) (identity : state.identity = some (commitSeq,txUuid))
    (updated : updateOperation state.envelopeCrc commitSeq txUuid state.logicalOpCount operation = .ok crc) :
    Progress target
      {state with
        envelopeCrc := crc
        distinctKeys := state.distinctKeys.insert (operationKey operation)
        logicalOpCount := state.logicalOpCount + 1
        kvRecordCount := state.kvRecordCount + [operation].countP LogicalOperation.isPut
        deleteRecordCount := state.deleteRecordCount + [operation].countP (fun operation => !operation.isPut)
        previousTransactionRecordWasPageEnd := false}
      (records ++ [operationRecord commitSeq txUuid state.logicalOpCount operation]) := by
  cases progress with
  | unopened none _ _ _ =>
    rw [none] at begun
    cases begun
  | closed _ finished _ _ _ _ =>
    rw [unfinished] at finished
    cases finished
  | @opened begin operations found _ same begins crcs counts =>
    rw [identity] at same
    obtain ⟨rfl,rfl⟩ := Prod.mk.inj (Option.some.inj same)
    rw [List.cons_append,counts.logical]
    have record := operationRecords_concat begin.commitSeq begin.txUuid 0 operations operation
    rw [Nat.zero_add] at record
    rw [←record]
    refine .opened found unfinished identity begins ?_ ⟨?_,?_,?_,?_⟩
    · simp only [openedCrc,bind_ok] at crcs ⊢
      obtain ⟨begun,opens,crcs⟩ := crcs
      refine ⟨begun,opens,updateOperations_concat crcs ?_⟩
      rw [Nat.zero_add,←counts.logical]
      exact updated
    · simp
    · simp only [counts.kv,List.countP_append]
    · simp only [counts.deletes,List.countP_append]
    · simp only [counts.keys,distinctKeys_concat]

-- The place and the flags of the scan are not part of its progress.
theorem Progress.moved {records : List DecodedRecord} (progress : Progress target state records)
    (physicalEnd : VLogPosition) (ended waiting : Bool) :
    Progress target
      {state with
        physicalEnd
        previousTransactionRecordWasPageEnd := ended
        expectingFileHeader := waiting} records := by
  cases progress with
  | unopened begins footers crcs counts =>
    exact .unopened begins footers crcs ⟨counts.logical,counts.kv,counts.deletes,counts.keys⟩
  | opened begins footers identity place crcs counts =>
    exact .opened begins footers identity place crcs ⟨counts.logical,counts.kv,counts.deletes,counts.keys⟩
  | closed begins footers identity place counts agrees =>
    exact .closed begins footers identity place ⟨counts.logical,counts.kv,counts.deletes,counts.keys⟩ agrees

theorem Progress.started {records : List DecodedRecord} {identity : Nat × Uuid}
    (progress : Progress target state records) (unnamed : state.identity = none) :
    Progress target {state with identity := some identity} records := by
  cases progress with
  | unopened begins footers crcs counts =>
    exact .unopened begins footers crcs ⟨counts.logical,counts.kv,counts.deletes,counts.keys⟩
  | opened _ _ identity _ _ _ =>
    rw [unnamed] at identity
    cases identity
  | closed _ _ identity _ _ _ =>
    rw [unnamed] at identity
    cases identity

theorem checkIdentity_seen {header : RecordHeader} {named : ScanState} (gathered : Seen target state seen)
    (checked : state.checkIdentity header = .ok named) :
    Seen target named seen ∧ named.identity = some (header.commitSeq,header.txUuid) ∧
      (∀ identity, state.identity = some identity → named.identity = some identity) ∧ named.footer = state.footer ∧
      named.expectingFileHeader = state.expectingFileHeader := by
  unfold ScanState.checkIdentity at checked
  split at checked
  · rename_i commitSeq txUuid known
    simp only [bind_ok,exists_unit,rejectIf_ok,pure_ok,Except.ok.injEq,not_or,not_not,ne_eq] at checked
    obtain ⟨⟨rfl,rfl⟩,rfl⟩ := checked
    exact ⟨gathered,known,fun _ same => same,rfl,rfl⟩
  · rename_i unnamed
    obtain rfl := Except.ok.inj checked
    refine ⟨⟨gathered.progress.started unnamed,gathered.apart,gathered.ended⟩,rfl,?_,rfl,rfl⟩
    intro identity known
    rw [unnamed] at known
    cases known

-- A transaction record ends no page and stands behind anything.
theorem Seen.append (gathered : Seen target state seen) (transaction : record ≠ .pageEnd)
    (progress : Progress target next (transactionRecords seen ++ [record]))
    (unmarked : next.previousTransactionRecordWasPageEnd = false) : Seen target next (seen ++ [record]) := by
  refine ⟨?_,isChain_concat gathered.apart fun _ _ => .inr transaction,?_⟩
  · rw [transactionRecords_append transaction]
    exact progress
  · rw [unmarked,List.getLast?_concat]
    simp only [Bool.false_eq_true,Option.some.injEq,transaction]

theorem acceptRecord_seen {commitSeq : Nat} {txUuid : Uuid} {flag : Bool} (gathered : Seen target state seen)
    (identity : state.identity = some (commitSeq,txUuid)) (named : record.Names commitSeq txUuid)
    (accepted : state.acceptRecord target isLast record = .ok (next,flag)) :
    Seen target next (seen ++ [record]) ∧ next.identity = state.identity ∧
      next.expectingFileHeader = state.expectingFileHeader ∧
      (next.footer = state.footer ∨
        (isLast = true ∧ ∃ footer, record = .txPreparedEnd footer ∧ next.footer = some footer)) := by
  cases record with
  | pageEnd =>
    simp only [ScanState.acceptRecord,bind_ok,exists_unit,rejectIf_ok,pure_ok,Except.ok.injEq,Prod.mk.injEq,
      not_or] at accepted
    obtain ⟨⟨-,unmarked⟩,rfl,-⟩ := accepted
    refine ⟨⟨?_,?_,?_⟩,rfl,rfl,.inl rfl⟩
    · have same : transactionRecords (seen ++ [.pageEnd]) = transactionRecords seen := by simp [transactionRecords]
      rw [same]
      exact gathered.progress.moved _ _ _
    · refine isChain_concat gathered.apart ?_
      rintro earlier last
      refine .inl ?_
      rintro rfl
      exact unmarked (gathered.ended.mpr last)
    · simp
  | txBegin found =>
    simp only [ScanState.acceptRecord,bind_ok,exists_unit,rejectIf_ok,pure_ok,Except.ok.injEq,Prod.mk.injEq,not_or,
      not_not,ne_eq,Option.not_isSome_iff_eq_none] at accepted
    obtain ⟨⟨unopened,-,-⟩,begins,crc,updated,rfl,-⟩ := accepted
    refine ⟨gathered.append (by simp) ?_ rfl,rfl,rfl,.inl rfl⟩
    cases progress : transactionRecords seen with
    | nil =>
      have before := gathered.progress
      rw [progress] at before
      cases before with
      | unopened _ footers crcs counts =>
        obtain ⟨rfl,rfl⟩ := named
        refine @Progress.opened _ target _ found [] rfl footers identity begins ?_
          ⟨counts.logical,counts.kv,counts.deletes,counts.keys⟩
        rw [crcs] at updated
        simp only [openedCrc,updated,ok_bind,updateOperations]
    | cons first rest =>
      have before := gathered.progress
      rw [progress] at before
      cases before with
      | opened taken _ _ _ _ _ =>
        rw [unopened] at taken
        cases taken
      | closed taken _ _ _ _ _ =>
        rw [unopened] at taken
        cases taken
  | kvRecord found =>
    simp only [ScanState.acceptRecord,bind_ok,exists_unit,rejectIf_ok,pure_ok,Except.ok.injEq,Prod.mk.injEq,not_or,
      not_not,ne_eq,Option.not_isSome_iff_eq_none,Option.isNone_iff_eq_none] at accepted
    obtain ⟨⟨begun,unfinished,index⟩,crc,updated,rfl,-⟩ := accepted
    refine ⟨gathered.append (by simp) ?_ rfl,rfl,rfl,.inl rfl⟩
    obtain ⟨rfl,rfl⟩ := named
    have step := @Progress.operation _ target state (.put found.key found.value) crc _ _ _ gathered.progress
      (Option.isSome_iff_ne_none.mpr begun) unfinished identity (by rw [updateOperation,←index]; exact updated)
    have same : DecodedRecord.kvRecord found =
        operationRecord found.commitSeq found.txUuid state.logicalOpCount (.put found.key found.value) := by
      rw [operationRecord,←index]
    rw [same]
    exact step
  | deleteRecord found =>
    simp only [ScanState.acceptRecord,bind_ok,exists_unit,rejectIf_ok,pure_ok,Except.ok.injEq,Prod.mk.injEq,not_or,
      not_not,ne_eq,Option.not_isSome_iff_eq_none,Option.isNone_iff_eq_none] at accepted
    obtain ⟨⟨begun,unfinished,index⟩,crc,updated,rfl,-⟩ := accepted
    refine ⟨gathered.append (by simp) ?_ rfl,rfl,rfl,.inl rfl⟩
    obtain ⟨rfl,rfl⟩ := named
    have step := @Progress.operation _ target state (.delete found.key) crc _ _ _ gathered.progress
      (Option.isSome_iff_ne_none.mpr begun) unfinished identity (by rw [updateOperation,←index]; exact updated)
    have same : DecodedRecord.deleteRecord found =
        operationRecord found.commitSeq found.txUuid state.logicalOpCount (.delete found.key) := by
      rw [operationRecord,←index]
    rw [same]
    exact step
  | txPreparedEnd found =>
    simp only [ScanState.acceptRecord,bind_ok,exists_unit,rejectIf_ok,orError_ok,pure_ok,Except.ok.injEq,Prod.mk.injEq,
      not_or,not_not,ne_eq,Bool.not_eq_false,Option.not_isSome_iff_eq_none] at accepted
    obtain ⟨declared,taken,⟨unfinished,sameSeq,sameUuid,sameBegin,ends,logical,distinct,counted,keys,kv,deletes,last⟩,
      calculated,finished,⟨sealed,expected⟩,rfl,-⟩ := accepted
    refine ⟨gathered.append (by simp) ?_ rfl,rfl,rfl,.inr ⟨last,found,rfl,rfl⟩⟩
    have before := gathered.progress
    generalize transactionRecords seen = records at before
    cases before with
    | unopened none _ _ _ =>
      rw [taken] at none
      cases none
    | closed _ done _ _ _ _ =>
      rw [unfinished] at done
      cases done
    | @opened begin operations opened _ named begins crcs counts =>
      obtain rfl := Option.some.inj (taken.symm.trans opened)
      refine .closed taken rfl named begins ⟨counts.logical,counts.kv,counts.deletes,counts.keys⟩
        ⟨sameSeq,sameUuid,sameBegin.trans begins,ends,?_,?_,?_,?_,?_,?_,?_⟩
      · rw [←counts.logical,←counts.keys]
        exact ⟨logical.symm.trans counted,distinct.symm.trans keys⟩
      · exact counted.trans counts.logical
      · rw [←counts.keys]
        exact keys
      · exact kv.trans counts.kv
      · exact deletes.trans counts.deletes
      · rw [canonicalEnvelopeCrc,crcs,ok_bind,finished,sealed]
      · intro value asked
        by_contra differs
        exact expected ⟨value,asked,fun same => differs (same.trans sealed)⟩

end gathered

section runs
variable [Crc32c] {target : ScanTarget} {state final : ScanState} {chunks : List PhysicalChunk}
  {seen : List DecodedRecord} {identity : Nat × Uuid}

theorem scanChunks_tiles (decodable : target.geometry.validateForDecode = .ok ())
    (accepted : state.scanChunks target chunks = .ok final) :
    Tiles target.geometry state.physicalEnd chunks final.physicalEnd := by
  induction chunks generalizing state with
  | nil =>
    obtain rfl := Except.ok.inj accepted
    exact .nil
  | cons chunk rest ih =>
    simp only [ScanState.scanChunks,bind_ok] at accepted
    obtain ⟨middle,first,accepted⟩ := accepted
    obtain ⟨follows,filled,file,limit,page,reached,-⟩ := scanChunk_takes decodable first
    have later := ih accepted
    rw [reached] at later
    exact .cons follows filled file limit page later

-- One chunk: what was gathered before stays, the record of the chunk comes behind it.
theorem TakesChunk.gathers {next : ScanState} {chunk : PhysicalChunk} {isLast : Bool}
    (taken : TakesChunk target chunk isLast state next) (gathered : Seen target state seen) :
    (Seen target next seen ∧ next.identity = state.identity ∧ next.footer = state.footer ∧
      ((state.expectingFileHeader = false ∧ chunk.position.offset % target.geometry.pageSize = 0 ∧
        PageHeader.encode ⟨chunk.position.fileId,chunk.position.offset / target.geometry.pageSize⟩ = .ok chunk.bytes ∧
        next.expectingFileHeader = (chunk.position.offset / target.geometry.pageSize == 0)) ∨
      (state.expectingFileHeader = true ∧ chunk.position.offset = 16 ∧
        (VLogFileHeader.new target.databaseUuid chunk.position.fileId).encode = .ok chunk.bytes ∧
        next.expectingFileHeader = false))) ∨
    ∃ record identity, Seen target next (seen ++ [record]) ∧ next.identity = some identity ∧
      (∀ known, state.identity = some known → known = identity) ∧ state.expectingFileHeader = false ∧
      next.expectingFileHeader = false ∧ HoldsRecord target.geometry identity chunk record ∧
      (next.footer = state.footer ∨
        (isLast = true ∧ ∃ footer, record = .txPreparedEnd footer ∧ next.footer = some footer)) := by
  cases taken with
  | page waiting aligned written =>
    exact .inl ⟨⟨gathered.progress.moved _ _ _,gathered.apart,gathered.ended⟩,rfl,rfl,.inl ⟨waiting,aligned,written,rfl⟩⟩
  | file waiting place written =>
    exact .inl ⟨⟨gathered.progress.moved _ _ _,gathered.apart,gathered.ended⟩,rfl,rfl,.inr ⟨waiting,place,written,rfl⟩⟩
  | @record named after header record waiting checked accepted holds =>
    obtain ⟨identified,fixed,kept,footers,unchanged⟩ := checkIdentity_seen gathered checked
    obtain ⟨followed,sameIdentity,sameWaiting,closing⟩ := acceptRecord_seen identified fixed holds.named accepted
    refine .inr ⟨record,(header.commitSeq,header.txUuid),
      ⟨followed.progress.moved _ _ _,followed.apart,followed.ended⟩,sameIdentity.trans fixed,?_,waiting,
      sameWaiting.trans (unchanged.trans waiting),holds,?_⟩
    · intro known same
      exact Option.some.inj ((kept known same).symm.trans fixed)
    · rw [←footers]
      exact closing

-- Once an identity is fixed it stays.
theorem scanChunks_identity {known : Nat × Uuid} (decodable : target.geometry.validateForDecode = .ok ())
    (accepted : state.scanChunks target chunks = .ok final) (gathered : Seen target state seen)
    (fixed : state.identity = some known) : final.identity = some known := by
  induction chunks generalizing state seen with
  | nil =>
    obtain rfl := Except.ok.inj accepted
    exact fixed
  | cons chunk rest ih =>
    simp only [ScanState.scanChunks,bind_ok] at accepted
    obtain ⟨middle,first,accepted⟩ := accepted
    obtain ⟨-,-,-,-,-,-,taken⟩ := scanChunk_takes decodable first
    rcases taken.gathers gathered with ⟨after,same,-,-⟩ | ⟨record,identity,after,named,agree,-⟩
    · exact ih accepted after (same.trans fixed)
    · rw [←agree known fixed] at named
      exact ih accepted after named

theorem scanChunks_seen (decodable : target.geometry.validateForDecode = .ok ())
    (accepted : state.scanChunks target chunks = .ok final) (gathered : Seen target state seen)
    (named : final.identity = some identity) (settled : final.expectingFileHeader = false) :
    ∃ records, Seen target final (seen ++ records) ∧
      (state.expectingFileHeader = false → Laid target.geometry target.databaseUuid identity chunks records) ∧
      (state.expectingFileHeader = true → ∃ chunk rest, chunks = chunk :: rest ∧ chunk.position.offset = 16 ∧
        (VLogFileHeader.new target.databaseUuid chunk.position.fileId).encode = .ok chunk.bytes ∧
        Laid target.geometry target.databaseUuid identity rest records) := by
  induction chunks generalizing state seen with
  | nil =>
    obtain rfl := Except.ok.inj accepted
    refine ⟨[],by rw [List.append_nil]; exact gathered,fun _ => .nil,?_⟩
    intro waiting
    rw [settled] at waiting
    cases waiting
  | cons chunk rest ih =>
    simp only [ScanState.scanChunks,bind_ok] at accepted
    obtain ⟨middle,first,accepted⟩ := accepted
    obtain ⟨-,-,-,-,-,reached,taken⟩ := scanChunk_takes decodable first
    obtain ⟨wide,whole⟩ := VLogGeometry.validateForDecode_ok decodable
    rcases taken.gathers gathered with ⟨after,-,-,header | header⟩ | ⟨record,found,after,fixed,-,waiting,later,holds,-⟩
    · obtain ⟨waiting,aligned,written,following⟩ := header
      obtain ⟨records,done,plain,fileHeader⟩ := ih accepted after
      refine ⟨records,done,fun _ => ?_,fun expecting => Bool.noConfusion (waiting.symm.trans expecting)⟩
      by_cases zero : chunk.position.offset = 0
      · rw [zero,Nat.zero_div] at following written
        obtain ⟨second,others,rfl,place,encoded,laid⟩ := fileHeader following
        have tiles := scanChunks_tiles decodable accepted
        cases tiles with
        | cons follows _ _ _ _ _ =>
          have width : chunk.bytes.length = 16 := (PageHeader.decode_encode written).2
          have behind : second.position = ⟨chunk.position.fileId,16⟩ := by
            rw [reached,PhysicalChunk.next,zero,width] at follows
            rcases follows with ⟨-,here⟩ | ⟨-,here⟩
            · rw [here]
            · rw [here] at place
              cases place
          rw [behind] at encoded
          exact .file zero written behind encoded laid
      · have later : chunk.position.offset / target.geometry.pageSize ≠ 0 := by
          intro none
          rcases Nat.div_eq_zero_iff.mp none with empty | small
          · omega
          · rw [Nat.mod_eq_of_lt small] at aligned
            exact zero aligned
        refine .page aligned zero written (plain ?_)
        rw [following]
        simp [later]
    · obtain ⟨waiting,place,written,following⟩ := header
      obtain ⟨records,done,plain,-⟩ := ih accepted after
      refine ⟨records,done,fun expecting => Bool.noConfusion (waiting.symm.trans expecting),fun _ => ?_⟩
      exact ⟨chunk,rest,rfl,place,written,plain following⟩
    · obtain ⟨records,done,plain,-⟩ := ih accepted after
      have same := scanChunks_identity decodable accepted after fixed
      obtain rfl := Option.some.inj (named.symm.trans same)
      refine ⟨record :: records,?_,fun _ => .record holds (plain later),
        fun expecting => Bool.noConfusion (waiting.symm.trans expecting)⟩
      rw [List.append_assoc] at done
      exact done

-- A footer is the record of the last chunk.
theorem scanChunks_closing {footer : TxPreparedEnd} (decodable : target.geometry.validateForDecode = .ok ())
    (accepted : state.scanChunks target chunks = .ok final) (gathered : Seen target state seen)
    (unfinished : state.footer = none) (found : final.footer = some footer) :
    final.expectingFileHeader = false ∧ ∃ front last identity, chunks = front ++ [last] ∧
      final.identity = some identity ∧ HoldsRecord target.geometry identity last (.txPreparedEnd footer) := by
  induction chunks generalizing state seen with
  | nil =>
    obtain rfl := Except.ok.inj accepted
    rw [unfinished] at found
    cases found
  | cons chunk rest ih =>
    simp only [ScanState.scanChunks,bind_ok] at accepted
    obtain ⟨middle,first,accepted⟩ := accepted
    obtain ⟨-,-,-,-,-,-,taken⟩ := scanChunk_takes decodable first
    have continued : ∀ after, Seen target middle after → middle.footer = none →
        final.expectingFileHeader = false ∧ ∃ front last identity, chunk :: rest = front ++ [last] ∧
          final.identity = some identity ∧ HoldsRecord target.geometry identity last (.txPreparedEnd footer) := by
      intro after gathered pending
      obtain ⟨settled,front,last,identity,rfl,named,holds⟩ := ih accepted gathered pending
      exact ⟨settled,chunk :: front,last,identity,rfl,named,holds⟩
    rcases taken.gathers gathered with ⟨after,-,same,-⟩ | ⟨record,identity,after,fixed,-,-,settled,holds,closing⟩
    · exact continued _ after (same.trans unfinished)
    · rcases closing with same | ⟨last,closed,rfl,held⟩
      · exact continued _ after (same.trans unfinished)
      · obtain rfl : rest = [] := List.isEmpty_iff.mp last
        obtain rfl := Except.ok.inj accepted
        obtain rfl := Option.some.inj (held.symm.trans found)
        exact ⟨settled,[],chunk,identity,rfl,fixed,holds⟩

end runs

section sound
variable [Crc32c]

-- What an accepted scan says about the chunks it went over.
structure SoundScan (chunks : List PhysicalChunk) (target : ScanTarget) (scanned : ScannedEnvelope)
    (records : List DecodedRecord) (begin : TxBegin) (operations : List LogicalOperation) (footer : TxPreparedEnd) :
    Prop where
  tiled : Tiles target.geometry target.vlogBegin chunks target.vlogEnd
  laid : Laid target.geometry target.databaseUuid (scanned.commitSeq,scanned.txUuid) chunks records
  ordered : transactionRecords records =
    .txBegin begin :: operationRecords scanned.commitSeq scanned.txUuid 0 operations ++ [.txPreparedEnd footer]
  apart : records.IsChain (fun earlier later => earlier ≠ .pageEnd ∨ later ≠ .pageEnd)
  closing : ∃ front last, chunks = front ++ [last] ∧ last.next = target.vlogEnd ∧
    decodeRecordAt last.bytes last.position target.geometry = .ok (.txPreparedEnd footer)
  identity : begin.commitSeq = scanned.commitSeq ∧ begin.txUuid = scanned.txUuid
  begins : begin.vlogBegin = target.vlogBegin
  agrees : FooterAgrees target begin operations footer
  range : scanned.vlogBegin = target.vlogBegin ∧ scanned.vlogEnd = target.vlogEnd
  logical : scanned.logicalOpCount = operations.length
  distinct : scanned.distinctKeyCount = (operations.map operationKey).toFinset.card
  kv : scanned.kvRecordCount = operations.countP LogicalOperation.isPut
  deletes : scanned.deleteRecordCount = operations.countP (fun operation => !operation.isPut)
  checksum : scanned.envelopeCrc32c = footer.envelopeCrc32c

omit [Crc32c] in
theorem Tiles.last {geometry : VLogGeometry} {position stop : VLogPosition} {front : List PhysicalChunk}
    {last : PhysicalChunk} (tiles : Tiles geometry position (front ++ [last]) stop) : last.next = stop := by
  induction front generalizing position with
  | nil =>
    cases tiles with
    | cons _ _ _ _ _ rest =>
      cases rest
      rfl
  | cons first front ih =>
    cases tiles with
    | cons _ _ _ _ _ rest => exact ih rest

theorem ScanTarget.seen_initial (target : ScanTarget) : Seen target target.initial [] :=
  ⟨.unopened rfl rfl rfl ⟨rfl,rfl,rfl,rfl⟩,.nil,by simp [ScanTarget.initial]⟩

theorem scanPreparedEnvelope_sound {chunks : List PhysicalChunk} {geometry : VLogGeometry} {databaseUuid : Uuid}
    {vlogBegin vlogEnd : VLogPosition} {expected : Option Nat} {scanned : ScannedEnvelope}
    (accepted : scanPreparedEnvelope chunks geometry databaseUuid vlogBegin vlogEnd expected = .ok scanned) :
    64 < geometry.pageSize ∧ ∃ records begin operations footer,
      SoundScan chunks ⟨geometry,databaseUuid,vlogBegin,vlogEnd,expected⟩ scanned records begin operations footer := by
  simp only [scanPreparedEnvelope,bind_ok,exists_unit,rejectIf_ok,orError_ok,pure_ok,Except.ok.injEq,not_or,not_not,
    ne_eq] at accepted
  obtain ⟨decodable,position,-,-,state,ran,reached,begin,begun,footer,found,rfl⟩ := accepted
  refine ⟨(VLogGeometry.validateForDecode_ok decodable).1,?_⟩
  have start := ScanTarget.seen_initial ⟨geometry,databaseUuid,vlogBegin,vlogEnd,expected⟩
  have tiled := scanChunks_tiles decodable ran
  obtain ⟨settled,front,last,identity,rfl,named,holds⟩ := scanChunks_closing decodable ran start rfl found
  obtain ⟨records,gathered,laid,-⟩ := scanChunks_seen decodable ran start named settled
  rw [List.nil_append] at gathered
  have progress := gathered.progress
  generalize ordered : transactionRecords records = transactions at progress
  cases progress with
  | unopened none _ _ _ =>
    rw [begun] at none
    cases none
  | opened _ none _ _ _ _ =>
    rw [found] at none
    cases none
  | @closed opening operations footing opened closed same begins counts agrees =>
    obtain rfl := Option.some.inj (begun.symm.trans opened)
    obtain rfl := Option.some.inj (found.symm.trans closed)
    obtain rfl := Option.some.inj (named.symm.trans same)
    rw [reached] at tiled
    obtain ⟨distinct,members⟩ := distinctKeys_exact operations
    have card : (distinctKeys operations).length = (operations.map operationKey).toFinset.card := by
      rw [←List.toFinset_card_of_nodup distinct]
      congr 1
      ext key
      simp only [List.mem_toFinset,members]
    exact ⟨records,begin,operations,footer,tiled,laid rfl,ordered,gathered.apart,
      ⟨front,last,rfl,tiled.last,holds.decoded⟩,⟨rfl,rfl⟩,begins,agrees,⟨rfl,rfl⟩,counts.logical,
      agrees.distinct.trans card,counts.kv,counts.deletes,rfl⟩

-- Whatever chunks the scan is given, those it accepts are one envelope: the range is covered, the pages and files in it
-- have their headers, and between them stand the records of one transaction under their own checksum.
theorem envelope_scan_sound (chunks : List PhysicalChunk) (geometry : VLogGeometry) (databaseUuid : Uuid)
    (vlogBegin vlogEnd : VLogPosition) (expected : Option Nat) (scanned : ScannedEnvelope)
    (accepted : scanPreparedEnvelope chunks geometry databaseUuid vlogBegin vlogEnd expected = .ok scanned) :
    (∃ records begin operations footer,
      SoundScan chunks ⟨geometry,databaseUuid,vlogBegin,vlogEnd,expected⟩ scanned records begin operations footer) ∧
    (∀ start : VLogPosition, vlogBegin ≤ start → start < vlogEnd → start.offset < geometry.maxFileSize →
      start.offset % geometry.pageSize = 0 →
      (∃ chunk ∈ chunks, chunk.position = start ∧
        PageHeader.encode ⟨start.fileId,start.offset / geometry.pageSize⟩ = .ok chunk.bytes) ∧
      (start.offset = 0 → ∃ chunk ∈ chunks, chunk.position = ⟨start.fileId,16⟩ ∧
        (VLogFileHeader.new databaseUuid start.fileId).encode = .ok chunk.bytes)) := by
  obtain ⟨wide,records,begin,operations,footer,sound⟩ := scanPreparedEnvelope_sound accepted
  refine ⟨⟨records,begin,operations,footer,sound⟩,?_⟩
  intro start low high inside aligned
  obtain ⟨chunk,member,rfl⟩ := sound.tiled.starts_page aligned inside low high
  obtain ⟨header,following⟩ := sound.laid.header member aligned wide
  exact ⟨⟨chunk,member,rfl,header⟩,following⟩

end sound

-- The first envelope of a database, with the headers of its file before it.
theorem envelope_scan_sound_first :
    let database : Uuid := ⟨List.replicate 16 1,rfl⟩
    let operations : List LogicalOperation := [.put [1] [2,3],.delete [4],.put [1] [9]]
    ∃ envelope next scanned,
      @prepareEnvelope castagnoli ⟨VLogGeometry.production,⟨0,0⟩⟩ database 1 ⟨List.replicate 16 7,rfl⟩ operations =
        .ok (envelope,next) ∧
      @scanPreparedEnvelope castagnoli envelope.chunks VLogGeometry.production database ⟨0,0⟩ envelope.vlogEnd none =
        .ok scanned ∧
      ∃ records begin operations footer, @SoundScan castagnoli envelope.chunks
        ⟨VLogGeometry.production,database,⟨0,0⟩,envelope.vlogEnd,none⟩ scanned records begin operations footer := by
  intro database operations
  have succeeds : (@prepareEnvelope castagnoli ⟨VLogGeometry.production,⟨0,0⟩⟩ database 1 ⟨List.replicate 16 7,rfl⟩
    operations).toOption.isSome = true := by decide +kernel
  obtain ⟨⟨envelope,next⟩,prepared⟩ := ok_of_isSome succeeds
  have laid := (@prepareEnvelope_laid castagnoli _ _ _ _ _ _ _ (by decide) prepared).1
  have scans := @EnvelopeLaid.scan castagnoli _ _ _ _ _ _ none laid (fun _ none => by cases none)
  exact ⟨envelope,next,_,prepared,scans,(@envelope_scan_sound castagnoli _ _ _ _ _ _ _ scans).1⟩

end ExpirKv
