import ExpirKv.Vlog.ReaderFacts

namespace ExpirKv
open VLogGeometry

variable [Crc32c]

-- Chunks that follow one another, whatever they hold.
inductive Follow : VLogPosition → List PhysicalChunk → VLogPosition → Prop
  | nil {position : VLogPosition} : Follow position [] position
  | cons {position stop : VLogPosition} {chunk : PhysicalChunk} {rest : List PhysicalChunk} :
      nextChunkPosition position production = .ok chunk.position → chunk.bytes ≠ [] →
      chunk.position.offset + chunk.bytes.length ≤ 4294967296 → Follow chunk.next rest stop →
      Follow position (chunk :: rest) stop

section scanning
variable {target : ScanTarget} {state next : ScanState} {chunk : PhysicalChunk} {isLast : Bool}

-- The begin that a scan has taken is the one it was asked for.
def ScanState.Begun (target : ScanTarget) (state : ScanState) : Prop :=
  ∀ begin ∈ state.begin, begin.vlogBegin = target.vlogBegin

-- The record that closes an envelope.
structure Closes (target : ScanTarget) (chunk : PhysicalChunk) (footer : TxPreparedEnd) : Prop where
  decoded : decodeRecordAt chunk.bytes chunk.position target.geometry = .ok (.txPreparedEnd footer)
  begins : footer.vlogBegin = target.vlogBegin
  ends : footer.vlogEnd = target.vlogEnd
  checksum : ∀ expected ∈ target.expectedEnvelopeCrc32c, expected = footer.envelopeCrc32c

theorem acceptRecord_ok {scanned : ScanState × Bool} {record : DecodedRecord}
    (accepted : state.acceptRecord target isLast record = .ok scanned) (begun : state.Begun target) :
    scanned.1.Begun target ∧ (scanned.1.footer = state.footer ∨
      (isLast = true ∧ ∃ footer, record = .txPreparedEnd footer ∧ scanned.1.footer = some footer ∧
        footer.vlogBegin = target.vlogBegin ∧ footer.vlogEnd = target.vlogEnd ∧
        ∀ expected ∈ target.expectedEnvelopeCrc32c, expected = footer.envelopeCrc32c)) := by
  cases record with
  | pageEnd =>
    simp only [ScanState.acceptRecord,bind_ok,exists_unit,rejectIf_ok,pure_ok,Except.ok.injEq] at accepted
    obtain ⟨-,rfl⟩ := accepted
    exact ⟨begun,.inl rfl⟩
  | txBegin found =>
    simp only [ScanState.acceptRecord,bind_ok,exists_unit,rejectIf_ok,pure_ok,Except.ok.injEq,not_not,ne_eq] at accepted
    obtain ⟨-,here,crc,-,rfl⟩ := accepted
    refine ⟨?_,.inl rfl⟩
    intro begin same
    obtain rfl := Option.some.inj same
    exact here
  | kvRecord found =>
    simp only [ScanState.acceptRecord,bind_ok,exists_unit,rejectIf_ok,pure_ok,Except.ok.injEq] at accepted
    obtain ⟨-,crc,-,rfl⟩ := accepted
    exact ⟨begun,.inl rfl⟩
  | deleteRecord found =>
    simp only [ScanState.acceptRecord,bind_ok,exists_unit,rejectIf_ok,pure_ok,Except.ok.injEq] at accepted
    obtain ⟨-,crc,-,rfl⟩ := accepted
    exact ⟨begun,.inl rfl⟩
  | txPreparedEnd found =>
    simp only [ScanState.acceptRecord,bind_ok,exists_unit,rejectIf_ok,orError_ok,pure_ok,Except.ok.injEq,not_or,not_not,
      ne_eq,Bool.not_eq_false] at accepted
    obtain ⟨begin,taken,⟨-,-,-,begins,ends,-,-,-,-,-,-,last⟩,crc,-,⟨calculated,expected⟩,rfl⟩ := accepted
    refine ⟨begun,.inr ⟨last,found,rfl,rfl,begins.trans (begun begin taken),ends,?_⟩⟩
    intro value asked
    by_contra differs
    exact expected ⟨value,asked,fun same => differs (same.trans calculated)⟩

theorem scanContents_ok {scanned : ScanState × Bool}
    (accepted : state.scanContents target chunk isLast = .ok scanned) (begun : state.Begun target) :
    scanned.1.Begun target ∧ (scanned.1.footer = state.footer ∨
      (isLast = true ∧ ∃ footer, scanned.1.footer = some footer ∧ Closes target chunk footer)) := by
  unfold ScanState.scanContents at accepted
  split at accepted
  · simp only [ScanState.scanPageHeader,map_ok,bind_ok,exists_unit,rejectIf_ok,pure_ok,Except.ok.injEq] at accepted
    obtain ⟨after,⟨-,-,header,-,-,rfl⟩,rfl⟩ := accepted
    exact ⟨begun,.inl rfl⟩
  · split at accepted
    · simp only [ScanState.scanFileHeader,map_ok,bind_ok,exists_unit,rejectIf_ok,pure_ok,Except.ok.injEq] at accepted
      obtain ⟨after,⟨-,-,header,-,-,rfl⟩,rfl⟩ := accepted
      exact ⟨begun,.inl rfl⟩
    · simp only [ScanState.scanRecord,bind_ok,exists_unit,rejectIf_ok] at accepted
      obtain ⟨-,record,decoded,header,-,named,checked,accepted⟩ := accepted
      have same : named.begin = state.begin ∧ named.footer = state.footer := by
        unfold ScanState.checkIdentity at checked
        split at checked
        · simp only [bind_ok,exists_unit,pure_ok,Except.ok.injEq] at checked
          obtain ⟨-,rfl⟩ := checked
          exact ⟨rfl,rfl⟩
        · obtain rfl := Except.ok.inj checked
          exact ⟨rfl,rfl⟩
      have taken : named.Begun target := by
        intro begin member
        rw [same.1] at member
        exact begun begin member
      obtain ⟨begun,kept | ⟨last,footer,rfl,closed,begins,ends,checksum⟩⟩ := acceptRecord_ok accepted taken
      · exact ⟨begun,.inl (kept.trans same.2)⟩
      · exact ⟨begun,.inr ⟨last,footer,closed,decoded,begins,ends,checksum⟩⟩

theorem scanChunk_ok (geometry : target.geometry = production)
    (accepted : state.scanChunk target chunk isLast = .ok next) (begun : state.Begun target) :
    nextChunkPosition state.physicalEnd production = .ok chunk.position ∧ chunk.bytes ≠ [] ∧
      chunk.position.offset + chunk.bytes.length ≤ 4294967296 ∧ next.physicalEnd = chunk.next ∧ next.Begun target ∧
      (next.footer = state.footer ∨
        (isLast = true ∧ ∃ footer, next.footer = some footer ∧ Closes target chunk footer)) := by
  simp only [ScanState.scanChunk,geometry,bind_ok,exists_unit,rejectIf_ok,pure_ok,Except.ok.injEq,not_not,ne_eq,
    List.isEmpty_iff] at accepted
  obtain ⟨filled,expected,follows,here,scanned,contents,stop,stopped,-,rfl⟩ := accepted
  simp only [chunkEnd,maxVlogFileId,maxVlogFileSize,bind_ok,exists_unit,rejectIf_ok,pure_ok,Except.ok.injEq] at stopped
  obtain ⟨-,inside,rfl⟩ := stopped
  obtain ⟨begun,footer⟩ := scanContents_ok contents begun
  rw [← here] at follows
  exact ⟨follows,filled,by omega,rfl,begun,footer⟩

-- A footer is found in the last chunk or not at all.
theorem scanChunks_ok {chunks : List PhysicalChunk} (geometry : target.geometry = production)
    (accepted : state.scanChunks target chunks = .ok next) (begun : state.Begun target)
    (unfinished : state.footer = none) :
    Follow state.physicalEnd chunks next.physicalEnd ∧
      ∀ footer, next.footer = some footer → ∃ front last, chunks = front ++ [last] ∧ Closes target last footer := by
  induction chunks generalizing state with
  | nil =>
    obtain rfl := Except.ok.inj accepted
    refine ⟨.nil,?_⟩
    intro footer found
    rw [unfinished] at found
    cases found
  | cons chunk rest ih =>
    simp only [ScanState.scanChunks,bind_ok] at accepted
    obtain ⟨middle,first,accepted⟩ := accepted
    obtain ⟨follows,filled,inside,reached,begun,closed⟩ := scanChunk_ok geometry first begun
    rcases closed with kept | ⟨last,footer,found,closes⟩
    · obtain ⟨later,footers⟩ := ih accepted begun (kept.trans unfinished)
      rw [reached] at later
      refine ⟨.cons follows filled inside later,?_⟩
      intro footer found
      obtain ⟨front,last,rfl,closes⟩ := footers footer found
      exact ⟨chunk :: front,last,rfl,closes⟩
    · obtain rfl : rest = [] := List.isEmpty_iff.mp last
      obtain rfl := Except.ok.inj accepted
      refine ⟨.cons follows filled inside (reached ▸ .nil),?_⟩
      intro other same
      rw [found] at same
      obtain rfl := Option.some.inj same
      exact ⟨[],chunk,rfl,closes⟩

theorem scanPreparedEnvelope_ok {chunks : List PhysicalChunk} {databaseUuid : Uuid} {vlogBegin vlogEnd : VLogPosition}
    {checksum : Option Nat} {scanned : ScannedEnvelope}
    (accepted : scanPreparedEnvelope chunks production databaseUuid vlogBegin vlogEnd checksum = .ok scanned) :
    vlogBegin < vlogEnd ∧ Follow vlogBegin chunks vlogEnd ∧ scanned.vlogBegin = vlogBegin ∧ scanned.vlogEnd = vlogEnd ∧
      ∃ front last footer, chunks = front ++ [last] ∧
        Closes ⟨production,databaseUuid,vlogBegin,vlogEnd,checksum⟩ last footer ∧
        scanned.envelopeCrc32c = footer.envelopeCrc32c := by
  simp only [scanPreparedEnvelope,bind_ok,exists_unit,rejectIf_ok,orError_ok,pure_ok,Except.ok.injEq,not_or,not_not,
    ne_eq] at accepted
  obtain ⟨-,position,-,⟨-,-,ordered,-⟩,state,ran,reached,begin,-,footer,found,rfl⟩ := accepted
  obtain ⟨follow,footers⟩ := scanChunks_ok rfl ran (fun begin none => by cases none) rfl
  obtain ⟨front,last,split,closes⟩ := footers footer found
  rw [reached] at follow
  exact ⟨VLogPosition.not_le.mp ordered,follow,rfl,rfl,front,last,footer,split,closes,rfl⟩

end scanning

section reading
variable {files : FileSet}

theorem readRecoveryBytes_ok {fileId offset len : Nat} {bytes : Bytes}
    (read : readRecoveryBytes files fileId offset len = .ok bytes) :
    ∃ contents, files.handle fileId = .ok contents ∧ slice? contents offset len = some bytes := by
  simp only [readRecoveryBytes,readExactAt,bind_ok,exists_unit,rejectIf_ok,mapError_ok,orError_ok] at read
  obtain ⟨contents,opened,-,taken⟩ := read
  exact ⟨contents,opened,taken⟩

theorem readRecoveryChunk_holds {vlogEnd cursor next : VLogPosition} {chunk : PhysicalChunk}
    (read : readRecoveryChunk files vlogEnd cursor = .ok (chunk,next)) : Holds files chunk := by
  simp only [readRecoveryChunk,bind_ok,exists_unit,rejectIf_ok,pure_ok,Except.ok.injEq,Prod.mk.injEq] at read
  obtain ⟨-,len,-,-,-,-,bytes,taken,stepped,-,rfl,-⟩ := read
  obtain ⟨contents,opened,taken⟩ := readRecoveryBytes_ok taken
  have width : bytes.length = len := slice?_length taken
  exact ⟨contents,opened,by rw [width]; exact taken⟩

theorem readRecoveryChunksFrom_holds {vlogEnd cursor : VLogPosition} {chunks : List PhysicalChunk}
    (read : readRecoveryChunksFrom files vlogEnd cursor = .ok chunks) : ∀ chunk ∈ chunks, Holds files chunk := by
  fun_induction readRecoveryChunksFrom files vlogEnd cursor generalizing chunks with
  | case1 cursor before error failed => cases read
  | case2 cursor before chunk next first ih =>
    obtain ⟨later,rest,rfl⟩ := map_ok.mp read
    intro other member
    rcases List.mem_cons.mp member with rfl | member
    · exact readRecoveryChunk_holds first
    · exact ih rest other member
  | case3 cursor before differs => cases read
  | case4 cursor before same =>
    obtain rfl := Except.ok.inj read
    intro other member
    cases member

theorem readRecoveryEnvelope_ok {vlogBegin vlogEnd : VLogPosition} {checksum : Option Nat} {envelope : RecoveryEnvelope}
    (geometry : files.geometry = production)
    (read : readRecoveryEnvelope files vlogBegin vlogEnd checksum = .ok envelope) :
    ∃ chunks, readRecoveryChunks files vlogBegin vlogEnd = .ok chunks ∧ (∀ chunk ∈ chunks, Holds files chunk) ∧
      scanPreparedEnvelope chunks production files.databaseUuid vlogBegin vlogEnd checksum = .ok envelope.scanned := by
  simp only [readRecoveryEnvelope,geometry,bind_ok,mapError_ok,pure_ok,Except.ok.injEq] at read
  obtain ⟨chunks,taken,scanned,accepted,states,-,rfl⟩ := read
  refine ⟨chunks,taken,?_,accepted⟩
  simp only [readRecoveryChunks,bind_ok,exists_unit,rejectIf_ok] at taken
  obtain ⟨-,cursor,-,taken⟩ := taken
  exact readRecoveryChunksFrom_holds taken

omit [Crc32c] in
theorem Follow.last {position stop : VLogPosition} {front : List PhysicalChunk} {last : PhysicalChunk}
    (follow : Follow position (front ++ [last]) stop) : stop = last.next := by
  induction front generalizing position with
  | nil =>
    cases follow with
    | cons _ _ _ rest =>
      cases rest
      rfl
  | cons first front ih =>
    cases follow with
    | cons _ _ _ rest => exact ih rest

-- A footer fills its place in the page, and its last bytes say where it starts.
theorem Closes.trailer {target : ScanTarget} {chunk : PhysicalChunk} {footer : TxPreparedEnd}
    (geometry : target.geometry = production) (closes : Closes target chunk footer) :
    chunk.bytes.length = 111 ∧ slice? chunk.bytes 107 4 = some endTrailerMagic ∧ readU32 chunk.bytes 103 = .ok 111 ∧
      InRecordArea chunk.position ∧
      chunk.position.offset + 111 ≤ (chunk.position.offset / 65536 + 1) * 65536 := by
  have decoded := closes.decoded
  rw [geometry] at decoded
  simp only [decodeRecordAt,bind_ok,exists_unit,rejectIf_ok,not_not,ne_eq] at decoded
  obtain ⟨-,bounds,header,-,sized,body⟩ := decoded
  obtain ⟨area,fits⟩ := validateRecordBounds_production.mp bounds
  have typed : header.recordType = .txPreparedEnd := by
    unfold decodeRecordBody at body
    split at body
    · obtain ⟨_,-,no⟩ := map_ok.mp body
      cases no
    · obtain ⟨_,-,no⟩ := map_ok.mp body
      cases no
    · obtain ⟨_,-,no⟩ := map_ok.mp body
      cases no
    · assumption
    · simp only [bind_ok,exists_unit,pure_ok,Except.ok.injEq,reduceCtorEq,and_false] at body
  simp only [decodeRecordBody,typed,decodeTxPreparedEnd,txPreparedEndEncodedLen,bind_ok,exists_unit,rejectIf_ok,not_or,
    not_not,ne_eq] at body
  obtain ⟨_,⟨⟨len,magic⟩,_,trailer,rfl,-⟩,-⟩ := body
  have width : chunk.bytes.length = 111 := by omega
  rw [width] at fits
  exact ⟨width,magic,trailer,area,fits⟩

omit [Crc32c] in
theorem slice?_drop {bytes part : Bytes} {offset len skipped : Nat} (taken : slice? bytes offset len = some part)
    (inside : skipped ≤ len) : slice? bytes (offset + skipped) (len - skipped) = some (part.drop skipped) := by
  obtain ⟨fits,rfl⟩ := slice?_eq_some.mp taken
  refine slice?_eq_some.mpr ⟨by omega,?_⟩
  rw [List.drop_take,List.drop_drop]

-- The footer of an envelope that was read whole is found from its end, and leads back to it.
theorem readStableEnvelopeFromEnd_of_read {vlogBegin vlogEnd : VLogPosition} {checksum : Nat}
    {envelope : RecoveryEnvelope} (geometry : files.geometry = production)
    (read : readRecoveryEnvelope files vlogBegin vlogEnd (some checksum) = .ok envelope) :
    readStableEnvelopeFromEnd files vlogEnd = .ok envelope := by
  obtain ⟨chunks,-,held,scanned⟩ := readRecoveryEnvelope_ok geometry read
  obtain ⟨-,follow,-,-,front,last,footer,rfl,closes,-⟩ := scanPreparedEnvelope_ok scanned
  obtain ⟨width,magic,trailer,area,fits⟩ := closes.trailer rfl
  obtain rfl := follow.last
  obtain ⟨contents,opened,taken⟩ := held last (by simp)
  have inside : last.position.offset + 111 ≤ contents.length := by
    have bounds := (slice?_eq_some.mp taken).1
    omega
  have limit : last.position.offset + 111 ≤ 4294967296 := by
    have start := area.2.1
    omega
  have endOffset : last.next.offset = last.position.offset + 111 := by rw [PhysicalChunk.next,width]
  have endFile : last.next.fileId = last.position.fileId := rfl
  let pageStart := (last.position.offset + 111 - 1) / 65536 * 65536
  let tailStart := if pageStart = 0 then 64 else pageStart + 16
  have low : tailStart ≤ last.position.offset := by
    obtain ⟨-,-,aligned,first⟩ := area
    simp only [tailStart,pageStart]
    split <;> omega
  have samePage : last.position.offset / 65536 = (last.position.offset + 111 - 1) / 65536 := by omega
  obtain ⟨tail,tailRead⟩ : ∃ tail, slice? contents tailStart (last.position.offset + 111 - tailStart) = some tail :=
    ⟨_,slice?_eq_some.mpr ⟨by omega,rfl⟩⟩
  have tailWidth := slice?_length tailRead
  have footerBytes : tail.drop (last.position.offset - tailStart) = last.bytes := by
    have dropped := slice?_drop tailRead (show last.position.offset - tailStart ≤ last.position.offset + 111 - tailStart by omega)
    rw [show tailStart + (last.position.offset - tailStart) = last.position.offset by omega,
      show last.position.offset + 111 - tailStart - (last.position.offset - tailStart) = last.bytes.length by omega,
      taken] at dropped
    exact (Option.some.inj dropped).symm
  have part : ∀ start len, start + len ≤ 111 →
      slice? tail (last.position.offset - tailStart + start) len = slice? last.bytes start len := by
    intro start len bound
    have fromTail := @slice?_slice? contents tail _ _ (last.position.offset - tailStart + start) len tailRead (by omega)
    have fromChunk := @slice?_slice? contents last.bytes _ _ start len taken (by omega)
    rw [fromTail,fromChunk]
    congr 1
    omega
  have located : locateFooterFromEnd ⟨last.next.fileId,tailStart⟩ tail last.next production =
      .ok ⟨last.position,footer⟩ := by
    have decodable : production.validateForDecode = .ok () := rfl
    have magicHere : slice? tail (tail.length - 8 + 4) 4 = some endTrailerMagic := by
      rw [show tail.length - 8 + 4 = last.position.offset - tailStart + 107 by omega,part 107 4 (by omega)]
      exact magic
    have lenHere : readU32 tail (tail.length - 8) = .ok 111 := by
      rw [readU32,readUint,show tail.length - 8 = last.position.offset - tailStart + 103 by omega,part 103 4 (by omega)]
      exact trailer
    have startHere : (⟨last.next.fileId,last.next.offset - 111⟩ : VLogPosition) = last.position := by
      rw [endOffset,endFile,Nat.add_sub_cancel]
    have relative : last.next.offset - 111 - tailStart = last.position.offset - tailStart := by omega
    have decoded := closes.decoded
    simp only at decoded
    simp only [locateFooterFromEnd,decodable,ok_bind,magicHere,lenHere]
    rw [rejectIf_false (by omega),ok_bind,rejectIf_false (by simp only [maxVlogFileSize]; omega),ok_bind,
      rejectIf_false (by simp),ok_bind,rejectIf_false (by omega),ok_bind,
      rejectIf_false (by simp only [vlogPageSize]; omega),ok_bind,rejectIf_false (by omega),ok_bind]
    rw [relative,footerBytes,startHere,decoded,ok_bind]
    simp only [closes.ends,if_true,pure_ok]
  have bytesRead : readRecoveryBytes files last.next.fileId tailStart (last.next.offset - tailStart) = .ok tail := by
    simp only [readRecoveryBytes,endFile,opened,Except.mapError,ok_bind,endOffset,readExactAt,tailRead,orError,geometry]
    rw [rejectIf_false (by simp only [maxVlogFileSize]; omega),ok_bind]
  have sameEnd : (last.next.offset - 1) / files.geometry.pageSize * files.geometry.pageSize = pageStart := by
    rw [geometry,endOffset]
  have checksums : checksum = footer.envelopeCrc32c := closes.checksum checksum rfl
  simp only [readStableEnvelopeFromEnd]
  rw [rejectIf_false (by rw [geometry,endFile,endOffset]; have file := area.1; simp only [maxVlogFileId,maxVlogFileSize]; omega),
    ok_bind,sameEnd]
  change (do
    rejectIf (tailStart ≥ last.next.offset) recoveryCorruption
    let tail ← readRecoveryBytes files last.next.fileId tailStart (last.next.offset - tailStart)
    let located ← (locateFooterFromEnd ⟨last.next.fileId,tailStart⟩ tail last.next files.geometry).mapError recoveryContext
    readRecoveryEnvelope files located.footer.vlogBegin last.next (some located.footer.envelopeCrc32c)) = _
  rw [rejectIf_false (by omega),ok_bind,bytesRead,ok_bind,geometry,located]
  simp only [Except.mapError,ok_bind,closes.begins,← checksums]
  exact read

end reading

end ExpirKv
