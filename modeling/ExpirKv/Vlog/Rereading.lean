import ExpirKv.Vlog.Laying
import ExpirKv.Vlog.ScanExact
import ExpirKv.Vlog.ScanSound

namespace ExpirKv
open VLogGeometry

section keeping
variable [Crc32c] {files later : FileSet} {stop : VLogPosition}

-- What files hold before a position is still there. What stands behind it may be anything.
structure FileSet.Keeps (files : FileSet) (stop : VLogPosition) (later : FileSet) : Prop where
  geometry : later.geometry = files.geometry
  identity : later.databaseUuid = files.databaseUuid
  holds : ∀ chunk : PhysicalChunk, chunk.next ≤ stop → Holds files chunk → Holds later chunk

theorem FileSet.Keeps.refl (files : FileSet) (stop : VLogPosition) : files.Keeps stop files :=
  ⟨rfl,rfl,fun _ _ held => held⟩

theorem FileSet.Keeps.trans {middle : FileSet} (left : files.Keeps stop middle) (right : middle.Keeps stop later) :
    files.Keeps stop later :=
  ⟨right.geometry.trans left.geometry,right.identity.trans left.identity,
    fun chunk before held => right.holds chunk before (left.holds chunk before held)⟩

theorem FileSet.Extends.keeps (grown : files.Extends later) (stop : VLogPosition) : files.Keeps stop later :=
  ⟨grown.geometry,grown.identity,fun _ _ held => held.extends grown⟩

theorem readRecoveryBytes_holds {fileId offset len : Nat} {bytes : Bytes} :
    readRecoveryBytes files fileId offset len = .ok bytes ↔
      Holds files ⟨⟨fileId,offset⟩,bytes⟩ ∧ bytes.length = len ∧ offset + len ≤ files.geometry.maxFileSize := by
  simp only [readRecoveryBytes,readExactAt,bind_ok,exists_unit,rejectIf_ok,mapError_ok,orError_ok,Holds,not_or,gt_iff_lt,
    Nat.not_lt]
  constructor
  · rintro ⟨contents,opened,bounds,taken⟩
    have width := slice?_length taken
    exact ⟨⟨contents,opened,by rw [width]; exact taken⟩,width,bounds.2⟩
  · rintro ⟨⟨contents,opened,taken⟩,rfl,limit⟩
    exact ⟨contents,opened,⟨(slice?_eq_some.mp taken).1,limit⟩,taken⟩

theorem FileSet.Keeps.bytes {fileId offset len : Nat} {bytes : Bytes} (keeps : files.Keeps stop later)
    (before : fileId < stop.fileId ∨ (fileId = stop.fileId ∧ offset + len ≤ stop.offset))
    (read : readRecoveryBytes files fileId offset len = .ok bytes) :
    readRecoveryBytes later fileId offset len = .ok bytes := by
  obtain ⟨held,rfl,limit⟩ := readRecoveryBytes_holds.mp read
  exact readRecoveryBytes_holds.mpr ⟨keeps.holds _ before held,rfl,by rw [keeps.geometry]; exact limit⟩

-- A chunk that ends in time is read the same, and so is the header that tells its length.
theorem FileSet.Keeps.chunk {cursor next : VLogPosition} {chunk : PhysicalChunk} (keeps : files.Keeps stop later)
    (read : readRecoveryChunk files stop cursor = .ok (chunk,next)) :
    readRecoveryChunk later stop cursor = .ok (chunk,next) := by
  simp only [readRecoveryChunk,bind_ok,exists_unit,rejectIf_ok,pure_ok] at read ⊢
  obtain ⟨before,len,measured,positive,bounds,inside,bytes,taken,stepped,moves,rest⟩ := read
  refine ⟨before,len,?_,positive,by rw [keeps.geometry]; exact bounds,inside,bytes,?_,stepped,
    by rw [keeps.geometry]; exact moves,rest⟩
  · unfold recoveryChunkLen at measured ⊢
    rw [keeps.geometry]
    by_cases page : cursor.offset % files.geometry.pageSize = 0
    · simpa only [if_pos page] using measured
    · by_cases file : cursor.offset = pageHeaderEncodedLen
      · simpa only [if_neg page,if_pos file] using measured
      · simp only [if_neg page,if_neg file,bind_ok,exists_unit,rejectIf_ok,mapError_ok] at measured ⊢
        obtain ⟨fits,encoded,⟨header,taken,decoded⟩⟩ := measured
        exact ⟨fits,encoded,keeps.bytes (by omega) header,taken,decoded⟩
  · refine keeps.bytes ?_ taken
    have ended := VLogPosition.not_lt.mp inside
    simpa only [VLogPosition.le_def] using ended

theorem FileSet.Keeps.chunksFrom {cursor : VLogPosition} {chunks : List PhysicalChunk} (keeps : files.Keeps stop later)
    (read : readRecoveryChunksFrom files stop cursor = .ok chunks) :
    readRecoveryChunksFrom later stop cursor = .ok chunks := by
  fun_induction readRecoveryChunksFrom files stop cursor generalizing chunks with
  | case1 cursor before error failed => cases read
  | case2 cursor before chunk next first ih =>
    obtain ⟨rest,taken,rfl⟩ := map_ok.mp read
    rw [readRecoveryChunksFrom,if_pos before]
    split
    · rename_i error failed
      rw [keeps.chunk first] at failed
      cases failed
    · rename_i other after again
      rw [keeps.chunk first] at again
      obtain ⟨rfl,rfl⟩ := Prod.mk.inj (Except.ok.inj again)
      rw [ih taken]
      rfl
  | case3 cursor before differs => cases read
  | case4 cursor before same =>
    rw [readRecoveryChunksFrom,if_neg before,if_neg same]
    exact read

theorem FileSet.Keeps.envelope {vlogBegin : VLogPosition} {checksum : Option Nat} {envelope : RecoveryEnvelope}
    (keeps : files.Keeps stop later) (read : readRecoveryEnvelope files vlogBegin stop checksum = .ok envelope) :
    readRecoveryEnvelope later vlogBegin stop checksum = .ok envelope := by
  simp only [readRecoveryEnvelope,readRecoveryChunks,bind_ok,exists_unit,rejectIf_ok] at read ⊢
  rw [keeps.geometry,keeps.identity]
  obtain ⟨chunks,⟨bounds,cursor,stepped,taken⟩,rest⟩ := read
  exact ⟨chunks,⟨bounds,cursor,stepped,keeps.chunksFrom taken⟩,rest⟩

theorem FileSet.Keeps.stableEnvelope {envelope : RecoveryEnvelope} (keeps : files.Keeps stop later)
    (read : readStableEnvelopeFromEnd files stop = .ok envelope) :
    readStableEnvelopeFromEnd later stop = .ok envelope := by
  simp only [readStableEnvelopeFromEnd,bind_ok,exists_unit,rejectIf_ok] at read ⊢
  rw [keeps.geometry]
  obtain ⟨bounds,inside,tail,taken,located,found,envelope⟩ := read
  exact ⟨bounds,inside,tail,keeps.bytes (.inr ⟨rfl,by omega⟩) taken,located,found,keeps.envelope envelope⟩

end keeping

section footers
variable [Crc32c] {files : FileSet} {vlogEnd : VLogPosition} {footer : TxPreparedEnd}

-- A footer fills its record, whatever the geometry.
theorem decodeRecordAt_footer {geometry : VLogGeometry} {start : VLogPosition} {encoded : Bytes}
    (decoded : decodeRecordAt encoded start geometry = .ok (.txPreparedEnd footer)) : encoded.length = 111 := by
  simp only [decodeRecordAt,bind_ok,exists_unit,rejectIf_ok,not_not,ne_eq] at decoded
  obtain ⟨-,-,header,-,sized,body⟩ := decoded
  unfold decodeRecordBody at body
  split at body
  · obtain ⟨_,-,no⟩ := map_ok.mp body
    cases no
  · obtain ⟨_,-,no⟩ := map_ok.mp body
    cases no
  · obtain ⟨_,-,no⟩ := map_ok.mp body
    cases no
  · simp only [decodeTxPreparedEnd,txPreparedEndEncodedLen,bind_ok,exists_unit,rejectIf_ok,not_or,not_not,ne_eq] at body
    obtain ⟨_,⟨⟨len,-⟩,-⟩,-⟩ := body
    rw [←sized,len]
  · simp only [bind_ok,exists_unit,pure_ok,Except.ok.injEq,reduceCtorEq,and_false] at body

-- The last bytes before an end are a footer.
def FooterAt (files : FileSet) (vlogEnd : VLogPosition) (footer : TxPreparedEnd) : Prop :=
  ∃ chunk : PhysicalChunk, chunk.next = vlogEnd ∧ Holds files chunk ∧
    decodeRecordAt chunk.bytes chunk.position files.geometry = .ok (.txPreparedEnd footer)

theorem FooterAt.unique {other : TxPreparedEnd} (one : FooterAt files vlogEnd footer)
    (again : FooterAt files vlogEnd other) : footer = other := by
  obtain ⟨⟨⟨file,offset⟩,bytes⟩,rfl,⟨contents,opened,taken⟩,decoded⟩ := one
  obtain ⟨⟨⟨_,start⟩,others⟩,same,⟨stored,reopened,there⟩,read⟩ := again
  have width := decodeRecordAt_footer decoded
  have size := decodeRecordAt_footer read
  simp only at width size
  simp only [PhysicalChunk.next,VLogPosition.mk.injEq,width,size,Nat.add_right_cancel_iff] at same
  obtain ⟨rfl,rfl⟩ := same
  obtain rfl := Except.ok.inj (opened.symm.trans reopened)
  simp only [width,size] at taken there
  obtain rfl := Option.some.inj (taken.symm.trans there)
  simpa using decoded.symm.trans read

theorem locateFooterFromEnd_ok {geometry : VLogGeometry} {tailStart : VLogPosition} {tail : Bytes}
    {located : LocatedFooter} (found : locateFooterFromEnd tailStart tail vlogEnd geometry = .ok located) :
    tailStart.fileId = vlogEnd.fileId ∧ tailStart.offset + tail.length = vlogEnd.offset ∧
      ∃ skipped ≤ tail.length, decodeRecordAt (tail.drop skipped) ⟨vlogEnd.fileId,tailStart.offset + skipped⟩ geometry =
        .ok (.txPreparedEnd located.footer) := by
  simp only [locateFooterFromEnd,bind_ok,exists_unit,rejectIf_ok,not_or,not_not,ne_eq,Nat.not_lt,gt_iff_lt] at found
  obtain ⟨-,⟨file,-⟩,⟨whole,-⟩,-,len,-,short,⟨inside,-,-⟩,within,record,decoded,taken⟩ := found
  refine ⟨file,whole,vlogEnd.offset - len - tailStart.offset,within,?_⟩
  rw [show tailStart.offset + (vlogEnd.offset - len - tailStart.offset) = vlogEnd.offset - len by omega,decoded]
  split at taken
  · split at taken
    · obtain rfl := Except.ok.inj taken
      rfl
    · cases taken
  · cases taken

-- The envelope that is read from an end is the one its footer names.
theorem readStableEnvelopeFromEnd_footer {envelope : RecoveryEnvelope}
    (read : readStableEnvelopeFromEnd files vlogEnd = .ok envelope) :
    ∃ footer, FooterAt files vlogEnd footer ∧
      readRecoveryEnvelope files footer.vlogBegin vlogEnd (some footer.envelopeCrc32c) = .ok envelope := by
  simp only [readStableEnvelopeFromEnd,bind_ok,exists_unit,rejectIf_ok,mapError_ok] at read
  obtain ⟨-,inside,tail,taken,located,found,read⟩ := read
  generalize (if (vlogEnd.offset - 1) / files.geometry.pageSize * files.geometry.pageSize = 0 then
    pageHeaderEncodedLen + fileHeaderEncodedLen
    else (vlogEnd.offset - 1) / files.geometry.pageSize * files.geometry.pageSize + pageHeaderEncodedLen) = tailStart
    at inside taken found
  obtain ⟨contents,opened,stands⟩ := readRecoveryBytes_ok taken
  obtain ⟨-,whole,skipped,fits,decoded⟩ := locateFooterFromEnd_ok found
  have width := slice?_length stands
  simp only at whole decoded
  refine ⟨located.footer,⟨⟨⟨vlogEnd.fileId,tailStart + skipped⟩,tail.drop skipped⟩,?_,⟨contents,opened,?_⟩,decoded⟩,read⟩
  · obtain ⟨file,offset⟩ := vlogEnd
    simp only [PhysicalChunk.next,List.length_drop,VLogPosition.mk.injEq,true_and] at whole width ⊢
    omega
  · have dropped := slice?_drop stands (show skipped ≤ _ by omega)
    simp only [List.length_drop,width]
    exact dropped

-- What stands behind an accepted end: chunks that are there, and the scan of them under the footer at the end.
structure StableRead (files : FileSet) (vlogEnd : VLogPosition) (envelope : RecoveryEnvelope) (chunks : List PhysicalChunk)
    (records : List DecodedRecord) (begin : TxBegin) (operations : List LogicalOperation) (footer : TxPreparedEnd) :
    Prop where
  closes : FooterAt files vlogEnd footer
  held : ∀ chunk ∈ chunks, Holds files chunk
  scan : SoundScan chunks ⟨files.geometry,files.databaseUuid,footer.vlogBegin,vlogEnd,some footer.envelopeCrc32c⟩
    envelope.scanned records begin operations footer
  finalStates : collectFinalStates chunks files.geometry = .ok envelope.finalStates

theorem readRecoveryEnvelope_scans {vlogBegin : VLogPosition} {checksum : Option Nat} {envelope : RecoveryEnvelope}
    (read : readRecoveryEnvelope files vlogBegin vlogEnd checksum = .ok envelope) :
    ∃ chunks, (∀ chunk ∈ chunks, Holds files chunk) ∧
      scanPreparedEnvelope chunks files.geometry files.databaseUuid vlogBegin vlogEnd checksum = .ok envelope.scanned ∧
      collectFinalStates chunks files.geometry = .ok envelope.finalStates := by
  simp only [readRecoveryEnvelope,readRecoveryChunks,bind_ok,exists_unit,rejectIf_ok,mapError_ok,pure_ok,
    Except.ok.injEq] at read
  obtain ⟨chunks,⟨-,cursor,-,taken⟩,scanned,accepted,states,collected,rfl⟩ := read
  exact ⟨chunks,readRecoveryChunksFrom_holds taken,accepted,collected⟩

theorem readStableEnvelopeFromEnd_sound {envelope : RecoveryEnvelope}
    (read : readStableEnvelopeFromEnd files vlogEnd = .ok envelope) :
    ∃ chunks records begin operations footer,
      StableRead files vlogEnd envelope chunks records begin operations footer := by
  obtain ⟨footer,stands,read⟩ := readStableEnvelopeFromEnd_footer read
  obtain ⟨chunks,held,accepted,collected⟩ := readRecoveryEnvelope_scans read
  obtain ⟨-,records,begin,operations,closing,sound⟩ := scanPreparedEnvelope_sound accepted
  obtain ⟨front,last,split,reaches,decoded⟩ := sound.closing
  obtain rfl : footer = closing := stands.unique ⟨last,reaches,held last (by simp [split]),decoded⟩
  exact ⟨chunks,records,begin,operations,footer,stands,held,sound,collected⟩

end footers

section location
variable [Crc32c]

theorem prepareEnvelope_located {position : VLogPosition} {databaseUuid txUuid : Uuid} {commitSeq : Nat}
    {operations : List LogicalOperation} {envelope : PreparedEnvelope} {next : LayoutPlanner} {files : FileSet}
    (reached : AppendPosition position) (seq : commitSeq < 18446744073709551616)
    (prepared : prepareEnvelope ⟨production,position⟩ databaseUuid commitSeq txUuid operations = .ok (envelope,next))
    (geometry : files.geometry = production) (identity : files.databaseUuid = databaseUuid)
    (held : ∀ chunk ∈ envelope.chunks, Holds files chunk) :
    ∃ read, readRecoveryEnvelope files envelope.vlogBegin envelope.vlogEnd (some envelope.envelopeCrc32c) = .ok read ∧
      readStableEnvelopeFromEnd files envelope.vlogEnd = .ok read := by
  have laid := (prepareEnvelope_laid seq prepared).1
  have good := reached.placeable.good
  have read := laid.read geometry identity ⟨good.1,good.2.1⟩
    (by simp : ∀ checksum ∈ some envelope.envelopeCrc32c, checksum = envelope.envelopeCrc32c) held
  rw [←laid.vlogBegin_eq] at read
  exact ⟨_,read,readStableEnvelopeFromEnd_of_read geometry read⟩

-- From its end an envelope is found again whatever stands behind it, and whatever is found ends there.
theorem stable_envelope_located :
    (∀ (position : VLogPosition) (databaseUuid txUuid : Uuid) (commitSeq : Nat) (operations : List LogicalOperation)
      (envelope : PreparedEnvelope) (next : LayoutPlanner), AppendPosition position → commitSeq < 18446744073709551616 →
      prepareEnvelope ⟨production,position⟩ databaseUuid commitSeq txUuid operations = .ok (envelope,next) →
      ∀ files : FileSet, files.geometry = production → files.databaseUuid = databaseUuid →
        (∀ chunk ∈ envelope.chunks, Holds files chunk) →
        ∃ read, readRecoveryEnvelope files envelope.vlogBegin envelope.vlogEnd (some envelope.envelopeCrc32c) = .ok read ∧
          readStableEnvelopeFromEnd files envelope.vlogEnd = .ok read) ∧
    (∀ (files : FileSet) (vlogEnd : VLogPosition) (read : RecoveryEnvelope),
      readStableEnvelopeFromEnd files vlogEnd = .ok read → ∃ chunks records begin operations footer,
        StableRead files vlogEnd read chunks records begin operations footer) ∧
    ∀ (files later : FileSet) (vlogEnd : VLogPosition) (read : RecoveryEnvelope), files.Keeps vlogEnd later →
      readStableEnvelopeFromEnd files vlogEnd = .ok read → readStableEnvelopeFromEnd later vlogEnd = .ok read := by
  refine ⟨?_,?_,fun _ _ _ _ keeps => keeps.stableEnvelope⟩
  · intro position databaseUuid txUuid commitSeq operations envelope next reached seq prepared files geometry identity held
    exact prepareEnvelope_located reached seq prepared geometry identity held
  · intro files vlogEnd read found
    exact readStableEnvelopeFromEnd_sound found

end location

-- The first envelope of a database, followed by bytes that are no record.
theorem stable_envelope_located_first :
    let database : Uuid := ⟨List.replicate 16 1,rfl⟩
    let operations : List LogicalOperation := [.put [1] [2,3],.delete [4]]
    ∃ envelope next read,
      @prepareEnvelope castagnoli ⟨production,⟨0,0⟩⟩ database 1 ⟨List.replicate 16 7,rfl⟩ operations =
        .ok (envelope,next) ∧
      @readStableEnvelopeFromEnd castagnoli
        (((FileSet.empty database).layAll envelope.chunks).lay ⟨envelope.vlogEnd,[9,9,9]⟩) envelope.vlogEnd = .ok read := by
  intro database operations
  have succeeds : (@prepareEnvelope castagnoli ⟨production,⟨0,0⟩⟩ database 1 ⟨List.replicate 16 7,rfl⟩
    operations).toOption.any (fun pair => decide (64 ≤ pair.1.vlogEnd.offset ∧ pair.1.vlogEnd.offset ≤ 4000)) = true := by
    decide +kernel
  obtain ⟨⟨envelope,next⟩,prepared,ends⟩ := ok_of_any succeeds
  simp only [decide_eq_true_eq] at ends
  have laid := (@prepareEnvelope_laid castagnoli _ _ _ _ _ _ _ (by decide) prepared).1
  obtain ⟨done,-,held⟩ := @EnvelopeLaid.lays castagnoli _ _ _ _ _ _ _ laid (@EndsAt.empty castagnoli database) rfl
  obtain ⟨ended,grown,-⟩ := @EndsAt.append castagnoli _ _ [9,9,9] done ends.1 (by simp only [List.length_cons,List.length_nil]; omega)
  obtain ⟨read,-,found⟩ := (@stable_envelope_located castagnoli).1 _ _ _ _ _ _ _ .empty (by decide) prepared
    (((FileSet.empty database).layAll envelope.chunks).lay ⟨envelope.vlogEnd,[9,9,9]⟩)
    (@EndsAt.geometry castagnoli _ _ ended) (FileSet.layAll_identity _ _)
    (fun chunk member => @Holds.extends castagnoli _ _ _ (held chunk member) grown)
  exact ⟨envelope,next,read,prepared,found⟩

end ExpirKv
