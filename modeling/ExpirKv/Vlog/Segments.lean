import ExpirKv.Vlog.Reader

namespace ExpirKv
open VLogGeometry

variable [Crc32c]

-- The headers between a position and the record area behind it, with the bytes they hold.
inductive Headers (databaseUuid : Uuid) : VLogPosition → List PhysicalChunk → VLogPosition → Prop
  | inside {position : VLogPosition} : InRecordArea position → Headers databaseUuid position [] position
  | page {file offset : Nat} {bytes : Bytes} : file ≤ 999999 → 0 < offset → offset < 4294967296 →
      offset % 65536 = 0 → PageHeader.decode bytes = .ok ⟨file,offset / 65536⟩ → bytes.length = 16 →
      Headers databaseUuid ⟨file,offset⟩ [⟨⟨file,offset⟩,bytes⟩] ⟨file,offset + 16⟩
  | file {position : VLogPosition} {file : Nat} {pageBytes fileBytes : Bytes} :
      (∀ error, nextPosition error position production = .ok ⟨file,0⟩) → file ≤ 999999 →
      PageHeader.decode pageBytes = .ok ⟨file,0⟩ → pageBytes.length = 16 →
      VLogFileHeader.decode fileBytes = .ok (.new databaseUuid file) → fileBytes.length = 48 →
      Headers databaseUuid position [⟨⟨file,0⟩,pageBytes⟩,⟨⟨file,16⟩,fileBytes⟩] ⟨file,64⟩

-- A record of the transaction where it was placed.
structure Entry where
  record : DecodedRecord
  start : VLogPosition
  len : Nat
  deriving DecidableEq, Repr

def Entry.next (entry : Entry) : VLogPosition := ⟨entry.start.fileId,entry.start.offset + entry.len⟩

structure Recorded (commitSeq : Nat) (txUuid : Uuid) (bytes : Bytes) (entry : Entry) : Prop where
  area : InRecordArea entry.start
  sized : bytes.length = entry.len
  reads : ∃ header, ReadsAs bytes entry.start header entry.record ∧ header.commitSeq = commitSeq ∧
    header.txUuid = txUuid
  inside : entry.start.offset + entry.len ≤ (entry.start.offset / 65536 + 1) * 65536
  good : GoodEnd entry.next

-- Everything written for one record: headers, padding when the page was too short, the record.
inductive Segment (databaseUuid : Uuid) (commitSeq : Nat) (txUuid : Uuid) :
    VLogPosition → List PhysicalChunk → Entry → Prop
  | direct {position : VLogPosition} {headers : List PhysicalChunk} {bytes : Bytes} {entry : Entry} :
      Headers databaseUuid position headers entry.start → Recorded commitSeq txUuid bytes entry →
      Segment databaseUuid commitSeq txUuid position (headers ++ [⟨entry.start,bytes⟩]) entry
  | padded {position : VLogPosition} {before after : List PhysicalChunk} {padding bytes : Bytes} {pad entry : Entry} :
      Headers databaseUuid position before pad.start → pad.record = .pageEnd →
      Recorded commitSeq txUuid padding pad → Headers databaseUuid pad.next after entry.start →
      Recorded commitSeq txUuid bytes entry →
      Segment databaseUuid commitSeq txUuid position
        (before ++ ⟨pad.start,padding⟩ :: (after ++ [⟨entry.start,bytes⟩])) entry

inductive Segments (databaseUuid : Uuid) (commitSeq : Nat) (txUuid : Uuid) :
    VLogPosition → List PhysicalChunk → List Entry → VLogPosition → Prop
  | nil {position : VLogPosition} : Segments databaseUuid commitSeq txUuid position [] [] position
  | cons {position stop : VLogPosition} {chunks later : List PhysicalChunk} {entry : Entry} {entries : List Entry} :
      Segment databaseUuid commitSeq txUuid position chunks entry →
      Segments databaseUuid commitSeq txUuid entry.next later entries stop →
      Segments databaseUuid commitSeq txUuid position (chunks ++ later) (entry :: entries) stop

variable {databaseUuid txUuid : Uuid} {commitSeq : Nat}

theorem Segments.append {position middle stop : VLogPosition} {chunks later : List PhysicalChunk}
    {entries more : List Entry} (first : Segments databaseUuid commitSeq txUuid position chunks entries middle)
    (rest : Segments databaseUuid commitSeq txUuid middle later more stop) :
    Segments databaseUuid commitSeq txUuid position (chunks ++ later) (entries ++ more) stop := by
  induction first with
  | nil => exact rest
  | cons segment _ ih =>
    rw [List.append_assoc]
    exact .cons segment (ih rest)

-- Every entry stands in one of the chunks.
theorem Segment.chunk {position : VLogPosition} {chunks : List PhysicalChunk} {entry : Entry}
    (segment : Segment databaseUuid commitSeq txUuid position chunks entry) :
    ∃ bytes, ⟨entry.start,bytes⟩ ∈ chunks ∧ Recorded commitSeq txUuid bytes entry := by
  cases segment with
  | direct headers recorded => exact ⟨_,by simp,recorded⟩
  | padded before isPad padding after recorded => exact ⟨_,by simp,recorded⟩

theorem Segments.chunk {position stop : VLogPosition} {chunks : List PhysicalChunk} {entries : List Entry}
    (segments : Segments databaseUuid commitSeq txUuid position chunks entries stop) {entry : Entry}
    (member : entry ∈ entries) :
    ∃ bytes, ⟨entry.start,bytes⟩ ∈ chunks ∧ Recorded commitSeq txUuid bytes entry := by
  induction segments with
  | nil => cases member
  | cons segment _ ih =>
    rcases List.mem_cons.mp member with rfl | later
    · obtain ⟨bytes,present,recorded⟩ := segment.chunk
      exact ⟨bytes,List.mem_append_left _ present,recorded⟩
    · obtain ⟨bytes,present,recorded⟩ := ih later
      exact ⟨bytes,List.mem_append_right _ present,recorded⟩

theorem Segments.nil_inv {position stop : VLogPosition} {chunks : List PhysicalChunk}
    (segments : Segments databaseUuid commitSeq txUuid position chunks [] stop) : chunks = [] ∧ position = stop := by
  cases segments with
  | nil => exact ⟨rfl,rfl⟩

theorem Segments.split {position stop : VLogPosition} {chunks : List PhysicalChunk} {entries more : List Entry}
    (segments : Segments databaseUuid commitSeq txUuid position chunks (entries ++ more) stop) :
    ∃ first later middle, chunks = first ++ later ∧
      Segments databaseUuid commitSeq txUuid position first entries middle ∧
      Segments databaseUuid commitSeq txUuid middle later more stop := by
  induction entries generalizing position chunks with
  | nil => exact ⟨[],chunks,position,rfl,.nil,segments⟩
  | cons entry entries ih =>
    cases segments with
    | cons segment rest =>
      obtain ⟨first,later,middle,rfl,front,back⟩ := ih rest
      exact ⟨_ ++ first,later,middle,by rw [List.append_assoc],.cons segment front,back⟩

theorem Segment.single {position stop : VLogPosition} {chunks : List PhysicalChunk} {entry : Entry}
    (segment : Segment databaseUuid commitSeq txUuid position chunks entry) (ends : entry.next = stop) :
    Segments databaseUuid commitSeq txUuid position chunks [entry] stop := by
  rw [←List.append_nil chunks]
  exact .cons segment (ends ▸ .nil)

theorem preludeChunk_pageHeader {geometry : VLogGeometry} {position : VLogPosition} {pageNo : Nat}
    {chunk : PhysicalChunk}
    (written : preludeChunk databaseUuid commitSeq txUuid geometry (.pageHeader position pageNo) = .ok chunk) :
    chunk.position = position ∧ chunk.bytes.length = 16 ∧
      PageHeader.decode chunk.bytes = .ok ⟨position.fileId,pageNo⟩ := by
  simp only [preludeChunk,bind_ok,pure_ok,Except.ok.injEq] at written
  obtain ⟨bytes,encoded,rfl⟩ := written
  obtain ⟨decoded,width⟩ := PageHeader.decode_encode encoded
  exact ⟨rfl,width,decoded⟩

theorem preludeChunk_fileHeader {geometry : VLogGeometry} {position : VLogPosition} {chunk : PhysicalChunk}
    (written : preludeChunk databaseUuid commitSeq txUuid geometry (.fileHeader position) = .ok chunk) :
    chunk.position = position ∧ chunk.bytes.length = 48 ∧
      VLogFileHeader.decode chunk.bytes = .ok (.new databaseUuid position.fileId) := by
  simp only [preludeChunk,bind_ok,pure_ok,Except.ok.injEq] at written
  obtain ⟨bytes,encoded,rfl⟩ := written
  obtain ⟨decoded,width⟩ := VLogFileHeader.decode_encode encoded
  exact ⟨rfl,width,decoded⟩

theorem preludeChunk_pageEnd {position : VLogPosition} {len : Nat} {chunk : PhysicalChunk}
    (seq : commitSeq < 18446744073709551616) (area : InRecordArea position)
    (written : preludeChunk databaseUuid commitSeq txUuid production (.pageEnd position len) = .ok chunk) :
    chunk.position = position ∧ Recorded commitSeq txUuid chunk.bytes ⟨.pageEnd,position,len⟩ := by
  simp only [preludeChunk,bind_ok,exists_unit,rejectIf_ok,pure_ok,Except.ok.injEq,ne_eq,not_not] at written
  obtain ⟨bytes,encoded,rfl,rfl⟩ := written
  obtain ⟨reads,ends⟩ := encodePageEnd_reads encoded seq
  obtain ⟨file,inside,-,-⟩ := id area
  exact ⟨rfl,area,rfl,⟨_,reads,rfl,rfl⟩,le_of_eq ends,
    ⟨file,by simp only [Entry.next]; omega,.inl (by simp only [Entry.next]; omega)⟩⟩

theorem Opens.headers {position start : VLogPosition} {preludes : List LayoutPrelude} {chunks : List PhysicalChunk}
    (opens : Opens position preludes start)
    (written : preludes.mapM (preludeChunk databaseUuid commitSeq txUuid production) = .ok chunks) :
    Headers databaseUuid position chunks start := by
  have opening : ∀ {file : Nat} {position : VLogPosition},
      (∀ error, nextPosition error position production = .ok ⟨file,0⟩) → file ≤ 999999 →
      List.mapM (preludeChunk databaseUuid commitSeq txUuid production)
        [.pageHeader ⟨file,0⟩ 0,.fileHeader ⟨file,16⟩] = .ok chunks →
      Headers databaseUuid position chunks ⟨file,64⟩ := by
    intro file position stepped bound written
    obtain ⟨first,_,page,more,rfl⟩ := mapM_ok_cons written
    obtain ⟨second,_,header,none,rfl⟩ := mapM_ok_cons more
    obtain rfl := mapM_ok_nil none
    obtain ⟨atPage,pageWidth,pageDecoded⟩ := preludeChunk_pageHeader page
    obtain ⟨atHeader,headerWidth,headerDecoded⟩ := preludeChunk_fileHeader header
    obtain ⟨_,pageBytes⟩ := first
    obtain ⟨_,headerBytes⟩ := second
    simp only at atPage atHeader
    subst atPage atHeader
    exact .file stepped bound pageDecoded pageWidth headerDecoded headerWidth
  cases opens with
  | inside area =>
    obtain rfl := mapM_ok_nil written
    exact .inside area
  | page file low high aligned =>
    obtain ⟨first,_,page,none,rfl⟩ := mapM_ok_cons written
    obtain rfl := mapM_ok_nil none
    obtain ⟨place,width,decoded⟩ := preludeChunk_pageHeader page
    obtain ⟨_,bytes⟩ := first
    simp only at place
    subst place
    exact .page file low high aligned decoded width
  | file file => exact opening (fun error => nextPosition_inside error (by simp)) file written
  | roll file => exact opening (fun error => nextPosition_full error file) file written

theorem Prelude.segment {position : VLogPosition} {preludes : List LayoutPrelude} {chunks : List PhysicalChunk}
    {bytes : Bytes} {entry : Entry} (seq : commitSeq < 18446744073709551616)
    (opened : Prelude position preludes entry.start)
    (written : preludes.mapM (preludeChunk databaseUuid commitSeq txUuid production) = .ok chunks)
    (recorded : Recorded commitSeq txUuid bytes entry) :
    Segment databaseUuid commitSeq txUuid position (chunks ++ [⟨entry.start,bytes⟩]) entry := by
  cases opened with
  | direct opens => exact .direct (opens.headers written) recorded
  | padded opens fills room opens' =>
    obtain ⟨before,_,first,rest,rfl⟩ := mapM_ok_append written
    obtain ⟨⟨_,padding⟩,after,padded,last,rfl⟩ := mapM_ok_cons rest
    obtain ⟨place,filled⟩ := preludeChunk_pageEnd seq opens.area padded
    simp only at place filled
    subst place
    rw [List.append_assoc,List.cons_append]
    exact .padded (opens.headers first) (by rfl) filled (opens'.headers last) recorded

theorem appendPlacement_segment {position next : VLogPosition} {len : Nat} {placement : RecordPlacement}
    {bytes : Bytes} {chunks : List PhysicalChunk} {record : DecodedRecord} {header : RecordHeader}
    (seq : commitSeq < 18446744073709551616) (planned : Planned position len placement next)
    (written : appendPlacement placement bytes databaseUuid commitSeq txUuid production = .ok chunks)
    (reads : ReadsAs bytes placement.recordStart header record) (sameSeq : header.commitSeq = commitSeq)
    (sameUuid : header.txUuid = txUuid) :
    Segment databaseUuid commitSeq txUuid position chunks ⟨record,placement.recordStart,len⟩ ∧
      next = (⟨record,placement.recordStart,len⟩ : Entry).next := by
  simp only [appendPlacement,bind_ok,exists_unit,rejectIf_ok,pure_ok,Except.ok.injEq,ne_eq,not_not] at written
  obtain ⟨sized,preludes,mapped,rfl⟩ := written
  have recorded : Recorded commitSeq txUuid bytes ⟨record,placement.recordStart,len⟩ := by
    refine ⟨planned.opened.area,sized.trans planned.sized,⟨header,reads,sameSeq,sameUuid⟩,planned.inside,?_⟩
    have good := planned.placeable.good
    rw [planned.ends] at good
    exact good
  exact ⟨planned.opened.segment seq mapped recorded,planned.ends⟩

end ExpirKv
