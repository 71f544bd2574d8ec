import ExpirKv.Vlog.ScanFacts

namespace ExpirKv
open VLogGeometry

variable [Crc32c] {databaseUuid txUuid : Uuid} {commitSeq : Nat}

-- What the reader sees of a chunk before it decodes it: where it is and how long.
structure Shaped (chunk : PhysicalChunk) : Prop where
  file : chunk.position.fileId ≤ 999999
  start : chunk.position.offset < 4294967296
  filled : 0 < chunk.bytes.length
  inside : chunk.position.offset + chunk.bytes.length ≤ (chunk.position.offset / 65536 + 1) * 65536
  shape : (chunk.position.offset % 65536 = 0 ∧ chunk.bytes.length = 16) ∨
    (chunk.position.offset = 16 ∧ chunk.bytes.length = 48) ∨
    (InRecordArea chunk.position ∧ 39 ≤ chunk.bytes.length ∧
      ∃ header, RecordHeader.decode (chunk.bytes.take 39) = .ok header ∧ header.encodedLen = chunk.bytes.length)

def PhysicalChunk.next (chunk : PhysicalChunk) : VLogPosition :=
  ⟨chunk.position.fileId,chunk.position.offset + chunk.bytes.length⟩

-- Chunks that follow each other without a gap, but for the step into a new file.
inductive Chain : VLogPosition → List PhysicalChunk → VLogPosition → Prop
  | nil {position : VLogPosition} : Chain position [] position
  | cons {position stop : VLogPosition} {chunk : PhysicalChunk} {rest : List PhysicalChunk} :
      (∀ error, nextPosition error position production = .ok chunk.position) → Shaped chunk →
      Chain chunk.next rest stop → Chain position (chunk :: rest) stop

theorem Chain.append {position middle stop : VLogPosition} {chunks later : List PhysicalChunk}
    (first : Chain position chunks middle) (rest : Chain middle later stop) :
    Chain position (chunks ++ later) stop := by
  induction first with
  | nil => exact rest
  | cons follows shaped _ ih => exact .cons follows shaped (ih rest)

omit [Crc32c] in
theorem nextPosition_le {error : StorageError} {position next : VLogPosition}
    (stepped : nextPosition error position production = .ok next) : position ≤ next := by
  obtain ⟨-,rfl⟩ | ⟨full,-,rfl⟩ := nextPosition_ok stepped
  · exact VLogPosition.le_refl _
  · simp only [VLogPosition.le_def]
    omega

theorem Shaped.lt_next {chunk : PhysicalChunk} (shaped : Shaped chunk) : chunk.position < chunk.next := by
  exact .inr ⟨rfl,Nat.lt_add_of_pos_right shaped.filled⟩

theorem Chain.le {position stop : VLogPosition} {chunks : List PhysicalChunk} (chain : Chain position chunks stop) :
    position ≤ stop := by
  induction chain with
  | nil => exact VLogPosition.le_refl _
  | cons follows shaped _ ih =>
    exact VLogPosition.le_trans (nextPosition_le (follows recoveryCorruption))
      (VLogPosition.le_trans (VLogPosition.le_of_lt shaped.lt_next) ih)

theorem Chain.lt {position stop : VLogPosition} {chunk : PhysicalChunk} {rest : List PhysicalChunk}
    (chain : Chain position (chunk :: rest) stop) : chunk.position < stop ∧ position < stop := by
  cases chain with
  | cons follows shaped later =>
    have inner := VLogPosition.lt_of_lt_of_le shaped.lt_next later.le
    exact ⟨inner,VLogPosition.lt_of_le_of_lt (nextPosition_le (follows recoveryCorruption)) inner⟩

theorem Recorded.shaped {bytes : Bytes} {entry : Entry} (recorded : Recorded commitSeq txUuid bytes entry) :
    Shaped ⟨entry.start,bytes⟩ := by
  obtain ⟨header,reads,-,-⟩ := recorded.reads
  have long := reads.long
  refine ⟨recorded.area.1,recorded.area.2.1,by simp only; omega,?_,.inr (.inr ⟨recorded.area,long,header,
    reads.front_decode,reads.sized⟩)⟩
  have inside := recorded.inside
  simp only [recorded.sized]
  omega

theorem Recorded.chain {bytes : Bytes} {entry : Entry} (recorded : Recorded commitSeq txUuid bytes entry) :
    Chain entry.start [⟨entry.start,bytes⟩] entry.next := by
  have ends : (⟨entry.start,bytes⟩ : PhysicalChunk).next = entry.next := by
    simp only [PhysicalChunk.next,Entry.next,recorded.sized]
  exact .cons (fun error => nextPosition_inside error recorded.area.2.1) recorded.shaped (ends ▸ .nil)

theorem Headers.chain {position start : VLogPosition} {headers : List PhysicalChunk}
    (laid : Headers databaseUuid position headers start) : Chain position headers start := by
  cases laid with
  | inside area => exact .nil
  | page bound low inside aligned decoded width =>
    rename_i file offset bytes
    have shaped : Shaped ⟨⟨file,offset⟩,bytes⟩ :=
      ⟨bound,inside,by simp only; omega,by simp only; omega,.inl ⟨aligned,width⟩⟩
    have ends : (⟨⟨file,offset⟩,bytes⟩ : PhysicalChunk).next = ⟨file,offset + 16⟩ := by
      simp only [PhysicalChunk.next,width]
    exact .cons (fun error => nextPosition_inside error inside) shaped (ends ▸ .nil)
  | file stepped bound pageDecoded pageWidth fileDecoded fileWidth =>
    rename_i file pageBytes fileBytes
    have page : Shaped ⟨⟨file,0⟩,pageBytes⟩ :=
      ⟨bound,by simp,by simp only; omega,by simp only; omega,.inl ⟨by simp,pageWidth⟩⟩
    have header : Shaped ⟨⟨file,16⟩,fileBytes⟩ :=
      ⟨bound,by simp,by simp only; omega,by simp only; omega,.inr (.inl ⟨rfl,fileWidth⟩)⟩
    have middle : (⟨⟨file,0⟩,pageBytes⟩ : PhysicalChunk).next = ⟨file,16⟩ := by
      simp only [PhysicalChunk.next,pageWidth]
    have ends : (⟨⟨file,16⟩,fileBytes⟩ : PhysicalChunk).next = ⟨file,64⟩ := by
      simp only [PhysicalChunk.next,fileWidth]
    refine .cons stepped page (.cons (fun error => ?_) header (ends ▸ .nil))
    rw [middle]
    exact nextPosition_inside error (by simp)

theorem Segment.chain {position : VLogPosition} {chunks : List PhysicalChunk} {entry : Entry}
    (segment : Segment databaseUuid commitSeq txUuid position chunks entry) : Chain position chunks entry.next := by
  cases segment with
  | direct headers recorded => exact headers.chain.append recorded.chain
  | padded before _ padding after recorded =>
    exact before.chain.append (padding.chain.append (after.chain.append recorded.chain))

theorem Segments.chain {position stop : VLogPosition} {chunks : List PhysicalChunk} {entries : List Entry}
    (segments : Segments databaseUuid commitSeq txUuid position chunks entries stop) : Chain position chunks stop := by
  induction segments with
  | nil => exact .nil
  | cons segment _ ih => exact segment.chain.append ih

-- A chunk stands in a file set when its file opens and holds its bytes at its place.
def Holds (files : FileSet) (chunk : PhysicalChunk) : Prop :=
  ∃ contents, files.handle chunk.position.fileId = .ok contents ∧
    slice? contents chunk.position.offset chunk.bytes.length = some chunk.bytes

theorem Holds.read {files : FileSet} {chunk : PhysicalChunk} {len : Nat} (held : Holds files chunk)
    (geometry : files.geometry = production) (bounded : chunk.position.offset + chunk.bytes.length ≤ 4294967296)
    (short : len ≤ chunk.bytes.length) :
    readRecoveryBytes files chunk.position.fileId chunk.position.offset len = .ok (chunk.bytes.take len) := by
  obtain ⟨contents,opened,taken⟩ := held
  obtain ⟨fits,bytesEq⟩ := slice?_eq_some.mp taken
  have part : slice? contents chunk.position.offset len = some (chunk.bytes.take len) := by
    rw [slice?,if_pos (by omega),bytesEq,List.take_take,Nat.min_eq_left]
    exact short
  have bounds : ¬(chunk.position.offset + len > contents.length ∨
      chunk.position.offset + len > files.geometry.maxFileSize) := by
    simp only [geometry,maxVlogFileSize]
    omega
  simp only [readRecoveryBytes,opened,Except.mapError,ok_bind,rejectIf_false bounds,readExactAt,part,orError]

theorem Shaped.len {files : FileSet} {stop : VLogPosition} {chunk : PhysicalChunk} (shaped : Shaped chunk)
    (geometry : files.geometry = production) (held : Holds files chunk) (bounded : chunk.next ≤ stop) :
    recoveryChunkLen files stop chunk.position = .ok chunk.bytes.length := by
  have start := shaped.start
  have inside := shaped.inside
  simp only [PhysicalChunk.next,VLogPosition.le_def] at bounded
  unfold recoveryChunkLen
  simp only [geometry,vlogPageSize,pageHeaderEncodedLen,recordHeaderEncodedLen,fileHeaderEncodedLen]
  obtain ⟨aligned,width⟩ | ⟨header,width⟩ | ⟨area,long,header,decoded,sized⟩ := shaped.shape
  · rw [if_pos aligned,width]
  · rw [if_neg (by omega),if_pos header,width]
  · obtain ⟨notPage,-,notFile⟩ := area.notHeader
    rw [if_neg notPage,if_neg notFile,rejectIf_false (by omega),ok_bind,held.read geometry (by omega) long,
      ok_bind,decoded]
    simp only [Except.mapError,ok_bind,sized,rejectIf_false (show ¬chunk.bytes.length < 39 by omega),pure_ok]

theorem Shaped.readChunk {files : FileSet} {stop : VLogPosition} {chunk : PhysicalChunk} (shaped : Shaped chunk)
    (geometry : files.geometry = production) (held : Holds files chunk) (bounded : chunk.next ≤ stop) :
    readRecoveryChunk files stop chunk.position =
      (recoveryNextCursor chunk.next stop production).map (fun next => (chunk,next)) := by
  have start := shaped.start
  have inside := shaped.inside
  have filled := shaped.filled
  have notPast : ¬chunk.position.fileId > stop.fileId := by
    simp only [PhysicalChunk.next,VLogPosition.le_def] at bounded
    omega
  have within : ¬stop < chunk.next := VLogPosition.not_lt.mpr bounded
  have whole := held.read geometry (by omega) (Nat.le_refl chunk.bytes.length)
  rw [List.take_length] at whole
  rw [readRecoveryChunk,rejectIf_false notPast,ok_bind,shaped.len geometry held bounded,ok_bind,
    rejectIf_false (by omega),ok_bind,geometry]
  dsimp only
  rw [rejectIf_false (by simp only [vlogPageSize,maxVlogFileSize]; omega),ok_bind]
  rw [PhysicalChunk.next] at within
  rw [rejectIf_false within,ok_bind,whole,ok_bind]
  change recoveryNextCursor chunk.next stop production >>= (fun next => .ok (chunk,next)) = _
  cases recoveryNextCursor chunk.next stop production with
  | error error => rfl
  | ok next => rfl

-- The reader walks a chain that stands in the files and returns it chunk for chunk.
theorem Chain.readFrom {files : FileSet} {position stop : VLogPosition} {chunk : PhysicalChunk}
    {rest : List PhysicalChunk} (chain : Chain position (chunk :: rest) stop) (geometry : files.geometry = production)
    (held : ∀ piece ∈ chunk :: rest, Holds files piece) :
    readRecoveryChunksFrom files stop chunk.position = .ok (chunk :: rest) := by
  induction rest generalizing position chunk with
  | nil =>
    have before := chain.lt.1
    cases chain with
    | cons follows shaped later =>
      cases later with
      | nil =>
        have read := shaped.readChunk geometry (held chunk (by simp)) (VLogPosition.le_refl _)
        rw [recoveryNextCursor,if_pos rfl,ok_map] at read
        rw [readRecoveryChunksFrom,if_pos before]
        split
        · rename_i failed
          rw [read] at failed
          cases failed
        · rename_i stepped
          rw [read] at stepped
          cases stepped
          rw [readRecoveryChunksFrom,if_neg (VLogPosition.lt_irrefl _),if_neg (by simp),ok_map]
  | cons next rest ih =>
    have before := chain.lt.1
    cases chain with
    | cons follows shaped later =>
      have unfinished := later.lt.2
      have read := shaped.readChunk geometry (held chunk (by simp)) (VLogPosition.le_of_lt unfinished)
      have apart : chunk.next ≠ stop := fun same => VLogPosition.lt_irrefl _ (same ▸ unfinished)
      have tail := ih later (fun piece member => held piece (List.mem_cons_of_mem _ member))
      cases later with
      | cons follows' _ _ =>
        rw [recoveryNextCursor,if_neg apart,recoveryNextPosition,follows' recoveryCorruption,ok_map] at read
        rw [readRecoveryChunksFrom,if_pos before]
        split
        · rename_i failed
          rw [read] at failed
          cases failed
        · rename_i stepped
          rw [read] at stepped
          cases stepped
          rw [tail,ok_map]

theorem Chain.read {files : FileSet} {position stop : VLogPosition} {chunks : List PhysicalChunk}
    (chain : Chain position chunks stop) (nonempty : chunks ≠ []) (geometry : files.geometry = production)
    (begins : position.fileId ≤ 999999 ∧ position.offset ≤ 4294967296)
    (ends : stop.fileId ≤ 999999 ∧ stop.offset ≤ 4294967296) (held : ∀ piece ∈ chunks, Holds files piece) :
    readRecoveryChunks files position stop = .ok chunks := by
  cases chunks with
  | nil => exact absurd rfl nonempty
  | cons chunk rest =>
    have ordered : ¬(stop ≤ position ∨ position.fileId > 999999 ∨ stop.fileId > 999999 ∨
        position.offset > 4294967296 ∨ stop.offset > 4294967296) := by
      rintro (backwards | rest)
      · exact VLogPosition.not_le.mpr chain.lt.2 backwards
      · omega
    have loop := chain.readFrom geometry held
    rw [readRecoveryChunks,geometry,rejectIf_false ordered,ok_bind]
    cases chain with
    | cons follows _ _ => rw [recoveryNextPosition,follows recoveryCorruption,ok_bind,loop]

end ExpirKv
