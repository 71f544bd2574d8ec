import ExpirKv.Vlog.Segments
import ExpirKv.Vlog.Tiling
import ExpirKv.Vlog.Writer

namespace ExpirKv
open ValueLog

section tiles
variable {geometry : VLogGeometry} {position middle stop : VLogPosition} {chunks more : List PhysicalChunk}

theorem Tiles.append (first : Tiles geometry position chunks middle) (rest : Tiles geometry middle more stop) :
    Tiles geometry position (chunks ++ more) stop := by
  induction first with
  | nil => exact rest
  | cons follows filled file limit page _ ih => exact .cons follows filled file limit page (ih rest)

theorem Tiles.rises (tiles : Tiles geometry position chunks stop) :
    position ≤ stop ∧ (chunks ≠ [] → position < stop) := by
  induction tiles with
  | nil => exact ⟨VLogPosition.le_refl _,fun filled => absurd rfl filled⟩
  | @cons position stop chunk rest follows filled file limit page later ih =>
    have begins : position ≤ chunk.position := by
      rcases follows with ⟨-,same⟩ | ⟨-,same⟩
      · rw [same]
        exact VLogPosition.le_refl _
      · rw [same]
        exact .inl (Nat.lt_succ_self _)
    have moves : chunk.position < chunk.next :=
      .inr ⟨rfl,Nat.lt_add_of_pos_right (List.length_pos_iff.mpr filled)⟩
    have before := VLogPosition.lt_of_le_of_lt begins (VLogPosition.lt_of_lt_of_le moves ih.1)
    exact ⟨VLogPosition.le_of_lt before,fun _ => before⟩

end tiles

section start
variable {geometry : VLogGeometry} {position : VLogPosition}

-- Where a record may start in any geometry.
structure RecordStart (geometry : VLogGeometry) (position : VLogPosition) : Prop where
  file : position.fileId ≤ geometry.maxFileId
  inside : position.offset < geometry.maxFileSize
  area : (if position.offset < geometry.pageSize then 64 else 16) ≤ position.offset % geometry.pageSize

theorem validateRecordStart_ok (accepted : validateRecordStart position geometry = .ok ()) :
    RecordStart geometry position := by
  simp only [validateRecordStart,bind_ok,exists_unit,rejectIf_ok,firstPageRecordAreaStart,
    otherPageRecordAreaOffset] at accepted
  obtain ⟨bounds,area⟩ := accepted
  exact ⟨by omega,by omega,by omega⟩

-- Neither on a page boundary nor where the file header stands.
theorem RecordStart.clear (start : RecordStart geometry position) (wide : 64 < geometry.pageSize) :
    position.offset % geometry.pageSize ≠ 0 ∧ position.offset ≠ 16 := by
  have area := start.area
  refine ⟨?_,?_⟩
  · intro aligned
    rw [aligned] at area
    split at area <;> omega
  · intro header
    rw [header,if_pos (by omega),Nat.mod_eq_of_lt (by omega)] at area
    omega

theorem remainingInPage_ok {offset remaining : Nat} (counted : remainingInPage offset geometry = .ok remaining) :
    offset < geometry.maxFileSize ∧ offset + remaining = (offset / geometry.pageSize + 1) * geometry.pageSize ∧
      offset + remaining ≤ geometry.maxFileSize := by
  simp only [remainingInPage,pageEnd,bind_ok,exists_unit,rejectIf_ok,pure_ok,Except.ok.injEq] at counted
  obtain ⟨_,⟨inside,limit,rfl⟩,above,rfl⟩ := counted
  exact ⟨by omega,by omega,by omega⟩

-- The headers between a position and the record area behind it.
inductive AreaHeaders (geometry : VLogGeometry) : VLogPosition → List LayoutPrelude → VLogPosition → Prop
  | inside {position : VLogPosition} : RecordStart geometry position → AreaHeaders geometry position [] position
  | page {position : VLogPosition} : position.offset % geometry.pageSize = 0 →
      RecordStart geometry ⟨position.fileId,position.offset + 16⟩ →
      AreaHeaders geometry position [.pageHeader position (position.offset / geometry.pageSize)]
        ⟨position.fileId,position.offset + 16⟩
  | file {position : VLogPosition} {file : Nat} : Succeeds geometry position ⟨file,0⟩ →
      RecordStart geometry ⟨file,64⟩ →
      AreaHeaders geometry position [.pageHeader ⟨file,0⟩ 0,.fileHeader ⟨file,16⟩] ⟨file,64⟩

theorem AreaHeaders.start {preludes : List LayoutPrelude} {start : VLogPosition}
    (headers : AreaHeaders geometry position preludes start) : RecordStart geometry start := by
  cases headers with
  | inside start => exact start
  | page _ start => exact start
  | file _ start => exact start

theorem ensureRecordArea_headers {opened : List LayoutPrelude × LayoutPlanner} (positive : 0 < geometry.maxFileSize)
    (ensured : LayoutPlanner.ensureRecordArea ⟨geometry,position⟩ = .ok opened) :
    AreaHeaders geometry position opened.1 opened.2.position ∧ opened.2.geometry = geometry := by
  simp only [LayoutPlanner.ensureRecordArea,bind_ok,exists_unit,pure_ok,Except.ok.injEq] at ensured
  obtain ⟨rolled,roll,started,rfl⟩ := ensured
  refine ⟨?_,rfl⟩
  have start := validateRecordStart_ok started
  simp only [LayoutPlanner.rollFullFile] at roll
  by_cases full : position.offset = geometry.maxFileSize
  · -- The file is full, and the next one begins with both headers.
    rw [if_pos full] at roll
    split at roll
    · cases roll
    · obtain rfl := Except.ok.inj roll
      exact .file (.inr ⟨full,rfl⟩) start
  · rw [if_neg full] at roll
    obtain rfl := Except.ok.inj roll
    simp only [LayoutPlanner.areaHeaders] at start ⊢
    by_cases first : position.offset = 0
    · rw [if_pos first] at start ⊢
      have here : position = ⟨position.fileId,0⟩ := by rw [←first]
      rw [here]
      exact .file (.inl ⟨positive,rfl⟩) start
    · rw [if_neg first] at start ⊢
      by_cases aligned : position.offset % geometry.pageSize = 0
      · rw [if_pos aligned] at start ⊢
        exact .page aligned start
      · rw [if_neg aligned] at start ⊢
        exact .inside start

end start

section wellTiled
variable [Crc32c] {geometry : VLogGeometry} {databaseUuid txUuid : Uuid} {commitSeq : Nat}
  {position middle stop : VLogPosition} {chunks more : List PhysicalChunk}

-- Chunks without a gap that a writer of the same geometry and database lets pass.
structure WellTiled (geometry : VLogGeometry) (databaseUuid : Uuid) (position : VLogPosition) (chunks : List PhysicalChunk)
    (stop : VLogPosition) : Prop where
  tiles : Tiles geometry position chunks stop
  structural : ∀ chunk ∈ chunks, ∀ writer : ValueLogWriter, writer.geometry = geometry →
    writer.databaseUuid = databaseUuid → validateStructuralChunk writer chunk = .ok ()

theorem WellTiled.nil : WellTiled geometry databaseUuid position [] position :=
  ⟨.nil,fun _ member => by cases member⟩

theorem WellTiled.append (first : WellTiled geometry databaseUuid position chunks middle)
    (rest : WellTiled geometry databaseUuid middle more stop) : WellTiled geometry databaseUuid position (chunks ++ more) stop := by
  refine ⟨first.tiles.append rest.tiles,?_⟩
  intro chunk member
  rcases List.mem_append.mp member with early | late
  · exact first.structural chunk early
  · exact rest.structural chunk late

-- A record or padding: no header is expected where it stands.
theorem RecordStart.wellTiled {bytes : Bytes} (start : RecordStart geometry position) (wide : 64 < geometry.pageSize)
    (filled : 0 < bytes.length) (limit : position.offset + bytes.length ≤ geometry.maxFileSize)
    (page : position.offset + bytes.length ≤ (position.offset / geometry.pageSize + 1) * geometry.pageSize) :
    WellTiled geometry databaseUuid position [⟨position,bytes⟩] ⟨position.fileId,position.offset + bytes.length⟩ := by
  refine ⟨.cons (.inl ⟨start.inside,rfl⟩) (List.length_pos_iff.mp filled) start.file limit page .nil,?_⟩
  intro chunk member writer sameGeometry _
  obtain rfl := List.mem_singleton.mp member
  obtain ⟨unaligned,elsewhere⟩ := start.clear wide
  rw [validateStructuralChunk,sameGeometry,if_neg unaligned,if_neg elsewhere]

theorem pageHeader_wellTiled {pageNo : Nat} {chunk : PhysicalChunk} (follows : Succeeds geometry position middle)
    (file : middle.fileId ≤ geometry.maxFileId) (inside : middle.offset + 16 ≤ geometry.maxFileSize)
    (wide : 64 < geometry.pageSize) (aligned : middle.offset % geometry.pageSize = 0)
    (numbered : pageNo = middle.offset / geometry.pageSize)
    (written : preludeChunk databaseUuid commitSeq txUuid geometry (.pageHeader middle pageNo) = .ok chunk) :
    WellTiled geometry databaseUuid position [chunk] ⟨middle.fileId,middle.offset + 16⟩ := by
  obtain ⟨rfl,width,decoded⟩ := preludeChunk_pageHeader written
  have encoded := PageHeader.decode_canonical decoded
  simp only [PageHeader.encode,bind_ok,exists_unit,rejectIf_ok] at encoded
  have small : ¬pageNo ≥ 4294967296 := by omega
  have page : chunk.position.offset + 16 ≤ (chunk.position.offset / geometry.pageSize + 1) * geometry.pageSize := by
    have whole := Nat.div_add_mod chunk.position.offset geometry.pageSize
    rw [aligned,Nat.mul_comm] at whole
    rw [Nat.succ_mul]
    omega
  rw [←width] at inside page ⊢
  refine ⟨.cons follows (List.length_pos_iff.mp (by omega)) file inside page .nil,?_⟩
  intro other member writer sameGeometry _
  obtain rfl := List.mem_singleton.mp member
  rw [validateStructuralChunk,sameGeometry,if_pos aligned,rejectIf_false (by simp [width]),ok_bind,decoded]
  simp only [Except.mapError,ok_bind,←numbered,rejectIf_false small]
  exact rejectIf_false (by simp)

theorem fileHeader_wellTiled {file : Nat} {chunk : PhysicalChunk} (start : RecordStart geometry ⟨file,64⟩)
    (wide : 64 < geometry.pageSize)
    (written : preludeChunk databaseUuid commitSeq txUuid geometry (.fileHeader ⟨file,16⟩) = .ok chunk) :
    WellTiled geometry databaseUuid ⟨file,16⟩ [chunk] ⟨file,64⟩ := by
  obtain ⟨place,width,decoded⟩ := preludeChunk_fileHeader written
  obtain ⟨position,bytes⟩ := chunk
  simp only at place width decoded
  subst place
  have inside : 64 < geometry.maxFileSize := start.inside
  have next : (⟨file,64⟩ : VLogPosition) = (⟨⟨file,16⟩,bytes⟩ : PhysicalChunk).next := by
    rw [PhysicalChunk.next,width]
  have first : 16 % geometry.pageSize = 16 := Nat.mod_eq_of_lt (by omega)
  have filled : bytes ≠ [] := List.length_pos_iff.mp (by omega)
  rw [next]
  refine ⟨.cons (.inl ⟨by simp only; omega,rfl⟩) filled start.file
    (by simp only; omega) ?_ .nil,?_⟩
  · simp only [Nat.div_eq_of_lt (show 16 < geometry.pageSize by omega)]
    omega
  · intro other member writer sameGeometry sameUuid
    obtain rfl := List.mem_singleton.mp member
    rw [validateStructuralChunk,sameGeometry,if_neg (by simp only [first]; omega),if_pos rfl,
      rejectIf_false (by simp [width]),ok_bind,decoded]
    simp only [Except.mapError,ok_bind,sameUuid]
    exact rejectIf_false (by simp [VLogFileHeader.new])

theorem AreaHeaders.wellTiled {preludes : List LayoutPrelude} {start : VLogPosition}
    (headers : AreaHeaders geometry position preludes start) (wide : 64 < geometry.pageSize)
    (written : preludes.mapM (preludeChunk databaseUuid commitSeq txUuid geometry) = .ok chunks) :
    WellTiled geometry databaseUuid position chunks start := by
  cases headers with
  | inside start =>
    obtain rfl := mapM_ok_nil written
    exact .nil
  | page aligned start =>
    obtain ⟨chunk,_,page,more,rfl⟩ := mapM_ok_cons written
    obtain rfl := mapM_ok_nil more
    have inside : position.offset + 16 < geometry.maxFileSize := start.inside
    exact pageHeader_wellTiled (.inl ⟨by omega,rfl⟩) start.file (Nat.le_of_lt inside) wide aligned rfl page
  | @file file follows start =>
    obtain ⟨first,_,page,more,rfl⟩ := mapM_ok_cons written
    obtain ⟨second,_,header,others,rfl⟩ := mapM_ok_cons more
    obtain rfl := mapM_ok_nil others
    have inside : 64 < geometry.maxFileSize := start.inside
    have opened := pageHeader_wellTiled follows start.file (by simp only; omega) wide (Nat.zero_mod _)
      (Nat.zero_div _).symm page
    exact opened.append (fileHeader_wellTiled start wide header)

-- What one record takes: headers, padding up to the page behind, the record itself.
inductive RecordPreludes (geometry : VLogGeometry) : VLogPosition → List LayoutPrelude → VLogPosition → Prop
  | direct {position start : VLogPosition} {preludes : List LayoutPrelude} :
      AreaHeaders geometry position preludes start → RecordPreludes geometry position preludes start
  | padded {position pad start : VLogPosition} {before after : List LayoutPrelude} {len : Nat} :
      AreaHeaders geometry position before pad → 0 < len →
      pad.offset + len = (pad.offset / geometry.pageSize + 1) * geometry.pageSize →
      pad.offset + len ≤ geometry.maxFileSize →
      AreaHeaders geometry ⟨pad.fileId,pad.offset + len⟩ after start →
      RecordPreludes geometry position (before ++ .pageEnd pad len :: after) start

omit [Crc32c] in
theorem RecordPreludes.start {preludes : List LayoutPrelude} {start : VLogPosition}
    (taken : RecordPreludes geometry position preludes start) : RecordStart geometry start := by
  cases taken with
  | direct headers => exact headers.start
  | padded _ _ _ _ headers => exact headers.start

theorem RecordPreludes.wellTiled {preludes : List LayoutPrelude} {start : VLogPosition}
    (taken : RecordPreludes geometry position preludes start) (wide : 64 < geometry.pageSize)
    (written : preludes.mapM (preludeChunk databaseUuid commitSeq txUuid geometry) = .ok chunks) :
    WellTiled geometry databaseUuid position chunks start := by
  cases taken with
  | direct headers => exact headers.wellTiled wide written
  | padded before filled page limit after =>
    obtain ⟨front,_,first,rest,rfl⟩ := mapM_ok_append written
    obtain ⟨⟨place,bytes⟩,back,padding,last,rfl⟩ := mapM_ok_cons rest
    simp only [preludeChunk,bind_ok,exists_unit,rejectIf_ok,pure_ok,Except.ok.injEq,PhysicalChunk.mk.injEq,ne_eq,
      not_not] at padding
    obtain ⟨_,_,rfl,rfl,rfl⟩ := padding
    refine (before.wellTiled wide first).append ?_
    exact (before.start.wellTiled wide filled limit (Nat.le_of_eq page)).append (after.wellTiled wide last)

omit [Crc32c] in
theorem planRecord_preludes {encodedLen : Nat} {placement : RecordPlacement} {next : LayoutPlanner}
    (positive : 0 < geometry.maxFileSize)
    (planned : LayoutPlanner.planRecord ⟨geometry,position⟩ encodedLen = .ok (placement,next)) :
    RecordPreludes geometry position placement.preludes placement.recordStart ∧ placement.encodedLen = encodedLen ∧
      0 < encodedLen ∧ placement.recordStart.offset + encodedLen ≤ geometry.maxFileSize ∧
      placement.recordStart.offset + encodedLen ≤
        (placement.recordStart.offset / geometry.pageSize + 1) * geometry.pageSize ∧
      next = ⟨geometry,placement.recordStart.fileId,placement.recordStart.offset + encodedLen⟩ := by
  simp only [LayoutPlanner.planRecord,LayoutPlanner.planRecordInner,bind_ok,exists_unit,rejectIf_ok,
    pageEndMinSize] at planned
  obtain ⟨bounds,⟨before,⟨_,pad⟩⟩,ensured,remaining,counted,rest⟩ := planned
  obtain ⟨headers,same⟩ := ensureRecordArea_headers positive ensured
  simp only at headers same counted rest
  rw [same] at counted rest
  have placed : ∀ {preludes : List LayoutPrelude} {start : VLogPosition},
      RecordPreludes geometry position preludes start →
      LayoutPlanner.placeRecord preludes ⟨geometry,start⟩ encodedLen = .ok (placement,next) →
      RecordPreludes geometry position placement.preludes placement.recordStart ∧ placement.encodedLen = encodedLen ∧
        0 < encodedLen ∧ placement.recordStart.offset + encodedLen ≤ geometry.maxFileSize ∧
        placement.recordStart.offset + encodedLen ≤
          (placement.recordStart.offset / geometry.pageSize + 1) * geometry.pageSize ∧
        next = ⟨geometry,placement.recordStart.fileId,placement.recordStart.offset + encodedLen⟩ := by
    intro preludes start taken placed
    simp only [LayoutPlanner.placeRecord,bind_ok,exists_unit,rejectIf_ok,pure_ok,Except.ok.injEq,
      Prod.mk.injEq] at placed
    obtain ⟨remaining,counted,fits,-,limit,rfl,rfl⟩ := placed
    obtain ⟨-,page,-⟩ := remainingInPage_ok counted
    exact ⟨taken,rfl,by omega,by simp only; omega,by simp only; omega,rfl⟩
  split at rest
  · simp only [bind_ok,LayoutPlanner.padPage,exists_unit,rejectIf_ok,pure_ok,Except.ok.injEq,pageEndMinSize] at rest
    obtain ⟨_,⟨room,⟨after,⟨_,start⟩⟩,reopened,rfl⟩,rest⟩ := rest
    obtain ⟨later,same⟩ := ensureRecordArea_headers positive reopened
    simp only at later same rest
    rw [same] at rest
    obtain ⟨-,page,limit⟩ := remainingInPage_ok counted
    exact placed (.padded headers (by omega) page limit later) rest
  · exact placed (.direct headers) rest

-- The chunks of one record, and where they leave the planner.
theorem appendPlacement_wellTiled {encodedLen : Nat} {placement : RecordPlacement} {next : LayoutPlanner}
    {bytes : Bytes} (wide : 64 < geometry.pageSize) (positive : 0 < geometry.maxFileSize)
    (planned : LayoutPlanner.planRecord ⟨geometry,position⟩ encodedLen = .ok (placement,next))
    (written : appendPlacement placement bytes databaseUuid commitSeq txUuid geometry = .ok chunks) :
    WellTiled geometry databaseUuid position chunks next.position ∧ next.geometry = geometry ∧
      ⟨placement.recordStart,bytes⟩ ∈ chunks ∧ bytes.length = placement.encodedLen := by
  obtain ⟨taken,sized,filled,limit,page,rfl⟩ := planRecord_preludes positive planned
  simp only [appendPlacement,bind_ok,exists_unit,rejectIf_ok,pure_ok,Except.ok.injEq,ne_eq,not_not] at written
  obtain ⟨width,preludes,mapped,rfl⟩ := written
  have exact : bytes.length = encodedLen := width.trans sized
  subst exact
  refine ⟨?_,rfl,List.mem_append_right _ List.mem_cons_self,width⟩
  exact (taken.wellTiled wide mapped).append (taken.start.wellTiled wide filled limit page)

end wellTiled

end ExpirKv
