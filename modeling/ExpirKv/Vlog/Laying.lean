import ExpirKv.Vlog.RoundTrip

namespace ExpirKv
open VLogGeometry

variable [Crc32c]

-- A positioned write: the bytes before and behind stay, a gap is filled with zeros.
def writeAt (contents : Bytes) (offset : Nat) (bytes : Bytes) : Bytes :=
  contents.take offset ++ List.replicate (offset - contents.length) 0 ++ bytes ++ contents.drop (offset + bytes.length)

omit [Crc32c] in
theorem writeAt_end {contents : Bytes} {offset : Nat} (ends : contents.length = offset) (bytes : Bytes) :
    writeAt contents offset bytes = contents ++ bytes := by
  subst ends
  simp [writeAt]

namespace FileSet

-- A chunk put in its place. A file enters the catalog once its two headers stand.
def lay (files : FileSet) (chunk : PhysicalChunk) : FileSet :=
  let contents := files.files[chunk.position.fileId]?.getD []
  {files with
    files := files.files.insert chunk.position.fileId (writeAt contents chunk.position.offset chunk.bytes)
    catalog := if chunk.position.offset + chunk.bytes.length ≥ pageHeaderEncodedLen + fileHeaderEncodedLen then
      files.catalog.insert chunk.position.fileId else files.catalog}

def layAll (files : FileSet) (chunks : List PhysicalChunk) : FileSet := chunks.foldl lay files

-- What was readable stays readable; files only grow.
structure Extends (files later : FileSet) : Prop where
  geometry : later.geometry = files.geometry
  identity : later.databaseUuid = files.databaseUuid
  opens : ∀ fileId contents, files.handle fileId = .ok contents →
    ∃ more, later.handle fileId = .ok (contents ++ more)

omit [Crc32c] in
theorem layAll_append (files : FileSet) (front back : List PhysicalChunk) :
    files.layAll (front ++ back) = (files.layAll front).layAll back := List.foldl_append

end FileSet

theorem FileSet.Extends.refl (files : FileSet) : files.Extends files :=
  ⟨rfl,rfl,fun _ contents opened => ⟨[],by rw [List.append_nil]; exact opened⟩⟩

theorem FileSet.Extends.trans {first second third : FileSet} (left : first.Extends second)
    (right : second.Extends third) : first.Extends third := by
  refine ⟨right.geometry.trans left.geometry,right.identity.trans left.identity,?_⟩
  intro fileId contents opened
  obtain ⟨more,opened⟩ := left.opens fileId contents opened
  obtain ⟨rest,opened⟩ := right.opens fileId _ opened
  exact ⟨more ++ rest,by rw [←List.append_assoc]; exact opened⟩

theorem Holds.extends {files later : FileSet} {chunk : PhysicalChunk} (held : Holds files chunk)
    (grown : files.Extends later) : Holds later chunk := by
  obtain ⟨contents,opened,taken⟩ := held
  obtain ⟨more,opened⟩ := grown.opens _ _ opened
  exact ⟨contents ++ more,opened,by rw [slice?_append_left _ (slice?_eq_some.mp taken).1,taken]⟩

-- A candidate is judged by its length and its file header alone.
theorem FileSet.validateCandidate_ok {files : FileSet} {fileId : Nat} {contents : Bytes} :
    files.validateCandidate fileId contents = .ok () ↔ contents.length ≤ files.geometry.maxFileSize ∧
      ∃ encoded, slice? contents 16 48 = some encoded ∧
        ∃ header, VLogFileHeader.decode encoded = .ok header ∧ header.fileId = fileId ∧
          header.databaseUuid = files.databaseUuid ∧ header.pageSize = vlogPageSize ∧
          header.maxFileSize = maxVlogFileSize := by
  simp only [validateCandidate,readExactAt,bind_ok,exists_unit,rejectIf_ok,orError_ok,mapError_ok,not_or,not_not,ne_eq,
    Nat.not_lt,gt_iff_lt,pageHeaderEncodedLen,fileHeaderEncodedLen]

theorem FileSet.validateCandidate_append {files : FileSet} {fileId : Nat} {contents : Bytes} (more : Bytes)
    (accepted : files.validateCandidate fileId contents = .ok ())
    (fits : (contents ++ more).length ≤ files.geometry.maxFileSize) :
    files.validateCandidate fileId (contents ++ more) = .ok () := by
  obtain ⟨-,encoded,taken,rest⟩ := validateCandidate_ok.mp accepted
  refine validateCandidate_ok.mpr ⟨fits,encoded,?_,rest⟩
  rw [slice?_append_left _ (slice?_eq_some.mp taken).1,taken]

theorem FileSet.handle_ok {files : FileSet} {fileId : Nat} {contents : Bytes} :
    files.handle fileId = .ok contents ↔ fileId ∈ files.catalog ∧ files.files[fileId]? = some contents ∧
      files.validateCandidate fileId contents = .ok () := by
  simp only [handle,bind_ok,exists_unit,rejectIf_ok,orError_ok,pure_ok,Except.ok.injEq,not_not]
  constructor
  · rintro ⟨member,found,stored,valid,rfl⟩
    exact ⟨member,stored,valid⟩
  · rintro ⟨member,stored,valid⟩
    exact ⟨member,contents,stored,valid,rfl⟩

-- The log ends at a position: its file holds exactly the bytes before it, no later file exists.
structure EndsAt (files : FileSet) (position : VLogPosition) : Prop where
  geometry : files.geometry = production
  current : 0 < position.offset → ∃ contents, files.handle position.fileId = .ok contents ∧
    contents.length = position.offset
  fresh : ∀ fileId, position.fileId < fileId ∨ (fileId = position.fileId ∧ position.offset = 0) →
    files.files[fileId]? = none

-- The log of a fresh database.
def FileSet.empty (databaseUuid : Uuid) : FileSet := ⟨∅,∅,databaseUuid,production⟩

theorem EndsAt.empty (databaseUuid : Uuid) : EndsAt (FileSet.empty databaseUuid) ⟨0,0⟩ :=
  ⟨rfl,fun positive => absurd positive (by simp),fun fileId _ => by simp [FileSet.empty]⟩

-- Appending inside the current file.
theorem EndsAt.append {files : FileSet} {position : VLogPosition} {bytes : Bytes} (ends : EndsAt files position)
    (started : 64 ≤ position.offset) (fits : position.offset + bytes.length ≤ 4294967296) :
    EndsAt (files.lay ⟨position,bytes⟩) ⟨position.fileId,position.offset + bytes.length⟩ ∧
      files.Extends (files.lay ⟨position,bytes⟩) ∧ Holds (files.lay ⟨position,bytes⟩) ⟨position,bytes⟩ := by
  obtain ⟨contents,opened,width⟩ := ends.current (by omega)
  obtain ⟨member,stored,valid⟩ := FileSet.handle_ok.mp opened
  have geometry := ends.geometry
  have written : (files.lay ⟨position,bytes⟩).files = files.files.insert position.fileId (contents ++ bytes) := by
    simp only [FileSet.lay,stored,Option.getD_some,writeAt_end width]
  have listed : (files.lay ⟨position,bytes⟩).catalog = files.catalog.insert position.fileId := by
    simp only [FileSet.lay,pageHeaderEncodedLen,fileHeaderEncodedLen]
    exact if_pos (by omega)
  have newer : (files.lay ⟨position,bytes⟩).handle position.fileId = .ok (contents ++ bytes) := by
    refine FileSet.handle_ok.mpr ⟨?_,?_,?_⟩
    · rw [listed]
      simp
    · rw [written]
      simp
    · apply FileSet.validateCandidate_append bytes valid
      simp only [List.length_append,geometry,maxVlogFileSize]
      omega
  refine ⟨⟨geometry,fun _ => ⟨contents ++ bytes,newer,by simp [width]⟩,?_⟩,⟨rfl,rfl,?_⟩,?_⟩
  · intro fileId later
    simp only at later
    rw [written,Std.ExtTreeMap.getElem?_insert,if_neg (by simp; omega)]
    exact ends.fresh fileId (by omega)
  · intro fileId old handled
    by_cases same : fileId = position.fileId
    · subst same
      rw [opened] at handled
      obtain rfl := Except.ok.inj handled
      exact ⟨bytes,newer⟩
    · obtain ⟨present,found,accepted⟩ := FileSet.handle_ok.mp handled
      refine ⟨[],FileSet.handle_ok.mpr ⟨?_,?_,?_⟩⟩
      · rw [listed]
        simp [present]
      · rw [written,Std.ExtTreeMap.getElem?_insert,if_neg (by simpa using fun equal => same equal.symm),List.append_nil]
        exact found
      · rw [List.append_nil]
        exact accepted
  · refine ⟨contents ++ bytes,newer,?_⟩
    rw [slice?_skip (by simp only; omega),width,Nat.sub_self]
    exact slice?_whole rfl

-- Opening the next file with its two headers.
theorem EndsAt.open {files : FileSet} {position : VLogPosition} {file : Nat} {pageBytes fileBytes : Bytes}
    (ends : EndsAt files position)
    (absent : files.files[file]? = none)
    (fresh : ∀ fileId, file < fileId → files.files[fileId]? = none)
    (pageWidth : pageBytes.length = 16)
    (decoded : VLogFileHeader.decode fileBytes = .ok (.new files.databaseUuid file)) (fileWidth : fileBytes.length = 48) :
    let laid := (files.lay ⟨⟨file,0⟩,pageBytes⟩).lay ⟨⟨file,16⟩,fileBytes⟩
    EndsAt laid ⟨file,64⟩ ∧ files.Extends laid ∧ Holds laid ⟨⟨file,0⟩,pageBytes⟩ ∧
      Holds laid ⟨⟨file,16⟩,fileBytes⟩ := by
  intro laid
  have geometry := ends.geometry
  have written : laid.files[file]? = some (pageBytes ++ fileBytes) := by
    simp only [laid,FileSet.lay,absent,Option.getD_none,Std.ExtTreeMap.getElem?_insert_self,Option.getD_some]
    rw [@writeAt_end [] 0 rfl,List.nil_append,writeAt_end pageWidth]
  have others : ∀ fileId, fileId ≠ file → laid.files[fileId]? = files.files[fileId]? := by
    intro fileId apart
    have different : ¬compare file fileId = .eq := by simpa using fun equal => apart equal.symm
    simp only [laid,FileSet.lay,Std.ExtTreeMap.getElem?_insert,if_neg different]
  have listed : ∀ fileId, fileId ∈ laid.catalog ↔ fileId = file ∨ fileId ∈ files.catalog := by
    intro fileId
    rw [@eq_comm _ fileId file]
    simp [laid,FileSet.lay,pageWidth,fileWidth]
  have newer : laid.handle file = .ok (pageBytes ++ fileBytes) := by
    refine FileSet.handle_ok.mpr ⟨(listed file).mpr (.inl rfl),written,FileSet.validateCandidate_ok.mpr
      ⟨?_,fileBytes,?_,_,decoded,rfl,rfl,rfl,rfl⟩⟩
    · change _ ≤ files.geometry.maxFileSize
      simp [geometry,pageWidth,fileWidth]
    · rw [slice?_skip (by omega),pageWidth,Nat.sub_self]
      exact slice?_whole fileWidth
  refine ⟨⟨geometry,fun _ => ⟨_,newer,by simp [pageWidth,fileWidth]⟩,?_⟩,⟨rfl,rfl,?_⟩,⟨_,newer,?_⟩,⟨_,newer,?_⟩⟩
  · intro fileId beyond
    simp only [Nat.reduceEqDiff,and_false,or_false] at beyond
    rw [others fileId (by omega)]
    exact fresh fileId beyond
  · intro fileId old handled
    obtain ⟨present,found,accepted⟩ := FileSet.handle_ok.mp handled
    have apart : fileId ≠ file := by
      rintro rfl
      rw [absent] at found
      cases found
    refine ⟨[],FileSet.handle_ok.mpr ⟨(listed fileId).mpr (.inr present),?_,?_⟩⟩
    · rw [others fileId apart,List.append_nil]
      exact found
    · rw [List.append_nil]
      exact accepted
  · exact slice?_here fileBytes rfl
  · rw [slice?_skip (by simp only; omega),pageWidth,Nat.sub_self]
    exact slice?_whole rfl

section segments
variable {databaseUuid txUuid : Uuid} {commitSeq : Nat}

-- Chunks that follow the end of the log one after the other move the end behind them.
def Lays (files : FileSet) (chunks : List PhysicalChunk) (stop : VLogPosition) : Prop :=
  EndsAt (files.layAll chunks) stop ∧ files.Extends (files.layAll chunks) ∧
    ∀ chunk ∈ chunks, Holds (files.layAll chunks) chunk

theorem Lays.nil {files : FileSet} {position : VLogPosition} (ends : EndsAt files position) : Lays files [] position :=
  ⟨ends,.refl files,by simp⟩

theorem Lays.single {files : FileSet} {chunk : PhysicalChunk} {stop : VLogPosition} (ends : EndsAt (files.lay chunk) stop)
    (grown : files.Extends (files.lay chunk)) (held : Holds (files.lay chunk) chunk) : Lays files [chunk] stop := by
  refine ⟨ends,grown,?_⟩
  intro other member
  obtain rfl := List.mem_singleton.mp member
  exact held

theorem Lays.append {files : FileSet} {front back : List PhysicalChunk} {middle stop : VLogPosition}
    (first : Lays files front middle) (second : Lays (files.layAll front) back stop) :
    Lays files (front ++ back) stop := by
  rw [Lays,FileSet.layAll_append]
  refine ⟨second.1,first.2.1.trans second.2.1,?_⟩
  intro chunk member
  rcases List.mem_append.mp member with left | right
  · exact (first.2.2 chunk left).extends second.2.1
  · exact second.2.2 chunk right

theorem Headers.lays {files : FileSet} {position start : VLogPosition} {headers : List PhysicalChunk}
    (laid : Headers databaseUuid position headers start) (ends : EndsAt files position)
    (identity : files.databaseUuid = databaseUuid) : Lays files headers start := by
  cases laid with
  | inside area => exact .nil ends
  | page bound low inside aligned decoded width =>
    rename_i file offset bytes
    have step := @EndsAt.append _ files ⟨file,offset⟩ bytes ends (by simp only; omega) (by simp only; omega)
    rw [width] at step
    exact .single step.1 step.2.1 step.2.2
  | file stepped bound pageDecoded pageWidth fileDecoded fileWidth =>
    rename_i file pageBytes fileBytes
    have moved := stepped recoveryCorruption
    have fresh : ∀ fileId, file ≤ fileId → files.files[fileId]? = none := by
      intro fileId later
      apply ends.fresh
      obtain ⟨-,same⟩ | ⟨-,-,rolled⟩ := nextPosition_ok moved
      · subst same
        simp only [and_true]
        omega
      · simp only [VLogPosition.mk.injEq] at rolled
        omega
    subst identity
    obtain ⟨done,grown,page,header⟩ := ends.open (fresh file (Nat.le_refl _)) (fun fileId later => fresh fileId (by omega))
      pageWidth fileDecoded fileWidth
    exact ⟨done,grown,by simpa using ⟨page,header⟩⟩

theorem Recorded.lays {files : FileSet} {bytes : Bytes} {entry : Entry} (recorded : Recorded commitSeq txUuid bytes entry)
    (ends : EndsAt files entry.start) : Lays files [⟨entry.start,bytes⟩] entry.next := by
  have good := recorded.good.2.1
  simp only [Entry.next] at good
  have step := @EndsAt.append _ files entry.start bytes ends recorded.area.2.2.2 (by rw [recorded.sized]; exact good)
  rw [recorded.sized] at step
  exact .single step.1 step.2.1 step.2.2

omit [Crc32c] in
theorem FileSet.layAll_identity (files : FileSet) (chunks : List PhysicalChunk) :
    (files.layAll chunks).databaseUuid = files.databaseUuid := by
  induction chunks generalizing files with
  | nil => rfl
  | cons chunk rest ih => exact ih (files.lay chunk)

theorem Segment.lays {files : FileSet} {position : VLogPosition} {chunks : List PhysicalChunk} {entry : Entry}
    (segment : Segment databaseUuid commitSeq txUuid position chunks entry) (ends : EndsAt files position)
    (identity : files.databaseUuid = databaseUuid) : Lays files chunks entry.next := by
  cases segment with
  | direct headers recorded =>
    have opened := headers.lays ends identity
    exact opened.append (recorded.lays opened.1)
  | padded before isPad padding after recorded =>
    have opened := before.lays ends identity
    have padded := opened.append (padding.lays opened.1)
    have reopened := padded.append (after.lays padded.1 ((FileSet.layAll_identity _ _).trans identity))
    have laid := reopened.append (recorded.lays reopened.1)
    simpa using laid

theorem Segments.lays {files : FileSet} {position stop : VLogPosition} {chunks : List PhysicalChunk}
    {entries : List Entry} (segments : Segments databaseUuid commitSeq txUuid position chunks entries stop)
    (ends : EndsAt files position) (identity : files.databaseUuid = databaseUuid) : Lays files chunks stop := by
  induction segments generalizing files with
  | nil => exact .nil ends
  | cons segment _ ih =>
    have first := segment.lays ends identity
    exact first.append (ih first.1 ((FileSet.layAll_identity _ _).trans identity))

theorem EnvelopeLaid.lays {files : FileSet} {position : VLogPosition} {operations : List LogicalOperation}
    {envelope : PreparedEnvelope} (laid : EnvelopeLaid databaseUuid position commitSeq txUuid operations envelope)
    (ends : EndsAt files position) (identity : files.databaseUuid = databaseUuid) :
    Lays files envelope.chunks envelope.vlogEnd := by
  obtain ⟨_,_,_,segments,-,-,-,-⟩ := laid.laid
  exact segments.lays ends identity

end segments

end ExpirKv
