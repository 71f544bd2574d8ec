import ExpirKv.Commit.WriterRuns
import ExpirKv.Recovery.TrimExact
import ExpirKv.Vlog.AppendGrows

namespace ExpirKv
open VLogGeometry Storage ValueLog

section inspecting
variable [Crc32c] {format : FormatMetadata} {part whole : Directory} {fileId : Nat} {contents : Bytes}

theorem inspectFile_passes (named : fileId ≤ 999999) (sized : contents.length ≤ 4294967296)
    (headers : 64 ≤ contents.length → validateFileIdentity format fileId contents = .ok ()) :
    inspectFile format (fileId,contents) = .ok ⟨fileId,contents.length⟩ := by
  rw [inspectFile,rejectIf_false (by simp only [maxVlogFileId]; omega),ok_bind,
    rejectIf_false (by simp only [maxVlogFileSize]; omega),ok_bind]
  split
  · rename_i long
    rw [headers long]
    rfl
  · rfl

-- A file of which only the front is there passes where the whole file does.
theorem Inspectable.kept (inspectable : Inspectable format whole) (keeps : Keeps part whole) : Inspectable format part := by
  intro fileId contents found
  obtain ⟨more,there⟩ := keeps fileId contents found
  have passed := inspectable fileId _ there
  by_cases long : 64 ≤ contents.length
  · have front := inspectFile_take long (by rw [List.length_append]; omega) passed
    rwa [List.take_left] at front
  · exact inspectFile_passes (inspectFile_ok passed).2.1 (by omega) (fun enough => absurd enough long)

theorem inspectFile_append (more : Bytes) (long : 64 ≤ contents.length)
    (passed : inspectFile format (fileId,contents) = .ok ⟨fileId,contents.length⟩)
    (fits : (contents ++ more).length ≤ 4294967296) :
    inspectFile format (fileId,contents ++ more) = .ok ⟨fileId,(contents ++ more).length⟩ := by
  obtain ⟨-,named,-,headers⟩ := inspectFile_ok passed
  have front := @validateFileIdentity_take _ format fileId contents.length (contents ++ more) long
    (by rw [List.length_append]; omega)
  rw [List.take_left] at front
  exact inspectFile_passes named fits (fun _ => front.symm.trans (headers long))

end inspecting

section packing
variable [Crc32c] {databaseUuid txUuid : Uuid} {commitSeq : Nat} {files : Directory} {position start stop : VLogPosition}

-- The format that the writer's own file headers carry.
def currentFormat (databaseUuid : Uuid) : FormatMetadata := ⟨fileFormatVersion,databaseUuid,vlogPageSize⟩

def Headed (databaseUuid : Uuid) (fileId : Nat) (contents : Bytes) : Prop :=
  64 ≤ contents.length ∧ inspectFile (currentFormat databaseUuid) (fileId,contents) = .ok ⟨fileId,contents.length⟩

-- The files in front of a position are full, its own ends there, and each begins with its headers.
structure PackedAt (databaseUuid : Uuid) (files : Directory) (position : VLogPosition) : Prop where
  named : position.fileId ≤ 999999
  small : position.offset ≤ 4294967296
  headed : ∀ (fileId : Nat) (contents : Bytes), files[fileId]? = some contents → Headed databaseUuid fileId contents
  full : ∀ fileId < position.fileId, ∃ contents, files[fileId]? = some contents ∧ contents.length = 4294967296
  current : (position.offset = 0 ∧ files[position.fileId]? = none) ∨
    ∃ contents, files[position.fileId]? = some contents ∧ contents.length = position.offset
  fresh : ∀ fileId : Nat, position.fileId < fileId → files[fileId]? = none

theorem PackedAt.inspectable (packed : PackedAt databaseUuid files position) :
    Inspectable (currentFormat databaseUuid) files := fun fileId contents found => (packed.headed fileId contents found).2

theorem PackedAt.reached (packed : PackedAt databaseUuid files position) (begun : position.offset ≠ 0) :
    Reached files position := by
  refine ⟨packed.full,?_⟩
  rcases packed.current with ⟨zero,-⟩ | ⟨contents,found,width⟩
  · exact absurd zero begun
  · exact ⟨contents,found,Nat.le_of_eq width.symm⟩

theorem PackedAt.empty : PackedAt databaseUuid ∅ ⟨0,0⟩ :=
  ⟨Nat.zero_le _,Nat.zero_le _,fun fileId contents found => (by simp at found),fun fileId below => absurd below (Nat.not_lt_zero _),
    .inl ⟨rfl,by simp⟩,fun fileId _ => by simp⟩

omit [Crc32c] in
theorem putBehind_getElem? (chunk : PhysicalChunk) (fileId : Nat) :
    (putBehind files chunk)[fileId]? =
      if chunk.position.fileId = fileId then some (files[chunk.position.fileId]?.getD [] ++ chunk.bytes)
      else files[fileId]? := by
  rw [putBehind,Std.ExtTreeMap.getElem?_insert]
  simp only [Std.LawfulEqCmp.compare_eq_iff_eq]

-- Bytes behind the end of the current file.
theorem PackedAt.put (packed : PackedAt databaseUuid files position) (begun : position.offset ≠ 0) (bytes : Bytes)
    (fits : position.offset + bytes.length ≤ 4294967296) :
    PackedAt databaseUuid (putBehind files ⟨position,bytes⟩) ⟨position.fileId,position.offset + bytes.length⟩ := by
  obtain ⟨contents,found,width⟩ : ∃ contents, files[position.fileId]? = some contents ∧
      contents.length = position.offset := by
    rcases packed.current with ⟨zero,-⟩ | current
    · exact absurd zero begun
    · exact current
  have there : (putBehind files ⟨position,bytes⟩)[position.fileId]? = some (contents ++ bytes) := by
    rw [putBehind_getElem?,if_pos rfl,found,Option.getD_some]
  have others : ∀ fileId, position.fileId ≠ fileId →
      (putBehind files ⟨position,bytes⟩)[fileId]? = files[fileId]? := by
    intro fileId apart
    rw [putBehind_getElem?,if_neg apart]
  obtain ⟨long,passed⟩ := packed.headed _ _ found
  refine ⟨packed.named,fits,?_,?_,.inr ⟨_,there,by rw [List.length_append,width]⟩,?_⟩
  · intro fileId stored present
    by_cases same : position.fileId = fileId
    · subst same
      obtain rfl := Option.some.inj (there.symm.trans present)
      have width : (contents ++ bytes).length ≤ 4294967296 := by rw [List.length_append]; omega
      exact ⟨by rw [List.length_append]; omega,inspectFile_append bytes long passed width⟩
    · rw [others fileId same] at present
      exact packed.headed fileId stored present
  · intro fileId below
    simp only at below
    rw [others fileId (by omega)]
    exact packed.full fileId below
  · intro fileId above
    simp only at above
    rw [others fileId (by omega)]
    exact packed.fresh fileId above

-- The headers of a new file.
theorem PackedAt.open {file : Nat} {pageBytes fileBytes : Bytes} (packed : PackedAt databaseUuid files position)
    (moved : (position.offset < 4294967296 ∧ ⟨file,0⟩ = position) ∨
      (position.offset = 4294967296 ∧ file = position.fileId + 1)) (named : file ≤ 999999)
    (page : PageHeader.decode pageBytes = .ok ⟨file,0⟩) (pageWidth : pageBytes.length = 16)
    (header : VLogFileHeader.decode fileBytes = .ok (.new databaseUuid file)) (fileWidth : fileBytes.length = 48) :
    PackedAt databaseUuid (putBehind (putBehind files ⟨⟨file,0⟩,pageBytes⟩) ⟨⟨file,16⟩,fileBytes⟩) ⟨file,64⟩ := by
  have absent : files[file]? = none ∧ (∀ fileId, file < fileId → files[fileId]? = none) ∧
      ∀ fileId < file, ∃ contents, files[fileId]? = some contents ∧ contents.length = 4294967296 := by
    rcases moved with ⟨-,rfl⟩ | ⟨ended,rfl⟩
    · refine ⟨?_,packed.fresh,packed.full⟩
      rcases packed.current with ⟨-,none⟩ | ⟨contents,found,width⟩
      · exact none
      · have long := (packed.headed _ _ found).1
        simp only at width
        omega
    · refine ⟨packed.fresh _ (Nat.lt_succ_self _),fun fileId above => packed.fresh fileId (by omega),?_⟩
      intro fileId below
      rcases Nat.lt_succ_iff_lt_or_eq.mp below with lower | rfl
      · exact packed.full fileId lower
      · rcases packed.current with ⟨zero,-⟩ | ⟨contents,found,width⟩
        · omega
        · exact ⟨contents,found,width.trans ended⟩
  obtain ⟨absent,fresh,full⟩ := absent
  have there : (putBehind (putBehind files ⟨⟨file,0⟩,pageBytes⟩) ⟨⟨file,16⟩,fileBytes⟩)[file]? =
      some (pageBytes ++ fileBytes) := by
    simp only [putBehind_getElem?,if_true,absent,Option.getD_none,List.nil_append,Option.getD_some]
  have others : ∀ fileId, file ≠ fileId →
      (putBehind (putBehind files ⟨⟨file,0⟩,pageBytes⟩) ⟨⟨file,16⟩,fileBytes⟩)[fileId]? = files[fileId]? := by
    intro fileId apart
    simp only [putBehind_getElem?,if_neg apart]
  have width : (pageBytes ++ fileBytes).length = 64 := by rw [List.length_append,pageWidth,fileWidth]
  have valid : validateFileIdentity (currentFormat databaseUuid) file (pageBytes ++ fileBytes) = .ok () := by
    have front : slice? (pageBytes ++ fileBytes) 0 pageHeaderEncodedLen = some pageBytes := slice?_here fileBytes pageWidth
    have back : slice? (pageBytes ++ fileBytes) pageHeaderEncodedLen fileHeaderEncodedLen = some fileBytes := by
      rw [slice?_skip (by simp only [pageHeaderEncodedLen]; omega),pageWidth]
      exact slice?_whole fileWidth
    simp [validateFileIdentity,front,back,orError,page,header,Except.mapError,VLogFileHeader.new,currentFormat,rejectIf]
  refine ⟨named,by simp only; omega,?_,?_,.inr ⟨_,there,width⟩,?_⟩
  · intro fileId stored present
    by_cases same : file = fileId
    · subst same
      obtain rfl := Option.some.inj (there.symm.trans present)
      exact ⟨Nat.le_of_eq width.symm,inspectFile_passes named (by omega) (fun _ => valid)⟩
    · rw [others fileId same] at present
      exact packed.headed fileId stored present
  · intro fileId below
    rw [others fileId (by simp only at below; omega)]
    exact full fileId below
  · intro fileId above
    rw [others fileId (by simp only at above; omega)]
    exact fresh fileId above

theorem Headers.packs {headers : List PhysicalChunk} (laid : Headers databaseUuid position headers start)
    (packed : PackedAt databaseUuid files position) : PackedAt databaseUuid (headers.foldl putBehind files) start := by
  cases laid with
  | inside area => exact packed
  | page bound low inside aligned decoded width =>
    rename_i file offset bytes
    have laid := packed.put (Nat.ne_of_gt low) bytes (by simp only; omega)
    rw [width] at laid
    exact laid
  | file stepped bound pageDecoded pageWidth fileDecoded fileWidth =>
    refine packed.open ?_ bound pageDecoded pageWidth fileDecoded fileWidth
    rcases nextPosition_ok (stepped recoveryCorruption) with ⟨inside,same⟩ | ⟨ended,-,rolled⟩
    · exact .inl ⟨inside,same⟩
    · exact .inr ⟨ended,congrArg VLogPosition.fileId rolled⟩

theorem Recorded.packs {bytes : Bytes} {entry : Entry} (recorded : Recorded commitSeq txUuid bytes entry)
    (packed : PackedAt databaseUuid files entry.start) :
    PackedAt databaseUuid (putBehind files ⟨entry.start,bytes⟩) entry.next := by
  have area := recorded.area
  have good := recorded.good.2.1
  simp only [Entry.next] at good
  have laid := packed.put (by have := area.2.2.2; omega) bytes (by rw [recorded.sized]; exact good)
  rw [recorded.sized] at laid
  exact laid

theorem Segment.packs {chunks : List PhysicalChunk} {entry : Entry}
    (segment : Segment databaseUuid commitSeq txUuid position chunks entry)
    (packed : PackedAt databaseUuid files position) :
    PackedAt databaseUuid (chunks.foldl putBehind files) entry.next := by
  cases segment with
  | direct headers recorded =>
    rw [List.foldl_append]
    exact recorded.packs (headers.packs packed)
  | padded before isPad padding after recorded =>
    rw [List.foldl_append,List.foldl_cons,List.foldl_append]
    exact recorded.packs (after.packs (padding.packs (before.packs packed)))

theorem Segments.packs {chunks : List PhysicalChunk} {entries : List Entry}
    (segments : Segments databaseUuid commitSeq txUuid position chunks entries stop)
    (packed : PackedAt databaseUuid files position) : PackedAt databaseUuid (chunks.foldl putBehind files) stop := by
  induction segments generalizing files with
  | nil => exact packed
  | cons segment _ ih =>
    rw [List.foldl_append]
    exact ih (segment.packs packed)

theorem EnvelopeLaid.packs {operations : List LogicalOperation} {envelope : PreparedEnvelope}
    (laid : EnvelopeLaid databaseUuid position commitSeq txUuid operations envelope)
    (packed : PackedAt databaseUuid files position) :
    PackedAt databaseUuid (envelope.chunks.foldl putBehind files) envelope.vlogEnd := by
  obtain ⟨_,_,_,segments,-⟩ := laid.laid
  exact segments.packs packed

end packing

section tearing
variable [Crc32c] {log after : ValueLog} {envelope : PreparedEnvelope}

omit [Crc32c] in
-- A failed write of a chunk left no byte that the chunk would not have put there.
theorem ChunkFailed.torn {commitSeq : Nat} {chunk : PhysicalChunk} {error : StorageError}
    (failed : ChunkFailed commitSeq log after chunk error) :
    Keeps after.storage.vlog.files (putBehind log.storage.vlog.files chunk) := by
  cases failed.left with
  | untouched vlog _ =>
    rw [vlog]
    exact putBehind_keeps _ _
  | part count positive inside ends landed _ =>
    have files := @lay_files log.storage ⟨chunk.position,chunk.bytes.take count⟩ ends
    rw [landed,files]
    intro fileId contents found
    rw [putBehind_getElem?] at found ⊢
    split at found
    · rename_i same
      obtain rfl := Option.some.inj found
      refine ⟨chunk.bytes.drop count,?_⟩
      rw [if_pos same]
      simp only [List.append_assoc,List.take_append_drop]
    · rename_i apart
      exact ⟨[],by rw [if_neg apart,found,List.append_nil]⟩
  | created _ absent landed _ _ =>
    intro fileId contents found
    rw [landed,Std.ExtTreeMap.getElem?_insert] at found
    rw [putBehind_getElem?]
    simp only [Std.LawfulEqCmp.compare_eq_iff_eq] at found
    split at found
    · rename_i same
      obtain rfl := Option.some.inj found
      exact ⟨chunk.bytes,by rw [if_pos same,absent,Option.getD_none]⟩
    · rename_i apart
      exact ⟨[],by rw [if_neg apart,found,List.append_nil]⟩

omit [Crc32c] in
theorem Keeps.refl (files : Directory) : Keeps files files :=
  fun _ _ found => ⟨[],by rw [List.append_nil]; exact found⟩

omit [Crc32c] in
theorem appendChunks_torn {chunks : List PhysicalChunk} (books : Books log)
    (filled : ∀ chunk ∈ chunks, chunk.bytes ≠ []) :
    Delivers (appendChunks envelope chunks) log
      (fun _ after => Keeps after.storage.vlog.files (chunks.foldl putBehind log.storage.vlog.files))
      (fun _ after => Keeps after.storage.vlog.files (chunks.foldl putBehind log.storage.vlog.files)) := by
  induction chunks generalizing log with
  | nil => exact .refl _
  | cons chunk rest ih =>
    simp only [appendChunks]
    rw [delivers_bind,delivers_attempt]
    refine (writeChunk_delivers books (filled chunk List.mem_cons_self)).mono ?_ ?_
    · intro _ middle landed
      have files : middle.storage.vlog.files = putBehind log.storage.vlog.files chunk := by
        rw [landed.vlog,lay_files landed.ends]
      have later := ih landed.books (fun other member => filled other (List.mem_cons_of_mem _ member))
      rw [files] at later
      exact later
    · intro error after failed
      have torn := failed.torn.trans (foldl_putBehind_keeps rest (putBehind log.storage.vlog.files chunk))
      rw [delivers_bind,delivers_get]
      split
      · exact torn
      · rw [delivers_bind,delivers_onWriter]
        exact torn

-- However an append ends, its files are a front of what the whole envelope would have left.
theorem append_torn (books : Books log) :
    Delivers (append envelope) log
      (fun _ after => Keeps after.storage.vlog.files (envelope.chunks.foldl putBehind log.storage.vlog.files))
      (fun _ after => Keeps after.storage.vlog.files (envelope.chunks.foldl putBehind log.storage.vlog.files)) := by
  have refused := foldl_putBehind_keeps envelope.chunks log.storage.vlog.files
  unfold append
  rw [delivers_bind,delivers_get]
  dsimp only
  split
  · exact refused
  · split
    · exact refused
    · split
      · exact refused
      · rw [delivers_bind,delivers_lift]
        refine ⟨?_,fun _ _ => refused⟩
        intro _ checked
        obtain ⟨expected,-,chunks⟩ := (validateEnvelopeChunks_ok checked).stepped
        rw [delivers_bind]
        refine (appendChunks_torn books (fun chunk member => (validateChunks_ok chunks).1 chunk member |>.1)).mono ?_
          (fun _ _ torn => torn)
        intro _ after torn
        rw [delivers_bind,delivers_get]
        split
        · exact torn
        · exact torn

end tearing

end ExpirKv
