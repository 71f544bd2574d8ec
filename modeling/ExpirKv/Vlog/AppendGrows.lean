import ExpirKv.Vlog.Append

namespace ExpirKv
open VLogGeometry Storage ValueLog

section growing
variable [Crc32c] {files later : FileSet}

-- Files that only grow, inside their limit, stay open to every reader.
theorem FileSet.Extends.of_grown (geometry : later.geometry = files.geometry)
    (identity : later.databaseUuid = files.databaseUuid) (listed : ∀ fileId ∈ files.catalog, fileId ∈ later.catalog)
    (grown : ∀ (fileId : Nat) (contents : Bytes), files.files[fileId]? = some contents →
      ∃ more, later.files[fileId]? = some (contents ++ more) ∧
        (more = [] ∨ (contents ++ more).length ≤ files.geometry.maxFileSize)) : files.Extends later := by
  refine ⟨geometry,identity,?_⟩
  intro fileId contents opened
  obtain ⟨member,found,valid⟩ := FileSet.handle_ok.mp opened
  obtain ⟨more,there,bound⟩ := grown fileId contents found
  refine ⟨more,FileSet.handle_ok.mpr ⟨listed fileId member,there,?_⟩⟩
  have judged : files.validateCandidate fileId (contents ++ more) = .ok () := by
    rcases bound with rfl | fits
    · rw [List.append_nil]
      exact valid
    · exact FileSet.validateCandidate_append more valid fits
  rw [FileSet.validateCandidate_ok] at judged ⊢
  rw [geometry,identity]
  exact judged

omit [Crc32c] in
theorem FileSet.lay_grown {chunk : PhysicalChunk} (ends : (files.files[chunk.position.fileId]?.getD []).length =
      chunk.position.offset) {fileId : Nat} {contents : Bytes} (found : files.files[fileId]? = some contents) :
    ∃ more, (files.lay chunk).files[fileId]? = some (contents ++ more) ∧
      (more = [] ∨ (contents ++ more).length = chunk.position.offset + chunk.bytes.length) := by
  simp only [FileSet.lay,Std.ExtTreeMap.getElem?_insert,Std.LawfulEqCmp.compare_eq_iff_eq]
  by_cases same : chunk.position.fileId = fileId
  · subst same
    rw [found,Option.getD_some] at ends
    refine ⟨chunk.bytes,?_,.inr (by rw [List.length_append,ends])⟩
    rw [if_pos rfl,found,Option.getD_some,writeAt_end ends]
  · exact ⟨[],by rw [if_neg same,found,List.append_nil],.inl rfl⟩

theorem FileSet.lay_extends {chunk : PhysicalChunk} (ends : (files.files[chunk.position.fileId]?.getD []).length =
      chunk.position.offset) (fits : chunk.position.offset + chunk.bytes.length ≤ files.geometry.maxFileSize) :
    files.Extends (files.lay chunk) := by
  refine .of_grown rfl rfl ?_ ?_
  · intro fileId member
    simp only [FileSet.lay]
    split
    · simp [member]
    · exact member
  · intro fileId contents found
    obtain ⟨more,there,size⟩ := FileSet.lay_grown ends found
    exact ⟨more,there,size.imp_right (fun same => by rw [same]; exact fits)⟩

-- Whatever a failed write of a chunk left stands behind what was there.
theorem ChunkFailed.extends {commitSeq : Nat} {before after : ValueLog} {chunk : PhysicalChunk} {error : StorageError}
    (failed : ChunkFailed commitSeq before after chunk error)
    (fits : chunk.position.offset + chunk.bytes.length ≤ before.storage.vlog.geometry.maxFileSize) :
    before.storage.vlog.Extends after.storage.vlog := by
  cases failed.left with
  | untouched vlog _ =>
    rw [vlog]
    exact .refl _
  | part count positive inside ends landed _ =>
    refine .of_grown failed.frame.layout failed.frame.identity (fun _ member => by rw [failed.catalog]; exact member) ?_
    intro fileId contents found
    obtain ⟨more,there,size⟩ := @FileSet.lay_grown _ ⟨chunk.position,chunk.bytes.take count⟩ ends _ _ found
    refine ⟨more,by rw [landed]; exact there,size.imp_right ?_⟩
    intro same
    simp only [List.length_take] at same
    omega
  | created _ absent landed _ _ =>
    refine .of_grown failed.frame.layout failed.frame.identity (fun _ member => by rw [failed.catalog]; exact member) ?_
    intro fileId contents found
    refine ⟨[],?_,.inl rfl⟩
    have apart : chunk.position.fileId ≠ fileId := by
      rintro rfl
      rw [absent] at found
      cases found
    rw [landed,Std.ExtTreeMap.getElem?_insert,if_neg (by simpa using apart),found,List.append_nil]

theorem appendChunks_extends {log : ValueLog} {envelope : PreparedEnvelope} {chunks : List PhysicalChunk}
    (books : Books log) (placed : ∀ chunk ∈ chunks, chunk.bytes ≠ [] ∧
      chunk.position.offset + chunk.bytes.length ≤ log.storage.vlog.geometry.maxFileSize) :
    Delivers (appendChunks envelope chunks) log
      (fun _ after => log.storage.vlog.Extends after.storage.vlog)
      (fun _ after => log.storage.vlog.Extends after.storage.vlog) := by
  induction chunks generalizing log with
  | nil => exact .refl _
  | cons chunk rest ih =>
    obtain ⟨filled,fits⟩ := placed chunk List.mem_cons_self
    simp only [appendChunks]
    rw [delivers_bind,delivers_attempt]
    refine (writeChunk_delivers books filled).mono ?_ ?_
    · intro _ middle landed
      have first : log.storage.vlog.Extends middle.storage.vlog := by
        rw [landed.vlog]
        exact FileSet.lay_extends landed.ends fits
      refine (ih landed.books ?_).mono (fun _ _ more => first.trans more) (fun _ _ more => first.trans more)
      intro other member
      rw [landed.frame.layout]
      exact placed other (List.mem_cons_of_mem _ member)
    · intro error after failed
      rw [delivers_bind,delivers_get]
      split
      · exact failed.extends fits
      · rw [delivers_bind,delivers_onWriter]
        exact failed.extends fits

theorem validateChunks_fits {writer : ValueLogWriter} {chunks : List PhysicalChunk} {expected stop : VLogPosition}
    (accepted : validateChunks writer expected chunks = .ok stop) : ∀ chunk ∈ chunks,
      chunk.position.offset + chunk.bytes.length ≤ writer.geometry.maxFileSize := by
  induction chunks generalizing expected with
  | nil => simp
  | cons chunk rest ih =>
    simp only [validateChunks,bind_ok,exists_unit,rejectIf_ok] at accepted
    obtain ⟨-,-,reached,ended,accepted⟩ := accepted
    simp only [chunkEndForAppend,chunkEnd,mapError_ok,bind_ok,exists_unit,rejectIf_ok,gt_iff_lt,Nat.not_lt] at ended
    have others : ∀ other ∈ rest, other.position.offset + other.bytes.length ≤ writer.geometry.maxFileSize := by
      split at accepted
      · obtain ⟨next,-,accepted⟩ := bind_ok.mp accepted
        exact ih accepted
      · exact ih accepted
    intro other member
    rcases List.mem_cons.mp member with rfl | member
    · exact ended.2.1
    · exact others other member

-- An append never takes anything from a reader, however it ends.
theorem append_extends {log : ValueLog} {envelope : PreparedEnvelope} (books : Books log)
    (layout : log.writer.geometry = log.storage.vlog.geometry) :
    Delivers (append envelope) log (fun _ after => log.storage.vlog.Extends after.storage.vlog)
      (fun _ after => log.storage.vlog.Extends after.storage.vlog) := by
  unfold append
  rw [delivers_bind,delivers_get]
  dsimp only
  split
  · exact .refl _
  · split
    · exact .refl _
    · split
      · exact .refl _
      · rw [delivers_bind,delivers_lift]
        refine ⟨?_,fun _ _ => .refl _⟩
        intro _ checked
        obtain ⟨expected,-,chunks⟩ := (validateEnvelopeChunks_ok checked).stepped
        have fits := validateChunks_fits chunks
        rw [layout] at fits
        rw [delivers_bind]
        refine (appendChunks_extends books (fun chunk member => ⟨(validateChunks_ok chunks).1 chunk member |>.1,
          fits chunk member⟩)).mono ?_ (fun _ _ grown => grown)
        intro _ after grown
        rw [delivers_bind,delivers_get]
        split
        · exact grown
        · exact grown

end growing

end ExpirKv
