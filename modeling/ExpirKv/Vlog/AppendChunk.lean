import ExpirKv.Vlog.Books

namespace ExpirKv
open VLogGeometry Storage

section chunks
variable {log : ValueLog}

theorem FileSet.eq_of {left right : FileSet} (files : left.files = right.files) (catalog : left.catalog = right.catalog)
    (identity : left.databaseUuid = right.databaseUuid) (geometry : left.geometry = right.geometry) : left = right := by
  cases left
  cases right
  simp only at files catalog identity geometry
  rw [files,catalog,identity,geometry]

namespace ValueLog

@[simp] theorem delivers_onStorage {ε α : Type} {x : Eff Storage ε α} {post : α → ValueLog → Prop}
    {fail : ε → ValueLog → Prop} :
    Delivers (onStorage x) log post fail ↔
      Delivers x log.storage (fun value storage => post value {log with storage})
        (fun error storage => fail error {log with storage}) := delivers_within

@[simp] theorem delivers_onWriter {ε : Type} {change : ValueLogWriter → ValueLogWriter} {post : Unit → ValueLog → Prop}
    {fail : ε → ValueLog → Prop} :
    Delivers (onWriter change) log post fail ↔ post () {log with writer := change log.writer} := Iff.rfl

end ValueLog

open ValueLog

-- A call that only used up an answer.
def ValueLog.scripted (log : ValueLog) (script : List Answer) : ValueLog :=
  {log with storage := {log.storage with script}}

theorem createFile_delivers (commitSeq fileId : Nat) (position : VLogPosition) (previousState : AppendState) :
    Delivers (createFile commitSeq fileId position previousState) log
      (fun previous after => previous = some previousState ∧ position = ⟨fileId,0⟩ ∧
        log.storage.vlog.files[fileId]? = none ∧ ∃ script, after = log.withNewFile fileId commitSeq script)
      (fun _ after => ∃ script, after = log.scripted script) := by
  simp only [createFile,delivers_bind,delivers_get]
  split
  · exact ⟨log.storage.script,rfl⟩
  · rename_i fits
    simp only [not_or,not_not] at fits
    simp only [delivers_bind,delivers_mapError,delivers_onStorage,Storage.createNew,delivers_get]
    split
    · exact ⟨log.storage.script,rfl⟩
    · rename_i absent
      refine delivers_perform ?_ ?_
      · intro script
        refine ⟨rfl,?_,?_,script,rfl⟩
        · obtain ⟨same,zero,-⟩ := fits
          rw [show position = ⟨position.fileId,position.offset⟩ from rfl,←same,zero]
        · simpa using absent
      · intro error script
        exact ⟨script,rfl⟩

-- The file a chunk goes to: the open one, or a new one in place of a terminal state.
theorem ensureFileForChunk_delivers (commitSeq : Nat) (position : VLogPosition) :
    Delivers (ensureFileForChunk commitSeq position) log
      (fun previous after =>
        (previous = none ∧ after = log ∧ log.writer.state = .open position.fileId position.offset) ∨
        (previous = some log.writer.state ∧ position.offset = 0 ∧
          log.storage.vlog.files[position.fileId]? = none ∧
          ∃ script, after = log.withNewFile position.fileId commitSeq script))
      (fun _ after => ∃ script, after = log.scripted script) := by
  simp only [ensureFileForChunk,delivers_bind,delivers_get]
  split
  · rename_i state
    refine (createFile_delivers commitSeq 0 position .empty).mono ?_ (fun _ _ failed => failed)
    rintro previous after ⟨rfl,rfl,absent,created⟩
    exact .inr ⟨by rw [state],rfl,absent,created⟩
  · rename_i fileId offset state
    split
    · rename_i here
      exact .inl ⟨rfl,rfl,by rw [state,here.1,here.2]⟩
    · exact ⟨log.storage.script,rfl⟩
  · rename_i last state
    refine (createFile_delivers commitSeq (last + 1) position (.atFileLimit last)).mono ?_ (fun _ _ failed => failed)
    rintro previous after ⟨rfl,rfl,absent,created⟩
    exact .inr ⟨by rw [state],rfl,absent,created⟩

-- A new file that stayed empty goes away without a trace, or stays as it is.
theorem rollbackNewEmptyFile_delivers {fileId commitSeq : Nat} {script : List Answer} {storage : Storage}
    (books : Books log) (absent : log.storage.vlog.files[fileId]? = none)
    (grew : Grew fileId [] (log.withNewFile fileId commitSeq script).storage storage) :
    Delivers (rollbackNewEmptyFile fileId log.writer.state)
      {log.withNewFile fileId commitSeq script with storage}
      (fun _ after => Frame commitSeq log after ∧ Books after ∧ after.storage.vlog = log.storage.vlog ∧
        after.writer = log.writer)
      (fun _ after => ∃ script', after =
        {log.withNewFile fileId commitSeq script with storage := {storage with script := script'}}) := by
  have created : (log.withNewFile fileId commitSeq script).storage.vlog.files[fileId]? ≠ none := by
    rw [withNewFile_files,if_pos rfl]
    exact Option.some_ne_none _
  obtain ⟨same,-⟩ := (Books.withNewFile books).unmoved created grew
  have covers := (Books.withNewFile books).covers created grew
  have listed : storage.vlog.files.contains fileId = true := by
    rw [same]
    simp [ValueLog.withNewFile,Storage.setFile,Storage.record]
  simp only [rollbackNewEmptyFile,delivers_bind,delivers_onStorage,Storage.fileLen]
  refine delivers_perform ?_ (fun _ script => ⟨script,rfl⟩)
  intro one
  simp only [id_eq,delivers_get,delivers_pure]
  split
  · exact ⟨one,rfl⟩
  · simp only [delivers_bind,delivers_onStorage,Storage.removeFile,delivers_get,listed,Bool.true_eq_false,
      if_false]
    refine delivers_perform ?_ (fun _ script => ⟨script,rfl⟩)
    intro two
    have unlisted : log.writer.dirty.pendingDirectoryEntries[fileId]? = none := by
      by_contra member
      exact books.pending fileId (Std.ExtTreeMap.mem_iff_isSome_getElem?.mpr (Option.isSome_iff_ne_none.mpr member)) absent
    have files : (log.storage.vlog.files.insert fileId []).erase fileId = log.storage.vlog.files := erase_insert absent
    have entries : (log.writer.dirty.pendingDirectoryEntries.insert fileId commitSeq).erase fileId =
        log.writer.dirty.pendingDirectoryEntries := erase_insert unlisted
    have dirty : log.writer.dirty.dirtyFiles.erase fileId = log.writer.dirty.dirtyFiles :=
      erase_absent (fun member => books.dirty fileId member absent)
    have vlog : ({storage.vlog with files := storage.vlog.files.erase fileId} : FileSet) = log.storage.vlog := by
      rw [same]
      simp only [ValueLog.withNewFile,Storage.setFile,Storage.record,files]
    obtain ⟨events,trace,wrote⟩ := grew.trace
    have settled : ∀ other, log.storage.vlog.files[other]? ≠ none →
        Event.covered (.removed fileId :: storage.trace) other = Event.covered log.storage.trace other ∧
          Event.linked (.removed fileId :: storage.trace) other = Event.linked log.storage.trace other := by
      intro other found
      have apart : fileId ≠ other := by
        rintro rfl
        exact found absent
      have kept := covers other
      simp only [ValueLog.withNewFile,Storage.setFile,Storage.record,Event.covered,Event.linked,if_neg apart] at kept
      simp only [Event.covered,Event.linked,if_neg apart,kept]
      simp [apart]
    have framed : Frame commitSeq log ⟨({storage with vlog := log.storage.vlog,script := two} : Storage).record (.removed fileId),
        log.writer⟩ := by
      refine ⟨rfl,rfl,rfl,rfl,rfl,rfl,grew.index,rfl,rfl,⟨.removed fileId :: (events ++ [.created fileId]),?_,?_⟩,
        fun _ _ found => .inl found,fun other found => ⟨found,settled other found⟩⟩
      · simp only [Storage.record,trace,ValueLog.withNewFile,Storage.setFile,List.cons_append,List.append_assoc,
          List.nil_append]
      · intro event member
        simp only [List.mem_cons,List.mem_append,List.not_mem_nil,or_false] at member
        rcases member with rfl | member | rfl
        · trivial
        · obtain ⟨offset,len,rfl,-⟩ := wrote event member
          trivial
        · trivial
    have books : Books ⟨({storage with vlog := log.storage.vlog,script := two} : Storage).record (.removed fileId),
        log.writer⟩ := by
      exact books.same rfl rfl rfl settled
    simp only [delivers_onWriter]
    refine ⟨?_,?_,vlog,?_⟩
    all_goals simp only [ValueLog.withNewFile,entries,dirty]
    · rw [←vlog] at framed
      exact framed
    · rw [←vlog] at books
      exact books

-- Everything a failed write of a chunk can leave: nothing, a part of the chunk, or the empty file made for it.
inductive ChunkLeft (before after : ValueLog) (chunk : PhysicalChunk) (error : StorageError) : Prop
  | untouched : after.storage.vlog = before.storage.vlog → after.writer = before.writer → ChunkLeft before after chunk error
  | part (count : Nat) : 0 < count → count ≤ chunk.bytes.length →
      (before.storage.contents chunk.position.fileId).length = chunk.position.offset →
      after.storage.vlog.files = (before.storage.vlog.lay ⟨chunk.position,chunk.bytes.take count⟩).files →
      after.writer.position = ⟨chunk.position.fileId,chunk.position.offset + count⟩ → ChunkLeft before after chunk error
  | created : chunk.position.offset = 0 → before.storage.vlog.files[chunk.position.fileId]? = none →
      after.storage.vlog.files = before.storage.vlog.files.insert chunk.position.fileId [] →
      after.writer.position = chunk.position → error.kind ≠ .resourceExhausted → ChunkLeft before after chunk error

-- A chunk that landed.
structure Landed (commitSeq : Nat) (before after : ValueLog) (chunk : PhysicalChunk) : Prop where
  frame : Frame commitSeq before after
  books : Books after
  ends : (before.storage.contents chunk.position.fileId).length = chunk.position.offset
  vlog : after.storage.vlog = before.storage.vlog.lay chunk
  position : after.writer.position = chunk.next

-- A chunk that did not.
structure ChunkFailed (commitSeq : Nat) (before after : ValueLog) (chunk : PhysicalChunk) (error : StorageError) :
    Prop where
  frame : Frame commitSeq before after
  books : Books after
  catalog : after.storage.vlog.catalog = before.storage.vlog.catalog
  left : ChunkLeft before after chunk error

-- The log at the moment the bytes of a chunk are due: its file is open at the place of the chunk.
structure Ready (commitSeq : Nat) (before log : ValueLog) (chunk : PhysicalChunk) (previous : Option AppendState) :
    Prop where
  frame : Frame commitSeq before log
  books : Books log
  opened : log.writer.state = .open chunk.position.fileId chunk.position.offset
  present : ∃ contents, log.storage.vlog.files[chunk.position.fileId]? = some contents ∧
    contents.length = chunk.position.offset
  kept : (previous = none ∧ log.storage.vlog = before.storage.vlog ∧ log.writer = before.writer) ∨
    (previous = some before.writer.state ∧ chunk.position.offset = 0 ∧
      before.storage.vlog.files[chunk.position.fileId]? = none ∧
      ∃ script, log = before.withNewFile chunk.position.fileId commitSeq script)

-- In both cases the bytes of the chunk end up where `lay` puts them.
theorem Ready.lays {before : ValueLog} {chunk : PhysicalChunk} {previous : Option AppendState} {commitSeq : Nat}
    {bytes : Bytes} {after : Storage} (ready : Ready commitSeq before log chunk previous) (grew : Grew chunk.position.fileId bytes log.storage after) :
    after.vlog.files = (before.storage.vlog.lay ⟨chunk.position,bytes⟩).files ∧
      after.vlog.catalog = before.storage.vlog.catalog := by
  obtain ⟨contents,found,width⟩ := ready.present
  have here : log.storage.contents chunk.position.fileId = contents := by rw [Storage.contents,found,Option.getD_some]
  rw [grew.vlog,here]
  rcases ready.kept with ⟨-,same,-⟩ | ⟨-,zero,absent,script,rfl⟩
  · rw [same] at found ⊢
    simp only [FileSet.lay,found,Option.getD_some,writeAt_end width,and_self]
  · rw [withNewFile_files,if_pos rfl] at found
    obtain rfl := Option.some.inj found
    simp only [ValueLog.withNewFile,Storage.setFile,Storage.record,insert_insert,FileSet.lay,absent,Option.getD_none,zero,
      writeAt_end (show ([] : Bytes).length = 0 from rfl),and_self]

theorem Ready.ends {before : ValueLog} {chunk : PhysicalChunk} {previous : Option AppendState} {commitSeq : Nat}
    (ready : Ready commitSeq before log chunk previous) :
    (before.storage.contents chunk.position.fileId).length = chunk.position.offset := by
  obtain ⟨contents,found,width⟩ := ready.present
  rcases ready.kept with ⟨-,same,-⟩ | ⟨-,zero,absent,-⟩
  · rw [same] at found
    rw [Storage.contents,found,Option.getD_some,width]
  · rw [Storage.contents,absent,Option.getD_none,zero,List.length_nil]

theorem Ready.standing {before : ValueLog} {chunk : PhysicalChunk} {previous : Option AppendState} {commitSeq : Nat}
    (ready : Ready commitSeq before log chunk previous) : log.storage.vlog.files[chunk.position.fileId]? ≠ none := by
  obtain ⟨contents,found,-⟩ := ready.present
  rw [found]
  exact Option.some_ne_none _

theorem Ready.part {before : ValueLog} {chunk : PhysicalChunk} {previous : Option AppendState} {commitSeq : Nat}
    {bytes : Bytes} {after : Storage} {offset : Nat} (ready : Ready commitSeq before log chunk previous)
    (grew : Grew chunk.position.fileId bytes log.storage after) :
    Frame commitSeq before (log.grown chunk.position.fileId offset after) :=
  ready.frame.trans (.grew ready.books ready.standing grew ⟨rfl,rfl,rfl,rfl,rfl,rfl,rfl⟩)

theorem ensureFileForChunk_ready {commitSeq : Nat} {chunk : PhysicalChunk} (books : Books log) :
    Delivers (ensureFileForChunk commitSeq chunk.position) log (fun previous after => Ready commitSeq log after chunk previous)
      (fun error after => ChunkFailed commitSeq log after chunk error) := by
  refine (ensureFileForChunk_delivers commitSeq chunk.position).mono ?_ ?_
  · rintro previous after (⟨rfl,rfl,state⟩ | ⟨rfl,zero,absent,script,rfl⟩)
    · exact ⟨.refl after.storage.script,books,state,books.current _ _ state,.inl ⟨rfl,rfl,rfl⟩⟩
    · refine ⟨.withNewFile absent,books.withNewFile,by rw [zero]; rfl,⟨[],?_,zero.symm⟩,
        .inr ⟨rfl,zero,absent,script,rfl⟩⟩
      rw [withNewFile_files,if_pos rfl]
  · rintro error after ⟨script,rfl⟩
    exact ⟨.refl script,books.scripted script,rfl,.untouched rfl rfl⟩

-- A step that came to nothing.
structure Unchanged (commitSeq : Nat) (before after : ValueLog) : Prop where
  frame : Frame commitSeq before after
  books : Books after
  vlog : after.storage.vlog = before.storage.vlog
  writer : after.writer = before.writer

theorem Unchanged.scripted {commitSeq : Nat} (books : Books log) (script : List Answer) : Unchanged commitSeq log (log.scripted script) :=
  ⟨.refl script,books.scripted script,rfl,rfl⟩

-- A chunk whose bytes stand, entered into the catalog once both headers of its file do.
structure Finished (commitSeq : Nat) (before after : ValueLog) (fileId offset : Nat) : Prop where
  frame : Frame commitSeq before after
  books : Books after
  files : after.storage.vlog.files = before.storage.vlog.files
  catalog : after.storage.vlog.catalog =
    (if offset ≥ 64 then before.storage.vlog.catalog.insert fileId else before.storage.vlog.catalog)
  position : after.writer.position = ⟨fileId,offset⟩

theorem register_delivers {storage : Storage} {fileId : Nat} {post : Unit → Storage → Prop}
    {fail : StorageError → Storage → Prop}
    (good : ∀ script, post () {storage with
      vlog := {storage.vlog with catalog := storage.vlog.catalog.insert fileId}
      script})
    (bad : ∀ error script, fail error {storage with script}) : Delivers (Storage.register fileId) storage post fail := by
  unfold Storage.register
  split
  · exact bad _ storage.script
  · simp only [delivers_bind,delivers_mapError,delivers_modify]
    exact delivers_perform good (fun _ script => bad _ script)

-- The file limit only gives another name to the same position.
theorem finishLimit_delivers {commitSeq fileId offset : Nat} {catalog : Std.ExtTreeSet Nat compare} {script : List Answer}
    (books : Books log) (opened : log.writer.state = .open fileId offset)
    (listed : catalog = if offset ≥ 64 then log.storage.vlog.catalog.insert fileId else log.storage.vlog.catalog)
    {fail : StorageError → ValueLog → Prop} :
    Delivers (do
        if offset = (← get).writer.geometry.maxFileSize then
          onWriter (fun writer => {writer with state := .atFileLimit fileId}) : Eff ValueLog StorageError Unit)
      {log with storage := {log.storage with vlog := {log.storage.vlog with catalog},script}}
      (fun _ after => Finished commitSeq log after fileId offset) fail := by
  have settled := books.scripted script
  rw [delivers_bind,delivers_get]
  split
  · rename_i full
    refine ⟨⟨rfl,rfl,rfl,rfl,rfl,rfl,rfl,rfl,rfl,⟨[],rfl,by simp⟩,fun _ _ found => .inl found,
        fun _ present => ⟨present,rfl,rfl⟩⟩,
      ⟨?_,settled.dirty,settled.pending,settled.bounded,settled.clean,settled.linked⟩,rfl,listed,by simp [ValueLogWriter.position,statePosition,full]⟩
    intro other place here
    cases here
  · exact ⟨⟨rfl,rfl,rfl,rfl,rfl,rfl,rfl,rfl,rfl,⟨[],rfl,by simp⟩,fun _ _ found => .inl found,
        fun _ present => ⟨present,rfl,rfl⟩⟩,
      ⟨settled.current,settled.dirty,settled.pending,settled.bounded,settled.clean,settled.linked⟩,rfl,listed,by simp [ValueLogWriter.position,statePosition,opened]⟩

theorem finishChunk_delivers {commitSeq fileId offset : Nat} (books : Books log)
    (opened : log.writer.state = .open fileId offset) :
    Delivers (finishChunk commitSeq) log (fun _ after => Finished commitSeq log after fileId offset)
      (fun _ after => Unchanged commitSeq log after) := by
  simp only [finishChunk,delivers_bind,delivers_get,opened,pageHeaderEncodedLen,fileHeaderEncodedLen]
  split
  · rename_i stands
    rw [delivers_bind,delivers_mapError,delivers_onStorage]
    refine register_delivers ?_ (fun _ script => .scripted books script)
    intro script
    exact finishLimit_delivers books opened (if_pos stands).symm
  · rename_i short
    exact finishLimit_delivers books opened (if_neg short).symm

theorem appendIo_retryable {commitSeq : Nat} {position : VLogPosition} {progress : Bool} {source : IoError}
    (kind : (appendIo commitSeq position progress source).kind = .resourceExhausted) :
    progress = false ∧ source.transient = true := by
  unfold appendIo at kind
  simp only [StorageError.codecError] at kind
  split at kind
  · cases kind
  · split at kind
    · rename_i both
      simpa using both
    · cases kind

theorem failChunk_delivers {before : ValueLog} {chunk : PhysicalChunk} {previous : Option AppendState} {storage : Storage}
    {commitSeq : Nat} {transient : Bool} {error : StorageError} (books : Books before)
    (ready : Ready commitSeq before log chunk previous) (grew : Grew chunk.position.fileId [] log.storage storage)
    (kind : transient = false → error.kind = .resourceExhausted → False) :
    Delivers (failChunk commitSeq chunk.position.fileId previous transient error) {log with storage}
      (fun _ _ => False) (fun error after => ChunkFailed commitSeq before after chunk error) := by
  obtain ⟨same,kept⟩ := ready.books.unmoved ready.standing grew
  have framed : Frame commitSeq before {log with storage} :=
    ready.frame.trans (.grew ready.books ready.standing grew ⟨rfl,rfl,rfl,rfl,rfl,rfl,rfl⟩)
  obtain ⟨files,catalog⟩ := ready.lays grew
  rcases ready.kept with ⟨rfl,vlog,writer⟩ | ⟨rfl,zero,absent,script,rfl⟩
  · have plain : ChunkFailed commitSeq before {log with storage} chunk error :=
      ⟨framed,kept,catalog,.untouched (same.trans vlog) writer⟩
    unfold failChunk
    rw [delivers_bind,delivers_get]
    split
    · contradiction
    · exact plain
  · have empty : storage.vlog.files = before.storage.vlog.files.insert chunk.position.fileId [] := by
      rw [same]
      rfl
    have left : ∀ error : StorageError, ∀ script', error.kind ≠ .resourceExhausted →
        ChunkFailed commitSeq before {before.withNewFile chunk.position.fileId commitSeq script with
          storage := {storage with script := script'}} chunk error := by
      intro error script' firm
      refine ⟨?_,kept.scripted script',catalog,.created zero absent empty ?_ firm⟩
      · exact framed.trans (.refl script')
      · simp only [ValueLog.withNewFile,ValueLogWriter.position,statePosition]
        rw [←zero]
    unfold failChunk
    rw [delivers_bind,delivers_get]
    split
    · rename_i previous _ _ same _
      obtain rfl := Option.some.inj same
      rw [delivers_bind,delivers_attempt]
      refine (rollbackNewEmptyFile_delivers books absent grew).mono ?_ ?_
      · rintro - after ⟨frame,books,vlog,writer⟩
        exact ⟨frame,books,by rw [vlog],.untouched vlog writer⟩
      · rintro rollback after ⟨script',rfl⟩
        refine left _ script' ?_
        intro retry
        cases (appendIo_retryable retry).1
    · rename_i shape
      refine left error storage.script ?_
      intro retry
      refine shape before.writer.state chunk.position.fileId ?_ rfl rfl
      by_contra lasting
      exact kind ((Bool.not_eq_true _).mp lasting) retry

theorem transientZeroProgress_moved {count : Nat} {error : IoError} (moved : 0 < count) :
    transientZeroProgress (.error (count,error)) = false := by
  cases count with
  | zero => omega
  | succ count => rfl

theorem writeChunk_delivers {commitSeq : Nat} {envelopeBegin : VLogPosition} {chunk : PhysicalChunk} (books : Books log)
    (filled : chunk.bytes ≠ []) :
    Delivers (writeChunk commitSeq envelopeBegin chunk) log (fun _ after => Landed commitSeq log after chunk)
      (fun error after => ChunkFailed commitSeq log after chunk error) := by
  have positive : 0 < chunk.bytes.length := List.length_pos_iff.mpr filled
  unfold writeChunk
  refine (ensureFileForChunk_ready books).bind ?_ ?_
  · intro previous ready opened
    obtain ⟨contents,found,width⟩ := opened.present
    have present := opened.standing
    have here : ready.storage.contents chunk.position.fileId = contents := by
      rw [Storage.contents,found,Option.getD_some]
    have ends : ∀ bytes : Bytes, (ready.storage.contents chunk.position.fileId).length + bytes.length =
        chunk.position.offset + (0 + bytes.length) := by
      intro bytes
      rw [here,width,Nat.zero_add]
    rw [delivers_bind,delivers_get,opened.opened]
    simp only [and_self,if_true]
    rw [delivers_bind,delivers_attempt,delivers_onStorage]
    refine (writeAllPositioned_grows _ (Nat.lt_succ_self _) found (show contents.length = chunk.position.offset + 0 from
      width)).mono ?_ ?_
    · rintro total storage ⟨rfl,grew⟩
      have moved : 0 + chunk.bytes.length > 0 := by omega
      simp only [writtenCount,moved,if_true]
      rw [delivers_bind,delivers_onWriter,delivers_bind,delivers_get]
      refine (finishChunk_delivers (opened.books.grown present grew (ends _)) rfl).mono ?_ ?_
      · rintro - after finished
        obtain ⟨files,catalog⟩ := opened.lays grew
        have frame := (opened.part grew).trans finished.frame
        refine ⟨frame,finished.books,opened.ends,?_,by rw [finished.position,Nat.zero_add]; rfl⟩
        refine FileSet.eq_of (finished.files.trans files) ?_ frame.identity frame.layout
        rw [finished.catalog,Nat.zero_add]
        simp only [ValueLog.grown,catalog,FileSet.lay,pageHeaderEncodedLen,fileHeaderEncodedLen]
      · rintro error after unchanged
        obtain ⟨files,catalog⟩ := opened.lays grew
        refine ⟨(opened.part grew).trans unchanged.frame,unchanged.books,by rw [unchanged.vlog]; exact catalog,
          .part chunk.bytes.length positive (Nat.le_refl _) opened.ends ?_ ?_⟩
        · rw [unchanged.vlog,List.take_length]
          exact files
        · rw [unchanged.writer,Nat.zero_add]
          rfl
    · rintro ⟨total,error⟩ storage ⟨count,rfl,short,grew⟩
      obtain ⟨files,catalog⟩ := opened.lays grew
      by_cases moved : 0 + count > 0
      · -- Some bytes stand in the file, so neither the file nor the position goes back.
        simp only [writtenCount,moved,if_true]
        rw [delivers_bind,delivers_onWriter,delivers_bind,delivers_get]
        have fits : (chunk.bytes.take count).length = count := by
          rw [List.length_take]
          omega
        have place := ends (chunk.bytes.take count)
        rw [fits] at place
        have grown := opened.books.grown present grew (show _ = chunk.position.offset + (0 + count) by rw [fits]; exact place)
        have failed : ∀ error, ChunkFailed commitSeq log
            (ready.grown chunk.position.fileId (chunk.position.offset + (0 + count)) storage) chunk error :=
          fun error => ⟨opened.part grew,grown,catalog,.part count (by omega) (by omega) opened.ends files (by
            rw [Nat.zero_add]; rfl)⟩
        unfold failChunk
        rw [delivers_bind,delivers_get]
        split
        · rename_i lasting _
          rw [transientZeroProgress_moved moved] at lasting
          cases lasting
        · exact failed _
      · obtain rfl : count = 0 := by omega
        simp only [writtenCount,Nat.add_zero,Nat.lt_irrefl,gt_iff_lt,if_false]
        rw [List.take_zero] at grew
        rw [delivers_bind,delivers_get]
        refine (failChunk_delivers books opened grew ?_).mono (fun _ _ no => no.elim) (fun _ _ failed => failed)
        intro lasting retry
        simp only [transientZeroProgress] at lasting
        have transient := (appendIo_retryable retry).2
        rw [lasting] at transient
        cases transient
  · exact fun _ _ failed => failed

end chunks
end ExpirKv
