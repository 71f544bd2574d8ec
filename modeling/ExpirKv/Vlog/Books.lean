import ExpirKv.Vlog.Writer

namespace ExpirKv
open VLogGeometry Storage

section maps

theorem insert_present {files : Std.ExtTreeMap Nat Bytes compare} {fileId : Nat} {contents : Bytes}
    (present : files[fileId]? = some contents) : files.insert fileId contents = files := by
  refine Std.ExtTreeMap.ext_getElem? ?_
  intro other
  rw [Std.ExtTreeMap.getElem?_insert]
  split
  · rename_i same
    rw [←Std.LawfulEqCmp.eq_of_compare same,present]
  · rfl

theorem insert_insert {files : Std.ExtTreeMap Nat Bytes compare} (fileId : Nat) (first second : Bytes) :
    (files.insert fileId first).insert fileId second = files.insert fileId second := by
  refine Std.ExtTreeMap.ext_getElem? ?_
  intro other
  simp only [Std.ExtTreeMap.getElem?_insert]
  split <;> rfl

-- What was put in and taken out again leaves no mark.
theorem erase_insert {α : Type} {entries : Std.ExtTreeMap Nat α compare} {fileId : Nat} {value : α}
    (absent : entries[fileId]? = none) : (entries.insert fileId value).erase fileId = entries := by
  refine Std.ExtTreeMap.ext_getElem? ?_
  intro other
  rw [Std.ExtTreeMap.getElem?_erase,Std.ExtTreeMap.getElem?_insert]
  split
  · rename_i same
    rw [←Std.LawfulEqCmp.eq_of_compare same,absent]
  · rfl

theorem erase_absent {files : Std.ExtTreeSet Nat compare} {fileId : Nat} (absent : fileId ∉ files) :
    files.erase fileId = files := by
  refine Std.ExtTreeSet.ext_mem ?_
  intro other
  rw [Std.ExtTreeSet.mem_erase]
  constructor
  · exact fun found => found.2
  · intro found
    refine ⟨?_,found⟩
    intro same
    rw [Std.LawfulEqCmp.eq_of_compare same] at absent
    exact absent found

end maps

section events
variable {before middle after : Storage} {fileId : Nat} {first second : Bytes}

-- The calls that change the files of the log while it is written.
def Event.OnFiles : Event → Prop
  | .created _ => True
  | .wrote _ _ _ => True
  | .removed _ => True
  | _ => False

-- Bytes went to the end of a file and nowhere else.
structure Grew (fileId : Nat) (bytes : Bytes) (before after : Storage) : Prop where
  index : after.index = before.index
  vlog : after.vlog = {before.vlog with files := before.vlog.files.insert fileId (before.contents fileId ++ bytes)}
  trace : ∃ events, after.trace = events ++ before.trace ∧
    ∀ event ∈ events, ∃ offset len, event = .wrote fileId offset len ∧ (before.contents fileId).length ≤ offset

theorem Grew.contents (grew : Grew fileId first before after) :
    after.vlog.files[fileId]? = some (before.contents fileId ++ first) := by
  rw [grew.vlog,Std.ExtTreeMap.getElem?_insert_self]

theorem Grew.others (grew : Grew fileId first before after) {other : Nat} (apart : other ≠ fileId) :
    after.vlog.files[other]? = before.vlog.files[other]? := by
  rw [grew.vlog,Std.ExtTreeMap.getElem?_insert,if_neg (by simpa using fun equal => apart equal.symm)]

theorem Grew.refl (present : before.vlog.files[fileId]? ≠ none) (script : List Answer) :
    Grew fileId [] before {before with script} := by
  refine ⟨rfl,?_,[],rfl,by simp⟩
  cases found : before.vlog.files[fileId]? with
  | none => exact absurd found present
  | some contents => simp only [Storage.contents,found,Option.getD_some,List.append_nil,insert_present found]

theorem Grew.trans (left : Grew fileId first before middle) (right : Grew fileId second middle after) :
    Grew fileId (first ++ second) before after := by
  have reached : middle.contents fileId = before.contents fileId ++ first := by
    rw [Storage.contents,left.contents,Option.getD_some]
  refine ⟨right.index.trans left.index,?_,?_⟩
  · rw [right.vlog,reached,left.vlog,List.append_assoc]
    simp only [insert_insert]
  · obtain ⟨early,traceLeft,wroteLeft⟩ := left.trace
    obtain ⟨late,traceRight,wroteRight⟩ := right.trace
    refine ⟨late ++ early,by rw [traceRight,traceLeft,List.append_assoc],?_⟩
    intro event member
    rcases List.mem_append.mp member with later | earlier
    · obtain ⟨offset,len,rfl,place⟩ := wroteRight event later
      rw [reached,List.length_append] at place
      exact ⟨offset,len,rfl,by omega⟩
    · exact wroteLeft event earlier

end events

section writing
variable {storage : Storage} {fileId : Nat}

theorem writeAt_grows {offset : Nat} {bytes contents : Bytes} (present : storage.vlog.files[fileId]? = some contents)
    (ends : contents.length = offset) :
    Delivers (Storage.writeAt fileId offset bytes) storage
      (fun count after => count ≤ bytes.length ∧ Grew fileId (bytes.take count) storage after)
      (fun _ after => Grew fileId [] storage after) := by
  have here : storage.contents fileId = contents := by rw [Storage.contents,present,Option.getD_some]
  have known : storage.vlog.files[fileId]? ≠ none := by
    rw [present]
    exact Option.some_ne_none _
  have put : ∀ (part : Bytes) (script : List Answer),
      Grew fileId part storage (Storage.writeAt.put fileId offset part {storage with script}) := by
    intro part script
    unfold Storage.writeAt.put
    split
    · rename_i empty
      rw [List.isEmpty_iff.mp empty]
      exact .refl known script
    · refine ⟨rfl,?_,[.wrote fileId offset part.length],rfl,?_⟩
      · simp only [Storage.record,Storage.setFile,Storage.contents,present,Option.getD_some,writeAt_end ends]
      · intro event member
        obtain rfl := List.mem_singleton.mp member
        exact ⟨offset,_,rfl,by rw [here,ends]⟩
  rw [Storage.writeAt,delivers_bind,delivers_tick]
  split
  · exact .refl known _
  · rename_i count _
    refine ⟨List.length_take_le' _ _,?_⟩
    have same : bytes.take (bytes.take count).length = bytes.take count := by
      rw [List.length_take,←List.take_eq_take_min]
    rw [same]
    exact put (bytes.take count) storage.script.tail
  · refine ⟨Nat.le_refl _,?_⟩
    rw [List.take_length]
    exact put bytes _

-- The write loop. The induction is on the measure of the loop: each turn takes bytes off or uses up an attempt.
theorem writeAllPositioned_grows {start : Nat} (fuel : Nat) {bytes contents : Bytes} {written interrupted transient : Nat}
    (bound : bytes.length * 12 + (8 - interrupted) + (3 - transient) < fuel)
    (present : storage.vlog.files[fileId]? = some contents) (ends : contents.length = start + written) :
    Delivers (writeAllPositioned fileId start bytes written interrupted transient) storage
      (fun total after => total = written + bytes.length ∧ Grew fileId bytes storage after)
      (fun failure after => ∃ count, failure.1 = written + count ∧ count < bytes.length ∧
        Grew fileId (bytes.take count) storage after) := by
  induction fuel generalizing storage bytes contents written interrupted transient with
  | zero => omega
  | succ fuel ih =>
    have known : storage.vlog.files[fileId]? ≠ none := by
      rw [present]
      exact Option.some_ne_none _
    rw [writeAllPositioned]
    split
    · rename_i empty
      rw [List.isEmpty_iff.mp empty]
      exact ⟨rfl,.refl known storage.script⟩
    · rename_i filled
      have positive : 0 < bytes.length := List.length_pos_iff.mpr (by simpa using filled)
      rw [delivers_bind,delivers_attempt]
      refine (writeAt_grows present ends).mono ?_ ?_
      · rintro count reached ⟨fits,grew⟩
        cases count with
        | zero => exact ⟨0,rfl,positive,grew⟩
        | succ count =>
          simp only [fits,if_true]
          have reach := grew.contents
          rw [Storage.contents,present,Option.getD_some] at reach
          have stands : (contents ++ bytes.take (count + 1)).length = start + (written + (count + 1)) := by
            simp only [List.length_append,List.length_take]
            omega
          refine (ih (by simp only [List.length_drop]; omega) reach stands).mono ?_ ?_
          · rintro total after ⟨rfl,more⟩
            refine ⟨by simp only [List.length_drop]; omega,?_⟩
            have whole := grew.trans more
            rwa [List.take_append_drop] at whole
          · rintro failure after ⟨further,same,short,more⟩
            rw [List.length_drop] at short
            refine ⟨count + 1 + further,by omega,by omega,?_⟩
            have whole := grew.trans more
            rwa [←List.take_add] at whole
      · intro error reached unmoved
        have reach := unmoved.contents
        rw [Storage.contents,present,Option.getD_some,List.append_nil] at reach
        have again : ∀ {interrupted transient : Nat}, bytes.length * 12 + (8 - interrupted) + (3 - transient) < fuel →
            Delivers (writeAllPositioned fileId start bytes written interrupted transient) reached
              (fun total after => total = written + bytes.length ∧ Grew fileId bytes storage after)
              (fun failure after => ∃ count, failure.1 = written + count ∧ count < bytes.length ∧
                Grew fileId (bytes.take count) storage after) := by
          intro interrupted transient bound
          refine (ih bound reach ends).mono ?_ ?_
          · rintro total after ⟨rfl,more⟩
            exact ⟨rfl,unmoved.trans more⟩
          · rintro failure after ⟨count,same,short,more⟩
            exact ⟨count,same,short,unmoved.trans more⟩
        simp only [eintrRetryLimit,eagainRetryLimit]
        split
        · exact again (by omega)
        · split
          · exact again (by omega)
          · exact ⟨0,rfl,positive,unmoved⟩

end writing
section ledger

-- The writer's books: where the open file ends, and which files and entries a sync has not covered yet.
structure Books (log : ValueLog) : Prop where
  current : ∀ fileId offset, log.writer.state = .open fileId offset →
    ∃ contents, log.storage.vlog.files[fileId]? = some contents ∧ contents.length = offset
  dirty : ∀ fileId ∈ log.writer.dirty.dirtyFiles, log.storage.vlog.files[fileId]? ≠ none
  pending : ∀ fileId ∈ log.writer.dirty.pendingDirectoryEntries, log.storage.vlog.files[fileId]? ≠ none
  bounded : ∀ fileId contents, log.storage.vlog.files[fileId]? = some contents →
    Event.covered log.storage.trace fileId ≤ contents.length
  clean : ∀ fileId contents, log.storage.vlog.files[fileId]? = some contents →
    fileId ∉ log.writer.dirty.dirtyFiles → Event.covered log.storage.trace fileId = contents.length
  linked : ∀ fileId, log.storage.vlog.files[fileId]? ≠ none → fileId ∉ log.writer.dirty.pendingDirectoryEntries →
    Event.linked log.storage.trace fileId = true

-- What no write of a chunk changes.
structure Frame (commitSeq : Nat) (before after : ValueLog) : Prop where
  databaseUuid : after.writer.databaseUuid = before.writer.databaseUuid
  geometry : after.writer.geometry = before.writer.geometry
  pendingSyncId : after.writer.pendingSyncId = before.writer.pendingSyncId
  nextSyncId : after.writer.nextSyncId = before.writer.nextSyncId
  appendFailed : after.writer.appendFailed = before.writer.appendFailed
  lastAppended : after.writer.lastAppended = before.writer.lastAppended
  index : after.storage.index = before.storage.index
  identity : after.storage.vlog.databaseUuid = before.storage.vlog.databaseUuid
  layout : after.storage.vlog.geometry = before.storage.vlog.geometry
  trace : ∃ events, after.storage.trace = events ++ before.storage.trace ∧ ∀ event ∈ events, event.OnFiles
  entries : ∀ (fileId seq : Nat), after.writer.dirty.pendingDirectoryEntries[fileId]? = some seq →
    before.writer.dirty.pendingDirectoryEntries[fileId]? = some seq ∨ seq = commitSeq
  covers : ∀ fileId, before.storage.vlog.files[fileId]? ≠ none → after.storage.vlog.files[fileId]? ≠ none ∧
    Event.covered after.storage.trace fileId = Event.covered before.storage.trace fileId ∧
    Event.linked after.storage.trace fileId = Event.linked before.storage.trace fileId

theorem Frame.refl {commitSeq : Nat} {log : ValueLog} (script : List Answer) :
    Frame commitSeq log {log with storage := {log.storage with script}} :=
  ⟨rfl,rfl,rfl,rfl,rfl,rfl,rfl,rfl,rfl,⟨[],rfl,by simp⟩,fun _ _ found => .inl found,fun _ present => ⟨present,rfl,rfl⟩⟩

theorem Frame.trans {commitSeq : Nat} {before middle after : ValueLog} (left : Frame commitSeq before middle)
    (right : Frame commitSeq middle after) : Frame commitSeq before after := by
  obtain ⟨early,traceLeft,filesLeft⟩ := left.trace
  obtain ⟨late,traceRight,filesRight⟩ := right.trace
  refine ⟨right.databaseUuid.trans left.databaseUuid,right.geometry.trans left.geometry,
    right.pendingSyncId.trans left.pendingSyncId,right.nextSyncId.trans left.nextSyncId,
    right.appendFailed.trans left.appendFailed,right.lastAppended.trans left.lastAppended,
    right.index.trans left.index,right.identity.trans left.identity,right.layout.trans left.layout,
    ⟨late ++ early,by rw [traceRight,traceLeft,List.append_assoc],?_⟩,?_,?_⟩
  · intro event member
    rcases List.mem_append.mp member with later | earlier
    · exact filesRight event later
    · exact filesLeft event earlier
  · intro fileId seq found
    rcases right.entries fileId seq found with found | same
    · exact left.entries fileId seq found
    · exact .inr same
  · intro fileId present
    obtain ⟨between,coveredLeft,linkedLeft⟩ := left.covers fileId present
    obtain ⟨still,coveredRight,linkedRight⟩ := right.covers fileId between
    exact ⟨still,coveredRight.trans coveredLeft,linkedRight.trans linkedLeft⟩

-- The books only name files, bytes and events, so the script does not matter to them.
theorem Books.scripted {log : ValueLog} (books : Books log) (script : List Answer) :
    Books {log with storage := {log.storage with script}} :=
  ⟨books.current,books.dirty,books.pending,books.bounded,books.clean,books.linked⟩

-- A file that was just created: empty, listed as pending, and the open one.
def ValueLog.withNewFile (log : ValueLog) (fileId commitSeq : Nat) (script : List Answer) : ValueLog :=
  ⟨({log.storage with script}.setFile fileId []).record (.created fileId),
    {log.writer with
      dirty := {log.writer.dirty with
        pendingDirectoryEntries := log.writer.dirty.pendingDirectoryEntries.insert fileId commitSeq}
      state := .open fileId 0}⟩

section creation
variable {log : ValueLog} {fileId commitSeq : Nat} {script : List Answer}

theorem withNewFile_files (other : Nat) : (log.withNewFile fileId commitSeq script).storage.vlog.files[other]? =
    if fileId = other then some [] else log.storage.vlog.files[other]? := by
  simp only [ValueLog.withNewFile,Storage.setFile,Storage.record,Std.ExtTreeMap.getElem?_insert,
    Std.LawfulEqCmp.compare_eq_iff_eq]

theorem Books.withNewFile (books : Books log) : Books (log.withNewFile fileId commitSeq script) := by
  refine ⟨?_,?_,?_,?_,?_,?_⟩
  · intro other offset here
    obtain ⟨rfl,rfl⟩ := AppendState.open.inj here
    exact ⟨[],by rw [withNewFile_files,if_pos rfl],rfl⟩
  · intro other member
    rw [withNewFile_files]
    split
    · exact Option.some_ne_none _
    · exact books.dirty other member
  · intro other member
    rw [withNewFile_files]
    split
    · exact Option.some_ne_none _
    · rename_i apart
      simp only [ValueLog.withNewFile,Std.ExtTreeMap.mem_insert,Std.LawfulEqCmp.compare_eq_iff_eq,apart,false_or] at member
      exact books.pending other member
  · intro other contents found
    rw [withNewFile_files] at found
    simp only [ValueLog.withNewFile,Storage.record,Storage.setFile,Event.covered]
    split at found
    · rename_i same
      simp [same]
    · rename_i apart
      rw [if_neg apart]
      exact books.bounded other contents found
  · intro other contents found clean
    rw [withNewFile_files] at found
    simp only [ValueLog.withNewFile,Storage.record,Storage.setFile,Event.covered]
    split at found
    · rename_i same
      rw [if_pos same,←Option.some.inj found]
      rfl
    · rename_i apart
      rw [if_neg apart]
      exact books.clean other contents found clean
  · intro other found unlisted
    rw [withNewFile_files] at found
    simp only [ValueLog.withNewFile,Std.ExtTreeMap.mem_insert,Std.LawfulEqCmp.compare_eq_iff_eq,not_or] at unlisted
    rw [if_neg unlisted.1] at found
    simp only [ValueLog.withNewFile,Storage.record,Storage.setFile,Event.linked,bne_iff_ne,Bool.and_eq_true]
    exact ⟨unlisted.1,books.linked other found unlisted.2⟩

theorem Frame.withNewFile (absent : log.storage.vlog.files[fileId]? = none) :
    Frame commitSeq log (log.withNewFile fileId commitSeq script) := by
  refine ⟨rfl,rfl,rfl,rfl,rfl,rfl,rfl,rfl,rfl,⟨[.created fileId],rfl,?_⟩,?_,?_⟩
  · intro event member
    obtain rfl := List.mem_singleton.mp member
    trivial
  · intro other seq found
    simp only [ValueLog.withNewFile,Std.ExtTreeMap.getElem?_insert] at found
    split at found
    · exact .inr (Option.some.inj found).symm
    · exact .inl found
  · intro other present
    have apart : fileId ≠ other := by
      rintro rfl
      exact present absent
    rw [withNewFile_files,if_neg apart]
    refine ⟨present,?_,?_⟩
    · simp only [ValueLog.withNewFile,Storage.setFile,Storage.record,Event.covered,if_neg apart]
    · simp [ValueLog.withNewFile,Storage.setFile,Storage.record,Event.linked,apart]

end creation

section growth
variable {log : ValueLog} {fileId : Nat} {bytes : Bytes} {after : Storage}

-- Writing behind the covered part of a file takes nothing from it.
theorem covered_wrote {events trace : List Event} {fileId len : Nat} (bound : Event.covered trace fileId ≤ len)
    (wrote : ∀ event ∈ events, ∃ offset width, event = .wrote fileId offset width ∧ len ≤ offset) (other : Nat) :
    Event.covered (events ++ trace) other = Event.covered trace other ∧
      Event.linked (events ++ trace) other = Event.linked trace other := by
  induction events with
  | nil => exact ⟨rfl,rfl⟩
  | cons event rest ih =>
    obtain ⟨offset,width,rfl,place⟩ := wrote event List.mem_cons_self
    obtain ⟨covers,links⟩ := ih (fun later member => wrote later (List.mem_cons_of_mem _ member))
    refine ⟨?_,links⟩
    simp only [List.cons_append,Event.covered,covers]
    split
    · rename_i same
      rw [same] at bound
      exact Nat.min_eq_left (Nat.le_trans bound place)
    · rfl

theorem Books.covers (books : Books log) (present : log.storage.vlog.files[fileId]? ≠ none)
    (grew : Grew fileId bytes log.storage after) (other : Nat) :
    Event.covered after.trace other = Event.covered log.storage.trace other ∧
      Event.linked after.trace other = Event.linked log.storage.trace other := by
  obtain ⟨events,trace,wrote⟩ := grew.trace
  rw [trace]
  refine covered_wrote ?_ wrote other
  cases found : log.storage.vlog.files[fileId]? with
  | none => exact absurd found present
  | some contents =>
    rw [Storage.contents,found,Option.getD_some]
    exact books.bounded fileId contents found

theorem Frame.grew {commitSeq : Nat} (books : Books log) (present : log.storage.vlog.files[fileId]? ≠ none)
    (grew : Grew fileId bytes log.storage after) {writer : ValueLogWriter}
    (same : writer.databaseUuid = log.writer.databaseUuid ∧ writer.geometry = log.writer.geometry ∧
      writer.pendingSyncId = log.writer.pendingSyncId ∧ writer.nextSyncId = log.writer.nextSyncId ∧
      writer.appendFailed = log.writer.appendFailed ∧ writer.lastAppended = log.writer.lastAppended ∧
      writer.dirty.pendingDirectoryEntries = log.writer.dirty.pendingDirectoryEntries) :
    Frame commitSeq log ⟨after,writer⟩ := by
  obtain ⟨events,trace,wrote⟩ := grew.trace
  obtain ⟨uuid,geometry,waiting,nextId,failed,last,entries⟩ := same
  refine ⟨uuid,geometry,waiting,nextId,failed,last,grew.index,by rw [grew.vlog],by rw [grew.vlog],⟨events,trace,?_⟩,?_,?_⟩
  · intro event member
    obtain ⟨offset,len,rfl,-⟩ := wrote event member
    trivial
  · intro other seq found
    rw [entries] at found
    exact .inl found
  · intro other there
    refine ⟨?_,books.covers present grew other⟩
    by_cases same : other = fileId
    · rw [same,grew.contents]
      exact Option.some_ne_none _
    · rw [grew.others same]
      exact there

-- Books that agree on the files, on the writer and on what was synced are the same books.
theorem Books.same {later : ValueLog} (books : Books log) (files : later.storage.vlog.files = log.storage.vlog.files)
    (state : later.writer.state = log.writer.state) (dirty : later.writer.dirty = log.writer.dirty)
    (synced : ∀ other, log.storage.vlog.files[other]? ≠ none →
      Event.covered later.storage.trace other = Event.covered log.storage.trace other ∧
        Event.linked later.storage.trace other = Event.linked log.storage.trace other) : Books later := by
  refine ⟨?_,?_,?_,?_,?_,?_⟩
  · intro other offset here
    rw [files]
    exact books.current other offset (state ▸ here)
  · intro other member
    rw [files]
    exact books.dirty other (dirty ▸ member)
  · intro other member
    rw [files]
    exact books.pending other (dirty ▸ member)
  · intro other contents found
    rw [files] at found
    rw [(synced other (by rw [found]; exact Option.some_ne_none _)).1]
    exact books.bounded other contents found
  · intro other contents found clean
    rw [files] at found
    rw [(synced other (by rw [found]; exact Option.some_ne_none _)).1]
    exact books.clean other contents found (dirty ▸ clean)
  · intro other found unlisted
    rw [files] at found
    rw [(synced other found).2]
    exact books.linked other found (dirty ▸ unlisted)

-- Nothing reached the file: the books stand as they were.
theorem Books.unmoved (books : Books log) (present : log.storage.vlog.files[fileId]? ≠ none)
    (grew : Grew fileId [] log.storage after) :
    after.vlog = log.storage.vlog ∧ Books {log with storage := after} := by
  have same : after.vlog = log.storage.vlog := by
    rw [grew.vlog]
    cases found : log.storage.vlog.files[fileId]? with
    | none => exact absurd found present
    | some contents => simp only [Storage.contents,found,Option.getD_some,List.append_nil,insert_present found]
  exact ⟨same,books.same (by rw [same]) rfl rfl (fun other _ => books.covers present grew other)⟩

-- Bytes reached the open file: it is dirty, and open behind them.
def ValueLog.grown (log : ValueLog) (fileId offset : Nat) (after : Storage) : ValueLog :=
  ⟨after,{log.writer with state := .open fileId offset}.markDirty fileId⟩

theorem Books.grown (books : Books log) (present : log.storage.vlog.files[fileId]? ≠ none)
    (grew : Grew fileId bytes log.storage after) {offset : Nat}
    (ends : (log.storage.contents fileId).length + bytes.length = offset) : Books (log.grown fileId offset after) := by
  have covers := books.covers present grew
  have kept : ∀ other : Nat, log.storage.vlog.files[other]? ≠ none → after.vlog.files[other]? ≠ none := by
    intro other found
    by_cases same : other = fileId
    · rw [same,grew.contents]
      exact Option.some_ne_none _
    · rw [grew.others same]
      exact found
  refine ⟨?_,?_,?_,?_,?_,?_⟩
  · intro other place here
    obtain ⟨rfl,rfl⟩ := AppendState.open.inj here
    exact ⟨_,grew.contents,by rw [List.length_append]; exact ends⟩
  · intro other member
    simp only [ValueLog.grown,ValueLogWriter.markDirty,Std.ExtTreeSet.mem_insert,
      Std.LawfulEqCmp.compare_eq_iff_eq] at member
    rcases member with rfl | member
    · exact kept _ present
    · exact kept other (books.dirty other member)
  · intro other member
    exact kept other (books.pending other member)
  · intro other contents found
    change Event.covered after.trace other ≤ _
    rw [(covers other).1]
    by_cases same : other = fileId
    · subst same
      cases old : log.storage.vlog.files[other]? with
      | none => exact absurd old present
      | some before =>
        have bound := books.bounded other before old
        obtain rfl := Option.some.inj (grew.contents.symm.trans found)
        rw [Storage.contents,old,Option.getD_some,List.length_append]
        omega
    · refine books.bounded other contents ?_
      rw [←grew.others same]
      exact found
  · intro other contents found clean
    simp only [ValueLog.grown,ValueLogWriter.markDirty,Std.ExtTreeSet.mem_insert,Std.LawfulEqCmp.compare_eq_iff_eq,
      not_or] at clean
    change Event.covered after.trace other = _
    rw [(covers other).1]
    refine books.clean other contents ?_ clean.2
    rw [←grew.others (fun same => clean.1 same.symm)]
    exact found
  · intro other found unlisted
    change Event.linked after.trace other = true
    rw [(covers other).2]
    refine books.linked other ?_ unlisted
    intro absent
    by_cases same : other = fileId
    · exact present (same ▸ absent)
    · exact found (by rw [←absent]; exact grew.others same)

end growth

end ledger

end ExpirKv
