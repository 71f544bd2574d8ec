import ExpirKv.Vlog.Append

namespace ExpirKv
open VLogGeometry Storage ValueLog

section events

-- Calls that only made durable what was there.
structure Synced (before after : Storage) : Prop where
  index : after.index = before.index
  vlog : after.vlog = before.vlog
  trace : ∃ events, after.trace = events ++ before.trace ∧ ∀ event ∈ events, event = .syncedDirectory ∨
    ∃ fileId, event = .syncedFile fileId (before.contents fileId).length

theorem Synced.refl (storage : Storage) (script : List Answer) : Synced storage {storage with script} :=
  ⟨rfl,rfl,[],rfl,by simp⟩

theorem Synced.trans {before middle after : Storage} (left : Synced before middle) (right : Synced middle after) :
    Synced before after := by
  obtain ⟨early,traceLeft,syncedLeft⟩ := left.trace
  obtain ⟨late,traceRight,syncedRight⟩ := right.trace
  refine ⟨right.index.trans left.index,right.vlog.trans left.vlog,late ++ early,
    by rw [traceRight,traceLeft,List.append_assoc],?_⟩
  intro event member
  rcases List.mem_append.mp member with later | earlier
  · have same := syncedRight event later
    rwa [show middle.contents = before.contents by unfold Storage.contents; rw [left.vlog]] at same
  · exact syncedLeft event earlier

-- A sync covers a file as a whole or leaves it alone, and never forgets an entry.
theorem Synced.covers {before after : Storage} (synced : Synced before after) (fileId : Nat) :
    (Event.covered after.trace fileId = Event.covered before.trace fileId ∨
      Event.covered after.trace fileId = (before.contents fileId).length) ∧
    (Event.linked before.trace fileId = true → Event.linked after.trace fileId = true) := by
  obtain ⟨events,trace,only⟩ := synced.trace
  rw [trace]
  clear trace
  induction events with
  | nil => exact ⟨.inl rfl,id⟩
  | cons event rest ih =>
    obtain ⟨covered,linked⟩ := ih (fun later member => only later (List.mem_cons_of_mem _ member))
    rcases only event List.mem_cons_self with rfl | ⟨file,rfl⟩
    · exact ⟨covered,fun _ => rfl⟩
    · refine ⟨?_,linked⟩
      simp only [List.cons_append,Event.covered]
      split
      · rename_i same
        exact .inr (by rw [same])
      · exact covered

theorem Synced.full {before after : Storage} (synced : Synced before after) {fileId : Nat}
    (full : Event.covered before.trace fileId = (before.contents fileId).length) :
    Event.covered after.trace fileId = (before.contents fileId).length := by
  rcases (synced.covers fileId).1 with same | same
  · exact same.trans full
  · exact same

theorem Books.synced {log : ValueLog} {storage : Storage} (books : Books log) (synced : Synced log.storage storage) :
    Books {log with storage} := by
  have contents : ∀ (fileId : Nat) (found : Bytes), log.storage.vlog.files[fileId]? = some found →
      log.storage.contents fileId = found := by
    intro fileId found present
    rw [Storage.contents,present,Option.getD_some]
  refine ⟨?_,?_,?_,?_,?_,?_⟩
  · intro fileId offset here
    rw [synced.vlog]
    exact books.current fileId offset here
  · intro fileId member
    rw [synced.vlog]
    exact books.dirty fileId member
  · intro fileId member
    rw [synced.vlog]
    exact books.pending fileId member
  · intro fileId found present
    rw [synced.vlog] at present
    rcases (synced.covers fileId).1 with same | same
    · rw [same]
      exact books.bounded fileId found present
    · rw [same,contents fileId found present]
  · intro fileId found present clean
    rw [synced.vlog] at present
    have full := books.clean fileId found present clean
    rw [←contents fileId found present] at full ⊢
    exact synced.full full
  · intro fileId present unlisted
    rw [synced.vlog] at present
    exact (synced.covers fileId).2 (books.linked fileId present unlisted)

end events

section calls
variable {log : ValueLog}

theorem syncFile_delivers {storage : Storage} (fileId : Nat) :
    Delivers (Storage.syncFile fileId) storage
      (fun _ after => Synced storage after ∧ Event.covered after.trace fileId = (storage.contents fileId).length)
      (fun _ after => Synced storage after) := by
  refine delivers_perform ?_ (fun _ script => .refl storage script)
  intro script
  refine ⟨⟨rfl,rfl,[.syncedFile fileId _],rfl,?_⟩,?_⟩
  · intro event member
    exact .inr ⟨fileId,List.mem_singleton.mp member⟩
  · simp only [Storage.record,Event.covered,if_true]
    rfl

theorem readIo_kind {fileId : Nat} (error : IoError) : (readIo fileId error).kind ≠ .invalidArgument := by
  unfold readIo
  simp only [StorageError.codecError]
  split <;> exact StorageErrorKind.noConfusion

-- The files behind the active one are opened again, and checked against the catalog first.
theorem syncOneFile_delivers (fileId targetSeq : Nat) :
    Delivers (syncOneFile fileId targetSeq) log
      (fun _ after => after.writer = log.writer ∧ Synced log.storage after.storage ∧
        Event.covered after.storage.trace fileId = (log.storage.contents fileId).length)
      (fun error after => error.kind ≠ .invalidArgument ∧ after.writer = log.writer ∧
        Synced log.storage after.storage) := by
  have direct : ∀ {storage : Storage} (offset : Option Nat), Synced log.storage storage →
      Delivers ((onStorage (Storage.syncFile fileId)).mapError (syncFileIo targetSeq fileId offset)) {log with storage}
        (fun _ after => after.writer = log.writer ∧ Synced log.storage after.storage ∧
          Event.covered after.storage.trace fileId = (log.storage.contents fileId).length)
        (fun error after => error.kind ≠ .invalidArgument ∧ after.writer = log.writer ∧
          Synced log.storage after.storage) := by
    intro storage offset before
    rw [delivers_mapError,delivers_onStorage]
    refine (syncFile_delivers fileId).mono ?_ (fun _ _ synced => ⟨StorageErrorKind.noConfusion,rfl,before.trans synced⟩)
    rintro - after ⟨synced,covered⟩
    refine ⟨rfl,before.trans synced,?_⟩
    rw [covered]
    simp only [Storage.contents,before.vlog]
  have closed : Delivers (syncOneFile.closed fileId targetSeq log.writer) log
      (fun _ after => after.writer = log.writer ∧ Synced log.storage after.storage ∧
        Event.covered after.storage.trace fileId = (log.storage.contents fileId).length)
      (fun error after => error.kind ≠ .invalidArgument ∧ after.writer = log.writer ∧
        Synced log.storage after.storage) := by
    have failed : ∀ script, log.writer = log.writer ∧ Synced log.storage {log.storage with script} :=
      fun script => ⟨rfl,.refl log.storage script⟩
    unfold syncOneFile.closed
    rw [delivers_bind,delivers_mapError,delivers_onStorage,Storage.openWritable,delivers_bind,delivers_get]
    split
    · exact ⟨StorageErrorKind.noConfusion,failed log.storage.script⟩
    · refine delivers_perform ?_ (fun _ script => ⟨StorageErrorKind.noConfusion,failed script⟩)
      intro first
      rw [delivers_bind,delivers_mapError,delivers_onStorage,Storage.verify,delivers_bind,delivers_get]
      split
      · exact ⟨StorageErrorKind.noConfusion,failed first⟩
      · refine delivers_mapError.mpr (delivers_perform ?_ (fun error script => ⟨@readIo_kind fileId error,failed script⟩))
        intro second
        exact direct _ (.refl log.storage second)
  unfold syncOneFile
  rw [delivers_bind,delivers_get]
  dsimp only
  split
  · split
    · exact direct _ (.refl log.storage log.storage.script)
    · exact closed
  · exact closed

theorem orStop_delivers {α : Type} {x : Eff ValueLog StorageError α} {post : α → ValueLog → Prop}
    {fail : StorageError → ValueLog → Prop}
    (inner : Delivers x log post (fun error after => fail error {after with writer := after.writer.fail})) :
    Delivers (orStop x) log post fail := by
  unfold orStop
  rw [delivers_bind,delivers_attempt]
  exact inner.mono (fun _ _ good => good) (fun _ _ bad => bad)

-- The loop over the dirty files.
theorem syncFiles_delivers {files : List Nat} {targetSeq : Nat} :
    Delivers (files.forM (fun fileId => orStop (syncOneFile fileId targetSeq))) log
      (fun _ after => after.writer = log.writer ∧ Synced log.storage after.storage ∧
        ∀ fileId ∈ files, Event.covered after.storage.trace fileId = (log.storage.contents fileId).length)
      (fun error after => error.kind ≠ .invalidArgument ∧ after.writer = log.writer.fail ∧
        Synced log.storage after.storage) := by
  induction files generalizing log with
  | nil => exact ⟨rfl,.refl log.storage log.storage.script,by simp⟩
  | cons fileId rest ih =>
    change Delivers (orStop (syncOneFile fileId targetSeq) >>= fun _ =>
      rest.forM (fun fileId => orStop (syncOneFile fileId targetSeq))) log _ _
    refine (orStop_delivers ((syncOneFile_delivers fileId targetSeq).mono (fun _ _ good => good) ?_)).bind ?_
      (fun _ _ bad => bad)
    · rintro _ after ⟨kind,writer,synced⟩
      exact ⟨kind,by rw [writer],synced⟩
    · rintro - middle ⟨writer,synced,covered⟩
      have same : middle.storage.contents = log.storage.contents := by
        unfold Storage.contents
        rw [synced.vlog]
      refine (ih).mono ?_ ?_
      · rintro - after ⟨kept,later,others⟩
        refine ⟨kept.trans writer,synced.trans later,?_⟩
        intro other member
        rw [←same]
        rcases List.mem_cons.mp member with rfl | member
        · exact later.full (by rw [same]; exact covered)
        · exact others other member
      · rintro _ after ⟨kind,kept,later⟩
        exact ⟨kind,by rw [kept,writer],synced.trans later⟩

-- Everything a sync asks of the writer before it makes a call.
structure SyncReady (writer : ValueLogWriter) (targetSeq : Nat) (targetEnd : Option VLogPosition) : Prop where
  healthy : writer.appendFailed = false
  idle : writer.pendingSyncId = none
  target : checkSyncTarget writer targetSeq targetEnd = .ok ()
  last : ∀ appended ∈ writer.lastAppended, targetSeq = appended.commitSeq ∧ targetEnd = some appended.vlogEnd
  entries : ∀ fileId seq, (fileId,seq) ∈ writer.dirty.pendingDirectoryEntries.toList → seq ≤ targetSeq

-- A sync that returned its token.
structure SyncedThrough (log after : ValueLog) (targetSeq : Nat) (targetEnd : Option VLogPosition)
    (synced : FrontierSync) : Prop where
  ready : SyncReady log.writer targetSeq targetEnd
  storage : Synced log.storage after.storage
  writer : after.writer =
    {log.writer with nextSyncId := log.writer.nextSyncId + 1, pendingSyncId := some log.writer.nextSyncId}
  token : synced = ⟨log.writer.nextSyncId,targetSeq,targetEnd,syncFiles log.writer.dirty targetEnd,
    syncDirectoryEntries log.writer.dirty targetSeq targetEnd⟩
  covered : ∀ fileId ∈ synced.files, Event.covered after.storage.trace fileId = (log.storage.contents fileId).length
  linked : ∀ fileId ∈ synced.directoryEntries, Event.linked after.storage.trace fileId = true

-- A sync that failed. Past its checks it stops the writer, and only the counter can still be to blame.
structure SyncFailed (log after : ValueLog) (targetSeq : Nat) (targetEnd : Option VLogPosition) (error : StorageError) :
    Prop where
  storage : Synced log.storage after.storage
  writer : after.writer = log.writer ∧ ¬SyncReady log.writer targetSeq targetEnd ∨ after.writer = log.writer.fail
  kind : SyncReady log.writer targetSeq targetEnd → log.writer.nextSyncId + 1 < 18446744073709551616 →
    error.kind ≠ .invalidArgument

theorem SyncFailed.refused {targetSeq : Nat} {targetEnd : Option VLogPosition}
    (unready : ¬SyncReady log.writer targetSeq targetEnd) (error : StorageError) :
    SyncFailed log log targetSeq targetEnd error :=
  ⟨.refl log.storage log.storage.script,.inl ⟨rfl,unready⟩,fun ready => absurd ready unready⟩

-- The calls behind the checks.
theorem syncThrough_calls {targetSeq : Nat} {targetEnd : Option VLogPosition}
    (ready : SyncReady log.writer targetSeq targetEnd) :
    Delivers (syncThrough targetSeq targetEnd) log (fun synced after => SyncedThrough log after targetSeq targetEnd synced)
      (fun error after => SyncFailed log after targetSeq targetEnd error) := by
  have agrees : log.writer.lastAppended.any
      (fun appended => targetSeq ≠ appended.commitSeq ∨ targetEnd ≠ some appended.vlogEnd) = false := by
    simp only [Option.any_eq_false,decide_eq_false_iff_not,not_or,not_not,ne_eq]
    exact fun appended found => ready.last appended found
  have older : log.writer.dirty.pendingDirectoryEntries.toList.any (fun entry => entry.2 > targetSeq) = false := by
    simp only [List.any_eq_false,decide_eq_true_eq,Nat.not_lt]
    exact fun entry member => ready.entries entry.1 entry.2 member
  simp only [syncThrough,delivers_bind,delivers_get,ready.healthy,ready.idle,ready.target,agrees,older,Option.isSome_none,
    Bool.false_eq_true,↓reduceIte,delivers_lift,reduceCtorEq,false_imp_iff,implies_true,
    and_true]
  intro _ _
  refine syncFiles_delivers.mono ?_ ?_
  · rintro - middle ⟨writer,synced,covered⟩
    -- What is left once files and directory are through: the counter and the token.
    have counted : ∀ after : ValueLog, after.writer = log.writer → Synced log.storage after.storage →
        (∀ fileId ∈ syncFiles log.writer.dirty targetEnd,
          Event.covered after.storage.trace fileId = (log.storage.contents fileId).length) →
        (∀ fileId ∈ syncDirectoryEntries log.writer.dirty targetSeq targetEnd,
          Event.linked after.storage.trace fileId = true) →
        Delivers (do
          if log.writer.nextSyncId + 1 ≥ 18446744073709551616 then do
            onWriter ValueLogWriter.fail
            throw (syncStateError targetSeq targetEnd)
          onWriter (fun current =>
            {current with nextSyncId := log.writer.nextSyncId + 1, pendingSyncId := some log.writer.nextSyncId})
          return ⟨log.writer.nextSyncId,targetSeq,targetEnd,syncFiles log.writer.dirty targetEnd,
            syncDirectoryEntries log.writer.dirty targetSeq targetEnd⟩ : Eff ValueLog StorageError FrontierSync) after
        (fun synced after => SyncedThrough log after targetSeq targetEnd synced)
        (fun error after => SyncFailed log after targetSeq targetEnd error) := by
      intro after writer synced covered linked
      dsimp only
      split
      · rename_i spent
        exact ⟨synced,.inr (congrArg ValueLogWriter.fail writer),fun _ room => absurd room (Nat.not_lt.mpr spent)⟩
      · refine ⟨ready,synced,?_,rfl,covered,linked⟩
        exact congrArg (fun current : ValueLogWriter =>
          {current with nextSyncId := log.writer.nextSyncId + 1, pendingSyncId := some log.writer.nextSyncId}) writer
    split
    · simp only [delivers_bind]
      refine orStop_delivers ?_
      simp only [delivers_mapError,delivers_onStorage,Storage.syncDirectory]
      refine delivers_perform ?_ ?_
      · intro script
        have later : Synced middle.storage ({middle.storage with script}.record .syncedDirectory) :=
          ⟨rfl,rfl,[.syncedDirectory],rfl,fun event member => .inl (List.mem_singleton.mp member)⟩
        have next := counted {middle with storage := {middle.storage with script}.record .syncedDirectory} writer
          (synced.trans later) covered (fun _ _ => rfl)
        simpa only [delivers_bind] using next
      · intro error script
        exact ⟨synced.trans (.refl middle.storage script),.inr (by rw [writer]),fun _ _ => StorageErrorKind.noConfusion⟩
    · rename_i none
      have next := counted middle writer synced covered (fun fileId member => by
        rw [not_not.mp none] at member
        cases member)
      simpa only [delivers_bind] using next
  · rintro error after ⟨kind,writer,synced⟩
    exact ⟨synced,.inr writer,fun _ _ => kind⟩

theorem syncThrough_delivers (targetSeq : Nat) (targetEnd : Option VLogPosition) :
    Delivers (syncThrough targetSeq targetEnd) log (fun synced after => SyncedThrough log after targetSeq targetEnd synced)
      (fun error after => SyncFailed log after targetSeq targetEnd error) := by
  by_cases ready : SyncReady log.writer targetSeq targetEnd
  · exact syncThrough_calls ready
  · have refused := SyncFailed.refused ready
    cases failed : log.writer.appendFailed with
    | true =>
      simp only [syncThrough,delivers_bind,delivers_get,failed,↓reduceIte,delivers_throw]
      exact refused _
    | false =>
      cases idle : log.writer.pendingSyncId with
      | some id =>
        simp only [syncThrough,delivers_bind,delivers_get,failed,idle,Option.isSome_some,Bool.false_eq_true,↓reduceIte,
          delivers_throw]
        exact refused _
      | none =>
        cases target : checkSyncTarget log.writer targetSeq targetEnd with
        | error error =>
          simp only [syncThrough,delivers_bind,delivers_get,failed,idle,target,Option.isSome_none,Bool.false_eq_true,
            ↓reduceIte,delivers_lift]
          exact ⟨fun _ no => (by cases no),fun error _ => refused error⟩
        | ok _ =>
          cases agrees : log.writer.lastAppended.any
            (fun appended => targetSeq ≠ appended.commitSeq ∨ targetEnd ≠ some appended.vlogEnd) with
          | true =>
            simp only [syncThrough,delivers_bind,delivers_get,failed,idle,target,agrees,Option.isSome_none,
              Bool.false_eq_true,↓reduceIte,delivers_lift,delivers_throw]
            exact ⟨fun _ _ => refused _,fun _ no => (by cases no)⟩
          | false =>
            cases older : log.writer.dirty.pendingDirectoryEntries.toList.any (fun entry => entry.2 > targetSeq) with
            | true =>
              simp only [syncThrough,delivers_bind,delivers_get,failed,idle,target,agrees,older,Option.isSome_none,
                Bool.false_eq_true,↓reduceIte,delivers_lift,delivers_throw]
              exact ⟨fun _ _ => refused _,fun _ no => (by cases no)⟩
            | false =>
              refine absurd ⟨failed,idle,target,?_,?_⟩ ready
              · intro appended found
                simp only [Option.any_eq_false,decide_eq_false_iff_not,not_or,not_not,ne_eq] at agrees
                exact agrees appended found
              · intro fileId seq member
                simp only [List.any_eq_false,decide_eq_true_eq,Nat.not_lt] at older
                exact older (fileId,seq) member

end calls

section settled
variable {log : ValueLog}

theorem mem_foldl_erase {files : List Nat} {dirty : Std.ExtTreeSet Nat compare} {fileId : Nat} :
    fileId ∈ files.foldl (fun files fileId => files.erase fileId) dirty ↔ fileId ∈ dirty ∧ fileId ∉ files := by
  induction files generalizing dirty with
  | nil => simp
  | cons first rest ih =>
    rw [List.foldl_cons,ih,Std.ExtTreeSet.mem_erase,ne_eq,Std.LawfulEqCmp.compare_eq_iff_eq,List.mem_cons,not_or,
      @eq_comm _ fileId first]
    tauto

theorem getElem?_foldl_erase {files : List Nat} {entries : Std.ExtTreeMap Nat Nat compare} {fileId : Nat} :
    (files.foldl (fun entries fileId => entries.erase fileId) entries)[fileId]? =
      if fileId ∈ files then none else entries[fileId]? := by
  induction files generalizing entries with
  | nil => simp
  | cons first rest ih =>
    rw [List.foldl_cons,ih,Std.ExtTreeMap.getElem?_erase]
    simp only [Std.LawfulEqCmp.compare_eq_iff_eq,List.mem_cons,@eq_comm _ fileId first]
    split
    · rename_i member
      simp [member]
    · rename_i absent
      simp only [absent,or_false]

-- Calls that only concern the index.
structure IndexMoved (before after : Storage) : Prop where
  vlog : after.vlog = before.vlog
  trace : ∃ events, after.trace = events ++ before.trace ∧
    ∀ event ∈ events, ∃ batch mode, event = .submitted batch mode ∨ event = .applied batch mode

theorem IndexMoved.covers {before after : Storage} (moved : IndexMoved before after) (fileId : Nat) :
    Event.covered after.trace fileId = Event.covered before.trace fileId ∧
      Event.linked after.trace fileId = Event.linked before.trace fileId := by
  obtain ⟨events,trace,only⟩ := moved.trace
  rw [trace]
  clear trace
  induction events with
  | nil => exact ⟨rfl,rfl⟩
  | cons event rest ih =>
    obtain ⟨covered,linked⟩ := ih (fun later member => only later (List.mem_cons_of_mem _ member))
    obtain ⟨batch,mode,rfl | rfl⟩ := only event List.mem_cons_self
    · exact ⟨covered,linked⟩
    · exact ⟨covered,linked⟩

theorem Books.indexMoved {storage : Storage} (books : Books log) (moved : IndexMoved log.storage storage) :
    Books {log with storage} :=
  books.same (by rw [moved.vlog]) rfl rfl (fun other _ => moved.covers other)

-- The token of a sync, once the frontier stands: what it names is durable and leaves the books.
theorem SyncedThrough.succeeded {after : ValueLog} {targetSeq : Nat} {targetEnd : Option VLogPosition}
    {synced : FrontierSync} {storage : Storage} (books : Books log)
    (through : SyncedThrough log after targetSeq targetEnd synced) (moved : IndexMoved after.storage storage) :
    Delivers (frontierSucceeded synced) {after with storage}
      (fun _ settled => settled.storage = storage ∧ Books settled ∧ settled.writer = {log.writer with
        dirty := ⟨synced.files.foldl (fun files fileId => files.erase fileId) log.writer.dirty.dirtyFiles,
          synced.directoryEntries.foldl (fun entries fileId => entries.erase fileId)
            log.writer.dirty.pendingDirectoryEntries⟩
        nextSyncId := log.writer.nextSyncId + 1})
      (fun _ _ => False) := by
  have kept : Books {after with storage} := by
    refine Books.indexMoved ?_ moved
    have same := books.synced through.storage
    exact same.same rfl (by rw [through.writer]) (by rw [through.writer]) (fun _ _ => ⟨rfl,rfl⟩)
  have consumed : consumeSync after.writer synced = .ok () := by
    rw [consumeSync,through.writer,through.token]
    exact rejectIf_false (by simp)
  have idle := through.ready.idle
  have vlog : storage.vlog = log.storage.vlog := moved.vlog.trans through.storage.vlog
  have contents : ∀ (fileId : Nat) (found : Bytes), storage.vlog.files[fileId]? = some found →
      (log.storage.contents fileId).length = found.length := by
    intro fileId found present
    rw [vlog] at present
    rw [Storage.contents,present,Option.getD_some]
  simp only [frontierSucceeded,delivers_bind,delivers_get,delivers_lift,consumed]
  refine ⟨fun _ _ => ?_,fun _ no => (by cases no)⟩
  rw [delivers_onWriter]
  refine ⟨rfl,⟨?_,?_,?_,?_,?_,?_⟩,?_⟩
  · exact kept.current
  · intro fileId member
    exact kept.dirty fileId (mem_foldl_erase.mp member).1
  · intro fileId member
    refine kept.pending fileId ?_
    have found := Std.ExtTreeMap.mem_iff_isSome_getElem?.mp member
    simp only [getElem?_foldl_erase] at found
    split at found
    · cases found
    · exact Std.ExtTreeMap.mem_iff_isSome_getElem?.mpr found
  · exact kept.bounded
  · intro fileId found present clean
    by_cases dirty : fileId ∈ after.writer.dirty.dirtyFiles
    · have named : fileId ∈ synced.files := by
        by_contra absent
        exact clean (mem_foldl_erase.mpr ⟨dirty,absent⟩)
      rw [(moved.covers fileId).1,through.covered fileId named]
      exact contents fileId found present
    · exact kept.clean fileId found present dirty
  · intro fileId present unlisted
    by_cases listed : fileId ∈ after.writer.dirty.pendingDirectoryEntries
    · have named : fileId ∈ synced.directoryEntries := by
        by_contra absent
        refine unlisted (Std.ExtTreeMap.mem_iff_isSome_getElem?.mpr ?_)
        simp only [getElem?_foldl_erase,if_neg absent]
        exact Std.ExtTreeMap.mem_iff_isSome_getElem?.mp listed
      rw [(moved.covers fileId).2]
      exact through.linked fileId named
    · exact kept.linked fileId present listed
  · rw [through.writer,←idle]

end settled

end ExpirKv
