import ExpirKv.Recovery.ExecuteSteps
import ExpirKv.Vlog.Sync

namespace ExpirKv
open VLogGeometry Storage ValueLog

section opening

-- A process that opens a log finds the files as they are; nothing it finds can be lost any more.
def Storage.reopened (storage : Storage) : Storage :=
  {storage with trace := storage.vlog.files.toList.map (fun file => .found file.1 file.2.length)}

theorem found_covers {files : List (Nat × Bytes)} (distinct : files.Pairwise (fun one other => one.1 ≠ other.1))
    {fileId : Nat} {contents : Bytes} (member : (fileId,contents) ∈ files) :
    Event.covered (files.map (fun file => .found file.1 file.2.length)) fileId = contents.length ∧
      Event.linked (files.map (fun file => .found file.1 file.2.length)) fileId = true := by
  induction files with
  | nil => cases member
  | cons first rest ih =>
    obtain ⟨apart,others⟩ := List.pairwise_cons.mp distinct
    simp only [List.map_cons,Event.covered,Event.linked]
    rcases List.mem_cons.mp member with rfl | member
    · simp
    · rw [if_neg (apart _ member)]
      obtain ⟨covered,linked⟩ := ih others member
      exact ⟨covered,by rw [linked,Bool.or_true]⟩

theorem reopened_covers (storage : Storage) {fileId : Nat} {contents : Bytes}
    (found : storage.vlog.files[fileId]? = some contents) :
    Event.covered storage.reopened.trace fileId = contents.length ∧ Event.linked storage.reopened.trace fileId = true := by
  refine found_covers ?_ (Std.ExtTreeMap.mem_toList_iff_getElem?_eq_some.mpr found)
  refine (Std.ExtTreeMap.distinct_keys_toList).imp ?_
  intro one other apart same
  exact apart (Std.LawfulEqCmp.compare_eq_iff_eq.mpr same)

variable [Crc32c]

-- The writer a recovered log starts with.
structure WriterOpened (storage : Storage) (acceptedEnd : Option VLogPosition) (writer : ValueLogWriter) : Prop where
  fresh : writer = ⟨storage.vlog.databaseUuid,storage.vlog.geometry,writer.state,⟨∅,∅⟩,none,1,false,none⟩
  empty : acceptedEnd = none → writer.state = .empty
  current : ∀ position ∈ acceptedEnd, (∃ contents, storage.vlog.files[position.fileId]? = some contents ∧
    contents.length = position.offset) ∧
    writer.state = if position.offset = storage.vlog.geometry.maxFileSize then .atFileLimit position.fileId
      else .open position.fileId position.offset

theorem openAppendState_delivers {storage : Storage} (acceptedEnd : Option VLogPosition) :
    Delivers (ValueLogRecovery.openAppendState acceptedEnd) storage
      (fun state next => next.vlog = storage.vlog ∧ (acceptedEnd = none → state = .empty) ∧
        ∀ position ∈ acceptedEnd, (∃ contents, storage.vlog.files[position.fileId]? = some contents ∧
          contents.length = position.offset) ∧
          state = if position.offset = storage.vlog.geometry.maxFileSize then .atFileLimit position.fileId
            else .open position.fileId position.offset)
      (fun _ _ => True) := by
  unfold ValueLogRecovery.openAppendState
  split
  · rw [delivers_bind,delivers_get,delivers_bind,delivers_lift]
    refine ⟨fun _ _ => ⟨rfl,fun _ => rfl,?_⟩,fun _ _ => trivial⟩
    intro position none
    cases none
  · rename_i position
    rw [delivers_bind,delivers_get,delivers_bind,delivers_lift]
    refine ⟨fun _ _ => ?_,fun _ _ => trivial⟩
    rw [delivers_bind,delivers_lift]
    refine ⟨fun _ _ => ?_,fun _ _ => trivial⟩
    rw [delivers_bind,delivers_mapError,Storage.openWritable,delivers_bind,delivers_get]
    split
    · exact trivial
    · rename_i contained
      refine delivers_perform ?_ (fun _ _ => trivial)
      intro first
      rw [delivers_bind,delivers_mapError,Storage.verify,delivers_bind,delivers_get]
      split
      · exact trivial
      · refine delivers_mapError.mpr (delivers_perform ?_ (fun _ _ => trivial))
        intro second
        rw [delivers_bind,delivers_mapError,Storage.fileLen,delivers_bind]
        refine delivers_perform ?_ (fun _ _ => trivial)
        intro third
        rw [delivers_bind,delivers_get,delivers_pure,delivers_bind,delivers_lift]
        refine ⟨?_,fun _ _ => trivial⟩
        intro _ sized
        rw [rejectIf_ok,not_not] at sized
        have calm : Calm (fun before after : Storage => after.vlog = before.vlog) :=
          ⟨fun _ => rfl,fun _ _ _ left right => right.trans left,fun _ _ => rfl,fun _ _ => rfl,fun _ => rfl⟩
        have checked : Leaves (ValueLogRecovery.validateAcceptedCatalog position)
            (fun before after : Storage => after.vlog = before.vlog) :=
          calm.bind calm.get (fun _ => calm.bind (calm.lift _) (fun _ => calm.forM (fun fileId _ =>
            calm.checkAcceptedFile _ fileId)))
        rw [delivers_bind]
        refine (checked _).mono ?_ (fun _ _ _ => trivial)
        intro _ after same
        refine ⟨same,fun none => (by cases none),?_⟩
        rintro _ ⟨⟩
        refine ⟨?_,rfl⟩
        cases found : storage.vlog.files[position.fileId]? with
        | none => simp [Std.ExtTreeMap.contains_eq_isSome_getElem?,found] at contained
        | some contents =>
          refine ⟨contents,rfl,?_⟩
          simpa only [id_eq,Storage.contents,found,Option.getD_some] using sized

theorem intoWriter_delivers {storage : Storage} (acceptedEnd : Option VLogPosition) :
    Delivers (ValueLogRecovery.intoWriter acceptedEnd) storage
      (fun writer next => next.vlog = storage.vlog ∧ WriterOpened storage acceptedEnd writer) (fun _ _ => True) := by
  unfold ValueLogRecovery.intoWriter
  rw [delivers_bind]
  refine (openAppendState_delivers acceptedEnd).mono ?_ (fun _ _ _ => trivial)
  rintro state next ⟨same,empty,current⟩
  rw [delivers_bind,delivers_get,delivers_pure]
  exact ⟨same,by rw [same],empty,current⟩

omit [Crc32c] in
theorem WriterOpened.books {storage next : Storage} {acceptedEnd : Option VLogPosition} {writer : ValueLogWriter}
    (opened : WriterOpened storage acceptedEnd writer) (same : next.vlog = storage.vlog) :
    Books ⟨next.reopened,writer⟩ := by
  have dirty : writer.dirty = ⟨∅,∅⟩ := by rw [opened.fresh]
  have covers : ∀ (fileId : Nat) (contents : Bytes), next.vlog.files[fileId]? = some contents →
      Event.covered next.reopened.trace fileId = contents.length ∧ Event.linked next.reopened.trace fileId = true :=
    fun fileId contents found => reopened_covers next found
  refine ⟨?_,?_,?_,?_,?_,?_⟩
  · intro fileId offset here
    simp only at here
    cases acceptedEnd with
    | none =>
      rw [opened.empty rfl] at here
      cases here
    | some position =>
      obtain ⟨present,state⟩ := opened.current position rfl
      rw [state] at here
      split at here
      · cases here
      · obtain ⟨rfl,rfl⟩ := AppendState.open.inj here
        change ∃ contents, next.vlog.files[position.fileId]? = some contents ∧ _
        rw [same]
        exact present
  · intro fileId member
    rw [dirty] at member
    simp at member
  · intro fileId member
    rw [dirty] at member
    simp at member
  · intro fileId contents found
    exact Nat.le_of_eq (covers fileId contents found).1
  · intro fileId contents found _
    exact (covers fileId contents found).1
  · intro fileId found _
    cases held : next.vlog.files[fileId]? with
    | none => exact absurd held found
    | some contents => exact (covers fileId contents held).2

end opening

section running
variable [Crc32c] {log after : ValueLog}

-- What can happen to an opened log. A token is settled after the index took the frontier, or is left unsettled.
inductive WriterStep : ValueLog → ValueLog → Prop
  | appended {log after : ValueLog} {envelope : PreparedEnvelope} : append envelope log = .ok () after →
      WriterStep log after
  | notAppended {log after : ValueLog} {envelope : PreparedEnvelope} {error : StorageError} :
      append envelope log = .error error after → WriterStep log after
  | indexed {log : ValueLog} {storage : Storage} : IndexMoved log.storage storage → WriterStep log {log with storage}
  | synced {log after : ValueLog} {targetSeq : Nat} {targetEnd : Option VLogPosition} {synced : FrontierSync} :
      syncThrough targetSeq targetEnd log = .ok synced after → WriterStep log after
  | notSynced {log after : ValueLog} {targetSeq : Nat} {targetEnd : Option VLogPosition} {error : StorageError} :
      syncThrough targetSeq targetEnd log = .error error after → WriterStep log after
  | succeeded {log after settled : ValueLog} {targetSeq : Nat} {targetEnd : Option VLogPosition} {synced : FrontierSync}
      {storage : Storage} : syncThrough targetSeq targetEnd log = .ok synced after → IndexMoved after.storage storage →
      frontierSucceeded synced {after with storage} = .ok () settled → WriterStep log settled
  | failed {log after settled : ValueLog} {targetSeq : Nat} {targetEnd : Option VLogPosition} {synced : FrontierSync}
      {storage : Storage} : syncThrough targetSeq targetEnd log = .ok synced after → IndexMoved after.storage storage →
      frontierFailed synced {after with storage} = .ok () settled → WriterStep log settled

inductive WriterRun (start : ValueLog) : ValueLog → Prop
  | start : WriterRun start start
  | step {log after : ValueLog} : WriterRun start log → WriterStep log after → WriterRun start after

omit [Crc32c] in
-- A token that stays unsettled changes no file and no set.
theorem SyncedThrough.books {targetSeq : Nat} {targetEnd : Option VLogPosition} {synced : FrontierSync}
    (through : SyncedThrough log after targetSeq targetEnd synced) (books : Books log) : Books after :=
  (books.synced through.storage).same rfl (by rw [through.writer]) (by rw [through.writer]) (fun _ _ => ⟨rfl,rfl⟩)

omit [Crc32c] in
theorem SyncFailed.books {targetSeq : Nat} {targetEnd : Option VLogPosition} {error : StorageError}
    (failed : SyncFailed log after targetSeq targetEnd error) (books : Books log) : Books after := by
  rcases failed.writer with ⟨same,-⟩ | same
  · exact (books.synced failed.storage).same rfl (by rw [same]) (by rw [same]) (fun _ _ => ⟨rfl,rfl⟩)
  · exact (books.synced failed.storage).same rfl (by rw [same]; rfl) (by rw [same]; rfl) (fun _ _ => ⟨rfl,rfl⟩)

omit [Crc32c] in
theorem frontierFailed_ok {synced : FrontierSync} (ran : frontierFailed synced log = .ok () after) :
    after = {log with writer := {log.writer with pendingSyncId := none, appendFailed := true}} := by
  have known : Delivers (frontierFailed synced) log
      (fun _ after => after = {log with writer := {log.writer with pendingSyncId := none, appendFailed := true}})
      (fun _ _ => True) := by
    unfold frontierFailed
    rw [delivers_bind,delivers_get,delivers_bind,delivers_lift]
    exact ⟨fun _ _ => rfl,fun _ _ => trivial⟩
  exact known.of_ok ran

theorem WriterStep.books (step : WriterStep log after) (books : Books log) : Books after := by
  cases step with
  | appended ran => exact ((append_delivers books).of_ok ran).1.books
  | notAppended ran => exact ((append_delivers books).of_error ran).frame.books
  | indexed moved => exact books.indexMoved moved
  | synced ran => exact ((syncThrough_delivers _ _).of_ok ran).books books
  | notSynced ran => exact ((syncThrough_delivers _ _).of_error ran).books books
  | succeeded ran moved settled => exact (((syncThrough_delivers _ _).of_ok ran).succeeded books moved).of_ok settled |>.2.1
  | failed ran moved settled =>
    have kept := (((syncThrough_delivers _ _).of_ok ran).books books).indexMoved moved
    rw [frontierFailed_ok settled]
    exact kept.same rfl rfl rfl (fun _ _ => ⟨rfl,rfl⟩)

theorem WriterRun.books {start : ValueLog} (run : WriterRun start log) (books : Books start) : Books log := by
  induction run with
  | start => exact books
  | step _ step ih => exact step.books ih

-- A stopped writer refuses before it makes a call.
theorem append_stopped {envelope : PreparedEnvelope} (stopped : log.writer.appendFailed = true) :
    append envelope log = .error (writerStopped envelope.commitSeq envelope.vlogBegin) log := by
  simp only [append,bind,EStateM.bind,get,getThe,MonadStateOf.get,EStateM.get,stopped,if_true]
  rfl

omit [Crc32c] in
theorem syncThrough_stopped {targetSeq : Nat} {targetEnd : Option VLogPosition}
    (stopped : log.writer.appendFailed = true) :
    syncThrough targetSeq targetEnd log = .error (syncStopped targetSeq targetEnd) log := by
  simp only [syncThrough,bind,EStateM.bind,get,getThe,MonadStateOf.get,EStateM.get,stopped,if_true]
  rfl

theorem WriterStep.stopped (step : WriterStep log after) (stopped : log.writer.appendFailed = true) :
    after.writer.appendFailed = true := by
  cases step with
  | appended ran => rw [append_stopped stopped] at ran; cases ran
  | notAppended ran =>
    rw [append_stopped stopped] at ran
    cases ran
    exact stopped
  | indexed moved => exact stopped
  | synced ran => rw [syncThrough_stopped stopped] at ran; cases ran
  | notSynced ran =>
    rw [syncThrough_stopped stopped] at ran
    cases ran
    exact stopped
  | succeeded ran => rw [syncThrough_stopped stopped] at ran; cases ran
  | failed ran => rw [syncThrough_stopped stopped] at ran; cases ran

theorem WriterRun.stopped {start : ValueLog} (run : WriterRun start log) (stopped : start.writer.appendFailed = true) :
    log.writer.appendFailed = true := by
  induction run with
  | start => exact stopped
  | step _ step ih => exact step.stopped ih

end running

section prefixes

-- Every byte that stood still stands at its place.
def Keeps (before after : Directory) : Prop :=
  ∀ (fileId : Nat) (contents : Bytes), before[fileId]? = some contents →
    ∃ more, after[fileId]? = some (contents ++ more)

theorem Keeps.trans {before middle after : Directory} (left : Keeps before middle) (right : Keeps middle after) :
    Keeps before after := by
  intro fileId contents found
  obtain ⟨first,reached⟩ := left fileId contents found
  obtain ⟨second,ended⟩ := right fileId _ reached
  exact ⟨first ++ second,by rw [ended,List.append_assoc]⟩

theorem putBehind_keeps (files : Directory) (chunk : PhysicalChunk) : Keeps files (putBehind files chunk) := by
  intro fileId contents found
  rw [putBehind,Std.ExtTreeMap.getElem?_insert]
  split
  · rename_i same
    rw [Std.LawfulEqCmp.eq_of_compare same,found]
    exact ⟨chunk.bytes,rfl⟩
  · exact ⟨[],by rw [found,List.append_nil]⟩

theorem foldl_putBehind_keeps (chunks : List PhysicalChunk) (files : Directory) :
    Keeps files (chunks.foldl putBehind files) := by
  induction chunks generalizing files with
  | nil => exact fun _ _ found => ⟨[],by rw [List.append_nil]; exact found⟩
  | cons chunk rest ih => exact (putBehind_keeps files chunk).trans (ih _)

theorem Stopped.keeps {before after : ValueLog} {chunks : List PhysicalChunk} (stopped : Stopped before after chunks) :
    Keeps before.storage.vlog.files after.storage.vlog.files := by
  cases stopped with
  | @here written _ files _ =>
    rw [files]
    exact foldl_putBehind_keeps written _
  | @created written fileId _ absent files _ =>
    rw [files]
    refine (foldl_putBehind_keeps written _).trans ?_
    intro other contents found
    refine ⟨[],?_⟩
    rw [Std.ExtTreeMap.getElem?_insert,List.append_nil]
    split
    · rename_i same
      rw [←Std.LawfulEqCmp.eq_of_compare same,absent] at found
      cases found
    · exact found

end prefixes

section appending
variable [Crc32c]

-- However the calls of an append end, the files hold a prefix of the envelope behind what they held.
theorem append_writes_prefix {storage next : Storage} {acceptedEnd : Option VLogPosition} {writer : ValueLogWriter}
    {log : ValueLog} (opened : ValueLogRecovery.intoWriter acceptedEnd storage = .ok writer next)
    (run : WriterRun ⟨next.reopened,writer⟩ log) (envelope : PreparedEnvelope) :
    Delivers (append envelope) log
      (fun _ after =>
        after.storage.vlog.files = envelope.chunks.foldl putBehind log.storage.vlog.files ∧
        Keeps log.storage.vlog.files after.storage.vlog.files ∧
        after.writer.position = envelope.vlogEnd ∧
        after.writer.lastAppended = some ⟨envelope.commitSeq,envelope.vlogEnd⟩)
      (fun _ after =>
        (after.storage.vlog = log.storage.vlog ∧ after.writer = log.writer) ∨
        (after.writer.appendFailed = true ∧ Stopped log after envelope.chunks ∧
          Keeps log.storage.vlog.files after.storage.vlog.files)) ∧
    (log.writer.appendFailed = true → ∀ later, WriterRun log later →
      (∀ other after, append other later ≠ .ok () after) ∧
      ∀ targetSeq targetEnd synced after, syncThrough targetSeq targetEnd later ≠ .ok synced after) := by
  have starts := (intoWriter_delivers acceptedEnd).of_ok opened
  have books := run.books (starts.2.books starts.1)
  refine ⟨(append_delivers books).mono ?_ ?_,?_⟩
  · rintro - after ⟨appended,-⟩
    refine ⟨appended.files,?_,appended.position,appended.last⟩
    rw [appended.files]
    exact foldl_putBehind_keeps _ _
  · intro error after failed
    rcases failed.outcome with same | ⟨latched,stopped⟩
    · exact .inl same
    · exact .inr ⟨latched,stopped,stopped.keeps⟩
  · intro latched later continued
    have still := continued.stopped latched
    refine ⟨?_,?_⟩
    · intro other after ran
      rw [append_stopped still] at ran
      cases ran
    · intro targetSeq targetEnd synced after ran
      rw [syncThrough_stopped still] at ran
      cases ran

end appending

-- A write that stops after ten bytes of the first envelope.
theorem append_writes_prefix_torn :
    let database : Uuid := ⟨List.replicate 16 1,rfl⟩
    let storage : Storage := ⟨.empty,.empty database,[.fine,.short 10,.io ⟨.other,some 5⟩],[]⟩
    ∃ writer envelope next error after,
      @ValueLogRecovery.intoWriter castagnoli none storage = .ok writer storage ∧
      @prepareEnvelope castagnoli ⟨production,⟨0,0⟩⟩ database 1 ⟨List.replicate 16 7,rfl⟩ [.put [1] [2,3]] =
        .ok (envelope,next) ∧
      @append castagnoli envelope ⟨storage.reopened,writer⟩ = .error error after ∧
      Stopped ⟨storage.reopened,writer⟩ after envelope.chunks ∧ (after.storage.contents 0).length = 10 := by
  intro database storage
  let writer : ValueLogWriter := ⟨database,production,.empty,⟨∅,∅⟩,none,1,false,none⟩
  have opened : @ValueLogRecovery.intoWriter castagnoli none storage = .ok writer storage := rfl
  have tears : ((@prepareEnvelope castagnoli ⟨production,⟨0,0⟩⟩ database 1 ⟨List.replicate 16 7,rfl⟩
      [.put [1] [2,3]]).toOption.any (fun pair =>
        match @append castagnoli pair.1 ⟨storage.reopened,writer⟩ with
        | .ok _ _ => false
        | .error _ after => (after.storage.contents 0).length == 10)) = true := by decide +kernel
  obtain ⟨⟨envelope,next⟩,prepared,tears⟩ := ok_of_any tears
  have outcome := (@ append_writes_prefix castagnoli storage storage none writer _ opened
    (@WriterRun.start castagnoli _) envelope).1
  cases ran : @append castagnoli envelope ⟨storage.reopened,writer⟩ with
  | ok _ after => rw [ran] at tears; cases tears
  | error error after =>
    rw [ran] at tears
    have ten : (after.storage.contents 0).length = 10 := by simpa using tears
    refine ⟨writer,envelope,next,error,after,opened,prepared,ran,?_,ten⟩
    rcases outcome.of_error ran with ⟨same,-⟩ | ⟨-,stopped,-⟩
    · rw [Storage.contents,same] at ten
      cases ten
    · exact stopped

end ExpirKv
