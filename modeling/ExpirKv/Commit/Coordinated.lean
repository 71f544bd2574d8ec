import ExpirKv.Commit.Preparing
import ExpirKv.Commit.WriterRuns

namespace ExpirKv
open VLogGeometry Storage ValueLog

-- The writer is locked, and its position handed over, only for a write with a put.
def coordinatorContext (write : ValidatedWrite) (writer : ValueLogWriter) : Option VlogContext :=
  match write.transactionKind with
  | .vlogEnvelope => some ⟨writer.databaseUuid,writer.position,writer.geometry⟩
  | .indexOnlyDelete => none

-- What the preparation needs of a writer. A stopped writer stands wherever it was stopped and is never asked again.
structure WriterReady (writer : ValueLogWriter) : Prop where
  geometry : writer.geometry = production
  named : writer.databaseUuid.isZero = false
  placeable : writer.appendFailed = false → Placeable writer.position

theorem WriterReady.same {before after : ValueLogWriter} (ready : WriterReady before)
    (geometry : after.geometry = before.geometry) (named : after.databaseUuid = before.databaseUuid)
    (stays : after.appendFailed = false → before.appendFailed = false ∧ after.state = before.state) :
    WriterReady after := by
  refine ⟨geometry.trans ready.geometry,by rw [named]; exact ready.named,?_⟩
  intro healthy
  obtain ⟨before,state⟩ := stays healthy
  rw [ValueLogWriter.position,geometry,state]
  exact ready.placeable before

section coordinator
variable [Crc32c] {start log after : ValueLog}

-- Recovery hands over a log that is empty or ends with an envelope it has scanned. A file set has a database, and
-- the production geometry.
structure CoordinatorOpened (log : ValueLog) : Prop where
  opened : ∃ acceptedEnd storage next writer, ValueLogRecovery.intoWriter acceptedEnd storage = .ok writer next ∧
    log = ⟨next.reopened,writer⟩ ∧ storage.vlog.geometry = production ∧ storage.vlog.databaseUuid.isZero = false ∧
    ∀ position ∈ acceptedEnd, ∃ chunks databaseUuid vlogBegin expected scanned,
      scanPreparedEnvelope chunks production databaseUuid vlogBegin position expected = .ok scanned

-- A writer step whose append takes an envelope that was prepared for the writer as it stands.
inductive CoordinatorStep (log : ValueLog) : ValueLog → Prop
  | appended {after : ValueLog} {write : ValidatedWrite} {headSeq : Nat} {getUser : Bytes → Result (Option Bytes)}
      {uuidSource : Except IoError Uuid} {commit : PreparedCommit} {envelope : PreparedEnvelope} :
      prepareCommit write headSeq (coordinatorContext write log.writer) getUser uuidSource true = .ok commit →
      commit.envelope = some envelope → append envelope log = .ok () after → CoordinatorStep log after
  | notAppended {after : ValueLog} {write : ValidatedWrite} {headSeq : Nat} {getUser : Bytes → Result (Option Bytes)}
      {uuidSource : Except IoError Uuid} {commit : PreparedCommit} {envelope : PreparedEnvelope} {error : StorageError} :
      prepareCommit write headSeq (coordinatorContext write log.writer) getUser uuidSource true = .ok commit →
      commit.envelope = some envelope → append envelope log = .error error after → CoordinatorStep log after
  | indexed {storage : Storage} : IndexMoved log.storage storage → CoordinatorStep log {log with storage}
  | synced {after : ValueLog} {targetSeq : Nat} {targetEnd : Option VLogPosition} {synced : FrontierSync} :
      syncThrough targetSeq targetEnd log = .ok synced after → CoordinatorStep log after
  | notSynced {after : ValueLog} {targetSeq : Nat} {targetEnd : Option VLogPosition} {error : StorageError} :
      syncThrough targetSeq targetEnd log = .error error after → CoordinatorStep log after
  | succeeded {after settled : ValueLog} {targetSeq : Nat} {targetEnd : Option VLogPosition} {synced : FrontierSync}
      {storage : Storage} : syncThrough targetSeq targetEnd log = .ok synced after → IndexMoved after.storage storage →
      frontierSucceeded synced {after with storage} = .ok () settled → CoordinatorStep log settled
  | failed {after settled : ValueLog} {targetSeq : Nat} {targetEnd : Option VLogPosition} {synced : FrontierSync}
      {storage : Storage} : syncThrough targetSeq targetEnd log = .ok synced after → IndexMoved after.storage storage →
      frontierFailed synced {after with storage} = .ok () settled → CoordinatorStep log settled

inductive CoordinatorRun (start : ValueLog) : ValueLog → Prop
  | start : CoordinatorRun start start
  | step {log after : ValueLog} : CoordinatorRun start log → CoordinatorStep log after → CoordinatorRun start after

theorem CoordinatorStep.writerStep (step : CoordinatorStep log after) : WriterStep log after := by
  cases step with
  | appended _ _ ran => exact .appended ran
  | notAppended _ _ ran => exact .notAppended ran
  | indexed moved => exact .indexed moved
  | synced ran => exact .synced ran
  | notSynced ran => exact .notSynced ran
  | succeeded ran moved settled => exact .succeeded ran moved settled
  | failed ran moved settled => exact .failed ran moved settled

theorem prepareEnvelope_placeable {position : VLogPosition} {databaseUuid txUuid : Uuid} {commitSeq : Nat}
    {operations : List LogicalOperation} {envelope : PreparedEnvelope} {next : LayoutPlanner}
    (placeable : Placeable position)
    (prepared : prepareEnvelope ⟨production,position⟩ databaseUuid commitSeq txUuid operations = .ok (envelope,next)) :
    Placeable envelope.vlogEnd := by
  simp only [prepareEnvelope,bind_ok,exists_unit,mapError_ok,rejectIf_ok,orError_ok,pure_ok,Except.ok.injEq,
    Prod.mk.injEq] at prepared
  obtain ⟨-,-,-,lens,-,⟨placements,last⟩,planned,_,-,_,-,_,-,_,-,_,-,_,-,_,-,_,-,_,-,_,-,rfl,-⟩ := prepared
  exact (planRecords_run planned).1.placeable placeable

-- The envelope of a commit is the one `prepare_envelope` makes at the writer.
theorem prepareCommit_envelope {write : ValidatedWrite} {headSeq : Nat} {writer : ValueLogWriter}
    {getUser : Bytes → Result (Option Bytes)} {uuidSource : Except IoError Uuid} {allocated : Bool}
    {commit : PreparedCommit} {envelope : PreparedEnvelope} (ready : WriterReady writer)
    (healthy : writer.appendFailed = false)
    (prepared : prepareCommit write headSeq (coordinatorContext write writer) getUser uuidSource allocated = .ok commit)
    (written : commit.envelope = some envelope) : Placeable envelope.vlogEnd := by
  simp only [prepareCommit,prepareDescribed,map_ok,bind_ok,exists_unit,mapError_ok,rejectIf_ok,pure_ok,
    Except.ok.injEq] at prepared
  obtain ⟨_,⟨seq,-,-,befores,-,txUuid,-,made,enveloped,plans,-,encoded,-,batch,-,rfl⟩,rfl⟩ := prepared
  simp only at written
  subst written
  have placeable := ready.placeable healthy
  unfold prepareCommitEnvelope coordinatorContext at enveloped
  cases kind : write.transactionKind with
  | indexOnlyDelete =>
    rw [kind] at enveloped
    simp at enveloped
  | vlogEnvelope =>
    rw [kind] at enveloped
    simp only [orError,ok_bind,bind_ok,exists_unit,mapError_ok,rejectIf_ok,pure_ok,Except.ok.injEq,Option.some.injEq,
      ready.geometry,fromPosition_placeable placeable] at enveloped
    obtain ⟨-,_,rfl,⟨envelope,next⟩,prepared,rfl⟩ := enveloped
    exact prepareEnvelope_placeable placeable prepared

theorem CoordinatorStep.ready (step : CoordinatorStep log after) (books : Books log) (ready : WriterReady log.writer) :
    WriterReady after.writer := by
  cases step with
  | appended prepared written ran =>
    obtain ⟨appended,healthy⟩ := (append_delivers books).of_ok ran
    obtain ⟨last,frame⟩ := appended.frame
    have same : after.writer.databaseUuid = log.writer.databaseUuid := frame.databaseUuid
    refine ⟨frame.geometry.trans ready.geometry,by rw [same]; exact ready.named,?_⟩
    intro _
    rw [appended.position]
    exact prepareCommit_envelope ready healthy prepared written
  | notAppended prepared written ran =>
    have failed := (append_delivers books).of_error ran
    obtain ⟨-,same⟩ | ⟨stopped,-⟩ := failed.outcome
    · rw [same]
      exact ready
    · obtain ⟨⟨flag,frame⟩,-⟩ := failed.frame
      refine ready.same frame.geometry frame.databaseUuid ?_
      intro healthy
      rw [stopped] at healthy
      cases healthy
  | indexed moved => exact ready
  | synced ran =>
    have through := (syncThrough_delivers _ _).of_ok ran
    refine ready.same ?_ ?_ ?_ <;> rw [through.writer]
    exact fun healthy => ⟨healthy,rfl⟩
  | notSynced ran =>
    obtain ⟨same,-⟩ | same := ((syncThrough_delivers _ _).of_error ran).writer
    · rw [same]
      exact ready
    · refine ready.same ?_ ?_ ?_ <;> rw [same]
      · rfl
      · rfl
      · intro healthy
        cases healthy
  | succeeded ran moved settled =>
    have through := (syncThrough_delivers _ _).of_ok ran
    have writer := ((through.succeeded books moved).of_ok settled).2.2
    refine ready.same ?_ ?_ ?_ <;> rw [writer]
    exact fun healthy => ⟨healthy,rfl⟩
  | failed ran moved settled =>
    have through := (syncThrough_delivers _ _).of_ok ran
    have writer := frontierFailed_ok settled
    refine ready.same ?_ ?_ ?_ <;> rw [writer]
    · simp only [through.writer]
    · simp only [through.writer]
    · intro healthy
      cases healthy

theorem CoordinatorOpened.begins (opened : CoordinatorOpened log) : Books log ∧ WriterReady log.writer := by
  obtain ⟨acceptedEnd,storage,next,writer,ran,rfl,geometry,named,scanned⟩ := opened.opened
  obtain ⟨same,begun⟩ := (intoWriter_delivers acceptedEnd).of_ok ran
  refine ⟨begun.books same,?_⟩
  have layout : writer.geometry = production := by
    rw [begun.fresh]
    exact geometry
  refine ⟨layout,by rw [begun.fresh]; exact named,?_⟩
  intro _
  simp only [ValueLogWriter.position,layout]
  cases acceptedEnd with
  | none =>
    rw [begun.empty rfl]
    exact AppendPosition.empty.placeable
  | some position =>
    obtain ⟨chunks,databaseUuid,vlogBegin,expected,envelope,accepted⟩ := scanned position rfl
    have placeable := scanPreparedEnvelope_placeable accepted
    obtain ⟨-,state⟩ := begun.current position rfl
    rw [state,geometry]
    split
    · rename_i full
      obtain ⟨file,offset⟩ := position
      simp only at full
      rw [full] at placeable
      exact placeable
    · exact placeable

theorem CoordinatorRun.ready (run : CoordinatorRun start log) (opened : CoordinatorOpened start) :
    Books log ∧ WriterReady log.writer := by
  induction run with
  | start => exact opened.begins
  | step _ step ih => exact ⟨step.writerStep.books ih.1,step.ready ih.1 ih.2⟩

end coordinator

end ExpirKv
