import ExpirKv.Commit.CoordinatorRuns
import ExpirKv.Commit.LiveMap
import ExpirKv.Recovery.Anchoring
import ExpirKv.Vlog.AppendGrows

namespace ExpirKv
open VLogGeometry Storage ValueLog CommitCoordinator

section invariant
variable [Crc32c]

-- Where a healthy instance stands in its files: at their end, behind its last envelope.
structure Footed (c : CommitCoordinator) : Prop where
  ends : EndsAt c.log.storage.vlog c.log.writer.position
  boundary : StableBoundary c.log.storage.vlog ⟨c.state.headSeq,c.state.headVlogSeq,c.state.headVlogEnd⟩

-- What holds of the files of every instance, stopped or not.
structure Grounded (c : CommitCoordinator) : Prop where
  sound : Sound c
  identity : c.log.storage.vlog.databaseUuid = c.log.writer.databaseUuid
  layout : c.log.storage.vlog.geometry = production
  stored : ∃ frontier, FrontierStored c.log.storage.index frontier ∧ StableBoundary c.log.storage.vlog frontier
  footed : c.runtime.state.instanceState = .healthy → Footed c

theorem Stored.frontierStored {index : Index} {headSeq : Nat} {frontier : DurableFrontier}
    (stored : Stored index headSeq frontier) (fits : frontier.durableSeq < 18446744073709551616) :
    FrontierStored index frontier := by
  obtain ⟨encoded,encodes,found⟩ := stored.frontier
  exact ⟨encoded,found,(DurableFrontier.decode_encode encodes fits).1⟩

theorem FileSet.Extends.boundary {files later : FileSet} {frontier : DurableFrontier} (grown : files.Extends later)
    (boundary : StableBoundary files frontier) : StableBoundary later frontier :=
  boundary.kept (fun stop _ => grown.keeps stop)

-- An envelope that the files hold is a stable boundary of them.
theorem EnvelopeLaid.boundary {files : FileSet} {databaseUuid txUuid : Uuid} {position : VLogPosition}
    {commitSeq durableSeq : Nat} {operations : List LogicalOperation} {envelope : PreparedEnvelope}
    (laid : EnvelopeLaid databaseUuid position commitSeq txUuid operations envelope) (positive : commitSeq ≠ 0)
    (placeable : Placeable position) (geometry : files.geometry = production) (identity : files.databaseUuid = databaseUuid)
    (held : ∀ chunk ∈ envelope.chunks, Holds files chunk) :
    StableBoundary files ⟨durableSeq,commitSeq,some envelope.vlogEnd⟩ := by
  have good := placeable.good
  have read := laid.read geometry identity ⟨good.1,good.2.1⟩
    (by simp : ∀ checksum ∈ some envelope.envelopeCrc32c, checksum = envelope.envelopeCrc32c) held
  exact ⟨positive,_,readStableEnvelopeFromEnd_of_read geometry read,rfl,rfl⟩

end invariant

section requests
variable [Crc32c] {c next : CommitCoordinator} {request : WriteRequest} {around : Surroundings} {write : ValidatedWrite}
  {prepared : PreparedCommit} {appended : ValueLog} {submission : Submission}

-- The log of a request behind its append.
structure Lodged (c : CommitCoordinator) (appended : ValueLog) : Prop where
  grown : c.log.storage.vlog.Extends appended.storage.vlog
  named : appended.writer.databaseUuid = c.log.writer.databaseUuid
  ends : EndsAt appended.storage.vlog appended.writer.position

theorem Footed.lodges (footed : Footed c) (ready : WriterReady c.log.writer) (healthy : c.log.writer.appendFailed = false)
    (identity : c.log.storage.vlog.databaseUuid = c.log.writer.databaseUuid)
    (ran : c.prepare write around = .ok prepared) (written : EnvelopeWritten c.log prepared.envelope appended) :
    Lodged c appended ∧ ∀ envelope ∈ prepared.envelope, appended.storage.vlog.Carries write envelope ∧
      StableBoundary appended.storage.vlog ⟨c.state.headSeq + 1,c.state.headSeq + 1,some envelope.vlogEnd⟩ := by
  cases present : prepared.envelope with
  | none =>
    rw [present] at written
    cases written with
    | none => exact ⟨⟨.refl _,rfl,footed.ends⟩,fun envelope none => by cases none⟩
  | some envelope =>
    rw [present] at written
    cases written with
    | appended _ appended =>
      obtain ⟨descriptor,prepares⟩ := CommitCoordinator.prepare_ok ran
      obtain ⟨next,made⟩ := CommitCoordinator.prepare_envelope ready ran present
      have laid := (prepareEnvelope_laid prepares.bound made).1
      obtain ⟨ends,grown,held⟩ := laid.lays footed.ends identity
      obtain ⟨last,frame⟩ := appended.frame
      have named : _ = c.log.writer.databaseUuid := frame.databaseUuid
      refine ⟨⟨?_,named,?_⟩,?_⟩
      · rw [appended.vlog]
        exact grown
      · rw [appended.vlog,appended.position]
        exact ends
      · intro other member
        obtain rfl := Option.mem_some.mp member
        rw [appended.vlog]
        refine ⟨⟨_,_,_,_,laid,held⟩,?_⟩
        exact laid.boundary (Nat.succ_ne_zero _) (ready.placeable healthy) ends.geometry
          ((FileSet.layAll_identity _ _).trans identity) held

theorem Grounded.submits (grounded : Grounded c) (healthy : c.runtime.state.instanceState = .healthy)
    (submits : Submits c around request appended submission) :
    Lodged c appended ∧
      StableBoundary appended.storage.vlog
        ⟨submission.published.headSeq,submission.published.headVlogSeq,submission.published.headVlogEnd⟩ ∧
      FrontierStored (c.log.storage.index.apply submission.batch) submission.published.durableFrontier ∧
      StableBoundary appended.storage.vlog submission.published.durableFrontier := by
  have accounted := grounded.sound.accounted healthy
  have footed := grounded.footed healthy
  have furthers := accounted.furthers grounded.sound.books grounded.sound.ready submits
  obtain ⟨lodged,target⟩ : Lodged c appended ∧ StableBoundary appended.storage.vlog
      ⟨submission.published.headSeq,submission.targetSeq,submission.targetEnd⟩ := by
    cases submits with
    | @nonempty write prepared batch _ ran _ written =>
      obtain ⟨lodged,carried⟩ := footed.lodges grounded.sound.ready accounted.aligned.healthy grounded.identity ran written
      refine ⟨lodged,?_⟩
      obtain ⟨descriptor,prepares⟩ := CommitCoordinator.prepare_ok ran
      simp only [CommitState.submission,vlogTarget,prepares.seq]
      cases present : prepared.envelope with
      | none => exact lodged.grown.boundary footed.boundary
      | some envelope => exact (carried envelope present).2
    | barrier => exact ⟨⟨.refl _,rfl,footed.ends⟩,footed.boundary⟩
  have stored := submits.stores accounted.stored
  obtain ⟨head,ends⟩ := furthers.head
  refine ⟨lodged,by rw [head,ends]; exact target,?_⟩
  rcases furthers.frontier with ⟨-,-,same,ordered,-⟩ | ⟨-,same⟩
  · have kept := stored.frontierStored (by rw [same]; exact Nat.lt_of_le_of_lt ordered furthers.bound)
    refine ⟨kept,?_⟩
    obtain ⟨frontier,found,boundary⟩ := grounded.stored
    have here := accounted.stored.frontierStored (Nat.lt_of_le_of_lt accounted.ordered accounted.bound)
    rw [same,here.unique found]
    exact lodged.grown.boundary boundary
  · refine ⟨stored.frontierStored (by rw [same]; exact furthers.bound),?_⟩
    rw [same]
    exact target

omit [Crc32c] in
theorem TargetSynced.vlog {synced : ValueLog} {targetSeq : Nat} {targetEnd : Option VLogPosition} {needed : Bool}
    {token : Option FrontierSync} (reached : TargetSynced appended targetSeq targetEnd needed token synced) :
    synced.storage.vlog = appended.storage.vlog := by
  cases reached with
  | needless => rfl
  | through through => exact through.storage.vlog

omit [Crc32c] in
theorem TargetSynced.databaseUuid {synced : ValueLog} {targetSeq : Nat} {targetEnd : Option VLogPosition} {needed : Bool}
    {token : Option FrontierSync} (reached : TargetSynced appended targetSeq targetEnd needed token synced) :
    synced.writer.databaseUuid = appended.writer.databaseUuid := by
  cases reached with
  | needless => rfl
  | through through => rw [through.writer]

omit [Crc32c] in
theorem IndexAnswered.lands {storage after : Storage} {batch : IndexAtomicBatch} {mode : IndexCommitMode}
    {answer : Except IndexCommitError Unit} (answered : IndexAnswered storage batch mode answer after) :
    after.index = storage.index ∨ after.index = storage.index.apply batch := by
  cases answered with
  | applied => exact .inr rfl
  | refused => exact .inl rfl
  | unknown => exact .inl rfl
  | landed => exact .inr rfl

omit [Crc32c] in
theorem RuntimeControl.Later.healthy {before after : RuntimeControl} (later : before.Later after)
    (healthy : after.state.instanceState = .healthy) : before.state.instanceState = .healthy := by
  have still := later.rank
  rw [rank_healthy.mpr healthy] at still
  exact rank_healthy.mp (Nat.le_zero.mp still)

omit [Crc32c] in
-- A refusal that leaves the instance healthy found it healthy and asked for nothing.
theorem Declined.stays {log : ValueLog} {target : InstanceState} {error : StorageError} {halt : Halt}
    (refused : Declined {c with log} next target error halt) (healthy : next.runtime.state.instanceState = .healthy) :
    c.runtime.state.instanceState = .healthy ∧ target = .healthy := by
  have still := RuntimeControl.rank_healthy.mpr healthy
  have later := refused.later.rank
  have latched := refused.latched
  rw [still] at later latched
  refine ⟨RuntimeControl.rank_healthy.mp (Nat.le_zero.mp later),?_⟩
  cases target with
  | healthy => rfl
  | writeStopped => cases latched
  | poisoned => cases latched

theorem Grounded.refused {log : ValueLog} {target : InstanceState} {error : StorageError} {halt : Halt}
    (grounded : Grounded c) (sound : Sound next) (refused : Declined {c with log} next target error halt)
    (grown : c.log.storage.vlog.Extends log.storage.vlog) (named : log.writer.databaseUuid = c.log.writer.databaseUuid)
    (stored : ∃ frontier, FrontierStored log.storage.index frontier ∧ StableBoundary log.storage.vlog frontier)
    (untouched : target = .healthy → log.writer = c.log.writer ∧ log.storage.vlog = c.log.storage.vlog) : Grounded next := by
  obtain ⟨runtime,after,state⟩ := next
  have sameLog : after = log := refused.log
  have sameState : state = c.state := refused.state
  subst sameLog sameState
  refine ⟨sound,?_,grown.geometry.trans grounded.layout,stored,?_⟩
  · exact grown.identity.trans (grounded.identity.trans named.symm)
  · intro healthy
    obtain ⟨before,asked⟩ := refused.stays healthy
    obtain ⟨writer,vlog⟩ := untouched asked
    obtain ⟨ends,boundary⟩ := grounded.footed before
    refine ⟨?_,?_⟩
    · simp only [writer,vlog]
      exact ends
    · simp only [vlog]
      exact boundary

-- Whatever a request comes to, what it left behind is founded in the files.
theorem Grounded.outcome {ended : Option Halt} (grounded : Grounded c)
    (outcome : RequestOutcome c request around next ended) : Grounded next := by
  have sound := grounded.sound.outcome outcome
  have layout : c.log.writer.geometry = c.log.storage.vlog.geometry :=
    grounded.sound.ready.geometry.trans grounded.layout.symm
  obtain ⟨frontier,found,boundary⟩ := grounded.stored
  cases outcome with
  | notAdmitted _ same => exact same ▸ grounded
  | nothing _ _ _ same => exact same ▸ grounded
  | notPrepared _ _ refused =>
    exact Grounded.refused grounded sound refused (.refl _) rfl ⟨frontier,found,boundary⟩ (fun _ => ⟨rfl,rfl⟩)
  | @notAppended write prepared envelope log error halt admits _ _ _ calls failed refused =>
    obtain ⟨⟨flag,frame⟩,books⟩ := failed.frame
    have index : log.storage.index = c.log.storage.index := frame.index
    have named : log.writer.databaseUuid = c.log.writer.databaseUuid := frame.databaseUuid
    have grown := (append_extends grounded.sound.books layout).of_error calls
    refine grounded.refused sound refused grown named ⟨frontier,by rw [index]; exact found,grown.boundary boundary⟩ ?_
    intro asked
    have lasting := classifyVlogAppendFailure_healthy (failureState_healthy asked)
    rcases failed.outcome with ⟨vlog,writer⟩ | ⟨stopped,-⟩
    · exact ⟨writer,vlog⟩
    · rw [lasting] at stopped
      cases stopped
  | @notSynced appended log submission error halt admits submits _ failed refused =>
    obtain ⟨lodged,-,-,-⟩ := grounded.submits admits.healthy submits
    have vlog := failed.storage.vlog
    have named : log.writer.databaseUuid = appended.writer.databaseUuid := by
      rcases failed.writer with ⟨same,-⟩ | same
      · rw [same]
      · rw [same]
        rfl
    refine grounded.refused sound refused (by rw [vlog]; exact lodged.grown) (named.trans lodged.named) ?_
      (fun no => by cases no)
    refine ⟨frontier,?_,?_⟩
    · rw [failed.storage.index,submits.index]
      exact found
    · rw [vlog]
      exact lodged.grown.boundary boundary
  | @notIndexed identity appended synced log submission token error storage halt admits submits reached answered settled
      refused =>
    obtain ⟨lodged,-,stores,target⟩ := grounded.submits admits.healthy submits
    have stops : failureState (indexFailure request error identity).1 (some (indexFailure request error identity).2) ≠
        .healthy := fun asked => indexFailure_stops request error identity (failureState_healthy asked)
    obtain ⟨after,writer⟩ := log
    have sameStorage : after = storage := settled.storage
    subst sameStorage
    have vlog : after.vlog = appended.storage.vlog := answered.moved.vlog.trans reached.vlog
    have named : writer.databaseUuid = synced.writer.databaseUuid := by
      rcases settled.writer with ⟨same,-⟩ | same
      · exact congrArg ValueLogWriter.databaseUuid same
      · simp only at same
        rw [same]
    refine grounded.refused sound refused (by simp only [vlog]; exact lodged.grown)
      (named.trans (reached.databaseUuid.trans lodged.named)) ?_ (fun asked => absurd asked stops)
    simp only [vlog]
    rcases answered.lands with same | applied
    · refine ⟨frontier,?_,lodged.grown.boundary boundary⟩
      rw [same,reached.index,submits.index]
      exact found
    · refine ⟨_,?_,target⟩
      rw [applied,reached.index,submits.index]
      exact stores
  | @indexed appended synced submission token storage stats admits submits reached answered same books =>
    subst same
    obtain ⟨lodged,head,stores,target⟩ := grounded.submits admits.healthy submits
    have vlog : storage.vlog = appended.storage.vlog := answered.moved.vlog.trans reached.vlog
    have writer : (appended.writer.settled token).databaseUuid = appended.writer.databaseUuid ∧
        (appended.writer.settled token).position = appended.writer.position := by
      cases token with
      | none => exact ⟨rfl,rfl⟩
      | some token => exact ⟨rfl,rfl⟩
    have index : storage.index = c.log.storage.index.apply submission.batch := by
      rw [←submits.index,←reached.index]
      cases answered with
      | applied script => rfl
    refine ⟨sound,?_,?_,?_,fun _ => ⟨?_,?_⟩⟩
    · simp only [vlog,writer]
      exact lodged.grown.identity.trans (grounded.identity.trans lodged.named.symm)
    · simp only [vlog]
      exact lodged.grown.geometry.trans grounded.layout
    · simp only [vlog,index]
      exact ⟨_,stores,target⟩
    · simp only [vlog,writer]
      exact lodged.ends
    · simp only [vlog]
      exact head

-- The files only grow, whatever a request comes to.
theorem RequestOutcome.grows {ended : Option Halt} (grounded : Grounded c)
    (outcome : RequestOutcome c request around next ended) : c.log.storage.vlog.Extends next.log.storage.vlog := by
  have layout : c.log.writer.geometry = c.log.storage.vlog.geometry :=
    grounded.sound.ready.geometry.trans grounded.layout.symm
  cases outcome with
  | notAdmitted _ same => exact same ▸ .refl _
  | nothing _ _ _ same => exact same ▸ .refl _
  | notPrepared _ _ refused =>
    rw [refused.log]
    exact .refl _
  | notAppended _ _ _ _ calls _ refused =>
    rw [refused.log]
    exact (append_extends grounded.sound.books layout).of_error calls
  | notSynced admits submits _ failed refused =>
    rw [refused.log,failed.storage.vlog]
    exact (grounded.submits admits.healthy submits).1.grown
  | notIndexed _ admits submits reached answered settled refused =>
    rw [refused.log]
    simp only [settled.storage,answered.moved.vlog,reached.vlog]
    exact (grounded.submits admits.healthy submits).1.grown
  | indexed admits submits reached answered same _ =>
    subst same
    simp only [answered.moved.vlog,reached.vlog]
    exact (grounded.submits admits.healthy submits).1.grown

end requests

section runs
variable [Crc32c] {c next start : CommitCoordinator}

theorem Grounded.step (grounded : Grounded c) (step : InstanceStep c next) :
    Grounded next ∧ c.log.storage.vlog.Extends next.log.storage.vlog := by
  have sound := grounded.sound
  have stepped := sound.step step
  cases step with
  | answered ran =>
    have outcome := (commit_outcome sound.books sound.identified sound.ordered _ _).of_ok ran
    exact ⟨grounded.outcome outcome,outcome.grows grounded⟩
  | failed ran =>
    have outcome := (commit_outcome sound.books sound.identified sound.ordered _ _).of_error ran
    exact ⟨grounded.outcome outcome,outcome.grows grounded⟩
  | elsewhere later =>
    refine ⟨⟨stepped,grounded.identity,grounded.layout,grounded.stored,?_⟩,.refl _⟩
    intro healthy
    have footed := grounded.footed (later.healthy healthy)
    exact ⟨footed.ends,footed.boundary⟩
  | @cleaned storage moved _ system =>
    have vlog := moved.vlog
    have grown : c.log.storage.vlog.Extends storage.vlog := by
      rw [vlog]
      exact .refl _
    obtain ⟨frontier,⟨encoded,found,decoded⟩,boundary⟩ := grounded.stored
    refine ⟨⟨stepped,?_,?_,⟨frontier,⟨encoded,by rw [system]; exact found,decoded⟩,grown.boundary boundary⟩,?_⟩,grown⟩
    · simp only [vlog]
      exact grounded.identity
    · simp only [vlog]
      exact grounded.layout
    · intro healthy
      obtain ⟨ends,head⟩ := grounded.footed healthy
      exact ⟨by simp only [vlog]; exact ends,grown.boundary head⟩

theorem Grounded.run (grounded : Grounded start) (run : InstanceRun start c) :
    Grounded c ∧ start.log.storage.vlog.Extends c.log.storage.vlog := by
  induction run with
  | start => exact ⟨grounded,.refl _⟩
  | step _ step ih =>
    obtain ⟨stepped,grown⟩ := ih.1.step step
    exact ⟨stepped,ih.2.trans grown⟩

end runs

end ExpirKv
