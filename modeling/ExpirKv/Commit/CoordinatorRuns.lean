import ExpirKv.Commit.CoordinatorInvariant

namespace ExpirKv
open VLogGeometry Storage ValueLog CommitCoordinator

section reports

theorem failureState_healthy {error : StorageError} {requested : InstanceState}
    (asked : failureState error (some requested) = .healthy) : requested = .healthy := by
  have rank := requiredFailureState_rank requested error
  rw [failureState,Option.some_or,Option.getD_some] at asked
  rw [asked] at rank
  cases requested with
  | healthy => rfl
  | writeStopped => cases rank
  | poisoned => cases rank

theorem classifyVlogAppendFailure_healthy {error : StorageError} {terminal : Bool}
    (asked : classifyVlogAppendFailure error terminal = .healthy) : terminal = false := by
  unfold classifyVlogAppendFailure at asked
  split at asked
  · assumption
  · split at asked <;> cases asked

theorem mapIndexCommitError_stops (error : IndexCommitError) (operation : Operation) (stage : ProtocolStage)
    (identity : Option (Nat × Uuid)) : (mapIndexCommitError error operation stage identity).2 ≠ .healthy := by
  unfold mapIndexCommitError
  dsimp only
  split <;> exact InstanceState.noConfusion

theorem indexFailure_stops (request : WriteRequest) (error : IndexCommitError) (identity : Option (Nat × Uuid)) :
    (indexFailure request error identity).2 ≠ .healthy := by
  cases request <;> exact mapIndexCommitError_stops _ _ _ _

end reports

section steps
variable [Crc32c] {c next start : CommitCoordinator} {request : WriteRequest} {around : Surroundings}

-- What happens to an instance between its start and any later moment at which no request is under way. Another
-- thread may latch a failure or close the gate, and the cleanup deletes descriptors.
inductive InstanceStep (c : CommitCoordinator) : CommitCoordinator → Prop
  | answered {request : WriteRequest} {around : Surroundings} {next : CommitCoordinator} :
      commit request around c = .ok () next → InstanceStep c next
  | failed {request : WriteRequest} {around : Surroundings} {halt : Halt} {next : CommitCoordinator} :
      commit request around c = .error halt next → InstanceStep c next
  | elsewhere {runtime : RuntimeControl} : c.runtime.Later runtime → InstanceStep c {c with runtime}
  | cleaned {storage : Storage} : IndexMoved c.log.storage storage → storage.index.user = c.log.storage.index.user →
      storage.index.system = c.log.storage.index.system → InstanceStep c {c with log := {c.log with storage}}

inductive InstanceRun (start : CommitCoordinator) : CommitCoordinator → Prop
  | start : InstanceRun start start
  | step {c next : CommitCoordinator} : InstanceRun start c → InstanceStep c next → InstanceRun start next

-- What recovery hands to the coordinator.
structure Recovered (log : ValueLog) (headSeq : Nat) (frontier : DurableFrontier) : Prop where
  opened : CoordinatorOpened log
  identified : log.storage.index.system[databaseIdentityKey]? ≠ none
  bound : headSeq < 18446744073709551616
  stored : Stored log.storage.index headSeq frontier

omit [Crc32c] in
theorem WriterReady.failed {before after : ValueLog} {envelope : PreparedEnvelope} {error : StorageError}
    (ready : WriterReady before.writer) (failed : NotAppended before after envelope error) : WriterReady after.writer := by
  obtain ⟨-,same⟩ | ⟨stopped,-⟩ := failed.outcome
  · rw [same]
    exact ready
  · obtain ⟨⟨flag,frame⟩,-⟩ := failed.frame
    refine ready.same frame.geometry frame.databaseUuid ?_
    intro healthy
    rw [stopped] at healthy
    cases healthy

omit [Crc32c] in
theorem WriterReady.stopped {writer : ValueLogWriter} (ready : WriterReady writer) (pendingSyncId : Option Nat)
    (nextSyncId : Nat) : WriterReady {writer with pendingSyncId,nextSyncId,appendFailed := true} :=
  ready.same rfl rfl (fun no => by cases no)

-- A refused request can only leave the instance healthy if it left the writer and the index alone.
theorem Sound.refused {log : ValueLog} {target : InstanceState} {error : StorageError} {halt : Halt} (sound : Sound c)
    (refused : Declined {c with log} next target error halt) (books : Books log) (ready : WriterReady log.writer)
    (identified : log.storage.index.system[databaseIdentityKey]? ≠ none)
    (untouched : target = .healthy → log.writer = c.log.writer ∧ log.storage.index = c.log.storage.index) : Sound next := by
  obtain ⟨runtime,after,state⟩ := next
  have sameLog : after = log := refused.log
  have sameState : state = c.state := refused.state
  have later : c.runtime.Later runtime := refused.later
  have latched : stateRank target ≤ runtime.rank := refused.latched
  subst sameLog sameState
  refine ⟨books,ready,identified,sound.ordered,?_⟩
  intro healthy
  have still := RuntimeControl.rank_healthy.mpr healthy
  have before : c.runtime.rank = 0 := Nat.le_zero.mp (still ▸ later.rank)
  have asked : target = .healthy := by
    rw [still] at latched
    cases target with
    | healthy => rfl
    | writeStopped => cases latched
    | poisoned => cases latched
  obtain ⟨writer,index⟩ := untouched asked
  have accounted := sound.accounted (RuntimeControl.rank_healthy.mp before)
  refine ⟨?_,?_,accounted.bound,accounted.ordered,accounted.head,accounted.settled⟩
  · simp only [writer]
    exact accounted.aligned
  · simp only [index]
    exact accounted.stored

omit [Crc32c] in
theorem IndexAnswered.identity {storage after : Storage} {batch : IndexAtomicBatch} {mode : IndexCommitMode}
    {answer : Except IndexCommitError Unit} (ordinary : batch.Ordinary)
    (answered : IndexAnswered storage batch mode answer after) :
    after.index.system[databaseIdentityKey]? = storage.index.system[databaseIdentityKey]? := by
  cases answered with
  | applied script => exact ordinary.identity storage.index
  | refused source script => rfl
  | unknown source script => rfl
  | landed source script => exact ordinary.identity storage.index

omit [Crc32c] in
theorem TargetSynced.books {appended synced : ValueLog} {targetSeq : Nat} {targetEnd : Option VLogPosition} {needed : Bool}
    {token : Option FrontierSync} (books : Books appended)
    (reached : TargetSynced appended targetSeq targetEnd needed token synced) : Books synced := by
  cases reached with
  | needless => exact books
  | through through => exact through.books books

omit [Crc32c] in
theorem TargetSynced.ready {appended synced : ValueLog} {targetSeq : Nat} {targetEnd : Option VLogPosition} {needed : Bool}
    {token : Option FrontierSync} (reached : TargetSynced appended targetSeq targetEnd needed token synced)
    (ready : WriterReady appended.writer) : WriterReady synced.writer := by
  cases reached with
  | needless => exact ready
  | through through =>
    rw [through.writer]
    exact ready.same rfl rfl (fun healthy => ⟨healthy,rfl⟩)

-- Whatever a request comes to, the instance is sound behind it.
theorem Sound.outcome {ended : Option Halt} (sound : Sound c) (outcome : RequestOutcome c request around next ended) :
    Sound next := by
  cases outcome with
  | notAdmitted _ same => exact same ▸ sound
  | nothing _ _ _ same => exact same ▸ sound
  | notPrepared _ _ refused =>
    exact Sound.refused sound refused sound.books sound.ready sound.identified (fun _ => ⟨rfl,rfl⟩)
  | @notAppended write prepared envelope log error halt admits _ _ _ _ failed refused =>
    obtain ⟨⟨flag,frame⟩,books⟩ := failed.frame
    have index : log.storage.index = c.log.storage.index := frame.index
    refine sound.refused refused books (sound.ready.failed failed) (by rw [index]; exact sound.identified) ?_
    intro asked
    have lasting := classifyVlogAppendFailure_healthy (failureState_healthy asked)
    rcases failed.outcome with ⟨-,same⟩ | ⟨stopped,-⟩
    · exact ⟨same,index⟩
    · rw [lasting] at stopped
      cases stopped
  | @notSynced appended log submission error halt admits submits _ failed refused =>
    have furthers := (sound.accounted admits.healthy).furthers sound.books sound.ready submits
    refine sound.refused refused (failed.books (submits.books sound.books)) ?_ ?_ (fun no => by cases no)
    · rcases failed.writer with ⟨same,-⟩ | same
      · rw [same]
        exact furthers.ready
      · rw [same]
        exact furthers.ready.stopped _ _
    · rw [failed.storage.index,submits.index]
      exact sound.identified
  | @notIndexed identity appended synced log submission token error storage halt admits submits reached answered settled
      refused =>
    have furthers := (sound.accounted admits.healthy).furthers sound.books sound.ready submits
    have books := (TargetSynced.books (submits.books sound.books) reached).indexMoved answered.moved
    have stops : failureState (indexFailure request error identity).1 (some (indexFailure request error identity).2) ≠
        .healthy := fun asked => indexFailure_stops request error identity (failureState_healthy asked)
    have ready := reached.ready furthers.ready
    obtain ⟨after,writer⟩ := log
    have sameStorage : after = storage := settled.storage
    subst sameStorage
    refine sound.refused refused ?_ ?_ ?_ (fun asked => absurd asked stops)
    · rcases settled.writer with ⟨same,-⟩ | same
      · exact books.same rfl (by rw [same]) (by rw [same]) (fun _ _ => ⟨rfl,rfl⟩)
      · exact books.same rfl (by rw [same]) (by rw [same]) (fun _ _ => ⟨rfl,rfl⟩)
    · rcases settled.writer with ⟨same,-⟩ | same
      · rw [same]
        exact ready
      · rw [same]
        exact ready.stopped _ _
    · rw [answered.identity submits.ordinary,reached.index,submits.index]
      exact sound.identified
  | @indexed appended synced submission token storage stats admits submits reached answered same books =>
    subst same
    have accounted := sound.accounted admits.healthy
    have furthers := accounted.furthers sound.books sound.ready submits
    have stored : Stored storage.index submission.published.headSeq submission.published.durableFrontier := by
      cases answered with
      | applied script =>
        refine submits.stores ?_
        simp only [reached.index,submits.index]
        exact accounted.stored
    have after : Accounted ⟨{c.runtime with stats},⟨storage,appended.writer.settled token⟩,submission.published⟩ :=
      furthers.accounted reached stored
    refine ⟨books,?_,?_,after.ordered,fun _ => after⟩
    · cases token with
      | none => exact furthers.ready
      | some token => exact furthers.ready.same rfl rfl (fun healthy => ⟨healthy,rfl⟩)
    · simp only
      rw [answered.identity submits.ordinary,reached.index,submits.index]
      exact sound.identified

theorem Sound.step (sound : Sound c) (step : InstanceStep c next) : Sound next := by
  cases step with
  | answered ran =>
    exact sound.outcome ((commit_outcome sound.books sound.identified sound.ordered _ _).of_ok ran)
  | failed ran =>
    exact sound.outcome ((commit_outcome sound.books sound.identified sound.ordered _ _).of_error ran)
  | elsewhere later =>
    refine ⟨sound.books,sound.ready,sound.identified,sound.ordered,?_⟩
    intro healthy
    have still := RuntimeControl.rank_healthy.mpr healthy
    have before : c.runtime.rank = 0 := Nat.le_zero.mp (still ▸ later.rank)
    have accounted := sound.accounted (RuntimeControl.rank_healthy.mp before)
    exact ⟨accounted.aligned,accounted.stored,accounted.bound,accounted.ordered,accounted.head,accounted.settled⟩
  | cleaned moved user system =>
    refine ⟨sound.books.indexMoved moved,sound.ready,by rw [system]; exact sound.identified,sound.ordered,?_⟩
    intro healthy
    have accounted := sound.accounted healthy
    refine ⟨accounted.aligned,⟨?_,?_⟩,accounted.bound,accounted.ordered,accounted.head,accounted.settled⟩
    · rw [system]
      exact accounted.stored.head
    · rw [system]
      exact accounted.stored.frontier

theorem Sound.run (sound : Sound start) (run : InstanceRun start c) : Sound c := by
  induction run with
  | start => exact sound
  | step _ step ih => exact ih.step step

end steps

section opening
variable [Crc32c] {log : ValueLog} {headSeq headVlogSeq : Nat} {frontier : DurableFrontier}
  {headVlogEnd : Option VLogPosition}

omit [Crc32c] in
theorem validateInitialState_ok {writer : ValueLogWriter}
    (accepted : validateInitialState headSeq frontier headVlogSeq headVlogEnd writer = .ok ()) :
    frontier.durableSeq = headSeq ∧ frontier.durableVlogSeq = headVlogSeq ∧ headVlogSeq ≤ headSeq ∧
      frontier.durableVlogEnd = headVlogEnd ∧ writer.position = headVlogEnd.getD ⟨0,0⟩ := by
  obtain ⟨-,-,checked⟩ := bind_ok.mp accepted
  have passed := rejectIf_ok.mp checked
  rw [not_or,not_or,not_not,Bool.not_eq_false] at passed
  obtain ⟨-,⟨durable,vlog,bound,ends⟩,place⟩ := passed
  refine ⟨durable,vlog,bound,ends,?_⟩
  cases headVlogEnd with
  | none =>
    cases headVlogSeq with
    | zero => simpa using place
    | succ seq => simp at place
  | some position =>
    cases headVlogSeq with
    | zero => simp at place
    | succ seq =>
      simp only [decide_eq_true_eq] at place
      exact place.symm

-- A writer that was just opened has nothing to account for.
theorem CoordinatorOpened.fresh (opened : CoordinatorOpened log) :
    log.writer = ⟨log.writer.databaseUuid,log.writer.geometry,log.writer.state,⟨∅,∅⟩,none,1,false,none⟩ ∧
      log.writer.Turned := by
  obtain ⟨acceptedEnd,storage,next,writer,ran,rfl,-⟩ := opened.opened
  obtain ⟨-,begun⟩ := (intoWriter_delivers acceptedEnd).of_ok ran
  have fresh := begun.fresh
  have layout : writer.geometry = storage.vlog.geometry := by rw [fresh]
  refine ⟨by simp only; rw [fresh],?_⟩
  intro fileId full
  simp only [layout] at full
  cases acceptedEnd with
  | none =>
    rw [begun.empty rfl] at full
    cases full
  | some position =>
    obtain ⟨-,state⟩ := begun.current position rfl
    rw [state] at full
    split at full
    · cases full
    · rename_i short
      exact short (AppendState.open.inj full).2

theorem Recovered.sound {runtime : RuntimeControl} {start : CommitCoordinator} (recovered : Recovered log headSeq frontier)
    (made : CommitCoordinator.new runtime log headSeq frontier headVlogSeq headVlogEnd = .ok start) : Sound start := by
  simp only [CommitCoordinator.new,bind_ok,exists_unit,pure_ok,Except.ok.injEq] at made
  obtain ⟨accepted,rfl⟩ := made
  obtain ⟨durable,rfl,bound,rfl,position⟩ := validateInitialState_ok accepted
  obtain ⟨books,ready⟩ := recovered.opened.begins
  obtain ⟨fresh,turned⟩ := recovered.opened.fresh
  obtain ⟨bytes,encodes,-⟩ := recovered.stored.frontier
  simp only [DurableFrontier.encode,bind_ok,exists_unit,mapError_ok] at encodes
  obtain ⟨-,matched⟩ := DurableFrontier.validate_ok.mp encodes.1
  refine ⟨books,ready,recovered.identified,Nat.le_of_eq durable,fun _ => ?_⟩
  refine ⟨⟨matched,position,?_,?_,turned,.inl ⟨?_,rfl,rfl,?_,?_⟩,?_,Nat.le_refl _,?_,Nat.le_refl _,
    fun no => absurd no (Nat.lt_irrefl _)⟩,recovered.stored,recovered.bound,Nat.le_of_eq durable,bound,fun _ => ⟨rfl,rfl⟩⟩
  · rw [fresh]
  · rw [fresh]
  · rw [fresh]
  · rw [fresh]
    rfl
  · rw [fresh]
    rfl
  · intro fileId seq found
    rw [fresh] at found
    simp at found
  · rw [fresh]
    exact Nat.le_add_right _ _

end opening

section unhindered
variable [Crc32c]

-- A sync that meets no refusal of its own checks, and whose token can be taken back.
structure SyncsThrough (log : ValueLog) (targetSeq : Nat) (targetEnd : Option VLogPosition) : Prop where
  accepted : ∀ error after, syncThrough targetSeq targetEnd log = .error error after →
    error ≠ syncStateError targetSeq targetEnd
  settles : ∀ synced after storage, syncThrough targetSeq targetEnd log = .ok synced after →
    IndexMoved after.storage storage →
    ∃ settled, frontierSucceeded synced {after with storage} = .ok () settled

-- No request on the instance runs into a check of the writer, or into a frontier without an encoding.
structure Unhindered (c : CommitCoordinator) : Prop where
  frontier : ∀ write around prepared, c.prepare write around = .ok prepared →
    ∀ frontier ∈ c.state.frontierOf write prepared, ∃ encoded, frontier.encode = .ok encoded
  barrier : ∃ encoded, c.state.barrier.encode = .ok encoded
  appends : ∀ write around prepared envelope, c.prepare write around = .ok prepared →
    prepared.envelope = some envelope → AppendReady c.log.writer envelope ∧
      ∀ error after, append envelope c.log = .error error after → CallFailed error
  syncs : ∀ request around appended submission, Submits c around request appended submission →
    submission.needed = true → SyncsThrough appended submission.targetSeq submission.targetEnd

omit [Crc32c] in
theorem Furthers.syncsThrough {c : CommitCoordinator} {appended : ValueLog} {submission : Submission}
    (furthers : Furthers c appended submission) (books : Books appended) (needed : submission.needed = true) :
    SyncsThrough appended submission.targetSeq submission.targetEnd := by
  obtain ⟨ready,room⟩ := furthers.aligned.syncReady furthers.ready (furthers.due needed)
  refine ⟨?_,?_⟩
  · rintro error after ran rfl
    exact ((syncThrough_delivers _ _).of_error ran).kind ready room rfl
  · intro synced after storage ran moved
    have through := (syncThrough_delivers _ _).of_ok ran
    obtain ⟨_,settled,done,-⟩ := (through.succeeded books moved).returns
    exact ⟨settled,done⟩

theorem frontier_encodes {durableSeq vlogSeq : Nat} {vlogEnd : Option VLogPosition} (ordered : vlogSeq ≤ durableSeq)
    (matched : vlogEndMatches vlogSeq vlogEnd = true) :
    ∃ encoded, (frontierFromOptional durableSeq vlogSeq vlogEnd).encode = .ok encoded := by
  rw [frontierFromOptional_fields]
  exact DurableFrontier.encode_ok (DurableFrontier.validate_ok.mpr ⟨ordered,matched⟩)

theorem Accounted.target {c : CommitCoordinator} {write : ValidatedWrite} {around : Surroundings}
    {prepared : PreparedCommit} (accounted : Accounted c) (ready : WriterReady c.log.writer)
    (ran : c.prepare write around = .ok prepared) :
    (vlogTarget c.state prepared).1 ≤ prepared.commitSeq ∧
      vlogEndMatches (vlogTarget c.state prepared).1 (vlogTarget c.state prepared).2 = true := by
  obtain ⟨descriptor,prepares⟩ := CommitCoordinator.prepare_ok ran
  have seq := prepares.seq
  have head := accounted.head
  unfold vlogTarget
  cases present : prepared.envelope with
  | none => exact ⟨by simp only; omega,accounted.aligned.matched⟩
  | some envelope =>
    obtain ⟨-,-,placeable⟩ := accounted.appendReady ready ran present
    have valid := VLogPosition.isValid_iff.mpr ⟨placeable.good.1,placeable.good.2.1⟩
    refine ⟨Nat.le_refl _,?_⟩
    simp only [vlogEndMatches,valid,Bool.and_true,bne_iff_ne]
    omega

theorem Accounted.unhindered {c : CommitCoordinator} (accounted : Accounted c) (books : Books c.log)
    (ready : WriterReady c.log.writer) : Unhindered c := by
  have sized : 0 < c.log.writer.geometry.maxFileSize := by
    rw [ready.geometry]
    decide
  refine ⟨?_,frontier_encodes accounted.head accounted.aligned.matched,?_,?_⟩
  · intro write around prepared ran frontier member
    obtain ⟨ordered,matched⟩ := accounted.target ready ran
    unfold CommitState.frontierOf at member
    split at member
    · obtain rfl := Option.some.inj member
      exact frontier_encodes ordered matched
    · cases member
  · intro write around prepared envelope ran written
    obtain ⟨checks,-,-⟩ := accounted.appendReady ready ran written
    refine ⟨checks,?_⟩
    intro error after failed
    exact (append_calls books sized accounted.aligned.turned checks).of_error failed
  · intro request around appended submission submits needed
    exact (accounted.furthers books ready submits).syncsThrough (submits.books books) needed

theorem RequestOutcome.unpanicked {c next : CommitCoordinator} {request : WriteRequest} {around : Surroundings}
    {halt : Halt} (outcome : RequestOutcome c request around next (some halt)) : halt ≠ .panicked := by
  have reported : ∃ error, halt = .failed error := by
    cases outcome with
    | notAdmitted => exact ⟨_,rfl⟩
    | notPrepared _ _ refused => exact refused.reported.imp (fun _ known => known.1)
    | notAppended _ _ _ _ _ _ refused => exact refused.reported.imp (fun _ known => known.1)
    | notSynced _ _ _ _ refused => exact refused.reported.imp (fun _ known => known.1)
    | notIndexed _ _ _ _ _ _ refused => exact refused.reported.imp (fun _ known => known.1)
  obtain ⟨error,rfl⟩ := reported
  exact Halt.noConfusion

-- From the start of an instance on, whatever its storage answers and its surroundings do.
theorem coordinator_invariant {runtime : RuntimeControl} {log : ValueLog} {headSeq headVlogSeq : Nat}
    {frontier : DurableFrontier} {headVlogEnd : Option VLogPosition} {start c : CommitCoordinator}
    (recovered : Recovered log headSeq frontier)
    (made : CommitCoordinator.new runtime log headSeq frontier headVlogSeq headVlogEnd = .ok start)
    (run : InstanceRun start c) :
    (c.runtime.state.instanceState = .healthy → Coherent c ∧ Unhindered c) ∧
    ∀ request around halt next, commit request around c = .error halt next → halt ≠ .panicked := by
  have sound := (recovered.sound made).run run
  refine ⟨?_,?_⟩
  · intro healthy
    have accounted := sound.accounted healthy
    exact ⟨accounted.coherent,accounted.unhindered sound.books sound.ready⟩
  · intro request around halt next ran
    exact ((commit_outcome sound.books sound.identified sound.ordered request around).of_error ran).unpanicked

end unhindered

section answering
variable [Crc32c] {c next start : CommitCoordinator} {uuid : Uuid} {requests : List WriteRequest}

-- Nothing around a request fails.
def calmAround (uuid : Uuid) : Surroundings := ⟨fun _ => none,.ok uuid,true,true,true,[],[]⟩

-- Requests one after the other, while they are answered.
def answerAll (uuid : Uuid) : List WriteRequest → CommitCoordinator → Option CommitCoordinator
  | [],c => some c
  | request :: rest,c =>
    match commit request (calmAround uuid) c with
    | .ok _ next => answerAll uuid rest next
    | .error _ _ => none

theorem answerAll_runs (run : InstanceRun start c) (answered : answerAll uuid requests c = some next) :
    InstanceRun start next := by
  induction requests generalizing c with
  | nil => exact Option.some.inj answered ▸ run
  | cons request rest ih =>
    rw [answerAll] at answered
    split at answered
    · rename_i here
      exact ih (.step run (.answered here)) answered
    · cases answered

end answering

-- A put of one byte under a key of one byte.
def onePut (key value : UInt8) (sync : Bool) : ValidatedWrite :=
  ⟨[.put [key] [value]],sync,[[key]],[0],.put,List.cons_ne_nil _ _,by simp,by simp [LogicalOperation.Valid],rfl,
    by simp [operationKey]⟩

-- The index and the log of a database that was never written to.
def bareIndex (frontier : Bytes) : Index :=
  ⟨∅,∅,(((∅ : Keyspace).insert databaseIdentityKey [1]).insert headSeqKey (encodeHeadSeq 0)).insert durableFrontierKey frontier⟩

def bareLog (uuid : Uuid) (frontier : Bytes) : ValueLog :=
  ⟨Storage.reopened ⟨bareIndex frontier,.empty uuid,[],[]⟩,⟨uuid,production,.empty,⟨∅,∅⟩,none,1,false,none⟩⟩

theorem bareLog_recovered [Crc32c] {frontier : Bytes} (encodes : DurableFrontier.encode ⟨0,0,none⟩ = .ok frontier)
    {uuid : Uuid} (present : uuid.isZero = false) : Recovered (bareLog uuid frontier) 0 ⟨0,0,none⟩ := by
  have system : (bareLog uuid frontier).storage.index.system = (bareIndex frontier).system := rfl
  refine ⟨⟨none,⟨bareIndex frontier,.empty uuid,[],[]⟩,⟨bareIndex frontier,.empty uuid,[],[]⟩,_,rfl,rfl,rfl,present,
    fun position none => (by cases none)⟩,?_,by decide,?_,frontier,encodes,?_⟩
  · rw [system]
    simp only [bareIndex,Std.ExtTreeMap.getElem?_insert,Std.LawfulEqCmp.compare_eq_iff_eq,
      show durableFrontierKey ≠ databaseIdentityKey by decide,show headSeqKey ≠ databaseIdentityKey by decide,if_false,
      if_true]
    exact Option.some_ne_none _
  · rw [system]
    simp only [bareIndex,Std.ExtTreeMap.getElem?_insert,Std.LawfulEqCmp.compare_eq_iff_eq,
      show durableFrontierKey ≠ headSeqKey by decide,if_false,if_true]
  · rw [system]
    simp [bareIndex]

def bareCoordinator (uuid : Uuid) (frontier : Bytes) : CommitCoordinator :=
  ⟨CommitCoordinator.statsPublished ⟨.new,bareLog uuid frontier,⟨0,⟨0,0,none⟩,0,none⟩⟩,bareLog uuid frontier,
    ⟨0,⟨0,0,none⟩,0,none⟩⟩

def bareFrontier [Crc32c] : Bytes := appendCrc (durableFrontierMagic ++ List.replicate 31 0)

theorem bareFrontier_encodes [Crc32c] : DurableFrontier.encode ⟨0,0,none⟩ = .ok bareFrontier := by
  simp only [DurableFrontier.encode,DurableFrontier.validate,bareFrontier]
  rfl

-- A database that was never written to, and two puts that it answers, one of them with a sync.
theorem coordinator_invariant_puts :
    let database : Uuid := ⟨List.replicate 16 1,rfl⟩
    let start := bareCoordinator database (@bareFrontier castagnoli)
    ∃ next, CommitCoordinator.new .new (bareLog database (@bareFrontier castagnoli)) 0 ⟨0,0,none⟩ 0 none = .ok start ∧
      @answerAll castagnoli database [.nonempty (onePut 1 2 false),.nonempty (onePut 3 4 true)] start = some next ∧
      next.state.headSeq = 2 ∧ next.state.durableFrontier.durableSeq = 2 ∧ next.state.headVlogEnd ≠ none ∧
      @Coherent castagnoli next ∧ @Unhindered castagnoli next := by
  intro database start
  have recovered := @bareLog_recovered castagnoli _ (@bareFrontier_encodes castagnoli) database (by decide)
  have made : CommitCoordinator.new .new (bareLog database (@bareFrontier castagnoli)) 0 ⟨0,0,none⟩ 0 none = .ok start := rfl
  have outcome : (@answerAll castagnoli database [.nonempty (onePut 1 2 false),.nonempty (onePut 3 4 true)] start).map
      (fun next => (next.state.headSeq,next.state.durableFrontier.durableSeq,next.state.headVlogEnd.isSome,
        next.runtime.state.instanceState)) = some (2,2,true,.healthy) := by decide +kernel
  obtain ⟨next,answered,there⟩ := Option.map_eq_some_iff.mp outcome
  simp only [Prod.mk.injEq] at there
  obtain ⟨head,durable,placed,healthy⟩ := there
  have run := @answerAll_runs castagnoli _ _ _ _ _ (@InstanceRun.start castagnoli start) answered
  obtain ⟨invariant,-⟩ := @coordinator_invariant castagnoli _ _ _ _ _ _ _ _ recovered made run
  exact ⟨next,made,answered,head,durable,Option.isSome_iff_ne_none.mp placed,invariant healthy⟩

end ExpirKv
