import ExpirKv.Commit.CoordinatorSteps
import ExpirKv.Recovery.UndoCommit

namespace ExpirKv
open VLogGeometry Storage ValueLog CommitCoordinator

section outcome
variable [Crc32c]

-- What a request hands to the index, and the commit state if the index takes it.
structure Submission where
  targetSeq : Nat
  targetEnd : Option VLogPosition
  needed : Bool
  batch : IndexAtomicBatch
  mode : IndexCommitMode
  frontier : Option DurableFrontier
  published : CommitState

def CommitState.frontierOf (state : CommitState) (write : ValidatedWrite) (prepared : PreparedCommit) :
    Option DurableFrontier :=
  if write.sync then
    some (frontierFromOptional prepared.commitSeq (vlogTarget state prepared).1 (vlogTarget state prepared).2)
  else none

def CommitState.submission (state : CommitState) (write : ValidatedWrite) (prepared : PreparedCommit)
    (batch : IndexAtomicBatch) : Submission where
  targetSeq := (vlogTarget state prepared).1
  targetEnd := (vlogTarget state prepared).2
  needed := write.sync && decide ((vlogTarget state prepared).1 > state.durableFrontier.durableVlogSeq)
  batch := batch
  mode := if write.sync then .syncAll else .buffer
  frontier := state.frontierOf write prepared
  published := committedState state prepared.commitSeq write.transactionKind (vlogTarget state prepared).1
    (vlogTarget state prepared).2 (state.frontierOf write prepared)

def CommitState.barrier (state : CommitState) : DurableFrontier :=
  frontierFromOptional state.headSeq state.headVlogSeq state.headVlogEnd

def CommitState.barrierSubmission (state : CommitState) (batch : IndexAtomicBatch) : Submission where
  targetSeq := state.headVlogSeq
  targetEnd := state.headVlogEnd
  needed := decide (state.headVlogSeq > state.durableFrontier.durableVlogSeq)
  batch := batch
  mode := .syncAll
  frontier := some state.barrier
  published := {state with durableFrontier := state.barrier}

-- The log behind the append of a request.
inductive EnvelopeWritten (before : ValueLog) : Option PreparedEnvelope → ValueLog → Prop
  | none : EnvelopeWritten before none before
  | appended {envelope : PreparedEnvelope} {after : ValueLog} : append envelope before = .ok () after →
      Appended before after envelope → EnvelopeWritten before (some envelope) after

-- A request that got as far as its batch.
inductive Submits (c : CommitCoordinator) (around : Surroundings) : WriteRequest → ValueLog → Submission → Prop
  | nonempty {write : ValidatedWrite} {prepared : PreparedCommit} {batch : IndexAtomicBatch} {appended : ValueLog} :
      c.prepare write around = .ok prepared →
      addFrontier prepared.indexBatch (c.state.frontierOf write prepared) write.publicOperation around.framed = .ok batch →
      EnvelopeWritten c.log prepared.envelope appended →
      Submits c around (.nonempty write) appended (c.state.submission write prepared batch)
  | barrier {batch : IndexAtomicBatch} : c.state.headSeq ≠ c.state.durableFrontier.durableSeq →
      frontierOnlyBatch c.state.barrier .writeBatch around.reserved around.framed = .ok batch →
      Submits c around (.empty true) c.log (c.state.barrierSubmission batch)

-- A request that failed before it touched anything.
inductive Unprepared (c : CommitCoordinator) (around : Surroundings) : WriteRequest → StorageError → Prop
  | preparation {write : ValidatedWrite} {error : StorageError} : c.prepare write around = .error error →
      Unprepared c around (.nonempty write) error
  | frontier {write : ValidatedWrite} {prepared : PreparedCommit} {error : StorageError} :
      c.prepare write around = .ok prepared →
      addFrontier prepared.indexBatch (c.state.frontierOf write prepared) write.publicOperation around.framed =
        .error error → Unprepared c around (.nonempty write) error
  | barrier {error : StorageError} :
      frontierOnlyBatch c.state.barrier .writeBatch around.reserved around.framed = .error error →
      Unprepared c around (.empty true) error

structure CommitCoordinator.Admits (c : CommitCoordinator) : Prop where
  healthy : c.runtime.state.instanceState = .healthy
  accepting : c.runtime.gate.acceptingWrites = true

-- The stage and the identity with which an index failure is reported.
def indexFailure (request : WriteRequest) (error : IndexCommitError) (identity : Option (Nat × Uuid)) :
    StorageError × InstanceState :=
  match request with
  | .nonempty write => mapIndexCommitError error write.publicOperation .indexCommit identity
  | .empty _ => mapIndexCommitError error .writeBatch .durableFrontier none

-- Every way a request can end.
inductive RequestOutcome (c : CommitCoordinator) (request : WriteRequest) (around : Surroundings)
    (next : CommitCoordinator) : Option Halt → Prop
  | notAdmitted : ¬c.Admits → next = c →
      RequestOutcome c request around next
        (some (.failed (admissionError request.operation c.runtime.state.instanceState)))
  | nothing {sync : Bool} : c.Admits → request = .empty sync →
      (sync = true → c.state.headSeq = c.state.durableFrontier.durableSeq) → next = c →
      RequestOutcome c request around next none
  | notPrepared {error : StorageError} {halt : Halt} : c.Admits → Unprepared c around request error →
      Declined c next (failureState error none) error halt → RequestOutcome c request around next (some halt)
  | notAppended {write : ValidatedWrite} {prepared : PreparedCommit} {envelope : PreparedEnvelope} {log : ValueLog}
      {error : StorageError} {halt : Halt} : c.Admits → request = .nonempty write →
      c.prepare write around = .ok prepared → prepared.envelope = some envelope →
      append envelope c.log = .error error log → NotAppended c.log log envelope error →
      Declined {c with log} next
        (failureState (remapWriterOperation error write.publicOperation)
          (some (classifyVlogAppendFailure (remapWriterOperation error write.publicOperation) log.writer.appendFailed)))
        (remapWriterOperation error write.publicOperation) halt →
      RequestOutcome c request around next (some halt)
  | notSynced {appended log : ValueLog} {submission : Submission} {error : StorageError} {halt : Halt} : c.Admits →
      Submits c around request appended submission → submission.needed = true →
      SyncFailed appended log submission.targetSeq submission.targetEnd error →
      Declined {c with log} next .poisoned (remapWriterOperation error request.operation) halt →
      RequestOutcome c request around next (some halt)
  | notIndexed (identity : Option (Nat × Uuid)) {appended synced log : ValueLog} {submission : Submission}
      {token : Option FrontierSync} {error : IndexCommitError} {storage : Storage} {halt : Halt} : c.Admits →
      Submits c around request appended submission →
      TargetSynced appended submission.targetSeq submission.targetEnd submission.needed token synced →
      IndexAnswered synced.storage submission.batch submission.mode (.error error) storage →
      SettledFailed synced storage token log →
      Declined {c with log} next
        (failureState (indexFailure request error identity).1 (some (indexFailure request error identity).2))
        (indexFailure request error identity).1 halt →
      RequestOutcome c request around next (some halt)
  | indexed {appended synced : ValueLog} {submission : Submission} {token : Option FrontierSync} {storage : Storage}
      {stats : DbStats} : c.Admits → Submits c around request appended submission →
      TargetSynced appended submission.targetSeq submission.targetEnd submission.needed token synced →
      IndexAnswered synced.storage submission.batch submission.mode (.ok ()) storage →
      next = ⟨{c.runtime with stats},⟨storage,appended.writer.settled token⟩,submission.published⟩ → Books next.log →
      RequestOutcome c request around next none

end outcome

section proof
variable [Crc32c] {c : CommitCoordinator} {request : WriteRequest} {around : Surroundings} {write : ValidatedWrite}

theorem CommitCoordinator.prepare_ok {prepared : PreparedCommit} (ran : c.prepare write around = .ok prepared) :
    ∃ descriptor, Prepares write c.state.headSeq (coordinatorContext write c.log.writer)
      (fun key => c.log.storage.index.user[key]?) prepared descriptor := by
  obtain ⟨⟨_,descriptor⟩,described,rfl⟩ := map_ok.mp ran
  refine ⟨descriptor,prepareDescribed_ok described ?_⟩
  intro key value found
  unfold Surroundings.getUser at found
  split at found
  · cases found
  · exact (Except.ok.inj found).symm

-- An envelope was only prepared under the guard of the writer.
theorem CommitCoordinator.prepare_guard {prepared : PreparedCommit} {envelope : PreparedEnvelope}
    (ran : c.prepare write around = .ok prepared) (written : prepared.envelope = some envelope) :
    write.transactionKind = .vlogEnvelope := by
  obtain ⟨descriptor,prepares⟩ := CommitCoordinator.prepare_ok ran
  have enveloped := prepares.envelope
  rw [written] at enveloped
  unfold prepareCommitEnvelope at enveloped
  split at enveloped
  · assumption
  · simp at enveloped

theorem addFrontier_ordinary {batch result : IndexAtomicBatch} {frontier : Option DurableFrontier}
    {operation : Operation} {framed : Bool} (ordinary : batch.Ordinary)
    (added : addFrontier batch frontier operation framed = .ok result) : result.Ordinary := by
  unfold addFrontier at added
  split at added
  · obtain ⟨-,encoded,encodes,rfl⟩ := addFrontierToBatch_ok.mp added
    refine ⟨by simp,?_⟩
    intro mutation member
    rcases List.mem_append.mp member with inside | last
    · exact ordinary.valid mutation inside
    · rw [List.mem_singleton.mp last]
      exact putFrontier_valid encodes
  · obtain rfl := Except.ok.inj added
    exact ordinary

theorem frontierOnlyBatch_ordinary {result : IndexAtomicBatch} {frontier : DurableFrontier}
    {operation : Operation} {reserved framed : Bool}
    (made : frontierOnlyBatch frontier operation reserved framed = .ok result) : result.Ordinary := by
  obtain ⟨-,-,encoded,encodes,rfl⟩ := frontierOnlyBatch_ok.mp made
  refine ⟨by simp,?_⟩
  intro mutation member
  rw [List.mem_singleton.mp member]
  exact putFrontier_valid encodes

theorem Submits.ordinary {appended : ValueLog} {submission : Submission}
    (submits : Submits c around request appended submission) : submission.batch.Ordinary := by
  cases submits with
  | nonempty prepared framed _ =>
    obtain ⟨descriptor,prepares⟩ := CommitCoordinator.prepare_ok prepared
    exact addFrontier_ordinary prepares.batchOrdinary framed
  | barrier _ made => exact frontierOnlyBatch_ordinary made

theorem EnvelopeWritten.index {before after : ValueLog} {envelope : Option PreparedEnvelope}
    (written : EnvelopeWritten before envelope after) : after.storage.index = before.storage.index := by
  cases written with
  | none => rfl
  | appended _ appended =>
    obtain ⟨last,frame⟩ := appended.frame
    exact frame.index

theorem EnvelopeWritten.books {before after : ValueLog} {envelope : Option PreparedEnvelope} (books : Books before)
    (written : EnvelopeWritten before envelope after) : Books after := by
  cases written with
  | none => exact books
  | appended _ appended => exact appended.books

theorem Submits.index {appended : ValueLog} {submission : Submission}
    (submits : Submits c around request appended submission) : appended.storage.index = c.log.storage.index := by
  cases submits with
  | nonempty _ _ written => exact written.index
  | barrier _ _ => rfl

theorem Submits.books {appended : ValueLog} {submission : Submission} (books : Books c.log)
    (submits : Submits c around request appended submission) : Books appended := by
  cases submits with
  | nonempty _ _ written => exact written.books books
  | barrier _ _ => exact books

omit [Crc32c] in
theorem TargetSynced.index {appended synced : ValueLog} {targetSeq : Nat} {targetEnd : Option VLogPosition} {needed : Bool}
    {token : Option FrontierSync} (reached : TargetSynced appended targetSeq targetEnd needed token synced) :
    synced.storage.index = appended.storage.index := by
  cases reached with
  | needless => rfl
  | through through => exact through.storage.index

-- The end of both kinds of request: the index answers, and the token is taken back either way.
theorem handOver {appended synced : ValueLog} {targetSeq : Nat} {targetEnd : Option VLogPosition} {needed held : Bool}
    {token : Option FrontierSync} {batch : IndexAtomicBatch} {mode : IndexCommitMode} {operation : Operation}
    {runtime : RuntimeControl} {state : CommitState} {publish : Eff CommitCoordinator Halt Unit}
    {report : IndexCommitError → StorageError × InstanceState} {post : Unit → CommitCoordinator → Prop}
    {fail : Halt → CommitCoordinator → Prop} (books : Books appended) (ordinary : batch.Ordinary)
    (identified : synced.storage.index.system[databaseIdentityKey]? ≠ none)
    (reached : TargetSynced appended targetSeq targetEnd needed token synced) (guard : needed = true → held = true)
    (ordered : state.durableFrontier.durableSeq ≤ state.headSeq)
    (good : ∀ storage, IndexAnswered synced.storage batch mode (.ok ()) storage →
      Books ⟨storage,appended.writer.settled token⟩ →
      Delivers publish ⟨runtime,⟨storage,appended.writer.settled token⟩,state⟩ post fail)
    (bad : ∀ error storage log next halt, IndexAnswered synced.storage batch mode (.error error) storage →
      SettledFailed synced storage token log →
      Declined ⟨runtime,log,state⟩ next (failureState (report error).1 (some (report error).2)) (report error).1 halt →
      fail halt next) :
    Delivers (do
      match ← (onLog (onStorage (commitAtomic batch mode))).attempt with
      | .ok () => do
        settleSucceeded token held operation
        publish
      | .error error => do
        settleFailed token held
        let (error,target) := report error
        failStarted error (some target) none around) ⟨runtime,synced,state⟩ post fail := by
  rw [delivers_bind,delivers_attempt,delivers_onLog,delivers_onStorage]
  refine (commitAtomic_answers ordinary identified).mono ?_ ?_
  · intro _ storage answered
    refine (settleSucceeded_settles books reached answered.moved guard).bind ?_ (fun _ _ no => no.elim)
    rintro - next ⟨rfl,kept⟩
    exact good storage answered kept
  · intro error storage answered
    refine (settleFailed_settles reached guard).bind ?_ (fun _ _ no => no.elim)
    rintro - next ⟨same,settled⟩
    rw [same]
    refine (failStarted_fails (report error).1 (some (report error).2) none around ?_).mono (fun _ _ no => no.elim) ?_
    · exact ordered
    · intro halt after refused
      exact bad error storage next.log after halt answered settled refused

omit [Crc32c] in
theorem startRequest_starts {operation : Operation} {post : Unit → CommitCoordinator → Prop}
    {fail : Halt → CommitCoordinator → Prop} (open_ : c.Admits → post () c)
    (closed : ¬c.Admits → fail (.failed (admissionError operation c.runtime.state.instanceState)) c) :
    Delivers (startRequest operation) c post fail := by
  unfold startRequest
  rw [delivers_bind,delivers_get]
  dsimp only
  split
  · rename_i refused
    refine closed (fun admits => ?_)
    rw [admits.healthy,admits.accepting] at refused
    simp at refused
  · rename_i accepted
    simp only [ne_eq,not_or,not_not,Bool.not_eq_false] at accepted
    exact open_ ⟨accepted.1,accepted.2⟩

theorem appendPrepared_appends {prepared : PreparedCommit} (books : Books c.log)
    (ordered : c.state.durableFrontier.durableSeq ≤ c.state.headSeq) (ran : c.prepare write around = .ok prepared)
    (admits : c.Admits) :
    Delivers (appendPrepared prepared (decide (write.transactionKind = .vlogEnvelope)) write.publicOperation around) c
      (fun _ next => next = {c with log := next.log} ∧ EnvelopeWritten c.log prepared.envelope next.log)
      (fun halt next => RequestOutcome c (.nonempty write) around next (some halt)) := by
  unfold appendPrepared
  cases written : prepared.envelope with
  | none => exact ⟨rfl,.none⟩
  | some envelope =>
    rw [delivers_bind]
    refine expectWriter_held (by rw [CommitCoordinator.prepare_guard ran written]; rfl) ?_
    rw [delivers_bind,delivers_attempt,delivers_onLog]
    refine ((append_delivers books).and (.self _ _)).mono ?_ ?_
    · rintro _ log ⟨⟨appended,-⟩,calls⟩
      exact ⟨rfl,.appended calls appended⟩
    · rintro error log ⟨failed,calls⟩
      rw [delivers_bind,delivers_get]
      refine (failStarted_fails _ _ _ around ?_).mono (fun _ _ no => no.elim) ?_
      · exact ordered
      · intro halt next refused
        exact .notAppended admits rfl ran written calls failed refused

-- The durable end never overtakes the head.
theorem prepare_ordered {prepared : PreparedCommit} (batch : IndexAtomicBatch)
    (ran : c.prepare write around = .ok prepared)
    (ordered : c.state.durableFrontier.durableSeq ≤ c.state.headSeq) :
    (c.state.submission write prepared batch).published.durableFrontier.durableSeq ≤
      (c.state.submission write prepared batch).published.headSeq := by
  obtain ⟨descriptor,prepares⟩ := CommitCoordinator.prepare_ok ran
  have next := prepares.seq
  simp only [CommitState.submission,committedState_headSeq,committedState_durableFrontier,CommitState.frontierOf]
  split
  · rw [Option.getD_some,frontierFromOptional_fields]
  · rw [Option.getD_none]
    omega

theorem commitStarted_outcome (books : Books c.log)
    (identified : c.log.storage.index.system[databaseIdentityKey]? ≠ none)
    (ordered : c.state.durableFrontier.durableSeq ≤ c.state.headSeq) :
    Delivers (commitStarted write write.sync around) c
      (fun _ next => RequestOutcome c (.nonempty write) around next none)
      (fun halt next => RequestOutcome c (.nonempty write) around next (some halt)) := by
  unfold commitStarted
  rw [delivers_bind]
  refine startRequest_starts ?_ (fun closed => .notAdmitted closed rfl)
  intro admits
  rw [delivers_bind,delivers_get]
  cases ran : c.prepare write around with
  | error error =>
    refine (failStarted_fails error none none around ordered).mono (fun _ _ no => no.elim) ?_
    exact fun halt next refused => .notPrepared admits (.preparation ran) refused
  | ok prepared =>
    unfold commitPrepared
    dsimp only
    split
    · rename_i error framed
      refine (failStarted_fails error none none around ordered).mono (fun _ _ no => no.elim) ?_
      exact fun halt next refused => .notPrepared admits (.frontier ran framed) refused
    · rename_i batch framed
      refine (appendPrepared_appends books ordered ran admits).bind ?_ (fun _ _ failed => failed)
      rintro - reached ⟨same,written⟩
      have submits : Submits c around (.nonempty write) reached.log (c.state.submission write prepared batch) :=
        .nonempty ran framed written
      have published := prepare_ordered batch ran ordered
      rw [same]
      refine (syncTarget_syncs (c := ⟨c.runtime,reached.log,c.state⟩) _ _ around ordered).bind ?_ ?_
      · rintro token after ⟨unmoved,through⟩
        rw [unmoved]
        refine handOver (submits.books books) submits.ordinary ?_ through ?_ ordered ?_ ?_
        · rw [through.index,submits.index]
          exact identified
        · intro needed
          rw [needed,Bool.or_true]
        · intro storage answered kept
          unfold publishNonemptySuccess
          rw [delivers_bind,delivers_modify]
          refine publishStats_publishes ?_ ?_
          · exact published
          · exact fun stats => .indexed admits submits through answered rfl kept
        · intro error storage log next halt answered settled refused
          exact .notIndexed (some (prepared.commitSeq,prepared.txUuid)) admits submits through answered settled refused
      · rintro halt next ⟨needed,error,log,failed,refused⟩
        exact .notSynced admits submits needed failed refused

theorem commitEmptyBarrier_outcome (books : Books c.log)
    (identified : c.log.storage.index.system[databaseIdentityKey]? ≠ none)
    (ordered : c.state.durableFrontier.durableSeq ≤ c.state.headSeq) (admits : c.Admits) :
    Delivers (commitEmptyBarrier around) c (fun _ next => RequestOutcome c (.empty true) around next none)
      (fun halt next => RequestOutcome c (.empty true) around next (some halt)) := by
  unfold commitEmptyBarrier
  rw [delivers_bind,delivers_get]
  dsimp only
  split
  · rename_i durable
    exact .nothing admits rfl (fun _ => durable) rfl
  · rename_i lagging
    split
    · rename_i error made
      refine (failStarted_fails error none none around ordered).mono (fun _ _ no => no.elim) ?_
      exact fun halt next refused => .notPrepared admits (.barrier made) refused
    · rename_i batch made
      have submits : Submits c around (.empty true) c.log (c.state.barrierSubmission batch) := .barrier lagging made
      refine (syncTarget_syncs _ _ around ordered).bind ?_ ?_
      · rintro token after ⟨unmoved,through⟩
        rw [unmoved,delivers_bind,delivers_get]
        -- No other request can have moved the frontier meanwhile.
        rw [if_neg (show ¬c.state.durableFrontier.durableSeq ≥ c.state.headSeq by omega)]
        refine handOver (submits.books books) submits.ordinary ?_ through (fun needed => needed) ordered ?_ ?_
        · rw [through.index,submits.index]
          exact identified
        · intro storage answered kept
          unfold publishEmptyBarrierSuccess
          rw [delivers_bind,delivers_modify]
          refine publishStats_publishes ?_ ?_
          · simp
          · exact fun stats => .indexed admits submits through answered rfl kept
        · intro error storage log next halt answered settled refused
          exact .notIndexed none admits submits through answered settled refused
      · rintro halt next ⟨needed,error,log,failed,refused⟩
        exact .notSynced admits submits needed failed refused

-- One request, from its admission to its last effect.
theorem commit_outcome (books : Books c.log) (identified : c.log.storage.index.system[databaseIdentityKey]? ≠ none)
    (ordered : c.state.durableFrontier.durableSeq ≤ c.state.headSeq) (request : WriteRequest) (around : Surroundings) :
    Delivers (commit request around) c (fun _ next => RequestOutcome c request around next none)
      (fun halt next => RequestOutcome c request around next (some halt)) := by
  cases request with
  | nonempty write => exact commitStarted_outcome books identified ordered
  | empty sync =>
    change Delivers (commitEmptyBatch sync around) _ _ _
    unfold commitEmptyBatch
    rw [delivers_bind]
    refine startRequest_starts ?_ (fun closed => .notAdmitted closed rfl)
    intro admits
    cases sync with
    | false => exact .nothing admits rfl (fun no => by cases no) rfl
    | true => exact commitEmptyBarrier_outcome books identified ordered admits

end proof

end ExpirKv
