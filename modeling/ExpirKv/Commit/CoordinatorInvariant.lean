import ExpirKv.Commit.Aligned
import ExpirKv.Commit.Planning

namespace ExpirKv
open VLogGeometry Storage ValueLog CommitCoordinator

section invariant
variable [Crc32c]

-- The two entries of the index that every commit moves.
structure Stored (index : Index) (headSeq : Nat) (frontier : DurableFrontier) : Prop where
  head : index.system[headSeqKey]? = some (encodeHeadSeq headSeq)
  frontier : ∃ encoded, frontier.encode = .ok encoded ∧ index.system[durableFrontierKey]? = some encoded

-- What a healthy instance is between two requests.
structure Coherent (c : CommitCoordinator) : Prop where
  durableOrdered : c.state.durableFrontier.durableVlogSeq ≤ c.state.durableFrontier.durableSeq
  seqOrdered : c.state.durableFrontier.durableSeq ≤ c.state.headSeq
  vlogOrdered : c.state.durableFrontier.durableVlogSeq ≤ c.state.headVlogSeq
  headOrdered : c.state.headVlogSeq ≤ c.state.headSeq
  empty : c.state.headVlogSeq = 0 ↔ c.state.headVlogEnd = none
  settled : c.state.headVlogSeq ≤ c.state.durableFrontier.durableSeq →
    c.state.durableFrontier.durableVlogSeq = c.state.headVlogSeq ∧
      c.state.durableFrontier.durableVlogEnd = c.state.headVlogEnd
  position : c.log.writer.position = c.state.headVlogEnd.getD ⟨0,0⟩
  idle : c.log.writer.pendingSyncId = none
  healthy : c.log.writer.appendFailed = false
  last : (c.log.writer.lastAppended = none ∧ c.state.headVlogSeq = c.state.durableFrontier.durableVlogSeq ∧
      c.state.headVlogEnd = c.state.durableFrontier.durableVlogEnd ∧
      c.log.writer.dirty.dirtyFiles.isEmpty = true ∧ c.log.writer.dirty.pendingDirectoryEntries.isEmpty = true) ∨
    ∃ stop, c.state.headVlogEnd = some stop ∧ c.log.writer.lastAppended = some ⟨c.state.headVlogSeq,stop⟩
  stored : Stored c.log.storage.index c.state.headSeq c.state.durableFrontier

-- The same with what keeps it going.
structure Accounted (c : CommitCoordinator) : Prop where
  aligned : Aligned c.log.writer c.state.durableFrontier c.state.headVlogSeq c.state.headVlogEnd
  stored : Stored c.log.storage.index c.state.headSeq c.state.durableFrontier
  bound : c.state.headSeq < 18446744073709551616
  ordered : c.state.durableFrontier.durableSeq ≤ c.state.headSeq
  head : c.state.headVlogSeq ≤ c.state.headSeq
  settled : c.state.headVlogSeq ≤ c.state.durableFrontier.durableSeq →
    c.state.durableFrontier.durableVlogSeq = c.state.headVlogSeq ∧
      c.state.durableFrontier.durableVlogEnd = c.state.headVlogEnd

omit [Crc32c] in
theorem vlogEndMatches_none {vlogSeq : Nat} {vlogEnd : Option VLogPosition}
    (matched : vlogEndMatches vlogSeq vlogEnd = true) : vlogSeq = 0 ↔ vlogEnd = none := by
  cases vlogEnd with
  | none =>
    simp only [vlogEndMatches,beq_iff_eq] at matched
    simp [matched]
  | some position =>
    simp only [vlogEndMatches,Bool.and_eq_true,bne_iff_ne,ne_eq] at matched
    simp [matched.1]

theorem Accounted.coherent {c : CommitCoordinator} (accounted : Accounted c) : Coherent c := by
  obtain ⟨encoded,encodes,-⟩ := accounted.stored.frontier
  simp only [DurableFrontier.encode,bind_ok,exists_unit,mapError_ok] at encodes
  have aligned := accounted.aligned
  exact ⟨(DurableFrontier.validate_ok.mp encodes.1).1,accounted.ordered,aligned.covered,accounted.head,
    vlogEndMatches_none aligned.matched,accounted.settled,aligned.position,aligned.idle,aligned.healthy,aligned.last,
    accounted.stored⟩

-- What holds of every instance, stopped or not.
structure Sound (c : CommitCoordinator) : Prop where
  books : Books c.log
  ready : WriterReady c.log.writer
  identified : c.log.storage.index.system[databaseIdentityKey]? ≠ none
  ordered : c.state.durableFrontier.durableSeq ≤ c.state.headSeq
  accounted : c.runtime.state.instanceState = .healthy → Accounted c

end invariant

section requests
variable [Crc32c] {c : CommitCoordinator} {request : WriteRequest} {around : Surroundings} {write : ValidatedWrite}
  {prepared : PreparedCommit} {envelope : PreparedEnvelope}

-- An envelope is prepared at the writer, for the next sequence number.
theorem CommitCoordinator.prepare_envelope (ready : WriterReady c.log.writer) (ran : c.prepare write around = .ok prepared)
    (written : prepared.envelope = some envelope) :
    ∃ next, prepareEnvelope ⟨production,c.log.writer.position⟩ c.log.writer.databaseUuid (c.state.headSeq + 1)
      prepared.txUuid write.operations = .ok (envelope,next) := by
  obtain ⟨descriptor,prepares⟩ := CommitCoordinator.prepare_ok ran
  have enveloped := prepares.envelope
  rw [written] at enveloped
  obtain ⟨kind,context,here,next,made⟩ := prepareCommitEnvelope_some enveloped
  rw [coordinatorContext,kind] at here
  obtain rfl := Option.some.inj here
  rw [ready.geometry] at made
  exact ⟨next,made⟩

theorem Accounted.appendReady (accounted : Accounted c) (ready : WriterReady c.log.writer)
    (ran : c.prepare write around = .ok prepared) (written : prepared.envelope = some envelope) :
    AppendReady c.log.writer envelope ∧ envelope.commitSeq = c.state.headSeq + 1 ∧ Placeable envelope.vlogEnd := by
  obtain ⟨next,made⟩ := CommitCoordinator.prepare_envelope ready ran written
  have aligned := accounted.aligned
  have tiled := prepareEnvelope_tiled production_validate made
  have seq := tiled.identity.1
  refine ⟨⟨aligned.healthy,aligned.idle,?_,tiled.accepted ready.geometry tiled.begins.symm⟩,seq,
    prepareEnvelope_placeable (ready.placeable aligned.healthy) made⟩
  intro previous found
  have head := accounted.head
  rcases aligned.last with ⟨none,-⟩ | ⟨stop,-,known⟩
  · rw [none] at found
    cases found
  · rw [known] at found
    obtain rfl := Option.some.inj found
    simp only [seq]
    omega

-- How a batch leaves the log and the commit state aligned, if the index takes it.
structure Furthers (c : CommitCoordinator) (appended : ValueLog) (submission : Submission) : Prop where
  aligned : Aligned appended.writer c.state.durableFrontier submission.targetSeq submission.targetEnd
  ready : WriterReady appended.writer
  head : submission.published.headVlogSeq = submission.targetSeq ∧ submission.published.headVlogEnd = submission.targetEnd
  ordered : submission.targetSeq ≤ submission.published.headSeq
  bound : submission.published.headSeq < 18446744073709551616
  due : submission.needed = true → c.state.durableFrontier.durableVlogSeq < submission.targetSeq
  frontier : (submission.frontier = none ∧ submission.needed = false ∧
      submission.published.durableFrontier = c.state.durableFrontier ∧
      c.state.durableFrontier.durableSeq ≤ submission.published.headSeq ∧
      (submission.targetSeq ≤ c.state.durableFrontier.durableSeq →
        c.state.durableFrontier.durableVlogSeq = submission.targetSeq ∧
          c.state.durableFrontier.durableVlogEnd = submission.targetEnd)) ∨
    (submission.frontier = some submission.published.durableFrontier ∧
      submission.published.durableFrontier =
        ⟨submission.published.headSeq,submission.targetSeq,submission.targetEnd⟩)

-- The submission of a prepared write once its target is known.
theorem submission_furthers {appended : ValueLog} {batch : IndexAtomicBatch} {targetSeq : Nat}
    {targetEnd : Option VLogPosition} (accounted : Accounted c) (seq : prepared.commitSeq = c.state.headSeq + 1)
    (bound : c.state.headSeq + 1 < 18446744073709551616)
    (target : vlogTarget c.state prepared = (targetSeq,targetEnd))
    (aligned : Aligned appended.writer c.state.durableFrontier targetSeq targetEnd) (ready : WriterReady appended.writer)
    (moves : write.transactionKind = .indexOnlyDelete →
      targetSeq = c.state.headVlogSeq ∧ targetEnd = c.state.headVlogEnd)
    (next : write.transactionKind = .vlogEnvelope → targetSeq = c.state.headSeq + 1) :
    Furthers c appended (c.state.submission write prepared batch) := by
  have ordered := accounted.ordered
  have head := accounted.head
  have covered := aligned.covered
  refine ⟨?_,ready,?_,?_,?_,?_,?_⟩
  · simp only [CommitState.submission,target]
    exact aligned
  · simp only [CommitState.submission,target,committedState]
    cases kind : write.transactionKind with
    | vlogEnvelope => exact ⟨rfl,rfl⟩
    | indexOnlyDelete => exact ⟨(moves kind).1.symm,(moves kind).2.symm⟩
  · simp only [CommitState.submission,target,committedState_headSeq,seq]
    cases kind : write.transactionKind with
    | vlogEnvelope => exact Nat.le_of_eq (next kind)
    | indexOnlyDelete => rw [(moves kind).1]; omega
  · simp only [CommitState.submission,committedState_headSeq,seq]
    exact bound
  · simp only [CommitState.submission,target,Bool.and_eq_true,decide_eq_true_eq,gt_iff_lt]
    exact fun needed => needed.2
  · simp only [CommitState.submission,target,CommitState.frontierOf,committedState_headSeq,committedState_durableFrontier,
      frontierFromOptional_fields,seq]
    cases write.sync with
    | true => exact .inr ⟨rfl,rfl⟩
    | false =>
      refine .inl ⟨rfl,rfl,rfl,Nat.le_succ_of_le ordered,?_⟩
      intro durable
      cases kind : write.transactionKind with
      | vlogEnvelope => rw [next kind] at durable; omega
      | indexOnlyDelete =>
        obtain ⟨rfl,rfl⟩ := moves kind
        exact accounted.settled durable

theorem Accounted.furthers {appended : ValueLog} {submission : Submission} (accounted : Accounted c)
    (books : Books c.log) (ready : WriterReady c.log.writer) (submits : Submits c around request appended submission) :
    Furthers c appended submission := by
  cases submits with
  | @nonempty write prepared batch _ ran framed written =>
    obtain ⟨descriptor,prepares⟩ := CommitCoordinator.prepare_ok ran
    have seq := prepares.seq
    cases present : prepared.envelope with
    | none =>
      have enveloped := prepares.envelope
      rw [present] at written enveloped
      obtain ⟨kind,-⟩ := prepareCommitEnvelope_none enveloped
      cases written with
      | none =>
        refine submission_furthers accounted seq prepares.bound (by rw [vlogTarget,present]) accounted.aligned ready
          (fun _ => ⟨rfl,rfl⟩) ?_
        rw [kind]
        exact fun no => by cases no
    | some envelope =>
      have kind := CommitCoordinator.prepare_guard ran present
      obtain ⟨checks,number,placeable⟩ := accounted.appendReady ready ran present
      rw [present] at written
      cases written with
      | appended calls appended =>
        have aligned := accounted.aligned
        have sized : 0 < c.log.writer.geometry.maxFileSize := by
          rw [ready.geometry]
          decide
        have turned := (append_calls books sized aligned.turned checks).of_ok calls
        have head := accounted.head
        have forward := (validateEnvelopeChunks_ok checks.checked).forward
        have later : c.state.headVlogSeq < envelope.commitSeq := by omega
        have moved := aligned.appended ready appended turned later forward placeable
        rw [number,←seq] at moved
        refine submission_furthers accounted seq prepares.bound (by rw [vlogTarget,present]) moved ?_ ?_ (fun _ => seq)
        · obtain ⟨last,frame⟩ := appended.frame
          have same : _ = c.log.writer.databaseUuid := frame.databaseUuid
          refine ⟨frame.geometry.trans ready.geometry,by rw [same]; exact ready.named,?_⟩
          intro _
          rw [appended.position]
          exact placeable
        · rw [kind]
          exact fun no => by cases no
  | barrier lagging made =>
    have ordered := accounted.ordered
    refine ⟨accounted.aligned,ready,⟨rfl,rfl⟩,accounted.head,accounted.bound,?_,.inr ⟨rfl,?_⟩⟩
    · simp only [CommitState.barrierSubmission,decide_eq_true_eq,gt_iff_lt,imp_self]
    · simp only [CommitState.barrierSubmission,CommitState.barrier,frontierFromOptional_fields]

-- The head moves with every transaction, the frontier with every synced one and with every barrier.
theorem Submits.stores {appended : ValueLog} {submission : Submission} {index : Index}
    (submits : Submits c around request appended submission)
    (stored : Stored index c.state.headSeq c.state.durableFrontier) :
    Stored (index.apply submission.batch) submission.published.headSeq submission.published.durableFrontier := by
  have apart : headSeqKey ≠ durableFrontierKey := by decide
  cases submits with
  | @nonempty write prepared batch _ ran framed _ =>
    obtain ⟨descriptor,prepares⟩ := CommitCoordinator.prepare_ok ran
    obtain ⟨encoded,-,same⟩ := prepares.batch
    have writes := commitBatch_writes descriptor.mutations encoded (c.state.headSeq + 1)
    rw [←same] at writes
    simp only [CommitState.submission,committedState_headSeq,committedState_durableFrontier,prepares.seq]
    unfold addFrontier CommitState.frontierOf at framed
    rw [CommitState.frontierOf]
    cases sync : write.sync with
    | false =>
      simp only [sync,Bool.false_eq_true,if_false] at framed ⊢
      obtain rfl := Except.ok.inj framed
      refine ⟨?_,?_⟩
      · rw [writes.system]
        simp [lastValue_cons,lastValue_nil]
      · obtain ⟨bytes,encodes,there⟩ := stored.frontier
        refine ⟨bytes,encodes,?_⟩
        rw [writes.system]
        simpa [lastValue_cons,lastValue_nil,apart] using there
    | true =>
      simp only [sync,if_true] at framed ⊢
      obtain ⟨-,bytes,encodes,rfl⟩ := addFrontierToBatch_ok.mp framed
      have more := writes.putSystem durableFrontierKey bytes
      refine ⟨?_,bytes,?_,?_⟩
      · rw [more.system]
        simp [lastValue_cons,lastValue_nil,apart.symm]
      · exact encodes
      · rw [more.system]
        simp [lastValue_cons,lastValue_nil]
  | barrier _ made =>
    obtain ⟨-,-,bytes,encodes,rfl⟩ := frontierOnlyBatch_ok.mp made
    have writes : IndexAtomicBatch.Writes [.putInternal .system durableFrontierKey bytes] [] []
        [(durableFrontierKey,some bytes)] := rfl
    simp only [CommitState.barrierSubmission]
    refine ⟨?_,bytes,encodes,?_⟩
    · rw [writes.system]
      simpa [lastValue_cons,lastValue_nil,apart.symm] using stored.head
    · rw [writes.system]
      simp [lastValue_cons,lastValue_nil]

-- A request the index took.
theorem Furthers.accounted {appended synced : ValueLog} {submission : Submission} {token : Option FrontierSync}
    {runtime : RuntimeControl} {storage : Storage} (furthers : Furthers c appended submission)
    (reached : TargetSynced appended submission.targetSeq submission.targetEnd submission.needed token synced)
    (stored : Stored storage.index submission.published.headSeq submission.published.durableFrontier) :
    Accounted ⟨runtime,⟨storage,appended.writer.settled token⟩,submission.published⟩ := by
  obtain ⟨head,ends⟩ := furthers.head
  rcases furthers.frontier with ⟨-,needless,same,ordered,settled⟩ | ⟨-,same⟩
  · refine ⟨?_,stored,furthers.bound,?_,?_,?_⟩
    · have kept : token = none := by
        rw [←Option.not_isSome_iff_eq_none,reached.token_isSome,needless]
        exact Bool.false_ne_true
      simp only [head,ends,same,kept,ValueLogWriter.settled]
      exact furthers.aligned
    · simp only [same]
      exact ordered
    · simp only [head]
      exact furthers.ordered
    · simp only [head,ends,same]
      exact settled
  · refine ⟨?_,stored,furthers.bound,?_,?_,?_⟩
    · simp only [head,ends,same]
      exact furthers.aligned.settled reached furthers.due _
    · simp only [same,Nat.le_refl]
    · simp only [head]
      exact furthers.ordered
    · simp only [head,ends,same,implies_true,and_self]

end requests

end ExpirKv
