import ExpirKv.Commit.LiveRuns
import ExpirKv.Commit.Secured
import ExpirKv.Recovery.Chronicle

namespace ExpirKv
open VLogGeometry Storage ValueLog CommitCoordinator

section explaining
variable {past early late : List Attempt} {operations : List LogicalOperation} {accepted : Accepted}

-- What a front of a life comes to: all that was answered in it, and its last request perhaps though that one failed.
def Explains (past : List Attempt) (operations : List LogicalOperation) : Prop :=
  ∃ kept, kept <+: past ∧ (operations = answeredOperations kept ∨
    ∃ earlier doubt, kept = earlier ++ [⟨doubt,false⟩] ∧ operations = answeredOperations earlier ++ doubt)

theorem answeredOperations_append (early late : List Attempt) :
    answeredOperations (early ++ late) = answeredOperations early ++ answeredOperations late := by
  simp [answeredOperations]

theorem Explains.nothing (past : List Attempt) : Explains past [] := ⟨[],List.nil_prefix,.inl rfl⟩

-- A request behind a life in which nothing is in doubt.
theorem Explains.request (past : List Attempt) (operations : List LogicalOperation) (answered : Bool) :
    Explains (past ++ [⟨operations,answered⟩]) (answeredOperations past ++ operations) := by
  refine ⟨_,List.prefix_rfl,?_⟩
  cases answered with
  | false => exact .inr ⟨past,operations,rfl,rfl⟩
  | true => exact .inl (answeredOperations_concat past operations true).symm

theorem Explains.more (explains : Explains past operations) (more : List Attempt) :
    Explains (past ++ more) operations := by
  obtain ⟨kept,front,left⟩ := explains
  exact ⟨kept,front.trans (List.prefix_append past more),left⟩

theorem Explains.behind (explains : Explains late operations) (early : List Attempt) :
    Explains (early ++ late) (answeredOperations early ++ operations) := by
  obtain ⟨kept,front,left⟩ := explains
  refine ⟨early ++ kept,(List.prefix_append_right_inj early).mpr front,?_⟩
  rcases left with rfl | ⟨earlier,doubt,rfl,rfl⟩
  · exact .inl (answeredOperations_append early kept).symm
  · exact .inr ⟨early ++ earlier,doubt,(List.append_assoc _ _ _).symm,by rw [answeredOperations_append,List.append_assoc]⟩

-- A moment of a life to come back to: the map the life began with, what was asked until then and where it stood.
structure Mark where
  base : UserMap
  early : List Attempt
  accepted : Accepted

-- What is known of what was written once the life stood at a point. From the mark on all that was answered before it
-- is in there.
structure Mark.Tells (mark : Mark) (late : List Attempt) (accepted : Accepted) (written : List LogicalOperation) : Prop where
  explains : Explains (mark.early ++ late) written
  place : accepted.seq = mark.accepted.seq → accepted.vlogEnd = mark.accepted.vlogEnd
  beyond : mark.accepted.seq ≤ accepted.seq → ∃ rest, written = answeredOperations mark.early ++ rest ∧ Explains late rest

variable {mark : Mark} {written : List LogicalOperation}

theorem Mark.Tells.more (tells : mark.Tells late accepted written) (more : List Attempt) :
    mark.Tells (late ++ more) accepted written := by
  obtain ⟨explains,place,beyond⟩ := tells
  refine ⟨?_,place,fun behind => ?_⟩
  · rw [←List.append_assoc]
    exact explains.more more
  · obtain ⟨rest,same,explained⟩ := beyond behind
    exact ⟨rest,same,explained.more more⟩

theorem Mark.tells (answered : Bool) (place : accepted.seq = mark.accepted.seq → accepted.vlogEnd = mark.accepted.vlogEnd) :
    mark.Tells (late ++ [⟨operations,answered⟩]) accepted (answeredOperations (mark.early ++ late) ++ operations) := by
  have explained := Explains.request late operations answered
  have same : answeredOperations (mark.early ++ late) ++ operations =
      answeredOperations mark.early ++ (answeredOperations late ++ operations) := by
    rw [answeredOperations_append,List.append_assoc]
  exact ⟨by rw [same]; exact explained.behind mark.early,place,fun _ => ⟨_,same,explained⟩⟩

end explaining

section noting
variable [Crc32c] {tells fuller : Accepted → List LogicalOperation → Prop} {base : UserMap} {mark : Mark}
  {late : List Attempt} {files later : FileSet} {index : Index} {begun accepted : Accepted}
  {taken : List TransactionDescriptor}

theorem AcceptsAll.extends (accepts : AcceptsAll files begun taken) (grown : files.Extends later) :
    AcceptsAll later begun taken := by
  induction taken generalizing begun with
  | nil => trivial
  | cons descriptor rest ih =>
    obtain ⟨first,others⟩ := accepts
    refine ⟨fun kind => ?_,ih others⟩
    obtain ⟨begins,read⟩ := first kind
    simp only [readAndValidateEnvelope,bind_ok,exists_unit] at read ⊢
    obtain ⟨fits,envelope,read,valid⟩ := read
    exact ⟨begins,fits,envelope,(grown.keeps _).envelope read,valid⟩

-- A point of a life: the files ended there with a stable envelope and bore out everything taken so far, and the index
-- stood for what had been written, of which something is told.
def Noted (tells : Accepted → List LogicalOperation → Prop) (base : UserMap) (files : FileSet) (begun : Accepted)
    (taken : List TransactionDescriptor) (index : Index) (accepted : Accepted) : Prop :=
  ∃ there written, there.Extends files ∧ EndsAt there (appendPosition accepted.vlogEnd) ∧
    StableBoundary there ⟨accepted.seq,accepted.vlogSeq,accepted.vlogEnd⟩ ∧ AcceptsAll there begun taken ∧
    tells accepted written ∧ Serves there index (base.execute written)

theorem Noted.onward (noted : Noted tells base files begun taken index accepted) (grown : files.Extends later)
    (more : ∀ accepted written, tells accepted written → fuller accepted written) :
    Noted fuller base later begun taken index accepted := by
  obtain ⟨there,written,since,ends,boundary,accepts,told,serves⟩ := noted
  exact ⟨there,written,since.trans grown,ends,boundary,accepts,more _ _ told,serves⟩

theorem Noted.accepts (noted : Noted tells base files begun taken index accepted) : AcceptsAll files begun taken := by
  obtain ⟨there,_,since,-,-,accepts,-⟩ := noted
  exact accepts.extends since

theorem Noted.place (noted : Noted (mark.Tells late) base files begun taken index accepted) :
    accepted.seq = mark.accepted.seq → accepted.vlogEnd = mark.accepted.vlogEnd := by
  obtain ⟨_,_,-,-,-,-,tells,-⟩ := noted
  exact tells.place

end noting

section submitting
variable [Crc32c] {c next : CommitCoordinator} {request : WriteRequest} {around : Surroundings} {appended : ValueLog}
  {submission : Submission} {tells fuller : Accepted → List LogicalOperation → Prop} {base : UserMap}
  {written : List LogicalOperation}

def CommitState.accepted (state : CommitState) : Accepted := ⟨state.headSeq,state.headVlogSeq,state.headVlogEnd⟩

-- The published state is the one at which a recovery arrives with the descriptor.
theorem CommitState.submission_accepted {write : ValidatedWrite} {prepared : PreparedCommit} {batch : IndexAtomicBatch}
    {descriptor : TransactionDescriptor} (ran : c.prepare write around = .ok prepared)
    (prepares : Prepares write c.state.headSeq (coordinatorContext write c.log.writer)
      (fun key => c.log.storage.index.user[key]?) prepared descriptor) :
    (c.state.submission write prepared batch).published.accepted = c.state.accepted.take descriptor := by
  have kind : descriptor.txMeta.transactionKind = write.transactionKind := by rw [prepares.described]; rfl
  have number : descriptor.txMeta.commitSeq = c.state.headSeq + 1 := by rw [prepares.described]; rfl
  have ends : descriptor.txMeta.vlogEnd = (prepared.envelope.map PreparedEnvelope.vlogEnd).getD ⟨0,0⟩ := by
    rw [prepares.described]; rfl
  have enveloped := prepares.envelope
  simp only [CommitState.submission,committedState,CommitState.accepted,Accepted.take,kind,number,ends,prepares.seq]
  cases present : prepared.envelope with
  | none =>
    rw [present] at enveloped
    obtain ⟨only,-⟩ := prepareCommitEnvelope_none enveloped
    rw [only]
  | some envelope =>
    rw [CommitCoordinator.prepare_guard ran present]
    simp [vlogTarget,present,prepares.seq]

theorem Submits.packs (grounded : Grounded c) (submits : Submits c around request appended submission)
    (packed : PackedAt c.log.writer.databaseUuid c.log.storage.vlog.files c.log.writer.position) :
    PackedAt c.log.writer.databaseUuid appended.storage.vlog.files appended.writer.position := by
  cases submits with
  | @nonempty write prepared batch _ ran _ written =>
    cases present : prepared.envelope with
    | none =>
      rw [present] at written
      cases written with
      | none => exact packed
    | some envelope =>
      rw [present] at written
      cases written with
      | appended _ appended =>
        obtain ⟨descriptor,prepares⟩ := CommitCoordinator.prepare_ok ran
        obtain ⟨next,made⟩ := CommitCoordinator.prepare_envelope grounded.sound.ready ran present
        rw [appended.files,appended.position]
        exact (prepareEnvelope_laid prepares.bound made).1.packs packed
  | barrier => exact packed

-- A failed append leaves files that still pass the inspection.
theorem Grounded.inspectable {write : ValidatedWrite} {prepared : PreparedCommit} {envelope : PreparedEnvelope}
    {error : StorageError} {log : ValueLog} (grounded : Grounded c) (ran : c.prepare write around = .ok prepared)
    (present : prepared.envelope = some envelope) (calls : append envelope c.log = .error error log)
    (packed : PackedAt c.log.writer.databaseUuid c.log.storage.vlog.files c.log.writer.position) :
    Inspectable (currentFormat c.log.writer.databaseUuid) log.storage.vlog.files := by
  obtain ⟨descriptor,prepares⟩ := CommitCoordinator.prepare_ok ran
  obtain ⟨next,made⟩ := CommitCoordinator.prepare_envelope grounded.sound.ready ran present
  have whole := (prepareEnvelope_laid prepares.bound made).1.packs packed
  exact whole.inspectable.kept ((append_torn grounded.sound.books).of_error calls)

-- Keys of the system other than the two that commits move.
theorem Submits.system (submits : Submits c around request appended submission) (index : Index) {key : Bytes}
    (head : key ≠ headSeqKey) (frontier : key ≠ durableFrontierKey) :
    (index.apply submission.batch).system[key]? = index.system[key]? := by
  cases submits with
  | @nonempty write prepared batch _ ran framed _ =>
    obtain ⟨descriptor,prepares⟩ := CommitCoordinator.prepare_ok ran
    obtain ⟨encoded,-,same⟩ := prepares.batch
    have writes := commitBatch_writes descriptor.mutations encoded (c.state.headSeq + 1)
    rw [←same] at writes
    simp only [CommitState.submission]
    unfold addFrontier at framed
    split at framed
    · obtain ⟨-,bytes,-,rfl⟩ := addFrontierToBatch_ok.mp framed
      rw [(writes.putSystem durableFrontierKey bytes).system]
      simp [lastValue_cons,lastValue_nil,head.symm,frontier.symm]
    · obtain rfl := Except.ok.inj framed
      rw [writes.system]
      simp [lastValue_cons,lastValue_nil,head.symm]
  | barrier _ made =>
    obtain ⟨-,-,bytes,-,rfl⟩ := frontierOnlyBatch_ok.mp made
    have writes : IndexAtomicBatch.Writes [.putInternal .system durableFrontierKey bytes] [] []
        [(durableFrontierKey,some bytes)] := rfl
    simp only [CommitState.barrierSubmission]
    rw [writes.system]
    simp [lastValue_cons,lastValue_nil,frontier.symm]

-- The point of the life that a request comes to once the index has its batch.
theorem Grounded.noted {begun : Accepted} {taken : List TransactionDescriptor} {other : Index} (grounded : Grounded c)
    (healthy : c.runtime.state.instanceState = .healthy)
    (serves : Serves c.log.storage.vlog c.log.storage.index (base.execute written))
    (submits : Submits c around request appended submission) (accepts : AcceptsAll appended.storage.vlog begun taken)
    (told : tells submission.published.accepted (written ++ request.operations))
    (user : other.user = (c.log.storage.index.apply submission.batch).user) :
    Noted tells base appended.storage.vlog begun taken other submission.published.accepted := by
  have accounted := grounded.sound.accounted healthy
  have furthers := accounted.furthers grounded.sound.books grounded.sound.ready submits
  obtain ⟨lodged,boundary,-,-⟩ := grounded.submits healthy submits
  have after := (submits.serves grounded healthy serves).same user
  rw [←UserMap.execute_append] at after
  refine ⟨_,_,.refl _,?_,boundary,accepts,told,after⟩
  have position := furthers.aligned.position
  rw [←furthers.head.2] at position
  simp only [CommitState.accepted,appendPosition]
  rw [←position]
  exact lodged.ends

-- The envelope of a request is the one its descriptor describes, at the place where the last one ended.
theorem Grounded.acceptable {write : ValidatedWrite} {prepared : PreparedCommit} {descriptor : TransactionDescriptor}
    (grounded : Grounded c) (healthy : c.runtime.state.instanceState = .healthy)
    (ran : c.prepare write around = .ok prepared) (written : EnvelopeWritten c.log prepared.envelope appended)
    (prepares : Prepares write c.state.headSeq (coordinatorContext write c.log.writer)
      (fun key => c.log.storage.index.user[key]?) prepared descriptor) (crc : Nat) :
    Acceptable appended.storage.vlog c.state.accepted (descriptor.sealed crc) := by
  have accounted := grounded.sound.accounted healthy
  intro kind
  have same : (descriptor.sealed crc).txMeta.transactionKind = descriptor.txMeta.transactionKind := rfl
  cases present : prepared.envelope with
  | none =>
    have enveloped := prepares.envelope
    rw [present] at enveloped
    rw [same,prepares.described] at kind
    have only : write.transactionKind = .indexOnlyDelete := (prepareCommitEnvelope_none enveloped).1
    simp only [commitTxMeta,only] at kind
    cases kind
  | some envelope =>
    obtain ⟨next,made⟩ := CommitCoordinator.prepare_envelope grounded.sound.ready ran present
    have laid := (prepareEnvelope_laid prepares.bound made).1
    have footed := grounded.footed healthy
    obtain ⟨ends,-,held⟩ := laid.lays footed.ends grounded.identity
    have good := (grounded.sound.ready.placeable accounted.aligned.healthy).good
    have described := prepares.described
    rw [present] at written described
    cases written with
    | appended _ whole =>
      rw [←whole.vlog] at ends held
      have identity : appended.storage.vlog.databaseUuid = c.log.writer.databaseUuid := by
        rw [whole.vlog]
        exact (FileSet.layAll_identity _ _).trans grounded.identity
      have read := laid.read ends.geometry identity ⟨good.1,good.2.1⟩
        (by simp : ∀ checksum ∈ some envelope.envelopeCrc32c, checksum = envelope.envelopeCrc32c) held
      have begins : descriptor.txMeta.vlogBegin = c.log.writer.position := by rw [described]; exact laid.vlogBegin_eq
      have stop : descriptor.txMeta.vlogEnd = envelope.vlogEnd := by rw [described]; rfl
      have crc32c : descriptor.txMeta.envelopeCrc32c = envelope.envelopeCrc32c := by rw [described]; rfl
      refine ⟨begins.trans accounted.aligned.position,?_⟩
      simp only [readAndValidateEnvelope,bind_ok,exists_unit,rejectIf_ok]
      refine ⟨fun no => no kind,_,?_,prepares.validates present laid⟩
      simp only [TransactionDescriptor.sealed,begins,stop,crc32c]
      exact read

end submitting

section journaled
variable [Crc32c]

-- The index of an instance is a history above its durable frontier, and the files bear out every point of it.
structure Chronicled (tells : Accepted → List LogicalOperation → Prop) (base : UserMap) (c : CommitCoordinator)
    (frontier : DurableFrontier) (chain : List (EncodedDescriptor × TransactionDescriptor)) (head : Accepted) : Prop where
  journal : Journal (Noted tells base c.log.storage.vlog (.start frontier)) c.log.storage.index (.start frontier) chain head
  stored : Stored c.log.storage.index head.seq frontier
  bound : head.seq < 18446744073709551616
  secured : Secured c.log.storage frontier.durableVlogEnd
  here : c.runtime.state.instanceState = .healthy → frontier = c.state.durableFrontier ∧ head = c.state.accepted

structure Journaled (databaseUuid : Uuid) (mark : Mark) (late : List Attempt) (c : CommitCoordinator) : Prop where
  named : c.log.storage.vlog.databaseUuid = databaseUuid
  journal : ∃ frontier chain head, Chronicled (mark.Tells late) mark.base c frontier chain head ∧
    mark.accepted.seq ≤ head.seq
  identity : ∃ encoded, c.log.storage.index.system[databaseIdentityKey]? = some encoded ∧
    validateDatabaseIdentity (currentFormat databaseUuid) encoded = .ok ()
  idle : c.log.storage.index.system[recoveryStateKey]? = none
  inspectable : Inspectable (currentFormat databaseUuid) c.log.storage.vlog.files
  packed : c.runtime.state.instanceState = .healthy →
    PackedAt databaseUuid c.log.storage.vlog.files c.log.writer.position
  serves : c.runtime.state.instanceState = .healthy →
    Serves c.log.storage.vlog c.log.storage.index (mark.base.execute (answeredOperations (mark.early ++ late)))

variable {c next start : CommitCoordinator} {request : WriteRequest} {around : Surroundings} {appended : ValueLog}
  {submission : Submission} {mark : Mark} {late more : List Attempt} {databaseUuid : Uuid} {ended : Option Halt}
  {tells fuller : Accepted → List LogicalOperation → Prop} {base : UserMap} {written : List LogicalOperation}
  {frontier : DurableFrontier} {chain : List (EncodedDescriptor × TransactionDescriptor)} {head : Accepted}

theorem Chronicled.seq (kept : Chronicled tells base c frontier chain head) :
    head.seq = frontier.durableSeq + chain.length :=
  kept.journal.seq

theorem Chronicled.frontierStored (kept : Chronicled tells base c frontier chain head) :
    FrontierStored c.log.storage.index frontier := by
  refine kept.stored.frontierStored (Nat.lt_of_le_of_lt ?_ kept.bound)
  rw [kept.seq]
  exact Nat.le_add_right _ _

-- What happened left the index as it was.
structure Idled (c next : CommitCoordinator) : Prop where
  index : next.log.storage.index = c.log.storage.index
  grown : c.log.storage.vlog.Extends next.log.storage.vlog
  shelters : Shelters c.log.storage next.log.storage
  still : next.runtime.state.instanceState = .healthy → c.runtime.state.instanceState = .healthy ∧ next.state = c.state ∧
    next.log.writer = c.log.writer ∧ next.log.storage.vlog = c.log.storage.vlog

theorem CommitCoordinator.facing_idled (script : List Answer) : Idled c (c.facing script) :=
  ⟨rfl,.refl _,(facing_moved c script).shelters,fun healthy => ⟨healthy,rfl,rfl,rfl⟩⟩

theorem Chronicled.idles (kept : Chronicled tells base c frontier chain head) (idled : Idled c next)
    (more : ∀ accepted written, tells accepted written → fuller accepted written) :
    Chronicled fuller base next frontier chain head := by
  obtain ⟨journal,stored,bound,secured,here⟩ := kept
  obtain ⟨index,grown,shelters,still⟩ := idled
  refine ⟨?_,by rw [index]; exact stored,bound,secured.sheltered shelters,?_⟩
  · rw [index]
    exact journal.mono (fun _ _ _ noted => noted.onward grown more)
  · intro healthy
    obtain ⟨before,state,-⟩ := still healthy
    rw [state]
    exact here before

theorem Journaled.idles (journaled : Journaled databaseUuid mark late c) (idled : Idled c next)
    (inspectable : Inspectable (currentFormat databaseUuid) next.log.storage.vlog.files)
    (nothing : answeredOperations more = []) : Journaled databaseUuid mark (late ++ more) next := by
  obtain ⟨named,⟨frontier,chain,head,kept,marked⟩,identity,idle,-,packed,serves⟩ := journaled
  have kept := kept.idles idled (fun _ _ tells => tells.more more)
  obtain ⟨index,grown,shelters,still⟩ := idled
  have longer : answeredOperations (mark.early ++ (late ++ more)) = answeredOperations (mark.early ++ late) := by
    rw [←List.append_assoc,answeredOperations_append,nothing,List.append_nil]
  refine ⟨grown.identity.trans named,⟨frontier,chain,head,kept,marked⟩,by rw [index]; exact identity,
    by rw [index]; exact idle,inspectable,?_,?_⟩
  · intro healthy
    obtain ⟨before,-,writer,vlog⟩ := still healthy
    rw [writer,vlog]
    exact packed before
  · intro healthy
    obtain ⟨before,-,-,vlog⟩ := still healthy
    rw [index,vlog,longer]
    exact serves before

-- The index took the batch of a request.
structure Published (appended : ValueLog) (submission : Submission) (answered : Bool) (c next : CommitCoordinator) :
    Prop where
  index : next.log.storage.index = c.log.storage.index.apply submission.batch
  vlog : next.log.storage.vlog = appended.storage.vlog
  secured : Secured next.log.storage submission.published.durableFrontier.durableVlogEnd
  still : next.runtime.state.instanceState = .healthy → answered = true ∧ next.state = submission.published ∧
    next.log.writer.position = appended.writer.position

theorem Submits.heads (submits : Submits c around request appended submission) :
    c.state.headSeq < submission.published.headSeq ∨ submission.published.accepted = c.state.accepted := by
  cases submits with
  | @nonempty write prepared batch _ ran framed written =>
    obtain ⟨descriptor,prepares⟩ := CommitCoordinator.prepare_ok ran
    left
    simp only [CommitState.submission,committedState_headSeq,prepares.seq]
    exact Nat.lt_succ_self _
  | barrier _ made => exact .inr rfl

theorem Submits.marked (submits : Submits c around request appended submission)
    (marked : mark.accepted.seq ≤ c.state.accepted.seq) : mark.accepted.seq ≤ submission.published.accepted.seq := by
  rcases submits.heads with further | same
  · exact Nat.le_of_lt (Nat.lt_of_le_of_lt marked further)
  · rw [same]
    exact marked

-- A state behind the mark is another point, or the one that was there.
theorem Submits.place {files : FileSet} {begun : Accepted} {taken : List TransactionDescriptor} {last : Index}
    (submits : Submits c around request appended submission) (marked : mark.accepted.seq ≤ c.state.accepted.seq)
    (noted : Noted (mark.Tells late) base files begun taken last c.state.accepted) :
    submission.published.headSeq = mark.accepted.seq → submission.published.headVlogEnd = mark.accepted.vlogEnd := by
  intro here
  rcases submits.heads with further | same
  · simp only [CommitState.accepted] at marked
    omega
  · have seq := congrArg Accepted.seq same
    have ends := congrArg Accepted.vlogEnd same
    simp only [CommitState.accepted] at seq ends
    rw [ends]
    exact noted.place (seq.symm.trans here)

-- A batch adds its transaction to the history.
theorem Grounded.lengthens {begun : Accepted} {chain : List (EncodedDescriptor × TransactionDescriptor)}
    (grounded : Grounded c) (healthy : c.runtime.state.instanceState = .healthy)
    (serves : Serves c.log.storage.vlog c.log.storage.index (base.execute written))
    (submits : Submits c around request appended submission)
    (more : ∀ accepted written, tells accepted written → fuller accepted written)
    (told : fuller submission.published.accepted (written ++ request.operations))
    (journal : Journal (Noted tells base c.log.storage.vlog begun) c.log.storage.index begun chain c.state.accepted) :
    ∃ longer, Journal (Noted fuller base appended.storage.vlog begun) (c.log.storage.index.apply submission.batch) begun
      longer submission.published.accepted := by
  have grown := (grounded.submits healthy submits).1.grown
  have journal := journal.mono (fun _ _ _ old => old.onward grown more)
  obtain ⟨last,-,old⟩ := journal.ends
  cases submits with
  | @nonempty write prepared batch _ ran framed laid =>
    obtain ⟨descriptor,prepares⟩ := CommitCoordinator.prepare_ok ran
    have user := addFrontier_user framed c.log.storage.index
    have accepts : ∀ crc, AcceptsAll appended.storage.vlog begun (chain.map Prod.snd ++ [descriptor.sealed crc]) := by
      intro crc
      refine AcceptsAll.append.mpr ⟨old.accepts,?_,trivial⟩
      rw [←journal.accepted]
      exact grounded.acceptable healthy ran laid prepares crc
    have arrives : (c.state.submission write prepared batch).published.accepted = c.state.accepted.take descriptor :=
      CommitState.submission_accepted ran prepares
    rw [arrives]
    obtain ⟨encoded,crc,longer⟩ := journal.committed prepares (by
      intro other crc same
      rw [←arrives]
      exact grounded.noted healthy serves (.nonempty ran framed laid) (accepts crc) told (same.trans user.symm))
    refine ⟨_,longer.cleaned user (fun _ key _ => ?_)⟩
    simp only [CommitState.submission]
    unfold addFrontier at framed
    split at framed
    · obtain ⟨-,bytes,-,rfl⟩ := addFrontierToBatch_ok.mp framed
      rw [Index.apply_append]
      rfl
    · obtain rfl := Except.ok.inj framed
      rfl
  | barrier _ made =>
    obtain ⟨-,-,bytes,-,rfl⟩ := frontierOnlyBatch_ok.mp made
    exact ⟨chain,journal.cleaned rfl (fun _ _ _ => rfl)⟩

-- A stored frontier is a point at which the history begins anew.
theorem Grounded.journals {chain : List (EncodedDescriptor × TransactionDescriptor)}
    (grounded : Grounded c) (healthy : c.runtime.state.instanceState = .healthy)
    (serves : Serves c.log.storage.vlog c.log.storage.index (base.execute written))
    (submits : Submits c around request appended submission)
    (more : ∀ accepted written, tells accepted written → fuller accepted written)
    (told : fuller submission.published.accepted (written ++ request.operations))
    (journal : Journal (Noted tells base c.log.storage.vlog (.start c.state.durableFrontier)) c.log.storage.index
      (.start c.state.durableFrontier) chain c.state.accepted) :
    ∃ later, Journal (Noted fuller base appended.storage.vlog (.start submission.published.durableFrontier))
      (c.log.storage.index.apply submission.batch) (.start submission.published.durableFrontier) later
      submission.published.accepted := by
  have furthers := (grounded.sound.accounted healthy).furthers grounded.sound.books grounded.sound.ready submits
  obtain ⟨longer,journal⟩ := grounded.lengthens healthy serves submits more told journal
  rcases furthers.frontier with ⟨-,-,same,-⟩ | ⟨-,same⟩
  · rw [same]
    exact ⟨longer,journal⟩
  · have begun : Accepted.start submission.published.durableFrontier = submission.published.accepted := by
      obtain ⟨head,ends⟩ := furthers.head
      rw [same,←head,←ends]
      rfl
    rw [begun]
    exact ⟨[],journal.restart (grounded.noted healthy serves submits (trivial : AcceptsAll _ _ []) told rfl)⟩

theorem Chronicled.submitted {answered : Bool} (kept : Chronicled tells base c frontier chain head) (grounded : Grounded c)
    (healthy : c.runtime.state.instanceState = .healthy)
    (serves : Serves c.log.storage.vlog c.log.storage.index (base.execute written))
    (submits : Submits c around request appended submission) (published : Published appended submission answered c next)
    (more : ∀ accepted written, tells accepted written → fuller accepted written)
    (told : fuller submission.published.accepted (written ++ request.operations)) :
    ∃ later, Chronicled fuller base next submission.published.durableFrontier later submission.published.accepted := by
  obtain ⟨journal,stored,-,-,here⟩ := kept
  obtain ⟨rfl,rfl⟩ := here healthy
  have furthers := (grounded.sound.accounted healthy).furthers grounded.sound.books grounded.sound.ready submits
  obtain ⟨later,further⟩ := grounded.journals healthy serves submits more told journal
  obtain ⟨index,vlog,held,still⟩ := published
  refine ⟨later,?_,?_,furthers.bound,held,?_⟩
  · rw [vlog,index]
    exact further
  · rw [index]
    exact submits.stores stored
  · intro after
    rw [(still after).2.1]
    exact ⟨rfl,rfl⟩

theorem Journaled.submitted {answered : Bool} (grounded : Grounded c) (healthy : c.runtime.state.instanceState = .healthy)
    (journaled : Journaled databaseUuid mark late c) (submits : Submits c around request appended submission)
    (published : Published appended submission answered c next) :
    Journaled databaseUuid mark (late ++ [⟨request.operations,answered⟩]) next := by
  obtain ⟨named,⟨frontier,chain,head,kept,marked⟩,identity,idle,inspectable,packed,serves⟩ := journaled
  obtain ⟨rfl,rfl⟩ := kept.here healthy
  have grown := (grounded.submits healthy submits).1.grown
  have writer : c.log.writer.databaseUuid = databaseUuid := grounded.identity.symm.trans named
  subst writer
  have whole := submits.packs grounded (packed healthy)
  obtain ⟨last,-,old⟩ := kept.journal.ends
  obtain ⟨later,further⟩ := kept.submitted grounded healthy (serves healthy) submits published
    (fun _ _ tells => tells.more [⟨request.operations,answered⟩]) (mark.tells answered (submits.place marked old))
  obtain ⟨index,vlog,-,still⟩ := published
  refine ⟨?_,⟨submission.published.durableFrontier,later,submission.published.accepted,further,submits.marked marked⟩,
    ?_,?_,?_,?_,?_⟩
  · rw [vlog]
    exact grown.identity.trans named
  · rw [index,submits.system _ (by decide) (by decide)]
    exact identity
  · rw [index,submits.system _ (by decide) (by decide)]
    exact idle
  · rw [vlog]
    exact whole.inspectable
  · intro after
    rw [vlog,(still after).2.2]
    exact whole
  · intro after
    obtain ⟨rfl,-⟩ := still after
    rw [vlog,index,←List.append_assoc,answeredOperations_concat,if_pos rfl,UserMap.execute_append]
    exact submits.serves grounded healthy (serves healthy)

theorem RequestOutcome.shelters (grounded : Grounded c) (outcome : RequestOutcome c request around next ended) :
    Shelters c.log.storage next.log.storage := by
  cases outcome with
  | notAdmitted _ same => exact same ▸ .refl _
  | nothing _ _ _ same => exact same ▸ .refl _
  | notPrepared _ _ refused =>
    rw [refused.log]
    exact .refl _
  | notAppended _ _ _ _ _ failed refused =>
    obtain ⟨⟨flag,frame⟩,-⟩ := failed.frame
    rw [refused.log]
    exact frame.shelters
  | notSynced _ submits _ failed refused =>
    rw [refused.log]
    exact submits.shelters.trans (failed.storage.shelters (submits.books grounded.sound.books))
  | notIndexed _ _ submits reached answered settled refused =>
    rw [refused.log]
    simp only [settled.storage]
    exact (submits.shelters.trans (reached.shelters (submits.books grounded.sound.books))).trans answered.moved.shelters
  | indexed _ submits reached answered same _ =>
    subst same
    exact (submits.shelters.trans (reached.shelters (submits.books grounded.sound.books))).trans answered.moved.shelters

-- A request that failed without the index taking anything of it leaves the instance where it was, but for its files.
theorem RequestOutcome.idles {halt : Halt} (grounded : Grounded c) (journaled : Journaled databaseUuid mark late c)
    (outcome : RequestOutcome c request around next (some halt)) (kept : next.log.storage.index = c.log.storage.index) :
    Idled c next ∧ Inspectable (currentFormat databaseUuid) next.log.storage.vlog.files := by
  have grown := outcome.grows grounded
  have shelters := outcome.shelters grounded
  have writer : c.log.writer.databaseUuid = databaseUuid := grounded.identity.symm.trans journaled.named
  subst writer
  cases outcome with
  | notAdmitted _ same =>
    subst same
    exact ⟨⟨rfl,.refl _,.refl _,fun healthy => ⟨healthy,rfl,rfl,rfl⟩⟩,journaled.inspectable⟩
  | notPrepared _ _ refused =>
    have log : next.log = c.log := refused.log
    refine ⟨⟨kept,grown,shelters,fun healthy => ?_⟩,by rw [log]; exact journaled.inspectable⟩
    exact ⟨(Declined.stays refused healthy).1,refused.state,by rw [log],by rw [log]⟩
  | @notAppended write prepared envelope log error halt admits _ ran present calls failed refused =>
    have same : next.log = log := refused.log
    refine ⟨⟨kept,grown,shelters,fun healthy => ?_⟩,?_⟩
    · obtain ⟨before,asked⟩ := refused.stays healthy
      rw [same]
      have lasting := classifyVlogAppendFailure_healthy (failureState_healthy asked)
      rcases failed.outcome with ⟨vlog,writer⟩ | ⟨stopped,-⟩
      · exact ⟨before,refused.state,writer,vlog⟩
      · rw [lasting] at stopped
        cases stopped
    · rw [same]
      exact grounded.inspectable ran present calls (journaled.packed admits.healthy)
  | @notSynced appended log submission error halt admits submits _ failed refused =>
    have same : next.log = log := refused.log
    refine ⟨⟨kept,grown,shelters,fun healthy => (by cases (refused.stays healthy).2)⟩,?_⟩
    rw [same,failed.storage.vlog]
    exact (submits.packs grounded (journaled.packed admits.healthy)).inspectable
  | @notIndexed identity appended synced log submission token error storage halt admits submits reached answered settled
      refused =>
    have same : next.log.storage = storage := by rw [refused.log]; exact settled.storage
    refine ⟨⟨kept,grown,shelters,fun healthy => ?_⟩,?_⟩
    · exact absurd (failureState_healthy (refused.stays healthy).2) (indexFailure_stops request error identity)
    · rw [same,answered.moved.vlog,show synced.storage.vlog = appended.storage.vlog from reached.vlog]
      exact (submits.packs grounded (journaled.packed admits.healthy)).inspectable

-- Once the index has the batch of a request, everything in front of the frontier that it promises is durable.
theorem Journaled.promises {synced : ValueLog} {token : Option FrontierSync} {storage : Storage}
    (journaled : Journaled databaseUuid mark late c) (grounded : Grounded c)
    (healthy : c.runtime.state.instanceState = .healthy) (submits : Submits c around request appended submission)
    (reached : TargetSynced appended submission.targetSeq submission.targetEnd submission.needed token synced)
    (moved : IndexMoved synced.storage storage) :
    storage.vlog = appended.storage.vlog ∧ Secured storage submission.published.durableFrontier.durableVlogEnd := by
  have writer : c.log.writer.databaseUuid = databaseUuid := grounded.identity.symm.trans journaled.named
  subst writer
  obtain ⟨frontier,chain,head,kept,-⟩ := journaled.journal
  obtain ⟨rfl,-⟩ := kept.here healthy
  have packed := submits.packs grounded (journaled.packed healthy)
  exact ⟨moved.vlog.trans reached.vlog,
    (grounded.secures healthy submits packed reached kept.secured).sheltered moved.shelters⟩

-- Whatever a request comes to, the index is a history that the files bear out.
theorem RequestOutcome.journaled (grounded : Grounded c) (journaled : Journaled databaseUuid mark late c)
    (outcome : RequestOutcome c request around next ended) :
    Journaled databaseUuid mark (late ++ [⟨request.operations,ended.isNone⟩]) next := by
  cases ended with
  | some halt =>
    by_cases kept : next.log.storage.index = c.log.storage.index
    · obtain ⟨idled,inspectable⟩ := outcome.idles grounded journaled kept
      exact journaled.idles idled inspectable rfl
    · obtain ⟨appended,synced,submission,token,storage,admits,submits,reached,moved,same,applied,-,stopped⟩ :=
        outcome.applied kept
      obtain ⟨vlog,secured⟩ := journaled.promises grounded admits.healthy submits reached moved
      rw [←same] at vlog secured applied
      exact journaled.submitted grounded admits.healthy submits ⟨applied,vlog,secured,
        fun healthy => (by rw [stopped] at healthy; cases healthy)⟩
  | none =>
    cases outcome with
    | nothing _ asked _ same =>
      subst same
      refine journaled.idles ⟨rfl,.refl _,.refl _,fun healthy => ⟨healthy,rfl,rfl,rfl⟩⟩ journaled.inspectable ?_
      rw [asked]
      rfl
    | @indexed appended synced submission token storage stats admits submits reached answered same books =>
      subst same
      obtain ⟨vlog,secured⟩ := journaled.promises grounded admits.healthy submits reached answered.moved
      refine journaled.submitted grounded admits.healthy submits ⟨?_,vlog,secured,?_⟩
      · cases answered with
        | applied script =>
          rw [←submits.index,←reached.index]
          rfl
      · intro _
        cases token with
        | none => exact ⟨rfl,rfl,rfl⟩
        | some token => exact ⟨rfl,rfl,rfl⟩

-- The cleanup takes descriptors of transactions that are durable, so none of the history.
theorem Chronicled.cleaned {storage : Storage} (kept : Chronicled tells base c frontier chain head)
    (clean : Cleaned c.log.storage storage) :
    Chronicled tells base {c with log := {c.log with storage}} frontier chain head := by
  have found := kept.frontierStored
  obtain ⟨journal,stored,bound,secured,here⟩ := kept
  have vlog := clean.moved.vlog
  refine ⟨?_,⟨?_,?_⟩,bound,secured.sheltered clean.moved.shelters,here⟩
  · simp only [vlog]
    refine journal.cleaned clean.user (fun room key above => ?_)
    rcases clean.transaction key with same | stable
    · exact same
    · exact absurd (stable frontier found room) above
  · simp only [clean.system]
    exact stored.head
  · simp only [clean.system]
    exact stored.frontier

theorem Journaled.cleaned {storage : Storage} (journaled : Journaled databaseUuid mark late c)
    (clean : Cleaned c.log.storage storage) :
    Journaled databaseUuid mark late {c with log := {c.log with storage}} := by
  obtain ⟨named,⟨frontier,chain,head,kept,marked⟩,identity,idle,inspectable,packed,serves⟩ := journaled
  have system := clean.system
  have vlog := clean.moved.vlog
  refine ⟨by simp only [vlog]; exact named,⟨frontier,chain,head,kept.cleaned clean,marked⟩,
    by simp only [system]; exact identity,by simp only [system]; exact idle,by simp only [vlog]; exact inspectable,
    fun healthy => by simp only [vlog]; exact packed healthy,fun healthy => ?_⟩
  simp only [vlog]
  exact (serves healthy).same clean.user

-- At every moment of an instance.
theorem Journaled.run (grounded : Grounded start) (journaled : Journaled databaseUuid mark late start)
    (run : LiveRun start more c) : Grounded c ∧ Journaled databaseUuid mark (late ++ more) c := by
  induction run with
  | start => exact ⟨grounded,by rw [List.append_nil]; exact journaled⟩
  | answered _ ran ih =>
    obtain ⟨grounded,journaled⟩ := ih
    have outcome := (commit_outcome grounded.sound.books grounded.sound.identified grounded.sound.ordered _ _).of_ok ran
    rw [←List.append_assoc]
    exact ⟨grounded.outcome outcome,outcome.journaled grounded journaled⟩
  | failed _ ran ih =>
    obtain ⟨grounded,journaled⟩ := ih
    have outcome := (commit_outcome grounded.sound.books grounded.sound.identified grounded.sound.ordered _ _).of_error ran
    rw [←List.append_assoc]
    exact ⟨grounded.outcome outcome,outcome.journaled grounded journaled⟩
  | @elsewhere asked c runtime _ later ih =>
    obtain ⟨grounded,journaled⟩ := ih
    have idled : Idled c {c with runtime} := by
      refine ⟨rfl,.refl _,.refl _,?_⟩
      intro healthy
      exact ⟨later.healthy healthy,rfl,rfl,rfl⟩
    have kept := journaled.idles idled journaled.inspectable (rfl : answeredOperations [] = [])
    rw [List.append_nil] at kept
    exact ⟨(grounded.step (.elsewhere later)).1,kept⟩
  | cleaned _ clean ih =>
    obtain ⟨grounded,journaled⟩ := ih
    exact ⟨(grounded.step (.cleaned clean.moved clean.user clean.system)).1,journaled.cleaned clean⟩
  | facing script _ ih =>
    obtain ⟨grounded,journaled⟩ := ih
    have kept := journaled.idles (facing_idled script) journaled.inspectable (rfl : answeredOperations [] = [])
    rw [List.append_nil] at kept
    exact ⟨(grounded.step (.cleaned (facing_moved _ script) rfl rfl)).1,kept⟩

theorem LiveRun.shelters (grounded : Grounded start) (run : LiveRun start more c) :
    Shelters start.log.storage c.log.storage := by
  induction run with
  | start => exact .refl _
  | answered earlier ran ih =>
    have before := (grounded.run earlier.instanceRun).1
    have outcome := (commit_outcome before.sound.books before.sound.identified before.sound.ordered _ _).of_ok ran
    exact ih.trans (outcome.shelters before)
  | failed earlier ran ih =>
    have before := (grounded.run earlier.instanceRun).1
    have outcome := (commit_outcome before.sound.books before.sound.identified before.sound.ordered _ _).of_error ran
    exact ih.trans (outcome.shelters before)
  | elsewhere _ _ ih => exact ih
  | cleaned _ clean ih => exact ih.trans clean.moved.shelters
  | facing script _ ih => exact ih.trans (facing_moved _ script).shelters

-- Any moment at which nothing is in doubt can be marked.
theorem Journaled.remarked (journaled : Journaled databaseUuid mark late c) (grounded : Grounded c)
    (healthy : c.runtime.state.instanceState = .healthy) :
    Journaled databaseUuid ⟨mark.base,mark.early ++ late,c.state.accepted⟩ [] c := by
  obtain ⟨named,⟨frontier,chain,head,⟨journal,stored,bound,secured,here⟩,marked⟩,identity,idle,inspectable,packed,serves⟩ :=
    journaled
  obtain ⟨rfl,rfl⟩ := here healthy
  refine ⟨named,⟨_,chain,_,⟨journal.renoted ?_ ?_,stored,bound,secured,fun _ => ⟨rfl,rfl⟩⟩,Nat.le_refl _⟩,identity,idle,
    inspectable,packed,fun _ => ?_⟩
  · intro taken index accepted before noted
    obtain ⟨there,written,since,ends,boundary,accepts,tells,stood⟩ := noted
    refine ⟨there,written,since,ends,boundary,accepts,⟨?_,fun same => ?_,fun behind => ?_⟩,stood⟩
    · rw [List.append_nil]
      exact tells.explains
    · exact absurd same (Nat.ne_of_lt before)
    · exact absurd before (Nat.not_lt.mpr behind)
  · intro last user noted
    obtain ⟨ends,boundary⟩ := grounded.footed healthy
    rw [(grounded.sound.accounted healthy).aligned.position] at ends
    refine ⟨_,_,.refl _,ends,boundary,noted.accepts,⟨?_,fun _ => rfl,fun _ => ⟨[],(List.append_nil _).symm,.nothing []⟩⟩,
      (serves healthy).same user⟩
    rw [List.append_nil]
    exact ⟨_,List.prefix_rfl,.inl rfl⟩
  · rw [List.append_nil]
    exact serves healthy

end journaled

end ExpirKv
