import ExpirKv.Lifecycle.Lineage
import ExpirKv.Vlog.Renumbering

namespace ExpirKv
open VLogGeometry Storage CommitCoordinator

-- A request that only deletes, a barrier among them.
def WriteRequest.Deletes (request : WriteRequest) : Prop := ∀ operation ∈ request.operations, operation.isPut = false

theorem WriteRequest.Deletes.kind {write : ValidatedWrite} (deletes : (WriteRequest.nonempty write).Deletes) :
    write.transactionKind = .indexOnlyDelete := by
  refine if_neg fun put => ?_
  obtain ⟨operation,member,isPut⟩ := List.any_eq_true.mp put
  rw [deletes operation member] at isPut
  cases isPut

def Event.Indexes (event : Event) : Prop := ∃ batch mode, event = .submitted batch mode ∨ event = .applied batch mode

def Event.Syncs (event : Event) : Prop := event = .syncedDirectory ∨ ∃ fileId len, event = .syncedFile fileId len

section sparing
variable [Crc32c] {c next : CommitCoordinator} {request : WriteRequest} {around : Surroundings} {appended : ValueLog}
  {submission : Submission} {ended : Option Halt}

-- A sync is asked for and an envelope is not durable yet.
def CommitCoordinator.Due (c : CommitCoordinator) (request : WriteRequest) : Prop :=
  request.sync = true ∧ c.state.headVlogSeq > c.state.durableFrontier.durableVlogSeq

-- What a request leaves alone: nothing is planned, no append, no new file and no other move of the writer, and no sync
-- that is not due.
structure Spares (c : CommitCoordinator) (request : WriteRequest) (next : CommitCoordinator) : Prop where
  unplanned : ∀ write, request = .nonempty write → coordinatorContext write c.log.writer = none
  vlog : next.log.storage.vlog = c.log.storage.vlog
  head : next.state.headVlogSeq = c.state.headVlogSeq ∧ next.state.headVlogEnd = c.state.headVlogEnd
  frontier : next.state.durableFrontier = c.state.durableFrontier ∨
    next.state.durableFrontier = ⟨next.state.headSeq,c.state.headVlogSeq,c.state.headVlogEnd⟩
  position : next.log.writer.position = c.log.writer.position
  tail : next.log.writer.lastAppended = c.log.writer.lastAppended
  writer : ¬c.Due request → next.log.writer = c.log.writer
  calls : ∃ events, next.log.storage.trace = events ++ c.log.storage.trace ∧
    ∀ event ∈ events, event.Indexes ∨ c.Due request ∧ event.Syncs

omit [Crc32c] in
theorem WriteRequest.Deletes.unplanned (deletes : request.Deletes) {write : ValidatedWrite}
    (asked : request = .nonempty write) : coordinatorContext write c.log.writer = none := by
  subst asked
  simp only [coordinatorContext,deletes.kind]

omit [Crc32c] in
theorem Spares.refl (deletes : request.Deletes) : Spares c request c :=
  ⟨fun _ asked => deletes.unplanned asked,rfl,⟨rfl,rfl⟩,.inl rfl,rfl,rfl,fun _ => rfl,[],rfl,by simp⟩

omit [Crc32c] in
theorem Declined.spares {target : InstanceState} {error : StorageError} {halt : Halt} (deletes : request.Deletes)
    (refused : Declined c next target error halt) : Spares c request next := by
  obtain ⟨log,state,-⟩ := refused
  obtain ⟨runtime,_,_⟩ := next
  subst log state
  exact ⟨fun _ asked => deletes.unplanned asked,rfl,⟨rfl,rfl⟩,.inl rfl,rfl,rfl,fun _ => rfl,[],rfl,by simp⟩

-- A request that only deletes prepares no envelope.
theorem Submits.spared (deletes : request.Deletes) (submits : Submits c around request appended submission) :
    appended = c.log ∧ (submission.needed = true ↔ c.Due request) ∧
      (submission.published.headVlogSeq = c.state.headVlogSeq ∧ submission.published.headVlogEnd = c.state.headVlogEnd) ∧
      (submission.published.durableFrontier = c.state.durableFrontier ∨ submission.published.durableFrontier =
        ⟨submission.published.headSeq,c.state.headVlogSeq,c.state.headVlogEnd⟩) := by
  cases submits with
  | @nonempty write prepared batch _ ran _ written =>
    have kind := deletes.kind
    have bare : prepared.envelope = none := by
      cases envelope : prepared.envelope with
      | none => rfl
      | some _ =>
        have other := CommitCoordinator.prepare_guard ran envelope
        rw [kind] at other
        cases other
    rw [bare] at written
    cases written with
    | none =>
      refine ⟨rfl,?_,?_,?_⟩
      · simp [CommitState.submission,vlogTarget,bare,CommitCoordinator.Due,WriteRequest.sync]
      · simp [CommitState.submission,committedState,kind]
      · cases asked : write.sync with
        | false => simp [CommitState.submission,CommitState.frontierOf,asked]
        | true => simp [CommitState.submission,CommitState.frontierOf,asked,vlogTarget,bare]
  | barrier _ _ =>
    refine ⟨rfl,?_,⟨rfl,rfl⟩,.inr ?_⟩
    · simp [CommitState.barrierSubmission,CommitCoordinator.Due,WriteRequest.sync]
    · simp [CommitState.barrierSubmission,CommitState.barrier]

-- The calls of a sync that is due, and of the index behind it.
omit [Crc32c] in
theorem Synced.calls {before after : Storage} {due : Prop} (synced : Synced before after) (asked : due) :
    ∃ events, after.trace = events ++ before.trace ∧ ∀ event ∈ events, event.Indexes ∨ due ∧ event.Syncs := by
  obtain ⟨events,trace,only⟩ := synced.trace
  refine ⟨events,trace,fun event member => .inr ⟨asked,?_⟩⟩
  rcases only event member with same | ⟨fileId,same⟩
  · exact .inl same
  · exact .inr ⟨fileId,_,same⟩

omit [Crc32c] in
theorem TargetSynced.calls {synced : ValueLog} {targetSeq : Nat} {targetEnd : Option VLogPosition} {needed : Bool}
    {token : Option FrontierSync} {storage : Storage} {due : Prop}
    (reached : TargetSynced appended targetSeq targetEnd needed token synced) (asked : needed = true → due)
    (moved : IndexMoved synced.storage storage) : ∃ events, storage.trace = events ++ appended.storage.trace ∧
      ∀ event ∈ events, event.Indexes ∨ due ∧ event.Syncs := by
  obtain ⟨late,trace,only⟩ := moved.trace
  cases reached with
  | needless => exact ⟨late,trace,fun event member => .inl (only event member)⟩
  | through through =>
    obtain ⟨early,before,synced⟩ := through.storage.calls (asked rfl)
    refine ⟨late ++ early,by rw [trace,before,List.append_assoc],fun event member => ?_⟩
    rcases List.mem_append.mp member with last | first
    · exact .inl (only event last)
    · exact synced event first

omit [Crc32c] in
theorem TargetSynced.still {synced : ValueLog} {targetSeq : Nat} {targetEnd : Option VLogPosition} {needed : Bool}
    {token : Option FrontierSync} (reached : TargetSynced appended targetSeq targetEnd needed token synced) :
    synced.writer.position = appended.writer.position ∧ synced.writer.lastAppended = appended.writer.lastAppended ∧
      (needed = false → synced.writer = appended.writer ∧ token = none) := by
  cases reached with
  | needless => exact ⟨rfl,rfl,fun _ => ⟨rfl,rfl⟩⟩
  | through through =>
    rw [through.writer]
    exact ⟨rfl,rfl,fun no => by cases no⟩

theorem RequestOutcome.spares (deletes : request.Deletes) (outcome : RequestOutcome c request around next ended) :
    Spares c request next := by
  cases outcome with
  | notAdmitted _ same => exact same ▸ .refl deletes
  | nothing _ _ _ same => exact same ▸ .refl deletes
  | notPrepared _ _ refused => exact refused.spares deletes
  | notAppended _ asked ran written _ _ _ =>
    subst asked
    have kind := CommitCoordinator.prepare_guard ran written
    rw [deletes.kind] at kind
    cases kind
  | notSynced _ submits needed failed refused =>
    obtain ⟨rfl,due,-⟩ := submits.spared deletes
    have asked := due.mp needed
    obtain ⟨log,state,-⟩ := refused
    refine ⟨fun _ same => deletes.unplanned same,by rw [log]; exact failed.storage.vlog,by rw [state]; exact ⟨rfl,rfl⟩,
      .inl (by rw [state]),?_,?_,fun spare => absurd asked spare,?_⟩
    · rw [log]
      rcases failed.writer with ⟨same,-⟩ | same
      · rw [same]
      · rw [same]
        rfl
    · rw [log]
      rcases failed.writer with ⟨same,-⟩ | same
      · rw [same]
      · rw [same]
        rfl
    · rw [log]
      exact failed.storage.calls asked
  | notIndexed _ _ submits reached answered settled refused =>
    obtain ⟨rfl,due,-⟩ := submits.spared deletes
    obtain ⟨log,state,-⟩ := refused
    obtain ⟨position,tail,still⟩ := reached.still
    refine ⟨fun _ same => deletes.unplanned same,?_,by rw [state]; exact ⟨rfl,rfl⟩,.inl (by rw [state]),?_,?_,
      fun spare => ?_,?_⟩
    · rw [log,settled.storage]
      exact answered.moved.vlog.trans reached.vlog
    · rw [log]
      rcases settled.writer with ⟨same,-⟩ | same
      · rw [same]
        exact position
      · rw [same]
        exact position
    · rw [log]
      rcases settled.writer with ⟨same,-⟩ | same
      · rw [same]
        exact tail
      · rw [same]
        exact tail
    · obtain ⟨same,none⟩ := still (Bool.eq_false_iff.mpr fun needed => spare (due.mp needed))
      rw [log]
      exact (settled.untouched none).trans same
    · rw [log,settled.storage]
      exact reached.calls due.mp answered.moved
  | @indexed appended synced submission token storage stats _ submits reached answered same _ =>
    obtain ⟨rfl,due,head,frontier⟩ := submits.spared deletes
    obtain ⟨-,-,still⟩ := reached.still
    subst same
    refine ⟨fun _ same => deletes.unplanned same,answered.moved.vlog.trans reached.vlog,head,frontier,?_,?_,
      fun spare => ?_,reached.calls due.mp answered.moved⟩
    · cases token <;> rfl
    · cases token <;> rfl
    · obtain ⟨-,rfl⟩ := still (Bool.eq_false_iff.mpr fun needed => spare (due.mp needed))
      rfl

end sparing

section deleting
variable [Crc32c] {c next start opened indexed filed : CommitCoordinator} {request : WriteRequest} {around : Surroundings}
  {ended : Option Halt} {before known held : List Transaction} {confirmed acknowledged : Nat} {databaseUuid : Uuid}
  {image final : Storage} {inventory : ManagedInventory} {appended : ValueLog} {submission : Submission}

-- The life of an instance that is asked for nothing but deletes and barriers.
inductive DeleteRun (start : CommitCoordinator) (before : List Transaction) (confirmed : Nat) :
    List Transaction → Nat → CommitCoordinator → Prop
  | start : DeleteRun start before confirmed before confirmed start
  | answered {known : List Transaction} {acknowledged : Nat} {c next : CommitCoordinator} {request : WriteRequest}
      {around : Surroundings} : DeleteRun start before confirmed known acknowledged c → request.Deletes →
      commit request around c = .ok () next →
      DeleteRun start before confirmed (known ++ newlyTaken request c.log.storage.trace next.log.storage.trace)
        (if request.sync = true then max acknowledged next.state.headSeq else acknowledged) next
  | failed {known : List Transaction} {acknowledged : Nat} {c next : CommitCoordinator} {request : WriteRequest}
      {around : Surroundings} {halt : Halt} : DeleteRun start before confirmed known acknowledged c → request.Deletes →
      commit request around c = .error halt next →
      DeleteRun start before confirmed (known ++ newlyTaken request c.log.storage.trace next.log.storage.trace)
        acknowledged next
  | elsewhere {known : List Transaction} {acknowledged : Nat} {c : CommitCoordinator} {runtime : RuntimeControl} :
      DeleteRun start before confirmed known acknowledged c → c.runtime.Later runtime →
      DeleteRun start before confirmed known acknowledged {c with runtime}
  | cleaned {known : List Transaction} {acknowledged : Nat} {c : CommitCoordinator} {storage : Storage} :
      DeleteRun start before confirmed known acknowledged c → Cleaned c.log.storage storage →
      DeleteRun start before confirmed known acknowledged {c with log := {c.log with storage}}
  | facing {known : List Transaction} {acknowledged : Nat} {c : CommitCoordinator} (script : List Answer) :
      DeleteRun start before confirmed known acknowledged c →
      DeleteRun start before confirmed known acknowledged (c.facing script)

theorem DeleteRun.recorded (run : DeleteRun start before confirmed known acknowledged c) :
    RecordedRun start before confirmed known acknowledged c := by
  induction run with
  | start => exact .start
  | answered _ _ ran ih => exact ih.answered ran
  | failed _ _ ran ih => exact ih.failed ran
  | elsewhere _ later ih => exact ih.elsewhere later
  | cleaned _ clean ih => exact ih.cleaned clean
  | facing script _ ih => exact ih.facing script

-- An instance without a log: no file, and every end of it empty.
structure Unlogged (c : CommitCoordinator) : Prop where
  files : ∀ fileId : Nat, c.log.storage.vlog.files[fileId]? = none
  position : c.log.writer.position = ⟨0,0⟩
  head : c.state.headVlogSeq = 0 ∧ c.state.headVlogEnd = none
  durable : c.state.durableFrontier.durableVlogSeq = 0 ∧ c.state.durableFrontier.durableVlogEnd = none

omit [Crc32c] in
theorem Spares.unlogged (spares : Spares c request next) (unlogged : Unlogged c) : Unlogged next := by
  obtain ⟨files,position,⟨seq,stop⟩,durable⟩ := unlogged
  refine ⟨fun fileId => by rw [spares.vlog]; exact files fileId,spares.position.trans position,
    ⟨spares.head.1.trans seq,spares.head.2.trans stop⟩,?_⟩
  rcases spares.frontier with same | same
  · rw [same]
    exact durable
  · rw [same]
    exact ⟨seq,stop⟩

-- Transactions without an envelope.
def Bare (known : List Transaction) : Prop :=
  ∀ transaction ∈ known, transaction.txMeta.transactionKind = .indexOnlyDelete

theorem RequestOutcome.bare (deletes : request.Deletes) (outcome : RequestOutcome c request around next ended) :
    Bare (newlyTaken request c.log.storage.trace next.log.storage.trace) := by
  rcases outcome.took with ⟨-,same,-⟩ | ⟨_,_,_,_,_,-,submits,-,-,-,taken,-⟩
  · rw [newlyTaken,same,List.drop_length]
    exact fun _ none => by cases none
  · rw [newlyTaken,taken,List.drop_left]
    rintro transaction member
    obtain ⟨txMeta,there,rfl⟩ := List.mem_map.mp member
    rcases submits.single with ⟨none,-⟩ | ⟨write,only,rfl,single,kind⟩
    · rw [none] at there
      cases there
    · rw [single] at there
      rw [List.mem_singleton.mp there,kind]
      exact deletes.kind

theorem DeleteRun.keeps (grounded : Grounded start) (bare : Bare before) (unlogged : Unlogged start)
    (run : DeleteRun start before confirmed known acknowledged c) : Bare known ∧ Unlogged c := by
  have reached : ∀ {known acknowledged c}, DeleteRun start before confirmed known acknowledged c → Grounded c := by
    intro known acknowledged c run
    obtain ⟨past,lives⟩ := run.recorded.lives
    exact (grounded.run lives.instanceRun).1
  induction run with
  | start => exact ⟨bare,unlogged⟩
  | answered earlier deletes ran ih =>
    have before := reached earlier
    have outcome := (commit_outcome before.sound.books before.sound.identified before.sound.ordered _ _).of_ok ran
    exact ⟨List.forall_mem_append.mpr ⟨ih.1,outcome.bare deletes⟩,(outcome.spares deletes).unlogged ih.2⟩
  | failed earlier deletes ran ih =>
    have before := reached earlier
    have outcome := (commit_outcome before.sound.books before.sound.identified before.sound.ordered _ _).of_error ran
    exact ⟨List.forall_mem_append.mpr ⟨ih.1,outcome.bare deletes⟩,(outcome.spares deletes).unlogged ih.2⟩
  | elsewhere _ _ ih => exact ⟨ih.1,ih.2.files,ih.2.position,ih.2.head,ih.2.durable⟩
  | cleaned _ clean ih =>
    exact ⟨ih.1,fun fileId => by rw [clean.moved.vlog]; exact ih.2.files fileId,ih.2.position,ih.2.head,ih.2.durable⟩
  | facing _ _ ih => exact ⟨ih.1,ih.2.files,ih.2.position,ih.2.head,ih.2.durable⟩

omit [Crc32c] in
theorem Arrives.bare {transactions : List TxMeta} {accepted : Accepted} (arrives : Arrives transactions accepted)
    (bare : ∀ txMeta ∈ transactions, txMeta.transactionKind = .indexOnlyDelete) :
    accepted.vlogSeq = 0 ∧ accepted.vlogEnd = none := by
  induction arrives with
  | nothing => exact ⟨rfl,rfl⟩
  | delete _ _ _ ih => exact ih fun txMeta member => bare txMeta (List.mem_append_left _ member)
  | @envelope _ _ txMeta _ kind _ _ _ _ =>
    rw [bare txMeta (List.mem_append_right _ (List.mem_singleton_self _))] at kind
    cases kind

omit [Crc32c] in
theorem Knows.bare {accepted : Accepted} {written : List LogicalOperation} (knows : Knows known accepted written)
    (bare : Bare known) : accepted.vlogSeq = 0 ∧ accepted.vlogEnd = none :=
  knows.arrives.bare (List.forall_mem_map.mpr fun transaction member => bare transaction (List.mem_of_mem_take member))

-- Whatever is stored or published of a history without envelopes names none.
theorem Remembered.bare (remembered : Remembered known acknowledged c) (bare : Bare known) :
    (∀ frontier, FrontierStored c.log.storage.index frontier →
      frontier.durableVlogSeq = 0 ∧ frontier.durableVlogEnd = none) ∧
    (c.runtime.state.instanceState = .healthy → (c.state.headVlogSeq = 0 ∧ c.state.headVlogEnd = none) ∧
      c.state.durableFrontier.durableVlogSeq = 0 ∧ c.state.durableFrontier.durableVlogEnd = none) := by
  obtain ⟨frontier,chain,head,kept,whole,-⟩ := remembered.kept
  have named : frontier.durableVlogSeq = 0 ∧ frontier.durableVlogEnd = none := by
    obtain ⟨_,_,chronicle,-⟩ := kept.journal.recorded
    obtain ⟨-,_,-,_,_,-,-,-,-,knows,-⟩ := chronicle.point (Nat.zero_le _)
    exact Knows.bare knows bare
  refine ⟨fun stored found => ?_,fun healthy => ?_⟩
  · obtain rfl := kept.frontierStored.unique found
    exact named
  · obtain ⟨rfl,rfl⟩ := kept.here healthy
    obtain ⟨_,_,_,_,_,_,_,_,knows,_⟩ := kept.journal.ends
    exact ⟨Knows.bare knows bare,named⟩

omit [Crc32c] in
theorem acceptedContents_absent {files : Directory} (absent : ∀ fileId : Nat, files[fileId]? = none)
    (acceptedEnd : Option VLogPosition) (fileId : Nat) : acceptedContents files acceptedEnd fileId = none := by
  unfold acceptedContents
  split
  · rfl
  · simp [absent]

-- Everything a database can be found as that was never asked for anything but deletes and barriers.
inductive DeleteLineage (databaseUuid : Uuid) : List Transaction → Nat → Storage → Prop
  | created : databaseUuid.isZero = false → DeleteLineage databaseUuid [] 0 (createdDatabase databaseUuid)
  | crashed {known held later : List Transaction} {acknowledged confirmed synced : Nat} {start final image : Storage}
      {inventory : ManagedInventory} {opened indexed filed : CommitCoordinator} :
      DeleteLineage databaseUuid known acknowledged start →
      inspectFiles (currentFormat databaseUuid) start.vlog.files = .ok inventory →
      openPrepared (currentFormat databaseUuid) inventory start = .ok opened final →
      DeleteRun opened (known.take opened.state.headSeq) acknowledged held confirmed indexed →
      DeleteRun indexed held confirmed later synced filed →
      filed.log.storage.trace.filter Event.forced = indexed.log.storage.trace.filter Event.forced →
      CrashImage indexed filed image → DeleteLineage databaseUuid held synced image

theorem DeleteLineage.lineage (deleted : DeleteLineage databaseUuid known acknowledged image) :
    Lineage databaseUuid known acknowledged image := by
  induction deleted with
  | created present => exact .created present
  | crashed _ inspected ran run further unforced crashed ih =>
    exact .crashed ih inspected ran run.recorded further.recorded unforced crashed

theorem Lineage.unlogged (lineage : Lineage databaseUuid known acknowledged image) (bare : Bare known)
    (absent : ∀ fileId : Nat, image.vlog.files[fileId]? = none)
    (inspected : inspectFiles (currentFormat databaseUuid) image.vlog.files = .ok inventory)
    (ran : openPrepared (currentFormat databaseUuid) inventory image = .ok opened final) :
    Grounded opened ∧ Bare (known.take opened.state.headSeq) ∧ Unlogged opened := by
  obtain ⟨grounded,-,remembered,-,healthy,files⟩ := lineage.opens inspected ran
  have front : Bare (known.take opened.state.headSeq) := fun transaction member => bare transaction (List.mem_of_mem_take member)
  obtain ⟨head,durable⟩ := (remembered.bare front).2 healthy
  have position := (grounded.sound.accounted healthy).aligned.position
  rw [head.2] at position
  exact ⟨grounded,front,fun fileId => (files fileId).trans (acceptedContents_absent absent _ fileId),position,head,durable⟩

theorem DeleteLineage.bare (deleted : DeleteLineage databaseUuid known acknowledged image) :
    Bare known ∧ ∀ fileId : Nat, image.vlog.files[fileId]? = none := by
  induction deleted with
  | created present => exact ⟨fun _ none => (by cases none),fun fileId => by simp [createdDatabase,FileSet.empty]⟩
  | crashed earlier inspected ran run further _ crashed ih =>
    obtain ⟨grounded,front,unlogged⟩ := earlier.lineage.unlogged ih.1 ih.2 inspected ran
    obtain ⟨held,indexed⟩ := run.keeps grounded front unlogged
    obtain ⟨past,lives⟩ := run.recorded.lives
    obtain ⟨-,filed⟩ := further.keeps (grounded.run lives.instanceRun).1 held indexed
    refine ⟨held,fun fileId => Option.eq_none_iff_forall_ne_some.mpr fun contents found => ?_⟩
    obtain ⟨more,there⟩ := crashed.fronts fileId contents found
    rw [filed.files fileId] at there
    cases there

-- The recovery keeps every transaction that it finds, and no log.
theorem RecoversPrefix.keeps {recovered : RecoveredState} {n : Nat} (bare : Bare known)
    (absent : ∀ fileId : Nat, image.vlog.files[fileId]? = none)
    (recovers : RecoversPrefix known acknowledged image recovered final n) :
    n = known.length ∧ recovered.durableFrontier = ⟨known.length,0,none⟩ ∧
      ∀ fileId : Nat, final.vlog.files[fileId]? = none := by
  have whole : n = known.length := by
    refine Nat.le_antisymm recovers.inside ((recovers.longest _ (Nat.le_refl _)).mp fun transaction member kind => ?_)
    rw [bare transaction (List.mem_of_mem_take member)] at kind
    cases kind
  subst whole
  refine ⟨rfl,?_,fun fileId => (recovers.files fileId).trans (acceptedContents_absent absent _ fileId)⟩
  have durable := recovers.durable
  obtain ⟨-,-,-,ends⟩ := recovers.latest
  rcases ends with ⟨seq,stop⟩ | ⟨txMeta,member,kind,-⟩
  · rw [←durable,←seq,←stop]
  · obtain ⟨transaction,there,rfl⟩ := List.mem_map.mp member
    rw [bare transaction (List.mem_of_mem_take there)] at kind
    cases kind

end deleting

section beside
variable [Crc32c] {c next start opened a b : CommitCoordinator} {request : WriteRequest} {around other : Surroundings}
  {databaseUuid : Uuid} {mark : Mark} {late : List Attempt}

-- A step beside the puts of a life: deletes or a barrier, a request that failed and left the instance healthy, and
-- what happens elsewhere.
inductive Aside : CommitCoordinator → CommitCoordinator → Prop
  | deletes {c next : CommitCoordinator} {request : WriteRequest} {around : Surroundings} : request.Deletes →
      commit request around c = .ok () next → Aside c next
  | failed {c next : CommitCoordinator} {request : WriteRequest} {around : Surroundings} {halt : Halt} :
      commit request around c = .error halt next → request.Deletes ∨ next.runtime.state.instanceState = .healthy →
      Aside c next
  | elsewhere {c : CommitCoordinator} {runtime : RuntimeControl} : c.runtime.Later runtime → Aside c {c with runtime}
  | cleaned {c : CommitCoordinator} {storage : Storage} : Cleaned c.log.storage storage →
      Aside c {c with log := {c.log with storage}}
  | facing {c : CommitCoordinator} (script : List Answer) : Aside c (c.facing script)

-- Two lives that answer the same requests one after the other, with anything beside these in either of them.
inductive SideBySide (start : CommitCoordinator) : CommitCoordinator → CommitCoordinator → Prop
  | start : SideBySide start start start
  | both {a b next after : CommitCoordinator} {request : WriteRequest} {around other : Surroundings} :
      SideBySide start a b → commit request around a = .ok () next → commit request other b = .ok () after →
      SideBySide start next after
  | left {a b next : CommitCoordinator} : SideBySide start a b → Aside a next → SideBySide start next b
  | right {a b next : CommitCoordinator} : SideBySide start a b → Aside b next → SideBySide start a next

theorem Aside.lives {past : List Attempt} (run : LiveRun start past c) (beside : Aside c next) :
    ∃ past, LiveRun start past next := by
  cases beside with
  | deletes _ ran => exact ⟨_,run.answered ran⟩
  | failed ran _ => exact ⟨_,run.failed ran⟩
  | elsewhere later => exact ⟨_,run.elsewhere later⟩
  | cleaned clean => exact ⟨_,run.cleaned clean⟩
  | facing script => exact ⟨_,run.facing script⟩

theorem SideBySide.lives (run : SideBySide start a b) :
    (∃ past, LiveRun start past a) ∧ ∃ past, LiveRun start past b := by
  induction run with
  | start => exact ⟨⟨[],.start⟩,[],.start⟩
  | both _ one two ih =>
    obtain ⟨⟨_,left⟩,_,right⟩ := ih
    exact ⟨⟨_,left.answered one⟩,_,right.answered two⟩
  | left _ beside ih =>
    obtain ⟨⟨_,left⟩,right⟩ := ih
    exact ⟨beside.lives left,right⟩
  | right _ beside ih =>
    obtain ⟨left,_,right⟩ := ih
    exact ⟨left,beside.lives right⟩

-- A step beside the puts leaves the log and its end.
theorem Aside.still (grounded : Grounded c) (journaled : Journaled databaseUuid mark late c) (beside : Aside c next) :
    next.log.storage.vlog = c.log.storage.vlog ∧ next.state.headVlogEnd = c.state.headVlogEnd := by
  have ended := @commit_outcome _ c grounded.sound.books grounded.sound.identified grounded.sound.ordered
  cases beside with
  | deletes deletes ran =>
    have spares := ((ended _ _).of_ok ran).spares deletes
    exact ⟨spares.vlog,spares.head.2⟩
  | failed ran reason =>
    have outcome := (ended _ _).of_error ran
    rcases reason with deletes | healthy
    · have spares := outcome.spares deletes
      exact ⟨spares.vlog,spares.head.2⟩
    · rcases outcome.took with ⟨index,-,-⟩ | ⟨_,_,_,_,_,-,-,-,-,-,-,-,answered⟩
      · obtain ⟨-,state,-,vlog⟩ := (outcome.idles grounded journaled index).1.still healthy
        exact ⟨vlog,by rw [state]⟩
      · cases (answered healthy).1
  | elsewhere _ => exact ⟨rfl,rfl⟩
  | cleaned clean => exact ⟨clean.moved.vlog,rfl⟩
  | facing _ => exact ⟨rfl,rfl⟩

-- What an answered request appends, and where the log ends behind it.
theorem RequestOutcome.appends (outcome : RequestOutcome c request around next none) :
    (next.log.storage.vlog = c.log.storage.vlog ∧ next.state.headVlogEnd = c.state.headVlogEnd ∧
      ∀ write, request = .nonempty write → write.transactionKind = .indexOnlyDelete) ∨
    ∃ write prepared envelope, request = .nonempty write ∧ c.runtime.state.instanceState = .healthy ∧
      c.prepare write around = .ok prepared ∧ prepared.envelope = some envelope ∧
      next.log.storage.vlog = c.log.storage.vlog.layAll envelope.chunks ∧
      next.state.headVlogEnd = some envelope.vlogEnd := by
  cases outcome with
  | nothing _ asked _ same =>
    subst same asked
    exact .inl ⟨rfl,rfl,fun _ no => by cases no⟩
  | @indexed appended synced submission token storage stats admits submits reached answered same _ =>
    subst same
    have vlog : storage.vlog = appended.storage.vlog := answered.moved.vlog.trans reached.vlog
    cases submits with
    | @nonempty write prepared batch _ ran _ written =>
      cases made : prepared.envelope with
      | none =>
        obtain ⟨_,prepares⟩ := CommitCoordinator.prepare_ok ran
        have kind := (prepareCommitEnvelope_kind prepares.envelope).mp made
        rw [made] at written
        cases written
        refine .inl ⟨vlog,by simp [CommitState.submission,committedState,kind],?_⟩
        rintro _ ⟨⟩
        exact kind
      | some envelope =>
        have kind := CommitCoordinator.prepare_guard ran made
        rw [made] at written
        cases written with
        | appended _ laid =>
          refine .inr ⟨write,prepared,envelope,rfl,admits.healthy,ran,made,vlog.trans laid.vlog,?_⟩
          simp [CommitState.submission,committedState,kind,vlogTarget,made]
    | barrier _ _ => exact .inl ⟨vlog,rfl,fun _ no => by cases no⟩

-- The logs of both lives are the same records under other numbers and identities.
structure Alike (start a b : CommitCoordinator) : Prop where
  logs : ∃ chunks others, List.Forall₂ Renumbered chunks others ∧
    a.log.storage.vlog = start.log.storage.vlog.layAll chunks ∧ b.log.storage.vlog = start.log.storage.vlog.layAll others
  ends : a.state.headVlogEnd = b.state.headVlogEnd

theorem SideBySide.alike (grounded : Grounded start) (journaled : Journaled databaseUuid mark late start)
    (run : SideBySide start a b) : Alike start a b := by
  have reached : ∀ {past c}, LiveRun start past c → Grounded c ∧ Journaled databaseUuid mark (late ++ past) c :=
    fun run => journaled.run grounded run
  induction run with
  | start => exact ⟨⟨[],[],.nil,rfl,rfl⟩,rfl⟩
  | @both a b next after request around other earlier one two ih =>
    obtain ⟨⟨_,left⟩,_,right⟩ := earlier.lives
    have first := (reached left).1
    have second := (reached right).1
    obtain ⟨⟨chunks,others,same,log,otherLog⟩,ends⟩ := ih
    have one := ((commit_outcome first.sound.books first.sound.identified first.sound.ordered _ _).of_ok one).appends
    have two := ((commit_outcome second.sound.books second.sound.identified second.sound.ordered _ _).of_ok two).appends
    rcases one with ⟨vlog,stop,kind⟩ | ⟨write,prepared,envelope,rfl,healthy,ran,written,vlog,stop⟩
    · rcases two with ⟨otherVlog,otherStop,-⟩ | ⟨write,_,_,asked,-,ran,written,-⟩
      · exact ⟨⟨chunks,others,same,vlog.trans log,otherVlog.trans otherLog⟩,by rw [stop,otherStop,ends]⟩
      · have other := CommitCoordinator.prepare_guard ran written
        rw [kind write asked] at other
        cases other
    · rcases two with ⟨-,-,kind⟩ | ⟨_,otherPrepared,otherEnvelope,asked,otherHealthy,otherRan,otherWritten,otherVlog,otherStop⟩
      · have other := CommitCoordinator.prepare_guard ran written
        rw [kind write rfl] at other
        cases other
      · obtain rfl : write = _ := by injection asked
        obtain ⟨_,made⟩ := CommitCoordinator.prepare_envelope first.sound.ready ran written
        obtain ⟨_,otherMade⟩ := CommitCoordinator.prepare_envelope second.sound.ready otherRan otherWritten
        have position : b.log.writer.position = a.log.writer.position := by
          rw [(first.sound.accounted healthy).aligned.position,(second.sound.accounted otherHealthy).aligned.position,ends]
        have identity : b.log.writer.databaseUuid = a.log.writer.databaseUuid := by
          rw [←first.identity,←second.identity,log,otherLog,FileSet.layAll_identity,FileSet.layAll_identity]
        rw [position,identity] at otherMade
        obtain ⟨renumbered,reaches⟩ := prepareEnvelope_renumbered made otherMade
        refine ⟨⟨chunks ++ envelope.chunks,others ++ otherEnvelope.chunks,List.rel_append same renumbered,?_,?_⟩,?_⟩
        · rw [vlog,log,FileSet.layAll_append]
        · rw [otherVlog,otherLog,FileSet.layAll_append]
        · rw [stop,otherStop,reaches]
  | left earlier beside ih =>
    obtain ⟨⟨_,lives⟩,-⟩ := earlier.lives
    obtain ⟨vlog,stop⟩ := beside.still (reached lives).1 (reached lives).2
    obtain ⟨⟨chunks,others,same,log,otherLog⟩,ends⟩ := ih
    exact ⟨⟨chunks,others,same,vlog.trans log,otherLog⟩,stop.trans ends⟩
  | right earlier beside ih =>
    obtain ⟨-,_,lives⟩ := earlier.lives
    obtain ⟨vlog,stop⟩ := beside.still (reached lives).1 (reached lives).2
    obtain ⟨⟨chunks,others,same,log,otherLog⟩,ends⟩ := ih
    exact ⟨⟨chunks,others,same,log,vlog.trans otherLog⟩,ends.trans stop.symm⟩

end beside

section deletes
variable [Crc32c] {databaseUuid : Uuid} {known : List Transaction} {acknowledged : Nat} {start final : Storage}
  {inventory : ManagedInventory} {opened : CommitCoordinator}

end deletes

section requests
variable (key : UInt8)

end requests

end ExpirKv
