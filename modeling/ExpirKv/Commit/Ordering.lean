import ExpirKv.Library.Histories
import ExpirKv.Commit.Journaled

namespace ExpirKv
open VLogGeometry Storage CommitCoordinator

section promising
variable {earlier : List Event} {stop : Option VLogPosition} {frontier : DurableFrontier}

-- What the events show to be durable of everything in front of an end.
def Event.Upholds (earlier : List Event) (stop : Option VLogPosition) : Prop :=
  ∀ position ∈ stop, ∀ fileId ≤ position.fileId, Event.linked earlier fileId = true ∧
    (if fileId = position.fileId then position.offset else 4294967296) ≤ Event.covered earlier fileId

structure DurableFrontier.Reaches (frontier before : DurableFrontier) : Prop where
  seq : before.durableSeq ≤ frontier.durableSeq
  vlogSeq : before.durableVlogSeq ≤ frontier.durableVlogSeq
  stop : (before.durableVlogEnd.getD ⟨0,0⟩).linear ≤ (frontier.durableVlogEnd.getD ⟨0,0⟩).linear

theorem DurableFrontier.Reaches.refl (frontier : DurableFrontier) : frontier.Reaches frontier :=
  ⟨Nat.le_refl _,Nat.le_refl _,Nat.le_refl _⟩

theorem DurableFrontier.Reaches.trans {last middle first : DurableFrontier} (late : last.Reaches middle)
    (early : middle.Reaches first) : last.Reaches first :=
  ⟨Nat.le_trans early.seq late.seq,Nat.le_trans early.vlogSeq late.vlogSeq,Nat.le_trans early.stop late.stop⟩

-- A frontier on its way to the index.
def Event.Sends [Crc32c] (event : Event) (frontier : DurableFrontier) : Prop :=
  ∃ batch mode encoded, event = .submitted batch mode ∧ .putInternal .system durableFrontierKey encoded ∈ batch ∧
    DurableFrontier.decode encoded = .ok frontier

-- What must be so when a frontier is handed to the index.
structure Promised [Crc32c] (files : FileSet) (earlier : List Event) (mode : IndexCommitMode) (frontier : DurableFrontier) :
    Prop where
  flushed : mode = .syncAll
  upheld : Event.Upholds earlier frontier.durableVlogEnd
  boundary : StableBoundary files frontier
  ordered : ∀ event ∈ earlier, ∀ before, event.Sends before → frontier.Reaches before

structure Orderly [Crc32c] (files : FileSet) (earlier : List Event) (batch : IndexAtomicBatch) (mode : IndexCommitMode) :
    Prop where
  kept : .deleteInternal .system durableFrontierKey ∉ batch
  promised : ∀ encoded, .putInternal .system durableFrontierKey encoded ∈ batch →
    ∃ frontier, DurableFrontier.decode encoded = .ok frontier ∧ Promised files earlier mode frontier

def Event.Allowed [Crc32c] (files : FileSet) (earlier : List Event) (event : Event) : Prop :=
  ∀ batch mode, event = .submitted batch mode → Orderly files earlier batch mode

def Event.Quiet (event : Event) : Prop := ∀ batch mode, event ≠ .submitted batch mode

theorem Event.OnFiles.quiet {event : Event} (onFiles : event.OnFiles) : event.Quiet := by
  rintro batch mode rfl
  exact onFiles

theorem Event.Quiet.allowed [Crc32c] {files : FileSet} {event : Event} (quiet : event.Quiet) (earlier : List Event) :
    Event.Allowed files earlier event := fun batch mode same => absurd same (quiet batch mode)

theorem Event.Quiet.sends [Crc32c] {event : Event} (quiet : event.Quiet) : ¬event.Sends frontier := by
  rintro ⟨batch,mode,_,same,-⟩
  exact quiet batch mode same

end promising

section quiet
variable {before middle after : Storage}

-- An event that is not about the index.
def Event.Silent (event : Event) : Prop := event.Quiet ∧ ∀ batch mode, event ≠ .applied batch mode

theorem Event.OnFiles.silent {event : Event} (onFiles : event.OnFiles) : event.Silent := by
  refine ⟨onFiles.quiet,?_⟩
  rintro batch mode rfl
  exact onFiles

-- Nothing went to the index in between, and the index took nothing.
def Silently (before after : Storage) : Prop :=
  ∃ events, after.trace = events ++ before.trace ∧ ∀ event ∈ events, event.Silent

theorem Silently.refl (storage : Storage) : Silently storage storage := ⟨[],rfl,by simp⟩

theorem CommitCoordinator.facing_silently (c : CommitCoordinator) (script : List Answer) :
    Silently c.log.storage (c.facing script).log.storage := ⟨[],rfl,by simp⟩

theorem Silently.trans (left : Silently before middle) (right : Silently middle after) : Silently before after := by
  obtain ⟨early,first,silent⟩ := left
  obtain ⟨late,second,still⟩ := right
  refine ⟨late ++ early,by rw [second,first,List.append_assoc],?_⟩
  intro event member
  rcases List.mem_append.mp member with inside | inside
  · exact still event inside
  · exact silent event inside

theorem Frame.silently {commitSeq : Nat} {log later : ValueLog} (frame : Frame commitSeq log later) :
    Silently log.storage later.storage := by
  obtain ⟨events,grows,onFiles⟩ := frame.trace
  exact ⟨events,grows,fun event member => (onFiles event member).silent⟩

theorem Synced.silently (synced : Synced before after) : Silently before after := by
  obtain ⟨events,grows,syncs⟩ := synced.trace
  refine ⟨events,grows,fun event member => ?_⟩
  rcases syncs event member with rfl | ⟨fileId,rfl⟩
  · exact ⟨nofun,nofun⟩
  · exact ⟨nofun,nofun⟩

-- The batch that an event put into the index.
def Event.taken : Event → Option IndexAtomicBatch
  | .applied batch _ => some batch
  | _ => none

theorem Silently.taken (silently : Silently before after) :
    after.trace.filterMap Event.taken = before.trace.filterMap Event.taken := by
  obtain ⟨events,grows,silent⟩ := silently
  have none : events.filterMap Event.taken = [] := by
    rw [List.filterMap_eq_nil_iff]
    intro event member
    cases event with
    | applied batch mode => exact absurd rfl ((silent _ member).2 batch mode)
    | _ => rfl
  rw [grows,List.filterMap_append,none,List.nil_append]

theorem IndexAnswered.hands {storage : Storage} {batch : IndexAtomicBatch} {mode : IndexCommitMode}
    {answer : Except IndexCommitError Unit} (answered : IndexAnswered storage batch mode answer after) :
    ∃ events, after.trace = events ++ .submitted batch mode :: storage.trace ∧ ∀ event ∈ events, event.Quiet := by
  cases answered with
  | applied script =>
    refine ⟨[.applied batch mode],rfl,?_⟩
    rintro _ member _ _ rfl
    cases List.mem_singleton.mp member
  | refused source script => exact ⟨[],rfl,by simp⟩
  | unknown source script => exact ⟨[],rfl,by simp⟩
  | landed source script =>
    refine ⟨[.applied batch .buffer],rfl,?_⟩
    rintro _ member _ _ rfl
    cases List.mem_singleton.mp member

end quiet

section ordering
variable [Crc32c] {c next start : CommitCoordinator} {request : WriteRequest} {around : Surroundings}
  {appended synced log : ValueLog} {submission : Submission} {token : Option FrontierSync} {ended : Option Halt}
  {databaseUuid : Uuid} {mark : Mark} {late more : List Attempt}

theorem EnvelopeWritten.silently {before after : ValueLog} {envelope : Option PreparedEnvelope}
    (written : EnvelopeWritten before envelope after) : Silently before.storage after.storage := by
  cases written with
  | none => exact .refl _
  | appended _ appended =>
    obtain ⟨last,frame⟩ := appended.frame
    exact frame.silently

theorem Submits.silently (submits : Submits c around request appended submission) :
    Silently c.log.storage appended.storage := by
  cases submits with
  | nonempty _ _ written => exact written.silently
  | barrier => exact .refl _

omit [Crc32c] in
theorem TargetSynced.silently {targetSeq : Nat} {targetEnd : Option VLogPosition} {needed : Bool}
    (reached : TargetSynced appended targetSeq targetEnd needed token synced) : Silently appended.storage synced.storage := by
  cases reached with
  | needless => exact .refl _
  | through through => exact through.storage.silently

-- The entries of a transaction leave the stored frontier alone.
theorem Prepares.spares {write : ValidatedWrite} {headSeq : Nat} {context : Option VlogContext}
    {lookup : Bytes → Option Bytes} {prepared : PreparedCommit} {descriptor : TransactionDescriptor}
    (prepares : Prepares write headSeq context lookup prepared descriptor) :
    .deleteInternal .system durableFrontierKey ∉ prepared.indexBatch ∧
      ∀ encoded, .putInternal .system durableFrontierKey encoded ∉ prepared.indexBatch := by
  obtain ⟨entries,-,same⟩ := prepares.batch
  rw [same]
  have apart : headSeqKey ≠ durableFrontierKey := by decide
  constructor
  · intro member
    simp only [commitBatch,stateMutation,EncodedMutation.put,List.mem_append,List.mem_cons,List.mem_map] at member
    grind
  · intro encoded member
    simp only [commitBatch,stateMutation,EncodedMutation.put,List.mem_append,List.mem_cons,List.mem_map] at member
    grind

-- A batch of a request carries at most the frontier that is published with it.
theorem Submits.sends (submits : Submits c around request appended submission) :
    .deleteInternal .system durableFrontierKey ∉ submission.batch ∧
      ∀ encoded, .putInternal .system durableFrontierKey encoded ∈ submission.batch →
        submission.mode = .syncAll ∧ submission.frontier = some submission.published.durableFrontier ∧
          submission.published.durableFrontier.encode = .ok encoded := by
  cases submits with
  | @nonempty write prepared batch _ ran framed _ =>
    obtain ⟨descriptor,prepares⟩ := CommitCoordinator.prepare_ok ran
    obtain ⟨keeps,puts⟩ := prepares.spares
    simp only [CommitState.submission,committedState_durableFrontier]
    unfold addFrontier at framed
    cases sync : write.sync with
    | false =>
      simp only [CommitState.frontierOf,sync,Bool.false_eq_true,if_false] at framed
      obtain rfl := Except.ok.inj framed
      exact ⟨keeps,fun encoded member => absurd member (puts encoded)⟩
    | true =>
      simp only [CommitState.frontierOf,sync,if_true] at framed ⊢
      obtain ⟨-,bytes,encodes,rfl⟩ := addFrontierToBatch_ok.mp framed
      refine ⟨fun member => ?_,fun encoded member => ⟨trivial,rfl,?_⟩⟩
      · rcases List.mem_append.mp member with inside | last
        · exact keeps inside
        · cases List.mem_singleton.mp last
      · rcases List.mem_append.mp member with inside | last
        · exact absurd inside (puts encoded)
        · cases List.mem_singleton.mp last
          exact encodes
  | barrier _ made =>
    obtain ⟨-,-,bytes,encodes,rfl⟩ := frontierOnlyBatch_ok.mp made
    refine ⟨fun member => ?_,fun encoded member => ⟨rfl,rfl,?_⟩⟩
    · cases List.mem_singleton.mp member
    · cases List.mem_singleton.mp member
      exact encodes

theorem Submits.ahead (submits : Submits c around request appended submission) :
    c.state.headSeq ≤ submission.published.headSeq := by
  rcases submits.heads with further | same
  · exact Nat.le_of_lt further
  · exact Nat.le_of_eq (congrArg Accepted.seq same).symm

theorem Submits.reaches (submits : Submits c around request appended submission) (accounted : Accounted c)
    (furthers : Furthers c appended submission) :
    submission.published.durableFrontier.Reaches c.state.durableFrontier := by
  rcases furthers.frontier with ⟨-,-,same,-⟩ | ⟨-,same⟩
  · rw [same]
    exact .refl _
  · rw [same]
    exact ⟨Nat.le_trans accounted.ordered submits.ahead,furthers.aligned.covered,furthers.aligned.behind⟩

omit [Crc32c] in
theorem Furthers.fits (furthers : Furthers c appended submission) :
    submission.published.durableFrontier.durableSeq < 18446744073709551616 := by
  rcases furthers.frontier with ⟨-,-,same,ordered,-⟩ | ⟨-,same⟩
  · rw [same]
    exact Nat.lt_of_le_of_lt ordered furthers.bound
  · rw [same]
    exact furthers.bound

theorem Promised.extends {files later : FileSet} {earlier : List Event} {mode : IndexCommitMode}
    {frontier : DurableFrontier} (promised : Promised files earlier mode frontier) (grown : files.Extends later) :
    Promised later earlier mode frontier :=
  ⟨promised.flushed,promised.upheld,grown.boundary promised.boundary,promised.ordered⟩

theorem Event.Allowed.extends {files later : FileSet} {earlier : List Event} {event : Event}
    (allowed : Event.Allowed files earlier event) (grown : files.Extends later) : Event.Allowed later earlier event := by
  intro batch mode same
  obtain ⟨kept,promised⟩ := allowed batch mode same
  refine ⟨kept,fun encoded member => ?_⟩
  obtain ⟨frontier,decoded,promised⟩ := promised encoded member
  exact ⟨frontier,decoded,promised.extends grown⟩

-- What holds of the frontiers that an instance has handed over so far.
structure Ordered (c : CommitCoordinator) : Prop where
  grown : Grown (Event.Allowed c.log.storage.vlog) c.log.storage.trace
  sent : c.runtime.state.instanceState = .healthy → ∀ event ∈ c.log.storage.trace, ∀ before : DurableFrontier,
    event.Sends before → c.state.durableFrontier.Reaches before

-- An instance begins with the files that it found and has handed over nothing.
theorem Ordered.found {storage : Storage} (same : c.log.storage = storage.reopened) : Ordered c := by
  have quiet : ∀ event ∈ c.log.storage.trace, event.Quiet := by
    rw [same]
    intro event member batch mode no
    obtain ⟨file,-,found⟩ := List.mem_map.mp member
    rw [←found] at no
    cases no
  refine ⟨?_,fun _ event member before sends => absurd sends (quiet event member).sends⟩
  rw [←List.append_nil c.log.storage.trace]
  exact Grown.start.follows fun event member => (quiet event member).allowed

theorem Ordered.silently (ordered : Ordered c) (silently : Silently c.log.storage next.log.storage)
    (grown : c.log.storage.vlog.Extends next.log.storage.vlog)
    (still : next.runtime.state.instanceState = .healthy → c.runtime.state.instanceState = .healthy ∧ next.state = c.state) :
    Ordered next := by
  obtain ⟨events,grows,silent⟩ := silently
  refine ⟨?_,fun healthy event member before sends => ?_⟩
  · rw [grows]
    exact (ordered.grown.mono fun _ _ allowed => allowed.extends grown).follows
      fun event member => (silent event member).1.allowed
  · obtain ⟨earlier,same⟩ := still healthy
    rw [grows] at member
    rcases List.mem_append.mp member with inside | inside
    · exact absurd sends (silent event inside).1.sends
    · rw [same]
      exact ordered.sent earlier event inside before sends

-- One more batch behind a history, with a frontier that is published with it at most.
theorem Ordered.handed {events earlier : List Event} {batch : IndexAtomicBatch} {mode : IndexCommitMode}
    (grown : Grown (Event.Allowed next.log.storage.vlog) earlier)
    (allowed : Event.Allowed next.log.storage.vlog earlier (.submitted batch mode))
    (trace : next.log.storage.trace = events ++ .submitted batch mode :: earlier) (quiet : ∀ event ∈ events, event.Quiet)
    (sent : next.runtime.state.instanceState = .healthy → ∀ event ∈ earlier, ∀ before : DurableFrontier,
      event.Sends before → next.state.durableFrontier.Reaches before)
    (newest : next.runtime.state.instanceState = .healthy → ∀ frontier : DurableFrontier,
      (Event.submitted batch mode).Sends frontier → next.state.durableFrontier.Reaches frontier) : Ordered next := by
  refine ⟨?_,fun healthy event member before sends => ?_⟩
  · rw [trace]
    exact (Grown.event grown allowed).follows fun event member => (quiet event member).allowed
  · rw [trace] at member
    rcases List.mem_append.mp member with inside | inside
    · exact absurd sends (quiet event inside).sends
    · rcases List.mem_cons.mp inside with rfl | inside
      · exact newest healthy before sends
      · exact sent healthy event inside before sends

-- A batch that goes to the index keeps what its frontier promises.
theorem Ordered.hands {storage : Storage} {answer : Except IndexCommitError Unit} (ordered : Ordered c)
    (grounded : Grounded c) (journaled : Journaled databaseUuid mark late c)
    (healthy : c.runtime.state.instanceState = .healthy) (submits : Submits c around request appended submission)
    (reached : TargetSynced appended submission.targetSeq submission.targetEnd submission.needed token synced)
    (answered : IndexAnswered synced.storage submission.batch submission.mode answer storage)
    (same : next.log.storage = storage)
    (published : next.runtime.state.instanceState = .healthy →
      next.state.durableFrontier = submission.published.durableFrontier) : Ordered next := by
  obtain ⟨between,before,silent⟩ := submits.silently.trans reached.silently
  obtain ⟨events,after,still⟩ := answered.hands
  obtain ⟨frontier,chain,head,⟨-,-,-,secured,here⟩,-⟩ := journaled.journal
  obtain ⟨rfl,-⟩ := here healthy
  have writer : c.log.writer.databaseUuid = databaseUuid := grounded.identity.symm.trans journaled.named
  subst writer
  have accounted := grounded.sound.accounted healthy
  have furthers := accounted.furthers grounded.sound.books grounded.sound.ready submits
  obtain ⟨lodged,-,-,boundary⟩ := grounded.submits healthy submits
  have vlog : next.log.storage.vlog = appended.storage.vlog := by
    rw [same,answered.moved.vlog]
    exact reached.vlog
  have secures := grounded.secures healthy submits (submits.packs grounded (journaled.packed healthy)) reached secured
  have reaches := submits.reaches accounted furthers
  have sent : ∀ event ∈ synced.storage.trace, ∀ earlier : DurableFrontier, event.Sends earlier →
      submission.published.durableFrontier.Reaches earlier := by
    intro event member earlier sends
    rw [before] at member
    rcases List.mem_append.mp member with inside | inside
    · exact absurd sends (silent event inside).1.sends
    · exact reaches.trans (ordered.sent healthy event inside earlier sends)
  obtain ⟨kept,carries⟩ := submits.sends
  have allowed : Event.Allowed next.log.storage.vlog synced.storage.trace (.submitted submission.batch submission.mode) := by
    rintro _ _ ⟨⟩
    refine ⟨kept,fun encoded member => ?_⟩
    obtain ⟨flushed,-,encodes⟩ := carries encoded member
    refine ⟨_,(DurableFrontier.decode_encode encodes furthers.fits).1,flushed,?_,by rw [vlog]; exact boundary,sent⟩
    intro position ends fileId inside
    exact (secures position ends fileId inside).2
  have earlier : Grown (Event.Allowed next.log.storage.vlog) synced.storage.trace := by
    rw [before,vlog]
    exact (ordered.grown.mono fun _ _ allowed => allowed.extends lodged.grown).follows
      fun event member => (silent event member).1.allowed
  refine .handed earlier allowed (by rw [same,after]) still (fun healthy => ?_) (fun healthy => ?_)
  · rw [published healthy]
    exact sent
  · rintro before ⟨_,_,encoded,⟨⟩,carried,decoded⟩
    obtain ⟨-,-,encodes⟩ := carries encoded carried
    obtain rfl := Except.ok.inj ((DurableFrontier.decode_encode encodes furthers.fits).1.symm.trans decoded)
    rw [published healthy]
    exact .refl _

theorem RequestOutcome.ordered (grounded : Grounded c) (journaled : Journaled databaseUuid mark late c)
    (ordered : Ordered c) (outcome : RequestOutcome c request around next ended) : Ordered next := by
  have grown := outcome.grows grounded
  cases outcome with
  | notAdmitted _ same => exact same ▸ ordered
  | nothing _ _ _ same => exact same ▸ ordered
  | notPrepared _ _ refused =>
    have log : next.log = c.log := refused.log
    exact ordered.silently (by rw [log]; exact .refl _) grown
      fun healthy => ⟨(Declined.stays refused healthy).1,refused.state⟩
  | notAppended _ _ _ _ _ failed refused =>
    obtain ⟨⟨flag,frame⟩,-⟩ := failed.frame
    exact ordered.silently (by rw [refused.log]; exact frame.silently) grown
      fun healthy => ⟨(refused.stays healthy).1,refused.state⟩
  | notSynced _ submits _ failed refused =>
    exact ordered.silently (by rw [refused.log]; exact submits.silently.trans failed.storage.silently) grown
      fun healthy => by cases (refused.stays healthy).2
  | notIndexed identity admits submits reached answered settled refused =>
    refine ordered.hands grounded journaled admits.healthy submits reached answered ?_ fun healthy => ?_
    · rw [refused.log]
      exact settled.storage
    · exact absurd (failureState_healthy (refused.stays healthy).2) (indexFailure_stops request _ identity)
  | indexed admits submits reached answered same _ =>
    subst same
    exact ordered.hands grounded journaled admits.healthy submits reached answered rfl fun _ => rfl

theorem Ordered.cleaned {storage : Storage} (ordered : Ordered c) (clean : Cleaned c.log.storage storage) :
    Ordered {c with log := {c.log with storage}} := by
  have vlog : storage.vlog = c.log.storage.vlog := clean.moved.vlog
  obtain ⟨keys,_,-,answered⟩ := clean.batch
  obtain ⟨events,trace,quiet⟩ := answered.hands
  have silent : ∀ mutation ∈ removals keys, ∃ key, mutation = .deleteInternal .transaction key := by
    intro mutation member
    obtain ⟨key,-,rfl⟩ := List.mem_map.mp member
    exact ⟨key,rfl⟩
  have allowed : Event.Allowed storage.vlog c.log.storage.trace (.submitted (removals keys) .buffer) := by
    rintro _ _ ⟨⟩
    refine ⟨fun member => ?_,fun encoded member => ?_⟩
    · obtain ⟨_,no⟩ := silent _ member
      cases no
    · obtain ⟨_,no⟩ := silent _ member
      cases no
  refine .handed (by rw [vlog]; exact ordered.grown) allowed trace quiet ordered.sent fun _ => ?_
  rintro before ⟨_,_,encoded,⟨⟩,carried,-⟩
  obtain ⟨_,no⟩ := silent _ carried
  cases no

theorem Ordered.run (ordered : Ordered start) (grounded : Grounded start)
    (journaled : Journaled databaseUuid mark late start) (run : LiveRun start more c) : Ordered c := by
  induction run with
  | start => exact ordered
  | answered earlier ran ih =>
    obtain ⟨before,there⟩ := journaled.run grounded earlier
    exact ((commit_outcome before.sound.books before.sound.identified before.sound.ordered _ _).of_ok ran).ordered before
      there ih
  | failed earlier ran ih =>
    obtain ⟨before,there⟩ := journaled.run grounded earlier
    exact ((commit_outcome before.sound.books before.sound.identified before.sound.ordered _ _).of_error ran).ordered before
      there ih
  | @elsewhere asked c runtime _ later ih =>
    exact ih.silently (.refl _) (.refl _) fun healthy => ⟨later.healthy healthy,rfl⟩
  | cleaned _ clean ih => exact ih.cleaned clean
  | facing script _ ih => exact ih.silently (facing_silently _ script) (.refl _) fun healthy => ⟨healthy,rfl⟩

end ordering

end ExpirKv
