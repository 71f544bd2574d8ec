import ExpirKv.Commit.Transactions
import ExpirKv.Lifecycle.Survival

namespace ExpirKv
open VLogGeometry Storage CommitCoordinator

-- A transaction that the index took, with what was asked for.
structure Transaction where
  txMeta : TxMeta
  operations : List LogicalOperation

-- What the index took of a request.
def newlyTaken (request : WriteRequest) (before after : List Event) : List Transaction :=
  ((Event.transactions after).drop (Event.transactions before).length).map (⟨·,request.operations⟩)

section recording
variable [Crc32c] {c next start : CommitCoordinator} {request : WriteRequest} {around : Surroundings}
  {appended : ValueLog} {submission : Submission} {ended : Option Halt} {databaseUuid : Uuid} {mark : Mark}
  {known later before : List Transaction} {acknowledged confirmed : Nat} {accepted : Accepted}
  {written : List LogicalOperation} {late : List Attempt}

-- The life of an instance with every transaction that the index took, and the largest sequence for which a sync was
-- acknowledged.
inductive RecordedRun (start : CommitCoordinator) (before : List Transaction) (confirmed : Nat) :
    List Transaction → Nat → CommitCoordinator → Prop
  | start : RecordedRun start before confirmed before confirmed start
  | answered {known : List Transaction} {acknowledged : Nat} {c next : CommitCoordinator} {request : WriteRequest}
      {around : Surroundings} : RecordedRun start before confirmed known acknowledged c →
      commit request around c = .ok () next →
      RecordedRun start before confirmed (known ++ newlyTaken request c.log.storage.trace next.log.storage.trace)
        (if request.sync = true then max acknowledged next.state.headSeq else acknowledged) next
  | failed {known : List Transaction} {acknowledged : Nat} {c next : CommitCoordinator} {request : WriteRequest}
      {around : Surroundings} {halt : Halt} : RecordedRun start before confirmed known acknowledged c →
      commit request around c = .error halt next →
      RecordedRun start before confirmed (known ++ newlyTaken request c.log.storage.trace next.log.storage.trace)
        acknowledged next
  | elsewhere {known : List Transaction} {acknowledged : Nat} {c : CommitCoordinator} {runtime : RuntimeControl} :
      RecordedRun start before confirmed known acknowledged c → c.runtime.Later runtime →
      RecordedRun start before confirmed known acknowledged {c with runtime}
  | cleaned {known : List Transaction} {acknowledged : Nat} {c : CommitCoordinator} {storage : Storage} :
      RecordedRun start before confirmed known acknowledged c → Cleaned c.log.storage storage →
      RecordedRun start before confirmed known acknowledged {c with log := {c.log with storage}}
  | facing {known : List Transaction} {acknowledged : Nat} {c : CommitCoordinator} (script : List Answer) :
      RecordedRun start before confirmed known acknowledged c →
      RecordedRun start before confirmed known acknowledged (c.facing script)

theorem RecordedRun.lives (run : RecordedRun start before confirmed known acknowledged c) :
    ∃ past, LiveRun start past c := by
  induction run with
  | start => exact ⟨[],.start⟩
  | answered _ ran ih =>
    obtain ⟨past,earlier⟩ := ih
    exact ⟨_,earlier.answered ran⟩
  | failed _ ran ih =>
    obtain ⟨past,earlier⟩ := ih
    exact ⟨_,earlier.failed ran⟩
  | elsewhere _ later ih =>
    obtain ⟨past,earlier⟩ := ih
    exact ⟨past,earlier.elsewhere later⟩
  | cleaned _ clean ih =>
    obtain ⟨past,earlier⟩ := ih
    exact ⟨past,earlier.cleaned clean⟩
  | facing script _ ih =>
    obtain ⟨past,earlier⟩ := ih
    exact ⟨past,earlier.facing script⟩

theorem RecordedRun.trans {synced : Nat} (run : RecordedRun start before confirmed known acknowledged c)
    (more : RecordedRun c known acknowledged later synced next) : RecordedRun start before confirmed later synced next := by
  induction more with
  | start => exact run
  | answered _ ran ih => exact ih.answered ran
  | failed _ ran ih => exact ih.failed ran
  | elsewhere _ late ih => exact ih.elsewhere late
  | cleaned _ clean ih => exact ih.cleaned clean
  | facing script _ ih => exact ih.facing script

-- What is known of a point of the history: which transactions it is behind, and what they wrote.
structure Knows (known : List Transaction) (accepted : Accepted) (written : List LogicalOperation) : Prop where
  inside : accepted.seq ≤ known.length
  arrives : Arrives ((known.take accepted.seq).map Transaction.txMeta) accepted
  written : written = (known.take accepted.seq).flatMap Transaction.operations

omit [Crc32c] in
theorem Knows.more (knows : Knows known accepted written) (later : List Transaction) :
    Knows (known ++ later) accepted written := by
  obtain ⟨inside,arrives,same⟩ := knows
  rw [←List.take_append_of_le_length inside] at arrives same
  exact ⟨by rw [List.length_append]; omega,arrives,same⟩

omit [Crc32c] in
theorem Knows.cut (knows : Knows known accepted written) : Knows (known.take accepted.seq) accepted written := by
  obtain ⟨inside,arrives,same⟩ := knows
  refine ⟨by rw [List.length_take]; omega,?_,?_⟩
  · rw [List.take_take,Nat.min_self]
    exact arrives
  · rw [List.take_take,Nat.min_self]
    exact same

-- The index of an instance as the history of the transactions that it took. What was acknowledged is durable.
structure Remembered (known : List Transaction) (acknowledged : Nat) (c : CommitCoordinator) : Prop where
  kept : ∃ frontier chain head, Chronicled (Knows known) (fun _ => none) c frontier chain head ∧
    head.seq = known.length ∧ acknowledged ≤ frontier.durableSeq

-- What the last point of the history is known by.
theorem Chronicled.serves {frontier : DurableFrontier} {chain : List (EncodedDescriptor × TransactionDescriptor)}
    {head : Accepted} (kept : Chronicled (Knows known) (fun _ => none) c frontier chain head)
    (whole : head.seq = known.length) :
    Arrives (known.map Transaction.txMeta) head ∧ Serves c.log.storage.vlog c.log.storage.index
      (UserMap.execute (fun _ => none) (known.flatMap Transaction.operations)) := by
  obtain ⟨last,user,there,written,since,ends,-,-,⟨-,arrives,same⟩,serves⟩ := kept.journal.ends
  rw [whole,List.take_length] at arrives same
  rw [same] at serves
  exact ⟨arrives,(serves.extends ends.geometry since).same user.symm⟩

-- A batch that the index took is one more transaction, or none for a barrier.
theorem Chronicled.records {answered : Bool} {frontier : DurableFrontier}
    {chain : List (EncodedDescriptor × TransactionDescriptor)} {head : Accepted}
    (kept : Chronicled (Knows known) (fun _ => none) c frontier chain head) (grounded : Grounded c)
    (healthy : c.runtime.state.instanceState = .healthy) (whole : head.seq = known.length)
    (submits : Submits c around request appended submission) (published : Published appended submission answered c next)
    (same : later = submission.batch.transactions.map (⟨·,request.operations⟩)) :
    ∃ chain, Chronicled (Knows (known ++ later)) (fun _ => none) next submission.published.durableFrontier chain
        submission.published.accepted ∧ submission.published.accepted.seq = (known ++ later).length := by
  obtain ⟨arrives,serves⟩ := kept.serves whole
  obtain ⟨-,rfl⟩ := kept.here healthy
  obtain ⟨arrived,asked⟩ := submits.arrives grounded healthy arrives
  have metas : (known ++ later).map Transaction.txMeta =
      known.map Transaction.txMeta ++ submission.batch.transactions := by
    rw [same,List.map_append,List.map_map]
    exact congrArg _ (List.map_id _)
  have wrote : (known ++ later).flatMap Transaction.operations =
      known.flatMap Transaction.operations ++ request.operations := by
    rw [same,List.flatMap_append,List.flatMap_map,asked]
  rw [←metas] at arrived
  have seq : submission.published.accepted.seq = (known ++ later).length := by
    rw [arrived.seq,List.length_map]
  obtain ⟨chain,kept⟩ := kept.submitted grounded healthy serves submits published (fun _ _ knows => knows.more later) (by
    refine ⟨Nat.le_of_eq seq,?_,?_⟩
    · rw [seq,List.take_length]
      exact arrived
    · rw [seq,List.take_length,wrote])
  exact ⟨chain,kept,seq⟩

theorem RequestOutcome.remembered (grounded : Grounded c) (journaled : Journaled databaseUuid mark late c)
    (remembered : Remembered known acknowledged c) (outcome : RequestOutcome c request around next ended)
    (confirms : confirmed = acknowledged ∨
      ended = none ∧ request.sync = true ∧ confirmed = max acknowledged next.state.headSeq) :
    Remembered (known ++ newlyTaken request c.log.storage.trace next.log.storage.trace) confirmed next := by
  obtain ⟨frontier,chain,head,kept,whole,covered⟩ := remembered.kept
  -- What a sync was answered for is durable by then.
  have durable : ∀ {later : DurableFrontier}, (next.runtime.state.instanceState = .healthy →
      later = next.state.durableFrontier) → acknowledged ≤ later.durableSeq → confirmed ≤ later.durableSeq := by
    intro later here low
    rcases confirms with rfl | ⟨rfl,synced,rfl⟩
    · exact low
    · obtain ⟨healthy,settled⟩ := outcome.durable synced
      refine Nat.max_le.mpr ⟨low,?_⟩
      rw [here healthy,settled]
  rcases outcome.took with ⟨index,same,nothing⟩ |
    ⟨appended,synced,submission,token,answer,admits,submits,reached,answered,index,taken,-,still⟩
  · have idled : Idled c next := by
      cases ended with
      | none =>
        rw [nothing rfl]
        exact ⟨rfl,.refl _,.refl _,fun healthy => ⟨healthy,rfl,rfl,rfl⟩⟩
      | some halt => exact (outcome.idles grounded journaled index).1
    have kept := kept.idles idled fun _ _ knows => knows
    rw [newlyTaken,same,List.drop_length,List.map_nil,List.append_nil]
    exact ⟨frontier,chain,head,kept,whole,durable (fun healthy => (kept.here healthy).1) covered⟩
  · have healthy := admits.healthy
    obtain ⟨vlog,secured⟩ := journaled.promises grounded healthy submits reached answered.moved
    have published : Published appended submission ended.isNone c next :=
      ⟨index,vlog,secured,fun after => (by obtain ⟨rfl,state,position⟩ := still after; exact ⟨rfl,state,position⟩)⟩
    have later : newlyTaken request c.log.storage.trace next.log.storage.trace =
        submission.batch.transactions.map (⟨·,request.operations⟩) := by
      rw [newlyTaken,taken,List.drop_left]
    obtain ⟨rfl,-⟩ := kept.here healthy
    have accounted := grounded.sound.accounted healthy
    have reaches := submits.reaches accounted (accounted.furthers grounded.sound.books grounded.sound.ready submits)
    obtain ⟨chain,kept,seq⟩ := kept.records grounded healthy whole submits published later
    exact ⟨_,chain,_,kept,seq,durable (fun after => (kept.here after).1) (Nat.le_trans covered reaches.seq)⟩

theorem RecordedRun.remembered (grounded : Grounded start) (journaled : Journaled databaseUuid mark late start)
    (remembered : Remembered before confirmed start) (run : RecordedRun start before confirmed known acknowledged c) :
    Remembered known acknowledged c := by
  have reached : ∀ {known acknowledged c}, RecordedRun start before confirmed known acknowledged c →
      ∃ past, Grounded c ∧ Journaled databaseUuid mark past c := by
    intro known acknowledged c run
    obtain ⟨past,lives⟩ := run.lives
    exact ⟨_,journaled.run grounded lives⟩
  induction run with
  | start => exact remembered
  | @answered _ _ _ _ request _ earlier ran ih =>
    obtain ⟨past,grounded,journaled⟩ := reached earlier
    refine ((commit_outcome grounded.sound.books grounded.sound.identified grounded.sound.ordered _ _).of_ok ran).remembered
      grounded journaled ih ?_
    split
    · rename_i synced
      exact .inr ⟨rfl,synced,rfl⟩
    · exact .inl rfl
  | failed earlier ran ih =>
    obtain ⟨past,grounded,journaled⟩ := reached earlier
    exact ((commit_outcome grounded.sound.books grounded.sound.identified grounded.sound.ordered _ _).of_error
      ran).remembered grounded journaled ih (.inl rfl)
  | @elsewhere _ _ c runtime _ later ih =>
    obtain ⟨frontier,chain,head,kept,whole,covered⟩ := ih.kept
    have idled : Idled c {c with runtime} :=
      ⟨rfl,.refl _,.refl _,fun healthy => ⟨later.healthy healthy,rfl,rfl,rfl⟩⟩
    exact ⟨frontier,chain,head,kept.idles idled fun _ _ knows => knows,whole,covered⟩
  | cleaned _ clean ih =>
    obtain ⟨frontier,chain,head,kept,whole,covered⟩ := ih.kept
    exact ⟨frontier,chain,head,kept.cleaned clean,whole,covered⟩
  | facing script _ ih =>
    obtain ⟨frontier,chain,head,kept,whole,covered⟩ := ih.kept
    exact ⟨frontier,chain,head,kept.idles (facing_idled script) fun _ _ knows => knows,whole,covered⟩

end recording

section forcing
variable [Crc32c] {c next start : CommitCoordinator} {request : WriteRequest} {around : Surroundings}
  {appended : ValueLog} {submission : Submission} {ended : Option Halt} {databaseUuid : Uuid} {mark : Mark}
  {known before : List Transaction} {acknowledged confirmed covered : Nat} {late : List Attempt}

-- A batch that the index committed with a sync.
def Event.forced : Event → Bool
  | .applied _ .syncAll => true
  | _ => false

theorem RequestOutcome.onward (outcome : RequestOutcome c request around next ended) :
    c.log.storage.trace <:+ next.log.storage.trace := by
  have silent : ∀ {before after : Storage}, Silently before after → before.trace <:+ after.trace := by
    rintro before after ⟨events,grows,-⟩
    exact ⟨events,grows.symm⟩
  have handed : ∀ {before after : Storage} {batch : IndexAtomicBatch} {mode : IndexCommitMode}
      {answer : Except IndexCommitError Unit}, IndexAnswered before batch mode answer after →
      before.trace <:+ after.trace := by
    intro before after batch mode answer answered
    obtain ⟨events,grows,-⟩ := answered.hands
    exact ⟨events ++ [.submitted batch mode],by rw [grows,List.append_assoc]; rfl⟩
  cases outcome with
  | notAdmitted _ same => rw [same]
  | nothing _ _ _ same => rw [same]
  | notPrepared _ _ refused => rw [refused.log]
  | notAppended _ _ _ _ _ failed refused =>
    obtain ⟨⟨flag,frame⟩,-⟩ := failed.frame
    rw [refused.log]
    exact silent frame.silently
  | notSynced _ submits _ failed refused =>
    rw [refused.log]
    exact silent (submits.silently.trans failed.storage.silently)
  | notIndexed _ _ submits reached answered settled refused =>
    rw [refused.log,settled.storage]
    exact (silent (submits.silently.trans reached.silently)).trans (handed answered)
  | indexed _ submits reached answered same _ =>
    subst same
    exact (silent (submits.silently.trans reached.silently)).trans (handed answered)

theorem Cleaned.onward {storage after : Storage} (clean : Cleaned storage after) : storage.trace <:+ after.trace := by
  obtain ⟨_,_,-,answered⟩ := clean.batch
  obtain ⟨events,grows,-⟩ := answered.hands
  exact ⟨events ++ [_],by rw [grows,List.append_assoc]; rfl⟩

theorem RecordedRun.onward (grounded : Grounded start) (run : RecordedRun start before confirmed known acknowledged c) :
    start.log.storage.trace <:+ c.log.storage.trace := by
  have reached : ∀ {known acknowledged c}, RecordedRun start before confirmed known acknowledged c → Grounded c := by
    intro known acknowledged c run
    obtain ⟨past,lives⟩ := run.lives
    exact (grounded.run lives.instanceRun).1
  induction run with
  | start => exact List.suffix_rfl
  | answered earlier ran ih =>
    have before := reached earlier
    exact ih.trans ((commit_outcome before.sound.books before.sound.identified before.sound.ordered _ _).of_ok ran).onward
  | failed earlier ran ih =>
    have before := reached earlier
    exact ih.trans ((commit_outcome before.sound.books before.sound.identified before.sound.ordered _ _).of_error ran).onward
  | elsewhere _ _ ih => exact ih
  | cleaned _ clean ih => exact ih.trans clean.onward
  | facing _ _ ih => exact ih

-- A request that the index did not commit with a sync leaves the frontier where it was.
theorem RequestOutcome.unforced (grounded : Grounded c) (outcome : RequestOutcome c request around next none)
    (unforced : next.log.storage.trace.filter Event.forced = c.log.storage.trace.filter Event.forced) :
    c.runtime.state.instanceState = .healthy ∧ next.state.durableFrontier = c.state.durableFrontier ∧
      (request.sync = true → next.state.headSeq = c.state.durableFrontier.durableSeq) := by
  cases outcome with
  | nothing admits asked settled same =>
    subst same asked
    exact ⟨admits.healthy,rfl,settled⟩
  | @indexed appended synced submission token storage stats admits submits reached answered same _ =>
    subst same
    have before : c.log.storage.trace <:+ synced.storage.trace := by
      obtain ⟨events,grows,-⟩ := submits.silently.trans reached.silently
      exact ⟨events,grows.symm⟩
    have unsynced : submission.mode ≠ .syncAll := by
      intro mode
      have longer := (before.filter Event.forced).length_le
      cases answered with
      | applied script =>
        have width := congrArg List.length unforced
        simp only [Storage.committed,Storage.record,mode,List.filter_cons,Event.forced,if_true,Bool.false_eq_true,if_false,
          List.length_cons] at width
        omega
    cases submits with
    | @nonempty write prepared batch _ _ _ _ =>
      cases asked : write.sync with
      | true => exact absurd (by simp [CommitState.submission,asked]) unsynced
      | false =>
        refine ⟨admits.healthy,?_,fun sync => ?_⟩
        · simp [CommitState.submission,committedState_durableFrontier,CommitState.frontierOf,asked]
        · rw [WriteRequest.sync,asked] at sync
          cases sync
    | barrier => exact absurd rfl unsynced

-- Where no batch was committed with a sync the frontier stays, and nothing more is acknowledged than it covers.
theorem RecordedRun.unforced (grounded : Grounded start) (journaled : Journaled databaseUuid mark late start)
    (here : start.runtime.state.instanceState = .healthy → start.state.durableFrontier.durableSeq = covered)
    (low : confirmed ≤ covered) (run : RecordedRun start before confirmed known acknowledged c)
    (unforced : c.log.storage.trace.filter Event.forced = start.log.storage.trace.filter Event.forced) :
    acknowledged ≤ covered ∧ (c.runtime.state.instanceState = .healthy → start.runtime.state.instanceState = .healthy ∧
      c.state.durableFrontier = start.state.durableFrontier) := by
  have reached : ∀ {known acknowledged c}, RecordedRun start before confirmed known acknowledged c →
      start.log.storage.trace <:+ c.log.storage.trace ∧ ∃ past, Grounded c ∧ Journaled databaseUuid mark past c := by
    intro known acknowledged c run
    obtain ⟨past,lives⟩ := run.lives
    exact ⟨run.onward grounded,_,journaled.run grounded lives⟩
  have between : ∀ {first middle last : List Event}, first <:+ middle → middle <:+ last →
      last.filter Event.forced = first.filter Event.forced →
      middle.filter Event.forced = first.filter Event.forced ∧ last.filter Event.forced = middle.filter Event.forced := by
    intro first middle last early late same
    have left := early.filter Event.forced
    have right := (late.filter Event.forced).length_le
    rw [same] at right
    have still := left.eq_of_length_le right
    exact ⟨still.symm,by rw [same,still]⟩
  induction run with
  | start => exact ⟨low,fun healthy => ⟨healthy,rfl⟩⟩
  | @answered _ _ c next request _ earlier ran ih =>
    obtain ⟨since,past,grounded,journaled⟩ := reached earlier
    have outcome := (commit_outcome grounded.sound.books grounded.sound.identified grounded.sound.ordered _ _).of_ok ran
    obtain ⟨first,last⟩ := between since outcome.onward unforced
    obtain ⟨bounded,still⟩ := ih first
    obtain ⟨healthy,frontier,settled⟩ := outcome.unforced grounded last
    obtain ⟨begun,same⟩ := still healthy
    refine ⟨?_,fun _ => ⟨begun,frontier.trans same⟩⟩
    split
    · rename_i synced
      rw [settled synced,same,here begun]
      exact Nat.max_le.mpr ⟨bounded,Nat.le_refl _⟩
    · exact bounded
  | @failed _ _ c next request _ halt earlier ran ih =>
    obtain ⟨since,past,grounded,journaled⟩ := reached earlier
    have outcome := (commit_outcome grounded.sound.books grounded.sound.identified grounded.sound.ordered _ _).of_error ran
    obtain ⟨bounded,still⟩ := ih (between since outcome.onward unforced).1
    refine ⟨bounded,fun healthy => ?_⟩
    rcases outcome.took with ⟨index,-,-⟩ | ⟨_,_,_,_,_,-,-,-,-,-,-,-,answered⟩
    · obtain ⟨before,state,-⟩ := (outcome.idles grounded journaled index).1.still healthy
      rw [state]
      exact still before
    · cases (answered healthy).1
  | elsewhere earlier later ih =>
    obtain ⟨bounded,still⟩ := ih unforced
    exact ⟨bounded,fun healthy => still (later.healthy healthy)⟩
  | cleaned earlier clean ih =>
    obtain ⟨since,-⟩ := reached earlier
    obtain ⟨bounded,still⟩ := ih (between since clean.onward unforced).1
    exact ⟨bounded,still⟩
  | facing _ _ ih => exact ih unforced

end forcing

section lineage
variable [Crc32c] {databaseUuid : Uuid} {known held : List Transaction} {acknowledged : Nat} {start image final : Storage}
  {inventory : ManagedInventory} {opened : CommitCoordinator} {frontier : DurableFrontier} {older last : Index}
  {chain : List (EncodedDescriptor × TransactionDescriptor)}

-- Everything a database can be found as, with the transactions in its index and the largest sequence for which a sync
-- was acknowledged: created, or left by a crash of an instance that had it open. A crash keeps every batch that was
-- committed with a sync.
inductive Lineage (databaseUuid : Uuid) : List Transaction → Nat → Storage → Prop
  | created : databaseUuid.isZero = false → Lineage databaseUuid [] 0 (createdDatabase databaseUuid)
  | crashed {known held later : List Transaction} {acknowledged confirmed synced : Nat} {start final image : Storage}
      {inventory : ManagedInventory} {opened indexed filed : CommitCoordinator} :
      Lineage databaseUuid known acknowledged start →
      inspectFiles (currentFormat databaseUuid) start.vlog.files = .ok inventory →
      openPrepared (currentFormat databaseUuid) inventory start = .ok opened final →
      RecordedRun opened (known.take opened.state.headSeq) acknowledged held confirmed indexed →
      RecordedRun indexed held confirmed later synced filed →
      filed.log.storage.trace.filter Event.forced = indexed.log.storage.trace.filter Event.forced →
      CrashImage indexed filed image → Lineage databaseUuid held synced image

-- A database as the history of the transactions in its index, none of which is undone in front of what was acknowledged.
structure Recalled (databaseUuid : Uuid) (known : List Transaction) (acknowledged : Nat) (image : Storage)
    (inventory : ManagedInventory) (frontier : DurableFrontier) (older last : Index)
    (chain : List (EncodedDescriptor × TransactionDescriptor)) : Prop where
  torn : TornImage (currentFormat databaseUuid) inventory image frontier known.length (chain.map Prod.snd)
  head : image.index.system[headSeqKey]? = some (encodeHeadSeq known.length)
  covered : acknowledged ≤ frontier.durableSeq
  listed : Relisted (currentFormat databaseUuid) image.vlog.files image.vlog
  history : Transacted older chain last
  user : last.user = image.index.user
  transaction : last.transaction = image.index.transaction
  below : frontier.durableSeq + 1 < 18446744073709551616 → older.transaction.Below (frontier.durableSeq + 1)
  points : ∀ count ≤ chain.length, ∃ accepted written,
    accepted = ((chain.map Prod.snd).take count).foldl Accepted.take (.start frontier) ∧
    accepted.seq = frontier.durableSeq + count ∧ Knows known accepted written ∧
    (∀ stop ∈ accepted.vlogEnd, 64 ≤ stop.offset) ∧
    (ReachedEnd image.vlog.files accepted.vlogEnd →
      AcceptsAll image.vlog (.start frontier) ((chain.map Prod.snd).take count))
  stands : ∀ count target final, Salvaged (currentFormat databaseUuid) image.vlog frontier older chain count target final →
    ∃ written, Knows known (.start target) written ∧
      Serves final.vlog final.index (UserMap.execute (fun _ => none) written)

theorem createdDatabase_recalled (present : databaseUuid.isZero = false) :
    ∃ last, Recalled databaseUuid [] 0 (createdDatabase databaseUuid) ⟨[]⟩ ⟨0,0,none⟩ last last [] := by
  have atRest := createdDatabase_atRest present
  have rested := atRest.rested
  have listed : Relisted (currentFormat databaseUuid) (createdDatabase databaseUuid).vlog.files
      (createdDatabase databaseUuid).vlog := by
    refine ⟨rfl,rfl,rfl,fun fileId => ?_⟩
    simp [createdDatabase,FileSet.empty]
  have begun : Knows [] ⟨0,0,none⟩ [] := ⟨Nat.le_refl _,.nothing,rfl⟩
  have journal : Journal (fun _ _ _ => True) (createdDatabase databaseUuid).index (.start ⟨0,0,none⟩) []
      (.start ⟨0,0,none⟩) := .start trivial rested.below
  refine ⟨(createdDatabase databaseUuid).index,⟨atRest.honest,rested.identity,rfl,
    rested.stored.frontierStored rested.bound,⟨_,rested.stored.head,decodeHeadSeq_encode rested.bound⟩,Nat.le_refl _,
    rested.idle,atRest.inspected,⟨_,(RecoveryTopology.analyze_ok (inspectFiles_lists atRest.inspected)).mpr ⟨trivial,rfl⟩⟩,
    atRest.boundary _ listed,journal.described⟩,rested.stored.head,Nat.le_refl _,listed,.nil _,rfl,rfl,rested.below,?_,?_⟩
  · intro count inside
    obtain rfl := Nat.le_zero.mp inside
    exact ⟨_,[],rfl,rfl,begun,fun _ none => (by cases none),fun _ => trivial⟩
  · intro count target final salvaged
    obtain rfl := Nat.le_zero.mp salvaged.inside
    obtain ⟨point,reached,user,-⟩ := salvaged.point
    obtain rfl := reached.nil_eq
    refine ⟨[],?_,(createdDatabase_serves final.vlog).same user⟩
    rw [salvaged.accepted]
    exact begun

-- What a database is opened as: it begins with the transactions up to the one that the recovery arrived at.
theorem Recalled.opens (recalled : Recalled databaseUuid known acknowledged start inventory frontier older last chain) :
    ∃ opened final, openPrepared (currentFormat databaseUuid) inventory start = .ok opened final ∧ Grounded opened ∧
      opened.log.storage = final.reopened ∧ (∃ mark, Journaled databaseUuid mark [] opened) ∧
      Remembered (known.take opened.state.headSeq) acknowledged opened ∧ opened.runtime.state.instanceState = .healthy ∧
      ∀ fileId : Nat, opened.log.storage.vlog.files[fileId]? =
        acceptedContents start.vlog.files opened.state.headVlogEnd fileId := by
  obtain ⟨opened,final,count,target,ran,salvaged,founded,reopened,healthy,state⟩ :=
    recalled.torn.opens recalled.listed recalled.history recalled.user recalled.transaction recalled.below
  obtain ⟨written,knows,serves⟩ := recalled.stands count target final salvaged
  have seq := salvaged.seq
  have covered := recalled.covered
  have kept := salvaged.settled.kept salvaged.rested serves founded reopened healthy state knows.cut
  refine ⟨opened,final,ran,founded,reopened,
    ⟨_,salvaged.settled.journaled salvaged.rested serves founded reopened healthy state⟩,?_,healthy,fun fileId => ?_⟩
  · rw [state]
    exact ⟨target,[],_,kept,by rw [List.length_take]; exact (Nat.min_eq_left knows.inside).symm,by omega⟩
  · rw [reopened,state]
    exact salvaged.files fileId

-- What a crash leaves of an instance that remembers its history.
theorem Remembered.recalled {held later : List Transaction} {confirmed synced : Nat} {c indexed filed : CommitCoordinator}
    {mark : Mark} {late : List Attempt} (remembered : Remembered known acknowledged c) (founded : Grounded c)
    (journaled : Journaled databaseUuid mark late c) (run : RecordedRun c known acknowledged held confirmed indexed)
    (further : RecordedRun indexed held confirmed later synced filed)
    (unforced : filed.log.storage.trace.filter Event.forced = indexed.log.storage.trace.filter Event.forced)
    (crashed : CrashImage indexed filed image) :
    ∃ inventory frontier older last chain,
      Recalled databaseUuid held synced image inventory frontier older last chain := by
  obtain ⟨past,lives⟩ := run.lives
  obtain ⟨more,onward⟩ := further.lives
  obtain ⟨grounded,settled⟩ := journaled.run founded lives
  obtain ⟨frontier,chain,head,kept,whole,low⟩ := (run.remembered founded journaled remembered).kept
  obtain ⟨covered,-⟩ := further.unforced grounded settled (fun healthy => by rw [(kept.here healthy).1]) low unforced
  obtain ⟨inventory,torn⟩ := kept.torn settled grounded onward crashed
  obtain ⟨older,last,history,user,transaction,below,stands⟩ := kept.stands settled grounded onward crashed
  have stored := kept.stored.head
  rw [whole] at torn stored
  exact ⟨inventory,frontier,older,last,chain,torn,by rw [crashed.index]; exact stored,covered,
    crashed.relisted grounded settled onward,history,user,transaction,below,
    fun count inside => kept.told (grounded.run onward.instanceRun).2 crashed inside,stands⟩

theorem Lineage.recalled (lineage : Lineage databaseUuid known acknowledged image) :
    ∃ inventory frontier older last chain,
      Recalled databaseUuid known acknowledged image inventory frontier older last chain := by
  induction lineage with
  | created present =>
    obtain ⟨last,recalled⟩ := createdDatabase_recalled present
    exact ⟨_,_,_,_,_,recalled⟩
  | @crashed known held later acknowledged confirmed synced start final image inventory opened indexed filed _ inspected ran
      run further unforced crashed ih =>
    obtain ⟨_,_,_,_,_,recalled⟩ := ih
    obtain rfl := Except.ok.inj (recalled.torn.inspected.symm.trans inspected)
    obtain ⟨again,_,opens,founded,-,⟨mark,journaled⟩,remembered,-⟩ := recalled.opens
    have same := opens.symm.trans ran
    simp only [EStateM.Result.ok.injEq] at same
    obtain ⟨rfl,rfl⟩ := same
    exact remembered.recalled founded journaled run further unforced crashed

-- The envelopes of the first transactions are in the image just where it reaches the end of the last one.
theorem Recalled.reaches (recalled : Recalled databaseUuid known acknowledged image inventory frontier older last chain)
    {count : Nat} (inside : count ≤ chain.length) :
    (∀ transaction ∈ known.take (frontier.durableSeq + count), transaction.txMeta.InFiles image.vlog.files) ↔
      ReachedEnd image.vlog.files (((chain.map Prod.snd).take count).foldl Accepted.take (.start frontier)).vlogEnd := by
  obtain ⟨accepted,written,same,seq,knows,room,-⟩ := recalled.points count inside
  have sized : ∀ (fileId : Nat) (contents : Bytes), image.vlog.files[fileId]? = some contents →
      contents.length ≤ 4294967296 := fun fileId contents found =>
    (inspectFile_ok (inspectFiles_inspectable.mp ⟨inventory,recalled.torn.inspected⟩ fileId contents found)).2.2.1
  have valid := knows.arrives.valid
  have arrived : (∀ txMeta ∈ _, TxMeta.InFiles image.vlog.files txMeta) ↔ _ := knows.arrives.inFiles
  rw [List.forall_mem_map,seq] at arrived
  rw [arrived,←same,ReachedEnd.iff_inFiles sized fun position there => ⟨(valid position there).1,
    Nat.lt_of_lt_of_le (by decide) (room position there),(valid position there).2⟩]

-- What an image is recovered to: the first `n` of its transactions, and nothing of the others.
structure RecoversPrefix (known : List Transaction) (acknowledged : Nat) (image : Storage) (recovered : RecoveredState)
    (final : Storage) (n : Nat) : Prop where
  head : recovered.headSeq = n
  durable : recovered.durableFrontier.durableSeq = n
  headStored : final.index.system[headSeqKey]? = some (encodeHeadSeq n)
  frontierStored : FrontierStored final.index recovered.durableFrontier
  acknowledged : acknowledged ≤ n
  inside : n ≤ known.length
  longest : ∀ m ≤ known.length, (∀ transaction ∈ known.take m, transaction.txMeta.InFiles image.vlog.files) ↔ m ≤ n
  serves : Serves final.vlog final.index
    (UserMap.execute (fun _ => none) ((known.take n).flatMap Transaction.operations))
  latest : NamesLatest ((known.take n).map Transaction.txMeta) recovered.durableFrontier
  files : ∀ fileId : Nat, final.vlog.files[fileId]? =
    acceptedContents image.vlog.files recovered.durableFrontier.durableVlogEnd fileId
  below : n + 1 < 18446744073709551616 → final.index.transaction.Below (n + 1)
  idle : final.index.system[recoveryStateKey]? = none

theorem Salvaged.recoversPrefix {count : Nat} {recovered : RecoveredState}
    (recalled : Recalled databaseUuid known acknowledged image inventory frontier older last chain)
    (salvaged : Salvaged (currentFormat databaseUuid) image.vlog frontier older chain count recovered.durableFrontier final)
    (head : recovered.headSeq = recovered.durableFrontier.durableSeq) :
    RecoversPrefix known acknowledged image recovered final recovered.durableFrontier.durableSeq := by
  obtain ⟨written,knows,serves⟩ := recalled.stands _ _ _ salvaged
  have seq := salvaged.seq
  have covered := recalled.covered
  have length := recalled.torn.described.length
  rw [List.length_map] at length
  obtain ⟨headStored,-,frontierStored⟩ := salvaged.rested.decodes
  refine ⟨head,rfl,headStored,frontierStored,by omega,knows.inside,
    fun m bound => ⟨fun whole => ?_,fun low transaction member => ?_⟩,?_,
    knows.arrives.latest,salvaged.files,salvaged.rested.below,salvaged.rested.idle⟩
  · by_contra more
    have split : frontier.durableSeq + (m - frontier.durableSeq) = m := by omega
    have inside : m - frontier.durableSeq ≤ chain.length := by omega
    rw [←split,recalled.reaches inside] at whole
    obtain ⟨accepted,_,rfl,-,-,-,accepts⟩ := recalled.points _ inside
    have kept := (salvaged.longest _ inside).mp (accepts whole)
    omega
  · refine (recalled.reaches salvaged.inside).mpr ?_ transaction ?_
    · rw [←salvaged.accepted]
      exact salvaged.reached
    · rw [←seq]
      rw [←Nat.min_eq_left low,←List.take_take] at member
      exact List.mem_of_mem_take member
  · rw [knows.written] at serves
    exact serves

-- What a recovery makes of an image.
def Restored (databaseUuid : Uuid) (image : Storage) (recovered : RecoveredState) (final : Storage) : Prop :=
  ∃ inventory plan, inspectFiles (currentFormat databaseUuid) image.vlog.files = .ok inventory ∧
    analyzeRecovery (currentFormat databaseUuid) inventory image = .ok plan image ∧
    executeRecovery (currentFormat databaseUuid) plan image = .ok recovered final

theorem Recalled.recovers (recalled : Recalled databaseUuid known acknowledged image inventory frontier older last chain) :
    ∃ recovered final n, Restored databaseUuid image recovered final ∧
      RecoversPrefix known acknowledged image recovered final n := by
  obtain ⟨plan,analyzed,executes⟩ := recalled.torn.recovers recalled.listed.registered recalled.listed.databaseUuid
    recalled.history recalled.user recalled.transaction recalled.below
  obtain ⟨recovered,final,executed,count,head,salvaged⟩ := executes.returns
  exact ⟨recovered,final,_,⟨inventory,plan,recalled.torn.inspected,analyzed,executed⟩,salvaged.recoversPrefix recalled head⟩

-- What is known of an instance that was opened.
theorem Lineage.opens (lineage : Lineage databaseUuid known acknowledged start)
    (inspected : inspectFiles (currentFormat databaseUuid) start.vlog.files = .ok inventory)
    (ran : openPrepared (currentFormat databaseUuid) inventory start = .ok opened final) :
    Grounded opened ∧ (∃ mark, Journaled databaseUuid mark [] opened) ∧
      Remembered (known.take opened.state.headSeq) acknowledged opened ∧ opened.log.storage = final.reopened ∧
      opened.runtime.state.instanceState = .healthy ∧ ∀ fileId : Nat, opened.log.storage.vlog.files[fileId]? =
        acceptedContents start.vlog.files opened.state.headVlogEnd fileId := by
  obtain ⟨_,_,_,_,_,recalled⟩ := lineage.recalled
  obtain rfl := Except.ok.inj (recalled.torn.inspected.symm.trans inspected)
  obtain ⟨again,_,opens,grounded,reopened,journaled,remembered,healthy,files⟩ := recalled.opens
  have same := opens.symm.trans ran
  simp only [EStateM.Result.ok.injEq] at same
  obtain ⟨rfl,rfl⟩ := same
  exact ⟨grounded,journaled,remembered,reopened,healthy,files⟩

-- Whenever a frontier goes to the index, it is to be synced, every byte in front of its end is covered by a sync and every
-- file that holds one is linked, it names the last envelope among the transactions that it covers and the end of that
-- one, and no frontier before it was further.
theorem durability_ordered {past : List Attempt} {c : CommitCoordinator} {later earlier : List Event}
    {batch : IndexAtomicBatch} {mode : IndexCommitMode} {encoded : Bytes}
    (lineage : Lineage databaseUuid known acknowledged start)
    (inspected : inspectFiles (currentFormat databaseUuid) start.vlog.files = .ok inventory)
    (ran : openPrepared (currentFormat databaseUuid) inventory start = .ok opened final) (run : LiveRun opened past c)
    (handed : c.log.storage.trace = later ++ .submitted batch mode :: earlier)
    (carried : .putInternal .system durableFrontierKey encoded ∈ batch) :
    ∃ frontier, DurableFrontier.decode encoded = .ok frontier ∧ mode = .syncAll ∧
      Event.Upholds earlier frontier.durableVlogEnd ∧
      NamesLatest ((known.take opened.state.headSeq).map Transaction.txMeta ++ Event.transactions earlier ++
        batch.transactions) frontier ∧
      ∀ event ∈ earlier, ∀ before, event.Sends before → frontier.Reaches before := by
  obtain ⟨grounded,⟨mark,journaled⟩,remembered,reopened,healthy,-⟩ := lineage.opens inspected ran
  obtain ⟨frontier,chain,head,kept,whole,-⟩ := remembered.kept
  obtain ⟨arrives,-⟩ := kept.serves whole
  obtain ⟨-,rfl⟩ := kept.here healthy
  have ordered := ((Ordered.found reopened).run grounded journaled run).grown
  have counted := ((Counted.found reopened arrives).run grounded run).grown
  rw [handed] at ordered counted
  obtain ⟨sent,decoded,promised⟩ := (ordered.fits batch mode rfl).promised encoded carried
  exact ⟨sent,decoded,promised.flushed,promised.upheld,
    (counted.fits sent ⟨batch,mode,encoded,rfl,carried,decoded⟩ batch mode rfl).latest,promised.ordered⟩

end lineage

theorem newlyTaken_operations (request : WriteRequest) (before after : List Event) :
    (newlyTaken request before after).map Transaction.operations =
      List.replicate ((Event.transactions after).length - (Event.transactions before).length) request.operations := by
  rw [newlyTaken,List.map_map,←List.length_drop]
  exact List.map_const'

theorem firstInstance_answered {request : WriteRequest} {c : CommitCoordinator}
    (there : firstInstance [request] = some c) : ∃ opened final,
    @openPrepared castagnoli (currentFormat oneUuid) ⟨[]⟩ (@createdDatabase castagnoli oneUuid) = .ok opened final ∧
    @Grounded castagnoli opened ∧ (∃ mark, @Journaled castagnoli oneUuid mark [] opened) ∧
    Event.transactions opened.log.storage.trace = [] ∧
    @commit castagnoli request (calmAround oneUuid) opened = .ok () c := by
  have present : oneUuid.isZero = false := by decide
  obtain ⟨_,recalled⟩ := @createdDatabase_recalled castagnoli oneUuid present
  obtain ⟨opened,final,ran,grounded,reopened,journaled,-,-⟩ := @Recalled.opens castagnoli _ _ _ _ _ _ _ _ _ recalled
  unfold firstInstance at there
  rw [show @openPrepared castagnoli (currentFormat oneUuid) ⟨[]⟩ (@createdDatabase castagnoli oneUuid) = .ok opened final
    from ran] at there
  exact ⟨opened,final,ran,grounded,journaled,by rw [reopened,Event.transactions_reopened],answerAll_single there⟩

theorem createdDatabase_lineage : @Lineage castagnoli oneUuid [] 0 (@createdDatabase castagnoli oneUuid) ∧
    @inspectFiles castagnoli (currentFormat oneUuid) (@createdDatabase castagnoli oneUuid).vlog.files = .ok ⟨[]⟩ := by
  have present : oneUuid.isZero = false := by decide
  exact ⟨@Lineage.created castagnoli oneUuid present,
    @AtRest.inspected castagnoli _ _ _ _ _ (@createdDatabase_atRest castagnoli oneUuid present)⟩

-- A put, one with a sync behind it, and a third that the crash cuts.
theorem Puts.lineage {begun moment c : CommitCoordinator} (puts : Puts true begun moment c) :
    ∃ known, @Lineage castagnoli oneUuid known 2 (c.log.storage.cut 600) ∧
      known.map Transaction.operations = [[.put [1] [2]],[.put [3] [4]],[.put [5] [6]]] ∧
      ∃ transaction ∈ known, transaction.txMeta.transactionKind = .vlogEnvelope ∧
        transaction.txMeta.vlogBegin = ⟨0,542⟩ ∧ transaction.txMeta.vlogEnd = ⟨0,781⟩ := by
  have counts : (threePuts true).map (fun states => ((Event.transactions states.1.log.storage.trace).length,
      (Event.transactions states.2.1.log.storage.trace).length,(Event.transactions states.2.2.log.storage.trace).length)) =
      some (1,2,3) := by decide +kernel
  have ends : (threePuts true).map (fun states => ((Event.transactions states.2.2.log.storage.trace).drop
      (Event.transactions states.2.1.log.storage.trace).length).map
        (fun txMeta => (txMeta.transactionKind,txMeta.vlogBegin,txMeta.vlogEnd))) =
      some [(.vlogEnvelope,⟨0,542⟩,⟨0,781⟩)] := by decide +kernel
  rw [puts.answered] at counts ends
  simp only [Option.map_some,Option.some.injEq,Prod.mk.injEq] at counts ends
  obtain ⟨one,two,three⟩ := counts
  obtain ⟨opened,final,ran,grounded,⟨mark,journaled⟩,none,answered⟩ := firstInstance_answered puts.first
  obtain ⟨created,inspected⟩ := createdDatabase_lineage
  have run : @RecordedRun castagnoli opened [] 0 _ _ begun :=
    @RecordedRun.answered castagnoli _ _ _ _ _ _ _ _ _ (@RecordedRun.start castagnoli opened [] 0) answered
  have run := @RecordedRun.answered castagnoli _ _ _ _ _ _ _ _ _ run puts.second
  have run := @RecordedRun.answered castagnoli _ _ _ _ _ _ _ _ _ run puts.third
  obtain ⟨past,lives⟩ := @RecordedRun.lives castagnoli _ _ _ _ _ _ run
  have settled := (@Journaled.run castagnoli _ _ _ _ _ _ grounded journaled lives).1
  have run : @RecordedRun castagnoli opened [] 0 _ (max 0 moment.state.headSeq) c := run
  rw [show max 0 moment.state.headSeq = 2 by rw [puts.middle]; rfl] at run
  have nothing : (([] : List Transaction).take opened.state.headSeq) = [] := List.take_nil
  rw [←nothing] at run
  refine ⟨_,@Lineage.crashed castagnoli _ _ _ _ _ _ _ _ _ _ _ _ _ _ created inspected ran run
    (@RecordedRun.start castagnoli c _ 2) rfl (puts.crashed settled),?_,?_⟩
  · simp only [List.map_append,newlyTaken_operations,none,one,two,three,List.length_nil,List.take_nil,List.map_nil]
    rfl
  · obtain ⟨txMeta,member,same⟩ : ∃ txMeta ∈ (Event.transactions c.log.storage.trace).drop
        (Event.transactions moment.log.storage.trace).length,
        (txMeta.transactionKind,txMeta.vlogBegin,txMeta.vlogEnd) = (.vlogEnvelope,⟨0,542⟩,⟨0,781⟩) := by
      rw [←List.mem_map,ends]
      exact List.mem_singleton_self _
    simp only [Prod.mk.injEq] at same
    refine ⟨⟨txMeta,_⟩,List.mem_append_right _ (List.mem_map.mpr ⟨txMeta,member,rfl⟩),same.1,same.2.1,same.2.2⟩

-- The frontier of a put with a sync behind one without.
theorem durability_ordered_put : ∃ c later batch mode earlier encoded,
    firstInstance [.nonempty (onePut 1 2 false),.nonempty (onePut 3 4 true)] = some c ∧
    c.log.storage.trace = later ++ .submitted batch mode :: earlier ∧
    .putInternal .system durableFrontierKey encoded ∈ batch ∧
    @DurableFrontier.decode castagnoli encoded = .ok ⟨2,2,some ⟨0,542⟩⟩ ∧ mode = .syncAll ∧
    Event.Upholds earlier (some ⟨0,542⟩) ∧
    NamesLatest (Event.transactions earlier ++ batch.transactions) ⟨2,2,some ⟨0,542⟩⟩ := by
  obtain ⟨c,later,batch,earlier,encoded,answered,handed,promised,decoded⟩ := syncedPut_sends
  obtain ⟨opened,final,ran,-,run⟩ := firstInstance_lives answered
  obtain ⟨created,inspected⟩ := createdDatabase_lineage
  obtain ⟨frontier,again,flushed,upheld,latest,-⟩ := @durability_ordered castagnoli _ _ _ _ _ _ _ _ _ _ _ _ _ _
    created inspected ran run handed promised
  obtain rfl := Except.ok.inj (again.symm.trans decoded)
  rw [List.take_nil] at latest
  exact ⟨c,later,batch,.syncAll,earlier,encoded,answered,handed,promised,decoded,flushed,upheld,latest⟩

end ExpirKv
