import ExpirKv.Commit.Ordering
import ExpirKv.Lifecycle.CrashRuns

namespace ExpirKv
open VLogGeometry Storage CommitCoordinator

def WriteRequest.sync : WriteRequest → Bool
  | .nonempty write => write.sync
  | .empty sync => sync

section durable
variable [Crc32c] {c next : CommitCoordinator} {request : WriteRequest} {around : Surroundings} {databaseUuid : Uuid}
  {mark : Mark} {late : List Attempt}

-- A request that asked for a sync and was answered leaves a frontier that covers everything.
theorem RequestOutcome.durable (outcome : RequestOutcome c request around next none) (synced : request.sync = true) :
    next.runtime.state.instanceState = .healthy ∧ next.state.durableFrontier.durableSeq = next.state.headSeq := by
  cases outcome with
  | nothing admits asked covered same =>
    subst same asked
    exact ⟨admits.healthy,(covered synced).symm⟩
  | @indexed appended _ submission _ _ _ admits submits _ _ same _ =>
    subst same
    refine ⟨admits.healthy,?_⟩
    cases submits with
    | @nonempty write prepared batch _ _ _ _ =>
      have asked : write.sync = true := synced
      simp only [CommitState.submission,committedState_headSeq,committedState_durableFrontier,CommitState.frontierOf,asked,
        if_true,Option.getD_some,frontierFromOptional_fields]
    | barrier => simp only [CommitState.barrierSubmission,CommitState.barrier,frontierFromOptional_fields]

-- Where the frontier covers everything, the files are secured up to their end.
theorem Journaled.secured (journaled : Journaled databaseUuid mark late c) (grounded : Grounded c)
    (healthy : c.runtime.state.instanceState = .healthy)
    (covered : c.state.durableFrontier.durableSeq = c.state.headSeq) : Secured c.log.storage c.state.headVlogEnd := by
  obtain ⟨frontier,chain,head,⟨-,-,-,secured,here⟩,-⟩ := journaled.journal
  obtain ⟨rfl,-⟩ := here healthy
  have accounted := grounded.sound.accounted healthy
  rw [←(accounted.settled (by rw [covered]; exact accounted.head)).2]
  exact secured

theorem Journaled.reached (journaled : Journaled databaseUuid mark late c) (grounded : Grounded c)
    (healthy : c.runtime.state.instanceState = .healthy) : ReachedEnd c.log.storage.vlog.files c.state.headVlogEnd := by
  cases ends : c.state.headVlogEnd with
  | none => trivial
  | some position =>
    have packed := journaled.packed healthy
    have room := (grounded.footed healthy).boundary.room grounded.layout position ends
    have place := (grounded.sound.accounted healthy).aligned.position
    rw [ends,Option.getD_some] at place
    rw [place] at packed
    exact ⟨packed.named,packed.small,packed.reached (by omega)⟩

end durable

section surviving
variable [Crc32c] {databaseUuid : Uuid} {start final image : Storage} {asked : List (List Attempt)}
  {inventory : ManagedInventory} {opened moment indexed filed c : CommitCoordinator} {base : UserMap}
  {early late more past : List Attempt} {request : WriteRequest} {around : Surroundings}

theorem Serves.unique {files : FileSet} {index : Index} {one other : UserMap} (first : Serves files index one)
    (second : Serves files index other) : one = other := by
  have single : ∀ key handle one two, files.Stands key handle one → files.Stands key handle two → one = two :=
    fun _ _ _ _ one two => one.single two
  exact Denotes.unique single first second

-- What an open of a storage answers, and what it then serves.
structure Reopens (databaseUuid : Uuid) (image : Storage) (map : UserMap) : Prop where
  opens : ∃ inventory opened final, inspectFiles (currentFormat databaseUuid) image.vlog.files = .ok inventory ∧
    openPrepared (currentFormat databaseUuid) inventory image = .ok opened final ∧
    opened.runtime.state.instanceState = .healthy ∧ opened.state.durableFrontier.durableSeq = opened.state.headSeq ∧
    Serves final.vlog final.index map

theorem Restores.reopens {map : UserMap}
    (restores : Restores databaseUuid start inventory opened final map) : Reopens databaseUuid start map :=
  ⟨⟨inventory,opened,final,restores.inspected,restores.ran,restores.healthy,restores.durable,restores.serves⟩⟩

-- A session of a database, whatever became of the database before.
structure Session (databaseUuid : Uuid) (base : UserMap) (past : List Attempt) (c : CommitCoordinator) : Prop where
  begun : ∃ asked start inventory opened final, Sessions databaseUuid asked start ∧
    inspectFiles (currentFormat databaseUuid) start.vlog.files = .ok inventory ∧
    openPrepared (currentFormat databaseUuid) inventory start = .ok opened final ∧ Serves final.vlog final.index base ∧
    LiveRun opened past c

theorem Session.journaled (session : Session databaseUuid base past c) :
    Grounded c ∧ ∃ accepted, Journaled databaseUuid ⟨base,[],accepted⟩ past c := by
  obtain ⟨asked,start,inventory,opened,final,sessions,inspected,ran,serves,run⟩ := session.begun
  obtain ⟨writes,_,_,_,-,restores⟩ := sessions.restores
  have restores := restores.unique inspected ran
  obtain rfl := restores.serves.unique serves
  obtain ⟨grounded,journaled⟩ := restores.run run
  exact ⟨grounded,_,journaled⟩

theorem Session.answered (session : Session databaseUuid base past c) (ran : commit request around c = .ok () moment) :
    Session databaseUuid base (past ++ [⟨request.operations,true⟩]) moment := by
  obtain ⟨asked,start,inventory,opened,final,sessions,inspected,opens,serves,run⟩ := session.begun
  exact ⟨asked,start,inventory,opened,final,sessions,inspected,opens,serves,run.answered ran⟩

-- A new database behind requests that it answered.
omit [Crc32c] in
theorem firstInstance_session {requests : List WriteRequest} {c : CommitCoordinator}
    (there : firstInstance requests = some c) :
    @Session castagnoli oneUuid (fun _ => none) (requests.map (fun request => ⟨request.operations,true⟩)) c := by
  obtain ⟨opened,final,ran,serves,run⟩ := firstInstance_lives there
  have present : oneUuid.isZero = false := by decide
  have inspected := @AtRest.inspected castagnoli _ _ _ _ _ (@createdDatabase_atRest castagnoli oneUuid present)
  exact @Session.mk castagnoli _ _ _ _
    ⟨[],_,_,opened,final,@Sessions.created castagnoli oneUuid present,inspected,ran,serves,run⟩

omit [Crc32c] in
theorem Puts.session {sync : Bool} {begun moment c : CommitCoordinator} (puts : Puts sync begun moment c) :
    @Session castagnoli oneUuid (fun _ => none) askedPuts moment ∧
      @Session castagnoli oneUuid (fun _ => none) (askedPuts ++ [laterPut]) c := by
  have middle := @Session.answered castagnoli _ _ _ _ _ _ _ (firstInstance_session puts.first) puts.second
  exact ⟨middle,@Session.answered castagnoli _ _ _ _ _ _ _ middle puts.third⟩

theorem Session.crashed (session : Session databaseUuid base early moment)
    (healthy : moment.runtime.state.instanceState = .healthy) (run : LiveRun moment late indexed)
    (further : LiveRun indexed more filed) (crashed : CrashImage indexed filed image)
    (whole : ReachedEnd image.vlog.files moment.state.headVlogEnd) :
    ∃ rest inventory opened final, Explains late rest ∧
      Restores databaseUuid image inventory opened final (base.execute (answeredOperations early ++ rest)) := by
  obtain ⟨grounded,accepted,journaled⟩ := session.journaled
  obtain ⟨founded,later⟩ := (journaled.remarked grounded healthy).run grounded run
  obtain ⟨written,inventory,opened,final,-,survived,restores⟩ := later.crashed founded further crashed
  obtain ⟨rest,rfl,explains⟩ := survived whole
  exact ⟨rest,inventory,opened,final,explains,restores⟩

-- A crash that leaves the files as far as they reached at some moment leaves everything that was answered until then.
theorem reached_writes_survive (session : Session databaseUuid base early moment)
    (healthy : moment.runtime.state.instanceState = .healthy) (run : LiveRun moment late indexed)
    (further : LiveRun indexed more filed) (crashed : CrashImage indexed filed image)
    (whole : ReachedEnd image.vlog.files moment.state.headVlogEnd) :
    ∃ rest, Explains late rest ∧ Reopens databaseUuid image (base.execute (answeredOperations early ++ rest)) := by
  obtain ⟨rest,_,_,_,explains,restores⟩ := session.crashed healthy run further crashed whole
  exact ⟨rest,explains,restores.reopens⟩

omit [Crc32c] in
theorem reached_writes_survive_cut : ∃ begun moment c, Puts false begun moment c ∧ ∃ rest, Explains [laterPut] rest ∧
    @Reopens castagnoli oneUuid (c.log.storage.cut 600)
      (UserMap.execute (fun _ => none) (answeredOperations askedPuts ++ rest)) := by
  obtain ⟨begun,moment,c,answered⟩ := puts false
  obtain ⟨middle,last⟩ := answered.session
  obtain ⟨_,_,-,-,-,-,further⟩ := answered.lives
  have crashed := answered.crashed (@Session.journaled castagnoli _ _ _ _ last).1
  exact ⟨begun,moment,c,answered,@reached_writes_survive castagnoli _ _ _ _ _ _ _ _ _ middle answered.healthy.1 further
    (@LiveRun.start castagnoli c) crashed answered.reaches⟩

-- A write that was answered with a sync survives every later crash, whatever of the index and the files behind it is lost.
theorem synced_writes_survive (session : Session databaseUuid base past c)
    (answered : commit request around c = .ok () moment) (synced : request.sync = true) (run : LiveRun moment late indexed)
    (further : LiveRun indexed more filed) (crashed : CrashImage indexed filed image) :
    ∃ rest, Explains late rest ∧
      Reopens databaseUuid image (base.execute (answeredOperations past ++ request.operations ++ rest)) := by
  obtain ⟨before,-⟩ := session.journaled
  have outcome := (commit_outcome before.sound.books before.sound.identified before.sound.ordered _ _).of_ok answered
  obtain ⟨healthy,covered⟩ := outcome.durable synced
  have there := session.answered answered
  obtain ⟨grounded,_,journaled⟩ := there.journaled
  obtain ⟨founded,later⟩ := journaled.run grounded run
  have secured := (journaled.secured grounded healthy covered).sheltered
    ((run.shelters grounded).trans (further.shelters founded))
  have whole := crashed.reached secured ((later.run founded further).2.inspectable.kept crashed.fronts)
  obtain ⟨rest,_,_,_,explains,restores⟩ := there.crashed healthy run further crashed whole
  rw [answeredOperations_concat,if_pos rfl] at restores
  exact ⟨rest,explains,restores.reopens⟩

-- A put, one with a sync behind it, and then one that the crash cuts.
omit [Crc32c] in
theorem synced_writes_survive_cut : ∃ begun moment c, Puts true begun moment c ∧ ∃ rest, Explains [laterPut] rest ∧
    @Reopens castagnoli oneUuid (c.log.storage.cut 600) (UserMap.execute (fun _ => none)
      (answeredOperations [⟨[.put [1] [2]],true⟩] ++ [.put [3] [4]] ++ rest)) := by
  obtain ⟨begun,moment,c,answered⟩ := puts true
  obtain ⟨_,_,-,-,-,-,further⟩ := answered.lives
  have crashed := answered.crashed (@Session.journaled castagnoli _ _ _ _ answered.session.2).1
  exact ⟨begun,moment,c,answered,@synced_writes_survive castagnoli _ _ _ _ _ _ _ _ _ _ _ _
    (firstInstance_session answered.first) answered.second rfl further (@LiveRun.start castagnoli c) crashed⟩

theorem Session.ordered (session : Session databaseUuid base past c) : Ordered c := by
  obtain ⟨asked,start,inventory,opened,final,sessions,inspected,ran,serves,run⟩ := session.begun
  obtain ⟨_,_,_,_,-,restores⟩ := sessions.restores
  have restores := restores.unique inspected ran
  refine Ordered.run (@Ordered.found _ _ final ?_) restores.grounded restores.journaled run
  obtain ⟨recovered,founded,opens⟩ := openPrepared_founded.of_ok ran
  obtain ⟨stats,same⟩ := founded.opens
  obtain rfl := Except.ok.inj (opens.symm.trans same)
  rfl

-- A frontier goes to the index only behind the syncs that it stands for, and no later one falls back behind it.
theorem frontiers_follow_syncs {later earlier : List Event} {batch : IndexAtomicBatch} {mode : IndexCommitMode}
    (session : Session databaseUuid base past c)
    (handed : c.log.storage.trace = later ++ .submitted batch mode :: earlier) :
    Orderly c.log.storage.vlog earlier batch mode := by
  have grown := session.ordered.grown
  rw [handed] at grown
  exact grown.fits batch mode rfl

-- The batch with a frontier that was handed over to be synced.
def Event.carries (frontier : DurableFrontier) : Event → Option (IndexAtomicBatch × Bytes)
  | .submitted batch .syncAll => batch.findSome? (fun mutation => match mutation with
    | .putInternal .system key encoded =>
      if key = durableFrontierKey ∧ (DurableFrontier.decode encoded).toOption = some frontier then some (batch,encoded)
      else none
    | _ => none)
  | _ => none

theorem Event.carries_some {frontier : DurableFrontier} {event : Event} {batch : IndexAtomicBatch} {encoded : Bytes}
    (found : event.carries frontier = some (batch,encoded)) :
    event = .submitted batch .syncAll ∧ .putInternal .system durableFrontierKey encoded ∈ batch ∧
      DurableFrontier.decode encoded = .ok frontier := by
  unfold Event.carries at found
  split at found
  · obtain ⟨mutation,member,here⟩ := List.exists_of_findSome?_eq_some found
    split at here
    · split at here
      · rename_i same
        simp only [Option.some.injEq,Prod.mk.injEq] at here
        obtain ⟨rfl,rfl⟩ := here
        obtain ⟨rfl,decoded⟩ := same
        exact ⟨rfl,member,ok_of_toOption decoded⟩
      · cases here
    · cases here
  · cases found

omit [Crc32c] in
theorem syncedPut_sends : ∃ c later batch earlier encoded,
    firstInstance [.nonempty (onePut 1 2 false),.nonempty (onePut 3 4 true)] = some c ∧
    c.log.storage.trace = later ++ .submitted batch .syncAll :: earlier ∧
    .putInternal .system durableFrontierKey encoded ∈ batch ∧
    @DurableFrontier.decode castagnoli encoded = .ok ⟨2,2,some ⟨0,542⟩⟩ := by
  have outcome : (firstInstance [.nonempty (onePut 1 2 false),.nonempty (onePut 3 4 true)]).map
      (fun c => (c.log.storage.trace.findSome? (@Event.carries castagnoli ⟨2,2,some ⟨0,542⟩⟩)).isSome) = some true := by
    decide +kernel
  obtain ⟨c,answered,there⟩ := Option.map_eq_some_iff.mp outcome
  obtain ⟨⟨batch,encoded⟩,found⟩ := Option.isSome_iff_exists.mp there
  obtain ⟨event,member,carries⟩ := List.exists_of_findSome?_eq_some found
  obtain ⟨rfl,promised,decoded⟩ := @Event.carries_some castagnoli _ _ _ _ carries
  obtain ⟨later,earlier,handed⟩ := List.mem_iff_append.mp member
  exact ⟨c,later,batch,earlier,encoded,answered,handed,promised,decoded⟩

omit [Crc32c] in
theorem frontiers_follow_syncs_put : ∃ c later batch earlier encoded,
    firstInstance [.nonempty (onePut 1 2 false),.nonempty (onePut 3 4 true)] = some c ∧
    c.log.storage.trace = later ++ .submitted batch .syncAll :: earlier ∧
    .putInternal .system durableFrontierKey encoded ∈ batch ∧
    @DurableFrontier.decode castagnoli encoded = .ok ⟨2,2,some ⟨0,542⟩⟩ ∧
    @Orderly castagnoli c.log.storage.vlog earlier batch .syncAll := by
  obtain ⟨c,later,batch,earlier,encoded,answered,handed,promised,decoded⟩ := syncedPut_sends
  exact ⟨c,later,batch,earlier,encoded,answered,handed,promised,decoded,
    @frontiers_follow_syncs castagnoli _ _ _ _ _ _ _ _ (firstInstance_session answered) handed⟩

-- A write that fails either stops the instance and is reported as in doubt, or nothing of it is ever seen again, in
-- this session or behind any crash. An instance that goes on is where it was before.
theorem failed_writes_reported {halt : Halt} (session : Session databaseUuid base past c)
    (ran : commit request around c = .error halt moment) :
    (moment.runtime.state.instanceState = .healthy → moment.state = c.state ∧ moment.log.writer = c.log.writer ∧
      moment.log.storage.vlog = c.log.storage.vlog ∧ moment.log.storage.index = c.log.storage.index) ∧
    (halt.InDoubt ∧ moment.runtime.state.instanceState = .poisoned ∨
      ∀ late more indexed filed image, LiveRun moment late indexed → LiveRun indexed more filed →
        CrashImage indexed filed image →
        ∃ written, Explains (past ++ late) written ∧ Reopens databaseUuid image (base.execute written)) := by
  obtain ⟨grounded,accepted,journaled⟩ := session.journaled
  have outcome := (commit_outcome grounded.sound.books grounded.sound.identified grounded.sound.ordered _ _).of_error ran
  by_cases kept : moment.log.storage.index = c.log.storage.index
  · obtain ⟨idled,inspectable⟩ := outcome.idles grounded journaled kept
    have again := journaled.idles idled inspectable (rfl : answeredOperations [] = [])
    refine ⟨fun healthy => ?_,.inr fun late more indexed filed image run further crashed => ?_⟩
    · obtain ⟨-,state,writer,vlog⟩ := idled.still healthy
      exact ⟨state,writer,vlog,kept⟩
    · obtain ⟨founded,later⟩ := again.run (grounded.outcome outcome) run
      obtain ⟨written,_,_,_,explains,-,restores⟩ := later.crashed founded further crashed
      rw [List.nil_append,List.append_nil] at explains
      exact ⟨written,explains,restores.reopens⟩
  · obtain ⟨_,_,_,_,_,-,-,-,-,-,-,doubt,poisoned⟩ := outcome.applied kept
    refine ⟨fun healthy => ?_,.inl ⟨doubt,poisoned⟩⟩
    rw [poisoned] at healthy
    cases healthy

-- The random source has failed.
def unnamedAround : Surroundings := ⟨fun _ => none,.error ⟨.other,none⟩,true,true,true,[],[]⟩

omit [Crc32c] in
theorem failed_writes_reported_put : ∃ c halt next, firstInstance [.nonempty (onePut 1 2 false)] = some c ∧
    @commit castagnoli (.nonempty (onePut 3 4 false)) unnamedAround c = .error halt next ∧
    next.runtime.state.instanceState = .healthy ∧
    (next.runtime.state.instanceState = .healthy → next.state = c.state ∧ next.log.writer = c.log.writer ∧
      next.log.storage.vlog = c.log.storage.vlog ∧ next.log.storage.index = c.log.storage.index) ∧
    (halt.InDoubt ∧ next.runtime.state.instanceState = .poisoned ∨
      ∀ late more indexed filed image, @LiveRun castagnoli next late indexed → @LiveRun castagnoli indexed more filed →
        CrashImage indexed filed image →
        ∃ written, Explains ([⟨[.put [1] [2]],true⟩] ++ late) written ∧
          @Reopens castagnoli oneUuid image (UserMap.execute (fun _ => none) written)) := by
  have outcome : (firstInstance [.nonempty (onePut 1 2 false)]).map (fun c =>
      (@commit castagnoli (.nonempty (onePut 3 4 false)) unnamedAround c).casesOn (fun _ _ => none)
        (fun _ next => some next.runtime.state.instanceState)) = some (some .healthy) := by decide +kernel
  obtain ⟨c,answered,there⟩ := Option.map_eq_some_iff.mp outcome
  cases ran : @commit castagnoli (.nonempty (onePut 3 4 false)) unnamedAround c with
  | ok _ next =>
    rw [ran] at there
    cases there
  | error halt next =>
    rw [ran] at there
    exact ⟨c,halt,next,answered,ran,Option.some.inj there,@failed_writes_reported castagnoli _ _ _ _ _ _ _ _
      (firstInstance_session answered) ran⟩

end surviving

end ExpirKv
