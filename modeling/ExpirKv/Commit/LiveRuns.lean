import ExpirKv.CleanupFacts
import ExpirKv.Commit.Grounding

namespace ExpirKv
open VLogGeometry Storage ValueLog CommitCoordinator

-- What a request writes.
def WriteRequest.operations : WriteRequest → List LogicalOperation
  | .nonempty write => write.operations
  | .empty _ => []

-- A request that was made, and whether it was answered.
structure Attempt where
  operations : List LogicalOperation
  answered : Bool

def answeredOperations (past : List Attempt) : List LogicalOperation :=
  (past.filter Attempt.answered).flatMap Attempt.operations

theorem answeredOperations_concat (past : List Attempt) (operations : List LogicalOperation) (answered : Bool) :
    answeredOperations (past ++ [⟨operations,answered⟩]) =
      answeredOperations past ++ if answered = true then operations else [] := by
  cases answered <;> simp [answeredOperations]

section submitting
variable [Crc32c] {c next : CommitCoordinator} {request : WriteRequest} {around : Surroundings} {appended : ValueLog}
  {submission : Submission} {map : UserMap}

omit [Crc32c] in
theorem apply_putSystem_user (index : Index) (key value : Bytes) :
    (index.apply [.putInternal .system key value]).user = index.user := rfl

theorem addFrontier_user {batch result : IndexAtomicBatch} {frontier : Option DurableFrontier} {operation : Operation}
    {framed : Bool} (added : addFrontier batch frontier operation framed = .ok result) (index : Index) :
    (index.apply result).user = (index.apply batch).user := by
  cases frontier with
  | none =>
    obtain rfl := Except.ok.inj added
    rfl
  | some frontier =>
    obtain ⟨-,encoded,-,rfl⟩ := addFrontierToBatch_ok.mp added
    rw [Index.apply_append,apply_putSystem_user]

-- The entries a request leaves stand for the map with its operations executed.
theorem Submits.serves (grounded : Grounded c) (healthy : c.runtime.state.instanceState = .healthy)
    (submits : Submits c around request appended submission) (serves : Serves c.log.storage.vlog c.log.storage.index map) :
    Serves appended.storage.vlog (c.log.storage.index.apply submission.batch) (map.execute request.operations) := by
  have accounted := grounded.sound.accounted healthy
  cases submits with
  | @nonempty write prepared batch _ ran added written =>
    obtain ⟨lodged,carried⟩ := (grounded.footed healthy).lodges grounded.sound.ready accounted.aligned.healthy
      grounded.identity ran written
    obtain ⟨descriptor,prepares⟩ := CommitCoordinator.prepare_ok ran
    have layout := lodged.grown.geometry.trans grounded.layout
    have later := serves.extends grounded.layout lodged.grown
    refine (later.committed prepares layout (fun envelope present => (carried envelope present).1)).same ?_
    exact addFrontier_user added _
  | barrier differ built =>
    obtain ⟨-,-,encoded,-,rfl⟩ := frontierOnlyBatch_ok.mp built
    exact serves.same (apply_putSystem_user _ _ _)

end submitting

section outcomes
variable [Crc32c] {c next : CommitCoordinator} {request : WriteRequest} {around : Surroundings} {map : UserMap}
  {ended : Option Halt}

omit [Crc32c] in
theorem RuntimeControl.rank_poisoned {control : RuntimeControl} (latched : stateRank .poisoned ≤ control.rank) :
    control.state.instanceState = .poisoned := by
  rw [RuntimeControl.rank] at latched
  cases state : control.state.instanceState with
  | poisoned => rfl
  | healthy =>
    rw [state] at latched
    cases latched
  | writeStopped =>
    rw [state] at latched
    exact absurd latched (by decide)

omit [Crc32c] in
theorem RuntimeControl.Later.poisoned {before after : RuntimeControl} (later : before.Later after)
    (poisoned : before.state.instanceState = .poisoned) : after.state.instanceState = .poisoned := by
  have rank := later.rank
  rw [RuntimeControl.rank,poisoned] at rank
  exact rank_poisoned rank

-- Whether the failure of a request leaves open what became of it.
def Halt.InDoubt (halt : Halt) : Prop := ∃ error, halt = .failed error ∧ error.writeOutcome = some .commitUnknown

omit [Crc32c] in
theorem indexFailure_unknown (request : WriteRequest) (source : InternalIndexError) (identity : Option (Nat × Uuid)) :
    (indexFailure request ⟨.unknown,source⟩ identity).1.writeOutcome = some .commitUnknown ∧
      (indexFailure request ⟨.unknown,source⟩ identity).2 = .poisoned := by
  cases request with
  | empty sync => exact ⟨rfl,rfl⟩
  | nonempty write =>
    cases identity with
    | none => exact ⟨rfl,rfl⟩
    | some pair => exact ⟨rfl,rfl⟩

-- Otherwise the index reported that it cannot tell, and took all of it.
theorem RequestOutcome.applied {halt : Halt} (outcome : RequestOutcome c request around next (some halt))
    (moved : next.log.storage.index ≠ c.log.storage.index) :
    ∃ appended synced submission token storage, c.Admits ∧ Submits c around request appended submission ∧
      TargetSynced appended submission.targetSeq submission.targetEnd submission.needed token synced ∧
      IndexMoved synced.storage storage ∧ next.log.storage = storage ∧
      storage.index = c.log.storage.index.apply submission.batch ∧
      halt.InDoubt ∧ next.runtime.state.instanceState = .poisoned := by
  cases outcome with
  | notAdmitted _ same => exact absurd (by rw [same]) moved
  | notPrepared _ _ refused => exact absurd (by rw [refused.log]) moved
  | notAppended _ _ _ _ _ failed refused =>
    obtain ⟨⟨flag,frame⟩,-⟩ := failed.frame
    exact absurd (by rw [refused.log]; exact frame.index) moved
  | notSynced _ submits _ failed refused =>
    exact absurd (by rw [refused.log]; exact failed.storage.index.trans submits.index) moved
  | @notIndexed identity appended synced log submission token error storage halt admits submits reached answered settled
      refused =>
    have same : next.log.storage = storage := by rw [refused.log]; exact settled.storage
    have kept : storage.index = synced.storage.index → False := fun kept =>
      moved (by rw [same,kept,reached.index,submits.index])
    cases answered with
    | refused source script => exact absurd rfl kept
    | unknown source script => exact absurd rfl kept
    | landed source script =>
      obtain ⟨unknown,target⟩ := indexFailure_unknown request source identity
      obtain ⟨final,failed,-,-,-,outcome,-⟩ := refused.reported
      have latched := refused.latched
      rw [target,failureState,Option.some_or,Option.getD_some,requiredFailureState_poisoned] at latched
      refine ⟨_,_,_,_,_,admits,submits,reached,(IndexAnswered.landed source script).moved,same,?_,
        ⟨final,failed,outcome.trans unknown⟩,RuntimeControl.rank_poisoned latched⟩
      rw [←submits.index,←reached.index]
      rfl

-- What a request left behind: all of it, or nothing. All of it behind a failure only where the instance is poisoned.
structure Served (c : CommitCoordinator) (request : WriteRequest) (next : CommitCoordinator) (map : UserMap)
    (ended : Option Halt) : Prop where
  answered : ended = none → c.runtime.state.instanceState = .healthy ∧
    Serves next.log.storage.vlog next.log.storage.index (map.execute request.operations)
  failed : ended ≠ none → Serves next.log.storage.vlog next.log.storage.index map ∨
    (c.runtime.state.instanceState = .healthy ∧ next.runtime.state.instanceState = .poisoned ∧
      Serves next.log.storage.vlog next.log.storage.index (map.execute request.operations))

theorem RequestOutcome.served (grounded : Grounded c) (serves : Serves c.log.storage.vlog c.log.storage.index map)
    (outcome : RequestOutcome c request around next ended) : Served c request next map ended := by
  have grown := outcome.grows grounded
  have still : next.log.storage.index.user = c.log.storage.index.user →
      Serves next.log.storage.vlog next.log.storage.index map :=
    fun same => (serves.extends grounded.layout grown).same same
  cases ended with
  | some halt =>
    refine ⟨fun no => (by cases no),fun _ => ?_⟩
    by_cases kept : next.log.storage.index = c.log.storage.index
    · exact .inl (still (by rw [kept]))
    · obtain ⟨appended,synced,submission,token,storage,admits,submits,reached,moved,same,applied,-,poisoned⟩ :=
        outcome.applied kept
      refine .inr ⟨admits.healthy,poisoned,?_⟩
      have vlog : storage.vlog = appended.storage.vlog := moved.vlog.trans reached.vlog
      rw [same,vlog,applied]
      exact submits.serves grounded admits.healthy serves
  | none =>
    refine ⟨fun _ => ?_,fun no => absurd rfl no⟩
    cases outcome with
    | nothing admits asked _ same =>
      refine ⟨admits.healthy,?_⟩
      rw [asked]
      exact still (by rw [same])
    | @indexed appended synced submission token storage stats admits submits reached answered same books =>
      subst same
      refine ⟨admits.healthy,?_⟩
      have vlog : storage.vlog = appended.storage.vlog := answered.moved.vlog.trans reached.vlog
      have index : storage.index = c.log.storage.index.apply submission.batch := by
        rw [←submits.index,←reached.index]
        cases answered with
        | applied script => rfl
      simp only [vlog,index]
      exact submits.serves grounded admits.healthy serves

-- A poisoned instance takes no request.
theorem RequestOutcome.poisoned (outcome : RequestOutcome c request around next ended)
    (poisoned : c.runtime.state.instanceState = .poisoned) : next = c := by
  have refuses : c.Admits → False := by
    intro admits
    rw [admits.healthy] at poisoned
    cases poisoned
  cases outcome with
  | notAdmitted _ same => exact same
  | nothing admits _ _ _ => exact (refuses admits).elim
  | notPrepared admits _ _ => exact (refuses admits).elim
  | notAppended admits _ _ _ _ _ _ => exact (refuses admits).elim
  | notSynced admits _ _ _ _ => exact (refuses admits).elim
  | notIndexed _ admits _ _ _ _ _ => exact (refuses admits).elim
  | indexed admits _ _ _ _ _ => exact (refuses admits).elim

end outcomes

section runs
variable [Crc32c] {start c later : CommitCoordinator} {base map : UserMap} {past more : List Attempt}

-- A batch of the cleanup, however the index answered it: descriptors go that the durable frontier covers. What the
-- environment answers from here on is open.
structure Cleaned (before after : Storage) : Prop where
  batch : ∃ keys answer, (∀ key ∈ keys, ∀ frontier, FrontierStored before.index frontier →
    StableKey frontier.durableSeq key) ∧ IndexAnswered before (removals keys) .buffer answer after

section cleaning
variable {before after : Storage}

theorem Cleaned.moved (clean : Cleaned before after) : IndexMoved before after := by
  obtain ⟨_,_,-,answered⟩ := clean.batch
  exact answered.moved

theorem Cleaned.user (clean : Cleaned before after) : after.index.user = before.index.user := by
  obtain ⟨keys,_,-,answered⟩ := clean.batch
  rcases answered.lands with same | same
  · rw [same]
  · rw [same,removals_user]

theorem Cleaned.system (clean : Cleaned before after) : after.index.system = before.index.system := by
  obtain ⟨keys,_,-,answered⟩ := clean.batch
  rcases answered.lands with same | same
  · rw [same]
  · rw [same,removals_system]

theorem Cleaned.transaction (clean : Cleaned before after) (key : Bytes) :
    after.index.transaction[key]? = before.index.transaction[key]? ∨
      ∀ frontier, FrontierStored before.index frontier → StableKey frontier.durableSeq key := by
  obtain ⟨keys,_,stable,answered⟩ := clean.batch
  rcases answered.lands with same | same
  · exact .inl (by rw [same])
  · rw [same,removals_transaction]
    split
    · rename_i member
      exact .inr (stable key member)
    · exact .inl rfl

end cleaning

-- The same instance with other answers of the index and the files ahead of it.
def CommitCoordinator.facing (c : CommitCoordinator) (script : List Answer) : CommitCoordinator :=
  {c with log := {c.log with storage := {c.log.storage with script}}}

omit [Crc32c] in
theorem CommitCoordinator.facing_moved (c : CommitCoordinator) (script : List Answer) :
    IndexMoved c.log.storage (c.facing script).log.storage := ⟨rfl,[],rfl,by simp⟩

-- The life of an instance with everything that was asked of it.
inductive LiveRun (start : CommitCoordinator) : List Attempt → CommitCoordinator → Prop
  | start : LiveRun start [] start
  | answered {past : List Attempt} {c next : CommitCoordinator} {request : WriteRequest} {around : Surroundings} :
      LiveRun start past c → commit request around c = .ok () next →
      LiveRun start (past ++ [⟨request.operations,true⟩]) next
  | failed {past : List Attempt} {c next : CommitCoordinator} {request : WriteRequest} {around : Surroundings}
      {halt : Halt} : LiveRun start past c → commit request around c = .error halt next →
      LiveRun start (past ++ [⟨request.operations,false⟩]) next
  | elsewhere {past : List Attempt} {c : CommitCoordinator} {runtime : RuntimeControl} : LiveRun start past c →
      c.runtime.Later runtime → LiveRun start past {c with runtime}
  | cleaned {past : List Attempt} {c : CommitCoordinator} {storage : Storage} : LiveRun start past c →
      Cleaned c.log.storage storage → LiveRun start past {c with log := {c.log with storage}}
  | facing {past : List Attempt} {c : CommitCoordinator} (script : List Answer) : LiveRun start past c →
      LiveRun start past (c.facing script)

theorem LiveRun.instanceRun (run : LiveRun start past c) : InstanceRun start c := by
  induction run with
  | start => exact .start
  | answered _ ran ih => exact .step ih (.answered ran)
  | failed _ ran ih => exact .step ih (.failed ran)
  | elsewhere _ later ih => exact .step ih (.elsewhere later)
  | cleaned _ clean ih => exact .step ih (.cleaned clean.moved clean.user clean.system)
  | facing script _ ih => exact .step ih (.cleaned (facing_moved _ script) rfl rfl)

theorem LiveRun.answers {uuid : Uuid} {requests : List WriteRequest} {next : CommitCoordinator} (run : LiveRun start past c)
    (answered : answerAll uuid requests c = some next) :
    LiveRun start (past ++ requests.map (fun request => ⟨request.operations,true⟩)) next := by
  induction requests generalizing past c with
  | nil =>
    obtain rfl := Option.some.inj answered
    rw [List.map_nil,List.append_nil]
    exact run
  | cons request rest ih =>
    rw [answerAll] at answered
    split at answered
    · rename_i here
      rw [List.map_cons,List.append_cons]
      exact ih (run.answered here) answered
    · cases answered

-- What is left open of a life: nothing, or one request that failed and poisoned the instance.
structure InDoubt (past : List Attempt) (c : CommitCoordinator) (doubt : List LogicalOperation) : Prop where
  asked : doubt = [] ∨ c.runtime.state.instanceState = .poisoned ∧
    ∃ attempt ∈ past, attempt.answered = false ∧ attempt.operations = doubt

omit [Crc32c] in
theorem InDoubt.healthy {doubt : List LogicalOperation} (inDoubt : InDoubt past c doubt)
    (healthy : c.runtime.state.instanceState = .healthy) : doubt = [] := by
  rcases inDoubt.asked with empty | ⟨poisoned,-⟩
  · exact empty
  · rw [healthy] at poisoned
    cases poisoned

omit [Crc32c] in
theorem InDoubt.onward {next : CommitCoordinator} {doubt : List LogicalOperation} (inDoubt : InDoubt past c doubt)
    (more : List Attempt)
    (stays : c.runtime.state.instanceState = .poisoned → next.runtime.state.instanceState = .poisoned) :
    InDoubt (past ++ more) next doubt := by
  refine ⟨?_⟩
  rcases inDoubt.asked with empty | ⟨poisoned,attempt,member,failed⟩
  · exact .inl empty
  · exact .inr ⟨stays poisoned,attempt,List.mem_append_left _ member,failed⟩

-- The entries of the index stand for everything that was answered, in order, and for what is in doubt.
theorem LiveRun.serves (grounded : Grounded start) (serves : Serves start.log.storage.vlog start.log.storage.index base)
    (run : LiveRun start past c) :
    Grounded c ∧ ∃ doubt, InDoubt past c doubt ∧
      Serves c.log.storage.vlog c.log.storage.index (base.execute (answeredOperations past ++ doubt)) := by
  induction run with
  | start => exact ⟨grounded,[],⟨.inl rfl⟩,serves⟩
  | @answered past c next request around _ ran ih =>
    obtain ⟨grounded,doubt,inDoubt,serves⟩ := ih
    have outcome := (commit_outcome grounded.sound.books grounded.sound.identified grounded.sound.ordered _ _).of_ok ran
    obtain ⟨healthy,written⟩ := (outcome.served grounded serves).answered rfl
    obtain rfl := inDoubt.healthy healthy
    refine ⟨grounded.outcome outcome,[],⟨.inl rfl⟩,?_⟩
    rw [answeredOperations_concat,if_pos rfl,List.append_nil,UserMap.execute_append]
    rw [List.append_nil] at written
    exact written
  | @failed past c next request around halt _ ran ih =>
    obtain ⟨grounded,doubt,inDoubt,serves⟩ := ih
    have outcome := (commit_outcome grounded.sound.books grounded.sound.identified grounded.sound.ordered _ _).of_error ran
    refine ⟨grounded.outcome outcome,?_⟩
    rw [answeredOperations_concat,if_neg Bool.false_ne_true,List.append_nil]
    rcases (outcome.served grounded serves).failed (Option.some_ne_none _) with same | ⟨healthy,poisoned,whole⟩
    · exact ⟨doubt,inDoubt.onward _ (fun poisoned => by rw [outcome.poisoned poisoned]; exact poisoned),same⟩
    · obtain rfl := inDoubt.healthy healthy
      refine ⟨request.operations,⟨.inr ⟨poisoned,_,List.mem_append_right _ List.mem_cons_self,rfl,rfl⟩⟩,?_⟩
      rw [UserMap.execute_append]
      rw [List.append_nil] at whole
      exact whole
  | @elsewhere past c runtime _ later ih =>
    obtain ⟨grounded,doubt,inDoubt,serves⟩ := ih
    obtain ⟨grounded,-⟩ := grounded.step (.elsewhere later)
    have onward : InDoubt (past ++ []) {c with runtime} doubt := inDoubt.onward [] later.poisoned
    rw [List.append_nil] at onward
    exact ⟨grounded,doubt,onward,serves⟩
  | cleaned _ clean ih =>
    obtain ⟨grounded,doubt,inDoubt,serves⟩ := ih
    have layout := grounded.layout
    obtain ⟨grounded,grown⟩ := grounded.step (.cleaned clean.moved clean.user clean.system)
    exact ⟨grounded,doubt,⟨inDoubt.asked⟩,(serves.extends layout grown).same clean.user⟩
  | facing script _ ih =>
    obtain ⟨grounded,doubt,inDoubt,serves⟩ := ih
    exact ⟨(grounded.step (.cleaned (facing_moved _ script) rfl rfl)).1,doubt,⟨inDoubt.asked⟩,serves⟩

end runs

end ExpirKv
