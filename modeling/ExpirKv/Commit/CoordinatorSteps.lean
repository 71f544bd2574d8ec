import ExpirKv.Commit.Coordinator

namespace ExpirKv
open VLogGeometry Storage ValueLog CommitCoordinator

section runtime
variable {control : RuntimeControl} {target : InstanceState} {error : StorageError}

-- The two low bits hold the state whatever the epoch has grown to.
theorem decodeState_instanceState (snapshot : StateSnapshot) :
    (decodeState (encodeState snapshot)).instanceState = snapshot.instanceState := by
  obtain ⟨state,epoch⟩ := snapshot
  have rank := stateRank_lt state
  have word : encodeState ⟨state,epoch⟩ % 4 = stateRank state := by
    have aligned : (epoch <<< 2) % 2 ^ 64 = (epoch % 2 ^ 62) <<< 2 := by
      rw [Nat.shiftLeft_eq,Nat.shiftLeft_eq]
      omega
    rw [encodeState,aligned,← Nat.shiftLeft_add_eq_or_of_lt rank,Nat.shiftLeft_eq]
    omega
  have low : encodeState ⟨state,epoch⟩ &&& 3 = stateRank state := by
    rw [show 3 = 2 ^ 2 - 1 from rfl,Nat.and_two_pow_sub_one_eq_mod]
    exact word
  rw [decodeState,low]
  cases state <;> rfl

def RuntimeControl.rank (control : RuntimeControl) : Nat := stateRank control.state.instanceState

theorem RuntimeControl.rank_healthy : control.rank = 0 ↔ control.state.instanceState = .healthy := by
  rw [RuntimeControl.rank]
  cases control.state.instanceState <;> simp [stateRank]

theorem requiredFailureState_rank (target : InstanceState) (error : StorageError) :
    stateRank target ≤ stateRank (requiredFailureState target error) := by
  rw [requiredFailureState]
  split <;> omega

theorem RuntimeControl.latchFailure_rank :
    (control.latchFailure target error).rank = max control.rank (stateRank (requiredFailureState target error)) := by
  simp only [latchFailure,rank]
  split
  · rename_i same
    simp only [isUpgrade,decide_eq_false_iff_not] at same
    omega
  · rename_i upgrade
    simp only [isUpgrade,Bool.not_eq_false,decide_eq_true_eq] at upgrade
    have stored : ∀ first : RuntimeControl,
        ((first.storeState (upgraded control.state (requiredFailureState target error))).publishStats
          (upgraded control.state (requiredFailureState target error)) first.firstLatchedError).state.instanceState =
          requiredFailureState target error := fun _ => decodeState_instanceState _
    rw [stored]
    omega

-- What a latch never gives back.
structure RuntimeControl.Later (before after : RuntimeControl) : Prop where
  rank : before.rank ≤ after.rank
  closed : before.gate.acceptingWrites = false → after.gate.acceptingWrites = false

theorem RuntimeControl.Later.refl (control : RuntimeControl) : control.Later control := ⟨Nat.le_refl _,id⟩

theorem RuntimeControl.Later.trans {before middle after : RuntimeControl} (left : before.Later middle)
    (right : middle.Later after) : before.Later after :=
  ⟨Nat.le_trans left.rank right.rank,fun closed => right.closed (left.closed closed)⟩

theorem RuntimeControl.latchFailure_later : control.Later (control.latchFailure target error) := by
  refine ⟨by rw [latchFailure_rank]; omega,?_⟩
  intro closed
  simp only [latchFailure]
  split
  · exact closed
  · rfl

theorem RuntimeControl.latchAll_later (failures : List (InstanceState × StorageError)) :
    control.Later (control.latchAll failures) := by
  induction failures generalizing control with
  | nil => exact .refl control
  | cons failure rest ih => exact latchFailure_later.trans ih

theorem statsPublished_ordered {coordinator : CommitCoordinator}
    (ordered : coordinator.state.durableFrontier.durableSeq ≤ coordinator.state.headSeq) :
    ∃ stats, coordinator.statsPublished = {coordinator.runtime with stats} := by
  simp only [CommitCoordinator.statsPublished,DbStats.updateCommitState,Nat.not_lt.mpr ordered,if_false]
  exact ⟨_,rfl⟩

end runtime

@[simp] theorem frontierFromOptional_fields (seq vlogSeq : Nat) (vlogEnd : Option VLogPosition) :
    frontierFromOptional seq vlogSeq vlogEnd = ⟨seq,vlogSeq,vlogEnd⟩ := by
  cases vlogEnd with
  | none => cases vlogSeq <;> rfl
  | some position => cases vlogSeq <;> rfl

@[simp] theorem committedState_headSeq (state : CommitState) (commitSeq : Nat) (kind : TransactionKind)
    (targetVlogSeq : Nat) (targetVlogEnd : Option VLogPosition) (frontier : Option DurableFrontier) :
    (committedState state commitSeq kind targetVlogSeq targetVlogEnd frontier).headSeq = commitSeq := by
  cases kind <;> rfl

@[simp] theorem committedState_durableFrontier (state : CommitState) (commitSeq : Nat) (kind : TransactionKind)
    (targetVlogSeq : Nat) (targetVlogEnd : Option VLogPosition) (frontier : Option DurableFrontier) :
    (committedState state commitSeq kind targetVlogSeq targetVlogEnd frontier).durableFrontier =
      frontier.getD state.durableFrontier := by
  cases kind <;> rfl

section calls
variable {c : CommitCoordinator}

@[simp] theorem delivers_onLog {ε α : Type} {x : Eff ValueLog ε α} {post : α → CommitCoordinator → Prop}
    {fail : ε → CommitCoordinator → Prop} :
    Delivers (onLog x) c post fail ↔
      Delivers x c.log (fun value log => post value {c with log}) (fun error log => fail error {c with log}) :=
  delivers_within

@[simp] theorem delivers_onRuntime {ε : Type} {change : RuntimeControl → RuntimeControl}
    {post : Unit → CommitCoordinator → Prop} {fail : ε → CommitCoordinator → Prop} :
    Delivers (onRuntime change) c post fail ↔ post () {c with runtime := change c.runtime} := Iff.rfl

-- A failed request touches neither the log nor the commit state.
structure Declined (before next : CommitCoordinator) (target : InstanceState) (error : StorageError) (halt : Halt) :
    Prop where
  log : next.log = before.log
  state : next.state = before.state
  later : before.runtime.Later next.runtime
  latched : stateRank target ≤ next.runtime.rank
  reported : ∃ final, halt = .failed final ∧ final.kind = error.kind ∧ final.operation = error.operation ∧
    final.protocolStage = error.protocolStage ∧ final.writeOutcome = error.writeOutcome ∧ final.osCode = error.osCode ∧
    final.instanceState = some next.runtime.state.instanceState

-- The state a failure asks for.
def failureState (error : StorageError) (requestedState : Option InstanceState) : InstanceState :=
  requiredFailureState ((requestedState.or error.instanceState).getD .healthy) error

theorem identifiedAs_same (error : StorageError) (identity : Option (Nat × Uuid)) :
    ∃ commitSeq txUuid, identifiedAs error identity = {error with commitSeq,txUuid} := by
  cases identity with
  | none => exact ⟨error.commitSeq,error.txUuid,rfl⟩
  | some identity => exact ⟨_,_,rfl⟩

theorem failStarted_fails {α : Type} (error : StorageError) (requestedState : Option InstanceState)
    (identity : Option (Nat × Uuid)) (around : Surroundings)
    (ordered : c.state.durableFrontier.durableSeq ≤ c.state.headSeq) :
    Delivers (failStarted (α := α) error requestedState identity around) c (fun _ _ => False)
      (fun halt next => Declined c next (failureState error requestedState) error halt) := by
  obtain ⟨commitSeq,txUuid,named⟩ := identifiedAs_same error identity
  unfold failStarted
  rw [named]
  have target : requiredFailureState ((requestedState.or error.instanceState).getD .healthy)
      {error with commitSeq,txUuid} = failureState error requestedState := rfl
  simp only [delivers_bind,delivers_onRuntime]
  rw [target]
  have ends : ∀ (reported : StorageError) (runtime : RuntimeControl), c.runtime.Later runtime →
      stateRank (failureState error requestedState) ≤ runtime.rank →
      reported.kind = error.kind → reported.operation = error.operation →
      reported.protocolStage = error.protocolStage → reported.writeOutcome = error.writeOutcome →
      reported.osCode = error.osCode →
      Delivers (do
        let state := (← get).runtime.state.instanceState
        publishStats
        throw (.failed {reported with retryAdvice := retryForState reported state,instanceState := some state}) :
          Eff CommitCoordinator Halt α) {c with runtime} (fun _ _ => False)
        (fun halt next => Declined c next (failureState error requestedState) error halt) := by
    intro reported runtime later latched kind operation stage outcome osCode
    obtain ⟨stats,published⟩ := @statsPublished_ordered {c with runtime} ordered
    rw [delivers_bind,delivers_get,delivers_bind]
    unfold publishStats
    rw [delivers_modify,delivers_throw,published]
    exact ⟨rfl,rfl,⟨later.rank,later.closed⟩,latched,_,rfl,kind,operation,stage,outcome,osCode,rfl⟩
  let stamped : StorageError := {error with
    commitSeq,txUuid
    retryAdvice := retryForState {error with commitSeq,txUuid} (failureState error requestedState)
    instanceState := some (failureState error requestedState)}
  split
  · simp only [delivers_bind,delivers_onRuntime] at ends ⊢
    refine ends stamped _ ?_ ?_ rfl rfl rfl rfl rfl
    · exact (RuntimeControl.latchAll_later _).trans (RuntimeControl.latchFailure_later.trans
        (RuntimeControl.latchAll_later _))
    · refine Nat.le_trans ?_ (RuntimeControl.latchAll_later _).rank
      rw [RuntimeControl.latchFailure_rank]
      exact Nat.le_trans (requiredFailureState_rank _ _) (Nat.le_max_right _ _)
  · rename_i healthy
    simp only [ne_eq,not_not] at healthy
    simp only [delivers_bind,delivers_onRuntime] at ends ⊢
    refine ends stamped _ ?_ ?_ rfl rfl rfl rfl rfl
    · exact (RuntimeControl.latchAll_later _).trans (RuntimeControl.latchAll_later _)
    · rw [healthy]
      exact Nat.zero_le _

theorem publishStats_publishes {ε : Type} {post : Unit → CommitCoordinator → Prop} {fail : ε → CommitCoordinator → Prop}
    (ordered : c.state.durableFrontier.durableSeq ≤ c.state.headSeq)
    (good : ∀ stats, post () {c with runtime := {c.runtime with stats}}) : Delivers publishStats c post fail := by
  obtain ⟨stats,published⟩ := statsPublished_ordered ordered
  unfold publishStats
  rw [delivers_modify,published]
  exact good stats

theorem expectWriter_held {held : Bool} {post : Unit → CommitCoordinator → Prop} {fail : Halt → CommitCoordinator → Prop}
    (there : held = true) (good : post () c) : Delivers (expectWriter held) c post fail := by
  rw [expectWriter,if_pos there]
  exact good

end calls

section index
variable [Crc32c] {storage : Storage} {batch : IndexAtomicBatch} {mode : IndexCommitMode}

-- How the index answered a batch, and what it took of it.
inductive IndexAnswered (storage : Storage) (batch : IndexAtomicBatch) (mode : IndexCommitMode) :
    Except IndexCommitError Unit → Storage → Prop
  | applied (script : List Answer) : IndexAnswered storage batch mode (.ok ()) ({storage with script}.committed batch mode)
  | refused (source : InternalIndexError) (script : List Answer) :
      IndexAnswered storage batch mode (.error ⟨.notApplied,source⟩) ({storage with script}.record (.submitted batch mode))
  | unknown (source : InternalIndexError) (script : List Answer) :
      IndexAnswered storage batch mode (.error ⟨.unknown,source⟩) ({storage with script}.record (.submitted batch mode))
  | landed (source : InternalIndexError) (script : List Answer) :
      IndexAnswered storage batch mode (.error ⟨.unknown,source⟩) {{storage with script}.committed batch mode with
        trace := .applied batch .buffer :: .submitted batch mode :: storage.trace}

theorem commitAtomic_answers (ordinary : batch.Ordinary) (identified : storage.index.system[databaseIdentityKey]? ≠ none) :
    Delivers (commitAtomic batch mode) storage (fun _ after => IndexAnswered storage batch mode (.ok ()) after)
      (fun error after => IndexAnswered storage batch mode (.error error) after) :=
  delivers_commitAtomic ordinary identified .applied .refused .unknown .landed

omit [Crc32c] in
theorem IndexAnswered.moved {answer : Except IndexCommitError Unit} {after : Storage}
    (answered : IndexAnswered storage batch mode answer after) : IndexMoved storage after := by
  cases answered with
  | applied script => exact ⟨rfl,[.applied batch mode,.submitted batch mode],rfl,by simp⟩
  | refused source script => exact ⟨rfl,[.submitted batch mode],rfl,by simp⟩
  | unknown source script => exact ⟨rfl,[.submitted batch mode],rfl,by simp⟩
  | landed source script => exact ⟨rfl,[.applied batch .buffer,.submitted batch mode],rfl,by simp⟩

end index

section phases
variable {c : CommitCoordinator} {appended : ValueLog} {targetSeq : Nat} {targetEnd : Option VLogPosition}
  {needed held : Bool} {token : Option FrontierSync} {synced : ValueLog} {storage : Storage} {operation : Operation}

-- The log once `sync_through` is done, or was not due.
inductive TargetSynced (appended : ValueLog) (targetSeq : Nat) (targetEnd : Option VLogPosition) :
    Bool → Option FrontierSync → ValueLog → Prop
  | needless : TargetSynced appended targetSeq targetEnd false none appended
  | through {after : ValueLog} {token : FrontierSync} : SyncedThrough appended after targetSeq targetEnd token →
      TargetSynced appended targetSeq targetEnd true (some token) after

theorem syncTarget_syncs (needed : Bool) (identity : Option (Nat × Uuid)) (around : Surroundings)
    (ordered : c.state.durableFrontier.durableSeq ≤ c.state.headSeq) :
    Delivers (syncTarget needed targetSeq targetEnd operation identity around) c
      (fun token next => next = {c with log := next.log} ∧ TargetSynced c.log targetSeq targetEnd needed token next.log)
      (fun halt next => needed = true ∧ ∃ error log, SyncFailed c.log log targetSeq targetEnd error ∧
        Declined {c with log} next .poisoned (remapWriterOperation error operation) halt) := by
  unfold syncTarget
  cases needed with
  | false => exact ⟨rfl,.needless⟩
  | true =>
    rw [if_pos rfl,delivers_bind,delivers_attempt,delivers_onLog]
    refine (syncThrough_delivers targetSeq targetEnd).mono ?_ ?_
    · intro token log through
      exact ⟨rfl,.through through⟩
    · intro error log failed
      refine (failStarted_fails _ _ _ around ?_).mono (fun _ _ no => no.elim) ?_
      · exact ordered
      · intro halt next refused
        refine ⟨rfl,error,log,failed,?_⟩
        rw [failureState,Option.some_or,Option.getD_some,requiredFailureState_poisoned] at refused
        exact refused

-- The writer once its token is taken back.
def ValueLogWriter.settled (writer : ValueLogWriter) : Option FrontierSync → ValueLogWriter
  | none => writer
  | some synced => {writer with
      dirty := ⟨synced.files.foldl (fun files fileId => files.erase fileId) writer.dirty.dirtyFiles,
        synced.directoryEntries.foldl (fun entries fileId => entries.erase fileId) writer.dirty.pendingDirectoryEntries⟩
      nextSyncId := writer.nextSyncId + 1}

theorem TargetSynced.token_isSome (reached : TargetSynced appended targetSeq targetEnd needed token synced) :
    token.isSome = needed := by
  cases reached <;> rfl

-- After a frontier that stands the token is spent; nothing else of the coordinator moves.
theorem settleSucceeded_settles {runtime : RuntimeControl} {state : CommitState} (books : Books appended)
    (reached : TargetSynced appended targetSeq targetEnd needed token synced) (moved : IndexMoved synced.storage storage)
    (guard : needed = true → held = true) :
    Delivers (settleSucceeded token held operation) ⟨runtime,{synced with storage},state⟩
      (fun _ next => next = ⟨runtime,⟨storage,appended.writer.settled token⟩,state⟩ ∧ Books next.log)
      (fun _ _ => False) := by
  cases reached with
  | needless => exact ⟨rfl,books.indexMoved moved⟩
  | through through =>
    unfold settleSucceeded
    rw [delivers_bind]
    refine expectWriter_held (guard rfl) ?_
    unfold finishFrontierAfterSuccess
    rw [delivers_bind,delivers_attempt,delivers_onLog]
    refine (through.succeeded books moved).mono ?_ (fun _ _ no => no.elim)
    rintro - settled ⟨same,kept,writer⟩
    refine ⟨?_,kept⟩
    rw [show settled = ⟨settled.storage,settled.writer⟩ from rfl,same,writer]
    rfl

-- After a frontier that does not, the writer is stopped for good.
structure SettledFailed (synced : ValueLog) (storage : Storage) (token : Option FrontierSync) (log : ValueLog) : Prop where
  storage : log.storage = storage
  writer : log.writer = synced.writer ∧ token = none ∨
    log.writer = {synced.writer with pendingSyncId := none,appendFailed := true}
  untouched : token = none → log.writer = synced.writer

theorem settleFailed_settles {runtime : RuntimeControl} {state : CommitState}
    (reached : TargetSynced appended targetSeq targetEnd needed token synced)
    (guard : needed = true → held = true) :
    Delivers (settleFailed token held) ⟨runtime,{synced with storage},state⟩
      (fun _ next => next = ⟨runtime,next.log,state⟩ ∧ SettledFailed synced storage token next.log) (fun _ _ => False) := by
  cases reached with
  | needless => exact ⟨rfl,rfl,.inl ⟨rfl,rfl⟩,fun _ => rfl⟩
  | @through _ token through =>
    unfold settleFailed
    rw [delivers_bind]
    refine expectWriter_held (guard rfl) ?_
    rw [delivers_bind,delivers_attempt,delivers_onLog]
    have consumed : consumeSync synced.writer token = .ok () := by
      rw [consumeSync,through.writer,through.token]
      exact rejectIf_false (by simp)
    unfold frontierFailed
    rw [delivers_bind,delivers_get,delivers_bind,delivers_lift,consumed]
    exact ⟨fun _ _ => ⟨rfl,rfl,.inr rfl,fun none => by cases none⟩,fun _ no => (by cases no)⟩

end phases

end ExpirKv
