import ExpirKv.Admission
import ExpirKv.Recovery.Guarded
import ExpirKv.Recovery.LongestPrefix

namespace ExpirKv
open VLogGeometry Storage

section phases
variable [Crc32c] {start now : Storage} {plan : RecoveryPlan} {events : List Event} {state : RecoveryState}

-- Nothing is cut off yet, and the batches may go on.
def Uncut (start : Storage) (plan : RecoveryPlan) (events : List Event) : Prop :=
  Intact events ∧ TargetHeld start plan events

omit [Crc32c] in
theorem Uncut.applied (prepared : Uncut start plan events) (batch : IndexAtomicBatch) :
    Uncut start plan (.applied batch .syncAll :: .submitted batch .syncAll :: events) := by
  have handed : Intact (.submitted batch .syncAll :: events) := prepared.1.cons (fun destroys => destroys)
  exact ⟨handed.cons (fun destroys => destroys),(prepared.2.cons _).cons _⟩

theorem Uncut.calm (start : Storage) (plan : RecoveryPlan) : Calm (fun before after =>
    During start plan (Uncut start plan) before → During start plan (Uncut start plan) after) :=
  During.calm (Intact.lasting.and TargetHeld.lasting)

-- What a recovery state in memory says about the storage.
structure Standing (start : Storage) (plan : RecoveryPlan) (recoveryState : Option RecoveryState)
    (events : List Event) : Prop where
  intact : Intact events
  held : recoveryState ≠ none → TargetHeld start plan events
  allowed : ∀ state ∈ recoveryState, state.phase = .trim → TrimAllowed start plan events

theorem Standing.calm (start : Storage) (plan : RecoveryPlan) (recoveryState : Option RecoveryState) :
    Calm (fun before after => During start plan (Standing start plan recoveryState) before →
      During start plan (Standing start plan recoveryState) after) := by
  apply During.calm
  intro events event standing quiet harmless
  exact ⟨standing.intact.cons harmless,fun some => (standing.held some).cons event,
    fun state member trims => (standing.allowed state member trims).cons quiet⟩

theorem Standing.prepared {recoveryState : Option RecoveryState} (standing : Standing start plan recoveryState events)
    (present : recoveryState ≠ none) : Uncut start plan events := ⟨standing.intact,standing.held present⟩

-- A recovery that finds a state begins where that state stands.
theorem Drawn.standing (drawn : Drawn start.index plan) : Standing start plan plan.recoveryState [] := by
  refine ⟨fun _ no => (by cases no),?_,?_⟩
  · exact fun some fresh => absurd fresh some
  · intro state member trims
    have stored := drawn.trimStored member trims
    exact ⟨stored,.inl stored⟩

theorem During.createRecoveryState (drawn : Drawn start.index plan)
    (during : During start plan (Standing start plan plan.recoveryState) now) :
    Delivers (createRecoveryState plan) now
      (fun created after => During start plan (Standing start plan created) after ∧
        (∀ state ∈ created, state.Aims plan) ∧ (created = none → plan.recoveryState = none))
      (fun _ after => During start plan Anyhow after) := by
  unfold ExpirKv.createRecoveryState
  split
  · refine ((during.mono (fun _ standing => standing.intact)).syncNewAcceptedVlog drawn.further).bind ?_
      (fun _ _ stopped => stopped)
    intro _ synced during
    refine (during.validateAcceptedBoundary (Intact.lasting.and TargetHeld.lasting)).bind ?_ (fun _ _ stopped => stopped)
    intro _ checked both
    obtain ⟨events,traced,prepared⟩ := both.1
    refine (traced.commitBuilt prepared.2 (fun batch built => recoveryStateBatch_careful drawn.newState built)).bind ?_
      (fun _ _ stopped => stopped)
    intro _ after committed
    obtain ⟨batch,-,applied⟩ := committed
    have later := Uncut.applied prepared batch
    refine ⟨⟨_,applied,later.1,fun _ => later.2,?_⟩,?_,fun no => by cases no⟩
    · intro state member trims
      obtain rfl := Option.mem_some.mp member
      cases trims
    · intro state member
      obtain rfl := Option.mem_some.mp member
      exact drawn.newState
  · exact ⟨during,fun state member => (drawn.resumed state member).1,fun none => none⟩

-- One transaction taken back, then as many as there are.
theorem During.undoTransaction (during : During start plan (Uncut start plan) now) (aims : state.Aims plan) :
    Delivers (undoTransaction plan state) now
      (fun next after => During start plan (Uncut start plan) after ∧ next.Aims plan)
      (fun _ after => During start plan Anyhow after) := by
  have calm := Uncut.calm start plan
  refine delivers_bind.mpr (delivers_lift.mpr ⟨?_,fun _ _ => during.ended⟩)
  intro expected _
  refine (during.leaves (calm.loadDescriptor expected)).bind ?_ (fun _ _ stopped => stopped.ended)
  intro loaded reached during
  refine (during.leaves (calm.validateCurrentAfterStates _)).bind ?_ (fun _ _ stopped => stopped.ended)
  intro _ checked during
  refine delivers_bind.mpr (delivers_lift.mpr ⟨?_,fun _ _ => during.ended⟩)
  intro batch built
  have next : ({state with nextUndoSeq := state.nextUndoSeq - 1} : RecoveryState).Aims plan :=
    ⟨aims.seq,aims.vlogSeq,aims.vlogEnd,aims.fits⟩
  obtain ⟨events,traced,prepared⟩ := during
  have commits := traced.commits prepared.2 (buildUndoBatch_admissible built).ordinary (buildUndoBatch_careful next built)
  refine delivers_bind.mpr (delivers_mapError.mpr (commits.mono ?_ (fun _ _ stopped => stopped)))
  intro _ after applied
  exact ⟨⟨_,applied,prepared.applied batch⟩,next⟩

theorem During.undoTurns (during : During start plan (Uncut start plan) now) (aims : state.Aims plan) (turns : Nat) :
    Delivers (undoTurns plan turns state) now
      (fun undone after => During start plan (Uncut start plan) after ∧ undone.Aims plan)
      (fun _ after => During start plan Anyhow after) := by
  induction turns generalizing state now with
  | zero => exact ⟨during,aims⟩
  | succ turns ih =>
    refine (during.undoTransaction aims).bind ?_ (fun _ _ stopped => stopped)
    intro next reached both
    exact ih both.1 both.2

-- The batch of the target, after which a trim may follow.
theorem During.moves {recoveryState : Option RecoveryState} (drawn : Drawn start.index plan)
    (during : During start plan (Uncut start plan) now) (aims : ∀ state ∈ recoveryState, state.Aims plan) :
    Delivers (do
        ExpirKv.validateAcceptedBoundary plan
        commitBuilt (targetFrontierBatch plan.acceptedSeq plan.target recoveryState)) now
      (fun _ after => During start plan (Standing start plan recoveryState) after)
      (fun _ after => During start plan Anyhow after) := by
  refine (during.validateAcceptedBoundary (Intact.lasting.and TargetHeld.lasting)).bind ?_ (fun _ _ stopped => stopped)
  intro _ checked both
  obtain ⟨⟨events,traced,prepared⟩,paired⟩ := both
  refine (traced.commitBuilt prepared.2 (fun batch built => targetFrontierBatch_careful paired aims built)).mono ?_
    (fun _ _ stopped => stopped)
  intro _ after committed
  obtain ⟨batch,built,applied⟩ := committed
  have later := Uncut.applied prepared batch
  refine ⟨_,applied,later.1,fun _ => later.2,?_⟩
  intro state member trims
  obtain rfl := Option.mem_def.mp member
  have stores := targetFrontierBatch_stores drawn.fits (aims state rfl) trims built
  exact ⟨stores _,.inr ⟨batch,List.mem_cons_self,stores⟩⟩

theorem During.reachTarget {recoveryState : Option RecoveryState} (drawn : Drawn start.index plan)
    (during : During start plan (Standing start plan recoveryState) now)
    (aims : ∀ state ∈ recoveryState, state.Aims plan) :
    Delivers (reachTarget plan recoveryState) now
      (fun progress after => During start plan (Standing start plan progress.state) after)
      (fun _ after => During start plan Anyhow after) := by
  cases recoveryState with
  | none =>
    unfold ExpirKv.reachTarget
    dsimp only
    split
    · refine ((during.mono (fun _ standing => standing.intact)).syncNewAcceptedVlog drawn.further).bind ?_
        (fun _ _ stopped => stopped)
      intro _ synced during
      have moved := @During.moves _ start synced plan none drawn during (fun _ no => by cases no)
      refine delivers_bind.mpr ((delivers_bind.mp moved).mono ?_ (fun _ _ stopped => stopped))
      intro _ checked commits
      exact delivers_bind.mpr (commits.mono (fun _ _ during => during) (fun _ _ stopped => stopped))
    · exact during
  | some state =>
    unfold ExpirKv.reachTarget
    dsimp only
    split
    · have prepared := during.mono (fun _ standing => standing.prepared (Option.some_ne_none state))
      refine (prepared.undoTurns (aims state rfl) _).bind ?_ (fun _ _ stopped => stopped)
      intro undone reached both
      have after : undone.afterUndo.Aims plan := ⟨both.2.seq,both.2.vlogSeq,both.2.vlogEnd,both.2.fits⟩
      have moved := @During.moves _ start reached plan (some undone.afterUndo) drawn both.1
        (fun other member => by obtain rfl := Option.mem_some.mp member; exact after)
      refine delivers_bind.mpr ((delivers_bind.mp moved).mono ?_ (fun _ _ stopped => stopped))
      intro _ checked commits
      exact delivers_bind.mpr (commits.mono (fun _ _ during => during) (fun _ _ stopped => stopped))
    · exact during

theorem During.deletes (during : During start plan (TargetHeld start plan) now) :
    Delivers (commitBuilt deleteRecoveryStateBatch) now (fun _ after => During start plan Anyhow after)
      (fun _ after => During start plan Anyhow after) := by
  obtain ⟨events,traced,held⟩ := during
  refine (traced.commitBuilt held (fun batch built => deleteRecoveryStateBatch_careful built)).mono ?_
    (fun _ _ stopped => stopped)
  intro _ after committed
  obtain ⟨batch,-,applied⟩ := committed
  exact ⟨_,applied,trivial⟩

theorem During.finishPhase {recoveryState : Option RecoveryState} (drawn : Drawn start.index plan)
    (during : During start plan (Standing start plan recoveryState) now) (format : FormatMetadata) :
    Delivers (finishPhase format plan recoveryState) now (fun _ after => During start plan Anyhow after)
      (fun _ after => During start plan Anyhow after) := by
  unfold ExpirKv.finishPhase
  split
  · exact during.ended
  · rename_i state
    cases phase : state.phase with
    | undo => exact during.ended
    | trim =>
      have trimmed : During start plan (TrimStage start plan) now := during.mono (fun _ standing =>
        ⟨standing.allowed state rfl phase,standing.held (Option.some_ne_none state)⟩)
      refine (trimmed.trimSuffix drawn.forward format).bind ?_ (fun _ _ stopped => stopped)
      intro _ reached during
      refine (During.deletes (during.mono (fun _ trimmed => trimmed.2))).bind ?_ (fun _ _ stopped => stopped)
      exact fun _ _ during => during
    | finalize =>
      refine (During.deletes (during.mono (fun _ standing => standing.held (Option.some_ne_none state)))).bind ?_
        (fun _ _ stopped => stopped)
      exact fun _ _ during => during

-- Every outcome of an execution, by the events that led to it.
theorem executeRecovery_traced (drawn : Drawn start.index plan) (asked : Asked start now) (format : FormatMetadata) :
    Delivers (executeRecovery format plan) now (fun _ after => During start plan Anyhow after)
      (fun _ after => During start plan Anyhow after) := by
  obtain ⟨script,rfl⟩ := asked
  have begun : During start plan (Standing start plan plan.recoveryState) {start with script} :=
    ⟨[],⟨rfl,rfl,drawn.identified,.start,fun _ _ _ => rfl,fun _ => rfl⟩,drawn.standing⟩
  have calm := Standing.calm start plan plan.recoveryState
  refine (begun.leaves (calm.validateRecoveryBindings format plan)).bind ?_ (fun _ _ stopped => stopped.ended)
  intro _ bound during
  refine (During.createRecoveryState drawn during).bind ?_ (fun _ _ stopped => stopped)
  intro created reached both
  refine (During.reachTarget drawn both.1 both.2.1).bind ?_ (fun _ _ stopped => stopped)
  intro progress moved during
  refine (During.finishPhase drawn during format).bind ?_ (fun _ _ stopped => stopped)
  intro left finished during
  have anyhow : Calm (fun before after => During start plan Anyhow before → During start plan Anyhow after) :=
    During.calm (fun _ _ _ _ _ => trivial)
  refine during.leaves ?_
  exact anyhow.bind (anyhow.lift _) (fun _ => anyhow.bind (anyhow.verifyFinalState format plan _ _) (fun _ =>
    anyhow.bind (anyhow.intoWriter _) (fun _ => anyhow.bind (anyhow.lift _) (fun _ => anyhow.pure _))))

end phases

section histories
variable [Crc32c] {start final : Storage} {plan : RecoveryPlan} {events : List Event}

def FrontierStored (index : Index) (frontier : DurableFrontier) : Prop :=
  ∃ encoded, index.system[durableFrontierKey]? = some encoded ∧ DurableFrontier.decode encoded = .ok frontier

theorem FrontierStored.unique {index : Index} {first second : DurableFrontier} (one : FrontierStored index first)
    (other : FrontierStored index second) : first = second := by
  obtain ⟨encoded,found,decoded⟩ := one
  obtain ⟨again,there,read⟩ := other
  obtain rfl := Option.some.inj (found.symm.trans there)
  exact Except.ok.inj (decoded.symm.trans read)

-- The stored triple changes as a whole or not at all.
theorem stored_frontier (fits : plan.acceptedSeq < 18446744073709551616) {newer older : List Event}
    (grown : Grown (Permitted start plan) (newer ++ older)) :
    (Event.stored start.index (newer ++ older)).system[durableFrontierKey]? =
        (Event.stored start.index older).system[durableFrontierKey]? ∨
      FrontierStored (Event.stored start.index (newer ++ older)) plan.target := by
  induction newer with
  | nil => exact .inl rfl
  | cons event newer ih =>
    rw [List.cons_append] at grown ⊢
    cases grown with
    | event grown permitted =>
      have earlier := ih grown
      by_cases applies : ∃ batch mode, event = .applied batch mode
      · obtain ⟨batch,mode,rfl⟩ := applies
        have careful : Careful plan batch := permitted
        rcases (Event.stored start.index (newer ++ older)).apply_system batch durableFrontierKey with ⟨-,same⟩ | sets
        · rcases earlier with kept | ⟨encoded,found,decoded⟩
          · exact .inl (same.trans kept)
          · exact .inr ⟨encoded,same.trans found,decoded⟩
        · obtain ⟨-,-,encoded,encodes,value⟩ := careful.frontier _ sets
          exact .inr ⟨encoded,value,(DurableFrontier.decode_encode encodes fits).1⟩
      · have quiet : ∀ batch mode, event ≠ .applied batch mode := fun batch mode same => applies ⟨batch,mode,same⟩
        rw [FrontierStored,Event.stored_record start.index quiet]
        exact earlier

-- An execution by its effects, newest first, and what stood before each of them.
structure Guarded (start : Storage) (plan : RecoveryPlan) (events : List Event) (final : Storage) : Prop where
  trace : final.trace = events ++ start.trace
  index : final.index = Event.stored start.index events
  late : ∀ later event earlier, events = later ++ event :: earlier → event.Destroys → TrimAllowed start plan earlier
  cuts : ∀ fileId len, .truncated fileId len ∈ events → plan.acceptedEnd = some ⟨fileId,len⟩
  removes : ∀ fileId, .removed fileId ∈ events → ∀ accepted ∈ plan.acceptedEnd, accepted.fileId < fileId
  forward : plan.Forward
  kept : ∀ fileId offset, plan.Keeps ⟨fileId,offset⟩ →
    (final.contents fileId)[offset]? = (start.contents fileId)[offset]?
  synced : plan.recoveryState = none → ∀ later batch mode earlier encoded state frontier,
    events = later ++ .submitted batch mode :: earlier → batch.Sets recoveryStateKey (some encoded) →
    RecoveryState.decode encoded = .ok state → FrontierStored (Event.stored start.index earlier) frontier →
    frontier.durableVlogSeq < state.targetVlogSeq →
    ∃ accepted, plan.acceptedEnd = some accepted ∧ state.targetVlogEnd = some accepted ∧
      (∀ durable ∈ plan.durableFrontier.durableVlogEnd, durable < accepted) ∧
      RangeSynced start plan.durableFrontier.durableVlogEnd accepted earlier
  advances : ∀ newest newer older first second, events = newest ++ (newer ++ older) →
    FrontierStored (Event.stored start.index older) first →
    FrontierStored (Event.stored start.index (newer ++ older)) second → first.durableSeq ≤ second.durableSeq
  triples : ∀ newest older, events = newest ++ older →
    FrontierStored (Event.stored start.index older) plan.durableFrontier ∨
      FrontierStored (Event.stored start.index older) plan.target
  whole : ∀ batch mode value, .submitted batch mode ∈ events → batch.Sets durableFrontierKey value →
    mode = .syncAll ∧ plan.Paired ∧ batch.Sets headSeqKey (some (encodeHeadSeq plan.acceptedSeq)) ∧
      ∃ encoded, plan.target.encode = .ok encoded ∧ value = some encoded
  unchanged : ¬TrimStored start.index plan →
    (∀ batch value, .applied batch .syncAll ∈ events → ¬batch.Sets durableFrontierKey value) →
    final.vlog.files = start.vlog.files

theorem TrimStored.unset {batch : IndexAtomicBatch} (stores : ∀ index : Index, TrimStored (index.apply batch) plan) :
    ∃ value, batch.Sets durableFrontierKey value := by
  obtain ⟨encoded,found,-⟩ := (stores .empty).frontier
  rcases Index.empty.apply_system batch durableFrontierKey with ⟨-,same⟩ | sets
  · rw [same] at found
    simp [Index.empty] at found
  · exact ⟨_,sets⟩

theorem Traced.guarded (drawn : Drawn start.index plan) (traced : Traced start plan events final) :
    Guarded start plan events final := by
  have grown := traced.permitted
  have late : ∀ later event earlier, events = later ++ event :: earlier → event.Destroys →
      TrimAllowed start plan earlier := by
    intro later event earlier split destroys
    rw [split] at grown
    have permitted := grown.fits
    cases event with
    | truncated fileId len => exact permitted.1
    | removed fileId => exact permitted.1
    | _ => exact destroys.elim
  have triples : ∀ newest older, events = newest ++ older →
      FrontierStored (Event.stored start.index older) plan.durableFrontier ∨
        FrontierStored (Event.stored start.index older) plan.target := by
    intro newest older split
    rw [split] at grown
    have older : Grown (Permitted start plan) (older ++ []) := by simpa using grown.earlier
    have stored := stored_frontier drawn.fits older
    rw [List.append_nil] at stored
    rcases stored with same | moved
    · obtain ⟨encoded,found,decoded⟩ := drawn.frontier
      exact .inl ⟨encoded,same.trans found,decoded⟩
    · exact .inr moved
  refine ⟨traced.trace,traced.index,late,?_,?_,drawn.forward,traced.kept,?_,?_,triples,?_,?_⟩
  · intro fileId len member
    obtain ⟨earlier,permitted⟩ := grown.member member
    exact permitted.2
  · intro fileId member
    obtain ⟨earlier,permitted⟩ := grown.member member
    exact permitted.2
  · intro fresh later batch mode earlier encoded state frontier split sets decoded stored above
    rw [split] at grown
    obtain ⟨-,held,careful⟩ := grown.fits
    obtain ⟨other,encodes,aims⟩ := careful.state encoded sets
    obtain rfl := Except.ok.inj ((RecoveryState.decode_encode encodes aims.fits).1.symm.trans decoded)
    have further : plan.acceptedVlogSeq ≠ plan.durableFrontier.durableVlogSeq := by
      rw [aims.vlogSeq] at above
      rcases triples (later ++ [.submitted batch mode]) earlier (by simp [split]) with here | there
      · rw [here.unique stored]
        omega
      · have target := congrArg DurableFrontier.durableVlogSeq (there.unique stored)
        simp only [RecoveryPlan.target] at target
        omega
    obtain ⟨accepted,ends,below,synced⟩ := held fresh further
    exact ⟨accepted,ends,aims.vlogEnd.trans ends,below,synced⟩
  · intro newest newer older first second split before after
    rw [split] at grown
    rcases stored_frontier drawn.fits grown.earlier with same | moved
    · obtain ⟨encoded,found,decoded⟩ := after
      rw [before.unique ⟨encoded,same ▸ found,decoded⟩]
    · rw [after.unique moved]
      rcases triples (newest ++ newer) older (by simp [split]) with here | there
      · rw [before.unique here]
        exact drawn.ordered.1
      · rw [before.unique there]
  · intro batch mode value member sets
    obtain ⟨earlier,permitted⟩ := grown.member member
    exact ⟨permitted.1,permitted.2.2.frontier value sets⟩
  · intro fresh unapplied
    apply traced.untouched
    intro event member destroys
    obtain ⟨later,earlier,split⟩ := List.append_of_mem member
    rcases (late later event earlier split destroys).flushed with before | ⟨batch,applied,stores⟩
    · exact fresh before
    · obtain ⟨value,sets⟩ := TrimStored.unset stores
      refine unapplied batch value ?_ sets
      rw [split]
      exact List.mem_append_right _ (List.mem_cons_of_mem _ applied)

-- Whatever fails on the way, an execution of a plan that an analysis made is guarded.
theorem recovery_destroys_last {format : FormatMetadata} {inventory : ManagedInventory} {ready : Storage}
    (analyzed : analyzeRecovery format inventory start = .ok plan ready) :
    Delivers (executeRecovery format plan) ready (fun _ final => ∃ events, Guarded start plan events final)
      (fun _ final => ∃ events, Guarded start plan events final) := by
  obtain ⟨drawn,asked⟩ := analyzeRecovery_drawn analyzed
  have guarded : ∀ final, During start plan Anyhow final → ∃ events, Guarded start plan events final := by
    intro final during
    obtain ⟨events,traced,-⟩ := during
    exact ⟨events,traced.guarded drawn⟩
  exact (executeRecovery_traced drawn asked format).mono (fun _ final during => guarded final during)
    (fun _ final during => guarded final during)

end histories

-- The plan that takes back a transaction without its envelope.
theorem recovery_destroys_last_lost :
    ∃ format inventory start plan, @analyzeRecovery castagnoli format inventory start = .ok plan start ∧
      plan.needsUndo = true ∧ Delivers (@executeRecovery castagnoli format plan) start
        (fun _ final => ∃ events, @Guarded castagnoli start plan events final)
        (fun _ final => ∃ events, @Guarded castagnoli start plan events final) := by
  obtain ⟨format,storage,descriptor,image,kind,empty⟩ := lostEnvelope_image
  obtain ⟨identity,topology,front,back,-,split,accepts,-,analyzed⟩ := @TornImage.analyzed castagnoli _ _ _ _ _ _ image
  have none : front = [] := by
    cases front with
    | nil => rfl
    | cons first rest =>
      obtain ⟨rfl,-⟩ := List.cons.inj split
      exact absurd accepts.1 (lostEnvelope_rejected kind empty (@TornImage.geometry castagnoli _ _ _ _ _ _ image))
  subst none
  exact ⟨format,⟨[]⟩,storage,_,analyzed,rfl,@recovery_destroys_last castagnoli _ _ _ _ _ analyzed⟩

end ExpirKv
