import ExpirKv.Runtime.GateCore

namespace ExpirKv
namespace Shared

section kept
variable {s s' : Shared}

-- The request a call is creating.
def creation : Action → Option RequestId
  | .enqueueWrite id | .issueTicket id => some id
  | _ => none

-- What the locals of other calls rely on: nothing recorded is lost, and only the
-- thread that creates a request moves it on.
structure Kept (action : Action) (s s' : Shared) : Prop where
  admitted : ∀ id ∈ s.past.admitted, id ∈ s'.past.admitted
  activated : ∀ id ∈ s.past.activated, id ∈ s'.past.activated
  withdrawn : ∀ id ∈ s.past.withdrawn, id ∈ s'.past.withdrawn
  next : s.nextRequestId ≤ s'.nextRequestId
  taken : ∀ id t, s.ticket id = .taken t → s'.ticket id = .taken t
  fresh : ∀ id, creation action ≠ some id → id ∉ s.past.admitted → id ∉ s'.past.admitted
  unissued : ∀ id, creation action ≠ some id → s.ticket id = .unissued → s'.ticket id = .unissued

theorem Kept.sound {action other : Action} {t : ThreadId} (kept : Kept action s s')
    (different : ∀ id, creation action = some id → creation other ≠ some id) (sound : GateSound s t other) :
    GateSound s' t other := by
  cases other with
  | enqueueWrite id =>
    refine ⟨Nat.lt_of_lt_of_le sound.1 kept.next,kept.fresh id ?_ sound.2⟩
    exact fun same => different id same rfl
  | issueTicket id =>
    refine ⟨kept.admitted id sound.1,kept.unissued id ?_ sound.2⟩
    exact fun same => different id same rfl
  | markStarted id => exact kept.activated id sound
  | cancelForState id state => exact kept.withdrawn id sound
  | finishTicket id | finishWrite id | abandonWrite id => exact kept.taken id t sound
  | _ => trivial

-- Steps that leave the gate, the tickets and the requests alone.
structure GateSame (s s' : Shared) : Prop where
  gate : s'.control.gate = s.control.gate
  word : s'.control.stateWord = s.control.stateWord
  next : s'.nextRequestId = s.nextRequestId
  phase : s'.phase = s.phase
  ticket : s'.ticket = s.ticket
  requests : (s'.past.admitted,s'.past.activated,s'.past.finished,s'.past.withdrawn,s'.past.started,s'.past.cancelled) =
    (s.past.admitted,s.past.activated,s.past.finished,s.past.withdrawn,s.past.started,s.past.cancelled)

theorem GateSame.core (same : GateSame s s') (core : GateCore s) : GateCore s' := by
  obtain ⟨gate,word,next,phase,ticket,requests⟩ := same
  simp only [Prod.mk.injEq] at requests
  obtain ⟨admitted,activated,finished,withdrawn,started,cancelled⟩ := requests
  have state : s'.control.state = s.control.state := by rw [RuntimeControl.state,RuntimeControl.state,word]
  obtain ⟨a,b,c,d,e,f,g,h,i,j,k,l,m,n⟩ := core
  constructor
  all_goals simp only [gate,state,next,phase,ticket,admitted,activated,finished,withdrawn,started,cancelled]
  all_goals assumption

theorem GateSame.kept (same : GateSame s s') (action : Action) : Kept action s s' := by
  obtain ⟨-,-,next,-,ticket,requests⟩ := same
  simp only [Prod.mk.injEq] at requests
  obtain ⟨admitted,activated,-,withdrawn,-,-⟩ := requests
  constructor
  all_goals simp only [next,ticket,admitted,activated,withdrawn]
  all_goals grind

end kept

section perform
variable {s s' : Shared} {t : ThreadId} {action : Action} {followUps : List Action}

-- What a call begins with stands alone in its thread.
def isEntry : Action → Bool
  | .admitWrite _ | .enqueueWrite _ | .finishTicket _ | .abandonWrite _ => true
  | _ => false

-- The actions that only concern the instance state, the statistics and the reads.
def isAside : Action → Bool
  | .latchFailure _ _ | .publishStats _ | .updateRuntimeState _ _ | .updateCommitState _ _ _ _ _ _ | .loadStats
  | .snapshotStats _ | .errorStats _ _ | .beginRead _ _ | .handleReadFailure _ _ _ | .completeRead _ => true
  | _ => false

theorem perform_aside (performed : s.perform t action = some (s',followUps)) (aside : isAside action = true) :
    GateSame s s' ∧ s'.past.abandoned = s.past.abandoned ∧
      ∀ f ∈ followUps, GateSound s' t f ∧ creation f = none ∧ isEntry f = false := by
  cases action with
  | latchFailure target error =>
    obtain ⟨-,same⟩ := whileUnlocked_some.mp performed
    simp only [latchFailure] at same
    split at same
    · cases same
      exact ⟨⟨rfl,rfl,rfl,rfl,rfl,rfl⟩,rfl,by simp⟩
    · cases same
      refine ⟨⟨?_,?_,rfl,rfl,rfl,rfl⟩,rfl,by simp [GateSound,creation,isEntry]⟩
      all_goals
        simp only
        split <;> rfl
  | updateCommitState head durable vlogEnd active count bytes =>
    simp only [perform,updateCommitState,Option.some.injEq] at performed
    split at performed
    all_goals
      cases performed
      exact ⟨⟨rfl,rfl,rfl,rfl,rfl,rfl⟩,rfl,by simp [GateSound,creation,isEntry]⟩
  | beginRead operation failure =>
    cases performed
    refine ⟨⟨rfl,rfl,rfl,rfl,rfl,rfl⟩,rfl,?_⟩
    unfold beginRead
    split
    · split <;> simp [GateSound,creation,isEntry]
    · simp
  | handleReadFailure domain error operation =>
    cases performed
    refine ⟨⟨rfl,rfl,rfl,rfl,rfl,rfl⟩,rfl,?_⟩
    unfold handleReadFailure
    split <;> simp [GateSound,creation,isEntry]
  | completeRead started =>
    simp only [perform,completeRead,Option.some.injEq,Prod.mk.injEq] at performed
    obtain ⟨rfl,rfl⟩ := performed
    split
    all_goals exact ⟨⟨rfl,rfl,rfl,rfl,rfl,rfl⟩,rfl,by simp⟩
  | publishStats snapshot | updateRuntimeState snapshot first | loadStats | snapshotStats state
  | errorStats state snapshot =>
    cases performed
    exact ⟨⟨rfl,rfl,rfl,rfl,rfl,rfl⟩,rfl,by simp [GateSound,creation,isEntry]⟩
  | _ => cases aside

-- Most steps admit nobody and leave the tickets alone.
theorem Kept.of_same (admitted : s'.past.admitted = s.past.admitted)
    (activated : ∀ id ∈ s.past.activated, id ∈ s'.past.activated)
    (withdrawn : ∀ id ∈ s.past.withdrawn, id ∈ s'.past.withdrawn) (next : s.nextRequestId ≤ s'.nextRequestId)
    (ticket : s'.ticket = s.ticket) : Kept action s s' := by
  refine ⟨?_,activated,withdrawn,next,?_,?_,?_⟩
  · rw [admitted]
    exact fun _ member => member
  · rw [ticket]
    exact fun _ _ taken => taken
  · rw [admitted]
    exact fun _ _ absent => absent
  · rw [ticket]
    exact fun _ _ unissued => unissued

theorem withdraw_kept (id : RequestId) : Kept action s (s.withdraw id) :=
  .of_same rfl (fun _ member => member) (fun _ member => List.mem_append_left _ member) (Nat.le_refl _) rfl

theorem finishWrite_kept (id : RequestId) (otherwise : List Action) :
    Kept action s (s.finishWrite id otherwise).1 := by
  unfold finishWrite
  split
  · exact .of_same rfl (fun _ member => member) (fun _ member => member) (Nat.le_refl _) rfl
  · exact .of_same rfl (fun _ member => List.mem_append_left _ member) (fun _ member => member) (Nat.le_refl _) rfl

theorem enqueueWrite_kept (id : RequestId) : Kept (.enqueueWrite id) s (s.enqueueWrite id).1 := by
  have fresh : ∀ other, creation (.enqueueWrite id) ≠ some other → other ∉ s.past.admitted →
      other ∉ s.past.admitted ++ [id] := by
    intro other different absent member
    rcases List.mem_append.mp member with before | now
    · exact absent before
    · exact different (by rw [List.mem_singleton.mp now]; rfl)
  unfold enqueueWrite
  split
  · exact .of_same rfl (fun _ member => member) (fun _ member => member) (Nat.le_refl _) rfl
  · exact ⟨fun _ member => List.mem_append_left _ member,fun _ member => List.mem_append_left _ member,
      fun _ member => member,Nat.le_refl _,fun _ _ taken => taken,fresh,fun _ _ unissued => unissued⟩
  · exact ⟨fun _ member => List.mem_append_left _ member,fun _ member => member,
      fun _ member => member,Nat.le_refl _,fun _ _ taken => taken,fresh,fun _ _ unissued => unissued⟩

theorem issueTicket_kept {id : RequestId} (unissued : s.ticket id = .unissued) :
    Kept (.issueTicket id) s (s.withTicket id .alive) := by
  refine ⟨fun _ member => member,fun _ member => member,fun _ member => member,Nat.le_refl _,?_,
    fun _ _ absent => absent,?_⟩
  · intro other holder taken
    have different : other ≠ id := by
      intro same
      rw [same,unissued] at taken
      cases taken
    simp only [withTicket,Function.update_of_ne different]
    exact taken
  · intro other different absent
    have different : other ≠ id := fun same => different (by rw [same]; rfl)
    simp only [withTicket,Function.update_of_ne different]
    exact absent

theorem GateCore.unissued (core : GateCore s) {id : RequestId} (fresh : id ∉ s.past.admitted) :
    s.ticket id = .unissued := by
  by_contra issued
  exact fresh (core.tickets id issued)

theorem abandonWrite_core (core : GateCore s) {id : RequestId} (taken : s.ticket id = .taken t) :
    GateCore (s.abandonWrite t id).1 ∧ (∀ f ∈ (s.abandonWrite t id).2, GateSound (s.abandonWrite t id).1 t f) ∧
      Kept action s (s.abandonWrite t id).1 := by
  unfold abandonWrite
  split
  · rename_i queued
    refine ⟨withdraw_core core queued,?_,withdraw_kept id⟩
    intro f member
    cases List.mem_singleton.mp member
    exact List.mem_append_right _ List.mem_cons_self
  · split
    · have same : GateSame s {s with past := {s.past with abandoned := s.past.abandoned ++ [(t,id)]}} :=
        ⟨rfl,rfl,rfl,rfl,rfl,rfl⟩
      refine ⟨same.core core,?_,same.kept action⟩
      intro f member
      rcases List.mem_cons.mp member with rfl | member
      · trivial
      · cases List.mem_singleton.mp member
        exact taken
    · have same : GateSame s s := ⟨rfl,rfl,rfl,rfl,rfl,rfl⟩
      exact ⟨core,by simp,same.kept action⟩

theorem storeState_gate (core : GateCore s) (current : StateSnapshot) (summary : LatchedErrorSummary) :
    GateCore (s.storeState current summary).1 ∧
      (∀ f ∈ (s.storeState current summary).2, GateSound (s.storeState current summary).1 t f) ∧
      Kept action s (s.storeState current summary).1 := by
  refine ⟨drain_core core rfl rfl rfl rfl rfl,?_,?_⟩
  · intro f member
    rcases List.mem_append.mp member with cancel | publish
    · obtain ⟨id,queued,rfl⟩ := List.mem_map.mp cancel
      exact List.mem_append_right _ queued
    · cases List.mem_singleton.mp publish
      trivial
  · exact .of_same rfl (fun _ member => member) (fun _ member => List.mem_append_left _ member) (Nat.le_refl _) rfl

theorem closeWriteAdmission_core (core : GateCore s) :
    GateCore s.closeWriteAdmission.1 ∧ (∀ f ∈ s.closeWriteAdmission.2, GateSound s.closeWriteAdmission.1 t f) ∧
      Kept action s s.closeWriteAdmission.1 := by
  refine ⟨drain_core core rfl rfl rfl rfl rfl,?_,?_⟩
  · intro f member
    obtain ⟨id,queued,rfl⟩ := List.mem_map.mp member
    exact List.mem_append_right _ queued
  · exact .of_same rfl (fun _ member => member) (fun _ member => List.mem_append_left _ member) (Nat.le_refl _) rfl

theorem cancelQueuedWrite_core (core : GateCore s) (id : RequestId) :
    GateCore (s.cancelQueuedWrite id).1 ∧
      (∀ f ∈ (s.cancelQueuedWrite id).2, GateSound (s.cancelQueuedWrite id).1 t f) ∧
      Kept action s (s.cancelQueuedWrite id).1 := by
  unfold cancelQueuedWrite
  split
  · rename_i queued
    refine ⟨withdraw_core core queued,?_,withdraw_kept id⟩
    intro f member
    cases List.mem_singleton.mp member
    exact List.mem_append_right _ List.mem_cons_self
  · have same : GateSame s s := ⟨rfl,rfl,rfl,rfl,rfl,rfl⟩
    exact ⟨core,by simp,same.kept action⟩

theorem perform_gate (core : GateCore s) (sound : GateSound s t action)
    (performed : s.perform t action = some (s',followUps)) :
    GateCore s' ∧ (∀ f ∈ followUps, GateSound s' t f) ∧ Kept action s s' := by
  cases action with
  | admitWrite operation =>
    have core' := admitWrite_core core operation
    simp only [perform,Option.some.injEq] at performed
    rw [performed] at core'
    unfold admitWrite at performed
    split at performed
    · cases performed
      refine ⟨core',by simp,?_⟩
      exact .of_same rfl (fun _ member => member) (fun _ member => member) (Nat.le_refl _) rfl
    · cases performed
      refine ⟨core',?_,.of_same rfl (fun _ member => member) (fun _ member => member) (Nat.le_succ _) rfl⟩
      intro f member
      cases List.mem_singleton.mp member
      refine ⟨Nat.lt_succ_self _,?_⟩
      intro admitted
      exact Nat.lt_irrefl _ (core.issued _ admitted)
  | enqueueWrite id =>
    obtain ⟨-,same⟩ := whileUnlocked_some.mp performed
    obtain ⟨core',sound'⟩ := enqueueWrite_core core t sound.1 sound.2 (core.unissued sound.2)
    have kept := @enqueueWrite_kept s id
    rw [same] at core' sound' kept
    exact ⟨core',sound',kept⟩
  | issueTicket id =>
    cases performed
    exact ⟨issueTicket_core core sound.1 sound.2,by simp,issueTicket_kept sound.2⟩
  | markStarted id =>
    cases performed
    refine ⟨markStarted_core core sound,by simp,?_⟩
    unfold markStarted
    simp only
    split
    all_goals exact .of_same rfl (fun _ member => member) (fun _ member => member) (Nat.le_refl _) rfl
  | markCompleted id =>
    cases performed
    refine ⟨markCompleted_core core id,by simp,?_⟩
    exact .of_same rfl (fun _ member => member) (fun _ member => member) (Nat.le_refl _) rfl
  | cancelForState id state =>
    cases performed
    refine ⟨cancelForState_core core state sound,by simp,?_⟩
    unfold cancelForState
    simp only
    split
    all_goals exact .of_same rfl (fun _ member => member) (fun _ member => member) (Nat.le_refl _) rfl
  | cancelQueuedWrite id =>
    obtain ⟨-,same⟩ := whileUnlocked_some.mp performed
    have done := @cancelQueuedWrite_core s t (.cancelQueuedWrite id) core id
    rw [same] at done
    exact done
  | finishTicket id =>
    obtain ⟨-,same⟩ := whileUnlocked_some.mp performed
    have otherwise : ∀ f ∈ [Action.abandonWrite id], GateSound s t f := by
      intro f member
      cases List.mem_singleton.mp member
      exact sound
    obtain ⟨core',sound'⟩ := finishWrite_core core sound otherwise
    have kept := @finishWrite_kept s (.finishTicket id) id [.abandonWrite id]
    rw [same] at core' sound' kept
    exact ⟨core',sound',kept⟩
  | finishWrite id =>
    obtain ⟨-,same⟩ := whileUnlocked_some.mp performed
    have otherwise : ∀ f ∈ ([] : List Action), GateSound s t f := by simp
    obtain ⟨core',sound'⟩ := finishWrite_core core sound otherwise
    have kept := @finishWrite_kept s (.finishWrite id) id []
    rw [same] at core' sound' kept
    exact ⟨core',sound',kept⟩
  | abandonWrite id =>
    obtain ⟨-,same⟩ := whileUnlocked_some.mp performed
    have done := @abandonWrite_core s t (.abandonWrite id) core id sound
    rw [same] at done
    exact done
  | storeState current summary =>
    cases performed
    exact storeState_gate core current summary
  | closeWriteAdmission =>
    obtain ⟨-,same⟩ := whileUnlocked_some.mp performed
    have done := @closeWriteAdmission_core s t .closeWriteAdmission core
    rw [same] at done
    exact done
  | latchFailure target error | publishStats snapshot | updateRuntimeState snapshot first
  | updateCommitState head durable vlogEnd active count bytes | loadStats | snapshotStats state
  | errorStats state snapshot | beginRead operation failure | handleReadFailure domain error operation
  | completeRead started =>
    obtain ⟨same,-,sound'⟩ := perform_aside performed rfl
    exact ⟨same.core core,fun f member => (sound' f member).1,same.kept _⟩

-- Everything else a step may do, said once.
structure Effects (s : Shared) (t : ThreadId) (action : Action) (s' : Shared) (followUps : List Action) : Prop where
  creations : followUps.filterMap creation = [] ∨
    (∃ operation, action = .admitWrite operation ∧ followUps.filterMap creation = [s.nextRequestId]) ∨
    (∃ id, action = .enqueueWrite id ∧ followUps.filterMap creation = [id])
  entries : ∀ f ∈ followUps, isEntry f = true → isEntry action = true ∧ followUps = [f]
  withdrawn : ∀ id ∈ s'.past.withdrawn, id ∈ s.past.withdrawn ∨ ∃ state, .cancelForState id state ∈ followUps
  phases : ∀ id, s.phase id ≠ .queued → s'.phase id ≠ .queued
  cancels : ∀ id state, action = .cancelForState id state → s'.phase id ≠ .queued
  active : ∀ id, s.control.gate.activeRequest = some id → s'.control.gate.activeRequest = some id ∨
    (s'.past.finished = s.past.finished ++ [id] ∧ (action = .finishTicket id ∨ action = .finishWrite id))
  closed : s.control.gate.acceptingWrites = false →
    s'.control.gate.acceptingWrites = false ∧ s'.past.activated = s.past.activated
  abandoned : ∀ entry ∈ s'.past.abandoned, entry ∈ s.past.abandoned ∨
    (entry.1 = t ∧ ∃ error, .latchFailure .poisoned error ∈ followUps)

theorem GateSame.effects (same : GateSame s s') (abandoned : s'.past.abandoned = s.past.abandoned)
    (plain : ∀ f ∈ followUps, creation f = none ∧ isEntry f = false)
    (other : ∀ id state, action ≠ .cancelForState id state) : Effects s t action s' followUps := by
  obtain ⟨gate,-,-,phase,-,requests⟩ := same
  simp only [Prod.mk.injEq] at requests
  obtain ⟨-,activated,-,withdrawn,-,-⟩ := requests
  refine ⟨.inl ?_,?_,?_,?_,?_,?_,?_,?_⟩
  · rw [List.filterMap_eq_nil_iff]
    exact fun f member => (plain f member).1
  · intro f member entry
    rw [(plain f member).2] at entry
    cases entry
  · rw [withdrawn]
    exact fun id member => .inl member
  · rw [phase]
    exact fun id moved => moved
  · exact fun id state same => absurd same (other id state)
  · rw [gate]
    exact fun id active => .inl active
  · rw [gate,activated]
    exact fun shut => ⟨shut,rfl⟩
  · rw [abandoned]
    exact fun entry member => .inl member

-- A phase that has left `Queued` does not come back to it.
theorem withPhase_phases {id : RequestId} {phase : RequestPhase} (moves : phase = .queued → s.phase id = .queued) :
    ∀ other, s.phase other ≠ .queued → (s.withPhase id phase).phase other ≠ .queued := by
  intro other moved
  by_cases same : other = id
  · subst same
    simp only [withPhase,Function.update_self]
    exact fun queued => moved (moves queued)
  · simp only [withPhase,Function.update_of_ne same]
    exact moved

-- Steps on one phase.
theorem phase_effects {id : RequestId} {phase : RequestPhase} (moves : phase = .queued → s.phase id = .queued)
    (phases : s'.phase = (s.withPhase id phase).phase) (control : s'.control = s.control)
    (past : (s'.past.activated,s'.past.finished,s'.past.withdrawn,s'.past.abandoned) =
      (s.past.activated,s.past.finished,s.past.withdrawn,s.past.abandoned))
    (cancels : ∀ other state, action = .cancelForState other state → s'.phase other ≠ .queued) :
    Effects s t action s' [] := by
  simp only [Prod.mk.injEq] at past
  obtain ⟨activated,finished,withdrawn,abandoned⟩ := past
  refine ⟨.inl rfl,by simp,?_,?_,cancels,?_,?_,?_⟩
  · rw [withdrawn]
    exact fun id member => .inl member
  · rw [phases]
    exact withPhase_phases moves
  · rw [control]
    exact fun id active => .inl active
  · rw [control,activated]
    exact fun shut => ⟨shut,rfl⟩
  · rw [abandoned]
    exact fun entry member => .inl member

theorem withdraw_effects {id : RequestId} (other : ∀ id state, action ≠ .cancelForState id state) :
    Effects s t action (s.withdraw id) [.cancelForState id .healthy] := by
  refine ⟨.inl rfl,by simp [isEntry],?_,fun _ moved => moved,fun id state same => absurd same (other id state),
    fun _ active => .inl active,fun shut => ⟨shut,rfl⟩,fun _ member => .inl member⟩
  intro other left
  rcases List.mem_append.mp left with before | now
  · exact .inl before
  · cases List.mem_singleton.mp now
    exact .inr ⟨.healthy,List.mem_cons_self⟩

theorem enqueueWrite_effects (id : RequestId) :
    Effects s t (.enqueueWrite id) (s.enqueueWrite id).1 (s.enqueueWrite id).2 := by
  unfold enqueueWrite
  split
  · exact ⟨.inl rfl,by simp,fun _ member => .inl member,fun _ moved => moved,(fun _ _ same => by cases same),
      fun _ active => .inl active,fun shut => ⟨shut,rfl⟩,fun _ member => .inl member⟩
  · rename_i control entered
    obtain ⟨-,accepting,⟨none,-,-,rfl⟩ | ⟨-,no,-⟩⟩ := enqueueGate_some entered
    · refine ⟨.inr (.inr ⟨id,rfl,rfl⟩),by simp [isEntry],fun _ member => .inl member,fun _ moved => moved,
        (fun _ _ same => by cases same),?_,?_,fun _ member => .inl member⟩
      · intro other active
        rw [none] at active
        cases active
      · intro shut
        rw [shut] at accepting
        cases accepting
    · cases no
  · rename_i control entered
    obtain ⟨-,accepting,⟨-,-,no,-⟩ | ⟨-,-,rfl⟩⟩ := enqueueGate_some entered
    · cases no
    · refine ⟨.inr (.inr ⟨id,rfl,rfl⟩),by simp [isEntry],fun _ member => .inl member,fun _ moved => moved,
        (fun _ _ same => by cases same),fun _ active => .inl active,?_,fun _ member => .inl member⟩
      intro shut
      rw [shut] at accepting
      cases accepting

theorem finishWrite_effects {id : RequestId} {otherwise : List Action}
    (finishes : action = .finishTicket id ∧ otherwise = [.abandonWrite id] ∨ action = .finishWrite id ∧ otherwise = []) :
    Effects s t action (s.finishWrite id otherwise).1 (s.finishWrite id otherwise).2 := by
  have other : ∀ id state, action ≠ .cancelForState id state := by
    intro id state same
    rcases finishes with ⟨finish,-⟩ | ⟨finish,-⟩ <;> rw [finish] at same <;> cases same
  have kind : action = .finishTicket id ∨ action = .finishWrite id := by
    rcases finishes with ⟨finish,-⟩ | ⟨finish,-⟩
    · exact .inl finish
    · exact .inr finish
  unfold finishWrite
  split
  · refine ⟨.inl ?_,?_,fun _ member => .inl member,fun _ moved => moved,fun id state same => absurd same (other id state),
      fun _ active => .inl active,fun shut => ⟨shut,rfl⟩,fun _ member => .inl member⟩
    · rcases finishes with ⟨-,rfl⟩ | ⟨-,rfl⟩ <;> rfl
    · intro f member entry
      rcases finishes with ⟨rfl,rfl⟩ | ⟨-,rfl⟩
      · cases List.mem_singleton.mp member
        exact ⟨rfl,rfl⟩
      · cases member
  · rename_i control next done
    obtain ⟨active,⟨head,rest,-,accepting,-,rfl,rfl⟩ | ⟨-,rfl,rfl⟩⟩ := finishGate_some done
    · refine ⟨.inl rfl,by simp [isEntry],fun _ member => .inl member,fun _ moved => moved,
        fun id state same => absurd same (other id state),?_,?_,fun _ member => .inl member⟩
      · intro other now
        rw [active] at now
        cases now
        exact .inr ⟨rfl,kind⟩
      · intro shut
        rw [shut] at accepting
        cases accepting
    · refine ⟨.inl rfl,by simp [isEntry],fun _ member => .inl member,fun _ moved => moved,
        fun id state same => absurd same (other id state),?_,?_,fun _ member => .inl member⟩
      · intro other now
        rw [active] at now
        cases now
        exact .inr ⟨rfl,kind⟩
      · intro shut
        exact ⟨shut,List.append_nil _⟩

theorem perform_effects (performed : s.perform t action = some (s',followUps)) :
    Effects s t action s' followUps := by
  cases action with
  | admitWrite operation =>
    simp only [perform,admitWrite,Option.some.injEq] at performed
    split at performed
    · cases performed
      exact ⟨.inl rfl,by simp,fun _ member => .inl member,fun _ moved => moved,(fun _ _ same => by cases same),
        fun _ active => .inl active,fun shut => ⟨shut,rfl⟩,fun _ member => .inl member⟩
    · cases performed
      exact ⟨.inr (.inl ⟨operation,rfl,rfl⟩),by simp [isEntry],fun _ member => .inl member,fun _ moved => moved,
        (fun _ _ same => by cases same),fun _ active => .inl active,fun shut => ⟨shut,rfl⟩,fun _ member => .inl member⟩
  | enqueueWrite id =>
    obtain ⟨-,same⟩ := whileUnlocked_some.mp performed
    have effects := @enqueueWrite_effects s t id
    rw [same] at effects
    exact effects
  | issueTicket id =>
    cases performed
    exact ⟨.inl rfl,by simp,fun _ member => .inl member,fun _ moved => moved,(fun _ _ same => by cases same),
      fun _ active => .inl active,fun shut => ⟨shut,rfl⟩,fun _ member => .inl member⟩
  | markStarted id =>
    cases performed
    refine @phase_effects s _ t _ id (s.phase id).markStarted ?_ ?_ ?_ ?_ (fun _ _ same => by cases same)
    · cases s.phase id <;> simp [RequestPhase.markStarted]
    all_goals
      simp only [markStarted]
      split <;> rfl
  | markCompleted id =>
    cases performed
    refine @phase_effects s _ t _ id (s.phase id).markCompleted ?_ rfl rfl rfl (fun _ _ same => by cases same)
    cases s.phase id <;> simp [RequestPhase.markCompleted]
  | cancelForState id state =>
    cases performed
    have phases : (s.cancelForState id state).phase = (s.withPhase id ((s.phase id).cancelForState state)).phase := by
      simp only [cancelForState]
      split <;> rfl
    refine @phase_effects s _ t _ id ((s.phase id).cancelForState state) ?_ phases ?_ ?_ ?_
    · cases s.phase id <;> simp [RequestPhase.cancelForState]
    · simp only [cancelForState]
      split <;> rfl
    · simp only [cancelForState]
      split <;> rfl
    · intro other state' same
      cases same
      rw [phases]
      simp only [withPhase,Function.update_self]
      cases s.phase id <;> simp [RequestPhase.cancelForState]
  | cancelQueuedWrite id =>
    obtain ⟨-,same⟩ := whileUnlocked_some.mp performed
    unfold cancelQueuedWrite at same
    split at same
    · cases same
      exact withdraw_effects (fun _ _ same => by cases same)
    · cases same
      have unchanged : GateSame s s := ⟨rfl,rfl,rfl,rfl,rfl,rfl⟩
      exact unchanged.effects rfl (by simp) (fun _ _ same => by cases same)
  | finishTicket id =>
    obtain ⟨-,same⟩ := whileUnlocked_some.mp performed
    have effects := @finishWrite_effects s t (.finishTicket id) id [.abandonWrite id] (.inl ⟨rfl,rfl⟩)
    rw [same] at effects
    exact effects
  | finishWrite id =>
    obtain ⟨-,same⟩ := whileUnlocked_some.mp performed
    have effects := @finishWrite_effects s t (.finishWrite id) id [] (.inr ⟨rfl,rfl⟩)
    rw [same] at effects
    exact effects
  | abandonWrite id =>
    obtain ⟨-,same⟩ := whileUnlocked_some.mp performed
    unfold abandonWrite at same
    split at same
    · cases same
      exact withdraw_effects (fun _ _ same => by cases same)
    · split at same
      · cases same
        refine ⟨.inl rfl,by simp [isEntry],fun _ member => .inl member,fun _ moved => moved,
          (fun _ _ same => by cases same),fun _ active => .inl active,fun shut => ⟨shut,rfl⟩,?_⟩
        intro entry member
        rcases List.mem_append.mp member with before | now
        · exact .inl before
        · cases List.mem_singleton.mp now
          exact .inr ⟨rfl,_,List.mem_cons_self⟩
      · cases same
        have unchanged : GateSame s s := ⟨rfl,rfl,rfl,rfl,rfl,rfl⟩
        exact unchanged.effects rfl (by simp) (fun _ _ same => by cases same)
  | storeState current summary =>
    cases performed
    refine ⟨.inl ?_,?_,?_,fun _ moved => moved,(fun _ _ same => by cases same),
      fun _ active => .inl active,fun _ => ⟨rfl,rfl⟩,fun _ member => .inl member⟩
    · simp [List.filterMap_append,List.filterMap_map,creation,Function.comp_def]
    · intro f member entry
      rcases List.mem_append.mp member with cancel | publish
      · obtain ⟨id,-,rfl⟩ := List.mem_map.mp cancel
        cases entry
      · cases List.mem_singleton.mp publish
        cases entry
    · intro id left
      rcases List.mem_append.mp left with before | now
      · exact .inl before
      · exact .inr ⟨current.instanceState,List.mem_append_left _ (List.mem_map.mpr ⟨id,now,rfl⟩)⟩
  | closeWriteAdmission =>
    obtain ⟨-,same⟩ := whileUnlocked_some.mp performed
    cases same
    refine ⟨.inl ?_,by simp [isEntry],?_,fun _ moved => moved,(fun _ _ same => by cases same),
      fun _ active => .inl active,fun _ => ⟨rfl,rfl⟩,fun _ member => .inl member⟩
    · simp [List.filterMap_map,creation,Function.comp_def]
    · intro id left
      rcases List.mem_append.mp left with before | now
      · exact .inl before
      · exact .inr ⟨_,List.mem_map.mpr ⟨id,now,rfl⟩⟩
  | latchFailure target error | publishStats snapshot | updateRuntimeState snapshot first
  | updateCommitState head durable vlogEnd active count bytes | loadStats | snapshotStats state
  | errorStats state snapshot | beginRead operation failure | handleReadFailure domain error operation
  | completeRead started =>
    obtain ⟨same,abandoned,plain⟩ := perform_aside performed rfl
    exact same.effects abandoned (fun f member => (plain f member).2) (fun _ _ same => by cases same)

theorem takeTicket_kept {id : RequestId} (alive : s.ticket id = .alive) :
    Kept action s (s.withTicket id (.taken t)) := by
  have other : ∀ {id' : RequestId} {ticket : Ticket}, s.ticket id' = ticket → ticket ≠ .alive →
      (s.withTicket id (.taken t)).ticket id' = ticket := by
    intro id' ticket found different
    have apart : id' ≠ id := by
      intro same
      rw [same,alive] at found
      exact different found.symm
    simp only [withTicket,Function.update_of_ne apart]
    exact found
  exact ⟨fun _ member => member,fun _ member => member,fun _ member => member,Nat.le_refl _,
    fun _ _ taken => other taken (by simp),fun _ _ absent => absent,fun _ _ unissued => other unissued (by simp)⟩

-- A call touches nothing but the ticket it takes.
structure Begins (s : Shared) (t : ThreadId) (call : Call) (s' : Shared) : Prop where
  control : s'.control = s.control
  phase : s'.phase = s.phase
  requests : (s'.past.activated,s'.past.finished,s'.past.withdrawn) = (s.past.activated,s.past.finished,s.past.withdrawn)
  kept : Kept .loadStats s s'
  abandoned : ∀ entry ∈ s'.past.abandoned, entry ∈ s.past.abandoned ∨
    (entry.1 = t ∧ s.control.gate.activeRequest = some entry.2 ∧ .abandonWrite entry.2 ∈ callActions call)

theorem begin_gate {call : Call} (core : GateCore s) (begun : s.begin t call = some s') :
    GateCore s' ∧ (∀ f ∈ callActions call, GateSound s' t f) ∧ Begins s t call s' := by
  have unchanged : Begins s t call s :=
    ⟨rfl,rfl,rfl,.of_same rfl (fun _ member => member) (fun _ member => member) (Nat.le_refl _) rfl,
      fun _ member => .inl member⟩
  cases call with
  | finish id =>
    simp only [begin] at begun
    split at begun
    · rename_i alive
      cases begun
      refine ⟨takeTicket_core core alive,?_,⟨rfl,rfl,rfl,takeTicket_kept alive,fun _ member => .inl member⟩⟩
      intro f member
      cases List.mem_singleton.mp member
      exact Function.update_self ..
    · cases begun
  | drop id =>
    simp only [begin] at begun
    split at begun
    · rename_i alive
      cases begun
      have sound : ∀ f ∈ callActions (.drop id), GateSound ((s.noteDrop t id).withTicket id (.taken t)) t f := by
        intro f member
        cases List.mem_singleton.mp member
        exact Function.update_self ..
      unfold noteDrop at sound ⊢
      split at sound
      · rename_i active
        rw [if_pos active]
        have same : GateSame s {s with past := {s.past with abandoned := s.past.abandoned ++ [(t,id)]}} :=
          ⟨rfl,rfl,rfl,rfl,rfl,rfl⟩
        have taken := @takeTicket_kept s t .loadStats id alive
        refine ⟨takeTicket_core (same.core core) alive,sound,⟨rfl,rfl,rfl,
          ⟨taken.admitted,taken.activated,taken.withdrawn,taken.next,taken.taken,taken.fresh,taken.unissued⟩,?_⟩⟩
        intro entry member
        rcases List.mem_append.mp member with before | now
        · exact .inl before
        · cases List.mem_singleton.mp now
          exact .inr ⟨rfl,active,List.mem_cons_self⟩
      · rename_i idle
        rw [if_neg idle]
        exact ⟨takeTicket_core core alive,sound,⟨rfl,rfl,rfl,takeTicket_kept alive,fun _ member => .inl member⟩⟩
    · cases begun
  | cancelQueued id =>
    simp only [begin] at begun
    split at begun
    · cases begun
      exact ⟨core,by simp [callActions,GateSound],unchanged⟩
    · cases begun
  | enqueueWrite operation | latchFailure target error | closeWriteAdmission
  | updateCommitState head durable vlogEnd active count bytes | stats | read operation failure =>
    cases begun
    exact ⟨core,by simp [callActions,GateSound],unchanged⟩

theorem callActions_creation (call : Call) : (callActions call).filterMap creation = [] := by
  cases call <;> rfl

theorem callActions_solo (call : Call) : ∀ a ∈ callActions call, callActions call = [a] := by
  intro a member
  cases call <;> cases List.mem_singleton.mp member <;> rfl

end perform

end Shared
end ExpirKv
