import ExpirKv.Runtime.GateSteps
import ExpirKv.Runtime.StateFacts

namespace ExpirKv
namespace Machine
open Shared (creation isEntry)

variable {m m' : Machine}

-- The drop of an active request has poisoned the instance, or is still on its way to.
def Poisons (m : Machine) (t : ThreadId) (id : RequestId) : Prop :=
  m.shared.control.state.instanceState = .poisoned ∨
    (m.shared.control.gate.activeRequest = some id ∧ .abandonWrite id ∈ m.threads t) ∨
    (∃ error, .latchFailure .poisoned error ∈ m.threads t) ∨
    ∃ epoch summary, .storeState ⟨.poisoned,epoch⟩ summary ∈ m.threads t

structure GateInvariant (m : Machine) : Prop where
  core : m.shared.GateCore
  pending : ∀ t, ∀ a ∈ m.threads t, m.shared.GateSound t a
  solo : ∀ t, ∀ a ∈ m.threads t, isEntry a = true → m.threads t = [a]
  single : ∀ t, ((m.threads t).filterMap creation).length ≤ 1
  unique : ∀ t u id, id ∈ (m.threads t).filterMap creation → id ∈ (m.threads u).filterMap creation → t = u
  cancelling : ∀ id ∈ m.shared.past.withdrawn,
    m.shared.phase id ≠ .queued ∨ ∃ t state, .cancelForState id state ∈ m.threads t
  abandoned : ∀ entry ∈ m.shared.past.abandoned, Poisons m entry.1 entry.2

theorem initial_gate : GateInvariant .new := by
  refine ⟨⟨rfl,rfl,by decide,by decide,by decide,fun _ => rfl,fun _ => rfl,?_,?_,?_,by decide,by decide,?_,?_⟩,
    ?_,?_,?_,?_,?_,?_⟩
  · intro left
    exact absurd rfl left
  · intro id issued
    exact absurd rfl issued
  · intro id member
    cases member
  · intro id phase
    rcases phase with phase | phase <;> cases phase
  · intro id state phase
    cases phase
  · intro t a member
    cases member
  · intro t a member
    cases member
  · intro t
    exact Nat.zero_le _
  · intro t u id member
    cases member
  · intro id member
    cases member
  · intro entry member
    cases member

section act
variable {t : ThreadId} {action : Action} {rest followUps : List Action} {shared : Shared}

theorem GateInvariant.head (valid : GateInvariant m) (pending : m.threads t = action :: rest) :
    m.shared.GateSound t action := valid.pending t action (by rw [pending]; exact List.mem_cons_self)

-- An action that stands alone leaves nothing behind it.
theorem GateInvariant.rest_nil (valid : GateInvariant m) (pending : m.threads t = action :: rest)
    (entry : isEntry action = true) : rest = [] := by
  have alone := valid.solo t action (by rw [pending]; exact List.mem_cons_self) entry
  rw [pending] at alone
  exact (List.cons.inj alone).2

theorem GateInvariant.rest_entry (valid : GateInvariant m) (pending : m.threads t = action :: rest) {a : Action}
    (member : a ∈ rest) : isEntry a = false := by
  cases entry : isEntry a with
  | false => rfl
  | true =>
    have alone := valid.solo t a (by rw [pending]; exact List.mem_cons_of_mem _ member) entry
    rw [pending] at alone
    rw [(List.cons.inj alone).2] at member
    cases member

theorem GateInvariant.issued (valid : GateInvariant m) {u : ThreadId} {id : RequestId}
    (member : id ∈ (m.threads u).filterMap creation) : id < m.shared.nextRequestId := by
  obtain ⟨a,listed,made⟩ := List.mem_filterMap.mp member
  have sound := valid.pending u a listed
  cases a with
  | enqueueWrite other =>
    cases made
    exact sound.1
  | issueTicket other =>
    cases made
    exact valid.core.issued id sound.1
  | _ => cases made

theorem creation_kept {id : RequestId} (member : id ∈ rest.filterMap creation) (pending : m.threads t = action :: rest) :
    id ∈ (m.threads t).filterMap creation := by
  rw [pending]
  obtain ⟨a,listed,made⟩ := List.mem_filterMap.mp member
  exact List.mem_filterMap.mpr ⟨a,List.mem_cons_of_mem _ listed,made⟩

theorem act_single (valid : GateInvariant m) (pending : m.threads t = action :: rest)
    (performed : m.shared.perform t action = some (shared,followUps)) (u : ThreadId) :
    (((m.withThread shared t (followUps ++ rest)).threads u).filterMap creation).length ≤ 1 := by
  by_cases same : u = t
  · subst same
    rw [withThread_self,List.filterMap_append,List.length_append]
    rcases (Shared.perform_effects performed).creations with none | ⟨operation,rfl,one⟩ | ⟨id,rfl,one⟩
    · have once := valid.single u
      rw [pending,List.filterMap_cons] at once
      rw [none]
      split at once
      · simpa using once
      · simp only [List.length_cons,List.length_nil] at once ⊢
        omega
    · rw [one,valid.rest_nil pending rfl]
      exact Nat.le_refl _
    · rw [one,valid.rest_nil pending rfl]
      exact Nat.le_refl _
  · rw [withThread_other same]
    exact valid.single u

-- A creation seen after the step was there before, or took the next number.
theorem act_creation (pending : m.threads t = action :: rest)
    (performed : m.shared.perform t action = some (shared,followUps)) {u : ThreadId} {id : RequestId}
    (member : id ∈ ((m.withThread shared t (followUps ++ rest)).threads u).filterMap creation) :
    id ∈ (m.threads u).filterMap creation ∨ (u = t ∧ id = m.shared.nextRequestId) := by
  by_cases same : u = t
  · subst same
    rw [withThread_self,List.filterMap_append] at member
    rcases List.mem_append.mp member with new | old
    · rcases (Shared.perform_effects performed).creations with none | ⟨operation,rfl,one⟩ | ⟨made,rfl,one⟩
      · rw [none] at new
        cases new
      · rw [one] at new
        exact .inr ⟨rfl,List.mem_singleton.mp new⟩
      · rw [one] at new
        cases List.mem_singleton.mp new
        rw [pending]
        exact .inl List.mem_cons_self
    · exact .inl (creation_kept old pending)
  · rw [withThread_other same] at member
    exact .inl member

theorem act_unique (valid : GateInvariant m) (pending : m.threads t = action :: rest)
    (performed : m.shared.perform t action = some (shared,followUps)) (u v : ThreadId) (id : RequestId)
    (one : id ∈ ((m.withThread shared t (followUps ++ rest)).threads u).filterMap creation)
    (two : id ∈ ((m.withThread shared t (followUps ++ rest)).threads v).filterMap creation) : u = v := by
  rcases act_creation pending performed one with before | ⟨rfl,rfl⟩
  · rcases act_creation pending performed two with before' | ⟨rfl,rfl⟩
    · exact valid.unique u v id before before'
    · exact absurd (valid.issued before) (Nat.lt_irrefl _)
  · rcases act_creation pending performed two with before' | ⟨rfl,-⟩
    · exact absurd (valid.issued before') (Nat.lt_irrefl _)
    · rfl

theorem act_solo (valid : GateInvariant m) (pending : m.threads t = action :: rest)
    (performed : m.shared.perform t action = some (shared,followUps)) (u : ThreadId) (a : Action)
    (member : a ∈ (m.withThread shared t (followUps ++ rest)).threads u) (entry : isEntry a = true) :
    (m.withThread shared t (followUps ++ rest)).threads u = [a] := by
  rcases withThread_mem member with ⟨rfl,now⟩ | ⟨other,before⟩
  · rw [withThread_self]
    rcases List.mem_append.mp now with new | old
    · obtain ⟨enters,only⟩ := (Shared.perform_effects performed).entries a new entry
      rw [valid.rest_nil pending enters,only]
      rfl
    · rw [valid.rest_entry pending old] at entry
      cases entry
  · rw [withThread_other other]
    exact valid.solo u a before entry

theorem act_cancelling (valid : GateInvariant m) (pending : m.threads t = action :: rest)
    (performed : m.shared.perform t action = some (shared,followUps)) (id : RequestId)
    (member : id ∈ shared.past.withdrawn) :
    shared.phase id ≠ .queued ∨
      ∃ u state, .cancelForState id state ∈ (m.withThread shared t (followUps ++ rest)).threads u := by
  have effects := Shared.perform_effects performed
  rcases effects.withdrawn id member with before | ⟨state,cancels⟩
  · rcases valid.cancelling id before with moved | ⟨u,state,cancels⟩
    · exact .inl (effects.phases id moved)
    · by_cases same : u = t
      · subst same
        rw [pending] at cancels
        rcases List.mem_cons.mp cancels with head | later
        · exact .inl (effects.cancels id state head.symm)
        · refine .inr ⟨u,state,?_⟩
          rw [withThread_self]
          exact List.mem_append_right _ later
      · refine .inr ⟨u,state,?_⟩
        rw [withThread_other same]
        exact cancels
  · refine .inr ⟨t,state,?_⟩
    rw [withThread_self]
    exact List.mem_append_left _ cancels

theorem act_pending (valid : GateInvariant m) (pending : m.threads t = action :: rest)
    (performed : m.shared.perform t action = some (shared,followUps)) (u : ThreadId) (a : Action)
    (member : a ∈ (m.withThread shared t (followUps ++ rest)).threads u) : shared.GateSound u a := by
  obtain ⟨-,sound,kept⟩ := Shared.perform_gate valid.core (valid.head pending) performed
  -- A request has one creator, so this step does not touch what another call is creating.
  have mine : ∀ id, creation action = some id → id ∈ (m.threads t).filterMap creation := by
    intro id made
    rw [pending]
    exact List.mem_filterMap.mpr ⟨action,List.mem_cons_self,made⟩
  rcases withThread_mem member with ⟨rfl,now⟩ | ⟨other,before⟩
  · rcases List.mem_append.mp now with new | old
    · exact sound a new
    · refine kept.sound ?_ (valid.pending u a (by rw [pending]; exact List.mem_cons_of_mem _ old))
      intro id made same
      have once := valid.single u
      have later : id ∈ rest.filterMap creation := List.mem_filterMap.mpr ⟨a,old,same⟩
      rw [pending,List.filterMap_cons_some made,List.length_cons] at once
      have some := List.length_pos_of_mem later
      omega
  · refine kept.sound ?_ (valid.pending u a before)
    intro id made same
    exact other (valid.unique u t id (List.mem_filterMap.mpr ⟨a,before,same⟩) (mine id made))

-- Only the thread that took the ticket can end the active request.
theorem act_active (valid : GateInvariant m) (pending : m.threads t = action :: rest)
    (performed : m.shared.perform t action = some (shared,followUps)) {id : RequestId}
    (active : m.shared.control.gate.activeRequest = some id) :
    shared.control.gate.activeRequest = some id ∨
      (shared.past.finished = m.shared.past.finished ++ [id] ∧ m.shared.ticket id = .taken t ∧
        (action = .finishTicket id ∨ action = .finishWrite id)) := by
  have sound := valid.head pending
  rcases (Shared.perform_effects performed).active id active with same | ⟨finished,rfl | rfl⟩
  · exact .inl same
  · exact .inr ⟨finished,sound,.inl rfl⟩
  · exact .inr ⟨finished,sound,.inr rfl⟩

-- The abandoned request is not queued, so its drop reaches the latch.
theorem abandonWrite_latches (core : m.shared.GateCore) {id : RequestId}
    (active : m.shared.control.gate.activeRequest = some id)
    (performed : m.shared.perform t (.abandonWrite id) = some (shared,followUps)) :
    ∃ error, .latchFailure .poisoned error ∈ followUps := by
  have absent : id ∉ m.shared.control.gate.orderedQueue := by
    intro queued
    exact (List.nodup_append.mp core.nodup).2.2 id (core.active_mem active) id queued rfl
  obtain ⟨-,same⟩ := Shared.whileUnlocked_some.mp performed
  rw [Shared.abandonWrite,if_neg absent,if_pos active] at same
  cases same
  exact ⟨_,List.mem_cons_self⟩

theorem latchFailure_poisons {error : StorageError}
    (performed : m.shared.perform t (.latchFailure .poisoned error) = some (shared,followUps)) :
    m.shared.control.state.instanceState = .poisoned ∨
      ∃ epoch summary, .storeState ⟨.poisoned,epoch⟩ summary ∈ followUps := by
  obtain ⟨-,same⟩ := Shared.whileUnlocked_some.mp performed
  simp only [Shared.latchFailure,requiredFailureState_poisoned] at same
  split at same
  · rename_i top
    cases state : m.shared.control.state.instanceState with
    | poisoned => exact .inl rfl
    | healthy | writeStopped =>
      rw [state] at top
      cases top
  · cases same
    exact .inr ⟨_,_,List.mem_cons_self⟩

theorem act_poisons (valid : GateInvariant m) (states : StateInvariant m) (pending : m.threads t = action :: rest)
    (performed : m.shared.perform t action = some (shared,followUps)) {u : ThreadId} {id : RequestId}
    (poisons : Poisons m u id) : Poisons (m.withThread shared t (followUps ++ rest)) u id := by
  have sound := states.pending t action (by rw [pending]; exact List.mem_cons_self)
  obtain ⟨core,later,-⟩ := Shared.perform_core states.core sound performed
  have stays : m.shared.control.state.instanceState = .poisoned → shared.control.state.instanceState = .poisoned := by
    intro poisoned
    have above := core.below (later.mem states.core.current_mem)
    rw [poisoned] at above
    cases state : shared.control.state.instanceState with
    | poisoned => rfl
    | healthy | writeStopped =>
      rw [state] at above
      simp [stateRank] at above
  rcases poisons with poisoned | ⟨active,listed⟩ | ⟨error,listed⟩ | ⟨epoch,summary,listed⟩
  · exact .inl (stays poisoned)
  · by_cases same : u = t
    · subst same
      have alone := valid.solo u _ listed rfl
      rw [pending] at alone
      obtain ⟨rfl,rfl⟩ := List.cons.inj alone
      obtain ⟨error,latches⟩ := abandonWrite_latches valid.core active performed
      refine .inr (.inr (.inl ⟨error,?_⟩))
      rw [withThread_self]
      exact List.mem_append_left _ latches
    · refine .inr (.inl ⟨?_,?_⟩)
      · rcases act_active valid pending performed active with kept | ⟨-,taken,-⟩
        · exact kept
        · have mine : m.shared.GateSound u (.abandonWrite id) := valid.pending u _ listed
          have holder := taken.symm.trans mine
          cases holder
          exact absurd rfl same
      · rw [withThread_other same]
        exact listed
  · by_cases same : u = t
    · subst same
      rw [pending] at listed
      rcases List.mem_cons.mp listed with rfl | old
      · rcases latchFailure_poisons performed with poisoned | ⟨epoch,summary,stores⟩
        · exact .inl (stays poisoned)
        · refine .inr (.inr (.inr ⟨epoch,summary,?_⟩))
          rw [withThread_self]
          exact List.mem_append_left _ stores
      · refine .inr (.inr (.inl ⟨error,?_⟩))
        rw [withThread_self]
        exact List.mem_append_right _ old
    · refine .inr (.inr (.inl ⟨error,?_⟩))
      rw [withThread_other same]
      exact listed
  · by_cases same : u = t
    · subst same
      rw [pending] at listed
      rcases List.mem_cons.mp listed with rfl | old
      · cases performed
        refine .inl ?_
        have stored := Shared.storeState_state states.core sound
        exact congrArg StateSnapshot.instanceState stored
      · refine .inr (.inr (.inr ⟨epoch,summary,?_⟩))
        rw [withThread_self]
        exact List.mem_append_right _ old
    · refine .inr (.inr (.inr ⟨epoch,summary,?_⟩))
      rw [withThread_other same]
      exact listed

theorem act_gate (valid : GateInvariant m) (states : StateInvariant m) (pending : m.threads t = action :: rest)
    (performed : m.shared.perform t action = some (shared,followUps)) :
    GateInvariant (m.withThread shared t (followUps ++ rest)) := by
  obtain ⟨core,-,-⟩ := Shared.perform_gate valid.core (valid.head pending) performed
  refine ⟨core,act_pending valid pending performed,act_solo valid pending performed,
    act_single valid pending performed,act_unique valid pending performed,act_cancelling valid pending performed,?_⟩
  intro entry member
  rcases (Shared.perform_effects performed).abandoned entry member with before | ⟨mine,error,latches⟩
  · exact act_poisons valid states pending performed (valid.abandoned entry before)
  · refine .inr (.inr (.inl ⟨error,?_⟩))
    rw [mine,withThread_self]
    exact List.mem_append_left _ latches

end act

theorem call_gate (valid : GateInvariant m) {t : ThreadId} {call : Call} {shared : Shared} (idle : m.threads t = [])
    (begun : m.shared.begin t call = some shared) :
    GateInvariant (m.withThread shared t (Shared.callActions call)) := by
  obtain ⟨core,sound,begins⟩ := Shared.begin_gate valid.core begun
  have requests := begins.requests
  simp only [Prod.mk.injEq] at requests
  have elsewhere : ∀ {u : ThreadId} {a : Action}, a ∈ m.threads u → u ≠ t := by
    intro u a member same
    rw [same,idle] at member
    cases member
  refine ⟨core,?_,?_,?_,?_,?_,?_⟩
  · intro u a member
    rcases withThread_mem member with ⟨rfl,new⟩ | ⟨-,old⟩
    · exact sound a new
    · exact begins.kept.sound (fun _ made => by cases made) (valid.pending u a old)
  · intro u a member entry
    rcases withThread_mem member with ⟨rfl,new⟩ | ⟨other,old⟩
    · rw [withThread_self]
      exact Shared.callActions_solo call a new
    · rw [withThread_other other]
      exact valid.solo u a old entry
  · intro u
    by_cases same : u = t
    · rw [same,withThread_self,Shared.callActions_creation]
      exact Nat.zero_le _
    · rw [withThread_other same]
      exact valid.single u
  · intro u v id one two
    have before : ∀ {w : ThreadId}, id ∈ ((m.withThread shared t (Shared.callActions call)).threads w).filterMap creation →
        id ∈ (m.threads w).filterMap creation := by
      intro w member
      by_cases same : w = t
      · rw [same,withThread_self,Shared.callActions_creation] at member
        cases member
      · rw [withThread_other same] at member
        exact member
    exact valid.unique u v id (before one) (before two)
  · intro id member
    rw [show (m.withThread shared t _).shared = shared from rfl,requests.2.2] at member
    rw [show (m.withThread shared t _).shared = shared from rfl,begins.phase]
    rcases valid.cancelling id member with moved | ⟨u,state,listed⟩
    · exact .inl moved
    · refine .inr ⟨u,state,?_⟩
      rw [withThread_other (elsewhere listed)]
      exact listed
  · intro entry member
    rcases begins.abandoned entry member with before | ⟨mine,active,listed⟩
    · have same : (m.withThread shared t (Shared.callActions call)).shared.control = m.shared.control := begins.control
      unfold Poisons
      rw [same]
      rcases valid.abandoned entry before with poisoned | ⟨active,listed⟩ | ⟨error,listed⟩ | ⟨epoch,summary,listed⟩
      · exact .inl poisoned
      · exact .inr (.inl ⟨active,by rw [withThread_other (elsewhere listed)]; exact listed⟩)
      · exact .inr (.inr (.inl ⟨error,by rw [withThread_other (elsewhere listed)]; exact listed⟩))
      · exact .inr (.inr (.inr ⟨epoch,summary,by rw [withThread_other (elsewhere listed)]; exact listed⟩))
    · refine .inr (.inl ⟨?_,?_⟩)
      · rw [show (m.withThread shared t _).shared = shared from rfl,begins.control]
        exact active
      · rw [mine,withThread_self]
        exact listed

theorem step_gate (valid : GateInvariant m) (states : StateInvariant m) (step : Step m m') : GateInvariant m' := by
  cases step with
  | call idle begun => exact call_gate valid idle begun
  | act pending performed => exact act_gate valid states pending performed

theorem reached_gate (reached : Runs .new m) : GateInvariant m := by
  induction reached with
  | refl => exact initial_gate
  | tail before step ih => exact step_gate ih (reached_state before) step

-- A closed gate stays closed and starts nobody.
theorem step_closed (valid : GateInvariant m) (step : Step m m')
    (shut : m.shared.control.gate.acceptingWrites = false) :
    m'.shared.control.gate.acceptingWrites = false ∧ m'.shared.past.activated = m.shared.past.activated := by
  cases step with
  | call idle begun =>
    obtain ⟨-,-,begins⟩ := Shared.begin_gate valid.core begun
    have requests := begins.requests
    simp only [Prod.mk.injEq] at requests
    refine ⟨?_,requests.1⟩
    exact (congrArg (fun control => control.gate.acceptingWrites) begins.control).trans shut
  | act pending performed => exact (Shared.perform_effects performed).closed shut

theorem runs_closed (valid : GateInvariant m) (states : StateInvariant m) (runs : Runs m m')
    (shut : m.shared.control.gate.acceptingWrites = false) : m'.shared.past.activated = m.shared.past.activated := by
  have kept : GateInvariant m' ∧ StateInvariant m' ∧ m'.shared.control.gate.acceptingWrites = false ∧
      m'.shared.past.activated = m.shared.past.activated := by
    induction runs with
    | refl => exact ⟨valid,states,shut,rfl⟩
    | tail _ step ih =>
      obtain ⟨valid,states,shut,same⟩ := ih
      obtain ⟨shut',same'⟩ := step_closed valid step shut
      exact ⟨step_gate valid states step,step_state states step,shut',same'.trans same⟩
  exact kept.2.2.2

-- No waiter is orphaned.
theorem GateInvariant.waiter (valid : GateInvariant m) {id : RequestId} (queued : m.shared.phase id = .queued)
    (alive : m.shared.ticket id = .alive) :
    (id ∈ m.shared.control.gate.orderedQueue ∧ m.shared.control.gate.activeRequest.isSome) ∨
      m.shared.control.gate.activeRequest = some id ∨ ∃ t state, .cancelForState id state ∈ m.threads t := by
  have admitted := valid.core.tickets id (by rw [alive]; decide)
  by_cases withdrawn : id ∈ m.shared.past.withdrawn
  · rcases valid.cancelling id withdrawn with moved | cancelling
    · exact absurd queued moved
    · exact .inr (.inr cancelling)
  · rcases valid.core.mem.mpr ⟨admitted,withdrawn⟩ with activated | waiting
    · rw [valid.core.oneActive] at activated
      rcases List.mem_append.mp activated with finished | active
      · obtain ⟨t,taken⟩ := valid.core.finished id finished
        rw [alive] at taken
        cases taken
      · exact .inr (.inl (by simpa using active))
    · refine .inl ⟨waiting,?_⟩
      cases active : m.shared.control.gate.activeRequest with
      | some other => rfl
      | none =>
        rw [valid.core.idle active] at waiting
        cases waiting

theorem write_gate_safety (reached : Runs .new m) :
    (m.shared.past.activated = m.shared.past.finished ++ m.shared.control.gate.activeRequest.toList ∧
      m.shared.past.activated.Nodup) ∧
    (∀ m' id, Step m m' → m.shared.control.gate.activeRequest = some id →
      m'.shared.control.gate.activeRequest ≠ some id →
      ∃ t rest, m.shared.ticket id = .taken t ∧
        (m.threads t = .finishTicket id :: rest ∨ m.threads t = .finishWrite id :: rest) ∧
        m'.shared.past.finished = m.shared.past.finished ++ [id]) ∧
    m.shared.past.activated ++ m.shared.control.gate.orderedQueue =
      m.shared.past.admitted.filter (fun id => decide (id ∉ m.shared.past.withdrawn)) ∧
    (m.shared.control.gate.activeRequest = none → m.shared.control.gate.orderedQueue = []) ∧
    (m.shared.control.gate.acceptingWrites = false → m.shared.control.gate.orderedQueue = []) ∧
    (m.shared.control.state.instanceState ≠ .healthy ∨ m.shared.control.gate.acceptingWrites = false →
      ∀ m', Runs m m' → m'.shared.past.activated = m.shared.past.activated) ∧
    (∀ id, m.shared.phase id = .queued → m.shared.ticket id = .alive →
      (id ∈ m.shared.control.gate.orderedQueue ∧ m.shared.control.gate.activeRequest.isSome) ∨
      m.shared.control.gate.activeRequest = some id ∨ ∃ t state, .cancelForState id state ∈ m.threads t) ∧
    (∀ id, (m.shared.phase id = .started ∨ m.shared.phase id = .completed → id ∈ m.shared.past.started) ∧
      (∀ state, m.shared.phase id = .cancelled state → id ∈ m.shared.past.cancelled) ∧
      ¬(id ∈ m.shared.past.started ∧ id ∈ m.shared.past.cancelled)) ∧
    (∀ t id, (t,id) ∈ m.shared.past.abandoned → m.threads t = [] →
      m.shared.control.state.instanceState = .poisoned) := by
  have valid := reached_gate reached
  have states := reached_state reached
  refine ⟨⟨valid.core.oneActive,(List.nodup_append.mp valid.core.nodup).1⟩,?_,valid.core.inOrder,valid.core.idle,
    valid.core.closed,?_,fun _ queued alive => valid.waiter queued alive,?_,?_⟩
  · intro m' id step active ended
    cases step with
    | call idle begun =>
      obtain ⟨-,-,begins⟩ := Shared.begin_gate valid.core begun
      refine absurd ?_ ended
      exact (congrArg (fun control => control.gate.activeRequest) begins.control).trans active
    | @act t action rest followUps shared pending performed =>
      rcases act_active valid pending performed active with kept | ⟨finished,taken,rfl | rfl⟩
      · exact absurd kept ended
      · exact ⟨t,rest,taken,.inl pending,finished⟩
      · exact ⟨t,rest,taken,.inr pending,finished⟩
  · intro left m' runs
    refine runs_closed valid states runs ?_
    rcases left with unhealthy | shut
    · exact valid.core.unhealthy unhealthy
    · exact shut
  · intro id
    refine ⟨valid.core.startedPhase id,valid.core.cancelledPhase id,?_⟩
    intro both
    have activated := valid.core.started id both.1
    exact (valid.core.mem.mp (.inl activated)).2 (valid.core.cancelled id both.2)
  · intro t id dropped idle
    rcases valid.abandoned (t,id) dropped with poisoned | ⟨-,listed⟩ | ⟨error,listed⟩ | ⟨epoch,summary,listed⟩
    · exact poisoned
    all_goals
      simp only at listed
      rw [idle] at listed
      cases listed

-- The first request is dropped while it runs; the second is waiting behind it.
def droppedWriter : List (ThreadId × Option Call) :=
  [(0,some (.enqueueWrite .put)),(0,none),(0,none),(0,none),(0,none),
   (1,some (.enqueueWrite .delete)),(1,none),(1,none),(1,none),
   (0,some (.drop 1)),(0,none),(0,none),(0,none),(0,none),(0,none),(0,none),(0,none),(0,none)]

theorem write_gate_safety_dropped :
    ∃ m, Machine.new.play droppedWriter = some m ∧
      (m.shared.past.activated,m.shared.past.withdrawn,m.shared.past.cancelled) = ([1],[2],[2]) ∧
      m.shared.control.state.instanceState = .poisoned := by
  have shown : (Machine.new.play droppedWriter).map (fun m =>
      ((m.shared.past.activated,m.shared.past.withdrawn,m.shared.past.cancelled),
        m.shared.past.abandoned,m.threads 0)) = some (([1],[2],[2]),[(0,1),(0,1)],[]) := rfl
  obtain ⟨m,played,ends⟩ := Option.map_eq_some_iff.mp shown
  simp only [Prod.mk.injEq] at ends
  refine ⟨m,played,?_,?_⟩
  · simp only [ends]
  · refine (write_gate_safety (play_runs played)).2.2.2.2.2.2.2.2 0 1 ?_ ends.2.2
    rw [ends.2.1]
    exact List.mem_cons_self

end Machine
end ExpirKv
