import ExpirKv.Runtime.StateSteps

namespace ExpirKv
namespace Shared

-- Between the gate, the history of requests and the tickets.
structure GateCore (s : Shared) : Prop where
  oneActive : s.past.activated = s.past.finished ++ s.control.gate.activeRequest.toList
  inOrder : s.past.activated ++ s.control.gate.orderedQueue =
    s.past.admitted.filter (fun id => decide (id ∉ s.past.withdrawn))
  distinct : s.past.admitted.Nodup
  issued : ∀ id ∈ s.past.admitted, id < s.nextRequestId
  withdrawn : ∀ id ∈ s.past.withdrawn, id ∈ s.past.admitted
  idle : s.control.gate.activeRequest = none → s.control.gate.orderedQueue = []
  closed : s.control.gate.acceptingWrites = false → s.control.gate.orderedQueue = []
  unhealthy : s.control.state.instanceState ≠ .healthy → s.control.gate.acceptingWrites = false
  tickets : ∀ id, s.ticket id ≠ .unissued → id ∈ s.past.admitted
  finished : ∀ id ∈ s.past.finished, ∃ t, s.ticket id = .taken t
  started : ∀ id ∈ s.past.started, id ∈ s.past.activated
  cancelled : ∀ id ∈ s.past.cancelled, id ∈ s.past.withdrawn
  startedPhase : ∀ id, s.phase id = .started ∨ s.phase id = .completed → id ∈ s.past.started
  cancelledPhase : ∀ id state, s.phase id = .cancelled state → id ∈ s.past.cancelled

def GateSound (s : Shared) (t : ThreadId) : Action → Prop
  | .enqueueWrite id => id < s.nextRequestId ∧ id ∉ s.past.admitted
  | .issueTicket id => id ∈ s.past.admitted ∧ s.ticket id = .unissued
  | .markStarted id => id ∈ s.past.activated
  | .cancelForState id _ => id ∈ s.past.withdrawn
  | .finishTicket id | .finishWrite id | .abandonWrite id => s.ticket id = .taken t
  | _ => True

section core
variable {s s' : Shared}

theorem GateCore.mem (core : GateCore s) {id : RequestId} :
    id ∈ s.past.activated ∨ id ∈ s.control.gate.orderedQueue ↔ id ∈ s.past.admitted ∧ id ∉ s.past.withdrawn := by
  rw [← List.mem_append,core.inOrder,List.mem_filter,decide_eq_true_eq]

theorem GateCore.nodup (core : GateCore s) : (s.past.activated ++ s.control.gate.orderedQueue).Nodup := by
  rw [core.inOrder]
  exact core.distinct.filter _

theorem GateCore.active_mem (core : GateCore s) {id : RequestId} (active : s.control.gate.activeRequest = some id) :
    id ∈ s.past.activated := by
  rw [core.oneActive,active]
  simp

-- What leaves the queue without becoming active is skipped.
theorem GateCore.skip (core : GateCore s) (gone : List RequestId)
    (queued : ∀ id ∈ gone, id ∈ s.control.gate.orderedQueue) :
    s.past.activated ++ s.control.gate.orderedQueue.filter (fun id => decide (id ∉ gone)) =
      s.past.admitted.filter (fun id => decide (id ∉ s.past.withdrawn ++ gone)) := by
  have split : s.past.admitted.filter (fun id => decide (id ∉ s.past.withdrawn ++ gone)) =
      (s.past.admitted.filter (fun id => decide (id ∉ s.past.withdrawn))).filter (fun id => decide (id ∉ gone)) := by
    rw [List.filter_filter]
    apply List.filter_congr
    intro id _
    rw [Bool.eq_iff_iff]
    simp only [List.mem_append,not_or,decide_eq_true_eq,Bool.and_eq_true]
    exact and_comm
  have kept : s.past.activated.filter (fun id => decide (id ∉ gone)) = s.past.activated := by
    rw [List.filter_eq_self]
    intro id member
    rw [decide_eq_true_eq]
    intro left
    exact (List.nodup_append.mp core.nodup).2.2 id member id (queued id left) rfl
  rw [split,← core.inOrder,List.filter_append,kept]

theorem withdraw_core (core : GateCore s) {id : RequestId} (queued : id ∈ s.control.gate.orderedQueue) :
    GateCore (s.withdraw id) := by
  have member := core.mem.mp (.inr queued)
  have skipped := core.skip [id] (by simpa using queued)
  have erased : s.control.gate.orderedQueue.erase id =
      s.control.gate.orderedQueue.filter (fun other => decide (other ∉ [id])) := by
    rw [List.Nodup.erase_eq_filter (List.nodup_append.mp core.nodup).2.1]
    apply List.filter_congr
    intro other _
    rw [Bool.eq_iff_iff]
    simp [bne]
  refine ⟨core.oneActive,?_,core.distinct,core.issued,?_,?_,?_,core.unhealthy,core.tickets,core.finished,core.started,
    ?_,core.startedPhase,core.cancelledPhase⟩
  · show s.past.activated ++ s.control.gate.orderedQueue.erase id = _
    rw [erased]
    exact skipped
  · intro other left
    rcases List.mem_append.mp left with before | now
    · exact core.withdrawn other before
    · rw [List.mem_singleton.mp now]
      exact member.1
  · intro none
    have empty := core.idle none
    rw [empty] at queued
    cases queued
  · intro closed
    have empty := core.closed closed
    rw [empty] at queued
    cases queued
  · intro other left
    exact List.mem_append_left _ (core.cancelled other left)

-- `latch_failure` and `close_write_admission` empty the queue and close the gate.
theorem drain_core (core : GateCore s)
    (oneGate : s'.control.gate = {s.control.gate with acceptingWrites := false,orderedQueue := []})
    (onePast : s'.past = {s.past with
      withdrawn := s.past.withdrawn ++ s.control.gate.orderedQueue,upgrades := s'.past.upgrades})
    (next : s'.nextRequestId = s.nextRequestId) (ticket : s'.ticket = s.ticket) (phase : s'.phase = s.phase) :
    GateCore s' := by
  have skipped := core.skip s.control.gate.orderedQueue (fun _ queued => queued)
  have none : s.control.gate.orderedQueue.filter (fun id => decide (id ∉ s.control.gate.orderedQueue)) = [] := by
    rw [List.filter_eq_nil_iff]
    intro id queued
    simp [queued]
  rw [none] at skipped
  refine ⟨?_,?_,?_,?_,?_,?_,?_,?_,?_,?_,?_,?_,?_,?_⟩
  · rw [onePast,oneGate]
    exact core.oneActive
  · rw [onePast,oneGate]
    exact skipped
  · rw [onePast]
    exact core.distinct
  · rw [onePast,next]
    exact core.issued
  · rw [onePast]
    intro id left
    rcases List.mem_append.mp left with before | now
    · exact core.withdrawn id before
    · exact (core.mem.mp (.inr now)).1
  · rw [oneGate]
    exact fun _ => rfl
  · rw [oneGate]
    exact fun _ => rfl
  · rw [oneGate]
    exact fun _ => rfl
  · rw [ticket,onePast]
    exact core.tickets
  · rw [ticket,onePast]
    exact core.finished
  · rw [onePast]
    exact core.started
  · rw [onePast]
    exact fun id left => List.mem_append_left _ (core.cancelled id left)
  · rw [phase,onePast]
    exact core.startedPhase
  · rw [phase,onePast]
    exact core.cancelledPhase

theorem admitWrite_core (core : GateCore s) (operation : Operation) : GateCore (s.admitWrite operation).1 := by
  unfold admitWrite
  split
  · exact core
  · exact ⟨core.oneActive,core.inOrder,core.distinct,fun id member => Nat.lt_succ_of_lt (core.issued id member),
      core.withdrawn,core.idle,core.closed,core.unhealthy,core.tickets,core.finished,core.started,core.cancelled,
      core.startedPhase,core.cancelledPhase⟩

theorem issueTicket_core (core : GateCore s) {id : RequestId} (member : id ∈ s.past.admitted)
    (unissued : s.ticket id = .unissued) : GateCore (s.withTicket id .alive) := by
  refine ⟨core.oneActive,core.inOrder,core.distinct,core.issued,core.withdrawn,core.idle,core.closed,core.unhealthy,
    ?_,?_,core.started,core.cancelled,core.startedPhase,core.cancelledPhase⟩
  · intro other issued
    by_cases same : other = id
    · rw [same]
      exact member
    · simp only [withTicket,Function.update_of_ne same] at issued
      exact core.tickets other issued
  · intro other finished
    obtain ⟨t,taken⟩ := core.finished other finished
    refine ⟨t,?_⟩
    have different : other ≠ id := by
      intro same
      rw [same,unissued] at taken
      cases taken
    simp only [withTicket,Function.update_of_ne different]
    exact taken

theorem takeTicket_core (core : GateCore s) {id : RequestId} {t : ThreadId} (alive : s.ticket id = .alive) :
    GateCore (s.withTicket id (.taken t)) := by
  refine ⟨core.oneActive,core.inOrder,core.distinct,core.issued,core.withdrawn,core.idle,core.closed,core.unhealthy,
    ?_,?_,core.started,core.cancelled,core.startedPhase,core.cancelledPhase⟩
  · intro other issued
    by_cases same : other = id
    · rw [same]
      exact core.tickets id (by rw [alive]; decide)
    · simp only [withTicket,Function.update_of_ne same] at issued
      exact core.tickets other issued
  · intro other finished
    by_cases same : other = id
    · exact ⟨t,by simp [withTicket,same]⟩
    · simp only [withTicket,Function.update_of_ne same]
      exact core.finished other finished

theorem enqueueWrite_core (core : GateCore s) {id : RequestId} (t : ThreadId) (issued : id < s.nextRequestId)
    (fresh : id ∉ s.past.admitted) (unissued : s.ticket id = .unissued) :
    GateCore (s.enqueueWrite id).1 ∧ ∀ f ∈ (s.enqueueWrite id).2, GateSound (s.enqueueWrite id).1 t f := by
  have kept : id ∉ s.past.withdrawn := fun left => fresh (core.withdrawn id left)
  have grown : (s.past.admitted ++ [id]).filter (fun id => decide (id ∉ s.past.withdrawn)) =
      s.past.admitted.filter (fun id => decide (id ∉ s.past.withdrawn)) ++ [id] := by
    rw [List.filter_append]
    simp [kept]
  have distinct : (s.past.admitted ++ [id]).Nodup := by
    rw [List.nodup_append]
    refine ⟨core.distinct,by simp,?_⟩
    intro other member last now same
    rw [List.mem_singleton.mp now] at same
    rw [same] at member
    exact fresh member
  have numbered : ∀ other ∈ s.past.admitted ++ [id], other < s.nextRequestId := by
    intro other member
    rcases List.mem_append.mp member with before | now
    · exact core.issued other before
    · rw [List.mem_singleton.mp now]
      exact issued
  have withdrawn : ∀ other ∈ s.past.withdrawn, other ∈ s.past.admitted ++ [id] :=
    fun other left => List.mem_append_left _ (core.withdrawn other left)
  have tickets : ∀ other, s.ticket other ≠ .unissued → other ∈ s.past.admitted ++ [id] :=
    fun other taken => List.mem_append_left _ (core.tickets other taken)
  unfold enqueueWrite
  split
  · exact ⟨core,by simp⟩
  · rename_i control entered
    obtain ⟨healthy,accepting,⟨none,empty,-,rfl⟩ | ⟨-,no,-⟩⟩ := enqueueGate_some entered
    · refine ⟨⟨?_,?_,distinct,numbered,withdrawn,?_,fun _ => empty,core.unhealthy,tickets,core.finished,?_,
        core.cancelled,core.startedPhase,core.cancelledPhase⟩,?_⟩
      · show s.past.activated ++ [id] = s.past.finished ++ [id]
        have same := core.oneActive
        rw [none] at same
        rw [same]
        simp
      · show (s.past.activated ++ [id]) ++ s.control.gate.orderedQueue = _
        have same := core.inOrder
        rw [empty,List.append_nil] at same ⊢
        exact (congrArg (· ++ [id]) same).trans grown.symm
      · intro absent
        cases absent
      · intro other marked
        exact List.mem_append_left _ (core.started other marked)
      · intro f member
        rcases List.mem_cons.mp member with rfl | member
        · exact List.mem_append_right _ List.mem_cons_self
        · cases List.mem_singleton.mp member
          exact ⟨List.mem_append_right _ List.mem_cons_self,unissued⟩
    · cases no
  · rename_i control entered
    obtain ⟨healthy,accepting,⟨-,-,no,-⟩ | ⟨busy,-,rfl⟩⟩ := enqueueGate_some entered
    · cases no
    · refine ⟨⟨core.oneActive,?_,distinct,numbered,withdrawn,?_,?_,core.unhealthy,tickets,core.finished,core.started,
        core.cancelled,core.startedPhase,core.cancelledPhase⟩,?_⟩
      · show s.past.activated ++ (s.control.gate.orderedQueue ++ [id]) = _
        rw [← List.append_assoc,core.inOrder]
        exact grown.symm
      · intro none
        exact absurd ⟨none,core.idle none⟩ busy
      · intro closed
        rw [show s.control.gate.acceptingWrites = false from closed] at accepting
        cases accepting
      · intro f member
        cases List.mem_singleton.mp member
        exact ⟨List.mem_append_right _ List.mem_cons_self,unissued⟩

theorem finishWrite_core (core : GateCore s) {id : RequestId} {t : ThreadId} (taken : s.ticket id = .taken t)
    {otherwise : List Action} (sound : ∀ f ∈ otherwise, GateSound s t f) :
    GateCore (s.finishWrite id otherwise).1 ∧
      ∀ f ∈ (s.finishWrite id otherwise).2, GateSound (s.finishWrite id otherwise).1 t f := by
  have finished : ∀ other ∈ s.past.finished ++ [id], ∃ t, s.ticket other = .taken t := by
    intro other member
    rcases List.mem_append.mp member with before | now
    · exact core.finished other before
    · rw [List.mem_singleton.mp now]
      exact ⟨t,taken⟩
  unfold finishWrite
  split
  · exact ⟨core,sound⟩
  · rename_i control next done
    obtain ⟨active,⟨head,rest,healthy,accepting,queue,rfl,rfl⟩ | ⟨shut,rfl,rfl⟩⟩ := finishGate_some done
    · have same := core.oneActive
      have order := core.inOrder
      rw [active] at same
      rw [queue] at order
      refine ⟨⟨?_,?_,core.distinct,core.issued,core.withdrawn,?_,?_,core.unhealthy,core.tickets,finished,?_,
        core.cancelled,core.startedPhase,core.cancelledPhase⟩,?_⟩
      · show s.past.activated ++ [head] = s.past.finished ++ [id] ++ [head]
        rw [same]
        rfl
      · show (s.past.activated ++ [head]) ++ rest = _
        rw [List.append_assoc]
        exact order
      · intro absent
        cases absent
      · intro closed
        rw [show s.control.gate.acceptingWrites = false from closed] at accepting
        cases accepting
      · intro other marked
        exact List.mem_append_left _ (core.started other marked)
      · intro f member
        rcases List.mem_cons.mp member with rfl | member
        · trivial
        · cases List.mem_singleton.mp member
          exact List.mem_append_right _ List.mem_cons_self
    · have same := core.oneActive
      rw [active] at same
      have empty : s.control.gate.orderedQueue = [] := by
        rcases shut with empty | shut
        · exact empty
        · by_cases healthy : s.control.state.instanceState = .healthy
          · refine core.closed ?_
            rw [← Bool.not_eq_true]
            exact fun accepting => shut ⟨healthy,accepting⟩
          · exact core.closed (core.unhealthy healthy)
      refine ⟨⟨?_,?_,core.distinct,core.issued,core.withdrawn,fun _ => empty,core.closed,core.unhealthy,core.tickets,
        finished,?_,core.cancelled,core.startedPhase,core.cancelledPhase⟩,?_⟩
      · show s.past.activated ++ [] = s.past.finished ++ [id] ++ []
        rw [same]
        simp
      · show (s.past.activated ++ []) ++ s.control.gate.orderedQueue = _
        rw [List.append_nil]
        exact core.inOrder
      · intro other marked
        exact List.mem_append_left _ (core.started other marked)
      · intro f member
        cases List.mem_singleton.mp member
        trivial

theorem markStarted_core (core : GateCore s) {id : RequestId} (activated : id ∈ s.past.activated) :
    GateCore (s.markStarted id) := by
  have phases : ∀ other, (s.withPhase id (s.phase id).markStarted).phase other = s.phase other ∨
      (other = id ∧ s.phase id = .queued ∧ (s.withPhase id (s.phase id).markStarted).phase other = .started) := by
    intro other
    by_cases same : other = id
    · subst same
      simp only [withPhase,Function.update_self]
      cases s.phase other <;> simp [RequestPhase.markStarted]
    · simp [withPhase,Function.update_of_ne same]
  unfold markStarted
  simp only
  split
  · rename_i queued
    refine ⟨core.oneActive,core.inOrder,core.distinct,core.issued,core.withdrawn,core.idle,core.closed,core.unhealthy,
      core.tickets,core.finished,?_,core.cancelled,?_,?_⟩
    · intro other marked
      rcases List.mem_append.mp marked with before | now
      · exact core.started other before
      · rw [List.mem_singleton.mp now]
        exact activated
    · intro other phase
      rcases phases other with same | ⟨rfl,-,-⟩
      · rw [same] at phase
        exact List.mem_append_left _ (core.startedPhase other phase)
      · exact List.mem_append_right _ List.mem_cons_self
    · intro other state phase
      rcases phases other with same | ⟨-,-,now⟩
      · rw [same] at phase
        exact core.cancelledPhase other state phase
      · rw [now] at phase
        cases phase
  · rename_i moved
    refine ⟨core.oneActive,core.inOrder,core.distinct,core.issued,core.withdrawn,core.idle,core.closed,core.unhealthy,
      core.tickets,core.finished,core.started,core.cancelled,?_,?_⟩
    · intro other phase
      rcases phases other with same | ⟨-,queued,-⟩
      · rw [same] at phase
        exact core.startedPhase other phase
      · exact absurd queued moved
    · intro other state phase
      rcases phases other with same | ⟨-,queued,-⟩
      · rw [same] at phase
        exact core.cancelledPhase other state phase
      · exact absurd queued moved

theorem markCompleted_core (core : GateCore s) (id : RequestId) : GateCore (s.markCompleted id) := by
  have phases : ∀ other, (s.markCompleted id).phase other = s.phase other ∨
      (s.phase other = .started ∧ (s.markCompleted id).phase other = .completed) := by
    intro other
    by_cases same : other = id
    · subst same
      simp only [markCompleted,withPhase,Function.update_self]
      cases s.phase other <;> simp [RequestPhase.markCompleted]
    · simp [markCompleted,withPhase,Function.update_of_ne same]
  refine ⟨core.oneActive,core.inOrder,core.distinct,core.issued,core.withdrawn,core.idle,core.closed,core.unhealthy,
    core.tickets,core.finished,core.started,core.cancelled,?_,?_⟩
  · intro other phase
    rcases phases other with same | ⟨started,-⟩
    · rw [same] at phase
      exact core.startedPhase other phase
    · exact core.startedPhase other (.inl started)
  · intro other state phase
    rcases phases other with same | ⟨-,now⟩
    · rw [same] at phase
      exact core.cancelledPhase other state phase
    · rw [now] at phase
      cases phase

theorem cancelForState_core (core : GateCore s) {id : RequestId} (state : InstanceState)
    (withdrawn : id ∈ s.past.withdrawn) : GateCore (s.cancelForState id state) := by
  have phases : ∀ other, (s.withPhase id ((s.phase id).cancelForState state)).phase other = s.phase other ∨
      (other = id ∧ s.phase id = .queued ∧
        (s.withPhase id ((s.phase id).cancelForState state)).phase other = .cancelled state) := by
    intro other
    by_cases same : other = id
    · subst same
      simp only [withPhase,Function.update_self]
      cases s.phase other <;> simp [RequestPhase.cancelForState]
    · simp [withPhase,Function.update_of_ne same]
  unfold cancelForState
  simp only
  split
  · rename_i queued
    refine ⟨core.oneActive,core.inOrder,core.distinct,core.issued,core.withdrawn,core.idle,core.closed,core.unhealthy,
      core.tickets,core.finished,core.started,?_,?_,?_⟩
    · intro other marked
      rcases List.mem_append.mp marked with before | now
      · exact core.cancelled other before
      · rw [List.mem_singleton.mp now]
        exact withdrawn
    · intro other phase
      rcases phases other with same | ⟨-,-,now⟩
      · rw [same] at phase
        exact core.startedPhase other phase
      · rw [now] at phase
        rcases phase with phase | phase <;> cases phase
    · intro other found phase
      rcases phases other with same | ⟨rfl,-,-⟩
      · rw [same] at phase
        exact List.mem_append_left _ (core.cancelledPhase other found phase)
      · exact List.mem_append_right _ List.mem_cons_self
  · rename_i moved
    refine ⟨core.oneActive,core.inOrder,core.distinct,core.issued,core.withdrawn,core.idle,core.closed,core.unhealthy,
      core.tickets,core.finished,core.started,core.cancelled,?_,?_⟩
    · intro other phase
      rcases phases other with same | ⟨-,queued,-⟩
      · rw [same] at phase
        exact core.startedPhase other phase
      · exact absurd queued moved
    · intro other found phase
      rcases phases other with same | ⟨-,queued,-⟩
      · rw [same] at phase
        exact core.cancelledPhase other found phase
      · exact absurd queued moved

end core

end Shared
end ExpirKv
