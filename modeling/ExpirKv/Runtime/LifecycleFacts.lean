import ExpirKv.Runtime.GateFacts
import ExpirKv.Runtime.Lifecycle

namespace ExpirKv
namespace LifecycleController

variable {s s' : LifecycleController}

-- The counters count, and admission is open as long as a lease is alive.
structure Accounting (s : LifecycleController) : Prop where
  leases : s.inner.externalLeases = s.leases.length
  guards : s.inner.operationGuards = s.guards.length
  leasesDistinct : s.leases.Nodup
  guardsDistinct : s.guards.Nodup
  fresh : ∀ value, value ∈ s.leases ∨ value ∈ s.guards → value < s.nextValue
  accepting : s.inner.acceptingOperations = true ↔ s.leases ≠ []
  bound : s.runtimeBound = true

theorem opened_accounting : Accounting opened := by
  refine ⟨rfl,rfl,by decide,by decide,?_,by decide,rfl⟩
  intro value alive
  rcases alive with lease | guard
  · rw [List.mem_singleton.mp lease]
    exact Nat.zero_lt_one
  · cases guard

section begins
variable {t : ThreadId}

theorem Accounting.clone (accounting : Accounting s) (alive : s.leases ≠ []) : Accounting s.cloneExternalLease := by
  refine ⟨congrArg (· + 1) accounting.leases,accounting.guards,?_,accounting.guardsDistinct,?_,?_,accounting.bound⟩
  · refine List.nodup_cons.mpr ⟨?_,accounting.leasesDistinct⟩
    intro member
    exact Nat.lt_irrefl _ (accounting.fresh _ (.inl member))
  · intro value member
    rcases member with lease | guard
    · rcases List.mem_cons.mp lease with rfl | before
      · exact Nat.lt_succ_self _
      · exact Nat.lt_succ_of_lt (accounting.fresh value (.inl before))
    · exact Nat.lt_succ_of_lt (accounting.fresh value (.inr guard))
  · exact ⟨fun _ => List.cons_ne_nil _ _,fun _ => accounting.accepting.mpr alive⟩

theorem Accounting.acquire (accounting : Accounting s) : Accounting s.acquireOperation := by
  unfold acquireOperation LifecycleInner.acquireOperation
  by_cases shut : s.inner.acceptingOperations = false
  · rw [if_pos shut]
    exact accounting
  · rw [if_neg shut]
    refine ⟨accounting.leases,congrArg (· + 1) accounting.guards,accounting.leasesDistinct,?_,?_,accounting.accepting,
      accounting.bound⟩
    · refine List.nodup_cons.mpr ⟨?_,accounting.guardsDistinct⟩
      intro member
      exact Nat.lt_irrefl _ (accounting.fresh _ (.inr member))
    · intro value member
      rcases member with lease | guard
      · exact Nat.lt_succ_of_lt (accounting.fresh value (.inl lease))
      · rcases List.mem_cons.mp guard with rfl | before
        · exact Nat.lt_succ_self _
        · exact Nat.lt_succ_of_lt (accounting.fresh value (.inr before))

-- A value that is alive was counted, so the subtraction goes through.
theorem Accounting.releaseLease (accounting : Accounting s) {lease : Nat} (alive : lease ∈ s.leases) :
    s.inner.releaseExternalLease = some
      (⟨decide (s.leases.erase lease ≠ []),(s.leases.erase lease).length,s.guards.length⟩,
        decide (s.leases.erase lease = []),decide (s.leases.erase lease = [] ∧ s.guards = [])) := by
  have some : 0 < s.leases.length := List.length_pos_of_mem alive
  have fewer : (s.leases.erase lease).length = s.leases.length - 1 := List.length_erase_of_mem alive
  have open' : s.inner.acceptingOperations = true := accounting.accepting.mpr (List.ne_nil_of_mem alive)
  have last : ((s.leases.length - 1) == 0) = decide (s.leases.erase lease = []) := by
    rw [Bool.eq_iff_iff,beq_iff_eq,decide_eq_true_eq,← fewer,List.length_eq_zero_iff]
  have none : ((s.guards.length) == 0) = decide (s.guards = []) := by
    rw [Bool.eq_iff_iff,beq_iff_eq,decide_eq_true_eq,List.length_eq_zero_iff]
  rw [LifecycleInner.releaseExternalLease,if_neg (by rw [accounting.leases]; omega)]
  simp only [accounting.leases,accounting.guards,open',isQuiescent,last,none,fewer,Bool.decide_and]
  by_cases empty : s.leases.erase lease = [] <;> simp [empty]

theorem Accounting.releaseGuard (accounting : Accounting s) {guard : Nat} (alive : guard ∈ s.guards) :
    s.inner.releaseOperationGuard = some
      (⟨s.inner.acceptingOperations,s.leases.length,(s.guards.erase guard).length⟩,
        decide (s.leases = [] ∧ s.guards.erase guard = [])) := by
  have some : 0 < s.guards.length := List.length_pos_of_mem alive
  have fewer : (s.guards.erase guard).length = s.guards.length - 1 := List.length_erase_of_mem alive
  have last : ((s.guards.length - 1) == 0) = decide (s.guards.erase guard = []) := by
    rw [Bool.eq_iff_iff,beq_iff_eq,decide_eq_true_eq,← fewer,List.length_eq_zero_iff]
  have none : ((s.leases.length) == 0) = decide (s.leases = []) := by
    rw [Bool.eq_iff_iff,beq_iff_eq,decide_eq_true_eq,List.length_eq_zero_iff]
  rw [LifecycleInner.releaseOperationGuard,if_neg (by rw [accounting.guards]; omega)]
  simp only [accounting.leases,accounting.guards,isQuiescent,last,none,fewer,Bool.decide_and]

-- What a call leaves, one case for each.
inductive Begun (s : LifecycleController) (t : ThreadId) : LifecycleController → Prop
  | clone : s.leases ≠ [] → Begun s t s.cloneExternalLease
  | lease {lease : Nat} : lease ∈ s.leases →
      Begun s t ({s with
        inner := ⟨decide (s.leases.erase lease ≠ []),(s.leases.erase lease).length,s.guards.length⟩
        leases := s.leases.erase lease}.withPending t
          (s.afterRelease (decide (s.leases.erase lease = [])) (decide (s.leases.erase lease = [] ∧ s.guards = []))))
  | acquire : Begun s t s.acquireOperation
  | guard {guard : Nat} : guard ∈ s.guards →
      Begun s t ({s with
        inner := ⟨s.inner.acceptingOperations,s.leases.length,(s.guards.erase guard).length⟩
        guards := s.guards.erase guard}.withPending t
          (s.afterRelease false (decide (s.leases = [] ∧ s.guards.erase guard = []))))
  | wait : Begun s t (s.waitTurn t [])

theorem Accounting.begun (accounting : Accounting s) {call : LifecycleCall} (began : s.begin t call = some s') :
    Begun s t s' := by
  cases call with
  | cloneLease lease =>
    simp only [begin] at began
    split at began
    · rename_i alive
      obtain rfl := Option.some.inj began
      exact .clone (List.ne_nil_of_mem alive)
    · cases began
  | dropLease lease =>
    simp only [begin] at began
    split at began
    · rename_i alive
      rw [releaseExternalLease,accounting.releaseLease alive] at began
      obtain rfl := Option.some.inj began
      exact .lease alive
    · cases began
  | acquireOperation =>
    obtain rfl := Option.some.inj began
    exact .acquire
  | dropGuard guard =>
    simp only [begin] at began
    split at began
    · rename_i alive
      rw [releaseOperationGuard,accounting.releaseGuard alive] at began
      obtain rfl := Option.some.inj began
      exact .guard alive
    · cases began
  | waitForQuiescence =>
    obtain rfl := Option.some.inj began
    exact .wait

theorem Accounting.same (accounting : Accounting s) (inner : s'.inner = s.inner) (leases : s'.leases = s.leases)
    (guards : s'.guards = s.guards) (next : s'.nextValue = s.nextValue) (bound : s'.runtimeBound = s.runtimeBound) :
    Accounting s' := by
  obtain ⟨a,b,c,d,e,f,g⟩ := accounting
  constructor
  all_goals simp only [inner,leases,guards,next,bound]
  all_goals assumption

theorem Accounting.begin (accounting : Accounting s) (begun : Begun s t s') : Accounting s' := by
  cases begun with
  | clone alive => exact accounting.clone alive
  | lease alive =>
    rename_i lease
    refine ⟨rfl,rfl,accounting.leasesDistinct.erase _,accounting.guardsDistinct,?_,by simp [withPending],
      accounting.bound⟩
    intro value member
    refine accounting.fresh value ?_
    rcases member with lease | guard
    · exact .inl (List.mem_of_mem_erase lease)
    · exact .inr guard
  | acquire => exact accounting.acquire
  | guard alive =>
    refine ⟨rfl,rfl,accounting.leasesDistinct,accounting.guardsDistinct.erase _,?_,accounting.accepting,
      accounting.bound⟩
    intro value member
    refine accounting.fresh value ?_
    rcases member with lease | guard
    · exact .inl lease
    · exact .inr (List.mem_of_mem_erase guard)
  | wait =>
    unfold waitTurn
    split
    all_goals exact accounting.same rfl rfl rfl rfl rfl

end begins

section steps
variable {t : ThreadId} {action : LifecycleAction} {rest : List LifecycleAction}

-- What an action leaves.
inductive Acted (s : LifecycleController) (t : ThreadId) (rest : List LifecycleAction) :
    LifecycleAction → LifecycleController → Prop
  | close : s.runtime.threads t = [] →
      Acted s t rest .closeWriteAdmission
        ({s with runtime := s.runtime.withThread s.runtime.shared t [.closeWriteAdmission]}.withPending t
          (.awaitClosed :: rest))
  | closed : s.runtime.threads t = [] → Acted s t rest .awaitClosed (s.withPending t rest)
  | notify : Acted s t rest .notifyAll {s.withPending t rest with asleep := fun _ => false}
  | recheck : Acted s t rest .recheck (s.waitTurn t rest)

theorem perform_acted (performed : s.perform t rest action = some s') : Acted s t rest action s' := by
  cases action with
  | closeWriteAdmission =>
    simp only [perform] at performed
    split at performed
    · obtain rfl := Option.some.inj performed
      exact .close ‹_›
    · cases performed
  | awaitClosed =>
    simp only [perform] at performed
    split at performed
    · obtain rfl := Option.some.inj performed
      exact .closed ‹_›
    · cases performed
  | notifyAll =>
    obtain rfl := Option.some.inj performed
    exact .notify
  | recheck =>
    simp only [perform] at performed
    split at performed
    · obtain rfl := Option.some.inj performed
      exact .recheck
    · cases performed

theorem withPending_self {actions : List LifecycleAction} : (s.withPending t actions).pending t = actions :=
  Function.update_self ..

theorem withPending_other {u : ThreadId} {actions : List LifecycleAction} (other : u ≠ t) :
    (s.withPending t actions).pending u = s.pending u := Function.update_of_ne other ..

theorem waitTurn_pending {u : ThreadId} (other : u ≠ t) : (s.waitTurn t rest).pending u = s.pending u := by
  unfold waitTurn
  split
  all_goals exact withPending_other other

theorem waitTurn_rest {a : LifecycleAction} (member : a ∈ rest) : a ∈ (s.waitTurn t rest).pending t := by
  unfold waitTurn
  split
  · rw [withPending_self]
    exact member
  · rw [show ({s.withPending t (.recheck :: rest) with asleep := Function.update s.asleep t true} :
      LifecycleController).pending t = .recheck :: rest from withPending_self]
    exact List.mem_cons_of_mem _ member

-- A call begins in a thread that has nothing to do, so what others have to do stays.
theorem Begun.keeps (begun : Begun s t s') (idle : s.pending t = []) {a : LifecycleAction} {u : ThreadId}
    (member : a ∈ s.pending u) : a ∈ s'.pending u := by
  have other : u ≠ t := by
    intro same
    rw [same,idle] at member
    cases member
  cases begun with
  | clone alive => exact member
  | acquire =>
    unfold acquireOperation
    split <;> exact member
  | lease alive | guard alive =>
    rw [withPending_other other]
    exact member
  | wait =>
    rw [waitTurn_pending other]
    exact member

-- An action takes itself off, and nothing else.
theorem Acted.keeps (acted : Acted s t rest action s') (pending : s.pending t = action :: rest) {a : LifecycleAction}
    {u : ThreadId} (different : a ≠ action) (member : a ∈ s.pending u) : a ∈ s'.pending u := by
  by_cases same : u = t
  · subst same
    rw [pending] at member
    have later := (List.mem_cons.mp member).resolve_left different
    cases acted with
    | close idle =>
      rw [withPending_self]
      exact List.mem_cons_of_mem _ later
    | closed idle =>
      rw [withPending_self]
      exact later
    | notify =>
      change a ∈ (s.withPending u rest).pending u
      rw [withPending_self]
      exact later
    | recheck => exact waitTurn_rest later
  · cases acted with
    | close idle =>
      rw [withPending_other same]
      exact member
    | closed idle =>
      rw [withPending_other same]
      exact member
    | notify =>
      change a ∈ (s.withPending t rest).pending u
      rw [withPending_other same]
      exact member
    | recheck =>
      rw [waitTurn_pending same]
      exact member

theorem waitTurn_same : (s.waitTurn t rest).inner = s.inner ∧ (s.waitTurn t rest).leases = s.leases ∧
    (s.waitTurn t rest).guards = s.guards ∧ (s.waitTurn t rest).nextValue = s.nextValue ∧
    (s.waitTurn t rest).runtimeBound = s.runtimeBound ∧ (s.waitTurn t rest).runtime = s.runtime ∧
    (s.waitTurn t rest).swept = s.swept := by
  unfold waitTurn
  split
  all_goals exact ⟨rfl,rfl,rfl,rfl,rfl,rfl,rfl⟩

theorem Begun.runtime (begun : Begun s t s') : s'.runtime = s.runtime ∧ s'.swept = s.swept := by
  cases begun with
  | acquire =>
    unfold acquireOperation
    split <;> exact ⟨rfl,rfl⟩
  | wait => exact waitTurn_same.2.2.2.2.2
  | _ => exact ⟨rfl,rfl⟩

theorem Acted.counters (acted : Acted s t rest action s') : s'.inner = s.inner ∧ s'.leases = s.leases ∧
    s'.guards = s.guards ∧ s'.nextValue = s.nextValue ∧ s'.runtimeBound = s.runtimeBound ∧ s'.swept = s.swept := by
  cases acted with
  | recheck =>
    obtain ⟨inner,leases,guards,next,bound,-,swept⟩ := @waitTurn_same s t rest
    exact ⟨inner,leases,guards,next,bound,swept⟩
  | _ => exact ⟨rfl,rfl,rfl,rfl,rfl,rfl⟩

theorem Accounting.step (accounting : Accounting s) (step : Step s s') : Accounting s' := by
  cases step with
  | call idle began => exact accounting.begin (accounting.begun began)
  | act pending performed =>
    obtain ⟨inner,leases,guards,next,bound,-⟩ := (perform_acted performed).counters
    exact accounting.same inner leases guards next bound
  | wake t => exact accounting.same rfl rfl rfl rfl rfl
  | timeOut pending awake => exact accounting.same rfl rfl rfl rfl rfl
  | runtimeCall idle begun => exact accounting.same rfl rfl rfl rfl rfl
  | runtimeAct pending performed => exact accounting.same rfl rfl rfl rfl rfl

-- Whatever happens to the controller, its runtime takes a step of its own or none.
theorem step_runtime (accounting : Accounting s) (step : Step s s') :
    s'.runtime = s.runtime ∨ Machine.Step s.runtime s'.runtime := by
  cases step with
  | call idle began => exact .inl (accounting.begun began).runtime.1
  | act pending performed =>
    rename_i t action rest
    cases perform_acted performed with
    | close idle => exact .inr (@Machine.Step.call s.runtime t .closeWriteAdmission s.runtime.shared idle rfl)
    | closed idle => exact .inl rfl
    | notify => exact .inl rfl
    | recheck => exact .inl waitTurn_same.2.2.2.2.2.1
  | wake t => exact .inl rfl
  | timeOut pending awake => exact .inl rfl
  | runtimeCall idle begun => exact .inr (.call idle begun)
  | runtimeAct pending performed => exact .inr (.act pending performed)

theorem isQuiescent_iff (accounting : Accounting s) : isQuiescent s.inner = true ↔ s.leases = [] ∧ s.guards = [] := by
  simp only [isQuiescent,accounting.leases,accounting.guards,Bool.and_eq_true,beq_iff_eq,List.length_eq_zero_iff]

end steps

section shutting

-- A thread on its way to close the gate.
def Closing (s : LifecycleController) (t : ThreadId) : Prop :=
  .closeWriteAdmission ∈ s.pending t ∨ (.awaitClosed ∈ s.pending t ∧ .closeWriteAdmission ∈ s.runtime.threads t)

-- The last release closes the gate, what it sweeps is cancelled, and who sleeps through the end will be woken.
structure Shutting (s : LifecycleController) : Prop where
  runtime : Machine.Runs .new s.runtime
  closing : s.leases = [] → s.runtime.shared.control.gate.acceptingWrites = false ∨ ∃ t, Closing s t
  swept : ∀ id ∈ s.swept, id ∈ s.runtime.shared.past.withdrawn ∧ (s.runtime.shared.phase id ≠ .queued ∨
    ∃ t state, .awaitClosed ∈ s.pending t ∧ .cancelForState id state ∈ s.runtime.threads t)
  woken : isQuiescent s.inner = true → ∀ t, s.asleep t = true → ∃ u, .notifyAll ∈ s.pending u

theorem opened_shutting : Shutting opened := by
  refine ⟨.refl,?_,?_,?_⟩
  · intro none
    cases none
  · intro id member
    cases member
  · intro done
    cases done

theorem Closing.kept {t : ThreadId} (closing : Closing s t) (runtime : s'.runtime = s.runtime)
    (pending : ∀ a, a = .closeWriteAdmission ∨ a = .awaitClosed → a ∈ s.pending t → a ∈ s'.pending t) :
    Closing s' t := by
  rcases closing with first | ⟨second,inside⟩
  · exact .inl (pending _ (.inl rfl) first)
  · exact .inr ⟨pending _ (.inr rfl) second,by rw [runtime]; exact inside⟩

theorem Shutting.begun {t : ThreadId} (shutting : Shutting s) (accounting : Accounting s) (idle : s.pending t = [])
    (begun : Begun s t s') : Shutting s' := by
  obtain ⟨runtime,swept⟩ := begun.runtime
  have after := accounting.begin begun
  refine ⟨by rw [runtime]; exact shutting.runtime,?_,?_,?_⟩
  · intro none
    -- the release that drops the last lease has the close in front of it
    have sooner : s.leases = [] ∨ .closeWriteAdmission ∈ s'.pending t := by
      cases begun with
      | clone alive => cases none
      | lease alive =>
        have last : s.leases.erase _ = [] := none
        refine .inr ?_
        rw [withPending_self]
        simp [afterRelease,last,accounting.bound]
      | acquire =>
        unfold acquireOperation at none
        split at none <;> exact .inl none
      | guard alive => exact .inl none
      | wait => exact .inl (waitTurn_same.2.1.symm.trans none)
    rcases sooner with before | now
    · rw [runtime]
      rcases shutting.closing before with shut | ⟨u,closing⟩
      · exact .inl shut
      · exact .inr ⟨u,closing.kept runtime (fun a _ member => begun.keeps idle member)⟩
    · exact .inr ⟨t,.inl now⟩
  · rw [swept,runtime]
    intro id member
    obtain ⟨withdrawn,moved | ⟨u,state,awaits,cancels⟩⟩ := shutting.swept id member
    · exact ⟨withdrawn,.inl moved⟩
    · exact ⟨withdrawn,.inr ⟨u,state,begun.keeps idle awaits,cancels⟩⟩
  · intro done u sleeps
    have ended := (isQuiescent_iff after).mp done
    cases begun with
    | clone alive => cases ended.1
    | lease alive =>
      refine ⟨t,?_⟩
      rw [withPending_self]
      have last : s.leases.erase _ = [] := ended.1
      have none : s.guards = [] := ended.2
      simp [afterRelease,last,none]
    | acquire =>
      cases acquired : s.inner.acquireOperation with
      | none =>
        have same : s.acquireOperation = s := by rw [acquireOperation,acquired]
        rw [same] at done sleeps ⊢
        exact shutting.woken done u sleeps
      | some inner =>
        rw [acquireOperation,acquired] at ended
        cases ended.2
    | guard alive =>
      refine ⟨t,?_⟩
      rw [withPending_self]
      have none : s.leases = [] := ended.1
      have last : s.guards.erase _ = [] := ended.2
      simp [afterRelease,last,none]
    | wait =>
      rw [waitTurn_same.1] at done
      have asleep : s.asleep u = true := by
        rw [waitTurn,if_pos done] at sleeps
        exact sleeps
      obtain ⟨waker,notifies⟩ := shutting.woken done u asleep
      exact ⟨waker,Begun.wait.keeps idle notifies⟩

theorem Shutting.acted {t : ThreadId} {action : LifecycleAction} {rest : List LifecycleAction} (shutting : Shutting s)
    (pending : s.pending t = action :: rest) (acted : Acted s t rest action s') : Shutting s' := by
  have keeps := fun a u different member => @Acted.keeps s s' t action rest acted pending a u different member
  obtain ⟨inner,leases,-,-,-,swept⟩ := acted.counters
  have woken : action ≠ .notifyAll → (∀ u, s'.asleep u = true → s.asleep u = true ∨ isQuiescent s.inner = false) →
      isQuiescent s'.inner = true → ∀ u, s'.asleep u = true → ∃ waker, .notifyAll ∈ s'.pending waker := by
    intro other asleep done u sleeps
    rw [inner] at done
    rcases asleep u sleeps with before | busy
    · obtain ⟨waker,notifies⟩ := shutting.woken done u before
      exact ⟨waker,keeps _ _ (Ne.symm other) notifies⟩
    · rw [done] at busy
      cases busy
  have quiet : s'.runtime = s.runtime → action ≠ .closeWriteAdmission → action ≠ .awaitClosed →
      (s'.leases = [] → s'.runtime.shared.control.gate.acceptingWrites = false ∨ ∃ u, Closing s' u) ∧
      ∀ id ∈ s'.swept, id ∈ s'.runtime.shared.past.withdrawn ∧ (s'.runtime.shared.phase id ≠ .queued ∨
        ∃ u state, .awaitClosed ∈ s'.pending u ∧ .cancelForState id state ∈ s'.runtime.threads u) := by
    intro runtime first second
    rw [runtime,leases,swept]
    refine ⟨?_,?_⟩
    · intro none
      rcases shutting.closing none with shut | ⟨u,closing⟩
      · exact .inl shut
      · refine .inr ⟨u,closing.kept runtime ?_⟩
        intro a which member
        rcases which with rfl | rfl
        · exact keeps _ _ (Ne.symm first) member
        · exact keeps _ _ (Ne.symm second) member
    · intro id member
      obtain ⟨withdrawn,moved | ⟨u,state,awaits,cancels⟩⟩ := shutting.swept id member
      · exact ⟨withdrawn,.inl moved⟩
      · exact ⟨withdrawn,.inr ⟨u,state,keeps _ _ (Ne.symm second) awaits,cancels⟩⟩
  cases acted with
  | close idle =>
    refine ⟨?_,?_,?_,woken (by decide) (fun u sleeps => .inl sleeps)⟩
    · exact shutting.runtime.tail (@Machine.Step.call s.runtime t .closeWriteAdmission s.runtime.shared idle rfl)
    · intro _
      refine .inr ⟨t,.inr ⟨?_,?_⟩⟩
      · rw [withPending_self]
        exact List.mem_cons_self
      · change .closeWriteAdmission ∈ (s.runtime.withThread s.runtime.shared t [.closeWriteAdmission]).threads t
        rw [Machine.withThread_self]
        exact List.mem_cons_self
    · intro id member
      obtain ⟨withdrawn,moved | ⟨u,state,awaits,cancels⟩⟩ := shutting.swept id member
      · exact ⟨withdrawn,.inl moved⟩
      · refine ⟨withdrawn,.inr ⟨u,state,keeps _ _ (by decide) awaits,?_⟩⟩
        have other : u ≠ t := by
          intro same
          rw [same,idle] at cancels
          cases cancels
        change _ ∈ (s.runtime.withThread s.runtime.shared t [.closeWriteAdmission]).threads u
        rw [Machine.withThread_other other]
        exact cancels
  | closed idle =>
    refine ⟨shutting.runtime,?_,?_,woken (by decide) (fun u sleeps => .inl sleeps)⟩
    · intro none
      rcases shutting.closing none with shut | ⟨u,first | ⟨second,inside⟩⟩
      · exact .inl shut
      · exact .inr ⟨u,.inl (keeps _ _ (by decide) first)⟩
      · have other : u ≠ t := by
          intro same
          rw [same,idle] at inside
          cases inside
        refine .inr ⟨u,.inr ⟨?_,inside⟩⟩
        rw [withPending_other other]
        exact second
    · intro id member
      obtain ⟨withdrawn,moved | ⟨u,state,awaits,cancels⟩⟩ := shutting.swept id member
      · exact ⟨withdrawn,.inl moved⟩
      · have other : u ≠ t := by
          intro same
          rw [same,idle] at cancels
          cases cancels
        refine ⟨withdrawn,.inr ⟨u,state,?_,cancels⟩⟩
        rw [withPending_other other]
        exact awaits
  | notify =>
    obtain ⟨closing,cancelled⟩ := quiet rfl (by decide) (by decide)
    exact ⟨shutting.runtime,closing,cancelled,fun _ _ sleeps => by cases sleeps⟩
  | recheck =>
    have runtime := (@waitTurn_same s t rest).2.2.2.2.2.1
    obtain ⟨closing,cancelled⟩ := quiet runtime (by decide) (by decide)
    refine ⟨by rw [runtime]; exact shutting.runtime,closing,cancelled,woken (by decide) ?_⟩
    intro u sleeps
    unfold waitTurn at sleeps
    split at sleeps
    · exact .inl sleeps
    · rename_i busy
      exact .inr (Bool.not_eq_true _ ▸ busy)

-- What the runtime does to the writes that were swept, and to the gate.
theorem Shutting.runtimeAct {t : ThreadId} {action : Action} {rest followUps : List Action} {shared : Shared}
    (shutting : Shutting s) (pending : s.runtime.threads t = action :: rest)
    (performed : s.runtime.shared.perform t action = some (shared,followUps)) :
    Shutting {s with runtime := s.runtime.withThread shared t (followUps ++ rest),swept := s.sweep t action} := by
  have step : Machine.Step s.runtime (s.runtime.withThread shared t (followUps ++ rest)) := .act pending performed
  have valid := Machine.reached_gate shutting.runtime
  have effects := Shared.perform_effects performed
  obtain ⟨core,-,kept⟩ := Shared.perform_gate valid.core (valid.head pending) performed
  have stays : ∀ {u : ThreadId} {a : Action}, a ∈ s.runtime.threads u → a ≠ action →
      a ∈ (s.runtime.withThread shared t (followUps ++ rest)).threads u := by
    intro u a member different
    by_cases same : u = t
    · subst same
      rw [pending] at member
      rw [Machine.withThread_self]
      exact List.mem_append_right _ ((List.mem_cons.mp member).resolve_left different)
    · rw [Machine.withThread_other same]
      exact member
  have closes : action = .closeWriteAdmission →
      shared.control.gate.acceptingWrites = false ∧
        (∀ id ∈ s.runtime.shared.control.gate.orderedQueue, id ∈ shared.past.withdrawn ∧
          ∃ state, .cancelForState id state ∈ followUps) := by
    intro same
    subst same
    obtain ⟨-,same⟩ := Shared.whileUnlocked_some.mp performed
    cases same
    exact ⟨rfl,fun id queued => ⟨List.mem_append_right _ queued,_,List.mem_map.mpr ⟨id,queued,rfl⟩⟩⟩
  refine ⟨shutting.runtime.tail step,?_,?_,shutting.woken⟩
  · intro none
    rcases shutting.closing none with shut | ⟨u,first | ⟨second,inside⟩⟩
    · exact .inl (Machine.step_closed valid step shut).1
    · exact .inr ⟨u,.inl first⟩
    · by_cases same : action = .closeWriteAdmission
      · exact .inl (closes same).1
      · exact .inr ⟨u,.inr ⟨second,stays inside (Ne.symm same)⟩⟩
  · intro id member
    have before : id ∈ s.swept → id ∈ shared.past.withdrawn ∧ (shared.phase id ≠ .queued ∨
        ∃ u state, .awaitClosed ∈ s.pending u ∧
          .cancelForState id state ∈ (s.runtime.withThread shared t (followUps ++ rest)).threads u) := by
      intro old
      obtain ⟨withdrawn,moved | ⟨u,state,awaits,cancels⟩⟩ := shutting.swept id old
      · exact ⟨kept.withdrawn id withdrawn,.inl (effects.phases id moved)⟩
      · refine ⟨kept.withdrawn id withdrawn,?_⟩
        by_cases same : action = .cancelForState id state
        · exact .inl (effects.cancels id state same)
        · exact .inr ⟨u,state,awaits,stays cancels (Ne.symm same)⟩
    simp only [sweep] at member
    split at member
    · rename_i sweeping
      rcases List.mem_append.mp member with old | queued
      · exact before old
      · obtain ⟨withdrawn,state,cancels⟩ := (closes sweeping.1).2 id queued
        refine ⟨withdrawn,.inr ⟨t,state,sweeping.2,?_⟩⟩
        rw [Machine.withThread_self]
        exact List.mem_append_left _ cancels
    · exact before member

theorem Shutting.runtimeCall {t : ThreadId} {call : Call} {shared : Shared} (shutting : Shutting s)
    (idle : s.runtime.threads t = []) (begun : s.runtime.shared.begin t call = some shared) :
    Shutting {s with runtime := s.runtime.withThread shared t (Shared.callActions call)} := by
  have step : Machine.Step s.runtime (s.runtime.withThread shared t (Shared.callActions call)) := .call idle begun
  have valid := Machine.reached_gate shutting.runtime
  obtain ⟨-,-,begins⟩ := Shared.begin_gate valid.core begun
  have stays : ∀ {u : ThreadId} {a : Action}, a ∈ s.runtime.threads u →
      a ∈ (s.runtime.withThread shared t (Shared.callActions call)).threads u := by
    intro u a member
    have other : u ≠ t := by
      intro same
      rw [same,idle] at member
      cases member
    rw [Machine.withThread_other other]
    exact member
  refine ⟨shutting.runtime.tail step,?_,?_,shutting.woken⟩
  · intro none
    rcases shutting.closing none with shut | ⟨u,first | ⟨second,inside⟩⟩
    · exact .inl (Machine.step_closed valid step shut).1
    · exact .inr ⟨u,.inl first⟩
    · exact .inr ⟨u,.inr ⟨second,stays inside⟩⟩
  · intro id member
    obtain ⟨withdrawn,rest⟩ := shutting.swept id member
    refine ⟨begins.kept.withdrawn id withdrawn,?_⟩
    rcases rest with moved | ⟨u,state,awaits,cancels⟩
    · refine .inl ?_
      change shared.phase id ≠ .queued
      rw [begins.phase]
      exact moved
    · exact .inr ⟨u,state,awaits,stays cancels⟩

theorem Shutting.step (shutting : Shutting s) (accounting : Accounting s) (step : Step s s') : Shutting s' := by
  cases step with
  | call idle began => exact shutting.begun accounting idle (accounting.begun began)
  | act pending performed => exact shutting.acted pending (perform_acted performed)
  | wake t =>
    refine ⟨shutting.runtime,shutting.closing,shutting.swept,?_⟩
    intro done u sleeps
    refine shutting.woken done u ?_
    by_cases same : u = t
    · subst same
      simp at sleeps
    · simpa [Function.update_of_ne same] using sleeps
  | timeOut pending awake =>
    rename_i t rest
    have keeps : ∀ {a : LifecycleAction} {u : ThreadId}, a ≠ .recheck → a ∈ s.pending u →
        a ∈ (s.withPending t rest).pending u := by
      intro a u different member
      by_cases same : u = t
      · subst same
        rw [pending] at member
        rw [withPending_self]
        exact (List.mem_cons.mp member).resolve_left different
      · rw [withPending_other same]
        exact member
    refine ⟨shutting.runtime,?_,?_,?_⟩
    · intro none
      rcases shutting.closing none with shut | ⟨u,first | ⟨second,inside⟩⟩
      · exact .inl shut
      · exact .inr ⟨u,.inl (keeps (by decide) first)⟩
      · exact .inr ⟨u,.inr ⟨keeps (by decide) second,inside⟩⟩
    · intro id member
      obtain ⟨withdrawn,moved | ⟨u,state,awaits,cancels⟩⟩ := shutting.swept id member
      · exact ⟨withdrawn,.inl moved⟩
      · exact ⟨withdrawn,.inr ⟨u,state,keeps (by decide) awaits,cancels⟩⟩
    · intro done u sleeps
      obtain ⟨waker,notifies⟩ := shutting.woken done u sleeps
      exact ⟨waker,keeps (by decide) notifies⟩
  | runtimeCall idle begun => exact shutting.runtimeCall idle begun
  | runtimeAct pending performed => exact shutting.runtimeAct pending performed

theorem reached_lifecycle (reached : Runs opened s) : Accounting s ∧ Shutting s := by
  induction reached with
  | refl => exact ⟨opened_accounting,opened_shutting⟩
  | tail _ step ih => exact ⟨ih.1.step step,ih.2.step ih.1 step⟩

end shutting

section ended

-- Without a lease there is nothing to clone or to drop, and nobody is admitted.
theorem Accounting.acquire_refused (accounting : Accounting s) (gone : s.leases = []) :
    s.inner.acceptingOperations = false ∧ s.inner.acquireOperation = none := by
  have shut : s.inner.acceptingOperations = false := by
    by_contra accepts
    exact accounting.accepting.mp (Bool.not_eq_false _ ▸ accepts) gone
  exact ⟨shut,by rw [LifecycleInner.acquireOperation,if_pos shut]⟩

theorem ended_step (accounting : Accounting s) (none : s.leases = []) (step : Step s s') :
    s'.leases = [] ∧ (s.guards = [] → s'.guards = []) := by
  have refused : s.acquireOperation = s := by rw [acquireOperation,(accounting.acquire_refused none).2]
  cases step with
  | call idle began =>
    cases accounting.begun began with
    | clone alive => exact absurd none alive
    | lease alive =>
      rw [none] at alive
      cases alive
    | acquire =>
      rw [refused]
      exact ⟨none,fun empty => empty⟩
    | guard alive =>
      refine ⟨none,?_⟩
      intro empty
      rw [empty] at alive
      cases alive
    | wait => exact ⟨waitTurn_same.2.1.trans none,fun empty => waitTurn_same.2.2.1.trans empty⟩
  | act pending performed =>
    obtain ⟨-,leases,guards,-⟩ := (perform_acted performed).counters
    exact ⟨leases.trans none,fun empty => guards.trans empty⟩
  | wake t => exact ⟨none,fun empty => empty⟩
  | timeOut pending awake => exact ⟨none,fun empty => empty⟩
  | runtimeCall idle begun => exact ⟨none,fun empty => empty⟩
  | runtimeAct pending performed => exact ⟨none,fun empty => empty⟩

-- The release of the last lease is behind us.
structure Released (s : LifecycleController) : Prop where
  leases : s.leases = []
  returned : ∀ t a, a ∈ s.pending t → a ≠ .closeWriteAdmission ∧ a ≠ .awaitClosed

theorem Released.step (released : Released s) (accounting : Accounting s) (step : Step s s') : Released s' := by
  refine ⟨(ended_step accounting released.leases step).1,?_⟩
  -- nothing new is a close, and nothing old was
  suffices subset : ∀ u a, a ∈ s'.pending u → a ∈ s.pending u ∨ a = .notifyAll ∨ a = .recheck by
    intro u a member
    rcases subset u a member with old | rfl | rfl
    · exact released.returned u a old
    · exact ⟨by decide,by decide⟩
    · exact ⟨by decide,by decide⟩
  have updated : ∀ {t : ThreadId} {new : List LifecycleAction}, (∀ a ∈ new, a ∈ s.pending t ∨ a = .notifyAll ∨ a = .recheck) →
      ∀ u a, a ∈ (Function.update s.pending t new) u → a ∈ s.pending u ∨ a = .notifyAll ∨ a = .recheck := by
    intro t new within u a member
    by_cases same : u = t
    · subst same
      rw [Function.update_self] at member
      exact within a member
    · rw [Function.update_of_ne same] at member
      exact .inl member
  have turn : ∀ {t : ThreadId} {rest : List LifecycleAction}, (∀ a ∈ rest, a ∈ s.pending t) →
      ∀ u a, a ∈ (s.waitTurn t rest).pending u → a ∈ s.pending u ∨ a = .notifyAll ∨ a = .recheck := by
    intro t rest within u a member
    unfold waitTurn at member
    split at member
    · exact updated (fun b inside => .inl (within b inside)) u a member
    · refine updated ?_ u a member
      intro b inside
      rcases List.mem_cons.mp inside with rfl | inside
      · exact .inr (.inr rfl)
      · exact .inl (within b inside)
  cases step with
  | call idle began =>
    cases accounting.begun began with
    | clone alive => exact absurd released.leases alive
    | lease alive =>
      rw [released.leases] at alive
      cases alive
    | acquire =>
      rw [acquireOperation,(accounting.acquire_refused released.leases).2]
      intro u a member
      exact .inl member
    | guard alive =>
      refine updated ?_
      intro a inside
      simp only [afterRelease,Bool.false_eq_true,false_and,if_false,List.nil_append] at inside
      split at inside
      · exact .inr (.inl (List.mem_singleton.mp inside))
      · cases inside
    | wait => exact turn (fun a inside => by cases inside)
  | act pending performed =>
    rename_i t action rest
    have later : ∀ a ∈ rest, a ∈ s.pending t := by
      intro a inside
      rw [pending]
      exact List.mem_cons_of_mem _ inside
    have head : action ∈ s.pending t := by
      rw [pending]
      exact List.mem_cons_self
    cases perform_acted performed with
    | close idle => exact absurd rfl (released.returned t _ head).1
    | closed idle => exact absurd rfl (released.returned t _ head).2
    | notify => exact updated (fun a inside => .inl (later a inside))
    | recheck => exact turn later
  | wake t => exact fun u a member => .inl member
  | timeOut pending awake =>
    refine updated ?_
    intro a inside
    rw [pending]
    exact .inl (List.mem_cons_of_mem _ inside)
  | runtimeCall idle begun => exact fun u a member => .inl member
  | runtimeAct pending performed => exact fun u a member => .inl member

-- A write that was taken out of the queue and has moved on was cancelled.
theorem withdrawn_cancelled {shared : Shared} {id : RequestId} (core : shared.GateCore)
    (withdrawn : id ∈ shared.past.withdrawn) (moved : shared.phase id ≠ .queued) :
    ∃ state, shared.phase id = .cancelled state := by
  have never : id ∉ shared.past.activated := fun activated => (core.mem.mp (.inl activated)).2 withdrawn
  cases phase : shared.phase id with
  | queued => exact absurd phase moved
  | started => exact absurd (core.started id (core.startedPhase id (.inl phase))) never
  | completed => exact absurd (core.started id (core.startedPhase id (.inr phase))) never
  | cancelled state => exact ⟨state,rfl⟩

theorem Released.gate (released : Released s) (shutting : Shutting s) :
    s.runtime.shared.control.gate.acceptingWrites = false ∧ s.runtime.shared.control.gate.orderedQueue = [] ∧
      (∀ id ∈ s.swept, ∃ state, s.runtime.shared.phase id = .cancelled state) ∧
      ∀ id ∈ s.runtime.shared.past.admitted, id ∈ s.runtime.shared.past.activated ∨
        (∃ state, s.runtime.shared.phase id = .cancelled state) ∨
        ∃ t state, .cancelForState id state ∈ s.runtime.threads t := by
  have valid := Machine.reached_gate shutting.runtime
  have shut : s.runtime.shared.control.gate.acceptingWrites = false := by
    rcases shutting.closing released.leases with shut | ⟨t,first | ⟨second,-⟩⟩
    · exact shut
    · exact absurd rfl (released.returned t _ first).1
    · exact absurd rfl (released.returned t _ second).2
  have empty := valid.core.closed shut
  refine ⟨shut,empty,?_,?_⟩
  · intro id member
    obtain ⟨withdrawn,moved | ⟨t,state,awaits,-⟩⟩ := shutting.swept id member
    · exact withdrawn_cancelled valid.core withdrawn moved
    · exact absurd rfl (released.returned t _ awaits).2
  · intro id admitted
    by_cases withdrawn : id ∈ s.runtime.shared.past.withdrawn
    · rcases valid.cancelling id withdrawn with moved | cancelling
      · exact .inr (.inl (withdrawn_cancelled valid.core withdrawn moved))
      · exact .inr (.inr cancelling)
    · rcases valid.core.mem.mpr ⟨admitted,withdrawn⟩ with activated | queued
      · exact .inl activated
      · rw [empty] at queued
        cases queued

-- The active write ends by its own hand, whoever closes what around it.
theorem active_runs {id : RequestId} (accounting : Accounting s) (shutting : Shutting s)
    (active : s.runtime.shared.control.gate.activeRequest = some id) :
    (∀ state, s.runtime.shared.phase id ≠ .cancelled state) ∧
      s.runtime.shared.control.finishGate id ≠ none ∧
      ∀ s', Step s s' → s'.runtime.shared.control.gate.activeRequest = some id ∨
        s'.runtime.shared.past.finished = s.runtime.shared.past.finished ++ [id] := by
  have valid := Machine.reached_gate shutting.runtime
  refine ⟨?_,?_,?_⟩
  · intro state phase
    have withdrawn := valid.core.cancelled id (valid.core.cancelledPhase id state phase)
    exact (valid.core.mem.mp (.inl (valid.core.active_mem active))).2 withdrawn
  · rw [RuntimeControl.finishGate,if_neg (fun other => other active)]
    split
    · split <;> exact Option.some_ne_none _
    · exact Option.some_ne_none _
  · intro s' step
    rcases step_runtime accounting step with same | step
    · rw [same]
      exact .inl active
    · generalize s'.runtime = next at step
      cases step with
      | call idle begun =>
        obtain ⟨-,-,begins⟩ := Shared.begin_gate valid.core begun
        exact .inl ((congrArg (fun control => control.gate.activeRequest) begins.control).trans active)
      | act pending performed =>
        rcases Machine.act_active valid pending performed active with kept | ⟨finished,-⟩
        · exact .inl kept
        · exact .inr finished

-- The end comes with a release, and the release wakes who waits for it.
theorem quiescence_notified (accounting : Accounting s) (step : Step s s') (before : isQuiescent s.inner = false)
    (after : isQuiescent s'.inner = true) :
    ∃ t call, ((∃ lease, call = LifecycleCall.dropLease lease) ∨ ∃ guard, call = .dropGuard guard) ∧
      s.begin t call = some s' ∧ .notifyAll ∈ s'.pending t := by
  have ended := (isQuiescent_iff (accounting.step step)).mp after
  have unchanged : s'.inner ≠ s.inner := by
    intro same
    rw [same,before] at after
    cases after
  cases step with
  | call idle began =>
    rename_i t call
    cases call with
    | cloneLease lease =>
      simp only [begin] at began
      split at began
      · obtain rfl := Option.some.inj began
        cases ended.1
      · cases began
    | dropLease lease =>
      refine ⟨t,_,.inl ⟨lease,rfl⟩,began,?_⟩
      simp only [begin] at began
      split at began
      · rename_i alive
        rw [releaseExternalLease,accounting.releaseLease alive] at began
        obtain rfl := Option.some.inj began
        have last : s.leases.erase lease = [] := ended.1
        have none : s.guards = [] := ended.2
        rw [withPending_self]
        simp [afterRelease,last,none]
      · cases began
    | acquireOperation =>
      obtain rfl := Option.some.inj began
      cases acquired : s.inner.acquireOperation with
      | none =>
        rw [acquireOperation,acquired] at unchanged
        exact absurd rfl unchanged
      | some inner =>
        rw [acquireOperation,acquired] at ended
        cases ended.2
    | dropGuard guard =>
      refine ⟨t,_,.inr ⟨guard,rfl⟩,began,?_⟩
      simp only [begin] at began
      split at began
      · rename_i alive
        rw [releaseOperationGuard,accounting.releaseGuard alive] at began
        obtain rfl := Option.some.inj began
        have none : s.leases = [] := ended.1
        have last : s.guards.erase guard = [] := ended.2
        rw [withPending_self]
        simp [afterRelease,last,none]
      · cases began
    | waitForQuiescence =>
      obtain rfl := Option.some.inj began
      exact absurd waitTurn_same.1 unchanged
  | act pending performed => exact absurd (perform_acted performed).counters.1 unchanged
  | wake t => exact absurd rfl unchanged
  | timeOut pending awake => exact absurd rfl unchanged
  | runtimeCall idle begun => exact absurd rfl unchanged
  | runtimeAct pending performed => exact absurd rfl unchanged

theorem runs_ended (reached : Runs opened s) (none : s.leases = []) (runs : Runs s s') :
    s'.leases = [] ∧ (s.guards = [] → s'.guards = []) := by
  induction runs with
  | refl => exact ⟨none,fun empty => empty⟩
  | tail before step ih =>
    obtain ⟨accounting,-⟩ := reached_lifecycle (reached.trans before)
    obtain ⟨leases,guards⟩ := ended_step accounting ih.1 step
    exact ⟨leases,fun empty => guards (ih.2 empty)⟩

theorem runs_released (reached : Runs opened s) (released : Released s) (runs : Runs s s') : Released s' := by
  induction runs with
  | refl => exact released
  | tail before step ih => exact ih.step (reached_lifecycle (reached.trans before)).1 step

end ended

theorem shutdown_accounting (reached : Runs opened s) :
    (s.inner.externalLeases = s.leases.length ∧ s.leases.Nodup ∧
      s.inner.operationGuards = s.guards.length ∧ s.guards.Nodup) ∧
    ((∀ lease ∈ s.leases, s.inner.releaseExternalLease ≠ none) ∧
      ∀ guard ∈ s.guards, s.inner.releaseOperationGuard ≠ none) ∧
    (s.inner.externalLeases = 0 → ∀ s', Runs s s' →
      s'.inner.externalLeases = 0 ∧ s'.inner.acceptingOperations = false ∧ s'.inner.acquireOperation = none) ∧
    (Released s → ∀ s', Runs s s' →
      s'.runtime.shared.control.gate.acceptingWrites = false ∧ s'.runtime.shared.control.gate.orderedQueue = [] ∧
      (∀ id ∈ s'.swept, ∃ state, s'.runtime.shared.phase id = .cancelled state) ∧
      ∀ id ∈ s'.runtime.shared.past.admitted, id ∈ s'.runtime.shared.past.activated ∨
        (∃ state, s'.runtime.shared.phase id = .cancelled state) ∨
        ∃ t state, .cancelForState id state ∈ s'.runtime.threads t) ∧
    (∀ id, s.runtime.shared.control.gate.activeRequest = some id →
      (∀ state, s.runtime.shared.phase id ≠ .cancelled state) ∧ s.runtime.shared.control.finishGate id ≠ none ∧
      ∀ s', Step s s' → s'.runtime.shared.control.gate.activeRequest = some id ∨
        s'.runtime.shared.past.finished = s.runtime.shared.past.finished ++ [id]) ∧
    (isQuiescent s.inner = true ↔ s.leases = [] ∧ s.guards = []) ∧
    (isQuiescent s.inner = true → ∀ s', Runs s s' → isQuiescent s'.inner = true) ∧
    (∀ s', Step s s' → isQuiescent s.inner = false → isQuiescent s'.inner = true →
      ∃ t call, ((∃ lease, call = LifecycleCall.dropLease lease) ∨ ∃ guard, call = .dropGuard guard) ∧
        s.begin t call = some s' ∧ .notifyAll ∈ s'.pending t) ∧
    (isQuiescent s.inner = true → ∀ t, s.asleep t = true → ∃ u, .notifyAll ∈ s.pending u) := by
  obtain ⟨accounting,shutting⟩ := reached_lifecycle reached
  refine ⟨⟨accounting.leases,accounting.leasesDistinct,accounting.guards,accounting.guardsDistinct⟩,⟨?_,?_⟩,?_,?_,
    fun id active => active_runs accounting shutting active,isQuiescent_iff accounting,?_,
    fun s' step => quiescence_notified accounting step,shutting.woken⟩
  · intro lease alive
    rw [accounting.releaseLease alive]
    exact Option.some_ne_none _
  · intro guard alive
    rw [accounting.releaseGuard alive]
    exact Option.some_ne_none _
  · intro zero s' runs
    have none : s.leases = [] := List.length_eq_zero_iff.mp (accounting.leases.symm.trans zero)
    obtain ⟨later,-⟩ := reached_lifecycle (reached.trans runs)
    have empty := (runs_ended reached none runs).1
    refine ⟨?_,later.acquire_refused empty⟩
    rw [later.leases,empty]
    rfl
  · intro released s' runs
    exact (runs_released reached released runs).gate (reached_lifecycle (reached.trans runs)).2
  · intro done s' runs
    obtain ⟨leases,guards⟩ := (isQuiescent_iff accounting).mp done
    obtain ⟨empty,none⟩ := runs_ended reached leases runs
    exact (isQuiescent_iff (reached_lifecycle (reached.trans runs)).1).mpr ⟨empty,none guards⟩

-- One write runs and one waits when the only lease is dropped; an operation is still under way.
def droppedLease : List Move :=
  [.call 2 .acquireOperation,.runtimeCall 0 (.enqueueWrite .put),.runtimeAct 0,.runtimeAct 0,.runtimeAct 0,.runtimeAct 0,
   .runtimeCall 1 (.enqueueWrite .delete),.runtimeAct 1,.runtimeAct 1,.runtimeAct 1,
   .call 3 (.dropLease 0),.act 3,.runtimeAct 3,.runtimeAct 3,.act 3]

theorem shutdown_accounting_dropped :
    ∃ s, opened.play droppedLease = some s ∧ s.swept = [2] ∧ s.inner.operationGuards = 1 ∧
      (∃ state, s.runtime.shared.phase 2 = .cancelled state) ∧
      s.runtime.shared.control.gate.activeRequest = some 1 ∧ s.runtime.shared.control.finishGate 1 ≠ none ∧
      isQuiescent s.inner = false := by
  have shown : (opened.play droppedLease).map (fun s => ((s.swept,s.guards,s.leases),
      s.runtime.shared.control.gate.activeRequest)) = some (([2],[1],[]),some 1) := rfl
  obtain ⟨s,played,ends⟩ := Option.map_eq_some_iff.mp shown
  simp only [Prod.mk.injEq] at ends
  obtain ⟨⟨swept,guards,leases⟩,active⟩ := ends
  have idle : s.pending = Function.update (Function.update (Function.update opened.pending 3 [.closeWriteAdmission]) 3
      [.awaitClosed]) 3 [] := by
    have known : (opened.play droppedLease).map LifecycleController.pending = some (Function.update (Function.update
      (Function.update opened.pending 3 [.closeWriteAdmission]) 3 [.awaitClosed]) 3 []) := rfl
    rw [played] at known
    exact Option.some.inj known
  have released : Released s := by
    refine ⟨leases,?_⟩
    intro t a member
    rw [idle,Function.update_idem,Function.update_idem] at member
    by_cases same : t = 3
    · rw [same,Function.update_self] at member
      cases member
    · rw [Function.update_of_ne same] at member
      cases member
  obtain ⟨⟨-,-,counted,-⟩,-,-,gate,runs,quiet,-⟩ := shutdown_accounting (play_runs played)
  obtain ⟨-,-,cancelled,-⟩ := gate released s .refl
  refine ⟨s,played,swept,?_,cancelled 2 (by rw [swept]; exact List.mem_cons_self),active,(runs 1 active).2.1,?_⟩
  · rw [counted,guards]
    rfl
  · by_contra done
    have none := (quiet.mp (Bool.not_eq_false _ ▸ done)).2
    rw [guards] at none
    cases none

end LifecycleController
end ExpirKv
