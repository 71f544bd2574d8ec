import ExpirKv.Runtime.StateSteps

namespace ExpirKv
namespace Machine
variable {m m' : Machine}

theorem withThread_mem {shared : Shared} {t u : ThreadId} {actions : List Action} {a : Action}
    (member : a ∈ (m.withThread shared t actions).threads u) :
    (u = t ∧ a ∈ actions) ∨ (u ≠ t ∧ a ∈ m.threads u) := by
  by_cases same : u = t
  · subst same
    simp only [withThread,Function.update_self] at member
    exact .inl ⟨rfl,member⟩
  · simp only [withThread,Function.update_of_ne same] at member
    exact .inr ⟨same,member⟩

theorem withThread_self {shared : Shared} {t : ThreadId} {actions : List Action} :
    (m.withThread shared t actions).threads t = actions := Function.update_self ..

theorem withThread_other {shared : Shared} {t u : ThreadId} {actions : List Action} (other : u ≠ t) :
    (m.withThread shared t actions).threads u = m.threads u := Function.update_of_ne other ..

structure StateInvariant (m : Machine) : Prop where
  core : m.shared.StateCore
  pending : ∀ t, ∀ a ∈ m.threads t, m.shared.StateSound t a
  once : ∀ t, ((m.threads t).filter Shared.isStore).length ≤ 1
  held : ∀ t, m.shared.gateHeldBy = some t → ∃ current summary, .storeState current summary ∈ m.threads t

theorem initial_state : StateInvariant .new := by
  refine ⟨⟨by decide,?_,by decide,by decide,fun _ _ => rfl,⟨by decide,by decide⟩,?_,by decide⟩,?_,?_,?_⟩
  · intro i snapshot found
    match i with
    | 0 =>
      cases found
      rfl
    | i + 1 => cases found
  · intro stats member
    cases member
  · intro t a member
    cases member
  · intro t
    exact Nat.zero_le _
  · intro t held
    cases held

theorem latchFailure_followUps (s : Shared) (t : ThreadId) (target : InstanceState) (error : StorageError) :
    s.latchFailure t target error = (s,[]) ∨
      ((s.latchFailure t target error).1.gateHeldBy = some t ∧
        ∃ current summary, (s.latchFailure t target error).2 = [.storeState current summary]) := by
  unfold Shared.latchFailure
  simp only
  split
  · exact .inl rfl
  · exact .inr ⟨rfl,_,_,rfl⟩

-- The gate's holder is the only thread about to store a state.
theorem StateInvariant.alone (valid : StateInvariant m) {t u : ThreadId} {action b : Action} {rest : List Action}
    {shared : Shared} {followUps : List Action} (pending : m.threads t = action :: rest)
    (performed : m.shared.perform t action = some (shared,followUps)) (store : Shared.isStore b = true)
    (member : (u = t ∧ b ∈ rest) ∨ (u ≠ t ∧ b ∈ m.threads u)) :
    Shared.isLatch action = false ∧ Shared.isStore action = false := by
  have listed : b ∈ m.threads u := by
    rcases member with ⟨rfl,later⟩ | ⟨-,listed⟩
    · rw [pending]
      exact List.mem_cons_of_mem _ later
    · exact listed
  have sound := valid.pending u b listed
  cases b with
  | storeState current summary =>
    refine ⟨?_,?_⟩
    · cases action with
      | latchFailure target error =>
        have free := (Shared.whileUnlocked_some.mp performed).1
        rw [sound.1] at free
        cases free
      | _ => rfl
    · cases action with
      | storeState current' summary' =>
        have mine : m.shared.StateSound t (.storeState current' summary') :=
          valid.pending t _ (by rw [pending]; exact List.mem_cons_self)
        have same : u = t := Option.some.inj (sound.1.symm.trans mine.1)
        have later : .storeState current summary ∈ rest := by
          rcases member with ⟨-,later⟩ | ⟨other,-⟩
          · exact later
          · exact absurd same other
        have once := valid.once t
        rw [pending,List.filter_cons_of_pos rfl,List.length_cons] at once
        have some : 0 < (rest.filter Shared.isStore).length :=
          List.length_pos_of_mem (List.mem_filter.mpr ⟨later,rfl⟩)
        omega
      | _ => rfl
  | _ => cases store

section act
variable {t : ThreadId} {action : Action} {rest followUps : List Action} {shared : Shared}

theorem StateInvariant.free (valid : StateInvariant m) (none : m.shared.gateHeldBy = none) (u : ThreadId) :
    (m.threads u).filter Shared.isStore = [] := by
  rw [List.filter_eq_nil_iff]
  intro a member store
  cases a with
  | storeState current summary =>
    have sound : m.shared.StateSound u (.storeState current summary) := valid.pending u _ member
    rw [sound.1] at none
    cases none
  | _ => cases store

theorem act_once (valid : StateInvariant m) (pending : m.threads t = action :: rest)
    (performed : m.shared.perform t action = some (shared,followUps)) (u : ThreadId) :
    (((m.withThread shared t (followUps ++ rest)).threads u).filter Shared.isStore).length ≤ 1 := by
  by_cases same : u = t
  · subst same
    have once := valid.once u
    rw [withThread_self,List.filter_append,List.length_append]
    rw [pending,List.filter_cons] at once
    cases latch : Shared.isLatch action with
    | true =>
      cases action with
      | latchFailure target error =>
        obtain ⟨none,made⟩ := Shared.whileUnlocked_some.mp performed
        have empty := valid.free none u
        rw [pending,List.filter_cons_of_neg (by simp [Shared.isStore])] at empty
        rw [empty]
        rcases latchFailure_followUps m.shared u target error with same | ⟨-,current,summary,same⟩
        · rw [made] at same
          cases same
          simp
        · rw [made] at same
          simp only at same
          rw [same]
          exact Nat.le_refl 1
      | _ => cases latch
    | false =>
      have plain : followUps.filter Shared.isStore = [] := by
        rw [List.filter_eq_nil_iff]
        intro a member
        cases store : Shared.isStore action with
        | true =>
          cases action with
          | storeState current summary =>
            cases performed
            rcases List.mem_append.mp member with cancel | publish
            · obtain ⟨id,-,rfl⟩ := List.mem_map.mp cancel
              simp [Shared.isStore]
            · cases List.mem_singleton.mp publish
              simp [Shared.isStore]
          | _ => cases store
        | false => simp [((Shared.perform_quiet performed latch store).2.2 a member).1]
      rw [plain]
      split at once
      · simp only [List.length_cons,List.length_nil] at once ⊢
        omega
      · simpa using once
  · rw [withThread_other same]
    exact valid.once u

theorem act_held (valid : StateInvariant m) (pending : m.threads t = action :: rest)
    (performed : m.shared.perform t action = some (shared,followUps)) (u : ThreadId)
    (held : shared.gateHeldBy = some u) :
    ∃ current summary, .storeState current summary ∈ (m.withThread shared t (followUps ++ rest)).threads u := by
  cases latch : Shared.isLatch action with
  | true =>
    cases action with
    | latchFailure target error =>
      obtain ⟨none,made⟩ := Shared.whileUnlocked_some.mp performed
      rcases latchFailure_followUps m.shared t target error with same | ⟨mine,current,summary,same⟩
      · rw [made] at same
        cases same
        rw [held] at none
        cases none
      · rw [made] at same mine
        simp only at same mine
        rw [held] at mine
        cases mine
        refine ⟨current,summary,?_⟩
        rw [withThread_self,same]
        exact List.mem_cons_self
    | _ => cases latch
  | false =>
    cases store : Shared.isStore action with
    | true =>
      cases action with
      | storeState current summary =>
        cases performed
        cases held
      | _ => cases store
    | false =>
      have quiet := (Shared.perform_quiet performed latch store).1
      rw [quiet.held] at held
      obtain ⟨current,summary,member⟩ := valid.held u held
      refine ⟨current,summary,?_⟩
      by_cases same : u = t
      · subst same
        rw [pending] at member
        rw [withThread_self]
        rcases List.mem_cons.mp member with head | later
        · rw [← head] at store
          cases store
        · exact List.mem_append_right _ later
      · rw [withThread_other same]
        exact member

end act

theorem step_state (valid : StateInvariant m) (step : Step m m') : StateInvariant m' := by
  cases step with
  | @call t call shared idle begun =>
    obtain ⟨quiet,silent⟩ := Shared.begin_quiet begun
    refine ⟨valid.core.silent quiet silent,?_,?_,?_⟩
    · intro u a member
      rcases withThread_mem member with ⟨-,new⟩ | ⟨-,old⟩
      · exact Shared.sound_of_plain (Shared.callActions_plain call a new)
      · exact quiet.sound (valid.pending u a old)
    · intro u
      by_cases same : u = t
      · subst same
        rw [withThread_self,List.filter_eq_nil_iff.mpr]
        · exact Nat.zero_le _
        · intro a member
          simp [Shared.isStore_of_isLocal (Shared.callActions_plain call a member)]
      · rw [withThread_other same]
        exact valid.once u
    · intro u held
      rw [show (m.withThread shared t _).shared = shared from rfl,quiet.held] at held
      obtain ⟨current,summary,member⟩ := valid.held u held
      refine ⟨current,summary,?_⟩
      have other : u ≠ t := by
        intro same
        rw [same,idle] at member
        cases member
      rw [withThread_other other]
      exact member
  | @act t action rest followUps shared pending performed =>
    have mine := valid.pending t action (by rw [pending]; exact List.mem_cons_self)
    obtain ⟨core,later,sound⟩ := Shared.perform_core valid.core mine performed
    refine ⟨core,?_,act_once valid pending performed,act_held valid pending performed⟩
    intro u a member
    have others : (u = t ∧ a ∈ rest) ∨ (u ≠ t ∧ a ∈ m.threads u) → shared.StateSound u a := by
      intro kept
      have before : m.shared.StateSound u a := by
        rcases kept with ⟨rfl,old⟩ | ⟨-,old⟩
        · exact valid.pending u a (by rw [pending]; exact List.mem_cons_of_mem _ old)
        · exact valid.pending u a old
      cases store : Shared.isStore a with
      | false => exact later.sound store before
      | true =>
        obtain ⟨latch,plain⟩ := valid.alone pending performed store kept
        exact (Shared.perform_quiet performed latch plain).1.sound before
    rcases withThread_mem member with ⟨rfl,now⟩ | other
    · rcases List.mem_append.mp now with new | old
      · exact sound a new
      · exact others (.inl ⟨rfl,old⟩)
    · exact others (.inr other)

theorem reached_state (reached : Runs .new m) : StateInvariant m := by
  induction reached with
  | refl => exact initial_state
  | tail _ step ih => exact step_state ih step

theorem step_later (valid : StateInvariant m) (step : Step m m') :
    Shared.Later m.shared m'.shared ∧
      m.shared.control.stats.stateEpoch ≤ m'.shared.control.stats.stateEpoch := by
  cases step with
  | @call t call shared idle begun =>
    obtain ⟨quiet,silent⟩ := Shared.begin_quiet begun
    refine ⟨quiet.later,?_⟩
    rw [show (m.withThread shared t _).shared = shared from rfl,silent.stats]
  | @act t action rest followUps shared pending performed =>
    have mine := valid.pending t action (by rw [pending]; exact List.mem_cons_self)
    obtain ⟨-,later,-⟩ := Shared.perform_core valid.core mine performed
    exact ⟨later,Shared.perform_stats_epoch performed⟩

theorem runs_later (valid : StateInvariant m) (runs : Runs m m') :
    StateInvariant m' ∧ Shared.Later m.shared m'.shared ∧
      m.shared.control.stats.stateEpoch ≤ m'.shared.control.stats.stateEpoch := by
  induction runs with
  | refl => exact ⟨valid,⟨List.prefix_refl _,fun _ set => set⟩,Nat.le_refl _⟩
  | tail _ step ih =>
    obtain ⟨valid',later,epoch⟩ := ih
    obtain ⟨later',epoch'⟩ := step_later valid' step
    exact ⟨step_state valid' step,later.trans later',Nat.le_trans epoch epoch'⟩

-- The error is latched by the call that is leaving, or has left, `Healthy`.
theorem StateInvariant.latched (valid : StateInvariant m) {summary : LatchedErrorSummary}
    (set : m.shared.control.firstLatchedError = some summary) :
    (∃ current rest, m.shared.past.upgrades = (current,summary) :: rest) ∨
      (m.shared.past.upgrades = [] ∧ ∃ t current, .storeState current summary ∈ m.threads t) := by
  cases listed : m.shared.past.upgrades with
  | cons entry rest =>
    have first := valid.core.first entry (by rw [listed]; rfl)
    rw [set] at first
    cases first
    exact .inl ⟨entry.1,rest,rfl⟩
  | nil =>
    cases held : m.shared.gateHeldBy with
    | none =>
      rw [valid.core.unset listed held] at set
      cases set
    | some t =>
      obtain ⟨current,summary',member⟩ := valid.held t held
      have sound : m.shared.StateSound t (.storeState current summary') := valid.pending t _ member
      have same := sound.2.2.2.2 listed
      rw [set] at same
      cases same
      exact .inr ⟨rfl,t,current,member⟩

theorem instance_state_monotone (reached : Runs .new m) :
    (m.shared.history.head? = some ⟨.healthy,0⟩ ∧ m.shared.history.getLast? = some m.shared.control.state ∧
      m.shared.history.Pairwise (fun before after => stateRank before.instanceState < stateRank after.instanceState)) ∧
    m.shared.control.state.stateEpoch = m.shared.past.upgrades.length ∧
    (∀ summary, m.shared.control.firstLatchedError = some summary →
      (∃ current rest, m.shared.past.upgrades = (current,summary) :: rest) ∨
      (m.shared.past.upgrades = [] ∧ ∃ t current, .storeState current summary ∈ m.threads t)) ∧
    (m.shared.control.state.instanceState ≠ .healthy → m.shared.control.firstLatchedError.isSome) ∧
    (∀ stats ∈ m.shared.past.statsReturned, m.shared.Reported stats) ∧
    m.shared.Reported m.shared.control.stats ∧
    (∀ snapshot ∈ m.shared.past.readsReturned, snapshot ∈ m.shared.history ∧ snapshot.instanceState ≠ .poisoned) ∧
    ∀ m', Runs m m' →
      m.shared.history <+: m'.shared.history ∧
      (∀ summary, m.shared.control.firstLatchedError = some summary →
        m'.shared.control.firstLatchedError = some summary) ∧
      m.shared.control.stats.stateEpoch ≤ m'.shared.control.stats.stateEpoch := by
  have valid := reached_state reached
  refine ⟨⟨rfl,valid.core.current,valid.core.ranks⟩,valid.core.epoch,fun _ set => valid.latched set,?_,
    valid.core.returned,valid.core.stored,valid.core.reads,?_⟩
  · intro left
    exact valid.core.first_set valid.core.current_mem left
  · intro m' runs
    obtain ⟨-,later,epoch⟩ := runs_later valid runs
    exact ⟨later.history,later.first,epoch⟩

-- Two racing failures: the second publishes its snapshot first, and the older one is dropped.
def racingFailures : List (ThreadId × Option Call) :=
  [(0,some (.latchFailure .writeStopped (.readError .io .healthy .retrySameInstance))),(0,none),(0,none),
   (1,some (.latchFailure .poisoned (.readError .corruption .healthy .restoreOrRepair))),(1,none),(1,none),
   (1,none),(1,none),(0,none),(0,none),(2,some .stats),(2,none),(2,none),(2,none)]

theorem instance_state_monotone_racing :
    ∃ m, Machine.new.play racingFailures = some m ∧
      (m.shared.control.stats.stateEpoch,
        m.shared.past.statsReturned.map (fun stats => (stats.instanceState,stats.stateEpoch))) = (2,[(.poisoned,2)]) ∧
      ∀ stats ∈ m.shared.past.statsReturned, m.shared.Reported stats := by
  have shown : (Machine.new.play racingFailures).map (fun m => (m.shared.control.stats.stateEpoch,
      m.shared.past.statsReturned.map (fun stats => (stats.instanceState,stats.stateEpoch)))) =
      some (2,[(.poisoned,2)]) := rfl
  obtain ⟨m,played,ends⟩ := Option.map_eq_some_iff.mp shown
  exact ⟨m,played,ends,(instance_state_monotone (play_runs played)).2.2.2.2.1⟩

end Machine
end ExpirKv
