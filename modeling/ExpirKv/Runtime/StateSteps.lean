import ExpirKv.Runtime.Threads

namespace ExpirKv
namespace Shared

def isLatch : Action → Bool
  | .latchFailure _ _ => true
  | _ => false

def isStore : Action → Bool
  | .storeState _ _ => true
  | _ => false

-- What only `latch_failure` touches.
structure Quiet (s s' : Shared) : Prop where
  word : s'.control.stateWord = s.control.stateWord
  upgrades : s'.past.upgrades = s.past.upgrades
  held : s'.gateHeldBy = s.gateHeldBy
  first : s'.control.firstLatchedError = s.control.firstLatchedError

-- What only the reports touch.
structure Silent (s s' : Shared) : Prop where
  stats : s'.control.stats = s.control.stats
  statsReturned : s'.past.statsReturned = s.past.statsReturned
  readsReturned : s'.past.readsReturned = s.past.readsReturned

def isReport : Action → Bool
  | .updateRuntimeState _ _ | .updateCommitState _ _ _ _ _ _ | .errorStats _ _ | .completeRead _ => true
  | _ => false

-- Actions that carry something read earlier, and those that hand such a thing on.
def isLocal : Action → Bool
  | .storeState _ _ | .publishStats _ | .updateRuntimeState _ _ | .snapshotStats _ | .errorStats _ _
  | .completeRead _ => true
  | _ => false

def handsOn : Action → Bool
  | .publishStats _ | .loadStats | .snapshotStats _ | .beginRead _ _ => true
  | _ => false

section steps
variable {s s' : Shared} {t : ThreadId} {action : Action} {followUps : List Action}

theorem whileUnlocked_some {next result : Shared × List Action} :
    s.whileUnlocked next = some result ↔ s.gateHeldBy = none ∧ next = result := by
  simp [whileUnlocked]

theorem enqueueGate_some {control control' : RuntimeControl} {id : RequestId} {startsNow : Bool}
    (entered : control.enqueueGate id = some (control',startsNow)) :
    control.state.instanceState = .healthy ∧ control.gate.acceptingWrites = true ∧
    ((control.gate.activeRequest = none ∧ control.gate.orderedQueue = [] ∧ startsNow = true ∧
        control' = {control with gate := {control.gate with activeRequest := some id}}) ∨
     (¬(control.gate.activeRequest = none ∧ control.gate.orderedQueue = []) ∧ startsNow = false ∧
        control' = {control with gate := {control.gate with orderedQueue := control.gate.orderedQueue ++ [id]}})) := by
  unfold RuntimeControl.enqueueGate at entered
  split at entered
  · cases entered
  · rename_i admitted
    simp only [not_or,not_not,Bool.not_eq_false,ne_eq] at admitted
    refine ⟨admitted.1,admitted.2,?_⟩
    split at entered
    · rename_i empty
      cases entered
      exact .inl ⟨empty.1,empty.2,rfl,rfl⟩
    · rename_i busy
      cases entered
      exact .inr ⟨busy,rfl,rfl⟩

-- A finished request hands over to the head of the queue, if the gate still admits.
theorem finishGate_some {control control' : RuntimeControl} {id : RequestId} {next : Option RequestId}
    (finished : control.finishGate id = some (control',next)) :
    control.gate.activeRequest = some id ∧
    ((∃ head rest, control.state.instanceState = .healthy ∧ control.gate.acceptingWrites = true ∧
        control.gate.orderedQueue = head :: rest ∧ next = some head ∧
        control' = {control with gate := {control.gate with orderedQueue := rest,activeRequest := some head}}) ∨
     ((control.gate.orderedQueue = [] ∨
        ¬(control.state.instanceState = .healthy ∧ control.gate.acceptingWrites = true)) ∧ next = none ∧
        control' = {control with gate := {control.gate with activeRequest := none}})) := by
  unfold RuntimeControl.finishGate at finished
  split at finished
  · cases finished
  · rename_i active
    refine ⟨not_not.mp active,?_⟩
    split at finished
    · rename_i open'
      split at finished
      · rename_i head rest queue
        cases finished
        exact .inl ⟨head,rest,open'.1,open'.2,queue,rfl,rfl⟩
      · rename_i empty
        cases finished
        exact .inr ⟨.inl empty,rfl,rfl⟩
    · rename_i shut
      cases finished
      exact .inr ⟨.inr shut,rfl,rfl⟩

theorem isStore_of_isLocal (plain : isLocal action = false) : isStore action = false := by
  cases action with
  | storeState current summary => cases plain
  | _ => rfl

theorem enqueueWrite_quiet (id : RequestId) :
    Quiet s (s.enqueueWrite id).1 ∧ Silent s (s.enqueueWrite id).1 ∧
      ∀ a ∈ (s.enqueueWrite id).2, isLocal a = false := by
  unfold enqueueWrite
  split
  · exact ⟨⟨rfl,rfl,rfl,rfl⟩,⟨rfl,rfl,rfl⟩,by simp⟩
  · rename_i control entered
    obtain ⟨-,-,⟨-,-,-,rfl⟩ | ⟨-,no,-⟩⟩ := enqueueGate_some entered
    · exact ⟨⟨rfl,rfl,rfl,rfl⟩,⟨rfl,rfl,rfl⟩,by simp [isLocal]⟩
    · cases no
  · rename_i control entered
    obtain ⟨-,-,⟨-,-,no,-⟩ | ⟨-,-,rfl⟩⟩ := enqueueGate_some entered
    · cases no
    · exact ⟨⟨rfl,rfl,rfl,rfl⟩,⟨rfl,rfl,rfl⟩,by simp [isLocal]⟩

theorem finishWrite_quiet (id : RequestId) (otherwise : List Action) (plain : ∀ a ∈ otherwise, isLocal a = false) :
    Quiet s (s.finishWrite id otherwise).1 ∧ Silent s (s.finishWrite id otherwise).1 ∧
      ∀ a ∈ (s.finishWrite id otherwise).2, isLocal a = false := by
  unfold finishWrite
  split
  · exact ⟨⟨rfl,rfl,rfl,rfl⟩,⟨rfl,rfl,rfl⟩,plain⟩
  · rename_i control next finished
    obtain ⟨-,⟨head,rest,-,-,-,rfl,rfl⟩ | ⟨-,rfl,rfl⟩⟩ := finishGate_some finished
    · exact ⟨⟨rfl,rfl,rfl,rfl⟩,⟨rfl,rfl,rfl⟩,by simp [isLocal]⟩
    · exact ⟨⟨rfl,rfl,rfl,rfl⟩,⟨rfl,rfl,rfl⟩,by simp [isLocal]⟩

theorem perform_quiet (performed : s.perform t action = some (s',followUps)) (latch : isLatch action = false)
    (store : isStore action = false) : Quiet s s' ∧ (isReport action = false → Silent s s') ∧
      ∀ a ∈ followUps, isStore a = false ∧ (handsOn action = false → isLocal a = false) := by
  cases action with
  | latchFailure target error => cases latch
  | storeState current summary => cases store
  | admitWrite operation =>
    simp only [perform,admitWrite,Option.some.injEq] at performed
    split at performed
    all_goals
      cases performed
      exact ⟨⟨rfl,rfl,rfl,rfl⟩,fun _ => ⟨rfl,rfl,rfl⟩,by simp [isStore,isLocal,handsOn]⟩
  | enqueueWrite id =>
    obtain ⟨-,same⟩ := whileUnlocked_some.mp performed
    have quiet := @enqueueWrite_quiet s id
    rw [same] at quiet
    exact ⟨quiet.1,fun _ => quiet.2.1,fun a member => ⟨isStore_of_isLocal (quiet.2.2 a member),fun _ => quiet.2.2 a member⟩⟩
  | finishTicket id =>
    obtain ⟨-,same⟩ := whileUnlocked_some.mp performed
    have quiet := @finishWrite_quiet s id [.abandonWrite id] (by simp [isLocal])
    rw [same] at quiet
    exact ⟨quiet.1,fun _ => quiet.2.1,fun a member => ⟨isStore_of_isLocal (quiet.2.2 a member),fun _ => quiet.2.2 a member⟩⟩
  | finishWrite id =>
    obtain ⟨-,same⟩ := whileUnlocked_some.mp performed
    have quiet := @finishWrite_quiet s id [] (by simp)
    rw [same] at quiet
    exact ⟨quiet.1,fun _ => quiet.2.1,fun a member => ⟨isStore_of_isLocal (quiet.2.2 a member),fun _ => quiet.2.2 a member⟩⟩
  | cancelQueuedWrite id =>
    obtain ⟨-,same⟩ := whileUnlocked_some.mp performed
    unfold cancelQueuedWrite at same
    split at same
    all_goals
      cases same
      exact ⟨⟨rfl,rfl,rfl,rfl⟩,fun _ => ⟨rfl,rfl,rfl⟩,by simp [isStore,isLocal,handsOn]⟩
  | abandonWrite id =>
    obtain ⟨-,same⟩ := whileUnlocked_some.mp performed
    unfold abandonWrite at same
    split at same
    · cases same
      exact ⟨⟨rfl,rfl,rfl,rfl⟩,fun _ => ⟨rfl,rfl,rfl⟩,by simp [isStore,isLocal,handsOn]⟩
    · split at same
      all_goals
        cases same
        exact ⟨⟨rfl,rfl,rfl,rfl⟩,fun _ => ⟨rfl,rfl,rfl⟩,by simp [isStore,isLocal,handsOn]⟩
  | closeWriteAdmission =>
    obtain ⟨-,same⟩ := whileUnlocked_some.mp performed
    cases same
    exact ⟨⟨rfl,rfl,rfl,rfl⟩,fun _ => ⟨rfl,rfl,rfl⟩,by simp [isStore,isLocal,handsOn]⟩
  | markStarted id =>
    simp only [perform,markStarted,Option.some.injEq,Prod.mk.injEq] at performed
    obtain ⟨rfl,rfl⟩ := performed
    split
    all_goals exact ⟨⟨rfl,rfl,rfl,rfl⟩,fun _ => ⟨rfl,rfl,rfl⟩,by simp⟩
  | cancelForState id state =>
    simp only [perform,cancelForState,Option.some.injEq,Prod.mk.injEq] at performed
    obtain ⟨rfl,rfl⟩ := performed
    split
    all_goals exact ⟨⟨rfl,rfl,rfl,rfl⟩,fun _ => ⟨rfl,rfl,rfl⟩,by simp⟩
  | updateCommitState head durable vlogEnd active count bytes =>
    simp only [perform,updateCommitState,Option.some.injEq] at performed
    split at performed
    all_goals
      cases performed
      exact ⟨⟨rfl,rfl,rfl,rfl⟩,(fun no => by cases no),by simp [isStore,isLocal,handsOn]⟩
  | completeRead started =>
    simp only [perform,completeRead,Option.some.injEq,Prod.mk.injEq] at performed
    obtain ⟨rfl,rfl⟩ := performed
    split
    all_goals exact ⟨⟨rfl,rfl,rfl,rfl⟩,(fun no => by cases no),by simp⟩
  | beginRead operation failure =>
    simp only [perform,Option.some.injEq,Prod.mk.injEq] at performed
    obtain ⟨rfl,rfl⟩ := performed
    refine ⟨⟨rfl,rfl,rfl,rfl⟩,fun _ => ⟨rfl,rfl,rfl⟩,?_⟩
    unfold beginRead
    split
    · split <;> simp [isStore,isLocal,handsOn]
    · simp
  | handleReadFailure domain error operation =>
    simp only [perform,Option.some.injEq,Prod.mk.injEq] at performed
    obtain ⟨rfl,rfl⟩ := performed
    refine ⟨⟨rfl,rfl,rfl,rfl⟩,fun _ => ⟨rfl,rfl,rfl⟩,?_⟩
    unfold handleReadFailure
    split <;> simp [isStore,isLocal,handsOn]
  | updateRuntimeState snapshot first | errorStats state snapshot =>
    cases performed
    exact ⟨⟨rfl,rfl,rfl,rfl⟩,(fun no => by cases no),by simp⟩
  | issueTicket id | markCompleted id | publishStats snapshot | loadStats | snapshotStats state =>
    cases performed
    exact ⟨⟨rfl,rfl,rfl,rfl⟩,fun _ => ⟨rfl,rfl,rfl⟩,by simp [isStore,isLocal,handsOn]⟩

end steps

-- Every state the instance has been in, oldest first.
def history (s : Shared) : List StateSnapshot := ⟨.healthy,0⟩ :: s.past.upgrades.map Prod.fst

-- A reported state is one the instance was in, with the first error when it is not `Healthy`.
def Reported (s : Shared) (stats : DbStats) : Prop :=
  ⟨stats.instanceState,stats.stateEpoch⟩ ∈ s.history ∧
    if stats.instanceState = .healthy then stats.firstLatchedError = none
    else s.control.firstLatchedError.isSome ∧ stats.firstLatchedError = s.control.firstLatchedError

structure StateCore (s : Shared) : Prop where
  current : s.history.getLast? = some s.control.state
  epochs : ∀ (i : Nat) (snapshot : StateSnapshot), s.history[i]? = some snapshot → snapshot.stateEpoch = i
  ranks : s.history.Pairwise (fun before after => stateRank before.instanceState < stateRank after.instanceState)
  first : ∀ entry, s.past.upgrades.head? = some entry → s.control.firstLatchedError = some entry.2
  unset : s.past.upgrades = [] → s.gateHeldBy = none → s.control.firstLatchedError = none
  stored : Reported s s.control.stats
  returned : ∀ stats ∈ s.past.statsReturned, Reported s stats
  reads : ∀ snapshot ∈ s.past.readsReturned, snapshot ∈ s.history ∧ snapshot.instanceState ≠ .poisoned

-- What the locals of a call in progress hold.
def StateSound (s : Shared) (t : ThreadId) : Action → Prop
  | .storeState current summary => s.gateHeldBy = some t ∧
      isUpgrade s.control.state.instanceState current.instanceState = true ∧
      current.stateEpoch = s.control.state.stateEpoch + 1 ∧
      s.control.firstLatchedError.isSome ∧
      (s.past.upgrades = [] → s.control.firstLatchedError = some summary)
  | .publishStats snapshot => snapshot ∈ s.history ∧ snapshot.instanceState ≠ .healthy
  | .updateRuntimeState snapshot first => snapshot ∈ s.history ∧ snapshot.instanceState ≠ .healthy ∧
      first.isSome ∧ first = s.control.firstLatchedError
  | .snapshotStats state | .errorStats state _ => state ∈ s.history
  | .completeRead started => started ∈ s.history ∧ started.instanceState ≠ .poisoned
  | _ => True

section core
variable {s s' : Shared}

theorem StateCore.epoch (core : StateCore s) : s.control.state.stateEpoch = s.past.upgrades.length := by
  have last := core.current
  rw [List.getLast?_eq_getElem?] at last
  have counted := core.epochs _ _ last
  simp only [history,List.length_cons,List.length_map,Nat.add_sub_cancel] at counted
  exact counted

theorem StateCore.current_mem (core : StateCore s) : s.control.state ∈ s.history :=
  List.mem_of_getLast? core.current

-- Epochs tell the states of the history apart.
theorem StateCore.same_epoch (core : StateCore s) {one two : StateSnapshot} (first : one ∈ s.history)
    (second : two ∈ s.history) (same : one.stateEpoch = two.stateEpoch) : one = two := by
  obtain ⟨i,found⟩ := List.mem_iff_getElem?.mp first
  obtain ⟨j,found'⟩ := List.mem_iff_getElem?.mp second
  have equal : i = j := by rw [← core.epochs i one found,same,core.epochs j two found']
  rw [equal,found'] at found
  exact (Option.some.inj found).symm

theorem StateCore.short (core : StateCore s) : s.past.upgrades.length ≤ 2 := by
  have ranks := core.ranks
  by_contra long
  unfold history at ranks
  match listed : s.past.upgrades with
  | [] => rw [listed] at long; simp at long
  | [_] => rw [listed] at long; simp at long
  | [_,_] => rw [listed] at long; simp at long
  | a :: b :: c :: rest =>
    rw [listed] at ranks
    simp only [List.map_cons,List.pairwise_cons] at ranks
    have one := ranks.1 a.1 (by simp)
    have two := ranks.2.1 b.1 (by simp)
    have three := ranks.2.2.1 c.1 (by simp)
    have top := stateRank_lt c.1.instanceState
    cases state : c.1.instanceState <;> rw [state] at three top <;> simp only [stateRank] at one two three top <;> omega

theorem StateCore.unhealthy (core : StateCore s) (left : s.control.state.instanceState ≠ .healthy) :
    s.past.upgrades ≠ [] := by
  intro none
  have last := core.current
  simp only [history,none,List.map_nil,List.getLast?_singleton,Option.some.injEq] at last
  rw [← last] at left
  exact left rfl

-- The part of a later state that reports rely on.
structure Later (s s' : Shared) : Prop where
  history : s.history <+: s'.history
  first : ∀ summary, s.control.firstLatchedError = some summary → s'.control.firstLatchedError = some summary

theorem Quiet.history_eq (quiet : Quiet s s') : s'.history = s.history := by
  rw [history,history,quiet.upgrades]

theorem Quiet.state (quiet : Quiet s s') : s'.control.state = s.control.state := by
  rw [RuntimeControl.state,RuntimeControl.state,quiet.word]

theorem Quiet.later (quiet : Quiet s s') : Later s s' := by
  refine ⟨?_,?_⟩
  · rw [quiet.history_eq]
  · intro summary set
    rw [quiet.first,set]

theorem Later.mem (later : Later s s') {snapshot : StateSnapshot} (before : snapshot ∈ s.history) :
    snapshot ∈ s'.history := later.history.subset before

theorem Later.trans {s'' : Shared} (one : Later s s') (two : Later s' s'') : Later s s'' :=
  ⟨one.history.trans two.history,fun summary set => two.first summary (one.first summary set)⟩

theorem Later.first_eq (later : Later s s') (set : s.control.firstLatchedError.isSome) :
    s'.control.firstLatchedError = s.control.firstLatchedError := by
  obtain ⟨summary,found⟩ := Option.isSome_iff_exists.mp set
  rw [found,later.first summary found]

theorem Later.reported (later : Later s s') {stats : DbStats} (reported : Reported s stats) : Reported s' stats := by
  obtain ⟨member,carried⟩ := reported
  refine ⟨later.mem member,?_⟩
  split at carried
  · rename_i healthy
    rw [if_pos healthy]
    exact carried
  · rename_i left
    rw [if_neg left,later.first_eq carried.1]
    exact carried

-- Locals other than a state about to be stored only refer to the past.
theorem Later.sound (later : Later s s') {t : ThreadId} {action : Action} (plain : isStore action = false)
    (sound : StateSound s t action) : StateSound s' t action := by
  cases action with
  | storeState current summary => cases plain
  | publishStats snapshot => exact ⟨later.mem sound.1,sound.2⟩
  | updateRuntimeState snapshot first =>
    obtain ⟨member,left,some,same⟩ := sound
    refine ⟨later.mem member,left,some,?_⟩
    rw [later.first_eq (same ▸ some)]
    exact same
  | snapshotStats state => exact later.mem sound
  | errorStats state snapshot => exact later.mem sound
  | completeRead started => exact ⟨later.mem sound.1,sound.2⟩
  | _ => trivial

theorem Quiet.sound (quiet : Quiet s s') {t : ThreadId} {action : Action} (sound : StateSound s t action) :
    StateSound s' t action := by
  cases store : isStore action with
  | false => exact quiet.later.sound store sound
  | true =>
    cases action with
    | storeState current summary =>
      simp only [StateSound,quiet.held,quiet.state,quiet.first,quiet.upgrades]
      exact sound
    | _ => cases store

theorem StateCore.quiet (core : StateCore s) (quiet : Quiet s s') (stored : Reported s s'.control.stats)
    (returned : ∀ stats ∈ s'.past.statsReturned, Reported s stats)
    (reads : ∀ snapshot ∈ s'.past.readsReturned, snapshot ∈ s.history ∧ snapshot.instanceState ≠ .poisoned) :
    StateCore s' := by
  refine ⟨?_,?_,?_,?_,?_,quiet.later.reported stored,?_,?_⟩
  · rw [quiet.history_eq,quiet.state]
    exact core.current
  · rw [quiet.history_eq]
    exact core.epochs
  · rw [quiet.history_eq]
    exact core.ranks
  · rw [quiet.upgrades,quiet.first]
    exact core.first
  · rw [quiet.upgrades,quiet.held,quiet.first]
    exact core.unset
  · intro stats member
    exact quiet.later.reported (returned stats member)
  · rw [quiet.history_eq]
    exact reads

theorem StateCore.silent (core : StateCore s) (quiet : Quiet s s') (silent : Silent s s') : StateCore s' := by
  refine core.quiet quiet ?_ ?_ ?_
  · rw [silent.stats]
    exact core.stored
  · rw [silent.statsReturned]
    exact core.returned
  · rw [silent.readsReturned]
    exact core.reads

-- A read that began before the poisoning and ends after it sees another epoch.
theorem completeRead_core (core : StateCore s) {started : StateSnapshot} (before : started ∈ s.history)
    (clean : started.instanceState ≠ .poisoned) (allowed : completeReadAllowed started s.control.state = true) :
    s.control.state.instanceState ≠ .poisoned := by
  intro poisoned
  simp only [completeReadAllowed,poisoned,beq_self_eq_true,Bool.true_and,Bool.not_eq_true',bne_eq_false_iff_eq] at allowed
  have same := core.same_epoch core.current_mem before allowed
  rw [same] at poisoned
  exact clean poisoned

theorem updateRuntimeState_reported (core : StateCore s) {snapshot : StateSnapshot}
    {first : Option LatchedErrorSummary} (member : snapshot ∈ s.history) (left : snapshot.instanceState ≠ .healthy)
    (set : first.isSome) (same : first = s.control.firstLatchedError) :
    Reported s (s.control.stats.updateRuntimeState snapshot.instanceState snapshot.stateEpoch first) := by
  unfold DbStats.updateRuntimeState
  split
  · refine ⟨member,?_⟩
    rw [if_neg left]
    exact ⟨same ▸ set,same⟩
  · exact core.stored

theorem updateCommitState_reported (core : StateCore s) {stats : DbStats} {headSeq durableSeq : Nat}
    {durableVlogEnd : Option VLogPosition} {activeVlogFileId : Option Nat} {vlogFileCount vlogLogicalBytes : Nat}
    (updated : s.control.stats.updateCommitState headSeq durableSeq durableVlogEnd activeVlogFileId vlogFileCount
      vlogLogicalBytes = some stats) : Reported s stats := by
  unfold DbStats.updateCommitState at updated
  split at updated
  · cases updated
  · cases updated
    exact core.stored

theorem StateCore.first_set (core : StateCore s) {snapshot : StateSnapshot} (member : snapshot ∈ s.history)
    (left : snapshot.instanceState ≠ .healthy) : s.control.firstLatchedError.isSome := by
  cases listed : s.past.upgrades with
  | nil =>
    simp only [history,listed,List.map_nil,List.mem_singleton] at member
    rw [member] at left
    exact absurd rfl left
  | cons entry rest =>
    rw [core.first entry (by rw [listed]; rfl)]
    rfl

theorem statsFrom_reported (core : StateCore s) {state : StateSnapshot} (snapshot : DbStats)
    (member : state ∈ s.history) :
    Reported s (RuntimeControl.statsFrom state snapshot s.control.firstLatchedError) := by
  refine ⟨member,?_⟩
  simp only [RuntimeControl.statsFrom]
  split
  · rfl
  · rename_i left
    exact ⟨core.first_set member left,rfl⟩

theorem StateCore.below (core : StateCore s) {snapshot : StateSnapshot} (member : snapshot ∈ s.history) :
    stateRank snapshot.instanceState ≤ stateRank s.control.state.instanceState := by
  obtain ⟨before,listed⟩ := List.getLast?_eq_some_iff.mp core.current
  have ranks := core.ranks
  rw [listed] at member ranks
  rcases List.mem_append.mp member with earlier | last
  · exact Nat.le_of_lt ((List.pairwise_append.mp ranks).2.2 snapshot earlier _ (by simp))
  · rw [List.mem_singleton.mp last]

theorem StateCore.healthy (core : StateCore s) (healthy : s.control.state.instanceState = .healthy) :
    s.past.upgrades = [] := by
  cases listed : s.past.upgrades with
  | nil => rfl
  | cons entry rest =>
    have member : entry.1 ∈ s.history := by simp [history,listed]
    have ranks := core.ranks
    have low := core.below member
    simp only [history,listed,List.map_cons,List.pairwise_cons] at ranks
    have above := ranks.1 entry.1 (by simp)
    rw [healthy] at low
    simp only [stateRank] at low above
    omega

section stores
variable {t : ThreadId} {current : StateSnapshot} {summary : LatchedErrorSummary}

theorem storeState_history : (s.storeState current summary).1.history = s.history ++ [current] := by
  simp [history,storeState]

theorem storeState_later : Later s (s.storeState current summary).1 := by
  refine ⟨?_,fun _ set => set⟩
  rw [storeState_history]
  exact List.prefix_append _ _

theorem storeState_state (core : StateCore s) (sound : StateSound s t (.storeState current summary)) :
    (s.storeState current summary).1.control.state = current := by
  have epoch := core.epoch
  have short := core.short
  obtain ⟨-,-,next,-⟩ := sound
  exact decodeState_encodeState (by omega)

theorem storeState_core (core : StateCore s) (sound : StateSound s t (.storeState current summary)) :
    StateCore (s.storeState current summary).1 := by
  have stored := storeState_state core sound
  obtain ⟨held,upgrade,next,set,opening⟩ := sound
  have above : stateRank s.control.state.instanceState < stateRank current.instanceState := by
    simpa [isUpgrade] using upgrade
  refine ⟨?_,?_,?_,?_,?_,storeState_later.reported core.stored,?_,?_⟩
  · rw [storeState_history,stored]
    simp
  · rw [storeState_history]
    intro i snapshot found
    by_cases earlier : i < s.history.length
    · rw [List.getElem?_append_left earlier] at found
      exact core.epochs i snapshot found
    · rw [List.getElem?_append_right (by omega)] at found
      have last : i = s.history.length := by
        by_contra beyond
        rw [List.getElem?_eq_none (by simp; omega)] at found
        cases found
      rw [last,Nat.sub_self] at found
      cases found
      rw [next,core.epoch,last]
      simp [history]
  · rw [storeState_history,List.pairwise_append]
    refine ⟨core.ranks,by simp,?_⟩
    intro before member after last
    rw [List.mem_singleton.mp last]
    exact Nat.lt_of_le_of_lt (core.below member) above
  · intro entry head
    simp only [storeState] at head ⊢
    cases listed : s.past.upgrades with
    | nil =>
      rw [listed] at head
      cases head
      exact opening listed
    | cons first rest =>
      rw [listed] at head
      cases head
      exact core.first entry (by rw [listed]; rfl)
  · intro none
    simp [storeState] at none
  · intro stats member
    exact storeState_later.reported (core.returned stats member)
  · intro snapshot member
    obtain ⟨before,clean⟩ := core.reads snapshot member
    exact ⟨storeState_later.mem before,clean⟩

end stores

-- The half of `latch_failure` that keeps the gate: the error is there before the state.
theorem latchFailure_core (core : StateCore s) (free : s.gateHeldBy = none) (t : ThreadId) (target : InstanceState)
    (error : StorageError) :
    StateCore (s.latchFailure t target error).1 ∧ Later s (s.latchFailure t target error).1 ∧
      ∀ f ∈ (s.latchFailure t target error).2, StateSound (s.latchFailure t target error).1 t f := by
  unfold latchFailure
  simp only
  split
  · exact ⟨core,⟨List.prefix_refl _,fun _ set => set⟩,by simp⟩
  · rename_i upgrade
    have epoch := core.epoch
    have short := core.short
    rw [Bool.not_eq_false] at upgrade
    have next : (RuntimeControl.upgraded s.control.state (requiredFailureState target error)).stateEpoch =
        s.control.state.stateEpoch + 1 := by
      simp only [RuntimeControl.upgraded]
      omega
    by_cases healthy : s.control.state.instanceState = .healthy
    · simp only [if_pos healthy]
      have none := core.healthy healthy
      have unset := core.unset none free
      have later : Later s {s with
          control := s.control.setFirstError (.fromStorageError error),gateHeldBy := some t} := by
        refine ⟨List.prefix_refl _,?_⟩
        intro summary set
        rw [unset] at set
        cases set
      refine ⟨⟨core.current,core.epochs,core.ranks,?_,?_,later.reported core.stored,?_,core.reads⟩,later,?_⟩
      · intro entry head
        rw [none] at head
        cases head
      · intro _ held
        cases held
      · intro stats member
        exact later.reported (core.returned stats member)
      · intro f member
        cases List.mem_singleton.mp member
        refine ⟨rfl,upgrade,next,rfl,?_⟩
        intro _
        simp [RuntimeControl.setFirstError,unset]
    · simp only [if_neg healthy]
      obtain ⟨entry,rest,listed⟩ := List.exists_cons_of_ne_nil (core.unhealthy healthy)
      have set := core.first entry (by rw [listed]; rfl)
      have later : Later s {s with gateHeldBy := some t} := ⟨List.prefix_refl _,fun _ set => set⟩
      refine ⟨⟨core.current,core.epochs,core.ranks,core.first,?_,core.stored,core.returned,core.reads⟩,later,?_⟩
      · intro _ held
        cases held
      · intro f member
        cases List.mem_singleton.mp member
        refine ⟨rfl,upgrade,next,by simp [set],?_⟩
        intro none
        rw [none] at listed
        cases listed

section reports
variable {t : ThreadId} {action : Action} {followUps : List Action}

theorem sound_of_plain (plain : isLocal action = false) : StateSound s t action := by
  cases action with
  | storeState current summary | publishStats snapshot | updateRuntimeState snapshot first | snapshotStats state
  | errorStats state snapshot | completeRead started => cases plain
  | _ => trivial

theorem report_core (core : StateCore s) (quiet : Quiet s s') (sound : StateSound s t action)
    (performed : s.perform t action = some (s',followUps)) (report : isReport action = true) : StateCore s' := by
  cases action with
  | updateRuntimeState snapshot first =>
    cases performed
    obtain ⟨member,left,set,same⟩ := sound
    exact core.quiet quiet (updateRuntimeState_reported core member left set same) core.returned core.reads
  | updateCommitState head durable vlogEnd active count bytes =>
    simp only [perform,updateCommitState,Option.some.injEq] at performed
    split at performed
    · cases performed
      exact core
    · rename_i stats updated
      cases performed
      exact core.quiet quiet (updateCommitState_reported core updated) core.returned core.reads
  | errorStats state snapshot =>
    cases performed
    refine core.quiet quiet core.stored ?_ core.reads
    intro stats member
    rcases List.mem_append.mp member with before | now
    · exact core.returned stats before
    · rw [List.mem_singleton.mp now]
      exact statsFrom_reported core snapshot sound
  | completeRead started =>
    simp only [perform,completeRead,Option.some.injEq,Prod.mk.injEq] at performed
    obtain ⟨rfl,rfl⟩ := performed
    split
    · rename_i allowed
      rw [if_pos allowed] at quiet
      refine core.quiet quiet core.stored core.returned ?_
      intro snapshot member
      rcases List.mem_append.mp member with before | now
      · exact core.reads snapshot before
      · rw [List.mem_singleton.mp now]
        exact ⟨core.current_mem,completeRead_core core sound.1 sound.2 allowed⟩
    · exact core
  | _ => cases report

theorem handsOn_sound (core : StateCore s) (sound : StateSound s t action)
    (performed : s.perform t action = some (s',followUps)) (hands : handsOn action = true) :
    ∀ f ∈ followUps, StateSound s' t f := by
  intro f member
  cases action with
  | publishStats snapshot =>
    cases performed
    cases List.mem_singleton.mp member
    exact ⟨sound.1,sound.2,core.first_set sound.1 sound.2,rfl⟩
  | loadStats =>
    cases performed
    cases List.mem_singleton.mp member
    exact core.current_mem
  | snapshotStats state =>
    cases performed
    cases List.mem_singleton.mp member
    exact sound
  | beginRead operation failure =>
    simp only [perform,beginRead,Option.some.injEq,Prod.mk.injEq] at performed
    obtain ⟨rfl,rfl⟩ := performed
    split at member
    · rename_i allowed
      split at member
      · cases List.mem_singleton.mp member
        refine ⟨core.current_mem,?_⟩
        simpa [beginReadAllowed] using allowed
      · cases List.mem_singleton.mp member
        trivial
    · cases member
  | _ => cases hands

end reports

theorem perform_core {t : ThreadId} {action : Action} {followUps : List Action} (core : StateCore s)
    (sound : StateSound s t action) (performed : s.perform t action = some (s',followUps)) :
    StateCore s' ∧ Later s s' ∧ ∀ f ∈ followUps, StateSound s' t f := by
  cases latch : isLatch action with
  | true =>
    cases action with
    | latchFailure target error =>
      obtain ⟨free,same⟩ := whileUnlocked_some.mp performed
      have latched := latchFailure_core core free t target error
      rw [same] at latched
      exact latched
    | _ => cases latch
  | false =>
    cases store : isStore action with
    | true =>
      cases action with
      | storeState current summary =>
        cases performed
        refine ⟨storeState_core core sound,storeState_later,?_⟩
        intro f member
        rcases List.mem_append.mp member with cancel | publish
        · obtain ⟨id,-,rfl⟩ := List.mem_map.mp cancel
          trivial
        · cases List.mem_singleton.mp publish
          refine ⟨?_,?_⟩
          · show current ∈ (s.storeState current summary).1.history
            rw [storeState_history]
            simp
          · intro healthy
            have upgrade := sound.2.1
            rw [healthy] at upgrade
            simp [isUpgrade,stateRank] at upgrade
      | _ => cases store
    | false =>
      obtain ⟨quiet,silent,plain⟩ := perform_quiet performed latch store
      refine ⟨?_,quiet.later,?_⟩
      · cases report : isReport action with
        | false => exact core.silent quiet (silent report)
        | true => exact report_core core quiet sound performed report
      · intro f member
        cases hands : handsOn action with
        | false => exact sound_of_plain ((plain f member).2 hands)
        | true => exact handsOn_sound core sound performed hands f member

theorem begin_quiet {t : ThreadId} {call : Call} (begun : s.begin t call = some s') : Quiet s s' ∧ Silent s s' := by
  unfold begin at begun
  split at begun
  · split at begun
    · cases begun
      exact ⟨⟨rfl,rfl,rfl,rfl⟩,⟨rfl,rfl,rfl⟩⟩
    · cases begun
  · split at begun
    · cases begun
      unfold noteDrop
      split
      all_goals exact ⟨⟨rfl,rfl,rfl,rfl⟩,⟨rfl,rfl,rfl⟩⟩
    · cases begun
  · split at begun
    · cases begun
      exact ⟨⟨rfl,rfl,rfl,rfl⟩,⟨rfl,rfl,rfl⟩⟩
    · cases begun
  · cases begun
    exact ⟨⟨rfl,rfl,rfl,rfl⟩,⟨rfl,rfl,rfl⟩⟩

theorem callActions_plain (call : Call) : ∀ a ∈ callActions call, isLocal a = false := by
  cases call <;> simp [callActions,isLocal]

-- The stored snapshot only moves to newer epochs.
theorem perform_stats_epoch {t : ThreadId} {action : Action} {followUps : List Action}
    (performed : s.perform t action = some (s',followUps)) :
    s.control.stats.stateEpoch ≤ s'.control.stats.stateEpoch := by
  cases action with
  | latchFailure target error =>
    obtain ⟨-,same⟩ := whileUnlocked_some.mp performed
    simp only [latchFailure] at same
    split at same
    · cases same
      exact Nat.le_refl _
    · cases same
      simp only
      split <;> exact Nat.le_refl _
  | storeState current summary =>
    cases performed
    exact Nat.le_refl _
  | updateRuntimeState snapshot first =>
    cases performed
    simp only [RuntimeControl.publishStats,DbStats.updateRuntimeState]
    split
    · rename_i newer
      simp only
      omega
    · exact Nat.le_refl _
  | updateCommitState head durable vlogEnd active count bytes =>
    simp only [perform,updateCommitState,Option.some.injEq] at performed
    split at performed
    · cases performed
      exact Nat.le_refl _
    · rename_i stats updated
      cases performed
      unfold DbStats.updateCommitState at updated
      split at updated
      · cases updated
      · cases updated
        exact Nat.le_refl _
  | errorStats state snapshot =>
    cases performed
    exact Nat.le_refl _
  | completeRead started =>
    simp only [perform,completeRead,Option.some.injEq,Prod.mk.injEq] at performed
    obtain ⟨rfl,rfl⟩ := performed
    split <;> exact Nat.le_refl _
  | _ =>
    have silent := (perform_quiet performed rfl rfl).2.1 rfl
    rw [silent.stats]

end core

end Shared

end ExpirKv
