import ExpirKv.Recovery.Reverting
import ExpirKv.Recovery.Weathering

namespace ExpirKv
open VLogGeometry Storage

variable [Crc32c]

section locating
variable {format : FormatMetadata} {inventory : ManagedInventory} {storage image : Storage} {identity : Bytes}
  {frontier : DurableFrontier} {headSeq : Nat} {topology : RecoveryTopology} {descriptors : List TransactionDescriptor}

-- Where an index stands, as an analysis reads it.
structure Located (identity : Bytes) (frontier : DurableFrontier) (headSeq : Nat) (descriptors : List TransactionDescriptor)
    (index : Index) : Prop where
  identified : index.system[databaseIdentityKey]? = some identity
  durable : ∃ encoded, index.system[durableFrontierKey]? = some encoded ∧ DurableFrontier.decode encoded = .ok frontier
  head : ∃ encoded, index.system[headSeqKey]? = some encoded ∧ decodeHeadSeq encoded = .ok headSeq
  ordered : frontier.durableSeq ≤ headSeq
  described : DescribedAbove index.transaction frontier.durableSeq headSeq descriptors

theorem Situation.located
    (situation : Situation format inventory storage identity frontier headSeq topology descriptors) :
    Located identity frontier headSeq descriptors storage.index :=
  ⟨situation.identified,situation.durable,situation.head,situation.bounds.1,situation.described⟩

theorem Located.situation (located : Located identity frontier headSeq descriptors image.index) (honest : image.Honest)
    (valid : validateDatabaseIdentity format identity = .ok ()) (geometry : image.vlog.geometry = production)
    (lists : inventory.Lists image.vlog.files) (reached : ReachedEnd image.vlog.files frontier.durableVlogEnd)
    (boundary : StableBoundary image.vlog frontier) :
    Situation format inventory image identity frontier headSeq (listedTopology inventory) descriptors := by
  obtain ⟨identified,⟨encoded,durable,decoded⟩,⟨bytes,head,read⟩,ordered,described⟩ := located
  refine ⟨honest,identified,valid,geometry,⟨encoded,durable,decoded⟩,⟨bytes,head,read⟩,?_,
    (RecoveryTopology.analyze_ok lists).mpr ⟨reached,rfl⟩,boundary,?_⟩
  · rw [DurableFrontier.validateAgainstHead,DurableFrontier.decode_valid decoded,ok_bind,rejectIf_false (by omega)]
  · exact (loadUnstableDescriptors_iff honest ordered (decodeHeadSeq_lt read)).mpr described

end locating

section targeting
variable {format : FormatMetadata} {inventory : ManagedInventory} {storage : Storage} {identity : Bytes}
  {frontier : DurableFrontier} {headSeq : Nat} {topology : RecoveryTopology} {descriptors : List TransactionDescriptor}
  {state : RecoveryState} {plan : RecoveryPlan}

-- A recovery state that goes with a plan.
structure Frozen (plan : RecoveryPlan) (state : RecoveryState) : Prop where
  goal : state.goal = plan.newState.goal
  valid : state.validate = .ok ()
  fits : state.originalHead < 18446744073709551616
  next : state.phase = .undo → state.nextUndoSeq = plan.headSeq
  rests : state.phase ≠ .undo → plan.headSeq = plan.acceptedSeq ∧ plan.durableFrontier = plan.target
  trims : state.trimRequired = false → plan.needsTrim = false

-- The transactions above the target.
def RecoveryPlan.undone (plan : RecoveryPlan) : List TransactionDescriptor :=
  plan.descriptors.drop (plan.acceptedSeq - plan.durableFrontier.durableSeq)

-- A plan that an analysis draws, first or second, and what it found for it.
structure Targeted (format : FormatMetadata) (inventory : ManagedInventory) (storage : Storage) (plan : RecoveryPlan) :
    Prop where
  situation : Situation format inventory storage plan.databaseIdentity plan.durableFrontier plan.headSeq
    (listedTopology inventory) plan.descriptors
  inspected : inspectFiles format storage.vlog.files = .ok inventory
  stored : decodeRecoveryState storage.index.system[recoveryStateKey]? = .ok plan.recoveryState
  backed : Backed storage.vlog plan.durableFrontier plan.newState.goal plan.descriptors
  inside : plan.acceptedSeq ≤ plan.headSeq
  chosen : plan.recoveryState = none →
    plan = plannedRecovery plan.databaseIdentity plan.durableFrontier plan.headSeq plan.newState.goal plan.descriptors none
      inventory (listedTopology inventory) ∧
    ∀ first ∈ plan.undone.head?, ¬Acceptable storage.vlog plan.newState.goal first
  resumed : ∀ state ∈ plan.recoveryState,
    plan = resumedRecovery plan.databaseIdentity plan.durableFrontier plan.headSeq plan.descriptors state inventory
      (listedTopology inventory) ∧ Frozen plan state

-- The longest accepted prefix is chosen, and there is only one.
theorem Situation.chooses (situation : Situation format inventory storage identity frontier headSeq topology descriptors)
    (lists : inventory.Lists storage.vlog.files) {front back : List TransactionDescriptor} (split : descriptors = front ++ back)
    (accepts : AcceptsAll storage.vlog (.start frontier) front)
    (stops : ∀ first ∈ back.head?, ¬Acceptable storage.vlog (front.foldl Accepted.take (.start frontier)) first) :
    analyzeNewTarget identity frontier headSeq descriptors inventory topology storage =
      .ok (plannedRecovery identity frontier headSeq (front.foldl Accepted.take (.start frontier)) descriptors none inventory
        topology) storage := by
  obtain ⟨front',back',split',accepts',stops',ran⟩ := situation.fresh lists
  have sized := congrArg List.length split
  have sized' := congrArg List.length split'
  rw [List.length_append] at sized sized'
  have low : front'.length ≤ front.length := by
    refine (acceptsAll_take accepts stops front'.length (by rw [List.length_append]; omega)).mp ?_
    rw [←split,split',List.take_left]
    exact accepts'
  have high : front.length ≤ front'.length := by
    refine (acceptsAll_take accepts' stops' front.length (by rw [List.length_append]; omega)).mp ?_
    rw [←split',split,List.take_left]
    exact accepts
  obtain ⟨same,-⟩ := List.append_inj (split.symm.trans split') (Nat.le_antisymm high low)
  rw [ran,same]

theorem acceptAll_accepts {accepted : Accepted} (honest : storage.Honest) :
    Delivers (acceptAll accepted descriptors) storage
      (fun result reached => reached = storage ∧ AcceptsAll storage.vlog accepted descriptors ∧
        result = descriptors.foldl Accepted.take accepted) (fun _ _ => True) := by
  induction descriptors generalizing accepted with
  | nil => exact ⟨rfl,trivial,rfl⟩
  | cons descriptor rest ih =>
    refine (acceptDescriptor_honest honest descriptor).bind ?_ (fun _ _ no => no.elim)
    rintro taken reached ⟨rfl,decides⟩
    cases taken with
    | false => trivial
    | true =>
      refine (@ih (accepted.take descriptor)).mono ?_ (fun _ _ _ => trivial)
      rintro result after ⟨same,accepts,rfl⟩
      exact ⟨same,⟨decides.mp rfl,accepts⟩,rfl⟩

-- What the second analysis has seen when it answers.
theorem analyzeFixedTarget_ok {reached : Storage} (honest : storage.Honest)
    (analyzed : analyzeFixedTarget identity frontier headSeq descriptors state inventory topology storage = .ok plan reached) :
    reached = storage ∧ plan = resumedRecovery identity frontier headSeq descriptors state inventory topology ∧
      validateRecoveryStateAgainstCurrent state frontier headSeq = .ok () ∧ state.targetSeq ≤ headSeq ∧
      checkTrim state (RecoveryTopology.hasSuffixAfter inventory state.targetVlogEnd) = .ok () ∧
      (state.phase = .undo → state.targetSeq - frontier.durableSeq ≤ descriptors.length ∧
        AcceptsAll storage.vlog (.start frontier) (descriptors.take (state.targetSeq - frontier.durableSeq)) ∧
        (descriptors.take (state.targetSeq - frontier.durableSeq)).foldl Accepted.take (.start frontier) = state.goal) := by
  have built : Delivers (do
      let plan ← Eff.lift (buildPlan identity frontier headSeq ⟨state.targetSeq,state.targetVlogSeq,state.targetVlogEnd⟩
        descriptors (some state) inventory topology)
      Eff.lift (checkTrim state plan.needsTrim)
      return {plan with needsUndo := decide (state.phase = .undo ∧ headSeq > state.targetSeq)} :
        Eff Storage StorageError RecoveryPlan) storage
      (fun plan reached => reached = storage ∧
        plan = resumedRecovery identity frontier headSeq descriptors state inventory topology ∧ state.targetSeq ≤ headSeq ∧
        checkTrim state (RecoveryTopology.hasSuffixAfter inventory state.targetVlogEnd) = .ok ()) (fun _ _ => True) := by
    simp only [delivers_bind,delivers_lift,delivers_pure,implies_true,and_true]
    intro drawn same _ checked
    simp only [buildPlan,bind_ok,exists_unit,rejectIf_ok,pure_ok,Except.ok.injEq] at same
    obtain ⟨bounds,-,rfl⟩ := same
    exact ⟨trivial,rfl,by omega,checked⟩
  have run : Delivers (analyzeFixedTarget identity frontier headSeq descriptors state inventory topology) storage
      (fun plan reached => reached = storage ∧
        plan = resumedRecovery identity frontier headSeq descriptors state inventory topology ∧
        validateRecoveryStateAgainstCurrent state frontier headSeq = .ok () ∧ state.targetSeq ≤ headSeq ∧
        checkTrim state (RecoveryTopology.hasSuffixAfter inventory state.targetVlogEnd) = .ok () ∧
        (state.phase = .undo → state.targetSeq - frontier.durableSeq ≤ descriptors.length ∧
          AcceptsAll storage.vlog (.start frontier) (descriptors.take (state.targetSeq - frontier.durableSeq)) ∧
          (descriptors.take (state.targetSeq - frontier.durableSeq)).foldl Accepted.take (.start frontier) = state.goal))
      (fun _ _ => True) := by
    unfold analyzeFixedTarget
    refine delivers_bind.mpr (delivers_lift.mpr ⟨fun _ current => ?_,fun _ _ => trivial⟩)
    by_cases phase : state.phase = .undo
    · rw [if_pos phase,revalidateTarget,bind_assoc]
      refine delivers_bind.mpr (delivers_lift.mpr ⟨fun _ bounds => ?_,fun _ _ => trivial⟩)
      rw [bind_assoc]
      refine (acceptAll_accepts honest).bind ?_ (fun _ _ _ => trivial)
      rintro accepted _ ⟨rfl,accepts,folds⟩
      refine delivers_bind.mpr (delivers_lift.mpr ⟨fun _ same => ?_,fun _ _ => trivial⟩)
      refine built.mono ?_ (fun _ _ _ => trivial)
      rintro plan _ ⟨rfl,rfl,inside,checked⟩
      have long := rejectIf_ok.mp bounds
      have ends := not_not.mp (rejectIf_ok.mp same)
      exact ⟨rfl,rfl,current,inside,checked,fun _ => ⟨by omega,accepts,folds.symm.trans ends⟩⟩
    · rw [if_neg phase]
      refine built.mono ?_ (fun _ _ _ => trivial)
      rintro plan _ ⟨rfl,rfl,inside,checked⟩
      exact ⟨rfl,rfl,current,inside,checked,fun undo => absurd undo phase⟩
  exact run.of_ok analyzed

omit [Crc32c] in
theorem Frozen.of_checks (goal : state.goal = plan.newState.goal) (valid : state.validate = .ok ())
    (fits : state.originalHead < 18446744073709551616)
    (current : validateRecoveryStateAgainstCurrent state plan.durableFrontier plan.headSeq = .ok ())
    (checked : checkTrim state plan.needsTrim = .ok ()) : Frozen plan state := by
  obtain ⟨-,rests⟩ := validateRecoveryStateAgainstCurrent_ok current
  obtain ⟨seq,vlogSeq,vlogEnd⟩ : state.targetSeq = plan.acceptedSeq ∧ state.targetVlogSeq = plan.acceptedVlogSeq ∧
      state.targetVlogEnd = plan.acceptedEnd := by simpa [RecoveryState.goal,RecoveryPlan.newState] using goal
  refine ⟨goal,valid,fits,?_,?_,?_⟩
  · intro phase
    simp only [validateRecoveryStateAgainstCurrent,bind_ok,exists_unit,phase,rejectIf_ok,not_not] at current
    exact current.2.2.symm
  · intro phase
    obtain ⟨head,same⟩ := rests phase
    rw [seq,vlogSeq,vlogEnd] at same
    exact ⟨head.trans seq,same.symm⟩
  · intro uncut
    unfold checkTrim at checked
    split at checked <;> simp_all [rejectIf_ok]

theorem Frozen.current (frozen : Frozen plan state) (ext : Extends storage.vlog plan.durableFrontier plan.newState.goal)
    (ordered : plan.durableFrontier.durableVlogSeq ≤ plan.durableFrontier.durableSeq) :
    validateRecoveryStateAgainstCurrent state plan.durableFrontier plan.headSeq = .ok () := by
  have low := ext.ordered.1
  have moved := ext.moved
  rw [←frozen.goal] at low moved
  simp only [RecoveryState.goal] at low moved
  obtain ⟨-,-,phases⟩ := RecoveryState.validate_ok.mp frozen.valid
  unfold RecoveryState.phaseMatches at phases
  have seqs : rejectIf (state.targetSeq < plan.durableFrontier.durableSeq ∨
      state.targetVlogSeq < plan.durableFrontier.durableVlogSeq) recoveryCorruption = .ok () := by
    rcases moved with ⟨same,-⟩ | ⟨further,-⟩ <;> exact rejectIf_false (by omega)
  have ends : rejectIf (if state.targetVlogSeq = plan.durableFrontier.durableVlogSeq then
      state.targetVlogEnd ≠ plan.durableFrontier.durableVlogEnd
      else durableEndStrictlyAfter state.targetVlogEnd plan.durableFrontier.durableVlogEnd = false) recoveryCorruption =
      .ok () := by
    refine rejectIf_false ?_
    rcases moved with ⟨same,ends⟩ | ⟨further,after⟩
    · rw [if_pos same]
      exact not_not.mpr ends
    · rw [if_neg (by omega)]
      simp [after]
  rw [validateRecoveryStateAgainstCurrent,seqs,ok_bind,ends,ok_bind]
  cases phase : state.phase with
  | undo => exact rejectIf_false (fun no => no (frozen.next phase).symm)
  | trim | finalize =>
    obtain ⟨head,frontier⟩ := frozen.rests (by rw [phase]; decide)
    simp only [phase,Bool.and_eq_true,beq_iff_eq] at phases
    have goal := frozen.goal
    simp only [RecoveryState.goal,RecoveryPlan.newState,Accepted.mk.injEq] at goal
    refine rejectIf_false ?_
    rw [frontier,head]
    simp [RecoveryPlan.target,goal,phases]

omit [Crc32c] in
theorem Frozen.checks (frozen : Frozen plan state) : checkTrim state plan.needsTrim = .ok () := by
  obtain ⟨-,-,phases⟩ := RecoveryState.validate_ok.mp frozen.valid
  unfold RecoveryState.phaseMatches at phases
  unfold checkTrim
  cases phase : state.phase with
  | undo => exact rejectIf_false (fun no => by simp [frozen.trims no.1] at no)
  | trim =>
    simp only [phase,Bool.and_eq_true] at phases
    exact rejectIf_false (by simp [phases.2])
  | finalize =>
    simp only [phase,Bool.and_eq_true,Bool.not_eq_true'] at phases
    exact rejectIf_false (by simp [phases.2,frozen.trims phases.2])

variable {reached image : Storage}

-- Whatever an analysis answers is such a plan.
theorem analyzeRecovery_targeted (honest : storage.Honest) (inspected : inspectFiles format storage.vlog.files = .ok inventory)
    (analyzed : analyzeRecovery format inventory storage = .ok plan reached) :
    Targeted format inventory storage plan ∧ reached = storage := by
  have lists := inspectFiles_lists inspected
  obtain ⟨identity,frontier,headSeq,topology,descriptors,recoveryState,situation,decoded,ran⟩ :=
    analyzeRecovery_situation honest analyzed
  obtain rfl := ((RecoveryTopology.analyze_ok lists).mp situation.topology).2
  have bounds := situation.bounds
  have length := situation.described.length
  cases recoveryState with
  | none =>
    obtain ⟨front,back,split,accepts,stops,fresh⟩ := situation.fresh lists
    obtain ⟨ext,seq⟩ := situation.extended lists split accepts
    rw [analyzeTarget,fresh] at ran
    obtain ⟨rfl,rfl⟩ := EStateM.Result.ok.inj ran
    rw [split,List.length_append] at length
    have count : (front.foldl Accepted.take (.start frontier)).seq - frontier.durableSeq = front.length := by omega
    have taken : descriptors.take front.length = front := by rw [split,List.take_left]
    have dropped : descriptors.drop front.length = back := by rw [split,List.drop_left]
    refine ⟨⟨situation,inspected,decoded,⟨?_,?_,ext⟩,?_,fun _ => ⟨rfl,?_⟩,fun _ no => by cases no⟩,rfl⟩
    · simp only [plannedRecovery,RecoveryPlan.newState,RecoveryState.goal]
      rw [count,taken]
      exact accepts
    · simp only [plannedRecovery,RecoveryPlan.newState,RecoveryState.goal]
      rw [count,taken]
    · simp only [plannedRecovery]
      omega
    · simp only [RecoveryPlan.undone,plannedRecovery]
      rw [count,dropped]
      exact stops
  | some state =>
    obtain ⟨rfl,rfl,current,inside,checked,undo⟩ := analyzeFixedTarget_ok honest ran
    obtain ⟨encoded,-,read⟩ := decodeRecoveryState_some decoded
    obtain ⟨encodes,fits⟩ := RecoveryState.decode_canonical read
    have valid : state.validate = .ok () := by
      simp only [RecoveryState.encode,bind_ok,exists_unit,mapError_ok] at encodes
      exact encodes.1
    have frozen : Frozen (resumedRecovery identity frontier headSeq descriptors state inventory (listedTopology inventory))
        state := .of_checks rfl valid fits current checked
    refine ⟨⟨situation,inspected,decoded,?_,inside,(fun no => by cases no),fun other same => ?_⟩,rfl⟩
    · by_cases phase : state.phase = .undo
      · obtain ⟨long,accepts,folds⟩ := undo phase
        obtain ⟨ext,-⟩ := situation.extended lists (List.take_append_drop _ descriptors).symm accepts
        rw [folds] at ext
        exact ⟨accepts,folds,ext⟩
      · -- Head and frontier have reached the target already.
        obtain ⟨-,same⟩ := frozen.rests phase
        have goal : Accepted.start frontier = state.goal := congrArg Accepted.start same
        have ext := situation.start lists
        rw [goal] at ext
        have none : state.targetSeq - frontier.durableSeq = 0 := by
          rw [show frontier.durableSeq = state.targetSeq from congrArg DurableFrontier.durableSeq same,Nat.sub_self]
        refine ⟨?_,?_,ext⟩
        · change AcceptsAll reached.vlog (.start frontier) (descriptors.take (state.targetSeq - frontier.durableSeq))
          rw [none,List.take_zero]
          trivial
        · change (descriptors.take (state.targetSeq - frontier.durableSeq)).foldl Accepted.take (.start frontier) = state.goal
          rw [none,List.take_zero]
          exact goal
    · obtain rfl := Option.some.inj same
      exact ⟨rfl,frozen⟩

theorem Targeted.suffix (targeted : Targeted format inventory storage plan) :
    plan.needsTrim = RecoveryTopology.hasSuffixAfter inventory plan.acceptedEnd := by
  cases resumed : plan.recoveryState with
  | none => exact congrArg RecoveryPlan.needsTrim (targeted.chosen resumed).1
  | some state =>
    obtain ⟨same,frozen⟩ := targeted.resumed state resumed
    have ends := congrArg Accepted.vlogEnd frozen.goal
    have trim := congrArg RecoveryPlan.needsTrim same
    rw [show plan.acceptedEnd = state.targetVlogEnd from ends.symm]
    exact trim

-- And such a plan is what the analysis answers.
theorem Targeted.analyzes (targeted : Targeted format inventory storage plan) :
    analyzeRecovery format inventory storage = .ok plan storage := by
  have situation := targeted.situation
  have lists := inspectFiles_lists targeted.inspected
  have backed := targeted.backed
  have run : Delivers (analyzeRecovery format inventory) storage (fun drawn after => drawn = plan ∧ after = storage)
      (fun _ _ => False) := by
    refine situation.analyze targeted.stored ?_
    cases resumed : plan.recoveryState with
    | none =>
      obtain ⟨same,stops⟩ := targeted.chosen resumed
      rw [←backed.folds] at stops
      have chooses := situation.chooses lists (List.take_append_drop _ plan.descriptors).symm backed.accepts stops
      rw [backed.folds,←same] at chooses
      rw [analyzeTarget,Delivers,chooses]
      exact ⟨rfl,rfl⟩
    | some state =>
      obtain ⟨same,frozen⟩ := targeted.resumed state resumed
      have goal := frozen.goal
      have trims := frozen.checks
      rw [targeted.suffix,show plan.acceptedEnd = state.targetVlogEnd from (congrArg Accepted.vlogEnd goal).symm] at trims
      have seq : state.targetSeq = plan.acceptedSeq := congrArg Accepted.seq goal
      refine (situation.resumed lists (by rw [goal]; exact backed.reaches) (by rw [seq]; exact targeted.inside)
        (frozen.current backed.reaches situation.bounds.2.2.1) trims ?_).mono ?_ (fun _ _ no => no)
      · intro _
        rw [seq,goal]
        exact ⟨backed.accepts,backed.folds⟩
      · rintro drawn _ ⟨rfl,rfl⟩
        exact ⟨same.symm,rfl⟩
  obtain ⟨_,_,ran,rfl,rfl⟩ := run.returns
  exact ran

-- Neither trace nor script have a part in it.
theorem Targeted.moved (targeted : Targeted format inventory storage plan) (honest : image.Honest)
    (index : image.index = storage.index) (vlog : image.vlog = storage.vlog) : Targeted format inventory image plan := by
  have situation := targeted.situation
  have located := situation.located
  rw [←index] at located
  have lists := inspectFiles_lists targeted.inspected
  have reached := ((RecoveryTopology.analyze_ok lists).mp situation.topology).1
  refine ⟨located.situation honest situation.valid ?_ ?_ ?_ ?_,?_,?_,?_,targeted.inside,?_,targeted.resumed⟩
  · rw [vlog]
    exact situation.geometry
  · rw [vlog]
    exact lists
  · rw [vlog]
    exact reached
  · rw [vlog]
    exact situation.boundary
  · rw [vlog]
    exact targeted.inspected
  · rw [index]
    exact targeted.stored
  · rw [vlog]
    exact targeted.backed
  · rw [vlog]
    exact targeted.chosen

-- The second analysis goes on wherever the index stands with the state, and whatever the files lost behind the target.
theorem Targeted.resumes (targeted : Targeted format inventory storage plan) (honest : image.Honest)
    (weathered : storage.vlog.Weathered plan.acceptedEnd image.vlog)
    (located : Located plan.databaseIdentity frontier headSeq descriptors image.index)
    (backed : Backed storage.vlog frontier plan.newState.goal descriptors)
    (reached : ReachedEnd storage.vlog.files frontier.durableVlogEnd) (boundary : StableBoundary storage.vlog frontier)
    (inside : plan.acceptedSeq ≤ headSeq)
    (stored : decodeRecoveryState image.index.system[recoveryStateKey]? = .ok (some state))
    (frozen : Frozen {plan with headSeq,durableFrontier := frontier} state) :
    ∃ later, Targeted format later image (resumedRecovery plan.databaseIdentity frontier headSeq descriptors state later
      (listedTopology later)) := by
  have geometry := targeted.situation.geometry
  have inspected := targeted.inspected
  obtain ⟨later,again⟩ := inspectFiles_inspectable.mpr
    (weathered.weathers.inspectable (inspectFiles_inspectable.mp ⟨inventory,inspected⟩))
  have goal : state.goal = plan.newState.goal := frozen.goal
  have ends : state.targetVlogEnd = plan.acceptedEnd := congrArg Accepted.vlogEnd goal
  have seq : state.targetSeq = plan.acceptedSeq := congrArg Accepted.seq goal
  have trims : state.trimRequired = false → RecoveryTopology.hasSuffixAfter later state.targetVlogEnd = false := by
    intro uncut
    have none : plan.needsTrim = false := frozen.trims uncut
    rw [targeted.suffix] at none
    have same := weathered.weathers.exact (acceptedContents_noSuffix (inspectFiles_lists inspected) none)
    rw [same,inspected] at again
    rw [ends,←Except.ok.inj again,none]
  have whole := backed.weathered geometry weathered
  rw [←goal] at whole
  refine ⟨later,located.situation honest targeted.situation.valid (weathered.geometry.trans geometry)
    (inspectFiles_lists again) ((weathered.weathers.earlier backed.reaches.behind).reachedEnd reached)
    (backed.boundary geometry weathered boundary),again,stored,whole,?_,(fun no => by cases no),fun other same => ?_⟩
  · exact seq.trans_le inside
  · obtain rfl := Option.some.inj same
    refine ⟨rfl,rfl,frozen.valid,frozen.fits,frozen.next,?_,trims⟩
    intro phase
    obtain ⟨head,target⟩ := frozen.rests phase
    refine ⟨head.trans seq.symm,target.trans ?_⟩
    have vlogSeq : state.targetVlogSeq = plan.acceptedVlogSeq := congrArg Accepted.vlogSeq goal
    change plan.target = ⟨state.targetSeq,state.targetVlogSeq,state.targetVlogEnd⟩
    rw [seq,vlogSeq,ends]
    rfl

end targeting

end ExpirKv
