import ExpirKv.Lifecycle.TornOpen

namespace ExpirKv
open VLogGeometry Storage

section attempts
variable [Crc32c]

-- An attempt to recover: the analysis, and the execution under the answers of a script.
def recoverUnder (format : FormatMetadata) (script : List Answer) : Eff Storage StorageError RecoveredState := do
  let inventory ← ManagedInventory.inspect format
  let plan ← analyzeRecovery format inventory
  modify (fun storage => {storage with script})
  executeRecovery format plan

-- What an attempt that was cut off leaves to the next one. A crash may take back every cut and every removal that waits
-- for its sync. Behind the target of a stored state it may take more of the files.
structure CutOff (format : FormatMetadata) (original cut image : Storage) : Prop where
  honest : image.Honest
  index : image.index = cut.index
  trace : image.trace = cut.trace
  listed : Relisted format image.vlog.files image.vlog
  files : ∃ restored : Directory,
    (∀ fileId : Nat, restored[fileId]? = cut.vlog.files[fileId]? ∨
      (Event.pending cut.trace fileId = true ∧ restored[fileId]? = original.vlog.files[fileId]?)) ∧
    (image.vlog.files = restored ∨ ∃ state : RecoveryState,
      decodeRecoveryState cut.index.system[recoveryStateKey]? = .ok (some state) ∧
      Weathers state.targetVlogEnd restored image.vlog.files)

-- Attempts one after the other, each cut off at some call, or behind its last one.
inductive Reattempted (format : FormatMetadata) (original : Storage) : Storage → Prop
  | start : Reattempted format original original
  | stopped {image cut next : Storage} {script : List Answer} {error : StorageError}
      (earlier : Reattempted format original image) (ran : recoverUnder format script image = .error error cut)
      (crashed : CutOff format original cut next) : Reattempted format original next
  | ended {image cut next : Storage} {script : List Answer} {recovered : RecoveredState}
      (earlier : Reattempted format original image) (ran : recoverUnder format script image = .ok recovered cut)
      (crashed : CutOff format original cut next) : Reattempted format original next

-- What the next process finds when nothing is lost: the files listed anew, and waiting for a sync what waited before.
def Storage.restarted (storage : Storage) (databaseUuid : Uuid) : Storage :=
  ⟨storage.index,⟨storage.vlog.files,Std.ExtTreeSet.ofList storage.vlog.files.keys,databaseUuid,production⟩,[],storage.trace⟩

theorem CutOff.restarted (format : FormatMetadata) (original cut : Storage) :
    CutOff format original cut (cut.restarted format.databaseUuid) := by
  refine ⟨rfl,rfl,rfl,⟨rfl,rfl,rfl,fun fileId => ?_⟩,cut.vlog.files,fun _ => .inl rfl,.inl rfl⟩
  simp only [Storage.restarted]
  rw [Std.ExtTreeSet.mem_ofList,List.contains_iff_mem,Std.ExtTreeMap.mem_keys,←Std.ExtTreeMap.isSome_getElem?_iff_mem,
    Option.isSome_iff_exists]

end attempts

section syncs
variable {before after : Storage} {acceptedEnd : Option VLogPosition}

def Storage.AllSynced (storage : Storage) : Prop := ∀ fileId, Event.pending storage.trace fileId = false

theorem Storage.AllSynced.moved (synced : before.AllSynced) (trace : after.trace = before.trace) : after.AllSynced := by
  intro fileId
  rw [trace]
  exact synced fileId

theorem Storage.AllSynced.calmed (synced : before.AllSynced) (calm : Calmed before after) : after.AllSynced := by
  intro fileId
  obtain ⟨cut,removal⟩ := Event.pending_false.mp (synced fileId)
  exact Event.pending_false.mpr ⟨fun held => cut (calm.cuts fileId held),fun held => removal (calm.removals fileId held)⟩

theorem Flushed.synced (flushed : Flushed acceptedEnd before after) (only : ∀ fileId,
      Event.pendingCut before.trace fileId = true → ∃ accepted ∈ acceptedEnd, accepted.fileId = fileId) :
    after.AllSynced := by
  intro fileId
  refine Event.pending_false.mpr ⟨fun cut => ?_,by simp [flushed.removals fileId]⟩
  obtain ⟨earlier,apart⟩ := flushed.cuts fileId cut
  obtain ⟨accepted,member,same⟩ := only fileId earlier
  exact apart accepted member same

end syncs

section reverting
variable [Crc32c] {format : FormatMetadata} {inventory : ManagedInventory} {start now : Storage} {plan : RecoveryPlan}
  {state : RecoveryState}

theorem Targeted.undoes_reverting (targeted : Targeted format inventory start.answering plan) (honest : now.Honest)
    (pursued : Pursued plan state) (phase : state.phase = .undo) (begun : UndoBegun start plan state now) :
    Delivers (reachTarget plan (some state)) now (fun _ _ => ∃ point, Unwinds plan.undone start.index point)
      (fun _ _ => True) := by
  have frozen := pursued.frozen
  have count := targeted.undone_length
  have inside := targeted.inside
  have seq : state.targetSeq = plan.acceptedSeq := congrArg Accepted.seq frozen.goal
  have next : state.nextUndoSeq = state.targetSeq + plan.undone.length := by
    rw [frozen.next phase]
    omega
  have unwound := begun.unwound
  rw [honest.answering] at unwound
  rw [reachTarget,if_pos phase,show undoTransactions plan state = undoTurns plan plan.undone.length state by
    rw [undoTransactions,next,Nat.add_sub_cancel_left]]
  refine (undoTurns_reverts honest unwound next frozen.valid phase (by rw [seq]; exact targeted.low) targeted.identified
    (fun index bound => by rw [seq]; exact targeted.expected index bound)).bind ?_ (fun _ _ _ => trivial)
  rintro _ reached ⟨point,unwinds⟩
  have back : ∃ point, Unwinds plan.undone start.index point :=
    ⟨point,unwinds.of_same begun.user.symm begun.transaction.symm⟩
  exact (Delivers.self _ reached).mono (fun _ _ _ => back) (fun _ _ _ => trivial)

-- A recovery that succeeded has taken back what lies above its target.
theorem Targeted.reverted (targeted : Targeted format inventory start.answering plan) (honest : start.Honest)
    (registered : Registered start) (databaseUuid : start.vlog.databaseUuid = format.databaseUuid) :
    Delivers (executeRecovery format plan) start (fun _ _ => ∃ point, Unwinds plan.undone start.index point)
      (fun _ _ => True) := by
  by_cases nothing : plan.undone = []
  · refine (Delivers.self _ start).mono (fun _ _ _ => ⟨start.index,?_⟩) (fun _ _ _ => trivial)
    rw [nothing]
    exact .nil rfl rfl
  have situation := targeted.situation
  have count := targeted.undone_length
  have more := List.length_pos_iff.mpr nothing
  -- Behind the turns nothing is asked any more.
  have turned : ∀ {state : RecoveryState} {now : Storage}, now.Honest → Pursued plan state → state.phase = .undo →
      UndoBegun start plan state now → Delivers (do
        let progress ← reachTarget plan (some state)
        let left ← finishPhase format plan progress.state
        Eff.lift (rejectIf (left ≠ none) recoveryCorruption)
        verifyFinalState format plan progress.headSeq progress.frontier
        let writer ← ValueLogRecovery.intoWriter progress.frontier.durableVlogEnd
        Eff.lift (rejectIf (writer.position ≠ appendPosition progress.frontier.durableVlogEnd) recoveryCorruption)
        return (⟨progress.headSeq,progress.frontier,writer⟩ : RecoveredState)) now
        (fun _ _ => ∃ point, Unwinds plan.undone start.index point) (fun _ _ => True) := by
    intro state now answered pursued phase begun
    refine (targeted.undoes_reverting answered pursued phase begun).bind ?_ (fun _ _ _ => trivial)
    intro _ reached back
    exact (Delivers.self _ reached).mono (fun _ _ _ => back) (fun _ _ _ => trivial)
  refine (validateRecoveryBindings_honest honest situation.geometry databaseUuid situation.identified situation.valid).bind
    ?_ (fun _ _ no => no.elim)
  rintro _ _ rfl
  refine (targeted.creates registered (.refl _)).bind ?_ (fun _ _ _ => trivial)
  rintro created reached (⟨rfl,still,idle⟩ | ⟨pursued,rfl,begun⟩)
  · cases stored : plan.recoveryState with
    | none =>
      have settled := (idle stored).1
      rw [congrArg RecoveryPlan.needsUndo (targeted.chosen stored).1] at settled
      have above : ¬plan.acceptedSeq < plan.headSeq := of_decide_eq_false settled
      omega
    | some state =>
      have pursued := targeted.pursued stored
      have phase : state.phase = .undo := by
        by_contra later
        have rests := (pursued.frozen.rests later).1
        omega
      exact turned (still.answered honest) pursued phase ((targeted.begun stored phase).still still)
  · exact turned (begun.answered honest) pursued rfl begun

end reverting

section converging
variable [Crc32c] {format : FormatMetadata} {inventory : ManagedInventory} {original image cut next : Storage}
  {first plan : RecoveryPlan} {point : Index} {state : RecoveryState}

-- Where the attempts stand between two of them: a plan for the first target, and the files behind its end perhaps shorter.
structure Underway (format : FormatMetadata) (original : Storage) (first : RecoveryPlan) (point : Index)
    (inventory : ManagedInventory) (plan : RecoveryPlan) (image : Storage) : Prop where
  targeted : Targeted format inventory image plan
  listed : Relisted format image.vlog.files image.vlog
  goal : plan.newState.goal = first.newState.goal
  identity : plan.databaseIdentity = first.databaseIdentity
  unwinds : Unwinds plan.undone image.index point
  backed : Backed original.vlog plan.durableFrontier first.newState.goal plan.descriptors
  reached : ReachedEnd original.vlog.files plan.durableFrontier.durableVlogEnd
  boundary : StableBoundary original.vlog plan.durableFrontier
  trims : ∀ state, Pursued plan state → state.trimRequired = false → first.needsTrim = false
  weathers : Weathers first.acceptedEnd original.vlog.files image.vlog.files
  only : ∀ fileId, Event.pendingCut image.trace fileId = true → ∃ accepted ∈ first.acceptedEnd, accepted.fileId = fileId
  synced : (∀ stored ∈ plan.recoveryState, stored.trimRequired = false) → image.AllSynced

theorem Targeted.underway (targeted : Targeted format inventory original first)
    (listed : Relisted format original.vlog.files original.vlog) (synced : original.AllSynced)
    (unwinds : Unwinds first.undone original.index point) :
    Underway format original first point inventory first original := by
  have lists := inspectFiles_lists targeted.inspected
  refine ⟨targeted,listed,rfl,rfl,unwinds,targeted.backed,
    ((RecoveryTopology.analyze_ok lists).mp targeted.situation.topology).1,targeted.situation.boundary,
    fun _ pursued => pursued.frozen.trims,.refl _ _,?_,fun _ => synced⟩
  intro fileId cut
  exact absurd cut (Event.pending_false.mp (synced fileId)).1

theorem Underway.target (underway : Underway format original first point inventory plan image) :
    plan.target = first.target := by
  have goal := underway.goal
  simp only [RecoveryPlan.newState,RecoveryState.goal,Accepted.mk.injEq] at goal
  rw [RecoveryPlan.target,goal.1,goal.2.1,goal.2.2]
  rfl

-- The analysis of an attempt finds the plan; what the script answers concerns the execution only.
theorem Targeted.attempted (targeted : Targeted format inventory image plan) (script : List Answer) :
    recoverUnder format script image = executeRecovery format plan {image with script} := by
  have inspects : Delivers (ManagedInventory.inspect format) image (fun found after => found = inventory ∧ after = image)
      (fun _ _ => False) := by
    refine delivers_bind.mpr ((delivers_reading_honest targeted.situation.honest).mpr ?_)
    rw [targeted.inspected]
    exact ⟨rfl,rfl⟩
  obtain ⟨_,_,found,rfl,rfl⟩ := inspects.returns
  simp only [recoverUnder,bind,EStateM.bind,found,targeted.analyzes]
  rfl

theorem Underway.attempts (underway : Underway format original first point inventory plan image) (script : List Answer) :
    Delivers (recoverUnder format script) image
      (fun recovered final => recovered.headSeq = plan.acceptedSeq ∧ recovered.durableFrontier = plan.target ∧
        Recovers format image.vlog.files plan point final.answering ∧ (script = [] → final.script = []) ∧
        Abandoned {image with script} plan point final ∧ Waits plan {image with script} final)
      (fun _ after => script ≠ [] ∧ Abandoned {image with script} plan point after ∧
        Waits plan {image with script} after) := by
  obtain ⟨targeted,listed,-,-,unwinds,-⟩ := underway
  rw [Delivers,targeted.attempted script]
  have answering : ({image with script} : Storage).answering = image := targeted.situation.honest.answering
  exact @Targeted.executes _ _ _ {image with script} _ _ (by rw [answering]; exact targeted) listed.registered
    listed.databaseUuid unwinds

-- From any such place an attempt that is not interrupted comes to the same end.
theorem Underway.recovers (underway : Underway format original first point inventory plan image) :
    ∃ recovered final, recoverUnder format [] image = .ok recovered final ∧ recovered.headSeq = first.acceptedSeq ∧
      recovered.durableFrontier = first.target ∧ AtTarget first point final ∧
      final.index.system[recoveryStateKey]? = none ∧
      ∀ fileId : Nat, final.vlog.files[fileId]? = acceptedContents original.vlog.files first.acceptedEnd fileId := by
  have run := (underway.attempts []).mono (fun _ _ ended => ended) (fun _ _ stopped => stopped.1 rfl)
  obtain ⟨recovered,final,ran,head,durable,recovers,answered,-⟩ := run.returns
  rw [Storage.Honest.answering (answered rfl)] at recovers
  obtain ⟨⟨honest,user,transaction,stored,identity⟩,idle,-,files⟩ := recovers
  have target := underway.target
  have seq : plan.acceptedSeq = first.acceptedSeq := congrArg DurableFrontier.durableSeq target
  have ends : plan.acceptedEnd = first.acceptedEnd := congrArg DurableFrontier.durableVlogEnd target
  rw [seq] at head stored
  rw [target] at durable stored
  rw [underway.identity] at identity
  refine ⟨recovered,final,ran,head,durable,⟨honest,user,transaction,stored,identity⟩,idle,fun fileId => ?_⟩
  rw [files,ends]
  exact underway.weathers.accepted fileId

-- What is stored, while a state is.
structure Midway (first : RecoveryPlan) (files : FileSet) (point : Index) (frontier : DurableFrontier) (headSeq : Nat)
    (descriptors : List TransactionDescriptor) (state : RecoveryState) (index : Index) : Prop where
  located : Located first.databaseIdentity frontier headSeq descriptors index
  backed : Backed files frontier first.newState.goal descriptors
  reached : ReachedEnd files.files frontier.durableVlogEnd
  boundary : StableBoundary files frontier
  inside : first.acceptedSeq ≤ headSeq
  stored : decodeRecoveryState index.system[recoveryStateKey]? = .ok (some state)
  frozen : Frozen {first with headSeq,durableFrontier := frontier} state
  unwinds : Unwinds (descriptors.drop (first.acceptedSeq - frontier.durableSeq)) index point

variable {frontier : DurableFrontier} {headSeq : Nat} {descriptors : List TransactionDescriptor}

-- A stored state is resumed, whatever is lost behind its target.
theorem Midway.underway (midway : Midway first original.vlog point frontier headSeq descriptors state next.index)
    (start : Targeted format inventory original first) (listed : Relisted format original.vlog.files original.vlog)
    (honest : next.Honest) (again : Relisted format next.vlog.files next.vlog)
    (weathers : Weathers first.acceptedEnd original.vlog.files next.vlog.files)
    (only : ∀ fileId, Event.pendingCut next.trace fileId = true → ∃ accepted ∈ first.acceptedEnd, accepted.fileId = fileId)
    (synced : state.trimRequired = false → next.AllSynced) :
    ∃ later plan, Underway format original first point later plan next := by
  obtain ⟨located,backed,reached,boundary,inside,stored,frozen,unwinds⟩ := midway
  have weathered : original.vlog.Weathered first.acceptedEnd next.vlog :=
    ⟨weathers,again.geometry.trans listed.geometry.symm,again.databaseUuid.trans listed.databaseUuid.symm,again.registered⟩
  obtain ⟨later,targeted⟩ := start.resumes honest weathered located backed reached boundary inside stored frozen
  have seq : state.targetSeq = first.acceptedSeq := congrArg Accepted.seq frozen.goal
  refine ⟨later,_,targeted,again,frozen.goal,rfl,?_,backed,reached,boundary,?_,weathers,only,
    fun quiet => synced (quiet state rfl)⟩
  · change Unwinds (descriptors.drop (state.targetSeq - frontier.durableSeq)) next.index point
    rw [seq]
    exact unwinds
  · intro other pursued
    obtain rfl := pursued.own state rfl
    exact frozen.trims

theorem Abandoned.between {start after : Storage} (short : Abandoned start plan point after) :
    Between plan.acceptedEnd start.vlog.files after.vlog.files := by
  cases short with
  | before still =>
    rw [still.vlog]
    exact .refl _
  | undoing _ _ vlog =>
    rw [vlog]
    exact .refl _
  | trimming _ _ files => exact files
  | finished _ files => exact fun fileId => .inr (files fileId)

-- Whatever the crash takes back or loses, nothing in front of the target is touched.
theorem CutOff.weathers {acceptedEnd : Option VLogPosition} (crashed : CutOff format original cut next)
    (weathers : Weathers acceptedEnd original.vlog.files cut.vlog.files) (ends : ∀ state,
      decodeRecoveryState cut.index.system[recoveryStateKey]? = .ok (some state) → state.targetVlogEnd = acceptedEnd) :
    Weathers acceptedEnd original.vlog.files next.vlog.files := by
  obtain ⟨restored,mixed,lost⟩ := crashed.files
  have kept := weathers.mixed (.refl acceptedEnd original.vlog.files) (fun fileId => (mixed fileId).imp_right And.right)
  rcases lost with same | ⟨state,stored,more⟩
  · rw [same]
    exact kept
  · rw [ends state stored] at more
    exact kept.trans more

-- And without a state, once everything is synced, nothing at all.
theorem CutOff.exact (crashed : CutOff format original cut next) (synced : cut.AllSynced)
    (idle : decodeRecoveryState cut.index.system[recoveryStateKey]? = .ok none) : next.vlog.files = cut.vlog.files := by
  obtain ⟨restored,mixed,lost⟩ := crashed.files
  rcases lost with same | ⟨state,stored,-⟩
  · rw [same]
    apply Std.ExtTreeMap.ext_getElem?
    intro fileId
    refine (mixed fileId).resolve_right ?_
    rintro ⟨pending,-⟩
    rw [synced fileId] at pending
    cases pending
  · rw [idle] at stored
    cases stored

-- Nothing waits where no trim is asked for any more.
theorem Underway.settles (underway : Underway format original first point inventory plan image) {start : Storage}
    (trace : start.trace = image.trace) (waits : Waits plan start cut)
    (quiet : ∀ stored ∈ plan.recoveryState, stored.trimRequired = false) (unasked : ∀ state,
      decodeRecoveryState cut.index.system[recoveryStateKey]? = .ok (some state) → state.trimRequired = false) :
    cut.AllSynced := by
  have ends : plan.acceptedEnd = first.acceptedEnd := congrArg DurableFrontier.durableVlogEnd underway.target
  have synced : start.AllSynced := (underway.synced quiet).moved trace
  cases waits with
  | calm calmed => exact synced.calmed calmed
  | trim stored required =>
    rw [unasked _ stored] at required
    cases required
  | flushed flushed =>
    rw [ends] at flushed
    refine flushed.synced ?_
    rw [trace]
    exact underway.only

theorem Arrived.located {left : Option RecoveryState} (arrived : Arrived plan point left cut)
    (fits : plan.acceptedSeq < 18446744073709551616) :
    Located plan.databaseIdentity plan.target plan.acceptedSeq [] cut.index := by
  obtain ⟨⟨-,-,-,stored,identity⟩,above,-⟩ := arrived
  exact ⟨identity,stored.frontierStored fits,⟨_,stored.head,decodeHeadSeq_encode fits⟩,Nat.le_refl _,above⟩

-- Where an interrupted execution has stored a state, or had one.
theorem Underway.midway (underway : Underway format original first point inventory plan image) {start : Storage}
    (answering : start.answering = image) (short : Abandoned start plan point cut) :
    (plan.recoveryState = none ∧ Still start cut) ∨
      (decodeRecoveryState cut.index.system[recoveryStateKey]? = .ok none ∧ Arrived plan point none cut ∧
        (∀ fileId : Nat, cut.vlog.files[fileId]? = acceptedContents image.vlog.files plan.acceptedEnd fileId) ∧
        ∀ stored ∈ plan.recoveryState, stored.trimRequired = true → Flushed plan.acceptedEnd start cut) ∨
      ∃ frontier headSeq descriptors state, Midway first original.vlog point frontier headSeq descriptors state cut.index ∧
        ∀ stored ∈ plan.recoveryState, stored.trimRequired = state.trimRequired := by
  subst answering
  have targeted := underway.targeted
  have goal := underway.goal
  have target := underway.target
  have identity := underway.identity
  have seq : plan.acceptedSeq = first.acceptedSeq := congrArg DurableFrontier.durableSeq target
  cases short with
  | before still =>
    cases stored : plan.recoveryState with
    | none => exact .inl ⟨rfl,still⟩
    | some state =>
      have pursued := targeted.pursued stored
      have frozen := pursued.frozen
      refine .inr (.inr ⟨plan.durableFrontier,plan.headSeq,plan.descriptors,state,?_,?_⟩)
      · have located := targeted.situation.located
        have index : start.answering.index = cut.index := still.index.symm
        have decoded := targeted.stored
        have unwinds := underway.unwinds
        rw [index] at located decoded unwinds
        rw [identity] at located
        rw [stored] at decoded
        rw [RecoveryPlan.undone,seq] at unwinds
        refine ⟨located,underway.backed,underway.reached,underway.boundary,by rw [←seq]; exact targeted.inside,decoded,?_,
          unwinds⟩
        refine ⟨frozen.goal.trans goal,frozen.valid,frozen.fits,frozen.next,fun later => ?_,underway.trims state pursued⟩
        obtain ⟨head,same⟩ := frozen.rests later
        exact ⟨head.trans seq,same.trans target⟩
      · exact fun _ same => congrArg RecoveryState.trimRequired (Option.some.inj same).symm
  | @undoing state pursued phase vlog stage =>
    obtain ⟨left,bound,unwound,unwinds⟩ := stage
    have frozen := pursued.frozen
    have low := targeted.low
    have same : state.targetSeq = plan.acceptedSeq := congrArg Accepted.seq frozen.goal
    obtain ⟨encoded,encodes,stored⟩ := unwound.progress
    refine .inr (.inr ⟨plan.durableFrontier,state.targetSeq + left,_,{state with nextUndoSeq := state.targetSeq + left},
      ⟨⟨?_,?_,unwound.head,?_,unwound.described⟩,underway.backed.shortened ?_,underway.reached,underway.boundary,?_,?_,
        ⟨frozen.goal.trans goal,?_,frozen.fits,fun _ => rfl,fun later => absurd phase later,
          underway.trims state pursued⟩,?_⟩,
      fun stored member => by rw [pursued.own stored member]⟩)
    · rw [←identity]
      exact (unwound.others _ (by decide) (by decide)).trans targeted.situation.identified
    · obtain ⟨bytes,durable,decoded⟩ := targeted.situation.durable
      exact ⟨bytes,(unwound.others _ (by decide) (by decide)).trans durable,decoded⟩
    · omega
    · simp only [RecoveryPlan.newState,RecoveryState.goal]
      omega
    · omega
    · rw [show cut.index.system[recoveryStateKey]? = some encoded from stored]
      exact decodeRecoveryState_stored encodes frozen.fits
    · simp only [RecoveryState.encode,bind_ok,exists_unit,mapError_ok] at encodes
      exact encodes.1
    · rw [RecoveryPlan.undone,seq] at unwinds
      rw [same,seq,List.drop_take,show first.acceptedSeq + left - plan.durableFrontier.durableSeq -
        (first.acceptedSeq - plan.durableFrontier.durableSeq) = left by omega]
      exact unwinds
  | @trimming state pursued arrived files =>
    have frozen := pursued.frozen
    have located := arrived.located targeted.fits
    rw [identity,target,seq] at located
    refine .inr (.inr ⟨first.target,first.acceptedSeq,[],state.afterUndo,
      ⟨located,underway.backed.arrived,underway.backed.reaches.reached,underway.backed.reaches.boundary,Nat.le_refl _,
        arrived.left,⟨frozen.goal.trans goal,frozen.afterUndo_valid,frozen.fits,?_,fun _ => ⟨rfl,rfl⟩,
          underway.trims state pursued⟩,?_⟩,
      fun stored member => by rw [pursued.own stored member]; rfl⟩)
    · intro phase
      simp only [RecoveryState.afterUndo] at phase
      split at phase <;> cases phase
    · rw [List.drop_nil]
      exact .nil arrived.target.user.symm arrived.target.transaction.symm
  | finished arrived files flushed => exact .inr (.inl ⟨arrived.left,arrived,files,flushed⟩)

-- Behind the target, and with nothing stored any more, the next analysis finds nothing left to do.
theorem Underway.done (underway : Underway format original first point inventory plan image)
    {found : ManagedInventory} (start : Targeted format found original first)
    (listed : Relisted format original.vlog.files original.vlog)
    (arrived : Arrived plan point none cut) (crashed : CutOff format original cut next)
    (weathers : Weathers first.acceptedEnd original.vlog.files next.vlog.files) (synced : next.AllSynced)
    (files : ∀ fileId : Nat, next.vlog.files[fileId]? = acceptedContents original.vlog.files first.acceptedEnd fileId) :
    ∃ later plan, Underway format original first point later plan next := by
  have target := underway.target
  have seq : plan.acceptedSeq = first.acceptedSeq := congrArg DurableFrontier.durableSeq target
  have geometry := start.situation.geometry
  have located := arrived.located underway.targeted.fits
  rw [underway.identity,target,seq,←crashed.index] at located
  obtain ⟨later,inspected⟩ := inspectFiles_inspectable.mpr
    (weathers.inspectable (inspectFiles_inspectable.mp ⟨_,start.inspected⟩))
  have lists := inspectFiles_lists inspected
  have nothing := noSuffix_exact lists (fun fileId => (files fileId).trans (weathers.accepted fileId).symm)
  have backed := start.backed.arrived
  have here := backed.weathered geometry ⟨weathers,crashed.listed.geometry.trans listed.geometry.symm,
    crashed.listed.databaseUuid.trans listed.databaseUuid.symm,crashed.listed.registered⟩
  have idle : decodeRecoveryState next.index.system[recoveryStateKey]? = .ok none := by
    rw [crashed.index]
    exact arrived.left
  have user : point.user = next.index.user := by
    rw [crashed.index]
    exact arrived.target.user.symm
  have transaction : point.transaction = next.index.transaction := by
    rw [crashed.index]
    exact arrived.target.transaction.symm
  refine ⟨later,plannedRecovery first.databaseIdentity first.target first.acceptedSeq first.newState.goal [] none later
    (listedTopology later),⟨located.situation crashed.honest start.situation.valid crashed.listed.geometry lists
      here.reaches.reached here.reaches.boundary,inspected,idle,here,Nat.le_refl _,?_,fun _ no => by cases no⟩,
    crashed.listed,rfl,rfl,?_,backed,backed.reaches.reached,backed.reaches.boundary,?_,weathers,?_,fun _ => synced⟩
  · refine fun _ => ⟨rfl,fun descriptor none => ?_⟩
    simp [RecoveryPlan.undone,plannedRecovery] at none
  · simp only [RecoveryPlan.undone,plannedRecovery,List.drop_nil]
    exact .nil user transaction
  · intro state pursued
    rcases pursued.needed rfl with undo | trim
    · exact absurd (of_decide_eq_true undo) (Nat.lt_irrefl first.acceptedSeq)
    · exact absurd (nothing.symm.trans trim) (by decide)
  · exact fun fileId cut => absurd cut (Event.pending_false.mp (synced fileId)).1

-- An attempt that is cut off leaves a place to go on from.
theorem Underway.cutOff (underway : Underway format original first point inventory plan image)
    {found : ManagedInventory} (start : Targeted format found original first)
    (listed : Relisted format original.vlog.files original.vlog) {script : List Answer}
    (short : Abandoned {image with script} plan point cut) (waits : Waits plan {image with script} cut)
    (cuts : CutsOnly plan.acceptedEnd {image with script} cut) (crashed : CutOff format original cut next) :
    ∃ later plan, Underway format original first point later plan next := by
  have targeted := underway.targeted
  have ends : plan.acceptedEnd = first.acceptedEnd := congrArg DurableFrontier.durableVlogEnd underway.target
  have kept := short.between.weathers
  rw [ends] at kept
  have kept := underway.weathers.trans kept
  have only : ∀ fileId, Event.pendingCut next.trace fileId = true →
      ∃ accepted ∈ first.acceptedEnd, accepted.fileId = fileId := by
    intro fileId held
    rw [crashed.trace] at held
    rw [←ends]
    refine (cuts fileId held).elim (fun earlier => ?_) id
    rw [ends]
    exact underway.only fileId earlier
  have answering : ({image with script} : Storage).answering = image := targeted.situation.honest.answering
  have trace : ({image with script} : Storage).trace = image.trace := rfl
  rcases underway.midway answering short with
    ⟨unresumed,still⟩ | ⟨idle,arrived,files,flushed⟩ | ⟨frontier,headSeq,descriptors,state,midway,same⟩
  · -- Nothing was stored yet, and nothing has changed.
    have idle : decodeRecoveryState cut.index.system[recoveryStateKey]? = .ok none := by
      rw [still.index,←unresumed]
      exact targeted.stored
    have synced := underway.settles trace waits (by rw [unresumed]; exact fun _ no => by cases no)
      (fun _ stored => by rw [idle] at stored; cases stored)
    have files : next.vlog.files = image.vlog.files := by rw [crashed.exact synced idle,still.vlog]
    have again := crashed.listed
    rw [files] at again
    have vlog := again.unique underway.listed
    have index : next.index = image.index := crashed.index.trans still.index
    refine ⟨inventory,plan,targeted.moved crashed.honest index vlog,crashed.listed,underway.goal,underway.identity,?_,
      underway.backed,underway.reached,underway.boundary,underway.trims,?_,only,fun _ => synced.moved crashed.trace⟩
    · rw [index]
      exact underway.unwinds
    · rw [files]
      exact underway.weathers
  · have weathers := crashed.weathers kept (fun _ stored => by rw [idle] at stored; cases stored)
    have synced : cut.AllSynced := by
      by_cases quiet : ∀ stored ∈ plan.recoveryState, stored.trimRequired = false
      · exact underway.settles trace waits quiet (fun _ stored => by rw [idle] at stored; cases stored)
      · simp only [not_forall,Bool.not_eq_false] at quiet
        obtain ⟨stored,member,required⟩ := quiet
        refine (flushed stored member required).synced ?_
        rw [ends]
        exact underway.only
    refine underway.done start listed arrived crashed weathers (synced.moved crashed.trace) (fun fileId => ?_)
    rw [crashed.exact synced idle,files,ends]
    exact underway.weathers.accepted fileId
  · have weathers := crashed.weathers kept (fun _ stored => by
      rw [midway.stored] at stored
      obtain rfl := Option.some.inj (Except.ok.inj stored)
      exact congrArg Accepted.vlogEnd midway.frozen.goal)
    have synced : state.trimRequired = false → next.AllSynced := by
      intro uncut
      refine (underway.settles trace waits (fun stored member => (same stored member).trans uncut) ?_).moved crashed.trace
      intro _ stored
      rw [midway.stored] at stored
      obtain rfl := Option.some.inj (Except.ok.inj stored)
      exact uncut
    rw [←crashed.index] at midway
    exact midway.underway start listed crashed.honest crashed.listed weathers only synced

-- However many attempts were cut off, and wherever.
theorem Reattempted.underway (reattempted : Reattempted format original image)
    (start : Underway format original first point inventory first original) :
    ∃ later plan, Underway format original first point later plan image := by
  induction reattempted with
  | start => exact ⟨inventory,first,start⟩
  | @stopped image cut next script error _ ran crashed ih =>
    obtain ⟨later,plan,underway⟩ := ih
    obtain ⟨-,short,waits⟩ := (underway.attempts script).of_error ran
    rw [underway.targeted.attempted script] at ran
    have cuts := (executeRecovery_cutsOnly format plan _).of_error ran
    exact underway.cutOff start.targeted start.listed short waits cuts crashed
  | @ended image cut next script recovered _ ran crashed ih =>
    obtain ⟨later,plan,underway⟩ := ih
    obtain ⟨-,-,-,-,short,waits⟩ := (underway.attempts script).of_ok ran
    rw [underway.targeted.attempted script] at ran
    have cuts := (executeRecovery_cutsOnly format plan _).of_ok ran
    exact underway.cutOff start.targeted start.listed short waits cuts crashed

-- An image that recovery accepts is where the attempts begin.
theorem recoverUnder_underway {recovered : RecoveredState} {final : Storage} (honest : original.Honest)
    (listed : Relisted format original.vlog.files original.vlog) (synced : original.AllSynced)
    (accepted : recoverUnder format [] original = .ok recovered final) :
    ∃ inventory first point, Underway format original first point inventory first original := by
  have run : Delivers (recoverUnder format []) original (fun _ _ => ∃ inventory plan,
      inspectFiles format original.vlog.files = .ok inventory ∧
      ∃ reached, analyzeRecovery format inventory original = .ok plan reached) (fun _ _ => True) := by
    unfold recoverUnder ManagedInventory.inspect
    rw [bind_assoc,delivers_bind,delivers_reading_honest honest]
    refine delivers_bind.mpr (delivers_lift.mpr ⟨fun inventory inspected => ?_,fun _ _ => trivial⟩)
    refine (Delivers.self (analyzeRecovery format inventory) original).bind ?_ (fun _ _ _ => trivial)
    intro plan reached analyzed
    refine delivers_bind.mpr ((delivers_modify _).mpr ?_)
    exact (Delivers.self _ _).mono (fun _ _ _ => ⟨inventory,plan,inspected,reached,analyzed⟩) (fun _ _ _ => trivial)
  obtain ⟨inventory,first,inspected,reached,analyzed⟩ := run.of_ok accepted
  have targeted := (analyzeRecovery_targeted honest inspected analyzed).1
  have answering : original.answering = original := honest.answering
  rw [targeted.attempted [],show ({original with script := []} : Storage) = original from answering] at accepted
  have reverted := @Targeted.reverted _ format inventory original first (by rw [answering]; exact targeted) honest
    listed.registered listed.databaseUuid
  obtain ⟨point,unwinds⟩ := reverted.of_ok accepted
  exact ⟨inventory,first,point,targeted.underway listed synced unwinds⟩

-- However often recovery was interrupted, whatever the crashes took back or lost behind the target of a stored state: an
-- attempt that is left to finish succeeds, and ends where one uninterrupted recovery of the first image does.
theorem recovery_converges {recovered : RecoveredState} {final : Storage} (honest : original.Honest)
    (listed : Relisted format original.vlog.files original.vlog) (synced : original.AllSynced)
    (accepted : recoverUnder format [] original = .ok recovered final) (reattempted : Reattempted format original image) :
    ∃ again last, recoverUnder format [] image = .ok again last ∧ again.headSeq = recovered.headSeq ∧
      again.durableFrontier = recovered.durableFrontier ∧ last.index.user = final.index.user ∧
      last.index.transaction = final.index.transaction ∧
      (∀ key ∈ [headSeqKey,durableFrontierKey,recoveryStateKey], last.index.system[key]? = final.index.system[key]?) ∧
      last.vlog.files = final.vlog.files := by
  obtain ⟨inventory,first,point,start⟩ := recoverUnder_underway honest listed synced accepted
  obtain ⟨later,plan,underway⟩ := reattempted.underway start
  obtain ⟨_,_,same,head,durable,target,idle,files⟩ := start.recovers
  obtain ⟨rfl,rfl⟩ := EStateM.Result.ok.inj (accepted.symm.trans same)
  obtain ⟨again,last,ran,againHead,againDurable,againTarget,againIdle,againFiles⟩ := underway.recovers
  refine ⟨again,last,ran,againHead.trans head.symm,againDurable.trans durable.symm,
    againTarget.user.trans target.user.symm,againTarget.transaction.trans target.transaction.symm,?_,?_⟩
  · have frontiers : last.index.system[durableFrontierKey]? = final.index.system[durableFrontierKey]? := by
      obtain ⟨encoded,encodes,found⟩ := target.stored.frontier
      obtain ⟨other,again,there⟩ := againTarget.stored.frontier
      obtain rfl := Except.ok.inj (encodes.symm.trans again)
      exact there.trans found.symm
    simp only [List.forall_mem_cons,List.not_mem_nil,false_implies,implies_true,and_true]
    exact ⟨againTarget.stored.head.trans target.stored.head.symm,frontiers,againIdle.trans idle.symm⟩
  · apply Std.ExtTreeMap.ext_getElem?
    intro fileId
    rw [files,againFiles]

end converging

-- The image with a transaction to take back and a tail to cut off, and one attempt before, wherever it stopped.
theorem recovery_converges_cut : ∃ begun moment c recovered final, Puts false begun moment c ∧
    @recoverUnder castagnoli (currentFormat oneUuid) [] (c.log.storage.cut 600) = .ok recovered final ∧
    recovered.headSeq = 2 ∧ ∀ script, ∃ cut,
      ((∃ error, @recoverUnder castagnoli (currentFormat oneUuid) script (c.log.storage.cut 600) = .error error cut) ∨
        ∃ early, @recoverUnder castagnoli (currentFormat oneUuid) script (c.log.storage.cut 600) = .ok early cut) ∧
      ∃ again last, @recoverUnder castagnoli (currentFormat oneUuid) [] (cut.restarted oneUuid) = .ok again last ∧
        again.headSeq = recovered.headSeq ∧ again.durableFrontier = recovered.durableFrontier ∧
        last.index.user = final.index.user ∧ last.index.transaction = final.index.transaction ∧
        (∀ key ∈ [headSeqKey,durableFrontierKey,recoveryStateKey],
          last.index.system[key]? = final.index.system[key]?) ∧ last.vlog.files = final.vlog.files := by
  obtain ⟨begun,moment,c,answered⟩ := puts false
  obtain ⟨inventory,base,last,chain,torn,listed,history,user,transaction,below,only⟩ := answered.torn
  obtain ⟨plan,analyzed,executes⟩ := @TornImage.recovers castagnoli _ _ _ _ _ _ _ _ torn listed.registered
    listed.databaseUuid history user transaction (fun _ => below)
  obtain ⟨recovered,final,ran,count,head,salvaged⟩ := executes.returns
  obtain rfl := only count _ final salvaged
  have honest := @TornImage.honest castagnoli _ _ _ _ _ _ torn
  have targeted := (@analyzeRecovery_targeted castagnoli _ _ _ _ _ honest
    (@TornImage.inspected castagnoli _ _ _ _ _ _ torn) analyzed).1
  have accepted := @Targeted.attempted castagnoli _ _ _ _ targeted []
  rw [show ({c.log.storage.cut 600 with script := []} : Storage) = c.log.storage.cut 600 from rfl,ran] at accepted
  refine ⟨begun,moment,c,recovered,final,answered,accepted,?_,fun script => ?_⟩
  · rw [head,@Salvaged.seq castagnoli _ _ _ _ _ _ _ _ salvaged]
  · cases attempted : @recoverUnder castagnoli (currentFormat oneUuid) script (c.log.storage.cut 600) with
    | ok early cut =>
      exact ⟨cut,.inr ⟨early,rfl⟩,@recovery_converges castagnoli _ _ _ _ _ honest listed (fun _ => rfl) accepted
        (@Reattempted.ended castagnoli _ _ _ _ _ _ _ (@Reattempted.start castagnoli _ _) attempted
          (@CutOff.restarted castagnoli _ _ _))⟩
    | error error cut =>
      exact ⟨cut,.inl ⟨error,rfl⟩,@recovery_converges castagnoli _ _ _ _ _ honest listed (fun _ => rfl) accepted
        (@Reattempted.stopped castagnoli _ _ _ _ _ _ _ (@Reattempted.start castagnoli _ _) attempted
          (@CutOff.restarted castagnoli _ _ _))⟩

end ExpirKv
