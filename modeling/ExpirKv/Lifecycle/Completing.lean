import ExpirKv.Lifecycle.CleanOpen
import ExpirKv.Recovery.Flushing
import ExpirKv.Recovery.Planned

namespace ExpirKv
open VLogGeometry Storage

section syncing
variable [Crc32c] {storage now : Storage} {plan : RecoveryPlan} {inventory : ManagedInventory}

omit [Crc32c] in
theorem syncAcceptedFile_harmless {fileId : Nat} {contents : Bytes} (registered : Registered storage)
    (found : storage.vlog.files[fileId]? = some contents) :
    Harmless (ValueLogRecovery.syncAcceptedFile fileId) storage (fun _ => True) := by
  refine (openWritable_harmless found).mapError.bind (.refl storage) ?_ (fun _ _ some still => ⟨some,still⟩)
  intro _ opened _ still
  have listed : fileId ∈ opened.vlog.catalog := by
    rw [still.vlog]
    exact (registered fileId).mpr ⟨contents,found⟩
  refine (verify_harmless listed).mapError.bind still ?_ (fun _ _ some still => ⟨some,still⟩)
  intro _ verified _ still
  refine (syncFile_harmless fileId).mapError.mono ?_ ?_
  · exact fun _ _ kept => ⟨trivial,still.trans kept.2⟩
  · exact fun _ _ stopped => ⟨fun none => stopped.1 (still.answered none),still.trans stopped.2⟩

omit [Crc32c] in
-- All the files of a range that the files reach are there to be synced.
theorem syncAcceptedRange_harmless {durableEnd : Option VLogPosition} {accepted : VLogPosition} (registered : Registered storage)
    (geometry : storage.vlog.geometry = production) (after : durableEndStrictlyAfter (some accepted) durableEnd = true)
    (reached : ReachedEnd storage.vlog.files (some accepted)) (begun : 0 < accepted.offset) :
    Harmless (ValueLogRecovery.syncAcceptedRange durableEnd (some accepted)) storage (fun _ => True) := by
  have apart : ¬durableEnd = some accepted := by
    rintro rfl
    exact VLogPosition.lt_irrefl accepted (of_decide_eq_true after)
  have behind : durableEnd.any (fun durable => decide (accepted ≤ durable)) = false := by
    cases durableEnd with
    | none => rfl
    | some durable =>
      have later : durable < accepted := of_decide_eq_true after
      exact decide_eq_false (fun no => VLogPosition.lt_irrefl durable (VLogPosition.lt_of_lt_of_le later no))
  obtain ⟨named,inside,lower,contents,there,-⟩ := reached
  unfold ValueLogRecovery.syncAcceptedRange
  rw [if_neg apart]
  refine delivers_bind.mpr (delivers_lift.mpr ⟨?_,fun _ no => by cases no⟩)
  intro position same
  obtain rfl := Except.ok.inj same
  refine delivers_bind.mpr (delivers_get.mpr (delivers_bind.mpr (delivers_lift.mpr ⟨?_,?_⟩)))
  · intro _ _
    refine (harmless_forM ?_).bind (.refl storage) ?_ (fun _ _ some still => ⟨some,still⟩)
    · intro fileId member reached still
      obtain ⟨first,upper⟩ := List.mem_range'_1.mp member
      have present : ∃ contents, reached.vlog.files[fileId]? = some contents := by
        rw [still.vlog]
        by_cases last : fileId = accepted.fileId
        · exact ⟨contents,by rw [last]; exact there⟩
        · obtain ⟨whole,found,-⟩ := lower fileId (by omega)
          exact ⟨whole,found⟩
      obtain ⟨contents,found⟩ := present
      exact syncAcceptedFile_harmless (by intro other; rw [still.vlog]; exact registered other) found
    · intro _ reached _ still
      split
      · refine syncDirectory_harmless.mapError.mono ?_ ?_
        · exact fun _ _ kept => ⟨trivial,still.trans kept.2⟩
        · exact fun _ _ stopped => ⟨fun none => stopped.1 (still.answered none),still.trans stopped.2⟩
      · exact (delivers_pure _).mpr ⟨trivial,still⟩
  · intro _ no
    rw [rejectIf_false] at no
    · cases no
    · simp only [behind,geometry,maxVlogFileId,maxVlogFileSize,not_or]
      exact ⟨by simp,by omega,by omega,by omega⟩

theorem syncNewAcceptedVlog_harmless (registered : Registered storage) (geometry : storage.vlog.geometry = production)
    (ordered : plan.durableFrontier.durableVlogSeq ≤ plan.durableFrontier.durableSeq)
    (ext : Extends storage.vlog plan.durableFrontier plan.newState.goal) :
    Harmless (syncNewAcceptedVlog plan) storage (fun _ => True) := by
  unfold syncNewAcceptedVlog
  have room := ext.boundary.room geometry
  have reached := ext.reached
  rcases ext.moved with ⟨same,ends⟩ | ⟨further,after⟩
  · simp only [RecoveryState.goal,RecoveryPlan.newState] at same ends
    rw [if_pos same,rejectIf_false (fun no => no ends)]
    exact (delivers_pure _).mpr ⟨trivial,.refl storage⟩
  · simp only [RecoveryState.goal,RecoveryPlan.newState] at further after room reached
    rw [if_neg (by omega),rejectIf_false (by omega)]
    cases ends : plan.acceptedEnd with
    | none =>
      rw [ends] at after
      cases after
    | some accepted =>
      rw [ends] at after reached
      have begun := (room accepted ends).1
      exact syncAcceptedRange_harmless registered geometry after reached (by omega)

end syncing

section boundary
variable [Crc32c] {files : FileSet} {accepted : Accepted} {plan : RecoveryPlan} {storage now : Storage}
  {format : FormatMetadata} {inventory : ManagedInventory} {topology : RecoveryTopology}

-- The last envelope of an accepted prefix is one of its descriptors, or the one before the prefix.
theorem AcceptsAll.lastEnvelope {taken : List TransactionDescriptor} (accepts : AcceptsAll files accepted taken)
    (numbered : ∀ index (bound : index < taken.length), (taken[index]).txMeta.commitSeq = accepted.seq + 1 + index) :
    ((taken.foldl Accepted.take accepted).vlogSeq = accepted.vlogSeq ∧
        (taken.foldl Accepted.take accepted).vlogEnd = accepted.vlogEnd) ∨
      ∃ index, ∃ bound : index < taken.length, (taken.foldl Accepted.take accepted).vlogSeq = accepted.seq + 1 + index ∧
        (taken[index]).txMeta.transactionKind = .vlogEnvelope ∧
        some (taken[index]).txMeta.vlogEnd = (taken.foldl Accepted.take accepted).vlogEnd ∧
        readAndValidateEnvelope files taken[index] = .ok () := by
  induction taken generalizing accepted with
  | nil => exact .inl ⟨rfl,rfl⟩
  | cons first rest ih =>
    have number : first.txMeta.commitSeq = accepted.seq + 1 := numbered 0 (by simp)
    have seq : (accepted.take first).seq = accepted.seq + 1 := by
      unfold Accepted.take
      cases first.txMeta.transactionKind <;> exact number
    have later : ∀ index (bound : index < rest.length),
        (rest[index]).txMeta.commitSeq = (accepted.take first).seq + 1 + index := by
      intro index bound
      have next := numbered (index + 1) (by simpa using bound)
      rw [List.getElem_cons_succ] at next
      omega
    rw [List.foldl_cons]
    rcases ih accepts.2 later with ⟨sameSeq,sameEnd⟩ | ⟨index,bound,last,kind,ends,read⟩
    · rw [sameSeq,sameEnd]
      cases kind : first.txMeta.transactionKind with
      | indexOnlyDelete => exact .inl (by simp [Accepted.take,kind])
      | vlogEnvelope =>
        refine .inr ⟨0,by simp,?_,kind,?_,(accepts.1 kind).2⟩
        · simp [Accepted.take,kind,number]
        · simp [Accepted.take,kind]
    · refine .inr ⟨index + 1,by simpa using bound,?_,kind,ends,read⟩
      rw [last,seq]
      omega

-- Whatever the plan accepted is confirmed once more before it is stored.
theorem Targeted.confirms (targeted : Targeted format inventory storage plan) (honest : now.Honest)
    (vlog : now.vlog = storage.vlog) :
    Delivers (validateAcceptedBoundary plan) now (fun _ after => after = now) (fun _ _ => False) := by
  have described := targeted.situation.described
  have bounds := targeted.situation.bounds
  have inside := targeted.inside
  have length := described.length
  obtain ⟨accepts,folds,reaches⟩ := targeted.backed
  have low : plan.durableFrontier.durableSeq ≤ plan.acceptedSeq := reaches.ordered.1
  unfold validateAcceptedBoundary
  rcases reaches.moved with ⟨same,ends⟩ | ⟨further,-⟩
  · simp only [RecoveryState.goal,RecoveryPlan.newState] at same ends
    rw [if_pos same,rejectIf_false (fun no => no ends)]
    refine delivers_bind.mpr (delivers_lift.mpr ⟨fun _ _ => ?_,fun _ no => by cases no⟩)
    have boundary : StableBoundary now.vlog plan.target := by
      rw [vlog]
      exact reaches.boundary
    exact validateStableBoundary_honest honest (fun _ => rfl) (fun _ no => no boundary)
  · simp only [RecoveryState.goal,RecoveryPlan.newState] at further
    rw [if_neg (by omega)]
    have numbered : ∀ index (bound : index < (plan.descriptors.take
        (plan.newState.goal.seq - plan.durableFrontier.durableSeq)).length),
        ((plan.descriptors.take (plan.newState.goal.seq - plan.durableFrontier.durableSeq))[index]).txMeta.commitSeq =
          (Accepted.start plan.durableFrontier).seq + 1 + index := by
      intro index bound
      rw [List.length_take] at bound
      rw [List.getElem_take]
      exact described.numbered index (by omega)
    rcases accepts.lastEnvelope numbered with ⟨same,-⟩ | ⟨index,bound,last,kind,ends,read⟩
    · rw [folds] at same
      simp only [RecoveryState.goal,RecoveryPlan.newState,Accepted.start] at same
      omega
    · rw [List.length_take] at bound
      rw [List.getElem_take] at kind ends read
      rw [folds] at last ends
      have seq : plan.acceptedVlogSeq = plan.durableFrontier.durableSeq + 1 + index := last
      have inside : index < plan.descriptors.length := by omega
      have place : plan.descriptors[plan.acceptedVlogSeq - plan.durableFrontier.durableSeq - 1]? =
          some plan.descriptors[index] := by
        rw [show plan.acceptedVlogSeq - plan.durableFrontier.durableSeq - 1 = index by omega]
        exact List.getElem?_eq_getElem inside
      have found : acceptedDescriptor plan = .ok plan.descriptors[index] := by
        have number := described.numbered index inside
        rw [acceptedDescriptor,rejectIf_false (by omega),ok_bind,place]
        refine bind_ok.mpr ⟨_,rfl,bind_ok.mpr ⟨(),rejectIf_ok.mpr ?_,rfl⟩⟩
        simp only [not_or,not_not,ne_eq]
        exact ⟨by omega,kind,ends⟩
      rw [found]
      refine delivers_bind.mpr (delivers_lift.mpr ⟨?_,fun _ no => by cases no⟩)
      intro descriptor same
      obtain rfl := Except.ok.inj same
      refine (readingVlog_honest honest).mpr ⟨fun _ _ => rfl,?_⟩
      intro error refused
      rw [vlog,read] at refused
      cases refused

end boundary

section settling
variable [Crc32c] {format : FormatMetadata} {inventory : ManagedInventory} {storage : Storage} {files : FileSet}
  {frontier : DurableFrontier} {acceptedEnd : Option VLogPosition}

theorem settled_noSuffix (registered : Registered storage) (geometry : storage.vlog.geometry = production)
    (databaseUuid : storage.vlog.databaseUuid = format.databaseUuid)
    (inspected : inspectFiles format storage.vlog.files = .ok inventory) (stands : StandsIn acceptedEnd storage.vlog.files)
    (suffix : RecoveryTopology.hasSuffixAfter inventory acceptedEnd = false) : Settled format acceptedEnd storage :=
  ⟨registered,geometry,databaseUuid,inspectFiles_inspectable.mp ⟨inventory,inspected⟩,stands,
    acceptedContents_noSuffix (inspectFiles_lists inspected) suffix⟩

end settling

section executing
variable [Crc32c] {format : FormatMetadata} {inventory : ManagedInventory} {start now after : Storage} {plan : RecoveryPlan}
  {point : Index} {state : RecoveryState} {left : Option RecoveryState}

theorem Targeted.fits (targeted : Targeted format inventory start plan) : plan.acceptedSeq < 18446744073709551616 := by
  have bounds := targeted.situation.bounds
  have inside := targeted.inside
  omega

theorem Targeted.low (targeted : Targeted format inventory start plan) :
    plan.durableFrontier.durableSeq ≤ plan.acceptedSeq := targeted.backed.reaches.ordered.1

theorem Targeted.identified (targeted : Targeted format inventory start plan) :
    start.index.system[databaseIdentityKey]? ≠ none := by
  rw [targeted.situation.identified]
  simp

theorem Targeted.target_valid (targeted : Targeted format inventory start plan) : plan.target.validate = .ok () :=
  DurableFrontier.validate_ok.mpr ⟨targeted.backed.reaches.ordered.2,targeted.backed.reaches.matched⟩

-- The state that a first plan stores goes with it.
theorem Targeted.freezes (targeted : Targeted format inventory start plan) : Frozen plan plan.newState :=
  ⟨rfl,RecoveryState.validate_ok.mpr ⟨⟨targeted.backed.reaches.ordered.2,targeted.inside,Nat.le_refl _⟩,
    targeted.backed.reaches.matched,rfl⟩,targeted.situation.bounds.2.1,fun _ => rfl,fun later => absurd rfl later,id⟩

-- A state that an execution of the plan pursues: the stored one, or a new one where there is something to do.
structure Pursued (plan : RecoveryPlan) (state : RecoveryState) : Prop where
  frozen : Frozen plan state
  own : ∀ first ∈ plan.recoveryState, first = state
  needed : plan.recoveryState = none → plan.needsUndo = true ∨ plan.needsTrim = true

theorem Targeted.pursues (targeted : Targeted format inventory start plan) (unresumed : plan.recoveryState = none)
    (needed : plan.needsUndo = true ∨ plan.needsTrim = true) : Pursued plan plan.newState := by
  refine ⟨targeted.freezes,?_,fun _ => needed⟩
  rw [unresumed]
  exact fun _ no => by cases no

theorem Targeted.pursued (targeted : Targeted format inventory start plan) (stored : plan.recoveryState = some state) :
    Pursued plan state := by
  refine ⟨(targeted.resumed state stored).2,?_,?_⟩ <;> rw [stored]
  · exact fun _ same => (Option.some.inj same).symm
  · exact fun no => by cases no

omit [Crc32c] in
theorem Frozen.afterUndo_valid (frozen : Frozen plan state) : state.afterUndo.validate = .ok () := by
  obtain ⟨⟨vlogSeq,next,head⟩,matched,-⟩ := RecoveryState.validate_ok.mp frozen.valid
  refine RecoveryState.validate_ok.mpr ⟨⟨vlogSeq,Nat.le_refl _,next.trans head⟩,matched,?_⟩
  cases trim : state.trimRequired <;> simp [RecoveryState.phaseMatches,RecoveryState.afterUndo,trim]

omit [Crc32c] in
theorem Frozen.afterUndo_phase (frozen : Frozen plan state) (later : state.phase ≠ .undo) : state.afterUndo = state := by
  obtain ⟨-,-,phases⟩ := RecoveryState.validate_ok.mp frozen.valid
  obtain ⟨phase,originalHead,targetSeq,targetVlogSeq,targetVlogEnd,nextUndoSeq,trimRequired⟩ := state
  unfold RecoveryState.phaseMatches at phases
  cases phase with
  | undo => exact absurd rfl later
  | trim | finalize =>
    simp only [Bool.and_eq_true,beq_iff_eq,Bool.not_eq_true'] at phases
    simp [RecoveryState.afterUndo,phases]

-- Where the undo begins: a state is stored, and nothing has been taken back.
structure UndoBegun (start : Storage) (plan : RecoveryPlan) (state : RecoveryState) (now : Storage) : Prop where
  unwound : Unwound start.answering plan.durableFrontier.durableSeq plan.descriptors state now.answering
  user : now.index.user = start.index.user
  transaction : now.index.transaction = start.index.transaction
  vlog : now.vlog = start.vlog
  answered : start.script = [] → now.script = []

theorem UndoBegun.still (begun : UndoBegun start plan state now) (still : Still now after) :
    UndoBegun start plan state after :=
  ⟨begun.unwound.moved still.index still.vlog,by rw [still.index,begun.user],by rw [still.index,begun.transaction],
    still.vlog.trans begun.vlog,fun none => still.answered (begun.answered none)⟩

-- A state that is stored already is where its undo begins.
theorem Targeted.begun (targeted : Targeted format inventory start.answering plan) (stored : plan.recoveryState = some state)
    (phase : state.phase = .undo) : UndoBegun start plan state start := by
  obtain ⟨-,frozen⟩ := targeted.resumed state stored
  have next := frozen.next phase
  have situation := targeted.situation
  have described := situation.described
  have decoded := targeted.stored
  rw [stored] at decoded
  obtain ⟨encoded,found,read⟩ := decodeRecoveryState_some decoded
  refine ⟨⟨rfl,rfl,?_,⟨encoded,(RecoveryState.decode_canonical read).1,found⟩,fun _ _ _ => rfl,?_⟩,rfl,rfl,rfl,id⟩
  · rw [next]
    exact situation.head
  · rw [next,List.take_of_length_le (by rw [described.length])]
    exact described

-- The batch that stores a new state is where its undo begins.
theorem Targeted.begins (targeted : Targeted format inventory start.answering plan) (still : Still start now) {encoded : Bytes}
    (encodes : plan.newState.encode = .ok encoded) (applies : Applies (systemPuts [(recoveryStateKey,encoded)]) now after) :
    UndoBegun start plan plan.newState after := by
  have situation := targeted.situation
  have writes := systemPuts_writes [(recoveryStateKey,encoded)]
  have index := applies.index
  rw [still.index] at index
  have transaction : after.index.transaction = start.index.transaction := by
    rw [index]
    exact Keyspace.ext_getElem? (fun key => writes.transaction start.index key)
  have vlog := applies.vlog.trans still.vlog
  refine ⟨⟨rfl,vlog,?_,⟨encoded,encodes,?_⟩,?_,?_⟩,?_,transaction,vlog,fun none => applies.answered (still.answered none)⟩
  · obtain ⟨bytes,stored,decoded⟩ := situation.head
    refine ⟨bytes,?_,decoded⟩
    change after.index.system[headSeqKey]? = _
    rw [index]
    refine (writes.system start.index headSeqKey).trans ?_
    rw [lastValue_of_notMem (by simp [show headSeqKey ≠ recoveryStateKey by decide])]
    exact stored
  · change after.index.system[recoveryStateKey]? = _
    rw [index]
    exact (writes.system start.index recoveryStateKey).trans rfl
  · intro key _ other
    change after.index.system[key]? = start.index.system[key]?
    rw [index]
    refine (writes.system start.index key).trans ?_
    rw [lastValue_of_notMem (by simpa using other)]
    rfl
  · change DescribedAbove after.index.transaction _ _ _
    have described := situation.described
    rw [transaction,List.take_of_length_le (by rw [described.length]; exact Nat.le_refl _)]
    exact described
  · rw [index]
    exact Keyspace.ext_getElem? (fun key => writes.user start.index key)

-- The first phase: a state is stored where something has to be taken back or cut off.
theorem Targeted.creates (targeted : Targeted format inventory start.answering plan) (registered : Registered start)
    (still : Still start now) :
    Delivers (createRecoveryState plan) now
      (fun created reached => (created = plan.recoveryState ∧ Still start reached ∧
          (plan.recoveryState = none → plan.needsUndo = false ∧ plan.needsTrim = false)) ∨
        (Pursued plan plan.newState ∧ created = some plan.newState ∧ UndoBegun start plan plan.newState reached))
      (fun _ after => start.script ≠ [] ∧ (Still start after ∨
        (Pursued plan plan.newState ∧ UndoBegun start plan plan.newState after))) := by
  have situation := targeted.situation
  unfold createRecoveryState
  split
  · rename_i needed
    have pursued := targeted.pursues needed.1 needed.2
    have synced := @syncNewAcceptedVlog_harmless _ now plan (by
      intro fileId
      rw [still.vlog]
      exact registered fileId) (by rw [still.vlog]; exact situation.geometry) situation.bounds.2.2.1
      (by rw [still.vlog]; exact targeted.backed.reaches)
    refine synced.bind (.refl now) ?_ (fun _ _ some kept =>
      ⟨fun none => some (still.answered none),.inl (still.trans kept)⟩)
    intro _ reached _ kept
    have still := still.trans kept
    have confirmed : Harmless (validateAcceptedBoundary plan) reached (fun _ => True) :=
      harmless_of_honest (unaltered_calm.validateAcceptedBoundary plan)
        (fun honest => targeted.confirms honest still.vlog)
    refine confirmed.bind still ?_ (fun _ _ some still => ⟨some,.inl still⟩)
    intro _ checked _ still
    obtain ⟨encoded,encodes⟩ := RecoveryState.encode_ok targeted.freezes.valid
    have built := recoveryStateBatch_ok.mpr ⟨encoded,encodes,rfl⟩
    have identified : checked.index.system[databaseIdentityKey]? ≠ none := by
      rw [still.index]
      exact targeted.identified
    refine (commitBuilt_lands built (recoveryStateBatch_ordinary encodes) identified).bind ?_ ?_
    · exact fun _ _ applies => (delivers_pure _).mpr (.inr ⟨pursued,rfl,targeted.begins still encodes applies⟩)
    · rintro _ after ⟨some,kept | applies⟩
      · exact ⟨fun none => some (still.answered none),.inl (still.trans kept)⟩
      · exact ⟨fun none => some (still.answered none),.inr ⟨pursued,targeted.begins still encodes applies⟩⟩
  · rename_i nothing
    refine (delivers_pure _).mpr (.inl ⟨rfl,still,?_⟩)
    intro unresumed
    simpa only [unresumed,true_and,not_or,Bool.not_eq_true] using nothing

-- Head and frontier at the target, over the index of its moment.
structure AtTarget (plan : RecoveryPlan) (point : Index) (now : Storage) : Prop where
  honest : now.Honest
  user : now.index.user = point.user
  transaction : now.index.transaction = point.transaction
  stored : Stored now.index plan.acceptedSeq plan.target
  identity : now.index.system[databaseIdentityKey]? = some plan.databaseIdentity

-- An execution that has come to the target, with what is left of its state.
structure Arrived (plan : RecoveryPlan) (point : Index) (left : Option RecoveryState) (now : Storage) : Prop where
  target : AtTarget plan point now.answering
  above : DescribedAbove now.index.transaction plan.acceptedSeq plan.acceptedSeq []
  left : decodeRecoveryState now.index.system[recoveryStateKey]? = .ok left

theorem Arrived.moved (arrived : Arrived plan point left now) (index : after.index = now.index) :
    Arrived plan point left after := by
  obtain ⟨⟨-,user,transaction,stored,identity⟩,above,left⟩ := arrived
  have same : after.answering.index = now.answering.index := index
  rw [←same] at user transaction stored identity
  rw [←index] at above left
  exact ⟨⟨rfl,user,transaction,stored,identity⟩,above,left⟩

-- The batch of the target, from an index that stands at it already.
theorem Targeted.arrives (targeted : Targeted format inventory start.answering plan) (user : now.index.user = point.user)
    (transaction : now.index.transaction = point.transaction)
    (above : DescribedAbove now.index.transaction plan.acceptedSeq plan.acceptedSeq [])
    (identity : now.index.system[databaseIdentityKey]? = some plan.databaseIdentity)
    (valid : ∀ state ∈ left, state.validate = .ok () ∧ state.originalHead < 18446744073709551616)
    (idle : left = none → now.index.system[recoveryStateKey]? = none) :
    Delivers (commitBuilt (targetFrontierBatch plan.acceptedSeq plan.target left)) now
      (fun _ after => Arrived plan point left after ∧ after.vlog = now.vlog ∧ (now.script = [] → after.script = []))
      (fun _ after => now.script ≠ [] ∧ (Still now after ∨ (Arrived plan point left after ∧ after.vlog = now.vlog))) := by
  obtain ⟨frontier,encodes⟩ := DurableFrontier.encode_ok targeted.target_valid
  obtain ⟨stored,mapped,decodes⟩ : ∃ stored, left.mapM RecoveryState.encode = .ok stored ∧
      (left ≠ none → decodeRecoveryState stored = .ok left) ∧ (left = none → stored = none) := by
    cases left with
    | none => exact ⟨none,rfl,fun no => absurd rfl no,fun _ => rfl⟩
    | some state =>
      obtain ⟨good,fits⟩ := valid state rfl
      obtain ⟨bytes,stores⟩ := RecoveryState.encode_ok good
      exact ⟨some bytes,by simp [stores],fun _ => decodeRecoveryState_stored stores fits,fun no => by cases no⟩
  have built : targetFrontierBatch plan.acceptedSeq plan.target left =
      .ok (systemPuts (targetEntries plan.acceptedSeq frontier stored)) :=
    targetFrontierBatch_ok.mpr ⟨rfl,frontier,encodes,stored,mapped,rfl⟩
  have writes := systemPuts_writes (targetEntries plan.acceptedSeq frontier stored)
  have ordinary := @targetEntries_ordinary _ _ plan.acceptedSeq _ _ _ encodes mapped
  have arrived : ∀ {after : Storage}, Applies (systemPuts (targetEntries plan.acceptedSeq frontier stored)) now after →
      Arrived plan point left after := by
    intro after applies
    have index := applies.index
    have same : after.index.transaction = now.index.transaction := by
      rw [index]
      exact Keyspace.ext_getElem? (fun key => writes.transaction now.index key)
    refine ⟨⟨rfl,?_,same.trans transaction,⟨?_,frontier,encodes,?_⟩,?_⟩,by rw [same]; exact above,?_⟩
    · change after.index.user = _
      rw [index,←user]
      exact Keyspace.ext_getElem? (fun key => writes.user now.index key)
    · change after.index.system[headSeqKey]? = _
      rw [index]
      refine (writes.system now.index headSeqKey).trans ?_
      cases stored <;> rfl
    · change after.index.system[durableFrontierKey]? = _
      rw [index]
      refine (writes.system now.index durableFrontierKey).trans ?_
      cases stored <;> rfl
    · change after.index.system[databaseIdentityKey]? = _
      rw [index]
      exact (ordinary.identity now.index).trans identity
    · rw [index]
      refine Eq.trans (congrArg decodeRecoveryState (writes.system now.index recoveryStateKey)) ?_
      cases left with
      | none =>
        obtain rfl := decodes.2 rfl
        refine Eq.trans (congrArg decodeRecoveryState ?_) (rfl : decodeRecoveryState none = .ok none)
        exact idle rfl
      | some state =>
        have decoded := decodes.1 (by simp)
        cases stored with
        | none => cases decoded
        | some bytes => exact decoded
  refine (commitBuilt_lands built ordinary (by rw [identity]; simp)).mono ?_ ?_
  · exact fun _ _ applies => ⟨arrived applies,applies.vlog,applies.answered⟩
  · rintro _ after ⟨some,kept | applies⟩
    · exact ⟨some,.inl kept⟩
    · exact ⟨some,.inr ⟨arrived applies,applies.vlog⟩⟩

-- What an execution that was cut short has left behind.
inductive Abandoned (start : Storage) (plan : RecoveryPlan) (point : Index) (after : Storage) : Prop
  | before (still : Still start after)
  | undoing {state : RecoveryState} (pursued : Pursued plan state) (phase : state.phase = .undo)
      (vlog : after.vlog = start.vlog) (stage : UndoStage start.answering plan state plan.undone point after)
  | trimming {state : RecoveryState} (pursued : Pursued plan state)
      (arrived : Arrived plan point (some state.afterUndo) after)
      (files : Between plan.acceptedEnd start.vlog.files after.vlog.files)
  | finished (arrived : Arrived plan point none after)
      (files : ∀ fileId : Nat, after.vlog.files[fileId]? = acceptedContents start.vlog.files plan.acceptedEnd fileId)
      (flushed : ∀ first ∈ plan.recoveryState, first.trimRequired = true → Flushed plan.acceptedEnd start after)

-- What waits for a sync wherever an execution ended: nothing more than at first, unless a state asks for another trim.
inductive Waits (plan : RecoveryPlan) (start after : Storage) : Prop
  | calm (calmed : Calmed start after)
  | trim {state : RecoveryState} (stored : decodeRecoveryState after.index.system[recoveryStateKey]? = .ok (some state))
      (required : state.trimRequired = true)
  | flushed (flushed : Flushed plan.acceptedEnd start after)

-- The same once the files are in their last shape.
structure Quieted (plan : RecoveryPlan) (start after : Storage) : Prop where
  waits : Calmed start after ∨ Flushed plan.acceptedEnd start after
  flushed : ∀ first ∈ plan.recoveryState, first.trimRequired = true → Flushed plan.acceptedEnd start after

omit [Crc32c] in
theorem Quieted.calmed (quieted : Quieted plan start now) (calm : Calmed now after) : Quieted plan start after :=
  ⟨quieted.waits.imp (fun earlier => earlier.trans calm) (fun flushed => flushed.calmed calm),
    fun first member required => (quieted.flushed first member required).calmed calm⟩

theorem Quieted.owes (quieted : Quieted plan start after) : Waits plan start after :=
  quieted.waits.elim .calm .flushed

theorem Targeted.undone_length (targeted : Targeted format inventory start plan) :
    plan.undone.length = plan.headSeq - plan.acceptedSeq := by
  have length := targeted.situation.described.length
  have inside := targeted.inside
  have low := targeted.low
  rw [RecoveryPlan.undone,List.length_drop]
  omega

theorem Targeted.expected (targeted : Targeted format inventory start plan) (index : Nat) (bound : index < plan.undone.length) :
    expectedDescriptor plan (plan.acceptedSeq + 1 + index) = .ok plan.undone[index] := by
  have low := targeted.low
  have place : plan.descriptors[plan.acceptedSeq + 1 + index - plan.durableFrontier.durableSeq - 1]? =
      some plan.undone[index] := by
    have here := List.getElem?_eq_getElem bound
    simp only [RecoveryPlan.undone,List.getElem?_drop] at here ⊢
    rw [←here]
    congr 1
    omega
  rw [expectedDescriptor,rejectIf_false (by omega),ok_bind,place]
  rfl

theorem Targeted.new_next (targeted : Targeted format inventory start plan) :
    plan.newState.nextUndoSeq = plan.newState.targetSeq + plan.undone.length := by
  have inside := targeted.inside
  rw [targeted.undone_length]
  simp only [RecoveryPlan.newState]
  omega

-- Where the undo stands before its first turn.
theorem UndoBegun.stage (begun : UndoBegun start plan state now) (unwinds : Unwinds plan.undone start.index point)
    (next : state.nextUndoSeq = state.targetSeq + plan.undone.length) :
    UndoStage start.answering plan state plan.undone point now := by
  have same : {state with nextUndoSeq := state.targetSeq + plan.undone.length} = state := by rw [←next]
  refine ⟨plan.undone.length,Nat.le_refl _,by rw [same]; exact begun.unwound,?_⟩
  rw [List.take_of_length_le (Nat.le_refl _)]
  exact unwinds.of_same begun.user begun.transaction

-- And behind its last one.
theorem Turned.stage (turned : Turned start.answering plan {state with nextUndoSeq := state.targetSeq} point start now)
    (still : Still now after) : UndoStage start.answering plan state plan.undone point after := by
  refine ⟨0,Nat.zero_le _,turned.unwound.moved still.index still.vlog,?_⟩
  rw [List.take_zero]
  exact .nil (by rw [still.index,turned.user]) (by rw [still.index,turned.transaction])

-- The second phase behind a stored state: the transactions above the target are taken back.
theorem Targeted.undoes (targeted : Targeted format inventory start.answering plan)
    (unwinds : Unwinds plan.undone start.index point) (pursued : Pursued plan state) (phase : state.phase = .undo)
    (begun : UndoBegun start plan state now) :
    Delivers (reachTarget plan (some state)) now
      (fun progress reached => progress = ⟨plan.acceptedSeq,plan.target,some state.afterUndo⟩ ∧
        Arrived plan point (some state.afterUndo) reached ∧ reached.vlog = start.vlog ∧
        (start.script = [] → reached.script = []))
      (fun _ after => start.script ≠ [] ∧ Abandoned start plan point after) := by
  have frozen := pursued.frozen
  have count := targeted.undone_length
  have inside := targeted.inside
  have seq : state.targetSeq = plan.acceptedSeq := congrArg Accepted.seq frozen.goal
  have next : state.nextUndoSeq = state.targetSeq + plan.undone.length := by
    rw [frozen.next phase]
    omega
  have turns : undoTransactions plan state = undoTurns plan plan.undone.length state := by
    rw [undoTransactions,next,Nat.add_sub_cancel_left]
  have above : plan.durableFrontier.durableSeq ≤ state.targetSeq := by rw [seq]; exact targeted.low
  rw [reachTarget,if_pos phase,turns]
  refine (undoTurns_unwinds (unwinds.of_same begun.user begun.transaction) begun.unwound next frozen.valid phase above
    targeted.identified (fun index bound => by rw [seq]; exact targeted.expected index bound)).bind ?_ ?_
  · rintro _ reached ⟨rfl,turned⟩
    have back : Turned start.answering plan {state with nextUndoSeq := state.targetSeq} point start reached :=
      ⟨turned.vlog.trans begun.vlog,fun none => turned.answered (begun.answered none),turned.user,turned.transaction,
        turned.unwound⟩
    have confirmed : Harmless (validateAcceptedBoundary plan) reached (fun _ => True) :=
      harmless_of_honest (unaltered_calm.validateAcceptedBoundary plan) (fun honest => targeted.confirms honest back.vlog)
    refine confirmed.bind (.refl reached) ?_ ?_
    · intro _ checked _ still
      have described := back.unwound.described.none_above above
      have identity : checked.index.system[databaseIdentityKey]? = some plan.databaseIdentity := by
        have others := back.unwound.others databaseIdentityKey (by decide) (by decide)
        rw [still.index]
        exact others.trans targeted.situation.identified
      have reaches := @Targeted.arrives _ _ _ _ checked plan point (some state.afterUndo) targeted
        (by rw [still.index]; exact back.user) (by rw [still.index]; exact back.transaction)
        (by rw [still.index,←seq]; exact described) identity (fun other same => by
          obtain rfl := Option.some.inj same
          exact ⟨frozen.afterUndo_valid,frozen.fits⟩) (fun no => by cases no)
      refine Delivers.bind reaches ?_ ?_
      · rintro _ final ⟨arrived,vlog,answered⟩
        exact (delivers_pure _).mpr ⟨rfl,arrived,vlog.trans (still.vlog.trans back.vlog),
          fun none => answered (still.answered (back.answered none))⟩
      · rintro _ final ⟨some,kept | ⟨arrived,vlog⟩⟩
        · exact ⟨fun none => some (still.answered (back.answered none)),.undoing pursued phase
            (kept.vlog.trans (still.vlog.trans back.vlog)) (back.stage (still.trans kept))⟩
        · refine ⟨fun none => some (still.answered (back.answered none)),.trimming pursued arrived ?_⟩
          rw [vlog,still.vlog,back.vlog]
          exact .refl _
    · exact fun _ last some still => ⟨fun none => some (back.answered none),.undoing pursued phase
        (still.vlog.trans back.vlog) (back.stage still)⟩
  · rintro _ last ⟨some,vlog,stage⟩
    exact ⟨fun none => some (begun.answered none),.undoing pursued phase (vlog.trans begun.vlog) stage⟩

-- A state of a later phase stands at the target already.
theorem Targeted.rests (targeted : Targeted format inventory start.answering plan)
    (unwinds : Unwinds plan.undone start.index point) (stored : plan.recoveryState = some state) (later : state.phase ≠ .undo) :
    reachTarget plan (some state) = pure ⟨plan.acceptedSeq,plan.target,some state.afterUndo⟩ ∧
      Arrived plan point (some state.afterUndo) start := by
  obtain ⟨-,frozen⟩ := targeted.resumed state stored
  obtain ⟨head,target⟩ := frozen.rests later
  have same := frozen.afterUndo_phase later
  have situation := targeted.situation
  have seq : plan.durableFrontier.durableSeq = plan.acceptedSeq := congrArg DurableFrontier.durableSeq target
  have count := targeted.undone_length
  have none : plan.undone = [] := List.eq_nil_of_length_eq_zero (by omega)
  rw [none] at unwinds
  obtain ⟨user,transaction⟩ := unwinds.nil_same
  have described := situation.described.none_above situation.bounds.1
  rw [head] at described
  refine ⟨by rw [reachTarget,if_neg later,same,head,target],⟨rfl,user.symm,transaction.symm,⟨?_,?_⟩,situation.identified⟩,
    described,?_⟩
  · obtain ⟨bytes,found,decoded⟩ := situation.head
    rw [found,decodeHeadSeq_canonical decoded,head]
  · obtain ⟨bytes,found,decoded⟩ := situation.durable
    rw [←target]
    exact ⟨bytes,(DurableFrontier.decode_canonical decoded).1,found⟩
  · rw [same,←stored]
    exact targeted.stored

theorem decodeRecoveryState_none {found : Option Bytes} (decoded : decodeRecoveryState found = .ok none) :
    found = none := by
  cases found with
  | none => rfl
  | some encoded =>
    cases read : RecoveryState.decode encoded <;> simp [decodeRecoveryState,read,Except.map,Except.mapError] at decoded

theorem Targeted.uncut (targeted : Targeted format inventory start.answering plan) (none : plan.needsTrim = false)
    (fileId : Nat) : start.vlog.files[fileId]? = acceptedContents start.vlog.files plan.acceptedEnd fileId := by
  rw [targeted.suffix] at none
  exact acceptedContents_noSuffix (inspectFiles_lists targeted.inspected) none fileId

-- Without a state nothing lies above the target, and the frontier may have to follow.
theorem Targeted.promotes (targeted : Targeted format inventory start.answering plan) (registered : Registered start)
    (unwinds : Unwinds plan.undone start.index point) (unresumed : plan.recoveryState = none)
    (settled : plan.needsUndo = false) (uncut : plan.needsTrim = false) (still : Still start now) :
    Delivers (reachTarget plan none) now
      (fun progress reached => progress = ⟨plan.acceptedSeq,plan.target,none⟩ ∧ Arrived plan point none reached ∧
        reached.vlog = start.vlog ∧ (start.script = [] → reached.script = []))
      (fun _ after => start.script ≠ [] ∧ Abandoned start plan point after) := by
  have situation := targeted.situation
  have inside := targeted.inside
  have low := targeted.low
  obtain ⟨planned,-⟩ := targeted.chosen unresumed
  have undo : plan.needsUndo = decide (plan.acceptedSeq < plan.headSeq) := congrArg RecoveryPlan.needsUndo planned
  have promote : plan.needsPromote = decide (plan.acceptedSeq > plan.durableFrontier.durableSeq) :=
    congrArg RecoveryPlan.needsPromote planned
  rw [undo,decide_eq_false_iff_not] at settled
  have head : plan.headSeq = plan.acceptedSeq := by omega
  have count := targeted.undone_length
  have nothing : plan.undone = [] := List.eq_nil_of_length_eq_zero (by omega)
  rw [nothing] at unwinds
  obtain ⟨user,transaction⟩ := unwinds.nil_same
  have above := situation.described.none_above situation.bounds.1
  rw [head] at above
  have decoded := targeted.stored
  rw [unresumed] at decoded
  have idle := decodeRecoveryState_none decoded
  rw [reachTarget]
  split
  · have synced := @syncNewAcceptedVlog_harmless _ now plan (by
      intro fileId
      rw [still.vlog]
      exact registered fileId) (by rw [still.vlog]; exact situation.geometry) situation.bounds.2.2.1
      (by rw [still.vlog]; exact targeted.backed.reaches)
    refine synced.bind (.refl now) ?_ (fun _ _ some kept =>
      ⟨fun none => some (still.answered none),.before (still.trans kept)⟩)
    intro _ reached _ kept
    have here := still.trans kept
    have confirmed : Harmless (validateAcceptedBoundary plan) reached (fun _ => True) :=
      harmless_of_honest (unaltered_calm.validateAcceptedBoundary plan) (fun honest => targeted.confirms honest here.vlog)
    refine confirmed.bind here ?_ (fun _ last some kept => ⟨some,.before kept⟩)
    intro _ checked _ here
    have reaches := @Targeted.arrives _ _ _ _ checked plan point none targeted (by rw [here.index]; exact user.symm)
      (by rw [here.index]; exact transaction.symm) (by rw [here.index]; exact above)
      (by rw [here.index]; exact situation.identified) (fun _ no => by cases no) (fun _ => by rw [here.index]; exact idle)
    refine Delivers.bind reaches ?_ ?_
    · rintro _ final ⟨arrived,vlog,answered⟩
      exact (delivers_pure _).mpr ⟨rfl,arrived,vlog.trans here.vlog,fun none => answered (here.answered none)⟩
    · rintro _ final ⟨some,kept | ⟨arrived,vlog⟩⟩
      · exact ⟨fun none => some (here.answered none),.before (here.trans kept)⟩
      · refine ⟨fun none => some (here.answered none),.finished arrived ?_ ?_⟩
        · rw [vlog,here.vlog]
          exact targeted.uncut uncut
        · rw [unresumed]
          exact fun _ no => by cases no
  · rename_i durable
    rw [promote,decide_eq_true_eq] at durable
    have same : plan.durableFrontier = plan.target := by
      rcases targeted.backed.reaches.moved with ⟨sameSeq,sameEnd⟩ | ⟨further,-⟩
      · simp only [RecoveryState.goal,RecoveryPlan.newState] at sameSeq sameEnd
        rw [RecoveryPlan.target,sameSeq,sameEnd,show plan.acceptedSeq = plan.durableFrontier.durableSeq by omega]
      · have ordered := targeted.backed.reaches.ordered.2
        simp only [RecoveryState.goal,RecoveryPlan.newState] at further ordered
        omega
    refine (delivers_pure _).mpr ⟨by rw [head,same],?_,still.vlog,still.answered⟩
    refine ⟨⟨rfl,?_,?_,⟨?_,?_⟩,?_⟩,by rw [still.index]; exact above,by rw [still.index]; exact decoded⟩ <;>
      simp only [show now.answering.index = start.index from still.index]
    · exact user.symm
    · exact transaction.symm
    · obtain ⟨bytes,stored,decoded⟩ := situation.head
      rw [show start.index.system[headSeqKey]? = some bytes from stored,decodeHeadSeq_canonical decoded,head]
    · obtain ⟨bytes,stored,decoded⟩ := situation.durable
      rw [←same]
      exact ⟨bytes,(DurableFrontier.decode_canonical decoded).1,stored⟩
    · exact situation.identified

theorem Settled.moved {acceptedEnd : Option VLogPosition} (settled : Settled format acceptedEnd now)
    (vlog : after.vlog = now.vlog) : Settled format acceptedEnd after := by
  obtain ⟨registered,geometry,databaseUuid,inspectable,stands,exactly⟩ := settled
  exact ⟨fun fileId => by rw [vlog]; exact registered fileId,by rw [vlog]; exact geometry,by rw [vlog]; exact databaseUuid,
    by rw [vlog]; exact inspectable,by rw [vlog]; exact stands,by rw [vlog]; exact exactly⟩

theorem verifyTail_settled {acceptedEnd : Option VLogPosition} (honest : now.Honest) (settled : Settled format acceptedEnd now) :
    Delivers (verifyTail format acceptedEnd) now (fun _ after => after = now) (fun _ _ => False) := by
  obtain ⟨inventory,topology,inspected,analyzed,matched⟩ := settled.inspected
  have tail : rejectIf (topology.physicalTailMatches acceptedEnd = false) recoveryCorruption = .ok () :=
    rejectIf_false (by simp [matched])
  simp only [verifyTail,ManagedInventory.inspect,delivers_bind,delivers_mapError,delivers_lift,
    delivers_reading_honest honest,inspected,analyzed,tail,Except.ok.injEq,forall_eq',reduceCtorEq,false_implies,
    implies_true,and_true]

-- The state goes, and nothing else does.
theorem Arrived.clears (arrived : Arrived plan point left now) :
    Delivers (commitBuilt deleteRecoveryStateBatch) now
      (fun _ after => Arrived plan point none after ∧ after.vlog = now.vlog ∧ (now.script = [] → after.script = []))
      (fun _ after => now.script ≠ [] ∧ (Still now after ∨ (Arrived plan point none after ∧ after.vlog = now.vlog))) := by
  obtain ⟨⟨-,user,transaction,⟨head,encoded,encodes,frontier⟩,identity⟩,above,-⟩ := arrived
  obtain ⟨built,ordinary⟩ := deleteRecoveryStateBatch_ok
  have writes : IndexAtomicBatch.Writes [.deleteInternal .system recoveryStateKey] [] [] [(recoveryStateKey,none)] := rfl
  have apart : headSeqKey ≠ recoveryStateKey ∧ durableFrontierKey ≠ recoveryStateKey := by decide
  have present : now.index.system[databaseIdentityKey]? ≠ none := by
    rw [show now.index.system[databaseIdentityKey]? = some plan.databaseIdentity from identity]
    simp
  have cleared : ∀ {after : Storage}, Applies [.deleteInternal .system recoveryStateKey] now after →
      Arrived plan point none after := by
    intro after applies
    have index := applies.index
    have same : after.index.transaction = now.index.transaction := by
      rw [index]
      exact Keyspace.ext_getElem? (fun key => writes.transaction now.index key)
    refine ⟨⟨rfl,?_,same.trans transaction,⟨?_,encoded,encodes,?_⟩,?_⟩,by rw [same]; exact above,?_⟩
    · refine Eq.trans ?_ user
      change after.index.user = now.index.user
      rw [index]
      exact Keyspace.ext_getElem? (fun key => writes.user now.index key)
    · refine Eq.trans ?_ head
      change after.index.system[headSeqKey]? = now.index.system[headSeqKey]?
      rw [index]
      refine (writes.system now.index headSeqKey).trans ?_
      rw [lastValue_of_notMem (by simp [apart.1])]
      rfl
    · refine Eq.trans ?_ frontier
      change after.index.system[durableFrontierKey]? = now.index.system[durableFrontierKey]?
      rw [index]
      refine (writes.system now.index durableFrontierKey).trans ?_
      rw [lastValue_of_notMem (by simp [apart.2])]
      rfl
    · refine Eq.trans ?_ identity
      change after.index.system[databaseIdentityKey]? = now.index.system[databaseIdentityKey]?
      rw [index]
      exact ordinary.identity now.index
    · rw [index]
      exact congrArg decodeRecoveryState (writes.system now.index recoveryStateKey)
  refine (commitBuilt_lands built ordinary present).mono ?_ ?_
  · exact fun _ _ applies => ⟨cleared applies,applies.vlog,applies.answered⟩
  · rintro _ after ⟨some,kept | applies⟩
    · exact ⟨some,.inl kept⟩
    · exact ⟨some,.inr ⟨cleared applies,applies.vlog⟩⟩

-- What a recovery leaves: the target, no state, and the files cut to the accepted end.
structure Recovers (format : FormatMetadata) (files : Directory) (plan : RecoveryPlan) (point : Index) (final : Storage) :
    Prop where
  target : AtTarget plan point final
  idle : final.index.system[recoveryStateKey]? = none
  settled : Settled format plan.acceptedEnd final
  files : ∀ fileId : Nat, final.vlog.files[fileId]? = acceptedContents files plan.acceptedEnd fileId

-- The files as the last phase leaves them.
structure FilesSettled (format : FormatMetadata) (files : Directory) (plan : RecoveryPlan) (final : Storage) : Prop where
  settled : Settled format plan.acceptedEnd final
  files : ∀ fileId : Nat, final.vlog.files[fileId]? = acceptedContents files plan.acceptedEnd fileId

theorem FilesSettled.moved {files : Directory} (tidied : FilesSettled format files plan now) (vlog : after.vlog = now.vlog) :
    FilesSettled format files plan after := ⟨tidied.settled.moved vlog,by rw [vlog]; exact tidied.files⟩

theorem Targeted.tidy (targeted : Targeted format inventory start.answering plan) (registered : Registered start)
    (databaseUuid : start.vlog.databaseUuid = format.databaseUuid) (uncut : plan.needsTrim = false)
    (vlog : now.vlog = start.vlog) : FilesSettled format start.vlog.files plan now := by
  have geometry := targeted.situation.geometry
  have stands := targeted.backed.reaches.standsIn geometry
  have none := uncut
  rw [targeted.suffix] at none
  have settled : Settled format plan.acceptedEnd start :=
    settled_noSuffix registered geometry databaseUuid targeted.inspected stands none
  refine ⟨settled.moved vlog,?_⟩
  rw [vlog]
  exact targeted.uncut uncut

-- The last phase: the files are cut where the state asks for it, and the state goes.
theorem Targeted.finishes (targeted : Targeted format inventory start.answering plan) (registered : Registered start)
    (databaseUuid : start.vlog.databaseUuid = format.databaseUuid) (pursued : Pursued plan state)
    (arrived : Arrived plan point (some state.afterUndo) now) (vlog : now.vlog = start.vlog)
    (answered : start.script = [] → now.script = []) (calm : Calmed start now) :
    Delivers (finishPhase format plan (some state.afterUndo)) now
      (fun left final => left = none ∧ Arrived plan point none final ∧ FilesSettled format start.vlog.files plan final ∧
        Quieted plan start final ∧ (start.script = [] → final.script = []))
      (fun _ after => start.script ≠ [] ∧ Abandoned start plan point after ∧ Waits plan start after) := by
  have geometry : start.vlog.geometry = production := targeted.situation.geometry
  have stands : StandsIn plan.acceptedEnd start.vlog.files := targeted.backed.reaches.standsIn geometry
  have deletes : Leaves (commitBuilt deleteRecoveryStateBatch) Calmed :=
    calmed_calm.commitBuilt (fun batch _ => commitAtomic_calmed batch .syncAll)
  -- The batch that ends the recovery, over files that are in their last shape.
  have ends : ∀ {reached : Storage}, Arrived plan point (some state.afterUndo) reached →
      FilesSettled format start.vlog.files plan reached → Quieted plan start reached →
      (start.script = [] → reached.script = []) →
      Delivers (commitBuilt deleteRecoveryStateBatch >>= fun _ => (pure none : Eff Storage StorageError (Option RecoveryState)))
        reached
        (fun left final => left = none ∧ Arrived plan point none final ∧ FilesSettled format start.vlog.files plan final ∧
          Quieted plan start final ∧ (start.script = [] → final.script = []))
        (fun _ after => start.script ≠ [] ∧ Abandoned start plan point after ∧ Waits plan start after) := by
    intro reached arrived tidied quieted answered
    refine ((Calmed.refl reached).and deletes arrived.clears).bind ?_ ?_
    · rintro _ final ⟨⟨done,vlog,still⟩,calm⟩
      exact (delivers_pure _).mpr ⟨rfl,done,tidied.moved vlog,quieted.calmed calm,fun none => still (answered none)⟩
    · rintro _ final ⟨⟨some,kept | ⟨done,vlog⟩⟩,calm⟩
      · refine ⟨fun none => some (answered none),.trimming pursued (arrived.moved kept.index) (fun fileId => .inr ?_),
          (quieted.calmed calm).owes⟩
        rw [kept.vlog]
        exact tidied.files fileId
      · exact ⟨fun none => some (answered none),.finished done (tidied.moved vlog).files (quieted.calmed calm).flushed,
          (quieted.calmed calm).owes⟩
  cases trim : state.trimRequired with
  | false =>
    have phase : state.afterUndo.phase = .finalize := by simp [RecoveryState.afterUndo,trim]
    simp only [finishPhase,phase]
    refine ends arrived (targeted.tidy registered databaseUuid (pursued.frozen.trims trim) vlog) ⟨.inl calm,?_⟩ answered
    intro first member required
    rw [pursued.own first member,trim] at required
    cases required
  | true =>
    have phase : state.afterUndo.phase = .trim := by simp [RecoveryState.afterUndo,trim]
    -- Whatever waits here is up to the trim of the next attempt.
    have owes : ∀ {last : Storage}, last.index = now.index → Waits plan start last := by
      intro last same
      refine @Waits.trim _ _ _ last state.afterUndo ?_ trim
      rw [same]
      exact arrived.left
    have stopped : ∀ {last : Storage}, Still now last → Abandoned start plan point last := by
      intro last still
      refine .trimming pursued (arrived.moved still.index) ?_
      rw [still.vlog,vlog]
      exact .refl _
    have here : inspectFiles format now.vlog.files = .ok inventory := by
      rw [vlog]
      exact targeted.inspected
    simp only [finishPhase,phase,trimSuffix]
    rw [bind_assoc]
    refine (calm.and (calmed_calm.inspect format).mapError (inspect_harmless here).mapError).bind ?_
      (fun _ _ failed => ⟨fun none => failed.1.1 (answered none),stopped failed.1.2,owes failed.1.2.index⟩)
    rintro found reached ⟨⟨rfl,still⟩,calm⟩
    have here : reached.vlog = start.vlog := still.vlog.trans vlog
    have listed : Registered reached := by
      intro fileId
      rw [here]
      exact registered fileId
    have layout : reached.vlog.geometry = production := by rw [here]; exact geometry
    have standing : StandsIn plan.acceptedEnd reached.vlog.files := by rw [here]; exact stands
    have inspected : inspectFiles format reached.vlog.files = .ok found := by rw [here]; exact targeted.inspected
    have cut := trim_settles inspected listed layout (by rw [here]; exact databaseUuid) standing
    have framed := trim_delivers (inspectFiles_lists inspected) listed layout standing
    have flushes := @trim_flushes reached plan.acceptedEnd (found.vlogFiles.map VLogInventoryEntry.fileId)
    rw [bind_assoc]
    refine (cut.and (framed.and flushes)).bind ?_ ?_
    · rintro _ trimmed ⟨⟨settled,files⟩,⟨frame,-⟩,flushed⟩
      rw [here] at files
      have tidied : FilesSettled format start.vlog.files plan trimmed := ⟨settled,files⟩
      have index := frame.index.trans still.index
      have kept : Arrived plan point (some state.afterUndo) trimmed := arrived.moved index
      have answered := fun none => frame.answered (still.answered (answered none))
      have flushed := calm.flushed flushed
      have quieted : Quieted plan start trimmed := ⟨.inr flushed,fun _ _ _ => flushed⟩
      have verified : Harmless (verifyTail format plan.acceptedEnd) trimmed (fun _ => True) :=
        harmless_of_honest (unaltered_calm.verifyTail format plan.acceptedEnd)
          (fun honest => verifyTail_settled honest settled)
      refine ((Calmed.refl trimmed).and (calmed_calm.verifyTail format plan.acceptedEnd) verified).bind ?_ ?_
      · rintro _ checked ⟨⟨-,last⟩,calm⟩
        exact ends (kept.moved last.index) (tidied.moved last.vlog) (quieted.calmed calm)
          (fun none => last.answered (answered none))
      · rintro _ last ⟨⟨some,still⟩,-⟩
        refine ⟨fun none => some (answered none),.trimming pursued (kept.moved still.index) (fun fileId => .inr ?_),
          owes (still.index.trans index)⟩
        rw [still.vlog]
        exact files fileId
    · rintro _ last ⟨⟨some,frame,between⟩,-⟩
      rw [here] at between
      have index := frame.index.trans still.index
      exact ⟨fun none => some (still.answered (answered none)),.trimming pursued (arrived.moved index) between,owes index⟩

theorem validateRecoveryBindings_honest (honest : now.Honest) (geometry : now.vlog.geometry = production)
    (databaseUuid : now.vlog.databaseUuid = format.databaseUuid)
    (identified : now.index.system[databaseIdentityKey]? = some plan.databaseIdentity)
    (valid : validateDatabaseIdentity format plan.databaseIdentity = .ok ()) :
    Delivers (validateRecoveryBindings format plan) now (fun _ after => after = now) (fun _ _ => False) := by
  have layout : rejectIf (now.vlog.geometry ≠ production ∨ now.vlog.databaseUuid ≠ format.databaseUuid)
      recoveryCorruption = .ok () := rejectIf_false (by simp [geometry,databaseUuid])
  rw [validateRecoveryBindings,delivers_bind,delivers_get,delivers_bind,layout,delivers_lift]
  refine ⟨fun _ _ => ?_,fun _ no => by cases no⟩
  refine (checkIdentity_rested honest identified valid rfl).bind ?_ (fun _ _ no => no)
  intro _ checked same
  subst checked
  exact delivers_mapError.mpr ((delivers_reading_honest honest).mpr rfl)

theorem DescribedAbove.below {space : Keyspace} {headSeq : Nat} (described : DescribedAbove space headSeq headSeq [])
    (room : headSeq + 1 < 18446744073709551616) : space.Below (headSeq + 1) := by
  obtain ⟨-,-,encoded,written,found⟩ := described.intact room
  intro key value there
  by_contra above
  obtain ⟨_,member,-⟩ := (found key value above).mp there
  obtain rfl := Except.ok.inj written
  cases member

theorem AtTarget.rested (target : AtTarget plan point now) (targeted : Targeted format inventory start plan)
    (idle : now.index.system[recoveryStateKey]? = none)
    (below : plan.acceptedSeq + 1 < 18446744073709551616 → now.index.transaction.Below (plan.acceptedSeq + 1)) :
    Rested format plan.acceptedSeq plan.target now.index := by
  refine ⟨⟨_,target.identity,targeted.situation.valid⟩,target.stored,targeted.fits,?_,rfl,idle,below⟩
  rw [DurableFrontier.validateAgainstHead,targeted.target_valid,ok_bind]
  exact rejectIf_false (by simp [RecoveryPlan.target])

-- From there on: the check of what is stored, and the writer.
theorem Targeted.concludes (targeted : Targeted format inventory start.answering plan) (arrived : Arrived plan point none now)
    (tidied : FilesSettled format start.vlog.files plan now) (quieted : Quieted plan start now)
    (answered : start.script = [] → now.script = []) :
    Delivers (do
      verifyFinalState format plan plan.acceptedSeq plan.target
      let writer ← ValueLogRecovery.intoWriter plan.target.durableVlogEnd
      Eff.lift (rejectIf (writer.position ≠ appendPosition plan.target.durableVlogEnd) recoveryCorruption)
      return (⟨plan.acceptedSeq,plan.target,writer⟩ : RecoveredState)) now
      (fun recovered final => recovered.headSeq = plan.acceptedSeq ∧ recovered.durableFrontier = plan.target ∧
        Recovers format start.vlog.files plan point final.answering ∧ (start.script = [] → final.script = []) ∧
        Abandoned start plan point final ∧ Waits plan start final)
      (fun _ after => start.script ≠ [] ∧ Abandoned start plan point after ∧ Waits plan start after) := by
  have rested : Rested format plan.acceptedSeq plan.target now.index :=
    arrived.target.rested targeted (decodeRecoveryState_none arrived.left) arrived.above.below
  have stands : ∀ {last : Storage}, Still now last → Calmed now last →
      Abandoned start plan point last ∧ Waits plan start last := by
    intro last still calm
    have quieted := quieted.calmed calm
    exact ⟨.finished (arrived.moved still.index) (by rw [still.vlog]; exact tidied.files) quieted.flushed,quieted.owes⟩
  have verified : Harmless (verifyFinalState format plan plan.acceptedSeq plan.target) now (fun _ => True) :=
    harmless_of_honest (unaltered_calm.verifyFinalState format plan _ _) (fun honest =>
      verifyFinalState_rested honest rested tidied.settled arrived.target.identity targeted.situation.valid rfl)
  refine ((Calmed.refl now).and (calmed_calm.verifyFinalState format plan _ _) verified).bind ?_
    (fun _ _ failed => ⟨fun none => failed.1.1 (answered none),stands failed.1.2 failed.2⟩)
  rintro _ checked ⟨⟨-,still⟩,calm⟩
  have settled := tidied.settled.moved still.vlog
  refine (calm.and (calmed_calm.intoWriter _) (intoWriter_settled settled)).bind ?_ ?_
  · rintro writer opened ⟨⟨last,-,position⟩,calm⟩
    have whole := still.trans last
    rw [show plan.target.durableVlogEnd = plan.acceptedEnd from rfl,rejectIf_false (fun no => no position)]
    refine delivers_bind.mpr (delivers_lift.mpr ⟨fun _ _ => ⟨rfl,rfl,?_,fun none => whole.answered (answered none),
      stands whole calm⟩,fun _ no => by cases no⟩)
    exact ⟨(arrived.moved whole.index).target,decodeRecoveryState_none (arrived.moved whole.index).left,
      tidied.settled.moved whole.vlog,by rw [show opened.answering.vlog = now.vlog from whole.vlog]; exact tidied.files⟩
  · rintro _ last ⟨⟨some,failed⟩,calm⟩
    exact ⟨fun none => some (still.answered (answered none)),stands (still.trans failed) calm⟩

-- The whole of it, whatever is answered: it ends at the target, or is cut short on the way there.
theorem Targeted.executes (targeted : Targeted format inventory start.answering plan) (registered : Registered start)
    (databaseUuid : start.vlog.databaseUuid = format.databaseUuid) (unwinds : Unwinds plan.undone start.index point) :
    Delivers (executeRecovery format plan) start
      (fun recovered final => recovered.headSeq = plan.acceptedSeq ∧ recovered.durableFrontier = plan.target ∧
        Recovers format start.vlog.files plan point final.answering ∧ (start.script = [] → final.script = []) ∧
        Abandoned start plan point final ∧ Waits plan start final)
      (fun _ after => start.script ≠ [] ∧ Abandoned start plan point after ∧ Waits plan start after) := by
  have situation := targeted.situation
  have commits : ∀ batch, RecoveryBuilt plan batch → Leaves (commitAtomic batch .syncAll) Calmed :=
    fun batch _ => commitAtomic_calmed batch .syncAll
  -- Behind a stored state, whichever analysis it is from.
  have stated : ∀ {state : RecoveryState} {progress : RecoveryProgress} {reached : Storage}, Pursued plan state →
      progress = ⟨plan.acceptedSeq,plan.target,some state.afterUndo⟩ → Arrived plan point (some state.afterUndo) reached →
      reached.vlog = start.vlog → (start.script = [] → reached.script = []) → Calmed start reached →
      Delivers (do
        let left ← finishPhase format plan progress.state
        Eff.lift (rejectIf (left ≠ none) recoveryCorruption)
        verifyFinalState format plan progress.headSeq progress.frontier
        let writer ← ValueLogRecovery.intoWriter progress.frontier.durableVlogEnd
        Eff.lift (rejectIf (writer.position ≠ appendPosition progress.frontier.durableVlogEnd) recoveryCorruption)
        return (⟨progress.headSeq,progress.frontier,writer⟩ : RecoveredState)) reached
        (fun recovered final => recovered.headSeq = plan.acceptedSeq ∧ recovered.durableFrontier = plan.target ∧
          Recovers format start.vlog.files plan point final.answering ∧ (start.script = [] → final.script = []) ∧
          Abandoned start plan point final ∧ Waits plan start final)
        (fun _ after => start.script ≠ [] ∧ Abandoned start plan point after ∧ Waits plan start after) := by
    rintro state _ reached pursued rfl arrived vlog answered calm
    refine (targeted.finishes registered databaseUuid pursued arrived vlog answered calm).bind ?_ (fun _ _ failed => failed)
    rintro _ tidy ⟨rfl,done,tidied,quieted,still⟩
    refine delivers_bind.mpr (delivers_lift.mpr ⟨fun _ _ => ?_,fun _ no => by simp [rejectIf] at no⟩)
    exact targeted.concludes done tidied quieted still
  have bound : Harmless (validateRecoveryBindings format plan) start (fun _ => True) :=
    harmless_of_honest (unaltered_calm.validateRecoveryBindings format plan) (fun honest =>
      validateRecoveryBindings_honest honest situation.geometry databaseUuid situation.identified situation.valid)
  unfold executeRecovery
  refine ((Calmed.refl start).and (calmed_calm.validateRecoveryBindings format plan) bound).bind ?_
    (fun _ _ failed => ⟨failed.1.1,.before failed.1.2,.calm failed.2⟩)
  rintro _ checked ⟨⟨-,still⟩,calm⟩
  have creates := calmed_calm.createRecoveryState (fun batch built => commits batch (.create built))
  refine (calm.and creates (targeted.creates registered still)).bind ?_ ?_
  · rintro created begun ⟨⟨rfl,still,idle⟩ | ⟨pursued,rfl,begun⟩,calm⟩
    · cases stored : plan.recoveryState with
      | none =>
        obtain ⟨kept,uncut⟩ := idle stored
        refine (calm.and (calmed_calm.reachTarget none commits)
          (targeted.promotes registered unwinds stored kept uncut still)).bind ?_
          (fun _ _ failed => ⟨failed.1.1,failed.1.2,.calm failed.2⟩)
        rintro _ reached ⟨⟨rfl,arrived,vlog,answered⟩,calm⟩
        have nothing : rejectIf ((none : Option RecoveryState) ≠ none) recoveryCorruption = .ok () :=
          rejectIf_false (fun no => no rfl)
        have same : finishPhase format plan none = (pure none : Eff Storage StorageError _) := rfl
        rw [same,pure_bind,nothing]
        refine delivers_bind.mpr (delivers_lift.mpr ⟨fun _ _ => ?_,fun _ no => by cases no⟩)
        refine targeted.concludes arrived (targeted.tidy registered databaseUuid uncut vlog) ⟨.inl calm,?_⟩ answered
        rw [stored]
        exact fun _ no => by cases no
      | some state =>
        have pursued := targeted.pursued stored
        by_cases phase : state.phase = .undo
        · refine (calm.and (calmed_calm.reachTarget (some state) commits)
            (targeted.undoes unwinds pursued phase ((targeted.begun stored phase).still still))).bind ?_
            (fun _ _ failed => ⟨failed.1.1,failed.1.2,.calm failed.2⟩)
          rintro _ reached ⟨⟨same,arrived,vlog,answered⟩,calm⟩
          exact stated pursued same arrived vlog answered calm
        · obtain ⟨same,arrived⟩ := targeted.rests unwinds stored phase
          rw [same,pure_bind]
          exact stated pursued rfl (arrived.moved still.index) still.vlog still.answered calm
    · refine (calm.and (calmed_calm.reachTarget (some plan.newState) commits)
        (targeted.undoes unwinds pursued rfl begun)).bind ?_ (fun _ _ failed => ⟨failed.1.1,failed.1.2,.calm failed.2⟩)
      rintro _ reached ⟨⟨same,arrived,vlog,answered⟩,calm⟩
      exact stated pursued same arrived vlog answered calm
  · rintro _ last ⟨⟨some,still | ⟨pursued,begun⟩⟩,calm⟩
    · exact ⟨some,.before still,.calm calm⟩
    · exact ⟨some,.undoing pursued rfl begun.vlog (begun.stage unwinds targeted.new_next),.calm calm⟩

end executing

end ExpirKv
