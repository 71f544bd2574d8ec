import ExpirKv.Commit.Grounding
import ExpirKv.Lifecycle.Identity
import ExpirKv.Recovery.Settled

namespace ExpirKv
open VLogGeometry Storage

section opening
variable [Crc32c]

-- `validate_final_identity`, asked of the backend that recovery goes on with.
def validateExecutionBackend (format : FormatMetadata) : Eff Storage StorageError Unit := do
  let stored ← getDatabaseIdentity.mapError recoveryContext
  let encoded ← Eff.lift (orError stored (metadataError .corruption))
  let identity ← Eff.lift (DatabaseIdentity.decode encoded)
  Eff.lift (identity.validateAgainst format.formatVersion format.databaseUuid)
  let headSeq ← (getInternal .system headSeqKey).mapError recoveryContext
  Eff.lift (rejectIf (headSeq = none) (metadataError .corruption))
  let frontier ← (getInternal .system durableFrontierKey).mapError recoveryContext
  Eff.lift (rejectIf (frontier = none) (metadataError .corruption))

-- The index is closed behind the analysis and opened again for the execution.
def handoffRecoveryBackend (format : FormatMetadata) (inventory : ManagedInventory) :
    Eff Storage StorageError RecoveredState := do
  let plan ← analyzeRecovery format inventory
  reading (fun _ => ())
  validateExecutionBackend format
  executeRecovery format plan

-- `FileSet::new` over an empty catalog.
def openFileSet (format : FormatMetadata) : Eff Storage StorageError Unit := do
  (reading (fun _ => ())).mapError recoveryContext
  Eff.lift (rejectIf format.databaseUuid.isZero (recoveryContext (readCorruption 0 none)))
  modify (fun storage => {storage with vlog := ⟨storage.vlog.files,∅,format.databaseUuid,production⟩})

-- `CommitCoordinator::new` on what recovery hands over.
def RecoveredState.coordinator (recovered : RecoveredState) (storage : Storage) : Result CommitCoordinator :=
  CommitCoordinator.new .new ⟨storage.reopened,recovered.writer⟩ recovered.headSeq recovered.durableFrontier
    recovered.durableFrontier.durableVlogSeq recovered.durableFrontier.durableVlogEnd

-- `Db::open` behind its preparation, up to the coordinator.
def openPrepared (format : FormatMetadata) (inventory : ManagedInventory) :
    Eff Storage StorageError CommitCoordinator := do
  openFileSet format
  registerInventory inventory
  let recovered ← handoffRecoveryBackend format inventory
  let storage ← get
  Eff.lift (recovered.coordinator storage)

end opening

section needs
variable [Crc32c] {format : FormatMetadata} {inventory : ManagedInventory} {plan : RecoveryPlan} {start ready : Storage}

-- A plan without a frozen target asks for what its three positions call for.
def RecoveryPlan.Needs (plan : RecoveryPlan) : Prop :=
  plan.recoveryState = none → (plan.needsUndo = true ↔ plan.acceptedSeq < plan.headSeq) ∧
    (plan.needsPromote = true ↔ plan.durableFrontier.durableSeq < plan.acceptedSeq)

omit [Crc32c] in
-- A step that nothing needs to be known of.
theorem delivers_whatever {σ ε α β : Type} {x : Eff σ ε α} {next : α → Eff σ ε β} {post : β → σ → Prop}
    (rest : ∀ value state, Delivers (next value) state post (fun _ _ => True)) (state : σ) :
    Delivers (x >>= next) state post (fun _ _ => True) := by
  refine delivers_bind.mpr ((Delivers.self x state).mono ?_ (fun _ _ _ => trivial))
  intro value after _
  exact rest value after

theorem analyzeRecovery_needs (analyzed : analyzeRecovery format inventory start = .ok plan ready) : plan.Needs := by
  have run : Delivers (analyzeRecovery format inventory) start (fun plan _ => plan.Needs) (fun _ _ => True) := by
    unfold analyzeRecovery
    refine delivers_whatever (fun identity after => ?_) _
    refine delivers_whatever (fun _ after => ?_) _
    refine delivers_whatever (fun _ after => ?_) _
    refine delivers_whatever (fun encodedFrontier after => ?_) _
    refine delivers_whatever (fun frontier after => ?_) _
    refine delivers_whatever (fun encodedHead after => ?_) _
    refine delivers_whatever (fun headSeq after => ?_) _
    refine delivers_whatever (fun _ after => ?_) _
    refine delivers_whatever (fun encodedState after => ?_) _
    refine delivers_whatever (fun recoveryState after => ?_) _
    refine delivers_whatever (fun topology after => ?_) _
    refine delivers_whatever (fun _ after => ?_) _
    refine delivers_whatever (fun descriptors after => ?_) _
    cases recoveryState with
    | none =>
      refine delivers_whatever (fun accepted after => ?_) _
      refine delivers_lift.mpr ⟨?_,fun _ _ => trivial⟩
      intro plan built _
      simp only [buildPlan,bind_ok,exists_unit,pure_ok,Except.ok.injEq] at built
      obtain ⟨-,-,rfl⟩ := built
      exact ⟨decide_eq_true_iff,decide_eq_true_iff⟩
    | some state =>
      refine delivers_whatever (fun _ after => ?_) _
      have planned : ∀ after : Storage, Delivers (do
          let plan ← Eff.lift (buildPlan identity frontier headSeq
            ⟨state.targetSeq,state.targetVlogSeq,state.targetVlogEnd⟩ descriptors (some state) inventory topology)
          Eff.lift (checkTrim state plan.needsTrim)
          return {plan with needsUndo := decide (state.phase = RecoveryPhase.undo ∧ headSeq > state.targetSeq)}) after
          (fun plan _ => plan.Needs) (fun _ _ => True) := by
        intro after
        refine Asked.settle ?_
        intro plan built
        refine Asked.settle ?_
        intro _ _ none
        simp only [buildPlan,bind_ok,exists_unit,pure_ok,Except.ok.injEq] at built
        obtain ⟨-,-,rfl⟩ := built
        cases none
      split
      · exact delivers_whatever (fun _ after => planned after) _
      · exact planned _
  exact run.of_ok analyzed

end needs

section execution
variable [Crc32c] {format : FormatMetadata} {plan : RecoveryPlan} {start now ready : Storage}

-- What the last look at the index and at the directory establishes.
structure Verified (format : FormatMetadata) (headSeq : Nat) (frontier : DurableFrontier) (storage : Storage) : Prop where
  identified : storage.index.system[databaseIdentityKey]? ≠ none
  named : format.databaseUuid.isZero = false
  bound : headSeq < 18446744073709551616
  stored : Stored storage.index headSeq frontier
  valid : frontier.validateAgainstHead headSeq = .ok ()
  tail : ∃ inventory, inspectFiles format storage.vlog.files = .ok inventory ∧
    (listedTopology inventory).physicalTailMatches frontier.durableVlogEnd = true

omit [Crc32c] in
theorem decodeHeadSeq_canonical {encoded : Bytes} {headSeq : Nat} (decoded : decodeHeadSeq encoded = .ok headSeq) :
    encoded = encodeHeadSeq headSeq := by
  simp only [decodeHeadSeq,orCorrupt,readU64,bind_ok,exists_unit,mapError_ok,rejectIf_ok,not_not,headSeqEncodedLen,
    ne_eq] at decoded
  obtain ⟨width,read⟩ := decoded
  have split := readUint_split read
  rw [List.drop_zero,List.drop_eq_nil_of_le (Nat.le_of_eq width),List.append_nil] at split
  exact split

theorem validateDatabaseIdentity_named {encoded : Bytes} (valid : validateDatabaseIdentity format encoded = .ok ()) :
    format.databaseUuid.isZero = false := by
  simp only [validateDatabaseIdentity,DatabaseIdentity.validateAgainst,bind_ok,mapError_ok,rejectIf_ok,not_or,not_not,
    ne_eq] at valid
  obtain ⟨identity,decoded,-,same⟩ := valid
  rw [←same]
  exact (DatabaseIdentity.decode_canonical decoded).2.1

theorem verifyTail_matches (expected : Option VLogPosition) :
    Delivers (verifyTail format expected) now (fun _ after => Asked now after ∧
      ∃ inventory, inspectFiles format now.vlog.files = .ok inventory ∧
        (listedTopology inventory).physicalTailMatches expected = true) (fun _ _ => True) := by
  unfold verifyTail ManagedInventory.inspect
  refine delivers_bind.mpr (delivers_mapError.mpr (delivers_bind.mpr (Storage.delivers_reading ?_ (fun _ _ => trivial))))
  intro script
  refine delivers_lift.mpr ⟨?_,fun _ _ => trivial⟩
  intro inventory inspected
  refine Asked.settle ?_
  intro topology analyzed
  refine delivers_lift.mpr ⟨?_,fun _ _ => trivial⟩
  intro _ matched
  rw [rejectIf_ok,Bool.not_eq_false,RecoveryTopology.analyze_listed analyzed] at matched
  exact ⟨⟨script,rfl⟩,inventory,inspected,matched⟩

theorem verifyFinalState_verified (headSeq : Nat) (frontier : DurableFrontier) :
    Delivers (verifyFinalState format plan headSeq frontier) now
      (fun _ after => Asked now after ∧ Verified format headSeq frontier now) (fun _ _ => True) := by
  unfold verifyFinalState checkIdentity
  rw [bind_assoc]
  refine @Asked.required now now _ databaseIdentityKey _ _ (.refl now) ?_
  intro identity after identified asked
  rw [bind_assoc]
  refine Asked.settle ?_
  intro _ _
  refine Asked.settle ?_
  intro _ named
  refine asked.required ?_
  intro encodedHead after storedHead asked
  refine Asked.settle ?_
  intro actualHead decodedHead
  refine asked.required ?_
  intro encodedFrontier after storedFrontier asked
  refine Asked.settle ?_
  intro actualFrontier decodedFrontier
  refine Asked.settle ?_
  intro _ valid
  refine asked.getInternal ?_
  intro after asked
  refine Asked.settle ?_
  intro _ matched
  simp only [rejectIf_ok,not_or,not_not,ne_eq] at matched
  obtain ⟨rfl,rfl,-⟩ := matched
  obtain ⟨_,rfl⟩ := asked
  refine (verifyTail_matches _).mono ?_ (fun _ _ _ => trivial)
  intro _ last both
  rw [mapError_ok] at decodedHead decodedFrontier valid
  refine ⟨Asked.trans _ _ _ ⟨_,rfl⟩ both.1,?_⟩
  exact ⟨by rw [identified]; exact Option.some_ne_none _,validateDatabaseIdentity_named named,
    decodeHeadSeq_lt decodedHead,⟨by rw [storedHead,decodeHeadSeq_canonical decodedHead],
      _,(DurableFrontier.decode_canonical decodedFrontier).1,storedFrontier⟩,valid,both.2⟩

-- What an execution returns, and the files and the index it returns with.
structure HandedOver (format : FormatMetadata) (recovered : RecoveredState) (final : Storage) : Prop where
  verified : Verified format recovered.headSeq recovered.durableFrontier final
  settled : recovered.durableFrontier.durableSeq = recovered.headSeq
  opened : ∃ before, ValueLogRecovery.intoWriter recovered.durableFrontier.durableVlogEnd before =
    .ok recovered.writer final ∧ before.vlog = final.vlog
  position : recovered.writer.position = appendPosition recovered.durableFrontier.durableVlogEnd

def SameContent (before after : Storage) : Prop := after.vlog = before.vlog ∧ after.index = before.index

omit [Crc32c] in
theorem sameContent_calm : Calm SameContent :=
  ⟨fun _ => ⟨rfl,rfl⟩,fun _ _ _ left right => ⟨right.1.trans left.1,right.2.trans left.2⟩,fun _ _ => ⟨rfl,rfl⟩,
    fun _ _ => ⟨rfl,rfl⟩,fun _ => ⟨rfl,rfl⟩⟩

-- Files have the same owner and layout all through a recovery.
def SameShape (before after : Storage) : Prop :=
  after.vlog.geometry = before.vlog.geometry ∧ after.vlog.databaseUuid = before.vlog.databaseUuid

omit [Crc32c] in
theorem sameShape_trimming : Trimming SameShape :=
  ⟨⟨fun _ => ⟨rfl,rfl⟩,fun _ _ _ left right => ⟨right.1.trans left.1,right.2.trans left.2⟩,fun _ _ => ⟨rfl,rfl⟩,
    fun _ _ => ⟨rfl,rfl⟩,fun _ => ⟨rfl,rfl⟩⟩,fun _ _ _ => ⟨rfl,rfl⟩,fun _ _ => ⟨rfl,rfl⟩,fun _ _ => ⟨rfl,rfl⟩⟩

-- An execution goes into its first phase unless nothing is left to undo.
theorem createRecoveryState_phase :
    Delivers (createRecoveryState plan) now
      (fun created _ => (created = none → plan.recoveryState = none ∧ plan.needsUndo = false) ∧
        ∀ state ∈ created, state.phase ≠ .undo → plan.recoveryState = some state) (fun _ _ => True) := by
  unfold ExpirKv.createRecoveryState
  split
  · refine delivers_whatever (fun _ _ => delivers_whatever (fun _ _ => delivers_whatever (fun _ _ => ?_) _) _) _
    refine (delivers_pure _).mpr ⟨fun no => (by cases no),?_⟩
    intro state same other
    obtain rfl := Option.mem_some.mp same
    exact absurd rfl other
  · rename_i skipped
    rw [not_and_or,not_or,Bool.not_eq_true] at skipped
    refine (delivers_pure _).mpr ⟨?_,fun state same _ => same⟩
    intro none
    refine ⟨none,?_⟩
    rcases skipped with some | ⟨undone,-⟩
    · exact absurd none some
    · exact undone

theorem reachTarget_settled (drawn : Drawn start.index plan) (needs : plan.Needs) {created : Option RecoveryState}
    (fresh : created = none → plan.recoveryState = none ∧ plan.needsUndo = false)
    (resumed : ∀ state ∈ created, state.phase ≠ .undo → plan.recoveryState = some state) :
    Delivers (reachTarget plan created) now (fun progress _ => progress.frontier.durableSeq = progress.headSeq)
      (fun _ _ => True) := by
  cases created with
  | some state =>
    unfold ExpirKv.reachTarget
    dsimp only
    split
    · exact delivers_whatever (fun _ _ => delivers_whatever (fun _ _ => delivers_whatever (fun _ _ =>
        (delivers_pure _).mpr rfl) _) _) _
    · rename_i other
      obtain ⟨head,target⟩ := (drawn.resumed state (resumed state rfl other)).2 other
      refine (delivers_pure _).mpr ?_
      rw [head,←target]
      rfl
  | none =>
    obtain ⟨none,undone⟩ := fresh rfl
    obtain ⟨undo,promote⟩ := needs none
    unfold ExpirKv.reachTarget
    dsimp only
    split
    · exact delivers_whatever (fun _ _ => delivers_whatever (fun _ _ => delivers_whatever (fun _ _ =>
        (delivers_pure _).mpr rfl) _) _) _
    · rename_i promoted
      rw [promote] at promoted
      rw [←Bool.not_eq_true,undo] at undone
      have ordered := drawn.ordered
      refine (delivers_pure _).mpr ?_
      simp only
      omega

theorem executeRecovery_handsOver (drawn : Drawn start.index plan) (needs : plan.Needs) :
    Delivers (executeRecovery format plan) ready
      (fun recovered final => ready.vlog.geometry = production ∧ ready.vlog.databaseUuid = format.databaseUuid ∧
        HandedOver format recovered final) (fun _ _ => True) := by
  unfold executeRecovery validateRecoveryBindings
  rw [bind_assoc,delivers_bind,delivers_get,bind_assoc]
  refine Asked.settle ?_
  intro _ bound
  simp only [rejectIf_ok,not_or,not_not,ne_eq] at bound
  refine delivers_whatever (fun _ _ => ?_) _
  refine createRecoveryState_phase.bind ?_ (fun _ _ _ => trivial)
  intro created begun phase
  refine (reachTarget_settled drawn needs phase.1 phase.2).bind ?_ (fun _ _ _ => trivial)
  intro progress reached settled
  refine delivers_whatever (fun left finished => ?_) _
  refine Asked.settle (fun _ _ => ?_)
  refine (verifyFinalState_verified _ _).bind ?_ (fun _ _ _ => trivial)
  intro _ checked both
  obtain ⟨⟨script,rfl⟩,verified⟩ := both
  refine ((sameContent_calm.intoWriter _ _).and (Delivers.self _ _)).bind ?_ (fun _ _ _ => trivial)
  intro writer final both
  obtain ⟨⟨vlog,index⟩,ran⟩ := both
  refine Asked.settle ?_
  intro _ placed
  refine (delivers_pure _).mpr ⟨bound.1,bound.2,?_,settled,⟨_,ran,vlog.symm⟩,not_not.mp (rejectIf_ok.mp placed)⟩
  obtain ⟨identified,named,fits,stored,valid,tail⟩ := verified
  exact ⟨by rw [index]; exact identified,named,fits,by rw [index]; exact stored,valid,by rw [vlog]; exact tail⟩

end execution

section founding
variable [Crc32c] {format : FormatMetadata} {inventory : ManagedInventory} {recovered : RecoveredState}
  {start final : Storage} {files : FileSet} {frontier : DurableFrontier}

-- The files that recovery leaves end with the last envelope it kept.
structure Founded (format : FormatMetadata) (recovered : RecoveredState) (final : Storage) : Prop where
  handed : HandedOver format recovered final
  geometry : final.vlog.geometry = production
  databaseUuid : final.vlog.databaseUuid = format.databaseUuid
  boundary : StableBoundary final.vlog recovered.durableFrontier

theorem asked_validateExecutionBackend (format : FormatMetadata) : Leaves (validateExecutionBackend format) Asked :=
  asked_bind (asked_reading _).mapError (fun _ => asked_bind (asked_lift _) (fun _ => asked_bind (asked_lift _)
    (fun _ => asked_bind (asked_lift _) (fun _ => asked_bind (asked_reading _).mapError (fun _ =>
      asked_bind (asked_lift _) (fun _ => asked_bind (asked_reading _).mapError (fun _ => asked_lift _)))))))

theorem executeRecovery_sameShape (plan : RecoveryPlan) : Leaves (executeRecovery format plan) SameShape := by
  refine sameShape_trimming.executeRecovery format ?_
  intro batch _ storage
  exact (commitAtomic_sameVlog batch .syncAll storage).mono (fun _ _ same => ⟨by rw [same],by rw [same]⟩)
    (fun _ _ same => ⟨by rw [same],by rw [same]⟩)

theorem handoff_founded :
    Delivers (handoffRecoveryBackend format inventory) start (fun recovered final => Founded format recovered final)
      (fun _ _ => True) := by
  refine (Delivers.self _ start).bind ?_ (fun _ _ _ => trivial)
  intro plan analyzed ran
  obtain ⟨drawn,asked,geometry,boundary⟩ := analyzeRecovery_anchored ran
  refine asked.follow (asked_reading _) (fun _ opened asked => ?_)
  refine asked.follow (asked_validateExecutionBackend format) (fun _ ready asked => ?_)
  have anchored := executeRecovery_anchored drawn asked geometry boundary format
  have hands : Delivers (executeRecovery format plan) ready _ _ :=
    executeRecovery_handsOver drawn (analyzeRecovery_needs ran)
  refine ((anchored.and hands).and (executeRecovery_sameShape plan ready)).mono ?_ (fun _ _ _ => trivial)
  intro recovered final all
  obtain ⟨⟨⟨frontier,-,found,stands⟩,layout,named,handed⟩,shape⟩ := all
  refine ⟨handed,shape.1.trans layout,shape.2.trans named,?_⟩
  have fits := handed.verified.bound
  rw [←handed.settled] at fits
  rw [(handed.verified.stored.frontierStored fits).unique found]
  exact stands

-- A stable boundary that is the physical tail is the end of the files.
theorem StableBoundary.endsAt (boundary : StableBoundary files frontier) (geometry : files.geometry = production)
    (lists : inventory.Lists files.files)
    (tail : (listedTopology inventory).physicalTailMatches frontier.durableVlogEnd = true) :
    EndsAt files (appendPosition frontier.durableVlogEnd) := by
  have room := boundary.room geometry
  have places := (RecoveryTopology.physicalTail_iff lists.ordered frontier.durableVlogEnd).mpr tail
  unfold StableBoundary at boundary
  cases ends : frontier.durableVlogEnd with
  | none =>
    simp only [ends,RecoveryTopology.hasSuffixAfter,Bool.not_eq_false',List.isEmpty_iff] at places
    refine ⟨geometry,fun no => absurd no (Nat.lt_irrefl 0),?_⟩
    intro fileId _
    cases found : files.files[fileId]? with
    | none => rfl
    | some contents =>
      have member : ⟨fileId,contents.length⟩ ∈ inventory.vlogFiles := lists.mem.mpr ⟨contents,found,rfl⟩
      rw [places.2] at member
      cases member
  | some position =>
    rw [ends,RecoveryTopology.containsEnd_listed lists.ordered,RecoveryTopology.noSuffix_listed] at places
    obtain ⟨⟨entry,member,here,reaches⟩,suffix⟩ := places
    simp only [ends] at boundary
    obtain ⟨-,envelope,read,-⟩ := boundary
    obtain ⟨footer,⟨chunk,rfl,⟨contents,opened,-⟩,-⟩,-⟩ := readStableEnvelopeFromEnd_footer read
    obtain ⟨bytes,found,sized⟩ := lists.mem.mp member
    refine ⟨geometry,fun _ => ⟨contents,opened,?_⟩,?_⟩
    · rw [here] at found
      obtain rfl := Option.some.inj ((FileSet.handle_ok.mp opened).2.1.symm.trans found)
      exact sized.trans (Nat.le_antisymm ((suffix entry member).2 here) reaches)
    · intro fileId behind
      have stands := (room chunk.next ends).1
      simp only [appendPosition,Option.getD_some] at behind
      cases there : files.files[fileId]? with
      | none => rfl
      | some other =>
        have bound := (suffix ⟨fileId,other.length⟩ (lists.mem.mpr ⟨other,there,rfl⟩)).1
        simp only at bound
        omega

theorem Founded.endsAt (founded : Founded format recovered final) : EndsAt final.vlog recovered.writer.position := by
  obtain ⟨inventory,inspected,tail⟩ := founded.handed.verified.tail
  rw [founded.handed.position]
  exact founded.boundary.endsAt founded.geometry (inspectFiles_lists inspected) tail

theorem Founded.coordinatorOpened (founded : Founded format recovered final) :
    CoordinatorOpened ⟨final.reopened,recovered.writer⟩ := by
  obtain ⟨before,ran,same⟩ := founded.handed.opened
  refine ⟨⟨_,before,final,recovered.writer,ran,rfl,by rw [same]; exact founded.geometry,?_,?_⟩⟩
  · rw [same,founded.databaseUuid]
    exact founded.handed.verified.named
  · intro position ends
    have boundary := founded.boundary
    unfold StableBoundary at boundary
    rw [show recovered.durableFrontier.durableVlogEnd = some position from ends] at boundary
    obtain ⟨-,envelope,read,-⟩ := boundary
    obtain ⟨footer,-,again⟩ := readStableEnvelopeFromEnd_footer read
    obtain ⟨chunks,-,accepted,-⟩ := readRecoveryEnvelope_scans again
    rw [founded.geometry] at accepted
    exact ⟨chunks,_,_,_,_,accepted⟩

theorem Founded.recovers (founded : Founded format recovered final) :
    Recovered ⟨final.reopened,recovered.writer⟩ recovered.headSeq recovered.durableFrontier :=
  ⟨founded.coordinatorOpened,founded.handed.verified.identified,founded.handed.verified.bound,
    founded.handed.verified.stored⟩

omit [Crc32c] in
-- A settled frontier is accepted by the coordinator wherever the writer stands at its end.
theorem validateInitialState_accepts {headSeq : Nat} {writer : ValueLogWriter} (owner : writer.databaseUuid.isZero = false)
    (valid : frontier.validateAgainstHead headSeq = .ok ()) (settled : frontier.durableSeq = headSeq)
    (position : writer.position = appendPosition frontier.durableVlogEnd) :
    validateInitialState headSeq frontier frontier.durableVlogSeq frontier.durableVlogEnd writer = .ok () := by
  have checked := valid
  simp only [DurableFrontier.validateAgainstHead,bind_ok,exists_unit] at checked
  obtain ⟨ordered,matched⟩ := DurableFrontier.validate_ok.mp checked.1
  refine bind_ok.mpr ⟨(),by rw [valid]; rfl,rejectIf_ok.mpr ?_⟩
  rw [not_or,not_or,not_not,Bool.not_eq_false,Bool.not_eq_true]
  refine ⟨owner,⟨settled,rfl,by omega,rfl⟩,?_⟩
  clear valid checked
  cases ends : frontier.durableVlogEnd with
  | none =>
    cases seq : frontier.durableVlogSeq with
    | zero => simp [position,ends,appendPosition]
    | succ number => simp [seq,ends,vlogEndMatches] at matched
  | some stop =>
    cases seq : frontier.durableVlogSeq with
    | zero => simp [seq,ends,vlogEndMatches] at matched
    | succ number => simp [position,ends,appendPosition]

-- The coordinator takes what recovery hands over, and starts healthy with nothing left to sync.
theorem Founded.opens (founded : Founded format recovered final) :
    ∃ stats, recovered.coordinator final = .ok ⟨{RuntimeControl.new with stats},⟨final.reopened,recovered.writer⟩,
      ⟨recovered.headSeq,recovered.durableFrontier,recovered.durableFrontier.durableVlogSeq,
        recovered.durableFrontier.durableVlogEnd⟩⟩ := by
  obtain ⟨before,ran,same⟩ := founded.handed.opened
  obtain ⟨-,begun⟩ := (intoWriter_delivers _).of_ok ran
  have owner : recovered.writer.databaseUuid.isZero = false := by
    rw [begun.fresh,same,founded.databaseUuid]
    exact founded.handed.verified.named
  have accepted := validateInitialState_accepts owner founded.handed.verified.valid founded.handed.settled
    founded.handed.position
  obtain ⟨stats,published⟩ := @statsPublished_ordered ⟨.new,⟨final.reopened,recovered.writer⟩,
    ⟨recovered.headSeq,recovered.durableFrontier,recovered.durableFrontier.durableVlogSeq,
      recovered.durableFrontier.durableVlogEnd⟩⟩ (Nat.le_of_eq founded.handed.settled)
  refine ⟨stats,?_⟩
  simp only [RecoveredState.coordinator,CommitCoordinator.new,accepted,ok_bind,pure_ok]
  rw [published]

theorem Founded.grounded {c : CommitCoordinator} (founded : Founded format recovered final)
    (opened : recovered.coordinator final = .ok c) : Grounded c := by
  have sound := founded.recovers.sound opened
  obtain ⟨stats,opens⟩ := founded.opens
  obtain rfl := Except.ok.inj (opened.symm.trans opens)
  obtain ⟨before,ran,same⟩ := founded.handed.opened
  obtain ⟨-,begun⟩ := (intoWriter_delivers _).of_ok ran
  have settled := founded.handed.settled
  have fits := founded.handed.verified.bound
  have stands : StableBoundary final.vlog ⟨recovered.headSeq,recovered.durableFrontier.durableVlogSeq,
      recovered.durableFrontier.durableVlogEnd⟩ := by
    rw [←settled]
    exact founded.boundary
  refine ⟨sound,?_,founded.geometry,⟨recovered.durableFrontier,?_,founded.boundary⟩,
    fun _ => ⟨founded.endsAt,stands⟩⟩
  · simp only
    rw [begun.fresh,same]
    rfl
  · exact founded.handed.verified.stored.frontierStored (by rw [settled]; exact fits)

theorem openPrepared_founded :
    Delivers (openPrepared format inventory) start
      (fun opened final => ∃ recovered, Founded format recovered final ∧ recovered.coordinator final = .ok opened)
      (fun _ _ => True) := by
  refine delivers_whatever (fun _ _ => delivers_whatever (fun _ reached => ?_) _) _
  refine handoff_founded.bind ?_ (fun _ _ _ => trivial)
  intro recovered final founded
  rw [delivers_bind,delivers_get]
  exact delivers_lift.mpr ⟨fun opened ran => ⟨recovered,founded,ran⟩,fun _ _ => trivial⟩

-- A recovery that succeeds is never refused by the coordinator, and all it has found is durable.
theorem recovery_hands_over (format : FormatMetadata) (inventory : ManagedInventory) (start : Storage) :
    Delivers (handoffRecoveryBackend format inventory) start
      (fun recovered final => ∃ opened, recovered.coordinator final = .ok opened ∧
        opened.runtime.state.instanceState = .healthy ∧ opened.state.durableFrontier.durableSeq = opened.state.headSeq ∧
        Grounded opened) (fun _ _ => True) := by
  refine handoff_founded.mono ?_ (fun _ _ _ => trivial)
  intro recovered final founded
  obtain ⟨stats,opens⟩ := founded.opens
  exact ⟨_,opens,(by decide : RuntimeControl.new.state.instanceState = .healthy),founded.handed.settled,
    founded.grounded opens⟩

-- At any later moment the stored frontier is the end of an envelope, and no byte has changed that was there before.
theorem opened_runs_grounded (format : FormatMetadata) (inventory : ManagedInventory) (start : Storage) :
    Delivers (openPrepared format inventory) start
      (fun opened final => ∀ c, InstanceRun opened c → final.vlog.Extends c.log.storage.vlog ∧
        (∃ frontier, FrontierStored c.log.storage.index frontier ∧ StableBoundary c.log.storage.vlog frontier) ∧
        (c.runtime.state.instanceState = .healthy → EndsAt c.log.storage.vlog c.log.writer.position ∧
          StableBoundary c.log.storage.vlog ⟨c.state.headSeq,c.state.headVlogSeq,c.state.headVlogEnd⟩))
      (fun _ _ => True) := by
  refine openPrepared_founded.mono ?_ (fun _ _ _ => trivial)
  intro opened final founded c run
  obtain ⟨recovered,founded,opens⟩ := founded
  obtain ⟨grounded,grown⟩ := (founded.grounded opens).run run
  obtain ⟨stats,same⟩ := founded.opens
  obtain rfl := Except.ok.inj (opens.symm.trans same)
  refine ⟨grown,grounded.stored,?_⟩
  intro healthy
  exact ⟨(grounded.footed healthy).ends,(grounded.footed healthy).boundary⟩

end founding

end ExpirKv
