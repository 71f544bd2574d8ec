import ExpirKv.Lifecycle.Handoff
import ExpirKv.Lifecycle.InitializeFacts
import ExpirKv.Recovery.TrimReached

namespace ExpirKv
open VLogGeometry Storage

section rested
variable [Crc32c] {format : FormatMetadata} {inventory : ManagedInventory} {headSeq : Nat} {frontier : DurableFrontier}
  {storage start : Storage} {files later : FileSet} {index : Index}

-- An index that a recovery finds nothing to do in.
structure Rested (format : FormatMetadata) (headSeq : Nat) (frontier : DurableFrontier) (index : Index) : Prop where
  identity : ∃ encoded, index.system[databaseIdentityKey]? = some encoded ∧ validateDatabaseIdentity format encoded = .ok ()
  stored : Stored index headSeq frontier
  bound : headSeq < 18446744073709551616
  valid : frontier.validateAgainstHead headSeq = .ok ()
  settled : frontier.durableSeq = headSeq
  idle : index.system[recoveryStateKey]? = none
  below : headSeq + 1 < 18446744073709551616 → index.transaction.Below (headSeq + 1)

theorem Rested.decodes (rested : Rested format headSeq frontier index) :
    index.system[headSeqKey]? = some (encodeHeadSeq headSeq) ∧ decodeHeadSeq (encodeHeadSeq headSeq) = .ok headSeq ∧
      ∃ encoded, index.system[durableFrontierKey]? = some encoded ∧ DurableFrontier.decode encoded = .ok frontier := by
  have fits := rested.bound
  rw [←rested.settled] at fits
  exact ⟨rested.stored.head,decodeHeadSeq_encode rested.bound,rested.stored.frontierStored fits⟩

-- What the analysis of such an index plans is to change nothing.
def restedPlan (identity : Bytes) (headSeq : Nat) (frontier : DurableFrontier) (inventory : ManagedInventory) :
    RecoveryPlan :=
  plannedRecovery identity frontier headSeq (.start frontier) [] none inventory (listedTopology inventory)

theorem analyzeRecovery_rested (honest : storage.Honest) (rested : Rested format headSeq frontier storage.index)
    (settled : Settled format frontier.durableVlogEnd storage) (boundary : StableBoundary storage.vlog frontier)
    (inspected : inspectFiles format storage.vlog.files = .ok inventory) :
    ∃ identity, storage.index.system[databaseIdentityKey]? = some identity ∧
      validateDatabaseIdentity format identity = .ok () ∧
      analyzeRecovery format inventory storage = .ok (restedPlan identity headSeq frontier inventory) storage := by
  obtain ⟨identity,identified,valid⟩ := rested.identity
  obtain ⟨head,decodedHead,durable⟩ := rested.decodes
  have lists := inspectFiles_lists inspected
  obtain ⟨_,topology,again,analyzed,-⟩ := settled.inspected
  obtain rfl := Except.ok.inj (inspected.symm.trans again)
  obtain rfl := RecoveryTopology.analyze_listed analyzed
  have loaded : loadUnstableDescriptors frontier.durableSeq headSeq storage = .ok [] storage := by
    refine (loadUnstableDescriptors_iff honest (Nat.le_of_eq rested.settled) rested.bound).mpr ⟨?_,?_,?_,?_⟩
    · simp [rested.settled]
    · intro place bound
      cases bound
    · intro room
      rw [rested.settled] at room
      refine ⟨by simp [rested.settled],fun place bound => (by cases bound),[],rfl,?_⟩
      intro key value above
      rw [rested.settled] at above
      simp only [List.not_mem_nil,false_and,exists_false,iff_false]
      exact fun found => above (rested.below room key value found)
    · intro descriptor member
      cases member
  have situation : Situation format inventory storage identity frontier headSeq (listedTopology inventory) [] :=
    ⟨honest,identified,valid,settled.geometry,durable,⟨_,head,decodedHead⟩,rested.valid,analyzed,boundary,loaded⟩
  obtain ⟨front,back,split,-,-,fresh⟩ := situation.fresh lists
  obtain ⟨rfl,rfl⟩ := List.append_eq_nil_iff.mp split.symm
  have idle : decodeRecoveryState storage.index.system[recoveryStateKey]? = .ok none := by
    rw [rested.idle]
    rfl
  have run : Delivers (analyzeRecovery format inventory) storage
      (fun plan after => plan = restedPlan identity headSeq frontier inventory ∧ after = storage) (fun _ _ => False) := by
    refine situation.analyze idle ?_
    rw [analyzeTarget,Delivers,fresh]
    exact ⟨rfl,rfl⟩
  obtain ⟨plan,after,ran,rfl,rfl⟩ := run.returns
  exact ⟨identity,identified,valid,ran⟩

theorem checkIdentity_rested {identity : Bytes} {plan : RecoveryPlan} (honest : storage.Honest)
    (identified : storage.index.system[databaseIdentityKey]? = some identity)
    (valid : validateDatabaseIdentity format identity = .ok ()) (planned : plan.databaseIdentity = identity) :
    Delivers (checkIdentity format plan) storage (fun _ after => after = storage) (fun _ _ => False) := by
  have same : rejectIf (identity ≠ identity) recoveryCorruption = .ok () := rejectIf_false (by simp)
  simp only [checkIdentity,delivers_bind,delivers_lift,readIdentity_honest honest,identified,valid,planned,same,
    Option.some.injEq,forall_eq',reduceCtorEq,false_implies,implies_true,and_true]

theorem verifyFinalState_rested {identity : Bytes} {plan : RecoveryPlan} (honest : storage.Honest)
    (rested : Rested format headSeq frontier storage.index) (settled : Settled format frontier.durableVlogEnd storage)
    (identified : storage.index.system[databaseIdentityKey]? = some identity)
    (valid : validateDatabaseIdentity format identity = .ok ()) (planned : plan.databaseIdentity = identity) :
    Delivers (verifyFinalState format plan headSeq frontier) storage (fun _ after => after = storage)
      (fun _ _ => False) := by
  obtain ⟨head,decodedHead,encoded,durable,decodedFrontier⟩ := rested.decodes
  obtain ⟨inventory,topology,inspected,analyzed,matched⟩ := settled.inspected
  refine (checkIdentity_rested honest identified valid planned).bind ?_ (fun _ _ no => no)
  rintro _ _ rfl
  have same : rejectIf (headSeq ≠ headSeq ∨ frontier ≠ frontier ∨ (none : Option Bytes) ≠ none) recoveryCorruption =
      .ok () := rejectIf_false (by simp)
  have tail : rejectIf (topology.physicalTailMatches frontier.durableVlogEnd = false) recoveryCorruption = .ok () :=
    rejectIf_false (by simp [matched])
  simp only [verifyTail,ManagedInventory.inspect,getInternal,delivers_bind,delivers_mapError,delivers_lift,
    requiredInternal_honest honest,delivers_reading_honest honest,head,durable,decodedHead,decodedFrontier,rested.valid,
    rested.idle,Index.keyspace,Except.mapError,same,inspected,analyzed,tail,Option.some.injEq,Except.ok.injEq,forall_eq',
    reduceCtorEq,false_implies,implies_true,and_true]

-- Recovery changes nothing where there is nothing to recover.
theorem executeRecovery_rested {identity : Bytes} (honest : storage.Honest)
    (rested : Rested format headSeq frontier storage.index) (settled : Settled format frontier.durableVlogEnd storage)
    (identified : storage.index.system[databaseIdentityKey]? = some identity)
    (valid : validateDatabaseIdentity format identity = .ok ()) (inspected : inspectFiles format storage.vlog.files = .ok inventory) :
    Delivers (executeRecovery format (restedPlan identity headSeq frontier inventory)) storage
      (fun recovered final => Still storage final ∧ recovered.headSeq = headSeq ∧ recovered.durableFrontier = frontier)
      (fun _ _ => False) := by
  obtain ⟨_,topology,again,analyzed,matched⟩ := settled.inspected
  obtain rfl := Except.ok.inj (inspected.symm.trans again)
  obtain rfl := RecoveryTopology.analyze_listed analyzed
  have lists := inspectFiles_lists inspected
  have suffix := ((RecoveryTopology.physicalTail_iff lists.ordered frontier.durableVlogEnd).mpr matched).2
  have bindings : Delivers (validateRecoveryBindings format (restedPlan identity headSeq frontier inventory)) storage
      (fun _ after => after = storage) (fun _ _ => False) := by
    have layout : rejectIf (storage.vlog.geometry ≠ production ∨ storage.vlog.databaseUuid ≠ format.databaseUuid)
        recoveryCorruption = .ok () := rejectIf_false (by simp [settled.geometry,settled.databaseUuid])
    rw [validateRecoveryBindings,delivers_bind,delivers_get,delivers_bind,layout,delivers_lift]
    refine ⟨fun _ _ => ?_,fun _ no => by cases no⟩
    refine (checkIdentity_rested honest identified valid rfl).bind ?_ (fun _ _ no => no)
    rintro _ _ rfl
    exact delivers_mapError.mpr ((delivers_reading_honest honest).mpr rfl)
  have nothing : createRecoveryState (restedPlan identity headSeq frontier inventory) =
      (pure none : Eff Storage StorageError _) := by
    rw [createRecoveryState,if_neg]
    · rfl
    · simp [restedPlan,plannedRecovery,Accepted.start,suffix,rested.settled]
  have stays : reachTarget (restedPlan identity headSeq frontier inventory) none =
      (pure ⟨headSeq,frontier,none⟩ : Eff Storage StorageError _) := by
    rw [reachTarget,if_neg]
    · rfl
    · simp [restedPlan,plannedRecovery,Accepted.start]
  refine bindings.bind ?_ (fun _ _ no => no)
  rintro _ _ rfl
  rw [nothing,pure_bind,stays,pure_bind]
  have none : finishPhase format (restedPlan identity headSeq frontier inventory) none =
      (pure none : Eff Storage StorageError _) := rfl
  rw [none,pure_bind,delivers_bind,delivers_lift]
  refine ⟨fun _ _ => ?_,fun _ no => by simp [rejectIf] at no⟩
  refine (verifyFinalState_rested honest rested settled identified valid rfl).bind ?_ (fun _ _ no => no)
  rintro _ _ rfl
  refine (intoWriter_settled settled).bind ?_ (fun _ _ stopped => stopped.1 honest)
  intro writer final opened
  obtain ⟨still,-,position⟩ := opened
  rw [rejectIf_false (by simp [position])]
  exact delivers_bind.mpr (delivers_lift.mpr ⟨fun _ _ => ⟨still,rfl,rfl⟩,fun _ no => by cases no⟩)

theorem validateExecutionBackend_honest {identity head frontier : Bytes} (honest : storage.Honest)
    (identified : storage.index.system[databaseIdentityKey]? = some identity)
    (valid : validateDatabaseIdentity format identity = .ok ()) (foundHead : storage.index.system[headSeqKey]? = some head)
    (foundFrontier : storage.index.system[durableFrontierKey]? = some frontier) :
    Delivers (validateExecutionBackend format) storage (fun _ after => after = storage) (fun _ _ => False) := by
  simp only [validateDatabaseIdentity,bind_ok,mapError_ok] at valid
  obtain ⟨decodedIdentity,decoded,matched⟩ := valid
  have present : rejectIf False (metadataError .corruption) = .ok () := rejectIf_false id
  simp only [validateExecutionBackend,getDatabaseIdentity,getInternal,delivers_bind,delivers_mapError,delivers_lift,
    delivers_reading_honest honest,Index.keyspace,identified,foundHead,foundFrontier,orError,decoded,matched,present,
    Except.ok.injEq,forall_eq',reduceCtorEq,false_implies,implies_true,and_true]

theorem handoff_rested (honest : storage.Honest) (rested : Rested format headSeq frontier storage.index)
    (settled : Settled format frontier.durableVlogEnd storage) (boundary : StableBoundary storage.vlog frontier)
    (inspected : inspectFiles format storage.vlog.files = .ok inventory) :
    Delivers (handoffRecoveryBackend format inventory) storage
      (fun recovered final => Still storage final ∧ recovered.headSeq = headSeq ∧ recovered.durableFrontier = frontier)
      (fun _ _ => False) := by
  obtain ⟨identity,identified,valid,ran⟩ := analyzeRecovery_rested honest rested settled boundary inspected
  refine delivers_bind.mpr ?_
  rw [Delivers,ran]
  refine delivers_bind.mpr ((delivers_reading_honest honest).mpr ?_)
  obtain ⟨head,-,bytes,durable,-⟩ := rested.decodes
  refine (validateExecutionBackend_honest honest identified valid head durable).bind ?_ (fun _ _ no => no)
  rintro _ _ rfl
  exact executeRecovery_rested honest rested settled identified valid inspected

-- A file set with the same files, listed anew.
structure Relisted (format : FormatMetadata) (files : Directory) (later : FileSet) : Prop where
  files : later.files = files
  databaseUuid : later.databaseUuid = format.databaseUuid
  geometry : later.geometry = production
  registered : ∀ fileId, fileId ∈ later.catalog ↔ ∃ contents, later.files[fileId]? = some contents

-- A database that was closed with nothing left to sync.
structure AtRest (format : FormatMetadata) (inventory : ManagedInventory) (headSeq : Nat) (frontier : DurableFrontier)
    (start : Storage) : Prop where
  honest : start.Honest
  rested : Rested format headSeq frontier start.index
  inspected : inspectFiles format start.vlog.files = .ok inventory
  stands : StandsIn frontier.durableVlogEnd start.vlog.files
  exactly : ∀ fileId : Nat, start.vlog.files[fileId]? = acceptedContents start.vlog.files frontier.durableVlogEnd fileId
  boundary : ∀ later, Relisted format start.vlog.files later → StableBoundary later frontier

theorem Rested.named (rested : Rested format headSeq frontier index) : format.databaseUuid.isZero = false := by
  obtain ⟨encoded,-,valid⟩ := rested.identity
  exact validateDatabaseIdentity_named valid

-- An open lists the files anew. What its recovery hands over is what it opens with.
theorem openPrepared_hands {post : RecoveredState → Storage → Prop} (honest : start.Honest)
    (named : format.databaseUuid.isZero = false) (inspected : inspectFiles format start.vlog.files = .ok inventory)
    (handed : ∀ ready : Storage, ready.Honest → ready.index = start.index → Relisted format start.vlog.files ready.vlog →
      Delivers (handoffRecoveryBackend format inventory) ready post (fun _ _ => False)) :
    Delivers (openPrepared format inventory) start (fun opened final => ∃ recovered, post recovered final ∧
      Grounded opened ∧ opened.log.storage = final.reopened ∧ opened.runtime.state.instanceState = .healthy ∧
      opened.state = ⟨recovered.headSeq,recovered.durableFrontier,recovered.durableFrontier.durableVlogSeq,
        recovered.durableFrontier.durableVlogEnd⟩) (fun _ _ => False) := by
  have lists := inspectFiles_lists inspected
  let listing : Storage := {start with vlog := ⟨start.vlog.files,∅,format.databaseUuid,production⟩}
  have listingHonest : listing.Honest := honest
  have entered := @registerInventory_delivers listing inventory.vlogFiles (by
    intro entry member
    obtain ⟨contents,there,width⟩ := lists.mem.mp member
    exact ⟨(lists.bounded _ _ there).1,contents,there,width⟩)
  have fine : rejectIf format.databaseUuid.isZero (recoveryContext (readCorruption 0 none)) = .ok () :=
    rejectIf_false (by simp [named])
  unfold openPrepared openFileSet
  rw [bind_assoc,delivers_bind,delivers_mapError,delivers_reading_honest honest,bind_assoc,delivers_bind,fine,
    delivers_lift]
  refine ⟨fun _ _ => ?_,fun _ no => by cases no⟩
  refine delivers_bind.mpr ((delivers_modify _).mpr ?_)
  change Delivers (registerInventory inventory >>= fun _ => _) listing _ _
  refine entered.bind ?_ (fun _ _ stopped => stopped.1 listingHonest)
  intro _ ready kept
  obtain ⟨framed,same,catalog⟩ := kept
  have relisted : Relisted format start.vlog.files ready.vlog := by
    refine ⟨same,framed.databaseUuid,framed.geometry,?_⟩
    intro fileId
    rw [catalog,same,lists.mem_fileIds]
    simp [listing]
  have delivered := handed ready (framed.answered listingHonest) framed.index relisted
  refine (delivered.and (@handoff_founded _ format inventory ready)).bind ?_ (fun _ _ no => no.1)
  intro recovered final both
  obtain ⟨stats,opens⟩ := both.2.opens
  rw [delivers_bind,delivers_get,opens]
  refine delivers_lift.mpr ⟨?_,fun _ no => by cases no⟩
  intro opened done
  obtain rfl := Except.ok.inj done
  exact ⟨recovered,both.1,both.2.grounded opens,rfl,(by decide : RuntimeControl.new.state.instanceState = .healthy),rfl⟩

-- Opening it changes neither the index nor a file, and stands where it was left.
theorem AtRest.opens (atRest : AtRest format inventory headSeq frontier start) :
    ∃ opened final, openPrepared format inventory start = .ok opened final ∧ final.index = start.index ∧
      Relisted format start.vlog.files final.vlog ∧ opened.log.storage = final.reopened ∧
      opened.state = ⟨headSeq,frontier,frontier.durableVlogSeq,frontier.durableVlogEnd⟩ ∧
      opened.runtime.state.instanceState = .healthy := by
  obtain ⟨honest,rested,inspected,stands,exactly,boundary⟩ := atRest
  have handed : ∀ ready : Storage, ready.Honest → ready.index = start.index →
      Relisted format start.vlog.files ready.vlog → Delivers (handoffRecoveryBackend format inventory) ready
        (fun recovered final => final.index = start.index ∧ Relisted format start.vlog.files final.vlog ∧
          recovered.headSeq = headSeq ∧ recovered.durableFrontier = frontier) (fun _ _ => False) := by
    intro ready readyHonest again relisted
    have settled : Settled format frontier.durableVlogEnd ready := by
      refine ⟨relisted.registered,relisted.geometry,relisted.databaseUuid,?_,?_,?_⟩
      · rw [relisted.files]
        exact inspectFiles_inspectable.mp ⟨inventory,inspected⟩
      · rw [relisted.files]
        exact stands
      · intro fileId
        rw [relisted.files]
        exact exactly fileId
    refine (handoff_rested readyHonest (by rw [again]; exact rested) settled (boundary _ relisted)
      (by rw [relisted.files]; exact inspected)).mono ?_ (fun _ _ no => no)
    intro recovered final kept
    obtain ⟨still,head,durable⟩ := kept
    exact ⟨still.index.trans again,by rw [still.vlog]; exact relisted,head,durable⟩
  obtain ⟨opened,final,ran,recovered,⟨index,files,head,durable⟩,-,storage,healthy,state⟩ :=
    (openPrepared_hands honest rested.named inspected handed).returns
  exact ⟨opened,final,ran,index,files,storage,by rw [state,head,durable],healthy⟩

end rested

end ExpirKv
