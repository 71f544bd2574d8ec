import ExpirKv.Lifecycle.CrashImages

namespace ExpirKv
open VLogGeometry Storage

section handing
variable [Crc32c] {format : FormatMetadata} {inventory : ManagedInventory} {start storage : Storage} {files : FileSet}
  {frontier : DurableFrontier} {headSeq : Nat} {chain : List (EncodedDescriptor × TransactionDescriptor)}
  {base last : Index}

-- What an open of a torn image comes to: the index of the last transaction that the files bear out.
structure Salvaged (format : FormatMetadata) (files : FileSet) (frontier : DurableFrontier) (base : Index)
    (chain : List (EncodedDescriptor × TransactionDescriptor)) (count : Nat) (target : DurableFrontier) (final : Storage) :
    Prop where
  inside : count ≤ chain.length
  longest : ∀ other ≤ chain.length, AcceptsAll files (.start frontier) ((chain.map Prod.snd).take other) ↔ other ≤ count
  accepted : Accepted.start target = ((chain.map Prod.snd).take count).foldl Accepted.take (.start frontier)
  seq : target.durableSeq = frontier.durableSeq + count
  point : ∃ point, Transacted base (chain.take count) point ∧ final.index.user = point.user ∧
    final.index.transaction = point.transaction
  reached : ReachedEnd files.files target.durableVlogEnd
  rested : Rested format target.durableSeq target final.index
  settled : Settled format target.durableVlogEnd final
  files : ∀ fileId : Nat, final.vlog.files[fileId]? = acceptedContents files.files target.durableVlogEnd fileId
  honest : final.Honest

theorem TornImage.recovers (image : TornImage format inventory storage frontier headSeq (chain.map Prod.snd))
    (registered : Registered storage) (databaseUuid : storage.vlog.databaseUuid = format.databaseUuid)
    (history : Transacted base chain last) (user : last.user = storage.index.user)
    (transaction : last.transaction = storage.index.transaction)
    (below : frontier.durableSeq + 1 < 18446744073709551616 → base.transaction.Below (frontier.durableSeq + 1)) :
    ∃ plan, analyzeRecovery format inventory storage = .ok plan storage ∧
      Delivers (executeRecovery format plan) storage (fun recovered final => ∃ count,
        recovered.headSeq = recovered.durableFrontier.durableSeq ∧
        Salvaged format storage.vlog frontier base chain count recovered.durableFrontier final) (fun _ _ => False) := by
  obtain ⟨identity,topology,front,back,situation,split,accepts,stops,analyzed⟩ := image.analyzed
  have lists := inspectFiles_lists image.inspected
  obtain ⟨-,seq⟩ := situation.extended lists split accepts
  obtain ⟨targeted,-⟩ := analyzeRecovery_targeted image.honest image.inspected analyzed
  have honest := image.honest.answering
  have length := situation.described.length
  have sized : front.length ≤ chain.length := by
    have count := congrArg List.length split
    rw [List.length_append,List.length_map] at count
    omega
  have taken : (chain.map Prod.snd).take front.length = front := by rw [split,List.take_left]
  rw [←List.take_append_drop front.length chain] at history
  obtain ⟨point,kept,undone⟩ := history.split
  have numbered : ∀ index (bound : index < (chain.take front.length).length),
      ((chain.take front.length)[index]).2.txMeta.commitSeq = frontier.durableSeq + 1 + index := by
    intro index bound
    rw [List.length_take] at bound
    have number := situation.described.numbered index (by rw [List.length_map]; omega)
    rw [List.getElem_map] at number
    rw [List.getElem_take]
    exact number
  have above := kept.last_below below numbered
  rw [List.length_take_of_le sized] at above
  have unwinds := undone.unwinds.of_same user.symm transaction.symm
  rw [List.map_drop] at unwinds
  refine ⟨_,analyzed,?_⟩
  rw [←honest] at targeted
  have executed := targeted.executes registered databaseUuid (by
    simp only [RecoveryPlan.undone,plannedRecovery]
    rw [seq,Nat.add_sub_cancel_left]
    exact unwinds)
  refine executed.mono ?_ (fun _ _ stopped => stopped.1 image.honest)
  rintro recovered final ⟨head,durable,recovers,answered,-⟩
  rw [(show final.Honest from answered image.honest).answering] at recovers
  obtain ⟨target,idle,settled,files⟩ := recovers
  have rested := target.rested targeted idle (by
    rw [target.transaction]
    simp only [plannedRecovery]
    rw [seq]
    exact above)
  simp only [plannedRecovery,RecoveryPlan.target] at durable head rested settled files
  refine ⟨front.length,by rw [head,durable],?_⟩
  rw [durable]
  refine ⟨sized,?_,?_,seq,⟨point,kept,target.user,target.transaction⟩,targeted.backed.reaches.reached,rested,settled,files,
    target.honest⟩
  · intro other inside
    rw [split]
    refine acceptsAll_take accepts stops other ?_
    rw [←split,List.length_map]
    exact inside
  · rw [taken]
    rfl

theorem TornImage.handsOver (image : TornImage format inventory storage frontier headSeq (chain.map Prod.snd))
    (registered : Registered storage) (databaseUuid : storage.vlog.databaseUuid = format.databaseUuid)
    (history : Transacted base chain last) (user : last.user = storage.index.user)
    (transaction : last.transaction = storage.index.transaction)
    (below : frontier.durableSeq + 1 < 18446744073709551616 → base.transaction.Below (frontier.durableSeq + 1)) :
    Delivers (handoffRecoveryBackend format inventory) storage (fun recovered final => ∃ count,
      recovered.headSeq = recovered.durableFrontier.durableSeq ∧
      Salvaged format storage.vlog frontier base chain count recovered.durableFrontier final) (fun _ _ => False) := by
  obtain ⟨plan,analyzed,executes⟩ := image.recovers registered databaseUuid history user transaction below
  obtain ⟨identity,topology,situation⟩ := image.situation
  refine delivers_bind.mpr ?_
  rw [Delivers,analyzed]
  refine delivers_bind.mpr ((delivers_reading_honest image.honest).mpr ?_)
  obtain ⟨encodedHead,foundHead,-⟩ := situation.head
  obtain ⟨encodedFrontier,foundFrontier,-⟩ := situation.durable
  refine (validateExecutionBackend_honest image.honest situation.identified situation.valid foundHead foundFrontier).bind ?_
    (fun _ _ no => no)
  intro _ checked same
  subst checked
  exact executes

omit [Crc32c] in
theorem Relisted.unique {one other : FileSet} {directory : Directory} (first : Relisted format directory one)
    (second : Relisted format directory other) : one = other := by
  obtain ⟨files,catalog,databaseUuid,geometry⟩ := one
  obtain ⟨files',catalog',databaseUuid',geometry'⟩ := other
  obtain ⟨sameFiles,sameUuid,sameGeometry,registered⟩ := first
  obtain ⟨otherFiles,otherUuid,otherGeometry,otherRegistered⟩ := second
  simp only at sameFiles sameUuid sameGeometry registered otherFiles otherUuid otherGeometry otherRegistered
  subst sameFiles sameUuid sameGeometry otherFiles otherUuid otherGeometry
  have catalogs : catalog = catalog' := Std.ExtTreeSet.ext_mem (fun fileId => (registered fileId).trans (otherRegistered fileId).symm)
  rw [catalogs]

theorem TornImage.moved {descriptors : List TransactionDescriptor}
    (image : TornImage format inventory storage frontier headSeq descriptors) {after : Storage} (honest : after.Honest)
    (index : after.index = storage.index) (vlog : after.vlog = storage.vlog) :
    TornImage format inventory after frontier headSeq descriptors := by
  obtain ⟨-,identified,geometry,durable,head,ordered,unresumed,inspected,topology,boundary,described⟩ := image
  rw [←index] at identified durable head unresumed described
  rw [←vlog] at geometry inspected boundary
  exact ⟨honest,identified,geometry,durable,head,ordered,unresumed,inspected,topology,boundary,described⟩

theorem TornImage.named {descriptors : List TransactionDescriptor}
    (image : TornImage format inventory storage frontier headSeq descriptors) : format.databaseUuid.isZero = false := by
  obtain ⟨identity,-,valid⟩ := image.identified
  exact validateDatabaseIdentity_named valid

-- An open of the image succeeds, and what it leaves is at rest.
theorem TornImage.opens (image : TornImage format inventory start frontier headSeq (chain.map Prod.snd))
    (relisted : Relisted format start.vlog.files start.vlog) (history : Transacted base chain last)
    (user : last.user = start.index.user) (transaction : last.transaction = start.index.transaction)
    (below : frontier.durableSeq + 1 < 18446744073709551616 → base.transaction.Below (frontier.durableSeq + 1)) :
    ∃ opened final count target, openPrepared format inventory start = .ok opened final ∧
      Salvaged format start.vlog frontier base chain count target final ∧ Grounded opened ∧
      opened.log.storage = final.reopened ∧ opened.runtime.state.instanceState = .healthy ∧
      opened.state = ⟨target.durableSeq,target,target.durableVlogSeq,target.durableVlogEnd⟩ := by
  have handed : ∀ ready : Storage, ready.Honest → ready.index = start.index →
      Relisted format start.vlog.files ready.vlog → Delivers (handoffRecoveryBackend format inventory) ready
        (fun recovered final => ∃ count, recovered.headSeq = recovered.durableFrontier.durableSeq ∧
          Salvaged format start.vlog frontier base chain count recovered.durableFrontier final) (fun _ _ => False) := by
    intro ready honest index again
    have vlog := again.unique relisted
    have delivered := (image.moved honest index vlog).handsOver (by intro fileId; rw [vlog]; exact relisted.registered fileId)
      (by rw [vlog]; exact relisted.databaseUuid) history (by rw [index]; exact user) (by rw [index]; exact transaction) below
    rw [vlog] at delivered
    exact delivered
  obtain ⟨opened,final,ran,recovered,⟨count,head,salvaged⟩,grounded,storage,healthy,state⟩ :=
    (openPrepared_hands image.honest image.named image.inspected handed).returns
  exact ⟨opened,final,count,recovered.durableFrontier,ran,salvaged,grounded,storage,healthy,by rw [state,head]⟩

theorem Settled.relisted {acceptedEnd : Option VLogPosition} (settled : Settled format acceptedEnd storage) :
    Relisted format storage.vlog.files storage.vlog :=
  ⟨rfl,settled.databaseUuid,settled.geometry,settled.registered⟩

theorem Salvaged.atRest {count : Nat} {target : DurableFrontier} {final : Storage}
    (salvaged : Salvaged format files frontier base chain count target final) (boundary : StableBoundary final.vlog target) :
    ∃ inventory, AtRest format inventory target.durableSeq target final := by
  have settled := salvaged.settled
  obtain ⟨inventory,-,inspected,-⟩ := settled.inspected
  refine ⟨inventory,salvaged.honest,salvaged.rested,inspected,settled.stands,settled.exactly,?_⟩
  intro later again
  rw [again.unique settled.relisted]
  exact boundary

end handing

-- Three puts without a sync, and a crash that cuts the envelope of the last one. Whatever an open comes to there, it keeps
-- the first two.
theorem Puts.torn {begun moment c : CommitCoordinator} (answered : Puts false begun moment c) :
    ∃ inventory base last chain,
      @TornImage castagnoli (currentFormat oneUuid) inventory (c.log.storage.cut 600) ⟨0,0,none⟩ 3 (chain.map Prod.snd) ∧
      Relisted (currentFormat oneUuid) (c.log.storage.cut 600).vlog.files (c.log.storage.cut 600).vlog ∧
      @Transacted castagnoli base chain last ∧ last.user = c.log.storage.index.user ∧
      last.transaction = c.log.storage.index.transaction ∧ base.transaction.Below 1 ∧
      ∀ count target final, @Salvaged castagnoli (currentFormat oneUuid) (c.log.storage.cut 600).vlog ⟨0,0,none⟩ base chain
        count target final → count = 2 := by
  obtain ⟨opened,_,restores,run,onward⟩ := answered.restores
  obtain ⟨grounded,journaled⟩ := @Restores.run castagnoli _ _ _ _ _ _ _ _ restores run
  -- The life from the second put on.
  have marked := @Journaled.remarked castagnoli _ _ _ _ journaled grounded answered.healthy.1
  obtain ⟨settled,later⟩ := @Journaled.run castagnoli _ _ _ _ _ _ grounded marked onward
  have crashed := answered.crashed settled
  obtain ⟨frontier,chain,head,kept,place⟩ := @Journaled.journal castagnoli _ _ _ _ later
  obtain ⟨inventory,torn⟩ := @Chronicled.torn castagnoli _ _ _ _ _ _ _ _ _ _ _ _ kept later settled
    (@LiveRun.start castagnoli c) crashed
  have here := @Chronicled.here castagnoli _ _ _ _ _ _ kept answered.healthy.2
  have durable : frontier = ⟨0,0,none⟩ := here.1.trans (by rw [answered.last]; rfl)
  have whole : head = ⟨3,3,some ⟨0,781⟩⟩ := here.2.trans (by rw [answered.last]; rfl)
  subst durable whole
  have journal := @Chronicled.journal castagnoli _ _ _ _ _ _ kept
  have listed := @CrashImage.relisted castagnoli _ _ _ _ _ _ _ crashed settled later (@LiveRun.start castagnoli c)
  obtain ⟨base,last,history,user,transaction,below,-⟩ := @Journal.transacted castagnoli _ _ _ _ _ journal
  have length : 3 = 0 + chain.length := @Journal.seq castagnoli _ _ _ _ _ journal
  refine ⟨inventory,base,last,chain,torn,listed,history,user,transaction,below (by decide),?_⟩
  rintro count target final ⟨inside,longest,accepted,-,-,reached,-⟩
  have low : 2 ≤ count := by
    have half : moment.state.accepted = ⟨2,2,some ⟨0,542⟩⟩ := by rw [answered.middle]; rfl
    have bears := @Chronicled.bears castagnoli _ _ _ _ _ _ _ _ _ kept (@FileSet.Extends.refl castagnoli _) crashed place
      (by rw [half]; exact Nat.two_pos) answered.reaches
    rw [half] at bears
    exact (longest 2 (by omega)).mp bears
  have high : count ≠ chain.length := by
    rintro rfl
    rw [List.take_of_length_le (by simp),←@Journal.accepted castagnoli _ _ _ _ _ journal] at accepted
    rw [show target.durableVlogEnd = some ⟨0,781⟩ from congrArg Accepted.vlogEnd accepted] at reached
    obtain ⟨-,-,-,contents,found,enough⟩ := reached
    rw [(Storage.cut_found found).2,List.length_take] at enough
    simp only at enough
    omega
  omega

end ExpirKv
