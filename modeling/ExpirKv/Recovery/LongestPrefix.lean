import ExpirKv.Recovery.AnalyzeFacts

namespace ExpirKv
open VLogGeometry Storage

-- The last envelope of a prefix, or the stored frontier's.
def lastEnvelope (frontier : DurableFrontier) (descriptors : List TransactionDescriptor) : Nat × Option VLogPosition :=
  match descriptors.reverse.find? (fun descriptor => descriptor.txMeta.transactionKind = .vlogEnvelope) with
  | none => (frontier.durableVlogSeq,frontier.durableVlogEnd)
  | some descriptor => (descriptor.txMeta.commitSeq,some descriptor.txMeta.vlogEnd)

theorem foldl_take_lastEnvelope (frontier : DurableFrontier) (descriptors : List TransactionDescriptor) :
    ((descriptors.foldl Accepted.take (.start frontier)).vlogSeq,
      (descriptors.foldl Accepted.take (.start frontier)).vlogEnd) = lastEnvelope frontier descriptors := by
  induction descriptors using List.reverseRecOn with
  | nil => rfl
  | append_singleton front descriptor ih =>
    rw [List.foldl_append,List.foldl_cons,List.foldl_nil]
    unfold lastEnvelope
    rw [List.reverse_append,List.reverse_singleton,List.singleton_append]
    cases kind : descriptor.txMeta.transactionKind with
    | indexOnlyDelete =>
      rw [List.find?_cons_of_neg (by simp [kind])]
      simp only [Accepted.take,kind]
      exact ih
    | vlogEnvelope =>
      rw [List.find?_cons_of_pos (by simp [kind])]
      simp only [Accepted.take,kind]

section image
variable [Crc32c]

-- A database as a crash leaves it: whole descriptors above a valid frontier, the value log intact
-- up to the durable end, anything behind it, and no recovery under way.
structure TornImage (format : FormatMetadata) (inventory : ManagedInventory) (storage : Storage)
    (frontier : DurableFrontier) (headSeq : Nat) (descriptors : List TransactionDescriptor) : Prop where
  honest : storage.Honest
  identified : ∃ identity, storage.index.system[databaseIdentityKey]? = some identity ∧
    validateDatabaseIdentity format identity = .ok ()
  geometry : storage.vlog.geometry = production
  durable : ∃ encoded, storage.index.system[durableFrontierKey]? = some encoded ∧
    DurableFrontier.decode encoded = .ok frontier
  head : ∃ encoded, storage.index.system[headSeqKey]? = some encoded ∧ decodeHeadSeq encoded = .ok headSeq
  below : frontier.durableSeq ≤ headSeq
  unresumed : storage.index.system[recoveryStateKey]? = none
  inspected : inspectFiles format storage.vlog.files = .ok inventory
  topology : ∃ topology, RecoveryTopology.analyze inventory frontier.durableVlogEnd = .ok topology
  boundary : StableBoundary storage.vlog frontier
  described : DescribedAbove storage.index.transaction frontier.durableSeq headSeq descriptors

section torn
variable {format : FormatMetadata} {inventory : ManagedInventory} {storage : Storage} {frontier : DurableFrontier}
  {headSeq : Nat} {descriptors : List TransactionDescriptor}

theorem DurableFrontier.decode_valid {encoded : Bytes} (decoded : DurableFrontier.decode encoded = .ok frontier) :
    frontier.validate = .ok () := by
  simp only [decode,bind_ok,exists_unit,pure_ok,Except.ok.injEq] at decoded
  obtain ⟨-,-,version,-,-,durableSeq,-,durableVlogSeq,-,durableVlogEnd,-,valid,rfl⟩ := decoded
  exact valid

theorem TornImage.situation (image : TornImage format inventory storage frontier headSeq descriptors) :
    ∃ identity topology, Situation format inventory storage identity frontier headSeq topology descriptors := by
  obtain ⟨identity,stored,valid⟩ := image.identified
  obtain ⟨topology,topological⟩ := image.topology
  obtain ⟨encoded,found,decoded⟩ := image.durable
  obtain ⟨encodedHead,foundHead,decodedHead⟩ := image.head
  have below : frontier.validateAgainstHead headSeq = .ok () := by
    have ordered := image.below
    rw [DurableFrontier.validateAgainstHead,DurableFrontier.decode_valid decoded,ok_bind,rejectIf_false (by omega)]
  exact ⟨identity,topology,image.honest,stored,valid,image.geometry,⟨encoded,found,decoded⟩,
    ⟨encodedHead,foundHead,decodedHead⟩,below,topological,image.boundary,
    (loadUnstableDescriptors_iff image.honest image.below (decodeHeadSeq_lt decodedHead)).mpr image.described⟩

theorem TornImage.analyzed (image : TornImage format inventory storage frontier headSeq descriptors) :
    ∃ identity topology front back,
      Situation format inventory storage identity frontier headSeq topology descriptors ∧
      descriptors = front ++ back ∧ AcceptsAll storage.vlog (.start frontier) front ∧
      (∀ first ∈ back.head?, ¬Acceptable storage.vlog (front.foldl Accepted.take (.start frontier)) first) ∧
      analyzeRecovery format inventory storage = .ok (plannedRecovery identity frontier headSeq
        (front.foldl Accepted.take (.start frontier)) descriptors none inventory topology) storage := by
  obtain ⟨identity,topology,situation⟩ := image.situation
  obtain ⟨front,back,split,accepts,stops,ran⟩ := situation.fresh (inspectFiles_lists image.inspected)
  have decoded : decodeRecoveryState storage.index.system[recoveryStateKey]? = .ok none := by
    rw [image.unresumed]
    rfl
  have target : Delivers (analyzeTarget identity frontier headSeq descriptors inventory topology none) storage
      (fun plan reached => plan = plannedRecovery identity frontier headSeq
        (front.foldl Accepted.take (.start frontier)) descriptors none inventory topology ∧ reached = storage)
      (fun _ _ => False) := by
    rw [analyzeTarget,Delivers,ran]
    exact ⟨rfl,rfl⟩
  obtain ⟨_,_,analyzed,rfl,rfl⟩ := (situation.analyze decoded target).returns
  exact ⟨identity,topology,front,back,situation,split,accepts,stops,analyzed⟩

-- A prefix is accepted exactly when it is no longer than the one the loop stopped at.
theorem acceptsAll_take {files : FileSet} {accepted : Accepted} {front back : List TransactionDescriptor}
    (accepts : AcceptsAll files accepted front)
    (stops : ∀ first ∈ back.head?, ¬Acceptable files (front.foldl Accepted.take accepted) first) (count : Nat)
    (inside : count ≤ (front ++ back).length) :
    AcceptsAll files accepted ((front ++ back).take count) ↔ count ≤ front.length := by
  constructor
  · intro whole
    by_contra beyond
    cases back with
    | nil =>
      rw [List.append_nil] at inside
      exact beyond inside
    | cons first rest =>
      have split : (front ++ first :: rest).take count = front ++ first :: rest.take (count - front.length - 1) := by
        rw [List.take_append,List.take_of_length_le (by omega),
          show count - front.length = (count - front.length - 1) + 1 by omega,List.take_succ_cons]
        rfl
      rw [split,AcceptsAll.append] at whole
      exact stops first rfl whole.2.1
  · intro short
    rw [List.take_append_of_le_length short]
    have whole := accepts
    rw [← List.take_append_drop count front,AcceptsAll.append] at whole
    exact whole.1

-- Whatever lies behind the durable end, the first analysis answers, and with the longest acceptable prefix.
theorem accepted_prefix_maximal (image : TornImage format inventory storage frontier headSeq descriptors) :
    ∃ plan, analyzeRecovery format inventory storage = .ok plan storage ∧ plan.recoveryState = none ∧
      plan.durableFrontier = frontier ∧ plan.headSeq = headSeq ∧ plan.descriptors = descriptors ∧
      frontier.durableSeq ≤ plan.acceptedSeq ∧ plan.acceptedSeq ≤ headSeq ∧
      (∀ seq, frontier.durableSeq ≤ seq → seq ≤ headSeq →
        (AcceptsAll storage.vlog (.start frontier) (descriptors.take (seq - frontier.durableSeq)) ↔
          seq ≤ plan.acceptedSeq)) ∧
      (plan.acceptedVlogSeq,plan.acceptedEnd) =
        lastEnvelope frontier (descriptors.take (plan.acceptedSeq - frontier.durableSeq)) ∧
      ∀ index (bound : index < descriptors.length),
        ¬Acceptable storage.vlog ((descriptors.take index).foldl Accepted.take (.start frontier)) descriptors[index] →
        plan.acceptedSeq ≤ frontier.durableSeq + index := by
  obtain ⟨identity,topology,front,back,situation,split,accepts,stops,analyzed⟩ := image.analyzed
  have lists := inspectFiles_lists image.inspected
  obtain ⟨ext,seq⟩ := situation.extended lists split accepts
  have count := situation.described.length
  have below := image.below
  have prefixes : ∀ taken, taken ≤ descriptors.length →
      (AcceptsAll storage.vlog (.start frontier) (descriptors.take taken) ↔ taken ≤ front.length) := by
    intro taken inside
    rw [split] at inside ⊢
    exact acceptsAll_take accepts stops taken inside
  have length : front.length ≤ descriptors.length := by
    rw [split,List.length_append]
    omega
  refine ⟨_,analyzed,rfl,rfl,rfl,rfl,?_,?_,?_,?_,?_⟩
  · exact ext.ordered.1
  · simp only [plannedRecovery,seq]
    omega
  · intro other low high
    simp only [plannedRecovery,seq]
    rw [prefixes _ (by omega)]
    omega
  · have taken : descriptors.take ((front.foldl Accepted.take (.start frontier)).seq - frontier.durableSeq) = front := by
      rw [seq,Nat.add_sub_cancel_left,split,List.take_left]
    simp only [plannedRecovery]
    rw [taken]
    exact foldl_take_lastEnvelope frontier front
  · intro index bound rejected
    simp only [plannedRecovery,seq]
    by_contra beyond
    have whole := (prefixes (index + 1) (by omega)).mpr (by omega)
    rw [List.take_succ_eq_append_getElem bound,AcceptsAll.append] at whole
    exact rejected whole.2.1

end torn

end image

-- A transaction whose file was lost, above an empty frontier.
theorem lostEnvelope_image : ∃ format storage descriptor, @TornImage castagnoli format ⟨[]⟩ storage ⟨0,0,none⟩ 1 [descriptor] ∧
    descriptor.txMeta.transactionKind = .vlogEnvelope ∧ storage.vlog.files = ∅ := by
  let uuid : Uuid := ⟨List.replicate 16 1,rfl⟩
  let format : FormatMetadata := ⟨0,uuid,4096⟩
  let lost : TransactionDescriptor :=
    ⟨⟨.vlogEnvelope,1,⟨List.replicate 16 7,rfl⟩,0,⟨0,0⟩,⟨0,300⟩,2,1,0,0⟩,[⟨[1],none,none⟩]⟩
  let identity := @appendCrc castagnoli (databaseIdentityMagic ++ List.replicate 6 0 ++ List.replicate 16 1 ++ [0,0])
  let stored := @appendCrc castagnoli (durableFrontierMagic ++ List.replicate 31 0)
  have succeeds : (@encodeDescriptor castagnoli lost).toOption.isSome = true := by decide +kernel
  obtain ⟨encoded,written⟩ := ok_of_isSome succeeds
  have mutationFits : ∀ mutation ∈ lost.mutations, mutation.Fits := by
    intro mutation member
    obtain rfl := List.mem_singleton.mp member
    exact ⟨stateFits_none,stateFits_none⟩
  obtain ⟨crc,again,fits,carries⟩ := @encodeDescriptor_sealed castagnoli _ _ written
    ⟨by decide,by decide,by decide,mutationFits⟩
  let index := (storageOf encoded.entries (FileSet.empty uuid)).index
  let storage : Storage := ⟨⟨index.user,index.transaction,(((∅ : Keyspace).insert databaseIdentityKey identity).insert headSeqKey
    (leBytes 8 1)).insert durableFrontierKey stored⟩,FileSet.empty uuid,[],[]⟩
  have intact := @storageOf_intact_single castagnoli _ _ (FileSet.empty uuid) again fits rfl
  refine ⟨format,storage,lost.sealed crc,?_,rfl,rfl⟩
  have descriptors : ∀ descriptor ∈ [lost.sealed crc], descriptor.Fits ∧ @TransactionDescriptor.Sealed castagnoli descriptor := by
    intro descriptor member
    obtain rfl := List.mem_singleton.mp member
    exact ⟨fits,carries⟩
  refine @TornImage.mk castagnoli _ _ _ _ _ _ rfl ⟨identity,?_,?_⟩ rfl ⟨stored,?_,?_⟩ ⟨leBytes 8 1,?_,?_⟩
    (by decide) ?_ rfl ⟨_,rfl⟩ rfl (@DescribedAbove.mk castagnoli _ _ _ _ rfl
      (@IntactSuffix.numbered castagnoli _ _ _ _ intact) (fun _ => intact) descriptors)
  · simp only [storage,Std.ExtTreeMap.getElem?_insert,Std.LawfulEqCmp.compare_eq_iff_eq,
      show durableFrontierKey ≠ databaseIdentityKey by decide,show headSeqKey ≠ databaseIdentityKey by decide,if_false,
      if_true]
  · decide +kernel
  · simp [storage]
  · decide +kernel
  · simp only [storage,Std.ExtTreeMap.getElem?_insert,Std.LawfulEqCmp.compare_eq_iff_eq,
      show durableFrontierKey ≠ headSeqKey by decide,if_false,if_true]
  · decide +kernel
  · simp only [storage,Std.ExtTreeMap.getElem?_insert,Std.LawfulEqCmp.compare_eq_iff_eq,
      show durableFrontierKey ≠ recoveryStateKey by decide,show headSeqKey ≠ recoveryStateKey by decide,
      show databaseIdentityKey ≠ recoveryStateKey by decide,if_false,Std.ExtTreeMap.getElem?_empty]

theorem lostEnvelope_rejected {files : FileSet} {accepted : Accepted} {descriptor : TransactionDescriptor}
    (kind : descriptor.txMeta.transactionKind = .vlogEnvelope) (empty : files.files = ∅)
    (geometry : files.geometry = production) : ¬@Acceptable castagnoli files accepted descriptor := by
  intro acceptable
  obtain ⟨-,⟨chunks,-,present,held⟩,-⟩ := @readAndValidateEnvelope_ok castagnoli _ _ geometry (acceptable kind).2
  obtain ⟨chunk,member⟩ := List.exists_mem_of_ne_nil chunks present
  obtain ⟨contents,handled,-⟩ := held chunk member
  have found := @handle_ok castagnoli _ _ _ handled
  rw [empty] at found
  simp at found

-- There the longest acceptable prefix is empty.
theorem accepted_prefix_maximal_lost :
    ∃ format inventory storage plan, @analyzeRecovery castagnoli format inventory storage = .ok plan storage ∧
      plan.acceptedSeq = 0 ∧ plan.headSeq = 1 := by
  obtain ⟨format,storage,descriptor,image,kind,empty⟩ := lostEnvelope_image
  obtain ⟨plan,analyzed,-,-,head,-,-,-,-,-,rejected⟩ := @accepted_prefix_maximal castagnoli _ _ _ _ _ _ image
  have short := rejected 0 (by simp)
    (lostEnvelope_rejected kind empty (@TornImage.geometry castagnoli _ _ _ _ _ _ image))
  exact ⟨format,⟨[]⟩,storage,plan,analyzed,by simpa using short,head⟩

end ExpirKv
