import ExpirKv.Cleanup
import ExpirKv.Commit.Planning
import ExpirKv.Recovery.ExecuteSteps

namespace ExpirKv
open Storage

section triple
variable [Crc32c]

omit [Crc32c] in
theorem slice?_join {bytes first second : Bytes} {offset len next width : Nat} (here : slice? bytes offset len = some first)
    (there : slice? bytes next width = some second) (adjacent : next = offset + len) :
    slice? bytes offset (len + width) = some (first ++ second) := by
  obtain ⟨-,rfl⟩ := slice?_eq_some.mp here
  obtain ⟨fits,rfl⟩ := slice?_eq_some.mp there
  subst adjacent
  exact slice?_eq_some.mpr ⟨by omega,by rw [List.take_add,List.drop_drop]⟩

theorem trailingCrc_split {encoded covered : Bytes} {crcOffset : Nat} (taken : slice? encoded 0 crcOffset = some covered)
    (valid : hasValidTrailingCrc encoded crcOffset = true) (width : encoded.length = crcOffset + 4) :
    encoded = appendCrc covered := by
  unfold hasValidTrailingCrc at valid
  rw [taken] at valid
  cases ending : slice? encoded crcOffset 4 with
  | none => simp [ending] at valid
  | some stored =>
    simp only [ending,beq_iff_eq] at valid
    have start := drop_eq_slice taken
    have rest := drop_eq_slice ending
    have size := slice?_length ending
    rw [List.drop_zero,Nat.zero_add,rest,List.drop_of_length_le (by omega),List.append_nil] at start
    rw [start,appendCrc,valid,←size,leBytes_leNat]

theorem isValidInitialDatabaseIdentity_exact {encoded : Bytes} (valid : isValidInitialDatabaseIdentity encoded = true) :
    ∃ uuid : Uuid, uuid.isZero = false ∧
      encoded = appendCrc (databaseIdentityMagic ++ List.replicate 6 0 ++ uuid.val ++ [0,0]) := by
  simp only [isValidInitialDatabaseIdentity,Bool.and_eq_true,beq_iff_eq,bne_iff_ne,ne_eq,databaseIdentityEncodedLen]
    at valid
  obtain ⟨⟨⟨⟨⟨width,magic⟩,zeros⟩,named⟩,layout⟩,crc⟩ := valid
  cases uuid : slice? encoded 10 16 with
  | none => simp [slice?,width] at uuid
  | some bytes =>
    have size := slice?_length uuid
    have covered := slice?_join (slice?_join (slice?_join magic zeros rfl) uuid rfl) layout rfl
    refine ⟨⟨bytes,size⟩,?_,trailingCrc_split covered crc width⟩
    rw [uuid,Option.some.injEq] at named
    rw [←Bool.not_eq_true,Uuid.isZero,List.all_eq_true]
    intro zero
    exact named (List.eq_replicate_iff.mpr ⟨size,fun byte member => by simpa using zero byte member⟩)

theorem isEncodedEmptyDurableFrontier_exact {encoded : Bytes} (valid : isEncodedEmptyDurableFrontier encoded = true) :
    encoded = appendCrc (durableFrontierMagic ++ List.replicate 31 0) := by
  simp only [isEncodedEmptyDurableFrontier,Bool.and_eq_true,beq_iff_eq,durableFrontierEncodedLen] at valid
  obtain ⟨⟨⟨width,magic⟩,zeros⟩,crc⟩ := valid
  exact trailingCrc_split (slice?_join magic zeros rfl) crc width

-- The guard knows the batch of the first open and no other.
theorem isInitializationTriple_exact {batch : IndexAtomicBatch} (triple : isInitializationTriple batch = true) :
    ∃ uuid, initializationBatch 0 uuid = .ok batch := by
  have known := triple
  unfold isInitializationTriple at triple
  split at triple
  · rename_i identity headKey head frontierKey frontier
    simp only [Bool.and_eq_true,beq_iff_eq] at triple
    obtain ⟨⟨⟨⟨identified,rfl⟩,zero⟩,rfl⟩,empty⟩ := triple
    obtain ⟨uuid,present,rfl⟩ := isValidInitialDatabaseIdentity_exact identified
    obtain rfl := isEncodedEmptyDurableFrontier_exact empty
    obtain rfl : head = List.replicate 8 0 := by simpa [isEncodedHeadSeqZero] using zero
    refine ⟨uuid,?_⟩
    have same : databaseIdentityMagic ++ [0,0] ++ leBytes 4 0 ++ uuid.val ++ [0,0] =
        databaseIdentityMagic ++ List.replicate 6 0 ++ uuid.val ++ [0,0] := by simp [leBytes,List.replicate]
    rw [initializationBatch,rejectIf_false (by simp [present]),ok_bind,same]
    simp only [known,Bool.true_eq_false,rejectIf,if_false,ok_bind,pure_ok]
  · cases triple

theorem validateForCommit_ok {batch : IndexAtomicBatch} {mode : IndexCommitMode}
    (valid : batch.validateForCommit mode = .ok ()) :
    isInitializationTriple batch = true ∧ mode = .syncAll ∨ batch.Ordinary := by
  simp only [IndexAtomicBatch.validateForCommit,bind_ok,exists_unit,rejectIf_ok,List.isEmpty_iff] at valid
  obtain ⟨present,valid⟩ := valid
  split at valid
  · refine .inr ⟨present,fun mutation member => ?_⟩
    exact mapError_ok.mp (forM_ok.mp valid mutation member)
  · simp only [rejectIf_ok,not_or,not_not,ne_eq,Bool.not_eq_false] at valid
    exact .inl ⟨valid.2.2,valid.2.1⟩

omit [Crc32c] in
theorem IndexAtomicBatch.Ordinary.untouched {batch : IndexAtomicBatch} (ordinary : batch.Ordinary) :
    ∀ mutation ∈ batch, mutation.write.1 ≠ (.internal .system,databaseIdentityKey) := by
  intro mutation member same
  have valid := ordinary.valid mutation member
  cases mutation with
  | initializeDatabaseIdentity encoded => cases valid
  | putUser key value => cases same
  | deleteUser key => cases same
  | putInternal space key value =>
    simp only [IndexMutation.write,Prod.mk.injEq,IndexSpace.internal.injEq] at same
    simp [validateOrdinaryMutation,isDatabaseIdentityKey,same] at valid
  | deleteInternal space key =>
    simp only [IndexMutation.write,Prod.mk.injEq,IndexSpace.internal.injEq] at same
    simp [validateOrdinaryMutation,isDatabaseIdentityKey,same] at valid

-- A batch lands as a whole or not at all.
theorem Index.commitAtomic_lands (index : Index) (batch : IndexAtomicBatch) (mode : IndexCommitMode)
    (fault : Option CommitFault) :
    (index.commitAtomic batch mode fault).2 = index ∨ (index.commitAtomic batch mode fault).2 = index.apply batch := by
  unfold commitAtomic
  split
  · exact .inl rfl
  · split
    · exact .inl rfl
    · split
      · exact .inr rfl
      · exact .inl rfl
      · rename_i applied
        cases applied with
        | false => exact .inl rfl
        | true => exact .inr rfl

theorem Index.commitAtomic_admits {index : Index} {batch : IndexAtomicBatch} {mode : IndexCommitMode}
    {fault : Option CommitFault}
    (accepted : (index.commitAtomic batch mode fault).1 = .ok () ∨ (index.commitAtomic batch mode fault).2 ≠ index) :
    batch.validateForCommit mode = .ok () ∧ index.ensureIdentity batch = .ok () := by
  unfold commitAtomic at accepted
  cases valid : batch.validateForCommit mode with
  | error error => simp [valid] at accepted
  | ok done =>
    cases bound : index.ensureIdentity batch with
    | error error => simp [valid,bound] at accepted
    | ok other => exact ⟨rfl,rfl⟩

theorem Index.commitAtomic_guarded {index : Index} {batch : IndexAtomicBatch} {mode : IndexCommitMode}
    {fault : Option CommitFault}
    (accepted : (index.commitAtomic batch mode fault).1 = .ok () ∨ (index.commitAtomic batch mode fault).2 ≠ index) :
    (∃ uuid, initializationBatch 0 uuid = .ok batch) ∧ mode = .syncAll ∧ index = Index.empty ∨
      ∀ mutation ∈ batch, mutation.write.1 ≠ (.internal .system,databaseIdentityKey) := by
  obtain ⟨valid,bound⟩ := commitAtomic_admits accepted
  rcases validateForCommit_ok valid with ⟨triple,synced⟩ | ordinary
  · refine .inl ⟨isInitializationTriple_exact triple,synced,?_⟩
    simp only [ensureIdentity,triple,if_true,rejectIf_ok,not_or,Bool.not_eq_false] at bound
    obtain ⟨user,transaction,system⟩ := bound
    obtain ⟨users,transactions,systems⟩ := index
    simp only [Std.ExtTreeMap.isEmpty_iff] at user transaction system
    subst user transaction system
    rfl
  · exact .inr ordinary.untouched

end triple

section producers
variable [Crc32c]

-- The batches the program builds once it is initialised, each with the mode it is committed in.
inductive Produced : IndexAtomicBatch → IndexCommitMode → Prop
  | commit {write : ValidatedWrite} {headSeq : Nat} {vlogContext : Option VlogContext}
      {getUser : Bytes → Result (Option Bytes)} {uuidSource : Except IoError Uuid} {allocated : Bool}
      {commit : PreparedCommit}
      (prepared : prepareCommit write headSeq vlogContext getUser uuidSource allocated = .ok commit) :
      Produced commit.indexBatch .buffer
  | syncCommit {write : ValidatedWrite} {headSeq : Nat} {vlogContext : Option VlogContext}
      {getUser : Bytes → Result (Option Bytes)} {uuidSource : Except IoError Uuid} {allocated room : Bool}
      {commit : PreparedCommit} {frontier : DurableFrontier} {operation : Operation} {batch : IndexAtomicBatch}
      (prepared : prepareCommit write headSeq vlogContext getUser uuidSource allocated = .ok commit)
      (added : addFrontierToBatch commit.indexBatch frontier operation room = .ok batch) : Produced batch .syncAll
  | barrier {frontier : DurableFrontier} {operation : Operation} {reserved room : Bool} {batch : IndexAtomicBatch}
      (built : frontierOnlyBatch frontier operation reserved room = .ok batch) : Produced batch .syncAll
  | recovery {plan : RecoveryPlan} {batch : IndexAtomicBatch} (built : RecoveryBuilt plan batch) : Produced batch .syncAll
  | cleanup {keys : List Bytes} {batch : IndexAtomicBatch} (present : keys ≠ []) (built : cleanupBatch keys = .ok batch) :
      Produced batch .buffer

-- What every batch of the program is: checked entry by entry, and of the system keys it removes at
-- most the recovery state.
structure IndexAtomicBatch.Admissible (batch : IndexAtomicBatch) : Prop where
  ordinary : batch.Ordinary
  kept : ∀ key, .deleteInternal .system key ∈ batch → key = recoveryStateKey

omit [Crc32c] in
theorem tryPush_admissible {batch next : IndexAtomicBatch} {mutation : IndexMutation}
    (checked : ∀ entry ∈ batch, validateOrdinaryMutation entry = .ok ())
    (kept : ∀ key, .deleteInternal .system key ∈ batch → key = recoveryStateKey)
    (other : ∀ key, mutation = .deleteInternal .system key → key = recoveryStateKey)
    (pushed : batch.tryPush mutation = .ok next) : next.Admissible := by
  simp only [IndexAtomicBatch.tryPush,bind_ok,exists_unit,pure_ok,Except.ok.injEq] at pushed
  obtain ⟨valid,rfl⟩ := pushed
  refine ⟨⟨by simp,?_⟩,?_⟩
  · intro entry member
    rcases List.mem_append.mp member with earlier | here
    · exact checked entry earlier
    · exact List.mem_singleton.mp here ▸ valid
  · intro key member
    rcases List.mem_append.mp member with earlier | here
    · exact kept key earlier
    · exact other key (List.mem_singleton.mp here).symm

theorem prepareCommit_admissible {write : ValidatedWrite} {headSeq : Nat} {vlogContext : Option VlogContext}
    {getUser : Bytes → Result (Option Bytes)} {uuidSource : Except IoError Uuid} {allocated : Bool}
    {commit : PreparedCommit}
    (prepared : prepareCommit write headSeq vlogContext getUser uuidSource allocated = .ok commit) :
    commit.indexBatch.Admissible := by
  simp only [prepareCommit,map_ok] at prepared
  obtain ⟨⟨_,descriptor⟩,prepared,rfl⟩ := prepared
  have honest : ∀ key value, getUser key = .ok value → value = (getUser key).toOption.join := by
    intro key value answered
    rw [answered]
    rfl
  have prepares := prepareDescribed_ok prepared honest
  refine ⟨prepares.batchOrdinary,?_⟩
  intro key member
  obtain ⟨encoded,-,-,-,batch⟩ := prepares.encoded
  simp only [batch,commitBatch_puts,EncodedDescriptor.puts,List.mem_append,List.mem_map,List.mem_singleton] at member
  rcases member with ⟨mutation,-,same⟩ | ⟨entry,-,same⟩ | same
  · unfold stateMutation at same
    split at same <;> cases same
  · cases same
  · cases same

theorem addFrontierToBatch_admissible {batch next : IndexAtomicBatch} {frontier : DurableFrontier} {operation : Operation}
    {allocated : Bool} (checked : ∀ entry ∈ batch, validateOrdinaryMutation entry = .ok ())
    (kept : ∀ key, .deleteInternal .system key ∈ batch → key = recoveryStateKey)
    (added : addFrontierToBatch batch frontier operation allocated = .ok next) : next.Admissible := by
  simp only [addFrontierToBatch,bind_ok,exists_unit,mapError_ok] at added
  obtain ⟨encoded,-,-,pushed⟩ := added
  exact tryPush_admissible checked kept (fun key same => by cases same) pushed

omit [Crc32c] in
theorem cleanupBatch_admissible {keys : List Bytes} {batch : IndexAtomicBatch} (present : keys ≠ [])
    (built : cleanupBatch keys = .ok batch) : batch.Admissible := by
  obtain ⟨rfl,valid⟩ := foldlM_push (IndexMutation.deleteInternal .transaction) built
    (fun batch key next pushed => by simpa [IndexAtomicBatch.tryPush] using pushed)
  refine ⟨⟨by simpa using present,?_⟩,?_⟩
  · intro mutation member
    obtain ⟨key,there,rfl⟩ := List.mem_map.mp (by simpa using member)
    exact valid key there
  · intro key member
    simp at member

theorem buildUndoBatch_admissible {loaded : LoadedDescriptor} {state : RecoveryState} {batch : IndexAtomicBatch}
    (built : buildUndoBatch loaded state = .ok batch) : batch.Admissible := by
  simp only [buildUndoBatch,bind_ok,pushRecovery,mapError_ok] at built
  obtain ⟨users,usersBuilt,entries,entriesBuilt,described,metaBuilt,headed,headBuilt,encoded,-,stateBuilt⟩ := built
  obtain ⟨rfl,userValid⟩ := foldlM_push
    (fun mutation : TxMutation => stateMutation mutation.userKey mutation.beforeState) usersBuilt
    (fun batch mutation next stepped => by
      simp only [bind_ok,mapError_ok,IndexAtomicBatch.tryPush,exists_unit,pure_ok,Except.ok.injEq] at stepped
      obtain ⟨operation,made,pushed⟩ := stepped
      exact userMutation_ok made ▸ pushed)
  obtain ⟨rfl,entryValid⟩ := foldlM_push (fun entry : Bytes × Bytes => IndexMutation.deleteInternal .transaction entry.1)
    entriesBuilt (fun batch entry next stepped => by simpa [IndexAtomicBatch.tryPush] using stepped)
  have start : ∀ mutation ∈ loaded.descriptor.mutations.map
      (fun mutation => stateMutation mutation.userKey mutation.beforeState) ++
        loaded.mutations.map (fun entry => IndexMutation.deleteInternal .transaction entry.1),
      validateOrdinaryMutation mutation = .ok () := by
    intro mutation member
    simp only [List.mem_append,List.mem_map] at member
    rcases member with ⟨source,there,rfl⟩ | ⟨entry,there,rfl⟩
    · exact userValid source there
    · exact entryValid entry there
  have plain : ∀ key, .deleteInternal .system key ∈ loaded.descriptor.mutations.map
      (fun mutation => stateMutation mutation.userKey mutation.beforeState) ++
        loaded.mutations.map (fun entry => IndexMutation.deleteInternal .transaction entry.1) → key = recoveryStateKey := by
    intro key member
    simp only [List.mem_append,List.mem_map] at member
    rcases member with ⟨source,-,same⟩ | ⟨entry,-,same⟩
    · unfold stateMutation at same
      split at same <;> cases same
    · cases same
  have first := tryPush_admissible start plain (fun key same => by cases same) metaBuilt
  have second := tryPush_admissible first.ordinary.valid first.kept (fun key same => by cases same) headBuilt
  exact tryPush_admissible second.ordinary.valid second.kept (fun key same => by cases same) stateBuilt

omit [Crc32c] in
theorem systemPuts_kept (entries : List (Bytes × Bytes)) (key : Bytes) :
    IndexMutation.deleteInternal .system key ∈ systemPuts entries → key = recoveryStateKey := by
  intro member
  obtain ⟨entry,-,same⟩ := List.mem_map.mp member
  cases same

theorem RecoveryBuilt.admissible {plan : RecoveryPlan} {batch : IndexAtomicBatch} (built : RecoveryBuilt plan batch) :
    batch.Admissible := by
  cases built with
  | create built =>
    obtain ⟨encoded,encodes,rfl⟩ := recoveryStateBatch_ok.mp built
    exact ⟨recoveryStateBatch_ordinary encodes,systemPuts_kept _⟩
  | undo built => exact buildUndoBatch_admissible built
  | target built =>
    obtain ⟨-,encoded,encodes,stored,stores,rfl⟩ := targetFrontierBatch_ok.mp built
    exact ⟨targetEntries_ordinary encodes stores,systemPuts_kept _⟩
  | delete built =>
    obtain rfl := Except.ok.inj (built.symm.trans deleteRecoveryStateBatch_ok.1)
    refine ⟨deleteRecoveryStateBatch_ok.2,?_⟩
    intro key member
    cases List.mem_singleton.mp member
    rfl

theorem Produced.admissible {batch : IndexAtomicBatch} {mode : IndexCommitMode} (produced : Produced batch mode) :
    batch.Admissible := by
  cases produced with
  | commit prepared => exact prepareCommit_admissible prepared
  | syncCommit prepared added =>
    have commit := prepareCommit_admissible prepared
    exact addFrontierToBatch_admissible commit.ordinary.valid commit.kept added
  | barrier built =>
    simp only [frontierOnlyBatch,bind_ok,exists_unit] at built
    exact addFrontierToBatch_admissible (by simp) (by simp) built.2
  | recovery built => exact built.admissible
  | cleanup present built => exact cleanupBatch_admissible present built

end producers

section runs
variable [Crc32c]

-- The identity stays as it is, head and frontier stay there.
structure Index.Anchors (before after : Index) : Prop where
  identity : after.system[databaseIdentityKey]? = before.system[databaseIdentityKey]?
  head : before.system[headSeqKey]? ≠ none → after.system[headSeqKey]? ≠ none
  frontier : before.system[durableFrontierKey]? ≠ none → after.system[durableFrontierKey]? ≠ none

omit [Crc32c] in
theorem Index.Anchors.refl (index : Index) : index.Anchors index := ⟨rfl,id,id⟩

omit [Crc32c] in
theorem Index.Anchors.trans {first second third : Index} (earlier : first.Anchors second) (later : second.Anchors third) :
    first.Anchors third :=
  ⟨later.identity.trans earlier.identity,later.head ∘ earlier.head,later.frontier ∘ earlier.frontier⟩

omit [Crc32c] in
theorem IndexAtomicBatch.Admissible.stays {batch : IndexAtomicBatch} (admissible : batch.Admissible) (index : Index)
    {key : Bytes} (other : key ≠ recoveryStateKey) (there : index.system[key]? ≠ none) :
    (index.apply batch).system[key]? ≠ none := by
  have read := Index.get_apply index batch (.internal .system,key)
  change (index.apply batch).system[key]? = _ at read
  rw [read]
  cases written : lastValue (batch.map IndexMutation.write) (.internal .system,key) with
  | none => exact there
  | some value =>
    cases value with
    | some bytes => simp
    | none =>
      obtain ⟨place,found,-⟩ := lastValue_place written
      obtain ⟨mutation,member,same⟩ := List.mem_map.mp (List.mem_of_getElem? found)
      cases mutation with
      | deleteInternal space name =>
        simp only [IndexMutation.write,Prod.mk.injEq,IndexSpace.internal.injEq] at same
        obtain ⟨⟨rfl,rfl⟩,-⟩ := same
        exact absurd (admissible.kept name member) other
      | _ => simp [IndexMutation.write] at same

omit [Crc32c] in
theorem IndexAtomicBatch.Admissible.anchors {batch : IndexAtomicBatch} (admissible : batch.Admissible) (index : Index) :
    index.Anchors (index.apply batch) :=
  ⟨admissible.ordinary.identity index,admissible.stays index (by decide),admissible.stays index (by decide)⟩

theorem IndexAtomicBatch.Admissible.commit_anchors {batch : IndexAtomicBatch} (admissible : batch.Admissible)
    (index : Index) (mode : IndexCommitMode) (fault : Option CommitFault) :
    index.Anchors (index.commitAtomic batch mode fault).2 := by
  rcases index.commitAtomic_lands batch mode fault with same | applied
  · rw [same]
    exact .refl index
  · rw [applied]
    exact admissible.anchors index

def Storage.Anchors (before after : Storage) : Prop := before.index.Anchors after.index

omit [Crc32c] in
theorem anchors_trimming : Trimming Storage.Anchors where
  refl := fun storage => Index.Anchors.refl storage.index
  trans := fun _ _ _ earlier later => Index.Anchors.trans earlier later
  script := fun storage _ => Index.Anchors.refl storage.index
  syncedFile := fun storage _ => Index.Anchors.refl storage.index
  syncedDirectory := fun storage => Index.Anchors.refl storage.index
  truncated := fun storage _ _ => Index.Anchors.refl storage.index
  removed := fun storage _ => Index.Anchors.refl storage.index
  unlisted := fun storage _ => Index.Anchors.refl storage.index

theorem IndexAtomicBatch.Admissible.commit_leaves {batch : IndexAtomicBatch} (admissible : batch.Admissible)
    (mode : IndexCommitMode) : Leaves (Storage.commitAtomic batch mode) Storage.Anchors := by
  intro storage
  have lands := admissible.commit_anchors storage.index mode (Storage.commitFault (storage.script.headD .fine))
  rw [Storage.commitAtomic,delivers_bind,delivers_tick]
  simp only [delivers_bind,delivers_get,delivers_set,delivers_lift]
  refine ⟨fun _ _ => ?_,fun _ _ => ?_⟩ <;> exact lands

theorem executeRecovery_anchors (format : FormatMetadata) (plan : RecoveryPlan) :
    Leaves (executeRecovery format plan) Storage.Anchors :=
  anchors_trimming.executeRecovery format (fun _ built => built.admissible.commit_leaves .syncAll)

-- The same beside writers whose batches are admissible too.
def SharedIndex.Anchors (before after : SharedIndex) : Prop :=
  (∀ turn ∈ before.schedule, ∀ batch ∈ turn.1, batch.Admissible) →
    (∀ turn ∈ after.schedule, ∀ batch ∈ turn.1, batch.Admissible) ∧ before.index.Anchors after.index

namespace SharedIndex

omit [Crc32c] in
theorem Anchors.refl (world : SharedIndex) : world.Anchors world := fun scheduled => ⟨scheduled,.refl world.index⟩

omit [Crc32c] in
theorem Anchors.trans {first second third : SharedIndex} (earlier : first.Anchors second) (later : second.Anchors third) :
    first.Anchors third := by
  intro scheduled
  obtain ⟨scheduled,moved⟩ := earlier scheduled
  obtain ⟨scheduled,further⟩ := later scheduled
  exact ⟨scheduled,moved.trans further⟩

omit [Crc32c] in
theorem land_anchors (origin : Origin) {batches : List IndexAtomicBatch} (world : SharedIndex)
    (admissible : ∀ batch ∈ batches, batch.Admissible) :
    (batches.foldl (land origin) world).schedule = world.schedule ∧
      world.index.Anchors (batches.foldl (land origin) world).index := by
  induction batches generalizing world with
  | nil => exact ⟨rfl,.refl world.index⟩
  | cons batch rest ih =>
    rw [List.forall_mem_cons] at admissible
    obtain ⟨schedule,anchors⟩ := ih (world.land origin batch) admissible.2
    exact ⟨schedule,(admissible.1.anchors world.index).trans anchors⟩

omit [Crc32c] in
theorem overtake_anchors (world : SharedIndex) : world.Anchors world.overtake := by
  intro scheduled
  have here : ∀ batch ∈ (world.schedule.headD ([],.fine)).1, batch.Admissible := by
    cases schedule : world.schedule with
    | nil => simp
    | cons turn rest => exact scheduled turn (by simp [schedule])
  obtain ⟨schedule,anchors⟩ := land_anchors .writer {world with schedule := world.schedule.tail} here
  refine ⟨?_,anchors⟩
  intro turn member
  rw [overtake,schedule] at member
  exact scheduled turn (List.mem_of_mem_tail member)

section calls
variable {α β ε : Type}

omit [Crc32c] in
theorem leaves_bind {x : Eff SharedIndex ε α} {next : α → Eff SharedIndex ε β} (first : Leaves x Anchors)
    (rest : ∀ value, Leaves (next value) Anchors) : Leaves (x >>= next) Anchors :=
  first.bind rest (fun _ _ _ earlier later => earlier.trans later)

omit [Crc32c] in
theorem leaves_pure (value : α) : Leaves (pure value : Eff SharedIndex ε α) Anchors := Leaves.pure value Anchors.refl

omit [Crc32c] in
theorem leaves_lift (x : Except ε α) : Leaves (Eff.lift x : Eff SharedIndex ε α) Anchors := Leaves.lift x Anchors.refl

omit [Crc32c] in
theorem leaves_turn : Leaves (turn : Eff SharedIndex ε Answer) Anchors := overtake_anchors

omit [Crc32c] in
theorem leaves_reading (answer : Index → α) : Leaves (reading answer) Anchors := by
  refine leaves_bind leaves_turn (fun given => ?_)
  split
  · exact Leaves.throw _ Anchors.refl
  · exact leaves_bind (fun world => delivers_get.mpr (Anchors.refl world)) (fun _ => leaves_pure _)

omit [Crc32c] in
theorem leaves_stopRequested : Leaves (stopRequested : Eff SharedIndex ε Bool) Anchors := by
  intro world
  unfold Delivers stopRequested
  cases world.stopAfter with
  | none => exact Anchors.refl world
  | some count =>
    cases count with
    | zero => exact fun scheduled => ⟨scheduled,.refl world.index⟩
    | succ count => exact fun scheduled => ⟨scheduled,.refl world.index⟩

theorem leaves_commitAtomic {batch : IndexAtomicBatch} (admissible : batch.Admissible) :
    Leaves (commitAtomic batch) Anchors := by
  refine leaves_bind leaves_turn (fun given world => ?_)
  simp only [delivers_bind,delivers_get,delivers_set,delivers_lift]
  refine ⟨fun _ _ scheduled => ⟨scheduled,?_⟩,fun _ _ scheduled => ⟨scheduled,?_⟩⟩
  all_goals exact admissible.commit_anchors world.index .buffer _

end calls

end SharedIndex

open SharedIndex in
theorem commitCleanupKeys_anchors (keys : List Bytes) (deletingMeta : Bool) (progress : DescriptorCleanupProgress) :
    Leaves (commitCleanupKeys keys deletingMeta progress) SharedIndex.Anchors := by
  unfold commitCleanupKeys
  split
  · exact leaves_pure _
  · rename_i present
    refine leaves_bind leaves_stopRequested (fun stopped => ?_)
    split
    · exact leaves_pure _
    · refine leaves_bind (leaves_reading _).mapError (fun _ world => ?_)
      refine delivers_bind.mpr (delivers_lift.mpr ⟨?_,fun _ _ => Anchors.refl world⟩)
      intro batch built
      have admissible := cleanupBatch_admissible (by simpa using present) built
      exact leaves_bind (leaves_commitAtomic admissible).mapError (fun _ => leaves_bind (leaves_lift _) (fun _ =>
        leaves_pure _)) world

section cleanup
open SharedIndex

theorem commitPending_anchors (state : CleanupState) : Leaves (commitPending state) SharedIndex.Anchors := by
  refine leaves_bind (commitCleanupKeys_anchors _ _ _) (fun outcome => ?_)
  cases outcome <;> exact leaves_pure _

theorem flushCleanupTransaction_anchors (state : CleanupState) :
    Leaves (flushCleanupTransaction state) SharedIndex.Anchors := by
  refine leaves_bind (commitPending_anchors state) (fun state => leaves_bind leaves_stopRequested (fun stopped => ?_))
  split
  · exact leaves_pure _
  · unfold deleteMeta
    split
    · exact leaves_pure _
    · refine leaves_bind (leaves_reading _).mapError (fun _ => leaves_bind (commitCleanupKeys_anchors _ _ _)
        (fun outcome => ?_))
      cases outcome <;> exact leaves_pure _

theorem leaveTransaction_anchors (state : CleanupState) (commitSeq : Nat) :
    Leaves (leaveTransaction state commitSeq) SharedIndex.Anchors := by
  unfold leaveTransaction
  split
  · refine leaves_bind (flushCleanupTransaction_anchors state) (fun state => leaves_bind leaves_stopRequested
      (fun stopped => ?_))
    split <;> exact leaves_pure _
  · exact leaves_pure _

theorem takeEntry_anchors (state : CleanupState) (key : Bytes) (kind : CleanupKeyKind) :
    Leaves (takeEntry state key kind) SharedIndex.Anchors := by
  cases kind with
  | metadata => exact leaves_bind (leaves_lift _) (fun _ => leaves_pure _)
  | mutation ordinal =>
    refine leaves_bind (leaves_lift _) (fun _ => leaves_bind (leaves_lift _) (fun _ => leaves_bind
      (leaves_reading _).mapError (fun _ => ?_)))
    dsimp only
    split
    · exact commitPending_anchors _
    · exact leaves_pure _

theorem cleanEntries_anchors (capturedDurableSeq : Nat) (entries : List (Bytes × Bytes)) (state : CleanupState) :
    Leaves (cleanEntries capturedDurableSeq entries state) SharedIndex.Anchors := by
  induction entries generalizing state with
  | nil => exact leaves_bind (flushCleanupTransaction_anchors state) (fun _ => leaves_pure _)
  | cons entry rest ih =>
    refine leaves_bind leaves_stopRequested (fun stopped => ?_)
    split
    · exact leaves_pure _
    · refine leaves_bind (leaves_bind (leaves_reading _).mapError (fun _ => leaves_bind (leaves_lift _) (fun _ =>
        leaves_bind (leaves_lift _) (fun _ => leaves_pure _)))) (fun decoded => ?_)
      refine leaves_bind (leaveTransaction_anchors state decoded.1) (fun left => ?_)
      obtain ⟨stopped,left⟩ := left
      cases stopped with
      | true => exact leaves_pure _
      | false => exact leaves_bind (takeEntry_anchors _ _ _) ih

theorem cleanupDescriptorsOnce_anchors : Leaves cleanupDescriptorsOnce SharedIndex.Anchors := by
  refine leaves_bind (leaves_reading _).mapError (fun recoveryState => ?_)
  split
  · exact leaves_pure _
  · refine leaves_bind (leaves_bind (leaves_reading _).mapError (fun _ => leaves_bind (leaves_lift _) (fun _ =>
      leaves_bind (leaves_lift _) (fun _ => leaves_pure _)))) (fun captured => leaves_bind leaves_stopRequested
      (fun stopped => ?_))
    split
    · exact leaves_pure _
    · exact leaves_bind (leaves_lift _) (fun _ => leaves_bind (leaves_reading _).mapError (fun _ =>
        cleanEntries_anchors _ _ _))

end cleanup

-- The index over the life of a database: its commits and barriers under any answer, whole recoveries and
-- whole cleanups beside them, each of them finished or failed anywhere. A crash goes back to an index
-- that an earlier part of the run had.
inductive DatabaseRun (first : Index) : Index → Prop
  | start : DatabaseRun first first
  | commit {index : Index} {batch : IndexAtomicBatch} {mode : IndexCommitMode} (fault : Option CommitFault)
      (earlier : DatabaseRun first index) (produced : Produced batch mode) :
      DatabaseRun first (index.commitAtomic batch mode fault).2
  | recovery {storage reached : Storage} {format : FormatMetadata} {plan : RecoveryPlan}
      (earlier : DatabaseRun first storage.index)
      (ran : (∃ recovered, executeRecovery format plan storage = .ok recovered reached) ∨
        ∃ error, executeRecovery format plan storage = .error error reached) : DatabaseRun first reached.index
  | cleanup {world reached : SharedIndex} (earlier : DatabaseRun first world.index)
      (writers : ∀ turn ∈ world.schedule, ∀ batch ∈ turn.1, ∃ mode, Produced batch mode)
      (ran : (∃ progress, cleanupDescriptorsOnce world = .ok progress reached) ∨
        ∃ error, cleanupDescriptorsOnce world = .error error reached) : DatabaseRun first reached.index

theorem DatabaseRun.anchors {first index : Index} (run : DatabaseRun first index) : first.Anchors index := by
  induction run with
  | start => exact .refl first
  | @commit index batch mode fault earlier produced ih =>
    exact ih.trans (produced.admissible.commit_anchors index mode fault)
  | @recovery storage reached format plan earlier ran ih =>
    have leaves := executeRecovery_anchors format plan storage
    rcases ran with ⟨recovered,ran⟩ | ⟨error,ran⟩
    · exact ih.trans (leaves.of_ok ran)
    · exact ih.trans (leaves.of_error ran)
  | @cleanup world reached earlier writers ran ih =>
    have leaves := cleanupDescriptorsOnce_anchors world
    have scheduled : ∀ turn ∈ world.schedule, ∀ batch ∈ turn.1, batch.Admissible := by
      intro turn member batch there
      obtain ⟨mode,produced⟩ := writers turn member batch there
      exact produced.admissible
    rcases ran with ⟨progress,ran⟩ | ⟨error,ran⟩
    · exact ih.trans (leaves.of_ok ran scheduled).2
    · exact ih.trans (leaves.of_error ran scheduled).2

theorem initialized_system {uuid : Uuid} {batch : IndexAtomicBatch} (built : initializationBatch 0 uuid = .ok batch) :
    (Index.empty.apply batch).system[databaseIdentityKey]? =
        some (appendCrc (databaseIdentityMagic ++ [0,0] ++ leBytes 4 0 ++ uuid.val ++ [0,0])) ∧
      (Index.empty.apply batch).system[headSeqKey]? = some (List.replicate 8 0) ∧
      (Index.empty.apply batch).system[durableFrontierKey]? =
        some (appendCrc (durableFrontierMagic ++ List.replicate 31 0)) := by
  simp only [initializationBatch,bind_ok,exists_unit,rejectIf_ok,pure_ok,Except.ok.injEq] at built
  obtain ⟨-,-,rfl⟩ := built
  refine ⟨?_,?_,?_⟩
  · exact Index.get_apply Index.empty _ (.internal .system,databaseIdentityKey)
  · exact Index.get_apply Index.empty _ (.internal .system,headSeqKey)
  · exact Index.get_apply Index.empty _ (.internal .system,durableFrontierKey)

-- Every batch of the program passes the guard; what passes the guard is the first batch on an empty index
-- or leaves the identity alone; so no run changes the identity or removes head or frontier.
theorem identity_written_once :
    (∀ batch mode, Produced batch mode → batch.validateForCommit mode = .ok ()) ∧
    (∀ (index : Index) batch mode fault,
      (index.commitAtomic batch mode fault).1 = .ok () ∨ (index.commitAtomic batch mode fault).2 ≠ index →
      (∃ uuid, initializationBatch 0 uuid = .ok batch) ∧ mode = .syncAll ∧ index = Index.empty ∨
        ∀ mutation ∈ batch, mutation.write.1 ≠ (.internal .system,databaseIdentityKey)) ∧
    ∀ uuid batch index, initializationBatch 0 uuid = .ok batch → DatabaseRun (Index.empty.apply batch) index →
      index.system[databaseIdentityKey]? =
        some (appendCrc (databaseIdentityMagic ++ [0,0] ++ leBytes 4 0 ++ uuid.val ++ [0,0])) ∧
      index.system[headSeqKey]? ≠ none ∧ index.system[durableFrontierKey]? ≠ none ∧
      ∀ produced mode, Produced produced mode →
        index.commitAtomic produced mode none = (.ok (),index.apply produced) := by
  refine ⟨fun batch mode produced => produced.admissible.ordinary.validates mode,
    fun index batch mode fault accepted => Index.commitAtomic_guarded accepted,?_⟩
  intro uuid batch index built run
  obtain ⟨identity,head,frontier⟩ := initialized_system built
  have anchors := run.anchors
  have named := anchors.identity.trans identity
  refine ⟨named,anchors.head (by simp [head]),anchors.frontier (by simp [frontier]),?_⟩
  intro produced mode made
  exact made.admissible.ordinary.commit mode none (by simp [named])

end runs

theorem identity_written_once_started :
    ∃ batch produced, @initializationBatch castagnoli 0 ⟨List.replicate 16 1,rfl⟩ = .ok batch ∧
      deleteRecoveryStateBatch = .ok produced ∧
      @Index.commitAtomic castagnoli (Index.empty.apply batch) produced .syncAll none =
        (.ok (),(Index.empty.apply batch).apply produced) := by
  have succeeds : (@initializationBatch castagnoli 0 ⟨List.replicate 16 1,rfl⟩).toOption.isSome = true := by
    decide +kernel
  obtain ⟨batch,built⟩ := ok_of_isSome succeeds
  have deletes := deleteRecoveryStateBatch_ok.1
  let plan : RecoveryPlan := ⟨[],⟨0,0,none⟩,0,0,0,none,none,none,[],none,false,false,false⟩
  have produced : @Produced castagnoli [.deleteInternal .system recoveryStateKey] .syncAll :=
    @Produced.recovery castagnoli plan _ (@RecoveryBuilt.delete castagnoli plan _ deletes)
  have once := (@identity_written_once castagnoli).2.2 _ batch _ built (@DatabaseRun.start castagnoli _)
  exact ⟨batch,_,built,deletes,once.2.2.2 _ _ produced⟩

end ExpirKv
