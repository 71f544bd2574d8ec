import ExpirKv.Recovery.Envelope
import ExpirKv.Recovery.UndoFacts

namespace ExpirKv
open Storage VLogGeometry

section checked
variable [Crc32c]

section widths

theorem appendOperations_fits {databaseUuid txUuid : Uuid} {commitSeq opIndex : Nat} {geometry : VLogGeometry}
    {operations : List LogicalOperation} {placements : List RecordPlacement} {chunks : List PhysicalChunk}
    {pointers : List (Option ValuePointer)}
    (appended : appendOperations databaseUuid commitSeq txUuid geometry opIndex operations placements =
      .ok (chunks,pointers)) : ∀ pointer ∈ pointers, StateFits pointer := by
  induction operations generalizing opIndex placements chunks pointers with
  | nil =>
    simp only [appendOperations,Except.ok.injEq,Prod.mk.injEq] at appended
    obtain ⟨-,rfl⟩ := appended
    simp
  | cons operation operations ih =>
    cases placements with
    | nil => cases appended
    | cons placement placements =>
      simp only [appendOperations,bind_ok,pure_ok,Except.ok.injEq,Prod.mk.injEq] at appended
      obtain ⟨⟨bytes,pointer⟩,encoded,first,-,⟨later,more⟩,rest,-,rfl⟩ := appended
      rw [List.forall_mem_cons]
      refine ⟨?_,ih rest⟩
      cases operation with
      | put key value =>
        simp only [encodeOperation,bind_ok,exists_unit,rejectIf_ok,pure_ok,Except.ok.injEq,Prod.mk.injEq] at encoded
        obtain ⟨_,-,offset,-,-,rfl⟩ := encoded
        intro found present
        obtain rfl := Option.mem_some_iff.mp present
        simp only
        omega
      | delete key =>
        simp only [encodeOperation,bind_ok,pure_ok,Except.ok.injEq,Prod.mk.injEq] at encoded
        obtain ⟨_,-,-,rfl⟩ := encoded
        intro found present
        cases present

-- The fields of an envelope that a descriptor stores fit their widths in every geometry.
theorem prepareEnvelope_fits {planner next : LayoutPlanner} {databaseUuid txUuid : Uuid} {commitSeq : Nat}
    {operations : List LogicalOperation} {envelope : PreparedEnvelope}
    (prepared : prepareEnvelope planner databaseUuid commitSeq txUuid operations = .ok (envelope,next)) :
    envelope.envelopeCrc32c < 4294967296 ∧ ∀ pointer ∈ envelope.valuePointers, StateFits pointer := by
  simp only [prepareEnvelope,bind_ok,exists_unit,mapError_ok,rejectIf_ok,orError_ok,pure_ok,Except.ok.injEq,
    Prod.mk.injEq] at prepared
  obtain ⟨_,_,_,_,_,_,_,_,_,_,_,checksum,finished,_,_,_,_,_,_,⟨chunks,pointers⟩,appended,_,_,_,_,_,_,rfl,_⟩ := prepared
  exact ⟨EnvelopeCrc32c.finishWithFooter_lt finished,appendOperations_fits appended⟩

variable {write : ValidatedWrite} {headSeq : Nat} {vlogContext : Option VlogContext} {stored : Bytes → Option Bytes}
  {commit : PreparedCommit} {descriptor : TransactionDescriptor}

theorem Prepares.envelopeFits (prepares : Prepares write headSeq vlogContext stored commit descriptor) :
    ∀ envelope ∈ commit.envelope, envelope.envelopeCrc32c < 4294967296 ∧
      ∀ pointer ∈ envelope.valuePointers, StateFits pointer := by
  intro envelope present
  have prepared := prepares.envelope
  rw [Option.mem_def.mp present] at prepared
  obtain ⟨-,context,-,next,prepared⟩ := prepareCommitEnvelope_some prepared
  exact prepareEnvelope_fits prepared

theorem Prepares.afterFits (prepares : Prepares write headSeq vlogContext stored commit descriptor)
    {mutation : TxMutation} (member : mutation ∈ descriptor.mutations) : StateFits mutation.afterState := by
  obtain ⟨place,written,-⟩ := lastValue_place (prepares.after mutation member)
  simp only [operationWrites,envelopeWrites,List.getElem?_zip_eq_some] at written
  have there := List.mem_of_getElem? written.2
  unfold operationStates at there
  cases present : commit.envelope with
  | some envelope =>
    rw [present] at there
    exact (prepares.envelopeFits envelope present).2 _ there
  | none =>
    rw [present] at there
    rw [List.eq_of_mem_replicate there]
    intro pointer none
    cases none

theorem Prepares.fits (prepares : Prepares write headSeq vlogContext stored commit descriptor) : descriptor.Fits := by
  have bound := prepares.bound
  have counted := write.counted
  refine ⟨?_,?_,?_,fun mutation member => ⟨(prepares.before mutation member).2,prepares.afterFits member⟩⟩
  · rw [prepares.described]
    exact bound
  · rw [prepares.described]
    simp only [commitTxMeta]
    omega
  · rw [prepares.described]
    simp only [commitTxMeta]
    cases present : commit.envelope with
    | none => simp
    | some envelope => exact (prepares.envelopeFits envelope present).1

end widths

section transacts

omit [Crc32c] in
theorem encodeMutations_each {commitSeq ordinal : Nat} {seen : List Bytes} {mutations : List TxMutation}
    {encoded : List EncodedMutation} (written : encodeMutations commitSeq ordinal seen mutations = .ok encoded) :
    ∀ mutation ∈ mutations, ∃ value, encodeTxMutation mutation = .ok value := by
  induction mutations generalizing ordinal seen encoded with
  | nil => simp
  | cons mutation rest ih =>
    simp only [encodeMutations,bind_ok,exists_unit,rejectIf_ok,pure_ok,Except.ok.injEq] at written
    obtain ⟨-,-,-,value,valued,later,done,-⟩ := written
    rw [List.forall_mem_cons]
    exact ⟨⟨value,valued⟩,ih done⟩

omit [Crc32c] in
theorem encodeTxMutation_facts {mutation : TxMutation} {value : Bytes} (written : encodeTxMutation mutation = .ok value) :
    mutation.userKey ≠ [] ∧ ∀ pointer : ValuePointer,
      pointer ∈ mutation.beforeState ∨ pointer ∈ mutation.afterState → pointer.validateFields = .ok () := by
  simp only [encodeTxMutation,bind_ok,exists_unit,rejectIf_ok,validateUserKey,pure_ok,Except.ok.injEq,
    List.isEmpty_iff] at written
  obtain ⟨key,-,-,-,before,beforeWritten,after,afterWritten,-⟩ := written
  have each : ∀ {state : Option ValuePointer} {bytes : Bytes}, encodeValueState state = .ok bytes →
      ∀ pointer ∈ state, pointer.validateFields = .ok () := by
    intro state bytes encodes pointer present
    obtain rfl := Option.mem_def.mp present
    simp only [encodeValueState,bind_ok,pure_ok,Except.ok.injEq] at encodes
    obtain ⟨encoded,encodes,-⟩ := encodes
    exact (ValuePointer.encode_bytes.mp encodes).1
  refine ⟨fun empty => key (.inl empty),?_⟩
  rintro pointer (present | present)
  · exact each beforeWritten pointer present
  · exact each afterWritten pointer present

variable {write : ValidatedWrite} {headSeq : Nat} {vlogContext : Option VlogContext}
  {commit : PreparedCommit} {descriptor : TransactionDescriptor} {before : Index}

-- A prepared commit is a transaction on the index it was prepared from.
theorem Prepares.transacts
    (prepares : Prepares write headSeq vlogContext (fun key => before.user[key]?) commit descriptor)
    (below : before.transaction.Below (headSeq + 1)) :
    ∃ encoded crc, encodeDescriptor descriptor = .ok encoded ∧
      commit.indexBatch = commitBatch descriptor.mutations encoded (headSeq + 1) ∧
      Transacts before (before.apply commit.indexBatch) encoded (descriptor.sealed crc) := by
  obtain ⟨encoded,written,batch⟩ := prepares.batch
  obtain ⟨crc,stores⟩ := encodeDescriptor_stores written prepares.fits
  have writes := commitBatch_writes descriptor.mutations encoded (headSeq + 1)
  have each : ∀ mutation ∈ descriptor.mutations, ∃ value, encodeTxMutation mutation = .ok value := by
    simp only [encodeDescriptor,bind_ok,exists_unit,rejectIf_ok,pure_ok,Except.ok.injEq,not_not,ne_eq] at written
    obtain ⟨-,-,-,mutations,encodes,-⟩ := written
    exact encodeMutations_each encodes
  have seq : (descriptor.sealed crc).txMeta.commitSeq = headSeq + 1 := by
    simp only [TransactionDescriptor.sealed,prepares.described,commitTxMeta]
  refine ⟨encoded,crc,written,batch,stores,?_,?_,?_,?_,?_,?_,?_⟩
  · rw [show (descriptor.sealed crc).mutations = descriptor.mutations from rfl,prepares.keys]
    exact write.distinct
  · intro mutation member
    obtain ⟨value,encodes⟩ := each mutation member
    exact (encodeTxMutation_facts encodes).1
  · intro mutation member
    obtain ⟨value,encodes⟩ := each mutation member
    exact (encodeTxMutation_facts encodes).2
  · intro mutation member
    exact (prepares.before mutation member).1.symm
  · rw [seq]
    exact below
  · intro key
    rw [batch]
    exact writes.user before key
  · intro key
    rw [batch]
    exact writes.transaction before key

theorem Transacts.above {after : Index} {encoded : EncodedDescriptor}
    (transacts : Transacts before after encoded descriptor)
    (room : descriptor.txMeta.commitSeq + 1 < 18446744073709551616) :
    after.transaction.Below (descriptor.txMeta.commitSeq + 1) := by
  intro key value found
  rcases (transacts.transaction.found transacts.stores.ordered).mp found with member | ⟨-,old⟩
  · obtain ⟨rest,keyed⟩ := transacts.stores.key member
    simp only at keyed
    rw [keyed,txKey_compare rest transacts.stores.seq room]
    omega
  · have lower := transacts.below key value old
    have step := txKeyHead_lt room (Nat.lt_succ_self descriptor.txMeta.commitSeq)
    exact Std.TransCmp.lt_trans lower step

end transacts

section history

-- An index at rest: its head, and no transaction above it.
structure Index.Settled (index : Index) (headSeq : Nat) : Prop where
  fits : headSeq < 18446744073709551616
  head : index.system[headSeqKey]? = some (encodeHeadSeq headSeq)
  identified : index.system[databaseIdentityKey]? ≠ none
  below : headSeq + 1 < 18446744073709551616 → index.transaction.Below (headSeq + 1)

def indexAfter (first : Index) (commits : List PreparedCommit) : Index :=
  commits.foldl (fun index commit => index.apply commit.indexBatch) first

-- Commits, each prepared from the index its predecessors left.
inductive Commits (first : Index) (durableSeq : Nat) : List PreparedCommit → Prop
  | nil : Commits first durableSeq []
  | snoc {commits : List PreparedCommit} {write : ValidatedWrite} {vlogContext : Option VlogContext}
      {uuidSource : Except IoError Uuid} {allocated : Bool} {commit : PreparedCommit}
      (earlier : Commits first durableSeq commits)
      (prepared : prepareCommit write (durableSeq + commits.length) vlogContext
        (fun key => .ok (indexAfter first commits).user[key]?) uuidSource allocated = .ok commit) :
      Commits first durableSeq (commits ++ [commit])

omit [Crc32c] in
theorem indexAfter_snoc (first : Index) (commits : List PreparedCommit) (commit : PreparedCommit) :
    indexAfter first (commits ++ [commit]) = (indexAfter first commits).apply commit.indexBatch := by
  simp [indexAfter]

theorem prepareCommit_prepares {write : ValidatedWrite} {headSeq : Nat} {vlogContext : Option VlogContext}
    {stored : Bytes → Option Bytes} {uuidSource : Except IoError Uuid} {allocated : Bool} {commit : PreparedCommit}
    (prepared : prepareCommit write headSeq vlogContext (fun key => .ok (stored key)) uuidSource allocated = .ok commit) :
    ∃ descriptor, Prepares write headSeq vlogContext stored commit descriptor := by
  obtain ⟨⟨_,descriptor⟩,described,rfl⟩ := map_ok.mp prepared
  exact ⟨descriptor,prepareDescribed_ok described (fun key value found => (Except.ok.inj found).symm)⟩

theorem Prepares.batchOrdinary {write : ValidatedWrite} {headSeq : Nat} {vlogContext : Option VlogContext}
    {stored : Bytes → Option Bytes} {commit : PreparedCommit} {descriptor : TransactionDescriptor}
    (prepares : Prepares write headSeq vlogContext stored commit descriptor) :
    IndexAtomicBatch.Ordinary commit.indexBatch := by
  refine ⟨?_,prepares.ordinary⟩
  obtain ⟨encoded,-,batch⟩ := prepares.batch
  rw [batch]
  simp [commitBatch]

-- One commit moves the head up by one and keeps the rest of the system keyspace.
theorem Prepares.settled {write : ValidatedWrite} {headSeq : Nat} {vlogContext : Option VlogContext}
    {commit : PreparedCommit} {descriptor : TransactionDescriptor} {before : Index}
    (prepares : Prepares write headSeq vlogContext (fun key => before.user[key]?) commit descriptor)
    (settled : before.Settled headSeq) :
    (before.apply commit.indexBatch).Settled (headSeq + 1) := by
  obtain ⟨encoded,crc,-,batch,transacts⟩ := prepares.transacts (settled.below prepares.bound)
  have writes := commitBatch_writes descriptor.mutations encoded (headSeq + 1)
  refine ⟨prepares.bound,?_,?_,?_⟩
  · rw [batch]
    exact (writes.system before headSeqKey).trans rfl
  · rw [prepares.batchOrdinary.identity]
    exact settled.identified
  · intro room
    have seq : (descriptor.sealed crc).txMeta.commitSeq = headSeq + 1 := by
      simp only [TransactionDescriptor.sealed,prepares.described,commitTxMeta]
    rw [←seq]
    exact transacts.above (seq ▸ room)

theorem Transacted.receives {first last : Index} {chain : List (EncodedDescriptor × TransactionDescriptor)}
    (history : Transacted first chain last) : first.transaction.Receives last.transaction (storedEntries chain) := by
  induction history with
  | nil => intro key; rfl
  | snoc earlier step ih =>
    intro key
    rw [step.transaction key,ih key]
    simp only [storedEntries,List.flatMap_append,List.flatMap_cons,List.flatMap_nil,List.append_nil,List.map_append,
      lastValue_append]
    cases lastValue (List.map (fun entry => (entry.1,some entry.2)) (EncodedDescriptor.entries _)) key <;> rfl

-- The transactions of a history, and those behind each of its points.
theorem Commits.transacted {first : Index} {durableSeq : Nat} {commits : List PreparedCommit}
    (history : Commits first durableSeq commits) (settled : first.Settled durableSeq) :
    (indexAfter first commits).Settled (durableSeq + commits.length) ∧
      ∃ chain : List (EncodedDescriptor × TransactionDescriptor), chain.length = commits.length ∧
        StoredFrom (durableSeq + 1) chain ∧
        ∀ point ≤ commits.length,
          Transacted (indexAfter first (commits.take point)) (chain.drop point) (indexAfter first commits) := by
  induction history with
  | nil =>
    refine ⟨settled,[],rfl,trivial,?_⟩
    intro point bound
    obtain rfl : point = 0 := by simpa using bound
    exact .nil first
  | @snoc commits write vlogContext uuidSource allocated commit earlier prepared ih =>
    obtain ⟨here,chain,sized,stored,points⟩ := ih
    obtain ⟨descriptor,prepares⟩ := prepareCommit_prepares prepared
    obtain ⟨encoded,crc,-,-,transacts⟩ := prepares.transacts (here.below prepares.bound)
    have seq : (descriptor.sealed crc).txMeta.commitSeq = durableSeq + 1 + chain.length := by
      simp only [TransactionDescriptor.sealed,prepares.described,commitTxMeta]
      omega
    rw [indexAfter_snoc,List.length_append,List.length_singleton]
    refine ⟨prepares.settled here,chain ++ [(encoded,descriptor.sealed crc)],by simp [sized],?_,?_⟩
    · exact StoredFrom.append.mpr ⟨stored,transacts.stores,seq,trivial⟩
    · intro point bound
      by_cases inside : point ≤ commits.length
      · rw [List.take_append_of_le_length inside,List.drop_append_of_le_length (by omega)]
        exact (points point inside).snoc transacts
      · obtain rfl : point = commits.length + 1 := by omega
        rw [List.take_of_length_le (by simp),List.drop_of_length_le (by simp [sized]),indexAfter_snoc]
        exact .nil _

omit [Crc32c] in
theorem putSystem_writes (key value : Bytes) :
    IndexAtomicBatch.Writes [.putInternal .system key value] [] [] [(key,some value)] := rfl

theorem loadUnstableDescriptors_last {storage : Storage} {durableSeq headSeq : Nat}
    {post : List TransactionDescriptor → Storage → Prop} {fail : StorageError → Storage → Prop}
    (last : durableSeq + 1 ≥ 18446744073709551616) (ordered : durableSeq ≤ headSeq) (good : post [] storage) :
    Delivers (loadUnstableDescriptors durableSeq headSeq) storage post fail := by
  have range : unstableDescriptorRange durableSeq headSeq = .ok none := by
    rw [unstableDescriptorRange,rejectIf_false (by omega),ok_bind,if_pos last,pure_ok]
  rw [loadUnstableDescriptors,delivers_bind,delivers_lift,range]
  refine ⟨?_,fun error failed => by cases failed⟩
  intro found same
  obtain rfl := Except.ok.inj same
  exact good

theorem Commits.load {first : Index} {durableSeq : Nat} {commits : List PreparedCommit} {storage : Storage}
    {chain : List (EncodedDescriptor × TransactionDescriptor)} (settled : first.Settled durableSeq)
    (history : Transacted first chain (indexAfter first commits)) (stored : StoredFrom (durableSeq + 1) chain)
    (honest : storage.Honest) (same : storage.index.transaction = (indexAfter first commits).transaction) :
    loadUnstableDescriptors durableSeq (durableSeq + chain.length) storage = .ok (chain.map Prod.snd) storage := by
  have delivers : Delivers (loadUnstableDescriptors durableSeq (durableSeq + chain.length)) storage
      (fun descriptors reached => descriptors = chain.map Prod.snd ∧ reached = storage) (fun _ _ => False) := by
    by_cases room : durableSeq + 1 < 18446744073709551616
    · exact stored.load (same ▸ history.receives) (settled.below room) room honest ⟨rfl,rfl⟩
    · have none : chain = [] := by
        cases chain with
        | nil => rfl
        | cons first chain =>
          obtain ⟨stores,seq,-⟩ := stored
          have fits := stores.seq
          omega
      subst none
      exact loadUnstableDescriptors_last (by omega) (by simp) ⟨rfl,rfl⟩
  obtain ⟨_,_,ran,rfl,rfl⟩ := delivers.returns
  exact ran

-- The undo of a commit restores the index the commit was prepared from.
theorem undoes_commit {before : Index} {headSeq : Nat} {write : ValidatedWrite} {vlogContext : Option VlogContext}
    {uuidSource : Except IoError Uuid} {allocated : Bool} {commit : PreparedCommit} {storage : Storage}
    (settled : before.Settled headSeq)
    (prepared : prepareCommit write headSeq vlogContext (fun key => .ok before.user[key]?) uuidSource allocated =
      .ok commit)
    (honest : storage.Honest) (same : storage.index = before.apply commit.indexBatch) :
    ∃ descriptor loaded,
      loadUnstableDescriptors headSeq (headSeq + 1) storage = .ok [descriptor] storage ∧
      loadDescriptor descriptor storage = .ok loaded storage ∧ loaded.descriptor = descriptor ∧
      validateCurrentAfterStates descriptor storage = .ok () storage ∧
      ∀ state : RecoveryState, state.validate = .ok () → state.nextUndoSeq = headSeq →
        ∃ batch, buildUndoBatch loaded state = .ok batch ∧
          commitRecoveryBatch batch storage = .ok () (storage.committed batch .syncAll) ∧
          (storage.index.apply batch).user = before.user ∧
          (storage.index.apply batch).transaction = before.transaction ∧
          (storage.index.apply batch).system[headSeqKey]? = some (encodeHeadSeq headSeq) := by
  obtain ⟨descriptor,prepares⟩ := prepareCommit_prepares prepared
  obtain ⟨encoded,crc,-,-,transacts⟩ := prepares.transacts (settled.below prepares.bound)
  have seq : (descriptor.sealed crc).txMeta.commitSeq = headSeq + 1 := by
    simp only [TransactionDescriptor.sealed,prepares.described,commitTxMeta]
  have one : Transacted before [(encoded,descriptor.sealed crc)] (indexAfter before [commit]) :=
    (Transacted.nil before).snoc transacts
  have loads := Commits.load settled one ⟨transacts.stores,seq,trivial⟩ honest (by rw [same]; rfl)
  have scanned : storage.index.transaction.scan (seqRange (descriptor.sealed crc).txMeta.commitSeq) =
      encoded.entries := by
    rw [same]
    exact transacts.stores.scan transacts.transaction transacts.below
  obtain ⟨loaded,_,loadRan,rfl,keptLoad⟩ := (loadDescriptor_delivers transacts.stores honest scanned ⟨rfl,rfl⟩ :
    Delivers (loadDescriptor (descriptor.sealed crc)) storage (fun loaded reached => loaded =
      ⟨descriptor.sealed crc,(encoded.metaKey,encoded.metaValue),encoded.mutations.map EncodedMutation.entry⟩ ∧
      reached = storage) (fun _ _ => False)).returns
  obtain ⟨_,_,validRan,keptValid⟩ := (validateCurrentAfterStates_delivers transacts honest (by rw [same]) :
    Delivers (validateCurrentAfterStates (descriptor.sealed crc)) storage (fun _ reached => reached = storage)
      (fun _ _ => False)).returns
  rw [keptLoad] at loadRan
  rw [keptValid] at validRan
  refine ⟨_,_,loads,loadRan,rfl,validRan,?_⟩
  rintro state valid rfl
  obtain ⟨bytes,encodes⟩ := RecoveryState.encode_ok valid
  have present := RecoveryState.encode_present encodes
  obtain ⟨built,ordinary⟩ := transacts.undoable.batch_eq encodes present
  have writes := undoBatch_writes (descriptor.sealed crc) encoded state.nextUndoSeq bytes
  have identified : storage.index.system[databaseIdentityKey]? ≠ none := by
    rw [same]
    exact (prepares.settled settled).identified
  refine ⟨_,built,?_,?_,?_,?_⟩
  · obtain ⟨_,_,ran,rfl⟩ := ((delivers_commitAtomic_honest honest ordinary identified).mpr rfl :
      Delivers (commitAtomic (undoBatch (descriptor.sealed crc) encoded state.nextUndoSeq bytes) .syncAll) storage
        (fun _ reached => reached = storage.committed _ .syncAll) (fun _ _ => False)).returns
    simp only [commitRecoveryBatch,Eff.mapError,ran]
  · apply Keyspace.ext_getElem?
    intro key
    rw [writes.user,same]
    exact transacts.restoresUser key
  · apply Keyspace.ext_getElem?
    intro key
    rw [writes.transaction,same]
    exact transacts.restoresTransaction (lastValue_deletions encoded) key
  · exact (writes.system storage.index headSeqKey).trans rfl

-- The undo of the last transactions of a history restores the index the others left.
theorem undoes_commits {first : Index} {durableSeq targetSeq : Nat} {commits : List PreparedCommit}
    {state : RecoveryState} {encoded : Bytes} {storage : Storage} (settled : first.Settled durableSeq)
    (history : Commits first durableSeq commits) (lower : durableSeq ≤ targetSeq)
    (upper : targetSeq ≤ durableSeq + commits.length) (valid : state.validate = .ok ()) (phase : state.phase = .undo)
    (target : state.targetSeq = targetSeq) (next : state.nextUndoSeq = durableSeq + commits.length)
    (encodes : state.encode = .ok encoded) (honest : storage.Honest)
    (same : storage.index = (indexAfter first commits).apply [.putInternal .system recoveryStateKey encoded]) :
    ∃ descriptors,
      loadUnstableDescriptors durableSeq (durableSeq + commits.length) storage = .ok descriptors storage ∧
      ∀ plan : RecoveryPlan, plan.durableFrontier.durableSeq = durableSeq → plan.descriptors = descriptors →
        ∃ reached, undoTransactions plan state storage = .ok {state with nextUndoSeq := targetSeq} reached ∧
          reached.index.user = (indexAfter first (commits.take (targetSeq - durableSeq))).user ∧
          reached.index.transaction = (indexAfter first (commits.take (targetSeq - durableSeq))).transaction ∧
          reached.index.system[headSeqKey]? = some (encodeHeadSeq targetSeq) ∧
          reached.vlog = storage.vlog := by
  subst target
  obtain ⟨last,chain,sized,stored,points⟩ := history.transacted settled
  have writes := putSystem_writes recoveryStateKey encoded
  have whole := points 0 (Nat.zero_le _)
  simp only [List.take_zero,List.drop_zero] at whole
  have user : storage.index.user = (indexAfter first commits).user := by
    apply Keyspace.ext_getElem?
    intro key
    rw [same,writes.user]
    rfl
  have transaction : storage.index.transaction = (indexAfter first commits).transaction := by
    apply Keyspace.ext_getElem?
    intro key
    rw [same,writes.transaction]
    rfl
  have system : ∀ key, storage.index.system[key]? =
      (lastValue [(recoveryStateKey,some encoded)] key).getD (indexAfter first commits).system[key]? := by
    intro key
    rw [same]
    exact writes.system _ key
  have loads := Commits.load settled whole stored honest transaction
  rw [sized] at loads
  refine ⟨_,loads,?_⟩
  intro plan durable described
  have tail := points (state.targetSeq - durableSeq) (by omega)
  have left : (chain.drop (state.targetSeq - durableSeq)).length = state.nextUndoSeq - state.targetSeq := by
    rw [List.length_drop]
    omega
  have here : Undoing (indexAfter first commits) state storage storage := by
    refine ⟨honest,user,transaction,?_,⟨encoded,encodes,?_⟩,fun _ _ _ => rfl,rfl⟩
    · rw [system,next]
      exact last.head
    · rw [system]
      rfl
  have expected : ∀ index (bound : index < (chain.drop (state.targetSeq - durableSeq)).length),
      expectedDescriptor plan (state.targetSeq + 1 + index) = .ok ((chain.drop (state.targetSeq - durableSeq))[index]).2 := by
    intro index bound
    rw [List.length_drop] at bound
    have place : state.targetSeq + 1 + index - durableSeq - 1 = state.targetSeq - durableSeq + index := by omega
    rw [expectedDescriptor,durable,rejectIf_false (by omega),ok_bind,described,place,orError_ok,List.getElem?_map,
      List.getElem?_eq_getElem (by omega),List.getElem_drop]
    rfl
  have identified : storage.index.system[databaseIdentityKey]? ≠ none := by
    rw [system]
    exact last.identified
  have undone := undoTurns_delivers tail here (by omega) phase valid expected identified
  rw [left] at undone
  obtain ⟨_,reached,ran,rfl,final⟩ := undone.returns
  exact ⟨reached,ran,final.user,final.transaction,final.head,final.vlog⟩

-- One commit, and every history back to every point of it.
theorem undo_inverts_commits :
    (∀ (before : Index) (headSeq : Nat) (write : ValidatedWrite) (vlogContext : Option VlogContext)
      (uuidSource : Except IoError Uuid) (allocated : Bool) (commit : PreparedCommit) (storage : Storage),
      before.Settled headSeq →
      prepareCommit write headSeq vlogContext (fun key => .ok before.user[key]?) uuidSource allocated = .ok commit →
      storage.Honest → storage.index = before.apply commit.indexBatch →
      ∃ descriptor loaded,
        loadUnstableDescriptors headSeq (headSeq + 1) storage = .ok [descriptor] storage ∧
        loadDescriptor descriptor storage = .ok loaded storage ∧ loaded.descriptor = descriptor ∧
        validateCurrentAfterStates descriptor storage = .ok () storage ∧
        ∀ state : RecoveryState, state.validate = .ok () → state.nextUndoSeq = headSeq →
          ∃ batch, buildUndoBatch loaded state = .ok batch ∧
            commitRecoveryBatch batch storage = .ok () (storage.committed batch .syncAll) ∧
            (storage.index.apply batch).user = before.user ∧
            (storage.index.apply batch).transaction = before.transaction ∧
            (storage.index.apply batch).system[headSeqKey]? = some (encodeHeadSeq headSeq)) ∧
    (∀ (first : Index) (durableSeq targetSeq : Nat) (commits : List PreparedCommit) (state : RecoveryState)
      (encoded : Bytes) (storage : Storage),
      first.Settled durableSeq → Commits first durableSeq commits →
      durableSeq ≤ targetSeq → targetSeq ≤ durableSeq + commits.length →
      state.validate = .ok () → state.phase = .undo → state.targetSeq = targetSeq →
      state.nextUndoSeq = durableSeq + commits.length → state.encode = .ok encoded →
      storage.Honest →
      storage.index = (indexAfter first commits).apply [.putInternal .system recoveryStateKey encoded] →
      ∃ descriptors,
        loadUnstableDescriptors durableSeq (durableSeq + commits.length) storage = .ok descriptors storage ∧
        ∀ plan : RecoveryPlan, plan.durableFrontier.durableSeq = durableSeq → plan.descriptors = descriptors →
          ∃ reached, undoTransactions plan state storage = .ok {state with nextUndoSeq := targetSeq} reached ∧
            reached.index.user = (indexAfter first (commits.take (targetSeq - durableSeq))).user ∧
            reached.index.transaction = (indexAfter first (commits.take (targetSeq - durableSeq))).transaction ∧
            reached.index.system[headSeqKey]? = some (encodeHeadSeq targetSeq) ∧
            reached.vlog = storage.vlog) := by
  refine ⟨?_,?_⟩
  · intro before headSeq write vlogContext uuidSource allocated commit storage settled prepared honest same
    exact undoes_commit settled prepared honest same
  · intro first durableSeq targetSeq commits state encoded storage settled history lower upper valid phase target next
      encodes honest same
    exact undoes_commits settled history lower upper valid phase target next encodes honest same

end history

end checked

-- Two commits that share a key are taken back to the fresh index.
theorem undo_inverts_two_commits :
    let fresh : Index := ⟨∅,∅,((∅ : Keyspace).insert databaseIdentityKey [1]).insert headSeqKey (encodeHeadSeq 0)⟩
    let state : RecoveryState := ⟨.undo,2,0,0,none,2,true⟩
    ∃ commits : List PreparedCommit, commits.length = 2 ∧ @Commits castagnoli fresh 0 commits ∧
      ∃ (plan : RecoveryPlan) (storage reached : Storage),
        @undoTransactions castagnoli plan state storage = .ok {state with nextUndoSeq := 0} reached ∧
        reached.index.user = fresh.user ∧ reached.index.transaction = fresh.transaction := by
  intro fresh state
  let database : Uuid := ⟨List.replicate 16 1,rfl⟩
  let context : Option VlogContext := some ⟨database,⟨0,0⟩,production⟩
  let uuids : Except IoError Uuid := .ok ⟨List.replicate 16 7,rfl⟩
  let prepare (write : Result ValidatedWrite) (index : Index) (headSeq : Nat) : Option PreparedCommit :=
    write.toOption.bind (fun write =>
      (@prepareCommit castagnoli write headSeq context (fun key => .ok index.user[key]?) uuids true).toOption)
  have runs : ((prepare (preflightPut [1] [2] false true) fresh 0).bind (fun first =>
      prepare (preflightBatch [.delete [1],.put [3] [4],.put [1] []] false true) (fresh.apply first.indexBatch) 1)).isSome =
        true := by decide +kernel
  have written : ∀ {result : Result ValidatedWrite} {index : Index} {headSeq : Nat} {commit : PreparedCommit},
      prepare result index headSeq = some commit → ∃ write, @prepareCommit castagnoli write headSeq context
        (fun key => .ok index.user[key]?) uuids true = .ok commit := by
    intro result index headSeq commit prepared
    obtain ⟨write,-,prepared⟩ := Option.bind_eq_some_iff.mp prepared
    cases answer : @prepareCommit castagnoli write headSeq context (fun key => .ok index.user[key]?) uuids true with
    | error error => rw [answer] at prepared; cases prepared
    | ok other =>
      rw [answer] at prepared
      obtain rfl := Option.some.inj prepared
      exact ⟨write,answer⟩
  obtain ⟨second,both⟩ := Option.isSome_iff_exists.mp runs
  obtain ⟨first,one,two⟩ := Option.bind_eq_some_iff.mp both
  obtain ⟨firstWrite,firstPrepared⟩ := written one
  obtain ⟨secondWrite,secondPrepared⟩ := written two
  have history : @Commits castagnoli fresh 0 [first,second] :=
    @Commits.snoc castagnoli fresh 0 [first] _ _ _ _ _ (@Commits.snoc castagnoli fresh 0 [] _ _ _ _ _ (@Commits.nil castagnoli fresh 0) firstPrepared)
      secondPrepared
  have settled : fresh.Settled 0 := by
    refine ⟨by decide,by simp [fresh],by simp [fresh,databaseIdentityKey,headSeqKey],?_⟩
    intro _ key value found
    simp [fresh] at found
  have valid : state.validate = .ok () := rfl
  obtain ⟨encoded,encodes⟩ := @RecoveryState.encode_ok castagnoli state valid
  let storage : Storage := ⟨(indexAfter fresh [first,second]).apply [.putInternal .system recoveryStateKey encoded],
    FileSet.empty database,[],[]⟩
  obtain ⟨descriptors,-,undo⟩ := (@undo_inverts_commits castagnoli).2 fresh 0 0 [first,second] state encoded storage
    settled history (Nat.le_refl 0) (Nat.zero_le _) valid rfl rfl rfl encodes rfl rfl
  obtain ⟨reached,ran,user,transaction,-⟩ := undo ⟨[1],⟨0,0,none⟩,2,0,0,none,none,none,descriptors,some state,true,false,
    true⟩ rfl rfl
  exact ⟨[first,second],rfl,history,_,storage,reached,ran,user,transaction⟩

end ExpirKv
