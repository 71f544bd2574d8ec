import ExpirKv.Commit.Durability
import ExpirKv.Recovery.UndoCommit

namespace ExpirKv
open VLogGeometry

section sequential
variable {ν : Type}

-- One operation on a map from keys to what stands for their values; a put stores what it was given.
def executeOperation (map : Bytes → Option ν) (step : LogicalOperation × Option ν) : Bytes → Option ν :=
  match step.1 with
  | .put key _ => Function.update map key step.2
  | .delete key => Function.update map key none

def executeOperations (map : Bytes → Option ν) (steps : List (LogicalOperation × Option ν)) : Bytes → Option ν :=
  steps.foldl executeOperation map

-- Puts have a pointer and deletes have none.
def Paired (operations : List LogicalOperation) (states : List (Option ν)) : Prop :=
  states.map Option.isSome = operations.map LogicalOperation.isPut

theorem executeOperations_writes {operations : List LogicalOperation} {states : List (Option ν)}
    (paired : Paired operations states) (map : Bytes → Option ν) :
    executeOperations map (operations.zip states) = writeAll map ((operations.map operationKey).zip states) := by
  unfold executeOperations writeAll
  induction operations generalizing states map with
  | nil => rfl
  | cons operation rest ih =>
    cases states with
    | nil => rfl
    | cons state states =>
      simp only [Paired,List.map_cons,List.cons.injEq] at paired
      have step : executeOperation map (operation,state) = Function.update map (operationKey operation) state := by
        cases operation with
        | put key value => rfl
        | delete key =>
          cases state with
          | none => rfl
          | some pointer => cases paired.1
      simp only [List.map_cons,List.zip_cons_cons,List.foldl_cons]
      rw [step]
      exact ih paired.2 _

theorem Paired.map {μ : Type} {operations : List LogicalOperation} {states : List (Option ν)} (f : ν → μ)
    (paired : Paired operations states) : Paired operations (states.map (Option.map f)) := by
  unfold Paired
  rw [←paired,List.map_map]
  apply List.map_congr_left
  intro state _
  simp

end sequential

section pairing
variable [Crc32c]

theorem appendOperations_paired {databaseUuid txUuid : Uuid} {commitSeq opIndex : Nat} {geometry : VLogGeometry}
    {operations : List LogicalOperation} {placements : List RecordPlacement} {chunks : List PhysicalChunk}
    {pointers : List (Option ValuePointer)}
    (appended : appendOperations databaseUuid commitSeq txUuid geometry opIndex operations placements =
      .ok (chunks,pointers)) : Paired operations pointers := by
  induction operations generalizing opIndex placements chunks pointers with
  | nil =>
    simp only [appendOperations,Except.ok.injEq,Prod.mk.injEq] at appended
    obtain ⟨-,rfl⟩ := appended
    rfl
  | cons operation operations ih =>
    cases placements with
    | nil => cases appended
    | cons placement placements =>
      simp only [appendOperations,bind_ok,pure_ok,Except.ok.injEq,Prod.mk.injEq] at appended
      obtain ⟨⟨bytes,pointer⟩,encoded,first,-,⟨later,more⟩,rest,-,rfl⟩ := appended
      have kind : pointer.isSome = operation.isPut := by
        cases operation with
        | put key value =>
          simp only [encodeOperation,bind_ok,exists_unit,rejectIf_ok,pure_ok,Except.ok.injEq,Prod.mk.injEq] at encoded
          obtain ⟨_,-,-,-,-,rfl⟩ := encoded
          rfl
        | delete key =>
          simp only [encodeOperation,bind_ok,pure_ok,Except.ok.injEq,Prod.mk.injEq] at encoded
          obtain ⟨_,-,-,rfl⟩ := encoded
          rfl
      unfold Paired at ih ⊢
      rw [List.map_cons,List.map_cons,kind,ih rest]

theorem prepareEnvelope_paired {planner next : LayoutPlanner} {databaseUuid txUuid : Uuid} {commitSeq : Nat}
    {operations : List LogicalOperation} {envelope : PreparedEnvelope}
    (prepared : prepareEnvelope planner databaseUuid commitSeq txUuid operations = .ok (envelope,next)) :
    Paired operations envelope.valuePointers := by
  simp only [prepareEnvelope,bind_ok,exists_unit,mapError_ok,rejectIf_ok,orError_ok,pure_ok,Except.ok.injEq,
    Prod.mk.injEq] at prepared
  obtain ⟨_,_,_,_,_,_,_,_,_,_,_,_,_,_,_,_,_,_,_,⟨chunks,pointers⟩,appended,_,_,_,_,_,_,rfl,_⟩ := prepared
  exact appendOperations_paired appended

omit [Crc32c] in
theorem ValidatedWrite.indexOnly_iff (write : ValidatedWrite) :
    write.transactionKind = .indexOnlyDelete ↔ ∀ operation ∈ write.operations, operation.isPut = false := by
  unfold transactionKind
  split
  · rename_i put
    obtain ⟨operation,member,isPut⟩ := List.any_eq_true.mp put
    constructor
    · intro other
      cases other
    · intro none
      rw [none operation member] at isPut
      cases isPut
  · rename_i none
    rw [List.any_eq_true,not_exists] at none
    refine ⟨fun _ operation member => ?_,fun _ => rfl⟩
    rw [←Bool.not_eq_true]
    exact fun isPut => none operation ⟨member,isPut⟩

theorem prepareCommitEnvelope_kind {write : ValidatedWrite} {commitSeq : Nat} {txUuid : Uuid}
    {vlogContext : Option VlogContext} {envelope : Option PreparedEnvelope}
    (prepared : prepareCommitEnvelope write commitSeq txUuid vlogContext = .ok envelope) :
    envelope = none ↔ write.transactionKind = .indexOnlyDelete := by
  cases envelope with
  | none =>
    obtain ⟨kind,-⟩ := prepareCommitEnvelope_none prepared
    exact ⟨fun _ => kind,fun _ => rfl⟩
  | some envelope =>
    obtain ⟨kind,-⟩ := prepareCommitEnvelope_some prepared
    rw [kind]
    simp

theorem prepareCommitEnvelope_paired {write : ValidatedWrite} {commitSeq : Nat} {txUuid : Uuid}
    {vlogContext : Option VlogContext} {envelope : Option PreparedEnvelope}
    (prepared : prepareCommitEnvelope write commitSeq txUuid vlogContext = .ok envelope) :
    Paired write.operations (operationStates write envelope) := by
  cases envelope with
  | none =>
    have deletes := write.indexOnly_iff.mp ((prepareCommitEnvelope_kind prepared).mp rfl)
    apply List.ext_getElem (by simp [operationStates])
    intro place first second
    simp only [operationStates,List.map_replicate,List.getElem_replicate,List.getElem_map]
    exact (deletes _ (List.getElem_mem _)).symm
  | some envelope =>
    obtain ⟨-,context,-,next,made⟩ := prepareCommitEnvelope_some prepared
    exact prepareEnvelope_paired made

end pairing

section planned
variable [Crc32c] {write : ValidatedWrite} {headSeq : Nat} {vlogContext : Option VlogContext}
  {stored : Bytes → Option Bytes} {commit : PreparedCommit} {descriptor : TransactionDescriptor}

theorem Prepares.paired (prepares : Prepares write headSeq vlogContext stored commit descriptor) :
    Paired write.operations (operationStates write commit.envelope) := prepareCommitEnvelope_paired prepares.envelope

-- The last write of an operation to a key, seen through the prepared mutations.
theorem Prepares.lastWrite (prepares : Prepares write headSeq vlogContext stored commit descriptor) (key : Bytes) :
    lastValue (stateWrites TxMutation.afterState descriptor.mutations) key =
      (lastValue (operationWrites write commit.envelope) key).map storedState := by
  have distinct : (descriptor.mutations.map TxMutation.userKey).Nodup := prepares.keys ▸ write.distinct
  by_cases known : key ∈ descriptor.mutations.map TxMutation.userKey
  · obtain ⟨mutation,member,rfl⟩ := List.mem_map.mp known
    rw [lastValue_stateWrites distinct member,prepares.after mutation member,Option.map_some]
  · have unwritten : key ∉ (operationWrites write commit.envelope).map Prod.fst := by
      rwa [operationWrites_keys prepares.states,←mem_firstOccurrences,←write.keyed,←prepares.keys]
    rw [lastValue_of_notMem unwritten,Option.map_none]
    apply lastValue_stateWrites_none
    intro mutation member same
    exact known (same ▸ List.mem_map_of_mem member)

theorem Prepares.user (prepares : Prepares write headSeq vlogContext stored commit descriptor) (index : Index)
    (key : Bytes) :
    (index.apply commit.indexBatch).user[key]? = executeOperations (fun key => index.user[key]?)
      (write.operations.zip ((operationStates write commit.envelope).map storedState)) key := by
  obtain ⟨encoded,-,batch⟩ := prepares.batch
  have writes : (write.operations.map operationKey).zip ((operationStates write commit.envelope).map storedState) =
      (operationWrites write commit.envelope).map (fun entry => (entry.1,storedState entry.2)) := by
    rw [operationWrites,envelopeWrites,List.zip_map_right]
    rfl
  have executed := executeOperations_writes (prepares.paired.map ValuePointer.bytes) (fun key => index.user[key]?)
  rw [batch,(commitBatch_writes descriptor.mutations encoded (headSeq + 1)).user index key]
  change _ = executeOperations _ (write.operations.zip ((operationStates write commit.envelope).map
    (Option.map ValuePointer.bytes))) key
  rw [executed]
  change _ = writeAll _ ((write.operations.map operationKey).zip ((operationStates write commit.envelope).map
    storedState)) key
  rw [writes,writeAll_apply,lastValue_map,prepares.lastWrite]

theorem Prepares.afterState (prepares : Prepares write headSeq vlogContext stored commit descriptor)
    {mutation : TxMutation} (member : mutation ∈ descriptor.mutations) (pointers : Bytes → Option ValuePointer) :
    mutation.afterState =
      executeOperations pointers (write.operations.zip (operationStates write commit.envelope)) mutation.userKey := by
  have last := prepares.after mutation member
  rw [executeOperations_writes prepares.paired,writeAll_apply]
  simp only [operationWrites,envelopeWrites] at last
  rw [last,Option.getD_some]

def EncodedDescriptor.puts (encoded : EncodedDescriptor) : IndexAtomicBatch :=
  encoded.entries.map (fun entry => .putInternal .transaction entry.1 entry.2)

omit [Crc32c] in
theorem commitBatch_puts (mutations : List TxMutation) (encoded : EncodedDescriptor) (commitSeq : Nat) :
    commitBatch mutations encoded commitSeq =
      mutations.map (fun mutation => stateMutation mutation.userKey mutation.afterState) ++
        (encoded.puts ++ [.putInternal .system headSeqKey (encodeHeadSeq commitSeq)]) := by
  simp [commitBatch,EncodedDescriptor.puts,EncodedDescriptor.entries,EncodedMutation.put,EncodedMutation.entry]

omit [Crc32c] in
-- Where a batch of this order writes: no place twice if the keys of each part differ.
theorem IndexAtomicBatch.Writes.targets_nodup {batch : IndexAtomicBatch}
    {users transactions systems : List (Bytes × Option Bytes)} (writes : batch.Writes users transactions systems)
    (user : (users.map Prod.fst).Nodup) (transaction : (transactions.map Prod.fst).Nodup)
    (system : (systems.map Prod.fst).Nodup) : (batch.map (fun mutation => mutation.write.1)).Nodup := by
  have each : ∀ (space : IndexSpace) (entries : List (Bytes × Option Bytes)),
      (entries.map (place space)).map Prod.fst = (entries.map Prod.fst).map (fun key => (space,key)) := by
    intro space entries
    simp [place]
  have targets : batch.map (fun mutation => mutation.write.1) = (batch.map IndexMutation.write).map Prod.fst := by
    rw [List.map_map]
    rfl
  rw [targets,writes,List.map_append,List.map_append,each,each,each]
  have keyed : ∀ space : IndexSpace, Function.Injective (fun key : Bytes => (space,key)) :=
    fun space left right same => congrArg Prod.snd same
  refine List.nodup_append.mpr ⟨user.map (keyed _),List.nodup_append.mpr ⟨transaction.map (keyed _),
    system.map (keyed _),?_⟩,?_⟩
  · intro left first right second same
    simp only [List.mem_map] at first second
    obtain ⟨_,-,rfl⟩ := first
    obtain ⟨_,-,rfl⟩ := second
    cases congrArg Prod.fst same
  · intro left first right second same
    simp only [List.mem_append,List.mem_map] at first second
    obtain ⟨_,-,rfl⟩ := first
    rcases second with ⟨_,-,rfl⟩ | ⟨_,-,rfl⟩ <;> cases congrArg Prod.fst same

theorem Prepares.encoded (prepares : Prepares write headSeq vlogContext stored commit descriptor) :
    ∃ encoded, encodeDescriptor descriptor = .ok encoded ∧ encoded.mutations.length = descriptor.mutations.length ∧
      (encoded.entries.map Prod.fst).Nodup ∧ commit.indexBatch = commitBatch descriptor.mutations encoded (headSeq + 1) := by
  obtain ⟨encoded,written,batch⟩ := prepares.batch
  obtain ⟨crc,stores⟩ := encodeDescriptor_stores written prepares.fits
  refine ⟨encoded,written,?_,Keyspace.nodup_of_ordered stores.ordered,batch⟩
  simp only [encodeDescriptor,bind_ok,exists_unit,rejectIf_ok,pure_ok,Except.ok.injEq,not_not,ne_eq] at written
  obtain ⟨-,-,-,mutations,encodes,-,-,-,-,_,-,_,-,rfl⟩ := written
  exact (encodeMutations_entry encodes).1

-- The entries of a commit and where they go; with a frontier there is one more.
theorem Prepares.targets (prepares : Prepares write headSeq vlogContext stored commit descriptor) :
    commit.indexBatch.length = 2 * write.distinctKeys.length + 2 ∧
      (commit.indexBatch.map (fun mutation => mutation.write.1)).Nodup ∧
      ∀ encodedFrontier, ((commit.indexBatch ++ [IndexMutation.putInternal .system durableFrontierKey encodedFrontier]).map
        (fun mutation => mutation.write.1)).Nodup := by
  obtain ⟨encoded,-,sized,distinct,batch⟩ := prepares.encoded
  have writes := commitBatch_writes descriptor.mutations encoded (headSeq + 1)
  have count : descriptor.mutations.length = write.distinctKeys.length := by
    rw [←prepares.keys,List.length_map]
  have users : ((stateWrites TxMutation.afterState descriptor.mutations).map Prod.fst).Nodup := by
    rw [stateWrites,List.map_map]
    exact prepares.keys ▸ write.distinct
  have transactions : ((encoded.entries.map (fun entry => (entry.1,some entry.2))).map Prod.fst).Nodup := by
    rw [List.map_map]
    exact distinct
  rw [batch]
  refine ⟨?_,writes.targets_nodup users transactions (List.nodup_singleton _),?_⟩
  · simp only [commitBatch,List.length_append,List.length_map,List.length_cons,List.length_nil]
    omega
  · intro encodedFrontier
    refine (writes.putSystem durableFrontierKey encodedFrontier).targets_nodup users transactions ?_
    change [headSeqKey,durableFrontierKey].Nodup
    decide

-- The batch of a commit is its operations executed one after another, one entry for each key they name.
theorem batch_planning_sequential {index : Index} {getUser : Bytes → Result (Option Bytes)}
    {uuidSource : Except IoError Uuid} {allocated : Bool}
    (honest : ∀ key value, getUser key = .ok value → value = index.user[key]?)
    (prepared : prepareDescribed write headSeq vlogContext getUser uuidSource allocated = .ok (commit,descriptor)) :
    (∀ key, (index.apply commit.indexBatch).user[key]? = executeOperations (fun key => index.user[key]?)
      (write.operations.zip ((operationStates write commit.envelope).map storedState)) key) ∧
    Paired write.operations (operationStates write commit.envelope) ∧
    descriptor.mutations.map TxMutation.userKey = firstOccurrences (write.operations.map operationKey) ∧
    (∃ encoded, encodeDescriptor descriptor = .ok encoded ∧ encoded.mutations.length = descriptor.mutations.length ∧
      commit.indexBatch = descriptor.mutations.map (fun mutation => stateMutation mutation.userKey mutation.afterState) ++
        (encoded.puts ++ [.putInternal .system headSeqKey (encodeHeadSeq (headSeq + 1))])) ∧
    (∀ mutation ∈ descriptor.mutations, storedState mutation.beforeState = index.user[mutation.userKey]? ∧
      ∀ pointers, mutation.afterState =
        executeOperations pointers (write.operations.zip (operationStates write commit.envelope)) mutation.userKey) ∧
    commit.indexBatch.length = 2 * (firstOccurrences (write.operations.map operationKey)).length + 2 ∧
    (commit.indexBatch.map (fun mutation => mutation.write.1)).Nodup ∧
    (∀ frontier operation room batch, addFrontierToBatch commit.indexBatch frontier operation room = .ok batch →
      batch.length = 2 * (firstOccurrences (write.operations.map operationKey)).length + 3 ∧
      (batch.map (fun mutation => mutation.write.1)).Nodup ∧
      (index.apply batch).user = (index.apply commit.indexBatch).user) ∧
    (commit.transactionKind = .indexOnlyDelete ↔ ∀ operation ∈ write.operations, operation.isPut = false) := by
  have prepares := prepareDescribed_ok prepared honest
  obtain ⟨encoded,written,sized,-,batch⟩ := prepares.encoded
  obtain ⟨count,once,frontiered⟩ := prepares.targets
  rw [write.keyed] at count
  refine ⟨prepares.user index,prepares.paired,prepares.keys.trans write.keyed,
    ⟨encoded,written,sized,batch.trans (commitBatch_puts _ _ _)⟩,?_,count,once,?_,?_⟩
  · intro mutation member
    exact ⟨(prepares.before mutation member).1,prepares.afterState member⟩
  · intro frontier operation room batch added
    obtain ⟨-,encodedFrontier,-,rfl⟩ := addFrontierToBatch_ok.mp added
    refine ⟨by rw [List.length_append,count]; rfl,frontiered encodedFrontier,?_⟩
    rw [Index.apply_append]
    rfl
  · rw [prepares.kind]
    exact write.indexOnly_iff

end planned

-- A key written three times, one that is stored and deleted, and one that is left alone.
theorem batch_planning_sequential_repeated :
    let uuid : Uuid := ⟨List.replicate 16 1,rfl⟩
    let stored := (⟨0,0,135,58,2⟩ : ValuePointer).bytes
    let index := Index.empty.apply [.putUser [2] stored,.putUser [3] stored]
    ∃ (write : ValidatedWrite) (commit : PreparedCommit) (descriptor : TransactionDescriptor),
      write.operations = [.put [1] [9],.delete [1],.delete [2],.put [1] [8]] ∧
      @prepareDescribed castagnoli write 0 (some ⟨uuid,⟨0,0⟩,production⟩) (fun key => .ok index.user[key]?) (.ok uuid)
        true = .ok (commit,descriptor) ∧
      (index.apply commit.indexBatch).user[([1] : Bytes)]?.isSome ∧
      (index.apply commit.indexBatch).user[([2] : Bytes)]? = none ∧
      (index.apply commit.indexBatch).user[([3] : Bytes)]? = some stored ∧
      descriptor.mutations.map TxMutation.userKey = [[1],[2]] ∧ commit.indexBatch.length = 6 ∧
      commit.transactionKind ≠ .indexOnlyDelete := by
  intro uuid stored index
  let operations : List LogicalOperation := [.put [1] [9],.delete [1],.delete [2],.put [1] [8]]
  let write : ValidatedWrite := ⟨operations,false,[[1],[2]],[0,0,1,0],.writeBatch,by decide,by decide,by
    simp [operations,LogicalOperation.Valid],by decide,by decide⟩
  have succeeds : (@prepareDescribed castagnoli write 0 (some ⟨uuid,⟨0,0⟩,production⟩) (fun key => .ok index.user[key]?)
      (.ok uuid) true).toOption.isSome = true := by decide +kernel
  obtain ⟨⟨commit,descriptor⟩,prepared⟩ := ok_of_isSome succeeds
  obtain ⟨executed,paired,keys,-,-,count,-,-,kind⟩ := @batch_planning_sequential castagnoli _ _ _ _ _ index _ _ _
    (fun key value same => (Except.ok.inj same).symm) prepared
  -- Whatever the pointers are: the last put of the first key stands, and nothing else is stored.
  obtain ⟨first,last,states⟩ : ∃ first last,
      operationStates write commit.envelope = [some first,none,none,some last] := by
    unfold Paired at paired
    match states : operationStates write commit.envelope,paired with
    | [some first,none,none,some last],_ => exact ⟨first,last,rfl⟩
  rw [states] at executed
  refine ⟨write,commit,descriptor,rfl,prepared,?_,?_,?_,keys.trans (by decide),count.trans (by decide),?_⟩
  · rw [executed]
    rfl
  · rw [executed]
    rfl
  · rw [executed]
    exact (show index.user[([3] : Bytes)]? = some stored by decide +kernel)
  · intro deletes
    exact absurd (kind.mp deletes) (by decide)

end ExpirKv
