import ExpirKv.Commit.Coordinated
import ExpirKv.Commit.StoredPointers

namespace ExpirKv
open VLogGeometry

section identity

-- The version bits of a stamped identity keep it from being zero, whatever the random source gave.
theorem stampTxUuid_nonzero (bytes : Uuid) : (stampTxUuid bytes).isZero = false := by
  have wide : 6 < (stampTxUuid bytes).val.length := by
    rw [(stampTxUuid bytes).property]
    decide
  rw [Uuid.isZero,List.all_eq_false]
  refine ⟨(stampTxUuid bytes).val[6],List.getElem_mem wide,?_⟩
  simp [stampTxUuid]

end identity

section plans

theorem plannedAfterState_paired {operation : LogicalOperation} {state : Option ValuePointer}
    (publicOperation : Operation) (paired : state.isSome = operation.isPut) :
    plannedAfterState .vlogEnvelope operation (some state) publicOperation = .ok state := by
  cases operation <;> cases state <;> first | rfl | cases paired

theorem plannedAfterState_deleted {operation : LogicalOperation} {pointer : Option (Option ValuePointer)}
    (publicOperation : Operation) (deletes : operation.isPut = false) :
    plannedAfterState .indexOnlyDelete operation pointer publicOperation = .ok none := by
  cases operation with
  | put key value => cases deletes
  | delete key => rfl

-- The loop only fails at an ordinal without a plan or at an operation without a state.
theorem planOperations_total {kind : TransactionKind} {valuePointers : Option (List (Option ValuePointer))}
    {publicOperation : Operation} {operationIndex : Nat} {plans : List KeyPlan} {items : List (LogicalOperation × Nat)}
    (numbered : ∀ item ∈ items, item.2 < plans.length)
    (each : ∀ index (bound : index < items.length), ∃ state, plannedAfterState kind (items[index]).1
      (valuePointers.bind (fun pointers => pointers[operationIndex + index]?)) publicOperation = .ok state) :
    ∃ result, planOperations kind valuePointers publicOperation operationIndex plans items = .ok result := by
  induction items generalizing operationIndex plans with
  | nil => exact ⟨plans,rfl⟩
  | cons item rest ih =>
    obtain ⟨operation,ordinal⟩ := item
    have place : ordinal < plans.length := numbered (operation,ordinal) List.mem_cons_self
    obtain ⟨state,first⟩ := each 0 (by simp)
    simp only [List.getElem_cons_zero,Nat.add_zero] at first
    rw [planOperations,rejectIf_false (by omega),ok_bind,first,ok_bind]
    apply ih
    · intro item member
      rw [List.length_modify]
      exact numbered item (List.mem_cons_of_mem _ member)
    · intro index bound
      have later := each (index + 1) (by simpa using bound)
      simpa [Nat.add_assoc,Nat.add_comm 1] using later

theorem buildKeyPlans_total {write : ValidatedWrite} {beforeStates : List (Option ValuePointer)}
    {envelope : Option PreparedEnvelope} (sized : beforeStates.length = write.distinctKeys.length)
    (kinds : envelope = none ↔ write.transactionKind = .indexOnlyDelete)
    (paired : Paired write.operations (operationStates write envelope)) :
    ∃ plans, buildKeyPlans write beforeStates write.transactionKind (envelope.map PreparedEnvelope.valuePointers) =
      .ok plans := by
  have ordinals : write.operationOrdinals.length = write.operations.length := by
    rw [write.numbered,List.length_map]
  have states : (operationStates write envelope).length = write.operations.length := by
    have lengths := congrArg List.length paired
    simpa using lengths
  have pointers : pointersMatch write.transactionKind (envelope.map PreparedEnvelope.valuePointers)
      write.operations.length = true := by
    cases envelope with
    | none => rw [kinds.mp rfl]; rfl
    | some envelope =>
      cases kind : write.transactionKind with
      | vlogEnvelope => simpa [pointersMatch,operationStates] using states
      | indexOnlyDelete => cases kinds.mpr kind
  rw [buildKeyPlans,rejectIf_false (by simp [sized,ordinals]),ok_bind,rejectIf_false (by simp [pointers]),ok_bind]
  apply planOperations_total
  · rw [write.numbered,←List.map_prod_left_eq_zip]
    intro item member
    obtain ⟨operation,present,rfl⟩ := List.mem_map.mp member
    have key : operationKey operation ∈ write.distinctKeys := by
      rw [write.keyed,mem_firstOccurrences]
      exact List.mem_map_of_mem present
    simpa [sized] using List.idxOf_lt_length_of_mem key
  · intro index bound
    have inside : index < write.operations.length := by
      rw [List.length_zip] at bound
      omega
    rw [List.getElem_zip]
    cases envelope with
    | none =>
      rw [kinds.mp rfl]
      have deletes := write.indexOnly_iff.mp (kinds.mp rfl) _ (List.getElem_mem inside)
      exact ⟨none,plannedAfterState_deleted _ deletes⟩
    | some envelope =>
      have kind : write.transactionKind = .vlogEnvelope := by
        cases kind : write.transactionKind with
        | vlogEnvelope => rfl
        | indexOnlyDelete => cases kinds.mpr kind
      simp only [operationStates] at paired states
      have there : index < envelope.valuePointers.length := by omega
      have same : (envelope.valuePointers[index]).isSome = (write.operations[index]).isPut := by
        have here := congrArg (fun list => list[index]?) paired
        simpa [there,inside] using here
      rw [kind,Option.map_some,Option.bind_some,Nat.zero_add,List.getElem?_eq_getElem there]
      exact ⟨_,plannedAfterState_paired _ same⟩

end plans

section batch

theorem pushIndex_total {mutation : IndexMutation} (batch : IndexAtomicBatch) (operation : Operation)
    (ordinary : validateOrdinaryMutation mutation = .ok ()) :
    pushIndex batch mutation operation = .ok (batch ++ [mutation]) := pushIndex_ok.mpr ⟨ordinary,rfl⟩

theorem stateMutation_ordinary {userKey : Bytes} (named : userKey ≠ []) (state : Option ValuePointer) :
    validateOrdinaryMutation (stateMutation userKey state) = .ok () := by
  cases state with
  | none => exact rejectIf_false (by simp [named])
  | some pointer => exact rejectIf_false (by simp [named,ValuePointer.bytes,leBytes])

theorem transactionPut_ordinary {key value : Bytes} (keyed : key ≠ []) (valued : value ≠ []) :
    validateOrdinaryMutation (.putInternal .transaction key value) = .ok () :=
  rejectIf_false (by simp [keyed,valued,isDatabaseIdentityKey])

theorem headSeqPut_ordinary (commitSeq : Nat) :
    validateOrdinaryMutation (.putInternal .system headSeqKey (encodeHeadSeq commitSeq)) = .ok () := by
  refine rejectIf_false ?_
  have other : headSeqKey ≠ databaseIdentityKey := by decide
  have named : headSeqKey ≠ [] := by decide
  have filled : encodeHeadSeq commitSeq ≠ [] := by
    intro empty
    have width := congrArg List.length empty
    simp [encodeHeadSeq] at width
  simp [isDatabaseIdentityKey,other,named,filled]

theorem userMutation_total {userKey : Bytes} {state : Option ValuePointer} (context : StorageError → StorageError)
    (valid : ∀ pointer ∈ state, pointer.validateFields = .ok ()) :
    userMutation userKey state context = .ok (stateMutation userKey state) := by
  cases state with
  | none => rfl
  | some pointer =>
    have encoded := ValuePointer.encode_bytes.mpr ⟨valid pointer rfl,rfl⟩
    rw [userMutation,encoded]
    rfl

-- What the encoder leaves passes the checks of the batch.
theorem encodeDescriptor_filled [Crc32c] {descriptor : TransactionDescriptor} {encoded : EncodedDescriptor}
    (written : encodeDescriptor descriptor = .ok encoded) (fits : descriptor.Fits) :
    encoded.metaKey ≠ [] ∧ encoded.metaValue ≠ [] ∧
      ∀ mutation ∈ encoded.mutations, mutation.key ≠ [] ∧ mutation.value ≠ [] := by
  simp only [encodeDescriptor,bind_ok,exists_unit,pure_ok,Except.ok.injEq] at written
  obtain ⟨-,-,-,mutations,encodes,_,-,_,-,metaKey,keyed,metaValue,valued,rfl⟩ := written
  obtain ⟨-,rfl⟩ := encodeTxMetaKey_ok.mp keyed
  simp only [encodeTxMeta,bind_ok,exists_unit,pure_ok,Except.ok.injEq] at valued
  obtain ⟨-,rfl⟩ := valued
  refine ⟨by simp,by simp [txMetaBody,txMetaMagic],?_⟩
  intro mutation member
  obtain ⟨index,bound,rfl⟩ := List.mem_iff_getElem.mp member
  obtain ⟨named,source,there,value⟩ := (encodeMutations_entry encodes).2 index bound
  have both := fits.mutation source there
  exact ⟨by simp [named],(decodeTxMutation_encode value both.1 both.2).2.1⟩

theorem buildIndexBatch_total [Crc32c] {txMeta : TxMeta} {plans : List KeyPlan} {encoded : EncodedDescriptor}
    (commitSeq : Nat) (operation : Operation) (valid : TransactionDescriptor.Valid ⟨txMeta,plans⟩)
    (written : encodeDescriptor ⟨txMeta,plans⟩ = .ok encoded) :
    ∃ batch, buildIndexBatch plans encoded commitSeq operation = .ok batch := by
  obtain ⟨metaKeyed,metaFilled,filled⟩ := encodeDescriptor_filled written valid.fits
  have users : ∃ batch, plans.foldlM (fun batch plan => do
      let mutation ← userMutation plan.userKey plan.afterState (fun error => remapPreflight error operation)
      pushIndex batch mutation operation) [] = .ok batch := by
    apply foldlM_total
    intro plan member batch
    have mutation := valid.mutation plan member
    rw [userMutation_total _ (fun pointer present => (mutation.pointer pointer (.inr present)).1),ok_bind]
    exact ⟨_,pushIndex_total batch operation (stateMutation_ordinary mutation.named _)⟩
  obtain ⟨users,built⟩ := users
  have entries : ∀ batch : IndexAtomicBatch, ∃ next, encoded.mutations.foldlM (fun batch mutation =>
      pushIndex batch (.putInternal .transaction mutation.key mutation.value) operation) batch = .ok next := by
    intro batch
    apply foldlM_total
    intro mutation member batch
    obtain ⟨keyed,valued⟩ := filled mutation member
    exact ⟨_,pushIndex_total batch operation (transactionPut_ordinary keyed valued)⟩
  obtain ⟨all,described⟩ := entries (users ++ [.putInternal .transaction encoded.metaKey encoded.metaValue])
  refine ⟨all ++ [.putInternal .system headSeqKey (encodeHeadSeq commitSeq)],?_⟩
  rw [buildIndexBatch,built,ok_bind,pushIndex_total _ _ (transactionPut_ordinary metaKeyed metaFilled),ok_bind,described,
    ok_bind,pushIndex_total _ _ (headSeqPut_ordinary commitSeq)]

end batch

end ExpirKv
