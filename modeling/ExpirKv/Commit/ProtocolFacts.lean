import ExpirKv.Commit.DescriptorFacts
import ExpirKv.Commit.Protocol
import ExpirKv.Vlog.RoundTrip

namespace ExpirKv
open VLogGeometry

-- The bytes of a pointer, before any validation.
def ValuePointer.bytes (pointer : ValuePointer) : Bytes :=
  leBytes 2 pointer.formatVersion ++ leBytes 4 pointer.fileId ++ leBytes 4 pointer.recordOffset ++
    leBytes 4 pointer.recordLen ++ leBytes 2 pointer.valueLen

theorem ValuePointer.encode_bytes {pointer : ValuePointer} {encoded : Bytes} :
    pointer.encode = .ok encoded ↔ pointer.validateFields = .ok () ∧ pointer.bytes = encoded := by
  simp [encode,bytes]

theorem ValuePointer.decode_bytes {pointer : ValuePointer} {encoded : Bytes}
    (read : ValuePointer.decode encoded = .ok pointer) : pointer.bytes = encoded :=
  (encode_bytes.mp (encode_decode read)).2

-- The user entry that stands for a value state.
def storedState (state : Option ValuePointer) : Option Bytes := state.map ValuePointer.bytes

def stateMutation (userKey : Bytes) (state : Option ValuePointer) : IndexMutation :=
  match state with
  | none => .deleteUser userKey
  | some pointer => .putUser userKey pointer.bytes

@[simp] theorem stateMutation_write (userKey : Bytes) (state : Option ValuePointer) :
    (stateMutation userKey state).write = ((.user,userKey),storedState state) := by
  cases state <;> rfl

theorem userMutation_ok {userKey : Bytes} {state : Option ValuePointer} {context : StorageError → StorageError}
    {mutation : IndexMutation} (built : userMutation userKey state context = .ok mutation) :
    mutation = stateMutation userKey state := by
  cases state with
  | none => exact (Except.ok.inj built).symm
  | some pointer =>
    simp only [userMutation,bind_ok,mapError_ok,pure_ok,Except.ok.injEq] at built
    obtain ⟨encoded,written,rfl⟩ := built
    rw [stateMutation,(ValuePointer.encode_bytes.mp written).2]

section batch

theorem pushIndex_ok {batch result : IndexAtomicBatch} {mutation : IndexMutation} {operation : Operation} :
    pushIndex batch mutation operation = .ok result ↔
      validateOrdinaryMutation mutation = .ok () ∧ batch ++ [mutation] = result := by
  simp [pushIndex,IndexAtomicBatch.tryPush]

-- A loop of pushes appends one mutation for each item.
theorem foldlM_push {α : Type} (form : α → IndexMutation) {items : List α}
    {step : IndexAtomicBatch → α → Result IndexAtomicBatch} {start result : IndexAtomicBatch}
    (pushed : items.foldlM step start = .ok result)
    (pushes : ∀ batch item next, step batch item = .ok next →
      validateOrdinaryMutation (form item) = .ok () ∧ batch ++ [form item] = next) :
    result = start ++ items.map form ∧ ∀ item ∈ items, validateOrdinaryMutation (form item) = .ok () := by
  induction items generalizing start with
  | nil =>
    obtain rfl := Except.ok.inj pushed
    simp
  | cons item rest ih =>
    obtain ⟨next,stepped,later⟩ := foldlM_ok_cons.mp pushed
    obtain ⟨valid,rfl⟩ := pushes start item next stepped
    obtain ⟨rfl,others⟩ := ih later
    refine ⟨by simp,?_⟩
    intro other member
    rcases List.mem_cons.mp member with rfl | tail
    · exact valid
    · exact others other tail

def EncodedMutation.put (mutation : EncodedMutation) : IndexMutation :=
  .putInternal .transaction mutation.key mutation.value

def commitBatch (plans : List KeyPlan) (descriptor : EncodedDescriptor) (commitSeq : Nat) : IndexAtomicBatch :=
  plans.map (fun plan => stateMutation plan.userKey plan.afterState) ++
    (.putInternal .transaction descriptor.metaKey descriptor.metaValue ::
      (descriptor.mutations.map EncodedMutation.put ++ [.putInternal .system headSeqKey (encodeHeadSeq commitSeq)]))

-- The entries of a transaction in the order of their keys.
def EncodedDescriptor.entries (encoded : EncodedDescriptor) : List (Bytes × Bytes) :=
  (encoded.metaKey,encoded.metaValue) :: encoded.mutations.map EncodedMutation.entry

def stateWrites (state : TxMutation → Option ValuePointer) (mutations : List TxMutation) :
    List (Bytes × Option Bytes) := mutations.map (fun mutation => (mutation.userKey,storedState (state mutation)))

theorem commitBatch_writes (plans : List KeyPlan) (descriptor : EncodedDescriptor) (commitSeq : Nat) :
    (commitBatch plans descriptor commitSeq).Writes (stateWrites TxMutation.afterState plans)
      (descriptor.entries.map (fun entry => (entry.1,some entry.2))) [(headSeqKey,some (encodeHeadSeq commitSeq))] := by
  simp only [IndexAtomicBatch.Writes,commitBatch,stateWrites,EncodedDescriptor.entries,List.map_append,List.map_cons,
    List.map_map,List.map_nil,List.cons_append]
  congr 1
  apply List.map_congr_left
  intro plan member
  exact stateMutation_write plan.userKey plan.afterState

theorem buildIndexBatch_ok {plans : List KeyPlan} {descriptor : EncodedDescriptor} {commitSeq : Nat}
    {operation : Operation} {batch : IndexAtomicBatch}
    (built : buildIndexBatch plans descriptor commitSeq operation = .ok batch) :
    batch = commitBatch plans descriptor commitSeq ∧ ∀ mutation ∈ batch, validateOrdinaryMutation mutation = .ok () := by
  simp only [buildIndexBatch,bind_ok] at built
  obtain ⟨users,usersBuilt,described,metaBuilt,entries,entriesBuilt,headBuilt⟩ := built
  obtain ⟨rfl,userValid⟩ := foldlM_push (fun plan : KeyPlan => stateMutation plan.userKey plan.afterState) usersBuilt
    (fun batch plan next stepped => by
      simp only [bind_ok,pushIndex_ok] at stepped
      obtain ⟨mutation,made,pushed⟩ := stepped
      exact userMutation_ok made ▸ pushed)
  obtain ⟨metaValid,rfl⟩ := pushIndex_ok.mp metaBuilt
  obtain ⟨rfl,entryValid⟩ := foldlM_push EncodedMutation.put entriesBuilt
    (fun batch entry next stepped => pushIndex_ok.mp stepped)
  obtain ⟨headValid,rfl⟩ := pushIndex_ok.mp headBuilt
  refine ⟨by simp [commitBatch],?_⟩
  intro mutation member
  simp only [List.nil_append,List.append_assoc,List.mem_append,List.mem_map,List.mem_singleton] at member
  obtain ⟨plan,member,rfl⟩ | rfl | ⟨entry,member,rfl⟩ | rfl := member
  · exact userValid plan member
  · exact metaValid
  · exact entryValid entry member
  · exact headValid

end batch

section plans

-- Ordinals are places in a list of different keys, so writing at an ordinal is writing at a key.
theorem modify_idxOf (key : Bytes) (change : KeyPlan → KeyPlan) {plans : List KeyPlan}
    (distinct : (plans.map TxMutation.userKey).Nodup) :
    plans.modify ((plans.map TxMutation.userKey).idxOf key) change =
      plans.map (fun plan => if plan.userKey = key then change plan else plan) := by
  induction plans with
  | nil => rfl
  | cons plan rest ih =>
    simp only [List.map_cons,List.nodup_cons] at distinct ⊢
    by_cases same : plan.userKey = key
    · subst same
      have others : rest.map (fun other => if other.userKey = plan.userKey then change other else other) = rest := by
        conv_rhs => rw [←List.map_id rest]
        apply List.map_congr_left
        intro other member
        have apart : other.userKey ≠ plan.userKey := by
          intro equal
          exact distinct.1 (equal ▸ List.mem_map_of_mem member)
        rw [if_neg apart,id]
      rw [List.idxOf_cons_self,List.modify_zero_cons,if_pos rfl,others]
    · rw [List.idxOf_cons_ne _ same,List.modify_succ_cons,ih distinct.2,if_neg same]

def KeyPlan.after (writes : List (Bytes × Option ValuePointer)) (plan : KeyPlan) : KeyPlan :=
  {plan with afterState := (lastValue writes plan.userKey).getD plan.afterState}

theorem KeyPlan.after_cons (key : Bytes) (state : Option ValuePointer) (writes : List (Bytes × Option ValuePointer))
    (plan : KeyPlan) :
    KeyPlan.after writes (if plan.userKey = key then {plan with afterState := state} else plan) =
      KeyPlan.after ((key,state) :: writes) plan := by
  unfold KeyPlan.after
  rw [lastValue_cons]
  by_cases same : plan.userKey = key
  · subst same
    rw [if_pos rfl,if_pos rfl]
    cases known : lastValue writes plan.userKey <;> simp
  · rw [if_neg same,if_neg (fun equal => same equal.symm)]
    cases known : lastValue writes plan.userKey <;> simp

-- The loop leaves each plan with the last state written to its key.
theorem planOperations_ok {kind : TransactionKind} {valuePointers : Option (List (Option ValuePointer))}
    {publicOperation : Operation} {operationIndex : Nat} {plans result : List KeyPlan}
    {items : List (LogicalOperation × Nat)}
    (planned : planOperations kind valuePointers publicOperation operationIndex plans items = .ok result)
    (distinct : (plans.map TxMutation.userKey).Nodup)
    (numbered : ∀ item ∈ items, item.2 = (plans.map TxMutation.userKey).idxOf (operationKey item.1)) :
    ∃ states : List (Option ValuePointer), states.length = items.length ∧
      (∀ index (bound : index < items.length) (there : index < states.length),
        plannedAfterState kind (items[index]).1
          (valuePointers.bind (fun pointers => pointers[operationIndex + index]?)) publicOperation =
            .ok (states[index])) ∧
      result = plans.map (KeyPlan.after ((items.map (fun item => operationKey item.1)).zip states)) := by
  induction items generalizing operationIndex plans with
  | nil =>
    obtain rfl := Except.ok.inj planned
    refine ⟨[],rfl,fun index bound => absurd bound (by simp),?_⟩
    have same : KeyPlan.after [] = id := by
      funext plan
      simp [KeyPlan.after,lastValue_nil]
    simp [same]
  | cons item rest ih =>
    obtain ⟨operation,ordinal⟩ := item
    simp only [planOperations,bind_ok,exists_unit,rejectIf_ok] at planned
    obtain ⟨-,state,first,later⟩ := planned
    have place : ordinal = (plans.map TxMutation.userKey).idxOf (operationKey operation) :=
      numbered (operation,ordinal) List.mem_cons_self
    rw [place,modify_idxOf (operationKey operation) _ distinct] at later
    have kept : (plans.map (fun plan => if plan.userKey = operationKey operation then
        {plan with afterState := state} else plan)).map TxMutation.userKey = plans.map TxMutation.userKey := by
      rw [List.map_map]
      apply List.map_congr_left
      intro plan member
      simp only [Function.comp_apply]
      split <;> rfl
    obtain ⟨states,width,each,rfl⟩ := ih later (kept ▸ distinct)
      (fun item member => kept ▸ numbered item (List.mem_cons_of_mem _ member))
    refine ⟨state :: states,by simp [width],?_,?_⟩
    · intro index bound there
      cases index with
      | zero => exact first
      | succ index =>
        have step := each index (by simpa using bound) (by simpa using there)
        simpa [Nat.add_assoc,Nat.add_comm 1] using step
    · rw [List.map_map]
      apply List.map_congr_left
      intro plan member
      exact KeyPlan.after_cons (operationKey operation) state _ plan

theorem plannedAfterState_pointer {operation : LogicalOperation} {pointer : Option (Option ValuePointer)}
    {publicOperation : Operation} {state : Option ValuePointer}
    (planned : plannedAfterState .vlogEnvelope operation pointer publicOperation = .ok state) :
    pointer = some state := by
  simp only [plannedAfterState,bind_ok,orError_ok] at planned
  obtain ⟨pointer,rfl,planned⟩ := planned
  cases operation <;> cases pointer <;> simp_all

theorem plannedAfterState_delete {operation : LogicalOperation} {pointer : Option (Option ValuePointer)}
    {publicOperation : Operation} {state : Option ValuePointer}
    (planned : plannedAfterState .indexOnlyDelete operation pointer publicOperation = .ok state) : state = none := by
  cases operation with
  | put key value => simp [plannedAfterState] at planned
  | delete key => exact (Except.ok.inj planned).symm

-- The states an envelope, or the absence of one, gives to the operations.
def operationStates (write : ValidatedWrite) (envelope : Option PreparedEnvelope) : List (Option ValuePointer) :=
  match envelope with
  | some envelope => envelope.valuePointers
  | none => List.replicate write.operations.length none

def operationWrites (write : ValidatedWrite) (envelope : Option PreparedEnvelope) :
    List (Bytes × Option ValuePointer) := envelopeWrites write.operations (operationStates write envelope)

theorem ValidatedWrite.distinct (write : ValidatedWrite) : write.distinctKeys.Nodup := by
  have nodup := lastWrites_nodup (write.operations.map (fun operation => (operationKey operation,())))
  rw [lastWrites_keys,List.map_map] at nodup
  rw [write.keyed]
  exact nodup

theorem buildKeyPlans_ok {write : ValidatedWrite} {beforeStates : List (Option ValuePointer)}
    {envelope : Option PreparedEnvelope} {plans : List KeyPlan}
    (built : buildKeyPlans write beforeStates write.transactionKind (envelope.map PreparedEnvelope.valuePointers) =
      .ok plans) :
    (operationStates write envelope).length = write.operations.length ∧
      beforeStates.length = write.distinctKeys.length ∧
      plans = (write.distinctKeys.zip beforeStates).map (fun plan =>
        ⟨plan.1,plan.2,(lastValue (operationWrites write envelope) plan.1).getD plan.2⟩) := by
  simp only [buildKeyPlans,bind_ok,exists_unit,rejectIf_ok,Bool.not_eq_false,not_or,not_not,ne_eq] at built
  obtain ⟨⟨befores,ordinals⟩,pointers,planned⟩ := built
  have names : ((write.distinctKeys.zip beforeStates).map (fun plan => (⟨plan.1,plan.2,plan.2⟩ : KeyPlan))).map
      TxMutation.userKey = write.distinctKeys := by
    rw [List.map_map]
    exact List.map_fst_zip (by omega)
  have numbered : ∀ item ∈ write.operations.zip write.operationOrdinals,
      item.2 = write.distinctKeys.idxOf (operationKey item.1) := by
    rw [write.numbered,←List.map_prod_left_eq_zip]
    intro item member
    obtain ⟨operation,-,rfl⟩ := List.mem_map.mp member
    rfl
  obtain ⟨states,width,each,rfl⟩ := planOperations_ok planned (by rw [names]; exact write.distinct)
    (by rw [names]; exact numbered)
  have size : (write.operations.zip write.operationOrdinals).length = write.operations.length := by
    rw [List.length_zip]
    omega
  have keys : (write.operations.zip write.operationOrdinals).map (fun item => operationKey item.1) =
      write.operations.map operationKey := by
    have firsts : (write.operations.zip write.operationOrdinals).map Prod.fst = write.operations :=
      List.map_fst_zip (by omega)
    have unzipped := congrArg (List.map operationKey) firsts
    rwa [List.map_map] at unzipped
  have same : states = operationStates write envelope := by
    cases kind : write.transactionKind with
    | vlogEnvelope =>
      cases envelope with
      | none => simp [pointersMatch,kind] at pointers
      | some envelope =>
        simp only [pointersMatch,kind,Option.map_some,beq_iff_eq] at pointers
        apply List.ext_getElem (by simp only [operationStates]; omega)
        intro index there bound
        have step := each index (by omega) there
        rw [kind] at step
        have found := plannedAfterState_pointer step
        simp only [Option.map_some,Option.bind_some,Nat.zero_add] at found
        exact (List.getElem?_eq_some_iff.mp found).2.symm
    | indexOnlyDelete =>
      cases envelope with
      | some envelope => simp [pointersMatch,kind] at pointers
      | none =>
        apply List.ext_getElem (by simp only [operationStates,List.length_replicate]; omega)
        intro index there bound
        have step := each index (by omega) there
        rw [kind] at step
        simp only [operationStates,List.getElem_replicate]
        exact plannedAfterState_delete step
  refine ⟨by rw [←same]; omega,befores,?_⟩
  rw [List.map_map,keys,same]
  rfl

theorem operationWrites_keys {write : ValidatedWrite} {envelope : Option PreparedEnvelope}
    (states : (operationStates write envelope).length = write.operations.length) :
    (operationWrites write envelope).map Prod.fst = write.operations.map operationKey := by
  exact List.map_fst_zip (by simp [states])

-- Each plan has the state its key was read in and the last state the write gives it.
theorem buildKeyPlans_each {write : ValidatedWrite} {beforeStates : List (Option ValuePointer)}
    {envelope : Option PreparedEnvelope} {plans : List KeyPlan}
    (built : buildKeyPlans write beforeStates write.transactionKind (envelope.map PreparedEnvelope.valuePointers) =
      .ok plans) :
    plans.map TxMutation.userKey = write.distinctKeys ∧ ∀ plan ∈ plans,
      (plan.userKey,plan.beforeState) ∈ write.distinctKeys.zip beforeStates ∧
      lastValue (operationWrites write envelope) plan.userKey = some plan.afterState := by
  obtain ⟨states,width,rfl⟩ := buildKeyPlans_ok built
  refine ⟨?_,?_⟩
  · rw [List.map_map]
    exact List.map_fst_zip (by omega)
  · intro plan member
    obtain ⟨pair,present,rfl⟩ := List.mem_map.mp member
    refine ⟨present,?_⟩
    have key : pair.1 ∈ write.distinctKeys := (List.of_mem_zip present).1
    rw [write.keyed,mem_firstOccurrences,←operationWrites_keys states,←lastValue_isSome] at key
    obtain ⟨state,known⟩ := Option.isSome_iff_exists.mp key
    rw [known,Option.getD_some]

end plans

section prepare
variable [Crc32c]

omit [Crc32c] in
theorem readBeforeState_ok {getUser : Bytes → Result (Option Bytes)} {operation : Operation} {key : Bytes}
    {state : Option ValuePointer} (read : readBeforeState getUser operation key = .ok state) :
    getUser key = .ok (storedState state) ∧ StateFits state := by
  simp only [readBeforeState,bind_ok,mapError_ok] at read
  obtain ⟨stored,found,read⟩ := read
  cases stored with
  | none =>
    obtain rfl := Except.ok.inj read
    exact ⟨found,fun pointer present => by cases present⟩
  | some encoded =>
    simp only [decodeBeforeStatePointer,bind_ok,exists_unit,mapError_ok,rejectIf_ok,pure_ok,Except.ok.injEq] at read
    obtain ⟨pointer,decoded,-,-,-,rfl⟩ := read
    refine ⟨?_,?_⟩
    · rw [found,storedState,Option.map_some,ValuePointer.decode_bytes decoded]
    · intro other present
      obtain rfl := Option.mem_some_iff.mp present
      exact (ValuePointer.decode_offset decoded).1

-- What a successful preparation from an index and an append position amounts to.
structure Prepares (write : ValidatedWrite) (headSeq : Nat) (vlogContext : Option VlogContext)
    (stored : Bytes → Option Bytes) (commit : PreparedCommit) (descriptor : TransactionDescriptor) : Prop where
  seq : commit.commitSeq = headSeq + 1
  bound : headSeq + 1 < 18446744073709551616
  kind : commit.transactionKind = write.transactionKind
  sync : commit.sync = write.sync
  envelope : prepareCommitEnvelope write (headSeq + 1) commit.txUuid vlogContext = .ok commit.envelope
  described : descriptor.txMeta =
    commitTxMeta write headSeq (headSeq + 1) commit.txUuid commit.envelope descriptor.mutations
  keys : descriptor.mutations.map TxMutation.userKey = write.distinctKeys
  before : ∀ mutation ∈ descriptor.mutations,
    storedState mutation.beforeState = stored mutation.userKey ∧ StateFits mutation.beforeState
  after : ∀ mutation ∈ descriptor.mutations,
    lastValue (operationWrites write commit.envelope) mutation.userKey = some mutation.afterState
  states : (operationStates write commit.envelope).length = write.operations.length
  batch : ∃ encoded, encodeDescriptor descriptor = .ok encoded ∧
    commit.indexBatch = commitBatch descriptor.mutations encoded (headSeq + 1)
  ordinary : ∀ mutation ∈ commit.indexBatch, validateOrdinaryMutation mutation = .ok ()

theorem prepareDescribed_ok {write : ValidatedWrite} {headSeq : Nat} {vlogContext : Option VlogContext}
    {getUser : Bytes → Result (Option Bytes)} {stored : Bytes → Option Bytes} {uuidSource : Except IoError Uuid}
    {allocated : Bool} {commit : PreparedCommit} {descriptor : TransactionDescriptor}
    (prepared : prepareDescribed write headSeq vlogContext getUser uuidSource allocated = .ok (commit,descriptor))
    (honest : ∀ key value, getUser key = .ok value → value = stored key) :
    Prepares write headSeq vlogContext stored commit descriptor := by
  simp only [prepareDescribed,nextCommitSeq,bind_ok,exists_unit,mapError_ok,rejectIf_ok,pure_ok,Except.ok.injEq,
    Prod.mk.injEq] at prepared
  obtain ⟨_,⟨room,rfl⟩,-,befores,read,txUuid,-,envelope,enveloped,plans,planned,encoded,encodes,batch,built,rfl,rfl⟩ :=
    prepared
  obtain ⟨keys,each⟩ := buildKeyPlans_each planned
  obtain ⟨rfl,ordinary⟩ := buildIndexBatch_ok built
  have members : ∀ pair ∈ write.distinctKeys.zip befores,
      readBeforeState getUser write.publicOperation pair.1 = .ok pair.2 := mapM_ok_zip read
  refine ⟨rfl,by omega,rfl,rfl,enveloped,rfl,keys,?_,fun mutation member => (each mutation member).2,
    (buildKeyPlans_ok planned).1,⟨encoded,encodes,rfl⟩,ordinary⟩
  intro mutation member
  obtain ⟨found,fits⟩ := readBeforeState_ok (members _ (each mutation member).1)
  exact ⟨honest _ _ found,fits⟩

end prepare

end ExpirKv
