import ExpirKv.Commit.Protocol

namespace ExpirKv

-- `BatchOperation` has the two cases of an operation.
structure WriteBatch where
  operations : List LogicalOperation
  deriving DecidableEq, Repr

-- `invalid_batch`: a batch belongs to no instance yet.
def StorageError.invalidBatch (kind : StorageErrorKind) (retryAdvice : RetryAdvice) : StorageError :=
  {kind, operation := .writeBatch, protocolStage := .preflight, writeOutcome := some .notCommitted,
   instanceState := none, retryAdvice}

namespace WriteBatch

def invalidArgument : StorageError := .invalidBatch .invalidArgument .fixRequestAndRetrySameInstance
def capacityExceeded : StorageError := .invalidBatch .capacityExceeded .fixRequestAndRetrySameInstance
def resourceExhausted : StorageError := .invalidBatch .resourceExhausted .retrySameInstance

def validateKey (key : Bytes) : Result Unit := do
  rejectIf (key.isEmpty ∨ key.length > maxKeyValueSize) invalidArgument
  rejectIf (key.length ≥ 65536) capacityExceeded

def validateKeyValue (key value : Bytes) : Result Unit := do
  validateKey key
  rejectIf (value.length ≥ 65536) capacityExceeded
  let total := key.length + value.length
  rejectIf (total ≥ 18446744073709551616) capacityExceeded
  rejectIf (total > maxKeyValueSize) invalidArgument

def validateNextOperationCount (current : Nat) : Result Unit := do
  let next := current + 1
  rejectIf (next ≥ 18446744073709551616) capacityExceeded
  rejectIf (next ≥ 4294967296) capacityExceeded

def new : WriteBatch := ⟨[]⟩

-- `allocated` is false when one of the reservations of the call fails.
def push (batch : WriteBatch) (operation : LogicalOperation) (allocated : Bool) : Result WriteBatch := do
  validateNextOperationCount batch.operations.length
  rejectIf (allocated = false) resourceExhausted
  return ⟨batch.operations ++ [operation]⟩

def put (batch : WriteBatch) (key value : Bytes) (allocated : Bool) : Result WriteBatch := do
  validateKeyValue key value
  batch.push (.put key value) allocated

def delete (batch : WriteBatch) (key : Bytes) (allocated : Bool) : Result WriteBatch := do
  validateKey key
  batch.push (.delete key) allocated

-- The call that adds an operation.
def add (batch : WriteBatch) : LogicalOperation → Bool → Result WriteBatch
  | .put key value,allocated => batch.put key value allocated
  | .delete key,allocated => batch.delete key allocated

def addAll (batch : WriteBatch) (operations : List LogicalOperation) : Result WriteBatch :=
  operations.foldlM (fun batch operation => batch.add operation true) batch

theorem push_ok {batch next : WriteBatch} {operation : LogicalOperation} :
    batch.push operation true = .ok next ↔
      batch.operations.length + 1 < 4294967296 ∧ next = ⟨batch.operations ++ [operation]⟩ := by
  simp only [push,validateNextOperationCount,bind_ok,exists_unit,rejectIf_ok,pure_ok,Except.ok.injEq,
    Bool.true_eq_false,not_false_eq_true,true_and]
  constructor
  · intro accepted
    exact ⟨by omega,accepted.2.symm⟩
  · intro accepted
    exact ⟨⟨by omega,by omega⟩,accepted.2.symm⟩

theorem add_ok {batch next : WriteBatch} {operation : LogicalOperation} :
    batch.add operation true = .ok next ↔ operation.Valid ∧ batch.operations.length + 1 < 4294967296 ∧
      next = ⟨batch.operations ++ [operation]⟩ := by
  cases operation with
  | put key value =>
    simp only [add,put,validateKeyValue,validateKey,bind_ok,exists_unit,rejectIf_ok,push_ok,List.isEmpty_iff,
      maxKeyValueSize,LogicalOperation.Valid,ne_eq]
    constructor
    · intro accepted
      obtain ⟨⟨⟨named,-⟩,-,-,total⟩,pushed⟩ := accepted
      exact ⟨⟨fun empty => named (.inl empty),by omega⟩,pushed⟩
    · intro accepted
      obtain ⟨⟨named,total⟩,pushed⟩ := accepted
      exact ⟨⟨⟨fun refused => refused.elim named (by omega),by omega⟩,by omega,by omega,by omega⟩,pushed⟩
  | delete key =>
    simp only [add,delete,validateKey,bind_ok,exists_unit,rejectIf_ok,push_ok,List.isEmpty_iff,maxKeyValueSize,
      LogicalOperation.Valid,ne_eq]
    constructor
    · intro accepted
      obtain ⟨⟨named,-⟩,pushed⟩ := accepted
      exact ⟨⟨fun empty => named (.inl empty),by omega⟩,pushed⟩
    · intro accepted
      obtain ⟨⟨named,total⟩,pushed⟩ := accepted
      exact ⟨⟨fun refused => refused.elim named (by omega),by omega⟩,pushed⟩

-- A batch is whatever was put into it, up to the limit of operations.
theorem addAll_ok {batch next : WriteBatch} {operations : List LogicalOperation}
    (short : batch.operations.length < 4294967296) :
    batch.addAll operations = .ok next ↔ (∀ operation ∈ operations, operation.Valid) ∧
      batch.operations.length + operations.length < 4294967296 ∧ next = ⟨batch.operations ++ operations⟩ := by
  unfold addAll
  induction operations generalizing batch with
  | nil =>
    simp only [List.foldlM_nil,pure_ok,Except.ok.injEq,List.append_nil,List.length_nil,Nat.add_zero,short,true_and]
    constructor
    · intro same
      exact ⟨fun _ member => (by cases member),same.symm⟩
    · intro same
      exact same.2.symm
  | cons operation rest ih =>
    simp only [foldlM_ok_cons,add_ok]
    constructor
    · intro accepted
      obtain ⟨middle,⟨valid,room,rfl⟩,accepted⟩ := accepted
      obtain ⟨others,counted,same⟩ := (ih (by simpa using room)).mp accepted
      refine ⟨?_,?_,?_⟩
      · intro other member
        rcases List.mem_cons.mp member with here | member
        · rw [here]
          exact valid
        · exact others other member
      · simp only [List.length_append,List.length_cons,List.length_nil] at counted ⊢
        omega
      · rw [same]
        simp
    · intro accepted
      obtain ⟨valid,counted,same⟩ := accepted
      simp only [List.length_cons] at counted
      refine ⟨_,⟨valid operation List.mem_cons_self,by omega,rfl⟩,(ih (by simp; omega)).mpr ⟨?_,?_,?_⟩⟩
      · intro other member
        exact valid other (List.mem_cons_of_mem _ member)
      · simp only [List.length_append,List.length_cons,List.length_nil]
        omega
      · rw [same]
        simp

end WriteBatch

section preflight
variable {operations batch : List LogicalOperation} {publicOperation : Operation} {sync : Bool}

theorem validateEncoding_ok {operation : LogicalOperation} :
    validateEncoding publicOperation operation = .ok () ↔ operation.Valid := by
  constructor
  · exact validateEncoding_valid
  · intro valid
    cases operation with
    | put key value =>
      obtain ⟨named,payload⟩ := valid
      have positive := List.length_pos_iff.mpr named
      simp only [validateEncoding,validatePutEncoding,validatePut,validateKey,bind_ok,exists_unit,rejectIf_ok,
        List.isEmpty_iff,named,false_or,maxKeyValueSize,minKvRecordLen,maxKvRecordLen]
      exact ⟨⟨⟨by omega,by omega⟩,by omega,by omega⟩,by omega,by omega⟩
    | delete key =>
      obtain ⟨named,short⟩ := valid
      simp only [validateEncoding,validateDeleteEncoding,validateKey,bind_ok,exists_unit,rejectIf_ok,
        List.isEmpty_iff,named,false_or,maxKeyValueSize,minDeleteRecordLen]
      exact ⟨⟨by omega,by omega⟩,by omega⟩

theorem checkNormalized_iff : checkNormalized operations publicOperation 4294967295 = .ok () ↔
    operations ≠ [] ∧ operations.length < 4294967296 ∧ ∀ operation ∈ operations, operation.Valid := by
  constructor
  · exact checkNormalized_ok
  · intro accepted
    obtain ⟨filled,counted,valid⟩ := accepted
    simp only [checkNormalized,validateOperationCount,bind_ok,exists_unit,rejectIf_ok,List.isEmpty_iff]
    exact ⟨filled,by omega,forM_ok.mpr (fun operation member => validateEncoding_ok.mpr (valid operation member))⟩

theorem validateNormalized_iff : (∃ write, validateNormalized operations sync publicOperation 4294967295 true = .ok write) ↔
    operations ≠ [] ∧ operations.length < 4294967296 ∧ ∀ operation ∈ operations, operation.Valid := by
  rw [←@checkNormalized_iff operations publicOperation]
  unfold validateNormalized
  split
  · rename_i error refused
    rw [refused]
    simp
  · rename_i accepted
    exact ⟨fun _ => accepted,fun _ => ⟨_,if_pos rfl⟩⟩

theorem preflightPut_iff {key value : Bytes} :
    (∃ write, preflightPut key value sync true = .ok write) ↔ (LogicalOperation.put key value).Valid := by
  have checked := @validateNormalized_iff [.put key value] .put sync
  simp only [preflightPut,bind_ok,exists_unit]
  constructor
  · intro accepted
    obtain ⟨write,-,normalized⟩ := accepted
    exact (checked.mp ⟨write,normalized⟩).2.2 _ List.mem_cons_self
  · intro valid
    obtain ⟨write,normalized⟩ := checked.mpr ⟨by simp,by simp,by simpa using valid⟩
    have encodes := (@validateEncoding_ok .put (.put key value)).mpr valid
    simp only [validateEncoding,validatePutEncoding,bind_ok,exists_unit] at encodes
    exact ⟨write,encodes.1,normalized⟩

theorem preflightDelete_iff {key : Bytes} :
    (∃ write, preflightDelete key sync true = .ok write) ↔ (LogicalOperation.delete key).Valid := by
  have checked := @validateNormalized_iff [.delete key] .delete sync
  simp only [preflightDelete,bind_ok,exists_unit]
  constructor
  · intro accepted
    obtain ⟨write,-,normalized⟩ := accepted
    exact (checked.mp ⟨write,normalized⟩).2.2 _ List.mem_cons_self
  · intro valid
    obtain ⟨write,normalized⟩ := checked.mpr ⟨by simp,by simp,by simpa using valid⟩
    have encodes := (@validateEncoding_ok .delete (.delete key)).mpr valid
    simp only [validateEncoding,validateDeleteEncoding,bind_ok,exists_unit] at encodes
    exact ⟨write,encodes.1,normalized⟩

-- The call that writes one operation.
def preflightOperation (operation : LogicalOperation) (sync allocated : Bool) : Result ValidatedWrite :=
  match operation with
  | .put key value => preflightPut key value sync allocated
  | .delete key => preflightDelete key sync allocated

theorem preflightOperation_iff {operation : LogicalOperation} :
    (∃ write, preflightOperation operation sync true = .ok write) ↔ operation.Valid := by
  cases operation with
  | put key value => exact preflightPut_iff
  | delete key => exact preflightDelete_iff

theorem preflightBatch_iff : (∃ write, preflightBatch batch sync true = .ok write) ↔
    batch ≠ [] ∧ batch.length < 4294967296 ∧ ∀ operation ∈ batch, operation.Valid := by
  rw [←@validateNormalized_iff batch .writeBatch sync]
  simp only [preflightBatch,bind_ok,exists_unit]
  constructor
  · intro accepted
    obtain ⟨write,-,-,normalized⟩ := accepted
    exact ⟨write,normalized⟩
  · intro normalized
    have accepted := (@checkNormalized_iff batch .writeBatch).mpr (validateNormalized_iff.mp normalized)
    simp only [checkNormalized,bind_ok,exists_unit] at accepted
    obtain ⟨write,normalized⟩ := normalized
    exact ⟨write,accepted.2.1,accepted.2.2,normalized⟩

end preflight

end ExpirKv
