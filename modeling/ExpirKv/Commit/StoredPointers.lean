import ExpirKv.Commit.DescriptorExact
import ExpirKv.Commit.Planning
import ExpirKv.Vlog.Pointer

namespace ExpirKv
open VLogGeometry

section pointers

-- A pointer to a record with this key: every field in its range, and the lengths add up.
structure ValuePointer.Locates (pointer : ValuePointer) (key : Bytes) : Prop where
  valid : pointer.validateFields = .ok ()
  offset : pointer.recordOffset < 4294967296
  sized : pointer.recordLen = 55 + (key.length + pointer.valueLen)

-- What the descriptor encoder checks of the states of a key.
theorem encodeTxMutation_locates {mutation : TxMutation} {value : Bytes} {pointer : ValuePointer}
    (written : encodeTxMutation mutation = .ok value) (fits : StateFits mutation.afterState)
    (after : pointer ∈ mutation.afterState) : pointer.Locates mutation.userKey := by
  have valid := (encodeTxMutation_facts written).2 pointer (.inr after)
  simp only [encodeTxMutation,bind_ok,exists_unit] at written
  obtain ⟨-,-,keyed,-⟩ := written
  obtain ⟨layout,spans,named⟩ := validateValueStateKeyLen_ok.mp keyed pointer after
  obtain rfl := Except.ok.inj ((ValuePointer.layout_spans valid).symm.trans spans)
  obtain ⟨-,-,-,low⟩ := ValuePointer.validateFields_ok.mp valid
  refine ⟨valid,fits pointer after,?_⟩
  simp only [ValuePointer.spans] at named
  omega

theorem ValuePointer.Locates.encodes {pointer : ValuePointer} {key : Bytes} (locates : pointer.Locates key) :
    pointer.encode = .ok pointer.bytes := ValuePointer.encode_bytes.mpr ⟨locates.valid,rfl⟩

theorem ValuePointer.Locates.decoded {pointer : ValuePointer} {key : Bytes} (locates : pointer.Locates key)
    (operation : Operation) : decodeBeforeStatePointer pointer.bytes key operation = .ok (some pointer) := by
  obtain ⟨layout,laid,named⟩ := ValuePointer.layout_ok locates.valid locates.sized
  have read := (ValuePointer.decode_encode locates.encodes locates.offset).1
  simp only [decodeBeforeStatePointer,read,Except.mapError,ok_bind,laid]
  rw [rejectIf_false (by simp [named]),ok_bind,pure_ok]

end pointers

section stored
variable [Crc32c]

-- A pointer that the batch of some commit stores for a key.
def CommittedPointer (key encoded : Bytes) : Prop :=
  ∃ (write : ValidatedWrite) (headSeq : Nat) (vlogContext : Option VlogContext)
    (getUser : Bytes → Result (Option Bytes)) (uuidSource : Except IoError Uuid) (allocated : Bool)
    (commit : PreparedCommit), prepareCommit write headSeq vlogContext getUser uuidSource allocated = .ok commit ∧
      .putUser key encoded ∈ commit.indexBatch

omit [Crc32c] in
theorem commitBatch_put {mutations : List TxMutation} {descriptor : EncodedDescriptor} {commitSeq : Nat}
    {key encoded : Bytes} (member : IndexMutation.putUser key encoded ∈ commitBatch mutations descriptor commitSeq) :
    ∃ mutation ∈ mutations, ∃ pointer, mutation.userKey = key ∧ mutation.afterState = some pointer ∧
      encoded = pointer.bytes := by
  simp only [commitBatch,List.mem_append,List.mem_map,List.mem_cons,List.not_mem_nil,or_false,reduceCtorEq,
    false_or] at member
  obtain ⟨mutation,present,stored⟩ | ⟨_,-,other⟩ := member
  · refine ⟨mutation,present,?_⟩
    cases state : mutation.afterState with
    | none =>
      rw [state] at stored
      cases stored
    | some pointer =>
      rw [state] at stored
      cases stored
      exact ⟨pointer,rfl,rfl,rfl⟩
  · cases other

theorem CommittedPointer.locates {key encoded : Bytes} (committed : CommittedPointer key encoded) :
    ∃ pointer : ValuePointer, pointer.Locates key ∧ encoded = pointer.bytes := by
  obtain ⟨write,headSeq,vlogContext,getUser,uuidSource,allocated,commit,prepared,put⟩ := committed
  obtain ⟨⟨_,descriptor⟩,described,rfl⟩ := map_ok.mp prepared
  have honest : ∀ key value, getUser key = .ok value → value = (getUser key).toOption.join := by
    intro key value found
    rw [found]
    rfl
  have prepares := prepareDescribed_ok described honest
  obtain ⟨descriptorBytes,written,batch⟩ := prepares.batch
  rw [batch] at put
  obtain ⟨mutation,member,pointer,rfl,after,rfl⟩ := commitBatch_put put
  simp only [encodeDescriptor,bind_ok,exists_unit] at written
  obtain ⟨-,-,-,mutations,encodes,-⟩ := written
  obtain ⟨value,valued⟩ := encodeMutations_each encodes mutation member
  exact ⟨pointer,encodeTxMutation_locates valued (prepares.afterFits member) after,rfl⟩

-- The states a key may have before a write.
def StateLocates (state : Option ValuePointer) (key : Bytes) : Prop := ∀ pointer ∈ state, pointer.Locates key

-- A key is read, unless the backend could not read it.
theorem readBeforeState_total {getUser : Bytes → Result (Option Bytes)} {key : Bytes} (operation : Operation)
    (committed : ∀ encoded, getUser key = .ok (some encoded) → CommittedPointer key encoded) :
    (∃ state, readBeforeState getUser operation key = .ok state ∧ StateLocates state key) ∨
      ∃ error, getUser key = .error error ∧
        readBeforeState getUser operation key = .error (remapIndexRead error operation) := by
  cases read : getUser key with
  | error error => exact .inr ⟨error,rfl,by rw [readBeforeState,read]; rfl⟩
  | ok stored =>
    refine .inl ?_
    cases stored with
    | none => exact ⟨none,by rw [readBeforeState,read]; rfl,fun pointer present => by cases present⟩
    | some encoded =>
      obtain ⟨pointer,locates,rfl⟩ := (committed encoded read).locates
      refine ⟨some pointer,?_,?_⟩
      · simp only [readBeforeState,read,Except.mapError,ok_bind]
        exact locates.decoded operation
      · intro other present
        obtain rfl := Option.mem_some_iff.mp present
        exact locates

end stored

end ExpirKv
