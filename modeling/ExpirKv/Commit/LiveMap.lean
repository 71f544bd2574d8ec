import ExpirKv.Commit.Planning
import ExpirKv.Library.Denoting
import ExpirKv.Vlog.Pointer

namespace ExpirKv
open VLogGeometry

section maps

-- What an operation leaves at its key.
def LogicalOperation.value : LogicalOperation → Option Bytes
  | .put _ value => some value
  | .delete _ => none

-- The map that the users of a database see.
abbrev UserMap := Bytes → Option Bytes

def UserMap.execute (map : UserMap) (operations : List LogicalOperation) : UserMap :=
  writeAll map (operations.map (fun operation => (operationKey operation,operation.value)))

theorem UserMap.execute_append (map : UserMap) (front back : List LogicalOperation) :
    map.execute (front ++ back) = (map.execute front).execute back := by
  simp only [execute,writeAll,List.map_append,List.foldl_append]

end maps

section reading
variable [Crc32c] {files later : FileSet} {key value : Bytes}

-- What a stored pointer stands for.
def FileSet.Stands (files : FileSet) (key encoded value : Bytes) : Prop := readValue files encoded key = .ok value

theorem FileSet.Stands.single {encoded other : Bytes} (one : files.Stands key encoded value)
    (two : files.Stands key encoded other) : value = other := Except.ok.inj (one.symm.trans two)

theorem readPointer_extends {pointer : ValuePointer} (geometry : files.geometry = production)
    (grown : files.Extends later) (read : readPointer files pointer key = .ok value) :
    readPointer later pointer key = .ok value := by
  simp only [readPointer,bind_ok,mapError_ok,readExactAt,orError_ok] at read ⊢
  obtain ⟨layout,shaped,contents,opened,found,bounded,bytes,taken,record,decoded,rest⟩ := read
  obtain ⟨more,reopened⟩ := grown.opens _ _ opened
  obtain ⟨-,-,valid⟩ := FileSet.handle_ok.mp reopened
  have limit := (FileSet.validateCandidate_ok.mp valid).1
  rw [grown.geometry,geometry] at limit
  have bounds := ValuePointer.validateFileBounds_ok.mp bounded
  refine ⟨layout,shaped,_,reopened,found,?_,bytes,?_,record,?_,rest⟩
  · refine ValuePointer.validateFileBounds_ok.mpr ⟨bounds.1,bounds.2.1,limit,?_,bounds.2.2.2.2⟩
    rw [List.length_append]
    exact Nat.le_trans bounds.2.2.2.1 (Nat.le_add_right _ _)
  · rw [slice?_append_left _ (slice?_eq_some.mp taken).1]
    exact taken
  · rw [grown.geometry]
    exact decoded

-- A value that could be read can be read ever after.
theorem FileSet.Stands.extends {encoded : Bytes} (stands : files.Stands key encoded value)
    (geometry : files.geometry = production) (grown : files.Extends later) : later.Stands key encoded value := by
  simp only [Stands,readValue,bind_ok,mapError_ok] at stands ⊢
  obtain ⟨pointer,decoded,read⟩ := stands
  exact ⟨pointer,decoded,readPointer_extends geometry grown read⟩

-- The entries of the index stand for a map of values.
def Serves (files : FileSet) (index : Index) (map : UserMap) : Prop :=
  Denotes files.Stands (fun key => index.user[key]?) map

theorem Serves.extends {index : Index} {map : UserMap} (serves : Serves files index map)
    (geometry : files.geometry = production) (grown : files.Extends later) : Serves later index map :=
  serves.mono (fun _ _ _ stands => stands.extends geometry grown)

theorem Serves.same {index moved : Index} {map : UserMap} (serves : Serves files index map)
    (user : moved.user = index.user) : Serves files moved map := by
  intro key
  rw [user]
  exact serves key

theorem EnvelopeLaid.stands {databaseUuid txUuid : Uuid} {position : VLogPosition} {commitSeq : Nat}
    {operations : List LogicalOperation} {envelope : PreparedEnvelope} {index : Nat}
    (laid : EnvelopeLaid databaseUuid position commitSeq txUuid operations envelope)
    (geometry : files.geometry = production) (held : ∀ chunk ∈ envelope.chunks, Holds files chunk)
    (found : operations[index]? = some (.put key value)) :
    ∃ pointer : ValuePointer, envelope.valuePointers[index]? = some (some pointer) ∧
      files.Stands key pointer.bytes value := by
  obtain ⟨start,bytes,stands,decoded,pointed⟩ := laid.pointer found
  obtain ⟨⟨file,offset,low,first⟩,inside,named,small,width⟩ := decodeRecordAt_kv decoded
  have valid : (⟨0,start.fileId,start.offset,bytes.length,value.length⟩ : ValuePointer).validateFields = .ok () :=
    ValuePointer.validateFields_ok.mpr ⟨rfl,file,by simp only at *; omega,by simp only at *; omega⟩
  have written := ValuePointer.encode_bytes.mpr ⟨valid,rfl⟩
  have back := (ValuePointer.decode_encode written offset).1
  refine ⟨_,pointed,?_⟩
  simp only [FileSet.Stands,readValue,back,Except.mapError,ok_bind]
  exact readPointer_held geometry (held _ stands) decoded

end reading

section commits
variable [Crc32c] {write : ValidatedWrite} {headSeq : Nat} {vlogContext : Option VlogContext}
  {stored : Bytes → Option Bytes} {commit : PreparedCommit} {descriptor : TransactionDescriptor} {files : FileSet}

-- An envelope of a write that the files hold.
def FileSet.Carries (files : FileSet) (write : ValidatedWrite) (envelope : PreparedEnvelope) : Prop :=
  ∃ databaseUuid position commitSeq txUuid,
    EnvelopeLaid databaseUuid position commitSeq txUuid write.operations envelope ∧
      ∀ chunk ∈ envelope.chunks, Holds files chunk

-- The state that stands in the index for an operation, once its envelope is there.
theorem operationStates_stands {envelope : Option PreparedEnvelope} (geometry : files.geometry = production)
    (paired : Paired write.operations (operationStates write envelope))
    (carried : ∀ written ∈ envelope, files.Carries write written) {place : Nat} {operation : LogicalOperation}
    {state : Option ValuePointer} (found : write.operations[place]? = some operation)
    (there : (operationStates write envelope)[place]? = some state) :
    Option.Rel (files.Stands (operationKey operation)) (storedState state) operation.value := by
  have kind : state.isSome = operation.isPut := by
    have here := congrArg (fun list => list[place]?) paired
    simpa [found,there] using here
  cases operation with
  | delete key =>
    have none : state = none := by simpa [LogicalOperation.isPut] using kind
    rw [none]
    exact .none
  | put key value =>
    cases envelope with
    | none =>
      simp only [operationStates,List.getElem?_replicate,Option.ite_none_right_eq_some,Option.some.injEq] at there
      rw [←there.2] at kind
      cases kind
    | some written =>
      obtain ⟨databaseUuid,position,commitSeq,txUuid,placed,held⟩ := carried written rfl
      obtain ⟨pointer,pointed,stands⟩ := placed.stands geometry held found
      obtain rfl := Option.some.inj (there.symm.trans pointed)
      exact .some stands

theorem Prepares.stands (prepares : Prepares write headSeq vlogContext stored commit descriptor)
    (geometry : files.geometry = production) (carried : ∀ written ∈ commit.envelope, files.Carries write written) :
    List.Forall₂ (fun entry meaning : Bytes × Option Bytes =>
        entry.1 = meaning.1 ∧ Option.Rel (files.Stands entry.1) entry.2 meaning.2)
      ((write.operations.map operationKey).zip ((operationStates write commit.envelope).map storedState))
      (write.operations.map (fun operation => (operationKey operation,operation.value))) := by
  have sized := prepares.states
  rw [List.forall₂_iff_get]
  refine ⟨by simp [sized],?_⟩
  intro place left right
  have inside : place < write.operations.length := by simpa using right
  have stateInside : place < (operationStates write commit.envelope).length := by rw [sized]; exact inside
  simp only [List.get_eq_getElem,List.getElem_zip,List.getElem_map,true_and]
  exact operationStates_stands geometry prepares.paired carried (List.getElem?_eq_getElem inside)
    (List.getElem?_eq_getElem stateInside)

-- The batch of a commit does to the entries what its operations do to the map.
theorem Serves.committed {index : Index} {map : UserMap} (serves : Serves files index map)
    (prepares : Prepares write headSeq vlogContext stored commit descriptor) (geometry : files.geometry = production)
    (carried : ∀ written ∈ commit.envelope, files.Carries write written) :
    Serves files (index.apply commit.indexBatch) (map.execute write.operations) := by
  have written := Denotes.writeAll serves (prepares.stands geometry carried)
  have executed := executeOperations_writes (prepares.paired.map ValuePointer.bytes) (fun key => index.user[key]?)
  intro key
  change Option.Rel _ (index.apply commit.indexBatch).user[key]? _
  rw [prepares.user index key]
  change Option.Rel _ (executeOperations _ (write.operations.zip ((operationStates write commit.envelope).map
    (Option.map ValuePointer.bytes))) key) _
  rw [executed]
  exact written key

end commits

end ExpirKv
