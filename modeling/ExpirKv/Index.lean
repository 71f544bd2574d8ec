import ExpirKv.Library.Keyspace
import ExpirKv.Commit.Descriptor

namespace ExpirKv

-- `b"database_identity"`.
def databaseIdentityKey : Bytes :=
  [0x64,0x61,0x74,0x61,0x62,0x61,0x73,0x65,0x5F,0x69,0x64,0x65,0x6E,0x74,0x69,0x74,0x79]
def databaseIdentityMagic : Bytes := [0x52,0x4B,0x44,0x49]
@[simp] abbrev databaseIdentityEncodedLen : Nat := 32

inductive InternalIndexSpace where
  | transaction
  | system
  deriving DecidableEq, Repr

inductive IndexMutation where
  | initializeDatabaseIdentity (encodedIdentity : Bytes)
  | putUser (userKey encodedPointer : Bytes)
  | deleteUser (userKey : Bytes)
  | putInternal (space : InternalIndexSpace) (key value : Bytes)
  | deleteInternal (space : InternalIndexSpace) (key : Bytes)
  deriving DecidableEq, Repr

inductive IndexCommitMode where
  | buffer
  | syncAll
  deriving DecidableEq, Repr

inductive IndexApplyState where
  | notApplied
  | unknown
  deriving DecidableEq, Repr

structure InternalIndexError where
  kind : StorageErrorKind
  osCode : Option Int
  deriving DecidableEq, Repr

namespace InternalIndexError

def invalidBatch : InternalIndexError := ⟨.invalidArgument,none⟩

end InternalIndexError

structure IndexCommitError where
  applyState : IndexApplyState
  source : InternalIndexError
  deriving DecidableEq, Repr

abbrev IndexAtomicBatch := List IndexMutation

def isDatabaseIdentityKey (space : InternalIndexSpace) (key : Bytes) : Bool :=
  decide (space = .system ∧ key = databaseIdentityKey)

def validateOrdinaryMutation : IndexMutation → Except InternalIndexError Unit
  | .initializeDatabaseIdentity _ => .error .invalidBatch
  | .putUser userKey encodedPointer => rejectIf (userKey.isEmpty ∨ encodedPointer.isEmpty) .invalidBatch
  | .deleteUser userKey => rejectIf userKey.isEmpty .invalidBatch
  | .putInternal space key value =>
    rejectIf (key.isEmpty ∨ value.isEmpty ∨ isDatabaseIdentityKey space key) .invalidBatch
  | .deleteInternal space key => rejectIf (key.isEmpty ∨ isDatabaseIdentityKey space key) .invalidBatch

namespace IndexAtomicBatch

def tryPush (batch : IndexAtomicBatch) (mutation : IndexMutation) : Except InternalIndexError IndexAtomicBatch := do
  validateOrdinaryMutation mutation
  return batch ++ [mutation]

end IndexAtomicBatch

section initialization
variable [Crc32c]

def hasValidTrailingCrc (encoded : Bytes) (crcOffset : Nat) : Bool :=
  match slice? encoded 0 crcOffset,slice? encoded crcOffset 4 with
  | some covered,some encodedCrc => crc32c covered == leNat encodedCrc
  | _,_ => false

def isValidInitialDatabaseIdentity (encoded : Bytes) : Bool :=
  encoded.length == databaseIdentityEncodedLen && slice? encoded 0 4 == some databaseIdentityMagic &&
    slice? encoded 4 6 == some (List.replicate 6 0) && slice? encoded 10 16 != some (List.replicate 16 0) &&
    slice? encoded 26 2 == some [0,0] && hasValidTrailingCrc encoded 28

def isEncodedHeadSeqZero (encoded : Bytes) : Bool := encoded == List.replicate 8 0

def isEncodedEmptyDurableFrontier (encoded : Bytes) : Bool :=
  encoded.length == durableFrontierEncodedLen && slice? encoded 0 4 == some durableFrontierMagic &&
    slice? encoded 4 31 == some (List.replicate 31 0) && hasValidTrailingCrc encoded 35

def isInitializationTriple (operations : IndexAtomicBatch) : Bool :=
  match operations with
  | [.initializeDatabaseIdentity identity,.putInternal .system headKey head,.putInternal .system frontierKey frontier] =>
    isValidInitialDatabaseIdentity identity && headKey == headSeqKey && isEncodedHeadSeqZero head &&
      frontierKey == durableFrontierKey && isEncodedEmptyDurableFrontier frontier
  | _ => false

def initializationBatch (databaseFormatVersion : Nat) (databaseUuid : Uuid) :
    Except InternalIndexError IndexAtomicBatch := do
  rejectIf (databaseFormatVersion ≠ 0 ∨ databaseUuid.isZero) .invalidBatch
  let identity := appendCrc (databaseIdentityMagic ++ [0,0] ++ leBytes 4 databaseFormatVersion ++
    databaseUuid.val ++ [0,0])
  let frontier := appendCrc (durableFrontierMagic ++ List.replicate 31 0)
  let operations : IndexAtomicBatch := [.initializeDatabaseIdentity identity,
    .putInternal .system headSeqKey (List.replicate 8 0),.putInternal .system durableFrontierKey frontier]
  rejectIf (isInitializationTriple operations = false) .invalidBatch
  return operations

def IndexMutation.initializes : IndexMutation → Bool
  | .initializeDatabaseIdentity _ => true
  | _ => false

def IndexAtomicBatch.validateForCommit (batch : IndexAtomicBatch) (mode : IndexCommitMode) :
    Except IndexCommitError Unit := do
  rejectIf batch.isEmpty ⟨.notApplied,.invalidBatch⟩
  if batch.countP IndexMutation.initializes = 0 then
    batch.forM (fun mutation => (validateOrdinaryMutation mutation).mapError (fun source => ⟨.notApplied,source⟩))
  else
    rejectIf (batch.countP IndexMutation.initializes ≠ 1 ∨ mode ≠ .syncAll ∨ isInitializationTriple batch = false)
      ⟨.notApplied,.invalidBatch⟩

end initialization

-- The three keyspaces of the backend.
inductive IndexSpace where
  | user
  | internal (space : InternalIndexSpace)
  deriving DecidableEq, Repr

structure Index where
  user : Keyspace
  transaction : Keyspace
  system : Keyspace

namespace Index

def empty : Index := ⟨∅,∅,∅⟩

def keyspace (index : Index) : IndexSpace → Keyspace
  | .user => index.user
  | .internal .transaction => index.transaction
  | .internal .system => index.system

def setKeyspace (index : Index) (space : IndexSpace) (keyspace : Keyspace) : Index :=
  match space with
  | .user => {index with user := keyspace}
  | .internal .transaction => {index with transaction := keyspace}
  | .internal .system => {index with system := keyspace}

def get (index : Index) (target : IndexSpace × Bytes) : Option Bytes := (index.keyspace target.1)[target.2]?

end Index

-- Where a mutation writes, and what.
def IndexMutation.write : IndexMutation → (IndexSpace × Bytes) × Option Bytes
  | .initializeDatabaseIdentity encodedIdentity => ((.internal .system,databaseIdentityKey),some encodedIdentity)
  | .putUser userKey encodedPointer => ((.user,userKey),some encodedPointer)
  | .deleteUser userKey => ((.user,userKey),none)
  | .putInternal space key value => ((.internal space,key),some value)
  | .deleteInternal space key => ((.internal space,key),none)

namespace Index

def applyMutation (index : Index) (mutation : IndexMutation) : Index :=
  let target := mutation.write
  index.setKeyspace target.1.1 ((index.keyspace target.1.1).write target.1.2 target.2)

-- One indivisible backend commit.
def apply (index : Index) (batch : IndexAtomicBatch) : Index := batch.foldl applyMutation index

end Index

-- How the backend may answer a batch that passed the preflight. An unknown failure may have
-- applied it.
inductive CommitFault where
  | notApplied (source : InternalIndexError)
  | unknown (source : InternalIndexError) (applied : Bool)
  deriving DecidableEq, Repr

namespace Index
variable [Crc32c]

def ensureIdentity (index : Index) (batch : IndexAtomicBatch) : Except IndexCommitError Unit :=
  if isInitializationTriple batch then
    rejectIf (index.user.isEmpty = false ∨ index.transaction.isEmpty = false ∨ index.system.isEmpty = false)
      ⟨.notApplied,⟨.invalidLayout,none⟩⟩
  else
    rejectIf (index.system[databaseIdentityKey]? = none) ⟨.notApplied,⟨.invalidLayout,none⟩⟩

-- `commit_atomic`: the answer and the index after it.
def commitAtomic (index : Index) (batch : IndexAtomicBatch) (mode : IndexCommitMode) (fault : Option CommitFault) :
    Except IndexCommitError Unit × Index :=
  match batch.validateForCommit mode with
  | .error error => (.error error,index)
  | .ok () =>
    match index.ensureIdentity batch with
    | .error error => (.error error,index)
    | .ok () =>
      match fault with
      | none => (.ok (),index.apply batch)
      | some (.notApplied source) => (.error ⟨.notApplied,source⟩,index)
      | some (.unknown source applied) => (.error ⟨.unknown,source⟩,if applied then index.apply batch else index)

end Index

section facts

namespace Index

theorem get_applyMutation (index : Index) (mutation : IndexMutation) (target : IndexSpace × Bytes) :
    (index.applyMutation mutation).get target =
      if mutation.write.1 = target then mutation.write.2 else index.get target := by
  obtain ⟨space,key⟩ := target
  simp only [applyMutation]
  generalize mutation.write = written
  obtain ⟨⟨place,name⟩,value⟩ := written
  by_cases sameSpace : place = space
  · subst sameSpace
    have moved : (index.setKeyspace place ((index.keyspace place).write name value)).keyspace place =
        (index.keyspace place).write name value := by
      cases place with
      | user => rfl
      | internal inner => cases inner <;> rfl
    simp only [get,moved,Keyspace.getElem?_write,Prod.mk.injEq,true_and]
  · have kept : (index.setKeyspace place ((index.keyspace place).write name value)).keyspace space =
        index.keyspace space := by
      cases place with
      | user => cases space with
        | user => exact absurd rfl sameSpace
        | internal other => cases other <;> rfl
      | internal inner => cases space with
        | user => cases inner <;> rfl
        | internal other => cases inner <;> cases other <;> first | exact absurd rfl sameSpace | rfl
    simp only [get,kept,Prod.mk.injEq,sameSpace,false_and,if_false]

-- A batch writes like a log of single writes.
theorem get_apply (index : Index) (batch : IndexAtomicBatch) (target : IndexSpace × Bytes) :
    (index.apply batch).get target = (lastValue (batch.map IndexMutation.write) target).getD (index.get target) := by
  rw [←writeAll_apply]
  unfold apply writeAll
  induction batch generalizing index with
  | nil => rfl
  | cons mutation rest ih =>
    have step : (index.applyMutation mutation).get = Function.update index.get mutation.write.1 mutation.write.2 := by
      funext other
      rw [get_applyMutation]
      by_cases same : mutation.write.1 = other
      · subst same
        simp
      · rw [if_neg same,Function.update_of_ne (Ne.symm same)]
    rw [List.foldl_cons,List.map_cons,List.foldl_cons,ih,step]

theorem apply_append (index : Index) (front back : IndexAtomicBatch) :
    index.apply (front ++ back) = (index.apply front).apply back := List.foldl_append

end Index

def place (space : IndexSpace) (write : Bytes × Option Bytes) : (IndexSpace × Bytes) × Option Bytes :=
  ((space,write.1),write.2)

-- Writes to one keyspace, read in that keyspace and in another.
theorem lastValue_place_same (space : IndexSpace) (writes : List (Bytes × Option Bytes)) (key : Bytes) :
    lastValue (writes.map (place space)) (space,key) = lastValue writes key := by
  induction writes using List.reverseRecOn with
  | nil => rfl
  | append_singleton writes write ih => simp [lastValue_concat,place,ih]

theorem lastValue_place_other {space other : IndexSpace} (apart : space ≠ other)
    (writes : List (Bytes × Option Bytes)) (key : Bytes) :
    lastValue (writes.map (place space)) (other,key) = none := by
  apply lastValue_of_notMem
  intro member
  simp only [List.map_map,List.mem_map] at member
  obtain ⟨write,-,same⟩ := member
  exact apart (congrArg Prod.fst same)

-- The writes of a batch sorted by keyspace: every batch of the program has this order.
def IndexAtomicBatch.Writes (batch : IndexAtomicBatch) (user transaction system : List (Bytes × Option Bytes)) : Prop :=
  batch.map IndexMutation.write =
    user.map (place .user) ++ (transaction.map (place (.internal .transaction)) ++
      system.map (place (.internal .system)))

section writes
variable {batch : IndexAtomicBatch} {users transactions systems : List (Bytes × Option Bytes)}

theorem IndexAtomicBatch.Writes.user (writes : batch.Writes users transactions systems) (index : Index) (key : Bytes) :
    (index.apply batch).user[key]? = (lastValue users key).getD index.user[key]? := by
  have read := Index.get_apply index batch (.user,key)
  rw [writes,lastValue_append,lastValue_append,lastValue_place_same,lastValue_place_other (by simp),
    lastValue_place_other (by simp)] at read
  simpa [Index.get,Index.keyspace] using read

theorem IndexAtomicBatch.Writes.transaction (writes : batch.Writes users transactions systems) (index : Index)
    (key : Bytes) :
    (index.apply batch).transaction[key]? = (lastValue transactions key).getD index.transaction[key]? := by
  have read := Index.get_apply index batch (.internal .transaction,key)
  rw [writes,lastValue_append,lastValue_append,lastValue_place_same,lastValue_place_other (by simp),
    lastValue_place_other (by simp)] at read
  simpa [Index.get,Index.keyspace] using read

theorem IndexAtomicBatch.Writes.system (writes : batch.Writes users transactions systems) (index : Index) (key : Bytes) :
    (index.apply batch).system[key]? = (lastValue systems key).getD index.system[key]? := by
  have read := Index.get_apply index batch (.internal .system,key)
  rw [writes,lastValue_append,lastValue_append,lastValue_place_same,lastValue_place_other (by simp),
    lastValue_place_other (by simp)] at read
  simpa [Index.get,Index.keyspace] using read

end writes

-- A batch of single checked mutations, as every part of the program but the first open builds it.
structure IndexAtomicBatch.Ordinary (batch : IndexAtomicBatch) : Prop where
  nonempty : batch ≠ []
  valid : ∀ mutation ∈ batch, validateOrdinaryMutation mutation = .ok ()

section ordinary
variable [Crc32c] {batch : IndexAtomicBatch}

omit [Crc32c] in
theorem IndexAtomicBatch.Ordinary.initializes (ordinary : batch.Ordinary) :
    ∀ mutation ∈ batch, mutation.initializes = false := by
  intro mutation member
  have valid := ordinary.valid mutation member
  cases mutation <;> first | rfl | cases valid

theorem IndexAtomicBatch.Ordinary.validates (ordinary : batch.Ordinary) (mode : IndexCommitMode) :
    batch.validateForCommit mode = .ok () := by
  have none : batch.countP IndexMutation.initializes = 0 := by
    rw [List.countP_eq_zero]
    intro mutation member
    simp [ordinary.initializes mutation member]
  rw [validateForCommit,rejectIf_false (by simp [ordinary.nonempty]),ok_bind,if_pos none,forM_ok]
  intro mutation member
  rw [ordinary.valid mutation member]
  rfl

theorem IndexAtomicBatch.Ordinary.notTriple (ordinary : batch.Ordinary) : isInitializationTriple batch = false := by
  unfold isInitializationTriple
  split
  · have refused := ordinary.initializes _ List.mem_cons_self
    cases refused
  · rfl

omit [Crc32c] in
-- No ordinary mutation writes the identity.
theorem IndexAtomicBatch.Ordinary.identity (ordinary : batch.Ordinary) (index : Index) :
    (index.apply batch).system[databaseIdentityKey]? = index.system[databaseIdentityKey]? := by
  have unwritten : lastValue (batch.map IndexMutation.write) (.internal .system,databaseIdentityKey) = none := by
    apply lastValue_of_notMem
    intro member
    simp only [List.map_map,List.mem_map,Function.comp_apply] at member
    obtain ⟨mutation,member,same⟩ := member
    have valid := ordinary.valid mutation member
    cases mutation with
    | initializeDatabaseIdentity encoded => cases valid
    | putUser key value => cases same
    | deleteUser key => cases same
    | putInternal space key value =>
      simp only [IndexMutation.write,Prod.mk.injEq,IndexSpace.internal.injEq] at same
      simp [validateOrdinaryMutation,isDatabaseIdentityKey,same] at valid
    | deleteInternal space key =>
      simp only [IndexMutation.write,Prod.mk.injEq,IndexSpace.internal.injEq] at same
      simp [validateOrdinaryMutation,isDatabaseIdentityKey,same] at valid
  have read := Index.get_apply index batch (.internal .system,databaseIdentityKey)
  rw [unwritten] at read
  exact read

-- How the backend answers an ordinary batch on an initialised database.
theorem IndexAtomicBatch.Ordinary.commit (ordinary : batch.Ordinary) {index : Index} (mode : IndexCommitMode)
    (fault : Option CommitFault) (identified : index.system[databaseIdentityKey]? ≠ none) :
    index.commitAtomic batch mode fault =
      match fault with
      | none => (.ok (),index.apply batch)
      | some (.notApplied source) => (.error ⟨.notApplied,source⟩,index)
      | some (.unknown source applied) => (.error ⟨.unknown,source⟩,if applied then index.apply batch else index) := by
  have bound : index.ensureIdentity batch = .ok () := by
    rw [Index.ensureIdentity,ordinary.notTriple]
    exact rejectIf_false identified
  simp only [Index.commitAtomic,ordinary.validates mode,bound]

end ordinary

end facts

end ExpirKv
