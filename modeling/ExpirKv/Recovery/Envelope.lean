import ExpirKv.Commit.ProtocolFacts
import ExpirKv.Vlog.Laying

namespace ExpirKv
open VLogGeometry

def envelopeStateMatches (actual expected : Option ValuePointer) : Bool := actual == expected

def validateEnvelopeAgainstDescriptor (envelope : RecoveryEnvelope) (descriptor : TransactionDescriptor) :
    Result Unit := do
  let scanned := envelope.scanned
  let txMeta := descriptor.txMeta
  rejectIf (scanned.commitSeq ≠ txMeta.commitSeq ∨ scanned.txUuid ≠ txMeta.txUuid ∨
    scanned.vlogBegin ≠ txMeta.vlogBegin ∨ scanned.vlogEnd ≠ txMeta.vlogEnd ∨
    scanned.logicalOpCount ≠ txMeta.logicalOpCount ∨ scanned.distinctKeyCount ≠ txMeta.distinctKeyCount ∨
    scanned.envelopeCrc32c ≠ txMeta.envelopeCrc32c ∨
    envelope.finalStates.length ≠ descriptor.mutations.length) recoveryCorruption
  (envelope.finalStates.zip descriptor.mutations).forM (fun pair =>
    rejectIf (pair.1.userKey ≠ pair.2.userKey ∨ envelopeStateMatches pair.1.state pair.2.afterState = false)
      recoveryCorruption)

section read
variable [Crc32c]

def readAndValidateEnvelope (files : FileSet) (descriptor : TransactionDescriptor) : Result Unit := do
  rejectIf (descriptor.txMeta.transactionKind ≠ .vlogEnvelope) recoveryCorruption
  let envelope ← readRecoveryEnvelope files descriptor.txMeta.vlogBegin descriptor.txMeta.vlogEnd
    (some descriptor.txMeta.envelopeCrc32c)
  validateEnvelopeAgainstDescriptor envelope descriptor

end read

theorem validateEnvelopeAgainstDescriptor_ok {envelope : RecoveryEnvelope} {descriptor : TransactionDescriptor} :
    validateEnvelopeAgainstDescriptor envelope descriptor = .ok () ↔
      (envelope.scanned.commitSeq = descriptor.txMeta.commitSeq ∧ envelope.scanned.txUuid = descriptor.txMeta.txUuid ∧
        envelope.scanned.vlogBegin = descriptor.txMeta.vlogBegin ∧
        envelope.scanned.vlogEnd = descriptor.txMeta.vlogEnd ∧
        envelope.scanned.logicalOpCount = descriptor.txMeta.logicalOpCount ∧
        envelope.scanned.distinctKeyCount = descriptor.txMeta.distinctKeyCount ∧
        envelope.scanned.envelopeCrc32c = descriptor.txMeta.envelopeCrc32c) ∧
      envelope.finalStates.map (fun state => (state.userKey,state.state)) =
        descriptor.mutations.map (fun mutation => (mutation.userKey,mutation.afterState)) := by
  simp only [validateEnvelopeAgainstDescriptor,bind_ok,exists_unit,rejectIf_ok,forM_ok,not_or,not_not,ne_eq,
    envelopeStateMatches]
  generalize envelope.finalStates = states
  generalize descriptor.mutations = mutations
  constructor
  · rintro ⟨⟨seq,uuid,begins,ends,logical,distinct,crc,count⟩,each⟩
    refine ⟨⟨seq,uuid,begins,ends,logical,distinct,crc⟩,?_⟩
    apply List.ext_getElem (by simpa using count)
    intro index left right
    simp only [List.length_map] at left right
    have pair := rejectIf_ok.mp (each (states[index],mutations[index])
      (List.mem_iff_getElem.mpr ⟨index,by simp; omega,by simp⟩))
    simp only [not_or,not_not,Bool.not_eq_false,beq_iff_eq] at pair
    simp only [List.getElem_map,pair.1,pair.2]
  · rintro ⟨⟨seq,uuid,begins,ends,logical,distinct,crc⟩,same⟩
    have count : states.length = mutations.length := by simpa using congrArg List.length same
    refine ⟨⟨seq,uuid,begins,ends,logical,distinct,crc,count⟩,?_⟩
    intro pair member
    obtain ⟨index,bound,rfl⟩ := List.mem_iff_getElem.mp member
    simp only [List.length_zip] at bound
    have here := congrArg (fun list => list[index]?) same
    simp only [List.getElem?_map,List.getElem?_eq_getElem (show index < states.length by omega),
      List.getElem?_eq_getElem (show index < mutations.length by omega),Option.map_some,Option.some.injEq,
      Prod.mk.injEq] at here
    exact rejectIf_false (by simpa using here)

section counts

theorem distinctKeys_count (operations : List LogicalOperation) :
    (distinctKeys operations).length = (firstOccurrences (operations.map operationKey)).length := by
  obtain ⟨distinct,members⟩ := distinctKeys_exact operations
  have nodup : (firstOccurrences (operations.map operationKey)).Nodup := by
    have nodup := lastWrites_nodup (operations.map (fun operation => (operationKey operation,())))
    rw [lastWrites_keys,List.map_map] at nodup
    exact nodup
  refine List.Perm.length_eq ((List.perm_ext_iff_of_nodup distinct nodup).mpr ?_)
  intro key
  rw [members,mem_firstOccurrences]

end counts

section accepted
variable [Crc32c]

theorem prepareCommitEnvelope_some {write : ValidatedWrite} {commitSeq : Nat} {txUuid : Uuid}
    {vlogContext : Option VlogContext} {envelope : PreparedEnvelope}
    (prepared : prepareCommitEnvelope write commitSeq txUuid vlogContext = .ok (some envelope)) :
    write.transactionKind = .vlogEnvelope ∧ ∃ context, vlogContext = some context ∧
      ∃ next, prepareEnvelope ⟨context.geometry,context.appendCursor⟩ context.databaseUuid commitSeq txUuid
        write.operations = .ok (envelope,next) := by
  unfold prepareCommitEnvelope at prepared
  split at prepared
  · rename_i kind
    simp only [bind_ok,exists_unit,rejectIf_ok,orError_ok,mapError_ok,pure_ok,Except.ok.injEq,Option.some.injEq] at prepared
    obtain ⟨context,rfl,-,planner,started,⟨_,next⟩,prepared,rfl⟩ := prepared
    refine ⟨kind,context,rfl,next,?_⟩
    simp only [LayoutPlanner.fromPosition,bind_ok,exists_unit,rejectIf_ok,pure_ok,Except.ok.injEq] at started
    obtain ⟨-,-,-,rfl⟩ := started
    exact prepared
  · simp only [bind_ok,exists_unit,rejectIf_ok,pure_ok,Except.ok.injEq,reduceCtorEq,and_false] at prepared

theorem prepareCommitEnvelope_none {write : ValidatedWrite} {commitSeq : Nat} {txUuid : Uuid}
    {vlogContext : Option VlogContext} (prepared : prepareCommitEnvelope write commitSeq txUuid vlogContext = .ok none) :
    write.transactionKind = .indexOnlyDelete ∧ vlogContext = none := by
  unfold prepareCommitEnvelope at prepared
  split at prepared
  · simp only [bind_ok,rejectIf_ok,orError_ok,mapError_ok,pure_ok,Except.ok.injEq,reduceCtorEq,and_false,
      exists_false] at prepared
  · rename_i kind
    simp only [bind_ok,exists_unit,rejectIf_ok,pure_ok,and_true] at prepared
    exact ⟨kind,by simpa using prepared⟩

variable {write : ValidatedWrite} {headSeq : Nat} {vlogContext : Option VlogContext} {stored : Bytes → Option Bytes}
  {commit : PreparedCommit} {descriptor : TransactionDescriptor} {envelope : PreparedEnvelope}

theorem Prepares.laid (prepares : Prepares write headSeq vlogContext stored commit descriptor)
    (present : commit.envelope = some envelope) (geometry : ∀ context ∈ vlogContext, context.geometry = production) :
    ∃ context, vlogContext = some context ∧
      EnvelopeLaid context.databaseUuid context.appendCursor (headSeq + 1) commit.txUuid write.operations envelope := by
  have prepared := prepares.envelope
  rw [present] at prepared
  obtain ⟨-,context,rfl,next,prepared⟩ := prepareCommitEnvelope_some prepared
  rw [geometry context rfl] at prepared
  exact ⟨context,rfl,(prepareEnvelope_laid prepares.bound prepared).1⟩

-- The states the reader collects are the after states the descriptor promises.
theorem Prepares.finalStates (prepares : Prepares write headSeq vlogContext stored commit descriptor)
    (present : commit.envelope = some envelope) :
    (envelopeFinalStates write.operations envelope.valuePointers).map (fun state => (state.userKey,state.state)) =
      descriptor.mutations.map (fun mutation => (mutation.userKey,mutation.afterState)) := by
  have after := prepares.after
  have states := prepares.states
  rw [present] at after states
  have keys := operationWrites_keys states
  simp only [operationWrites,operationStates] at after keys
  rw [envelopeFinalStates,List.map_map]
  refine (List.map_id _).trans (lastWrites_unique ?_ ?_).symm
  · rw [keys,List.map_map,←write.keyed,←prepares.keys]
    rfl
  · intro entry member
    obtain ⟨mutation,present,rfl⟩ := List.mem_map.mp member
    exact after mutation present

theorem Prepares.validates (prepares : Prepares write headSeq vlogContext stored commit descriptor)
    (present : commit.envelope = some envelope) {databaseUuid : Uuid} {position : VLogPosition}
    (laid : EnvelopeLaid databaseUuid position (headSeq + 1) commit.txUuid write.operations envelope) :
    validateEnvelopeAgainstDescriptor
      ⟨EnvelopeLaid.scanned position (headSeq + 1) commit.txUuid write.operations envelope,
        envelopeFinalStates write.operations envelope.valuePointers⟩ descriptor = .ok () := by
  have count : descriptor.mutations.length = (distinctKeys write.operations).length := by
    rw [distinctKeys_count,←write.keyed,←prepares.keys,List.length_map]
  refine validateEnvelopeAgainstDescriptor_ok.mpr ⟨?_,prepares.finalStates present⟩
  rw [prepares.described,present]
  exact ⟨rfl,rfl,laid.vlogBegin_eq.symm,rfl,rfl,count.symm,rfl⟩

omit [Crc32c] in
theorem Entry.pointer_isSome {entry : Entry} {commitSeq opIndex : Nat} {txUuid : Uuid} {operation : LogicalOperation}
    (record : entry.record = operationRecord commitSeq txUuid opIndex operation) :
    entry.pointer.isSome = operation.isPut := by
  unfold Entry.pointer
  rw [record]
  cases operation <;> rfl

omit [Crc32c] in
-- Each collected state is what the last operation of its key left.
theorem envelopeFinalStates_last {operations : List LogicalOperation} {pointers : List (Option ValuePointer)}
    {state : EnvelopeFinalState} (member : state ∈ envelopeFinalStates operations pointers) :
    ∃ index operation, operations[index]? = some operation ∧ operationKey operation = state.userKey ∧
      pointers[index]? = some state.state ∧
      ∀ (later : Nat) (other : LogicalOperation), index < later → later < pointers.length →
        operations[later]? = some other → operationKey other ≠ state.userKey := by
  obtain ⟨write,present,rfl⟩ := List.mem_map.mp member
  obtain ⟨index,found,none⟩ := lastValue_place (mem_lastWrites.mp present)
  simp only [envelopeWrites,List.getElem?_zip_eq_some,List.getElem?_map,Option.map_eq_some_iff] at found
  obtain ⟨⟨operation,there,keyed⟩,pointed⟩ := found
  refine ⟨index,operation,there,keyed,pointed,?_⟩
  intro later other beyond inside reached
  refine none later (operationKey other,pointers[later]) beyond ?_
  simp only [envelopeWrites,List.getElem?_zip_eq_some,List.getElem?_map,reached,Option.map_some,true_and]
  exact List.getElem?_eq_getElem inside

-- Whatever the packing into pages and files, a prepared envelope that is laid at the end of the
-- log is read back as it was prepared, and it is the envelope its descriptor describes.
theorem prepared_envelope_read_back {files : FileSet} {position : VLogPosition} {commitSeq : Nat} {txUuid : Uuid}
    {operations : List LogicalOperation} {next : LayoutPlanner} (reached : AppendPosition position)
    (ends : EndsAt files position) (seq : commitSeq < 18446744073709551616)
    (prepared : prepareEnvelope ⟨production,position⟩ files.databaseUuid commitSeq txUuid operations =
      .ok (envelope,next)) :
    ∃ read, readRecoveryEnvelope (files.layAll envelope.chunks) envelope.vlogBegin envelope.vlogEnd
        (some envelope.envelopeCrc32c) = .ok read ∧
      read.scanned = {
        commitSeq := envelope.commitSeq
        txUuid := envelope.txUuid
        vlogBegin := envelope.vlogBegin
        vlogEnd := envelope.vlogEnd
        logicalOpCount := operations.length
        distinctKeyCount := (firstOccurrences (operations.map operationKey)).length
        kvRecordCount := operations.countP LogicalOperation.isPut
        deleteRecordCount := operations.countP (fun operation => !operation.isPut)
        envelopeCrc32c := envelope.envelopeCrc32c } ∧
      envelope.commitSeq = commitSeq ∧ envelope.txUuid = txUuid ∧ envelope.vlogBegin = position ∧
      read.finalStates.map EnvelopeFinalState.userKey = firstOccurrences (operations.map operationKey) ∧
      (∀ state ∈ read.finalStates, ∃ index operation, operations[index]? = some operation ∧
        operationKey operation = state.userKey ∧
        (∀ (later : Nat) (other : LogicalOperation), index < later → operations[later]? = some other →
          operationKey other ≠ state.userKey) ∧
        envelope.valuePointers[index]? = some state.state ∧ state.state.isSome = operation.isPut) ∧
      ∀ (write : ValidatedWrite) (headSeq : Nat) (getUser : Bytes → Result (Option Bytes))
        (uuidSource : Except IoError Uuid) (allocated : Bool) (commit : PreparedCommit)
        (descriptor : TransactionDescriptor),
        prepareDescribed write headSeq (some ⟨files.databaseUuid,position,production⟩) getUser uuidSource allocated =
          .ok (commit,descriptor) →
        commit.envelope = some envelope → write.operations = operations →
        validateEnvelopeAgainstDescriptor read descriptor = .ok () := by
  have laid := (prepareEnvelope_laid seq prepared).1
  have good := reached.placeable.good
  obtain ⟨done,-,held⟩ := laid.lays ends rfl
  have sized : envelope.valuePointers.length = operations.length := by
    obtain ⟨_,entries,_,-,-,-,records,pointers⟩ := laid.laid
    have count := congrArg List.length records
    rw [←pointers]
    simpa [operationRecords_length] using count
  have read := laid.read done.geometry (FileSet.layAll_identity _ _) ⟨good.1,good.2.1⟩
    (by simp : ∀ checksum ∈ some envelope.envelopeCrc32c, checksum = envelope.envelopeCrc32c) held
  rw [←laid.vlogBegin_eq] at read
  refine ⟨_,read,?_,laid.commitSeq_eq,laid.txUuid_eq,laid.vlogBegin_eq,?_,?_,?_⟩
  · simp only [EnvelopeLaid.scanned,laid.commitSeq_eq,laid.txUuid_eq,distinctKeys_count]
  · rw [envelopeFinalStates,List.map_map]
    refine (lastWrites_keys _).trans ?_
    rw [envelopeWrites,List.map_fst_zip (by simp [sized])]
  · intro state member
    obtain ⟨index,operation,found,keyed,pointed,none⟩ := envelopeFinalStates_last member
    refine ⟨index,operation,found,keyed,?_,pointed,?_⟩
    · intro later other beyond there
      refine none later other beyond ?_ there
      rw [sized]
      exact (List.getElem?_eq_some_iff.mp there).1
    · obtain ⟨entry,-,-,-,record,pointer⟩ := laid.entry found
      rw [pointer,Option.some.injEq] at pointed
      rw [←pointed,entry.pointer_isSome record]
  · rintro write headSeq getUser uuidSource allocated commit descriptor described present rfl
    have prepares := @prepareDescribed_ok _ _ _ _ _ (fun key => (getUser key).toOption.join) _ _ _ _ described
      (fun key value found => by simp [found,Except.toOption])
    obtain ⟨context,isContext,same⟩ := prepares.laid present (fun _ isContext => by cases isContext; rfl)
    obtain rfl := Option.some.inj isContext
    obtain rfl : headSeq + 1 = commitSeq := same.commitSeq_eq.symm.trans laid.commitSeq_eq
    obtain rfl : commit.txUuid = txUuid := same.txUuid_eq.symm.trans laid.txUuid_eq
    rw [laid.vlogBegin_eq]
    exact prepares.validates present same

end accepted

theorem prepared_envelope_read_back_from_empty :
    let database : Uuid := ⟨List.replicate 16 1,rfl⟩
    let operations : List LogicalOperation := [.put [1] [2,3],.delete [4],.put [1] [],.delete [1],.put [4] [5]]
    ∃ envelope next read,
      @prepareEnvelope castagnoli ⟨production,⟨0,0⟩⟩ database 1 ⟨List.replicate 16 7,rfl⟩ operations =
        .ok (envelope,next) ∧
      @readRecoveryEnvelope castagnoli ((FileSet.empty database).layAll envelope.chunks) envelope.vlogBegin
        envelope.vlogEnd (some envelope.envelopeCrc32c) = .ok read ∧
      read.finalStates.map EnvelopeFinalState.userKey = [[1],[4]] := by
  intro database operations
  have succeeds : (@prepareEnvelope castagnoli ⟨production,⟨0,0⟩⟩ database 1 ⟨List.replicate 16 7,rfl⟩
    operations).toOption.isSome = true := by decide +kernel
  obtain ⟨⟨envelope,next⟩,prepared⟩ := ok_of_isSome succeeds
  obtain ⟨read,done,-,-,-,-,keys,-⟩ := @prepared_envelope_read_back castagnoli envelope (FileSet.empty database) ⟨0,0⟩ 1
    ⟨List.replicate 16 7,rfl⟩ operations next .empty (@EndsAt.empty castagnoli database) (by decide) prepared
  exact ⟨envelope,next,read,prepared,done,keys.trans (by decide)⟩

end ExpirKv
