import ExpirKv.Commit.Totality

namespace ExpirKv
open VLogGeometry Storage ValueLog

section states
variable [Crc32c] {write : ValidatedWrite} {writer : ValueLogWriter} {commitSeq headSeq : Nat} {txUuid : Uuid}
  {envelope : Option PreparedEnvelope}

theorem EnvelopeLaid.locates {databaseUuid : Uuid} {position : VLogPosition} {operations : List LogicalOperation}
    {envelope : PreparedEnvelope} (laid : EnvelopeLaid databaseUuid position commitSeq txUuid operations envelope)
    {index : Nat} {key value : Bytes} (found : operations[index]? = some (.put key value)) :
    ∃ pointer : ValuePointer, envelope.valuePointers[index]? = some (some pointer) ∧ pointer.Locates key := by
  obtain ⟨start,bytes,-,decoded,pointed⟩ := laid.pointer found
  obtain ⟨⟨file,offset,-⟩,-,named,short,width⟩ := decodeRecordAt_kv decoded
  simp only at named short width
  refine ⟨_,pointed,⟨ValuePointer.validateFields_ok.mpr ⟨rfl,file,?_,?_⟩,offset,width⟩⟩
  · simp only
    omega
  · simp only
    omega

-- The log refuses with its end, and with nothing else.
theorem prepareCommitEnvelope_total (write : ValidatedWrite) (ready : WriterReady writer)
    (healthy : writer.appendFailed = false) (identity : ValidIdentity commitSeq txUuid) :
    (∃ envelope, prepareCommitEnvelope write commitSeq txUuid (coordinatorContext write writer) = .ok envelope) ∨
      (write.transactionKind = .vlogEnvelope ∧ LogFull writer.position (envelopeLens write.operations) ∧
        prepareCommitEnvelope write commitSeq txUuid (coordinatorContext write writer) =
          .error (permanentCapacityExceeded write.publicOperation)) := by
  have placeable := ready.placeable healthy
  unfold prepareCommitEnvelope coordinatorContext
  cases kind : write.transactionKind with
  | indexOnlyDelete => exact .inl ⟨none,rfl⟩
  | vlogEnvelope =>
    simp only [orError,ok_bind,ready.geometry,fromPosition_placeable placeable,Except.mapError]
    rw [rejectIf_false (by simp [ready.named]),ok_bind]
    rcases prepareEnvelope_total placeable identity ready.named write.nonempty write.counted write.valid with
      ⟨envelope,next,made⟩ | ⟨full,refused⟩
    · rw [made]
      exact .inl ⟨some envelope,rfl⟩
    · rw [refused]
      exact .inr ⟨trivial,full,rfl⟩

theorem prepareCommitEnvelope_laid {written : PreparedEnvelope} (ready : WriterReady writer)
    (bound : commitSeq < 18446744073709551616)
    (prepared : prepareCommitEnvelope write commitSeq txUuid (coordinatorContext write writer) = .ok (some written)) :
    EnvelopeLaid writer.databaseUuid writer.position commitSeq txUuid write.operations written := by
  obtain ⟨kind,context,present,next,made⟩ := prepareCommitEnvelope_some prepared
  simp only [coordinatorContext,kind,Option.some.injEq] at present
  subst present
  simp only [ready.geometry] at made
  exact (prepareEnvelope_laid bound made).1

-- Every state the write gives a key is a pointer to a record with that key.
theorem operationWrites_locate (ready : WriterReady writer) (bound : commitSeq < 18446744073709551616)
    (prepared : prepareCommitEnvelope write commitSeq txUuid (coordinatorContext write writer) = .ok envelope)
    {key : Bytes} {state : Option ValuePointer} (last : lastValue (operationWrites write envelope) key = some state) :
    StateLocates state key := by
  intro pointer present
  obtain rfl := Option.mem_def.mp present
  obtain ⟨index,written,-⟩ := lastValue_place last
  simp only [operationWrites,envelopeWrites,List.getElem?_zip_eq_some,List.getElem?_map,Option.map_eq_some_iff] at written
  obtain ⟨⟨operation,found,rfl⟩,stands⟩ := written
  have paired := prepareCommitEnvelope_paired prepared
  cases envelope with
  | none => cases List.eq_of_mem_replicate (List.mem_of_getElem? stands)
  | some written =>
    have laid := prepareCommitEnvelope_laid ready bound prepared
    simp only [operationStates] at stands paired
    cases operation with
    | put key value =>
      obtain ⟨other,pointed,locates⟩ := laid.locates found
      rw [stands] at pointed
      obtain rfl := Option.some.inj (Option.some.inj pointed)
      exact locates
    | delete key =>
      have same := congrArg (fun list => list[index]?) paired
      simp [stands,found,LogicalOperation.isPut] at same

end states

section descriptor
variable [Crc32c] {write : ValidatedWrite} {writer : ValueLogWriter} {headSeq : Nat} {txUuid : Uuid}
  {envelope : Option PreparedEnvelope} {beforeStates : List (Option ValuePointer)} {plans : List KeyPlan}

omit [Crc32c] in
theorem distinctKeys_valid {key : Bytes} (member : key ∈ write.distinctKeys) : key ≠ [] ∧ key.length ≤ 60000 := by
  rw [write.keyed,mem_firstOccurrences] at member
  obtain ⟨operation,present,rfl⟩ := List.mem_map.mp member
  have valid := write.valid operation present
  cases operation with
  | put key value => exact ⟨valid.1,Nat.le_trans (Nat.le_add_right _ _) valid.2⟩
  | delete key => exact valid

omit [Crc32c] in
theorem distinctKeys_counts (write : ValidatedWrite) :
    0 < write.distinctKeys.length ∧ write.distinctKeys.length ≤ write.operations.length := by
  rw [write.keyed,←distinctKeys_count]
  exact distinctKeys_counted write.nonempty

theorem commitTxMeta_placed (ready : WriterReady writer) (healthy : writer.appendFailed = false)
    (room : headSeq + 1 < 18446744073709551616)
    (prepared : prepareCommitEnvelope write (headSeq + 1) txUuid (coordinatorContext write writer) = .ok envelope) :
    (commitTxMeta write headSeq (headSeq + 1) txUuid envelope plans).placed = true := by
  cases envelope with
  | none =>
    have kind := (prepareCommitEnvelope_kind prepared).mp rfl
    simp [commitTxMeta,TxMeta.placed,kind]
  | some envelope =>
    obtain ⟨kind,-⟩ := prepareCommitEnvelope_some prepared
    have laid := prepareCommitEnvelope_laid ready room prepared
    have begins := (ready.placeable healthy).good
    have ends := laid.placeable.good
    obtain ⟨beginEntry,entries,footerEntry,segments,-⟩ := laid.laid
    have chain := segments.chain
    obtain ⟨first,others,split⟩ := List.exists_cons_of_ne_nil laid.nonempty_chunks
    rw [split] at chain
    have first := VLogPosition.isValid_iff.mpr ⟨begins.1,begins.2.1⟩
    have last := VLogPosition.isValid_iff.mpr ⟨ends.1,ends.2.1⟩
    simp [commitTxMeta,TxMeta.placed,kind,laid.vlogBegin_eq,first,last,chain.lt.2]

-- What goes into the descriptor is what its encoder asks for.
theorem plannedDescriptor_valid (ready : WriterReady writer) (healthy : writer.appendFailed = false)
    (room : headSeq + 1 < 18446744073709551616) (identity : txUuid.isZero = false)
    (befores : ∀ pair ∈ write.distinctKeys.zip beforeStates, StateLocates pair.2 pair.1)
    (prepared : prepareCommitEnvelope write (headSeq + 1) txUuid (coordinatorContext write writer) = .ok envelope)
    (planned : buildKeyPlans write beforeStates write.transactionKind (envelope.map PreparedEnvelope.valuePointers) =
      .ok plans) :
    TransactionDescriptor.Valid ⟨commitTxMeta write headSeq (headSeq + 1) txUuid envelope plans,plans⟩ := by
  obtain ⟨keys,each⟩ := buildKeyPlans_each planned
  obtain ⟨present,counted⟩ := distinctKeys_counts write
  have width : plans.length = write.distinctKeys.length := by
    rw [←keys,List.length_map]
  have operations := write.counted
  have filled : 0 < plans.length := by omega
  refine ⟨⟨Nat.succ_pos headSeq,room⟩,rfl,identity,?_,rfl,⟨?_,?_⟩,commitTxMeta_placed ready healthy room prepared,?_,?_,
    ?_,?_⟩
  · exact List.length_pos_iff.mp filled
  · simp only [commitTxMeta]
    omega
  · simp only [commitTxMeta]
    omega
  · cases envelope with
    | none => exact Nat.zero_lt_succ _
    | some envelope =>
      obtain ⟨-,context,-,next,made⟩ := prepareCommitEnvelope_some prepared
      exact (prepareEnvelope_fits made).1
  · simp only [keys]
    exact write.distinct
  · intro plan member
    obtain ⟨before,after⟩ := each plan member
    have named := distinctKeys_valid (List.of_mem_zip before).1
    refine ⟨named.1,named.2,?_⟩
    intro pointer either
    have locates : pointer.Locates plan.userKey := by
      cases either with
      | inl first => exact befores _ before pointer first
      | inr last => exact operationWrites_locate ready room prepared after pointer last
    exact ⟨locates.valid,locates.offset,locates.sized⟩
  · intro kind plan member
    obtain rfl := (prepareCommitEnvelope_kind prepared).mpr kind
    obtain ⟨index,written,-⟩ := lastValue_place (each plan member).2
    simp only [operationWrites,envelopeWrites,List.getElem?_zip_eq_some] at written
    exact List.eq_of_mem_replicate (List.mem_of_getElem? written.2)

end descriptor

section sizes
variable [Crc32c]

theorem Chain.shaped {position stop : VLogPosition} {chunks : List PhysicalChunk} (chain : Chain position chunks stop) :
    ∀ chunk ∈ chunks, Shaped chunk := by
  induction chain with
  | nil => simp
  | cons _ shaped _ ih =>
    rw [List.forall_mem_cons]
    exact ⟨shaped,ih⟩

theorem Headers.count {databaseUuid : Uuid} {position start : VLogPosition} {headers : List PhysicalChunk}
    (laid : Headers databaseUuid position headers start) : headers.length ≤ 2 := by
  cases laid <;> simp

theorem Segments.count {databaseUuid txUuid : Uuid} {commitSeq : Nat} {position stop : VLogPosition}
    {chunks : List PhysicalChunk} {entries : List Entry}
    (segments : Segments databaseUuid commitSeq txUuid position chunks entries stop) :
    chunks.length ≤ 6 * entries.length := by
  induction segments with
  | nil => simp
  | cons segment _ ih =>
    simp only [List.length_append,List.length_cons]
    cases segment with
    | direct headers _ =>
      have first := headers.count
      simp only [List.length_append,List.length_singleton]
      omega
    | padded before _ _ after _ =>
      have first := before.count
      have second := after.count
      simp only [List.length_append,List.length_cons,List.length_nil]
      omega

-- What the preparation counts and adds up stays inside the words it is counted in.
structure PreparedSizes (write : ValidatedWrite) (commit : PreparedCommit) : Prop where
  capacity : commit.indexBatch.length = 2 * write.distinctKeys.length + 2
  chunks : ∀ envelope ∈ commit.envelope, envelope.chunks.length ≤ 6 * (write.operations.length + 2) ∧
    ∀ chunk ∈ envelope.chunks, chunk.position.offset + chunk.bytes.length ≤ 4294967296

theorem EnvelopeLaid.sizes {databaseUuid txUuid : Uuid} {position : VLogPosition} {commitSeq : Nat}
    {operations : List LogicalOperation} {envelope : PreparedEnvelope}
    (laid : EnvelopeLaid databaseUuid position commitSeq txUuid operations envelope) :
    envelope.chunks.length ≤ 6 * (operations.length + 2) ∧
      ∀ chunk ∈ envelope.chunks, chunk.position.offset + chunk.bytes.length ≤ 4294967296 := by
  obtain ⟨beginEntry,entries,footerEntry,segments,-,-,records,-⟩ := laid.laid
  have width := congrArg List.length records
  rw [List.length_map,operationRecords_length] at width
  have counted := segments.count
  simp only [List.length_cons,List.length_append,List.length_nil,width] at counted
  refine ⟨by omega,?_⟩
  intro chunk member
  have shaped := segments.chain.shaped chunk member
  have start := shaped.start
  have inside := shaped.inside
  omega

end sizes

section failures
variable [Crc32c] {write : ValidatedWrite} {writer : ValueLogWriter} {headSeq : Nat}
  {getUser : Bytes → Result (Option Bytes)} {uuidSource : Except IoError Uuid} {allocated : Bool}

-- The ways a preparation may fail: none of them is a check of its own.
inductive PrepareFailure (write : ValidatedWrite) (position : VLogPosition) (getUser : Bytes → Result (Option Bytes))
    (uuidSource : Except IoError Uuid) (allocated : Bool) : StorageError → Prop
  | indexRead {key : Bytes} {error : StorageError} : key ∈ write.distinctKeys → getUser key = .error error →
      PrepareFailure write position getUser uuidSource allocated (remapIndexRead error write.publicOperation)
  | randomSource {error : IoError} : uuidSource = .error error →
      PrepareFailure write position getUser uuidSource allocated
        {(StorageError.writePreflight .io write.publicOperation .retrySameInstance) with osCode := error.rawOsError}
  | allocation : allocated = false →
      PrepareFailure write position getUser uuidSource allocated (resourceExhausted write.publicOperation)
  | logFull : write.transactionKind = .vlogEnvelope → LogFull position (envelopeLens write.operations) →
      PrepareFailure write position getUser uuidSource allocated (permanentCapacityExceeded write.publicOperation)

omit [Crc32c] in
-- The kinds a failed check of the preparation would have come from the backend.
theorem PrepareFailure.from_backend {position : VLogPosition} {error : StorageError}
    (failure : PrepareFailure write position getUser uuidSource allocated error)
    (checked : error.kind = .invalidArgument ∨ error.kind = .invalidLayout ∨ error.kind = .corruption) :
    ∃ key ∈ write.distinctKeys, ∃ cause, getUser key = .error cause ∧ cause.kind = error.kind ∧
      error = remapIndexRead cause write.publicOperation := by
  cases failure with
  | indexRead member failed => exact ⟨_,member,_,failed,rfl,rfl⟩
  | randomSource failed => simp [StorageError.writePreflight,StorageError.writePreflightInState] at checked
  | allocation failed =>
    simp [resourceExhausted,StorageError.writePreflight,StorageError.writePreflightInState] at checked
  | logFull kind full =>
    simp [permanentCapacityExceeded,StorageError.writePreflight,StorageError.writePreflightInState] at checked

-- With pointers of earlier commits and a writer that still appends, nothing but these four can stop it.
theorem prepareDescribed_fails (ready : WriterReady writer) (healthy : writer.appendFailed = false)
    (room : headSeq + 1 < 18446744073709551616)
    (committed : ∀ key encoded, getUser key = .ok (some encoded) → CommittedPointer key encoded) :
    FailsWith (PrepareFailure write writer.position getUser uuidSource allocated)
      (prepareDescribed write headSeq (coordinatorContext write writer) getUser uuidSource allocated) := by
  have next : (nextCommitSeq headSeq).mapError (fun _ => permanentCapacityExceeded write.publicOperation) =
      .ok (headSeq + 1) := by
    rw [nextCommitSeq,rejectIf_false (by omega)]
    rfl
  simp only [prepareDescribed,next,ok_bind,failsWith_bind,failsWith_rejectIf]
  refine ⟨.allocation,?_⟩
  intro _ _
  refine ⟨?_,?_⟩
  · apply failsWith_mapM
    intro key member
    rcases readBeforeState_total write.publicOperation (committed key) with ⟨state,read,-⟩ | ⟨error,failed,read⟩
    · rw [read]
      exact failsWith_ok state
    · rw [read,failsWith_error]
      exact .indexRead member failed
  intro befores read
  have located : ∀ pair ∈ write.distinctKeys.zip befores, StateLocates pair.2 pair.1 := by
    intro pair member
    have here := mapM_ok_zip read pair member
    rcases readBeforeState_total write.publicOperation (committed pair.1) with ⟨state,found,locates⟩ | ⟨error,-,found⟩
    · obtain rfl := Except.ok.inj (found.symm.trans here)
      exact locates
    · rw [found] at here
      cases here
  refine ⟨?_,?_⟩
  · cases uuidSource with
    | ok bytes => exact failsWith_ok _
    | error error => exact failsWith_error.mpr (.randomSource rfl)
  intro txUuid stamped
  have identity : txUuid.isZero = false := by
    cases uuidSource with
    | ok bytes =>
      obtain rfl := Except.ok.inj stamped
      exact stampTxUuid_nonzero bytes
    | error error => cases stamped
  refine ⟨?_,?_⟩
  · rcases prepareCommitEnvelope_total write ready healthy ⟨Nat.succ_ne_zero headSeq,room,identity⟩ with
      ⟨envelope,made⟩ | ⟨kind,full,refused⟩
    · rw [made]
      exact failsWith_ok envelope
    · rw [refused,failsWith_error]
      exact .logFull kind full
  intro envelope prepared
  obtain ⟨plans,planned⟩ := buildKeyPlans_total (mapM_ok_length read) (prepareCommitEnvelope_kind prepared)
    (prepareCommitEnvelope_paired prepared)
  have valid := plannedDescriptor_valid ready healthy room identity located prepared planned
  obtain ⟨encoded,written⟩ := valid.encodes
  obtain ⟨batch,built⟩ := buildIndexBatch_total (headSeq + 1) write.publicOperation valid written
  refine ⟨by rw [planned]; exact failsWith_ok plans,?_⟩
  intro _ same
  obtain rfl := Except.ok.inj (planned.symm.trans same)
  refine ⟨by rw [written]; exact failsWith_ok encoded,?_⟩
  intro _ same
  obtain rfl := Except.ok.inj (written.symm.trans (mapError_ok.mp same))
  exact ⟨by rw [built]; exact failsWith_ok batch,fun _ _ => failsWith_ok _⟩

theorem prepareCommit_sizes {commit : PreparedCommit} (ready : WriterReady writer)
    (prepared : prepareCommit write headSeq (coordinatorContext write writer) getUser uuidSource allocated = .ok commit) :
    PreparedSizes write commit := by
  obtain ⟨⟨_,descriptor⟩,described,rfl⟩ := map_ok.mp prepared
  have honest : ∀ key value, getUser key = .ok value → value = (getUser key).toOption.join := by
    intro key value found
    rw [found]
    rfl
  have prepares := prepareDescribed_ok described honest
  refine ⟨prepares.targets.1,?_⟩
  intro envelope present
  have made := prepares.envelope
  rw [Option.mem_def.mp present] at made
  exact (prepareCommitEnvelope_laid ready prepares.bound made).sizes

end failures

section complete

theorem ValidatedWrite.sizes (write : ValidatedWrite) :
    6 * (write.operations.length + 2) < 18446744073709551616 ∧
      2 * write.distinctKeys.length + 2 < 18446744073709551616 ∧
      ∀ operation ∈ write.operations, (operationKey operation).length < 65536 ∧ operation.recordLen ≤ 60055 := by
  have counted := write.counted
  have distinct := (distinctKeys_counts write).2
  refine ⟨by omega,by omega,?_⟩
  intro operation member
  have valid := write.valid operation member
  cases operation with
  | put key value =>
    have payload := valid.2
    simp only [operationKey,LogicalOperation.recordLen]
    omega
  | delete key =>
    have short := valid.2
    simp only [operationKey,LogicalOperation.recordLen]
    omega

-- Both ways into a batch accept the same operations, and an accepted write is prepared unless the backend, the random
-- source, the allocator or the end of the log is in the way.
theorem preflight_complete [Crc32c] :
    (∀ (batch : WriteBatch) (operation : LogicalOperation) (sync : Bool),
      (∃ next, batch.add operation true = .ok next) ↔
        batch.operations.length + 1 < 4294967296 ∧ ∃ write, preflightOperation operation sync true = .ok write) ∧
    (∀ (operations : List LogicalOperation) (sync : Bool), operations ≠ [] →
      ((∃ batch, WriteBatch.new.addAll operations = .ok batch) ↔
        ∃ write, preflightBatch operations sync true = .ok write)) ∧
    (∀ write : ValidatedWrite, 6 * (write.operations.length + 2) < 18446744073709551616 ∧
      2 * write.distinctKeys.length + 2 < 18446744073709551616 ∧
      ∀ operation ∈ write.operations, (operationKey operation).length < 65536 ∧ operation.recordLen ≤ 60055) ∧
    ∀ (start log : ValueLog) (write : ValidatedWrite) (headSeq : Nat) (getUser : Bytes → Result (Option Bytes))
      (uuidSource : Except IoError Uuid) (allocated : Bool),
      CoordinatorOpened start → CoordinatorRun start log → log.writer.appendFailed = false →
      headSeq < 18446744073709551615 →
      (∀ key encoded, getUser key = .ok (some encoded) → CommittedPointer key encoded) →
      (∀ error, prepareCommit write headSeq (coordinatorContext write log.writer) getUser uuidSource allocated =
          .error error →
        PrepareFailure write log.writer.position getUser uuidSource allocated error ∧
        (error.kind = .invalidArgument ∨ error.kind = .invalidLayout ∨ error.kind = .corruption →
          ∃ key ∈ write.distinctKeys, ∃ cause, getUser key = .error cause ∧ cause.kind = error.kind ∧
            error = remapIndexRead cause write.publicOperation)) ∧
      ∀ commit, prepareCommit write headSeq (coordinatorContext write log.writer) getUser uuidSource allocated =
        .ok commit → PreparedSizes write commit := by
  refine ⟨?_,?_,ValidatedWrite.sizes,?_⟩
  · intro batch operation sync
    rw [preflightOperation_iff]
    constructor
    · intro added
      obtain ⟨next,added⟩ := added
      obtain ⟨valid,room,-⟩ := WriteBatch.add_ok.mp added
      exact ⟨room,valid⟩
    · intro accepted
      exact ⟨_,WriteBatch.add_ok.mpr ⟨accepted.2,accepted.1,rfl⟩⟩
  · intro operations sync filled
    rw [preflightBatch_iff]
    constructor
    · intro added
      obtain ⟨batch,added⟩ := added
      obtain ⟨valid,counted,-⟩ := (WriteBatch.addAll_ok (by decide)).mp added
      exact ⟨filled,by simpa [WriteBatch.new] using counted,valid⟩
    · intro accepted
      obtain ⟨-,counted,valid⟩ := accepted
      exact ⟨_,(WriteBatch.addAll_ok (by decide)).mpr ⟨valid,by simpa [WriteBatch.new] using counted,rfl⟩⟩
  · intro start log write headSeq getUser uuidSource allocated opened run healthy room committed
    obtain ⟨-,ready⟩ := run.ready opened
    refine ⟨?_,fun commit prepared => prepareCommit_sizes ready prepared⟩
    intro error failed
    have fails := @prepareDescribed_fails _ write log.writer headSeq getUser uuidSource allocated ready healthy (by omega)
      committed
    have failure := failsWith_map.mpr fails error failed
    exact ⟨failure,failure.from_backend⟩

-- A read of the index that fails with a kind of its own: the preparation hands the kind on.
theorem preflight_complete_read_fails :
    let database : Uuid := ⟨List.replicate 16 1,rfl⟩
    let log : ValueLog := ⟨Storage.reopened ⟨.empty,.empty database,[],[]⟩,
      ⟨database,production,.empty,⟨∅,∅⟩,none,1,false,none⟩⟩
    let getUser : Bytes → Result (Option Bytes) :=
      fun _ => .error (.codecError .corruption .get .read none .restoreOrRepair)
    ∃ write error, preflightDelete [1] false true = .ok write ∧ @CoordinatorOpened castagnoli log ∧
      (∀ key encoded, getUser key = .ok (some encoded) → @CommittedPointer castagnoli key encoded) ∧
      @prepareCommit castagnoli write 0 (coordinatorContext write log.writer) getUser (.ok database) true = .error error ∧
      error.kind = .corruption := by
  intro database log getUser
  let write : ValidatedWrite := ⟨[.delete [1]],false,[[1]],[0],.delete,by decide,by decide,by
    simp [LogicalOperation.Valid],by decide,by decide⟩
  have opened : @CoordinatorOpened castagnoli log :=
    @CoordinatorOpened.mk castagnoli log ⟨none,⟨.empty,.empty database,[],[]⟩,⟨.empty,.empty database,[],[]⟩,log.writer,rfl,
      rfl,rfl,by decide,fun position none => (by cases none)⟩
  exact ⟨write,remapIndexRead (.codecError .corruption .get .read none .restoreOrRepair) .delete,rfl,opened,
    fun key encoded found => (by cases found),rfl,rfl⟩

-- The first put of an empty log.
theorem preflight_complete_first_put :
    let database : Uuid := ⟨List.replicate 16 1,rfl⟩
    let log : ValueLog := ⟨Storage.reopened ⟨.empty,.empty database,[],[]⟩,
      ⟨database,production,.empty,⟨∅,∅⟩,none,1,false,none⟩⟩
    ∃ write commit, preflightPut [1] [9] false true = .ok write ∧
      @prepareCommit castagnoli write 0 (coordinatorContext write log.writer) (fun _ => .ok none) (.ok database) true =
        .ok commit ∧ commit.indexBatch.length = 4 := by
  intro database log
  let write : ValidatedWrite := ⟨[.put [1] [9]],false,[[1]],[0],.put,by decide,by decide,by
    simp [LogicalOperation.Valid],by decide,by decide⟩
  have opened : @CoordinatorOpened castagnoli log :=
    @CoordinatorOpened.mk castagnoli log ⟨none,⟨.empty,.empty database,[],[]⟩,⟨.empty,.empty database,[],[]⟩,log.writer,rfl,
      rfl,rfl,by decide,fun position none => (by cases none)⟩
  have succeeds : (@prepareCommit castagnoli write 0 (coordinatorContext write log.writer) (fun _ => .ok none)
      (.ok database) true).toOption.isSome = true := by decide +kernel
  obtain ⟨-,-,-,complete⟩ := @preflight_complete castagnoli
  obtain ⟨-,sizes⟩ := complete log log write 0 (fun _ => .ok none) (.ok database) true opened
    (@CoordinatorRun.start castagnoli log) rfl (by decide) (fun key encoded found => (by cases found))
  obtain ⟨commit,prepared⟩ := ok_of_isSome succeeds
  exact ⟨write,commit,rfl,prepared,(sizes commit prepared).capacity⟩

end complete

end ExpirKv
