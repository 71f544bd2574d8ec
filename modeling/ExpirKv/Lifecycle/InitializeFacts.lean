import ExpirKv.Admission
import ExpirKv.Lifecycle.Initialize

namespace ExpirKv
open RootLock

section first
variable {uuid : Uuid} {format : FormatMetadata}

theorem FormatMetadata.new_ok : FormatMetadata.new uuid = .ok format ↔ uuid.isZero = false ∧ format = ⟨0,uuid,65536⟩ := by
  simp only [FormatMetadata.new,validateForEncode,bind_ok,exists_unit,rejectIf_ok,pure_ok,Except.ok.injEq,not_or,not_not,
    ne_eq,Bool.not_eq_true]
  constructor
  · rintro ⟨⟨-,present,-⟩,rfl⟩
    exact ⟨present,rfl⟩
  · rintro ⟨present,rfl⟩
    exact ⟨⟨trivial,present,trivial⟩,rfl⟩

theorem FormatMetadata.decode_encode {encoded : Bytes} (written : format.encode = .ok encoded) :
    FormatMetadata.decode encoded = .ok format ∧ encoded.length = 36 := by
  simp only [encode,validateForEncode,bind_ok,exists_unit,rejectIf_ok,pure_ok,Except.ok.injEq,not_or,not_not,ne_eq,
    Bool.not_eq_true] at written
  obtain ⟨⟨version,present,size⟩,rfl⟩ := written
  obtain ⟨formatVersion,databaseUuid,pageSize⟩ := format
  simp only at version present size
  subst version size
  have size : formatMagic.length = 8 := rfl
  have magic : ∀ rest, slice? (formatMagic ++ rest) 0 8 = some formatMagic := fun rest => slice?_here rest rfl
  constructor
  · simp [decode,readU32,magic,size,present]
  · simp [size]

theorem generateDatabaseUuid_present {drawn : List (Except IoError Uuid)} (drew : generateDatabaseUuid drawn = .ok uuid) :
    uuid.isZero = false := by
  have each : ∀ list, generateDatabaseUuid.go list = .ok uuid → uuid.isZero = false := by
    intro list
    induction list with
    | nil => exact fun none => by cases none
    | cons first rest ih =>
      intro found
      cases first with
      | error error => cases found
      | ok other =>
        simp only [generateDatabaseUuid.go] at found
        split at found
        · exact ih found
        · rename_i present
          rw [←Except.ok.inj found]
          simpa using present
  exact each _ drew

variable [Crc32c]

theorem hasValidTrailingCrc_appendCrc {body : Bytes} {len : Nat} (width : body.length = len) :
    hasValidTrailingCrc (appendCrc body) len = true := by
  have front : slice? (appendCrc body) 0 len = some body := by
    refine slice?_eq_some.mpr ⟨by simp [width],?_⟩
    rw [List.drop_zero,appendCrc_take width]
  have back : slice? (appendCrc body) len 4 = some (leBytes 4 (crc32c body)) := by
    refine slice?_eq_some.mpr ⟨by simp [width],?_⟩
    rw [appendCrc,List.drop_left' width]
    exact (List.take_of_length_le (by simp)).symm
  simp only [hasValidTrailingCrc,front,back,beq_iff_eq]
  exact (leNat_leBytes (crc32c_lt body)).symm

def encodedIdentityOf (uuid : Uuid) : Bytes := appendCrc (databaseIdentityMagic ++ [0,0] ++ leBytes 4 0 ++ uuid.val ++ [0,0])

theorem decode_encodedIdentity (present : uuid.isZero = false) :
    DatabaseIdentity.decode (encodedIdentityOf uuid) = .ok ⟨0,0,uuid,0⟩ := by
  have crc : hasValidTrailingCrc (encodedIdentityOf uuid) 28 = true :=
    hasValidTrailingCrc_appendCrc (by simp [databaseIdentityMagic])
  have size : databaseIdentityMagic.length = 4 := rfl
  have magic : ∀ rest, slice? (databaseIdentityMagic ++ rest) 0 4 = some databaseIdentityMagic :=
    fun rest => slice?_here rest rfl
  have zeros : ([0,0] : Bytes) = leBytes 2 0 := rfl
  unfold DatabaseIdentity.decode
  rw [crc]
  simp only [encodedIdentityOf,appendCrc,zeros,List.append_assoc]
  simp [magic,size,readU16,readU32,present]

def encodedFrontierOf : Bytes := appendCrc (durableFrontierMagic ++ List.replicate 31 0)

theorem encodedFrontier_empty : isEncodedEmptyDurableFrontier encodedFrontierOf = true := by
  have size : durableFrontierMagic.length = 4 := rfl
  have crc : hasValidTrailingCrc encodedFrontierOf 35 = true := hasValidTrailingCrc_appendCrc (by simp [size])
  have magic : slice? encodedFrontierOf 0 4 = some durableFrontierMagic := by
    rw [encodedFrontierOf,appendCrc,List.append_assoc]
    exact slice?_here _ rfl
  have zeros : slice? encodedFrontierOf 4 31 = some (List.replicate 31 0) := by
    rw [encodedFrontierOf,appendCrc,List.append_assoc,slice?_skip (Nat.le_of_eq size),size,Nat.sub_self]
    exact slice?_here _ (by simp)
  have width : encodedFrontierOf.length = 39 := by simp [encodedFrontierOf,size]
  simp [isEncodedEmptyDurableFrontier,crc,magic,zeros,width]

theorem encodedIdentity_initial (present : uuid.isZero = false) :
    isValidInitialDatabaseIdentity (encodedIdentityOf uuid) = true := by
  have size : databaseIdentityMagic.length = 4 := rfl
  have crc : hasValidTrailingCrc (encodedIdentityOf uuid) 28 = true :=
    hasValidTrailingCrc_appendCrc (by simp [databaseIdentityMagic])
  have shape : encodedIdentityOf uuid = databaseIdentityMagic ++ (List.replicate 6 0 ++ (uuid.val ++ ([0,0] ++
      leBytes 4 (crc32c (databaseIdentityMagic ++ [0,0] ++ leBytes 4 0 ++ uuid.val ++ [0,0]))))) := by
    rw [encodedIdentityOf,appendCrc]
    simp [leBytes,List.replicate]
  have magic : slice? (encodedIdentityOf uuid) 0 4 = some databaseIdentityMagic := by
    rw [shape]
    exact slice?_here _ rfl
  have zeros : slice? (encodedIdentityOf uuid) 4 6 = some (List.replicate 6 0) := by
    rw [shape,slice?_skip (Nat.le_of_eq size),size]
    exact slice?_here _ rfl
  have named : slice? (encodedIdentityOf uuid) 10 16 = some uuid.val := by
    rw [shape,slice?_skip (by simp [size]),size,slice?_skip (by simp),List.length_replicate]
    exact slice?_here _ uuid.property
  have layout : slice? (encodedIdentityOf uuid) 26 2 = some [0,0] := by
    rw [shape,slice?_skip (by simp [size]),size,slice?_skip (by simp),List.length_replicate,
      slice?_skip (by simp),uuid.property]
    exact slice?_here _ rfl
  have width : (encodedIdentityOf uuid).length = 32 := by simp [encodedIdentityOf,size]
  have nonzero : uuid.val ≠ List.replicate 16 0 := by
    intro zero
    simp [Uuid.isZero,zero] at present
  simp only [isValidInitialDatabaseIdentity,crc,magic,zeros,named,layout,width,beq_self_eq_true,Bool.and_true,Bool.true_and,
    bne_iff_ne,ne_eq,Option.some.injEq]
  exact nonzero

-- The batch of the first open, and what it does to an empty index.
def firstBatch (uuid : Uuid) : IndexAtomicBatch :=
  [.initializeDatabaseIdentity (encodedIdentityOf uuid),.putInternal .system headSeqKey (List.replicate 8 0),
    .putInternal .system durableFrontierKey encodedFrontierOf]

theorem firstBatch_triple (present : uuid.isZero = false) : isInitializationTriple (firstBatch uuid) = true := by
  have zero : isEncodedHeadSeqZero (List.replicate 8 0) = true := rfl
  simp only [isInitializationTriple,firstBatch,encodedIdentity_initial present,encodedFrontier_empty,zero,beq_self_eq_true,
    Bool.and_self]

theorem initializationBatch_first (present : uuid.isZero = false) : initializationBatch 0 uuid = .ok (firstBatch uuid) := by
  have triple := firstBatch_triple present
  rw [initializationBatch,rejectIf_false (by simp [present]),ok_bind]
  unfold firstBatch encodedIdentityOf encodedFrontierOf at triple
  simp only [triple,Bool.true_eq_false,rejectIf,if_false,ok_bind,pure_ok]
  rfl

theorem firstBatch_commit (present : uuid.isZero = false) (fault : Option CommitFault) :
    Index.empty.commitAtomic (firstBatch uuid) .syncAll fault =
      match fault with
      | none => (.ok (),Index.empty.apply (firstBatch uuid))
      | some (.notApplied source) => (.error ⟨.notApplied,source⟩,Index.empty)
      | some (.unknown source applied) =>
        (.error ⟨.unknown,source⟩,if applied then Index.empty.apply (firstBatch uuid) else Index.empty) := by
  have triple := firstBatch_triple present
  have valid : (firstBatch uuid).validateForCommit .syncAll = .ok () := by
    have one : (firstBatch uuid).countP IndexMutation.initializes = 1 := rfl
    have filled : (firstBatch uuid).isEmpty = false := rfl
    rw [IndexAtomicBatch.validateForCommit,rejectIf_false (by rw [filled]; exact Bool.noConfusion),ok_bind,one,
      if_neg (by decide),rejectIf_false (by simp [triple])]
  have bound : Index.empty.ensureIdentity (firstBatch uuid) = .ok () := by
    rw [Index.ensureIdentity,triple,if_pos rfl]
    exact rejectIf_false (by simp [Index.empty])
  cases fault with
  | none => simp only [Index.commitAtomic,valid,bound]
  | some fault => cases fault <;> simp only [Index.commitAtomic,valid,bound]

theorem firstIndex_user (uuid : Uuid) : (Index.empty.apply (firstBatch uuid)).user = ∅ := by
  refine Keyspace.ext_getElem? ?_
  intro key
  have read := Index.get_apply Index.empty (firstBatch uuid) (.user,key)
  simpa [firstBatch,lastValue,Index.get,Index.keyspace,Index.empty,IndexMutation.write] using read

theorem firstIndex_transaction (uuid : Uuid) : (Index.empty.apply (firstBatch uuid)).transaction = ∅ := by
  refine Keyspace.ext_getElem? ?_
  intro key
  have read := Index.get_apply Index.empty (firstBatch uuid) (.internal .transaction,key)
  simpa [firstBatch,lastValue,Index.get,Index.keyspace,Index.empty,IndexMutation.write] using read

theorem firstIndex_system (uuid : Uuid) (key : Bytes) : (Index.empty.apply (firstBatch uuid)).system[key]? =
    if key = durableFrontierKey then some encodedFrontierOf else if key = headSeqKey then some (List.replicate 8 0)
    else if key = databaseIdentityKey then some (encodedIdentityOf uuid) else none := by
  have read := Index.get_apply Index.empty (firstBatch uuid) (.internal .system,key)
  simp only [firstBatch,List.map_cons,List.map_nil,lastValue_cons,lastValue_nil,IndexMutation.write,Prod.mk.injEq,true_and,
    Option.none_or,@eq_comm _ _ key] at read
  change (Index.empty.apply (firstBatch uuid)).system[key]? = _ at read
  rw [read]
  split
  · rfl
  · split
    · rfl
    · split
      · rfl
      · exact (by simp [Index.get,Index.keyspace,Index.empty] : Index.empty.get (.internal .system,key) = none)

theorem firstIndex_final (present : uuid.isZero = false) :
    validateFinalIdentity (Index.empty.apply (firstBatch uuid)) ⟨0,uuid,65536⟩ = .ok () := by
  have apart : databaseIdentityKey ≠ durableFrontierKey ∧ databaseIdentityKey ≠ headSeqKey ∧
      headSeqKey ≠ durableFrontierKey := by decide
  unfold validateFinalIdentity
  rw [firstIndex_system,if_neg apart.1,if_neg apart.2.1,if_pos rfl,orError,ok_bind,decode_encodedIdentity present,ok_bind,
    DatabaseIdentity.validateAgainst,rejectIf_false (by simp),ok_bind,firstIndex_system,if_neg apart.2.2,if_pos rfl,
    firstIndex_system,if_pos rfl,rejectIf_false (by simp)]

theorem firstIndex_interrupted (present : uuid.isZero = false) :
    validateInterruptedIndex (Index.empty.apply (firstBatch uuid)) ⟨0,uuid,65536⟩ = .ok () := by
  have apart : databaseIdentityKey ≠ durableFrontierKey ∧ databaseIdentityKey ≠ headSeqKey ∧
      headSeqKey ≠ durableFrontierKey := by decide
  have identity : (Index.empty.apply (firstBatch uuid)).system[databaseIdentityKey]? = some (encodedIdentityOf uuid) := by
    rw [firstIndex_system,if_neg apart.1,if_neg apart.2.1,if_pos rfl]
  have scan : (Index.empty.apply (firstBatch uuid)).system.toList.forM (checkInitialEntry (encodedIdentityOf uuid)) =
      .ok () := by
    rw [forM_ok]
    intro entry member
    have found := Std.ExtTreeMap.mem_toList_iff_getElem?_eq_some.mp member
    rw [firstIndex_system] at found
    unfold checkInitialEntry
    split at found
    · rename_i key
      rw [key,if_neg apart.1.symm,if_neg apart.2.2.symm,if_pos rfl,←Option.some.inj found]
      exact rejectIf_false (by rw [encodedFrontier_empty]; exact Bool.noConfusion)
    · split at found
      · rename_i key
        rw [key,if_neg apart.2.1.symm,if_pos rfl,←Option.some.inj found]
        exact rejectIf_false (by decide)
      · split at found
        · rename_i key
          rw [if_pos key,←Option.some.inj found]
          exact rejectIf_false (by simp)
        · cases found
  unfold validateInterruptedIndex
  rw [identity]
  simp only
  rw [decode_encodedIdentity present,ok_bind,DatabaseIdentity.validateAgainst,rejectIf_false (by simp),ok_bind,
    firstIndex_user,firstIndex_transaction,rejectIf_false (by simp),ok_bind,scan,ok_bind,firstIndex_system,
    if_neg apart.2.2,if_pos rfl,firstIndex_system,if_pos rfl,rejectIf_false (by simp)]

theorem emptyIndex_interrupted (format : FormatMetadata) : validateInterruptedIndex Index.empty format = .ok () := by
  have none : Index.empty.system[databaseIdentityKey]? = none := by simp [Index.empty]
  unfold validateInterruptedIndex
  rw [none]
  exact rejectIf_false (by simp [Index.empty])

end first

section layouts
variable [Crc32c]

-- What the index library is relied on for: a created database is empty, a batch that was committed with
-- SyncAll is found by the next open, and an open leaves what the next one finds again.
structure Fjall.Sound (fjall : Fjall) : Prop where
  creating : ∀ tree ∈ fjall.creating, everyEntry isRemovable tree = true
  createdPlain : everyEntry isFile fjall.created = true
  createdOpens : fjall.opens fjall.created = .ok .empty
  committedPlain : ∀ uuid : Uuid, uuid.isZero = false →
    everyEntry isFile (fjall.committed fjall.created (firstBatch uuid)) = true
  committedOpens : ∀ uuid : Uuid, uuid.isZero = false →
    fjall.opens (fjall.committed fjall.created (firstBatch uuid)) = .ok (Index.empty.apply (firstBatch uuid))
  leavesOpens : ∀ entries index, fjall.opens entries = .ok index → fjall.opens (fjall.leaves entries) = .ok index
  leavesRemovable : ∀ entries, everyEntry isRemovable entries = true → everyEntry isRemovable (fjall.leaves entries) = true

-- An index that an attempt finished: created, initialized, or one of these as a later open left it.
inductive Built (fjall : Fjall) : List (Bytes × Node) → Prop
  | created : Built fjall fjall.created
  | committed {uuid : Uuid} : uuid.isZero = false → Built fjall (fjall.committed fjall.created (firstBatch uuid))
  | reopened {tree : List (Bytes × Node)} : Built fjall tree → Built fjall (fjall.leaves tree)

-- A tree that a creation passes through, or what the removal of a finished one had not come to. A later attempt may
-- open it or remove more of it.
inductive Partway (fjall : Fjall) : List (Bytes × Node) → Prop
  | creating {tree : List (Bytes × Node)} : tree ∈ fjall.creating → Partway fjall tree
  | removing {whole left : List (Bytes × Node)} : Built fjall whole → Rest left whole → Partway fjall left
  | further {whole left : List (Bytes × Node)} : Partway fjall whole → Rest left whole → Partway fjall left
  | reopening {tree : List (Bytes × Node)} : Partway fjall tree → Partway fjall (fjall.leaves tree)

-- An index beside FORMAT.tmp that a new attempt may take away.
def Readable (fjall : Fjall) (format : FormatMetadata) (entries : List (Bytes × Node)) : Prop :=
  entries = [] ∨ ∃ index, fjall.opens entries = .ok index ∧ validateInterruptedIndex index format = .ok ()

-- The new directory of an index, or a finished index of this FORMAT.
def Written (fjall : Fjall) (format : FormatMetadata) (entries : List (Bytes × Node)) : Prop :=
  Readable fjall format entries ∧ (entries = [] ∨ Built fjall entries)

inductive IndexLeft (fjall : Fjall) (format : FormatMetadata) : Option Node → Prop
  | missing : IndexLeft fjall format none
  | present {entries : List (Bytes × Node)} : everyEntry isRemovable entries = true →
      (Written fjall format entries ∨ Partway fjall entries) → IndexLeft fjall format (some (.directory entries))

-- The four managed entries as cut attempts leave them: FORMAT, FORMAT.tmp, index, vlog.
inductive Layout (fjall : Fjall) : Option Node → Option Node → Option Node → Option Node → Prop
  | bare : Layout fjall none none none none
  | torn {format : FormatMetadata} {encoded : Bytes} {count : Nat} : format.encode = .ok encoded → count < 36 →
      Layout fjall none (some (.file (encoded.take count))) none none
  | begun {format : FormatMetadata} {encoded : Bytes} {index vlog : Option Node} : format.encode = .ok encoded →
      IndexLeft fjall format index → vlog = none ∨ vlog = some (.directory []) →
      Layout fjall none (some (.file encoded)) index vlog
  | published {uuid : Uuid} {encoded : Bytes} {entries : List (Bytes × Node)} : uuid.isZero = false →
      FormatMetadata.encode ⟨0,uuid,65536⟩ = .ok encoded →
      fjall.opens entries = .ok (Index.empty.apply (firstBatch uuid)) →
      Layout fjall (some (.file encoded)) none (some (.directory entries)) (some (.directory []))

-- A locked root with its four managed entries; under `fine` no call is left to fail.
structure Stands (fine : Prop) (disk : Disk) (format temporary index vlog : Option Node) : Prop where
  present : disk.present = true
  lock : ∃ contents, disk.root lockFileName = some (.file contents)
  format : disk.root formatFileName = format
  temporary : disk.root formatTempFileName = temporary
  index : disk.root indexDirectoryName = index
  vlog : disk.root vlogDirectoryName = vlog
  calls : fine → disk.calls.script = []

def Kept (fjall : Fjall) (disk : Disk) : Prop :=
  ∃ format temporary index vlog, Stands False disk format temporary index vlog ∧ Layout fjall format temporary index vlog

section moves
variable {fine : Prop} {disk : Disk} {format temporary index vlog : Option Node}

omit [Crc32c] in
theorem Stands.answered (stands : Stands fine disk format temporary index vlog) {calls : Calls}
    (steady : Steady disk.calls calls) : Stands fine {disk with calls} format temporary index vlog :=
  ⟨stands.present,stands.lock,stands.format,stands.temporary,stands.index,stands.vlog,
    fun still => steady.fine (stands.calls still)⟩

omit [Crc32c] in
theorem Stands.weaken (stands : Stands fine disk format temporary index vlog) :
    Stands False disk format temporary index vlog :=
  ⟨stands.present,stands.lock,stands.format,stands.temporary,stands.index,stands.vlog,fun no => no.elim⟩

omit [Crc32c] in
theorem Disk.set_root (disk : Disk) (name other : String) (node : Option Node) :
    (disk.set name node).root other = if other = name then node else disk.root other := by
  simp [Disk.set,Function.update_apply]

omit [Crc32c] in
theorem Stands.setTemporary (stands : Stands fine disk format temporary index vlog) (node : Option Node) :
    Stands fine (disk.set formatTempFileName node) format node index vlog := by
  refine ⟨stands.present,?_,?_,?_,?_,?_,stands.calls⟩ <;> rw [Disk.set_root]
  · exact stands.lock
  · exact stands.format
  · rfl
  · exact stands.index
  · exact stands.vlog

omit [Crc32c] in
theorem Stands.setFormat (stands : Stands fine disk format temporary index vlog) (node : Option Node) :
    Stands fine (disk.set formatFileName node) node temporary index vlog := by
  refine ⟨stands.present,?_,?_,?_,?_,?_,stands.calls⟩ <;> rw [Disk.set_root]
  · exact stands.lock
  · rfl
  · exact stands.temporary
  · exact stands.index
  · exact stands.vlog

omit [Crc32c] in
theorem Stands.setIndex (stands : Stands fine disk format temporary index vlog) (node : Option Node) :
    Stands fine (disk.set indexDirectoryName node) format temporary node vlog := by
  refine ⟨stands.present,?_,?_,?_,?_,?_,stands.calls⟩ <;> rw [Disk.set_root]
  · exact stands.lock
  · exact stands.format
  · exact stands.temporary
  · rfl
  · exact stands.vlog

omit [Crc32c] in
theorem Stands.setVlog (stands : Stands fine disk format temporary index vlog) (node : Option Node) :
    Stands fine (disk.set vlogDirectoryName node) format temporary index node := by
  refine ⟨stands.present,?_,?_,?_,?_,?_,stands.calls⟩ <;> rw [Disk.set_root]
  · exact stands.lock
  · exact stands.format
  · exact stands.temporary
  · exact stands.index
  · rfl

end moves

end layouts

end ExpirKv
