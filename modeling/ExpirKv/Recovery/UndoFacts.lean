import ExpirKv.Recovery.Descriptors

namespace ExpirKv
open Storage

variable [Crc32c]

-- One transaction on the index: what it stored and what it found.
structure Transacts (before after : Index) (encoded : EncodedDescriptor) (descriptor : TransactionDescriptor) : Prop where
  stores : Stores encoded descriptor
  distinct : (descriptor.mutations.map TxMutation.userKey).Nodup
  named : ∀ mutation ∈ descriptor.mutations, mutation.userKey ≠ []
  encodable : ∀ mutation ∈ descriptor.mutations, ∀ pointer : ValuePointer,
    pointer ∈ mutation.beforeState ∨ pointer ∈ mutation.afterState → pointer.validateFields = .ok ()
  found : ∀ mutation ∈ descriptor.mutations, before.user[mutation.userKey]? = storedState mutation.beforeState
  below : before.transaction.Below descriptor.txMeta.commitSeq
  user : ∀ key, after.user[key]? =
    (lastValue (stateWrites TxMutation.afterState descriptor.mutations) key).getD before.user[key]?
  transaction : before.transaction.Receives after.transaction encoded.entries

omit [Crc32c] in
theorem lastValue_stateWrites {state : TxMutation → Option ValuePointer} {mutations : List TxMutation}
    (distinct : (mutations.map TxMutation.userKey).Nodup) {mutation : TxMutation} (member : mutation ∈ mutations) :
    lastValue (stateWrites state mutations) mutation.userKey = some (storedState (state mutation)) := by
  have keys : ((stateWrites state mutations).map Prod.fst).Nodup := by
    rw [stateWrites,List.map_map]
    exact distinct
  rw [lastValue_of_nodup keys]
  exact List.mem_map.mpr ⟨mutation,member,rfl⟩

omit [Crc32c] in
theorem lastValue_stateWrites_none {state : TxMutation → Option ValuePointer} {mutations : List TxMutation} {key : Bytes}
    (absent : ∀ mutation ∈ mutations, mutation.userKey ≠ key) : lastValue (stateWrites state mutations) key = none := by
  apply lastValue_of_notMem
  intro member
  simp only [stateWrites,List.map_map,List.mem_map,Function.comp_apply] at member
  obtain ⟨mutation,member,same⟩ := member
  exact absent mutation member same

section transaction
variable {before after : Index} {encoded : EncodedDescriptor} {descriptor : TransactionDescriptor}

theorem Transacts.current (transacts : Transacts before after encoded descriptor) {mutation : TxMutation}
    (member : mutation ∈ descriptor.mutations) :
    after.user[mutation.userKey]? = storedState mutation.afterState := by
  rw [transacts.user,lastValue_stateWrites transacts.distinct member]
  rfl

-- Writing the before states over the after states gives back what was there.
theorem Transacts.restoresUser (transacts : Transacts before after encoded descriptor) (key : Bytes) :
    (lastValue (stateWrites TxMutation.beforeState descriptor.mutations) key).getD after.user[key]? =
      before.user[key]? := by
  by_cases touched : ∃ mutation ∈ descriptor.mutations, mutation.userKey = key
  · obtain ⟨mutation,member,rfl⟩ := touched
    rw [lastValue_stateWrites transacts.distinct member,transacts.found mutation member]
    rfl
  · have absent : ∀ mutation ∈ descriptor.mutations, mutation.userKey ≠ key :=
      fun mutation member same => touched ⟨mutation,member,same⟩
    rw [lastValue_stateWrites_none absent,transacts.user,lastValue_stateWrites_none absent]
    rfl

-- Deleting the entries of the last transaction leaves the earlier ones.
theorem Transacts.restoresTransaction (transacts : Transacts before after encoded descriptor)
    {deletions : List (Bytes × Option Bytes)}
    (deletes : ∀ key, lastValue deletions key = if key ∈ encoded.entries.map Prod.fst then some none else none)
    (key : Bytes) : (lastValue deletions key).getD after.transaction[key]? = before.transaction[key]? := by
  rw [deletes]
  split
  · rename_i member
    obtain ⟨entry,present,rfl⟩ := List.mem_map.mp member
    obtain ⟨rest,keyed⟩ := transacts.stores.key present
    cases old : before.transaction[entry.1]? with
    | none => rfl
    | some value =>
      have lower := transacts.below _ _ old
      rw [keyed,txKey_compare rest transacts.stores.seq transacts.stores.seq] at lower
      omega
  · rename_i absent
    rw [Option.getD_none,transacts.transaction key,lastValue_of_notMem]
    · rfl
    · rw [List.map_map]
      exact absent

end transaction

section batch

-- A loop of pushes that all pass.
omit [Crc32c] in
theorem foldlM_pushes {α : Type} (form : α → IndexMutation) (items : List α)
    (step : IndexAtomicBatch → α → Result IndexAtomicBatch) (start : IndexAtomicBatch)
    (pushes : ∀ item ∈ items, ∀ batch, step batch item = .ok (batch ++ [form item])) :
    items.foldlM step start = .ok (start ++ items.map form) := by
  induction items generalizing start with
  | nil => simp
  | cons item rest ih =>
    rw [List.foldlM_cons,pushes item List.mem_cons_self,ok_bind,
      ih (start ++ [form item]) (fun other member => pushes other (List.mem_cons_of_mem _ member))]
    simp

omit [Crc32c] in
theorem pushRecovery_eq {batch : IndexAtomicBatch} {mutation : IndexMutation}
    (valid : validateOrdinaryMutation mutation = .ok ()) : pushRecovery batch mutation = .ok (batch ++ [mutation]) := by
  simp [pushRecovery,IndexAtomicBatch.tryPush,valid,Except.mapError]

omit [Crc32c] in
theorem userMutation_eq {userKey : Bytes} {state : Option ValuePointer} {context : StorageError → StorageError}
    (encodable : ∀ pointer ∈ state, pointer.validateFields = .ok ()) :
    userMutation userKey state context = .ok (stateMutation userKey state) := by
  cases state with
  | none => rfl
  | some pointer =>
    have encodes := ValuePointer.encode_bytes.mpr ⟨encodable pointer rfl,rfl⟩
    simp [userMutation,encodes,Except.mapError,stateMutation]

omit [Crc32c] in
theorem stateMutation_valid {userKey : Bytes} {state : Option ValuePointer} (named : userKey ≠ []) :
    validateOrdinaryMutation (stateMutation userKey state) = .ok () := by
  cases state with
  | none => simp [stateMutation,validateOrdinaryMutation,named]
  | some pointer => simp [stateMutation,validateOrdinaryMutation,named,ValuePointer.bytes,leBytes]

omit [Crc32c] in
theorem deleteTransaction_valid {key : Bytes} (named : key ≠ []) :
    validateOrdinaryMutation (.deleteInternal .transaction key) = .ok () := by
  simp [validateOrdinaryMutation,isDatabaseIdentityKey,named]

def undoBatch (descriptor : TransactionDescriptor) (encoded : EncodedDescriptor) (nextSeq : Nat) (state : Bytes) :
    IndexAtomicBatch :=
  descriptor.mutations.map (fun mutation => stateMutation mutation.userKey mutation.beforeState) ++
    ((encoded.mutations.map (fun mutation => .deleteInternal .transaction mutation.key) ++
      [.deleteInternal .transaction encoded.metaKey]) ++
      [.putInternal .system headSeqKey (encodeHeadSeq nextSeq),.putInternal .system recoveryStateKey state])

omit [Crc32c] in
theorem undoBatch_writes (descriptor : TransactionDescriptor) (encoded : EncodedDescriptor) (nextSeq : Nat)
    (state : Bytes) :
    (undoBatch descriptor encoded nextSeq state).Writes (stateWrites TxMutation.beforeState descriptor.mutations)
      (encoded.mutations.map (fun mutation => (mutation.key,none)) ++ [(encoded.metaKey,none)])
      [(headSeqKey,some (encodeHeadSeq nextSeq)),(recoveryStateKey,some state)] := by
  simp only [IndexAtomicBatch.Writes,undoBatch,stateWrites,List.map_append,List.map_cons,List.map_map,List.map_nil]
  congr 1
  apply List.map_congr_left
  intro mutation member
  exact stateMutation_write mutation.userKey mutation.beforeState

omit [Crc32c] in
theorem lastValue_deletions (encoded : EncodedDescriptor) (key : Bytes) :
    lastValue (encoded.mutations.map (fun mutation : EncodedMutation => (mutation.key,(none : Option Bytes))) ++ [(encoded.metaKey,none)])
      key = if key ∈ encoded.entries.map Prod.fst then some none else none := by
  have keys : (encoded.mutations.map (fun mutation : EncodedMutation => (mutation.key,(none : Option Bytes))) ++
      [(encoded.metaKey,none)]).map Prod.fst = encoded.mutations.map EncodedMutation.key ++ [encoded.metaKey] := by
    simp
  have same : key ∈ encoded.entries.map Prod.fst ↔ key ∈ encoded.mutations.map EncodedMutation.key ++ [encoded.metaKey] := by
    simp [EncodedDescriptor.entries,EncodedMutation.entry,or_comm]
  split
  · rename_i member
    rw [same,←keys,←lastValue_isSome] at member
    obtain ⟨value,known⟩ := Option.isSome_iff_exists.mp member
    obtain ⟨place,written,-⟩ := lastValue_place known
    have there := List.mem_of_getElem? written
    simp only [List.mem_append,List.mem_map,List.mem_singleton,Prod.mk.injEq] at there
    rw [known]
    rcases there with ⟨-,-,-,rfl⟩ | ⟨-,rfl⟩ <;> rfl
  · rename_i absent
    apply lastValue_of_notMem
    rw [keys,←same]
    exact absent

variable {before after : Index} {encoded : EncodedDescriptor} {descriptor : TransactionDescriptor}

-- A stored descriptor whose before states can be written back.
structure Undoable (encoded : EncodedDescriptor) (descriptor : TransactionDescriptor) : Prop where
  stores : Stores encoded descriptor
  named : ∀ mutation ∈ descriptor.mutations, mutation.userKey ≠ []
  encodable : ∀ mutation ∈ descriptor.mutations, ∀ pointer ∈ mutation.beforeState, pointer.validateFields = .ok ()

theorem Transacts.undoable (transacts : Transacts before after encoded descriptor) : Undoable encoded descriptor :=
  ⟨transacts.stores,transacts.named,fun mutation member pointer there =>
    transacts.encodable mutation member pointer (.inl there)⟩

theorem Undoable.batch_eq (undoable : Undoable encoded descriptor) {nextState : RecoveryState}
    {state : Bytes} (encodes : nextState.encode = .ok state) (present : state ≠ []) :
    buildUndoBatch ⟨descriptor,(encoded.metaKey,encoded.metaValue),encoded.mutations.map EncodedMutation.entry⟩ nextState =
        .ok (undoBatch descriptor encoded nextState.nextUndoSeq state) ∧
      (undoBatch descriptor encoded nextState.nextUndoSeq state).Ordinary := by
  have users : ∀ mutation ∈ descriptor.mutations,
      validateOrdinaryMutation (stateMutation mutation.userKey mutation.beforeState) = .ok () :=
    fun mutation member => stateMutation_valid (undoable.named mutation member)
  have keyed : ∀ mutation ∈ encoded.mutations, mutation.key ≠ [] := by
    intro mutation member empty
    obtain ⟨-,-,width⟩ := undoable.stores.mutationRead member
    rw [empty] at width
    cases width
  have metaKeyed : encoded.metaKey ≠ [] := by
    intro empty
    have width := undoable.stores.metaRead.2
    rw [empty] at width
    cases width
  have head : validateOrdinaryMutation (.putInternal .system headSeqKey (encodeHeadSeq nextState.nextUndoSeq)) =
      .ok () := by
    simp [validateOrdinaryMutation,isDatabaseIdentityKey,headSeqKey,databaseIdentityKey,encodeHeadSeq,leBytes]
  have recovery : validateOrdinaryMutation (.putInternal .system recoveryStateKey state) = .ok () := by
    simp [validateOrdinaryMutation,isDatabaseIdentityKey,recoveryStateKey,databaseIdentityKey,present]
  constructor
  · have first := foldlM_pushes (fun mutation : TxMutation => stateMutation mutation.userKey mutation.beforeState)
      descriptor.mutations (fun batch mutation => do
        let operation ← userMutation mutation.userKey mutation.beforeState recoveryContext
        pushRecovery batch operation) [] (by
      intro mutation member batch
      rw [userMutation_eq (undoable.encodable mutation member),ok_bind,
        pushRecovery_eq (users mutation member)])
    have second := fun start => foldlM_pushes (fun mutation : Bytes × Bytes => .deleteInternal .transaction mutation.1)
      (encoded.mutations.map EncodedMutation.entry)
      (fun batch mutation => pushRecovery batch (.deleteInternal .transaction mutation.1)) start (by
      intro entry member batch
      obtain ⟨mutation,there,rfl⟩ := List.mem_map.mp member
      exact pushRecovery_eq (deleteTransaction_valid (keyed mutation there)))
    simp only [buildUndoBatch]
    rw [first,ok_bind,second,ok_bind,pushRecovery_eq (deleteTransaction_valid metaKeyed),ok_bind,pushRecovery_eq head,
      ok_bind,encodes]
    simp only [Except.mapError,ok_bind]
    rw [pushRecovery_eq recovery]
    simp [undoBatch,EncodedMutation.entry]
  · refine ⟨by simp [undoBatch],?_⟩
    intro mutation member
    simp only [undoBatch,List.mem_append,List.mem_map,List.mem_cons,List.not_mem_nil,or_false] at member
    rcases member with ⟨entry,there,rfl⟩ | (⟨entry,there,rfl⟩ | rfl) | rfl | rfl
    · exact users entry there
    · exact deleteTransaction_valid (keyed entry there)
    · exact deleteTransaction_valid metaKeyed
    · exact head
    · exact recovery

end batch

section undo

-- The index while transactions are taken back: it holds what was there after `index`, and the
-- progress of the undo in the system keyspace.
structure Undoing (index : Index) (state : RecoveryState) (start reached : Storage) : Prop where
  honest : reached.Honest
  user : reached.index.user = index.user
  transaction : reached.index.transaction = index.transaction
  head : reached.index.system[headSeqKey]? = some (encodeHeadSeq state.nextUndoSeq)
  progress : ∃ encoded, state.encode = .ok encoded ∧ reached.index.system[recoveryStateKey]? = some encoded
  others : ∀ key, key ≠ headSeqKey → key ≠ recoveryStateKey →
    reached.index.system[key]? = start.index.system[key]?
  vlog : reached.vlog = start.vlog

theorem Undoing.trans {index other : Index} {state next : RecoveryState} {start middle reached : Storage}
    (first : Undoing other next start middle) (second : Undoing index state middle reached) :
    Undoing index state start reached :=
  ⟨second.honest,second.user,second.transaction,second.head,second.progress,
    fun key head recovery => (second.others key head recovery).trans (first.others key head recovery),
    second.vlog.trans first.vlog⟩

variable {before after : Index} {encoded : EncodedDescriptor} {descriptor : TransactionDescriptor}
  {storage : Storage} {state : RecoveryState} {plan : RecoveryPlan}

theorem RecoveryState.encode_present {state : RecoveryState} {encoded : Bytes} (encodes : state.encode = .ok encoded) :
    encoded ≠ [] := by
  rintro rfl
  simp [encode,appendCrc,recoveryStateMagic] at encodes

theorem loadDescriptor_delivers {post : LoadedDescriptor → Storage → Prop} {fail : StorageError → Storage → Prop}
    (stores : Stores encoded descriptor) (honest : storage.Honest)
    (scanned : storage.index.transaction.scan (seqRange descriptor.txMeta.commitSeq) = encoded.entries)
    (good : post ⟨descriptor,(encoded.metaKey,encoded.metaValue),encoded.mutations.map EncodedMutation.entry⟩ storage) :
    Delivers (loadDescriptor descriptor) storage post fail := by
  rw [loadDescriptor,descriptorRange_eq stores.positive]
  simp only [delivers_bind,delivers_mapError,scanInternal]
  refine delivers_lift.mpr ⟨?_,fun error failed => by cases failed⟩
  intro range found
  obtain rfl := Except.ok.inj found
  rw [delivers_reading_honest honest]
  change Delivers (Eff.lift (loadEntries descriptor (storage.index.transaction.scan _))) storage post fail
  rw [scanned,stores.load]
  exact good

theorem validateCurrentAfterStates_delivers {fail : StorageError → Storage → Prop}
    (transacts : Transacts before after encoded descriptor) (honest : storage.Honest)
    (same : storage.index.user = after.user) :
    Delivers (validateCurrentAfterStates descriptor) storage (fun _ reached => reached = storage) fail := by
  refine Delivers.forM ?_ rfl
  intro mutation member reached kept
  obtain rfl := kept.symm
  have stored : storage.index.user[mutation.userKey]? = storedState mutation.afterState := by
    rw [same]
    exact transacts.current member
  have matched : afterStateMatches (storedState mutation.afterState) mutation.afterState = .ok true := by
    cases state : mutation.afterState with
    | none => rfl
    | some pointer =>
      have encodes := ValuePointer.encode_bytes.mpr
        ⟨transacts.encodable mutation member pointer (.inr state),rfl⟩
      simp [afterStateMatches,encodes,Except.mapError,storedState]
  simp only [validateCurrentAfterState,delivers_bind,delivers_mapError,getUser]
  rw [delivers_reading_honest honest,stored,matched]
  exact rfl

-- One turn takes back one transaction.
theorem undoTransaction_delivers (transacts : Transacts before after encoded descriptor)
    (here : Undoing after state storage storage)
    (expected : expectedDescriptor plan state.nextUndoSeq = .ok descriptor)
    (valid : {state with nextUndoSeq := state.nextUndoSeq - 1}.validate = .ok ())
    (identified : storage.index.system[databaseIdentityKey]? ≠ none) :
    Delivers (undoTransaction plan state) storage
      (fun next reached => next = {state with nextUndoSeq := state.nextUndoSeq - 1} ∧
        Undoing before next storage reached) (fun _ _ => False) := by
  obtain ⟨bytes,encodes⟩ := RecoveryState.encode_ok valid
  have present := RecoveryState.encode_present encodes
  obtain ⟨built,ordinary⟩ := transacts.undoable.batch_eq encodes present
  have scanned : storage.index.transaction.scan (seqRange descriptor.txMeta.commitSeq) = encoded.entries := by
    rw [here.transaction]
    exact transacts.stores.scan transacts.transaction transacts.below
  have writes := undoBatch_writes descriptor encoded (state.nextUndoSeq - 1) bytes
  simp only [undoTransaction,expected,delivers_bind]
  refine delivers_lift.mpr ⟨?_,fun error failed => by cases failed⟩
  intro found same
  obtain rfl := Except.ok.inj same
  refine loadDescriptor_delivers transacts.stores here.honest scanned ?_
  refine (validateCurrentAfterStates_delivers transacts here.honest here.user).mono ?_ (fun _ _ stopped => stopped)
  intro _ reached kept
  obtain rfl := kept.symm
  simp only [built]
  refine delivers_lift.mpr ⟨?_,fun error failed => by cases failed⟩
  intro batch same
  obtain rfl := Except.ok.inj same
  simp only [commitRecoveryBatch,delivers_mapError]
  rw [delivers_commitAtomic_honest here.honest ordinary identified]
  refine ⟨rfl,here.honest,?_,?_,?_,⟨bytes,encodes,?_⟩,?_,rfl⟩
  · apply Keyspace.ext_getElem?
    intro key
    refine (writes.user storage.index key).trans ?_
    rw [here.user]
    exact transacts.restoresUser key
  · apply Keyspace.ext_getElem?
    intro key
    refine (writes.transaction storage.index key).trans ?_
    rw [here.transaction]
    exact transacts.restoresTransaction (lastValue_deletions encoded) key
  · exact (writes.system storage.index headSeqKey).trans rfl
  · exact (writes.system storage.index recoveryStateKey).trans rfl
  · intro key head recovery
    refine (writes.system storage.index key).trans ?_
    rw [lastValue_of_notMem]
    · rfl
    · simp [head,recovery]

-- Transactions in their order.
inductive Transacted : Index → List (EncodedDescriptor × TransactionDescriptor) → Index → Prop
  | nil (index : Index) : Transacted index [] index
  | snoc {first middle last : Index} {chain : List (EncodedDescriptor × TransactionDescriptor)}
      {encoded : EncodedDescriptor} {descriptor : TransactionDescriptor} (earlier : Transacted first chain middle)
      (step : Transacts middle last encoded descriptor) : Transacted first (chain ++ [(encoded,descriptor)]) last

omit [Crc32c] in
theorem RecoveryState.validate_lowered {state : RecoveryState} (valid : state.validate = .ok ())
    (phase : state.phase = .undo) (more : state.targetSeq < state.nextUndoSeq) :
    {state with nextUndoSeq := state.nextUndoSeq - 1}.validate = .ok () := by
  obtain ⟨⟨vlogBound,order,bounded⟩,ends,-⟩ := RecoveryState.validate_ok.mp valid
  apply RecoveryState.validate_ok.mpr
  refine ⟨⟨vlogBound,?_,?_⟩,ends,?_⟩
  · simp only; omega
  · simp only; omega
  · simp [RecoveryState.phaseMatches,phase]

-- The turns of the loop take back the transactions from the last one on.
theorem undoTurns_delivers {first last : Index} {chain : List (EncodedDescriptor × TransactionDescriptor)}
    (history : Transacted first chain last) (here : Undoing last state storage storage)
    (next : state.nextUndoSeq = state.targetSeq + chain.length) (phase : state.phase = .undo)
    (valid : state.validate = .ok ())
    (expected : ∀ index (bound : index < chain.length),
      expectedDescriptor plan (state.targetSeq + 1 + index) = .ok (chain[index]).2)
    (identified : storage.index.system[databaseIdentityKey]? ≠ none) :
    Delivers (undoTurns plan chain.length state) storage
      (fun result reached => result = {state with nextUndoSeq := state.targetSeq} ∧ Undoing first result storage reached)
      (fun _ _ => False) := by
  induction history generalizing storage state with
  | nil =>
    have same : state = {state with nextUndoSeq := state.targetSeq} := by
      obtain ⟨phase,originalHead,targetSeq,targetVlogSeq,targetVlogEnd,nextUndoSeq,trimRequired⟩ := state
      simp only [List.length_nil,Nat.add_zero] at next
      rw [next]
    exact ⟨same,here⟩
  | @snoc middle last chain encoded descriptor earlier step ih =>
    simp only [List.length_append,List.length_singleton] at next expected
    have lowered := RecoveryState.validate_lowered valid phase (by omega)
    have known : expectedDescriptor plan state.nextUndoSeq = .ok descriptor := by
      have last := expected chain.length (by omega)
      rw [List.getElem_append_right (Nat.le_refl _)] at last
      rw [show state.nextUndoSeq = state.targetSeq + 1 + chain.length by omega]
      simpa using last
    rw [List.length_append,List.length_singleton,undoTurns]
    refine (undoTransaction_delivers step here known lowered identified).bind ?_ (fun _ _ stopped => stopped)
    rintro _ reached ⟨rfl,undone⟩
    have again : Undoing middle {state with nextUndoSeq := state.nextUndoSeq - 1} reached reached :=
      ⟨undone.honest,undone.user,undone.transaction,undone.head,undone.progress,fun _ _ _ => rfl,rfl⟩
    have kept : reached.index.system[databaseIdentityKey]? ≠ none := by
      rw [undone.others _ (by decide) (by decide)]
      exact identified
    refine (ih again (by simp only; omega) phase lowered ?_ kept).mono ?_ (fun _ _ stopped => stopped)
    · intro index bound
      have one := expected index (by omega)
      rwa [List.getElem_append_left bound] at one
    · rintro result final ⟨rfl,later⟩
      exact ⟨rfl,undone.trans later⟩

end undo

end ExpirKv
