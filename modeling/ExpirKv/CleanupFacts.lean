import ExpirKv.Cleanup
import ExpirKv.Recovery.ExecuteFacts
import ExpirKv.Recovery.Resume

namespace ExpirKv

section stable

-- A key of a sequence no higher than the durable one.
def StableKey (durableSeq : Nat) (key : Bytes) : Prop :=
  durableSeq + 1 < 18446744073709551616 → compare key (txKeyHead (durableSeq + 1)) = .lt

theorem StableKey.mono {low high : Nat} {key : Bytes} (stable : StableKey low key) (ordered : low ≤ high) :
    StableKey high key := by
  intro fits
  by_contra above
  exact txKey_above_mono (by omega) fits above (stable (by omega))

theorem stableKey_txKey {durableSeq seq : Nat} {rest : Bytes} (fits : seq < 18446744073709551616) :
    StableKey durableSeq (txKeyHead seq ++ rest) ↔ (durableSeq + 1 < 18446744073709551616 → seq ≤ durableSeq) := by
  unfold StableKey
  refine forall_congr' (fun room => ?_)
  rw [txKey_compare rest fits room]
  omega

theorem decodeCleanupKey_canonical {key : Bytes} {seq : Nat} {kind : CleanupKeyKind}
    (read : decodeCleanupKey key = .ok (seq,kind)) :
    (∃ rest, key = txKeyHead seq ++ rest) ∧ seq < 18446744073709551616 := by
  unfold decodeCleanupKey at read
  split at read
  · simp only [mapError_ok,map_ok,Prod.mk.injEq] at read
    obtain ⟨_,decoded,rfl,-⟩ := read
    obtain ⟨written,fits⟩ := decodeTxMetaKey_canonical decoded
    exact ⟨⟨_,(encodeTxMetaKey_ok.mp written).2.symm⟩,fits⟩
  · split at read
    · simp only [mapError_ok,map_ok,Prod.mk.injEq] at read
      obtain ⟨⟨_,ordinal⟩,decoded,rfl,-⟩ := read
      obtain ⟨written,fits,-⟩ := decodeTxMutationKey_canonical decoded
      exact ⟨⟨_,(encodeTxMutationKey_ok.mp written).2.symm⟩,fits⟩
    · cases read

theorem decodeCleanupKey_stable {key : Bytes} {seq durableSeq : Nat} {kind : CleanupKeyKind}
    (read : decodeCleanupKey key = .ok (seq,kind)) (inside : seq ≤ durableSeq) : StableKey durableSeq key := by
  obtain ⟨⟨rest,rfl⟩,fits⟩ := decodeCleanupKey_canonical read
  exact (stableKey_txKey fits).mpr (fun _ => inside)

theorem decodeCleanupKey_mutation {key : Bytes} {seq ordinal : Nat} :
    decodeCleanupKey key = .ok (seq,.mutation ordinal) ↔ decodeTxMutationKey key = .ok (seq,ordinal) := by
  constructor
  · intro read
    unfold decodeCleanupKey at read
    split at read
    · simp [mapError_ok,map_ok] at read
    · split at read
      · simp only [mapError_ok,map_ok,Prod.mk.injEq,CleanupKeyKind.mutation.injEq] at read
        obtain ⟨⟨_,_⟩,decoded,rfl,rfl⟩ := read
        exact decoded
      · cases read
  · intro decoded
    obtain ⟨written,-,-⟩ := decodeTxMutationKey_canonical decoded
    have width : key.length = 19 := by
      rw [←(encodeTxMutationKey_ok.mp written).2]
      simp
    simp [decodeCleanupKey,width,decoded,Except.map,Except.mapError]

end stable

variable [Crc32c]

-- Where the system keyspace says the database stands.
structure Ledger (index : Index) (frontier : DurableFrontier) (headSeq : Nat) : Prop where
  identified : index.system[databaseIdentityKey]? ≠ none
  durable : ∃ encoded, index.system[durableFrontierKey]? = some encoded ∧ DurableFrontier.decode encoded = .ok frontier
  head : index.system[headSeqKey]? = some (encodeHeadSeq headSeq)
  ordered : frontier.durableSeq ≤ headSeq
  fits : headSeq < 18446744073709551616

theorem Ledger.frontier_unique {index : Index} {frontier other : DurableFrontier} {headSeq otherHead : Nat}
    (first : Ledger index frontier headSeq) (second : Ledger index other otherHead) : frontier = other := by
  obtain ⟨encoded,stored,decoded⟩ := first.durable
  obtain ⟨again,found,read⟩ := second.durable
  obtain rfl := Option.some.inj (stored.symm.trans found)
  exact Except.ok.inj (decoded.symm.trans read)

-- The batches of the commit paths: a commit, a commit with its frontier, a frontier alone.
inductive WriterBatch (index : Index) (headSeq : Nat) : IndexAtomicBatch → Prop
  | commit {write : ValidatedWrite} {vlogContext : Option VlogContext} {uuidSource : Except IoError Uuid}
      {allocated : Bool} {commit : PreparedCommit}
      (prepared : prepareCommit write headSeq vlogContext (fun key => .ok index.user[key]?) uuidSource allocated =
        .ok commit) : WriterBatch index headSeq commit.indexBatch
  | syncCommit {write : ValidatedWrite} {vlogContext : Option VlogContext} {uuidSource : Except IoError Uuid}
      {allocated : Bool} {commit : PreparedCommit} {frontier : DurableFrontier} {encoded : Bytes}
      (prepared : prepareCommit write headSeq vlogContext (fun key => .ok index.user[key]?) uuidSource allocated =
        .ok commit) (target : frontier.durableSeq = headSeq + 1) (encodes : frontier.encode = .ok encoded) :
      WriterBatch index headSeq (commit.indexBatch ++ [.putInternal .system durableFrontierKey encoded])
  | barrier {frontier : DurableFrontier} {encoded : Bytes} (target : frontier.durableSeq = headSeq)
      (encodes : frontier.encode = .ok encoded) :
      WriterBatch index headSeq [.putInternal .system durableFrontierKey encoded]

-- A batch that leaves the stable descriptors alone and the frontier no lower.
structure Advances (index : Index) (durableSeq : Nat) (batch : IndexAtomicBatch) : Prop where
  writes : ∃ users transactions systems, batch.Writes users transactions systems ∧
    ∀ entry ∈ transactions, ¬StableKey durableSeq entry.1
  ledger : ∃ frontier headSeq, Ledger (index.apply batch) frontier headSeq ∧ durableSeq ≤ frontier.durableSeq

theorem prepareCommit_writes {index : Index} {headSeq : Nat} {write : ValidatedWrite} {vlogContext : Option VlogContext}
    {uuidSource : Except IoError Uuid} {allocated : Bool} {commit : PreparedCommit}
    (prepared : prepareCommit write headSeq vlogContext (fun key => .ok index.user[key]?) uuidSource allocated =
      .ok commit) :
    headSeq + 1 < 18446744073709551616 ∧ IndexAtomicBatch.Ordinary commit.indexBatch ∧
      ∃ users transactions, commit.indexBatch.Writes users transactions [(headSeqKey,some (encodeHeadSeq (headSeq + 1)))] ∧
        ∀ entry ∈ transactions, ∃ rest, entry.1 = txKeyHead (headSeq + 1) ++ rest := by
  obtain ⟨descriptor,prepares⟩ := prepareCommit_prepares prepared
  obtain ⟨encoded,written,batch⟩ := prepares.batch
  obtain ⟨crc,stores⟩ := encodeDescriptor_stores written prepares.fits
  have seq : (descriptor.sealed crc).txMeta.commitSeq = headSeq + 1 := by
    simp only [TransactionDescriptor.sealed,prepares.described,commitTxMeta]
  refine ⟨prepares.bound,prepares.batchOrdinary,_,_,by
    rw [batch]
    exact commitBatch_writes descriptor.mutations encoded (headSeq + 1),?_⟩
  intro entry member
  obtain ⟨stored,present,rfl⟩ := List.mem_map.mp member
  obtain ⟨rest,keyed⟩ := stores.key present
  exact ⟨rest,by rw [keyed,seq]⟩

section writer
variable {index : Index} {frontier : DurableFrontier} {headSeq : Nat} {batch : IndexAtomicBatch}

theorem WriterBatch.ordinary (writer : WriterBatch index headSeq batch) : batch.Ordinary := by
  cases writer with
  | commit prepared => exact (prepareCommit_writes prepared).2.1
  | syncCommit prepared target encodes =>
    obtain ⟨-,⟨present,valid⟩,-⟩ := prepareCommit_writes prepared
    refine ⟨by simp,?_⟩
    intro mutation member
    rcases List.mem_append.mp member with earlier | last
    · exact valid mutation earlier
    · obtain rfl := List.mem_singleton.mp last
      exact putFrontier_valid encodes
  | barrier target encodes =>
    refine ⟨by simp,?_⟩
    intro mutation member
    obtain rfl := List.mem_singleton.mp member
    exact putFrontier_valid encodes

theorem WriterBatch.advances (ledger : Ledger index frontier headSeq) (writer : WriterBatch index headSeq batch) :
    Advances index frontier.durableSeq batch ∧
      (index.apply batch).system[recoveryStateKey]? = index.system[recoveryStateKey]? := by
  have identified : (index.apply batch).system[databaseIdentityKey]? ≠ none := by
    rw [writer.ordinary.identity]
    exact ledger.identified
  have ordered := ledger.ordered
  cases writer with
  | commit prepared =>
    obtain ⟨bound,-,users,transactions,writes,above⟩ := prepareCommit_writes prepared
    refine ⟨⟨⟨users,transactions,_,writes,?_⟩,frontier,headSeq + 1,⟨identified,?_,?_,by omega,bound⟩,Nat.le_refl _⟩,?_⟩
    · intro entry member stable
      obtain ⟨rest,keyed⟩ := above entry member
      rw [keyed,stableKey_txKey bound] at stable
      have := stable (by omega)
      omega
    · obtain ⟨encoded,stored,decoded⟩ := ledger.durable
      exact ⟨encoded,(writes.system index _).trans stored,decoded⟩
    · exact (writes.system index _).trans rfl
    · exact (writes.system index _).trans rfl
  | @syncCommit _ _ _ _ commit next encoded prepared target encodes =>
    obtain ⟨bound,-,users,transactions,writes,above⟩ := prepareCommit_writes prepared
    have both := writes.putSystem durableFrontierKey encoded
    have durable := (DurableFrontier.decode_encode encodes (by omega)).1
    refine ⟨⟨⟨users,transactions,_,both,?_⟩,next,headSeq + 1,⟨identified,⟨encoded,(both.system index _).trans rfl,durable⟩,
      (both.system index _).trans rfl,by omega,bound⟩,by omega⟩,(both.system index _).trans rfl⟩
    intro entry member stable
    obtain ⟨rest,keyed⟩ := above entry member
    rw [keyed,stableKey_txKey bound] at stable
    have := stable (by omega)
    omega
  | @barrier next encoded target encodes =>
    have writes := systemPuts_writes [(durableFrontierKey,encoded)]
    have fits := ledger.fits
    have durable := (DurableFrontier.decode_encode encodes (by omega)).1
    refine ⟨⟨⟨[],[],_,writes,fun _ no => by cases no⟩,next,headSeq,⟨identified,
      ⟨encoded,(writes.system index _).trans rfl,durable⟩,(writes.system index _).trans ledger.head,by omega,fits⟩,
      by omega⟩,(writes.system index _).trans rfl⟩

theorem WriterBatch.transfer {other : Index} (writer : WriterBatch index headSeq batch) (user : index.user = other.user) :
    WriterBatch other headSeq batch := by
  cases writer with
  | commit prepared => exact .commit (user ▸ prepared)
  | syncCommit prepared target encodes => exact .syncCommit (user ▸ prepared) target encodes
  | barrier target encodes => exact .barrier target encodes

theorem Ledger.transfer {other : Index} (ledger : Ledger index frontier headSeq) (system : index.system = other.system) :
    Ledger other frontier headSeq := by
  obtain ⟨identified,durable,head,ordered,fits⟩ := ledger
  rw [system] at identified durable head
  exact ⟨identified,durable,head,ordered,fits⟩

end writer

-- An index, and what it would be had the cleanup not run.
structure Tidied (index untouched : Index) : Prop where
  user : index.user = untouched.user
  system : index.system = untouched.system
  ledger : ∃ frontier headSeq, Ledger index frontier headSeq ∧
    ∀ key, ¬StableKey frontier.durableSeq key → index.transaction[key]? = untouched.transaction[key]?
  within : ∀ key : Bytes, index.transaction[key]? = none ∨ index.transaction[key]? = untouched.transaction[key]?

def removals (keys : List Bytes) : IndexAtomicBatch := keys.map (.deleteInternal .transaction)

omit [Crc32c] in
theorem removals_writes (keys : List Bytes) : (removals keys).Writes [] (keys.map (fun key => (key,none))) [] := by
  simp [IndexAtomicBatch.Writes,removals,IndexMutation.write,place]

omit [Crc32c] in
theorem removals_transaction (keys : List Bytes) (index : Index) (key : Bytes) :
    (index.apply (removals keys)).transaction[key]? = if key ∈ keys then none else index.transaction[key]? := by
  rw [(removals_writes keys).transaction index key]
  split
  · rename_i member
    have known : (lastValue (keys.map (fun key => (key,(none : Option Bytes)))) key).isSome = true := by
      rw [lastValue_isSome,List.map_map]
      simpa using member
    obtain ⟨value,found⟩ := Option.isSome_iff_exists.mp known
    obtain ⟨spot,written,-⟩ := lastValue_place found
    have there := List.mem_of_getElem? written
    simp only [List.mem_map,Prod.mk.injEq] at there
    obtain ⟨-,-,-,rfl⟩ := there
    rw [found]
    rfl
  · rename_i absent
    rw [lastValue_of_notMem (by rw [List.map_map]; simpa using absent)]
    rfl

omit [Crc32c] in
theorem removals_user (keys : List Bytes) (index : Index) : (index.apply (removals keys)).user = index.user := by
  apply Keyspace.ext_getElem?
  exact (removals_writes keys).user index

omit [Crc32c] in
theorem removals_system (keys : List Bytes) (index : Index) : (index.apply (removals keys)).system = index.system := by
  apply Keyspace.ext_getElem?
  exact (removals_writes keys).system index

section tidied
variable {index untouched : Index} {frontier : DurableFrontier} {headSeq : Nat} {batch : IndexAtomicBatch}

theorem Tidied.refl (ledger : Ledger index frontier headSeq) : Tidied index index :=
  ⟨rfl,rfl,⟨frontier,headSeq,ledger,fun _ _ => rfl⟩,fun _ => .inr rfl⟩

-- What others write goes into both.
theorem Tidied.advance (tidied : Tidied index untouched) (ledger : Ledger index frontier headSeq)
    (advances : Advances index frontier.durableSeq batch) : Tidied (index.apply batch) (untouched.apply batch) := by
  obtain ⟨⟨users,transactions,systems,writes,-⟩,next,nextHead,later,ordered⟩ := advances
  obtain ⟨known,knownHead,standing,above⟩ := tidied.ledger
  obtain rfl := standing.frontier_unique ledger
  refine ⟨?_,?_,⟨next,nextHead,later,?_⟩,?_⟩
  · apply Keyspace.ext_getElem?
    intro key
    rw [writes.user,writes.user,tidied.user]
  · apply Keyspace.ext_getElem?
    intro key
    rw [writes.system,writes.system,tidied.system]
  · intro key unstable
    rw [writes.transaction,writes.transaction,above key (fun stable => unstable (stable.mono ordered))]
  · intro key
    rw [writes.transaction,writes.transaction]
    cases lastValue transactions key with
    | none => exact tidied.within key
    | some value => exact .inr rfl

-- What the cleanup removes was stable.
theorem Tidied.remove {keys : List Bytes} (tidied : Tidied index untouched) (ledger : Ledger index frontier headSeq)
    (stable : ∀ key ∈ keys, StableKey frontier.durableSeq key) : Tidied (index.apply (removals keys)) untouched := by
  obtain ⟨known,knownHead,standing,above⟩ := tidied.ledger
  obtain rfl := standing.frontier_unique ledger
  refine ⟨(removals_user keys index).trans tidied.user,(removals_system keys index).trans tidied.system,
    ⟨known,knownHead,standing.transfer (removals_system keys index).symm,?_⟩,?_⟩
  · intro key unstable
    rw [removals_transaction,if_neg (fun member => unstable (stable key member))]
    exact above key unstable
  · intro key
    rw [removals_transaction]
    split
    · exact .inl rfl
    · exact tidied.within key

end tidied

section history

def replay (first : Index) (history : List (Origin × IndexAtomicBatch)) : Index :=
  history.foldl (fun index step => index.apply step.2) first

-- The same history without the cleanup.
def replayWriters (first : Index) (history : List (Origin × IndexAtomicBatch)) : Index :=
  replay first (history.filter (fun step => step.1 = .writer))

omit [Crc32c] in
theorem replay_snoc (first : Index) (history : List (Origin × IndexAtomicBatch)) (step : Origin × IndexAtomicBatch) :
    replay first (history ++ [step]) = (replay first history).apply step.2 := by
  simp [replay]

omit [Crc32c] in
theorem replayWriters_writer (first : Index) (history : List (Origin × IndexAtomicBatch)) (batch : IndexAtomicBatch) :
    replayWriters first (history ++ [(.writer,batch)]) = (replayWriters first history).apply batch := by
  simp [replayWriters,replay]

omit [Crc32c] in
theorem replayWriters_cleanup (first : Index) (history : List (Origin × IndexAtomicBatch)) (batch : IndexAtomicBatch) :
    replayWriters first (history ++ [(.cleanup,batch)]) = replayWriters first history := by
  simp [replayWriters,replay]

-- Batches of the commit paths, each prepared from what the earlier ones left.
inductive Writers : Index → List IndexAtomicBatch → Prop
  | nil (index : Index) : Writers index []
  | cons {index : Index} {frontier : DurableFrontier} {headSeq : Nat} {batch : IndexAtomicBatch}
      {rest : List IndexAtomicBatch} (ledger : Ledger index frontier headSeq) (writer : WriterBatch index headSeq batch)
      (later : Writers (index.apply batch) rest) : Writers index (batch :: rest)

-- A batch of the cleanup: what it may remove, seen from the moment it lands.
structure Removal (first : Index) (front : List (Origin × IndexAtomicBatch)) (captured : Nat) (keys : List Bytes) :
    Prop where
  seen : ∃ early late frontier headSeq, front = early ++ late ∧ Ledger (replay first early) frontier headSeq ∧
    frontier.durableSeq = captured
  unresumed : (replay first front).system[recoveryStateKey]? = none
  each : ∀ key ∈ keys, ∃ seq kind, decodeCleanupKey key = .ok (seq,kind) ∧ seq ≤ captured ∧
    (kind = .metadata → ∀ (other value : Bytes) ordinal, (replay first front).transaction[other]? = some value →
      decodeTxMutationKey other ≠ .ok (seq,ordinal))

-- A history that is fine at each of its points.
structure Swept (first : Index) (history : List (Origin × IndexAtomicBatch)) : Prop where
  tidied : ∀ front back, history = front ++ back → Tidied (replay first front) (replayWriters first front)
  state : ∀ front back, history = front ++ back →
    (replay first front).system[recoveryStateKey]? = first.system[recoveryStateKey]?
  writers : ∀ front batch back, history = front ++ (.writer,batch) :: back →
    ∃ frontier headSeq, Ledger (replayWriters first front) frontier headSeq ∧
      WriterBatch (replayWriters first front) headSeq batch
  safe : ∀ front batch back, history = front ++ (.cleanup,batch) :: back →
    ∃ captured keys, keys ≠ [] ∧ batch = removals keys ∧ Removal first front captured keys

omit [Crc32c] in
-- The points of a longer history: the old ones and its end.
theorem split_snoc {α : Type} {history front back : List α} {step : α} (split : history ++ [step] = front ++ back) :
    (front = history ++ [step] ∧ back = []) ∨ ∃ inner, back = inner ++ [step] ∧ history = front ++ inner := by
  rcases List.eq_nil_or_concat back with rfl | ⟨inner,last,rfl⟩
  · exact .inl ⟨by rw [split,List.append_nil],rfl⟩
  · rw [List.concat_eq_append,←List.append_assoc] at split
    obtain ⟨same,ends⟩ := List.append_inj' split rfl
    obtain rfl := List.singleton_inj.mp ends
    exact .inr ⟨inner,by rw [List.concat_eq_append],same⟩

theorem Swept.snoc {first : Index} {history : List (Origin × IndexAtomicBatch)} {step : Origin × IndexAtomicBatch}
    (swept : Swept first history)
    (tidied : Tidied (replay first (history ++ [step])) (replayWriters first (history ++ [step])))
    (state : (replay first (history ++ [step])).system[recoveryStateKey]? =
      (replay first history).system[recoveryStateKey]?)
    (writer : step.1 = .writer → ∃ frontier headSeq, Ledger (replayWriters first history) frontier headSeq ∧
      WriterBatch (replayWriters first history) headSeq step.2)
    (safe : step.1 = .cleanup →
      ∃ captured keys, keys ≠ [] ∧ step.2 = removals keys ∧ Removal first history captured keys) :
    Swept first (history ++ [step]) := by
  refine ⟨?_,?_,?_,?_⟩
  · intro front back split
    rcases split_snoc split with ⟨rfl,-⟩ | ⟨inner,-,earlier⟩
    · exact tidied
    · exact swept.tidied front inner earlier
  · intro front back split
    rcases split_snoc split with ⟨rfl,-⟩ | ⟨inner,-,earlier⟩
    · exact state.trans (swept.state history [] (by simp))
    · exact swept.state front inner earlier
  · intro front batch back split
    rcases split_snoc split with ⟨-,no⟩ | ⟨inner,ends,earlier⟩
    · cases no
    · cases inner with
      | nil =>
        obtain ⟨rfl,rfl⟩ := List.cons.inj ends
        rw [List.append_nil] at earlier
        rw [←earlier]
        exact writer rfl
      | cons next inner =>
        obtain ⟨rfl,rfl⟩ := List.cons.inj ends
        exact swept.writers front batch inner earlier
  · intro front batch back split
    rcases split_snoc split with ⟨-,no⟩ | ⟨inner,ends,earlier⟩
    · cases no
    · cases inner with
      | nil =>
        obtain ⟨rfl,rfl⟩ := List.cons.inj ends
        rw [List.append_nil] at earlier
        rw [←earlier]
        exact safe rfl
      | cons next inner =>
        obtain ⟨rfl,rfl⟩ := List.cons.inj ends
        exact swept.safe front batch inner earlier

end history

end ExpirKv
