import ExpirKv.Commit.ProtocolFacts
import ExpirKv.Recovery.Undo

namespace ExpirKv
open Storage

-- The sequence of a key and whether it is the metadata key.
def decodeDescriptorKey (key : Bytes) : Result (Nat × Bool) :=
  if key.length = txMetaKeyEncodedLen then
    ((decodeTxMetaKey key).map (fun commitSeq => (commitSeq,true))).mapError recoveryContext
  else if key.length = txMutationKeyEncodedLen then
    ((decodeTxMutationKey key).map (fun decoded => (decoded.1,false))).mapError recoveryContext
  else .error recoveryCorruption

-- The lower bound is a sequence prefix; the upper bound stays open, so that entries above the
-- head are seen and rejected.
def unstableDescriptorRange (durableSeq headSeq : Nat) : Result (Option KeyRange) := do
  rejectIf (durableSeq > headSeq) recoveryCorruption
  if durableSeq + 1 ≥ 18446744073709551616 then return none
  else do
    let start ← txSequencePrefix (durableSeq + 1)
    return some ⟨some start,none⟩

-- `EncodedDescriptorGroup`.
abbrev DescriptorGroup := Option (Bytes × Bytes) × List (Bytes × Bytes)

def DescriptorGroup.add (isMeta : Bool) (entry : Bytes × Bytes) (group : DescriptorGroup) : Result DescriptorGroup :=
  if isMeta then do
    rejectIf group.1.isSome recoveryCorruption
    return (some entry,group.2)
  else return (group.1,group.2 ++ [entry])

def groupEntry (durableSeq headSeq : Nat) (groups : List DescriptorGroup) (entry : Bytes × Bytes) :
    Result (List DescriptorGroup) := do
  let (commitSeq,isMeta) ← decodeDescriptorKey entry.1
  rejectIf (commitSeq > headSeq) recoveryCorruption
  if commitSeq ≤ durableSeq then return groups
  else do
    let group ← orError groups[commitSeq - durableSeq - 1]? recoveryCorruption
    let group ← group.add isMeta entry
    return groups.set (commitSeq - durableSeq - 1) group

section
variable [Crc32c]

def decodeGroup (expectedSeq : Nat) (group : DescriptorGroup) : Result TransactionDescriptor := do
  let metaEntry ← orError group.1 recoveryCorruption
  let descriptor ← (decodeDescriptor metaEntry.1 metaEntry.2 group.2).mapError recoveryContext
  rejectIf (descriptor.txMeta.commitSeq ≠ expectedSeq) recoveryCorruption
  return descriptor

def decodeGroups (expectedSeq : Nat) : List DescriptorGroup → Result (List TransactionDescriptor)
  | [] => .ok []
  | group :: rest => do
    let descriptor ← decodeGroup expectedSeq group
    let later ← decodeGroups (expectedSeq + 1) rest
    return descriptor :: later

def groupDescriptors (durableSeq headSeq : Nat) (entries : List (Bytes × Bytes)) :
    Result (List TransactionDescriptor) := do
  let groups ← entries.foldlM (groupEntry durableSeq headSeq) (List.replicate (headSeq - durableSeq) (none,[]))
  decodeGroups (durableSeq + 1) groups

def loadUnstableDescriptors (durableSeq headSeq : Nat) : Eff Storage StorageError (List TransactionDescriptor) := do
  match ← Eff.lift (unstableDescriptorRange durableSeq headSeq) with
  | none => return []
  | some range => do
    let entries ← (scanInternal .transaction range).mapError recoveryContext
    Eff.lift (groupDescriptors durableSeq headSeq entries)

end

section
variable [Crc32c]

-- A stored descriptor: its keys, and what its values decode to.
structure Stores (encoded : EncodedDescriptor) (descriptor : TransactionDescriptor) : Prop where
  seq : descriptor.txMeta.commitSeq < 18446744073709551616
  positive : descriptor.txMeta.commitSeq ≠ 0
  metaKey : encoded.metaKey = txKeyHead descriptor.txMeta.commitSeq ++ [txMetaKind]
  mutationKey : ∀ index (bound : index < encoded.mutations.length),
    (encoded.mutations[index]).key = txKeyHead descriptor.txMeta.commitSeq ++ txMutationKind :: beBytes 8 index
  count : encoded.mutations.length < 18446744073709551616
  decodes : decodeDescriptor encoded.metaKey encoded.metaValue (encoded.mutations.map EncodedMutation.entry) =
    .ok descriptor

end

section ranges

theorem txSequencePrefix_ok {commitSeq : Nat} {start : Bytes} :
    txSequencePrefix commitSeq = .ok start ↔ commitSeq ≠ 0 ∧ start = txKeyHead commitSeq := by
  have taken : slice? (txKeyHead commitSeq ++ [txMetaKind]) 0 10 = some (txKeyHead commitSeq) :=
    slice?_here _ (txKeyHead_length commitSeq)
  simp only [txSequencePrefix,encodeTxMetaKey,bind_ok,mapError_ok,exists_unit,rejectIf_ok,pure_ok,Except.ok.injEq,
    orError_ok]
  constructor
  · rintro ⟨_,⟨present,rfl⟩,found⟩
    rw [taken] at found
    exact ⟨present,(Option.some.inj found).symm⟩
  · rintro ⟨present,rfl⟩
    exact ⟨_,⟨present,rfl⟩,taken⟩

-- The keys of one sequence.
def seqRange (commitSeq : Nat) : KeyRange :=
  ⟨some (txKeyHead commitSeq),
    if commitSeq + 1 < 18446744073709551616 then some (txKeyHead (commitSeq + 1)) else none⟩

theorem descriptorRange_eq {commitSeq : Nat} (positive : commitSeq ≠ 0) :
    descriptorRange commitSeq = .ok (seqRange commitSeq) := by
  have start := txSequencePrefix_ok.mpr ⟨positive,rfl⟩
  have stop : txSequencePrefix (commitSeq + 1) = .ok (txKeyHead (commitSeq + 1)) :=
    txSequencePrefix_ok.mpr ⟨by omega,rfl⟩
  rw [descriptorRange,start,ok_bind,seqRange]
  split
  · rw [stop,ok_bind,pure_ok]
  · rw [pure_ok]

theorem unstableDescriptorRange_eq {durableSeq headSeq : Nat} (ordered : durableSeq ≤ headSeq)
    (room : durableSeq + 1 < 18446744073709551616) :
    unstableDescriptorRange durableSeq headSeq = .ok (some ⟨some (txKeyHead (durableSeq + 1)),none⟩) := by
  have start : txSequencePrefix (durableSeq + 1) = .ok (txKeyHead (durableSeq + 1)) :=
    txSequencePrefix_ok.mpr ⟨by omega,rfl⟩
  rw [unstableDescriptorRange,rejectIf_false (by omega),ok_bind,if_neg (by omega),start,ok_bind,pure_ok]

end ranges

section stored
variable [Crc32c] {encoded : EncodedDescriptor} {descriptor : TransactionDescriptor}

theorem Stores.key (stores : Stores encoded descriptor) {entry : Bytes × Bytes} (member : entry ∈ encoded.entries) :
    ∃ rest, entry.1 = txKeyHead descriptor.txMeta.commitSeq ++ rest := by
  rcases List.mem_cons.mp member with rfl | member
  · exact ⟨_,stores.metaKey⟩
  · obtain ⟨mutation,present,rfl⟩ := List.mem_map.mp member
    obtain ⟨index,bound,rfl⟩ := List.mem_iff_getElem.mp present
    exact ⟨_,stores.mutationKey index bound⟩

theorem Stores.ordered (stores : Stores encoded descriptor) : encoded.entries.Pairwise Keyspace.Before := by
  rw [EncodedDescriptor.entries,List.pairwise_cons]
  refine ⟨?_,?_⟩
  · intro entry member
    obtain ⟨mutation,present,rfl⟩ := List.mem_map.mp member
    obtain ⟨index,bound,rfl⟩ := List.mem_iff_getElem.mp present
    rw [Keyspace.Before,EncodedMutation.entry,stores.metaKey,stores.mutationKey index bound,compare_append_left]
    rfl
  · rw [List.pairwise_map,List.pairwise_iff_getElem]
    intro left right first second earlier
    rw [Keyspace.Before,EncodedMutation.entry,EncodedMutation.entry,stores.mutationKey left first,
      stores.mutationKey right second,compare_append_left,compare_cons]
    have room := stores.count
    have lower : compare (beBytes 8 left) (beBytes 8 right) = .lt := compare_beBytes_lt (by omega) earlier
    simp [lower]

theorem Stores.metaRead (stores : Stores encoded descriptor) :
    decodeTxMetaKey encoded.metaKey = .ok descriptor.txMeta.commitSeq ∧ encoded.metaKey.length = 11 :=
  decodeTxMetaKey_encode (encodeTxMetaKey_ok.mpr ⟨stores.positive,stores.metaKey.symm⟩) stores.seq

theorem Stores.mutationRead (stores : Stores encoded descriptor) {mutation : EncodedMutation}
    (member : mutation ∈ encoded.mutations) :
    ∃ ordinal, decodeTxMutationKey mutation.key = .ok (descriptor.txMeta.commitSeq,ordinal) ∧
      mutation.key.length = 19 := by
  obtain ⟨index,bound,rfl⟩ := List.mem_iff_getElem.mp member
  have room := stores.count
  exact ⟨index,decodeTxMutationKey_encode (encodeTxMutationKey_ok.mpr
    ⟨stores.positive,(stores.mutationKey index bound).symm⟩) stores.seq (by omega)⟩

theorem encodeDescriptor_stores {descriptor : TransactionDescriptor} {encoded : EncodedDescriptor}
    (written : encodeDescriptor descriptor = .ok encoded) (fits : descriptor.Fits) :
    ∃ crc, Stores encoded (descriptor.sealed crc) := by
  obtain ⟨crc,-,decodes⟩ := decodeDescriptor_encode written fits
  simp only [encodeDescriptor,bind_ok,exists_unit,rejectIf_ok,pure_ok,Except.ok.injEq,not_not,ne_eq] at written
  obtain ⟨count,valid,-,mutations,encodes,-,-,-,-,metaKey,keyed,metaValue,-,rfl⟩ := written
  obtain ⟨⟨positive,-,-,-,bounded⟩,-⟩ := validateTxMeta_ok.mp valid
  obtain ⟨sized,entries⟩ := encodeMutations_entry encodes
  refine ⟨crc,fits.seq,positive,(encodeTxMetaKey_ok.mp keyed).2.symm,?_,?_,decodes⟩
  · intro index bound
    have key := (entries index bound).1
    rw [Nat.zero_add] at key
    exact key
  · have counted := fits.count
    simp only
    omega

-- The scan of one sequence, read in its order.
theorem Stores.load (stores : Stores encoded descriptor) :
    loadEntries descriptor encoded.entries =
      .ok ⟨descriptor,(encoded.metaKey,encoded.metaValue),encoded.mutations.map EncodedMutation.entry⟩ := by
  have turns : ∀ (entry : Bytes × Bytes) (mutations : List EncodedMutation) (seen : List (Bytes × Bytes)),
      (∀ mutation ∈ mutations, mutation ∈ encoded.mutations) →
      (mutations.map EncodedMutation.entry).foldlM (collectEntry descriptor.txMeta.commitSeq) (some entry,seen) =
        .ok (some entry,seen ++ mutations.map EncodedMutation.entry) := by
    intro entry mutations
    induction mutations with
    | nil => intro seen _; simp
    | cons mutation rest ih =>
      intro seen members
      obtain ⟨ordinal,read,width⟩ := stores.mutationRead (members mutation List.mem_cons_self)
      have turn : collectEntry descriptor.txMeta.commitSeq (some entry,seen) mutation.entry =
          .ok (some entry,seen ++ [mutation.entry]) := by
        simp [collectEntry,EncodedMutation.entry,width,read,Except.mapError]
      rw [List.map_cons,List.foldlM_cons,turn,ok_bind,
        ih _ (fun other member => members other (List.mem_cons_of_mem _ member))]
      simp
  obtain ⟨read,width⟩ := stores.metaRead
  have first : collectEntry descriptor.txMeta.commitSeq (none,[]) (encoded.metaKey,encoded.metaValue) =
      .ok (some (encoded.metaKey,encoded.metaValue),[]) := by
    simp [collectEntry,width,read,Except.mapError]
  rw [loadEntries,EncodedDescriptor.entries,List.foldlM_cons,first,ok_bind,
    turns _ encoded.mutations [] (fun _ member => member),ok_bind]
  simp only [orError,ok_bind,List.nil_append,stores.decodes,Except.mapError]
  rw [rejectIf_false (fun differs => differs rfl),ok_bind,pure_ok]

end stored

section keyspace
variable [Crc32c]

-- A keyspace with the entries of a transaction put over it.
def Keyspace.Receives (older newer : Keyspace) (entries : List (Bytes × Bytes)) : Prop :=
  ∀ key, newer[key]? = (lastValue (entries.map (fun entry => (entry.1,some entry.2))) key).getD older[key]?

omit [Crc32c] in
theorem Keyspace.nodup_of_ordered {entries : List (Bytes × Bytes)} (ordered : entries.Pairwise Keyspace.Before) :
    (entries.map Prod.fst).Nodup := by
  rw [List.nodup_iff_pairwise_ne,List.pairwise_map]
  refine ordered.imp ?_
  intro left right before same
  simp [Keyspace.Before,same] at before

omit [Crc32c] in
theorem Keyspace.Receives.found {older newer : Keyspace} {entries : List (Bytes × Bytes)}
    (receives : older.Receives newer entries) (ordered : entries.Pairwise Keyspace.Before) {key value : Bytes} :
    newer[key]? = some value ↔ (key,value) ∈ entries ∨ (key ∉ entries.map Prod.fst ∧ older[key]? = some value) := by
  have keys : (entries.map (fun entry => (entry.1,some entry.2))).map Prod.fst = entries.map Prod.fst := by
    rw [List.map_map]
    rfl
  have distinct : ((entries.map (fun entry => (entry.1,some entry.2))).map Prod.fst).Nodup := by
    rw [keys]
    exact Keyspace.nodup_of_ordered ordered
  rw [receives key]
  cases known : lastValue (entries.map (fun entry => (entry.1,some entry.2))) key with
  | none =>
    have absent : key ∉ entries.map Prod.fst := by
      rw [←keys,←lastValue_isSome,known]
      simp
    simp only [Option.getD_none]
    constructor
    · intro found
      exact .inr ⟨absent,found⟩
    · rintro (member | ⟨-,found⟩)
      · exact absurd (List.mem_map_of_mem member) absent
      · exact found
  | some written =>
    have member := (lastValue_of_nodup distinct).mp known
    obtain ⟨entry,present,same⟩ := List.mem_map.mp member
    simp only [Prod.mk.injEq] at same
    obtain ⟨rfl,rfl⟩ := same
    simp only [Option.getD_some,Option.some.injEq]
    constructor
    · rintro rfl
      exact .inl present
    · rintro (other | ⟨absent,-⟩)
      · have both := (lastValue_of_nodup distinct).mpr
          (List.mem_map.mpr ⟨_,other,rfl⟩ : (entry.1,some value) ∈ entries.map (fun entry => (entry.1,some entry.2)))
        rw [known] at both
        exact Option.some.inj (Option.some.inj both)
      · exact absurd (List.mem_map_of_mem present) absent

-- No entry at or above a sequence.
def Keyspace.Below (space : Keyspace) (commitSeq : Nat) : Prop :=
  ∀ key value, space[key]? = some value → compare key (txKeyHead commitSeq) = .lt

-- Transactions of consecutive sequences.
def StoredFrom (commitSeq : Nat) : List (EncodedDescriptor × TransactionDescriptor) → Prop
  | [] => True
  | stored :: rest => Stores stored.1 stored.2 ∧ stored.2.txMeta.commitSeq = commitSeq ∧ StoredFrom (commitSeq + 1) rest

def storedEntries (chain : List (EncodedDescriptor × TransactionDescriptor)) : List (Bytes × Bytes) :=
  chain.flatMap (fun stored => stored.1.entries)

theorem StoredFrom.key {commitSeq : Nat} {chain : List (EncodedDescriptor × TransactionDescriptor)}
    (stored : StoredFrom commitSeq chain) {entry : Bytes × Bytes} (member : entry ∈ storedEntries chain) :
    ∃ seq rest, entry.1 = txKeyHead seq ++ rest ∧ commitSeq ≤ seq ∧ seq < commitSeq + chain.length ∧
      seq < 18446744073709551616 := by
  induction chain generalizing commitSeq with
  | nil => cases member
  | cons first chain ih =>
    obtain ⟨stores,rfl,later⟩ := stored
    rcases List.mem_append.mp member with here | there
    · obtain ⟨rest,named⟩ := stores.key here
      exact ⟨_,rest,named,Nat.le_refl _,by simp,stores.seq⟩
    · obtain ⟨seq,rest,named,lower,upper,fits⟩ := ih later there
      exact ⟨seq,rest,named,by omega,by simp only [List.length_cons]; omega,fits⟩

theorem StoredFrom.ordered {commitSeq : Nat} {chain : List (EncodedDescriptor × TransactionDescriptor)}
    (stored : StoredFrom commitSeq chain) : (storedEntries chain).Pairwise Keyspace.Before := by
  induction chain generalizing commitSeq with
  | nil => exact .nil
  | cons first chain ih =>
    obtain ⟨stores,rfl,later⟩ := stored
    rw [storedEntries,List.flatMap_cons,List.pairwise_append]
    refine ⟨stores.ordered,ih later,?_⟩
    intro left here right there
    obtain ⟨rest,named⟩ := stores.key here
    obtain ⟨seq,more,other,lower,-,fits⟩ := later.key there
    rw [Keyspace.Before,named,other]
    exact compare_append_of_lt _ _ (by simp) (txKeyHead_lt fits (by omega))

theorem StoredFrom.append {commitSeq : Nat} {chain more : List (EncodedDescriptor × TransactionDescriptor)} :
    StoredFrom commitSeq (chain ++ more) ↔ StoredFrom commitSeq chain ∧ StoredFrom (commitSeq + chain.length) more := by
  induction chain generalizing commitSeq with
  | nil => simp [StoredFrom]
  | cons first chain ih =>
    simp only [List.cons_append,StoredFrom,ih,List.length_cons,and_assoc]
    rw [show commitSeq + (chain.length + 1) = commitSeq + 1 + chain.length by omega]

-- A scan from a sequence on meets the transactions from there and nothing else.
theorem StoredFrom.scan {commitSeq : Nat} {chain : List (EncodedDescriptor × TransactionDescriptor)}
    {older newer : Keyspace} (stored : StoredFrom commitSeq chain) (receives : older.Receives newer (storedEntries chain))
    (below : older.Below commitSeq) (fits : commitSeq < 18446744073709551616) :
    newer.scan ⟨some (txKeyHead commitSeq),none⟩ = storedEntries chain := by
  apply Keyspace.scan_eq stored.ordered
  intro entry
  rw [receives.found stored.ordered]
  constructor
  · intro member
    obtain ⟨seq,rest,named,lower,-,room⟩ := stored.key member
    refine ⟨.inl member,?_⟩
    have above : compare entry.1 (txKeyHead commitSeq) ≠ .lt := by
      rw [named,ne_eq,txKey_compare rest room fits]
      omega
    simp [KeyRange.contains,above]
  · rintro ⟨member | ⟨-,old⟩,inside⟩
    · exact member
    · have lower := below _ _ old
      simp [KeyRange.contains,lower] at inside

-- The scan of the last sequence.
theorem Stores.scan {encoded : EncodedDescriptor} {descriptor : TransactionDescriptor} {older newer : Keyspace}
    (stores : Stores encoded descriptor) (receives : older.Receives newer encoded.entries)
    (below : older.Below descriptor.txMeta.commitSeq) :
    newer.scan (seqRange descriptor.txMeta.commitSeq) = encoded.entries := by
  apply Keyspace.scan_eq stores.ordered
  intro entry
  rw [receives.found stores.ordered]
  constructor
  · intro member
    obtain ⟨rest,named⟩ := stores.key member
    refine ⟨.inl member,?_⟩
    have above : compare entry.1 (txKeyHead descriptor.txMeta.commitSeq) ≠ .lt := by
      rw [named,ne_eq,txKey_compare rest stores.seq stores.seq]
      omega
    have lower : ∀ fits : descriptor.txMeta.commitSeq + 1 < 18446744073709551616,
        compare entry.1 (txKeyHead (descriptor.txMeta.commitSeq + 1)) = .lt := by
      intro fits
      rw [named,txKey_compare rest stores.seq fits]
      omega
    rw [seqRange]
    split
    · rename_i fits
      simp [KeyRange.contains,above,lower fits]
    · simp [KeyRange.contains,above]
  · rintro ⟨member | ⟨-,old⟩,inside⟩
    · exact member
    · have lower := below _ _ old
      simp [seqRange,KeyRange.contains,lower] at inside

end keyspace

section grouping
variable [Crc32c]

theorem Stores.metaSeq {encoded : EncodedDescriptor} {descriptor : TransactionDescriptor}
    (stores : Stores encoded descriptor) :
    decodeDescriptorKey encoded.metaKey = .ok (descriptor.txMeta.commitSeq,true) := by
  obtain ⟨read,width⟩ := stores.metaRead
  simp [decodeDescriptorKey,width,read,Except.map,Except.mapError]

theorem Stores.mutationSeq {encoded : EncodedDescriptor} {descriptor : TransactionDescriptor}
    (stores : Stores encoded descriptor) {mutation : EncodedMutation} (member : mutation ∈ encoded.mutations) :
    decodeDescriptorKey mutation.key = .ok (descriptor.txMeta.commitSeq,false) := by
  obtain ⟨ordinal,read,width⟩ := stores.mutationRead member
  simp [decodeDescriptorKey,width,read,Except.map,Except.mapError]

def EncodedDescriptor.group (encoded : EncodedDescriptor) : DescriptorGroup :=
  (some (encoded.metaKey,encoded.metaValue),encoded.mutations.map EncodedMutation.entry)

omit [Crc32c] in
-- An entry goes to the group at the distance of its sequence from the durable one.
theorem groupEntry_add {durableSeq headSeq seq : Nat} {isMeta : Bool} {entry : Bytes × Bytes}
    {front back : List DescriptorGroup} {group next : DescriptorGroup}
    (read : decodeDescriptorKey entry.1 = .ok (seq,isMeta)) (place : seq = durableSeq + front.length + 1)
    (inside : seq ≤ headSeq) (added : group.add isMeta entry = .ok next) :
    groupEntry durableSeq headSeq (front ++ group :: back) entry = .ok (front ++ next :: back) := by
  subst place
  have offset : durableSeq + front.length + 1 - durableSeq - 1 = front.length := by omega
  simp only [groupEntry,read,ok_bind]
  rw [rejectIf_false (by omega),ok_bind,if_neg (by omega),offset]
  simp [orError,added]

theorem Stores.group {encoded : EncodedDescriptor} {descriptor : TransactionDescriptor} {durableSeq headSeq : Nat}
    {front back : List DescriptorGroup} (stores : Stores encoded descriptor)
    (place : descriptor.txMeta.commitSeq = durableSeq + front.length + 1)
    (inside : descriptor.txMeta.commitSeq ≤ headSeq) :
    encoded.entries.foldlM (groupEntry durableSeq headSeq) (front ++ (none,[]) :: back) =
      .ok (front ++ encoded.group :: back) := by
  have turns : ∀ (metaEntry : Option (Bytes × Bytes)) (mutations : List EncodedMutation) (seen : List (Bytes × Bytes)),
      (∀ mutation ∈ mutations, mutation ∈ encoded.mutations) →
      (mutations.map EncodedMutation.entry).foldlM (groupEntry durableSeq headSeq) (front ++ (metaEntry,seen) :: back) =
        .ok (front ++ (metaEntry,seen ++ mutations.map EncodedMutation.entry) :: back) := by
    intro metaEntry mutations
    induction mutations with
    | nil => intro seen _; simp
    | cons mutation rest ih =>
      intro seen members
      have turn := @groupEntry_add durableSeq headSeq _ _ mutation.entry front back (metaEntry,seen)
        (metaEntry,seen ++ [mutation.entry]) (stores.mutationSeq (members mutation List.mem_cons_self)) place inside rfl
      rw [List.map_cons,List.foldlM_cons,turn,ok_bind,
        ih _ (fun other member => members other (List.mem_cons_of_mem _ member))]
      simp
  have first := @groupEntry_add durableSeq headSeq _ _ (encoded.metaKey,encoded.metaValue) front back (none,[])
    (some (encoded.metaKey,encoded.metaValue),[]) stores.metaSeq place inside rfl
  rw [EncodedDescriptor.entries,List.foldlM_cons,first,ok_bind,turns _ encoded.mutations [] (fun _ member => member)]
  rfl

theorem StoredFrom.groups {durableSeq headSeq : Nat} {chain : List (EncodedDescriptor × TransactionDescriptor)}
    {front : List DescriptorGroup} (stored : StoredFrom (durableSeq + front.length + 1) chain)
    (inside : durableSeq + front.length + chain.length ≤ headSeq) :
    (storedEntries chain).foldlM (groupEntry durableSeq headSeq) (front ++ List.replicate chain.length (none,[])) =
      .ok (front ++ chain.map (fun stored => stored.1.group)) := by
  induction chain generalizing front with
  | nil => simp [storedEntries]
  | cons first chain ih =>
    obtain ⟨stores,place,later⟩ := stored
    simp only [List.length_cons] at inside
    rw [storedEntries,List.flatMap_cons,List.foldlM_append,List.length_cons,List.replicate_succ,
      stores.group place (by omega),ok_bind]
    have rest := @ih (front ++ [first.1.group])
      (by simpa only [List.length_append,List.length_singleton,Nat.add_assoc] using later)
      (by simp only [List.length_append,List.length_singleton]; omega)
    simpa [storedEntries] using rest

theorem StoredFrom.decodeGroups {commitSeq : Nat} {chain : List (EncodedDescriptor × TransactionDescriptor)}
    (stored : StoredFrom commitSeq chain) :
    ExpirKv.decodeGroups commitSeq (chain.map (fun stored => stored.1.group)) = .ok (chain.map Prod.snd) := by
  induction chain generalizing commitSeq with
  | nil => rfl
  | cons first chain ih =>
    obtain ⟨stores,rfl,later⟩ := stored
    have here : decodeGroup first.2.txMeta.commitSeq first.1.group = .ok first.2 := by
      simp only [decodeGroup,EncodedDescriptor.group,orError,ok_bind,stores.decodes,Except.mapError]
      rw [rejectIf_false (fun differs => differs rfl),ok_bind,pure_ok]
    rw [List.map_cons,ExpirKv.decodeGroups,here,ok_bind,ih later,ok_bind,List.map_cons,pure_ok]

theorem loadUnstableDescriptors_eq {durableSeq headSeq : Nat} {storage : Storage} (ordered : durableSeq ≤ headSeq)
    (room : durableSeq + 1 < 18446744073709551616) (honest : storage.Honest) :
    loadUnstableDescriptors durableSeq headSeq storage =
      Eff.lift (groupDescriptors durableSeq headSeq
        (storage.index.transaction.scan ⟨some (txKeyHead (durableSeq + 1)),none⟩)) storage := by
  have run : Delivers (loadUnstableDescriptors durableSeq headSeq) storage
      (fun value reached => Eff.lift (groupDescriptors durableSeq headSeq
        (storage.index.transaction.scan ⟨some (txKeyHead (durableSeq + 1)),none⟩)) storage = .ok value reached)
      (fun error reached => Eff.lift (groupDescriptors durableSeq headSeq
        (storage.index.transaction.scan ⟨some (txKeyHead (durableSeq + 1)),none⟩)) storage = .error error reached) := by
    rw [loadUnstableDescriptors,delivers_bind,delivers_lift,unstableDescriptorRange_eq ordered room]
    refine ⟨?_,fun error failed => by cases failed⟩
    intro range found
    obtain rfl := Except.ok.inj found
    simp only [delivers_bind,delivers_mapError,scanInternal]
    rw [delivers_reading_honest honest]
    refine delivers_lift.mpr ⟨?_,?_⟩
    · intro value same
      exact congrFun (congrArg Eff.lift same) storage
    · intro error same
      exact congrFun (congrArg Eff.lift same) storage
  cases ran : loadUnstableDescriptors durableSeq headSeq storage with
  | ok value reached => exact (run.of_ok ran).symm
  | error error reached => exact (run.of_error ran).symm

theorem StoredFrom.grouped {durableSeq : Nat} {chain : List (EncodedDescriptor × TransactionDescriptor)}
    (stored : StoredFrom (durableSeq + 1) chain) :
    groupDescriptors durableSeq (durableSeq + chain.length) (storedEntries chain) = .ok (chain.map Prod.snd) := by
  have grouped := @StoredFrom.groups _ durableSeq (durableSeq + chain.length) chain [] stored (by simp)
  simp only [List.nil_append] at grouped
  rw [groupDescriptors,Nat.add_sub_cancel_left,grouped,ok_bind,stored.decodeGroups]

-- An intact suffix is read back whole.
theorem StoredFrom.load {durableSeq : Nat} {chain : List (EncodedDescriptor × TransactionDescriptor)}
    {older : Keyspace} {storage : Storage} {post : List TransactionDescriptor → Storage → Prop}
    {fail : StorageError → Storage → Prop} (stored : StoredFrom (durableSeq + 1) chain)
    (receives : older.Receives storage.index.transaction (storedEntries chain)) (below : older.Below (durableSeq + 1))
    (room : durableSeq + 1 < 18446744073709551616) (honest : storage.Honest)
    (good : post (chain.map Prod.snd) storage) :
    Delivers (loadUnstableDescriptors durableSeq (durableSeq + chain.length)) storage post fail := by
  have loads := loadUnstableDescriptors_eq (Nat.le_add_right durableSeq chain.length) room honest
  rw [stored.scan receives below room,stored.grouped] at loads
  rw [Delivers,loads]
  exact good

end grouping

end ExpirKv
