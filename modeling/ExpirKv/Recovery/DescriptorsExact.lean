import ExpirKv.Commit.DescriptorExact
import ExpirKv.Recovery.Descriptors

namespace ExpirKv
open Storage

section keys

-- Every key that decodes starts with the prefix of its sequence.
theorem decodeDescriptorKey_canonical {key : Bytes} {commitSeq : Nat} {isMeta : Bool}
    (read : decodeDescriptorKey key = .ok (commitSeq,isMeta)) :
    ∃ rest, key = txKeyHead commitSeq ++ rest ∧ commitSeq < 18446744073709551616 := by
  unfold decodeDescriptorKey at read
  split at read
  · simp only [mapError_ok,map_ok,Prod.mk.injEq] at read
    obtain ⟨seq,decoded,rfl,-⟩ := read
    obtain ⟨written,fits⟩ := decodeTxMetaKey_canonical decoded
    exact ⟨_,(encodeTxMetaKey_ok.mp written).2.symm,fits⟩
  · split at read
    · simp only [mapError_ok,map_ok,Prod.mk.injEq] at read
      obtain ⟨⟨seq,ordinal⟩,decoded,rfl,-⟩ := read
      obtain ⟨written,fits,-⟩ := decodeTxMutationKey_canonical decoded
      exact ⟨_,(encodeTxMutationKey_ok.mp written).2.symm,fits⟩
    · cases read

theorem decodeDescriptorKey_above {key : Bytes} {commitSeq durableSeq : Nat} {isMeta : Bool}
    (read : decodeDescriptorKey key = .ok (commitSeq,isMeta)) (room : durableSeq + 1 < 18446744073709551616)
    (above : compare key (txKeyHead (durableSeq + 1)) ≠ .lt) : durableSeq < commitSeq := by
  obtain ⟨rest,rfl,fits⟩ := decodeDescriptorKey_canonical read
  rw [ne_eq,txKey_compare rest fits room] at above
  omega

end keys

section groups

def DescriptorGroup.members (group : DescriptorGroup) : List (Bytes × Bytes) := group.1.toList ++ group.2

theorem DescriptorGroup.add_members {isMeta : Bool} {entry : Bytes × Bytes} {group next : DescriptorGroup}
    (added : group.add isMeta entry = .ok next) :
    ∀ other, other ∈ next.members ↔ other = entry ∨ other ∈ group.members := by
  obtain ⟨metaEntry,mutations⟩ := group
  intro other
  cases isMeta with
  | true =>
    simp only [add,if_true,bind_ok,exists_unit,rejectIf_ok,pure_ok,Except.ok.injEq,Bool.not_eq_true,
      Option.isSome_eq_false_iff,Option.isNone_iff_eq_none] at added
    obtain ⟨rfl,rfl⟩ := added
    simp [members]
  | false =>
    simp only [add,Bool.false_eq_true,if_false,pure_ok,Except.ok.injEq] at added
    subst added
    simp only [members,List.mem_append,List.mem_singleton]
    tauto

-- The groups hold the entries read so far and no others.
structure Grouped (entries : List (Bytes × Bytes)) (groups : List DescriptorGroup) : Prop where
  placed : ∀ entry ∈ entries, ∃ group ∈ groups, entry ∈ group.members
  drawn : ∀ group ∈ groups, ∀ entry ∈ group.members, entry ∈ entries

theorem groupEntry_grouped {durableSeq headSeq : Nat} {seen : List (Bytes × Bytes)} {entry : Bytes × Bytes}
    {groups next : List DescriptorGroup} (room : durableSeq + 1 < 18446744073709551616)
    (above : compare entry.1 (txKeyHead (durableSeq + 1)) ≠ .lt)
    (added : groupEntry durableSeq headSeq groups entry = .ok next) (grouped : Grouped seen groups) :
    Grouped (seen ++ [entry]) next ∧ next.length = groups.length := by
  simp only [groupEntry,bind_ok,exists_unit,rejectIf_ok] at added
  obtain ⟨⟨commitSeq,isMeta⟩,read,inside,added⟩ := added
  have beyond := decodeDescriptorKey_above read room above
  simp only at inside added
  rw [if_neg (by omega)] at added
  simp only [bind_ok,orError_ok,pure_ok,Except.ok.injEq] at added
  obtain ⟨group,found,changed,put,rfl⟩ := added
  have members := DescriptorGroup.add_members put
  obtain ⟨bound,rfl⟩ := List.getElem?_eq_some_iff.mp found
  refine ⟨⟨?_,?_⟩,List.length_set⟩
  · intro other member
    rcases List.mem_append.mp member with earlier | last
    · obtain ⟨holder,there,holds⟩ := grouped.placed other earlier
      obtain ⟨place,inside,rfl⟩ := List.mem_iff_getElem.mp there
      by_cases same : commitSeq - durableSeq - 1 = place
      · subst same
        exact ⟨changed,List.mem_set bound _,(members other).mpr (.inr holds)⟩
      · refine ⟨groups[place],?_,holds⟩
        rw [List.mem_iff_getElem]
        exact ⟨place,by simpa using inside,List.getElem_set_ne same _⟩
    · obtain rfl := List.mem_singleton.mp last
      exact ⟨changed,List.mem_set bound _,(members other).mpr (.inl rfl)⟩
  · intro holder there other holds
    rcases List.mem_or_eq_of_mem_set there with old | rfl
    · exact List.mem_append_left _ (grouped.drawn holder old other holds)
    · rcases (members other).mp holds with rfl | before
      · simp
      · exact List.mem_append_left _ (grouped.drawn _ (List.getElem_mem bound) other before)

theorem foldlM_grouped {durableSeq headSeq : Nat} {entries seen : List (Bytes × Bytes)}
    {groups result : List DescriptorGroup} (room : durableSeq + 1 < 18446744073709551616)
    (above : ∀ entry ∈ entries, compare entry.1 (txKeyHead (durableSeq + 1)) ≠ .lt)
    (folded : entries.foldlM (groupEntry durableSeq headSeq) groups = .ok result) (grouped : Grouped seen groups) :
    Grouped (seen ++ entries) result ∧ result.length = groups.length := by
  induction entries generalizing seen groups with
  | nil =>
    obtain rfl := Except.ok.inj folded
    rw [List.append_nil]
    exact ⟨grouped,rfl⟩
  | cons entry rest ih =>
    obtain ⟨next,added,folded⟩ := foldlM_ok_cons.mp folded
    obtain ⟨step,same⟩ := groupEntry_grouped room (above entry List.mem_cons_self) added grouped
    obtain ⟨done,length⟩ := ih (fun other member => above other (List.mem_cons_of_mem _ member)) folded step
    rw [List.append_assoc,List.singleton_append] at done
    exact ⟨done,length.trans same⟩

variable [Crc32c]

-- A descriptor that carries the checksum of its stored form.
def TransactionDescriptor.Sealed (descriptor : TransactionDescriptor) : Prop :=
  ∀ encoded, encodeDescriptor descriptor = .ok encoded →
    descriptor.txMeta.descriptorCrc32c = descriptorChecksum encoded.metaValue encoded.mutations

-- Each decoded group is the stored form of its descriptor.
theorem decodeGroups_stored {expectedSeq : Nat} {groups : List DescriptorGroup} {descriptors : List TransactionDescriptor}
    (decoded : decodeGroups expectedSeq groups = .ok descriptors) :
    descriptors.length = groups.length ∧ (∀ descriptor ∈ descriptors, descriptor.Fits ∧ descriptor.Sealed) ∧
      (∀ index (bound : index < descriptors.length), (descriptors[index]).txMeta.commitSeq = expectedSeq + index) ∧
      ∃ encoded, descriptors.mapM encodeDescriptor = .ok encoded ∧
        encoded.map EncodedDescriptor.entries = groups.map DescriptorGroup.members := by
  induction groups generalizing expectedSeq descriptors with
  | nil =>
    obtain rfl := Except.ok.inj decoded
    exact ⟨rfl,by simp,by simp,[],rfl,rfl⟩
  | cons group rest ih =>
    simp only [decodeGroups,decodeGroup,bind_ok,exists_unit,orError_ok,mapError_ok,rejectIf_ok,pure_ok,Except.ok.injEq,
      not_not,ne_eq] at decoded
    obtain ⟨_,⟨metaEntry,present,descriptor,read,seq,rfl⟩,later,decoded,rfl⟩ := decoded
    obtain ⟨length,fits,numbered,encoded,written,same⟩ := ih decoded
    obtain ⟨stored,fit,checksum,-⟩ := decodeDescriptor_canonical read
    have carries : descriptor.Sealed := by
      intro other again
      obtain rfl := Except.ok.inj (stored.symm.trans again)
      exact checksum
    refine ⟨by simp [length],?_,?_,⟨metaEntry.1,metaEntry.2,group.2.map entryMutation⟩ :: encoded,?_,?_⟩
    · rw [List.forall_mem_cons]
      exact ⟨⟨fit,carries⟩,fits⟩
    · intro index bound
      cases index with
      | zero => exact seq
      | succ index =>
        have next := numbered index (by simpa using bound)
        rw [List.getElem_cons_succ,next]
        omega
    · rw [List.mapM_cons,stored,ok_bind,written,ok_bind,pure_ok]
    · rw [List.map_cons,List.map_cons,same,EncodedDescriptor.entries,entryMutation_entry,DescriptorGroup.members,present]
      rfl

end groups

section checked
variable [Crc32c]

-- The entries above a sequence are the stored forms of the descriptors, and no others.
structure IntactSuffix (space : Keyspace) (durableSeq headSeq : Nat) (descriptors : List TransactionDescriptor) :
    Prop where
  length : descriptors.length = headSeq - durableSeq
  numbered : ∀ index (bound : index < descriptors.length),
    (descriptors[index]).txMeta.commitSeq = durableSeq + 1 + index
  stored : ∃ encoded, descriptors.mapM encodeDescriptor = .ok encoded ∧
    ∀ key value : Bytes, compare key (txKeyHead (durableSeq + 1)) ≠ .lt →
      (space[key]? = some value ↔ ∃ each ∈ encoded, (key,value) ∈ each.entries)

theorem TransactionDescriptor.Sealed.stores {descriptor : TransactionDescriptor} {encoded : EncodedDescriptor}
    (carries : descriptor.Sealed) (fits : descriptor.Fits) (written : encodeDescriptor descriptor = .ok encoded) :
    Stores encoded descriptor := by
  obtain ⟨crc,stores⟩ := encodeDescriptor_stores written fits
  obtain ⟨-,-,computed,-⟩ := decodeDescriptor_canonical stores.decodes
  have same : (encoded.mutations.map EncodedMutation.entry).map entryMutation = encoded.mutations := by
    rw [List.map_map]
    exact List.map_id _
  rw [same,←carries encoded written] at computed
  have whole : descriptor.sealed crc = descriptor := by
    simp only [TransactionDescriptor.sealed] at computed ⊢
    rw [computed]
  rw [whole] at stores
  exact stores

-- Encoded one by one, consecutive descriptors are a stored chain.
theorem mapM_storedFrom {commitSeq : Nat} {descriptors : List TransactionDescriptor} {encoded : List EncodedDescriptor}
    (written : descriptors.mapM encodeDescriptor = .ok encoded)
    (each : ∀ descriptor ∈ descriptors, descriptor.Fits ∧ descriptor.Sealed)
    (numbered : ∀ index (bound : index < descriptors.length),
      (descriptors[index]).txMeta.commitSeq = commitSeq + index) :
    ∃ chain, StoredFrom commitSeq chain ∧ chain.map Prod.snd = descriptors ∧ chain.map Prod.fst = encoded := by
  induction descriptors generalizing commitSeq encoded with
  | nil =>
    obtain rfl := mapM_ok_nil written
    exact ⟨[],trivial,rfl,rfl⟩
  | cons descriptor rest ih =>
    obtain ⟨first,later,done,others,rfl⟩ := mapM_ok_cons written
    rw [List.forall_mem_cons] at each
    obtain ⟨chain,stored,snds,fsts⟩ := @ih (commitSeq + 1) later others each.2 (by
      intro index bound
      have next := numbered (index + 1) (by simpa using bound)
      rw [List.getElem_cons_succ] at next
      rw [next]
      omega)
    refine ⟨(first,descriptor) :: chain,⟨each.1.2.stores each.1.1 done,?_,stored⟩,?_,?_⟩
    · exact numbered 0 (by simp)
    · rw [List.map_cons,snds]
    · rw [List.map_cons,fsts]

theorem IntactSuffix.scan {space : Keyspace} {durableSeq headSeq : Nat} {descriptors : List TransactionDescriptor}
    (intact : IntactSuffix space durableSeq headSeq descriptors)
    (each : ∀ descriptor ∈ descriptors, descriptor.Fits ∧ descriptor.Sealed)
    (room : durableSeq + 1 < 18446744073709551616) :
    ∃ chain, StoredFrom (durableSeq + 1) chain ∧ chain.map Prod.snd = descriptors ∧
      space.scan ⟨some (txKeyHead (durableSeq + 1)),none⟩ = storedEntries chain := by
  obtain ⟨encoded,written,found⟩ := intact.stored
  obtain ⟨chain,stored,snds,rfl⟩ := mapM_storedFrom written each intact.numbered
  have member : ∀ entry, entry ∈ storedEntries chain ↔ ∃ each ∈ chain.map Prod.fst, entry ∈ each.entries := by
    intro entry
    simp [storedEntries]
  refine ⟨chain,stored,snds,Keyspace.scan_eq stored.ordered ?_⟩
  intro entry
  constructor
  · intro present
    obtain ⟨seq,rest,named,lower,-,fits⟩ := stored.key present
    have above : compare entry.1 (txKeyHead (durableSeq + 1)) ≠ .lt := by
      rw [named,ne_eq,txKey_compare rest fits room]
      omega
    exact ⟨(found entry.1 entry.2 above).mpr ((member entry).mp present),by simp [KeyRange.contains,above]⟩
  · rintro ⟨present,inside⟩
    have above : compare entry.1 (txKeyHead (durableSeq + 1)) ≠ .lt := by
      simpa [KeyRange.contains] using inside
    exact (member entry).mpr ((found entry.1 entry.2 above).mp present)

theorem groupDescriptors_intact {space : Keyspace} {durableSeq headSeq : Nat} {descriptors : List TransactionDescriptor}
    (room : durableSeq + 1 < 18446744073709551616)
    (read : groupDescriptors durableSeq headSeq (space.scan ⟨some (txKeyHead (durableSeq + 1)),none⟩) =
      .ok descriptors) :
    IntactSuffix space durableSeq headSeq descriptors ∧
      ∀ descriptor ∈ descriptors, descriptor.Fits ∧ descriptor.Sealed := by
  simp only [groupDescriptors,bind_ok] at read
  obtain ⟨groups,folded,decoded⟩ := read
  have above : ∀ entry ∈ space.scan ⟨some (txKeyHead (durableSeq + 1)),none⟩,
      compare entry.1 (txKeyHead (durableSeq + 1)) ≠ .lt := by
    intro entry member
    simpa [KeyRange.contains] using (Keyspace.mem_scan.mp member).2
  have empty : Grouped [] (List.replicate (headSeq - durableSeq) ((none,[]) : DescriptorGroup)) := by
    refine ⟨by simp,?_⟩
    intro group member entry holds
    rw [List.eq_of_mem_replicate member] at holds
    cases holds
  obtain ⟨grouped,length⟩ := foldlM_grouped room above folded empty
  rw [List.nil_append] at grouped
  rw [List.length_replicate] at length
  obtain ⟨count,each,numbered,encoded,written,same⟩ := decodeGroups_stored decoded
  refine ⟨⟨count.trans length,numbered,encoded,written,?_⟩,each⟩
  intro key value reached
  have scanned : space[key]? = some value ↔ (key,value) ∈ space.scan ⟨some (txKeyHead (durableSeq + 1)),none⟩ := by
    rw [Keyspace.mem_scan]
    simp [KeyRange.contains,reached]
  have held : (∃ group ∈ groups, (key,value) ∈ group.members) ↔ ∃ each ∈ encoded, (key,value) ∈ each.entries := by
    have lists : (∃ list ∈ groups.map DescriptorGroup.members, (key,value) ∈ list) ↔
        ∃ list ∈ encoded.map EncodedDescriptor.entries, (key,value) ∈ list := by rw [same]
    simpa using lists
  rw [scanned,←held]
  constructor
  · exact grouped.placed _
  · rintro ⟨group,member,holds⟩
    exact grouped.drawn group member _ holds

-- The loader answers with a list exactly when the list is stored whole above the durable sequence, each
-- descriptor under its own checksum; what lies below never matters.
theorem load_unstable_descriptors_exact (storage : Storage) (durableSeq headSeq : Nat) (honest : storage.Honest)
    (ordered : durableSeq ≤ headSeq) :
    (durableSeq = 18446744073709551615 → loadUnstableDescriptors durableSeq headSeq storage = .ok [] storage) ∧
    (durableSeq < 18446744073709551615 →
      (∀ descriptors : List TransactionDescriptor, (∀ descriptor ∈ descriptors, descriptor.Fits) →
        (loadUnstableDescriptors durableSeq headSeq storage = .ok descriptors storage ↔
          IntactSuffix storage.index.transaction durableSeq headSeq descriptors ∧
          ∀ descriptor ∈ descriptors, descriptor.Sealed)) ∧
      (∀ descriptors reached, loadUnstableDescriptors durableSeq headSeq storage = .ok descriptors reached →
        reached = storage ∧ ∀ descriptor ∈ descriptors, descriptor.Fits) ∧
      ∀ other : Storage, other.Honest →
        (∀ key : Bytes, compare key (txKeyHead (durableSeq + 1)) ≠ .lt →
          other.index.transaction[key]? = storage.index.transaction[key]?) →
        ∃ answer, loadUnstableDescriptors durableSeq headSeq storage = Eff.lift answer storage ∧
          loadUnstableDescriptors durableSeq headSeq other = Eff.lift answer other) := by
  refine ⟨?_,?_⟩
  · intro last
    have range : unstableDescriptorRange durableSeq headSeq = .ok none := by
      rw [unstableDescriptorRange,rejectIf_false (by omega),ok_bind,if_pos (by omega),pure_ok]
    rw [loadUnstableDescriptors,range]
    rfl
  · intro inside
    have room : durableSeq + 1 < 18446744073709551616 := by omega
    have loads := loadUnstableDescriptors_eq ordered room honest
    have lifted : ∀ {answer : Result (List TransactionDescriptor)} {descriptors : List TransactionDescriptor}
        {reached : Storage}, Eff.lift answer storage = .ok descriptors reached →
          answer = .ok descriptors ∧ reached = storage := by
      intro answer descriptors reached ran
      cases answer with
      | error error => cases ran
      | ok value => cases ran; exact ⟨rfl,rfl⟩
    refine ⟨?_,?_,?_⟩
    · intro descriptors fits
      rw [loads]
      constructor
      · intro ran
        obtain ⟨intact,each⟩ := groupDescriptors_intact room (lifted ran).1
        exact ⟨intact,fun descriptor member => (each descriptor member).2⟩
      · rintro ⟨intact,carries⟩
        obtain ⟨chain,stored,rfl,scanned⟩ := intact.scan
          (fun descriptor member => ⟨fits descriptor member,carries descriptor member⟩) room
        have count := intact.length
        rw [List.length_map] at count
        rw [scanned,show headSeq = durableSeq + chain.length by omega,stored.grouped]
        rfl
    · intro descriptors reached ran
      rw [loads] at ran
      obtain ⟨answered,rfl⟩ := lifted ran
      exact ⟨rfl,fun descriptor member => ((groupDescriptors_intact room answered).2 descriptor member).1⟩
    · intro other otherHonest agree
      refine ⟨_,loads,?_⟩
      have same : other.index.transaction.scan ⟨some (txKeyHead (durableSeq + 1)),none⟩ =
          storage.index.transaction.scan ⟨some (txKeyHead (durableSeq + 1)),none⟩ := by
        apply Keyspace.scan_congr
        intro key contained
        exact agree key (by simpa [KeyRange.contains] using contained)
      rw [loadUnstableDescriptors_eq ordered room otherHonest,same]

-- A descriptor with the checksum its own encoding carries.
theorem encodeDescriptor_sealed {descriptor : TransactionDescriptor} {encoded : EncodedDescriptor}
    (written : encodeDescriptor descriptor = .ok encoded) (fits : descriptor.Fits) :
    ∃ crc, encodeDescriptor (descriptor.sealed crc) = .ok encoded ∧ (descriptor.sealed crc).Fits ∧
      (descriptor.sealed crc).Sealed := by
  obtain ⟨crc,-,read⟩ := decodeDescriptor_encode written fits
  obtain ⟨again,sealedFits,checksum,-⟩ := decodeDescriptor_canonical read
  have same : (encoded.mutations.map EncodedMutation.entry).map entryMutation = encoded.mutations := by
    rw [List.map_map]
    exact List.map_id _
  rw [same] at again checksum
  refine ⟨crc,again,sealedFits,?_⟩
  intro other stored
  obtain rfl := Except.ok.inj (again.symm.trans stored)
  exact checksum

omit [Crc32c] in
theorem stateFits_none : StateFits none := fun pointer present => by cases present

-- A transaction keyspace that holds these entries alone.
def storageOf (entries : List (Bytes × Bytes)) (files : FileSet) : Storage :=
  ⟨Index.empty.apply (entries.map (fun entry => .putInternal .transaction entry.1 entry.2)),files,[],[]⟩

theorem storageOf_intact {chain : List (EncodedDescriptor × TransactionDescriptor)}
    {descriptors : List TransactionDescriptor} (files : FileSet) (stored : StoredFrom 1 chain)
    (written : descriptors.mapM encodeDescriptor = .ok (chain.map Prod.fst))
    (numbered : ∀ index (bound : index < descriptors.length), (descriptors[index]).txMeta.commitSeq = 0 + 1 + index) :
    IntactSuffix (storageOf (storedEntries chain) files).index.transaction 0 descriptors.length descriptors := by
  have writes : IndexAtomicBatch.Writes
      ((storedEntries chain).map (fun entry => .putInternal .transaction entry.1 entry.2)) []
      ((storedEntries chain).map (fun entry => (entry.1,some entry.2))) [] := by
    simp [IndexAtomicBatch.Writes,IndexMutation.write,place]
  have receives : Index.empty.transaction.Receives (storageOf (storedEntries chain) files).index.transaction
      (storedEntries chain) := fun key => writes.transaction Index.empty key
  refine ⟨rfl,numbered,chain.map Prod.fst,written,?_⟩
  intro key value above
  rw [receives.found stored.ordered]
  simp [storedEntries,Index.empty]

theorem storageOf_intact_single {descriptor : TransactionDescriptor} {encoded : EncodedDescriptor} (files : FileSet)
    (written : encodeDescriptor descriptor = .ok encoded) (fits : descriptor.Fits)
    (first : descriptor.txMeta.commitSeq = 1) :
    IntactSuffix (storageOf encoded.entries files).index.transaction 0 1 [descriptor] := by
  obtain ⟨crc,stores⟩ := encodeDescriptor_stores written fits
  have stored : StoredFrom 1 [(encoded,descriptor.sealed crc)] := ⟨stores,first,trivial⟩
  have intact := @storageOf_intact _ _ [descriptor] files stored
    (by rw [List.mapM_cons,written,ok_bind,List.mapM_nil,pure_ok,ok_bind,pure_ok]; rfl) (by
      intro index bound
      obtain rfl : index = 0 := by simpa using bound
      exact first)
  rwa [storedEntries,List.flatMap_singleton] at intact

end checked

-- An intact suffix need not carry the checksums: the encoder fills them in, the loader returns them.
theorem load_unstable_descriptors_unsealed :
    let descriptor : TransactionDescriptor :=
      ⟨⟨.indexOnlyDelete,1,⟨List.replicate 16 7,rfl⟩,0,⟨0,0⟩,⟨0,0⟩,1,1,0,0⟩,[⟨[1],none,none⟩]⟩
    ∃ storage : Storage, storage.Honest ∧ descriptor.Fits ∧
      @IntactSuffix castagnoli storage.index.transaction 0 1 [descriptor] ∧
      @loadUnstableDescriptors castagnoli 0 1 storage ≠ .ok [descriptor] storage := by
  intro descriptor
  have fits : descriptor.Fits := by
    refine ⟨by decide,by decide,by decide,?_⟩
    intro mutation member
    obtain rfl := List.mem_singleton.mp member
    exact ⟨stateFits_none,stateFits_none⟩
  have nonzero : (@encodeDescriptor castagnoli descriptor).toOption.map
      (fun encoded => decide (@descriptorChecksum castagnoli encoded.metaValue encoded.mutations = 0)) = some false := by
    decide +kernel
  cases written : @encodeDescriptor castagnoli descriptor with
  | error error => rw [written] at nonzero; cases nonzero
  | ok encoded =>
    rw [written] at nonzero
    simp only [Except.toOption,Option.map_some,Option.some.injEq,decide_eq_false_iff_not] at nonzero
    let storage := storageOf encoded.entries (FileSet.empty ⟨List.replicate 16 1,rfl⟩)
    have honest : storage.Honest := rfl
    refine ⟨storage,honest,fits,@storageOf_intact_single castagnoli _ _ _ written fits rfl,?_⟩
    intro loaded
    rw [@loadUnstableDescriptors_eq castagnoli 0 1 storage (by decide) (by decide) honest] at loaded
    cases read : @groupDescriptors castagnoli 0 1
        (storage.index.transaction.scan ⟨some (txKeyHead (0 + 1)),none⟩) with
    | error error => rw [read] at loaded; cases loaded
    | ok descriptors =>
      rw [read] at loaded
      cases loaded
      have carries := ((@groupDescriptors_intact castagnoli _ 0 1 _ (by decide) read).2 descriptor (by simp)).2
      exact nonzero (carries encoded written).symm

-- Two stored deletions are loaded back in the order of their commits.
theorem load_unstable_descriptors_exact_two :
    ∃ (storage : Storage) (first second : TransactionDescriptor),
      first.mutations.map TxMutation.userKey = [[1]] ∧ second.mutations.map TxMutation.userKey = [[2],[3]] ∧
      @loadUnstableDescriptors castagnoli 0 2 storage = .ok [first,second] storage := by
  let one : TransactionDescriptor :=
    ⟨⟨.indexOnlyDelete,1,⟨List.replicate 16 7,rfl⟩,0,⟨0,0⟩,⟨0,0⟩,1,1,0,0⟩,[⟨[1],none,none⟩]⟩
  let two : TransactionDescriptor :=
    ⟨⟨.indexOnlyDelete,2,⟨List.replicate 16 8,rfl⟩,1,⟨0,0⟩,⟨0,0⟩,2,2,0,0⟩,[⟨[2],none,none⟩,⟨[3],none,none⟩]⟩
  have succeeds : ∀ descriptor ∈ [one,two], (@encodeDescriptor castagnoli descriptor).toOption.isSome = true := by
    decide +kernel
  have blank : ∀ descriptor ∈ [one,two], ∀ mutation ∈ descriptor.mutations,
      mutation.beforeState = none ∧ mutation.afterState = none := by decide
  have mutationFits : ∀ descriptor ∈ [one,two], ∀ mutation ∈ descriptor.mutations, mutation.Fits := by
    intro descriptor member mutation inside
    obtain ⟨before,after⟩ := blank descriptor member mutation inside
    exact ⟨before ▸ stateFits_none,after ▸ stateFits_none⟩
  obtain ⟨encodedOne,writtenOne⟩ := ok_of_isSome (succeeds one (by simp))
  obtain ⟨encodedTwo,writtenTwo⟩ := ok_of_isSome (succeeds two (by simp))
  obtain ⟨crcOne,againOne,fitsOne,carriesOne⟩ := @encodeDescriptor_sealed castagnoli _ _ writtenOne
    ⟨by decide,by decide,by decide,mutationFits one (by simp)⟩
  obtain ⟨crcTwo,againTwo,fitsTwo,carriesTwo⟩ := @encodeDescriptor_sealed castagnoli _ _ writtenTwo
    ⟨by decide,by decide,by decide,mutationFits two (by simp)⟩
  let chain := [(encodedOne,one.sealed crcOne),(encodedTwo,two.sealed crcTwo)]
  let storage := storageOf (storedEntries chain) (FileSet.empty ⟨List.replicate 16 1,rfl⟩)
  have stored : @StoredFrom castagnoli 1 chain :=
    ⟨@TransactionDescriptor.Sealed.stores castagnoli _ _ carriesOne fitsOne againOne,rfl,
      @TransactionDescriptor.Sealed.stores castagnoli _ _ carriesTwo fitsTwo againTwo,rfl,trivial⟩
  refine ⟨storage,one.sealed crcOne,two.sealed crcTwo,rfl,rfl,?_⟩
  have exact := (@load_unstable_descriptors_exact castagnoli storage 0 2 rfl (by decide)).2 (by decide)
  refine (exact.1 [one.sealed crcOne,two.sealed crcTwo] (by simp [fitsOne,fitsTwo])).mpr
    ⟨?_,by simp [carriesOne,carriesTwo]⟩
  refine @storageOf_intact castagnoli chain [one.sealed crcOne,two.sealed crcTwo] _ stored ?_ ?_
  · rw [List.mapM_cons,againOne,ok_bind,List.mapM_cons,againTwo,ok_bind,List.mapM_nil]
    rfl
  · intro index bound
    match index,bound with
    | 0,_ => rfl
    | 1,_ => rfl

end ExpirKv
