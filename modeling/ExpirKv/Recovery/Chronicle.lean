import ExpirKv.Recovery.DescriptorsExact
import ExpirKv.Recovery.Resume
import ExpirKv.Recovery.UndoCommit

namespace ExpirKv
open VLogGeometry Storage

section history
variable [Crc32c] {first middle last other later : Index}
  {front back chain : List (EncodedDescriptor × TransactionDescriptor)} {seq : Nat}

theorem Transacted.snoc_inv {newest : EncodedDescriptor × TransactionDescriptor} (history : Transacted first (chain ++ [newest]) last) :
    ∃ before encoded descriptor, Transacted first chain before ∧ Transacts before last encoded descriptor ∧
      newest = (encoded,descriptor) := by
  generalize whole : chain ++ [newest] = all at history
  cases history with
  | nil => exact absurd whole (by simp)
  | snoc earlier step =>
    obtain ⟨rfl,same⟩ := List.append_inj' whole rfl
    exact ⟨_,_,_,earlier,step,List.cons.inj same |>.1⟩

theorem Transacted.nil_eq (history : Transacted first [] last) : first = last := by
  generalize none : ([] : List (EncodedDescriptor × TransactionDescriptor)) = chain at history
  cases history with
  | nil => rfl
  | snoc earlier step => exact absurd none (by simp)

-- A history can be cut anywhere.
theorem Transacted.split (history : Transacted first (front ++ back) last) :
    ∃ middle, Transacted first front middle ∧ Transacted middle back last := by
  induction back using List.reverseRecOn generalizing last with
  | nil =>
    rw [List.append_nil] at history
    exact ⟨last,history,.nil last⟩
  | append_singleton rest newest ih =>
    rw [←List.append_assoc] at history
    obtain ⟨before,encoded,descriptor,earlier,step,same⟩ := history.snoc_inv
    obtain ⟨middle,left,right⟩ := ih earlier
    rw [same]
    exact ⟨middle,left,right.snoc step⟩

omit [Crc32c] in
theorem numbered_concat {encoded : EncodedDescriptor} {descriptor : TransactionDescriptor}
    (numbered : ∀ index (bound : index < (chain ++ [(encoded,descriptor)]).length),
      ((chain ++ [(encoded,descriptor)])[index]).2.txMeta.commitSeq = seq + 1 + index) :
    (∀ index (bound : index < chain.length), (chain[index]).2.txMeta.commitSeq = seq + 1 + index) ∧
      descriptor.txMeta.commitSeq = seq + 1 + chain.length := by
  constructor
  · intro index bound
    have one := numbered index (by rw [List.length_append]; omega)
    rwa [List.getElem_append_left bound] at one
  · have number := numbered chain.length (by simp)
    rw [List.getElem_append_right (Nat.le_refl _)] at number
    simpa using number

-- Behind a history nothing is stored above its last transaction.
theorem Transacted.last_below {seq : Nat} (history : Transacted first chain last)
    (low : seq + 1 < 18446744073709551616 → first.transaction.Below (seq + 1))
    (numbered : ∀ index (bound : index < chain.length), (chain[index]).2.txMeta.commitSeq = seq + 1 + index)
    (room : seq + chain.length + 1 < 18446744073709551616) : last.transaction.Below (seq + chain.length + 1) := by
  cases history with
  | nil => exact low room
  | @snoc middle _ chain encoded descriptor earlier step =>
    obtain ⟨-,number⟩ := numbered_concat numbered
    rw [List.length_append,List.length_singleton] at room ⊢
    have above := step.above (by omega)
    rw [number] at above
    rw [show seq + (chain.length + 1) + 1 = seq + 1 + chain.length + 1 by omega]
    exact above

-- What the index holds behind a history is the same wherever it began with the same entries.
theorem Transacted.sameUser (history : Transacted first chain last) (again : Transacted other chain later)
    (same : first.user = other.user) : last.user = later.user := by
  induction chain using List.reverseRecOn generalizing last later with
  | nil => rw [←history.nil_eq,←again.nil_eq,same]
  | append_singleton chain newest ih =>
    obtain ⟨before,encoded,descriptor,earlier,step,rfl⟩ := history.snoc_inv
    obtain ⟨between,written,described,sooner,turn,pair⟩ := again.snoc_inv
    obtain ⟨rfl,rfl⟩ := Prod.mk.inj pair
    apply Keyspace.ext_getElem?
    intro key
    rw [step.user key,turn.user key,ih earlier sooner]

theorem Transacted.storedFrom (history : Transacted first chain last)
    (numbered : ∀ index (bound : index < chain.length), (chain[index]).2.txMeta.commitSeq = seq + 1 + index) :
    StoredFrom (seq + 1) chain := by
  induction history with
  | nil => trivial
  | snoc earlier step ih =>
    obtain ⟨others,number⟩ := numbered_concat numbered
    exact StoredFrom.append.mpr ⟨ih others,step.stores,number,trivial⟩

-- The same transactions on an index whose older descriptors are others.
theorem Transacted.moved (history : Transacted first chain last) (user : other.user = first.user)
    (below : seq + 1 < 18446744073709551616 → other.transaction.Below (seq + 1))
    (numbered : ∀ index (bound : index < chain.length), (chain[index]).2.txMeta.commitSeq = seq + 1 + index) :
    ∃ later, Transacted other chain later ∧ later.user = last.user := by
  induction history with
  | nil => exact ⟨other,.nil other,user⟩
  | @snoc middle last chain encoded descriptor earlier step ih =>
    obtain ⟨others,number⟩ := numbered_concat numbered
    obtain ⟨now,there,same⟩ := ih others
    have fits := step.stores.seq
    have writes := commitBatch_writes descriptor.mutations encoded descriptor.txMeta.commitSeq
    have lower := there.last_below below others (by omega)
    rw [show seq + chain.length + 1 = descriptor.txMeta.commitSeq by omega] at lower
    refine ⟨now.apply (commitBatch descriptor.mutations encoded descriptor.txMeta.commitSeq),
      there.snoc ⟨step.stores,step.distinct,step.named,step.encodable,?_,lower,writes.user now,writes.transaction now⟩,?_⟩
    · intro mutation member
      rw [same]
      exact step.found mutation member
    · apply Keyspace.ext_getElem?
      intro key
      rw [writes.user now key,step.user key,same]

end history

section chronicle
variable [Crc32c] {noted fuller : List TransactionDescriptor → Index → Accepted → Prop} {first last index : Index}
  {begun head : Accepted} {chain : List (EncodedDescriptor × TransactionDescriptor)}

-- A history of numbered transactions with what was noted at each of its points.
inductive Chronicle (noted : List TransactionDescriptor → Index → Accepted → Prop) (first : Index) (begun : Accepted) :
    List (EncodedDescriptor × TransactionDescriptor) → Index → Accepted → Prop
  | nil : noted [] first begun → Chronicle noted first begun [] first begun
  | snoc {chain : List (EncodedDescriptor × TransactionDescriptor)} {middle last : Index} {accepted : Accepted}
      {encoded : EncodedDescriptor} {descriptor : TransactionDescriptor} :
      Chronicle noted first begun chain middle accepted → Transacts middle last encoded descriptor →
      descriptor.txMeta.commitSeq = accepted.seq + 1 →
      noted (chain.map Prod.snd ++ [descriptor]) last (accepted.take descriptor) →
      Chronicle noted first begun (chain ++ [(encoded,descriptor)]) last (accepted.take descriptor)

omit [Crc32c] in
theorem Accepted.take_seq (accepted : Accepted) (descriptor : TransactionDescriptor) :
    (accepted.take descriptor).seq = descriptor.txMeta.commitSeq := by
  unfold Accepted.take
  split <;> rfl

theorem Chronicle.mono (chronicle : Chronicle noted first begun chain last head)
    (more : ∀ taken index accepted, noted taken index accepted → fuller taken index accepted) :
    Chronicle fuller first begun chain last head := by
  induction chronicle with
  | nil start => exact .nil (more _ _ _ start)
  | snoc _ step number here ih => exact .snoc ih step number (more _ _ _ here)

-- What holds before the last point may be noted anew there, and something else at the last one.
theorem Chronicle.renoted (chronicle : Chronicle noted first begun chain last head)
    (more : ∀ taken index accepted, accepted.seq < head.seq → noted taken index accepted → fuller taken index accepted)
    (here : noted (chain.map Prod.snd) last head → fuller (chain.map Prod.snd) last head) :
    Chronicle fuller first begun chain last head := by
  have before : ∀ {chain middle accepted}, Chronicle noted first begun chain middle accepted → accepted.seq < head.seq →
      Chronicle fuller first begun chain middle accepted := by
    intro chain middle accepted earlier below
    induction earlier with
    | nil start => exact .nil (more _ _ _ below start)
    | snoc _ step number there ih =>
      refine .snoc (ih ?_) step number (more _ _ _ below there)
      rw [Accepted.take_seq] at below
      omega
  cases chronicle with
  | nil start => exact .nil (here start)
  | snoc earlier step number there =>
    rw [List.map_append] at here
    refine .snoc (before earlier ?_) step number (here there)
    rw [Accepted.take_seq,number]
    exact Nat.lt_succ_self _

theorem Chronicle.transacted (chronicle : Chronicle noted first begun chain last head) : Transacted first chain last := by
  induction chronicle with
  | nil => exact .nil first
  | snoc _ step _ _ ih => exact ih.snoc step

theorem Chronicle.ends (chronicle : Chronicle noted first begun chain last head) : noted (chain.map Prod.snd) last head := by
  cases chronicle with
  | nil start => exact start
  | snoc _ _ _ here =>
    rw [List.map_append]
    exact here

theorem Chronicle.accepted (chronicle : Chronicle noted first begun chain last head) :
    head = (chain.map Prod.snd).foldl Accepted.take begun := by
  induction chronicle with
  | nil => rfl
  | snoc _ _ _ _ ih => rw [List.map_append,List.foldl_append,←ih]; rfl

theorem Chronicle.seq (chronicle : Chronicle noted first begun chain last head) : head.seq = begun.seq + chain.length := by
  induction chronicle with
  | nil => rfl
  | snoc _ _ number _ ih =>
    rw [Accepted.take_seq,number,ih,List.length_append]
    rfl

theorem Chronicle.numbered (chronicle : Chronicle noted first begun chain last head) :
    ∀ index (bound : index < chain.length), (chain[index]).2.txMeta.commitSeq = begun.seq + 1 + index := by
  induction chronicle with
  | nil => exact fun index bound => absurd bound (Nat.not_lt_zero _)
  | @snoc chain middle last accepted encoded descriptor earlier step number here ih =>
    intro index bound
    rw [List.length_append,List.length_singleton] at bound
    by_cases inside : index < chain.length
    · rw [List.getElem_append_left inside]
      exact ih index inside
    · rw [List.getElem_append_right (by omega)]
      simp only [List.getElem_singleton]
      rw [number,earlier.seq]
      omega

-- Every point of the history has its note.
theorem Chronicle.point (chronicle : Chronicle noted first begun chain last head) {count : Nat}
    (inside : count ≤ chain.length) :
    (((chain.map Prod.snd).take count).foldl Accepted.take begun).seq = begun.seq + count ∧
      ∃ middle, Transacted first (chain.take count) middle ∧
        noted ((chain.map Prod.snd).take count) middle (((chain.map Prod.snd).take count).foldl Accepted.take begun) := by
  induction chronicle with
  | nil start =>
    rw [List.length_nil,Nat.le_zero] at inside
    subst inside
    exact ⟨rfl,first,.nil first,start⟩
  | @snoc chain middle last accepted encoded descriptor earlier step number here ih =>
    rw [List.length_append,List.length_singleton] at inside
    by_cases before : count ≤ chain.length
    · rw [List.take_append_of_le_length before,List.map_append,
        List.take_append_of_le_length (by rw [List.length_map]; exact before)]
      exact ih before
    · obtain rfl : count = chain.length + 1 := by omega
      have whole := Chronicle.snoc earlier step number here
      rw [List.take_of_length_le (by simp),List.take_of_length_le (by simp),←whole.accepted]
      refine ⟨?_,last,whole.transacted,whole.ends⟩
      rw [whole.seq,List.length_append,List.length_singleton]

end chronicle

section journal
variable [Crc32c] {noted fuller : List TransactionDescriptor → Index → Accepted → Prop} {index later : Index}
  {begun head : Accepted} {chain : List (EncodedDescriptor × TransactionDescriptor)}

-- An index as the last point of a history. Descriptors in front of the history may have been cleaned away.
structure Journal (noted : List TransactionDescriptor → Index → Accepted → Prop) (index : Index) (begun : Accepted)
    (chain : List (EncodedDescriptor × TransactionDescriptor)) (head : Accepted) : Prop where
  recorded : ∃ first last, Chronicle noted first begun chain last head ∧ index.user = last.user ∧
    (begun.seq + 1 < 18446744073709551616 → first.transaction.Below (begun.seq + 1) ∧
      ∀ key : Bytes, compare key (txKeyHead (begun.seq + 1)) ≠ .lt → index.transaction[key]? = last.transaction[key]?)

theorem Journal.mono (journal : Journal noted index begun chain head)
    (more : ∀ taken index accepted, noted taken index accepted → fuller taken index accepted) :
    Journal fuller index begun chain head := by
  obtain ⟨first,last,chronicle,user,above⟩ := journal.recorded
  exact ⟨first,last,chronicle.mono more,user,above⟩

theorem Journal.renoted (journal : Journal noted index begun chain head)
    (more : ∀ taken index accepted, accepted.seq < head.seq → noted taken index accepted → fuller taken index accepted)
    (here : ∀ last : Index, last.user = index.user → noted (chain.map Prod.snd) last head →
      fuller (chain.map Prod.snd) last head) : Journal fuller index begun chain head := by
  obtain ⟨first,last,chronicle,user,above⟩ := journal.recorded
  exact ⟨first,last,chronicle.renoted more (here last user.symm),user,above⟩

theorem Journal.accepted (journal : Journal noted index begun chain head) :
    head = (chain.map Prod.snd).foldl Accepted.take begun := by
  obtain ⟨first,last,chronicle,-⟩ := journal.recorded
  exact chronicle.accepted

theorem Journal.ends (journal : Journal noted index begun chain head) :
    ∃ last : Index, last.user = index.user ∧ noted (chain.map Prod.snd) last head := by
  obtain ⟨first,last,chronicle,user,-⟩ := journal.recorded
  exact ⟨last,user.symm,chronicle.ends⟩

theorem Journal.seq (journal : Journal noted index begun chain head) : head.seq = begun.seq + chain.length := by
  obtain ⟨first,last,chronicle,-⟩ := journal.recorded
  exact chronicle.seq

theorem Journal.start (here : noted [] index begun)
    (below : begun.seq + 1 < 18446744073709551616 → index.transaction.Below (begun.seq + 1)) :
    Journal noted index begun [] begun :=
  ⟨index,index,.nil here,rfl,fun room => ⟨below room,fun _ _ => rfl⟩⟩

theorem Journal.below (journal : Journal noted index begun chain head)
    (room : head.seq + 1 < 18446744073709551616) : index.transaction.Below (head.seq + 1) := by
  obtain ⟨first,last,chronicle,-,above⟩ := journal.recorded
  have seq := chronicle.seq
  obtain ⟨low,agrees⟩ := above (by omega)
  have ends := chronicle.transacted.last_below (fun _ => low) chronicle.numbered (by omega)
  rw [←seq] at ends
  intro key value found
  by_cases older : compare key (txKeyHead (begun.seq + 1)) = .lt
  · rcases Nat.eq_or_lt_of_le (show begun.seq ≤ head.seq by omega) with same | more
    · rw [←same]
      exact older
    · exact Std.TransCmp.lt_trans older (txKeyHead_lt room (by omega))
  · rw [agrees key older] at found
    exact ends key value found

-- What the index holds now is a point at which another history can begin.
theorem Journal.restart (journal : Journal noted index begun chain head) (here : fuller [] index head) :
    Journal fuller index head [] head := .start here journal.below

-- An index that only lost older descriptors has the same history.
theorem Journal.cleaned (journal : Journal noted index begun chain head) (user : later.user = index.user)
    (kept : begun.seq + 1 < 18446744073709551616 → ∀ key : Bytes, compare key (txKeyHead (begun.seq + 1)) ≠ .lt →
      later.transaction[key]? = index.transaction[key]?) : Journal noted later begun chain head := by
  obtain ⟨first,last,chronicle,same,above⟩ := journal.recorded
  refine ⟨first,last,chronicle,user.trans same,fun room => ?_⟩
  obtain ⟨low,agrees⟩ := above room
  exact ⟨low,fun key older => (kept room key older).trans (agrees key older)⟩

-- The history once more, from an index that lacks what the cleanup took.
theorem Journal.transacted (journal : Journal noted index begun chain head) :
    ∃ base last, Transacted base chain last ∧ last.user = index.user ∧ last.transaction = index.transaction ∧
      (begun.seq + 1 < 18446744073709551616 → base.transaction.Below (begun.seq + 1)) ∧
      ∀ count ≤ chain.length, (((chain.map Prod.snd).take count).foldl Accepted.take begun).seq = begun.seq + count ∧
        ∀ point, Transacted base (chain.take count) point → ∃ middle, middle.user = point.user ∧
          noted ((chain.map Prod.snd).take count) middle (((chain.map Prod.snd).take count).foldl Accepted.take begun) := by
  obtain ⟨first,last,chronicle,user,above⟩ := journal.recorded
  have points : ∀ base : Index, base.user = first.user → ∀ count ≤ chain.length,
      (((chain.map Prod.snd).take count).foldl Accepted.take begun).seq = begun.seq + count ∧
        ∀ point, Transacted base (chain.take count) point → ∃ middle, middle.user = point.user ∧
          noted ((chain.map Prod.snd).take count) middle (((chain.map Prod.snd).take count).foldl Accepted.take begun) := by
    intro base same count inside
    obtain ⟨seq,middle,reached,here⟩ := chronicle.point inside
    exact ⟨seq,fun point history => ⟨middle,reached.sameUser history same.symm,here⟩⟩
  by_cases room : begun.seq + 1 < 18446744073709551616
  · obtain ⟨low,agrees⟩ := above room
    let base : Index := {first with
      transaction := index.transaction.filter (fun key _ => compare key (txKeyHead (begun.seq + 1)) == .lt)}
    have kept : ∀ key : Bytes, base.transaction[key]? =
        if compare key (txKeyHead (begun.seq + 1)) = .lt then index.transaction[key]? else none := by
      intro key
      simp only [base,Std.ExtTreeMap.getElem?_filter']
      split <;> cases index.transaction[key]? <;> simp_all
    have below : base.transaction.Below (begun.seq + 1) := by
      intro key value found
      rw [kept] at found
      split at found
      · assumption
      · cases found
    obtain ⟨again,history,same⟩ := chronicle.transacted.moved (show base.user = first.user from rfl) (fun _ => below)
      chronicle.numbered
    refine ⟨base,again,history,same.trans user.symm,?_,fun _ => below,points base rfl⟩
    apply Keyspace.ext_getElem?
    intro key
    rw [history.receives key,kept]
    by_cases older : compare key (txKeyHead (begun.seq + 1)) = .lt
    · have absent : lastValue ((storedEntries chain).map (fun entry => (entry.1,some entry.2))) key = none := by
        apply lastValue_of_notMem
        intro member
        obtain ⟨write,written,rfl⟩ := List.mem_map.mp member
        obtain ⟨entry,stored,rfl⟩ := List.mem_map.mp written
        obtain ⟨seq,rest,named,lower,-,fits⟩ := (history.storedFrom chronicle.numbered).key stored
        simp only [named,txKey_compare rest fits room] at older
        omega
      rw [absent,if_pos older]
      rfl
    · rw [if_neg older,agrees key older,chronicle.transacted.receives key]
      cases lastValue ((storedEntries chain).map (fun entry => (entry.1,some entry.2))) key with
      | some value => rfl
      | none =>
        cases stored : first.transaction[key]? with
        | none => rfl
        | some value => exact absurd (low key value stored) older
  · have none : chain = [] := by
      cases chain with
      | nil => rfl
      | cons newest rest =>
        have stored := chronicle.transacted.storedFrom chronicle.numbered
        have fits := stored.1.seq
        rw [stored.2.1] at fits
        omega
    subst none
    obtain rfl := chronicle.transacted.nil_eq
    exact ⟨{first with transaction := index.transaction},{first with transaction := index.transaction},.nil _,user.symm,rfl,
      fun inside => absurd inside room,points _ rfl⟩

-- The descriptors that the index holds above the history's beginning are the history's.
theorem Journal.described (journal : Journal noted index begun chain head) :
    DescribedAbove index.transaction begun.seq head.seq (chain.map Prod.snd) := by
  obtain ⟨first,last,chronicle,-,-⟩ := journal.recorded
  obtain ⟨base,reached,history,-,same,below,-⟩ := journal.transacted
  have stored := history.storedFrom chronicle.numbered
  have seq := chronicle.seq
  have length : (chain.map Prod.snd).length = head.seq - begun.seq := by rw [List.length_map]; omega
  have read : begun.seq + 1 < 18446744073709551616 →
      groupDescriptors begun.seq head.seq (index.transaction.scan ⟨some (txKeyHead (begun.seq + 1)),none⟩) =
        .ok (chain.map Prod.snd) := by
    intro room
    rw [←same,stored.scan history.receives (below room) room,seq]
    exact stored.grouped
  refine ⟨length,?_,fun room => (groupDescriptors_intact room (read room)).1,?_⟩
  · intro place bound
    rw [List.length_map] at bound
    rw [List.getElem_map]
    exact chronicle.numbered place bound
  · intro descriptor member
    by_cases room : begun.seq + 1 < 18446744073709551616
    · exact (groupDescriptors_intact room (read room)).2 descriptor member
    · obtain ⟨pair,held,-⟩ := List.mem_map.mp member
      cases chain with
      | nil => cases held
      | cons newest rest =>
        have fits := stored.1.seq
        rw [stored.2.1] at fits
        exact absurd fits room

omit [Crc32c] in
theorem Accepted.take_sealed (accepted : Accepted) (descriptor : TransactionDescriptor) (crc : Nat) :
    accepted.take (descriptor.sealed crc) = accepted.take descriptor := rfl

-- A prepared commit adds its transaction to the history.
theorem Journal.committed {write : ValidatedWrite} {vlogContext : Option VlogContext} {commit : PreparedCommit}
    {descriptor : TransactionDescriptor} (journal : Journal noted index begun chain head)
    (prepares : Prepares write head.seq vlogContext (fun key => index.user[key]?) commit descriptor)
    (here : ∀ (other : Index) crc, other.user = (index.apply commit.indexBatch).user →
      noted (chain.map Prod.snd ++ [descriptor.sealed crc]) other (head.take descriptor)) :
    ∃ encoded crc, Journal noted (index.apply commit.indexBatch) begun (chain ++ [(encoded,descriptor.sealed crc)])
      (head.take descriptor) := by
  obtain ⟨first,last,chronicle,user,above⟩ := journal.recorded
  have seq := chronicle.seq
  have bound := prepares.bound
  obtain ⟨low,agrees⟩ := above (by omega)
  rw [user] at prepares
  have below := chronicle.transacted.last_below (fun _ => low) chronicle.numbered (by omega)
  rw [←seq] at below
  obtain ⟨encoded,crc,-,batch,transacts⟩ := prepares.transacts below
  have writes := commitBatch_writes descriptor.mutations encoded (head.seq + 1)
  have number : (descriptor.sealed crc).txMeta.commitSeq = head.seq + 1 := by
    simp only [TransactionDescriptor.sealed,prepares.described,commitTxMeta]
  have same : (index.apply commit.indexBatch).user = (last.apply commit.indexBatch).user := by
    apply Keyspace.ext_getElem?
    intro key
    rw [batch,writes.user index key,writes.user last key,user]
  have next := chronicle.snoc transacts number (by rw [Accepted.take_sealed]; exact here _ crc same.symm)
  refine ⟨encoded,crc,first,last.apply commit.indexBatch,next,same,fun _ => ⟨low,?_⟩⟩
  intro key older
  rw [batch,writes.transaction index key,writes.transaction last key,agrees key older]

end journal

end ExpirKv
