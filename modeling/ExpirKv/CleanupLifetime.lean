import ExpirKv.CleanupSafe

namespace ExpirKv
open SharedIndex Storage

section checked
variable [Crc32c]

-- The batches of a recovery: its state, one undone transaction, head and frontier at the target, its state deleted.
inductive RecoveryBatch (frontier : DurableFrontier) (headSeq : Nat) : IndexAtomicBatch → Prop
  | create {state : RecoveryState} {batch : IndexAtomicBatch} (built : recoveryStateBatch state = .ok batch) :
      RecoveryBatch frontier headSeq batch
  | undo {encoded : EncodedDescriptor} {descriptor : TransactionDescriptor} {state : RecoveryState} {bytes : Bytes}
      (undoable : Undoable encoded descriptor) (last : descriptor.txMeta.commitSeq = headSeq)
      (next : state.nextUndoSeq + 1 = headSeq) (above : frontier.durableSeq ≤ state.nextUndoSeq)
      (encodes : state.encode = .ok bytes) :
      RecoveryBatch frontier headSeq (undoBatch descriptor encoded state.nextUndoSeq bytes)
  | target {target : DurableFrontier} {state : Option RecoveryState} {batch : IndexAtomicBatch}
      (forward : frontier.durableSeq ≤ target.durableSeq) (inside : target.durableSeq ≤ headSeq)
      (built : targetFrontierBatch target.durableSeq target state = .ok batch) : RecoveryBatch frontier headSeq batch
  | delete {batch : IndexAtomicBatch} (built : deleteRecoveryStateBatch = .ok batch) : RecoveryBatch frontier headSeq batch

section recovery
variable {index : Index} {frontier : DurableFrontier} {headSeq : Nat} {batch : IndexAtomicBatch}

theorem RecoveryBatch.advances (ledger : Ledger index frontier headSeq) (recovery : RecoveryBatch frontier headSeq batch) :
    Advances index frontier.durableSeq batch := by
  obtain ⟨stored,found,decoded⟩ := ledger.durable
  have ordered := ledger.ordered
  have fits := ledger.fits
  cases recovery with
  | create built =>
    obtain ⟨encoded,encodes,rfl⟩ := recoveryStateBatch_ok.mp built
    have writes := systemPuts_writes [(recoveryStateKey,encoded)]
    refine ⟨⟨[],[],_,writes,fun _ no => by cases no⟩,frontier,headSeq,⟨?_,⟨stored,(writes.system index _).trans found,decoded⟩,
      (writes.system index _).trans ledger.head,ordered,fits⟩,Nat.le_refl _⟩
    rw [(recoveryStateBatch_ordinary encodes).identity]
    exact ledger.identified
  | @undo encoded descriptor state bytes undoable last next above encodes =>
    have writes := undoBatch_writes descriptor encoded state.nextUndoSeq bytes
    have ordinary := (undoable.batch_eq encodes (RecoveryState.encode_present encodes)).2
    refine ⟨⟨_,_,_,writes,?_⟩,frontier,state.nextUndoSeq,⟨?_,⟨stored,(writes.system index _).trans found,decoded⟩,
      (writes.system index _).trans rfl,above,by omega⟩,Nat.le_refl _⟩
    · intro entry member stable
      have keyed : ∃ rest, entry.1 = txKeyHead descriptor.txMeta.commitSeq ++ rest := by
        simp only [List.mem_append,List.mem_map,List.mem_singleton] at member
        rcases member with ⟨mutation,there,rfl⟩ | rfl
        · exact undoable.stores.key (List.mem_cons_of_mem _ (List.mem_map_of_mem there))
        · exact undoable.stores.key List.mem_cons_self
      obtain ⟨rest,keyed⟩ := keyed
      rw [keyed,last,stableKey_txKey fits] at stable
      have := stable (by omega)
      omega
    · rw [ordinary.identity]
      exact ledger.identified
  | @target target state _ forward inside built =>
    obtain ⟨-,encoded,encodes,bytes,stores,rfl⟩ := targetFrontierBatch_ok.mp built
    have writes := systemPuts_writes (targetEntries target.durableSeq encoded bytes)
    have read := (DurableFrontier.decode_encode encodes (by omega)).1
    refine ⟨⟨[],[],_,writes,fun _ no => by cases no⟩,target,target.durableSeq,⟨?_,⟨encoded,?_,read⟩,?_,Nat.le_refl _,
      by omega⟩,forward⟩
    · rw [(targetEntries_ordinary encodes stores).identity]
      exact ledger.identified
    · cases bytes <;> exact (writes.system index _).trans rfl
    · cases bytes <;> exact (writes.system index _).trans rfl
  | delete built =>
    obtain ⟨same,ordinary⟩ := deleteRecoveryStateBatch_ok
    obtain rfl := Except.ok.inj (built.symm.trans same)
    have writes : IndexAtomicBatch.Writes [.deleteInternal .system recoveryStateKey] [] [] [(recoveryStateKey,none)] := rfl
    refine ⟨⟨[],[],_,writes,fun _ no => by cases no⟩,frontier,headSeq,⟨?_,⟨stored,(writes.system index _).trans found,decoded⟩,
      (writes.system index _).trans ledger.head,ordered,fits⟩,Nat.le_refl _⟩
    rw [ordinary.identity]
    exact ledger.identified

end recovery

section lifetime
variable {index untouched : Index} {world final : SharedIndex}

-- A run of the cleanup beside the writers, from a given index to wherever it got.
structure CleanupRun (index : Index) (world final : SharedIndex) : Prop where
  start : world.index = index
  clear : world.history = []
  writers : Writers index (world.schedule.flatMap Prod.fst)
  ran : (∃ progress, cleanupDescriptorsOnce world = .ok progress final) ∨
    ∃ error, cleanupDescriptorsOnce world = .error error final

-- An index, and what it would be without any cleanup: commits, recoveries and runs of the cleanup in any
-- order, each run cut at any of its points. A crash image is an earlier pair of the same kind.
inductive Lifetime : Index → Index → Prop
  | start {index : Index} {frontier : DurableFrontier} {headSeq : Nat} (ledger : Ledger index frontier headSeq) :
      Lifetime index index
  | writer {index untouched : Index} {frontier : DurableFrontier} {headSeq : Nat} {batch : IndexAtomicBatch}
      (earlier : Lifetime index untouched) (ledger : Ledger index frontier headSeq)
      (writer : WriterBatch index headSeq batch) : Lifetime (index.apply batch) (untouched.apply batch)
  | recovery {index untouched : Index} {frontier : DurableFrontier} {headSeq : Nat} {batch : IndexAtomicBatch}
      (earlier : Lifetime index untouched) (ledger : Ledger index frontier headSeq)
      (recovery : RecoveryBatch frontier headSeq batch) : Lifetime (index.apply batch) (untouched.apply batch)
  | cleanup {index untouched : Index} {world final : SharedIndex} {front back : List (Origin × IndexAtomicBatch)}
      (earlier : Lifetime index untouched) (run : CleanupRun index world final) (cut : final.history = front ++ back) :
      Lifetime (replay index front) (replayWriters untouched front)

theorem Tidied.trans {middle : Index} (first : Tidied index middle) (second : Tidied middle untouched) :
    Tidied index untouched := by
  obtain ⟨frontier,headSeq,ledger,above⟩ := first.ledger
  obtain ⟨other,otherHead,standing,further⟩ := second.ledger
  obtain rfl := (ledger.transfer first.system).frontier_unique standing
  refine ⟨first.user.trans second.user,first.system.trans second.system,⟨frontier,headSeq,ledger,?_⟩,?_⟩
  · intro key unstable
    exact (above key unstable).trans (further key unstable)
  · intro key
    rcases first.within key with gone | same
    · exact .inl gone
    · rw [same]
      exact second.within key

-- The writers' batches alone, on both sides.
theorem Swept.writersTidied {history : List (Origin × IndexAtomicBatch)} (swept : Swept index history)
    (tidied : Tidied index untouched) :
    ∀ front back, history = front ++ back → Tidied (replayWriters index front) (replayWriters untouched front) := by
  intro front
  induction front using List.reverseRecOn with
  | nil => exact fun _ _ => tidied
  | append_singleton front step ih =>
    intro back split
    have here := ih (step :: back) (by rw [split,List.append_assoc,List.singleton_append])
    obtain ⟨origin,batch⟩ := step
    cases origin with
    | cleanup =>
      rw [replayWriters_cleanup,replayWriters_cleanup]
      exact here
    | writer =>
      obtain ⟨frontier,headSeq,ledger,writer⟩ := swept.writers front batch back (by
        rw [split,List.append_assoc,List.singleton_append])
      rw [replayWriters_writer,replayWriters_writer]
      exact here.advance ledger (writer.advances ledger).1

theorem CleanupRun.ongoing (run : CleanupRun index world final) {frontier : DurableFrontier} {headSeq : Nat}
    (ledger : Ledger index frontier headSeq) : Ongoing index world := by
  refine ⟨?_,?_,?_⟩
  · rw [run.start,run.clear]
    rfl
  · rw [run.clear]
    refine ⟨?_,?_,fun front batch back no => ?_,fun front batch back no => ?_⟩
    · intro front back split
      obtain ⟨rfl,-⟩ := List.append_eq_nil_iff.mp split.symm
      exact .refl ledger
    · intro front back split
      obtain ⟨rfl,-⟩ := List.append_eq_nil_iff.mp split.symm
      rfl
    · simp at no
    · simp at no
  · rw [run.clear]
    exact run.writers

theorem CleanupRun.swept (run : CleanupRun index world final) {frontier : DurableFrontier} {headSeq : Nat}
    (ledger : Ledger index frontier headSeq) : Ongoing index final := by
  have delivers := cleanupDescriptorsOnce_delivers (run.ongoing ledger)
  rcases run.ran with ⟨progress,ran⟩ | ⟨error,ran⟩
  · exact (delivers.of_ok ran).1
  · exact delivers.of_error ran

theorem Lifetime.tidied (lifetime : Lifetime index untouched) : Tidied index untouched := by
  induction lifetime with
  | start ledger => exact .refl ledger
  | writer earlier ledger writer ih => exact ih.advance ledger (writer.advances ledger).1
  | recovery earlier ledger recovery ih => exact ih.advance ledger (recovery.advances ledger)
  | @cleanup index untouched world final front back earlier run cut ih =>
    obtain ⟨frontier,headSeq,ledger,-⟩ := ih.ledger
    have swept := (run.swept ledger).swept
    exact (swept.tidied front back cut).trans (swept.writersTidied ih front back cut)

-- At every point of every lifetime a recovery finds what it would find without the cleanup, and a run
-- removes stable descriptors only, their metadata last, all of them unless it stops or fails.
theorem descriptor_cleanup_safe (lifetime : Lifetime index untouched) :
    (∀ storage : Storage, storage.index = index →
      (∀ format inventory, (analyzeRecovery format inventory).answer (storage.reindex untouched) =
        (analyzeRecovery format inventory).answer storage) ∧
      ∀ frontier headSeq, Ledger index frontier headSeq → ∀ seq,
        (loadUnstableDescriptors frontier.durableSeq seq).answer (storage.reindex untouched) =
          (loadUnstableDescriptors frontier.durableSeq seq).answer storage) ∧
    ∀ world final, CleanupRun index world final →
      (∀ front batch back, final.history = front ++ (.cleanup,batch) :: back →
        ∃ captured keys, keys ≠ [] ∧ batch = removals keys ∧ Removal index front captured keys ∧
          index.system[recoveryStateKey]? = none) ∧
      ∀ progress, cleanupDescriptorsOnce world = .ok progress final → final.stopSeen = false →
        progress.blockedByRecovery = false → ∀ (key value : Bytes) seq kind, index.transaction[key]? = some value →
          decodeCleanupKey key = .ok (seq,kind) → seq ≤ progress.capturedDurableSeq →
          final.index.transaction[key]? = none := by
  have tidied := lifetime.tidied
  obtain ⟨known,knownHead,ledger,-⟩ := tidied.ledger
  refine ⟨?_,?_⟩
  · intro storage here
    refine ⟨fun format inventory => (tidied.analyzes format inventory).answer here,?_⟩
    intro frontier headSeq standing seq
    obtain ⟨encoded,stored,decoded⟩ := standing.durable
    exact (tidied.loads stored decoded seq).answer here
  · intro world final run
    have swept := (run.swept ledger).swept
    refine ⟨?_,?_⟩
    · intro front batch back split
      obtain ⟨captured,keys,present,same,removal⟩ := swept.safe front batch back split
      refine ⟨captured,keys,present,same,removal,?_⟩
      rw [←swept.state front _ split]
      exact removal.unresumed
    · intro progress ran quiet open' key value seq kind _ read inside
      obtain ⟨-,halted | blocked | gone⟩ := (cleanupDescriptorsOnce_delivers (run.ongoing ledger)).of_ok ran
      · cases quiet.symm.trans halted.1
      · cases open'.symm.trans blocked
      · exact gone key (decodeCleanupKey_stable read inside)

end lifetime

end checked

-- One delete, committed and durable; its descriptor waits for the cleanup.
def settledIndex : Index :=
  ⟨∅,((∅ : Keyspace).insert (txKeyHead 1 ++ [txMetaKind]) [0]).insert (txKeyHead 1 ++ txMutationKind :: beBytes 8 0) [0],
    (((∅ : Keyspace).insert databaseIdentityKey [0]).insert headSeqKey (encodeHeadSeq 1)).insert durableFrontierKey
      (@appendCrc castagnoli (durableFrontierMagic ++ leBytes 2 formatVersion ++ leBytes 8 1 ++ List.replicate 21 0))⟩

theorem settledIndex_ledger : @Ledger castagnoli settledIndex ⟨1,0,none⟩ 1 := by
  refine @Ledger.mk castagnoli _ _ _ ?_ ⟨_,Std.ExtTreeMap.getElem?_insert_self,?_⟩ ?_ (by decide) (by decide)
  · simp [settledIndex,show durableFrontierKey ≠ databaseIdentityKey by decide,
      show headSeqKey ≠ databaseIdentityKey by decide]
  · decide +kernel
  · simp only [settledIndex,Std.ExtTreeMap.getElem?_insert,Std.LawfulEqCmp.compare_eq_iff_eq,
      show durableFrontierKey ≠ headSeqKey by decide,if_false,if_true]

theorem descriptor_cleanup_safe_settled :
    ∃ progress final, @cleanupDescriptorsOnce castagnoli ⟨settledIndex,[],none,false,[]⟩ = .ok progress final ∧
      progress.deletedMeta = 1 ∧ final.index.transaction[txKeyHead 1 ++ [txMetaKind]]? = none := by
  have runs : (match @cleanupDescriptorsOnce castagnoli ⟨settledIndex,[],none,false,[]⟩ with
      | .ok progress final => decide (progress = ⟨1,1,1,2,false⟩) && !final.stopSeen
      | .error _ _ => false) = true := by decide +kernel
  cases ran : @cleanupDescriptorsOnce castagnoli ⟨settledIndex,[],none,false,[]⟩ with
  | error error final => rw [ran] at runs; cases runs
  | ok progress final =>
    rw [ran] at runs
    simp only [Bool.and_eq_true,decide_eq_true_eq,Bool.not_eq_true'] at runs
    obtain ⟨rfl,quiet⟩ := runs
    have run : @CleanupRun castagnoli settledIndex ⟨settledIndex,[],none,false,[]⟩ final :=
      @CleanupRun.mk castagnoli _ _ _ rfl rfl (@Writers.nil castagnoli _) (.inl ⟨_,ran⟩)
    have safe := @descriptor_cleanup_safe castagnoli _ _ (@Lifetime.start castagnoli _ _ _ settledIndex_ledger)
    exact ⟨_,_,rfl,rfl,(safe.2 _ _ run).2 _ ran quiet rfl _ [0] 1 .metadata
      (by
        simp only [settledIndex,Std.ExtTreeMap.getElem?_insert,Std.LawfulEqCmp.compare_eq_iff_eq,
          show txKeyHead 1 ++ txMutationKind :: beBytes 8 0 ≠ txKeyHead 1 ++ [txMetaKind] by decide,if_false,if_true])
      (by decide) (by decide)⟩

end ExpirKv
