import ExpirKv.Lifecycle.Survival

namespace ExpirKv
open VLogGeometry Storage CommitCoordinator

section validating
variable [Crc32c] {files : FileSet} {frontier : DurableFrontier}

-- `validate_stable_boundary` over these files, where no call fails.
def ValidatesBoundary (files : FileSet) (frontier : DurableFrontier) : Prop :=
  ∀ storage : Storage, storage.Honest → storage.vlog = files → validateStableBoundary frontier storage = .ok () storage

theorem StableBoundary.validates (boundary : StableBoundary files frontier) : ValidatesBoundary files frontier := by
  rintro storage honest rfl
  have delivers : Delivers (validateStableBoundary frontier) storage (fun _ after => after = storage) (fun _ _ => False) :=
    validateStableBoundary_honest honest (fun _ => rfl) (fun _ refused => refused boundary)
  obtain ⟨_,_,ran,rfl⟩ := delivers.returns
  exact ran

-- Each frontier that a session hands to the index, and the one that is stored at any of its moments.
theorem Session.validates {databaseUuid : Uuid} {base : UserMap} {past : List Attempt} {c : CommitCoordinator}
    (session : Session databaseUuid base past c) :
    (∀ event ∈ c.log.storage.trace, ∀ sent : DurableFrontier, event.Sends sent →
      ValidatesBoundary c.log.storage.vlog sent) ∧
    ∃ stored, FrontierStored c.log.storage.index stored ∧ ValidatesBoundary c.log.storage.vlog stored := by
  obtain ⟨grounded,-⟩ := session.journaled
  refine ⟨?_,?_⟩
  · rintro event member sent ⟨batch,mode,encoded,rfl,put,decoded⟩
    obtain ⟨later,earlier,handed⟩ := List.mem_iff_append.mp member
    have grown := session.ordered.grown
    rw [handed] at grown
    obtain ⟨frontier,same,promised⟩ := (grown.fits batch mode rfl).promised encoded put
    obtain rfl := Except.ok.inj (same.symm.trans decoded)
    exact promised.boundary.validates
  · obtain ⟨frontier,stored,boundary⟩ := grounded.stored
    exact ⟨frontier,stored,boundary.validates⟩

theorem RecoveryPlan.Anchored.validates {plan : RecoveryPlan} {final : Storage} (anchored : plan.Anchored final) :
    ∃ stored, FrontierStored final.index stored ∧ ValidatesBoundary final.vlog stored := by
  obtain ⟨frontier,-,stored,boundary⟩ := anchored
  exact ⟨frontier,stored,boundary.validates⟩

-- The search from the end inverts the writing of an envelope, what it finds is an envelope that ends there, and so every
-- frontier that a commit or a recovery stores passes the check.
theorem stable_boundary_inverts :
    (∀ (position : VLogPosition) (databaseUuid txUuid : Uuid) (commitSeq : Nat) (operations : List LogicalOperation)
      (envelope : PreparedEnvelope) (next : LayoutPlanner), AppendPosition position → commitSeq < 18446744073709551616 →
      prepareEnvelope ⟨production,position⟩ databaseUuid commitSeq txUuid operations = .ok (envelope,next) →
      ∀ files : FileSet, files.geometry = production → files.databaseUuid = databaseUuid →
        (∀ chunk ∈ envelope.chunks, Holds files chunk) →
        ∃ read, readRecoveryEnvelope files envelope.vlogBegin envelope.vlogEnd (some envelope.envelopeCrc32c) = .ok read ∧
          readStableEnvelopeFromEnd files envelope.vlogEnd = .ok read) ∧
    (∀ (files : FileSet) (vlogEnd : VLogPosition) (read : RecoveryEnvelope),
      readStableEnvelopeFromEnd files vlogEnd = .ok read → ∃ chunks records begin operations footer,
        StableRead files vlogEnd read chunks records begin operations footer) ∧
    (∀ (databaseUuid : Uuid) (base : UserMap) (past : List Attempt) (c : CommitCoordinator),
      Session databaseUuid base past c →
      (∀ event ∈ c.log.storage.trace, ∀ sent : DurableFrontier, event.Sends sent →
        ValidatesBoundary c.log.storage.vlog sent) ∧
      ∃ stored, FrontierStored c.log.storage.index stored ∧ ValidatesBoundary c.log.storage.vlog stored) ∧
    ∀ (format : FormatMetadata) (inventory : ManagedInventory) (start ready : Storage) (plan : RecoveryPlan),
      analyzeRecovery format inventory start = .ok plan ready →
      Delivers (executeRecovery format plan) ready
        (fun _ final => ∃ stored, FrontierStored final.index stored ∧ ValidatesBoundary final.vlog stored)
        (fun _ final => ∃ stored, FrontierStored final.index stored ∧ ValidatesBoundary final.vlog stored) := by
  refine ⟨?_,?_,fun _ _ _ _ session => session.validates,?_⟩
  · intro position databaseUuid txUuid commitSeq operations envelope next reached seq prepared files geometry identity held
    exact prepareEnvelope_located reached seq prepared geometry identity held
  · intro files vlogEnd read found
    exact readStableEnvelopeFromEnd_sound found
  · intro format inventory start ready plan analyzed
    obtain ⟨drawn,asked,geometry,boundary⟩ := analyzeRecovery_anchored analyzed
    exact (executeRecovery_anchored drawn asked geometry boundary format).mono
      (fun _ _ anchored => anchored.validates) (fun _ _ anchored => anchored.validates)

end validating

-- The frontier of a synced put.
theorem stable_boundary_inverts_put : ∃ c, firstInstance [.nonempty (onePut 1 2 false),.nonempty (onePut 3 4 true)] = some c ∧
    @ValidatesBoundary castagnoli c.log.storage.vlog ⟨2,2,some ⟨0,542⟩⟩ := by
  obtain ⟨c,later,batch,earlier,encoded,answered,handed,promised,decoded⟩ := syncedPut_sends
  have sent := ((@stable_boundary_inverts castagnoli).2.2.1 _ _ _ c (firstInstance_session answered)).1
  exact ⟨c,answered,sent _ (by rw [handed]; simp) _ ⟨batch,.syncAll,encoded,rfl,promised,decoded⟩⟩

end ExpirKv
