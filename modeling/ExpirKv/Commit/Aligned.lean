import ExpirKv.Commit.CoordinatorOutcome
import ExpirKv.Vlog.AppendReady
import ExpirKv.Vlog.Atomic

namespace ExpirKv
open VLogGeometry Storage ValueLog CommitCoordinator

namespace VLogPosition

-- Positions in order as numbers. An offset is never above the size of a file.
def linear (position : VLogPosition) : Nat := position.fileId * 4294967297 + position.offset

theorem linear_lt {one other : VLogPosition} (bound : one.offset ≤ 4294967296) (before : one < other) :
    one.linear < other.linear := by
  rcases before with earlier | ⟨same,earlier⟩
  · simp only [linear]
    have rounds : (one.fileId + 1) * 4294967297 ≤ other.fileId * 4294967297 := Nat.mul_le_mul_right _ earlier
    omega
  · simp only [linear,same]
    omega

end VLogPosition

-- How the writer stands when the log ends with the envelope of `vlogSeq` and the index promises `durable`.
structure Aligned (writer : ValueLogWriter) (durable : DurableFrontier) (vlogSeq : Nat) (vlogEnd : Option VLogPosition) :
    Prop where
  matched : vlogEndMatches vlogSeq vlogEnd = true
  position : writer.position = vlogEnd.getD ⟨0,0⟩
  idle : writer.pendingSyncId = none
  healthy : writer.appendFailed = false
  turned : writer.Turned
  last : (writer.lastAppended = none ∧ vlogSeq = durable.durableVlogSeq ∧ vlogEnd = durable.durableVlogEnd ∧
      writer.dirty.dirtyFiles.isEmpty = true ∧ writer.dirty.pendingDirectoryEntries.isEmpty = true) ∨
    ∃ stop, vlogEnd = some stop ∧ writer.lastAppended = some ⟨vlogSeq,stop⟩
  entries : ∀ (fileId seq : Nat), writer.dirty.pendingDirectoryEntries[fileId]? = some seq → seq ≤ vlogSeq
  covered : durable.durableVlogSeq ≤ vlogSeq
  counter : writer.nextSyncId ≤ 1 + (durable.durableVlogEnd.getD ⟨0,0⟩).linear
  behind : (durable.durableVlogEnd.getD ⟨0,0⟩).linear ≤ (vlogEnd.getD ⟨0,0⟩).linear
  further : durable.durableVlogSeq < vlogSeq →
    (durable.durableVlogEnd.getD ⟨0,0⟩).linear < (vlogEnd.getD ⟨0,0⟩).linear

section phases
variable {log after : ValueLog} {durable : DurableFrontier} {vlogSeq : Nat} {vlogEnd : Option VLogPosition}
  {envelope : PreparedEnvelope}

-- The envelope of a later transaction goes behind everything.
theorem Aligned.appended (aligned : Aligned log.writer durable vlogSeq vlogEnd) (ready : WriterReady log.writer)
    (appended : Appended log after envelope) (turned : after.writer.Turned) (later : vlogSeq < envelope.commitSeq)
    (forward : envelope.vlogBegin < envelope.vlogEnd) (placeable : Placeable envelope.vlogEnd) :
    Aligned after.writer durable envelope.commitSeq (some envelope.vlogEnd) := by
  obtain ⟨last,frame⟩ := appended.frame
  have rises : (vlogEnd.getD ⟨0,0⟩).linear < envelope.vlogEnd.linear := by
    rw [←aligned.position,←appended.begins]
    refine VLogPosition.linear_lt ?_ forward
    rw [appended.begins]
    exact (ready.placeable aligned.healthy).good.2.1
  have behind := Nat.lt_of_le_of_lt aligned.behind rises
  refine ⟨?_,appended.position,frame.pendingSyncId.trans aligned.idle,frame.appendFailed.trans aligned.healthy,turned,
    .inr ⟨_,rfl,appended.last⟩,?_,?_,?_,Nat.le_of_lt behind,fun _ => behind⟩
  · have valid := VLogPosition.isValid_iff.mpr ⟨placeable.good.1,placeable.good.2.1⟩
    simp only [vlogEndMatches,valid,Bool.and_true,bne_iff_ne]
    omega
  · intro fileId seq found
    rcases frame.entries fileId seq found with found | same
    · exact Nat.le_of_lt (Nat.lt_of_le_of_lt (aligned.entries fileId seq found) later)
    · exact Nat.le_of_eq same
  · exact Nat.le_of_lt (Nat.lt_of_le_of_lt aligned.covered later)
  · have same : after.writer.nextSyncId = log.writer.nextSyncId := frame.nextSyncId
    rw [same]
    exact aligned.counter

theorem checkSyncTarget_position {writer : ValueLogWriter} {targetSeq : Nat} (started : 0 < targetSeq)
    (geometry : writer.geometry = production) (placeable : Placeable writer.position) (opened : writer.state ≠ .empty) :
    checkSyncTarget writer targetSeq (some writer.position) = .ok () := by
  cases targetSeq with
  | zero => exact absurd started (Nat.lt_irrefl 0)
  | succ seq =>
    simp only [checkSyncTarget]
    rw [geometry,fromPosition_placeable placeable]
    exact rejectIf_false (by simp [opened])

-- A sync that is due finds everything as it asks for it.
theorem Aligned.syncReady (aligned : Aligned log.writer durable vlogSeq vlogEnd) (ready : WriterReady log.writer)
    (due : durable.durableVlogSeq < vlogSeq) :
    SyncReady log.writer vlogSeq vlogEnd ∧ log.writer.nextSyncId + 1 < 18446744073709551616 := by
  have placeable := ready.placeable aligned.healthy
  have further := aligned.further due
  cases vlogEnd with
  | none =>
    have matched := aligned.matched
    simp only [vlogEndMatches,beq_iff_eq] at matched
    omega
  | some stop =>
    have here : log.writer.position = stop := aligned.position
    simp only [Option.getD_some] at further
    refine ⟨⟨aligned.healthy,aligned.idle,?_,?_,?_⟩,?_⟩
    · rw [←here]
      refine checkSyncTarget_position (Nat.zero_lt_of_lt due) ready.geometry placeable ?_
      intro empty
      rw [←here,ValueLogWriter.position,empty] at further
      simp [statePosition,VLogPosition.linear] at further
    · intro appended found
      rcases aligned.last with ⟨none,-⟩ | ⟨_,same,known⟩
      · rw [none] at found
        cases found
      · rw [known] at found
        obtain rfl := Option.some.inj found
        exact ⟨rfl,same⟩
    · intro fileId entry member
      exact aligned.entries fileId entry (Std.ExtTreeMap.mem_toList_iff_getElem?_eq_some.mp member)
    · have bound := placeable.good
      rw [here] at bound
      have counter := aligned.counter
      simp only [VLogPosition.linear] at further counter
      have files := Nat.mul_le_mul_right 4294967297 bound.1
      have offset := bound.2.1
      omega

-- A frontier at the end of the log, with the token of its sync taken back.
theorem Aligned.settled (aligned : Aligned log.writer durable vlogSeq vlogEnd) {needed : Bool}
    {token : Option FrontierSync} {synced : ValueLog} (reached : TargetSynced log vlogSeq vlogEnd needed token synced)
    (due : needed = true → durable.durableVlogSeq < vlogSeq) (durableSeq : Nat) :
    Aligned (log.writer.settled token) ⟨durableSeq,vlogSeq,vlogEnd⟩ vlogSeq vlogEnd := by
  cases reached with
  | needless =>
    refine ⟨aligned.matched,aligned.position,aligned.idle,aligned.healthy,aligned.turned,?_,aligned.entries,Nat.le_refl _,
      ?_,Nat.le_refl _,fun no => absurd no (Nat.lt_irrefl _)⟩
    · exact aligned.last.imp (fun fresh => ⟨fresh.1,rfl,rfl,fresh.2.2.2⟩) id
    · exact Nat.le_trans aligned.counter (Nat.add_le_add_left aligned.behind 1)
  | through through =>
    have below := due rfl
    refine ⟨aligned.matched,aligned.position,aligned.idle,aligned.healthy,aligned.turned,?_,?_,Nat.le_refl _,?_,
      Nat.le_refl _,fun no => absurd no (Nat.lt_irrefl _)⟩
    · rcases aligned.last with ⟨-,same,-⟩ | appended
      · omega
      · exact .inr appended
    · intro fileId seq found
      simp only [ValueLogWriter.settled,getElem?_foldl_erase] at found
      split at found
      · cases found
      · exact aligned.entries fileId seq found
    · have counter := aligned.counter
      have further := aligned.further below
      simp only [ValueLogWriter.settled]
      omega

end phases

end ExpirKv
