import ExpirKv.Commit.Verdicts
import ExpirKv.Lifecycle.Lineage

namespace ExpirKv
open VLogGeometry Storage CommitCoordinator

section stopping
variable [Crc32c] {start c : CommitCoordinator} {past : List Attempt}

-- A stopped instance turns every request down.
theorem commit_refused (stopped : c.runtime.state.instanceState ≠ .healthy) (request : WriteRequest)
    (around : Surroundings) : commit request around c =
      .error (.failed (admissionError request.operation c.runtime.state.instanceState)) c := by
  have starts : ∀ {operation : Operation} (rest : Unit → Eff CommitCoordinator Halt Unit),
      (startRequest operation >>= rest) c =
        .error (.failed (admissionError operation c.runtime.state.instanceState)) c := by
    intro operation rest
    have refused : startRequest operation c =
        .error (.failed (admissionError operation c.runtime.state.instanceState)) c := by
      unfold startRequest
      simp only [bind,EStateM.bind,get,getThe,MonadStateOf.get,EStateM.get]
      rw [if_pos (.inl stopped)]
      rfl
    simp only [bind,EStateM.bind,refused]
  cases request with
  | nonempty write => exact starts _
  | empty sync => exact starts _

theorem LiveRun.stopped (stopped : start.runtime.state.instanceState ≠ .healthy) (run : LiveRun start past c) :
    c.runtime.state.instanceState ≠ .healthy := by
  induction run with
  | start => exact stopped
  | @answered _ _ _ request around _ ran ih =>
    rw [commit_refused ih request around] at ran
    cases ran
  | @failed _ _ _ request around _ _ ran ih =>
    rw [commit_refused ih request around] at ran
    cases ran
    exact ih
  | elsewhere _ later ih => exact fun healthy => ih (later.healthy healthy)
  | cleaned _ _ ih => exact ih
  | facing _ _ ih => exact ih

end stopping

section outcomes
variable [Crc32c] {databaseUuid : Uuid} {known held : List Transaction} {acknowledged confirmed : Nat}
  {start final : Storage} {inventory : ManagedInventory} {opened c next : CommitCoordinator} {request : WriteRequest}
  {around : Surroundings} {halt : Halt} {mark : Mark} {late : List Attempt}

-- What the index took of a request is nothing or one transaction with all of its operations.
theorem RequestOutcome.takes {ended : Option Halt} (outcome : RequestOutcome c request around next ended) :
    newlyTaken request c.log.storage.trace next.log.storage.trace = [] ∨
      ∃ txMeta, newlyTaken request c.log.storage.trace next.log.storage.trace = [⟨txMeta,request.operations⟩] := by
  rcases outcome.took with ⟨-,same,-⟩ | ⟨_,_,_,_,_,-,submits,-,-,-,taken,-⟩
  · rw [newlyTaken,same,List.drop_length]
    exact .inl rfl
  · rw [newlyTaken,taken,List.drop_left]
    rcases submits.single with ⟨none,-⟩ | ⟨_,txMeta,-,single,-⟩
    · rw [none]
      exact .inl rfl
    · rw [single]
      exact .inr ⟨txMeta,rfl⟩

-- A call that reports that nothing of it is there is right.
theorem RequestOutcome.refuses {error : StorageError}
    (outcome : RequestOutcome c request around next (some (.failed error))) (refuses : error.Refuses) :
    next.log.storage.index = c.log.storage.index ∧
      newlyTaken request c.log.storage.trace next.log.storage.trace = [] := by
  rcases outcome.took with ⟨index,same,-⟩ | ⟨_,_,_,_,_,-,-,-,-,-,-,doubt,-⟩
  · rw [newlyTaken,same,List.drop_length]
    exact ⟨index,rfl⟩
  · obtain ⟨_,⟨⟩,unknown⟩ := doubt _ rfl
    rw [refuses] at unknown
    cases unknown

end outcomes

end ExpirKv
