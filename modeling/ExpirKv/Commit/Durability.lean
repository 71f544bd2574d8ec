import ExpirKv.Commit.Protocol

namespace ExpirKv

def remapConstruction (kind : StorageErrorKind) (operation : Operation) : StorageError :=
  .writePreflight kind operation
    (if kind = .resourceExhausted then .retrySameInstance else .fixRequestAndRetrySameInstance)

section frontier
variable [Crc32c]

-- `allocated` is false when a copy or the push finds no memory.
def addFrontierToBatch (batch : IndexAtomicBatch) (frontier : DurableFrontier) (operation : Operation)
    (allocated : Bool) : Result IndexAtomicBatch := do
  let encoded ← frontier.encode.mapError (fun error => remapConstruction error.kind operation)
  rejectIf (allocated = false) (resourceExhausted operation)
  (batch.tryPush (.putInternal .system durableFrontierKey encoded)).mapError
    (fun error => remapConstruction error.kind operation)

def frontierOnlyBatch (frontier : DurableFrontier) (operation : Operation) (reserved allocated : Bool) :
    Result IndexAtomicBatch := do
  rejectIf (reserved = false) (remapConstruction .resourceExhausted operation)
  addFrontierToBatch [] frontier operation allocated

end frontier

section pushes

theorem putSystem_valid {key value : Bytes} (named : key ≠ []) (other : key ≠ databaseIdentityKey) (present : value ≠ []) :
    validateOrdinaryMutation (.putInternal .system key value) = .ok () := by
  simp [validateOrdinaryMutation,isDatabaseIdentityKey,named,other,present]

theorem IndexAtomicBatch.Writes.putSystem {batch : IndexAtomicBatch} {users transactions systems : List (Bytes × Option Bytes)}
    (writes : batch.Writes users transactions systems) (key value : Bytes) :
    (batch ++ [.putInternal .system key value] : IndexAtomicBatch).Writes users transactions
      (systems ++ [(key,some value)]) := by
  unfold IndexAtomicBatch.Writes at writes ⊢
  rw [List.map_append,writes]
  simp [place,IndexMutation.write]

variable [Crc32c]

theorem DurableFrontier.encode_present {frontier : DurableFrontier} {encoded : Bytes}
    (encodes : frontier.encode = .ok encoded) : encoded ≠ [] := by
  rintro rfl
  simp [encode,appendCrc,durableFrontierMagic] at encodes

theorem putFrontier_valid {frontier : DurableFrontier} {encoded : Bytes} (encodes : frontier.encode = .ok encoded) :
    validateOrdinaryMutation (.putInternal .system durableFrontierKey encoded) = .ok () :=
  putSystem_valid (by decide) (by decide) (DurableFrontier.encode_present encodes)

-- The entry is pushed as it is, or nothing is.
theorem addFrontierToBatch_ok {batch result : IndexAtomicBatch} {frontier : DurableFrontier} {operation : Operation}
    {allocated : Bool} :
    addFrontierToBatch batch frontier operation allocated = .ok result ↔
      allocated = true ∧ ∃ encoded, frontier.encode = .ok encoded ∧
        result = batch ++ [.putInternal .system durableFrontierKey encoded] := by
  simp only [addFrontierToBatch,bind_ok,exists_unit,mapError_ok,rejectIf_ok,Bool.not_eq_false,
    IndexAtomicBatch.tryPush,pure_ok,Except.ok.injEq]
  constructor
  · rintro ⟨encoded,encodes,room,-,rfl⟩
    exact ⟨room,encoded,encodes,rfl⟩
  · rintro ⟨room,encoded,encodes,rfl⟩
    exact ⟨encoded,encodes,room,putFrontier_valid encodes,rfl⟩

theorem frontierOnlyBatch_ok {result : IndexAtomicBatch} {frontier : DurableFrontier} {operation : Operation}
    {reserved allocated : Bool} :
    frontierOnlyBatch frontier operation reserved allocated = .ok result ↔
      reserved = true ∧ allocated = true ∧ ∃ encoded, frontier.encode = .ok encoded ∧
        result = [.putInternal .system durableFrontierKey encoded] := by
  simp only [frontierOnlyBatch,bind_ok,exists_unit,rejectIf_ok,Bool.not_eq_false,addFrontierToBatch_ok,List.nil_append]

end pushes

end ExpirKv
