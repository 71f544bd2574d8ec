import ExpirKv.Commit.Durability
import ExpirKv.Recovery.Execute
import ExpirKv.Recovery.UndoFacts

namespace ExpirKv
open Storage

section pushes

theorem putHead_valid (headSeq : Nat) :
    validateOrdinaryMutation (.putInternal .system headSeqKey (encodeHeadSeq headSeq)) = .ok () :=
  putSystem_valid (by decide) (by decide) (by simp [encodeHeadSeq,leBytes])

variable [Crc32c]

theorem putRecoveryState_valid {state : RecoveryState} {encoded : Bytes} (encodes : state.encode = .ok encoded) :
    validateOrdinaryMutation (.putInternal .system recoveryStateKey encoded) = .ok () :=
  putSystem_valid (by decide) (by decide) (RecoveryState.encode_present encodes)

end pushes

section batches
variable [Crc32c] {state : RecoveryState} {frontier : DurableFrontier} {headSeq : Nat}

-- Every batch of the executor but the undo ones puts system entries.
def systemPuts (entries : List (Bytes × Bytes)) : IndexAtomicBatch :=
  entries.map (fun entry => .putInternal .system entry.1 entry.2)

omit [Crc32c] in
theorem systemPuts_writes (entries : List (Bytes × Bytes)) :
    (systemPuts entries).Writes [] [] (entries.map (fun entry => (entry.1,some entry.2))) := by
  simp [IndexAtomicBatch.Writes,systemPuts,IndexMutation.write,place]

theorem recoveryStateBatch_ok {batch : IndexAtomicBatch} :
    recoveryStateBatch state = .ok batch ↔
      ∃ encoded, state.encode = .ok encoded ∧ batch = systemPuts [(recoveryStateKey,encoded)] := by
  simp only [recoveryStateBatch,bind_ok,mapError_ok]
  constructor
  · rintro ⟨encoded,encodes,pushed⟩
    rw [pushRecovery_eq (putRecoveryState_valid encodes)] at pushed
    exact ⟨encoded,encodes,(Except.ok.inj pushed).symm⟩
  · rintro ⟨encoded,encodes,rfl⟩
    exact ⟨encoded,encodes,pushRecovery_eq (putRecoveryState_valid encodes)⟩

-- The entries of the batch that moves head and frontier to the target.
def targetEntries (headSeq : Nat) (encodedFrontier : Bytes) (encodedState : Option Bytes) : List (Bytes × Bytes) :=
  [(headSeqKey,encodeHeadSeq headSeq),(durableFrontierKey,encodedFrontier)] ++
    encodedState.toList.map (fun encoded => (recoveryStateKey,encoded))

theorem targetFrontierBatch_ok {recoveryState : Option RecoveryState} {batch : IndexAtomicBatch} :
    targetFrontierBatch headSeq frontier recoveryState = .ok batch ↔
      headSeq = frontier.durableSeq ∧ ∃ encoded, frontier.encode = .ok encoded ∧
        ∃ stored, recoveryState.mapM RecoveryState.encode = .ok stored ∧
          batch = systemPuts (targetEntries headSeq encoded stored) := by
  simp only [targetFrontierBatch,bind_ok,exists_unit,rejectIf_ok,mapError_ok,not_not,ne_eq,
    pushRecovery_eq (putHead_valid headSeq),Except.ok.injEq,exists_eq_left']
  refine and_congr_right (fun _ => ?_)
  constructor
  · rintro ⟨encoded,encodes,batch',pushed,rest⟩
    rw [pushRecovery_eq (putFrontier_valid encodes)] at pushed
    obtain rfl := Except.ok.inj pushed
    refine ⟨encoded,encodes,?_⟩
    cases recoveryState with
    | none => exact ⟨none,rfl,(Except.ok.inj rest).symm⟩
    | some state =>
      simp only [pushRecoveryState,bind_ok,mapError_ok] at rest
      obtain ⟨bytes,stores,pushed⟩ := rest
      rw [pushRecovery_eq (putRecoveryState_valid stores)] at pushed
      exact ⟨some bytes,by simp [stores],(Except.ok.inj pushed).symm⟩
  · rintro ⟨encoded,encodes,stored,stores,rfl⟩
    refine ⟨encoded,encodes,_,pushRecovery_eq (putFrontier_valid encodes),?_⟩
    cases recoveryState with
    | none =>
      obtain rfl := Except.ok.inj stores
      rfl
    | some state =>
      cases encoding : state.encode with
      | error error => simp [encoding] at stores
      | ok bytes =>
        obtain rfl : some bytes = stored := by simpa [encoding] using stores
        simp only [pushRecoveryState,encoding,Except.mapError,ok_bind]
        exact pushRecovery_eq (putRecoveryState_valid encoding)

omit [Crc32c] in
theorem systemPuts_ordinary {entries : List (Bytes × Bytes)} (present : entries ≠ [])
    (valid : ∀ entry ∈ entries, validateOrdinaryMutation (.putInternal .system entry.1 entry.2) = .ok ()) :
    (systemPuts entries).Ordinary := by
  refine ⟨by simpa [systemPuts] using present,?_⟩
  intro mutation member
  obtain ⟨entry,there,rfl⟩ := List.mem_map.mp member
  exact valid entry there

theorem recoveryStateBatch_ordinary {encoded : Bytes} (encodes : state.encode = .ok encoded) :
    (systemPuts [(recoveryStateKey,encoded)]).Ordinary := by
  refine systemPuts_ordinary (by simp) ?_
  intro entry member
  obtain rfl := List.mem_singleton.mp member
  exact putRecoveryState_valid encodes

theorem targetEntries_ordinary {encoded : Bytes} {recoveryState : Option RecoveryState} {stored : Option Bytes}
    (encodes : frontier.encode = .ok encoded) (stores : recoveryState.mapM RecoveryState.encode = .ok stored) :
    (systemPuts (targetEntries headSeq encoded stored)).Ordinary := by
  refine systemPuts_ordinary (by simp [targetEntries]) ?_
  intro entry member
  simp only [targetEntries,List.cons_append,List.nil_append,List.mem_cons,List.mem_map,Option.mem_toList] at member
  rcases member with rfl | rfl | ⟨bytes,rfl,rfl⟩
  · exact putHead_valid headSeq
  · exact putFrontier_valid encodes
  · cases recoveryState with
    | none => cases stores
    | some state =>
      cases encoding : state.encode with
      | error error => simp [encoding] at stores
      | ok other =>
        obtain rfl : other = bytes := by simpa [encoding] using stores
        exact putRecoveryState_valid encoding

omit [Crc32c] in
theorem deleteRecoveryStateBatch_ok :
    deleteRecoveryStateBatch = .ok [.deleteInternal .system recoveryStateKey] ∧
      IndexAtomicBatch.Ordinary [.deleteInternal .system recoveryStateKey] := by
  have valid : validateOrdinaryMutation (.deleteInternal .system recoveryStateKey) = .ok () := by decide
  refine ⟨pushRecovery_eq valid,by simp,?_⟩
  intro mutation member
  obtain rfl := List.mem_singleton.mp member
  exact valid

theorem commitBuilt_honest {storage : Storage} {built : Result IndexAtomicBatch} {batch : IndexAtomicBatch}
    (honest : storage.Honest) (same : built = .ok batch) (ordinary : batch.Ordinary)
    (identified : storage.index.system[databaseIdentityKey]? ≠ none) :
    commitBuilt built storage = .ok () (storage.committed batch .syncAll) := by
  have run : Delivers (commitBuilt built) storage (fun _ reached => reached = storage.committed batch .syncAll)
      (fun _ _ => False) := by
    rw [same,commitBuilt]
    refine delivers_bind.mpr (delivers_lift.mpr ⟨?_,fun _ failed => by cases failed⟩)
    intro found again
    obtain rfl := Except.ok.inj again
    simp only [commitRecoveryBatch,delivers_mapError]
    rw [delivers_commitAtomic_honest honest ordinary identified]
  obtain ⟨_,reached,ran,rfl⟩ := run.returns
  exact ran

end batches

end ExpirKv
