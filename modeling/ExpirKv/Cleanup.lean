import ExpirKv.Recovery.Descriptors

namespace ExpirKv

def retryAdviceFor : StorageErrorKind → RetryAdvice
  | .invalidArgument => .fixRequestAndRetrySameInstance
  | .busy | .resourceExhausted => .retrySameInstance
  | .io => .fixEnvironmentAndReopen
  | .storagePoisoned => .reopenAndVerify
  | .incompatibleFormat => .doNotRetry
  | .corruption | .invalidLayout | .unrecoverable => .restoreOrRepair
  | _ => .doNotRetry

def backgroundIndexError (error : StorageError) : StorageError :=
  {error with
    operation := .background
    protocolStage := .maintenance
    writeOutcome := none
    instanceState := none
    retryAdvice := match error.kind with
      | .busy | .resourceExhausted => .retrySameInstance
      | _ => error.retryAdvice}

def backgroundInternalIndexError (error : InternalIndexError) : StorageError :=
  {(StorageError.codecError error.kind .background .maintenance none (retryAdviceFor error.kind)) with
    osCode := error.osCode}

def backgroundCleanupCommitError (error : IndexCommitError) : StorageError :=
  let mapped := backgroundInternalIndexError error.source
  match error.applyState,mapped.kind with
  | .unknown,_ => {mapped with retryAdvice := .reopenAndVerify}
  | .notApplied,.busy | .notApplied,.resourceExhausted => {mapped with retryAdvice := .retrySameInstance}
  | .notApplied,.io => {mapped with retryAdvice := .reopenAndVerify}
  | .notApplied,_ => mapped

def backgroundCorruption : StorageError :=
  .codecError .corruption .background .maintenance none .restoreOrRepair

def backgroundResourceExhausted : StorageError :=
  .codecError .resourceExhausted .background .maintenance none .retrySameInstance

-- Who put a batch into the index.
inductive Origin where
  | writer
  | cleanup
  deriving DecidableEq, Repr

-- The index beside a background worker. Before each of the worker's calls the batches of the
-- schedule get in, then the call is answered; `history` has what landed, oldest first.
structure SharedIndex where
  index : Index
  schedule : List (List IndexAtomicBatch × Answer)
  stopAfter : Option Nat
  stopSeen : Bool
  history : List (Origin × IndexAtomicBatch)

namespace SharedIndex

def land (origin : Origin) (world : SharedIndex) (batch : IndexAtomicBatch) : SharedIndex :=
  {world with index := world.index.apply batch,history := world.history ++ [(origin,batch)]}

def overtake (world : SharedIndex) : SharedIndex :=
  (world.schedule.headD ([],.fine)).1.foldl (land .writer) {world with schedule := world.schedule.tail}

def turn {ε : Type} : Eff SharedIndex ε Answer := fun world =>
  .ok (world.schedule.headD ([],.fine)).2 world.overtake

def reading {α : Type} (answer : Index → α) : Eff SharedIndex StorageError α := do
  match ← turn with
  | .refused error => throw error
  | _ => return answer (← get).index

def getInternal (space : InternalIndexSpace) (key : Bytes) : Eff SharedIndex StorageError (Option Bytes) :=
  reading (fun index => (index.keyspace (.internal space))[key]?)

-- The iterator reads a snapshot of the moment it was opened at.
def scanInternal (space : InternalIndexSpace) (range : KeyRange) : Eff SharedIndex StorageError (List (Bytes × Bytes)) :=
  reading (fun index => (index.keyspace (.internal space)).scan range)

-- `try_reserve`: an allocation has no effect but may fail.
def reserve : Eff SharedIndex StorageError Unit := (reading (fun _ => ())).mapError (fun _ => backgroundResourceExhausted)

section
variable [Crc32c]

def commitAtomic (batch : IndexAtomicBatch) : Eff SharedIndex IndexCommitError Unit := do
  let fault := Storage.commitFault (← turn)
  let world ← get
  let committed := world.index.commitAtomic batch .buffer fault
  set {world with
    index := committed.2
    history := match Storage.landedMode committed.1 fault .buffer with
      | some _ => world.history ++ [(Origin.cleanup,batch)]
      | none => world.history}
  Eff.lift committed.1

end

-- `stop.load`: once set the flag stays set.
def stopRequested {ε : Type} : Eff SharedIndex ε Bool := fun world =>
  match world.stopAfter with
  | none => .ok false world
  | some 0 => .ok true {world with stopSeen := true}
  | some (count + 1) => .ok false {world with stopAfter := some count}

end SharedIndex

@[simp] abbrev cleanupMaxKeysPerBatch : Nat := 1024
@[simp] abbrev cleanupMaxEncodedKeyBytes : Nat := 1048576

structure DescriptorCleanupProgress where
  capturedDurableSeq : Nat := 0
  deletedMutations : Nat := 0
  deletedMeta : Nat := 0
  committedBatches : Nat := 0
  blockedByRecovery : Bool := false
  deriving DecidableEq, Repr

inductive CleanupKeyKind where
  | metadata
  | mutation (ordinal : Nat)
  deriving DecidableEq, Repr

def decodeCleanupKey (key : Bytes) : Result (Nat × CleanupKeyKind) :=
  if key.length = txMetaKeyEncodedLen then
    ((decodeTxMetaKey key).map (fun commitSeq => (commitSeq,.metadata))).mapError backgroundIndexError
  else if key.length = txMutationKeyEncodedLen then
    ((decodeTxMutationKey key).map (fun decoded => (decoded.1,.mutation decoded.2))).mapError backgroundIndexError
  else .error backgroundCorruption

def stableDescriptorRange (capturedDurableSeq : Nat) : Result KeyRange :=
  if capturedDurableSeq + 1 < 18446744073709551616 then do
    let key ← (encodeTxMetaKey (capturedDurableSeq + 1)).mapError backgroundIndexError
    return ⟨none,some (key.take 10)⟩
  else return ⟨none,none⟩

def checkedAdd (left right : Nat) : Result Nat := do
  rejectIf (left + right ≥ 18446744073709551616) backgroundResourceExhausted
  return left + right

def DescriptorCleanupProgress.countKeys (progress : DescriptorCleanupProgress) (keyCount : Nat) :
    Bool → Result DescriptorCleanupProgress
  | true => do
    let deletedMeta ← checkedAdd progress.deletedMeta keyCount
    return {progress with deletedMeta}
  | false => do
    let deletedMutations ← checkedAdd progress.deletedMutations keyCount
    return {progress with deletedMutations}

def DescriptorCleanupProgress.count (progress : DescriptorCleanupProgress) (keyCount : Nat) (deletingMeta : Bool) :
    Result DescriptorCleanupProgress := do
  let progress ← progress.countKeys keyCount deletingMeta
  let committedBatches ← checkedAdd progress.committedBatches 1
  return {progress with committedBatches}

def cleanupBatch (keys : List Bytes) : Result IndexAtomicBatch :=
  keys.foldlM (fun batch key =>
    (batch.tryPush (.deleteInternal .transaction key)).mapError backgroundInternalIndexError) []

-- The variables of the loop.
structure CleanupState where
  currentSeq : Option Nat
  metaKey : Option Bytes
  sawMutation : Bool
  lastOrdinal : Option Nat
  pendingMutations : List Bytes
  pendingKeyBytes : Nat
  progress : DescriptorCleanupProgress
  deriving DecidableEq, Repr

def CleanupState.start (progress : DescriptorCleanupProgress) : CleanupState := ⟨none,none,false,none,[],0,progress⟩

section cleanup
open SharedIndex
variable [Crc32c]

-- `none` when nothing was drained.
def commitCleanupKeys (keys : List Bytes) (deletingMeta : Bool) (progress : DescriptorCleanupProgress) :
    Eff SharedIndex StorageError (Option DescriptorCleanupProgress) := do
  if keys.isEmpty then return none
  else if ← stopRequested then return none
  else do
    reserve
    let batch ← Eff.lift (cleanupBatch keys)
    (commitAtomic batch).mapError backgroundCleanupCommitError
    let progress ← Eff.lift (progress.count keys.length deletingMeta)
    return some progress

def commitPending (state : CleanupState) : Eff SharedIndex StorageError CleanupState := do
  match ← commitCleanupKeys state.pendingMutations false state.progress with
  | none => return state
  | some progress => return {state with pendingMutations := [],pendingKeyBytes := 0,progress}

def deleteMeta (state : CleanupState) : Eff SharedIndex StorageError CleanupState :=
  match state.metaKey with
  | none => return state
  | some key => do
    reserve
    match ← commitCleanupKeys [key] true state.progress with
    | none => return {state with metaKey := none}
    | some progress => return {state with metaKey := none,progress}

def flushCleanupTransaction (state : CleanupState) : Eff SharedIndex StorageError CleanupState := do
  let state ← commitPending state
  if ← stopRequested then return state
  else deleteMeta state

-- A new sequence flushes the one before; the flag tells whether to return.
def leaveTransaction (state : CleanupState) (commitSeq : Nat) : Eff SharedIndex StorageError (Bool × CleanupState) := do
  if state.currentSeq.any (fun current => current != commitSeq) then do
    let state ← flushCleanupTransaction state
    if ← stopRequested then return (true,state)
    else return (false,{state with sawMutation := false,lastOrdinal := none})
  else return (false,state)

def takeMeta (state : CleanupState) (key : Bytes) : Eff SharedIndex StorageError CleanupState := do
  Eff.lift (rejectIf (state.sawMutation = true ∨ state.metaKey.isSome) backgroundCorruption)
  return {state with metaKey := some key}

def takeMutation (state : CleanupState) (key : Bytes) (ordinal : Nat) : Eff SharedIndex StorageError CleanupState := do
  Eff.lift (rejectIf (state.lastOrdinal.any (fun previous => decide (previous ≥ ordinal)) = true) backgroundCorruption)
  let pendingKeyBytes ← Eff.lift (checkedAdd state.pendingKeyBytes key.length)
  reserve
  let state : CleanupState := {state with
    lastOrdinal := some ordinal
    sawMutation := true
    pendingKeyBytes
    pendingMutations := state.pendingMutations ++ [key]}
  if state.pendingMutations.length ≥ cleanupMaxKeysPerBatch ∨ state.pendingKeyBytes ≥ cleanupMaxEncodedKeyBytes then
    commitPending state
  else return state

def takeEntry (state : CleanupState) (key : Bytes) : CleanupKeyKind → Eff SharedIndex StorageError CleanupState
  | .metadata => takeMeta state key
  | .mutation ordinal => takeMutation state key ordinal

def readEntry (capturedDurableSeq : Nat) (entry : Bytes × Bytes) : Eff SharedIndex StorageError (Nat × CleanupKeyKind) := do
  let entry ← (reading (fun _ => entry)).mapError backgroundIndexError
  let decoded ← Eff.lift (decodeCleanupKey entry.1)
  Eff.lift (rejectIf (decoded.1 > capturedDurableSeq) backgroundCorruption)
  return decoded

def cleanEntries (capturedDurableSeq : Nat) :
    List (Bytes × Bytes) → CleanupState → Eff SharedIndex StorageError DescriptorCleanupProgress
  | [],state => do
    let state ← flushCleanupTransaction state
    return state.progress
  | entry :: rest,state => do
    if ← stopRequested then return state.progress
    else do
      let (commitSeq,kind) ← readEntry capturedDurableSeq entry
      let (stopped,state) ← leaveTransaction state commitSeq
      if stopped then return state.progress
      else do
        let state ← takeEntry {state with currentSeq := some commitSeq} entry.1 kind
        cleanEntries capturedDurableSeq rest state

def captureFrontier : Eff SharedIndex StorageError Nat := do
  let stored ← (getInternal .system durableFrontierKey).mapError backgroundIndexError
  let encoded ← Eff.lift (orError stored backgroundCorruption)
  let frontier ← Eff.lift ((DurableFrontier.decode encoded).mapError backgroundIndexError)
  return frontier.durableSeq

def cleanupDescriptorsOnce : Eff SharedIndex StorageError DescriptorCleanupProgress := do
  let recoveryState ← (getInternal .system recoveryStateKey).mapError backgroundIndexError
  if recoveryState.isSome then return {blockedByRecovery := true}
  else do
    let capturedDurableSeq ← captureFrontier
    if ← stopRequested then return {capturedDurableSeq}
    else do
      let range ← Eff.lift (stableDescriptorRange capturedDurableSeq)
      let entries ← (scanInternal .transaction range).mapError backgroundIndexError
      cleanEntries capturedDurableSeq entries (.start {capturedDurableSeq})

end cleanup

end ExpirKv
