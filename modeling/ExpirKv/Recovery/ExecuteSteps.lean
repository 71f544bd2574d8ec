import ExpirKv.Recovery.ExecuteFacts

namespace ExpirKv
open Storage

-- A relation between storages that every call without a lasting effect on files or index stays inside.
structure Calm (relation : Storage → Storage → Prop) : Prop where
  refl : ∀ storage, relation storage storage
  trans : ∀ first second third, relation first second → relation second third → relation first third
  script : ∀ storage script, relation storage {storage with script}
  syncedFile : ∀ storage fileId, relation storage (storage.record (.syncedFile fileId (storage.contents fileId).length))
  syncedDirectory : ∀ storage, relation storage (storage.record .syncedDirectory)

-- One that also holds over the calls of a trim.
structure Trimming (relation : Storage → Storage → Prop) : Prop extends Calm relation where
  truncated : ∀ storage fileId len, relation storage ((storage.setFile fileId ((storage.contents fileId).take len ++
    List.replicate (len - (storage.contents fileId).length) 0)).record (.truncated fileId len))
  removed : ∀ storage fileId, relation storage
    ({storage with vlog := {storage.vlog with files := storage.vlog.files.erase fileId}}.record (.removed fileId))
  unlisted : ∀ storage fileId, relation storage
    {storage with vlog := {storage.vlog with catalog := storage.vlog.catalog.erase fileId}}

section calls
variable {relation : Storage → Storage → Prop} {α β ε : Type}

theorem Calm.bind (calm : Calm relation) {x : Eff Storage ε α} {next : α → Eff Storage ε β} (first : Leaves x relation)
    (rest : ∀ value, Leaves (next value) relation) : Leaves (x >>= next) relation :=
  first.bind rest calm.trans

theorem Calm.pure (calm : Calm relation) (value : α) : Leaves (pure value : Eff Storage ε α) relation :=
  Leaves.pure value calm.refl

theorem Calm.lift (calm : Calm relation) (x : Except ε α) : Leaves (Eff.lift x : Eff Storage ε α) relation :=
  Leaves.lift x calm.refl

theorem Calm.get (calm : Calm relation) : Leaves (get : Eff Storage ε Storage) relation :=
  fun storage => delivers_get.mpr (calm.refl storage)

theorem Calm.forM (calm : Calm relation) {items : List α} {act : α → Eff Storage ε PUnit}
    (turn : ∀ item ∈ items, Leaves (act item) relation) : Leaves (items.forM act) relation := by
  intro storage
  refine Delivers.forM ?_ (calm.refl storage)
  intro item member reached kept
  exact (turn item member reached).mono (fun _ _ moved => calm.trans _ _ _ kept moved)
    (fun _ _ moved => calm.trans _ _ _ kept moved)

theorem Calm.perform (calm : Calm relation) {change : Storage → Storage}
    (effect : ∀ storage, relation storage (change storage)) : Leaves (perform change) relation := by
  intro storage
  exact delivers_perform (fun script => calm.trans _ _ _ (calm.script storage script) (effect _))
    (fun _ script => calm.script storage script)

theorem Calm.idle (calm : Calm relation) : Leaves (Storage.perform id) relation := calm.perform calm.refl

theorem Calm.reading (calm : Calm relation) (answer : Storage → α) : Leaves (Storage.reading answer) relation :=
  fun storage => delivers_reading (fun script => calm.script storage script) (fun _ script => calm.script storage script)

theorem Calm.readingVlog (calm : Calm relation) (read : FileSet → Result α) :
    Leaves (ExpirKv.readingVlog read) relation := calm.bind (calm.reading _) calm.lift

theorem Calm.openWritable (calm : Calm relation) (fileId : Nat) : Leaves (Storage.openWritable fileId) relation := by
  refine calm.bind calm.get (fun storage => ?_)
  split
  · exact calm.bind (Leaves.throw _ calm.refl) (fun _ => calm.idle)
  · exact calm.idle

theorem Calm.fileLen (calm : Calm relation) (fileId : Nat) : Leaves (Storage.fileLen fileId) relation :=
  calm.bind calm.idle (fun _ => calm.bind calm.get (fun _ => calm.pure _))

theorem Calm.verify (calm : Calm relation) (fileId : Nat) : Leaves (Storage.verify fileId) relation := by
  refine calm.bind calm.get (fun storage => ?_)
  split
  · exact calm.bind (Leaves.throw _ calm.refl) (fun _ => calm.idle.mapError)
  · exact calm.idle.mapError

theorem Calm.syncFile (calm : Calm relation) (fileId : Nat) : Leaves (Storage.syncFile fileId) relation :=
  calm.perform (fun storage => calm.syncedFile storage fileId)

theorem Calm.syncDirectory (calm : Calm relation) : Leaves Storage.syncDirectory relation :=
  calm.perform calm.syncedDirectory

theorem Trimming.truncateFile (trimming : Trimming relation) (fileId len : Nat) :
    Leaves (Storage.truncateFile fileId len) relation :=
  trimming.toCalm.perform (fun storage => trimming.truncated storage fileId len)

theorem Calm.removeFile (calm : Calm relation) (removed : ∀ storage fileId, relation storage
      ({storage with vlog := {storage.vlog with files := storage.vlog.files.erase fileId}}.record (.removed fileId)))
    (fileId : Nat) : Leaves (Storage.removeFile fileId) relation := by
  have gone : Leaves (Storage.perform (fun storage =>
      {storage with vlog := {storage.vlog with files := storage.vlog.files.erase fileId}}.record (.removed fileId)))
      relation := calm.perform (fun storage => removed storage fileId)
  refine calm.bind calm.get (fun storage => ?_)
  split
  · exact calm.bind (Leaves.throw _ calm.refl) (fun _ => gone)
  · exact gone

theorem Trimming.unregister (trimming : Trimming relation) (fileId : Nat) :
    Leaves (Storage.unregister fileId) relation :=
  fun storage => (delivers_modify _).mpr (trimming.unlisted storage fileId)

end calls

section parts
variable [Crc32c] {relation : Storage → Storage → Prop}

omit [Crc32c] in
theorem Calm.requiredInternal (calm : Calm relation) (key : Bytes) : Leaves (ExpirKv.requiredInternal key) relation :=
  calm.bind (calm.reading _).mapError (fun _ => calm.lift _)

theorem Calm.checkIdentity (calm : Calm relation) (format : FormatMetadata) (plan : RecoveryPlan) :
    Leaves (ExpirKv.checkIdentity format plan) relation :=
  calm.bind (calm.bind (calm.reading _).mapError (fun _ => calm.lift _)) (fun _ => calm.bind (calm.lift _)
    (fun _ => calm.lift _))

theorem Calm.validateRecoveryBindings (calm : Calm relation) (format : FormatMetadata) (plan : RecoveryPlan) :
    Leaves (ExpirKv.validateRecoveryBindings format plan) relation :=
  calm.bind calm.get (fun _ => calm.bind (calm.lift _) (fun _ => calm.bind (calm.checkIdentity format plan)
    (fun _ => (calm.reading _).mapError)))

omit [Crc32c] in
theorem Calm.syncAcceptedRange (calm : Calm relation) (durableEnd acceptedEnd : Option VLogPosition) :
    Leaves (ValueLogRecovery.syncAcceptedRange durableEnd acceptedEnd) relation := by
  unfold ValueLogRecovery.syncAcceptedRange
  split
  · exact calm.pure _
  · refine calm.bind (calm.lift _) (fun accepted => calm.bind calm.get (fun storage => calm.bind (calm.lift _)
      (fun _ => calm.bind (calm.forM (fun fileId _ => ?_)) (fun _ => ?_))))
    · exact calm.bind (calm.openWritable fileId).mapError (fun _ => calm.bind (calm.verify fileId).mapError
        (fun _ => (calm.syncFile fileId).mapError))
    · split
      · exact calm.syncDirectory.mapError
      · exact calm.pure _

omit [Crc32c] in
theorem Calm.syncNewAcceptedVlog (calm : Calm relation) (plan : RecoveryPlan) :
    Leaves (ExpirKv.syncNewAcceptedVlog plan) relation := by
  unfold ExpirKv.syncNewAcceptedVlog
  split
  · exact calm.lift _
  · exact calm.bind (calm.lift _) (fun _ => calm.syncAcceptedRange _ _)

theorem Calm.validateStableBoundary (calm : Calm relation) (frontier : DurableFrontier) :
    Leaves (ExpirKv.validateStableBoundary frontier) relation := by
  unfold ExpirKv.validateStableBoundary
  split
  · exact calm.lift _
  · exact calm.bind (calm.lift _) (fun _ => calm.bind (calm.readingVlog _).mapError (fun _ => calm.lift _))

theorem Calm.validateAcceptedBoundary (calm : Calm relation) (plan : RecoveryPlan) :
    Leaves (ExpirKv.validateAcceptedBoundary plan) relation := by
  unfold ExpirKv.validateAcceptedBoundary
  split
  · exact calm.bind (calm.lift _) (fun _ => calm.validateStableBoundary _)
  · exact calm.bind (calm.lift _) (fun _ => calm.readingVlog _)

theorem Calm.inspect (calm : Calm relation) (format : FormatMetadata) :
    Leaves (ManagedInventory.inspect format) relation := calm.bind (calm.reading _) (fun _ => calm.lift _)

theorem Calm.verifyTail (calm : Calm relation) (format : FormatMetadata) (expected : Option VLogPosition) :
    Leaves (ExpirKv.verifyTail format expected) relation :=
  calm.bind (calm.inspect format).mapError (fun _ => calm.bind (calm.lift _) (fun _ => calm.lift _))

theorem Calm.verifyFinalState (calm : Calm relation) (format : FormatMetadata) (plan : RecoveryPlan) (expectedHead : Nat)
    (expectedFrontier : DurableFrontier) :
    Leaves (ExpirKv.verifyFinalState format plan expectedHead expectedFrontier) relation :=
  calm.bind (calm.checkIdentity format plan) (fun _ => calm.bind (calm.requiredInternal _) (fun _ =>
    calm.bind (calm.lift _) (fun _ => calm.bind (calm.requiredInternal _) (fun _ => calm.bind (calm.lift _) (fun _ =>
      calm.bind (calm.lift _) (fun _ => calm.bind (calm.reading _).mapError (fun _ => calm.bind (calm.lift _) (fun _ =>
        calm.verifyTail format _))))))))

theorem Calm.checkAcceptedFile (calm : Calm relation) (acceptedEnd : VLogPosition) (fileId : Nat) :
    Leaves (ValueLogRecovery.checkAcceptedFile acceptedEnd fileId) relation :=
  calm.bind (calm.openWritable fileId).mapError (fun _ => calm.bind (calm.verify fileId).mapError (fun _ =>
    calm.bind calm.get (fun _ => calm.bind (calm.fileLen fileId).mapError (fun _ => calm.bind (calm.lift _) (fun _ =>
      calm.bind (calm.reading _) (fun _ => calm.lift _))))))

theorem Calm.openAppendState (calm : Calm relation) (acceptedEnd : Option VLogPosition) :
    Leaves (ValueLogRecovery.openAppendState acceptedEnd) relation := by
  unfold ValueLogRecovery.openAppendState
  split
  · exact calm.bind calm.get (fun _ => calm.bind (calm.lift _) (fun _ => calm.pure _))
  · refine calm.bind calm.get (fun _ => calm.bind (calm.lift _) (fun _ => calm.bind (calm.lift _) (fun _ =>
      calm.bind (calm.openWritable _).mapError (fun _ => calm.bind (calm.verify _).mapError (fun _ =>
        calm.bind (calm.fileLen _).mapError (fun _ => calm.bind (calm.lift _) (fun _ => calm.bind ?_ (fun _ =>
          calm.pure _))))))))
    exact calm.bind calm.get (fun _ => calm.bind (calm.lift _) (fun _ => calm.forM (fun fileId _ =>
      calm.checkAcceptedFile _ fileId)))

theorem Calm.intoWriter (calm : Calm relation) (acceptedEnd : Option VLogPosition) :
    Leaves (ValueLogRecovery.intoWriter acceptedEnd) relation :=
  calm.bind (calm.openAppendState acceptedEnd) (fun _ => calm.bind calm.get (fun _ => calm.pure _))

omit [Crc32c] in
-- A trim is calm but for the cut of the last file and the removals behind it.
theorem Calm.trim (calm : Calm relation) {acceptedEnd : Option VLogPosition} (fileIds : List Nat)
    (cuts : ∀ accepted ∈ acceptedEnd, Leaves (Storage.truncateFile accepted.fileId accepted.offset) relation)
    (removes : ∀ fileId ∈ ValueLogRecovery.suffixFiles acceptedEnd fileIds,
      Leaves (ValueLogRecovery.removeSuffixFile fileId) relation) :
    Leaves (ValueLogRecovery.trim acceptedEnd fileIds) relation := by
  refine calm.bind ?_ (fun _ => calm.bind (calm.forM removes) (fun _ => calm.syncDirectory.mapError))
  unfold ValueLogRecovery.trimFile
  split
  · exact calm.pure _
  · rename_i accepted
    refine calm.bind calm.get (fun _ => calm.bind (calm.lift _) (fun _ => ?_))
    refine calm.bind (calm.openWritable _).mapError (fun _ => calm.bind (calm.verify _).mapError (fun _ =>
      calm.bind (calm.fileLen _).mapError (fun len => calm.bind (calm.lift _) (fun _ => ?_))))
    split
    · exact calm.bind (cuts accepted rfl).mapError (fun _ => (calm.syncFile _).mapError)
    · exact (calm.syncFile _).mapError

omit [Crc32c] in
theorem Trimming.trim (trimming : Trimming relation) (acceptedEnd : Option VLogPosition) (fileIds : List Nat) :
    Leaves (ValueLogRecovery.trim acceptedEnd fileIds) relation := by
  refine trimming.toCalm.trim fileIds (fun _ _ => trimming.truncateFile _ _) ?_
  intro fileId _
  exact trimming.toCalm.bind (trimming.toCalm.removeFile trimming.removed fileId).mapError
    (fun _ => (trimming.unregister fileId).mapError)

theorem Calm.trimSuffix (calm : Calm relation) (format : FormatMetadata) {plan : RecoveryPlan}
    (trims : ∀ fileIds, Leaves (ValueLogRecovery.trim plan.acceptedEnd fileIds) relation) :
    Leaves (ExpirKv.trimSuffix format plan) relation :=
  calm.bind (calm.inspect format).mapError (fun _ => calm.bind (trims _) (fun _ => calm.verifyTail format _))

end parts

section commits
variable [Crc32c] {relation : Storage → Storage → Prop} {plan : RecoveryPlan}

-- The batches of one execution.
inductive RecoveryBuilt (plan : RecoveryPlan) : IndexAtomicBatch → Prop
  | create {batch : IndexAtomicBatch} (built : recoveryStateBatch plan.newState = .ok batch) : RecoveryBuilt plan batch
  | undo {loaded : LoadedDescriptor} {state : RecoveryState} {batch : IndexAtomicBatch}
      (built : buildUndoBatch loaded state = .ok batch) : RecoveryBuilt plan batch
  | target {state : Option RecoveryState} {batch : IndexAtomicBatch}
      (built : targetFrontierBatch plan.acceptedSeq plan.target state = .ok batch) : RecoveryBuilt plan batch
  | delete {batch : IndexAtomicBatch} (built : deleteRecoveryStateBatch = .ok batch) : RecoveryBuilt plan batch

theorem Calm.commitBuilt (calm : Calm relation) {built : Result IndexAtomicBatch}
    (commits : ∀ batch, built = .ok batch → Leaves (commitAtomic batch .syncAll) relation) :
    Leaves (ExpirKv.commitBuilt built) relation := by
  intro storage
  refine delivers_bind.mpr (delivers_lift.mpr ⟨?_,fun _ _ => calm.refl storage⟩)
  intro batch same
  exact (commits batch same).mapError storage

theorem Calm.createRecoveryState (calm : Calm relation)
    (commits : ∀ batch, recoveryStateBatch plan.newState = .ok batch → Leaves (commitAtomic batch .syncAll) relation) :
    Leaves (ExpirKv.createRecoveryState plan) relation := by
  unfold ExpirKv.createRecoveryState
  split
  · exact calm.bind (calm.syncNewAcceptedVlog plan) (fun _ => calm.bind (calm.validateAcceptedBoundary plan) (fun _ =>
      calm.bind (calm.commitBuilt commits) (fun _ => calm.pure _)))
  · exact calm.pure _

theorem Calm.loadDescriptor (calm : Calm relation) (expected : TransactionDescriptor) :
    Leaves (ExpirKv.loadDescriptor expected) relation :=
  calm.bind (calm.lift _) (fun _ => calm.bind (calm.reading _).mapError (fun _ => calm.lift _))

omit [Crc32c] in
theorem Calm.validateCurrentAfterStates (calm : Calm relation) (descriptor : TransactionDescriptor) :
    Leaves (ExpirKv.validateCurrentAfterStates descriptor) relation :=
  calm.forM (fun _ _ => calm.bind (calm.reading _).mapError (fun _ => calm.bind (calm.lift _) (fun _ => calm.lift _)))

theorem Calm.undoTransaction (calm : Calm relation) (state : RecoveryState)
    (commits : ∀ loaded next batch, buildUndoBatch loaded next = .ok batch → Leaves (commitAtomic batch .syncAll) relation) :
    Leaves (ExpirKv.undoTransaction plan state) relation := by
  refine calm.bind (calm.lift _) (fun expected => calm.bind (calm.loadDescriptor expected) (fun loaded =>
    calm.bind (calm.validateCurrentAfterStates loaded.descriptor) (fun _ => ?_)))
  intro storage
  refine delivers_bind.mpr (delivers_lift.mpr ⟨?_,fun _ _ => calm.refl storage⟩)
  intro batch built
  exact calm.bind (commits loaded _ batch built).mapError (fun _ => calm.pure _) storage

theorem Calm.undoTransactions (calm : Calm relation) (state : RecoveryState)
    (commits : ∀ loaded next batch, buildUndoBatch loaded next = .ok batch → Leaves (commitAtomic batch .syncAll) relation) :
    Leaves (ExpirKv.undoTransactions plan state) relation := by
  unfold ExpirKv.undoTransactions
  generalize state.nextUndoSeq - state.targetSeq = turns
  induction turns generalizing state with
  | zero => exact calm.pure _
  | succ turns ih => exact calm.bind (calm.undoTransaction state commits) ih

theorem Calm.reachTarget (calm : Calm relation) (recoveryState : Option RecoveryState)
    (commits : ∀ batch, RecoveryBuilt plan batch → Leaves (commitAtomic batch .syncAll) relation) :
    Leaves (ExpirKv.reachTarget plan recoveryState) relation := by
  unfold ExpirKv.reachTarget
  split
  · split
    · exact calm.bind (calm.undoTransactions _ (fun _ _ batch built => commits batch (.undo built))) (fun _ =>
        calm.bind (calm.validateAcceptedBoundary plan) (fun _ =>
          calm.bind (calm.commitBuilt (fun batch built => commits batch (.target built))) (fun _ => calm.pure _)))
    · exact calm.pure _
  · split
    · exact calm.bind (calm.syncNewAcceptedVlog plan) (fun _ => calm.bind (calm.validateAcceptedBoundary plan) (fun _ =>
        calm.bind (calm.commitBuilt (fun batch built => commits batch (.target built))) (fun _ => calm.pure _)))
    · exact calm.pure _

theorem Calm.finishPhase (calm : Calm relation) (format : FormatMetadata) (recoveryState : Option RecoveryState)
    (trims : ∀ fileIds, Leaves (ValueLogRecovery.trim plan.acceptedEnd fileIds) relation)
    (commits : ∀ batch, RecoveryBuilt plan batch → Leaves (commitAtomic batch .syncAll) relation) :
    Leaves (ExpirKv.finishPhase format plan recoveryState) relation := by
  have deletes := calm.commitBuilt (fun batch built => commits batch (.delete built))
  unfold ExpirKv.finishPhase
  split
  · exact calm.pure _
  · split
    · exact calm.pure _
    · exact calm.bind (calm.trimSuffix format trims) (fun _ => calm.bind deletes (fun _ => calm.pure _))
    · exact calm.bind deletes (fun _ => calm.pure _)

-- Every outcome of an execution is reached by calls without lasting effect, a trim and its own batches.
theorem Calm.executeRecovery (calm : Calm relation) (format : FormatMetadata)
    (trims : ∀ fileIds, Leaves (ValueLogRecovery.trim plan.acceptedEnd fileIds) relation)
    (commits : ∀ batch, RecoveryBuilt plan batch → Leaves (commitAtomic batch .syncAll) relation) :
    Leaves (ExpirKv.executeRecovery format plan) relation :=
  calm.bind (calm.validateRecoveryBindings format plan) (fun _ =>
    calm.bind (calm.createRecoveryState (fun batch built => commits batch (.create built))) (fun created =>
      calm.bind (calm.reachTarget created commits) (fun progress =>
        calm.bind (calm.finishPhase format progress.state trims commits) (fun _ => calm.bind (calm.lift _) (fun _ =>
          calm.bind (calm.verifyFinalState format plan _ _) (fun _ => calm.bind (calm.intoWriter _) (fun _ =>
            calm.bind (calm.lift _) (fun _ => calm.pure _))))))))

theorem Trimming.executeRecovery (trimming : Trimming relation) (format : FormatMetadata)
    (commits : ∀ batch, RecoveryBuilt plan batch → Leaves (commitAtomic batch .syncAll) relation) :
    Leaves (ExpirKv.executeRecovery format plan) relation :=
  trimming.toCalm.executeRecovery format (fun _ => trimming.trim _ _) commits

end commits

end ExpirKv
