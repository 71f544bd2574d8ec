import ExpirKv.Recovery.Descriptors
import ExpirKv.Recovery.Envelope
import ExpirKv.Recovery.Topology

namespace ExpirKv
open VLogGeometry Storage

def metadataError (kind : StorageErrorKind) : StorageError :=
  .codecError kind .open .recovery none
    (match kind with
      | .invalidLayout | .corruption => .restoreOrRepair
      | _ => .doNotRetry)

-- `DatabaseIdentityV0`.
structure DatabaseIdentity where
  identityFormatVersion : Nat
  databaseFormatVersion : Nat
  databaseUuid : Uuid
  keyspaceLayoutVersion : Nat
  deriving DecidableEq, Repr

section
variable [Crc32c]

def DatabaseIdentity.decode (encoded : Bytes) : Result DatabaseIdentity := do
  rejectIf (encoded.length ≠ databaseIdentityEncodedLen ∨ slice? encoded 0 4 ≠ some databaseIdentityMagic ∨
    hasValidTrailingCrc encoded 28 = false) (metadataError .corruption)
  let identityFormatVersion ← (readU16 encoded 4).mapError (fun _ => metadataError .corruption)
  let databaseFormatVersion ← (readU32 encoded 6).mapError (fun _ => metadataError .corruption)
  let databaseUuid ← (readArray16 encoded 10).mapError (fun _ => metadataError .corruption)
  let keyspaceLayoutVersion ← (readU16 encoded 26).mapError (fun _ => metadataError .corruption)
  rejectIf (identityFormatVersion ≠ 0 ∨ keyspaceLayoutVersion ≠ 0) (metadataError .incompatibleFormat)
  rejectIf databaseUuid.isZero (metadataError .corruption)
  return ⟨identityFormatVersion,databaseFormatVersion,databaseUuid,keyspaceLayoutVersion⟩

end

def DatabaseIdentity.validateAgainst (identity : DatabaseIdentity) (databaseFormatVersion : Nat)
    (databaseUuid : Uuid) : Result Unit :=
  rejectIf (identity.databaseFormatVersion ≠ databaseFormatVersion ∨ identity.databaseUuid ≠ databaseUuid)
    (metadataError .invalidLayout)

def appendPosition (vlogEnd : Option VLogPosition) : VLogPosition := vlogEnd.getD ⟨0,0⟩

def durableEndStrictlyAfter : Option VLogPosition → Option VLogPosition → Bool
  | some _,none => true
  | some candidate,some base => decide (base < candidate)
  | none,_ => false

def requiredInternal (key : Bytes) : Eff Storage StorageError Bytes := do
  let stored ← (getInternal .system key).mapError recoveryContext
  Eff.lift (orError stored recoveryCorruption)

-- A call of the reader: it fails as a whole, or answers what the files hold.
def readingVlog {α : Type} (read : FileSet → Result α) : Eff Storage StorageError α := do
  let answer ← reading (fun storage => read storage.vlog)
  Eff.lift answer

section boundary
variable [Crc32c]

def stableEnvelopeMatches (frontier : DurableFrontier) (vlogEnd : VLogPosition) (envelope : RecoveryEnvelope) :
    Result Unit :=
  rejectIf (envelope.scanned.commitSeq ≠ frontier.durableVlogSeq ∨ envelope.scanned.vlogEnd ≠ vlogEnd)
    recoveryCorruption

def validateStableBoundary (frontier : DurableFrontier) : Eff Storage StorageError Unit :=
  match frontier.durableVlogEnd with
  | none => Eff.lift (rejectIf (frontier.durableVlogSeq ≠ 0) recoveryCorruption)
  | some vlogEnd => do
    Eff.lift (rejectIf (frontier.durableVlogSeq = 0) recoveryCorruption)
    let envelope ← (readingVlog (fun files => readStableEnvelopeFromEnd files vlogEnd)).mapError recoveryContext
    Eff.lift (stableEnvelopeMatches frontier vlogEnd envelope)

end boundary

-- The loop variables of both analyses.
structure Accepted where
  seq : Nat
  vlogSeq : Nat
  vlogEnd : Option VLogPosition
  deriving DecidableEq, Repr

namespace Accepted

def start (frontier : DurableFrontier) : Accepted :=
  ⟨frontier.durableSeq,frontier.durableVlogSeq,frontier.durableVlogEnd⟩

-- One descriptor taken into the accepted prefix.
def take (accepted : Accepted) (descriptor : TransactionDescriptor) : Accepted :=
  match descriptor.txMeta.transactionKind with
  | .indexOnlyDelete => {accepted with seq := descriptor.txMeta.commitSeq}
  | .vlogEnvelope => ⟨descriptor.txMeta.commitSeq,descriptor.txMeta.commitSeq,some descriptor.txMeta.vlogEnd⟩

end Accepted

section targets
variable [Crc32c]

-- The body of the loop: `false` is the break of the first analysis and the corruption of the second.
def acceptDescriptor (accepted : Accepted) (descriptor : TransactionDescriptor) : Eff Storage StorageError Bool :=
  match descriptor.txMeta.transactionKind with
  | .indexOnlyDelete => return true
  | .vlogEnvelope =>
    if descriptor.txMeta.vlogBegin ≠ appendPosition accepted.vlogEnd then return false
    else do
      match ← (readingVlog (fun files => readAndValidateEnvelope files descriptor)).attempt with
      | .ok () => return true
      | .error error => if isRejectableEnvelopeError error.kind then return false else throw error

def acceptLongest (accepted : Accepted) : List TransactionDescriptor → Eff Storage StorageError Accepted
  | [] => return accepted
  | descriptor :: rest => do
    if ← acceptDescriptor accepted descriptor then acceptLongest (accepted.take descriptor) rest
    else return accepted

def acceptAll (accepted : Accepted) : List TransactionDescriptor → Eff Storage StorageError Accepted
  | [] => return accepted
  | descriptor :: rest => do
    if ← acceptDescriptor accepted descriptor then acceptAll (accepted.take descriptor) rest
    else throw recoveryCorruption

end targets

def publishedEnd (frontier : DurableFrontier) (descriptors : List TransactionDescriptor) : Option VLogPosition :=
  match descriptors.reverse.find? (fun descriptor => descriptor.txMeta.transactionKind = .vlogEnvelope) with
  | none => frontier.durableVlogEnd
  | some descriptor => some descriptor.txMeta.vlogEnd

def plannedRecovery (databaseIdentity : Bytes) (frontier : DurableFrontier) (headSeq : Nat) (accepted : Accepted)
    (descriptors : List TransactionDescriptor) (recoveryState : Option RecoveryState) (inventory : ManagedInventory)
    (topology : RecoveryTopology) : RecoveryPlan :=
  { databaseIdentity
    durableFrontier := frontier
    headSeq
    acceptedSeq := accepted.seq
    acceptedVlogSeq := accepted.vlogSeq
    publishedEnd := publishedEnd frontier descriptors
    acceptedEnd := accepted.vlogEnd
    physicalTail := topology.physicalTail
    descriptors
    recoveryState
    needsUndo := decide (accepted.seq < headSeq)
    needsPromote := decide (accepted.seq > frontier.durableSeq)
    needsTrim := RecoveryTopology.hasSuffixAfter inventory accepted.vlogEnd }

def buildPlan (databaseIdentity : Bytes) (frontier : DurableFrontier) (headSeq : Nat) (accepted : Accepted)
    (descriptors : List TransactionDescriptor) (recoveryState : Option RecoveryState) (inventory : ManagedInventory)
    (topology : RecoveryTopology) : Result RecoveryPlan := do
  rejectIf (accepted.seq < frontier.durableSeq ∨ accepted.seq > headSeq ∨
    accepted.vlogSeq < frontier.durableVlogSeq ∨ accepted.vlogSeq > accepted.seq) recoveryCorruption
  rejectIf ((recoveryState.any (fun state =>
      state.targetVlogSeq != accepted.vlogSeq || state.targetVlogEnd != accepted.vlogEnd)) = true ∨
    RecoveryTopology.containsEnd inventory accepted.vlogEnd = false) recoveryCorruption
  return plannedRecovery databaseIdentity frontier headSeq accepted descriptors recoveryState inventory topology

def validateRecoveryStateAgainstCurrent (state : RecoveryState) (frontier : DurableFrontier) (headSeq : Nat) :
    Result Unit := do
  rejectIf (state.targetSeq < frontier.durableSeq ∨ state.targetVlogSeq < frontier.durableVlogSeq) recoveryCorruption
  rejectIf (if state.targetVlogSeq = frontier.durableVlogSeq then state.targetVlogEnd ≠ frontier.durableVlogEnd
    else durableEndStrictlyAfter state.targetVlogEnd frontier.durableVlogEnd = false) recoveryCorruption
  match state.phase with
  | .undo => rejectIf (headSeq ≠ state.nextUndoSeq) recoveryCorruption
  | .trim | .finalize =>
    rejectIf (headSeq ≠ state.targetSeq ∨ frontier.durableSeq ≠ state.targetSeq ∨
      frontier.durableVlogSeq ≠ state.targetVlogSeq ∨ frontier.durableVlogEnd ≠ state.targetVlogEnd ∨
      state.nextUndoSeq ≠ state.targetSeq) recoveryCorruption

-- A frozen decision to trim may have become void, one not to trim may not.
def checkTrim (state : RecoveryState) (needsTrim : Bool) : Result Unit :=
  match state.phase with
  | .undo => rejectIf (state.trimRequired = false ∧ needsTrim = true) recoveryCorruption
  | .trim => rejectIf (state.trimRequired = false) recoveryCorruption
  | .finalize => rejectIf (state.trimRequired = true ∨ needsTrim = true) recoveryCorruption

section analyses
variable [Crc32c]

def analyzeNewTarget (databaseIdentity : Bytes) (frontier : DurableFrontier) (headSeq : Nat)
    (descriptors : List TransactionDescriptor) (inventory : ManagedInventory) (topology : RecoveryTopology) :
    Eff Storage StorageError RecoveryPlan := do
  let accepted ← acceptLongest (.start frontier) descriptors
  Eff.lift (buildPlan databaseIdentity frontier headSeq accepted descriptors none inventory topology)

-- The frozen target is read again from the descriptors that are left.
def revalidateTarget (state : RecoveryState) (frontier : DurableFrontier)
    (descriptors : List TransactionDescriptor) : Eff Storage StorageError Unit := do
  Eff.lift (rejectIf (state.targetSeq < frontier.durableSeq ∨
    descriptors.length < state.targetSeq - frontier.durableSeq) recoveryCorruption)
  let accepted ← acceptAll (.start frontier) (descriptors.take (state.targetSeq - frontier.durableSeq))
  Eff.lift (rejectIf (accepted ≠ ⟨state.targetSeq,state.targetVlogSeq,state.targetVlogEnd⟩) recoveryCorruption)

def analyzeFixedTarget (databaseIdentity : Bytes) (frontier : DurableFrontier) (headSeq : Nat)
    (descriptors : List TransactionDescriptor) (state : RecoveryState) (inventory : ManagedInventory)
    (topology : RecoveryTopology) : Eff Storage StorageError RecoveryPlan := do
  Eff.lift (validateRecoveryStateAgainstCurrent state frontier headSeq)
  if state.phase = .undo then revalidateTarget state frontier descriptors
  let plan ← Eff.lift (buildPlan databaseIdentity frontier headSeq
    ⟨state.targetSeq,state.targetVlogSeq,state.targetVlogEnd⟩ descriptors (some state) inventory topology)
  Eff.lift (checkTrim state plan.needsTrim)
  return {plan with needsUndo := decide (state.phase = .undo ∧ headSeq > state.targetSeq)}

def validateDatabaseIdentity (format : FormatMetadata) (encoded : Bytes) : Result Unit := do
  let identity ← (DatabaseIdentity.decode encoded).mapError recoveryContext
  (identity.validateAgainst format.formatVersion format.databaseUuid).mapError recoveryContext

def readIdentity : Eff Storage StorageError Bytes := do
  let stored ← getDatabaseIdentity.mapError recoveryContext
  Eff.lift (orError stored recoveryCorruption)

def decodeRecoveryState : Option Bytes → Result (Option RecoveryState)
  | none => .ok none
  | some encoded => ((RecoveryState.decode encoded).map some).mapError recoveryContext

def checkGeometry : Eff Storage StorageError Unit := do
  let storage ← get
  Eff.lift (rejectIf (storage.vlog.geometry ≠ production) recoveryCorruption)

def analyzeRecovery (format : FormatMetadata) (inventory : ManagedInventory) : Eff Storage StorageError RecoveryPlan := do
  let encodedIdentity ← readIdentity
  Eff.lift (validateDatabaseIdentity format encodedIdentity)
  checkGeometry
  let encodedFrontier ← requiredInternal durableFrontierKey
  let frontier ← Eff.lift ((DurableFrontier.decode encodedFrontier).mapError recoveryContext)
  let encodedHead ← requiredInternal headSeqKey
  let headSeq ← Eff.lift ((decodeHeadSeq encodedHead).mapError recoveryContext)
  Eff.lift ((frontier.validateAgainstHead headSeq).mapError recoveryContext)
  let encodedState ← (getInternal .system recoveryStateKey).mapError recoveryContext
  let recoveryState ← Eff.lift (decodeRecoveryState encodedState)
  let topology ← Eff.lift (RecoveryTopology.analyze inventory frontier.durableVlogEnd)
  validateStableBoundary frontier
  let descriptors ← loadUnstableDescriptors frontier.durableSeq headSeq
  match recoveryState with
  | some state => analyzeFixedTarget encodedIdentity frontier headSeq descriptors state inventory topology
  | none => analyzeNewTarget encodedIdentity frontier headSeq descriptors inventory topology

end analyses

end ExpirKv
