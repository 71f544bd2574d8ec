import ExpirKv.CleanupSweep
import ExpirKv.Library.Mirror

namespace ExpirKv
open SharedIndex Storage

section agreement
variable {index untouched : Index} {α : Type}

def Storage.reindex (untouched : Index) (storage : Storage) : Storage := {storage with index := untouched}

-- Only the index differs.
abbrev Agrees {ε : Type} (index untouched : Index) (x : Eff Storage ε α) (post : α → Prop) : Prop :=
  Mirrors (Storage.reindex untouched) (fun storage => storage.index = index) x post

theorem agrees_reading {answer : Storage → α} {post : α → Prop}
    (same : ∀ storage : Storage, storage.index = index →
      answer (storage.reindex untouched) = answer storage ∧ post (answer storage)) :
    Agrees index untouched (Storage.reading answer) post := by
  have ticks : Agrees index untouched (Storage.tick : Eff Storage StorageError Answer) (fun _ => True) :=
    fun _ here => ⟨rfl,here,trivial⟩
  have answers : Agrees index untouched (do return answer (← get) : Eff Storage StorageError α) post := by
    intro storage here
    obtain ⟨agree,holds⟩ := same storage here
    exact ⟨congrArg (fun value => EStateM.Result.ok value _) agree,here,holds⟩
  refine ticks.bind ?_
  intro answered _
  cases answered with
  | refused error => exact Mirrors.throw error
  | fine => exact answers
  | io error => exact answers
  | short count => exact answers
  | index fault => exact answers

theorem agrees_lift {ε : Type} (x : Except ε α) : Agrees index untouched (Eff.lift x) (fun _ => True) :=
  (Mirrors.lift x).mono (fun _ _ => trivial)

theorem agrees_readingVlog (read : FileSet → Result α) : Agrees index untouched (readingVlog read) (fun _ => True) := by
  refine Mirrors.bind (agrees_reading (fun _ _ => ⟨rfl,trivial⟩) : Agrees index untouched _ (fun _ => True)) ?_
  intro answer _
  exact agrees_lift answer

variable [Crc32c]

theorem agrees_acceptDescriptor (accepted : Accepted) (descriptor : TransactionDescriptor) :
    Agrees index untouched (acceptDescriptor accepted descriptor) (fun _ => True) := by
  unfold acceptDescriptor
  cases descriptor.txMeta.transactionKind with
  | indexOnlyDelete => exact Mirrors.pure trivial
  | vlogEnvelope =>
    simp only
    split
    · exact Mirrors.pure trivial
    · refine (agrees_readingVlog _).attempt.bind ?_
      intro answer _
      cases answer with
      | ok value => exact Mirrors.pure trivial
      | error error =>
        simp only
        split
        · exact Mirrors.pure trivial
        · exact Mirrors.throw error

theorem agrees_acceptLongest (accepted : Accepted) (descriptors : List TransactionDescriptor) :
    Agrees index untouched (acceptLongest accepted descriptors) (fun _ => True) := by
  induction descriptors generalizing accepted with
  | nil => exact Mirrors.pure trivial
  | cons descriptor rest ih =>
    refine (agrees_acceptDescriptor accepted descriptor).bind ?_
    intro taken _
    cases taken with
    | true => exact ih (accepted.take descriptor)
    | false => exact Mirrors.pure trivial

theorem agrees_acceptAll (accepted : Accepted) (descriptors : List TransactionDescriptor) :
    Agrees index untouched (acceptAll accepted descriptors) (fun _ => True) := by
  induction descriptors generalizing accepted with
  | nil => exact Mirrors.pure trivial
  | cons descriptor rest ih =>
    refine (agrees_acceptDescriptor accepted descriptor).bind ?_
    intro taken _
    cases taken with
    | true => exact ih (accepted.take descriptor)
    | false => exact Mirrors.throw recoveryCorruption

theorem agrees_validateStableBoundary (frontier : DurableFrontier) :
    Agrees index untouched (validateStableBoundary frontier) (fun _ => True) := by
  unfold validateStableBoundary
  cases frontier.durableVlogEnd with
  | none => exact agrees_lift _
  | some vlogEnd =>
    refine (agrees_lift _).bind (fun _ _ => (agrees_readingVlog _).mapError.bind (fun _ _ => agrees_lift _))

theorem agrees_analyzeTarget (identity : Bytes) (frontier : DurableFrontier) (headSeq : Nat)
    (descriptors : List TransactionDescriptor) (inventory : ManagedInventory) (topology : RecoveryTopology)
    (recoveryState : Option RecoveryState) :
    Agrees index untouched (analyzeTarget identity frontier headSeq descriptors inventory topology recoveryState)
      (fun _ => True) := by
  cases recoveryState with
  | none => exact (agrees_acceptLongest _ _).bind (fun _ _ => agrees_lift _)
  | some state =>
    have revalidated : Agrees index untouched (revalidateTarget state frontier descriptors) (fun _ => True) :=
      (agrees_lift _).bind (fun _ _ => (agrees_acceptAll _ _).bind (fun _ _ => agrees_lift _))
    have built : ∀ _ : Unit, Agrees index untouched (do
        let plan ← Eff.lift (buildPlan identity frontier headSeq
          ⟨state.targetSeq,state.targetVlogSeq,state.targetVlogEnd⟩ descriptors (some state) inventory topology)
        Eff.lift (checkTrim state plan.needsTrim)
        return {plan with needsUndo := decide (state.phase = .undo ∧ headSeq > state.targetSeq)} :
          Eff Storage StorageError RecoveryPlan) (fun _ => True) :=
      fun _ => (agrees_lift _).bind (fun _ _ => (agrees_lift _).bind (fun _ _ => Mirrors.pure trivial))
    unfold analyzeTarget analyzeFixedTarget
    refine (agrees_lift _).bind (fun _ _ => ?_)
    split
    · exact revalidated.bind (fun value _ => built value)
    · exact built ()

theorem Tidied.getSystem (tidied : Tidied index untouched) (key : Bytes) :
    Agrees index untouched (getInternal .system key) (fun value => value = index.system[key]?) := by
  refine agrees_reading ?_
  rintro storage rfl
  exact ⟨congrArg (fun space : Keyspace => space[key]?) tidied.system.symm,rfl⟩

theorem Tidied.required (tidied : Tidied index untouched) (key : Bytes) :
    Agrees index untouched (requiredInternal key) (fun value => index.system[key]? = some value) := by
  refine (tidied.getSystem key).mapError.bind ?_
  rintro _ rfl
  exact (Mirrors.lift _).mono (fun _ found => orError_ok.mp found)

-- The descriptors above the durable sequence are the same on both sides.
theorem Tidied.loads (tidied : Tidied index untouched) {frontier : DurableFrontier} {encoded : Bytes}
    (stored : index.system[durableFrontierKey]? = some encoded) (decoded : DurableFrontier.decode encoded = .ok frontier)
    (headSeq : Nat) :
    Agrees index untouched (loadUnstableDescriptors frontier.durableSeq headSeq) (fun _ => True) := by
  obtain ⟨known,knownHead,ledger,above⟩ := tidied.ledger
  obtain ⟨again,found,read⟩ := ledger.durable
  obtain rfl := Option.some.inj (stored.symm.trans found)
  obtain rfl := Except.ok.inj (decoded.symm.trans read)
  unfold loadUnstableDescriptors
  refine (Mirrors.lift _).bind ?_
  intro range made
  cases range with
  | none => exact Mirrors.pure trivial
  | some range =>
    refine Mirrors.bind ((agrees_reading ?_ : Agrees index untouched _ (fun _ => True)).mapError) (fun _ _ => agrees_lift _)
    rintro storage rfl
    refine ⟨Keyspace.scan_congr ?_,trivial⟩
    intro key inside
    refine (above key ?_).symm
    simp only [unstableDescriptorRange,bind_ok,exists_unit,rejectIf_ok] at made
    obtain ⟨-,made⟩ := made
    split at made
    · cases made
    · rename_i room
      simp only [bind_ok,txSequencePrefix_ok,pure_ok,Except.ok.injEq,Option.some.injEq] at made
      obtain ⟨_,⟨-,rfl⟩,rfl⟩ := made
      intro stable
      have lower := stable (by omega)
      simp [KeyRange.contains,lower] at inside

theorem Tidied.analyzes (tidied : Tidied index untouched) (format : FormatMetadata) (inventory : ManagedInventory) :
    Agrees index untouched (analyzeRecovery format inventory) (fun _ => True) := by
  unfold analyzeRecovery
  have identity : Agrees index untouched readIdentity (fun _ => True) :=
    (tidied.required databaseIdentityKey).mono (fun _ _ => trivial)
  refine identity.bind (fun encodedIdentity _ => (agrees_lift _).bind (fun _ _ => ?_))
  have geometry : Agrees index untouched checkGeometry (fun _ => True) := by
    intro storage here
    have same : ∀ other : Storage, checkGeometry other =
        Eff.lift (rejectIf (other.vlog.geometry ≠ VLogGeometry.production) recoveryCorruption) other := fun _ => rfl
    rw [same,same]
    exact agrees_lift (rejectIf (storage.vlog.geometry ≠ VLogGeometry.production) recoveryCorruption) storage here
  refine geometry.bind (fun _ _ => (tidied.required durableFrontierKey).bind ?_)
  intro encodedFrontier stored
  refine (Mirrors.lift _).bind ?_
  intro frontier decoded
  refine (tidied.required headSeqKey).bind (fun encodedHead _ => (agrees_lift _).bind (fun headSeq _ => ?_))
  refine (agrees_lift _).bind (fun _ _ => (tidied.getSystem recoveryStateKey).mapError.bind (fun encodedState _ => ?_))
  refine (agrees_lift _).bind (fun recoveryState _ => (agrees_lift _).bind (fun topology _ => ?_))
  refine (agrees_validateStableBoundary frontier).bind (fun _ _ => ?_)
  refine (tidied.loads stored (mapError_ok.mp decoded) headSeq).bind (fun descriptors _ => ?_)
  have target := @agrees_analyzeTarget index untouched _ encodedIdentity frontier headSeq descriptors inventory topology
    recoveryState
  cases recoveryState with
  | none => exact target
  | some state => exact target

end agreement

end ExpirKv
