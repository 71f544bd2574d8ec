import ExpirKv.Recovery.Acceptance
import ExpirKv.Recovery.ExecuteTrace

namespace ExpirKv
open VLogGeometry Storage

-- Storage that has answered some reads.
def Asked (before after : Storage) : Prop := ∃ script, after = {before with script}

-- What an analysis promises about the plan it returns, whatever failed before.
structure Drawn [Crc32c] (index : Index) (plan : RecoveryPlan) : Prop where
  identified : index.system[databaseIdentityKey]? ≠ none
  head : ∃ encoded, index.system[headSeqKey]? = some encoded ∧ decodeHeadSeq encoded = .ok plan.headSeq
  frontier : ∃ encoded, index.system[durableFrontierKey]? = some encoded ∧
    DurableFrontier.decode encoded = .ok plan.durableFrontier
  state : decodeRecoveryState index.system[recoveryStateKey]? = .ok plan.recoveryState
  ordered : plan.durableFrontier.durableSeq ≤ plan.acceptedSeq ∧ plan.acceptedSeq ≤ plan.headSeq
  moved : (plan.acceptedVlogSeq = plan.durableFrontier.durableVlogSeq ∧
      plan.acceptedEnd = plan.durableFrontier.durableVlogEnd) ∨
    durableEndStrictlyAfter plan.acceptedEnd plan.durableFrontier.durableVlogEnd = true
  resumed : ∀ state ∈ plan.recoveryState, state.Aims plan ∧
    (state.phase ≠ .undo → plan.headSeq = plan.acceptedSeq ∧ plan.target = plan.durableFrontier)

section asked
variable {start now : Storage} {α : Type}

theorem Asked.refl (storage : Storage) : Asked storage storage := ⟨storage.script,rfl⟩

theorem Asked.trans (first second third : Storage) (before : Asked first second) (after : Asked second third) :
    Asked first third := by
  obtain ⟨_,rfl⟩ := before
  obtain ⟨script,rfl⟩ := after
  exact ⟨script,rfl⟩

theorem asked_lift {ε : Type} (x : Except ε α) : Leaves (Eff.lift x : Eff Storage ε α) Asked := Leaves.lift x Asked.refl

theorem asked_pure {ε : Type} (value : α) : Leaves (pure value : Eff Storage ε α) Asked := Leaves.pure value Asked.refl

theorem asked_bind {β ε : Type} {x : Eff Storage ε α} {next : α → Eff Storage ε β} (first : Leaves x Asked)
    (rest : ∀ value, Leaves (next value) Asked) : Leaves (x >>= next) Asked := first.bind rest Asked.trans

theorem asked_reading (answer : Storage → α) : Leaves (reading answer) Asked :=
  fun _ => delivers_reading (fun script => ⟨script,rfl⟩) (fun _ script => ⟨script,rfl⟩)

theorem asked_readingVlog (read : FileSet → Result α) : Leaves (readingVlog read) Asked :=
  asked_bind (asked_reading _) asked_lift

-- A computation that only asks, seen from where the asking began.
theorem Asked.follow {β : Type} {x : Eff Storage StorageError α} {next : α → Eff Storage StorageError β}
    {post : β → Storage → Prop} (asked : Asked start now) (first : Leaves x Asked)
    (rest : ∀ value after, Asked start after → Delivers (next value) after post (fun _ _ => True)) :
    Delivers (x >>= next) now post (fun _ _ => True) := by
  refine (first now).bind ?_ (fun _ _ _ => trivial)
  intro value after later
  exact rest value after (Asked.trans _ _ _ asked later)

theorem Asked.settle {β : Type} {x : Result α} {next : α → Eff Storage StorageError β} {post : β → Storage → Prop}
    (rest : ∀ value, x = .ok value → Delivers (next value) now post (fun _ _ => True)) :
    Delivers (Eff.lift x >>= next) now post (fun _ _ => True) :=
  delivers_bind.mpr (delivers_lift.mpr ⟨rest,fun _ _ => trivial⟩)

-- An answer about the index is about the index of the start.
theorem Asked.getInternal {β : Type} {key : Bytes} {next : Option Bytes → Eff Storage StorageError β}
    {post : β → Storage → Prop} (asked : Asked start now)
    (rest : ∀ after, Asked start after → Delivers (next start.index.system[key]?) after post (fun _ _ => True)) :
    Delivers ((getInternal .system key).mapError recoveryContext >>= next) now post (fun _ _ => True) := by
  obtain ⟨_,rfl⟩ := asked
  refine delivers_bind.mpr (delivers_mapError.mpr (delivers_reading ?_ (fun _ _ => trivial)))
  intro script
  exact rest _ ⟨script,rfl⟩

theorem Asked.required {β : Type} {key : Bytes} {next : Bytes → Eff Storage StorageError β} {post : β → Storage → Prop}
    (asked : Asked start now)
    (rest : ∀ value after, start.index.system[key]? = some value → Asked start after →
      Delivers (next value) after post (fun _ _ => True)) :
    Delivers (requiredInternal key >>= next) now post (fun _ _ => True) := by
  rw [requiredInternal,bind_assoc]
  refine asked.getInternal ?_
  intro after later
  refine Asked.settle ?_
  intro value found
  exact rest value after (orError_ok.mp found) later

end asked

section analysis
variable [Crc32c] {start now : Storage} {plan : RecoveryPlan} {format : FormatMetadata} {inventory : ManagedInventory}
  {frontier : DurableFrontier} {accepted : Accepted} {identity : Bytes} {headSeq : Nat} {topology : RecoveryTopology}
  {descriptors : List TransactionDescriptor}

omit [Crc32c] in
-- A reading that succeeds has read the files of the start.
theorem Asked.readsVlog {α : Type} {read : FileSet → Result α} (asked : Asked start now) :
    Delivers (readingVlog read) now (fun value after => Asked start after ∧ read start.vlog = .ok value)
      (fun _ _ => True) := by
  obtain ⟨_,rfl⟩ := asked
  rw [readingVlog,delivers_bind]
  refine delivers_reading ?_ (fun _ _ => trivial)
  intro script
  exact delivers_lift.mpr ⟨fun _ taken => ⟨⟨script,rfl⟩,taken⟩,fun _ _ => trivial⟩

-- A boundary that is accepted is stable, whatever other calls failed.
theorem Asked.stableBoundary (asked : Asked start now) (frontier : DurableFrontier) :
    Delivers (validateStableBoundary frontier) now
      (fun _ after => Asked start after ∧ StableBoundary start.vlog frontier) (fun _ _ => True) := by
  unfold validateStableBoundary StableBoundary
  cases frontier.durableVlogEnd with
  | none =>
    refine delivers_lift.mpr ⟨?_,fun _ _ => trivial⟩
    intro _ accepted
    exact ⟨asked,by simpa using accepted⟩
  | some vlogEnd =>
    refine Asked.settle ?_
    intro _ present
    refine delivers_bind.mpr (delivers_mapError.mpr ((Asked.readsVlog asked).mono ?_ (fun _ _ _ => trivial)))
    intro envelope after both
    obtain ⟨later,read⟩ := both
    refine delivers_lift.mpr ⟨?_,fun _ _ => trivial⟩
    intro _ matched
    have same := rejectIf_ok.mp matched
    simp only [not_or,not_not,ne_eq] at same
    exact ⟨later,rejectIf_ok.mp present,envelope,read,same⟩

theorem asked_loadUnstableDescriptors (durableSeq headSeq : Nat) :
    Leaves (loadUnstableDescriptors durableSeq headSeq) Asked := by
  unfold loadUnstableDescriptors
  refine asked_bind (asked_lift _) ?_
  intro range
  cases range with
  | none => exact asked_pure _
  | some range => exact asked_bind (asked_reading _).mapError (fun _ => asked_lift _)

theorem asked_acceptDescriptor (accepted : Accepted) (descriptor : TransactionDescriptor) :
    Leaves (acceptDescriptor accepted descriptor) Asked := by
  unfold acceptDescriptor
  split
  · exact asked_pure _
  · split
    · exact asked_pure _
    · refine asked_bind (fun storage => delivers_attempt.mpr (asked_readingVlog _ storage)) ?_
      intro outcome
      cases outcome with
      | ok _ => exact asked_pure _
      | error error =>
        dsimp only
        split
        · exact asked_pure _
        · exact Leaves.throw _ Asked.refl

theorem asked_acceptAll (accepted : Accepted) (descriptors : List TransactionDescriptor) :
    Leaves (acceptAll accepted descriptors) Asked := by
  induction descriptors generalizing accepted with
  | nil => exact asked_pure _
  | cons descriptor rest ih =>
    refine asked_bind (asked_acceptDescriptor accepted descriptor) ?_
    intro taken
    cases taken with
    | true => exact ih _
    | false => exact Leaves.throw _ Asked.refl

theorem asked_revalidateTarget (state : RecoveryState) (frontier : DurableFrontier)
    (descriptors : List TransactionDescriptor) : Leaves (revalidateTarget state frontier descriptors) Asked :=
  asked_bind (asked_lift _) (fun _ => asked_bind (asked_acceptAll _ _) (fun _ => asked_lift _))

-- A taken descriptor extends the prefix, whatever other reads failed.
theorem acceptDescriptor_takes (asked : Asked start now) (descriptor : TransactionDescriptor) :
    Delivers (acceptDescriptor accepted descriptor) now
      (fun taken _ => taken = true → Acceptable start.vlog accepted descriptor) (fun _ _ => True) := by
  obtain ⟨_,rfl⟩ := asked
  unfold acceptDescriptor
  cases kind : descriptor.txMeta.transactionKind with
  | indexOnlyDelete =>
    intro _ other
    rw [kind] at other
    cases other
  | vlogEnvelope =>
    dsimp only
    split
    · exact fun no => by cases no
    · rename_i begins
      rw [delivers_bind,delivers_attempt,readingVlog,delivers_bind]
      refine delivers_reading ?_ ?_
      · intro script
        refine delivers_lift.mpr ⟨?_,?_⟩
        · intro _ read _ _
          exact ⟨not_not.mp begins,read⟩
        · intro error _
          dsimp only
          split
          · exact fun no => by cases no
          · trivial
      · intro error script
        dsimp only
        split
        · exact fun no => by cases no
        · trivial

-- The end of the accepted prefix is the durable one or lies behind it.
def Moved (frontier : DurableFrontier) (accepted : Accepted) : Prop :=
  (accepted.vlogSeq = frontier.durableVlogSeq ∧ accepted.vlogEnd = frontier.durableVlogEnd) ∨
    durableEndStrictlyAfter accepted.vlogEnd frontier.durableVlogEnd = true

theorem Moved.take {descriptor : TransactionDescriptor} (moved : Moved frontier accepted)
    (geometry : start.vlog.geometry = production) (acceptable : Acceptable start.vlog accepted descriptor) :
    Moved frontier (accepted.take descriptor) := by
  unfold Accepted.take
  cases kind : descriptor.txMeta.transactionKind with
  | indexOnlyDelete => exact moved
  | vlogEnvelope =>
    obtain ⟨begins,read⟩ := acceptable kind
    have before := (readAndValidateEnvelope_ok geometry read).1
    rw [begins] at before
    refine .inr (durableEndStrictlyAfter_append before ?_)
    rcases moved with ⟨-,same⟩ | after
    · exact .inl same
    · exact .inr after

theorem acceptLongest_moved (geometry : start.vlog.geometry = production) (asked : Asked start now)
    (moved : Moved frontier accepted) :
    Delivers (acceptLongest accepted descriptors) now
      (fun result after => Asked start after ∧ Moved frontier result) (fun _ _ => True) := by
  induction descriptors generalizing accepted now with
  | nil => exact ⟨asked,moved⟩
  | cons descriptor rest ih =>
    refine ((asked_acceptDescriptor accepted descriptor now).and (acceptDescriptor_takes asked descriptor)).bind ?_
      (fun _ _ _ => trivial)
    intro taken after both
    obtain ⟨later,takes⟩ := both
    have asked := Asked.trans _ _ _ asked later
    cases taken with
    | true => exact ih asked (moved.take geometry (takes rfl))
    | false => exact ⟨asked,moved⟩

-- What is known before a target is chosen.
structure Surveyed (index : Index) (frontier : DurableFrontier) (headSeq : Nat)
    (recoveryState : Option RecoveryState) : Prop where
  identified : index.system[databaseIdentityKey]? ≠ none
  head : ∃ encoded, index.system[headSeqKey]? = some encoded ∧ decodeHeadSeq encoded = .ok headSeq
  frontier : ∃ encoded, index.system[durableFrontierKey]? = some encoded ∧
    DurableFrontier.decode encoded = .ok frontier
  state : decodeRecoveryState index.system[recoveryStateKey]? = .ok recoveryState

theorem analyzeNewTarget_drawn (surveyed : Surveyed start.index frontier headSeq none)
    (geometry : start.vlog.geometry = production) (asked : Asked start now) :
    Delivers (analyzeNewTarget identity frontier headSeq descriptors inventory topology) now
      (fun plan after => Drawn start.index plan ∧ Asked start after) (fun _ _ => True) := by
  refine (acceptLongest_moved geometry asked (.inl ⟨rfl,rfl⟩)).bind ?_ (fun _ _ _ => trivial)
  intro accepted after both
  refine delivers_lift.mpr ⟨?_,fun _ _ => trivial⟩
  intro plan built
  simp only [buildPlan,bind_ok,exists_unit,rejectIf_ok,pure_ok,Except.ok.injEq,not_or,Nat.not_lt] at built
  obtain ⟨⟨durable,head,-⟩,-,rfl⟩ := built
  exact ⟨⟨surveyed.identified,surveyed.head,surveyed.frontier,surveyed.state,⟨durable,head⟩,both.2,
    fun _ no => by cases no⟩,both.1⟩

omit [Crc32c] in
-- A frozen target lies behind the durable one; once it is reached it is the durable one.
theorem validateRecoveryStateAgainstCurrent_ok {state : RecoveryState}
    (current : validateRecoveryStateAgainstCurrent state frontier headSeq = .ok ()) :
    Moved frontier ⟨state.targetSeq,state.targetVlogSeq,state.targetVlogEnd⟩ ∧
      (state.phase ≠ .undo → headSeq = state.targetSeq ∧
        (⟨state.targetSeq,state.targetVlogSeq,state.targetVlogEnd⟩ : DurableFrontier) = frontier) := by
  simp only [validateRecoveryStateAgainstCurrent,bind_ok,exists_unit,rejectIf_ok] at current
  obtain ⟨-,ends,phase⟩ := current
  refine ⟨?_,?_⟩
  · split at ends
    · rename_i same
      exact .inl ⟨same,not_not.mp ends⟩
    · exact .inr (by simpa using ends)
  · intro later
    split at phase
    · exact absurd ‹_› later
    all_goals
      have equal := rejectIf_ok.mp phase
      simp only [ne_eq,not_or,not_not] at equal
      obtain ⟨durableSeq,durableVlogSeq,durableVlogEnd⟩ := frontier
      simp only at equal
      simp [equal]

theorem decodeRecoveryState_some {found : Option Bytes} {state : RecoveryState}
    (decoded : decodeRecoveryState found = .ok (some state)) :
    ∃ encoded, found = some encoded ∧ RecoveryState.decode encoded = .ok state := by
  cases found with
  | none => cases decoded
  | some encoded =>
    cases read : RecoveryState.decode encoded with
    | error error => simp [decodeRecoveryState,read,Except.map,Except.mapError] at decoded
    | ok other =>
      simp only [decodeRecoveryState,read,Except.map,Except.mapError,Except.ok.injEq,Option.some.injEq] at decoded
      exact ⟨encoded,rfl,by rw [read,decoded]⟩

theorem analyzeFixedTarget_drawn {state : RecoveryState} (surveyed : Surveyed start.index frontier headSeq (some state))
    (asked : Asked start now) :
    Delivers (analyzeFixedTarget identity frontier headSeq descriptors state inventory topology) now
      (fun plan after => Drawn start.index plan ∧ Asked start after) (fun _ _ => True) := by
  unfold analyzeFixedTarget
  refine Asked.settle ?_
  intro _ current
  have planned : ∀ {after : Storage}, Asked start after → Delivers (do
      let plan ← Eff.lift (buildPlan identity frontier headSeq
        ⟨state.targetSeq,state.targetVlogSeq,state.targetVlogEnd⟩ descriptors (some state) inventory topology)
      Eff.lift (checkTrim state plan.needsTrim)
      return {plan with needsUndo := decide (state.phase = .undo ∧ headSeq > state.targetSeq)}) after
      (fun plan after => Drawn start.index plan ∧ Asked start after) (fun _ _ => True) := by
    intro after later
    refine Asked.settle ?_
    intro plan built
    refine Asked.settle ?_
    intro _ _
    refine ⟨?_,later⟩
    simp only [buildPlan,bind_ok,exists_unit,rejectIf_ok,pure_ok,Except.ok.injEq,not_or,Nat.not_lt] at built
    obtain ⟨⟨durable,head,-⟩,-,rfl⟩ := built
    obtain ⟨moved,rests⟩ := validateRecoveryStateAgainstCurrent_ok current
    obtain ⟨encoded,-,decoded⟩ := decodeRecoveryState_some surveyed.state
    refine ⟨surveyed.identified,surveyed.head,surveyed.frontier,surveyed.state,⟨durable,head⟩,moved,?_⟩
    intro other same
    obtain rfl := Option.mem_some.mp same
    exact ⟨⟨rfl,rfl,rfl,(RecoveryState.decode_canonical decoded).2⟩,rests⟩
  split
  · exact asked.follow (asked_revalidateTarget _ _ _) (fun _ _ later => planned later)
  · exact planned asked

-- What an analysis has established when it returns a plan.
theorem analyzeRecovery_anchored {ready : Storage} (analyzed : analyzeRecovery format inventory start = .ok plan ready) :
    Drawn start.index plan ∧ Asked start ready ∧ start.vlog.geometry = production ∧
      StableBoundary start.vlog plan.durableFrontier := by
  have run : Delivers (analyzeRecovery format inventory) start
      (fun plan after => Drawn start.index plan ∧ Asked start after ∧ start.vlog.geometry = production ∧
        StableBoundary start.vlog plan.durableFrontier) (fun _ _ => True) := by
    unfold analyzeRecovery
    refine @Asked.required start start _ databaseIdentityKey _ _ (.refl start) ?_
    intro identity after identified asked
    refine Asked.settle (fun _ _ => ?_)
    obtain ⟨_,rfl⟩ := asked
    refine delivers_bind.mpr (delivers_bind.mpr (delivers_get.mpr (delivers_lift.mpr ⟨?_,fun _ _ => trivial⟩)))
    intro _ measured
    have geometry : start.vlog.geometry = production := not_not.mp (rejectIf_ok.mp measured)
    refine Asked.required ⟨_,rfl⟩ ?_
    intro encodedFrontier after storedFrontier asked
    refine Asked.settle ?_
    intro frontier decodedFrontier
    refine asked.required ?_
    intro encodedHead after storedHead asked
    refine Asked.settle ?_
    intro headSeq decodedHead
    refine Asked.settle (fun _ _ => ?_)
    refine asked.getInternal ?_
    intro after asked
    refine Asked.settle ?_
    intro recoveryState decodedState
    refine Asked.settle (fun topology _ => ?_)
    refine (asked.stableBoundary frontier).bind ?_ (fun _ _ _ => trivial)
    intro _ after both
    obtain ⟨asked,boundary⟩ := both
    refine asked.follow (asked_loadUnstableDescriptors _ _) (fun descriptors after asked => ?_)
    have surveyed : Surveyed start.index frontier headSeq recoveryState :=
      ⟨by rw [identified]; exact Option.some_ne_none _,⟨encodedHead,storedHead,mapError_ok.mp decodedHead⟩,
        ⟨encodedFrontier,storedFrontier,mapError_ok.mp decodedFrontier⟩,decodedState⟩
    have settled : ∀ plan after, Drawn start.index plan ∧ Asked start after → Drawn start.index plan ∧
        Asked start after ∧ start.vlog.geometry = production ∧ StableBoundary start.vlog plan.durableFrontier := by
      intro plan after both
      obtain ⟨drawn,asked⟩ := both
      obtain ⟨encoded,found,decoded⟩ := drawn.frontier
      obtain rfl := Option.some.inj (storedFrontier.symm.trans found)
      have same : frontier = plan.durableFrontier := Except.ok.inj ((mapError_ok.mp decodedFrontier).symm.trans decoded)
      exact ⟨drawn,asked,geometry,same ▸ boundary⟩
    cases recoveryState with
    | none => exact (analyzeNewTarget_drawn surveyed geometry asked).mono settled (fun _ _ _ => trivial)
    | some state => exact (analyzeFixedTarget_drawn surveyed asked).mono settled (fun _ _ _ => trivial)
  exact run.of_ok analyzed

-- Every plan an analysis returns, under any answers of the storage.
theorem analyzeRecovery_drawn {ready : Storage} (analyzed : analyzeRecovery format inventory start = .ok plan ready) :
    Drawn start.index plan ∧ Asked start ready := by
  obtain ⟨drawn,asked,-⟩ := analyzeRecovery_anchored analyzed
  exact ⟨drawn,asked⟩

end analysis

end ExpirKv
