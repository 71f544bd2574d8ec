import ExpirKv.Recovery.ExecuteSteps
import ExpirKv.Recovery.Resume
import ExpirKv.Recovery.TrimSteps

namespace ExpirKv
open VLogGeometry Storage

-- The same storage when it answers every call.
def Storage.answering (storage : Storage) : Storage := {storage with script := []}

theorem Storage.Honest.answering {storage : Storage} (honest : storage.Honest) : storage.answering = storage := by
  obtain ⟨index,vlog,script,trace⟩ := storage
  obtain rfl : script = [] := honest
  rfl

section landing
variable [Crc32c] {now after : Storage} {batch : IndexAtomicBatch}

-- A batch that is applied; no file moves.
structure Applies (batch : IndexAtomicBatch) (before after : Storage) : Prop where
  index : after.index = before.index.apply batch
  vlog : after.vlog = before.vlog
  answered : before.script = [] → after.script = []

theorem commitRecoveryBatch_lands (ordinary : batch.Ordinary) (identified : now.index.system[databaseIdentityKey]? ≠ none) :
    Delivers (commitRecoveryBatch batch) now (fun _ after => Applies batch now after)
      (fun _ after => now.script ≠ [] ∧ (Still now after ∨ Applies batch now after)) := by
  simp only [commitRecoveryBatch,delivers_mapError]
  by_cases honest : now.script = []
  · rw [delivers_commitAtomic_honest honest ordinary identified]
    exact ⟨rfl,rfl,fun _ => honest⟩
  · have some : ∀ {after : Storage}, now.script = [] → after.script = [] := fun none => absurd none honest
    refine delivers_commitAtomic ordinary identified ?_ ?_ ?_ ?_
    · exact fun _ => ⟨rfl,rfl,some⟩
    · exact fun _ _ => ⟨honest,.inl ⟨rfl,rfl,some⟩⟩
    · exact fun _ _ => ⟨honest,.inl ⟨rfl,rfl,some⟩⟩
    · exact fun _ _ => ⟨honest,.inr ⟨rfl,rfl,some⟩⟩

theorem commitBuilt_lands {built : Result IndexAtomicBatch} (same : built = .ok batch) (ordinary : batch.Ordinary)
    (identified : now.index.system[databaseIdentityKey]? ≠ none) :
    Delivers (commitBuilt built) now (fun _ after => Applies batch now after)
      (fun _ after => now.script ≠ [] ∧ (Still now after ∨ Applies batch now after)) := by
  rw [commitBuilt,same]
  refine delivers_bind.mpr (delivers_lift.mpr ⟨?_,fun _ no => by cases no⟩)
  intro found again
  obtain rfl := Except.ok.inj again
  exact commitRecoveryBatch_lands ordinary identified

def Unaltered (before after : Storage) : Prop := after.vlog = before.vlog ∧ after.index = before.index

omit [Crc32c] in
theorem unaltered_calm : Calm Unaltered :=
  ⟨fun _ => ⟨rfl,rfl⟩,fun _ _ _ left right => ⟨right.1.trans left.1,right.2.trans left.2⟩,fun _ _ => ⟨rfl,rfl⟩,
    fun _ _ => ⟨rfl,rfl⟩,fun _ => ⟨rfl,rfl⟩⟩

omit [Crc32c] in
-- What changes nothing, and succeeds where every call is answered, fails only on an answer.
theorem harmless_of_honest {α : Type} {x : Eff Storage StorageError α} (leaves : Leaves x Unaltered)
    (honest : now.Honest → Delivers x now (fun _ after => after = now) (fun _ _ => False)) :
    Harmless x now (fun _ => True) := by
  by_cases answered : now.Honest
  · refine (honest answered).mono ?_ (fun _ _ no => no.elim)
    rintro _ _ rfl
    exact ⟨trivial,.refl _⟩
  · have still : ∀ {after : Storage}, Unaltered now after → Still now after :=
      fun same => ⟨same.1,same.2,fun none => absurd none answered⟩
    exact (leaves now).mono (fun _ _ same => ⟨trivial,still same⟩) (fun _ _ same => ⟨answered,still same⟩)

end landing

section reverting

-- One transaction taken back: the before states stand where the after states stood, and its entries are gone.
structure Reverts (descriptor : TransactionDescriptor) (before after : Index) : Prop where
  matched : ∀ mutation ∈ descriptor.mutations,
    afterStateMatches before.user[mutation.userKey]? mutation.afterState = .ok true
  user : ∀ key : Bytes, after.user[key]? =
    (lastValue (stateWrites TxMutation.beforeState descriptor.mutations) key).getD before.user[key]?
  transaction : ∀ key : Bytes, after.transaction[key]? =
    if key ∈ (before.transaction.scan (seqRange descriptor.txMeta.commitSeq)).map Prod.fst then none
    else before.transaction[key]?

-- Transactions taken back, the last one first. The system keyspace has no part in it.
inductive Unwinds : List TransactionDescriptor → Index → Index → Prop
  | nil {before last : Index} (user : last.user = before.user) (transaction : last.transaction = before.transaction) :
      Unwinds [] before last
  | snoc {front : List TransactionDescriptor} {newest : TransactionDescriptor} {before middle last : Index}
      (turn : Reverts newest before middle) (rest : Unwinds front middle last) : Unwinds (front ++ [newest]) before last

variable {before after middle last other point : Index} {undone : List TransactionDescriptor}
  {descriptor : TransactionDescriptor} {encoded : EncodedDescriptor}

theorem Unwinds.of_same (unwinds : Unwinds undone before last) (user : other.user = before.user)
    (transaction : other.transaction = before.transaction) : Unwinds undone other last := by
  cases unwinds with
  | nil users transactions => exact .nil (users.trans user.symm) (transactions.trans transaction.symm)
  | snoc turn rest =>
    refine .snoc ⟨?_,?_,?_⟩ rest
    · rw [user]
      exact turn.matched
    · rw [user]
      exact turn.user
    · rw [transaction]
      exact turn.transaction

theorem Unwinds.nil_same (unwinds : Unwinds [] before last) :
    last.user = before.user ∧ last.transaction = before.transaction := by
  generalize none : ([] : List TransactionDescriptor) = undone at unwinds
  cases unwinds with
  | nil user transaction => exact ⟨user,transaction⟩
  | snoc => simp at none

theorem Unwinds.snoc_inv {front : List TransactionDescriptor} (unwinds : Unwinds (front ++ [descriptor]) before last) :
    ∃ middle, Reverts descriptor before middle ∧ Unwinds front middle last := by
  generalize whole : front ++ [descriptor] = undone at unwinds
  cases unwinds with
  | nil => simp at whole
  | snoc turn rest =>
    obtain ⟨rfl,same⟩ := List.append_inj' whole rfl
    obtain rfl := (List.cons.inj same).1
    exact ⟨_,turn,rest⟩

theorem undoBatch_reverts {nextSeq : Nat} {bytes : Bytes} (matched : ∀ mutation ∈ descriptor.mutations,
      afterStateMatches before.user[mutation.userKey]? mutation.afterState = .ok true)
    (scanned : before.transaction.scan (seqRange descriptor.txMeta.commitSeq) = encoded.entries) :
    Reverts descriptor before (before.apply (undoBatch descriptor encoded nextSeq bytes)) := by
  have writes := undoBatch_writes descriptor encoded nextSeq bytes
  refine ⟨matched,fun key => writes.user before key,?_⟩
  intro key
  rw [writes.transaction before key,lastValue_deletions,scanned]
  split <;> rfl

theorem Reverts.same_user (one : Reverts descriptor before middle) (another : Reverts descriptor before after) :
    after.user = middle.user ∧ after.transaction = middle.transaction := by
  constructor
  · apply Keyspace.ext_getElem?
    intro key
    rw [one.user,another.user]
  · apply Keyspace.ext_getElem?
    intro key
    rw [one.transaction,another.transaction]

variable [Crc32c]

theorem Transacts.afterStateMatches (transacts : Transacts before after encoded descriptor) {mutation : TxMutation}
    (member : mutation ∈ descriptor.mutations) :
    afterStateMatches after.user[mutation.userKey]? mutation.afterState = .ok true := by
  rw [transacts.current member]
  cases state : mutation.afterState with
  | none => rfl
  | some pointer =>
    have encodes := ValuePointer.encode_bytes.mpr ⟨transacts.encodable mutation member pointer (.inr state),rfl⟩
    simp [ExpirKv.afterStateMatches,encodes,Except.mapError,storedState]

-- What was committed can be taken back.
theorem Transacts.reverts (transacts : Transacts before after encoded descriptor) : Reverts descriptor after before := by
  refine ⟨fun mutation member => transacts.afterStateMatches member,fun key => (transacts.restoresUser key).symm,?_⟩
  intro key
  rw [transacts.stores.scan transacts.transaction transacts.below,
    ←transacts.restoresTransaction (lastValue_deletions encoded) key,lastValue_deletions]
  split <;> rfl

theorem Transacted.unwinds {first : Index} {chain : List (EncodedDescriptor × TransactionDescriptor)}
    (history : Transacted first chain last) : Unwinds (chain.map Prod.snd) last first := by
  induction history with
  | nil => exact .nil rfl rfl
  | snoc earlier step ih =>
    rw [List.map_append,List.map_singleton]
    exact .snoc step.reverts ih

end reverting

section turns
variable [Crc32c] {start now after : Storage} {plan : RecoveryPlan} {state : RecoveryState} {middle point : Index}
  {descriptor : TransactionDescriptor} {encoded : EncodedDescriptor} {undone : List TransactionDescriptor}

theorem Unwound.moved (unwound : Unwound start plan.durableFrontier.durableSeq plan.descriptors state now.answering)
    (index : after.index = now.index) (vlog : after.vlog = now.vlog) :
    Unwound start plan.durableFrontier.durableSeq plan.descriptors state after.answering := by
  have same : after.answering.index = now.answering.index := index
  obtain ⟨-,files,head,progress,others,described⟩ := unwound
  refine ⟨rfl,vlog.trans files,?_,?_,?_,?_⟩ <;> rwa [same]

theorem loadDescriptor_harmless (stores : Stores encoded descriptor)
    (scanned : now.index.transaction.scan (seqRange descriptor.txMeta.commitSeq) = encoded.entries) :
    Harmless (loadDescriptor descriptor) now (fun loaded => loaded =
      ⟨descriptor,(encoded.metaKey,encoded.metaValue),encoded.mutations.map EncodedMutation.entry⟩) := by
  rw [loadDescriptor,descriptorRange_eq stores.positive]
  refine delivers_bind.mpr (delivers_lift.mpr ⟨?_,fun _ no => by cases no⟩)
  intro range found
  obtain rfl := Except.ok.inj found
  have scans := @reading_harmless now _ (fun storage => (storage.index.keyspace (.internal .transaction)).scan
    (seqRange descriptor.txMeta.commitSeq)) (fun _ => rfl)
  refine scans.mapError.bind (.refl now) ?_ (fun _ _ some still => ⟨some,still⟩)
  rintro entries reached rfl still
  have loaded := stores.load
  rw [←scanned] at loaded
  change Delivers (Eff.lift (loadEntries descriptor (now.index.transaction.scan _))) reached _ _
  rw [loaded]
  exact delivers_lift.mpr ⟨fun _ same => ⟨(Except.ok.inj same).symm,still⟩,fun _ no => by cases no⟩

omit [Crc32c] in
theorem validateCurrentAfterStates_harmless (matched : ∀ mutation ∈ descriptor.mutations,
    afterStateMatches now.index.user[mutation.userKey]? mutation.afterState = .ok true) :
    Harmless (validateCurrentAfterStates descriptor) now (fun _ => True) := by
  refine harmless_forM ?_
  intro mutation member reached still
  refine (reading_harmless _ (fun _ => rfl)).mapError.bind (.refl reached) ?_ (fun _ _ some kept => ⟨some,kept⟩)
  rintro found read rfl kept
  rw [still.index,matched mutation member]
  exact delivers_bind.mpr (delivers_lift.mpr ⟨fun _ same => delivers_lift.mpr
    ⟨fun _ _ => ⟨trivial,kept⟩,fun _ no => by obtain rfl := Except.ok.inj same; cases no⟩,fun _ no => by cases no⟩)

omit [Crc32c] in
-- What the check of the after states has seen when it passes.
theorem validateCurrentAfterStates_matched (honest : now.Honest) :
    Delivers (validateCurrentAfterStates descriptor) now (fun _ reached => reached = now ∧ ∀ mutation ∈ descriptor.mutations,
      afterStateMatches now.index.user[mutation.userKey]? mutation.afterState = .ok true) (fun _ _ => True) := by
  unfold validateCurrentAfterStates
  induction descriptor.mutations with
  | nil => exact ⟨rfl,fun _ no => by cases no⟩
  | cons mutation rest ih =>
    have first : Delivers (validateCurrentAfterState mutation) now (fun _ reached => reached = now ∧
        afterStateMatches now.index.user[mutation.userKey]? mutation.afterState = .ok true) (fun _ _ => True) := by
      simp only [validateCurrentAfterState,getUser,delivers_bind,delivers_mapError,delivers_reading_honest honest,
        delivers_lift,implies_true,and_true]
      intro same found _ passed
      have held := rejectIf_ok.mp passed
      rw [found,Bool.not_eq_false] at *
      rw [held]
      exact ⟨trivial,rfl⟩
    change Delivers (validateCurrentAfterState mutation >>= fun _ => rest.forM validateCurrentAfterState) now _ _
    refine first.bind ?_ (fun _ _ _ => trivial)
    rintro _ _ ⟨rfl,here⟩
    refine ih.mono ?_ (fun _ _ _ => trivial)
    rintro _ _ ⟨same,later⟩
    refine ⟨same,?_⟩
    intro other member
    rcases List.mem_cons.mp member with rfl | member
    · exact here
    · exact later other member

-- A turn that was made: what it gave back, and where the undo stands behind it.
structure Turned (start : Storage) (plan : RecoveryPlan) (next : RecoveryState) (middle : Index) (now after : Storage) :
    Prop where
  vlog : after.vlog = now.vlog
  answered : now.script = [] → after.script = []
  user : after.index.user = middle.user
  transaction : after.index.transaction = middle.transaction
  unwound : Unwound start plan.durableFrontier.durableSeq plan.descriptors next after.answering

theorem undoTransaction_turns
    (unwound : Unwound start plan.durableFrontier.durableSeq plan.descriptors state now.answering)
    (valid : state.validate = .ok ()) (phase : state.phase = .undo) (more : state.targetSeq < state.nextUndoSeq)
    (above : plan.durableFrontier.durableSeq ≤ state.targetSeq)
    (identified : start.index.system[databaseIdentityKey]? ≠ none)
    (expected : expectedDescriptor plan state.nextUndoSeq = .ok descriptor) (reverts : Reverts descriptor now.index middle) :
    Delivers (undoTransaction plan state) now
      (fun next after => next = {state with nextUndoSeq := state.nextUndoSeq - 1} ∧ Turned start plan next middle now after)
      (fun _ after => now.script ≠ [] ∧ (Still now after ∨
        Turned start plan {state with nextUndoSeq := state.nextUndoSeq - 1} middle now after)) := by
  obtain ⟨found,encoded,bytes,again,undoable,scanned,encodes,later⟩ := unwound.turn valid phase more above
  obtain rfl := Except.ok.inj (expected.symm.trans again)
  obtain ⟨built,ordinary⟩ := undoable.batch_eq encodes (RecoveryState.encode_present encodes)
  have scanned : now.index.transaction.scan (seqRange descriptor.txMeta.commitSeq) = encoded.entries := scanned
  have present : now.index.system[databaseIdentityKey]? ≠ none := by
    rw [show now.index = now.answering.index from rfl,unwound.others _ (by decide) (by decide)]
    exact identified
  have turned : ∀ {read after : Storage}, Still now read →
      Applies (undoBatch descriptor encoded (state.nextUndoSeq - 1) bytes) read after →
      Turned start plan {state with nextUndoSeq := state.nextUndoSeq - 1} middle now after := by
    intro read after still applies
    have index := applies.index
    rw [still.index] at index
    obtain ⟨user,transaction⟩ := reverts.same_user (undoBatch_reverts reverts.matched scanned)
    refine ⟨applies.vlog.trans still.vlog,fun none => applies.answered (still.answered none),by rw [index]; exact user,
      by rw [index]; exact transaction,?_⟩
    exact @Unwound.moved _ start (now.answering.committed _ .syncAll) after plan _ later index
      (applies.vlog.trans still.vlog)
  rw [undoTransaction,expected]
  refine delivers_bind.mpr (delivers_lift.mpr ⟨?_,fun _ failed => by cases failed⟩)
  intro taken same
  obtain rfl := Except.ok.inj same
  refine (loadDescriptor_harmless undoable.stores scanned).bind (.refl now) ?_ (fun _ _ some still => ⟨some,.inl still⟩)
  rintro loaded read rfl still
  have checks : Harmless (validateCurrentAfterStates descriptor) read (fun _ => True) :=
    validateCurrentAfterStates_harmless (by rw [still.index]; exact reverts.matched)
  refine checks.bind still ?_ (fun _ _ some still => ⟨some,.inl still⟩)
  intro _ checked _ still
  dsimp only
  rw [built]
  refine delivers_bind.mpr (delivers_lift.mpr ⟨?_,fun _ failed => by cases failed⟩)
  intro batch same
  obtain rfl := Except.ok.inj same
  refine (commitRecoveryBatch_lands ordinary (by rw [still.index]; exact present)).bind ?_ ?_
  · exact fun _ _ applies => ⟨rfl,turned still applies⟩
  · rintro _ after ⟨some,kept | applies⟩
    · exact ⟨fun none => some (still.answered none),.inl (still.trans kept)⟩
    · exact ⟨fun none => some (still.answered none),.inr (turned still applies)⟩

-- Where an undo of these transactions stands, the last ones first: so many are still to come.
def UndoStage (start : Storage) (plan : RecoveryPlan) (state : RecoveryState) (undone : List TransactionDescriptor)
    (point : Index) (after : Storage) : Prop :=
  ∃ left ≤ undone.length, Unwound start plan.durableFrontier.durableSeq plan.descriptors
    {state with nextUndoSeq := state.targetSeq + left} after.answering ∧ Unwinds (undone.take left) after.index point

omit [Crc32c] in
theorem expected_last {front : List TransactionDescriptor} {newest : TransactionDescriptor}
    (next : state.nextUndoSeq = state.targetSeq + (front.length + 1))
    (expected : ∀ index (bound : index < (front ++ [newest]).length),
      expectedDescriptor plan (state.targetSeq + 1 + index) = .ok (front ++ [newest])[index]) :
    expectedDescriptor plan state.nextUndoSeq = .ok newest := by
  have last := expected front.length (by simp)
  rw [List.getElem_append_right (Nat.le_refl _)] at last
  rw [show state.nextUndoSeq = state.targetSeq + 1 + front.length by omega]
  simpa using last

-- Wherever the turns are cut, the transactions that are left can still be taken back.
theorem undoTurns_unwinds (unwinds : Unwinds undone now.index point)
    (unwound : Unwound start plan.durableFrontier.durableSeq plan.descriptors state now.answering)
    (next : state.nextUndoSeq = state.targetSeq + undone.length) (valid : state.validate = .ok ())
    (phase : state.phase = .undo) (above : plan.durableFrontier.durableSeq ≤ state.targetSeq)
    (identified : start.index.system[databaseIdentityKey]? ≠ none)
    (expected : ∀ index (bound : index < undone.length),
      expectedDescriptor plan (state.targetSeq + 1 + index) = .ok undone[index]) :
    Delivers (undoTurns plan undone.length state) now
      (fun result after => result = {state with nextUndoSeq := state.targetSeq} ∧ Turned start plan result point now after)
      (fun _ after => now.script ≠ [] ∧ after.vlog = now.vlog ∧ UndoStage start plan state undone point after) := by
  induction undone using List.reverseRecOn generalizing now state with
  | nil =>
    have same : state = {state with nextUndoSeq := state.targetSeq} := by
      obtain ⟨phase,originalHead,targetSeq,targetVlogSeq,targetVlogEnd,nextUndoSeq,trimRequired⟩ := state
      simp only [List.length_nil,Nat.add_zero] at next
      rw [next]
    obtain ⟨user,transaction⟩ := unwinds.nil_same
    exact ⟨same,rfl,id,user.symm,transaction.symm,unwound⟩
  | append_singleton front newest ih =>
    obtain ⟨middle,turn,rest⟩ := unwinds.snoc_inv
    rw [List.length_append,List.length_singleton] at next
    have lowered := RecoveryState.validate_lowered valid phase (by omega)
    have known := expected_last next expected
    have lower : {state with nextUndoSeq := state.nextUndoSeq - 1} =
        {state with nextUndoSeq := state.targetSeq + front.length} := by
      rw [show state.nextUndoSeq - 1 = state.targetSeq + front.length by omega]
    have standing : ∀ {after : Storage},
        Turned start plan {state with nextUndoSeq := state.nextUndoSeq - 1} middle now after →
        UndoStage start plan state (front ++ [newest]) point after := by
      intro after turned
      refine ⟨front.length,by simp,?_,?_⟩
      · rw [←lower]
        exact turned.unwound
      · rw [List.take_left]
        exact rest.of_same turned.user turned.transaction
    rw [List.length_append,List.length_singleton,undoTurns]
    refine (undoTransaction_turns unwound valid phase (by omega) above identified known turn).bind ?_ ?_
    · rintro _ reached ⟨rfl,turned⟩
      refine (ih (rest.of_same turned.user turned.transaction) turned.unwound (by simp only; omega) lowered phase above
        ?_).mono ?_ ?_
      · intro index bound
        have one := expected index (by rw [List.length_append]; omega)
        rwa [List.getElem_append_left bound] at one
      · rintro _ after ⟨rfl,later⟩
        exact ⟨rfl,later.vlog.trans turned.vlog,fun none => later.answered (turned.answered none),later.user,
          later.transaction,later.unwound⟩
      · rintro _ after ⟨some,vlog,left,bound,later,unwinds⟩
        refine ⟨fun none => some (turned.answered none),vlog.trans turned.vlog,left,?_,later,?_⟩
        · rw [List.length_append]
          omega
        · rwa [List.take_append_of_le_length bound]
    · rintro _ after ⟨some,still | turned⟩
      · refine ⟨some,still.vlog,front.length + 1,by simp,?_,?_⟩
        · rw [←Nat.add_assoc,Nat.add_assoc,←next]
          exact unwound.moved still.index still.vlog
        · rw [List.take_of_length_le (by simp),still.index]
          exact unwinds
      · exact ⟨some,turned.vlog,standing turned⟩

-- An undo that succeeded has found each transaction as it was left.
theorem undoTransaction_reverts (honest : now.Honest)
    (unwound : Unwound start plan.durableFrontier.durableSeq plan.descriptors state now)
    (valid : state.validate = .ok ()) (phase : state.phase = .undo) (more : state.targetSeq < state.nextUndoSeq)
    (above : plan.durableFrontier.durableSeq ≤ state.targetSeq)
    (expected : expectedDescriptor plan state.nextUndoSeq = .ok descriptor) :
    Delivers (undoTransaction plan state) now (fun _ _ => ∃ middle, Reverts descriptor now.index middle) (fun _ _ => True) := by
  obtain ⟨found,encoded,bytes,again,undoable,scanned,-⟩ := unwound.turn valid phase more above
  obtain rfl := Except.ok.inj (expected.symm.trans again)
  simp only [undoTransaction,expected,delivers_bind]
  refine delivers_lift.mpr ⟨?_,fun _ _ => trivial⟩
  intro taken same
  obtain rfl := Except.ok.inj same
  refine (loadDescriptor_delivers undoable.stores honest scanned ?_)
  refine (validateCurrentAfterStates_matched honest).mono ?_ (fun _ _ _ => trivial)
  rintro _ _ ⟨rfl,matched⟩
  have turn := @undoBatch_reverts _ _ encoded (state.nextUndoSeq - 1) bytes matched scanned
  refine delivers_lift.mpr ⟨fun batch _ => ?_,fun _ _ => trivial⟩
  refine (Delivers.self (commitRecoveryBatch batch) _).mono ?_ (fun _ _ _ => trivial)
  exact fun _ _ _ => ⟨_,turn⟩

theorem undoTurns_reverts (honest : now.Honest)
    (unwound : Unwound start plan.durableFrontier.durableSeq plan.descriptors state now)
    (next : state.nextUndoSeq = state.targetSeq + undone.length) (valid : state.validate = .ok ())
    (phase : state.phase = .undo) (above : plan.durableFrontier.durableSeq ≤ state.targetSeq)
    (identified : start.index.system[databaseIdentityKey]? ≠ none)
    (expected : ∀ index (bound : index < undone.length),
      expectedDescriptor plan (state.targetSeq + 1 + index) = .ok undone[index]) :
    Delivers (undoTurns plan undone.length state) now (fun _ _ => ∃ point, Unwinds undone now.index point)
      (fun _ _ => True) := by
  induction undone using List.reverseRecOn generalizing now state with
  | nil => exact ⟨now.index,.nil rfl rfl⟩
  | append_singleton front newest ih =>
    rw [List.length_append,List.length_singleton] at next
    have lowered := RecoveryState.validate_lowered valid phase (by omega)
    have known := expected_last next expected
    have reverted := undoTransaction_reverts honest unwound valid phase (by omega) above known
    rw [List.length_append,List.length_singleton,undoTurns]
    refine (reverted.and (Delivers.self _ now)).bind ?_ (fun _ _ _ => trivial)
    rintro following reached ⟨⟨middle,turn⟩,ran⟩
    rw [←honest.answering] at unwound
    obtain ⟨rfl,turned⟩ := (undoTransaction_turns unwound valid phase (by omega) above identified known turn).of_ok ran
    have still : reached.Honest := turned.answered honest
    have later := turned.unwound
    rw [still.answering] at later
    refine (ih still later (by simp only; omega) lowered phase above ?_).mono ?_ (fun _ _ _ => trivial)
    · intro index bound
      have one := expected index (by rw [List.length_append]; omega)
      rwa [List.getElem_append_left bound] at one
    · rintro _ _ ⟨point,rest⟩
      exact ⟨point,.snoc turn (rest.of_same turned.user.symm turned.transaction.symm)⟩

end turns

end ExpirKv
