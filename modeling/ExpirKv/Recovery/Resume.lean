import ExpirKv.Recovery.ExecuteFacts
import ExpirKv.Recovery.LongestPrefix
import ExpirKv.Recovery.UndoCommit

namespace ExpirKv
open VLogGeometry Storage

section checked
variable [Crc32c]

section last

theorem encodeDescriptor_undoable {encoded : EncodedDescriptor} {descriptor : TransactionDescriptor}
    (written : encodeDescriptor descriptor = .ok encoded) (stores : Stores encoded descriptor) :
    Undoable encoded descriptor := by
  have each : ∀ mutation ∈ descriptor.mutations, ∃ value, encodeTxMutation mutation = .ok value := by
    simp only [encodeDescriptor,bind_ok,exists_unit,rejectIf_ok,pure_ok,Except.ok.injEq,not_not,ne_eq] at written
    obtain ⟨-,-,-,mutations,encodes,-⟩ := written
    exact encodeMutations_each encodes
  refine ⟨stores,?_,?_⟩
  · intro mutation member
    obtain ⟨value,encodes⟩ := each mutation member
    exact (encodeTxMutation_facts encodes).1
  · intro mutation member pointer there
    obtain ⟨value,encodes⟩ := each mutation member
    exact (encodeTxMutation_facts encodes).2 pointer (.inl there)

variable {space : Keyspace} {durableSeq headSeq : Nat} {front : List TransactionDescriptor} {newest : TransactionDescriptor}

omit [Crc32c] in
theorem Keyspace.receives_of_deleted {shorter space : Keyspace} {entries : List (Bytes × Bytes)}
    (ordered : entries.Pairwise Keyspace.Before) (held : ∀ entry ∈ entries, space[entry.1]? = some entry.2)
    (deletes : ∀ key, shorter[key]? = if key ∈ entries.map Prod.fst then none else space[key]?) :
    shorter.Receives space entries := by
  have keys : (entries.map (fun entry => (entry.1,some entry.2))).map Prod.fst = entries.map Prod.fst := by
    rw [List.map_map]
    rfl
  intro key
  by_cases member : key ∈ entries.map Prod.fst
  · obtain ⟨entry,present,rfl⟩ := List.mem_map.mp member
    have distinct : ((entries.map (fun entry => (entry.1,some entry.2))).map Prod.fst).Nodup := by
      rw [keys]
      exact Keyspace.nodup_of_ordered ordered
    rw [(lastValue_of_nodup distinct).mpr (List.mem_map.mpr ⟨entry,present,rfl⟩),held entry present]
    rfl
  · rw [lastValue_of_notMem (by rw [keys]; exact member),deletes,if_neg member]
    rfl

theorem mapM_encoded {chain : List (EncodedDescriptor × TransactionDescriptor)}
    (written : ∀ stored ∈ chain, encodeDescriptor stored.2 = .ok stored.1) :
    (chain.map Prod.snd).mapM encodeDescriptor = .ok (chain.map Prod.fst) := by
  induction chain with
  | nil => rfl
  | cons first rest ih =>
    rw [List.map_cons,List.mapM_cons,written first List.mem_cons_self,ok_bind,
      ih (fun stored member => written stored (List.mem_cons_of_mem _ member)),ok_bind,pure_ok,List.map_cons]

-- The entries above the durable sequence, as one chain.
theorem DescribedAbove.chain {descriptors : List TransactionDescriptor}
    (described : DescribedAbove space durableSeq headSeq descriptors) (room : durableSeq + 1 < 18446744073709551616) :
    ∃ chain, StoredFrom (durableSeq + 1) chain ∧ chain.map Prod.snd = descriptors ∧
      (∀ stored ∈ chain, encodeDescriptor stored.2 = .ok stored.1) ∧
      ∀ key value : Bytes, compare key (txKeyHead (durableSeq + 1)) ≠ .lt →
        (space[key]? = some value ↔ (key,value) ∈ storedEntries chain) := by
  obtain ⟨encoded,written,found⟩ := (described.intact room).stored
  obtain ⟨chain,stored,rfl,rfl⟩ := mapM_storedFrom written described.each described.numbered
  refine ⟨chain,stored,rfl,?_,?_⟩
  · intro pair member
    refine mapM_ok_zip written (pair.2,pair.1) ?_
    rw [List.zip_map']
    exact List.mem_map_of_mem member
  · intro key value above
    rw [found key value above]
    simp [storedEntries]

omit [Crc32c] in
theorem txKey_above_mono {key : Bytes} {low high : Nat} (ordered : low ≤ high) (fits : high < 18446744073709551616)
    (above : compare key (txKeyHead high) ≠ .lt) : compare key (txKeyHead low) ≠ .lt := by
  intro lower
  rcases Nat.lt_or_eq_of_le ordered with further | rfl
  · exact above (Std.TransCmp.lt_trans lower (txKeyHead_lt fits further))
  · exact above lower

-- Nothing is stored above the head.
theorem DescribedAbove.none_above {descriptors : List TransactionDescriptor}
    (described : DescribedAbove space durableSeq headSeq descriptors) (ordered : durableSeq ≤ headSeq) :
    DescribedAbove space headSeq headSeq [] := by
  have empty : ([] : List TransactionDescriptor).length = headSeq - headSeq := by simp
  refine ⟨empty,fun index bound => absurd bound (Nat.not_lt_zero _),?_,fun _ member => by cases member⟩
  intro room
  refine ⟨empty,fun index bound => absurd bound (Nat.not_lt_zero _),[],rfl,?_⟩
  intro key value above
  obtain ⟨chain,stored,snds,-,found⟩ := described.chain (by omega)
  have count := described.length
  rw [←snds,List.length_map] at count
  rw [found key value (txKey_above_mono (by omega) room above)]
  refine ⟨?_,fun ⟨_,no,_⟩ => by cases no⟩
  intro member
  obtain ⟨seq,rest,named,-,upper,fit⟩ := stored.key member
  simp only at named
  rw [named,ne_eq,txKey_compare rest fit room] at above
  omega

-- The last descriptor can be taken back, and what is left describes the rest.
theorem DescribedAbove.last (described : DescribedAbove space durableSeq (headSeq + 1) (front ++ [newest]))
    (fits : headSeq + 1 < 18446744073709551616) :
    ∃ encoded, Undoable encoded newest ∧ newest.txMeta.commitSeq = headSeq + 1 ∧
      ∀ shorter : Keyspace,
        (∀ key, shorter[key]? = if key ∈ encoded.entries.map Prod.fst then none else space[key]?) →
        space.scan (seqRange (headSeq + 1)) = encoded.entries ∧ DescribedAbove shorter durableSeq headSeq front := by
  have count := described.length
  rw [List.length_append,List.length_singleton] at count
  have room : durableSeq + 1 < 18446744073709551616 := by omega
  have seq : newest.txMeta.commitSeq = headSeq + 1 := by
    have numbered := described.numbered front.length (by simp)
    rw [List.getElem_append_right (Nat.le_refl _)] at numbered
    simp only [Nat.sub_self,List.getElem_singleton] at numbered
    omega
  obtain ⟨chain,stored,split,written,found⟩ := described.chain room
  obtain ⟨before,final,rfl,fronts,lasts⟩ := List.map_eq_append_iff.mp split
  obtain ⟨⟨encoded,descriptor⟩,rfl,single⟩ : ∃ pair, final = [pair] ∧ pair.2 = newest := by
    obtain ⟨pair,rest,rfl,same,none⟩ := List.map_eq_cons_iff.mp lasts
    obtain rfl := List.map_eq_nil_iff.mp none
    exact ⟨pair,rfl,same⟩
  obtain rfl : descriptor = newest := single
  obtain ⟨storedFront,stores,-,-⟩ := StoredFrom.append.mp stored
  have length : before.length = front.length := by rw [←fronts,List.length_map]
  have whole : storedEntries (before ++ [(encoded,descriptor)]) = storedEntries before ++ encoded.entries := by
    simp [storedEntries]
  have apart : ∀ key value : Bytes, (key,value) ∈ storedEntries before → key ∉ encoded.entries.map Prod.fst := by
    intro key value earlier member
    obtain ⟨entry,present,rfl⟩ := List.mem_map.mp member
    obtain ⟨seq',rest,named,-,upper,fit⟩ := storedFront.key earlier
    obtain ⟨more,other⟩ := stores.key present
    have lower : compare entry.1 (txKeyHead (headSeq + 1)) = .lt := by
      rw [named,txKey_compare rest fit fits]
      omega
    rw [other,seq,txKey_compare more fits fits] at lower
    omega
  refine ⟨encoded,encodeDescriptor_undoable (written (encoded,descriptor) (by simp)) stores,seq,?_⟩
  intro shorter deletes
  have left : ∀ key value : Bytes, compare key (txKeyHead (durableSeq + 1)) ≠ .lt →
      (shorter[key]? = some value ↔ (key,value) ∈ storedEntries before) := by
    intro key value above
    rw [deletes]
    split
    · rename_i member
      refine ⟨(fun no => by cases no),fun earlier => absurd member (apart key value earlier)⟩
    · rename_i absent
      rw [found key value above,whole,List.mem_append,or_iff_left]
      intro member
      exact absent (List.mem_map_of_mem member)
  have held : ∀ entry ∈ encoded.entries, space[entry.1]? = some entry.2 := by
    intro entry member
    obtain ⟨rest,named⟩ := stores.key member
    refine (found entry.1 entry.2 ?_).mpr (by rw [whole]; exact List.mem_append_right _ member)
    rw [named,seq,ne_eq,txKey_compare rest fits room]
    omega
  have below : shorter.Below descriptor.txMeta.commitSeq := by
    intro key value present
    by_contra high
    rw [seq] at high
    have above := txKey_above_mono (by omega : durableSeq + 1 ≤ headSeq + 1) fits high
    obtain ⟨other,rest,named,-,upper,fit⟩ := storedFront.key ((left key value above).mp present)
    simp only at named
    rw [named,txKey_compare rest fit fits] at high
    omega
  refine ⟨?_,?_⟩
  · rw [←seq]
    exact stores.scan (Keyspace.receives_of_deleted stores.ordered held deletes) below
  · have numbered : ∀ index (bound : index < front.length),
        (front[index]).txMeta.commitSeq = durableSeq + 1 + index := by
      intro index bound
      have one := described.numbered index (by rw [List.length_append]; omega)
      rwa [List.getElem_append_left bound] at one
    have size : front.length = headSeq - durableSeq := by omega
    refine ⟨size,numbered,fun _ => ⟨size,numbered,before.map Prod.fst,?_,?_⟩,fun one member =>
      described.each one (List.mem_append_left _ member)⟩
    · rw [←fronts]
      exact mapM_encoded (fun pair member => written pair (List.mem_append_left _ member))
    · intro key value above
      rw [left key value above]
      simp [storedEntries]

end last

section turns

-- One turn of the undo without its look at the user keyspace: the batch is built and committed.
def applyUndo (plan : RecoveryPlan) (state : RecoveryState) : Eff Storage StorageError RecoveryState := do
  let expected ← Eff.lift (expectedDescriptor plan state.nextUndoSeq)
  let loaded ← loadDescriptor expected
  let nextState : RecoveryState := {state with nextUndoSeq := state.nextUndoSeq - 1}
  let batch ← Eff.lift (buildUndoBatch loaded nextState)
  commitRecoveryBatch batch
  return nextState

def applyUndos (plan : RecoveryPlan) : Nat → RecoveryState → Eff Storage StorageError RecoveryState
  | 0,state => return state
  | turns + 1,state => do
    let next ← applyUndo plan state
    applyUndos plan turns next

-- The database after some of the undo batches.
structure Unwound (start : Storage) (durableSeq : Nat) (descriptors : List TransactionDescriptor)
    (state : RecoveryState) (reached : Storage) : Prop where
  honest : reached.Honest
  vlog : reached.vlog = start.vlog
  head : ∃ encoded, reached.index.system[headSeqKey]? = some encoded ∧ decodeHeadSeq encoded = .ok state.nextUndoSeq
  progress : ∃ encoded, state.encode = .ok encoded ∧ reached.index.system[recoveryStateKey]? = some encoded
  others : ∀ key, key ≠ headSeqKey → key ≠ recoveryStateKey →
    reached.index.system[key]? = start.index.system[key]?
  described : DescribedAbove reached.index.transaction durableSeq state.nextUndoSeq
    (descriptors.take (state.nextUndoSeq - durableSeq))

variable {start reached : Storage} {plan : RecoveryPlan} {state : RecoveryState}

-- One more undo batch, and what it is built from.
theorem Unwound.turn (unwound : Unwound start plan.durableFrontier.durableSeq plan.descriptors state reached)
    (valid : state.validate = .ok ()) (phase : state.phase = .undo) (more : state.targetSeq < state.nextUndoSeq)
    (above : plan.durableFrontier.durableSeq ≤ state.targetSeq) :
    ∃ descriptor encoded bytes, expectedDescriptor plan state.nextUndoSeq = .ok descriptor ∧
      Undoable encoded descriptor ∧
      reached.index.transaction.scan (seqRange descriptor.txMeta.commitSeq) = encoded.entries ∧
      RecoveryState.encode {state with nextUndoSeq := state.nextUndoSeq - 1} = .ok bytes ∧
      Unwound start plan.durableFrontier.durableSeq plan.descriptors {state with nextUndoSeq := state.nextUndoSeq - 1}
        (reached.committed (undoBatch descriptor encoded (state.nextUndoSeq - 1) bytes) .syncAll) := by
  obtain ⟨head,stored,decoded⟩ := unwound.head
  have fits := decodeHeadSeq_lt decoded
  have described := unwound.described
  obtain ⟨bytes,encodes⟩ := RecoveryState.encode_ok (RecoveryState.validate_lowered valid phase more)
  have count := described.length
  rw [List.length_take] at count
  obtain ⟨place,place_eq⟩ : ∃ place, state.nextUndoSeq - plan.durableFrontier.durableSeq = place + 1 :=
    ⟨state.nextUndoSeq - plan.durableFrontier.durableSeq - 1,by omega⟩
  have bound : place < plan.descriptors.length := by omega
  rw [place_eq,List.take_succ_eq_append_getElem bound,show state.nextUndoSeq = state.nextUndoSeq - 1 + 1 by omega]
    at described
  obtain ⟨encoded,undoable,seq,rest⟩ := described.last (by omega)
  have expected : expectedDescriptor plan state.nextUndoSeq = .ok plan.descriptors[place] := by
    rw [expectedDescriptor,rejectIf_false (by omega),ok_bind,
      show state.nextUndoSeq - plan.durableFrontier.durableSeq - 1 = place by omega,List.getElem?_eq_getElem bound]
    rfl
  have writes := undoBatch_writes plan.descriptors[place] encoded (state.nextUndoSeq - 1) bytes
  obtain ⟨scanned,left⟩ := rest
    (reached.index.apply (undoBatch plan.descriptors[place] encoded (state.nextUndoSeq - 1) bytes)).transaction (by
      intro key
      rw [writes.transaction reached.index key,lastValue_deletions]
      split <;> rfl)
  refine ⟨_,encoded,bytes,expected,undoable,by rw [seq]; exact scanned,encodes,unwound.honest,unwound.vlog,
    ⟨_,(writes.system reached.index headSeqKey).trans rfl,?_⟩,
    ⟨bytes,encodes,(writes.system reached.index recoveryStateKey).trans rfl⟩,?_,?_⟩
  · exact decodeHeadSeq_encode (by omega)
  · intro key notHead notState
    refine (writes.system reached.index key).trans ?_
    rw [lastValue_of_notMem (by simp [notHead,notState])]
    exact unwound.others key notHead notState
  · rw [show state.nextUndoSeq - 1 - plan.durableFrontier.durableSeq = place by omega]
    exact left

theorem applyUndo_unwound
    (unwound : Unwound start plan.durableFrontier.durableSeq plan.descriptors state reached)
    (valid : state.validate = .ok ()) (phase : state.phase = .undo) (more : state.targetSeq < state.nextUndoSeq)
    (above : plan.durableFrontier.durableSeq ≤ state.targetSeq)
    (identified : start.index.system[databaseIdentityKey]? ≠ none) :
    Delivers (applyUndo plan state) reached
      (fun next left => next = {state with nextUndoSeq := state.nextUndoSeq - 1} ∧
        Unwound start plan.durableFrontier.durableSeq plan.descriptors next left) (fun _ _ => False) := by
  obtain ⟨descriptor,encoded,bytes,expected,undoable,scanned,encodes,later⟩ := unwound.turn valid phase more above
  obtain ⟨built,ordinary⟩ := undoable.batch_eq encodes (RecoveryState.encode_present encodes)
  simp only [applyUndo,expected,delivers_bind]
  refine delivers_lift.mpr ⟨?_,fun error failed => by cases failed⟩
  intro found same
  obtain rfl := Except.ok.inj same
  refine loadDescriptor_delivers undoable.stores unwound.honest scanned ?_
  simp only [built]
  refine delivers_lift.mpr ⟨?_,fun error failed => by cases failed⟩
  intro batch same
  obtain rfl := Except.ok.inj same
  simp only [commitRecoveryBatch,delivers_mapError]
  rw [delivers_commitAtomic_honest unwound.honest ordinary (by
    rw [unwound.others _ (by decide) (by decide)]
    exact identified)]
  exact ⟨rfl,later⟩

-- Any number of turns, as long as there is something above the target.
theorem applyUndos_unwound (turns : Nat)
    (unwound : Unwound start plan.durableFrontier.durableSeq plan.descriptors state reached)
    (valid : state.validate = .ok ()) (phase : state.phase = .undo) (room : state.targetSeq + turns ≤ state.nextUndoSeq)
    (above : plan.durableFrontier.durableSeq ≤ state.targetSeq)
    (identified : start.index.system[databaseIdentityKey]? ≠ none) :
    Delivers (applyUndos plan turns state) reached
      (fun next left => next = {state with nextUndoSeq := state.nextUndoSeq - turns} ∧
        next.validate = .ok () ∧ Unwound start plan.durableFrontier.durableSeq plan.descriptors next left)
      (fun _ _ => False) := by
  induction turns generalizing state reached with
  | zero => exact ⟨rfl,valid,unwound⟩
  | succ turns ih =>
    refine (applyUndo_unwound unwound valid phase (by omega) above identified).bind ?_ (fun _ _ stopped => stopped)
    rintro _ middle ⟨rfl,later⟩
    refine (ih later (RecoveryState.validate_lowered valid phase (by omega)) phase (by simp only; omega) above).mono ?_
      (fun _ _ stopped => stopped)
    rintro _ left ⟨rfl,done⟩
    refine ⟨?_,done⟩
    simp only [Nat.sub_sub,Nat.add_comm 1]

theorem commitRecoveryBatch_script (batch : IndexAtomicBatch) (storage : Storage) :
    Delivers (commitRecoveryBatch batch) storage (fun _ reached => reached.script = storage.script.tail)
      (fun _ reached => reached.script = storage.script.tail) := by
  simp only [commitRecoveryBatch,commitAtomic,delivers_mapError,delivers_bind,delivers_tick,delivers_get,delivers_set,
    delivers_lift]
  refine ⟨fun _ _ => ?_,fun _ _ => ?_⟩ <;> split <;> rfl

theorem loadDescriptor_calm (honest : reached.Honest) (expected : TransactionDescriptor) :
    Delivers (loadDescriptor expected) reached (fun _ left => left = reached) (fun _ _ => True) := by
  simp only [loadDescriptor,delivers_bind,delivers_mapError,scanInternal,delivers_reading_honest honest,delivers_lift,
    implies_true,and_self]

omit [Crc32c] in
theorem validateCurrentAfterStates_calm (honest : reached.Honest) (descriptor : TransactionDescriptor) :
    Delivers (validateCurrentAfterStates descriptor) reached (fun _ left => left = reached) (fun _ _ => True) := by
  refine Delivers.forM ?_ rfl
  intro mutation member other same
  obtain rfl := same.symm
  simp only [validateCurrentAfterState,delivers_bind,delivers_mapError,getUser,delivers_reading_honest honest,
    delivers_lift,implies_true,and_self]

-- A turn of the undo that succeeds leaves what its batch alone would leave.
theorem undoTransaction_applies {next : RecoveryState} {left : Storage} (honest : reached.Honest)
    (ran : undoTransaction plan state reached = .ok next left) :
    applyUndo plan state reached = .ok next left ∧ left.Honest := by
  cases expected : expectedDescriptor plan state.nextUndoSeq with
  | error error =>
    simp only [undoTransaction,bind,EStateM.bind,expected,Eff.lift] at ran
    cases ran
  | ok descriptor =>
    cases loads : loadDescriptor descriptor reached with
    | error error other =>
      simp only [undoTransaction,bind,EStateM.bind,expected,Eff.lift,loads] at ran
      cases ran
    | ok loaded other =>
      obtain rfl : other = reached := (loadDescriptor_calm honest descriptor).of_ok loads
      cases looked : validateCurrentAfterStates loaded.descriptor other with
      | error error final =>
        simp only [undoTransaction,bind,EStateM.bind,expected,Eff.lift,loads,looked] at ran
        cases ran
      | ok _ final =>
        obtain rfl : final = other := (validateCurrentAfterStates_calm honest loaded.descriptor).of_ok looked
        have same : applyUndo plan state final = undoTransaction plan state final := by
          simp only [undoTransaction,applyUndo,bind,EStateM.bind,expected,Eff.lift,loads,looked]
        refine ⟨same.trans ran,?_⟩
        have run : Delivers (applyUndo plan state) final (fun _ left => left.Honest) (fun _ _ => True) := by
          simp only [applyUndo,expected,delivers_bind,delivers_pure]
          refine delivers_lift.mpr ⟨?_,fun _ _ => trivial⟩
          intro descriptor _
          refine (loadDescriptor_calm honest descriptor).mono ?_ (fun _ _ _ => trivial)
          rintro loaded _ rfl
          refine delivers_lift.mpr ⟨?_,fun _ _ => trivial⟩
          intro batch _
          refine (commitRecoveryBatch_script batch _).mono ?_ (fun _ _ _ => trivial)
          intro _ left script
          rw [Storage.Honest,script,honest]
          rfl
        exact run.of_ok (same.trans ran)

theorem undoTurns_applies {turns : Nat} {next : RecoveryState} {left : Storage} (honest : reached.Honest)
    (ran : undoTurns plan turns state reached = .ok next left) : applyUndos plan turns state reached = .ok next left := by
  induction turns generalizing state reached with
  | zero => exact ran
  | succ turns ih =>
    cases first : undoTransaction plan state reached with
    | error error other =>
      simp only [undoTurns,bind,EStateM.bind,first] at ran
      cases ran
    | ok middle other =>
      obtain ⟨applied,still⟩ := undoTransaction_applies honest first
      simp only [undoTurns,bind,EStateM.bind,first] at ran
      simp only [applyUndos,bind,EStateM.bind,applied]
      exact ih still ran

end turns

section resumed
variable {format : FormatMetadata} {inventory : ManagedInventory} {storage : Storage} {identity : Bytes}
  {frontier : DurableFrontier} {headSeq : Nat} {topology : RecoveryTopology} {descriptors : List TransactionDescriptor}
  {state : RecoveryState}

def RecoveryState.goal (state : RecoveryState) : Accepted :=
  ⟨state.targetSeq,state.targetVlogSeq,state.targetVlogEnd⟩

-- A plan for the frozen target.
def resumedRecovery (identity : Bytes) (frontier : DurableFrontier) (headSeq : Nat)
    (descriptors : List TransactionDescriptor) (state : RecoveryState) (inventory : ManagedInventory)
    (topology : RecoveryTopology) : RecoveryPlan :=
  {plannedRecovery identity frontier headSeq state.goal descriptors (some state) inventory topology with
    needsUndo := decide (state.phase = .undo ∧ headSeq > state.targetSeq)}

theorem revalidateTarget_honest (honest : storage.Honest) (ordered : frontier.durableSeq ≤ state.targetSeq)
    (long : state.targetSeq - frontier.durableSeq ≤ descriptors.length)
    (accepts : AcceptsAll storage.vlog (.start frontier) (descriptors.take (state.targetSeq - frontier.durableSeq)))
    (goal : (descriptors.take (state.targetSeq - frontier.durableSeq)).foldl Accepted.take (.start frontier) = state.goal) :
    Delivers (revalidateTarget state frontier descriptors) storage (fun _ reached => reached = storage)
      (fun _ _ => False) := by
  rw [revalidateTarget,rejectIf_false (by omega)]
  refine (acceptAll_honest honest accepts).bind ?_ (fun _ _ stopped => stopped)
  rintro result reached ⟨rfl,rfl⟩
  rw [goal,RecoveryState.goal,rejectIf_false (by simp)]
  exact rfl

-- The second analysis answers as soon as its cross checks do.
theorem Situation.resumed
    (situation : Situation format inventory storage identity frontier headSeq topology descriptors)
    (lists : inventory.Lists storage.vlog.files) (ext : Extends storage.vlog frontier state.goal)
    (inside : state.targetSeq ≤ headSeq)
    (current : validateRecoveryStateAgainstCurrent state frontier headSeq = .ok ())
    (trims : checkTrim state (RecoveryTopology.hasSuffixAfter inventory state.targetVlogEnd) = .ok ())
    (again : state.phase = .undo →
      AcceptsAll storage.vlog (.start frontier) (descriptors.take (state.targetSeq - frontier.durableSeq)) ∧
      (descriptors.take (state.targetSeq - frontier.durableSeq)).foldl Accepted.take (.start frontier) = state.goal) :
    Delivers (analyzeFixedTarget identity frontier headSeq descriptors state inventory topology) storage
      (fun plan reached => plan = resumedRecovery identity frontier headSeq descriptors state inventory topology ∧
        reached = storage) (fun _ _ => False) := by
  have bounds := situation.bounds
  have count := situation.described.length
  have ordered : frontier.durableSeq ≤ state.targetSeq := ext.ordered.1
  have built : buildPlan identity frontier headSeq state.goal descriptors (some state) inventory topology =
      .ok (plannedRecovery identity frontier headSeq state.goal descriptors (some state) inventory topology) := by
    refine buildPlan_ok ext lists bounds.2.2.1 inside ?_
    intro other same
    obtain rfl := Option.some.inj same
    exact ⟨rfl,rfl⟩
  have rest : Delivers (do
      let plan ← Eff.lift (buildPlan identity frontier headSeq state.goal descriptors (some state) inventory topology)
      Eff.lift (checkTrim state plan.needsTrim)
      return {plan with needsUndo := decide (state.phase = .undo ∧ headSeq > state.targetSeq)} :
        Eff Storage StorageError RecoveryPlan) storage
      (fun plan reached => plan = resumedRecovery identity frontier headSeq descriptors state inventory topology ∧
        reached = storage) (fun _ _ => False) := by
    rw [built]
    simp only [delivers_bind,delivers_lift,delivers_pure]
    refine ⟨?_,fun _ failed => by cases failed⟩
    intro plan same
    obtain rfl := Except.ok.inj same
    refine ⟨(fun _ _ => ⟨rfl,trivial⟩),?_⟩
    intro error failed
    have passes : checkTrim state (plannedRecovery identity frontier headSeq state.goal descriptors (some state) inventory
      topology).needsTrim = .ok () := trims
    rw [passes] at failed
    cases failed
  have start : Delivers (Eff.lift (validateRecoveryStateAgainstCurrent state frontier headSeq)) storage
      (fun _ reached => reached = storage) (fun _ _ => False) := by
    rw [current]
    exact rfl
  unfold analyzeFixedTarget
  refine start.bind ?_ (fun _ _ stopped => stopped)
  rintro _ _ rfl
  by_cases phase : state.phase = .undo
  · obtain ⟨accepts,goal⟩ := again phase
    rw [if_pos phase]
    refine (revalidateTarget_honest situation.honest ordered (by omega) accepts goal).bind ?_ (fun _ _ stopped => stopped)
    rintro _ _ rfl
    exact rest
  · rw [if_neg phase]
    exact rest

-- Some undo batches later the analysis finds the same, short of the descriptors that are gone.
theorem Unwound.situation {reached : Storage}
    (situation : Situation format inventory storage identity frontier headSeq topology descriptors)
    (unwound : Unwound storage frontier.durableSeq descriptors state reached)
    (ordered : frontier.durableSeq ≤ state.nextUndoSeq) :
    Situation format inventory reached identity frontier state.nextUndoSeq topology
      (descriptors.take (state.nextUndoSeq - frontier.durableSeq)) := by
  obtain ⟨encoded,stored,decoded⟩ := unwound.head
  have valid : frontier.validate = .ok () := DurableFrontier.validate_ok.mpr situation.bounds.2.2
  refine ⟨unwound.honest,?_,situation.valid,?_,?_,unwound.head,?_,situation.topology,?_,?_⟩
  · rw [unwound.others _ (by decide) (by decide)]
    exact situation.identified
  · rw [unwound.vlog]
    exact situation.geometry
  · rw [unwound.others _ (by decide) (by decide)]
    exact situation.durable
  · rw [DurableFrontier.validateAgainstHead,valid,ok_bind,rejectIf_false (by omega)]
  · rw [unwound.vlog]
    exact situation.boundary
  · exact (loadUnstableDescriptors_iff unwound.honest ordered (decodeHeadSeq_lt decoded)).mpr unwound.described

theorem decodeRecoveryState_stored {encoded : Bytes} (encodes : state.encode = .ok encoded)
    (fits : state.originalHead < 18446744073709551616) : decodeRecoveryState (some encoded) = .ok (some state) := by
  rw [decodeRecoveryState,(RecoveryState.decode_encode encodes fits).1]
  rfl

-- A plan of the first analysis: what it found, and the target it chose.
structure FreshPlan (format : FormatMetadata) (inventory : ManagedInventory) (storage : Storage)
    (topology : RecoveryTopology) (plan : RecoveryPlan) : Prop where
  situation : Situation format inventory storage plan.databaseIdentity plan.durableFrontier plan.headSeq topology
    plan.descriptors
  accepts : AcceptsAll storage.vlog (.start plan.durableFrontier)
    (plan.descriptors.take (plan.acceptedSeq - plan.durableFrontier.durableSeq))
  goal : (plan.descriptors.take (plan.acceptedSeq - plan.durableFrontier.durableSeq)).foldl Accepted.take
    (.start plan.durableFrontier) = plan.newState.goal
  reaches : Extends storage.vlog plan.durableFrontier plan.newState.goal
  inside : plan.acceptedSeq ≤ plan.headSeq
  planned : plan = plannedRecovery plan.databaseIdentity plan.durableFrontier plan.headSeq plan.newState.goal
    plan.descriptors none inventory topology

theorem analyzeRecovery_fresh {plan : RecoveryPlan} {reached : Storage} (honest : storage.Honest)
    (unresumed : storage.index.system[recoveryStateKey]? = none) (lists : inventory.Lists storage.vlog.files)
    (analyzed : analyzeRecovery format inventory storage = .ok plan reached) :
    ∃ topology, FreshPlan format inventory storage topology plan := by
  obtain ⟨identity,frontier,headSeq,topology,descriptors,recoveryState,situation,decoded,ran⟩ :=
    analyzeRecovery_situation honest analyzed
  rw [unresumed] at decoded
  obtain rfl := Except.ok.inj decoded
  obtain ⟨front,back,split,accepts,-,fresh⟩ := situation.fresh lists
  obtain ⟨ext,seq⟩ := situation.extended lists split accepts
  rw [analyzeTarget,fresh] at ran
  cases ran
  have count := situation.described.length
  have bounds := situation.bounds
  rw [split,List.length_append] at count
  have taken : descriptors.take ((front.foldl Accepted.take (.start frontier)).seq - frontier.durableSeq) = front := by
    rw [seq,Nat.add_sub_cancel_left,split,List.take_left]
  refine ⟨topology,situation,?_,?_,ext,?_,rfl⟩
  · simp only [plannedRecovery]
    rw [taken]
    exact accepts
  · simp only [plannedRecovery,RecoveryPlan.newState,RecoveryState.goal]
    rw [taken]
  · simp only [plannedRecovery]
    omega

variable {plan : RecoveryPlan}

theorem FreshPlan.newState_valid (fresh : FreshPlan format inventory storage topology plan) :
    plan.newState.validate = .ok () := by
  refine RecoveryState.validate_ok.mpr ⟨⟨fresh.reaches.ordered.2,fresh.inside,Nat.le_refl _⟩,fresh.reaches.matched,rfl⟩

theorem FreshPlan.identified (fresh : FreshPlan format inventory storage topology plan) :
    storage.index.system[databaseIdentityKey]? ≠ none := by
  rw [fresh.situation.identified]
  simp

-- Persisting the state is the beginning of the undo.
theorem FreshPlan.persist (fresh : FreshPlan format inventory storage topology plan) :
    ∃ persisted, commitBuilt (recoveryStateBatch plan.newState) storage = .ok () persisted ∧
      Unwound storage plan.durableFrontier.durableSeq plan.descriptors plan.newState persisted := by
  obtain ⟨encoded,encodes⟩ := RecoveryState.encode_ok fresh.newState_valid
  have built := recoveryStateBatch_ok.mpr ⟨encoded,encodes,rfl⟩
  have writes := systemPuts_writes [(recoveryStateKey,encoded)]
  have described := fresh.situation.described
  refine ⟨_,commitBuilt_honest fresh.situation.honest built (recoveryStateBatch_ordinary encodes) fresh.identified,
    fresh.situation.honest,rfl,?_,⟨encoded,encodes,(writes.system storage.index _).trans rfl⟩,?_,?_⟩
  · obtain ⟨bytes,stored,decoded⟩ := fresh.situation.head
    refine ⟨bytes,(writes.system storage.index headSeqKey).trans ?_,decoded⟩
    rw [lastValue_of_notMem (by simp [show headSeqKey ≠ recoveryStateKey by decide])]
    exact stored
  · intro key _ other
    refine (writes.system storage.index key).trans ?_
    rw [lastValue_of_notMem (by simpa using other)]
    rfl
  · have same : (storage.index.apply (systemPuts [(recoveryStateKey,encoded)])).transaction = storage.index.transaction := by
      apply Keyspace.ext_getElem?
      intro key
      exact writes.transaction storage.index key
    have whole : plan.descriptors.take (plan.newState.nextUndoSeq - plan.durableFrontier.durableSeq) =
        plan.descriptors := List.take_of_length_le (by rw [described.length]; exact Nat.le_refl _)
    rw [whole]
    change DescribedAbove (storage.index.apply _).transaction _ _ _
    rw [same]
    exact described

-- The second analysis on a half undone database.
theorem FreshPlan.resume (fresh : FreshPlan format inventory storage topology plan)
    (lists : inventory.Lists storage.vlog.files) {nextSeq : Nat} {reached : Storage}
    (unwound : Unwound storage plan.durableFrontier.durableSeq plan.descriptors
      {plan.newState with nextUndoSeq := nextSeq} reached) (low : plan.acceptedSeq ≤ nextSeq) :
    analyzeRecovery format inventory reached = .ok (resumedRecovery plan.databaseIdentity plan.durableFrontier nextSeq
      (plan.descriptors.take (nextSeq - plan.durableFrontier.durableSeq)) {plan.newState with nextUndoSeq := nextSeq}
      inventory topology) reached := by
  have ordered : plan.durableFrontier.durableSeq ≤ plan.acceptedSeq := fresh.reaches.ordered.1
  have situation := unwound.situation fresh.situation (by simp only; omega)
  obtain ⟨encoded,encodes,stored⟩ := unwound.progress
  have decoded : decodeRecoveryState reached.index.system[recoveryStateKey]? =
      .ok (some {plan.newState with nextUndoSeq := nextSeq}) := by
    rw [stored]
    exact decodeRecoveryState_stored encodes fresh.situation.bounds.2.1
  have ext : Extends reached.vlog plan.durableFrontier plan.newState.goal := by
    rw [unwound.vlog]
    exact fresh.reaches
  have current : validateRecoveryStateAgainstCurrent {plan.newState with nextUndoSeq := nextSeq} plan.durableFrontier
      nextSeq = .ok () := by
    have moved := ext.moved
    have vlogOrdered := fresh.situation.bounds.2.2.1
    simp only [RecoveryState.goal,RecoveryPlan.newState] at moved
    simp only [RecoveryPlan.newState]
    simp only [validateRecoveryStateAgainstCurrent,bind_ok,exists_unit,rejectIf_ok,ne_eq,not_true_eq_false,
      not_false_eq_true,and_true]
    rcases moved with ⟨sameSeq,sameEnd⟩ | ⟨later,after⟩
    · rw [if_pos sameSeq]
      exact ⟨by omega,by simp [sameEnd]⟩
    · rw [if_neg (by omega)]
      exact ⟨by omega,by simp [after]⟩
  have needsTrim : plan.needsTrim = RecoveryTopology.hasSuffixAfter inventory plan.acceptedEnd :=
    congrArg RecoveryPlan.needsTrim fresh.planned
  have trims : checkTrim {plan.newState with nextUndoSeq := nextSeq}
      (RecoveryTopology.hasSuffixAfter inventory plan.newState.targetVlogEnd) = .ok () := by
    simp only [checkTrim,RecoveryPlan.newState,←needsTrim]
    exact rejectIf_false (by simp)
  have taken : (plan.descriptors.take (nextSeq - plan.durableFrontier.durableSeq)).take
      (plan.acceptedSeq - plan.durableFrontier.durableSeq) =
      plan.descriptors.take (plan.acceptedSeq - plan.durableFrontier.durableSeq) := by
    rw [List.take_take,Nat.min_eq_left (by omega)]
  have run := situation.analyze decoded (situation.resumed (by rw [unwound.vlog]; exact lists) ext low current trims (by
    intro _
    simp only [RecoveryPlan.newState]
    rw [taken,unwound.vlog]
    exact ⟨fresh.accepts,fresh.goal⟩))
  obtain ⟨_,_,ran,rfl,rfl⟩ := run.returns
  exact ran

-- The state the executor stores with the target frontier.
def RecoveryPlan.reachedState (plan : RecoveryPlan) : RecoveryState :=
  {plan.newState with nextUndoSeq := plan.acceptedSeq}.afterUndo

theorem FreshPlan.reachedState_valid (fresh : FreshPlan format inventory storage topology plan) :
    plan.reachedState.validate = .ok () := by
  refine RecoveryState.validate_ok.mpr ⟨⟨fresh.reaches.ordered.2,Nat.le_refl _,fresh.inside⟩,fresh.reaches.matched,?_⟩
  cases trim : plan.needsTrim <;>
    simp [RecoveryPlan.reachedState,RecoveryState.phaseMatches,RecoveryState.afterUndo,RecoveryPlan.newState,trim]

theorem FreshPlan.target_valid (fresh : FreshPlan format inventory storage topology plan) :
    plan.target.validate = .ok () :=
  DurableFrontier.validate_ok.mpr ⟨fresh.reaches.ordered.2,fresh.reaches.matched⟩

-- With head and frontier at the target there is nothing left above them.
theorem FreshPlan.promoted (fresh : FreshPlan format inventory storage topology plan)
    (lists : inventory.Lists storage.vlog.files) {reached : Storage}
    (unwound : Unwound storage plan.durableFrontier.durableSeq plan.descriptors
      {plan.newState with nextUndoSeq := plan.acceptedSeq} reached) :
    ∃ final, commitBuilt (targetFrontierBatch plan.acceptedSeq plan.target (some plan.reachedState)) reached =
        .ok () final ∧ final.vlog = storage.vlog ∧
      Situation format inventory final plan.databaseIdentity plan.target plan.acceptedSeq topology [] ∧
      decodeRecoveryState final.index.system[recoveryStateKey]? = .ok (some plan.reachedState) := by
  have ordered : plan.durableFrontier.durableSeq ≤ plan.acceptedSeq := fresh.reaches.ordered.1
  have fits : plan.acceptedSeq < 18446744073709551616 := by
    have bounds := fresh.situation.bounds
    have inside := fresh.inside
    omega
  obtain ⟨frontier,encodes⟩ := DurableFrontier.encode_ok fresh.target_valid
  obtain ⟨bytes,stores⟩ := RecoveryState.encode_ok fresh.reachedState_valid
  have mapped : (some plan.reachedState).mapM RecoveryState.encode = .ok (some bytes) := by
    simp [stores]
  have built : targetFrontierBatch plan.acceptedSeq plan.target (some plan.reachedState) =
      .ok (systemPuts (targetEntries plan.acceptedSeq frontier (some bytes))) :=
    targetFrontierBatch_ok.mpr ⟨rfl,frontier,encodes,some bytes,mapped,rfl⟩
  have writes := systemPuts_writes (targetEntries plan.acceptedSeq frontier (some bytes))
  have identified : reached.index.system[databaseIdentityKey]? ≠ none := by
    rw [unwound.others _ (by decide) (by decide)]
    exact fresh.identified
  have same : (reached.index.apply (systemPuts (targetEntries plan.acceptedSeq frontier (some bytes)))).transaction =
      reached.index.transaction := by
    apply Keyspace.ext_getElem?
    intro key
    exact writes.transaction reached.index key
  have vlog : (reached.committed (systemPuts (targetEntries plan.acceptedSeq frontier (some bytes))) .syncAll).vlog =
      storage.vlog := unwound.vlog
  have honest : (reached.committed (systemPuts (targetEntries plan.acceptedSeq frontier (some bytes))) .syncAll).Honest :=
    unwound.honest
  refine ⟨_,commitBuilt_honest unwound.honest built (targetEntries_ordinary encodes mapped) identified,vlog,?_,?_⟩
  · refine ⟨honest,?_,fresh.situation.valid,?_,⟨frontier,(writes.system reached.index _).trans rfl,?_⟩,
      ⟨_,(writes.system reached.index _).trans rfl,decodeHeadSeq_encode fits⟩,?_,?_,?_,?_⟩
    · refine ((targetEntries_ordinary encodes mapped).identity reached.index).trans ?_
      rw [unwound.others _ (by decide) (by decide)]
      exact fresh.situation.identified
    · rw [vlog]
      exact fresh.situation.geometry
    · exact (DurableFrontier.decode_encode encodes fits).1
    · rw [DurableFrontier.validateAgainstHead,fresh.target_valid,ok_bind]
      exact rejectIf_false (by simp [RecoveryPlan.target])
    · have listed := ((RecoveryTopology.analyze_ok lists).mp fresh.situation.topology).2
      exact (RecoveryTopology.analyze_ok lists).mpr ⟨fresh.reaches.reached,listed⟩
    · rw [vlog]
      exact fresh.reaches.boundary
    · refine (loadUnstableDescriptors_iff honest (Nat.le_refl _) fits).mpr ?_
      change DescribedAbove (reached.index.apply _).transaction _ _ _
      rw [same]
      exact unwound.described.none_above ordered
  · have stored : (reached.index.apply (systemPuts (targetEntries plan.acceptedSeq frontier (some bytes)))).system[
        recoveryStateKey]? = some bytes := (writes.system reached.index _).trans rfl
    change decodeRecoveryState (reached.index.apply _).system[recoveryStateKey]? = _
    rw [stored]
    exact decodeRecoveryState_stored stores fresh.situation.bounds.2.1

theorem FreshPlan.finish (fresh : FreshPlan format inventory storage topology plan)
    (lists : inventory.Lists storage.vlog.files) {final : Storage} (vlog : final.vlog = storage.vlog)
    (situation : Situation format inventory final plan.databaseIdentity plan.target plan.acceptedSeq topology [])
    (decoded : decodeRecoveryState final.index.system[recoveryStateKey]? = .ok (some plan.reachedState)) :
    analyzeRecovery format inventory final = .ok (resumedRecovery plan.databaseIdentity plan.target plan.acceptedSeq []
      plan.reachedState inventory topology) final := by
  have listed : inventory.Lists final.vlog.files := by
    rw [vlog]
    exact lists
  have needsTrim : plan.needsTrim = RecoveryTopology.hasSuffixAfter inventory plan.acceptedEnd :=
    congrArg RecoveryPlan.needsTrim fresh.planned
  have ext : Extends final.vlog plan.target plan.reachedState.goal := situation.start listed
  have current : validateRecoveryStateAgainstCurrent plan.reachedState plan.target plan.acceptedSeq = .ok () := by
    cases trim : plan.needsTrim <;>
      simp [validateRecoveryStateAgainstCurrent,RecoveryPlan.reachedState,RecoveryState.afterUndo,RecoveryPlan.newState,
        RecoveryPlan.target,trim]
  have trims : checkTrim plan.reachedState (RecoveryTopology.hasSuffixAfter inventory plan.reachedState.targetVlogEnd) =
      .ok () := by
    change checkTrim plan.reachedState (RecoveryTopology.hasSuffixAfter inventory plan.acceptedEnd) = .ok ()
    rw [←needsTrim]
    cases trim : plan.needsTrim <;>
      simp [checkTrim,RecoveryPlan.reachedState,RecoveryState.afterUndo,RecoveryPlan.newState,trim]
  have later : plan.reachedState.phase ≠ .undo := by
    cases trim : plan.needsTrim <;>
      simp [RecoveryPlan.reachedState,RecoveryState.afterUndo,RecoveryPlan.newState,trim]
  have run := situation.analyze decoded (situation.resumed listed ext (Nat.le_refl _) current trims
    (fun undo => absurd undo later))
  obtain ⟨_,_,ran,rfl,rfl⟩ := run.returns
  exact ran

-- The two plans, field by field.
theorem FreshPlan.resumed_eq (fresh : FreshPlan format inventory storage topology plan) {turns : Nat}
    (bound : turns ≤ plan.headSeq - plan.acceptedSeq) :
    resumedRecovery plan.databaseIdentity plan.durableFrontier (plan.headSeq - turns)
        (plan.descriptors.take (plan.headSeq - turns - plan.durableFrontier.durableSeq))
        {plan.newState with nextUndoSeq := plan.headSeq - turns} inventory topology =
      {plan with
        headSeq := plan.headSeq - turns
        publishedEnd := publishedEnd plan.durableFrontier
          (plan.descriptors.take (plan.headSeq - plan.durableFrontier.durableSeq - turns))
        descriptors := plan.descriptors.take (plan.headSeq - plan.durableFrontier.durableSeq - turns)
        recoveryState := some {plan.newState with nextUndoSeq := plan.headSeq - turns}
        needsUndo := decide (turns < plan.headSeq - plan.acceptedSeq)} := by
  have tail : plan.physicalTail = topology.physicalTail := congrArg RecoveryPlan.physicalTail fresh.planned
  have promote : plan.needsPromote = decide (plan.acceptedSeq > plan.durableFrontier.durableSeq) :=
    congrArg RecoveryPlan.needsPromote fresh.planned
  have trim : plan.needsTrim = RecoveryTopology.hasSuffixAfter inventory plan.acceptedEnd :=
    congrArg RecoveryPlan.needsTrim fresh.planned
  have inside := fresh.inside
  have more : (plan.headSeq - turns > plan.acceptedSeq) ↔ turns < plan.headSeq - plan.acceptedSeq := by omega
  simp only [resumedRecovery,plannedRecovery,RecoveryState.goal,RecoveryPlan.newState,tail,promote,trim,true_and,more,
    Nat.sub_right_comm]

theorem FreshPlan.finished_eq (fresh : FreshPlan format inventory storage topology plan) :
    resumedRecovery plan.databaseIdentity plan.target plan.acceptedSeq [] plan.reachedState inventory topology =
      {plan with
        durableFrontier := plan.target
        headSeq := plan.acceptedSeq
        publishedEnd := plan.acceptedEnd
        descriptors := []
        recoveryState := some plan.reachedState
        needsUndo := false
        needsPromote := false} := by
  have tail : plan.physicalTail = topology.physicalTail := congrArg RecoveryPlan.physicalTail fresh.planned
  have trim : plan.needsTrim = RecoveryTopology.hasSuffixAfter inventory plan.acceptedEnd :=
    congrArg RecoveryPlan.needsTrim fresh.planned
  simp [resumedRecovery,plannedRecovery,RecoveryPlan.reachedState,RecoveryState.afterUndo,RecoveryState.goal,
    RecoveryPlan.newState,RecoveryPlan.target,publishedEnd,tail,trim]

-- Whatever the first analysis decides, the executor's state carries the decision over: after any number of
-- its undo batches, and after the frontier batch, the second analysis finds the same target.
theorem fresh_and_resumed_analysis_agree {reached : Storage} (honest : storage.Honest)
    (unresumed : storage.index.system[recoveryStateKey]? = none)
    (inspected : inspectFiles format storage.vlog.files = .ok inventory)
    (analyzed : analyzeRecovery format inventory storage = .ok plan reached) :
    ∃ persisted, commitBuilt (recoveryStateBatch plan.newState) storage = .ok () persisted ∧
      (∀ turns ≤ plan.headSeq - plan.acceptedSeq, ∃ undone left,
        applyUndos plan turns plan.newState persisted = .ok undone left ∧
        undone = {plan.newState with nextUndoSeq := plan.headSeq - turns} ∧
        (∀ result other, undoTurns plan turns plan.newState persisted = .ok result other →
          result = undone ∧ other = left) ∧
        inspectFiles format left.vlog.files = .ok inventory ∧
        analyzeRecovery format inventory left = .ok
          {plan with
            headSeq := plan.headSeq - turns
            publishedEnd := publishedEnd plan.durableFrontier
              (plan.descriptors.take (plan.headSeq - plan.durableFrontier.durableSeq - turns))
            descriptors := plan.descriptors.take (plan.headSeq - plan.durableFrontier.durableSeq - turns)
            recoveryState := some undone
            needsUndo := decide (turns < plan.headSeq - plan.acceptedSeq)} left) ∧
      ∃ undone left final, applyUndos plan (plan.headSeq - plan.acceptedSeq) plan.newState persisted = .ok undone left ∧
        undone.afterUndo.phase = (if plan.needsTrim then .trim else .finalize) ∧
        commitBuilt (targetFrontierBatch plan.acceptedSeq plan.target (some undone.afterUndo)) left = .ok () final ∧
        inspectFiles format final.vlog.files = .ok inventory ∧
        analyzeRecovery format inventory final = .ok
          {plan with
            durableFrontier := plan.target
            headSeq := plan.acceptedSeq
            publishedEnd := plan.acceptedEnd
            descriptors := []
            recoveryState := some undone.afterUndo
            needsUndo := false
            needsPromote := false} final := by
  have lists := inspectFiles_lists inspected
  obtain ⟨topology,fresh⟩ := analyzeRecovery_fresh honest unresumed lists analyzed
  have ordered : plan.durableFrontier.durableSeq ≤ plan.acceptedSeq := fresh.reaches.ordered.1
  have inside := fresh.inside
  obtain ⟨persisted,committed,unwound⟩ := fresh.persist
  have runs : ∀ turns ≤ plan.headSeq - plan.acceptedSeq, ∃ left,
      applyUndos plan turns plan.newState persisted = .ok {plan.newState with nextUndoSeq := plan.headSeq - turns} left ∧
      Unwound storage plan.durableFrontier.durableSeq plan.descriptors
        {plan.newState with nextUndoSeq := plan.headSeq - turns} left := by
    intro turns bound
    obtain ⟨_,left,ran,rfl,-,later⟩ := (applyUndos_unwound turns unwound fresh.newState_valid rfl
      (by simp only [RecoveryPlan.newState]; omega) ordered fresh.identified).returns
    exact ⟨left,ran,later⟩
  refine ⟨persisted,committed,?_,?_⟩
  · intro turns bound
    obtain ⟨left,ran,later⟩ := runs turns bound
    refine ⟨_,left,ran,rfl,?_,by rw [later.vlog]; exact inspected,?_⟩
    · intro result other undone
      have same := (undoTurns_applies unwound.honest undone).symm.trans ran
      cases same
      exact ⟨rfl,rfl⟩
    · rw [fresh.resume lists later (by omega),fresh.resumed_eq bound]
  · obtain ⟨left,ran,later⟩ := runs _ (Nat.le_refl _)
    rw [show plan.headSeq - (plan.headSeq - plan.acceptedSeq) = plan.acceptedSeq by omega] at ran later
    obtain ⟨final,promoted,vlog,situation,decoded⟩ := fresh.promoted lists later
    refine ⟨_,left,final,ran,rfl,promoted,by rw [vlog]; exact inspected,?_⟩
    rw [fresh.finish lists vlog situation decoded,fresh.finished_eq]
    rfl

end resumed

end checked

-- One transaction to take back: the two analyses before and after its undo.
theorem fresh_and_resumed_analysis_agree_lost :
    ∃ format inventory storage plan persisted,
      @analyzeRecovery castagnoli format inventory storage = .ok plan storage ∧ plan.needsUndo = true ∧
      @commitBuilt castagnoli (@recoveryStateBatch castagnoli plan.newState) storage = .ok () persisted ∧
      ∃ undone left resumed, @applyUndos castagnoli plan 1 plan.newState persisted = .ok undone left ∧
        @analyzeRecovery castagnoli format inventory left = .ok resumed left ∧ resumed.acceptedSeq = plan.acceptedSeq ∧
        resumed.headSeq = 0 ∧ resumed.needsUndo = false ∧ resumed.descriptors = [] := by
  obtain ⟨format,storage,descriptor,image,kind,empty⟩ := lostEnvelope_image
  obtain ⟨identity,topology,front,back,-,split,accepts,-,analyzed⟩ := @TornImage.analyzed castagnoli _ _ _ _ _ _ image
  have none : front = [] := by
    cases front with
    | nil => rfl
    | cons first rest =>
      obtain ⟨rfl,-⟩ := List.cons.inj split
      exact absurd accepts.1 (lostEnvelope_rejected kind empty (@TornImage.geometry castagnoli _ _ _ _ _ _ image))
  subst none
  obtain ⟨persisted,committed,turns,-⟩ := @fresh_and_resumed_analysis_agree castagnoli _ _ _ _ _
    (@TornImage.honest castagnoli _ _ _ _ _ _ image) (@TornImage.unresumed castagnoli _ _ _ _ _ _ image)
    (@TornImage.inspected castagnoli _ _ _ _ _ _ image) analyzed
  obtain ⟨undone,left,applied,rfl,-,-,resumed⟩ := turns 1 (Nat.le_refl 1)
  exact ⟨format,⟨[]⟩,storage,_,persisted,analyzed,rfl,committed,_,left,_,applied,resumed,rfl,rfl,rfl,rfl⟩

end ExpirKv
