import ExpirKv.Commit.Codecs
import ExpirKv.Library.Histories
import ExpirKv.Recovery.ExecuteSteps

namespace ExpirKv
open VLogGeometry Storage

namespace Event

-- The effects that take bytes of a file away.
def Destroys : Event → Prop
  | .truncated _ _ => True
  | .removed _ => True
  | _ => False

-- The index after the batches of a history.
def stored (index : Index) : List Event → Index
  | [] => index
  | .applied batch _ :: rest => (stored index rest).apply batch
  | .found _ _ :: rest => stored index rest
  | .created _ :: rest => stored index rest
  | .wrote _ _ _ :: rest => stored index rest
  | .syncedFile _ _ :: rest => stored index rest
  | .syncedDirectory :: rest => stored index rest
  | .truncated _ _ :: rest => stored index rest
  | .removed _ :: rest => stored index rest
  | .submitted _ _ :: rest => stored index rest

end Event

-- A batch leaves this at a system key.
def IndexAtomicBatch.Sets (batch : IndexAtomicBatch) (key : Bytes) (value : Option Bytes) : Prop :=
  ((IndexSpace.internal .system,key),value) ∈ batch.map IndexMutation.write

section sets
variable {batch : IndexAtomicBatch} {users transactions systems : List (Bytes × Option Bytes)}

theorem IndexAtomicBatch.Writes.sets (writes : batch.Writes users transactions systems) (key : Bytes)
    (value : Option Bytes) : batch.Sets key value ↔ (key,value) ∈ systems := by
  simp only [IndexAtomicBatch.Sets,show batch.map IndexMutation.write = _ from writes,List.mem_append,List.mem_map,place]
  constructor
  · intro member
    rcases member with ⟨write,-,same⟩ | ⟨write,-,same⟩ | ⟨write,there,same⟩
    · cases same
    · cases same
    · cases same
      exact there
  · intro member
    exact .inr (.inr ⟨(key,value),member,rfl⟩)

-- A system key after a batch: as it was, or as the batch sets it.
theorem Index.apply_system (index : Index) (batch : IndexAtomicBatch) (key : Bytes) :
    ((∀ value, ¬batch.Sets key value) ∧ (index.apply batch).system[key]? = index.system[key]?) ∨
      batch.Sets key (index.apply batch).system[key]? := by
  have read : (index.apply batch).system[key]? = (lastValue (batch.map IndexMutation.write)
      (.internal .system,key)).getD index.system[key]? := Index.get_apply index batch (.internal .system,key)
  cases last : lastValue (batch.map IndexMutation.write) (.internal .system,key) with
  | none =>
    rw [last] at read
    refine .inl ⟨?_,read⟩
    intro value sets
    have written := lastValue_isSome.mpr (List.mem_map_of_mem (f := Prod.fst) sets)
    rw [last] at written
    cases written
  | some value =>
    rw [last] at read
    obtain ⟨place,found,-⟩ := lastValue_place last
    refine .inr ?_
    rw [read]
    exact List.mem_of_getElem? found

end sets

section plans
variable [Crc32c]

-- A recovery state that is after the target of a plan.
structure RecoveryState.Aims (state : RecoveryState) (plan : RecoveryPlan) : Prop where
  seq : state.targetSeq = plan.acceptedSeq
  vlogSeq : state.targetVlogSeq = plan.acceptedVlogSeq
  vlogEnd : state.targetVlogEnd = plan.acceptedEnd
  fits : state.originalHead < 18446744073709551616

-- Head and frontier at the target, and the phase that may trim.
structure TrimStored (index : Index) (plan : RecoveryPlan) : Prop where
  head : ∃ encoded, index.system[headSeqKey]? = some encoded ∧ decodeHeadSeq encoded = .ok plan.acceptedSeq
  frontier : ∃ encoded, index.system[durableFrontierKey]? = some encoded ∧
    DurableFrontier.decode encoded = .ok plan.target
  phase : ∃ encoded state, index.system[recoveryStateKey]? = some encoded ∧
    RecoveryState.decode encoded = .ok state ∧ state.phase = .trim ∧ state.Aims plan

-- `CF` and `CE` belong together: both are the durable ones, or those of one envelope above them.
def RecoveryPlan.Paired (plan : RecoveryPlan) : Prop :=
  (plan.acceptedVlogSeq = plan.durableFrontier.durableVlogSeq ∧ plan.acceptedEnd = plan.durableFrontier.durableVlogEnd) ∨
    ∃ descriptor ∈ plan.descriptors, descriptor.txMeta.transactionKind = .vlogEnvelope ∧
      descriptor.txMeta.commitSeq = plan.acceptedVlogSeq ∧ some descriptor.txMeta.vlogEnd = plan.acceptedEnd

-- The accepted end is not before the durable one.
def RecoveryPlan.Forward (plan : RecoveryPlan) : Prop :=
  ∀ durable ∈ plan.durableFrontier.durableVlogEnd, ∃ accepted ∈ plan.acceptedEnd, durable ≤ accepted

-- What `sync_accepted_range` leaves behind when it succeeds.
structure RangeSynced (start : Storage) (durableEnd : Option VLogPosition) (accepted : VLogPosition)
    (events : List Event) : Prop where
  files : ∀ fileId ∈ ValueLogRecovery.acceptedFiles durableEnd accepted,
    .syncedFile fileId (start.contents fileId).length ∈ events
  directory : (∀ durable ∈ durableEnd, durable.fileId < accepted.fileId) → .syncedDirectory ∈ events

-- A target above the durable end has been synced, unless an earlier recovery has done so.
def TargetHeld (start : Storage) (plan : RecoveryPlan) (events : List Event) : Prop :=
  plan.recoveryState = none → plan.acceptedVlogSeq ≠ plan.durableFrontier.durableVlogSeq →
    ∃ accepted, plan.acceptedEnd = some accepted ∧ (∀ durable ∈ plan.durableFrontier.durableVlogEnd, durable < accepted) ∧
      RangeSynced start plan.durableFrontier.durableVlogEnd accepted events

-- A batch that touches the frontier sets the whole target, and one that leaves a state aims at it.
structure Careful (plan : RecoveryPlan) (batch : IndexAtomicBatch) : Prop where
  frontier : ∀ value, batch.Sets durableFrontierKey value → plan.Paired ∧
    batch.Sets headSeqKey (some (encodeHeadSeq plan.acceptedSeq)) ∧
      ∃ encoded, plan.target.encode = .ok encoded ∧ value = some encoded
  state : ∀ encoded, batch.Sets recoveryStateKey (some encoded) →
    ∃ state : RecoveryState, state.encode = .ok encoded ∧ state.Aims plan

-- What has to have happened before anything is cut off.
structure TrimAllowed (start : Storage) (plan : RecoveryPlan) (events : List Event) : Prop where
  stored : TrimStored (Event.stored start.index events) plan
  flushed : TrimStored start.index plan ∨
    ∃ batch, .applied batch .syncAll ∈ events ∧ ∀ index : Index, TrimStored (index.apply batch) plan

def Permitted (start : Storage) (plan : RecoveryPlan) (earlier : List Event) : Event → Prop
  | .truncated fileId len => TrimAllowed start plan earlier ∧ plan.acceptedEnd = some ⟨fileId,len⟩
  | .removed fileId => TrimAllowed start plan earlier ∧ ∀ accepted ∈ plan.acceptedEnd, accepted.fileId < fileId
  | .submitted batch mode => mode = .syncAll ∧ TargetHeld start plan earlier ∧ Careful plan batch
  | .applied batch _ => Careful plan batch
  | .syncedFile _ _ => True
  | .syncedDirectory => True
  | .found _ _ => False
  | .created _ => False
  | .wrote _ _ _ => False

-- The positions that no recovery may take away.
def RecoveryPlan.Keeps (plan : RecoveryPlan) (position : VLogPosition) : Prop :=
  (∃ durable ∈ plan.durableFrontier.durableVlogEnd, position < durable) ∨ ∃ accepted ∈ plan.acceptedEnd, position < accepted

-- A storage some events into an execution.
structure Traced (start : Storage) (plan : RecoveryPlan) (events : List Event) (now : Storage) : Prop where
  trace : now.trace = events ++ start.trace
  index : now.index = Event.stored start.index events
  identified : now.index.system[databaseIdentityKey]? ≠ none
  permitted : Grown (Permitted start plan) events
  kept : ∀ fileId offset, plan.Keeps ⟨fileId,offset⟩ → (now.contents fileId)[offset]? = (start.contents fileId)[offset]?
  untouched : (∀ event ∈ events, ¬event.Destroys) → now.vlog.files = start.vlog.files

def During (start : Storage) (plan : RecoveryPlan) (stage : List Event → Prop) (now : Storage) : Prop :=
  ∃ events, Traced start plan events now ∧ stage events

end plans

section stages
variable [Crc32c] {start now : Storage} {plan : RecoveryPlan} {events : List Event} {stage : List Event → Prop}

omit [Crc32c] in
theorem Event.stored_record (index : Index) {event : Event} (quiet : ∀ batch mode, event ≠ .applied batch mode)
    (events : List Event) : Event.stored index (event :: events) = Event.stored index events := by
  cases event with
  | applied batch mode => exact absurd rfl (quiet batch mode)
  | _ => rfl

theorem Traced.same {after : Storage} (traced : Traced start plan events now) (trace : after.trace = now.trace)
    (index : after.index = now.index) (files : after.vlog.files = now.vlog.files) : Traced start plan events after := by
  refine ⟨trace.trans traced.trace,index.trans traced.index,?_,traced.permitted,?_,?_⟩
  · rw [index]
    exact traced.identified
  · intro fileId offset keeps
    rw [Storage.contents,files]
    exact traced.kept fileId offset keeps
  · intro intact
    rw [files,traced.untouched intact]

-- A call that changes neither index nor files, and what it leaves in the trace.
theorem Traced.record {event : Event} (traced : Traced start plan events now) (fits : Permitted start plan events event)
    (quiet : ∀ batch mode, event ≠ .applied batch mode) : Traced start plan (event :: events) (now.record event) := by
  refine ⟨?_,?_,traced.identified,.event traced.permitted fits,traced.kept,?_⟩
  · rw [Storage.record,traced.trace,List.cons_append]
  · rw [Event.stored_record start.index quiet]
    exact traced.index
  · intro intact
    exact traced.untouched (fun other member => intact other (List.mem_cons_of_mem _ member))

-- The sync calls do not end a stage.
def Lasting (stage : List Event → Prop) : Prop :=
  ∀ events event, stage events → (∀ batch mode, event ≠ .applied batch mode) → ¬event.Destroys → stage (event :: events)

theorem During.calm (lasting : Lasting stage) :
    Calm (fun before after => During start plan stage before → During start plan stage after) := by
  have recorded : ∀ storage event, (∀ events, Permitted start plan events event) →
      (∀ batch mode, event ≠ .applied batch mode) → ¬event.Destroys → During start plan stage storage →
      During start plan stage (storage.record event) := by
    intro storage event fits quiet harmless during
    obtain ⟨events,traced,there⟩ := during
    exact ⟨event :: events,traced.record (fits events) quiet,lasting events event there quiet harmless⟩
  refine ⟨fun _ during => during,fun _ _ _ first rest during => rest (first during),?_,?_,?_⟩
  · intro storage script during
    obtain ⟨events,traced,there⟩ := during
    exact ⟨events,traced.same rfl rfl rfl,there⟩
  · intro storage fileId
    exact recorded storage _ (fun _ => trivial) (fun _ _ other => by cases other) (fun destroys => destroys)
  · intro storage
    exact recorded storage _ (fun _ => trivial) (fun _ _ other => by cases other) (fun destroys => destroys)

theorem During.leaves {ε α : Type} {x : Eff Storage ε α} (during : During start plan stage now)
    (leaves : Leaves x (fun before after => During start plan stage before → During start plan stage after)) :
    Delivers x now (fun _ after => During start plan stage after) (fun _ after => During start plan stage after) :=
  (leaves now).mono (fun _ _ moved => moved during) (fun _ _ moved => moved during)

theorem During.mono {other : List Event → Prop} (during : During start plan stage now)
    (weaker : ∀ events, stage events → other events) : During start plan other now := by
  obtain ⟨events,traced,there⟩ := during
  exact ⟨events,traced,weaker events there⟩

-- Nothing has been cut off so far.
def Intact (events : List Event) : Prop := ∀ event ∈ events, ¬event.Destroys

def Anyhow (_ : List Event) : Prop := True

theorem During.ended (during : During start plan stage now) : During start plan Anyhow now :=
  during.mono (fun _ _ => trivial)

omit [Crc32c] in
theorem Intact.cons {event : Event} (intact : Intact events) (harmless : ¬event.Destroys) : Intact (event :: events) := by
  intro other member
  rcases List.mem_cons.mp member with here | there
  · rw [here]
    exact harmless
  · exact intact other there

omit [Crc32c] in
theorem Intact.lasting : Lasting Intact := fun _ _ intact _ harmless => intact.cons harmless

omit [Crc32c] in
theorem Lasting.and {other : List Event → Prop} (first : Lasting stage) (second : Lasting other) :
    Lasting (fun events => stage events ∧ other events) :=
  fun events event both quiet harmless => ⟨first events event both.1 quiet harmless,second events event both.2 quiet harmless⟩

omit [Crc32c] in
theorem TargetHeld.cons (held : TargetHeld start plan events) (event : Event) : TargetHeld start plan (event :: events) := by
  intro fresh further
  obtain ⟨accepted,ends,above,synced⟩ := held fresh further
  refine ⟨accepted,ends,above,?_,?_⟩
  · intro fileId member
    exact List.mem_cons_of_mem _ (synced.files fileId member)
  · intro below
    exact List.mem_cons_of_mem _ (synced.directory below)

omit [Crc32c] in
theorem TargetHeld.lasting : Lasting (TargetHeld start plan) := fun _ event held _ _ => held.cons event

theorem TrimAllowed.cons {event : Event} (allowed : TrimAllowed start plan events)
    (quiet : ∀ batch mode, event ≠ .applied batch mode) : TrimAllowed start plan (event :: events) := by
  refine ⟨?_,?_⟩
  · rw [Event.stored_record start.index quiet]
    exact allowed.stored
  · rcases allowed.flushed with before | ⟨batch,applied,stores⟩
    · exact .inl before
    · exact .inr ⟨batch,List.mem_cons_of_mem _ applied,stores⟩

theorem TrimAllowed.lasting : Lasting (TrimAllowed start plan) := fun _ _ allowed quiet _ => allowed.cons quiet

end stages

section commits
variable [Crc32c] {start now : Storage} {plan : RecoveryPlan} {events : List Event} {batch : IndexAtomicBatch}

-- A storage the index alone has moved to, by one event.
theorem Traced.applies {mode : IndexCommitMode} {after : Storage} (traced : Traced start plan events now)
    (ordinary : batch.Ordinary) (careful : Careful plan batch) (trace : after.trace = .applied batch mode :: now.trace)
    (index : after.index = now.index.apply batch) (files : after.vlog.files = now.vlog.files) :
    Traced start plan (.applied batch mode :: events) after := by
  refine ⟨?_,?_,?_,.event traced.permitted careful,?_,?_⟩
  · rw [trace,traced.trace,List.cons_append]
  · rw [index,traced.index]
    rfl
  · rw [index,ordinary.identity]
    exact traced.identified
  · intro fileId offset keeps
    rw [Storage.contents,files]
    exact traced.kept fileId offset keeps
  · intro intact
    rw [files]
    exact traced.untouched (fun other member => intact other (List.mem_cons_of_mem _ member))

theorem Traced.commits (traced : Traced start plan events now) (held : TargetHeld start plan events)
    (ordinary : batch.Ordinary) (careful : Careful plan batch) :
    Delivers (commitAtomic batch .syncAll) now
      (fun _ after => Traced start plan (.applied batch .syncAll :: .submitted batch .syncAll :: events) after)
      (fun _ after => During start plan Anyhow after) := by
  have handed : ∀ script, Traced start plan (.submitted batch .syncAll :: events)
      (({now with script} : Storage).record (.submitted batch .syncAll)) := by
    intro script
    have same : Traced start plan events {now with script} := traced.same rfl rfl rfl
    exact same.record ⟨rfl,held,careful⟩ (fun _ _ other => by cases other)
  refine delivers_commitAtomic ordinary traced.identified ?_ ?_ ?_ ?_
  · intro script
    exact (handed script).applies ordinary careful rfl rfl rfl
  · intro source script
    exact ⟨_,handed script,trivial⟩
  · intro source script
    exact ⟨_,handed script,trivial⟩
  · intro source script
    exact ⟨_,(handed script).applies ordinary careful rfl rfl rfl,trivial⟩

theorem Traced.commitBuilt {built : Result IndexAtomicBatch} (traced : Traced start plan events now)
    (held : TargetHeld start plan events)
    (each : ∀ batch, built = .ok batch → batch.Ordinary ∧ Careful plan batch) :
    Delivers (commitBuilt built) now
      (fun _ after => ∃ batch, built = .ok batch ∧
        Traced start plan (.applied batch .syncAll :: .submitted batch .syncAll :: events) after)
      (fun _ after => During start plan Anyhow after) := by
  refine delivers_bind.mpr (delivers_lift.mpr ⟨?_,fun _ _ => ⟨events,traced,trivial⟩⟩)
  intro batch same
  obtain ⟨ordinary,careful⟩ := each batch same
  refine delivers_mapError.mpr ((traced.commits held ordinary careful).mono ?_ (fun _ _ ended => ended))
  intro _ after applied
  exact ⟨batch,same,applied⟩

end commits

section batches
variable [Crc32c] {plan : RecoveryPlan} {batch : IndexAtomicBatch}

theorem recoveryStateBatch_careful {state : RecoveryState} (aims : state.Aims plan)
    (built : recoveryStateBatch state = .ok batch) : batch.Ordinary ∧ Careful plan batch := by
  obtain ⟨encoded,encodes,rfl⟩ := recoveryStateBatch_ok.mp built
  have sets := (systemPuts_writes [(recoveryStateKey,encoded)]).sets
  refine ⟨recoveryStateBatch_ordinary encodes,?_,?_⟩
  · intro value set
    have same : durableFrontierKey = recoveryStateKey := congrArg Prod.fst (List.mem_singleton.mp ((sets _ _).mp set))
    exact absurd same (by decide)
  · intro other set
    have member := (sets _ _).mp set
    obtain rfl := Option.some.inj (congrArg Prod.snd (List.mem_singleton.mp member))
    exact ⟨state,encodes,aims⟩

theorem deleteRecoveryStateBatch_careful (built : deleteRecoveryStateBatch = .ok batch) :
    batch.Ordinary ∧ Careful plan batch := by
  obtain ⟨made,ordinary⟩ := deleteRecoveryStateBatch_ok
  obtain rfl := Except.ok.inj (made.symm.trans built)
  have writes : IndexAtomicBatch.Writes [.deleteInternal .system recoveryStateKey] [] [] [(recoveryStateKey,none)] := rfl
  refine ⟨ordinary,?_,?_⟩
  · intro value set
    have same : durableFrontierKey = recoveryStateKey :=
      congrArg Prod.fst (List.mem_singleton.mp ((writes.sets _ _).mp set))
    exact absurd same (by decide)
  · intro encoded set
    have member := (writes.sets _ _).mp set
    cases congrArg Prod.snd (List.mem_singleton.mp member)

theorem buildUndoBatch_writes {loaded : LoadedDescriptor} {state : RecoveryState}
    (built : buildUndoBatch loaded state = .ok batch) :
    ∃ users transactions encoded, state.encode = .ok encoded ∧ batch.Writes users transactions
      [(headSeqKey,some (encodeHeadSeq state.nextUndoSeq)),(recoveryStateKey,some encoded)] := by
  simp only [buildUndoBatch,bind_ok,pushRecovery,mapError_ok] at built
  obtain ⟨users,usersBuilt,entries,entriesBuilt,described,metaBuilt,headed,headBuilt,encoded,encodes,stateBuilt⟩ := built
  obtain ⟨rfl,-⟩ := foldlM_push
    (fun mutation : TxMutation => stateMutation mutation.userKey mutation.beforeState) usersBuilt
    (fun batch mutation next stepped => by
      simp only [bind_ok,mapError_ok,IndexAtomicBatch.tryPush,exists_unit,pure_ok,Except.ok.injEq] at stepped
      obtain ⟨operation,made,pushed⟩ := stepped
      exact userMutation_ok made ▸ pushed)
  obtain ⟨rfl,-⟩ := foldlM_push (fun entry : Bytes × Bytes => IndexMutation.deleteInternal .transaction entry.1)
    entriesBuilt (fun batch entry next stepped => by simpa [IndexAtomicBatch.tryPush] using stepped)
  simp only [IndexAtomicBatch.tryPush,bind_ok,exists_unit,pure_ok,Except.ok.injEq] at metaBuilt headBuilt stateBuilt
  obtain ⟨-,rfl⟩ := metaBuilt
  obtain ⟨-,rfl⟩ := headBuilt
  obtain ⟨-,rfl⟩ := stateBuilt
  refine ⟨loaded.descriptor.mutations.map (fun mutation => (mutation.userKey,storedState mutation.beforeState)),
    loaded.mutations.map (fun entry => (entry.1,none)) ++ [(loaded.metaEntry.1,none)],encoded,encodes,?_⟩
  simp only [IndexAtomicBatch.Writes,List.nil_append,List.map_append,List.map_map,Function.comp_def,stateMutation_write,
    List.append_assoc,List.map_cons,List.map_nil,place]
  rfl

theorem buildUndoBatch_careful {loaded : LoadedDescriptor} {state : RecoveryState} (aims : state.Aims plan)
    (built : buildUndoBatch loaded state = .ok batch) : Careful plan batch := by
  obtain ⟨users,transactions,encoded,encodes,writes⟩ := buildUndoBatch_writes built
  refine ⟨?_,?_⟩
  · intro value set
    have member := (writes.sets _ _).mp set
    simp only [List.mem_cons,Prod.mk.injEq,List.not_mem_nil,or_false] at member
    rcases member with ⟨same,-⟩ | ⟨same,-⟩
    · exact absurd same (by decide)
    · exact absurd same (by decide)
  · intro other set
    have member := (writes.sets _ _).mp set
    simp only [List.mem_cons,Prod.mk.injEq,List.not_mem_nil,or_false] at member
    rcases member with ⟨same,-⟩ | ⟨-,same⟩
    · exact absurd same (by decide)
    · obtain rfl := Option.some.inj same
      exact ⟨state,encodes,aims⟩

-- What the batch that moves to the target sets, key by key.
theorem targetFrontierBatch_sets {recoveryState : Option RecoveryState}
    (built : targetFrontierBatch plan.acceptedSeq plan.target recoveryState = .ok batch) :
    batch.Ordinary ∧ ∃ encoded stored, plan.target.encode = .ok encoded ∧
      recoveryState.mapM RecoveryState.encode = .ok stored ∧
      batch.Writes [] [] ([(headSeqKey,some (encodeHeadSeq plan.acceptedSeq)),(durableFrontierKey,some encoded)] ++
        stored.toList.map (fun encoded => (recoveryStateKey,some encoded))) := by
  obtain ⟨-,encoded,encodes,stored,stores,rfl⟩ := targetFrontierBatch_ok.mp built
  refine ⟨targetEntries_ordinary encodes stores,encoded,stored,encodes,stores,?_⟩
  have writes := systemPuts_writes (targetEntries plan.acceptedSeq encoded stored)
  cases stored <;> exact writes

theorem targetFrontierBatch_careful {recoveryState : Option RecoveryState} (paired : plan.Paired)
    (aims : ∀ state ∈ recoveryState, state.Aims plan)
    (built : targetFrontierBatch plan.acceptedSeq plan.target recoveryState = .ok batch) :
    batch.Ordinary ∧ Careful plan batch := by
  obtain ⟨ordinary,encoded,stored,encodes,stores,writes⟩ := targetFrontierBatch_sets built
  refine ⟨ordinary,?_,?_⟩
  · intro value set
    have member := (writes.sets _ _).mp set
    simp only [List.cons_append,List.nil_append,List.mem_cons,Prod.mk.injEq,List.mem_map] at member
    rcases member with ⟨same,-⟩ | ⟨-,same⟩ | ⟨_,-,same,-⟩
    · exact absurd same (by decide)
    · refine ⟨paired,(writes.sets _ _).mpr ?_,encoded,encodes,same⟩
      exact List.mem_append_left _ List.mem_cons_self
    · exact absurd same (by decide)
  · intro other set
    have member := (writes.sets _ _).mp set
    simp only [List.cons_append,List.nil_append,List.mem_cons,Prod.mk.injEq,List.mem_map,Option.mem_toList] at member
    rcases member with ⟨same,-⟩ | ⟨same,-⟩ | ⟨bytes,present,-,same⟩
    · exact absurd same (by decide)
    · exact absurd same (by decide)
    · obtain rfl := Option.some.inj same
      cases recoveryState with
      | none => cases (Except.ok.inj stores : none = stored); cases present
      | some state =>
        cases encoding : state.encode with
        | error error => simp [encoding] at stores
        | ok written =>
          obtain rfl : some written = stored := by simpa [encoding] using stores
          obtain rfl := Option.mem_some.mp present
          exact ⟨state,encoding,aims state rfl⟩

-- After it the index is at the target, whatever it was.
theorem targetFrontierBatch_stores {state : RecoveryState} (fits : plan.acceptedSeq < 18446744073709551616)
    (aims : state.Aims plan) (trims : state.phase = .trim)
    (built : targetFrontierBatch plan.acceptedSeq plan.target (some state) = .ok batch) (index : Index) :
    TrimStored (index.apply batch) plan := by
  obtain ⟨-,encoded,stored,encodes,stores,writes⟩ := targetFrontierBatch_sets built
  cases encoding : state.encode with
  | error error => simp [encoding] at stores
  | ok written =>
    obtain rfl : some written = stored := by simpa [encoding] using stores
    refine ⟨⟨_,?_,decodeHeadSeq_encode fits⟩,⟨encoded,?_,(DurableFrontier.decode_encode encodes fits).1⟩,
      written,state,?_,(RecoveryState.decode_encode encoding aims.fits).1,trims,aims⟩
    · rw [writes.system]
      rfl
    · rw [writes.system]
      rfl
    · rw [writes.system]
      rfl

end batches

section pieces
variable [Crc32c] {start now : Storage} {plan : RecoveryPlan} {stage : List Event → Prop} {ε : Type}

-- A call without a lasting effect, inside a stage that outlives it.
theorem During.syncAcceptedFile {done : List Nat}
    (during : During start plan (fun events => Intact events ∧
      ∀ fileId ∈ done, .syncedFile fileId (start.contents fileId).length ∈ events) now) (fileId : Nat) :
    Delivers (ValueLogRecovery.syncAcceptedFile fileId) now
      (fun _ after => During start plan (fun events => Intact events ∧
        ∀ other ∈ fileId :: done, .syncedFile other (start.contents other).length ∈ events) after)
      (fun _ after => During start plan Anyhow after) := by
  have lasting : Lasting (fun events => Intact events ∧
      ∀ fileId ∈ done, .syncedFile fileId (start.contents fileId).length ∈ events) :=
    Intact.lasting.and (fun _ _ there _ _ fileId member => List.mem_cons_of_mem _ (there fileId member))
  unfold ValueLogRecovery.syncAcceptedFile
  have calm := @During.calm _ start plan _ lasting
  refine (during.leaves (calm.openWritable fileId).mapError).bind ?_ (fun _ _ kept => kept.ended)
  intro _ opened during
  refine (during.leaves (calm.verify fileId).mapError).bind ?_ (fun _ _ kept => kept.ended)
  intro _ verified during
  obtain ⟨events,traced,intact,synced⟩ := during
  refine delivers_mapError.mpr (delivers_perform ?_ ?_)
  · intro script
    have same : Traced start plan events {verified with script} := traced.same rfl rfl rfl
    have length : ({verified with script} : Storage).contents fileId = start.contents fileId := by
      rw [Storage.contents,Storage.contents,same.untouched intact]
    refine ⟨_,same.record trivial (fun _ _ other => by cases other),intact.cons (fun destroys => destroys),?_⟩
    intro other member
    rcases List.mem_cons.mp member with here | there
    · rw [here,length]
      exact List.mem_cons_self
    · exact List.mem_cons_of_mem _ (synced other there)
  · intro error script
    exact ⟨events,traced.same rfl rfl rfl,trivial⟩

theorem During.syncAcceptedFiles {fileIds done : List Nat}
    (during : During start plan (fun events => Intact events ∧
      ∀ fileId ∈ done, .syncedFile fileId (start.contents fileId).length ∈ events) now) :
    Delivers (fileIds.forM ValueLogRecovery.syncAcceptedFile) now
      (fun _ after => During start plan (fun events => Intact events ∧
        ∀ fileId ∈ fileIds ++ done, .syncedFile fileId (start.contents fileId).length ∈ events) after)
      (fun _ after => During start plan Anyhow after) := by
  induction fileIds generalizing now done with
  | nil => exact during
  | cons first rest ih =>
    change Delivers (ValueLogRecovery.syncAcceptedFile first >>= fun _ =>
      rest.forM ValueLogRecovery.syncAcceptedFile) now _ _
    refine (during.syncAcceptedFile first).bind ?_ (fun _ _ ended => ended)
    intro _ reached during
    refine (ih during).mono ?_ (fun _ _ ended => ended)
    intro _ after kept
    refine kept.mono ?_
    intro events both
    refine ⟨both.1,?_⟩
    intro fileId member
    apply both.2
    simp only [List.cons_append,List.mem_cons,List.mem_append] at member ⊢
    rcases member with here | front | back
    · exact .inr (.inl here)
    · exact .inl front
    · exact .inr (.inr back)

-- The new part of the accepted range is on the disk before the first batch.
theorem During.syncNewAcceptedVlog (during : During start plan Intact now)
    (further : plan.acceptedVlogSeq ≠ plan.durableFrontier.durableVlogSeq →
      plan.acceptedEnd ≠ plan.durableFrontier.durableVlogEnd) :
    Delivers (syncNewAcceptedVlog plan) now
      (fun _ after => During start plan (fun events => Intact events ∧ TargetHeld start plan events) after)
      (fun _ after => During start plan Anyhow after) := by
  have stopped := during.ended
  unfold ExpirKv.syncNewAcceptedVlog
  by_cases same : plan.acceptedVlogSeq = plan.durableFrontier.durableVlogSeq
  · rw [if_pos same]
    refine delivers_lift.mpr ⟨fun _ _ => ?_,fun _ _ => stopped⟩
    exact during.mono (fun _ intact => ⟨intact,fun _ differs => absurd same differs⟩)
  · rw [if_neg same]
    refine delivers_bind.mpr (delivers_lift.mpr ⟨fun _ _ => ?_,fun _ _ => stopped⟩)
    unfold ValueLogRecovery.syncAcceptedRange
    rw [if_neg (fun equal => further same equal.symm)]
    refine delivers_bind.mpr (delivers_lift.mpr ⟨?_,fun _ _ => stopped⟩)
    intro accepted found
    have ends := orError_ok.mp found
    refine delivers_bind.mpr (delivers_get.mpr ?_)
    refine delivers_bind.mpr (delivers_lift.mpr ⟨?_,fun _ _ => stopped⟩)
    intro _ inside
    have above := rejectIf_ok.mp inside
    simp only [not_or,Bool.not_eq_true,Option.any_eq_false,decide_eq_false_iff_not,VLogPosition.not_le] at above
    have begun : During start plan (fun events => Intact events ∧
        ∀ fileId ∈ ([] : List Nat), .syncedFile fileId (start.contents fileId).length ∈ events) now :=
      during.mono (fun _ intact => ⟨intact,fun _ no => by cases no⟩)
    refine begun.syncAcceptedFiles.bind ?_ (fun _ _ ended => ended)
    intro _ synced kept
    have held : ∀ {after : Storage} {events : List Event}, Traced start plan events after → Intact events →
        (∀ fileId ∈ ValueLogRecovery.acceptedFiles plan.durableFrontier.durableVlogEnd accepted,
          .syncedFile fileId (start.contents fileId).length ∈ events) →
        ((∀ durable ∈ plan.durableFrontier.durableVlogEnd, durable.fileId < accepted.fileId) →
          .syncedDirectory ∈ events) →
        During start plan (fun events => Intact events ∧ TargetHeld start plan events) after := by
      intro after events traced intact files directory
      exact ⟨events,traced,intact,fun _ _ => ⟨accepted,ends,fun durable member => above.1 durable member,files,directory⟩⟩
    obtain ⟨events,traced,intact,files⟩ := kept
    simp only [List.append_nil] at files
    split
    · refine delivers_mapError.mpr (delivers_perform ?_ ?_)
      · intro script
        have same : Traced start plan events {synced with script} := traced.same rfl rfl rfl
        have recorded : Traced start plan (.syncedDirectory :: events)
            (({synced with script} : Storage).record .syncedDirectory) :=
          same.record trivial (fun _ _ other => by cases other)
        exact held recorded (intact.cons (fun destroys => destroys))
          (fun fileId member => List.mem_cons_of_mem _ (files fileId member)) (fun _ => List.mem_cons_self)
      · intro error script
        exact ⟨events,traced.same rfl rfl rfl,trivial⟩
    · rename_i between
      refine held traced intact files (fun below => absurd ?_ between)
      simpa [Option.all_eq_true] using below

omit [Crc32c] in
theorem acceptedDescriptor_paired {descriptor : TransactionDescriptor} (found : acceptedDescriptor plan = .ok descriptor) :
    plan.Paired := by
  simp only [acceptedDescriptor,bind_ok,exists_unit,rejectIf_ok,orError_ok,pure_ok,Except.ok.injEq,not_or,not_not,
    ne_eq] at found
  obtain ⟨-,_,found,⟨seq,kind,ends⟩,rfl⟩ := found
  exact .inr ⟨_,List.mem_of_getElem? found,kind,seq,ends⟩

theorem validateAcceptedBoundary_paired :
    Delivers (validateAcceptedBoundary plan) now (fun _ _ => plan.Paired) (fun _ _ => True) := by
  unfold validateAcceptedBoundary
  by_cases same : plan.acceptedVlogSeq = plan.durableFrontier.durableVlogSeq
  · rw [if_pos same]
    refine delivers_bind.mpr (delivers_lift.mpr ⟨?_,fun _ _ => trivial⟩)
    intro _ equal
    have ends := rejectIf_ok.mp equal
    have paired : plan.Paired := .inl ⟨same,not_not.mp ends⟩
    exact (Delivers.self _ _).mono (fun _ _ _ => paired) (fun _ _ _ => trivial)
  · rw [if_neg same]
    refine delivers_bind.mpr (delivers_lift.mpr ⟨?_,fun _ _ => trivial⟩)
    intro descriptor found
    have paired := acceptedDescriptor_paired found
    exact (Delivers.self _ _).mono (fun _ _ _ => paired) (fun _ _ _ => trivial)

theorem During.validateAcceptedBoundary (during : During start plan stage now) (lasting : Lasting stage) :
    Delivers (validateAcceptedBoundary plan) now (fun _ after => During start plan stage after ∧ plan.Paired)
      (fun _ after => During start plan Anyhow after) := by
  have calm := @During.calm _ start plan _ lasting
  refine ((during.leaves (calm.validateAcceptedBoundary plan)).and validateAcceptedBoundary_paired).mono
    (fun _ _ both => both) ?_
  exact fun _ _ stopped => stopped.1.ended

end pieces

end ExpirKv
