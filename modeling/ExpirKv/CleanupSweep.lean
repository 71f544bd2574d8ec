import ExpirKv.CleanupRun

namespace ExpirKv
open SharedIndex

variable [Crc32c]

-- What a run knows once it has read the frontier.
structure Captured (first : Index) (captured : Nat) (world : SharedIndex) : Prop where
  atLeast : AtLeast captured world.index
  seen : ∃ early late frontier headSeq, world.history = early ++ late ∧ Ledger (replay first early) frontier headSeq ∧
    frontier.durableSeq = captured
  unresumed : world.index.system[recoveryStateKey]? = none

theorem Captured.since {first : Index} {captured : Nat} {world next : SharedIndex} (known : Captured first captured world)
    (since : Since world next) : Captured first captured next := by
  obtain ⟨early,late,frontier,headSeq,split,ledger,same⟩ := known.seen
  obtain ⟨more,longer⟩ := since.longer
  refine ⟨since.atLeast captured known.atLeast,⟨early,late ++ more,frontier,headSeq,?_,ledger,same⟩,
    since.state.trans known.unresumed⟩
  rw [longer,split,List.append_assoc]

-- The loop between two entries of its scan.
structure Sweeping (first : Index) (captured : Nat) (processed remaining : List (Bytes × Bytes)) (state : CleanupState)
    (world : SharedIndex) : Prop where
  ongoing : Ongoing first world
  known : Captured first captured world
  listed : ∀ key value : Bytes, StableKey captured key → world.index.transaction[key]? = some value →
    key ∈ (processed ++ remaining).map Prod.fst
  ordered : (processed ++ remaining).Pairwise Keyspace.Before
  stable : ∀ entry ∈ processed ++ remaining, StableKey captured entry.1
  gone : ∀ entry ∈ processed, world.index.transaction[entry.1]? = none ∨ entry.1 ∈ state.pendingMutations ∨
    state.metaKey = some entry.1
  last : ∀ entry ∈ processed.getLast?, ∃ seq kind, decodeCleanupKey entry.1 = .ok (seq,kind) ∧ state.currentSeq = some seq
  opened : processed = [] → state.currentSeq = none
  pending : ∀ key ∈ state.pendingMutations, ∃ seq ordinal, decodeCleanupKey key = .ok (seq,.mutation ordinal) ∧
    state.currentSeq = some seq ∧ seq ≤ captured
  metadata : ∀ key ∈ state.metaKey, ∃ seq, decodeCleanupKey key = .ok (seq,.metadata) ∧
    state.currentSeq = some seq ∧ seq ≤ captured
  progress : state.progress.capturedDurableSeq = captured ∧ state.progress.blockedByRecovery = false

section sweeping
variable {first : Index} {captured : Nat} {processed remaining : List (Bytes × Bytes)} {state : CleanupState}
  {world next : SharedIndex}

-- Waiting takes nothing from the loop.
theorem Sweeping.since (sweeping : Sweeping first captured processed remaining state world) (ongoing : Ongoing first next)
    (since : Since world next) : Sweeping first captured processed remaining state next := by
  have kept := since.kept captured sweeping.known.atLeast
  refine ⟨ongoing,sweeping.known.since since,?_,sweeping.ordered,sweeping.stable,?_,sweeping.last,sweeping.opened,
    sweeping.pending,sweeping.metadata,sweeping.progress⟩
  · intro key value stable found
    rcases kept key stable with gone | same
    · rw [gone] at found
      cases found
    · exact sweeping.listed key value stable (same ▸ found)
  · intro entry member
    rcases sweeping.gone entry member with gone | waits
    · rcases kept entry.1 (sweeping.stable entry (List.mem_append_left _ member)) with still | same
      · exact .inl still
      · exact .inl (same.trans gone)
    · exact .inr waits

theorem Captured.removal {keys : List Bytes} (known : Captured first captured world) (ongoing : Ongoing first world)
    (each : ∀ key ∈ keys, ∃ seq kind, decodeCleanupKey key = .ok (seq,kind) ∧ seq ≤ captured ∧
      (kind = .metadata → ∀ (other value : Bytes) ordinal, world.index.transaction[other]? = some value →
        decodeTxMutationKey other ≠ .ok (seq,ordinal))) : Removal first world.history captured keys := by
  have same := ongoing.index
  have unresumed := known.unresumed
  rw [same] at each unresumed
  exact ⟨known.seen,unresumed,each⟩

-- The pending keys are mutations of the current sequence: they may go at any time.
theorem commitPending_delivers (sweeping : Sweeping first captured processed remaining state world) :
    Delivers (commitPending state) world
      (fun changed next => Sweeping first captured processed remaining changed next ∧
        changed.currentSeq = state.currentSeq ∧ changed.metaKey = state.metaKey ∧
        (changed.pendingMutations = [] ∨ Halted next))
      (fun _ next => Ongoing first next) := by
  unfold commitPending
  have removal : ∀ next, Ongoing first next → Since world next →
      Removal first next.history captured state.pendingMutations := by
    intro next ongoing since
    refine (sweeping.known.since since).removal ongoing ?_
    intro key member
    obtain ⟨seq,ordinal,read,-,inside⟩ := sweeping.pending key member
    exact ⟨seq,_,read,inside,fun no => by cases no⟩
  refine (commitCleanupKeys_delivers sweeping.ongoing sweeping.known.atLeast removal).bind ?_ (fun _ _ left => left.1)
  intro result next
  cases result with
  | none =>
    rintro ⟨ongoing,since,reason⟩
    refine ⟨sweeping.since ongoing since,rfl,rfl,?_⟩
    rcases reason with ⟨empty,-⟩ | halted
    · exact .inl empty
    · exact .inr halted
  | some counted =>
    rintro ⟨ongoing,since,captures,blocked,-,removed⟩
    have later := sweeping.since ongoing since
    refine ⟨⟨ongoing,later.known,later.listed,later.ordered,later.stable,?_,later.last,later.opened,
      (fun _ no => by cases no),later.metadata,?_⟩,rfl,rfl,.inl rfl⟩
    · intro entry member
      rcases later.gone entry member with gone | waits | kept
      · exact .inl gone
      · exact .inl (removed entry.1 waits)
      · exact .inr (.inr kept)
    · exact ⟨captures.trans sweeping.progress.1,blocked.trans sweeping.progress.2⟩

-- No mutation of the current sequence is still to come.
def Closed (remaining : List (Bytes × Bytes)) (currentSeq : Option Nat) : Prop :=
  ∀ entry ∈ remaining, ∀ seq ∈ currentSeq, ∀ ordinal, decodeTxMutationKey entry.1 ≠ .ok (seq,ordinal)

-- The metadata goes last.
theorem deleteMeta_delivers (sweeping : Sweeping first captured processed remaining state world)
    (closed : Closed remaining state.currentSeq) (drained : state.pendingMutations = []) :
    Delivers (deleteMeta state) world
      (fun changed next => Ongoing first next ∧ (Halted next ∨
        (Sweeping first captured processed remaining changed next ∧ changed.currentSeq = state.currentSeq ∧
          changed.pendingMutations = [] ∧ changed.metaKey = none)))
      (fun _ next => Ongoing first next) := by
  unfold deleteMeta
  cases stored : state.metaKey with
  | none => exact ⟨sweeping.ongoing,.inr ⟨sweeping,rfl,drained,stored⟩⟩
  | some key =>
    obtain ⟨seq,read,current,inside⟩ := sweeping.metadata key stored
    refine delivers_bind.mpr (delivers_reserve sweeping.ongoing ?_ (fun _ _ waited => waited.ongoing))
    intro ready waited
    have waiting := sweeping.since waited.ongoing waited.since
    have removal : ∀ next, Ongoing first next → Since ready next → Removal first next.history captured [key] := by
      intro next ongoing since
      have later := waiting.since ongoing since
      refine later.known.removal ongoing ?_
      intro other member
      obtain rfl := List.mem_singleton.mp member
      refine ⟨seq,.metadata,read,inside,?_⟩
      intro _ other value ordinal found mutation
      have decoded := decodeCleanupKey_mutation.mpr mutation
      have place := later.listed other value (decodeCleanupKey_stable decoded inside) found
      rw [List.map_append,List.mem_append] at place
      rcases place with earlier | coming
      · obtain ⟨entry,member,rfl⟩ := List.mem_map.mp earlier
        rcases later.gone entry member with gone | waits | same
        · rw [gone] at found
          cases found
        · rw [drained] at waits
          cases waits
        · obtain rfl := Option.some.inj (stored.symm.trans same)
          rw [read] at decoded
          cases decoded
      · obtain ⟨entry,member,rfl⟩ := List.mem_map.mp coming
        exact closed entry member seq current ordinal mutation
    refine (commitCleanupKeys_delivers waiting.ongoing waiting.known.atLeast removal).bind ?_ (fun _ _ left => left.1)
    intro result next
    cases result with
    | none =>
      rintro ⟨ongoing,since,⟨none,-⟩ | halted⟩
      · cases none
      · exact ⟨ongoing,.inl halted⟩
    | some counted =>
      rintro ⟨ongoing,since,captures,blocked,-,removed⟩
      have later := waiting.since ongoing since
      refine ⟨ongoing,.inr ⟨⟨ongoing,later.known,later.listed,later.ordered,later.stable,?_,later.last,later.opened,
        later.pending,(fun _ no => by cases no),?_⟩,rfl,drained,rfl⟩⟩
      · intro entry member
        rcases later.gone entry member with gone | waits | kept
        · exact .inl gone
        · exact .inr (.inl waits)
        · obtain rfl := Option.some.inj (stored.symm.trans kept)
          exact .inl (removed entry.1 (by simp))
      · exact ⟨captures.trans waiting.progress.1,blocked.trans waiting.progress.2⟩

theorem flushCleanupTransaction_delivers (sweeping : Sweeping first captured processed remaining state world)
    (closed : Closed remaining state.currentSeq) :
    Delivers (flushCleanupTransaction state) world
      (fun changed next => Ongoing first next ∧ (Halted next ∨
        (Sweeping first captured processed remaining changed next ∧ changed.currentSeq = state.currentSeq ∧
          changed.pendingMutations = [] ∧ changed.metaKey = none)))
      (fun _ next => Ongoing first next) := by
  unfold flushCleanupTransaction
  refine (commitPending_delivers sweeping).bind ?_ (fun _ _ left => left)
  rintro drained reached ⟨sweeping,current,-,reason⟩
  refine delivers_bind.mpr (delivers_stopRequested sweeping.ongoing ?_ ?_)
  · intro next ongoing since going _ _
    have empty : drained.pendingMutations = [] := reason.resolve_right going
    simp only [Bool.false_eq_true,if_false]
    have run := deleteMeta_delivers (sweeping.since ongoing since) (current.symm ▸ closed) empty
    rwa [current] at run
  · intro next ongoing _ halted
    exact ⟨ongoing,.inl halted⟩

variable {entry : Bytes × Bytes} {rest : List (Bytes × Bytes)} {commitSeq : Nat} {kind : CleanupKeyKind}

-- The keys stand in their order: a new sequence is a higher one, and so are all that follow.
theorem Sweeping.closed (sweeping : Sweeping first captured processed (entry :: rest) state world)
    (read : decodeCleanupKey entry.1 = .ok (commitSeq,kind)) {current : Nat} (here : state.currentSeq = some current)
    (differs : current ≠ commitSeq) : Closed (entry :: rest) state.currentSeq := by
  obtain ⟨⟨tail,keyed⟩,fits⟩ := decodeCleanupKey_canonical read
  have ordered := sweeping.ordered
  have known : processed ≠ [] := by
    intro empty
    rw [sweeping.opened empty] at here
    cases here
  obtain ⟨front,final,rfl⟩ := List.eq_nil_or_concat processed |>.resolve_left known
  simp only [List.concat_eq_append,List.append_assoc,List.singleton_append] at ordered
  obtain ⟨seq,other,decoded,same⟩ := sweeping.last final (by simp)
  obtain rfl := Option.some.inj (same.symm.trans here)
  obtain ⟨⟨ending,spelled⟩,bound⟩ := decodeCleanupKey_canonical decoded
  have tails := (List.pairwise_append.mp ordered).2.1
  have before : Keyspace.Before final entry := (List.pairwise_cons.mp tails).1 entry List.mem_cons_self
  have lower : seq < commitSeq := by
    by_contra upper
    have reversed : compare entry.1 final.1 = .lt := by
      rw [keyed,spelled]
      exact compare_append_of_lt _ _ (by simp) (txKeyHead_lt bound (by omega))
    have swapped : compare entry.1 final.1 = (compare final.1 entry.1).swap := Std.OrientedCmp.eq_swap
    rw [before] at swapped
    rw [swapped] at reversed
    cases reversed
  intro coming member current there ordinal mutation
  obtain rfl := Option.some.inj (here.symm.trans there)
  obtain ⟨⟨more,named⟩,-⟩ := decodeCleanupKey_canonical (decodeCleanupKey_mutation.mpr mutation)
  have early : compare coming.1 entry.1 = .lt := by
    rw [named,keyed]
    exact compare_append_of_lt _ _ (by simp) (txKeyHead_lt fits lower)
  rcases List.mem_cons.mp member with rfl | later
  · have same : compare coming.1 coming.1 = .eq := Std.ReflCmp.compare_self
    cases same.symm.trans early
  · have after : compare entry.1 coming.1 = .lt := (List.pairwise_cons.mp (List.pairwise_cons.mp tails).2).1 coming later
    have swapped : compare coming.1 entry.1 = (compare entry.1 coming.1).swap := Std.OrientedCmp.eq_swap
    rw [after] at swapped
    rw [swapped] at early
    cases early

-- What the loop carries belongs to the sequence it is about to enter.
def Fresh (state : CleanupState) (commitSeq : Nat) : Prop :=
  state.currentSeq = some commitSeq ∨ (state.pendingMutations = [] ∧ state.metaKey = none)

theorem leaveTransaction_delivers (sweeping : Sweeping first captured processed (entry :: rest) state world)
    (read : decodeCleanupKey entry.1 = .ok (commitSeq,kind)) :
    Delivers (leaveTransaction state commitSeq) world
      (fun left next => Ongoing first next ∧ (Halted next ∧ left.1 = true ∨
        left.1 = false ∧ Sweeping first captured processed (entry :: rest) left.2 next ∧ Fresh left.2 commitSeq))
      (fun _ next => Ongoing first next) := by
  unfold leaveTransaction
  cases here : state.currentSeq with
  | none =>
    refine ⟨sweeping.ongoing,.inr ⟨rfl,sweeping,.inr ⟨?_,?_⟩⟩⟩
    · refine List.eq_nil_iff_forall_not_mem.mpr (fun key member => ?_)
      obtain ⟨_,_,-,current,-⟩ := sweeping.pending key member
      cases here.symm.trans current
    · refine Option.eq_none_iff_forall_not_mem.mpr (fun key member => ?_)
      obtain ⟨_,-,current,-⟩ := sweeping.metadata key member
      cases here.symm.trans current
  | some current =>
    by_cases same : current = commitSeq
    · subst same
      simp only [Option.any_some,bne_self_eq_false,Bool.false_eq_true,if_false]
      exact ⟨sweeping.ongoing,.inr ⟨rfl,sweeping,.inl here⟩⟩
    · rw [if_pos (by simpa using same)]
      refine (flushCleanupTransaction_delivers sweeping (sweeping.closed read here same)).bind ?_ (fun _ _ left => left)
      rintro flushed reached ⟨ongoing,outcome⟩
      refine delivers_bind.mpr (delivers_stopRequested ongoing ?_ ?_)
      · intro next later since going _ _
        obtain ⟨sweeping,-,drained,deleted⟩ := outcome.resolve_left going
        have waiting := sweeping.since later since
        exact ⟨later,.inr ⟨rfl,⟨later,waiting.known,waiting.listed,waiting.ordered,waiting.stable,waiting.gone,
          waiting.last,waiting.opened,waiting.pending,waiting.metadata,waiting.progress⟩,.inr ⟨drained,deleted⟩⟩⟩
      · intro next later _ halted
        exact ⟨later,.inl ⟨halted,rfl⟩⟩

-- An entry is taken: it waits among the mutations or as the metadata key.
theorem Sweeping.take {changed : CleanupState} (sweeping : Sweeping first captured processed (entry :: rest) state world)
    (read : decodeCleanupKey entry.1 = .ok (commitSeq,kind)) (inside : commitSeq ≤ captured) (fresh : Fresh state commitSeq)
    (current : changed.currentSeq = some commitSeq)
    (pending : ∀ key ∈ changed.pendingMutations, key ∈ state.pendingMutations ∨
      (key = entry.1 ∧ ∃ ordinal, kind = .mutation ordinal))
    (pendingKept : ∀ key ∈ state.pendingMutations, key ∈ changed.pendingMutations)
    (metadata : ∀ key ∈ changed.metaKey, key ∈ state.metaKey ∨ (key = entry.1 ∧ kind = .metadata))
    (metadataKept : ∀ key ∈ state.metaKey, key ∈ changed.metaKey)
    (placed : entry.1 ∈ changed.pendingMutations ∨ changed.metaKey = some entry.1)
    (progress : changed.progress = state.progress) :
    Sweeping first captured (processed ++ [entry]) rest changed world := by
  have split : processed ++ [entry] ++ rest = processed ++ entry :: rest := by simp
  refine ⟨sweeping.ongoing,sweeping.known,?_,?_,?_,?_,?_,?_,?_,?_,?_⟩
  · rw [split]
    exact sweeping.listed
  · rw [split]
    exact sweeping.ordered
  · rw [split]
    exact sweeping.stable
  · intro other member
    rcases List.mem_append.mp member with earlier | here
    · rcases sweeping.gone other earlier with gone | waits | kept
      · exact .inl gone
      · exact .inr (.inl (pendingKept _ waits))
      · exact .inr (.inr (metadataKept _ kept))
    · obtain rfl := List.mem_singleton.mp here
      exact .inr placed
  · intro other member
    have same : entry = other := by simpa using member
    subst same
    exact ⟨commitSeq,kind,read,current⟩
  · intro empty
    simp at empty
  · intro key member
    rcases pending key member with old | ⟨rfl,ordinal,rfl⟩
    · rcases fresh with same | ⟨none,-⟩
      · obtain ⟨seq,ordinal,decoded,here,bound⟩ := sweeping.pending key old
        obtain rfl := Option.some.inj (same.symm.trans here)
        exact ⟨_,ordinal,decoded,current,bound⟩
      · rw [none] at old
        cases old
    · exact ⟨commitSeq,ordinal,read,current,inside⟩
  · intro key member
    rcases metadata key member with old | ⟨rfl,rfl⟩
    · rcases fresh with same | ⟨-,none⟩
      · obtain ⟨seq,decoded,here,bound⟩ := sweeping.metadata key old
        obtain rfl := Option.some.inj (same.symm.trans here)
        exact ⟨_,decoded,current,bound⟩
      · rw [none] at old
        cases old
    · exact ⟨commitSeq,read,current,inside⟩
  · rw [progress]
    exact sweeping.progress

theorem takeEntry_delivers (sweeping : Sweeping first captured processed (entry :: rest) state world)
    (read : decodeCleanupKey entry.1 = .ok (commitSeq,kind)) (inside : commitSeq ≤ captured)
    (fresh : Fresh state commitSeq) :
    Delivers (takeEntry {state with currentSeq := some commitSeq} entry.1 kind) world
      (fun changed next => Sweeping first captured (processed ++ [entry]) rest changed next)
      (fun _ next => Ongoing first next) := by
  cases kind with
  | metadata =>
    simp only [takeEntry,takeMeta,delivers_bind,delivers_lift,delivers_pure,rejectIf_ok]
    refine ⟨?_,fun _ _ => sweeping.ongoing⟩
    intro _ accepted
    simp only [not_or,Bool.not_eq_true,Option.isSome_eq_false_iff,Option.isNone_iff_eq_none] at accepted
    refine sweeping.take read inside fresh rfl (fun key member => .inl member) (fun key member => member) ?_ ?_ (.inr rfl) rfl
    · intro key member
      exact .inr ⟨(Option.some.inj member).symm,rfl⟩
    · intro key member
      rw [accepted.2] at member
      cases member
  | mutation ordinal =>
    simp only [takeEntry,takeMutation,delivers_bind,delivers_lift]
    refine ⟨?_,fun _ _ => sweeping.ongoing⟩
    intro _ _
    refine ⟨?_,fun _ _ => sweeping.ongoing⟩
    intro pendingKeyBytes _
    refine delivers_reserve sweeping.ongoing ?_ (fun _ _ waited => waited.ongoing)
    intro ready waited
    have waiting := sweeping.since waited.ongoing waited.since
    have taken : Sweeping first captured (processed ++ [entry]) rest
        {state with
          currentSeq := some commitSeq
          lastOrdinal := some ordinal
          sawMutation := true
          pendingKeyBytes
          pendingMutations := state.pendingMutations ++ [entry.1]} ready := by
      refine waiting.take read inside fresh rfl ?_ (fun key member => List.mem_append_left _ member)
        (fun key member => .inl member) (fun key member => member) (.inl (by simp)) rfl
      intro key member
      rcases List.mem_append.mp member with old | here
      · exact .inl old
      · exact .inr ⟨List.mem_singleton.mp here,ordinal,rfl⟩
    split
    · exact (commitPending_delivers taken).mono (fun _ _ done => done.1) (fun _ _ left => left)
    · exact taken

-- The loop: what lands is fine, and unless it halts nothing stable is left.
theorem cleanEntries_delivers (sweeping : Sweeping first captured processed remaining state world) :
    Delivers (cleanEntries captured remaining state) world
      (fun progress next => Ongoing first next ∧ (Halted next ∨
        (progress.capturedDurableSeq = captured ∧ progress.blockedByRecovery = false ∧
          ∀ key : Bytes, StableKey captured key → next.index.transaction[key]? = none)))
      (fun _ next => Ongoing first next) := by
  induction remaining generalizing processed state world with
  | nil =>
    unfold cleanEntries
    refine (flushCleanupTransaction_delivers sweeping (fun _ no => by cases no)).bind ?_ (fun _ _ left => left)
    rintro changed next ⟨ongoing,halted | ⟨sweeping,-,drained,deleted⟩⟩
    · exact ⟨ongoing,.inl halted⟩
    · refine ⟨ongoing,.inr ⟨sweeping.progress.1,sweeping.progress.2,?_⟩⟩
      intro key stable
      cases found : next.index.transaction[key]? with
      | none => rfl
      | some value =>
        have place := sweeping.listed key value stable found
        rw [List.append_nil] at place
        obtain ⟨entry,member,rfl⟩ := List.mem_map.mp place
        rcases sweeping.gone entry member with gone | waits | kept
        · cases found.symm.trans gone
        · rw [drained] at waits
          cases waits
        · cases deleted.symm.trans kept
  | cons entry rest ih =>
    unfold cleanEntries
    refine delivers_bind.mpr (delivers_stopRequested sweeping.ongoing ?_ ?_)
    · intro asked ongoing since _ _ _
      simp only [Bool.false_eq_true,if_false,readEntry,delivers_bind,delivers_mapError]
      refine delivers_reading ongoing ?_ (fun _ _ waited => waited.ongoing)
      intro ready waited
      have waiting := (sweeping.since ongoing since).since waited.ongoing waited.since
      refine delivers_lift.mpr ⟨?_,fun _ _ => waited.ongoing⟩
      rintro ⟨commitSeq,kind⟩ read
      refine delivers_lift.mpr ⟨?_,fun _ _ => waited.ongoing⟩
      intro _ accepted
      have inside : commitSeq ≤ captured := Nat.not_lt.mp (rejectIf_ok.mp accepted)
      rw [delivers_pure]
      refine (leaveTransaction_delivers waiting read).mono ?_ (fun _ _ left => left)
      rintro ⟨stopped,left⟩ next ⟨ongoing,⟨halted,flag⟩ | ⟨flag,sweeping,fresh⟩⟩
      · obtain rfl : stopped = true := flag
        exact ⟨ongoing,.inl halted⟩
      · obtain rfl : stopped = false := flag
        simp only [Bool.false_eq_true,if_false,delivers_bind]
        refine (takeEntry_delivers sweeping read inside fresh).mono ?_ (fun _ _ left => left)
        intro changed final sweeping
        exact ih sweeping
    · intro next ongoing _ halted
      exact ⟨ongoing,.inl halted⟩

omit [Crc32c] in
-- The scan of a run meets the stable keys and no others.
theorem stableDescriptorRange_contains {range : KeyRange} (made : stableDescriptorRange captured = .ok range) (key : Bytes) :
    range.contains key = true ↔ StableKey captured key := by
  unfold stableDescriptorRange at made
  unfold StableKey
  split at made
  · rename_i room
    simp only [bind_ok,mapError_ok,pure_ok,Except.ok.injEq] at made
    obtain ⟨encoded,written,rfl⟩ := made
    obtain ⟨-,rfl⟩ := encodeTxMetaKey_ok.mp written
    have head : (txKeyHead (captured + 1) ++ [txMetaKind]).take 10 = txKeyHead (captured + 1) :=
      List.take_left' (txKeyHead_length _)
    simp [KeyRange.contains,head,room]
  · rename_i full
    obtain rfl := Except.ok.inj made
    simp [KeyRange.contains,full]

theorem Captured.start (ongoing : Ongoing first world) {frontier : DurableFrontier} {encoded : Bytes}
    (stored : world.index.system[durableFrontierKey]? = some encoded) (decoded : DurableFrontier.decode encoded = .ok frontier)
    (unresumed : world.index.system[recoveryStateKey]? = none) : Captured first frontier.durableSeq world := by
  obtain ⟨known,headSeq,ledger,-⟩ := ongoing.tidied.ledger
  obtain ⟨found,again,read⟩ := ledger.durable
  obtain rfl := Option.some.inj (stored.symm.trans again)
  obtain rfl := Except.ok.inj (decoded.symm.trans read)
  refine ⟨⟨frontier,headSeq,ledger,Nat.le_refl _⟩,⟨world.history,[],frontier,headSeq,by simp,?_,rfl⟩,unresumed⟩
  rw [←ongoing.index]
  exact ledger

-- A whole run beside the writers, whatever it meets.
theorem cleanupDescriptorsOnce_delivers (ongoing : Ongoing first world) :
    Delivers cleanupDescriptorsOnce world
      (fun progress next => Ongoing first next ∧ (Halted next ∨ progress.blockedByRecovery = true ∨
        ∀ key : Bytes, StableKey progress.capturedDurableSeq key → next.index.transaction[key]? = none))
      (fun _ next => Ongoing first next) := by
  unfold cleanupDescriptorsOnce
  simp only [SharedIndex.getInternal,SharedIndex.scanInternal,captureFrontier,delivers_bind,delivers_mapError]
  refine delivers_reading ongoing ?_ (fun _ _ waited => waited.ongoing)
  intro checked waited
  split
  · exact ⟨waited.ongoing,.inr (.inl rfl)⟩
  · rename_i unresumed
    have clear : checked.index.system[recoveryStateKey]? = none := by simpa [Index.keyspace] using unresumed
    simp only [delivers_bind,delivers_mapError]
    refine delivers_reading waited.ongoing ?_ (fun _ _ later => later.ongoing)
    intro seen later
    refine delivers_lift.mpr ⟨?_,fun _ _ => later.ongoing⟩
    intro encoded stored
    refine delivers_lift.mpr ⟨?_,fun _ _ => later.ongoing⟩
    intro frontier decoded
    have known : Captured first frontier.durableSeq seen :=
      .start later.ongoing (orError_ok.mp stored) (mapError_ok.mp decoded) (later.since.state.trans clear)
    rw [delivers_pure]
    refine delivers_stopRequested later.ongoing ?_ ?_
    · intro asked here since _ _ _
      simp only [Bool.false_eq_true,if_false,delivers_bind,delivers_mapError]
      refine delivers_lift.mpr ⟨?_,fun _ _ => here⟩
      intro range made
      refine delivers_reading here ?_ (fun _ _ final => final.ongoing)
      intro scanned final
      have member : ∀ entry, entry ∈ scanned.index.transaction.scan range ↔
          scanned.index.transaction[entry.1]? = some entry.2 ∧ StableKey frontier.durableSeq entry.1 := by
        intro entry
        rw [Keyspace.mem_scan,stableDescriptorRange_contains made]
      have sweeping : Sweeping first frontier.durableSeq [] (scanned.index.transaction.scan range)
          (.start {capturedDurableSeq := frontier.durableSeq}) scanned := by
        refine ⟨final.ongoing,(known.since since).since final.since,?_,Keyspace.scan_ordered _ _,?_,
          (fun _ no => by cases no),(fun _ no => by cases no),(fun _ => rfl),(fun _ no => by cases no),
          (fun _ no => by cases no),rfl,rfl⟩
        · intro key value stable found
          exact List.mem_map.mpr ⟨(key,value),(member (key,value)).mpr ⟨found,stable⟩,rfl⟩
        · intro entry there
          exact ((member entry).mp there).2
      refine (cleanEntries_delivers sweeping).mono ?_ (fun _ _ left => left)
      rintro progress next ⟨ongoing,halted | ⟨captures,-,gone⟩⟩
      · exact ⟨ongoing,.inl halted⟩
      · refine ⟨ongoing,.inr (.inr ?_)⟩
        rw [captures]
        exact gone
    · intro asked here _ halted
      exact ⟨here,.inl halted⟩

end sweeping

end ExpirKv
