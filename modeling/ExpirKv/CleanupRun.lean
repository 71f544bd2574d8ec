import ExpirKv.CleanupFacts

namespace ExpirKv
open SharedIndex

variable [Crc32c]

def AtLeast (captured : Nat) (index : Index) : Prop :=
  ∃ frontier headSeq, Ledger index frontier headSeq ∧ captured ≤ frontier.durableSeq

-- A run so far: the index is what its history made of it, and the writers go on from there.
structure Beside (first : Index) (later : List IndexAtomicBatch) (world : SharedIndex) : Prop where
  index : world.index = replay first world.history
  swept : Swept first world.history
  writers : Writers (replayWriters first world.history) later

-- What may happen to the index while a run waits: it only loses stable entries.
structure Since (world next : SharedIndex) : Prop where
  longer : ∃ more, next.history = world.history ++ more
  state : next.index.system[recoveryStateKey]? = world.index.system[recoveryStateKey]?
  atLeast : ∀ captured, AtLeast captured world.index → AtLeast captured next.index
  kept : ∀ captured, AtLeast captured world.index → ∀ key : Bytes, StableKey captured key →
    next.index.transaction[key]? = none ∨ next.index.transaction[key]? = world.index.transaction[key]?

section since
variable {world next final : SharedIndex}

theorem Since.refl (world : SharedIndex) : Since world world :=
  ⟨⟨[],by simp⟩,rfl,fun _ here => here,fun _ _ _ _ => .inr rfl⟩

theorem Since.trans (first : Since world next) (second : Since next final) : Since world final := by
  obtain ⟨⟨more,longer⟩,state,atLeast,kept⟩ := first
  obtain ⟨⟨again,longest⟩,finalState,finalAtLeast,finalKept⟩ := second
  refine ⟨⟨more ++ again,by rw [longest,longer,List.append_assoc]⟩,finalState.trans state,
    fun captured here => finalAtLeast captured (atLeast captured here),?_⟩
  intro captured here key stable
  rcases finalKept captured (atLeast captured here) key stable with gone | same
  · exact .inl gone
  · rw [same]
    exact kept captured here key stable

end since

section turns
variable {first : Index} {later rest : List IndexAtomicBatch} {world : SharedIndex}

theorem Beside.tidied (beside : Beside first later world) :
    Tidied world.index (replayWriters first world.history) := by
  rw [beside.index]
  exact beside.swept.tidied world.history [] (by simp)

-- One batch of the writers lands.
theorem Beside.land {batch : IndexAtomicBatch} (beside : Beside first (batch :: rest) world) :
    Beside first rest (world.land .writer batch) ∧ Since world (world.land .writer batch) := by
  have tidied := beside.tidied
  obtain ⟨index,swept,writers⟩ := beside
  cases writers with
  | cons ledger writer writers =>
    have standing := ledger.transfer tidied.system.symm
    obtain ⟨advances,state⟩ := (writer.transfer tidied.user.symm).advances standing
    have next := tidied.advance standing advances
    refine ⟨⟨?_,?_,?_⟩,⟨⟨[(.writer,batch)],rfl⟩,state,?_,?_⟩⟩
    · simp only [SharedIndex.land]
      rw [replay_snoc,index]
    · refine swept.snoc ?_ ?_ (fun _ => ⟨_,_,ledger,writer⟩) (fun no => by cases no)
      · rw [replay_snoc,replayWriters_writer,←index]
        exact next
      · rw [replay_snoc,←index]
        exact state
    · simp only [SharedIndex.land]
      rw [replayWriters_writer]
      exact writers
    · rintro captured ⟨frontier,headSeq,other,low⟩
      obtain rfl := other.frontier_unique standing
      obtain ⟨later,laterHead,after,ordered⟩ := advances.ledger
      exact ⟨later,laterHead,after,by omega⟩
    · rintro captured ⟨frontier,headSeq,other,low⟩ key stable
      obtain rfl := other.frontier_unique standing
      obtain ⟨users,transactions,systems,writes,unstable⟩ := advances.writes
      refine .inr ((writes.transaction world.index key).trans ?_)
      rw [lastValue_of_notMem]
      · rfl
      · intro member
        obtain ⟨entry,there,rfl⟩ := List.mem_map.mp member
        exact unstable entry there (stable.mono low)

theorem Beside.lands {batches : List IndexAtomicBatch} (beside : Beside first (batches ++ rest) world) :
    Beside first rest (batches.foldl (SharedIndex.land .writer) world) ∧
      Since world (batches.foldl (SharedIndex.land .writer) world) := by
  induction batches generalizing world with
  | nil => exact ⟨beside,.refl world⟩
  | cons batch batches ih =>
    obtain ⟨next,since⟩ := beside.land
    obtain ⟨final,further⟩ := ih next
    exact ⟨final,since.trans further⟩

abbrev Ongoing (first : Index) (world : SharedIndex) : Prop := Beside first (world.schedule.flatMap Prod.fst) world

-- Between two calls: others went on, the stop flag was not looked at.
structure Waited (first : Index) (world next : SharedIndex) : Prop where
  ongoing : Ongoing first next
  since : Since world next
  stopAfter : next.stopAfter = world.stopAfter
  stopSeen : next.stopSeen = world.stopSeen

omit [Crc32c] in
theorem foldl_land_kept (batches : List IndexAtomicBatch) (world : SharedIndex) :
    (batches.foldl (SharedIndex.land .writer) world).schedule = world.schedule ∧
      (batches.foldl (SharedIndex.land .writer) world).stopAfter = world.stopAfter ∧
      (batches.foldl (SharedIndex.land .writer) world).stopSeen = world.stopSeen := by
  induction batches generalizing world with
  | nil => exact ⟨rfl,rfl,rfl⟩
  | cons batch batches ih => exact ih (world.land .writer batch)

theorem Beside.overtake (ongoing : Ongoing first world) : Waited first world world.overtake := by
  obtain ⟨schedule,stopAfter,stopSeen⟩ := foldl_land_kept (world.schedule.headD ([],.fine)).1
    {world with schedule := world.schedule.tail}
  have start : Beside first ((world.schedule.headD ([],.fine)).1 ++ world.schedule.tail.flatMap Prod.fst)
      {world with schedule := world.schedule.tail} := by
    refine ⟨ongoing.index,ongoing.swept,?_⟩
    have writers := ongoing.writers
    cases known : world.schedule with
    | nil => exact .nil _
    | cons entry rest =>
      rw [known,List.flatMap_cons] at writers
      exact writers
  obtain ⟨final,since⟩ := start.lands
  refine ⟨?_,⟨since.longer,since.state,since.atLeast,since.kept⟩,stopAfter,stopSeen⟩
  rw [Ongoing,SharedIndex.overtake,schedule]
  exact final

end turns

section calls
variable {first : Index} {world : SharedIndex} {α ε : Type}

theorem delivers_turn {post : Answer → SharedIndex → Prop} {fail : ε → SharedIndex → Prop} (ongoing : Ongoing first world)
    (good : ∀ answer next, Waited first world next → post answer next) :
    Delivers (turn : Eff SharedIndex ε Answer) world post fail := good _ _ ongoing.overtake

theorem delivers_reading {answer : Index → α} {post : α → SharedIndex → Prop} {fail : StorageError → SharedIndex → Prop}
    (ongoing : Ongoing first world) (good : ∀ next, Waited first world next → post (answer next.index) next)
    (bad : ∀ error next, Waited first world next → fail error next) :
    Delivers (reading answer) world post fail := by
  refine delivers_bind.mpr (delivers_turn ongoing ?_)
  intro answered next waited
  split
  · exact bad _ next waited
  · exact good next waited

theorem delivers_reserve {post : Unit → SharedIndex → Prop} {fail : StorageError → SharedIndex → Prop}
    (ongoing : Ongoing first world) (good : ∀ next, Waited first world next → post () next)
    (bad : ∀ error next, Waited first world next → fail error next) :
    Delivers reserve world post fail :=
  delivers_mapError.mpr (delivers_reading ongoing good (fun _ next waited => bad _ next waited))

-- Once the flag was seen it is seen at every later look.
def Halted (world : SharedIndex) : Prop := world.stopSeen = true ∧ world.stopAfter = some 0

theorem delivers_stopRequested {post : Bool → SharedIndex → Prop} {fail : ε → SharedIndex → Prop}
    (ongoing : Ongoing first world)
    (good : ∀ next, Ongoing first next → Since world next → ¬Halted world → next.stopSeen = world.stopSeen → next.index = world.index →
      post false next)
    (halt : ∀ next, Ongoing first next → Since world next → Halted next → post true next) :
    Delivers (stopRequested : Eff SharedIndex ε Bool) world post fail := by
  unfold Delivers stopRequested
  cases flag : world.stopAfter with
  | none =>
    exact good world ongoing (.refl world) (fun halted => by cases flag.symm.trans halted.2) rfl rfl
  | some count =>
    cases count with
    | zero =>
      refine halt _ ⟨ongoing.index,ongoing.swept,ongoing.writers⟩ ?_ ⟨rfl,rfl⟩
      exact ⟨⟨[],by simp⟩,rfl,fun _ here => here,fun _ _ _ _ => .inr rfl⟩
    | succ count =>
      refine good _ ⟨ongoing.index,ongoing.swept,ongoing.writers⟩ ?_ (fun halted => by cases flag.symm.trans halted.2)
        rfl rfl
      exact ⟨⟨[],by simp⟩,rfl,fun _ here => here,fun _ _ _ _ => .inr rfl⟩

end calls

section commits
variable {first : Index} {world : SharedIndex} {captured : Nat} {keys : List Bytes}

-- The batch of a removal lands.
theorem Beside.remove (ongoing : Ongoing first world) (present : keys ≠ []) (removal : Removal first world.history captured keys)
    (standing : AtLeast captured world.index) :
    Ongoing first {world with
        index := world.index.apply (removals keys),history := world.history ++ [(.cleanup,removals keys)]} ∧
      Since world {world with
        index := world.index.apply (removals keys),history := world.history ++ [(.cleanup,removals keys)]} := by
  obtain ⟨frontier,headSeq,ledger,low⟩ := standing
  have stable : ∀ key ∈ keys, StableKey frontier.durableSeq key := by
    intro key member
    obtain ⟨seq,kind,read,inside,-⟩ := removal.each key member
    exact decodeCleanupKey_stable read (by omega)
  have tidied := ongoing.tidied.remove ledger stable
  have system := removals_system keys world.index
  refine ⟨⟨?_,?_,?_⟩,⟨⟨_,rfl⟩,by simp only [system],?_,?_⟩⟩
  · simp only
    rw [replay_snoc,ongoing.index]
  · refine ongoing.swept.snoc ?_ ?_ (fun no => by cases no) (fun _ => ⟨captured,keys,present,rfl,removal⟩)
    · rw [replay_snoc,replayWriters_cleanup,←ongoing.index]
      exact tidied
    · rw [replay_snoc,removals_system]
  · simp only
    rw [replayWriters_cleanup]
    exact ongoing.writers
  · rintro other ⟨known,knownHead,here,bound⟩
    exact ⟨known,knownHead,here.transfer system.symm,bound⟩
  · intro other _ key _
    simp only [removals_transaction]
    split
    · exact .inl rfl
    · exact .inr rfl

omit [Crc32c] in
theorem cleanupBatch_ok (named : ∀ key ∈ keys, key ≠ []) : cleanupBatch keys = .ok (removals keys) := by
  have pushed := foldlM_pushes (fun key : Bytes => IndexMutation.deleteInternal .transaction key) keys
    (fun batch key => (batch.tryPush (.deleteInternal .transaction key)).mapError backgroundInternalIndexError) [] (by
    intro key member batch
    simp [IndexAtomicBatch.tryPush,deleteTransaction_valid (named key member),Except.mapError])
  rw [cleanupBatch,pushed,List.nil_append]
  rfl

omit [Crc32c] in
theorem removals_ordinary (present : keys ≠ []) (named : ∀ key ∈ keys, key ≠ []) : (removals keys).Ordinary := by
  refine ⟨by simpa [removals] using present,?_⟩
  intro mutation member
  obtain ⟨key,there,rfl⟩ := List.mem_map.mp member
  exact deleteTransaction_valid (named key there)

omit [Crc32c] in
theorem decodeCleanupKey_named {key : Bytes} {seq : Nat} {kind : CleanupKeyKind}
    (read : decodeCleanupKey key = .ok (seq,kind)) : key ≠ [] := by
  rintro rfl
  cases read

omit [Crc32c] in
theorem DescriptorCleanupProgress.count_captured {progress next : DescriptorCleanupProgress} {count : Nat}
    {deletingMeta : Bool} (counted : progress.count count deletingMeta = .ok next) :
    next.capturedDurableSeq = progress.capturedDurableSeq ∧ next.blockedByRecovery = progress.blockedByRecovery := by
  cases deletingMeta <;>
  · simp only [DescriptorCleanupProgress.count,DescriptorCleanupProgress.countKeys,bind_ok,pure_ok,Except.ok.injEq] at counted
    obtain ⟨_,⟨_,-,rfl⟩,_,-,rfl⟩ := counted
    exact ⟨rfl,rfl⟩

theorem commitAtomic_delivers {post : Unit → SharedIndex → Prop} {fail : IndexCommitError → SharedIndex → Prop}
    (ongoing : Ongoing first world) (present : keys ≠ []) (named : ∀ key ∈ keys, key ≠ [])
    (standing : AtLeast captured world.index)
    (removal : ∀ next, Waited first world next → Removal first next.history captured keys)
    (good : ∀ next final, Waited first world next → Ongoing first final → Since world final →
      final.stopSeen = world.stopSeen → (∀ key ∈ keys, final.index.transaction[key]? = none) → post () final)
    (bad : ∀ error next, Waited first world next → fail error next)
    (landed : ∀ error final, Ongoing first final → Since world final → fail error final) :
    Delivers (SharedIndex.commitAtomic (removals keys)) world post fail := by
  unfold SharedIndex.commitAtomic
  refine delivers_bind.mpr (delivers_turn ongoing ?_)
  intro answer next waited
  obtain ⟨frontier,headSeq,ledger,low⟩ := waited.since.atLeast captured standing
  have gone : ∀ key ∈ keys, (next.index.apply (removals keys)).transaction[key]? = none := by
    intro key member
    rw [removals_transaction,if_pos member]
  obtain ⟨final,further⟩ := waited.ongoing.remove present (removal next waited) ⟨frontier,headSeq,ledger,low⟩
  simp only [delivers_bind,delivers_get,delivers_set,
    (removals_ordinary present named).commit .buffer _ ledger.identified]
  cases Storage.commitFault answer with
  | none => exact good next _ waited final (waited.since.trans further) waited.stopSeen gone
  | some fault =>
    cases fault with
    | notApplied source => exact bad _ next waited
    | unknown source applied =>
      cases applied with
      | false => exact bad _ next waited
      | true => exact landed _ _ final (waited.since.trans further)

-- One batch of keys, whatever the backend answers.
theorem commitCleanupKeys_delivers {deletingMeta : Bool} {progress : DescriptorCleanupProgress}
    (ongoing : Ongoing first world) (standing : AtLeast captured world.index)
    (removal : ∀ next, Ongoing first next → Since world next → Removal first next.history captured keys) :
    Delivers (commitCleanupKeys keys deletingMeta progress) world
      (fun result next => Ongoing first next ∧ Since world next ∧
        match result with
        | none => keys = [] ∧ next.stopSeen = world.stopSeen ∨ Halted next
        | some counted => counted.capturedDurableSeq = progress.capturedDurableSeq ∧
          counted.blockedByRecovery = progress.blockedByRecovery ∧ next.stopSeen = world.stopSeen ∧
          ∀ key ∈ keys, next.index.transaction[key]? = none)
      (fun _ next => Ongoing first next ∧ Since world next) := by
  unfold commitCleanupKeys
  by_cases empty : keys = []
  · subst empty
    exact ⟨ongoing,.refl world,.inl ⟨rfl,rfl⟩⟩
  · have named : ∀ key ∈ keys, key ≠ [] := by
      intro key member
      obtain ⟨seq,kind,read,-⟩ := (removal world ongoing (.refl world)).each key member
      exact decodeCleanupKey_named read
    rw [if_neg (by simpa using empty),cleanupBatch_ok named,delivers_bind]
    refine delivers_stopRequested ongoing ?_ ?_
    · intro asked here since _ seen _
      simp only [Bool.false_eq_true,if_false,delivers_bind]
      refine delivers_reserve here ?_ ?_
      · intro ready waited
        refine delivers_lift.mpr ⟨?_,fun _ no => by cases no⟩
        intro batch same
        obtain rfl := Except.ok.inj same
        refine delivers_mapError.mpr (commitAtomic_delivers waited.ongoing empty named
          ((since.trans waited.since).atLeast captured standing) ?_ ?_ ?_ ?_)
        · intro next more
          exact removal next more.ongoing ((since.trans waited.since).trans more.since)
        · intro next final more ongoing further seenLater gone
          refine delivers_lift.mpr ⟨?_,?_⟩
          · intro counted count
            obtain ⟨same,block⟩ := DescriptorCleanupProgress.count_captured count
            exact ⟨ongoing,(since.trans waited.since).trans further,same,block,by
              rw [seenLater,waited.stopSeen,seen],gone⟩
          · intro error _
            exact ⟨ongoing,(since.trans waited.since).trans further⟩
        · intro error next more
          exact ⟨more.ongoing,(since.trans waited.since).trans more.since⟩
        · intro error final ongoing further
          exact ⟨ongoing,(since.trans waited.since).trans further⟩
      · intro error next waited
        exact ⟨waited.ongoing,since.trans waited.since⟩
    · intro asked here since halted
      exact ⟨here,since,.inr halted⟩

end commits

end ExpirKv
