import ExpirKv.Vlog.HandleCacheFacts

namespace ExpirKv

namespace HandleCaching

namespace CacheEvent

-- The id and the handle that a call of `handle` returns at this event.
def answer : CacheEvent → Option (Nat × Handle)
  | .hit fileId (some handle) => some (fileId,handle)
  | .insertOrGet fileId candidate inserted => some (fileId,inserted.handle candidate)
  | _ => none

def stores : CacheEvent → Option Nat
  | .insertOrGet fileId _ (.stored _) => some fileId
  | _ => none

-- The entry of the id is evicted, removed or cleared.
def Departs (fileId : Nat) : CacheEvent → Prop
  | .insertOrGet _ _ (.stored evicted) => evicted.map Prod.fst = some fileId
  | .removed other => other = fileId
  | .cleared => True
  | _ => False

def heldAfter (fileId : Nat) (held : Option Handle) : CacheEvent → Option Handle
  | .insertOrGet other candidate (.stored evicted) =>
    if fileId = other then some candidate else if evicted.map Prod.fst = some fileId then none else held
  | .removed other => if fileId = other then none else held
  | .cleared => none
  | _ => held

-- What the event has answered is what was held.
def Explained (capacity : Nat) (held : Nat → Option Handle) : CacheEvent → Prop
  | .hit fileId answer => answer = held fileId
  | .insertOrGet fileId _ (.existing handle) => held fileId = some handle
  | .insertOrGet fileId _ (.stored _) => held fileId = none
  | .insertOrGet _ _ .uncached => capacity = 0
  | _ => True

end CacheEvent

-- How many events ago the id was stored last.
def storedAgo : List CacheEvent → Nat → Nat
  | [],_ => 0
  | event :: older,fileId => if event.stores = some fileId then 0 else storedAgo older fileId + 1

def heldBy : List CacheEvent → Nat → Option Handle
  | [],_ => none
  | event :: older,fileId => event.heldAfter fileId (heldBy older fileId)

def Explained (capacity : Nat) : List CacheEvent → Prop
  | [] => True
  | event :: older => event.Explained capacity (heldBy older) ∧ Explained capacity older

section histories
variable {capacity fileId : Nat} {handle : Handle} {event : CacheEvent} {newer older past : List CacheEvent}

theorem heldBy_answered (held : heldBy past fileId = some handle) :
    ∃ event ∈ past, event.answer = some (fileId,handle) := by
  induction past with
  | nil => cases held
  | cons event older ih =>
    have earlier : heldBy older fileId = some handle →
        ∃ event' ∈ event :: older, event'.answer = some (fileId,handle) := by
      intro before
      obtain ⟨event',member,answered⟩ := ih before
      exact ⟨event',List.mem_cons_of_mem _ member,answered⟩
    cases event with
    | registered other identity => exact earlier held
    | opened other one expected file => exact earlier held
    | hit other answer => exact earlier held
    | removed other =>
      simp only [heldBy,CacheEvent.heldAfter] at held
      split at held
      · cases held
      · exact earlier held
    | cleared => cases held
    | insertOrGet other candidate inserted =>
      cases inserted with
      | uncached => exact earlier held
      | existing found => exact earlier held
      | stored evicted =>
        simp only [heldBy,CacheEvent.heldAfter] at held
        split at held
        · rename_i same
          exact ⟨_,List.mem_cons_self,by simp only [CacheEvent.answer,Inserted.handle,same,Option.some.inj held]⟩
        · split at held
          · cases held
          · exact earlier held

-- With some capacity, what an event answers is held afterwards.
theorem Explained.answered (explained : Explained capacity (event :: older)) (positive : 0 < capacity)
    (answered : event.answer = some (fileId,handle)) : heldBy (event :: older) fileId = some handle := by
  obtain ⟨now,-⟩ := explained
  cases event with
  | registered other identity => cases answered
  | opened other one expected file => cases answered
  | removed other => cases answered
  | cleared => cases answered
  | hit other answer =>
    cases answer with
    | none => cases answered
    | some found =>
      cases answered
      exact now.symm
  | insertOrGet other candidate inserted =>
    cases inserted with
    | uncached => exact absurd now (Nat.ne_of_gt positive)
    | existing found =>
      cases answered
      exact now
    | stored evicted =>
      cases answered
      exact if_pos rfl

-- An entry that does not depart stays with its handle, and whoever asks for it is answered with it.
theorem Explained.stays (explained : Explained capacity (event :: older)) (positive : 0 < capacity)
    (held : heldBy older fileId = some handle) (stays : ¬event.Departs fileId) :
    heldBy (event :: older) fileId = some handle ∧ event ≠ .hit fileId none ∧
      ∀ other, event.answer = some (fileId,other) → other = handle := by
  have kept : heldBy (event :: older) fileId = some handle := by
    obtain ⟨now,-⟩ := explained
    cases event with
    | registered other identity => exact held
    | opened other one expected file => exact held
    | hit other answer => exact held
    | removed other => exact (if_neg (fun same => stays same.symm)).trans held
    | cleared => exact absurd trivial stays
    | insertOrGet other candidate inserted =>
      cases inserted with
      | uncached => exact held
      | existing found => exact held
      | stored evicted =>
        have differs : fileId ≠ other := by
          intro same
          have missing : heldBy older other = none := now
          rw [← same,held] at missing
          cases missing
        exact (if_neg differs).trans ((if_neg stays).trans held)
  refine ⟨kept,?_,?_⟩
  · intro missed
    rw [missed] at explained
    have none : none = heldBy older fileId := explained.1
    rw [held] at none
    cases none
  · intro other answered
    have again := explained.answered positive answered
    rw [kept] at again
    exact (Option.some.inj again).symm

-- The induction is on the events since the answer.
theorem Explained.until (explained : Explained capacity (newer ++ event :: older)) (positive : 0 < capacity)
    (answered : event.answer = some (fileId,handle)) (stays : ∀ next ∈ newer, ¬next.Departs fileId) :
    heldBy (newer ++ event :: older) fileId = some handle ∧
      ∀ next ∈ newer, next ≠ .hit fileId none ∧ ∀ other, next.answer = some (fileId,other) → other = handle := by
  induction newer with
  | nil =>
    refine ⟨explained.answered positive answered,?_⟩
    intro next member
    cases member
  | cons last newer ih =>
    obtain ⟨held,before⟩ := ih explained.2 (fun next member => stays next (List.mem_cons_of_mem _ member))
    obtain ⟨kept,seen,same⟩ := explained.stays positive held (stays last List.mem_cons_self)
    refine ⟨kept,?_⟩
    intro next member
    rcases List.mem_cons.mp member with rfl | earlier
    · exact ⟨seen,same⟩
    · exact before next earlier

end histories

-- The cache and the past agree: the queue goes by age, the map holds what was answered.
structure CacheKept (capacity : Nat) (readCache : ReadHandleCache) (past : List CacheEvent) : Prop where
  sameCapacity : readCache.capacity = capacity
  unlocked : readCache.inner.poisoned = false
  represents : ∃ cache : FifoCache Nat Handle capacity, Represents readCache.inner.value cache ∧
    cache.Aged (storedAgo past)
  held : ∀ fileId, readCache.inner.value.handles[fileId]? = heldBy past fileId
  explained : Explained capacity past

section caches
variable {capacity fileId : Nat} {candidate : Handle} {readCache : ReadHandleCache} {past : List CacheEvent}

theorem CacheKept.fresh : CacheKept capacity (.new capacity) [] := by
  refine ⟨rfl,rfl,⟨.empty,.fresh,.nil⟩,?_,trivial⟩
  intro fileId
  exact Std.ExtTreeMap.getElem?_empty

theorem CacheKept.writeLock (kept : CacheKept capacity readCache past) :
    readCache.inner.writeLock = .ok readCache.inner.value := by
  rw [RwLock.writeLock,kept.unlocked]
  rfl

-- An event that leaves the cache alone.
theorem CacheKept.note (kept : CacheKept capacity readCache past) {event : CacheEvent} (stores : event.stores = none)
    (aside : ∀ fileId held, event.heldAfter fileId held = held) (explained : event.Explained capacity (heldBy past)) :
    CacheKept capacity readCache (event :: past) := by
  obtain ⟨cache,represents,aged⟩ := kept.represents
  refine ⟨kept.sameCapacity,kept.unlocked,⟨cache,represents,aged.tick ?_⟩,?_,explained,kept.explained⟩
  · intro key
    rw [storedAgo,stores]
    exact if_neg (by simp)
  · intro fileId
    rw [heldBy,aside,kept.held]

theorem CacheKept.hit (kept : CacheKept capacity readCache past) (fileId : Nat) :
    readCache.hit fileId = .ok (heldBy past fileId) := by
  rw [ReadHandleCache.hit,RwLock.readLock,kept.unlocked,← kept.held]
  rfl

theorem CacheKept.clear (kept : CacheKept capacity readCache past) :
    ∃ cleared, readCache.clear = .ok cleared ∧ CacheKept capacity cleared.2 (.cleared :: past) := by
  refine ⟨(readCache.inner.value.clear.1,readCache.withInner readCache.inner.value.clear.2),?_,?_⟩
  · rw [ReadHandleCache.clear,kept.writeLock]
    rfl
  · refine ⟨kept.sameCapacity,kept.unlocked,⟨.empty,.fresh,.nil⟩,?_,trivial,kept.explained⟩
    intro fileId
    exact Std.ExtTreeMap.getElem?_empty

theorem CacheKept.remove (kept : CacheKept capacity readCache past) (fileId : Nat) :
    ∃ removed, readCache.remove fileId = .ok removed ∧ CacheKept capacity removed.2 (.removed fileId :: past) := by
  obtain ⟨cache,represents,aged⟩ := kept.represents
  refine ⟨((readCache.inner.value.remove fileId).1,readCache.withInner (readCache.inner.value.remove fileId).2),?_,?_⟩
  · rw [ReadHandleCache.remove,kept.writeLock]
    rfl
  · refine ⟨kept.sameCapacity,kept.unlocked,⟨cache.remove fileId,represents.remove fileId,?_⟩,?_,trivial,kept.explained⟩
    · exact (aged.remove fileId).tick (fun _ => rfl)
    · intro other
      have left := (represents.remove fileId).handles other
      rw [FifoCache.lookup_remove,← represents.handles,kept.held] at left
      exact left

-- Storing: the candidate is there, whatever left the map is what was popped, and it was full and oldest.
structure Stored (capacity fileId : Nat) (before after : HandleCacheInner) (candidate : Handle)
    (evicted : Option (Nat × Option Handle)) : Prop where
  missing : before.handles[fileId]? = none
  oldest : ∀ gone, evicted.map Prod.fst = some gone →
    before.handles.size = capacity ∧ before.insertionOrder.head? = some gone ∧ gone ∈ before.handles
  handles : ∀ other, after.handles[other]? =
    if other = fileId then some candidate else if evicted.map Prod.fst = some other then none else before.handles[other]?

theorem Stored.left {before after : HandleCacheInner} {evicted : Option (Nat × Option Handle)} {gone : Nat}
    (stored : Stored capacity fileId before after candidate evicted) (there : gone ∈ before.handles)
    (left : gone ∉ after.handles) :
    before.handles.size = capacity ∧ before.insertionOrder.head? = some gone ∧ fileId ∉ before.handles := by
  rw [Std.ExtTreeMap.mem_iff_isSome_getElem?] at there left
  have missing : fileId ∉ before.handles := by
    rw [Std.ExtTreeMap.mem_iff_isSome_getElem?,stored.missing]
    simp
  rw [stored.handles] at left
  split at left
  · exact absurd rfl left
  · split at left
    · rename_i popped
      obtain ⟨full,oldest,-⟩ := stored.oldest gone popped
      exact ⟨full,oldest,missing⟩
    · exact absurd there left

theorem Represents.stored {inner : HandleCacheInner} {cache : FifoCache Nat Handle capacity}
    (represents : Represents inner cache) (positive : 0 < capacity) (missing : cache.lookup fileId = none) :
    ∃ evicted after, inner.insertOrGet capacity fileId candidate = .ok (.stored evicted,after) ∧
      Represents after (cache.insertOrGet fileId candidate) ∧
      Stored capacity fileId inner after candidate evicted := by
  obtain ⟨after,stored,later⟩ := @represents.store _ _ candidate _ _ positive missing
  have popped : (cache.victim.map (fun oldest => (oldest,cache.lookup oldest))).map Prod.fst = cache.victim := by
    rw [Option.map_map]
    exact congrFun Option.map_id cache.victim
  refine ⟨_,after,stored,later,?_,?_,?_⟩
  · rw [represents.handles,missing]
  · intro gone chosen
    rw [popped] at chosen
    refine ⟨?_,?_,represents.cached.mpr (FifoCache.victim_mem chosen)⟩
    · rw [represents.size]
      by_contra room
      rw [FifoCache.victim,if_neg room] at chosen
      cases chosen
    · rw [FifoCache.victim] at chosen
      split at chosen
      · rw [represents.order,List.head?_reverse,chosen]
      · cases chosen
  · intro other
    rw [later.handles,FifoCache.lookup_store positive missing,popped,represents.handles]

-- The three ways out of `insert_or_get`, none of them an error.
theorem CacheKept.insertOrGet (kept : CacheKept capacity readCache past) (fileId : Nat) (candidate : Handle) :
    ∃ inserted after, readCache.insertOrGet fileId candidate = .ok (inserted,after) ∧
      CacheKept capacity after (.insertOrGet fileId candidate inserted :: past) ∧
      ((inserted = .uncached ∧ capacity = 0 ∧ after = readCache) ∨
        (∃ existing, inserted = .existing existing ∧ heldBy past fileId = some existing ∧ after = readCache) ∨
        ∃ evicted, inserted = .stored evicted ∧
          Stored capacity fileId readCache.inner.value after.inner.value candidate evicted) := by
  obtain ⟨cache,represents,aged⟩ := kept.represents
  rw [ReadHandleCache.insertOrGet,kept.sameCapacity]
  by_cases nothing : capacity = 0
  · refine ⟨.uncached,readCache,if_pos nothing,?_,.inl ⟨rfl,nothing,rfl⟩⟩
    exact kept.note rfl (fun _ _ => rfl) nothing
  · have positive : 0 < capacity := Nat.pos_of_ne_zero nothing
    rw [if_neg nothing,kept.writeLock,ok_bind]
    cases looked : cache.lookup fileId with
    | some existing =>
      have held : heldBy past fileId = some existing := by
        rw [← kept.held,represents.handles,looked]
      refine ⟨.existing existing,readCache,?_,?_,.inr (.inl ⟨existing,rfl,held,rfl⟩)⟩
      · rw [represents.found looked]
        rfl
      · exact kept.note rfl (fun _ _ => rfl) held
    | none =>
      obtain ⟨evicted,after,stored,later,changes⟩ := @represents.stored _ _ candidate _ _ positive looked
      refine ⟨.stored evicted,readCache.withInner after,?_,?_,.inr (.inr ⟨evicted,rfl,changes⟩)⟩
      · rw [stored]
        rfl
      · refine ⟨kept.sameCapacity,kept.unlocked,⟨_,later,?_⟩,?_,?_,kept.explained⟩
        · apply aged.store positive looked
          · exact if_pos rfl
          · intro other differs
            refine if_neg ?_
            intro same
            exact differs (Option.some.inj same).symm
        · intro other
          rw [heldBy,CacheEvent.heldAfter,← kept.held]
          exact changes.handles other
        · exact (kept.held fileId).symm.trans changes.missing

-- `insertion_order` against the cached ids, and how many they are.
structure QueueExact (readCache : ReadHandleCache) (past : List CacheEvent) : Prop where
  once : readCache.inner.value.insertionOrder.Nodup
  cached : ∀ fileId, fileId ∈ readCache.inner.value.insertionOrder ↔ fileId ∈ readCache.inner.value.handles
  oldestFirst : readCache.inner.value.insertionOrder.Pairwise
    (fun older newer => storedAgo past newer < storedAgo past older)
  bounded : readCache.inner.value.handles.size ≤ readCache.capacity

theorem CacheKept.queue {capacity : Nat} {readCache : ReadHandleCache} (kept : CacheKept capacity readCache past) :
    QueueExact readCache past := by
  obtain ⟨cache,represents,aged⟩ := kept.represents
  refine ⟨?_,fun _ => represents.listed,?_,?_⟩
  · rw [represents.order,List.nodup_reverse]
    exact cache.keys_nodup
  · rw [represents.order,List.pairwise_reverse]
    exact aged
  · rw [kept.sameCapacity,represents.size]
    exact cache.bounded

end caches

section machine
variable {start : FileSet} {past : List CacheEvent} {event : CacheEvent} {fileId : Nat} {handle : Handle}

-- An identity the catalog gives out was there from the start or was registered.
def Known (start : FileSet) (past : List CacheEvent) (fileId : Nat) (identity : FileIdentity) : Prop :=
  start.catalog.entries.value[fileId]? = some identity ∨ .registered fileId identity ∈ past

def Opened (past : List CacheEvent) (fileId : Nat) (handle : Handle) : Prop :=
  ∃ expected file, .opened handle fileId expected file ∈ past

-- What a call has in hand is known to the past.
def PhaseKept (start : FileSet) (past : List CacheEvent) : Phase → Prop
  | .hit fileId expected => Known start past fileId expected
  | .openReadHandle fileId expected _ => Known start past fileId expected
  | .clearForOpen fileId expected _ => Known start past fileId expected
  | .validateCandidate fileId expected => Known start past fileId expected
  | .insertOrGet fileId candidate => Opened past fileId candidate
  | .returned fileId handle => ∃ event ∈ past, event.answer = some (fileId,handle)
  | _ => True

theorem Known.later {identity : FileIdentity} (known : Known start past fileId identity) :
    Known start (event :: past) fileId identity := known.imp_right (List.mem_cons_of_mem _)

theorem Opened.later (opened : Opened past fileId handle) : Opened (event :: past) fileId handle := by
  obtain ⟨expected,file,member⟩ := opened
  exact ⟨expected,file,List.mem_cons_of_mem _ member⟩

theorem PhaseKept.later {phase : Phase} (kept : PhaseKept start past phase) : PhaseKept start (event :: past) phase := by
  cases phase with
  | hit fileId expected => exact Known.later kept
  | openReadHandle fileId expected attempt => exact Known.later kept
  | clearForOpen fileId expected attempt => exact Known.later kept
  | validateCandidate fileId expected => exact Known.later kept
  | insertOrGet fileId candidate => exact Opened.later kept
  | returned fileId handle =>
    obtain ⟨answering,member,answered⟩ := kept
    exact ⟨answering,List.mem_cons_of_mem _ member,answered⟩
  | identity => trivial
  | evict => trivial
  | clear => trivial
  | register => trivial
  | unregister => trivial
  | finished => trivial
  | failed => trivial

theorem openReadHandle_kept {expected : FileIdentity} (known : Known start past fileId expected)
    (refused : Option IoError) (attempt : OpenAttempt) :
    PhaseKept start past (Shared.openReadHandle refused fileId expected attempt) := by
  unfold Shared.openReadHandle
  split
  · exact known
  · split
    · exact known
    · exact known
    · trivial

-- A catalog changes at the id it is asked to change and nowhere else.
theorem FileCatalog.register_entries {catalog after : FileCatalog} {metadata : Except IoError Metadata}
    {identity : FileIdentity} (registered : catalog.register fileId metadata = .ok (identity,after)) (other : Nat) :
    after.entries.value[other]? = if other = fileId then some identity else catalog.entries.value[other]? := by
  simp only [FileCatalog.register,bind_ok,exists_unit,rejectIf_ok,pure_ok,Except.ok.injEq,Prod.mk.injEq] at registered
  obtain ⟨-,metadata,-,-,entries,locked,-,rfl,rfl⟩ := registered
  unfold RwLock.writeLock at locked
  split at locked
  · cases locked
  · cases locked
    rw [Std.ExtTreeMap.getElem?_insert]
    simp only [Std.LawfulEqCmp.compare_eq_iff_eq]
    simp only [eq_comm]

theorem FileCatalog.unregister_entries {catalog after : FileCatalog}
    (unregistered : catalog.unregister fileId = .ok after) (other : Nat) :
    after.entries.value[other]? = if other = fileId then none else catalog.entries.value[other]? := by
  simp only [FileCatalog.unregister,bind_ok,pure_ok,Except.ok.injEq] at unregistered
  obtain ⟨entries,locked,rfl⟩ := unregistered
  unfold RwLock.writeLock at locked
  split at locked
  · cases locked
  · cases locked
    rw [Std.ExtTreeMap.getElem?_erase]
    simp only [Std.LawfulEqCmp.compare_eq_iff_eq]
    simp only [eq_comm]

variable [Crc32c] {s : Shared}

structure OpenedKept (start : FileSet) (made : Nat) (past : List CacheEvent) : Prop where
  valid : ∀ handle fileId expected file, .opened handle fileId expected file ∈ past →
    handle < made ∧ Known start past fileId expected ∧ start.validateCandidate fileId expected file = .ok ()
  once : ∀ handle one other, Opened past one handle → Opened past other handle → one = other
  answered : ∀ event ∈ past, ∀ fileId handle, event.answer = some (fileId,handle) → Opened past fileId handle

structure Kept (start : FileSet) (s : Shared) : Prop where
  databaseUuid : s.files.databaseUuid = start.databaseUuid
  geometry : s.files.geometry = start.geometry
  cache : CacheKept start.readCache.capacity s.files.readCache s.past
  opens : OpenedKept start s.made s.past
  catalog : ∀ fileId identity, s.files.catalog.entries.value[fileId]? = some identity →
    Known start s.past fileId identity

-- An event that opens nothing and answers with what was opened.
theorem OpenedKept.note {made : Nat} (kept : OpenedKept start made past)
    (other : ∀ handle fileId expected file, event ≠ .opened handle fileId expected file)
    (answers : ∀ fileId handle, event.answer = some (fileId,handle) → Opened past fileId handle) :
    OpenedKept start made (event :: past) := by
  have earlier : ∀ {fileId handle}, Opened (event :: past) fileId handle → Opened past fileId handle := by
    intro fileId handle opened
    obtain ⟨expected,file,member⟩ := opened
    rcases List.mem_cons.mp member with now | before
    · exact absurd now.symm (other handle fileId expected file)
    · exact ⟨expected,file,before⟩
  refine ⟨?_,?_,?_⟩
  · intro handle fileId expected file member
    rcases List.mem_cons.mp member with now | before
    · exact absurd now.symm (other handle fileId expected file)
    · obtain ⟨below,known,valid⟩ := kept.valid handle fileId expected file before
      exact ⟨below,known.later,valid⟩
  · intro handle one two first second
    exact kept.once handle one two (earlier first) (earlier second)
  · intro answering member fileId handle answered
    rcases List.mem_cons.mp member with rfl | before
    · exact (answers fileId handle answered).later
    · exact (kept.answered answering before fileId handle answered).later

-- A new handle has a number of its own.
theorem OpenedKept.open {made : Nat} {expected : FileIdentity} {file : OpenedFile} (kept : OpenedKept start made past)
    (known : Known start past fileId expected) (valid : start.validateCandidate fileId expected file = .ok ()) :
    OpenedKept start (made + 1) (.opened made fileId expected file :: past) := by
  have split : ∀ {other handle}, Opened (.opened made fileId expected file :: past) other handle →
      (handle = made ∧ other = fileId) ∨ (handle < made ∧ Opened past other handle) := by
    intro other handle opened
    obtain ⟨identity,contents,member⟩ := opened
    rcases List.mem_cons.mp member with now | before
    · cases now
      exact .inl ⟨rfl,rfl⟩
    · exact .inr ⟨(kept.valid handle other identity contents before).1,identity,contents,before⟩
  refine ⟨?_,?_,?_⟩
  · intro handle other identity contents member
    rcases List.mem_cons.mp member with now | before
    · cases now
      exact ⟨Nat.lt_succ_self made,known.later,valid⟩
    · obtain ⟨below,known,valid⟩ := kept.valid handle other identity contents before
      exact ⟨Nat.lt_succ_of_lt below,known.later,valid⟩
  · intro handle one two first second
    obtain ⟨new,rfl⟩ | ⟨old,first⟩ := split first
    · obtain ⟨-,rfl⟩ | ⟨old,-⟩ := split second
      · rfl
      · exact absurd new (Nat.ne_of_lt old)
    · obtain ⟨new,-⟩ | ⟨-,second⟩ := split second
      · exact absurd new (Nat.ne_of_lt old)
      · exact kept.once handle one two first second
  · intro answering member other handle answered
    rcases List.mem_cons.mp member with rfl | before
    · cases answered
    · exact (kept.answered answering before other handle answered).later

theorem Kept.held (kept : Kept start s) (held : heldBy s.past fileId = some handle) : Opened s.past fileId handle := by
  obtain ⟨answering,member,answered⟩ := heldBy_answered held
  exact kept.opens.answered answering member fileId handle answered

-- One step keeps everything, and what other calls have in hand.
structure Moved (start : FileSet) (s : Shared) (next : Shared × Phase) : Prop where
  shared : Kept start next.1
  phase : PhaseKept start next.1.past next.2
  others : ∀ phase, PhaseKept start s.past phase → PhaseKept start next.1.past phase

theorem Moved.same (kept : Kept start s) {phase : Phase} (held : PhaseKept start s.past phase) :
    Moved start s (s,phase) := ⟨kept,held,fun _ other => other⟩

-- A step that notes one event about the cache.
theorem Moved.cached (kept : Kept start s) {readCache : ReadHandleCache} {phase : Phase}
    (cache : CacheKept start.readCache.capacity readCache (event :: s.past))
    (other : ∀ handle fileId expected file, event ≠ .opened handle fileId expected file)
    (answers : ∀ fileId handle, event.answer = some (fileId,handle) → Opened s.past fileId handle)
    (held : PhaseKept start (event :: s.past) phase) : Moved start s ((s.withCache readCache).note event,phase) :=
  ⟨⟨kept.databaseUuid,kept.geometry,cache,kept.opens.note other answers,
      fun fileId identity found => (kept.catalog fileId identity found).later⟩,held,fun _ earlier => earlier.later⟩

theorem identity_moved (kept : Kept start s) (fileId : Nat) : Moved start s (s.identity fileId) := by
  unfold Shared.identity
  split
  · exact .same kept trivial
  · rename_i expected found
    refine .same kept (kept.catalog fileId expected ?_)
    unfold FileCatalog.identity RwLock.readLock at found
    split at found
    · cases found
    · exact orError_ok.mp found

theorem hit_moved (kept : Kept start s) {expected : FileIdentity} (known : Known start s.past fileId expected) :
    Moved start s (s.hit fileId expected) := by
  have cache : CacheKept start.readCache.capacity s.files.readCache (.hit fileId (heldBy s.past fileId) :: s.past) :=
    kept.cache.note rfl (fun _ _ => rfl) rfl
  unfold Shared.hit
  rw [kept.cache.hit fileId]
  cases held : heldBy s.past fileId with
  | none =>
    rw [held] at cache
    exact .cached kept cache (fun _ _ _ _ same => by cases same) (fun _ _ none => by cases none) known.later
  | some handle =>
    rw [held] at cache
    refine .cached kept cache (fun _ _ _ _ same => by cases same) ?_ ⟨_,List.mem_cons_self,rfl⟩
    intro other answer answered
    cases answered
    exact kept.held held

theorem clear_moved (kept : Kept start s) {next : Phase} (held : PhaseKept start s.past next) :
    Moved start s (s.clear next) := by
  obtain ⟨cleared,done,cache⟩ := kept.cache.clear
  unfold Shared.clear
  rw [done]
  exact .cached kept cache (fun _ _ _ _ same => by cases same) (fun _ _ none => by cases none) held.later

theorem evict_moved (kept : Kept start s) (fileId : Nat) : Moved start s (s.evict fileId) := by
  obtain ⟨removed,done,cache⟩ := kept.cache.remove fileId
  unfold Shared.evict
  rw [done]
  exact .cached kept cache (fun _ _ _ _ same => by cases same) (fun _ _ none => by cases none) trivial

theorem insertOrGet_moved (kept : Kept start s) {candidate : Handle} (opened : Opened s.past fileId candidate) :
    Moved start s (s.insertOrGet fileId candidate) := by
  obtain ⟨inserted,after,done,cache,ways⟩ := kept.cache.insertOrGet fileId candidate
  unfold Shared.insertOrGet
  rw [done]
  refine .cached kept cache (fun _ _ _ _ same => by cases same) ?_ ⟨_,List.mem_cons_self,rfl⟩
  intro other handle answered
  cases answered
  obtain ⟨rfl,-⟩ | ⟨existing,rfl,held,-⟩ | ⟨evicted,rfl,-⟩ := ways
  · exact opened
  · exact kept.held held
  · exact opened

theorem validateCandidate_moved (kept : Kept start s) (file : OpenedFile) {expected : FileIdentity}
    (known : Known start s.past fileId expected) : Moved start s (s.validateCandidate file fileId expected) := by
  have settings : s.files.validateCandidate fileId expected file = start.validateCandidate fileId expected file := by
    rw [FileSet.validateCandidate,FileSet.validateCandidate,kept.databaseUuid,kept.geometry]
  unfold Shared.validateCandidate
  rw [settings]
  split
  · exact .same kept trivial
  · rename_i valid
    refine ⟨⟨kept.databaseUuid,kept.geometry,?_,kept.opens.open known valid,?_⟩,?_,?_⟩
    · exact kept.cache.note rfl (fun _ _ => rfl) trivial
    · intro other identity found
      exact (kept.catalog other identity found).later
    · exact ⟨expected,file,List.mem_cons_self⟩
    · intro phase held
      exact held.later

theorem register_moved (kept : Kept start s) (file : OpenedFile) (fileId : Nat) :
    Moved start s (s.register file fileId) := by
  unfold Shared.register
  split
  · exact .same kept trivial
  · rename_i registered done
    obtain ⟨identity,after⟩ := registered
    refine ⟨⟨kept.databaseUuid,kept.geometry,?_,?_,?_⟩,trivial,fun _ held => held.later⟩
    · exact kept.cache.note rfl (fun _ _ => rfl) trivial
    · exact kept.opens.note (fun _ _ _ _ same => by cases same) (fun _ _ none => by cases none)
    · intro other current found
      have changed : after.entries.value[other]? = some current := found
      rw [FileCatalog.register_entries done other] at changed
      split at changed
      · rename_i same
        cases changed
        rw [same]
        exact .inr List.mem_cons_self
      · exact (kept.catalog other current changed).later

theorem unregister_moved (kept : Kept start s) (fileId : Nat) : Moved start s (s.unregister fileId) := by
  unfold Shared.unregister
  split
  · exact .same kept trivial
  · rename_i after done
    refine ⟨⟨kept.databaseUuid,kept.geometry,kept.cache,kept.opens,?_⟩,trivial,fun _ held => held⟩
    intro other current found
    have changed : after.entries.value[other]? = some current := found
    rw [FileCatalog.unregister_entries done other] at changed
    split at changed
    · cases changed
    · exact kept.catalog other current changed

theorem perform_moved (kept : Kept start s) (answer : Answer) {phase : Phase} (held : PhaseKept start s.past phase) :
    Moved start s (s.perform answer phase) := by
  cases phase with
  | identity fileId => exact identity_moved kept fileId
  | hit fileId expected => exact hit_moved kept held
  | openReadHandle fileId expected attempt => exact .same kept (openReadHandle_kept held answer.refused attempt)
  | clearForOpen fileId expected attempt => exact clear_moved kept held
  | validateCandidate fileId expected => exact validateCandidate_moved kept answer.file held
  | insertOrGet fileId candidate => exact insertOrGet_moved kept held
  | evict fileId => exact evict_moved kept fileId
  | clear => exact clear_moved kept trivial
  | register fileId => exact register_moved kept answer.file fileId
  | unregister fileId => exact unregister_moved kept fileId
  | returned fileId handle => exact .same kept held
  | finished => exact .same kept trivial
  | failed error => exact .same kept trivial

structure MachineKept (start : FileSet) (m : Machine) : Prop where
  shared : Kept start m.shared
  threads : ∀ t, PhaseKept start m.shared.past (m.threads t)

theorem MachineKept.moved {m : Machine} (kept : MachineKept start m) (t : Nat) {next : Shared × Phase}
    (moved : Moved start m.shared next) : MachineKept start (m.withThread t next) := by
  refine ⟨moved.shared,?_⟩
  intro u
  by_cases same : u = t
  · rw [same]
    simpa only [Machine.withThread,Function.update_self] using moved.phase
  · simpa only [Machine.withThread,Function.update_of_ne same] using moved.others _ (kept.threads u)

theorem MachineKept.step {m after : Machine} (kept : MachineKept start m) (step : m.Step after) :
    MachineKept start after := by
  cases step with
  | @call t call ended =>
    apply kept.moved
    apply Moved.same kept.shared
    cases call <;> trivial
  | @act t answer => exact kept.moved t (perform_moved kept.shared answer (kept.threads t))

theorem MachineKept.runs {m after : Machine} (kept : MachineKept start m) (runs : m.Runs after) :
    MachineKept start after := by
  induction runs with
  | refl => exact kept
  | tail _ step ih => exact ih.step step

-- What `insert_or_get` hands on is cached from then on, and it is what was cached before.
theorem Kept.inserts (kept : Kept start s) (positive : 0 < start.readCache.capacity) (candidate : Handle) :
    ∃ handle, (s.insertOrGet fileId candidate).2 = .returned fileId handle ∧
      heldBy (s.insertOrGet fileId candidate).1.past fileId = some handle ∧
      ∀ existing, heldBy s.past fileId = some existing → handle = existing := by
  obtain ⟨inserted,after,done,cache,ways⟩ := kept.cache.insertOrGet fileId candidate
  have next : s.insertOrGet fileId candidate =
      ((s.withCache after).note (.insertOrGet fileId candidate inserted),
        .returned fileId (inserted.handle candidate)) := by
    rw [Shared.insertOrGet,done]
  rw [next]
  refine ⟨inserted.handle candidate,rfl,cache.explained.answered positive rfl,?_⟩
  intro existing held
  obtain ⟨-,nothing,-⟩ | ⟨found,rfl,same,-⟩ | ⟨evicted,-,stored⟩ := ways
  · omega
  · rw [held] at same
    exact (Option.some.inj same).symm
  · have missing := (kept.cache.held fileId).symm.trans stored.missing
    rw [held] at missing
    cases missing

-- Two threads that have both missed an id and opened a candidate each.
theorem MachineKept.misses {m : Machine} (kept : MachineKept start m) (positive : 0 < start.readCache.capacity)
    {t u : Nat} (differ : t ≠ u) {left right : Handle} (first : m.threads t = .insertOrGet fileId left)
    (second : m.threads u = .insertOrGet fileId right) (one other : Answer) :
    ∃ handle, ((m.act t one).act u other).threads t = .returned fileId handle ∧
      ((m.act t one).act u other).threads u = .returned fileId handle ∧
      ((m.act t one).act u other).shared.files.readCache.inner.value.handles[fileId]? = some handle ∧
      ((m.act t one).act u other).shared.files.readCache.inner.value.insertionOrder.count fileId = 1 := by
  have middle : MachineKept start (m.act t one) := kept.step .act
  have last : MachineKept start ((m.act t one).act u other) := middle.step .act
  have waits : (m.act t one).threads u = .insertOrGet fileId right := (m.act_other one differ.symm).trans second
  have ahead : m.shared.perform one (m.threads t) = m.shared.insertOrGet fileId left := by
    rw [first]
    rfl
  have behind : (m.act t one).shared.perform other ((m.act t one).threads u) =
      (m.act t one).shared.insertOrGet fileId right := by
    rw [waits]
    rfl
  obtain ⟨handle,returned,holds,-⟩ := @Kept.inserts start fileId _ _ kept.shared positive left
  obtain ⟨again,answered,held,same⟩ := @Kept.inserts start fileId _ _ middle.shared positive right
  have before : heldBy (m.act t one).shared.past fileId = some handle := by
    rw [Machine.act_shared,ahead]
    exact holds
  obtain rfl := same handle before
  have there : ((m.act t one).act u other).shared.files.readCache.inner.value.handles[fileId]? = some again := by
    rw [last.shared.cache.held,Machine.act_shared,behind]
    exact held
  refine ⟨again,?_,?_,there,?_⟩
  · rw [Machine.act_other _ _ differ,Machine.act_self,ahead,returned]
  · rw [Machine.act_self,behind,answered]
  · have queue := last.shared.cache.queue
    refine List.count_eq_one_of_mem queue.once ((queue.cached fileId).mpr ?_)
    rw [Std.ExtTreeMap.mem_iff_isSome_getElem?,there]
    rfl

-- A handle that was opened reads what the reader reads, as long as the file keeps the bytes it showed.
theorem MachineKept.reads {m : Machine} (kept : MachineKept start m) {reader : ExpirKv.FileSet}
    {expected : FileIdentity} {file : OpenedFile} {metadata : Metadata} {bytes : Bytes}
    (opened : .opened handle fileId expected file ∈ m.shared.past) (databaseUuid : reader.databaseUuid = start.databaseUuid)
    (geometry : reader.geometry = start.geometry) (catalogued : fileId ∈ reader.catalog)
    (stored : reader.files[fileId]? = some bytes) (long : 64 ≤ bytes.length) (shown : file.metadata = .ok metadata)
    (sized : metadata.len = bytes.length) (shows : file.Shows bytes) : reader.handle fileId = .ok bytes := by
  obtain ⟨-,-,valid⟩ := kept.shared.opens.valid handle fileId expected file opened
  have accepted := FileSet.validateCandidate_shows databaseUuid geometry shown sized shows long valid
  exact ExpirKv.FileSet.handle_ok.mpr ⟨catalogued,stored,accepted⟩

theorem FileSet.new_kept {databaseUuid : Uuid} {geometry : VLogGeometry} {catalog : FileCatalog} {capacity : Nat}
    (built : FileSet.new databaseUuid geometry catalog capacity = .ok start) :
    start.readCache = .new capacity ∧ MachineKept start (.new start) := by
  simp only [FileSet.new,bind_ok,exists_unit,rejectIf_ok,pure_ok,Except.ok.injEq] at built
  obtain ⟨-,planner,-,rfl⟩ := built
  refine ⟨rfl,⟨rfl,rfl,.fresh,⟨?_,?_,?_⟩,fun _ _ => .inl⟩,fun _ => trivial⟩
  · intro handle fileId expected file member
    cases member
  · intro handle one other opened
    obtain ⟨expected,file,member⟩ := opened
    cases member
  · intro event member
    cases member

theorem handle_cache_exact {databaseUuid : Uuid} {geometry : VLogGeometry} {catalog : FileCatalog} {capacity : Nat}
    {start : FileSet} {m : Machine} (built : FileSet.new databaseUuid geometry catalog capacity = .ok start)
    (reached : (Machine.new start).Runs m) :
    (m.shared.files.readCache.capacity = capacity ∧ QueueExact m.shared.files.readCache m.shared.past) ∧
    (∀ fileId candidate, ∃ inserted after, m.shared.files.readCache.insertOrGet fileId candidate = .ok (inserted,after) ∧
      ∀ gone ∈ m.shared.files.readCache.inner.value.handles, gone ∉ after.inner.value.handles →
        m.shared.files.readCache.inner.value.handles.size = capacity ∧
        m.shared.files.readCache.inner.value.insertionOrder.head? = some gone ∧
        fileId ∉ m.shared.files.readCache.inner.value.handles) ∧
    (0 < capacity → ∀ t u fileId left right, t ≠ u → m.threads t = .insertOrGet fileId left →
      m.threads u = .insertOrGet fileId right → ∀ one other, ∃ handle,
        ((m.act t one).act u other).threads t = .returned fileId handle ∧
        ((m.act t one).act u other).threads u = .returned fileId handle ∧
        ((m.act t one).act u other).shared.files.readCache.inner.value.handles[fileId]? = some handle ∧
        ((m.act t one).act u other).shared.files.readCache.inner.value.insertionOrder.count fileId = 1) ∧
    (0 < capacity → ∀ newer event older fileId handle, m.shared.past = newer ++ event :: older →
      event.answer = some (fileId,handle) → (∀ next ∈ newer, ¬next.Departs fileId) →
        m.shared.files.readCache.inner.value.handles[fileId]? = some handle ∧
        ∀ next ∈ newer, next ≠ .hit fileId none ∧ ∀ again, next.answer = some (fileId,again) → again = handle) ∧
    (∀ t fileId handle, m.threads t = .returned fileId handle →
      ∃ event ∈ m.shared.past, event.answer = some (fileId,handle)) ∧
    (∀ event ∈ m.shared.past, ∀ fileId handle, event.answer = some (fileId,handle) →
      (∃ expected file, .opened handle fileId expected file ∈ m.shared.past ∧
        Known start m.shared.past fileId expected ∧ start.validateCandidate fileId expected file = .ok ()) ∧
      ∀ other, Opened m.shared.past other handle → other = fileId) := by
  obtain ⟨fresh,begun⟩ := FileSet.new_kept built
  have kept := begun.runs reached
  have sameCapacity : start.readCache.capacity = capacity := by
    rw [fresh]
    rfl
  have cache : CacheKept capacity m.shared.files.readCache m.shared.past := sameCapacity ▸ kept.shared.cache
  refine ⟨⟨cache.sameCapacity,cache.queue⟩,?_,?_,?_,?_,?_⟩
  · intro fileId candidate
    obtain ⟨inserted,after,done,-,ways⟩ := cache.insertOrGet fileId candidate
    refine ⟨inserted,after,done,?_⟩
    intro gone there left
    obtain ⟨-,-,rfl⟩ | ⟨existing,-,-,rfl⟩ | ⟨evicted,-,stored⟩ := ways
    · exact absurd there left
    · exact absurd there left
    · exact stored.left there left
  · intro positive t u fileId left right differ first second
    exact kept.misses (sameCapacity ▸ positive) differ first second
  · intro positive newer event older fileId handle history answered stays
    have explained := cache.explained
    rw [history] at explained
    have held := explained.until positive answered stays
    rw [← history,← cache.held] at held
    exact held
  · intro t fileId handle returned
    have phase := kept.threads t
    rw [returned] at phase
    exact phase
  · intro event member fileId handle answered
    obtain ⟨expected,file,opened⟩ := kept.shared.opens.answered event member fileId handle answered
    obtain ⟨-,known,valid⟩ := kept.shared.opens.valid handle fileId expected file opened
    refine ⟨⟨expected,file,opened,known,valid⟩,?_⟩
    intro other twice
    exact kept.shared.opens.once handle other fileId twice ⟨expected,file,opened⟩

end machine

-- Two threads miss one file before either of them has stored a handle.
theorem handle_cache_exact_double_miss :
    let database : Uuid := ⟨List.replicate 16 1,rfl⟩
    let catalog : FileCatalog := ⟨.new ((∅ : Std.ExtTreeMap Nat FileIdentity compare).insert 0 ⟨1,2⟩)⟩
    ∃ start m, FileSet.new database .production catalog 1 = .ok start ∧
      @Machine.Runs castagnoli (.new start) m ∧ m.threads 0 = .returned 0 1 ∧ m.threads 1 = .returned 0 1 ∧
      QueueExact m.shared.files.readCache m.shared.past ∧
      ∃ expected opened, .opened 1 0 expected opened ∈ m.shared.past ∧
        @FileSet.validateCandidate castagnoli start 0 expected opened = .ok () := by
  intro database catalog
  let header := (@VLogFileHeader.encode castagnoli (.new database 0)).toOption.getD []
  let file : OpenedFile :=
    ⟨.ok ⟨true,⟨1,2⟩,65536⟩,⟨fun _ => .ok 48,0,fun _ => 0⟩,fun _ place => header[place - 16]?.getD 0⟩
  let start : FileSet := ⟨database,.production,catalog,.new 1⟩
  let turn := fun t => Machine.Turn.act t ⟨none,file⟩
  let schedule := [.call 0 (.handle 0),.call 1 (.handle 0),turn 0,turn 0,turn 1,turn 1,turn 0,turn 0,turn 1,turn 1,
    turn 1,turn 0]
  have checked : (@Machine.play castagnoli (.new start) schedule).any (fun m =>
      decide (m.threads 0 = .returned 0 1) && decide (m.threads 1 = .returned 0 1)) = true := by
    decide +kernel
  cases played : @Machine.play castagnoli (.new start) schedule with
  | none =>
    rw [played] at checked
    cases checked
  | some m =>
    rw [played] at checked
    simp only [Option.any_some,Bool.and_eq_true,decide_eq_true_eq] at checked
    obtain ⟨first,second⟩ := checked
    have built : FileSet.new database .production catalog 1 = .ok start := rfl
    have runs := @Machine.play_runs castagnoli _ _ _ played
    obtain ⟨⟨-,queue⟩,-,-,-,answers,sources⟩ := @handle_cache_exact castagnoli _ _ _ _ _ _ built runs
    obtain ⟨event,member,answered⟩ := answers 0 0 1 first
    obtain ⟨⟨expected,opened,here,-,valid⟩,-⟩ := sources event member 0 1 answered
    exact ⟨start,m,built,runs,first,second,queue,expected,opened,here,valid⟩

end HandleCaching

end ExpirKv
