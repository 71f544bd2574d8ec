import ExpirKv.Lifecycle.InitializeRuns
import ExpirKv.Lifecycle.Removal

namespace ExpirKv
open RootLock

section locking
variable {before after disk : Disk}

-- The lock file may have come, nothing else changed.
structure Locked (before after : Disk) : Prop where
  present : after.present = before.present
  root : after.root = before.root ∨
    before.root lockFileName = none ∧ after.root = Function.update before.root lockFileName (some (.file []))
  calls : Steady before.calls after.calls

theorem Locked.refl (disk : Disk) : Locked disk disk := ⟨rfl,.inl rfl,.refl _⟩

theorem Locked.answered (locked : Locked before after) {calls : Calls} (steady : Steady after.calls calls) :
    Locked before {after with calls} :=
  ⟨locked.present,locked.root,locked.calls.trans steady⟩

theorem Locked.elsewhere (locked : Locked before after) {name : String} (other : name ≠ lockFileName) :
    after.root name = before.root name := by
  rcases locked.root with same | ⟨-,made⟩
  · rw [same]
  · rw [made,Function.update_of_ne other]

-- The entry of the lock is a regular file or missing.
def Lockable (disk : Disk) : Prop :=
  disk.root lockFileName = none ∨ ∃ contents, disk.root lockFileName = some (.file contents)

theorem Locked.lockable (locked : Locked before after) (lockable : Lockable before) : Lockable after := by
  rcases locked.root with same | ⟨-,made⟩
  · rw [Lockable,same]
    exact lockable
  · exact .inr ⟨[],by rw [made,Function.update_self]⟩

theorem Locked.request {post : Unit → Disk → Prop} (locked : Locked before disk)
    (next : ∀ after, Locked before after → after.root = disk.root → post () after) :
    Delivers request disk post (fun _ after => Locked before after ∧ before.calls.script ≠ []) := by
  refine delivers_request ?_ ?_
  · intro calls steady
    exact next _ (locked.answered steady) rfl
  · intro error calls steady failed
    exact ⟨locked.answered steady,fun fine => failed (locked.calls.fine fine)⟩

theorem openAndLockFile_locks (locked : Locked before disk) (lockable : Lockable before) (same : disk.root = before.root) :
    Delivers openAndLockFile disk (fun _ after => Locked before after)
      (fun _ after => Locked before after ∧ before.calls.script ≠ []) := by
  rw [openAndLockFile,delivers_bind]
  refine locked.request ?_
  intro disk locked still
  rw [delivers_bind,delivers_get,still,same]
  rcases lockable with missing | ⟨contents,there⟩
  · simp only [missing,delivers_bind,RootLock.perform]
    refine locked.request ?_
    intro disk locked again
    rw [delivers_modify]
    have made : Locked before (disk.set lockFileName (some (.file []))) :=
      ⟨locked.present,.inr ⟨missing,by rw [Disk.set,again,still,same]⟩,locked.calls⟩
    exact made.request fun after locked _ => locked
  · simp only [there,delivers_bind]
    refine locked.request ?_
    intro disk locked _
    exact locked.request fun after locked _ => locked

theorem acquire_locks (present : disk.present = true) (lockable : Lockable disk) :
    Delivers (acquire false) disk (fun held after => held = true ∧ Locked disk after)
      (fun _ after => Locked disk after ∧ disk.calls.script ≠ []) := by
  rw [acquire,delivers_bind]
  refine (Locked.refl disk).request ?_
  intro now locked same
  have there : now.present = true := locked.present.trans present
  simp only [delivers_bind,delivers_get,there,Bool.true_eq_false,false_and,if_false,delivers_pure]
  refine locked.request ?_
  intro now locked again
  exact (openAndLockFile_locks locked lockable (again.trans same)).mono (fun _ _ locked => ⟨trivial,locked⟩)
    (fun _ _ no => no)

end locking

section runs
variable [Crc32c] {fjall : Fjall} {first now start disk after : Disk} {root : String → Option Node}

-- Where runs of Destroy leave a root: the managed entries as one of them may leave them, everything else but the lock
-- as it was.
structure Doomed (fjall : Fjall) (first now : Disk) : Prop where
  present : now.present = true
  lockable : Lockable now
  layout : Remains fjall (first.root indexDirectoryName) (now.root formatFileName) (now.root formatTempFileName)
    (now.root indexDirectoryName) (now.root vlogDirectoryName)
  index : Shrunk (first.root indexDirectoryName) (now.root indexDirectoryName)
  others : ∀ name, name ∉ managedNames → name ≠ lockFileName → now.root name = first.root name
  marker : now.root formatTempFileName = none ∨ now.root formatTempFileName = first.root formatTempFileName

def Gone (disk : Disk) : Prop := ∀ name ∈ managedNames, disk.root name = none

-- A run that failed: it says whether it removed anything, and without a failed call it found a layout it does not take.
structure Unfinished (fjall : Fjall) (first now : Disk) (error : DestroyError) (after : Disk) : Prop where
  doomed : Doomed fjall first after
  flag : error.failure.partiallyDeleted = true ↔ now.calls.removals < after.calls.removals
  reason : now.calls.script = [] → ¬Takeable fjall now
  untouched : ¬Takeable fjall now → after.calls.removals = now.calls.removals

omit [Crc32c] in
theorem lockFileName_unmanaged : lockFileName ∉ managedNames := by decide

omit [Crc32c] in
theorem Locked.managed (locked : Locked now start) :
    start.root formatFileName = now.root formatFileName ∧ start.root formatTempFileName = now.root formatTempFileName ∧
      start.root indexDirectoryName = now.root indexDirectoryName ∧
      start.root vlogDirectoryName = now.root vlogDirectoryName :=
  ⟨locked.elsewhere (by decide),locked.elsewhere (by decide),locked.elsewhere (by decide),locked.elsewhere (by decide)⟩

theorem Locked.takeable (locked : Locked now start) : Takeable fjall start ↔ Takeable fjall now := by
  obtain ⟨format,temporary,index,vlog⟩ := locked.managed
  rw [Takeable,format,temporary,index,vlog,Takeable]

theorem Doomed.locked (doomed : Doomed fjall first now) (locked : Locked now start) : Doomed fjall first start := by
  obtain ⟨format,temporary,index,vlog⟩ := locked.managed
  refine ⟨locked.present.trans doomed.present,locked.lockable doomed.lockable,?_,?_,?_,?_⟩
  · rw [format,temporary,index,vlog]
    exact doomed.layout
  · rw [index]
    exact doomed.index
  · intro name outside other
    exact (locked.elsewhere other).trans (doomed.others name outside other)
  · rw [temporary]
    exact doomed.marker

-- A root in the course of a run is where the next one may begin.
theorem Doomed.left (doomed : Doomed fjall first start) (ruin : Ruin start after root) (left : Left fjall start root) :
    Doomed fjall first after := by
  obtain ⟨layout,index,others,marker⟩ := left
  refine ⟨ruin.present.trans doomed.present,?_,?_,?_,?_,?_⟩
  · rw [Lockable,ruin.root,others _ lockFileName_unmanaged]
    exact doomed.lockable
  · rw [ruin.root]
    exact layout.since doomed.index
  · rw [ruin.root]
    exact doomed.index.trans index
  · intro name outside other
    rw [ruin.root,others name outside]
    exact doomed.others name outside other
  · rw [ruin.root]
    rcases marker with gone | same
    · exact .inl gone
    · rw [same]
      exact doomed.marker

theorem Doomed.reads (doomed : Doomed fjall first start) (reads : Reads start disk) : Doomed fjall first disk := by
  obtain ⟨present,lockable,layout,index,others,marker⟩ := doomed
  have there : disk.present = true := reads.present.trans present
  refine ⟨there,?_,?_,?_,?_,?_⟩
  · rwa [Lockable,reads.root]
  all_goals rwa [reads.root]

omit [Crc32c] in
theorem Cleared.gone (cleared : Cleared start after) : Gone after := by
  obtain ⟨root,ruin,shape⟩ := cleared
  intro name managed
  rw [ruin.root]
  simp only [managedNames,List.mem_cons,List.not_mem_nil,or_false] at managed
  rcases managed with rfl | rfl | rfl | rfl
  · exact shape.atFormat
  · exact shape.atTemporary
  · exact shape.atIndex
  · exact shape.atVlog

omit [Crc32c] in
theorem Tracked.flagged {before after : Calls} (tracked : Tracked before after) (unset : before.partiallyDeleted = false) :
    after.partiallyDeleted = true ↔ before.removals < after.removals := by
  rcases tracked with ⟨same,flag⟩ | ⟨more,flag⟩
  · rw [flag,unset,same]
    simp
  · exact ⟨fun _ => more,fun _ => flag⟩

omit [Crc32c] in
theorem Reads.ruin (reads : Reads start disk) : Ruin start disk start.root :=
  ⟨reads.present,reads.root,reads.calls.tracked,reads.calls.fine⟩

theorem Destroyable.bare {index vlog : Option Node} (takes : Destroyable fjall none none index vlog) :
    index = none ∧ vlog = none := by
  cases takes with
  | nothing => exact ⟨rfl,rfl⟩

omit [Crc32c] in
theorem missing_of {α : Type} {read : Option α} {node : Option Node} (same : read.isSome = node.isSome)
    (missing : read = none) : node = none := by
  rw [missing] at same
  cases node with
  | none => rfl
  | some _ => cases same

-- A cut in the removal.
theorem Doomed.cut {error : DestroyError} (doomed : Doomed fjall first start) (taken : Takeable fjall start)
    (unset : start.calls.partiallyDeleted = false) (cut : Cut fjall start error after) :
    Unfinished fjall first start error after := by
  obtain ⟨flag,failed,root,ruin,left⟩ := cut
  refine ⟨doomed.left ruin left,?_,fun fine => absurd fine failed,fun no => absurd taken no⟩
  rw [flag]
  exact ruin.tracked.flagged unset

-- A run behind its lock.
theorem Doomed.removes (doomed : Doomed fjall first start) (unset : start.calls.partiallyDeleted = false) :
    Delivers (do
      let inventory ← inventoryForDestroy fjall
      if inventory.format = none ∧ inventory.temporaryFormat = none then orDestroy .format .syncDirectory syncRoot
      else removeInventory inventory) start
      (fun _ after => Doomed fjall first after ∧ Gone after ∧ Takeable fjall start) (Unfinished fjall first start) := by
  rw [delivers_bind]
  refine (inventoryForDestroy_delivers unset).mono ?_ ?_
  · rintro inventory disk ⟨reads,inventoried⟩
    have taken : Takeable fjall start := inventoried.takes
    have ruin := reads.ruin
    have shape : Shape start start.root (start.root formatFileName) (start.root formatTempFileName)
        (start.root indexDirectoryName) (start.root vlogDirectoryName) := ⟨rfl,rfl,rfl,rfl,.same,fun _ _ => rfl,.inr rfl⟩
    have whole := shape.left (.takes taken)
    by_cases bare : inventory.format = none ∧ inventory.temporaryFormat = none
    · rw [if_pos bare]
      have format := missing_of inventoried.hasFormat bare.1
      have temporary := missing_of inventoried.hasTemporary bare.2
      rw [Takeable,format,temporary] at taken
      obtain ⟨index,vlog⟩ := taken.bare
      rw [format,temporary,index,vlog] at shape
      refine (reported (ruin.request whole ?_)).mono (fun _ _ holds => holds) fun error after cut =>
        doomed.cut inventoried.takes unset cut
      intro after ruin
      exact ⟨doomed.left ruin whole,Cleared.gone ⟨_,ruin,shape⟩,inventoried.takes⟩
    · rw [if_neg bare]
      refine (removeInventory_delivers ruin shape inventoried).mono ?_ fun error after cut => doomed.cut taken unset cut
      rintro _ after ⟨root,ruin,clear⟩
      exact ⟨doomed.left ruin (clear.left (.takes .nothing)),Cleared.gone ⟨root,ruin,clear⟩,taken⟩
  · rintro error disk ⟨reads,flag,reason⟩
    have kept : disk.calls.removals = start.calls.removals := reads.calls.removals
    refine ⟨doomed.reads reads,?_,
      fun fine taken => reason ⟨fine,taken⟩,fun _ => kept⟩
    rw [flag,kept]
    simp

theorem Unfinished.sooner {error : DestroyError} (unfinished : Unfinished fjall first start error after)
    (removals : start.calls.removals = now.calls.removals) (fine : now.calls.script = [] → start.calls.script = [])
    (same : Takeable fjall start ↔ Takeable fjall now) : Unfinished fjall first now error after := by
  obtain ⟨doomed,flag,reason,untouched⟩ := unfinished
  rw [removals] at flag untouched
  exact ⟨doomed,flag,fun quiet taken => reason (fine quiet) (same.mpr taken),
    fun no => untouched fun taken => no (same.mp taken)⟩

theorem destroyDatabase_delivers (doomed : Doomed fjall first now) :
    Delivers (destroyDatabase fjall) now (fun _ after => Doomed fjall first after ∧ Gone after ∧ Takeable fjall now)
      (Unfinished fjall first now) := by
  rw [destroyDatabase,delivers_bind,delivers_modify,delivers_bind,delivers_orDestroy]
  have begun : Doomed fjall first ⟨now.present,now.root,{now.calls with partiallyDeleted := false}⟩ :=
    ⟨doomed.present,doomed.lockable,doomed.layout,doomed.index,doomed.others,doomed.marker⟩
  refine (acquire_locks begun.present begun.lockable).mono ?_ ?_
  · rintro held start ⟨rfl,locked⟩
    rw [if_pos rfl]
    refine ((begun.locked locked).removes locked.calls.flag).mono
      (fun _ _ ⟨left,gone,takes⟩ => ⟨left,gone,locked.takeable.mp takes⟩) ?_
    intro error after unfinished
    exact unfinished.sooner locked.calls.removals locked.calls.fine locked.takeable
  · rintro error after ⟨locked,failed⟩
    have kept : after.calls.removals = now.calls.removals := locked.calls.removals
    refine ⟨begun.locked locked,?_,fun fine => absurd fine failed,fun _ => kept⟩
    have flag : after.calls.partiallyDeleted = false := locked.calls.flag
    rw [flag,kept]
    simp [destroyFailure]

-- A process that comes later meets other answers of the system.
def Disk.meets (disk : Disk) (script : List Answer) : Disk := {disk with calls := {disk.calls with script}}

-- Any number of runs, each cut wherever a call failed, or finished.
inductive Destructions (fjall : Fjall) (first : Disk) : Disk → Prop
  | none : Destructions fjall first first
  | cut {now after : Disk} {error : DestroyError} (script : List Answer) : Destructions fjall first now →
      destroyDatabase fjall (now.meets script) = .error error after → Destructions fjall first after
  | finished {now after : Disk} (script : List Answer) : Destructions fjall first now →
      destroyDatabase fjall (now.meets script) = .ok () after → Destructions fjall first after

theorem Doomed.meets (doomed : Doomed fjall first now) (script : List Answer) : Doomed fjall first (now.meets script) :=
  ⟨doomed.present,doomed.lockable,doomed.layout,doomed.index,doomed.others,doomed.marker⟩

theorem Destructions.doomed (present : first.present = true) (lockable : Lockable first) (taken : Takeable fjall first)
    (runs : Destructions fjall first now) : Doomed fjall first now := by
  induction runs with
  | none => exact ⟨present,lockable,.takes taken,.same,fun _ _ _ => rfl,.inr rfl⟩
  | cut script _ ran ih => exact ((destroyDatabase_delivers (ih.meets script)).of_error ran).doomed
  | finished script _ ran ih => exact ((destroyDatabase_delivers (ih.meets script)).of_ok ran).1

-- A root with the marker it began with and no FORMAT, whose index has lost objects.
structure Severed (first now : Disk) : Prop where
  unpublished : now.root formatFileName = none
  marker : ∃ encoded, now.root formatTempFileName = some (.file encoded) ∧
    first.root formatTempFileName = some (.file encoded)
  index : ∃ whole left, first.root indexDirectoryName = some (.directory whole) ∧
    now.root indexDirectoryName = some (.directory left) ∧ Rest left whole

-- A root that Destroy does not take any more is an initialization's whose index has lost objects.
theorem Doomed.severed (doomed : Doomed fjall first now) (refused : ¬Takeable fjall now) : Severed first now := by
  obtain ⟨-,-,layout,-,-,marker⟩ := doomed
  rw [Takeable] at refused
  generalize unpublished : now.root formatFileName = format at layout refused
  generalize marked : now.root formatTempFileName = temporary at layout refused marker
  generalize there : now.root indexDirectoryName = index at layout refused
  generalize now.root vlogDirectoryName = vlog at layout refused
  cases layout with
  | takes taken => exact absurd taken refused
  | @severed encoded _ whole left decoded found rest removable =>
    have same := marker.resolve_left (Option.some_ne_none _)
    exact ⟨unpublished,⟨encoded,marked,same.symm⟩,whole,left,found,there,rest⟩

theorem Doomed.whole (doomed : Doomed fjall first now) (unmarked : first.root formatTempFileName = none) :
    Takeable fjall now := by
  by_contra refused
  obtain ⟨-,⟨encoded,-,marked⟩,-⟩ := doomed.severed refused
  rw [unmarked] at marked
  cases marked

-- However often Destroy is cut, it touches nothing but the database, says whether it removed anything, and the next run
-- that no call fails finishes. Only an initialization's index can be left so that it is refused, and then nothing goes.
theorem destroy_reenters (present : first.present = true) (lockable : Lockable first) (taken : Takeable fjall first)
    (runs : Destructions fjall first now) :
    (∀ name, name ∉ managedNames → name ≠ lockFileName → now.root name = first.root name) ∧
    (first.root formatTempFileName = none → Takeable fjall now) ∧
    (¬Takeable fjall now → Severed first now) ∧
    (Takeable fjall now → ∃ after, destroyDatabase fjall (now.meets []) = .ok () after ∧ Gone after ∧
      ∀ name, name ∉ managedNames → name ≠ lockFileName → after.root name = first.root name) ∧
    ∀ script error after, destroyDatabase fjall (now.meets script) = .error error after →
      (error.failure.partiallyDeleted = true ↔ now.calls.removals < after.calls.removals) ∧
      (¬Takeable fjall now → after.calls.removals = now.calls.removals) := by
  have doomed := runs.doomed present lockable taken
  refine ⟨doomed.others,doomed.whole,doomed.severed,fun takes => ?_,fun script error after ran => ?_⟩
  · have delivers := destroyDatabase_delivers (doomed.meets [])
    cases ran : destroyDatabase fjall (now.meets []) with
    | ok _ after =>
      obtain ⟨done,gone,-⟩ := delivers.of_ok ran
      exact ⟨after,rfl,gone,done.others⟩
    | error error after => exact absurd takes ((delivers.of_error ran).reason rfl)
  · have unfinished := (destroyDatabase_delivers (doomed.meets script)).of_error ran
    exact ⟨unfinished.flag,unfinished.untouched⟩

end runs

-- A database without values in the directory of an index library that is read as it is opened.
def readingFjall : Fjall := {oneFileFjall with verifies := oneFileFjall.opens}

def wholeRoot (uuid : Uuid) : Disk where
  present := true
  root := fun name =>
    if name = formatFileName then
      some (.file (formatMagic ++ leBytes 4 0 ++ uuid.val ++ leBytes 4 65536 ++ leBytes 4 60000))
    else if name = indexDirectoryName then
      some (.directory [([0x31],.file (@encodedIdentityOf castagnoli uuid))])
    else if name = vlogDirectoryName then some (.directory [])
    else none
  calls := ⟨[],false,0⟩

theorem wholeRoot_takeable : @Takeable castagnoli readingFjall (wholeRoot ⟨List.replicate 16 1,rfl⟩) := by
  have validated : (@validateFinalIdentity castagnoli (Index.empty.apply
      [.initializeDatabaseIdentity (@encodedIdentityOf castagnoli ⟨List.replicate 16 1,rfl⟩),
        .putInternal .system headSeqKey (List.replicate 8 0),
        .putInternal .system durableFrontierKey (@encodedFrontierOf castagnoli)])
      ⟨0,⟨List.replicate 16 1,rfl⟩,65536⟩).toOption = some () := by decide +kernel
  have listed : (@inventoryVlogForDestroy castagnoli ⟨0,⟨List.replicate 16 1,rfl⟩,65536⟩ []).toOption = some [] := by
    decide +kernel
  refine @Destroyable.final castagnoli _ _ ⟨0,⟨List.replicate 16 1,rfl⟩,65536⟩ _ _ _ [] rfl rfl
    (List.cons_ne_nil _ _) rfl ?_ ?_
  · exact ok_of_toOption validated
  · exact ok_of_toOption listed

def cutScript : List Answer := List.replicate 23 .fine ++ [.io ⟨.other,none⟩]

-- A run that is cut in the index directory, and the one after it.
theorem destroy_reenters_cut : ∃ error after final,
    @destroyDatabase castagnoli readingFjall ((wholeRoot ⟨List.replicate 16 1,rfl⟩).meets cutScript) = .error error after ∧
    error.failure.partiallyDeleted = true ∧
    @destroyDatabase castagnoli readingFjall (after.meets []) = .ok () final ∧ Gone final := by
  have cut : (match @destroyDatabase castagnoli readingFjall ((wholeRoot ⟨List.replicate 16 1,rfl⟩).meets cutScript) with
      | .error error _ => error.failure.partiallyDeleted
      | .ok _ _ => false) = true := by decide +kernel
  cases ran : @destroyDatabase castagnoli readingFjall ((wholeRoot ⟨List.replicate 16 1,rfl⟩).meets cutScript) with
  | ok _ _ =>
    rw [ran] at cut
    cases cut
  | error error after =>
    rw [ran] at cut
    have runs : @Destructions castagnoli readingFjall (wholeRoot ⟨List.replicate 16 1,rfl⟩) after :=
      @Destructions.cut castagnoli _ _ _ _ _ cutScript
        (@Destructions.none castagnoli _ _) ran
    obtain ⟨-,whole,-,finishes,-⟩ := @destroy_reenters castagnoli _ _ _ rfl (.inl rfl) wholeRoot_takeable runs
    obtain ⟨final,finished,gone,-⟩ := finishes (whole rfl)
    exact ⟨error,after,final,rfl,cut,finished,gone⟩

section resuming
variable [Crc32c] {fjall : Fjall} {first now : Disk}

-- What was verified of an index that stands beside FORMAT and vlog, or beside FORMAT.tmp.
structure Identified (fjall : Fjall) (disk : Disk) : Prop where
  final : ∀ encoded entries files, disk.root formatFileName = some (.file encoded) →
    disk.root indexDirectoryName = some (.directory entries) → disk.root vlogDirectoryName = some (.directory files) →
    ∃ format index, FormatMetadata.decode encoded = .ok format ∧ fjall.verifies entries = .ok index ∧
      validateFinalIdentity index format = .ok ()
  interrupted : ∀ encoded entries, disk.root formatTempFileName = some (.file encoded) →
    disk.root indexDirectoryName = some (.directory entries) →
    ∃ format, FormatMetadata.decode encoded = .ok format ∧ Interrupted fjall format entries

theorem Takeable.identified {disk : Disk} (taken : Takeable fjall disk) : Identified fjall disk := by
  rw [Takeable] at taken
  refine ⟨?_,?_⟩
  · intro encoded entries files format index vlog
    rw [format,index,vlog] at taken
    generalize disk.root formatTempFileName = temporary at taken
    cases taken with
    | final decoded _ _ verified validated _ => exact ⟨_,_,decoded,verified,validated⟩
  · intro encoded entries temporary index
    rw [temporary,index] at taken
    generalize disk.root formatFileName = format at taken
    generalize disk.root vlogDirectoryName = vlog at taken
    cases taken with
    | temporary decoded _ interrupted _ => exact ⟨_,decoded,interrupted⟩

-- The next run that no call fails finishes just where the inventory takes what the runs before left, which it does but for
-- an initialization whose index has lost objects. What no inventory took is not touched.
theorem destroy_resumes (present : first.present = true) (lockable : Lockable first) (taken : Takeable fjall first)
    (runs : Destructions fjall first now) :
    (∀ name, name ∉ managedNames → name ≠ lockFileName → now.root name = first.root name) ∧
    ((∃ after, destroyDatabase fjall (now.meets []) = .ok () after) ↔ Takeable fjall now) ∧
    (∀ after, destroyDatabase fjall (now.meets []) = .ok () after →
      Gone after ∧ ∀ name, name ∉ managedNames → name ≠ lockFileName → after.root name = first.root name) ∧
    (¬Takeable fjall now → Severed first now) ∧
    (∀ script after, (destroyDatabase fjall (now.meets script) = .ok () after ∨
        ∃ error, destroyDatabase fjall (now.meets script) = .error error after) →
      now.calls.removals < after.calls.removals → Takeable fjall now ∧ Identified fjall now) ∧
    ∀ script error after, destroyDatabase fjall (now.meets script) = .error error after →
      (error.failure.partiallyDeleted = true ↔ now.calls.removals < after.calls.removals) := by
  have doomed := runs.doomed present lockable taken
  have delivers := fun script => destroyDatabase_delivers (doomed.meets script)
  refine ⟨doomed.others,⟨?_,?_⟩,?_,doomed.severed,?_,?_⟩
  · rintro ⟨after,ran⟩
    exact ((delivers []).of_ok ran).2.2
  · intro takes
    cases ran : destroyDatabase fjall (now.meets []) with
    | ok _ after => exact ⟨after,rfl⟩
    | error error after => exact absurd takes (((delivers []).of_error ran).reason rfl)
  · intro after ran
    obtain ⟨done,gone,-⟩ := (delivers []).of_ok ran
    exact ⟨gone,done.others⟩
  · intro script after ended removed
    have takes : Takeable fjall now := by
      rcases ended with ran | ⟨error,ran⟩
      · exact ((delivers script).of_ok ran).2.2
      · by_contra refused
        have kept := ((delivers script).of_error ran).untouched refused
        exact absurd removed (Nat.not_lt.mpr (Nat.le_of_eq kept))
    exact ⟨takes,takes.identified⟩
  · intro script error after ran
    exact ((delivers script).of_error ran).flag

end resuming

-- An initialization that stopped behind its index.
def markedRoot (uuid : Uuid) : Disk where
  present := true
  root := fun name =>
    if name = formatTempFileName then
      some (.file (formatMagic ++ leBytes 4 0 ++ uuid.val ++ leBytes 4 65536 ++ leBytes 4 60000))
    else if name = indexDirectoryName then some (.directory [([0x30],.file []),([0x31],.file [])])
    else none
  calls := ⟨[],false,0⟩

-- An index library that opens what it wrote only as long as all of it is there.
def wholeFjall : Fjall :=
  {oneFileFjall with verifies := fun entries => if entries.length = 2 then .ok .empty else .error layoutError}

theorem markedRoot_takeable : @Takeable castagnoli wholeFjall (markedRoot ⟨List.replicate 16 1,rfl⟩) := by
  have interrupted : (@validateInterruptedIndex castagnoli .empty ⟨0,⟨List.replicate 16 1,rfl⟩,65536⟩).toOption =
      some () := by decide +kernel
  exact @Destroyable.temporary castagnoli _ _ ⟨0,⟨List.replicate 16 1,rfl⟩,65536⟩ _ _ rfl rfl
    (.inr ⟨.empty,rfl,ok_of_toOption interrupted⟩) (.inl rfl)

-- A FORMAT beside the index of another database, without a vlog.
def foreignRoot (uuid other : Uuid) : Disk where
  present := true
  root := fun name =>
    if name = formatFileName then
      some (.file (formatMagic ++ leBytes 4 0 ++ uuid.val ++ leBytes 4 65536 ++ leBytes 4 60000))
    else if name = indexDirectoryName then
      some (.directory [([0x31],.file (@encodedIdentityOf castagnoli other))])
    else none
  calls := ⟨[],false,0⟩

-- A run over an initialization that is cut in the index directory makes the next one refuse, and the index of another
-- database goes with a FORMAT that has no vlog.
theorem destroy_refuses_and_trusts :
    let uuid : Uuid := ⟨List.replicate 16 1,rfl⟩
    let other : Uuid := ⟨List.replicate 16 2,rfl⟩
    (∃ script error now again last, @Takeable castagnoli wholeFjall (markedRoot uuid) ∧
      @destroyDatabase castagnoli wholeFjall ((markedRoot uuid).meets script) = .error error now ∧
      @destroyDatabase castagnoli wholeFjall (now.meets []) = .error again last) ∧
    ∃ index refusal after, readingFjall.verifies [([0x31],.file (@encodedIdentityOf castagnoli other))] = .ok index ∧
      @validateFinalIdentity castagnoli index ⟨0,uuid,65536⟩ = .error refusal ∧
      @destroyDatabase castagnoli readingFjall (foreignRoot uuid other) = .ok () after ∧
      after.root indexDirectoryName = none := by
  intro uuid other
  let cut : List Answer := List.replicate 18 .fine ++ [.io ⟨.other,none⟩]
  refine ⟨?_,?_⟩
  · have refused : (@destroyDatabase castagnoli wholeFjall ((markedRoot uuid).meets cut)).casesOn (fun _ _ => false)
        (fun _ now => (@destroyDatabase castagnoli wholeFjall (now.meets [])).casesOn (fun _ _ => false)
          (fun _ _ => true)) = true := by decide +kernel
    cases ran : @destroyDatabase castagnoli wholeFjall ((markedRoot uuid).meets cut) with
    | ok _ now =>
      rw [ran] at refused
      cases refused
    | error error now =>
      rw [ran] at refused
      cases again : @destroyDatabase castagnoli wholeFjall (now.meets []) with
      | ok _ last =>
        simp only [again] at refused
        cases refused
      | error last final => exact ⟨cut,error,now,last,final,markedRoot_takeable,ran,again⟩
  · have foreign : (@validateFinalIdentity castagnoli (Index.empty.apply
        [.initializeDatabaseIdentity (@encodedIdentityOf castagnoli other),
          .putInternal .system headSeqKey (List.replicate 8 0),
          .putInternal .system durableFrontierKey (@encodedFrontierOf castagnoli)]) ⟨0,uuid,65536⟩).toOption = none := by
      decide +kernel
    have removed : (@destroyDatabase castagnoli readingFjall (foreignRoot uuid other)).casesOn
        (fun _ after => (after.root indexDirectoryName).isNone) (fun _ _ => false) = true := by decide +kernel
    cases checked : @validateFinalIdentity castagnoli (Index.empty.apply
        [.initializeDatabaseIdentity (@encodedIdentityOf castagnoli other),
          .putInternal .system headSeqKey (List.replicate 8 0),
          .putInternal .system durableFrontierKey (@encodedFrontierOf castagnoli)]) ⟨0,uuid,65536⟩ with
    | ok _ =>
      rw [checked] at foreign
      cases foreign
    | error refusal =>
      cases ran : @destroyDatabase castagnoli readingFjall (foreignRoot uuid other) with
      | ok _ after =>
        rw [ran] at removed
        exact ⟨_,refusal,after,rfl,checked,rfl,Option.isNone_iff_eq_none.mp removed⟩
      | error _ _ =>
        rw [ran] at removed
        cases removed

-- A run over an initialization that is cut behind the last object of the index, and the one after it.
theorem destroy_resumes_emptied : ∃ script error now after,
    @destroyDatabase castagnoli wholeFjall ((markedRoot ⟨List.replicate 16 1,rfl⟩).meets script) = .error error now ∧
    error.failure.partiallyDeleted = true ∧
    @destroyDatabase castagnoli wholeFjall (now.meets []) = .ok () after ∧ Gone after := by
  let cut : List Answer := List.replicate 20 .fine ++ [.io ⟨.other,none⟩]
  have resumed : (@destroyDatabase castagnoli wholeFjall ((markedRoot ⟨List.replicate 16 1,rfl⟩).meets cut)).casesOn
      (fun _ _ => false) (fun error now => error.failure.partiallyDeleted &&
        (@destroyDatabase castagnoli wholeFjall (now.meets [])).casesOn (fun _ _ => true) (fun _ _ => false)) = true := by
    decide +kernel
  cases ran : @destroyDatabase castagnoli wholeFjall ((markedRoot ⟨List.replicate 16 1,rfl⟩).meets cut) with
  | ok _ now =>
    rw [ran] at resumed
    cases resumed
  | error error now =>
    rw [ran] at resumed
    obtain ⟨flagged,goes⟩ := Bool.and_eq_true_iff.mp resumed
    have runs : @Destructions castagnoli wholeFjall (markedRoot ⟨List.replicate 16 1,rfl⟩) now :=
      @Destructions.cut castagnoli _ _ _ _ _ cut (@Destructions.none castagnoli _ _) ran
    obtain ⟨-,-,finishes,-⟩ := @destroy_resumes castagnoli _ _ _ rfl (.inl rfl) markedRoot_takeable runs
    cases again : @destroyDatabase castagnoli wholeFjall (now.meets []) with
    | ok _ after => exact ⟨cut,error,now,after,ran,flagged,again,(finishes after again).1⟩
    | error _ _ =>
      simp only [again] at goes
      cases goes

end ExpirKv
