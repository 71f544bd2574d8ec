import ExpirKv.Lifecycle.Listing

namespace ExpirKv

section format

-- `b"RUSTKV00"`.
def formatMagic : Bytes := [0x52,0x55,0x53,0x54,0x4B,0x56,0x30,0x30]
@[simp] abbrev formatEncodedLen : Nat := 36

def formatDecodeError (kind : StorageErrorKind) : StorageError :=
  .codecError kind .open .recovery none (if kind = .incompatibleFormat then .doNotRetry else .restoreOrRepair)

namespace FormatMetadata

-- The magic and the size limit are the same in every FORMAT, so they are no fields.
def validateForEncode (format : FormatMetadata) : Result Unit :=
  rejectIf (format.formatVersion ≠ 0 ∨ format.databaseUuid.isZero ∨ format.pageSize ≠ 65536)
    (.codecError .invalidArgument .open .preflight none .fixRequestAndRetrySameInstance)

def new (databaseUuid : Uuid) : Result FormatMetadata := do
  let metadata : FormatMetadata := ⟨0,databaseUuid,65536⟩
  metadata.validateForEncode
  return metadata

def encode (format : FormatMetadata) : Result Bytes := do
  format.validateForEncode
  return formatMagic ++ leBytes 4 format.formatVersion ++ format.databaseUuid.val ++ leBytes 4 format.pageSize ++
    leBytes 4 maxKeyValueSize

def decode (encoded : Bytes) : Result FormatMetadata := do
  rejectIf (encoded.length ≠ formatEncodedLen) (formatDecodeError .corruption)
  rejectIf (slice? encoded 0 8 ≠ some formatMagic) (formatDecodeError .corruption)
  let formatVersion ← (readU32 encoded 8).mapError (fun _ => formatDecodeError .corruption)
  rejectIf (formatVersion ≠ 0) (formatDecodeError .incompatibleFormat)
  let databaseUuid ← (readArray16 encoded 12).mapError (fun _ => formatDecodeError .corruption)
  let pageSize ← (readU32 encoded 28).mapError (fun _ => formatDecodeError .corruption)
  let keyValueSize ← (readU32 encoded 32).mapError (fun _ => formatDecodeError .corruption)
  rejectIf (databaseUuid.isZero ∨ pageSize ≠ 65536 ∨ keyValueSize ≠ maxKeyValueSize) (formatDecodeError .corruption)
  return ⟨formatVersion,databaseUuid,pageSize⟩

end FormatMetadata

end format

section trees

-- A walk over a tree that asks something of everything but its directories.
mutual
def Node.every (leaf : Node → Bool) : Node → Bool
  | .directory entries => everyEntry leaf entries
  | .file contents => leaf (.file contents)
  | .symlink => leaf .symlink
  | .other => leaf .other
def everyEntry (leaf : Node → Bool) : List (Bytes × Node) → Bool
  | [] => true
  | entry :: rest => everyNamed leaf entry && everyEntry leaf rest
def everyNamed (leaf : Node → Bool) : Bytes × Node → Bool
  | (_,node) => node.every leaf
end

-- `validate_directory_tree_nofollow` takes files and links, `sync_directory_tree_nofollow` files only.
def isRemovable : Node → Bool
  | .other => false
  | _ => true

def isFile : Node → Bool
  | .file _ => true
  | _ => false

mutual
theorem Node.every_mono {leaf wider : Node → Bool} (wide : ∀ node, leaf node = true → wider node = true) (node : Node)
    (each : node.every leaf = true) : node.every wider = true := by
  cases node with
  | directory entries =>
    rw [Node.every] at each ⊢
    exact everyEntry_mono wide entries each
  | file contents => exact wide _ each
  | symlink => exact wide _ each
  | other => exact wide _ each
theorem everyEntry_mono {leaf wider : Node → Bool} (wide : ∀ node, leaf node = true → wider node = true)
    (entries : List (Bytes × Node)) (each : everyEntry leaf entries = true) : everyEntry wider entries = true := by
  cases entries with
  | nil => rw [everyEntry]
  | cons entry rest =>
    simp only [everyEntry,Bool.and_eq_true] at each ⊢
    exact ⟨everyNamed_mono wide entry each.1,everyEntry_mono wide rest each.2⟩
theorem everyNamed_mono {leaf wider : Node → Bool} (wide : ∀ node, leaf node = true → wider node = true)
    (entry : Bytes × Node) (each : everyNamed leaf entry = true) : everyNamed wider entry = true := by
  obtain ⟨name,node⟩ := entry
  simp only [everyNamed] at each ⊢
  exact Node.every_mono wide node each
end

-- What a tree holds, each object under its path: a directory for itself, then its entries in their order.
mutual
def Node.objects : Node → List (List Bytes × Node)
  | .directory entries => ([],.directory []) :: entriesObjects entries
  | .file contents => [([],.file contents)]
  | .symlink => [([],.symlink)]
  | .other => [([],.other)]
def entriesObjects : List (Bytes × Node) → List (List Bytes × Node)
  | [] => []
  | entry :: rest => namedObjects entry ++ entriesObjects rest
def namedObjects : Bytes × Node → List (List Bytes × Node)
  | (name,node) => node.objects.map (fun object => (name :: object.1,object.2))
end

-- Some of the objects of a directory and not all of them, where they were.
def Rest (left whole : List (Bytes × Node)) : Prop :=
  (entriesObjects left).Sublist (entriesObjects whole) ∧ (entriesObjects left).length < (entriesObjects whole).length

theorem Node.objects_pos (node : Node) : 0 < node.objects.length := by
  cases node <;> simp only [Node.objects,List.length_cons,Nat.zero_lt_succ]

theorem namedObjects_pos (entry : Bytes × Node) : 0 < (namedObjects entry).length := by
  rw [namedObjects,List.length_map]
  exact entry.2.objects_pos

theorem entriesObjects_nil {entries : List (Bytes × Node)} (none : entriesObjects entries = []) : entries = [] := by
  cases entries with
  | nil => rfl
  | cons entry rest =>
    rw [entriesObjects,List.append_eq_nil_iff] at none
    exact absurd (congrArg List.length none.1) (Nat.ne_of_gt (namedObjects_pos entry))

theorem Rest.trans {less left whole : List (Bytes × Node)} (inner : Rest less left) (outer : Rest left whole) :
    Rest less whole :=
  ⟨inner.1.trans outer.1,inner.2.trans outer.2⟩

theorem Rest.filled {left whole : List (Bytes × Node)} (rest : Rest left whole) : whole ≠ [] := by
  rintro rfl
  exact absurd rest.2 (by rw [entriesObjects]; exact Nat.not_lt_zero _)

theorem isFile_removable (node : Node) (plain : isFile node = true) : isRemovable node = true := by
  cases node with
  | file contents => rfl
  | directory entries => rfl
  | symlink => rfl
  | other => cases plain

def openIoError (error : IoError) : StorageError :=
  {(StorageError.codecError .io .open .preflight none .fixEnvironmentAndReopen) with osCode := error.rawOsError}

-- The calls still to be answered, the flag `partially_deleted` that the tree removal sets through a
-- reference, and how many objects went away.
structure Calls where
  script : List Answer
  partiallyDeleted : Bool
  removals : Nat

namespace Calls

-- One call into the operating system.
def call (calls : Calls) : Option StorageError × Calls :=
  let rest := {calls with script := calls.script.tail}
  match calls.script.headD .fine with
  | .io error => (some (openIoError error),rest)
  | .refused error => (some error,rest)
  | _ => (none,rest)

def removed (calls : Calls) : Calls := {calls with partiallyDeleted := true, removals := calls.removals + 1}

end Calls

-- A removal that went through, or stopped and left something.
inductive TreeRemoval (α : Type) where
  | done (calls : Calls)
  | stopped (error : StorageError) (left : α) (calls : Calls)

-- `remove_directory_tree_nofollow`, entry by entry. Calls without an effect between two effects are one call.
mutual
def removeNode : Node → Calls → TreeRemoval Node
  | .directory entries,calls =>
    match calls.call with
    | (some error,calls) => .stopped error (.directory entries) calls
    | (none,calls) =>
      match removeEntries entries calls with
      | .stopped error left calls => .stopped error (.directory left) calls
      | .done calls =>
        match calls.call with
        | (some error,calls) => .stopped error (.directory []) calls
        | (none,calls) => .done calls.removed
  | .file contents,calls =>
    match calls.call with
    | (some error,calls) => .stopped error (.file contents) calls
    | (none,calls) => .done calls.removed
  | .symlink,calls =>
    match calls.call with
    | (some error,calls) => .stopped error .symlink calls
    | (none,calls) => .done calls.removed
  | .other,calls => .stopped (openIoError ⟨.other,none⟩) .other calls
def removeEntries : List (Bytes × Node) → Calls → TreeRemoval (List (Bytes × Node))
  | [],calls => .done calls
  | entry :: rest,calls =>
    match calls.call with
    | (some error,calls) => .stopped error (entry :: rest) calls
    | (none,calls) =>
      match removeEntry entry calls with
      | .stopped error left calls => .stopped error (left :: rest) calls
      | .done calls => removeEntries rest calls
def removeEntry : Bytes × Node → Calls → TreeRemoval (Bytes × Node)
  | (name,node),calls =>
    match removeNode node calls with
    | .stopped error left calls => .stopped error (name,left) calls
    | .done calls => .done calls
end

-- Nothing was removed and the flag stands as it was, or something was and the flag says so.
def Tracked (before after : Calls) : Prop :=
  after.removals = before.removals ∧ after.partiallyDeleted = before.partiallyDeleted ∨
    before.removals < after.removals ∧ after.partiallyDeleted = true

theorem Tracked.refl (calls : Calls) : Tracked calls calls := .inl ⟨rfl,rfl⟩

theorem Tracked.trans {before middle after : Calls} (left : Tracked before middle) (right : Tracked middle after) :
    Tracked before after := by
  rcases left with ⟨count,flag⟩ | ⟨more,flag⟩
  · rcases right with ⟨again,same⟩ | ⟨later,said⟩
    · exact .inl ⟨again.trans count,same.trans flag⟩
    · exact .inr ⟨by omega,said⟩
  · rcases right with ⟨again,same⟩ | ⟨later,said⟩
    · exact .inr ⟨by omega,same.trans flag⟩
    · exact .inr ⟨by omega,said⟩

theorem Calls.call_tracked (calls : Calls) :
    ∃ failed next, calls.call = (failed,next) ∧ Tracked calls next ∧ next.removals = calls.removals := by
  unfold Calls.call
  dsimp only
  split <;> exact ⟨_,_,rfl,.inl ⟨rfl,rfl⟩,rfl⟩

theorem Calls.removed_tracked (calls : Calls) : Tracked calls calls.removed := .inr ⟨Nat.lt_succ_self _,rfl⟩

theorem Tracked.le {before after : Calls} (tracked : Tracked before after) : before.removals ≤ after.removals := by
  rcases tracked with ⟨same,-⟩ | ⟨more,-⟩
  · exact Nat.le_of_eq same.symm
  · exact Nat.le_of_lt more

-- What a removal leaves: nothing, or the objects it had not come to, each of those it took counted.
inductive RemovedFrom {α : Type} (whole : α → Bool) (objects : α → List (List Bytes × Node)) (item : α) (before : Calls) :
    TreeRemoval α → Prop
  | done {after : Calls} : Tracked before after → after.removals = before.removals + (objects item).length →
      RemovedFrom whole objects item before (.done after)
  | stopped {error : StorageError} {left : α} {after : Calls} : Tracked before after →
      (after.removals = before.removals → left = item) → (whole item = true → whole left = true) →
      (objects left).Sublist (objects item) →
      after.removals + (objects left).length = before.removals + (objects item).length →
      RemovedFrom whole objects item before (.stopped error left after)

theorem RemovedFrom.untouched {α : Type} {whole : α → Bool} {objects : α → List (List Bytes × Node)} {item : α}
    {before after : Calls} (tracked : Tracked before after) (same : after.removals = before.removals) (error : StorageError) :
    RemovedFrom whole objects item before (.stopped error item after) :=
  .stopped tracked (fun _ => rfl) (fun whole => whole) (List.Sublist.refl _) (by rw [same])

theorem removeLeaf_swept {leaf : Node → Bool} {node : Node} {calls : Calls} (single : node.objects.length = 1) :
    RemovedFrom (Node.every leaf) Node.objects node calls
      (match calls.call with
      | (some error,calls) => .stopped error node calls
      | (none,calls) => .done calls.removed) := by
  obtain ⟨failed,next,here,first⟩ := calls.call_tracked
  rw [here]
  cases failed with
  | some error => exact .untouched first.1 first.2 error
  | none =>
    refine .done (first.1.trans next.removed_tracked) ?_
    rw [single,Calls.removed,first.2]

mutual
theorem removeNode_swept (leaf : Node → Bool) (node : Node) (calls : Calls) :
    RemovedFrom (Node.every leaf) Node.objects node calls (removeNode node calls) := by
  cases node with
  | file contents => rw [removeNode]; exact removeLeaf_swept (by rw [Node.objects]; rfl)
  | symlink => rw [removeNode]; exact removeLeaf_swept (by rw [Node.objects]; rfl)
  | other => rw [removeNode]; exact .untouched (.refl calls) rfl _
  | directory entries =>
    rw [removeNode]
    obtain ⟨failed,next,here,first⟩ := calls.call_tracked
    rw [here]
    cases failed with
    | some error => exact .untouched first.1 first.2 error
    | none =>
      have inner := removeEntries_swept leaf entries next
      simp only
      cases swept : removeEntries entries next with
      | stopped error left after =>
        rw [swept] at inner
        cases inner with
        | stopped tracked kept whole part count =>
          refine .stopped (first.1.trans tracked) ?_ ?_ ?_ ?_
          · intro same
            rw [kept (same.trans first.2.symm)]
          · simpa only [Node.every] using whole
          · simpa only [Node.objects,List.cons_sublist_cons] using part
          · simp only [Node.objects,List.length_cons]
            omega
      | done after =>
        rw [swept] at inner
        cases inner with
        | done tracked count =>
          obtain ⟨failed,final,there,last⟩ := after.call_tracked
          simp only [there]
          cases failed with
          | some error =>
            refine .stopped ((first.1.trans tracked).trans last.1) ?_ (fun _ => by simp only [Node.every,everyEntry]) ?_ ?_
            · intro same
              have bare : (entriesObjects entries).length = 0 := by omega
              rw [entriesObjects_nil (List.length_eq_zero_iff.mp bare)]
            · simp only [Node.objects,entriesObjects,List.cons_sublist_cons,List.nil_sublist]
            · simp only [Node.objects,entriesObjects,List.length_cons,List.length_nil]
              omega
          | none =>
            refine .done (((first.1.trans tracked).trans last.1).trans final.removed_tracked) ?_
            simp only [Node.objects,List.length_cons,Calls.removed]
            omega
theorem removeEntries_swept (leaf : Node → Bool) (entries : List (Bytes × Node)) (calls : Calls) :
    RemovedFrom (everyEntry leaf) entriesObjects entries calls (removeEntries entries calls) := by
  cases entries with
  | nil => rw [removeEntries]; exact .done (.refl calls) (by rw [entriesObjects]; rfl)
  | cons entry rest =>
    rw [removeEntries]
    obtain ⟨failed,next,here,first⟩ := calls.call_tracked
    rw [here]
    cases failed with
    | some error => exact .untouched first.1 first.2 error
    | none =>
      have head := removeEntry_swept leaf entry next
      simp only
      cases swept : removeEntry entry next with
      | stopped error left after =>
        rw [swept] at head
        cases head with
        | stopped tracked kept whole part count =>
          refine .stopped (first.1.trans tracked) ?_ ?_ ?_ ?_
          · intro same
            rw [kept (same.trans first.2.symm)]
          · simp only [everyEntry,Bool.and_eq_true]
            exact fun both => ⟨whole both.1,both.2⟩
          · simp only [entriesObjects]
            exact part.append_right _
          · simp only [entriesObjects,List.length_append]
            omega
      | done after =>
        rw [swept] at head
        cases head with
        | done tracked count =>
          have one := namedObjects_pos entry
          have tail := removeEntries_swept leaf rest after
          simp only
          cases later : removeEntries rest after with
          | stopped error left final =>
            rw [later] at tail
            cases tail with
            | stopped further kept whole part rest =>
              have more := further.le
              refine .stopped ((first.1.trans tracked).trans further) (fun same => by omega) ?_ ?_ ?_
              · simp only [everyEntry,Bool.and_eq_true]
                exact fun both => whole both.2
              · simp only [entriesObjects]
                exact part.trans (List.sublist_append_right _ _)
              · simp only [entriesObjects,List.length_append]
                omega
          | done final =>
            rw [later] at tail
            cases tail with
            | done further rest =>
              refine .done ((first.1.trans tracked).trans further) ?_
              simp only [entriesObjects,List.length_append]
              omega
theorem removeEntry_swept (leaf : Node → Bool) (entry : Bytes × Node) (calls : Calls) :
    RemovedFrom (everyNamed leaf) namedObjects entry calls (removeEntry entry calls) := by
  obtain ⟨name,node⟩ := entry
  rw [removeEntry]
  have inner := removeNode_swept leaf node calls
  cases swept : removeNode node calls with
  | stopped error left after =>
    rw [swept] at inner
    cases inner with
    | stopped tracked kept whole part count =>
      refine .stopped tracked (fun same => by rw [kept same]) (by simpa only [everyNamed] using whole) ?_ ?_
      · simp only [namedObjects]
        exact part.map _
      · simpa only [namedObjects,List.length_map] using count
  | done after =>
    rw [swept] at inner
    cases inner with
    | done tracked count => exact .done tracked (by simpa only [namedObjects,List.length_map] using count)
end

-- Without a failing call a tree of files, links and directories goes away whole.
theorem Calls.call_fine {calls : Calls} (fine : calls.script = []) : calls.call = (none,calls) := by
  simp [Calls.call,fine]
  cases calls
  simp at fine
  rw [fine]

mutual
theorem removeNode_fine {node : Node} {calls : Calls} (fine : calls.script = []) (whole : node.every isRemovable = true) :
    ∃ after, removeNode node calls = .done after ∧ after.script = [] := by
  cases node with
  | file contents => exact ⟨calls.removed,by rw [removeNode,Calls.call_fine fine],fine⟩
  | symlink => exact ⟨calls.removed,by rw [removeNode,Calls.call_fine fine],fine⟩
  | other => cases whole
  | directory entries =>
    rw [Node.every] at whole
    obtain ⟨after,swept,still⟩ := removeEntries_fine fine whole
    refine ⟨after.removed,?_,still⟩
    simp only [removeNode,Calls.call_fine fine,swept,Calls.call_fine still]
theorem removeEntries_fine {entries : List (Bytes × Node)} {calls : Calls} (fine : calls.script = [])
    (whole : everyEntry isRemovable entries = true) :
    ∃ after, removeEntries entries calls = .done after ∧ after.script = [] := by
  cases entries with
  | nil => exact ⟨calls,by rw [removeEntries],fine⟩
  | cons entry rest =>
    simp only [everyEntry,Bool.and_eq_true] at whole
    obtain ⟨middle,swept,still⟩ := removeEntry_fine fine whole.1
    obtain ⟨after,later,fine'⟩ := removeEntries_fine still whole.2
    refine ⟨after,?_,fine'⟩
    simp only [removeEntries,Calls.call_fine fine,swept,later]
theorem removeEntry_fine {entry : Bytes × Node} {calls : Calls} (fine : calls.script = [])
    (whole : everyNamed isRemovable entry = true) :
    ∃ after, removeEntry entry calls = .done after ∧ after.script = [] := by
  obtain ⟨name,node⟩ := entry
  simp only [everyNamed] at whole
  obtain ⟨after,swept,still⟩ := removeNode_fine fine whole
  exact ⟨after,by simp only [removeEntry,swept],still⟩
end

end trees

-- The database root and what stands in it, by name.
structure Disk where
  present : Bool
  root : String → Option Node
  calls : Calls

inductive ManagedEntryKind where
  | missing
  | regularFile (len : Nat)
  | directory
  | symlink
  | other
  deriving DecidableEq, Repr

def classify : Option Node → ManagedEntryKind
  | none => .missing
  | some (.file contents) => .regularFile contents.length
  | some (.directory _) => .directory
  | some .symlink => .symlink
  | some .other => .other

def Disk.set (disk : Disk) (name : String) (node : Option Node) : Disk :=
  {disk with root := Function.update disk.root name node}

namespace RootLock

def lockFileName : String := "LOCK"
def formatFileName : String := "FORMAT"
def formatTempFileName : String := "FORMAT.tmp"
def indexDirectoryName : String := "index"
def vlogDirectoryName : String := "vlog"

-- A call that changes nothing, or fails.
def request : Eff Disk StorageError Unit := fun disk =>
  match disk.calls.call with
  | (some error,calls) => .error error {disk with calls}
  | (none,calls) => .ok () {disk with calls}

def perform (change : Disk → Disk) : Eff Disk StorageError Unit := do
  request
  modify change

-- The lock file is made once; the lock itself is a call that may be refused.
def openAndLockFile : Eff Disk StorageError Unit := do
  request
  match (← get).root lockFileName with
  | none => perform (fun disk => disk.set lockFileName (some (.file [])))
  | some (.file _) => request
  | some _ => throw layoutError
  request

def acquire (shouldCreateRoot : Bool) : Eff Disk StorageError Bool := do
  request
  if (← get).present = false ∧ shouldCreateRoot = false then return false
  if (← get).present = false then perform (fun disk => {disk with present := true})
  request
  openAndLockFile
  return true

def inspectChild (name : String) : Eff Disk StorageError ManagedEntryKind := do
  request
  return classify ((← get).root name)

def createNewRegular (name : String) : Eff Disk StorageError Unit := do
  if ((← get).root name).isSome then throw (openIoError Storage.alreadyExists)
  perform (fun disk => disk.set name (some (.file [])))

-- A write of a whole file that may stop after some of the bytes.
def writeWhole (name : String) (bytes : Bytes) : Eff Disk StorageError Unit := do
  match (← get).calls.script.headD .fine with
  | .short count => do
    modify (fun disk => {disk.set name (some (.file (bytes.take count))) with
      calls := {disk.calls with script := disk.calls.script.tail}})
    throw (openIoError ⟨.writeZero,none⟩)
  | _ => perform (fun disk => disk.set name (some (.file bytes)))

def createDirectory (name : String) : Eff Disk StorageError Unit := do
  if ((← get).root name).isSome then throw (openIoError Storage.alreadyExists)
  perform (fun disk => disk.set name (some (.directory [])))

def readDirectory (name : String) : Eff Disk StorageError (List (Bytes × Node)) := do
  request
  match (← get).root name with
  | some (.directory entries) => return entries
  | _ => throw layoutError

def syncDirectory : Eff Disk StorageError Unit := request
def syncRoot : Eff Disk StorageError Unit := request

def renameChild (source target : String) : Eff Disk StorageError Unit := do
  if ((← get).root source).isNone then throw (openIoError Storage.notFound)
  perform (fun disk => (disk.set target (disk.root source)).set source none)

def removeChild (name : String) (disk : Disk) : Disk :=
  {disk.set name none with calls := disk.calls.removed}

def removeRegularChildTracked (name : String) : Eff Disk StorageError Bool := do
  match ← inspectChild name with
  | .missing => return false
  | .regularFile _ => do
    perform (removeChild name)
    return true
  | _ => throw layoutError

def removeDirectoryTreeTracked (name : String) : Eff Disk StorageError Unit := do
  request
  let disk ← get
  match disk.root name with
  | none => return ()
  | some (.directory entries) =>
    match removeNode (.directory entries) disk.calls with
    | .done calls => set {disk.set name none with calls}
    | .stopped error left calls => do
      set {disk.set name (some left) with calls}
      throw error
  | some _ => throw layoutError

def removeEmptyDirectoryTracked (name : String) : Eff Disk StorageError Bool := do
  request
  match (← get).root name with
  | none => return false
  | some (.directory []) => do
    perform (removeChild name)
    return true
  | some (.directory _) => throw (openIoError ⟨.other,some 39⟩)
  | some _ => throw layoutError

end RootLock

open RootLock

def readFormat (temporary : Bool) : Eff Disk StorageError (Option FormatMetadata) := do
  let name := if temporary then formatTempFileName else formatFileName
  request
  match (← get).root name with
  | none => return none
  | some (.file encoded) => do
    Eff.lift (rejectIf (encoded.length ≠ formatEncodedLen) (metadataError .corruption))
    let format ← Eff.lift (FormatMetadata.decode encoded)
    return some format
  | some _ => throw layoutError

section rules
variable {disk : Disk}

-- Calls that removed nothing and that failed only if the script made one fail.
structure Steady (before after : Calls) : Prop where
  removals : after.removals = before.removals
  flag : after.partiallyDeleted = before.partiallyDeleted
  fine : before.script = [] → after.script = []

theorem Steady.refl (calls : Calls) : Steady calls calls := ⟨rfl,rfl,fun fine => fine⟩

theorem Steady.trans {before middle after : Calls} (left : Steady before middle) (right : Steady middle after) :
    Steady before after :=
  ⟨right.removals.trans left.removals,right.flag.trans left.flag,fun fine => right.fine (left.fine fine)⟩

theorem Calls.call_steady (calls : Calls) :
    ∃ failed next, calls.call = (failed,next) ∧ Steady calls next ∧ (failed ≠ none → calls.script ≠ []) := by
  cases script : calls.script with
  | nil => exact ⟨none,calls,Calls.call_fine script,.refl calls,fun failed => absurd rfl failed⟩
  | cons answer rest =>
    unfold Calls.call
    dsimp only
    split <;> exact ⟨_,_,rfl,⟨rfl,rfl,fun fine => by simp [script] at fine⟩,fun _ => List.cons_ne_nil _ _⟩

theorem delivers_request {post : Unit → Disk → Prop} {fail : StorageError → Disk → Prop}
    (good : ∀ calls, Steady disk.calls calls → post () {disk with calls})
    (bad : ∀ error calls, Steady disk.calls calls → disk.calls.script ≠ [] → fail error {disk with calls}) :
    Delivers request disk post fail := by
  obtain ⟨failed,next,here,steady,reason⟩ := disk.calls.call_steady
  unfold Delivers request
  rw [here]
  cases failed with
  | none => exact good next steady
  | some error => exact bad error next steady (reason (Option.some_ne_none error))

theorem delivers_performed {change : Disk → Disk} {post : Unit → Disk → Prop} {fail : StorageError → Disk → Prop}
    (good : ∀ calls, Steady disk.calls calls → post () (change {disk with calls}))
    (bad : ∀ error calls, Steady disk.calls calls → disk.calls.script ≠ [] → fail error {disk with calls}) :
    Delivers (RootLock.perform change) disk post fail := by
  rw [RootLock.perform,delivers_bind]
  exact delivers_request good bad

theorem Steady.tracked {before after : Calls} (steady : Steady before after) : Tracked before after :=
  .inl ⟨steady.removals,steady.flag⟩

theorem removeNode_directory {entries : List (Bytes × Node)} {calls after : Calls} {error : StorageError} {left : Node}
    (stopped : removeNode (.directory entries) calls = .stopped error left after) : ∃ rest, left = .directory rest := by
  rw [removeNode] at stopped
  split at stopped
  · cases stopped
    exact ⟨_,rfl⟩
  · split at stopped
    · cases stopped
      exact ⟨_,rfl⟩
    · split at stopped
      · cases stopped
        exact ⟨_,rfl⟩
      · cases stopped

-- A directory that a removal stopped in: nothing went, or some of it.
structure LeftOver (entries left : List (Bytes × Node)) (before after : Calls) : Prop where
  tracked : Tracked before after
  same : after.removals = before.removals → left = entries
  fewer : before.removals < after.removals → Rest left entries
  removable : everyEntry isRemovable left = true

theorem removeTree_delivers {name : String} {entries : List (Bytes × Node)} {post : Unit → Disk → Prop}
    {fail : StorageError → Disk → Prop} (found : disk.root name = some (.directory entries))
    (removable : everyEntry isRemovable entries = true)
    (good : ∀ calls, Tracked disk.calls calls → disk.calls.removals < calls.removals →
      (disk.calls.script = [] → calls.script = []) → post () {disk.set name none with calls})
    (bad : ∀ error left calls, LeftOver entries left disk.calls calls → disk.calls.script ≠ [] →
      fail error {disk.set name (some (.directory left)) with calls}) :
    Delivers (removeDirectoryTreeTracked name) disk post fail := by
  have same : ∀ calls, {disk with calls} = {disk.set name (some (.directory entries)) with calls} := by
    intro calls
    rw [Disk.set,←found,Function.update_eq_self]
  rw [removeDirectoryTreeTracked,delivers_bind]
  refine delivers_request ?_ ?_
  · intro calls steady
    rw [delivers_bind,delivers_get,found]
    have swept := removeNode_swept isRemovable (.directory entries) calls
    have whole : (Node.directory entries).every isRemovable = true := by rw [Node.every,removable]
    simp only
    cases ended : removeNode (.directory entries) calls with
    | done after =>
      rw [ended] at swept
      cases swept with
      | done tracked count =>
        rw [delivers_set]
        refine good after (steady.tracked.trans tracked) ?_ ?_
        · have one := (Node.directory entries).objects_pos
          have same := steady.removals
          omega
        · intro fine
          obtain ⟨other,finished,still⟩ := removeNode_fine (steady.fine fine) whole
          rw [ended] at finished
          cases finished
          exact still
    | stopped error left after =>
      obtain ⟨rest,rfl⟩ := removeNode_directory ended
      rw [ended] at swept
      cases swept with
      | stopped tracked kept each part count =>
        rw [delivers_bind,delivers_set,delivers_throw]
        refine bad error rest after ⟨steady.tracked.trans tracked,?_,?_,?_⟩ ?_
        · intro none
          exact Node.directory.inj (kept (none.trans steady.removals.symm))
        · intro fewer
          have same := steady.removals
          simp only [Node.objects,List.cons_sublist_cons,List.length_cons] at part count
          exact ⟨part,by omega⟩
        · have left := each whole
          rwa [Node.every] at left
        · intro fine
          obtain ⟨other,finished,-⟩ := removeNode_fine (steady.fine fine) whole
          rw [ended] at finished
          cases finished
  · intro error calls steady failed
    rw [same calls]
    refine bad error entries calls ⟨steady.tracked,fun _ => rfl,?_,removable⟩ failed
    intro fewer
    exact absurd steady.removals (Nat.ne_of_gt fewer)

end rules

end ExpirKv
