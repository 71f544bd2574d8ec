import ExpirKv.Lifecycle.DestroyFacts

namespace ExpirKv
open RootLock

def managedNames : List String := [formatFileName,formatTempFileName,indexDirectoryName,vlogDirectoryName]

-- The index as it was, nothing of it, or a part of it.
inductive Shrunk (was : Option Node) : Option Node → Prop
  | same : Shrunk was was
  | gone : Shrunk was none
  | part {whole left : List (Bytes × Node)} : was = some (.directory whole) → Rest left whole →
      Shrunk was (some (.directory left))

theorem Shrunk.trans {first was index : Option Node} (earlier : Shrunk first was) (later : Shrunk was index) :
    Shrunk first index := by
  cases later with
  | same => exact earlier
  | gone => exact .gone
  | part found rest =>
    cases earlier with
    | same => exact .part found rest
    | gone => cases found
    | part begun part =>
      obtain rfl := Node.directory.inj (Option.some.inj found)
      exact .part begun (rest.trans part)

section layouts
variable [Crc32c]

-- What runs that were cut leave of a root whose index was `was`: a layout that Destroy takes, or FORMAT.tmp beside
-- an index that has lost objects.
inductive Remains (fjall : Fjall) (was : Option Node) : Option Node → Option Node → Option Node → Option Node → Prop
  | takes {format temporary index vlog : Option Node} : Destroyable fjall format temporary index vlog →
      Remains fjall was format temporary index vlog
  | severed {encoded : Bytes} {format : FormatMetadata} {whole left : List (Bytes × Node)} :
      FormatMetadata.decode encoded = .ok format → was = some (.directory whole) → Rest left whole →
      everyEntry isRemovable left = true →
      Remains fjall was none (some (.file encoded)) (some (.directory left)) none

theorem Remains.since {fjall : Fjall} {first was format temporary index vlog : Option Node}
    (remains : Remains fjall was format temporary index vlog) (earlier : Shrunk first was) :
    Remains fjall first format temporary index vlog := by
  cases remains with
  | takes taken => exact .takes taken
  | severed decoded found rest removable =>
    cases earlier with
    | same => exact .severed decoded found rest removable
    | gone => cases found
    | part begun part =>
      obtain rfl := Node.directory.inj (Option.some.inj found)
      exact .severed decoded begun (rest.trans part) removable

-- A root in the course of a run: the managed entries as they remain, everything else as it was.
structure Left (fjall : Fjall) (start : Disk) (root : String → Option Node) : Prop where
  layout : Remains fjall (start.root indexDirectoryName) (root formatFileName) (root formatTempFileName)
    (root indexDirectoryName) (root vlogDirectoryName)
  index : Shrunk (start.root indexDirectoryName) (root indexDirectoryName)
  others : ∀ name, name ∉ managedNames → root name = start.root name
  marker : root formatTempFileName = none ∨ root formatTempFileName = start.root formatTempFileName

end layouts

-- What a run of Destroy did so far, with the flag that says whether it removed anything.
structure Ruin (start disk : Disk) (root : String → Option Node) : Prop where
  present : disk.present = start.present
  root : disk.root = root
  tracked : Tracked start.calls disk.calls
  quiet : start.calls.script = [] → disk.calls.script = []

def Halts [Crc32c] (fjall : Fjall) (start after : Disk) : Prop :=
  start.calls.script ≠ [] ∧ ∃ root, Ruin start after root ∧ Left fjall start root

-- The run reported an error with the flag as it stood.
def Cut [Crc32c] (fjall : Fjall) (start : Disk) (error : DestroyError) (after : Disk) : Prop :=
  error.failure.partiallyDeleted = after.calls.partiallyDeleted ∧ Halts fjall start after

section removal
variable [Crc32c] {fjall : Fjall} {start disk : Disk} {root : String → Option Node}

omit [Crc32c] in
theorem Ruin.answered (ruin : Ruin start disk root) {calls : Calls} (steady : Steady disk.calls calls) :
    Ruin start {disk with calls} root :=
  ⟨ruin.present,ruin.root,ruin.tracked.trans steady.tracked,fun fine => steady.fine (ruin.quiet fine)⟩

omit [Crc32c] in
theorem Ruin.set (ruin : Ruin start disk root) (name : String) (node : Option Node) {calls : Calls}
    (tracked : Tracked disk.calls calls) (quiet : disk.calls.script = [] → calls.script = []) :
    Ruin start {disk.set name node with calls} (Function.update root name node) := by
  refine ⟨ruin.present,?_,ruin.tracked.trans tracked,fun fine => quiet (ruin.quiet fine)⟩
  rw [Disk.set,ruin.root]

theorem reported {α : Type} {x : Eff Disk StorageError α} {object : ManagedObject} {stage : DestroyStage}
    {post : α → Disk → Prop} (delivers : Delivers x disk post (fun _ after => Halts fjall start after)) :
    Delivers (orDestroy object stage x) disk post (Cut fjall start) := by
  rw [delivers_orDestroy]
  exact delivers.mono (fun _ _ holds => holds) (fun _ _ halts => ⟨rfl,halts⟩)

theorem Ruin.request {post : Unit → Disk → Prop} (ruin : Ruin start disk root) (left : Left fjall start root)
    (next : ∀ after, Ruin start after root → post () after) :
    Delivers request disk post (fun _ after => Halts fjall start after) := by
  refine delivers_request ?_ ?_
  · intro calls steady
    exact next _ (ruin.answered steady)
  · intro error calls steady failed
    exact ⟨fun fine => failed (ruin.quiet fine),root,ruin.answered steady,left⟩

-- A change that takes one object away.
theorem Ruin.perform {name : String} {node : Option Node} {change : Disk → Disk} {post : Unit → Disk → Prop}
    (ruin : Ruin start disk root) (left : Left fjall start root)
    (changes : ∀ reached, Ruin start reached root →
      change reached = {reached.set name node with calls := reached.calls.removed})
    (next : ∀ after, Ruin start after (Function.update root name node) → post () after) :
    Delivers (perform change) disk post (fun _ after => Halts fjall start after) := by
  rw [RootLock.perform,delivers_bind]
  refine ruin.request left ?_
  intro after ruin
  rw [delivers_modify,changes after ruin]
  exact next _ (ruin.set name node after.calls.removed_tracked (fun fine => fine))

-- One VLog file: its name leaves the directory.
theorem removeFileForDestroy_delivers {fileId : Nat} {entries : List (Bytes × Node)} {post : Unit → Disk → Prop}
    (ruin : Ruin start disk root) (left : Left fjall start root)
    (found : root vlogDirectoryName = some (.directory entries))
    (named : [0x44] ++ paddedDigits 6 fileId ++ vlogSuffix ∈ entries.map Prod.fst)
    (next : ∀ after, Ruin start after (Function.update root vlogDirectoryName (some (.directory (entries.eraseP
      (fun entry => entry.1 == [0x44] ++ paddedDigits 6 fileId ++ vlogSuffix))))) → post () after) :
    Delivers (removeFileForDestroy fileId) disk post (fun _ after => Halts fjall start after) := by
  have there : entries.any (fun entry => entry.1 == [0x44] ++ paddedDigits 6 fileId ++ vlogSuffix) = true := by
    obtain ⟨entry,member,same⟩ := List.mem_map.mp named
    exact List.any_eq_true.mpr ⟨entry,member,beq_iff_eq.mpr same⟩
  rw [removeFileForDestroy,delivers_bind,delivers_get,ruin.root,found]
  simp only [there,↓reduceIte]
  refine ruin.perform left ?_ next
  intro reached ruin
  unfold unlinkVlogFile
  rw [ruin.root,found]

omit [Crc32c] in
theorem Listed.erased {entries : List (Bytes × Node)} {file : VLogInventoryEntry} {files : List VLogInventoryEntry}
    (listed : Listed entries (file :: files)) :
    Listed (entries.eraseP (fun entry => entry.1 == [0x44] ++ paddedDigits 6 file.fileId ++ vlogSuffix)) files := by
  have names : (entries.eraseP (fun entry => entry.1 == [0x44] ++ paddedDigits 6 file.fileId ++ vlogSuffix)).map Prod.fst =
      (entries.map Prod.fst).erase ([0x44] ++ paddedDigits 6 file.fileId ++ vlogSuffix) := by
    rw [List.erase_eq_eraseP',List.eraseP_map]
    rfl
  have fewer := listed.erase ([0x44] ++ paddedDigits 6 file.fileId ++ vlogSuffix)
  rw [List.map_cons,List.erase_cons_head] at fewer
  rwa [Listed,names]

-- The loop takes the names one by one; what it leaves is a part of what it found.
theorem unlinkFiles_delivers {entries : List (Bytes × Node)} {files : List VLogInventoryEntry} {post : Unit → Disk → Prop}
    (ruin : Ruin start disk (Function.update root vlogDirectoryName (some (.directory entries))))
    (left : ∀ rest, (∀ entry ∈ rest, entry ∈ entries) →
      Left fjall start (Function.update root vlogDirectoryName (some (.directory rest))))
    (listed : Listed entries files)
    (next : ∀ after, Ruin start after (Function.update root vlogDirectoryName (some (.directory []))) → post () after) :
    Delivers (files.forM (fun entry =>
      orDestroy (.vlogFile entry.fileId) .removeFile (removeFileForDestroy entry.fileId))) disk post (Cut fjall start) := by
  induction files generalizing entries disk with
  | nil =>
    obtain rfl : entries = [] := List.map_eq_nil_iff.mp listed.symm.eq_nil
    exact next disk ruin
  | cons file files ih =>
    change Delivers (_ >>= fun _ => files.forM _) disk _ _
    rw [delivers_bind]
    refine reported (removeFileForDestroy_delivers ruin (left entries (fun _ member => member)) (Function.update_self _ _ _)
      (listed.subset List.mem_cons_self) ?_)
    intro after ruin
    rw [Function.update_idem] at ruin
    exact ih ruin (fun rest part => left rest (fun entry member => List.eraseP_subset (part entry member))) listed.erased

theorem removeVlog_delivers {entries : List (Bytes × Node)} {files : List VLogInventoryEntry} {post : Unit → Disk → Prop}
    (ruin : Ruin start disk root) (found : root vlogDirectoryName = some (.directory entries))
    (left : ∀ rest, (∀ entry ∈ rest, entry ∈ entries) →
      Left fjall start (Function.update root vlogDirectoryName (some (.directory rest))))
    (gone : Left fjall start (Function.update root vlogDirectoryName none)) (listed : Listed entries files)
    (next : ∀ after, Ruin start after (Function.update root vlogDirectoryName none) → post () after) :
    Delivers (removeVlog files) disk post (Cut fjall start) := by
  have same : Function.update root vlogDirectoryName (some (.directory entries)) = root := by
    rw [←found,Function.update_eq_self]
  have whole := left entries (fun _ member => member)
  have bare := left [] (fun _ member => absurd member List.not_mem_nil)
  rw [removeVlog,delivers_bind]
  refine reported (ruin.request (same ▸ whole) ?_)
  intro disk ruin
  rw [delivers_bind]
  have reversed : Listed entries files.reverse := by
    unfold Listed at listed ⊢
    rw [List.map_reverse]
    exact (List.reverse_perm _).trans listed
  refine unlinkFiles_delivers (same.symm ▸ ruin) left reversed ?_
  intro disk ruin
  rw [delivers_bind]
  refine reported (ruin.request bare ?_)
  intro disk ruin
  rw [delivers_bind]
  refine reported ?_
  rw [removeEmptyDirectoryTracked,delivers_bind]
  refine ruin.request bare ?_
  intro disk ruin
  rw [delivers_bind,delivers_get,ruin.root,Function.update_self]
  simp only [delivers_bind,delivers_pure]
  refine ruin.perform bare (fun _ _ => rfl) ?_
  intro disk ruin
  rw [Function.update_idem] at ruin
  exact reported (ruin.request gone next)

theorem removeIndex_delivers {entries : List (Bytes × Node)} {post : Unit → Disk → Prop} (ruin : Ruin start disk root)
    (found : root indexDirectoryName = some (.directory entries)) (removable : everyEntry isRemovable entries = true)
    (whole : Left fjall start root)
    (cut : ∀ left, Rest left entries → everyEntry isRemovable left = true →
      Left fjall start (Function.update root indexDirectoryName (some (.directory left))))
    (next : ∀ after, Ruin start after (Function.update root indexDirectoryName none) → post () after) :
    Delivers (removeDirectoryTreeTracked indexDirectoryName) disk post (fun _ after => Halts fjall start after) := by
  have here : disk.root indexDirectoryName = some (.directory entries) := by rw [ruin.root,found]
  refine removeTree_delivers here removable ?_ ?_
  · intro calls tracked _ quiet
    exact next _ (ruin.set _ none tracked quiet)
  · intro error left calls remainder failed
    refine ⟨fun fine => failed (ruin.quiet fine),_,ruin.set _ _ remainder.tracked (fun fine => absurd fine failed),?_⟩
    rcases Nat.lt_or_ge disk.calls.removals calls.removals with fewer | more
    · exact cut left (remainder.fewer fewer) remainder.removable
    · rw [remainder.same (Nat.le_antisymm more remainder.tracked.le),←found,Function.update_eq_self]
      exact whole

theorem removeDestroyFormat_delivers {temporary : Bool} {contents : Bytes} {post : Unit → Disk → Prop}
    (ruin : Ruin start disk root)
    (found : root (if temporary then formatTempFileName else formatFileName) = some (.file contents))
    (whole : Left fjall start root)
    (gone : Left fjall start (Function.update root (if temporary then formatTempFileName else formatFileName) none))
    (next : ∀ after, Ruin start after (Function.update root (if temporary then formatTempFileName else formatFileName) none) →
      post () after) :
    Delivers (removeDestroyFormat temporary) disk post (Cut fjall start) := by
  rw [removeDestroyFormat]
  generalize (if temporary = true then formatTempFileName else formatFileName) = name at found gone next ⊢
  rw [delivers_bind]
  refine reported ?_
  rw [removeRegularChildTracked,inspectChild,delivers_bind,delivers_bind]
  refine ruin.request whole ?_
  intro disk ruin
  rw [delivers_bind,delivers_get,ruin.root,found,delivers_pure]
  simp only [classify,delivers_bind,delivers_pure]
  refine ruin.perform whole (fun _ _ => rfl) ?_
  intro disk ruin
  exact reported (ruin.request gone next)

-- The managed entries of a root, by name.
structure Shape (start : Disk) (root : String → Option Node) (format temporary index vlog : Option Node) : Prop where
  atFormat : root formatFileName = format
  atTemporary : root formatTempFileName = temporary
  atIndex : root indexDirectoryName = index
  atVlog : root vlogDirectoryName = vlog
  shrunk : Shrunk (start.root indexDirectoryName) index
  others : ∀ name, name ∉ managedNames → root name = start.root name
  marker : temporary = none ∨ temporary = start.root formatTempFileName

section shapes
variable {format temporary index vlog : Option Node}

theorem Shape.left (shape : Shape start root format temporary index vlog)
    (remains : Remains fjall (start.root indexDirectoryName) format temporary index vlog) : Left fjall start root := by
  refine ⟨?_,?_,shape.others,?_⟩
  · rw [shape.atFormat,shape.atTemporary,shape.atIndex,shape.atVlog]
    exact remains
  · rw [shape.atIndex]
    exact shape.shrunk
  · rw [shape.atTemporary]
    exact shape.marker

omit [Crc32c] in
theorem Shape.elsewhere (shape : Shape start root format temporary index vlog) {name : String} (managed : name ∈ managedNames)
    (node : Option Node) : ∀ other, other ∉ managedNames → Function.update root name node other = start.root other := by
  intro other outside
  have apart : other ≠ name := by
    rintro rfl
    exact outside managed
  rw [Function.update_of_ne apart,shape.others other outside]

omit [Crc32c] in
theorem Shape.setVlog (shape : Shape start root format temporary index vlog) (node : Option Node) :
    Shape start (Function.update root vlogDirectoryName node) format temporary index node :=
  ⟨shape.atFormat,shape.atTemporary,shape.atIndex,Function.update_self _ _ _,shape.shrunk,
    shape.elsewhere (by simp [managedNames]) node,shape.marker⟩

omit [Crc32c] in
theorem Shape.setIndex (shape : Shape start root format temporary index vlog) {node : Option Node} (less : Shrunk index node) :
    Shape start (Function.update root indexDirectoryName node) format temporary node vlog :=
  ⟨shape.atFormat,shape.atTemporary,Function.update_self _ _ _,shape.atVlog,shape.shrunk.trans less,
    shape.elsewhere (by simp [managedNames]) node,shape.marker⟩

omit [Crc32c] in
theorem Shape.unsetTemporary (shape : Shape start root format temporary index vlog) :
    Shape start (Function.update root formatTempFileName none) format none index vlog :=
  ⟨shape.atFormat,Function.update_self _ _ _,shape.atIndex,shape.atVlog,shape.shrunk,
    shape.elsewhere (by simp [managedNames]) none,.inl rfl⟩

omit [Crc32c] in
theorem Shape.setFormat (shape : Shape start root format temporary index vlog) (node : Option Node) :
    Shape start (Function.update root formatFileName node) node temporary index vlog :=
  ⟨Function.update_self _ _ _,shape.atTemporary,shape.atIndex,shape.atVlog,shape.shrunk,
    shape.elsewhere (by simp [managedNames]) node,shape.marker⟩

end shapes

-- A root from which every managed entry is gone.
def Cleared (start disk : Disk) : Prop := ∃ root, Ruin start disk root ∧ Shape start root none none none none

theorem removeMarkers_delivers {hasFormat hasTemporary : Bool} {format temporary : Option Node}
    (ruin : Ruin start disk root) (shape : Shape start root format temporary none none)
    (takes : Destroyable fjall format temporary none none) (same : hasFormat = format.isSome)
    (also : hasTemporary = temporary.isSome) :
    Delivers (do
      if hasTemporary then removeDestroyFormat true
      if hasFormat then removeDestroyFormat false) disk (fun _ after => Cleared start after) (Cut fjall start) := by
  subst same also
  cases takes with
  | nothing => exact ⟨root,ruin,shape⟩
  | marked decoded =>
    simp only [Option.isSome_none,Option.isSome_some,Bool.false_eq_true,↓reduceIte]
    refine removeDestroyFormat_delivers ruin shape.atFormat (shape.left (.takes (.marked decoded)))
      ((shape.setFormat none).left (.takes .nothing)) ?_
    intro after ruin
    exact ⟨_,ruin,shape.setFormat none⟩
  | temporaryMarked decoded =>
    simp only [Option.isSome_none,Option.isSome_some,Bool.false_eq_true,↓reduceIte]
    rw [delivers_bind]
    refine removeDestroyFormat_delivers ruin shape.atTemporary (shape.left (.takes (.temporaryMarked decoded (.inl rfl))))
      (shape.unsetTemporary.left (.takes .nothing)) ?_
    intro after ruin
    exact ⟨_,ruin,shape.unsetTemporary⟩

section steps
variable {format temporary index vlog : Option Node}

theorem Destroyable.withoutIndex (takes : Destroyable fjall format temporary index none) :
    Destroyable fjall format temporary none none := by
  cases takes with
  | nothing => exact .nothing
  | started decoded => exact .marked decoded
  | marked decoded => exact .marked decoded
  | temporary decoded => exact .temporaryMarked decoded (.inl rfl)
  | temporaryMarked decoded vlog => exact .temporaryMarked decoded vlog

theorem Destroyable.withoutVlog (takes : Destroyable fjall format temporary index vlog) :
    Destroyable fjall format temporary index none := by
  cases takes with
  | nothing => exact .nothing
  | final decoded removable => exact .started decoded removable
  | started decoded removable => exact .started decoded removable
  | marked decoded => exact .marked decoded
  | temporary decoded removable left => exact .temporary decoded removable left (.inl rfl)
  | temporaryMarked decoded => exact .temporaryMarked decoded (.inl rfl)

theorem inventoryVlog_part {metadata : FormatMetadata} {entries rest : List (Bytes × Node)} {found : List VLogInventoryEntry}
    (listed : inventoryVlogForDestroy metadata entries = .ok found) (part : ∀ entry ∈ rest, entry ∈ entries) :
    ∃ fewer, inventoryVlogForDestroy metadata rest = .ok fewer := by
  simp only [inventoryVlogForDestroy,bind_ok] at listed
  obtain ⟨mapped,each,-⟩ := listed
  have turn : ∀ entry ∈ entries, ∃ file, destroyVlogEntry metadata entry = .ok file := by
    clear part
    induction entries generalizing mapped with
    | nil => exact fun _ member => absurd member List.not_mem_nil
    | cons first later ih =>
      obtain ⟨file,files,here,there,rfl⟩ := mapM_ok_cons each
      intro entry member
      rcases List.mem_cons.mp member with rfl | member
      · exact ⟨file,here⟩
      · exact ih files there entry member
  have again : ∃ files, rest.mapM (destroyVlogEntry metadata) = .ok files := by
    induction rest with
    | nil => exact ⟨[],rfl⟩
    | cons first later ih =>
      obtain ⟨file,here⟩ := turn first (part first List.mem_cons_self)
      obtain ⟨files,there⟩ := ih (fun entry member => part entry (List.mem_cons_of_mem _ member))
      exact ⟨file :: files,by rw [List.mapM_cons,here,ok_bind,there,ok_bind,pure_ok]⟩
  obtain ⟨files,again⟩ := again
  exact ⟨_,by rw [inventoryVlogForDestroy,again,ok_bind,pure_ok]⟩

theorem Destroyable.fewerFiles {files rest : List (Bytes × Node)}
    (takes : Destroyable fjall format temporary index (some (.directory files))) (part : ∀ entry ∈ rest, entry ∈ files) :
    Destroyable fjall format temporary index (some (.directory rest)) := by
  have bare : some (Node.directory files) = none ∨ some (Node.directory files) = some (.directory []) →
      some (Node.directory rest) = none ∨ some (Node.directory rest) = some (.directory []) := by
    rintro (none | same)
    · cases none
    · obtain rfl := Node.directory.inj (Option.some.inj same)
      obtain rfl : rest = [] := List.eq_nil_iff_forall_not_mem.mpr (fun entry member => List.not_mem_nil (part entry member))
      exact .inr rfl
  cases takes with
  | final decoded removable filled opened identity listed =>
    obtain ⟨fewer,again⟩ := inventoryVlog_part listed part
    exact .final decoded removable filled opened identity again
  | temporary decoded removable left vlog =>
    exact .temporary decoded removable left (bare vlog)
  | temporaryMarked decoded vlog =>
    exact .temporaryMarked decoded (bare vlog)

-- The index goes, entry by entry, and then the marker. FORMAT allows a next run whatever is left of the index.
theorem removeRest_delivers {hasFormat hasTemporary hasIndex : Bool} (ruin : Ruin start disk root)
    (shape : Shape start root format temporary index none) (takes : Destroyable fjall format temporary index none)
    (same : hasFormat = format.isSome) (also : hasTemporary = temporary.isSome) (there : hasIndex = index.isSome) :
    Delivers (do
      if hasIndex then orDestroy .indexDirectory .removeTree (removeDirectoryTreeTracked indexDirectoryName)
      orDestroy .indexDirectory .syncDirectory syncRoot
      if hasTemporary then removeDestroyFormat true
      if hasFormat then removeDestroyFormat false) disk (fun _ after => Cleared start after) (Cut fjall start) := by
  have whole := shape.left (.takes takes)
  have rest : ∀ reached now, Ruin start reached now → Shape start now format temporary none none →
      Delivers (do
        orDestroy .indexDirectory .syncDirectory syncRoot
        if hasTemporary then removeDestroyFormat true
        if hasFormat then removeDestroyFormat false) reached (fun _ after => Cleared start after) (Cut fjall start) := by
    intro reached now ruin shape
    rw [delivers_bind]
    refine reported (ruin.request (shape.left (.takes takes.withoutIndex)) ?_)
    intro after ruin
    exact removeMarkers_delivers ruin shape takes.withoutIndex same also
  subst there
  cases index with
  | none => exact rest disk root ruin shape
  | some node =>
    simp only [Option.isSome_some,↓reduceIte]
    rw [delivers_bind]
    cases takes with
    | started decoded removable =>
      refine reported (removeIndex_delivers ruin shape.atIndex removable whole ?_ ?_)
      · intro left part still
        exact (shape.setIndex (.part rfl part)).left (.takes (.started decoded still))
      · intro after ruin
        exact rest after _ ruin (shape.setIndex .gone)
    | temporary decoded removable =>
      refine reported (removeIndex_delivers ruin shape.atIndex removable whole ?_ ?_)
      · intro left part still
        have severed : Remains fjall _ none (some (.file _)) (some (.directory left)) none := .severed decoded rfl part still
        exact (shape.setIndex (.part rfl part)).left (severed.since shape.shrunk)
      · intro after ruin
        exact rest after _ ruin (shape.setIndex .gone)

theorem removeInventory_delivers {inventory : DestroyInventory} (ruin : Ruin start disk root)
    (shape : Shape start root format temporary index vlog)
    (inventoried : Inventoried fjall format temporary index vlog inventory) :
    Delivers (removeInventory inventory) disk (fun _ after => Cleared start after) (Cut fjall start) := by
  have takes := inventoried.takes
  have whole := shape.left (.takes takes)
  rw [removeInventory]
  have rest : ∀ reached now, Ruin start reached now → Shape start now format temporary index none →
      Delivers (do
        if inventory.indexPresent then
          orDestroy .indexDirectory .removeTree (removeDirectoryTreeTracked indexDirectoryName)
        orDestroy .indexDirectory .syncDirectory syncRoot
        if inventory.temporaryFormat.isSome then removeDestroyFormat true
        if inventory.format.isSome then removeDestroyFormat false) reached (fun _ after => Cleared start after)
        (Cut fjall start) := fun reached now ruin shape =>
    removeRest_delivers ruin shape takes.withoutVlog inventoried.hasFormat inventoried.hasTemporary inventoried.hasIndex
  obtain ⟨-,-,-,-,found,vlogRead⟩ := takes.read
  cases vlogRead with
  | missing =>
    rw [inventoried.hasVlog,if_neg (by simp)]
    cases present : inventory.indexPresent with
    | true =>
      rw [present] at rest
      simp only [↓reduceIte]
      rw [delivers_bind]
      refine reported (ruin.request whole ?_)
      intro after ruin
      exact rest after root ruin shape
    | false =>
      rw [present] at rest
      exact rest disk root ruin shape
  | @directory files =>
    rw [inventoried.hasVlog,if_pos (by simp),delivers_bind]
    refine removeVlog_delivers ruin shape.atVlog ?_ ?_ (inventoried.files files rfl) ?_
    · intro fewer part
      exact (shape.setVlog _).left (.takes (takes.fewerFiles part))
    · exact (shape.setVlog none).left (.takes takes.withoutVlog)
    · intro after ruin
      exact rest after _ ruin (shape.setVlog none)

end steps

end removal

end ExpirKv
