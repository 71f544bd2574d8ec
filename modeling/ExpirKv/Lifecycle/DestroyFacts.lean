import ExpirKv.Lifecycle.Destroy
import ExpirKv.Lifecycle.InitializeFacts

namespace ExpirKv
open RootLock

theorem delivers_orDestroy {α : Type} {x : Eff Disk StorageError α} {object : ManagedObject} {stage : DestroyStage}
    {disk : Disk} {post : α → Disk → Prop} {fail : DestroyError → Disk → Prop} :
    Delivers (orDestroy object stage x) disk post fail ↔ Delivers x disk post
      (fun error after => fail (destroyFailure error object stage after.calls.partiallyDeleted) after) := by
  rw [orDestroy,delivers_bind,delivers_attempt]
  rfl

section layouts
variable [Crc32c]

-- What the inventory asks of the index beside FORMAT.tmp.
def Interrupted (fjall : Fjall) (format : FormatMetadata) (entries : List (Bytes × Node)) : Prop :=
  entries = [] ∨ ∃ index, fjall.verifies entries = .ok index ∧ validateInterruptedIndex index format = .ok ()

-- The layouts of FORMAT, FORMAT.tmp, index and vlog that Destroy takes: nothing is left, a whole database
-- whose identity stands in the index, FORMAT without a vlog, or what an initialization left.
inductive Destroyable (fjall : Fjall) : Option Node → Option Node → Option Node → Option Node → Prop
  | nothing : Destroyable fjall none none none none
  | final {encoded : Bytes} {format : FormatMetadata} {entries files : List (Bytes × Node)} {index : Index}
      {found : List VLogInventoryEntry} : FormatMetadata.decode encoded = .ok format →
      everyEntry isRemovable entries = true → entries ≠ [] → fjall.verifies entries = .ok index →
      validateFinalIdentity index format = .ok () → inventoryVlogForDestroy format files = .ok found →
      Destroyable fjall (some (.file encoded)) none (some (.directory entries)) (some (.directory files))
  | started {encoded : Bytes} {format : FormatMetadata} {entries : List (Bytes × Node)} :
      FormatMetadata.decode encoded = .ok format → everyEntry isRemovable entries = true →
      Destroyable fjall (some (.file encoded)) none (some (.directory entries)) none
  | marked {encoded : Bytes} {format : FormatMetadata} : FormatMetadata.decode encoded = .ok format →
      Destroyable fjall (some (.file encoded)) none none none
  | temporary {encoded : Bytes} {format : FormatMetadata} {entries : List (Bytes × Node)} {vlog : Option Node} :
      FormatMetadata.decode encoded = .ok format → everyEntry isRemovable entries = true →
      Interrupted fjall format entries → vlog = none ∨ vlog = some (.directory []) →
      Destroyable fjall none (some (.file encoded)) (some (.directory entries)) vlog
  | temporaryMarked {encoded : Bytes} {format : FormatMetadata} {vlog : Option Node} :
      FormatMetadata.decode encoded = .ok format → vlog = none ∨ vlog = some (.directory []) →
      Destroyable fjall none (some (.file encoded)) none vlog

-- The layout of a disk.
def Takeable (fjall : Fjall) (disk : Disk) : Prop :=
  Destroyable fjall (disk.root formatFileName) (disk.root formatTempFileName) (disk.root indexDirectoryName)
    (disk.root vlogDirectoryName)

end layouts

section reading
variable {start disk : Disk} {good : Prop}

-- Nothing but calls happened.
structure Reads (start disk : Disk) : Prop where
  present : disk.present = start.present
  root : disk.root = start.root
  calls : Steady start.calls disk.calls

theorem Reads.refl (disk : Disk) : Reads disk disk := ⟨rfl,rfl,.refl _⟩

-- The inventory stopped: nothing was removed and the error says so. An acceptable layout makes it stop
-- only if a call failed.
structure Refused (start : Disk) (good : Prop) (error : DestroyError) (after : Disk) : Prop where
  reads : Reads start after
  flag : error.failure.partiallyDeleted = false
  reason : ¬(start.calls.script = [] ∧ good)

theorem Reads.request {post : Unit → Disk → Prop} (reads : Reads start disk)
    (next : ∀ after, Reads start after → post () after) :
    Delivers request disk post (fun _ after => Reads start after ∧ start.calls.script ≠ []) := by
  refine delivers_request ?_ ?_
  · intro calls steady
    exact next _ ⟨reads.present,reads.root,reads.calls.trans steady⟩
  · intro error calls steady failed
    exact ⟨⟨reads.present,reads.root,reads.calls.trans steady⟩,fun fine => failed (reads.calls.fine fine)⟩

-- A call of the inventory, reported with the flag as it stands.
theorem Reads.asks {α : Type} {rest : Eff Disk StorageError α} {object : ManagedObject} {stage : DestroyStage}
    {post : α → Disk → Prop} (unset : start.calls.partiallyDeleted = false) (reads : Reads start disk)
    (next : ∀ after, Reads start after →
      Delivers rest after post (fun _ final => Reads start final ∧ ¬(start.calls.script = [] ∧ good))) :
    Delivers (orDestroy object stage (do
      RootLock.request
      rest)) disk post (Refused start good) := by
  rw [delivers_orDestroy,delivers_bind]
  refine (reads.request (fun after still => ?_)).mono (fun _ _ holds => holds) ?_
  · refine (next after still).mono (fun _ _ holds => holds) ?_
    rintro error final ⟨last,reason⟩
    exact ⟨last,last.calls.flag.trans unset,reason⟩
  · rintro error final ⟨last,failed⟩
    exact ⟨last,last.calls.flag.trans unset,fun both => failed both.1⟩

theorem Reads.inspect {object : ManagedObject} {name : String} {post : ManagedEntryKind → Disk → Prop}
    (unset : start.calls.partiallyDeleted = false) (reads : Reads start disk)
    (next : ∀ after, Reads start after → post (classify (start.root name)) after) :
    Delivers (orDestroy object .inventory (inspectChild name)) disk post (Refused start good) := by
  refine reads.asks unset ?_
  intro after still
  rw [delivers_bind,delivers_get,still.root]
  exact next after still

theorem Reads.directory {object : ManagedObject} {name : String} {entries : List (Bytes × Node)}
    {post : List (Bytes × Node) → Disk → Prop} (unset : start.calls.partiallyDeleted = false) (reads : Reads start disk)
    (found : start.root name = some (.directory entries)) (next : ∀ after, Reads start after → post entries after) :
    Delivers (orDestroy object .inventory (readDirectory name)) disk post (Refused start good) := by
  refine reads.asks unset ?_
  intro after still
  rw [delivers_bind,delivers_get,still.root,found]
  exact next after still

inductive FormatRead : Option Node → Option FormatMetadata → Prop
  | missing : FormatRead none none
  | file {encoded : Bytes} {format : FormatMetadata} : FormatMetadata.decode encoded = .ok format →
      FormatRead (some (.file encoded)) (some format)

theorem decode_length {encoded : Bytes} {format : FormatMetadata} (read : FormatMetadata.decode encoded = .ok format) :
    encoded.length = 36 := by
  simp only [FormatMetadata.decode,formatEncodedLen,bind_ok,exists_unit,rejectIf_ok,not_not,ne_eq] at read
  exact read.1

theorem Reads.format {object : ManagedObject} {temporary : Bool} {node : Option Node}
    {post : Option FormatMetadata → Disk → Prop} (unset : start.calls.partiallyDeleted = false) (reads : Reads start disk)
    (found : start.root (if temporary then formatTempFileName else formatFileName) = node)
    (fits : good → ∃ format, FormatRead node format)
    (next : ∀ after format, Reads start after → FormatRead node format → post format after) :
    Delivers (orDestroy object .inventory (readFormat temporary)) disk post (Refused start good) := by
  refine reads.asks unset ?_
  intro after still
  have refused : (∀ format, ¬FormatRead node format) → ¬(start.calls.script = [] ∧ good) := by
    rintro never ⟨-,holds⟩
    obtain ⟨format,read⟩ := fits holds
    exact never format read
  rw [delivers_bind,delivers_get,still.root,found]
  cases node with
  | none => exact next after none still .missing
  | some node =>
    cases node with
    | file encoded =>
      simp only [delivers_bind,delivers_lift,delivers_pure]
      refine ⟨fun _ _ => ⟨?_,?_⟩,?_⟩
      · intro format read
        exact next after (some format) still (.file read)
      · intro error failed
        refine ⟨still,refused ?_⟩
        intro format read
        cases read with
        | file decoded => rw [decoded] at failed; cases failed
      · intro error failed
        refine ⟨still,refused ?_⟩
        intro format read
        cases read with
        | file decoded =>
          rw [rejectIf_false (not_not.mpr (decode_length decoded))] at failed
          cases failed
    | directory entries => exact ⟨still,refused (fun _ read => by cases read)⟩
    | symlink => exact ⟨still,refused (fun _ read => by cases read)⟩
    | other => exact ⟨still,refused (fun _ read => by cases read)⟩

end reading

section inventory
variable [Crc32c] {fjall : Fjall} {start disk : Disk} {good : Prop}

omit [Crc32c] in
theorem verifyIndex_delivers {entries : List (Bytes × Node)} {check : Index → Result Unit} {allow : Bool}
    {post : Unit → Disk → Prop} (reads : Reads start disk)
    (fits : good → allow = true ∨ ∃ index, fjall.verifies entries = .ok index ∧ check index = .ok ())
    (next : ∀ after, Reads start after →
      (allow = true ∨ ∃ index, fjall.verifies entries = .ok index ∧ check index = .ok ()) → post () after) :
    Delivers (do
      let validation ← (verifyIndex fjall entries check).attempt
      settleVerification allow validation) disk post (Refused start good) := by
  -- A failed verification counts where no partly deleted index is allowed.
  have failing : ∀ error after, Reads start after →
      (start.calls.script = [] → ¬∃ index, fjall.verifies entries = .ok index ∧ check index = .ok ()) →
      Delivers (settleVerification allow (.error error)) after post (Refused start good) := by
    intro error after still never
    cases allow with
    | true => exact next after still (.inl rfl)
    | false =>
      refine ⟨still,rfl,?_⟩
      rintro ⟨fine,holds⟩
      rcases fits holds with wrong | verified
      · cases wrong
      · exact never fine verified
  rw [delivers_bind,delivers_attempt,verifyIndex,delivers_bind]
  refine (reads.request (fun after still => ?_)).mono (fun _ _ holds => holds) ?_
  · simp only [delivers_bind,delivers_lift]
    refine ⟨?_,?_⟩
    · intro index opened
      refine ⟨?_,?_⟩
      · intro _ checked
        exact next after still (.inr ⟨index,opened,checked⟩)
      · intro error failed
        refine failing error after still ?_
        rintro - ⟨other,again,checked⟩
        rw [opened] at again
        cases again
        rw [checked] at failed
        cases failed
    · intro error failed
      refine failing error after still ?_
      rintro - ⟨other,again,-⟩
      rw [again] at failed
      cases failed
  · rintro error after ⟨still,failed⟩
    exact failing error after still (fun fine => absurd fine failed)

-- What the inventory asks of an index directory.
def IndexTaken (fjall : Fjall) (format temporaryFormat : Option FormatMetadata) (allow : Bool)
    (entries : List (Bytes × Node)) : Prop :=
  everyEntry isRemovable entries = true ∧
    match format,temporaryFormat with
    | some format,_ => allow = true ∨ entries ≠ [] ∧
      ∃ index, fjall.verifies entries = .ok index ∧ validateFinalIdentity index format = .ok ()
    | none,some temporary => allow = true ∨ Interrupted fjall temporary entries
    | none,none => True

theorem validateDestroyIndex_delivers {format temporaryFormat : Option FormatMetadata} {allow : Bool}
    {entries : List (Bytes × Node)} {post : Unit → Disk → Prop} (unset : start.calls.partiallyDeleted = false)
    (reads : Reads start disk) (found : start.root indexDirectoryName = some (.directory entries))
    (fits : good → IndexTaken fjall format temporaryFormat allow entries)
    (next : ∀ after, Reads start after → IndexTaken fjall format temporaryFormat allow entries → post () after) :
    Delivers (validateDestroyIndex fjall format temporaryFormat allow) disk post (Refused start good) := by
  rw [validateDestroyIndex,delivers_bind]
  refine reads.directory unset found ?_
  intro after still
  cases removable : everyEntry isRemovable entries with
  | false =>
    simp only [↓reduceIte,delivers_bind,delivers_throw]
    refine ⟨still,rfl,?_⟩
    rintro ⟨-,holds⟩
    rw [(fits holds).1] at removable
    cases removable
  | true =>
    simp only [Bool.true_eq_false,↓reduceIte]
    cases format with
    | some format =>
      simp only
      by_cases bare : entries = []
      · cases allow with
        | true =>
          rw [if_pos ⟨bare,rfl⟩]
          exact next after still ⟨removable,.inl rfl⟩
        | false =>
          rw [if_neg (by simp),if_pos bare]
          refine ⟨still,rfl,?_⟩
          rintro ⟨-,holds⟩
          rcases (fits holds).2 with wrong | ⟨filled,-⟩
          · cases wrong
          · exact filled bare
      · rw [if_neg (fun both => bare both.1),if_neg bare]
        refine verifyIndex_delivers still ?_ ?_
        · intro holds
          exact (fits holds).2.imp_right (fun both => both.2)
        · intro final last verified
          exact next final last ⟨removable,verified.imp_right (fun index => ⟨bare,index⟩)⟩
    | none =>
      cases temporaryFormat with
      | none => exact next after still ⟨removable,trivial⟩
      | some temporary =>
        simp only
        by_cases bare : entries = []
        · rw [if_pos bare]
          exact next after still ⟨removable,.inr (.inl bare)⟩
        · rw [if_neg bare]
          refine verifyIndex_delivers still ?_ ?_
          · intro holds
            exact (fits holds).2.imp_right (fun left => left.resolve_left bare)
          · intro final last verified
            exact next final last ⟨removable,verified.imp_right .inr⟩

inductive DirectoryRead : Option Node → Bool → Prop
  | missing : DirectoryRead none false
  | directory {entries : List (Bytes × Node)} : DirectoryRead (some (.directory entries)) true

omit [Crc32c] in
theorem fileKind_delivers {object : ManagedObject} {node : Option Node} {post : Unit → Disk → Prop}
    (reads : Reads start disk) (fits : good → ∃ format, FormatRead node format) (next : post () disk) :
    Delivers (Eff.lift (validateDestroyFileKind (classify node) object)) disk post (Refused start good) := by
  have refused : ∀ error, (∀ format, ¬FormatRead node format) → error.failure.partiallyDeleted = false →
      Refused start good error disk := by
    intro error never flag
    refine ⟨reads,flag,?_⟩
    rintro ⟨-,holds⟩
    obtain ⟨format,read⟩ := fits holds
    exact never format read
  cases node with
  | none => exact next
  | some node =>
    cases node with
    | file contents => exact next
    | directory entries => exact refused _ (fun _ read => by cases read) rfl
    | symlink => exact refused _ (fun _ read => by cases read) rfl
    | other => exact refused _ (fun _ read => by cases read) rfl

omit [Crc32c] in
theorem directoryKind_delivers {object : ManagedObject} {node : Option Node} {post : Bool → Disk → Prop}
    (reads : Reads start disk) (fits : good → ∃ found, DirectoryRead node found)
    (next : ∀ found, DirectoryRead node found → post found disk) :
    Delivers (Eff.lift (validateDestroyDirectoryKind (classify node) object)) disk post (Refused start good) := by
  have refused : ∀ error, (∀ found, ¬DirectoryRead node found) → error.failure.partiallyDeleted = false →
      Refused start good error disk := by
    intro error never flag
    refine ⟨reads,flag,?_⟩
    rintro ⟨-,holds⟩
    obtain ⟨found,read⟩ := fits holds
    exact never found read
  cases node with
  | none => exact next _ .missing
  | some node =>
    cases node with
    | directory entries => exact next _ .directory
    | file contents => exact refused _ (fun _ read => by cases read) rfl
    | symlink => exact refused _ (fun _ read => by cases read) rfl
    | other => exact refused _ (fun _ read => by cases read) rfl

-- The files in the order of the inventory are the entries of the directory.
def Listed (entries : List (Bytes × Node)) (files : List VLogInventoryEntry) : Prop :=
  (files.map (fun file => [0x44] ++ paddedDigits 6 file.fileId ++ vlogSuffix)).Perm (entries.map Prod.fst)

theorem destroyVlogEntry_named {format : FormatMetadata} {entry : Bytes × Node} {file : VLogInventoryEntry}
    (found : destroyVlogEntry format entry = .ok file) : entry.1 = [0x44] ++ paddedDigits 6 file.fileId ++ vlogSuffix := by
  simp only [destroyVlogEntry,bind_ok,orError_ok] at found
  obtain ⟨fileId,parsed,found⟩ := found
  cases node : entry.2 with
  | file contents =>
    rw [node] at found
    simp only [destroyVlogFile,bind_ok,exists_unit,pure_ok,Except.ok.injEq] at found
    obtain ⟨-,-,-,-,-,-,-,-,-,-,rfl⟩ := found
    have named := parseDestroyVlogName_some.mp parsed
    simp only [vlogFileName,bind_ok,exists_unit,pure_ok,Except.ok.injEq] at named
    exact named.2.symm
  | directory entries => rw [node] at found; cases found
  | symlink => rw [node] at found; cases found
  | other => rw [node] at found; cases found

theorem inventoryVlog_listed {format : FormatMetadata} {entries : List (Bytes × Node)} {files : List VLogInventoryEntry}
    (found : inventoryVlogForDestroy format entries = .ok files) : Listed entries files := by
  simp only [inventoryVlogForDestroy,bind_ok,pure_ok,Except.ok.injEq] at found
  obtain ⟨mapped,each,rfl⟩ := found
  have names : mapped.map (fun file => [0x44] ++ paddedDigits 6 file.fileId ++ vlogSuffix) = entries.map Prod.fst := by
    induction entries generalizing mapped with
    | nil => rw [mapM_ok_nil each]; rfl
    | cons entry rest ih =>
      obtain ⟨first,later,here,there,rfl⟩ := mapM_ok_cons each
      rw [List.map_cons,List.map_cons,ih later there,destroyVlogEntry_named here]
  rw [Listed,←names]
  exact (List.mergeSort_perm mapped _).map _

theorem inventoryVlog_flag {format : FormatMetadata} {entries : List (Bytes × Node)} {error : DestroyError}
    (failed : inventoryVlogForDestroy format entries = .error error) : error.failure.partiallyDeleted = false := by
  have turn : ∀ entry, FailsWith (fun error => error.failure.partiallyDeleted = false) (destroyVlogEntry format entry) := by
    intro entry
    simp only [destroyVlogEntry,failsWith_bind,failsWith_orError]
    refine ⟨fun _ => rfl,fun fileId _ => ?_⟩
    cases entry.2 with
    | file contents =>
      simp only [destroyVlogFile,failsWith_bind,failsWith_orError,failsWith_rejectIf,failsWith_mapError]
      exact ⟨fun _ => rfl,fun _ _ => ⟨fun _ => rfl,fun _ _ => ⟨fun _ _ => rfl,fun _ _ => ⟨fun _ => rfl,fun _ _ =>
        ⟨fun _ _ => rfl,fun _ _ => ⟨fun _ => rfl,fun _ _ => failsWith_ok _⟩⟩⟩⟩⟩⟩
    | directory entries => exact failsWith_error.mpr rfl
    | symlink => exact failsWith_error.mpr rfl
    | other => exact failsWith_error.mpr rfl
  have whole : FailsWith (fun error => error.failure.partiallyDeleted = false) (inventoryVlogForDestroy format entries) := by
    simp only [inventoryVlogForDestroy,failsWith_bind]
    refine ⟨?_,fun _ _ => failsWith_ok _⟩
    clear failed
    induction entries with
    | nil => exact failsWith_ok _
    | cons entry rest ih =>
      rw [List.mapM_cons]
      simp only [failsWith_bind]
      exact ⟨turn entry,fun _ _ => ⟨ih,fun _ _ => failsWith_ok _⟩⟩
  exact whole error failed

-- The inventory of an acceptable layout.
structure Inventoried (fjall : Fjall) (format temporary index vlog : Option Node) (inventory : DestroyInventory) :
    Prop where
  takes : Destroyable fjall format temporary index vlog
  hasFormat : inventory.format.isSome = format.isSome
  hasTemporary : inventory.temporaryFormat.isSome = temporary.isSome
  hasIndex : inventory.indexPresent = index.isSome
  hasVlog : inventory.vlogPresent = vlog.isSome
  files : ∀ entries, vlog = some (.directory entries) → Listed entries inventory.vlogFiles

theorem Destroyable.read {format temporary index vlog : Option Node} (takes : Destroyable fjall format temporary index vlog) :
    (∃ metadata, FormatRead format metadata) ∧ (∃ metadata, FormatRead temporary metadata) ∧
      (format = none ∨ temporary = none) ∧ (∃ found, DirectoryRead index found) ∧ ∃ found, DirectoryRead vlog found := by
  cases takes with
  | nothing => exact ⟨⟨_,.missing⟩,⟨_,.missing⟩,.inl rfl,⟨_,.missing⟩,⟨_,.missing⟩⟩
  | final read => exact ⟨⟨_,.file read⟩,⟨_,.missing⟩,.inr rfl,⟨_,.directory⟩,⟨_,.directory⟩⟩
  | started read => exact ⟨⟨_,.file read⟩,⟨_,.missing⟩,.inr rfl,⟨_,.directory⟩,⟨_,.missing⟩⟩
  | marked read => exact ⟨⟨_,.file read⟩,⟨_,.missing⟩,.inr rfl,⟨_,.missing⟩,⟨_,.missing⟩⟩
  | temporary read removable left vlog =>
    refine ⟨⟨_,.missing⟩,⟨_,.file read⟩,.inl rfl,⟨_,.directory⟩,?_⟩
    rcases vlog with rfl | rfl
    · exact ⟨_,.missing⟩
    · exact ⟨_,.directory⟩
  | temporaryMarked read vlog =>
    refine ⟨⟨_,.missing⟩,⟨_,.file read⟩,.inl rfl,⟨_,.missing⟩,?_⟩
    rcases vlog with rfl | rfl
    · exact ⟨_,.missing⟩
    · exact ⟨_,.directory⟩

-- The branches of the inventory once the two markers are read, by marker.
theorem inventoryFinal_delivers {encoded : Bytes} {format : FormatMetadata} {index vlog : Option Node}
    {indexPresent vlogPresent : Bool} (unset : start.calls.partiallyDeleted = false) (reads : Reads start disk)
    (indexFound : start.root indexDirectoryName = index) (vlogFound : start.root vlogDirectoryName = vlog)
    (decoded : FormatMetadata.decode encoded = .ok format) (indexRead : DirectoryRead index indexPresent)
    (vlogRead : DirectoryRead vlog vlogPresent) :
    Delivers (do
      if indexPresent then validateDestroyIndex fjall (some format) none ((some format).isSome && !vlogPresent)
      else if (some format).isSome ∧ vlogPresent then
        throw (destroyCorruptionFailure .databaseIdentity .inventory false)
      let vlogFiles ← if vlogPresent then destroyVlogFiles (some format) none else pure []
      return (⟨some format,none,indexPresent,vlogPresent,vlogFiles⟩ : DestroyInventory)) disk
      (fun inventory after => Reads start after ∧ Inventoried fjall (some (.file encoded)) none index vlog inventory)
      (Refused start (Destroyable fjall (some (.file encoded)) none index vlog)) := by
  cases vlogRead with
  | missing =>
    cases indexRead with
    | missing =>
      refine ⟨reads,.marked decoded,rfl,rfl,rfl,rfl,?_⟩
      intro entries found
      cases found
    | @directory entries =>
      simp only [↓reduceIte,Bool.false_eq_true,delivers_bind,delivers_pure]
      refine validateDestroyIndex_delivers unset reads indexFound ?_ ?_
      · intro takes
        cases takes with
        | started _ removable => exact ⟨removable,.inl rfl⟩
      · intro after still taken
        refine ⟨still,.started decoded taken.1,rfl,rfl,rfl,rfl,?_⟩
        intro entries found
        cases found
  | @directory files =>
    cases indexRead with
    | missing =>
      refine ⟨reads,rfl,?_⟩
      rintro ⟨-,⟨⟩⟩
    | @directory entries =>
      simp only [↓reduceIte,delivers_bind,delivers_pure]
      refine validateDestroyIndex_delivers unset reads indexFound ?_ ?_
      · intro takes
        cases takes with
        | final other removable filled opened identity =>
          rw [decoded] at other
          cases other
          exact ⟨removable,.inr ⟨filled,_,opened,identity⟩⟩
      · intro after still taken
        rw [destroyVlogFiles,delivers_bind]
        refine still.directory unset vlogFound ?_
        intro final last
        simp only [delivers_lift]
        refine ⟨?_,?_⟩
        · intro found listed
          rcases taken.2 with wrong | ⟨filled,opened,verified,identity⟩
          · cases wrong
          refine ⟨last,.final decoded taken.1 filled verified identity listed,rfl,rfl,rfl,rfl,?_⟩
          rintro _ ⟨⟩
          exact inventoryVlog_listed listed
        · intro error failed
          refine ⟨last,inventoryVlog_flag failed,?_⟩
          rintro ⟨-,takes⟩
          cases takes with
          | final other _ _ _ _ listed =>
            rw [decoded] at other
            cases other
            rw [listed] at failed
            cases failed

theorem inventoryTemporary_delivers {encoded : Bytes} {temporary : FormatMetadata} {index vlog : Option Node}
    {indexPresent vlogPresent : Bool} (unset : start.calls.partiallyDeleted = false) (reads : Reads start disk)
    (indexFound : start.root indexDirectoryName = index) (vlogFound : start.root vlogDirectoryName = vlog)
    (decoded : FormatMetadata.decode encoded = .ok temporary) (indexRead : DirectoryRead index indexPresent)
    (vlogRead : DirectoryRead vlog vlogPresent) :
    Delivers (do
      if indexPresent then
        validateDestroyIndex fjall none (some temporary) ((none : Option FormatMetadata).isSome && !vlogPresent)
      else if (none : Option FormatMetadata).isSome ∧ vlogPresent then
        throw (destroyCorruptionFailure .databaseIdentity .inventory false)
      let vlogFiles ← if vlogPresent then destroyVlogFiles none (some temporary) else pure []
      return (⟨none,some temporary,indexPresent,vlogPresent,vlogFiles⟩ : DestroyInventory)) disk
      (fun inventory after => Reads start after ∧ Inventoried fjall none (some (.file encoded)) index vlog inventory)
      (Refused start (Destroyable fjall none (some (.file encoded)) index vlog)) := by
  -- The vlog of an interrupted initialization is empty.
  have rest : ∀ after, Reads start after →
      (∀ bare : vlog = none ∨ vlog = some (.directory []),
        Destroyable fjall none (some (.file encoded)) index vlog) →
      Delivers (do
        let vlogFiles ← if vlogPresent then destroyVlogFiles none (some temporary) else pure []
        return (⟨none,some temporary,indexPresent,vlogPresent,vlogFiles⟩ : DestroyInventory)) after
        (fun inventory after => Reads start after ∧ Inventoried fjall none (some (.file encoded)) index vlog inventory)
        (Refused start (Destroyable fjall none (some (.file encoded)) index vlog)) := by
    intro after still takes
    cases vlogRead with
    | missing =>
      refine ⟨still,takes (.inl rfl),rfl,rfl,?_,rfl,?_⟩
      · cases indexRead <;> rfl
      · intro entries found
        cases found
    | @directory files =>
      simp only [↓reduceIte,delivers_bind,delivers_pure]
      rw [destroyVlogFiles,delivers_bind]
      refine still.directory unset vlogFound ?_
      intro final last
      by_cases bare : files = []
      · subst bare
        refine ⟨last,takes (.inr rfl),rfl,rfl,?_,rfl,?_⟩
        · cases indexRead <;> rfl
        · rintro _ ⟨⟩
          exact List.Perm.nil
      · simp only [ne_eq,bare,not_false_eq_true,↓reduceIte,delivers_throw]
        refine ⟨last,rfl,?_⟩
        rintro ⟨-,takes⟩
        cases takes with
        | temporary _ _ _ vlog =>
          rcases vlog with none | same
          · cases none
          · exact bare (Node.directory.inj (Option.some.inj same))
        | temporaryMarked _ vlog =>
          rcases vlog with none | same
          · cases none
          · exact bare (Node.directory.inj (Option.some.inj same))
  cases indexRead with
  | missing => exact rest disk reads (fun bare => .temporaryMarked decoded bare)
  | @directory entries =>
    rw [if_pos rfl,delivers_bind]
    refine validateDestroyIndex_delivers unset reads indexFound ?_ ?_
    · intro takes
      cases takes with
      | temporary other removable left =>
        rw [decoded] at other
        cases other
        exact ⟨removable,.inr left⟩
    · intro after still taken
      refine rest after still (fun bare => .temporary decoded taken.1 ?_ bare)
      rcases taken.2 with wrong | left
      · cases wrong
      · exact left

theorem inventoryForDestroy_delivers (unset : start.calls.partiallyDeleted = false) :
    Delivers (inventoryForDestroy fjall) start
      (fun inventory after => Reads start after ∧ Inventoried fjall (start.root formatFileName)
        (start.root formatTempFileName) (start.root indexDirectoryName) (start.root vlogDirectoryName) inventory)
      (Refused start (Takeable fjall start)) := by
  rw [inventoryForDestroy,delivers_bind]
  refine (Reads.refl start).inspect unset ?_
  intro disk reads
  rw [delivers_bind]
  refine reads.inspect unset ?_
  intro disk reads
  rw [delivers_bind]
  refine fileKind_delivers reads (fun takes => takes.read.1) ?_
  rw [delivers_bind]
  refine fileKind_delivers reads (fun takes => takes.read.2.1) ?_
  generalize formatFound : start.root formatFileName = format
  generalize temporaryFound : start.root formatTempFileName = temporary
  generalize indexFound : start.root indexDirectoryName = index
  generalize vlogFound : start.root vlogDirectoryName = vlog
  have layout : Takeable fjall start = Destroyable fjall format temporary index vlog := by
    rw [Takeable,formatFound,temporaryFound,indexFound,vlogFound]
  rw [layout]
  by_cases both : classify format ≠ .missing ∧ classify temporary ≠ .missing
  · rw [if_pos both,delivers_bind,delivers_throw]
    refine ⟨reads,rfl,?_⟩
    rintro ⟨-,takes⟩
    rcases takes.read.2.2.1 with rfl | rfl
    · exact both.1 rfl
    · exact both.2 rfl
  rw [if_neg both,delivers_bind]
  refine reads.format unset formatFound (fun takes => takes.read.1) ?_
  intro disk metadata reads formatRead
  rw [delivers_bind]
  refine reads.format unset temporaryFound (fun takes => takes.read.2.1) ?_
  intro disk temporaryMetadata reads temporaryRead
  rw [delivers_bind]
  refine reads.inspect unset ?_
  intro disk reads
  rw [delivers_bind]
  refine reads.inspect unset ?_
  intro disk reads
  rw [delivers_bind,indexFound]
  refine directoryKind_delivers reads (fun takes => takes.read.2.2.2.1) ?_
  intro indexPresent indexRead
  rw [delivers_bind,vlogFound]
  refine directoryKind_delivers reads (fun takes => takes.read.2.2.2.2) ?_
  intro vlogPresent vlogRead
  cases formatRead with
  | file decoded =>
    cases temporaryRead with
    | file other => exact absurd ⟨ManagedEntryKind.noConfusion,ManagedEntryKind.noConfusion⟩ both
    | missing =>
      rw [if_neg (fun wrong => (nomatch wrong.1))]
      exact inventoryFinal_delivers unset reads indexFound vlogFound decoded indexRead vlogRead
  | missing =>
    cases temporaryRead with
    | file decoded =>
      rw [if_neg (fun wrong => (nomatch wrong.2))]
      exact inventoryTemporary_delivers unset reads indexFound vlogFound decoded indexRead vlogRead
    | missing =>
      rw [if_pos ⟨rfl,rfl⟩]
      cases indexRead with
      | directory => exact ⟨reads,rfl,fun taken => (nomatch taken.2)⟩
      | missing =>
        cases vlogRead with
        | directory => exact ⟨reads,rfl,fun taken => (nomatch taken.2)⟩
        | missing =>
          refine ⟨reads,.nothing,rfl,rfl,rfl,rfl,?_⟩
          intro entries found
          cases found

end inventory

end ExpirKv
