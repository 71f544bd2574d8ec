import ExpirKv.Recovery.Opening

namespace ExpirKv
open VLogGeometry Storage

section registering
variable {storage : Storage}

theorem registerFile_delivers {fileId : Nat} (named : fileId ≤ 999999) :
    Delivers (register fileId) storage
      (fun _ after => Framed storage after ∧ after.vlog.files = storage.vlog.files ∧
        after.vlog.catalog = storage.vlog.catalog.insert fileId)
      (fun _ after => storage.script ≠ [] ∧ Still storage after) := by
  unfold register
  rw [if_neg (by simp only [maxVlogFileId]; omega)]
  refine (perform_harmless (fun _ => rfl) (fun _ => rfl) (fun _ => rfl)).mapError.bind (.refl storage) ?_
    (fun _ _ some still => ⟨some,still⟩)
  intro _ reached _ still
  have framed := still.framed
  exact (delivers_modify _).mpr ⟨⟨framed.index,framed.databaseUuid,framed.geometry,framed.answered⟩,
    by rw [still.vlog],by rw [still.vlog]⟩

-- Every file of the inventory is entered; no file changes.
theorem registerInventory_delivers {entries : List VLogInventoryEntry} (listed : ∀ entry ∈ entries,
      entry.fileId ≤ 999999 ∧ ∃ contents, storage.vlog.files[entry.fileId]? = some contents ∧ contents.length = entry.len) :
    Delivers (registerInventory ⟨entries⟩) storage
      (fun _ after => Framed storage after ∧ after.vlog.files = storage.vlog.files ∧
        ∀ fileId, fileId ∈ after.vlog.catalog ↔
          fileId ∈ storage.vlog.catalog ∨ fileId ∈ entries.map VLogInventoryEntry.fileId)
      (fun _ after => storage.script ≠ [] ∧ Framed storage after ∧ after.vlog.files = storage.vlog.files) := by
  induction entries generalizing storage with
  | nil => exact ⟨.refl storage,rfl,fun _ => by simp⟩
  | cons entry rest ih =>
    obtain ⟨named,contents,found,width⟩ := listed entry List.mem_cons_self
    have stopped : ∀ last : Storage, storage.script ≠ [] → Still storage last →
        storage.script ≠ [] ∧ Framed storage last ∧ last.vlog.files = storage.vlog.files :=
      fun _ some still => ⟨some,still.framed,by rw [still.vlog]⟩
    rw [registerInventory,List.forM_eq_forM,List.forM_cons,delivers_bind]
    refine (openWritable_harmless found).mapError.bind (.refl storage) ?_ (fun _ last => stopped last)
    intro _ opened _ still
    refine (fileLen_harmless (by rw [still.vlog]; exact found)).mapError.bind still ?_ (fun _ last => stopped last)
    intro len measured same still
    rw [rejectIf_false (by rw [same,width]; exact fun differs => differs rfl)]
    refine delivers_bind.mpr (delivers_lift.mpr ⟨fun _ _ => ?_,fun _ no => by cases no⟩)
    refine delivers_mapError.mpr ((registerFile_delivers named).mono ?_ ?_)
    · intro _ entered kept
      obtain ⟨framed,files,catalog⟩ := kept
      have same : entered.vlog.files = storage.vlog.files := by rw [files,still.vlog]
      have later := still.framed.trans framed
      refine (@ih entered (fun other member => by rw [same]; exact listed other (List.mem_cons_of_mem _ member))).mono ?_ ?_
      · intro _ after kept
        obtain ⟨rest,left,entries⟩ := kept
        refine ⟨later.trans rest,by rw [left,same],?_⟩
        intro fileId
        rw [entries,catalog,still.vlog,Std.ExtTreeSet.mem_insert,Std.LawfulEqCmp.compare_eq_iff_eq,List.map_cons,
          List.mem_cons,or_assoc,or_left_comm,@eq_comm _ entry.fileId]
      · intro _ after failed
        obtain ⟨some,rest,left⟩ := failed
        exact ⟨fun none => some (later.answered none),later.trans rest,by rw [left,same]⟩
    · intro _ last failed
      exact stopped last (fun none => failed.1 (still.answered none)) (still.trans failed.2)

end registering

section reopening
variable [Crc32c]

-- The process that comes after: it lists the files it finds, registers and trims them.
def reopenTrim (format : FormatMetadata) (acceptedEnd : Option VLogPosition) : Eff Storage StorageError Unit := do
  modify (fun storage => {storage with vlog := {storage.vlog with catalog := ∅}})
  let inventory ← ManagedInventory.inspect format
  registerInventory inventory
  ValueLogRecovery.trim acceptedEnd (inventory.vlogFiles.map VLogInventoryEntry.fileId)

-- A directory with its accepted bytes, inventoried and registered.
structure Trimmable (format : FormatMetadata) (acceptedEnd : Option VLogPosition) (inventory : ManagedInventory)
    (storage : Storage) : Prop where
  inspected : inspectFiles format storage.vlog.files = .ok inventory
  registered : Registered storage
  geometry : storage.vlog.geometry = production
  databaseUuid : storage.vlog.databaseUuid = format.databaseUuid
  ends : ∀ accepted ∈ acceptedEnd, EndsEnvelope storage.vlog accepted ∧ Reached storage.vlog.files accepted

variable {format : FormatMetadata} {acceptedEnd : Option VLogPosition} {inventory : ManagedInventory}
  {before : Directory} {storage cut : Storage}

theorem Trimmable.standsIn (start : Trimmable format acceptedEnd inventory storage) :
    StandsIn acceptedEnd storage.vlog.files := by
  intro accepted member
  obtain ⟨ends,reached⟩ := start.ends accepted member
  exact ⟨ends.transactionEnd,reached⟩

-- A trim from a registered inventory ends in a settled directory.
theorem trim_settles (inspected : inspectFiles format storage.vlog.files = .ok inventory)
    (registered : Registered storage) (geometry : storage.vlog.geometry = production)
    (databaseUuid : storage.vlog.databaseUuid = format.databaseUuid) (stands : StandsIn acceptedEnd storage.vlog.files) :
    Delivers (ValueLogRecovery.trim acceptedEnd (inventory.vlogFiles.map VLogInventoryEntry.fileId)) storage
      (fun _ after => Settled format acceptedEnd after ∧
        ∀ fileId : Nat, after.vlog.files[fileId]? = acceptedContents storage.vlog.files acceptedEnd fileId)
      (fun _ cut => storage.script ≠ [] ∧ Framed storage cut ∧
        Between acceptedEnd storage.vlog.files cut.vlog.files) := by
  refine (trim_delivers (inspectFiles_lists inspected) registered geometry stands).mono ?_ (fun _ _ stopped => stopped)
  intro _ after kept
  obtain ⟨framed,listed,files⟩ := kept
  have between : Between acceptedEnd storage.vlog.files after.vlog.files := fun fileId => .inr (files fileId)
  refine ⟨⟨listed,framed.geometry.trans geometry,framed.databaseUuid.trans databaseUuid,?_,between.standsIn stands,?_⟩,files⟩
  · exact between.inspectable stands (inspectFiles_inspectable.mp ⟨inventory,inspected⟩)
  · intro fileId
    rw [files,between.accepted]

theorem inspect_harmless (inspected : inspectFiles format storage.vlog.files = .ok inventory) :
    Harmless (ManagedInventory.inspect format) storage (fun found => found = inventory) := by
  refine (reading_harmless _ (fun _ => rfl)).bind (.refl storage) ?_ (fun _ _ some still => ⟨some,still⟩)
  intro found reached same still
  rw [same,inspected]
  refine delivers_lift.mpr ⟨?_,fun _ no => by cases no⟩
  intro listed here
  exact ⟨(Except.ok.inj here).symm,still⟩

-- From wherever a trim was cut the next process ends in the same directory.
theorem reopenTrim_settles (geometry : cut.vlog.geometry = production)
    (databaseUuid : cut.vlog.databaseUuid = format.databaseUuid) (inspectable : Inspectable format before)
    (stands : StandsIn acceptedEnd before) (between : Between acceptedEnd before cut.vlog.files) :
    Delivers (reopenTrim format acceptedEnd) cut
      (fun _ after => Settled format acceptedEnd after ∧
        ∀ fileId : Nat, after.vlog.files[fileId]? = acceptedContents before acceptedEnd fileId)
      (fun _ again => cut.script ≠ [] ∧ Framed cut again ∧ Between acceptedEnd before again.vlog.files) := by
  refine delivers_bind.mpr ((delivers_modify _).mpr ?_)
  let fresh : Storage := {cut with vlog := {cut.vlog with catalog := ∅}}
  have unlisted : Framed cut fresh := ⟨rfl,rfl,rfl,id⟩
  obtain ⟨inventory,inspected⟩ := inspectFiles_inspectable.mpr (between.inspectable stands inspectable)
  have lists := inspectFiles_lists inspected
  change Delivers (ManagedInventory.inspect format >>= fun inventory => do
    registerInventory inventory
    ValueLogRecovery.trim acceptedEnd (inventory.vlogFiles.map VLogInventoryEntry.fileId)) fresh _ _
  have found : Harmless (ManagedInventory.inspect format) fresh (fun found => found = inventory) :=
    inspect_harmless inspected
  refine found.bind (.refl fresh) ?_ ?_
  · intro listed reached same still
    subst same
    have files : reached.vlog.files = cut.vlog.files := by rw [still.vlog]
    have entered := @registerInventory_delivers reached listed.vlogFiles (by
      intro entry member
      obtain ⟨contents,there,width⟩ := lists.mem.mp member
      rw [files]
      exact ⟨(lists.bounded _ _ there).1,contents,there,width⟩)
    refine entered.bind ?_ ?_
    · intro _ registered kept
      obtain ⟨framed,same,catalog⟩ := kept
      have later := (unlisted.trans still.framed).trans framed
      have everything : registered.vlog.files = cut.vlog.files := same.trans files
      have named : Registered registered := by
        intro fileId
        rw [catalog,still.vlog,everything,lists.mem_fileIds]
        simp only [fresh,Std.ExtTreeSet.not_mem_empty,false_or]
      refine (@trim_settles _ format acceptedEnd listed registered (by rw [everything]; exact inspected) named
        (later.geometry.trans geometry) (later.databaseUuid.trans databaseUuid)
        (by rw [everything]; exact between.standsIn stands)).mono ?_ ?_
      · intro _ after kept
        obtain ⟨settled,left⟩ := kept
        refine ⟨settled,?_⟩
        intro fileId
        rw [left,everything,between.accepted]
      · intro _ after stopped
        obtain ⟨some,last,left⟩ := stopped
        rw [everything] at left
        exact ⟨fun none => some (later.answered none),later.trans last,between.trans left⟩
    · intro _ last stopped
      obtain ⟨some,framed,same⟩ := stopped
      refine ⟨fun none => some (still.answered none),(unlisted.trans still.framed).trans framed,?_⟩
      rw [same,files]
      exact between
  · intro _ last some still
    refine ⟨some,unlisted.trans still.framed,?_⟩
    rw [still.vlog]
    exact between

-- The accepted bytes, the catalog and the tail agree, a trim has nothing left to do and a writer can start.
structure Trimmed (format : FormatMetadata) (acceptedEnd : Option VLogPosition) (before : Directory) (after : Storage) :
    Prop where
  files : ∀ fileId : Nat, after.vlog.files[fileId]? = acceptedContents before acceptedEnd fileId
  registered : Registered after
  tail : ∃ inventory topology, inspectFiles format after.vlog.files = .ok inventory ∧
    RecoveryTopology.analyze inventory acceptedEnd = .ok topology ∧ topology.physicalTailMatches acceptedEnd = true
  again : ∀ fileIds, Delivers (ValueLogRecovery.trim acceptedEnd fileIds) after (fun _ last => Still after last)
    (fun _ last => Still after last)
  inventoried : ∀ inventory, inspectFiles format after.vlog.files = .ok inventory →
    Delivers (ValueLogRecovery.trim acceptedEnd (inventory.vlogFiles.map VLogInventoryEntry.fileId)) after
      (fun _ last => Still after last) (fun _ last => after.script ≠ [] ∧ Still after last)
  writer : Delivers (ValueLogRecovery.intoWriter acceptedEnd) after
    (fun writer last => Still after last ∧
      writer = ⟨format.databaseUuid,production,acceptedState acceptedEnd,⟨∅,∅⟩,none,1,false,none⟩ ∧
      writer.position = appendPosition acceptedEnd)
    (fun _ last => after.script ≠ [] ∧ Still after last)

theorem Settled.trimmed {after : Storage} (settled : Settled format acceptedEnd after)
    (files : ∀ fileId : Nat, after.vlog.files[fileId]? = acceptedContents before acceptedEnd fileId) :
    Trimmed format acceptedEnd before after :=
  ⟨files,settled.registered,settled.inspected,trim_settled settled,
    fun _ inspected => trim_settled_inventoried settled (inspectFiles_lists inspected),intoWriter_settled settled⟩

-- Whichever call of a trim is refused, the next process goes on to the same bytes.
theorem trim_reaches_accepted_end (format : FormatMetadata) (acceptedEnd : Option VLogPosition) :
    (∀ inventory storage, Trimmable format acceptedEnd inventory storage →
      Delivers (ValueLogRecovery.trim acceptedEnd (inventory.vlogFiles.map VLogInventoryEntry.fileId)) storage
        (fun _ after => Trimmed format acceptedEnd storage.vlog.files after)
        (fun _ cut => storage.script ≠ [] ∧ Framed storage cut ∧
          Between acceptedEnd storage.vlog.files cut.vlog.files) ∧
      ∀ cut : Storage, cut.vlog.databaseUuid = storage.vlog.databaseUuid →
        cut.vlog.geometry = storage.vlog.geometry → Between acceptedEnd storage.vlog.files cut.vlog.files →
        Delivers (reopenTrim format acceptedEnd) cut
          (fun _ after => Trimmed format acceptedEnd storage.vlog.files after)
          (fun _ again => cut.script ≠ [] ∧ Framed cut again ∧
            Between acceptedEnd storage.vlog.files again.vlog.files)) ∧
    ∀ geometry inventory, validateInventoryOrder inventory geometry = .ok () →
      (∀ stableEnd topology, RecoveryTopology.analyze inventory stableEnd = .ok topology →
        topology = listedTopology inventory) ∧
      ((RecoveryTopology.containsEnd inventory acceptedEnd = true ∧
          RecoveryTopology.hasSuffixAfter inventory acceptedEnd = false) ↔
        (listedTopology inventory).physicalTailMatches acceptedEnd = true) := by
  refine ⟨?_,?_⟩
  · intro inventory storage start
    have stands := start.standsIn
    refine ⟨?_,?_⟩
    · refine (trim_settles start.inspected start.registered start.geometry start.databaseUuid stands).mono ?_
        (fun _ _ stopped => stopped)
      exact fun _ _ kept => kept.1.trimmed kept.2
    · intro cut databaseUuid geometry between
      refine (reopenTrim_settles (geometry.trans start.geometry) (databaseUuid.trans start.databaseUuid)
        (inspectFiles_inspectable.mp ⟨inventory,start.inspected⟩) stands between).mono ?_ (fun _ _ stopped => stopped)
      exact fun _ _ kept => kept.1.trimmed kept.2
  · intro geometry inventory ordered
    exact ⟨fun _ _ analyzed => RecoveryTopology.analyze_listed analyzed,
      RecoveryTopology.physicalTail_iff (validateInventoryOrder_pairwise ordered) acceptedEnd⟩

end reopening

theorem registered_of_lists {storage : Storage}
    (listed : storage.vlog.catalog.toList = storage.vlog.files.toList.map Prod.fst) : Registered storage := by
  intro fileId
  rw [←Std.ExtTreeSet.mem_toList,listed,List.mem_map]
  constructor
  · intro present
    obtain ⟨entry,member,rfl⟩ := present
    exact ⟨entry.2,Std.ExtTreeMap.mem_toList_iff_getElem?_eq_some.mp member⟩
  · intro present
    obtain ⟨contents,found⟩ := present
    exact ⟨(fileId,contents),Std.ExtTreeMap.mem_toList_iff_getElem?_eq_some.mpr found,rfl⟩

-- A file that is put beside the others takes nothing from them.
theorem FileSet.Extends.beside [Crc32c] {files : FileSet} {fileId : Nat} (contents : Bytes)
    (absent : files.files[fileId]? = none) :
    files.Extends {files with files := files.files.insert fileId contents,catalog := files.catalog.insert fileId} := by
  refine ⟨rfl,rfl,?_⟩
  intro other stored opened
  obtain ⟨listed,found,valid⟩ := FileSet.handle_ok.mp opened
  have differs : ¬compare fileId other = .eq := by
    intro same
    rw [Std.LawfulEqCmp.eq_of_compare same,found] at absent
    cases absent
  refine ⟨[],?_⟩
  rw [List.append_nil]
  refine FileSet.handle_ok.mpr ⟨Std.ExtTreeSet.mem_insert.mpr (.inr listed),?_,valid⟩
  rw [Std.ExtTreeMap.getElem?_insert,if_neg differs,found]

-- The first envelope of a database, with a torn header in a file far behind it.
theorem trim_reaches_accepted_end_torn :
    let database : Uuid := ⟨List.replicate 16 1,rfl⟩
    let operations : List LogicalOperation := [.put [1] [2,3],.delete [4]]
    ∃ (envelope : PreparedEnvelope) (next : LayoutPlanner) (inventory : ManagedInventory) (after : Storage),
      @prepareEnvelope castagnoli ⟨production,⟨0,0⟩⟩ database 1 ⟨List.replicate 16 7,rfl⟩ operations =
        .ok (envelope,next) ∧
      let laid := (FileSet.empty database).layAll envelope.chunks
      ValueLogRecovery.trim (some envelope.vlogEnd) (inventory.vlogFiles.map VLogInventoryEntry.fileId)
        ⟨⟨∅,∅,∅⟩,{laid with files := laid.files.insert 5 [86,76],catalog := laid.catalog.insert 5},[],[]⟩ = .ok () after ∧
      after.vlog.files[(5 : Nat)]? = none := by
  intro database operations
  let format : FormatMetadata := ⟨0,database,65536⟩
  let torn := fun envelope : PreparedEnvelope =>
    let laid := (FileSet.empty database).layAll envelope.chunks
    {laid with files := laid.files.insert 5 [86,76],catalog := laid.catalog.insert 5}
  have checked : (@prepareEnvelope castagnoli ⟨production,⟨0,0⟩⟩ database 1 ⟨List.replicate 16 7,rfl⟩
    operations).toOption.any (fun pair =>
      (@inspectFiles castagnoli format (torn pair.1).files).toOption.isSome &&
      (torn pair.1).catalog.toList == (torn pair.1).files.toList.map Prod.fst &&
      pair.1.vlogEnd.fileId == 0 &&
      (torn pair.1).files[(0 : Nat)]?.any (fun contents => decide (pair.1.vlogEnd.offset ≤ contents.length))) = true := by
    decide +kernel
  cases prepared : @prepareEnvelope castagnoli ⟨production,⟨0,0⟩⟩ database 1 ⟨List.replicate 16 7,rfl⟩ operations with
  | error error => rw [prepared] at checked; cases checked
  | ok pair =>
    obtain ⟨envelope,next⟩ := pair
    rw [prepared] at checked
    simp only [Except.toOption,Option.any_some,Bool.and_eq_true,beq_iff_eq] at checked
    obtain ⟨⟨⟨inspects,listed⟩,first⟩,reaches⟩ := checked
    obtain ⟨inventory,inspected⟩ := ok_of_isSome inspects
    have laid := (@prepareEnvelope_laid castagnoli _ _ _ _ _ _ _ (by decide) prepared).1
    obtain ⟨done,-,held⟩ := @EnvelopeLaid.lays castagnoli _ _ _ (FileSet.empty database) _ _ _ laid
      (@EndsAt.empty castagnoli database) rfl
    have geometry := @EndsAt.geometry castagnoli _ _ done
    have grown := @FileSet.Extends.beside castagnoli _ 5 [86,76]
      (@EndsAt.fresh castagnoli _ _ done 5 (.inl (by rw [first]; decide)))
    have identity := FileSet.layAll_identity (FileSet.empty database) envelope.chunks
    have read := @EnvelopeLaid.read castagnoli _ _ _ (torn envelope) _ _ _ none laid geometry identity (by decide)
      (fun _ no => by cases no) (fun chunk member => @Holds.extends castagnoli _ _ _ (held chunk member) grown)
    obtain ⟨chunks,taken,-,scanned⟩ := @readRecoveryEnvelope_ok castagnoli (torn envelope) _ _ _ _ geometry read
    let storage : Storage := ⟨⟨∅,∅,∅⟩,torn envelope,[],[]⟩
    have start : @Trimmable castagnoli format (some envelope.vlogEnd) inventory storage := by
      refine @Trimmable.mk castagnoli _ _ _ _ inspected (registered_of_lists listed) geometry identity ?_
      intro accepted here
      obtain rfl := Option.some.inj here
      refine ⟨⟨_,chunks,none,_,taken,scanned⟩,?_,?_⟩
      · intro fileId lower
        omega
      · rw [first]
        obtain ⟨contents,found,bound⟩ := (Option.any_eq_true _ _).mp reaches
        exact ⟨contents,found,of_decide_eq_true bound⟩
    have trimmed := ((@trim_reaches_accepted_end castagnoli format (some envelope.vlogEnd)).1 inventory storage start).1
    obtain ⟨_,after,ran,kept⟩ := (trimmed.mono (fun _ _ kept => kept) (fun _ _ stopped => stopped.1 rfl)).returns
    refine ⟨envelope,next,inventory,after,rfl,ran,?_⟩
    have gone := @Trimmed.files castagnoli _ _ _ _ kept 5
    simp only [acceptedContents,first] at gone
    exact gone

end ExpirKv
