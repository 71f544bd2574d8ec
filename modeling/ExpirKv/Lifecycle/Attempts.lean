import ExpirKv.Lifecycle.InitializeFacts

namespace ExpirKv
open RootLock

section rules
variable [Crc32c] {fjall : Fjall} {fine : Prop} {disk : Disk} {format temporary index vlog : Option Node}

-- A program that stopped where it could only stop at a failing call.
def CutShort (fjall : Fjall) (fine : Prop) (disk : Disk) : Prop := Kept fjall disk ∧ ¬fine

theorem Stands.cutShort (stands : Stands fine disk format temporary index vlog)
    (layout : Layout fjall format temporary index vlog) (failed : disk.calls.script ≠ []) {calls : Calls} :
    CutShort fjall fine {disk with calls} :=
  ⟨⟨format,temporary,index,vlog,⟨stands.present,stands.lock,stands.format,stands.temporary,stands.index,stands.vlog,
    fun no => no.elim⟩,layout⟩,fun still => failed (stands.calls still)⟩

theorem Stands.request {post : Unit → Disk → Prop} (stands : Stands fine disk format temporary index vlog)
    (layout : Layout fjall format temporary index vlog)
    (next : ∀ after, Stands fine after format temporary index vlog → post () after) :
    Delivers request disk post (fun _ after => CutShort fjall fine after) :=
  delivers_request (fun _ steady => next _ (stands.answered steady)) (fun _ _ _ failed => stands.cutShort layout failed)

theorem Stands.perform {change : Disk → Disk} {post : Unit → Disk → Prop}
    {format' temporary' index' vlog' : Option Node} (stands : Stands fine disk format temporary index vlog)
    (layout : Layout fjall format temporary index vlog)
    (moves : ∀ before, Stands fine before format temporary index vlog →
      Stands fine (change before) format' temporary' index' vlog')
    (next : ∀ after, Stands fine after format' temporary' index' vlog' → post () after) :
    Delivers (RootLock.perform change) disk post (fun _ after => CutShort fjall fine after) :=
  delivers_performed (fun _ steady => next _ (moves _ (stands.answered steady)))
    (fun _ _ _ failed => stands.cutShort layout failed)

theorem Stands.inspect {name : String} {node : Option Node} {post : ManagedEntryKind → Disk → Prop}
    (stands : Stands fine disk format temporary index vlog) (layout : Layout fjall format temporary index vlog)
    (found : ∀ after, Stands fine after format temporary index vlog → after.root name = node)
    (next : ∀ after, Stands fine after format temporary index vlog → post (classify node) after) :
    Delivers (inspectChild name) disk post (fun _ after => CutShort fjall fine after) := by
  rw [inspectChild,delivers_bind]
  refine stands.request layout ?_
  intro after stands
  rw [delivers_bind,delivers_get,delivers_pure,found after stands]
  exact next after stands

theorem Stands.directory {name : String} {entries : List (Bytes × Node)} {post : List (Bytes × Node) → Disk → Prop}
    (stands : Stands fine disk format temporary index vlog) (layout : Layout fjall format temporary index vlog)
    (found : ∀ after, Stands fine after format temporary index vlog → after.root name = some (.directory entries))
    (next : ∀ after, Stands fine after format temporary index vlog → post entries after) :
    Delivers (readDirectory name) disk post (fun _ after => CutShort fjall fine after) := by
  rw [readDirectory,delivers_bind]
  refine stands.request layout ?_
  intro after stands
  rw [delivers_bind,delivers_get,found after stands,delivers_pure]
  exact next after stands

theorem Stands.absentFormat {mark : Bool} {post : Option FormatMetadata → Disk → Prop}
    (stands : Stands fine disk format temporary index vlog) (layout : Layout fjall format temporary index vlog)
    (absent : (if mark then temporary else format) = none)
    (next : ∀ after, Stands fine after format temporary index vlog → post none after) :
    Delivers (readFormat mark) disk post (fun _ after => CutShort fjall fine after) := by
  rw [readFormat,delivers_bind]
  refine stands.request layout ?_
  intro after stands
  have found : after.root (if mark = true then formatTempFileName else formatFileName) = none := by
    cases mark with
    | true => exact stands.temporary.trans absent
    | false => exact stands.format.trans absent
  rw [delivers_bind,delivers_get,found,delivers_pure]
  exact next after stands

theorem Stands.wholeFormat {mark : Bool} {encoded : Bytes} {metadata : FormatMetadata}
    {post : Option FormatMetadata → Disk → Prop}
    (stands : Stands fine disk format temporary index vlog) (layout : Layout fjall format temporary index vlog)
    (written : metadata.encode = .ok encoded) (there : (if mark then temporary else format) = some (.file encoded))
    (next : ∀ after, Stands fine after format temporary index vlog → post (some metadata) after) :
    Delivers (readFormat mark) disk post (fun _ after => CutShort fjall fine after) := by
  obtain ⟨read,width⟩ := FormatMetadata.decode_encode written
  rw [readFormat,delivers_bind]
  refine stands.request layout ?_
  intro after stands
  have found : after.root (if mark = true then formatTempFileName else formatFileName) = some (.file encoded) := by
    cases mark with
    | true => exact stands.temporary.trans there
    | false => exact stands.format.trans there
  rw [delivers_bind,delivers_get,found]
  simp only [delivers_bind,delivers_lift,delivers_pure]
  rw [rejectIf_false (by rw [width]; exact fun no => no rfl),read]
  refine ⟨fun _ _ => ⟨?_,fun _ no => (by cases no)⟩,fun _ no => (by cases no)⟩
  rintro _ ⟨⟩
  exact next after stands

end rules

section initializing
variable [Crc32c] {fjall : Fjall} {fine : Prop} {disk : Disk} {metadata : FormatMetadata} {encoded : Bytes}

theorem createNewRegular_delivers {post : Unit → Disk → Prop} {index vlog : Option Node}
    (stands : Stands fine disk none none index vlog) (layout : Layout fjall none none index vlog)
    (next : ∀ after, Stands fine after none (some (.file [])) index vlog → post () after) :
    Delivers (createNewRegular formatTempFileName) disk post (fun _ after => CutShort fjall fine after) := by
  rw [createNewRegular,delivers_bind,delivers_get,stands.temporary]
  exact stands.perform layout (fun _ before => before.setTemporary _) next

-- The bytes of FORMAT.tmp: all of them, or a first part.
theorem writeWhole_delivers {post : Unit → Disk → Prop} (written : metadata.encode = .ok encoded)
    (stands : Stands fine disk none (some (.file [])) none none)
    (next : ∀ after, Stands fine after none (some (.file encoded)) none none → post () after) :
    Delivers (writeWhole formatTempFileName encoded) disk post (fun _ after => CutShort fjall fine after) := by
  have width := (FormatMetadata.decode_encode written).2
  have part : ∀ count, Layout fjall none (some (.file (encoded.take count))) none none := by
    intro count
    by_cases short : count < 36
    · exact .torn written short
    · rw [List.take_of_length_le (by omega)]
      exact .begun written .missing (.inl rfl)
  rw [writeWhole,delivers_bind,delivers_get]
  split
  · rename_i count head
    rw [delivers_bind,delivers_modify,delivers_throw]
    have failed : disk.calls.script ≠ [] := by
      intro none
      rw [none] at head
      cases head
    exact Stands.cutShort (stands.setTemporary (some (.file (encoded.take count)))) (part count) failed
  · have torn := part 0
    rw [List.take_zero] at torn
    exact stands.perform torn (fun _ before => before.setTemporary _) next

theorem createSyncedFormatTemp_delivers {post : Unit → Disk → Prop} (written : metadata.encode = .ok encoded)
    (stands : Stands fine disk none none none none)
    (next : ∀ after, Stands fine after none (some (.file encoded)) none none → post () after) :
    Delivers (createSyncedFormatTemp metadata) disk post (fun _ after => CutShort fjall fine after) := by
  have layout : Layout fjall none (some (.file encoded)) none none := .begun written .missing (.inl rfl)
  rw [createSyncedFormatTemp,written,delivers_bind,delivers_lift]
  refine ⟨?_,fun _ no => (by cases no)⟩
  rintro _ ⟨⟩
  rw [delivers_bind]
  refine createNewRegular_delivers stands .bare ?_
  intro _ stands
  rw [delivers_bind]
  refine writeWhole_delivers written stands ?_
  intro _ stands
  rw [delivers_bind]
  refine stands.request layout ?_
  intro _ stands
  exact stands.request layout next

theorem createIndexDirectory_delivers {post : Unit → Disk → Prop} (written : metadata.encode = .ok encoded)
    (stands : Stands fine disk none (some (.file encoded)) none none)
    (next : ∀ after, Stands fine after none (some (.file encoded)) (some (.directory [])) none → post () after) :
    Delivers (createDirectory indexDirectoryName) disk post (fun _ after => CutShort fjall fine after) := by
  rw [createDirectory,delivers_bind,delivers_get,stands.index]
  exact stands.perform (.begun written .missing (.inl rfl)) (fun _ before => before.setIndex _) next

theorem emptyIndex_left : IndexLeft fjall metadata (some (.directory [])) :=
  .present (by rw [everyEntry]) (.inl ⟨.inl rfl,.inl rfl⟩)

theorem createVlogDirectory_delivers {post : Unit → Disk → Prop} (written : metadata.encode = .ok encoded)
    (stands : Stands fine disk none (some (.file encoded)) (some (.directory [])) none)
    (next : ∀ after, Stands fine after none (some (.file encoded)) (some (.directory [])) (some (.directory [])) →
      post () after) :
    Delivers (createDirectory vlogDirectoryName) disk post (fun _ after => CutShort fjall fine after) := by
  rw [createDirectory,delivers_bind,delivers_get,stands.vlog]
  exact stands.perform (.begun written emptyIndex_left (.inl rfl)) (fun _ before => before.setVlog _) next

theorem Fjall.Sound.created_left (sound : fjall.Sound) : IndexLeft fjall metadata (some (.directory fjall.created)) :=
  .present (everyEntry_mono isFile_removable _ sound.createdPlain)
    (.inl ⟨.inr ⟨.empty,sound.createdOpens,emptyIndex_interrupted metadata⟩,.inr .created⟩)

theorem createForOpenPreparation_delivers {post : Index → Disk → Prop} (sound : fjall.Sound)
    (written : metadata.encode = .ok encoded)
    (stands : Stands fine disk none (some (.file encoded)) (some (.directory [])) (some (.directory [])))
    (next : ∀ after, Stands fine after none (some (.file encoded)) (some (.directory fjall.created))
      (some (.directory [])) → post .empty after) :
    Delivers fjall.createForOpenPreparation disk post (fun _ after => CutShort fjall fine after) := by
  have layout : Layout fjall none (some (.file encoded)) (some (.directory [])) (some (.directory [])) :=
    .begun written emptyIndex_left (.inr rfl)
  rw [Fjall.createForOpenPreparation,delivers_bind]
  refine stands.directory layout (fun _ stands => stands.index) ?_
  intro after stands
  simp only [ne_eq,not_true_eq_false,if_false]
  rw [delivers_bind,delivers_get]
  split
  · rename_i count head
    rw [delivers_bind,delivers_modify,delivers_throw]
    have failed : after.calls.script ≠ [] := by
      intro none
      rw [none] at head
      cases head
    have left : IndexLeft fjall metadata (some (.directory (fjall.creating[count]?.getD []))) := by
      cases found : fjall.creating[count]? with
      | none => exact emptyIndex_left
      | some tree =>
        have member := List.mem_of_getElem? found
        exact .present (sound.creating tree member) (.inr (.creating member))
    exact Stands.cutShort (stands.setIndex _) (.begun written left (.inr rfl)) failed
  · rw [delivers_bind]
    refine stands.perform layout (fun _ before => before.setIndex _) ?_
    intro _ stands
    exact next _ stands

theorem Fjall.Sound.committed_left (sound : fjall.Sound) {uuid : Uuid} (present : uuid.isZero = false) :
    IndexLeft fjall ⟨0,uuid,65536⟩ (some (.directory (fjall.committed fjall.created (firstBatch uuid)))) :=
  .present (everyEntry_mono isFile_removable _ (sound.committedPlain _ present))
    (.inl ⟨.inr ⟨_,sound.committedOpens _ present,firstIndex_interrupted present⟩,.inr (.committed present)⟩)

-- The first batch: on the disk when the answer is good, and perhaps when it is not known.
theorem commitAtomic_first_delivers {post : Index → Disk → Prop} {uuid : Uuid} (sound : fjall.Sound)
    (present : uuid.isZero = false) (written : FormatMetadata.encode ⟨0,uuid,65536⟩ = .ok encoded)
    (stands : Stands fine disk none (some (.file encoded)) (some (.directory fjall.created)) (some (.directory [])))
    (next : ∀ after, Stands fine after none (some (.file encoded))
      (some (.directory (fjall.committed fjall.created (firstBatch uuid)))) (some (.directory [])) →
      post (Index.empty.apply (firstBatch uuid)) after) :
    Delivers (fjall.commitAtomic .empty (firstBatch uuid)) disk post (fun _ after => CutShort fjall fine after) := by
  have before : Layout fjall none (some (.file encoded)) (some (.directory fjall.created)) (some (.directory [])) :=
    .begun written sound.created_left (.inr rfl)
  have behind : Layout fjall none (some (.file encoded))
      (some (.directory (fjall.committed fjall.created (firstBatch uuid)))) (some (.directory [])) :=
    .begun written (sound.committed_left present) (.inr rfl)
  -- Where the batch lands, whatever calls are left.
  have lands : ∀ calls, (fine → calls.script = []) → Stands fine (fjall.store (firstBatch uuid) {disk with calls}) none
      (some (.file encoded)) (some (.directory (fjall.committed fjall.created (firstBatch uuid)))) (some (.directory [])) := by
    intro calls still
    have here : Stands fine {disk with calls} none (some (.file encoded)) (some (.directory fjall.created))
        (some (.directory [])) :=
      ⟨stands.present,stands.lock,stands.format,stands.temporary,stands.index,stands.vlog,still⟩
    rw [Fjall.store,here.index]
    exact here.setIndex _
  have quiet : fine → ({disk.calls with script := disk.calls.script.tail} : Calls).script = [] := by
    intro still
    simp only [stands.calls still,List.tail_nil]
  have kept : ∀ calls, Stands False {disk with calls} none (some (.file encoded)) (some (.directory fjall.created))
      (some (.directory [])) :=
    fun _ => ⟨stands.present,stands.lock,stands.format,stands.temporary,stands.index,stands.vlog,fun no => no.elim⟩
  rw [Fjall.commitAtomic,delivers_bind,delivers_get,delivers_bind,delivers_modify]
  have failing : commitFault (disk.calls.script.headD .fine) ≠ none → disk.calls.script ≠ [] := by
    intro found none
    rw [none] at found
    exact found rfl
  generalize commitFault (disk.calls.script.headD .fine) = fault at failing
  simp only [firstBatch_commit present]
  cases fault with
  | none =>
    simp only [delivers_bind,delivers_modify,delivers_pure]
    exact next _ (lands _ quiet)
  | some fault =>
    have unfine : ¬fine := fun still => failing (Option.some_ne_none _) (stands.calls still)
    cases fault with
    | notApplied source =>
      simp only [reduceCtorEq,false_and,if_false,delivers_throw]
      exact ⟨⟨_,_,_,_,kept _,before⟩,unfine⟩
    | unknown source applied =>
      simp only [true_and,unknownApplied]
      cases applied with
      | false =>
        simp only [Bool.false_eq_true,if_false,delivers_throw]
        exact ⟨⟨_,_,_,_,kept _,before⟩,unfine⟩
      | true =>
        simp only [if_true,delivers_bind,delivers_modify,delivers_throw]
        exact ⟨⟨_,_,_,_,(lands _ quiet).weaken,behind⟩,unfine⟩

theorem publishFormatTemp_delivers {post : Unit → Disk → Prop} {uuid : Uuid} {entries : List (Bytes × Node)}
    (present : uuid.isZero = false) (written : FormatMetadata.encode ⟨0,uuid,65536⟩ = .ok encoded)
    (opens : fjall.opens entries = .ok (Index.empty.apply (firstBatch uuid)))
    (left : IndexLeft fjall ⟨0,uuid,65536⟩ (some (.directory entries)))
    (stands : Stands fine disk none (some (.file encoded)) (some (.directory entries)) (some (.directory [])))
    (next : ∀ after, Stands fine after (some (.file encoded)) none (some (.directory entries)) (some (.directory [])) →
      post () after) :
    Delivers publishFormatTemp disk post (fun _ after => CutShort fjall fine after) := by
  have layout : Layout fjall none (some (.file encoded)) (some (.directory entries)) (some (.directory [])) :=
    .begun written left (.inr rfl)
  have published : Layout fjall (some (.file encoded)) none (some (.directory entries)) (some (.directory [])) :=
    .published present written opens
  rw [publishFormatTemp,delivers_bind]
  refine stands.inspect layout (fun _ stands => stands.format) ?_
  intro _ stands
  rw [delivers_bind]
  refine stands.inspect layout (fun _ stands => stands.temporary) ?_
  intro _ stands
  simp only [classify]
  rw [delivers_bind,renameChild,delivers_bind,delivers_get,stands.temporary]
  have renamed : ∀ before, Stands fine before none (some (.file encoded)) (some (.directory entries))
      (some (.directory [])) → Stands fine ((before.set formatFileName (before.root formatTempFileName)).set
        formatTempFileName none) (some (.file encoded)) none (some (.directory entries)) (some (.directory [])) := by
    intro before stands
    rw [stands.temporary]
    exact (stands.setFormat (some (.file encoded))).setTemporary none
  refine stands.perform layout renamed ?_
  intro _ stands
  exact stands.request published next

-- The inventory of a root that was just published, or found so.
theorem inspectRoot_delivers {post : ManagedInventory → Disk → Prop} {entries : List (Bytes × Node)}
    (metadata : FormatMetadata) (width : encoded.length = 36)
    (layout : Layout fjall (some (.file encoded)) none (some (.directory entries)) (some (.directory [])))
    (stands : Stands fine disk (some (.file encoded)) none (some (.directory entries)) (some (.directory [])))
    (next : ∀ after, Stands fine after (some (.file encoded)) none (some (.directory entries)) (some (.directory [])) →
      post ⟨[]⟩ after) :
    Delivers (inspectRoot metadata) disk post (fun _ after => CutShort fjall fine after) := by
  rw [inspectRoot,delivers_bind,requireRegular,delivers_bind,inspectChild,delivers_bind]
  refine stands.request layout ?_
  intro _ stands
  obtain ⟨held,locked⟩ := stands.lock
  rw [delivers_bind,delivers_get,delivers_pure,locked]
  simp only [classify,Option.all_none,if_true,delivers_pure]
  rw [delivers_bind,requireRegular,delivers_bind]
  refine stands.inspect layout (fun _ stands => stands.format) ?_
  intro _ stands
  simp only [classify,Option.all_some,formatEncodedLen,width,decide_true,if_true,delivers_pure]
  rw [delivers_bind]
  refine stands.inspect layout (fun _ stands => stands.temporary) ?_
  intro _ stands
  simp only [classify,ne_eq,not_true_eq_false,if_false]
  rw [delivers_bind,requireDirectory,delivers_bind]
  refine stands.inspect layout (fun _ stands => stands.index) ?_
  intro _ stands
  simp only [classify,delivers_pure]
  rw [delivers_bind,requireDirectory,delivers_bind]
  refine stands.inspect layout (fun _ stands => stands.vlog) ?_
  intro _ stands
  simp only [classify,delivers_pure]
  rw [delivers_bind]
  refine stands.directory layout (fun _ stands => stands.vlog) ?_
  intro after stands
  have listed : inspectListing metadata [] = .ok ⟨[]⟩ := by
    rw [inspectListing,List.mapM_nil,pure_ok,ok_bind,pure_ok,sortByFileId,List.mergeSort_nil]
  rw [listed,delivers_lift]
  refine ⟨?_,fun _ no => (by cases no)⟩
  rintro _ ⟨⟩
  exact next after stands

-- What a finished initialization hands on: FORMAT, the identity, head 0, an empty frontier and nothing else.
structure EmptyDatabase (fjall : Fjall) (disk : Disk) (prepared : OpenPreparation) : Prop where
  files : ∃ encoded entries, disk.root formatFileName = some (.file encoded) ∧
    FormatMetadata.decode encoded = .ok prepared.format ∧ disk.root formatTempFileName = none ∧
    disk.root indexDirectoryName = some (.directory entries) ∧ fjall.opens entries = .ok prepared.index ∧
    disk.root vlogDirectoryName = some (.directory [])
  identity : validateFinalIdentity prepared.index prepared.format = .ok ()
  head : prepared.index.system[headSeqKey]? = some (List.replicate 8 0)
  frontier : ∃ encoded, prepared.index.system[durableFrontierKey]? = some encoded ∧
    isEncodedEmptyDurableFrontier encoded = true
  user : prepared.index.user = ∅
  transaction : prepared.index.transaction = ∅
  inventory : prepared.inventory = ⟨[]⟩

theorem Stands.emptyDatabase {uuid : Uuid} {entries : List (Bytes × Node)} (present : uuid.isZero = false)
    (written : FormatMetadata.encode ⟨0,uuid,65536⟩ = .ok encoded)
    (opens : fjall.opens entries = .ok (Index.empty.apply (firstBatch uuid)))
    (stands : Stands fine disk (some (.file encoded)) none (some (.directory entries)) (some (.directory []))) :
    EmptyDatabase fjall disk ⟨⟨0,uuid,65536⟩,⟨[]⟩,Index.empty.apply (firstBatch uuid)⟩ := by
  have apart : headSeqKey ≠ durableFrontierKey := by decide
  refine ⟨⟨encoded,entries,stands.format,(FormatMetadata.decode_encode written).1,stands.temporary,stands.index,opens,
    stands.vlog⟩,firstIndex_final present,?_,⟨encodedFrontierOf,?_,encodedFrontier_empty⟩,firstIndex_user uuid,
    firstIndex_transaction uuid,rfl⟩
  · rw [firstIndex_system,if_neg apart,if_pos rfl]
  · rw [firstIndex_system,if_pos rfl]

-- A database that was prepared, and the layout it left.
def Prepared (fjall : Fjall) (prepared : OpenPreparation) (disk : Disk) : Prop :=
  EmptyDatabase fjall disk prepared ∧ Kept fjall disk

theorem initializeDatabase_delivers {drawn : List (Except IoError Uuid)} (sound : fjall.Sound)
    (draws : fine → ∃ uuid, generateDatabaseUuid drawn = .ok uuid) (stands : Stands fine disk none none none none) :
    Delivers (initializeDatabase fjall drawn) disk (Prepared fjall) (fun _ after => CutShort fjall fine after) := by
  rw [initializeDatabase,delivers_bind,delivers_lift]
  refine ⟨?_,?_⟩
  · intro uuid drew
    have present := generateDatabaseUuid_present drew
    rw [delivers_bind,FormatMetadata.new_ok.mpr ⟨present,rfl⟩,delivers_lift]
    refine ⟨?_,fun _ no => (by cases no)⟩
    rintro _ ⟨⟩
    obtain ⟨encoded,written⟩ : ∃ encoded, FormatMetadata.encode ⟨0,uuid,65536⟩ = .ok encoded := by
      rw [FormatMetadata.encode,FormatMetadata.validateForEncode,rejectIf_false (by simp [present]),ok_bind,pure_ok]
      exact ⟨_,rfl⟩
    have width := (FormatMetadata.decode_encode written).2
    have beside := @Layout.begun _ fjall ⟨0,uuid,65536⟩ encoded _ _ written emptyIndex_left (.inr rfl)
    have stored := @Layout.begun _ fjall ⟨0,uuid,65536⟩ encoded _ _ written (sound.committed_left present) (.inr rfl)
    have published := Layout.published present written (sound.committedOpens uuid present)
    rw [delivers_bind]
    refine createSyncedFormatTemp_delivers written stands ?_
    intro _ stands
    rw [delivers_bind]
    refine createIndexDirectory_delivers written stands ?_
    intro _ stands
    rw [delivers_bind]
    refine createVlogDirectory_delivers written stands ?_
    intro _ stands
    rw [delivers_bind]
    refine stands.request beside ?_
    intro _ stands
    rw [delivers_bind]
    refine createForOpenPreparation_delivers sound written stands ?_
    intro _ stands
    rw [initializationBatch_first present,delivers_bind,delivers_lift]
    refine ⟨?_,fun _ no => (by cases no)⟩
    rintro _ ⟨⟩
    rw [delivers_bind]
    refine commitAtomic_first_delivers sound present written stands ?_
    intro _ stands
    rw [delivers_bind]
    refine stands.directory stored (fun _ stands => stands.index) ?_
    intro _ stands
    simp only [sound.committedPlain uuid present,Bool.true_eq_false,if_false]
    rw [delivers_bind]
    refine stands.request stored ?_
    intro _ stands
    rw [delivers_bind]
    refine stands.request stored ?_
    intro _ stands
    rw [delivers_bind]
    refine stands.wholeFormat stored written rfl ?_
    intro _ stands
    simp only [ne_eq,not_true_eq_false,if_false]
    rw [delivers_bind]
    refine publishFormatTemp_delivers present written (sound.committedOpens _ present) (sound.committed_left present) stands ?_
    intro _ stands
    rw [delivers_bind]
    refine inspectRoot_delivers _ width published stands ?_
    intro after stands
    rw [firstIndex_final present,delivers_bind,delivers_lift]
    refine ⟨?_,fun _ no => (by cases no)⟩
    intro _ _
    rw [delivers_pure]
    exact ⟨stands.emptyDatabase present written (sound.committedOpens _ present),⟨_,_,_,_,stands.weaken,published⟩⟩
  · intro error failed
    refine ⟨⟨_,_,_,_,stands.weaken,.bare⟩,?_⟩
    intro still
    obtain ⟨uuid,drew⟩ := draws still
    rw [drew] at failed
    cases failed

end initializing

section resuming
variable [Crc32c] {fjall : Fjall} {fine : Prop} {disk : Disk} {metadata : FormatMetadata} {encoded : Bytes}

theorem prepareExisting_delivers {uuid : Uuid} {entries : List (Bytes × Node)} (sound : fjall.Sound)
    (present : uuid.isZero = false) (written : FormatMetadata.encode ⟨0,uuid,65536⟩ = .ok encoded)
    (opens : fjall.opens entries = .ok (Index.empty.apply (firstBatch uuid)))
    (stands : Stands fine disk (some (.file encoded)) none (some (.directory entries)) (some (.directory []))) :
    Delivers (prepareExisting fjall ⟨true,false⟩ ⟨0,uuid,65536⟩) disk (Prepared fjall)
      (fun _ after => CutShort fjall fine after) := by
  have width := (FormatMetadata.decode_encode written).2
  have published := Layout.published present written opens
  have again := Layout.published present written (sound.leavesOpens _ _ opens)
  rw [prepareExisting,delivers_bind]
  refine inspectRoot_delivers _ width published stands ?_
  intro _ stands
  rw [delivers_bind]
  refine stands.directory published (fun _ stands => stands.index) ?_
  intro _ stands
  rw [delivers_bind,Fjall.openExistingForOpenPreparation,delivers_bind]
  refine stands.perform published (fun _ before => before.setIndex _) ?_
  intro after stands
  rw [opens,delivers_lift]
  refine ⟨?_,fun _ no => (by cases no)⟩
  rintro _ ⟨⟩
  rw [firstIndex_final present,delivers_bind,delivers_lift]
  refine ⟨?_,fun _ no => (by cases no)⟩
  intro _ _
  simp only [Bool.false_eq_true,if_false,delivers_pure]
  exact ⟨stands.emptyDatabase present written (sound.leavesOpens _ _ opens),⟨_,_,_,_,stands.weaken,again⟩⟩

-- An index that a new attempt takes for the leftover of an initialization, if it is there at all.
def Takes (fjall : Fjall) (metadata : FormatMetadata) (index : Option Node) : Prop :=
  ∀ entries, index = some (.directory entries) → Readable fjall metadata entries

theorem IndexLeft.opened {entries : List (Bytes × Node)} (sound : fjall.Sound)
    (removable : everyEntry isRemovable entries = true) (left : Written fjall metadata entries ∨ Partway fjall entries)
    (filled : entries ≠ []) :
    IndexLeft fjall metadata (some (.directory (fjall.leaves entries))) := by
  refine .present (sound.leavesRemovable _ removable) ?_
  rcases left with ⟨readable,made⟩ | partway
  · obtain ⟨index,found,valid⟩ := readable.resolve_left filled
    exact .inl ⟨.inr ⟨index,sound.leavesOpens _ _ found,valid⟩,.inr (.reopened (made.resolve_left filled))⟩
  · exact .inr (.reopening partway)

theorem validateInterruptedInitialization_delivers {index vlog : Option Node} {post : Unit → Disk → Prop}
    (sound : fjall.Sound) (written : metadata.encode = .ok encoded) (left : IndexLeft fjall metadata index)
    (bare : vlog = none ∨ vlog = some (.directory [])) (stands : Stands fine disk none (some (.file encoded)) index vlog)
    (taken : fine → Takes fjall metadata index)
    (next : ∀ after remains, Takes fjall metadata index → IndexLeft fjall metadata remains →
      Stands fine after none (some (.file encoded)) remains vlog → post () after) :
    Delivers (validateInterruptedInitialization fjall metadata) disk post (fun _ after => CutShort fjall fine after) := by
  have layout := Layout.begun written left bare
  have still := bare
  rw [validateInterruptedInitialization,delivers_bind]
  refine stands.inspect layout (fun _ stands => stands.vlog) ?_
  intro after stands
  rcases bare with rfl | rfl
  case' inr =>
    simp only [classify]
    rw [delivers_bind]
    refine stands.directory layout (fun _ stands => stands.vlog) ?_
    intro after stands
    rw [if_neg (not_not.mpr rfl)]
  -- The part behind the check of the vlog directory.
  all_goals
    refine delivers_bind.mpr ?_
    refine stands.inspect layout (fun _ stands => stands.index) ?_
    intro after stands
    cases left with
    | missing =>
      simp only [classify,delivers_pure]
      exact next after none (fun _ no => (by cases no)) .missing stands
    | @present entries removable left =>
      simp only [classify]
      rw [delivers_bind]
      refine stands.directory layout (fun _ stands => stands.index) ?_
      intro after stands
      by_cases empty : entries = []
      · subst empty
        simp only [if_true,delivers_pure]
        exact next after _ (fun _ same => by cases same; exact .inl rfl) emptyIndex_left stands
      · rw [if_neg empty,delivers_bind,Fjall.openExistingForOpenPreparation,delivers_bind]
        have opened := IndexLeft.opened sound removable left empty
        refine stands.perform layout (fun _ before => before.setIndex _) ?_
        intro after stands
        have kept : Kept fjall after := ⟨_,_,_,_,stands.weaken,.begun written opened still⟩
        have refused : ¬Readable fjall metadata entries → CutShort fjall fine after :=
          fun unreadable => ⟨kept,fun holds => unreadable (taken holds entries rfl)⟩
        rw [delivers_lift]
        refine ⟨?_,?_⟩
        · intro read opens
          rw [delivers_lift]
          refine ⟨?_,?_⟩
          · intro _ valid
            refine next after _ ?_ opened stands
            rintro _ ⟨⟩
            exact .inr ⟨read,opens,valid⟩
          · intro error invalid
            refine refused ?_
            rintro (none | ⟨other,found,valid⟩)
            · exact empty none
            · rw [opens] at found
              obtain rfl := Except.ok.inj found
              rw [invalid] at valid
              cases valid
        · intro error failed
          refine refused ?_
          rintro (none | ⟨other,found,-⟩)
          · exact empty none
          · rw [failed] at found
            cases found

omit [Crc32c] in
theorem Stands.recalled {format temporary index vlog : Option Node} (stands : Stands fine disk format temporary index vlog)
    {calls : Calls} (still : fine → calls.script = []) : Stands fine {disk with calls} format temporary index vlog :=
  ⟨stands.present,stands.lock,stands.format,stands.temporary,stands.index,stands.vlog,still⟩

theorem IndexLeft.cut {entries left : List (Bytes × Node)} {before after : Calls}
    (kept : Written fjall metadata entries ∨ Partway fjall entries) (leftover : LeftOver entries left before after) :
    IndexLeft fjall metadata (some (.directory left)) := by
  refine .present leftover.removable ?_
  rcases leftover.tracked with ⟨same,-⟩ | ⟨more,-⟩
  · rw [leftover.same same]
    exact kept
  · have rest := leftover.fewer more
    rcases kept with ⟨-,made⟩ | partway
    · exact .inr (.removing (made.resolve_left rest.filled) rest)
    · exact .inr (.further partway rest)

-- A tree that is not there needs one look.
theorem removeMissing_delivers {name : String} {post : Unit → Disk → Prop} {format temporary index vlog : Option Node}
    (stands : Stands fine disk format temporary index vlog) (layout : Layout fjall format temporary index vlog)
    (absent : ∀ after, Stands fine after format temporary index vlog → after.root name = none)
    (next : ∀ after, Stands fine after format temporary index vlog → post () after) :
    Delivers (removeDirectoryTreeTracked name) disk post (fun _ after => CutShort fjall fine after) := by
  rw [removeDirectoryTreeTracked,delivers_bind]
  refine stands.request layout ?_
  intro after stands
  rw [delivers_bind,delivers_get,absent after stands,delivers_pure]
  exact next after stands

theorem cleanupInterruptedInitialization_delivers {index vlog : Option Node} {post : Unit → Disk → Prop}
    (written : metadata.encode = .ok encoded) (left : IndexLeft fjall metadata index)
    (bare : vlog = none ∨ vlog = some (.directory [])) (stands : Stands fine disk none (some (.file encoded)) index vlog)
    (next : ∀ after, Stands fine after none none none none → post () after) :
    Delivers cleanupInterruptedInitialization disk post (fun _ after => CutShort fjall fine after) := by
  have alone : Layout fjall none (some (.file encoded)) none none := .begun written .missing (.inl rfl)
  -- Last the marker.
  have marker : ∀ reached, Stands fine reached none (some (.file encoded)) none none →
      Delivers (do
        let _ ← removeRegularChildTracked formatTempFileName
        syncRoot) reached post (fun _ after => CutShort fjall fine after) := by
    intro reached stands
    rw [delivers_bind,removeRegularChildTracked,delivers_bind]
    refine stands.inspect alone (fun _ stands => stands.temporary) ?_
    intro _ stands
    simp only [classify]
    rw [delivers_bind]
    have gone : ∀ before, Stands fine before none (some (.file encoded)) none none →
        Stands fine (removeChild formatTempFileName before) none none none none :=
      fun before stands => (stands.setTemporary none).recalled stands.calls
    refine stands.perform alone gone ?_
    intro _ stands
    rw [delivers_pure]
    exact stands.request .bare next
  -- Before it the empty directory of the log.
  have behind : ∀ reached, Stands fine reached none (some (.file encoded)) none vlog →
      Delivers (do
        removeDirectoryTreeTracked vlogDirectoryName
        let _ ← removeRegularChildTracked formatTempFileName
        syncRoot) reached post (fun _ after => CutShort fjall fine after) := by
    intro reached stands
    rw [delivers_bind]
    rcases bare with rfl | rfl
    · exact removeMissing_delivers stands alone (fun _ stands => stands.vlog) marker
    · refine removeTree_delivers stands.vlog (by rw [everyEntry]) ?_ ?_
      · intro calls _ _ still
        exact marker _ ((stands.setVlog none).recalled (fun holds => still (stands.calls holds)))
      · intro error rest calls leftover failed
        have nothing : rest = [] := by
          rcases leftover.tracked with ⟨same,-⟩ | ⟨more,-⟩
          · exact leftover.same same
          · exact absurd rfl (leftover.fewer more).filled
        subst nothing
        exact Stands.cutShort (stands.setVlog (some (.directory []))) (.begun written .missing (.inr rfl)) failed
  rw [cleanupInterruptedInitialization,delivers_bind]
  have layout := Layout.begun written left bare
  cases left with
  | missing => exact removeMissing_delivers stands layout (fun _ stands => stands.index) behind
  | @present entries removable left =>
    refine removeTree_delivers stands.index removable ?_ ?_
    · intro calls _ _ still
      exact behind _ ((stands.setIndex none).recalled (fun holds => still (stands.calls holds)))
    · intro error rest calls leftover failed
      exact Stands.cutShort (stands.setIndex (some (.directory rest))) (.begun written (.cut left leftover) bare) failed

end resuming

end ExpirKv
