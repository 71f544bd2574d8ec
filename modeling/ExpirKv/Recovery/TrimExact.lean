import ExpirKv.Recovery.TrimSteps
import ExpirKv.Vlog.PlannerExact
import ExpirKv.Vlog.Tiling

namespace ExpirKv
open VLogGeometry Storage

variable [Crc32c]

section ends

-- A stored envelope that a scan accepts ends at the position.
def EndsEnvelope (files : FileSet) (position : VLogPosition) : Prop :=
  ∃ vlogBegin chunks expected scanned, readRecoveryChunks files vlogBegin position = .ok chunks ∧
    scanPreparedEnvelope chunks production files.databaseUuid vlogBegin position expected = .ok scanned

-- Where a transaction can end: behind the headers of its file.
structure TransactionEnd (position : VLogPosition) : Prop where
  placeable : Placeable position
  behind : 64 ≤ position.offset

theorem EndsEnvelope.transactionEnd {files : FileSet} {position : VLogPosition}
    (ends : EndsEnvelope files position) : TransactionEnd position := by
  obtain ⟨vlogBegin,chunks,expected,scanned,-,accepted⟩ := ends
  have placeable := scanPreparedEnvelope_placeable accepted
  obtain ⟨-,records,begin,operations,footer,sound⟩ := scanPreparedEnvelope_sound accepted
  refine ⟨placeable,?_⟩
  have positive : 0 < position.offset := by
    obtain ⟨front,last,split,-⟩ := sound.closing
    rcases sound.tiled.stop_eq with ⟨-,none⟩ | past
    · rw [split] at none
      exact absurd none (by simp)
    · exact past
  rcases placeable.area with aligned | area
  · omega
  · exact area.2.2.2

end ends

section inspected
variable {format : FormatMetadata} {files : Directory}

-- Every file passes the inspection.
def Inspectable (format : FormatMetadata) (files : Directory) : Prop :=
  ∀ (fileId : Nat) (contents : Bytes), files[fileId]? = some contents →
    inspectFile format (fileId,contents) = .ok ⟨fileId,contents.length⟩

theorem inspectFiles_inspectable :
    (∃ inventory, inspectFiles format files = .ok inventory) ↔ Inspectable format files := by
  have mapped : (∃ inventory, inspectFiles format files = .ok inventory) ↔
      ∃ entries, files.toList.mapM (inspectFile format) = .ok entries := by
    simp only [inspectFiles,bind_ok,pure_ok,Except.ok.injEq]
    constructor
    · intro accepted
      obtain ⟨_,entries,mapped,-⟩ := accepted
      exact ⟨entries,mapped⟩
    · intro accepted
      obtain ⟨entries,mapped⟩ := accepted
      exact ⟨_,entries,mapped,rfl⟩
  rw [mapped,mapM_ok_iff]
  constructor
  · intro each fileId contents found
    obtain ⟨entry,passed⟩ := each (fileId,contents) (Std.ExtTreeMap.mem_toList_iff_getElem?_eq_some.mpr found)
    rw [passed,(inspectFile_ok passed).1]
  · intro each entry member
    exact ⟨_,each entry.1 entry.2 (Std.ExtTreeMap.mem_toList_iff_getElem?_eq_some.mp member)⟩

theorem validateFileIdentity_take {fileId len : Nat} {contents : Bytes} (behind : 64 ≤ len)
    (reaches : len ≤ contents.length) :
    validateFileIdentity format fileId (contents.take len) = validateFileIdentity format fileId contents := by
  have page : slice? (contents.take len) 0 pageHeaderEncodedLen = slice? contents 0 pageHeaderEncodedLen :=
    slice?_take (by simp only [pageHeaderEncodedLen]; omega) (by simp only [pageHeaderEncodedLen]; omega)
  have file : slice? (contents.take len) pageHeaderEncodedLen fileHeaderEncodedLen =
      slice? contents pageHeaderEncodedLen fileHeaderEncodedLen :=
    slice?_take (by simp only [pageHeaderEncodedLen,fileHeaderEncodedLen]; omega)
      (by simp only [pageHeaderEncodedLen,fileHeaderEncodedLen]; omega)
  rw [validateFileIdentity,validateFileIdentity,page,file]

-- A cut behind the headers does not spoil the inspection.
theorem inspectFile_take {fileId len : Nat} {contents : Bytes} (behind : 64 ≤ len) (reaches : len ≤ contents.length)
    (passed : inspectFile format (fileId,contents) = .ok ⟨fileId,contents.length⟩) :
    inspectFile format (fileId,contents.take len) = .ok ⟨fileId,(contents.take len).length⟩ := by
  obtain ⟨-,named,sized,headers⟩ := inspectFile_ok passed
  have width : (contents.take len).length = len := List.length_take_of_le reaches
  simp only at named sized headers
  rw [inspectFile,rejectIf_false (by simp only [maxVlogFileId]; omega),ok_bind,
    rejectIf_false (by simp only [maxVlogFileSize,width]; omega),ok_bind,
    if_pos (by simp only [pageHeaderEncodedLen,fileHeaderEncodedLen,width]; omega),
    validateFileIdentity_take behind reaches,headers (by omega),ok_bind]
  rfl

variable {acceptedEnd : Option VLogPosition} {before after : Directory}

-- Where the accepted end stands in a directory.
def StandsIn (acceptedEnd : Option VLogPosition) (files : Directory) : Prop :=
  ∀ accepted ∈ acceptedEnd, TransactionEnd accepted ∧ Reached files accepted

theorem Between.inspectable (between : Between acceptedEnd before after) (stands : StandsIn acceptedEnd before)
    (inspectable : Inspectable format before) : Inspectable format after := by
  intro fileId contents found
  rcases between fileId with kept | cut
  · exact inspectable fileId contents (kept.symm.trans found)
  · rw [found] at cut
    cases acceptedEnd with
    | none => cases cut
    | some accepted =>
      obtain ⟨ends,-,whole,there,reaches⟩ := stands accepted rfl
      simp only [acceptedContents] at cut
      split at cut
      · exact inspectable fileId contents cut.symm
      · split at cut
        · rename_i last
          rw [last,there,Option.map_some,Option.some.injEq] at cut
          rw [cut,last]
          exact inspectFile_take ends.behind reaches (inspectable _ _ there)
        · cases cut

omit [Crc32c] in
-- Only the accepted bytes matter for where the end stands.
theorem Reached.of_accepted {position : VLogPosition} (reached : Reached before position)
    (accepted : ∀ fileId, acceptedContents after (some position) fileId = acceptedContents before (some position) fileId) :
    Reached after position := by
  obtain ⟨lower,whole,there,reaches⟩ := reached
  refine ⟨?_,?_⟩
  · intro fileId below
    obtain ⟨contents,found,full⟩ := lower fileId below
    have same := accepted fileId
    simp only [acceptedContents,if_pos below] at same
    exact ⟨contents,by rw [same,found],full⟩
  · have same := accepted position.fileId
    simp only [acceptedContents,Nat.lt_irrefl,if_false,if_true,there,Option.map_some] at same
    obtain ⟨contents,found,cut⟩ := Option.map_eq_some_iff.mp same
    refine ⟨contents,found,?_⟩
    have width := congrArg List.length cut
    simp only [List.length_take] at width
    omega

omit [Crc32c] in
theorem StandsIn.of_accepted (stands : StandsIn acceptedEnd before)
    (accepted : ∀ fileId, acceptedContents after acceptedEnd fileId = acceptedContents before acceptedEnd fileId) :
    StandsIn acceptedEnd after := by
  rintro position rfl
  obtain ⟨ends,reached⟩ := stands position rfl
  exact ⟨ends,reached.of_accepted accepted⟩

omit [Crc32c] in
theorem Between.standsIn (between : Between acceptedEnd before after) (stands : StandsIn acceptedEnd before) :
    StandsIn acceptedEnd after := stands.of_accepted between.accepted

end inspected

section trimmed
variable {storage : Storage} {acceptedEnd : Option VLogPosition} {inventory : ManagedInventory}

-- The catalog lists the files of the directory and no other.
def Registered (storage : Storage) : Prop :=
  ∀ fileId, fileId ∈ storage.vlog.catalog ↔ ∃ contents, storage.vlog.files[fileId]? = some contents

omit [Crc32c] in
theorem ManagedInventory.Lists.mem_fileIds {files : Directory} (lists : inventory.Lists files) {fileId : Nat} :
    fileId ∈ inventory.vlogFiles.map VLogInventoryEntry.fileId ↔ ∃ contents, files[fileId]? = some contents := by
  rw [List.mem_map]
  constructor
  · intro listed
    obtain ⟨entry,member,same⟩ := listed
    obtain ⟨contents,found,-⟩ := lists.mem.mp member
    exact ⟨contents,by rw [←same]; exact found⟩
  · intro present
    obtain ⟨contents,found⟩ := present
    exact ⟨⟨fileId,contents.length⟩,lists.mem.mpr ⟨contents,found,rfl⟩,rfl⟩

omit [Crc32c] in
theorem ManagedInventory.Lists.fileIds_nodup {files : Directory} (lists : inventory.Lists files) :
    (inventory.vlogFiles.map VLogInventoryEntry.fileId).Nodup := by
  rw [List.nodup_iff_pairwise_ne,List.pairwise_map]
  exact lists.ordered.imp (fun before => Nat.ne_of_lt before)

omit [Crc32c] in
theorem mem_suffixFiles {fileIds : List Nat} {fileId : Nat} :
    fileId ∈ ValueLogRecovery.suffixFiles acceptedEnd fileIds ↔
      fileId ∈ fileIds ∧ ∀ accepted ∈ acceptedEnd, accepted.fileId < fileId := by
  rw [ValueLogRecovery.suffixFiles,List.mem_filter,List.mem_reverse]
  cases acceptedEnd <;> simp

-- The directory once the file of the accepted end is cut.
def cutContents (files : Directory) (acceptedEnd : Option VLogPosition) (fileId : Nat) : Option Bytes :=
  match acceptedEnd with
  | none => files[fileId]?
  | some accepted =>
    if fileId = accepted.fileId then files[fileId]?.map (fun contents => contents.take accepted.offset)
    else files[fileId]?

omit [Crc32c] in
theorem cutContents_isSome {files : Directory} {fileId : Nat} :
    (∃ contents, cutContents files acceptedEnd fileId = some contents) ↔ ∃ contents, files[fileId]? = some contents := by
  cases acceptedEnd with
  | none => rfl
  | some accepted =>
    simp only [cutContents]
    split
    · cases files[fileId]? <;> simp
    · rfl

omit [Crc32c] in
theorem cutContents_between {files : Directory} (fileId : Nat) :
    cutContents files acceptedEnd fileId = files[fileId]? ∨
      cutContents files acceptedEnd fileId = acceptedContents files acceptedEnd fileId := by
  cases acceptedEnd with
  | none => exact .inl rfl
  | some accepted =>
    simp only [cutContents,acceptedContents]
    by_cases here : fileId = accepted.fileId
    · rw [if_pos here,if_neg (by omega),if_pos here]
      exact .inr rfl
    · rw [if_neg here]
      exact .inl rfl

omit [Crc32c] in
-- Cutting the one file and dropping the files behind it leaves the accepted bytes.
theorem cutContents_suffix {files : Directory} {fileIds : List Nat} {fileId : Nat}
    (listed : fileId ∈ fileIds ↔ ∃ contents, files[fileId]? = some contents) :
    (if fileId ∈ ValueLogRecovery.suffixFiles acceptedEnd fileIds then none else cutContents files acceptedEnd fileId) =
      acceptedContents files acceptedEnd fileId := by
  by_cases member : fileId ∈ ValueLogRecovery.suffixFiles acceptedEnd fileIds
  · rw [if_pos member]
    obtain ⟨-,above⟩ := mem_suffixFiles.mp member
    cases acceptedEnd with
    | none => rfl
    | some accepted =>
      have higher := above accepted rfl
      simp only [acceptedContents]
      rw [if_neg (by omega),if_neg (by omega)]
  · rw [if_neg member]
    have absent : (∀ accepted ∈ acceptedEnd, accepted.fileId < fileId) → files[fileId]? = none := by
      intro above
      cases found : files[fileId]? with
      | none => rfl
      | some contents => exact absurd (mem_suffixFiles.mpr ⟨listed.mpr ⟨contents,found⟩,above⟩) member
    cases acceptedEnd with
    | none => exact absent (fun _ no => by cases no)
    | some accepted =>
      simp only [cutContents,acceptedContents]
      rcases Nat.lt_trichotomy fileId accepted.fileId with lower | same | higher
      · rw [if_neg (Nat.ne_of_lt lower),if_pos lower]
      · rw [if_pos same,if_neg (by omega),if_pos same]
      · rw [if_neg (Nat.ne_of_gt higher),if_neg (Nat.lt_asymm higher),if_neg (Nat.ne_of_gt higher)]
        exact absent (fun other member => by cases member; exact higher)

omit [Crc32c] in
theorem trimFile_delivers {fileIds : List Nat} (registered : Registered storage)
    (geometry : storage.vlog.geometry = production) (stands : StandsIn acceptedEnd storage.vlog.files)
    (listed : ∀ fileId, fileId ∈ fileIds ↔ ∃ contents, storage.vlog.files[fileId]? = some contents) :
    Delivers (ValueLogRecovery.trimFile fileIds acceptedEnd) storage
      (fun _ after => Framed storage after ∧ after.vlog.catalog = storage.vlog.catalog ∧
        ∀ fileId : Nat, after.vlog.files[fileId]? = cutContents storage.vlog.files acceptedEnd fileId)
      (fun _ after => storage.script ≠ [] ∧ Framed storage after ∧
        Between acceptedEnd storage.vlog.files after.vlog.files) := by
  cases acceptedEnd with
  | none => exact ⟨.refl storage,rfl,fun _ => rfl⟩
  | some accepted =>
    obtain ⟨ends,lower,contents,found,reaches⟩ := stands accepted rfl
    obtain ⟨named,sized,-⟩ := ends.placeable.good
    have behind := ends.behind
    have inserted : ∀ fileId : Nat, (storage.vlog.files.insert accepted.fileId (contents.take accepted.offset))[fileId]? =
        cutContents storage.vlog.files (some accepted) fileId := by
      intro fileId
      rw [Std.ExtTreeMap.getElem?_insert]
      simp only [cutContents,Std.LawfulEqCmp.compare_eq_iff_eq,@eq_comm _ accepted.fileId fileId]
      by_cases here : fileId = accepted.fileId
      · simp only [if_pos here]
        rw [here,found,Option.map_some]
      · simp only [if_neg here]
    refine delivers_bind.mpr (delivers_get.mpr ?_)
    simp only [geometry]
    rw [rejectIf_false]
    · refine delivers_bind.mpr (delivers_lift.mpr ⟨fun _ _ => ?_,fun _ no => by cases no⟩)
      refine (cutFile_delivers found ((registered _).mpr ⟨contents,found⟩) reaches).mono ?_ ?_
      · intro _ after kept
        obtain ⟨framed,catalog,files⟩ := kept
        exact ⟨framed,catalog,fun fileId => by rw [files,inserted]⟩
      · intro _ after failed
        obtain ⟨some,framed,-,files⟩ := failed
        refine ⟨some,framed,?_⟩
        rcases files with same | cut
        · rw [same]
          exact .refl _
        · intro fileId
          rw [cut,inserted]
          exact cutContents_between fileId
    · simp only [maxVlogFileId,maxVlogFileSize,listed,found,Option.some.injEq,exists_eq',not_true_eq_false,or_false]
      omega

-- A trim reaches the accepted bytes, or is cut on the way to them by a call that was refused.
omit [Crc32c] in
theorem trim_delivers (lists : inventory.Lists storage.vlog.files) (registered : Registered storage)
    (geometry : storage.vlog.geometry = production) (stands : StandsIn acceptedEnd storage.vlog.files) :
    Delivers (ValueLogRecovery.trim acceptedEnd (inventory.vlogFiles.map VLogInventoryEntry.fileId)) storage
      (fun _ after => Framed storage after ∧ Registered after ∧
        ∀ fileId : Nat, after.vlog.files[fileId]? = acceptedContents storage.vlog.files acceptedEnd fileId)
      (fun _ after => storage.script ≠ [] ∧ Framed storage after ∧
        Between acceptedEnd storage.vlog.files after.vlog.files) := by
  have listed := fun fileId => @ManagedInventory.Lists.mem_fileIds inventory _ lists fileId
  have reached : ∀ fileId, (if fileId ∈ ValueLogRecovery.suffixFiles acceptedEnd
      (inventory.vlogFiles.map VLogInventoryEntry.fileId) then none
      else cutContents storage.vlog.files acceptedEnd fileId) = acceptedContents storage.vlog.files acceptedEnd fileId :=
    fun fileId => cutContents_suffix (listed fileId)
  refine (trimFile_delivers registered geometry stands listed).bind ?_ (fun _ _ failed => failed)
  intro _ cut kept
  obtain ⟨framed,catalog,files⟩ := kept
  have present : ∀ fileId ∈ ValueLogRecovery.suffixFiles acceptedEnd
      (inventory.vlogFiles.map VLogInventoryEntry.fileId), ∃ contents, cut.vlog.files[fileId]? = some contents := by
    intro fileId member
    rw [files,cutContents_isSome]
    exact (listed fileId).mp (mem_suffixFiles.mp member).1
  have distinct : (ValueLogRecovery.suffixFiles acceptedEnd
      (inventory.vlogFiles.map VLogInventoryEntry.fileId)).Nodup :=
    (List.nodup_reverse.mpr lists.fileIds_nodup).filter _
  refine (removeSuffixFiles_delivers distinct present).bind ?_ ?_
  · intro _ left kept
    obtain ⟨later,removed,unlisted⟩ := kept
    have exactly : ∀ fileId : Nat, left.vlog.files[fileId]? = acceptedContents storage.vlog.files acceptedEnd fileId := by
      intro fileId
      rw [removed,files,reached]
    have named : Registered left := by
      intro fileId
      rw [unlisted,catalog,registered,removed,files]
      by_cases member : fileId ∈ ValueLogRecovery.suffixFiles acceptedEnd
          (inventory.vlogFiles.map VLogInventoryEntry.fileId)
      · simp [member]
      · simp only [member,not_false_eq_true,and_true,if_false]
        exact cutContents_isSome.symm
    refine Delivers.mono syncDirectory_harmless.mapError ?_ ?_
    · intro _ after kept
      obtain ⟨-,still⟩ := kept
      refine ⟨(framed.trans later).trans still.framed,?_,?_⟩
      · intro fileId
        rw [still.vlog]
        exact named fileId
      · intro fileId
        rw [still.vlog]
        exact exactly fileId
    · intro _ after failed
      obtain ⟨some,still⟩ := failed
      refine ⟨fun none => some (later.answered (framed.answered none)),(framed.trans later).trans still.framed,?_⟩
      intro fileId
      rw [still.vlog]
      exact .inr (exactly fileId)
  · intro _ left failed
    obtain ⟨some,later,between⟩ := failed
    refine ⟨fun none => some (framed.answered none),framed.trans later,?_⟩
    intro fileId
    rcases between fileId with kept | gone
    · rw [kept,files]
      exact cutContents_between fileId
    · have whole := reached fileId
      rw [if_pos gone.1] at whole
      exact .inr (by rw [gone.2,whole])

end trimmed

end ExpirKv
