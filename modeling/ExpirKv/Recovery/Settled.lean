import ExpirKv.Recovery.TrimExact

namespace ExpirKv
open VLogGeometry Storage

section topology
variable {geometry : VLogGeometry} {inventory : ManagedInventory}

theorem validateInventoryEntry_ok {previous after : Option Nat} {entry : VLogInventoryEntry}
    (accepted : validateInventoryEntry geometry previous entry = .ok after) :
    after = some entry.fileId ∧ ∀ fileId ∈ previous, fileId < entry.fileId := by
  simp only [validateInventoryEntry,bind_ok,exists_unit,rejectIf_ok,pure_ok,Except.ok.injEq,not_or] at accepted
  obtain ⟨⟨-,-,apart⟩,rfl⟩ := accepted
  refine ⟨rfl,?_⟩
  intro fileId same
  obtain rfl := same
  simpa using apart

theorem inventoryOrder_pairwise {entries : List VLogInventoryEntry} {previous last : Option Nat}
    (accepted : entries.foldlM (validateInventoryEntry geometry) previous = .ok last) :
    entries.Pairwise (fun one two => one.fileId < two.fileId) ∧
      ∀ entry ∈ entries, ∀ fileId ∈ previous, fileId < entry.fileId := by
  induction entries generalizing previous with
  | nil => exact ⟨.nil,fun _ member => by cases member⟩
  | cons first rest ih =>
    obtain ⟨after,turn,accepted⟩ := foldlM_ok_cons.mp accepted
    obtain ⟨rfl,above⟩ := validateInventoryEntry_ok turn
    obtain ⟨ordered,later⟩ := ih accepted
    refine ⟨List.pairwise_cons.mpr ⟨fun entry member => later entry member _ rfl,ordered⟩,?_⟩
    intro entry member fileId same
    rcases List.mem_cons.mp member with here | member
    · rw [here]
      exact above fileId same
    · exact Nat.lt_trans (above fileId same) (later entry member _ rfl)

theorem validateInventoryOrder_pairwise (accepted : validateInventoryOrder inventory geometry = .ok ()) :
    inventory.vlogFiles.Pairwise (fun one two => one.fileId < two.fileId) := by
  simp only [validateInventoryOrder,bind_ok,pure_ok] at accepted
  obtain ⟨last,accepted,-⟩ := accepted
  exact (inventoryOrder_pairwise accepted).1

-- What the search finds among increasing ids is the one entry of that id.
theorem find_fileId {entries : List VLogInventoryEntry} (ordered : entries.Pairwise (fun one two => one.fileId < two.fileId))
    {entry : VLogInventoryEntry} (member : entry ∈ entries) :
    entries.find? (fun other => other.fileId == entry.fileId) = some entry := by
  induction entries with
  | nil => cases member
  | cons first rest ih =>
    obtain ⟨later,ordered⟩ := List.pairwise_cons.mp ordered
    rcases List.mem_cons.mp member with here | member
    · rw [here,List.find?_cons_of_pos (by simp)]
    · have before := later entry member
      rw [List.find?_cons_of_neg (by simp only [beq_iff_eq]; omega),ih ordered member]

namespace RecoveryTopology

theorem containsEnd_listed (ordered : inventory.vlogFiles.Pairwise (fun one two => one.fileId < two.fileId))
    {position : VLogPosition} :
    containsEnd inventory (some position) = true ↔
      ∃ entry ∈ inventory.vlogFiles, entry.fileId = position.fileId ∧ position.offset ≤ entry.len := by
  simp only [containsEnd,Option.any_eq_true,decide_eq_true_eq,ge_iff_le]
  constructor
  · intro found
    obtain ⟨entry,found,reaches⟩ := found
    exact ⟨entry,List.mem_of_find?_eq_some found,by simpa using List.find?_some found,reaches⟩
  · intro listed
    obtain ⟨entry,member,here,reaches⟩ := listed
    exact ⟨entry,by rw [←here]; exact find_fileId ordered member,reaches⟩

theorem noSuffix_listed {position : VLogPosition} :
    hasSuffixAfter inventory (some position) = false ↔
      ∀ entry ∈ inventory.vlogFiles, entry.fileId ≤ position.fileId ∧
        (entry.fileId = position.fileId → entry.len ≤ position.offset) := by
  simp only [hasSuffixAfter,List.any_eq_false,Bool.or_eq_true,Bool.and_eq_true,decide_eq_true_eq,beq_iff_eq,gt_iff_lt,
    not_or,not_and,Nat.not_lt]

-- An end with nothing behind it is the physical tail.
theorem physicalTail_iff (ordered : inventory.vlogFiles.Pairwise (fun one two => one.fileId < two.fileId))
    (acceptedEnd : Option VLogPosition) :
    (containsEnd inventory acceptedEnd = true ∧ hasSuffixAfter inventory acceptedEnd = false) ↔
      (listedTopology inventory).physicalTailMatches acceptedEnd = true := by
  simp only [physicalTailMatches,listedTopology,beq_iff_eq]
  cases acceptedEnd with
  | none =>
    simp only [containsEnd,hasSuffixAfter,true_and,Bool.not_eq_false',List.isEmpty_iff,Option.map_eq_none_iff,
      List.getLast?_eq_none_iff]
  | some position =>
    rw [containsEnd_listed ordered,noSuffix_listed]
    rcases List.eq_nil_or_concat inventory.vlogFiles with empty | listed
    · simp [empty]
    · obtain ⟨front,last,split⟩ := listed
      rw [List.concat_eq_append] at split
      rw [split] at ordered ⊢
      have highest := (List.pairwise_append.mp ordered).2.2
      rw [List.getLast?_concat,Option.map_some,Option.some.injEq]
      constructor
      · intro tail
        obtain ⟨⟨entry,member,here,reaches⟩,suffix⟩ := tail
        have bound := suffix last (List.mem_append_right front List.mem_cons_self)
        rcases List.mem_append.mp member with earlier | final
        · have before := highest entry earlier last List.mem_cons_self
          omega
        · obtain rfl := List.mem_singleton.mp final
          rw [here,Nat.le_antisymm (bound.2 here) reaches]
      · intro tail
        obtain rfl := tail
        refine ⟨⟨last,List.mem_append_right front List.mem_cons_self,rfl,Nat.le_refl _⟩,?_⟩
        intro entry member
        rcases List.mem_append.mp member with earlier | final
        · have before := highest entry earlier last List.mem_cons_self
          exact ⟨Nat.le_of_lt before,fun same => absurd same (Nat.ne_of_lt before)⟩
        · obtain rfl := List.mem_singleton.mp final
          exact ⟨Nat.le_refl _,fun _ => Nat.le_refl _⟩

theorem analyze_listed {stableEnd : Option VLogPosition} {topology : RecoveryTopology}
    (analyzed : analyze inventory stableEnd = .ok topology) : topology = listedTopology inventory := by
  simp only [analyze,bind_ok,pure_ok,Except.ok.injEq,exists_unit] at analyzed
  exact analyzed.2.2.symm

end RecoveryTopology

end topology

section settled
variable [Crc32c] {format : FormatMetadata} {acceptedEnd : Option VLogPosition} {storage : Storage}

-- A directory that holds the accepted bytes and nothing else.
structure Settled (format : FormatMetadata) (acceptedEnd : Option VLogPosition) (storage : Storage) : Prop where
  registered : Registered storage
  geometry : storage.vlog.geometry = production
  databaseUuid : storage.vlog.databaseUuid = format.databaseUuid
  inspectable : Inspectable format storage.vlog.files
  stands : StandsIn acceptedEnd storage.vlog.files
  exactly : ∀ fileId : Nat, storage.vlog.files[fileId]? = acceptedContents storage.vlog.files acceptedEnd fileId

theorem Settled.still {after : Storage} (settled : Settled format acceptedEnd storage) (still : Still storage after) :
    Settled format acceptedEnd after := by
  obtain ⟨registered,geometry,databaseUuid,inspectable,stands,exactly⟩ := settled
  have same := still.vlog
  exact ⟨fun fileId => by rw [same]; exact registered fileId,by rw [same,geometry],by rw [same,databaseUuid],
    by rw [same]; exact inspectable,by rw [same]; exact stands,fun fileId => by rw [same]; exact exactly fileId⟩

theorem Settled.absent (settled : Settled format acceptedEnd storage) {fileId : Nat}
    (above : ∀ accepted ∈ acceptedEnd, accepted.fileId < fileId) : storage.vlog.files[fileId]? = none := by
  rw [settled.exactly]
  cases acceptedEnd with
  | none => rfl
  | some accepted =>
    have higher := above accepted rfl
    simp only [acceptedContents]
    rw [if_neg (by omega),if_neg (by omega)]

theorem Settled.last {accepted : VLogPosition} (settled : Settled format (some accepted) storage) :
    ∃ contents, storage.vlog.files[accepted.fileId]? = some contents ∧ contents.length = accepted.offset := by
  obtain ⟨-,-,contents,found,reaches⟩ := settled.stands accepted rfl
  refine ⟨contents,found,?_⟩
  have cut := settled.exactly accepted.fileId
  simp only [acceptedContents,Nat.lt_irrefl,if_false,if_true,found,Option.map_some,Option.some.injEq] at cut
  have width := congrArg List.length cut
  rw [List.length_take] at width
  omega

-- Up to the accepted file there is every file, and none behind it.
theorem Settled.present {accepted : VLogPosition} (settled : Settled format (some accepted) storage) {fileId : Nat} :
    (∃ contents, storage.vlog.files[fileId]? = some contents) ↔ fileId ≤ accepted.fileId := by
  constructor
  · intro present
    obtain ⟨contents,found⟩ := present
    apply Nat.le_of_not_gt
    intro higher
    rw [settled.absent (fun other same => by cases same; exact higher)] at found
    cases found
  · intro below
    rcases Nat.lt_or_eq_of_le below with lower | same
    · obtain ⟨contents,found,-⟩ := (settled.stands accepted rfl).2.1 fileId lower
      exact ⟨contents,found⟩
    · obtain ⟨contents,found,-⟩ := settled.last
      exact ⟨contents,by rw [same]; exact found⟩

-- The lengths the catalog is checked against.
theorem Settled.sized {accepted : VLogPosition} (settled : Settled format (some accepted) storage) {fileId : Nat}
    (below : fileId ≤ accepted.fileId) :
    ∃ contents, storage.vlog.files[fileId]? = some contents ∧
      contents.length = if fileId < accepted.fileId then 4294967296 else accepted.offset := by
  rcases Nat.lt_or_eq_of_le below with lower | same
  · obtain ⟨contents,found,full⟩ := (settled.stands accepted rfl).2.1 fileId lower
    exact ⟨contents,found,by rw [if_pos lower,full]⟩
  · obtain ⟨contents,found,cut⟩ := settled.last
    exact ⟨contents,by rw [same]; exact found,by rw [if_neg (by omega),cut]⟩

theorem trimFile_settled (settled : Settled format acceptedEnd storage) (fileIds : List Nat) :
    Delivers (ValueLogRecovery.trimFile fileIds acceptedEnd) storage (fun _ after => Still storage after)
      (fun _ after => Still storage after) := by
  cases acceptedEnd with
  | none => exact .refl storage
  | some accepted =>
    obtain ⟨contents,found,cut⟩ := settled.last
    have same : storage.vlog.files.insert accepted.fileId (contents.take accepted.offset) = storage.vlog.files := by
      rw [←cut,List.take_length]
      refine Std.ExtTreeMap.ext_getElem? ?_
      intro fileId
      rw [Std.ExtTreeMap.getElem?_insert]
      split
      · rename_i here
        rw [←Std.LawfulEqCmp.eq_of_compare here,found]
      · rfl
    have still : ∀ after, Framed storage after → after.vlog.catalog = storage.vlog.catalog →
        after.vlog.files = storage.vlog.files → Still storage after := by
      intro after framed catalog files
      refine ⟨?_,framed.index,framed.answered⟩
      obtain ⟨_,⟨_,_,_,_⟩,_,_⟩ := after
      obtain ⟨_,⟨_,_,_,_⟩,_,_⟩ := storage
      obtain ⟨-,uuid,geometry,-⟩ := framed
      simp only at uuid geometry catalog files
      rw [uuid,geometry,catalog,files]
    refine delivers_bind.mpr (delivers_get.mpr (delivers_bind.mpr (delivers_lift.mpr ⟨?_,fun _ _ => .refl storage⟩)))
    intro _ _
    refine (cutFile_delivers found ((settled.registered _).mpr ⟨contents,found⟩) (by omega)).mono ?_ ?_
    · intro _ after kept
      exact still after kept.1 kept.2.1 (kept.2.2.trans same)
    · intro _ after failed
      obtain ⟨-,framed,catalog,files⟩ := failed
      exact still after framed catalog (files.elim id (fun cut => cut.trans same))

-- A second trim moves no byte, whatever files it is told of.
theorem trim_settled (settled : Settled format acceptedEnd storage) (fileIds : List Nat) :
    Delivers (ValueLogRecovery.trim acceptedEnd fileIds) storage (fun _ after => Still storage after)
      (fun _ after => Still storage after) := by
  refine (trimFile_settled settled fileIds).bind ?_ (fun _ _ still => still)
  intro _ cut still
  have settled := settled.still still
  have above : ∀ fileId ∈ ValueLogRecovery.suffixFiles acceptedEnd fileIds, cut.vlog.files[fileId]? = none :=
    fun fileId member => settled.absent (mem_suffixFiles.mp member).2
  have removed : Delivers ((ValueLogRecovery.suffixFiles acceptedEnd fileIds).forM ValueLogRecovery.removeSuffixFile) cut
      (fun _ after => Still cut after) (fun _ after => Still cut after) := by
    cases listed : ValueLogRecovery.suffixFiles acceptedEnd fileIds with
    | nil => exact .refl cut
    | cons first rest =>
      -- The first file behind the end is gone already, so the removal is refused.
      have missing := above first (by rw [listed]; exact List.mem_cons_self)
      change Delivers (ValueLogRecovery.removeSuffixFile first >>= fun _ =>
        rest.forM ValueLogRecovery.removeSuffixFile) cut _ _
      have refused : Delivers (ValueLogRecovery.removeSuffixFile first) cut (fun _ _ => False)
          (fun _ after => Still cut after) := by
        refine delivers_bind.mpr (delivers_mapError.mpr (delivers_bind.mpr (delivers_get.mpr ?_)))
        rw [if_pos (by rw [Std.ExtTreeMap.contains_eq_isSome_getElem?,missing]; rfl)]
        exact .refl cut
      exact refused.bind (fun _ _ no => by cases no) (fun _ _ stopped => stopped)
  refine removed.bind ?_ (fun _ _ later => still.trans later)
  intro _ left later
  refine Delivers.mono syncDirectory_harmless.mapError ?_ ?_
  · exact fun _ _ kept => (still.trans later).trans kept.2
  · exact fun _ _ stopped => (still.trans later).trans stopped.2

-- With the files of a new inventory it succeeds unless a call is refused.
theorem trim_settled_inventoried {inventory : ManagedInventory} (settled : Settled format acceptedEnd storage)
    (lists : inventory.Lists storage.vlog.files) :
    Delivers (ValueLogRecovery.trim acceptedEnd (inventory.vlogFiles.map VLogInventoryEntry.fileId)) storage
      (fun _ after => Still storage after) (fun _ after => storage.script ≠ [] ∧ Still storage after) :=
  ((trim_settled settled _).and (trim_delivers lists settled.registered settled.geometry settled.stands)).mono
    (fun _ _ kept => kept.1) (fun _ _ stopped => ⟨stopped.2.1,stopped.1⟩)

-- What an inspection finds has the accepted end for its physical tail.
theorem Settled.inspected (settled : Settled format acceptedEnd storage) :
    ∃ inventory topology, inspectFiles format storage.vlog.files = .ok inventory ∧
      RecoveryTopology.analyze inventory acceptedEnd = .ok topology ∧
      topology.physicalTailMatches acceptedEnd = true := by
  obtain ⟨inventory,inspected⟩ := inspectFiles_inspectable.mpr settled.inspectable
  have lists := inspectFiles_lists inspected
  refine ⟨inventory,listedTopology inventory,inspected,?_,?_⟩
  · refine (RecoveryTopology.analyze_ok lists).mpr ⟨?_,rfl⟩
    cases acceptedEnd with
    | none => trivial
    | some accepted =>
      obtain ⟨ends,reached⟩ := settled.stands accepted rfl
      obtain ⟨named,sized,-⟩ := ends.placeable.good
      exact ⟨by omega,by omega,reached⟩
  · refine (RecoveryTopology.physicalTail_iff lists.ordered acceptedEnd).mp ⟨?_,?_⟩
    · refine (RecoveryTopology.containsEnd_iff lists).mpr ?_
      intro accepted member
      exact (settled.stands accepted member).2.2
    · cases acceptedEnd with
      | none =>
        simp only [RecoveryTopology.hasSuffixAfter,Bool.not_eq_false',List.isEmpty_iff]
        apply List.eq_nil_iff_forall_not_mem.mpr
        intro entry member
        obtain ⟨contents,found,-⟩ := lists.mem.mp member
        rw [settled.absent (fun _ no => by cases no)] at found
        cases found
      | some accepted =>
        refine RecoveryTopology.noSuffix_listed.mpr ?_
        intro entry member
        obtain ⟨contents,found,length⟩ := lists.mem.mp member
        refine ⟨settled.present.mp ⟨contents,found⟩,?_⟩
        intro here
        obtain ⟨cut,there,sized⟩ := settled.last
        rw [here,there] at found
        obtain rfl := Option.some.inj found
        omega

end settled

end ExpirKv
