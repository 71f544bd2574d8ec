import Mathlib.Data.List.Sort
import ExpirKv.Recovery.Settled

namespace ExpirKv
open VLogGeometry Storage

section headers
variable [Crc32c] {format : FormatMetadata} {fileId : Nat} {contents : Bytes}

-- Headers that pass the inspection pass the last check of the writer.
theorem checkAcceptedHeaders_valid (long : 64 ≤ contents.length)
    (valid : validateFileIdentity format fileId contents = .ok ()) :
    ValueLogRecovery.checkAcceptedHeaders format.databaseUuid fileId contents = .ok () := by
  simp only [validateFileIdentity,bind_ok,orError_ok,mapError_ok,rejectIf_ok,not_or,not_not,ne_eq] at valid
  obtain ⟨encodedPage,pageTaken,encodedFile,fileTaken,pageHeader,pageRead,fileHeader,fileRead,identity⟩ := valid
  obtain ⟨pageFile,pageNo,fileFile,uuid,-,-,limit⟩ := identity
  obtain ⟨-,rfl⟩ := slice?_eq_some.mp pageTaken
  obtain ⟨-,rfl⟩ := slice?_eq_some.mp fileTaken
  have sized : fileHeader.pageSize = vlogPageSize := by rw [(VLogFileHeader.decode_canonical fileRead).1,VLogFileHeader.new]
  have read : readExactAt contents 0 (pageHeaderEncodedLen + fileHeaderEncodedLen) fileId = .ok (contents.take 64) := by
    rw [readExactAt,orError_ok,slice?_eq_some]
    refine ⟨?_,?_⟩
    · simp only [pageHeaderEncodedLen,fileHeaderEncodedLen]
      omega
    · simp only [pageHeaderEncodedLen,fileHeaderEncodedLen,List.drop_zero]
  have page : (contents.take 64).take pageHeaderEncodedLen = (contents.drop 0).take pageHeaderEncodedLen := by
    simp only [pageHeaderEncodedLen,List.take_take,List.drop_zero]
    congr 1
  have file : (contents.take 64).drop pageHeaderEncodedLen =
      (contents.drop pageHeaderEncodedLen).take fileHeaderEncodedLen := by
    simp only [pageHeaderEncodedLen,fileHeaderEncodedLen,List.drop_take]
  rw [ValueLogRecovery.checkAcceptedHeaders,read,mapError_ok.mpr rfl,ok_bind,page,mapError_ok.mpr pageRead,ok_bind,
    rejectIf_false (by simp [pageFile,pageNo]),ok_bind,file,mapError_ok.mpr fileRead,ok_bind]
  exact rejectIf_false (by simp [fileFile,uuid,sized,limit])

end headers

section opening
variable [Crc32c] {format : FormatMetadata} {acceptedEnd : Option VLogPosition} {accepted : VLogPosition}
  {storage : Storage}

-- The catalog lists the files from the first to the accepted one.
theorem Settled.catalog (settled : Settled format (some accepted) storage) :
    storage.vlog.catalog.toList = List.range (accepted.fileId + 1) := by
  have ordered : storage.vlog.catalog.toList.Pairwise (fun one other => one < other) :=
    Std.ExtTreeSet.ordered_toList.imp (fun before => Nat.compare_eq_lt.mp before)
  refine ordered.eq_of_mem_iff List.pairwise_lt_range ?_
  intro fileId
  rw [Std.ExtTreeSet.mem_toList,settled.registered,settled.present,List.mem_range,Nat.lt_succ_iff]

omit [Crc32c] in
-- A call that a scripted answer stops has changed nothing yet.
theorem still_stopped {storage : Storage} (_ : StorageError) (last : Storage) (scripted : storage.script ≠ [])
    (still : Still storage last) : storage.script ≠ [] ∧ Still storage last := ⟨scripted,still⟩

theorem checkAcceptedFile_harmless (settled : Settled format (some accepted) storage) {fileId : Nat}
    (below : fileId ≤ accepted.fileId) :
    Harmless (ValueLogRecovery.checkAcceptedFile accepted fileId) storage (fun _ => True) := by
  obtain ⟨contents,found,width⟩ := settled.sized below
  obtain ⟨ends,-⟩ := settled.stands accepted rfl
  have behind := ends.behind
  have long : 64 ≤ contents.length := by
    rw [width]
    split <;> omega
  have headers := checkAcceptedHeaders_valid long
    ((inspectFile_ok (settled.inspectable fileId contents found)).2.2.2 long)
  unfold ValueLogRecovery.checkAcceptedFile
  refine (openWritable_harmless found).mapError.bind (.refl storage) ?_ still_stopped
  intro _ opened _ still
  have listed := ((settled.still still).registered fileId).mpr ⟨contents,by rw [still.vlog,found]⟩
  refine (verify_harmless listed).mapError.bind still ?_ still_stopped
  intro _ verified _ still
  refine delivers_bind.mpr (delivers_get.mpr ?_)
  have full : verified.vlog.geometry = production := by rw [still.vlog,settled.geometry]
  refine (fileLen_harmless (by rw [still.vlog]; exact found)).mapError.bind still ?_ still_stopped
  intro len measured same still
  rw [rejectIf_false (by rw [same,width,full]; simp)]
  refine delivers_bind.mpr (delivers_lift.mpr ⟨fun _ _ => ?_,fun _ no => by cases no⟩)
  have whole : measured.contents fileId = contents := by
    rw [Storage.contents,still.vlog,found]
    rfl
  have uuid := (settled.still still).databaseUuid
  refine (reading_harmless _ (fun _ => rfl)).bind still ?_ still_stopped
  intro checked read same still
  have passed : checked = .ok () := by rw [same,whole,uuid,headers]
  rw [passed]
  exact delivers_lift.mpr ⟨fun _ _ => ⟨trivial,still⟩,fun _ no => by cases no⟩

theorem validateAcceptedCatalog_harmless (settled : Settled format (some accepted) storage) :
    Harmless (ValueLogRecovery.validateAcceptedCatalog accepted) storage (fun _ => True) := by
  refine delivers_bind.mpr (delivers_get.mpr ?_)
  simp only [settled.catalog]
  rw [rejectIf_false (fun differs => differs rfl)]
  refine delivers_bind.mpr (delivers_lift.mpr ⟨fun _ _ => ?_,fun _ no => by cases no⟩)
  refine harmless_forM ?_
  intro fileId member reached still
  exact checkAcceptedFile_harmless (settled.still still) (Nat.lt_succ_iff.mp (List.mem_range.mp member))

-- The state an append goes on from.
def acceptedState : Option VLogPosition → AppendState
  | none => .empty
  | some accepted =>
    if accepted.offset = 4294967296 then .atFileLimit accepted.fileId else .open accepted.fileId accepted.offset

theorem openAppendState_harmless (settled : Settled format acceptedEnd storage) :
    Harmless (ValueLogRecovery.openAppendState acceptedEnd) storage (fun state => state = acceptedState acceptedEnd) := by
  cases acceptedEnd with
  | none =>
    have empty : storage.vlog.catalog.isEmpty = true := by
      rw [Std.ExtTreeSet.isEmpty_iff,Std.ExtTreeSet.eq_empty_iff_forall_not_mem]
      intro fileId member
      obtain ⟨contents,found⟩ := (settled.registered fileId).mp member
      rw [settled.absent (fun _ no => by cases no)] at found
      cases found
    refine delivers_bind.mpr (delivers_get.mpr ?_)
    rw [empty,rejectIf_false (by simp)]
    exact delivers_bind.mpr (delivers_lift.mpr ⟨fun _ _ => ⟨rfl,.refl storage⟩,fun _ no => by cases no⟩)
  | some accepted =>
    obtain ⟨contents,found,width⟩ := settled.last
    obtain ⟨ends,-⟩ := settled.stands accepted rfl
    have behind := ends.behind
    refine delivers_bind.mpr (delivers_get.mpr ?_)
    simp only [settled.geometry]
    rw [fromPosition_placeable ends.placeable,rejectIf_false (by omega)]
    refine delivers_bind.mpr (delivers_lift.mpr ⟨fun _ _ => ?_,fun _ no => by cases no⟩)
    refine delivers_bind.mpr (delivers_lift.mpr ⟨fun _ _ => ?_,fun _ no => by cases no⟩)
    refine (openWritable_harmless found).mapError.bind (.refl storage) ?_ still_stopped
    intro _ opened _ still
    have listed := ((settled.still still).registered accepted.fileId).mpr ⟨contents,by rw [still.vlog,found]⟩
    refine (verify_harmless listed).mapError.bind still ?_ still_stopped
    intro _ verified _ still
    refine (fileLen_harmless (by rw [still.vlog]; exact found)).mapError.bind still ?_ still_stopped
    intro len measured same still
    rw [rejectIf_false (by rw [same,width]; exact fun differs => differs rfl)]
    refine delivers_bind.mpr (delivers_lift.mpr ⟨fun _ _ => ?_,fun _ no => by cases no⟩)
    refine (validateAcceptedCatalog_harmless (settled.still still)).bind still ?_ still_stopped
    exact fun _ _ _ still => ⟨rfl,still⟩

-- The writer begins where the accepted bytes end and owes no sync.
theorem intoWriter_settled (settled : Settled format acceptedEnd storage) :
    Delivers (ValueLogRecovery.intoWriter acceptedEnd) storage
      (fun writer after => Still storage after ∧
        writer = ⟨format.databaseUuid,production,acceptedState acceptedEnd,⟨∅,∅⟩,none,1,false,none⟩ ∧
        writer.position = appendPosition acceptedEnd)
      (fun _ after => storage.script ≠ [] ∧ Still storage after) := by
  refine (openAppendState_harmless settled).bind (.refl storage) ?_ (fun _ _ some still => ⟨some,still⟩)
  intro state reached same still
  refine delivers_bind.mpr (delivers_get.mpr ⟨still,?_,?_⟩)
  · rw [still.vlog,settled.databaseUuid,settled.geometry,same]
  · rw [ValueLogWriter.position]
    simp only [still.vlog,settled.geometry,same]
    cases acceptedEnd with
    | none => rfl
    | some accepted =>
      simp only [acceptedState,appendPosition,Option.getD_some]
      split
      · rename_i full
        have limit : production.maxFileSize = accepted.offset := full.symm
        rw [statePosition,limit]
      · rfl

end opening

end ExpirKv
