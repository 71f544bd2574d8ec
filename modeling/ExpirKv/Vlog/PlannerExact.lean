import ExpirKv.Vlog.Planner
import ExpirKv.Vlog.Scan

namespace ExpirKv
open VLogGeometry

-- The lengths `prepare_envelope` plans: TX_BEGIN, the footer, puts and deletes.
def EnvelopeRecordLen (encodedLen : Nat) : Prop :=
  encodedLen = txBeginEncodedLen ∨ encodedLen = txPreparedEndEncodedLen ∨
    (minKvRecordLen ≤ encodedLen ∧ encodedLen ≤ maxKvRecordLen) ∨
    (minDeleteRecordLen ≤ encodedLen ∧ encodedLen ≤ 60053)

instance (encodedLen : Nat) : Decidable (EnvelopeRecordLen encodedLen) :=
  inferInstanceAs (Decidable (_ ∨ _))

theorem EnvelopeRecordLen.bounds {encodedLen : Nat} (allowed : EnvelopeRecordLen encodedLen) :
    43 ≤ encodedLen ∧ encodedLen ≤ 60055 := by
  simp only [EnvelopeRecordLen,txBeginEncodedLen,txPreparedEndEncodedLen,minKvRecordLen,maxKvRecordLen,
    minDeleteRecordLen] at allowed
  omega

-- Where records begin once the page at an offset is open.
def areaOffset (offset : Nat) : Nat :=
  if offset = 0 then 64 else if offset % 65536 = 0 then offset + 16 else offset

-- The record cannot end in this file: it is too long for it, or it would leave a
-- tail that no PAGE_END fills.
def OutgrowsFile (position : VLogPosition) (encodedLen : Nat) : Prop :=
  4294967296 < areaOffset position.offset + encodedLen + 43 ∧
    areaOffset position.offset + encodedLen ≠ 4294967296

instance (position : VLogPosition) (encodedLen : Nat) : Decidable (OutgrowsFile position encodedLen) :=
  inferInstanceAs (Decidable (_ ∧ _))

def recordFileId (position : VLogPosition) (encodedLen : Nat) : Nat :=
  if OutgrowsFile position encodedLen then position.fileId + 1 else position.fileId

theorem ensureRecordArea_inside {file offset : Nat} (placeable : Placeable ⟨file,offset⟩)
    (inside : offset < 4294967296) :
    ∃ headers, LayoutPlanner.ensureRecordArea ⟨production,⟨file,offset⟩⟩ =
      .ok (headers,⟨production,⟨file,areaOffset offset⟩⟩) := by
  have bounded : file ≤ 999999 := placeable.good.1
  have opened : (LayoutPlanner.areaHeaders production ⟨file,offset⟩).2 = ⟨file,areaOffset offset⟩ := by
    simp only [LayoutPlanner.areaHeaders,areaOffset,vlogPageSize,firstPageRecordAreaStart,otherPageRecordAreaOffset]
    split
    · rfl
    · split <;> rfl
  have area : InRecordArea ⟨file,areaOffset offset⟩ := by
    rcases placeable.area with aligned | area
    · simp only at aligned
      simp only [areaOffset,aligned,if_true]
      split
      · exact ⟨bounded,by simp,by simp,by simp⟩
      · exact ⟨bounded,by simp only; omega,by simp only; omega,by simp only; omega⟩
    · obtain ⟨-,-,low,first⟩ := id area
      simp only at low first
      rw [areaOffset,if_neg (by omega),if_neg (by omega)]
      exact area
  have started := validateRecordStart_production.mpr area
  refine ⟨(LayoutPlanner.areaHeaders production ⟨file,offset⟩).1,?_⟩
  rw [LayoutPlanner.ensureRecordArea,LayoutPlanner.rollFullFile,
    if_neg (show ¬offset = maxVlogFileSize from fun full => by simp only [maxVlogFileSize] at full; omega),ok_bind]
  simp only [opened,started,ok_bind,pure_ok]

theorem ensureRecordArea_full {file : Nat} (room : file < 999999) :
    ∃ headers, LayoutPlanner.ensureRecordArea ⟨production,⟨file,4294967296⟩⟩ =
      .ok (headers,⟨production,⟨file + 1,64⟩⟩) := by
  have started : validateRecordStart ⟨file + 1,64⟩ production = .ok () :=
    validateRecordStart_production.mpr ⟨room,by simp,by simp,by simp⟩
  refine ⟨(LayoutPlanner.areaHeaders production ⟨file + 1,0⟩).1,?_⟩
  rw [LayoutPlanner.ensureRecordArea,LayoutPlanner.rollFullFile,if_pos rfl,
    if_neg (show ¬file ≥ maxVlogFileId from Nat.not_le.mpr room),ok_bind]
  simp only [LayoutPlanner.areaHeaders,if_true,firstPageRecordAreaStart,started,ok_bind,pure_ok]

theorem ensureRecordArea_last :
    LayoutPlanner.ensureRecordArea ⟨production,⟨999999,4294967296⟩⟩ = .error capacityError := rfl

theorem placeRecord_fits {start : VLogPosition} {encodedLen : Nat} (preludes : List LayoutPrelude)
    (area : InRecordArea start)
    (inside : start.offset + encodedLen ≤ (start.offset / 65536 + 1) * 65536)
    (tail : (start.offset + encodedLen) % 65536 = 0 ∨
      start.offset + encodedLen + 43 ≤ (start.offset / 65536 + 1) * 65536) :
    LayoutPlanner.placeRecord preludes ⟨production,start⟩ encodedLen =
      .ok (⟨preludes,start,encodedLen⟩,⟨production,⟨start.fileId,start.offset + encodedLen⟩⟩) := by
  obtain ⟨-,bounded,-,-⟩ := area
  have fits : ¬encodedLen > (start.offset / 65536 + 1) * 65536 - start.offset := by omega
  have after : ¬((start.offset / 65536 + 1) * 65536 - start.offset - encodedLen ≠ 0 ∧
      (start.offset / 65536 + 1) * 65536 - start.offset - encodedLen < pageEndMinSize) := by
    simp only [pageEndMinSize]
    omega
  have ended : ¬start.offset + encodedLen > maxVlogFileSize := by
    simp only [maxVlogFileSize]
    omega
  simp only [LayoutPlanner.placeRecord,remainingInPage_production bounded,ok_bind,rejectIf_false fits,
    rejectIf_false after,rejectIf_false ended,pure_ok]

-- A page boundary opens a page that is empty but for its headers, unless it is the
-- end of the last file.
theorem ensureRecordArea_fresh {file offset : Nat} (bounded : file ≤ 999999) (offset_le : offset ≤ 4294967296)
    (aligned : offset % 65536 = 0) :
    (∃ headers start, LayoutPlanner.ensureRecordArea ⟨production,⟨file,offset⟩⟩ = .ok (headers,⟨production,start⟩) ∧
      InRecordArea start ∧ start.offset % 65536 ≤ 64 ∧
      start.fileId = if offset = 4294967296 then file + 1 else file) ∨
    (file = 999999 ∧ offset = 4294967296 ∧
      LayoutPlanner.ensureRecordArea ⟨production,⟨file,offset⟩⟩ = .error capacityError) := by
  by_cases full : offset = 4294967296
  · subst full
    by_cases room : file < 999999
    · obtain ⟨headers,opened⟩ := ensureRecordArea_full room
      refine .inl ⟨headers,_,opened,⟨?_,?_,?_,?_⟩,?_,?_⟩
      all_goals simp only [if_true]
      all_goals omega
    · obtain rfl : file = 999999 := by omega
      exact .inr ⟨rfl,rfl,ensureRecordArea_last⟩
  · have placeable : Placeable ⟨file,offset⟩ := ⟨⟨bounded,offset_le,.inl aligned⟩,.inl aligned⟩
    obtain ⟨headers,opened⟩ := ensureRecordArea_inside placeable (by omega)
    have area := (ensureRecordArea_opens opened).1.area
    refine .inl ⟨headers,_,opened,area,?_,?_⟩
    · simp only [areaOffset,aligned,if_true]
      split <;> omega
    · rw [if_neg full]

theorem placeRecord_fresh {start : VLogPosition} {encodedLen : Nat} (preludes : List LayoutPrelude)
    (area : InRecordArea start) (fresh : start.offset % 65536 ≤ 64) (short : encodedLen ≤ 60055) :
    LayoutPlanner.placeRecord preludes ⟨production,start⟩ encodedLen =
      .ok (⟨preludes,start,encodedLen⟩,⟨production,⟨start.fileId,start.offset + encodedLen⟩⟩) :=
  placeRecord_fits preludes area (by omega) (.inr (by omega))

-- Planning fails at the end of the last file, and nowhere else.
theorem planRecord_total {position : VLogPosition} {encodedLen : Nat} (placeable : Placeable position)
    (long : 43 ≤ encodedLen) (short : encodedLen ≤ 60055) :
    (recordFileId position encodedLen ≤ 999999 ∧ ∃ placement next,
      LayoutPlanner.planRecord ⟨production,position⟩ encodedLen = .ok (placement,next) ∧
      placement.recordStart.fileId = recordFileId position encodedLen) ∨
    (999999 < recordFileId position encodedLen ∧
      LayoutPlanner.planRecord ⟨production,position⟩ encodedLen = .error capacityError) := by
  obtain ⟨file,offset⟩ := position
  obtain ⟨bounded,offset_le,room⟩ := id placeable.good
  simp only at bounded offset_le room
  have sized : ¬(encodedLen < pageEndMinSize ∨ encodedLen > vlogPageSize) := by
    simp only [pageEndMinSize,vlogPageSize]
    omega
  simp only [LayoutPlanner.planRecord,rejectIf_false sized,ok_bind,LayoutPlanner.planRecordInner]
  by_cases full : offset = 4294967296
  · -- A full file: the record opens the next one.
    have outgrown : OutgrowsFile ⟨file,offset⟩ encodedLen := by
      have behind : areaOffset offset = 4294967312 := by rw [full]; rfl
      simp only [OutgrowsFile,behind]
      omega
    simp only [recordFileId,if_pos outgrown]
    rcases ensureRecordArea_fresh bounded offset_le (by omega) with
      ⟨headers,start,opened,area,fresh,filed⟩ | ⟨rfl,-,failed⟩
    · rw [if_pos full] at filed
      have direct : LayoutPlanner.needsPageEnd ((start.offset / 65536 + 1) * 65536 - start.offset) encodedLen = false := by
        simp only [LayoutPlanner.needsPageEnd,Bool.or_eq_false_iff,Bool.and_eq_false_iff,decide_eq_false_iff_not]
        omega
      simp only [opened,ok_bind,remainingInPage_production area.2.1,direct,Bool.false_eq_true,if_false,
        placeRecord_fresh _ area fresh short]
      refine .inl ⟨?_,_,_,rfl,filed⟩
      exact filed ▸ area.1
    · rw [failed]
      exact .inr ⟨by omega,rfl⟩
  · obtain ⟨headers,opened⟩ := ensureRecordArea_inside placeable (by omega)
    have area := (ensureRecordArea_opens opened).1.area
    obtain ⟨-,inside,low,first⟩ := id area
    simp only at inside low first
    have near : offset ≤ areaOffset offset ∧ (areaOffset offset = offset ∨ areaOffset offset % 65536 ≤ 64) := by
      simp only [areaOffset]
      split
      · omega
      · split <;> omega
    simp only [opened,ok_bind,remainingInPage_production inside]
    by_cases padded : LayoutPlanner.needsPageEnd ((areaOffset offset / 65536 + 1) * 65536 - areaOffset offset) encodedLen = true
    · -- The page is filled with a PAGE_END and the record goes into the page after it.
      simp only [padded,if_true,LayoutPlanner.padPage]
      simp only [LayoutPlanner.needsPageEnd,Bool.or_eq_true,Bool.and_eq_true,decide_eq_true_eq] at padded
      have fills : ¬(areaOffset offset / 65536 + 1) * 65536 - areaOffset offset < pageEndMinSize := by
        simp only [pageEndMinSize]
        omega
      have pageEnds : areaOffset offset + ((areaOffset offset / 65536 + 1) * 65536 - areaOffset offset) =
          (areaOffset offset / 65536 + 1) * 65536 := by omega
      have outgrown : OutgrowsFile ⟨file,offset⟩ encodedLen ↔
          (areaOffset offset / 65536 + 1) * 65536 = 4294967296 := by
        simp only [OutgrowsFile]
        omega
      simp only [rejectIf_false fills,ok_bind,pageEnds,recordFileId,outgrown]
      have bound : (areaOffset offset / 65536 + 1) * 65536 ≤ 4294967296 := by omega
      rcases ensureRecordArea_fresh bounded bound (by omega) with
        ⟨after,start,reopened,area,fresh,filed⟩ | ⟨rfl,atEnd,failed⟩
      · simp only [reopened,ok_bind,pure_ok,placeRecord_fresh _ area fresh short]
        refine .inl ⟨?_,_,_,rfl,filed⟩
        exact filed ▸ area.1
      · rw [failed,if_pos atEnd]
        exact .inr ⟨by omega,rfl⟩
    · simp only [padded,Bool.false_eq_true,if_false]
      simp only [LayoutPlanner.needsPageEnd,Bool.or_eq_true,Bool.and_eq_true,decide_eq_true_eq] at padded
      have fits : ¬OutgrowsFile ⟨file,offset⟩ encodedLen := by
        simp only [OutgrowsFile]
        omega
      simp only [recordFileId,if_neg fits]
      rw [placeRecord_fits headers area (by simp only; omega) (by simp only; omega)]
      exact .inl ⟨bounded,_,_,rfl,rfl⟩

-- The pieces of a placement, each with its length.
def LayoutPrelude.piece : LayoutPrelude → VLogPosition × Nat
  | .pageHeader position _ => (position,pageHeaderEncodedLen)
  | .fileHeader position => (position,fileHeaderEncodedLen)
  | .pageEnd position encodedLen => (position,encodedLen)

def RecordPlacement.pieces (placement : RecordPlacement) : List (VLogPosition × Nat) :=
  placement.preludes.map LayoutPrelude.piece ++ [(placement.recordStart,placement.encodedLen)]

-- Where the piece after a position may start.
inductive Adjoins : VLogPosition → VLogPosition → Prop
  | same (position : VLogPosition) : Adjoins position position
  | roll (file : Nat) : Adjoins ⟨file,4294967296⟩ ⟨file + 1,0⟩

def Contiguous : VLogPosition → List (VLogPosition × Nat) → VLogPosition → Prop
  | position,[],finish => position = finish
  | position,(start,len) :: rest,finish => Adjoins position start ∧ Contiguous ⟨start.fileId,start.offset + len⟩ rest finish

theorem Contiguous.append {before after : List (VLogPosition × Nat)} {position middle finish : VLogPosition}
    (left : Contiguous position before middle) (right : Contiguous middle after finish) :
    Contiguous position (before ++ after) finish := by
  induction before generalizing position with
  | nil =>
    obtain rfl := left
    exact right
  | cons piece rest ih => exact ⟨left.1,ih left.2⟩

def LayoutPrelude.isPageEnd : LayoutPrelude → Bool
  | .pageEnd _ _ => true
  | _ => false

-- A header stands on its page boundary with the number of that page, and a PAGE_END
-- fills the rest of one page's record area.
def LayoutPrelude.Sound : LayoutPrelude → Prop
  | .pageHeader page pageNo => page.fileId ≤ 999999 ∧ pageNo ≤ 65535 ∧ page.offset = pageNo * 65536
  | .fileHeader position => position.fileId ≤ 999999
  | .pageEnd pad encodedLen =>
    InRecordArea pad ∧ pad.offset + encodedLen = (pad.offset / 65536 + 1) * 65536 ∧ 43 ≤ encodedLen

-- What one successful call does.
structure Placed (position : VLogPosition) (encodedLen : Nat) (placement : RecordPlacement)
    (next : VLogPosition) : Prop where
  sized : placement.encodedLen = encodedLen
  tail : next.offset % 65536 = 0 ∨ 43 ≤ 65536 - next.offset % 65536
  bounded : next.fileId ≤ 999999 ∧ next.offset ≤ 4294967296
  recordArea : InRecordArea placement.recordStart
  onePage : placement.recordStart.offset + encodedLen ≤ (placement.recordStart.offset / 65536 + 1) * 65536
  preludes : ∀ entry ∈ placement.preludes, entry.Sound
  contiguous : Contiguous position placement.pieces next
  oneEnd : (placement.preludes.filter LayoutPrelude.isPageEnd).length ≤ 1
  recordOffset : placement.recordStart.offset < 2 ^ 32
  files : ∀ piece ∈ placement.pieces, piece.1.fileId ≤ 999999
  file : placement.recordStart.fileId = recordFileId position encodedLen

theorem LayoutPrelude.Sound.file {entry : LayoutPrelude} (sound : entry.Sound) : entry.piece.1.fileId ≤ 999999 := by
  cases entry with
  | pageHeader page pageNo => exact sound.1
  | fileHeader position => exact sound
  | pageEnd pad encodedLen => exact sound.1.1

section opens
variable {position start : VLogPosition} {preludes : List LayoutPrelude}

theorem Opens.contiguous (opens : Opens position preludes start) :
    Contiguous position (preludes.map LayoutPrelude.piece) start := by
  cases opens with
  | inside _ => rfl
  | page _ _ _ _ => exact ⟨.same _,rfl⟩
  | file _ => exact ⟨.same _,.same _,rfl⟩
  | roll _ => exact ⟨.roll _,.same _,rfl⟩

-- Opening pushes page and file headers only.
theorem Opens.sound (opens : Opens position preludes start) :
    ∀ entry ∈ preludes, entry.isPageEnd = false ∧ entry.Sound := by
  intro entry member
  cases opens with
  | inside _ => cases member
  | page file low high aligned =>
    cases List.mem_singleton.mp member
    refine ⟨rfl,file,?_,?_⟩
    · omega
    · simp only
      omega
  | file file | roll file =>
    rcases List.mem_cons.mp member with rfl | member
    · exact ⟨rfl,file,by omega,rfl⟩
    · cases List.mem_singleton.mp member
      exact ⟨rfl,file⟩

theorem Opens.noPageEnd (opens : Opens position preludes start) :
    preludes.filter LayoutPrelude.isPageEnd = [] := by
  rw [List.filter_eq_nil_iff]
  intro entry member
  simp [(opens.sound entry member).1]

theorem Prelude.contiguous (opened : Prelude position preludes start) :
    Contiguous position (preludes.map LayoutPrelude.piece) start := by
  cases opened with
  | direct opens => exact opens.contiguous
  | padded opens _ _ opens' =>
    rw [List.map_append,List.map_cons]
    exact opens.contiguous.append ⟨.same _,opens'.contiguous⟩

theorem Prelude.oneEnd (opened : Prelude position preludes start) :
    (preludes.filter LayoutPrelude.isPageEnd).length ≤ 1 := by
  cases opened with
  | direct opens => simp [opens.noPageEnd]
  | padded opens _ _ opens' => simp [List.filter_cons,opens.noPageEnd,opens'.noPageEnd,LayoutPrelude.isPageEnd]

theorem Prelude.sound (opened : Prelude position preludes start) : ∀ entry ∈ preludes, entry.Sound := by
  intro entry member
  cases opened with
  | direct opens => exact (opens.sound entry member).2
  | padded opens fills long opens' =>
    rcases List.mem_append.mp member with member | member
    · exact (opens.sound entry member).2
    · rcases List.mem_cons.mp member with rfl | member
      · exact ⟨opens.area,fills,long⟩
      · exact (opens'.sound entry member).2

end opens

theorem Planned.placed {position next : VLogPosition} {encodedLen : Nat} {placement : RecordPlacement}
    (planned : Planned position encodedLen placement next)
    (file : placement.recordStart.fileId = recordFileId position encodedLen) :
    Placed position encodedLen placement next := by
  obtain ⟨opened,sized,inside,ends,placeable⟩ := planned
  have area := opened.area
  obtain ⟨fileId,offset,tail⟩ := placeable.good
  refine ⟨sized,by omega,⟨fileId,offset⟩,area,inside,opened.sound,?_,opened.oneEnd,area.2.1,?_,file⟩
  · refine opened.contiguous.append ⟨.same _,?_⟩
    rw [sized,ends]
    rfl
  · intro piece member
    rcases List.mem_append.mp member with member | member
    · obtain ⟨entry,pushed,rfl⟩ := List.mem_map.mp member
      exact (opened.sound entry pushed).file
    · cases List.mem_singleton.mp member
      exact area.1

theorem fromPosition_placeable {position : VLogPosition} (placeable : Placeable position) :
    LayoutPlanner.fromPosition production position = .ok ⟨production,position⟩ := by
  obtain ⟨⟨file,offset,-⟩,area⟩ := placeable
  have bounds : ¬(position.fileId > maxVlogFileId ∨ position.offset > maxVlogFileSize) := by
    simp only [maxVlogFileId,maxVlogFileSize]
    omega
  have minimum : ¬(position.offset ≠ 0 ∧ position.offset ≠ maxVlogFileSize ∧ position.offset % vlogPageSize ≠ 0 ∧
      position.offset % vlogPageSize <
        if position.offset < vlogPageSize then firstPageRecordAreaStart else otherPageRecordAreaOffset) := by
    simp only [maxVlogFileSize,vlogPageSize,firstPageRecordAreaStart,otherPageRecordAreaOffset]
    rcases area with aligned | ⟨-,-,low,first⟩
    · omega
    · split <;> omega
  simp only [LayoutPlanner.fromPosition,production_validate,ok_bind,rejectIf_false bounds,rejectIf_false minimum,pure_ok]

section scanned
variable [Crc32c] {target : ScanTarget}

-- Only the footer sets `footer`, and only in the last chunk.
theorem acceptRecord_footer {state state' : ScanState} {isLast checked : Bool} {record : DecodedRecord}
    (unset : state.footer = none) (accepted : state.acceptRecord target isLast record = .ok (state',checked)) :
    state'.footer = none ∨ (isLast = true ∧ checked = true) := by
  cases record with
  | pageEnd =>
    simp only [ScanState.acceptRecord,bind_ok,exists_unit,pure_ok,Except.ok.injEq,Prod.mk.injEq] at accepted
    obtain ⟨-,rfl,-⟩ := accepted
    exact .inl unset
  | txBegin found | kvRecord found | deleteRecord found =>
    simp only [ScanState.acceptRecord,bind_ok,exists_unit,pure_ok,Except.ok.injEq,Prod.mk.injEq] at accepted
    obtain ⟨-,accepted⟩ := accepted
    grind
  | txPreparedEnd found =>
    simp only [ScanState.acceptRecord,bind_ok,exists_unit,rejectIf_ok,pure_ok,Except.ok.injEq,Prod.mk.injEq,
      not_or,Bool.not_eq_false] at accepted
    obtain ⟨begin,-,⟨-,-,-,-,-,-,-,-,-,-,-,last⟩,crc,-,-,-,rfl⟩ := accepted
    exact .inr ⟨last,rfl⟩

theorem scanContents_footer {state state' : ScanState} {chunk : PhysicalChunk} {isLast checked : Bool}
    (geometry : target.geometry = production) (unset : state.footer = none)
    (scanned : state.scanContents target chunk isLast = .ok (state',checked)) :
    state'.footer = none ∨ (isLast = true ∧ checked = true ∧ InRecordArea chunk.position ∧
      chunk.position.offset + chunk.bytes.length ≤ (chunk.position.offset / 65536 + 1) * 65536) := by
  unfold ScanState.scanContents at scanned
  split at scanned
  · simp only [map_ok,ScanState.scanPageHeader,bind_ok,exists_unit,pure_ok,Except.ok.injEq,Prod.mk.injEq] at scanned
    obtain ⟨_,⟨-,-,header,-,-,rfl⟩,rfl,-⟩ := scanned
    exact .inl unset
  · split at scanned
    · simp only [map_ok,ScanState.scanFileHeader,bind_ok,exists_unit,pure_ok,Except.ok.injEq,Prod.mk.injEq] at scanned
      obtain ⟨_,⟨-,-,header,-,-,rfl⟩,rfl,-⟩ := scanned
      exact .inl unset
    · simp only [ScanState.scanRecord,decodeRecordAt,geometry,bind_ok,exists_unit] at scanned
      obtain ⟨-,record,⟨-,bounds,-⟩,header,-,named,identified,accepted⟩ := scanned
      obtain ⟨area,inside⟩ := validateRecordBounds_production.mp bounds
      have kept : named.footer = none := by
        unfold ScanState.checkIdentity at identified
        split at identified
        · simp only [bind_ok,exists_unit,pure_ok,Except.ok.injEq] at identified
          obtain ⟨-,rfl⟩ := identified
          exact unset
        · cases identified
          exact unset
      rcases acceptRecord_footer kept accepted with none | ⟨last,checked⟩
      · exact .inl none
      · exact .inr ⟨last,checked,area,inside⟩

theorem scanChunk_footer {state state' : ScanState} {chunk : PhysicalChunk} {isLast : Bool}
    (geometry : target.geometry = production) (unset : state.footer = none)
    (scanned : state.scanChunk target chunk isLast = .ok state') :
    state'.footer = none ∨ (isLast = true ∧ Placeable state'.physicalEnd) := by
  simp only [ScanState.scanChunk,bind_ok,exists_unit,rejectIf_ok,pure_ok,Except.ok.injEq] at scanned
  obtain ⟨-,_,-,-,⟨next,checked⟩,contents,physicalEnd,ended,closes,rfl⟩ := scanned
  rcases scanContents_footer geometry unset contents with none | ⟨last,rfl,area,inside⟩
  · exact .inl none
  · refine .inr ⟨last,?_⟩
    simp only [ScanState.checkRecordEnd,if_true,geometry] at closes
    have good : GoodEnd physicalEnd := validateTransactionRecordEnd_production.mp closes
    simp only [chunkEnd,bind_ok,exists_unit,pure_ok,Except.ok.injEq] at ended
    obtain ⟨-,-,rfl⟩ := ended
    refine ⟨good,?_⟩
    by_cases aligned : (chunk.position.offset + chunk.bytes.length) % 65536 = 0
    · exact .inl aligned
    · obtain ⟨file,bounded,low,first⟩ := area
      exact .inr ⟨file,by simp only; omega,by simp only; omega,by simp only; omega⟩

-- The scan ends with the chunk that holds the footer.
theorem scanChunks_footer {chunks : List PhysicalChunk} {state final : ScanState}
    (geometry : target.geometry = production) (unset : state.footer = none)
    (scanned : state.scanChunks target chunks = .ok final) :
    final.footer = none ∨ Placeable final.physicalEnd := by
  induction chunks generalizing state with
  | nil =>
    cases scanned
    exact .inl unset
  | cons chunk rest ih =>
    simp only [ScanState.scanChunks,bind_ok] at scanned
    obtain ⟨next,one,others⟩ := scanned
    rcases scanChunk_footer geometry unset one with none | ⟨last,placeable⟩
    · exact ih none others
    · rw [List.isEmpty_iff] at last
      subst last
      cases others
      exact .inr placeable

theorem scanPreparedEnvelope_placeable {chunks : List PhysicalChunk} {databaseUuid : Uuid}
    {vlogBegin vlogEnd : VLogPosition} {expected : Option Nat} {scanned : ScannedEnvelope}
    (accepted : scanPreparedEnvelope chunks production databaseUuid vlogBegin vlogEnd expected = .ok scanned) :
    Placeable vlogEnd := by
  simp only [scanPreparedEnvelope,bind_ok,exists_unit,rejectIf_ok,orError_ok,not_not,ne_eq] at accepted
  obtain ⟨-,_,-,-,final,ran,rfl,_,-,footer,found,-⟩ := accepted
  rcases scanChunks_footer rfl rfl ran with none | placeable
  · rw [none] at found
    cases found
  · exact placeable

-- Where a planner comes from: an empty log, or the end of an accepted envelope.
inductive PlannerStart : LayoutPlanner → Prop
  | empty {planner : LayoutPlanner} : LayoutPlanner.empty production = .ok planner → PlannerStart planner
  | scanned {planner : LayoutPlanner} {chunks : List PhysicalChunk} {databaseUuid : Uuid}
      {vlogBegin vlogEnd : VLogPosition} {expected : Option Nat} {envelope : ScannedEnvelope} :
      scanPreparedEnvelope chunks production databaseUuid vlogBegin vlogEnd expected = .ok envelope →
      LayoutPlanner.fromPosition production vlogEnd = .ok planner → PlannerStart planner

theorem PlannerStart.placeable {planner : LayoutPlanner} (starts : PlannerStart planner) :
    planner.geometry = production ∧ Placeable planner.position := by
  cases starts with
  | empty made =>
    cases made
    exact ⟨rfl,AppendPosition.empty.placeable⟩
  | scanned accepted made =>
    have placeable := scanPreparedEnvelope_placeable accepted
    rw [fromPosition_placeable placeable] at made
    cases made
    exact ⟨rfl,placeable⟩

end scanned

-- A failed call leaves the planner as it was, so a sequence of calls goes on after it.
def LayoutPlanner.afterCalls (planner : LayoutPlanner) : List Nat → LayoutPlanner
  | [] => planner
  | encodedLen :: rest =>
    match planner.planRecord encodedLen with
    | .ok (_,next) => next.afterCalls rest
    | .error _ => planner.afterCalls rest

theorem afterCalls_placeable {planner : LayoutPlanner} (lengths : List Nat) (geometry : planner.geometry = production)
    (placeable : Placeable planner.position) :
    (planner.afterCalls lengths).geometry = production ∧ Placeable (planner.afterCalls lengths).position := by
  induction lengths generalizing planner with
  | nil => exact ⟨geometry,placeable⟩
  | cons encodedLen rest ih =>
    unfold LayoutPlanner.afterCalls
    split
    · rename_i planned
      obtain ⟨_,position⟩ := planner
      obtain rfl := geometry
      obtain ⟨step,same⟩ := planRecord_planned planned
      exact ih same step.placeable
    · exact ih geometry placeable

theorem planner_call {planner : LayoutPlanner} (geometry : planner.geometry = production)
    (placeable : Placeable planner.position) {encodedLen : Nat} (allowed : EnvelopeRecordLen encodedLen) :
    (recordFileId planner.position encodedLen ≤ 999999 ∧ ∃ placement next,
      planner.planRecord encodedLen = .ok (placement,next) ∧
      Placed planner.position encodedLen placement next.position) ∨
    (999999 < recordFileId planner.position encodedLen ∧ planner.planRecord encodedLen = .error capacityError) := by
  obtain ⟨long,short⟩ := allowed.bounds
  obtain ⟨_,position⟩ := planner
  obtain rfl := geometry
  rcases planRecord_total placeable long short with ⟨room,placement,next,planned,file⟩ | full
  · exact .inl ⟨room,placement,next,planned,(planRecord_planned planned).1.placed file⟩
  · exact .inr full

-- After any sequence of calls the next one places its record, or the log is full.
theorem layout_planner_invariant [Crc32c] :
    (∀ (chunks : List PhysicalChunk) (databaseUuid : Uuid) (vlogBegin vlogEnd : VLogPosition) (expected : Option Nat)
      (envelope : ScannedEnvelope),
      scanPreparedEnvelope chunks production databaseUuid vlogBegin vlogEnd expected = .ok envelope →
      LayoutPlanner.fromPosition production vlogEnd = .ok ⟨production,vlogEnd⟩) ∧
    (∀ (planner : LayoutPlanner) (lengths : List Nat), PlannerStart planner →
      (∀ encodedLen ∈ lengths, EnvelopeRecordLen encodedLen) →
      ∀ encodedLen, EnvelopeRecordLen encodedLen →
        (recordFileId (planner.afterCalls lengths).position encodedLen ≤ 999999 ∧
          ∃ placement next, (planner.afterCalls lengths).planRecord encodedLen = .ok (placement,next) ∧
            Placed (planner.afterCalls lengths).position encodedLen placement next.position) ∨
        (999999 < recordFileId (planner.afterCalls lengths).position encodedLen ∧
          (planner.afterCalls lengths).planRecord encodedLen = .error capacityError)) := by
  refine ⟨?_,?_⟩
  · intro chunks databaseUuid vlogBegin vlogEnd expected envelope accepted
    exact fromPosition_placeable (scanPreparedEnvelope_placeable accepted)
  · intro planner lengths starts _ encodedLen allowed
    obtain ⟨geometry,placeable⟩ := starts.placeable
    obtain ⟨geometry,placeable⟩ := afterCalls_placeable lengths geometry placeable
    exact planner_call geometry placeable allowed

-- A 60055-byte put and a footer, then a put that no longer fits the first page.
theorem layout_planner_invariant_two_pages :
    ∃ placement next, ((⟨production,⟨0,0⟩⟩ : LayoutPlanner).afterCalls [71,60055,111]).planRecord 60055 =
        .ok (placement,next) ∧
      Placed ⟨0,60301⟩ 60055 placement next.position := by
  have starts : @PlannerStart castagnoli ⟨production,⟨0,0⟩⟩ := @PlannerStart.empty castagnoli _ rfl
  rcases (@layout_planner_invariant castagnoli).2 _ [71,60055,111] starts (by decide) 60055 (by decide) with
    ⟨-,placement,next,planned,placed⟩ | ⟨full,-⟩
  · exact ⟨placement,next,planned,placed⟩
  · exact absurd full (by decide)

end ExpirKv
