import ExpirKv.Vlog.FormatFacts

namespace ExpirKv
open VLogGeometry

inductive LayoutPrelude where
  | pageHeader (position : VLogPosition) (pageNo : Nat)
  | fileHeader (position : VLogPosition)
  | pageEnd (position : VLogPosition) (encodedLen : Nat)
  deriving DecidableEq, Repr

structure RecordPlacement where
  preludes : List LayoutPrelude
  recordStart : VLogPosition
  encodedLen : Nat
  deriving DecidableEq, Repr

structure LayoutPlanner where
  geometry : VLogGeometry
  position : VLogPosition
  deriving DecidableEq, Repr

namespace LayoutPlanner

def empty (geometry : VLogGeometry) : Result LayoutPlanner := do
  geometry.validate
  return ⟨geometry,⟨0,0⟩⟩

def fromPosition (geometry : VLogGeometry) (position : VLogPosition) : Result LayoutPlanner := do
  geometry.validate
  rejectIf (position.fileId > geometry.maxFileId ∨ position.offset > geometry.maxFileSize)
    (invalidVlogError .invalidArgument)
  let pageOffset := position.offset % geometry.pageSize
  let minimum :=
    if position.offset < geometry.pageSize then firstPageRecordAreaStart else otherPageRecordAreaOffset
  rejectIf (position.offset ≠ 0 ∧ position.offset ≠ geometry.maxFileSize ∧ pageOffset ≠ 0 ∧ pageOffset < minimum)
    (invalidVlogError .invalidArgument)
  return ⟨geometry,position⟩

def rollFullFile (geometry : VLogGeometry) (position : VLogPosition) : Result VLogPosition :=
  if position.offset = geometry.maxFileSize then
    if position.fileId ≥ geometry.maxFileId then .error capacityError else .ok ⟨position.fileId + 1,0⟩
  else .ok position

-- The headers pushed at a position, in the order of the source, and the position behind them.
def areaHeaders (geometry : VLogGeometry) (position : VLogPosition) : List LayoutPrelude × VLogPosition :=
  if position.offset = 0 then
    ([.pageHeader position 0,.fileHeader ⟨position.fileId,pageHeaderEncodedLen⟩],
      ⟨position.fileId,firstPageRecordAreaStart⟩)
  else if position.offset % geometry.pageSize = 0 then
    ([.pageHeader position (position.offset / geometry.pageSize)],
      ⟨position.fileId,position.offset + otherPageRecordAreaOffset⟩)
  else ([],position)

def ensureRecordArea (planner : LayoutPlanner) : Result (List LayoutPrelude × LayoutPlanner) := do
  let position ← rollFullFile planner.geometry planner.position
  let opened := areaHeaders planner.geometry position
  validateRecordStart opened.2 planner.geometry
  return (opened.1,⟨planner.geometry,opened.2⟩)

-- `record_len > remaining || matches!(remainder, Some(1..=42))`.
def needsPageEnd (remaining encodedLen : Nat) : Bool :=
  decide (encodedLen > remaining) ||
    (decide (1 ≤ remaining - encodedLen) && decide (remaining - encodedLen ≤ 42))

-- Fill the page from here on and open the next one.
def padPage (planner : LayoutPlanner) (remaining : Nat) : Result (List LayoutPrelude × LayoutPlanner) := do
  rejectIf (remaining < pageEndMinSize) (decodeError .invalidLayout)
  let padded : LayoutPlanner := ⟨planner.geometry,⟨planner.position.fileId,planner.position.offset + remaining⟩⟩
  let opened ← padded.ensureRecordArea
  return (.pageEnd planner.position remaining :: opened.1,opened.2)

def placeRecord (preludes : List LayoutPrelude) (planner : LayoutPlanner) (encodedLen : Nat) :
    Result (RecordPlacement × LayoutPlanner) := do
  let remaining ← remainingInPage planner.position.offset planner.geometry
  rejectIf (encodedLen > remaining) (invalidVlogError .invalidArgument)
  let after := remaining - encodedLen
  rejectIf (after ≠ 0 ∧ after < pageEndMinSize) (decodeError .invalidLayout)
  let recordEnd := planner.position.offset + encodedLen
  rejectIf (recordEnd > planner.geometry.maxFileSize) capacityError
  return (⟨preludes,planner.position,encodedLen⟩,⟨planner.geometry,⟨planner.position.fileId,recordEnd⟩⟩)

def planRecordInner (planner : LayoutPlanner) (encodedLen : Nat) : Result (RecordPlacement × LayoutPlanner) := do
  let opened ← planner.ensureRecordArea
  let remaining ← remainingInPage opened.2.position.offset opened.2.geometry
  if needsPageEnd remaining encodedLen then do
    let next ← opened.2.padPage remaining
    placeRecord (opened.1 ++ next.1) next.2 encodedLen
  else placeRecord opened.1 opened.2 encodedLen

def planRecord (planner : LayoutPlanner) (encodedLen : Nat) : Result (RecordPlacement × LayoutPlanner) := do
  rejectIf (encodedLen < pageEndMinSize ∨ encodedLen > planner.geometry.pageSize) (invalidVlogError .invalidArgument)
  planner.planRecordInner encodedLen

end LayoutPlanner

-- Where the planner may stand: on a page boundary, or inside a record area with
-- room left for a PAGE_END.
structure Placeable (position : VLogPosition) : Prop where
  good : GoodEnd position
  area : position.offset % 65536 = 0 ∨ InRecordArea position

-- The positions the production planner reaches, starting from an empty log.
inductive AppendPosition : VLogPosition → Prop
  | empty : AppendPosition ⟨0,0⟩
  | planned {position : VLogPosition} {encodedLen : Nat} {placement : RecordPlacement} {next : LayoutPlanner} :
      AppendPosition position → LayoutPlanner.planRecord ⟨production,position⟩ encodedLen = .ok (placement,next) →
      AppendPosition next.position

-- The headers that open the record area at a position, and where the area begins.
inductive Opens : VLogPosition → List LayoutPrelude → VLogPosition → Prop
  | inside {position : VLogPosition} : InRecordArea position → Opens position [] position
  | page {file offset : Nat} : file ≤ 999999 → 0 < offset → offset < 4294967296 → offset % 65536 = 0 →
      Opens ⟨file,offset⟩ [.pageHeader ⟨file,offset⟩ (offset / 65536)] ⟨file,offset + 16⟩
  | file {file : Nat} : file ≤ 999999 →
      Opens ⟨file,0⟩ [.pageHeader ⟨file,0⟩ 0,.fileHeader ⟨file,16⟩] ⟨file,64⟩
  | roll {file : Nat} : file < 999999 →
      Opens ⟨file,4294967296⟩ [.pageHeader ⟨file + 1,0⟩ 0,.fileHeader ⟨file + 1,16⟩] ⟨file + 1,64⟩

theorem Opens.area {position start : VLogPosition} {preludes : List LayoutPrelude}
    (opens : Opens position preludes start) : InRecordArea start := by
  cases opens with
  | inside area => exact area
  | page file low high aligned => exact ⟨file,by simp only; omega,by simp only; omega,by simp only; omega⟩
  | file file => exact ⟨file,by simp,by simp,by simp⟩
  | roll file => exact ⟨file,by simp,by simp,by simp⟩

theorem areaHeaders_opens {position : VLogPosition}
    (area : InRecordArea (LayoutPlanner.areaHeaders production position).2) :
    Opens position (LayoutPlanner.areaHeaders production position).1
      (LayoutPlanner.areaHeaders production position).2 := by
  obtain ⟨file,offset⟩ := position
  simp only [LayoutPlanner.areaHeaders,vlogPageSize,pageHeaderEncodedLen,firstPageRecordAreaStart,
    otherPageRecordAreaOffset] at area ⊢
  by_cases start : offset = 0
  · subst start
    rw [if_pos rfl] at area ⊢
    exact .file area.1
  · rw [if_neg start] at area ⊢
    by_cases aligned : offset % 65536 = 0
    · rw [if_pos aligned] at area ⊢
      obtain ⟨bound,inside,-,-⟩ := area
      simp only at bound inside
      exact .page bound (by omega) (by omega) aligned
    · rw [if_neg aligned] at area ⊢
      exact .inside area

theorem ensureRecordArea_opens {position : VLogPosition} {opened : List LayoutPrelude × LayoutPlanner}
    (planned : LayoutPlanner.ensureRecordArea ⟨production,position⟩ = .ok opened) :
    Opens position opened.1 opened.2.position ∧ opened.2.geometry = production := by
  simp only [LayoutPlanner.ensureRecordArea,bind_ok,exists_unit,validateRecordStart_production,pure_ok,
    Except.ok.injEq] at planned
  obtain ⟨rolled,roll,area,rfl⟩ := planned
  refine ⟨?_,rfl⟩
  have headers := areaHeaders_opens area
  simp only [LayoutPlanner.rollFullFile,maxVlogFileSize,maxVlogFileId] at roll
  split at roll
  · rename_i full
    split at roll
    · cases roll
    · rename_i room
      obtain rfl := Except.ok.inj roll
      obtain ⟨file,offset⟩ := position
      simp only at full room ⊢
      subst full
      exact .roll (by omega)
  · obtain rfl := Except.ok.inj roll
    exact headers

-- What planning one record does: open the record area, pad to the next page and open
-- that one when the record does not fit, and end where a later record can be placed.
inductive Prelude : VLogPosition → List LayoutPrelude → VLogPosition → Prop
  | direct {position start : VLogPosition} {preludes : List LayoutPrelude} :
      Opens position preludes start → Prelude position preludes start
  | padded {position pad start : VLogPosition} {before after : List LayoutPrelude} {len : Nat} :
      Opens position before pad → pad.offset + len = (pad.offset / 65536 + 1) * 65536 → 43 ≤ len →
      Opens ⟨pad.fileId,pad.offset + len⟩ after start →
      Prelude position (before ++ .pageEnd pad len :: after) start

theorem Prelude.area {position start : VLogPosition} {preludes : List LayoutPrelude}
    (opened : Prelude position preludes start) : InRecordArea start := by
  cases opened with
  | direct opens => exact opens.area
  | padded _ _ _ opens => exact opens.area

structure Planned (position : VLogPosition) (encodedLen : Nat) (placement : RecordPlacement)
    (next : VLogPosition) : Prop where
  opened : Prelude position placement.preludes placement.recordStart
  sized : placement.encodedLen = encodedLen
  inside : placement.recordStart.offset + encodedLen ≤ (placement.recordStart.offset / 65536 + 1) * 65536
  ends : next = ⟨placement.recordStart.fileId,placement.recordStart.offset + encodedLen⟩
  placeable : Placeable next

theorem padPage_opens {start : VLogPosition} {next : List LayoutPrelude × LayoutPlanner} {remaining : Nat}
    (padded : LayoutPlanner.padPage ⟨production,start⟩ remaining = .ok next) :
    ∃ after, next.1 = .pageEnd start remaining :: after ∧ 43 ≤ remaining ∧
      Opens ⟨start.fileId,start.offset + remaining⟩ after next.2.position ∧ next.2.geometry = production := by
  simp only [LayoutPlanner.padPage,bind_ok,exists_unit,rejectIf_ok,pure_ok,Except.ok.injEq,pageEndMinSize] at padded
  obtain ⟨room,opened,ensured,rfl⟩ := padded
  obtain ⟨opens,same⟩ := ensureRecordArea_opens ensured
  exact ⟨opened.1,rfl,by omega,opens,same⟩

theorem placeRecord_planned {position start : VLogPosition} {preludes : List LayoutPrelude} {encodedLen : Nat}
    {placement : RecordPlacement} {next : LayoutPlanner} (opened : Prelude position preludes start)
    (long : 43 ≤ encodedLen)
    (placed : LayoutPlanner.placeRecord preludes ⟨production,start⟩ encodedLen = .ok (placement,next)) :
    Planned position encodedLen placement next.position ∧ next.geometry = production := by
  have area := opened.area
  obtain ⟨file,inside,low,first⟩ := id area
  simp only [LayoutPlanner.placeRecord,remainingInPage_production inside,ok_bind,bind_ok,exists_unit,
    rejectIf_ok,pure_ok,Except.ok.injEq,Prod.mk.injEq,maxVlogFileSize,pageEndMinSize] at placed
  obtain ⟨fits,after,bounded,rfl,rfl⟩ := placed
  refine ⟨⟨opened,rfl,by simp only; omega,rfl,⟨⟨file,by simp only; omega,?_⟩,?_⟩⟩,rfl⟩
  · simp only; omega
  · by_cases aligned : (start.offset + encodedLen) % 65536 = 0
    · exact .inl aligned
    · exact .inr ⟨file,by simp only; omega,by simp only; omega,by simp only; omega⟩

theorem planRecord_planned {position : VLogPosition} {encodedLen : Nat} {placement : RecordPlacement}
    {next : LayoutPlanner}
    (planned : LayoutPlanner.planRecord ⟨production,position⟩ encodedLen = .ok (placement,next)) :
    Planned position encodedLen placement next.position ∧ next.geometry = production := by
  simp only [LayoutPlanner.planRecord,LayoutPlanner.planRecordInner,bind_ok,exists_unit,rejectIf_ok,
    pageEndMinSize] at planned
  obtain ⟨bounds,⟨before,⟨geometry,start⟩⟩,ensured,remaining,counted,rest⟩ := planned
  have long : 43 ≤ encodedLen := by omega
  obtain ⟨opens,rfl⟩ := ensureRecordArea_opens ensured
  simp only at opens counted rest
  have inside := opens.area.2.1
  rw [remainingInPage_production inside] at counted
  obtain rfl := Except.ok.inj counted
  split at rest
  · simp only [bind_ok] at rest
    obtain ⟨⟨padding,⟨geometry,later⟩⟩,padded,placed⟩ := rest
    obtain ⟨after,rfl,room,opens',rfl⟩ := padPage_opens padded
    exact placeRecord_planned (.padded opens (by omega) room opens') long placed
  · exact placeRecord_planned (.direct opens) long rest

theorem AppendPosition.placeable {position : VLogPosition} (reached : AppendPosition position) :
    Placeable position := by
  induction reached with
  | empty => exact ⟨⟨by decide,by decide,.inl rfl⟩,.inl rfl⟩
  | planned _ step _ => exact (planRecord_planned step).1.placeable

end ExpirKv
