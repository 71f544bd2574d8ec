import ExpirKv.Vlog.EnvelopeFacts
import ExpirKv.Vlog.Layouts
import ExpirKv.Vlog.ReservingFacts

namespace ExpirKv
open ValueLog

variable [Crc32c] {geometry : VLogGeometry} {databaseUuid txUuid : Uuid} {commitSeq : Nat}
  {position stop : VLogPosition}

section writer

-- The writer's own loop comes out where the chunks end.
theorem WellTiled.validateChunks {writer : ValueLogWriter} {chunk : PhysicalChunk} {rest : List PhysicalChunk}
    (tiled : WellTiled writer.geometry writer.databaseUuid position (chunk :: rest) stop) :
    nextChunkStart position writer.geometry = .ok chunk.position ∧
      validateChunks writer chunk.position (chunk :: rest) = .ok stop := by
  induction rest generalizing position chunk with
  | nil =>
    cases tiled.tiles with
    | cons follows filled file limit page later =>
      cases later with
      | nil =>
        refine ⟨follows.next file _,?_⟩
        rw [ValueLog.validateChunks,rejectIf_false (by simpa using filled),ok_bind,
          tiled.structural chunk List.mem_cons_self writer rfl rfl,ok_bind,chunkEndForAppend,
          chunkEnd_inside file limit]
        simp only [Except.mapError,ok_bind,ne_eq,not_true_eq_false,and_false,if_false,ValueLog.validateChunks]
  | cons other others ih =>
    cases tiled.tiles with
    | cons follows filled file limit page later =>
      have behind : WellTiled writer.geometry writer.databaseUuid chunk.next (other :: others) stop :=
        ⟨later,fun next member => tiled.structural next (List.mem_cons_of_mem _ member)⟩
      obtain ⟨stepped,checked⟩ := ih behind
      refine ⟨follows.next file _,?_⟩
      rw [ValueLog.validateChunks,rejectIf_false (by simpa using filled),ok_bind,
        tiled.structural chunk List.mem_cons_self writer rfl rfl,ok_bind,chunkEndForAppend,
        chunkEnd_inside file limit]
      simp only [Except.mapError,ok_bind]
      cases later with
      | cons follows' _ _ _ _ _ =>
        rcases follows' with ⟨inside,same⟩ | ⟨full,-⟩
        · rw [if_neg (fun stopped => Nat.ne_of_lt inside stopped.1),←same]
          exact checked
        · rw [if_pos ⟨full,List.cons_ne_nil _ _⟩,stepped,ok_bind]
          exact checked

end writer

section envelope

-- What the pointer of an operation names: the chunk with the record of a put, nothing for a delete.
def Points (commitSeq : Nat) (txUuid : Uuid) (chunks : List PhysicalChunk) (opIndex : Nat) :
    LogicalOperation → Option ValuePointer → Prop
  | .put key value,some pointer => ∃ bytes, encodeKvRecord ⟨commitSeq,txUuid,opIndex,key,value⟩ = .ok bytes ∧
      ⟨⟨pointer.fileId,pointer.recordOffset⟩,bytes⟩ ∈ chunks ∧ pointer.recordLen = bytes.length ∧
      pointer.valueLen = value.length ∧ pointer.formatVersion = valuePointerFormatVersion
  | .delete _,none => True
  | _,_ => False

theorem Points.more {chunks wider : List PhysicalChunk} {opIndex : Nat} {operation : LogicalOperation}
    {pointer : Option ValuePointer} (points : Points commitSeq txUuid chunks opIndex operation pointer)
    (more : ∀ chunk ∈ chunks, chunk ∈ wider) : Points commitSeq txUuid wider opIndex operation pointer := by
  cases operation with
  | put key value =>
    cases pointer with
    | none => exact points
    | some pointer =>
      obtain ⟨bytes,encoded,member,rest⟩ := points
      exact ⟨bytes,encoded,more _ member,rest⟩
  | delete key =>
    cases pointer with
    | none => exact points
    | some pointer => exact points

theorem encodeOperation_points {opIndex : Nat} {operation : LogicalOperation} {placement : RecordPlacement}
    {bytes : Bytes} {pointer : Option ValuePointer} {chunks : List PhysicalChunk}
    (encoded : encodeOperation commitSeq txUuid opIndex placement operation = .ok (bytes,pointer))
    (stands : ⟨placement.recordStart,bytes⟩ ∈ chunks) (width : bytes.length = placement.encodedLen) :
    Points commitSeq txUuid chunks opIndex operation pointer := by
  cases operation with
  | put key value =>
    simp only [encodeOperation,bind_ok,exists_unit,rejectIf_ok,pure_ok,Except.ok.injEq,Prod.mk.injEq] at encoded
    obtain ⟨_,written,-,-,rfl,rfl⟩ := encoded
    exact ⟨_,written,stands,width.symm,rfl,rfl⟩
  | delete key =>
    simp only [encodeOperation,bind_ok,pure_ok,Except.ok.injEq,Prod.mk.injEq] at encoded
    obtain ⟨_,-,-,rfl⟩ := encoded
    trivial

omit [Crc32c] in
theorem planRecords_cons {planner last : LayoutPlanner} {encodedLen : Nat} {lens : List Nat}
    {placements : List RecordPlacement}
    (planned : planRecords planner (encodedLen :: lens) = .ok (placements,last)) :
    ∃ placement next later, planner.planRecord encodedLen = .ok (placement,next) ∧
      planRecords next lens = .ok (later,last) ∧ placements = placement :: later := by
  simp only [planRecords,bind_ok,pure_ok,Except.ok.injEq,Prod.mk.injEq] at planned
  obtain ⟨⟨placement,next⟩,one,⟨later,_⟩,others,rfl,rfl⟩ := planned
  exact ⟨placement,next,later,one,others,rfl⟩

theorem appendOperations_wellTiled {operations : List LogicalOperation} {opIndex : Nat} {lens rest : List Nat}
    {placements : List RecordPlacement} {last : LayoutPlanner} {chunks : List PhysicalChunk}
    {pointers : List (Option ValuePointer)} (wide : 64 < geometry.pageSize) (positive : 0 < geometry.maxFileSize)
    (measured : operations.mapM recordLength = .ok lens)
    (planned : planRecords ⟨geometry,position⟩ (lens ++ rest) = .ok (placements,last))
    (appended : appendOperations databaseUuid commitSeq txUuid geometry opIndex operations placements =
      .ok (chunks,pointers)) :
    ∃ middle taken later, WellTiled geometry databaseUuid position chunks middle ∧
      planRecords ⟨geometry,middle⟩ rest = .ok (later,last) ∧ placements = taken ++ later ∧
      pointers.length = operations.length ∧ ∀ index operation, operations[index]? = some operation →
        ∃ pointer, pointers[index]? = some pointer ∧
          Points commitSeq txUuid chunks (opIndex + index) operation pointer := by
  induction operations generalizing opIndex position lens placements chunks pointers with
  | nil =>
    obtain rfl := mapM_ok_nil measured
    simp only [appendOperations,Except.ok.injEq,Prod.mk.injEq] at appended
    obtain ⟨rfl,rfl⟩ := appended
    exact ⟨position,[],placements,.nil,planned,rfl,rfl,fun index operation found => by cases found⟩
  | cons operation operations ih =>
    obtain ⟨len,lens,_,others,rfl⟩ := mapM_ok_cons measured
    rw [List.cons_append] at planned
    obtain ⟨placement,next,placements,one,calls,rfl⟩ := planRecords_cons planned
    simp only [appendOperations,bind_ok,pure_ok,Except.ok.injEq,Prod.mk.injEq] at appended
    obtain ⟨⟨bytes,pointer⟩,encoded,first,written,⟨later,more⟩,appendedLater,rfl,rfl⟩ := appended
    obtain ⟨tiled,same,stands,width⟩ := appendPlacement_wellTiled wide positive one written
    have here : next = ⟨geometry,next.position⟩ := by rw [←same]
    rw [here] at calls
    obtain ⟨middle,taken,left,tiledLater,rest,rfl,counted,pointed⟩ := ih others calls appendedLater
    refine ⟨middle,placement :: taken,left,tiled.append tiledLater,rest,rfl,by simp [counted],?_⟩
    intro index operation found
    cases index with
    | zero =>
      obtain rfl := Option.some.inj found
      exact ⟨pointer,rfl,(encodeOperation_points encoded stands width).more
        (fun chunk member => List.mem_append_left _ member)⟩
    | succ index =>
      obtain ⟨pointer,there,points⟩ := pointed index operation found
      refine ⟨pointer,there,?_⟩
      rw [show opIndex + (index + 1) = opIndex + 1 + index by omega]
      exact points.more (fun chunk member => List.mem_append_right _ member)

-- Everything a successful preparation settles, in the planner's own geometry.
structure EnvelopeTiled (planner : LayoutPlanner) (databaseUuid : Uuid) (commitSeq : Nat) (txUuid : Uuid)
    (operations : List LogicalOperation) (envelope : PreparedEnvelope) (next : LayoutPlanner) : Prop where
  begins : envelope.vlogBegin = planner.position
  ends : next = ⟨planner.geometry,envelope.vlogEnd⟩
  identity : envelope.commitSeq = commitSeq ∧ commitSeq ≠ 0 ∧ envelope.txUuid = txUuid ∧ txUuid.isZero = false
  nonempty : envelope.chunks ≠ []
  tiled : WellTiled planner.geometry databaseUuid envelope.vlogBegin envelope.chunks envelope.vlogEnd
  counted : envelope.valuePointers.length = operations.length
  pointed : ∀ index operation, operations[index]? = some operation → ∃ pointer,
    envelope.valuePointers[index]? = some pointer ∧ Points commitSeq txUuid envelope.chunks index operation pointer

theorem prepareEnvelope_tiled {planner next : LayoutPlanner} {operations : List LogicalOperation}
    {envelope : PreparedEnvelope} (valid : planner.geometry.validate = .ok ())
    (prepared : prepareEnvelope planner databaseUuid commitSeq txUuid operations = .ok (envelope,next)) :
    EnvelopeTiled planner databaseUuid commitSeq txUuid operations envelope next := by
  obtain ⟨wide,-,positive,-,-,-⟩ := VLogGeometry.validate_ok valid
  obtain ⟨geometry,position⟩ := planner
  simp only at wide positive
  simp only [prepareEnvelope,bind_ok,exists_unit,mapError_ok,rejectIf_ok,orError_ok,pure_ok,Except.ok.injEq,
    Prod.mk.injEq,validateIdentity_ok] at prepared
  obtain ⟨⟨nonzero,uuid⟩,-,-,lens,measured,⟨placements,last⟩,planned,begun,-,ended,-,checksum,-,beginBytes,-,
    beginPlacement,beginHead,beginChunks,beginAppended,⟨chunks,pointers⟩,appended,footerPlacement,footerLast,
    footerBytes,-,footerChunks,footerAppended,rfl,rfl⟩ := prepared
  rw [List.cons_append] at planned
  obtain ⟨placement,middle,placements,beginPlanned,calls,rfl⟩ := planRecords_cons planned
  obtain rfl := Option.some.inj beginHead
  obtain ⟨beginTiled,same,-,-⟩ := appendPlacement_wellTiled wide positive beginPlanned beginAppended
  have here : middle = ⟨geometry,middle.position⟩ := by rw [←same]
  rw [here] at calls
  obtain ⟨reached,taken,later,operationsTiled,footerCalls,rfl,counted,pointed⟩ :=
    appendOperations_wellTiled wide positive measured calls appended
  obtain ⟨_,stop,others,footerPlanned,noMore,rfl⟩ := planRecords_cons footerCalls
  obtain ⟨rfl,rfl⟩ := Prod.mk.inj (Except.ok.inj noMore)
  rw [←List.cons_append,List.getLast?_concat] at footerLast
  obtain rfl := Option.some.inj footerLast
  obtain ⟨footerTiled,footerSame,stands,-⟩ := appendPlacement_wellTiled wide positive footerPlanned footerAppended
  refine ⟨rfl,?_,⟨rfl,nonzero,rfl,uuid⟩,?_,?_,counted,?_⟩
  · simp only
    rw [←footerSame]
  · exact List.append_ne_nil_of_right_ne_nil _ (List.ne_nil_of_mem stands)
  · exact (beginTiled.append operationsTiled).append footerTiled
  · intro index operation found
    obtain ⟨pointer,there,points⟩ := pointed index operation found
    rw [Nat.zero_add] at points
    refine ⟨pointer,there,points.more ?_⟩
    intro chunk member
    exact List.mem_append_left _ (List.mem_append_right _ member)

theorem EnvelopeTiled.accepted {planner next : LayoutPlanner} {operations : List LogicalOperation}
    {envelope : PreparedEnvelope} {writer : ValueLogWriter}
    (tiled : EnvelopeTiled planner writer.databaseUuid commitSeq txUuid operations envelope next)
    (sameGeometry : writer.geometry = planner.geometry) (stands : writer.position = envelope.vlogBegin) :
    validateEnvelopeChunks writer envelope = .ok () := by
  obtain ⟨sameSeq,nonzero,sameUuid,uuid⟩ := tiled.identity
  have before := tiled.tiled.tiles.rises.2 tiled.nonempty
  have whole := tiled.tiled
  rw [←sameGeometry] at whole
  obtain ⟨chunk,rest,split⟩ := List.exists_cons_of_ne_nil tiled.nonempty
  rw [split] at whole
  obtain ⟨stepped,checked⟩ := whole.validateChunks
  rw [validateEnvelopeChunks,rejectIf_false (by
    simp [sameSeq,nonzero,sameUuid,uuid,stands,VLogPosition.not_le.mpr before,tiled.nonempty])]
  rw [ok_bind,stepped,ok_bind,split,checked,ok_bind]
  exact rejectIf_false (by simp)

end envelope

-- For any planner with a geometry that was checked, and any answers of the allocator.
theorem envelope_planning_atomic (planner : LayoutPlanner) (grants : List Bool) (databaseUuid : Uuid)
    (commitSeq : Nat) (txUuid : Uuid) (operations : List LogicalOperation)
    (valid : planner.geometry.validate = .ok ()) :
    Delivers (Reserving.prepareEnvelope databaseUuid commitSeq txUuid operations) ⟨planner,grants⟩
      (fun envelope next =>
        prepareEnvelope planner databaseUuid commitSeq txUuid operations = .ok (envelope,next.planner) ∧
        envelope.vlogBegin = planner.position ∧ next.planner = ⟨planner.geometry,envelope.vlogEnd⟩ ∧
        envelope.vlogBegin < envelope.vlogEnd ∧
        Tiles planner.geometry envelope.vlogBegin envelope.chunks envelope.vlogEnd ∧
        envelope.valuePointers.length = operations.length ∧
        (∀ index operation, operations[index]? = some operation → ∃ pointer,
          envelope.valuePointers[index]? = some pointer ∧
            Points commitSeq txUuid envelope.chunks index operation pointer) ∧
        ∀ writer : ValueLogWriter, writer.geometry = planner.geometry → writer.databaseUuid = databaseUuid →
          writer.position = envelope.vlogBegin → validateEnvelopeChunks writer envelope = .ok ())
      (fun error next => next.planner = planner ∧
        (prepareEnvelope planner databaseUuid commitSeq txUuid operations = .error error ∨
          (error = Reserving.exhausted ∧ false ∈ grants))) := by
  refine (Reserving.prepareEnvelope_delivers databaseUuid commitSeq txUuid operations ⟨planner,grants⟩).mono ?_ ?_
  · intro envelope next prepared
    have tiled := prepareEnvelope_tiled valid prepared
    refine ⟨prepared,tiled.begins,tiled.ends,tiled.tiled.tiles.rises.2 tiled.nonempty,tiled.tiled.tiles,
      tiled.counted,tiled.pointed,?_⟩
    intro writer sameGeometry sameUuid stands
    subst sameUuid
    exact tiled.accepted sameGeometry stands
  · intro error next stopped
    exact stopped

-- The fifth request is refused: the preludes of the second record.
omit [Crc32c] in
theorem envelope_planning_atomic_refused :
    Delivers (@Reserving.prepareEnvelope castagnoli ⟨List.replicate 16 7,rfl⟩ 1 ⟨List.replicate 16 9,rfl⟩
        [.put [1] [2]]) ⟨⟨⟨65536,131072,3⟩,⟨0,65536⟩⟩,[true,true,true,true,false]⟩
      (fun envelope _ => envelope.vlogBegin = ⟨0,65536⟩)
      (fun _ next => next.planner = ⟨⟨65536,131072,3⟩,⟨0,65536⟩⟩) :=
  (@envelope_planning_atomic castagnoli ⟨⟨65536,131072,3⟩,⟨0,65536⟩⟩ [true,true,true,true,false]
    ⟨List.replicate 16 7,rfl⟩ 1 ⟨List.replicate 16 9,rfl⟩ [.put [1] [2]] rfl).mono
      (fun _ _ settled => settled.2.1) (fun _ _ settled => settled.1)

end ExpirKv
