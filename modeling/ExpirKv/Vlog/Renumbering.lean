import ExpirKv.Vlog.Envelope

namespace ExpirKv
open VLogGeometry

variable [Crc32c] {databaseUuid : Uuid} {seq other : Nat} {txUuid otherUuid : Uuid} {geometry : VLogGeometry}

-- The same piece of an envelope under another number and identity, with the checksums that follow from them.
inductive Renumbered : PhysicalChunk → PhysicalChunk → Prop
  | header (chunk : PhysicalChunk) : Renumbered chunk chunk
  | pageEnd {seq other : Nat} {txUuid otherUuid : Uuid} {position : VLogPosition} {geometry : VLogGeometry}
      {bytes others : Bytes} : encodePageEnd seq txUuid position geometry = .ok bytes →
      encodePageEnd other otherUuid position geometry = .ok others → Renumbered ⟨position,bytes⟩ ⟨position,others⟩
  | txBegin {seq other : Nat} {txUuid otherUuid : Uuid} {position vlogBegin : VLogPosition} {count keys : Nat}
      {bytes others : Bytes} : encodeTxBegin ⟨seq,txUuid,vlogBegin,count,keys⟩ = .ok bytes →
      encodeTxBegin ⟨other,otherUuid,vlogBegin,count,keys⟩ = .ok others → Renumbered ⟨position,bytes⟩ ⟨position,others⟩
  | kvRecord {seq other : Nat} {txUuid otherUuid : Uuid} {position : VLogPosition} {opIndex : Nat} {key value : Bytes}
      {bytes others : Bytes} : encodeKvRecord ⟨seq,txUuid,opIndex,key,value⟩ = .ok bytes →
      encodeKvRecord ⟨other,otherUuid,opIndex,key,value⟩ = .ok others → Renumbered ⟨position,bytes⟩ ⟨position,others⟩
  | deleteRecord {seq other : Nat} {txUuid otherUuid : Uuid} {position : VLogPosition} {opIndex : Nat} {key : Bytes}
      {bytes others : Bytes} : encodeDeleteRecord ⟨seq,txUuid,opIndex,key⟩ = .ok bytes →
      encodeDeleteRecord ⟨other,otherUuid,opIndex,key⟩ = .ok others → Renumbered ⟨position,bytes⟩ ⟨position,others⟩
  | preparedEnd {seq other : Nat} {txUuid otherUuid : Uuid} {position vlogBegin vlogEnd : VLogPosition}
      {count keys puts deletes checksum otherChecksum : Nat} {bytes others : Bytes} :
      encodeTxPreparedEnd ⟨seq,txUuid,vlogBegin,vlogEnd,count,keys,puts,deletes,checksum⟩ = .ok bytes →
      encodeTxPreparedEnd ⟨other,otherUuid,vlogBegin,vlogEnd,count,keys,puts,deletes,otherChecksum⟩ = .ok others →
      Renumbered ⟨position,bytes⟩ ⟨position,others⟩

theorem preludeChunk_renumbered {prelude : LayoutPrelude} {chunk otherChunk : PhysicalChunk}
    (one : preludeChunk databaseUuid seq txUuid geometry prelude = .ok chunk)
    (two : preludeChunk databaseUuid other otherUuid geometry prelude = .ok otherChunk) : Renumbered chunk otherChunk := by
  cases prelude with
  | pageHeader position pageNo =>
    obtain rfl := Except.ok.inj (one.symm.trans two)
    exact .header chunk
  | fileHeader position =>
    obtain rfl := Except.ok.inj (one.symm.trans two)
    exact .header chunk
  | pageEnd position encodedLen =>
    simp only [preludeChunk,bind_ok,exists_unit,rejectIf_ok,pure_ok,Except.ok.injEq] at one two
    obtain ⟨_,first,-,rfl⟩ := one
    obtain ⟨_,second,-,rfl⟩ := two
    exact .pageEnd first second

theorem mapM_renumbered {preludes : List LayoutPrelude} {chunks others : List PhysicalChunk}
    (one : preludes.mapM (preludeChunk databaseUuid seq txUuid geometry) = .ok chunks)
    (two : preludes.mapM (preludeChunk databaseUuid other otherUuid geometry) = .ok others) :
    List.Forall₂ Renumbered chunks others := by
  induction preludes generalizing chunks others with
  | nil =>
    obtain rfl := mapM_ok_nil one
    obtain rfl := mapM_ok_nil two
    exact .nil
  | cons prelude rest ih =>
    obtain ⟨_,_,first,later,rfl⟩ := mapM_ok_cons one
    obtain ⟨_,_,second,after,rfl⟩ := mapM_ok_cons two
    exact .cons (preludeChunk_renumbered first second) (ih later after)

theorem appendPlacement_renumbered {placement : RecordPlacement} {bytes otherBytes : Bytes}
    {chunks others : List PhysicalChunk}
    (one : appendPlacement placement bytes databaseUuid seq txUuid geometry = .ok chunks)
    (two : appendPlacement placement otherBytes databaseUuid other otherUuid geometry = .ok others)
    (same : Renumbered ⟨placement.recordStart,bytes⟩ ⟨placement.recordStart,otherBytes⟩) :
    List.Forall₂ Renumbered chunks others := by
  simp only [appendPlacement,bind_ok,exists_unit,rejectIf_ok,pure_ok,Except.ok.injEq] at one two
  obtain ⟨-,_,first,rfl⟩ := one
  obtain ⟨-,_,second,rfl⟩ := two
  exact List.rel_append (mapM_renumbered first second) (.cons same .nil)

theorem encodeOperation_renumbered {opIndex : Nat} {placement : RecordPlacement} {operation : LogicalOperation}
    {encoded otherEncoded : Bytes × Option ValuePointer}
    (one : encodeOperation seq txUuid opIndex placement operation = .ok encoded)
    (two : encodeOperation other otherUuid opIndex placement operation = .ok otherEncoded) (position : VLogPosition) :
    Renumbered ⟨position,encoded.1⟩ ⟨position,otherEncoded.1⟩ := by
  cases operation with
  | put key value =>
    simp only [encodeOperation,bind_ok,exists_unit,rejectIf_ok,pure_ok,Except.ok.injEq] at one two
    obtain ⟨_,first,-,-,rfl⟩ := one
    obtain ⟨_,second,-,-,rfl⟩ := two
    exact .kvRecord first second
  | delete key =>
    simp only [encodeOperation,bind_ok,pure_ok,Except.ok.injEq] at one two
    obtain ⟨_,first,rfl⟩ := one
    obtain ⟨_,second,rfl⟩ := two
    exact .deleteRecord first second

theorem appendOperations_renumbered {operations : List LogicalOperation} {placements : List RecordPlacement}
    {opIndex : Nat} {appended others : List PhysicalChunk × List (Option ValuePointer)}
    (one : appendOperations databaseUuid seq txUuid geometry opIndex operations placements = .ok appended)
    (two : appendOperations databaseUuid other otherUuid geometry opIndex operations placements = .ok others) :
    List.Forall₂ Renumbered appended.1 others.1 := by
  induction operations generalizing placements opIndex appended others with
  | nil =>
    obtain rfl := Except.ok.inj one
    obtain rfl := Except.ok.inj two
    exact .nil
  | cons operation operations ih =>
    cases placements with
    | nil => cases one
    | cons placement placements =>
      simp only [appendOperations,bind_ok,pure_ok,Except.ok.injEq] at one two
      obtain ⟨_,encoded,_,placed,_,later,rfl⟩ := one
      obtain ⟨_,otherEncoded,_,otherPlaced,_,otherLater,rfl⟩ := two
      exact List.rel_append
        (appendPlacement_renumbered placed otherPlaced (encodeOperation_renumbered encoded otherEncoded _)) (ih later otherLater)

-- Where an envelope lies and what it says of its operations depends on the operations and the position alone.
theorem prepareEnvelope_renumbered {planner : LayoutPlanner} {operations : List LogicalOperation}
    {envelope otherEnvelope : PreparedEnvelope} {next otherNext : LayoutPlanner}
    (one : prepareEnvelope planner databaseUuid seq txUuid operations = .ok (envelope,next))
    (two : prepareEnvelope planner databaseUuid other otherUuid operations = .ok (otherEnvelope,otherNext)) :
    List.Forall₂ Renumbered envelope.chunks otherEnvelope.chunks ∧ envelope.vlogEnd = otherEnvelope.vlogEnd := by
  simp only [prepareEnvelope,bind_ok,exists_unit,mapError_ok,rejectIf_ok,orError_ok,pure_ok,Except.ok.injEq,
    Prod.mk.injEq,validateIdentity_ok] at one two
  obtain ⟨-,-,-,lens,measured,planned,planning,_,-,_,-,_,-,_,beginWritten,_,beginHead,_,beginAppended,_,appended,_,
    footerLast,_,footerWritten,_,footerAppended,rfl,rfl⟩ := one
  obtain ⟨-,-,-,_,otherMeasured,_,otherPlanning,_,-,_,-,_,-,_,otherBegin,_,otherHead,_,otherBeginAppended,_,otherAppended,_,
    otherLast,_,otherFooter,_,otherFooterAppended,rfl,rfl⟩ := two
  obtain rfl := Except.ok.inj (measured.symm.trans otherMeasured)
  obtain rfl := Except.ok.inj (planning.symm.trans otherPlanning)
  obtain rfl := Option.some.inj (beginHead.symm.trans otherHead)
  obtain rfl := Option.some.inj (footerLast.symm.trans otherLast)
  refine ⟨List.rel_append (List.rel_append ?_ (appendOperations_renumbered appended otherAppended)) ?_,rfl⟩
  · exact appendPlacement_renumbered beginAppended otherBeginAppended (.txBegin beginWritten otherBegin)
  · exact appendPlacement_renumbered footerAppended otherFooterAppended (.preparedEnd footerWritten otherFooter)

end ExpirKv
