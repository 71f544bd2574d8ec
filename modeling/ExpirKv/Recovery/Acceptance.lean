import ExpirKv.Recovery.Analyze
import ExpirKv.Recovery.TopologyFacts
import ExpirKv.Vlog.ScanExact

namespace ExpirKv
open VLogGeometry Storage

variable [Crc32c]

-- Whatever the bytes are, reading an envelope fails with one of the kinds that end the prefix.
section rejectable

omit [Crc32c] in
@[simp] theorem readCorruption_rejectable (fileId : Nat) (offset : Option Nat) :
    Rejectable (readCorruption fileId offset) := rfl

omit [Crc32c] in
theorem FailsWith.readContext {x : Result α} {fileId offset : Option Nat} (inner : FailsWith Rejectable x) :
    FailsWith Rejectable (x.mapError (readContext fileId offset)) := failsWith_mapError.mpr inner

theorem handle_fails (files : FileSet) (fileId : Nat) : FailsWith Rejectable (files.handle fileId) := by
  have header : ∀ encoded, FailsWith Rejectable
      ((VLogFileHeader.decode encoded).mapError (ExpirKv.readContext (some fileId) (some pageHeaderEncodedLen))) :=
    fun encoded => FailsWith.readContext (VLogFileHeader.decode_fails encoded)
  simp only [FileSet.handle,FileSet.validateCandidate,readExactAt,failsWith_bind,failsWith_rejectIf,failsWith_orError,
    readCorruption_rejectable,implies_true,header,pure_ok,failsWith_ok,and_self]

theorem readRecoveryBytes_fails (files : FileSet) (fileId offset len : Nat) :
    FailsWith Rejectable (readRecoveryBytes files fileId offset len) := by
  have opened := (handle_fails files fileId).recoveryContext
  have read : ∀ contents, FailsWith Rejectable ((readExactAt contents offset len fileId).mapError recoveryContext) := by
    intro contents
    refine FailsWith.recoveryContext ?_
    simp [readExactAt]
  simp only [readRecoveryBytes,failsWith_bind,failsWith_rejectIf,recoveryCorruptionAt_rejectable,implies_true,opened,
    read,and_self]

omit [Crc32c] in
theorem recoveryNextPosition_fails (position : VLogPosition) (geometry : VLogGeometry) :
    FailsWith Rejectable (recoveryNextPosition position geometry) := by
  unfold recoveryNextPosition nextPosition
  refine FailsWith.ite (failsWith_ok _) (FailsWith.ite ?_ (failsWith_ok _))
  exact failsWith_error.mpr recoveryCorruption_rejectable

theorem readRecoveryChunk_fails (files : FileSet) (vlogEnd cursor : VLogPosition) :
    FailsWith Rejectable (readRecoveryChunk files vlogEnd cursor) := by
  have len : FailsWith Rejectable (recoveryChunkLen files vlogEnd cursor) := by
    have header : ∀ encoded, FailsWith Rejectable ((RecordHeader.decode encoded).mapError recoveryContext) :=
      fun encoded => (RecordHeader.decode_fails encoded).recoveryContext
    unfold recoveryChunkLen
    refine FailsWith.ite (failsWith_ok _) (FailsWith.ite (failsWith_ok _) ?_)
    simp only [failsWith_bind,failsWith_rejectIf,recoveryCorruption_rejectable,recoveryCorruptionAt_rejectable,
      implies_true,readRecoveryBytes_fails,header,pure_ok,failsWith_ok,and_self]
  have next : ∀ chunkEnd, FailsWith Rejectable (recoveryNextCursor chunkEnd vlogEnd files.geometry) := by
    intro chunkEnd
    unfold recoveryNextCursor
    exact FailsWith.ite (failsWith_ok _) (recoveryNextPosition_fails _ _)
  simp only [readRecoveryChunk,failsWith_bind,failsWith_rejectIf,recoveryCorruption_rejectable,implies_true,len,
    readRecoveryBytes_fails,next,pure_ok,failsWith_ok,and_self]

theorem readRecoveryChunksFrom_fails (files : FileSet) (vlogEnd cursor : VLogPosition) :
    FailsWith Rejectable (readRecoveryChunksFrom files vlogEnd cursor) := by
  fun_induction readRecoveryChunksFrom files vlogEnd cursor with
  | case1 cursor before error failed =>
    exact failsWith_error.mpr (readRecoveryChunk_fails files vlogEnd cursor error failed)
  | case2 cursor before chunk next first ih => exact failsWith_map.mpr ih
  | case3 cursor before differs => exact failsWith_error.mpr recoveryCorruption_rejectable
  | case4 cursor before same => exact failsWith_ok _

theorem readRecoveryChunks_fails (files : FileSet) (vlogBegin vlogEnd : VLogPosition) :
    FailsWith Rejectable (readRecoveryChunks files vlogBegin vlogEnd) := by
  simp only [readRecoveryChunks,failsWith_bind,failsWith_rejectIf,recoveryCorruption_rejectable,implies_true,
    recoveryNextPosition_fails,readRecoveryChunksFrom_fails,and_self]

theorem acceptRecord_fails (target : ScanTarget) (state : ScanState) (isLast : Bool) (record : DecodedRecord) :
    FailsWith Rejectable (state.acceptRecord target isLast record) := by
  cases record <;> simp [ScanState.acceptRecord]

theorem scanContents_fails (target : ScanTarget) (state : ScanState) (chunk : PhysicalChunk) (isLast : Bool) :
    FailsWith Rejectable (state.scanContents target chunk isLast) := by
  have identity : ∀ header, FailsWith Rejectable (state.checkIdentity header) := by
    intro header
    unfold ScanState.checkIdentity
    split <;> simp
  unfold ScanState.scanContents
  refine FailsWith.ite ?_ (FailsWith.ite ?_ ?_)
  · simp [ScanState.scanPageHeader]
  · simp [ScanState.scanFileHeader]
  · simp [ScanState.scanRecord,identity,acceptRecord_fails]

theorem scanChunk_fails (target : ScanTarget) (state : ScanState) (chunk : PhysicalChunk) (isLast : Bool) :
    FailsWith Rejectable (state.scanChunk target chunk isLast) := by
  have next : FailsWith Rejectable (nextChunkPosition state.physicalEnd target.geometry) := by
    unfold nextChunkPosition nextPosition
    refine FailsWith.ite (failsWith_ok _) (FailsWith.ite ?_ (failsWith_ok _))
    exact failsWith_error.mpr rfl
  have ended : FailsWith Rejectable (chunkEnd chunk target.geometry) := by simp [chunkEnd]
  have recordEnd : ∀ transaction position, FailsWith Rejectable (ScanState.checkRecordEnd target transaction position) := by
    intro transaction position
    unfold ScanState.checkRecordEnd
    refine FailsWith.ite ?_ (failsWith_ok _)
    unfold validateTransactionRecordEnd
    refine failsWith_bind.mpr ⟨by simp,fun _ _ => FailsWith.ite (failsWith_ok _) ?_⟩
    refine failsWith_bind.mpr ⟨failsWith_mapError.mpr (fun _ _ => rfl),fun _ _ => by simp⟩
  simp [ScanState.scanChunk,next,scanContents_fails,ended,recordEnd]

theorem scanChunks_fails (target : ScanTarget) (state : ScanState) (chunks : List PhysicalChunk) :
    FailsWith Rejectable (state.scanChunks target chunks) := by
  induction chunks generalizing state with
  | nil => exact failsWith_ok _
  | cons chunk rest ih => exact failsWith_bind.mpr ⟨scanChunk_fails target state chunk _,fun next _ => ih next⟩

theorem scanPreparedEnvelope_fails (chunks : List PhysicalChunk) (geometry : VLogGeometry) (databaseUuid : Uuid)
    (vlogBegin vlogEnd : VLogPosition) (checksum : Option Nat) :
    FailsWith Rejectable (scanPreparedEnvelope chunks geometry databaseUuid vlogBegin vlogEnd checksum) := by
  have first : FailsWith Rejectable (nextChunkPosition vlogBegin geometry) := by
    unfold nextChunkPosition nextPosition
    refine FailsWith.ite (failsWith_ok _) (FailsWith.ite ?_ (failsWith_ok _))
    exact failsWith_error.mpr rfl
  have decodable : FailsWith Rejectable geometry.validateForDecode := by
    simp [VLogGeometry.validateForDecode,VLogGeometry.validate]
  simp [scanPreparedEnvelope,first,decodable,scanChunks_fails]

theorem collectFinalState_fails (geometry : VLogGeometry) (states : List EnvelopeFinalState) (chunk : PhysicalChunk) :
    FailsWith Rejectable (collectFinalState geometry states chunk) := by
  unfold collectFinalState
  refine FailsWith.ite (failsWith_ok _) (failsWith_bind.mpr ⟨(decodeRecordAt_fails _ _ _).recoveryContext,?_⟩)
  intro record _
  cases record <;> simp

theorem collectFinalStates_fails (chunks : List PhysicalChunk) (geometry : VLogGeometry) :
    FailsWith Rejectable (collectFinalStates chunks geometry) := by
  unfold collectFinalStates
  generalize ([] : List EnvelopeFinalState) = states
  induction chunks generalizing states with
  | nil => exact failsWith_ok _
  | cons chunk rest ih =>
    rw [List.foldlM_cons]
    exact failsWith_bind.mpr ⟨collectFinalState_fails geometry states chunk,fun next _ => ih next⟩

theorem readAndValidateEnvelope_fails (files : FileSet) (descriptor : TransactionDescriptor) :
    FailsWith Rejectable (readAndValidateEnvelope files descriptor) := by
  have read : FailsWith Rejectable (readRecoveryEnvelope files descriptor.txMeta.vlogBegin descriptor.txMeta.vlogEnd
      (some descriptor.txMeta.envelopeCrc32c)) := by
    refine failsWith_bind.mpr ⟨readRecoveryChunks_fails _ _ _,fun chunks _ => failsWith_bind.mpr ⟨?_,fun _ _ => ?_⟩⟩
    · exact (scanPreparedEnvelope_fails _ _ _ _ _ _).recoveryContext
    · exact failsWith_bind.mpr ⟨collectFinalStates_fails _ _,fun _ _ => failsWith_ok _⟩
  have matched : ∀ envelope, FailsWith Rejectable (validateEnvelopeAgainstDescriptor envelope descriptor) := by
    intro envelope
    refine failsWith_bind.mpr ⟨by simp,fun _ _ => ?_⟩
    induction envelope.finalStates.zip descriptor.mutations with
    | nil => exact failsWith_ok _
    | cons pair rest ih => exact failsWith_bind.mpr ⟨by simp,fun _ _ => ih⟩
  exact failsWith_bind.mpr ⟨by simp,fun _ _ => failsWith_bind.mpr ⟨read,fun envelope _ => matched envelope⟩⟩

end rejectable

section reached
variable {files : FileSet}

theorem handle_ok {fileId : Nat} {contents : Bytes} (opened : files.handle fileId = .ok contents) :
    files.files[fileId]? = some contents := by
  simp only [FileSet.handle,bind_ok,exists_unit,rejectIf_ok,orError_ok,pure_ok,Except.ok.injEq] at opened
  obtain ⟨-,found,there,-,rfl⟩ := opened
  exact there

-- Chunks that are held carry the reach of the files along.
theorem Follow.reached {position stop : VLogPosition} {chunks : List PhysicalChunk} {inventory : ManagedInventory}
    (follow : Follow position chunks stop) (lists : inventory.Lists files.files)
    (held : ∀ chunk ∈ chunks, Holds files chunk) (start : position = ⟨0,0⟩ ∨ Reached files.files position)
    (present : chunks ≠ []) : ReachedEnd files.files (some stop) := by
  induction follow with
  | nil => exact absurd rfl present
  | cons follows filled inside later ih =>
    rename_i position stop chunk rest
    obtain ⟨contents,opened,taken⟩ := held chunk List.mem_cons_self
    have there := handle_ok opened
    have long := (slice?_eq_some.mp taken).1
    have named := (lists.bounded _ _ there).1
    have lower : ∀ fileId < chunk.position.fileId, ∃ contents, files.files[fileId]? = some contents ∧
        contents.length = 4294967296 := by
      intro fileId before
      obtain ⟨-,same⟩ | ⟨full,-,same⟩ := nextPosition_ok follows
      · rcases start with rfl | reached
        · rw [same] at before
          exact absurd before (Nat.not_lt_zero _)
        · rw [same] at before
          exact reached.1 fileId before
      · rcases start with rfl | reached
        · cases full
        · rw [same] at before
          by_cases last : fileId = position.fileId
          · obtain ⟨bytes,found,reaches⟩ := reached.2
            have bound := (lists.bounded _ _ found).2
            exact ⟨bytes,by rw [last]; exact found,by omega⟩
          · exact reached.1 fileId (by simp only at before; omega)
    have here : Reached files.files chunk.next := ⟨lower,contents,there,long⟩
    cases rest with
    | nil =>
      cases later
      exact ⟨named,inside,here⟩
    | cons second rest =>
      exact ih (fun other member => held other (List.mem_cons_of_mem _ member)) (.inr here) (by simp)

end reached

-- The descriptor extends the accepted prefix.
def Acceptable (files : FileSet) (accepted : Accepted) (descriptor : TransactionDescriptor) : Prop :=
  descriptor.txMeta.transactionKind = .vlogEnvelope →
    descriptor.txMeta.vlogBegin = appendPosition accepted.vlogEnd ∧ readAndValidateEnvelope files descriptor = .ok ()

def AcceptsAll (files : FileSet) (accepted : Accepted) : List TransactionDescriptor → Prop
  | [] => True
  | descriptor :: rest => Acceptable files accepted descriptor ∧ AcceptsAll files (accepted.take descriptor) rest

section longest
variable {files : FileSet} {storage : Storage} {accepted : Accepted}

theorem AcceptsAll.append {front back : List TransactionDescriptor} :
    AcceptsAll files accepted (front ++ back) ↔
      AcceptsAll files accepted front ∧ AcceptsAll files (front.foldl Accepted.take accepted) back := by
  induction front generalizing accepted with
  | nil => simp [AcceptsAll]
  | cons first front ih => simp only [List.cons_append,AcceptsAll,List.foldl_cons,ih,and_assoc]

omit [Crc32c] in
theorem readingVlog_honest {α : Type} {read : FileSet → Result α} {post : α → Storage → Prop}
    {fail : StorageError → Storage → Prop} (honest : storage.Honest) :
    Delivers (readingVlog read) storage post fail ↔
      (∀ value, read storage.vlog = .ok value → post value storage) ∧
        ∀ error, read storage.vlog = .error error → fail error storage := by
  rw [readingVlog,delivers_bind,delivers_reading_honest honest]
  exact delivers_lift

-- On storage that answers, the loop body decides whether the descriptor extends the prefix.
theorem acceptDescriptor_honest (honest : storage.Honest) (descriptor : TransactionDescriptor) :
    Delivers (acceptDescriptor accepted descriptor) storage
      (fun taken reached => reached = storage ∧ (taken = true ↔ Acceptable storage.vlog accepted descriptor))
      (fun _ _ => False) := by
  unfold acceptDescriptor
  cases kind : descriptor.txMeta.transactionKind with
  | indexOnlyDelete =>
    refine delivers_pure _ |>.mpr ⟨rfl,?_⟩
    simp [Acceptable,kind]
  | vlogEnvelope =>
    by_cases begins : descriptor.txMeta.vlogBegin = appendPosition accepted.vlogEnd
    · simp only [begins,ne_eq,not_true_eq_false,if_false,delivers_bind,delivers_attempt]
      refine (readingVlog_honest honest).mpr ⟨?_,?_⟩
      · intro value read
        refine delivers_pure _ |>.mpr ⟨rfl,?_⟩
        simp [Acceptable,begins,read]
      · intro error read
        have rejectable : isRejectableEnvelopeError error.kind = true :=
          readAndValidateEnvelope_fails storage.vlog descriptor error read
        simp only [rejectable,if_true]
        refine delivers_pure _ |>.mpr ⟨rfl,?_⟩
        simp [Acceptable,kind,read]
    · simp only [begins,ne_eq,not_false_eq_true,if_true]
      refine delivers_pure _ |>.mpr ⟨rfl,?_⟩
      simp [Acceptable,kind,begins]

theorem acceptLongest_honest (honest : storage.Honest) (descriptors : List TransactionDescriptor) :
    Delivers (acceptLongest accepted descriptors) storage
      (fun result reached => reached = storage ∧ ∃ front back, descriptors = front ++ back ∧
        AcceptsAll storage.vlog accepted front ∧ result = front.foldl Accepted.take accepted ∧
        ∀ first ∈ back.head?, ¬Acceptable storage.vlog result first)
      (fun _ _ => False) := by
  induction descriptors generalizing accepted with
  | nil => exact ⟨rfl,[],[],rfl,trivial,rfl,fun _ no => by cases no⟩
  | cons descriptor rest ih =>
    refine (acceptDescriptor_honest honest descriptor).bind ?_ (fun _ _ stopped => stopped)
    rintro taken reached ⟨rfl,decides⟩
    cases taken with
    | true =>
      refine (@ih (accepted.take descriptor)).mono ?_ (fun _ _ stopped => stopped)
      rintro result reached ⟨same,front,back,rfl,accepts,rfl,stops⟩
      exact ⟨same,descriptor :: front,back,rfl,⟨decides.mp rfl,accepts⟩,rfl,stops⟩
    | false =>
      refine ⟨rfl,[],descriptor :: rest,rfl,trivial,rfl,?_⟩
      intro first same
      obtain rfl := Option.some.inj same
      intro acceptable
      cases decides.mpr acceptable

theorem acceptAll_honest (honest : storage.Honest) {descriptors : List TransactionDescriptor}
    (accepts : AcceptsAll storage.vlog accepted descriptors) :
    Delivers (acceptAll accepted descriptors) storage
      (fun result reached => reached = storage ∧ result = descriptors.foldl Accepted.take accepted)
      (fun _ _ => False) := by
  induction descriptors generalizing accepted with
  | nil => exact ⟨rfl,rfl⟩
  | cons descriptor rest ih =>
    refine (acceptDescriptor_honest honest descriptor).bind ?_ (fun _ _ stopped => stopped)
    rintro taken reached ⟨rfl,decides⟩
    obtain rfl := decides.mpr accepts.1
    exact ih accepts.2

end longest

-- `validate_stable_boundary`, as a statement about the files.
def StableBoundary (files : FileSet) (frontier : DurableFrontier) : Prop :=
  match frontier.durableVlogEnd with
  | none => frontier.durableVlogSeq = 0
  | some vlogEnd => frontier.durableVlogSeq ≠ 0 ∧ ∃ envelope, readStableEnvelopeFromEnd files vlogEnd = .ok envelope ∧
      envelope.scanned.commitSeq = frontier.durableVlogSeq ∧ envelope.scanned.vlogEnd = vlogEnd

theorem validateStableBoundary_honest {storage : Storage} {frontier : DurableFrontier} {post : Unit → Storage → Prop}
    {fail : StorageError → Storage → Prop} (honest : storage.Honest)
    (good : StableBoundary storage.vlog frontier → post () storage)
    (bad : ∀ error, ¬StableBoundary storage.vlog frontier → fail error storage) :
    Delivers (validateStableBoundary frontier) storage post fail := by
  unfold validateStableBoundary
  unfold StableBoundary at good bad
  cases ends : frontier.durableVlogEnd with
  | none =>
    simp only [ends] at good bad
    refine delivers_lift.mpr ⟨?_,?_⟩
    · intro _ accepted
      exact good (by simpa using accepted)
    · intro error refused
      refine bad error (fun zero => ?_)
      rw [rejectIf_false (by simp [zero])] at refused
      cases refused
  | some vlogEnd =>
    simp only [ends] at good bad
    rw [delivers_bind,delivers_lift]
    refine ⟨?_,?_⟩
    · intro _ accepted
      have present : frontier.durableVlogSeq ≠ 0 := rejectIf_ok.mp accepted
      rw [delivers_bind,delivers_mapError,readingVlog_honest honest]
      refine ⟨?_,?_⟩
      · intro envelope read
        rw [delivers_lift,stableEnvelopeMatches]
        refine ⟨?_,?_⟩
        · intro _ accepted
          have same := rejectIf_ok.mp accepted
          simp only [not_or,not_not,ne_eq] at same
          exact good ⟨present,envelope,read,same⟩
        · intro error refused
          refine bad error ?_
          rintro ⟨-,other,again,seq,stop⟩
          rw [read] at again
          obtain rfl := Except.ok.inj again
          rw [rejectIf_false (by simp [seq,stop])] at refused
          cases refused
      · intro error failed
        refine bad _ ?_
        rintro ⟨-,other,again,-⟩
        rw [failed] at again
        cases again
    · intro error refused
      refine bad error ?_
      rintro ⟨present,-⟩
      rw [rejectIf_false present] at refused
      cases refused

-- What taking acceptable descriptors keeps: the new end is a stable boundary in its own right.
structure Extends (files : FileSet) (frontier : DurableFrontier) (accepted : Accepted) : Prop where
  ordered : frontier.durableSeq ≤ accepted.seq ∧ accepted.vlogSeq ≤ accepted.seq
  moved : (accepted.vlogSeq = frontier.durableVlogSeq ∧ accepted.vlogEnd = frontier.durableVlogEnd) ∨
    (frontier.durableSeq < accepted.vlogSeq ∧
      durableEndStrictlyAfter accepted.vlogEnd frontier.durableVlogEnd = true)
  matched : vlogEndMatches accepted.vlogSeq accepted.vlogEnd = true
  reached : ReachedEnd files.files accepted.vlogEnd
  boundary : StableBoundary files ⟨accepted.seq,accepted.vlogSeq,accepted.vlogEnd⟩

section extending
variable {files : FileSet} {frontier : DurableFrontier} {accepted : Accepted} {inventory : ManagedInventory}
  {descriptor : TransactionDescriptor}

-- What a validated envelope says about the files.
theorem readAndValidateEnvelope_ok (geometry : files.geometry = production)
    (read : readAndValidateEnvelope files descriptor = .ok ()) :
    descriptor.txMeta.vlogBegin < descriptor.txMeta.vlogEnd ∧
      (∃ chunks, Follow descriptor.txMeta.vlogBegin chunks descriptor.txMeta.vlogEnd ∧ chunks ≠ [] ∧
        ∀ chunk ∈ chunks, Holds files chunk) ∧
      ∃ envelope, readStableEnvelopeFromEnd files descriptor.txMeta.vlogEnd = .ok envelope ∧
        envelope.scanned.commitSeq = descriptor.txMeta.commitSeq ∧
        envelope.scanned.vlogEnd = descriptor.txMeta.vlogEnd := by
  simp only [readAndValidateEnvelope,bind_ok,exists_unit,rejectIf_ok] at read
  obtain ⟨-,envelope,read,matched⟩ := read
  obtain ⟨⟨seq,-,-,ends,-⟩,-⟩ := validateEnvelopeAgainstDescriptor_ok.mp matched
  obtain ⟨chunks,-,held,scanned⟩ := readRecoveryEnvelope_ok geometry read
  obtain ⟨before,follow,-,-,front,last,footer,rfl,-⟩ := scanPreparedEnvelope_ok scanned
  exact ⟨before,⟨_,follow,by simp,held⟩,envelope,readStableEnvelopeFromEnd_of_read geometry read,seq,ends⟩

theorem Extends.start (ordered : frontier.durableVlogSeq ≤ frontier.durableSeq)
    (matched : vlogEndMatches frontier.durableVlogSeq frontier.durableVlogEnd = true)
    (reached : ReachedEnd files.files frontier.durableVlogEnd) (boundary : StableBoundary files frontier) :
    Extends files frontier (.start frontier) :=
  ⟨⟨Nat.le_refl _,ordered⟩,.inl ⟨rfl,rfl⟩,matched,reached,boundary⟩

omit [Crc32c] in
theorem durableEndStrictlyAfter_append {candidate : VLogPosition} {middle base : Option VLogPosition}
    (before : appendPosition middle < candidate)
    (moved : middle = base ∨ durableEndStrictlyAfter middle base = true) :
    durableEndStrictlyAfter (some candidate) base = true := by
  cases base with
  | none => rfl
  | some base =>
    rcases moved with rfl | moved
    · exact decide_eq_true before
    · cases middle with
      | none => cases moved
      | some middle => exact decide_eq_true (VLogPosition.lt_trans (of_decide_eq_true moved) before)

theorem Extends.take (ext : Extends files frontier accepted) (geometry : files.geometry = production)
    (lists : inventory.Lists files.files) (acceptable : Acceptable files accepted descriptor)
    (next : descriptor.txMeta.commitSeq = accepted.seq + 1) : Extends files frontier (accepted.take descriptor) := by
  obtain ⟨⟨durable,ordered⟩,moved,matched,reached,boundary⟩ := ext
  unfold Accepted.take
  cases kind : descriptor.txMeta.transactionKind with
  | indexOnlyDelete => exact ⟨⟨by simp only; omega,by simp only; omega⟩,moved,matched,reached,boundary⟩
  | vlogEnvelope =>
    obtain ⟨begins,read⟩ := acceptable kind
    obtain ⟨before,⟨chunks,follow,present,held⟩,stable⟩ := readAndValidateEnvelope_ok geometry read
    have start : descriptor.txMeta.vlogBegin = ⟨0,0⟩ ∨ Reached files.files descriptor.txMeta.vlogBegin := by
      rw [begins]
      cases ends : accepted.vlogEnd with
      | none => exact .inl rfl
      | some position =>
        rw [ends] at reached
        exact .inr reached.2.2
    have reached := follow.reached lists held start present
    rw [begins] at before
    refine ⟨⟨by simp only; omega,Nat.le_refl _⟩,.inr ⟨by simp only; omega,?_⟩,?_,reached,by simp only; omega,stable⟩
    · refine durableEndStrictlyAfter_append before ?_
      rcases moved with ⟨-,same⟩ | ⟨-,after⟩
      · exact .inl same
      · exact .inr after
    · have bounds : descriptor.txMeta.vlogEnd.isValid = true :=
        VLogPosition.isValid_iff.mpr ⟨by have := reached.1; omega,by have := reached.2.1; omega⟩
      simp only [vlogEndMatches,bounds,Bool.and_true,bne_iff_ne]
      omega

-- The induction is over the descriptors that were taken; each is numbered after the last.
theorem Extends.takeAll {taken : List TransactionDescriptor} (ext : Extends files frontier accepted)
    (geometry : files.geometry = production) (lists : inventory.Lists files.files)
    (accepts : AcceptsAll files accepted taken)
    (numbered : ∀ index (bound : index < taken.length), (taken[index]).txMeta.commitSeq = accepted.seq + 1 + index) :
    Extends files frontier (taken.foldl Accepted.take accepted) ∧
      (taken.foldl Accepted.take accepted).seq = accepted.seq + taken.length := by
  induction taken generalizing accepted with
  | nil => exact ⟨ext,rfl⟩
  | cons first rest ih =>
    have next : first.txMeta.commitSeq = accepted.seq + 1 := numbered 0 (by simp)
    have seq : (accepted.take first).seq = accepted.seq + 1 := by
      unfold Accepted.take
      cases first.txMeta.transactionKind <;> exact next
    obtain ⟨ext,total⟩ := ih (ext.take geometry lists accepts.1 next) accepts.2 (by
      intro index bound
      have later := numbered (index + 1) (by simpa using bound)
      rw [List.getElem_cons_succ] at later
      rw [later,seq]
      omega)
    refine ⟨ext,?_⟩
    rw [List.foldl_cons,total,seq,List.length_cons]
    omega

end extending

end ExpirKv
