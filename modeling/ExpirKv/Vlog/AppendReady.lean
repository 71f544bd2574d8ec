import ExpirKv.Vlog.Append

namespace ExpirKv
open VLogGeometry Storage ValueLog

-- A failure of a call. The checks of the writer refuse with one of these three kinds.
def CallFailed (error : StorageError) : Prop :=
  error.kind ≠ .invalidLayout ∧ error.kind ≠ .busy ∧ error.kind ≠ .storageWriteStopped

-- The writer stands where the next chunk has to start.
inductive Awaits (writer : ValueLogWriter) (position : VLogPosition) : Prop
  | inside : writer.state = .open position.fileId position.offset → Awaits writer position
  | first : writer.state = .empty → position = ⟨0,0⟩ → Awaits writer position
  | next {last : Nat} : writer.state = .atFileLimit last → position = ⟨last + 1,0⟩ →
      last + 1 ≤ writer.geometry.maxFileId → Awaits writer position

-- A full file is never the open one.
def ValueLogWriter.Turned (writer : ValueLogWriter) : Prop :=
  ∀ fileId, writer.state ≠ .open fileId writer.geometry.maxFileSize

section standing
variable {writer : ValueLogWriter} {position next : VLogPosition}

theorem ValueLogWriter.Turned.awaits (turned : writer.Turned) (sized : 0 < writer.geometry.maxFileSize)
    (stepped : nextChunkStart writer.position writer.geometry = .ok next) : Awaits writer next := by
  unfold nextChunkStart nextPosition at stepped
  cases state : writer.state with
  | empty =>
    have stands : writer.position = ⟨0,0⟩ := by rw [ValueLogWriter.position,state]; rfl
    rw [stands,if_pos sized] at stepped
    exact .first state (Except.ok.inj stepped).symm
  | «open» fileId offset =>
    have stands : writer.position = ⟨fileId,offset⟩ := by rw [ValueLogWriter.position,state]; rfl
    rw [stands] at stepped
    split at stepped
    · obtain rfl := Except.ok.inj stepped
      exact .inside state
    · split at stepped
      · cases stepped
      · rename_i full
        simp only [ne_eq,not_or,not_not] at full
        exact absurd (full.1 ▸ state) (turned fileId)
  | atFileLimit last =>
    have stands : writer.position = ⟨last,writer.geometry.maxFileSize⟩ := by rw [ValueLogWriter.position,state]; rfl
    rw [stands,if_neg (Nat.lt_irrefl _)] at stepped
    split at stepped
    · cases stepped
    · rename_i room
      simp only [ne_eq,not_true_eq_false,false_or,Nat.not_le,ge_iff_le] at room
      exact .next state (Except.ok.inj stepped).symm room

end standing

section calls
variable {log : ValueLog} {commitSeq : Nat} {position : VLogPosition}

theorem appendIo_call (commitSeq : Nat) (position : VLogPosition) (progress : Bool) (source : IoError) :
    CallFailed (appendIo commitSeq position progress source) := by
  simp only [CallFailed,appendIo,StorageError.codecError]
  split
  · simp
  · split <;> simp

theorem createFile_calls {fileId : Nat} {previous : AppendState} (here : position = ⟨fileId,0⟩)
    (room : fileId ≤ log.writer.geometry.maxFileId) :
    Delivers (createFile commitSeq fileId position previous) log
      (fun _ after => after.writer.state = .open position.fileId position.offset ∧
        after.writer.geometry = log.writer.geometry) (fun error _ => CallFailed error) := by
  subst here
  have fits : ¬(fileId ≠ fileId ∨ 0 ≠ 0 ∨ fileId > log.writer.geometry.maxFileId) := by omega
  simp only [createFile,delivers_bind,delivers_get]
  rw [if_neg fits]
  simp only [delivers_bind,delivers_mapError,delivers_onStorage,Storage.createNew,delivers_get]
  split
  · exact appendIo_call _ _ _ _
  · exact delivers_perform (fun _ => ⟨rfl,rfl⟩) (fun error _ => appendIo_call _ _ _ error)

theorem ensureFileForChunk_calls (awaits : Awaits log.writer position) :
    Delivers (ensureFileForChunk commitSeq position) log
      (fun _ after => after.writer.state = .open position.fileId position.offset ∧
        after.writer.geometry = log.writer.geometry) (fun error _ => CallFailed error) := by
  simp only [ensureFileForChunk,delivers_bind,delivers_get]
  cases awaits with
  | inside state =>
    simp only [state,and_self,if_true]
    exact ⟨state,rfl⟩
  | first state here =>
    simp only [state]
    exact createFile_calls here (Nat.zero_le _)
  | next state here room =>
    simp only [state]
    exact createFile_calls here room

theorem register_call {storage : Storage} {fileId : Nat} :
    Delivers (Storage.register fileId) storage (fun _ _ => True) (fun error _ => error.kind = .corruption ∨
      error.kind = .resourceExhausted ∨ error.kind = .io) := by
  unfold Storage.register
  split
  · exact .inl rfl
  · simp only [delivers_bind,delivers_mapError,delivers_modify]
    refine delivers_perform (fun _ => trivial) (fun error _ => .inr ?_)
    simp only [readIo,StorageError.codecError]
    split <;> simp

theorem finishChunk_calls : Delivers (finishChunk commitSeq) log (fun _ after => after.writer.Turned)
    (fun error _ => CallFailed error) := by
  unfold finishChunk
  rw [delivers_bind,delivers_get]
  split
  · rename_i fileId offset state
    have turns : ∀ storage : Storage, Delivers (do
        if offset = (← get).writer.geometry.maxFileSize then
          onWriter (fun writer => {writer with state := .atFileLimit fileId}) : Eff ValueLog StorageError Unit)
        {log with storage} (fun _ after => after.writer.Turned) (fun error _ => CallFailed error) := by
      intro storage
      rw [delivers_bind,delivers_get]
      split
      · intro other no
        cases no
      · rename_i short
        intro other no
        rw [state] at no
        exact short (AppendState.open.inj no).2
    split
    · rw [delivers_bind,delivers_mapError,delivers_onStorage]
      refine register_call.mono (fun _ storage _ => turns storage) ?_
      rintro error storage (kind | kind | kind) <;>
        exact ⟨by simp [appendContext,kind],by simp [appendContext,kind],by simp [appendContext,kind]⟩
    · exact turns log.storage
  · rename_i closed
    intro fileId no
    exact closed _ _ no

theorem failChunk_calls {fileId : Nat} {previous : Option AppendState} {transient : Bool} {error : StorageError}
    (failed : CallFailed error) :
    Delivers (failChunk commitSeq fileId previous transient error) log (fun _ after => after.writer.Turned)
      (fun error _ => CallFailed error) := by
  unfold failChunk
  rw [delivers_bind,delivers_get]
  split
  · rw [delivers_bind,delivers_attempt]
    refine (Delivers.self _ _).mono ?_ ?_
    · exact fun _ _ _ => failed
    · exact fun rollback _ _ => appendIo_call _ _ _ rollback
  · exact failed

theorem writeChunk_calls {envelopeBegin : VLogPosition} {chunk : PhysicalChunk} (awaits : Awaits log.writer chunk.position) :
    Delivers (writeChunk commitSeq envelopeBegin chunk) log (fun _ after => after.writer.Turned)
      (fun error _ => CallFailed error) := by
  unfold writeChunk
  refine (ensureFileForChunk_calls awaits).bind ?_ (fun _ _ failed => failed)
  rintro previous ready ⟨opened,-⟩
  rw [delivers_bind,delivers_get,opened]
  simp only [and_self,if_true]
  rw [delivers_bind,delivers_attempt,delivers_onStorage]
  refine (Delivers.self _ _).mono ?_ ?_
  · intro total storage _
    split
    · rw [delivers_bind,delivers_onWriter,delivers_bind,delivers_get]
      exact finishChunk_calls
    · rw [delivers_bind,delivers_get]
      exact finishChunk_calls
  · rintro ⟨total,error⟩ storage _
    split
    · rw [delivers_bind,delivers_onWriter,delivers_bind,delivers_get]
      exact failChunk_calls (appendIo_call _ _ _ _)
    · rw [delivers_bind,delivers_get]
      exact failChunk_calls (appendIo_call _ _ _ _)

end calls

section appending
variable [Crc32c] {log : ValueLog} {envelope : PreparedEnvelope}

-- The loop only fails in a call: every chunk finds the writer where it has to start.
theorem appendChunks_calls {writer : ValueLogWriter} {expected stop : VLogPosition} {chunks : List PhysicalChunk}
    (books : Books log) (same : log.writer.geometry = writer.geometry) (sized : 0 < writer.geometry.maxFileSize)
    (turned : log.writer.Turned) (awaits : chunks ≠ [] → Awaits log.writer expected)
    (accepted : validateChunks writer expected chunks = .ok stop) :
    Delivers (appendChunks envelope chunks) log (fun _ after => after.writer.Turned)
      (fun error _ => CallFailed error) := by
  induction chunks generalizing log expected with
  | nil => exact turned
  | cons chunk rest ih =>
    simp only [validateChunks,bind_ok,exists_unit,rejectIf_ok,not_or,not_not,ne_eq,List.isEmpty_iff] at accepted
    obtain ⟨⟨rfl,filled⟩,-,reached,ended,accepted⟩ := accepted
    simp only [chunkEndForAppend,chunkEnd,mapError_ok,bind_ok,exists_unit,rejectIf_ok,pure_ok,Except.ok.injEq,
      Nat.not_lt] at ended
    obtain ⟨-,bound,rfl⟩ := ended
    simp only [appendChunks]
    rw [delivers_bind,delivers_attempt]
    refine ((writeChunk_delivers books filled).and (writeChunk_calls (awaits (List.cons_ne_nil _ _)))).mono ?_ ?_
    · rintro - middle ⟨landed,turned⟩
      have geometry : middle.writer.geometry = writer.geometry := landed.frame.geometry.trans same
      have steps : ∀ next, nextChunkStart chunk.next writer.geometry = .ok next → Awaits middle.writer next := by
        intro next stepped
        refine turned.awaits (by rw [geometry]; exact sized) ?_
        rw [landed.position,geometry]
        exact stepped
      split at accepted
      · simp only [bind_ok] at accepted
        obtain ⟨next,stepped,accepted⟩ := accepted
        exact ih landed.books geometry turned (fun _ => steps next stepped) accepted
      · rename_i short
        refine ih landed.books geometry turned (fun present => steps _ ?_) accepted
        have below : chunk.next.offset < writer.geometry.maxFileSize := by
          refine Nat.lt_of_le_of_ne ?_ (fun full => short ⟨full,present⟩)
          simp only [PhysicalChunk.next]
          omega
        rw [nextChunkStart,nextPosition,if_pos below]
        rfl
    · rintro error middle ⟨-,failed⟩
      rw [delivers_bind,delivers_get]
      split
      · exact failed
      · exact failed

-- Everything an append asks of the writer before it makes a call.
structure AppendReady (writer : ValueLogWriter) (envelope : PreparedEnvelope) : Prop where
  healthy : writer.appendFailed = false
  idle : writer.pendingSyncId = none
  later : ∀ previous ∈ writer.lastAppended, previous.commitSeq < envelope.commitSeq
  checked : validateEnvelopeChunks writer envelope = .ok ()

theorem append_calls (books : Books log) (sized : 0 < log.writer.geometry.maxFileSize) (turned : log.writer.Turned)
    (ready : AppendReady log.writer envelope) :
    Delivers (append envelope) log (fun _ after => after.writer.Turned) (fun error _ => CallFailed error) := by
  have accepted := validateEnvelopeChunks_ok ready.checked
  obtain ⟨expected,stepped,checked⟩ := accepted.stepped
  have later : log.writer.lastAppended.any (fun previous => decide (envelope.commitSeq ≤ previous.commitSeq)) = false := by
    simp only [Option.any_eq_false,decide_eq_false_iff_not,Nat.not_le]
    exact ready.later
  unfold append
  rw [delivers_bind,delivers_get]
  dsimp only
  rw [ready.healthy,ready.idle,later]
  simp only [Bool.false_eq_true,Option.isSome_none,if_false]
  rw [delivers_bind,delivers_lift]
  refine ⟨fun _ _ => ?_,fun error refused => ?_⟩
  · rw [delivers_bind]
    rw [accepted.begins] at stepped
    refine ((appendChunks_delivers books ready.healthy (by rw [accepted.begins]; exact VLogPosition.le_refl _)
      accepted.placed).and (appendChunks_calls books rfl sized turned (fun _ => turned.awaits sized stepped)
      checked)).mono ?_ (fun _ _ failed => failed.2)
    rintro - after ⟨⟨-,-,-,-,position⟩,turned⟩
    rw [delivers_bind,delivers_get]
    rw [accepted.reaches] at position
    split
    · rename_i differs
      exact absurd position differs
    · exact turned
  · rw [ready.checked] at refused
    cases refused

end appending

end ExpirKv
