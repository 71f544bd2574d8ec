import ExpirKv.Vlog.AppendChunk

namespace ExpirKv
open VLogGeometry Storage ValueLog

-- The first bytes of an envelope: whole chunks, then perhaps a part of the next one.
inductive PrefixOf : List PhysicalChunk → List PhysicalChunk → Prop
  | nil {chunks : List PhysicalChunk} : PrefixOf [] chunks
  | part {chunk : PhysicalChunk} {rest : List PhysicalChunk} {count : Nat} : 0 < count → count ≤ chunk.bytes.length →
      PrefixOf [⟨chunk.position,chunk.bytes.take count⟩] (chunk :: rest)
  | cons {chunk : PhysicalChunk} {written rest : List PhysicalChunk} : PrefixOf written rest →
      PrefixOf (chunk :: written) (chunk :: rest)

-- Where the chunks end that were put behind a position.
def endOf (position : VLogPosition) (chunks : List PhysicalChunk) : VLogPosition :=
  (chunks.getLast?.map PhysicalChunk.next).getD position

theorem endOf_cons (position : VLogPosition) (chunk : PhysicalChunk) (rest : List PhysicalChunk) :
    endOf position (chunk :: rest) = endOf chunk.next rest := by
  cases rest with
  | nil => rfl
  | cons other others => simp only [endOf,List.getLast?_cons_cons]; cases h : (other :: others).getLast? with
    | none => simp at h
    | some last => rfl

section checked
variable [Crc32c] {writer : ValueLogWriter} {chunks : List PhysicalChunk} {expected stop : VLogPosition}

theorem validateChunks_ok (accepted : validateChunks writer expected chunks = .ok stop) :
    (∀ chunk ∈ chunks, chunk.bytes ≠ [] ∧ expected ≤ chunk.position) ∧ stop = endOf expected chunks := by
  induction chunks generalizing expected with
  | nil =>
    obtain rfl := Except.ok.inj accepted
    exact ⟨by simp,rfl⟩
  | cons chunk rest ih =>
    simp only [validateChunks,bind_ok,exists_unit,rejectIf_ok,not_or,not_not,ne_eq,List.isEmpty_iff] at accepted
    obtain ⟨⟨rfl,filled⟩,-,reached,ended,accepted⟩ := accepted
    simp only [chunkEndForAppend,chunkEnd,mapError_ok,bind_ok,exists_unit,rejectIf_ok,pure_ok,Except.ok.injEq] at ended
    obtain ⟨-,-,rfl⟩ := ended
    have through : ∀ next, chunk.next ≤ next → validateChunks writer next rest = .ok stop →
        (rest = [] → next = chunk.next) →
        (∀ other ∈ chunk :: rest, other.bytes ≠ [] ∧ chunk.position ≤ other.position) ∧
          stop = endOf chunk.position (chunk :: rest) := by
      intro next later accepted last
      obtain ⟨placed,stops⟩ := ih accepted
      refine ⟨?_,?_⟩
      · intro other member
        rcases List.mem_cons.mp member with rfl | member
        · exact ⟨filled,VLogPosition.le_refl _⟩
        · obtain ⟨full,after⟩ := placed other member
          refine ⟨full,VLogPosition.le_trans ?_ (VLogPosition.le_trans later after)⟩
          exact .inr ⟨rfl,Nat.le_add_right _ _⟩
      · rw [endOf_cons,stops]
        cases rest with
        | nil => rw [last rfl]
        | cons other others => rw [endOf_cons,endOf_cons]
    split at accepted
    · rename_i full
      simp only [bind_ok] at accepted
      obtain ⟨next,stepped,accepted⟩ := accepted
      refine through next ?_ accepted (fun empty => absurd empty full.2)
      unfold nextChunkStart nextPosition at stepped
      split at stepped
      · rw [←Except.ok.inj stepped]
        exact VLogPosition.le_refl _
      · split at stepped
        · cases stepped
        · rw [←Except.ok.inj stepped]
          exact .inl (Nat.lt_succ_self _)
    · exact through _ (VLogPosition.le_refl _) accepted (fun _ => rfl)

end checked

section appending
variable {log : ValueLog}

-- Bytes put behind what a file holds.
def putBehind (files : Directory) (chunk : PhysicalChunk) : Directory :=
  files.insert chunk.position.fileId (files[chunk.position.fileId]?.getD [] ++ chunk.bytes)

theorem lay_files {storage : Storage} {chunk : PhysicalChunk}
    (ends : (storage.contents chunk.position.fileId).length = chunk.position.offset) :
    (storage.vlog.lay chunk).files = putBehind storage.vlog.files chunk := by
  simp only [Storage.contents] at ends
  simp only [FileSet.lay,putBehind,writeAt_end ends]

-- Where a failed append left the files and the position.
inductive Stopped (before after : ValueLog) (chunks : List PhysicalChunk) : Prop
  | here {written : List PhysicalChunk} : PrefixOf written chunks →
      after.storage.vlog.files = written.foldl putBehind before.storage.vlog.files →
      after.writer.position = endOf before.writer.position written → Stopped before after chunks
  | created {written : List PhysicalChunk} {fileId : Nat} : PrefixOf written chunks →
      (written.foldl putBehind before.storage.vlog.files)[fileId]? = none →
      after.storage.vlog.files = (written.foldl putBehind before.storage.vlog.files).insert fileId [] →
      after.writer.position = ⟨fileId,0⟩ → Stopped before after chunks

-- What every end of an append has in common. Only the flag may have changed.
structure AppendFrame (commitSeq : Nat) (before after : ValueLog) : Prop where
  frame : ∃ failed, Frame commitSeq before {after with writer := {after.writer with appendFailed := failed}}
  books : Books after

theorem Stopped.cons {before middle after : ValueLog} {chunk : PhysicalChunk} {rest : List PhysicalChunk}
    (landed : middle.storage.vlog.files = putBehind before.storage.vlog.files chunk) (reached : middle.writer.position = chunk.next)
    (stopped : Stopped middle after rest) : Stopped before after (chunk :: rest) := by
  cases stopped with
  | @here written isPrefix files position =>
    refine .here (.cons isPrefix) ?_ ?_
    · rw [files,landed]
      rfl
    · rw [position,reached,endOf_cons]
  | @created written fileId isPrefix absent files position =>
    rw [landed] at absent files
    exact .created (.cons isPrefix) absent files position

theorem ChunkLeft.stopped {before after : ValueLog} {chunk : PhysicalChunk} {rest : List PhysicalChunk}
    {error : StorageError} (left : ChunkLeft before after chunk error) : Stopped before after (chunk :: rest) := by
  cases left with
  | untouched vlog writer => exact .here .nil (by rw [vlog]; rfl) (by rw [writer]; rfl)
  | part count positive fits ends files position =>
    refine .here (.part positive fits) (files.trans (lay_files ends)) ?_
    rw [position,endOf_cons]
    simp only [endOf,List.getLast?_nil,Option.map_none,Option.getD_none,PhysicalChunk.next,List.length_take,
      Nat.min_eq_left fits]
  | created zero absent files position _ =>
    refine .created .nil absent files ?_
    rw [position,←zero]

-- The loop over the chunks. Only a first chunk that left nothing may fail without stopping the writer.
theorem appendChunks_delivers [Crc32c] {envelope : PreparedEnvelope} {chunks : List PhysicalChunk} (books : Books log)
    (healthy : log.writer.appendFailed = false) (started : envelope.vlogBegin ≤ log.writer.position)
    (placed : ∀ chunk ∈ chunks, chunk.bytes ≠ [] ∧ envelope.vlogBegin ≤ chunk.position) :
    Delivers (appendChunks envelope chunks) log
      (fun _ after => Frame envelope.commitSeq log after ∧ Books after ∧
        after.storage.vlog = log.storage.vlog.layAll chunks ∧
        after.storage.vlog.files = chunks.foldl putBehind log.storage.vlog.files ∧
        after.writer.position = endOf log.writer.position chunks)
      (fun error after => AppendFrame envelope.commitSeq log after ∧
        ((error.kind = .resourceExhausted ∧ log.writer.position = envelope.vlogBegin ∧
            after.storage.vlog = log.storage.vlog ∧ after.writer = log.writer) ∨
          (after.writer.appendFailed = true ∧ Stopped log after chunks))) := by
  induction chunks generalizing log with
  | nil => exact ⟨.refl log.storage.script,books,rfl,rfl,rfl⟩
  | cons chunk rest ih =>
    obtain ⟨filled,behind⟩ := placed chunk List.mem_cons_self
    simp only [appendChunks]
    rw [delivers_bind,delivers_attempt]
    refine (writeChunk_delivers books filled).mono ?_ ?_
    · intro _ middle landed
      have put : middle.storage.vlog.files = putBehind log.storage.vlog.files chunk := by
        rw [landed.vlog]
        exact lay_files landed.ends
      have further : envelope.vlogBegin < middle.writer.position := by
        rw [landed.position]
        refine VLogPosition.lt_of_le_of_lt behind (.inr ⟨rfl,?_⟩)
        have positive := List.length_pos_iff.mpr filled
        simp only [PhysicalChunk.next]
        omega
      refine (ih landed.books (landed.frame.appendFailed.trans healthy) (VLogPosition.le_of_lt further)
        (fun other member => placed other (List.mem_cons_of_mem _ member))).mono ?_ ?_
      · rintro - after ⟨frame,kept,vlog,files,position⟩
        refine ⟨landed.frame.trans frame,kept,?_,?_,?_⟩
        · rw [vlog,landed.vlog]
          rfl
        · rw [files,put]
          rfl
        · rw [position,landed.position,endOf_cons]
      · rintro error after ⟨⟨⟨failed,frame⟩,kept⟩,outcome⟩
        refine ⟨⟨⟨failed,landed.frame.trans frame⟩,kept⟩,.inr ?_⟩
        rcases outcome with ⟨-,same,-⟩ | ⟨latched,stopped⟩
        · rw [same] at further
          exact absurd further (VLogPosition.lt_irrefl _)
        · exact ⟨latched,stopped.cons put landed.position⟩
    · intro error after failed
      have latches : AppendFrame envelope.commitSeq log {after with writer := after.writer.fail} := by
        refine ⟨⟨false,?_⟩,failed.books.same rfl rfl rfl (fun _ _ => ⟨rfl,rfl⟩)⟩
        have same : ({after.writer.fail with appendFailed := false} : ValueLogWriter) = after.writer := by
          rw [ValueLogWriter.fail,←failed.frame.appendFailed.trans healthy]
        simp only [same]
        exact failed.frame
      rw [delivers_bind,delivers_get]
      split
      · rename_i retry
        rcases failed.left with ⟨vlog,writer⟩ | ⟨count,positive,fits,-,files,position⟩ | ⟨-,-,-,-,firm⟩
        · refine ⟨⟨⟨false,?_⟩,failed.books⟩,.inl ⟨retry.1,?_,vlog,writer⟩⟩
          · have same : ({after.writer with appendFailed := false} : ValueLogWriter) = after.writer := by
              rw [←failed.frame.appendFailed.trans healthy]
            simp only [same]
            exact failed.frame
          · rw [←retry.2,writer]
        · rw [position] at retry
          exfalso
          have low := behind
          rw [←retry.2] at low
          simp only [VLogPosition.le_def] at low
          omega
        · exact absurd retry.1 firm
      · rw [delivers_bind,delivers_onWriter]
        refine ⟨latches,.inr ⟨rfl,?_⟩⟩
        rcases failed.left.stopped with ⟨isPrefix,files,position⟩ | ⟨isPrefix,absent,files,position⟩
        · exact .here isPrefix files position
        · exact .created isPrefix absent files position

-- An envelope that was appended whole.
structure Appended (log after : ValueLog) (envelope : PreparedEnvelope) : Prop where
  frame : ∃ last, Frame envelope.commitSeq log {after with writer := {after.writer with lastAppended := last}}
  books : Books after
  vlog : after.storage.vlog = log.storage.vlog.layAll envelope.chunks
  files : after.storage.vlog.files = envelope.chunks.foldl putBehind log.storage.vlog.files
  position : after.writer.position = envelope.vlogEnd
  last : after.writer.lastAppended = some ⟨envelope.commitSeq,envelope.vlogEnd⟩
  begins : envelope.vlogBegin = log.writer.position

-- A failed append stopped the writer for good, or changed nothing.
structure NotAppended (log after : ValueLog) (envelope : PreparedEnvelope) (error : StorageError) : Prop where
  frame : AppendFrame envelope.commitSeq log after
  outcome : (after.storage.vlog = log.storage.vlog ∧ after.writer = log.writer) ∨
    (after.writer.appendFailed = true ∧ Stopped log after envelope.chunks)

theorem NotAppended.refused [Crc32c] {envelope : PreparedEnvelope} (books : Books log) (error : StorageError) :
    NotAppended log log envelope error :=
  ⟨⟨⟨log.writer.appendFailed,.refl log.storage.script⟩,books⟩,.inl ⟨rfl,rfl⟩⟩

-- What the writer asks of an envelope before it writes.
structure EnvelopeAccepted [Crc32c] (writer : ValueLogWriter) (envelope : PreparedEnvelope) : Prop where
  begins : envelope.vlogBegin = writer.position
  forward : envelope.vlogBegin < envelope.vlogEnd
  placed : ∀ chunk ∈ envelope.chunks, chunk.bytes ≠ [] ∧ envelope.vlogBegin ≤ chunk.position
  reaches : endOf writer.position envelope.chunks = envelope.vlogEnd
  stepped : ∃ expected, nextChunkStart envelope.vlogBegin writer.geometry = .ok expected ∧
    validateChunks writer expected envelope.chunks = .ok envelope.vlogEnd

theorem validateEnvelopeChunks_ok [Crc32c] {writer : ValueLogWriter} {envelope : PreparedEnvelope}
    (accepted : validateEnvelopeChunks writer envelope = .ok ()) : EnvelopeAccepted writer envelope := by
  simp only [validateEnvelopeChunks,bind_ok,exists_unit,rejectIf_ok,not_or,not_not,ne_eq,List.isEmpty_iff] at accepted
  obtain ⟨⟨-,-,begins,forward,filled⟩,expected,stepped,stop,checked,rfl⟩ := accepted
  obtain ⟨placed,stops⟩ := validateChunks_ok checked
  have behind : envelope.vlogBegin ≤ expected := by
    unfold nextChunkStart nextPosition at stepped
    split at stepped
    · rw [←Except.ok.inj stepped]
      exact VLogPosition.le_refl _
    · split at stepped
      · cases stepped
      · rw [←Except.ok.inj stepped]
        exact .inl (Nat.lt_succ_self _)
  refine ⟨begins,VLogPosition.not_le.mp forward,?_,?_,expected,stepped,checked⟩
  · exact fun chunk member => ⟨(placed chunk member).1,VLogPosition.le_trans behind (placed chunk member).2⟩
  · rw [stops]
    obtain ⟨first,rest,split⟩ := List.exists_cons_of_ne_nil filled
    rw [split,endOf_cons,endOf_cons]

theorem append_delivers [Crc32c] {envelope : PreparedEnvelope} (books : Books log) :
    Delivers (append envelope) log (fun _ after => Appended log after envelope ∧ log.writer.appendFailed = false)
      (fun error after => NotAppended log after envelope error) := by
  unfold append
  rw [delivers_bind,delivers_get]
  dsimp only
  split
  · exact .refused books _
  · rename_i healthy
    rw [Bool.not_eq_true] at healthy
    split
    · exact .refused books _
    · split
      · exact .refused books _
      · rw [delivers_bind,delivers_lift]
        refine ⟨?_,fun error _ => .refused books error⟩
        intro _ checked
        have accepted := validateEnvelopeChunks_ok checked
        rw [delivers_bind]
        refine (appendChunks_delivers books healthy (by rw [accepted.begins]; exact VLogPosition.le_refl _)
          accepted.placed).mono ?_ ?_
        · rintro - after ⟨frame,kept,vlog,files,position⟩
          rw [delivers_bind,delivers_get]
          rw [accepted.reaches] at position
          split
          · rename_i differs
            exact absurd position differs
          · rw [delivers_onWriter]
            refine ⟨⟨⟨after.writer.lastAppended,frame⟩,kept.same rfl rfl rfl (fun _ _ => ⟨rfl,rfl⟩),vlog,files,position,rfl,
              accepted.begins⟩,healthy⟩
        · rintro error after ⟨frame,outcome⟩
          refine ⟨frame,?_⟩
          rcases outcome with ⟨-,-,same⟩ | stopped
          · exact .inl same
          · exact .inr stopped

end appending

end ExpirKv
