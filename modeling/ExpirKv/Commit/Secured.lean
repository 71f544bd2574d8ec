import ExpirKv.Commit.Grounding
import ExpirKv.Commit.Packed

namespace ExpirKv
open VLogGeometry Storage ValueLog CommitCoordinator

section sheltering
variable {before middle after : Storage} {stop : Option VLogPosition}

-- Files stay, and what a sync covered of them stays covered.
def Shelters (before after : Storage) : Prop :=
  ∀ fileId : Nat, before.vlog.files[fileId]? ≠ none → after.vlog.files[fileId]? ≠ none ∧
    Event.covered before.trace fileId ≤ Event.covered after.trace fileId ∧
    (Event.linked before.trace fileId = true → Event.linked after.trace fileId = true)

theorem Shelters.refl (storage : Storage) : Shelters storage storage := fun _ there => ⟨there,Nat.le_refl _,id⟩

theorem Shelters.trans (left : Shelters before middle) (right : Shelters middle after) : Shelters before after := by
  intro fileId there
  obtain ⟨between,covered,linked⟩ := left fileId there
  obtain ⟨still,further,later⟩ := right fileId between
  exact ⟨still,Nat.le_trans covered further,fun first => later (linked first)⟩

theorem Frame.shelters {commitSeq : Nat} {log later : ValueLog} (frame : Frame commitSeq log later) :
    Shelters log.storage later.storage := by
  intro fileId there
  obtain ⟨still,covered,linked⟩ := frame.covers fileId there
  exact ⟨still,Nat.le_of_eq covered.symm,fun first => linked.trans first⟩

theorem IndexMoved.shelters (moved : IndexMoved before after) : Shelters before after := by
  intro fileId there
  obtain ⟨covered,linked⟩ := moved.covers fileId
  exact ⟨by rw [moved.vlog]; exact there,Nat.le_of_eq covered.symm,fun first => linked.trans first⟩

theorem Synced.shelters {log : ValueLog} (books : Books log) (synced : Synced log.storage after) :
    Shelters log.storage after := by
  intro fileId there
  obtain ⟨covered,linked⟩ := synced.covers fileId
  refine ⟨by rw [synced.vlog]; exact there,?_,linked⟩
  obtain ⟨contents,found⟩ := Option.ne_none_iff_exists'.mp there
  have bounded := books.bounded fileId contents found
  rcases covered with same | whole
  · exact Nat.le_of_eq same.symm
  · rw [whole,Storage.contents,found]
    exact bounded

-- Up to a position every file is linked and synced as far as it reaches there.
def Secured (storage : Storage) (stop : Option VLogPosition) : Prop :=
  ∀ position ∈ stop, ∀ fileId ≤ position.fileId, storage.vlog.files[fileId]? ≠ none ∧
    Event.linked storage.trace fileId = true ∧
    (if fileId = position.fileId then position.offset else 4294967296) ≤ Event.covered storage.trace fileId

theorem Secured.sheltered (secured : Secured before stop) (shelters : Shelters before after) : Secured after stop := by
  intro position ends fileId inside
  obtain ⟨there,linked,covered⟩ := secured position ends fileId inside
  obtain ⟨still,further,later⟩ := shelters fileId there
  exact ⟨still,later linked,Nat.le_trans covered further⟩

end sheltering

section promising
variable [Crc32c] {c : CommitCoordinator} {request : WriteRequest} {around : Surroundings} {appended synced : ValueLog}
  {submission : Submission} {databaseUuid : Uuid} {token : Option FrontierSync}

theorem EnvelopeWritten.shelters {before after : ValueLog} {envelope : Option PreparedEnvelope}
    (written : EnvelopeWritten before envelope after) : Shelters before.storage after.storage := by
  cases written with
  | none => exact .refl _
  | appended _ appended =>
    obtain ⟨last,frame⟩ := appended.frame
    exact frame.shelters

theorem Submits.shelters (submits : Submits c around request appended submission) :
    Shelters c.log.storage appended.storage := by
  cases submits with
  | nonempty _ _ written => exact written.shelters
  | barrier => exact .refl _

omit [Crc32c] in
theorem TargetSynced.shelters {targetSeq : Nat} {targetEnd : Option VLogPosition} {needed : Bool} (books : Books appended)
    (reached : TargetSynced appended targetSeq targetEnd needed token synced) :
    Shelters appended.storage synced.storage := by
  cases reached with
  | needless => exact .refl _
  | through through => exact through.storage.shelters books

omit [Crc32c] in
-- A sync makes durable everything in front of its target.
theorem SyncedThrough.secures {targetSeq : Nat} {position : VLogPosition} {token : FrontierSync} (books : Books appended)
    (through : SyncedThrough appended synced targetSeq (some position) token)
    (reached : Reached appended.storage.vlog.files position) : Secured synced.storage (some position) := by
  intro other same fileId inside
  obtain rfl := Option.mem_some.mp same
  obtain ⟨full,last,there,reaches⟩ := reached
  obtain ⟨contents,found,width⟩ : ∃ contents, appended.storage.vlog.files[fileId]? = some contents ∧
      (if fileId = position.fileId then position.offset else 4294967296) ≤ contents.length := by
    by_cases same : fileId = position.fileId
    · rw [if_pos same,same]
      exact ⟨last,there,reaches⟩
    · obtain ⟨contents,found,whole⟩ := full fileId (by omega)
      rw [if_neg same]
      exact ⟨contents,found,Nat.le_of_eq whole.symm⟩
  have present : appended.storage.vlog.files[fileId]? ≠ none := by rw [found]; exact Option.some_ne_none _
  have here : appended.storage.contents fileId = contents := by rw [Storage.contents,found]; rfl
  have whole : Event.covered synced.storage.trace fileId = contents.length := by
    rw [←here]
    by_cases dirty : fileId ∈ appended.writer.dirty.dirtyFiles
    · refine through.covered fileId ?_
      rw [through.token]
      exact List.mem_filter.mpr ⟨Std.ExtTreeSet.mem_toList.mpr dirty,by simpa using inside⟩
    · refine through.storage.full ?_
      rw [books.clean fileId contents found dirty,here]
  have linked : Event.linked synced.storage.trace fileId = true := by
    by_cases pending : fileId ∈ appended.writer.dirty.pendingDirectoryEntries
    · refine through.linked fileId ?_
      obtain ⟨seq,entry⟩ := Option.isSome_iff_exists.mp (Std.ExtTreeMap.isSome_getElem?_iff_mem.mpr pending)
      have member := Std.ExtTreeMap.mem_toList_iff_getElem?_eq_some.mpr entry
      rw [through.token]
      exact List.mem_filterMap.mpr ⟨_,member,if_pos ⟨through.ready.entries _ _ member,by simpa using inside⟩⟩
    · exact (through.storage.covers fileId).2 (books.linked fileId present pending)
  exact ⟨by rw [through.storage.vlog]; exact present,linked,by rw [whole]; exact width⟩

-- Where no sync is due the frontier's end is already the target.
theorem Submits.standing (accounted : Accounted c) (submits : Submits c around request appended submission)
    (needless : submission.needed = false) (promised : submission.frontier ≠ none) :
    submission.targetEnd = c.state.durableFrontier.durableVlogEnd := by
  have behind : ∀ {vlogSeq}, ¬c.state.durableFrontier.durableVlogSeq < vlogSeq → vlogSeq ≤ c.state.durableFrontier.durableSeq := by
    intro vlogSeq late
    obtain ⟨encoded,encodes,-⟩ := accounted.stored.frontier
    simp only [DurableFrontier.encode,bind_ok,exists_unit,mapError_ok] at encodes
    have ordered := (DurableFrontier.validate_ok.mp encodes.1).1
    omega
  cases submits with
  | @nonempty write prepared batch _ ran _ _ =>
    obtain ⟨descriptor,prepares⟩ := CommitCoordinator.prepare_ok ran
    have synced : write.sync = true := by
      by_contra no
      exact promised (by simp [CommitState.submission,CommitState.frontierOf,no])
    simp only [CommitState.submission,synced,Bool.true_and,decide_eq_false_iff_not,gt_iff_lt] at needless
    have late := behind needless
    cases present : prepared.envelope with
    | some envelope =>
      have ordered := accounted.ordered
      simp only [vlogTarget,present,prepares.seq] at late
      omega
    | none =>
      simp only [vlogTarget,present] at late
      simp only [CommitState.submission,vlogTarget,present]
      exact (accounted.settled late).2.symm
  | barrier =>
    simp only [CommitState.barrierSubmission,decide_eq_false_iff_not,gt_iff_lt] at needless
    simp only [CommitState.barrierSubmission]
    exact (accounted.settled (behind needless)).2.symm

-- Whatever frontier a request promises, everything in front of its end is durable by then.
theorem Grounded.secures (grounded : Grounded c) (healthy : c.runtime.state.instanceState = .healthy)
    (submits : Submits c around request appended submission)
    (packed : PackedAt databaseUuid appended.storage.vlog.files appended.writer.position)
    (reached : TargetSynced appended submission.targetSeq submission.targetEnd submission.needed token synced)
    (secured : Secured c.log.storage c.state.durableFrontier.durableVlogEnd) :
    Secured synced.storage submission.published.durableFrontier.durableVlogEnd := by
  have accounted := grounded.sound.accounted healthy
  have furthers := accounted.furthers grounded.sound.books grounded.sound.ready submits
  have books := submits.books grounded.sound.books
  have kept := secured.sheltered (submits.shelters.trans (reached.shelters books))
  rcases furthers.frontier with ⟨-,-,same,-⟩ | ⟨promised,same⟩
  · rw [same]
    exact kept
  · rw [same]
    simp only
    cases needed : submission.needed with
    | false =>
      rw [submits.standing accounted needed (by rw [promised]; exact Option.some_ne_none _)]
      exact kept
    | true =>
      obtain ⟨lodged,head,-,-⟩ := grounded.submits healthy submits
      obtain ⟨-,ends⟩ := furthers.head
      rw [ends] at head
      cases stop : submission.targetEnd with
      | none => exact fun _ no => by cases no
      | some position =>
        rw [stop] at head
        have place := furthers.aligned.position
        rw [stop] at place
        have room := head.room (lodged.grown.geometry.trans grounded.layout) position rfl
        rw [needed,stop] at reached
        cases reached with
        | through through =>
          refine through.secures books ?_
          rw [show position = appended.writer.position from place.symm]
          refine packed.reached ?_
          rw [place]
          simp only [Option.getD_some]
          omega

end promising

end ExpirKv
