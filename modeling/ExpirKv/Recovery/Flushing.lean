import ExpirKv.Recovery.ExecuteSteps

namespace ExpirKv
open Storage

namespace Event

-- Whether the last cut of a file still waits for its sync.
def pendingCut : List Event → Nat → Bool
  | [],_ => false
  | .truncated file _ :: rest,fileId => file == fileId || pendingCut rest fileId
  | .syncedFile file _ :: rest,fileId => file != fileId && pendingCut rest fileId
  | .found _ _ :: rest,fileId => pendingCut rest fileId
  | .created _ :: rest,fileId => pendingCut rest fileId
  | .wrote _ _ _ :: rest,fileId => pendingCut rest fileId
  | .syncedDirectory :: rest,fileId => pendingCut rest fileId
  | .removed _ :: rest,fileId => pendingCut rest fileId
  | .submitted _ _ :: rest,fileId => pendingCut rest fileId
  | .applied _ _ :: rest,fileId => pendingCut rest fileId

-- Whether the removal of a file still waits for a directory sync.
def pendingRemoval : List Event → Nat → Bool
  | [],_ => false
  | .removed file :: rest,fileId => file == fileId || pendingRemoval rest fileId
  | .syncedDirectory :: _,_ => false
  | .found _ _ :: rest,fileId => pendingRemoval rest fileId
  | .created _ :: rest,fileId => pendingRemoval rest fileId
  | .wrote _ _ _ :: rest,fileId => pendingRemoval rest fileId
  | .syncedFile _ _ :: rest,fileId => pendingRemoval rest fileId
  | .truncated _ _ :: rest,fileId => pendingRemoval rest fileId
  | .submitted _ _ :: rest,fileId => pendingRemoval rest fileId
  | .applied _ _ :: rest,fileId => pendingRemoval rest fileId

-- What a crash may still take back.
def pending (trace : List Event) (fileId : Nat) : Bool := pendingCut trace fileId || pendingRemoval trace fileId

theorem pending_false {trace : List Event} {fileId : Nat} :
    pending trace fileId = false ↔ ¬pendingCut trace fileId = true ∧ ¬pendingRemoval trace fileId = true := by
  simp [pending]

end Event

section flushing
variable {start before middle after : Storage} {acceptedEnd : Option VLogPosition} {α ε : Type}

-- Nothing more waits for a sync than before.
structure Calmed (before after : Storage) : Prop where
  cuts : ∀ fileId, Event.pendingCut after.trace fileId = true → Event.pendingCut before.trace fileId = true
  removals : ∀ fileId, Event.pendingRemoval after.trace fileId = true → Event.pendingRemoval before.trace fileId = true

theorem Calmed.refl (storage : Storage) : Calmed storage storage := ⟨fun _ => id,fun _ => id⟩

theorem Calmed.trans (first : Calmed before middle) (rest : Calmed middle after) : Calmed before after :=
  ⟨fun fileId held => first.cuts fileId (rest.cuts fileId held),
    fun fileId held => first.removals fileId (rest.removals fileId held)⟩

theorem calmed_calm : Calm Calmed where
  refl := Calmed.refl
  trans := fun _ _ _ => Calmed.trans
  script := fun _ _ => ⟨fun _ => id,fun _ => id⟩
  syncedFile := fun storage fileId => ⟨fun _ held => by simp_all [Storage.record,Event.pendingCut],fun _ => id⟩
  syncedDirectory := fun storage => ⟨fun _ => id,fun _ held => by simp [Storage.record,Event.pendingRemoval] at held⟩

-- What leaves nothing more waiting does so in a row of such.
theorem Calmed.and {x : Eff Storage ε α} {post : α → Storage → Prop} {fail : ε → Storage → Prop} (calm : Calmed start before)
    (leaves : Leaves x Calmed) (delivers : Delivers x before post fail) :
    Delivers x before (fun value after => post value after ∧ Calmed start after)
      (fun error after => fail error after ∧ Calmed start after) :=
  (delivers.and (leaves before)).mono (fun _ _ both => ⟨both.1,calm.trans both.2⟩)
    (fun _ _ both => ⟨both.1,calm.trans both.2⟩)

-- Only the file of the accepted end is ever cut.
def CutsOnly (acceptedEnd : Option VLogPosition) (before after : Storage) : Prop :=
  ∀ fileId, Event.pendingCut after.trace fileId = true →
    Event.pendingCut before.trace fileId = true ∨ ∃ accepted ∈ acceptedEnd, accepted.fileId = fileId

theorem cutsOnly_calm (acceptedEnd : Option VLogPosition) : Calm (CutsOnly acceptedEnd) where
  refl := fun _ _ => .inl
  trans := fun _ _ _ first rest fileId held => (rest fileId held).elim (first fileId) .inr
  script := fun _ _ _ => .inl
  syncedFile := fun storage fileId other held => by
    simp only [Storage.record,Event.pendingCut,Bool.and_eq_true] at held
    exact .inl held.2
  syncedDirectory := fun _ _ => .inl

theorem cutsOnly_truncate {accepted : VLogPosition} (len : Nat) :
    Leaves (truncateFile accepted.fileId len) (CutsOnly (some accepted)) :=
  (cutsOnly_calm (some accepted)).perform (fun storage fileId held => by
    simp only [Storage.record,Event.pendingCut,Bool.or_eq_true,beq_iff_eq] at held
    exact held.elim (fun same => .inr ⟨accepted,rfl,same⟩) .inl)

theorem cutsOnly_remove (fileId : Nat) : Leaves (ValueLogRecovery.removeSuffixFile fileId) (CutsOnly acceptedEnd) :=
  (cutsOnly_calm acceptedEnd).bind ((cutsOnly_calm acceptedEnd).removeFile (fun _ _ _ => .inl) fileId).mapError
    (fun _ => Leaves.mapError (fun _ => (delivers_modify _).mpr (fun _ => .inl)))

theorem cutsOnly_trim (acceptedEnd : Option VLogPosition) (fileIds : List Nat) :
    Leaves (ValueLogRecovery.trim acceptedEnd fileIds) (CutsOnly acceptedEnd) := by
  refine (cutsOnly_calm acceptedEnd).trim fileIds ?_ (fun fileId _ => cutsOnly_remove fileId)
  rintro accepted rfl
  exact cutsOnly_truncate accepted.offset

-- A trim that succeeded leaves nothing waiting: no removal, and no cut of the accepted end's file.
structure Flushed (acceptedEnd : Option VLogPosition) (before after : Storage) : Prop where
  cuts : ∀ fileId, Event.pendingCut after.trace fileId = true →
    Event.pendingCut before.trace fileId = true ∧ ∀ accepted ∈ acceptedEnd, accepted.fileId ≠ fileId
  removals : ∀ fileId, Event.pendingRemoval after.trace fileId = false

theorem Flushed.calmed (flushed : Flushed acceptedEnd before middle) (calm : Calmed middle after) :
    Flushed acceptedEnd before after := by
  refine ⟨fun fileId held => flushed.cuts fileId (calm.cuts fileId held),fun fileId => ?_⟩
  by_contra held
  have earlier := calm.removals fileId (by simpa using held)
  rw [flushed.removals fileId] at earlier
  cases earlier

theorem Calmed.flushed (calm : Calmed before middle) (flushed : Flushed acceptedEnd middle after) :
    Flushed acceptedEnd before after := by
  refine ⟨fun fileId held => ?_,flushed.removals⟩
  obtain ⟨earlier,apart⟩ := flushed.cuts fileId held
  exact ⟨calm.cuts fileId earlier,apart⟩

theorem syncFile_flushes {accepted : VLogPosition} (cut : CutsOnly (some accepted) before middle) :
    Delivers (syncFile accepted.fileId) middle
      (fun _ after => ∀ fileId, Event.pendingCut after.trace fileId = true →
        Event.pendingCut before.trace fileId = true ∧ accepted.fileId ≠ fileId) (fun _ _ => True) := by
  refine delivers_perform (fun _ fileId held => ?_) (fun _ _ => trivial)
  simp only [Storage.record,Event.pendingCut,Bool.and_eq_true,bne_iff_ne] at held
  refine ⟨(cut fileId held.2).resolve_right ?_,held.1⟩
  rintro ⟨other,member,same⟩
  obtain rfl := Option.mem_some.mp member
  exact held.1 same

theorem trimFile_flushes (fileIds : List Nat) :
    Delivers (ValueLogRecovery.trimFile fileIds acceptedEnd) before
      (fun _ after => ∀ fileId, Event.pendingCut after.trace fileId = true →
        Event.pendingCut before.trace fileId = true ∧ ∀ accepted ∈ acceptedEnd, accepted.fileId ≠ fileId)
      (fun _ _ => True) := by
  cases acceptedEnd with
  | none => exact fun fileId held => ⟨held,fun _ no => by cases no⟩
  | some accepted =>
    have calm := cutsOnly_calm (some accepted)
    -- Whatever came before it, the sync that ends the cut settles it.
    have ends : ∀ reached, CutsOnly (some accepted) before reached →
        Delivers ((syncFile accepted.fileId).mapError (recoveryVlogIo accepted.fileId (some accepted.offset))) reached
          (fun _ after => ∀ fileId, Event.pendingCut after.trace fileId = true →
            Event.pendingCut before.trace fileId = true ∧ ∀ other ∈ some accepted, other.fileId ≠ fileId)
          (fun _ _ => True) := by
      intro reached cut
      refine delivers_mapError.mpr ((syncFile_flushes cut).mono ?_ (fun _ _ _ => trivial))
      intro _ after flushed fileId held
      obtain ⟨earlier,apart⟩ := flushed fileId held
      refine ⟨earlier,?_⟩
      intro other member
      obtain rfl := Option.mem_some.mp member
      exact apart
    have opened : Leaves ((openWritable accepted.fileId).mapError
        (recoveryVlogIo accepted.fileId (some accepted.offset))) (CutsOnly (some accepted)) :=
      (calm.openWritable _).mapError
    have verified : Leaves ((verify accepted.fileId).mapError
        (recoveryVlogContext (some accepted.fileId) (some accepted.offset))) (CutsOnly (some accepted)) :=
      (calm.verify _).mapError
    have measured : Leaves ((fileLen accepted.fileId).mapError
        (recoveryVlogIo accepted.fileId (some accepted.offset))) (CutsOnly (some accepted)) :=
      (calm.fileLen _).mapError
    have cuts : Leaves ((truncateFile accepted.fileId accepted.offset).mapError
        (recoveryVlogIo accepted.fileId (some accepted.offset))) (CutsOnly (some accepted)) :=
      (cutsOnly_truncate accepted.offset).mapError
    refine delivers_bind.mpr (delivers_get.mpr (delivers_bind.mpr (delivers_lift.mpr ⟨fun _ _ => ?_,fun _ _ => trivial⟩)))
    refine (opened before).bind ?_ (fun _ _ _ => trivial)
    intro _ first one
    refine (verified first).bind ?_ (fun _ _ _ => trivial)
    intro _ second two
    refine (measured second).bind ?_ (fun _ _ _ => trivial)
    intro len third three
    have sofar := calm.trans _ _ _ one (calm.trans _ _ _ two three)
    refine delivers_bind.mpr (delivers_lift.mpr ⟨fun _ _ => ?_,fun _ _ => trivial⟩)
    split
    · refine (cuts third).bind ?_ (fun _ _ _ => trivial)
      exact fun _ fourth four => ends fourth (calm.trans _ _ _ sofar four)
    · exact ends third sofar

theorem trim_flushes (fileIds : List Nat) :
    Delivers (ValueLogRecovery.trim acceptedEnd fileIds) before (fun _ after => Flushed acceptedEnd before after)
      (fun _ _ => True) := by
  refine (trimFile_flushes fileIds).bind ?_ (fun _ _ _ => trivial)
  intro _ cut settled
  have removes : Leaves ((ValueLogRecovery.suffixFiles acceptedEnd fileIds).forM ValueLogRecovery.removeSuffixFile)
      (CutsOnly none) := (cutsOnly_calm none).forM (fun fileId _ => cutsOnly_remove fileId)
  refine (removes cut).bind ?_ (fun _ _ _ => trivial)
  intro _ removed kept
  refine delivers_mapError.mpr (delivers_perform (fun _ => ⟨fun fileId held => ?_,fun _ => rfl⟩) (fun _ _ => trivial))
  refine settled fileId ((kept fileId held).resolve_right ?_)
  rintro ⟨_,no,-⟩
  cases no

variable [Crc32c] {format : FormatMetadata} {plan : RecoveryPlan}

-- A batch leaves the syncs of the files as they are.
theorem commitAtomic_calmed (batch : IndexAtomicBatch) (mode : IndexCommitMode) :
    Leaves (commitAtomic batch mode) Calmed := by
  intro storage
  rw [commitAtomic,delivers_bind,delivers_tick]
  simp only [delivers_bind,delivers_get,delivers_set,delivers_lift]
  refine ⟨fun _ _ => ?_,fun _ _ => ?_⟩ <;> split <;> exact ⟨fun _ => id,fun _ => id⟩

theorem cutsOnly_commit (batch : IndexAtomicBatch) (mode : IndexCommitMode) :
    Leaves (commitAtomic batch mode) (CutsOnly acceptedEnd) :=
  fun storage => (commitAtomic_calmed batch mode storage).mono (fun _ _ calm fileId held => .inl (calm.cuts fileId held))
    (fun _ _ calm fileId held => .inl (calm.cuts fileId held))

-- Whatever is answered to an execution.
theorem executeRecovery_cutsOnly (format : FormatMetadata) (plan : RecoveryPlan) :
    Leaves (executeRecovery format plan) (CutsOnly plan.acceptedEnd) :=
  (cutsOnly_calm plan.acceptedEnd).executeRecovery format (fun fileIds => cutsOnly_trim plan.acceptedEnd fileIds)
    (fun batch _ => cutsOnly_commit batch .syncAll)

end flushing

end ExpirKv
