import ExpirKv.Recovery.AnalyzeDrawn
import ExpirKv.Recovery.AnalyzeFacts

namespace ExpirKv
open VLogGeometry Storage

section drawn
variable [Crc32c] {index : Index} {plan : RecoveryPlan}

theorem Drawn.further (drawn : Drawn index plan)
    (differs : plan.acceptedVlogSeq ≠ plan.durableFrontier.durableVlogSeq) :
    plan.acceptedEnd ≠ plan.durableFrontier.durableVlogEnd := by
  rcases drawn.moved with ⟨same,-⟩ | after
  · exact absurd same differs
  · intro same
    rw [same] at after
    cases ends : plan.durableFrontier.durableVlogEnd with
    | none =>
      rw [ends] at after
      cases after
    | some position =>
      rw [ends] at after
      exact VLogPosition.lt_irrefl position (of_decide_eq_true after)

theorem Drawn.forward (drawn : Drawn index plan) : plan.Forward := by
  intro durable member
  rcases drawn.moved with ⟨-,same⟩ | after
  · exact ⟨durable,by rw [same]; exact member,VLogPosition.le_refl durable⟩
  · rw [Option.mem_def.mp member] at after
    cases ends : plan.acceptedEnd with
    | none =>
      rw [ends] at after
      cases after
    | some accepted =>
      rw [ends] at after
      exact ⟨accepted,rfl,VLogPosition.le_of_lt (of_decide_eq_true after)⟩

theorem Drawn.headFits (drawn : Drawn index plan) : plan.headSeq < 18446744073709551616 := by
  obtain ⟨encoded,-,decoded⟩ := drawn.head
  exact decodeHeadSeq_lt decoded

theorem Drawn.fits (drawn : Drawn index plan) : plan.acceptedSeq < 18446744073709551616 :=
  Nat.lt_of_le_of_lt drawn.ordered.2 drawn.headFits

theorem Drawn.newState (drawn : Drawn index plan) : plan.newState.Aims plan := ⟨rfl,rfl,rfl,drawn.headFits⟩

-- A recovery that is resumed in its last phase finds the target stored.
theorem Drawn.trimStored (drawn : Drawn index plan) {state : RecoveryState} (resumed : plan.recoveryState = some state)
    (trims : state.phase = .trim) : TrimStored index plan := by
  obtain ⟨aims,rests⟩ := drawn.resumed state resumed
  obtain ⟨head,target⟩ := rests (by rw [trims]; decide)
  have decoded := drawn.state
  rw [resumed] at decoded
  obtain ⟨encoded,found,decoded⟩ := decodeRecoveryState_some decoded
  refine ⟨?_,?_,encoded,state,found,decoded,trims,aims⟩
  · rw [←head]
    exact drawn.head
  · rw [target]
    exact drawn.frontier

omit [Crc32c] in
theorem RecoveryPlan.Keeps.accepted {position : VLogPosition} (keeps : plan.Keeps position) (forward : plan.Forward) :
    ∃ accepted ∈ plan.acceptedEnd, position < accepted := by
  rcases keeps with ⟨durable,member,below⟩ | within
  · obtain ⟨accepted,there,ordered⟩ := forward durable member
    exact ⟨accepted,there,VLogPosition.lt_of_lt_of_le below ordered⟩
  · exact within

end drawn

section trimming
variable [Crc32c] {start now : Storage} {plan : RecoveryPlan} {events : List Event} {accepted : VLogPosition}

-- The cut at the accepted end takes nothing that is kept.
theorem Traced.truncates (traced : Traced start plan events now) (allowed : TrimAllowed start plan events)
    (forward : plan.Forward) (ends : plan.acceptedEnd = some accepted)
    (reaches : accepted.offset ≤ (now.contents accepted.fileId).length) :
    Traced start plan (.truncated accepted.fileId accepted.offset :: events)
      ((now.setFile accepted.fileId ((now.contents accepted.fileId).take accepted.offset ++
        List.replicate (accepted.offset - (now.contents accepted.fileId).length) 0)).record
          (.truncated accepted.fileId accepted.offset)) := by
  refine ⟨?_,traced.index,traced.identified,.event traced.permitted ⟨allowed,ends⟩,?_,?_⟩
  · rw [Storage.record,Storage.setFile,traced.trace,List.cons_append]
  · intro fileId offset keeps
    rw [←traced.kept fileId offset keeps]
    obtain ⟨position,member,below⟩ := keeps.accepted forward
    obtain rfl := Option.some.inj (ends.symm.trans member)
    by_cases same : accepted.fileId = fileId
    · subst same
      have inside : offset < accepted.offset := by
        rcases below with no | ⟨-,inside⟩
        · exact absurd no (Nat.lt_irrefl _)
        · exact inside
      simp only [Storage.contents,Storage.record,Storage.setFile,Std.ExtTreeMap.getElem?_insert_self,Option.getD_some]
      rw [List.getElem?_append_left (by rw [List.length_take]; simp only [Storage.contents] at reaches; omega),
        List.getElem?_take_of_lt inside]
    · have other : compare accepted.fileId fileId ≠ .eq := fun equal => same (Std.LawfulEqCmp.eq_of_compare equal)
      simp only [Storage.contents,Storage.record,Storage.setFile,Std.ExtTreeMap.getElem?_insert,if_neg other]
  · intro intact
    exact absurd trivial (intact _ List.mem_cons_self)

theorem Traced.removes {fileId : Nat} (traced : Traced start plan events now) (allowed : TrimAllowed start plan events)
    (forward : plan.Forward) (behind : ∀ accepted ∈ plan.acceptedEnd, accepted.fileId < fileId) :
    Traced start plan (.removed fileId :: events)
      ({now with vlog := {now.vlog with files := now.vlog.files.erase fileId}}.record (.removed fileId)) := by
  refine ⟨?_,traced.index,traced.identified,.event traced.permitted ⟨allowed,behind⟩,?_,?_⟩
  · rw [Storage.record,traced.trace,List.cons_append]
  · intro other offset keeps
    rw [←traced.kept other offset keeps]
    obtain ⟨position,member,below⟩ := keeps.accepted forward
    have apart : compare fileId other ≠ .eq := by
      intro equal
      have same := Std.LawfulEqCmp.eq_of_compare equal
      have further := behind position member
      rcases below with before | ⟨before,-⟩
      · exact absurd before (by simp only; omega)
      · exact absurd before (by simp only; omega)
    simp only [Storage.contents,Storage.record,Std.ExtTreeMap.getElem?_erase,if_neg apart]
  · intro intact
    exact absurd trivial (intact _ List.mem_cons_self)

-- The stage of a trim.
def TrimStage (start : Storage) (plan : RecoveryPlan) (events : List Event) : Prop :=
  TrimAllowed start plan events ∧ TargetHeld start plan events

theorem TrimStage.calm (start : Storage) (plan : RecoveryPlan) : Calm (fun before after =>
    During start plan (TrimStage start plan) before → During start plan (TrimStage start plan) after) :=
  During.calm (TrimAllowed.lasting.and TargetHeld.lasting)

theorem During.cutFile (during : During start plan (TrimStage start plan) now) (forward : plan.Forward)
    (ends : plan.acceptedEnd = some accepted) :
    Delivers (ValueLogRecovery.cutFile accepted) now (fun _ after => During start plan (TrimStage start plan) after)
      (fun _ after => During start plan Anyhow after) := by
  have calm := TrimStage.calm start plan
  unfold ValueLogRecovery.cutFile
  refine (during.leaves (calm.openWritable _).mapError).bind ?_ (fun _ _ stopped => stopped.ended)
  intro _ opened during
  refine (during.leaves (calm.verify _).mapError).bind ?_ (fun _ _ stopped => stopped.ended)
  intro _ verified during
  have measured : Delivers (fileLen accepted.fileId) verified
      (fun len after => During start plan (TrimStage start plan) after ∧ len = (after.contents accepted.fileId).length)
      (fun _ after => During start plan Anyhow after) := by
    refine (during.leaves calm.idle).bind ?_ (fun _ _ stopped => stopped.ended)
    exact fun _ reached during => ⟨during,rfl⟩
  refine delivers_bind.mpr (delivers_mapError.mpr (measured.mono ?_ (fun _ _ stopped => stopped)))
  intro len reached both
  obtain ⟨during,rfl⟩ := both
  refine delivers_bind.mpr (delivers_lift.mpr ⟨?_,fun _ _ => during.ended⟩)
  intro _ long
  have reaches := Nat.le_of_not_lt (rejectIf_ok.mp long)
  split
  · refine delivers_bind.mpr (delivers_mapError.mpr (delivers_perform ?_ ?_))
    · intro script
      obtain ⟨events,traced,trimmed⟩ := during
      have same : Traced start plan events {reached with script} := traced.same rfl rfl rfl
      have cut : During start plan (TrimStage start plan) _ :=
        ⟨_,same.truncates trimmed.1 forward ends reaches,trimmed.1.cons (fun _ _ other => by cases other),
          trimmed.2.cons _⟩
      exact (cut.leaves (calm.syncFile _).mapError).mono (fun _ _ kept => kept) (fun _ _ stopped => stopped.ended)
    · intro error script
      obtain ⟨events,traced,-⟩ := during
      exact ⟨events,traced.same rfl rfl rfl,trivial⟩
  · exact (during.leaves (calm.syncFile _).mapError).mono (fun _ _ kept => kept) (fun _ _ stopped => stopped.ended)

theorem During.removeSuffixFile {fileId : Nat} (during : During start plan (TrimStage start plan) now)
    (forward : plan.Forward) (behind : ∀ accepted ∈ plan.acceptedEnd, accepted.fileId < fileId) :
    Delivers (ValueLogRecovery.removeSuffixFile fileId) now
      (fun _ after => During start plan (TrimStage start plan) after)
      (fun _ after => During start plan Anyhow after) := by
  obtain ⟨events,traced,trimmed⟩ := during
  have gone : Delivers (removeFile fileId) now (fun _ after => During start plan (TrimStage start plan) after)
      (fun _ after => During start plan Anyhow after) := by
    refine delivers_bind.mpr (delivers_get.mpr ?_)
    split
    · exact ⟨events,traced,trivial⟩
    · refine delivers_perform ?_ ?_
      · intro script
        have same : Traced start plan events {now with script} := traced.same rfl rfl rfl
        exact ⟨_,same.removes trimmed.1 forward behind,trimmed.1.cons (fun _ _ other => by cases other),
          trimmed.2.cons _⟩
      · intro error script
        exact ⟨events,traced.same rfl rfl rfl,trivial⟩
  refine delivers_bind.mpr (delivers_mapError.mpr (gone.mono ?_ (fun _ _ stopped => stopped)))
  intro _ reached during
  obtain ⟨events,traced,trimmed⟩ := during
  exact delivers_mapError.mpr ((delivers_modify _).mpr ⟨events,traced.same rfl rfl rfl,trimmed⟩)

theorem During.trim (during : During start plan (TrimStage start plan) now) (forward : plan.Forward)
    (fileIds : List Nat) :
    Delivers (ValueLogRecovery.trim plan.acceptedEnd fileIds) now
      (fun _ after => During start plan (TrimStage start plan) after)
      (fun _ after => During start plan Anyhow after) := by
  have calm := TrimStage.calm start plan
  have cut : Delivers (ValueLogRecovery.trimFile fileIds plan.acceptedEnd) now
      (fun _ after => During start plan (TrimStage start plan) after) (fun _ after => During start plan Anyhow after) := by
    cases ends : plan.acceptedEnd with
    | none => exact during
    | some accepted =>
      refine delivers_bind.mpr (delivers_get.mpr (delivers_bind.mpr (delivers_lift.mpr ⟨fun _ _ => ?_,?_⟩)))
      · exact during.cutFile forward ends
      · exact fun _ _ => during.ended
  refine cut.bind ?_ (fun _ _ stopped => stopped)
  intro _ reached during
  refine Delivers.bind (Delivers.forM ?_ during) ?_ (fun _ _ stopped => stopped)
  · intro fileId member reached during
    refine during.removeSuffixFile forward ?_
    intro accepted ends
    have behind := (List.mem_filter.mp member).2
    rw [Option.mem_def.mp ends] at behind
    exact of_decide_eq_true behind
  · intro _ removed during
    exact (during.leaves calm.syncDirectory.mapError).mono (fun _ _ kept => kept) (fun _ _ stopped => stopped.ended)

theorem During.trimSuffix (during : During start plan (TrimStage start plan) now) (forward : plan.Forward)
    (format : FormatMetadata) :
    Delivers (trimSuffix format plan) now (fun _ after => During start plan (TrimStage start plan) after)
      (fun _ after => During start plan Anyhow after) := by
  have calm := TrimStage.calm start plan
  refine (during.leaves (calm.inspect format).mapError).bind ?_ (fun _ _ stopped => stopped.ended)
  intro inventory reached during
  refine (during.trim forward _).bind ?_ (fun _ _ stopped => stopped)
  intro _ trimmed during
  exact (during.leaves (calm.verifyTail format _)).mono (fun _ _ kept => kept) (fun _ _ stopped => stopped.ended)

end trimming

end ExpirKv
