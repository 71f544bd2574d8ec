import ExpirKv.Recovery.SafeOrder
import ExpirKv.Vlog.Rereading

namespace ExpirKv
open VLogGeometry Storage

section boundaries
variable [Crc32c] {files later : FileSet} {accepted stop : VLogPosition} {frontier : DurableFrontier}

theorem FileSet.Keeps.mono (keeps : files.Keeps accepted later) (before : stop ≤ accepted) : files.Keeps stop later :=
  ⟨keeps.geometry,keeps.identity,fun chunk inside held => keeps.holds chunk (VLogPosition.le_trans inside before) held⟩

theorem StableBoundary.kept (boundary : StableBoundary files frontier)
    (keeps : ∀ stop ∈ frontier.durableVlogEnd, files.Keeps stop later) : StableBoundary later frontier := by
  unfold StableBoundary at boundary ⊢
  cases ends : frontier.durableVlogEnd with
  | none => simpa only [ends] using boundary
  | some stop =>
    simp only [ends] at boundary ⊢
    obtain ⟨present,envelope,read,same⟩ := boundary
    exact ⟨present,envelope,(keeps stop ends).stableEnvelope read,same⟩

-- A stable end lies behind the headers of its file.
theorem StableBoundary.room (boundary : StableBoundary files frontier) (geometry : files.geometry = production) :
    ∀ stop ∈ frontier.durableVlogEnd, 64 ≤ stop.offset ∧ stop.offset ≤ 4294967296 := by
  intro stop ends
  unfold StableBoundary at boundary
  rw [show frontier.durableVlogEnd = some stop from ends] at boundary
  obtain ⟨-,envelope,read,-⟩ := boundary
  obtain ⟨footer,⟨chunk,rfl,-,decoded⟩,-⟩ := readStableEnvelopeFromEnd_footer read
  simp only [readStableEnvelopeFromEnd,bind_ok,exists_unit,rejectIf_ok,geometry,maxVlogFileSize] at read
  have area := (decodeRecordAt_place decoded).1
  simp only [geometry,vlogPageSize] at area
  refine ⟨?_,by omega⟩
  simp only [PhysicalChunk.next]
  split at area <;> omega

-- Files that open the same up to a position keep what is before it.
theorem FileSet.Keeps.of_handles (geometry : later.geometry = files.geometry)
    (identity : later.databaseUuid = files.databaseUuid)
    (opens : ∀ fileId ≤ stop.fileId, later.handle fileId = files.handle fileId) : files.Keeps stop later := by
  refine ⟨geometry,identity,?_⟩
  intro chunk before held
  obtain ⟨contents,opened,taken⟩ := held
  refine ⟨contents,?_,taken⟩
  have low : chunk.position.fileId ≤ stop.fileId := by
    simp only [VLogPosition.le_def,PhysicalChunk.next] at before
    omega
  rw [opens _ low]
  exact opened

theorem FileSet.keeps_removed {fileId : Nat} (behind : accepted.fileId < fileId) :
    files.Keeps accepted {files with files := files.files.erase fileId} := by
  refine .of_handles rfl rfl ?_
  intro other low
  have apart : ¬fileId = other := by omega
  simp only [handle,validateCandidate,Std.ExtTreeMap.getElem?_erase,Std.LawfulEqCmp.compare_eq_iff_eq,if_neg apart]

theorem FileSet.keeps_unlisted {fileId : Nat} (behind : accepted.fileId < fileId) :
    files.Keeps accepted {files with catalog := files.catalog.erase fileId} := by
  refine .of_handles rfl rfl ?_
  intro other low
  have apart : fileId ≠ other := by omega
  have listed : other ∈ files.catalog.erase fileId ↔ other ∈ files.catalog := by simp [apart]
  simp only [handle,validateCandidate,listed]

-- A file cut at a position behind its headers still opens, and reads the same before the cut.
theorem FileSet.keeps_cut (room : 64 ≤ accepted.offset) (fits : accepted.offset ≤ files.geometry.maxFileSize)
    (pad : Bytes) (padded : pad.length = accepted.offset - (files.files[accepted.fileId]?.getD []).length) :
    files.Keeps accepted {files with
      files := files.files.insert accepted.fileId
        ((files.files[accepted.fileId]?.getD []).take accepted.offset ++ pad)} := by
  refine ⟨rfl,rfl,?_⟩
  intro chunk before held
  obtain ⟨contents,opened,taken⟩ := held
  obtain ⟨member,found,valid⟩ := FileSet.handle_ok.mp opened
  by_cases same : chunk.position.fileId = accepted.fileId
  · rw [same] at found member valid
    simp only [found,Option.getD_some] at padded ⊢
    have inside : chunk.position.offset + chunk.bytes.length ≤ accepted.offset := by
      simp only [VLogPosition.le_def,PhysicalChunk.next] at before
      omega
    have reads : ∀ offset len, offset + len ≤ accepted.offset → offset + len ≤ contents.length →
        slice? (contents.take accepted.offset ++ pad) offset len = slice? contents offset len := by
      intro offset len low reach
      rw [slice?_append_left,slice?_take low reach]
      rw [List.length_take]
      omega
    refine ⟨contents.take accepted.offset ++ pad,FileSet.handle_ok.mpr ⟨by rw [same]; exact member,?_,?_⟩,?_⟩
    · rw [same,Std.ExtTreeMap.getElem?_insert_self]
    · obtain ⟨-,encoded,header,rest⟩ := FileSet.validateCandidate_ok.mp valid
      refine FileSet.validateCandidate_ok.mpr ⟨?_,encoded,?_,by rw [same]; exact rest⟩
      · simp only [List.length_append,List.length_take,padded]
        omega
      · rw [reads 16 48 room (slice?_eq_some.mp header).1]
        exact header
    · rw [reads _ _ inside (slice?_eq_some.mp taken).1]
      exact taken
  · refine ⟨contents,FileSet.handle_ok.mpr ⟨member,?_,valid⟩,taken⟩
    simp only [Std.ExtTreeMap.getElem?_insert,Std.LawfulEqCmp.compare_eq_iff_eq,if_neg (Ne.symm same)]
    exact found

end boundaries

section tails
variable [Crc32c] {plan : RecoveryPlan} {start now final : Storage} {acceptedEnd : Option VLogPosition}

-- Nothing before the accepted end was lost.
def TailKept (acceptedEnd : Option VLogPosition) (before after : Storage) : Prop :=
  ∀ accepted ∈ acceptedEnd, before.vlog.geometry = production → before.vlog.Keeps accepted after.vlog

theorem TailKept.of_same {before after : Storage} (same : after.vlog = before.vlog) :
    TailKept acceptedEnd before after := by
  intro accepted _ _
  rw [same]
  exact .refl _ _

theorem tailKept_calm (acceptedEnd : Option VLogPosition) : Calm (TailKept acceptedEnd) := by
  refine ⟨fun _ => .of_same rfl,?_,fun _ _ => .of_same rfl,fun _ _ => .of_same rfl,fun _ => .of_same rfl⟩
  intro first second third left right accepted ends geometry
  have one := left accepted ends geometry
  exact one.trans (right accepted ends (one.geometry.trans geometry))

theorem commitAtomic_sameVlog (batch : IndexAtomicBatch) (mode : IndexCommitMode) :
    Leaves (commitAtomic batch mode) (fun before after => after.vlog = before.vlog) := by
  intro storage
  rw [Storage.commitAtomic,delivers_bind,delivers_tick]
  simp only [delivers_bind,delivers_get,delivers_set,delivers_lift]
  refine ⟨fun _ _ => ?_,fun _ _ => ?_⟩ <;> split <;> rfl

theorem tailKept_trim (room : ∀ accepted ∈ acceptedEnd, 64 ≤ accepted.offset ∧ accepted.offset ≤ 4294967296)
    (fileIds : List Nat) : Leaves (ValueLogRecovery.trim acceptedEnd fileIds) (TailKept acceptedEnd) := by
  have calm := tailKept_calm acceptedEnd
  refine calm.trim fileIds ?_ ?_
  · intro accepted ends
    refine calm.perform ?_
    intro storage other same geometry
    obtain rfl := Option.mem_unique ends same
    have bounds := room accepted ends
    refine FileSet.keeps_cut bounds.1 (by rw [geometry]; exact bounds.2) _ ?_
    simp only [List.length_replicate]
    rfl
  · intro fileId member
    have behind : ∀ accepted ∈ acceptedEnd, accepted.fileId < fileId := by
      intro accepted ends
      simp only [ValueLogRecovery.suffixFiles,List.mem_filter,Option.all_eq_true,decide_eq_true_eq] at member
      exact member.2 accepted ends
    have removed : Leaves (Storage.perform (fun storage =>
        {storage with vlog := {storage.vlog with files := storage.vlog.files.erase fileId}}.record (.removed fileId)))
        (TailKept acceptedEnd) :=
      calm.perform (fun _ accepted ends _ => FileSet.keeps_removed (behind accepted ends))
    refine calm.bind (Leaves.mapError (calm.bind calm.get (fun storage => ?_))) (fun _ => Leaves.mapError ?_)
    · split
      · exact calm.bind (Leaves.throw _ calm.refl) (fun _ => removed)
      · exact removed
    · intro storage
      exact (delivers_modify _).mpr (fun accepted ends _ => FileSet.keeps_unlisted (behind accepted ends))

theorem executeRecovery_tailKept (room : ∀ accepted ∈ plan.acceptedEnd, 64 ≤ accepted.offset ∧ accepted.offset ≤ 4294967296)
    (format : FormatMetadata) : Leaves (executeRecovery format plan) (TailKept plan.acceptedEnd) := by
  refine (tailKept_calm plan.acceptedEnd).executeRecovery format (tailKept_trim room) ?_
  intro batch _ storage
  exact (commitAtomic_sameVlog batch .syncAll storage).mono (fun _ _ same => .of_same same) (fun _ _ same => .of_same same)

end tails

section anchoring
variable [Crc32c] {plan : RecoveryPlan} {start now : Storage}

-- An accepted boundary of a plan is a stable boundary of the files it was read from.
theorem validateAcceptedBoundary_stable (geometry : now.vlog.geometry = production) :
    Delivers (validateAcceptedBoundary plan) now (fun _ _ => StableBoundary now.vlog plan.target) (fun _ _ => True) := by
  unfold validateAcceptedBoundary
  split
  · refine Asked.settle (fun _ _ => ?_)
    exact ((Asked.refl now).stableBoundary plan.target).mono (fun _ _ both => both.2) (fun _ _ _ => trivial)
  · refine Asked.settle ?_
    intro descriptor found
    refine ((Asked.refl now).readsVlog).mono ?_ (fun _ _ _ => trivial)
    intro _ after both
    obtain ⟨before,-,envelope,read,seq,ends⟩ := readAndValidateEnvelope_ok geometry both.2
    simp only [acceptedDescriptor,bind_ok,exists_unit,rejectIf_ok,orError_ok,pure_ok,Except.ok.injEq,not_or,not_not,
      ne_eq,Nat.not_lt] at found
    obtain ⟨above,_,-,⟨number,-,stop⟩,rfl⟩ := found
    unfold StableBoundary RecoveryPlan.target
    simp only [←stop]
    exact ⟨by omega,envelope,read,seq.trans number,ends⟩

-- Neither the files nor the frontier have moved.
def Unmoved (before after : Storage) : Prop :=
  after.vlog = before.vlog ∧ after.index.system[durableFrontierKey]? = before.index.system[durableFrontierKey]?

omit [Crc32c] in
theorem unmoved_calm : Calm Unmoved :=
  ⟨fun _ => ⟨rfl,rfl⟩,fun _ _ _ left right => ⟨right.1.trans left.1,right.2.trans left.2⟩,fun _ _ => ⟨rfl,rfl⟩,
    fun _ _ => ⟨rfl,rfl⟩,fun _ => ⟨rfl,rfl⟩⟩

theorem unmoved_commitAtomic {batch : IndexAtomicBatch} (spares : ∀ value, ¬batch.Sets durableFrontierKey value)
    (mode : IndexCommitMode) : Leaves (commitAtomic batch mode) Unmoved := by
  intro storage
  have lands : ∀ fault, (storage.index.commitAtomic batch mode fault).2.system[durableFrontierKey]? =
      storage.index.system[durableFrontierKey]? := by
    intro fault
    rcases storage.index.commitAtomic_lands batch mode fault with same | applied
    · rw [same]
    · rw [applied]
      rcases storage.index.apply_system batch durableFrontierKey with ⟨-,same⟩ | sets
      · exact same
      · exact absurd sets (spares _)
  rw [Storage.commitAtomic,delivers_bind,delivers_tick]
  simp only [delivers_bind,delivers_get,delivers_set,delivers_lift]
  refine ⟨fun _ _ => ⟨?_,lands _⟩,fun _ _ => ⟨?_,lands _⟩⟩ <;> split <;> rfl

theorem buildUndoBatch_spares {loaded : LoadedDescriptor} {state : RecoveryState} {batch : IndexAtomicBatch}
    (built : buildUndoBatch loaded state = .ok batch) (value : Option Bytes) :
    ¬batch.Sets durableFrontierKey value := by
  obtain ⟨users,transactions,encoded,-,writes⟩ := buildUndoBatch_writes built
  intro sets
  have member := (writes.sets _ _).mp sets
  simp only [List.mem_cons,Prod.mk.injEq,List.not_mem_nil,or_false] at member
  rcases member with ⟨same,-⟩ | ⟨same,-⟩
  · exact absurd same (by decide)
  · exact absurd same (by decide)

omit [Crc32c] in
theorem Unmoved.leaves {ε α : Type} {x : Eff Storage ε α} (unmoved : Unmoved start now) (leaves : Leaves x Unmoved) :
    Delivers x now (fun _ after => Unmoved start after) (fun _ after => Unmoved start after) :=
  (leaves now).mono (fun _ _ moved => unmoved_calm.trans _ _ _ unmoved moved)
    (fun _ _ moved => unmoved_calm.trans _ _ _ unmoved moved)

-- Nothing goes on behind a boundary that is not stable.
theorem Unmoved.refuses {α : Type} {next : Unit → Eff Storage StorageError α} {post : α → Storage → Prop}
    (unmoved : Unmoved start now) (geometry : start.vlog.geometry = production)
    (unstable : ¬StableBoundary start.vlog plan.target) :
    Delivers (validateAcceptedBoundary plan >>= next) now post (fun _ after => Unmoved start after) := by
  have judged := @validateAcceptedBoundary_stable _ plan now (by rw [unmoved.1]; exact geometry)
  refine delivers_bind.mpr (((unmoved.leaves (unmoved_calm.validateAcceptedBoundary plan)).and judged).mono ?_
    (fun _ _ both => both.1))
  intro _ after both
  rw [unmoved.1] at both
  exact absurd both.2 unstable

theorem Unmoved.createRecoveryState (unmoved : Unmoved start now) (geometry : start.vlog.geometry = production)
    (unstable : ¬StableBoundary start.vlog plan.target) :
    Delivers (createRecoveryState plan) now (fun created after => Unmoved start after ∧ created = plan.recoveryState)
      (fun _ after => Unmoved start after) := by
  unfold ExpirKv.createRecoveryState
  split
  · refine (unmoved.leaves (unmoved_calm.syncNewAcceptedVlog plan)).bind ?_ (fun _ _ stopped => stopped)
    intro _ synced unmoved
    exact unmoved.refuses geometry unstable
  · exact ⟨unmoved,rfl⟩

theorem Unmoved.reachTarget {recoveryState : Option RecoveryState} (unmoved : Unmoved start now)
    (geometry : start.vlog.geometry = production) (unstable : ¬StableBoundary start.vlog plan.target)
    (undoing : ∀ state ∈ recoveryState, state.phase = .undo) :
    Delivers (reachTarget plan recoveryState) now (fun progress after => Unmoved start after ∧ progress.state = none)
      (fun _ after => Unmoved start after) := by
  cases recoveryState with
  | none =>
    unfold ExpirKv.reachTarget
    dsimp only
    split
    · refine (unmoved.leaves (unmoved_calm.syncNewAcceptedVlog plan)).bind ?_ (fun _ _ stopped => stopped)
      intro _ synced unmoved
      exact unmoved.refuses geometry unstable
    · exact ⟨unmoved,rfl⟩
  | some state =>
    unfold ExpirKv.reachTarget
    dsimp only
    rw [if_pos (undoing state rfl)]
    have spared : Leaves (undoTransactions plan state) Unmoved :=
      unmoved_calm.undoTransactions state (fun _ _ _ built => unmoved_commitAtomic (buildUndoBatch_spares built) .syncAll)
    refine (unmoved.leaves spared).bind ?_ (fun _ _ stopped => stopped)
    intro _ undone unmoved
    exact unmoved.refuses geometry unstable

-- Where the target is not a stable boundary, an execution does not get as far as storing it.
theorem executeRecovery_unmoved (drawn : Drawn start.index plan) (unmoved : Unmoved start now)
    (geometry : start.vlog.geometry = production) (boundary : StableBoundary start.vlog plan.durableFrontier)
    (unstable : ¬StableBoundary start.vlog plan.target) (format : FormatMetadata) :
    Delivers (executeRecovery format plan) now (fun _ after => Unmoved start after)
      (fun _ after => Unmoved start after) := by
  have undoing : ∀ state ∈ plan.recoveryState, state.phase = .undo := by
    intro state member
    by_contra other
    rw [((drawn.resumed state member).2 other).2] at unstable
    exact unstable boundary
  refine (unmoved.leaves (unmoved_calm.validateRecoveryBindings format plan)).bind ?_ (fun _ _ stopped => stopped)
  intro _ bound unmoved
  refine (unmoved.createRecoveryState geometry unstable).bind ?_ (fun _ _ stopped => stopped)
  intro created reached both
  obtain ⟨unmoved,rfl⟩ := both
  refine (unmoved.reachTarget geometry unstable undoing).bind ?_ (fun _ _ stopped => stopped)
  intro progress settled both
  obtain ⟨unmoved,none⟩ := both
  rw [none]
  refine unmoved.leaves ?_
  exact unmoved_calm.bind (unmoved_calm.pure _) (fun _ => unmoved_calm.bind (unmoved_calm.lift _) (fun _ =>
    unmoved_calm.bind (unmoved_calm.verifyFinalState format plan _ _) (fun _ =>
      unmoved_calm.bind (unmoved_calm.intoWriter _) (fun _ => unmoved_calm.bind (unmoved_calm.lift _) (fun _ =>
        unmoved_calm.pure _)))))

-- The frontier in the index is one of the plan's two, and the end of an envelope that the files hold.
def RecoveryPlan.Anchored (plan : RecoveryPlan) (final : Storage) : Prop :=
  ∃ frontier, (frontier = plan.durableFrontier ∨ frontier = plan.target) ∧
    FrontierStored final.index frontier ∧ StableBoundary final.vlog frontier

theorem executeRecovery_anchored {ready : Storage} (drawn : Drawn start.index plan) (asked : Asked start ready)
    (geometry : start.vlog.geometry = production) (boundary : StableBoundary start.vlog plan.durableFrontier)
    (format : FormatMetadata) :
    Delivers (executeRecovery format plan) ready (fun _ final => plan.Anchored final)
      (fun _ final => plan.Anchored final) := by
  by_cases stable : StableBoundary start.vlog plan.target
  · have kept : ∀ final, During start plan Anyhow final → TailKept plan.acceptedEnd ready final →
        plan.Anchored final := by
      intro final during tail
      obtain ⟨events,traced,-⟩ := during
      have guarded := traced.guarded drawn
      obtain ⟨_,rfl⟩ := asked
      have stays : ∀ accepted ∈ plan.acceptedEnd, start.vlog.Keeps accepted final.vlog :=
        fun accepted ends => tail accepted ends geometry
      have stored := guarded.triples [] events rfl
      rw [←guarded.index] at stored
      rcases stored with durable | target
      · refine ⟨_,.inl rfl,durable,boundary.kept ?_⟩
        intro stop ends
        obtain ⟨accepted,there,before⟩ := guarded.forward stop ends
        exact (stays accepted there).mono before
      · exact ⟨_,.inr rfl,target,stable.kept (fun stop ends => stays stop ends)⟩
    have tails := executeRecovery_tailKept (stable.room geometry) format ready
    exact ((executeRecovery_traced drawn asked format).and tails).mono (fun _ final both => kept final both.1 both.2)
      (fun _ final both => kept final both.1 both.2)
  · have kept : ∀ final, Unmoved start final → plan.Anchored final := by
      intro final unmoved
      obtain ⟨encoded,found,decoded⟩ := drawn.frontier
      exact ⟨_,.inl rfl,⟨encoded,unmoved.2.trans found,decoded⟩,by rw [unmoved.1]; exact boundary⟩
    have begun : Unmoved start ready := by
      obtain ⟨_,rfl⟩ := asked
      exact ⟨rfl,rfl⟩
    exact (executeRecovery_unmoved drawn begun geometry boundary stable format).mono (fun _ final => kept final)
      (fun _ final => kept final)

-- Whatever fails in an execution of a plan that an analysis made.
theorem recovery_keeps_boundary {format : FormatMetadata} {inventory : ManagedInventory} {ready : Storage}
    (analyzed : analyzeRecovery format inventory start = .ok plan ready) :
    Delivers (executeRecovery format plan) ready (fun _ final => plan.Anchored final)
      (fun _ final => plan.Anchored final) := by
  obtain ⟨drawn,asked,geometry,boundary⟩ := analyzeRecovery_anchored analyzed
  exact executeRecovery_anchored drawn asked geometry boundary format

end anchoring

-- A transaction whose envelope never reached the files.
theorem lostEnvelope_analyzed : ∃ format storage plan,
    @analyzeRecovery castagnoli format ⟨[]⟩ storage = .ok plan storage ∧ plan.needsUndo = true := by
  obtain ⟨format,storage,descriptor,image,kind,empty⟩ := lostEnvelope_image
  obtain ⟨identity,topology,front,back,-,split,accepts,-,analyzed⟩ := @TornImage.analyzed castagnoli _ _ _ _ _ _ image
  have none : front = [] := by
    cases front with
    | nil => rfl
    | cons first rest =>
      obtain ⟨rfl,-⟩ := List.cons.inj split
      exact absurd accepts.1 (lostEnvelope_rejected kind empty (@TornImage.geometry castagnoli _ _ _ _ _ _ image))
  subst none
  exact ⟨format,storage,_,analyzed,rfl⟩

theorem recovery_keeps_boundary_lost :
    ∃ format storage plan, @analyzeRecovery castagnoli format ⟨[]⟩ storage = .ok plan storage ∧ plan.needsUndo = true ∧
      Delivers (@executeRecovery castagnoli format plan) storage
        (fun _ final => @RecoveryPlan.Anchored castagnoli plan final)
        (fun _ final => @RecoveryPlan.Anchored castagnoli plan final) := by
  obtain ⟨format,storage,plan,analyzed,undoes⟩ := lostEnvelope_analyzed
  exact ⟨format,storage,plan,analyzed,undoes,@recovery_keeps_boundary castagnoli _ _ _ _ _ analyzed⟩

end ExpirKv
