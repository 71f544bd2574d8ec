import ExpirKv.Commit.Packed
import ExpirKv.Recovery.Anchoring
import ExpirKv.Recovery.TrimReached

namespace ExpirKv
open VLogGeometry Storage

section fronts
variable {acceptedEnd : Option VLogPosition} {before middle after : Directory}

-- Files that may have lost anything behind an accepted end, and nothing in front of it.
structure Weathers (acceptedEnd : Option VLogPosition) (before after : Directory) : Prop where
  fronts : Keeps after before
  accepted : ∀ fileId : Nat, acceptedContents after acceptedEnd fileId = acceptedContents before acceptedEnd fileId

theorem Weathers.refl (acceptedEnd : Option VLogPosition) (files : Directory) : Weathers acceptedEnd files files :=
  ⟨.refl files,fun _ => rfl⟩

theorem Weathers.trans (first : Weathers acceptedEnd before middle) (rest : Weathers acceptedEnd middle after) :
    Weathers acceptedEnd before after :=
  ⟨rest.fronts.trans first.fronts,fun fileId => (rest.accepted fileId).trans (first.accepted fileId)⟩

theorem acceptedContents_front {files : Directory} {fileId : Nat} {contents : Bytes}
    (found : acceptedContents files acceptedEnd fileId = some contents) : ∃ more, files[fileId]? = some (contents ++ more) := by
  cases acceptedEnd with
  | none => cases found
  | some accepted =>
    simp only [acceptedContents] at found
    split at found
    · exact ⟨[],by rw [found,List.append_nil]⟩
    · split at found
      · obtain ⟨whole,there,rfl⟩ := Option.map_eq_some_iff.mp found
        exact ⟨whole.drop accepted.offset,by rw [there,List.take_append_drop]⟩
      · cases found

-- Wherever a trim was cut.
theorem Between.weathers (between : Between acceptedEnd before after) : Weathers acceptedEnd before after := by
  refine ⟨?_,between.accepted⟩
  intro fileId contents found
  rcases between fileId with kept | cut
  · exact ⟨[],by rw [←kept,found,List.append_nil]⟩
  · exact acceptedContents_front (cut.symm.trans found)

-- A mixture of files that weathered is one.
theorem Weathers.mixed {one other : Directory} (first : Weathers acceptedEnd before one)
    (second : Weathers acceptedEnd before other)
    (mixed : ∀ fileId : Nat, after[fileId]? = one[fileId]? ∨ after[fileId]? = other[fileId]?) :
    Weathers acceptedEnd before after := by
  have here : ∀ {fileId : Nat} {files : Directory}, after[fileId]? = files[fileId]? →
      acceptedContents after acceptedEnd fileId = acceptedContents files acceptedEnd fileId := by
    intro fileId files same
    cases acceptedEnd with
    | none => rfl
    | some accepted => simp only [acceptedContents,same]
  constructor
  · intro fileId contents found
    rcases mixed fileId with same | same
    · exact first.fronts fileId contents (same.symm.trans found)
    · exact second.fronts fileId contents (same.symm.trans found)
  · intro fileId
    rcases mixed fileId with same | same
    · exact (here same).trans (first.accepted fileId)
    · exact (here same).trans (second.accepted fileId)

-- What weathers an end weathers every one in front of it.
theorem Weathers.earlier {stopEnd : Option VLogPosition} (weathers : Weathers acceptedEnd before after)
    (low : ∀ stop ∈ stopEnd, ∃ accepted ∈ acceptedEnd, stop ≤ accepted) : Weathers stopEnd before after := by
  refine ⟨weathers.fronts,fun fileId => ?_⟩
  cases stopEnd with
  | none => rfl
  | some stop =>
    obtain ⟨accepted,rfl,inside⟩ := low stop rfl
    have same := weathers.accepted fileId
    simp only [acceptedContents] at same ⊢
    rw [VLogPosition.le_def] at inside
    by_cases lower : fileId < stop.fileId
    · rw [if_pos (by omega),if_pos (by omega)] at same
      rw [if_pos lower,if_pos lower,same]
    · rw [if_neg lower,if_neg lower]
      by_cases here : fileId = stop.fileId
      · rw [if_pos here,if_pos here]
        by_cases further : fileId < accepted.fileId
        · rw [if_pos further,if_pos further] at same
          rw [same]
        · rw [if_neg further,if_neg further,if_pos (by omega),if_pos (by omega)] at same
          have shorter := congrArg (Option.map (List.take stop.offset)) same
          simpa only [Option.map_map,Function.comp_def,List.take_take,
            Nat.min_eq_left (show stop.offset ≤ accepted.offset by omega)] using shorter
      · rw [if_neg here,if_neg here]

theorem acceptedContents_noSuffix {inventory : ManagedInventory} {files : Directory} (lists : inventory.Lists files)
    (suffix : RecoveryTopology.hasSuffixAfter inventory acceptedEnd = false) (fileId : Nat) :
    files[fileId]? = acceptedContents files acceptedEnd fileId := by
  cases acceptedEnd with
  | none =>
    simp only [RecoveryTopology.hasSuffixAfter,Bool.not_eq_false',List.isEmpty_iff] at suffix
    cases found : files[fileId]? with
    | none => rfl
    | some contents =>
      have member : (⟨fileId,contents.length⟩ : VLogInventoryEntry) ∈ inventory.vlogFiles :=
        lists.mem.mpr ⟨contents,found,rfl⟩
      rw [suffix] at member
      cases member
  | some accepted =>
    have inside := RecoveryTopology.noSuffix_listed.mp suffix
    simp only [acceptedContents]
    cases found : files[fileId]? with
    | none => split <;> first | rfl | (split <;> rfl)
    | some contents =>
      obtain ⟨upper,last⟩ := inside ⟨fileId,contents.length⟩ (lists.mem.mpr ⟨contents,found,rfl⟩)
      simp only at upper last
      by_cases before : fileId < accepted.fileId
      · rw [if_pos before]
      · have here : fileId = accepted.fileId := by omega
        rw [if_neg before,if_pos here,Option.map_some,List.take_of_length_le (last here)]

theorem noSuffix_exact {inventory : ManagedInventory} {files : Directory} (lists : inventory.Lists files)
    (exactly : ∀ fileId : Nat, files[fileId]? = acceptedContents files acceptedEnd fileId) :
    RecoveryTopology.hasSuffixAfter inventory acceptedEnd = false := by
  have held : ∀ entry ∈ inventory.vlogFiles, ∃ contents, contents.length = entry.len ∧
      acceptedContents files acceptedEnd entry.fileId = some contents := by
    intro entry member
    obtain ⟨contents,found,width⟩ := lists.mem.mp member
    exact ⟨contents,width,(exactly entry.fileId).symm.trans found⟩
  cases acceptedEnd with
  | none =>
    simp only [RecoveryTopology.hasSuffixAfter,Bool.not_eq_false',List.isEmpty_iff,List.eq_nil_iff_forall_not_mem]
    intro entry member
    obtain ⟨_,-,none⟩ := held entry member
    cases none
  | some accepted =>
    refine RecoveryTopology.noSuffix_listed.mpr (fun entry member => ?_)
    obtain ⟨contents,width,found⟩ := held entry member
    simp only [acceptedContents] at found
    split at found
    · omega
    · split at found
      · obtain ⟨whole,-,rfl⟩ := Option.map_eq_some_iff.mp found
        rw [List.length_take] at width
        omega
      · cases found

-- Where nothing stood behind the end there is nothing to lose.
theorem Weathers.exact (weathers : Weathers acceptedEnd before after)
    (exactly : ∀ fileId : Nat, before[fileId]? = acceptedContents before acceptedEnd fileId) : after = before := by
  apply Std.ExtTreeMap.ext_getElem?
  intro fileId
  have same : before[fileId]? = acceptedContents after acceptedEnd fileId :=
    (exactly fileId).trans (weathers.accepted fileId).symm
  cases found : after[fileId]? with
  | none =>
    rw [same]
    cases held : acceptedContents after acceptedEnd fileId with
    | none => rfl
    | some contents =>
      obtain ⟨more,there⟩ := acceptedContents_front held
      rw [found] at there
      cases there
  | some contents =>
    obtain ⟨more,there⟩ := weathers.fronts fileId contents found
    obtain ⟨rest,again⟩ := acceptedContents_front (same.symm.trans there)
    rw [found,Option.some.injEq] at again
    have width := congrArg List.length again
    simp only [List.length_append] at width
    obtain rfl := List.eq_nil_of_length_eq_zero (show more.length = 0 by omega)
    rw [there,List.append_nil]

theorem Weathers.reachedEnd (weathers : Weathers acceptedEnd before after) (reached : ReachedEnd before acceptedEnd) :
    ReachedEnd after acceptedEnd := by
  cases acceptedEnd with
  | none => trivial
  | some accepted => exact ⟨reached.1,reached.2.1,reached.2.2.of_accepted weathers.accepted⟩

end fronts

section reading
variable [Crc32c] {accepted : VLogPosition} {acceptedEnd : Option VLogPosition} {files later : FileSet}
  {frontier : DurableFrontier} {format : FormatMetadata} {before after : Directory}

theorem Weathers.inspectable (weathers : Weathers acceptedEnd before after) (inspectable : Inspectable format before) :
    Inspectable format after := inspectable.kept weathers.fronts

omit [Crc32c] in
theorem Weathers.stands (weathers : Weathers acceptedEnd before after) (stands : StandsIn acceptedEnd before) :
    StandsIn acceptedEnd after := stands.of_accepted weathers.accepted

-- What is read up to the accepted end is read again.
theorem Weathers.keeps (weathers : Weathers (some accepted) files.files later.files)
    (stands : StandsIn (some accepted) files.files) (geometry : later.geometry = files.geometry)
    (identity : later.databaseUuid = files.databaseUuid)
    (registered : ∀ fileId, fileId ∈ later.catalog ↔ ∃ contents, later.files[fileId]? = some contents) :
    files.Keeps accepted later := by
  refine ⟨geometry,identity,?_⟩
  rintro chunk inside ⟨contents,opened,taken⟩
  obtain ⟨-,found,valid⟩ := FileSet.handle_ok.mp opened
  have same := weathers.accepted chunk.position.fileId
  have bounds : chunk.position.fileId < accepted.fileId ∨ (chunk.position.fileId = accepted.fileId ∧
      chunk.position.offset + chunk.bytes.length ≤ accepted.offset) := by
    simpa only [VLogPosition.le_def,PhysicalChunk.next] using inside
  rcases bounds with lower | ⟨here,fits⟩
  · simp only [acceptedContents,if_pos lower,found] at same
    refine ⟨contents,FileSet.handle_ok.mpr ⟨(registered _).mpr ⟨_,same⟩,same,?_⟩,taken⟩
    rw [FileSet.validateCandidate_ok] at valid ⊢
    rw [geometry,identity]
    exact valid
  · simp only [acceptedContents,if_neg (show ¬chunk.position.fileId < accepted.fileId by omega),if_pos here,found,
      Option.map_some] at same
    obtain ⟨left,there,cut⟩ := Option.map_eq_some_iff.mp same
    obtain ⟨ends,-,whole,stored,reaches⟩ := stands accepted rfl
    obtain rfl := Option.some.inj (found.symm.trans (by rw [here]; exact stored))
    obtain ⟨more,longer⟩ := weathers.fronts _ _ there
    obtain rfl := Option.some.inj (found.symm.trans longer)
    have room := ends.behind
    have width := congrArg List.length cut
    simp only [List.length_take] at width
    -- In front of the end both files hold the same.
    have reads : ∀ offset len, offset + len ≤ accepted.offset → slice? left offset len = slice? (left ++ more) offset len := by
      intro offset len low
      rw [←slice?_take low (by omega),cut,slice?_take low (by omega)]
    refine ⟨left,FileSet.handle_ok.mpr ⟨(registered _).mpr ⟨_,there⟩,there,?_⟩,by rw [reads _ _ fits]; exact taken⟩
    obtain ⟨sized,encoded,header,rest⟩ := FileSet.validateCandidate_ok.mp valid
    rw [List.length_append] at sized
    refine FileSet.validateCandidate_ok.mpr ⟨by rw [geometry]; omega,encoded,?_,by rw [identity]; exact rest⟩
    rw [reads 16 48 room]
    exact header

end reading

section accepting
variable [Crc32c] {files later : FileSet} {accepted : Accepted} {taken : List TransactionDescriptor}

-- The accepted end never goes back.
theorem AcceptsAll.ends (accepts : AcceptsAll files accepted taken) (geometry : files.geometry = production) :
    ∀ stop ∈ accepted.vlogEnd, ∃ last ∈ (taken.foldl Accepted.take accepted).vlogEnd, stop ≤ last := by
  induction taken generalizing accepted with
  | nil => exact fun stop ends => ⟨stop,ends,VLogPosition.le_refl stop⟩
  | cons first rest ih =>
    intro stop ends
    rw [List.foldl_cons]
    cases kind : first.txMeta.transactionKind with
    | indexOnlyDelete => exact ih accepts.2 stop (by simp only [Accepted.take,kind]; exact ends)
    | vlogEnvelope =>
      obtain ⟨begins,read⟩ := accepts.1 kind
      obtain ⟨before,-⟩ := readAndValidateEnvelope_ok geometry read
      obtain ⟨last,found,behind⟩ := ih accepts.2 first.txMeta.vlogEnd (by simp only [Accepted.take,kind,Option.mem_def])
      rw [begins,show accepted.vlogEnd = some stop from ends] at before
      exact ⟨last,found,VLogPosition.le_trans (VLogPosition.le_of_lt before) behind⟩

theorem readAndValidateEnvelope_kept {descriptor : TransactionDescriptor}
    (keeps : files.Keeps descriptor.txMeta.vlogEnd later) (read : readAndValidateEnvelope files descriptor = .ok ()) :
    readAndValidateEnvelope later descriptor = .ok () := by
  simp only [readAndValidateEnvelope,bind_ok,exists_unit] at read ⊢
  obtain ⟨kind,envelope,read,matched⟩ := read
  exact ⟨kind,envelope,keeps.envelope read,matched⟩

-- What is accepted stays accepted while the files keep what lies in front of its end.
theorem AcceptsAll.kept (accepts : AcceptsAll files accepted taken) (geometry : files.geometry = production)
    (keeps : ∀ stop ∈ (taken.foldl Accepted.take accepted).vlogEnd, files.Keeps stop later) :
    AcceptsAll later accepted taken := by
  induction taken generalizing accepted with
  | nil => trivial
  | cons first rest ih =>
    refine ⟨?_,ih accepts.2 keeps⟩
    intro kind
    obtain ⟨begins,read⟩ := accepts.1 kind
    obtain ⟨last,found,behind⟩ := accepts.2.ends geometry first.txMeta.vlogEnd (by
      simp only [Accepted.take,kind,Option.mem_def])
    exact ⟨begins,readAndValidateEnvelope_kept ((keeps last found).mono behind) read⟩

end accepting

section backing
variable [Crc32c] {files later : FileSet} {frontier : DurableFrontier} {goal : Accepted} {acceptedEnd : Option VLogPosition}
  {descriptors : List TransactionDescriptor}

-- A stable boundary that the files reach is an end to stand at.
theorem StableBoundary.standsIn (boundary : StableBoundary files frontier) (geometry : files.geometry = production)
    (reached : ReachedEnd files.files frontier.durableVlogEnd) : StandsIn frontier.durableVlogEnd files.files := by
  intro accepted ends
  unfold StableBoundary at boundary
  rw [show frontier.durableVlogEnd = some accepted from ends] at boundary reached
  obtain ⟨-,envelope,read,-⟩ := boundary
  obtain ⟨footer,-,read⟩ := readStableEnvelopeFromEnd_footer read
  obtain ⟨chunks,taken,-,scanned⟩ := readRecoveryEnvelope_ok geometry read
  have ended : EndsEnvelope files accepted := ⟨_,chunks,_,_,taken,scanned⟩
  exact ⟨ended.transactionEnd,reached.2.2⟩

-- A file set that weathered up to an end, its files listed anew.
structure FileSet.Weathered (files : FileSet) (acceptedEnd : Option VLogPosition) (later : FileSet) : Prop where
  weathers : Weathers acceptedEnd files.files later.files
  geometry : later.geometry = files.geometry
  identity : later.databaseUuid = files.databaseUuid
  registered : ∀ fileId, fileId ∈ later.catalog ↔ ∃ contents, later.files[fileId]? = some contents

theorem Extends.standsIn (ext : Extends files frontier goal) (geometry : files.geometry = production) :
    StandsIn goal.vlogEnd files.files := ext.boundary.standsIn geometry ext.reached

-- The frontier ends in front of what extends it.
theorem Extends.behind (ext : Extends files frontier goal) :
    ∀ stop ∈ frontier.durableVlogEnd, ∃ accepted ∈ goal.vlogEnd, stop ≤ accepted := by
  intro stop ends
  rcases ext.moved with ⟨-,same⟩ | ⟨-,after⟩
  · exact ⟨stop,same.trans ends,VLogPosition.le_refl stop⟩
  · rw [show frontier.durableVlogEnd = some stop from ends] at after
    cases final : goal.vlogEnd with
    | none =>
      rw [final] at after
      cases after
    | some accepted =>
      rw [final] at after
      exact ⟨accepted,rfl,VLogPosition.le_of_lt (of_decide_eq_true after)⟩

theorem FileSet.Weathered.keeps (weathered : files.Weathered acceptedEnd later) (stands : StandsIn acceptedEnd files.files) :
    ∀ accepted ∈ acceptedEnd, files.Keeps accepted later := by
  rintro accepted rfl
  exact weathered.weathers.keeps stands weathered.geometry weathered.identity weathered.registered

theorem Extends.weathered (ext : Extends files frontier goal) (geometry : files.geometry = production)
    (weathered : files.Weathered goal.vlogEnd later) : Extends later frontier goal :=
  ⟨ext.ordered,ext.moved,ext.matched,weathered.weathers.reachedEnd ext.reached,
    ext.boundary.kept (weathered.keeps (ext.standsIn geometry))⟩

-- Descriptors that bear a target out: the first of them are accepted one after the other, and end there.
structure Backed (files : FileSet) (frontier : DurableFrontier) (goal : Accepted) (descriptors : List TransactionDescriptor) :
    Prop where
  accepts : AcceptsAll files (.start frontier) (descriptors.take (goal.seq - frontier.durableSeq))
  folds : (descriptors.take (goal.seq - frontier.durableSeq)).foldl Accepted.take (.start frontier) = goal
  reaches : Extends files frontier goal

theorem Backed.weathered (backed : Backed files frontier goal descriptors) (geometry : files.geometry = production)
    (weathered : files.Weathered goal.vlogEnd later) : Backed later frontier goal descriptors := by
  refine ⟨backed.accepts.kept geometry ?_,backed.folds,backed.reaches.weathered geometry weathered⟩
  rw [backed.folds]
  exact weathered.keeps (backed.reaches.standsIn geometry)

theorem Backed.boundary (backed : Backed files frontier goal descriptors) (geometry : files.geometry = production)
    (weathered : files.Weathered goal.vlogEnd later) (boundary : StableBoundary files frontier) :
    StableBoundary later frontier := by
  refine boundary.kept (fun stop ends => ?_)
  obtain ⟨accepted,final,inside⟩ := backed.reaches.behind stop ends
  exact (weathered.keeps (backed.reaches.standsIn geometry) accepted final).mono inside

-- The descriptors behind the target have no part in it.
theorem Backed.shortened (backed : Backed files frontier goal descriptors) {count : Nat}
    (low : goal.seq - frontier.durableSeq ≤ count) : Backed files frontier goal (descriptors.take count) := by
  have same : (descriptors.take count).take (goal.seq - frontier.durableSeq) =
      descriptors.take (goal.seq - frontier.durableSeq) := by rw [List.take_take,Nat.min_eq_left low]
  refine ⟨?_,?_,backed.reaches⟩ <;> rw [same]
  · exact backed.accepts
  · exact backed.folds

-- A frontier at the target needs no descriptor.
theorem Backed.arrived (backed : Backed files frontier goal descriptors) :
    Backed files ⟨goal.seq,goal.vlogSeq,goal.vlogEnd⟩ goal [] := by
  obtain ⟨ordered,-,matched,reached,boundary⟩ := backed.reaches
  refine ⟨?_,?_,.start ordered.2 matched reached boundary⟩
  · rw [List.take_nil]
    trivial
  · rw [List.take_nil]
    rfl

end backing

end ExpirKv
