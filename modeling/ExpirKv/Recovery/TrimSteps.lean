import ExpirKv.Recovery.ExecuteFacts
import ExpirKv.Recovery.TopologyFacts

namespace ExpirKv
open VLogGeometry Storage

-- What a call leaves that touches no file.
structure Still (before after : Storage) : Prop where
  vlog : after.vlog = before.vlog
  index : after.index = before.index
  answered : before.script = [] → after.script = []

-- What a call leaves that touches no more than files and catalog.
structure Framed (before after : Storage) : Prop where
  index : after.index = before.index
  databaseUuid : after.vlog.databaseUuid = before.vlog.databaseUuid
  geometry : after.vlog.geometry = before.vlog.geometry
  answered : before.script = [] → after.script = []

section rules
variable {storage middle after : Storage} {ε δ α β : Type}

theorem Framed.refl (storage : Storage) : Framed storage storage := ⟨rfl,rfl,rfl,id⟩

theorem Framed.trans (first : Framed storage middle) (rest : Framed middle after) : Framed storage after :=
  ⟨rest.index.trans first.index,rest.databaseUuid.trans first.databaseUuid,rest.geometry.trans first.geometry,
    fun answered => rest.answered (first.answered answered)⟩

theorem Still.refl (storage : Storage) : Still storage storage := ⟨rfl,rfl,id⟩

theorem Still.trans (first : Still storage middle) (rest : Still middle after) : Still storage after :=
  ⟨rest.vlog.trans first.vlog,rest.index.trans first.index,fun answered => rest.answered (first.answered answered)⟩

theorem Still.framed (still : Still storage after) : Framed storage after :=
  ⟨still.index,by rw [still.vlog],by rw [still.vlog],still.answered⟩

-- A call that returns a value and touches nothing. It fails only on an answer of the environment.
def Harmless (x : Eff Storage ε α) (storage : Storage) (value : α → Prop) : Prop :=
  Delivers x storage (fun found after => value found ∧ Still storage after)
    (fun _ after => storage.script ≠ [] ∧ Still storage after)

theorem Harmless.mapError {x : Eff Storage ε α} {value : α → Prop} {context : ε → δ} (harmless : Harmless x storage value) :
    Harmless (x.mapError context) storage value := delivers_mapError.mpr harmless

-- One such call in a row of them, seen from where the row began.
theorem Harmless.bind {x : Eff Storage ε α} {value : α → Prop} {next : α → Eff Storage ε β} {reached : Storage}
    {post : β → Storage → Prop} {fail : ε → Storage → Prop} (harmless : Harmless x reached value)
    (before : Still storage reached)
    (rest : ∀ found later, value found → Still storage later → Delivers (next found) later post fail)
    (bad : ∀ error later, storage.script ≠ [] → Still storage later → fail error later) :
    Delivers (x >>= next) reached post fail := by
  have first : Delivers x reached (fun found after => value found ∧ Still reached after)
      (fun _ after => reached.script ≠ [] ∧ Still reached after) := harmless
  refine first.bind ?_ ?_
  · intro found later kept
    exact rest found later kept.1 (before.trans kept.2)
  · intro error later stopped
    exact bad error later (fun none => stopped.1 (before.answered none)) (before.trans stopped.2)

theorem performed {change : Storage → Storage} :
    Delivers (perform change) storage
      (fun _ after => ∃ script, (storage.script = [] → script = []) ∧ after = change {storage with script})
      (fun _ after => storage.script ≠ [] ∧ ∃ script, after = {storage with script}) := by
  rw [perform,delivers_bind,delivers_tick]
  have shorter : storage.script = [] → storage.script.tail = [] := fun none => by rw [none]; rfl
  split
  · rename_i error failed
    refine ⟨?_,_,rfl⟩
    intro none
    rw [none] at failed
    cases failed
  · exact ⟨_,shorter,rfl⟩

theorem perform_harmless {change : Storage → Storage} (vlog : ∀ storage, (change storage).vlog = storage.vlog)
    (index : ∀ storage, (change storage).index = storage.index)
    (script : ∀ storage, (change storage).script = storage.script) :
    Harmless (perform change) storage (fun _ => True) := by
  refine performed.mono ?_ ?_
  · intro _ after kept
    obtain ⟨left,shorter,rfl⟩ := kept
    exact ⟨trivial,vlog _,index _,fun none => (script _).trans (shorter none)⟩
  · intro _ after stopped
    obtain ⟨some,left,rfl⟩ := stopped
    exact ⟨some,rfl,rfl,fun none => absurd none some⟩

theorem openWritable_harmless {fileId : Nat} {contents : Bytes} (found : storage.vlog.files[fileId]? = some contents) :
    Harmless (openWritable fileId) storage (fun _ => True) := by
  have present : ¬storage.vlog.files.contains fileId = false := by
    rw [Std.ExtTreeMap.contains_eq_isSome_getElem?,found]
    simp
  refine delivers_bind.mpr (delivers_get.mpr ?_)
  rw [if_neg present]
  exact perform_harmless (fun _ => rfl) (fun _ => rfl) (fun _ => rfl)

theorem verify_harmless {fileId : Nat} (listed : fileId ∈ storage.vlog.catalog) :
    Harmless (verify fileId) storage (fun _ => True) := by
  refine delivers_bind.mpr (delivers_get.mpr ?_)
  rw [if_neg (fun absent => absent listed)]
  exact (perform_harmless (fun _ => rfl) (fun _ => rfl) (fun _ => rfl)).mapError

theorem fileLen_harmless {fileId : Nat} {contents : Bytes} (found : storage.vlog.files[fileId]? = some contents) :
    Harmless (fileLen fileId) storage (fun len => len = contents.length) := by
  refine (perform_harmless (fun _ => rfl) (fun _ => rfl) (fun _ => rfl)).bind (.refl storage) ?_
    (fun _ _ some still => ⟨some,still⟩)
  intro _ reached _ still
  refine delivers_bind.mpr (delivers_get.mpr ⟨?_,still⟩)
  rw [Storage.contents,still.vlog,found]
  rfl

theorem syncFile_harmless (fileId : Nat) : Harmless (syncFile fileId) storage (fun _ => True) :=
  perform_harmless (fun _ => rfl) (fun _ => rfl) (fun _ => rfl)

theorem syncDirectory_harmless : Harmless syncDirectory storage (fun _ => True) :=
  perform_harmless (fun _ => rfl) (fun _ => rfl) (fun _ => rfl)

theorem reading_harmless (answer : Storage → α) (same : ∀ script, answer {storage with script} = answer storage) :
    Harmless (reading answer) storage (fun found => found = answer storage) := by
  refine delivers_bind.mpr (delivers_tick.mpr ?_)
  have shorter : storage.script = [] → storage.script.tail = [] := fun none => by rw [none]; rfl
  split
  · rename_i error failed
    refine ⟨?_,rfl,rfl,shorter⟩
    intro none
    rw [none] at failed
    cases failed
  · exact ⟨same _,rfl,rfl,shorter⟩

theorem harmless_forM {items : List α} {act : α → Eff Storage ε PUnit}
    (turn : ∀ item ∈ items, ∀ reached, Still storage reached → Harmless (act item) reached (fun _ => True)) :
    Harmless (items.forM act) storage (fun _ => True) := by
  have looped : Delivers (items.forM act) storage (fun _ after => Still storage after)
      (fun _ after => storage.script ≠ [] ∧ Still storage after) := by
    refine Delivers.forM ?_ (.refl storage)
    intro item member reached still
    refine (turn item member reached still).mono ?_ ?_
    · exact fun _ _ kept => still.trans kept.2
    · exact fun _ _ stopped => ⟨fun none => stopped.1 (still.answered none),still.trans stopped.2⟩
  exact looped.mono (fun _ _ still => ⟨trivial,still⟩) (fun _ _ stopped => stopped)

end rules

section files
variable {storage after : Storage} {contents : Bytes}

theorem truncateFile_delivers {fileId len : Nat} (found : storage.vlog.files[fileId]? = some contents)
    (reaches : len ≤ contents.length) :
    Delivers (truncateFile fileId len) storage
      (fun _ after => Framed storage after ∧ after.vlog.catalog = storage.vlog.catalog ∧
        after.vlog.files = storage.vlog.files.insert fileId (contents.take len))
      (fun _ after => storage.script ≠ [] ∧ Still storage after) := by
  refine performed.mono ?_ ?_
  · intro _ after kept
    obtain ⟨script,shorter,rfl⟩ := kept
    refine ⟨⟨rfl,rfl,rfl,shorter⟩,rfl,?_⟩
    have held : ({storage with script} : Storage).contents fileId = contents := by
      rw [Storage.contents,found]
      rfl
    simp only [Storage.record,Storage.setFile,held,Nat.sub_eq_zero_of_le reaches,List.replicate_zero,List.append_nil]
  · intro _ after stopped
    obtain ⟨some,script,rfl⟩ := stopped
    exact ⟨some,rfl,rfl,fun none => absurd none some⟩

theorem removeFile_delivers {fileId : Nat} (found : storage.vlog.files[fileId]? = some contents) :
    Delivers (removeFile fileId) storage
      (fun _ after => Framed storage after ∧ after.vlog.catalog = storage.vlog.catalog ∧
        after.vlog.files = storage.vlog.files.erase fileId)
      (fun _ after => storage.script ≠ [] ∧ Still storage after) := by
  have present : ¬storage.vlog.files.contains fileId = false := by
    rw [Std.ExtTreeMap.contains_eq_isSome_getElem?,found]
    simp
  refine delivers_bind.mpr (delivers_get.mpr ?_)
  rw [if_neg present]
  refine performed.mono ?_ ?_
  · intro _ after kept
    obtain ⟨script,shorter,rfl⟩ := kept
    exact ⟨⟨rfl,rfl,rfl,shorter⟩,rfl,rfl⟩
  · intro _ after stopped
    obtain ⟨some,script,rfl⟩ := stopped
    exact ⟨some,rfl,rfl,fun none => absurd none some⟩

-- The file of the accepted end, cut or not yet; no other file and no catalog entry moves.
theorem cutFile_delivers {position : VLogPosition} (found : storage.vlog.files[position.fileId]? = some contents)
    (listed : position.fileId ∈ storage.vlog.catalog) (reaches : position.offset ≤ contents.length) :
    Delivers (ValueLogRecovery.cutFile position) storage
      (fun _ after => Framed storage after ∧ after.vlog.catalog = storage.vlog.catalog ∧
        after.vlog.files = storage.vlog.files.insert position.fileId (contents.take position.offset))
      (fun _ after => storage.script ≠ [] ∧ Framed storage after ∧ after.vlog.catalog = storage.vlog.catalog ∧
        (after.vlog.files = storage.vlog.files ∨
          after.vlog.files = storage.vlog.files.insert position.fileId (contents.take position.offset))) := by
  have stopped : ∀ last : Storage, storage.script ≠ [] → Still storage last →
      storage.script ≠ [] ∧ Framed storage last ∧ last.vlog.catalog = storage.vlog.catalog ∧
        (last.vlog.files = storage.vlog.files ∨
          last.vlog.files = storage.vlog.files.insert position.fileId (contents.take position.offset)) :=
    fun last some still => ⟨some,still.framed,by rw [still.vlog],.inl (by rw [still.vlog])⟩
  have synced : ∀ {reached : Storage}, Framed storage reached → reached.vlog.catalog = storage.vlog.catalog →
      reached.vlog.files = storage.vlog.files.insert position.fileId (contents.take position.offset) →
      Delivers ((syncFile position.fileId).mapError (recoveryVlogIo position.fileId (some position.offset))) reached
        (fun _ after => Framed storage after ∧ after.vlog.catalog = storage.vlog.catalog ∧
          after.vlog.files = storage.vlog.files.insert position.fileId (contents.take position.offset))
        (fun _ after => storage.script ≠ [] ∧ Framed storage after ∧ after.vlog.catalog = storage.vlog.catalog ∧
          (after.vlog.files = storage.vlog.files ∨
            after.vlog.files = storage.vlog.files.insert position.fileId (contents.take position.offset))) := by
    intro reached framed catalog files
    refine Delivers.mono (syncFile_harmless position.fileId).mapError ?_ ?_
    · intro _ last kept
      obtain ⟨-,still⟩ := kept
      exact ⟨framed.trans still.framed,by rw [still.vlog,catalog],by rw [still.vlog,files]⟩
    · intro _ last failed
      obtain ⟨some,still⟩ := failed
      exact ⟨fun none => some (framed.answered none),framed.trans still.framed,by rw [still.vlog,catalog],
        .inr (by rw [still.vlog,files])⟩
  unfold ValueLogRecovery.cutFile
  refine (openWritable_harmless found).mapError.bind (.refl storage) ?_ (fun _ last => stopped last)
  intro _ opened _ still
  refine (verify_harmless (by rw [still.vlog]; exact listed)).mapError.bind still ?_ (fun _ last => stopped last)
  intro _ verified _ still
  refine (fileLen_harmless (by rw [still.vlog]; exact found)).mapError.bind still ?_ (fun _ last => stopped last)
  intro len measured same still
  subst same
  rw [rejectIf_false (by omega)]
  refine delivers_bind.mpr (delivers_lift.mpr ⟨fun _ _ => ?_,fun _ no => by cases no⟩)
  by_cases longer : contents.length ≠ position.offset
  · rw [if_pos longer]
    have cut := truncateFile_delivers (by rw [still.vlog]; exact found) reaches
    refine delivers_bind.mpr (delivers_mapError.mpr (cut.mono ?_ ?_))
    · intro _ reached kept
      obtain ⟨framed,catalog,files⟩ := kept
      exact synced (still.framed.trans framed) (by rw [catalog,still.vlog]) (by rw [files,still.vlog])
    · intro _ reached failed
      exact stopped reached (fun none => failed.1 (still.answered none)) (still.trans failed.2)
  · -- Nothing to cut off.
    rw [if_neg longer]
    have whole : contents.take position.offset = contents := List.take_of_length_le (by omega)
    refine synced still.framed (by rw [still.vlog]) ?_
    rw [still.vlog,whole]
    refine Std.ExtTreeMap.ext_getElem? ?_
    intro fileId
    rw [Std.ExtTreeMap.getElem?_insert]
    split
    · rename_i here
      rw [←Std.LawfulEqCmp.eq_of_compare here,found]
    · rfl

theorem removeSuffixFile_delivers {fileId : Nat} (found : storage.vlog.files[fileId]? = some contents) :
    Delivers (ValueLogRecovery.removeSuffixFile fileId) storage
      (fun _ after => Framed storage after ∧ after.vlog.catalog = storage.vlog.catalog.erase fileId ∧
        after.vlog.files = storage.vlog.files.erase fileId)
      (fun _ after => storage.script ≠ [] ∧ Still storage after) := by
  refine delivers_bind.mpr (delivers_mapError.mpr ((removeFile_delivers found).mono ?_ (fun _ _ failed => failed)))
  intro _ removed kept
  obtain ⟨framed,catalog,files⟩ := kept
  refine delivers_mapError.mpr ((delivers_modify _).mpr ⟨⟨framed.index,framed.databaseUuid,framed.geometry,
    framed.answered⟩,?_,files⟩)
  simp only [catalog]

-- The loop over the files behind the accepted one.
theorem removeSuffixFiles_delivers {fileIds : List Nat} (distinct : fileIds.Nodup)
    (present : ∀ fileId ∈ fileIds, ∃ contents, storage.vlog.files[fileId]? = some contents) :
    Delivers (fileIds.forM ValueLogRecovery.removeSuffixFile) storage
      (fun _ after => Framed storage after ∧
        (∀ fileId : Nat, after.vlog.files[fileId]? = if fileId ∈ fileIds then none else storage.vlog.files[fileId]?) ∧
        ∀ fileId, fileId ∈ after.vlog.catalog ↔ fileId ∈ storage.vlog.catalog ∧ fileId ∉ fileIds)
      (fun _ after => storage.script ≠ [] ∧ Framed storage after ∧ ∀ fileId : Nat,
        after.vlog.files[fileId]? = storage.vlog.files[fileId]? ∨
          (fileId ∈ fileIds ∧ after.vlog.files[fileId]? = none)) := by
  induction fileIds generalizing storage with
  | nil =>
    refine ⟨.refl storage,?_,?_⟩
    · intro fileId
      rw [if_neg (by simp)]
    · intro fileId
      simp
  | cons first rest ih =>
    obtain ⟨apart,distinct⟩ := List.nodup_cons.mp distinct
    obtain ⟨contents,found⟩ := present first List.mem_cons_self
    change Delivers (ValueLogRecovery.removeSuffixFile first >>= fun _ =>
      rest.forM ValueLogRecovery.removeSuffixFile) storage _ _
    refine (removeSuffixFile_delivers found).bind ?_ ?_
    · intro _ removed kept
      obtain ⟨framed,catalog,files⟩ := kept
      have erased : ∀ fileId : Nat,
          removed.vlog.files[fileId]? = if fileId = first then none else storage.vlog.files[fileId]? := by
        intro fileId
        rw [files,Std.ExtTreeMap.getElem?_erase]
        simp only [Std.LawfulEqCmp.compare_eq_iff_eq,@eq_comm _ first fileId]
      have others : ∀ fileId ∈ rest, ∃ contents, removed.vlog.files[fileId]? = some contents := by
        intro fileId member
        have differs : fileId ≠ first := by
          intro same
          exact apart (same ▸ member)
        rw [erased,if_neg differs]
        exact present fileId (List.mem_cons_of_mem _ member)
      refine (ih distinct others).mono ?_ ?_
      · intro _ after kept
        obtain ⟨later,left,listed⟩ := kept
        refine ⟨framed.trans later,?_,?_⟩
        · intro fileId
          rw [left,erased]
          simp only [List.mem_cons]
          by_cases same : fileId = first
          · simp [same]
          · simp [same]
        · intro fileId
          rw [listed,catalog,Std.ExtTreeSet.mem_erase,ne_eq,Std.LawfulEqCmp.compare_eq_iff_eq,List.mem_cons,not_or]
          constructor
          · intro both
            exact ⟨both.1.2,fun same => both.1.1 same.symm,both.2⟩
          · intro both
            exact ⟨⟨fun same => both.2.1 same.symm,both.1⟩,both.2.2⟩
      · intro _ after failed
        obtain ⟨some,later,left⟩ := failed
        refine ⟨fun none => some (framed.answered none),framed.trans later,?_⟩
        intro fileId
        by_cases same : fileId = first
        · refine .inr ⟨List.mem_cons.mpr (.inl same),?_⟩
          rcases left fileId with kept | gone
          · rw [kept,erased,if_pos same]
          · exact gone.2
        · rcases left fileId with kept | gone
          · exact .inl (by rw [kept,erased,if_neg same])
          · exact .inr ⟨List.mem_cons_of_mem _ gone.1,gone.2⟩
    · intro _ after failed
      obtain ⟨some,still⟩ := failed
      exact ⟨some,still.framed,fun fileId => .inl (by rw [still.vlog])⟩

end files

-- What the accepted end leaves of a directory.
def acceptedContents (files : Directory) (acceptedEnd : Option VLogPosition) (fileId : Nat) : Option Bytes :=
  match acceptedEnd with
  | none => none
  | some accepted =>
    if fileId < accepted.fileId then files[fileId]?
    else if fileId = accepted.fileId then files[fileId]?.map (fun contents => contents.take accepted.offset)
    else none

-- A directory on the way there: every file as it was or as it is going to be.
def Between (acceptedEnd : Option VLogPosition) (before after : Directory) : Prop :=
  ∀ fileId : Nat, after[fileId]? = before[fileId]? ∨ after[fileId]? = acceptedContents before acceptedEnd fileId

section between
variable {acceptedEnd : Option VLogPosition} {before middle after : Directory} {fileId : Nat}

-- A file that is already cut is cut to the same bytes again.
theorem Between.accepted (between : Between acceptedEnd before after) (fileId : Nat) :
    acceptedContents after acceptedEnd fileId = acceptedContents before acceptedEnd fileId := by
  cases acceptedEnd with
  | none => rfl
  | some accepted =>
    have here := between fileId
    simp only [acceptedContents] at here ⊢
    by_cases lower : fileId < accepted.fileId
    · simp only [if_pos lower,or_self] at here ⊢
      exact here
    · simp only [if_neg lower] at here ⊢
      by_cases last : fileId = accepted.fileId
      · simp only [if_pos last] at here ⊢
        rcases here with kept | cut
        · rw [kept]
        · rw [cut]
          cases before[fileId]? with
          | none => rfl
          | some contents => simp [List.take_take]
      · simp only [if_neg last]

theorem Between.trans (first : Between acceptedEnd before middle) (rest : Between acceptedEnd middle after) :
    Between acceptedEnd before after := by
  intro fileId
  rcases rest fileId with kept | cut
  · rw [kept]
    exact first fileId
  · exact .inr (by rw [cut,first.accepted])

theorem Between.refl (files : Directory) : Between acceptedEnd files files := fun _ => .inl rfl

end between

end ExpirKv
