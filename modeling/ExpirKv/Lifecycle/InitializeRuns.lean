import ExpirKv.Lifecycle.Attempts

namespace ExpirKv
open RootLock

section attempt
variable [Crc32c] {fjall : Fjall} {fine : Prop} {disk : Disk} {format temporary index vlog : Option Node}

-- A root between two attempts: the lock file may still be missing, and so may the root.
structure Found (disk : Disk) (format temporary index vlog : Option Node) : Prop where
  absent : disk.present = false → ∀ name, disk.root name = none
  lock : disk.root lockFileName = none ∨ ∃ contents, disk.root lockFileName = some (.file contents)
  format : disk.root formatFileName = format
  temporary : disk.root formatTempFileName = temporary
  index : disk.root indexDirectoryName = index
  vlog : disk.root vlogDirectoryName = vlog

def Held (fjall : Fjall) (disk : Disk) : Prop :=
  ∃ format temporary index vlog, Found disk format temporary index vlog ∧ Layout fjall format temporary index vlog

theorem Kept.held (kept : Kept fjall disk) : Held fjall disk := by
  obtain ⟨format,temporary,index,vlog,stands,layout⟩ := kept
  refine ⟨_,_,_,_,⟨?_,.inr stands.lock,stands.format,stands.temporary,stands.index,stands.vlog⟩,layout⟩
  intro absent
  rw [stands.present] at absent
  cases absent

omit [Crc32c] in
theorem Found.answered (found : Found disk format temporary index vlog) (calls : Calls) :
    Found {disk with calls} format temporary index vlog :=
  ⟨found.absent,found.lock,found.format,found.temporary,found.index,found.vlog⟩

theorem Found.cutShort (found : Found disk format temporary index vlog) (layout : Layout fjall format temporary index vlog)
    (quiet : fine → disk.calls.script = []) (failed : disk.calls.script ≠ []) (calls : Calls) :
    Held fjall {disk with calls} ∧ ¬fine :=
  ⟨⟨_,_,_,_,found.answered calls,layout⟩,fun still => failed (quiet still)⟩

theorem openAndLockFile_delivers {post : Unit → Disk → Prop} (found : Found disk format temporary index vlog)
    (layout : Layout fjall format temporary index vlog) (quiet : fine → disk.calls.script = [])
    (present : disk.present = true)
    (next : ∀ after, Stands fine after format temporary index vlog → post () after) :
    Delivers openAndLockFile disk post (fun _ after => Held fjall after ∧ ¬fine) := by
  have finish : ∀ reached, Stands fine reached format temporary index vlog →
      Delivers request reached post (fun _ after => Held fjall after ∧ ¬fine) := by
    intro reached stands
    refine (stands.request layout next).mono (fun _ _ good => good) ?_
    rintro _ after ⟨kept,unfine⟩
    exact ⟨kept.held,unfine⟩
  rw [openAndLockFile,delivers_bind]
  refine delivers_request ?_ (fun _ calls _ failed => found.cutShort layout quiet failed calls)
  intro calls steady
  rw [delivers_bind,delivers_get]
  rcases found.lock with none | ⟨contents,file⟩
  · rw [none]
    simp only [delivers_bind]
    refine delivers_performed ?_ ?_
    · intro calls later
      refine finish _ ⟨present,⟨[],?_⟩,?_,?_,?_,?_,?_⟩
      · rw [Disk.set_root,if_pos rfl]
      · rw [Disk.set_root]; exact found.format
      · rw [Disk.set_root]; exact found.temporary
      · rw [Disk.set_root]; exact found.index
      · rw [Disk.set_root]; exact found.vlog
      · exact fun still => later.fine (steady.fine (quiet still))
    · intro _ calls _ failed
      exact ⟨⟨_,_,_,_,found.answered calls,layout⟩,fun still => failed (steady.fine (quiet still))⟩
  · rw [file]
    simp only [delivers_bind]
    refine delivers_request ?_ ?_
    · intro calls later
      exact finish _ ⟨present,⟨contents,file⟩,found.format,found.temporary,found.index,found.vlog,
        fun still => later.fine (steady.fine (quiet still))⟩
    · intro _ calls _ failed
      exact ⟨⟨_,_,_,_,found.answered calls,layout⟩,fun still => failed (steady.fine (quiet still))⟩

theorem acquire_delivers {post : Bool → Disk → Prop} (found : Found disk format temporary index vlog)
    (layout : Layout fjall format temporary index vlog) (quiet : fine → disk.calls.script = [])
    (next : ∀ after, Stands fine after format temporary index vlog → post true after) :
    Delivers (acquire true) disk post (fun _ after => Held fjall after ∧ ¬fine) := by
  -- The root is there from here on.
  have locking : ∀ reached : Disk, reached.present = true → Found reached format temporary index vlog →
      (fine → reached.calls.script = []) →
      Delivers (do
        request
        openAndLockFile
        return true) reached post (fun _ after => Held fjall after ∧ ¬fine) := by
    intro reached present found quiet
    rw [delivers_bind]
    refine delivers_request ?_ (fun _ calls _ failed => found.cutShort layout quiet failed calls)
    intro calls steady
    rw [delivers_bind]
    refine openAndLockFile_delivers (found.answered calls) layout (fun still => steady.fine (quiet still)) present ?_
    intro after stands
    exact next after stands
  rw [acquire,delivers_bind]
  refine delivers_request ?_ (fun _ calls _ failed => found.cutShort layout quiet failed calls)
  intro calls steady
  have still : fine → calls.script = [] := fun holds => steady.fine (quiet holds)
  rw [delivers_bind,delivers_get]
  simp only [Bool.true_eq_false,and_false,if_false]
  rw [delivers_bind,delivers_get]
  cases present : disk.present with
  | true =>
    simp only [Bool.true_eq_false,if_false]
    exact locking _ rfl (by rw [←present]; exact found.answered calls) still
  | false =>
    simp only [if_true,delivers_bind]
    refine delivers_performed ?_ ?_
    · intro calls later
      have made := locking ⟨true,disk.root,calls⟩ rfl
        ⟨fun no => (by cases no),found.lock,found.format,found.temporary,found.index,found.vlog⟩
        (fun holds => later.fine (still holds))
      simpa only [delivers_bind] using made
    · intro _ calls _ failed
      refine ⟨⟨_,_,_,_,?_,layout⟩,fun holds => failed (still holds)⟩
      rw [←present]
      exact found.answered calls

-- What the next attempt can go on from: no FORMAT.tmp, or a whole one beside no index, an empty one or one
-- that opens as the leftover of an initialization.
def Resumable (fjall : Fjall) (disk : Disk) : Prop :=
  ∀ bytes, disk.root formatTempFileName = some (.file bytes) →
    ∃ metadata, FormatMetadata.decode bytes = .ok metadata ∧ Takes fjall metadata (disk.root indexDirectoryName)

omit [Crc32c] in
theorem decode_short {bytes : Bytes} {metadata : FormatMetadata} (short : bytes.length < 36) :
    FormatMetadata.decode bytes ≠ .ok metadata := by
  intro read
  simp only [FormatMetadata.decode,formatEncodedLen,bind_ok,exists_unit,rejectIf_ok,not_not,ne_eq] at read
  omega

theorem prepareOpen_delivers {drawn : List (Except IoError Uuid)} (sound : fjall.Sound) (held : Held fjall disk) :
    Delivers (prepareOpen fjall ⟨true,false⟩ drawn) disk
      (fun prepared after => Prepared fjall prepared after ∧ Resumable fjall disk)
      (fun _ after => Held fjall after ∧
        ¬(disk.calls.script = [] ∧ (∃ uuid, generateDatabaseUuid drawn = .ok uuid) ∧ Resumable fjall disk)) := by
  obtain ⟨format,temporary,index,vlog,found,layout⟩ := held
  generalize sure : (disk.calls.script = [] ∧ (∃ uuid, generateDatabaseUuid drawn = .ok uuid) ∧ Resumable fjall disk) = fine
  have quiet : fine → disk.calls.script = [] := by
    rw [←sure]
    exact fun holds => holds.1
  have draws : fine → ∃ uuid, generateDatabaseUuid drawn = .ok uuid := by
    rw [←sure]
    exact fun holds => holds.2.1
  have goes : fine → Resumable fjall disk := by
    rw [←sure]
    exact fun holds => holds.2.2
  have relax : ∀ {α : Type} {x : Eff Disk StorageError α} {reached : Disk} {post wider : α → Disk → Prop},
      Delivers x reached post (fun _ after => CutShort fjall fine after) →
      (∀ value next, post value next → wider value next) →
      Delivers x reached wider (fun _ after => Held fjall after ∧ ¬fine) := by
    intro α x reached post wider delivers good
    refine delivers.mono good ?_
    rintro _ after ⟨kept,unfine⟩
    exact ⟨kept.held,unfine⟩
  rw [prepareOpen,delivers_bind]
  refine acquire_delivers found layout quiet ?_
  intro _ stands
  simp only [Bool.true_eq_false,if_false]
  refine relax ?_ (fun _ _ good => good)
  rw [delivers_bind]
  refine stands.inspect layout (fun _ stands => stands.format) ?_
  intro _ stands
  rw [delivers_bind]
  refine stands.inspect layout (fun _ stands => stands.temporary) ?_
  intro _ stands
  cases layout with
  | bare =>
    have resumes : Resumable fjall disk := by
      intro bytes there
      rw [found.temporary] at there
      cases there
    simp only [classify,ne_eq,not_true_eq_false,and_self,if_false]
    rw [delivers_bind]
    refine stands.absentFormat .bare rfl ?_
    intro _ stands
    rw [delivers_bind]
    refine stands.absentFormat .bare rfl ?_
    intro _ stands
    simp only
    rw [delivers_bind]
    refine stands.inspect .bare (fun _ stands => stands.index) ?_
    intro _ stands
    simp only [classify,not_true_eq_false,if_false]
    rw [delivers_bind]
    refine stands.inspect .bare (fun _ stands => stands.vlog) ?_
    intro _ stands
    simp only [classify,not_true_eq_false,if_false]
    exact (initializeDatabase_delivers sound draws stands).mono (fun _ _ done => ⟨done,resumes⟩) (fun _ _ bad => bad)
  | @torn metadata encoded count written short =>
    have layout : Layout fjall none (some (.file (encoded.take count))) none none := .torn written short
    have less : (encoded.take count).length < 36 := by
      rw [List.length_take]
      omega
    simp only [classify,ne_eq,not_true_eq_false,false_and,if_false]
    rw [delivers_bind]
    refine stands.absentFormat layout rfl ?_
    intro _ stands
    rw [delivers_bind,readFormat,delivers_bind]
    refine stands.request layout ?_
    intro after stands
    simp only [if_true]
    rw [delivers_bind,delivers_get,stands.temporary]
    simp only [delivers_bind,delivers_lift]
    refine ⟨?_,?_⟩
    · intro _ whole
      rw [rejectIf_ok,not_not] at whole
      exact absurd whole (Nat.ne_of_lt less)
    · intro _ _
      refine ⟨⟨_,_,_,_,stands.weaken,layout⟩,?_⟩
      intro still
      obtain ⟨metadata,read,-⟩ := goes still _ found.temporary
      exact decode_short less read
  | @begun metadata encoded index vlog written left bare =>
    have layout : Layout fjall none (some (.file encoded)) index vlog := .begun written left bare
    have read := (FormatMetadata.decode_encode written).1
    have taken : fine → Takes fjall metadata index := by
      intro still
      obtain ⟨other,found',takes⟩ := goes still _ found.temporary
      rw [read] at found'
      rw [←Except.ok.inj found',found.index] at takes
      exact takes
    simp only [classify,ne_eq,not_true_eq_false,false_and,if_false]
    rw [delivers_bind]
    refine stands.absentFormat layout rfl ?_
    intro _ stands
    rw [delivers_bind]
    refine stands.wholeFormat layout written rfl ?_
    intro _ stands
    simp only
    rw [delivers_bind]
    refine validateInterruptedInitialization_delivers sound written left bare stands taken ?_
    intro _ remains takes left stands
    have resumes : Resumable fjall disk := by
      intro bytes there
      rw [found.temporary] at there
      cases there
      exact ⟨metadata,read,by rw [found.index]; exact takes⟩
    rw [delivers_bind]
    refine cleanupInterruptedInitialization_delivers written left bare stands ?_
    intro _ stands
    exact (initializeDatabase_delivers sound draws stands).mono (fun _ _ done => ⟨done,resumes⟩) (fun _ _ bad => bad)
  | @published uuid encoded entries present written opens =>
    have layout : Layout fjall (some (.file encoded)) none (some (.directory entries)) (some (.directory [])) :=
      .published present written opens
    have resumes : Resumable fjall disk := by
      intro bytes there
      rw [found.temporary] at there
      cases there
    simp only [classify,ne_eq,not_true_eq_false,and_false,if_false]
    rw [delivers_bind]
    refine stands.wholeFormat layout written rfl ?_
    intro _ stands
    rw [delivers_bind]
    refine stands.absentFormat layout rfl ?_
    intro _ stands
    exact (prepareExisting_delivers sound present written opens stands).mono (fun _ _ done => ⟨done,resumes⟩)
      (fun _ _ bad => bad)

end attempt

section runs
variable [Crc32c] {fjall : Fjall} {start disk : Disk}

-- A root that holds none of the managed entries, or that is not there at all.
structure FreshRoot (disk : Disk) : Prop where
  absent : disk.present = false → ∀ name, disk.root name = none
  lock : disk.root lockFileName = none ∨ ∃ contents, disk.root lockFileName = some (.file contents)
  bare : ∀ name ∈ [formatFileName,formatTempFileName,indexDirectoryName,vlogDirectoryName], disk.root name = none

-- Attempts one after the other, each with its own calls and draws, cut at any of them or finished.
inductive Attempted (fjall : Fjall) (start : Disk) : Disk → Prop
  | start : Attempted fjall start start
  | cut {disk after : Disk} {drawn : List (Except IoError Uuid)} {calls : Calls} {error : StorageError} :
      Attempted fjall start disk → prepareOpen fjall ⟨true,false⟩ drawn {disk with calls} = .error error after →
      Attempted fjall start after
  | finished {disk after : Disk} {drawn : List (Except IoError Uuid)} {calls : Calls} {prepared : OpenPreparation} :
      Attempted fjall start disk → prepareOpen fjall ⟨true,false⟩ drawn {disk with calls} = .ok prepared after →
      Attempted fjall start after

theorem Held.recalled (held : Held fjall disk) (calls : Calls) : Held fjall {disk with calls} := by
  obtain ⟨format,temporary,index,vlog,found,layout⟩ := held
  exact ⟨_,_,_,_,found.answered calls,layout⟩

theorem Attempted.held (sound : fjall.Sound) (fresh : FreshRoot start) (attempts : Attempted fjall start disk) :
    Held fjall disk := by
  induction attempts with
  | start =>
    refine ⟨none,none,none,none,⟨fresh.absent,fresh.lock,?_,?_,?_,?_⟩,.bare⟩
    all_goals exact fresh.bare _ (by simp)
  | cut _ ran ih => exact ((prepareOpen_delivers sound (ih.recalled _)).of_error ran).1
  | finished _ ran ih => exact ((prepareOpen_delivers sound (ih.recalled _)).of_ok ran).1.2.held

-- Where nothing can be resumed, an attempt was cut inside the marker's bytes or inside the index tree.
theorem Held.stuck (held : Held fjall disk) (stuck : ¬Resumable fjall disk) :
    (∃ bytes, disk.root formatTempFileName = some (.file bytes) ∧ bytes.length < 36) ∨
      ∃ entries, disk.root indexDirectoryName = some (.directory entries) ∧ Partway fjall entries := by
  obtain ⟨format,temporary,index,vlog,found,layout⟩ := held
  have unmarked : disk.root formatTempFileName = none → False := by
    intro none
    refine stuck ?_
    intro bytes there
    rw [none] at there
    cases there
  cases layout with
  | bare => exact (unmarked found.temporary).elim
  | published => exact (unmarked found.temporary).elim
  | @torn metadata encoded count written short =>
    refine .inl ⟨_,found.temporary,?_⟩
    rw [List.length_take]
    omega
  | @begun metadata encoded index vlog written left bare =>
    have read := (FormatMetadata.decode_encode written).1
    cases left with
    | missing =>
      refine (stuck ?_).elim
      intro bytes there
      rw [found.temporary] at there
      cases there
      refine ⟨metadata,read,?_⟩
      intro entries there
      rw [found.index] at there
      cases there
    | @present entries removable left =>
      rcases left with written | partway
      · refine (stuck ?_).elim
        intro bytes there
        rw [found.temporary] at there
        cases there
        refine ⟨metadata,read,?_⟩
        intro others there
        rw [found.index] at there
        cases there
        exact written.1
      · exact .inr ⟨entries,found.index,partway⟩

-- However many attempts were cut, and wherever, the next whole one makes an empty database, unless a cut
-- left part of FORMAT.tmp or part of an index that does not open any more.
theorem interrupted_initialization_resumes (sound : fjall.Sound) (fresh : FreshRoot start)
    (attempts : Attempted fjall start disk) {drawn : List (Except IoError Uuid)} {uuid : Uuid}
    (drew : generateDatabaseUuid drawn = .ok uuid) {calls : Calls} (uninterrupted : calls.script = []) :
    (Resumable fjall disk → ∃ prepared after,
      prepareOpen fjall ⟨true,false⟩ drawn {disk with calls} = .ok prepared after ∧ EmptyDatabase fjall after prepared) ∧
    (¬Resumable fjall disk →
      (∃ error after, prepareOpen fjall ⟨true,false⟩ drawn {disk with calls} = .error error after) ∧
      ((∃ bytes, disk.root formatTempFileName = some (.file bytes) ∧ bytes.length < 36) ∨
        ∃ entries, disk.root indexDirectoryName = some (.directory entries) ∧ Partway fjall entries)) := by
  have held := attempts.held sound fresh
  have outcome := @prepareOpen_delivers _ fjall {disk with calls} drawn sound (held.recalled calls)
  cases ran : prepareOpen fjall ⟨true,false⟩ drawn {disk with calls} with
  | ok prepared after =>
    have done := outcome.of_ok ran
    exact ⟨fun _ => ⟨prepared,after,rfl,done.1.1⟩,fun stuck => absurd done.2 stuck⟩
  | error error after =>
    have failed := (outcome.of_error ran).2
    exact ⟨fun resumes => absurd ⟨uninterrupted,⟨uuid,drew⟩,resumes⟩ failed,
      fun stuck => ⟨⟨error,after,rfl⟩,held.stuck stuck⟩⟩

end runs

-- An index library with one file: empty once it is created, the identity once it is initialized.
def oneFileFjall : Fjall where
  creating := [[([0x74],.file [])]]
  created := [([0x30],.file [])]
  committed := fun _ batch => match batch with
    | .initializeDatabaseIdentity identity :: _ => [([0x31],.file identity)]
    | _ => [([0x30],.file [])]
  opens := fun entries => match entries with
    | [([0x30],.file [])] => .ok .empty
    | [([0x31],.file identity)] => .ok (Index.empty.apply [.initializeDatabaseIdentity identity,
        .putInternal .system headSeqKey (List.replicate 8 0),
        .putInternal .system durableFrontierKey (@encodedFrontierOf castagnoli)])
    | _ => .error layoutError
  leaves := id
  verifies := fun entries => match entries with
    | [([0x30],.file [])] => .ok .empty
    | _ => .error layoutError

theorem oneFileFjall_sound : @Fjall.Sound castagnoli oneFileFjall := by
  refine @Fjall.Sound.mk castagnoli _ ?_ rfl rfl ?_ ?_ ?_ ?_
  · intro tree member
    rw [List.mem_singleton.mp member]
    rfl
  · exact fun _ _ => rfl
  · exact fun _ _ => rfl
  · exact fun _ _ opens => opens
  · exact fun _ removable => removable

def absentRoot (script : List Answer) : Disk := ⟨false,fun _ => none,⟨script,false,0⟩⟩

theorem absentRoot_fresh (script : List Answer) : FreshRoot (absentRoot script) :=
  ⟨fun _ _ => rfl,.inl rfl,fun _ _ => rfl⟩

-- An attempt that is cut between the creation of FORMAT.tmp and its bytes: no later attempt succeeds.
theorem cut_marker_is_stuck :
    let drawn : List (Except IoError Uuid) := [.ok ⟨List.replicate 16 1,rfl⟩]
    ∃ error after again later,
      @prepareOpen castagnoli oneFileFjall ⟨true,false⟩ drawn (absentRoot (List.replicate 13 .fine ++ [.short 0])) =
        .error error after ∧ after.calls.script = [] ∧
      @prepareOpen castagnoli oneFileFjall ⟨true,false⟩ drawn after = .error again later ∧ again.kind = .corruption := by
  exact ⟨_,_,_,_,rfl,rfl,rfl,rfl⟩

-- An attempt that is cut before the index directory, and the one after it.
theorem interrupted_initialization_resumes_marked :
    let drawn : List (Except IoError Uuid) := [.ok ⟨List.replicate 16 1,rfl⟩]
    ∃ error after prepared final,
      @prepareOpen castagnoli oneFileFjall ⟨true,false⟩ drawn
        (absentRoot (List.replicate 16 .fine ++ [.io ⟨.other,none⟩])) = .error error after ∧
      @prepareOpen castagnoli oneFileFjall ⟨true,false⟩ drawn {after with calls := ⟨[],false,0⟩} = .ok prepared final ∧
      @EmptyDatabase castagnoli oneFileFjall final prepared := by
  intro drawn
  obtain ⟨error,after,ran,marked,unindexed⟩ : ∃ error after,
      @prepareOpen castagnoli oneFileFjall ⟨true,false⟩ drawn
        (absentRoot (List.replicate 16 .fine ++ [.io ⟨.other,none⟩])) = .error error after ∧
      after.root formatTempFileName = some (.file (formatMagic ++ leBytes 4 0 ++ List.replicate 16 1 ++ leBytes 4 65536 ++
        leBytes 4 60000)) ∧ after.root indexDirectoryName = none := ⟨_,_,rfl,rfl,rfl⟩
  have resumes : @Resumable castagnoli oneFileFjall after := by
    intro bytes there
    rw [marked] at there
    cases there
    refine ⟨⟨0,⟨List.replicate 16 1,rfl⟩,65536⟩,rfl,?_⟩
    intro entries index
    rw [unindexed] at index
    cases index
  have attempts := @Attempted.cut castagnoli oneFileFjall _ _ after drawn _ error
    (@Attempted.start castagnoli oneFileFjall (absentRoot [])) ran
  obtain ⟨prepared,final,finished,empty⟩ := (@interrupted_initialization_resumes castagnoli _ _ _ oneFileFjall_sound
    (absentRoot_fresh []) attempts drawn ⟨List.replicate 16 1,rfl⟩ rfl ⟨[],false,0⟩ rfl).1 resumes
  exact ⟨error,after,prepared,final,ran,finished,empty⟩

end ExpirKv
