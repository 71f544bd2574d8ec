import ExpirKv.Commit.Journaled
import ExpirKv.Lifecycle.Completing
import ExpirKv.Lifecycle.ServedRuns

namespace ExpirKv
open VLogGeometry Storage

section fronts
variable [Crc32c] {there files later : FileSet} {stop : Option VLogPosition}

-- Files that ended somewhere are open in every front of what they grew to that still reaches there.
theorem EndsAt.onto (ends : EndsAt there (stop.getD ⟨0,0⟩)) (grown : there.Extends files)
    (fronts : Keeps later.files files.files) (reached : ReachedEnd later.files stop)
    (geometry : later.geometry = there.geometry) (identity : later.databaseUuid = there.databaseUuid)
    (registered : ∀ fileId, fileId ∈ later.catalog ↔ ∃ contents, later.files[fileId]? = some contents) :
    there.Extends later := by
  refine ⟨geometry,identity,?_⟩
  intro fileId contents opened
  obtain ⟨-,stored,valid⟩ := FileSet.handle_ok.mp opened
  obtain ⟨more,again⟩ := grown.opens fileId contents opened
  obtain ⟨-,whole,judged⟩ := FileSet.handle_ok.mp again
  obtain ⟨bound,-⟩ := FileSet.validateCandidate_ok.mp valid
  obtain ⟨limit,-⟩ := FileSet.validateCandidate_ok.mp judged
  rw [ends.geometry] at bound
  rw [grown.geometry] at limit
  -- The front holds at least what was there.
  obtain ⟨front,found,longer⟩ : ∃ front, later.files[fileId]? = some front ∧ contents.length ≤ front.length := by
    cases stop with
    | none =>
      rw [ends.fresh fileId ((Nat.eq_zero_or_pos fileId).elim (fun same => .inr ⟨same,rfl⟩) .inl)] at stored
      cases stored
    | some position =>
      obtain ⟨-,-,full,last,held,reaches⟩ := reached
      simp only [Option.getD_some] at ends
      rcases Nat.lt_trichotomy fileId position.fileId with lower | rfl | higher
      · obtain ⟨front,found,width⟩ := full fileId lower
        exact ⟨front,found,by rw [width]; exact bound⟩
      · by_cases begun : position.offset = 0
        · rw [ends.fresh _ (.inr ⟨rfl,begun⟩)] at stored
          cases stored
        · obtain ⟨current,open_,width⟩ := ends.current (Nat.pos_of_ne_zero begun)
          obtain rfl := Except.ok.inj (opened.symm.trans open_)
          exact ⟨last,held,by rw [width]; exact reaches⟩
      · rw [ends.fresh _ (.inl higher)] at stored
        cases stored
  obtain ⟨lost,kept⟩ := fronts fileId front found
  rw [whole] at kept
  obtain ⟨rest,rfl⟩ := List.prefix_of_prefix_length_le (List.prefix_append contents more)
    ((List.prefix_append front lost).trans (by rw [Option.some.inj kept])) longer
  refine ⟨rest,FileSet.handle_ok.mpr ⟨(registered fileId).mpr ⟨_,found⟩,found,?_⟩⟩
  rw [Option.some.inj kept,List.length_append] at limit
  have fits := FileSet.validateCandidate_append rest valid (Nat.le_trans (Nat.le_add_right _ _) limit)
  rw [FileSet.validateCandidate_ok] at fits ⊢
  rw [geometry,identity]
  exact fits

end fronts

section crashing
variable [Crc32c] {indexed filed : CommitCoordinator} {image : Storage} {stop : Option VLogPosition} {databaseUuid : Uuid}

-- What a crash leaves: the index as it was at one moment, and of the files of a later one what was synced and linked,
-- with any front of the rest. A crash inside a request is one behind it, had the request failed at its next call.
structure CrashImage (indexed filed : CommitCoordinator) (image : Storage) : Prop where
  honest : image.Honest
  index : image.index = indexed.log.storage.index
  listed : Relisted (currentFormat filed.log.storage.vlog.databaseUuid) image.vlog.files image.vlog
  fronts : Keeps image.vlog.files filed.log.storage.vlog.files
  synced : ∀ (fileId : Nat) (contents : Bytes), image.vlog.files[fileId]? = some contents →
    Event.covered filed.log.storage.trace fileId ≤ contents.length
  linked : ∀ fileId : Nat, filed.log.storage.vlog.files[fileId]? ≠ none →
    Event.linked filed.log.storage.trace fileId = true → image.vlog.files[fileId]? ≠ none

-- The image reaches every end that was secured.
theorem CrashImage.reached (crashed : CrashImage indexed filed image) (secured : Secured filed.log.storage stop)
    (inspectable : Inspectable (currentFormat databaseUuid) image.vlog.files) : ReachedEnd image.vlog.files stop := by
  cases stop with
  | none => trivial
  | some position =>
    have present : ∀ fileId ≤ position.fileId, ∃ contents, image.vlog.files[fileId]? = some contents ∧
        fileId ≤ 999999 ∧ contents.length ≤ 4294967296 ∧
        (if fileId = position.fileId then position.offset else 4294967296) ≤ contents.length := by
      intro fileId inside
      obtain ⟨held,linked,covered⟩ := secured position rfl fileId inside
      obtain ⟨contents,found⟩ := Option.ne_none_iff_exists'.mp (crashed.linked fileId held linked)
      obtain ⟨-,named,sized,-⟩ := inspectFile_ok (inspectable fileId contents found)
      exact ⟨contents,found,named,sized,Nat.le_trans covered (crashed.synced fileId contents found)⟩
    obtain ⟨last,found,named,sized,reaches⟩ := present position.fileId (Nat.le_refl _)
    rw [if_pos rfl] at reaches
    refine ⟨named,by omega,?_,last,found,reaches⟩
    intro fileId lower
    obtain ⟨contents,here,-,sized,whole⟩ := present fileId (Nat.le_of_lt lower)
    rw [if_neg (by omega)] at whole
    exact ⟨contents,here,Nat.le_antisymm sized whole⟩

end crashing

section settling
variable [Crc32c] {databaseUuid : Uuid} {storage final : Storage} {stop : Option VLogPosition} {map : UserMap}
  {opened : CommitCoordinator} {target : DurableFrontier} {files : Directory}
  {tells : Accepted → List LogicalOperation → Prop} {base : UserMap} {written : List LogicalOperation}

omit [Crc32c] in
theorem acceptedContents_keeps {cut : Directory} (same : ∀ fileId : Nat, cut[fileId]? = acceptedContents files stop fileId) :
    Keeps cut files := fun fileId _ found => acceptedContents_front ((same fileId).symm.trans found)

omit [Crc32c] in
theorem StandsIn.reached (stands : StandsIn stop files) : ReachedEnd files stop := by
  cases stop with
  | none => trivial
  | some position =>
    obtain ⟨ends,reached⟩ := stands position rfl
    have good := ends.placeable.good
    exact ⟨good.1,good.2.1,reached⟩

theorem Settled.packed (settled : Settled (currentFormat databaseUuid) stop storage) :
    PackedAt databaseUuid storage.vlog.files (stop.getD ⟨0,0⟩) := by
  cases stop with
  | none =>
    have empty : storage.vlog.files = ∅ := by
      apply Std.ExtTreeMap.ext_getElem?
      intro fileId
      rw [settled.exactly fileId]
      simp [acceptedContents]
    rw [empty]
    exact .empty
  | some accepted =>
    obtain ⟨ends,full,-⟩ := settled.stands accepted rfl
    have good := ends.placeable.good
    have behind := ends.behind
    obtain ⟨last,found,width⟩ := settled.last
    refine ⟨good.1,good.2.1,?_,full,.inr ⟨last,found,width⟩,fun fileId above => settled.absent (fun _ same => ?_)⟩
    · intro fileId contents there
      refine ⟨?_,settled.inspectable fileId contents there⟩
      rcases Nat.lt_or_eq_of_le (settled.present.mp ⟨contents,there⟩) with lower | rfl
      · obtain ⟨whole,stored,size⟩ := full fileId lower
        obtain rfl := Option.some.inj (stored.symm.trans there)
        omega
      · obtain rfl := Option.some.inj (found.symm.trans there)
        omega
    · obtain rfl := Option.mem_some.mp same
      exact above

-- An instance that a recovery has just handed over begins its life.
theorem Settled.kept (settled : Settled (currentFormat databaseUuid) target.durableVlogEnd final)
    (rested : Rested (currentFormat databaseUuid) target.durableSeq target final.index)
    (serves : Serves final.vlog final.index (base.execute written)) (grounded : Grounded opened)
    (reopened : opened.log.storage = final.reopened) (healthy : opened.runtime.state.instanceState = .healthy)
    (state : opened.state = ⟨target.durableSeq,target,target.durableVlogSeq,target.durableVlogEnd⟩)
    (told : tells (.start target) written) : Chronicled tells base opened target [] (.start target) := by
  have vlog : opened.log.storage.vlog = final.vlog := by rw [reopened]; rfl
  have index : opened.log.storage.index = final.index := by rw [reopened]; rfl
  obtain ⟨ends,boundary⟩ := grounded.footed healthy
  have place := (grounded.sound.accounted healthy).aligned.position
  rw [state] at place boundary
  rw [place] at ends
  refine ⟨.start ?_ ?_,?_,rested.bound,?_,?_⟩
  · refine ⟨_,written,.refl _,ends,boundary,trivial,told,?_⟩
    rw [vlog,index]
    exact serves
  · rw [index]
    exact rested.below
  · rw [index]
    exact rested.stored
  · intro position same fileId inside
    obtain ⟨-,full,last,there,reaches⟩ := settled.stands position same
    rw [reopened]
    by_cases here : fileId = position.fileId
    · subst here
      obtain ⟨covered,linked⟩ := reopened_covers final there
      exact ⟨fun none => (by cases there.symm.trans none),linked,by rw [if_pos rfl,covered]; exact reaches⟩
    · obtain ⟨contents,found,whole⟩ := full fileId (by omega)
      obtain ⟨covered,linked⟩ := reopened_covers final found
      exact ⟨fun none => (by cases found.symm.trans none),linked,by rw [if_neg here,covered,whole]⟩
  · intro _
    rw [state]
    exact ⟨rfl,rfl⟩

theorem Settled.journaled (settled : Settled (currentFormat databaseUuid) target.durableVlogEnd final)
    (rested : Rested (currentFormat databaseUuid) target.durableSeq target final.index)
    (serves : Serves final.vlog final.index map) (grounded : Grounded opened) (reopened : opened.log.storage = final.reopened)
    (healthy : opened.runtime.state.instanceState = .healthy)
    (state : opened.state = ⟨target.durableSeq,target,target.durableVlogSeq,target.durableVlogEnd⟩) :
    Journaled databaseUuid ⟨map,[],.start target⟩ [] opened := by
  have vlog : opened.log.storage.vlog = final.vlog := by rw [reopened]; rfl
  have index : opened.log.storage.index = final.index := by rw [reopened]; rfl
  have place := (grounded.sound.accounted healthy).aligned.position
  rw [state] at place
  have nothing : Serves final.vlog final.index (map.execute []) := serves
  have kept := settled.kept rested nothing grounded reopened healthy state
    (⟨.nothing _,fun _ => rfl,fun _ => ⟨[],rfl,.nothing _⟩⟩ : Mark.Tells ⟨map,[],.start target⟩ [] _ [])
  refine ⟨by rw [vlog,settled.databaseUuid]; rfl,⟨target,[],.start target,kept,Nat.le_refl _⟩,?_,?_,?_,?_,?_⟩
  · rw [index]
    exact rested.identity
  · rw [index]
    exact rested.idle
  · rw [vlog]
    exact settled.inspectable
  · intro _
    rw [vlog,place]
    exact settled.packed
  · intro _
    rw [vlog,index]
    exact serves

end settling

section leaving
variable [Crc32c] {c : CommitCoordinator}

-- What a process that ends leaves to the next one while the machine goes on.
def Storage.left (storage : Storage) : Storage :=
  ⟨storage.index,⟨storage.vlog.files,Std.ExtTreeSet.ofList storage.vlog.files.keys,storage.vlog.databaseUuid,production⟩,[],[]⟩

theorem CrashImage.left (grounded : Grounded c) : CrashImage c c c.log.storage.left := by
  refine ⟨rfl,rfl,⟨rfl,rfl,rfl,?_⟩,.refl _,grounded.sound.books.bounded,fun _ there _ => there⟩
  intro fileId
  simp only [Storage.left]
  rw [Std.ExtTreeSet.mem_ofList,List.contains_iff_mem,Std.ExtTreeMap.mem_keys,←Std.ExtTreeMap.isSome_getElem?_iff_mem,
    Option.isSome_iff_exists]

-- What a crash leaves of the only file when it cuts it.
def Storage.cut (storage : Storage) (count : Nat) : Storage :=
  ⟨storage.index,⟨Std.ExtTreeMap.empty.insert 0 ((storage.contents 0).take count),Std.ExtTreeSet.empty.insert 0,
    storage.vlog.databaseUuid,production⟩,[],[]⟩

omit [Crc32c] in
theorem Storage.cut_found {storage : Storage} {count fileId : Nat} {contents : Bytes}
    (found : (storage.cut count).vlog.files[fileId]? = some contents) :
    fileId = 0 ∧ contents = (storage.contents 0).take count := by
  simp only [Storage.cut,Std.ExtTreeMap.getElem?_insert,Std.LawfulEqCmp.compare_eq_iff_eq] at found
  split at found
  · rename_i same
    exact ⟨same.symm,(Option.some.inj found).symm⟩
  · simp at found

theorem CrashImage.cut (grounded : Grounded c) {count : Nat} (only : c.log.storage.vlog.files.keys = [0])
    (covered : Event.covered c.log.storage.trace 0 ≤ count) : CrashImage c c (c.log.storage.cut count) := by
  have held : ∀ fileId : Nat, c.log.storage.vlog.files[fileId]? ≠ none → fileId = 0 := by
    intro fileId present
    have member : fileId ∈ c.log.storage.vlog.files.keys :=
      Std.ExtTreeMap.mem_keys.mpr (Std.ExtTreeMap.isSome_getElem?_iff_mem.mp (Option.isSome_iff_ne_none.mpr present))
    rw [only] at member
    exact List.mem_singleton.mp member
  have whole : c.log.storage.vlog.files[0]? = some (c.log.storage.contents 0) := by
    have member : 0 ∈ c.log.storage.vlog.files :=
      Std.ExtTreeMap.mem_keys.mp (by rw [only]; exact List.mem_singleton_self 0)
    obtain ⟨contents,found⟩ := Option.isSome_iff_exists.mp (Std.ExtTreeMap.isSome_getElem?_iff_mem.mpr member)
    rw [Storage.contents,found,Option.getD_some]
  refine ⟨rfl,rfl,⟨rfl,rfl,rfl,?_⟩,?_,?_,?_⟩
  · intro fileId
    by_cases same : fileId = 0
    · subst same
      simp [Storage.cut]
    · simp [Storage.cut,Ne.symm same]
  · intro fileId contents found
    obtain ⟨rfl,rfl⟩ := Storage.cut_found found
    exact ⟨(c.log.storage.contents 0).drop count,by rw [whole,List.take_append_drop]⟩
  · intro fileId contents found
    obtain ⟨rfl,rfl⟩ := Storage.cut_found found
    rw [List.length_take]
    exact Nat.le_min.mpr ⟨covered,grounded.sound.books.bounded 0 _ whole⟩
  · intro fileId present _
    rw [held fileId present]
    simp [Storage.cut]

end leaving

section tearing
variable [Crc32c] {indexed filed : CommitCoordinator} {image : Storage} {databaseUuid : Uuid}
  {mark : Mark} {late more : List Attempt} {there : FileSet} {stop : Option VLogPosition}
  {tells : Accepted → List LogicalOperation → Prop} {base : UserMap} {frontier : DurableFrontier}
  {chain : List (EncodedDescriptor × TransactionDescriptor)} {head : Accepted}

-- The image keeps every point of the life that it reaches.
theorem CrashImage.keeps (crashed : CrashImage indexed filed image) (grown : indexed.log.storage.vlog.Extends filed.log.storage.vlog)
    (since : there.Extends indexed.log.storage.vlog) (ends : EndsAt there (appendPosition stop))
    (reached : ReachedEnd image.vlog.files stop) : there.Extends image.vlog := by
  have grown := since.trans grown
  exact ends.onto grown crashed.fronts reached (crashed.listed.geometry.trans ends.geometry.symm)
    (crashed.listed.databaseUuid.trans grown.identity) crashed.listed.registered

-- What a crash leaves is torn behind its durable frontier only.
theorem Chronicled.torn (kept : Chronicled tells base indexed frontier chain head)
    (journaled : Journaled databaseUuid mark late indexed) (grounded : Grounded indexed) (run : LiveRun indexed more filed)
    (crashed : CrashImage indexed filed image) :
    ∃ inventory, TornImage (currentFormat databaseUuid) inventory image frontier head.seq (chain.map Prod.snd) := by
  have later := (journaled.run grounded run).2
  have grown := (grounded.run run.instanceRun).2
  have inspectable := later.inspectable.kept crashed.fronts
  obtain ⟨inventory,inspected⟩ := inspectFiles_inspectable.mpr inspectable
  have reached := crashed.reached (kept.secured.sheltered (run.shelters grounded)) inspectable
  have seq := kept.seq
  have stored := kept.frontierStored
  obtain ⟨journal,⟨whole,-⟩,bound,-,-⟩ := kept
  have boundary : StableBoundary image.vlog frontier := by
    obtain ⟨first,last,history,user,transaction,below,points⟩ := journal.transacted
    obtain ⟨-,begins⟩ := points 0 (Nat.zero_le _)
    obtain ⟨-,-,there,_,since,ends,boundary,-⟩ := begins first (.nil first)
    exact (crashed.keeps grown since ends reached).boundary boundary
  rw [←crashed.index] at journal whole stored
  have identity := journaled.identity
  have idle := journaled.idle
  rw [←crashed.index] at identity idle
  exact ⟨inventory,crashed.honest,identity,crashed.listed.geometry,stored,⟨_,whole,decodeHeadSeq_encode bound⟩,
    by omega,idle,inspected,⟨_,(RecoveryTopology.analyze_ok (inspectFiles_lists inspected)).mpr ⟨reached,rfl⟩⟩,boundary,
    journal.described⟩

theorem CrashImage.relisted (crashed : CrashImage indexed filed image) (grounded : Grounded indexed)
    (journaled : Journaled databaseUuid mark late indexed) (run : LiveRun indexed more filed) :
    Relisted (currentFormat databaseUuid) image.vlog.files image.vlog := by
  have listed := crashed.listed
  rw [(journaled.run grounded run).2.named] at listed
  exact listed

-- What is told of any point of the history, and that an image bears out everything up to it where it reaches its end.
theorem Chronicled.told (kept : Chronicled tells base indexed frontier chain head)
    (grown : indexed.log.storage.vlog.Extends filed.log.storage.vlog) (crashed : CrashImage indexed filed image)
    {count : Nat} (inside : count ≤ chain.length) :
    ∃ accepted written, accepted = ((chain.map Prod.snd).take count).foldl Accepted.take (.start frontier) ∧
      accepted.seq = frontier.durableSeq + count ∧ tells accepted written ∧ (∀ stop ∈ accepted.vlogEnd, 64 ≤ stop.offset) ∧
      (ReachedEnd image.vlog.files accepted.vlogEnd →
        AcceptsAll image.vlog (.start frontier) ((chain.map Prod.snd).take count)) := by
  obtain ⟨first,last,history,-,-,-,points⟩ := kept.journal.transacted
  rw [←List.take_append_drop count chain] at history
  obtain ⟨point,reached,-⟩ := history.split
  obtain ⟨seq,here⟩ := points count inside
  obtain ⟨-,-,there,written,since,ends,boundary,accepts,told,-⟩ := here point reached
  exact ⟨_,written,rfl,seq,told,fun stop same => (boundary.room ends.geometry stop same).1,
    fun whole => accepts.extends (crashed.keeps grown since ends whole)⟩

-- An image that reaches the mark bears out everything up to it.
theorem Chronicled.bears (kept : Chronicled (mark.Tells late) base indexed frontier chain head)
    (grown : indexed.log.storage.vlog.Extends filed.log.storage.vlog) (crashed : CrashImage indexed filed image)
    (marked : mark.accepted.seq ≤ head.seq) (above : frontier.durableSeq < mark.accepted.seq)
    (whole : ReachedEnd image.vlog.files mark.accepted.vlogEnd) :
    AcceptsAll image.vlog (.start frontier) ((chain.map Prod.snd).take (mark.accepted.seq - frontier.durableSeq)) := by
  have seq := kept.seq
  obtain ⟨accepted,written,-,place,told,-,bears⟩ := kept.told grown crashed
    (by omega : mark.accepted.seq - frontier.durableSeq ≤ chain.length)
  refine bears ?_
  rw [told.place (by omega)]
  exact whole

end tearing

section restoring
variable [Crc32c] {databaseUuid : Uuid} {late : List Attempt}

-- A storage that opens, and what the instance then begins with.
structure Restores (databaseUuid : Uuid) (start : Storage) (inventory : ManagedInventory) (opened : CommitCoordinator)
    (final : Storage) (map : UserMap) : Prop where
  inspected : inspectFiles (currentFormat databaseUuid) start.vlog.files = .ok inventory
  ran : openPrepared (currentFormat databaseUuid) inventory start = .ok opened final
  healthy : opened.runtime.state.instanceState = .healthy
  durable : opened.state.durableFrontier.durableSeq = opened.state.headSeq
  serves : Serves final.vlog final.index map
  grounded : Grounded opened
  journaled : Journaled databaseUuid ⟨map,[],opened.state.accepted⟩ [] opened

theorem Restores.run {start final : Storage} {inventory : ManagedInventory} {opened c : CommitCoordinator} {map : UserMap}
    (restores : Restores databaseUuid start inventory opened final map) (run : LiveRun opened late c) :
    Grounded c ∧ Journaled databaseUuid ⟨map,[],opened.state.accepted⟩ late c :=
  restores.journaled.run restores.grounded run

-- What a closed database comes back as.
theorem AtRest.restores {inventory : ManagedInventory} {headSeq : Nat} {frontier : DurableFrontier} {start : Storage}
    {map : UserMap} (atRest : AtRest (currentFormat databaseUuid) inventory headSeq frontier start)
    (serves : ∀ files, Relisted (currentFormat databaseUuid) start.vlog.files files → Serves files start.index map) :
    ∃ opened final, Restores databaseUuid start inventory opened final map := by
  obtain ⟨opened,final,ran,index,relisted,reopened,state,healthy⟩ := atRest.opens
  obtain ⟨-,rested,inspected,stands,exactly,-⟩ := atRest
  have grounded := (openPrepared_grounded ran).1
  have served : Serves final.vlog final.index map := by
    rw [index]
    exact serves _ relisted
  have settled : Settled (currentFormat databaseUuid) frontier.durableVlogEnd final := by
    refine ⟨relisted.registered,relisted.geometry,relisted.databaseUuid,?_,?_,?_⟩
    · rw [relisted.files]
      exact inspectFiles_inspectable.mp ⟨inventory,inspected⟩
    · rw [relisted.files]
      exact stands
    · intro fileId
      rw [relisted.files]
      exact exactly fileId
  obtain rfl := rested.settled
  rw [←index] at rested
  have begun := settled.journaled rested served grounded reopened healthy state
  exact ⟨opened,final,inspected,ran,healthy,by rw [state],served,grounded,by rw [state]; exact begun⟩

theorem Restores.unique {start : Storage} {inventory other : ManagedInventory} {opened again : CommitCoordinator} {final last : Storage}
    {map : UserMap} (restores : Restores databaseUuid start inventory opened final map)
    (inspected : inspectFiles (currentFormat databaseUuid) start.vlog.files = .ok other)
    (ran : openPrepared (currentFormat databaseUuid) other start = .ok again last) :
    Restores databaseUuid start other again last map := by
  obtain rfl := Except.ok.inj (restores.inspected.symm.trans inspected)
  have same := restores.ran.symm.trans ran
  simp only [EStateM.Result.ok.injEq] at same
  obtain ⟨rfl,rfl⟩ := same
  exact restores

end restoring

theorem Puts.restores {sync : Bool} {begun moment c : CommitCoordinator} (puts : Puts sync begun moment c) :
    ∃ opened final,
      @Restores castagnoli oneUuid (@createdDatabase castagnoli oneUuid) ⟨[]⟩ opened final (fun _ => none) ∧
      @LiveRun castagnoli opened askedPuts moment ∧ @LiveRun castagnoli moment [laterPut] c := by
  obtain ⟨opened,final,ran,-,run,-,onward⟩ := puts.lives
  have atRest := @createdDatabase_atRest castagnoli oneUuid (by decide)
  obtain ⟨_,_,restores⟩ := @AtRest.restores castagnoli _ _ _ _ _ _ atRest
    (fun files _ => @createdDatabase_serves castagnoli oneUuid files)
  exact ⟨opened,final,@Restores.unique castagnoli _ _ _ _ _ _ _ _ _ restores
    (@Restores.inspected castagnoli _ _ _ _ _ _ restores) ran,run,onward⟩

-- A crash that cuts the envelope of the last put.
theorem Puts.crashed {sync : Bool} {begun moment c : CommitCoordinator} (puts : Puts sync begun moment c)
    (grounded : @Grounded castagnoli c) : CrashImage c c (c.log.storage.cut 600) := by
  refine @CrashImage.cut castagnoli c grounded 600 puts.files.1 ?_
  rw [puts.covered]
  cases sync <;> decide

theorem Puts.reaches {sync : Bool} {begun moment c : CommitCoordinator} (puts : Puts sync begun moment c) :
    ReachedEnd (c.log.storage.cut 600).vlog.files moment.state.headVlogEnd := by
  rw [puts.middle]
  refine ⟨by decide,by decide,fun fileId lower => absurd lower (Nat.not_lt_zero _),(c.log.storage.contents 0).take 600,?_,?_⟩
  · simp [Storage.cut]
  · rw [List.length_take,puts.files.2]
    exact Nat.le_of_ble_eq_true rfl

end ExpirKv
