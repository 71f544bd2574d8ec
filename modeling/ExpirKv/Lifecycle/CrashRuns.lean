import ExpirKv.Lifecycle.TornOpen

namespace ExpirKv
open VLogGeometry Storage

section recovering
variable [Crc32c] {indexed filed : CommitCoordinator} {image : Storage} {databaseUuid : Uuid}
  {mark : Mark} {late more : List Attempt} {tells : Accepted → List LogicalOperation → Prop} {base : UserMap}
  {frontier : DurableFrontier} {chain : List (EncodedDescriptor × TransactionDescriptor)} {head : Accepted}

-- What a crash leaves of a history is a history still. What was told of the point that it is taken back to is what
-- the index then stands for.
theorem Chronicled.stands (kept : Chronicled tells base indexed frontier chain head)
    (journaled : Journaled databaseUuid mark late indexed) (grounded : Grounded indexed) (run : LiveRun indexed more filed)
    (crashed : CrashImage indexed filed image) :
    ∃ older last, Transacted older chain last ∧ last.user = image.index.user ∧ last.transaction = image.index.transaction ∧
      (frontier.durableSeq + 1 < 18446744073709551616 → older.transaction.Below (frontier.durableSeq + 1)) ∧
      ∀ count target final, Salvaged (currentFormat databaseUuid) image.vlog frontier older chain count target final →
        ∃ written, tells (.start target) written ∧ Serves final.vlog final.index (base.execute written) := by
  have grown := (grounded.run run.instanceRun).2
  obtain rfl := (journaled.run grounded run).2.named
  obtain ⟨older,last,history,user,transaction,below,points⟩ := kept.journal.transacted
  refine ⟨older,last,history,by rw [crashed.index]; exact user,by rw [crashed.index]; exact transaction,below,?_⟩
  intro count target final salvaged
  obtain ⟨point,reached,same,-⟩ := salvaged.point
  obtain ⟨-,middle,alike,there,written,since,ends,-,-,told,serves⟩ :=
    (points count salvaged.inside).imp_right (· point reached)
  rw [←salvaged.accepted] at ends told
  have settled := salvaged.settled
  have still := ends.onto (since.trans grown) ((acceptedContents_keeps salvaged.files).trans crashed.fronts)
    settled.stands.reached (settled.geometry.trans ends.geometry.symm)
    (settled.databaseUuid.trans (since.trans grown).identity) settled.registered
  exact ⟨written,told,(serves.extends ends.geometry still).same (same.trans alike.symm)⟩

-- Whatever a crash leaves of a life opens again, with a front of that life. If it holds all the files up to the mark,
-- then everything that was answered before the mark is in that front.
theorem Journaled.crashed (journaled : Journaled databaseUuid mark late indexed) (grounded : Grounded indexed)
    (run : LiveRun indexed more filed) (crashed : CrashImage indexed filed image) :
    ∃ written inventory opened final, Explains (mark.early ++ late) written ∧
      (ReachedEnd image.vlog.files mark.accepted.vlogEnd →
        ∃ rest, written = answeredOperations mark.early ++ rest ∧ Explains late rest) ∧
      Restores databaseUuid image inventory opened final (mark.base.execute written) := by
  have grown := (grounded.run run.instanceRun).2
  obtain ⟨frontier,chain,head,kept,marked⟩ := journaled.journal
  have seq := kept.seq
  obtain ⟨inventory,torn⟩ := kept.torn journaled grounded run crashed
  obtain ⟨older,last,history,user,transaction,below,stands⟩ := kept.stands journaled grounded run crashed
  obtain ⟨opened,final,count,target,ran,salvaged,founded,reopened,healthy,state⟩ :=
    torn.opens (crashed.relisted grounded journaled run) history user transaction below
  obtain ⟨written,told,serves⟩ := stands count target final salvaged
  have begun := salvaged.settled.journaled salvaged.rested serves founded reopened healthy state
  refine ⟨written,inventory,opened,final,told.explains,fun whole => told.beyond ?_,torn.inspected,ran,healthy,by rw [state],serves,
    founded,by rw [state]; exact begun⟩
  -- The mark is a point of the history too, and the image bears it out.
  have total := salvaged.seq
  simp only [Accepted.start]
  by_cases early : mark.accepted.seq ≤ frontier.durableSeq
  · omega
  · have inside : mark.accepted.seq - frontier.durableSeq ≤ chain.length := by omega
    have more := (salvaged.longest _ inside).mp (kept.bears grown crashed marked (Nat.lt_of_not_le early) whole)
    omega

end recovering

section sessions
variable [Crc32c] {databaseUuid : Uuid} {start : Storage} {asked : List (List Attempt)}

-- Everything a database can be found as: created, or left by a crash of an instance that had it open. Each session
-- goes with what was asked in it.
inductive Sessions (databaseUuid : Uuid) : List (List Attempt) → Storage → Prop
  | created : databaseUuid.isZero = false → Sessions databaseUuid [] (createdDatabase databaseUuid)
  | crashed {asked : List (List Attempt)} {past more : List Attempt} {start final image : Storage}
      {inventory : ManagedInventory} {opened indexed filed : CommitCoordinator} : Sessions databaseUuid asked start →
      inspectFiles (currentFormat databaseUuid) start.vlog.files = .ok inventory →
      openPrepared (currentFormat databaseUuid) inventory start = .ok opened final → LiveRun opened past indexed →
      LiveRun indexed more filed → CrashImage indexed filed image → Sessions databaseUuid (asked ++ [past ++ more]) image

-- Whatever was done to a database, it opens, with a front of every session.
theorem Sessions.restores (sessions : Sessions databaseUuid asked start) :
    ∃ writes inventory opened final, List.Forall₂ Explains asked writes ∧
      Restores databaseUuid start inventory opened final (UserMap.execute (fun _ => none) writes.flatten) := by
  induction sessions with
  | created present =>
    obtain ⟨opened,final,restores⟩ := (createdDatabase_atRest present).restores
      (fun files _ => createdDatabase_serves files)
    exact ⟨[],_,opened,final,.nil,restores⟩
  | @crashed asked past more start final image inventory opened indexed filed _ inspected ran run further crashed ih =>
    obtain ⟨writes,_,_,_,explains,restores⟩ := ih
    have restores := restores.unique inspected ran
    obtain ⟨grounded,journaled⟩ := restores.run run
    obtain ⟨written,inventory,again,last,explained,-,restored⟩ := journaled.crashed grounded further crashed
    refine ⟨writes ++ [written],inventory,again,last,List.rel_append explains (.cons (explained.more more) .nil),?_⟩
    rw [←UserMap.execute_append] at restored
    rw [List.flatten_append,List.flatten_singleton]
    exact restored

end sessions

end ExpirKv
