import ExpirKv.LiveReads
import ExpirKv.Lifecycle.Survival

namespace ExpirKv
open VLogGeometry Storage CommitCoordinator

section logs
variable {base : UserMap} {operations : List LogicalOperation} {key : Bytes}

-- What the last operation on a key leaves there, or what was there before if there is none.
inductive LeftBy (base : UserMap) (operations : List LogicalOperation) (key : Bytes) : Option Bytes → Prop
  | put {front back : List LogicalOperation} {value : Bytes} : operations = front ++ .put key value :: back →
      (∀ later ∈ back, operationKey later ≠ key) → LeftBy base operations key (some value)
  | delete {front back : List LogicalOperation} : operations = front ++ .delete key :: back →
      (∀ later ∈ back, operationKey later ≠ key) → LeftBy base operations key none
  | untouched : (∀ operation ∈ operations, operationKey operation ≠ key) → LeftBy base operations key (base key)

theorem LeftBy.concat {value : Option Bytes} {last : LogicalOperation} (left : LeftBy base operations key value)
    (other : operationKey last ≠ key) : LeftBy base (operations ++ [last]) key value := by
  have behind : ∀ {back : List LogicalOperation}, (∀ later ∈ back, operationKey later ≠ key) →
      ∀ later ∈ back ++ [last], operationKey later ≠ key := by
    intro back apart later member
    rcases List.mem_append.mp member with inside | here
    · exact apart later inside
    · rwa [List.mem_singleton.mp here]
  cases left with
  | @put front back value split apart =>
    exact .put (by rw [split,List.append_assoc,List.cons_append]) (behind apart)
  | @delete front back split apart =>
    exact .delete (by rw [split,List.append_assoc,List.cons_append]) (behind apart)
  | untouched apart => exact .untouched (behind apart)

theorem UserMap.execute_concat (base : UserMap) (operations : List LogicalOperation) (last : LogicalOperation) :
    base.execute (operations ++ [last]) = Function.update (base.execute operations) (operationKey last) last.value := by
  rw [UserMap.execute_append]
  rfl

theorem UserMap.execute_leftBy (base : UserMap) (operations : List LogicalOperation) (key : Bytes) :
    LeftBy base operations key (base.execute operations key) := by
  induction operations using List.reverseRecOn with
  | nil => exact .untouched (by simp)
  | append_singleton front last ih =>
    rw [UserMap.execute_concat]
    by_cases same : operationKey last = key
    · subst same
      rw [Function.update_self]
      cases last with
      | put key value => exact .put rfl (by simp)
      | delete key => exact .delete rfl (by simp)
    · rw [Function.update_of_ne (Ne.symm same)]
      exact ih.concat same

end logs

section taking
variable [Crc32c] {c next : CommitCoordinator} {request : WriteRequest} {around : Surroundings}

-- A request that is answered changes the index in one step, if at all.
theorem RequestOutcome.taken (outcome : RequestOutcome c request around next none) :
    ∃ batches : List IndexAtomicBatch, batches.length ≤ 1 ∧
      next.log.storage.trace.filterMap Event.taken = batches ++ c.log.storage.trace.filterMap Event.taken ∧
      next.log.storage.index = batches.foldl Index.apply c.log.storage.index := by
  cases outcome with
  | nothing _ _ _ same =>
    subst same
    exact ⟨[],Nat.zero_le 1,rfl,rfl⟩
  | @indexed appended synced submission token storage stats _ submits reached answered same _ =>
    subst same
    have earlier := (submits.silently.trans reached.silently).taken
    have index := reached.index.trans submits.index
    cases answered with
    | applied script =>
      refine ⟨[submission.batch],Nat.le_refl 1,?_,?_⟩
      · rw [←earlier]
        rfl
      · rw [←index]
        rfl

end taking

section serving
variable [Crc32c] {databaseUuid : Uuid} {base : UserMap} {past : List Attempt} {viewed : CommitCoordinator}

-- Every get between commits that were answered shows what the commits up to its moment, or up to the moment of its
-- snapshot, leave at the key, whatever is committed before it reads the value. Each commit is one step of the index.
theorem live_database_refines_map (session : Session databaseUuid base past viewed)
    (committed : ∀ attempt ∈ past, attempt.answered = true) :
    (∀ more reading, LiveRun viewed more reading → ∀ (answers : GetAnswers) key,
      answers.Asks viewed.log.storage.index reading.log.storage.vlog → answers.started.instanceState ≠ .poisoned →
      answers.completed.instanceState ≠ .poisoned → key ≠ [] → key.length ≤ maxKeyValueSize →
      ∃ value, answers.get key = .ok value ∧ LeftBy base (past.flatMap Attempt.operations) key value) ∧
    ∀ request around next, commit request around viewed = .ok () next →
      Session databaseUuid base (past ++ [⟨request.operations,true⟩]) next ∧
      ∃ batches : List IndexAtomicBatch, batches.length ≤ 1 ∧
        next.log.storage.trace.filterMap Event.taken = batches ++ viewed.log.storage.trace.filterMap Event.taken ∧
        next.log.storage.index = batches.foldl Index.apply viewed.log.storage.index := by
  obtain ⟨asked,start,inventory,opened,final,-,-,ran,serves,run⟩ := session.begun
  obtain ⟨grounded,storage⟩ := openPrepared_grounded ran
  obtain ⟨settled,doubt,inDoubt,served⟩ := run.serves grounded (by rw [storage]; exact serves)
  have certain : doubt = [] := by
    rcases inDoubt.asked with empty | ⟨-,attempt,member,failed,-⟩
    · exact empty
    · rw [committed attempt member] at failed
      cases failed
  have whole : answeredOperations past = past.flatMap Attempt.operations := by
    rw [answeredOperations,List.filter_eq_self.mpr committed]
  rw [certain,List.append_nil,whole] at served
  refine ⟨?_,?_⟩
  · intro more reading further answers key asks begins completes named short
    have later := served.extends settled.layout (settled.run further.instanceRun).2
    refine ⟨base.execute (past.flatMap Attempt.operations) key,?_,UserMap.execute_leftBy _ _ _⟩
    rw [asks.get_eq later key,GetAnswers.outcome,if_neg,if_neg,if_neg]
    · simp [completeReadAllowed,completes]
    · rintro (empty | long)
      · exact named (List.isEmpty_iff.mp empty)
      · omega
    · simp [beginReadAllowed,begins]
  · intro request around next answered
    refine ⟨session.answered answered,?_⟩
    exact ((commit_outcome settled.sound.books settled.sound.identified settled.sound.ordered _ _).of_ok answered).taken

end serving

-- Two puts, a third behind them, and gets of both moments through the files of the last.
theorem live_database_refines_map_puts : ∃ begun moment c, Puts false begun moment c ∧
    (∃ value, (@quietGet castagnoli moment.log.storage.index c.log.storage.vlog).get [5] = .ok value ∧
      LeftBy (fun _ => none) [.put [1] [2],.put [3] [4]] [5] value) ∧
    (∃ value, (@quietGet castagnoli c.log.storage.index c.log.storage.vlog).get [5] = .ok value ∧
      LeftBy (fun _ => none) [.put [1] [2],.put [3] [4],.put [5] [6]] [5] value) := by
  obtain ⟨begun,moment,c,answered⟩ := puts false
  obtain ⟨middle,last⟩ := answered.session
  obtain ⟨_,_,-,-,-,-,onward⟩ := answered.lives
  have asks : ∀ index files, @GetAnswers.Asks castagnoli (@quietGet castagnoli index files) index files :=
    fun _ _ => @GetAnswers.Asks.mk castagnoli _ _ _ rfl (fun _ => rfl) (fun _ _ => rfl)
  have early := (@live_database_refines_map castagnoli _ _ _ _ middle (by decide)).1
  have late := (@live_database_refines_map castagnoli _ _ _ _ last (by decide)).1
  exact ⟨begun,moment,c,answered,early _ c onward _ _ (asks _ _) nofun nofun (by decide) (by decide),
    late _ c (@LiveRun.start castagnoli c) _ _ (asks _ _) nofun nofun (by decide) (by decide)⟩

end ExpirKv
