import ExpirKv.CursorFacts
import ExpirKv.Range
import ExpirKv.Lifecycle.ServedRuns

namespace ExpirKv
open VLogGeometry

-- What the rest of the database answers during one get.
structure GetAnswers where
  started : StateSnapshot
  foreignSnapshot : Bool
  pointer : Bytes → Result (Option Bytes)
  readValue : Bytes → Bytes → Result Bytes
  completed : StateSnapshot
  failureState : InstanceState

namespace GetAnswers

def completeRead (answers : GetAnswers) : Result Unit :=
  rejectIf (completeReadAllowed answers.started answers.completed = false) (poisonedReadError .get)

def readFailure (answers : GetAnswers) (domain : ReadFailureDomain) (error : StorageError) : StorageError :=
  handledReadFailure error domain .get answers.failureState

-- `DbInner::get`.
def get (answers : GetAnswers) (key : Bytes) : Result (Option Bytes) := do
  rejectIf (beginReadAllowed answers.started = false) (poisonedReadError .get)
  rejectIf (key.isEmpty ∨ key.length > maxKeyValueSize)
    (.readError .invalidArgument answers.started.instanceState .fixRequestAndRetrySameInstance)
  rejectIf (answers.foreignSnapshot = true) (invalidReadArgument .get answers.started.instanceState)
  match ← (answers.pointer key).mapError (answers.readFailure .index) with
  | none => do
    answers.completeRead
    return none
  | some encodedPointer => do
    let value ← (answers.readValue encodedPointer key).mapError (answers.readFailure .valueLog)
    answers.completeRead
    return some value

end GetAnswers

section gets
variable [Crc32c] {files : FileSet} {index : Index} {map : UserMap} {answers : GetAnswers} {key : Bytes}

-- A get that asks an index and reads the files of one moment, and is refused no call.
structure GetAnswers.Asks (answers : GetAnswers) (index : Index) (files : FileSet) : Prop where
  own : answers.foreignSnapshot = false
  pointer : ∀ key, answers.pointer key = .ok index.user[key]?
  readValue : ∀ pointer key, answers.readValue pointer key = ExpirKv.readValue files pointer key

-- One that may be refused any of its calls.
structure GetAnswers.Trusts (answers : GetAnswers) (index : Index) (files : FileSet) : Prop where
  pointer : ∀ key found, answers.pointer key = .ok found → found = index.user[key]?
  readValue : ∀ pointer key value, answers.readValue pointer key = .ok value →
    ExpirKv.readValue files pointer key = .ok value

-- What a get that is refused no call comes to.
def GetAnswers.outcome (answers : GetAnswers) (map : UserMap) (key : Bytes) : Result (Option Bytes) :=
  if beginReadAllowed answers.started = false then .error (poisonedReadError .get)
  else if key.isEmpty ∨ key.length > maxKeyValueSize then
    .error (.readError .invalidArgument answers.started.instanceState .fixRequestAndRetrySameInstance)
  else if completeReadAllowed answers.started answers.completed = false then .error (poisonedReadError .get)
  else .ok (map key)

theorem GetAnswers.Asks.get_eq (asks : answers.Asks index files) (serves : Serves files index map) (key : Bytes) :
    answers.get key = answers.outcome map key := by
  unfold get outcome
  by_cases begins : beginReadAllowed answers.started = false
  · rw [if_pos begins,rejectIf_true begins]
    rfl
  rw [if_neg begins,rejectIf_false begins,ok_bind]
  by_cases long : key.isEmpty ∨ key.length > maxKeyValueSize
  · rw [if_pos long,rejectIf_true long]
    rfl
  rw [if_neg long,rejectIf_false long,ok_bind,rejectIf_false (by simp [asks.own]),ok_bind,asks.pointer]
  have closes : ∀ value : Option Bytes, (answers.completeRead >>= fun _ => pure value) =
      if completeReadAllowed answers.started answers.completed = false then .error (poisonedReadError .get)
      else .ok value := by
    intro value
    unfold completeRead
    split
    · rename_i stopped
      rw [rejectIf_true stopped,error_bind]
    · rename_i goes
      rw [rejectIf_false goes,ok_bind,pure_ok]
  cases found : index.user[key]? with
  | none =>
    rw [serves.absent found]
    exact closes none
  | some pointer =>
    obtain ⟨value,there,stands⟩ := serves.found found
    have read : answers.readValue pointer key = .ok value := (asks.readValue pointer key).trans stands
    rw [there]
    simp only [Except.mapError,ok_bind,read]
    exact closes (some value)

theorem GetAnswers.Trusts.get_ok (trusts : answers.Trusts index files) (serves : Serves files index map)
    {found : Option Bytes} (got : answers.get key = .ok found) : found = map key := by
  unfold get at got
  simp only [bind_ok,exists_unit,mapError_ok] at got
  obtain ⟨-,-,-,pointer,asked,got⟩ := got
  have there := trusts.pointer key pointer asked
  cases pointer with
  | none =>
    simp only [bind_ok,exists_unit,pure_ok,Except.ok.injEq] at got
    rw [←got.2,serves.absent there.symm]
  | some pointer =>
    simp only [bind_ok,exists_unit,mapError_ok,pure_ok,Except.ok.injEq] at got
    obtain ⟨value,read,-,rfl⟩ := got
    obtain ⟨other,here,stands⟩ := serves.found there.symm
    rw [here,stands.single (trusts.readValue _ _ _ read)]

-- The state that a get completes under is one that came with the index it asked, or later. No epoch stands for two states.
structure GetAnswers.Outlasts (answers : GetAnswers) (viewed : RuntimeControl) : Prop where
  completed : viewed.rank ≤ stateRank answers.completed.instanceState
  epoch : answers.completed.stateEpoch = answers.started.stateEpoch →
    answers.completed.instanceState = answers.started.instanceState

omit [Crc32c] in
theorem GetAnswers.get_completes {found : Option Bytes} (got : answers.get key = .ok found) :
    beginReadAllowed answers.started = true ∧ completeReadAllowed answers.started answers.completed = true := by
  unfold get at got
  simp only [bind_ok,exists_unit,mapError_ok,rejectIf_ok,Bool.not_eq_false] at got
  obtain ⟨begins,-,-,pointer,-,got⟩ := got
  refine ⟨begins,?_⟩
  cases pointer with
  | none =>
    simp only [completeRead,bind_ok,exists_unit,rejectIf_ok,Bool.not_eq_false] at got
    exact got.1
  | some pointer =>
    simp only [completeRead,bind_ok,exists_unit,rejectIf_ok,Bool.not_eq_false] at got
    obtain ⟨_,-,completes,-⟩ := got
    exact completes

-- A get that outlasts the poisoning of the instance is refused.
omit [Crc32c] in
theorem GetAnswers.Outlasts.unpoisoned {viewed : RuntimeControl} {found : Option Bytes} (outlasts : answers.Outlasts viewed)
    (got : answers.get key = .ok found) : viewed.state.instanceState ≠ .poisoned := by
  intro poisoned
  obtain ⟨begins,completes⟩ := GetAnswers.get_completes got
  have rank := outlasts.completed
  rw [RuntimeControl.rank,poisoned] at rank
  have completed : answers.completed.instanceState = .poisoned := by
    cases state : answers.completed.instanceState with
    | poisoned => rfl
    | healthy =>
      rw [state] at rank
      cases rank
    | writeStopped =>
      rw [state] at rank
      exact absurd rank (by decide)
  simp only [completeReadAllowed,completed,beq_self_eq_true,Bool.true_and,Bool.not_eq_true',bne_eq_false_iff_eq] at completes
  simp only [beginReadAllowed,bne_iff_ne,ne_eq] at begins
  exact begins ((outlasts.epoch completes).symm.trans completed)

end gets

section moments
variable [Crc32c] {format : FormatMetadata} {inventory : ManagedInventory} {start final : Storage}
  {opened viewed : CommitCoordinator} {base map : UserMap} {past : List Attempt}

-- A get answers with the map of the moment at which it asked the index, or of the moment at which its snapshot was
-- taken, however much is written before it reads the value. What is in doubt it shows only if it completes before the
-- instance is poisoned.
theorem get_reads_map (ran : openPrepared format inventory start = .ok opened final)
    (serves : Serves final.vlog final.index base) (run : LiveRun opened past viewed) :
    ∃ doubt, InDoubt past viewed doubt ∧ ∀ more reading, LiveRun viewed more reading → ∀ (answers : GetAnswers) key,
      (answers.Trusts viewed.log.storage.index reading.log.storage.vlog → ∀ found, answers.get key = .ok found →
        found = base.execute (answeredOperations past ++ doubt) key) ∧
      (answers.Trusts viewed.log.storage.index reading.log.storage.vlog → answers.Outlasts viewed.runtime →
        ∀ found, answers.get key = .ok found → found = base.execute (answeredOperations past) key) ∧
      (answers.Asks viewed.log.storage.index reading.log.storage.vlog →
        answers.get key = answers.outcome (base.execute (answeredOperations past ++ doubt)) key) := by
  obtain ⟨grounded,storage⟩ := openPrepared_grounded ran
  obtain ⟨settled,doubt,inDoubt,served⟩ := run.serves grounded (by rw [storage]; exact serves)
  refine ⟨doubt,inDoubt,?_⟩
  intro more reading further answers key
  have later := served.extends settled.layout (settled.run further.instanceRun).2
  refine ⟨fun trusts found got => trusts.get_ok later got,?_,fun asks => asks.get_eq later key⟩
  intro trusts outlasts found got
  rcases inDoubt.asked with rfl | ⟨poisoned,-⟩
  · rw [List.append_nil] at later
    exact trusts.get_ok later got
  · exact absurd poisoned (outlasts.unpoisoned got)

end moments

-- A get that asks an index and reads some files, and is refused nothing.
def quietGet [Crc32c] (index : Index) (files : FileSet) : GetAnswers :=
  ⟨⟨.healthy,0⟩,false,fun key => .ok index.user[key]?,readValue files,⟨.healthy,0⟩,.healthy⟩

-- The index behind two puts, and the files behind a third.
theorem get_reads_map_puts : ∃ begun moment c, Puts false begun moment c ∧
    (@quietGet castagnoli moment.log.storage.index c.log.storage.vlog).get [3] = .ok (some [4]) ∧
    (@quietGet castagnoli moment.log.storage.index c.log.storage.vlog).get [5] = .ok none := by
  obtain ⟨begun,moment,c,answered⟩ := puts false
  obtain ⟨opened,final,ran,serves,run,-,onward⟩ := answered.lives
  obtain ⟨doubt,inDoubt,reads⟩ := @get_reads_map castagnoli _ _ _ _ _ _ _ _ ran serves run
  obtain rfl := inDoubt.healthy answered.healthy.1
  have asks : @GetAnswers.Asks castagnoli (@quietGet castagnoli moment.log.storage.index c.log.storage.vlog)
      moment.log.storage.index c.log.storage.vlog :=
    @GetAnswers.Asks.mk castagnoli _ _ _ rfl (fun _ => rfl) (fun _ _ => rfl)
  refine ⟨begun,moment,c,answered,?_,?_⟩
  · exact ((reads _ c onward _ [3]).2.2 asks).trans rfl
  · exact ((reads _ c onward _ [5]).2.2 asks).trans rfl

section walking
variable [Crc32c] {format : FormatMetadata} {inventory : ManagedInventory} {start final : Storage}
  {opened viewed : CommitCoordinator} {base map : UserMap} {past : List Attempt}

-- The keys of the snapshot are the keys of the map.
theorem Serves.keys {files : FileSet} {index : Index} (serves : Serves files index map) (key : Bytes) :
    (∃ entry ∈ index.user.userEntries, entry.key = key) ↔ map key ≠ none := by
  constructor
  · intro listed
    obtain ⟨entry,member,rfl⟩ := listed
    simp only [Keyspace.userEntries,List.mem_map] at member
    obtain ⟨stored,there,rfl⟩ := member
    obtain ⟨value,here,-⟩ := serves.found (Std.ExtTreeMap.mem_toList_iff_getElem?_eq_some.mp there)
    rw [here]
    exact Option.some_ne_none value
  · intro present
    cases found : index.user[key]? with
    | none => exact absurd (serves.absent found) present
    | some pointer =>
      refine ⟨⟨key,pointer⟩,?_,rfl⟩
      simp only [Keyspace.userEntries,List.mem_map]
      exact ⟨(key,pointer),Std.ExtTreeMap.mem_toList_iff_getElem?_eq_some.mpr found,rfl⟩

-- What a cursor shows that goes on from call to call while the database is written to.
structure Walks (map : UserMap) (it : DbIterator) (position : Zipper IndexEntry) : Prop where
  valid : it.valid = position.current?.isSome
  key : it.key = position.current?.map IndexEntry.key
  value : it.value = it.key.bind map

theorem DbIterator.Shows.walks {files : FileSet} {index : Index} {it : DbIterator} {position : Zipper IndexEntry}
    (serves : Serves files index map) (shows : DbIterator.Shows (readValue files) it position)
    (within : position.Over index.user.userEntries) : Walks map it position := by
  refine ⟨shows.valid,shows.key,?_⟩
  rw [shows.value,shows.key]
  cases position with
  | unpositioned => rfl
  | exhausted => rfl
  | placed before current after =>
    have member : current ∈ index.user.userEntries := by
      rw [show index.user.userEntries = before.reverse ++ current :: after from within]
      exact List.mem_append_right _ List.mem_cons_self
    simp only [Keyspace.userEntries,List.mem_map] at member
    obtain ⟨stored,there,rfl⟩ := member
    obtain ⟨value,here,stands⟩ := serves.found (Std.ExtTreeMap.mem_toList_iff_getElem?_eq_some.mp there)
    simp only [Zipper.current?,Option.map_some,Option.bind_some]
    rw [here,show readValue files stored.2 stored.1 = .ok value from stands]
    rfl

-- An iterator walks the sorted keys of the map of the moment at which it was made, and shows the values of that map,
-- whatever is written between its calls.
theorem iterator_walks_map (ran : openPrepared format inventory start = .ok opened final)
    (serves : Serves final.vlog final.index base) (run : LiveRun opened past viewed) :
    ∃ doubt, InDoubt past viewed doubt ∧
      (∀ key, (∃ entry ∈ viewed.log.storage.index.user.userEntries, entry.key = key) ↔
        base.execute (answeredOperations past ++ doubt) key ≠ none) ∧
      viewed.log.storage.index.user.userEntries.Pairwise KeyBefore ∧
      ∀ more last, LiveRun viewed more last → ∀ operation (calls : List (CursorMove × CursorAnswers)),
        (∀ call ∈ calls, ∃ before reading after, LiveRun viewed before reading ∧ LiveRun reading after last ∧
          call.2.Reads (readValue reading.log.storage.vlog)) →
        let view := viewed.log.storage.index.user
        let it := (DbIterator.new view (view.iterUserRange .all) operation).runAll calls
        let position := Zipper.placeAll view.userEntries .unpositioned (calls.map Prod.fst)
        (it.state = .failed ∧ ∃ error, it.error = some error) ∨
          (position.Over view.userEntries ∧ Walks (base.execute (answeredOperations past ++ doubt)) it position) := by
  obtain ⟨grounded,storage⟩ := openPrepared_grounded ran
  obtain ⟨settled,doubt,inDoubt,served⟩ := run.serves grounded (by rw [storage]; exact serves)
  refine ⟨doubt,inDoubt,served.keys,Keyspace.userEntries_ordered _,?_⟩
  intro more last further operation calls moments view it position
  have later := served.extends settled.layout (settled.run further.instanceRun).2
  have reads : ∀ call ∈ calls, call.2.Reads (readValue last.log.storage.vlog) := by
    intro call member pointer key value read
    obtain ⟨before,reading,after,first,rest,answers⟩ := moments call member
    obtain ⟨middle,-⟩ := settled.run first.instanceRun
    have stands : reading.log.storage.vlog.Stands key pointer value := answers pointer key value read
    exact stands.extends middle.layout (middle.run rest.instanceRun).2
  rcases DbIterator.runAll_on calls reads (DbIterator.new_on view _ operation) with failed | on
  · exact .inl failed
  · exact .inr ⟨on.within,on.shows.walks later on.within⟩

end walking

-- An iterator over the index behind two puts, which reads the files behind a third.
theorem iterator_walks_map_puts : ∃ begun moment c, Puts false begun moment c ∧
    let view := moment.log.storage.index.user
    let calls := [CursorMove.seekToFirst,.next].map (·,DbIterator.healthyAnswers (@readValue castagnoli c.log.storage.vlog))
    let it := (DbIterator.new view (view.iterUserRange .all) .iterator).runAll calls
    it.state ≠ .failed ∧ it.key = some [3] ∧
      it.value = it.key.bind (UserMap.execute (fun _ => none) (answeredOperations askedPuts)) := by
  obtain ⟨begun,moment,c,answered⟩ := puts false
  obtain ⟨opened,final,ran,serves,run,-,onward⟩ := answered.lives
  have outcome : (threePuts false).map (fun (_,moment,c) =>
      let view := moment.log.storage.index.user
      let it := (DbIterator.new view (view.iterUserRange .all) .iterator).runAll
        ([CursorMove.seekToFirst,.next].map (·,DbIterator.healthyAnswers (@readValue castagnoli c.log.storage.vlog)))
      (decide (it.state = .failed),it.key)) = some (false,some [3]) := by decide +kernel
  rw [answered.answered,Option.map_some,Option.some.injEq,Prod.mk.injEq,decide_eq_false_iff_not] at outcome
  obtain ⟨doubt,inDoubt,-,-,walks⟩ := @iterator_walks_map castagnoli _ _ _ _ _ _ _ _ ran serves run
  obtain rfl := inDoubt.healthy answered.healthy.1
  have walked := walks _ c onward .iterator
    ([CursorMove.seekToFirst,.next].map (·,DbIterator.healthyAnswers (@readValue castagnoli c.log.storage.vlog))) (by
      intro call member
      obtain ⟨move,-,rfl⟩ := List.mem_map.mp member
      exact ⟨_,c,_,onward,@LiveRun.start castagnoli c,fun _ _ _ read => read⟩)
  rcases walked with ⟨failed,-⟩ | ⟨-,-,-,value⟩
  · exact absurd failed outcome.1
  · exact ⟨begun,moment,c,answered,outcome.1,outcome.2,value⟩

end ExpirKv
