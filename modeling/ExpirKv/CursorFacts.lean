import ExpirKv.Cursor

namespace ExpirKv

def KeyBefore (one two : IndexEntry) : Prop := compare one.key two.key = .lt

theorem Keyspace.userEntries_ordered (view : Keyspace) : view.userEntries.Pairwise KeyBefore := by
  have ordered := Std.ExtTreeMap.ordered_keys_toList (t := view)
  exact List.pairwise_map.mpr ordered

theorem Keyspace.iterUserRange_all (view : Keyspace) : view.iterUserRange .all = view.userEntries := by
  rw [iterUserRange,List.filter_eq_self]
  intro entry _
  rfl

theorem Keyspace.iterUserRange_from (view : Keyspace) (target : Bytes) :
    view.iterUserRange (.fromInclusive target) =
      view.userEntries.dropWhile (fun entry => compare entry.key target == .lt) := by
  rw [← Zipper.filter_not_below view.userEntries_ordered]
  · apply List.filter_congr
    intro entry _
    simp [UserKeyRange.contains,UserKeyRange.fromInclusive,bne]
  · intro one two before low
    rw [beq_iff_eq] at low ⊢
    exact Std.TransCmp.lt_trans before low

section sides
variable {view : Keyspace} {before after : List IndexEntry} {current : IndexEntry}

theorem Keyspace.iterUserRange_after (split : view.userEntries = before.reverse ++ current :: after) :
    view.iterUserRange (.after current.key) = after := by
  have ordered := view.userEntries_ordered
  rw [split] at ordered
  rw [iterUserRange,split]
  refine Zipper.filter_after ordered ?_ ?_ ?_
  · intro entry above
    have swapped : compare entry.key current.key = .gt := Std.OrientedCmp.gt_of_lt above
    simp [UserKeyRange.contains,UserKeyRange.after,swapped]
  · simp [UserKeyRange.contains,UserKeyRange.after]
  · intro entry below
    have lower : compare entry.key current.key = .lt := below
    simp [UserKeyRange.contains,UserKeyRange.after,lower]

theorem Keyspace.iterUserRange_before (split : view.userEntries = before.reverse ++ current :: after) :
    view.iterUserRange (.before current.key) = before.reverse := by
  have ordered := view.userEntries_ordered
  rw [split] at ordered
  rw [iterUserRange,split]
  refine Zipper.filter_before ordered ?_ ?_ ?_
  · intro entry above
    have swapped : compare entry.key current.key = .gt := Std.OrientedCmp.gt_of_lt above
    simp [UserKeyRange.contains,UserKeyRange.before,swapped]
  · simp [UserKeyRange.contains,UserKeyRange.before]
  · intro entry below
    have lower : compare entry.key current.key = .lt := below
    simp [UserKeyRange.contains,UserKeyRange.before,lower]

end sides

-- The answers agree with the values of the snapshot where they are given at all.
def CursorAnswers.Reads (answers : CursorAnswers) (values : Bytes → Bytes → Result Bytes) : Prop :=
  ∀ pointer key value, answers.readValue pointer key = .ok value → values pointer key = .ok value

namespace DbIterator

-- The backend iterator holds what lies ahead of the position in the direction of travel.
def Follows (view : Keyspace) (values : Bytes → Bytes → Result Bytes) (it : DbIterator) : Zipper IndexEntry → Prop
  | .unpositioned => it.state = .unpositioned ∧ it.direction = none ∧ it.iterator = some view.userEntries
  | .placed before current after => it.state = .valid ∧ it.currentKey = some current.key ∧
      (∃ value, it.currentValue = some value ∧ values current.value current.key = .ok value) ∧
      ((it.direction = some .forward ∧ it.iterator = some after) ∨
        (it.direction = some .reverse ∧ it.iterator = some before.reverse))
  | .exhausted => it.state = .exhausted

structure On (view : Keyspace) (values : Bytes → Bytes → Result Bytes) (it : DbIterator)
    (position : Zipper IndexEntry) : Prop where
  follows : Follows view values it position
  within : position.Over view.userEntries
  viewed : it.view = some view

section moves
variable {view : Keyspace} {values : Bytes → Bytes → Result Bytes} {it moved : DbIterator} {answers : CursorAnswers}
  {position : Zipper IndexEntry}

theorem On.running (on : On view values it position) : it.state ≠ .failed := by
  have follows := on.follows
  cases position with
  | unpositioned =>
    rw [follows.1]
    decide
  | placed before current after =>
    rw [follows.1]
    decide
  | exhausted =>
    rw [show it.state = .exhausted from follows]
    decide

theorem exhaust_on (running : it.state ≠ .failed) (viewed : it.view = some view) :
    On view values it.exhaust .exhausted := by
  rw [exhaust,if_neg running]
  exact ⟨rfl,trivial,viewed⟩

-- What one successful step of the backend iterator has gone through.
structure Stepped (answers : CursorAnswers) (position : Zipper IndexEntry) : Prop where
  step : answers.stepFails = none
  read : ∀ entry, position.current? = some entry → ∃ value, answers.readValue entry.value entry.key = .ok value

theorem consumeAdjacent_selected {entries rest : List IndexEntry} {direction : CursorDirection} {entry : IndexEntry}
    (holds : it.iterator = some entries) (selected : selectEntry entries direction = some (entry,rest))
    (consumed : it.consumeAdjacent answers direction = .ok moved) :
    answers.stepFails = none ∧ ∃ value, answers.readValue entry.value entry.key = .ok value ∧
      moved = {it with
        iterator := some rest,currentKey := some entry.key,currentValue := some value,error := none,state := .valid} := by
  cases fails : answers.stepFails with
  | some error =>
    simp [consumeAdjacent,holds,orError,fails,failWith,Except.mapError,bind,Except.bind] at consumed
  | none =>
    simp only [consumeAdjacent,holds,orError,fails,failWith,Except.mapError,ok_bind,selected] at consumed
    simp only [CursorAnswers.materializeIndexEntry,bind_ok,mapError_ok,exists_unit,pure_ok,Except.ok.injEq] at consumed
    obtain ⟨read,⟨value,found,-,rfl⟩,rfl⟩ := consumed
    exact ⟨rfl,value,found,rfl⟩

theorem consumeAdjacent_end {entries : List IndexEntry} {direction : CursorDirection}
    (holds : it.iterator = some entries) (selected : selectEntry entries direction = none)
    (consumed : it.consumeAdjacent answers direction = .ok moved) :
    answers.stepFails = none ∧ moved = it.exhaust := by
  cases fails : answers.stepFails with
  | some error =>
    simp [consumeAdjacent,holds,orError,fails,failWith,Except.mapError,bind,Except.bind] at consumed
  | none =>
    simp only [consumeAdjacent,holds,orError,fails,failWith,Except.mapError,ok_bind,selected] at consumed
    simp only [bind_ok,exists_unit,pure_ok,Except.ok.injEq] at consumed
    obtain ⟨-,rfl⟩ := consumed
    exact ⟨rfl,rfl⟩

theorem consumeAdjacent_forward {before after : List IndexEntry}
    (consumed : it.consumeAdjacent answers .forward = .ok moved) (reads : answers.Reads values)
    (running : it.state ≠ .failed) (viewed : it.view = some view) (heading : it.direction = some .forward)
    (holds : it.iterator = some after) (split : view.userEntries = before.reverse ++ after) :
    On view values moved (.ofFront before after) ∧ Stepped answers (.ofFront before after) := by
  cases after with
  | nil =>
    obtain ⟨fine,rfl⟩ := consumeAdjacent_end holds rfl consumed
    refine ⟨exhaust_on running viewed,⟨fine,?_⟩⟩
    intro entry found
    cases found
  | cons entry rest =>
    obtain ⟨fine,value,found,rfl⟩ := consumeAdjacent_selected holds rfl consumed
    refine ⟨⟨⟨rfl,rfl,⟨value,rfl,reads _ _ _ found⟩,.inl ⟨heading,rfl⟩⟩,split,viewed⟩,⟨fine,?_⟩⟩
    intro other same
    cases same
    exact ⟨value,found⟩

theorem consumeAdjacent_reverse {before after : List IndexEntry}
    (consumed : it.consumeAdjacent answers .reverse = .ok moved) (reads : answers.Reads values)
    (running : it.state ≠ .failed) (viewed : it.view = some view) (heading : it.direction = some .reverse)
    (holds : it.iterator = some before.reverse) (split : view.userEntries = before.reverse ++ after) :
    On view values moved (.ofBack after before) ∧ Stepped answers (.ofBack after before) := by
  cases before with
  | nil =>
    obtain ⟨fine,rfl⟩ := consumeAdjacent_end holds rfl consumed
    refine ⟨exhaust_on running viewed,⟨fine,?_⟩⟩
    intro entry found
    cases found
  | cons entry rest =>
    have selected : selectEntry (entry :: rest).reverse .reverse = some (entry,rest.reverse) := by
      simp [selectEntry]
    obtain ⟨fine,value,found,rfl⟩ := consumeAdjacent_selected holds selected consumed
    refine ⟨⟨⟨rfl,rfl,⟨value,rfl,reads _ _ _ found⟩,.inr ⟨heading,rfl⟩⟩,?_,viewed⟩,⟨fine,?_⟩⟩
    · rw [List.reverse_cons,List.append_assoc] at split
      exact split
    · intro other same
      cases same
      exact ⟨value,found⟩

theorem createIterator_ok {range : UserKeyRange} {made : Option (List IndexEntry)} (viewed : it.view = some view)
    (created : it.createIterator answers range = .ok made) :
    answers.createFails = none ∧ made = some (view.iterUserRange range) := by
  simp only [createIterator,viewed] at created
  cases fails : answers.createFails with
  | some error => simp [fails,failWith,Except.mapError,bind,Except.bind] at created
  | none =>
    simp only [fails,failWith,Except.mapError,ok_bind,pure_ok,Except.ok.injEq] at created
    exact ⟨rfl,created.symm⟩

-- Calls that need a new backend iterator.
def needsIterator (it : DbIterator) : CursorMove → Bool
  | .seek _ => true
  | .seekToFirst | .seekToLast => !decide (it.state = .unpositioned ∧ it.direction = none)
  | .next => it.direction != some .forward
  | .prev => it.direction != some .reverse

-- The initial iterator runs over all entries, as a new one would.
theorem locatedIterator_ok {range : UserKeyRange} {mayUseInitial : Bool} {made : Option (List IndexEntry)}
    (on : On view values it position) (whole : mayUseInitial = true → range = .all)
    (located : it.locatedIterator answers range mayUseInitial = .ok made) :
    made = some (view.iterUserRange range) ∧
      (¬(mayUseInitial = true ∧ it.state = .unpositioned ∧ it.direction = none) → answers.createFails = none) := by
  unfold locatedIterator at located
  by_cases initial : mayUseInitial = true ∧ it.state = .unpositioned ∧ it.direction = none
  · simp only [if_pos initial] at located
    have follows := on.follows
    cases position with
    | unpositioned =>
      rw [follows.2.2] at located
      cases located
      rw [whole initial.1,Keyspace.iterUserRange_all]
      exact ⟨rfl,fun no => absurd initial no⟩
    | placed before current after =>
      rw [follows.1] at initial
      cases initial.2.1
    | exhausted =>
      rw [show it.state = .exhausted from follows] at initial
      cases initial.2.1
  · simp only [if_neg initial] at located
    obtain ⟨fine,same⟩ := createIterator_ok on.viewed located
    exact ⟨same,fun _ => fine⟩

def placeTarget (entries : List IndexEntry) : CursorTarget → Zipper IndexEntry
  | .first => .first entries
  | .last => .last entries
  | .lowerBound target => .seek (fun entry => compare entry.key target == .lt) entries

theorem tryRelocate_on {target : CursorTarget} (reads : answers.Reads values) (on : On view values it position)
    (located : it.tryRelocate answers target = .ok moved) :
    On view values moved (placeTarget view.userEntries target) ∧
      Stepped answers (placeTarget view.userEntries target) ∧
      (¬((targetRange target).2.2 = true ∧ it.state = .unpositioned ∧ it.direction = none) →
        answers.createFails = none) := by
  simp only [tryRelocate,bind_ok,exists_unit] at located
  obtain ⟨-,-,-,made,found,located⟩ := located
  have whole : (targetRange target).2.2 = true → (targetRange target).1 = .all := by
    cases target with
    | first | last => exact fun _ => rfl
    | lowerBound target => exact fun no => by cases no
  obtain ⟨rfl,fine⟩ := locatedIterator_ok on whole found
  simp only at located
  cases target with
  | first =>
    have split : view.userEntries = ([] : List IndexEntry).reverse ++ view.iterUserRange .all := by
      rw [Keyspace.iterUserRange_all]
      rfl
    obtain ⟨on',stepped⟩ := consumeAdjacent_forward located reads on.running on.viewed rfl rfl split
    simp only [targetRange,Keyspace.iterUserRange_all] at on' stepped
    exact ⟨on',stepped,fine⟩
  | last =>
    have split : view.userEntries = view.userEntries.reverse.reverse ++ [] := by simp
    have holds : some (view.iterUserRange .all) = some view.userEntries.reverse.reverse := by
      rw [Keyspace.iterUserRange_all,List.reverse_reverse]
    obtain ⟨on',stepped⟩ := consumeAdjacent_reverse located reads on.running on.viewed rfl holds split
    exact ⟨on',stepped,fine⟩
  | lowerBound target =>
    have split : view.userEntries =
        (view.userEntries.takeWhile (fun entry => compare entry.key target == .lt)).reverse.reverse ++
          view.iterUserRange (.fromInclusive target) := by
      rw [Keyspace.iterUserRange_from,List.reverse_reverse,List.takeWhile_append_dropWhile]
    obtain ⟨on',stepped⟩ := consumeAdjacent_forward located reads on.running on.viewed rfl rfl split
    simp only [targetRange,Keyspace.iterUserRange_from] at on' stepped
    exact ⟨on',stepped,fine⟩

theorem tryAdvance_on {direction : CursorDirection} {before after : List IndexEntry} {current : IndexEntry}
    (reads : answers.Reads values) (on : On view values it (.placed before current after))
    (advanced : it.tryAdvance answers direction = .ok moved) :
    match direction with
    | .forward => On view values moved (.ofFront (current :: before) after) ∧
        Stepped answers (.ofFront (current :: before) after) ∧
        (it.direction ≠ some .forward → answers.createFails = none)
    | .reverse => On view values moved (.ofBack (current :: after) before) ∧
        Stepped answers (.ofBack (current :: after) before) ∧
        (it.direction ≠ some .reverse → answers.createFails = none) := by
  obtain ⟨⟨state,keyed,-,heading⟩,within,viewed⟩ := on
  have running : it.state ≠ .failed := by
    rw [state]
    decide
  have ahead : view.userEntries = (current :: before).reverse ++ after := by
    rw [List.reverse_cons,List.append_assoc]
    exact within
  simp only [tryAdvance,bind_ok,exists_unit,orError_ok] at advanced
  obtain ⟨-,-,_,same,advanced⟩ := advanced
  rw [keyed] at same
  cases same
  -- A turn asks for the entries on the other side of the current key; otherwise they are at hand.
  cases direction with
  | forward =>
    split at advanced
    · rename_i turned
      simp only [bind_ok] at advanced
      obtain ⟨made,created,advanced⟩ := advanced
      obtain ⟨fine,rfl⟩ := createIterator_ok viewed created
      have side := Keyspace.iterUserRange_after within
      simp only [turnedRange,side] at advanced
      obtain ⟨on',stepped⟩ := consumeAdjacent_forward advanced reads running viewed rfl rfl ahead
      exact ⟨on',stepped,fun _ => fine⟩
    · rename_i straight
      have straight : it.direction = some .forward := not_not.mp straight
      have holds : it.iterator = some after := by
        rcases heading with ⟨-,holds⟩ | ⟨reverse,-⟩
        · exact holds
        · rw [straight] at reverse
          cases reverse
      obtain ⟨on',stepped⟩ := consumeAdjacent_forward advanced reads running viewed straight holds ahead
      exact ⟨on',stepped,fun turned => absurd straight turned⟩
  | reverse =>
    split at advanced
    · rename_i turned
      simp only [bind_ok] at advanced
      obtain ⟨made,created,advanced⟩ := advanced
      obtain ⟨fine,rfl⟩ := createIterator_ok viewed created
      have side := Keyspace.iterUserRange_before within
      simp only [turnedRange,side] at advanced
      obtain ⟨on',stepped⟩ := consumeAdjacent_reverse advanced reads running viewed rfl rfl within
      exact ⟨on',stepped,fun _ => fine⟩
    · rename_i straight
      have straight : it.direction = some .reverse := not_not.mp straight
      have holds : it.iterator = some before.reverse := by
        rcases heading with ⟨forward,-⟩ | ⟨-,holds⟩
        · rw [straight] at forward
          cases forward
        · exact holds
      obtain ⟨on',stepped⟩ := consumeAdjacent_reverse advanced reads running viewed straight holds within
      exact ⟨on',stepped,fun turned => absurd straight turned⟩

-- A call that has anything to do.
def Acts (it : DbIterator) : CursorMove → Prop
  | .next | .prev => it.state = .valid
  | _ => True

theorem setFailure_failed (running : it.state ≠ .failed) (error : StorageError) :
    (it.setFailure error).state = .failed ∧ (it.setFailure error).error = some error := by
  rw [setFailure,if_neg running]
  exact ⟨rfl,rfl⟩

-- One call fails for good, or moves as the zipper does and met no failure.
theorem run_on (move : CursorMove) (reads : answers.Reads values) (on : On view values it position) :
    ((move.run it answers).state = .failed ∧ ∃ error, (move.run it answers).error = some error) ∨
    (On view values (move.run it answers) (move.place view.userEntries position) ∧
      (Acts it move → Stepped answers (move.place view.userEntries position) ∧
        (needsIterator it move = true → answers.createFails = none))) := by
  have running := on.running
  have relocates : ∀ {target : CursorTarget},
      ((it.relocate answers target).state = .failed ∧ ∃ error, (it.relocate answers target).error = some error) ∨
      (On view values (it.relocate answers target) (placeTarget view.userEntries target) ∧
        Stepped answers (placeTarget view.userEntries target) ∧
        (¬((targetRange target).2.2 = true ∧ it.state = .unpositioned ∧ it.direction = none) →
          answers.createFails = none)) := by
    intro target
    rw [relocate,if_neg running]
    cases located : it.tryRelocate answers target with
    | error error =>
      obtain ⟨failed,kept⟩ := setFailure_failed running error
      exact .inl ⟨failed,error,kept⟩
    | ok moved => exact .inr (tryRelocate_on reads on located)
  have idle : it.state ≠ .valid → ∀ direction, it.advance answers direction = it := by
    intro invalid direction
    rw [advance,if_pos invalid]
  have advances : ∀ {direction : CursorDirection} {moved : DbIterator},
      it.tryAdvance answers direction = .ok moved → it.state = .valid → it.advance answers direction = moved := by
    intro direction moved advanced valid
    rw [advance,if_neg (not_not.mpr valid),advanced]
    rfl
  have fails : ∀ {direction : CursorDirection} {error : StorageError},
      it.tryAdvance answers direction = .error error → it.state = .valid →
      (it.advance answers direction).state = .failed ∧ ∃ error, (it.advance answers direction).error = some error := by
    intro direction error advanced valid
    rw [advance,if_neg (not_not.mpr valid),advanced]
    obtain ⟨failed,kept⟩ := setFailure_failed running error
    exact ⟨failed,error,kept⟩
  cases move with
  | seekToFirst =>
    rcases @relocates .first with failed | ⟨on',stepped,fine⟩
    · exact .inl failed
    · exact .inr ⟨on',fun _ => ⟨stepped,fun needs => fine (by simpa [needsIterator,targetRange,imp_iff_not_or] using needs)⟩⟩
  | seekToLast =>
    rcases @relocates .last with failed | ⟨on',stepped,fine⟩
    · exact .inl failed
    · exact .inr ⟨on',fun _ => ⟨stepped,fun needs => fine (by simpa [needsIterator,targetRange,imp_iff_not_or] using needs)⟩⟩
  | seek target =>
    rcases @relocates (.lowerBound target) with failed | ⟨on',stepped,fine⟩
    · exact .inl failed
    · exact .inr ⟨on',fun _ => ⟨stepped,fun _ => fine (by simp [targetRange])⟩⟩
  | next =>
    cases position with
    | unpositioned | exhausted =>
      have invalid : it.state ≠ .valid := by
        have follows := on.follows
        simp only [Follows] at follows
        simp [follows]
      refine .inr ⟨?_,fun valid => absurd valid invalid⟩
      rw [CursorMove.run,DbIterator.next,idle invalid]
      exact on
    | placed before current after =>
      have valid := on.follows.1
      cases advanced : it.tryAdvance answers .forward with
      | error error => exact .inl (fails advanced valid)
      | ok moved =>
        obtain ⟨on',stepped,fine⟩ := tryAdvance_on reads on advanced
        rw [CursorMove.run,DbIterator.next,advances advanced valid]
        exact .inr ⟨on',fun _ => ⟨stepped,fun needs => fine (by simpa [needsIterator] using needs)⟩⟩
  | prev =>
    cases position with
    | unpositioned | exhausted =>
      have invalid : it.state ≠ .valid := by
        have follows := on.follows
        simp only [Follows] at follows
        simp [follows]
      refine .inr ⟨?_,fun valid => absurd valid invalid⟩
      rw [CursorMove.run,DbIterator.prev,idle invalid]
      exact on
    | placed before current after =>
      have valid := on.follows.1
      cases advanced : it.tryAdvance answers .reverse with
      | error error => exact .inl (fails advanced valid)
      | ok moved =>
        obtain ⟨on',stepped,fine⟩ := tryAdvance_on reads on advanced
        rw [CursorMove.run,DbIterator.prev,advances advanced valid]
        exact .inr ⟨on',fun _ => ⟨stepped,fun needs => fine (by simpa [needsIterator] using needs)⟩⟩

theorem run_failed (move : CursorMove) (failed : it.state = .failed) : move.run it answers = it := by
  have invalid : it.state ≠ .valid := by
    rw [failed]
    decide
  cases move <;>
    simp [CursorMove.run,seekToFirst,seekToLast,seek,next,prev,relocate,advance,failed]

theorem runAll_failed (calls : List (CursorMove × CursorAnswers)) (failed : it.state = .failed) :
    it.runAll calls = it := by
  induction calls with
  | nil => rfl
  | cons call rest ih => rw [runAll,run_failed call.1 failed,ih]

end moves

-- No call is refused, no allocation fails, the index and the value log answer.
structure Honest (values : Bytes → Bytes → Result Bytes) (answers : CursorAnswers) : Prop where
  admitted : answers.refused = none
  begins : beginReadAllowed answers.started = true
  allocates : answers.boundAllocated = true
  creates : answers.createFails = none
  steps : answers.stepFails = none
  reads : answers.readValue = values
  completes : completeReadAllowed answers.started answers.completed = true

def Dereferences (view : Keyspace) (values : Bytes → Bytes → Result Bytes) : Prop :=
  ∀ entry ∈ view.userEntries, ∃ value, values entry.value entry.key = .ok value

section honest
variable {view : Keyspace} {values : Bytes → Bytes → Result Bytes} {it : DbIterator} {answers : CursorAnswers}
  {position : Zipper IndexEntry}

theorem selectEntry_mem {entries rest : List IndexEntry} {direction : CursorDirection} {entry : IndexEntry}
    (selected : selectEntry entries direction = some (entry,rest)) : entry ∈ entries := by
  cases direction with
  | forward =>
    obtain ⟨found,taken,same⟩ := Option.map_eq_some_iff.mp selected
    cases same
    exact List.mem_of_head? taken
  | reverse =>
    obtain ⟨found,taken,same⟩ := Option.map_eq_some_iff.mp selected
    cases same
    exact List.mem_of_getLast? taken

theorem consumeAdjacent_honest {entries : List IndexEntry} {direction : CursorDirection}
    (honest : Honest values answers) (dereferences : Dereferences view values) (running : it.state ≠ .failed)
    (holds : it.iterator = some entries) (stored : ∀ entry ∈ entries, entry ∈ view.userEntries) :
    ∃ moved, it.consumeAdjacent answers direction = .ok moved ∧ moved.state ≠ .failed := by
  have completes : answers.completeRead it.operation = .ok () :=
    rejectIf_false (by rw [honest.completes]; decide)
  simp only [consumeAdjacent,holds,orError,honest.steps,failWith,Except.mapError,ok_bind]
  cases selected : selectEntry entries direction with
  | none =>
    refine ⟨it.exhaust,?_,?_⟩
    · simp only [completes,ok_bind,pure_ok]
    · rw [exhaust,if_neg running]
      exact fun no => by cases no
  | some taken =>
    obtain ⟨entry,rest⟩ := taken
    obtain ⟨value,read⟩ := dereferences entry (stored entry (selectEntry_mem selected))
    simp only [CursorAnswers.materializeIndexEntry,honest.reads,read,Except.mapError,ok_bind,completes,pure_ok]
    exact ⟨_,rfl,by simp⟩

theorem iterUserRange_stored (range : UserKeyRange) : ∀ entry ∈ view.iterUserRange range, entry ∈ view.userEntries :=
  fun _ member => (List.mem_filter.mp member).1

theorem createIterator_honest (honest : Honest values answers) (viewed : it.view = some view) (range : UserKeyRange) :
    it.createIterator answers range = .ok (some (view.iterUserRange range)) := by
  simp only [createIterator,viewed,honest.creates,failWith,Except.mapError,ok_bind,pure_ok]

theorem locatedIterator_honest (honest : Honest values answers) (on : On view values it position)
    (range : UserKeyRange) (mayUseInitial : Bool) :
    ∃ entries, it.locatedIterator answers range mayUseInitial = .ok (some entries) ∧
      ∀ entry ∈ entries, entry ∈ view.userEntries := by
  unfold locatedIterator
  by_cases initial : mayUseInitial = true ∧ it.state = .unpositioned ∧ it.direction = none
  · simp only [if_pos initial]
    have follows := on.follows
    cases position with
    | unpositioned =>
      rw [follows.2.2]
      exact ⟨_,rfl,fun _ member => member⟩
    | placed before current after =>
      rw [follows.1] at initial
      cases initial.2.1
    | exhausted =>
      rw [show it.state = .exhausted from follows] at initial
      cases initial.2.1
  · simp only [if_neg initial,createIterator_honest honest on.viewed]
    exact ⟨_,rfl,iterUserRange_stored range⟩

theorem tryRelocate_honest (honest : Honest values answers) (dereferences : Dereferences view values)
    (on : On view values it position) {target : CursorTarget}
    (short : ∀ bytes, target = .lowerBound bytes → bytes.length ≤ 60000) :
    ∃ moved, it.tryRelocate answers target = .ok moved ∧ moved.state ≠ .failed := by
  have begins : answers.beginRead it.operation = .ok () := rejectIf_false (by rw [honest.begins]; decide)
  have checked : it.checkTarget answers target = .ok () := by
    cases target with
    | first | last => rfl
    | lowerBound bytes =>
      have fits := short bytes rfl
      rw [checkTarget,rejectIf_false (by omega),ok_bind,rejectIf_false (by rw [honest.allocates]; decide)]
  obtain ⟨entries,located,stored⟩ :=
    locatedIterator_honest honest on (targetRange target).1 (targetRange target).2.2
  simp only [tryRelocate,honest.admitted,failWith,begins,checked,ok_bind,located]
  exact consumeAdjacent_honest honest dereferences on.running rfl stored

theorem tryAdvance_honest (honest : Honest values answers) (dereferences : Dereferences view values)
    {before after : List IndexEntry} {current : IndexEntry} (on : On view values it (.placed before current after))
    (direction : CursorDirection) :
    ∃ moved, it.tryAdvance answers direction = .ok moved ∧ moved.state ≠ .failed := by
  obtain ⟨⟨state,keyed,-,heading⟩,within,viewed⟩ := on
  have running : it.state ≠ .failed := by
    rw [state]
    decide
  have begins : answers.beginRead it.operation = .ok () := rejectIf_false (by rw [honest.begins]; decide)
  simp only [tryAdvance,honest.admitted,failWith,begins,ok_bind,keyed,orError]
  split
  · have created := createIterator_honest honest
      (show ({it with currentKey := none,currentValue := none} : DbIterator).view = some view from viewed)
      (turnedRange current.key direction)
    rw [created,ok_bind]
    exact consumeAdjacent_honest honest dereferences running rfl (iterUserRange_stored _)
  · rcases heading with ⟨-,holds⟩ | ⟨-,holds⟩
    · refine consumeAdjacent_honest honest dereferences running holds ?_
      intro entry member
      rw [within]
      exact List.mem_append_right _ (List.mem_cons_of_mem _ member)
    · refine consumeAdjacent_honest honest dereferences running holds ?_
      intro entry member
      rw [within]
      exact List.mem_append_left _ member

theorem run_honest (honest : Honest values answers) (dereferences : Dereferences view values)
    (on : On view values it position) {move : CursorMove}
    (short : ∀ target, move = .seek target → target.length ≤ 60000) : (move.run it answers).state ≠ .failed := by
  have running := on.running
  have relocates : ∀ target, (∀ bytes, target = .lowerBound bytes → bytes.length ≤ 60000) →
      (it.relocate answers target).state ≠ .failed := by
    intro target short
    obtain ⟨moved,located,fine⟩ := tryRelocate_honest honest dereferences on short
    rw [relocate,if_neg running,located]
    exact fine
  have advances : ∀ direction, (it.advance answers direction).state ≠ .failed := by
    intro direction
    by_cases valid : it.state = .valid
    · cases position with
      | placed before current after =>
        obtain ⟨moved,advanced,fine⟩ := tryAdvance_honest honest dereferences on direction
        rw [advance,if_neg (not_not.mpr valid),advanced]
        exact fine
      | unpositioned =>
        have state := on.follows.1
        rw [valid] at state
        cases state
      | exhausted =>
        have state : it.state = .exhausted := on.follows
        rw [valid] at state
        cases state
    · rw [advance,if_pos valid]
      exact running
  cases move with
  | seekToFirst => exact relocates .first (fun _ no => by cases no)
  | seekToLast => exact relocates .last (fun _ no => by cases no)
  | seek target => exact relocates (.lowerBound target) (fun _ same => by cases same; exact short target rfl)
  | next => exact advances .forward
  | prev => exact advances .reverse

end honest

-- What the cursor shows is what stands at a position of the sorted entries.
structure Shows (values : Bytes → Bytes → Result Bytes) (it : DbIterator) (position : Zipper IndexEntry) : Prop where
  valid : it.valid = position.current?.isSome
  key : it.key = position.current?.map IndexEntry.key
  value : it.value = position.current?.bind (fun entry => (values entry.value entry.key).toOption)
  unpositioned : it.state = .unpositioned ↔ position = .unpositioned
  exhausted : it.state = .exhausted ↔ position = .exhausted

theorem On.shows {view : Keyspace} {values : Bytes → Bytes → Result Bytes} {it : DbIterator}
    {position : Zipper IndexEntry} (on : On view values it position) : Shows values it position := by
  have follows := on.follows
  cases position with
  | unpositioned =>
    have invalid : it.valid = false := by simp [valid,follows.1]
    exact ⟨invalid,by simp [key,invalid,Zipper.current?],by simp [value,invalid,Zipper.current?],
      by simp [follows.1],by simp [follows.1]⟩
  | exhausted =>
    have state : it.state = .exhausted := follows
    have invalid : it.valid = false := by simp [valid,state]
    exact ⟨invalid,by simp [key,invalid,Zipper.current?],by simp [value,invalid,Zipper.current?],
      by simp [state],by simp [state]⟩
  | placed before current after =>
    obtain ⟨state,keyed,⟨read,valued,found⟩,-⟩ := follows
    have shown : it.valid = true := by simp [valid,state,keyed,valued]
    exact ⟨shown,by simp [key,shown,keyed,Zipper.current?],
      by simp [value,shown,valued,found,Zipper.current?,Except.toOption],by simp [state],by simp [state]⟩

theorem new_on (view : Keyspace) (values : Bytes → Bytes → Result Bytes) (operation : Operation) :
    On view values (new view (view.iterUserRange .all) operation) .unpositioned :=
  ⟨⟨rfl,rfl,congrArg some view.iterUserRange_all⟩,trivial,rfl⟩

-- The induction is over the calls: the cursor follows the zipper until it fails, and then stays.
theorem runAll_on {view : Keyspace} {values : Bytes → Bytes → Result Bytes} (calls : List (CursorMove × CursorAnswers))
    {it : DbIterator} {position : Zipper IndexEntry} (reads : ∀ call ∈ calls, call.2.Reads values)
    (on : On view values it position) :
    ((it.runAll calls).state = .failed ∧ ∃ error, (it.runAll calls).error = some error) ∨
      On view values (it.runAll calls) (Zipper.placeAll view.userEntries position (calls.map Prod.fst)) := by
  induction calls generalizing it position with
  | nil => exact .inr on
  | cons call rest ih =>
    have later : ∀ other ∈ rest, other.2.Reads values := fun other member => reads other (List.mem_cons_of_mem _ member)
    rcases run_on call.1 (reads call List.mem_cons_self) on with ⟨failed,kept⟩ | ⟨on',-⟩
    · rw [runAll,runAll_failed rest failed]
      exact .inl ⟨failed,kept⟩
    · exact ih later on'

theorem Honest.reads_values {values : Bytes → Bytes → Result Bytes} {answers : CursorAnswers}
    (honest : Honest values answers) : answers.Reads values := by
  intro pointer key value read
  rw [← honest.reads]
  exact read

theorem runAll_honest {view : Keyspace} {values : Bytes → Bytes → Result Bytes}
    (calls : List (CursorMove × CursorAnswers)) {it : DbIterator} {position : Zipper IndexEntry}
    (honest : ∀ call ∈ calls, Honest values call.2) (dereferences : Dereferences view values)
    (short : ∀ call ∈ calls, ∀ target, call.1 = .seek target → target.length ≤ 60000)
    (on : On view values it position) : (it.runAll calls).state ≠ .failed := by
  induction calls generalizing it position with
  | nil => exact on.running
  | cons call rest ih =>
    have fair := honest call List.mem_cons_self
    have fine := run_honest fair dereferences on (short call List.mem_cons_self)
    rcases run_on call.1 fair.reads_values on with ⟨failed,-⟩ | ⟨on',-⟩
    · exact absurd failed fine
    · exact ih (fun other member => honest other (List.mem_cons_of_mem _ member))
        (fun other member => short other (List.mem_cons_of_mem _ member)) on'

-- A failure the call runs into: of the index iterator, of making one, or of the value it lands on.
def Meets (it : DbIterator) (answers : CursorAnswers) (move : CursorMove) (landed : Zipper IndexEntry) : Prop :=
  answers.stepFails ≠ none ∨ (needsIterator it move = true ∧ answers.createFails ≠ none) ∨
    ∃ entry, landed.current? = some entry ∧ ∃ error, answers.readValue entry.value entry.key = .error error

theorem run_meets {view : Keyspace} {values : Bytes → Bytes → Result Bytes} {it : DbIterator}
    {position : Zipper IndexEntry} {move : CursorMove} {answers : CursorAnswers} (reads : answers.Reads values)
    (on : On view values it position) (acts : Acts it move)
    (meets : Meets it answers move (move.place view.userEntries position)) :
    (move.run it answers).state = .failed ∧ ∃ error, (move.run it answers).error = some error := by
  rcases run_on move reads on with failed | ⟨-,fine⟩
  · exact failed
  · obtain ⟨stepped,created⟩ := fine acts
    rcases meets with step | ⟨needs,creating⟩ | ⟨entry,standing,error,reading⟩
    · exact absurd stepped.step step
    · exact absurd (created needs) creating
    · obtain ⟨value,read⟩ := stepped.read entry standing
      rw [reading] at read
      cases read

theorem iterator_refines_zipper (view : Keyspace) (values : Bytes → Bytes → Result Bytes) (operation : Operation)
    (calls : List (CursorMove × CursorAnswers)) (reads : ∀ call ∈ calls, call.2.Reads values) :
    let it := (new view (view.iterUserRange .all) operation).runAll calls
    let position := Zipper.placeAll view.userEntries .unpositioned (calls.map Prod.fst)
    (Dereferences view values → (∀ call ∈ calls, Honest values call.2) →
      (∀ call ∈ calls, ∀ target, call.1 = .seek target → target.length ≤ 60000) → it.state ≠ .failed) ∧
    (it.state ≠ .failed → Shows values it position ∧ position.Over view.userEntries ∧
      ∀ move answers, answers.Reads values → Acts it move →
        Meets it answers move (move.place view.userEntries position) →
        (move.run it answers).state = .failed ∧ ∃ error, (move.run it answers).error = some error) ∧
    (it.state = .failed → (∃ error, it.error = some error) ∧ ∀ later, it.runAll later = it) := by
  intro it position
  have start := new_on view values operation
  refine ⟨fun dereferences honest short => runAll_honest calls honest dereferences short start,?_,?_⟩
  · intro running
    rcases runAll_on calls reads start with ⟨failed,-⟩ | on
    · exact absurd failed running
    · exact ⟨on.shows,on.within,fun move answers fair acts meets => run_meets fair on acts meets⟩
  · intro failed
    rcases runAll_on calls reads start with ⟨-,kept⟩ | on
    · exact ⟨kept,fun later => runAll_failed later failed⟩
    · exact absurd failed on.running

def healthyAnswers (values : Bytes → Bytes → Result Bytes) : CursorAnswers :=
  ⟨none,⟨.healthy,0⟩,true,none,none,values,⟨.healthy,0⟩,.healthy⟩

-- Two entries: forward, off the end, back in by a seek, turned around.
theorem iterator_refines_zipper_turning :
    let view : Keyspace := (Std.ExtTreeMap.empty.insert [1] [10]).insert [3] [30]
    let values : Bytes → Bytes → Result Bytes := fun pointer key => .ok (pointer ++ key)
    let calls := [CursorMove.seekToFirst,.next,.next,.next,.seek [2],.prev].map (·,healthyAnswers values)
    let it := (new view (view.iterUserRange .all) .iterator).runAll calls
    it.state ≠ .failed ∧ it.key = some [1] ∧ it.value = some [10,1] := by
  intro view values calls it
  have fair : ∀ call ∈ calls, call.2 = healthyAnswers values := by
    intro call member
    obtain ⟨move,-,rfl⟩ := List.mem_map.mp member
    rfl
  have reads : ∀ call ∈ calls, call.2.Reads values := by
    intro call member
    rw [fair call member]
    exact fun _ _ _ read => read
  obtain ⟨fine,shows,-⟩ := iterator_refines_zipper view values .iterator calls reads
  have running : it.state ≠ .failed := by
    refine fine (fun entry _ => ⟨_,rfl⟩) ?_ ?_
    · intro call member
      rw [fair call member]
      exact ⟨rfl,rfl,rfl,rfl,rfl,rfl,rfl⟩
    · intro call member target same
      obtain ⟨move,listed,rfl⟩ := List.mem_map.mp member
      simp only [List.mem_cons,List.not_mem_nil,or_false] at listed
      rcases listed with rfl | rfl | rfl | rfl | rfl | rfl <;> cases same
      simp
  obtain ⟨⟨-,key,value,-,-⟩,-,-⟩ := shows running
  have position : Zipper.placeAll view.userEntries .unpositioned (calls.map Prod.fst) =
      .placed [] ⟨[1],[10]⟩ [⟨[3],[30]⟩] := by
    decide +kernel
  rw [position] at key value
  exact ⟨running,key,value⟩

end DbIterator
end ExpirKv
