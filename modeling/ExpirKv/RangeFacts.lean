import ExpirKv.CursorFacts
import ExpirKv.Range

namespace ExpirKv

-- The entries of a view between two bounds.
def Keyspace.slice (view : Keyspace) (range : KeyRange) : List IndexEntry :=
  view.userEntries.filter (fun entry => range.contains entry.key)

theorem Keyspace.iterUserRange_forward (view : Keyspace) (range : KeyRange) :
    view.iterUserRange (.forward range.startInclusive range.endExclusive) = view.slice range := by
  obtain ⟨start,stop⟩ := range
  cases start <;> cases stop <;> rfl

theorem Keyspace.slice_ordered (view : Keyspace) (range : KeyRange) : (view.slice range).Pairwise KeyBefore :=
  view.userEntries_ordered.filter _

theorem Keyspace.slice_before {view : Keyspace} {range : KeyRange} {entry : IndexEntry} {stop : Bytes}
    (member : entry ∈ view.slice range) (bounded : range.endExclusive = some stop) : compare entry.key stop = .lt := by
  have inside := (List.mem_filter.mp member).2
  simp only [KeyRange.contains,bounded,Bool.and_eq_true,beq_iff_eq] at inside
  exact inside.2

-- The shortcut is taken only where there is nothing to serve.
theorem isEmptyRange_slice {view : Keyspace} {range : KeyRange} {limit : Nat} (empty : isEmptyRange range limit = true) :
    (view.slice range).take limit = [] := by
  by_cases zero : limit = 0
  · rw [zero,List.take_zero]
  · have none : view.slice range = [] := by
      rw [Keyspace.slice,List.filter_eq_nil_iff]
      intro entry _ inside
      obtain ⟨start,stop⟩ := range
      simp only [KeyRange.contains,Bool.and_eq_true] at inside
      obtain ⟨above,below⟩ := inside
      cases stop with
      | none => cases start <;> simp [isEmptyRange,zero] at empty
      | some stop =>
        have below : compare entry.key stop = .lt := beq_iff_eq.mp below
        cases start with
        | none =>
          have blank : stop = [] := by simpa [isEmptyRange,zero] using empty
          subst blank
          cases same : entry.key with
          | nil => rw [same] at below; exact absurd below (by decide)
          | cons first rest => rw [same] at below; cases below
        | some start =>
          have inverted : compare start stop ≠ .lt := by simpa [isEmptyRange,zero] using empty
          have low : compare entry.key start ≠ .lt := by simpa using above
          exact inverted (Std.TransCmp.lt_of_isLE_of_lt (Std.OrientedCmp.isLE_of_isGE (Ordering.isGE_iff_ne_lt.mpr low)) below)
    rw [none,List.take_nil]

-- A call that is admitted and finds the index in order; what it dereferences may still fail.
structure CursorAnswers.Calm (answers : CursorAnswers) : Prop where
  admitted : answers.refused = none
  begins : beginReadAllowed answers.started = true
  steps : answers.stepFails = none
  completes : completeReadAllowed answers.started answers.completed = true

namespace DbIterator

-- What stands on an entry and has the rest ahead.
structure Shown (it : DbIterator) (entry : IndexEntry) (value : Bytes) (rest : List IndexEntry) : Prop where
  state : it.state = .valid
  key : it.currentKey = some entry.key
  value : it.currentValue = some value
  heading : it.direction = some .forward
  holds : it.iterator = some rest
  fine : it.error = none
  operation : it.operation = .range

def Spent (it : DbIterator) : Prop := it.state = .exhausted ∧ it.error = none
def Broken (it : DbIterator) (error : StorageError) : Prop := it.state = .failed ∧ it.error = some error

def dereferenceFailure (answers : CursorAnswers) (error : StorageError) : StorageError :=
  handledReadFailure error .valueLog .range answers.failureState

-- Where a move over some entries leaves the iterator.
def Lands (answers : CursorAnswers) (moved : DbIterator) : List IndexEntry → Prop
  | [] => moved.Spent
  | entry :: rest =>
    (∀ value, answers.readValue entry.value entry.key = .ok value → moved.Shown entry value rest) ∧
    ∀ error, answers.readValue entry.value entry.key = .error error → moved.Broken (dereferenceFailure answers error)

section moves
variable {it : DbIterator} {answers : CursorAnswers} {entries : List IndexEntry}

theorem exhaust_spent (running : it.state ≠ .failed) : it.exhaust.Spent := by
  rw [exhaust,if_neg running]
  exact ⟨rfl,rfl⟩

theorem consumeAdjacent_lands (calm : answers.Calm) {whole : DbIterator} (holds : it.iterator = some entries)
    (heading : it.direction = some .forward) (running : it.state ≠ .failed) (outside : whole.state ≠ .failed)
    (operation : it.operation = .range) :
    Lands answers (whole.settle (it.consumeAdjacent answers .forward)) entries := by
  have completes : answers.completeRead it.operation = .ok () :=
    rejectIf_false (by rw [calm.completes]; decide)
  cases entries with
  | nil =>
    simp only [consumeAdjacent,holds,orError,calm.steps,failWith,Except.mapError,ok_bind,selectEntry,List.head?_nil,
      Option.map_none,completes,pure_ok,settle]
    exact exhaust_spent running
  | cons entry rest =>
    simp only [consumeAdjacent,holds,orError,calm.steps,failWith,Except.mapError,ok_bind,selectEntry,List.head?_cons,
      Option.map_some,List.tail_cons,CursorAnswers.materializeIndexEntry]
    refine ⟨?_,?_⟩
    · intro value read
      simp only [read,ok_bind,completes,pure_ok,settle]
      exact ⟨rfl,rfl,rfl,heading,rfl,rfl,operation⟩
    · intro error failed
      simp only [failed,error_bind,settle,operation]
      exact setFailure_failed outside _

theorem seekToFirstInInitialRange_lands (calm : answers.Calm) (view : Keyspace) (entries : List IndexEntry) :
    Lands answers ((new view entries .range).seekToFirstInInitialRange answers) entries := by
  have begins : answers.beginRead .range = .ok () := rejectIf_false (by rw [calm.begins]; decide)
  have located : (new view entries .range).tryRelocate answers .first =
      consumeAdjacent {(new view entries .range) with direction := some .forward} answers .forward := by
    simp only [tryRelocate,calm.admitted,failWith,ok_bind,new,begins,checkTarget,targetRange,locatedIterator,
      and_self,if_true]
  have running : (new view entries .range).state ≠ .failed := fun no => by cases no
  rw [seekToFirstInInitialRange,relocate,if_neg running,located]
  exact consumeAdjacent_lands calm rfl rfl (fun no => by cases no) (fun no => by cases no) rfl

theorem Shown.nextInRange_lands {entry : IndexEntry} {value : Bytes} {rest : List IndexEntry}
    (shown : it.Shown entry value rest) (calm : answers.Calm) : Lands answers (it.nextInRange answers) rest := by
  have running : it.state ≠ .failed := by
    rw [shown.state]
    decide
  have begins : answers.beginRead it.operation = .ok () := rejectIf_false (by rw [calm.begins]; decide)
  have advanced : it.tryAdvance answers .forward =
      consumeAdjacent {it with currentKey := none,currentValue := none} answers .forward := by
    simp only [tryAdvance,calm.admitted,failWith,ok_bind,begins,shown.key,orError]
    rw [if_neg (not_not.mpr shown.heading)]
  rw [nextInRange,advance,if_neg (not_not.mpr shown.state),advanced]
  exact consumeAdjacent_lands calm shown.holds shown.heading running running shown.operation

theorem Shown.valid {entry : IndexEntry} {value : Bytes} {rest : List IndexEntry} (shown : it.Shown entry value rest) :
    it.valid = true ∧ it.currentKey = some entry.key ∧ it.currentValue = some value :=
  ⟨by simp [DbIterator.valid,shown.state,shown.key,shown.value],shown.key,shown.value⟩

theorem Spent.invalid (spent : it.Spent) : it.valid = false := by
  simp [DbIterator.valid,spent.1]

theorem Broken.invalid {error : StorageError} (broken : it.Broken error) : it.valid = false := by
  simp [DbIterator.valid,broken.1]

end moves
end DbIterator

namespace RangeCursor

-- What a reader of the cursor sees.
def entry (cursor : RangeCursor) : Option (Bytes × Bytes) :=
  match cursor.key,cursor.value with
  | some key,some value => some (key,value)
  | _,_ => none

-- Call 0 is the first move, call `n` the move of the `n`th next.
def nexts (cursor : RangeCursor) (calls : Nat → CursorAnswers) : Nat → RangeCursor
  | 0 => cursor
  | n + 1 => (cursor.nexts calls n).next (calls (n + 1))

def Readable (calls : Nat → CursorAnswers) (entries : List IndexEntry) (n : Nat) : Prop :=
  ∀ i < n, ∀ entry, entries[i]? = some entry → ∃ value, (calls i).readValue entry.value entry.key = .ok value

-- Where the cursor stands behind `n` calls: on an entry, behind the last one, or where one could not be read.
inductive Standing (calls : Nat → CursorAnswers) (entries : List IndexEntry) (stop : Option Bytes) (limit n : Nat)
    (cursor : RangeCursor) : Prop
  | shows {entry : IndexEntry} {value : Bytes} :
      n < limit → entries[n]? = some entry → (calls n).readValue entry.value entry.key = .ok value →
      Readable calls entries n → cursor.remaining = limit - n → cursor.stop = stop →
      cursor.inner.Shown entry value (entries.drop (n + 1)) → Standing calls entries stop limit n cursor
  | ended : min limit entries.length ≤ n → Readable calls entries (min limit entries.length) → cursor.inner.Spent →
      Standing calls entries stop limit n cursor
  | failed {k : Nat} {entry : IndexEntry} {error : StorageError} :
      k ≤ n → k < limit → entries[k]? = some entry → (calls k).readValue entry.value entry.key = .error error →
      Readable calls entries k → cursor.inner.Broken (DbIterator.dereferenceFailure (calls k) error) →
      Standing calls entries stop limit n cursor

section standing
variable {calls : Nat → CursorAnswers} {entries : List IndexEntry} {stop : Option Bytes} {limit n : Nat}
  {cursor : RangeCursor}

-- The boundary never turns down an entry of the slice.
theorem enforceBoundary_standing {inner : DbIterator} (below : n < limit)
    (inside : ∀ entry ∈ entries, ∀ bound, stop = some bound → compare entry.key bound = .lt)
    (readable : Readable calls entries n) (lands : DbIterator.Lands (calls n) inner (entries.drop n)) :
    Standing calls entries stop limit n (enforceBoundary ⟨inner,stop,limit - n⟩) := by
  have left : (⟨inner,stop,limit - n⟩ : RangeCursor).remaining ≠ 0 := by
    simp only
    omega
  have passes : inner.valid = false → enforceBoundary ⟨inner,stop,limit - n⟩ = ⟨inner,stop,limit - n⟩ := by
    intro invalid
    rw [enforceBoundary,if_neg left]
    simp only [DbIterator.key,invalid]
    rfl
  cases found : entries[n]? with
  | none =>
    have past := List.getElem?_eq_none_iff.mp found
    rw [List.drop_eq_nil_of_le past] at lands
    rw [passes lands.invalid]
    refine .ended (by omega) ?_ lands
    intro i before
    exact readable i (by omega)
  | some entry =>
    obtain ⟨within,same⟩ := List.getElem?_eq_some_iff.mp found
    rw [List.drop_eq_getElem_cons within,same] at lands
    cases read : (calls n).readValue entry.value entry.key with
    | error error =>
      have broken := lands.2 error read
      rw [passes broken.invalid]
      exact .failed (Nat.le_refl n) below found read readable broken
    | ok value =>
      have shown := lands.1 value read
      have kept : enforceBoundary ⟨inner,stop,limit - n⟩ = ⟨inner,stop,limit - n⟩ := by
        rw [enforceBoundary,if_neg left]
        simp only [DbIterator.key,shown.valid.1,if_true,shown.key]
        cases bounded : stop with
        | none => rfl
        | some bound =>
          have member : entry ∈ entries := List.mem_of_getElem? found
          simp only [inside entry member bound bounded,ne_eq,not_true_eq_false,if_false]
      rw [kept]
      exact .shows below found read readable rfl rfl shown

theorem Standing.next (standing : Standing calls entries stop limit n cursor)
    (inside : ∀ entry ∈ entries, ∀ bound, stop = some bound → compare entry.key bound = .lt)
    (calm : (calls (n + 1)).Calm) : Standing calls entries stop limit (n + 1) (cursor.next (calls (n + 1))) := by
  cases standing with
  | shows below found read readable remaining bounded shown =>
    rename_i entry value
    have positive : cursor.remaining > 0 := by omega
    have valid : cursor.valid = true := by simp [RangeCursor.valid,positive,shown.valid.1]
    have further : Readable calls entries (n + 1) := by
      intro i before other same
      rcases Nat.lt_succ_iff_lt_or_eq.mp before with earlier | rfl
      · exact readable i earlier other same
      · rw [found] at same
        obtain rfl := Option.some.inj same
        exact ⟨value,read⟩
    rw [RangeCursor.next,if_neg (by rw [valid]; decide)]
    by_cases last : cursor.remaining - 1 = 0
    · simp only [last,if_true]
      refine .ended (by omega) ?_ (DbIterator.exhaust_spent (by rw [shown.state]; decide))
      intro i before
      exact further i (by omega)
    · simp only [last,if_false]
      have left : cursor.remaining - 1 = limit - (n + 1) := by omega
      rw [left,bounded]
      exact enforceBoundary_standing (by omega) inside further (shown.nextInRange_lands calm)
  | ended past readable spent =>
    have invalid : cursor.valid = false := by simp [RangeCursor.valid,spent.invalid]
    rw [RangeCursor.next,if_pos invalid]
    exact .ended (by omega) readable spent
  | failed reached below found failure readable broken =>
    have invalid : cursor.valid = false := by simp [RangeCursor.valid,broken.invalid]
    rw [RangeCursor.next,if_pos invalid]
    exact .failed (by omega) below found failure readable broken

theorem Standing.nexts (standing : Standing calls entries stop limit 0 cursor)
    (inside : ∀ entry ∈ entries, ∀ bound, stop = some bound → compare entry.key bound = .lt)
    (calm : ∀ n, (calls n).Calm) (n : Nat) : Standing calls entries stop limit n (cursor.nexts calls n) := by
  induction n with
  | zero => exact standing
  | succ n ih => exact ih.next inside (calm (n + 1))

-- A readable place is read, an unreadable one is not.
theorem Readable.clash {k : Nat} {entry : IndexEntry} {error : StorageError} (readable : Readable calls entries n)
    (before : k < n) (found : entries[k]? = some entry)
    (failure : (calls k).readValue entry.value entry.key = .error error) : False := by
  obtain ⟨value,read⟩ := readable k before entry found
  rw [failure] at read
  cases read

theorem entry_of_invalid (invalid : cursor.inner.valid = false) : cursor.valid = false ∧ cursor.entry = none := by
  have closed : cursor.valid = false := by simp [RangeCursor.valid,invalid]
  exact ⟨closed,by simp [entry,key,closed]⟩

theorem Standing.readable_shows {entry : IndexEntry} {value : Bytes} (standing : Standing calls entries stop limit n cursor)
    (below : n < limit) (found : entries[n]? = some entry)
    (read : (calls n).readValue entry.value entry.key = .ok value) (readable : Readable calls entries n) :
    cursor.valid = true ∧ cursor.entry = some (entry.key,value) ∧ cursor.status = none := by
  have within := (List.getElem?_eq_some_iff.mp found).1
  cases standing with
  | shows _ here same _ remaining _ shown =>
    rw [found] at here
    obtain rfl := Option.some.inj here
    rw [read] at same
    obtain rfl := Except.ok.inj same
    have positive : cursor.remaining > 0 := by omega
    have valid : cursor.valid = true := by simp [RangeCursor.valid,positive,shown.valid.1]
    refine ⟨valid,?_,shown.fine⟩
    simp only [RangeCursor.entry,RangeCursor.key,RangeCursor.value,valid,if_true,DbIterator.key,DbIterator.value,
      shown.valid.1,shown.key,shown.value]
  | ended past => omega
  | failed reached _ here failure _ _ =>
    rcases Nat.lt_or_eq_of_le reached with earlier | rfl
    · exact (readable.clash earlier here failure).elim
    · rw [found] at here
      obtain rfl := Option.some.inj here
      rw [read] at failure
      cases failure

theorem Standing.behind (standing : Standing calls entries stop limit n cursor) (past : min limit entries.length ≤ n)
    (readable : Readable calls entries (min limit entries.length)) :
    cursor.valid = false ∧ cursor.entry = none ∧ cursor.status = none := by
  cases standing with
  | shows below here =>
    have within := (List.getElem?_eq_some_iff.mp here).1
    omega
  | ended _ _ spent =>
    obtain ⟨invalid,none⟩ := entry_of_invalid spent.invalid
    exact ⟨invalid,none,spent.2⟩
  | failed _ below here failure =>
    have within := (List.getElem?_eq_some_iff.mp here).1
    exact (readable.clash (by omega) here failure).elim

theorem Standing.broken {k : Nat} {entry : IndexEntry} {error : StorageError}
    (standing : Standing calls entries stop limit n cursor) (reached : k ≤ n) (below : k < limit)
    (found : entries[k]? = some entry) (failure : (calls k).readValue entry.value entry.key = .error error)
    (readable : Readable calls entries k) :
    cursor.valid = false ∧ cursor.entry = none ∧
      cursor.status = some (DbIterator.dereferenceFailure (calls k) error) := by
  have within := (List.getElem?_eq_some_iff.mp found).1
  cases standing with
  | shows _ here read others =>
    rcases Nat.lt_or_eq_of_le reached with earlier | rfl
    · exact (others.clash earlier found failure).elim
    · rw [found] at here
      obtain rfl := Option.some.inj here
      rw [failure] at read
      cases read
  | ended past others => exact (others.clash (by omega) found failure).elim
  | failed early limited here other others broken =>
    rename_i first failed cause
    have same : first = k := by
      rcases Nat.lt_trichotomy first k with earlier | same | later
      · exact (readable.clash earlier here other).elim
      · exact same
      · exact (others.clash later found failure).elim
    subst same
    rw [found] at here
    obtain rfl := Option.some.inj here
    rw [failure] at other
    obtain rfl := Except.error.inj other
    obtain ⟨invalid,none⟩ := entry_of_invalid broken.invalid
    exact ⟨invalid,none,broken.2⟩

end standing
end RangeCursor

-- `Db::range` is admitted, its snapshot is its own, its bounds find memory and the index answers.
structure RangeAnswers.Calm (answers : RangeAnswers) (view : Keyspace) : Prop where
  opening : answers.opening.Calm
  own : answers.foreignSnapshot = false
  endAllocated : answers.endAllocated = true
  startAllocated : answers.startAllocated = true
  viewed : answers.view = .ok view
  creates : answers.opening.createFails = none

theorem validateRangeBound_ok {bound : Option Bytes} {state : InstanceState} (short : ∀ bytes ∈ bound, bytes.length ≤ 60000) :
    validateRangeBound bound state = .ok () := by
  refine rejectIf_false ?_
  intro refused
  obtain ⟨bytes,given,-,long⟩ := refused
  have bounded := short bytes given
  omega

theorem cloneBound_ok (bound : Option Bytes) (state : InstanceState) : cloneBound bound true state = .ok bound := by
  cases bound <;> rfl

theorem isEmptyRange_iff {range : KeyRange} {limit : Nat} :
    isEmptyRange range limit = true ↔ limit = 0 ∨ (range.startInclusive = none ∧ range.endExclusive = some []) ∨
      ∃ start stop, range.startInclusive = some start ∧ range.endExclusive = some stop ∧ compare start stop ≠ .lt := by
  obtain ⟨start,stop⟩ := range
  cases start <;> cases stop <;> simp [isEmptyRange]

-- The cursor of a range stands in front of its first call.
theorem dbRange_standing {answers : RangeAnswers} {view : Keyspace} {range : KeyRange} {limit : Nat}
    {calls : Nat → CursorAnswers} (calm : answers.Calm view)
    (shortStart : ∀ bytes ∈ range.startInclusive, bytes.length ≤ 60000)
    (shortEnd : ∀ bytes ∈ range.endExclusive, bytes.length ≤ 60000) (first : calls 0 = answers.first)
    (quiet : ∀ n, (calls n).Calm) :
    ∃ cursor, dbRange answers range limit = .ok cursor ∧
      RangeCursor.Standing calls (view.slice range) range.endExclusive limit 0 cursor := by
  have begins : answers.opening.beginRead .range = .ok () := rejectIf_false (by rw [calm.opening.begins]; decide)
  have completes : answers.opening.completeRead .range = .ok () :=
    rejectIf_false (by rw [calm.opening.completes]; decide)
  have own : rejectIf (answers.foreignSnapshot = true)
      (invalidReadArgument .range answers.opening.started.instanceState) = .ok () :=
    rejectIf_false (by rw [calm.own]; decide)
  simp only [dbRange,calm.opening.admitted,failWith,ok_bind,begins,validateRangeBound_ok shortStart,
    validateRangeBound_ok shortEnd,own]
  by_cases empty : isEmptyRange range limit = true
  · simp only [if_pos empty,completes,ok_bind,pure_ok]
    refine ⟨_,rfl,.ended ?_ ?_ ⟨rfl,rfl⟩⟩
    · have none := congrArg List.length (@isEmptyRange_slice view _ _ empty)
      simp only [List.length_take,List.length_nil] at none
      omega
    · have none := congrArg List.length (@isEmptyRange_slice view _ _ empty)
      simp only [List.length_take,List.length_nil] at none
      intro i before
      omega
  · have positive : limit ≠ 0 := fun zero => empty (isEmptyRange_iff.mpr (.inl zero))
    simp only [if_neg empty,calm.endAllocated,calm.startAllocated,cloneBound_ok,ok_bind,calm.viewed,Except.mapError,
      calm.creates,completes,pure_ok]
    refine ⟨_,rfl,?_⟩
    rw [Keyspace.iterUserRange_forward]
    refine RangeCursor.enforceBoundary_standing (Nat.pos_of_ne_zero positive) ?_ ?_ ?_
    · intro entry member bound bounded
      exact Keyspace.slice_before member bounded
    · intro i before
      exact absurd before (Nat.not_lt_zero i)
    · rw [← first,List.drop_zero]
      exact DbIterator.seekToFirstInInitialRange_lands (quiet 0) view (view.slice range)

theorem range_cursor_slice (answers : RangeAnswers) (view : Keyspace) (range : KeyRange) (limit : Nat)
    (calls : Nat → CursorAnswers) (calm : answers.Calm view)
    (shortStart : ∀ bytes ∈ range.startInclusive, bytes.length ≤ 60000)
    (shortEnd : ∀ bytes ∈ range.endExclusive, bytes.length ≤ 60000) (first : calls 0 = answers.first)
    (quiet : ∀ n, (calls n).Calm) :
    ∃ cursor, dbRange answers range limit = .ok cursor ∧
      let slice := (view.slice range).take limit
      slice.Pairwise KeyBefore ∧
      (limit = 0 ∨ (range.startInclusive = none ∧ range.endExclusive = some []) ∨
        (∃ start stop, range.startInclusive = some start ∧ range.endExclusive = some stop ∧
          compare start stop ≠ .lt) → slice = []) ∧
      (∀ n entry value, slice[n]? = some entry → (calls n).readValue entry.value entry.key = .ok value →
        RangeCursor.Readable calls slice n →
        (cursor.nexts calls n).valid = true ∧ (cursor.nexts calls n).entry = some (entry.key,value) ∧
          (cursor.nexts calls n).status = none) ∧
      (RangeCursor.Readable calls slice slice.length → ∀ n, slice.length ≤ n →
        (cursor.nexts calls n).valid = false ∧ (cursor.nexts calls n).entry = none ∧
          (cursor.nexts calls n).status = none) ∧
      ∀ k entry error, slice[k]? = some entry → (calls k).readValue entry.value entry.key = .error error →
        RangeCursor.Readable calls slice k → ∀ n, k ≤ n →
        (cursor.nexts calls n).valid = false ∧ (cursor.nexts calls n).entry = none ∧
          (cursor.nexts calls n).status = some (handledReadFailure error .valueLog .range (calls k).failureState) := by
  obtain ⟨cursor,made,standing⟩ := @dbRange_standing _ _ _ limit _ calm shortStart shortEnd first quiet
  have stands : ∀ n, RangeCursor.Standing calls (view.slice range) range.endExclusive limit n (cursor.nexts calls n) :=
    standing.nexts (fun entry member bound bounded => Keyspace.slice_before member bounded) quiet
  -- what is read of the first entries of the slice is read of the slice
  have readable : ∀ n, n ≤ limit → RangeCursor.Readable calls ((view.slice range).take limit) n →
      RangeCursor.Readable calls (view.slice range) n := by
    intro n within readable i before entry found
    refine readable i before entry ?_
    rw [List.getElem?_take,if_pos (by omega)]
    exact found
  have whole : ∀ {n : Nat} {entry : IndexEntry}, ((view.slice range).take limit)[n]? = some entry →
      n < limit ∧ (view.slice range)[n]? = some entry := by
    intro n entry found
    rw [List.getElem?_take] at found
    split at found
    · exact ⟨‹_›,found⟩
    · cases found
  refine ⟨cursor,made,?_⟩
  simp only
  refine ⟨(view.slice_ordered range).sublist (List.take_sublist _ _),?_,?_,?_,?_⟩
  · intro empty
    exact isEmptyRange_slice (isEmptyRange_iff.mpr empty)
  · intro n entry value found read before
    obtain ⟨below,found⟩ := whole found
    exact (stands n).readable_shows below found read (readable n (by omega) before)
  · rw [List.length_take]
    intro all n past
    exact (stands n).behind past (readable _ (Nat.min_le_left _ _) all)
  · intro k entry error found failure before n reached
    obtain ⟨below,found⟩ := whole found
    exact (stands n).broken reached below found failure (readable k (by omega) before)

-- Two of three entries lie between the bounds; the second cannot be read.
theorem range_cursor_slice_broken :
    let view : Keyspace := ((Std.ExtTreeMap.empty.insert [1] [10]).insert [3] [30]).insert [5] [50]
    let values : Bytes → Bytes → Result Bytes := fun pointer key =>
      if key = [5] then .error (decodeError .corruption) else .ok (pointer ++ key)
    let calls : Nat → CursorAnswers := fun _ => DbIterator.healthyAnswers values
    let answers : RangeAnswers := ⟨calls 0,false,true,true,.ok view,calls 0⟩
    ∃ cursor, dbRange answers ⟨some [2],some [6]⟩ 7 = .ok cursor ∧
      (cursor.nexts calls 0).entry = some ([3],[30,3]) ∧ (cursor.nexts calls 4).entry = none ∧
      (cursor.nexts calls 4).status = some (handledReadFailure (decodeError .corruption) .valueLog .range .healthy) := by
  intro view values calls answers
  have healthy : (DbIterator.healthyAnswers values).Calm := ⟨rfl,rfl,rfl,rfl⟩
  have calm : answers.Calm view := ⟨healthy,rfl,rfl,rfl,rfl,rfl⟩
  have short : ∀ byte : UInt8, ∀ bytes ∈ some [byte], bytes.length ≤ 60000 := by
    intro byte bytes same
    obtain rfl := Option.some.inj same
    exact Nat.le_add_left 1 59999
  have slice : (view.slice ⟨some [2],some [6]⟩).take 7 = [⟨[3],[30]⟩,⟨[5],[50]⟩] := by
    decide +kernel
  obtain ⟨cursor,made,-,-,shows,-,broken⟩ :=
    range_cursor_slice answers view ⟨some [2],some [6]⟩ 7 calls calm (short 2) (short 6) rfl (fun _ => healthy)
  rw [slice] at shows broken
  have second : RangeCursor.Readable calls [⟨[3],[30]⟩,⟨[5],[50]⟩] 1 := by
    intro i before entry found
    obtain rfl : i = 0 := by omega
    obtain rfl := Option.some.inj found
    exact ⟨[30,3],rfl⟩
  have first : RangeCursor.Readable calls [⟨[3],[30]⟩,⟨[5],[50]⟩] 0 := fun i before => absurd before (Nat.not_lt_zero i)
  have failed := broken 1 ⟨[5],[50]⟩ (decodeError .corruption) rfl rfl second 4 (by decide)
  exact ⟨cursor,made,(shows 0 ⟨[3],[30]⟩ [30,3] rfl rfl first).2.1,failed.2⟩

end ExpirKv
