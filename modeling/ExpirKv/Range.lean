import ExpirKv.Cursor

namespace ExpirKv

namespace UserKeyRange

def forward (start stop : Option Bytes) : UserKeyRange :=
  ⟨match start with
    | some start => .included start
    | none => .unbounded,
   match stop with
    | some stop => .excluded stop
    | none => .unbounded⟩

end UserKeyRange

namespace DbIterator

def seekToFirstInInitialRange (it : DbIterator) (answers : CursorAnswers) : DbIterator := it.relocate answers .first
def nextInRange (it : DbIterator) (answers : CursorAnswers) : DbIterator := it.advance answers .forward
def status (it : DbIterator) : Option StorageError := it.error

end DbIterator

structure RangeCursor where
  inner : DbIterator
  stop : Option Bytes
  remaining : Nat

namespace RangeCursor

def valid (cursor : RangeCursor) : Bool := decide (cursor.remaining > 0) && cursor.inner.valid
def key (cursor : RangeCursor) : Option Bytes := if cursor.valid then cursor.inner.key else none
def value (cursor : RangeCursor) : Option Bytes := if cursor.valid then cursor.inner.value else none
def status (cursor : RangeCursor) : Option StorageError := cursor.inner.status

def enforceBoundary (cursor : RangeCursor) : RangeCursor :=
  if cursor.remaining = 0 then {cursor with inner := cursor.inner.exhaust}
  else match cursor.inner.key,cursor.stop with
    | some key,some stop =>
      if compare key stop ≠ .lt then {cursor with inner := cursor.inner.exhaust} else cursor
    | _,_ => cursor

def new (inner : DbIterator) (stop : Option Bytes) (remaining : Nat) : RangeCursor :=
  enforceBoundary ⟨inner,stop,remaining⟩

def next (cursor : RangeCursor) (answers : CursorAnswers) : RangeCursor :=
  if cursor.valid = false then cursor
  else
    let remaining := cursor.remaining - 1
    if remaining = 0 then {cursor with remaining,inner := cursor.inner.exhaust}
    else enforceBoundary {cursor with remaining,inner := cursor.inner.nextInRange answers}

end RangeCursor

-- What the rest of the database answers to `Db::range` itself, then to the first move of its cursor. The snapshot of the
-- options may belong to another database; the view is theirs or a new one.
structure RangeAnswers where
  opening : CursorAnswers
  foreignSnapshot : Bool
  endAllocated : Bool
  startAllocated : Bool
  view : Result Keyspace
  first : CursorAnswers

def invalidReadArgument (operation : Operation) (state : InstanceState) : StorageError :=
  .readOperationError .invalidArgument operation state .fixRequestAndRetrySameInstance

def validateRangeBound (bound : Option Bytes) (state : InstanceState) : Result Unit :=
  rejectIf (∃ bytes ∈ bound, bytes.isEmpty = false ∧ bytes.length > 60000) (invalidReadArgument .range state)

def cloneRangeBound (bound : Bytes) (allocated : Bool) (state : InstanceState) : Result Bytes := do
  rejectIf (allocated = false) (.readOperationError .resourceExhausted .range state .retrySameInstance)
  return bound

def cloneBound (bound : Option Bytes) (allocated : Bool) (state : InstanceState) : Result (Option Bytes) :=
  match bound with
  | none => .ok none
  | some bound => (cloneRangeBound bound allocated state).map some

-- Bounds between which no key can lie, and a limit of nothing.
def isEmptyRange (range : KeyRange) (limit : Nat) : Bool :=
  decide (limit = 0) ||
  (match range.startInclusive,range.endExclusive with
    | none,some stop => stop.isEmpty
    | _,_ => false) ||
  (match range.startInclusive,range.endExclusive with
    | some start,some stop => compare start stop != .lt
    | _,_ => false)

def dbRange (answers : RangeAnswers) (range : KeyRange) (limit : Nat) : Result RangeCursor := do
  let opening := answers.opening
  let state := opening.started.instanceState
  failWith opening.refused
  opening.beginRead .range
  validateRangeBound range.startInclusive state
  validateRangeBound range.endExclusive state
  rejectIf (answers.foreignSnapshot = true) (invalidReadArgument .range state)
  if isEmptyRange range limit = true then do
    opening.completeRead .range
    return .new (.empty .range) none 0
  else do
    let stop ← cloneBound range.endExclusive answers.endAllocated state
    let start ← cloneBound range.startInclusive answers.startAllocated state
    let view ← answers.view.mapError (opening.indexFailure .range)
    (failWith opening.createFails).mapError (opening.indexFailure .range)
    opening.completeRead .range
    let inner := DbIterator.new view (view.iterUserRange (.forward start stop)) .range
    return .new (inner.seekToFirstInInitialRange answers.first) stop limit

end ExpirKv
