import ExpirKv.Library.Keyspace
import ExpirKv.Library.Zipper
import ExpirKv.Runtime.State

namespace ExpirKv

structure IndexEntry where
  key : Bytes
  value : Bytes
  deriving DecidableEq, Repr

inductive KeyBound where
  | included (key : Bytes)
  | excluded (key : Bytes)
  | unbounded
  deriving DecidableEq, Repr

structure UserKeyRange where
  start : KeyBound
  stop : KeyBound
  deriving DecidableEq, Repr

namespace UserKeyRange

def all : UserKeyRange := ⟨.unbounded,.unbounded⟩
def fromInclusive (start : Bytes) : UserKeyRange := ⟨.included start,.unbounded⟩
def after (start : Bytes) : UserKeyRange := ⟨.excluded start,.unbounded⟩
def before (stop : Bytes) : UserKeyRange := ⟨.unbounded,.excluded stop⟩

def contains (range : UserKeyRange) (key : Bytes) : Bool :=
  (match range.start with
    | .included start => compare key start != .lt
    | .excluded start => compare key start == .gt
    | .unbounded => true) &&
  (match range.stop with
    | .included stop => compare key stop != .gt
    | .excluded stop => compare key stop == .lt
    | .unbounded => true)

end UserKeyRange

-- The user entries of a snapshot in key order. A backend iterator is what it has left.
def Keyspace.userEntries (view : Keyspace) : List IndexEntry :=
  view.toList.map (fun entry => ⟨entry.1,entry.2⟩)

def Keyspace.iterUserRange (view : Keyspace) (range : UserKeyRange) : List IndexEntry :=
  view.userEntries.filter (fun entry => range.contains entry.key)

inductive CursorState where
  | unpositioned
  | valid
  | exhausted
  | failed
  deriving DecidableEq, Repr

inductive CursorDirection where
  | forward
  | reverse
  deriving DecidableEq, Repr

inductive CursorTarget where
  | first
  | last
  | lowerBound (target : Bytes)
  deriving DecidableEq, Repr

-- What the rest of the database answers during one call of the cursor: a refused
-- operation, the states the call loads, and the failures of the index and the value log.
structure CursorAnswers where
  refused : Option StorageError
  started : StateSnapshot
  boundAllocated : Bool
  createFails : Option StorageError
  stepFails : Option StorageError
  readValue : Bytes → Bytes → Result Bytes
  completed : StateSnapshot
  failureState : InstanceState

def poisonedReadError (operation : Operation) : StorageError :=
  .readOperationError .storagePoisoned operation .poisoned .reopenAndVerify

def cursorInvariantError (operation : Operation) : StorageError :=
  .readOperationError .storagePoisoned operation .poisoned .reopenAndVerify

-- `handle_read_failure`: the advice is the one for the state the instance is left in.
def handledReadFailure (error : StorageError) (domain : ReadFailureDomain) (operation : Operation)
    (state : InstanceState) : StorageError :=
  {error with
    operation
    protocolStage := .read
    writeOutcome := none
    instanceState := some state
    retryAdvice := readRetryAdvice domain error.kind state}

def failWith : Option StorageError → Result Unit
  | some error => .error error
  | none => .ok ()

namespace CursorAnswers

def beginRead (answers : CursorAnswers) (operation : Operation) : Result Unit :=
  rejectIf (beginReadAllowed answers.started = false) (poisonedReadError operation)

def completeRead (answers : CursorAnswers) (operation : Operation) : Result Unit :=
  rejectIf (completeReadAllowed answers.started answers.completed = false) (poisonedReadError operation)

def indexFailure (answers : CursorAnswers) (operation : Operation) (error : StorageError) : StorageError :=
  handledReadFailure error .index operation answers.failureState

def materializeIndexEntry (answers : CursorAnswers) (operation : Operation) (entry : IndexEntry) :
    Result (Bytes × Bytes) := do
  let value ← (answers.readValue entry.value entry.key).mapError
    (fun error => handledReadFailure error .valueLog operation answers.failureState)
  answers.completeRead operation
  return (entry.key,value)

end CursorAnswers

structure DbIterator where
  iterator : Option (List IndexEntry)
  view : Option Keyspace
  operation : Operation
  state : CursorState
  direction : Option CursorDirection
  currentKey : Option Bytes
  currentValue : Option Bytes
  error : Option StorageError

namespace DbIterator

def new (view : Keyspace) (initialIterator : List IndexEntry) (operation : Operation) : DbIterator :=
  ⟨some initialIterator,some view,operation,.unpositioned,none,none,none,none⟩

def empty (operation : Operation) : DbIterator := ⟨none,none,operation,.exhausted,none,none,none,none⟩

def valid (it : DbIterator) : Bool :=
  it.state == .valid && it.currentKey.isSome && it.currentValue.isSome

def key (it : DbIterator) : Option Bytes := if it.valid then it.currentKey else none
def value (it : DbIterator) : Option Bytes := if it.valid then it.currentValue else none

def setFailure (it : DbIterator) (error : StorageError) : DbIterator :=
  if it.state = .failed then it
  else {it with
    currentKey := none
    currentValue := none
    iterator := none
    direction := none
    error := some error
    state := .failed}

def exhaust (it : DbIterator) : DbIterator :=
  if it.state = .failed then it
  else {it with
    currentKey := none
    currentValue := none
    iterator := none
    direction := none
    error := none
    state := .exhausted}

def createIterator (it : DbIterator) (answers : CursorAnswers) (range : UserKeyRange) :
    Result (Option (List IndexEntry)) :=
  match it.view with
  | none => .ok none
  | some view => do
    (failWith answers.createFails).mapError (answers.indexFailure it.operation)
    return some (view.iterUserRange range)

-- `select_entry`: the entry taken from one end, and the iterator without it.
def selectEntry (entries : List IndexEntry) : CursorDirection → Option (IndexEntry × List IndexEntry)
  | .forward => entries.head?.map (fun entry => (entry,entries.tail))
  | .reverse => entries.getLast?.map (fun entry => (entry,entries.dropLast))

-- Every error below ends in `set_failure`, which forgets what was done to the cursor before it.
def consumeAdjacent (it : DbIterator) (answers : CursorAnswers) (direction : CursorDirection) : Result DbIterator := do
  let entries ← (orError it.iterator (cursorInvariantError it.operation)).mapError (answers.indexFailure it.operation)
  (failWith answers.stepFails).mapError (answers.indexFailure it.operation)
  match selectEntry entries direction with
  | none => do
    answers.completeRead it.operation
    return it.exhaust
  | some (entry,rest) => do
    let read ← answers.materializeIndexEntry it.operation entry
    return {it with
      iterator := some rest
      currentKey := some read.1
      currentValue := some read.2
      error := none
      state := .valid}

def checkTarget (it : DbIterator) (answers : CursorAnswers) : CursorTarget → Result Unit
  | .lowerBound target => do
    rejectIf (target.isEmpty = false ∧ target.length > 60000)
      (.readOperationError .invalidArgument it.operation answers.started.instanceState .fixRequestAndRetrySameInstance)
    rejectIf (answers.boundAllocated = false)
      (.readOperationError .resourceExhausted it.operation answers.started.instanceState .retrySameInstance)
  | _ => .ok ()

def targetRange : CursorTarget → UserKeyRange × CursorDirection × Bool
  | .first => (.all,.forward,true)
  | .last => (.all,.reverse,true)
  | .lowerBound target => (.fromInclusive target,.forward,false)

-- The initial iterator serves the first `First` or `Last` only.
def locatedIterator (it : DbIterator) (answers : CursorAnswers) (range : UserKeyRange) (mayUseInitial : Bool) :
    Result (Option (List IndexEntry)) :=
  match if mayUseInitial = true ∧ it.state = .unpositioned ∧ it.direction = none then it.iterator else none with
  | some entries => .ok (some entries)
  | none => it.createIterator answers range

def tryRelocate (it : DbIterator) (answers : CursorAnswers) (target : CursorTarget) : Result DbIterator := do
  failWith answers.refused
  answers.beginRead it.operation
  it.checkTarget answers target
  let plan := targetRange target
  match ← it.locatedIterator answers plan.1 plan.2.2 with
  | none => return it.exhaust
  | some entries =>
    consumeAdjacent {it with
      iterator := some entries
      direction := some plan.2.1
      currentKey := none
      currentValue := none} answers plan.2.1

def turnedRange (current : Bytes) : CursorDirection → UserKeyRange
  | .forward => .after current
  | .reverse => .before current

def tryAdvance (it : DbIterator) (answers : CursorAnswers) (direction : CursorDirection) : Result DbIterator := do
  failWith answers.refused
  answers.beginRead it.operation
  let current ← orError it.currentKey (cursorInvariantError it.operation)
  let it : DbIterator := {it with currentKey := none,currentValue := none}
  if it.direction ≠ some direction then
    match ← it.createIterator answers (turnedRange current direction) with
    | none => return it.exhaust
    | some entries => consumeAdjacent {it with iterator := some entries,direction := some direction} answers direction
  else it.consumeAdjacent answers direction

def settle (it : DbIterator) : Result DbIterator → DbIterator
  | .ok moved => moved
  | .error error => it.setFailure error

def relocate (it : DbIterator) (answers : CursorAnswers) (target : CursorTarget) : DbIterator :=
  if it.state = .failed then it else it.settle (it.tryRelocate answers target)

def advance (it : DbIterator) (answers : CursorAnswers) (direction : CursorDirection) : DbIterator :=
  if it.state ≠ .valid then it else it.settle (it.tryAdvance answers direction)

def seekToFirst (it : DbIterator) (answers : CursorAnswers) : DbIterator := it.relocate answers .first
def seekToLast (it : DbIterator) (answers : CursorAnswers) : DbIterator := it.relocate answers .last
def seek (it : DbIterator) (answers : CursorAnswers) (target : Bytes) : DbIterator :=
  it.relocate answers (.lowerBound target)
def next (it : DbIterator) (answers : CursorAnswers) : DbIterator := it.advance answers .forward
def prev (it : DbIterator) (answers : CursorAnswers) : DbIterator := it.advance answers .reverse

end DbIterator

inductive CursorMove where
  | seekToFirst
  | seekToLast
  | seek (target : Bytes)
  | next
  | prev
  deriving DecidableEq, Repr

namespace CursorMove

def run (it : DbIterator) (answers : CursorAnswers) : CursorMove → DbIterator
  | .seekToFirst => it.seekToFirst answers
  | .seekToLast => it.seekToLast answers
  | .seek target => it.seek answers target
  | .next => it.next answers
  | .prev => it.prev answers

-- What the call is for: a position in the sorted entries.
def place (entries : List IndexEntry) (position : Zipper IndexEntry) : CursorMove → Zipper IndexEntry
  | .seekToFirst => .first entries
  | .seekToLast => .last entries
  | .seek target => .seek (fun entry => compare entry.key target == .lt) entries
  | .next => position.next
  | .prev => position.prev

end CursorMove

def DbIterator.runAll (it : DbIterator) : List (CursorMove × CursorAnswers) → DbIterator
  | [] => it
  | (move,answers) :: rest => (move.run it answers).runAll rest

def Zipper.placeAll (entries : List IndexEntry) (position : Zipper IndexEntry) :
    List CursorMove → Zipper IndexEntry
  | [] => position
  | move :: rest => placeAll entries (move.place entries position) rest

end ExpirKv
