import ExpirKv.Vlog.HandleCache

namespace ExpirKv

variable [Crc32c]

namespace HandleCaching

-- Where a call is: before its next critical section, or before the next answer of the system.
inductive Phase where
  | identity (fileId : Nat)
  | hit (fileId : Nat) (expected : FileIdentity)
  | openReadHandle (fileId : Nat) (expected : FileIdentity) (attempt : OpenAttempt)
  | clearForOpen (fileId : Nat) (expected : FileIdentity) (attempt : OpenAttempt)
  | validateCandidate (fileId : Nat) (expected : FileIdentity)
  | insertOrGet (fileId : Nat) (candidate : Handle)
  | evict (fileId : Nat)
  | clear
  | register (fileId : Nat)
  | unregister (fileId : Nat)
  | returned (fileId : Nat) (handle : Handle)
  | finished
  | failed (error : StorageError)
  deriving DecidableEq, Repr

-- `handle`, `evict` and `clear` of the file set, and the calls of its owner that change the catalog.
inductive Call where
  | handle (fileId : Nat)
  | evict (fileId : Nat)
  | clear
  | register (fileId : Nat)
  | unregister (fileId : Nat)
  deriving DecidableEq, Repr

def Call.phase : Call → Phase
  | .handle fileId => .identity fileId
  | .evict fileId => .evict fileId
  | .clear => .clear
  | .register fileId => .register fileId
  | .unregister fileId => .unregister fileId

def Phase.ended : Phase → Bool
  | .returned _ _ => true
  | .finished => true
  | .failed _ => true
  | _ => false

-- What has happened to the catalog and the cache. Nothing in the code reads it.
inductive CacheEvent where
  | registered (fileId : Nat) (identity : FileIdentity)
  | opened (handle : Handle) (fileId : Nat) (expected : FileIdentity) (file : OpenedFile)
  | hit (fileId : Nat) (answer : Option Handle)
  | insertOrGet (fileId : Nat) (candidate : Handle) (inserted : Inserted)
  | removed (fileId : Nat)
  | cleared

-- The past goes from the newest event to the oldest; `made` counts the handles.
structure Shared where
  files : FileSet
  made : Nat
  past : List CacheEvent

-- What the system answers to one step: whether an open is refused, and what the descriptor shows.
structure Answer where
  refused : Option IoError
  file : OpenedFile

namespace Shared

def withCatalog (s : Shared) (catalog : FileCatalog) : Shared := {s with files := {s.files with catalog}}

def withCache (s : Shared) (cache : ReadHandleCache) : Shared := {s with files := {s.files with readCache := cache}}

def note (s : Shared) (event : CacheEvent) : Shared := {s with past := event :: s.past}

def identity (s : Shared) (fileId : Nat) : Shared × Phase :=
  match s.files.catalog.identity fileId with
  | .error error => (s,.failed error)
  | .ok expected => (s,.hit fileId expected)

def hit (s : Shared) (fileId : Nat) (expected : FileIdentity) : Shared × Phase :=
  match s.files.readCache.hit fileId with
  | .error error => (s,.failed error)
  | .ok (some handle) => (s.note (.hit fileId (some handle)),.returned fileId handle)
  | .ok none => (s.note (.hit fileId none),.openReadHandle fileId expected .first)

def openReadHandle (refused : Option IoError) (fileId : Nat) (expected : FileIdentity) (attempt : OpenAttempt) : Phase :=
  match refused with
  | none => .validateCandidate fileId expected
  | some error =>
    match attempt.refused fileId error with
    | .again attempt => .openReadHandle fileId expected attempt
    | .clear attempt => .clearForOpen fileId expected attempt
    | .fail error => .failed error

-- `clear`, with what follows it.
def clear (s : Shared) (next : Phase) : Shared × Phase :=
  match s.files.readCache.clear with
  | .error error => (s,.failed error)
  | .ok cleared => ((s.withCache cleared.2).note .cleared,next)

def validateCandidate (s : Shared) (file : OpenedFile) (fileId : Nat) (expected : FileIdentity) : Shared × Phase :=
  match s.files.validateCandidate fileId expected file with
  | .error error => (s,.failed error)
  | .ok () =>
    ({s with made := s.made + 1,past := .opened s.made fileId expected file :: s.past},.insertOrGet fileId s.made)

def insertOrGet (s : Shared) (fileId : Nat) (candidate : Handle) : Shared × Phase :=
  match s.files.readCache.insertOrGet fileId candidate with
  | .error error => (s,.failed error)
  | .ok inserted =>
    ((s.withCache inserted.2).note (.insertOrGet fileId candidate inserted.1),
      .returned fileId (inserted.1.handle candidate))

def evict (s : Shared) (fileId : Nat) : Shared × Phase :=
  match s.files.readCache.remove fileId with
  | .error error => (s,.failed error)
  | .ok removed => ((s.withCache removed.2).note (.removed fileId),.finished)

def register (s : Shared) (file : OpenedFile) (fileId : Nat) : Shared × Phase :=
  match s.files.catalog.register fileId file.metadata with
  | .error error => (s,.failed error)
  | .ok registered => ((s.withCatalog registered.2).note (.registered fileId registered.1),.finished)

def unregister (s : Shared) (fileId : Nat) : Shared × Phase :=
  match s.files.catalog.unregister fileId with
  | .error error => (s,.failed error)
  | .ok catalog => (s.withCatalog catalog,.finished)

-- One step of a call; a call that has ended stays as it is.
def perform (s : Shared) (answer : Answer) : Phase → Shared × Phase
  | .identity fileId => s.identity fileId
  | .hit fileId expected => s.hit fileId expected
  | .openReadHandle fileId expected attempt => (s,openReadHandle answer.refused fileId expected attempt)
  | .clearForOpen fileId expected attempt => s.clear (.openReadHandle fileId expected attempt)
  | .validateCandidate fileId expected => s.validateCandidate answer.file fileId expected
  | .insertOrGet fileId candidate => s.insertOrGet fileId candidate
  | .evict fileId => s.evict fileId
  | .clear => s.clear .finished
  | .register fileId => s.register answer.file fileId
  | .unregister fileId => s.unregister fileId
  | .returned fileId handle => (s,.returned fileId handle)
  | .finished => (s,.finished)
  | .failed error => (s,.failed error)

end Shared

structure Machine where
  shared : Shared
  threads : Nat → Phase

namespace Machine

def new (files : FileSet) : Machine := ⟨⟨files,0,[]⟩,fun _ => .finished⟩

def withThread (m : Machine) (t : Nat) (next : Shared × Phase) : Machine :=
  ⟨next.1,Function.update m.threads t next.2⟩

def act (m : Machine) (t : Nat) (answer : Answer) : Machine :=
  m.withThread t (m.shared.perform answer (m.threads t))

theorem act_shared (m : Machine) (t : Nat) (answer : Answer) :
    (m.act t answer).shared = (m.shared.perform answer (m.threads t)).1 := rfl

theorem act_self (m : Machine) (t : Nat) (answer : Answer) :
    (m.act t answer).threads t = (m.shared.perform answer (m.threads t)).2 := Function.update_self ..

theorem act_other (m : Machine) {t u : Nat} (answer : Answer) (differ : u ≠ t) :
    (m.act t answer).threads u = m.threads u := Function.update_of_ne differ ..

inductive Step (m : Machine) : Machine → Prop
  | call {t : Nat} {call : Call} : (m.threads t).ended = true → Step m (m.withThread t (m.shared,call.phase))
  | act {t : Nat} {answer : Answer} : Step m (m.act t answer)

abbrev Runs : Machine → Machine → Prop := Relation.ReflTransGen Step

-- One schedule: the thread that moves next, with the call it makes or the answer it gets.
inductive Turn where
  | call (t : Nat) (call : Call)
  | act (t : Nat) (answer : Answer)

def move (m : Machine) : Turn → Option Machine
  | .call t call => if (m.threads t).ended then some (m.withThread t (m.shared,call.phase)) else none
  | .act t answer => some (m.act t answer)

def play (m : Machine) : List Turn → Option Machine
  | [] => some m
  | next :: rest => (m.move next).bind (fun m => m.play rest)

theorem move_step {m after : Machine} {next : Turn} (moved : m.move next = some after) : Step m after := by
  cases next with
  | call t call =>
    simp only [move] at moved
    split at moved
    · rename_i ended
      cases moved
      exact .call ended
    · cases moved
  | act t answer =>
    cases moved
    exact .act

theorem play_runs {schedule : List Turn} {m after : Machine} (played : m.play schedule = some after) :
    Runs m after := by
  induction schedule generalizing m with
  | nil =>
    cases played
    exact .refl
  | cons next rest ih =>
    obtain ⟨middle,moved,played⟩ := Option.bind_eq_some_iff.mp played
    exact .head (move_step moved) (ih played)

end Machine

end HandleCaching

end ExpirKv
