import ExpirKv.Library.Retries
import ExpirKv.Vlog.Writer

namespace ExpirKv

-- The loops around a call of the system, over whatever makes the call: `&dyn WriterIo`, the closure of a positioned read,
-- the opener of a handle.
namespace Retrying
variable {σ τ α : Type}

@[simp] abbrev transientOpenRetryLimit : Nat := 3
@[simp] abbrev emfile : Int := 24
@[simp] abbrev enfile : Int := 23
@[simp] abbrev eloop : Int := 40

def writeOffsetOverflow : IoError := ⟨.other,none⟩
def writeLengthOverflow : IoError := ⟨.other,none⟩
def invalidShortWrite : IoError := ⟨.other,none⟩

def writeAllPositioned (writeAt : Bytes → Nat → Eff σ IoError Nat) (start : Nat) (bytes : Bytes)
    (written interruptedAttempts transientAttempts : Nat) : Eff σ (Nat × IoError) Nat :=
  if bytes.isEmpty then return written
  else if start + written ≥ 18446744073709551616 then throw (written,writeOffsetOverflow)
  else do
    match ← (writeAt bytes (start + written)).attempt with
    | .ok 0 => throw (written,⟨.writeZero,none⟩)
    | .ok (count + 1) =>
      if count + 1 ≤ bytes.length then
        if written + (count + 1) ≥ 18446744073709551616 then throw (written,writeLengthOverflow)
        else writeAllPositioned writeAt start (bytes.drop (count + 1)) (written + (count + 1)) 0 0
      else throw (written,invalidShortWrite)
    | .error error =>
      if error.kind = .interrupted ∧ interruptedAttempts < eintrRetryLimit then
        writeAllPositioned writeAt start bytes written (interruptedAttempts + 1) transientAttempts
      else if error.kind = .wouldBlock ∧ transientAttempts < eagainRetryLimit then
        writeAllPositioned writeAt start bytes written interruptedAttempts (transientAttempts + 1)
      else throw (written,error)
termination_by bytes.length * 12 + (eintrRetryLimit - interruptedAttempts) + (eagainRetryLimit - transientAttempts)
decreasing_by
  all_goals simp only [eintrRetryLimit,eagainRetryLimit,List.length_drop] at *
  all_goals omega

def readIo (fileId : Nat) (offset : Option Nat) (error : IoError) : StorageError :=
  {(Storage.readIo fileId error) with vlogOffset := offset}

-- A read reports a count and leaves that many bytes in front of the buffer; the buffer is what is filled so far and how
-- much of it remains.
def readExactAtImpl (readAt : Nat → Nat → Eff σ IoError (Nat × Bytes)) (fileId : Nat) (filled : Bytes)
    (remaining offset interruptedAttempts transientAttempts : Nat) : Eff σ StorageError Bytes :=
  if remaining = 0 then return filled
  else do
    match ← (readAt remaining offset).attempt with
    | .ok (0,_) => throw (readCorruption fileId (some offset))
    | .ok (count + 1,part) =>
      if offset + (count + 1) ≥ 18446744073709551616 then throw (readCorruption fileId (some offset))
      else if count + 1 ≤ remaining then
        readExactAtImpl readAt fileId (filled ++ part) (remaining - (count + 1)) (offset + (count + 1)) 0 0
      else throw (readCorruption fileId (some (offset + (count + 1))))
    | .error error =>
      if error.kind = .interrupted ∧ interruptedAttempts < eintrRetryLimit then
        readExactAtImpl readAt fileId filled remaining offset (interruptedAttempts + 1) transientAttempts
      else if error.kind = .wouldBlock ∧ transientAttempts < transientOpenRetryLimit then
        readExactAtImpl readAt fileId filled remaining offset interruptedAttempts (transientAttempts + 1)
      else throw (readIo fileId (some offset) error)
termination_by remaining * 12 + (eintrRetryLimit - interruptedAttempts) + (transientOpenRetryLimit - transientAttempts)
decreasing_by
  all_goals simp only [eintrRetryLimit,transientOpenRetryLimit] at *
  all_goals omega

def classifyOpenError (fileId : Nat) (error : IoError) : StorageError :=
  if error.kind = .notFound ∨ error.rawOsError = some eloop then readCorruption fileId none
  else
    let exhausted : Bool := decide (error.rawOsError = some emfile ∨ error.rawOsError = some enfile ∨
      error.kind = .wouldBlock ∨ error.kind = .interrupted)
    {(StorageError.codecError (if exhausted then .resourceExhausted else .io) .get .read none
        (if exhausted then .retrySameInstance else .fixEnvironmentAndReopen)) with
      osCode := error.rawOsError, vlogFileId := some fileId}

-- `clear` empties the handle cache.
def openCandidate (openReadHandle : Eff σ IoError α) (validateCandidate : α → Eff σ StorageError Unit)
    (clear : Eff σ StorageError Unit) (fileId : Nat) (emfileRetried : Bool)
    (interruptedAttempts transientAttempts : Nat) : Eff σ StorageError α := do
  match ← openReadHandle.attempt with
  | .ok file => do
    validateCandidate file
    return file
  | .error error =>
    if error.rawOsError = some emfile ∧ emfileRetried = false then do
      clear
      openCandidate openReadHandle validateCandidate clear fileId true interruptedAttempts transientAttempts
    else if error.kind = .interrupted ∧ interruptedAttempts < eintrRetryLimit then
      openCandidate openReadHandle validateCandidate clear fileId emfileRetried (interruptedAttempts + 1)
        transientAttempts
    else if error.kind = .wouldBlock ∧ transientAttempts < transientOpenRetryLimit then
      openCandidate openReadHandle validateCandidate clear fileId emfileRetried interruptedAttempts
        (transientAttempts + 1)
    else if error.rawOsError = some enfile ∧ transientAttempts < transientOpenRetryLimit then
      openCandidate openReadHandle validateCandidate clear fileId emfileRetried interruptedAttempts
        (transientAttempts + 1)
    else throw (classifyOpenError fileId error)
termination_by (if emfileRetried then 0 else 1) + (eintrRetryLimit - interruptedAttempts) +
  (transientOpenRetryLimit - transientAttempts)
decreasing_by
  all_goals simp only [eintrRetryLimit,transientOpenRetryLimit] at *
  all_goals (try split) <;> simp_all <;> omega

-- The system behind a loop: what it answers to every call, how many calls it has seen, what the file holds. A count that
-- was asked for is transferred, anything else transfers nothing.
structure Device where
  answers : Nat → Except IoError Nat
  calls : Nat
  cells : Nat → UInt8

namespace Device

def writeAt (bytes : Bytes) (offset : Nat) : Eff Device IoError Nat := fun device =>
  match device.answers device.calls with
  | .ok count =>
    .ok count {device with
      calls := device.calls + 1
      cells := if count ≤ bytes.length then overlay device.cells offset (bytes.take count) else device.cells}
  | .error error => .error error {device with calls := device.calls + 1}

-- What a read finds may be another state of the file at every call.
def readAt (contents : Nat → Nat → UInt8) (remaining offset : Nat) : Eff Device IoError (Nat × Bytes) := fun device =>
  match device.answers device.calls with
  | .ok count =>
    .ok (count,if count ≤ remaining then (List.range count).map (fun place => contents device.calls (offset + place))
      else []) {device with calls := device.calls + 1}
  | .error error => .error error {device with calls := device.calls + 1}

end Device

def isInterrupted (error : IoError) : Bool := decide (error.kind = .interrupted)
def isWouldBlock (error : IoError) : Bool := decide (error.kind = .wouldBlock)

-- A surfaced error of a retried kind: it is the last answer, and since the last progress the budget of its kind is gone.
def Spent (answers : Nat → Except IoError Nat) (calls : Nat) (error : IoError) (eintrLimit eagainLimit : Nat) : Prop :=
  ∃ last, calls = last + 1 ∧ answers last = .error error ∧
    (error.kind = .interrupted → Refusals answers isInterrupted last eintrLimit) ∧
    (error.kind = .wouldBlock → Refusals answers isWouldBlock last eagainLimit)

section loops
variable {device : Device}

-- The attempts of a loop count the refusals since its last progress.
structure Attempts (device : Device) (interrupted transient : Nat) : Prop where
  interrupted : Refusals device.answers isInterrupted device.calls interrupted
  transient : Refusals device.answers isWouldBlock device.calls transient

theorem Attempts.fresh (device : Device) : Attempts device 0 0 :=
  ⟨.none device.answers isInterrupted device.calls,.none device.answers isWouldBlock device.calls⟩

theorem Attempts.interrupt {interrupted transient : Nat} {error : IoError} (attempts : Attempts device interrupted transient)
    (answer : device.answers device.calls = .error error) (kind : error.kind = .interrupted) :
    Attempts {device with calls := device.calls + 1} (interrupted + 1) transient :=
  ⟨attempts.interrupted.more answer (by simp [isInterrupted,kind]),
    attempts.transient.same answer (by simp [isWouldBlock,kind])⟩

theorem Attempts.block {interrupted transient : Nat} {error : IoError} (attempts : Attempts device interrupted transient)
    (answer : device.answers device.calls = .error error) (kind : error.kind = .wouldBlock) :
    Attempts {device with calls := device.calls + 1} interrupted (transient + 1) :=
  ⟨attempts.interrupted.same answer (by simp [isInterrupted,kind]),
    attempts.transient.more answer (by simp [isWouldBlock,kind])⟩

theorem Attempts.spent {interrupted transient eintrLimit eagainLimit : Nat} {error : IoError}
    (attempts : Attempts device interrupted transient) (answer : device.answers device.calls = .error error)
    (eintr : error.kind = .interrupted → interrupted = eintrLimit)
    (eagain : error.kind = .wouldBlock → transient = eagainLimit) :
    Spent device.answers (device.calls + 1) error eintrLimit eagainLimit := by
  refine ⟨device.calls,rfl,answer,?_,?_⟩
  · intro kind
    rw [←eintr kind]
    exact attempts.interrupted
  · intro kind
    rw [←eagain kind]
    exact attempts.transient

-- The two kinds that are retried, each within its budget. Behind them an error of these kinds has used its budget up.
theorem Attempts.retry {ε α : Type} {interrupted transient : Nat} {error : IoError} {first second stop : Eff Device ε α}
    {returns : α → Device → Prop} {throws : ε → Device → Prop} (attempts : Attempts device interrupted transient)
    (answer : device.answers device.calls = .error error) (low : interrupted ≤ 8) (few : transient ≤ 3)
    (interrupts : interrupted < 8 → Attempts {device with calls := device.calls + 1} (interrupted + 1) transient →
      Delivers first {device with calls := device.calls + 1} returns throws)
    (blocks : transient < 3 → Attempts {device with calls := device.calls + 1} interrupted (transient + 1) →
      Delivers second {device with calls := device.calls + 1} returns throws)
    (spent : Spent device.answers (device.calls + 1) error 8 3 →
      Delivers stop {device with calls := device.calls + 1} returns throws) :
    Delivers (if error.kind = .interrupted ∧ interrupted < 8 then first
      else if error.kind = .wouldBlock ∧ transient < 3 then second else stop)
      {device with calls := device.calls + 1} returns throws := by
  by_cases interrupting : error.kind = .interrupted ∧ interrupted < 8
  · rw [if_pos interrupting]
    exact interrupts interrupting.2 (attempts.interrupt answer interrupting.1)
  · rw [if_neg interrupting]
    by_cases blocking : error.kind = .wouldBlock ∧ transient < 3
    · rw [if_pos blocking]
      exact blocks blocking.2 (attempts.block answer blocking.1)
    · rw [if_neg blocking]
      apply spent
      exact attempts.spent answer (fun kind => by by_contra; exact interrupting ⟨kind,by omega⟩)
        (fun kind => by by_contra; exact blocking ⟨kind,by omega⟩)

-- What the write loop has done when it stops: the first `count` bytes stand, and it made at most so many calls.
structure Wrote (start : Nat) (bytes : Bytes) (calls : Nat) (device after : Device) : Prop where
  answers : after.answers = device.answers
  cells : after.cells = overlay device.cells start bytes
  bound : after.calls ≤ device.calls + calls

theorem Device.writeAt_answers (bytes : Bytes) (offset : Nat) :
    Delivers (Device.writeAt bytes offset) device
      (fun count after => device.answers device.calls = .ok count ∧ after = {device with
        calls := device.calls + 1
        cells := if count ≤ bytes.length then overlay device.cells offset (bytes.take count) else device.cells})
      (fun error after => device.answers device.calls = .error error ∧
        after = {device with calls := device.calls + 1}) := by
  unfold Delivers Device.writeAt
  cases answer : device.answers device.calls with
  | ok count => exact ⟨rfl,rfl⟩
  | error error => exact ⟨rfl,rfl⟩

-- The induction is on the measure of the loop: each turn takes bytes off or uses up an attempt.
theorem writeAllPositioned_exact {start : Nat} (fuel : Nat) {bytes : Bytes} {written interrupted transient : Nat}
    (measure : bytes.length * 12 + (8 - interrupted) + (3 - transient) < fuel) (fits : written + bytes.length < 18446744073709551616)
    (low : interrupted ≤ 8) (few : transient ≤ 3) (attempts : Attempts device interrupted transient) :
    Delivers (writeAllPositioned Device.writeAt start bytes written interrupted transient) device
      (fun total after => total = written + bytes.length ∧ Wrote (start + written) bytes fuel device after)
      (fun failure after => ∃ count, failure.1 = written + count ∧ count < bytes.length ∧
        Wrote (start + written) (bytes.take count) fuel device after ∧
        (failure.2.kind = .interrupted ∨ failure.2.kind = .wouldBlock →
          Spent device.answers after.calls failure.2 8 3)) := by
  induction fuel generalizing device bytes written interrupted transient with
  | zero => omega
  | succ fuel ih =>
    rw [writeAllPositioned]
    split
    · rename_i empty
      rw [List.isEmpty_iff.mp empty]
      exact ⟨rfl,rfl,by rw [overlay_nil],by omega⟩
    · rename_i filled
      have positive : 0 < bytes.length := List.length_pos_iff.mpr (by simpa using filled)
      split
      · exact ⟨0,rfl,positive,⟨rfl,by rw [List.take_zero,overlay_nil],by omega⟩,by simp [writeOffsetOverflow]⟩
      · rw [delivers_bind,delivers_attempt]
        refine (Device.writeAt_answers bytes (start + written)).mono ?_ ?_
        · rintro count reached ⟨answer,rfl⟩
          cases count with
          | zero =>
            exact ⟨0,rfl,positive,⟨rfl,by simp only [List.take_zero,overlay_nil,ite_self],by simp only; omega⟩,by simp⟩
          | succ count =>
            by_cases inside : count + 1 ≤ bytes.length
            · have room : ¬written + (count + 1) ≥ 18446744073709551616 := by omega
              simp only [inside,room,if_true,if_false]
              have join := overlay_append device.cells (start + written) (bytes.take (count + 1)) (bytes.drop (count + 1))
              rw [List.take_append_drop,List.length_take,Nat.min_eq_left inside,Nat.add_assoc] at join
              refine (ih (by simp only [List.length_drop]; omega) (by simp only [List.length_drop]; omega) (by omega)
                (by omega) (.fresh _)).mono ?_ ?_
              · rintro total after ⟨rfl,answers,cells,bound⟩
                refine ⟨by simp only [List.length_drop]; omega,answers,cells.trans join,?_⟩
                simp only at bound
                omega
              · rintro failure after ⟨further,same,short,⟨answers,cells,bound⟩,spent⟩
                rw [List.length_drop] at short
                have part := overlay_append device.cells (start + written) (bytes.take (count + 1))
                  ((bytes.drop (count + 1)).take further)
                rw [←List.take_add,List.length_take,Nat.min_eq_left inside,Nat.add_assoc] at part
                refine ⟨count + 1 + further,by omega,by omega,⟨answers,cells.trans part,?_⟩,spent⟩
                simp only at bound
                omega
            · simp only [inside,if_false]
              exact ⟨0,rfl,positive,⟨rfl,by simp only [List.take_zero,overlay_nil],by simp only; omega⟩,
                by simp [invalidShortWrite]⟩
        · rintro error reached ⟨answer,rfl⟩
          simp only [eintrRetryLimit,eagainRetryLimit]
          have again : ∀ {interrupted transient : Nat},
              bytes.length * 12 + (8 - interrupted) + (3 - transient) < fuel → interrupted ≤ 8 → transient ≤ 3 →
              Attempts {device with calls := device.calls + 1} interrupted transient →
              Delivers (writeAllPositioned Device.writeAt start bytes written interrupted transient)
                {device with calls := device.calls + 1}
                (fun total after => total = written + bytes.length ∧ Wrote (start + written) bytes (fuel + 1) device after)
                (fun failure after => ∃ count, failure.1 = written + count ∧ count < bytes.length ∧
                  Wrote (start + written) (bytes.take count) (fuel + 1) device after ∧
                  (failure.2.kind = .interrupted ∨ failure.2.kind = .wouldBlock →
                    Spent device.answers after.calls failure.2 8 3)) := by
            intro interrupted transient measure low few attempts
            refine (ih measure fits low few attempts).mono ?_ ?_
            · rintro total after ⟨same,answers,cells,bound⟩
              exact ⟨same,answers,cells,by simp only at bound; omega⟩
            · rintro failure after ⟨count,same,short,⟨answers,cells,bound⟩,spent⟩
              exact ⟨count,same,short,⟨answers,cells,by simp only at bound; omega⟩,spent⟩
          refine attempts.retry answer low few (fun _ attempts => again (by omega) (by omega) few attempts)
            (fun _ attempts => again (by omega) low (by omega) attempts) ?_
          exact fun spent => ⟨0,rfl,positive,⟨rfl,by rw [List.take_zero,overlay_nil],by simp only; omega⟩,fun _ => spent⟩

theorem Device.readAt_answers (contents : Nat → Nat → UInt8) (remaining offset : Nat) :
    Delivers (Device.readAt contents remaining offset) device
      (fun read after => device.answers device.calls = .ok read.1 ∧ after = {device with calls := device.calls + 1} ∧
        (read.1 ≤ remaining → read.2 = (List.range read.1).map (fun place => contents device.calls (offset + place))))
      (fun error after => device.answers device.calls = .error error ∧
        after = {device with calls := device.calls + 1}) := by
  unfold Delivers Device.readAt
  cases answer : device.answers device.calls with
  | ok count => exact ⟨rfl,rfl,fun inside => if_pos inside⟩
  | error error => exact ⟨rfl,rfl⟩

-- Every byte of a buffer comes from its own place, as some call found it.
def FilledFrom (contents : Nat → Nat → UInt8) (offset : Nat) (buffer : Bytes) : Prop :=
  ∀ place < buffer.length, ∃ call, buffer[place]? = some (contents call (offset + place))

theorem FilledFrom.nil (contents : Nat → Nat → UInt8) (offset : Nat) : FilledFrom contents offset [] := by
  intro place inside
  cases inside

theorem FilledFrom.append {contents : Nat → Nat → UInt8} {offset : Nat} {buffer more : Bytes}
    (first : FilledFrom contents offset buffer) (second : FilledFrom contents (offset + buffer.length) more) :
    FilledFrom contents offset (buffer ++ more) := by
  intro place inside
  rw [List.length_append] at inside
  by_cases early : place < buffer.length
  · rw [List.getElem?_append_left early]
    exact first place early
  · obtain ⟨call,found⟩ := second (place - buffer.length) (by omega)
    refine ⟨call,?_⟩
    rw [List.getElem?_append_right (by omega),found,Nat.add_assoc,Nat.add_sub_cancel' (by omega)]

theorem FilledFrom.range (contents : Nat → Nat → UInt8) (call offset count : Nat) :
    FilledFrom contents offset ((List.range count).map (fun place => contents call (offset + place))) := by
  intro place inside
  rw [List.length_map,List.length_range] at inside
  exact ⟨call,by simp [inside]⟩

theorem readExactAtImpl_exact {contents : Nat → Nat → UInt8} {fileId : Nat} (fuel : Nat) {filled : Bytes}
    {remaining offset interrupted transient : Nat}
    (measure : remaining * 12 + (8 - interrupted) + (3 - transient) < fuel) (low : interrupted ≤ 8) (few : transient ≤ 3)
    (attempts : Attempts device interrupted transient) :
    Delivers (readExactAtImpl (Device.readAt contents) fileId filled remaining offset interrupted transient) device
      (fun buffer after => ∃ part, buffer = filled ++ part ∧ part.length = remaining ∧
        FilledFrom contents offset part ∧ after.calls ≤ device.calls + fuel)
      (fun error after => after.calls ≤ device.calls + fuel ∧
        ((∃ place, error = readCorruption fileId (some place)) ∨
          ∃ source place, error = readIo fileId (some place) source ∧
            Spent device.answers after.calls source 8 3)) := by
  induction fuel generalizing device filled remaining offset interrupted transient with
  | zero => omega
  | succ fuel ih =>
    rw [readExactAtImpl]
    split
    · rename_i done
      exact ⟨[],by rw [List.append_nil],done.symm,.nil contents offset,by omega⟩
    · rename_i wanted
      rw [delivers_bind,delivers_attempt]
      refine (Device.readAt_answers contents remaining offset).mono ?_ ?_
      · rintro ⟨count,part⟩ reached ⟨answer,rfl,transferred⟩
        cases count with
        | zero => exact ⟨by simp only; omega,.inl ⟨offset,rfl⟩⟩
        | succ count =>
          by_cases room : offset + (count + 1) ≥ 18446744073709551616
          · simp only [room,if_true]
            exact ⟨by simp only; omega,.inl ⟨offset,rfl⟩⟩
          · by_cases inside : count + 1 ≤ remaining
            · simp only [room,inside,if_true,if_false]
              simp only at transferred
              have moved := transferred inside
              have width : part.length = count + 1 := by rw [moved,List.length_map,List.length_range]
              have here : FilledFrom contents offset part := by
                rw [moved]
                exact .range contents device.calls offset (count + 1)
              refine (ih (by omega) (by omega) (by omega) (.fresh _)).mono ?_ ?_
              · rintro buffer after ⟨rest,rfl,length,later,bound⟩
                simp only at bound
                refine ⟨part ++ rest,by rw [List.append_assoc],by rw [List.length_append]; omega,?_,by omega⟩
                refine here.append ?_
                rw [width]
                exact later
              · rintro error after ⟨bound,failed⟩
                simp only at bound
                exact ⟨by omega,failed⟩
            · simp only [room,inside,if_false]
              exact ⟨by simp only; omega,.inl ⟨offset + (count + 1),rfl⟩⟩
      · rintro error reached ⟨answer,rfl⟩
        simp only [eintrRetryLimit,transientOpenRetryLimit]
        have again : ∀ {interrupted transient : Nat},
            remaining * 12 + (8 - interrupted) + (3 - transient) < fuel → interrupted ≤ 8 → transient ≤ 3 →
            Attempts {device with calls := device.calls + 1} interrupted transient →
            Delivers (readExactAtImpl (Device.readAt contents) fileId filled remaining offset interrupted transient)
              {device with calls := device.calls + 1}
              (fun buffer after => ∃ part, buffer = filled ++ part ∧ part.length = remaining ∧
                FilledFrom contents offset part ∧ after.calls ≤ device.calls + (fuel + 1))
              (fun error after => after.calls ≤ device.calls + (fuel + 1) ∧
                ((∃ place, error = readCorruption fileId (some place)) ∨
                  ∃ source place, error = readIo fileId (some place) source ∧
                    Spent device.answers after.calls source 8 3)) := by
          intro interrupted transient measure low few attempts
          refine (ih measure low few attempts).mono ?_ ?_
          · rintro buffer after ⟨part,same,length,found,bound⟩
            exact ⟨part,same,length,found,by simp only at bound; omega⟩
          · rintro error after ⟨bound,failed⟩
            exact ⟨by simp only at bound; omega,failed⟩
        refine attempts.retry answer low few (fun _ attempts => again (by omega) (by omega) few attempts)
          (fun _ attempts => again (by omega) low (by omega) attempts) ?_
        exact fun spent => ⟨by simp only; omega,.inr ⟨error,offset,rfl,spent⟩⟩

end loops

-- The writer's model makes its calls to the storage; below the last representable offset its loop is this one.
theorem writeAllPositioned_storage {fileId start : Nat} (fuel : Nat) {bytes : Bytes}
    {written interrupted transient : Nat} (measure : bytes.length * 12 + (8 - interrupted) + (3 - transient) < fuel)
    (room : start + written + bytes.length < 18446744073709551616) :
    ExpirKv.writeAllPositioned fileId start bytes written interrupted transient =
      writeAllPositioned (fun bytes offset => Storage.writeAt fileId offset bytes) start bytes written interrupted
        transient := by
  induction fuel generalizing bytes written interrupted transient with
  | zero => omega
  | succ fuel ih =>
    rw [ExpirKv.writeAllPositioned,writeAllPositioned]
    split
    · rfl
    · rename_i filled
      have positive : 0 < bytes.length := List.length_pos_iff.mpr (by simpa using filled)
      rw [if_neg (by omega)]
      refine bind_congr fun answer => ?_
      cases answer with
      | ok count =>
        cases count with
        | zero => rfl
        | succ count =>
          by_cases inside : count + 1 ≤ bytes.length
          · simp only [inside,if_true]
            rw [if_neg (by omega)]
            exact ih (by simp only [List.length_drop]; omega) (by simp only [List.length_drop]; omega)
          · simp only [inside,if_false]
            rfl
      | error error =>
        simp only [eintrRetryLimit,eagainRetryLimit]
        by_cases interrupts : error.kind = .interrupted ∧ interrupted < 8
        · rw [if_pos interrupts,if_pos interrupts]
          exact ih (by omega) room
        · rw [if_neg interrupts,if_neg interrupts]
          by_cases blocks : error.kind = .wouldBlock ∧ transient < 3
          · rw [if_pos blocks,if_pos blocks]
            exact ih (by omega) room
          · rw [if_neg blocks,if_neg blocks]

-- Behind an opener: its answers, and everything that validating a handle or emptying the cache may touch.
structure Opener (τ α : Type) where
  answers : Nat → Except IoError α
  calls : Nat
  rest : τ

def Opener.openReadHandle : Eff (Opener τ α) IoError α := fun opener =>
  match opener.answers opener.calls with
  | .ok file => .ok file {opener with calls := opener.calls + 1}
  | .error error => .error error {opener with calls := opener.calls + 1}

def Opener.aside {β : Type} (act : Eff τ StorageError β) : Eff (Opener τ α) StorageError β :=
  act.within Opener.rest (fun opener rest => {opener with rest})

theorem Opener.openReadHandle_answers (opener : Opener τ α) :
    Delivers Opener.openReadHandle opener
      (fun file after => opener.answers opener.calls = .ok file ∧ after = {opener with calls := opener.calls + 1})
      (fun error after => opener.answers opener.calls = .error error ∧
        after = {opener with calls := opener.calls + 1}) := by
  unfold Delivers Opener.openReadHandle
  cases answer : opener.answers opener.calls with
  | ok file => exact ⟨rfl,rfl⟩
  | error error => exact ⟨rfl,rfl⟩

theorem Opener.aside_keeps {β : Type} (act : Eff τ StorageError β) (opener : Opener τ α) :
    Delivers (Opener.aside act) opener
      (fun _ after => after.answers = opener.answers ∧ after.calls = opener.calls)
      (fun _ after => after.answers = opener.answers ∧ after.calls = opener.calls) :=
  delivers_within.mpr ((Delivers.self act opener.rest).mono (fun _ _ _ => ⟨rfl,rfl⟩) (fun _ _ _ => ⟨rfl,rfl⟩))

-- Nothing gives the attempts of an open back, so the loop ends after a fixed number of calls.
theorem openCandidate_ends {validateCandidate : α → Eff τ StorageError Unit} {clear : Eff τ StorageError Unit}
    {fileId : Nat} (fuel : Nat) {opener : Opener τ α} {emfileRetried : Bool} {interrupted transient : Nat}
    (measure : (if emfileRetried then 0 else 1) + (8 - interrupted) + (3 - transient) < fuel) :
    Delivers (openCandidate Opener.openReadHandle (fun file => Opener.aside (validateCandidate file))
        (Opener.aside clear) fileId emfileRetried interrupted transient) opener
      (fun file after => after.calls ≤ opener.calls + fuel ∧ ∃ call, opener.answers call = .ok file)
      (fun _ after => after.calls ≤ opener.calls + fuel) := by
  induction fuel generalizing opener emfileRetried interrupted transient with
  | zero => omega
  | succ fuel ih =>
    rw [openCandidate,delivers_bind,delivers_attempt]
    refine opener.openReadHandle_answers.mono ?_ ?_
    · rintro file reached ⟨answer,rfl⟩
      refine (Opener.aside_keeps (validateCandidate file) _).bind ?_ ?_
      · rintro _ after ⟨-,calls⟩
        exact ⟨by rw [calls]; simp only; omega,opener.calls,answer⟩
      · rintro _ after ⟨-,calls⟩
        rw [calls]
        simp only
        omega
    · rintro error reached ⟨answer,rfl⟩
      have again : ∀ {emfileRetried : Bool} {interrupted transient : Nat} {reached : Opener τ α},
          (if emfileRetried then 0 else 1) + (8 - interrupted) + (3 - transient) < fuel →
          reached.answers = opener.answers → reached.calls = opener.calls + 1 →
          Delivers (openCandidate Opener.openReadHandle (fun file => Opener.aside (validateCandidate file))
              (Opener.aside clear) fileId emfileRetried interrupted transient) reached
            (fun file after => after.calls ≤ opener.calls + (fuel + 1) ∧ ∃ call, opener.answers call = .ok file)
            (fun _ after => after.calls ≤ opener.calls + (fuel + 1)) := by
        intro emfileRetried interrupted transient reached measure answers calls
        refine (ih measure).mono ?_ ?_
        · rintro file after ⟨bound,call,found⟩
          exact ⟨by omega,call,by rw [←answers]; exact found⟩
        · intro _ after bound
          omega
      simp only [eintrRetryLimit,transientOpenRetryLimit,emfile,enfile]
      by_cases crowded : error.rawOsError = some 24 ∧ emfileRetried = false
      · obtain ⟨code,rfl⟩ := crowded
        simp only [Bool.false_eq_true,if_false] at measure
        rw [if_pos ⟨code,rfl⟩]
        refine (Opener.aside_keeps clear _).bind ?_ ?_
        · rintro _ after ⟨answers,calls⟩
          exact again (by simp only [if_true]; omega) answers calls
        · rintro _ after ⟨-,calls⟩
          rw [calls]
          simp only
          omega
      · rw [if_neg crowded]
        by_cases interrupts : error.kind = .interrupted ∧ interrupted < 8
        · rw [if_pos interrupts]
          exact again (by omega) rfl rfl
        · rw [if_neg interrupts]
          by_cases blocks : error.kind = .wouldBlock ∧ transient < 3
          · rw [if_pos blocks]
            exact again (by omega) rfl rfl
          · rw [if_neg blocks]
            by_cases full : error.rawOsError = some 23 ∧ transient < 3
            · rw [if_pos full]
              exact again (by omega) rfl rfl
            · rw [if_neg full]
              simp only [delivers_throw]
              omega

-- Whatever the system answers for ever, the three loops end, and what they report is what they did.
theorem retry_loops_exact :
    (∀ (answers : Nat → Except IoError Nat) (cells : Nat → UInt8) (start : Nat) (bytes : Bytes),
      bytes.length < 18446744073709551616 →
      Delivers (writeAllPositioned Device.writeAt start bytes 0 0 0) ⟨answers,0,cells⟩
        (fun total after => total = bytes.length ∧ after.calls ≤ bytes.length * 12 + 12 ∧
          (∀ place < bytes.length, some (after.cells (start + place)) = bytes[place]?) ∧
          ∀ place, place < start ∨ start + bytes.length ≤ place → after.cells place = cells place)
        (fun failure after => failure.1 < bytes.length ∧ after.calls ≤ bytes.length * 12 + 12 ∧
          (∀ place < failure.1, some (after.cells (start + place)) = bytes[place]?) ∧
          (∀ place, place < start ∨ start + failure.1 ≤ place → after.cells place = cells place) ∧
          (failure.2.kind = .interrupted ∨ failure.2.kind = .wouldBlock →
            Spent answers after.calls failure.2 eintrRetryLimit eagainRetryLimit))) ∧
    (∀ (answers : Nat → Except IoError Nat) (cells : Nat → UInt8) (contents : Nat → Nat → UInt8)
      (fileId len offset : Nat),
      Delivers (readExactAtImpl (Device.readAt contents) fileId [] len offset 0 0) ⟨answers,0,cells⟩
        (fun buffer after => buffer.length = len ∧ FilledFrom contents offset buffer ∧ after.calls ≤ len * 12 + 12)
        (fun error after => after.calls ≤ len * 12 + 12 ∧
          ((∃ place, error = readCorruption fileId (some place)) ∨
            ∃ source place, error = readIo fileId (some place) source ∧
              Spent answers after.calls source eintrRetryLimit transientOpenRetryLimit))) ∧
    (∀ (τ α : Type) (answers : Nat → Except IoError α) (rest : τ) (validateCandidate : α → Eff τ StorageError Unit)
      (clear : Eff τ StorageError Unit) (fileId : Nat),
      Delivers (openCandidate Opener.openReadHandle (fun file => Opener.aside (validateCandidate file))
          (Opener.aside clear) fileId false 0 0) ⟨answers,0,rest⟩
        (fun file after => after.calls ≤ 13 ∧ ∃ call, answers call = .ok file) (fun _ after => after.calls ≤ 13)) := by
  refine ⟨?_,?_,?_⟩
  · intro answers cells start bytes fits
    have begun : Attempts ⟨answers,0,cells⟩ 0 0 := .fresh _
    refine (@writeAllPositioned_exact _ start (bytes.length * 12 + 12) _ _ _ _ (by omega) (by omega) (by omega)
      (by omega) begun).mono ?_ ?_
    · rintro total after ⟨same,-,laid,bound⟩
      rw [Nat.add_zero] at laid
      refine ⟨by omega,by simpa using bound,?_,?_⟩
      · intro place inside
        rw [laid,overlay_inside (by omega) (by omega),Nat.add_sub_cancel_left]
      · intro place outside
        rw [laid,overlay_outside outside]
    · rintro failure after ⟨count,same,short,⟨-,laid,bound⟩,spent⟩
      obtain rfl : failure.1 = count := by omega
      have width : (bytes.take failure.1).length = failure.1 := by rw [List.length_take]; omega
      rw [Nat.add_zero] at laid
      refine ⟨short,by simpa using bound,?_,?_,spent⟩
      · intro place inside
        rw [laid,overlay_inside (by omega) (by omega),Nat.add_sub_cancel_left,List.getElem?_take_of_lt inside]
      · intro place outside
        rw [laid,overlay_outside (by rw [width]; exact outside)]
  · intro answers cells contents fileId len offset
    have begun : Attempts ⟨answers,0,cells⟩ 0 0 := .fresh _
    refine (readExactAtImpl_exact (len * 12 + 12) (by omega) (by omega) (by omega) begun).mono ?_ ?_
    · rintro buffer after ⟨part,rfl,width,found,bound⟩
      exact ⟨width,found,by simpa using bound⟩
    · rintro error after ⟨bound,failed⟩
      exact ⟨by simpa using bound,failed⟩
  · intro τ α answers rest validateCandidate clear fileId
    refine (openCandidate_ends 13 (by simp)).mono ?_ ?_
    · rintro file after ⟨bound,found⟩
      exact ⟨by simpa using bound,found⟩
    · intro _ after bound
      simpa using bound

end Retrying

end ExpirKv
