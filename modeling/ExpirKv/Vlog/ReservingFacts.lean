import ExpirKv.Vlog.Reserving

namespace ExpirKv.Reserving

variable {α β : Type}

-- The computation answers as the pure function does or stops on a refused request, and leaves the planner alone.
def Answers (x : Eff Reserving StorageError α) (answer : Result α) : Prop :=
  ∀ state, Delivers x state
    (fun value next => answer = .ok value ∧ next.planner = state.planner ∧ next.grants <:+ state.grants)
    (fun error next => (answer = .error error ∨ (error = exhausted ∧ false ∈ state.grants)) ∧
      next.planner = state.planner ∧ next.grants <:+ state.grants)

section rules
variable {x : Eff Reserving StorageError α} {answer : Result α}

theorem Answers.pure (value : α) : Answers (pure value) (.ok value) :=
  fun _ => ⟨rfl,rfl,List.suffix_rfl⟩

theorem Answers.lift (answer : Result α) : Answers (Eff.lift answer) answer := by
  intro state
  refine delivers_lift.mpr ⟨?_,?_⟩
  · intro value returned
    exact ⟨returned,rfl,List.suffix_rfl⟩
  · intro error failed
    exact ⟨.inl failed,rfl,List.suffix_rfl⟩

theorem Answers.bind {next : α → Eff Reserving StorageError β} {later : α → Result β} (first : Answers x answer)
    (rest : ∀ value, Answers (next value) (later value)) : Answers (x >>= next) (answer >>= later) := by
  intro state
  refine (first state).bind ?_ ?_
  · intro value reached kept
    obtain ⟨returned,same,left⟩ := kept
    rw [returned,ok_bind]
    refine (rest value reached).mono ?_ ?_
    · intro _ _ kept
      obtain ⟨answered,same',left'⟩ := kept
      exact ⟨answered,same'.trans same,left'.trans left⟩
    · intro error _ kept
      obtain ⟨failed,same',left'⟩ := kept
      refine ⟨failed.imp_right ?_,same'.trans same,left'.trans left⟩
      exact And.imp_right (fun among => left.subset among)
  · intro error reached kept
    obtain ⟨failed,same,left⟩ := kept
    refine ⟨failed.imp_left ?_,same,left⟩
    intro failed
    rw [failed,error_bind]

theorem reserve_answers : Answers reserve (.ok ()) := by
  intro state
  obtain ⟨planner,grants⟩ := state
  cases grants with
  | nil => exact ⟨rfl,rfl,List.suffix_rfl⟩
  | cons granted rest =>
    have left : rest <:+ granted :: rest := List.suffix_cons granted rest
    cases granted with
    | true => exact ⟨rfl,rfl,left⟩
    | false => exact ⟨.inr ⟨rfl,List.mem_cons_self⟩,rfl,left⟩

-- A request in front of a step changes no answer.
theorem Answers.requested (step : Answers x answer) : Answers (reserve >>= fun _ => x) answer :=
  reserve_answers.bind (fun _ => step)

theorem reserved_answers (encoded : Result Bytes) : Answers (reserved encoded) encoded := by
  have filled := (Answers.lift encoded).bind (fun bytes => (Answers.pure bytes).requested)
  rwa [show (encoded >>= fun bytes => .ok bytes) = encoded by cases encoded <;> rfl] at filled

end rules

-- From a state, a method moves the planner behind `&mut` as the pure function does. Where it fails, the planner
-- may have moved already.
def Moves (state : Reserving) (method : Eff Reserving StorageError α) (answer : Result (α × LayoutPlanner)) : Prop :=
  Delivers method state
    (fun value next => answer = .ok (value,next.planner) ∧ next.grants <:+ state.grants)
    (fun error next => (answer = .error error ∨ (error = exhausted ∧ false ∈ state.grants)) ∧
      next.grants <:+ state.grants)

section moves
variable {state : Reserving}

theorem Moves.later {reached : Reserving} {method : Eff Reserving StorageError α} {answer : Result (α × LayoutPlanner)}
    (moves : Moves reached method answer) (left : reached.grants <:+ state.grants) :
    Delivers method reached
      (fun value next => answer = .ok (value,next.planner) ∧ next.grants <:+ state.grants)
      (fun error next => (answer = .error error ∨ (error = exhausted ∧ false ∈ state.grants)) ∧
        next.grants <:+ state.grants) := by
  refine Delivers.mono moves ?_ ?_
  · intro value next kept
    exact ⟨kept.1,kept.2.trans left⟩
  · intro error next kept
    exact ⟨kept.1.imp_right (And.imp_right (fun among => left.subset among)),kept.2.trans left⟩

theorem Moves.bind {method : Eff Reserving StorageError α} {next : α → Eff Reserving StorageError β}
    {answer : Result (α × LayoutPlanner)} {rest : α × LayoutPlanner → Result (β × LayoutPlanner)}
    (first : Moves state method answer)
    (second : ∀ value reached, Moves reached (next value) (rest (value,reached.planner))) :
    Moves state (method >>= next) (answer >>= rest) := by
  refine Delivers.bind first ?_ ?_
  · intro value reached kept
    obtain ⟨answered,left⟩ := kept
    rw [answered,ok_bind]
    exact (second value reached).later left
  · intro error reached kept
    obtain ⟨failed,left⟩ := kept
    refine ⟨failed.imp_left ?_,left⟩
    intro failed
    rw [failed,error_bind]

-- A step that leaves the planner alone, in front of a method.
theorem Answers.before {step : Eff Reserving StorageError α} {next : α → Eff Reserving StorageError β}
    {answer : Result α} {rest : α → Result (β × LayoutPlanner)} (first : Answers step answer)
    (second : ∀ value reached, reached.planner = state.planner → Moves reached (next value) (rest value)) :
    Moves state (step >>= next) (answer >>= rest) := by
  refine Delivers.bind (first state) ?_ ?_
  · intro value reached kept
    obtain ⟨answered,same,left⟩ := kept
    rw [answered,ok_bind]
    exact (second value reached same).later left
  · intro error reached kept
    obtain ⟨failed,-,left⟩ := kept
    refine ⟨failed.imp_left ?_,left⟩
    intro failed
    rw [failed,error_bind]

theorem Moves.requested {method : Eff Reserving StorageError α} {answer : Result (α × LayoutPlanner)}
    (second : ∀ reached, reached.planner = state.planner → Moves reached method answer) :
    Moves state (reserve >>= fun _ => method) answer :=
  @Answers.before _ _ state reserve (fun _ => method) (.ok ()) (fun _ => answer) reserve_answers
    (fun _ reached same => second reached same)

theorem Moves.moved {position : VLogPosition} {method : Eff Reserving StorageError α}
    {answer : Result (α × LayoutPlanner)}
    (second : Moves {state with planner := {state.planner with position}} method answer) :
    Moves state (moveTo position >>= fun _ => method) answer := delivers_bind.mpr second

theorem Moves.onClone {method : Eff Reserving StorageError α} {answer : LayoutPlanner → Result (α × LayoutPlanner)}
    (moves : ∀ state, Moves state method (answer state.planner)) (clone : LayoutPlanner) :
    Answers (onClone clone method) (answer clone) := by
  intro state
  refine delivers_within.mpr (delivers_bind.mpr (Delivers.mono (moves ⟨clone,state.grants⟩) ?_ ?_))
  · intro value next kept
    exact ⟨kept.1,rfl,kept.2⟩
  · intro error next kept
    exact ⟨kept.1,rfl,kept.2⟩

end moves

section planner

theorem ensureRecordArea_moves (state : Reserving) : Moves state ensureRecordArea state.planner.ensureRecordArea := by
  refine @Answers.before _ _ state _ _ _ _ (Answers.lift _) ?_
  intro position reached same
  refine (Answers.lift _).before ?_
  intro _ later moved
  refine ⟨?_,List.suffix_rfl⟩
  rw [moved,←same]
  rfl

theorem padPage_moves (state : Reserving) (remaining : Nat) :
    Moves state (padPage remaining) (state.planner.padPage remaining) := by
  refine @Answers.before _ _ state _ _ _ _ (Answers.lift _) ?_
  intro _ reached same
  rw [←same]
  refine Moves.moved ?_
  refine (ensureRecordArea_moves _).bind ?_
  intro opened later
  exact ⟨rfl,List.suffix_rfl⟩

theorem placeRecord_moves (state : Reserving) (preludes : List LayoutPrelude) (encodedLen : Nat) :
    Moves state (placeRecord preludes encodedLen) (LayoutPlanner.placeRecord preludes state.planner encodedLen) := by
  refine @Answers.before _ _ state _ _ _ _ (Answers.lift _) ?_
  intro remaining _ first
  refine (Answers.lift _).before ?_
  intro _ _ second
  refine (Answers.lift _).before ?_
  intro _ reached third
  have unmoved : reached.planner = state.planner := third.trans (second.trans first)
  rw [←unmoved]
  refine Moves.moved ?_
  refine (Answers.lift _).before ?_
  intro _ last kept
  refine ⟨?_,List.suffix_rfl⟩
  rw [kept]
  rfl

theorem planRecordInner_moves (state : Reserving) (encodedLen : Nat) :
    Moves state (planRecordInner encodedLen) (state.planner.planRecordInner encodedLen) := by
  refine Moves.requested ?_
  intro granted same
  rw [←same]
  refine (ensureRecordArea_moves granted).bind ?_
  intro opened reached
  refine @Answers.before _ _ reached _ _ _ _ (Answers.lift _) ?_
  intro remaining later unmoved
  rw [←unmoved]
  split
  · refine (padPage_moves later remaining).bind ?_
    intro padded last
    exact placeRecord_moves last _ encodedLen
  · exact placeRecord_moves later _ encodedLen

theorem planRecordInner_answers (clone : LayoutPlanner) (encodedLen : Nat) :
    Answers (onClone clone (planRecordInner encodedLen)) (clone.planRecordInner encodedLen) :=
  @Moves.onClone _ _ (fun planner => planner.planRecordInner encodedLen)
    (fun state => planRecordInner_moves state encodedLen) clone

theorem planRecord_moves (state : Reserving) (encodedLen : Nat) :
    Moves state (planRecord encodedLen) (state.planner.planRecord encodedLen) := by
  refine @Answers.before _ _ state _ _ _ _ (Answers.lift _) ?_
  intro _ reached same
  have placed := planRecordInner_answers state.planner encodedLen reached
  refine delivers_bind.mpr (placed.mono ?_ ?_)
  · intro value next kept
    exact ⟨kept.1,kept.2.2⟩
  · intro error next kept
    exact ⟨kept.1,kept.2.2⟩

theorem planRecord_answers (clone : LayoutPlanner) (encodedLen : Nat) :
    Answers (onClone clone (planRecord encodedLen)) (clone.planRecord encodedLen) :=
  @Moves.onClone _ _ (fun planner => planner.planRecord encodedLen)
    (fun state => planRecord_moves state encodedLen) clone

theorem planRecords_answers (candidate : LayoutPlanner) (lens : List Nat) :
    Answers (planRecords candidate lens) (ExpirKv.planRecords candidate lens) := by
  induction lens generalizing candidate with
  | nil => exact .pure _
  | cons encodedLen rest ih =>
    refine (planRecord_answers candidate encodedLen).bind ?_
    intro placed
    exact (ih placed.2).bind (fun _ => .pure _)

end planner

section encoding
variable [Crc32c]

theorem preludeChunk_answers (databaseUuid : Uuid) (commitSeq : Nat) (txUuid : Uuid) (geometry : VLogGeometry)
    (entry : LayoutPrelude) : Answers (preludeChunk databaseUuid commitSeq txUuid geometry entry)
      (ExpirKv.preludeChunk databaseUuid commitSeq txUuid geometry entry) := by
  cases entry with
  | pageHeader position pageNo => exact (reserved_answers _).bind (fun _ => .pure _)
  | fileHeader position => exact (reserved_answers _).bind (fun _ => .pure _)
  | pageEnd position encodedLen =>
    exact (reserved_answers _).bind (fun _ => (Answers.lift _).bind (fun _ => .pure _))

theorem preludeChunks_answers (databaseUuid : Uuid) (commitSeq : Nat) (txUuid : Uuid) (geometry : VLogGeometry)
    (preludes : List LayoutPrelude) : Answers (preludeChunks databaseUuid commitSeq txUuid geometry preludes)
      (preludes.mapM (ExpirKv.preludeChunk databaseUuid commitSeq txUuid geometry)) := by
  induction preludes with
  | nil => exact .pure _
  | cons entry rest ih =>
    rw [List.mapM_cons]
    exact (preludeChunk_answers databaseUuid commitSeq txUuid geometry entry).bind
      (fun _ => ih.bind (fun _ => .pure _))

theorem appendPlacement_answers (placement : RecordPlacement) (bytes : Bytes) (databaseUuid : Uuid) (commitSeq : Nat)
    (txUuid : Uuid) (geometry : VLogGeometry) :
    Answers (appendPlacement placement bytes databaseUuid commitSeq txUuid geometry)
      (ExpirKv.appendPlacement placement bytes databaseUuid commitSeq txUuid geometry) :=
  (Answers.lift _).bind (fun _ =>
    (preludeChunks_answers databaseUuid commitSeq txUuid geometry placement.preludes).bind (fun _ => .pure _))

theorem encodeOperation_answers (commitSeq : Nat) (txUuid : Uuid) (opIndex : Nat) (placement : RecordPlacement)
    (operation : LogicalOperation) : Answers (encodeOperation commitSeq txUuid opIndex placement operation)
      (ExpirKv.encodeOperation commitSeq txUuid opIndex placement operation) := by
  cases operation with
  | put key value =>
    exact (reserved_answers _).bind (fun _ => (Answers.lift _).bind (fun _ => (Answers.lift _).bind (fun _ => .pure _)))
  | delete key => exact (reserved_answers _).bind (fun _ => .pure _)

theorem appendOperations_answers (databaseUuid : Uuid) (commitSeq : Nat) (txUuid : Uuid) (geometry : VLogGeometry)
    (opIndex : Nat) (operations : List LogicalOperation) (placements : List RecordPlacement) :
    Answers (appendOperations databaseUuid commitSeq txUuid geometry opIndex operations placements)
      (ExpirKv.appendOperations databaseUuid commitSeq txUuid geometry opIndex operations placements) := by
  induction operations generalizing opIndex placements with
  | nil => exact .pure _
  | cons operation rest ih =>
    cases placements with
    | nil => exact .lift (.error _)
    | cons placement placements =>
      refine (encodeOperation_answers commitSeq txUuid opIndex placement operation).bind ?_
      intro encoded
      refine (appendPlacement_answers placement encoded.1 databaseUuid commitSeq txUuid geometry).bind ?_
      intro chunks
      exact (ih (opIndex + 1) placements).bind (fun _ => .pure _)

theorem encodeEnvelope_answers (planner : LayoutPlanner) (databaseUuid : Uuid) (commitSeq : Nat) (txUuid : Uuid)
    (operations : List LogicalOperation) :
    Answers (encodeEnvelope planner databaseUuid commitSeq txUuid operations)
      (ExpirKv.prepareEnvelope planner databaseUuid commitSeq txUuid operations) := by
  refine (Answers.lift _).bind (fun _ => (Answers.lift _).bind (fun _ => (Answers.lift _).bind (fun _ => ?_)))
  refine Answers.requested (Answers.requested ((Answers.lift _).bind ?_))
  intro operationLengths
  refine Answers.requested ((planRecords_answers planner _).bind ?_)
  intro planned
  refine (Answers.lift _).bind (fun _ => (Answers.lift _).bind (fun _ => (Answers.lift _).bind (fun _ => ?_)))
  refine Answers.requested (Answers.requested ((reserved_answers _).bind ?_))
  intro beginBytes
  refine (Answers.lift _).bind (fun _ => (appendPlacement_answers _ _ _ _ _ _).bind (fun _ => ?_))
  refine (appendOperations_answers _ _ _ _ _ _ _).bind (fun _ => (Answers.lift _).bind (fun _ => ?_))
  exact (reserved_answers _).bind (fun _ => (appendPlacement_answers _ _ _ _ _ _).bind (fun _ => .pure _))

-- The planner moves with the whole envelope or not at all.
theorem prepareEnvelope_delivers (databaseUuid : Uuid) (commitSeq : Nat) (txUuid : Uuid)
    (operations : List LogicalOperation) (state : Reserving) :
    Delivers (prepareEnvelope databaseUuid commitSeq txUuid operations) state
      (fun envelope next =>
        ExpirKv.prepareEnvelope state.planner databaseUuid commitSeq txUuid operations = .ok (envelope,next.planner))
      (fun error next => next.planner = state.planner ∧
        (ExpirKv.prepareEnvelope state.planner databaseUuid commitSeq txUuid operations = .error error ∨
          (error = exhausted ∧ false ∈ state.grants))) := by
  simp only [prepareEnvelope,assign,delivers_bind,delivers_get,delivers_modify,delivers_pure]
  refine (encodeEnvelope_answers state.planner databaseUuid commitSeq txUuid operations state).mono ?_ ?_
  · intro prepared next kept
    exact kept.1
  · intro error next kept
    exact ⟨kept.2.1,kept.1⟩

end encoding

end ExpirKv.Reserving
