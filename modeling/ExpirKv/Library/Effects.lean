import ExpirKv.Library.Results

namespace ExpirKv

-- A computation over a state that may stop with an error. The state it reached stays.
abbrev Eff (σ ε α : Type) := EStateM ε σ α

namespace Eff
variable {σ τ ε δ α β : Type}

def lift (x : Except ε α) : Eff σ ε α := fun state =>
  match x with
  | .ok value => .ok value state
  | .error error => .error error state

def mapError (context : ε → δ) (x : Eff σ ε α) : Eff σ δ α := fun state =>
  match x state with
  | .ok value next => .ok value next
  | .error error next => .error (context error) next

-- The outcome as a value, for code that inspects a failure and goes on.
def attempt (x : Eff σ ε α) : Eff σ δ (Except ε α) := fun state =>
  match x state with
  | .ok value next => .ok (.ok value) next
  | .error error next => .ok (.error error) next

-- A computation on a part of a larger state.
def within (part : τ → σ) (put : τ → σ → τ) (x : Eff σ ε α) : Eff τ ε α := fun whole =>
  match x (part whole) with
  | .ok value next => .ok value (put whole next)
  | .error error next => .error error (put whole next)

end Eff

-- From `state` the computation returns with `post` or stops with `fail`.
def Delivers {σ ε α : Type} (x : Eff σ ε α) (state : σ) (post : α → σ → Prop) (fail : ε → σ → Prop) : Prop :=
  match x state with
  | .ok value next => post value next
  | .error error next => fail error next

section rules
variable {σ τ ε δ α β : Type} {state : σ}

theorem Delivers.mono {x : Eff σ ε α} {post wider : α → σ → Prop} {fail looser : ε → σ → Prop}
    (delivers : Delivers x state post fail) (good : ∀ value next, post value next → wider value next)
    (bad : ∀ error next, fail error next → looser error next) : Delivers x state wider looser := by
  unfold Delivers at *
  cases ran : x state with
  | ok value next => simp only [ran] at delivers; exact good value next delivers
  | error error next => simp only [ran] at delivers; exact bad error next delivers

theorem Delivers.and {x : Eff σ ε α} {post more : α → σ → Prop} {fail worse : ε → σ → Prop}
    (first : Delivers x state post fail) (second : Delivers x state more worse) :
    Delivers x state (fun value next => post value next ∧ more value next)
      (fun error next => fail error next ∧ worse error next) := by
  unfold Delivers at *
  cases ran : x state with
  | ok value next => simp only [ran] at first second; exact ⟨first,second⟩
  | error error next => simp only [ran] at first second; exact ⟨first,second⟩

@[simp] theorem delivers_pure {post : α → σ → Prop} {fail : ε → σ → Prop} (value : α) :
    Delivers (pure value : Eff σ ε α) state post fail ↔ post value state := Iff.rfl

@[simp] theorem delivers_throw {post : α → σ → Prop} {fail : ε → σ → Prop} (error : ε) :
    Delivers (throw error : Eff σ ε α) state post fail ↔ fail error state := Iff.rfl

@[simp] theorem delivers_get {post : σ → σ → Prop} {fail : ε → σ → Prop} :
    Delivers (get : Eff σ ε σ) state post fail ↔ post state state := Iff.rfl

@[simp] theorem delivers_set {post : PUnit → σ → Prop} {fail : ε → σ → Prop} (next : σ) :
    Delivers (set next : Eff σ ε PUnit) state post fail ↔ post ⟨⟩ next := Iff.rfl

@[simp] theorem delivers_modify {post : PUnit → σ → Prop} {fail : ε → σ → Prop} (change : σ → σ) :
    Delivers (modify change : Eff σ ε PUnit) state post fail ↔ post ⟨⟩ (change state) := Iff.rfl

@[simp] theorem delivers_lift {x : Except ε α} {post : α → σ → Prop} {fail : ε → σ → Prop} :
    Delivers (Eff.lift x) state post fail ↔
      (∀ value, x = .ok value → post value state) ∧ ∀ error, x = .error error → fail error state := by
  cases x <;> simp [Delivers,Eff.lift]

@[simp] theorem delivers_bind {x : Eff σ ε α} {next : α → Eff σ ε β} {post : β → σ → Prop} {fail : ε → σ → Prop} :
    Delivers (x >>= next) state post fail ↔
      Delivers x state (fun value reached => Delivers (next value) reached post fail) fail := by
  simp only [Delivers,bind,EStateM.bind]
  cases x state <;> rfl

@[simp] theorem delivers_mapError {x : Eff σ ε α} {context : ε → δ} {post : α → σ → Prop} {fail : δ → σ → Prop} :
    Delivers (x.mapError context) state post fail ↔
      Delivers x state post (fun error next => fail (context error) next) := by
  simp only [Delivers,Eff.mapError]
  cases x state <;> rfl

@[simp] theorem delivers_attempt {x : Eff σ ε α} {post : Except ε α → σ → Prop} {fail : δ → σ → Prop} :
    Delivers (x.attempt : Eff σ δ (Except ε α)) state post fail ↔
      Delivers x state (fun value next => post (.ok value) next) (fun error next => post (.error error) next) := by
  simp only [Delivers,Eff.attempt]
  cases x state <;> rfl

@[simp] theorem delivers_within {part : τ → σ} {put : τ → σ → τ} {x : Eff σ ε α} {whole : τ}
    {post : α → τ → Prop} {fail : ε → τ → Prop} :
    Delivers (x.within part put) whole post fail ↔
      Delivers x (part whole) (fun value next => post value (put whole next))
        (fun error next => fail error (put whole next)) := by
  simp only [Delivers,Eff.within]
  cases x (part whole) <;> rfl

-- A step whose effect is known, then the rest.
theorem Delivers.bind {x : Eff σ ε α} {next : α → Eff σ ε β} {reach : α → σ → Prop} {stop : ε → σ → Prop}
    {post : β → σ → Prop} {fail : ε → σ → Prop} (first : Delivers x state reach stop)
    (rest : ∀ value reached, reach value reached → Delivers (next value) reached post fail)
    (bad : ∀ error reached, stop error reached → fail error reached) : Delivers (x >>= next) state post fail :=
  delivers_bind.mpr (first.mono rest bad)

theorem Delivers.of_ok {x : Eff σ ε α} {post : α → σ → Prop} {fail : ε → σ → Prop} {value : α} {next : σ}
    (delivers : Delivers x state post fail) (ran : x state = .ok value next) : post value next := by
  simpa only [Delivers,ran] using delivers

theorem Delivers.of_error {x : Eff σ ε α} {post : α → σ → Prop} {fail : ε → σ → Prop} {error : ε} {next : σ}
    (delivers : Delivers x state post fail) (ran : x state = .error error next) : fail error next := by
  simpa only [Delivers,ran] using delivers

theorem Delivers.self (x : Eff σ ε α) (state : σ) :
    Delivers x state (fun value next => x state = .ok value next) (fun error next => x state = .error error next) := by
  unfold Delivers
  cases x state <;> rfl

theorem Delivers.returns {x : Eff σ ε α} {post : α → σ → Prop}
    (delivers : Delivers x state post (fun _ _ => False)) :
    ∃ value next, x state = .ok value next ∧ post value next := by
  unfold Delivers at delivers
  cases ran : x state with
  | ok value next => simp only [ran] at delivers; exact ⟨value,next,rfl,delivers⟩
  | error error next => simp only [ran] at delivers

-- A loop over a list keeps what each turn keeps.
theorem Delivers.forM {items : List α} {act : α → Eff σ ε PUnit} {keeps : σ → Prop} {fail : ε → σ → Prop}
    (turn : ∀ item ∈ items, ∀ reached, keeps reached →
      Delivers (act item) reached (fun _ next => keeps next) fail)
    (start : keeps state) : Delivers (items.forM act) state (fun _ next => keeps next) fail := by
  induction items generalizing state with
  | nil => exact start
  | cons item rest ih =>
    change Delivers (act item >>= fun _ => rest.forM act) state _ _
    refine (turn item List.mem_cons_self state start).bind ?_ (fun _ _ stopped => stopped)
    intro _ reached kept
    exact ih (fun other member => turn other (List.mem_cons_of_mem _ member)) kept

end rules

-- What every outcome of a computation leaves behind, whatever it returns.
def Leaves {σ ε α : Type} (x : Eff σ ε α) (relation : σ → σ → Prop) : Prop :=
  ∀ state, Delivers x state (fun _ next => relation state next) (fun _ next => relation state next)

section leaves
variable {σ ε δ α β : Type} {relation : σ → σ → Prop}

theorem Leaves.pure (value : α) (same : ∀ state, relation state state) :
    Leaves (pure value : Eff σ ε α) relation := same

theorem Leaves.throw (error : ε) (same : ∀ state, relation state state) :
    Leaves (throw error : Eff σ ε α) relation := same

theorem Leaves.lift (x : Except ε α) (same : ∀ state, relation state state) : Leaves (Eff.lift x) relation :=
  fun state => delivers_lift.mpr ⟨fun _ _ => same state,fun _ _ => same state⟩

theorem Leaves.bind {x : Eff σ ε α} {next : α → Eff σ ε β} (first : Leaves x relation)
    (rest : ∀ value, Leaves (next value) relation)
    (chain : ∀ a b c, relation a b → relation b c → relation a c) : Leaves (x >>= next) relation := by
  intro state
  refine (first state).bind ?_ (fun _ _ stopped => stopped)
  intro value reached moved
  exact (rest value reached).mono (fun _ _ later => chain _ _ _ moved later) (fun _ _ later => chain _ _ _ moved later)

theorem Leaves.mapError {x : Eff σ ε α} {context : ε → δ} (inner : Leaves x relation) :
    Leaves (x.mapError context) relation := fun state => delivers_mapError.mpr (inner state)

end leaves

-- Every failure of a computation belongs to a class of errors, wherever it starts.
def Stops {σ ε α : Type} (allowed : ε → Prop) (x : Eff σ ε α) : Prop :=
  ∀ state, Delivers x state (fun _ _ => True) (fun error _ => allowed error)

section stops
variable {σ ε δ α β : Type} {allowed : ε → Prop} {x : Eff σ ε α}

theorem Stops.pure (value : α) : Stops allowed (pure value : Eff σ ε α) := fun _ => trivial

theorem Stops.throw {error : ε} (member : allowed error) : Stops allowed (throw error : Eff σ ε α) := fun _ => member

theorem Stops.get : Stops allowed (get : Eff σ ε σ) := fun _ => trivial

theorem Stops.modify (change : σ → σ) : Stops allowed (modify change : Eff σ ε PUnit) := fun _ => trivial

theorem Stops.lift {x : Except ε α} (fails : FailsWith allowed x) : Stops (σ := σ) allowed (Eff.lift x) :=
  fun _ => delivers_lift.mpr ⟨fun _ _ => trivial,fails⟩

theorem Stops.bind {next : α → Eff σ ε β} (first : Stops allowed x) (rest : ∀ value, Stops allowed (next value)) :
    Stops allowed (x >>= next) :=
  fun state => (first state).bind (fun value reached _ => rest value reached) (fun _ _ stopped => stopped)

theorem Stops.mapError {allowed : δ → Prop} {context : ε → δ} (always : ∀ error, allowed (context error)) :
    Stops allowed (x.mapError context) :=
  fun state => delivers_mapError.mpr ((Delivers.self x state).mono (fun _ _ _ => trivial) (fun error _ _ => always error))

theorem Stops.attempt {allowed : δ → Prop} : Stops allowed (x.attempt : Eff σ δ (Except ε α)) :=
  fun state => delivers_attempt.mpr ((Delivers.self x state).mono (fun _ _ _ => trivial) (fun _ _ _ => trivial))

theorem Stops.ite {chosen : Prop} [Decidable chosen] {y : Eff σ ε α} (first : chosen → Stops allowed x)
    (second : ¬chosen → Stops allowed y) : Stops allowed (if chosen then x else y) := by
  split
  · rename_i held
    exact first held
  · rename_i other
    exact second other

theorem Stops.forM {items : List α} {act : α → Eff σ ε PUnit} (turn : ∀ item, Stops allowed (act item)) :
    Stops allowed (items.forM act) := by
  have kept : ∀ item ∈ items, ∀ reached : σ, True →
      Delivers (act item) reached (fun _ _ => True) (fun error _ => allowed error) := fun item _ reached _ => turn item reached
  exact fun _ => Delivers.forM kept trivial

end stops

end ExpirKv
