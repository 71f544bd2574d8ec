import ExpirKv.Library.Bytes

namespace ExpirKv

-- `if refused { return Err(error) }`.
def rejectIf (refused : Prop) [Decidable refused] (error : ε) : Except ε Unit :=
  if refused then .error error else .ok ()

-- `value.ok_or_else(|| error)`.
def orError (value : Option α) (error : ε) : Except ε α :=
  match value with
  | some value => .ok value
  | none => .error error

section ok
variable {ε α β : Type}

@[simp] theorem bind_ok {x : Except ε α} {next : α → Except ε β} {result : β} :
    (x >>= next) = .ok result ↔ ∃ value, x = .ok value ∧ next value = .ok result := by
  cases x <;> simp [bind,Except.bind]

-- A check has nothing to hand on.
@[simp] theorem exists_unit {holds : Unit → Prop} : (∃ value, holds value) ↔ holds () :=
  ⟨fun ⟨_,held⟩ => held,fun held => ⟨(),held⟩⟩

@[simp] theorem ok_bind (value : α) (next : α → Except ε β) : ((.ok value : Except ε α) >>= next) = next value := rfl
@[simp] theorem error_bind (error : ε) (next : α → Except ε β) :
    ((.error error : Except ε α) >>= next) = .error error := rfl
@[simp] theorem pure_ok (value : α) : (pure value : Except ε α) = .ok value := rfl
@[simp] theorem throw_error (error : ε) : (throw error : Except ε α) = .error error := rfl

@[simp] theorem rejectIf_ok {refused : Prop} [Decidable refused] {error : ε} {value : Unit} :
    rejectIf refused error = .ok value ↔ ¬refused := by
  unfold rejectIf; split <;> simp_all

theorem ok_of_toOption {x : Except ε α} {value : α} (there : x.toOption = some value) : x = .ok value := by
  cases x with
  | ok found => rw [Option.some.inj there]
  | error _ => cases there

theorem ok_of_isSome {x : Except ε α} (there : x.toOption.isSome = true) : ∃ value, x = .ok value := by
  obtain ⟨value,found⟩ := Option.isSome_iff_exists.mp there
  exact ⟨value,ok_of_toOption found⟩

theorem ok_of_any {x : Except ε α} {check : α → Bool} (there : x.toOption.any check = true) :
    ∃ value, x = .ok value ∧ check value = true := by
  cases x with
  | ok value => exact ⟨value,rfl,there⟩
  | error _ => cases there

theorem rejectIf_false {refused : Prop} [Decidable refused] {error : ε} (accepted : ¬refused) :
    rejectIf refused error = .ok () := rejectIf_ok.mpr accepted

theorem rejectIf_true {refused : Prop} [Decidable refused] {error : ε} (refusal : refused) :
    rejectIf refused error = .error error := if_pos refusal

@[simp] theorem orError_ok {option : Option α} {error : ε} {value : α} :
    orError option error = .ok value ↔ option = some value := by
  cases option <;> simp [orError]

@[simp] theorem map_ok {x : Except ε α} {f : α → β} {result : β} :
    x.map f = .ok result ↔ ∃ value, x = .ok value ∧ f value = result := by
  cases x <;> simp [Except.map]

@[simp] theorem ok_map (value : α) (f : α → β) : (.ok value : Except ε α).map f = .ok (f value) := rfl

theorem map_bind {γ : Type} (x : Except ε α) (next : α → Except ε β) (f : β → γ) :
    (x >>= next).map f = x >>= fun value => (next value).map f := by
  cases x <;> rfl

@[simp] theorem mapError_ok {ε' : Type} {x : Except ε α} {context : ε → ε'} {value : α} :
    x.mapError context = .ok value ↔ x = .ok value := by
  cases x <;> simp [Except.mapError]

end ok

-- Every failure of a computation belongs to a class of errors. The class is
-- closed under sequencing, so it is proved once for each decoder.
def FailsWith (allowed : ε → Prop) (x : Except ε α) : Prop := ∀ error, x = .error error → allowed error

section fails
variable {ε α β : Type} {allowed : ε → Prop}

@[simp] theorem failsWith_ok (value : α) : FailsWith allowed (.ok value) := by
  intro error failed; cases failed

@[simp] theorem failsWith_error {error : ε} : FailsWith allowed (.error error : Except ε α) ↔ allowed error := by
  constructor
  · intro fails; exact fails error rfl
  · intro member other failed; cases failed; exact member

@[simp] theorem failsWith_bind {x : Except ε α} {next : α → Except ε β} :
    FailsWith allowed (x >>= next) ↔
      FailsWith allowed x ∧ ∀ value, x = .ok value → FailsWith allowed (next value) := by
  cases x with
  | error error => simp
  | ok value => simp

@[simp] theorem failsWith_rejectIf {refused : Prop} [Decidable refused] {error : ε} :
    FailsWith allowed (rejectIf refused error) ↔ (refused → allowed error) := by
  unfold rejectIf
  split <;> simp_all

@[simp] theorem failsWith_orError {option : Option α} {error : ε} :
    FailsWith allowed (orError option error) ↔ (option = none → allowed error) := by
  cases option <;> simp [orError]

@[simp] theorem failsWith_map {x : Except ε α} {f : α → β} :
    FailsWith allowed (x.map f) ↔ FailsWith allowed x := by
  cases x <;> simp [Except.map]

@[simp] theorem failsWith_mapError {ε' : Type} {allowed : ε' → Prop} {x : Except ε α} {context : ε → ε'} :
    FailsWith allowed (x.mapError context) ↔ FailsWith (fun error => allowed (context error)) x := by
  cases x <;> simp [Except.mapError]

theorem FailsWith.ite {refused : Prop} [Decidable refused] {x y : Except ε α}
    (first : FailsWith allowed x) (second : FailsWith allowed y) :
    FailsWith allowed (if refused then x else y) := by
  split <;> assumption

end fails

-- A loop that threads a state through a list and stops at the first error.
theorem foldlM_ok_cons {ε α σ : Type} {step : σ → α → Except ε σ} {state result : σ} {item : α} {rest : List α} :
    (item :: rest).foldlM step state = .ok result ↔
      ∃ next, step state item = .ok next ∧ rest.foldlM step next = .ok result := by
  simp [List.foldlM_cons]

theorem foldlM_total {ε α σ : Type} {step : σ → α → Except ε σ} {items : List α} {start : σ}
    (each : ∀ item ∈ items, ∀ state, ∃ next, step state item = .ok next) :
    ∃ result, items.foldlM step start = .ok result := by
  induction items generalizing start with
  | nil => exact ⟨start,rfl⟩
  | cons item rest ih =>
    obtain ⟨next,stepped⟩ := each item List.mem_cons_self start
    obtain ⟨result,later⟩ := @ih next (fun other member => each other (List.mem_cons_of_mem _ member))
    exact ⟨result,foldlM_ok_cons.mpr ⟨next,stepped,later⟩⟩

-- A list of checks passes when each of them does.
theorem forM_ok {ε α : Type} {check : α → Except ε Unit} {items : List α} :
    items.forM check = .ok () ↔ ∀ item ∈ items, check item = .ok () := by
  induction items with
  | nil => simp [List.forM]
  | cons first rest ih =>
    change (check first >>= fun _ => rest.forM check) = .ok () ↔ _
    simp only [bind_ok,exists_unit,ih,List.forall_mem_cons]

-- A checked map, read off element by element.
theorem mapM_ok_nil {ε α β : Type} {f : α → Except ε β} {results : List β} (mapped : [].mapM f = .ok results) :
    results = [] := by
  simpa [eq_comm] using mapped

theorem mapM_ok_cons {ε α β : Type} {f : α → Except ε β} {item : α} {rest : List α} {results : List β}
    (mapped : (item :: rest).mapM f = .ok results) :
    ∃ first later, f item = .ok first ∧ rest.mapM f = .ok later ∧ results = first :: later := by
  simp only [List.mapM_cons,bind_ok,pure_ok,Except.ok.injEq] at mapped
  obtain ⟨first,done,later,mapped,rfl⟩ := mapped
  exact ⟨first,later,done,mapped,rfl⟩

theorem mapM_ok_iff {ε α β : Type} {f : α → Except ε β} {items : List α} :
    (∃ results, items.mapM f = .ok results) ↔ ∀ item ∈ items, ∃ result, f item = .ok result := by
  induction items with
  | nil => exact ⟨fun _ _ member => (by cases member),fun _ => ⟨[],rfl⟩⟩
  | cons item rest ih =>
    rw [List.forall_mem_cons,←ih]
    constructor
    · intro accepted
      obtain ⟨results,mapped⟩ := accepted
      obtain ⟨first,later,done,others,-⟩ := mapM_ok_cons mapped
      exact ⟨⟨first,done⟩,later,others⟩
    · intro both
      obtain ⟨⟨first,done⟩,later,others⟩ := both
      exact ⟨first :: later,by rw [List.mapM_cons,done,ok_bind,others]; rfl⟩

theorem mapM_ok_zip {ε α β : Type} {f : α → Except ε β} {items : List α} {results : List β}
    (mapped : items.mapM f = .ok results) : ∀ pair ∈ items.zip results, f pair.1 = .ok pair.2 := by
  induction items generalizing results with
  | nil => simp
  | cons item rest ih =>
    obtain ⟨first,later,done,others,rfl⟩ := mapM_ok_cons mapped
    rw [List.zip_cons_cons,List.forall_mem_cons]
    exact ⟨done,ih others⟩

theorem mapM_eq_map {ε α β : Type} {f : α → Except ε β} {g : α → β} {items : List α}
    (each : ∀ item ∈ items, f item = .ok (g item)) : items.mapM f = .ok (items.map g) := by
  induction items with
  | nil => rfl
  | cons item rest ih =>
    rw [List.mapM_cons,each item List.mem_cons_self,ok_bind,ih (fun other member => each other
      (List.mem_cons_of_mem _ member))]
    rfl

theorem mapM_ok_length {ε α β : Type} {f : α → Except ε β} {items : List α} {results : List β}
    (mapped : items.mapM f = .ok results) : results.length = items.length := by
  induction items generalizing results with
  | nil =>
    obtain rfl := mapM_ok_nil mapped
    rfl
  | cons item rest ih =>
    obtain ⟨first,later,-,others,rfl⟩ := mapM_ok_cons mapped
    rw [List.length_cons,List.length_cons,ih others]

theorem mapM_ok_append {ε α β : Type} {f : α → Except ε β} {front back : List α} {results : List β}
    (mapped : (front ++ back).mapM f = .ok results) :
    ∃ first later, front.mapM f = .ok first ∧ back.mapM f = .ok later ∧ results = first ++ later := by
  simp only [List.mapM_append,bind_ok,pure_ok,Except.ok.injEq] at mapped
  obtain ⟨first,done,later,mapped,rfl⟩ := mapped
  exact ⟨first,later,done,mapped,rfl⟩

theorem failsWith_mapM {ε α β : Type} {allowed : ε → Prop} {f : α → Except ε β} {items : List α}
    (each : ∀ item ∈ items, FailsWith allowed (f item)) : FailsWith allowed (items.mapM f) := by
  induction items with
  | nil => simp
  | cons item rest ih =>
    rw [List.forall_mem_cons] at each
    have later := ih each.2
    simp [List.mapM_cons,each.1,later]

end ExpirKv
