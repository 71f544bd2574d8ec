import ExpirKv.Library.Effects

namespace ExpirKv

section mirror
variable {σ ε δ α β : Type} {mirror : σ → σ} {domain : σ → Prop}

-- On the states of a domain the computation answers the same from the mirrored state, and stays in the domain.
def Mirrors (mirror : σ → σ) (domain : σ → Prop) (x : Eff σ ε α) (post : α → Prop) : Prop :=
  ∀ state, domain state →
    match x state with
    | .ok value next => x (mirror state) = .ok value (mirror next) ∧ domain next ∧ post value
    | .error error next => x (mirror state) = .error error (mirror next) ∧ domain next

theorem Mirrors.mono {x : Eff σ ε α} {post wider : α → Prop} (mirrors : Mirrors mirror domain x post)
    (more : ∀ value, post value → wider value) : Mirrors mirror domain x wider := by
  intro state inside
  have both := mirrors state inside
  cases ran : x state with
  | ok value next =>
    simp only [ran] at both
    exact ⟨both.1,both.2.1,more value both.2.2⟩
  | error error next =>
    simp only [ran] at both
    exact both

theorem Mirrors.bind {x : Eff σ ε α} {next : α → Eff σ ε β} {post : α → Prop} {final : β → Prop}
    (mirrors : Mirrors mirror domain x post) (rest : ∀ value, post value → Mirrors mirror domain (next value) final) :
    Mirrors mirror domain (x >>= next) final := by
  intro state inside
  have both := mirrors state inside
  simp only [Bind.bind,EStateM.bind]
  cases ran : x state with
  | ok value reached =>
    simp only [ran] at both
    obtain ⟨same,still,holds⟩ := both
    simp only [same]
    exact rest value holds reached still
  | error error reached =>
    simp only [ran] at both
    simp only [both.1,true_and]
    exact both.2

theorem Mirrors.lift (x : Except ε α) : Mirrors mirror domain (Eff.lift x) (fun value => x = .ok value) := by
  intro state inside
  cases x with
  | ok value => exact ⟨rfl,inside,rfl⟩
  | error error => exact ⟨rfl,inside⟩

theorem Mirrors.pure {value : α} {post : α → Prop} (holds : post value) :
    Mirrors mirror domain (pure value : Eff σ ε α) post :=
  fun _ inside => ⟨rfl,inside,holds⟩

theorem Mirrors.throw (error : ε) {post : α → Prop} : Mirrors mirror domain (throw error : Eff σ ε α) post :=
  fun _ inside => ⟨rfl,inside⟩

theorem Mirrors.mapError {x : Eff σ ε α} {context : ε → δ} {post : α → Prop} (mirrors : Mirrors mirror domain x post) :
    Mirrors mirror domain (x.mapError context) post := by
  intro state inside
  have both := mirrors state inside
  simp only [Eff.mapError]
  cases ran : x state with
  | ok value next =>
    simp only [ran] at both
    simp only [both.1,true_and]
    exact both.2
  | error error next =>
    simp only [ran] at both
    simp only [both.1,true_and]
    exact both.2

theorem Mirrors.attempt {x : Eff σ ε α} {post : α → Prop} (mirrors : Mirrors mirror domain x post) :
    Mirrors mirror domain (x.attempt : Eff σ δ (Except ε α)) (fun _ => True) := by
  intro state inside
  have both := mirrors state inside
  simp only [Eff.attempt]
  cases ran : x state with
  | ok value next =>
    simp only [ran] at both
    simp only [both.1,true_and]
    exact ⟨both.2.1,trivial⟩
  | error error next =>
    simp only [ran] at both
    simp only [both.1,true_and]
    exact ⟨both.2,trivial⟩

-- The outcome alone, without the state that was reached.
def Eff.answer (x : Eff σ ε α) (state : σ) : Except ε α :=
  match x state with
  | .ok value _ => .ok value
  | .error error _ => .error error

theorem Mirrors.answer {x : Eff σ ε α} {post : α → Prop} (mirrors : Mirrors mirror domain x post) {state : σ}
    (inside : domain state) : x.answer (mirror state) = x.answer state := by
  have both := mirrors state inside
  unfold Eff.answer
  cases ran : x state with
  | ok value next =>
    simp only [ran] at both
    simp only [both.1]
  | error error next =>
    simp only [ran] at both
    simp only [both.1]

end mirror

end ExpirKv
