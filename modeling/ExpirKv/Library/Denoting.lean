import ExpirKv.Library.LastWrite

namespace ExpirKv

-- A map of handles stands for a map of values when each handle stands for the value at its key.
section denoting
variable {κ π ν : Type} {stands wider : κ → π → ν → Prop} {handles : κ → Option π} {values other : κ → Option ν}

def Denotes (stands : κ → π → ν → Prop) (handles : κ → Option π) (values : κ → Option ν) : Prop :=
  ∀ key, Option.Rel (stands key) (handles key) (values key)

theorem Denotes.mono (denotes : Denotes stands handles values)
    (more : ∀ key handle value, stands key handle value → wider key handle value) : Denotes wider handles values := by
  intro key
  have here := denotes key
  generalize handles key = handle,values key = value at here ⊢
  cases here with
  | some stood => exact .some (more _ _ _ stood)
  | none => exact .none

theorem Denotes.found {key : κ} {handle : π} (denotes : Denotes stands handles values)
    (there : handles key = some handle) : ∃ value, values key = some value ∧ stands key handle value := by
  have here := denotes key
  rw [there] at here
  generalize values key = value at here
  cases here with
  | some stood => exact ⟨_,rfl,stood⟩

theorem Denotes.absent {key : κ} (denotes : Denotes stands handles values) (there : handles key = none) :
    values key = none := by
  have here := denotes key
  rw [there] at here
  generalize values key = value at here
  cases here with
  | none => rfl

-- Handles that stand for one value each leave no choice.
theorem Denotes.unique (single : ∀ key handle one two, stands key handle one → stands key handle two → one = two)
    (denotes : Denotes stands handles values) (again : Denotes stands handles other) : values = other := by
  funext key
  cases there : handles key with
  | none => rw [denotes.absent there,again.absent there]
  | some handle =>
    obtain ⟨one,first,stood⟩ := denotes.found there
    obtain ⟨two,second,held⟩ := again.found there
    rw [first,second,single _ _ _ _ stood held]

variable [DecidableEq κ]

theorem Denotes.update {key : κ} {handle : Option π} {value : Option ν} (denotes : Denotes stands handles values)
    (related : Option.Rel (stands key) handle value) :
    Denotes stands (Function.update handles key handle) (Function.update values key value) := by
  intro asked
  by_cases same : asked = key
  · subst same
    rw [Function.update_self,Function.update_self]
    exact related
  · rw [Function.update_of_ne same,Function.update_of_ne same]
    exact denotes asked

-- One log of writes on both sides.
theorem Denotes.writeAll {writes : List (κ × Option π)} {meanings : List (κ × Option ν)}
    (denotes : Denotes stands handles values)
    (each : List.Forall₂ (fun write meaning => write.1 = meaning.1 ∧ Option.Rel (stands write.1) write.2 meaning.2)
      writes meanings) : Denotes stands (writeAll handles writes) (writeAll values meanings) := by
  induction each generalizing handles values with
  | nil => exact denotes
  | @cons write meaning _ _ first _ ih =>
    obtain ⟨key,value⟩ := meaning
    obtain ⟨rfl,related⟩ := first
    exact ih (denotes.update related)

end denoting

end ExpirKv
