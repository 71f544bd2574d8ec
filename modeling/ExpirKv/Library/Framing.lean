import ExpirKv.Library.Bytes

namespace ExpirKv

section framing
variable {α symbol : Type} {valid : α → Prop} {write : α → List symbol}

-- A writer whose word can be cut off the front of every stream that it begins.
def Separates (valid : α → Prop) (write : α → List symbol) : Prop :=
  ∀ ⦃left right : α⦄ ⦃more others : List symbol⦄, valid left → valid right →
    write left ++ more = write right ++ others → left = right ∧ more = others

namespace Separates

-- A list that runs to the end of its stream needs no mark behind it.
theorem flatMap_injective (item : Separates valid write) (filled : ∀ a, valid a → write a ≠ []) {left right : List α}
    (each : ∀ a ∈ left, valid a) (eachOther : ∀ a ∈ right, valid a)
    (same : left.flatMap write = right.flatMap write) : left = right := by
  induction left generalizing right with
  | nil =>
    cases right with
    | nil => rfl
    | cons second later =>
      simp only [List.flatMap_nil,List.flatMap_cons] at same
      exact absurd (List.append_eq_nil_iff.mp same.symm).1 (filled second (eachOther second List.mem_cons_self))
  | cons first rest ih =>
    cases right with
    | nil =>
      simp only [List.flatMap_nil,List.flatMap_cons] at same
      exact absurd (List.append_eq_nil_iff.mp same).1 (filled first (each first List.mem_cons_self))
    | cons second later =>
      simp only [List.flatMap_cons] at same
      obtain ⟨rfl,behind⟩ := item (each first List.mem_cons_self) (eachOther second List.mem_cons_self) same
      rw [ih (fun a member => each a (List.mem_cons_of_mem _ member))
        (fun a member => eachOther a (List.mem_cons_of_mem _ member)) behind]

end Separates

end framing

section fields

-- The fixed-width fields of a stream, cut off one at a time.
theorem leBytes_separates (width : Nat) : Separates (fun n => n < 256 ^ width) (leBytes width) := by
  intro left right more others first second same
  obtain ⟨word,rest⟩ := List.append_inj same (by simp)
  exact ⟨leBytes_injective first second word,rest⟩

end fields

section codec
variable {α ε symbol : Type} {fits valid : α → Prop} {encode : α → Except ε (List symbol)}
  {decode : List symbol → Except ε α}

-- Both directions of a codec over all strings: the encoder takes the valid values, what it writes of values that fit is
-- read back, and nothing is read that it would not write.
structure ExactCodec (fits valid : α → Prop) (encode : α → Except ε (List symbol))
    (decode : List symbol → Except ε α) : Prop where
  encodes : ∀ value, (∃ encoded, encode value = .ok encoded) ↔ valid value
  round : ∀ value encoded, fits value → encode value = .ok encoded → decode encoded = .ok value
  canonical : ∀ encoded value, decode encoded = .ok value → encode value = .ok encoded ∧ fits value

theorem ExactCodec.decode_ok (exact : ExactCodec fits valid encode decode) {encoded : List symbol} {value : α}
    (fitting : fits value) : decode encoded = .ok value ↔ encode value = .ok encoded := by
  constructor
  · intro read
    exact (exact.canonical encoded value read).1
  · intro written
    exact exact.round value encoded fitting written

end codec

end ExpirKv
