import ExpirKv.Library.Effects

namespace ExpirKv

-- Counting refusals along an endless run of answers.
section refusals
variable {ε β : Type} {answers : Nat → Except ε β} {counted : ε → Bool} {call count : Nat}

def refusedAt (answers : Nat → Except ε β) (counted : ε → Bool) (call : Nat) : Bool :=
  match answers call with
  | .error error => counted error
  | .ok _ => false

-- Since some call nothing was answered but errors, `count` of them of the counted kind.
def Refusals (answers : Nat → Except ε β) (counted : ε → Bool) (call count : Nat) : Prop :=
  ∃ first quiet, call = first + quiet ∧ (∀ turn < quiet, ∃ error, answers (first + turn) = .error error) ∧
    (List.range quiet).countP (fun turn => refusedAt answers counted (first + turn)) = count

theorem Refusals.none (answers : Nat → Except ε β) (counted : ε → Bool) (call : Nat) :
    Refusals answers counted call 0 := by
  refine ⟨call,0,rfl,?_,rfl⟩
  intro turn before
  omega

theorem Refusals.next {error : ε} (before : Refusals answers counted call count) (answer : answers call = .error error) :
    Refusals answers counted (call + 1) (count + if counted error then 1 else 0) := by
  obtain ⟨first,quiet,rfl,errors,counts⟩ := before
  refine ⟨first,quiet + 1,rfl,?_,?_⟩
  · intro turn earlier
    rcases Nat.lt_succ_iff_lt_or_eq.mp earlier with inside | rfl
    · exact errors turn inside
    · exact ⟨error,answer⟩
  · have last : refusedAt answers counted (first + quiet) = counted error := by simp only [refusedAt,answer]
    rw [List.range_succ,List.countP_append,counts,List.countP_singleton,last]

theorem Refusals.more (before : Refusals answers counted call count) {error : ε} (answer : answers call = .error error)
    (kind : counted error = true) : Refusals answers counted (call + 1) (count + 1) := by
  have after := before.next answer
  rwa [if_pos kind] at after

theorem Refusals.same (before : Refusals answers counted call count) {error : ε} (answer : answers call = .error error)
    (kind : counted error = false) : Refusals answers counted (call + 1) count := by
  have after := before.next answer
  rwa [if_neg (by simp [kind])] at after

end refusals

-- Bytes laid over a run of cells.
section overlays
variable {symbol : Type}

def overlay (cells : Nat → symbol) (offset : Nat) (word : List symbol) : Nat → symbol := fun place =>
  if place < offset then cells place else word[place - offset]?.getD (cells place)

@[simp] theorem overlay_nil (cells : Nat → symbol) (offset : Nat) : overlay cells offset [] = cells := by
  funext place
  simp [overlay]

theorem overlay_append (cells : Nat → symbol) (offset : Nat) (word more : List symbol) :
    overlay (overlay cells offset word) (offset + word.length) more = overlay cells offset (word ++ more) := by
  funext place
  unfold overlay
  by_cases before : place < offset
  · rw [if_pos (by omega),if_pos before,if_pos before]
  · by_cases inside : place < offset + word.length
    · rw [if_pos inside,if_neg before,if_neg before,List.getElem?_append_left (by omega)]
    · rw [if_neg inside,if_neg before,if_neg before,List.getElem?_append_right (by omega),
        List.getElem?_eq_none (show word.length ≤ place - offset by omega),Nat.sub_add_eq]
      rfl

theorem overlay_inside {cells : Nat → symbol} {offset place : Nat} {word : List symbol} (low : offset ≤ place)
    (high : place < offset + word.length) : some (overlay cells offset word place) = word[place - offset]? := by
  have bound : place - offset < word.length := by omega
  rw [overlay,if_neg (by omega),List.getElem?_eq_getElem bound]
  rfl

theorem overlay_outside {cells : Nat → symbol} {offset place : Nat} {word : List symbol}
    (outside : place < offset ∨ offset + word.length ≤ place) : overlay cells offset word place = cells place := by
  unfold overlay
  split
  · rfl
  · rw [List.getElem?_eq_none (by omega)]
    rfl

end overlays

end ExpirKv
