import Mathlib.Data.List.Basic

namespace ExpirKv

-- A position in a list: the entries before it (nearest first), the entry, the entries after it.
inductive Zipper (α : Type) where
  | unpositioned
  | placed (before : List α) (current : α) (after : List α)
  | exhausted
  deriving DecidableEq, Repr

namespace Zipper
variable {α : Type}

-- Stand on the head of what is ahead, or run off the end.
def ofFront (before : List α) : List α → Zipper α
  | [] => .exhausted
  | entry :: after => .placed before entry after

def ofBack (after : List α) : List α → Zipper α
  | [] => .exhausted
  | entry :: before => .placed before entry after

def first (entries : List α) : Zipper α := ofFront [] entries
def last (entries : List α) : Zipper α := ofBack [] entries.reverse

-- The first entry that is not below the target.
def seek (below : α → Bool) (entries : List α) : Zipper α :=
  ofFront (entries.takeWhile below).reverse (entries.dropWhile below)

def next : Zipper α → Zipper α
  | .placed before current after => ofFront (current :: before) after
  | zipper => zipper

def prev : Zipper α → Zipper α
  | .placed before current after => ofBack (current :: after) before
  | zipper => zipper

def current? : Zipper α → Option α
  | .placed _ current _ => some current
  | _ => none

-- A position of this list and of no other.
def Over (entries : List α) : Zipper α → Prop
  | .placed before current after => entries = before.reverse ++ current :: after
  | _ => True

section ordered
variable {lt : α → α → Prop}

-- In an ordered list the entries on either side of a position are those on either side of its entry.
theorem filter_after {before after : List α} {current : α} {p : α → Bool}
    (ordered : (before.reverse ++ current :: after).Pairwise lt) (above : ∀ entry, lt current entry → p entry = true)
    (same : p current = false) (below : ∀ entry, lt entry current → p entry = false) :
    (before.reverse ++ current :: after).filter p = after := by
  obtain ⟨-,tail,apart⟩ := List.pairwise_append.mp ordered
  have front : before.reverse.filter p = [] := by
    rw [List.filter_eq_nil_iff]
    intro entry member
    simp [below entry (apart entry member current List.mem_cons_self)]
  have back : after.filter p = after := by
    rw [List.filter_eq_self]
    intro entry member
    exact above entry ((List.pairwise_cons.mp tail).1 entry member)
  rw [List.filter_append,front,List.filter_cons,same,back]
  rfl

theorem filter_before {before after : List α} {current : α} {p : α → Bool}
    (ordered : (before.reverse ++ current :: after).Pairwise lt) (above : ∀ entry, lt current entry → p entry = false)
    (same : p current = false) (below : ∀ entry, lt entry current → p entry = true) :
    (before.reverse ++ current :: after).filter p = before.reverse := by
  obtain ⟨-,tail,apart⟩ := List.pairwise_append.mp ordered
  have front : before.reverse.filter p = before.reverse := by
    rw [List.filter_eq_self]
    intro entry member
    exact below entry (apart entry member current List.mem_cons_self)
  have back : after.filter p = [] := by
    rw [List.filter_eq_nil_iff]
    intro entry member
    simp [above entry ((List.pairwise_cons.mp tail).1 entry member)]
  rw [List.filter_append,front,List.filter_cons,same,back]
  simp

-- Skipping what is below a target leaves exactly the entries that are not.
theorem filter_not_below {below : α → Bool} {entries : List α} (ordered : entries.Pairwise lt)
    (closed : ∀ one two, lt one two → below two = true → below one = true) :
    entries.filter (fun entry => !below entry) = entries.dropWhile below := by
  induction entries with
  | nil => rfl
  | cons entry rest ih =>
    obtain ⟨later,ordered⟩ := List.pairwise_cons.mp ordered
    cases low : below entry with
    | true =>
      rw [List.dropWhile_cons_of_pos low,List.filter_cons_of_neg (by simp [low])]
      exact ih ordered
    | false =>
      rw [List.dropWhile_cons_of_neg (by simp [low]),List.filter_eq_self]
      intro other member
      rcases List.mem_cons.mp member with rfl | member
      · simp [low]
      · cases high : below other with
        | false => rfl
        | true =>
          rw [closed entry other (later other member) high] at low
          cases low

end ordered

end Zipper
end ExpirKv
