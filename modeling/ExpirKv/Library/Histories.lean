import ExpirKv.Library.Effects

namespace ExpirKv
variable {α : Type} {allowed : List α → α → Prop}

-- A history, newest event first, in which what came before an event allowed it.
inductive Grown (allowed : List α → α → Prop) : List α → Prop
  | start : Grown allowed []
  | event {earlier : List α} {event : α} (grown : Grown allowed earlier) (fits : allowed earlier event) :
      Grown allowed (event :: earlier)

theorem Grown.earlier {later earlier : List α} (grown : Grown allowed (later ++ earlier)) : Grown allowed earlier := by
  induction later with
  | nil => exact grown
  | cons event later ih =>
    cases grown with
    | event grown fits => exact ih grown

theorem Grown.fits {later earlier : List α} {event : α} (grown : Grown allowed (later ++ event :: earlier)) :
    allowed earlier event := by
  cases grown.earlier with
  | event grown fits => exact fits

theorem Grown.mono {other : List α → α → Prop} {events : List α} (grown : Grown allowed events)
    (weaker : ∀ earlier event, allowed earlier event → other earlier event) : Grown other events := by
  induction grown with
  | start => exact .start
  | event _ fits ih => exact .event ih (weaker _ _ fits)

-- Events that ask for nothing can follow any history.
theorem Grown.follows {later earlier : List α} (grown : Grown allowed earlier)
    (free : ∀ event ∈ later, ∀ before, allowed before event) : Grown allowed (later ++ earlier) := by
  induction later with
  | nil => exact grown
  | cons event later ih =>
    exact .event (ih fun other member => free other (List.mem_cons_of_mem _ member)) (free event List.mem_cons_self _)

theorem Grown.member {events : List α} {event : α} (grown : Grown allowed events) (member : event ∈ events) :
    ∃ earlier, allowed earlier event := by
  obtain ⟨later,earlier,rfl⟩ := List.append_of_mem member
  exact ⟨earlier,grown.fits⟩

end ExpirKv
