import Mathlib.Data.List.AList

namespace ExpirKv

-- A bounded cache that gives up its oldest entry when it is full and never moves an entry that is asked for.
-- The entries stand newest first.
structure FifoCache (κ ν : Type) (capacity : Nat) where
  entries : AList fun _ : κ => ν
  bounded : entries.keys.length ≤ capacity

namespace FifoCache
variable {κ ν : Type} {capacity : Nat}

def empty : FifoCache κ ν capacity := ⟨∅,Nat.zero_le capacity⟩

def keys (cache : FifoCache κ ν capacity) : List κ := cache.entries.keys

-- What a new entry drives out.
def victim (cache : FifoCache κ ν capacity) : Option κ :=
  if cache.keys.length = capacity then cache.keys.getLast? else none

theorem keys_nodup (cache : FifoCache κ ν capacity) : cache.keys.Nodup := cache.entries.keys_nodup

@[simp] theorem keys_empty : (empty : FifoCache κ ν capacity).keys = [] := rfl

theorem victim_mem {cache : FifoCache κ ν capacity} {oldest : κ} (chosen : cache.victim = some oldest) :
    oldest ∈ cache.keys := by
  unfold victim at chosen
  split at chosen
  · exact List.mem_of_getLast? chosen
  · cases chosen

theorem victim_none {cache : FifoCache κ ν capacity} (positive : 0 < capacity) (chosen : cache.victim = none) :
    cache.keys.length < capacity := by
  have bounded : cache.keys.length ≤ capacity := cache.bounded
  unfold victim at chosen
  split at chosen
  · rename_i full
    rw [List.getLast?_eq_none_iff.mp chosen] at full
    simp only [List.length_nil] at full
    omega
  · omega

-- The keys go from the newest to the oldest by the given age.
def Aged (age : κ → Nat) (cache : FifoCache κ ν capacity) : Prop :=
  cache.keys.Pairwise (fun newer older => age newer < age older)

theorem Aged.tick {cache : FifoCache κ ν capacity} {age later : κ → Nat} (aged : Aged age cache)
    (ticks : ∀ key, later key = age key + 1) : Aged later cache := by
  unfold Aged at *
  refine aged.imp ?_
  intro newer older before
  rw [ticks newer,ticks older]
  omega

variable [DecidableEq κ]

def lookup (cache : FifoCache κ ν capacity) (key : κ) : Option ν := cache.entries.lookup key

def remove (cache : FifoCache κ ν capacity) (key : κ) : FifoCache κ ν capacity :=
  ⟨cache.entries.erase key,by
    rw [AList.keys_erase]
    exact Nat.le_trans List.length_erase_le cache.bounded⟩

def room (cache : FifoCache κ ν capacity) : FifoCache κ ν capacity :=
  match cache.victim with
  | some oldest => cache.remove oldest
  | none => cache

theorem mem_keys {cache : FifoCache κ ν capacity} {key : κ} : key ∈ cache.keys ↔ (cache.lookup key).isSome :=
  AList.mem_keys.symm.trans AList.lookup_isSome.symm

theorem notMem_keys {cache : FifoCache κ ν capacity} {key : κ} : key ∉ cache.keys ↔ cache.lookup key = none := by
  rw [mem_keys,Bool.not_eq_true,Option.isSome_eq_false_iff,Option.isNone_iff_eq_none]

@[simp] theorem lookup_empty (key : κ) : (empty : FifoCache κ ν capacity).lookup key = none := rfl

theorem keys_remove (cache : FifoCache κ ν capacity) (key : κ) : (cache.remove key).keys = cache.keys.erase key :=
  AList.keys_erase key cache.entries

theorem lookup_remove (cache : FifoCache κ ν capacity) (key other : κ) :
    (cache.remove key).lookup other = if other = key then none else cache.lookup other := by
  split
  · rename_i same
    rw [same]
    exact AList.lookup_erase key cache.entries
  · rename_i different
    exact AList.lookup_erase_ne different

theorem room_below (cache : FifoCache κ ν capacity) (positive : 0 < capacity) : cache.room.keys.length < capacity := by
  unfold room
  cases chosen : cache.victim with
  | none => exact victim_none positive chosen
  | some oldest =>
    have bounded : cache.keys.length ≤ capacity := cache.bounded
    have member := victim_mem chosen
    have some := List.length_pos_of_mem member
    simp only [keys_remove,List.length_erase_of_mem member]
    omega

theorem lookup_room (cache : FifoCache κ ν capacity) (key : κ) :
    cache.room.lookup key = if cache.victim = some key then none else cache.lookup key := by
  unfold room
  cases chosen : cache.victim with
  | none => simp only [reduceCtorEq,if_false]
  | some oldest => simp only [lookup_remove,Option.some.injEq,eq_comm]

-- A key that is there keeps its entry and its place; with no capacity nothing is kept.
def insertOrGet (cache : FifoCache κ ν capacity) (key : κ) (candidate : ν) : FifoCache κ ν capacity :=
  if stores : 0 < capacity ∧ cache.lookup key = none then
    ⟨cache.room.entries.insert key candidate,by
      have below := cache.room_below stores.1
      have less : (cache.room.entries.keys.erase key).length ≤ cache.room.keys.length := List.length_erase_le
      rw [AList.keys_insert,List.length_cons]
      omega⟩
  else cache

section stores
variable {cache : FifoCache κ ν capacity} {key : κ} {candidate : ν}

theorem keys_store (positive : 0 < capacity) (missing : cache.lookup key = none) :
    (cache.insertOrGet key candidate).keys = key :: cache.room.keys := by
  have absent : key ∉ cache.room.keys := by
    rw [notMem_keys,lookup_room,missing,ite_self]
  rw [insertOrGet,dif_pos ⟨positive,missing⟩,keys,AList.keys_insert]
  exact congrArg (key :: ·) (List.erase_of_not_mem absent)

theorem lookup_store (positive : 0 < capacity) (missing : cache.lookup key = none) (other : κ) :
    (cache.insertOrGet key candidate).lookup other =
      if other = key then some candidate else if cache.victim = some other then none else cache.lookup other := by
  rw [insertOrGet,dif_pos ⟨positive,missing⟩,← lookup_room]
  split
  · rename_i same
    rw [same]
    exact AList.lookup_insert cache.room.entries
  · rename_i different
    exact AList.lookup_insert_ne different

end stores

section ages
variable {cache : FifoCache κ ν capacity} {age later : κ → Nat}

theorem Aged.remove (aged : Aged age cache) (key : κ) : Aged age (cache.remove key) := by
  unfold Aged
  rw [keys_remove]
  exact aged.sublist List.erase_sublist

theorem Aged.room (aged : Aged age cache) : Aged age cache.room := by
  unfold FifoCache.room
  split
  · exact aged.remove _
  · exact aged

theorem Aged.store {key : κ} {candidate : ν} (aged : Aged age cache) (positive : 0 < capacity)
    (missing : cache.lookup key = none) (first : later key = 0)
    (ticks : ∀ other, other ≠ key → later other = age other + 1) : Aged later (cache.insertOrGet key candidate) := by
  have absent : key ∉ cache.room.keys := by
    rw [notMem_keys,lookup_room,missing,ite_self]
  unfold Aged
  rw [keys_store positive missing,List.pairwise_cons]
  constructor
  · intro older member
    have different : older ≠ key := fun same => absent (same ▸ member)
    rw [first,ticks older different]
    omega
  · refine aged.room.imp_of_mem ?_
    intro newer older left right before
    have one : newer ≠ key := fun same => absent (same ▸ left)
    have two : older ≠ key := fun same => absent (same ▸ right)
    rw [ticks newer one,ticks older two]
    omega

end ages

end FifoCache

end ExpirKv
