import ExpirKv.Library.Results

namespace ExpirKv

-- A log of writes to keys, and what is left of it when only the last write of each
-- key counts. The keys keep the order in which they first occur.
section lastWrite
variable {κ ν : Type} [DecidableEq κ]

def setLast : List (κ × ν) → κ → ν → List (κ × ν)
  | [],key,value => [(key,value)]
  | first :: rest,key,value => if first.1 = key then (key,value) :: rest else first :: setLast rest key value

def lastWrites (writes : List (κ × ν)) : List (κ × ν) :=
  writes.foldl (fun entries write => setLast entries write.1 write.2) []

-- The keys without repetitions.
def firstOccurrences (keys : List κ) : List κ := keys.eraseDups

-- The value of the last write to a key.
def lastValue (writes : List (κ × ν)) (key : κ) : Option ν :=
  (writes.reverse.find? (fun write => write.1 = key)).map Prod.snd

-- A map after a log of writes.
def writeAll (start : κ → ν) (writes : List (κ × ν)) : κ → ν :=
  writes.foldl (fun state write => Function.update state write.1 write.2) start

theorem lastValue_nil (key : κ) : lastValue ([] : List (κ × ν)) key = none := rfl

theorem lastValue_concat (writes : List (κ × ν)) (write : κ × ν) (key : κ) :
    lastValue (writes ++ [write]) key = if write.1 = key then some write.2 else lastValue writes key := by
  simp only [lastValue,List.reverse_append,List.reverse_cons,List.reverse_nil,List.nil_append,List.cons_append,
    List.find?_cons]
  by_cases same : write.1 = key <;> simp [same]

theorem lastValue_append (front back : List (κ × ν)) (key : κ) :
    lastValue (front ++ back) key = (lastValue back key).or (lastValue front key) := by
  simp only [lastValue,List.reverse_append,List.find?_append,Option.map_or]

theorem lastValue_cons (write : κ × ν) (writes : List (κ × ν)) (key : κ) :
    lastValue (write :: writes) key = (lastValue writes key).or (if write.1 = key then some write.2 else none) := by
  have single : lastValue [write] key = if write.1 = key then some write.2 else none := lastValue_concat [] write key
  rw [←single,←lastValue_append,List.singleton_append]

theorem lastValue_map {μ : Type} (f : ν → μ) (writes : List (κ × ν)) (key : κ) :
    lastValue (writes.map (fun write => (write.1,f write.2))) key = (lastValue writes key).map f := by
  induction writes using List.reverseRecOn with
  | nil => rfl
  | append_singleton writes write ih =>
    rw [List.map_append,List.map_singleton,lastValue_concat,lastValue_concat,ih]
    split <;> rfl

-- The last write itself: its place, and no write of the key behind it.
theorem lastValue_place {writes : List (κ × ν)} {key : κ} {value : ν} (last : lastValue writes key = some value) :
    ∃ index : Nat, writes[index]? = some (key,value) ∧
      ∀ (later : Nat) (write : κ × ν), index < later → writes[later]? = some write → write.1 ≠ key := by
  induction writes using List.reverseRecOn with
  | nil => simp [lastValue_nil] at last
  | append_singleton writes write ih =>
    rw [lastValue_concat] at last
    split at last
    · rename_i same
      obtain rfl := Option.some.inj last
      refine ⟨writes.length,by simp [←same],?_⟩
      intro later other beyond found
      have bound := (List.getElem?_eq_some_iff.mp found).1
      simp only [List.length_append,List.length_singleton] at bound
      omega
    · rename_i differs
      obtain ⟨index,found,none⟩ := ih last
      have inside := (List.getElem?_eq_some_iff.mp found).1
      refine ⟨index,by rw [List.getElem?_append_left inside,found],?_⟩
      intro later other beyond there
      by_cases earlier : later < writes.length
      · rw [List.getElem?_append_left earlier] at there
        exact none later other beyond there
      · have bound := (List.getElem?_eq_some_iff.mp there).1
        simp only [List.length_append,List.length_singleton] at bound
        obtain rfl : later = writes.length := by omega
        rw [List.getElem?_concat_length,Option.some.injEq] at there
        exact there ▸ differs

theorem lastValue_isSome {writes : List (κ × ν)} {key : κ} :
    (lastValue writes key).isSome ↔ key ∈ writes.map Prod.fst := by
  induction writes using List.reverseRecOn with
  | nil => simp [lastValue_nil]
  | append_singleton writes write ih =>
    rw [lastValue_concat]
    by_cases same : write.1 = key
    · simp [same]
    · simp only [if_neg same,ih,List.map_append,List.map_cons,List.map_nil,List.mem_append,List.mem_singleton]
      exact ⟨.inl,fun member => member.resolve_right (fun eq => same eq.symm)⟩

theorem lastValue_of_notMem {writes : List (κ × ν)} {key : κ} (absent : key ∉ writes.map Prod.fst) :
    lastValue writes key = none := by
  rw [←lastValue_isSome] at absent
  simpa using absent

theorem setLast_keys (entries : List (κ × ν)) (key : κ) (value : ν) :
    (setLast entries key value).map Prod.fst =
      if key ∈ entries.map Prod.fst then entries.map Prod.fst else entries.map Prod.fst ++ [key] := by
  induction entries with
  | nil => simp [setLast]
  | cons first rest ih =>
    by_cases same : first.1 = key
    · simp [setLast,same]
    · have other : ¬key = first.1 := fun eq => same eq.symm
      simp only [setLast,if_neg same,List.map_cons,ih,List.mem_cons,other,false_or]
      split <;> simp

@[simp] theorem mem_firstOccurrences {keys : List κ} {key : κ} : key ∈ firstOccurrences keys ↔ key ∈ keys :=
  List.mem_eraseDups

theorem firstOccurrences_concat (keys : List κ) (key : κ) :
    firstOccurrences (keys ++ [key]) =
      if key ∈ keys then firstOccurrences keys else firstOccurrences keys ++ [key] := by
  rw [firstOccurrences,List.eraseDups_append,firstOccurrences]
  by_cases member : key ∈ keys
  · simp [List.removeAll,member]
  · simp [List.removeAll,member,List.eraseDups_cons]

theorem lastWrites_concat (writes : List (κ × ν)) (write : κ × ν) :
    lastWrites (writes ++ [write]) = setLast (lastWrites writes) write.1 write.2 := by
  simp [lastWrites]

theorem lastWrites_keys (writes : List (κ × ν)) :
    (lastWrites writes).map Prod.fst = firstOccurrences (writes.map Prod.fst) := by
  induction writes using List.reverseRecOn with
  | nil => rfl
  | append_singleton writes write ih =>
    rw [lastWrites_concat,setLast_keys,ih,List.map_append,List.map_cons,List.map_nil,firstOccurrences_concat]
    simp only [mem_firstOccurrences]

theorem setLast_nodup {entries : List (κ × ν)} (key : κ) (value : ν) (distinct : (entries.map Prod.fst).Nodup) :
    ((setLast entries key value).map Prod.fst).Nodup := by
  rw [setLast_keys]
  split
  · exact distinct
  · rename_i fresh
    exact List.nodup_append.mpr ⟨distinct,List.nodup_singleton _,by
      intro old member new same
      obtain rfl := List.mem_singleton.mp same
      exact fun eq => fresh (eq ▸ member)⟩

theorem lastWrites_nodup (writes : List (κ × ν)) : ((lastWrites writes).map Prod.fst).Nodup := by
  induction writes using List.reverseRecOn with
  | nil => exact List.nodup_nil
  | append_singleton writes write ih =>
    rw [lastWrites_concat]
    exact setLast_nodup _ _ ih

theorem mem_setLast {entries : List (κ × ν)} {key : κ} {value : ν} (distinct : (entries.map Prod.fst).Nodup)
    (entry : κ × ν) :
    entry ∈ setLast entries key value ↔ entry = (key,value) ∨ (entry.1 ≠ key ∧ entry ∈ entries) := by
  induction entries with
  | nil => simp [setLast]
  | cons first rest ih =>
    simp only [List.map_cons,List.nodup_cons] at distinct
    by_cases same : first.1 = key
    · have absent : entry ∈ rest → entry.1 ≠ key := by
        intro member eq
        exact distinct.1 (same ▸ eq ▸ List.mem_map_of_mem member)
      simp only [setLast,if_pos same,List.mem_cons]
      constructor
      · rintro (rfl | member)
        · exact .inl rfl
        · exact .inr ⟨absent member,.inr member⟩
      · rintro (rfl | ⟨other,rfl | member⟩)
        · exact .inl rfl
        · exact absurd same other
        · exact .inr member
    · simp only [setLast,if_neg same,List.mem_cons,ih distinct.2]
      constructor
      · rintro (rfl | rfl | ⟨other,member⟩)
        · exact .inr ⟨same,.inl rfl⟩
        · exact .inl rfl
        · exact .inr ⟨other,.inr member⟩
      · rintro (rfl | ⟨other,rfl | member⟩)
        · exact .inr (.inl rfl)
        · exact .inl rfl
        · exact .inr (.inr ⟨other,member⟩)

theorem mem_lastWrites {writes : List (κ × ν)} {entry : κ × ν} :
    entry ∈ lastWrites writes ↔ lastValue writes entry.1 = some entry.2 := by
  induction writes using List.reverseRecOn with
  | nil => simp [lastWrites,lastValue_nil]
  | append_singleton writes write ih =>
    rw [lastWrites_concat,mem_setLast (lastWrites_nodup writes),lastValue_concat,ih]
    by_cases same : write.1 = entry.1
    · rw [if_pos same,Option.some.injEq]
      constructor
      · rintro (rfl | ⟨other,-⟩)
        · rfl
        · exact absurd same.symm other
      · intro value
        exact .inl (Prod.ext same.symm value.symm)
    · have other : entry.1 ≠ write.1 := fun eq => same eq.symm
      simp only [if_neg same,ne_eq,other,not_false_eq_true,true_and,or_iff_right_iff_imp]
      intro eq
      exact absurd (congrArg Prod.fst eq) other

theorem writeAll_apply (start : κ → ν) (writes : List (κ × ν)) (key : κ) :
    writeAll start writes key = (lastValue writes key).getD (start key) := by
  induction writes using List.reverseRecOn with
  | nil => rfl
  | append_singleton writes write ih =>
    rw [lastValue_concat,writeAll,List.foldl_append]
    change Function.update (writeAll start writes) write.1 write.2 key = _
    by_cases same : write.1 = key
    · subst same
      simp
    · rw [Function.update_of_ne (fun eq => same eq.symm),ih,if_neg same]

theorem lastValue_of_nodup {entries : List (κ × ν)} (distinct : (entries.map Prod.fst).Nodup) {key : κ} {value : ν} :
    lastValue entries key = some value ↔ (key,value) ∈ entries := by
  induction entries using List.reverseRecOn with
  | nil => simp [lastValue_nil]
  | append_singleton entries entry ih =>
    rw [List.map_append,List.nodup_append] at distinct
    obtain ⟨earlier,-,apart⟩ := distinct
    rw [lastValue_concat,List.mem_append,List.mem_singleton,←ih earlier]
    by_cases same : entry.1 = key
    · have fresh : lastValue entries key ≠ some value := by
        intro found
        have member := (ih earlier).mp found
        exact apart key (List.mem_map_of_mem member) entry.1 (by simp) same.symm
      rw [if_pos same,Option.some.injEq,Prod.ext_iff]
      simp [fresh,same,eq_comm]
    · have other : (key,value) ≠ entry := fun eq => same (congrArg Prod.fst eq).symm
      simp only [if_neg same,other,or_false]

-- The keys in order and the last value of each leave no choice.
theorem lastWrites_unique {writes entries : List (κ × ν)}
    (keys : entries.map Prod.fst = firstOccurrences (writes.map Prod.fst))
    (values : ∀ entry ∈ entries, lastValue writes entry.1 = some entry.2) : entries = lastWrites writes := by
  have names : entries.map Prod.fst = (lastWrites writes).map Prod.fst := keys.trans (lastWrites_keys writes).symm
  have count : entries.length = (lastWrites writes).length := by simpa using congrArg List.length names
  apply List.ext_getElem count
  intro index left right
  have name : (entries[index]).1 = ((lastWrites writes)[index]).1 := by
    have here := congrArg (fun list => list[index]?) names
    simpa [left,right] using here
  have mine := values _ (List.getElem_mem left)
  have theirs := mem_lastWrites.mp (List.getElem_mem right)
  rw [name,theirs] at mine
  exact Prod.ext name (Option.some.inj mine).symm

end lastWrite

end ExpirKv
