import ExpirKv.Library.LastWrite

namespace ExpirKv

-- An ordered map from byte strings to byte strings; equal maps are those that answer alike.
abbrev Keyspace := Std.ExtTreeMap Bytes Bytes compare

-- A half-open range of keys; a missing bound is no bound.
structure KeyRange where
  startInclusive : Option Bytes
  endExclusive : Option Bytes
  deriving DecidableEq, Repr

namespace KeyRange

def contains (range : KeyRange) (key : Bytes) : Bool :=
  (match range.startInclusive with
    | none => true
    | some start => compare key start != .lt) &&
  (match range.endExclusive with
    | none => true
    | some stop => compare key stop == .lt)

end KeyRange

namespace Keyspace

-- The entries of a range in key order.
def scan (space : Keyspace) (range : KeyRange) : List (Bytes × Bytes) :=
  space.toList.filter (fun entry => range.contains entry.1)

-- One write: a value or a removal.
def write (space : Keyspace) (key : Bytes) : Option Bytes → Keyspace
  | some value => space.insert key value
  | none => space.erase key

theorem getElem?_write (space : Keyspace) (key other : Bytes) (value : Option Bytes) :
    (space.write key value)[other]? = if key = other then value else space[other]? := by
  cases value with
  | none => simp [write,Std.ExtTreeMap.getElem?_erase]
  | some value => simp [write,Std.ExtTreeMap.getElem?_insert]

theorem ext_getElem? {left right : Keyspace} (same : ∀ key : Bytes, left[key]? = right[key]?) : left = right :=
  Std.ExtTreeMap.ext_getElem? (fun {key} => same key)

theorem mem_scan {space : Keyspace} {range : KeyRange} {entry : Bytes × Bytes} :
    entry ∈ space.scan range ↔ space[entry.1]? = some entry.2 ∧ range.contains entry.1 = true := by
  rw [scan,List.mem_filter]
  obtain ⟨key,value⟩ := entry
  rw [Std.ExtTreeMap.mem_toList_iff_getElem?_eq_some]

abbrev Before (left right : Bytes × Bytes) : Prop := compare left.1 right.1 = .lt

instance : Std.Irrefl Before := ⟨fun entry => by simp [Before]⟩
instance : Std.Antisymm Before := ⟨fun left right first second => by
  have swapped : compare left.1 right.1 = (compare right.1 left.1).swap := Std.OrientedCmp.eq_swap
  rw [first,second] at swapped
  cases swapped⟩

theorem scan_ordered (space : Keyspace) (range : KeyRange) : (space.scan range).Pairwise Before := by
  have ordered := Std.ExtTreeMap.ordered_keys_toList (t := space)
  exact ordered.sublist List.filter_sublist

-- A scan is the ordered list of what it finds.
theorem scan_eq {space : Keyspace} {range : KeyRange} {entries : List (Bytes × Bytes)}
    (ordered : entries.Pairwise Before)
    (found : ∀ entry, entry ∈ entries ↔ space[entry.1]? = some entry.2 ∧ range.contains entry.1 = true) :
    space.scan range = entries :=
  (scan_ordered space range).eq_of_mem_iff ordered (fun entry => mem_scan.trans (found entry).symm)

-- A scan depends on the entries of its range only.
theorem scan_congr {left right : Keyspace} {range : KeyRange}
    (agree : ∀ key, range.contains key = true → left[key]? = right[key]?) : left.scan range = right.scan range := by
  apply scan_eq (scan_ordered _ _)
  intro entry
  rw [mem_scan]
  constructor
  · rintro ⟨found,inside⟩
    exact ⟨(agree _ inside).trans found,inside⟩
  · rintro ⟨found,inside⟩
    exact ⟨(agree _ inside).symm.trans found,inside⟩

end Keyspace

section order

theorem compare_cons (byte other : UInt8) (left right : Bytes) :
    compare (byte :: left) (other :: right) = (compare byte other).then (compare left right) :=
  List.compareLex_cons_cons

theorem compare_append_left (front left right : Bytes) :
    compare (front ++ left) (front ++ right) = compare left right := by
  induction front with
  | nil => rfl
  | cons byte front ih => simp [ih]

-- Of two different strings of one length the rest plays no part.
theorem compare_append_of_lt {left right : Bytes} (more others : Bytes) (width : left.length = right.length)
    (lower : compare left right = .lt) : compare (left ++ more) (right ++ others) = .lt := by
  induction left generalizing right with
  | nil =>
    obtain rfl : right = [] := List.length_eq_zero_iff.mp (by simpa using width.symm)
    cases lower
  | cons byte left ih =>
    cases right with
    | nil => cases width
    | cons other right =>
      simp only [List.cons_append,compare_cons,Ordering.then_eq_lt] at lower ⊢
      obtain first | ⟨same,later⟩ := lower
      · exact .inl first
      · exact .inr ⟨same,ih (by simpa using width) later⟩

-- Strings that begin with parts of one width compare as those parts, then as their rests.
theorem compare_append {left right : Bytes} (width : left.length = right.length) (more others : Bytes) :
    compare (left ++ more) (right ++ others) = (compare left right).then (compare more others) := by
  cases order : compare left right with
  | lt => exact compare_append_of_lt more others width order
  | eq =>
    obtain rfl := Std.compare_eq_iff_eq.mp order
    exact compare_append_left left more others
  | gt =>
    have swapped := compare_append_of_lt others more width.symm (Std.OrientedCmp.lt_of_gt order)
    exact Std.OrientedCmp.gt_of_lt swapped

theorem compare_nil_left (right : Bytes) (present : right ≠ []) : compare ([] : Bytes) right = .lt := by
  cases right with
  | nil => exact absurd rfl present
  | cons byte rest => rfl

theorem compare_append_right (front more : Bytes) (present : more ≠ []) : compare front (front ++ more) = .lt := by
  have step := compare_append_left front [] more
  rw [List.append_nil] at step
  rw [step,compare_nil_left more present]

end order

theorem beBytes_succ (width n : Nat) :
    beBytes (width + 1) n = beBytes width (n / 256) ++ [UInt8.ofNat (n % 256)] := by
  simp [beBytes,leBytes]

-- Big-endian strings of one width are ordered as the numbers they hold.
theorem compare_beBytes_lt {width m n : Nat} (fits : n < 256 ^ width) (lower : m < n) :
    compare (beBytes width m) (beBytes width n) = .lt := by
  induction width generalizing m n with
  | zero => simp at fits; omega
  | succ width ih =>
    rw [beBytes_succ,beBytes_succ]
    have high : n / 256 < 256 ^ width := by
      rw [pow_succ] at fits
      exact Nat.div_lt_of_lt_mul (by omega)
    by_cases same : m / 256 = n / 256
    · rw [same,compare_append_left,compare_cons]
      have digits : m % 256 < n % 256 := by omega
      have first : compare (UInt8.ofNat (m % 256)) (UInt8.ofNat (n % 256)) = .lt := by
        rw [Std.compare_eq_lt]
        simp only [UInt8.lt_iff_toNat_lt,UInt8.toNat_ofNat']
        omega
      rw [first]
      rfl
    · exact compare_append_of_lt _ _ (by simp) (ih high (by omega))

theorem compare_beBytes {width m n : Nat} (left : m < 256 ^ width) (right : n < 256 ^ width) :
    compare (beBytes width m) (beBytes width n) = compare m n := by
  rcases Nat.lt_trichotomy m n with lower | rfl | higher
  · rw [compare_beBytes_lt right lower,Nat.compare_eq_lt.mpr lower]
  · simp
  · rw [Std.OrientedCmp.gt_of_lt (compare_beBytes_lt left higher),Nat.compare_eq_gt.mpr higher]

end ExpirKv
