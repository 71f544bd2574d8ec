import Mathlib

namespace ExpirKv

abbrev Bytes := List UInt8

instance : LawfulBEq Bytes := inferInstance

-- Fixed-width integers as byte strings. The encoder keeps the low `width` bytes,
-- so a round trip needs the value to fit; the decoder never leaves that range.
def leBytes : Nat → Nat → Bytes
  | 0,_ => []
  | width+1,n => UInt8.ofNat (n % 256) :: leBytes width (n / 256)

def leNat : Bytes → Nat
  | [] => 0
  | b :: rest => b.toNat + 256 * leNat rest

def beBytes (width n : Nat) : Bytes := (leBytes width n).reverse
def beNat (bytes : Bytes) : Nat := leNat bytes.reverse

-- `bytes.get(offset..offset + len)`.
def slice? (bytes : Bytes) (offset len : Nat) : Option Bytes :=
  if offset + len ≤ bytes.length then some ((bytes.drop offset).take len) else none

@[simp] theorem leBytes_length (width n : Nat) : (leBytes width n).length = width := by
  induction width generalizing n with
  | zero => rfl
  | succ width ih => simp [leBytes,ih]

@[simp] theorem beBytes_length (width n : Nat) : (beBytes width n).length = width := by
  simp [beBytes]

theorem leNat_lt (bytes : Bytes) : leNat bytes < 256 ^ bytes.length := by
  induction bytes with
  | nil => simp [leNat]
  | cons b rest ih =>
    have digit := UInt8.toNat_lt b
    simp only [leNat,List.length_cons,pow_succ]
    omega

theorem leNat_leBytes {width n : Nat} (fits : n < 256 ^ width) : leNat (leBytes width n) = n := by
  induction width generalizing n with
  | zero => simp at fits; simp [leBytes,leNat,fits]
  | succ width ih =>
    have low : (UInt8.ofNat (n % 256)).toNat = n % 256 := by simp
    have high : n / 256 < 256 ^ width := by
      rw [pow_succ] at fits
      exact Nat.div_lt_of_lt_mul (by omega)
    rw [leBytes,leNat,low,ih high]
    omega

theorem leBytes_leNat (bytes : Bytes) : leBytes bytes.length (leNat bytes) = bytes := by
  induction bytes with
  | nil => rfl
  | cons b rest ih =>
    have digit : b.toNat < 256 := UInt8.toNat_lt b
    have low : (b.toNat + 256 * leNat rest) % 256 = b.toNat := by omega
    have high : (b.toNat + 256 * leNat rest) / 256 = leNat rest := by omega
    simp only [List.length_cons,leNat,leBytes,low,high,ih,UInt8.ofNat_toNat]

theorem leBytes_injective {width m n : Nat} (left : m < 256 ^ width) (right : n < 256 ^ width)
    (same : leBytes width m = leBytes width n) : m = n := by
  rw [←leNat_leBytes left,same,leNat_leBytes right]

theorem beNat_beBytes {width n : Nat} (fits : n < 256 ^ width) : beNat (beBytes width n) = n := by
  simp [beNat,beBytes,leNat_leBytes fits]

theorem beBytes_beNat (bytes : Bytes) : beBytes bytes.length (beNat bytes) = bytes := by
  have round := leBytes_leNat bytes.reverse
  simp only [List.length_reverse] at round
  simp [beBytes,beNat,round]

theorem beNat_lt (bytes : Bytes) : beNat bytes < 256 ^ bytes.length := by
  simpa [beNat] using leNat_lt bytes.reverse

theorem slice?_eq_some {bytes part : Bytes} {offset len : Nat} :
    slice? bytes offset len = some part ↔
      offset + len ≤ bytes.length ∧ part = (bytes.drop offset).take len := by
  unfold slice?
  split
  · rename_i fits; simp [fits,eq_comm]
  · rename_i short; simp [short]

theorem slice?_length {bytes part : Bytes} {offset len : Nat}
    (taken : slice? bytes offset len = some part) : part.length = len := by
  obtain ⟨fits,rfl⟩ := slice?_eq_some.mp taken
  simp only [List.length_take,List.length_drop]
  omega

-- A field read in place splits what follows it off.
theorem drop_eq_slice {bytes field : Bytes} {offset len : Nat} (taken : slice? bytes offset len = some field) :
    bytes.drop offset = field ++ bytes.drop (offset + len) := by
  obtain ⟨-,rfl⟩ := slice?_eq_some.mp taken
  rw [←List.drop_drop,List.take_append_drop]

-- Skip one fixed field of a concatenation.
theorem slice?_skip {first rest : Bytes} {offset len : Nat} (past : first.length ≤ offset) :
    slice? (first ++ rest) offset len = slice? rest (offset - first.length) len := by
  unfold slice?
  have bound : offset + len ≤ (first ++ rest).length ↔ offset - first.length + len ≤ rest.length := by
    simp only [List.length_append]; omega
  rw [List.drop_append,List.drop_eq_nil_of_le past,List.nil_append]
  simp only [bound]

-- Read the field that stands first.
theorem slice?_here {first : Bytes} (rest : Bytes) {len : Nat} (width : first.length = len) :
    slice? (first ++ rest) 0 len = some first := by
  subst width
  simp [slice?]

theorem slice?_mid (before field after : Bytes) {offset len : Nat} (place : before.length = offset)
    (width : field.length = len) : slice? (before ++ (field ++ after)) offset len = some field := by
  rw [slice?_skip (by omega),place,Nat.sub_self,slice?_here after width]

theorem slice?_whole {bytes : Bytes} {len : Nat} (width : bytes.length = len) :
    slice? bytes 0 len = some bytes := by
  simpa using slice?_here [] width

theorem slice?_slice? {bytes part : Bytes} {offset len start width : Nat}
    (taken : slice? bytes offset len = some part) (inside : start + width ≤ len) :
    slice? part start width = slice? bytes (offset + start) width := by
  obtain ⟨fits,rfl⟩ := slice?_eq_some.mp taken
  have short : start + width ≤ ((bytes.drop offset).take len).length := by
    simp only [List.length_take,List.length_drop]; omega
  have long : offset + start + width ≤ bytes.length := by omega
  rw [slice?,if_pos short,slice?,if_pos long]
  simp only [List.drop_take,List.drop_drop,List.take_take]
  congr 1
  congr 1
  omega

theorem slice?_append_left {bytes : Bytes} (rest : Bytes) {offset len : Nat} (inside : offset + len ≤ bytes.length) :
    slice? (bytes ++ rest) offset len = slice? bytes offset len := by
  have long : offset + len ≤ (bytes ++ rest).length := by simp only [List.length_append]; omega
  rw [slice?,if_pos long,slice?,if_pos inside]
  rw [List.drop_append_of_le_length (by omega),List.take_append_of_le_length]
  simp only [List.length_drop]
  omega

-- A prefix answers the reads that stay inside it.
theorem slice?_take {bytes : Bytes} {kept offset len : Nat} (inside : offset + len ≤ kept)
    (fits : offset + len ≤ bytes.length) : slice? (bytes.take kept) offset len = slice? bytes offset len := by
  have whole := List.take_append_drop kept bytes
  have short : offset + len ≤ (bytes.take kept).length := by simp only [List.length_take]; omega
  have step := slice?_append_left (bytes.drop kept) short
  rw [whole] at step
  exact step.symm

end ExpirKv
