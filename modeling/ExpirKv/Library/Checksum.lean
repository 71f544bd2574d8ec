import ExpirKv.Library.Bytes

namespace ExpirKv

-- The checksum crate. Only the range of its answers is relied on.
class Crc32c where
  crc32c : Bytes → Nat
  crc32cAppend : Nat → Bytes → Nat
  crc32c_lt : ∀ bytes, crc32c bytes < 4294967296
  crc32cAppend_lt : ∀ checksum bytes, crc32cAppend checksum bytes < 4294967296

export Crc32c (crc32c crc32cAppend crc32c_lt crc32cAppend_lt)

-- The Castagnoli checksum, bit by bit: reflected polynomial, register inverted at both ends.
namespace Castagnoli

def shift (register : Nat) : Nat :=
  if register % 2 = 1 then Nat.xor (register / 2) 0x82F63B78 else register / 2

def feed (register : Nat) (byte : UInt8) : Nat :=
  shift (shift (shift (shift (shift (shift (shift (shift (Nat.xor register byte.toNat))))))))

def append (checksum : Nat) (bytes : Bytes) : Nat :=
  Nat.xor (bytes.foldl feed (Nat.xor (checksum % 4294967296) 0xFFFFFFFF)) 0xFFFFFFFF

theorem xor_lt {left right : Nat} (first : left < 4294967296) (second : right < 4294967296) :
    Nat.xor left right < 4294967296 := @Nat.xor_lt_two_pow left right 32 first second

theorem shift_lt {register : Nat} (small : register < 4294967296) : shift register < 4294967296 := by
  unfold shift
  split
  · exact xor_lt (by omega) (by omega)
  · omega

theorem feed_lt {register : Nat} (small : register < 4294967296) (byte : UInt8) : feed register byte < 4294967296 := by
  have digit : byte.toNat < 256 := UInt8.toNat_lt byte
  exact shift_lt (shift_lt (shift_lt (shift_lt (shift_lt (shift_lt (shift_lt (shift_lt
    (xor_lt small (by omega)))))))))

theorem append_lt (checksum : Nat) (bytes : Bytes) : append checksum bytes < 4294967296 := by
  have loop : ∀ register, register < 4294967296 → bytes.foldl feed register < 4294967296 := by
    induction bytes with
    | nil => exact fun register small => small
    | cons byte rest ih => exact fun register small => ih _ (feed_lt small byte)
  exact xor_lt (loop _ (xor_lt (by omega) (by omega))) (by omega)

-- Feeding pieces one by one is taking the checksum of the string they make.
theorem append_append (checksum : Nat) (bytes more : Bytes) :
    append (append checksum bytes) more = append checksum (bytes ++ more) := by
  have small := append_lt checksum bytes
  unfold append at small ⊢
  rw [Nat.mod_eq_of_lt small,List.foldl_append]
  generalize bytes.foldl feed (Nat.xor (checksum % 4294967296) 0xFFFFFFFF) = register
  have undone : Nat.xor (Nat.xor register 0xFFFFFFFF) 0xFFFFFFFF = register := Nat.xor_xor_cancel_right register _
  rw [undone]

theorem foldl_append (checksum : Nat) (bytes : Bytes) (pieces : List Bytes) :
    pieces.foldl append (append checksum bytes) = append checksum (bytes ++ pieces.flatten) := by
  induction pieces generalizing bytes with
  | nil => simp
  | cons piece rest ih => rw [List.foldl_cons,append_append,ih,List.flatten_cons,List.append_assoc]

-- The check value of the catalogued checksum: the nine digits give E3069283.
example : append 0 [0x31,0x32,0x33,0x34,0x35,0x36,0x37,0x38,0x39] = 0xE3069283 := by decide +kernel

end Castagnoli

@[reducible] def castagnoli : Crc32c :=
  ⟨Castagnoli.append 0,Castagnoli.append,Castagnoli.append_lt 0,Castagnoli.append_lt⟩

end ExpirKv
