import ExpirKv.Cleanup
import ExpirKv.Commit.DescriptorExact

namespace ExpirKv

-- A key of the transaction space: the metadata of a transaction, or its mutation of an ordinal.
structure TxKey where
  commitSeq : Nat
  ordinal : Option Nat
  deriving DecidableEq, Repr

namespace TxKey

def encode (key : TxKey) : Result Bytes :=
  match key.ordinal with
  | none => encodeTxMetaKey key.commitSeq
  | some ordinal => encodeTxMutationKey key.commitSeq ordinal

structure Fits (key : TxKey) : Prop where
  positive : 1 ≤ key.commitSeq
  seq : key.commitSeq < 18446744073709551616
  ordinal : ∀ ordinal ∈ key.ordinal, ordinal < 18446744073709551616

def kind (key : TxKey) : Nat := if key.ordinal.isSome then 1 else 0

-- By sequence, then by kind, then by ordinal.
def order (left right : TxKey) : Ordering :=
  (compare left.commitSeq right.commitSeq).then
    ((compare left.kind right.kind).then (compare (left.ordinal.getD 0) (right.ordinal.getD 0)))

-- What stands behind the sequence.
def tail (key : TxKey) : Bytes :=
  match key.ordinal with
  | none => [txMetaKind]
  | some ordinal => txMutationKind :: beBytes 8 ordinal

theorem encode_ok {key : TxKey} (fits : key.Fits) : key.encode = .ok (txKeyHead key.commitSeq ++ key.tail) := by
  obtain ⟨commitSeq,ordinal⟩ := key
  have present : commitSeq ≠ 0 := Nat.pos_iff_ne_zero.mp fits.positive
  cases ordinal with
  | none => exact encodeTxMetaKey_ok.mpr ⟨present,rfl⟩
  | some ordinal => exact encodeTxMutationKey_ok.mpr ⟨present,rfl⟩

theorem compare_tail {left right : TxKey} (first : left.Fits) (second : right.Fits) :
    compare left.tail right.tail =
      (compare left.kind right.kind).then (compare (left.ordinal.getD 0) (right.ordinal.getD 0)) := by
  obtain ⟨leftSeq,leftOrdinal⟩ := left
  obtain ⟨rightSeq,rightOrdinal⟩ := right
  cases leftOrdinal with
  | none => cases rightOrdinal <;> rfl
  | some i =>
    cases rightOrdinal with
    | none => rfl
    | some j =>
      have digits := compare_beBytes (show i < 256 ^ 8 from first.ordinal i rfl) (show j < 256 ^ 8 from second.ordinal j rfl)
      simp only [tail,compare_cons,kind,Option.isSome_some,if_true,Option.getD_some,Std.ReflCmp.compare_self,
        Ordering.then,digits]

theorem compare_encoded {left right : TxKey} (first : left.Fits) (second : right.Fits) :
    compare (txKeyHead left.commitSeq ++ left.tail) (txKeyHead right.commitSeq ++ right.tail) = left.order right := by
  have heads : compare (txKeyHead left.commitSeq) (txKeyHead right.commitSeq) =
      compare left.commitSeq right.commitSeq := by
    rw [txKeyHead,txKeyHead,compare_append_left]
    exact compare_beBytes (show _ < 256 ^ 8 from first.seq) (show _ < 256 ^ 8 from second.seq)
  rw [compare_append (by simp),heads,compare_tail first second,order]

end TxKey

-- The well-formed keys of a sequence, as either decoder reads them.
def KeyOf (key : Bytes) (commitSeq : Nat) : Prop :=
  decodeTxMetaKey key = .ok commitSeq ∨ ∃ ordinal, decodeTxMutationKey key = .ok (commitSeq,ordinal)

theorem KeyOf.head {key : Bytes} {commitSeq : Nat} (read : KeyOf key commitSeq) :
    (∃ rest, key = txKeyHead commitSeq ++ rest) ∧ commitSeq < 18446744073709551616 := by
  rcases read with metaKey | ⟨ordinal,mutationKey⟩
  · obtain ⟨written,bound⟩ := decodeTxMetaKey_canonical metaKey
    exact ⟨⟨_,(encodeTxMetaKey_ok.mp written).2.symm⟩,bound⟩
  · obtain ⟨written,bound,-⟩ := decodeTxMutationKey_canonical mutationKey
    exact ⟨⟨_,(encodeTxMutationKey_ok.mp written).2.symm⟩,bound⟩

theorem TxKey.Fits.keyed {key : TxKey} {encoded : Bytes} (fits : key.Fits) (written : key.encode = .ok encoded) :
    KeyOf encoded key.commitSeq := by
  obtain ⟨commitSeq,ordinal⟩ := key
  cases ordinal with
  | none => exact .inl (decodeTxMetaKey_encode written fits.seq).1
  | some ordinal => exact .inr ⟨ordinal,(decodeTxMutationKey_encode written fits.seq (fits.ordinal ordinal rfl)).1⟩

theorem stableDescriptorRange_eq (durableSeq : Nat) : stableDescriptorRange durableSeq =
    .ok ⟨none,if durableSeq + 1 < 18446744073709551616 then some (txKeyHead (durableSeq + 1)) else none⟩ := by
  unfold stableDescriptorRange
  split
  · have written := encodeTxMetaKey_ok.mpr ⟨Nat.succ_ne_zero durableSeq,rfl⟩
    have head : (txKeyHead (durableSeq + 1) ++ [txMetaKind]).take 10 = txKeyHead (durableSeq + 1) :=
      List.take_left' (txKeyHead_length _)
    rw [written]
    simp only [Except.mapError,ok_bind,pure_ok,head]
  · rfl

-- A key that starts with the head of some sequence is cut off by sequence, whatever follows the head.
theorem stable_contains {durableSeq commitSeq : Nat} {range : KeyRange} (rest : Bytes)
    (bound : commitSeq < 18446744073709551616) (durable : durableSeq < 18446744073709551616)
    (made : stableDescriptorRange durableSeq = .ok range) :
    range.contains (txKeyHead commitSeq ++ rest) = true ↔ commitSeq ≤ durableSeq := by
  rw [stableDescriptorRange_eq] at made
  obtain rfl := Except.ok.inj made
  by_cases room : durableSeq + 1 < 18446744073709551616
  · have below := txKey_compare rest bound room
    simp only [KeyRange.contains,if_pos room,Bool.true_and,beq_iff_eq,below]
    omega
  · simp only [KeyRange.contains,if_neg room,Bool.true_and,true_iff]
    omega

theorem seqRange_contains {commitSeq other : Nat} (rest : Bytes) (bound : commitSeq < 18446744073709551616)
    (small : other < 18446744073709551616) :
    (seqRange commitSeq).contains (txKeyHead other ++ rest) = true ↔ other = commitSeq := by
  have low := txKey_compare rest small bound
  by_cases room : commitSeq + 1 < 18446744073709551616
  · have high := txKey_compare rest small room
    simp only [seqRange,KeyRange.contains,if_pos room,Bool.and_eq_true,bne_iff_ne,ne_eq,beq_iff_eq,low,high]
    omega
  · simp only [seqRange,KeyRange.contains,if_neg room,Bool.and_true,bne_iff_ne,ne_eq,low]
    omega

-- The unstable range, with `None` as the range of no key.
def inRange (range : Option KeyRange) (key : Bytes) : Bool := range.any (fun range => range.contains key)

theorem unstable_complements {durableSeq headSeq : Nat} {stable : KeyRange} {unstable : Option KeyRange}
    (ordered : durableSeq ≤ headSeq) (made : stableDescriptorRange durableSeq = .ok stable)
    (opened : unstableDescriptorRange durableSeq headSeq = .ok unstable) (key : Bytes) :
    inRange unstable key = !stable.contains key := by
  rw [stableDescriptorRange_eq] at made
  obtain rfl := Except.ok.inj made
  by_cases room : durableSeq + 1 < 18446744073709551616
  · rw [unstableDescriptorRange_eq ordered room] at opened
    obtain rfl := Except.ok.inj opened
    simp only [inRange,Option.any_some,KeyRange.contains,if_pos room,Bool.true_and,Bool.and_true]
    rfl
  · rw [unstableDescriptorRange,rejectIf_false (by omega),ok_bind,if_pos (by omega)] at opened
    obtain rfl := Except.ok.inj opened
    simp [inRange,KeyRange.contains,room]

theorem unstable_made {durableSeq headSeq : Nat} (ordered : durableSeq ≤ headSeq) :
    unstableDescriptorRange durableSeq headSeq =
      .ok (if durableSeq + 1 < 18446744073709551616 then some ⟨some (txKeyHead (durableSeq + 1)),none⟩ else none) := by
  by_cases room : durableSeq + 1 < 18446744073709551616
  · rw [unstableDescriptorRange_eq ordered room,if_pos room]
  · rw [unstableDescriptorRange,rejectIf_false (by omega),ok_bind,if_pos (by omega),if_neg room,pure_ok]

-- Keys sort by sequence, kind and ordinal, and each range meets exactly the keys of its sequences.
theorem transaction_keys_ordered :
    (∀ left right : TxKey, left.Fits → right.Fits →
      ∃ first second, left.encode = .ok first ∧ right.encode = .ok second ∧ KeyOf first left.commitSeq ∧
        KeyOf second right.commitSeq ∧ compare first second = left.order right) ∧
    (∀ durableSeq headSeq : Nat, durableSeq < 18446744073709551616 → headSeq < 18446744073709551616 →
      ∃ stable, stableDescriptorRange durableSeq = .ok stable ∧
        (∀ key commitSeq, KeyOf key commitSeq → (stable.contains key = true ↔ commitSeq ≤ durableSeq)) ∧
        (durableSeq = 18446744073709551615 → stable = ⟨none,none⟩) ∧
        (durableSeq ≤ headSeq → ∃ unstable, unstableDescriptorRange durableSeq headSeq = .ok unstable ∧
          (∀ key commitSeq, KeyOf key commitSeq → (inRange unstable key = true ↔ durableSeq < commitSeq)) ∧
          (∀ key, inRange unstable key = !stable.contains key) ∧
          (durableSeq = 18446744073709551615 → unstable = none)) ∧
        (headSeq < durableSeq → unstableDescriptorRange durableSeq headSeq = .error recoveryCorruption)) ∧
    (∀ commitSeq : Nat, 1 ≤ commitSeq → commitSeq < 18446744073709551616 →
      ∃ range, descriptorRange commitSeq = .ok range ∧
        (∀ key other, KeyOf key other → (range.contains key = true ↔ other = commitSeq)) ∧
        (∀ other rest, other < 18446744073709551616 →
          (range.contains (txKeyHead other ++ rest) = true ↔ other = commitSeq)) ∧
        (commitSeq = 18446744073709551615 → range.endExclusive = none)) := by
  refine ⟨?_,?_,?_⟩
  · intro left right first second
    have leftWritten := TxKey.encode_ok first
    have rightWritten := TxKey.encode_ok second
    exact ⟨_,_,leftWritten,rightWritten,first.keyed leftWritten,second.keyed rightWritten,
      TxKey.compare_encoded first second⟩
  · intro durableSeq headSeq durable head
    obtain ⟨stable,made⟩ : ∃ stable, stableDescriptorRange durableSeq = .ok stable :=
      ⟨_,stableDescriptorRange_eq durableSeq⟩
    have keyed : ∀ key commitSeq, KeyOf key commitSeq → (stable.contains key = true ↔ commitSeq ≤ durableSeq) := by
      intro key commitSeq read
      obtain ⟨⟨rest,rfl⟩,bound⟩ := read.head
      exact stable_contains rest bound durable made
    refine ⟨stable,made,keyed,?_,?_,?_⟩
    · rintro rfl
      exact Except.ok.inj (made.symm.trans (stableDescriptorRange_eq _))
    · intro ordered
      have opened := unstable_made ordered
      have apart := unstable_complements ordered made opened
      refine ⟨_,opened,?_,apart,?_⟩
      · intro key commitSeq read
        rw [apart key,Bool.not_eq_true',←Bool.not_eq_true,keyed key commitSeq read,Nat.not_le]
      · rintro rfl
        rfl
    · intro behind
      rw [unstableDescriptorRange,rejectIf,if_pos behind,error_bind]
  · intro commitSeq positive bound
    refine ⟨_,descriptorRange_eq (Nat.pos_iff_ne_zero.mp positive),?_,?_,?_⟩
    · intro key other read
      obtain ⟨⟨rest,rfl⟩,small⟩ := read.head
      exact seqRange_contains rest bound small
    · intro other rest small
      exact seqRange_contains rest bound small
    · rintro rfl
      rfl

-- The last sequence of all: no upper bound is left, and its keys still stand apart from those before it.
theorem transaction_keys_ordered_last :
    let last : TxKey := ⟨18446744073709551615,none⟩
    let before : TxKey := ⟨18446744073709551614,some 7⟩
    (∃ first second, last.encode = .ok first ∧ before.encode = .ok second ∧ compare first second = .gt) ∧
      stableDescriptorRange 18446744073709551615 = .ok ⟨none,none⟩ ∧
      unstableDescriptorRange 18446744073709551615 18446744073709551615 = .ok none ∧
      ∃ range, descriptorRange 18446744073709551615 = .ok range ∧ range.endExclusive = none ∧
        range.contains (txKeyHead 18446744073709551615 ++ [txMetaKind]) = true ∧
        range.contains (txKeyHead 18446744073709551614 ++ [txMetaKind]) ≠ true := by
  intro last before
  obtain ⟨ordered,cut,single⟩ := transaction_keys_ordered
  have lastFits : last.Fits := ⟨by decide,by decide,fun _ none => by cases none⟩
  have beforeFits : before.Fits := ⟨by decide,by decide,fun _ same => by cases same; decide⟩
  obtain ⟨first,second,firstWritten,secondWritten,-,-,compared⟩ := ordered last before lastFits beforeFits
  obtain ⟨stable,made,-,whole,opened,-⟩ := cut 18446744073709551615 18446744073709551615 (by decide) (by decide)
  obtain ⟨unstable,missing,-,-,empty⟩ := opened (Nat.le_refl _)
  obtain ⟨range,ranged,-,headed,unbounded⟩ := single 18446744073709551615 (by decide) (by decide)
  refine ⟨⟨first,second,firstWritten,secondWritten,compared.trans (by decide)⟩,?_,?_,range,ranged,unbounded rfl,?_,?_⟩
  · rw [made,whole rfl]
  · rw [missing,empty rfl]
  · exact (headed _ _ (by decide)).mpr rfl
  · intro inside
    have same := (headed _ _ (by decide)).mp inside
    omega

end ExpirKv
