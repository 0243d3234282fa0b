import ShadowSocketProxy.Data.Bytes
import Mathlib.Data.Nat.Init

/-! # One's-complement sums

The Internet checksum: 16-bit words in network order are added with an end-around carry, and data
verifies when the sum is all ones. Modulo 65535 the carry disappears, which leaves one question open:
zero has two representations. -/

namespace OnesComplement

open Bytes

/-! ## Sums with an end-around carry -/

/-- Add two 16-bit words. -/
def add (a b : Nat) : Nat := if a + b < 65536 then a + b else a + b - 65535

/-- The sum of the words of a byte string; an odd last byte is the high half of a word. -/
def sum : List UInt8 → Nat
  | [] => 0
  | [a] => 256 * a.toNat
  | a :: b :: rest => add (256 * a.toNat + b.toNat) (sum rest)

/-- Whether a byte string that holds its own checksum verifies. -/
def Verifies (bs : List UInt8) : Prop := sum bs = 0xffff

instance (bs : List UInt8) : Decidable (Verifies bs) := inferInstanceAs (Decidable (_ = _))

/-- The plain sum of the words. -/
def total : List UInt8 → Nat
  | [] => 0
  | [a] => 256 * a.toNat
  | a :: b :: rest => 256 * a.toNat + b.toNat + total rest

/-- The carry keeps the sum modulo 65535, and it keeps it from becoming zero. -/
theorem sum_spec (bs : List UInt8) :
    sum bs ≤ 65535 ∧ sum bs % 65535 = total bs % 65535 ∧ (sum bs = 0 ↔ total bs = 0) := by
  induction bs using sum.induct with
  | case1 => simp [sum, total]
  | case2 a =>
    have ha := a.toNat_lt
    refine ⟨?_, rfl, Iff.rfl⟩
    rw [sum]
    omega
  | case3 a b rest ih =>
    have ha := a.toNat_lt
    have hb := b.toNat_lt
    simp only [sum, total, add]
    split <;> omega

/-- **Data verifies when the sum of its words is a multiple of 65535 but not zero.** -/
theorem verifies_iff (bs : List UInt8) : Verifies bs ↔ total bs % 65535 = 0 ∧ total bs ≠ 0 := by
  have h := sum_spec bs
  rw [Verifies]
  omega

/-! ## Sums over parts of a string -/

/-- Behind an even number of bytes the words are the words of the rest. -/
theorem total_append {xs : List UInt8} (ys : List UInt8) (h : xs.length % 2 = 0) :
    total (xs ++ ys) = total xs + total ys := by
  induction xs using total.induct with
  | case1 => simp [total]
  | case2 a => simp at h
  | case3 a b rest ih =>
    have hrest : rest.length % 2 = 0 := by
      simp only [List.length_cons] at h
      omega
    rw [List.cons_append, List.cons_append, total, total, ih hrest]
    omega

/-- The word at an offset of a string that is given by its bytes. -/
def word (f : Nat → UInt8) (i : Nat) : Nat := 256 * (f i).toNat + (f (i + 1)).toNat

/-- The sum of the words of `n` bytes from `s` on. -/
def span (f : Nat → UInt8) (s : Nat) : Nat → Nat
  | 0 => 0
  | 1 => 256 * (f s).toNat
  | n + 2 => word f s + span f (s + 2) n

variable {f g : Nat → UInt8}

theorem span_two (s : Nat) : span f s 2 = word f s := by
  rw [span, span, Nat.add_zero]

/-- A sum splits at an even distance. -/
theorem span_add (s k n : Nat) : span f s (2 * k + n) = span f s (2 * k) + span f (s + 2 * k) n := by
  induction k generalizing s with
  | zero => simp [span]
  | succ k ih =>
    have hleft : 2 * (k + 1) + n = 2 * k + n + 2 := by omega
    have hright : 2 * (k + 1) = 2 * k + 2 := by omega
    have hstart : s + 2 + 2 * k = s + (2 * k + 2) := by omega
    rw [hleft, hright, span, span, ih, hstart]
    omega

theorem span_congr {s n : Nat} (h : ∀ i, s ≤ i → i < s + n → f i = g i) : span f s n = span g s n := by
  induction n using Nat.twoStepInduction generalizing s with
  | zero => rfl
  | one => rw [span, span, h s (by omega) (by omega)]
  | more n ih _ =>
    rw [span, span, word, word, h s (by omega) (by omega), h (s + 1) (by omega) (by omega),
      ih fun i hlow hhigh => h i (by omega) (by omega)]

/-- **Replacing words inside a range replaces them in the sum.** The range is `n` bytes from `s` on, and
`m` bytes at the even distance `2 * k` differ. -/
theorem span_replace {s n k m : Nat} (hm : m % 2 = 0) (hin : 2 * k + m ≤ n)
    (h : ∀ i, s ≤ i → i < s + n → ¬ (s + 2 * k ≤ i ∧ i < s + 2 * k + m) → g i = f i) :
    span g s n + span f (s + 2 * k) m = span f s n + span g (s + 2 * k) m := by
  obtain ⟨j, rfl⟩ : ∃ j, m = 2 * j := ⟨m / 2, by omega⟩
  obtain ⟨rest, rfl⟩ : ∃ rest, n = 2 * k + (2 * j + rest) := ⟨n - (2 * k + 2 * j), by omega⟩
  have hbefore : span g s (2 * k) = span f s (2 * k) := span_congr fun i hlow hhigh =>
    h i hlow (by omega) (by omega)
  have hbehind : span g (s + 2 * k + 2 * j) rest = span f (s + 2 * k + 2 * j) rest :=
    span_congr fun i hlow hhigh => h i (by omega) (by omega) (by omega)
  rw [span_add s k, span_add s k, span_add (s + 2 * k) j, span_add (s + 2 * k) j, hbefore, hbehind]
  omega

/-- The same with two parts that do not overlap. -/
theorem span_replace_two {s n j k l m : Nat} (hl : l % 2 = 0) (hm : m % 2 = 0) (hj : 2 * j + l ≤ n)
    (hk : 2 * k + m ≤ n) (hapart : 2 * j + l ≤ 2 * k ∨ 2 * k + m ≤ 2 * j)
    (h : ∀ i, s ≤ i → i < s + n → ¬ (s + 2 * j ≤ i ∧ i < s + 2 * j + l) →
      ¬ (s + 2 * k ≤ i ∧ i < s + 2 * k + m) → g i = f i) :
    span g s n + (span f (s + 2 * j) l + span f (s + 2 * k) m) =
      span f s n + (span g (s + 2 * j) l + span g (s + 2 * k) m) := by
  -- First the one part, then the other.
  let middle : Nat → UInt8 := fun i => if s + 2 * j ≤ i ∧ i < s + 2 * j + l then g i else f i
  have hfirst : span middle s n + span f (s + 2 * j) l = span f s n + span middle (s + 2 * j) l :=
    span_replace hl hj fun i _ _ hout => if_neg hout
  have hsecond : span g s n + span middle (s + 2 * k) m = span middle s n + span g (s + 2 * k) m := by
    refine span_replace hm hk fun i hlow hhigh hout => ?_
    by_cases hin : s + 2 * j ≤ i ∧ i < s + 2 * j + l
    · exact (if_pos hin).symm
    · exact (h i hlow hhigh hin hout).trans (if_neg hin).symm
  have hone : span middle (s + 2 * j) l = span g (s + 2 * j) l :=
    span_congr fun i hlow hhigh => if_pos ⟨hlow, hhigh⟩
  have hother : span middle (s + 2 * k) m = span f (s + 2 * k) m :=
    span_congr fun i hlow hhigh => if_neg (by omega)
  omega

theorem span_shift (d s n : Nat) : span (fun i => f (d + i)) s n = span f (d + s) n := by
  induction n using Nat.twoStepInduction generalizing s with
  | zero => rfl
  | one => rfl
  | more n ih _ =>
    rw [span, span, ih]
    rfl

theorem span_eq_zero {s n : Nat} (h : ∀ i, s ≤ i → f i = 0) : span f s n = 0 := by
  induction n using Nat.twoStepInduction generalizing s with
  | zero => rfl
  | one => rw [span, h s (Nat.le_refl s)]; rfl
  | more n ih _ =>
    rw [span, word, h s (Nat.le_refl s), h (s + 1) (by omega), ih fun i hi => h i (by omega)]
    rfl

/-- The sum of the words at the front of a string; bytes behind its end count as zero. -/
theorem total_take (bs : List UInt8) (n : Nat) : total (bs.take n) = span (byteAt bs) 0 n := by
  induction n using Nat.twoStepInduction generalizing bs with
  | zero => rw [List.take_zero]; rfl
  | one => cases bs <;> rfl
  | more n ih _ =>
    match bs with
    | [] => exact (span_eq_zero fun i _ => rfl).symm
    | [a] =>
      have hzero : ∀ i, 1 ≤ i → byteAt [a] i = 0 := by
        intro i hi
        obtain ⟨j, rfl⟩ := Nat.exists_eq_add_of_le' hi
        rfl
      rw [span, word, hzero 1 (Nat.le_refl 1), span_eq_zero fun i hi => hzero i (by omega)]
      rfl
    | a :: b :: rest =>
      have hshift : span (byteAt (a :: b :: rest)) (2 + 0) n = span (byteAt rest) 0 n := by
        rw [← span_shift 2 0 n]
        exact span_congr fun i _ _ => by rw [Nat.add_comm]; rfl
      rw [List.take_succ_cons, List.take_succ_cons, total, ih, span, ← hshift]
      rfl

/-- The sum of the words of a part of a string. -/
theorem total_take_drop (bs : List UInt8) (s n : Nat) :
    total ((bs.drop s).take n) = span (byteAt bs) s n := by
  have hbyte : byteAt (bs.drop s) = fun i => byteAt bs (s + i) := by
    funext i
    simp only [byteAt, List.getD_eq_getElem?_getD, List.getElem?_drop]
  rw [total_take, hbyte, span_shift, Nat.add_zero]

end OnesComplement
