import Mathlib.Algebra.Group.Nat.Defs
import Mathlib.Data.List.Basic

/-! # Byte strings

Fixed-width numbers as byte strings, reading bytes at an offset, and storing bytes in place. Reads
are total: a byte behind the end reads as zero, and every reader that must not go there checks the
length first. -/

namespace Bytes

variable {off n w i : Nat} {xs ys src : List UInt8}

/-! ## Numbers as bytes -/

/-- The `w` low bytes of `n`, the lowest first. -/
def leBytes : (w : Nat) → (n : Nat) → List UInt8
  | 0, _ => []
  | w + 1, n => UInt8.ofNat (n % 256) :: leBytes w (n / 256)

/-- The number a byte string denotes, the lowest byte first. -/
def ofLeBytes : List UInt8 → Nat
  | [] => 0
  | b :: bs => b.toNat + 256 * ofLeBytes bs

/-- The `w` low bytes of `n`, the highest first. -/
def beBytes (w n : Nat) : List UInt8 := (leBytes w n).reverse

/-- The number a byte string denotes, the highest byte first. -/
def ofBeBytes (bs : List UInt8) : Nat := ofLeBytes bs.reverse

@[simp] theorem length_leBytes (w n : Nat) : (leBytes w n).length = w := by
  induction w generalizing n with
  | zero => rfl
  | succ w ih => simp [leBytes, ih]

@[simp] theorem length_beBytes (w n : Nat) : (beBytes w n).length = w := by
  simp [beBytes]

/-- Reading little-endian bytes back gives the number up to its width. -/
theorem ofLeBytes_leBytes (w n : Nat) : ofLeBytes (leBytes w n) = n % 256 ^ w := by
  induction w generalizing n with
  | zero => simp [leBytes, ofLeBytes, Nat.mod_one]
  | succ w ih =>
    have hbyte : (UInt8.ofNat (n % 256)).toNat = n % 256 := by simp
    rw [leBytes, ofLeBytes, ih, hbyte, Nat.pow_succ, Nat.mul_comm (256 ^ w) 256, Nat.mod_mul]

/-- Reading big-endian bytes back gives the number up to its width. -/
theorem ofBeBytes_beBytes (w n : Nat) : ofBeBytes (beBytes w n) = n % 256 ^ w := by
  rw [ofBeBytes, beBytes, List.reverse_reverse, ofLeBytes_leBytes]

/-! ## Reading and storing -/

/-- The byte at an offset. -/
def byteAt (bs : List UInt8) (i : Nat) : UInt8 := bs.getD i 0

/-- The `n` bytes from an offset on. -/
def arrayAt (n : Nat) (bs : List UInt8) (off : Nat) : Vector UInt8 n :=
  Vector.ofFn fun i => byteAt bs (off + i)

/-- The big-endian 16-bit number at an offset. -/
def be16At (bs : List UInt8) (off : Nat) : UInt16 :=
  UInt16.ofNat (ofBeBytes [byteAt bs off, byteAt bs (off + 1)])

/-- The two big-endian bytes of a 16-bit number. -/
def be16Bytes (n : UInt16) : List UInt8 := beBytes 2 n.toNat

/-- The little-endian number of `w` bytes at an offset. -/
def leAt (w : Nat) (bs : List UInt8) (off : Nat) : Nat :=
  ofLeBytes (arrayAt w bs off).toList

/-- The big-endian number of `w` bytes at an offset. -/
def beAt (w : Nat) (bs : List UInt8) (off : Nat) : Nat :=
  ofBeBytes (arrayAt w bs off).toList

/-- Overwrite the bytes from `off` on by `src`. -/
def store (bs : List UInt8) (off : Nat) (src : List UInt8) : List UInt8 :=
  bs.take off ++ src ++ bs.drop (off + src.length)

/-- Storing inside the string keeps its length. -/
theorem length_store {bs : List UInt8} (h : off + src.length ≤ bs.length) :
    (store bs off src).length = bs.length := by
  simp only [store, List.length_append, List.length_take, List.length_drop]
  omega

/-- A byte after a store is the stored byte inside the stored range and the old byte outside. -/
theorem byteAt_store {bs : List UInt8} (h : off + src.length ≤ bs.length) (i : Nat) :
    byteAt (store bs off src) i =
      if off ≤ i ∧ i < off + src.length then byteAt src (i - off) else byteAt bs i := by
  have htake : (bs.take off).length = off := by rw [List.length_take]; omega
  simp only [byteAt, store, List.getD_eq_getElem?_getD]
  rw [List.append_assoc, List.getElem?_append, htake]
  by_cases hlow : i < off
  · rw [if_pos hlow, if_neg (by omega), List.getElem?_take_of_lt hlow]
  · rw [if_neg hlow, List.getElem?_append]
    by_cases hhigh : i - off < src.length
    · rw [if_pos hhigh, if_pos (by omega)]
    · rw [if_neg hhigh, if_neg (by omega), List.getElem?_drop]
      have hpos : off + src.length + (i - off - src.length) = i := by omega
      rw [hpos]

/-- A byte outside the stored range is unchanged. -/
theorem byteAt_store_of_disjoint {bs : List UInt8} (h : off + src.length ≤ bs.length)
    (hi : i < off ∨ off + src.length ≤ i) : byteAt (store bs off src) i = byteAt bs i := by
  rw [byteAt_store h, if_neg (by omega)]

/-- Reading behind a prefix. -/
theorem byteAt_append_right (h : xs.length ≤ i) :
    byteAt (xs ++ ys) i = byteAt ys (i - xs.length) := by
  simp only [byteAt, List.getD_eq_getElem?_getD]
  rw [List.getElem?_append_right h]

/-- Reading inside a prefix. -/
theorem byteAt_append_left (h : i < xs.length) : byteAt (xs ++ ys) i = byteAt xs i := by
  simp only [byteAt, List.getD_eq_getElem?_getD]
  rw [List.getElem?_append_left h]

@[simp] theorem getElem_arrayAt (bs : List UInt8) (off i : Nat) (h : i < n) :
    (arrayAt n bs off)[i] = byteAt bs (off + i) := by
  simp [arrayAt]

/-- Reading a whole array back. -/
theorem arrayAt_toList (a : Vector UInt8 n) : arrayAt n a.toList 0 = a := by
  apply Vector.ext
  intro i hi
  rw [getElem_arrayAt, Nat.zero_add, byteAt, List.getD_eq_getElem?_getD,
    List.getElem?_eq_getElem (by simpa using hi)]
  simp

/-- Reading an array behind a prefix. -/
theorem arrayAt_append_right (h : xs.length ≤ off) :
    arrayAt n (xs ++ ys) off = arrayAt n ys (off - xs.length) := by
  apply Vector.ext
  intro i hi
  simp only [getElem_arrayAt]
  rw [byteAt_append_right (by omega)]
  congr 1
  omega

/-- Reading an array inside a prefix. -/
theorem arrayAt_append_left (h : off + n ≤ xs.length) :
    arrayAt n (xs ++ ys) off = arrayAt n xs off := by
  apply Vector.ext
  intro i hi
  simp only [getElem_arrayAt]
  exact byteAt_append_left (by omega)

/-! ## Changes in place -/

/-- The second string is as long as the first and differs from it at touched positions only. -/
structure Agree (touched : Nat → Prop) (bs bs' : List UInt8) : Prop where
  length : bs'.length = bs.length
  byte : ∀ i, ¬ touched i → byteAt bs' i = byteAt bs i

namespace Agree

variable {touched touched' : Nat → Prop} {bs bs' bs'' : List UInt8} {off : Nat}

theorem trans (h : Agree touched bs bs') (h' : Agree touched bs' bs'') : Agree touched bs bs'' :=
  ⟨h'.length.trans h.length, fun i hi => (h'.byte i hi).trans (h.byte i hi)⟩

theorem mono (h : Agree touched bs bs') (hsub : ∀ i, touched i → touched' i) :
    Agree touched' bs bs' :=
  ⟨h.length, fun i hi => h.byte i fun ht => hi (hsub i ht)⟩

/-- A store inside the string changes what it overwrites. -/
theorem store {src : List UInt8} (h : off + src.length ≤ bs.length)
    (hsub : ∀ i, off ≤ i → i < off + src.length → touched i) :
    Agree touched bs (store bs off src) :=
  ⟨length_store h, fun i hi => byteAt_store_of_disjoint h (by
    by_contra hout
    exact hi (hsub i (by omega) (by omega)))⟩

theorem arrayAt_eq {n : Nat} (h : Agree touched bs bs')
    (hout : ∀ i, off ≤ i → i < off + n → ¬ touched i) : arrayAt n bs' off = arrayAt n bs off := by
  apply Vector.ext
  intro i hi
  rw [getElem_arrayAt, getElem_arrayAt, h.byte _ (hout _ (by omega) (by omega))]

theorem be16At_eq (h : Agree touched bs bs') (hout : ∀ i, off ≤ i → i < off + 2 → ¬ touched i) :
    be16At bs' off = be16At bs off := by
  rw [be16At, be16At, h.byte _ (hout _ (by omega) (by omega)),
    h.byte _ (hout _ (by omega) (by omega))]

end Agree

/-- An array reads back from where its bytes were stored. -/
theorem arrayAt_store {bs : List UInt8} (hn : src.length = n) (h : off + n ≤ bs.length) :
    arrayAt n (store bs off src) off = arrayAt n src 0 := by
  subst hn
  apply Vector.ext
  intro i hi
  rw [getElem_arrayAt, getElem_arrayAt, byteAt_store h, if_pos ⟨by omega, by omega⟩]
  congr 1
  omega

/-! ## Reading numbers -/

@[simp] theorem length_be16Bytes (n : UInt16) : (be16Bytes n).length = 2 := length_beBytes _ _

/-- The big-endian bytes of a 16-bit number read back as the number. -/
@[simp] theorem be16At_be16Bytes (n : UInt16) : be16At (be16Bytes n) 0 = n := by
  have hread : [byteAt (be16Bytes n) 0, byteAt (be16Bytes n) 1] = be16Bytes n := rfl
  have hlt : n.toNat < 256 ^ 2 := n.toNat_lt
  rw [be16At, Nat.zero_add, hread, be16Bytes, ofBeBytes_beBytes, Nat.mod_eq_of_lt hlt]
  exact UInt16.ofNat_toNat

/-- A 16-bit number reads back from where its bytes were stored. -/
theorem be16At_store {bs : List UInt8} (h : off + 2 ≤ bs.length) (n : UInt16) :
    be16At (store bs off (be16Bytes n)) off = n := by
  have hlen : (be16Bytes n).length = 2 := length_be16Bytes n
  have hin : off + (be16Bytes n).length ≤ bs.length := by omega
  rw [be16At, byteAt_store hin, byteAt_store hin, if_pos ⟨by omega, by omega⟩,
    if_pos ⟨by omega, by omega⟩, Nat.sub_self, Nat.add_sub_cancel_left]
  exact be16At_be16Bytes n

/-- All bytes of a string, read as an array. -/
theorem toList_arrayAt {bs : List UInt8} (h : bs.length = n) : (arrayAt n bs 0).toList = bs := by
  subst h
  apply List.ext_getElem (by simp)
  intro i h₁ h₂
  simp [byteAt, List.getElem?_eq_getElem h₂]

/-- The little-endian bytes of a number read back as the number. -/
theorem leAt_leBytes (h : n < 256 ^ w) : leAt w (leBytes w n) 0 = n := by
  rw [leAt, toList_arrayAt (length_leBytes w n), ofLeBytes_leBytes, Nat.mod_eq_of_lt h]

/-- The big-endian bytes of a number read back as the number. -/
theorem beAt_beBytes (h : n < 256 ^ w) : beAt w (beBytes w n) 0 = n := by
  rw [beAt, toList_arrayAt (length_beBytes w n), ofBeBytes_beBytes, Nat.mod_eq_of_lt h]

/-- Reading a 16-bit number behind a prefix. -/
theorem be16At_append_right (h : xs.length ≤ off) :
    be16At (xs ++ ys) off = be16At ys (off - xs.length) := by
  have hnext : off + 1 - xs.length = off - xs.length + 1 := by omega
  rw [be16At, be16At, byteAt_append_right h, byteAt_append_right (by omega), hnext]

/-- Reading a 16-bit number inside a prefix. -/
theorem be16At_append_left (h : off + 2 ≤ xs.length) : be16At (xs ++ ys) off = be16At xs off := by
  rw [be16At, be16At, byteAt_append_left (by omega), byteAt_append_left (by omega)]

/-- Reading a little-endian number behind a prefix. -/
theorem leAt_append_right (h : xs.length ≤ off) :
    leAt w (xs ++ ys) off = leAt w ys (off - xs.length) := by
  rw [leAt, leAt, arrayAt_append_right h]

/-- Reading a little-endian number inside a prefix. -/
theorem leAt_append_left (h : off + w ≤ xs.length) : leAt w (xs ++ ys) off = leAt w xs off := by
  rw [leAt, leAt, arrayAt_append_left h]

/-- Reading a big-endian number behind a prefix. -/
theorem beAt_append_right (h : xs.length ≤ off) :
    beAt w (xs ++ ys) off = beAt w ys (off - xs.length) := by
  rw [beAt, beAt, arrayAt_append_right h]

/-- Reading a big-endian number inside a prefix. -/
theorem beAt_append_left (h : off + w ≤ xs.length) : beAt w (xs ++ ys) off = beAt w xs off := by
  rw [beAt, beAt, arrayAt_append_left h]

/-! ## Saturating arithmetic -/

/-- `u64::saturating_add`. -/
def saturatingAdd (a b : UInt64) : UInt64 := if a.toNat + b.toNat < 2 ^ 64 then a + b else ~~~0

/-- A sum that fits is not cut. -/
theorem saturatingAdd_eq {a b : UInt64} (h : a.toNat + b.toNat < 2 ^ 64) :
    saturatingAdd a b = a + b :=
  if_pos h

theorem toNat_saturatingAdd (a b : UInt64) :
    (saturatingAdd a b).toNat = min (a.toNat + b.toNat) (2 ^ 64 - 1) := by
  rw [saturatingAdd]
  split
  · rename_i h
    rw [UInt64.toNat_add, Nat.mod_eq_of_lt h]
    omega
  · have hmax : (~~~0 : UInt64).toNat = 2 ^ 64 - 1 := rfl
    omega

/-- `u64::saturating_sub`. -/
def saturatingSub (a b : UInt64) : UInt64 := if b ≤ a then a - b else 0

theorem toNat_saturatingSub (a b : UInt64) : (saturatingSub a b).toNat = a.toNat - b.toNat := by
  rw [saturatingSub]
  split
  · rename_i h
    exact UInt64.toNat_sub_of_le a b h
  · rename_i h
    have hlt : ¬ b.toNat ≤ a.toNat := fun hle => h (UInt64.le_iff_toNat_le.mpr hle)
    exact (Nat.sub_eq_zero_of_le (Nat.le_of_not_le hlt)).symm

end Bytes
