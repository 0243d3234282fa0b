import ShadowSocketProxy.Data.OnesComplement
import ShadowSocketProxy.Bpf.Soundness

/-! # Checksums of rewritten frames

The kernel updates a checksum for the words that change. Modulo 65535 the updated field makes up for the
change exactly, so sums that verify keep verifying. The field itself is never all ones: where both
representations of zero would do, the update stores the zero that means "no checksum" to UDP. -/

namespace ShadowSocketProxy.Bpf

open Bytes OnesComplement

variable {bs bs' : List UInt8} {i n : Nat}

/-! ## The kernel's arithmetic -/

theorem toNat_csumAdd (a b : UInt32) : (csumAdd a b).toNat =
    if a.toNat + b.toNat < 4294967296 then a.toNat + b.toNat else a.toNat + b.toNat - 4294967295 := by
  have ha := a.toNat_lt
  have hb := b.toNat_lt
  simp only [csumAdd]
  split
  · rename_i hcarry
    rw [UInt32.lt_iff_toNat_lt, UInt32.toNat_add] at hcarry
    rw [UInt32.toNat_add, UInt32.toNat_add, UInt32.toNat_one]
    split <;> omega
  · rename_i hcarry
    rw [UInt32.lt_iff_toNat_lt, UInt32.toNat_add] at hcarry
    rw [UInt32.toNat_add]
    split <;> omega

/-- Addition is addition modulo 65535. -/
theorem csumAdd_mod (a b : UInt32) : (csumAdd a b).toNat % 65535 = (a.toNat + b.toNat) % 65535 := by
  rw [toNat_csumAdd]
  split <;> omega

theorem toNat_complement (a : UInt32) : (~~~a).toNat = 4294967295 - a.toNat := by
  rw [UInt32.toNat_not]
  rfl

/-- One fold adds the halves of a sum. -/
theorem toNat_fold (c : UInt32) :
    ((c &&& (0xffff : UInt32)) + (c >>> 16)).toNat = c.toNat % 65536 + c.toNat / 65536 := by
  have hc := c.toNat_lt
  have hlow : (c &&& (0xffff : UInt32)).toNat = c.toNat % 65536 := by
    rw [UInt32.toNat_and]
    exact Nat.and_two_pow_sub_one_eq_mod c.toNat 16
  have hhigh : (c >>> 16).toNat = c.toNat / 65536 := by
    rw [UInt32.toNat_shiftRight]
    exact Nat.shiftRight_eq_div_pow c.toNat 16
  rw [UInt32.toNat_add, hlow, hhigh]
  omega

/-- A sum that is folded twice fits the field, which is its complement. -/
theorem csumFold_spec (c : UInt32) :
    ((csumFold c).toNat + c.toNat) % 65535 = 0 ∧ ((csumFold c).toNat = 65535 → c.toNat = 0) := by
  have hc := c.toNat_lt
  have hfield : (csumFold c).toNat = 65535 -
      ((c.toNat % 65536 + c.toNat / 65536) % 65536 + (c.toNat % 65536 + c.toNat / 65536) / 65536) := by
    simp only [csumFold]
    rw [UInt32.toNat_toUInt16, toNat_complement, toNat_fold, toNat_fold]
    omega
  rw [hfield]
  omega

/-- **An updated field makes up for the change modulo 65535, and is never all ones.** -/
theorem csumReplace4_spec (sum : UInt16) (old new : UInt32) :
    ((csumReplace4 sum old new).toNat + new.toNat) % 65535 = (sum.toNat + old.toNat) % 65535 ∧
      (csumReplace4 sum old new).toNat < 65535 := by
  have hsum := sum.toNat_lt
  have hold := old.toNat_lt
  have hnew := new.toNat_lt
  have hfield := (csumReplace4 sum old new).toNat_lt
  have hstart : (~~~sum.toUInt32).toNat = 4294967295 - sum.toNat := by
    rw [toNat_complement, UInt16.toNat_toUInt32]
  obtain ⟨hfold, hones⟩ := csumFold_spec (csumAdd (csumSub (~~~sum.toUInt32) old) new)
  rw [← csumReplace4] at hfold hones
  have hadd := csumAdd_mod (csumSub (~~~sum.toUInt32) old) new
  have hsub : (csumSub (~~~sum.toUInt32) old).toNat % 65535 =
      (4294967295 - sum.toNat + (4294967295 - old.toNat)) % 65535 := by
    rw [csumSub, csumAdd_mod, hstart, toNat_complement]
  -- The sum starts above 65535, and additions with a carry never lead back to zero.
  have hne : (csumAdd (csumSub (~~~sum.toUInt32) old) new).toNat ≠ 0 := by
    rw [csumSub, toNat_csumAdd, toNat_csumAdd, hstart, toNat_complement]
    split <;> split <;> omega
  constructor
  · omega
  · omega

/-! ## Fields and words

The kernel sums in the byte order of the machine. A word in network order is 256 times the word in
machine order, modulo 65535. -/

variable {frame : List UInt8} {packet : PacketInfo}

theorem word_byteAt (bs : List UInt8) (i : Nat) : word (byteAt bs) i = (be16At bs i).toNat := by
  have hlow := (byteAt bs i).toNat_lt
  have hhigh := (byteAt bs (i + 1)).toNat_lt
  simp only [word, be16At, ofBeBytes, List.reverse_cons, List.reverse_nil, List.nil_append,
    List.cons_append, ofLeBytes, UInt16.toNat_ofNat']
  omega

theorem leAt_two (bs : List UInt8) (i : Nat) :
    leAt 2 bs i = (byteAt bs i).toNat + 256 * (byteAt bs (i + 1)).toNat := by
  simp [leAt, arrayAt, Vector.toList_ofFn, List.ofFn_succ, ofLeBytes]

theorem leAt_four (bs : List UInt8) (i : Nat) :
    leAt 4 bs i = (byteAt bs i).toNat + 256 * (byteAt bs (i + 1)).toNat +
      65536 * (byteAt bs (i + 2)).toNat + 16777216 * (byteAt bs (i + 3)).toNat := by
  simp [leAt, arrayAt, Vector.toList_ofFn, List.ofFn_succ, ofLeBytes]
  omega

/-- The two bytes of a field in machine order. -/
theorem word_leBytes {off : Nat} (hn : n < 65536) (h : off + 2 ≤ bs.length) :
    256 * word (byteAt (store bs off (leBytes 2 n))) off = 65536 * (n % 256) + 256 * (n / 256) := by
  have hin : off + (leBytes 2 n).length ≤ bs.length := by simpa using h
  have hsmall : n / 256 < 256 := by omega
  rw [word, byteAt_store hin, byteAt_store hin, if_pos (by simp), if_pos (by simp), Nat.sub_self,
    Nat.add_sub_cancel_left]
  simp [leBytes, byteAt, Nat.mod_eq_of_lt hsmall]
  omega

/-- **An updated field makes up for the change of the words it covers.** -/
theorem word_bpfCsumReplace {offset : Nat} (h : offset + 2 ≤ frame.length) (old new : UInt32) :
    (256 * word (byteAt (bpfCsumReplace frame offset old new)) offset + new.toNat) % 65535 =
        (256 * word (byteAt frame) offset + old.toNat) % 65535 ∧
      word (byteAt (bpfCsumReplace frame offset old new)) offset < 65535 := by
  have hlow := (byteAt frame offset).toNat_lt
  have hhigh := (byteAt frame (offset + 1)).toNat_lt
  obtain ⟨hreplace, hones⟩ := csumReplace4_spec (UInt16.ofNat (leAt 2 frame offset)) old new
  have hfield := word_leBytes (csumReplace4 (UInt16.ofNat (leAt 2 frame offset)) old new).toNat_lt h
  have hlt := (csumReplace4 (UInt16.ofNat (leAt 2 frame offset)) old new).toNat_lt
  have hsum : (UInt16.ofNat (leAt 2 frame offset)).toNat =
      (byteAt frame offset).toNat + 256 * (byteAt frame (offset + 1)).toNat := by
    rw [UInt16.toNat_ofNat', leAt_two, Nat.mod_eq_of_lt (by omega)]
  rw [hsum] at hreplace
  have hupdated : bpfCsumReplace frame offset old new = store frame offset
      (leBytes 2 (csumReplace4 (UInt16.ofNat (leAt 2 frame offset)) old new).toNat) := rfl
  have hword : word (byteAt frame) offset =
      256 * (byteAt frame offset).toNat + (byteAt frame (offset + 1)).toNat := rfl
  rw [hupdated, hword]
  generalize (csumReplace4 (UInt16.ofNat (leAt 2 frame offset)) old new).toNat = field at *
  omega

/-- The sum of the words of an address as the transport checksum covers it. -/
def addressSum (family : UInt8) (a : Address) : Nat :=
  if family = 4 then span (byteAt a.toList) 12 4 else span (byteAt a.toList) 0 16

theorem addressWord_mod (a : Address) (off : Nat) :
    (addressWord a off).toNat % 65535 = 256 * span (byteAt a.toList) off 4 % 65535 := by
  have h₀ := (byteAt a.toList off).toNat_lt
  have h₁ := (byteAt a.toList (off + 1)).toNat_lt
  have h₂ := (byteAt a.toList (off + 2)).toNat_lt
  have h₃ := (byteAt a.toList (off + 3)).toNat_lt
  have hlt : leAt 4 a.toList off < 2 ^ 32 := by
    rw [leAt_four]
    omega
  rw [addressWord, UInt32.toNat_ofNat', Nat.mod_eq_of_lt hlt, leAt_four]
  show _ = 256 * (256 * (byteAt a.toList off).toNat + (byteAt a.toList (off + 1)).toNat +
    (256 * (byteAt a.toList (off + 2)).toNat + (byteAt a.toList (off + 3)).toNat)) % 65535
  omega

theorem portWord_mod (port : UInt16) : (portWord port).toNat % 65535 = 256 * port.toNat % 65535 := by
  have hport := port.toNat_lt
  have hbytes : ofLeBytes (be16Bytes port) = port.toNat / 256 % 256 + 256 * (port.toNat % 256) := by
    simp [be16Bytes, beBytes, leBytes, ofLeBytes]
  have hlt : port.toNat / 256 % 256 + 256 * (port.toNat % 256) < 2 ^ 32 := by omega
  have hhigh : port.toNat / 256 % 256 = port.toNat / 256 := Nat.mod_eq_of_lt (by omega)
  rw [portWord, hbytes, UInt32.toNat_ofNat', Nat.mod_eq_of_lt hlt, hhigh]
  omega

/-- The difference of two addresses. -/
theorem bpfCsumDiff_mod (old new : Address) :
    ((bpfCsumDiff old new).toNat + 256 * span (byteAt old.toList) 0 16) % 65535 =
      256 * span (byteAt new.toList) 0 16 % 65535 := by
  have hsplit : ∀ a : Address, span (byteAt a.toList) 0 16 = span (byteAt a.toList) 0 4 +
      span (byteAt a.toList) 4 4 + span (byteAt a.toList) 8 4 + span (byteAt a.toList) 12 4 := by
    intro a
    rw [span_add 0 2 12, span_add (0 + 2 * 2) 2 8, span_add (0 + 2 * 2 + 2 * 2) 2 4]
    simp only [Nat.zero_add, Nat.reduceMul, Nat.reduceAdd, Nat.add_assoc]
  have hadd : ∀ (c : UInt32) (a : Address) (off : Nat), (csumAdd c (addressWord a off)).toNat % 65535 =
      (c.toNat + 256 * span (byteAt a.toList) off 4) % 65535 := by
    intro c a off
    have hword := addressWord_mod a off
    have hsum := csumAdd_mod c (addressWord a off)
    omega
  have hsub : ∀ (c : UInt32) (a : Address) (off : Nat),
      ((csumAdd c (~~~addressWord a off)).toNat + 256 * span (byteAt a.toList) off 4) % 65535 =
        c.toNat % 65535 := by
    intro c a off
    have hword := addressWord_mod a off
    have hlt := (addressWord a off).toNat_lt
    have hsum := csumAdd_mod c (~~~addressWord a off)
    rw [toNat_complement] at hsum
    omega
  rw [hsplit, hsplit]
  simp only [bpfCsumDiff, List.foldl_cons, List.foldl_nil]
  have ho₁ := hsub 0 old 0
  generalize csumAdd 0 (~~~addressWord old 0) = c₁ at *
  have ho₂ := hsub c₁ old 4
  generalize csumAdd c₁ (~~~addressWord old 4) = c₂ at *
  have ho₃ := hsub c₂ old 8
  generalize csumAdd c₂ (~~~addressWord old 8) = c₃ at *
  have ho₄ := hsub c₃ old 12
  generalize csumAdd c₃ (~~~addressWord old 12) = c₄ at *
  have hn₁ := hadd c₄ new 0
  generalize csumAdd c₄ (addressWord new 0) = c₅ at *
  have hn₂ := hadd c₅ new 4
  generalize csumAdd c₅ (addressWord new 4) = c₆ at *
  have hn₃ := hadd c₆ new 8
  generalize csumAdd c₆ (addressWord new 8) = c₇ at *
  have hn₄ := hadd c₇ new 12
  rw [UInt32.toNat_zero] at ho₁
  clear hadd hsub hsplit
  omega

/-! ## Updates of a whole endpoint -/

variable {oldAddress newAddress : Address} {oldPort newPort : UInt16} {v4Offset v6Offset portOffset : Nat}

/-- The transport checksum makes up for address and port. -/
theorem word_updateL4Checksum (h : packet.l4ChecksumOffset + 2 ≤ frame.length)
    (oldAddress newAddress : Address) (oldPort newPort : UInt16) :
    (word (byteAt (updateL4Checksum frame packet oldAddress newAddress oldPort newPort))
        packet.l4ChecksumOffset + (addressSum packet.family newAddress + newPort.toNat)) % 65535 =
      (word (byteAt frame) packet.l4ChecksumOffset +
        (addressSum packet.family oldAddress + oldPort.toNat)) % 65535 ∧
    word (byteAt (updateL4Checksum frame packet oldAddress newAddress oldPort newPort))
      packet.l4ChecksumOffset < 65535 := by
  have hold := portWord_mod oldPort
  have hnew := portWord_mod newPort
  have hlength : ∀ old new, packet.l4ChecksumOffset + 2 ≤
      (bpfCsumReplace frame packet.l4ChecksumOffset old new).length := by
    intro old new
    rw [(agree_bpfCsumReplace h (fun i _ _ => (trivial : (fun _ => True) i)) old new).length]
    exact h
  rw [updateL4Checksum, addressSum, addressSum]
  split
  · have hfirst := word_bpfCsumReplace h (addressWord oldAddress 12) (addressWord newAddress 12)
    have hsecond := word_bpfCsumReplace (hlength (addressWord oldAddress 12) (addressWord newAddress 12))
      (portWord oldPort) (portWord newPort)
    have hoa := addressWord_mod oldAddress 12
    have hna := addressWord_mod newAddress 12
    omega
  · have hfirst := word_bpfCsumReplace h 0 (bpfCsumDiff oldAddress newAddress)
    have hsecond := word_bpfCsumReplace (hlength 0 (bpfCsumDiff oldAddress newAddress))
      (portWord oldPort) (portWord newPort)
    have hdiff := bpfCsumDiff_mod oldAddress newAddress
    rw [UInt32.toNat_zero] at hfirst
    omega

/-- Words of two strings that agree there. -/
theorem span_of_agree {touched : Nat → Prop} (h : Agree touched bs bs')
    (hout : ∀ j, i ≤ j → j < i + n → ¬ touched j) : span (byteAt bs') i n = span (byteAt bs) i n :=
  span_congr fun j hlow hhigh => h.byte j (hout j hlow hhigh)

theorem word_of_agree {touched : Nat → Prop} (h : Agree touched bs bs')
    (hout : ∀ j, i ≤ j → j < i + 2 → ¬ touched j) : word (byteAt bs') i = word (byteAt bs) i := by
  rw [← span_two, ← span_two, span_of_agree h hout]

/-- The words of equal arrays. -/
theorem span_of_arrayAt {j : Nat} (h : arrayAt n bs i = arrayAt n bs' j) :
    span (byteAt bs) i n = span (byteAt bs') j n := by
  have hbyte : ∀ k, k < n → byteAt bs (i + k) = byteAt bs' (j + k) := by
    intro k hk
    rw [← getElem_arrayAt bs i k hk, ← getElem_arrayAt bs' j k hk, h]
  rw [← Nat.add_zero i, ← Nat.add_zero j, ← span_shift, ← span_shift]
  exact span_congr fun k _ hk => hbyte k (by omega)

/-- The network part of a rewrite stays in front of the transport header. -/
theorem Accepted.lt_l4Offset_of_network (h : Accepted frame packet)
    (hv4 : v4Offset = 12 ∨ v4Offset = 16) (hv6 : v6Offset = 8 ∨ v6Offset = 24)
    (hi : packet.family = 4 ∧ (24 ≤ i ∧ i < 26 ∨ 14 + v4Offset ≤ i ∧ i < 18 + v4Offset) ∨
      packet.family = 6 ∧ 14 + v6Offset ≤ i ∧ i < 30 + v6Offset) : i < packet.l4Offset := by
  rcases h.family with ⟨hfamily, hl4⟩ | ⟨-, hl4⟩
  · rcases hi with ⟨-, hi⟩ | ⟨habsurd, -⟩
    · omega
    · exact absurd (hfamily.symm.trans habsurd) (by decide)
  · omega

/-- How a rewrite leaves the two checksums: each makes up for the words it covers. -/
structure Summed (packet : PacketInfo) (oldAddress newAddress : Address) (oldPort newPort : UInt16)
    (frame frame' : List UInt8) : Prop where
  transport : (word (byteAt frame') packet.l4ChecksumOffset +
      (addressSum packet.family newAddress + newPort.toNat)) % 65535 =
    (word (byteAt frame) packet.l4ChecksumOffset +
      (addressSum packet.family oldAddress + oldPort.toNat)) % 65535
  notOnes : word (byteAt frame') packet.l4ChecksumOffset < 65535
  header : packet.family = 4 →
    (word (byteAt frame') 24 + span (byteAt newAddress.toList) 12 4) % 65535 =
      (word (byteAt frame) 24 + span (byteAt oldAddress.toList) 12 4) % 65535

theorem summed_rewriteEndpoint (h : Accepted frame packet)
    (hv4 : v4Offset = 12 ∨ v4Offset = 16) (hv6 : v6Offset = 8 ∨ v6Offset = 24)
    (hport : portOffset = 0 ∨ portOffset = 2) :
    Summed packet oldAddress newAddress oldPort newPort frame
      (rewriteEndpoint v4Offset v6Offset portOffset frame packet oldAddress newAddress oldPort
        newPort) := by
  have hchecksum := h.checksum
  have hfits := h.fits
  have hl4 : 34 ≤ packet.l4Offset := by
    rcases h.family with ⟨-, hl4⟩ | ⟨-, hl4⟩ <;> omega
  obtain ⟨hagree₁, -, -⟩ := rewriteNetwork_spec h hv4 hv6 oldAddress newAddress
  -- The header checksum is updated first, and the address is stored behind it.
  have hheader : packet.family = 4 →
      (word (byteAt (rewriteNetwork v4Offset v6Offset frame packet oldAddress newAddress)) 24 +
        span (byteAt newAddress.toList) 12 4) % 65535 =
      (word (byteAt frame) 24 + span (byteAt oldAddress.toList) 12 4) % 65535 := by
    intro hfamily
    have hin : 24 + 2 ≤ frame.length := by omega
    have hupdate := word_bpfCsumReplace hin (addressWord oldAddress 12) (addressWord newAddress 12)
    have hlength := (agree_bpfCsumReplace hin (fun i _ _ => (trivial : (fun _ => True) i))
      (addressWord oldAddress 12) (addressWord newAddress 12)).length
    have hstore : Agree (fun i => 14 + v4Offset ≤ i ∧ i < 18 + v4Offset)
        (bpfCsumReplace frame 24 (addressWord oldAddress 12) (addressWord newAddress 12))
        (rewriteNetwork v4Offset v6Offset frame packet oldAddress newAddress) := by
      rw [rewriteNetwork, if_pos hfamily, h.l3Offset]
      refine Agree.store (by simp; omega) fun i hlow hhigh => ?_
      simp at hhigh
      omega
    have hold := addressWord_mod oldAddress 12
    have hnew := addressWord_mod newAddress 12
    rw [word_of_agree hstore fun j hlow hhigh => by omega]
    omega
  rw [rewriteEndpoint_eq]
  generalize rewriteNetwork v4Offset v6Offset frame packet oldAddress newAddress = frame₁ at *
  have hlen₁ := hagree₁.length
  have hfield₁ : word (byteAt frame₁) packet.l4ChecksumOffset =
      word (byteAt frame) packet.l4ChecksumOffset := word_of_agree hagree₁ fun j hlow hhigh ht => by
    have := h.lt_l4Offset_of_network hv4 hv6 ht
    omega
  have hin₁ : packet.l4ChecksumOffset + 2 ≤ frame₁.length := by omega
  obtain ⟨htransport, hones⟩ := word_updateL4Checksum hin₁ oldAddress newAddress oldPort newPort
  have hagree₂ : Agree (fun i => packet.l4ChecksumOffset ≤ i ∧ i < packet.l4ChecksumOffset + 2) frame₁
      (updateL4Checksum frame₁ packet oldAddress newAddress oldPort newPort) :=
    agree_updateL4Checksum hin₁ (fun i hlow hhigh => ⟨hlow, hhigh⟩) _ _ _ _
  generalize updateL4Checksum frame₁ packet oldAddress newAddress oldPort newPort = frame₂ at *
  have hlen₂ := hagree₂.length
  have hagree₃ : Agree (fun i => packet.l4Offset + portOffset ≤ i ∧
      i < packet.l4Offset + portOffset + 2) frame₂
      (store frame₂ (packet.l4Offset + portOffset) (be16Bytes newPort)) := by
    refine Agree.store ?_ fun i hlow hhigh => ⟨hlow, by rw [length_be16Bytes] at hhigh; exact hhigh⟩
    rw [length_be16Bytes]
    omega
  have hfield₃ : word (byteAt (store frame₂ (packet.l4Offset + portOffset) (be16Bytes newPort)))
      packet.l4ChecksumOffset = word (byteAt frame₂) packet.l4ChecksumOffset :=
    word_of_agree hagree₃ fun j hlow hhigh => by omega
  rw [hfield₁] at htransport
  refine ⟨?_, ?_, fun hfamily => ?_⟩
  · rw [hfield₃]
    exact htransport
  · rw [hfield₃]
    exact hones
  · rw [word_of_agree hagree₃ fun j hlow hhigh => by omega,
      word_of_agree hagree₂ fun j hlow hhigh => by omega]
    exact hheader hfamily

end ShadowSocketProxy.Bpf
