import ShadowSocketProxy.Bpf.Classifier

/-! # What a rewrite does to a frame

A rewritten frame is parsed as the frame was, with one endpoint replaced: every byte the parser
reads is left alone or written on purpose. -/

namespace ShadowSocketProxy.Bpf

open Bytes

/-! ## Transport headers -/

/-- A transport header is accepted when it is whole; checksum offset and flags follow the protocol. -/
theorem parseTransport_eq_some_iff {frame : List UInt8} {header packet : PacketInfo} :
    parseTransport frame header = some packet ↔
      (header.protocol = ipprotoTcp ∧ header.l4Offset + 20 ≤ frame.length ∧
        5 ≤ (byteAt frame (header.l4Offset + 12)).toNat / 16 ∧
        header.l4Offset + (byteAt frame (header.l4Offset + 12)).toNat / 16 * 4 ≤ frame.length ∧
        packet = { header with
          sourcePort := be16At frame header.l4Offset
          destinationPort := be16At frame (header.l4Offset + 2)
          tcpFlags := byteAt frame (header.l4Offset + 13)
          l4ChecksumOffset := header.l4Offset + 16 }) ∨
      (header.protocol = ipprotoUdp ∧ header.l4Offset + 8 ≤ frame.length ∧
        8 ≤ (be16At frame (header.l4Offset + 4)).toNat ∧
        packet = { header with
          sourcePort := be16At frame header.l4Offset
          destinationPort := be16At frame (header.l4Offset + 2)
          l4ChecksumOffset := header.l4Offset + 6 }) := by
  have hne : ipprotoTcp ≠ ipprotoUdp := by decide
  simp only [parseTransport]
  split
  · rename_i htcp
    rw [Option.ite_none_left_eq_some, Option.ite_none_left_eq_some, Option.some.injEq, not_or,
      Nat.not_lt, Nat.not_lt, Nat.not_lt]
    constructor
    · rintro ⟨hlen, ⟨hdoff, hopts⟩, rfl⟩
      exact .inl ⟨htcp, hlen, hdoff, hopts, rfl⟩
    · rintro (⟨-, hlen, hdoff, hopts, rfl⟩ | ⟨hudp, -⟩)
      · exact ⟨hlen, ⟨hdoff, hopts⟩, rfl⟩
      · exact absurd (htcp.symm.trans hudp) hne
  · rename_i htcp
    split
    · rename_i hudp
      rw [Option.ite_none_left_eq_some, Option.some.injEq, not_or, Nat.not_lt, Nat.not_lt]
      constructor
      · rintro ⟨⟨hlen, hudpLen⟩, rfl⟩
        exact .inr ⟨hudp, hlen, hudpLen, rfl⟩
      · rintro (⟨htcp', -⟩ | ⟨-, hlen, hudpLen, rfl⟩)
        · exact absurd htcp' htcp
        · exact ⟨⟨hlen, hudpLen⟩, rfl⟩
    · rename_i hudp
      constructor
      · intro h
        cases h
      · rintro (⟨htcp', -⟩ | ⟨hudp', -⟩)
        · exact absurd htcp' htcp
        · exact absurd hudp' hudp

/-- Where the transport header of an accepted frame lies. -/
structure Placed (frame : List UInt8) (packet : PacketInfo) : Prop where
  checksum : packet.l4Offset + 6 ≤ packet.l4ChecksumOffset
  fits : packet.l4ChecksumOffset + 2 ≤ frame.length

theorem placed_of_parseTransport {frame : List UInt8} {header packet : PacketInfo}
    (h : parseTransport frame header = some packet) : Placed frame packet := by
  rcases parseTransport_eq_some_iff.mp h with ⟨-, hlen, -, -, rfl⟩ | ⟨-, hlen, -, rfl⟩
  · exact ⟨by dsimp only; omega, by dsimp only; omega⟩
  · exact ⟨by dsimp only; omega, by dsimp only; omega⟩

/-- The positions of a frame that rewrites of its transport header touch. -/
def PacketInfo.touchesTransport (packet : PacketInfo) (i : Nat) : Prop :=
  (packet.l4Offset ≤ i ∧ i < packet.l4Offset + 4) ∨
    (packet.l4ChecksumOffset ≤ i ∧ i < packet.l4ChecksumOffset + 2)

/-- The transport header of a frame that differs in ports and checksum only. -/
theorem parseTransport_of_agree {frame frame' : List UInt8} {header packet : PacketInfo}
    (h : parseTransport frame header = some packet) {touched : Nat → Prop}
    (hagree : Agree touched frame frame')
    (htouched : ∀ i, header.l4Offset ≤ i → touched i → packet.touchesTransport i)
    (source destination : Address) :
    parseTransport frame' { header with source := source, destination := destination } =
      some { packet with
        source := source
        destination := destination
        sourcePort := be16At frame' packet.l4Offset
        destinationPort := be16At frame' (packet.l4Offset + 2) } := by
  rw [parseTransport_eq_some_iff]
  rcases parseTransport_eq_some_iff.mp h with ⟨hproto, hlen, hdoff, hopts, hpacket⟩ |
    ⟨hproto, hlen, hudpLen, hpacket⟩
  · subst hpacket
    have hbyte : ∀ i, header.l4Offset + 4 ≤ i → i < header.l4Offset + 16 →
        byteAt frame' i = byteAt frame i := fun i hlow hhigh =>
      hagree.byte i fun ht => by
        have := htouched i (by omega) ht
        simp only [PacketInfo.touchesTransport] at this
        omega
    have hoffset := hbyte (header.l4Offset + 12) (by omega) (by omega)
    have hflags := hbyte (header.l4Offset + 13) (by omega) (by omega)
    refine .inl ⟨hproto, ?_, ?_, ?_, ?_⟩
    · rw [hagree.length]
      exact hlen
    · rw [hoffset]
      exact hdoff
    · rw [hagree.length, hoffset]
      exact hopts
    · simp only [hflags]
  · subst hpacket
    have hlength : be16At frame' (header.l4Offset + 4) = be16At frame (header.l4Offset + 4) :=
      hagree.be16At_eq fun i hlow hhigh ht => by
        have := htouched i (by omega) ht
        simp only [PacketInfo.touchesTransport] at this
        omega
    refine .inr ⟨hproto, ?_, ?_, rfl⟩
    · rw [hagree.length]
      exact hlen
    · rw [hlength]
      exact hudpLen

/-! ## Whole frames -/

/-- An address in the network header of a frame, at its offset in IPv4 and in IPv6. -/
def wireAddress (v4Offset v6Offset : Nat) (family : UInt8) (frame : List UInt8) : Address :=
  if family = 4 then ipv4ToMapped (arrayAt 4 frame (14 + v4Offset)) else arrayAt 16 frame (14 + v6Offset)

/-- The addresses in the network header of a frame. -/
def wireSource : UInt8 → List UInt8 → Address := wireAddress 12 8
def wireDestination : UInt8 → List UInt8 → Address := wireAddress 16 24

/-- The positions of a frame that rewrites touch: header checksum and addresses, ports and transport
checksum. -/
def PacketInfo.touches (packet : PacketInfo) (i : Nat) : Prop :=
  (packet.family = 4 ∧ 24 ≤ i ∧ i < 34) ∨ (packet.family = 6 ∧ 22 ≤ i ∧ i < 54) ∨
    packet.touchesTransport i

/-- What is read of an accepted frame, and where its headers lie. -/
structure Accepted (frame : List UInt8) (packet : PacketInfo) : Prop extends Placed frame packet where
  family : packet.family = 4 ∧ 34 ≤ packet.l4Offset ∨ packet.family = 6 ∧ 54 ≤ packet.l4Offset
  l3Offset : packet.l3Offset = 14
  source : packet.source = wireSource packet.family frame
  destination : packet.destination = wireDestination packet.family frame
  sourcePort : packet.sourcePort = be16At frame packet.l4Offset
  destinationPort : packet.destinationPort = be16At frame (packet.l4Offset + 2)

theorem accepted_of_parsePacket {frame : List UInt8} {packet : PacketInfo}
    (h : parsePacket frame = some packet) : Accepted frame packet := by
  rcases parsePacket_eq_some_iff.mp h with ⟨-, h⟩ | ⟨-, h⟩
  · obtain ⟨⟨-, hihl, -⟩, h⟩ := parseIpv4_eq_some_iff.mp h
    obtain ⟨-, heq⟩ := parseTransport_eq h
    refine ⟨placed_of_parseTransport h, .inl ?_, ?_, ?_, ?_, ?_, ?_⟩
    all_goals rw [heq]
    · refine ⟨rfl, ?_⟩
      show 34 ≤ 14 + ipv4Ihl frame * 4
      omega
    all_goals rfl
  · obtain ⟨-, h⟩ := parseIpv6_eq_some_iff.mp h
    obtain ⟨-, heq⟩ := parseTransport_eq h
    refine ⟨placed_of_parseTransport h, .inr ?_, ?_, ?_, ?_, ?_, ?_⟩
    all_goals rw [heq]
    · exact ⟨rfl, Nat.le_refl 54⟩
    all_goals rfl

/-- **A frame that differs at rewritable positions only is parsed as before, with the endpoints it now
has.** -/
theorem parsePacket_of_agree {frame frame' : List UInt8} {packet : PacketInfo}
    (h : parsePacket frame = some packet) (hagree : Agree packet.touches frame frame') :
    parsePacket frame' = some { packet with
      source := wireSource packet.family frame'
      destination := wireDestination packet.family frame'
      sourcePort := be16At frame' packet.l4Offset
      destinationPort := be16At frame' (packet.l4Offset + 2) } := by
  have hplace := accepted_of_parsePacket h
  -- The bytes before the addresses and the checksum are as they were.
  have hlow : ∀ i, i < 22 → byteAt frame' i = byteAt frame i := fun i hi =>
    hagree.byte i fun ht => by
      have hchecksum := hplace.checksum
      simp only [PacketInfo.touches, PacketInfo.touchesTransport] at ht
      rcases hplace.family with ⟨-, hl4⟩ | ⟨-, hl4⟩ <;> omega
  have hlow16 : ∀ i, i < 21 → be16At frame' i = be16At frame i := fun i hi => by
    rw [be16At, be16At, hlow i (by omega), hlow (i + 1) (by omega)]
  rw [parsePacket_eq_some_iff, hlow16 12 (by omega)]
  rcases parsePacket_eq_some_iff.mp h with ⟨htype, h⟩ | ⟨htype, h⟩
  · refine .inl ⟨htype, parseIpv4_eq_some_iff.mpr ?_⟩
    obtain ⟨hheader, htransport⟩ := parseIpv4_eq_some_iff.mp h
    obtain ⟨-, heq⟩ := parseTransport_eq htransport
    have hfamily : packet.family = 4 := by rw [heq]; rfl
    have hl4 : packet.l4Offset = 14 + ipv4Ihl frame * 4 := by rw [heq]; rfl
    have hihl : ipv4Ihl frame' = ipv4Ihl frame := by rw [ipv4Ihl, ipv4Ihl, hlow 14 (by omega)]
    have hproto : byteAt frame' 23 = byteAt frame 23 := hagree.byte 23 fun ht => by
      have hchecksum := hplace.checksum
      have hihl5 := hheader.2.1
      simp only [PacketInfo.touches, PacketInfo.touchesTransport, hfamily] at ht
      rcases ht with ht | ⟨habsurd, -⟩ | ht
      · omega
      · exact absurd habsurd (by decide)
      · omega
    refine ⟨?_, ?_⟩
    · rw [hagree.length, hihl, hlow16 20 (by omega), hlow16 16 (by omega)]
      exact hheader
    · have hwhole := parseTransport_of_agree htransport hagree (fun i hi ht => ?_)
        (wireSource packet.family frame') (wireDestination packet.family frame')
      · rw [← hwhole, hfamily]
        congr 1
        simp only [ipv4Header, hproto, hihl]
        rfl
      · have hihl5 := hheader.2.1
        have hi' : 14 + ipv4Ihl frame * 4 ≤ i := hi
        rcases ht with ht | ⟨habsurd, -⟩ | ht
        · omega
        · exact absurd (hfamily.symm.trans habsurd) (by decide)
        · exact ht
  · refine .inr ⟨htype, parseIpv6_eq_some_iff.mpr ?_⟩
    obtain ⟨hheader, htransport⟩ := parseIpv6_eq_some_iff.mp h
    obtain ⟨-, heq⟩ := parseTransport_eq htransport
    have hfamily : packet.family = 6 := by rw [heq]; rfl
    refine ⟨?_, ?_⟩
    · rw [hagree.length, hlow 20 (by omega)]
      exact hheader
    · have hwhole := parseTransport_of_agree htransport hagree (fun i hi ht => ?_)
        (wireSource packet.family frame') (wireDestination packet.family frame')
      · rw [← hwhole, hfamily]
        congr 1
        simp only [ipv6Header, hlow 20 (by omega)]
        rfl
      · have hi' : 54 ≤ i := hi
        rcases ht with ⟨habsurd, -⟩ | ht | ht
        · exact absurd (hfamily.symm.trans habsurd) (by decide)
        · omega
        · exact ht

/-! ## Rewrites -/

/-- The positions one rewrite touches. -/
def PacketInfo.touchesEndpoint (packet : PacketInfo) (v4Offset v6Offset portOffset i : Nat) : Prop :=
  (packet.family = 4 ∧ (24 ≤ i ∧ i < 26 ∨ 14 + v4Offset ≤ i ∧ i < 18 + v4Offset)) ∨
    (packet.family = 6 ∧ 14 + v6Offset ≤ i ∧ i < 30 + v6Offset) ∨
    (packet.l4Offset + portOffset ≤ i ∧ i < packet.l4Offset + portOffset + 2) ∨
    (packet.l4ChecksumOffset ≤ i ∧ i < packet.l4ChecksumOffset + 2)

theorem agree_bpfCsumReplace {touched : Nat → Prop} {frame : List UInt8} {offset : Nat}
    (h : offset + 2 ≤ frame.length) (hsub : ∀ i, offset ≤ i → i < offset + 2 → touched i)
    (old new : UInt32) : Agree touched frame (bpfCsumReplace frame offset old new) :=
  Agree.store (by simpa using h) (by simpa using hsub)

/-- The transport checksum is all an update of it changes. -/
theorem agree_updateL4Checksum {touched : Nat → Prop} {frame : List UInt8} {packet : PacketInfo}
    (h : packet.l4ChecksumOffset + 2 ≤ frame.length)
    (hsub : ∀ i, packet.l4ChecksumOffset ≤ i → i < packet.l4ChecksumOffset + 2 → touched i)
    (oldAddress newAddress : Address) (oldPort newPort : UInt16) :
    Agree touched frame (updateL4Checksum frame packet oldAddress newAddress oldPort newPort) := by
  have hfirst : ∀ old new, Agree touched frame
      (bpfCsumReplace frame packet.l4ChecksumOffset old new) := agree_bpfCsumReplace h hsub
  rw [updateL4Checksum]
  split
  · exact (hfirst _ _).trans (agree_bpfCsumReplace (by rw [(hfirst _ _).length]; exact h) hsub _ _)
  · exact (hfirst _ _).trans (agree_bpfCsumReplace (by rw [(hfirst _ _).length]; exact h) hsub _ _)

section Rewrite

variable {frame : List UInt8} {packet : PacketInfo} {v4Offset v6Offset portOffset : Nat}
  {oldAddress newAddress : Address} {oldPort newPort : UInt16}

/-- What a rewrite leaves of a frame: the new endpoint, and everything outside it but the checksums. -/
structure Rewritten (packet : PacketInfo) (v4Offset v6Offset portOffset : Nat) (newAddress : Address)
    (newPort : UInt16) (frame frame' : List UInt8) : Prop where
  agree : Agree (packet.touchesEndpoint v4Offset v6Offset portOffset) frame frame'
  address4 : packet.family = 4 →
    arrayAt 4 frame' (14 + v4Offset) = arrayAt 4 (newAddress.toList.drop 12) 0
  address6 : packet.family = 6 → arrayAt 16 frame' (14 + v6Offset) = newAddress
  port : be16At frame' (packet.l4Offset + portOffset) = newPort

/-- The part of a rewrite in the network header: the address, and the header checksum of IPv4. -/
def rewriteNetwork (v4Offset v6Offset : Nat) (frame : List UInt8) (packet : PacketInfo)
    (oldAddress newAddress : Address) : List UInt8 :=
  if packet.family = 4 then
    store (bpfCsumReplace frame (packet.l3Offset + 10) (addressWord oldAddress 12)
      (addressWord newAddress 12)) (packet.l3Offset + v4Offset) (newAddress.toList.drop 12)
  else store frame (packet.l3Offset + v6Offset) newAddress.toList

theorem rewriteEndpoint_eq : rewriteEndpoint v4Offset v6Offset portOffset frame packet oldAddress
    newAddress oldPort newPort =
      store (updateL4Checksum (rewriteNetwork v4Offset v6Offset frame packet oldAddress newAddress)
        packet oldAddress newAddress oldPort newPort) (packet.l4Offset + portOffset)
        (be16Bytes newPort) := rfl

/-- The network part puts the address in place and changes nothing else but the header checksum. -/
theorem rewriteNetwork_spec (h : Accepted frame packet) (hv4 : v4Offset = 12 ∨ v4Offset = 16)
    (hv6 : v6Offset = 8 ∨ v6Offset = 24) (oldAddress newAddress : Address) :
    Agree (fun i => packet.family = 4 ∧ (24 ≤ i ∧ i < 26 ∨ 14 + v4Offset ≤ i ∧ i < 18 + v4Offset) ∨
        packet.family = 6 ∧ 14 + v6Offset ≤ i ∧ i < 30 + v6Offset) frame
        (rewriteNetwork v4Offset v6Offset frame packet oldAddress newAddress) ∧
      (packet.family = 4 →
        arrayAt 4 (rewriteNetwork v4Offset v6Offset frame packet oldAddress newAddress)
          (14 + v4Offset) = arrayAt 4 (newAddress.toList.drop 12) 0) ∧
      (packet.family = 6 →
        arrayAt 16 (rewriteNetwork v4Offset v6Offset frame packet oldAddress newAddress)
          (14 + v6Offset) = newAddress) := by
  have hchecksum := h.checksum
  have hfits := h.fits
  have hdrop : (newAddress.toList.drop 12).length = 4 := by simp
  have hwhole : newAddress.toList.length = 16 := by simp
  rw [rewriteNetwork, h.l3Offset]
  rcases h.family with ⟨hfamily, hl4⟩ | ⟨hfamily, hl4⟩
  · rw [if_pos hfamily]
    have hsum : Agree (fun i => packet.family = 4 ∧
        (24 ≤ i ∧ i < 26 ∨ 14 + v4Offset ≤ i ∧ i < 18 + v4Offset) ∨
        packet.family = 6 ∧ 14 + v6Offset ≤ i ∧ i < 30 + v6Offset) frame
        (bpfCsumReplace frame (14 + 10) (addressWord oldAddress 12) (addressWord newAddress 12)) :=
      agree_bpfCsumReplace (by omega) (fun i hlow hhigh => .inl ⟨hfamily, .inl (by omega)⟩) _ _
    have hlen := hsum.length
    refine ⟨hsum.trans (Agree.store (by omega) fun i hlow hhigh =>
      .inl ⟨hfamily, .inr (by omega)⟩), fun _ => arrayAt_store hdrop (by omega), fun h6 => ?_⟩
    exact absurd (hfamily.symm.trans h6) (by decide)
  · have hne : packet.family ≠ 4 := by rw [hfamily]; decide
    rw [if_neg hne]
    refine ⟨Agree.store (by omega) fun i hlow hhigh => .inr ⟨hfamily, by omega⟩,
      fun h4 => absurd h4 hne, fun _ => ?_⟩
    rw [arrayAt_store hwhole (by omega), arrayAt_toList]

theorem rewritten_rewriteEndpoint (h : Accepted frame packet)
    (hv4 : v4Offset = 12 ∨ v4Offset = 16) (hv6 : v6Offset = 8 ∨ v6Offset = 24)
    (hport : portOffset = 0 ∨ portOffset = 2) :
    Rewritten packet v4Offset v6Offset portOffset newAddress newPort frame
      (rewriteEndpoint v4Offset v6Offset portOffset frame packet oldAddress newAddress oldPort
        newPort) := by
  have hchecksum := h.checksum
  have hfits := h.fits
  have hl4 : packet.family = 4 ∧ 34 ≤ packet.l4Offset ∨ packet.family = 6 ∧ 54 ≤ packet.l4Offset :=
    h.family
  obtain ⟨hagree₁, haddress4, haddress6⟩ := rewriteNetwork_spec h hv4 hv6 oldAddress newAddress
  rw [rewriteEndpoint_eq]
  generalize rewriteNetwork v4Offset v6Offset frame packet oldAddress newAddress = frame₁ at *
  have hlen₁ := hagree₁.length
  -- The transport checksum lies behind the addresses and the ports.
  have hagree₂ : Agree (fun i => packet.l4ChecksumOffset ≤ i ∧ i < packet.l4ChecksumOffset + 2) frame₁
      (updateL4Checksum frame₁ packet oldAddress newAddress oldPort newPort) :=
    agree_updateL4Checksum (by omega) (fun i hlow hhigh => ⟨hlow, hhigh⟩) _ _ _ _
  generalize updateL4Checksum frame₁ packet oldAddress newAddress oldPort newPort = frame₂ at *
  have hlen₂ := hagree₂.length
  have hstore : packet.l4Offset + portOffset + (be16Bytes newPort).length ≤ frame₂.length := by
    rw [length_be16Bytes, hlen₂, hlen₁]
    omega
  have hagree₃ : Agree (fun i => packet.l4Offset + portOffset ≤ i ∧
      i < packet.l4Offset + portOffset + 2) frame₂
      (store frame₂ (packet.l4Offset + portOffset) (be16Bytes newPort)) :=
    Agree.store hstore fun i hlow hhigh => ⟨hlow, by rw [length_be16Bytes] at hhigh; exact hhigh⟩
  refine ⟨?_, fun h4 => ?_, fun h6 => ?_, ?_⟩
  · refine ((hagree₁.mono fun i hi => ?_).trans (hagree₂.mono fun i hi => ?_)).trans
      (hagree₃.mono fun i hi => ?_)
    · exact hi.elim .inl fun hi => .inr (.inl hi)
    · exact .inr (.inr (.inr hi))
    · exact .inr (.inr (.inl hi))
  · rw [hagree₃.arrayAt_eq, hagree₂.arrayAt_eq, haddress4 h4]
    all_goals
      intro i hlow hhigh ht
      rcases hl4 with ⟨-, hl4⟩ | ⟨-, hl4⟩ <;> omega
  · rw [hagree₃.arrayAt_eq, hagree₂.arrayAt_eq, haddress6 h6]
    all_goals
      intro i hlow hhigh ht
      rcases hl4 with ⟨h4, -⟩ | ⟨-, hl4⟩
      · exact absurd (h4.symm.trans h6) (by decide)
      · omega
  · rw [length_be16Bytes] at hstore
    exact be16At_store hstore newPort

theorem arrayAt_drop_ipv4ToMapped (a : Vector UInt8 4) :
    arrayAt 4 ((ipv4ToMapped a).toList.drop 12) 0 = a := by
  have hdrop : (ipv4ToMapped a).toList.drop 12 = a.toList := by
    rw [ipv4ToMapped, Vector.toList_append]
    exact List.drop_left' (by simp)
  rw [hdrop, arrayAt_toList]

/-- One rewrite touches only what rewrites may touch. -/
theorem touches_of_touchesEndpoint (hv4 : v4Offset = 12 ∨ v4Offset = 16)
    (hv6 : v6Offset = 8 ∨ v6Offset = 24) (hport : portOffset = 0 ∨ portOffset = 2) (i : Nat)
    (h : packet.touchesEndpoint v4Offset v6Offset portOffset i) : packet.touches i := by
  rcases h with ⟨hfamily, h⟩ | ⟨hfamily, h⟩ | h | h
  · exact .inl ⟨hfamily, by omega⟩
  · exact .inr (.inl ⟨hfamily, by omega⟩)
  · exact .inr (.inr (.inl (by omega)))
  · exact .inr (.inr (.inr h))

/-- In the transport header a rewrite touches its port and the checksum. -/
theorem Accepted.transport_of_touchesEndpoint (h : Accepted frame packet)
    (hv4 : v4Offset = 12 ∨ v4Offset = 16) (hv6 : v6Offset = 8 ∨ v6Offset = 24) {i : Nat}
    (hi : packet.l4Offset ≤ i) (ht : packet.touchesEndpoint v4Offset v6Offset portOffset i) :
    (packet.l4Offset + portOffset ≤ i ∧ i < packet.l4Offset + portOffset + 2) ∨
      (packet.l4ChecksumOffset ≤ i ∧ i < packet.l4ChecksumOffset + 2) := by
  rcases h.family with ⟨hfamily, hl4⟩ | ⟨hfamily, hl4⟩
  · rcases ht with ht | ⟨habsurd, -⟩ | ht
    · omega
    · exact absurd (hfamily.symm.trans habsurd) (by decide)
    · exact ht
  · rcases ht with ⟨habsurd, -⟩ | ht | ht
    · exact absurd (hfamily.symm.trans habsurd) (by decide)
    · omega
    · exact ht

/-- The address at the offsets of a rewrite is the new one. -/
theorem Rewritten.address
    (h : Rewritten packet v4Offset v6Offset portOffset newAddress newPort frame frame')
    (hplace : Accepted frame packet) (hnew : packet.family = 4 → ∃ a, newAddress = ipv4ToMapped a) :
    wireAddress v4Offset v6Offset packet.family frame' = newAddress := by
  rw [wireAddress]
  rcases hplace.family with ⟨hfamily, -⟩ | ⟨hfamily, -⟩
  · obtain ⟨a, rfl⟩ := hnew hfamily
    rw [if_pos hfamily, h.address4 hfamily, arrayAt_drop_ipv4ToMapped]
  · rw [if_neg (by rw [hfamily]; decide), h.address6 hfamily]

/-- The address at other offsets stays. -/
theorem Rewritten.other_address
    (h : Rewritten packet v4Offset v6Offset portOffset newAddress newPort frame frame')
    (hplace : Accepted frame packet) {v4Offset' v6Offset' : Nat}
    (hv4 : v4Offset = 12 ∧ v4Offset' = 16 ∨ v4Offset = 16 ∧ v4Offset' = 12)
    (hv6 : v6Offset = 8 ∧ v6Offset' = 24 ∨ v6Offset = 24 ∧ v6Offset' = 8) :
    wireAddress v4Offset' v6Offset' packet.family frame' =
      wireAddress v4Offset' v6Offset' packet.family frame := by
  have hchecksum := hplace.checksum
  rw [wireAddress, wireAddress]
  rcases hplace.family with ⟨hfamily, hl4⟩ | ⟨hfamily, hl4⟩
  · rw [if_pos hfamily, if_pos hfamily, h.agree.arrayAt_eq]
    intro i hlow hhigh ht
    simp only [PacketInfo.touchesEndpoint, hfamily] at ht
    rcases ht with ht | ⟨habsurd, -⟩ | ht
    · omega
    · exact absurd habsurd (by decide)
    · omega
  · have hne : packet.family ≠ 4 := by rw [hfamily]; decide
    rw [if_neg hne, if_neg hne, h.agree.arrayAt_eq]
    intro i hlow hhigh ht
    simp only [PacketInfo.touchesEndpoint] at ht
    rcases ht with ⟨habsurd, -⟩ | ht
    · exact hne habsurd
    · omega

theorem rewritten_rewriteDestination (h : Accepted frame packet) (newAddress : Address)
    (newPort : UInt16) :
    Rewritten packet 16 24 2 newAddress newPort frame
      (rewriteDestination frame packet newAddress newPort) :=
  rewritten_rewriteEndpoint h (.inr rfl) (.inr rfl) (.inr rfl)

theorem rewritten_rewriteSource (h : Accepted frame packet) (newAddress : Address) (newPort : UInt16) :
    Rewritten packet 12 8 0 newAddress newPort frame (rewriteSource frame packet newAddress newPort) :=
  rewritten_rewriteEndpoint h (.inl rfl) (.inl rfl) (.inl rfl)

/-- **A frame with a rewritten destination is the frame toward the new destination.** -/
theorem parsePacket_rewriteDestination (h : parsePacket frame = some packet)
    (hnew : packet.family = 4 → ∃ a, newAddress = ipv4ToMapped a) :
    parsePacket (rewriteDestination frame packet newAddress newPort) = some { packet with
      destination := newAddress
      destinationPort := newPort } := by
  have hplace := accepted_of_parsePacket h
  have hrewritten := rewritten_rewriteDestination hplace newAddress newPort
  generalize rewriteDestination frame packet newAddress newPort = frame' at hrewritten
  rw [parsePacket_of_agree h (hrewritten.agree.mono (touches_of_touchesEndpoint (.inr rfl) (.inr rfl)
    (.inr rfl))), hrewritten.port]
  have hsourcePort : be16At frame' packet.l4Offset = packet.sourcePort := by
    have hchecksum := hplace.checksum
    rw [hplace.sourcePort]
    refine hrewritten.agree.be16At_eq fun i hlow hhigh ht => ?_
    have := hplace.transport_of_touchesEndpoint (.inr rfl) (.inr rfl) (by omega) ht
    omega
  have hsource : wireSource packet.family frame' = packet.source :=
    (hrewritten.other_address hplace (.inr ⟨rfl, rfl⟩) (.inr ⟨rfl, rfl⟩)).trans hplace.source.symm
  have hdestination : wireDestination packet.family frame' = newAddress := hrewritten.address hplace hnew
  rw [hsourcePort, hsource, hdestination]

/-- **A frame with a rewritten source is the frame from the new source.** -/
theorem parsePacket_rewriteSource (h : parsePacket frame = some packet)
    (hnew : packet.family = 4 → ∃ a, newAddress = ipv4ToMapped a) :
    parsePacket (rewriteSource frame packet newAddress newPort) = some { packet with
      source := newAddress
      sourcePort := newPort } := by
  have hplace := accepted_of_parsePacket h
  have hrewritten := rewritten_rewriteSource hplace newAddress newPort
  generalize rewriteSource frame packet newAddress newPort = frame' at hrewritten
  have hport : be16At frame' packet.l4Offset = newPort := hrewritten.port
  rw [parsePacket_of_agree h (hrewritten.agree.mono (touches_of_touchesEndpoint (.inl rfl) (.inl rfl)
    (.inl rfl))), hport]
  have hdestinationPort : be16At frame' (packet.l4Offset + 2) = packet.destinationPort := by
    have hchecksum := hplace.checksum
    rw [hplace.destinationPort]
    refine hrewritten.agree.be16At_eq fun i hlow hhigh ht => ?_
    have := hplace.transport_of_touchesEndpoint (.inl rfl) (.inl rfl) (by omega) ht
    omega
  have hdestination : wireDestination packet.family frame' = packet.destination :=
    (hrewritten.other_address hplace (.inl ⟨rfl, rfl⟩) (.inl ⟨rfl, rfl⟩)).trans hplace.destination.symm
  have hsource : wireSource packet.family frame' = newAddress := hrewritten.address hplace hnew
  rw [hdestinationPort, hdestination, hsource]

end Rewrite

end ShadowSocketProxy.Bpf
