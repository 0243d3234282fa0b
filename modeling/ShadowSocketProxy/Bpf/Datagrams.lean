import ShadowSocketProxy.Bpf.Checksums

/-! # Rewritten datagrams

Whether the receiver of a rewritten frame finds its checksums in order: the IPv4 header checksum, and the
TCP or UDP checksum over pseudo-header and segment. -/

namespace ShadowSocketProxy.Bpf

open Bytes OnesComplement

/-! ## What the checksums cover -/

/-- The IPv4 header, options included. -/
def ipv4HeaderBytes (frame : List UInt8) : List UInt8 := (frame.drop 14).take (ipv4Ihl frame * 4)

/-- The length of the segment: for TCP what the network header declares behind itself, for UDP what the
UDP header declares. -/
def PacketInfo.segmentLength (packet : PacketInfo) (frame : List UInt8) : Nat :=
  if packet.protocol = ipprotoTcp then packet.datagramEnd frame - packet.l4Offset
  else (be16At frame (packet.l4Offset + 4)).toNat

/-- The pseudo-header of the family. -/
def PacketInfo.pseudoHeader (packet : PacketInfo) (frame : List UInt8) : List UInt8 :=
  if packet.family = 4 then
    (arrayAt 4 frame 26).toList ++ (arrayAt 4 frame 30).toList ++ [0, packet.protocol] ++
      beBytes 2 (packet.segmentLength frame)
  else
    (arrayAt 16 frame 22).toList ++ (arrayAt 16 frame 38).toList ++
      beBytes 4 (packet.segmentLength frame) ++ [0, 0, 0, packet.protocol]

/-- Pseudo-header and segment. -/
def PacketInfo.transportBytes (packet : PacketInfo) (frame : List UInt8) : List UInt8 :=
  packet.pseudoHeader frame ++ (frame.drop packet.l4Offset).take (packet.segmentLength frame)

variable {frame frame' : List UInt8} {packet : PacketInfo} {v4Offset v6Offset portOffset : Nat}
  {oldAddress newAddress : Address} {oldPort newPort : UInt16}

/-- The words of the two addresses in the network header. -/
def addressesSum (family : UInt8) (frame : List UInt8) : Nat :=
  if family = 4 then span (byteAt frame) 26 8 else span (byteAt frame) 22 32

theorem total_arrayAt (n : Nat) (bs : List UInt8) (off : Nat) :
    total (arrayAt n bs off).toList = span (byteAt bs) off n := by
  have hwhole : (arrayAt n bs off).toList.take n = (arrayAt n bs off).toList :=
    List.take_of_length_le (by simp)
  rw [← hwhole, total_take]
  exact span_of_arrayAt (arrayAt_toList _)

/-- The sum of a transport checksum: addresses, protocol and length, and the segment. -/
theorem total_transportBytes (packet : PacketInfo) (frame : List UInt8) :
    total (packet.transportBytes frame) = addressesSum packet.family frame +
      (packet.protocol.toNat +
        total (beBytes (if packet.family = 4 then 2 else 4) (packet.segmentLength frame))) +
      span (byteAt frame) packet.l4Offset (packet.segmentLength frame) := by
  have hlast : total [0, packet.protocol] = packet.protocol.toNat := by simp [total]
  have hlast6 : total [0, 0, 0, packet.protocol] = packet.protocol.toNat := by simp [total]
  have hsplit : span (byteAt frame) 26 8 = span (byteAt frame) 26 4 + span (byteAt frame) 30 4 :=
    span_add 26 2 4
  have hsplit6 : span (byteAt frame) 22 32 = span (byteAt frame) 22 16 + span (byteAt frame) 38 16 :=
    span_add 22 8 16
  rw [PacketInfo.transportBytes, PacketInfo.pseudoHeader, addressesSum]
  split
  · rw [total_append _ (by simp), total_append _ (by simp), total_append _ (by simp),
      total_append _ (by simp), total_arrayAt, total_arrayAt, hlast, total_take_drop, hsplit]
    omega
  · rw [total_append _ (by simp), total_append _ (by simp), total_append _ (by simp),
      total_append _ (by simp), total_arrayAt, total_arrayAt, hlast6, total_take_drop, hsplit6]
    omega

/-! ## Sums after a rewrite -/

/-- The address that a rewrite replaces is the one on the wire. -/
structure OnWire (packet : PacketInfo) (v4Offset v6Offset portOffset : Nat) (address : Address)
    (port : UInt16) (frame : List UInt8) : Prop where
  address4 : packet.family = 4 →
    arrayAt 4 frame (14 + v4Offset) = arrayAt 4 (address.toList.drop 12) 0
  address6 : packet.family = 6 → arrayAt 16 frame (14 + v6Offset) = address
  port : be16At frame (packet.l4Offset + portOffset) = port

theorem Rewritten.onWire
    (h : Rewritten packet v4Offset v6Offset portOffset newAddress newPort frame frame') :
    OnWire packet v4Offset v6Offset portOffset newAddress newPort frame' :=
  ⟨h.address4, h.address6, h.port⟩

/-- The words of an address on the wire. -/
theorem OnWire.addressSum_eq (h : OnWire packet v4Offset v6Offset portOffset newAddress newPort frame)
    (hfamily : packet.family = 4 ∨ packet.family = 6) :
    addressSum packet.family newAddress = if packet.family = 4 then span (byteAt frame) (14 + v4Offset) 4
      else span (byteAt frame) (14 + v6Offset) 16 := by
  rw [addressSum]
  split
  · rename_i h4
    have hdrop : ∀ i, byteAt (newAddress.toList.drop 12) i = byteAt newAddress.toList (12 + i) := by
      intro i
      simp only [byteAt, List.getD_eq_getElem?_getD, List.getElem?_drop]
    rw [span_of_arrayAt (h.address4 h4), ← Nat.add_zero 12, ← span_shift]
    exact (span_congr fun i _ _ => hdrop i).symm
  · rename_i h4
    rw [span_of_arrayAt ((h.address6 (hfamily.resolve_left h4)).trans (arrayAt_toList _).symm)]

/-- Every accepted packet was read by `parseTransport`. -/
theorem parseTransport_of_parsePacket (h : parsePacket frame = some packet) :
    ∃ header, parseTransport frame header = some packet := by
  rcases parsePacket_eq_some_iff.mp h with ⟨-, h⟩ | ⟨-, h⟩
  · exact ⟨_, (parseIpv4_eq_some_iff.mp h).2⟩
  · exact ⟨_, (parseIpv6_eq_some_iff.mp h).2⟩

/-- Where the checksum of each protocol lies in its header. -/
theorem checksumOffset_of_parsePacket (h : parsePacket frame = some packet) :
    packet.protocol = ipprotoTcp ∧ packet.l4ChecksumOffset = packet.l4Offset + 16 ∨
      packet.protocol = ipprotoUdp ∧ packet.l4ChecksumOffset = packet.l4Offset + 6 := by
  obtain ⟨header, htransport⟩ := parseTransport_of_parsePacket h
  rcases parseTransport_eq_some_iff.mp htransport with ⟨hproto, -, -, -, rfl⟩ | ⟨hproto, -, -, rfl⟩
  · exact .inl ⟨hproto, rfl⟩
  · exact .inr ⟨hproto, rfl⟩

/-- An accepted UDP header declares at least itself. -/
theorem udpLength_of_parsePacket (h : parsePacket frame = some packet)
    (hudp : packet.protocol = ipprotoUdp) : 8 ≤ (be16At frame (packet.l4Offset + 4)).toNat := by
  obtain ⟨header, htransport⟩ := parseTransport_of_parsePacket h
  rcases parseTransport_eq_some_iff.mp htransport with ⟨hproto, -, -, -, rfl⟩ | ⟨-, -, hlength, rfl⟩
  · exact absurd (hproto.symm.trans hudp) (by decide)
  · exact hlength

section Sums

variable (h : parsePacket frame = some packet) (hv4 : v4Offset = 12 ∨ v4Offset = 16)
  (hv6 : v6Offset = 8 ∨ v6Offset = 24) (hport : portOffset = 0 ∨ portOffset = 2)
  (hrewritten : Rewritten packet v4Offset v6Offset portOffset newAddress newPort frame frame')

include h hv4 hv6 hport hrewritten

/-- A rewrite changes no length. -/
theorem segmentLength_of_rewritten : packet.segmentLength frame' = packet.segmentLength frame := by
  have hplace := accepted_of_parsePacket h
  have hchecksum := hplace.checksum
  have hlow : ∀ i, i < 19 → be16At frame' i = be16At frame i := by
    intro i hi
    refine hrewritten.agree.be16At_eq fun j hj hj' ht => ?_
    simp only [PacketInfo.touchesEndpoint] at ht
    rcases hplace.family with ⟨-, hl4⟩ | ⟨-, hl4⟩ <;> omega
  have hudp : be16At frame' (packet.l4Offset + 4) = be16At frame (packet.l4Offset + 4) := by
    refine hrewritten.agree.be16At_eq fun j hj hj' ht => ?_
    have := hplace.transport_of_touchesEndpoint hv4 hv6 (by omega) ht
    omega
  rw [PacketInfo.segmentLength, PacketInfo.segmentLength, PacketInfo.datagramEnd, PacketInfo.datagramEnd,
    hlow 16 (by omega), hlow 18 (by omega), hudp]

section

variable (hold : OnWire packet v4Offset v6Offset portOffset oldAddress oldPort frame)

include hold

/-- The addresses of the pseudo-header change by the address that is replaced. -/
theorem addressesSum_of_rewritten :
    addressesSum packet.family frame' + addressSum packet.family oldAddress =
      addressesSum packet.family frame + addressSum packet.family newAddress := by
  have hplace := accepted_of_parsePacket h
  have hchecksum := hplace.checksum
  have hfamily : packet.family = 4 ∨ packet.family = 6 := hplace.family.imp And.left And.left
  rw [hold.addressSum_eq hfamily, hrewritten.onWire.addressSum_eq hfamily, addressesSum, addressesSum]
  rcases hplace.family with ⟨h4, hl4⟩ | ⟨h6, hl4⟩
  · have hne : packet.family ≠ 6 := by rw [h4]; decide
    simp only [if_pos h4]
    obtain ⟨k, hk⟩ : ∃ k, 14 + v4Offset = 26 + 2 * k := ⟨(v4Offset - 12) / 2, by omega⟩
    rw [hk]
    refine span_replace (by decide) (by omega) fun i hlow hhigh hout => ?_
    refine hrewritten.agree.byte i fun ht => ?_
    simp only [PacketInfo.touchesEndpoint, hne, false_and, false_or] at ht
    omega
  · have hne : packet.family ≠ 4 := by rw [h6]; decide
    simp only [if_neg hne]
    obtain ⟨k, hk⟩ : ∃ k, 14 + v6Offset = 22 + 2 * k := ⟨(v6Offset - 8) / 2, by omega⟩
    rw [hk]
    refine span_replace (by decide) (by omega) fun i hlow hhigh hout => ?_
    refine hrewritten.agree.byte i fun ht => ?_
    simp only [PacketInfo.touchesEndpoint, hne, false_and, false_or] at ht
    omega

/-- The segment changes by its port and its checksum. -/
theorem segment_of_rewritten
    {n : Nat} (hcover : packet.l4ChecksumOffset + 2 ≤ packet.l4Offset + n) :
    span (byteAt frame') packet.l4Offset n + (word (byteAt frame) packet.l4ChecksumOffset + oldPort.toNat) =
      span (byteAt frame) packet.l4Offset n +
        (word (byteAt frame') packet.l4ChecksumOffset + newPort.toNat) := by
  have hplace := accepted_of_parsePacket h
  have hchecksum := hplace.checksum
  obtain ⟨c, hc⟩ : ∃ c, packet.l4ChecksumOffset = packet.l4Offset + 2 * c := by
    rcases checksumOffset_of_parsePacket h with ⟨-, hoffset⟩ | ⟨-, hoffset⟩
    · exact ⟨8, hoffset⟩
    · exact ⟨3, hoffset⟩
  obtain ⟨p, hp⟩ : ∃ p, packet.l4Offset + portOffset = packet.l4Offset + 2 * p :=
    ⟨portOffset / 2, by omega⟩
  have hspan := span_replace_two (f := byteAt frame) (g := byteAt frame') (s := packet.l4Offset)
    (n := n) (j := p) (k := c) (l := 2) (m := 2) (by decide) (by decide) (by omega) (by omega) (by omega)
    fun i hlow _ hport hsum => hrewritten.agree.byte i fun ht => by
      have := hplace.transport_of_touchesEndpoint hv4 hv6 hlow ht
      omega
  have holdPort : span (byteAt frame) (packet.l4Offset + 2 * p) 2 = oldPort.toNat := by
    rw [span_two, word_byteAt, ← hp, hold.port]
  have hnewPort : span (byteAt frame') (packet.l4Offset + 2 * p) 2 = newPort.toNat := by
    rw [span_two, word_byteAt, ← hp, hrewritten.port]
  rw [hc, ← span_two, ← span_two]
  omega

/-- **The sum under the transport checksum stays as it was modulo 65535.** -/
theorem total_of_rewritten
    (hsummed : Summed packet oldAddress newAddress oldPort newPort frame frame')
    (hcover : packet.l4ChecksumOffset + 2 ≤ packet.l4Offset + packet.segmentLength frame) :
    total (packet.transportBytes frame') % 65535 = total (packet.transportBytes frame) % 65535 := by
  have haddresses := addressesSum_of_rewritten h hv4 hv6 hport hrewritten hold
  have hsegment := segment_of_rewritten h hv4 hv6 hport hrewritten hold hcover
  have htransport := hsummed.transport
  rw [total_transportBytes, total_transportBytes, segmentLength_of_rewritten h hv4 hv6 hport hrewritten]
  omega

/-- The header checksum verifies as it did. -/
theorem header_of_rewritten
    (hsummed : Summed packet oldAddress newAddress oldPort newPort frame frame')
    (h4 : packet.family = 4) : Verifies (ipv4HeaderBytes frame') ↔ Verifies (ipv4HeaderBytes frame) := by
  have hplace := accepted_of_parsePacket h
  have hchecksum := hplace.checksum
  obtain ⟨hihl, hl4⟩ : 5 ≤ ipv4Ihl frame ∧ packet.l4Offset = 14 + ipv4Ihl frame * 4 := by
    rcases parsePacket_eq_some_iff.mp h with ⟨-, h⟩ | ⟨-, h⟩
    · obtain ⟨⟨-, hihl, -⟩, htransport⟩ := parseIpv4_eq_some_iff.mp h
      obtain ⟨-, heq⟩ := parseTransport_eq htransport
      exact ⟨hihl, by rw [heq]; rfl⟩
    · obtain ⟨-, heq⟩ := parseTransport_eq (parseIpv6_eq_some_iff.mp h).2
      have h6 : packet.family = 6 := by rw [heq]; rfl
      exact absurd (h4.symm.trans h6) (by decide)
  have hne : packet.family ≠ 6 := by rw [h4]; decide
  have htouched : ∀ i, packet.touchesEndpoint v4Offset v6Offset portOffset i → i < packet.l4Offset →
      24 ≤ i ∧ i < 26 ∨ 14 + v4Offset ≤ i ∧ i < 18 + v4Offset := by
    intro i ht hi
    simp only [PacketInfo.touchesEndpoint, hne, false_and, false_or] at ht
    omega
  have hfirst : byteAt frame' 14 = byteAt frame 14 := hrewritten.agree.byte 14 fun ht => by
    have := htouched 14 ht (by omega)
    omega
  have hihl' : ipv4Ihl frame' = ipv4Ihl frame := by rw [ipv4Ihl, ipv4Ihl, hfirst]
  obtain ⟨k, hk⟩ : ∃ k, 14 + v4Offset = 14 + 2 * k := ⟨v4Offset / 2, by omega⟩
  have hspan := span_replace_two (f := byteAt frame) (g := byteAt frame') (s := 14)
    (n := ipv4Ihl frame * 4) (j := 5) (k := k) (l := 2) (m := 4) (by decide) (by decide) (by omega)
    (by omega) (by omega) fun i _ hhigh hsum haddress => hrewritten.agree.byte i fun ht => by
      have := htouched i ht (by omega)
      omega
  have hfamily : packet.family = 4 ∨ packet.family = 6 := .inl h4
  have holdAddress := hold.addressSum_eq hfamily
  have hnewAddress := hrewritten.onWire.addressSum_eq hfamily
  rw [addressSum, if_pos h4, if_pos h4, hk] at holdAddress hnewAddress
  have hheader := hsummed.header h4
  rw [← span_two, ← span_two] at hheader
  -- The version keeps either sum from being zero.
  have hpos : ∀ bs, byteAt bs 14 = byteAt frame 14 → span (byteAt bs) 14 (ipv4Ihl frame * 4) ≠ 0 := by
    intro bs hbs
    obtain ⟨n, hn⟩ : ∃ n, ipv4Ihl frame * 4 = n + 2 := ⟨ipv4Ihl frame * 4 - 2, by omega⟩
    have hbyte : 5 ≤ (byteAt bs 14).toNat := by
      rw [hbs]
      have : (byteAt frame 14).toNat % 16 = ipv4Ihl frame := rfl
      omega
    rw [hn, span, word]
    omega
  rw [verifies_iff, verifies_iff, ipv4HeaderBytes, ipv4HeaderBytes, hihl', total_take_drop,
    total_take_drop]
  have hmod : span (byteAt frame') 14 (ipv4Ihl frame * 4) % 65535 =
      span (byteAt frame) 14 (ipv4Ihl frame * 4) % 65535 := by
    have hcell : 14 + 2 * 5 = 24 := rfl
    rw [hcell] at hspan
    omega
  rw [hmod]
  exact and_congr_right fun _ => iff_of_true (hpos frame' hfirst) (hpos frame rfl)

/-- So the transport checksum verifies as it did. -/
theorem verifies_of_rewritten
    (hsummed : Summed packet oldAddress newAddress oldPort newPort frame frame')
    (hcover : packet.l4ChecksumOffset + 2 ≤ packet.l4Offset + packet.segmentLength frame) :
    Verifies (packet.transportBytes frame') ↔ Verifies (packet.transportBytes frame) := by
  have hmod := total_of_rewritten h hv4 hv6 hport hrewritten hold hsummed hcover
  -- The protocol number keeps either sum from being zero.
  have hprotocol : 0 < packet.protocol.toNat := by
    rcases checksumOffset_of_parsePacket h with ⟨hproto, -⟩ | ⟨hproto, -⟩ <;> rw [hproto] <;> decide
  have hpos : ∀ bs, total (packet.transportBytes bs) ≠ 0 := by
    intro bs
    rw [total_transportBytes]
    omega
  rw [verifies_iff, verifies_iff, hmod]
  exact and_congr_right fun _ => iff_of_true (hpos frame') (hpos frame)

end

end Sums

/-! ## The two rewrites -/

section

variable (h : parsePacket frame = some packet)

include h

/-- The endpoints of a packet are on the wire. -/
theorem onWire_destination :
    OnWire packet 16 24 2 packet.destination packet.destinationPort frame := by
  have hplace := accepted_of_parsePacket h
  refine ⟨fun h4 => ?_, fun h6 => ?_, hplace.destinationPort.symm⟩
  · rw [hplace.destination, wireDestination, wireAddress, if_pos h4, arrayAt_drop_ipv4ToMapped]
  · rw [hplace.destination, wireDestination, wireAddress, if_neg (by rw [h6]; decide)]

theorem onWire_source : OnWire packet 12 8 0 packet.source packet.sourcePort frame := by
  have hplace := accepted_of_parsePacket h
  refine ⟨fun h4 => ?_, fun h6 => ?_, hplace.sourcePort.symm⟩
  · rw [hplace.source, wireSource, wireAddress, if_pos h4, arrayAt_drop_ipv4ToMapped]
  · rw [hplace.source, wireSource, wireAddress, if_neg (by rw [h6]; decide)]

/-- How the checksums of a packet with a new destination add up. -/
theorem summed_rewriteDestination (newAddress : Address) (newPort : UInt16) :
    Summed packet packet.destination newAddress packet.destinationPort newPort frame
      (rewriteDestination frame packet newAddress newPort) :=
  summed_rewriteEndpoint (accepted_of_parsePacket h) (.inr rfl) (.inr rfl) (.inr rfl)

/-- How the checksums of a packet with a new source add up. -/
theorem summed_rewriteSource (newAddress : Address) (newPort : UInt16) :
    Summed packet packet.source newAddress packet.sourcePort newPort frame
      (rewriteSource frame packet newAddress newPort) :=
  summed_rewriteEndpoint (accepted_of_parsePacket h) (.inl rfl) (.inl rfl) (.inl rfl)

/-- The transport header of an accepted segment covers its checksum. -/
theorem covered_of_parsePacket (hinside : packet.protocol = ipprotoTcp →
      packet.l4Offset + packet.headerLength frame ≤ packet.datagramEnd frame) :
    packet.l4ChecksumOffset + 2 ≤ packet.l4Offset + packet.segmentLength frame := by
  obtain ⟨-, htcp⟩ := headers_of_parsePacket h
  rcases checksumOffset_of_parsePacket h with ⟨hproto, hoffset⟩ | ⟨hproto, hoffset⟩
  · have hheader := htcp hproto
    have hdeclared := hinside hproto
    rw [PacketInfo.segmentLength, if_pos hproto]
    omega
  · have hne : packet.protocol ≠ ipprotoTcp := by rw [hproto]; decide
    have hudp := udpLength_of_parsePacket h hproto
    rw [PacketInfo.segmentLength, if_neg hne]
    omega

end

/-- What a rewrite of one endpoint keeps of a frame: valid checksums, every byte that it does not
mean to change, and what is parsed of the rest. -/
structure Keeps (packet packet' : PacketInfo) (touched : Nat → Prop) (frame frame' : List UInt8) :
    Prop where
  header : packet.family = 4 → Verifies (ipv4HeaderBytes frame')
  transport : Verifies (packet'.transportBytes frame')
  inside : ∀ i, touched i → i < frame.length
  agree : Agree touched frame frame'
  parsed : parsePacket frame' = some packet'

/-- **Rewriting a frame with valid checksums gives a frame with valid checksums that differs in the one
endpoint and the two checksums.** -/
theorem rewrites_keep_checksums (h : parsePacket frame = some packet)
    (hinside : packet.l4Offset + packet.headerLength frame ≤ packet.datagramEnd frame)
    (hheader : packet.family = 4 → Verifies (ipv4HeaderBytes frame))
    (htransport : Verifies (packet.transportBytes frame))
    (newAddress : Address) (newPort : UInt16)
    (hnew : packet.family = 4 → ∃ a, newAddress = ipv4ToMapped a) :
    Keeps packet { packet with destination := newAddress, destinationPort := newPort }
        (packet.touchesEndpoint 16 24 2) frame (rewriteDestination frame packet newAddress newPort) ∧
      Keeps packet { packet with source := newAddress, sourcePort := newPort }
        (packet.touchesEndpoint 12 8 0) frame (rewriteSource frame packet newAddress newPort) := by
  have hplace := accepted_of_parsePacket h
  have hcover := covered_of_parsePacket h fun _ => hinside
  constructor
  · have hrewritten := rewritten_rewriteDestination hplace newAddress newPort
    have hsummed := summed_rewriteDestination h newAddress newPort
    have hold := onWire_destination h
    refine ⟨fun h4 => ?_, ?_, fun i hi => lt_length_of_stores h (.inl hi), hrewritten.agree,
      parsePacket_rewriteDestination h hnew⟩
    · exact (header_of_rewritten h (.inr rfl) (.inr rfl) (.inr rfl) hrewritten hold hsummed h4).mpr
        (hheader h4)
    · exact (verifies_of_rewritten h (.inr rfl) (.inr rfl) (.inr rfl) hrewritten hold hsummed
        hcover).mpr htransport
  · have hrewritten := rewritten_rewriteSource hplace newAddress newPort
    have hsummed := summed_rewriteSource h newAddress newPort
    have hold := onWire_source h
    refine ⟨fun h4 => ?_, ?_, fun i hi => lt_length_of_stores h (.inr hi), hrewritten.agree,
      parsePacket_rewriteSource h hnew⟩
    · exact (header_of_rewritten h (.inl rfl) (.inl rfl) (.inl rfl) hrewritten hold hsummed h4).mpr
        (hheader h4)
    · exact (verifies_of_rewritten h (.inl rfl) (.inl rfl) (.inl rfl) hrewritten hold hsummed
        hcover).mpr htransport

/-- A SYN from 10.0.0.1:1000 to 10.0.0.2:2000, and what is parsed of it. -/
def sampleSyn : List UInt8 :=
  List.replicate 12 0 ++ [0x08, 0x00] ++
    [0x45, 0, 0, 40, 0, 0, 0, 0, 64, 6, 0x66, 0xce, 10, 0, 0, 1, 10, 0, 0, 2] ++
    [0x03, 0xe8, 0x07, 0xd0, 0, 0, 0, 0, 0, 0, 0, 0, 0x50, 0x02, 0, 0, 0x90, 0x28, 0, 0]
def sampleSynPacket : PacketInfo where
  l3Offset := 14
  l4Offset := 34
  l4ChecksumOffset := 50
  family := 4
  protocol := ipprotoTcp
  tcpFlags := 2
  source := ipv4ToMapped (ipv4 10 0 0 1)
  destination := ipv4ToMapped (ipv4 10 0 0 2)
  sourcePort := 1000
  destinationPort := 2000

/-- The SYN is redirected to 10.0.0.3:3000 with valid checksums. -/
theorem rewrites_keep_checksums_sample : parsePacket sampleSyn = some sampleSynPacket ∧
    Keeps sampleSynPacket
      { sampleSynPacket with
        destination := ipv4ToMapped (ipv4 10 0 0 3)
        destinationPort := 3000 }
      (sampleSynPacket.touchesEndpoint 16 24 2) sampleSyn
      (rewriteDestination sampleSyn sampleSynPacket (ipv4ToMapped (ipv4 10 0 0 3)) 3000) := by
  have hparse : parsePacket sampleSyn = some sampleSynPacket := by decide
  have hheader : Verifies (ipv4HeaderBytes sampleSyn) := by decide
  have htransport : Verifies (sampleSynPacket.transportBytes sampleSyn) := by decide
  obtain ⟨hkeeps, -⟩ := rewrites_keep_checksums hparse (by decide) (fun _ => hheader) htransport
    (ipv4ToMapped (ipv4 10 0 0 3)) 3000 fun _ => ⟨_, rfl⟩
  exact ⟨hparse, hkeeps⟩

/-! ## UDP -/

/-- The transport checksum in the header. -/
def PacketInfo.checksumField (packet : PacketInfo) (frame : List UInt8) : UInt16 :=
  be16At frame packet.l4ChecksumOffset

/-- Whether a receiver takes a UDP datagram: over IPv4 a zero checksum is none, over IPv6 it is an
error. -/
def PacketInfo.udpAccepted (packet : PacketInfo) (frame : List UInt8) : Prop :=
  if packet.checksumField frame = 0 then packet.family = 4 else Verifies (packet.transportBytes frame)

instance (packet : PacketInfo) (frame : List UInt8) : Decidable (packet.udpAccepted frame) :=
  inferInstanceAs (Decidable (if packet.checksumField frame = 0 then packet.family = 4
    else Verifies (packet.transportBytes frame)))

/-- What should be kept of a UDP checksum. -/
structure UdpKept (packet : PacketInfo) (frame frame' : List UInt8) : Prop where
  disabled : packet.family = 4 → packet.checksumField frame = 0 → packet.checksumField frame' = 0
  valid : packet.checksumField frame ≠ 0 → Verifies (packet.transportBytes frame) →
    packet.checksumField frame' ≠ 0 ∧ Verifies (packet.transportBytes frame')
  receiver : packet.udpAccepted frame' ↔ packet.udpAccepted frame

/-- The updated checksum is zero exactly when the old one was; `old` and `new` are the sums of the
replaced endpoint. Over IPv6 this matters only for datagrams that verify. -/
def PacketInfo.zeroKept (packet : PacketInfo) (frame : List UInt8) (old new : Nat) : Prop :=
  packet.family = 4 ∨ Verifies (packet.transportBytes frame) →
    (packet.checksumField frame = 0 ↔ ((packet.checksumField frame).toNat + old) % 65535 = new % 65535)

/-- An updated checksum is zero when it has to be a multiple of 65535. -/
theorem checksumField_eq_zero_iff
    (hsummed : Summed packet oldAddress newAddress oldPort newPort frame frame') :
    packet.checksumField frame' = 0 ↔
      ((packet.checksumField frame).toNat + (addressSum packet.family oldAddress + oldPort.toNat)) % 65535 =
        (addressSum packet.family newAddress + newPort.toNat) % 65535 := by
  have htransport := hsummed.transport
  have hones := hsummed.notOnes
  rw [word_byteAt] at hones htransport
  rw [word_byteAt] at htransport
  rw [← UInt16.toNat_inj, UInt16.toNat_zero, PacketInfo.checksumField, PacketInfo.checksumField]
  omega

/-- One rewrite keeps the conventions exactly when it keeps a zero a zero and nothing else. -/
theorem udpKept_iff {old new : Nat}
    (hzero : packet.checksumField frame' = 0 ↔
      ((packet.checksumField frame).toNat + old) % 65535 = new % 65535)
    (hverifies : Verifies (packet.transportBytes frame') ↔ Verifies (packet.transportBytes frame)) :
    UdpKept packet frame frame' ↔ packet.zeroKept frame old new := by
  rw [PacketInfo.zeroKept, ← hzero]
  constructor
  · rintro ⟨hdisabled, hvalid, hreceiver⟩ hcase
    constructor
    · intro hfield
      by_contra hfield'
      rcases hcase with h4 | hsum
      · exact hfield' (hdisabled h4 hfield)
      · have haccepted : packet.udpAccepted frame' := by
          rw [PacketInfo.udpAccepted, if_neg hfield']
          exact hverifies.mpr hsum
        rw [hreceiver, PacketInfo.udpAccepted, if_pos hfield] at haccepted
        exact hfield' (hdisabled haccepted hfield)
    · intro hfield'
      by_contra hfield
      have hinvalid : ¬ Verifies (packet.transportBytes frame) := fun hsum =>
        (hvalid hfield hsum).1 hfield'
      rcases hcase with h4 | hsum
      · -- A datagram that was refused would now be taken for one without a checksum.
        have haccepted : packet.udpAccepted frame' := by
          rw [PacketInfo.udpAccepted, if_pos hfield']
          exact h4
        rw [hreceiver, PacketInfo.udpAccepted, if_neg hfield] at haccepted
        exact hinvalid haccepted
      · exact hinvalid hsum
  · intro hkept
    refine ⟨fun h4 hfield => (hkept (.inl h4)).mp hfield, fun hfield hsum => ⟨fun hfield' => ?_, ?_⟩, ?_⟩
    · exact hfield ((hkept (.inr hsum)).mpr hfield')
    · exact hverifies.mpr hsum
    · rw [PacketInfo.udpAccepted, PacketInfo.udpAccepted]
      by_cases hcase : packet.family = 4 ∨ Verifies (packet.transportBytes frame)
      · simp only [hkept hcase, hverifies]
      · rw [not_or] at hcase
        have hinvalid : ¬ Verifies (packet.transportBytes frame') := fun hsum =>
          hcase.2 (hverifies.mp hsum)
        refine iff_of_false ?_ ?_
        · split
          · exact hcase.1
          · exact hinvalid
        · split
          · exact hcase.1
          · exact hcase.2

/-- **Rewriting keeps the conventions of UDP checksums exactly when the update keeps a zero a zero and
makes no other checksum zero.** -/
theorem udp_rewrites_iff (h : parsePacket frame = some packet) (hudp : packet.protocol = ipprotoUdp)
    (newAddress : Address) (newPort : UInt16) :
    (UdpKept packet frame (rewriteDestination frame packet newAddress newPort) ↔
      packet.zeroKept frame
        (addressSum packet.family packet.destination + packet.destinationPort.toNat)
        (addressSum packet.family newAddress + newPort.toNat)) ∧
    (UdpKept packet frame (rewriteSource frame packet newAddress newPort) ↔
      packet.zeroKept frame (addressSum packet.family packet.source + packet.sourcePort.toNat)
        (addressSum packet.family newAddress + newPort.toNat)) := by
  have hplace := accepted_of_parsePacket h
  have hcover := covered_of_parsePacket h fun htcp => absurd (htcp.symm.trans hudp) (by decide)
  constructor
  · have hsummed := summed_rewriteDestination h newAddress newPort
    exact udpKept_iff (checksumField_eq_zero_iff hsummed) (verifies_of_rewritten h (.inr rfl) (.inr rfl)
      (.inr rfl) (rewritten_rewriteDestination hplace newAddress newPort) (onWire_destination h) hsummed
      hcover)
  · have hsummed := summed_rewriteSource h newAddress newPort
    exact udpKept_iff (checksumField_eq_zero_iff hsummed) (verifies_of_rewritten h (.inl rfl) (.inl rfl)
      (.inl rfl) (rewritten_rewriteSource hplace newAddress newPort) (onWire_source h) hsummed hcover)

/-- Datagrams from 10.0.0.1:1000 to 10.0.0.2:2000 with two bytes of payload and the given checksum. -/
def sampleUdp (checksum : UInt16) : List UInt8 :=
  List.replicate 12 0 ++ [0x08, 0x00] ++
    [0x45, 0, 0, 30, 0, 0, 0, 0, 64, 17, 0, 0, 10, 0, 0, 1, 10, 0, 0, 2] ++
    [0x03, 0xe8, 0x07, 0xd0, 0, 10] ++ be16Bytes checksum ++ [0xdc, 0x36]
def sampleUdpPacket : PacketInfo where
  l3Offset := 14
  l4Offset := 34
  l4ChecksumOffset := 40
  family := 4
  protocol := ipprotoUdp
  source := ipv4ToMapped (ipv4 10 0 0 1)
  destination := ipv4ToMapped (ipv4 10 0 0 2)
  sourcePort := 1000
  destinationPort := 2000

/-- The datagram with its checksum, redirected to 10.0.0.3:3001. -/
theorem udp_rewrites_sample : parsePacket (sampleUdp 0x03e9) = some sampleUdpPacket ∧
    UdpKept sampleUdpPacket (sampleUdp 0x03e9)
      (rewriteDestination (sampleUdp 0x03e9) sampleUdpPacket (ipv4ToMapped (ipv4 10 0 0 3)) 3001) := by
  have hparse : parsePacket (sampleUdp 0x03e9) = some sampleUdpPacket := by decide
  refine ⟨hparse, (udp_rewrites_iff hparse rfl (ipv4ToMapped (ipv4 10 0 0 3)) 3001).1.mpr fun _ => ?_⟩
  decide

/-- **A datagram without a checksum gets one that is wrong, and a datagram with a valid checksum loses
it.** Both are redirected to 10.0.0.3:3000. -/
theorem udp_checksums_broken :
    (parsePacket (sampleUdp 0) = some sampleUdpPacket ∧
      sampleUdpPacket.udpAccepted (sampleUdp 0) ∧
      ¬ sampleUdpPacket.udpAccepted
        (rewriteDestination (sampleUdp 0) sampleUdpPacket (ipv4ToMapped (ipv4 10 0 0 3)) 3000)) ∧
    (parsePacket (sampleUdp 0x03e9) = some sampleUdpPacket ∧
      Verifies (sampleUdpPacket.transportBytes (sampleUdp 0x03e9)) ∧
      sampleUdpPacket.checksumField
        (rewriteDestination (sampleUdp 0x03e9) sampleUdpPacket (ipv4ToMapped (ipv4 10 0 0 3)) 3000) =
          0) := by
  refine ⟨⟨?_, ?_, ?_⟩, ?_, ?_, ?_⟩ <;> decide

end ShadowSocketProxy.Bpf
