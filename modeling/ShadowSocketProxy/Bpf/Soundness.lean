import ShadowSocketProxy.Bpf.Rewriting

/-! # What the parser vouches for

An accepted frame holds every header the parser reads and every byte a rewrite stores. The datagram that
the network header declares is another matter: the parser compares it with a transport header of eight
bytes over IPv4, and with nothing over IPv6. -/

namespace ShadowSocketProxy.Bpf

open Bytes Interleaving

variable {frame frame' : List UInt8} {packet : PacketInfo}

/-! ## The headers -/

/-- The length of the transport header. -/
def PacketInfo.headerLength (packet : PacketInfo) (frame : List UInt8) : Nat :=
  if packet.protocol = ipprotoTcp then (byteAt frame (packet.l4Offset + 12)).toNat / 16 * 4 else 8

/-- The end of the datagram that the network header declares: the total length of IPv4, the payload
length of IPv6. -/
def PacketInfo.datagramEnd (packet : PacketInfo) (frame : List UInt8) : Nat :=
  if packet.family = 4 then 14 + (be16At frame 16).toNat else 54 + (be16At frame 18).toNat

/-- The positions of the headers: Ethernet, network and transport. -/
def PacketInfo.inHeaders (packet : PacketInfo) (frame : List UInt8) (i : Nat) : Prop :=
  i < packet.l4Offset + packet.headerLength frame

/-- The transport header of an accepted frame is whole, and that of TCP has its fixed part. -/
theorem headers_of_parsePacket (h : parsePacket frame = some packet) :
    packet.l4Offset + packet.headerLength frame ≤ frame.length ∧
      (packet.protocol = ipprotoTcp → 20 ≤ packet.headerLength frame) := by
  have htransport : ∀ header, parseTransport frame header = some packet →
      packet.l4Offset + packet.headerLength frame ≤ frame.length ∧
        (packet.protocol = ipprotoTcp → 20 ≤ packet.headerLength frame) := by
    intro header h
    rcases parseTransport_eq_some_iff.mp h with ⟨hproto, -, hdoff, hopts, rfl⟩ |
      ⟨hproto, hlen, -, rfl⟩
    · simp only [PacketInfo.headerLength, hproto, if_true]
      exact ⟨hopts, fun _ => by omega⟩
    · have hne : ipprotoUdp ≠ ipprotoTcp := by decide
      simp only [PacketInfo.headerLength, hproto, if_neg hne]
      exact ⟨hlen, fun habsurd => absurd habsurd hne⟩
  rcases parsePacket_eq_some_iff.mp h with ⟨-, h⟩ | ⟨-, h⟩
  · exact htransport _ (parseIpv4_eq_some_iff.mp h).2
  · exact htransport _ (parseIpv6_eq_some_iff.mp h).2

/-- What the fields of a frame say about the transport header and the declared datagram. Over IPv4 the
parser itself compares the total length with the eight bytes of a UDP header, so only the data offset of
TCP is left to compare; over IPv6 nothing is compared. -/
def DatagramHolds (frame : List UInt8) : Prop :=
  if be16At frame 12 = 0x0800 then
    byteAt frame 23 = ipprotoTcp → ipv4Ihl frame * 4 +
      (byteAt frame (14 + ipv4Ihl frame * 4 + 12)).toNat / 16 * 4 ≤ (be16At frame 16).toNat
  else
    (if byteAt frame 20 = ipprotoTcp then (byteAt frame 66).toNat / 16 * 4 else 8) ≤
      (be16At frame 18).toNat

instance (frame : List UInt8) : Decidable (DatagramHolds frame) := by
  unfold DatagramHolds
  infer_instance

/-- The declared datagram of an accepted frame holds the transport header exactly when the fields say
so. -/
theorem contained_iff (h : parsePacket frame = some packet) :
    packet.l4Offset + packet.headerLength frame ≤ packet.datagramEnd frame ↔ DatagramHolds frame := by
  rcases parsePacket_eq_some_iff.mp h with ⟨htype, h⟩ | ⟨htype, h⟩
  · obtain ⟨⟨-, -, -, -, htotal⟩, h⟩ := parseIpv4_eq_some_iff.mp h
    obtain ⟨-, heq⟩ := parseTransport_eq h
    have hfields : packet.l4Offset = 14 + ipv4Ihl frame * 4 ∧ packet.family = 4 ∧
        packet.protocol = byteAt frame 23 := by
      rw [heq]
      exact ⟨rfl, rfl, rfl⟩
    rw [DatagramHolds, if_pos htype, PacketInfo.datagramEnd, if_pos hfields.2.1,
      PacketInfo.headerLength, hfields.1, hfields.2.2]
    split
    · rename_i htcp
      simp only [htcp, forall_const]
      omega
    · rename_i hudp
      exact ⟨fun _ htcp => absurd htcp hudp, fun _ => by omega⟩
  · obtain ⟨-, h⟩ := parseIpv6_eq_some_iff.mp h
    obtain ⟨-, heq⟩ := parseTransport_eq h
    have hfields : packet.l4Offset = 54 ∧ packet.family = 6 ∧ packet.protocol = byteAt frame 20 := by
      rw [heq]
      exact ⟨rfl, rfl, rfl⟩
    rw [DatagramHolds, if_neg (by rw [htype]; decide), PacketInfo.datagramEnd,
      if_neg (by rw [hfields.2.1]; decide), PacketInfo.headerLength, hfields.1, hfields.2.2]
    exact Nat.add_le_add_iff_left

/-- The transport part reads nothing but the transport header. -/
theorem parseTransport_of_headers {header : PacketInfo} (h : parseTransport frame header = some packet)
    (hagree : Agree (fun i => ¬ packet.inHeaders frame i) frame frame') :
    parseTransport frame' header = some packet := by
  have hbyte : ∀ i, packet.inHeaders frame i → byteAt frame' i = byteAt frame i := fun i hi =>
    hagree.byte i (not_not.mpr hi)
  have h16 : ∀ i, packet.inHeaders frame (i + 1) → be16At frame' i = be16At frame i := by
    intro i hi
    have hi' : packet.inHeaders frame i := Nat.lt_of_succ_lt hi
    rw [be16At, be16At, hbyte i hi', hbyte (i + 1) hi]
  rw [parseTransport_eq_some_iff]
  rcases parseTransport_eq_some_iff.mp h with ⟨hproto, hlen, hdoff, hopts, hpacket⟩ |
    ⟨hproto, hlen, hudpLen, hpacket⟩
  · have hin : ∀ i, i < header.l4Offset + 20 → packet.inHeaders frame i := by
      intro i hi
      rw [PacketInfo.inHeaders, PacketInfo.headerLength, hpacket, if_pos hproto]
      dsimp only
      omega
    rw [hagree.length, hbyte _ (hin _ (by omega)), hbyte _ (hin _ (by omega)), h16 _ (hin _ (by omega)),
      h16 _ (hin _ (by omega))]
    exact .inl ⟨hproto, hlen, hdoff, hopts, hpacket⟩
  · have hne : header.protocol ≠ ipprotoTcp := by
      rw [hproto]
      decide
    have hin : ∀ i, i < header.l4Offset + 8 → packet.inHeaders frame i := by
      intro i hi
      rw [PacketInfo.inHeaders, PacketInfo.headerLength, hpacket, if_neg hne]
      exact hi
    rw [hagree.length, h16 _ (hin _ (by omega)), h16 _ (hin _ (by omega)), h16 _ (hin _ (by omega))]
    exact .inr ⟨hproto, hlen, hudpLen, hpacket⟩

/-- **The parser reads nothing but the headers**: a frame of the same length with the same headers is
parsed alike. -/
theorem parsePacket_of_headers (h : parsePacket frame = some packet)
    (hagree : Agree (fun i => ¬ packet.inHeaders frame i) frame frame') :
    parsePacket frame' = some packet := by
  -- The network header ends where the transport header begins.
  have hnetwork : ∀ n, n ≤ packet.l4Offset → ∀ i, i < n → byteAt frame' i = byteAt frame i := by
    intro n hn i hi
    refine hagree.byte i (not_not.mpr ?_)
    rw [PacketInfo.inHeaders]
    omega
  have hnetwork16 : ∀ n, n ≤ packet.l4Offset → ∀ i, i + 1 < n → be16At frame' i = be16At frame i := by
    intro n hn i hi
    rw [be16At, be16At, hnetwork n hn i (by omega), hnetwork n hn (i + 1) hi]
  have harray : ∀ n, n ≤ packet.l4Offset → ∀ m i, i + m ≤ n →
      arrayAt m frame' i = arrayAt m frame i := by
    intro n hn m i hi
    refine hagree.arrayAt_eq fun j hlow hhigh => not_not.mpr ?_
    rw [PacketInfo.inHeaders]
    omega
  rw [parsePacket_eq_some_iff]
  rcases parsePacket_eq_some_iff.mp h with ⟨htype, h⟩ | ⟨htype, h⟩
  · obtain ⟨hheader, htransport⟩ := parseIpv4_eq_some_iff.mp h
    obtain ⟨-, heq⟩ := parseTransport_eq htransport
    have hl4 : 34 ≤ packet.l4Offset := by
      rw [heq]
      show 34 ≤ 14 + ipv4Ihl frame * 4
      omega
    have hihl : ipv4Ihl frame' = ipv4Ihl frame := by
      rw [ipv4Ihl, ipv4Ihl, hnetwork 34 hl4 14 (by omega)]
    have hfields : ipv4Header frame' = ipv4Header frame := by
      simp only [ipv4Header, hihl, hnetwork 34 hl4 23 (by omega), harray 34 hl4 4 26 (by omega),
        harray 34 hl4 4 30 (by omega)]
    refine .inl ⟨(hnetwork16 34 hl4 12 (by omega)).trans htype, parseIpv4_eq_some_iff.mpr ⟨?_, ?_⟩⟩
    · rw [hagree.length, hihl, hnetwork16 34 hl4 20 (by omega), hnetwork16 34 hl4 16 (by omega)]
      exact hheader
    · rw [hfields]
      exact parseTransport_of_headers htransport hagree
  · obtain ⟨hheader, htransport⟩ := parseIpv6_eq_some_iff.mp h
    obtain ⟨-, heq⟩ := parseTransport_eq htransport
    have hl4 : 54 ≤ packet.l4Offset := by
      rw [heq]
      exact Nat.le_refl 54
    have hfields : ipv6Header frame' = ipv6Header frame := by
      simp only [ipv6Header, hnetwork 54 hl4 20 (by omega), harray 54 hl4 16 22 (by omega),
        harray 54 hl4 16 38 (by omega)]
    refine .inr ⟨(hnetwork16 54 hl4 12 (by omega)).trans htype, parseIpv6_eq_some_iff.mpr ⟨?_, ?_⟩⟩
    · rw [hagree.length, hnetwork 54 hl4 20 (by omega)]
      exact hheader
    · rw [hfields]
      exact parseTransport_of_headers htransport hagree

/-! ## Stores -/

/-- The positions that the two rewrites of a packet store to. -/
def PacketInfo.stores (packet : PacketInfo) (i : Nat) : Prop :=
  packet.touchesEndpoint 16 24 2 i ∨ packet.touchesEndpoint 12 8 0 i

/-- A rewrite keeps the length of an accepted frame and stores to these positions only. -/
theorem agree_rewrites (h : parsePacket frame = some packet) (newAddress : Address) (newPort : UInt16) :
    Agree packet.stores frame (rewriteDestination frame packet newAddress newPort) ∧
      Agree packet.stores frame (rewriteSource frame packet newAddress newPort) := by
  have hplace := accepted_of_parsePacket h
  exact ⟨(rewritten_rewriteDestination hplace newAddress newPort).agree.mono fun i hi => .inl hi,
    (rewritten_rewriteSource hplace newAddress newPort).agree.mono fun i hi => .inr hi⟩

/-- Every stored position lies inside an accepted frame. -/
theorem lt_length_of_stores (h : parsePacket frame = some packet) {i : Nat} (hi : packet.stores i) :
    i < frame.length := by
  have hplace := accepted_of_parsePacket h
  have hchecksum := hplace.checksum
  have hfits := hplace.fits
  simp only [PacketInfo.stores, PacketInfo.touchesEndpoint] at hi
  rcases hplace.family with ⟨hfamily, hl4⟩ | ⟨hfamily, hl4⟩
  · have hne : packet.family ≠ 6 := by
      rw [hfamily]
      decide
    simp only [hne, false_and, false_or] at hi
    omega
  · omega

/-! ## Soundness -/

/-- **An accepted frame holds its headers and every byte a rewrite stores, and the datagram it declares
holds the transport header if and only if the length fields say so**: `DatagramHolds` compares header
length, data offset and total or payload length. A frame that is not accepted passes unchanged. -/
theorem parsePacket_sound (slots : Slots) (frame : List UInt8) (ingress : Bool) :
    (parsePacket frame = none → processPacket slots frame ingress = pure (.ok, frame)) ∧
    ∀ packet, parsePacket frame = some packet →
      (∀ i, packet.inHeaders frame i → i < frame.length) ∧
      (∀ frame', Agree (fun i => ¬ packet.inHeaders frame i) frame frame' →
        parsePacket frame' = some packet) ∧
      (∀ i, packet.stores i → i < frame.length) ∧
      (∀ newAddress newPort,
        Agree packet.stores frame (rewriteDestination frame packet newAddress newPort) ∧
        Agree packet.stores frame (rewriteSource frame packet newAddress newPort)) ∧
      (packet.l4Offset + packet.headerLength frame ≤ packet.datagramEnd frame ↔
        DatagramHolds frame) := by
  refine ⟨fun h => by rw [processPacket, h], fun packet h => ?_⟩
  exact ⟨fun i hi => Nat.lt_of_lt_of_le hi (headers_of_parsePacket h).1,
    fun frame' => parsePacket_of_headers h, fun i => lt_length_of_stores h, agree_rewrites h,
    contained_iff h⟩

/-- A TCP segment over IPv4 in 54 bytes whose header declares a datagram of 28 bytes, enough for a UDP
header. -/
def shortIpv4 : List UInt8 :=
  List.replicate 12 0 ++ [0x08, 0x00] ++
    [0x45, 0, 0, 28, 0, 0, 0, 0, 64, 6, 0, 0, 10, 0, 0, 1, 10, 0, 0, 2] ++
    [0x03, 0xe8, 0x07, 0xd0, 0, 0, 0, 0, 0, 0, 0, 0, 0x50, 0x02, 0, 0, 0, 0, 0, 0]

/-- A TCP segment over IPv6 whose header declares no payload at all. -/
def shortIpv6 : List UInt8 :=
  List.replicate 12 0 ++ [0x86, 0xdd] ++ [0x60, 0, 0, 0, 0, 0, 6, 64] ++ List.replicate 32 1 ++
    [0x03, 0xe8, 0x07, 0xd0, 0, 0, 0, 0, 0, 0, 0, 0, 0x50, 0x02, 0, 0, 0, 0, 0, 0]

/-- The first segment with its real total length, padded to the least length of an Ethernet frame. -/
def paddedIpv4 : List UInt8 := shortIpv4.set 17 40 ++ List.replicate 6 0

/-- The padded segment is inside its datagram, and the short one is not. -/
theorem parsePacket_sound_sample :
    (∃ packet, parsePacket paddedIpv4 = some packet ∧
      packet.l4Offset + packet.headerLength paddedIpv4 ≤ packet.datagramEnd paddedIpv4) ∧
    ∃ packet, parsePacket shortIpv4 = some packet ∧
      ¬ packet.l4Offset + packet.headerLength shortIpv4 ≤ packet.datagramEnd shortIpv4 := by
  obtain ⟨-, hpadded⟩ := parsePacket_sound Slots.split paddedIpv4 true
  obtain ⟨-, hshort⟩ := parsePacket_sound Slots.split shortIpv4 true
  obtain ⟨-, -, -, -, hinside⟩ := hpadded _ rfl
  obtain ⟨-, -, -, -, hbeyond⟩ := hshort _ rfl
  exact ⟨⟨_, rfl, hinside.mpr (by decide)⟩, ⟨_, rfl, fun h => absurd (hbeyond.mp h) (by decide)⟩⟩

/-- **The parser accepts frames whose declared datagram ends inside the transport header.** -/
theorem short_datagrams_accepted :
    (∃ packet, parsePacket shortIpv4 = some packet ∧ packet.family = 4 ∧
      packet.datagramEnd shortIpv4 < packet.l4Offset + packet.headerLength shortIpv4) ∧
    ∃ packet, parsePacket shortIpv6 = some packet ∧ packet.family = 6 ∧
      packet.datagramEnd shortIpv6 < packet.l4Offset + packet.headerLength shortIpv6 := by
  refine ⟨⟨_, rfl, rfl, ?_⟩, ⟨_, rfl, rfl, ?_⟩⟩ <;> decide

end ShadowSocketProxy.Bpf
