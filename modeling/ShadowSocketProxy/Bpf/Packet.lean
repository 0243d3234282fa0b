import ShadowSocketProxy.Bpf.Types

/-! # Frames

Parsing, hashing and rewriting of a frame, as the packet path of `shadow-socket-proxy.bpf.c` does
it. A frame is the byte string between `skb->data` and `skb->data_end`; it carries no checksum
offload state. -/

namespace ShadowSocketProxy.Bpf

open Bytes

variable {frame : List UInt8} {packet : PacketInfo}

/-! ## Parsing -/

/-- `sizeof(struct ethhdr)`. -/
def ethHeaderLen : Nat := 14

/-- An IPv4 address in its mapped 16-byte form. -/
def ipv4ToMapped (a : Vector UInt8 4) : Address :=
  (#v[0, 0, 0, 0, 0, 0, 0, 0, 0, 0, 0xff, 0xff] : Vector UInt8 12) ++ a

/-- The last four bytes of a mapped address. -/
theorem getElem_ipv4ToMapped (a : Vector UInt8 4) (i : Nat) (h : i < 4) :
    (ipv4ToMapped a)[12 + i] = a[i] := by
  simp only [ipv4ToMapped]
  rw [Vector.getElem_append_right (by omega) (by omega)]
  simp

/-- The TCP or UDP part of `parse_packet`, from the fields read of the network header. -/
def parseTransport (frame : List UInt8) (packet : PacketInfo) : Option PacketInfo :=
  let l4 := packet.l4Offset
  if packet.protocol = ipprotoTcp then
    if frame.length < l4 + 20 then none
    else
      let doff := (byteAt frame (l4 + 12)).toNat / 16
      if doff < 5 ∨ frame.length < l4 + doff * 4 then none
      else some { packet with
        sourcePort := be16At frame l4
        destinationPort := be16At frame (l4 + 2)
        tcpFlags := byteAt frame (l4 + 13)
        l4ChecksumOffset := l4 + 16 }
  else if packet.protocol = ipprotoUdp then
    if frame.length < l4 + 8 ∨ (be16At frame (l4 + 4)).toNat < 8 then none
    else some { packet with
      sourcePort := be16At frame l4
      destinationPort := be16At frame (l4 + 2)
      l4ChecksumOffset := l4 + 6 }
  else none

/-- The length of an IPv4 header, in words. -/
def ipv4Ihl (frame : List UInt8) : Nat := (byteAt frame 14).toNat % 16

/-- The fields of an IPv4 header. -/
def ipv4Header (frame : List UInt8) : PacketInfo where
  family := 4
  protocol := byteAt frame 23
  l3Offset := ethHeaderLen
  l4Offset := ethHeaderLen + ipv4Ihl frame * 4
  source := ipv4ToMapped (arrayAt 4 frame 26)
  destination := ipv4ToMapped (arrayAt 4 frame 30)

/-- The IPv4 branch of `parse_packet`. -/
def parseIpv4 (frame : List UInt8) : Option PacketInfo :=
  let ipHeaderLen := ipv4Ihl frame * 4
  if frame.length < ethHeaderLen + 20 ∨ ipv4Ihl frame < 5 then none
  else if frame.length < ethHeaderLen + ipHeaderLen then none
  else if be16At frame 20 &&& 0x1fff ≠ 0 then none
  else if (be16At frame 16).toNat < ipHeaderLen + 8 then none
  else parseTransport frame (ipv4Header frame)

/-- The fields of an IPv6 header. -/
def ipv6Header (frame : List UInt8) : PacketInfo where
  family := 6
  protocol := byteAt frame 20
  l3Offset := ethHeaderLen
  l4Offset := ethHeaderLen + 40
  source := arrayAt 16 frame 22
  destination := arrayAt 16 frame 38

/-- The IPv6 branch of `parse_packet`. -/
def parseIpv6 (frame : List UInt8) : Option PacketInfo :=
  if frame.length < ethHeaderLen + 40 then none
  else if byteAt frame 20 ≠ ipprotoTcp ∧ byteAt frame 20 ≠ ipprotoUdp then none
  else parseTransport frame (ipv6Header frame)

/-- Parse the Ethernet, IP and TCP or UDP headers of an unfragmented frame. -/
def parsePacket (frame : List UInt8) : Option PacketInfo :=
  if frame.length < ethHeaderLen then none
  else if be16At frame 12 = 0x0800 then parseIpv4 frame
  else if be16At frame 12 = 0x86dd then parseIpv6 frame
  else none

/-- An IPv4 frame is accepted when its header is whole and unfragmented and its transport header is
accepted. -/
theorem parseIpv4_eq_some_iff :
    parseIpv4 frame = some packet ↔
      (34 ≤ frame.length ∧ 5 ≤ ipv4Ihl frame ∧ 14 + ipv4Ihl frame * 4 ≤ frame.length ∧
        be16At frame 20 &&& 0x1fff = 0 ∧ ipv4Ihl frame * 4 + 8 ≤ (be16At frame 16).toNat) ∧
      parseTransport frame (ipv4Header frame) = some packet := by
  rw [parseIpv4, Option.ite_none_left_eq_some, Option.ite_none_left_eq_some,
    Option.ite_none_left_eq_some, Option.ite_none_left_eq_some]
  simp only [not_or, Nat.not_lt, ne_eq, not_not, and_assoc, ethHeaderLen]

theorem parseIpv6_eq_some_iff :
    parseIpv6 frame = some packet ↔
      (54 ≤ frame.length ∧ (byteAt frame 20 = ipprotoTcp ∨ byteAt frame 20 = ipprotoUdp)) ∧
      parseTransport frame (ipv6Header frame) = some packet := by
  rw [parseIpv6, Option.ite_none_left_eq_some, Option.ite_none_left_eq_some]
  simp only [Nat.not_lt, ne_eq, not_and_or, not_not, and_assoc, ethHeaderLen]

theorem parsePacket_eq_some_iff :
    parsePacket frame = some packet ↔
      be16At frame 12 = 0x0800 ∧ parseIpv4 frame = some packet ∨
      be16At frame 12 = 0x86dd ∧ parseIpv6 frame = some packet := by
  unfold parsePacket
  split
  · -- A frame without a whole Ethernet header has no whole network header either.
    rename_i hshort
    simp only [ethHeaderLen] at hshort
    simp only [reduceCtorEq, false_iff, not_or, not_and]
    refine ⟨fun _ h => ?_, fun _ h => ?_⟩
    · have := (parseIpv4_eq_some_iff.mp h).1.1
      omega
    · have := (parseIpv6_eq_some_iff.mp h).1.1
      omega
  · split
    · rename_i h4
      simp [h4]
    · split
      · rename_i h4 h6
        simp [h6]
      · rename_i h4 h6
        simp [h4, h6]

/-- The transport part takes TCP and UDP, and adds ports, flags and a checksum offset. -/
theorem parseTransport_eq {parsed : PacketInfo} (h : parseTransport frame packet = some parsed) :
    (packet.protocol = ipprotoTcp ∨ packet.protocol = ipprotoUdp) ∧
      parsed = { packet with
        sourcePort := be16At frame packet.l4Offset
        destinationPort := be16At frame (packet.l4Offset + 2)
        tcpFlags := parsed.tcpFlags
        l4ChecksumOffset := parsed.l4ChecksumOffset } := by
  simp only [parseTransport] at h
  split at h
  · rename_i hproto
    split at h
    · cases h
    · split at h
      · cases h
      · cases h
        exact ⟨.inl hproto, rfl⟩
  · split at h
    · rename_i hproto
      split at h
      · cases h
      · cases h
        exact ⟨.inr hproto, rfl⟩
    · cases h

/-- What is parsed has one of two families, with IPv4 addresses in mapped form, and one of two
protocols. -/
structure Parsed (packet : PacketInfo) : Prop where
  family : packet.family = 4 ∨ packet.family = 6
  protocol : packet.protocol = ipprotoTcp ∨ packet.protocol = ipprotoUdp
  source : packet.family = 4 → ∃ a, packet.source = ipv4ToMapped a
  destination : packet.family = 4 → ∃ a, packet.destination = ipv4ToMapped a

theorem parsed_of_parsePacket (h : parsePacket frame = some packet) : Parsed packet := by
  rcases parsePacket_eq_some_iff.mp h with ⟨-, h⟩ | ⟨-, h⟩
  · obtain ⟨hproto, heq⟩ := parseTransport_eq (parseIpv4_eq_some_iff.mp h).2
    rw [heq]
    exact ⟨.inl rfl, hproto, fun _ => ⟨_, rfl⟩, fun _ => ⟨_, rfl⟩⟩
  · obtain ⟨hproto, heq⟩ := parseTransport_eq (parseIpv6_eq_some_iff.mp h).2
    rw [heq]
    exact ⟨.inr rfl, hproto, fun hfamily => absurd hfamily (by decide : (6 : UInt8) ≠ 4),
      fun hfamily => absurd hfamily (by decide : (6 : UInt8) ≠ 4)⟩

/-! ## Keys -/

/-- The tuple key of a packet with the given endpoints. -/
def makeTupleKey (packet : PacketInfo) (source destination : Address)
    (sourcePort destinationPort : UInt16) : TupleKey where
  version := mapAbiVersion
  family := packet.family
  protocol := packet.protocol
  source := source
  destination := destination
  sourcePort := sourcePort
  destinationPort := destinationPort

/-- FNV-1a over the packed key; never zero. -/
def tupleHash (key : TupleKey) : UInt64 :=
  let hash := key.pack.foldl (fun (hash : UInt64) byte => (hash ^^^ byte.toUInt64) * 1099511628211)
    1469598103934665603
  if hash = 0 then 1 else hash

/-! ## Checksums

The kernel's one's-complement arithmetic on 32-bit sums. -/

/-- Add with end-around carry. -/
def csumAdd (csum addend : UInt32) : UInt32 :=
  let res := csum + addend
  if res < addend then res + 1 else res

/-- Subtract in one's complement. -/
def csumSub (csum addend : UInt32) : UInt32 := csumAdd csum (~~~addend)

/-- Fold a sum to the 16-bit checksum field. -/
def csumFold (csum : UInt32) : UInt16 :=
  let sum : UInt32 := (csum &&& (0xffff : UInt32)) + (csum >>> 16)
  let sum : UInt32 := (sum &&& (0xffff : UInt32)) + (sum >>> 16)
  (~~~sum).toUInt16

/-- `csum_replace4`: the checksum field after one word of the covered data has changed. -/
def csumReplace4 (sum : UInt16) (old new : UInt32) : UInt16 :=
  csumFold (csumAdd (csumSub (~~~sum.toUInt32) old) new)

/-- Update the checksum field at an offset, as `bpf_l3_csum_replace` and, for a frame without
offload state, `bpf_l4_csum_replace` do. -/
def bpfCsumReplace (frame : List UInt8) (offset : Nat) (old new : UInt32) : List UInt8 :=
  let sum := UInt16.ofNat (leAt 2 frame offset)
  store frame offset (leBytes 2 (csumReplace4 sum old new).toNat)

/-- The 32-bit word at an offset of an address, as `__builtin_memcpy` loads it. -/
def addressWord (a : Address) (off : Nat) : UInt32 := UInt32.ofNat (leAt 4 a.toList off)

/-- A port in network byte order, as a machine word. -/
def portWord (port : UInt16) : UInt32 := UInt32.ofNat (ofLeBytes (be16Bytes port))

/-- `bpf_csum_diff` over two whole addresses. -/
def bpfCsumDiff (old new : Address) : UInt32 :=
  let removed := [0, 4, 8, 12].foldl (fun sum off => csumAdd sum (~~~addressWord old off)) 0
  [0, 4, 8, 12].foldl (fun sum off => csumAdd sum (addressWord new off)) removed

/-- Update the TCP or UDP checksum for an address and port substitution. -/
def updateL4Checksum (frame : List UInt8) (packet : PacketInfo) (oldAddress newAddress : Address)
    (oldPort newPort : UInt16) : List UInt8 :=
  let frame :=
    if packet.family = 4 then
      bpfCsumReplace frame packet.l4ChecksumOffset (addressWord oldAddress 12)
        (addressWord newAddress 12)
    else
      bpfCsumReplace frame packet.l4ChecksumOffset 0 (bpfCsumDiff oldAddress newAddress)
  bpfCsumReplace frame packet.l4ChecksumOffset (portWord oldPort) (portWord newPort)

/-! ## Rewriting -/

/-- The family of one rewrite: replace an address at `v4Offset` or `v6Offset` of the network header
and a port at `portOffset` of the transport header, and fix the checksums. -/
def rewriteEndpoint (v4Offset v6Offset portOffset : Nat) (frame : List UInt8) (packet : PacketInfo)
    (oldAddress newAddress : Address) (oldPort newPort : UInt16) : List UInt8 :=
  let frame :=
    if packet.family = 4 then
      let frame := bpfCsumReplace frame (packet.l3Offset + 10) (addressWord oldAddress 12)
        (addressWord newAddress 12)
      store frame (packet.l3Offset + v4Offset) (newAddress.toList.drop 12)
    else
      store frame (packet.l3Offset + v6Offset) newAddress.toList
  let frame := updateL4Checksum frame packet oldAddress newAddress oldPort newPort
  store frame (packet.l4Offset + portOffset) (be16Bytes newPort)

/-- Rewrite the destination of a frame toward a target. -/
def rewriteDestination (frame : List UInt8) (packet : PacketInfo) (newAddress : Address)
    (newPort : UInt16) : List UInt8 :=
  rewriteEndpoint 16 24 2 frame packet packet.destination newAddress packet.destinationPort newPort

/-- Rewrite the source of a frame to the original destination of its flow. -/
def rewriteSource (frame : List UInt8) (packet : PacketInfo) (newAddress : Address)
    (newPort : UInt16) : List UInt8 :=
  rewriteEndpoint 12 8 0 frame packet packet.source newAddress packet.sourcePort newPort

end ShadowSocketProxy.Bpf
