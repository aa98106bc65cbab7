/-
# The checks on a received packet

What the tools do with a frame between `netdev_receive` and the transport message in it, and how
`netstack_http` and `netstack_tcp` put a segment into a frame: `send_tcp_segment` and
`receive_tcp_segment` of `tools/netstack_http.c`, `send_tcp_frame` and the checks of
`wait_for_syn_ack` of `tools/netstack_tcp.c`.

`segmentFilter_eq_some_iff` says which frames carry a segment that is let through, and
`segmentFilter_tcpFrame` that a frame of one tool is let through by another one that expects it,
with any padding.
-/

import Netstack.Stack.Encapsulation
import Netstack.Tools.Reception

namespace Netstack

open Interaction
open Interaction.Program

/-! ### The source -/

/-- The checks that all tools make on a frame that is to carry an IPv4 packet from `targetIp`. -/
def packetFilter (dev : Netdev) (targetIp : Ipv4Address) (protocol : UInt8) (bytes : List UInt8) :
    Option Ipv4Packet :=
  match ethernetParse bytes with
  | .error _ => none
  | .ok ethernet =>
    if ethernet.ethertype ≠ ethernetTypeIpv4 then none
    else
      match ipv4Parse ethernet.payload with
      | .error _ => none
      | .ok ip =>
        if ip.protocol ≠ protocol then none
        else if ip.sourceIp ≠ targetIp then none
        else if ip.destinationIp ≠ dev.ipv4 then none
        else some ip

/-- The checks of `receive_tcp_segment` and those that `wait_for_syn_ack` begins with, for a segment
between these ports. -/
def segmentFilter (dev : Netdev) (targetIp : Ipv4Address) (sourcePort destinationPort : BitVec 16)
    (bytes : List UInt8) : Option TcpSegment :=
  match packetFilter dev targetIp ipv4ProtocolTcp bytes with
  | none => none
  | some ip =>
    if !tcpChecksumIpv4Valid ip.sourceIp ip.destinationIp ip.payload then none
    else
      match tcpParse ip.payload with
      | .error _ => none
      | .ok parsed =>
        if parsed.sourcePort ≠ sourcePort ∨ parsed.destinationPort ≠ destinationPort then none
        else some parsed

/-- The frame that a segment is sent in. -/
def tcpFrame (dev : Netdev) (targetIp : Ipv4Address) (nextHopMac : MacAddress)
    (identification : BitVec 16) (tcp : TcpSegment) : Option (List UInt8) :=
  match tcpSerializeIpv4 tcp dev.ipv4 targetIp ethernetMaxPayload with
  | none => none
  | some tcpBytes =>
    encapsulate nextHopMac dev.mac dev.ipv4 targetIp ipv4ProtocolTcp 64 identification tcpBytes

/-- `send_tcp_segment` and `send_tcp_frame`, which differ in the identification of the packet. -/
def sendTcp (dev : Netdev) (targetIp : Ipv4Address) (nextHopMac : MacAddress)
    (identification : BitVec 16) (tcp : TcpSegment) : Tool ℤ :=
  match tcpFrame dev targetIp nextHopMac identification tcp with
  | none => return -1
  | some frame => do
    let sent ← netdevSend dev frame
    return if sent < 0 then -1 else 0

/-! ### What is let through -/

section Filter

variable {dev : Netdev} {targetIp : Ipv4Address} {protocol : UInt8} {bytes : List UInt8}
  {sourcePort destinationPort : BitVec 16}

/-- The packet is in an IPv4 frame, and comes from `targetIp` to the device. -/
theorem packetFilter_eq_some_iff {ip : Ipv4Packet} :
    packetFilter dev targetIp protocol bytes = some ip ↔
      ∃ ethernet, ethernetParse bytes = .ok ethernet ∧ ethernet.ethertype = ethernetTypeIpv4 ∧
        ipv4Parse ethernet.payload = .ok ip ∧ ip.protocol = protocol ∧ ip.sourceIp = targetIp ∧
          ip.destinationIp = dev.ipv4 := by
  unfold packetFilter
  cases hethernet : ethernetParse bytes with
  | error code => simp
  | ok ethernet =>
      simp only [Except.ok.injEq, exists_eq_left']
      by_cases htype : ethernet.ethertype = ethernetTypeIpv4
      · rw [if_neg (not_not.2 htype)]
        cases hip : ipv4Parse ethernet.payload with
        | error code => simp
        | ok packet =>
            simp only [ne_eq, ite_not, Option.ite_none_right_eq_some, Option.some.injEq,
              Except.ok.injEq]
            constructor
            · rintro ⟨hprotocol, hsource, hdestination, rfl⟩
              exact ⟨htype, rfl, hprotocol, hsource, hdestination⟩
            · rintro ⟨-, rfl, hprotocol, hsource, hdestination⟩
              exact ⟨hprotocol, hsource, hdestination, rfl⟩
      · simp [htype]

/-- **The segments that are let through** come in a packet from `targetIp` to the device, with a
valid checksum and between the expected ports. -/
theorem segmentFilter_eq_some_iff {segment : TcpSegment} :
    segmentFilter dev targetIp sourcePort destinationPort bytes = some segment ↔
      ∃ ip, packetFilter dev targetIp ipv4ProtocolTcp bytes = some ip ∧
        tcpChecksumIpv4Valid ip.sourceIp ip.destinationIp ip.payload = true ∧
          tcpParse ip.payload = .ok segment ∧ segment.sourcePort = sourcePort ∧
            segment.destinationPort = destinationPort := by
  unfold segmentFilter
  cases hpacket : packetFilter dev targetIp ipv4ProtocolTcp bytes with
  | none => simp
  | some ip =>
      simp only [Option.some.injEq, exists_eq_left']
      cases hvalid : tcpChecksumIpv4Valid ip.sourceIp ip.destinationIp ip.payload with
      | false => simp
      | true =>
          cases hparse : tcpParse ip.payload with
          | error code => simp
          | ok parsed =>
              simp only [Bool.not_true, Bool.false_eq_true, if_false, Option.ite_none_left_eq_some,
                Option.some.injEq, not_or, ne_eq, not_not, true_and, Except.ok.injEq]
              constructor
              · rintro ⟨hports, rfl⟩
                exact ⟨rfl, hports⟩
              · rintro ⟨rfl, hports⟩
                exact ⟨hports, rfl⟩

theorem segmentFilter_nil : segmentFilter dev targetIp sourcePort destinationPort [] = none := rfl

/-- Checks that never fail to be made are a filter. -/
theorem isFilter_of_total {α : Type} {filter : List UInt8 → Option α} (hnil : filter [] = none) :
    IsFilter fun bytes => .ok (filter bytes) :=
  ⟨fun _ _ => ⟨_, rfl⟩, congrArg Except.ok hnil⟩

end Filter

/-! ### Frames between two tools -/

section Frame

variable {dev : Netdev} {targetIp : Ipv4Address} {nextHopMac : MacAddress}
  {identification : BitVec 16} {segment : TcpSegment}

/-- A segment is sent in one frame when it fits into it. -/
theorem tcpFrame_isSome_iff (hheader : segment.HasHeader) :
    (∃ frame, tcpFrame dev targetIp nextHopMac identification segment = some frame) ↔
      segment.dataOffset.toNat * 4 + segment.payload.length ≤ 1480 := by
  have hsend : tcpFrame dev targetIp nextHopMac identification segment =
      sendMessage nextHopMac dev.mac dev.ipv4 targetIp 64 identification ethernetMaxPayload
        (.tcp segment hheader) := rfl
  rw [hsend, sendMessage_isSome_iff]
  constructor
  · exact fun h => h.2
  · intro h
    exact ⟨h.trans (by decide), h⟩

/-- **A frame arrives.**  What one host sends to another is let through there, when it is expected
between these ports, up to the checksum. -/
theorem segmentFilter_tcpFrame {other : Netdev} {frame pad : List UInt8}
    (hheader : segment.HasHeader)
    (hframe : tcpFrame other dev.ipv4 nextHopMac identification segment = some frame)
    (hpad : (frame ++ pad).length ≤ 1514) :
    ∃ received, segmentFilter dev other.ipv4 segment.sourcePort segment.destinationPort
        (frame ++ pad) = some received ∧
      received = { segment with checksum := received.checksum } := by
  have hsend : sendMessage nextHopMac other.mac other.ipv4 dev.ipv4 64 identification
      ethernetMaxPayload (.tcp segment hheader) = some frame := hframe
  obtain ⟨transport, hserialize, hwrapped⟩ := sendMessage_eq_some_iff.1 hsend
  obtain ⟨ethernet, ip, hethernet, -, -, htype, hip, hsource, hdestination, hprotocol, -, -,
    hpayload⟩ := parse_encapsulate hwrapped hpad
  have hreceived := Message.receivedFrom_serialize hserialize
  obtain ⟨hvalid, parsed, hparse, hsame⟩ := hreceived
  refine ⟨parsed, segmentFilter_eq_some_iff.2 ⟨ip, packetFilter_eq_some_iff.2
    ⟨ethernet, hethernet, htype, hip, hprotocol, hsource, hdestination⟩, ?_, ?_, ?_, ?_⟩, hsame⟩
  · rw [hsource, hdestination, hpayload]
    exact hvalid
  · rw [hpayload]
    exact hparse
  · rw [hsame]
  · rw [hsame]

end Frame

/-! ### Sending -/

/-- A call that hands at most one frame to the device, and prints nothing but an error of the
system. -/
structure Host.Transmits (frame : Option (List UInt8)) (before after : Host) : Prop where
  clock : after.clock = before.clock
  receptions : after.receptions = before.receptions
  frames : after.frames = before.frames ++ frame.toList
  stdout : after.stdout = before.stdout
  stderr : before.stderr <+: after.stderr

section Send

variable {dev : Netdev} {targetIp : Ipv4Address} {nextHopMac : MacAddress}
  {identification : BitVec 16} {segment : TcpSegment} {host : Host}

/-- **`netdev_send`** hands the frame to the device, whatever comes of it. -/
theorem netdevSend_spec (hopen : 0 ≤ dev.fd) {frame : List UInt8} (hframe : frame ≠ []) :
    wp (netdevSend dev frame)
      (fun sent after => host.Transmits (some frame) after ∧
        (0 ≤ sent → after.stderr = host.stderr))
      (fun e after => e = .waiting ∧ after = host) host := by
  have hvalid : ¬(dev.fd < 0 ∨ frame.length = 0) := by
    rw [List.length_eq_zero_iff]
    exact not_or.2 ⟨not_lt.2 hopen, hframe⟩
  unfold netdevSend
  rw [wp_ite, if_neg hvalid, wp_bind]
  refine wp_send (fun error sends hsends => ?_) fun _ => ⟨rfl, rfl⟩
  cases error with
  | none => exact ⟨⟨rfl, rfl, rfl, rfl, List.prefix_rfl⟩, fun _ => rfl⟩
  | some error =>
      exact ⟨⟨rfl, rfl, rfl, rfl, List.prefix_append ..⟩, fun h => absurd h (by decide)⟩

/-- A frame is not empty. -/
theorem tcpFrame_ne_nil {frame : List UInt8}
    (h : tcpFrame dev targetIp nextHopMac identification segment = some frame) : frame ≠ [] := by
  unfold tcpFrame at h
  split at h
  · cases h
  · exact List.ne_nil_of_length_pos (by rw [length_encapsulate h]; omega)

/-- **`send_tcp_segment`** hands the frame of the segment to the device, if it has one. -/
theorem sendTcp_spec (hopen : 0 ≤ dev.fd) :
    wp (sendTcp dev targetIp nextHopMac identification segment)
      (fun sent after =>
        host.Transmits (tcpFrame dev targetIp nextHopMac identification segment) after ∧
          (sent = 0 → after.stderr = host.stderr ∧
            ∃ frame, tcpFrame dev targetIp nextHopMac identification segment = some frame))
      (fun e after => e = .waiting ∧ after = host) host := by
  unfold sendTcp
  cases hframe : tcpFrame dev targetIp nextHopMac identification segment with
  | none =>
      exact ⟨⟨rfl, rfl, (List.append_nil _).symm, rfl, List.prefix_rfl⟩,
        fun h => absurd h (by decide)⟩
  | some frame =>
      rw [wp_bind]
      refine wp_mono (netdevSend_spec hopen (tcpFrame_ne_nil hframe)) (fun sent after hsent => ?_) fun _ _ h => h
      refine ⟨hsent.1, fun hzero => ⟨hsent.2 ?_, frame, rfl⟩⟩
      by_contra hfailed
      rw [if_pos (not_le.1 hfailed)] at hzero
      exact absurd hzero (by decide)

end Send

/-! ### Asking and waiting -/

/-- Between two moments of a run the frames `sent` were handed to the device, and `taken` was taken
of what passes the filter. -/
structure Host.Talks {α : Type} (filter : List UInt8 → Checked (Option α)) (before after : Host)
    (sent : List (List UInt8)) (taken : List α) : Prop where
  clock : after.clock <:+ before.clock
  frames : after.frames = before.frames ++ sent
  incoming_eq : incoming filter before.receptions = taken ++ incoming filter after.receptions
  stdout : before.stdout <+: after.stdout
  stderr : before.stderr <+: after.stderr

section Talks

variable {α : Type} {filter : List UInt8 → Checked (Option α)} {host before after last : Host}
  {sent sent' : List (List UInt8)} {taken taken' : List α} {endsOnError : Bool} {wait : Wait α}

theorem Host.Talks.refl (host : Host) : host.Talks filter host [] [] :=
  ⟨List.suffix_rfl, (List.append_nil _).symm, rfl, List.prefix_rfl, List.prefix_rfl⟩

/-- Two parts of a conversation, one after the other. -/
theorem Host.Talks.trans (h : before.Talks filter after sent taken)
    (h' : after.Talks filter last sent' taken') :
    before.Talks filter last (sent ++ sent') (taken ++ taken') := by
  refine ⟨h'.clock.trans h.clock, ?_, ?_, h.stdout.trans h'.stdout, h.stderr.trans h'.stderr⟩
  · rw [h'.frames, h.frames, List.append_assoc]
  · rw [h.incoming_eq, h'.incoming_eq, List.append_assoc]

/-- A call that neither sends nor receives. -/
theorem Host.Talks.local (h : before.Talks filter after sent taken)
    (h' : after.Talks filter last [] []) : before.Talks filter last sent taken := by
  have hall := h.trans h'
  rwa [List.append_nil, List.append_nil] at hall

theorem talks_stdout (stdout : List Printed) :
    host.Talks filter { host with stdout := host.stdout ++ stdout } [] [] :=
  ⟨List.suffix_rfl, (List.append_nil _).symm, rfl, List.prefix_append .., List.prefix_rfl⟩

theorem talks_stderr (stderr : List Printed) :
    host.Talks filter { host with stderr := host.stderr ++ stderr } [] [] :=
  ⟨List.suffix_rfl, (List.append_nil _).symm, rfl, List.prefix_rfl, List.prefix_append ..⟩

theorem talks_clock {clock : List (Option Timespec)} {reading : Option Timespec}
    (h : host.clock = reading :: clock) : host.Talks filter { host with clock } [] [] :=
  ⟨h ▸ List.suffix_cons .., (List.append_nil _).symm, rfl, List.prefix_rfl, List.prefix_rfl⟩

theorem Host.Transmits.talks {frame : Option (List UInt8)} (h : before.Transmits frame after) :
    before.Talks filter after frame.toList [] :=
  ⟨h.clock ▸ List.suffix_rfl, h.frames, h.receptions ▸ rfl, h.stdout ▸ List.prefix_rfl, h.stderr⟩

theorem Awaited.talks (h : Awaited filter endsOnError before after wait) :
    before.Talks filter after [] wait.taken :=
  ⟨h.listens.clock, h.listens.frames.trans (List.append_nil _).symm, h.incoming_eq,
    h.listens.stdout ▸ List.prefix_rfl, h.listens.stderr⟩

theorem AwaitStopped.talks (h : AwaitStopped filter before after) :
    before.Talks filter after [] [] :=
  ⟨h.listens.clock, h.listens.frames.trans (List.append_nil _).symm, h.incoming_eq,
    h.listens.stdout ▸ List.prefix_rfl, h.listens.stderr⟩

end Talks

end Netstack
