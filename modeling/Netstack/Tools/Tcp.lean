/-
# `netstack_tcp`

`generate_isn`, `send_tcp_frame`, `wait_for_syn_ack` and `perform_handshake` of
`tools/netstack_tcp.c`.  The tool opens a connection without `tcp_connection.c`: it builds its
segments itself, waits for the SYN-ACK once and sends nothing again.

It is still the handshake of `tcp_connection.c`.  `synAckFilter_iff` says that a segment ends its
wait exactly if a connection that has sent the SYN would leave SYN-SENT for it, and
`performHandshake_agrees` that its SYN and its acknowledgment are the ones of that connection.
-/

import Netstack.Tools.Connect
import Netstack.Tools.Query

namespace Netstack
namespace TcpTool

open Interaction
open Interaction.Program

/-! ### The source -/

/-- `TCP_SOURCE_PORT` -/
def tcpSourcePort : BitVec 16 := 40000

/-- `TCP_WINDOW_SIZE` -/
def tcpWindowSize : BitVec 16 := 64240

/-- `generate_isn`.  A reading is mixed as in `netstack_http`, but the number for a clock that fails
is another one. -/
def generateIsn : Tool (BitVec 32) := do
  match ← clockGettime with
  | none => return 0x12345678#32
  | some now => return HttpTool.mixIsn now

/-- What `wait_for_syn_ack` does with a frame up to the last `continue`.  An RST is let through as
well: it ends the wait. -/
def synAckFilter (dev : Netdev) (targetIp : Ipv4Address) (targetPort : BitVec 16)
    (clientIsn : BitVec 32) (bytes : List UInt8) : Option TcpSegment :=
  match segmentFilter dev targetIp targetPort tcpSourcePort bytes with
  | none => none
  | some tcp =>
    if tcp.hasFlag tcpFlagRst then some tcp
    else if tcp.flags &&& (tcpFlagSyn ||| tcpFlagAck) ≠ tcpFlagSyn ||| tcpFlagAck then none
    else if tcp.acknowledgmentNumber ≠ clientIsn + 1 then none
    else some tcp

/-- A connection that has sent the SYN of the tool. -/
def waiting (targetPort : BitVec 16) (clientIsn : BitVec 32) : TcpConnection :=
  tcpWaiting tcpSourcePort targetPort clientIsn tcpWindowSize

/-- The SYN-ACK completes the handshake of that connection. -/
def Accepts (targetPort : BitVec 16) (clientIsn : BitVec 32) (synAck : TcpSegment) : Prop :=
  (tcpConnectionOnSegment (waiting targetPort clientIsn) synAck).1 = 1

section Agreement

variable {dev : Netdev} {targetIp : Ipv4Address} {targetPort : BitVec 16} {clientIsn : BitVec 32}
  {bytes : List UInt8} {segment synAck : TcpSegment}

/-- The ports, the state and the next number of the connection that waits. -/
theorem waiting_fields (targetPort : BitVec 16) (clientIsn : BitVec 32) :
    (waiting targetPort clientIsn).localPort = tcpSourcePort ∧
      (waiting targetPort clientIsn).remotePort = targetPort ∧
      (waiting targetPort clientIsn).sendNext = clientIsn + 1 ∧
      (waiting targetPort clientIsn).state = .synSent := by
  obtain ⟨syn, hbuilt, -⟩ := tcpWaiting_cases tcpSourcePort targetPort clientIsn tcpWindowSize
  have hnew : (tcpConnectionInit tcpSourcePort targetPort clientIsn).state = .closed := rfl
  unfold waiting tcpWaiting tcpConnectionBuildSyn
  rw [if_neg (not_not.2 hnew)]
  exact hbuilt ▸ ⟨rfl, rfl, rfl, rfl⟩

/-- **What a segment of the server does to the connection that waits**: an RST resets it, the
SYN-ACK for its SYN opens it, and for any other it stays in SYN-SENT. -/
theorem waiting_cases (clientIsn : BitVec 32) (hsource : segment.sourcePort = targetPort)
    (hdestination : segment.destinationPort = tcpSourcePort) :
    (segment.hasFlag tcpFlagRst = true ∧
        (tcpConnectionOnSegment (waiting targetPort clientIsn) segment).1 = 0 ∧
        (tcpConnectionOnSegment (waiting targetPort clientIsn) segment).2.state = .reset) ∨
      ((segment.hasFlag tcpFlagRst = false ∧ segment.isSynAck = true ∧
          segment.acknowledgmentNumber = clientIsn + 1) ∧
        tcpConnectionOnSegment (waiting targetPort clientIsn) segment =
          (1, ((waiting targetPort clientIsn).afterAck segment).opened segment)) ∨
      ((segment.hasFlag tcpFlagRst = false ∧
          ¬(segment.isSynAck = true ∧ segment.acknowledgmentNumber = clientIsn + 1)) ∧
        (tcpConnectionOnSegment (waiting targetPort clientIsn) segment).1 ≤ 0 ∧
        (tcpConnectionOnSegment (waiting targetPort clientIsn) segment).2.state = .synSent) := by
  obtain ⟨hlocal, hremote, hnext, hstate⟩ := waiting_fields targetPort clientIsn
  have hclosing := (TcpWorld.closing_init tcpSourcePort targetPort clientIsn).step
    (.buildSyn tcpWindowSize)
  have hports : (waiting targetPort clientIsn).addressedBy segment = true := by
    rw [TcpConnection.addressedBy, hlocal, hremote, hsource, hdestination]
    exact Bool.and_eq_true_iff.2 ⟨beq_self_eq_true _, beq_self_eq_true _⟩
  have hcall : OnSegment segment (waiting targetPort clientIsn) _ _ _ :=
    onSegment_spec segment hclosing.bounded
  have hstays : ((waiting targetPort clientIsn).afterAck segment).state = .synSent := by
    rw [TcpConnection.afterAck_state, hstate]
  rcases hout : tcpConnectionOnSegment (waiting targetPort clientIsn) segment with ⟨result, last⟩
  rw [hout] at hcall
  generalize onSegmentFins (waiting targetPort clientIsn) segment = n at hcall
  dsimp only at hcall ⊢
  cases hcall with
  | misaddressed ports => exact absurd (ports.symm.trans hports) Bool.false_ne_true
  | aborted _ rst => exact Or.inl ⟨rst, rfl, rfl⟩
  | unanswered _ rst _ synAck =>
      exact Or.inr (Or.inr ⟨⟨rst, fun h => absurd (synAck.symm.trans h.1) Bool.false_ne_true⟩,
        le_rfl, hstays⟩)
  | mismatched _ rst _ _ number =>
      exact Or.inr (Or.inr ⟨⟨rst, fun h => number (h.2.trans hnext.symm)⟩, by decide, hstays⟩)
  | opened _ rst _ synAck number =>
      exact Or.inr (Or.inl ⟨⟨rst, synAck, number.trans hnext⟩, rfl⟩)
  | ignored _ _ state => exact absurd hstate state
  | refused _ _ receives | received _ _ receives =>
      exact absurd hstate (TcpConnectionState.ne_synSent_of_receives receives)

/-- What is let through: an RST, or the SYN-ACK for the SYN. -/
theorem synAckFilter_eq_some_iff :
    synAckFilter dev targetIp targetPort clientIsn bytes = some segment ↔
      segmentFilter dev targetIp targetPort tcpSourcePort bytes = some segment ∧
        (segment.hasFlag tcpFlagRst = true ∨
          segment.isSynAck = true ∧ segment.acknowledgmentNumber = clientIsn + 1) := by
  unfold synAckFilter
  cases segmentFilter dev targetIp targetPort tcpSourcePort bytes with
  | none => exact iff_of_false (by simp) (by simp)
  | some tcp =>
      dsimp only
      constructor
      · intro h
        split_ifs at h with hrst hflags hnumber
        · exact ⟨h, Or.inl (Option.some.inj h ▸ hrst)⟩
        · obtain rfl := Option.some.inj h
          exact ⟨rfl, Or.inr ⟨beq_iff_eq.2 (not_not.1 hflags), not_not.1 hnumber⟩⟩
      · rintro ⟨heq, hrst | ⟨hsynAck, hnumber⟩⟩
        · obtain rfl := Option.some.inj heq
          rw [if_pos hrst]
        · obtain rfl := Option.some.inj heq
          rw [if_neg (not_not.2 (beq_iff_eq.1 hsynAck)), if_neg (not_not.2 hnumber), ite_self]

/-- **A segment ends the wait** exactly if a connection that has sent the SYN would leave SYN-SENT
for it. -/
theorem synAckFilter_iff : synAckFilter dev targetIp targetPort clientIsn bytes = some segment ↔
    segmentFilter dev targetIp targetPort tcpSourcePort bytes = some segment ∧
      (tcpConnectionOnSegment (waiting targetPort clientIsn) segment).2.state ≠ .synSent := by
  rw [synAckFilter_eq_some_iff]
  refine and_congr_right fun hsegment => ?_
  obtain ⟨-, -, -, -, hsource, hdestination⟩ := segmentFilter_eq_some_iff.1 hsegment
  rcases waiting_cases clientIsn hsource hdestination with
    ⟨hrst, -, hstate⟩ | ⟨⟨-, hsynAck⟩, heq⟩ | ⟨⟨hrst, hother⟩, -, hstate⟩
  · exact iff_of_true (Or.inl hrst) (by rw [hstate]; decide)
  · exact iff_of_true (Or.inr hsynAck) (by rw [heq]; exact TcpConnectionState.noConfusion)
  · refine iff_of_false ?_ (not_not.2 hstate)
    rintro (h | h)
    · exact Bool.false_ne_true (hrst.symm.trans h)
    · exact hother h

end Agreement

/-! ### The run -/

/-- The frames that segments are sent in. -/
def wireFrames (dev : Netdev) (targetIp : Ipv4Address) (nextHopMac : MacAddress)
    (segments : List TcpSegment) : List (List UInt8) :=
  segments.filterMap (tcpFrame dev targetIp nextHopMac 0x5443#16)

/-- What `generate_isn` makes of the first reading of the clock. -/
def isnOf (host : Host) : BitVec 32 :=
  match host.clock with
  | some now :: _ => HttpTool.mixIsn now
  | _ => 0x12345678#32

/-- What ends the wait, in the order in which it arrives. -/
def answers (dev : Netdev) (targetIp : Ipv4Address) (targetPort : BitVec 16)
    (clientIsn : BitVec 32) (receptions : List Reception) : List TcpSegment :=
  incoming (fun bytes => .ok (synAckFilter dev targetIp targetPort clientIsn bytes)) receptions

section Run

variable {dev : Netdev} {targetIp : Ipv4Address} {targetPort : BitVec 16}
  {nextHopMac : MacAddress} {clientIsn : BitVec 32} {host before after : Host}
  {segment synAck : TcpSegment} {segments : List TcpSegment} {bytes : List UInt8}

/-- The segment was built for the server, without a payload. -/
def IsBuilt (targetPort : BitVec 16) (segment : TcpSegment) : Prop :=
  ∃ seq ack flags window,
    tcpBuild tcpSourcePort targetPort seq ack flags window [] = some segment

/-- It goes to the server, in one frame. -/
theorem IsBuilt.goes (h : IsBuilt targetPort segment) :
    segment.Goes tcpSourcePort targetPort ∧
      ∃ frame, tcpFrame dev targetIp nextHopMac 0x5443#16 segment = some frame := by
  obtain ⟨seq, ack, flags, window, hbuilt⟩ := h
  obtain ⟨hsource, hdestination, -, -, -, -, hpayload⟩ := tcpBuild_eq_some hbuilt
  obtain ⟨hoffset, hoptions⟩ := tcpBuild_header hbuilt
  have hgoes : segment.Goes tcpSourcePort targetPort := ⟨hsource, hdestination, hoffset, hoptions⟩
  refine ⟨hgoes, ?_⟩
  rw [tcpFrame_isSome_iff hgoes.hasHeader, hoffset, hpayload]
  decide

variable (dev targetIp targetPort nextHopMac clientIsn) in
/-- Between two moments of a run `segments` were sent, and `taken` ended the wait. -/
def Exchanges (before after : Host) (segments taken : List TcpSegment) : Prop :=
  before.Talks (fun bytes => .ok (synAckFilter dev targetIp targetPort clientIsn bytes)) after
    (wireFrames dev targetIp nextHopMac segments) taken

variable (dev targetIp targetPort nextHopMac clientIsn) in
/-- The initial sequence number is made from one reading of the clock. -/
theorem generateIsn_spec (host : Host) :
    wp generateIsn
      (fun isn after => isn = isnOf host ∧
        Exchanges dev targetIp targetPort nextHopMac clientIsn host after [] [])
      (fun e after => e = .waiting ∧ after = host) host := by
  unfold generateIsn
  rw [wp_bind]
  refine wp_clockGettime (fun reading clock hclock => ?_) fun _ => ⟨rfl, rfl⟩
  cases reading with
  | none => exact ⟨by rw [isnOf, hclock], talks_clock hclock⟩
  | some now => exact ⟨by rw [isnOf, hclock], talks_clock hclock⟩

end Run

end TcpTool
end Netstack
