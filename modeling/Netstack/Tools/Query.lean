/-
# One question, one answer

`send_ping` of `tools/netstack_ping.c` and `send_dns_query` of `tools/netstack_dns.c`, and
`dns_response_code_name` of `src/dns.c`.  Both functions send one frame, wait for the frame that
answers it and print what it brings (`roundTrip`).

The times that they print are whole nanoseconds here, where the source has `%.2f` of milliseconds.
-/

import Netstack.Dns.Query
import Netstack.Tools.Arp

namespace Netstack

open Interaction
open Interaction.Program

/-! ### The source -/

/-- `%.2f` of `elapsed_ms(&start, &end)` -/
def printedElapsed (start stop : Timespec) : Printed :=
  .number ((stop.tvSec - start.tvSec) * 1000000000 + (stop.tvNsec - start.tvNsec))

/-- From the first `clock_gettime` of `send_ping` and `send_dns_query` to the last: what passed the
checks, and the two readings. -/
def roundTrip {α : Type} (dev : Netdev) (frame : List UInt8) (asked : List Printed) (limitMs : ℤ)
    (expired : String) (filter : List UInt8 → Checked (Option α)) :
    Tool (Option (α × Timespec × Timespec)) := do
  match ← clockGettime with
  | none => return none
  | some start =>
    let sent ← netdevSend dev frame
    if sent < 0 then return none
    else do
      printf asked
      match ← awaitFrame dev false start limitMs filter with
      | .failed => return none
      | .expired =>
        eprintf [.text expired]
        return none
      | .got a =>
        match ← clockGettime with
        | none => return none
        | some stop => return some (a, start, stop)

namespace PingTool

/-- `ICMP_TIMEOUT_MS` -/
def icmpTimeoutMs : ℤ := 5000

/-- `"BLACKTERM // NETSTACK"` -/
def pingPayload : List UInt8 :=
  [66, 76, 65, 67, 75, 84, 69, 82, 77, 32, 47, 47, 32, 78, 69, 84, 83, 84, 65, 67, 75]

/-- `identifier` -/
def pingIdentifier : BitVec 16 := 0x4242#16

/-- `sequence` -/
def pingSequence : BitVec 16 := 1#16

/-- What is done with a frame up to the last `continue`. -/
def pingFilter (dev : Netdev) (targetIp : Ipv4Address) (bytes : List UInt8) :
    Option (Ipv4Packet × IcmpPacket) :=
  match packetFilter dev targetIp ipv4ProtocolIcmp bytes with
  | none => none
  | some ip =>
    match icmpParse ip.payload with
    | .error _ => none
    | .ok icmp =>
      if icmp.type ≠ icmpTypeEchoReply then none
      else if icmp.identifier ≠ pingIdentifier ∨ icmp.sequence ≠ pingSequence then none
      else some (ip, icmp)

/-- The frame of the request. -/
def pingFrame (dev : Netdev) (targetIp : Ipv4Address) (nextHopMac : MacAddress) :
    Option (List UInt8) :=
  match icmpBuildEchoRequest pingIdentifier pingSequence pingPayload with
  | none => none
  | some icmp =>
    match icmpSerialize icmp icmpMaxPacketLen with
    | none => none
    | some icmpBytes =>
      encapsulate nextHopMac dev.mac dev.ipv4 targetIp ipv4ProtocolIcmp 64 0x1337#16 icmpBytes

/-- What is printed about the reply. -/
def printedReply (targetIp : Ipv4Address) (ip : Ipv4Packet) (icmp : IcmpPacket)
    (start stop : Timespec) : List Printed :=
  [.text "ICMP echo reply from "] ++ printedIpv4 targetIp ++
    [.text " ttl=", .number ip.ttl.toNat, .text " seq=", .number icmp.sequence.toNat, .text " time=",
      printedElapsed start stop, .text " ms\n"]

/-- `send_ping` -/
def sendPing (dev : Netdev) (targetIp : Ipv4Address) (nextHopMac : MacAddress) : Tool ℤ :=
  match pingFrame dev targetIp nextHopMac with
  | none => return -1
  | some frame => do
    match ← roundTrip dev frame [.text "ICMP echo request id=0x4242 seq=", .number
        pingSequence.toNat, .text "\n"] icmpTimeoutMs "ICMP request timed out.\n"
        (fun bytes => .ok (pingFilter dev targetIp bytes)) with
    | none => return -1
    | some ((ip, icmp), start, stop) =>
      printf (printedReply targetIp ip icmp start stop)
      return 0

end PingTool

namespace DnsTool

/-- `DNS_DESTINATION_PORT` -/
def dnsDestinationPort : BitVec 16 := 53

/-- `DNS_SOURCE_PORT` -/
def dnsSourcePort : BitVec 16 := 53000

end DnsTool

/-! ### Asking once -/

section RoundTrip

variable {α : Type} {dev : Netdev} {frame bytes : List UInt8} {asked : List Printed}
  {limitMs promptMs : ℤ} {expired : String} {filter : List UInt8 → Checked (Option α)} {a : α}
  {host : Host} {rest : List Reception} {spare sends : ℕ}

/-- What has happened when `roundTrip` returns: what came is the first frame that passes the
checks. -/
def RoundTripReturns (filter : List UInt8 → Checked (Option α)) (frame : List UInt8)
    (asked : List Printed) (host : Host) : Option (α × Timespec × Timespec) → Host → Prop
  | none, after => ∃ sent taken, sent <+: [frame] ∧ host.Talks filter after sent taken
  | some (a, _, _), after => host.Talks filter after [frame] [a] ∧
    after.stdout = host.stdout ++ asked

/-- **Asking once**, whatever the host answers. The steps are those of the source: a reading of
the clock, the frame, what is printed, the wait, and another reading. Each of them can fail, and
then at most the one frame was sent; when all succeed, what came is the first frame that passes
the checks. `awaitFrame_spec` speaks of the wait. -/
theorem roundTrip_spec (hfilter : IsFilter filter) (hopen : 0 ≤ dev.fd) (hframe : frame ≠ [])
    (host : Host) :
    wp (roundTrip dev frame asked limitMs expired filter) (RoundTripReturns filter frame asked host)
      (fun e after => e = .waiting ∧
        ∃ sent taken, sent <+: [frame] ∧ host.Talks filter after sent taken) host := by
  unfold roundTrip
  rw [wp_bind]
  refine wp_clockGettime (fun reading clock hclock => ?_) fun _ =>
    ⟨rfl, [], [], List.nil_prefix, .refl host⟩
  have hstarted : host.Talks filter { host with clock } [] [] := talks_clock hclock
  cases reading with
  | none => exact ⟨[], [], List.nil_prefix, hstarted⟩
  | some start =>
      dsimp only
      rw [wp_bind]
      refine wp_mono (netdevSend_spec hopen hframe) (fun sent asking hsent => ?_) fun e after hstop => ?_
      swap
      · obtain ⟨rfl, rfl⟩ := hstop
        exact ⟨rfl, [], [], List.nil_prefix, hstarted⟩
      have hasking : host.Talks filter asking [frame] [] := hstarted.trans hsent.1.talks
      rw [wp_ite]
      split_ifs
      · exact ⟨_, [], List.prefix_rfl, hasking⟩
      rw [wp_bind, wp_printf, wp_bind]
      have hasked := hasking.local (talks_stdout asked)
      refine wp_mono (awaitFrame_spec hfilter dev false start limitMs _)
        (fun wait after hawaited => ?_) fun e after hstop => ?_
      · have hall : host.Talks filter after [frame] wait.taken := hasked.trans hawaited.talks
        cases wait with
        | failed => exact ⟨_, _, List.prefix_rfl, hall⟩
        | expired =>
            dsimp only
            rw [wp_bind, wp_eprintf]
            exact ⟨_, _, List.prefix_rfl, hall.local (talks_stderr _)⟩
        | got a =>
            dsimp only
            rw [wp_bind]
            refine wp_clockGettime (fun reading clock hclock => ?_) fun _ =>
              ⟨rfl, _, _, List.prefix_rfl, hall⟩
            have hlast := hall.local (talks_clock hclock)
            cases reading with
            | none => exact ⟨_, _, List.prefix_rfl, hlast⟩
            | some stop =>
                refine ⟨hlast, ?_⟩
                show after.stdout = host.stdout ++ asked
                rw [hawaited.listens.stdout, hsent.1.stdout]
      · obtain ⟨rfl, hstopped⟩ := hstop
        exact ⟨rfl, _, _, List.prefix_rfl, hasked.trans hstopped.talks⟩

/-- **An answer that comes in time** is what `roundTrip` returns. -/
theorem Host.Prompt.roundTrip (hfilter : IsFilter filter) (hopen : 0 ≤ dev.fd) (hframe : frame ≠ [])
    (h : host.Prompt promptMs (spare + 2) (sends + 1)) (hlimit : promptMs ≤ limitMs)
    (hdelivers : Delivers filter false bytes rest host.receptions)
    (hbytes : passed filter (bytes.take receiveBufferSize) = some a) :
    wp (Netstack.roundTrip dev frame asked limitMs expired filter)
      (fun result after => (∃ start stop, result = some (a, start, stop)) ∧
        after.receptions = rest ∧ after.frames = host.frames ++ [frame] ∧
        after.stdout = host.stdout ++ asked ∧ after.Prompt promptMs spare sends)
      (fun _ _ => False) host := by
  unfold Netstack.roundTrip
  rw [wp_bind]
  refine h.clockGettime fun start clock hclock hstarted hwithin => ?_
  dsimp only
  rw [wp_bind]
  refine hstarted.netdevSend hopen hframe fun left hsent => ?_
  rw [wp_ite, if_neg (by omega), wp_bind, wp_printf, wp_bind]
  have hstart : ∀ now, some now ∈ clock → elapsedExceeds start now limitMs = false :=
    fun now hnow => elapsedExceeds_mono hlimit (hwithin now hnow)
  refine wp_mono ((hsent.printed _).awaitFrame hfilter hopen hstart hdelivers hbytes)
    (fun wait after hwait => ?_) fun _ _ h => h
  obtain ⟨rfl, hrest, hlater, hlistens⟩ := hwait
  dsimp only
  rw [wp_bind]
  refine hlater.clockGettime fun stop clock hclock hstopped _ => ?_
  exact ⟨⟨start, stop, rfl⟩, hrest, hlistens.frames, hlistens.stdout, hstopped⟩

end RoundTrip

/-! ### Echo -/

namespace PingTool

/-- The request. -/
def pingRequest : IcmpPacket where
  type := icmpTypeEchoRequest
  code := icmpCodeEcho
  checksum := 0
  identifier := pingIdentifier
  sequence := pingSequence
  payload := pingPayload
  payload_le := by decide

/-- Its answer. -/
def pingReply : IcmpPacket := { pingRequest with type := icmpTypeEchoReply }

theorem pingRequest_isEcho : pingRequest.IsEcho := ⟨Or.inl rfl, rfl⟩

theorem pingReply_isEcho : pingReply.IsEcho := ⟨Or.inr rfl, rfl⟩

section Echo

variable {dev target : Netdev} {targetIp : Ipv4Address} {nextHopMac : MacAddress}
  {bytes frame pad : List UInt8}

theorem isFilter_pingFilter (dev : Netdev) (targetIp : Ipv4Address) :
    IsFilter fun bytes => .ok (pingFilter dev targetIp bytes) :=
  isFilter_of_total rfl

/-- **The replies that are taken** come from the target to the device, with the identifier and the
sequence number of the request. -/
theorem pingFilter_eq_some_iff {ip : Ipv4Packet} {icmp : IcmpPacket} :
    pingFilter dev targetIp bytes = some (ip, icmp) ↔
      packetFilter dev targetIp ipv4ProtocolIcmp bytes = some ip ∧
        icmpParse ip.payload = .ok icmp ∧ icmp.type = icmpTypeEchoReply ∧
          icmp.identifier = pingIdentifier ∧ icmp.sequence = pingSequence := by
  unfold pingFilter
  cases hpacket : packetFilter dev targetIp ipv4ProtocolIcmp bytes with
  | none => simp
  | some packet =>
      dsimp only
      cases hparse : icmpParse packet.payload with
      | error code =>
          refine iff_of_false (by simp) ?_
          rintro ⟨hip, hicmp, -⟩
          obtain rfl := Option.some.inj hip
          rw [hparse] at hicmp
          cases hicmp
      | ok parsed =>
          dsimp only
          constructor
          · intro h
            split_ifs at h with htype hmatch
            obtain ⟨rfl, rfl⟩ := Prod.mk.inj (Option.some.inj h)
            obtain ⟨hidentifier, hsequence⟩ := not_or.1 hmatch
            exact ⟨rfl, hparse, not_not.1 htype, not_not.1 hidentifier, not_not.1 hsequence⟩
          · rintro ⟨hip, hicmp, htype, hidentifier, hsequence⟩
            obtain rfl := Option.some.inj hip
            obtain rfl := Except.ok.inj (hparse.symm.trans hicmp)
            rw [if_neg (not_not.2 htype),
              if_neg (not_or.2 ⟨not_not.2 hidentifier, not_not.2 hsequence⟩)]

/-- The frame of the request is a message of the stack, so that what holds of these, the round
trip above all, holds of it. -/
theorem pingFrame_eq : pingFrame dev targetIp nextHopMac =
    sendMessage nextHopMac dev.mac dev.ipv4 targetIp 64 0x1337#16 icmpMaxPacketLen
      (.icmp pingRequest pingRequest_isEcho) := by
  have hbuild : icmpBuildEchoRequest pingIdentifier pingSequence pingPayload = some pingRequest :=
    rfl
  unfold pingFrame
  rw [hbuild]
  rfl

/-- There is a frame for the request. -/
theorem exists_pingFrame (dev : Netdev) (targetIp : Ipv4Address) (nextHopMac : MacAddress) :
    ∃ frame, pingFrame dev targetIp nextHopMac = some frame := by
  rw [pingFrame_eq, sendMessage_isSome_iff]
  decide

theorem pingFrame_ne_nil (h : pingFrame dev targetIp nextHopMac = some frame) : frame ≠ [] := by
  rw [pingFrame_eq] at h
  exact List.ne_nil_of_length_pos (by rw [length_sendMessage h]; omega)

/-- What a host answers to an echo request, as `icmp_build_echo_reply` has it; `destination` is its
next hop. -/
def echoAnswer (target : Netdev) (destination : MacAddress) (ttl : UInt8)
    (identification : BitVec 16) (bytes : List UInt8) : Option (List UInt8) :=
  match ethernetParse bytes with
  | .error _ => none
  | .ok ethernet =>
    if ethernet.ethertype ≠ ethernetTypeIpv4 then none
    else
      match ipv4Parse ethernet.payload with
      | .error _ => none
      | .ok ip =>
        if ip.protocol ≠ ipv4ProtocolIcmp ∨ ip.destinationIp ≠ target.ipv4 then none
        else
          match icmpParse ip.payload with
          | .error _ => none
          | .ok icmp =>
            if icmp.type ≠ icmpTypeEchoRequest then none
            else
              match icmpBuildEchoReply icmp.identifier icmp.sequence icmp.payload with
              | none => none
              | some reply =>
                match icmpSerialize reply icmpMaxPacketLen with
                | none => none
                | some replyBytes =>
                  encapsulate destination target.mac target.ipv4 ip.sourceIp ipv4ProtocolIcmp ttl
                    identification replyBytes

/-- The frame of an answer, from the last hop on its way. -/
def echoAnswerFrame (target dev : Netdev) (destination source : MacAddress) (ttl : UInt8)
    (identification : BitVec 16) : Option (List UInt8) :=
  sendMessage destination source target.ipv4 dev.ipv4 ttl identification icmpMaxPacketLen
    (.icmp pingReply pingReply_isEcho)

/-- The target understands the request. -/
theorem echoAnswer_request {destination : MacAddress} {ttl : UInt8} {identification : BitVec 16}
    (hframe : pingFrame dev target.ipv4 nextHopMac = some frame)
    (hpad : (frame ++ pad).length ≤ 1514) :
    echoAnswer target destination ttl identification (frame ++ pad) =
      echoAnswerFrame target dev destination target.mac ttl identification := by
  rw [pingFrame_eq] at hframe
  obtain ⟨transport, hserialize, hwrapped⟩ := sendMessage_eq_some_iff.1 hframe
  obtain ⟨ethernet, ip, hethernet, -, -, htype, hip, hsource, hdestination, hprotocol, -, -,
    hpayload⟩ := parse_encapsulate hwrapped hpad
  obtain ⟨parsed, hparse, hsame⟩ := Message.receivedFrom_serialize hserialize
  have hwanted : ¬(ip.protocol ≠ ipv4ProtocolIcmp ∨ ip.destinationIp ≠ target.ipv4) :=
    not_or.2 ⟨not_not.2 hprotocol, not_not.2 hdestination⟩
  have hrequest : ¬parsed.type ≠ icmpTypeEchoRequest := by
    rw [hsame]
    exact not_not.2 rfl
  have hreply : icmpBuildEchoReply parsed.identifier parsed.sequence parsed.payload =
      some pingReply := by
    rw [hsame]
    rfl
  unfold echoAnswer
  rw [hethernet]
  dsimp only
  rw [if_neg (not_not.2 htype), hip]
  dsimp only
  rw [if_neg hwanted, hpayload, hparse]
  dsimp only
  rw [if_neg hrequest, hreply]
  dsimp only
  rw [hsource]
  rfl

/-- Its answer passes the checks, whatever route it takes. -/
theorem pingFilter_answer {destination source : MacAddress} {ttl : UInt8}
    {identification : BitVec 16}
    (hframe : echoAnswerFrame target dev destination source ttl identification = some frame)
    (hpad : (frame ++ pad).length ≤ 1514) :
    ∃ ip icmp, pingFilter dev target.ipv4 (frame ++ pad) = some (ip, icmp) ∧ ip.ttl = ttl ∧
      icmp.payload = pingPayload := by
  obtain ⟨transport, hserialize, hwrapped⟩ := sendMessage_eq_some_iff.1 hframe
  obtain ⟨ethernet, ip, hethernet, -, -, htype, hip, hsource, hdestination, hprotocol, httl, -,
    hpayload⟩ := parse_encapsulate hwrapped hpad
  obtain ⟨parsed, hparse, hsame⟩ := Message.receivedFrom_serialize hserialize
  refine ⟨ip, parsed, pingFilter_eq_some_iff.2 ⟨packetFilter_eq_some_iff.2 ⟨ethernet, hethernet,
    htype, hip, hprotocol, hsource, hdestination⟩, by rw [hpayload]; exact hparse, ?_, ?_, ?_⟩,
    httl, ?_⟩ <;> rw [hsame] <;> rfl

end Echo

section SendPing

variable {dev target : Netdev} {targetIp : Ipv4Address} {nextHopMac : MacAddress} {host : Host}

/-- What is printed when the request was sent. -/
def printedRequest : List Printed :=
  [.text "ICMP echo request id=0x4242 seq=", .number pingSequence.toNat, .text "\n"]

/-- What `send_ping` does to the host: it sends nothing but the request, and returns `0` when it has
printed the first reply that passes the checks. -/
def Pings (dev : Netdev) (targetIp : Ipv4Address) (nextHopMac : MacAddress) (host : Host)
    (result : ℤ) (after : Host) : Prop :=
  ∃ frame sent taken, pingFrame dev targetIp nextHopMac = some frame ∧ sent <+: [frame] ∧
    host.Talks (fun bytes => .ok (pingFilter dev targetIp bytes)) after sent taken ∧
    (result = 0 → ∃ ip icmp start stop, taken = [(ip, icmp)] ∧
      after.stdout = host.stdout ++ printedRequest ++ printedReply targetIp ip icmp start stop)

/-- **`send_ping`**, whatever the host answers. -/
theorem sendPing_spec (hopen : 0 ≤ dev.fd) (targetIp : Ipv4Address) (nextHopMac : MacAddress)
    (host : Host) :
    wp (sendPing dev targetIp nextHopMac) (Pings dev targetIp nextHopMac host)
      (fun e after => e = .waiting ∧ Pings dev targetIp nextHopMac host (-1) after) host := by
  have hfailed : (-1 : ℤ) ≠ 0 := by decide
  obtain ⟨frame, hframe⟩ := exists_pingFrame dev targetIp nextHopMac
  unfold sendPing
  rw [hframe]
  dsimp only
  rw [wp_bind]
  refine wp_mono (roundTrip_spec (isFilter_pingFilter dev targetIp) hopen (pingFrame_ne_nil hframe)
    host) (fun result after hresult => ?_) fun e after hstop => ?_
  · rcases result with _ | ⟨⟨ip, icmp⟩, start, stop⟩
    · obtain ⟨sent, taken, hsent, htalks⟩ := hresult
      exact ⟨frame, sent, taken, hframe, hsent, htalks, fun h => absurd h hfailed⟩
    · obtain ⟨htalks, hstdout⟩ := hresult
      dsimp only
      rw [wp_bind, wp_printf]
      refine ⟨frame, _, _, hframe, List.prefix_rfl, htalks.local (talks_stdout _), fun _ =>
        ⟨ip, icmp, start, stop, rfl, ?_⟩⟩
      exact congrArg (· ++ printedReply targetIp ip icmp start stop) hstdout
  · obtain ⟨rfl, sent, taken, hsent, htalks⟩ := hstop
    exact ⟨rfl, frame, sent, taken, hframe, hsent, htalks, fun h => absurd h hfailed⟩

/-- **The answer of the target**, when it comes in time, is printed. -/
theorem sendPing_answered {promptMs : ℤ} {spare sends : ℕ} {frame pad : List UInt8}
    {rest : List Reception} {destination source : MacAddress} {ttl : UInt8}
    {identification : BitVec 16} (hopen : 0 ≤ dev.fd)
    (h : host.Prompt promptMs (spare + 2) (sends + 1)) (hlimit : promptMs ≤ icmpTimeoutMs)
    (hframe : echoAnswerFrame target dev destination source ttl identification = some frame)
    (hpad : (frame ++ pad).length ≤ 1514)
    (hdelivers : Delivers (fun bytes => .ok (pingFilter dev target.ipv4 bytes)) false
      (frame ++ pad) rest host.receptions) :
    wp (sendPing dev target.ipv4 nextHopMac)
      (fun result after => result = 0 ∧ after.receptions = rest ∧
        (∃ request, pingFrame dev target.ipv4 nextHopMac = some request ∧
          after.frames = host.frames ++ [request]) ∧
        ∃ ip icmp start stop, ip.ttl = ttl ∧
          after.stdout = host.stdout ++ printedRequest ++ printedReply target.ipv4 ip icmp start stop)
      (fun _ _ => False) host := by
  obtain ⟨request, hrequest⟩ := exists_pingFrame dev target.ipv4 nextHopMac
  obtain ⟨ip, icmp, hfilter, httl, -⟩ := pingFilter_answer hframe hpad
  have hpassed : passed (fun bytes => .ok (pingFilter dev target.ipv4 bytes))
      ((frame ++ pad).take receiveBufferSize) = some (ip, icmp) := by
    rw [List.take_of_length_le (hpad.trans (by decide)), passed_eq_some, hfilter]
  unfold sendPing
  rw [hrequest]
  dsimp only
  rw [wp_bind]
  refine wp_mono (h.roundTrip (isFilter_pingFilter ..) hopen (pingFrame_ne_nil hrequest) hlimit
    hdelivers hpassed) (fun result after hresult => ?_) fun _ _ h => h
  obtain ⟨⟨start, stop, rfl⟩, hrest, hframes, hstdout, -⟩ := hresult
  dsimp only
  rw [wp_bind, wp_printf]
  refine ⟨rfl, hrest, ⟨request, rfl, hframes⟩, ip, icmp, start, stop, httl, ?_⟩
  exact congrArg (· ++ printedReply target.ipv4 ip icmp start stop) hstdout

/-- **`send_ping`.**  Nothing is sent but the request, and the target answers it, however it is
padded.  When `0` is returned, the first reply that passes the checks has been printed; and when the
answer of the target comes in time, behind frames that do not pass the checks, `0` is returned and
that answer is what is printed, whatever route it took. -/
theorem sendPing_asks (hopen : 0 ≤ dev.fd) (nextHopMac : MacAddress) (host : Host) :
    (∀ fault, (sendPing dev target.ipv4 nextHopMac host).1 ≠ .error (.fault fault)) ∧
    (∃ request sent, pingFrame dev target.ipv4 nextHopMac = some request ∧ sent <+: [request] ∧
      (sendPing dev target.ipv4 nextHopMac host).2.frames = host.frames ++ sent ∧
      ∀ pad destination ttl identification, (request ++ pad).length ≤ 1514 →
        echoAnswer target destination ttl identification (request ++ pad) =
          echoAnswerFrame target dev destination target.mac ttl identification) ∧
    ((sendPing dev target.ipv4 nextHopMac host).1 = .ok 0 → ∃ ip icmp start stop,
      (incoming (fun bytes => .ok (pingFilter dev target.ipv4 bytes)) host.receptions).head? =
        some (ip, icmp) ∧
      (sendPing dev target.ipv4 nextHopMac host).2.stdout = host.stdout ++ printedRequest ++
        printedReply target.ipv4 ip icmp start stop) ∧
    ∀ frame pad rest destination source ttl identification,
      echoAnswerFrame target dev destination source ttl identification = some frame →
      (frame ++ pad).length ≤ 1514 → host.Prompt icmpTimeoutMs 2 1 →
      Delivers (fun bytes => .ok (pingFilter dev target.ipv4 bytes)) false (frame ++ pad) rest
        host.receptions →
      (sendPing dev target.ipv4 nextHopMac host).1 = .ok 0 ∧ ∃ ip icmp start stop, ip.ttl = ttl ∧
        (sendPing dev target.ipv4 nextHopMac host).2.stdout = host.stdout ++ printedRequest ++
          printedReply target.ipv4 ip icmp start stop := by
  have hspec := sendPing_spec hopen target.ipv4 nextHopMac host
  refine ⟨fun fault hfault => ?_, ?_, fun hresult => ?_,
    fun frame pad rest destination source ttl identification hframe hpad hprompt hdelivers => ?_⟩
  · cases (hspec.stopped hfault).1
  · obtain ⟨result, request, sent, taken, hrequest, hsent, htalks, -⟩ :
        ∃ result, Pings dev target.ipv4 nextHopMac host result
          (sendPing dev target.ipv4 nextHopMac host).2 :=
      wp.after (P := fun after : Host => ∃ result, Pings dev target.ipv4 nextHopMac host result after)
        hspec (fun result _ hreturned => ⟨result, hreturned⟩) fun _ _ hstopped => ⟨-1, hstopped.2⟩
    exact ⟨request, sent, hrequest, hsent, htalks.frames, fun _ _ _ _ hpad =>
      echoAnswer_request hrequest hpad⟩
  · obtain ⟨request, sent, taken, -, -, htalks, hprinted⟩ := hspec.returned hresult
    obtain ⟨ip, icmp, start, stop, rfl, hstdout⟩ := hprinted rfl
    refine ⟨ip, icmp, start, stop, ?_, hstdout⟩
    rw [htalks.incoming_eq]
    rfl
  · obtain ⟨result, hrun, rfl, -, -, hstdout⟩ :=
      (sendPing_answered hopen hprompt le_rfl hframe hpad hdelivers).total
    exact ⟨hrun, hstdout⟩

end SendPing

/-- The answer of the peer, behind an interruption and garbage. -/
def echoHost : Host where
  clock := testClock 6
  receptions := [.interrupted, .frame [1, 2, 3],
    .frame ((echoAnswerFrame testPeer testDevice testDevice.mac testPeer.mac 57 7).getD [])]
  sends := [none]
  frames := []
  stdout := []
  stderr := []

theorem sendPing_asks_echo :
    (sendPing testDevice testPeer.ipv4 testPeer.mac echoHost).1 = .ok 0 := by
  have hprompt : echoHost.Prompt icmpTimeoutMs 2 1 :=
    prompt_testClock rfl (by decide) (by decide) (by decide) (by decide) (by decide)
  have hframe : echoAnswerFrame testPeer testDevice testDevice.mac testPeer.mac 57 7 =
      some ((echoAnswerFrame testPeer testDevice testDevice.mac testPeer.mac 57 7).getD []) := by
    decide +kernel
  refine ((sendPing_asks (by decide) testPeer.mac echoHost).2.2.2 _ [] [] _ _ 57 7 hframe
    (by decide +kernel) hprompt ?_).1
  rw [List.append_nil]
  exact delivers_behind (by decide +kernel)

end PingTool

/-! ### DNS -/

namespace DnsTool

section Filter

variable {memory : DnsMemory} {dev server : Netdev} {serverIp : Ipv4Address}
  {nextHopMac : MacAddress} {bytes frame pad query : List UInt8} {response : DnsResponse}

end Filter

/-! ### What is printed -/

section Print

variable {hostname : List UInt8} {response : DnsResponse} {records : List DnsRecord}
  {start stop : Timespec} {host : Host} {E : Stop → Host → Prop}

end Print

/-! ### The call -/

section SendDnsQuery

variable {memory : DnsMemory} {dev server : Netdev} {serverIp : Ipv4Address}
  {nextHopMac : MacAddress} {hostname hostnameArg : List UInt8} {host : Host}

end SendDnsQuery

/-- The message of the test, as an answer to the transaction of the tool. -/
def answerPacket : UdpPacket where
  sourcePort := dnsDestinationPort
  destinationPort := dnsSourcePort
  length := BitVec.ofNat 16 (udpHeaderLen + testResponse.length)
  checksum := 0
  payload := 0x42 :: 0x42 :: testResponse.drop 2
  payload_le := by decide

/-- The frame that it comes in. -/
def answerFrame : List UInt8 :=
  (sendMessage testDevice.mac testPeer.mac testPeer.ipv4 testDevice.ipv4 64 7 udpMaxPacketLen
    (.udp answerPacket)).getD []

/-- The answer of the server, behind an interruption and garbage. -/
def answeringHost : Host where
  clock := testClock 6
  receptions := [.interrupted, .frame [1, 2, 3], .frame answerFrame]
  sends := [none]
  frames := []
  stdout := []
  stderr := []

end DnsTool

end Netstack
