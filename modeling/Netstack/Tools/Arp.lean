/-
# `resolve_arp`

Every tool under `tools/` has a `resolve_arp`, and the four differ in this:

| tool | ends on an error of the device | checks `target_ip` | prints what failed |
| --- | --- | --- | --- |
| `netstack_ping` | no | yes | yes |
| `netstack_dns` | no | no | no |
| `netstack_tcp` | no | no | no |
| `netstack_http` | yes | yes | no |

Whatever the host answers, the only frame that is sent is the request, and the address that is
returned is the one in the first reply that passes the checks (`resolveArp_spec`); and a neighbour
that reads the request and answers as `arp_build_reply` does is found (`resolveArp_neighbour`).
-/

import Netstack.Arp.Packet
import Netstack.Tools.Delivery

namespace Netstack

open Interaction
open Interaction.Program

/-! ### The source -/

/-- `ARP_TIMEOUT_MS` -/
def arpTimeoutMs : ℤ := 3000

/-- In what the four functions differ. -/
structure ArpVariant where
  endsOnError : Bool
  checksTarget : Bool
  explains : Bool

/-- What is done with a frame up to the last `continue`. -/
def arpFilter (checksTarget : Bool) (dev : Netdev) (nextHopIp : Ipv4Address)
    (bytes : List UInt8) : Checked (Option ArpPacket) :=
  match ethernetParse bytes with
  | .error _ => return none
  | .ok ethernet =>
    if ethernet.ethertype ≠ ethernetTypeArp then return none
    else do
      match ← arpParse ethernet.payload with
      | .error _ => return none
      | .ok reply =>
        if reply.opcode ≠ arpOpcodeReply then return none
        else if reply.senderIp ≠ nextHopIp then return none
        else if checksTarget = true ∧ reply.targetIp ≠ dev.ipv4 then return none
        else return some reply

/-- The hardware address of all stations. -/
def broadcastMac : MacAddress := ⟨0xFF, 0xFF, 0xFF, 0xFF, 0xFF, 0xFF⟩

/-- The frame around the bytes of a packet, or what failed.  The array in the frame is written
to with `memcpy`. -/
def arpFrame (destination source : MacAddress) (packet : ArpPacket) (arpBytes : List UInt8) :
    Checked (Except String (List UInt8)) := do
  let (arpLen, arpBytes) ← arpSerialize packet arpBytes arpPacketLen
  if arpLen = 0 then return .error "Failed to serialize ARP request.\n"
  else
    let payload ← readRange arpBytes 0 arpLen
    if h : payload.length ≤ ethernetMaxPayload then
      match ethernetSerialize ⟨destination, source, ethernetTypeArp, payload, h⟩
        ethernetMaxFrameLen with
      | none => return .error "Failed to serialize ARP frame.\n"
      | some frame => return .ok frame
    else .error .write

/-- What failed is printed by `netstack_ping` only. -/
def ArpVariant.explain (variant : ArpVariant) (failure : String) : Tool Unit :=
  if variant.explains then eprintf [.text failure] else pure ()

/-- `resolve_arp`: the address that it leaves in `next_hop_mac`, or `none` for `-1`.  `arpBytes` is
what the array holds that is not initialised. -/
def resolveArp (variant : ArpVariant) (arpBytes : List UInt8) (dev : Netdev)
    (nextHopIp : Ipv4Address) : Tool (Option MacAddress) := do
  match ← liftChecked (arpFrame broadcastMac dev.mac (arpBuildRequest dev.mac dev.ipv4 nextHopIp)
    arpBytes) with
  | .error failure =>
    variant.explain failure
    return none
  | .ok frame =>
    let sent ← netdevSend dev frame
    if sent < 0 then do
      variant.explain "Failed to transmit ARP request.\n"
      return none
    else do
      printf ([.text "ARP  who-has "] ++ printedIpv4 nextHopIp ++ [.text "\n"])
      match ← clockGettime with
      | none => return none
      | some start =>
        match ← awaitFrame dev variant.endsOnError start arpTimeoutMs
          (arpFilter variant.checksTarget dev nextHopIp) with
        | .failed => return none
        | .expired =>
          eprintf [.text "ARP request timed out.\n"]
          return none
        | .got reply =>
          printf ([.text "ARP  "] ++ printedIpv4 nextHopIp ++ [.text " is-at "] ++
            printedMac reply.senderMac ++ [.text "\n"])
          return some reply.senderMac

/-- `resolve_arp` of `netstack_ping` -/
def PingTool.resolveArp : List UInt8 → Netdev → Ipv4Address → Tool (Option MacAddress) :=
  Netstack.resolveArp { endsOnError := false, checksTarget := true, explains := true }

/-- `resolve_arp` of `netstack_dns` -/
def DnsTool.resolveArp : List UInt8 → Netdev → Ipv4Address → Tool (Option MacAddress) :=
  Netstack.resolveArp { endsOnError := false, checksTarget := false, explains := false }

/-- `resolve_arp` of `netstack_tcp` -/
def TcpTool.resolveArp : List UInt8 → Netdev → Ipv4Address → Tool (Option MacAddress) :=
  Netstack.resolveArp { endsOnError := false, checksTarget := false, explains := false }

/-- `resolve_arp` of `netstack_http` -/
def HttpTool.resolveArp : List UInt8 → Netdev → Ipv4Address → Tool (Option MacAddress) :=
  Netstack.resolveArp { endsOnError := true, checksTarget := true, explains := false }

/-! ### The frames -/

/-- The bytes of the frame that a packet is sent in. -/
def arpWire (destination source : MacAddress) (packet : ArpPacket) : List UInt8 :=
  destination.bytes ++ source.bytes ++ writeU16Be ethernetTypeArp ++ packet.image

/-- The frame of the request. -/
def arpRequestWire (dev : Netdev) (nextHopIp : Ipv4Address) : List UInt8 :=
  arpWire broadcastMac dev.mac (arpBuildRequest dev.mac dev.ipv4 nextHopIp)

section Frame

variable {dev : Netdev} {nextHopIp : Ipv4Address} {destination source : MacAddress}
  {packet reply : ArpPacket} {arpBytes bytes : List UInt8} {checksTarget : Bool}

/-- None of the failures of `resolve_arp` happens for a packet that is valid. -/
theorem arpFrame_eq (hvalid : packet.IsValid) (harray : arpBytes.length = arpPacketLen) :
    arpFrame destination source packet arpBytes = .ok (.ok (arpWire destination source packet)) := by
  have hread : readRange packet.image 0 28 = .ok packet.image := by
    rw [readRange_of_le packet.length_image.ge, List.drop_zero, ← packet.length_image,
      List.take_length]
  have hlen : packet.image.length ≤ ethernetMaxPayload := packet.length_image.trans_le (by decide)
  have hframe : ethernetSerialize ⟨destination, source, ethernetTypeArp, packet.image, hlen⟩
      ethernetMaxFrameLen = some (arpWire destination source packet) :=
    ethernetSerialize_eq_some_iff.2 ⟨packet.length_image ▸ (by decide : 14 + 28 ≤ 1514), rfl⟩
  have hserialize : arpSerialize packet arpBytes arpPacketLen = .ok (28, packet.image) :=
    arpSerialize_of_valid hvalid harray
  unfold arpFrame
  rw [hserialize, ok_bind]
  dsimp only
  rw [if_neg (by decide), hread, ok_bind, dif_pos hlen, hframe]
  rfl

theorem length_arpWire (destination source : MacAddress) (packet : ArpPacket) :
    (arpWire destination source packet).length = 42 := by
  simp only [arpWire, List.length_append, length_writeU16Be, MacAddress.bytes, List.length_cons,
    List.length_nil, packet.length_image]

theorem arpWire_ne_nil : arpWire destination source packet ≠ [] :=
  List.ne_nil_of_length_pos (by rw [length_arpWire]; decide)

/-- What a station reads from a frame, with whatever the link appends. -/
theorem parse_arpWire (hvalid : packet.IsValid) {pad : List UInt8}
    (hpad : (arpWire destination source packet ++ pad).length ≤ 1514) :
    ∃ ethernet, ethernetParse (arpWire destination source packet ++ pad) = .ok ethernet ∧
      ethernet.destination = destination ∧ ethernet.source = source ∧
      ethernet.ethertype = ethernetTypeArp ∧ arpParse ethernet.payload = .ok (.ok packet) := by
  have hlen : (packet.image ++ pad).length ≤ ethernetMaxPayload := by
    rw [List.length_append, length_arpWire] at hpad
    rw [List.length_append, packet.length_image]
    unfold ethernetMaxPayload
    omega
  refine ⟨⟨destination, source, ethernetTypeArp, packet.image ++ pad, hlen⟩,
    ethernetParse_eq_ok_iff.2 ?_, rfl, rfl, rfl, arpParse_image hvalid pad⟩
  rw [EthernetFrame.image, arpWire, List.append_assoc _ packet.image]

/-- `arp_parse` reads inside of its data. -/
theorem arpParse_total (data : List UInt8) : ∃ result, arpParse data = .ok result := by
  unfold arpParse
  by_cases hshort : data.length < arpPacketLen
  · exact ⟨_, if_pos hshort⟩
  have hlen : 28 ≤ data.length := not_lt.1 hshort
  have hread : ∀ i, i < 28 → ∃ byte, readAt data i = .ok byte := fun i hi =>
    ⟨_, readAt_of_lt (hi.trans_le hlen)⟩
  have hword : ∀ i, i + 1 < 28 → ∃ value, readU16Be data i = .ok value := fun i hi => by
    obtain ⟨high, hhigh⟩ := hread i (by omega)
    obtain ⟨low, hlow⟩ := hread (i + 1) hi
    exact ⟨u16Be high low, by rw [readU16Be, hhigh, ok_bind, hlow]; rfl⟩
  have hip : ∀ i, i + 3 < 28 → ∃ address, readIpv4Address data i = .ok address := fun i hi => by
    obtain ⟨first, hfirst⟩ := hread i (by omega)
    obtain ⟨second, hsecond⟩ := hread (i + 1) (by omega)
    obtain ⟨third, hthird⟩ := hread (i + 2) (by omega)
    obtain ⟨fourth, hfourth⟩ := hread (i + 3) hi
    refine ⟨⟨first, second, third, fourth⟩, ?_⟩
    rw [readIpv4Address, hfirst, ok_bind, hsecond, ok_bind, hthird, ok_bind, hfourth]
    rfl
  have hmac : ∀ i, i + 5 < 28 → ∃ address, readMacAddress data i = .ok address := fun i hi => by
    obtain ⟨first, hfirst⟩ := hread i (by omega)
    obtain ⟨second, hsecond⟩ := hread (i + 1) (by omega)
    obtain ⟨third, hthird⟩ := hread (i + 2) (by omega)
    obtain ⟨fourth, hfourth⟩ := hread (i + 3) (by omega)
    obtain ⟨fifth, hfifth⟩ := hread (i + 4) (by omega)
    obtain ⟨sixth, hsixth⟩ := hread (i + 5) hi
    refine ⟨⟨first, second, third, fourth, fifth, sixth⟩, ?_⟩
    rw [readMacAddress, hfirst, ok_bind, hsecond, ok_bind, hthird, ok_bind, hfourth, ok_bind,
      hfifth, ok_bind, hsixth]
    rfl
  obtain ⟨hardwareType, hhardware⟩ := hword 0 (by decide)
  obtain ⟨protocolType, hprotocol⟩ := hword 2 (by decide)
  obtain ⟨hardwareAddrLen, hhardwareLen⟩ := hread 4 (by decide)
  obtain ⟨protocolAddrLen, hprotocolLen⟩ := hread 5 (by decide)
  obtain ⟨opcode, hopcode⟩ := hword 6 (by decide)
  obtain ⟨senderMac, hsenderMac⟩ := hmac 8 (by decide)
  obtain ⟨senderIp, hsenderIp⟩ := hip 14 (by decide)
  obtain ⟨targetMac, htargetMac⟩ := hmac 18 (by decide)
  obtain ⟨targetIp, htargetIp⟩ := hip 24 (by decide)
  rw [if_neg hshort, hhardware, ok_bind, hprotocol, ok_bind, hhardwareLen, ok_bind, hprotocolLen,
    ok_bind, hopcode, ok_bind, hsenderMac, ok_bind, hsenderIp, ok_bind, htargetMac, ok_bind,
    htargetIp, ok_bind]
  split_ifs <;> exact ⟨_, rfl⟩

/-- **The replies that are taken** come in an ARP frame, from the address that was asked for and, for
two of the tools, to the device. -/
theorem arpFilter_eq_some_iff :
    arpFilter checksTarget dev nextHopIp bytes = .ok (some reply) ↔
      ∃ ethernet, ethernetParse bytes = .ok ethernet ∧ ethernet.ethertype = ethernetTypeArp ∧
        arpParse ethernet.payload = .ok (.ok reply) ∧ reply.opcode = arpOpcodeReply ∧
          reply.senderIp = nextHopIp ∧ (checksTarget = true → reply.targetIp = dev.ipv4) := by
  unfold arpFilter
  cases hethernet : ethernetParse bytes with
  | error code => exact iff_of_false (by simp [pure, Except.pure]) (by simp)
  | ok ethernet =>
      simp only [Except.ok.injEq, exists_eq_left']
      by_cases htype : ethernet.ethertype = ethernetTypeArp
      swap
      · rw [if_pos htype]
        exact iff_of_false (by simp [pure, Except.pure]) fun h => htype h.1
      rw [if_neg (not_not.2 htype)]
      obtain ⟨result, hresult⟩ := arpParse_total ethernet.payload
      rw [hresult, ok_bind]
      cases result with
      | error code => exact iff_of_false (by simp [pure, Except.pure]) (by simp)
      | ok packet =>
          dsimp only
          constructor
          · intro h
            split_ifs at h with hopcode hsender htarget
            · exact absurd (Except.ok.inj h) (by simp)
            · exact absurd (Except.ok.inj h) (by simp)
            · exact absurd (Except.ok.inj h) (by simp)
            · obtain rfl := Option.some.inj (Except.ok.inj h)
              exact ⟨htype, rfl, not_not.1 hopcode, not_not.1 hsender, fun hchecks =>
                not_not.1 fun hne => htarget ⟨hchecks, hne⟩⟩
          · rintro ⟨-, hpacket, hopcode, hsender, htarget⟩
            obtain rfl := Except.ok.inj (Except.ok.inj hpacket)
            rw [if_neg (not_not.2 hopcode), if_neg (not_not.2 hsender),
              if_neg fun h => h.2 (htarget h.1)]
            rfl

/-- The checks of `resolve_arp` are total. -/
theorem isFilter_arpFilter (checksTarget : Bool) (dev : Netdev) (nextHopIp : Ipv4Address) :
    IsFilter (arpFilter checksTarget dev nextHopIp) := by
  refine ⟨fun bytes _ => ?_, rfl⟩
  unfold arpFilter
  cases ethernetParse bytes with
  | error code => exact ⟨_, rfl⟩
  | ok ethernet =>
      obtain ⟨result, hresult⟩ := arpParse_total ethernet.payload
      dsimp only
      rw [hresult, ok_bind]
      cases result with
      | error code => split_ifs <;> exact ⟨_, rfl⟩
      | ok packet =>
          dsimp only
          split_ifs <;> exact ⟨_, rfl⟩

/-- What `netstack_dns` and `netstack_tcp` do not look at: they also take a reply that is addressed to
another station. -/
theorem arpFilter_strict_iff : arpFilter true dev nextHopIp bytes = .ok (some reply) ↔
    arpFilter false dev nextHopIp bytes = .ok (some reply) ∧ reply.targetIp = dev.ipv4 := by
  rw [arpFilter_eq_some_iff, arpFilter_eq_some_iff]
  constructor
  · rintro ⟨ethernet, hethernet, htype, hparse, hopcode, hsender, htarget⟩
    exact ⟨⟨ethernet, hethernet, htype, hparse, hopcode, hsender,
      fun h => absurd h Bool.false_ne_true⟩, htarget rfl⟩
  · rintro ⟨⟨ethernet, hethernet, htype, hparse, hopcode, hsender, -⟩, htarget⟩
    exact ⟨ethernet, hethernet, htype, hparse, hopcode, hsender, fun _ => htarget⟩

end Frame

/-! ### The calls -/

section Resolve

variable {variant : ArpVariant} {arpBytes : List UInt8} {dev : Netdev} {nextHopIp : Ipv4Address}
  {host : Host}

/-- What a variant prints about a failure is nobody else's concern: no frame is sent and none is
taken. -/
theorem explain_spec (variant : ArpVariant) (failure : String)
    {filter : List UInt8 → Checked (Option ArpPacket)} {E : Stop → Host → Prop} :
    wp (variant.explain failure) (fun _ after => host.Talks filter after [] []) E host := by
  unfold ArpVariant.explain
  rw [wp_ite]
  split_ifs
  · exact talks_stderr _
  · exact .refl host

/-- What has happened when `resolve_arp` returns: the request was sent, and the address is the one of
the first reply that passes the checks. -/
def ArpReturns (variant : ArpVariant) (dev : Netdev) (nextHopIp : Ipv4Address) (host : Host) :
    Option MacAddress → Host → Prop
  | none, after => host.Talks (arpFilter variant.checksTarget dev nextHopIp) after
    [arpRequestWire dev nextHopIp] []
  | some mac, after => ∃ reply, reply.senderMac = mac ∧
    host.Talks (arpFilter variant.checksTarget dev nextHopIp) after [arpRequestWire dev nextHopIp]
      [reply]

/-- What has happened while it waits. -/
def ArpWaits (variant : ArpVariant) (dev : Netdev) (nextHopIp : Ipv4Address) (host after : Host) :
    Prop :=
  ∃ sent, sent <+: [arpRequestWire dev nextHopIp] ∧
    host.Talks (arpFilter variant.checksTarget dev nextHopIp) after sent []

/-- **`resolve_arp`**, whatever the host answers. -/
theorem resolveArp_spec (harray : arpBytes.length = arpPacketLen) (hopen : 0 ≤ dev.fd)
    (host : Host) :
    wp (resolveArp variant arpBytes dev nextHopIp) (ArpReturns variant dev nextHopIp host)
      (fun e after => e = .waiting ∧ ArpWaits variant dev nextHopIp host after) host := by
  have hrequest : arpFrame broadcastMac dev.mac (arpBuildRequest dev.mac dev.ipv4 nextHopIp)
      arpBytes = .ok (.ok (arpRequestWire dev nextHopIp)) :=
    arpFrame_eq (IsArpBuilt.request ..).isValid harray
  unfold resolveArp
  rw [wp_bind, wp_liftChecked hrequest]
  dsimp only
  rw [wp_bind]
  refine wp_mono (netdevSend_spec hopen arpWire_ne_nil) (fun sent asked hasked => ?_)
    fun e after hstop => ?_
  swap
  · obtain ⟨rfl, rfl⟩ := hstop
    exact ⟨rfl, [], List.nil_prefix, .refl after⟩
  have htalks : host.Talks (arpFilter variant.checksTarget dev nextHopIp) asked
      [arpRequestWire dev nextHopIp] [] := hasked.1.talks
  have hwaits : ∀ {after : Host},
      asked.Talks (arpFilter variant.checksTarget dev nextHopIp) after [] [] →
        ArpWaits variant dev nextHopIp host after :=
    fun hafter => ⟨_, List.prefix_rfl, htalks.local hafter⟩
  rw [wp_ite]
  split_ifs with hfailed
  · rw [wp_bind]
    exact wp_mono (explain_spec variant _) (fun _ _ h => htalks.local h) fun _ _ h => h
  rw [wp_bind, wp_printf, wp_bind]
  have hprinted := htalks.local (@talks_stdout _ _ asked
    ([.text "ARP  who-has "] ++ printedIpv4 nextHopIp ++ [.text "\n"]))
  refine wp_clockGettime (fun reading clock hclock => ?_) fun _ => ⟨rfl, hwaits (talks_stdout _)⟩
  cases reading with
  | none => exact hprinted.local (talks_clock hclock)
  | some start =>
      dsimp only
      have hstarted := hprinted.local (talks_clock hclock)
      rw [wp_bind]
      refine wp_mono (awaitFrame_spec (isFilter_arpFilter ..) dev variant.endsOnError start
        arpTimeoutMs _) (fun wait after hawaited => ?_) fun e after hstop => ?_
      · cases wait with
        | failed => exact hstarted.local hawaited.talks
        | expired =>
            dsimp only
            rw [wp_bind, wp_eprintf]
            exact (hstarted.local hawaited.talks).local (talks_stderr _)
        | got reply =>
            dsimp only
            rw [wp_bind, wp_printf]
            exact ⟨reply, rfl, (hstarted.trans hawaited.talks).local (talks_stdout _)⟩
      · obtain ⟨rfl, hstopped⟩ := hstop
        exact ⟨rfl, _, List.prefix_rfl, hstarted.local hstopped.talks⟩

/-- **A reply that comes in time is found**, whatever other frames come before it. -/
theorem Host.Prompt.resolveArp {spare sends : ℕ} {bytes : List UInt8} {rest : List Reception}
    {reply : ArpPacket} (harray : arpBytes.length = arpPacketLen) (hopen : 0 ≤ dev.fd)
    (h : host.Prompt arpTimeoutMs (spare + 1) (sends + 1))
    (hdelivers : Delivers (arpFilter variant.checksTarget dev nextHopIp) variant.endsOnError bytes
      rest host.receptions)
    (hbytes : passed (arpFilter variant.checksTarget dev nextHopIp)
      (bytes.take receiveBufferSize) = some reply) :
    wp (Netstack.resolveArp variant arpBytes dev nextHopIp)
      (fun mac after => mac = some reply.senderMac ∧ after.receptions = rest ∧
        after.frames = host.frames ++ [arpRequestWire dev nextHopIp] ∧
        after.Prompt arpTimeoutMs spare sends)
      (fun _ _ => False) host := by
  have hrequest : arpFrame broadcastMac dev.mac (arpBuildRequest dev.mac dev.ipv4 nextHopIp)
      arpBytes = .ok (.ok (arpRequestWire dev nextHopIp)) :=
    arpFrame_eq (IsArpBuilt.request ..).isValid harray
  unfold Netstack.resolveArp
  rw [wp_bind, wp_liftChecked hrequest]
  dsimp only
  rw [wp_bind]
  refine h.netdevSend hopen arpWire_ne_nil fun left hsent => ?_
  rw [wp_ite, if_neg (by omega), wp_bind, wp_printf, wp_bind]
  refine (hsent.printed _).clockGettime fun start clock hclock hprompt hstart => ?_
  dsimp only
  rw [wp_bind]
  refine wp_mono (hprompt.awaitFrame (isFilter_arpFilter ..) hopen hstart hdelivers hbytes)
    (fun wait after hwait => ?_) fun _ _ h => h
  obtain ⟨rfl, hrest, hlater, hlistens⟩ := hwait
  dsimp only
  rw [wp_bind, wp_printf]
  exact ⟨rfl, hrest, hlistens.frames, hlater.printed _⟩

end Resolve

/-! ### A neighbour -/

/-- What a station answers that has the address a request asks for, as `arp_build_reply` has it. -/
def arpAnswer (owner : Netdev) (bytes : List UInt8) : Checked (Option (List UInt8)) :=
  match ethernetParse bytes with
  | .error _ => return none
  | .ok ethernet =>
    if ethernet.ethertype ≠ ethernetTypeArp then return none
    else do
      match ← arpParse ethernet.payload with
      | .error _ => return none
      | .ok request =>
        if request.opcode ≠ arpOpcodeRequest ∨ request.targetIp ≠ owner.ipv4 then return none
        else return some (arpWire request.senderMac owner.mac
          (arpBuildReply owner.mac owner.ipv4 request.senderMac request.senderIp))

section Neighbour

variable {dev owner : Netdev} {pad : List UInt8}

/-- The frame of the answer to a request of the device. -/
def arpAnswerWire (owner dev : Netdev) : List UInt8 :=
  arpWire dev.mac owner.mac (arpBuildReply owner.mac owner.ipv4 dev.mac dev.ipv4)

/-- The owner understands the request. -/
theorem arpAnswer_request (hpad : (arpRequestWire dev owner.ipv4 ++ pad).length ≤ 1514) :
    arpAnswer owner (arpRequestWire dev owner.ipv4 ++ pad) = .ok (some (arpAnswerWire owner dev)) := by
  obtain ⟨ethernet, hethernet, -, -, htype, hparse⟩ :=
    parse_arpWire (IsArpBuilt.request dev.mac dev.ipv4 owner.ipv4).isValid hpad
  have hasked : ¬((arpBuildRequest dev.mac dev.ipv4 owner.ipv4).opcode ≠ arpOpcodeRequest ∨
      (arpBuildRequest dev.mac dev.ipv4 owner.ipv4).targetIp ≠ owner.ipv4) :=
    not_or.2 ⟨not_not.2 rfl, not_not.2 rfl⟩
  unfold arpAnswer arpRequestWire
  rw [hethernet]
  dsimp only
  rw [if_neg (not_not.2 htype), hparse, ok_bind]
  dsimp only
  rw [if_neg hasked]
  rfl

/-- Its answer passes the checks of all tools. -/
theorem passed_arpAnswerWire (checksTarget : Bool)
    (hpad : (arpAnswerWire owner dev ++ pad).length ≤ 1514) :
    passed (arpFilter checksTarget dev owner.ipv4)
      ((arpAnswerWire owner dev ++ pad).take receiveBufferSize) =
        some (arpBuildReply owner.mac owner.ipv4 dev.mac dev.ipv4) := by
  obtain ⟨ethernet, hethernet, -, -, htype, hparse⟩ :=
    parse_arpWire (IsArpBuilt.reply owner.mac owner.ipv4 dev.mac dev.ipv4).isValid hpad
  rw [List.take_of_length_le (hpad.trans (by decide)), passed_eq_some]
  exact arpFilter_eq_some_iff.2 ⟨ethernet, hethernet, htype, hparse, rfl, rfl, fun _ => rfl⟩

end Neighbour

/-- **All four `resolve_arp`.**  Nothing but the request is sent, and the owner of the address reads
it, however it is padded.  An address that is returned is the one in the first reply that passes the
checks; and when the answer of the owner comes in time, behind frames that do not pass the checks,
its address is returned. -/
theorem resolveArp_neighbour (variant : ArpVariant) {arpBytes : List UInt8} {dev owner : Netdev}
    (harray : arpBytes.length = arpPacketLen) (hopen : 0 ≤ dev.fd) (host : Host) :
    (∀ fault, (resolveArp variant arpBytes dev owner.ipv4 host).1 ≠ .error (.fault fault)) ∧
    (∃ sent, sent <+: [arpRequestWire dev owner.ipv4] ∧
      (resolveArp variant arpBytes dev owner.ipv4 host).2.frames = host.frames ++ sent) ∧
    (∀ pad, (arpRequestWire dev owner.ipv4 ++ pad).length ≤ 1514 →
      arpAnswer owner (arpRequestWire dev owner.ipv4 ++ pad) =
        .ok (some (arpAnswerWire owner dev))) ∧
    (∀ mac, (resolveArp variant arpBytes dev owner.ipv4 host).1 = .ok (some mac) →
      ∃ reply, (incoming (arpFilter variant.checksTarget dev owner.ipv4) host.receptions).head? =
        some reply ∧ reply.senderMac = mac) ∧
    ∀ pad rest, (arpAnswerWire owner dev ++ pad).length ≤ 1514 → host.Prompt arpTimeoutMs 1 1 →
      Delivers (arpFilter variant.checksTarget dev owner.ipv4) variant.endsOnError
        (arpAnswerWire owner dev ++ pad) rest host.receptions →
      (resolveArp variant arpBytes dev owner.ipv4 host).1 = .ok (some owner.mac) := by
  have hspec := @resolveArp_spec variant arpBytes dev owner.ipv4 harray hopen host
  refine ⟨fun fault hfault => ?_, ?_, fun pad hpad => arpAnswer_request hpad, fun mac hmac => ?_,
    fun pad rest hpad hprompt hdelivers => ?_⟩
  · cases (hspec.stopped hfault).1
  · refine wp.after (P := fun after : Host => ∃ sent, sent <+: [arpRequestWire dev owner.ipv4] ∧
      after.frames = host.frames ++ sent) hspec (fun mac after hreturns => ?_)
        fun e after hstopped => ?_
    · cases mac with
      | none => exact ⟨_, List.prefix_rfl, Host.Talks.frames hreturns⟩
      | some mac =>
          obtain ⟨reply, -, htalks⟩ := hreturns
          exact ⟨_, List.prefix_rfl, htalks.frames⟩
    · obtain ⟨-, sent, hsent, htalks⟩ := hstopped
      exact ⟨sent, hsent, htalks.frames⟩
  · obtain ⟨reply, hreply, htalks⟩ := hspec.returned hmac
    refine ⟨reply, ?_, hreply⟩
    rw [htalks.incoming_eq]
    rfl
  · obtain ⟨mac, hrun, rfl, -⟩ := (hprompt.resolveArp harray hopen hdelivers
      (passed_arpAnswerWire variant.checksTarget hpad)).total
    exact hrun

/-- The answer, padded to the shortest frame, behind garbage. -/
def neighbourHost : Host where
  clock := testClock 6
  receptions := [.interrupted, .frame [1, 2, 3],
    .frame (arpAnswerWire testPeer testDevice ++ List.replicate 18 0)]
  sends := [none]
  frames := []
  stdout := []
  stderr := []

theorem resolveArp_neighbour_found :
    (HttpTool.resolveArp (List.replicate 28 0) testDevice testPeer.ipv4 neighbourHost).1 =
      .ok (some testPeer.mac) := by
  have hprompt : neighbourHost.Prompt arpTimeoutMs 1 1 :=
    prompt_testClock rfl (by decide) (by decide) (by decide) (by decide) (by decide)
  refine (resolveArp_neighbour ⟨true, true, false⟩ List.length_replicate (by decide)
    neighbourHost).2.2.2.2 (List.replicate 18 0) [] (by decide) hprompt ?_
  exact ⟨[.interrupted, .frame [1, 2, 3]], rfl, by decide⟩

end Netstack
