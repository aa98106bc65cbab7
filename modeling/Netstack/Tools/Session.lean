/-
# The session of `netstack_http`

`run_http` of `tools/netstack_http.c` behind its handshake, as calls of the functions of
`tcp_connection.h`: what they emit is what is sent, what is received is handed to them, and what
they deliver is in the response (`Exchanging`).  Between two rounds of the loop this is all that has
happened, whatever the host answers.

From it follows what leaves the host (`runHttp_sends`).
-/

import Netstack.Http.Settled
import Netstack.TcpConnection.Completeness
import Netstack.Tools.Connect

namespace Netstack
namespace HttpTool

open Interaction
open Interaction.Program
open Transition (run)

/-! ### Draining -/

section Deliver

variable {memory : HttpMemory} {connection : TcpConnection} {response : ResponseBuffer}
  {bytes : List UInt8}

/-- What is printed aside, the loop is the one of `drain_tcp_application_data`. -/
theorem deliverLoop_eq (realloc : List UInt8 → ℕ → Option (List UInt8)) (fuel : ℕ)
    (buffer : List UInt8) (connection : TcpConnection) (response : ResponseBuffer) (host : Host) :
    ∃ stdout, host.stdout <+: stdout ∧
      deliverLoop realloc fuel buffer connection response host =
        ((drainLoop realloc fuel buffer connection response).mapError Stop.fault,
          { host with stdout }) := by
  induction fuel generalizing buffer connection response host with
  | zero => exact ⟨host.stdout, List.prefix_rfl, rfl⟩
  | succ fuel ih =>
      have hsilent := @List.prefix_rfl _ host.stdout
      rw [deliverLoop, drainLoop]
      by_cases hready : tcpConnectionReadable connection > 0
      swap
      · rw [if_neg hready, if_neg hready]
        exact ⟨host.stdout, hsilent, rfl⟩
      rw [if_pos hready, if_pos hready]
      dsimp only
      cases hfilled : writeRange buffer 0 (tcpConnectionRead connection tcpAppReadBuffer).1 with
      | error fault => exact ⟨host.stdout, hsilent, rfl⟩
      | ok filled =>
          rw [liftChecked_ok_bind, ok_bind]
          by_cases hnone : (tcpConnectionRead connection tcpAppReadBuffer).1.length = 0
          · rw [if_pos hnone, if_pos hnone]
            exact ⟨host.stdout, hsilent, rfl⟩
          rw [if_neg hnone, if_neg hnone]
          cases happended : appendResponse realloc response filled
              (tcpConnectionRead connection tcpAppReadBuffer).1.length with
          | error fault => exact ⟨host.stdout, hsilent, rfl⟩
          | ok appended =>
              rw [liftChecked_ok_bind, ok_bind]
              by_cases hfull : appended.1 ≠ 0
              · rw [if_pos hfull, if_pos hfull]
                exact ⟨host.stdout, hsilent, rfl⟩
              · rw [if_neg hfull, if_neg hfull, printf_bind_apply]
                obtain ⟨stdout, hprinted, hrest⟩ := ih filled _ _ _
                exact ⟨stdout, (List.prefix_append ..).trans hprinted, hrest⟩

/-- **Draining** moves all ready bytes into the response, when there is room for them. -/
theorem deliver_spec (hmemory : memory.IsSound) (h : response.Holds bytes) (host : Host) :
    wp (deliver memory connection response)
      (fun drained after => (∃ stdout, host.stdout <+: stdout ∧ after = { host with stdout }) ∧
        (drained.1 = 0 → drained.2.1 = { connection with receiveReady := [] } ∧
          drained.2.2.Holds (bytes ++ connection.receiveReady)))
      (fun _ _ => False) host := by
  obtain ⟨result, left, next, hdrain, hzero⟩ :=
    h.drainLoop hmemory.realloc (Nat.lt_succ_self connection.receiveReady.length) hmemory.buffer
  obtain ⟨stdout, hprinted, hdeliver⟩ := deliverLoop_eq memory.realloc
    (tcpConnectionReadable connection + 1) memory.buffer connection response host
  have hrun : drainLoop memory.realloc (tcpConnectionReadable connection + 1) memory.buffer
      connection response = .ok (result, left, next) := hdrain
  rw [hrun] at hdeliver
  unfold wp deliver
  rw [hdeliver]
  exact ⟨⟨stdout, hprinted, rfl⟩, hzero⟩

end Deliver

/-! ### The loop -/

section Loop

variable (dev : Netdev) (targetIp : Ipv4Address) (nextHopMac : MacAddress) {isn : BitVec 32}
  {synAck : TcpSegment} (h : Accepts isn synAck) (request : List UInt8) (n : ℕ)
  (earlier : List TcpSegment) (host : Host)

/-- Behind `n` SYNs and the segments that came during the handshake, what the calls `ops` emitted was
sent, and what they took received; and they wrote the request. -/
structure Calling (ops : List TcpOp) (connection : TcpConnection) (after : Host) : Prop where
  calls : ∀ op ∈ ops, ∀ window, op ≠ .buildSyn window
  traffic : Traffic dev targetIp nextHopMac host after
    (List.replicate n (synSegment isn) ++ (endpointAfter h ops).emitted)
    (earlier ++ TcpOp.segments ops)
  written : (endpointAfter h ops).written = request
  connection : (endpointAfter h ops).world.connection = connection

/-- And what they read is the response. -/
structure Exchanging (ops : List TcpOp) (exchange : Exchange) (after : Host) : Prop extends
    Calling dev targetIp nextHopMac h request n earlier host ops exchange.1 after where
  holds : exchange.2.Holds (endpointAfter h ops).world.history.delivered

/-- What has happened when the loop is left. -/
def ExchangeReturns : Option Exchange → Host → Prop
  | none, after => GivenUp dev targetIp nextHopMac isn request host after
  | some exchange, after =>
    ∃ ops, Exchanging dev targetIp nextHopMac h request n earlier host ops exchange after ∧
      (after.stderr = host.stderr → exchange.1.state = .closeWait)

/-- How a round of the loop ends. -/
abbrev ExchangeRound (before : Host) : Round Exchange (Option Exchange) → Host → Prop :=
  RoundKeeps (fun exchange after =>
      (∃ ops, Exchanging dev targetIp nextHopMac h request n earlier host ops exchange after) ∧
        after.stderr = host.stderr)
    (fun host => host.clock.length)
    (ExchangeReturns dev targetIp nextHopMac h request n earlier host) before

variable {dev targetIp nextHopMac h request n earlier host}
variable {ops : List TcpOp} {exchange : Exchange} {connection : TcpConnection}
  {response : ResponseBuffer} {before after : Host} {memory : HttpMemory}

/-- What was sent are parts of every text that continues what was written. -/
theorem Calling.givenUp_of_prefix
    (hx : Calling dev targetIp nextHopMac h request n earlier host ops connection before)
    {later : List UInt8} (hlater : request <+: later)
    (hclosed : (endpointAfter h ops).closed = true → later = request) {received : List TcpSegment}
    (ht : Traffic dev targetIp nextHopMac before after [] received) :
    GivenUp dev targetIp nextHopMac isn later host after := by
  refine ⟨_, _, hx.traffic.trans ht, ?_⟩
  rw [List.append_nil]
  refine List.forall_mem_append.2 ⟨isSent_replicate n, isSent_emitted h hx.calls ?_ ?_⟩
  · exact hx.written ▸ hlater
  · exact fun hfin => (hclosed hfin).trans hx.written.symm

/-- Where a call gives up, what was sent until then is what the session sent. -/
theorem Calling.givenUp
    (hx : Calling dev targetIp nextHopMac h request n earlier host ops connection before)
    {received : List TcpSegment}
    (ht : Traffic dev targetIp nextHopMac before after [] received) :
    GivenUp dev targetIp nextHopMac isn request host after :=
  hx.givenUp_of_prefix List.prefix_rfl (fun _ => rfl) ht

/-- A call. -/
theorem Calling.call
    (hx : Calling dev targetIp nextHopMac h request n earlier host ops connection before)
    {op : TcpOp} {later : List UInt8} (hop : ∀ window, op ≠ .buildSyn window)
    (hwrites : request ++ op.writes connection = later)
    (ht : Traffic dev targetIp nextHopMac before after (op.emits connection).toList
      (TcpOp.segments [op])) :
    Calling dev targetIp nextHopMac h later n earlier host (ops ++ [op]) (op.effect connection)
      after := by
  have htraffic := hx.traffic.trans ht
  refine ⟨List.forall_mem_append.2 ⟨hx.calls, List.forall_mem_singleton.2 hop⟩, ?_, ?_, ?_⟩
  · rw [endpointAfter_append, TcpEndpoint.step_emitted, hx.connection, TcpOp.segments_append,
      ← List.append_assoc, ← List.append_assoc]
    exact htraffic
  · rw [endpointAfter_append, TcpEndpoint.step_written, hx.connection, hx.written]
    exact hwrites
  · rw [endpointAfter_append, TcpEndpoint.step_world, TcpWorld.step_connection, hx.connection]

/-- What is done to the host alone. -/
theorem Calling.local
    (hx : Calling dev targetIp nextHopMac h request n earlier host ops connection before)
    (ht : Traffic dev targetIp nextHopMac before after [] []) :
    Calling dev targetIp nextHopMac h request n earlier host ops connection after :=
  ⟨hx.calls, hx.traffic.local ht, hx.written, hx.connection⟩

/-- What neither sends nor receives leaves the exchange where it is. -/
theorem Exchanging.local
    (hx : Exchanging dev targetIp nextHopMac h request n earlier host ops exchange before)
    (ht : Traffic dev targetIp nextHopMac before after [] []) :
    Exchanging dev targetIp nextHopMac h request n earlier host ops exchange after :=
  ⟨hx.toCalling.local ht, hx.holds⟩

/-- A call that writes nothing. -/
theorem Exchanging.call
    (hx : Exchanging dev targetIp nextHopMac h request n earlier host ops (connection, response)
      before) {op : TcpOp} {next : ResponseBuffer} (hop : ∀ window, op ≠ .buildSyn window)
    (hwrites : op.writes connection = [])
    (ht : Traffic dev targetIp nextHopMac before after (op.emits connection).toList
      (TcpOp.segments [op]))
    (hholds : next.Holds ((endpointAfter h ops).world.step op).history.delivered) :
    Exchanging dev targetIp nextHopMac h request n earlier host (ops ++ [op])
      (op.effect connection, next) after := by
  refine ⟨hx.toCalling.call hop ?_ ht, ?_⟩
  · rw [hwrites, List.append_nil]
  · rw [endpointAfter_append]
    exact hholds

/-- Draining is a call of `tcp_connection_read`. -/
theorem Exchanging.deliver (hmemory : memory.IsSound)
    (hx : Exchanging dev targetIp nextHopMac h request n earlier host ops (connection, response)
      before) :
    wp (deliver memory connection response)
      (fun drained after => Traffic dev targetIp nextHopMac before after [] [] ∧
        after.clock = before.clock ∧ after.stderr = before.stderr ∧
        (drained.1 = 0 → drained.2.1 = { connection with receiveReady := [] } ∧
          Exchanging dev targetIp nextHopMac h request n earlier host
            (ops ++ [.read connection.receiveReady.length]) drained.2 after))
      (fun _ _ => False) before := by
  refine wp_mono (deliver_spec hmemory hx.holds before) (fun drained after hdrained => ?_)
    fun _ _ h => h
  obtain ⟨⟨stdout, hprinted, rfl⟩, hzero⟩ := hdrained
  have ht : Traffic dev targetIp nextHopMac before { before with stdout } [] [] :=
    ⟨List.suffix_rfl, (List.append_nil _).symm, rfl, hprinted, List.prefix_rfl⟩
  have hread : tcpConnectionRead connection connection.receiveReady.length =
      (connection.receiveReady, { connection with receiveReady := [] }) := by
    rw [read_eq, List.take_length, List.drop_length]
  refine ⟨ht, rfl, rfl, fun hresult => ?_⟩
  obtain ⟨hleft, hholds⟩ := hzero hresult
  have hconnection : (endpointAfter h ops).world.connection = connection := hx.connection
  have hcall : Exchanging dev targetIp nextHopMac h request n earlier host
      (ops ++ [.read connection.receiveReady.length])
      ((TcpOp.read connection.receiveReady.length).effect connection, drained.2.2)
      { before with stdout } := by
    refine hx.call (by simp) rfl ht ?_
    rw [TcpWorld.step_history, TcpHistory.record, hconnection, hread]
    exact hholds
  rw [TcpOp.effect, hread, ← hleft] at hcall
  exact ⟨hleft, hcall⟩

/-- The timer gives up, or is quiet, or has a segment. -/
theorem tick_segment (connection : TcpConnection) (elapsedMs : BitVec 32) :
    (tcpConnectionTick connection elapsedMs).result < 0 ∨
      (tcpConnectionTick connection elapsedMs).result = 0 ∧
        (tcpConnectionTick connection elapsedMs).segment = none ∨
      (tcpConnectionTick connection elapsedMs).result = 1 ∧
        ∃ segment, (tcpConnectionTick connection elapsedMs).segment = some segment := by
  rcases tick_cases connection elapsedMs with
    ⟨-, heq⟩ | ⟨-, _, -, ⟨-, heq⟩ | ⟨-, -, heq⟩ | ⟨-, -, heq⟩⟩ <;> rw [heq]
  · exact Or.inr (Or.inl ⟨rfl, rfl⟩)
  · exact Or.inr (Or.inl ⟨rfl, rfl⟩)
  · exact Or.inl (by decide : (-1 : ℤ) < 0)
  · exact Or.inr (Or.inr ⟨rfl, _, rfl⟩)

/-- The timer. -/
theorem exchangeTick_spec (hopen : 0 ≤ dev.fd)
    (hx : Exchanging dev targetIp nextHopMac h request n earlier host ops (connection, response)
      after) (hstderr : after.stderr = host.stderr)
    (hclock : after.clock.length < before.clock.length) :
    wp (exchangeTick dev targetIp nextHopMac connection response)
      (ExchangeRound dev targetIp nextHopMac h request n earlier host before)
      (fun e after => e = .waiting ∧ GivenUp dev targetIp nextHopMac isn request host after)
      after := by
  have hcall : ∀ {last : Host}, Traffic dev targetIp nextHopMac after last
      (tcpConnectionTick connection tcpPollMs).segment.toList [] →
      Exchanging dev targetIp nextHopMac h request n earlier host (ops ++ [.tick tcpPollMs])
        ((tcpConnectionTick connection tcpPollMs).connection, response) last :=
    fun ht => hx.call (by simp) rfl ht hx.holds
  unfold exchangeTick
  dsimp only
  rcases tick_segment connection tcpPollMs with hfailed | ⟨hquiet, hnone⟩ | ⟨hagain, segment, hsome⟩
  · rw [if_pos hfailed]
    exact hx.givenUp traffic_stderr
  · rw [if_neg (by omega), if_neg (by omega)]
    rw [hnone] at hcall
    exact ⟨⟨⟨_, hcall (.refl after)⟩, hstderr⟩, hclock⟩
  · rw [if_neg (by omega), if_pos hagain, hsome]
    dsimp only
    rw [hsome] at hcall
    rw [wp_bind, wp_printf, wp_bind]
    refine wp_mono (sendTcpSegment_spec hopen _) (fun result last hsent => ?_)
      fun e last hstop => ?_
    · obtain ⟨htraffic, hticked, hsilent⟩ := hsent
      have hnext := hcall (traffic_stdout.trans htraffic)
      rw [wp_ite]
      split_ifs with hresult
      · exact hnext.givenUp (.refl last)
      · refine ⟨⟨⟨_, hnext⟩, (hsilent (not_not.1 hresult)).trans hstderr⟩, ?_⟩
        exact (congrArg List.length hticked).trans_lt hclock
    · obtain ⟨rfl, rfl⟩ := hstop
      exact ⟨rfl, hx.givenUp traffic_stdout⟩

/-- The acknowledgment is a call, if there is one. -/
theorem Exchanging.acknowledge (hopen : 0 ≤ dev.fd) (incoming : TcpSegment)
    (hx : Exchanging dev targetIp nextHopMac h request n earlier host ops (connection, response)
      before) :
    wp (acknowledge dev targetIp nextHopMac incoming connection)
      (fun sent after => (∃ ops, Exchanging dev targetIp nextHopMac h request n earlier host ops
          (connection, response) after) ∧
        after.clock = before.clock ∧ (sent = 0 → after.stderr = before.stderr))
      (fun e after => e = .waiting ∧ after = before) before := by
  unfold HttpTool.acknowledge
  rw [wp_ite]
  split_ifs
  · refine wp_mono (sendConnectionAck_spec hopen connection) (fun sent after hsent => ?_)
      fun _ _ h => h
    exact ⟨⟨ops ++ [.buildAck tcpWindowSize], hx.call (by simp) rfl hsent.1 hx.holds⟩,
      hsent.2⟩
  · exact ⟨⟨ops, hx⟩, rfl, fun _ => rfl⟩

/-- The acknowledgment, and whether the peer has closed. -/
theorem exchangeAnswer_spec (hopen : 0 ≤ dev.fd) (stateBefore : TcpConnectionState)
    (incoming : TcpSegment)
    (hx : Exchanging dev targetIp nextHopMac h request n earlier host ops (connection, response)
      after) (hstderr : after.stderr = host.stderr)
    (hclock : after.clock.length < before.clock.length) :
    wp (exchangeAnswer dev targetIp nextHopMac stateBefore incoming connection response)
      (ExchangeRound dev targetIp nextHopMac h request n earlier host before)
      (fun e after => e = .waiting ∧ GivenUp dev targetIp nextHopMac isn request host after)
      after := by
  unfold exchangeAnswer
  rw [wp_bind]
  refine wp_mono (hx.acknowledge hopen incoming) (fun sent last hsent => ?_) fun e last hstop => ?_
  · obtain ⟨⟨ops, hlast⟩, hticked, hsilent⟩ := hsent
    rw [wp_ite]
    by_cases hfailed : sent ≠ 0
    · rw [if_pos hfailed]
      exact hlast.givenUp (.refl last)
    rw [if_neg hfailed, wp_ite]
    by_cases hclosed : stateBefore ≠ .closeWait ∧ connection.state = .closeWait
    · rw [if_pos hclosed]
      exact ⟨ops, hlast.local traffic_stdout, fun _ => hclosed.2⟩
    · rw [if_neg hclosed]
      refine ⟨⟨⟨ops, hlast.local traffic_stdout⟩, (hsilent (not_not.1 hfailed)).trans hstderr⟩, ?_⟩
      exact (congrArg List.length hticked).trans_lt hclock
  · obtain ⟨rfl, rfl⟩ := hstop
    exact ⟨rfl, hx.givenUp (.refl last)⟩

/-- A segment. -/
theorem exchangeSegment_spec (hopen : 0 ≤ dev.fd) (hmemory : memory.IsSound)
    {incoming : TcpSegment}
    (hx : Exchanging dev targetIp nextHopMac h request n earlier host ops (connection, response)
      before)
    (ht : Traffic dev targetIp nextHopMac before after [] [incoming])
    (hstderr : after.stderr = host.stderr) {first : Host}
    (hclock : after.clock.length < first.clock.length) :
    wp (exchangeSegment dev targetIp nextHopMac memory connection response incoming)
      (ExchangeRound dev targetIp nextHopMac h request n earlier host first)
      (fun e after => e = .waiting ∧ GivenUp dev targetIp nextHopMac isn request host after)
      after := by
  have hcall : Exchanging dev targetIp nextHopMac h request n earlier host
      (ops ++ [.onSegment incoming])
      ((tcpConnectionOnSegment connection incoming).2, response) after := by
    refine hx.call (by simp) rfl ht ?_
    rw [TcpWorld.step_history, TcpHistory.record_onSegment, TcpHistory.received_delivered]
    exact hx.holds
  unfold exchangeSegment
  by_cases hrst : incoming.hasFlag tcpFlagRst = true
  · rw [if_pos hrst]
    exact hx.givenUp (ht.local traffic_stderr)
  rw [if_neg hrst]
  dsimp only
  by_cases hfull : (tcpConnectionOnSegment connection incoming).1 = -2
  · rw [if_pos hfull]
    exact hcall.givenUp traffic_stderr
  rw [if_neg hfull]
  by_cases hrejected : (tcpConnectionOnSegment connection incoming).1 < 0
  · rw [if_pos hrejected]
    exact ⟨⟨⟨_, hcall⟩, hstderr⟩, hclock⟩
  rw [if_neg hrejected, wp_bind, wp_printf, wp_bind]
  refine wp_mono ((hcall.local traffic_stdout).deliver hmemory) (fun drained last hdrained => ?_)
    fun _ _ h => h.elim
  obtain ⟨htraffic, hticked, hsilent, hzero⟩ := hdrained
  rw [wp_ite]
  by_cases hresult : drained.1 ≠ 0
  · rw [if_pos hresult]
    exact hcall.givenUp ((traffic_stdout.trans htraffic).local traffic_stderr)
  · rw [if_neg hresult]
    refine exchangeAnswer_spec hopen _ incoming (hzero (not_not.1 hresult)).2
      (hsilent.trans hstderr) ?_
    exact (congrArg List.length hticked).trans_lt hclock

/-- A round of the loop. -/
theorem exchangeRound_spec (hopen : 0 ≤ dev.fd) (hmemory : memory.IsSound) (start : Timespec)
    (hx : Exchanging dev targetIp nextHopMac h request n earlier host ops exchange before)
    (hstderr : before.stderr = host.stderr) :
    wp (exchangeRound dev targetIp nextHopMac memory start exchange)
      (ExchangeRound dev targetIp nextHopMac h request n earlier host before)
      (fun e after => e = .waiting ∧ GivenUp dev targetIp nextHopMac isn request host after)
      before := by
  unfold exchangeRound
  rw [wp_bind]
  refine wp_clockGettime (fun reading clock hclock => ?_) fun _ => ⟨rfl, hx.givenUp (.refl before)⟩
  have hticked : Traffic dev targetIp nextHopMac before { before with clock } [] [] :=
    traffic_clock hclock
  have hless : clock.length < before.clock.length := by
    rw [hclock]
    exact Nat.lt_succ_self _
  cases reading with
  | none => exact hx.givenUp hticked
  | some now =>
      show wp (if elapsedExceeds start now httpTimeoutMs then _ else _) _ _ _
      rw [wp_ite]
      by_cases hexpired : elapsedExceeds start now httpTimeoutMs = true
      · rw [if_pos hexpired]
        refine ⟨ops, hx.local (hticked.local traffic_stderr), fun hsilent => ?_⟩
        -- a message was printed
        have hlength := congrArg List.length (hsilent.trans hstderr.symm)
        simp at hlength
      rw [if_neg hexpired, wp_bind]
      refine wp_mono (receiveTcpSegment_spec nextHopMac _) (fun wait after hwait => ?_)
        fun e after hstop => ⟨hstop.1, hx.givenUp (hticked.trans hstop.2)⟩
      obtain ⟨htraffic, hsilent⟩ := hwait
      have hall := hticked.trans htraffic
      have hleft : after.clock.length < before.clock.length :=
        (htraffic.clock.length_le).trans_lt hless
      cases wait with
      | failed => exact hx.givenUp hall
      | expired =>
          exact exchangeTick_spec hopen (hx.local hall) ((hsilent (by simp)).trans hstderr) hleft
      | got incoming =>
          exact exchangeSegment_spec hopen hmemory hx hall ((hsilent (by simp)).trans hstderr) hleft

end Loop

end HttpTool
end Netstack
