/-
# Two connections back to back

The engine relies on an honest peer, and `Netstack.TcpConnection.Endpoint` says that it is
one itself.  `TcpLink` puts two connections back to back and lets the network do what
networks do: a step is a call on either side, and a segment that one side has ever
emitted can reach the other at any time, more than once, out of order or not at all.
The stack opens connections only actively, so the handshake is where a link begins:
each side has taken a SYN-ACK that carries the other's sequence number.

What one side has in order is then a beginning of what the other wrote (`link_safe`).
The stream of the argument is what will have been written in the end: everything that
is delivered before is a part of it, since what was written is only added to and not
even that after the FIN (`TcpEndpoint.Extends`, `Along.le_last`).
-/

import Netstack.TcpConnection.Endpoint
import Netstack.TcpConnection.Completeness

namespace Netstack

open Stream (Slice)
open Transition (run Along)

/-- Each SYN-ACK carries the sequence number of the other side, and the ports correspond. -/
structure TcpHandshake.Mirrors (near far : TcpHandshake) : Prop where
  sequence : near.synAck.sequenceNumber = far.initialSequence
  peerSequence : far.synAck.sequenceNumber = near.initialSequence
  ports : near.localPort = far.remotePort
  peerPorts : far.localPort = near.remotePort

/-- Two connections that talk to each other. -/
structure TcpLink where
  near : TcpEndpoint
  far : TcpEndpoint

/-- A call on one of the two sides. -/
inductive TcpLinkOp where
  | near (op : TcpOp)
  | far (op : TcpOp)

/-- One call. -/
def TcpLink.step (link : TcpLink) : TcpLinkOp → TcpLink
  | .near op => { link with near := link.near.step op }
  | .far op => { link with far := link.far.step op }

/-- A call that no second SYN is built by and to which the network brings a segment that the
peer has emitted. -/
def TcpOp.Delivers (emitted : List TcpSegment) : TcpOp → Prop
  | .buildSyn _ => False
  | .onSegment segment => segment ∈ emitted
  | .buildAck _ | .buildData _ _ | .buildFin _ | .tick _ | .read _ => True

instance (emitted : List TcpSegment) (op : TcpOp) : Decidable (op.Delivers emitted) := by
  cases op <;> unfold TcpOp.Delivers <;> infer_instance

/-- The network brings only what the other side has emitted. -/
def TcpLink.Allows (link : TcpLink) : TcpLinkOp → Prop
  | .near op => op.Delivers link.far.emitted
  | .far op => op.Delivers link.near.emitted

instance (link : TcpLink) (op : TcpLinkOp) : Decidable (link.Allows op) := by
  cases op <;> unfold TcpLink.Allows <;> infer_instance

/-- Both sides after their handshake. -/
def TcpLink.start (near far : TcpHandshake) : TcpLink := ⟨near.start, far.start⟩

/-- The calls of some run lead to the link. -/
def TcpLink.Reachable (near far : TcpHandshake) (link : TcpLink) : Prop :=
  ∃ ops, Along TcpLink.step TcpLink.Allows (.start near far) ops ∧
    run TcpLink.step (.start near far) ops = link

/-- What has arrived in order is a beginning of what the peer wrote, and all of it once the FIN
of the peer was consumed, which the peer has then built. -/
structure TcpEndpoint.ReceivesFrom (endpoint peer : TcpEndpoint) : Prop where
  bytes : endpoint.world.inOrder <+: peer.written
  fin : endpoint.world.history.peerFins = 0 ∨ endpoint.world.history.peerFins = 1 ∧
    peer.closed = true ∧ endpoint.world.inOrder = peer.written

/-- Both sides receive what the other wrote. -/
def TcpLink.Safe (link : TcpLink) : Prop :=
  link.near.ReceivesFrom link.far ∧ link.far.ReceivesFrom link.near

/-- What was written fits in half of the sequence space with its FIN. -/
def TcpLink.Short (link : TcpLink) : Prop :=
  link.near.written.length + 1 < 2 ^ 31 ∧ link.far.written.length + 1 < 2 ^ 31

/-! ### The two sides -/

/-- The link seen from the other side. -/
def TcpLink.swap (link : TcpLink) : TcpLink := ⟨link.far, link.near⟩

/-- The call seen from the other side. -/
def TcpLinkOp.swap : TcpLinkOp → TcpLinkOp
  | .near op => .far op
  | .far op => .near op

theorem TcpHandshake.Mirrors.symm {near far : TcpHandshake} (h : near.Mirrors far) :
    far.Mirrors near := ⟨h.peerSequence, h.sequence, h.peerPorts, h.ports⟩

theorem TcpLink.swap_step (link : TcpLink) (op : TcpLinkOp) :
    (link.step op).swap = link.swap.step op.swap := by
  cases op <;> rfl

theorem TcpLink.swap_allows {link : TcpLink} {op : TcpLinkOp} :
    link.swap.Allows op.swap ↔ link.Allows op := by
  cases op <;> exact Iff.rfl

/-- The two sides of a link are alike, so that what is proved for one holds for the other. -/
theorem TcpLink.Reachable.swap {near far : TcpHandshake} {link : TcpLink}
    (h : link.Reachable near far) : link.swap.Reachable far near := by
  obtain ⟨ops, hops, rfl⟩ := h
  refine ⟨ops.map TcpLinkOp.swap, ?_, ?_⟩
  · show Along _ _ (TcpLink.start near far).swap _
    generalize TcpLink.start near far = link at hops
    induction ops generalizing link with
    | nil => trivial
    | cons op ops ih =>
        refine ⟨TcpLink.swap_allows.2 hops.1, ?_⟩
        rw [← TcpLink.swap_step]
        exact ih _ hops.2
  · have hstep : ∀ (s t : TcpLink) (op : TcpLinkOp), s.swap = t →
        (s.step op).swap = t.step op.swap := fun s t op hst => by rw [TcpLink.swap_step, hst]
    exact (Transition.run_related (R := fun s t : TcpLink => s.swap = t) (f := TcpLinkOp.swap)
      (s := TcpLink.start near far) hstep ops rfl).symm

/-! ### What is sent over a link -/

/-- Both sides send parts of what was written to them. -/
structure TcpLink.Sends (near far : TcpHandshake) (link : TcpLink) : Prop where
  near : link.near.SendsParts near.base
  far : link.far.SendsParts far.base

/-- Both sides only add to what was written. -/
structure TcpLink.Extends (link later : TcpLink) : Prop where
  near : link.near.Extends later.near
  far : link.far.Extends later.far

theorem TcpOp.Delivers.ne_buildSyn {emitted : List TcpSegment} {op : TcpOp}
    (h : op.Delivers emitted) (window : BitVec 16) : op ≠ .buildSyn window := by
  rintro rfl
  exact h

section Sends

variable {near far : TcpHandshake} {link : TcpLink}

theorem TcpLink.start_sends (near far : TcpHandshake) : (TcpLink.start near far).Sends near far :=
  ⟨near.start_sendsParts, far.start_sendsParts⟩

/-- A call keeps both sides sending parts of their streams, and what is written only grows, so
that a segment emitted earlier remains a part. -/
theorem TcpLink.Sends.step (h : link.Sends near far) {op : TcpLinkOp} (hop : link.Allows op) :
    (link.step op).Sends near far ∧ link.Extends (link.step op) := by
  cases op with
  | near op =>
      have hne : ∀ window, op ≠ .buildSyn window := TcpOp.Delivers.ne_buildSyn hop
      exact ⟨⟨h.near.step hne, h.far⟩, (op.emission h.near.closing hne).extends, .refl _⟩
  | far op =>
      have hne : ∀ window, op ≠ .buildSyn window := TcpOp.Delivers.ne_buildSyn hop
      exact ⟨⟨h.near, h.far.step hne⟩, .refl _, (op.emission h.far.closing hne).extends⟩

/-- Every step of a run is taken while what was written is part of what will have been. -/
theorem TcpLink.Sends.le_last (h : link.Sends near far) {P : TcpLink → TcpLinkOp → Prop}
    (hP : ∀ l op, P l op → l.Allows op) {ops : List TcpLinkOp}
    (hops : Along TcpLink.step P link ops) :
    Along TcpLink.step (fun l op => (P l op ∧ l.Sends near far) ∧
      l.Extends (run TcpLink.step link ops)) link ops :=
  (hops.le_last (R := TcpLink.Extends) (fun _ => ⟨.refl _, .refl _⟩)
    (fun hst htu => ⟨hst.near.trans htu.near, hst.far.trans htu.far⟩)
    (fun l op hs hop => hs.step (hP l op hop)) h).2

end Sends

/-! ### FINs that were never sent -/

/-- A FIN of the peer is pending or was consumed. -/
def TcpWorld.HasFin (world : TcpWorld) : Prop :=
  world.connection.pendingFin = true ∨ 0 < world.history.peerFins

/-- A FIN that is pending or consumed was on a segment: this one, or an earlier one that left it
pending. -/
theorem ReceivePath.hasFin {segment : TcpSegment} {start last : TcpConnection} {n : ℕ}
    (h : ReceivePath segment start n last) :
    last.pendingFin = true ∨ 0 < n → start.pendingFin = true ∨ segment.hasFlag tcpFlagFin = true :=
  h.invariant (P := fun n c => c.pendingFin = true ∨ 0 < n →
      start.pendingFin = true ∨ segment.hasFlag tcpFlagFin = true)
    (fun n connection next hP hstep hnext => by
      cases hstep with
      | accept | buffer => exact hP hnext
      | remember fin => exact Or.inr fin
      | promote step =>
          refine hP (hnext.imp_left fun hpending => ?_)
          cases step with
          | discard => rwa [(removeReassemblySlot_pending ..).1] at hpending
          | deliver => rwa [(removeReassemblySlot_pending ..).1] at hpending)
    (fun n connection next hP hstep hnext => by
      cases hstep with
      | pending due =>
          rw [TcpConnection.pendingFinDue, Bool.and_eq_true] at due
          exact hP (Or.inl due.1)
      | direct due =>
          rw [TcpConnection.finDue, Bool.and_eq_true] at due
          exact Or.inr due.1)
    (fun hstart => hstart.elim Or.inl fun hpos => absurd hpos (Nat.lt_irrefl 0))

/-- A call learns of a FIN from a segment that carries one. -/
theorem OnSegment.hasFin {segment : TcpSegment} {connection last : TcpConnection} {result : ℤ}
    {n : ℕ} (h : OnSegment segment connection result n last)
    (hfin : last.pendingFin = true ∨ 0 < n) :
    connection.pendingFin = true ∨ segment.hasFlag tcpFlagFin = true := by
  have hack : ∀ {c : TcpConnection} {m : ℕ}, ReceivePath segment (connection.afterAck segment) m c →
      c.pendingFin = true ∨ 0 < m →
        connection.pendingFin = true ∨ segment.hasFlag tcpFlagFin = true := by
    intro c m hpath hc
    have := hpath.hasFin hc
    rwa [TcpConnection.afterAck_pendingFin] at this
  cases h with
  | misaddressed => exact hack .refl (by simpa using hfin)
  | aborted =>
      exact hfin.elim (fun h => absurd h Bool.false_ne_true) fun h => absurd h (Nat.lt_irrefl 0)
  | unanswered | mismatched | ignored => exact hack .refl hfin
  | opened => exact hack .refl hfin
  | refused _ _ _ payload => exact hack payload.path hfin
  | received _ _ _ payload =>
      refine hack payload.received_path (hfin.imp_left fun hpending => ?_)
      rwa [show (finishClose _).pendingFin = _ from
        congrArg TcpReceiveSide.pendingFin (finishClose_receiveSide _)] at hpending

/-- A call that is not about an incoming segment learns of no FIN. -/
theorem TcpWorld.hasFin_of_step {world : TcpWorld} {op : TcpOp}
    (hop : ∀ segment, op ≠ .onSegment segment) (hsyn : ∀ window, op ≠ .buildSyn window)
    (h : (world.step op).HasFin) : world.HasFin := by
  have hpeer := world.history.record_peer world.connection hop hsyn
  have hside := congrArg TcpReceiveSide.pendingFin (TcpOp.receiveSide world.connection hop)
  unfold TcpWorld.HasFin at h ⊢
  rw [TcpWorld.step_history, hpeer.1] at h
  exact h.imp_left hside.symm.trans

/-! ### Reception -/

/-- What carries the induction on the side of one receiver: reception is in order, and it knows
of a FIN only if the peer built one. -/
structure TcpEndpoint.Receives (session : PeerSession) (endpoint peer : TcpEndpoint) : Prop where
  orderly : session.Orderly endpoint.world
  fin : endpoint.world.HasFin → peer.closed = true

section Receives

variable {near far : TcpHandshake} {stream : List UInt8} {hlen : stream.length + 1 < 2 ^ 31}
  {endpoint peer : TcpEndpoint}

/-- A call on the side of the receiver, to whom the network brings parts of the stream. -/
theorem TcpEndpoint.Receives.call (h : endpoint.Receives (near.session stream hlen) peer)
    (hmirror : near.Mirrors far) (hpeer : peer.SendsParts far.base) (hw : peer.written <+: stream)
    (hc : peer.closed = true → stream = peer.written) {op : TcpOp}
    (hop : op.Delivers peer.emitted) :
    (endpoint.step op).Receives (near.session stream hlen) peer := by
  have hpart : ∀ segment ∈ peer.emitted, segment.PartOf far.base stream peer.closed :=
    fun segment hmem => (hpeer.emitted segment hmem).mono hw fun hclosed => ⟨hclosed, hc hclosed⟩
  have hallows : (near.session stream hlen).Allows op := by
    cases op with
    | buildSyn => exact hop
    | onSegment segment => exact (hpart segment hop).honest (congrArg (· + 1) hmirror.sequence) hlen
    | buildAck | buildData | buildFin | tick | read => trivial
  refine ⟨h.orderly.step hallows, fun hfin => ?_⟩
  by_cases hseg : ∃ segment, op = .onSegment segment
  · obtain ⟨segment, rfl⟩ := hseg
    obtain ⟨offset, -, -, hend⟩ := (hpart segment hop).slice
    have hcall := onSegment_spec segment h.orderly.bounded
    unfold TcpWorld.HasFin at hfin
    rw [TcpEndpoint.step_world, TcpWorld.step_history, TcpHistory.record_onSegment,
      TcpHistory.received_peerFins] at hfin
    by_cases hold : endpoint.world.HasFin
    · exact h.fin hold
    · have hnone : endpoint.world.history.peerFins = 0 := by
        by_contra hne
        exact hold (Or.inr (by omega))
      rw [hnone, Nat.zero_add] at hfin
      exact (hend ((hcall.hasFin hfin).resolve_left fun hpending => hold (Or.inl hpending))).1
  · exact h.fin (TcpWorld.hasFin_of_step (fun segment heq => hseg ⟨segment, heq⟩)
      (TcpOp.Delivers.ne_buildSyn hop) hfin)

/-- The peer writes on. -/
theorem TcpEndpoint.Receives.of_extends (h : endpoint.Receives (near.session stream hlen) peer)
    {later : TcpEndpoint} (hext : peer.Extends later) :
    endpoint.Receives (near.session stream hlen) later :=
  ⟨h.orderly, fun hfin => (hext.closed (h.fin hfin)).1⟩

/-- What an endpoint has in order is a beginning of what the peer has written by now, when the
stream of its session is taken to be just that. -/
theorem TcpEndpoint.Receives.receivesFrom {hlen : peer.written.length + 1 < 2 ^ 31}
    (h : endpoint.Receives (near.session peer.written hlen) peer) :
    endpoint.ReceivesFrom peer := by
  refine ⟨h.orderly.inOrder.bytes, ?_⟩
  rcases h.orderly.inOrder.fins_le with hzero | ⟨hone, hall⟩
  · exact Or.inl hzero
  · refine Or.inr ⟨hone, h.fin (Or.inr (by omega)), ?_⟩
    exact h.orderly.inOrder.bytes.eq_of_length hall

end Receives

/-- After the handshake nothing has been received. -/
theorem TcpHandshake.start_receives (near far : TcpHandshake) {stream : List UInt8}
    {hlen : stream.length + 1 < 2 ^ 31} :
    near.start.Receives (near.session stream hlen) far.start := by
  have hblank := (near.session stream hlen).start_blank
  refine ⟨hblank.orderly, fun hfin => ?_⟩
  rcases hfin with hpending | hfins
  · exact absurd (hblank.noFin.symm.trans hpending) Bool.false_ne_true
  · exact absurd (hblank.fins ▸ hfins) (Nat.lt_irrefl 0)

section Reachable

variable {near far : TcpHandshake} {link : TcpLink}

theorem TcpLink.Reachable.sends (h : link.Reachable near far) : link.Sends near far := by
  obtain ⟨ops, hops, rfl⟩ := h
  exact hops.run_invariant (I := TcpLink.Sends near far) (fun _ _ hinv hop => (hinv.step hop).1)
    (TcpLink.start_sends near far)

/-- The near side of a link receives what has been written on the far side in the end. -/
theorem TcpLink.Reachable.receives (h : link.Reachable near far) (hmirror : near.Mirrors far)
    (hlen : link.far.written.length + 1 < 2 ^ 31) :
    link.near.Receives (near.session link.far.written hlen) link.far := by
  obtain ⟨ops, hops, rfl⟩ := h
  refine ((TcpLink.start_sends near far).le_last (fun _ _ => id) hops).run_invariant
    (I := fun link : TcpLink => link.near.Receives (near.session _ hlen) link.far)
    (fun link op hinv hstep => ?_) (near.start_receives far)
  obtain ⟨⟨hop, hsends⟩, hlast⟩ := hstep
  cases op with
  | near op =>
      exact hinv.call hmirror hsends.far hlast.far.written (fun hc => (hlast.far.closed hc).2) hop
  | far op =>
      exact hinv.of_extends (op.emission hsends.far.closing (TcpOp.Delivers.ne_buildSyn hop)).extends

end Reachable

/-- **Safety across the link.**  Whatever the network drops, repeats or reorders, and whatever
the two users do, what each side has in order is a beginning of what was written on the other,
and the FIN is consumed only with all of it there and after the other side built it. -/
theorem link_safe (near far : TcpHandshake) (hmirror : near.Mirrors far) (link : TcpLink)
    (h : link.Reachable near far) (hshort : link.Short) : link.Safe :=
  ⟨(h.receives hmirror hshort.2).receivesFrom,
    (h.swap.receives hmirror.symm hshort.1).receivesFrom⟩

/-! ### The link of the tests -/

theorem testPeerSynAck_accepted : (tcpConnectionOnSegment (tcpConnectionBuildSyn
    (tcpConnectionInit 80 40000 0xfffffffc) 64240).connection
      ((tcpBuild 40000 80 1000 0xfffffffd (tcpFlagSyn ||| tcpFlagAck) 65535 []).getD
        TcpSegment.zero)).1 = 1 := by decide +kernel

/-- The handshake of the other side of the tests. -/
def TcpHandshake.testPeer : TcpHandshake where
  localPort := 80
  remotePort := 40000
  initialSequence := 0xfffffffc
  window := 64240
  synAck :=
    (tcpBuild 40000 80 1000 0xfffffffd (tcpFlagSyn ||| tcpFlagAck) 65535 []).getD TcpSegment.zero
  synAck_payload := rfl
  accepted := testPeerSynAck_accepted

theorem test_mirrors : TcpHandshake.test.Mirrors TcpHandshake.testPeer := ⟨rfl, rfl, rfl, rfl⟩

/-- The segment with three bytes. -/
def testData : TcpSegment :=
  (tcpBuild 40000 80 1001 0xfffffffd (tcpFlagPsh ||| tcpFlagAck) 64240 [1, 2, 3]).getD
    TcpSegment.zero

/-- The FIN behind them. -/
def testFin : TcpSegment :=
  (tcpBuild 40000 80 1004 0xfffffffd (tcpFlagFin ||| tcpFlagAck) 64240 []).getD TcpSegment.zero

/-- The FIN overtakes the data, which comes twice. -/
def linkOps : List TcpLinkOp :=
  [.near (.buildData [1, 2, 3] 64240), .near (.buildFin 64240), .far (.onSegment testFin),
    .far (.onSegment testData), .far (.buildAck 64240), .far (.onSegment testData)]

theorem linkOps_reachable : (run TcpLink.step (.start .test .testPeer) linkOps).Reachable
    .test .testPeer := ⟨linkOps, by decide +kernel, rfl⟩

theorem linkOps_short : (run TcpLink.step (.start .test .testPeer) linkOps).Short := by
  unfold TcpLink.Short
  decide +kernel

theorem link_safe_test : (run TcpLink.step (.start .test .testPeer) linkOps).Safe :=
  link_safe .test .testPeer test_mirrors _ linkOps_reachable linkOps_short

end Netstack
