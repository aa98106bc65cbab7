/-
# Answers in time

`awaitFrame_spec` says what the loop of the tools returns if it returns.  Here the system answers
in time (`Host.Prompt`), and the frame that the loop waits for is among the answers of the device:
then the loop returns with it, whatever frames come before it (`Host.Prompt.awaitFrame`).
-/

import Netstack.Tools.Packets

namespace Netstack

open Interaction
open Interaction.Program

/-- The clock can be read once for every answer of the device and `spare` times more, no two of the
readings are further apart than `limitMs`, and of what is sent `sends` frames are taken. -/
structure Host.Prompt (host : Host) (limitMs : ℤ) (spare sends : ℕ) : Prop where
  reads : ∀ reading ∈ host.clock, ∃ now, reading = some now
  within : ∀ start now, some start ∈ host.clock → some now ∈ host.clock →
    elapsedExceeds start now limitMs = false
  enough : host.receptions.length + spare ≤ host.clock.length
  taken : ∀ error ∈ host.sends, error = none
  room : sends ≤ host.sends.length

/-- An error of the system. -/
def Reception.fails : Reception → Bool
  | .pollFailed _ | .recvFailed _ => true
  | .interrupted | .timedOut | .unreadable | .frame _ => false

/-- The loop goes on behind this answer. -/
def Reception.Quiet {α : Type} (filter : List UInt8 → Checked (Option α)) (endsOnError : Bool)
    (reception : Reception) : Prop :=
  reception.passed filter = none ∧ (endsOnError = true → reception.fails = false)

instance {α : Type} [DecidableEq α] (filter : List UInt8 → Checked (Option α)) (endsOnError : Bool)
    (reception : Reception) : Decidable (reception.Quiet filter endsOnError) :=
  inferInstanceAs (Decidable (_ ∧ _))

section Prompt

variable {host : Host} {limitMs : ℤ} {spare sends : ℕ} {E : Stop → Host → Prop}

/-- What is not too late for a limit is not too late for a later one. -/
theorem elapsedExceeds_mono {start now : Timespec} {limitMs otherMs : ℤ} (hle : limitMs ≤ otherMs)
    (h : elapsedExceeds start now limitMs = false) : elapsedExceeds start now otherMs = false := by
  unfold elapsedExceeds at h ⊢
  rw [decide_eq_false_iff_not] at h ⊢
  omega

theorem Host.Prompt.mono {spare' sends' : ℕ} (h : host.Prompt limitMs spare sends)
    (hspare : spare' ≤ spare) (hsends : sends' ≤ sends) : host.Prompt limitMs spare' sends' :=
  ⟨h.reads, h.within, (Nat.add_le_add_left hspare _).trans h.enough, h.taken,
    hsends.trans h.room⟩

/-- What is left of the answers is in time as well. -/
theorem Host.Prompt.later (h : host.Prompt limitMs spare sends) {after : Host} {spare' sends' : ℕ}
    (hclock : after.clock <:+ host.clock) (hsends : after.sends <:+ host.sends)
    (henough : after.receptions.length + spare' ≤ after.clock.length)
    (hroom : sends' ≤ after.sends.length) : after.Prompt limitMs spare' sends' :=
  ⟨fun reading hreading => h.reads reading (hclock.subset hreading),
    fun start now hstart hnow => h.within start now (hclock.subset hstart) (hclock.subset hnow),
    henough, fun error herror => h.taken error (hsends.subset herror), hroom⟩

/-- The clock is read, and everything that follows is in time. -/
theorem Host.Prompt.clockGettime (h : host.Prompt limitMs (spare + 1) sends)
    {Q : Option Timespec → Host → Prop}
    (hQ : ∀ now clock, host.clock = some now :: clock →
      Host.Prompt { host with clock } limitMs spare sends →
      (∀ later, some later ∈ clock → elapsedExceeds now later limitMs = false) →
      Q (some now) { host with clock }) : wp clockGettime Q E host := by
  refine wp_clockGettime (fun reading clock hclock => ?_) fun hnone => ?_
  · have hsuffix : clock <:+ host.clock := hclock ▸ List.suffix_cons reading clock
    have hfirst : reading ∈ host.clock := hclock ▸ List.mem_cons_self ..
    obtain ⟨now, rfl⟩ := h.reads reading hfirst
    refine hQ now clock hclock (h.later hsuffix List.suffix_rfl ?_ h.room) fun later hlater =>
      h.within now later hfirst (hsuffix.subset hlater)
    have henough := h.enough
    rw [hclock, List.length_cons] at henough
    exact Nat.le_of_succ_le_succ henough
  · have henough := h.enough
    rw [hnone, List.length_nil] at henough
    omega

/-- A frame is sent. -/
theorem Host.Prompt.netdevSend {dev : Netdev} (h : host.Prompt limitMs spare (sends + 1))
    (hopen : 0 ≤ dev.fd) {frame : List UInt8} (hframe : frame ≠ []) {Q : ℤ → Host → Prop}
    (hQ : ∀ left, Host.Prompt { host with sends := left, frames := host.frames ++ [frame] } limitMs
        spare sends →
      Q frame.length { host with sends := left, frames := host.frames ++ [frame] }) :
    wp (Netstack.netdevSend dev frame) Q E host := by
  have hvalid : ¬(dev.fd < 0 ∨ frame.length = 0) := by
    rw [List.length_eq_zero_iff]
    exact not_or.2 ⟨not_lt.2 hopen, hframe⟩
  unfold Netstack.netdevSend
  rw [wp_ite, if_neg hvalid, wp_bind]
  have hroom := h.room
  refine wp_send (fun error left hleft => ?_) fun hnone => ?_
  · obtain rfl := h.taken error (hleft ▸ List.mem_cons_self ..)
    rw [hleft, List.length_cons] at hroom
    exact hQ left (h.later List.suffix_rfl (hleft ▸ List.suffix_cons none left) h.enough
      (Nat.le_of_succ_le_succ hroom))
  · rw [hnone, List.length_nil] at hroom
    omega

/-- A segment is sent. -/
theorem Host.Prompt.sendTcp {dev : Netdev} {targetIp : Ipv4Address} {nextHopMac : MacAddress}
    {identification : BitVec 16} {segment : TcpSegment} {frame : List UInt8}
    (h : host.Prompt limitMs spare (sends + 1)) (hopen : 0 ≤ dev.fd)
    (hframe : tcpFrame dev targetIp nextHopMac identification segment = some frame)
    {Q : ℤ → Host → Prop}
    (hQ : ∀ left, Host.Prompt { host with sends := left, frames := host.frames ++ [frame] } limitMs
        spare sends → Q 0 { host with sends := left, frames := host.frames ++ [frame] }) :
    wp (Netstack.sendTcp dev targetIp nextHopMac identification segment) Q E host := by
  unfold Netstack.sendTcp
  rw [hframe]
  dsimp only
  rw [wp_bind]
  refine h.netdevSend hopen (tcpFrame_ne_nil hframe) fun left hsent => ?_
  rw [if_neg (by omega)]
  exact hQ left hsent

/-- What is printed is not looked at. -/
theorem Host.Prompt.printed (h : host.Prompt limitMs spare sends) (stdout : List Printed) :
    Host.Prompt { host with stdout } limitMs spare sends :=
  ⟨h.reads, h.within, h.enough, h.taken, h.room⟩

/-- The clock of the tests counts nanoseconds. -/
def testClock (n : ℕ) : List (Option Timespec) := (List.range n).map fun k : ℕ => some ⟨1, k⟩

/-- A clock that counts nanoseconds stays within a millisecond as long as it is not read a
million times. -/
theorem prompt_testClock {n : ℕ} (hclock : host.clock = testClock n) (hn : n ≤ 1000000)
    (hlimit : 1 ≤ limitMs) (henough : host.receptions.length + spare ≤ n)
    (htaken : ∀ error ∈ host.sends, error = none) (hroom : sends ≤ host.sends.length) :
    host.Prompt limitMs spare sends := by
  have hmem : ∀ {reading}, reading ∈ host.clock →
      ∃ k : ℕ, k < n ∧ reading = some ⟨1, k⟩ := by
    intro reading hreading
    rw [hclock] at hreading
    obtain ⟨k, hk, rfl⟩ := List.mem_map.1 hreading
    exact ⟨k, List.mem_range.1 hk, rfl⟩
  refine ⟨fun reading hreading => ?_, fun start now hstart hnow => ?_, ?_, htaken, hroom⟩
  · obtain ⟨k, -, rfl⟩ := hmem hreading
    exact ⟨_, rfl⟩
  · obtain ⟨i, hi, hstart⟩ := hmem hstart
    obtain ⟨j, hj, hnow⟩ := hmem hnow
    obtain rfl := Option.some.inj hstart
    obtain rfl := Option.some.inj hnow
    unfold elapsedExceeds
    rw [decide_eq_false_iff_not]
    show ¬((1 - 1) * 1000000000 + ((j : ℤ) - i) > limitMs * 1000000)
    omega
  · rw [hclock, testClock, List.length_map, List.length_range]
    exact henough

end Prompt

/-! ### The loop -/

section Loop

variable {α : Type} {host : Host} {limitMs timeoutMs : ℤ} {spare sends : ℕ} {dev : Netdev}
  {endsOnError : Bool} {start : Timespec} {filter : List UInt8 → Checked (Option α)} {a : α}
  {noise rest : List Reception} {bytes : List UInt8}

/-- The answers of the device: quiet ones, and then the frame. -/
def Delivers (filter : List UInt8 → Checked (Option α)) (endsOnError : Bool) (bytes : List UInt8)
    (rest receptions : List Reception) : Prop :=
  ∃ noise, receptions = noise ++ .frame bytes :: rest ∧
    ∀ reception ∈ noise, reception.Quiet filter endsOnError

/-- The next answer is the frame, or something quiet before it: the cases of an induction over
the answers. -/
theorem Delivers.cons_cases {reception : Reception} {receptions : List Reception}
    (h : Delivers filter endsOnError bytes rest (reception :: receptions)) :
    (reception = .frame bytes ∧ receptions = rest) ∨
      reception.Quiet filter endsOnError ∧ Delivers filter endsOnError bytes rest receptions := by
  obtain ⟨noise, hnoise, hquiet⟩ := h
  cases noise with
  | nil =>
      obtain ⟨rfl, rfl⟩ := List.cons.inj hnoise
      exact Or.inl ⟨rfl, rfl⟩
  | cons first noise =>
      obtain ⟨rfl, rfl⟩ := List.cons.inj hnoise
      exact Or.inr ⟨hquiet reception (List.mem_cons_self ..), noise, rfl, fun r hr =>
        hquiet r (List.mem_cons_of_mem _ hr)⟩

theorem Delivers.ne_nil (h : Delivers filter endsOnError bytes rest []) : False := by
  obtain ⟨noise, hnoise, -⟩ := h
  exact List.append_ne_nil_of_right_ne_nil noise (List.cons_ne_nil _ _) hnoise.symm

/-- The frame comes behind an interruption and a frame that does not pass the checks. -/
theorem delivers_behind {other : List UInt8}
    (h : passed filter (other.take receiveBufferSize) = none) :
    Delivers filter false bytes rest (.interrupted :: .frame other :: .frame bytes :: rest) := by
  refine ⟨[.interrupted, .frame other], rfl, fun reception hreception => ?_⟩
  have hends : false = true → reception.fails = false := fun h => absurd h Bool.false_ne_true
  rcases List.mem_cons.1 hreception with rfl | hlast
  · exact ⟨rfl, hends⟩
  · obtain rfl := List.mem_singleton.1 hlast
    exact ⟨h, hends⟩

/-- An answer is the frame, or the frame is still to come. -/
theorem pollAgain_delivers (h : Delivers filter endsOnError bytes rest host.receptions) :
    wp pollAgain
      (fun reception after => reception ≠ .interrupted ∧ ∃ left,
        after = { host with receptions := left } ∧ left.length < host.receptions.length ∧
          ((reception = .frame bytes ∧ left = rest) ∨
            reception.Quiet filter endsOnError ∧ Delivers filter endsOnError bytes rest left))
      (fun _ _ => False) host := by
  refine wp_forever (I := fun _ after => ∃ left, after = { host with receptions := left } ∧
    left.length ≤ host.receptions.length ∧ Delivers filter endsOnError bytes rest left)
    (fun _ after hafter => ?_) ⟨host.receptions, rfl, le_rfl, h⟩
  obtain ⟨left, rfl, hle, hleft⟩ := hafter
  rw [wp_bind]
  refine wp_poll (fun reception next hnext => ?_) fun hnil => ?_
  · obtain rfl : left = reception :: next := hnext
    have hshorter : next.length < host.receptions.length := hle
    have hcases := hleft.cons_cases
    cases reception with
    | interrupted =>
        rcases hcases with ⟨hframe, -⟩ | ⟨-, hstill⟩
        · cases hframe
        · exact ⟨⟨next, rfl, hshorter.le, hstill⟩, Nat.lt_succ_self _⟩
    | timedOut | pollFailed _ | unreadable | recvFailed _ | frame _ =>
        exact ⟨by simp, next, rfl, hshorter, hcases⟩
  · obtain rfl : left = [] := hnil
    exact hleft.ne_nil

/-- **`netdev_receive`** hands on the frame, or the frame is still to come. -/
theorem netdevReceive_delivers (hfilter : IsFilter filter) (hopen : 0 ≤ dev.fd)
    (h : Delivers filter endsOnError bytes rest host.receptions) :
    wp (netdevReceive dev receiveBufferSize)
      (fun received after => after.clock = host.clock ∧ after.sends = host.sends ∧
        after.receptions.length < host.receptions.length ∧
        ((received = some (bytes.take receiveBufferSize) ∧ after.receptions = rest) ∨
          (received = none → endsOnError = false) ∧
            (∀ taken, received = some taken → filter taken = .ok none) ∧
            Delivers filter endsOnError bytes rest after.receptions))
      (fun _ _ => False) host := by
  have hvalid : ¬(dev.fd < 0 ∨ receiveBufferSize = 0) := not_or.2 ⟨not_lt.2 hopen, by decide⟩
  unfold netdevReceive
  rw [wp_ite, if_neg hvalid, wp_bind]
  refine wp_mono (pollAgain_delivers h) (fun reception after hpoll => ?_) fun _ _ h => h
  obtain ⟨hgenuine, left, rfl, hshorter, hcases⟩ := hpoll
  cases reception with
  | interrupted => exact absurd rfl hgenuine
  | timedOut | unreadable =>
      rcases hcases with ⟨hframe, -⟩ | ⟨hquiet, hstill⟩
      · cases hframe
      · refine ⟨rfl, rfl, hshorter, Or.inr ⟨by simp, ?_, hstill⟩⟩
        rintro taken ⟨⟩
        exact hfilter.nil
  | pollFailed error | recvFailed error =>
      rcases hcases with ⟨hframe, -⟩ | ⟨hquiet, hstill⟩
      · cases hframe
      · refine ⟨rfl, rfl, hshorter, Or.inr ⟨fun _ => ?_, by simp, hstill⟩⟩
        by_contra hends
        exact Bool.false_ne_true (hquiet.2 (by simpa using hends)).symm
  | frame other =>
      rcases hcases with ⟨hframe, rfl⟩ | ⟨hquiet, hstill⟩
      · obtain rfl := Reception.frame.inj hframe
        exact ⟨rfl, rfl, hshorter, Or.inl ⟨rfl, rfl⟩⟩
      · refine ⟨rfl, rfl, hshorter, Or.inr ⟨by simp, ?_, hstill⟩⟩
        rintro taken ⟨⟩
        obtain ⟨found, hfound⟩ := hfilter.total (other.take receiveBufferSize) (List.length_take_le ..)
        have hnone : passed filter (other.take receiveBufferSize) = none := hquiet.1
        rw [passed, hfound] at hnone
        exact hfound.trans (congrArg Except.ok hnone)

/-- **The loop returns with the frame** that it waits for, when it comes and the system answers in
time. -/
theorem Host.Prompt.awaitFrame (hfilter : IsFilter filter) (hopen : 0 ≤ dev.fd)
    (h : host.Prompt limitMs spare sends)
    (hstart : ∀ now, some now ∈ host.clock → elapsedExceeds start now timeoutMs = false)
    (hdelivers : Delivers filter endsOnError bytes rest host.receptions)
    (hbytes : passed filter (bytes.take receiveBufferSize) = some a) :
    wp (Netstack.awaitFrame dev endsOnError start timeoutMs filter)
      (fun wait after => wait = .got a ∧ after.receptions = rest ∧
        after.Prompt limitMs spare sends ∧ host.Listens after)
      (fun _ _ => False) host := by
  have hloop : wp (Netstack.awaitFrame dev endsOnError start timeoutMs filter)
      (fun wait after => wait = .got a ∧ after.receptions = rest ∧ after.Prompt limitMs spare sends)
      (fun _ _ => False) host := by
    unfold Netstack.awaitFrame foreverTimed
    refine wp_forever (I := fun _ after => after.Prompt limitMs spare sends ∧
      after.clock <:+ host.clock ∧ Delivers filter endsOnError bytes rest after.receptions)
      (fun _ after hafter => ?_) ⟨h, List.suffix_rfl, hdelivers⟩
    obtain ⟨hprompt, hsuffix, hstill⟩ := hafter
    have henough := hprompt.enough
    unfold awaitRound
    rw [wp_bind]
    refine wp_clockGettime (fun reading clock hclock => ?_) fun hnone => ?_
    · have hread : reading ∈ after.clock := hclock ▸ List.mem_cons_self ..
      have hrest : clock <:+ after.clock := hclock ▸ List.suffix_cons reading clock
      obtain ⟨now, rfl⟩ := hprompt.reads reading hread
      rw [hclock, List.length_cons] at henough
      show wp (if elapsedExceeds start now timeoutMs then _ else _) _ _ _
      rw [wp_ite, if_neg (by rw [hstart now (hsuffix.subset hread)]; decide), wp_bind]
      refine wp_mono (netdevReceive_delivers hfilter hopen hstill) (fun received last hreceived => ?_)
        fun _ _ h => h
      obtain ⟨hlastClock, hlastSends, hshorter, hcases⟩ := hreceived
      have hlater : last.Prompt limitMs spare sends := by
        refine hprompt.later (hlastClock ▸ hrest) (hlastSends ▸ List.suffix_rfl) ?_
          (hlastSends ▸ hprompt.room)
        rw [hlastClock]
        have : last.receptions.length < after.receptions.length := hshorter
        show _ ≤ clock.length
        omega
      have hagain : Delivers filter endsOnError bytes rest last.receptions →
          (last.Prompt limitMs spare sends ∧ last.clock <:+ host.clock ∧
            Delivers filter endsOnError bytes rest last.receptions) ∧
          last.clock.length < after.clock.length := by
        intro hnext
        refine ⟨⟨hlater, hlastClock ▸ hrest.trans hsuffix, hnext⟩, ?_⟩
        rw [hlastClock, hclock]
        exact Nat.lt_succ_self _
      rcases hcases with ⟨rfl, hreceptions⟩ | ⟨hnone, hquiet, hnext⟩
      · have hne : (bytes.take receiveBufferSize).length ≠ 0 := by
          intro hzero
          rw [List.length_eq_zero_iff.1 hzero, passed, hfilter.nil] at hbytes
          cases hbytes
        show wp (if (bytes.take receiveBufferSize).length = 0 then _ else _) _ _ _
        rw [wp_ite, if_neg hne, wp_bind, wp_liftChecked (passed_eq_some.1 hbytes)]
        exact ⟨rfl, hreceptions, hlater⟩
      · cases received with
        | none =>
            show wp (if endsOnError then _ else _) _ _ _
            rw [wp_ite, if_neg (by rw [hnone rfl]; decide)]
            exact hagain hnext
        | some taken =>
            show wp (if taken.length = 0 then _ else _) _ _ _
            rw [wp_ite]
            split_ifs
            · exact hagain hnext
            · rw [wp_bind, wp_liftChecked (hquiet taken rfl)]
              exact hagain hnext
    · rw [hnone, List.length_nil] at henough
      have hempty : after.receptions = [] := List.length_eq_zero_iff.1 (by omega)
      exact (hempty ▸ hstill).ne_nil
  refine wp_mono (wp_and hloop (awaitFrame_spec hfilter dev endsOnError start timeoutMs host))
    (fun wait after hboth => ?_) fun _ _ h => h.1
  obtain ⟨⟨hgot, hrest, hprompt⟩, hawaited⟩ := hboth
  exact ⟨hgot, hrest, hprompt, hawaited.listens⟩

end Loop

end Netstack
