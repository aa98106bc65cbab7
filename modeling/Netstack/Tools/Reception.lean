/-
# Waiting for a frame

The loop with which every tool under `tools/` receives: it reads the clock, gives up when the time
is over, takes a frame from the device and goes on to the next one unless the frame passes the
checks of the function.  Those checks are a filter here, and what a filter lets through is the
list `incoming`, so that a call takes the head of this list or nothing (`awaitFrame_spec`).
-/

import Netstack.Netdev.Host

namespace Netstack

open Interaction
open Interaction.Program

variable {α : Type}

/-- `RECEIVE_BUFFER_SIZE` -/
def receiveBufferSize : ℕ := 2048

/-! ### The source -/

/-- How the loop ends. -/
inductive Wait (α : Type) where
  /-- the clock or the device failed -/
  | failed
  /-- the time was over -/
  | expired
  /-- a frame passed the checks -/
  | got (a : α)
deriving DecidableEq

/-- One round of the loop.  `filter` is what is done with a frame up to the last `continue`. -/
def awaitRound (dev : Netdev) (endsOnError : Bool) (start : Timespec) (limitMs : ℤ)
    (filter : List UInt8 → Checked (Option α)) : Tool (Round Unit (Wait α)) := do
  match ← clockGettime with
  | none => return .leave .failed
  | some now =>
    if elapsedExceeds start now limitMs then return .leave .expired
    else
      match ← netdevReceive dev receiveBufferSize with
      | none => if endsOnError then return .leave .failed else return .again ()
      | some bytes =>
        if bytes.length = 0 then return .again ()
        else
          match ← liftChecked (filter bytes) with
          | none => return .again ()
          | some a => return .leave (.got a)

/-- The loop.  A failure of the device ends it in `netstack_http`, and the other tools go on. -/
def awaitFrame (dev : Netdev) (endsOnError : Bool) (start : Timespec) (limitMs : ℤ)
    (filter : List UInt8 → Checked (Option α)) : Tool (Wait α) :=
  foreverTimed (fun _ => awaitRound dev endsOnError start limitMs filter) ()

/-! ### What passes a filter -/

/-- The checks are total on what fits into the receive buffer, and nothing is not let through. -/
structure IsFilter (filter : List UInt8 → Checked (Option α)) : Prop where
  total : ∀ bytes : List UInt8, bytes.length ≤ receiveBufferSize → ∃ a, filter bytes = .ok a
  nil : filter [] = .ok none

/-- What the filter makes of the bytes of a frame. -/
def passed (filter : List UInt8 → Checked (Option α)) (bytes : List UInt8) : Option α :=
  match filter bytes with
  | .ok a => a
  | .error _ => none

/-- What the filter makes of an answer of the device. -/
def Reception.passed (filter : List UInt8 → Checked (Option α)) : Reception → Option α
  | .frame bytes => Netstack.passed filter (bytes.take receiveBufferSize)
  | .interrupted | .timedOut | .pollFailed _ | .unreadable | .recvFailed _ => none

/-- What passes the filter, in the order in which it arrives. -/
def incoming (filter : List UInt8 → Checked (Option α)) (receptions : List Reception) : List α :=
  receptions.filterMap (Reception.passed filter)

/-- What the loop has taken. -/
def Wait.taken : Wait α → List α
  | .failed | .expired => []
  | .got a => [a]

section Incoming

variable {filter : List UInt8 → Checked (Option α)} {receptions : List Reception}
  {reception : Reception}

theorem incoming_cons_none (h : reception.passed filter = none) :
    incoming filter (reception :: receptions) = incoming filter receptions := by
  rw [incoming, List.filterMap_cons, h]
  rfl

theorem incoming_cons_some {a : α} (h : reception.passed filter = some a) :
    incoming filter (reception :: receptions) = a :: incoming filter receptions := by
  rw [incoming, List.filterMap_cons, h]
  rfl

/-- A frame passes when the checks say so; a check that faults lets nothing through. -/
theorem passed_eq_some {bytes : List UInt8} {a : α} :
    passed filter bytes = some a ↔ filter bytes = .ok (some a) := by
  unfold passed
  cases filter bytes with
  | ok found => exact ⟨fun h => congrArg Except.ok h, fun h => Except.ok.inj h⟩
  | error fault => exact iff_of_false (by simp) (by simp)

end Incoming

/-! ### One frame -/

/-- A call that sends nothing and prints nothing but an error of the system. -/
structure Host.Listens (before after : Host) : Prop where
  clock : after.clock <:+ before.clock
  sends : after.sends = before.sends
  frames : after.frames = before.frames
  stdout : after.stdout = before.stdout
  stderr : before.stderr <+: after.stderr

theorem Host.Listens.refl (host : Host) : host.Listens host :=
  ⟨List.suffix_rfl, rfl, rfl, rfl, List.prefix_rfl⟩

theorem Host.Listens.trans {a b c : Host} (h : a.Listens b) (h' : b.Listens c) : a.Listens c :=
  ⟨h'.clock.trans h.clock, h'.sends.trans h.sends, h'.frames.trans h.frames,
    h'.stdout.trans h.stdout, h.stderr.trans h'.stderr⟩

section Receive

variable {host : Host} {filter : List UInt8 → Checked (Option α)}

/-- Interruptions aside, the loop of `netdev_receive` takes one answer. -/
theorem pollAgain_spec (filter : List UInt8 → Checked (Option α)) :
    wp pollAgain
      (fun reception after => ∃ receptions, after = { host with receptions } ∧
        reception ≠ .interrupted ∧
        incoming filter host.receptions = incoming filter (reception :: receptions))
      (fun e after => e = .waiting ∧ after = { host with receptions := [] } ∧
        incoming filter host.receptions = []) host := by
  refine wp_forever (I := fun _ after => ∃ receptions, after = { host with receptions } ∧
    incoming filter host.receptions = incoming filter receptions) (fun _ after hafter => ?_)
    ⟨host.receptions, rfl, rfl⟩
  obtain ⟨receptions, rfl, hsame⟩ := hafter
  rw [wp_bind]
  refine wp_poll (fun reception rest hrest => ?_) fun hnil => ?_
  · obtain rfl : receptions = reception :: rest := hrest
    cases reception with
    | interrupted =>
        refine ⟨⟨rest, rfl, hsame.trans (incoming_cons_none rfl)⟩, ?_⟩
        exact Nat.lt_succ_self _
    | timedOut | pollFailed _ | unreadable | recvFailed _ | frame _ =>
        exact ⟨rest, rfl, by simp, hsame⟩
  · obtain rfl : receptions = [] := hnil
    exact ⟨rfl, rfl, hsame⟩

/-- **`netdev_receive`** takes one answer of the device. -/
theorem netdevReceive_spec {dev : Netdev} (hfilter : IsFilter filter) :
    wp (netdevReceive dev receiveBufferSize)
      (fun received after => host.Listens after ∧ after.clock = host.clock ∧
        (received ≠ none → after.stderr = host.stderr) ∧
        (∀ bytes, received = some bytes → bytes.length ≤ receiveBufferSize) ∧
        incoming filter host.receptions =
          (received.bind (passed filter)).toList ++ incoming filter after.receptions)
      (fun e after => e = .waiting ∧ host.Listens after ∧ after.clock = host.clock ∧
        after.receptions = [] ∧ incoming filter host.receptions = []) host := by
  have hnil : passed filter [] = none := by rw [passed, hfilter.nil]
  unfold netdevReceive
  rw [wp_ite]
  split_ifs
  · exact ⟨.refl host, rfl, fun h => absurd rfl h, by simp, rfl⟩
  rw [wp_bind]
  refine wp_mono (pollAgain_spec filter) (fun reception after hpoll => ?_) fun e after hstop => ?_
  · obtain ⟨receptions, rfl, hgenuine, hsame⟩ := hpoll
    have hlistens : host.Listens { host with receptions } :=
      ⟨List.suffix_rfl, rfl, rfl, rfl, List.prefix_rfl⟩
    cases reception with
    | interrupted => exact absurd rfl hgenuine
    | timedOut | unreadable =>
        refine ⟨hlistens, rfl, fun _ => rfl, ?_, ?_⟩
        · rintro bytes ⟨⟩
          exact Nat.zero_le _
        · rw [Option.bind_some, hnil, hsame]
          exact incoming_cons_none rfl
    | pollFailed error | recvFailed error =>
        refine ⟨⟨List.suffix_rfl, rfl, rfl, rfl, List.prefix_append ..⟩, rfl,
          fun h => absurd rfl h, by simp, ?_⟩
        exact hsame.trans (incoming_cons_none rfl)
    | frame bytes =>
        refine ⟨hlistens, rfl, fun _ => rfl, ?_, ?_⟩
        · rintro taken ⟨⟩
          exact List.length_take_le ..
        · rw [Option.bind_some, hsame]
          cases hpassed : passed filter (bytes.take receiveBufferSize) with
          | none => exact incoming_cons_none hpassed
          | some a => exact incoming_cons_some hpassed
  · obtain ⟨rfl, rfl, hnone⟩ := hstop
    exact ⟨rfl, ⟨List.suffix_rfl, rfl, rfl, rfl, List.prefix_rfl⟩, rfl, rfl, hnone⟩

/-! ### The loop -/

/-- What the loop has done when it ends. -/
structure Awaited (filter : List UInt8 → Checked (Option α)) (endsOnError : Bool)
    (before after : Host) (wait : Wait α) : Prop where
  listens : before.Listens after
  incoming_eq : incoming filter before.receptions =
    wait.taken ++ incoming filter after.receptions
  /-- in `netstack_http` an error of the system was the last thing that happened -/
  stderr : endsOnError = true → wait ≠ .failed → after.stderr = before.stderr

/-- What the loop has done when it waits: nothing has passed the filter, and one of the two kinds
of answers is missing. -/
structure AwaitStopped (filter : List UInt8 → Checked (Option α)) (before after : Host) : Prop where
  listens : before.Listens after
  incoming_eq : incoming filter before.receptions = incoming filter after.receptions
  missing : after.clock = [] ∨ after.receptions = []

/-- **The loop takes the first frame that passes the filter**, or none. -/
theorem awaitFrame_spec (hfilter : IsFilter filter) (dev : Netdev) (endsOnError : Bool)
    (start : Timespec) (limitMs : ℤ) (host : Host) :
    wp (awaitFrame dev endsOnError start limitMs filter)
      (fun wait after => Awaited filter endsOnError host after wait)
      (fun e after => e = .waiting ∧ AwaitStopped filter host after) host := by
  unfold awaitFrame foreverTimed
  refine wp_forever (I := fun _ after => host.Listens after ∧
    incoming filter host.receptions = incoming filter after.receptions ∧
    (endsOnError = true → after.stderr = host.stderr)) (fun _ after hafter => ?_)
    ⟨.refl host, rfl, fun _ => rfl⟩
  obtain ⟨hlistens, hsame, herr⟩ := hafter
  unfold awaitRound
  rw [wp_bind]
  refine wp_clockGettime (fun reading clock hclock => ?_) fun hnone =>
    ⟨rfl, hlistens, hsame, Or.inl hnone⟩
  · have hrest : clock <:+ after.clock := hclock ▸ List.suffix_cons reading clock
    have hticked : host.Listens { after with clock } :=
      ⟨hrest.trans hlistens.clock, hlistens.sends, hlistens.frames, hlistens.stdout,
        hlistens.stderr⟩
    have hless : clock.length < after.clock.length := by
      rw [hclock]
      exact Nat.lt_succ_self _
    cases reading with
    | none => exact ⟨hticked, hsame, fun _ h => absurd rfl h⟩
    | some now =>
        show wp (if elapsedExceeds start now limitMs then _ else _) _ _ _
        rw [wp_ite]
        by_cases hexpired : elapsedExceeds start now limitMs = true
        · rw [if_pos hexpired]
          exact ⟨hticked, hsame, fun hends _ => herr hends⟩
        · rw [if_neg hexpired, wp_bind]
          refine wp_mono (netdevReceive_spec hfilter) (fun received last hreceived => ?_)
            fun e last hstop => ?_
          · obtain ⟨hlast, hlastClock, hlastErr, hshort, htaken⟩ := hreceived
            have hall := hticked.trans hlast
            have hround : last.clock.length < after.clock.length := by
              rw [hlastClock]
              exact hless
            cases received with
            | none =>
                show wp (if endsOnError then _ else _) _ _ _
                rw [wp_ite]
                split_ifs with hends
                · exact ⟨hall, hsame.trans htaken, fun _ h => absurd rfl h⟩
                · exact ⟨⟨hall, hsame.trans htaken, fun h => absurd h hends⟩, hround⟩
            | some bytes =>
                have hstill : endsOnError = true → last.stderr = host.stderr :=
                  fun hends => (hlastErr (by simp)).trans (herr hends)
                rw [Option.bind_some] at htaken
                obtain ⟨found, hfound⟩ := hfilter.total bytes (hshort bytes rfl)
                have hpassed : passed filter bytes = found := by rw [passed, hfound]
                rw [hpassed] at htaken
                show wp (if bytes.length = 0 then _ else _) _ _ _
                rw [wp_ite]
                split_ifs with hempty
                · obtain rfl := List.length_eq_zero_iff.1 hempty
                  obtain rfl := Except.ok.inj (hfilter.nil.symm.trans hfound)
                  exact ⟨⟨hall, hsame.trans htaken, hstill⟩, hround⟩
                · rw [wp_bind, wp_liftChecked hfound]
                  cases found with
                  | none => exact ⟨⟨hall, hsame.trans htaken, hstill⟩, hround⟩
                  | some a => exact ⟨hall, hsame.trans htaken, fun hends _ => hstill hends⟩
          · obtain ⟨rfl, hlast, -, hnone, hincoming⟩ := hstop
            refine ⟨rfl, hticked.trans hlast, hsame.trans ?_, Or.inr hnone⟩
            rw [hnone]
            exact hincoming

end Receive

end Netstack
