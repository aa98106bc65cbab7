/-
# The host that a tool runs on

`netdev_t` of `include/netdev.h`, `netdev_send` and `netdev_receive` of `src/netdev_linux.c`, and
what else the tools ask the system for: `clock_gettime`, `printf` and `fprintf(stderr, ..)`.

`Host` holds the answers that the system is going to give, each kind in the order in which it is
asked for, and what was handed to it.  Nothing is assumed about the answers: a reading of the
clock can fail or go back, a frame can have any bytes, a call of `send` can fail.  A tool that
asks for more answers than there are is one that is still running.
-/

import Netstack.Ethernet.Frame
import Netstack.Http.Report
import Netstack.Ipv4.Packet
import Netstack.Library.Interaction

namespace Netstack

open Interaction
open Interaction.Program

/-! ### The system -/

/-- `struct timespec` -/
structure Timespec where
  tvSec : ℤ
  tvNsec : ℤ
deriving DecidableEq

/-- How a call of `poll`, and of `recv` behind it, comes out: `interrupted` is `EINTR`, and the
text of another error is what `perror` prints for it. -/
inductive Reception where
  | interrupted
  | timedOut
  | pollFailed (error : String)
  | unreadable
  | recvFailed (error : String)
  | frame (bytes : List UInt8)
deriving DecidableEq

/-- What the system is going to answer, and what was handed to it: `clock` has `none` for a call of
`clock_gettime` that fails, and `sends` has the text of the error for one of `send` that does. -/
structure Host where
  clock : List (Option Timespec)
  receptions : List Reception
  sends : List (Option String)
  frames : List (List UInt8)
  stdout : List Printed
  stderr : List Printed
deriving DecidableEq

/-- Why a tool has not returned. -/
inductive Stop where
  /-- it waits for an answer -/
  | waiting
  /-- it accessed memory outside of an array, or a loop of it does not end -/
  | fault (fault : Fault)
deriving DecidableEq

/-- A function of a tool. -/
abbrev Tool (α : Type) := Program Stop Host α

/-- A computation on memory. -/
def liftChecked {α : Type} (computation : Checked α) : Tool α :=
  match computation with
  | .ok a => pure a
  | .error fault => stop (.fault fault)

/-- `for (;;)`, where every round reads the clock. -/
def foreverTimed {α β : Type} (body : β → Tool (Round β α)) (b : β) : Tool α :=
  forever (fun host => host.clock.length) (.fault .diverge) body b

/-- `printf` -/
def printf (printed : List Printed) : Tool Unit :=
  change fun host => { host with stdout := host.stdout ++ printed }

/-- `fprintf(stderr, ..)` -/
def eprintf (printed : List Printed) : Tool Unit :=
  change fun host => { host with stderr := host.stderr ++ printed }

/-- `perror` -/
def perror (name error : String) : Tool Unit :=
  eprintf [.text name, .text ": ", .text error, .text "\n"]

/-- The next of the answers of one kind; `take` says what the host is after it. -/
def nextAnswer {α : Type} (answers : Host → List α) (take : Host → List α → Host) : Tool α :=
  answer (fun host => match answers host with
    | [] => none
    | first :: rest => some (first, take host rest)) .waiting

/-- `clock_gettime(CLOCK_MONOTONIC, ..)` -/
def clockGettime : Tool (Option Timespec) :=
  nextAnswer Host.clock fun host clock => { host with clock }

/-- `poll` and, where it reports a frame, `recv`. -/
def poll : Tool Reception :=
  nextAnswer Host.receptions fun host receptions => { host with receptions }

/-- `send`: the text of the error, if there is one. -/
def send (frame : List UInt8) : Tool (Option String) :=
  nextAnswer Host.sends fun host sends => { host with sends, frames := host.frames ++ [frame] }

/-- `elapsed_ms(&start, &now) > limit`.  The times are whole nanoseconds, so that the doubles compare
as the numbers do. -/
def elapsedExceeds (start now : Timespec) (limitMs : ℤ) : Bool :=
  (now.tvSec - start.tvSec) * 1000000000 + (now.tvNsec - start.tvNsec) > limitMs * 1000000

/-! ### The device -/

/-- `netdev_t` -/
structure Netdev where
  fd : ℤ
  name : List UInt8
  mac : MacAddress
  ipv4 : Ipv4Address
  netmask : Ipv4Address
  gateway : Ipv4Address
  hasGateway : Bool
deriving DecidableEq

/-- `netdev_send` -/
def netdevSend (dev : Netdev) (frame : List UInt8) : Tool ℤ :=
  if dev.fd < 0 ∨ frame.length = 0 then return -1
  else do
    match ← send frame with
    | some error =>
      perror "send" error
      return -1
    | none => return frame.length

/-- The loop of `netdev_receive`, which repeats a `poll` that was interrupted. -/
def pollAgain : Tool Reception :=
  forever (fun host => host.receptions.length) (.fault .diverge) (fun _ => do
    match ← poll with
    | .interrupted => return .again ()
    | reception => return .leave reception) ()

/-- `netdev_receive`: the bytes that it leaves in the buffer, whose number it returns, or `none` for
`-1`. -/
def netdevReceive (dev : Netdev) (bufferLen : ℕ) : Tool (Option (List UInt8)) :=
  if dev.fd < 0 ∨ bufferLen = 0 then return none
  else do
    match ← pollAgain with
    | .timedOut | .unreadable | .interrupted => return some []
    | .pollFailed error =>
      perror "poll" error
      return none
    | .recvFailed error =>
      perror "recv" error
      return none
    | .frame bytes => return some (bytes.take bufferLen)

/-! ### Printing -/

/-- A digit of `%X`. -/
def hexDigit (n : ℕ) : Char := Char.ofNat (if n < 10 then 48 + n else 55 + n)

/-- `%02X` -/
def hexByte (byte : UInt8) : Printed :=
  .text (String.ofList [hexDigit (byte.toNat / 16), hexDigit (byte.toNat % 16)])

/-- `print_ipv4` -/
def printedIpv4 (ip : Ipv4Address) : List Printed :=
  [.number ip.first.toNat, .text ".", .number ip.second.toNat, .text ".", .number ip.third.toNat, .text ".",
    .number ip.fourth.toNat]

/-- `print_mac` -/
def printedMac (mac : MacAddress) : List Printed :=
  [hexByte mac.first, .text ":", hexByte mac.second, .text ":", hexByte mac.third, .text ":",
    hexByte mac.fourth, .text ":", hexByte mac.fifth, .text ":", hexByte mac.sixth]

/-! ### What a call does to the host -/

section Rules

variable {host : Host} {E : Stop → Host → Prop}

@[simp] theorem wp_printf (printed : List Printed) {Q : Unit → Host → Prop} :
    wp (printf printed) Q E host ↔ Q () { host with stdout := host.stdout ++ printed } := Iff.rfl

@[simp] theorem wp_eprintf (printed : List Printed) {Q : Unit → Host → Prop} :
    wp (eprintf printed) Q E host ↔ Q () { host with stderr := host.stderr ++ printed } := Iff.rfl

theorem liftChecked_ok_bind {α β : Type} (a : α) (next : α → Tool β) :
    liftChecked (.ok a) >>= next = next a := rfl

theorem printf_bind_apply {β : Type} (printed : List Printed) (next : Unit → Tool β) :
    (printf printed >>= next) host = next () { host with stdout := host.stdout ++ printed } := rfl

theorem wp_liftChecked {α : Type} {computation : Checked α} {a : α} {Q : α → Host → Prop}
    (h : computation = .ok a) : wp (liftChecked computation) Q E host ↔ Q a host := by
  rw [h]
  exact Iff.rfl

/-- The next answer of one kind, or the end of the answers, where the tool is still waiting. -/
theorem wp_nextAnswer {α : Type} {answers : Host → List α} {take : Host → List α → Host}
    {Q : α → Host → Prop}
    (hQ : ∀ first rest, answers host = first :: rest → Q first (take host rest))
    (hE : answers host = [] → E .waiting host) : wp (nextAnswer answers take) Q E host := by
  refine wp_answer (fun first host' h => ?_) fun h => hE ?_
  · cases hanswers : answers host with
    | nil => simp [hanswers] at h
    | cons head rest =>
        simp only [hanswers, Option.some.injEq, Prod.mk.injEq] at h
        obtain ⟨rfl, rfl⟩ := h
        exact hQ head rest hanswers
  · cases hanswers : answers host with
    | nil => rfl
    | cons head rest => simp [hanswers] at h

theorem wp_clockGettime {Q : Option Timespec → Host → Prop}
    (hQ : ∀ reading clock, host.clock = reading :: clock → Q reading { host with clock })
    (hE : host.clock = [] → E .waiting host) : wp clockGettime Q E host := wp_nextAnswer hQ hE

theorem wp_poll {Q : Reception → Host → Prop}
    (hQ : ∀ reception receptions, host.receptions = reception :: receptions →
      Q reception { host with receptions })
    (hE : host.receptions = [] → E .waiting host) : wp poll Q E host := wp_nextAnswer hQ hE

theorem wp_send {frame : List UInt8} {Q : Option String → Host → Prop}
    (hQ : ∀ error sends, host.sends = error :: sends →
      Q error { host with sends, frames := host.frames ++ [frame] })
    (hE : host.sends = [] → E .waiting host) : wp (send frame) Q E host := wp_nextAnswer hQ hE

end Rules

/-! ### The devices of the tests -/

/-- The device of the tests. -/
def testDevice : Netdev where
  fd := 3
  name := [101, 116, 104, 48]
  mac := ⟨2, 0, 0, 0, 0, 1⟩
  ipv4 := ⟨10, 0, 0, 1⟩
  netmask := ⟨255, 255, 255, 0⟩
  gateway := ⟨10, 0, 0, 254⟩
  hasGateway := true

/-- Its peer. -/
def testPeer : Netdev :=
  { testDevice with mac := ⟨2, 0, 0, 0, 0, 2⟩, ipv4 := ⟨10, 0, 0, 2⟩ }

end Netstack
