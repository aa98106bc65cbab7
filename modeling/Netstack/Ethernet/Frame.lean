/-
# Ethernet frames

`include/ethernet.h` (`ethernet_frame_t`, the length and type constants) and
`ethernet_parse` and `ethernet_serialize` of `src/ethernet.c`.

As in a TCP segment, `payload_len` is the length of the payload, and that the array
holds it is a field.  A parser returns the packet or the error code, since it writes
`*frame` on success only; a serializer returns the bytes it has written, or `none`
where the function returns `0`.
-/

import Mathlib.Tactic.Common
import Netstack.Bytes

namespace Netstack

/-- `ETHERNET_HEADER_LEN` -/
def ethernetHeaderLen : ℕ := 14

/-- `ETHERNET_MAX_PAYLOAD` -/
def ethernetMaxPayload : ℕ := 1500

/-- `ETHERNET_MAX_FRAME_LEN` -/
def ethernetMaxFrameLen : ℕ := ethernetHeaderLen + ethernetMaxPayload

/-- `ETHERNET_TYPE_IPV4` -/
def ethernetTypeIpv4 : BitVec 16 := 0x0800#16

/-- The bytes of a hardware address, `uint8_t [ETHERNET_ADDR_LEN]`. -/
structure MacAddress where
  first : UInt8
  second : UInt8
  third : UInt8
  fourth : UInt8
  fifth : UInt8
  sixth : UInt8
deriving DecidableEq, Repr

/-- The bytes of an address as `memcpy` takes them. -/
def MacAddress.bytes (address : MacAddress) : List UInt8 :=
  [address.first, address.second, address.third, address.fourth, address.fifth, address.sixth]

/-- `ethernet_frame_t` -/
@[ext]
structure EthernetFrame where
  destination : MacAddress
  source : MacAddress
  ethertype : BitVec 16
  payload : List UInt8
  payload_le : payload.length ≤ ethernetMaxPayload
deriving DecidableEq, Repr

/-- `ethernet_parse` -/
def ethernetParse (data : List UInt8) : Except ℤ EthernetFrame :=
  if hshort : data.length < ethernetHeaderLen then .error (-2)
  else
    have hlen : 14 ≤ data.length := Nat.le_of_not_lt hshort
    let payloadLen := data.length - ethernetHeaderLen
    if hpayload : payloadLen > ethernetMaxPayload then .error (-3)
    else .ok {
      destination := ⟨data[0], data[1], data[2], data[3], data[4], data[5]⟩
      source := ⟨data[6], data[7], data[8], data[9], data[10], data[11]⟩
      ethertype := u16Be data[12] data[13]
      payload := (data.drop ethernetHeaderLen).take payloadLen
      payload_le := (List.length_take_le _ _).trans (Nat.le_of_not_lt hpayload) }

/-- The bytes of a frame. -/
def EthernetFrame.image (frame : EthernetFrame) : List UInt8 :=
  frame.destination.bytes ++ frame.source.bytes ++ writeU16Be frame.ethertype ++ frame.payload

/-- `ethernet_serialize` -/
def ethernetSerialize (frame : EthernetFrame) (bufferLen : ℕ) : Option (List UInt8) :=
  if frame.payload.length > ethernetMaxPayload then none
  else
    let requiredLen := ethernetHeaderLen + frame.payload.length
    if bufferLen < requiredLen then none
    else some frame.image

theorem EthernetFrame.length_image (frame : EthernetFrame) :
    frame.image.length = 14 + frame.payload.length := by
  simp only [image, MacAddress.bytes, List.length_append, length_writeU16Be, List.length_cons,
    List.length_nil]

/-- **The two functions invert each other.**  What is parsed is the image of the frame that is
returned, and the image of a frame is parsed to the frame. -/
theorem ethernetParse_eq_ok_iff {data : List UInt8} {frame : EthernetFrame} :
    ethernetParse data = .ok frame ↔ data = frame.image := by
  constructor
  · intro h
    unfold ethernetParse at h
    dsimp only at h
    split_ifs at h with hshort hpayload
    have hlen : 14 ≤ data.length := Nat.le_of_not_lt hshort
    obtain rfl := Except.ok.inj h
    have hpayload : (data.drop 14).take (data.length - 14) = data.drop 14 :=
      List.take_of_length_le (by rw [List.length_drop])
    calc data = data.drop 0 := rfl
      _ = data[0] :: data[1] :: data[2] :: data[3] :: data[4] :: data[5] :: data[6] :: data[7] ::
            data.drop 8 := drop_eq_cons_eight (by omega)
      _ = data[0] :: data[1] :: data[2] :: data[3] :: data[4] :: data[5] :: data[6] :: data[7] ::
            data[8] :: data[9] :: data[10] :: data[11] :: data.drop 12 := by
          rw [drop_eq_cons_four (by omega)]
      _ = data[0] :: data[1] :: data[2] :: data[3] :: data[4] :: data[5] :: data[6] :: data[7] ::
            data[8] :: data[9] :: data[10] :: data[11] :: data[12] :: data[13] :: data.drop 14 := by
          rw [List.drop_eq_getElem_cons (by omega), List.drop_eq_getElem_cons (by omega)]
      _ = _ := by
          simp only [EthernetFrame.image, MacAddress.bytes, writeU16Be_u16Be, ethernetHeaderLen,
            hpayload, List.cons_append, List.nil_append]
  · rintro rfl
    have hlen := frame.length_image
    have hshort : ¬frame.image.length < ethernetHeaderLen := by
      unfold ethernetHeaderLen
      omega
    have hdiff : frame.image.length - ethernetHeaderLen = frame.payload.length := by
      unfold ethernetHeaderLen
      omega
    have hpayload : ¬frame.image.length - ethernetHeaderLen > ethernetMaxPayload := by
      rw [hdiff]
      exact Nat.not_lt_of_le frame.payload_le
    unfold ethernetParse
    rw [dif_neg hshort]
    dsimp only
    rw [dif_neg hpayload]
    refine congrArg Except.ok (EthernetFrame.ext rfl rfl (u16Be_writeU16Be _) ?_)
    change frame.payload.take (frame.image.length - ethernetHeaderLen) = frame.payload
    rw [hdiff, List.take_length]

/-- **Serialization.** A frame that fits into the buffer is written as it is; nothing is padded.
-/
theorem ethernetSerialize_eq_some_iff {frame : EthernetFrame} {bufferLen : ℕ}
    {out : List UInt8} : ethernetSerialize frame bufferLen = some out ↔
      14 + frame.payload.length ≤ bufferLen ∧ out = frame.image := by
  have hle : ¬frame.payload.length > ethernetMaxPayload := Nat.not_lt_of_le frame.payload_le
  unfold ethernetSerialize
  rw [if_neg hle]
  dsimp only
  rw [Option.ite_none_left_eq_some, Nat.not_lt, Option.some.injEq, eq_comm (b := out)]
  rfl

end Netstack
