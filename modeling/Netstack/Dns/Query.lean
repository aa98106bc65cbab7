/-
# DNS queries

`dns_build_a_query` of `src/dns.c`.  The part of its loop that ends a label is
`dnsPutLabel`.

What it encodes is the host names whose labels fit (`IsHostName`), and the limits of the
encoder are those of `dns_skip_name` and `dns_parse_response`: what is built is read back
(`dnsBuildAQuery_decides`).
-/

import Netstack.Dns.Response
import Netstack.Library.CString

namespace Netstack

/-! ### The source -/

/-- The `if` in the loop of `dns_build_a_query`, up to the test for the end of the string: the new
offset, or `none` where the function returns `0`. -/
def dnsPutLabel (hostname : List UInt8) (labelStart cursor offset : ℕ) (buffer : List UInt8) :
    Checked (Option ℕ × List UInt8) :=
  let labelLen := sizeSub cursor labelStart
  if labelLen = 0 ∨ labelLen > 63 then .ok (none, buffer)
  else if sizeAdd (sizeAdd offset 1) labelLen > buffer.length then .ok (none, buffer)
  else do
    let buffer ← writeAt buffer offset (UInt8.ofNat labelLen)
    let offset := sizeAdd offset 1
    let label ← readRange hostname labelStart labelLen
    let buffer ← writeRange buffer offset label
    return (some (sizeAdd offset labelLen), buffer)

/-- The loop of `dns_build_a_query`, run at most `fuel` times. -/
def dnsEncodeLabels (hostname : List UInt8) :
    ℕ → ℕ → ℕ → ℕ → List UInt8 → Checked (Option ℕ × List UInt8)
  | 0, _, _, _, _ => .error .diverge
  | fuel + 1, labelStart, cursor, offset, buffer => do
    let c ← readAt hostname cursor
    -- `'.'` and the end of the string
    if c = 46 ∨ c = 0 then
      match ← dnsPutLabel hostname labelStart cursor offset buffer with
      | (none, buffer) => return (none, buffer)
      | (some offset, buffer) =>
          if c = 0 then return (some offset, buffer)
          else dnsEncodeLabels hostname fuel (sizeAdd cursor 1) (sizeAdd cursor 1) offset buffer
    else dnsEncodeLabels hostname fuel labelStart (sizeAdd cursor 1) offset buffer

/-- `dns_build_a_query`, on a buffer of `buffer_len` bytes, and the memory at `hostname`. -/
def dnsBuildAQuery (buffer : List UInt8) (transactionId : BitVec 16) (hostname : List UInt8) :
    Checked (ℕ × List UInt8) := do
  let first ← readAt hostname 0
  if first = 0 ∨ buffer.length < dnsHeaderLen then return (0, buffer)
  else
    let hostnameLen ← strlen hostname 0
    if hostnameLen = 0 ∨ hostnameLen > 253 then return (0, buffer)
    else
      let buffer ← writeRange buffer 0 (List.replicate buffer.length 0)
      let buffer ← writeFields buffer
        [(0, writeU16Be transactionId), (2, [0x01]), (3, [0x00]), (4, writeU16Be 1)]
      match ← dnsEncodeLabels hostname (hostnameLen + 1) 0 0 dnsHeaderLen buffer with
      | (none, buffer) => return (0, buffer)
      | (some offset, buffer) =>
          if sizeAdd (sizeAdd offset 1) 4 > buffer.length then return (0, buffer)
          else
            let buffer ← writeAt buffer offset 0
            let offset := sizeAdd offset 1
            let buffer ← writeRange buffer offset (writeU16Be dnsTypeA)
            let offset := sizeAdd offset 2
            let buffer ← writeRange buffer offset (writeU16Be dnsClassIn)
            let offset := sizeAdd offset 2
            return (offset, buffer)

/-! ### The host names -/

/-- The labels of a host name, between the dots. -/
def hostLabels (host : List UInt8) : List (List UInt8) := host.splitOn 46

/-- The host names that have an encoding. -/
def IsHostName (host : List UInt8) : Prop :=
  (1 ≤ host.length ∧ host.length ≤ 253) ∧ ∀ label ∈ hostLabels host, IsLabel label

instance (label : List UInt8) : Decidable (IsLabel label) :=
  inferInstanceAs (Decidable (_ ∧ _))

instance (host : List UInt8) : Decidable (IsHostName host) :=
  inferInstanceAs (Decidable (_ ∧ ∀ label ∈ hostLabels host, IsLabel label))

/-- The bytes of the query for a host name. -/
def dnsQuery (id : BitVec 16) (host : List UInt8) : List UInt8 :=
  DnsHeader.encode ⟨id, 0x0100, 1, 0, 0, 0⟩ ++ (hostLabels host).flatMap encodeLabel ++ [0] ++
    writeU16Be dnsTypeA ++ writeU16Be dnsClassIn

theorem length_encodeLabel (label : List UInt8) :
    (encodeLabel label).length = label.length + 1 := rfl

/-- A dot between two labels becomes the length of the second. -/
theorem length_flatMap_encodeLabel {labels : List (List UInt8)} (h : labels ≠ []) (sep : UInt8) :
    (labels.flatMap encodeLabel).length = ([sep].intercalate labels).length + 1 := by
  induction labels with
  | nil => exact absurd rfl h
  | cons label labels ih =>
      cases labels with
      | nil => simp [length_encodeLabel]
      | cons next labels =>
          have hrest := ih (List.cons_ne_nil _ _)
          rw [List.flatMap_cons, List.length_append, hrest, length_encodeLabel]
          simp only [List.intercalate_cons_cons, List.length_append, List.length_singleton]
          omega

theorem length_hostLabels (host : List UInt8) :
    ((hostLabels host).flatMap encodeLabel).length = host.length + 1 := by
  rw [hostLabels, length_flatMap_encodeLabel (List.splitOn_ne_nil 46 host) 46,
    List.intercalate_splitOn]

/-- A query has the header, the name, which is two bytes longer than the host, and the type and
class. -/
theorem length_dnsQuery (id : BitVec 16) (host : List UInt8) :
    (dnsQuery id host).length = host.length + 18 := by
  simp only [dnsQuery, DnsHeader.encode, List.length_append, length_writeU16Be, length_hostLabels,
    List.length_singleton]
  omega

/-! ### Encoding -/

/-- **A label** is put behind its length, when it is one and when there is room. -/
theorem dnsPutLabel_eq (before label after front rest : List UInt8)
    (hhost : before.length + label.length ≤ 253) (hfront : front.length ≤ 300) :
    dnsPutLabel (before ++ label ++ after) before.length (before.length + label.length)
        front.length (front ++ rest) =
      if IsLabel label ∧ (encodeLabel label).length ≤ rest.length then
        .ok (some (front ++ encodeLabel label).length,
          front ++ encodeLabel label ++ rest.drop (encodeLabel label).length)
      else .ok (none, front ++ rest) := by
  have hlen : sizeSub (before.length + label.length) before.length = label.length := by
    rw [sizeSub_of_le (by omega) (by unfold sizeMax; omega), Nat.add_sub_cancel_left]
  have hone : sizeAdd front.length 1 = front.length + 1 :=
    sizeAdd_of_le (by unfold sizeMax; omega)
  have hend : sizeAdd (front.length + 1) label.length = front.length + 1 + label.length :=
    sizeAdd_of_le (by unfold sizeMax; omega)
  unfold dnsPutLabel
  simp only [hlen, hone, hend, length_encodeLabel, List.length_append]
  by_cases hlabel : IsLabel label
  swap
  · have hbad : label.length = 0 ∨ label.length > 63 := by
      unfold IsLabel at hlabel
      omega
    rw [if_pos hbad, if_neg fun h => hlabel h.1]
  have hgood : ¬(label.length = 0 ∨ label.length > 63) := by
    have := hlabel.1
    have := hlabel.2
    omega
  rw [if_neg hgood]
  by_cases hroom : label.length + 1 ≤ rest.length
  swap
  · rw [if_pos (by omega), if_neg fun h => hroom h.2]
  obtain ⟨b, rest, rfl⟩ := List.exists_cons_of_length_pos (by omega : 0 < rest.length)
  rw [List.length_cons] at hroom
  have hwrite := @writeAt_append UInt8 front _ rfl b (UInt8.ofNat label.length) rest
  have hread : readRange (before ++ label ++ after) before.length label.length = .ok label := by
    rw [readRange_of_le (by simp), List.append_assoc, List.drop_left, List.take_left]
  have hcopy : writeRange (front ++ [UInt8.ofNat label.length] ++ rest) (front.length + 1) label =
      .ok (front ++ [UInt8.ofNat label.length] ++ label ++ rest.drop label.length) :=
    writeRange_append (by simp) (by omega)
  rw [if_neg (by rw [List.length_cons]; omega), if_pos ⟨hlabel, by rw [List.length_cons]; omega⟩,
    hwrite, ok_bind, hread, ok_bind, hcopy]
  simp only [ok_bind, encodeLabel, List.append_assoc, List.cons_append, List.nil_append,
    List.drop_succ_cons]
  refine congrArg Except.ok (Prod.ext ?_ rfl)
  exact congrArg some (by omega)

/-- What `dns_build_a_query` has written, or that it gives up, when the loop has come to `code`. -/
def Encoded (labels : List (List UInt8)) (front tail : List UInt8)
    (result : Checked (Option ℕ × List UInt8)) : Prop :=
  if (∀ label ∈ labels, IsLabel label) ∧ (labels.flatMap encodeLabel).length ≤ tail.length then
    result = .ok (some (front ++ labels.flatMap encodeLabel).length,
      front ++ labels.flatMap encodeLabel ++ tail.drop (labels.flatMap encodeLabel).length)
  else ∃ left, result = .ok (none, left) ∧ left.length = (front ++ tail).length

/-- The first label does not fit. -/
theorem encoded_of_not {label : List UInt8} {labels : List (List UInt8)} {front tail : List UInt8}
    (h : ¬(IsLabel label ∧ (encodeLabel label).length ≤ tail.length)) :
    Encoded (label :: labels) front tail (.ok (none, front ++ tail)) := by
  have hnot : ¬((∀ l ∈ label :: labels, IsLabel l) ∧
      ((label :: labels).flatMap encodeLabel).length ≤ tail.length) := by
    rintro ⟨hlabels, hroom⟩
    refine h ⟨hlabels label List.mem_cons_self, ?_⟩
    rw [List.flatMap_cons, List.length_append] at hroom
    omega
  unfold Encoded
  rw [if_neg hnot]
  exact ⟨_, rfl, rfl⟩

/-- The first label fits, and the others decide. -/
theorem encoded_cons {label : List UInt8} {labels : List (List UInt8)} {front tail : List UInt8}
    {result : Checked (Option ℕ × List UInt8)} (hlabel : IsLabel label)
    (hroom : (encodeLabel label).length ≤ tail.length)
    (h : Encoded labels (front ++ encodeLabel label) (tail.drop (encodeLabel label).length)
      result) : Encoded (label :: labels) front tail result := by
  have hiff : ((∀ l ∈ label :: labels, IsLabel l) ∧
      ((label :: labels).flatMap encodeLabel).length ≤ tail.length) ↔
        (∀ l ∈ labels, IsLabel l) ∧ (labels.flatMap encodeLabel).length ≤
          (tail.drop (encodeLabel label).length).length := by
    rw [List.forall_mem_cons, and_iff_right hlabel, List.flatMap_cons, List.length_append,
      List.length_drop]
    exact and_congr_right fun _ => ⟨fun _ => by omega, fun _ => by omega⟩
  unfold Encoded at *
  simp only [hiff]
  split_ifs at h ⊢
  · rw [h, List.flatMap_cons, @List.length_append _ (encodeLabel label), List.drop_drop,
      ← List.append_assoc front]
  · obtain ⟨left, hresult, hlen⟩ := h
    refine ⟨left, hresult, hlen.trans ?_⟩
    simp only [List.length_append, List.length_drop]
    omega

theorem readAt_append (before : List UInt8) (c : UInt8) (after : List UInt8) {i : ℕ}
    (hi : before.length = i) : readAt (before ++ c :: after) i = .ok c := by
  subst hi
  exact readAt_of_drop (List.drop_left)

/-- **The loop**, from the middle of a label on. -/
theorem dnsEncodeLabels_encoded (rest after : List UInt8) (hnul : 0 ∉ rest)
    {before part front : List UInt8} (tail : List UInt8) (hdot : 46 ∉ part)
    (hhost : before.length + part.length + rest.length ≤ 253)
    (hfront : front.length + part.length + rest.length ≤ 300) :
    Encoded (hostLabels (part ++ rest)) front tail
      (dnsEncodeLabels (before ++ part ++ rest ++ 0 :: after) (rest.length + 1) before.length
        (before.length + part.length) front.length (front ++ tail)) := by
  induction rest generalizing before part front tail with
  | nil =>
      have hread := readAt_append (before ++ part) 0 after List.length_append
      have hput := dnsPutLabel_eq before part (0 :: after) front tail (by simpa using hhost)
        (by simp at hfront; omega)
      have hlabels : hostLabels part = [part] := List.splitOn_eq_singleton hdot
      rw [List.append_nil, List.append_nil, hlabels, dnsEncodeLabels, hread, ok_bind,
        if_pos (.inr rfl), hput]
      by_cases hfits : IsLabel part ∧ (encodeLabel part).length ≤ tail.length
      · rw [if_pos hfits, ok_bind]
        refine encoded_cons hfits.1 hfits.2 ?_
        simp [Encoded]
        rfl
      · rw [if_neg hfits]
        exact encoded_of_not hfits
  | cons c rest ih =>
      have hc : c ≠ 0 := fun h => hnul (h ▸ List.mem_cons_self)
      have hrest : 0 ∉ rest := fun h => hnul (List.mem_cons_of_mem c h)
      rw [List.length_cons] at hhost hfront
      have hmemory : before ++ part ++ c :: rest ++ 0 :: after =
          before ++ part ++ c :: (rest ++ 0 :: after) := by
        rw [List.append_assoc, List.cons_append]
      have hread := readAt_append (before ++ part) c (rest ++ 0 :: after) List.length_append
      have hnext : sizeAdd (before.length + part.length) 1 = before.length + part.length + 1 :=
        sizeAdd_of_le (by unfold sizeMax; omega)
      rw [List.length_cons, hmemory, dnsEncodeLabels, hread, ok_bind, hnext]
      by_cases hsep : c = 46
      · subst hsep
        have hput := dnsPutLabel_eq before part (46 :: (rest ++ 0 :: after)) front tail (by omega)
          (by omega)
        have hlabels : hostLabels (part ++ 46 :: rest) = part :: hostLabels rest :=
          List.splitOn_append_cons_self_of_not_mem hdot rest
        rw [hlabels, if_pos (.inl rfl), hput]
        by_cases hfits : IsLabel part ∧ (encodeLabel part).length ≤ tail.length
        · rw [if_pos hfits, ok_bind]
          dsimp only
          rw [if_neg hc]
          have hlater := @ih hrest (before ++ part ++ [46]) [] (front ++ encodeLabel part)
            (tail.drop (encodeLabel part).length) (List.not_mem_nil)
            (by simp; omega) (by simp [length_encodeLabel]; omega)
          refine encoded_cons hfits.1 hfits.2 ?_
          simpa [Nat.add_assoc] using hlater
        · rw [if_neg hfits]
          exact encoded_of_not hfits
      · have hlater := @ih hrest before (part ++ [c]) front tail (by simp [hdot, Ne.symm hsep])
          (by simp; omega) (by simp; omega)
        rw [if_neg (not_or.2 ⟨hsep, hc⟩)]
        simpa [Nat.add_assoc] using hlater

/-- The four writes to the header leave the zeros of `memset` behind them. -/
theorem dnsHeader_written (id : BitVec 16) {n : ℕ} (h : dnsHeaderLen ≤ n) :
    writeFields (List.replicate n 0)
        [(0, writeU16Be id), (2, [0x01]), (3, [0x00]), (4, writeU16Be 1)] =
      .ok (DnsHeader.encode ⟨id, 0x0100, 1, 0, 0, 0⟩ ++ List.replicate (n - 12) 0) := by
  obtain ⟨k, rfl⟩ : ∃ k, n = k + 12 := ⟨n - 12, (Nat.sub_add_cancel h).symm⟩
  have hfields : Adjacent ([] : List UInt8).length
      [(0, writeU16Be id), (2, [0x01]), (3, [0x00]), (4, writeU16Be 1)] := by
    simp [Adjacent]
  have hwritten := @writeFields_append UInt8 [] (List.replicate (k + 12) 0) _ hfields (by simp)
  rw [List.nil_append] at hwritten
  rw [hwritten, Nat.add_sub_cancel]
  simp only [List.flatMap_cons, List.flatMap_nil, DnsHeader.encode, List.drop_replicate]
  rfl

/-- The question behind the labels. -/
theorem dnsQuestion_written (front : List UInt8) (k : ℕ) (hfront : front.length ≤ 300) : (do
      let buffer ← writeAt (front ++ List.replicate (k + 5) 0) front.length 0
      let offset := sizeAdd front.length 1
      let buffer ← writeRange buffer offset (writeU16Be dnsTypeA)
      let offset := sizeAdd offset 2
      let buffer ← writeRange buffer offset (writeU16Be dnsClassIn)
      let offset := sizeAdd offset 2
      return (offset, buffer) : Checked (ℕ × List UInt8)) =
    .ok (front.length + 5, front ++ [0] ++ writeU16Be dnsTypeA ++ writeU16Be dnsClassIn ++
      List.replicate k 0) := by
  have hone : sizeAdd front.length 1 = front.length + 1 :=
    sizeAdd_of_le (by unfold sizeMax; omega)
  have hthree : sizeAdd (front.length + 1) 2 = front.length + 3 :=
    sizeAdd_of_le (by unfold sizeMax; omega)
  have hfive : sizeAdd (front.length + 3) 2 = front.length + 5 :=
    sizeAdd_of_le (by unfold sizeMax; omega)
  have hzero : List.replicate (k + 5) (0 : UInt8) = 0 :: List.replicate (k + 4) 0 := rfl
  simp only [hone, hthree, hfive]
  rw [hzero, writeAt_append rfl, ok_bind, writeRange_append (by simp) (by simp), ok_bind,
    writeRange_append (by simp) (by simp), ok_bind]
  simp [List.drop_replicate]
  rfl

/-- What is left of the function behind its checks. -/
theorem dnsBuildAQuery_checked {buffer : List UInt8} (id : BitVec 16) {host : List UInt8}
    (hnul : 0 ∉ host) (after : List UInt8) (hlen : 1 ≤ host.length ∧ host.length ≤ 253)
    (hbuffer : dnsHeaderLen ≤ buffer.length) :
    dnsBuildAQuery buffer id (host ++ 0 :: after) =
      (dnsEncodeLabels (host ++ 0 :: after) (host.length + 1) 0 0 dnsHeaderLen
        (DnsHeader.encode ⟨id, 0x0100, 1, 0, 0, 0⟩ ++ List.replicate (buffer.length - 12) 0) >>=
      fun
        | (none, buffer) => return (0, buffer)
        | (some offset, buffer) =>
            if sizeAdd (sizeAdd offset 1) 4 > buffer.length then return (0, buffer)
            else do
              let buffer ← writeAt buffer offset 0
              let offset := sizeAdd offset 1
              let buffer ← writeRange buffer offset (writeU16Be dnsTypeA)
              let offset := sizeAdd offset 2
              let buffer ← writeRange buffer offset (writeU16Be dnsClassIn)
              let offset := sizeAdd offset 2
              return (offset, buffer)) := by
  obtain ⟨first, rest, rfl⟩ := List.exists_cons_of_length_pos hlen.1
  have hfirst : ¬(first = 0 ∨ buffer.length < dnsHeaderLen) := by
    rintro (rfl | hshort)
    · exact hnul List.mem_cons_self
    · omega
  have hstrlen := @strlen_append [] (first :: rest) hnul after 0 rfl
  rw [List.nil_append] at hstrlen
  have hmemset : writeRange buffer 0 (List.replicate buffer.length 0) =
      .ok (List.replicate buffer.length 0) := by
    rw [writeRange_of_le (by simp)]
    simp
  have hread : readAt (first :: rest ++ 0 :: after) 0 = .ok first := rfl
  unfold dnsBuildAQuery
  rw [hread, ok_bind, if_neg hfirst, hstrlen, ok_bind, if_neg (by omega), hmemset, ok_bind,
    dnsHeader_written id hbuffer, ok_bind]

/-- What the checks refuse. -/
theorem dnsBuildAQuery_refused {buffer : List UInt8} (id : BitVec 16) {host : List UInt8}
    (hnul : 0 ∉ host) (after : List UInt8)
    (h : (host.length = 0 ∨ buffer.length < dnsHeaderLen) ∨ host.length > 253) :
    dnsBuildAQuery buffer id (host ++ 0 :: after) = .ok (0, buffer) := by
  cases host with
  | nil => rfl
  | cons first rest =>
      have hread : readAt (first :: rest ++ 0 :: after) 0 = .ok first := rfl
      have hstrlen := @strlen_append [] (first :: rest) hnul after 0 rfl
      rw [List.nil_append] at hstrlen
      unfold dnsBuildAQuery
      rw [hread, ok_bind]
      by_cases hbuffer : buffer.length < dnsHeaderLen
      · rw [if_pos (.inr hbuffer)]
        rfl
      · have hfirst : ¬(first = 0 ∨ buffer.length < dnsHeaderLen) :=
          not_or.2 ⟨fun hzero => hnul (hzero ▸ List.mem_cons_self), hbuffer⟩
        have hlong : (first :: rest).length > 253 :=
          h.resolve_left (not_or.2 ⟨by simp, hbuffer⟩)
        rw [if_neg hfirst, hstrlen, ok_bind, if_pos (.inr hlong)]
        rfl

/-- **The encoder.**  A host name that fits is encoded, and anything else is refused. -/
theorem dnsBuildAQuery_eq (buffer : List UInt8) (id : BitVec 16) {host : List UInt8}
    (hnul : 0 ∉ host) (after : List UInt8) :
    if IsHostName host ∧ host.length + 18 ≤ buffer.length then
      dnsBuildAQuery buffer id (host ++ 0 :: after) = .ok (host.length + 18,
        dnsQuery id host ++ List.replicate (buffer.length - (host.length + 18)) 0)
    else ∃ left, dnsBuildAQuery buffer id (host ++ 0 :: after) = .ok (0, left) ∧
      left.length = buffer.length := by
  by_cases hchecks : (host.length = 0 ∨ buffer.length < dnsHeaderLen) ∨ host.length > 253
  · have hnot : ¬(IsHostName host ∧ host.length + 18 ≤ buffer.length) := by
      rintro ⟨⟨⟨hpos, hle⟩, -⟩, hroom⟩
      unfold dnsHeaderLen at hchecks
      omega
    rw [if_neg hnot]
    exact ⟨buffer, dnsBuildAQuery_refused id hnul after hchecks, rfl⟩
  obtain ⟨⟨hpos, hbuffer⟩, hlong⟩ : (¬host.length = 0 ∧ ¬buffer.length < dnsHeaderLen) ∧
      ¬host.length > 253 := by rwa [not_or, not_or] at hchecks
  have hlen : 1 ≤ host.length ∧ host.length ≤ 253 :=
    ⟨Nat.pos_of_ne_zero hpos, Nat.le_of_not_lt hlong⟩
  have hroom : 12 ≤ buffer.length := Nat.le_of_not_lt hbuffer
  have hcode := length_hostLabels host
  obtain ⟨header, hheader⟩ : ∃ header, header = DnsHeader.encode ⟨id, 0x0100, 1, 0, 0, 0⟩ :=
    ⟨_, rfl⟩
  have hheaderLen : header.length = 12 := by
    rw [hheader]
    rfl
  have hloop := @dnsEncodeLabels_encoded host after hnul [] [] header
    (List.replicate (buffer.length - 12) 0) List.not_mem_nil (by simp; omega) (by simp; omega)
  simp only [List.nil_append, List.length_nil, Nat.add_zero, hheaderLen, Encoded,
    List.length_replicate, hcode, List.length_append] at hloop
  rw [dnsBuildAQuery_checked id hnul after hlen hroom, ← hheader, dnsHeaderLen]
  by_cases hlabels : (∀ label ∈ hostLabels host, IsLabel label) ∧
      host.length + 1 ≤ buffer.length - 12
  · rw [if_pos hlabels] at hloop
    rw [hloop, ok_bind]
    dsimp only
    have hfront : (header ++ (hostLabels host).flatMap encodeLabel).length =
        12 + (host.length + 1) := by
      rw [List.length_append, hheaderLen, hcode]
    have hsum : sizeAdd (sizeAdd (12 + (host.length + 1)) 1) 4 = host.length + 18 := by
      have hone : sizeAdd (12 + (host.length + 1)) 1 = host.length + 14 :=
        (sizeAdd_of_le (by unfold sizeMax; omega)).trans (by omega)
      rw [hone]
      exact sizeAdd_of_le (by unfold sizeMax; omega)
    have hwhole : (header ++ (hostLabels host).flatMap encodeLabel ++
        (List.replicate (buffer.length - 12) 0).drop (host.length + 1)).length =
          buffer.length := by
      rw [List.length_append, hfront, List.length_drop, List.length_replicate]
      omega
    rw [hsum, hwhole]
    by_cases hfits : host.length + 18 ≤ buffer.length
    · have htail : (List.replicate (buffer.length - 12) (0 : UInt8)).drop (host.length + 1) =
          List.replicate (buffer.length - (host.length + 18) + 5) 0 := by
        rw [List.drop_replicate]
        exact congrArg (List.replicate · 0) (by omega)
      have hquestion := dnsQuestion_written (header ++ (hostLabels host).flatMap encodeLabel)
        (buffer.length - (host.length + 18)) (by omega)
      rw [if_pos ⟨⟨hlen, hlabels.1⟩, hfits⟩, if_neg (Nat.not_lt_of_le hfits), htail, ← hfront,
        hquestion, hfront, hheader]
      refine congrArg Except.ok (Prod.ext ?_ rfl)
      omega
    · rw [if_neg fun h => hfits h.2, if_pos (Nat.lt_of_not_le hfits)]
      exact ⟨_, rfl, hwhole⟩
  · rw [if_neg hlabels] at hloop
    obtain ⟨left, hresult, hleft⟩ := hloop
    have hnot : ¬(IsHostName host ∧ host.length + 18 ≤ buffer.length) := by
      rintro ⟨⟨-, hall⟩, hfits⟩
      exact hlabels ⟨hall, by omega⟩
    rw [if_neg hnot, hresult, ok_bind]
    exact ⟨left, rfl, by omega⟩

/-! ### Reading what was built -/

/-- Every label takes two bytes at least. -/
theorem two_mul_length_le {labels : List (List UInt8)} (h : ∀ label ∈ labels, IsLabel label) :
    2 * labels.length ≤ (labels.flatMap encodeLabel).length := by
  induction labels with
  | nil => simp
  | cons label labels ih =>
      obtain ⟨hlabel, hlabels⟩ := List.forall_mem_cons.1 h
      have hrest := ih hlabels
      have hpos := hlabel.1
      rw [List.length_cons, List.flatMap_cons, List.length_append, length_encodeLabel]
      omega

/-- The name that is read is that of the host. -/
def IsHostName.name {host : List UInt8} (h : IsHostName host) : DnsName where
  labels := hostLabels host
  ending := .root
  labels_le := by
    have hcount := two_mul_length_le h.2
    have hle := h.1.2
    rw [length_hostLabels] at hcount
    omega
  isLabel := h.2

/-- The name takes a length for each dot, one for the first label, and the zero byte. -/
theorem IsHostName.length_name {host : List UInt8} (h : IsHostName host) :
    h.name.encode.length = host.length + 2 := by
  change ((hostLabels host).flatMap encodeLabel ++ [0]).length = _
  rw [List.length_append, length_hostLabels]
  rfl

/-- The question of the query. -/
def IsHostName.question {host : List UInt8} (h : IsHostName host) : DnsQuestion where
  name := h.name
  typeAndClass := writeU16Be dnsTypeA ++ writeU16Be dnsClassIn
  length_eq := rfl

/-- The query is a header and a question, and setting QR changes the flags only. -/
theorem IsHostName.query_eq {host : List UInt8} (h : IsHostName host) (id : BitVec 16) :
    dnsQuery id host = DnsHeader.encode ⟨id, 0x0100, 1, 0, 0, 0⟩ ++ h.question.encode ∧
      (dnsQuery id host).set 2 ((dnsQuery id host).getD 2 0 ||| 0x80) =
        DnsHeader.encode ⟨id, 0x8100, 1, 0, 0, 0⟩ ++ h.question.encode := by
  have hquery : dnsQuery id host =
      DnsHeader.encode ⟨id, 0x0100, 1, 0, 0, 0⟩ ++ h.question.encode := by
    simp only [dnsQuery, question, DnsQuestion.encode, DnsName.encode, name, DnsNameEnd.encode,
      List.append_assoc]
  have hflags : writeU16Be 0x0100 = [0x01, 0x00] := by decide
  have hqr : writeU16Be 0x8100 = [0x01 ||| 0x80, 0x00] := by decide
  refine ⟨hquery, ?_⟩
  simp only [hquery, DnsHeader.encode, hflags, hqr]
  rfl

/-- **`dns_skip_name`** finds the end of the name. -/
theorem IsHostName.skipName {host : List UInt8} (h : IsHostName host) (id : BitVec 16) :
    (dnsSkipName (dnsQuery id host) 12).run = .ok (some (host.length + 14)) := by
  have hlen := length_dnsQuery id host
  have hle := h.1.2
  have hprefix : h.name.encode <+: (dnsQuery id host).drop 12 := by
    rw [(h.query_eq id).1]
    exact List.prefix_append h.name.encode h.question.typeAndClass
  have hdata : (dnsQuery id host).length ≤ maxObjectLen := by
    unfold maxObjectLen
    omega
  refine ((dnsSkipName_parses hdata (by omega)).2 _).2 ⟨_, hprefix, ⟨h.name, rfl⟩, ?_⟩
  rw [h.length_name]
  omega

/-- **`dns_parse_response`** accepts the query as a response, and finds no answer. -/
theorem IsHostName.parseResponse {host : List UInt8} (h : IsHostName host) (id : BitVec 16)
    (response : DnsResponse) : ∃ left,
      dnsParseResponse ((dnsQuery id host).set 2 ((dnsQuery id host).getD 2 0 ||| 0x80)) id
        response = .ok (0, left) ∧ left.answerCount = 0 := by
  have hlen := length_dnsQuery id host
  have hle := h.1.2
  have hdata : ((dnsQuery id host).set 2 ((dnsQuery id host).getD 2 0 ||| 0x80)).length ≤
      maxObjectLen := by
    rw [List.length_set]
    unfold maxObjectLen
    omega
  rw [(h.query_eq id).2] at hdata ⊢
  have hqr : (0x8100#16 &&& 0x8000#16) ≠ 0 := by decide
  have haccepted : DnsHeader.Accepted ⟨id, 0x8100, 1, 0, 0, 0⟩
      (DnsHeader.encode ⟨id, 0x8100, 1, 0, 0, 0⟩ ++ h.question.encode) id :=
    ⟨List.prefix_append _ _, rfl, hqr⟩
  have hcounts : DnsHeader.Counts ⟨id, 0x8100, 1, 0, 0, 0⟩
      (DnsHeader.encode ⟨id, 0x8100, 1, 0, 0, 0⟩ ++ h.question.encode) [h.question] [] := by
    refine ⟨rfl, rfl, ?_⟩
    simp only [List.flatMap_cons, List.flatMap_nil, List.append_nil]
    exact List.prefix_rfl
  obtain ⟨left, hparse, hcollected⟩ := dnsParseResponse_of_counts hdata haccepted hcounts response
  exact ⟨left, hparse, hcollected.count⟩

/-- The lengths in front of the labels tell where each of them ends. -/
theorem flatMap_encodeLabel_inj {labels labels' : List (List UInt8)} {t t' : List UInt8}
    (h : ∀ label ∈ labels, IsLabel label) (h' : ∀ label ∈ labels', IsLabel label)
    (heq : labels.flatMap encodeLabel ++ 0 :: t = labels'.flatMap encodeLabel ++ 0 :: t') :
    labels = labels' := by
  have hzero : ∀ label, IsLabel label → UInt8.ofNat label.length ≠ 0 := by
    intro label hlabel hnot
    have hlen := hlabel.toNat
    have hpos := hlabel.1
    rw [hnot] at hlen
    exact absurd hlen (Nat.ne_of_lt hpos)
  induction labels generalizing labels' with
  | nil =>
      cases labels' with
      | nil => rfl
      | cons label' labels' =>
          exact absurd (List.cons.inj heq).1.symm (hzero label' (h' label' List.mem_cons_self))
  | cons label labels ih =>
      obtain ⟨hlabel, hlabels⟩ := List.forall_mem_cons.1 h
      cases labels' with
      | nil => exact absurd (List.cons.inj heq).1 (hzero label hlabel)
      | cons label' labels' =>
          obtain ⟨hlabel', hlabels'⟩ := List.forall_mem_cons.1 h'
          rw [List.flatMap_cons, List.flatMap_cons, encodeLabel, encodeLabel, List.cons_append,
            List.cons_append, List.cons_append, List.cons_append] at heq
          obtain ⟨hfirst, hrest⟩ := List.cons.inj heq
          have hlen : label.length = label'.length := by
            rw [← hlabel.toNat, ← hlabel'.toNat, hfirst]
          rw [List.append_assoc, List.append_assoc] at hrest
          obtain ⟨rfl, hlater⟩ := List.append_inj hrest hlen
          rw [ih hlabels hlabels' hlater]

/-- **Different queries** for different transactions and host names. -/
theorem dnsQuery_inj {id id' : BitVec 16} {host host' : List UInt8} (h : IsHostName host)
    (h' : IsHostName host') (heq : dnsQuery id host = dnsQuery id' host') :
    id = id' ∧ host = host' := by
  simp only [dnsQuery, List.append_assoc] at heq
  obtain ⟨hheader, hrest⟩ := List.append_inj heq rfl
  refine ⟨?_, ?_⟩
  · simp only [DnsHeader.encode, writeU16Be, List.cons_append, List.nil_append,
      List.cons.injEq] at hheader
    rw [← u16Be_writeU16Be id, hheader.1, hheader.2.1, u16Be_writeU16Be]
  · have hlabels := flatMap_encodeLabel_inj h.2 h'.2 hrest
    calc host = [46].intercalate (hostLabels host) := (List.intercalate_splitOn 46).symm
      _ = [46].intercalate (hostLabels host') := by rw [hlabels]
      _ = host' := List.intercalate_splitOn 46

/-- **`dns_build_a_query` encodes the host names that fit**, and nothing else, into the buffer; what
it builds is read back by `dns_skip_name` and, with QR set, by `dns_parse_response`; and different
transactions and host names have different queries. -/
theorem dnsBuildAQuery_decides :
    (∀ (buffer : List UInt8) (id : BitVec 16) (host after : List UInt8), 0 ∉ host →
      ∃ result left, dnsBuildAQuery buffer id (host ++ 0 :: after) = .ok (result, left) ∧
        left.length = buffer.length ∧
        (result ≠ 0 ↔ ((1 ≤ host.length ∧ host.length ≤ 253) ∧
          ∀ label ∈ host.splitOn 46, 1 ≤ label.length ∧ label.length ≤ 63) ∧
            host.length + 18 ≤ buffer.length) ∧
        (result ≠ 0 → result = host.length + 18 ∧ left.take result = dnsQuery id host)) ∧
    (∀ (id : BitVec 16) (host : List UInt8), IsHostName host →
      (dnsSkipName (dnsQuery id host) 12).run = .ok (some (host.length + 14)) ∧
      ∀ response, ∃ left, dnsParseResponse
          ((dnsQuery id host).set 2 ((dnsQuery id host).getD 2 0 ||| 0x80)) id response =
        .ok (0, left) ∧ left.answerCount = 0) ∧
    ∀ (id id' : BitVec 16) (host host' : List UInt8), IsHostName host → IsHostName host' →
      dnsQuery id host = dnsQuery id' host' → id = id' ∧ host = host' := by
  refine ⟨fun buffer id host after hnul => ?_,
    fun id host h => ⟨h.skipName id, h.parseResponse id⟩,
    fun id id' host host' h h' heq => dnsQuery_inj h h' heq⟩
  have hbuild := dnsBuildAQuery_eq buffer id hnul after
  by_cases hfits : IsHostName host ∧ host.length + 18 ≤ buffer.length
  · rw [if_pos hfits] at hbuild
    refine ⟨_, _, hbuild, ?_, ⟨fun _ => hfits, fun _ => Nat.succ_ne_zero _⟩, fun _ => ⟨rfl, ?_⟩⟩
    · rw [List.length_append, length_dnsQuery, List.length_replicate]
      omega
    · rw [← length_dnsQuery id host, List.take_left]
  · rw [if_neg hfits] at hbuild
    obtain ⟨left, hresult, hlen⟩ := hbuild
    exact ⟨0, left, hresult, hlen, ⟨fun h => absurd rfl h, fun h => absurd h hfits⟩,
      fun h => absurd rfl h⟩

/-- The host name of 127 labels, the most there can be. -/
def longestHost : List UInt8 := 97 :: (List.replicate 126 [46, 97]).flatten

theorem dnsBuildAQuery_decides_longestHost :
    (∃ result left, dnsBuildAQuery (List.replicate 512 0) 0x1234 (longestHost ++ 0 :: []) =
        .ok (result, left) ∧ result = 271 ∧ left.take result = dnsQuery 0x1234 longestHost) ∧
      (dnsSkipName (dnsQuery 0x1234 longestHost) 12).run = .ok (some 267) := by
  have hhost : IsHostName longestHost := by decide +kernel
  have hlen : longestHost.length = 253 := by decide +kernel
  obtain ⟨result, left, hbuild, -, hiff, hresult⟩ := dnsBuildAQuery_decides.1
    (List.replicate 512 0) 0x1234 longestHost [] (by decide +kernel)
  have hroom : longestHost.length + 18 ≤ (List.replicate 512 (0 : UInt8)).length := by
    rw [hlen, List.length_replicate]
    decide
  have hvalue := hresult (hiff.2 ⟨hhost, hroom⟩)
  have hskip := (dnsBuildAQuery_decides.2.1 0x1234 longestHost hhost).1
  rw [hlen] at hvalue hskip
  exact ⟨⟨result, left, hbuild, hvalue⟩, hskip⟩

end Netstack
