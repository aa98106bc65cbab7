/-
# What a report depends on

`print_http_response` is given the array that `append_response` has filled, and the number of bytes
that were received into it.  The array can be larger: behind the zero that ends the bytes it has
whatever `malloc` and `realloc` left there, and a zero can be among the bytes as well.

The functions of `string.h` look for the first zero, and the others count.  Neither leads beyond
the bytes, whatever these are, so that every access is within its array.  The decoder writes before
it reads, so that the memory it is given has no influence either: the report is one on the bytes,
and on whether `malloc` gave an array for the decoded body (`printHttpResponse_settled`).
-/

import Netstack.Http.Report
import Netstack.Http.TransferEncoding

namespace Netstack

/-- The string that received bytes begin with. -/
def stringOf (bytes : List UInt8) : List UInt8 := bytes.takeWhile (· ≠ 0)

theorem length_stringOf_le (bytes : List UInt8) : (stringOf bytes).length ≤ bytes.length :=
  (List.takeWhile_prefix _).length_le

/-- The string ends at the latest behind the bytes. -/
theorem cString_received (bytes after : List UInt8) :
    cString (bytes ++ 0 :: after) 0 = .ok (stringOf bytes) := by
  have htake : (bytes ++ 0 :: after).takeWhile (· ≠ 0) = stringOf bytes := by
    induction bytes with
    | nil => simp [stringOf]
    | cons c bytes ih =>
        unfold stringOf at ih ⊢
        rw [List.cons_append, List.takeWhile_cons, List.takeWhile_cons, ih]
  have hlen := length_stringOf_le bytes
  unfold cString
  dsimp only
  rw [List.drop_zero, htake, if_pos]
  rw [List.length_append, List.length_cons]
  omega

/-! ### The parser -/

section Parser

variable {ι : Sort*} {bytes : List UInt8} {rest : ι → List UInt8} {response₀ : HttpResponse}

theorem strstr_received (needle after : List UInt8) :
    strstr (bytes ++ 0 :: after) 0 needle = .ok (findString needle (stringOf bytes)) := by
  rw [strstr_eq (cString_received bytes after) (Nat.zero_le _), List.drop_zero]
  simp

/-- `strtol` stops at the terminating zero at the latest, so that what is behind it plays no
part. -/
theorem settled_strtol {i : ℕ} (hi : i ≤ (stringOf bytes).length) :
    Settled fun k => strtol (bytes ++ 0 :: rest k) i := by
  have hstring : ∀ k, cString (bytes ++ 0 :: rest k) i = .ok ((stringOf bytes).drop i) := by
    intro k
    have hdrop := cString_drop (cString_received bytes (rest k)) hi
    rwa [Nat.zero_add] at hdrop
  unfold strtol
  refine .bind hstring ?_
  dsimp only
  exact .ite (fun _ => .pure _) fun _ => .pure _

/-- The text behind the status code is in the first line. -/
theorem settled_copyStatusText {endptr lineEnd : ℕ} (hline : lineEnd ≤ bytes.length) :
    Settled fun k => httpCopyStatusText (bytes ++ 0 :: rest k) HttpResponse.zeroed.statusText endptr
      lineEnd := by
  have hroom : HttpResponse.zeroed.statusText.length = 64 := rfl
  unfold httpCopyStatusText
  refine .ite (fun hbefore => ?_) fun _ => .pure _
  have hread : ∀ k, readAt (bytes ++ 0 :: rest k) endptr = .ok bytes[endptr] := fun k => by
    rw [readAt_append_left (by omega), readAt_of_lt]
  refine .bind hread (.ite (fun _ => ?_) fun _ => .pure _)
  · dsimp only
    rw [hroom]
    generalize hlen : (if lineEnd - (endptr + 1) ≥ 64 then 64 - 1 else lineEnd - (endptr + 1)) = n
    have hn : n ≤ 63 ∧ endptr + 1 + n ≤ lineEnd := by
      split_ifs at hlen <;> omega
    have hread : ((bytes.drop (endptr + 1)).take n).length = n := by
      rw [List.length_take, List.length_drop]
      omega
    refine .bind (fun k => readRange_append_left (by omega)) ?_
    refine .bind (fun k => writeRange_of_le (by rw [hroom, hread]; omega)) ?_
    refine ⟨_, fun k => writeAt_of_lt ?_ _⟩
    rw [List.length_append, List.length_append, List.length_take, List.length_drop, hread, hroom]
    omega

/-- The same for the search for the end of the headers, which is a `strstr`. -/
theorem settled_findBody :
    Settled fun k => httpFindBody (bytes ++ 0 :: rest k) bytes.length response₀ := by
  unfold httpFindBody
  refine .bind (fun k => strstr_received _ (rest k)) ?_
  cases findString (crLf ++ crLf) (stringOf bytes) with
  | none => exact .pure _
  | some headerEnd => exact .ite (fun _ => .pure _) fun _ => .pure _

/-- **`http_parse_response`** answers by the bytes. -/
theorem settled_parseResponse (hne : bytes ≠ []) {response₀ : ι → HttpResponse} :
    Settled fun k => httpParseResponse (bytes ++ 0 :: rest k) bytes.length (response₀ k) := by
  have hlen : bytes.length ≠ 0 := mt List.length_eq_zero_iff.1 hne
  have hstring := length_stringOf_le bytes
  unfold httpParseResponse
  refine .ite (fun h => absurd h hlen) fun _ => ?_
  refine .bind (fun k => strstr_received _ (rest k)) ?_
  cases hline : findString crLf (stringOf bytes) with
  | none => exact .pure _
  | some lineEnd =>
      have hend := (findString_eq_some_iff.1 hline).1
      refine .ite (fun _ => .pure _) fun hshort => ?_
      have hversion : ∀ k, strncmpEq (bytes ++ 0 :: rest k) 0 httpVersionStart =
          .ok (decide (httpVersionStart <+: bytes)) := by
        intro k
        have hfive : httpVersionStart.length = 5 := rfl
        rw [strncmpEq_of_le (by rw [List.length_append, hfive]; omega), List.drop_zero]
        refine congrArg Except.ok (decide_eq_decide.2 ⟨fun h => ?_, fun h => ?_⟩)
        · exact List.prefix_of_prefix_length_le h (List.prefix_append ..) (by omega)
        · exact h.trans (List.prefix_append ..)
      refine .bind hversion (.ite (fun _ => .pure _) fun _ => ?_)
      have hspace : ∀ k, strchr (bytes ++ 0 :: rest k) 0 32 =
          .ok (findString [32] (stringOf bytes)) := by
        intro k
        rw [strchr, cString_received, ok_bind]
        simp [pure, Except.pure]
      refine .bind hspace ?_
      cases findString [32] (stringOf bytes) with
      | none => exact .pure _
      | some space =>
          refine .ite (fun _ => .pure _) fun hbefore => ?_
          have hnumber : space + 1 ≤ (stringOf bytes).length := by omega
          have hstatus : Settled fun k => strtol (bytes ++ 0 :: rest k) (space + 1) :=
            settled_strtol hnumber
          obtain ⟨⟨status, endptr⟩, hstatus⟩ := hstatus
          refine .bind hstatus (.ite (fun _ => .pure _) fun _ => ?_)
          have htext : Settled fun k => httpCopyStatusText (bytes ++ 0 :: rest k)
              HttpResponse.zeroed.statusText endptr lineEnd :=
            settled_copyStatusText (hend.trans hstring)
          obtain ⟨text, htext⟩ := htext
          exact .bind htext settled_findBody

end Parser

/-! ### The report -/

/-- The computations return the same report, and where `malloc` gives no array of some size perhaps
another one, which is a failure. -/
def ReportsAlike {ι : Sort*} (malloc : ι → ℕ → Option (List UInt8))
    (computation : ι → Checked HttpReport) : Prop :=
  ∃ size report failed, (failed = report ∨ failed.returned = -1) ∧
    ∀ k, computation k = .ok (if (malloc k size).isSome then report else failed)

/-- What is settled does not depend on `malloc`. -/
theorem Settled.reportsAlike {ι : Sort*} {computation : ι → Checked HttpReport}
    (h : Settled computation) (malloc : ι → ℕ → Option (List UInt8)) :
    ReportsAlike malloc computation := by
  obtain ⟨report, hreport⟩ := h
  exact ⟨0, report, report, Or.inl rfl, fun k => by rw [hreport k, ite_self]⟩

section Report

variable {ι : Sort*} {malloc : ι → ℕ → Option (List UInt8)} {bytes : List UInt8}
  {rest : ι → List UInt8} {response : HttpResponse}

/-- The decoder makes the same of a body in every array that has room for it: what it returns as
decoded is what the body is an encoding of, or nothing. -/
theorem exists_decoded {body : List UInt8} (hbody : body.length < maxObjectLen) :
    ∃ data : List UInt8, ∀ decoded : List UInt8, decoded.length = body.length + 1 →
      ∃ left, httpDecodeChunkedBody body decoded = .ok (data.length, left) ∧
        readRange left 0 data.length = .ok data := by
  have hunique : ∀ line m n, IsJoinedSize line m → IsJoinedSize line n → m = n :=
    fun _ _ _ => IsJoinedSize.unique
  have hcomplete : ∀ decoded : List UInt8, decoded.length = body.length + 1 → _ := fun decoded h =>
    httpDecodeChunkedBody_complete hbody.le (by omega : decoded.length ≤ maxObjectLen) (by omega)
  by_cases hencoding : ∃ data, IsChunkedEncoding IsJoinedSize body data
  · obtain ⟨data, hdata⟩ := hencoding
    refine ⟨data, fun decoded hlength => ?_⟩
    rcases hcomplete decoded hlength with ⟨data', left, hdata', hrun, hleft⟩ | ⟨hnone, -⟩
    · obtain rfl := hdata.unique hunique hdata'
      have hroom := congrArg List.length hleft
      rw [List.length_take] at hroom
      refine ⟨left, hrun, ?_⟩
      rw [readRange_of_le (by omega), List.drop_zero, hleft]
    · exact absurd hdata (hnone data)
  · refine ⟨[], fun decoded hlength => ?_⟩
    rcases hcomplete decoded hlength with ⟨data, -, hdata, -⟩ | ⟨-, left, hrun⟩
    · exact absurd ⟨data, hdata⟩ hencoding
    · exact ⟨left, hrun, readRange_of_le (Nat.zero_le _)⟩

/-- What is printed about a body that was decoded. -/
def decodedReport (bodyLen : ℕ) (data : List UInt8) : HttpReport :=
  ⟨[.text "\n--- BODY (chunked decoded) ---\n", .bytes data, .text "\n\nraw body: ",
    .number bodyLen, .text " bytes\ndecoded body: ", .number data.length, .text " bytes\n"], [], 0⟩

/-- **The report on a chunked body** is one on the body, or that there was no memory. -/
theorem exists_printChunkedBody {body : List UInt8} (hbody : body.length < maxObjectLen) :
    ∃ report, ∀ malloc, MayAllocate malloc → printChunkedBody malloc body =
      .ok (if (malloc (body.length + 1)).isSome then report else ⟨[], [], -1⟩) := by
  obtain ⟨data, hdecoded⟩ := exists_decoded hbody
  have hcapacity : sizeAdd body.length 1 = body.length + 1 :=
    sizeAdd_of_object hbody.le le_rfl (by omega)
  refine ⟨if data.length = 0 ∧ body.length > 5 then ⟨[], decodingFailed, -1⟩
    else decodedReport body.length data, fun malloc hmalloc => ?_⟩
  unfold printChunkedBody
  rw [hcapacity]
  cases hmemory : malloc (body.length + 1) with
  | none => rfl
  | some decoded =>
      obtain ⟨left, hrun, hread⟩ := hdecoded decoded (hmalloc _ _ hbody hmemory)
      dsimp only
      rw [hrun, ok_bind]
      dsimp only
      rw [hread, Option.isSome_some, if_pos rfl]
      split_ifs
      · rfl
      · rfl

/-- What is printed about an accepted response. -/
theorem reports_printAccepted [Nonempty ι] (hmalloc : ∀ k, MayAllocate (malloc k))
    {response₀ : ι → HttpResponse}
    (hobject : ∀ k, (bytes ++ 0 :: rest k).length ≤ maxObjectLen)
    (hparse : ∀ k, httpParseResponse (bytes ++ 0 :: rest k) bytes.length (response₀ k) =
      .ok (0, response)) :
    ReportsAlike malloc fun k =>
      printHttpResponse (malloc k) (response₀ k) (bytes ++ 0 :: rest k) bytes.length := by
  obtain ⟨k₀⟩ := ‹Nonempty ι›
  have hlen := hobject k₀
  rw [List.length_append, List.length_cons] at hlen
  obtain ⟨_, _, _, _, _, hheader, hoffset, hbodyLen, htext⟩ := httpParseResponse_accepted (hparse k₀)
  obtain ⟨first, lines, tail, hhead, hstring, -, hlength⟩ := exists_head (hobject k₀) (hparse k₀)
  have hall : ∀ k, cString (bytes ++ 0 :: rest k) 0 = .ok (headBytes first lines ++ tail) := fun k =>
    (cString_received bytes (rest k)).trans ((cString_received bytes (rest k₀)).symm.trans hstring)
  have hbodySize : response.bodyLen = bytes.length - response.headerLen := by
    unfold maxObjectLen at hlen
    rw [hbodyLen, sizeSub_of_le hheader (by unfold sizeMax; omega)]
  have hbody : ∀ k, readRange (bytes ++ 0 :: rest k) (response.body.getD 0) response.bodyLen =
      .ok (bytes.drop response.headerLen) := by
    intro k
    rw [hoffset, Option.getD_some, hbodySize, readRange_append_left (by omega), List.take_of_length_le]
    rw [List.length_drop]
  have hchunked : ∀ k, httpResponseIsChunked (bytes ++ 0 :: rest k) response.headerLen =
      .ok (firstAnswer (transferEncodings lines)) := fun k => by
    rw [hlength]
    exact httpResponseIsChunked_eq hhead (hall k)
  obtain ⟨statusText, hstatus⟩ := cString_of_mem htext
  by_cases hplain : firstAnswer (transferEncodings lines) ≠ 0
  swap
  · -- `malloc` is not called
    refine Settled.reportsAlike ?_ malloc
    unfold printHttpResponse
    refine .bind hparse (.ite (fun h => absurd rfl h) fun _ => ?_)
    refine .bind hchunked (.ite (fun _ => .pure _) fun _ => ?_)
    refine .bind (fun _ => hstatus) (.bind (fun k => readRange_append_left (by omega)) ?_)
    refine .bind hbody (.ite (fun h => absurd h hplain) fun _ => ?_)
    exact .bind (fun _ => rfl) (.pure _)
  obtain ⟨report, hreport⟩ := exists_printChunkedBody
    (by rw [List.length_drop]; omega : (bytes.drop response.headerLen).length < maxObjectLen)
  by_cases hnegative : firstAnswer (transferEncodings lines) < 0
  · refine Settled.reportsAlike ?_ malloc
    unfold printHttpResponse
    refine .bind hparse (.ite (fun h => absurd rfl h) fun _ => ?_)
    exact .bind hchunked (.ite (fun _ => .pure _) fun h => absurd hnegative h)
  have hhead : ∀ k, readRange (bytes ++ 0 :: rest k) 0 response.headerLen =
      .ok (bytes.take response.headerLen) := fun k => readRange_append_left (by omega)
  let head : List Printed := [.text "\nHTTP RESPONSE\nstatus: ", .number response.statusCode,
    .text " ", .bytes statusText, .text "\nheaders: ", .number response.headerLen, .text " bytes\n",
    .text "\n--- HEADERS ---\n", .bytes (bytes.take response.headerLen)]
  refine ⟨(bytes.drop response.headerLen).length + 1, { report with stdout := head ++ report.stdout },
    ⟨head ++ [], [], -1⟩, Or.inr rfl, fun k => ?_⟩
  unfold printHttpResponse
  dsimp only
  rw [hparse, ok_bind]
  dsimp only
  rw [if_neg (not_not.2 rfl), hchunked, ok_bind, if_neg hnegative, hstatus, ok_bind, hhead, ok_bind,
    hbody, ok_bind, if_pos hplain, hreport _ (hmalloc k), ok_bind]
  split_ifs
  · rfl
  · rfl

/-- **The report is settled by the bytes**, up to the outcome of `malloc`. The parser and the
test for the transfer encoding read a string; the decoder reads the body, which is inside of the
bytes, and only its output is in memory that `malloc` gave, every byte of which it writes before
it reads it. -/
theorem reports_printHttpResponse (bytes : List UInt8) :
    ReportsAlike (fun k : {malloc // MayAllocate malloc} × HttpResponse × {after : List UInt8 //
        (bytes ++ 0 :: after).length ≤ maxObjectLen} => k.1.1) fun k =>
      printHttpResponse k.1.1 k.2.1 (bytes ++ 0 :: k.2.2.1) bytes.length := by
  rcases isEmpty_or_nonempty ({malloc // MayAllocate malloc} × HttpResponse × {after : List UInt8 //
    (bytes ++ 0 :: after).length ≤ maxObjectLen}) with hnone | hsome
  · exact ⟨0, ⟨[], [], 0⟩, ⟨[], [], 0⟩, Or.inl rfl, fun k => hnone.elim k⟩
  by_cases hne : bytes = []
  · subst hne
    refine Settled.reportsAlike ?_ _
    exact ⟨⟨[], [.text "Could not parse HTTP response.\n"], -1⟩, fun _ => rfl⟩
  have hparsed : Settled fun k : {malloc // MayAllocate malloc} × HttpResponse ×
      {after : List UInt8 // (bytes ++ 0 :: after).length ≤ maxObjectLen} =>
      httpParseResponse (bytes ++ 0 :: k.2.2.1) bytes.length k.2.1 := settled_parseResponse hne
  obtain ⟨⟨result, response⟩, hparse⟩ := hparsed
  by_cases hresult : result = 0
  · subst hresult
    exact reports_printAccepted (fun k => k.1.2) (fun k => k.2.2.2) hparse
  · refine Settled.reportsAlike ?_ _
    exact .bind hparse (.ite (fun _ => .pure _) fun h => absurd hresult h)

/-- **The report is one on the received bytes**, and on whether there was memory for the decoded
body: whatever they are, every access is within its array, and neither what stands behind the bytes
nor what the variables were before nor what is in the memory from `malloc` has an influence. -/
theorem printHttpResponse_settled (bytes : List UInt8) :
    ∃ size report failed, (failed = report ∨ failed.returned = -1) ∧
      ∀ (malloc : ℕ → Option (List UInt8)) (response₀ : HttpResponse) (after : List UInt8),
        MayAllocate malloc → (bytes ++ 0 :: after).length ≤ maxObjectLen →
          printHttpResponse malloc response₀ (bytes ++ 0 :: after) bytes.length =
            .ok (if (malloc size).isSome then report else failed) := by
  obtain ⟨size, report, failed, hfailed, hreport⟩ := reports_printHttpResponse bytes
  exact ⟨size, report, failed, hfailed, fun malloc response₀ after hmalloc hobject =>
    hreport (⟨malloc, hmalloc⟩, response₀, ⟨after, hobject⟩)⟩

end Report

/-- A chunked response that ends with a zero in the middle of a line. -/
def brokenResponse : List UInt8 := chunkedHead ++ [49, 13, 10, 97, 13, 0]

theorem printHttpResponse_settled_broken :
    ∃ size report failed, (failed = report ∨ failed.returned = -1) ∧
      ∀ (malloc : ℕ → Option (List UInt8)) (response₀ : HttpResponse) (after : List UInt8),
        MayAllocate malloc → (brokenResponse ++ 0 :: after).length ≤ maxObjectLen →
          printHttpResponse malloc response₀ (brokenResponse ++ 0 :: after) brokenResponse.length =
            .ok (if (malloc size).isSome then report else failed) :=
  printHttpResponse_settled brokenResponse

end Netstack
