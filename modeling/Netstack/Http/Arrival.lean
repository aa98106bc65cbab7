/-
# Responses that arrive in parts

`tools/netstack_http.c` has the response in an array that grows with what is received and ends
with a zero (`append_response`), and gives it to `http_parse_response` with its length.  The
parser looks for the ends of lines in the string, and the string ends with the first zero, be it
in the body or the one behind what has arrived.  Neither matters: a head is taken at its length,
whatever body is behind it, and a part of a head is no response yet
(`httpParseResponse_arrival`).
-/

import Netstack.Http.StatusLine

namespace Netstack

/-- A complete head with its first line: no zero is in it, and it ends where its first empty line
does. -/
structure IsResponseHead (head line : List UInt8) (statusCode : ℤ) (statusText : List UInt8) :
    Prop where
  starts : line ++ crLf <+: head
  not_crLf : ¬crLf <:+: line
  long : 12 ≤ line.length
  status : IsStatusLine line statusCode statusText
  zero_notMem : 0 ∉ head
  ends : crLf ++ crLf <:+ head
  only_end : ∀ i, crLf ++ crLf <+: head.drop i → i + 4 = head.length

/-! ### The end of the headers -/

section FindBody

variable {data string : List UInt8} {dataLen headerEnd : ℕ} {response₀ : HttpResponse}

/-- Without the end of the headers in the string `-3` is returned, before anything is written. -/
theorem httpFindBody_none (hstring : cString data 0 = .ok string)
    (hnone : findString (crLf ++ crLf) string = none) :
    httpFindBody data dataLen response₀ = .ok (-3, response₀) := by
  rw [httpFindBody, strstr, hstring, ok_bind, hnone]
  rfl

/-- With it the body begins behind the four characters of the end, and its length is what the
caller counted less the head. -/
theorem httpFindBody_some (hstring : cString data 0 = .ok string)
    (hsome : findString (crLf ++ crLf) string = some headerEnd)
    (hlen : sizeAdd headerEnd 4 ≤ dataLen) :
    httpFindBody data dataLen response₀ = .ok (0, { response₀ with
      headerLen := sizeAdd headerEnd 4, body := some (sizeAdd headerEnd 4),
      bodyLen := sizeSub dataLen (sizeAdd headerEnd 4) }) := by
  have hfound : strstr data 0 (crLf ++ crLf) = .ok (some headerEnd) := by
    rw [strstr, hstring, ok_bind, hsome, Option.map_some, Nat.zero_add]
    rfl
  rw [httpFindBody, hfound, ok_bind]
  exact if_neg (not_lt.2 hlen)

end FindBody

/-! ### Heads and their parts -/

section Arrival

variable {head line statusText part : List UInt8} {statusCode : ℤ}

/-- The head ends where the search for the empty line ends. -/
theorem IsResponseHead.findString_append (h : IsResponseHead head line statusCode statusText)
    (rest : List UInt8) :
    ∃ headerEnd, headerEnd + 4 = head.length ∧
      findString (crLf ++ crLf) (head ++ rest) = some headerEnd := by
  obtain ⟨front, hfront⟩ := h.ends
  have hfour : (crLf ++ crLf).length = 4 := rfl
  have hlength : front.length + 4 = head.length := by
    rw [← hfront, List.length_append, hfour]
  refine ⟨front.length, hlength, findString_eq_some_iff.2 ⟨?_, ?_, fun i hi hpre => ?_⟩⟩
  · rw [List.length_append]
    omega
  · rw [← hfront, List.append_assoc, List.drop_left]
    exact List.prefix_append ..
  · have hwithin : crLf ++ crLf <+: head.drop i := by
      rw [List.drop_append_of_le_length (by omega)] at hpre
      refine List.prefix_of_prefix_length_le hpre (List.prefix_append ..) ?_
      rw [List.length_drop]
      omega
    have hend := h.only_end i hwithin
    omega

/-- In a part of a head there is no end of the headers. -/
theorem IsResponseHead.findString_part (h : IsResponseHead head line statusCode statusText)
    (hpart : part <+: head) (hne : part ≠ head) : findString (crLf ++ crLf) part = none := by
  cases hfound : findString (crLf ++ crLf) part with
  | none => rfl
  | some i =>
      obtain ⟨hi, hpre, -⟩ := findString_eq_some_iff.1 hfound
      have hlength := hpre.length_le
      have hend := h.only_end i (hpre.trans (hpart.drop i))
      have hshort : part.length < head.length :=
        lt_of_le_of_ne hpart.length_le fun heq => hne (hpart.eq_of_length heq)
      rw [List.length_drop] at hlength
      simp only [List.length_append, crLf, List.length_cons, List.length_nil] at hlength
      omega

/-- **A head with a body behind it** is split from it. -/
theorem IsResponseHead.parse_append (h : IsResponseHead head line statusCode statusText)
    {body after : List UInt8} (hobject : (head ++ body ++ 0 :: after).length ≤ maxObjectLen)
    (response₀ : HttpResponse) :
    httpParseResponse (head ++ body ++ 0 :: after) (head ++ body).length response₀ =
      .ok (0, ⟨statusCode, statusText, head.length, some head.length, body.length⟩) := by
  obtain ⟨string, after', hzero, hrest⟩ := exists_cString body after
  have hstring : cString (head ++ body ++ 0 :: after) 0 = .ok (head ++ string) := by
    refine cString_eq_ok_iff.2 ⟨?_, after', ?_⟩
    · rw [List.mem_append, not_or]
      exact ⟨h.zero_notMem, hzero⟩
    · rw [List.drop_zero, List.append_assoc, hrest, List.append_assoc]
  obtain ⟨tail, hhead⟩ := h.starts
  have hline : head ++ string = line ++ (crLf ++ (tail ++ string)) := by
    rw [← hhead]
    simp
  obtain ⟨headerEnd, hlength, hfound⟩ := h.findString_append string
  obtain ⟨_, _, hstatus⟩ := h.status.found h.not_crLf h.long (hline ▸ hstring)
  rw [List.length_append, List.length_append] at hobject
  have hadd : sizeAdd headerEnd 4 = head.length := by
    rw [sizeAdd_of_object hobject (by omega) (by omega), hlength]
  have hbodyLen : sizeSub (head ++ body).length head.length = body.length := by
    unfold maxObjectLen at hobject
    rw [List.length_append, sizeSub_of_le (by omega) (by unfold sizeMax; omega)]
    omega
  have hne : (head ++ body).length ≠ 0 := by
    rw [List.length_append]
    omega
  have hle : sizeAdd headerEnd 4 ≤ (head ++ body).length := by
    rw [hadd, List.length_append]
    omega
  rw [hstatus.parse_eq hne, httpFindBody_some hstring hfound hle, hadd, hbodyLen]

/-- **A part of a head** is no response yet, whatever the array has behind its end. -/
theorem IsResponseHead.parse_part (h : IsResponseHead head line statusCode statusText)
    (hpart : part <+: head) (hne : part ≠ head) (hnil : part ≠ []) (response₀ : HttpResponse) :
    ∃ result response, (result = -2 ∨ result = -3) ∧
      ∀ after, httpParseResponse (part ++ 0 :: after) part.length response₀ =
        .ok (result, response) := by
  have hlength : part.length ≠ 0 := mt List.length_eq_zero_iff.1 hnil
  have hstring : ∀ after, cString (part ++ 0 :: after) 0 = .ok part := fun after =>
    cString_eq_ok_iff.2 ⟨fun hmem => h.zero_notMem (hpart.subset hmem), after, rfl⟩
  obtain ⟨rest, hrest⟩ := hpart
  obtain ⟨tail, hhead⟩ := h.starts
  cases hfound : findString crLf part with
  | none =>
      refine ⟨-2, .zeroed, Or.inl rfl, fun after => ?_⟩
      have hline : strstr (part ++ 0 :: after) 0 crLf = .ok none := by
        rw [strstr, hstring after, ok_bind, hfound]
        rfl
      rw [httpParseResponse, if_neg hlength, hline, ok_bind]
      rfl
  | some k =>
      -- the first line has arrived
      obtain ⟨hsplit, hfirst⟩ := exists_line ((crLfIndex_eq_findString part).trans hfound)
      have hlines : part.take k ++ (crLf ++ (part.drop (k + 2) ++ rest)) = line ++ (crLf ++ tail) := by
        rw [← List.append_assoc line, hhead, ← hrest]
        conv_rhs => rw [hsplit]
        simp
      obtain ⟨hline, -⟩ := line_inj hfirst h.not_crLf hlines
      rw [hline] at hsplit
      refine ⟨-3, { HttpResponse.zeroed with statusCode, statusText }, Or.inr rfl, fun after => ?_⟩
      have hparsed : cString (part ++ 0 :: after) 0 =
          .ok (line ++ (crLf ++ part.drop (k + 2))) := (hstring after).trans (congrArg _ hsplit)
      obtain ⟨_, _, hstatus⟩ := h.status.found h.not_crLf h.long hparsed
      rw [hstatus.parse_eq hlength]
      exact httpFindBody_none (hstring after) (h.findString_part ⟨rest, hrest⟩ hne)

/-- **Head and body are split exactly**, with one status for every body; before the head is
complete the parser returns `-2` or `-3`, and nothing behind the zero decides about it. -/
theorem httpParseResponse_arrival (h : IsResponseHead head line statusCode statusText)
    (response₀ : HttpResponse) :
    (∀ body after, (head ++ body ++ 0 :: after).length ≤ maxObjectLen →
      httpParseResponse (head ++ body ++ 0 :: after) (head ++ body).length response₀ =
          .ok (0, ⟨statusCode, statusText, head.length, some head.length, body.length⟩) ∧
        readRange (head ++ body ++ 0 :: after) head.length body.length = .ok body) ∧
      ∀ part, part ≠ [] → part <+: head → part ≠ head →
        ∃ result response, (result = -2 ∨ result = -3) ∧
          ∀ after, httpParseResponse (part ++ 0 :: after) part.length response₀ =
            .ok (result, response) := by
  refine ⟨fun body after hobject => ⟨h.parse_append hobject response₀, ?_⟩,
    fun part hnil hpart hne => h.parse_part hpart hne hnil response₀⟩
  rw [readRange_of_le (by simp only [List.length_append]; omega), List.append_assoc,
    List.drop_left, List.take_left]

end Arrival

/-- `"HTTP/1.1 404 Not Found"` with one header line. -/
def notFoundHead : List UInt8 := notFoundLine ++ (crLf ++ ([65, 58, 32, 98] ++ (crLf ++ crLf)))

/-- The head of an answer. -/
theorem httpParseResponse_arrival_notFound :
    (∀ body after, (notFoundHead ++ body ++ 0 :: after).length ≤ maxObjectLen →
      httpParseResponse (notFoundHead ++ body ++ 0 :: after) (notFoundHead ++ body).length .zeroed =
          .ok (0, ⟨404, statusTextOf [78, 111, 116, 32, 70, 111, 117, 110, 100],
            notFoundHead.length, some notFoundHead.length, body.length⟩) ∧
        readRange (notFoundHead ++ body ++ 0 :: after) notFoundHead.length body.length = .ok body) ∧
      ∀ part, part ≠ [] → part <+: notFoundHead → part ≠ notFoundHead →
        ∃ result response, (result = -2 ∨ result = -3) ∧
          ∀ after, httpParseResponse (part ++ 0 :: after) part.length .zeroed =
            .ok (result, response) := by
  have hstatus : IsStatusLine notFoundLine 404
      (statusTextOf [78, 111, 116, 32, 70, 111, 117, 110, 100]) := by
    refine ⟨[49, 46, 49], [52, 48, 52], [32, 78, 111, 116, 32, 70, 111, 117, 110, 100],
      [78, 111, 116, 32, 70, 111, 117, 110, 100], rfl,
      List.all_iff_forall_prop.1 (by decide), List.all_iff_forall_prop.1 (by decide), by decide,
      by decide, Or.inr rfl, rfl, rfl⟩
  have honly : ∀ i, crLf ++ crLf <+: notFoundHead.drop i → i + 4 = notFoundHead.length := by
    intro i hpre
    have hi : i < notFoundHead.length := by
      by_contra hge
      rw [List.drop_eq_nil_of_le (not_lt.1 hge)] at hpre
      exact absurd (List.prefix_nil.1 hpre) (by decide)
    have hall : ∀ i < notFoundHead.length, crLf ++ crLf <+: notFoundHead.drop i →
        i + 4 = notFoundHead.length := by decide +kernel
    exact hall i hi hpre
  exact httpParseResponse_arrival ⟨⟨_, rfl⟩, by decide, by decide, hstatus, by decide,
    ⟨notFoundLine ++ (crLf ++ [65, 58, 32, 98]), rfl⟩, honly⟩ .zeroed

end Netstack
