/-
# The head of a response

The head ends with the first empty line: it is a status line, header lines that are not
empty, and the blank line (`exists_headerLines`), each of them ended by a CR LF.  An accepted
response has its head up to `header_len` (`httpParseResponse_accepted`).
-/

import Netstack.Http.Completeness
import Netstack.Http.Response

namespace Netstack

/-! ### Lines -/

/-- The lines of a text. -/
def crLfLines : List UInt8 → List (List UInt8)
  | [] => [[]]
  | [c] => [[c]]
  | c :: d :: w =>
    if c = charCr ∧ d = charLf then [] :: crLfLines w
    else (crLfLines (d :: w)).modifyHead (c :: ·)

/-- The lines of a head between its first line and the blank line. -/
def headerLines (head : List UInt8) : List (List UInt8) :=
  (crLfLines head).tail.takeWhile (· ≠ [])

/-- Lines, each with its end. -/
def joinLines (lines : List (List UInt8)) : List UInt8 := lines.flatMap (· ++ crLf)

theorem joinLines_cons (line : List UInt8) (lines : List (List UInt8)) (rest : List UInt8) :
    joinLines (line :: lines) ++ rest = line ++ (crLf ++ (joinLines lines ++ rest)) := by
  simp [joinLines]

/-- There is always a line, if only an empty one. -/
theorem crLfLines_ne_nil (w : List UInt8) : crLfLines w ≠ [] := by
  induction w with
  | nil => exact List.cons_ne_nil _ _
  | cons c w ih =>
      cases w with
      | nil => exact List.cons_ne_nil _ _
      | cons d w =>
          rw [crLfLines]
          split_ifs
          · exact List.cons_ne_nil _ _
          · exact mt (@List.modifyHead_eq_nil_iff _ (c :: ·) _).1 ih

/-- **Two texts with the end of a line between them** have the lines of both. -/
theorem crLfLines_join (v w : List UInt8) :
    crLfLines (v ++ (crLf ++ w)) = crLfLines v ++ crLfLines w := by
  fun_induction crLfLines v with
  | case1 => rfl
  | case2 c =>
      have hcr : ¬(c = charCr ∧ charCr = charLf) := fun h => absurd h.2 (by decide)
      exact if_neg hcr
  | case3 c d v hcrlf ih => exact (if_pos hcrlf).trans (congrArg ([] :: ·) ih)
  | case4 c d v hcrlf ih =>
      refine (if_neg hcrlf).trans ((congrArg (List.modifyHead (c :: ·)) ih).trans ?_)
      obtain ⟨line, lines, hlines⟩ := List.exists_cons_of_ne_nil (crLfLines_ne_nil (d :: v))
      rw [hlines]
      rfl

/-- **One line.** -/
theorem crLfLines_eq_singleton {w : List UInt8} (h : ¬crLf <:+: w) : crLfLines w = [w] := by
  fun_induction crLfLines w with
  | case1 => rfl
  | case2 c => rfl
  | case3 c d w hcrlf _ =>
      refine absurd ⟨[], w, ?_⟩ h
      rw [hcrlf.1, hcrlf.2]
      rfl
  | case4 c d w _ ih =>
      rw [ih fun hwithin => h (hwithin.trans (List.suffix_cons c _).isInfix)]
      rfl

/-- There is one line where there is no end of a line. -/
theorem length_crLfLines_eq_one_iff {w : List UInt8} :
    (crLfLines w).length = 1 ↔ ¬crLf <:+: w := by
  constructor
  · rintro hone ⟨v, rest, rfl⟩
    rw [List.append_assoc, crLfLines_join, List.length_append] at hone
    have hleft := List.length_pos_of_ne_nil (crLfLines_ne_nil v)
    have hright := List.length_pos_of_ne_nil (crLfLines_ne_nil rest)
    omega
  · intro h
    rw [crLfLines_eq_singleton h, List.length_singleton]

theorem crLfLines_append {line : List UInt8} (hline : ¬crLf <:+: line) (rest : List UInt8) :
    crLfLines (line ++ (crLf ++ rest)) = line :: crLfLines rest := by
  rw [crLfLines_join, crLfLines_eq_singleton hline, List.singleton_append]

/-- What the first line and the header lines of a head are. -/
structure IsHead (first : List UInt8) (lines : List (List UInt8)) : Prop where
  first_line : ¬crLf <:+: first
  ne_nil : ∀ line ∈ lines, line ≠ []
  line : ∀ line ∈ lines, ¬crLf <:+: line

/-- The bytes of the head. -/
def headBytes (first : List UInt8) (lines : List (List UInt8)) : List UInt8 :=
  first ++ (crLf ++ (joinLines lines ++ crLf))

/-- **The header lines of a head.** -/
theorem headerLines_headBytes {first : List UInt8} {lines : List (List UInt8)}
    (h : IsHead first lines) : headerLines (headBytes first lines) = lines := by
  have hlines : crLfLines (joinLines lines ++ crLf) = lines ++ [[], []] := by
    have hne := h.line
    clear h
    induction lines with
    | nil => rfl
    | cons line lines ih =>
        rw [joinLines_cons, crLfLines_append (hne line (List.mem_cons_self ..)),
          ih fun l hl => hne l (List.mem_cons_of_mem _ hl)]
        rfl
  have hall : ∀ line ∈ lines, decide (line ≠ []) = true := fun line hl =>
    decide_eq_true (h.ne_nil line hl)
  rw [headerLines, headBytes, crLfLines_append h.first_line, hlines, List.tail_cons,
    List.takeWhile_append_of_pos hall]
  simp

/-! ### Where the head ends -/

/-- The search by two indices and `strstr` find the same end of a line. -/
theorem crLfIndex_eq_findString (w : List UInt8) : crLfIndex w = findString crLf w := by
  induction w with
  | nil => rfl
  | cons c rest ih =>
      rw [findString]
      cases rest with
      | nil =>
          have hshort : ¬crLf <+: [c] := fun h => absurd h.length_le (by simp [crLf])
          rw [if_neg hshort]
          rfl
      | cons d rest =>
          have hiff : crLf <+: c :: d :: rest ↔ c = charCr ∧ d = charLf := by
            rw [crLf, List.cons_prefix_cons, List.cons_prefix_cons]
            simp [eq_comm]
          rw [crLfIndex, ih]
          simp only [hiff]

/-- **A text with an empty line in it** begins with a head that ends there. -/
theorem exists_headerLines {w : List UInt8} {headerEnd : ℕ}
    (h : findString (crLf ++ crLf) w = some headerEnd) :
    ∃ first lines, IsHead first lines ∧ w.take (headerEnd + 4) = headBytes first lines := by
  induction headerEnd using Nat.strong_induction_on generalizing w with
  | _ headerEnd ih =>
      obtain ⟨hle, hthere, hfirst⟩ := findString_eq_some_iff.1 h
      have hcrlf : crLf <+: w.drop headerEnd := (List.prefix_append crLf crLf).trans hthere
      obtain ⟨k, hk, hfound⟩ := exists_findString hle hcrlf
      obtain ⟨hw, hline⟩ := exists_line ((crLfIndex_eq_findString w).trans hfound)
      have hlength : (w.take k).length = k := by rw [List.length_take]; omega
      generalize w.take k = line at hw hline hlength
      generalize w.drop (k + 2) = rest at hw
      subst hw
      subst hlength
      have htwo : crLf.length = 2 := rfl
      have hafter : (line ++ (crLf ++ rest)).drop line.length = crLf ++ rest := List.drop_left
      have hbehind : ∀ n, (line ++ (crLf ++ rest)).drop (line.length + 2 + n) = rest.drop n :=
        fun n => by rw [Nat.add_assoc, ← List.drop_drop, hafter, ← List.drop_drop]; rfl
      have htake : ∀ n, (line ++ (crLf ++ rest)).take (line.length + 2 + n) =
          line ++ (crLf ++ rest.take n) := fun n => by
        rw [Nat.add_assoc, List.take_length_add_append, ← htwo, List.take_length_add_append]
      rcases hk.eq_or_lt with rfl | hlt
      · rw [hafter, List.prefix_append_right_inj] at hthere
        obtain ⟨rest, rfl⟩ := hthere
        refine ⟨line, [], ⟨hline, by simp, by simp⟩, ?_⟩
        have hfour : line.length + 4 = line.length + 2 + crLf.length := rfl
        rw [hfour, htake, List.take_left]
        rfl
      -- the first line ends before the head does
      have hnext : line.length + 2 ≤ headerEnd := by
        by_contra hnot
        obtain rfl : headerEnd = line.length + 1 := by omega
        rw [← List.drop_drop, hafter] at hcrlf
        exact absurd (List.cons_prefix_cons.1 hcrlf).1 (by decide)
      obtain ⟨n, rfl⟩ := Nat.exists_eq_add_of_le hnext
      have hrest : findString (crLf ++ crLf) rest = some n := by
        refine findString_eq_some_iff.2 ⟨?_, hbehind n ▸ hthere, fun j hj hpre => ?_⟩
        · simp only [List.length_append] at hle
          omega
        · exact hfirst (line.length + 2 + j) (by omega) ((hbehind j).symm ▸ hpre)
      obtain ⟨first, lines, hhead, hbytes⟩ := ih n (by omega) hrest
      have hne : first ≠ [] := by
        rintro rfl
        refine hfirst line.length hlt ?_
        rw [hafter, List.prefix_append_right_inj]
        refine List.IsPrefix.trans ?_ (List.take_prefix (n + 4) rest)
        exact hbytes ▸ List.prefix_append crLf _
      refine ⟨line, first :: lines, ⟨hline, ?_, ?_⟩, ?_⟩
      · exact List.forall_mem_cons.2 ⟨hne, hhead.ne_nil⟩
      · exact List.forall_mem_cons.2 ⟨hhead.first_line, hhead.line⟩
      · rw [Nat.add_assoc (line.length + 2), htake, hbytes, headBytes, headBytes, joinLines_cons]

/-! ### Accepted responses -/

section Accepted

variable {data : List UInt8} {dataLen : ℕ} {response₀ response : HttpResponse}

theorem returned_eq_zero {result : ℤ}
    (h : (.ok (result, response₀) : Checked (ℤ × HttpResponse)) = .ok (0, response)) :
    result = 0 := congrArg Prod.fst (Except.ok.inj h)

/-- What is known when the end of the headers was found: the head lies within the length that the
caller gave, and the fields of the response say where the body is. -/
theorem httpFindBody_accepted (h : httpFindBody data dataLen response₀ = .ok (0, response)) :
    ∃ string headerEnd, cString data 0 = .ok string ∧
      findString (crLf ++ crLf) string = some headerEnd ∧
        response.headerLen = sizeAdd headerEnd 4 ∧ response.headerLen ≤ dataLen ∧
          response = { response₀ with
            headerLen := response.headerLen, body := some response.headerLen,
            bodyLen := sizeSub dataLen response.headerLen } := by
  unfold httpFindBody at h
  obtain ⟨found, hfound, h⟩ := bind_eq_ok h
  obtain ⟨string, hstring, hfound⟩ := bind_eq_ok hfound
  have hoffset := Except.ok.inj hfound
  simp only [Nat.zero_add, Option.map_id'] at hoffset
  cases found with
  | none => exact absurd (returned_eq_zero h) (by decide)
  | some headerEnd =>
      dsimp only at h
      by_cases hlong : sizeAdd headerEnd 4 > dataLen
      · rw [if_pos hlong] at h
        exact absurd (returned_eq_zero h) (by decide)
      · rw [if_neg hlong] at h
        obtain rfl := congrArg Prod.snd (Except.ok.inj h)
        exact ⟨string, headerEnd, hstring, hoffset, rfl, not_lt.1 hlong, rfl⟩

/-- The text behind the status code has its end in the array. -/
theorem httpCopyStatusText_ends {statusText left : List UInt8} {endptr lineEnd : ℕ}
    (hzero : 0 ∈ statusText)
    (h : httpCopyStatusText data statusText endptr lineEnd = .ok left) : 0 ∈ left := by
  unfold httpCopyStatusText at h
  split_ifs at h with hbefore
  · obtain ⟨c, -, h⟩ := bind_eq_ok h
    dsimp only at h
    by_cases hc : c = 32
    · rw [if_pos hc] at h
      obtain ⟨bytes, -, h⟩ := bind_eq_ok h
      obtain ⟨copied, -, h⟩ := bind_eq_ok h
      exact mem_of_writeAt h
    · rw [if_neg hc] at h
      exact Except.ok.inj h ▸ hzero
  · exact Except.ok.inj h ▸ hzero

/-- What `http_parse_response` has found before it looks for the end of the headers. -/
structure FoundStatus (data string : List UInt8) (lineEnd space endptr : ℕ) (status : ℤ)
    (statusText : List UInt8) : Prop where
  string_eq : cString data 0 = .ok string
  line : findString crLf string = some lineEnd
  long : 12 ≤ lineEnd
  version : httpVersionStart <+: data
  space_eq : findString [32] string = some space
  before_end : space < lineEnd
  number : strtol data (space + 1) = .ok (status, endptr)
  moved : endptr ≠ space + 1
  least : 100 ≤ status
  most : status ≤ 999
  text : httpCopyStatusText data HttpResponse.zeroed.statusText endptr lineEnd = .ok statusText

variable {string statusText : List UInt8} {lineEnd space endptr : ℕ} {status : ℤ}

/-- Behind the status line the parser looks for the body. -/
theorem FoundStatus.parse_eq (h : FoundStatus data string lineEnd space endptr status statusText)
    (hlen : dataLen ≠ 0) : httpParseResponse data dataLen response₀ =
      httpFindBody data dataLen
        { HttpResponse.zeroed with statusCode := status, statusText } := by
  have hline : strstr data 0 crLf = .ok (some lineEnd) := by
    rw [strstr, h.string_eq, ok_bind, h.line, Option.map_some, Nat.zero_add]
    rfl
  have hspace : strchr data 0 32 = .ok (some space) := by
    rw [strchr, h.string_eq, ok_bind, h.space_eq, Option.map_some, Nat.zero_add]
    rfl
  have hversion : strncmpEq data 0 httpVersionStart = .ok true := by
    rw [strncmpEq_eq_true_iff, List.drop_zero]
    exact h.version
  have hnumber : ¬(endptr = space + 1 ∨ status < 100 ∨ status > 999) := by
    have hmoved := h.moved
    have hleast := h.least
    have hmost := h.most
    omega
  unfold httpParseResponse
  rw [if_neg hlen, hline, ok_bind]
  dsimp only
  rw [if_neg (not_lt.2 h.long), hversion, ok_bind, if_neg (by decide), hspace, ok_bind]
  dsimp only
  rw [if_neg (not_le.2 h.before_end), h.number, ok_bind]
  dsimp only
  rw [if_neg hnumber, h.text, ok_bind]

/-- An accepted response has a status line. -/
theorem exists_foundStatus (h : httpParseResponse data dataLen response₀ = .ok (0, response)) :
    ∃ string lineEnd space endptr status statusText,
      FoundStatus data string lineEnd space endptr status statusText ∧
        httpFindBody data dataLen { HttpResponse.zeroed with statusCode := status, statusText } =
          .ok (0, response) := by
  unfold httpParseResponse at h
  by_cases hempty : dataLen = 0
  · rw [if_pos hempty] at h
    exact absurd (returned_eq_zero h) (by decide)
  rw [if_neg hempty] at h
  obtain ⟨lineEnd, hline, h⟩ := bind_eq_ok h
  obtain ⟨string, hstring, hline⟩ := bind_eq_ok hline
  have hlineEnd := Except.ok.inj hline
  simp only [Nat.zero_add, Option.map_id'] at hlineEnd
  cases lineEnd with
  | none => exact absurd (returned_eq_zero h) (by decide)
  | some lineEnd =>
      dsimp only at h
      by_cases hshort : lineEnd < 12
      · rw [if_pos hshort] at h
        exact absurd (returned_eq_zero h) (by decide)
      rw [if_neg hshort] at h
      obtain ⟨isHttp, hversion, h⟩ := bind_eq_ok h
      cases isHttp with
      | false => exact absurd (returned_eq_zero h) (by decide)
      | true =>
          rw [strncmpEq_eq_true_iff, List.drop_zero] at hversion
          obtain ⟨space, hspace, h⟩ := bind_eq_ok h
          rw [strchr, hstring, ok_bind] at hspace
          have hfound := Except.ok.inj hspace
          simp only [Nat.zero_add, Option.map_id'] at hfound
          cases space with
          | none => exact absurd (returned_eq_zero h) (by decide)
          | some space =>
              dsimp only at h
              by_cases hbehind : space ≥ lineEnd
              · rw [if_pos hbehind] at h
                exact absurd (returned_eq_zero h) (by decide)
              rw [if_neg hbehind] at h
              obtain ⟨⟨status, endptr⟩, hnumber, h⟩ := bind_eq_ok h
              dsimp only at h
              by_cases hstatus : endptr = space + 1 ∨ status < 100 ∨ status > 999
              · rw [if_pos hstatus] at h
                exact absurd (returned_eq_zero h) (by decide)
              rw [if_neg hstatus] at h
              obtain ⟨statusText, htext, h⟩ := bind_eq_ok h
              simp only [not_or, not_lt] at hstatus
              exact ⟨string, lineEnd, space, endptr, status, statusText,
                ⟨hstring, hlineEnd, not_lt.1 hshort, hversion, hfound, not_le.1 hbehind, hnumber,
                  hstatus.1, hstatus.2.1, hstatus.2.2, htext⟩, h⟩

/-- **An accepted response has a head**, which ends with its first empty line. -/
theorem httpParseResponse_accepted
    (h : httpParseResponse data dataLen response₀ = .ok (0, response)) :
    ∃ string headerEnd, cString data 0 = .ok string ∧
      findString (crLf ++ crLf) string = some headerEnd ∧
        response.headerLen = sizeAdd headerEnd 4 ∧ response.headerLen ≤ dataLen ∧
          response.body = some response.headerLen ∧
            response.bodyLen = sizeSub dataLen response.headerLen ∧ 0 ∈ response.statusText := by
  obtain ⟨_, _, _, _, _, _, hstatus, h⟩ := exists_foundStatus h
  obtain ⟨string, headerEnd, hstring, hfound, hlen, hle, heq⟩ := httpFindBody_accepted h
  have hends := httpCopyStatusText_ends (by simp [HttpResponse.zeroed]) hstatus.text
  refine ⟨string, headerEnd, hstring, hfound, hlen, hle, ?_, ?_, ?_⟩
  · rw [heq]
  · rw [heq]
  · rw [heq]
    exact hends

/-- The head of an accepted response, and the rest of the string behind it. -/
theorem exists_head (hobject : data.length ≤ maxObjectLen)
    (h : httpParseResponse data dataLen response₀ = .ok (0, response)) :
    ∃ first lines rest, IsHead first lines ∧ cString data 0 = .ok (headBytes first lines ++ rest) ∧
      data.take response.headerLen = headBytes first lines ∧
        response.headerLen = (headBytes first lines).length := by
  obtain ⟨string, headerEnd, hstring, hfound, hlen, -⟩ := httpParseResponse_accepted h
  obtain ⟨-, hthere, -⟩ := findString_eq_some_iff.1 hfound
  have hend := hthere.length_le
  obtain ⟨-, after, hdata⟩ := cString_eq_ok_iff.1 hstring
  obtain ⟨first, lines, hhead, hbytes⟩ := exists_headerLines hfound
  have hlength := congrArg List.length hdata
  simp only [List.length_drop, List.length_append, List.length_cons, crLf, List.length_nil]
    at hlength hend
  have hadd : response.headerLen = headerEnd + 4 := by
    rw [hlen, sizeAdd_of_object hobject (by omega) (by omega)]
  rw [List.drop_zero] at hdata
  refine ⟨first, lines, string.drop (headerEnd + 4), hhead, ?_, ?_, ?_⟩
  · rw [← hbytes, List.take_append_drop, hstring]
  · rw [hadd, ← hbytes, hdata, List.take_append_of_le_length (by omega)]
  · rw [hadd, ← hbytes, List.length_take]
    omega

end Accepted

end Netstack
