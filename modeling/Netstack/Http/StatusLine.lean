/-
# The status line

The status of a response is a number of its first line: behind `HTTP/` and a version stands a
space, then the code, and then nothing or a space and a text (`IsStatusLine`).
`http_parse_response` looks for the code with `strtol` behind the first space.  It checks that
the space stands in the first line, and not that the number does: `strtol` skips white space,
line ends among it, and stops at whatever is no digit.  `httpParseResponse_status_iff` says for
which first lines the status is the one of the line.
-/

import Mathlib.Data.Bool.AllAny
import Netstack.Http.Head

namespace Netstack

/-! ### Status lines -/

/-- The array `status_text` with a text in it. -/
def statusTextOf (text : List UInt8) : List UInt8 :=
  text.take 63 ++ List.replicate (64 - (text.take 63).length) 0

/-- The line is a status line with this code and text. -/
def IsStatusLine (line : List UInt8) (statusCode : ℤ) (statusText : List UInt8) : Prop :=
  ∃ version digits rest text, line = httpVersionStart ++ version ++ 32 :: (digits ++ rest) ∧
    (∀ c ∈ version, ¬isSpace c) ∧ (∀ c ∈ digits, isDigit c) ∧
    100 ≤ decimal digits ∧ decimal digits ≤ 999 ∧
    (rest = [] ∧ text = [] ∨ rest = 32 :: text) ∧
    statusCode = decimal digits ∧ statusText = statusTextOf text

/-- What stands behind the first space of a line. -/
def codeField (line : List UInt8) : List UInt8 := (line.dropWhile (· ≠ 32)).tail

/-- The digits directly behind the first space. -/
def codeDigits (line : List UInt8) : List UInt8 := (codeField line).takeWhile isDigit

/-- What stands behind these digits. -/
def behindCode (line : List UInt8) : List UInt8 := (codeField line).dropWhile isDigit

/-- No white space stands before the first space of the line, a digit directly behind it, and a
space or the end of the line behind the run of digits. -/
def IsPlainStatusLine (line : List UInt8) : Prop :=
  (∀ c ∈ line.takeWhile (· ≠ 32), ¬isSpace c) ∧ codeDigits line ≠ [] ∧
    ∀ c ∈ (behindCode line).head?, c = 32

section Lines

variable {before field digits rest : List UInt8}

/-- The first blank of the line is the one before the code. -/
theorem codeField_append (hbefore : 32 ∉ before) :
    (before ++ 32 :: field).takeWhile (· ≠ 32) = before ∧
      codeField (before ++ 32 :: field) = field := by
  have hrun : ∀ c ∈ before, decide (c ≠ 32) := fun c hc =>
    decide_eq_true fun heq => hbefore (heq ▸ hc)
  obtain ⟨htake, hdrop⟩ :=
    @takeWhile_run _ (fun c : UInt8 => decide (c ≠ 32)) before (32 :: field) hrun (by simp)
  exact ⟨htake, by rw [codeField, hdrop, List.tail_cons]⟩

/-- What follows the code in a status line is no digit. -/
theorem not_isDigit_head (h : ∀ c ∈ rest.head?, c = 32) : ∀ c ∈ rest.head?, ¬isDigit c :=
  fun c hc => by rw [h c hc]; decide

/-- The digits of the code end where the field does or at a blank. -/
theorem codeDigits_append (hbefore : 32 ∉ before) (hdigits : ∀ c ∈ digits, isDigit c)
    (hrest : ∀ c ∈ rest.head?, c = 32) :
    codeDigits (before ++ 32 :: (digits ++ rest)) = digits ∧
      behindCode (before ++ 32 :: (digits ++ rest)) = rest := by
  rw [codeDigits, behindCode, (codeField_append hbefore).2]
  exact takeWhile_run hdigits (not_isDigit_head hrest)

/-- A plain status line, by its parts. -/
theorem isPlainStatusLine_append (hbefore : ∀ c ∈ before, ¬isSpace c)
    (hdigits : ∀ c ∈ digits, isDigit c) (hne : digits ≠ [])
    (hrest : ∀ c ∈ rest.head?, c = 32) :
    IsPlainStatusLine (before ++ 32 :: (digits ++ rest)) := by
  have hspace : (32 : UInt8) ∉ before := fun hmem => hbefore 32 hmem (by decide)
  obtain ⟨hcode, hbehind⟩ := codeDigits_append hspace hdigits hrest
  refine ⟨?_, hcode.symm ▸ hne, hbehind.symm ▸ hrest⟩
  rw [(codeField_append hspace).1]
  exact hbefore

/-- The parts of a plain status line that has a space. -/
theorem IsPlainStatusLine.exists_parts {line : List UInt8} (h : IsPlainStatusLine line) :
    ∃ before, line = before ++ 32 :: (codeDigits line ++ behindCode line) ∧
      (∀ c ∈ before, ¬isSpace c) ∧ ∀ c ∈ codeDigits line, isDigit c := by
  obtain ⟨hbefore, hne, -⟩ := h
  have hfield : codeDigits line ++ behindCode line = codeField line :=
    List.takeWhile_append_dropWhile
  refine ⟨line.takeWhile (· ≠ 32), ?_, hbefore, fun c hc => List.mem_takeWhile_imp hc⟩
  rw [hfield]
  cases hdrop : line.dropWhile (· ≠ 32) with
  | nil => exact absurd (by rw [codeDigits, codeField, hdrop]; rfl) hne
  | cons c rest =>
      have hc : c = 32 := by
        have hhead := List.head?_dropWhile_not (fun c : UInt8 => decide (c ≠ 32)) line
        rw [hdrop] at hhead
        simpa using hhead
      subst hc
      have hcode : codeField line = rest := by rw [codeField, hdrop, List.tail_cons]
      rw [hcode, ← hdrop, List.takeWhile_append_dropWhile]

/-- What stands before the first space of a status line has no white space. -/
theorem not_space_of_version {version : List UInt8} (h : ∀ c ∈ version, ¬isSpace c) :
    ∀ c ∈ httpVersionStart ++ version, ¬isSpace c :=
  List.forall_mem_append.2 ⟨List.all_iff_forall_prop.1 (by decide), h⟩

/-- A status line is plain. -/
theorem IsStatusLine.isPlain {line statusText : List UInt8} {statusCode : ℤ}
    (h : IsStatusLine line statusCode statusText) : IsPlainStatusLine line := by
  obtain ⟨version, digits, rest, text, rfl, hversion, hdigits, hleast, -, hrest, -⟩ := h
  refine isPlainStatusLine_append ?_ hdigits ?_ ?_
  · exact not_space_of_version hversion
  · rintro rfl
    exact absurd hleast (by decide)
  · rcases hrest with ⟨rfl, -⟩ | rfl
    · simp
    · simp

end Lines

/-! ### Where the code is looked for -/

section Text

variable {data text after : List UInt8} {endptr : ℕ}

/-- The text is copied as far as the array has room for it and its end. -/
theorem httpCopyStatusText_eq (hdrop : data.drop endptr = 32 :: (text ++ after)) :
    httpCopyStatusText data HttpResponse.zeroed.statusText endptr (endptr + 1 + text.length) =
      .ok (statusTextOf text) := by
  have hbehind : data.drop (endptr + 1) = text ++ after := by
    rw [← List.drop_drop, hdrop]
    rfl
  have hlength := congrArg List.length hdrop
  rw [List.length_drop, List.length_cons, List.length_append] at hlength
  have hcut : (text.take 63).length = min 63 text.length := List.length_take
  have hread : readRange data (endptr + 1) (text.take 63).length = .ok (text.take 63) := by
    have hle : (text.take 63).length ≤ text.length := by omega
    rw [readRange_of_le (by omega), hbehind, List.take_append_of_le_length hle, hcut,
      ← List.take_take, List.take_length]
  have hlen : (if endptr + 1 + text.length - (endptr + 1) ≥
      HttpResponse.zeroed.statusText.length then HttpResponse.zeroed.statusText.length - 1
        else endptr + 1 + text.length - (endptr + 1)) = (text.take 63).length := by
    have hroom : HttpResponse.zeroed.statusText.length = 64 := rfl
    rw [hroom, hcut]
    split_ifs <;> omega
  have hzeros : HttpResponse.zeroed.statusText =
      List.replicate (text.take 63).length 0 ++
        0 :: List.replicate (63 - (text.take 63).length) 0 := by
    rw [← List.replicate_succ, List.replicate_append_replicate]
    have hsum : (text.take 63).length + (63 - (text.take 63).length + 1) = 64 := by omega
    rw [hsum]
    rfl
  have hleft : statusTextOf text =
      text.take 63 ++ [0] ++ List.replicate (63 - (text.take 63).length) 0 := by
    have hcount : 64 - (text.take 63).length = 63 - (text.take 63).length + 1 := by omega
    rw [statusTextOf, hcount, List.replicate_succ]
    simp
  unfold httpCopyStatusText
  rw [if_pos (by omega), readAt_of_drop hdrop, ok_bind, if_pos rfl]
  dsimp only
  rw [hlen, hread, ok_bind, hzeros]
  rw [writeRange_front (by simp), ok_bind, hleft]
  simp only [List.take_zero, List.nil_append, Nat.zero_add]
  have hnone : (List.replicate (text.take 63).length (0 : UInt8)).drop (text.take 63).length = [] :=
    List.drop_eq_nil_of_le (by rw [List.length_replicate])
  rw [hnone, List.append_nil]
  exact writeAt_append rfl 0 0 _

variable {before digits behind tail : List UInt8}

/-- The line from its code on. -/
theorem drop_line (before digits behind tail : List UInt8) :
    (before ++ 32 :: (digits ++ behind) ++ tail).drop (before.length + 1) =
      digits ++ (behind ++ tail) := by
  rw [← List.drop_drop, List.append_assoc, List.drop_left]
  simp

/-- The first space of a line. -/
theorem findString_space (hbefore : ∀ c ∈ before, ¬isSpace c) :
    findString [32] (before ++ 32 :: (digits ++ behind) ++ tail) = some before.length := by
  have hspace : (32 : UInt8) ∉ before := fun hmem => hbefore 32 hmem (by decide)
  rw [List.append_assoc, List.cons_append]
  exact findString_append hspace _

/-- The digits end in the line, at the latest at its end. -/
theorem strtol_line
    (hstring : cString data 0 = .ok (before ++ 32 :: (digits ++ behind) ++ (crLf ++ tail)))
    (hne : digits ≠ []) (hdigits : ∀ c ∈ digits, isDigit c) (hrest : ∀ c ∈ behind.head?, c = 32) :
    strtol data (before.length + 1) =
      .ok (toLong (decimal digits), before.length + 1 + digits.length) := by
  have hfield := cString_drop hstring
    (by simp only [List.length_append, List.length_cons]; omega : before.length + 1 ≤ _)
  rw [Nat.zero_add, drop_line] at hfield
  refine strtol_digits hfield hne hdigits ?_
  cases behind with
  | nil => exact fun c hc => by obtain rfl := Option.some.inj hc; decide
  | cons c behind => exact not_isDigit_head hrest

/-- The copy of the text behind the code ends with the line, or where the array is full:
`statusTextOf` is the same cut on the list. -/
theorem httpCopyStatusText_line
    (hstring : cString data 0 = .ok (before ++ 32 :: (digits ++ behind) ++ (crLf ++ tail)))
    (hrest : ∀ c ∈ behind.head?, c = 32) :
    httpCopyStatusText data HttpResponse.zeroed.statusText (before.length + 1 + digits.length)
      (before ++ 32 :: (digits ++ behind)).length = .ok (statusTextOf behind.tail) := by
  cases behind with
  | nil =>
      have hend : ¬before.length + 1 + digits.length < (before ++ 32 :: (digits ++ [])).length := by
        simp only [List.length_append, List.length_cons, List.length_nil]
        omega
      rw [httpCopyStatusText, if_neg hend]
      rfl
  | cons c text =>
      obtain rfl : c = 32 := hrest c rfl
      have hlength : (before ++ 32 :: (digits ++ 32 :: text)).length =
          before.length + 1 + digits.length + 1 + text.length := by
        simp only [List.length_append, List.length_cons]
        omega
      obtain ⟨-, after, hdata⟩ := cString_eq_ok_iff.1 hstring
      rw [List.drop_zero, List.append_assoc] at hdata
      have hbehind : data.drop (before.length + 1 + digits.length) =
          32 :: (text ++ (crLf ++ tail ++ 0 :: after)) := by
        rw [hdata, ← List.drop_drop, drop_line, List.drop_left]
        rfl
      rw [hlength, httpCopyStatusText_eq hbehind, List.tail_cons]

end Text

/-! ### Accepted lines -/

section Accepted

variable {line rest string statusText : List UInt8} {lineEnd space endptr dataLen : ℕ} {status : ℤ}
  {response₀ response : HttpResponse}

/-- The string begins with the first line. -/
theorem FoundStatus.exists_rest (hline : ¬crLf <:+: line)
    (h : FoundStatus (line ++ (crLf ++ rest)) string lineEnd space endptr status statusText) :
    lineEnd = line.length ∧ ∃ tail, string = line ++ (crLf ++ tail) := by
  obtain ⟨-, after, hdata⟩ := cString_eq_ok_iff.1 h.string_eq
  obtain ⟨hstring, hfirst⟩ := exists_line ((crLfIndex_eq_findString string).trans h.line)
  have hlength : (string.take lineEnd).length = lineEnd := by
    rw [List.length_take, Nat.min_eq_left (findString_eq_some_iff.1 h.line).1]
  rw [List.drop_zero, hstring, List.append_assoc, List.append_assoc] at hdata
  obtain ⟨heq, -⟩ := line_inj hline hfirst hdata
  exact ⟨by rw [heq, hlength], string.drop (lineEnd + 2), by rw [heq]; exact hstring⟩

/-- **In a plain first line** the parser finds the code of the line and its text. -/
theorem FoundStatus.eq_of_isPlain (hline : ¬crLf <:+: line) (hplain : IsPlainStatusLine line)
    (h : FoundStatus (line ++ (crLf ++ rest)) string lineEnd space endptr status statusText) :
    status = decimal (codeDigits line) ∧ statusText = statusTextOf (behindCode line).tail := by
  obtain ⟨rfl, tail, rfl⟩ := h.exists_rest hline
  obtain ⟨before, heq, hbefore, hdigits⟩ := hplain.exists_parts
  obtain ⟨-, hne, hrest⟩ := hplain
  generalize codeDigits line = digits at *
  generalize behindCode line = behind at *
  subst heq
  have hspace : space = before.length := by
    have hfound := h.space_eq
    rw [findString_space hbefore] at hfound
    exact (Option.some.inj hfound).symm
  subst hspace
  have hnumber := strtol_line h.string_eq hne hdigits hrest
  obtain ⟨rfl, rfl⟩ := Prod.mk.inj (Except.ok.inj (h.number.symm.trans hnumber))
  have hleast := h.least
  have hmost := h.most
  have htext := httpCopyStatusText_line h.string_eq hrest
  exact ⟨by unfold toLong at *; omega, Except.ok.inj (h.text.symm.trans htext)⟩

/-- **In a plain first line** the status is the one of the line. -/
theorem httpParseResponse_of_isPlain (hline : ¬crLf <:+: line) (hplain : IsPlainStatusLine line)
    (h : httpParseResponse (line ++ (crLf ++ rest)) dataLen response₀ = .ok (0, response)) :
    response.statusCode = decimal (codeDigits line) ∧
      response.statusText = statusTextOf (behindCode line).tail ∧
        IsStatusLine line response.statusCode response.statusText := by
  obtain ⟨_, lineEnd, _, _, status, _, hfound, hbody⟩ := exists_foundStatus h
  obtain ⟨hcode, htext⟩ := hfound.eq_of_isPlain hline hplain
  obtain ⟨_, _, -, -, -, -, hresponse⟩ := httpFindBody_accepted hbody
  have hleast := hfound.least
  have hmost := hfound.most
  rw [hresponse]
  refine ⟨hcode, htext, ?_⟩
  obtain ⟨before, heq, hbefore, hdigits⟩ := hplain.exists_parts
  have hversion : httpVersionStart <+: before := by
    have hstart := hfound.version
    rw [heq, List.append_assoc, List.cons_append] at hstart
    exact prefix_of_notMem (by decide) hstart
  obtain ⟨version, rfl⟩ := hversion
  refine ⟨version, codeDigits line, behindCode line, (behindCode line).tail, heq,
    fun c hc => hbefore c (List.mem_append_right _ hc), hdigits, by omega, by omega, ?_, hcode,
    htext⟩
  have hrest := hplain.2.2
  generalize behindCode line = behind at hrest
  cases behind with
  | nil => exact Or.inl ⟨rfl, rfl⟩
  | cons c text => exact Or.inr (by rw [hrest c rfl, List.tail_cons])

/-- **The status comes from the status line**, and from nothing behind it, exactly when the first
line has no white space before its first space, a digit directly behind this space, and a space
or its end behind the run of digits. -/
theorem httpParseResponse_status_iff (hline : ¬crLf <:+: line)
    (h : httpParseResponse (line ++ (crLf ++ rest)) dataLen response₀ = .ok (0, response)) :
    (IsStatusLine line response.statusCode response.statusText ∧
      ∀ rest' dataLen' response₀' response',
        httpParseResponse (line ++ (crLf ++ rest')) dataLen' response₀' = .ok (0, response') →
          response'.statusCode = response.statusCode ∧
            response'.statusText = response.statusText) ↔ IsPlainStatusLine line := by
  constructor
  · rintro ⟨hstatus, -⟩
    exact hstatus.isPlain
  · intro hplain
    obtain ⟨hcode, htext, hstatus⟩ := httpParseResponse_of_isPlain hline hplain h
    refine ⟨hstatus, fun rest' dataLen' response₀' response' h' => ?_⟩
    obtain ⟨hcode', htext', -⟩ := httpParseResponse_of_isPlain hline hplain h'
    exact ⟨hcode'.trans hcode.symm, htext'.trans htext.symm⟩

/-- **Every status line is found**, whatever follows it. -/
theorem IsStatusLine.found {data tail : List UInt8} (h : IsStatusLine line status statusText)
    (hline : ¬crLf <:+: line) (hlong : 12 ≤ line.length)
    (hstring : cString data 0 = .ok (line ++ (crLf ++ tail))) :
    ∃ space endptr, FoundStatus data (line ++ (crLf ++ tail)) line.length space endptr status
      statusText := by
  obtain ⟨version, digits, behind, text, rfl, hversion, hdigits, hleast, hmost, hbehind, rfl, rfl⟩ :=
    h
  have hbefore : ∀ c ∈ httpVersionStart ++ version, ¬isSpace c := not_space_of_version hversion
  have hne : digits ≠ [] := by
    rintro rfl
    exact absurd hleast (by decide)
  obtain ⟨hrest, htail⟩ : (∀ c ∈ behind.head?, c = 32) ∧ behind.tail = text := by
    rcases hbehind with ⟨rfl, rfl⟩ | rfl
    · exact ⟨by simp, rfl⟩
    · exact ⟨by simp, rfl⟩
  have hdigitsLen := List.length_pos_of_ne_nil hne
  have hnumber := strtol_line hstring hne hdigits hrest
  have htoLong : toLong (decimal digits) = decimal digits := by
    unfold toLong
    omega
  rw [htoLong] at hnumber
  refine ⟨_, _, ⟨hstring, ?_, hlong, ?_, findString_space hbefore, ?_, hnumber, by omega,
    by exact_mod_cast hleast, by exact_mod_cast hmost, htail ▸ httpCopyStatusText_line hstring hrest⟩⟩
  · rw [← crLfIndex_eq_findString]
    exact crLfIndex_append hline tail
  · obtain ⟨-, after, hdata⟩ := cString_eq_ok_iff.1 hstring
    rw [List.drop_zero] at hdata
    rw [hdata]
    simp only [List.append_assoc]
    exact List.prefix_append ..
  · simp only [List.length_append, List.length_cons]
    omega

end Accepted

/-! ### Forged statuses -/

/-- `"HTTP/1.1 404 Not Found"` -/
def notFoundLine : List UInt8 :=
  [72, 84, 84, 80, 47, 49, 46, 49, 32, 52, 48, 52, 32, 78, 111, 116, 32, 70, 111, 117, 110, 100]

/-- An ordinary status line. -/
theorem httpParseResponse_status_notFound :
    (IsStatusLine notFoundLine 404 (statusTextOf [78, 111, 116, 32, 70, 111, 117, 110, 100]) ∧
      ∀ rest' dataLen' response₀' response',
        httpParseResponse (notFoundLine ++ (crLf ++ rest')) dataLen' response₀' =
          .ok (0, response') →
            response'.statusCode = 404 ∧
              response'.statusText = statusTextOf [78, 111, 116, 32, 70, 111, 117, 110, 100]) ↔
      IsPlainStatusLine notFoundLine := by
  have hparse : httpParseResponse (notFoundLine ++ (crLf ++ (crLf ++ [0]))) 26 .zeroed =
      .ok (0, ⟨404, statusTextOf [78, 111, 116, 32, 70, 111, 117, 110, 100], 26, some 26, 0⟩) := by
    decide +kernel
  exact httpParseResponse_status_iff (by decide) hparse

/-- `"HTTP/1.1"` with four spaces behind it. -/
def blankStatusLine : List UInt8 := [72, 84, 84, 80, 47, 49, 46, 49, 32, 32, 32, 32]

/-- A line without a code, with a number in the line behind it, gets the status of that number. -/
theorem blankStatusLine_forged :
    (httpParseResponse (blankStatusLine ++ (crLf ++ ([50, 48, 48] ++ (crLf ++ (crLf ++ [0])))))
        21 .zeroed).map (fun result => (result.1, result.2.statusCode)) = .ok (0, 200) ∧
      (httpParseResponse (blankStatusLine ++ (crLf ++ ([52, 48, 52] ++ (crLf ++ (crLf ++ [0])))))
        21 .zeroed).map (fun result => (result.1, result.2.statusCode)) = .ok (0, 404) ∧
      ¬crLf <:+: blankStatusLine ∧
      ∀ statusCode statusText, ¬IsStatusLine blankStatusLine statusCode statusText := by
  refine ⟨by decide +kernel, by decide +kernel, by decide, fun statusCode statusText h => ?_⟩
  exact absurd h.isPlain.2.1 (by decide)

end Netstack
