/-
# The report on a response

`print_http_response` of `tools/netstack_http.c`.

Decoding returns `0` for what is not a chunked body, and also for a chunked body that carries
nothing; `print_http_response` tells the two apart by the length of the body, and takes more
than five bytes for a failure.  `printHttpResponse_reports_iff` says for which bodies this is
right.
-/

import Netstack.Http.Completeness
import Netstack.Http.Head

namespace Netstack

/-! ### The source -/

/-- What one conversion of a `printf`, the text between two of them or an `fwrite` prints. -/
inductive Printed where
  | text (literal : String)
  | number (n : ℤ)
  | bytes (b : List UInt8)
deriving DecidableEq

/-- What `print_http_response` prints and returns. -/
structure HttpReport where
  stdout : List Printed
  stderr : List Printed
  returned : ℤ
deriving DecidableEq

/-- The message of a failed decoding. -/
def decodingFailed : List Printed := [.text "Chunked body decoding failed.\n"]

/-- `print_http_response` for a chunked body.  `malloc` gives the array that it returns, or `none`
for `NULL`. -/
def printChunkedBody (malloc : ℕ → Option (List UInt8)) (body : List UInt8) :
    Checked HttpReport :=
  match malloc (sizeAdd body.length 1) with
  | none => return ⟨[], [], -1⟩
  | some decoded => do
    let (decodedLen, decoded) ← httpDecodeChunkedBody body decoded
    if decodedLen = 0 ∧ body.length > 5 then return ⟨[], decodingFailed, -1⟩
    else
      let bytes ← readRange decoded 0 decodedLen
      return ⟨[.text "\n--- BODY (chunked decoded) ---\n", .bytes bytes, .text "\n\nraw body: ",
        .number body.length, .text " bytes\ndecoded body: ", .number decodedLen, .text " bytes\n"],
        [], 0⟩

/-- `print_http_response` for another body. -/
def printPlainBody (body : List UInt8) : HttpReport :=
  ⟨[.text "\n--- BODY ---\n", .bytes body, .text "\n\nbody: ", .number body.length,
    .text " bytes\n"], [], 0⟩

/-- `print_http_response`; `response` is its uninitialised variable. -/
def printHttpResponse (malloc : ℕ → Option (List UInt8)) (response : HttpResponse)
    (responseData : List UInt8) (responseLen : ℕ) : Checked HttpReport := do
  let (result, response) ← httpParseResponse responseData responseLen response
  if result ≠ 0 then return ⟨[], [.text "Could not parse HTTP response.\n"], -1⟩
  else
    let chunked ← httpResponseIsChunked responseData response.headerLen
    if chunked < 0 then return ⟨[], [], -1⟩
    else
      let statusText ← cString response.statusText 0
      let headers ← readRange responseData 0 response.headerLen
      let body ← readRange responseData (response.body.getD 0) response.bodyLen
      let report ← if chunked ≠ 0 then printChunkedBody malloc body else pure (printPlainBody body)
      return { report with stdout :=
        [.text "\nHTTP RESPONSE\nstatus: ", .number response.statusCode, .text " ",
          .bytes statusText, .text "\nheaders: ", .number response.headerLen, .text " bytes\n",
          .text "\n--- HEADERS ---\n", .bytes headers] ++ report.stdout }

/-! ### Bodies that are reported -/

/-- The body begins with a line whose size is zero. -/
def BeginsWithZeroLine (body : List UInt8) : Prop :=
  ∃ line rest, body = line ++ (crLf ++ rest) ∧ ¬crLf <:+: line ∧ IsChunkSize line 0

/-- The body is a complete chunked encoding. -/
def IsComplete (body : List UInt8) : Prop := ∃ data, IsChunkedEncoding IsChunkSize body data

section Reports

variable {body data : List UInt8}

/-- An encoding of the empty body is a body that begins with a line of size zero: there is no
chunk before it. -/
theorem beginsWithZeroLine_iff :
    BeginsWithZeroLine body ↔ IsChunkedEncoding IsChunkSize body [] := by
  constructor
  · rintro ⟨line, rest, rfl, hline, hsize⟩
    exact .last rest hline hsize
  · generalize hdata : ([] : List UInt8) = data
    rintro (⟨rest, hline, hsize⟩ | ⟨-, -, hne, -⟩)
    · exact ⟨_, rest, rfl, hline, hsize⟩
    · exact absurd (List.append_eq_nil_iff.1 hdata.symm).1 hne

/-- A short complete body carries nothing. -/
theorem isComplete_short (hshort : body.length ≤ 5) :
    IsComplete body ↔ BeginsWithZeroLine body := by
  rw [beginsWithZeroLine_iff]
  constructor
  · rintro ⟨data, hdata⟩
    by_cases hne : data = []
    · exact hne ▸ hdata
    · exact absurd (hdata.length_gt hne) (by omega)
  · exact fun h => ⟨[], h⟩

theorem IsChunkedEncoding.isJoined (h : IsChunkedEncoding IsChunkSize body data) :
    IsChunkedEncoding IsJoinedSize body data := h.mono fun _ _ => IsChunkSize.isJoinedSize

/-- **For a long body** the message is right when the body carries something, unless it has blanks
between the digits of a size. -/
theorem isComplete_long :
    ((¬∃ data, IsChunkedEncoding IsJoinedSize body data ∧ data ≠ []) ↔ ¬IsComplete body) ↔
      ¬BeginsWithZeroLine body ∧
        ∀ data, IsChunkedEncoding IsJoinedSize body data → data ≠ [] → ¬HasSplitLine body := by
  rw [beginsWithZeroLine_iff]
  constructor
  · intro h
    constructor
    · intro hzero
      have hunique : ∀ line m n, IsJoinedSize line m → IsJoinedSize line n → m = n :=
        fun _ _ _ => IsJoinedSize.unique
      refine h.1 (fun ⟨data, hdata, hne⟩ => hne ?_) ⟨[], hzero⟩
      exact hdata.unique hunique hzero.isJoined
    · intro data hdata hne hsplit
      exact h.2 (fun ⟨_, hcomplete⟩ => hsplit.not_isChunkedEncoding hcomplete) ⟨data, hdata, hne⟩
  · rintro ⟨hzero, hsplit⟩
    constructor
    · rintro hnone ⟨data, hdata⟩
      by_cases hne : data = []
      · exact hzero (hne ▸ hdata)
      · exact hnone ⟨data, hdata.isJoined, hne⟩
    · rintro hnot ⟨data, hdata, hne⟩
      rcases isChunkedEncoding_or_hasSplitLine hdata with hcomplete | hsplitLine
      · exact hnot ⟨data, hcomplete⟩
      · exact hsplit data hdata hne hsplitLine

end Reports

/-! ### What is reported -/

/-- `malloc` succeeds. -/
def Allocates (malloc : ℕ → Option (List UInt8)) : Prop :=
  ∀ n ≤ maxObjectLen, ∃ memory, malloc n = some memory ∧ memory.length = n

/-- `malloc` gives an array of the length that it is asked for, whatever that holds, or nothing. -/
def MayAllocate (malloc : ℕ → Option (List UInt8)) : Prop :=
  ∀ n memory, n ≤ maxObjectLen → malloc n = some memory → memory.length = n

/-- A `malloc` that always succeeds is one of those that may fail. -/
theorem Allocates.may {malloc : ℕ → Option (List UInt8)} (h : Allocates malloc) :
    MayAllocate malloc := by
  intro n memory hn hmemory
  obtain ⟨memory', hmemory', hlength⟩ := h n hn
  rw [hmemory] at hmemory'
  obtain rfl := Option.some.inj hmemory'
  exact hlength

theorem allocates_replicate : Allocates fun n => some (List.replicate n 0) :=
  fun _ _ => ⟨_, rfl, List.length_replicate⟩

section Report

variable {malloc : ℕ → Option (List UInt8)} {body decoded : List UInt8}

/-- The decoder returns `0` for the bodies that it makes nothing of. -/
theorem httpDecodeChunkedBody_zero (hbody : body.length < maxObjectLen)
    (hdecoded : decoded.length = body.length + 1) :
    ∃ n left, httpDecodeChunkedBody body decoded = .ok (n, left) ∧ n ≤ left.length ∧
      (n = 0 ↔ ¬∃ data, IsChunkedEncoding IsJoinedSize body data ∧ data ≠ []) := by
  rcases httpDecodeChunkedBody_complete hbody.le (by omega : decoded.length ≤ maxObjectLen)
    (by omega) with ⟨data, left, hdata, hrun, hleft⟩ | ⟨hnone, left, hrun⟩
  · refine ⟨data.length, left, hrun, ?_, ?_⟩
    · rw [← hleft, List.length_take]
      exact (Nat.min_le_right _ _)
    · have hunique : ∀ line m n, IsJoinedSize line m → IsJoinedSize line n → m = n :=
        fun _ _ _ => IsJoinedSize.unique
      constructor
      · rintro hzero ⟨data', hdata', hne⟩
        exact hne ((hdata'.unique hunique hdata).trans (List.length_eq_zero_iff.1 hzero))
      · intro hnot
        by_contra hne
        exact hnot ⟨data, hdata, mt List.length_eq_zero_iff.2 hne⟩
  · exact ⟨0, left, hrun, Nat.zero_le _,
      iff_of_true rfl fun ⟨data, hdata, _⟩ => hnone data hdata⟩

/-- **The message is printed** for the bodies of more than five bytes that the decoder makes nothing
of. -/
theorem printChunkedBody_eq (hmalloc : Allocates malloc) (hbody : body.length < maxObjectLen) :
    ∃ report, printChunkedBody malloc body = .ok report ∧
      (report.stderr = decodingFailed ↔
        5 < body.length ∧ ¬∃ data, IsChunkedEncoding IsJoinedSize body data ∧ data ≠ []) := by
  obtain ⟨decoded, hdecoded, hlength⟩ := hmalloc (body.length + 1) hbody
  have hcapacity : sizeAdd body.length 1 = body.length + 1 :=
    sizeAdd_of_object hbody.le le_rfl (by omega)
  obtain ⟨n, left, hrun, hn, hzero⟩ := httpDecodeChunkedBody_zero hbody hlength
  unfold printChunkedBody
  rw [hcapacity, hdecoded, ← hzero]
  dsimp only
  rw [hrun, ok_bind]
  dsimp only
  by_cases hfailed : n = 0 ∧ body.length > 5
  · rw [if_pos hfailed]
    exact ⟨_, rfl, iff_of_true rfl hfailed.symm⟩
  · rw [if_neg hfailed, readRange_of_le (by omega)]
    exact ⟨_, rfl, iff_of_false (List.cons_ne_nil _ _).symm (mt And.symm hfailed)⟩

/-- The bodies for which the message is right. -/
def ReportsRightly (body : List UInt8) : Prop :=
  (body.length ≤ 5 ↔ BeginsWithZeroLine body) ∧
    (5 < body.length → ∀ data, IsChunkedEncoding IsJoinedSize body data → data ≠ [] →
      ¬HasSplitLine body)

/-- The condition in the words of the tool: it takes a result of 0 for a failure, and so reports
the empty body wrongly, and it reports what the decoder takes for a size although it is none. -/
theorem reportsRightly_iff :
    ((5 < body.length ∧ ¬∃ data, IsChunkedEncoding IsJoinedSize body data ∧ data ≠ []) ↔
      ¬IsComplete body) ↔ ReportsRightly body := by
  by_cases hshort : body.length ≤ 5
  · have hnot : ¬5 < body.length := not_lt.2 hshort
    rw [ReportsRightly, isComplete_short hshort]
    simp [hshort, hnot]
  · have hlong : 5 < body.length := not_le.1 hshort
    rw [ReportsRightly, and_iff_right hlong, isComplete_long]
    simp [hshort, hlong]

/-- What is reported about an accepted response with a chunked body. -/
theorem printHttpResponse_eq {data : List UInt8} {dataLen : ℕ} {response₀ response : HttpResponse}
    (hmalloc : Allocates malloc) (hobject : data.length ≤ maxObjectLen)
    (hend : data[dataLen]? = some 0)
    (hparse : httpParseResponse data dataLen response₀ = .ok (0, response))
    (hchunked : httpResponseIsChunked data response.headerLen = .ok 1) :
    ∃ report, printHttpResponse malloc response₀ data dataLen = .ok report ∧
      (report.stderr = decodingFailed ↔ 5 < ((data.take dataLen).drop response.headerLen).length ∧
        ¬∃ bytes, IsChunkedEncoding IsJoinedSize ((data.take dataLen).drop response.headerLen)
          bytes ∧ bytes ≠ []) := by
  obtain ⟨_, _, _, _, _, hheader, hoffset, hbodyLen, htext⟩ := httpParseResponse_accepted hparse
  obtain ⟨statusText, hstatus⟩ := cString_of_mem htext
  have hlt := (List.getElem?_eq_some_iff.1 hend).1
  have hlen : response.bodyLen = dataLen - response.headerLen := by
    unfold maxObjectLen at hobject
    rw [hbodyLen, sizeSub_of_le hheader (by unfold sizeMax; omega)]
  have hbody : readRange data (response.body.getD 0) response.bodyLen =
      .ok ((data.take dataLen).drop response.headerLen) := by
    rw [hoffset, Option.getD_some, hlen, readRange_of_le (by omega), List.drop_take]
  have hshort : ((data.take dataLen).drop response.headerLen).length < maxObjectLen := by
    rw [List.length_drop, List.length_take]
    omega
  obtain ⟨printed, hprinted, hreported⟩ := printChunkedBody_eq hmalloc hshort
  unfold printHttpResponse
  rw [hparse, ok_bind]
  dsimp only
  rw [if_neg (by decide), hchunked, ok_bind, if_neg (by decide), hstatus, ok_bind,
    readRange_of_le (by omega), ok_bind, hbody, ok_bind, if_pos (by decide), hprinted]
  exact ⟨_, rfl, hreported⟩

/-- **A failed decoding is reported**, and nothing else, for exactly the bodies of up to five bytes
that begin with a line whose size is zero and the longer ones that do not; but a body that
carries something must not have blanks between the digits of a size. -/
theorem printHttpResponse_reports_iff {data : List UInt8} {dataLen : ℕ}
    {response₀ response : HttpResponse} (hmalloc : Allocates malloc)
    (hobject : data.length ≤ maxObjectLen) (hend : data[dataLen]? = some 0)
    (hparse : httpParseResponse data dataLen response₀ = .ok (0, response))
    (hchunked : httpResponseIsChunked data response.headerLen = .ok 1) :
    (∃ report, printHttpResponse malloc response₀ data dataLen = .ok report ∧
      (report.stderr = decodingFailed ↔
        ¬IsComplete ((data.take dataLen).drop response.headerLen))) ↔
      ReportsRightly ((data.take dataLen).drop response.headerLen) := by
  obtain ⟨report, hrun, hreported⟩ :=
    printHttpResponse_eq hmalloc hobject hend hparse hchunked
  rw [← reportsRightly_iff, ← hreported]
  constructor
  · rintro ⟨report', hreport', hiff⟩
    obtain rfl := Except.ok.inj (hrun.symm.trans hreport')
    exact hiff
  · exact fun hiff => ⟨report, hrun, hiff⟩

end Report

/-- A head with the status 200 and the coding `chunked`. -/
def chunkedHead : List UInt8 :=
  [72, 84, 84, 80, 47, 49, 46, 49, 32, 50, 48, 48, 13, 10, 84, 114, 97, 110, 115, 102, 101, 114, 45,
    69, 110, 99, 111, 100, 105, 110, 103, 58, 32, 99, 104, 117, 110, 107, 101, 100, 13, 10, 13, 10]

/-- The shortest chunked body. -/
def emptyBody : List UInt8 := [48, 13, 10, 13, 10]

/-- The shortest body is reported rightly. -/
theorem printHttpResponse_reports_emptyBody :
    (∃ report, printHttpResponse (fun n => some (List.replicate n 0)) .zeroed
        (chunkedHead ++ emptyBody ++ [0]) 49 = .ok report ∧
      (report.stderr = decodingFailed ↔
        ¬IsComplete (((chunkedHead ++ emptyBody ++ [0]).take 49).drop 44))) ↔
      ReportsRightly (((chunkedHead ++ emptyBody ++ [0]).take 49).drop 44) := by
  have hparse : httpParseResponse (chunkedHead ++ emptyBody ++ [0]) 49 .zeroed =
      .ok (0, ⟨200, List.replicate 64 0, 44, some 44, 5⟩) := by decide +kernel
  exact printHttpResponse_reports_iff allocates_replicate (by decide +kernel) (by decide +kernel)
    hparse (by decide +kernel)

/-- A chunked body that carries nothing, with a trailer. -/
def trailerBody : List UInt8 := [48, 13, 10, 65, 58, 32, 98, 13, 10, 13, 10]

/-- A response that ends behind its head is not reported, and the one with the trailer is. -/
theorem chunkedHead_misreported :
    httpResponseIsChunked (chunkedHead ++ [0]) chunkedHead.length = .ok 1 ∧
      (printHttpResponse (fun n => some (List.replicate n 0)) .zeroed (chunkedHead ++ [0])
        chunkedHead.length).map HttpReport.stderr = .ok [] ∧
      ¬IsComplete [] ∧
      (printHttpResponse (fun n => some (List.replicate n 0)) .zeroed
        (chunkedHead ++ trailerBody ++ [0]) (chunkedHead ++ trailerBody).length).map
          HttpReport.stderr = .ok decodingFailed ∧
      IsComplete trailerBody := by
  refine ⟨by decide +kernel, by decide +kernel, ?_, by decide +kernel, ?_⟩
  · rintro ⟨data, hdata⟩
    exact not_isChunkedEncoding rfl hdata
  · refine ⟨[], @IsChunkedEncoding.last IsChunkSize [48] [65, 58, 32, 98, 13, 10, 13, 10] (by decide) ?_⟩
    exact ⟨[], [48], [], rfl, by simp, by simp, by decide,
      List.forall_mem_singleton.2 (by decide), rfl, Nat.zero_le _⟩

end Netstack
