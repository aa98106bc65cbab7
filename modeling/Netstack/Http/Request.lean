/-
# Requests

`http_build_get_request` of `src/http.c`.

The host and the path are put into the text of a request as they are.  Only empty ones and those
that make the request too long are refused, so that a CR LF in one of them begins a line of its
own, and different arguments can make the same request.  `httpBuildGetRequest_asked_iff` says which
arguments are told by their request.
-/

import Netstack.Http.Head

namespace Netstack

/-! ### The source -/

/-- `"GET "` -/
def getStart : List UInt8 := [71, 69, 84, 32]

/-- `" HTTP/1.1"` -/
def versionEnd : List UInt8 := [32, 72, 84, 84, 80, 47, 49, 46, 49]

/-- `"Host: "` -/
def hostStart : List UInt8 := [72, 111, 115, 116, 58, 32]

/-- `"User-Agent: BLACKTERM-NETSTACK/0.1"` -/
def userAgentLine : List UInt8 :=
  [85, 115, 101, 114, 45, 65, 103, 101, 110, 116, 58, 32, 66, 76, 65, 67, 75, 84, 69, 82, 77, 45, 78,
    69, 84, 83, 84, 65, 67, 75, 47, 48, 46, 49]

/-- `"Accept: */*"` -/
def acceptLine : List UInt8 := [65, 99, 99, 101, 112, 116, 58, 32, 42, 47, 42]

/-- `"Connection: close"` -/
def connectionLine : List UInt8 :=
  [67, 111, 110, 110, 101, 99, 116, 105, 111, 110, 58, 32, 99, 108, 111, 115, 101]

/-- `"GET %s HTTP/1.1"` -/
def requestLine (path : List UInt8) : List UInt8 := getStart ++ path ++ versionEnd

/-- `"Host: %s"` -/
def hostLine (host : List UInt8) : List UInt8 := hostStart ++ host

/-- The text that the format of `http_build_get_request` makes. -/
def requestText (path host : List UInt8) : List UInt8 :=
  joinLines [requestLine path, hostLine host, userAgentLine, acceptLine, connectionLine] ++ crLf

/-- `http_build_get_request`: its result, and what it leaves in `buffer`. -/
def httpBuildGetRequest (buffer : List UInt8) (bufferLen : ℕ) (host path : List UInt8) :
    Checked (ℕ × List UInt8) := do
  let host₀ ← readAt host 0
  if host₀ = 0 then return (0, buffer)
  else
    let path₀ ← readAt path 0
    if path₀ = 0 then return (0, buffer)
    else
      let pathString ← cString path 0
      let hostString ← cString host 0
      let (written, buffer) ← snprintf buffer bufferLen (requestText pathString hostString)
      if written < 0 ∨ written ≥ bufferLen then return (0, buffer)
      else return (written.toNat, buffer)

/-! ### What is built -/

/-- The arguments are accepted and make this request. -/
def BuildsRequest (host path request : List UInt8) : Prop :=
  ∃ buffer bufferLen hostArg pathArg left, bufferLen ≤ buffer.length ∧
    cString hostArg 0 = .ok host ∧ cString pathArg 0 = .ok path ∧ request ≠ [] ∧
    httpBuildGetRequest buffer bufferLen hostArg pathArg = .ok (request.length, left) ∧
    left.take request.length = request

section Build

variable {buffer hostArg pathArg host path request : List UInt8} {bufferLen : ℕ}

/-- The character at the beginning of a string is zero exactly when the string is empty, which is
how the source tests for that. -/
theorem readAt_string {data string : List UInt8} {i : ℕ} (h : cString data i = .ok string) :
    ∃ c, readAt data i = .ok c ∧ (c = 0 ↔ string = []) := by
  obtain ⟨hzero, after, hdrop⟩ := cString_eq_ok_iff.1 h
  cases string with
  | nil => exact ⟨0, readAt_of_drop hdrop, by simp⟩
  | cons c string =>
      refine ⟨c, readAt_of_drop hdrop, iff_of_false ?_ (List.cons_ne_nil _ _)⟩
      rintro rfl
      exact hzero (List.mem_cons_self ..)

/-- **The request is the formatted text**, with a zero behind it, or nothing. -/
theorem httpBuildGetRequest_eq (hhost : cString hostArg 0 = .ok host)
    (hpath : cString pathArg 0 = .ok path) (hroom : bufferLen ≤ buffer.length) :
    ∃ n left, httpBuildGetRequest buffer bufferLen hostArg pathArg = .ok (n, left) ∧
      (n ≠ 0 ↔ host ≠ [] ∧ path ≠ [] ∧ (requestText path host).length ≤ intMax ∧
        (requestText path host).length < bufferLen) ∧
      (n ≠ 0 → n = (requestText path host).length ∧
        left.take (n + 1) = requestText path host ++ [0]) := by
  obtain ⟨host₀, hreadHost, hhost₀⟩ := readAt_string hhost
  obtain ⟨path₀, hreadPath, hpath₀⟩ := readAt_string hpath
  have hpos : (requestText path host).length ≠ 0 := by
    rw [requestText, List.length_append]
    exact Nat.succ_ne_zero _
  unfold httpBuildGetRequest
  rw [hreadHost, ok_bind]
  by_cases hnoHost : host₀ = 0
  · rw [if_pos hnoHost]
    exact ⟨0, buffer, rfl, iff_of_false (by simp) fun h => h.1 (hhost₀.1 hnoHost), by simp⟩
  rw [if_neg hnoHost, hreadPath, ok_bind]
  by_cases hnoPath : path₀ = 0
  · rw [if_pos hnoPath]
    exact ⟨0, buffer, rfl, iff_of_false (by simp) fun h => h.2.1 (hpath₀.1 hnoPath), by simp⟩
  rw [if_neg hnoPath, hpath, ok_bind, hhost, ok_bind]
  have hne : host ≠ [] ∧ path ≠ [] := ⟨mt hhost₀.2 hnoHost, mt hpath₀.2 hnoPath⟩
  generalize requestText path host = text at *
  obtain ⟨left, hrun, hleft⟩ := snprintf_eq hroom text
  rw [hrun, ok_bind]
  dsimp only
  by_cases hlong : text.length > intMax
  · rw [if_pos hlong, if_pos (Or.inl (by decide))]
    exact ⟨0, left, rfl, iff_of_false (by simp) fun h => absurd h.2.2.1 (by omega), by simp⟩
  rw [if_neg hlong]
  by_cases hfits : text.length < bufferLen
  · rw [if_neg (by omega)]
    refine ⟨text.length, left, rfl, iff_of_true hpos ⟨hne.1, hne.2, by omega, hfits⟩, fun _ => ?_⟩
    exact ⟨rfl, hleft hfits⟩
  · rw [if_pos (Or.inr (by omega))]
    exact ⟨0, left, rfl, iff_of_false (by simp) fun h => hfits h.2.2.2, by simp⟩

/-- The text that `snprintf` makes is the one that was meant, if it was built at all. -/
theorem BuildsRequest.eq_requestText (h : BuildsRequest host path request) :
    request = requestText path host := by
  obtain ⟨_, _, _, _, left, hroom, hhost, hpath, hne, hrun, htake⟩ := h
  obtain ⟨n, left', hrun', -, hbuilt⟩ := httpBuildGetRequest_eq hhost hpath hroom
  obtain ⟨rfl, rfl⟩ := Prod.mk.inj (Except.ok.inj (hrun.symm.trans hrun'))
  obtain ⟨hlength, hleft⟩ := hbuilt (mt List.length_eq_zero_iff.1 hne)
  have hcut := congrArg (List.take request.length) hleft
  rw [List.take_take, Nat.min_eq_left (Nat.le_succ _), htake, hlength, List.take_left] at hcut
  exact hcut

/-- Every host and path that are not empty make a request, unless it is too long. -/
theorem buildsRequest_requestText (hhost : 0 ∉ host) (hpath : 0 ∉ path) (hhostNe : host ≠ [])
    (hpathNe : path ≠ []) (hlen : (requestText path host).length ≤ intMax) :
    BuildsRequest host path (requestText path host) := by
  have hhostArg : cString (host ++ [0]) 0 = .ok host := cString_eq_ok_iff.2 ⟨hhost, [], rfl⟩
  have hpathArg : cString (path ++ [0]) 0 = .ok path := cString_eq_ok_iff.2 ⟨hpath, [], rfl⟩
  obtain ⟨n, left, hrun, haccepted, hbuilt⟩ := httpBuildGetRequest_eq hhostArg hpathArg
    (List.length_replicate (n := (requestText path host).length + 1) (a := (0 : UInt8))).ge
  have hn := haccepted.2 ⟨hhostNe, hpathNe, hlen, Nat.lt_succ_self _⟩
  obtain ⟨rfl, hleft⟩ := hbuilt hn
  refine ⟨_, _, _, _, left, List.length_replicate.ge, hhostArg, hpathArg,
    mt List.length_eq_zero_iff.2 hn, hrun, ?_⟩
  have hcut := congrArg (List.take (requestText path host).length) hleft
  rwa [List.take_take, Nat.min_eq_left (Nat.le_succ _), List.take_left] at hcut

end Build

/-! ### Lines -/

section Lines

variable {host path : List UInt8}

/-- A line end in a text with something before it that has no CR. -/
theorem crLf_infix_append_left {before w : List UInt8} (hbefore : charCr ∉ before) :
    crLf <:+: before ++ w ↔ crLf <:+: w := by
  induction before with
  | nil => rfl
  | cons c before ih =>
      rw [List.mem_cons, not_or] at hbefore
      rw [List.cons_append, List.infix_cons_iff, ih hbefore.2, or_iff_right]
      exact fun hpre => hbefore.1 (List.cons_prefix_cons.1 hpre).1

/-- A line end in a text with something behind it that has no LF. -/
theorem crLf_infix_append_right {w after : List UInt8} (hafter : charLf ∉ after) :
    crLf <:+: w ++ after ↔ crLf <:+: w := by
  refine ⟨fun h => ?_, fun h => h.trans (List.prefix_append w after).isInfix⟩
  induction w with
  | nil => exact absurd (h.subset (by decide : charLf ∈ crLf)) hafter
  | cons c w ih =>
      rw [List.cons_append, List.infix_cons_iff] at h
      rcases h with hpre | hwithin
      · obtain ⟨hc, hrest⟩ := List.cons_prefix_cons.1 hpre
        cases w with
        | nil => exact absurd (hrest.subset (List.mem_singleton.2 rfl)) hafter
        | cons d w =>
            obtain ⟨hd, -⟩ := List.cons_prefix_cons.1 hrest
            exact ⟨[], w, by rw [← hc, ← hd]; rfl⟩
      · exact (ih hwithin).trans (List.suffix_cons c w).isInfix

theorem crLf_infix_requestLine : crLf <:+: requestLine path ↔ crLf <:+: path := by
  rw [requestLine, crLf_infix_append_right (by decide), crLf_infix_append_left (by decide)]

theorem crLf_infix_hostLine : crLf <:+: hostLine host ↔ crLf <:+: host := by
  rw [hostLine, crLf_infix_append_left (by decide)]

/-- The lines that every request has behind the host. -/
def otherLines : List (List UInt8) := [userAgentLine, acceptLine, connectionLine, [], []]

/-- The lines of a request are those that the arguments make, and the others. -/
theorem crLfLines_requestText (path host : List UInt8) :
    crLfLines (requestText path host) =
      crLfLines (requestLine path) ++ (crLfLines (hostLine host) ++ otherLines) := by
  rw [requestText, joinLines_cons, crLfLines_join, joinLines_cons, crLfLines_join]
  rfl

/-- **A request with seven lines** has one for each of its arguments. -/
theorem length_crLfLines_requestText :
    (crLfLines (requestText path host)).length = 7 ↔ ¬crLf <:+: path ∧ ¬crLf <:+: host := by
  have hothers : otherLines.length = 5 := rfl
  have hline := List.length_pos_of_ne_nil (crLfLines_ne_nil (requestLine path))
  have hhost := List.length_pos_of_ne_nil (crLfLines_ne_nil (hostLine host))
  rw [← @crLf_infix_requestLine path, ← @crLf_infix_hostLine host, ← length_crLfLines_eq_one_iff,
    ← length_crLfLines_eq_one_iff, crLfLines_requestText, List.length_append, List.length_append,
    hothers]
  omega

/-- A path and a host without ends of lines leave the lines of the request as they were meant. -/
theorem crLfLines_requestText_eq (hpath : ¬crLf <:+: path) (hhost : ¬crLf <:+: host) :
    crLfLines (requestText path host) = requestLine path :: hostLine host :: otherLines := by
  rw [crLfLines_requestText, crLfLines_eq_singleton (mt crLf_infix_requestLine.1 hpath),
    crLfLines_eq_singleton (mt crLf_infix_hostLine.1 hhost)]
  rfl

/-- **A request without other line ends** is the request of one path and one host. -/
theorem requestText_inj {path' host' : List UInt8} (hpath : ¬crLf <:+: path)
    (hhost : ¬crLf <:+: host) (h : requestText path' host' = requestText path host) :
    host' = host ∧ path' = path := by
  have hcount := length_crLfLines_requestText.2 ⟨hpath, hhost⟩
  rw [← h, length_crLfLines_requestText] at hcount
  have hlines := congrArg crLfLines h
  rw [crLfLines_requestText_eq hcount.1 hcount.2, crLfLines_requestText_eq hpath hhost] at hlines
  obtain ⟨hline, hrest⟩ := List.cons.inj hlines
  exact ⟨List.append_cancel_left (List.cons.inj hrest).1,
    List.append_cancel_left (List.append_cancel_right hline)⟩

/-! ### What a request asks for -/

/-- What a line has between `"GET "` and the first `" HTTP/1.1"` behind it. -/
def lineTarget (line : List UInt8) : Option (List UInt8) :=
  if getStart <+: line then
    (findString versionEnd (line.drop getStart.length)).map (line.drop getStart.length).take
  else none

/-- What a line has behind `"Host: "`. -/
def lineHost (line : List UInt8) : Option (List UInt8) :=
  if hostStart <+: line then some (line.drop hostStart.length) else none

/-- The target of a request. -/
def requestTarget (request : List UInt8) : Option (List UInt8) :=
  lineTarget ((crLfLines request).headD [])

/-- The host of a request, in the line behind the first one. -/
def requestHost (request : List UInt8) : Option (List UInt8) :=
  lineHost ((crLfLines request).getD 1 [])

/-- The request says what was asked, and nothing else. -/
structure SaysWhatWasAsked (host path request : List UInt8) : Prop where
  pieces : crLfLines request = [requestLine path, hostLine host, userAgentLine, acceptLine,
    connectionLine, [], []]
  target : requestTarget request = some path
  host_eq : requestHost request = some host
  only : ∀ host' path', BuildsRequest host' path' request → host' = host ∧ path' = path

/-- The version behind a path is the first one when the path has none. -/
theorem findString_versionEnd :
    findString versionEnd (path ++ versionEnd) = some path.length ↔ ¬versionEnd <:+: path := by
  rw [findString_eq_some_iff]
  constructor
  · rintro ⟨-, -, hfirst⟩ ⟨before, after, heq⟩
    refine hfirst before.length ?_ ?_
    · rw [← heq]
      simp only [List.length_append, versionEnd, List.length_cons]
      omega
    · rw [← heq, List.append_assoc, List.append_assoc, List.drop_left]
      exact List.prefix_append ..
  · intro h
    refine ⟨by simp, by rw [List.drop_left], fun i hi hpre => h ?_⟩
    -- the version has no other space, and so the one that is found does not reach the last one
    rw [List.drop_append_of_le_length hi.le, List.drop_eq_getElem_cons hi, List.cons_append] at hpre
    obtain ⟨hspace, hrest⟩ := List.cons_prefix_cons.1 hpre
    have hwithin := prefix_of_notMem (by decide : (32 : UInt8) ∉ versionEnd.tail) hrest
    have hthere : versionEnd <+: path.drop i := by
      rw [List.drop_eq_getElem_cons hi]
      exact List.cons_prefix_cons.2 ⟨hspace, hwithin⟩
    exact hthere.isInfix.trans (List.drop_suffix i path).isInfix

theorem lineTarget_requestLine : lineTarget (requestLine path) =
    (findString versionEnd (path ++ versionEnd)).map (path ++ versionEnd).take := by
  have hline : requestLine path = getStart ++ (path ++ versionEnd) := List.append_assoc ..
  rw [hline, lineTarget, if_pos (List.prefix_append ..), List.drop_left]

theorem lineHost_hostLine : lineHost (hostLine host) = some host := by
  rw [hostLine, lineHost, if_pos (List.prefix_append ..), List.drop_left]

/-- **A request says what was asked** when neither argument has a line end, and the path no
version. -/
theorem saysWhatWasAsked_iff :
    SaysWhatWasAsked host path (requestText path host) ↔
      ¬crLf <:+: host ∧ ¬crLf <:+: path ∧ ¬versionEnd <:+: path := by
  have hparts : ¬crLf <:+: path → ¬crLf <:+: host →
      requestTarget (requestText path host) = lineTarget (requestLine path) ∧
        requestHost (requestText path host) = lineHost (hostLine host) := by
    intro hpath hhost
    rw [requestTarget, requestHost, crLfLines_requestText_eq hpath hhost]
    exact ⟨rfl, rfl⟩
  constructor
  · rintro ⟨hpieces, htarget, -, -⟩
    have hcount : (crLfLines (requestText path host)).length = 7 := by
      rw [hpieces]
      rfl
    obtain ⟨hpath, hhost⟩ := length_crLfLines_requestText.1 hcount
    refine ⟨hhost, hpath, findString_versionEnd.1 ?_⟩
    rw [(hparts hpath hhost).1, lineTarget_requestLine] at htarget
    obtain ⟨k, hk, htake⟩ := Option.map_eq_some_iff.1 htarget
    have hle := (findString_eq_some_iff.1 hk).1
    have hlength : k = path.length := by
      have hcut := congrArg List.length htake
      rwa [List.length_take, Nat.min_eq_left hle] at hcut
    exact hlength ▸ hk
  · rintro ⟨hhost, hpath, hversion⟩
    obtain ⟨htarget, hvalue⟩ := hparts hpath hhost
    refine ⟨crLfLines_requestText_eq hpath hhost, ?_, hvalue.trans lineHost_hostLine,
      fun host' path' hbuilds => ?_⟩
    · rw [htarget, lineTarget_requestLine, findString_versionEnd.2 hversion, Option.map_some,
        List.take_left]
    · exact requestText_inj hpath hhost hbuilds.eq_requestText.symm

/-- **A built request says exactly what was asked** if and only if neither the host nor the path has
a CR LF in it and the path does not have the text behind it in the request line. -/
theorem httpBuildGetRequest_asked_iff {buffer hostArg pathArg : List UInt8} {bufferLen : ℕ}
    (hhost : cString hostArg 0 = .ok host) (hpath : cString pathArg 0 = .ok path)
    (hroom : bufferLen ≤ buffer.length) :
    ∃ n left, httpBuildGetRequest buffer bufferLen hostArg pathArg = .ok (n, left) ∧
      (n ≠ 0 → left.take (n + 1) = requestText path host ++ [0] ∧
        (SaysWhatWasAsked host path (left.take n) ↔
          ¬crLf <:+: host ∧ ¬crLf <:+: path ∧ ¬versionEnd <:+: path)) := by
  obtain ⟨n, left, hrun, -, hbuilt⟩ := httpBuildGetRequest_eq hhost hpath hroom
  refine ⟨n, left, hrun, fun hn => ?_⟩
  obtain ⟨hlength, hleft⟩ := hbuilt hn
  have htake : left.take n = requestText path host := by
    have hcut := congrArg (List.take n) hleft
    rw [List.take_take, Nat.min_eq_left (Nat.le_succ _)] at hcut
    rw [hcut, hlength, List.take_left]
  exact ⟨hleft, htake ▸ saysWhatWasAsked_iff⟩

end Lines

/-! ### Arguments -/

/-- `"example.com"` -/
def exampleHost : List UInt8 := [101, 120, 97, 109, 112, 108, 101, 46, 99, 111, 109]

/-- An ordinary request. -/
theorem httpBuildGetRequest_asked_example :
    ∃ n left, httpBuildGetRequest (List.replicate 256 0) 256 (exampleHost ++ [0]) [47, 0] =
        .ok (n, left) ∧
      (n ≠ 0 → left.take (n + 1) = requestText [47] exampleHost ++ [0] ∧
        (SaysWhatWasAsked exampleHost [47] (left.take n) ↔
          ¬crLf <:+: exampleHost ∧ ¬crLf <:+: [47] ∧ ¬versionEnd <:+: [47])) :=
  httpBuildGetRequest_asked_iff (by decide) (by decide) List.length_replicate.ge

/-- `"a HTTP/1.1\r\nHost: b"` -/
def injectingPath : List UInt8 :=
  [97, 32, 72, 84, 84, 80, 47, 49, 46, 49, 13, 10, 72, 111, 115, 116, 58, 32, 98]

/-- `"b HTTP/1.1\r\nHost: c"` -/
def injectingHost : List UInt8 :=
  [98, 32, 72, 84, 84, 80, 47, 49, 46, 49, 13, 10, 72, 111, 115, 116, 58, 32, 99]

/-- Two pairs of arguments make one request, which has a header line more than it should. -/
theorem injectingPath_ambiguous :
    BuildsRequest [99] injectingPath (requestText injectingPath [99]) ∧
      BuildsRequest injectingHost [97] (requestText injectingPath [99]) ∧
      (crLfLines (requestText injectingPath [99])).length = 8 ∧
      ¬SaysWhatWasAsked [99] injectingPath (requestText injectingPath [99]) := by
  have hsame : requestText injectingPath [99] = requestText [97] injectingHost := by decide
  have hsecond := @buildsRequest_requestText injectingHost [97] (by decide) (by decide) (by decide)
    (by decide) (by decide)
  refine ⟨buildsRequest_requestText (by decide) (by decide) (by decide) (by decide) (by decide),
    hsame ▸ hsecond, by decide +kernel, fun h => ?_⟩
  exact absurd (h.only _ _ (hsame ▸ hsecond)).1 (by decide)

end Netstack
