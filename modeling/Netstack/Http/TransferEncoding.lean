/-
# Transfer-Encoding

A response is chunked when one of its `Transfer-Encoding` fields lists the coding `chunked`
(`ListsChunked`).  `http_response_is_chunked` looks at the first of these fields only, and
there for the letters wherever they stand (`httpResponseIsChunked_eq`).  It is wrong about the
heads whose first field has the letters although none lists the coding, and about those where
only a later field has it (`httpResponseIsChunked_semantics_iff`).
-/

import Netstack.Library.Padding
import Netstack.Http.Head

namespace Netstack

/-! ### Fields -/

/-- The letters of a text without their case. -/
def lower (text : List UInt8) : List UInt8 := text.map tolower

/-- The header field has this name, and a colon directly behind it. -/
def HasName (name field : List UInt8) : Prop :=
  lower (field.take name.length) = lower name ∧ field[name.length]? = some 58

instance (name field : List UInt8) : Decidable (HasName name field) :=
  inferInstanceAs (Decidable (_ ∧ _))

/-- The values of the `Transfer-Encoding` fields, in their order. -/
def transferEncodings (lines : List (List UInt8)) : List (List UInt8) :=
  (lines.filter (HasName transferEncodingName ·)).map (·.drop (transferEncodingName.length + 1))

/-- The element of a list of codings is `chunked`, with parameters or without. -/
def IsChunkedCoding (element : List UInt8) : Prop :=
  ∃ coding, IsPadded IsBlank (element.takeWhile (· ≠ 59)) coding ∧ lower coding = chunkedName

/-- The value lists the coding. -/
def ListsChunked (value : List UInt8) : Prop :=
  ∃ element ∈ value.splitOn 44, IsChunkedCoding element

/-- The value has the letters somewhere. -/
def ContainsChunked (value : List UInt8) : Prop := chunkedName <:+: lower value

instance (value : List UInt8) : Decidable (ContainsChunked value) :=
  inferInstanceAs (Decidable (_ <:+: _))

theorem ContainsChunked.length_le {value : List UInt8} (h : ContainsChunked value) :
    chunkedName.length ≤ value.length := by
  have hle := List.IsInfix.length_le h
  rwa [lower, List.length_map] at hle

/-! ### Comparisons -/

section Comparisons

variable {data rest : List UInt8} {i : ℕ}

/-- Comparing character by character, without case, is comparing the lowered texts, if they have
the same length. -/
theorem matchesNocase_eq {text name : List UInt8} (hlen : text.length = name.length)
    (h : data.drop i = text ++ rest) :
    matchesNocase data i name = .ok (decide (lower text = lower name)) := by
  induction name generalizing text i with
  | nil =>
      obtain rfl := List.length_eq_zero_iff.1 hlen
      rfl
  | cons c name ih =>
      cases text with
      | nil => exact absurd hlen (by simp)
      | cons d text =>
          have hnext : data.drop (i + 1) = text ++ rest := by
            rw [← List.drop_drop, h]
            rfl
          rw [matchesNocase, readAt_of_drop h, ok_bind, ih (Nat.succ.inj hlen) hnext]
          have hcons : lower (d :: text) = lower (c :: name) ↔
              tolower d = tolower c ∧ lower text = lower name := by simp [lower]
          by_cases hc : tolower d = tolower c
          · have hsame : asciiEqualNocase d c = true := decide_eq_true hc
            rw [if_pos hsame]
            exact congrArg _ (decide_eq_decide.2 (hcons.trans (and_iff_right hc)).symm)
          · have hother : ¬asciiEqualNocase d c = true := by simpa [asciiEqualNocase] using hc
            rw [if_neg hother]
            exact congrArg _ (decide_eq_false (mt (And.left ∘ hcons.1) hc)).symm

/-- A header name is the text before a colon. The three cases are those of the source: the line
is too short to have the name and a colon, the name differs, or it is the character behind it
that decides. -/
theorem headerNameMatches_eq {field : List UInt8} (name : List UInt8)
    (h : data.drop i = field ++ rest) :
    headerNameMatches data i field.length name = .ok (decide (HasName name field)) := by
  unfold headerNameMatches
  by_cases hshort : field.length < name.length + 1
  · have hnot : ¬HasName name field := fun hname => by
      have hnone : field[name.length]? = none := List.getElem?_eq_none (by omega)
      exact absurd (hnone.symm.trans hname.2) (by simp)
    rw [if_pos hshort, decide_eq_false hnot]
    rfl
  have hlt : name.length < field.length := by omega
  have htake : (field.take name.length).length = name.length := by
    rw [List.length_take]
    omega
  have hname : data.drop i = field.take name.length ++ (field.drop name.length ++ rest) := by
    rw [h, ← List.append_assoc, List.take_append_drop]
  have hcolon : data.drop (i + name.length) =
      field[name.length] :: (field.drop (name.length + 1) ++ rest) := by
    rw [← List.drop_drop, h, List.drop_append_of_le_length hlt.le, List.drop_eq_getElem_cons hlt]
    rfl
  have hget : field[name.length]? = some 58 ↔ field[name.length] = 58 := by
    rw [List.getElem?_eq_getElem hlt, Option.some.injEq]
  rw [if_neg hshort, matchesNocase_eq htake hname, ok_bind]
  by_cases hsame : lower (field.take name.length) = lower name
  · have hiff : HasName name field ↔ field[name.length] = 58 := by
      rw [HasName, hget, and_iff_right hsame]
    rw [decide_eq_true hsame, readAt_of_drop hcolon, decide_eq_decide.2 hiff]
    rfl
  · have hnot : ¬HasName name field := mt And.left hsame
    rw [decide_eq_false hsame, decide_eq_false hnot]
    rfl

/-- **The window search of `value_contains_chunked` decides an infix.** The induction is on what
is left of the value. A window of seven characters is compared where it fits, and where it does
not the word cannot be there any more; a comparison that fails moves on by one character, as an
infix of `c :: text` that is no prefix is one of `text`. -/
theorem valueContainsChunkedLoop_eq {value valueLen j : ℕ} {text : List UInt8} {fuel : ℕ}
    (h : data.drop (value + j) = text ++ rest) (hlen : j + text.length = valueLen)
    (hfuel : text.length < fuel) :
    valueContainsChunkedLoop data value valueLen fuel j = .ok (decide (ContainsChunked text)) := by
  induction text generalizing j fuel with
  | nil =>
      obtain ⟨fuel, rfl⟩ : ∃ n, fuel = n + 1 := Nat.exists_eq_add_one.2 hfuel
      have hshort : ¬j + chunkedName.length ≤ valueLen := by
        rw [← hlen]
        exact Nat.not_le_of_lt (Nat.add_lt_add_left (by decide) j)
      rw [valueContainsChunkedLoop, if_neg hshort]
      rfl
  | cons c text ih =>
      obtain ⟨fuel, rfl⟩ : ∃ n, fuel = n + 1 := Nat.exists_eq_add_one.2 (by omega)
      rw [valueContainsChunkedLoop]
      by_cases hlong : chunkedName.length ≤ (c :: text).length
      swap
      · have hnot : ¬ContainsChunked (c :: text) := mt ContainsChunked.length_le hlong
        rw [if_neg (by omega), decide_eq_false hnot]
        rfl
      have htake : ((c :: text).take chunkedName.length).length = chunkedName.length := by
        rw [List.length_take]
        omega
      have hhere : data.drop (value + j) = (c :: text).take chunkedName.length ++
          ((c :: text).drop chunkedName.length ++ rest) := by
        rw [h, ← List.append_assoc, List.take_append_drop]
      have hnext : data.drop (value + (j + 1)) = text ++ rest := by
        rw [← Nat.add_assoc, ← List.drop_drop, h]
        rfl
      have hstart : lower ((c :: text).take chunkedName.length) = lower chunkedName ↔
          chunkedName <+: lower (c :: text) := by
        rw [List.prefix_iff_eq_take, lower, lower, lower, List.map_take]
        exact eq_comm
      have hwithin : ContainsChunked (c :: text) ↔
          chunkedName <+: lower (c :: text) ∨ ContainsChunked text := List.infix_cons_iff
      rw [if_pos (by omega), matchesNocase_eq htake hhere, ok_bind]
      by_cases hsame : lower ((c :: text).take chunkedName.length) = lower chunkedName
      · rw [decide_eq_true hsame, decide_eq_true (hwithin.2 (Or.inl (hstart.1 hsame)))]
        rfl
      · have hrest := hwithin.trans (or_iff_right (mt hstart.2 hsame))
        rw [List.length_cons] at hlen hfuel
        rw [decide_eq_false hsame, decide_eq_decide.2 hrest]
        exact ih hnext (by omega) (by omega)

/-- The whole search: it begins at the first character, and the fuel is more than the value is
long. -/
theorem valueContainsChunked_eq {value : List UInt8} (h : data.drop i = value ++ rest) :
    valueContainsChunked data i value.length = .ok (decide (ContainsChunked value)) := by
  unfold valueContainsChunked
  by_cases hshort : value.length < chunkedName.length
  · have hnot : ¬ContainsChunked value := fun h => Nat.not_le_of_lt hshort h.length_le
    rw [if_pos hshort, decide_eq_false hnot]
    rfl
  · rw [if_neg hshort]
    exact valueContainsChunkedLoop_eq h (Nat.zero_add _) (Nat.lt_succ_self _)

end Comparisons

/-! ### The loop over the header lines -/

/-- The answer that the first field gives. -/
def firstAnswer : List (List UInt8) → ℤ
  | [] => 0
  | value :: _ => if ContainsChunked value then 1 else 0

section Scan

variable {data string rest : List UInt8} {cursor headerLen : ℕ}

/-- There is no colon in the name. -/
theorem colon_not_mem {line : List UInt8} (h : HasName transferEncodingName line) :
    58 ∉ line.take transferEncodingName.length := fun hmem => by
  have hlower : tolower 58 ∈ lower (line.take transferEncodingName.length) :=
    List.mem_map_of_mem hmem
  rw [h.1] at hlower
  exact absurd hlower (by decide)

/-- A line with a name is the name, a colon and the rest. -/
theorem hasName_split {name line : List UInt8} (h : HasName name line) :
    line = line.take name.length ++ 58 :: line.drop (name.length + 1) ∧
      (line.take name.length).length = name.length := by
  obtain ⟨hlt, hget⟩ := List.getElem?_eq_some_iff.1 h.2
  constructor
  · rw [← hget, ← List.drop_eq_getElem_cons hlt, List.take_append_drop]
  · rw [List.length_take]
    omega

/-- **The loop** answers by the first `Transfer-Encoding` field. -/
theorem httpScanHeaders_eq (hstring : cString data 0 = .ok string) {lines : List (List UInt8)}
    {fuel : ℕ} (hne : ∀ line ∈ lines, line ≠ []) (hlines : ∀ line ∈ lines, ¬crLf <:+: line)
    (h : string.drop cursor = joinLines lines ++ (crLf ++ rest))
    (hend : headerLen = cursor + (joinLines lines).length + 2) (hfuel : lines.length < fuel) :
    httpScanHeaders data headerLen fuel cursor = .ok (firstAnswer (transferEncodings lines)) := by
  have hcursor : cursor ≤ string.length :=
    (Nat.le_add_right _ _).trans (offset_le_of_drop h (by simp [crLf]))
  induction lines generalizing cursor fuel with
  | nil =>
      obtain ⟨fuel, rfl⟩ : ∃ n, fuel = n + 1 := Nat.exists_eq_add_one.2 hfuel
      have hfound : findString crLf (string.drop cursor) = some 0 := by
        rw [← crLfIndex_eq_findString, h]
        rfl
      rw [httpScanHeaders, if_pos (by omega), strstr_eq hstring hcursor, hfound, ok_bind]
      simp only [Option.map_some, Nat.add_zero, Nat.sub_self, if_true]
      rw [if_neg (by omega)]
      rfl
  | cons line lines ih =>
      obtain ⟨fuel, rfl⟩ : ∃ n, fuel = n + 1 := Nat.exists_eq_add_one.2 (by omega)
      have hline := hlines line (List.mem_cons_self ..)
      have hpos := List.length_pos_iff.2 (hne line (List.mem_cons_self ..))
      rw [joinLines_cons] at h
      have hlength : (joinLines (line :: lines)).length = line.length + 2 + (joinLines lines).length := by
        simp only [joinLines, List.flatMap_cons, List.length_append]
        rfl
      have hfound : findString crLf (string.drop cursor) = some line.length := by
        rw [← crLfIndex_eq_findString, h, crLfIndex_append hline]
      obtain ⟨-, after, hdata⟩ := cString_eq_ok_iff.1 (cString_drop hstring hcursor)
      have hhere : data.drop cursor =
          line ++ (crLf ++ (joinLines lines ++ (crLf ++ rest)) ++ 0 :: after) := by
        rw [← List.append_assoc, ← h, ← hdata, Nat.zero_add]
      rw [httpScanHeaders, if_pos (by omega), strstr_eq hstring hcursor, hfound, ok_bind]
      simp only [Option.map_some, Nat.add_sub_cancel_left]
      rw [if_neg (by omega), if_neg (by omega), headerNameMatches_eq _ hhere, ok_bind]
      by_cases hname : HasName transferEncodingName line
      · obtain ⟨hsplit, htake⟩ := hasName_split hname
        have hvalue : transferEncodings (line :: lines) =
            line.drop (transferEncodingName.length + 1) :: transferEncodings lines := by
          simp [transferEncodings, hname]
        have hcolon : data.drop cursor = line.take transferEncodingName.length ++ 58 ::
            (line.drop (transferEncodingName.length + 1) ++
              (crLf ++ (joinLines lines ++ (crLf ++ rest)) ++ 0 :: after)) := by
          rw [hhere]
          nth_rewrite 1 [hsplit]
          simp
        have hbehind : data.drop (cursor + transferEncodingName.length + 1) =
            line.drop (transferEncodingName.length + 1) ++
              (crLf ++ (joinLines lines ++ (crLf ++ rest)) ++ 0 :: after) := by
          rw [Nat.add_assoc, ← List.drop_drop, hcolon]
          nth_rewrite 1 [← htake]
          rw [List.drop_append]
          simp
        have hlen : cursor + line.length - (cursor + transferEncodingName.length + 1) =
            (line.drop (transferEncodingName.length + 1)).length := by
          rw [List.length_drop]
          omega
        have hlt := (List.getElem?_eq_some_iff.1 hname.2).1
        rw [decide_eq_true hname, if_pos rfl, memchr_eq (colon_not_mem hname) hcolon (by omega),
          htake, ok_bind]
        dsimp only
        rw [hlen, valueContainsChunked_eq hbehind, hvalue]
        simp [firstAnswer]
      · have hvalue : transferEncodings (line :: lines) = transferEncodings lines := by
          simp [transferEncodings, hname]
        have hnext : string.drop (cursor + line.length + 2) = joinLines lines ++ (crLf ++ rest) := by
          rw [Nat.add_assoc, ← List.drop_drop, h, ← List.drop_drop, List.drop_left]
          rfl
        rw [decide_eq_false hname, if_neg (by decide), hvalue]
        rw [List.length_cons] at hfuel
        exact ih (fun l hl => hne l (List.mem_cons_of_mem _ hl))
          (fun l hl => hlines l (List.mem_cons_of_mem _ hl)) hnext (by omega) (by omega)
          ((Nat.le_add_right _ _).trans (offset_le_of_drop hnext (by simp [crLf])))

/-- Every line takes at least its end, so that the number of lines is a measure for the loop. -/
theorem length_le_joinLines (lines : List (List UInt8)) :
    lines.length ≤ (joinLines lines).length := by
  induction lines with
  | nil => exact le_rfl
  | cons line lines ih =>
      have hcons := joinLines_cons line lines []
      rw [List.append_nil, List.append_nil] at hcons
      rw [hcons, List.length_cons, List.length_append, List.length_append, crLf]
      simp only [List.length_cons, List.length_nil]
      omega

/-- **`http_response_is_chunked`** of a response that has a head. -/
theorem httpResponseIsChunked_eq {first : List UInt8} {lines : List (List UInt8)}
    (hhead : IsHead first lines)
    (hstring : cString data 0 = .ok (headBytes first lines ++ rest)) :
    httpResponseIsChunked data (headBytes first lines).length =
      .ok (firstAnswer (transferEncodings lines)) := by
  have hparts : headBytes first lines ++ rest = first ++ (crLf ++ (joinLines lines ++ (crLf ++ rest))) := by
    simp [headBytes]
  have htwo : crLf.length = 2 := rfl
  have hlength : (headBytes first lines).length = first.length + 2 + (joinLines lines).length + 2 := by
    simp only [headBytes, List.length_append, htwo]
    omega
  have hfirst : findString crLf ((headBytes first lines ++ rest).drop 0) = some first.length := by
    rw [List.drop_zero, ← crLfIndex_eq_findString, hparts, crLfIndex_append hhead.first_line]
  have hdrop : (headBytes first lines ++ rest).drop (first.length + 2) =
      joinLines lines ++ (crLf ++ rest) := by
    rw [hparts, ← List.drop_drop, List.drop_left]
    rfl
  obtain ⟨-, after, hdata⟩ := cString_eq_ok_iff.1 hstring
  have hfuel := congrArg List.length hdata
  rw [List.drop_zero, List.length_append, List.length_append, hlength] at hfuel
  have hlines := length_le_joinLines lines
  unfold httpResponseIsChunked
  rw [if_neg (by omega), strstr_eq hstring (Nat.zero_le _), hfirst, ok_bind]
  dsimp only [Option.map_some]
  rw [Nat.zero_add, if_neg (by omega)]
  exact httpScanHeaders_eq hstring hhead.ne_nil hhead.line hdrop hlength (by omega)

end Scan

/-! ### The meaning of the fields -/

/-- An element of a list is a part of its text. -/
theorem isInfix_of_mem_splitOn {value element : List UInt8} {c : UInt8}
    (h : element ∈ value.splitOn c) : element <:+: value := by
  obtain ⟨i, hi⟩ := List.mem_iff_getElem?.1 h
  have hmem : element ∈ (value.splitOn c).intersperse [c] :=
    List.mem_of_getElem? (List.getElem?_intersperse_two_mul.trans hi)
  have hwithin := List.infix_of_mem_flatten hmem
  have hvalue : ((value.splitOn c).intersperse [c]).flatten = value := List.intercalate_splitOn c
  rwa [hvalue] at hwithin

/-- The letters are there when the coding is listed. -/
theorem ListsChunked.containsChunked {value : List UInt8} (h : ListsChunked value) :
    ContainsChunked value := by
  obtain ⟨element, hmem, coding, ⟨before, after, hpart, -⟩, hcoding⟩ := h
  have hwithin : coding <:+: element := by
    refine List.IsInfix.trans ?_ (List.takeWhile_prefix (· ≠ 59)).isInfix
    exact hpart ▸ ⟨before, after, rfl⟩
  rw [ContainsChunked, ← hcoding]
  exact (hwithin.trans (isInfix_of_mem_splitOn hmem)).map tolower

/-- The response is chunked. -/
def IsChunkedHead (head : List UInt8) : Prop :=
  ∃ value ∈ transferEncodings (headerLines head), ListsChunked value

/-- The first field has the letters, and no field lists the coding. -/
def OnlyResembles (head : List UInt8) : Prop :=
  ∃ value ∈ (transferEncodings (headerLines head)).head?, ContainsChunked value ∧
    ¬IsChunkedHead head

/-- The first field does not have the letters, and another one lists the coding. -/
def OnlyLater (head : List UInt8) : Prop :=
  ∃ value ∈ (transferEncodings (headerLines head)).head?, ¬ContainsChunked value ∧
    ∃ later ∈ (transferEncodings (headerLines head)).tail, ListsChunked later

/-- The answer of the first transfer-encoding line is the right one unless that line only looks
like it or a later one says otherwise. -/
theorem firstAnswer_eq_iff (head : List UInt8) :
    (firstAnswer (transferEncodings (headerLines head)) = 1 ↔ IsChunkedHead head) ∧
        (firstAnswer (transferEncodings (headerLines head)) = 0 ↔ ¬IsChunkedHead head) ↔
      ¬OnlyResembles head ∧ ¬OnlyLater head := by
  unfold OnlyResembles OnlyLater IsChunkedHead
  cases transferEncodings (headerLines head) with
  | nil => simp [firstAnswer]
  | cons value values =>
      have hlists := @ListsChunked.containsChunked value
      by_cases hcontains : ContainsChunked value
      · simp [firstAnswer, hcontains, or_iff_not_imp_left]
      · simp [firstAnswer, hcontains, mt hlists hcontains]

/-- **`http_response_is_chunked` reads the header semantics** of an accepted response unless the
first `Transfer-Encoding` field only resembles the coding or only a later one lists it; and
whatever follows the head, its answer is the same. -/
theorem httpResponseIsChunked_semantics_iff {data : List UInt8} {dataLen : ℕ}
    {response₀ response : HttpResponse} (hobject : data.length ≤ maxObjectLen)
    (hparse : httpParseResponse data dataLen response₀ = .ok (0, response)) :
    (∃ result, (∀ body after : List UInt8, httpResponseIsChunked
          (data.take response.headerLen ++ body ++ 0 :: after) response.headerLen = .ok result) ∧
        httpResponseIsChunked data response.headerLen = .ok result ∧
        (result = 1 ↔ IsChunkedHead (data.take response.headerLen)) ∧
        (result = 0 ↔ ¬IsChunkedHead (data.take response.headerLen))) ↔
      ¬OnlyResembles (data.take response.headerLen) ∧
        ¬OnlyLater (data.take response.headerLen) := by
  obtain ⟨first, lines, rest, hhead, hstring, htake, hlen⟩ := exists_head hobject hparse
  have hanswer := httpResponseIsChunked_eq hhead hstring
  have hothers : ∀ body after : List UInt8, httpResponseIsChunked
      (headBytes first lines ++ body ++ 0 :: after) (headBytes first lines).length =
        .ok (firstAnswer (transferEncodings lines)) := fun body after => by
    obtain ⟨front, after', hfront, hbody⟩ := exists_cString body after
    have hnul : 0 ∉ headBytes first lines := fun hmem =>
      (cString_eq_ok_iff.1 hstring).1 (List.mem_append_left _ hmem)
    have hother : cString (headBytes first lines ++ body ++ 0 :: after) 0 =
        .ok (headBytes first lines ++ front) := by
      refine cString_eq_ok_iff.2 ⟨?_, after', ?_⟩
      · exact fun hmem => (List.mem_append.1 hmem).elim hnul hfront
      · rw [List.drop_zero, List.append_assoc, hbody, List.append_assoc]
    exact httpResponseIsChunked_eq hhead hother
  rw [htake, hlen, ← firstAnswer_eq_iff, headerLines_headBytes hhead]
  constructor
  · rintro ⟨result, -, hresult, hmeaning⟩
    obtain rfl := Except.ok.inj (hanswer.symm.trans hresult)
    exact hmeaning
  · exact fun hmeaning => ⟨_, hothers, hanswer, hmeaning⟩

/-- The head of `test_chunked_detection_case_insensitive`. -/
def lowerCaseHead : List UInt8 :=
  [72, 84, 84, 80, 47, 49, 46, 49, 32, 50, 48, 48, 32, 79, 75, 13, 10, 116, 114, 97, 110, 115,
    102, 101, 114, 45, 101, 110, 99, 111, 100, 105, 110, 103, 58, 32, 67, 104, 117, 110, 107,
    101, 100, 13, 10, 13, 10]

/-- The test's response, with its body. -/
theorem httpResponseIsChunked_semantics_lowerCase :
    httpParseResponse (lowerCaseHead ++ [48, 13, 10, 13, 10, 0]) (lowerCaseHead.length + 5) .zeroed =
        .ok (0, ⟨200, [79, 75] ++ List.replicate 62 0, lowerCaseHead.length,
          some lowerCaseHead.length, 5⟩) ∧
      ((∃ result, (∀ body after : List UInt8, httpResponseIsChunked
            (lowerCaseHead ++ body ++ 0 :: after) lowerCaseHead.length = .ok result) ∧
          httpResponseIsChunked (lowerCaseHead ++ [48, 13, 10, 13, 10, 0]) lowerCaseHead.length =
            .ok result ∧
          (result = 1 ↔ IsChunkedHead lowerCaseHead) ∧ (result = 0 ↔ ¬IsChunkedHead lowerCaseHead)) ↔
        ¬OnlyResembles lowerCaseHead ∧ ¬OnlyLater lowerCaseHead) := by
  have hparse : httpParseResponse (lowerCaseHead ++ [48, 13, 10, 13, 10, 0])
      (lowerCaseHead.length + 5) .zeroed = .ok (0, ⟨200, [79, 75] ++ List.replicate 62 0,
        lowerCaseHead.length, some lowerCaseHead.length, 5⟩) := by decide +kernel
  exact ⟨hparse, httpResponseIsChunked_semantics_iff (by decide +kernel) hparse⟩

/-- A head with the coding `unchunked`. -/
def unchunkedHead : List UInt8 :=
  [72, 84, 84, 80, 47, 49, 46, 49, 32, 50, 48, 48, 13, 10, 84, 114, 97, 110, 115, 102, 101, 114,
    45, 69, 110, 99, 111, 100, 105, 110, 103, 58, 32, 117, 110, 99, 104, 117, 110, 107, 101, 100,
    13, 10, 13, 10]

/-- A head with two fields, of which the second has the coding `chunked`. -/
def secondFieldHead : List UInt8 :=
  [72, 84, 84, 80, 47, 49, 46, 49, 32, 50, 48, 48, 13, 10, 84, 114, 97, 110, 115, 102, 101, 114,
    45, 69, 110, 99, 111, 100, 105, 110, 103, 58, 32, 103, 122, 105, 112, 13, 10, 84, 114, 97,
    110, 115, 102, 101, 114, 45, 69, 110, 99, 111, 100, 105, 110, 103, 58, 32, 99, 104, 117, 110,
    107, 101, 100, 13, 10, 13, 10]

/-- The first is taken for chunked, and the second is not. -/
theorem secondFieldHead_not_chunked :
    (∃ response, httpParseResponse (unchunkedHead ++ [0]) unchunkedHead.length .zeroed =
        .ok (0, response) ∧ response.headerLen = unchunkedHead.length) ∧
      httpResponseIsChunked (unchunkedHead ++ [0]) unchunkedHead.length = .ok 1 ∧
      ¬IsChunkedHead unchunkedHead ∧
      (∃ response, httpParseResponse (secondFieldHead ++ [0]) secondFieldHead.length .zeroed =
        .ok (0, response) ∧ response.headerLen = secondFieldHead.length) ∧
      httpResponseIsChunked (secondFieldHead ++ [0]) secondFieldHead.length = .ok 0 ∧
      IsChunkedHead secondFieldHead := by
  refine ⟨⟨⟨200, List.replicate 64 0, unchunkedHead.length, some unchunkedHead.length, 0⟩,
    by decide +kernel, rfl⟩, by decide +kernel, ?_, ⟨⟨200, List.replicate 64 0,
      secondFieldHead.length, some secondFieldHead.length, 0⟩, by decide +kernel, rfl⟩,
    by decide +kernel, ?_⟩
  · have hvalues : transferEncodings (headerLines unchunkedHead) =
        [[32, 117, 110, 99, 104, 117, 110, 107, 101, 100]] := by decide +kernel
    rintro ⟨value, hvalue, element, helement, coding, hpadded, hcoding⟩
    rw [hvalues] at hvalue
    obtain rfl := List.mem_singleton.1 hvalue
    rw [List.splitOn_eq_singleton (by decide)] at helement
    obtain rfl := List.mem_singleton.1 helement
    rw [← hpadded.filter_eq] at hcoding
    exact absurd hcoding (by decide +kernel)
  · refine ⟨[32, 99, 104, 117, 110, 107, 101, 100], by decide +kernel,
      [32, 99, 104, 117, 110, 107, 101, 100], ?_, chunkedName, ?_, by decide⟩
    · rw [List.splitOn_eq_singleton (by decide)]
      exact List.mem_singleton_self _
    · exact ⟨[32], [], by decide, List.forall_mem_singleton.2 (by decide), by simp,
        by simp [chunkedName, IsBlank]⟩

end Netstack
