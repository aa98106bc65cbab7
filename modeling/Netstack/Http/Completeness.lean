/-
# Complete bodies

A body is a complete chunked encoding when it is chunks one behind the other and then a line
whose size is zero, whatever follows (`IsChunkedEncoding`).  The definition leaves open which
lines have which size: `IsChunkSize` is the grammar, and `IsJoinedSize` what
`parse_chunk_size` reads.  The decoder accepts exactly the complete encodings of the second
kind (`httpDecodeChunkedBody_complete`), and these are the ones of the first unless a line has
blanks between its digits (`isChunkedEncoding_or_hasSplitLine`).
-/

import Netstack.Http.ChunkedCoding
import Netstack.Http.ChunkSize

namespace Netstack

/-! ### Encodings -/

/-- The body is a complete encoding of the data, with the sizes that `isSize` gives to lines. -/
inductive IsChunkedEncoding (isSize : List UInt8 → ℕ → Prop) : List UInt8 → List UInt8 → Prop
  | last {line : List UInt8} (rest : List UInt8) (hline : ¬crLf <:+: line)
      (hsize : isSize line 0) : IsChunkedEncoding isSize (line ++ (crLf ++ rest)) []
  | chunk {line chunk rest data : List UInt8} (hline : ¬crLf <:+: line)
      (hsize : isSize line chunk.length) (hne : chunk ≠ [])
      (hrest : IsChunkedEncoding isSize rest data) :
      IsChunkedEncoding isSize (line ++ (crLf ++ (chunk ++ (crLf ++ rest)))) (chunk ++ data)

/-- With more sizes there are more encodings. -/
theorem IsChunkedEncoding.mono {isSize isSize' : List UInt8 → ℕ → Prop} {body data : List UInt8}
    (h : IsChunkedEncoding isSize body data)
    (hsizes : ∀ line n, isSize line n → isSize' line n) : IsChunkedEncoding isSize' body data := by
  induction h with
  | last rest hline hsize => exact .last rest hline (hsizes _ _ hsize)
  | chunk hline hsize hne _ ih => exact .chunk hline (hsizes _ _ hsize) hne ih

/-! ### Lines -/

/-- Before the first CR LF there is none. -/
theorem not_crLf_infix_take {w : List UInt8} {k : ℕ} (h : crLfIndex w = some k) :
    ¬crLf <:+: w.take k := by
  induction w generalizing k with
  | nil => exact absurd h (by simp [crLfIndex])
  | cons c rest ih =>
      cases rest with
      | nil => exact absurd h (by simp [crLfIndex])
      | cons d rest =>
          rw [crLfIndex] at h
          by_cases hcrlf : c = charCr ∧ d = charLf
          · rw [if_pos hcrlf] at h
            obtain rfl := Option.some.inj h
            exact fun hwithin => absurd (List.infix_nil.1 hwithin) (by decide)
          · rw [if_neg hcrlf] at h
            obtain ⟨k, hk, rfl⟩ := Option.map_eq_some_iff.1 h
            rw [List.take_succ_cons, List.infix_cons_iff, not_or]
            refine ⟨fun hpre => hcrlf ?_, ih hk⟩
            obtain ⟨hc, hd⟩ := List.cons_prefix_cons.1 hpre
            cases k with
            | zero => exact absurd (List.prefix_nil.1 hd) (by decide)
            | succ k =>
                rw [List.take_succ_cons] at hd
                exact ⟨hc.symm, (List.cons_prefix_cons.1 hd).1.symm⟩

/-- A list that has a CR LF splits at the first of them. -/
theorem exists_line {w : List UInt8} {k : ℕ} (h : crLfIndex w = some k) :
    w = w.take k ++ (crLf ++ w.drop (k + 2)) ∧ ¬crLf <:+: w.take k := by
  refine ⟨?_, not_crLf_infix_take h⟩
  obtain ⟨rest, hrest⟩ := crLfIndex_sound h
  have hdrop : w.drop (k + 2) = rest := by
    rw [← List.drop_drop, ← hrest]
    rfl
  rw [hdrop, hrest, List.take_append_drop]

/-- A line is determined by the list that it begins. -/
theorem line_inj {line line' rest rest' : List UInt8} (hline : ¬crLf <:+: line)
    (hline' : ¬crLf <:+: line') (h : line ++ (crLf ++ rest) = line' ++ (crLf ++ rest')) :
    line = line' ∧ rest = rest' := by
  have hlength : line.length = line'.length := Option.some.inj <| by
    rw [← crLfIndex_append hline rest, h, crLfIndex_append hline']
  obtain ⟨rfl, hrest⟩ := List.append_inj h hlength
  exact ⟨rfl, List.append_cancel_left hrest⟩

section Encoding

variable {isSize : List UInt8 → ℕ → Prop} {w line rest data data' : List UInt8}

/-- The line that an encoding begins with. -/
theorem isChunkedEncoding_line (hline : ¬crLf <:+: line) :
    IsChunkedEncoding isSize (line ++ (crLf ++ rest)) data ↔
      isSize line 0 ∧ data = [] ∨
        ∃ chunk rest' data', rest = chunk ++ (crLf ++ rest') ∧ data = chunk ++ data' ∧
          isSize line chunk.length ∧ chunk ≠ [] ∧ IsChunkedEncoding isSize rest' data' := by
  constructor
  · generalize hw : line ++ (crLf ++ rest) = w
    rintro (⟨rest', hline', hsize⟩ | ⟨hline', hsize, hne, hrest'⟩)
    · obtain ⟨rfl, -⟩ := line_inj hline hline' hw
      exact Or.inl ⟨hsize, rfl⟩
    · obtain ⟨rfl, rfl⟩ := line_inj hline hline' hw
      exact Or.inr ⟨_, _, _, rfl, rfl, hsize, hne, hrest'⟩
  · rintro (⟨hsize, rfl⟩ | ⟨chunk, rest', data', rfl, rfl, hsize, hne, hrest'⟩)
    · exact .last rest hline hsize
    · exact .chunk hline hsize hne hrest'

/-- Without a line there is no encoding. -/
theorem not_isChunkedEncoding (h : crLfIndex w = none) : ¬IsChunkedEncoding isSize w data := by
  rintro (⟨rest, hline, -⟩ | ⟨hline, -, -, -⟩)
  · exact absurd (h.symm.trans (crLfIndex_append hline _)) (by simp)
  · exact absurd (h.symm.trans (crLfIndex_append hline _)) (by simp)

/-- What follows a line with a size that is not zero. -/
theorem isChunkedEncoding_size (hunique : ∀ line m n, isSize line m → isSize line n → m = n)
    (hline : ¬crLf <:+: line) {n : ℕ} (hsize : isSize line n) (hn : n ≠ 0) :
    IsChunkedEncoding isSize (line ++ (crLf ++ rest)) data ↔
      n ≤ rest.length ∧ crLf <+: rest.drop n ∧
        ∃ data', data = rest.take n ++ data' ∧ IsChunkedEncoding isSize (rest.drop (n + 2)) data' := by
  rw [isChunkedEncoding_line hline]
  constructor
  · rintro (⟨hzero, -⟩ | ⟨chunk, rest', data', rfl, rfl, hsize', -, hrest'⟩)
    · exact absurd (hunique _ _ _ hsize hzero) hn
    · obtain rfl := hunique _ _ _ hsize hsize'
      rw [← List.drop_drop, List.drop_left, List.take_left]
      exact ⟨by simp, List.prefix_append crLf rest', data', rfl, hrest'⟩
  · rintro ⟨hle, ⟨rest', hrest'⟩, data', rfl, hdata'⟩
    have hchunk : (rest.take n).length = n := by rw [List.length_take, Nat.min_eq_left hle]
    have hbehind : rest.drop (n + 2) = rest' := by
      rw [← List.drop_drop, ← hrest']
      rfl
    refine Or.inr ⟨rest.take n, rest', data', ?_, rfl, hchunk.symm ▸ hsize, fun hnil => ?_,
      hbehind ▸ hdata'⟩
    · rw [hrest', List.take_append_drop]
    · exact hn (by rw [← hchunk, hnil, List.length_nil])

/-- Where lines have one size, bodies have one reading. -/
theorem IsChunkedEncoding.unique (hunique : ∀ line m n, isSize line m → isSize line n → m = n)
    (h : IsChunkedEncoding isSize w data) (h' : IsChunkedEncoding isSize w data') :
    data = data' := by
  induction h generalizing data' with
  | last rest hline hsize =>
      obtain ⟨-, rfl⟩ | ⟨chunk, _, _, -, -, hsize', hne, -⟩ := (isChunkedEncoding_line hline).1 h'
      · rfl
      · exact absurd (List.length_eq_zero_iff.1 (hunique _ _ _ hsize' hsize)) hne
  | chunk hline hsize hne hrest ih =>
      obtain ⟨hsize', -⟩ | ⟨chunk', rest', data', hrest', rfl, hsize', -, hbody⟩ :=
        (isChunkedEncoding_line hline).1 h'
      · exact absurd (List.length_eq_zero_iff.1 (hunique _ _ _ hsize hsize')) hne
      · obtain ⟨rfl, hbehind⟩ := List.append_inj hrest' (hunique _ _ _ hsize hsize')
        obtain rfl := List.append_cancel_left hbehind
        rw [ih hbody]

/-- The shortest encoding of anything has seven bytes. -/
theorem IsChunkedEncoding.length_gt (h : IsChunkedEncoding isSize w data) (hne : data ≠ []) :
    5 < w.length := by
  cases h with
  | last => exact absurd rfl hne
  | @chunk line chunk rest data hline hsize hchunk hrest =>
      have hpos := List.length_pos_iff.2 hchunk
      have htwo : crLf.length = 2 := rfl
      have hlast : 2 ≤ rest.length := by
        cases hrest with
        | last => simp only [List.length_append, htwo]; omega
        | chunk => simp only [List.length_append, htwo]; omega
      simp only [List.length_append, htwo]
      omega

end Encoding

/-! ### Chunked bodies -/

/-- The digits of a line are what stands before its extension. -/
theorem sizePart_text (line : ChunkLine) : sizePart line.text = line.digits := by
  have hdigits : ∀ c ∈ line.digits, decide (c ≠ 59) = true := fun c hc =>
    decide_eq_true fun heq => line.digits_hex c hc (heq ▸ rfl)
  unfold sizePart ChunkLine.text
  cases line.extension with
  | none => simpa using @List.takeWhile_append_of_pos _ (fun c => decide (c ≠ 59)) line.digits [] hdigits
  | some bytes =>
      dsimp only
      rw [List.takeWhile_append_of_pos hdigits]
      simp

theorem ChunkLine.isChunkSize (line : ChunkLine) (hsize : line.size ≤ sizeMax) :
    IsChunkSize line.text line.size :=
  ⟨[], line.digits, [], by rw [sizePart_text]; simp, by simp, by simp, line.digits_ne,
    line.digits_hex, rfl, hsize⟩

/-- **A chunked body is complete.** -/
theorem ChunkedBody.isChunkedEncoding (body : ChunkedBody)
    (hsizes : ∀ chunk ∈ body.chunks, chunk.data.length ≤ sizeMax) :
    IsChunkedEncoding IsChunkSize body.encode body.data := by
  obtain ⟨chunks, last, hlast, trailer⟩ := body
  unfold ChunkedBody.encode ChunkedBody.head ChunkedBody.data
  dsimp only at hsizes ⊢
  induction chunks with
  | nil =>
      have hzero : IsChunkSize last.text 0 := hlast ▸ last.isChunkSize (hlast ▸ Nat.zero_le _)
      simpa [ChunkLine.encode] using
        @IsChunkedEncoding.last IsChunkSize last.text trailer last.not_crLf_infix hzero
  | cons chunk chunks ih =>
      have hfits : chunk.line.size ≤ sizeMax :=
        chunk.size_eq ▸ hsizes chunk (List.mem_cons_self ..)
      have hline := chunk.size_eq ▸ chunk.line.isChunkSize hfits
      have hrest := ih fun other hmem => hsizes other (List.mem_cons_of_mem _ hmem)
      simpa [HttpChunk.encode, ChunkLine.encode] using
        IsChunkedEncoding.chunk chunk.line.not_crLf_infix hline chunk.data_ne hrest

/-! ### Blanks between digits -/

/-- One of the chunk-size lines of the body has blanks between its digits. -/
inductive HasSplitLine : List UInt8 → Prop
  | here {line : List UInt8} (rest : List UInt8) (hline : ¬crLf <:+: line)
      (hsplit : HasSplitSize line) : HasSplitLine (line ++ (crLf ++ rest))
  | behind {line chunk rest : List UInt8} (hline : ¬crLf <:+: line)
      (hsize : IsChunkSize line chunk.length) (hne : chunk ≠ []) (hrest : HasSplitLine rest) :
      HasSplitLine (line ++ (crLf ++ (chunk ++ (crLf ++ rest))))

section Blanks

variable {body data data' : List UInt8}

theorem IsChunkSize.isJoinedSize {line : List UInt8} {n : ℕ} (h : IsChunkSize line n) :
    IsJoinedSize line n := (isChunkSize_iff.1 h).2

theorem IsChunkSize.not_hasSplitSize {line : List UInt8} {n : ℕ} (h : IsChunkSize line n) :
    ¬HasSplitSize line := fun hsplit => (isChunkSize_iff.1 h).1 hsplit.1

/-- What the source reads as a size is a size, or its digits are split by a blank. -/
theorem IsJoinedSize.isChunkSize_or {line : List UInt8} {n : ℕ} (h : IsJoinedSize line n) :
    IsChunkSize line n ∨ HasSplitSize line := by
  by_cases hsplit : IsSplit IsBlank (sizePart line)
  · exact Or.inr ⟨hsplit, n, h⟩
  · exact Or.inl (isChunkSize_iff.2 ⟨hsplit, h⟩)

/-- **What the decoder reads is an encoding**, or has a line with blanks between digits. -/
theorem isChunkedEncoding_or_hasSplitLine (h : IsChunkedEncoding IsJoinedSize body data) :
    IsChunkedEncoding IsChunkSize body data ∨ HasSplitLine body := by
  induction h with
  | last rest hline hsize =>
      rcases hsize.isChunkSize_or with hsize | hsplit
      · exact Or.inl (.last rest hline hsize)
      · exact Or.inr (.here rest hline hsplit)
  | chunk hline hsize hne _ ih =>
      rcases hsize.isChunkSize_or with hsize | hsplit
      · exact ih.imp (.chunk hline hsize hne) (.behind hline hsize hne)
      · exact Or.inr (.here _ hline hsplit)

/-- A body that reaches a line with split digits is no encoding: the chunks before that line are
the same in every reading, since their sizes are read in one way only. The induction is on the
chunks before the line. -/
theorem HasSplitLine.not_isChunkedEncoding (h : HasSplitLine body) :
    ¬IsChunkedEncoding IsChunkSize body data := by
  induction h generalizing data with
  | here rest hline hsplit =>
      intro hbody
      obtain ⟨hsize, -⟩ | ⟨_, _, _, -, -, hsize, -⟩ := (isChunkedEncoding_line hline).1 hbody
      · exact hsize.not_hasSplitSize hsplit
      · exact hsize.not_hasSplitSize hsplit
  | @behind line chunk rest hline hsize hne _ ih =>
      intro hbody
      obtain ⟨hzero, -⟩ | ⟨chunk', rest', data', hrest', -, hsize', -, hdata'⟩ :=
        (isChunkedEncoding_line hline).1 hbody
      · exact hne (List.length_eq_zero_iff.1 (hsize.isJoinedSize.unique hzero.isJoinedSize))
      · have hlength := hsize.isJoinedSize.unique hsize'.isJoinedSize
        obtain ⟨-, hbehind⟩ := List.append_inj hrest' hlength
        obtain rfl := List.append_cancel_left hbehind
        exact ih hdata'

end Blanks

/-! ### The decoder -/

section Decoder

variable {input output : List UInt8} {inputOffset outputOffset : ℕ}

/-- What stands in the output behind a chunk that was copied. -/
theorem take_copied {chunk : List UInt8} (h : outputOffset ≤ output.length) :
    (copied output outputOffset chunk).take (outputOffset + chunk.length) =
      output.take outputOffset ++ chunk := by
  have hfront : (output.take outputOffset ++ chunk).length = outputOffset + chunk.length := by
    rw [List.length_append, List.length_take, Nat.min_eq_left h]
  rw [copied, ← hfront, List.take_left]

/-- **The loop accepts the complete encodings** of what is left of the input, when the output has
room for it. -/
theorem httpDecodeChunks_complete (hinput : input.length ≤ maxObjectLen)
    (houtput : output.length ≤ maxObjectLen) (hi : inputOffset ≤ input.length)
    (hroom : outputOffset + (input.length - inputOffset) < output.length) {fuel : ℕ}
    (hfuel : input.length < fuel + inputOffset) :
    (∃ data left, IsChunkedEncoding IsJoinedSize (input.drop inputOffset) data ∧
      httpDecodeChunks input fuel inputOffset outputOffset output =
        .ok (outputOffset + data.length, left) ∧
      left.take (outputOffset + data.length) = output.take outputOffset ++ data) ∨
    (∀ data, ¬IsChunkedEncoding IsJoinedSize (input.drop inputOffset) data) ∧
      ∃ left, httpDecodeChunks input fuel inputOffset outputOffset output = .ok (0, left) := by
  induction fuel generalizing inputOffset outputOffset output with
  | zero => omega
  | succ fuel ih =>
      rw [httpDecodeChunks_turn hinput houtput hi (by omega)]
      cases hk : crLfIndex (input.drop inputOffset) with
      | none => exact Or.inr ⟨fun data => not_isChunkedEncoding hk, output, rfl⟩
      | some k =>
          obtain ⟨hw, hline⟩ := exists_line hk
          have hlen := crLfIndex_le hk
          rw [List.length_drop] at hlen
          have hscan : (if k = 0 then none else
              scanSize ((input.drop inputOffset).take k) 0 false) =
                scanSize ((input.drop inputOffset).take k) 0 false := by
            cases k with
            | zero => rfl
            | succ k => exact if_neg (Nat.succ_ne_zero k)
          dsimp only
          rw [hscan]
          generalize hl : (input.drop inputOffset).take k = line at hw hline
          rw [List.drop_drop, ← Nat.add_assoc] at hw
          rw [hw]
          cases hs : scanSize line 0 false with
          | none =>
              refine Or.inr ⟨fun data hdata => ?_, output, rfl⟩
              obtain ⟨hsize, -⟩ | ⟨_, _, _, -, -, hsize, -⟩ := (isChunkedEncoding_line hline).1 hdata
              · exact absurd (hs.symm.trans (scanSize_eq_some.2 hsize)) (by simp)
              · exact absurd (hs.symm.trans (scanSize_eq_some.2 hsize)) (by simp)
          | some size =>
              have hsize := scanSize_eq_some.1 hs
              cases size with
              | zero =>
                  refine Or.inl ⟨[], _, .last _ hline hsize, rfl, ?_⟩
                  rw [List.length_nil, Nat.add_zero, List.append_nil]
                  exact List.take_set_of_le le_rfl
              | succ size =>
                  have hnext := fun data => @isChunkedEncoding_size IsJoinedSize line
                    (input.drop (inputOffset + k + 2)) data (fun _ _ _ => IsJoinedSize.unique)
                    hline (size + 1) hsize (Nat.succ_ne_zero size)
                  rw [List.length_drop, List.drop_drop, List.drop_drop, ← Nat.add_assoc _ (size + 1) 2]
                    at hnext
                  dsimp only
                  by_cases hfits : inputOffset + k + 2 + (size + 1) ≤ input.length
                  swap
                  · rw [if_neg (mt And.left hfits)]
                    refine Or.inr ⟨fun data hdata => ?_, output, rfl⟩
                    have hle := ((hnext data).1 hdata).1
                    omega
                  rw [if_pos ⟨hfits, by omega⟩]
                  by_cases hcrlf : [charCr, charLf] <+: input.drop (inputOffset + k + 2 + (size + 1))
                  swap
                  · rw [if_neg hcrlf]
                    exact Or.inr ⟨fun data hdata => hcrlf ((hnext data).1 hdata).2.1, _, rfl⟩
                  have hend := offset_add_length_le hfits hcrlf
                  simp only [List.length_cons, List.length_nil] at hend
                  generalize hc : (input.drop (inputOffset + k + 2)).take (size + 1) = chunk at hnext
                  have hchunk : chunk.length = size + 1 := by
                    rw [← hc, List.length_take, List.length_drop]
                    omega
                  have hcopied : (copied output outputOffset chunk).length = output.length :=
                    length_copied (by omega)
                  have htake := @take_copied output outputOffset chunk (by omega)
                  rw [hchunk] at htake
                  have hih := @ih (copied output outputOffset chunk)
                    (inputOffset + k + 2 + (size + 1) + 2) (outputOffset + (size + 1))
                    (by rwa [hcopied]) (by omega) (by omega) (by omega)
                  rw [if_pos hcrlf]
                  rcases hih with ⟨data, left, hdata, hrun, hleft⟩ | ⟨hnone, hrun⟩
                  · refine Or.inl ⟨chunk ++ data, left, (hnext _).2 ⟨by omega, hcrlf, data, rfl, hdata⟩,
                      ?_, ?_⟩
                    · rw [hrun, List.length_append, hchunk, Nat.add_assoc]
                    · rw [List.length_append, hchunk, ← Nat.add_assoc, hleft, htake, List.append_assoc]
                  · refine Or.inr ⟨fun data hdata => ?_, hrun⟩
                    obtain ⟨-, -, data', -, hdata'⟩ := (hnext data).1 hdata
                    exact hnone data' hdata'

/-- **`http_decode_chunked_body` decodes the complete encodings**, and returns `0` for all other
input, when the output has room for as many bytes as the input has and a NUL. -/
theorem httpDecodeChunkedBody_complete (hinput : input.length ≤ maxObjectLen)
    (houtput : output.length ≤ maxObjectLen) (hroom : input.length < output.length) :
    (∃ data left, IsChunkedEncoding IsJoinedSize input data ∧
      httpDecodeChunkedBody input output = .ok (data.length, left) ∧
        left.take data.length = data) ∨
    (∀ data, ¬IsChunkedEncoding IsJoinedSize input data) ∧
      ∃ left, httpDecodeChunkedBody input output = .ok (0, left) := by
  have h := @httpDecodeChunks_complete input output 0 0 hinput houtput (Nat.zero_le _) (by omega)
    (input.length + 1) (by omega)
  unfold httpDecodeChunkedBody
  rw [if_neg (by omega)]
  simpa only [List.drop_zero, List.take_zero, List.nil_append, Nat.zero_add] using h

end Decoder

end Netstack
