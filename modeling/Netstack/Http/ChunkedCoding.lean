/-
# Chunked coding

A chunked body is a list of chunks and a last line whose size is zero; behind it come
trailer bytes, which the decoder does not look at.  A size may be spelled with upper and
lower case digits and leading zeros, and may have an extension.

`httpDecodeChunkedBody_inverts` says that the decoder inverts this coding, that it
accepts no encoding that is cut off before its last line is complete, and that it never
leaves its buffers.
-/

import Mathlib.Data.List.Infix
import Netstack.Http.Chunked

namespace Netstack

/-! ### Encodings -/

/-- CR LF -/
def crLf : List UInt8 := [charCr, charLf]

/-- The line before a chunk: its size in hexadecimal digits and an optional extension. -/
structure ChunkLine where
  digits : List UInt8
  extension : Option (List UInt8)
  digits_ne : digits ≠ []
  digits_hex : ∀ c ∈ digits, hexValue c ≠ none
  extension_line : ∀ bytes ∈ extension, ¬crLf <:+: bytes

/-- The characters of the line before its end. -/
def ChunkLine.text (line : ChunkLine) : List UInt8 :=
  match line.extension with
  | none => line.digits
  | some bytes => line.digits ++ 59 :: bytes

/-- The bytes of the line. -/
def ChunkLine.encode (line : ChunkLine) : List UInt8 := line.text ++ crLf

/-- The size that the line gives. -/
def ChunkLine.size (line : ChunkLine) : ℕ := hexNumber 0 line.digits

/-- A chunk that is not empty, behind a line with its size. -/
structure HttpChunk where
  line : ChunkLine
  data : List UInt8
  data_ne : data ≠ []
  size_eq : line.size = data.length

/-- The bytes of a chunk. -/
def HttpChunk.encode (chunk : HttpChunk) : List UInt8 := chunk.line.encode ++ chunk.data ++ crLf

/-- A chunked body. -/
structure ChunkedBody where
  chunks : List HttpChunk
  last : ChunkLine
  last_size : last.size = 0
  trailer : List UInt8

/-- The bytes of a chunked body, up to the end of its last line. -/
def ChunkedBody.head (body : ChunkedBody) : List UInt8 :=
  body.chunks.flatMap HttpChunk.encode ++ body.last.encode

/-- The bytes of a chunked body. -/
def ChunkedBody.encode (body : ChunkedBody) : List UInt8 := body.head ++ body.trailer

/-- The bytes that the chunks carry. -/
def ChunkedBody.data (body : ChunkedBody) : List UInt8 :=
  body.chunks.flatMap HttpChunk.data

/-! ### Where a line ends -/

/-- Where the search ends there is an end of a line. -/
theorem crLfIndex_sound {w : List UInt8} {k : ℕ} (h : crLfIndex w = some k) :
    crLf <+: w.drop k := by
  induction w generalizing k with
  | nil => exact absurd h (by simp [crLfIndex])
  | cons c rest ih =>
      cases rest with
      | nil => exact absurd h (by simp [crLfIndex])
      | cons d rest =>
          rw [crLfIndex] at h
          split_ifs at h with hcrlf
          · obtain rfl := Option.some.inj h
            exact ⟨rest, by rw [hcrlf.1, hcrlf.2]; rfl⟩
          · obtain ⟨k, hk, rfl⟩ := Option.map_eq_some_iff.1 h
            exact ih hk

/-- Where there is none, nothing is found. -/
theorem crLfIndex_eq_none {w : List UInt8} (h : ¬crLf <:+: w) : crLfIndex w = none := by
  cases hk : crLfIndex w with
  | none => rfl
  | some k =>
      exact absurd ((crLfIndex_sound hk).isInfix.trans (List.drop_suffix k w).isInfix) h

/-- The first end of a line is the one behind a text that has none: a CR at the end of the text
is followed by the CR, not by the LF. -/
theorem crLfIndex_append {w : List UInt8} (h : ¬crLf <:+: w) (rest : List UInt8) :
    crLfIndex (w ++ (crLf ++ rest)) = some w.length := by
  induction w with
  | nil => rfl
  | cons c w ih =>
      have hrest : ¬crLf <:+: w := fun hw => h (hw.trans (List.suffix_cons c w).isInfix)
      have hnext : (crLfIndex (w ++ (crLf ++ rest))).map (· + 1) = some (c :: w).length := by
        rw [ih hrest]
        rfl
      cases w with
      | nil =>
          rw [← hnext]
          exact if_neg fun hcrlf => absurd hcrlf.2 (by decide)
      | cons d w =>
          rw [← hnext]
          refine if_neg fun hcrlf => h ⟨[], w, ?_⟩
          rw [hcrlf.1, hcrlf.2]
          rfl

/-- What is cut off inside of the end of a line has no end of a line. -/
theorem not_crLf_infix_of_cut {p w : List UInt8} (h : ¬crLf <:+: w) (hp : p <+: w ++ crLf)
    (hne : p ≠ w ++ crLf) : ¬crLf <:+: p := by
  intro hinfix
  have hp' : p <+: w ++ [charCr] := by
    have hlen : p.length < (w ++ crLf).length :=
      lt_of_le_of_ne hp.length_le fun heq => hne (hp.eq_of_length heq)
    have hcut : w ++ [charCr] <+: w ++ crLf := ⟨[charLf], by simp [crLf]⟩
    refine List.prefix_of_prefix_length_le hp hcut ?_
    simp only [List.length_append, List.length_cons, crLf, List.length_nil] at hlen ⊢
    omega
  obtain ⟨s, t, hst⟩ := hinfix.trans hp'.isInfix
  rcases List.eq_nil_or_concat t with rfl | ⟨t, x, rfl⟩
  · have hlast := congrArg List.getLast? hst
    simp [crLf, charCr, charLf] at hlast
  · rw [List.concat_eq_append, ← List.append_assoc] at hst
    have hw := (List.append_inj' hst rfl).1
    exact h ⟨s, t, hw⟩

section Line

variable (line : ChunkLine)

/-- Behind a text without a CR, the end of a line lies in what follows. -/
theorem crLf_infix_of_append {w v : List UInt8} (hw : charCr ∉ w) (h : crLf <:+: w ++ v) :
    crLf <:+: v := by
  induction w with
  | nil => exact h
  | cons c w ih =>
      rw [List.cons_append, List.infix_cons_iff] at h
      rcases h with hpre | hinfix
      · have hc := (List.cons_prefix_cons.1 hpre).1
        exact absurd (hc ▸ List.mem_cons_self ..) hw
      · exact ih (fun hmem => hw (List.mem_cons_of_mem _ hmem)) hinfix

/-- The text of a size line has no end of a line: hexadecimal digits have none, and the extension
must not. -/
theorem ChunkLine.not_crLf_infix : ¬crLf <:+: line.text := by
  have hdigits : charCr ∉ line.digits := fun hmem => line.digits_hex _ hmem rfl
  intro h
  unfold ChunkLine.text at h
  cases hext : line.extension with
  | none =>
      rw [hext] at h
      have hnil := crLf_infix_of_append hdigits (by rwa [List.append_nil])
      exact absurd (List.infix_nil.1 hnil) (by decide)
  | some bytes =>
      rw [hext] at h
      have hsemi := crLf_infix_of_append hdigits h
      have hbytes := crLf_infix_of_append (w := [59]) (by decide) hsemi
      exact line.extension_line bytes hext hbytes

/-- The scan reads the size of the line, whatever its spelling and its extension. -/
theorem ChunkLine.scanSize_text (hsize : line.size ≤ sizeMax) :
    scanSize line.text 0 false = some line.size := by
  unfold ChunkLine.text
  cases line.extension with
  | none =>
      have h := @scanSize_digits line.digits [] 0 false line.digits_hex hsize (Or.inl rfl)
        (Or.inr line.digits_ne)
      rwa [List.append_nil] at h
  | some bytes =>
      exact scanSize_digits line.digits_hex hsize (Or.inr ⟨bytes, rfl⟩) (Or.inr line.digits_ne)

/-- A size line has a digit. -/
theorem ChunkLine.text_ne : line.text.length ≠ 0 := by
  have hne := mt List.length_eq_zero_iff.1 line.digits_ne
  unfold ChunkLine.text
  cases line.extension with
  | none => exact hne
  | some bytes =>
      dsimp only
      rw [List.length_append]
      omega

end Line

/-! ### Decoding -/

section Decoding

variable {input output rest : List UInt8} {inputOffset outputOffset : ℕ}

/-- What follows an offset fits into the input. -/
theorem offset_le_of_drop {w : List UInt8} (h : input.drop inputOffset = w) (hw : w ≠ []) :
    inputOffset + w.length ≤ input.length := by
  have hlen := congrArg List.length h
  have hpos := List.length_pos_iff.2 hw
  rw [List.length_drop] at hlen
  omega

/-- **One turn of the loop at a line.** -/
theorem httpDecodeChunks_line (hinput : input.length ≤ maxObjectLen)
    (houtput : output.length ≤ maxObjectLen) (ho : outputOffset < output.length) (fuel : ℕ)
    {line : ChunkLine} (h : input.drop inputOffset = line.encode ++ rest)
    (hsize : line.size ≤ sizeMax) :
    httpDecodeChunks input (fuel + 1) inputOffset outputOffset output =
      match line.size with
      | 0 => .ok (outputOffset, output.set outputOffset 0)
      | size + 1 =>
        if size + 1 ≤ rest.length ∧ outputOffset + (size + 1) < output.length then
          if crLf <+: rest.drop (size + 1) then
            httpDecodeChunks input fuel (inputOffset + line.encode.length + (size + 1) + 2)
              (outputOffset + (size + 1)) (copied output outputOffset (rest.take (size + 1)))
          else .ok (0, copied output outputOffset (rest.take (size + 1)))
        else .ok (0, output) := by
  have hline : line.encode ++ rest = line.text ++ (crLf ++ rest) := List.append_assoc ..
  have hlength : line.encode.length = line.text.length + 2 := List.length_append
  have hi := offset_le_of_drop h (by rw [hline]; simp [crLf])
  have hrest : input.drop (inputOffset + line.text.length + 2) = rest := by
    rw [Nat.add_assoc, ← hlength, ← List.drop_drop, h, List.drop_left]
  have hall := congrArg List.length h
  rw [List.length_drop, List.length_append, hlength] at hall
  rw [List.length_append, hlength] at hi
  rw [httpDecodeChunks_turn hinput houtput (by omega) ho, h, hline,
    crLfIndex_append line.not_crLf_infix]
  dsimp only
  rw [if_neg line.text_ne, List.take_left, line.scanSize_text hsize, hlength]
  cases line.size with
  | zero => rfl
  | succ size =>
      have hfits : inputOffset + line.text.length + 2 + (size + 1) ≤ input.length ↔
          size + 1 ≤ rest.length := by omega
      dsimp only
      rw [← List.drop_drop, hrest, ← Nat.add_assoc inputOffset line.text.length 2]
      simp only [hfits]
      rfl

theorem HttpChunk.length_encode_pos (chunk : HttpChunk) : 0 < chunk.encode.length := by
  rw [HttpChunk.encode, List.length_append]
  exact Nat.lt_of_lt_of_le (by decide : 0 < crLf.length) (Nat.le_add_left _ _)

/-- **A complete chunk** is copied when the output has room for it and for a NUL; otherwise the
decoder gives up. -/
theorem httpDecodeChunks_chunk (hinput : input.length ≤ maxObjectLen)
    (houtput : output.length ≤ maxObjectLen) (ho : outputOffset < output.length) (fuel : ℕ)
    {chunk : HttpChunk} (h : input.drop inputOffset = chunk.encode ++ rest) :
    httpDecodeChunks input (fuel + 1) inputOffset outputOffset output =
      if outputOffset + chunk.data.length < output.length then
        httpDecodeChunks input fuel (inputOffset + chunk.encode.length)
          (outputOffset + chunk.data.length) (copied output outputOffset chunk.data)
      else .ok (0, output) := by
  have hparts : chunk.encode ++ rest = chunk.line.encode ++ (chunk.data ++ (crLf ++ rest)) := by
    rw [HttpChunk.encode, List.append_assoc, List.append_assoc]
  have hlength : chunk.encode.length = chunk.line.encode.length + chunk.data.length + 2 := by
    rw [HttpChunk.encode, List.length_append, List.length_append]
    rfl
  have hfits := offset_le_of_drop h (by rw [hparts]; simp [ChunkLine.encode, crLf])
  rw [List.length_append] at hfits
  have hsize : chunk.line.size ≤ sizeMax := by
    rw [chunk.size_eq]
    unfold maxObjectLen at hinput
    unfold sizeMax
    omega
  obtain ⟨size, hdata⟩ : ∃ size, chunk.data.length = size + 1 :=
    Nat.exists_eq_add_one.2 (List.length_pos_iff.2 chunk.data_ne)
  rw [httpDecodeChunks_line hinput houtput ho fuel (h.trans hparts) hsize, chunk.size_eq, hlength,
    hdata]
  dsimp only
  rw [← hdata, List.take_left, List.drop_left, if_pos (List.prefix_append crLf rest),
    List.length_append]
  simp only [Nat.le_add_right, true_and, ← Nat.add_assoc]

/-- A line of size zero ends the decoding, with the terminating zero behind what was decoded;
whatever follows is not read. -/
theorem httpDecodeChunks_last (hinput : input.length ≤ maxObjectLen)
    (houtput : output.length ≤ maxObjectLen) (ho : outputOffset < output.length) (fuel : ℕ)
    {line : ChunkLine} (h : input.drop inputOffset = line.encode ++ rest) (hsize : line.size = 0) :
    httpDecodeChunks input (fuel + 1) inputOffset outputOffset output =
      .ok (outputOffset, output.set outputOffset 0) := by
  rw [httpDecodeChunks_line hinput houtput ho fuel h (by rw [hsize]; exact Nat.zero_le _), hsize]

/-- **The whole body.**  What the decoder returns depends on whether the rest of the output has
room for the chunks and a NUL. -/
theorem httpDecodeChunks_body (hinput : input.length ≤ maxObjectLen)
    (houtput : output.length ≤ maxObjectLen) (ho : outputOffset < output.length)
    (chunks : List HttpChunk) {last : ChunkLine} {trailer : List UInt8} {fuel : ℕ}
    (hlast : last.size = 0) (hfuel : input.length < fuel + inputOffset)
    (h : input.drop inputOffset = chunks.flatMap HttpChunk.encode ++ (last.encode ++ trailer)) :
    httpDecodeChunks input fuel inputOffset outputOffset output =
        .ok (outputOffset + (chunks.flatMap HttpChunk.data).length,
          output.take outputOffset ++ chunks.flatMap HttpChunk.data ++
            0 :: output.drop (outputOffset + (chunks.flatMap HttpChunk.data).length + 1)) ∧
        outputOffset + (chunks.flatMap HttpChunk.data).length < output.length ∨
      (∃ left, httpDecodeChunks input fuel inputOffset outputOffset output = .ok (0, left)) ∧
        output.length ≤ outputOffset + (chunks.flatMap HttpChunk.data).length := by
  induction chunks generalizing inputOffset outputOffset output fuel with
  | nil =>
      have hend := offset_le_of_drop h (by simp [ChunkLine.encode, crLf])
      obtain ⟨fuel, rfl⟩ : ∃ n, fuel = n + 1 := Nat.exists_eq_add_one.2 (by omega)
      refine Or.inl ⟨?_, ho⟩
      rw [httpDecodeChunks_last hinput houtput ho fuel h hlast, List.set_eq_take_append_cons_drop,
        if_pos ho]
      simp
  | cons chunk chunks ih =>
      have hend := offset_le_of_drop h (by simp [ChunkLine.encode, crLf])
      obtain ⟨fuel, rfl⟩ : ∃ n, fuel = n + 1 := Nat.exists_eq_add_one.2 (by omega)
      have hpos := chunk.length_encode_pos
      have hparts : input.drop inputOffset =
          chunk.encode ++ (chunks.flatMap HttpChunk.encode ++ (last.encode ++ trailer)) := by
        rw [h, List.flatMap_cons, List.append_assoc]
      rw [httpDecodeChunks_chunk hinput houtput ho fuel hparts, List.flatMap_cons,
        List.length_append]
      by_cases hroom : outputOffset + chunk.data.length < output.length
      swap
      · rw [if_neg hroom]
        exact Or.inr ⟨⟨output, rfl⟩, by omega⟩
      rw [if_pos hroom]
      have hlength := @length_copied output outputOffset chunk.data hroom.le
      have hdrop : input.drop (inputOffset + chunk.encode.length) =
          chunks.flatMap HttpChunk.encode ++ (last.encode ++ trailer) := by
        rw [← List.drop_drop, hparts, List.drop_left]
      have hih := @ih (copied output outputOffset chunk.data)
        (inputOffset + chunk.encode.length) (outputOffset + chunk.data.length)
        (by rwa [hlength]) (by rwa [hlength]) fuel (by omega) hdrop
      have hfront : (output.take outputOffset ++ chunk.data).length =
          outputOffset + chunk.data.length := by
        rw [List.length_append, List.length_take]
        omega
      have htake : (copied output outputOffset chunk.data).take
          (outputOffset + chunk.data.length) = output.take outputOffset ++ chunk.data := by
        rw [copied, ← hfront, List.take_left]
      have hbehind : ∀ n, (copied output outputOffset chunk.data).drop
          (outputOffset + chunk.data.length + n) =
            output.drop (outputOffset + chunk.data.length + n) := fun n => by
        rw [← List.drop_drop, copied, ← hfront, List.drop_left, hfront, List.drop_drop]
      rw [hlength, htake, Nat.add_assoc _ _ 1, hbehind] at hih
      simpa only [List.append_assoc, Nat.add_assoc] using hih

/-- A line that is cut off ends the decoding. -/
theorem httpDecodeChunks_cut_line (hinput : input.length ≤ maxObjectLen)
    (houtput : output.length ≤ maxObjectLen) (hi : inputOffset ≤ input.length)
    (ho : outputOffset < output.length) (fuel : ℕ) {line : ChunkLine}
    (hcut : input.drop inputOffset <+: line.encode) (hne : input.drop inputOffset ≠ line.encode) :
    httpDecodeChunks input (fuel + 1) inputOffset outputOffset output = .ok (0, output) := by
  rw [httpDecodeChunks_turn hinput houtput hi ho,
    crLfIndex_eq_none (not_crLf_infix_of_cut line.not_crLf_infix hcut hne)]

/-- What two lists have in common at an offset: the input is cut off in the first of them, or
continues behind it. -/
theorem cut_or_continues {w v : List UInt8} (hcut : input.drop inputOffset <+: w ++ v)
    (hne : input.drop inputOffset ≠ w ++ v) :
    (input.drop inputOffset <+: w ∧ input.drop inputOffset ≠ w) ∨
      ∃ q, input.drop inputOffset = w ++ q ∧ q <+: v ∧ q ≠ v := by
  by_cases hlong : w <+: input.drop inputOffset
  · obtain ⟨q, hq⟩ := hlong
    rw [← hq] at hcut hne
    refine Or.inr ⟨q, hq.symm, (List.prefix_append_right_inj w).1 hcut, fun heq => hne ?_⟩
    rw [heq]
  · have hshort := (List.prefix_or_prefix_of_prefix hcut (List.prefix_append w v)).resolve_right hlong
    exact Or.inl ⟨hshort, fun heq => hlong (heq ▸ List.prefix_rfl)⟩

/-- A chunk that is cut off ends the decoding. -/
theorem httpDecodeChunks_cut_chunk (hinput : input.length ≤ maxObjectLen)
    (houtput : output.length ≤ maxObjectLen) (hi : inputOffset ≤ input.length)
    (ho : outputOffset < output.length) (fuel : ℕ) {chunk : HttpChunk}
    (hsize : chunk.data.length ≤ sizeMax) (hcut : input.drop inputOffset <+: chunk.encode)
    (hne : input.drop inputOffset ≠ chunk.encode) :
    ∃ left, httpDecodeChunks input (fuel + 1) inputOffset outputOffset output = .ok (0, left) := by
  rw [HttpChunk.encode, List.append_assoc] at hcut hne
  rcases cut_or_continues hcut hne with ⟨hline, hline'⟩ | ⟨q, hq, hdata, hdata'⟩
  · exact ⟨output, httpDecodeChunks_cut_line hinput houtput hi ho fuel hline hline'⟩
  have hlen : q.length < chunk.data.length + 2 := by
    have hle : q.length < (chunk.data ++ crLf).length :=
      lt_of_le_of_ne hdata.length_le fun heq => hdata' (hdata.eq_of_length heq)
    rwa [List.length_append] at hle
  obtain ⟨size, hlength⟩ : ∃ size, chunk.data.length = size + 1 :=
    Nat.exists_eq_add_one.2 (List.length_pos_iff.2 chunk.data_ne)
  rw [httpDecodeChunks_line hinput houtput ho fuel hq (by rwa [chunk.size_eq]), chunk.size_eq,
    hlength]
  dsimp only
  have hshort : ¬crLf <+: q.drop (size + 1) := fun hpre => by
    have := hpre.length_le
    rw [List.length_drop] at this
    simp only [crLf, List.length_cons, List.length_nil] at this
    omega
  split_ifs
  · exact ⟨_, rfl⟩
  · exact ⟨_, rfl⟩

/-- **A body that is cut off** before its last line is complete is not accepted. -/
theorem httpDecodeChunks_cut (hinput : input.length ≤ maxObjectLen)
    (houtput : output.length ≤ maxObjectLen) (hi : inputOffset ≤ input.length)
    (ho : outputOffset < output.length) (chunks : List HttpChunk) {last : ChunkLine} {fuel : ℕ}
    (hfuel : input.length < fuel + inputOffset) (hsizes : ∀ chunk ∈ chunks, chunk.data.length ≤ sizeMax)
    (hcut : input.drop inputOffset <+: chunks.flatMap HttpChunk.encode ++ last.encode)
    (hne : input.drop inputOffset ≠ chunks.flatMap HttpChunk.encode ++ last.encode) :
    ∃ left, httpDecodeChunks input fuel inputOffset outputOffset output = .ok (0, left) := by
  induction chunks generalizing inputOffset outputOffset output fuel with
  | nil =>
      obtain ⟨fuel, rfl⟩ : ∃ n, fuel = n + 1 := Nat.exists_eq_add_one.2 (by omega)
      exact ⟨output, httpDecodeChunks_cut_line hinput houtput hi ho fuel hcut hne⟩
  | cons chunk chunks ih =>
      obtain ⟨fuel, rfl⟩ : ∃ n, fuel = n + 1 := Nat.exists_eq_add_one.2 (by omega)
      have hpos := chunk.length_encode_pos
      rw [List.flatMap_cons, List.append_assoc] at hcut hne
      rcases cut_or_continues hcut hne with ⟨hchunk, hchunk'⟩ | ⟨q, hq, hrest, hrest'⟩
      · exact httpDecodeChunks_cut_chunk hinput houtput hi ho fuel
          (hsizes chunk (List.mem_cons_self ..)) hchunk hchunk'
      rw [httpDecodeChunks_chunk hinput houtput ho fuel hq]
      by_cases hroom : outputOffset + chunk.data.length < output.length
      swap
      · rw [if_neg hroom]
        exact ⟨output, rfl⟩
      have hdrop : input.drop (inputOffset + chunk.encode.length) = q := by
        rw [← List.drop_drop, hq, List.drop_left]
      have hend : inputOffset + chunk.encode.length ≤ input.length := by
        have hall := congrArg List.length hq
        rw [List.length_drop, List.length_append] at hall
        omega
      have hlength := @length_copied output outputOffset chunk.data hroom.le
      rw [if_pos hroom]
      exact ih (by rwa [hlength]) hend (by rwa [hlength]) (by omega)
        (fun other hmem => hsizes other (List.mem_cons_of_mem _ hmem)) (hdrop ▸ hrest)
        (hdrop ▸ hrest')

end Decoding

/-! ### The decoder -/

/-- The data of a chunk are a part of the encoding, so that they fit where the encoding does. -/
theorem length_data_le {chunks : List HttpChunk} {chunk : HttpChunk} (h : chunk ∈ chunks) :
    chunk.data.length ≤ (chunks.flatMap HttpChunk.encode).length := by
  have hencode : chunk.data.length ≤ chunk.encode.length := by
    simp only [HttpChunk.encode, List.length_append]
    omega
  rw [List.flatMap_def]
  exact hencode.trans (List.sublist_flatten_of_mem (List.mem_map_of_mem h)).length_le

/-- **`http_decode_chunked_body` inverts chunked coding.**  A body is decoded to the bytes of its
chunks and a NUL when the output has room for them, and to `0` otherwise; a body that is cut
off before its last line is complete is decoded to `0`; and no input makes the decoder read or
write outside of its buffers, or run on. -/
theorem httpDecodeChunkedBody_inverts (output : List UInt8)
    (houtput : output.length ≤ maxObjectLen) :
    (∀ body : ChunkedBody, body.encode.length ≤ maxObjectLen →
      (body.data.length < output.length → httpDecodeChunkedBody body.encode output =
        .ok (body.data.length, body.data ++ 0 :: output.drop (body.data.length + 1))) ∧
      (output.length ≤ body.data.length →
        ∃ left, httpDecodeChunkedBody body.encode output = .ok (0, left)) ∧
      ∀ cut, cut <+: body.head → cut ≠ body.head →
        ∃ left, httpDecodeChunkedBody cut output = .ok (0, left)) ∧
    ∀ input : List UInt8, input.length ≤ maxObjectLen →
      ∃ n left, httpDecodeChunkedBody input output = .ok (n, left) ∧
        left.length = output.length := by
  unfold httpDecodeChunkedBody
  by_cases hempty : output.length = 0
  · simp only [if_pos hempty]
    refine ⟨fun body _ => ⟨fun hroom => ?_, fun _ => ⟨output, rfl⟩, fun _ _ _ => ⟨output, rfl⟩⟩,
      fun _ _ => ⟨0, output, rfl, rfl⟩⟩
    omega
  simp only [if_neg hempty]
  have ho : 0 < output.length := Nat.pos_of_ne_zero hempty
  refine ⟨fun body hbody => ?_, fun input hinput =>
    httpDecodeChunks_safe hinput houtput (Nat.zero_le _) ho (by omega)⟩
  have hwhole := @httpDecodeChunks_body body.encode output 0 0 hbody houtput ho body.chunks
    body.last body.trailer (body.encode.length + 1) body.last_size (by omega)
    (List.append_assoc ..)
  rw [Nat.zero_add, List.take_zero, List.nil_append] at hwhole
  refine ⟨fun hroom => ?_, fun hfull => ?_, fun cut hcut hne => ?_⟩
  · exact (hwhole.resolve_right fun h => absurd h.2 (not_le.2 hroom)).1
  · exact (hwhole.resolve_left fun h => absurd h.2 (not_lt.2 hfull)).1
  · have hhead : body.head.length ≤ body.encode.length :=
      (List.prefix_append body.head body.trailer).length_le
    have hcutLength := hcut.length_le
    refine httpDecodeChunks_cut (by omega) houtput (Nat.zero_le _) ho body.chunks (by omega)
      (fun chunk hmem => ?_) hcut hne
    have hdata := length_data_le hmem
    rw [ChunkedBody.head, List.length_append] at hhead
    unfold maxObjectLen at hbody
    unfold sizeMax
    omega

/-- The body of `test_decode_chunked_body`: "Wiki" and "pedia". -/
def wikipedia : ChunkedBody where
  chunks :=
    [⟨⟨[52], none, by decide, by decide +kernel, by simp⟩, [87, 105, 107, 105], by decide, rfl⟩,
      ⟨⟨[53], none, by decide, by decide +kernel, by simp⟩, [112, 101, 100, 105, 97], by decide, rfl⟩]
  last := ⟨[48], none, by decide, by decide +kernel, by simp⟩
  last_size := rfl
  trailer := crLf

/-- The test's body, decoded into 64 bytes. -/
theorem wikipedia_decoded :
    httpDecodeChunkedBody wikipedia.encode (List.replicate 64 0) =
      .ok (9, [87, 105, 107, 105, 112, 101, 100, 105, 97, 0] ++ List.replicate 54 0) :=
  ((httpDecodeChunkedBody_inverts (List.replicate 64 0) (by decide)).1 wikipedia
    (by decide)).1 (by decide)

end Netstack
