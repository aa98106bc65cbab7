/-
# Decoding a chunked body

`hex_value`, `parse_chunk_size` and `http_decode_chunked_body` of `src/http.c`.

The pointers `line` and `line_end` are the offsets `input_offset` and `i` of the source.
A `char` is its byte: `hex_value` compares with ASCII characters on both sides, so that
the sign of a `char` does not matter.  The two loops that scan for the end of a line and
the loop over the chunks carry a fuel that they never use up (`findLineEnd_eq`,
`httpDecodeChunks_safe`).
-/

import Netstack.Library.Format

namespace Netstack

/-! ### The source -/

/-- `'\r'` -/
def charCr : UInt8 := 13

/-- `'\n'` -/
def charLf : UInt8 := 10

/-- `hex_value`, with `none` for `-1`. -/
def hexValue (c : UInt8) : Option ℕ :=
  if 48 ≤ c.toNat ∧ c.toNat ≤ 57 then some (c.toNat - 48)
  else if 97 ≤ c.toNat ∧ c.toNat ≤ 102 then some (10 + (c.toNat - 97))
  else if 65 ≤ c.toNat ∧ c.toNat ≤ 70 then some (10 + (c.toNat - 65))
  else none

/-- `parse_chunk_size` behind its loop. -/
def parsedSize (value : ℕ) (sawDigit : Bool) : OptionT Checked ℕ :=
  if !sawDigit then failure else return value

/-- The loop of `parse_chunk_size`, with `n` characters still to come from `i` on. -/
def parseChunkSizeLoop (input : List UInt8) : ℕ → ℕ → ℕ → Bool → OptionT Checked ℕ
  | 0, _, value, sawDigit => parsedSize value sawDigit
  | n + 1, i, value, sawDigit => do
    let c ← OptionT.lift (readAt input i)
    -- chunk extensions begin after ';'
    if c = 59 then parsedSize value sawDigit
    else if c = 32 ∨ c = 9 then parseChunkSizeLoop input n (i + 1) value sawDigit
    else
      match hexValue c with
      | none => failure
      | some digit =>
        if value > (sizeMax - digit) / 16 then failure
        else parseChunkSizeLoop input n (i + 1) (sizeAdd (sizeMul value 16) digit) true

/-- `parse_chunk_size` of the `lineLen` characters of `input` from `line` on. -/
def parseChunkSize (input : List UInt8) (line lineLen : ℕ) : OptionT Checked ℕ :=
  if lineLen = 0 then failure
  else parseChunkSizeLoop input lineLen line 0 false

/-- The loop of `http_decode_chunked_body` that looks for the end of the line. -/
def findLineEnd (input : List UInt8) : ℕ → ℕ → Checked (Option ℕ)
  | 0, _ => .error .diverge
  | fuel + 1, i =>
    if sizeAdd i 1 < input.length then do
      let c ← readAt input i
      if c = charCr then
        let next ← readAt input (sizeAdd i 1)
        if next = charLf then return some i
        else findLineEnd input fuel (sizeAdd i 1)
      else findLineEnd input fuel (sizeAdd i 1)
    else return none

/-- `http_decode_chunked_body` from the size checks of a chunk to the end of the loop body:
the output, and whether the loop goes on. -/
def httpCopyChunk (input output : List UInt8) (inputOffset outputOffset chunkSize : ℕ) :
    Checked (Bool × List UInt8) :=
  if chunkSize > sizeSub input.length inputOffset then return (false, output)
  else if chunkSize > sizeSub (sizeSub output.length outputOffset) 1 then return (false, output)
  else do
    let chunk ← readRange input inputOffset chunkSize
    let output ← writeRange output outputOffset chunk
    let inputOffset := sizeAdd inputOffset chunkSize
    -- chunk data must be followed by CRLF
    if sizeAdd inputOffset 2 > input.length then return (false, output)
    else
      let cr ← readAt input inputOffset
      if cr ≠ charCr then return (false, output)
      else
        let lf ← readAt input (sizeAdd inputOffset 1)
        return (lf = charLf, output)

/-- The `while` loop of `http_decode_chunked_body`. -/
def httpDecodeChunks (input : List UInt8) :
    ℕ → ℕ → ℕ → List UInt8 → Checked (ℕ × List UInt8)
  | 0, _, _, _ => .error .diverge
  | fuel + 1, inputOffset, outputOffset, output =>
    if inputOffset < input.length then do
      match ← findLineEnd input (input.length + 1) inputOffset with
      | none => return (0, output)
      | some lineEnd =>
        match ← (parseChunkSize input inputOffset (sizeSub lineEnd inputOffset)).run with
        | none => return (0, output)
        | some chunkSize =>
          let inputOffset := sizeAdd lineEnd 2
          if chunkSize = 0 then
            if outputOffset ≥ output.length then return (0, output)
            else
              let output ← writeAt output outputOffset 0
              return (outputOffset, output)
          else
            match ← httpCopyChunk input output inputOffset outputOffset chunkSize with
            | (false, output) => return (0, output)
            | (true, output) =>
              httpDecodeChunks input fuel (sizeAdd (sizeAdd inputOffset chunkSize) 2)
                (sizeAdd outputOffset chunkSize) output
    else return (0, output)

/-- `http_decode_chunked_body`: its result and what it leaves in `output`. -/
def httpDecodeChunkedBody (input output : List UInt8) : Checked (ℕ × List UInt8) :=
  if output.length = 0 then return (0, output)
  else httpDecodeChunks input (input.length + 1) 0 0 output

/-! ### Lines -/

/-- The offset of the first CR LF. -/
def crLfIndex : List UInt8 → Option ℕ
  | [] => none
  | [_] => none
  | c :: d :: rest =>
    if c = charCr ∧ d = charLf then some 0 else (crLfIndex (d :: rest)).map (· + 1)

/-- The end of a line is inside of the text. -/
theorem crLfIndex_le {w : List UInt8} {k : ℕ} (h : crLfIndex w = some k) : k + 2 ≤ w.length := by
  induction w generalizing k with
  | nil => exact absurd h (by simp [crLfIndex])
  | cons c rest ih =>
      cases rest with
      | nil => exact absurd h (by simp [crLfIndex])
      | cons d rest =>
          rw [crLfIndex] at h
          split_ifs at h with hcrlf
          · obtain rfl := Option.some.inj h
            simp
          · obtain ⟨k, hk, rfl⟩ := Option.map_eq_some_iff.1 h
            have := ih hk
            rw [List.length_cons]
            omega

section Lines

variable {input : List UInt8} {i : ℕ}

/-- **The scan for the end of a line** finds the first CR LF. -/
theorem findLineEnd_eq (hinput : input.length ≤ maxObjectLen) {fuel : ℕ}
    (hi : i ≤ input.length) (hfuel : input.length < fuel + i) :
    findLineEnd input fuel i = .ok ((crLfIndex (input.drop i)).map (i + ·)) := by
  induction fuel generalizing i with
  | zero => omega
  | succ fuel ih =>
      have hone : sizeAdd i 1 = i + 1 := sizeAdd_of_object hinput hi (by omega)
      rw [findLineEnd, hone]
      by_cases hroom : i + 1 < input.length
      · have hdrop : input.drop i = input[i] :: input[i + 1] :: input.drop (i + 2) := by
          rw [List.drop_eq_getElem_cons (by omega), List.drop_eq_getElem_cons hroom]
        have hrest : input.drop (i + 1) = input[i + 1] :: input.drop (i + 2) :=
          List.drop_eq_getElem_cons hroom
        have hnext := ih (i := i + 1) (by omega) (by omega)
        have hcompose : ((crLfIndex (input.drop (i + 1))).map (· + 1)).map (i + ·) =
            (crLfIndex (input.drop (i + 1))).map (i + 1 + ·) := by
          rw [Option.map_map]
          congr 1
          funext k
          show i + (k + 1) = i + 1 + k
          omega
        rw [if_pos hroom, readAt_of_lt (by omega), ok_bind, readAt_of_lt hroom, ok_bind, hnext,
          hdrop, crLfIndex, ← hrest]
        by_cases hcr : input[i] = charCr
        · by_cases hlf : input[i + 1] = charLf
          · rw [if_pos hcr, if_pos hlf, if_pos ⟨hcr, hlf⟩]
            rfl
          · rw [if_pos hcr, if_neg hlf, if_neg (mt And.right hlf), hcompose]
        · rw [if_neg hcr, if_neg (mt And.left hcr), hcompose]
      · have hnone : crLfIndex (input.drop i) = none := by
          cases hk : crLfIndex (input.drop i) with
          | none => rfl
          | some k =>
              have hle := crLfIndex_le hk
              rw [List.length_drop] at hle
              omega
        rw [if_neg hroom, hnone]
        rfl

end Lines

/-! ### Sizes -/

/-- What `parse_chunk_size` makes of the characters `line`, behind others that have the value
`value`. -/
def scanSize : List UInt8 → ℕ → Bool → Option ℕ
  | [], value, sawDigit => if sawDigit then some value else none
  | c :: line, value, sawDigit =>
    if c = 59 then if sawDigit then some value else none
    else if c = 32 ∨ c = 9 then scanSize line value sawDigit
    else
      match hexValue c with
      | none => none
      | some digit =>
        if value > (sizeMax - digit) / 16 then none else scanSize line (value * 16 + digit) true

theorem hexValue_lt {c : UInt8} {digit : ℕ} (h : hexValue c = some digit) : digit < 16 := by
  unfold hexValue at h
  split_ifs at h <;> (obtain rfl := Option.some.inj h; omega)

/-- The guard of `parse_chunk_size` is exactly that the value would not fit. -/
theorem size_guard {value digit : ℕ} (hdigit : digit < 16) :
    value > (sizeMax - digit) / 16 ↔ sizeMax < value * 16 + digit := by
  unfold sizeMax
  omega

theorem parsedSize_run (value : ℕ) (sawDigit : Bool) :
    (parsedSize value sawDigit).run = .ok (if sawDigit then some value else none) := by
  cases sawDigit <;> rfl

/-- The loop reads the characters of its line and no others, and accumulates what `scanSize` does
over the list: the induction is on the line, with the index and the accumulator as they are. The
guard of the source keeps the product and the sum below `SIZE_MAX`, so that they do not wrap. -/
theorem parseChunkSizeLoop_eq {input line rest : List UInt8} {i value : ℕ} {sawDigit : Bool}
    (h : input.drop i = line ++ rest) :
    (parseChunkSizeLoop input line.length i value sawDigit).run =
      .ok (scanSize line value sawDigit) := by
  induction line generalizing i value sawDigit with
  | nil => exact parsedSize_run value sawDigit
  | cons c line ih =>
      have hnext : input.drop (i + 1) = line ++ rest := by
        rw [← List.drop_drop, h]
        rfl
      rw [List.length_cons, parseChunkSizeLoop, readAt_of_drop h, lift_ok_bind, scanSize]
      by_cases hext : c = 59
      · rw [if_pos hext, if_pos hext]
        exact parsedSize_run value sawDigit
      by_cases hblank : c = 32 ∨ c = 9
      · rw [if_neg hext, if_pos hblank, if_neg hext, if_pos hblank]
        exact ih hnext
      rw [if_neg hext, if_neg hblank, if_neg hext, if_neg hblank]
      cases hdigit : hexValue c with
      | none => rfl
      | some digit =>
          dsimp only
          have hguard := @size_guard value digit (hexValue_lt hdigit)
          by_cases hlarge : value > (sizeMax - digit) / 16
          · rw [if_pos hlarge, if_pos hlarge]
            rfl
          · have hfits := not_lt.1 (mt hguard.2 hlarge)
            rw [if_neg hlarge, if_neg hlarge, sizeMul_of_le (by omega), sizeAdd_of_le hfits]
            exact ih hnext

/-- **`parse_chunk_size`** stays within its line. -/
theorem parseChunkSize_eq {input line rest : List UInt8} {i : ℕ}
    (h : input.drop i = line ++ rest) :
    (parseChunkSize input i line.length).run =
      .ok (if line = [] then none else scanSize line 0 false) := by
  unfold parseChunkSize
  by_cases hnil : line = []
  · rw [if_pos hnil, if_pos (by rw [hnil]; rfl)]
    rfl
  · rw [if_neg hnil, if_neg (mt List.length_eq_zero_iff.1 hnil)]
    exact parseChunkSizeLoop_eq h

/-- The number that hexadecimal digits continue `value` with. -/
def hexNumber (value : ℕ) (digits : List UInt8) : ℕ :=
  digits.foldl (fun value c => value * 16 + (hexValue c).getD 0) value

/-- More digits do not make the number smaller, so that a value that does not fit is noticed at
the digit where it stops fitting. -/
theorem le_hexNumber (value : ℕ) (digits : List UInt8) : value ≤ hexNumber value digits := by
  induction digits generalizing value with
  | nil => exact le_rfl
  | cons c digits ih =>
      have hstep := ih (value * 16 + (hexValue c).getD 0)
      rw [hexNumber, List.foldl_cons]
      rw [hexNumber] at hstep
      omega

/-- A size is read from its digits, whatever their case and however many zeros lead them, up to
the extension. -/
theorem scanSize_digits {digits extension : List UInt8} {value : ℕ} {sawDigit : Bool}
    (hhex : ∀ c ∈ digits, hexValue c ≠ none) (hfits : hexNumber value digits ≤ sizeMax)
    (hext : extension = [] ∨ ∃ rest, extension = 59 :: rest)
    (hsaw : sawDigit = true ∨ digits ≠ []) :
    scanSize (digits ++ extension) value sawDigit = some (hexNumber value digits) := by
  induction digits generalizing value sawDigit with
  | nil =>
      obtain rfl : sawDigit = true := hsaw.resolve_right fun h => h rfl
      rcases hext with rfl | ⟨rest, rfl⟩ <;> rfl
  | cons c digits ih =>
      obtain ⟨digit, hdigit⟩ := Option.ne_none_iff_exists'.1 (hhex c (List.mem_cons_self ..))
      have hnumber : hexNumber value (c :: digits) = hexNumber (value * 16 + digit) digits := by
        rw [hexNumber, List.foldl_cons, hdigit]
        rfl
      have hle := le_hexNumber (value * 16 + digit) digits
      rw [hnumber] at hfits ⊢
      have hother : c ≠ 59 ∧ ¬(c = 32 ∨ c = 9) := by
        have hnot := hhex c (List.mem_cons_self ..)
        refine ⟨?_, ?_⟩
        · rintro rfl
          exact hnot rfl
        · rintro (rfl | rfl) <;> exact hnot rfl
      rw [List.cons_append, scanSize, if_neg hother.1, if_neg hother.2, hdigit]
      dsimp only
      rw [if_neg (by rw [size_guard (hexValue_lt hdigit)]; omega)]
      exact ih (fun d hd => hhex d (List.mem_cons_of_mem _ hd)) hfits (Or.inl rfl)

/-! ### The loop -/

section Loop

variable {input output : List UInt8} {inputOffset outputOffset : ℕ}

/-- The output with `chunk` at the offset. -/
def copied (output : List UInt8) (outputOffset : ℕ) (chunk : List UInt8) : List UInt8 :=
  output.take outputOffset ++ chunk ++ output.drop (outputOffset + chunk.length)

theorem length_copied {chunk : List UInt8} (h : outputOffset + chunk.length ≤ output.length) :
    (copied output outputOffset chunk).length = output.length := by
  simp only [copied, List.length_append, List.length_take, List.length_drop]
  omega

/-- The two characters that are compared with CR and LF. -/
theorem crLf_prefix_iff {i : ℕ} (h : i + 2 ≤ input.length) :
    [charCr, charLf] <+: input.drop i ↔ input[i] = charCr ∧ input[i + 1] = charLf := by
  rw [List.drop_eq_getElem_cons (by omega), List.drop_eq_getElem_cons (by omega),
    List.cons_prefix_cons, List.cons_prefix_cons]
  constructor
  · rintro ⟨hcr, hlf, -⟩
    exact ⟨hcr.symm, hlf.symm⟩
  · rintro ⟨hcr, hlf⟩
    exact ⟨hcr.symm, hlf.symm, List.nil_prefix⟩

/-- **A chunk is copied** when the input has it and the output has room for it and for a NUL; and
the loop goes on when a CR LF follows it. -/
theorem httpCopyChunk_eq (hinput : input.length ≤ maxObjectLen)
    (houtput : output.length ≤ maxObjectLen) (hi : inputOffset ≤ input.length)
    (ho : outputOffset < output.length) (size : ℕ) :
    httpCopyChunk input output inputOffset outputOffset size = .ok
      (if inputOffset + size ≤ input.length ∧ outputOffset + size < output.length then
        (decide ([charCr, charLf] <+: input.drop (inputOffset + size)),
          copied output outputOffset ((input.drop inputOffset).take size))
      else (false, output)) := by
  have hin : sizeSub input.length inputOffset = input.length - inputOffset :=
    sizeSub_of_le hi (by unfold maxObjectLen at hinput; unfold sizeMax; omega)
  have hout : sizeSub (sizeSub output.length outputOffset) 1 = output.length - outputOffset - 1 := by
    unfold maxObjectLen at houtput
    rw [sizeSub_of_le ho.le (by unfold sizeMax; omega), sizeSub_of_le (by omega)
      (by unfold sizeMax; omega)]
  unfold httpCopyChunk
  rw [hin, hout]
  by_cases hlong : size > input.length - inputOffset
  · rw [if_pos hlong, if_neg (by omega)]
    rfl
  by_cases hfull : size > output.length - outputOffset - 1
  · rw [if_neg hlong, if_pos hfull, if_neg (by omega)]
    rfl
  have hlen : ((input.drop inputOffset).take size).length = size := by
    rw [List.length_take, List.length_drop]
    omega
  have hend : sizeAdd inputOffset size = inputOffset + size :=
    sizeAdd_of_object hinput hi (by unfold maxObjectLen at hinput; omega)
  have htwo : sizeAdd (inputOffset + size) 2 = inputOffset + size + 2 :=
    sizeAdd_of_object hinput (by omega) (by omega)
  have hone : sizeAdd (inputOffset + size) 1 = inputOffset + size + 1 :=
    sizeAdd_of_object hinput (by omega) (by omega)
  rw [if_neg hlong, if_neg hfull, if_pos ⟨by omega, by omega⟩, readRange_of_le (by omega), ok_bind,
    writeRange_of_le (by rw [hlen]; omega), ok_bind, hend]
  dsimp only
  rw [htwo, hone]
  by_cases hshort : inputOffset + size + 2 > input.length
  · have hnot : ¬[charCr, charLf] <+: input.drop (inputOffset + size) := fun hpre => by
      have := offset_add_length_le (by omega) hpre
      simp only [List.length_cons, List.length_nil] at this
      omega
    rw [if_pos hshort, decide_eq_false hnot]
    rfl
  · have hiff := @crLf_prefix_iff input (inputOffset + size) (by omega)
    rw [if_neg hshort, readAt_of_lt (by omega), ok_bind]
    by_cases hcr : input[inputOffset + size] ≠ charCr
    · rw [if_pos hcr, decide_eq_false (fun hpre => hcr (hiff.1 hpre).1)]
      rfl
    · rw [if_neg hcr, readAt_of_lt (by omega), ok_bind, decide_eq_decide.2
        (hiff.trans (and_iff_right (not_not.1 hcr)))]
      rfl

/-- **One turn of the loop**, with the two scans as what they compute. -/
theorem httpDecodeChunks_turn (hinput : input.length ≤ maxObjectLen)
    (houtput : output.length ≤ maxObjectLen) (hi : inputOffset ≤ input.length)
    (ho : outputOffset < output.length) (fuel : ℕ) :
    httpDecodeChunks input (fuel + 1) inputOffset outputOffset output =
      match crLfIndex (input.drop inputOffset) with
      | none => .ok (0, output)
      | some k =>
        match (if k = 0 then none else scanSize ((input.drop inputOffset).take k) 0 false) with
        | none => .ok (0, output)
        | some 0 => .ok (outputOffset, output.set outputOffset 0)
        | some (size + 1) =>
          if inputOffset + k + 2 + (size + 1) ≤ input.length ∧
              outputOffset + (size + 1) < output.length then
            if [charCr, charLf] <+: input.drop (inputOffset + k + 2 + (size + 1)) then
              httpDecodeChunks input fuel (inputOffset + k + 2 + (size + 1) + 2)
                (outputOffset + (size + 1))
                (copied output outputOffset
                  ((input.drop (inputOffset + k + 2)).take (size + 1)))
            else .ok (0, copied output outputOffset
              ((input.drop (inputOffset + k + 2)).take (size + 1)))
          else .ok (0, output) := by
  rw [httpDecodeChunks]
  by_cases hmore : inputOffset < input.length
  swap
  · have hnil : input.drop inputOffset = [] := List.drop_eq_nil_of_le (not_lt.1 hmore)
    rw [if_neg hmore, hnil]
    rfl
  rw [if_pos hmore, findLineEnd_eq hinput hi (by omega), ok_bind]
  cases hline : crLfIndex (input.drop inputOffset) with
  | none => rfl
  | some k =>
      have hk := crLfIndex_le hline
      rw [List.length_drop] at hk
      have hlength : ((input.drop inputOffset).take k).length = k := by
        rw [List.length_take, List.length_drop]
        omega
      have hlineLen : sizeSub (inputOffset + k) inputOffset = k := by
        unfold maxObjectLen at hinput
        rw [sizeSub_of_le (by omega) (by unfold sizeMax; omega)]
        omega
      have hsize := parseChunkSize_eq (List.take_append_drop k (input.drop inputOffset)).symm
      have hempty : (input.drop inputOffset).take k = [] ↔ k = 0 := by
        rw [← List.length_eq_zero_iff, hlength]
      rw [hlength] at hsize
      simp only [hempty] at hsize
      simp only [Option.map_some]
      rw [hlineLen, hsize, ok_bind]
      cases (if k = 0 then none else scanSize ((input.drop inputOffset).take k) 0 false) with
      | none => rfl
      | some size =>
          have htwo : sizeAdd (inputOffset + k) 2 = inputOffset + k + 2 :=
            sizeAdd_of_object hinput (by omega) (by omega)
          dsimp only
          rw [htwo]
          cases size with
          | zero =>
              rw [if_pos rfl, if_neg (by omega), writeAt_of_lt ho]
              rfl
          | succ size =>
              rw [if_neg (Nat.succ_ne_zero size), httpCopyChunk_eq hinput houtput (by omega) ho,
                ok_bind]
              dsimp only
              by_cases hfits : inputOffset + k + 2 + (size + 1) ≤ input.length ∧
                  outputOffset + (size + 1) < output.length
              swap
              · rw [if_neg hfits, if_neg hfits]
                rfl
              rw [if_pos hfits, if_pos hfits]
              by_cases hcrlf : [charCr, charLf] <+: input.drop (inputOffset + k + 2 + (size + 1))
              swap
              · rw [if_neg hcrlf, decide_eq_false hcrlf]
                rfl
              unfold maxObjectLen at hinput houtput
              have hend : sizeAdd (inputOffset + k + 2) (size + 1) =
                  inputOffset + k + 2 + (size + 1) := sizeAdd_of_le (by unfold sizeMax; omega)
              have hnext : sizeAdd (inputOffset + k + 2 + (size + 1)) 2 =
                  inputOffset + k + 2 + (size + 1) + 2 := sizeAdd_of_le (by unfold sizeMax; omega)
              have hout : sizeAdd outputOffset (size + 1) = outputOffset + (size + 1) :=
                sizeAdd_of_le (by unfold sizeMax; omega)
              rw [if_pos hcrlf, decide_eq_true hcrlf]
              dsimp only
              rw [hend, hnext, hout]

/-- **No input makes the decoder leave its buffers**, and it ends. -/
theorem httpDecodeChunks_safe (hinput : input.length ≤ maxObjectLen)
    (houtput : output.length ≤ maxObjectLen) (hi : inputOffset ≤ input.length)
    (ho : outputOffset < output.length) {fuel : ℕ} (hfuel : input.length < fuel + inputOffset) :
    ∃ n left, httpDecodeChunks input fuel inputOffset outputOffset output = .ok (n, left) ∧
      left.length = output.length := by
  induction fuel generalizing inputOffset outputOffset output with
  | zero => omega
  | succ fuel ih =>
      rw [httpDecodeChunks_turn hinput houtput hi ho]
      cases crLfIndex (input.drop inputOffset) with
      | none => exact ⟨0, output, rfl, rfl⟩
      | some k =>
          dsimp only
          cases (if k = 0 then none else scanSize ((input.drop inputOffset).take k) 0 false) with
          | none => exact ⟨0, output, rfl, rfl⟩
          | some size =>
              cases size with
              | zero => exact ⟨outputOffset, _, rfl, List.length_set⟩
              | succ size =>
                  dsimp only
                  by_cases hfits : inputOffset + k + 2 + (size + 1) ≤ input.length ∧
                      outputOffset + (size + 1) < output.length
                  swap
                  · rw [if_neg hfits]
                    exact ⟨0, output, rfl, rfl⟩
                  have hchunk : ((input.drop (inputOffset + k + 2)).take (size + 1)).length =
                      size + 1 := by
                    rw [List.length_take, List.length_drop]
                    omega
                  have hcopied : (copied output outputOffset
                      ((input.drop (inputOffset + k + 2)).take (size + 1))).length =
                        output.length := length_copied (by rw [hchunk]; omega)
                  rw [if_pos hfits]
                  by_cases hcrlf :
                      [charCr, charLf] <+: input.drop (inputOffset + k + 2 + (size + 1))
                  swap
                  · rw [if_neg hcrlf]
                    exact ⟨0, _, rfl, hcopied⟩
                  have hend := offset_add_length_le hfits.1 hcrlf
                  simp only [List.length_cons, List.length_nil] at hend
                  rw [if_pos hcrlf, ← hcopied]
                  exact ih (by rwa [hcopied]) (by omega) (by rw [hcopied]; omega) (by omega)

end Loop

end Netstack
