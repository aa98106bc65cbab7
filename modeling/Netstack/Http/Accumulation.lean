/-
# The array that a response is received into

`append_response` and `drain_tcp_application_data` of `tools/netstack_http.c`, and the array that
`run_http` gives them.

The array grows by doubling until what it gets has room in it, and never above `1 MiB`.  Three
checks keep it there: two before the sum of the lengths is computed, and one in the loop that
doubles.  The first two decide (`ResponseBuffer.Holds.append`), and the third never does.
-/

import Netstack.TcpConnection.Calls
import Netstack.Library.Memory

namespace Netstack

/-! ### The source -/

/-- `HTTP_RESPONSE_INITIAL_CAPACITY` -/
def httpResponseInitialCapacity : ℕ := 8192

/-- `HTTP_RESPONSE_MAX_SIZE` -/
def httpResponseMaxSize : ℕ := 1024 * 1024

/-- `TCP_APP_READ_BUFFER` -/
def tcpAppReadBuffer : ℕ := 4096

/-- `*buffer`, `*length` and `*capacity`. -/
structure ResponseBuffer where
  buffer : List UInt8
  length : ℕ
  capacity : ℕ
deriving DecidableEq

/-- One round of the loop of `append_response`. -/
def nextCapacity (newCapacity : ℕ) : ℕ :=
  if newCapacity ≥ httpResponseMaxSize / 2 then httpResponseMaxSize else sizeMul newCapacity 2

/-- The loop of `append_response`; `none` where it returns `-1`. -/
def growLoop (required : ℕ) : ℕ → ℕ → Checked (Option ℕ)
  | 0, _ => .error .diverge
  | fuel + 1, newCapacity =>
    if newCapacity < required then
      if nextCapacity newCapacity < required ∧ nextCapacity newCapacity = httpResponseMaxSize then
        return none
      else growLoop required fuel (nextCapacity newCapacity)
    else return some newCapacity

/-- `append_response` where the array is too small: `realloc` gives the new array, or `none` for
`NULL`, and the result is `none` where `append_response` returns `-1`. -/
def growBuffer (realloc : List UInt8 → ℕ → Option (List UInt8)) (response : ResponseBuffer)
    (required : ℕ) : Checked (Option ResponseBuffer) :=
  if required > response.capacity then do
    let newCapacity :=
      if response.capacity = 0 then httpResponseInitialCapacity else response.capacity
    match ← growLoop required 64 newCapacity with
    | none => return none
    | some newCapacity =>
      match realloc response.buffer newCapacity with
      | none => return none
      | some buffer => return some { response with buffer, capacity := newCapacity }
  else return some response

/-- `append_response` -/
def appendResponse (realloc : List UInt8 → ℕ → Option (List UInt8)) (response : ResponseBuffer)
    (data : List UInt8) (dataLen : ℕ) : Checked (ℤ × ResponseBuffer) :=
  if dataLen = 0 then return (0, response)
  else if response.length ≥ httpResponseMaxSize then return (-1, response)
  else if dataLen > sizeSub (sizeSub httpResponseMaxSize response.length) 1 then
    return (-1, response)
  else do
    match ← growBuffer realloc response (sizeAdd (sizeAdd response.length dataLen) 1) with
    | none => return (-1, response)
    | some grown =>
      let bytes ← readRange data 0 dataLen
      let buffer ← writeRange grown.buffer grown.length bytes
      let length := sizeAdd grown.length dataLen
      let buffer ← writeAt buffer length 0
      return (0, { grown with buffer, length })

/-- The loop of `drain_tcp_application_data`. -/
def drainLoop (realloc : List UInt8 → ℕ → Option (List UInt8)) :
    ℕ → List UInt8 → TcpConnection → ResponseBuffer → Checked (ℤ × TcpConnection × ResponseBuffer)
  | 0, _, _, _ => .error .diverge
  | fuel + 1, buffer, connection, response =>
    if tcpConnectionReadable connection > 0 then do
      let (bytes, connection) := tcpConnectionRead connection tcpAppReadBuffer
      let buffer ← writeRange buffer 0 bytes
      if bytes.length = 0 then return (0, connection, response)
      else
        let (result, response) ← appendResponse realloc response buffer bytes.length
        if result ≠ 0 then return (-1, connection, response)
        else drainLoop realloc fuel buffer connection response
    else return (0, connection, response)

/-- `drain_tcp_application_data`; `buffer` is its uninitialised array. -/
def drainTcpApplicationData (realloc : List UInt8 → ℕ → Option (List UInt8)) (buffer : List UInt8)
    (connection : TcpConnection) (response : ResponseBuffer) :
    Checked (ℤ × TcpConnection × ResponseBuffer) :=
  drainLoop realloc (tcpConnectionReadable connection + 1) buffer connection response

/-- The array as `run_http` begins with it, in the memory that `malloc` gave. -/
def ResponseBuffer.empty (memory : List UInt8) : ResponseBuffer :=
  ⟨memory.set 0 0, 0, httpResponseInitialCapacity⟩

/-! ### Sums that do not wrap -/

/-- An operation on values of type `size_t`. -/
inductive SizeOp where
  | add (a b : ℕ)
  | sub (a b : ℕ)
  | mul (a b : ℕ)

/-- The result is the one of the operation on numbers. -/
def SizeOp.IsExact : SizeOp → Prop
  | .add a b => a + b ≤ sizeMax
  | .sub a b => b ≤ a
  | .mul a b => a * b ≤ sizeMax

/-- The doublings of the loop. -/
def growLoopOps (required : ℕ) : ℕ → ℕ → List SizeOp
  | 0, _ => []
  | fuel + 1, newCapacity =>
    if newCapacity < required then
      (if newCapacity ≥ httpResponseMaxSize / 2 then [] else [.mul newCapacity 2]) ++
        if nextCapacity newCapacity < required ∧ nextCapacity newCapacity = httpResponseMaxSize then []
        else growLoopOps required fuel (nextCapacity newCapacity)
    else []

/-- What `append_response` computes with lengths, up to where it returns. -/
def appendResponseOps (response : ResponseBuffer) (dataLen : ℕ) : List SizeOp :=
  if dataLen = 0 then []
  else if response.length ≥ httpResponseMaxSize then []
  else
    [.sub httpResponseMaxSize response.length, .sub (sizeSub httpResponseMaxSize response.length) 1] ++
      if dataLen > sizeSub (sizeSub httpResponseMaxSize response.length) 1 then []
      else
        let required := sizeAdd (sizeAdd response.length dataLen) 1
        [.add response.length dataLen, .add (sizeAdd response.length dataLen) 1] ++
          (if required > response.capacity then
            growLoopOps required 64
              (if response.capacity = 0 then httpResponseInitialCapacity else response.capacity)
          else []) ++ [.add response.length dataLen]

/-- The array has room for what the two checks let through. -/
theorem sizeSub_maxSize {length : ℕ} (h : ¬length ≥ httpResponseMaxSize) :
    sizeSub (sizeSub httpResponseMaxSize length) 1 = httpResponseMaxSize - length - 1 := by
  have hmax : httpResponseMaxSize ≤ sizeMax := by decide
  rw [sizeSub_of_le (not_le.1 h).le hmax, sizeSub_of_le (by omega) (by omega)]

/-- The loop doubles a capacity only when it is at most half of `HTTP_RESPONSE_MAX_SIZE`, which
is far from `SIZE_MAX`: the check that keeps the capacity in its limit also keeps the product
from wrapping. -/
theorem growLoopOps_exact (required fuel newCapacity : ℕ) :
    ∀ op ∈ growLoopOps required fuel newCapacity, op.IsExact := by
  induction fuel generalizing newCapacity with
  | zero => exact fun op hop => absurd hop List.not_mem_nil
  | succ fuel ih =>
      intro op hop
      rw [growLoopOps] at hop
      split_ifs at hop with hsmall hhalf hstop hstop
      · exact absurd hop List.not_mem_nil
      · exact ih _ op hop
      · obtain rfl := List.mem_singleton.1 hop
        unfold httpResponseMaxSize at hhalf
        show newCapacity * 2 ≤ sizeMax
        unfold sizeMax
        omega
      · rcases List.mem_cons.1 hop with rfl | hop
        · unfold httpResponseMaxSize at hhalf
          show newCapacity * 2 ≤ sizeMax
          unfold sizeMax
          omega
        · exact ih _ op hop
      · exact absurd hop List.not_mem_nil

/-- **No sum, difference or doubling wraps**, in whatever state. -/
theorem appendResponseOps_exact (response : ResponseBuffer) (dataLen : ℕ) :
    ∀ op ∈ appendResponseOps response dataLen, op.IsExact := by
  unfold appendResponseOps
  by_cases hnone : dataLen = 0
  · rw [if_pos hnone]
    exact fun op hop => absurd hop List.not_mem_nil
  by_cases hfull : response.length ≥ httpResponseMaxSize
  · rw [if_neg hnone, if_pos hfull]
    exact fun op hop => absurd hop List.not_mem_nil
  have hmax : httpResponseMaxSize ≤ sizeMax := by decide
  have hlength := not_le.1 hfull
  have hroom : 1 ≤ sizeSub httpResponseMaxSize response.length := by
    rw [sizeSub_of_le hlength.le hmax]
    omega
  rw [if_neg hnone, if_neg hfull]
  refine List.forall_mem_append.2 ⟨List.forall_mem_cons.2 ⟨hlength.le,
    List.forall_mem_singleton.2 hroom⟩, ?_⟩
  rw [sizeSub_maxSize hfull]
  by_cases hlong : dataLen > httpResponseMaxSize - response.length - 1
  · rw [if_pos hlong]
    exact fun op hop => absurd hop List.not_mem_nil
  have hsum : response.length + dataLen ≤ sizeMax := by omega
  rw [if_neg hlong]
  refine List.forall_mem_append.2 ⟨List.forall_mem_append.2 ⟨List.forall_mem_cons.2 ⟨hsum,
    List.forall_mem_singleton.2 ?_⟩, ?_⟩, List.forall_mem_singleton.2 hsum⟩
  · show sizeAdd response.length dataLen + 1 ≤ sizeMax
    rw [sizeAdd_of_le hsum]
    omega
  · split_ifs
    · exact growLoopOps_exact _ _ _
    · exact growLoopOps_exact _ _ _
    · exact fun op hop => absurd hop List.not_mem_nil

/-! ### Growing -/

section Grow

variable {required newCapacity : ℕ}

/-- A round makes the capacity larger, up to the limit, by doubling it or by taking the limit
itself. -/
theorem nextCapacity_le (hpos : 0 < newCapacity) (hle : newCapacity ≤ httpResponseMaxSize) :
    newCapacity ≤ nextCapacity newCapacity ∧ nextCapacity newCapacity ≤ httpResponseMaxSize ∧
      (nextCapacity newCapacity = httpResponseMaxSize ∨
        nextCapacity newCapacity = newCapacity * 2) := by
  unfold nextCapacity
  split_ifs with hhalf
  · exact ⟨hle, le_rfl, Or.inl rfl⟩
  · unfold httpResponseMaxSize at *
    rw [sizeMul_of_le (by unfold sizeMax; omega)]
    exact ⟨by omega, by omega, Or.inr rfl⟩

/-- **The loop ends** with a capacity that is large enough, when the largest one is. -/
theorem growLoop_eq {fuel : ℕ} (hrequired : required ≤ httpResponseMaxSize) (hpos : 0 < newCapacity)
    (hle : newCapacity ≤ httpResponseMaxSize) (hfuel : httpResponseMaxSize ≤ 2 ^ fuel * newCapacity) :
    ∃ grown, growLoop required (fuel + 1) newCapacity = .ok (some grown) ∧ required ≤ grown ∧
      newCapacity ≤ grown ∧ grown ≤ httpResponseMaxSize := by
  induction fuel generalizing newCapacity with
  | zero =>
      have henough : ¬newCapacity < required := by omega
      rw [growLoop, if_neg henough]
      exact ⟨newCapacity, rfl, by omega, le_rfl, hle⟩
  | succ fuel ih =>
      rw [growLoop]
      split_ifs with hsmall hstop
      · exact absurd hstop.1 (by omega)
      · obtain ⟨hgrows, hmax, hnext⟩ := nextCapacity_le hpos hle
        have hfuel' : httpResponseMaxSize ≤ 2 ^ fuel * nextCapacity newCapacity := by
          rcases hnext with hnext | hnext
          · rw [hnext]
            exact Nat.le_mul_of_pos_left _ (Nat.two_pow_pos fuel)
          · rw [hnext, Nat.mul_comm newCapacity, ← Nat.mul_assoc, ← Nat.pow_succ]
            exact hfuel
        obtain ⟨grown, hrun, henough, hge, hgrown⟩ := ih (by omega) hmax hfuel'
        exact ⟨grown, hrun, henough, by omega, hgrown⟩
      · exact ⟨newCapacity, rfl, by omega, le_rfl, hle⟩

end Grow

/-! ### What the array holds -/

/-- `realloc` succeeds, and keeps what there is room for. -/
def Reallocates (realloc : List UInt8 → ℕ → Option (List UInt8)) : Prop :=
  ∀ memory n, 0 < n → n ≤ maxObjectLen → ∃ left, realloc memory n = some left ∧ left.length = n ∧
    left.take memory.length = memory.take n

/-- `realloc` gives what it is asked for, with what there was room for, or nothing. -/
def MayReallocate (realloc : List UInt8 → ℕ → Option (List UInt8)) : Prop :=
  ∀ memory n left, 0 < n → n ≤ maxObjectLen → realloc memory n = some left → left.length = n ∧
    left.take memory.length = memory.take n

/-- A `realloc` that always succeeds is one of those that may fail. -/
theorem Reallocates.may {realloc : List UInt8 → ℕ → Option (List UInt8)}
    (h : Reallocates realloc) : MayReallocate realloc := by
  intro memory n left hpos hobject hleft
  obtain ⟨left', hleft', hkept⟩ := h memory n hpos hobject
  rw [hleft] at hleft'
  obtain rfl := Option.some.inj hleft'
  exact hkept

/-- The array holds these bytes with a zero behind them, and `*length` and `*capacity` are what they
are meant to be. -/
structure ResponseBuffer.Holds (response : ResponseBuffer) (bytes : List UInt8) : Prop where
  length_eq : response.length = bytes.length
  length_buffer : response.buffer.length = response.capacity
  fits : response.length + 1 ≤ response.capacity
  bounded : response.capacity ≤ httpResponseMaxSize
  string_eq : response.buffer.take (response.length + 1) = bytes ++ [0]

/-- The buffer that the tools begin with holds nothing, whatever is in its memory. -/
theorem ResponseBuffer.holds_empty {memory : List UInt8}
    (hmemory : memory.length = httpResponseInitialCapacity) : (empty memory).Holds [] := by
  have hfits : 0 + 1 ≤ httpResponseInitialCapacity := by decide
  have hbounded : httpResponseInitialCapacity ≤ httpResponseMaxSize := by decide
  refine ⟨rfl, by rw [empty, List.length_set, hmemory], hfits, hbounded, ?_⟩
  cases memory with
  | nil => exact absurd hmemory (by decide)
  | cons c memory => rfl

section Append

variable {realloc : List UInt8 → ℕ → Option (List UInt8)} {response : ResponseBuffer}
  {bytes data : List UInt8} {dataLen required : ℕ}

/-- Growing keeps what the array holds, unless `realloc` gives nothing. -/
theorem ResponseBuffer.Holds.grow (hrealloc : MayReallocate realloc) (h : response.Holds bytes)
    (hrequired : required ≤ httpResponseMaxSize) :
    (growBuffer realloc response required = .ok none ∧ ¬Reallocates realloc) ∨
      ∃ grown, growBuffer realloc response required = .ok (some grown) ∧ grown.Holds bytes ∧
        grown.length = response.length ∧ required ≤ grown.capacity := by
  have hlength := h.length_buffer
  have hfits := h.fits
  unfold growBuffer
  split_ifs with hsmall hzero
  · omega
  · have hfuel : httpResponseMaxSize ≤ 2 ^ 63 * response.capacity := by
      have hmax : httpResponseMaxSize ≤ 2 ^ 63 := by decide
      omega
    obtain ⟨grown, hrun, henough, hge, hmax⟩ :=
      growLoop_eq hrequired (by omega) h.bounded hfuel
    have hloop : growLoop required 64 response.capacity = .ok (some grown) := hrun
    have hobject : grown ≤ maxObjectLen := hmax.trans (by decide)
    have hpos : 0 < grown := by omega
    dsimp only
    rw [hloop, ok_bind]
    dsimp only
    cases hleft : realloc response.buffer grown with
    | none =>
        refine Or.inl ⟨rfl, fun hall => ?_⟩
        obtain ⟨left, hsome, -⟩ := hall response.buffer grown hpos hobject
        exact absurd (hleft.symm.trans hsome) (by simp)
    | some left =>
      obtain ⟨hleftLen, hkept⟩ := hrealloc response.buffer grown left hpos hobject hleft
      refine Or.inr ⟨{ response with buffer := left, capacity := grown }, rfl, ?_, rfl, henough⟩
      refine ⟨h.length_eq, hleftLen, hfits.trans hge, hmax, ?_⟩
      rw [← h.string_eq]
      have hcut := congrArg (List.take (response.length + 1)) hkept
      rwa [List.take_take, List.take_take, Nat.min_eq_left (by omega), Nat.min_eq_left (by omega)]
        at hcut
  · exact Or.inr ⟨response, rfl, h, rfl, not_lt.1 hsmall⟩

/-- Writing behind the bytes, with a zero behind what is written. -/
theorem ResponseBuffer.Holds.write (h : response.Holds bytes) (more : List UInt8)
    (hroom : response.length + more.length + 1 ≤ response.capacity) :
    ∃ written left, writeRange response.buffer response.length more = .ok written ∧
      writeAt written (response.length + more.length) 0 = .ok left ∧
        left.length = response.capacity ∧
          left.take (response.length + more.length + 1) = bytes ++ more ++ [0] := by
  have hlength := h.length_eq
  have hbuffer : response.buffer = bytes ++ 0 :: response.buffer.drop (response.length + 1) := by
    conv_lhs => rw [← List.take_append_drop (response.length + 1) response.buffer, h.string_eq]
    simp
  have hall := congrArg List.length hbuffer
  generalize response.buffer.drop (response.length + 1) = rest at hbuffer hall
  rw [h.length_buffer, List.length_append, List.length_cons] at hall
  have hwrite := @writeRange_append _ bytes (0 :: rest) more response.length hlength.symm
    (by rw [List.length_cons]; omega)
  obtain ⟨c, behind, hbehind⟩ := List.exists_cons_of_ne_nil
    (List.ne_nil_of_length_pos (by rw [List.length_drop, List.length_cons]; omega) :
      (0 :: rest).drop more.length ≠ [])
  have hsum : (bytes ++ more).length = response.length + more.length := by
    rw [List.length_append, hlength]
  have hbehindLen := congrArg List.length hbehind
  rw [List.length_drop, List.length_cons, List.length_cons] at hbehindLen
  refine ⟨_, bytes ++ more ++ [0] ++ behind, hbuffer ▸ hwrite, ?_, ?_, ?_⟩
  · rw [hbehind]
    exact writeAt_append hsum c 0 behind
  · simp only [List.length_append, List.length_singleton]
    omega
  · exact List.take_left' (by rw [List.length_append, List.length_singleton, hsum])

/-- **One call**: it succeeds when there is room for the data and `realloc` gives it, and changes
nothing otherwise. -/
theorem ResponseBuffer.Holds.append (hrealloc : MayReallocate realloc) (h : response.Holds bytes)
    (hdata : dataLen ≤ data.length) :
    ∃ result next, appendResponse realloc response data dataLen = .ok (result, next) ∧
      (Reallocates realloc → dataLen ≠ 0 →
        (result = 0 ↔ response.length + dataLen + 1 ≤ httpResponseMaxSize)) ∧
      (result ≠ 0 → next = response) ∧
      next.Holds (if result = 0 then bytes ++ data.take dataLen else bytes) := by
  have hfits := h.fits
  have hbounded := h.bounded
  unfold appendResponse
  by_cases hnone : dataLen = 0
  · rw [if_pos hnone]
    refine ⟨0, response, rfl, fun _ hne => absurd hnone hne, fun hne => absurd rfl hne, ?_⟩
    rw [if_pos rfl, hnone, List.take_zero, List.append_nil]
    exact h
  have hfull : ¬response.length ≥ httpResponseMaxSize := by omega
  rw [if_neg hnone, if_neg hfull, sizeSub_maxSize hfull]
  by_cases hlong : dataLen > httpResponseMaxSize - response.length - 1
  · rw [if_pos hlong]
    exact ⟨-1, response, rfl, fun _ _ => iff_of_false (by decide) (by omega), fun _ => rfl, h⟩
  have hmax : httpResponseMaxSize ≤ sizeMax := by decide
  have hadd : sizeAdd response.length dataLen = response.length + dataLen :=
    sizeAdd_of_le (by omega)
  have hrequired : sizeAdd (sizeAdd response.length dataLen) 1 = response.length + dataLen + 1 := by
    rw [hadd, sizeAdd_of_le (by omega)]
  have hroom : response.length + dataLen + 1 ≤ httpResponseMaxSize := by omega
  rw [if_neg hlong, hrequired]
  rcases h.grow hrealloc hroom with ⟨hrun, hfails⟩ | ⟨grown, hrun, hgrown, hlength, henough⟩
  · rw [hrun]
    exact ⟨-1, response, rfl, fun hall => absurd hall hfails, fun _ => rfl, h⟩
  have hbytes : (data.take dataLen).length = dataLen := by
    rw [List.length_take, Nat.min_eq_left hdata]
  have hread : readRange data 0 dataLen = .ok (data.take dataLen) := by
    rw [readRange_of_le (by omega), List.drop_zero]
  rw [hrun, ok_bind]
  dsimp only
  rw [hread, ok_bind]
  obtain ⟨written, left, hwritten, hleft, hleftLen, hstring⟩ :=
    hgrown.write (data.take dataLen) (by omega)
  have hgrownAdd : sizeAdd grown.length dataLen = grown.length + dataLen := hlength ▸ hadd
  rw [hbytes] at hleft hstring
  rw [hwritten, ok_bind, hgrownAdd, hleft]
  refine ⟨0, _, rfl, fun _ _ => iff_of_true rfl hroom, fun hne => absurd rfl hne, ?_⟩
  rw [if_pos rfl]
  refine ⟨?_, hleftLen, ?_, hgrown.bounded, hstring⟩
  · rw [List.length_append, hbytes, ← hgrown.length_eq]
  · show grown.length + dataLen + 1 ≤ grown.capacity
    omega

end Append

/-! ### Runs -/

/-- Calls of `append_response` one after the other: their results, and the array. -/
def appendAll (realloc : List UInt8 → ℕ → Option (List UInt8)) :
    ResponseBuffer → List (List UInt8) → Checked (List ℤ × ResponseBuffer)
  | response, [] => return ([], response)
  | response, data :: calls => do
    let (result, response) ← appendResponse realloc response data data.length
    let (results, response) ← appendAll realloc response calls
    return (result :: results, response)

/-- The data of the calls that returned `0`. -/
def appended (calls : List (List UInt8)) (results : List ℤ) : List UInt8 :=
  ((calls.zip results).filter fun call => call.2 = 0).flatMap Prod.fst

section Run

variable {realloc : List UInt8 → ℕ → Option (List UInt8)} {response : ResponseBuffer}
  {bytes : List UInt8}

/-- **A run of calls**: the array has the data of those that succeeded. -/
theorem ResponseBuffer.Holds.appendAll (hrealloc : MayReallocate realloc)
    (calls : List (List UInt8)) (h : response.Holds bytes) :
    ∃ results next, Netstack.appendAll realloc response calls = .ok (results, next) ∧
      next.Holds (bytes ++ appended calls results) := by
  induction calls generalizing response bytes with
  | nil => exact ⟨[], response, rfl, by rw [appended, List.zip_nil_left]; simpa using h⟩
  | cons data calls ih =>
      obtain ⟨result, next, hrun, -, -, hnext⟩ := h.append hrealloc (le_refl data.length)
      rw [List.take_length] at hnext
      obtain ⟨results, last, hrest, hlast⟩ := ih hnext
      refine ⟨result :: results, last, ?_, ?_⟩
      · rw [Netstack.appendAll, hrun, ok_bind]
        dsimp only
        rw [hrest]
        rfl
      · by_cases hresult : result = 0
        · rw [if_pos hresult, List.append_assoc] at hlast
          simpa [appended, hresult] using hlast
        · rw [if_neg hresult] at hlast
          simpa [appended, hresult] using hlast

/-- One round of draining: what is read from the ready buffer is appended, and the loop goes on
with the rest when that succeeded. -/
theorem ResponseBuffer.Holds.drainRound (hrealloc : MayReallocate realloc) (fuel : ℕ)
    {buffer : List UInt8} {connection : TcpConnection} (h : response.Holds bytes)
    (hready : tcpConnectionReadable connection > 0) (hbuffer : buffer.length = tcpAppReadBuffer) :
    let piece := connection.receiveReady.take tcpAppReadBuffer
    let after := { connection with
      receiveReady := connection.receiveReady.drop tcpAppReadBuffer }
    ∃ (result : ℤ) (next : ResponseBuffer) (filled : List UInt8),
      filled.length = tcpAppReadBuffer ∧
      next.Holds (if result = 0 then bytes ++ piece else bytes) ∧
      Netstack.drainLoop realloc (fuel + 1) buffer connection response =
        if result ≠ 0 then .ok (-1, after, next)
        else Netstack.drainLoop realloc fuel filled after next := by
  intro piece after
  have hpiece : piece.length = min tcpAppReadBuffer connection.receiveReady.length :=
    List.length_take
  have hne : piece.length ≠ 0 := by
    unfold tcpConnectionReadable at hready
    have hsize : 0 < tcpAppReadBuffer := by decide
    omega
  have hwrite := @writeRange_append _ [] buffer piece 0 rfl (by omega)
  rw [List.nil_append, List.nil_append] at hwrite
  have hread : piece.length ≤ (piece ++ buffer.drop piece.length).length := by
    rw [List.length_append]
    omega
  obtain ⟨result, next, hrun, -, -, hnext⟩ := h.append hrealloc hread
  rw [List.take_left] at hnext
  refine ⟨result, next, piece ++ buffer.drop piece.length, ?_, hnext, ?_⟩
  · rw [List.length_append, List.length_drop]
    omega
  · rw [Netstack.drainLoop, if_pos hready, read_eq]
    dsimp only
    rw [hwrite, ok_bind, if_neg hne, hrun, ok_bind]
    rfl

/-- **Draining** moves all ready bytes, round by round. -/
theorem ResponseBuffer.Holds.drainLoop (hrealloc : MayReallocate realloc) {fuel : ℕ}
    {buffer : List UInt8} {connection : TcpConnection}
    (hfuel : connection.receiveReady.length < fuel) (hbuffer : buffer.length = tcpAppReadBuffer)
    (h : response.Holds bytes) :
    ∃ result left next,
      Netstack.drainLoop realloc fuel buffer connection response = .ok (result, left, next) ∧
        (result = 0 → left = { connection with receiveReady := [] } ∧
          next.Holds (bytes ++ connection.receiveReady)) := by
  induction fuel generalizing buffer connection response bytes with
  | zero => exact absurd hfuel (Nat.not_lt_zero _)
  | succ fuel ih =>
      by_cases hready : tcpConnectionReadable connection > 0
      · obtain ⟨result, next, filled, hfilled, hnext, hround⟩ :=
          h.drainRound hrealloc fuel hready hbuffer
        rw [hround]
        by_cases hresult : result = 0
        · have hrest : (connection.receiveReady.drop tcpAppReadBuffer).length < fuel := by
            unfold tcpConnectionReadable tcpAppReadBuffer at *
            rw [List.length_drop]
            omega
          rw [if_pos hresult] at hnext
          rw [if_neg (not_not.2 hresult)]
          obtain ⟨result', left, last, hloop, hend⟩ := @ih next _ filled
            { connection with receiveReady := connection.receiveReady.drop tcpAppReadBuffer }
            hrest hfilled hnext
          refine ⟨result', left, last, hloop, fun hzero => ?_⟩
          obtain ⟨hleft, hlast⟩ := hend hzero
          rw [List.append_assoc, List.take_append_drop] at hlast
          exact ⟨hleft, hlast⟩
        · rw [if_pos hresult]
          exact ⟨-1, _, next, rfl, fun h => absurd h (by decide)⟩
      · rw [Netstack.drainLoop, if_neg hready]
        have hnil : connection.receiveReady = [] :=
          List.length_eq_zero_iff.1 (Nat.eq_zero_of_not_pos hready)
        refine ⟨0, connection, response, rfl, fun _ => ⟨?_, ?_⟩⟩
        · rw [← hnil]
        · rw [hnil, List.append_nil]
          exact h

/-- **Accumulation loses nothing and stays bounded.**  After any calls the array holds the data of
those that succeeded; the next call succeeds when there is room for its data, and changes nothing
otherwise; and draining moves all ready bytes into the array when it returns `0`. -/
theorem response_accumulates (hrealloc : Reallocates realloc) {memory : List UInt8}
    (hmemory : memory.length = httpResponseInitialCapacity) (calls : List (List UInt8)) :
    ∃ results response,
      Netstack.appendAll realloc (.empty memory) calls = .ok (results, response) ∧
      response.Holds (appended calls results) ∧
      (∀ data : List UInt8, (∀ op ∈ appendResponseOps response data.length, op.IsExact) ∧
        ∃ result next, appendResponse realloc response data data.length = .ok (result, next) ∧
          (data ≠ [] → (result = 0 ↔ response.length + data.length + 1 ≤ httpResponseMaxSize)) ∧
          (result ≠ 0 → next = response) ∧
          next.Holds (if result = 0 then appended calls results ++ data else appended calls results)) ∧
      ∀ (buffer : List UInt8) (connection : TcpConnection), buffer.length = tcpAppReadBuffer →
        ∃ result left next,
          drainTcpApplicationData realloc buffer connection response = .ok (result, left, next) ∧
          (result = 0 → left = { connection with receiveReady := [] } ∧
            next.Holds (appended calls results ++ connection.receiveReady)) := by
  obtain ⟨results, response, hrun, hholds⟩ :=
    (ResponseBuffer.holds_empty hmemory).appendAll hrealloc.may calls
  rw [List.nil_append] at hholds
  refine ⟨results, response, hrun, hholds, fun data => ⟨appendResponseOps_exact _ _, ?_⟩,
    fun buffer connection hbuffer => hholds.drainLoop hrealloc.may (Nat.lt_succ_self _) hbuffer⟩
  obtain ⟨result, next, hcall, hroom, hsame, hnext⟩ :=
    hholds.append hrealloc.may (le_refl data.length)
  rw [List.take_length] at hnext
  exact ⟨result, next, hcall, fun hne => hroom hrealloc (mt List.length_eq_zero_iff.1 hne), hsame,
    hnext⟩

end Run

/-- A `realloc` that succeeds. -/
def zeroRealloc (memory : List UInt8) (n : ℕ) : Option (List UInt8) :=
  some (memory.take n ++ List.replicate (n - memory.length) 0)

/-- Memory that is filled up with zeros is what `realloc` may give. -/
theorem reallocates_zeroRealloc : Reallocates zeroRealloc := by
  intro memory n _ _
  refine ⟨_, rfl, ?_, ?_⟩
  · rw [List.length_append, List.length_take, List.length_replicate]
    omega
  · rcases le_total memory.length n with hle | hle
    · rw [List.take_of_length_le hle, List.take_left]
    · rw [Nat.sub_eq_zero_of_le hle, List.replicate_zero, List.append_nil, List.take_take,
        Nat.min_eq_right hle]

/-- Two calls, one of them without data. -/
theorem response_accumulates_twice :
    ∃ results response,
      appendAll zeroRealloc (.empty (List.replicate 8192 0)) [[72, 84], []] =
        .ok (results, response) ∧
      response.Holds (appended [[72, 84], []] results) ∧
      (∀ data : List UInt8, (∀ op ∈ appendResponseOps response data.length, op.IsExact) ∧
        ∃ result next, appendResponse zeroRealloc response data data.length = .ok (result, next) ∧
          (data ≠ [] → (result = 0 ↔ response.length + data.length + 1 ≤ httpResponseMaxSize)) ∧
          (result ≠ 0 → next = response) ∧
          next.Holds (if result = 0 then appended [[72, 84], []] results ++ data
            else appended [[72, 84], []] results)) ∧
      ∀ (buffer : List UInt8) (connection : TcpConnection), buffer.length = tcpAppReadBuffer →
        ∃ result left next,
          drainTcpApplicationData zeroRealloc buffer connection response =
            .ok (result, left, next) ∧
          (result = 0 → left = { connection with receiveReady := [] } ∧
            next.Holds (appended [[72, 84], []] results ++ connection.receiveReady)) :=
  response_accumulates reallocates_zeroRealloc List.length_replicate _

end Netstack
