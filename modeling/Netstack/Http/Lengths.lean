/-
# The lengths that `append_response` computes

`appendResponseOps` lists the operations on lengths of `append_response` beside the function.  Here
is the function once more, with a record of each operation where it is made
(`recordedAppendResponse`).  Recording changes nothing, and what is recorded is in the list, in its
order (`recordedAppendResponse_eq`): that the operations of the list are exact is a fact about the
function (`appendResponse_exact`).
-/

import Netstack.Http.Accumulation

namespace Netstack

/-! ### Recording -/

/-- A computation with a record of its operations on lengths. -/
abbrev Recorded (β : Type) := StateT (List SizeOp) Checked β

/-- A sum, which is recorded. -/
def recordAdd (a b : ℕ) : Recorded ℕ := fun made => .ok (sizeAdd a b, made ++ [.add a b])

/-- A difference, which is recorded. -/
def recordSub (a b : ℕ) : Recorded ℕ := fun made => .ok (sizeSub a b, made ++ [.sub a b])

/-- A product, which is recorded. -/
def recordMul (a b : ℕ) : Recorded ℕ := fun made => .ok (sizeMul a b, made ++ [.mul a b])

/-- `growLoop`, with its doublings recorded. -/
def recordedGrowLoop (required : ℕ) : ℕ → ℕ → Recorded (Option ℕ)
  | 0, _ => throw .diverge
  | fuel + 1, newCapacity =>
    if newCapacity < required then do
      let next ←
        if newCapacity ≥ httpResponseMaxSize / 2 then pure httpResponseMaxSize
        else recordMul newCapacity 2
      if next < required ∧ next = httpResponseMaxSize then return none
      else recordedGrowLoop required fuel next
    else return some newCapacity

/-- `growBuffer`, with what its loop computes recorded. -/
def recordedGrowBuffer (realloc : List UInt8 → ℕ → Option (List UInt8)) (response : ResponseBuffer)
    (required : ℕ) : Recorded (Option ResponseBuffer) :=
  if required > response.capacity then do
    let newCapacity :=
      if response.capacity = 0 then httpResponseInitialCapacity else response.capacity
    match ← recordedGrowLoop required 64 newCapacity with
    | none => return none
    | some newCapacity =>
      match realloc response.buffer newCapacity with
      | none => return none
      | some buffer => return some { response with buffer, capacity := newCapacity }
  else return some response

/-- `append_response`, with its operations on lengths recorded. -/
def recordedAppendResponse (realloc : List UInt8 → ℕ → Option (List UInt8))
    (response : ResponseBuffer) (data : List UInt8) (dataLen : ℕ) : Recorded (ℤ × ResponseBuffer) :=
  if dataLen = 0 then return (0, response)
  else if response.length ≥ httpResponseMaxSize then return (-1, response)
  else do
    let room ← recordSub httpResponseMaxSize response.length
    let room ← recordSub room 1
    if dataLen > room then return (-1, response)
    else do
      let sum ← recordAdd response.length dataLen
      let required ← recordAdd sum 1
      match ← recordedGrowBuffer realloc response required with
      | none => return (-1, response)
      | some grown =>
        let bytes ← StateT.lift (readRange data 0 dataLen)
        let buffer ← StateT.lift (writeRange grown.buffer grown.length bytes)
        let length ← recordAdd grown.length dataLen
        let buffer ← StateT.lift (writeAt buffer length 0)
        return (0, { grown with buffer, length })

/-! ### What is recorded -/

theorem Recorded.bind_apply {β γ : Type} (first : Recorded β) (next : β → Recorded γ)
    (made : List SizeOp) :
    (first >>= next) made = first made >>= fun result => next result.1 result.2 := rfl

/-- A step that computes nothing with lengths records nothing. -/
theorem Recorded.lift_bind {β γ : Type} {first : Checked β} {b : β} (h : first = .ok b)
    (next : β → Recorded γ) (made : List SizeOp) :
    ((StateT.lift first : Recorded β) >>= next) made = next b made := by
  subst h
  rfl

theorem recordAdd_bind {β : Type} (a b : ℕ) (next : ℕ → Recorded β) (made : List SizeOp) :
    (recordAdd a b >>= next) made = next (sizeAdd a b) (made ++ [.add a b]) := rfl

theorem recordSub_bind {β : Type} (a b : ℕ) (next : ℕ → Recorded β) (made : List SizeOp) :
    (recordSub a b >>= next) made = next (sizeSub a b) (made ++ [.sub a b]) := rfl

theorem recordMul_bind {β : Type} (a b : ℕ) (next : ℕ → Recorded β) (made : List SizeOp) :
    (recordMul a b >>= next) made = next (sizeMul a b) (made ++ [.mul a b]) := rfl

/-- Growing leaves `*length` alone. -/
theorem growBuffer_length {realloc : List UInt8 → ℕ → Option (List UInt8)}
    {response grown : ResponseBuffer} {required : ℕ}
    (h : growBuffer realloc response required = .ok (some grown)) :
    grown.length = response.length := by
  unfold growBuffer at h
  by_cases hsmall : required > response.capacity
  · rw [if_pos hsmall] at h
    obtain ⟨newCapacity, -, h⟩ := bind_eq_ok h
    cases newCapacity with
    | none => cases h
    | some newCapacity =>
        dsimp only at h
        cases hleft : realloc response.buffer newCapacity with
        | none =>
            rw [hleft] at h
            cases h
        | some buffer =>
            rw [hleft] at h
            cases h
            rfl
  · rw [if_neg hsmall] at h
    cases h
    rfl

/-- The record of the loop. -/
theorem recordedGrowLoop_eq (required fuel newCapacity : ℕ) (made : List SizeOp) :
    recordedGrowLoop required fuel newCapacity made =
      (growLoop required fuel newCapacity).map
        (·, made ++ growLoopOps required fuel newCapacity) := by
  induction fuel generalizing newCapacity made with
  | zero => rfl
  | succ fuel ih =>
      rw [recordedGrowLoop, growLoop, growLoopOps]
      by_cases hsmall : newCapacity < required
      swap
      · rw [if_neg hsmall, if_neg hsmall, if_neg hsmall, List.append_nil]
        rfl
      rw [if_pos hsmall, if_pos hsmall, if_pos hsmall]
      by_cases hhalf : newCapacity ≥ httpResponseMaxSize / 2
      · have hnext : nextCapacity newCapacity = httpResponseMaxSize := if_pos hhalf
        rw [if_pos hhalf, if_pos hhalf, hnext, pure_bind, List.nil_append]
        dsimp only
        split_ifs
        · rw [List.append_nil]
          rfl
        · exact ih ..
      · have hnext : nextCapacity newCapacity = sizeMul newCapacity 2 := if_neg hhalf
        rw [if_neg hhalf, if_neg hhalf, recordMul_bind, hnext]
        dsimp only
        split_ifs
        · rfl
        · rw [ih, List.append_assoc]

/-- The record of growing: what the loop computes, if there is one. -/
theorem recordedGrowBuffer_eq (realloc : List UInt8 → ℕ → Option (List UInt8))
    (response : ResponseBuffer) (required : ℕ) (made : List SizeOp) :
    recordedGrowBuffer realloc response required made =
      (growBuffer realloc response required).map (·, made ++
        if required > response.capacity then
          growLoopOps required 64
            (if response.capacity = 0 then httpResponseInitialCapacity else response.capacity)
        else []) := by
  unfold recordedGrowBuffer growBuffer
  by_cases hsmall : required > response.capacity
  swap
  · rw [if_neg hsmall, if_neg hsmall, if_neg hsmall, List.append_nil]
    rfl
  rw [if_pos hsmall, if_pos hsmall, if_pos hsmall]
  dsimp only
  generalize (if response.capacity = 0 then httpResponseInitialCapacity
    else response.capacity) = newCapacity
  rw [Recorded.bind_apply, recordedGrowLoop_eq]
  cases growLoop required 64 newCapacity with
  | error fault => rfl
  | ok grown =>
      cases grown with
      | none => rfl
      | some grown =>
          show (match realloc response.buffer grown with | none => _ | some buffer => _ :
            Recorded (Option ResponseBuffer)) _ = _
          cases hleft : realloc response.buffer grown <;> simp only [hleft, ok_bind] <;> rfl

/-- What comes behind growing begins with that record. -/
theorem recordedGrowBuffer_bind {β : Type} {realloc : List UInt8 → ℕ → Option (List UInt8)}
    {response : ResponseBuffer} {required : ℕ} {left : Option ResponseBuffer}
    (h : growBuffer realloc response required = .ok left)
    (next : Option ResponseBuffer → Recorded β) (made : List SizeOp) :
    (recordedGrowBuffer realloc response required >>= next) made = next left (made ++
      if required > response.capacity then
        growLoopOps required 64
          (if response.capacity = 0 then httpResponseInitialCapacity else response.capacity)
      else []) := by
  rw [Recorded.bind_apply, recordedGrowBuffer_eq, h]
  rfl

/-- **Recording changes nothing**, and what is recorded are operations of the list, in its
order. -/
theorem recordedAppendResponse_eq {realloc : List UInt8 → ℕ → Option (List UInt8)}
    {response : ResponseBuffer} {data : List UInt8} {dataLen : ℕ} {returned : ℤ × ResponseBuffer}
    (h : appendResponse realloc response data dataLen = .ok returned) :
    ∃ made, made <+: appendResponseOps response dataLen ∧
      recordedAppendResponse realloc response data dataLen [] = .ok (returned, made) := by
  unfold recordedAppendResponse appendResponseOps
  unfold appendResponse at h
  by_cases hnone : dataLen = 0
  · simp only [if_pos hnone] at h ⊢
    obtain rfl := Except.ok.inj h
    exact ⟨[], List.nil_prefix, rfl⟩
  by_cases hfull : response.length ≥ httpResponseMaxSize
  · simp only [if_neg hnone, if_pos hfull] at h ⊢
    obtain rfl := Except.ok.inj h
    exact ⟨[], List.nil_prefix, rfl⟩
  rw [if_neg hnone, if_neg hfull] at h
  rw [if_neg hnone, if_neg hfull, if_neg hnone, if_neg hfull, recordSub_bind, recordSub_bind]
  by_cases hlong : dataLen > sizeSub (sizeSub httpResponseMaxSize response.length) 1
  · rw [if_pos hlong] at h
    rw [if_pos hlong, if_pos hlong]
    obtain rfl := Except.ok.inj h
    exact ⟨_, List.prefix_append .., rfl⟩
  rw [if_neg hlong] at h
  rw [if_neg hlong, if_neg hlong, recordAdd_bind, recordAdd_bind]
  obtain ⟨left, hgrown, h⟩ := bind_eq_ok h
  rw [recordedGrowBuffer_bind hgrown]
  cases left with
  | none =>
      obtain rfl := Except.ok.inj h
      refine ⟨_, ?_, rfl⟩
      simp only [List.cons_append, List.nil_append, List.cons_prefix_cons, true_and]
      exact List.prefix_append ..
  | some grown =>
      obtain ⟨bytes, hread, h⟩ := bind_eq_ok h
      obtain ⟨buffer, hwrite, h⟩ := bind_eq_ok h
      obtain ⟨last, hlast, h⟩ := bind_eq_ok h
      obtain rfl := Except.ok.inj h
      dsimp only
      rw [Recorded.lift_bind hread, Recorded.lift_bind hwrite, recordAdd_bind,
        Recorded.lift_bind hlast, growBuffer_length hgrown]
      refine ⟨_, ?_, rfl⟩
      simp only [List.cons_append, List.nil_append]
      exact List.prefix_rfl

/-- **No operation that `append_response` makes wraps.** -/
theorem appendResponse_exact {realloc : List UInt8 → ℕ → Option (List UInt8)}
    {response : ResponseBuffer} {data : List UInt8} {dataLen : ℕ} {returned : ℤ × ResponseBuffer}
    (h : appendResponse realloc response data dataLen = .ok returned) :
    ∃ made, recordedAppendResponse realloc response data dataLen [] = .ok (returned, made) ∧
      ∀ op ∈ made, op.IsExact := by
  obtain ⟨made, hmade, hrun⟩ := recordedAppendResponse_eq h
  exact ⟨made, hrun, fun op hop => appendResponseOps_exact _ _ op (hmade.subset hop)⟩

end Netstack
