/-
# Strings in memory

A string begins at an offset of an array and ends before the first zero behind it.  The
functions of `string.h` read as far as the zero, and outside of the array when there is
none.
-/

import Mathlib.Data.List.TakeWhile
import Netstack.Library.Memory

namespace Netstack

/-- The string at `data + i`. -/
def cString (data : List UInt8) (i : ℕ) : Checked (List UInt8) :=
  let string := (data.drop i).takeWhile (· ≠ 0)
  if i + string.length < data.length then .ok string else .error .read

/-- `strlen(data + i)` -/
def strlen (data : List UInt8) (i : ℕ) : Checked ℕ := do
  let string ← cString data i
  return string.length

/-- The string ends before the first zero. -/
theorem cString_append {before string : List UInt8} (hstring : 0 ∉ string) (after : List UInt8)
    {i : ℕ} (hi : before.length = i) :
    cString (before ++ string ++ 0 :: after) i = .ok string := by
  subst hi
  have htake : ((before ++ string ++ 0 :: after).drop before.length).takeWhile (· ≠ 0) =
      string := by
    have hall : ∀ b ∈ string, decide (b ≠ 0) = true := fun b hb =>
      decide_eq_true fun hzero => hstring (hzero ▸ hb)
    rw [List.append_assoc, List.drop_left, List.takeWhile_append_of_pos hall]
    simp
  have hlen : before.length + string.length < (before ++ string ++ 0 :: after).length := by
    simp
  unfold cString
  rw [htake]
  exact if_pos hlen

/-- The length of a string that ends at the first zero behind it. -/
theorem strlen_append {before string : List UInt8} (hstring : 0 ∉ string) (after : List UInt8)
    {i : ℕ} (hi : before.length = i) :
    strlen (before ++ string ++ 0 :: after) i = .ok string.length := by
  rw [strlen, cString_append hstring after hi]
  rfl

/-- **What a string is**: it has no zero, and a zero stands behind it. -/
theorem cString_eq_ok_iff {data string : List UInt8} {i : ℕ} :
    cString data i = .ok string ↔ 0 ∉ string ∧ ∃ after, data.drop i = string ++ 0 :: after := by
  constructor
  · intro h
    unfold cString at h
    dsimp only at h
    split_ifs at h with hend
    obtain rfl := Except.ok.inj h
    have hsplit := @List.takeWhile_append_dropWhile _ (· ≠ (0 : UInt8)) (data.drop i)
    refine ⟨fun hmem => by simpa using List.mem_takeWhile_imp hmem, ?_⟩
    cases hrest : (data.drop i).dropWhile (· ≠ 0) with
    | nil =>
        have hall := congrArg List.length hsplit
        rw [hrest, List.append_nil, List.length_drop] at hall
        omega
    | cons c after =>
        have hc : c = 0 := by
          have hhead := List.head?_dropWhile_not (fun c : UInt8 => decide (c ≠ 0)) (data.drop i)
          rw [hrest] at hhead
          simpa using hhead
        subst hc
        exact ⟨after, by rw [← hrest, hsplit]⟩
  · rintro ⟨hstring, after, hdrop⟩
    have hlen := congrArg List.length hdrop
    rw [List.length_drop, List.length_append, List.length_cons] at hlen
    have hdata : data = data.take i ++ string ++ 0 :: after := by
      rw [List.append_assoc, ← hdrop, List.take_append_drop]
    rw [hdata]
    exact cString_append hstring after (by rw [List.length_take]; omega)

/-- Bytes with a zero behind them begin with a string. -/
theorem exists_cString (bytes after : List UInt8) :
    ∃ string after', 0 ∉ string ∧ bytes ++ 0 :: after = string ++ 0 :: after' := by
  induction bytes with
  | nil => exact ⟨[], after, by simp, rfl⟩
  | cons c bytes ih =>
      by_cases hc : c = 0
      · exact ⟨[], bytes ++ 0 :: after, by simp, by rw [hc]; rfl⟩
      · obtain ⟨string, after', hstring, heq⟩ := ih
        exact ⟨c :: string, after', by simp [Ne.symm hc, hstring], by rw [List.cons_append, heq]; rfl⟩

theorem cString_of_mem {data : List UInt8} (h : 0 ∈ data) : ∃ string, cString data 0 = .ok string := by
  obtain ⟨bytes, after, rfl⟩ := List.append_of_mem h
  obtain ⟨string, after', hstring, heq⟩ := exists_cString bytes after
  exact ⟨string, cString_eq_ok_iff.2 ⟨hstring, after', heq⟩⟩

/-- The rest of a string is a string. -/
theorem cString_drop {data string : List UInt8} {i j : ℕ} (h : cString data i = .ok string)
    (hj : j ≤ string.length) : cString data (i + j) = .ok (string.drop j) := by
  obtain ⟨hstring, after, hdrop⟩ := cString_eq_ok_iff.1 h
  refine cString_eq_ok_iff.2 ⟨fun hmem => hstring (List.mem_of_mem_drop hmem), after, ?_⟩
  rw [← List.drop_drop, hdrop, List.drop_append_of_le_length hj]

/-! ### Searches -/

/-- The offset of the first occurrence of `needle`. -/
def findString (needle : List UInt8) : List UInt8 → Option ℕ
  | [] => if needle = [] then some 0 else none
  | c :: string =>
    if needle <+: c :: string then some 0 else (findString needle string).map (· + 1)

/-- `strstr(data + i, needle)` -/
def strstr (data : List UInt8) (i : ℕ) (needle : List UInt8) : Checked (Option ℕ) := do
  let string ← cString data i
  return (findString needle string).map (i + ·)

/-- `strchr(data + i, c)` for a character that is not the zero. -/
def strchr (data : List UInt8) (i : ℕ) (c : UInt8) : Checked (Option ℕ) := do
  let string ← cString data i
  return (findString [c] string).map (i + ·)

/-- `memchr(data + i, c, n)` -/
def memchr (data : List UInt8) (i : ℕ) (c : UInt8) : ℕ → Checked (Option ℕ)
  | 0 => return none
  | n + 1 => do
    let d ← readAt data i
    if d = c then return some i else memchr data (i + 1) c n

/-- `strncmp(data + i, literal, n) == 0` for the `n` characters of a literal. -/
def strncmpEq (data : List UInt8) (i : ℕ) : List UInt8 → Checked Bool
  | [] => return true
  | c :: literal => do
    let d ← readAt data i
    if d = c then strncmpEq data (i + 1) literal else return false

/-- A comparison that succeeds has read as many characters as the literal has, and a comparison
that does not stops where the texts differ, inside of the data. -/
theorem strncmpEq_eq_true_iff {data literal : List UInt8} {i : ℕ} :
    strncmpEq data i literal = .ok true ↔ literal <+: data.drop i := by
  induction literal generalizing i with
  | nil => exact iff_of_true rfl List.nil_prefix
  | cons c literal ih =>
      rw [strncmpEq]
      cases hdrop : data.drop i with
      | nil =>
          have hread : readAt data i = .error .read := by
            rw [readAt, ← List.head?_drop, hdrop, List.head?_nil]
          rw [hread]
          exact iff_of_false (by rintro ⟨⟩) (by simp)
      | cons d rest =>
          have hnext : data.drop (i + 1) = rest := by
            rw [← List.drop_drop, hdrop]
            rfl
          rw [readAt_of_drop hdrop, ok_bind, List.cons_prefix_cons, ← hnext]
          by_cases hd : d = c
          · rw [if_pos hd, ih, and_iff_right hd.symm]
          · rw [if_neg hd]
            exact iff_of_false (by rintro ⟨⟩) fun h => hd h.1.symm

/-- The comparison decides, when there are enough characters. -/
theorem strncmpEq_of_le {data literal : List UInt8} {i : ℕ} (h : i + literal.length ≤ data.length) :
    strncmpEq data i literal = .ok (decide (literal <+: data.drop i)) := by
  induction literal generalizing i with
  | nil => simp [strncmpEq, pure, Except.pure]
  | cons c literal ih =>
      rw [List.length_cons] at h
      have hlt : i < data.length := by omega
      have hsplit : c :: literal <+: data.drop i ↔ c = data[i] ∧ literal <+: data.drop (i + 1) := by
        rw [List.drop_eq_getElem_cons hlt, List.cons_prefix_cons]
      rw [strncmpEq, readAt_of_lt hlt, ok_bind]
      by_cases hd : data[i] = c
      · rw [if_pos hd, ih (by omega), decide_eq_decide.2 (hsplit.trans (and_iff_right hd.symm))]
      · rw [if_neg hd, decide_eq_false fun hpre => hd (hsplit.1 hpre).1.symm]
        rfl

/-- **What `findString` finds** is the first place where the needle stands. -/
theorem findString_eq_some_iff {needle w : List UInt8} {k : ℕ} :
    findString needle w = some k ↔
      k ≤ w.length ∧ needle <+: w.drop k ∧ ∀ j < k, ¬needle <+: w.drop j := by
  induction w generalizing k with
  | nil =>
      rw [findString]
      by_cases hnil : needle = []
      · rw [if_pos hnil, Option.some.injEq]
        constructor
        · rintro rfl
          exact ⟨le_rfl, hnil ▸ List.nil_prefix, fun j hj => absurd hj (Nat.not_lt_zero j)⟩
        · exact fun h => (Nat.le_zero.1 h.1).symm
      · rw [if_neg hnil]
        refine iff_of_false (by simp) fun h => hnil (List.prefix_nil.1 ?_)
        simpa using h.2.1
  | cons c w ih =>
      rw [findString]
      by_cases hpre : needle <+: c :: w
      · rw [if_pos hpre, Option.some.injEq]
        constructor
        · rintro rfl
          exact ⟨Nat.zero_le _, hpre, fun j hj => absurd hj (Nat.not_lt_zero j)⟩
        · rintro ⟨-, -, hfirst⟩
          exact (Nat.eq_zero_or_pos k).elim Eq.symm fun hk => absurd hpre (hfirst 0 hk)
      · rw [if_neg hpre, Option.map_eq_some_iff]
        constructor
        · rintro ⟨k, hk, rfl⟩
          obtain ⟨hle, hthere, hfirst⟩ := ih.1 hk
          refine ⟨Nat.succ_le_succ hle, hthere, fun j hj => ?_⟩
          cases j with
          | zero => exact hpre
          | succ j => exact hfirst j (Nat.lt_of_succ_lt_succ hj)
        · rintro ⟨hle, hthere, hfirst⟩
          cases k with
          | zero => exact absurd hthere hpre
          | succ k =>
              exact ⟨k, ih.2 ⟨Nat.le_of_succ_le_succ hle, hthere,
                fun j hj => hfirst (j + 1) (Nat.succ_lt_succ hj)⟩, rfl⟩

/-- The first place where a character stands. -/
theorem findString_append {before : List UInt8} {c : UInt8} (hbefore : c ∉ before)
    (rest : List UInt8) : findString [c] (before ++ c :: rest) = some before.length := by
  refine findString_eq_some_iff.2 ⟨by simp, by simp, fun j hj hpre => hbefore ?_⟩
  rw [List.drop_append_of_le_length hj.le, List.drop_eq_getElem_cons hj, List.cons_append,
    List.cons_prefix_cons] at hpre
  exact hpre.1 ▸ List.getElem_mem hj

/-- Where the needle stands, the search has found it. -/
theorem exists_findString {needle w : List UInt8} {k : ℕ} (hk : k ≤ w.length)
    (h : needle <+: w.drop k) : ∃ j ≤ k, findString needle w = some j := by
  induction k using Nat.strong_induction_on with
  | _ k ih =>
      by_cases hfirst : ∀ j < k, ¬needle <+: w.drop j
      · exact ⟨k, le_rfl, findString_eq_some_iff.2 ⟨hk, h, hfirst⟩⟩
      · simp only [not_forall, not_not] at hfirst
        obtain ⟨j, hj, hthere⟩ := hfirst
        obtain ⟨i, hi, hfound⟩ := ih j hj (by omega) hthere
        exact ⟨i, by omega, hfound⟩

/-- An element that a front part does not have bounds it. -/
theorem prefix_of_notMem {α : Type*} {front before rest : List α} {c : α} (hc : c ∉ front)
    (h : front <+: before ++ c :: rest) : front <+: before := by
  induction before generalizing front with
  | nil =>
      cases front with
      | nil => exact List.nil_prefix
      | cons d front => exact absurd (List.cons_prefix_cons.1 h).1 fun heq => hc (by simp [heq])
  | cons b before ih =>
      cases front with
      | nil => exact List.nil_prefix
      | cons d front =>
          obtain ⟨rfl, hrest⟩ := List.cons_prefix_cons.1 h
          exact List.cons_prefix_cons.2 ⟨rfl, ih (fun hmem => hc (List.mem_cons_of_mem _ hmem)) hrest⟩

/-- A search in a part of a string. -/
theorem strstr_eq {data string : List UInt8} (h : cString data 0 = .ok string) {i : ℕ}
    (hi : i ≤ string.length) (needle : List UInt8) :
    strstr data i needle = .ok ((findString needle (string.drop i)).map (i + ·)) := by
  have hdrop := cString_drop h hi
  rw [Nat.zero_add] at hdrop
  rw [strstr, hdrop]
  rfl

/-- The first character of its kind is found, and nothing behind it is read. -/
theorem memchr_eq {data before rest : List UInt8} {i n : ℕ} {c : UInt8} (hbefore : c ∉ before)
    (h : data.drop i = before ++ c :: rest) (hn : before.length < n) :
    memchr data i c n = .ok (some (i + before.length)) := by
  induction before generalizing i n with
  | nil =>
      obtain ⟨n, rfl⟩ : ∃ m, n = m + 1 := Nat.exists_eq_add_one.2 hn
      rw [memchr, readAt_of_drop h, ok_bind, if_pos rfl]
      rfl
  | cons d before ih =>
      obtain ⟨n, rfl⟩ : ∃ m, n = m + 1 := Nat.exists_eq_add_one.2 (by omega)
      have hne : d ≠ c := fun heq => hbefore (heq ▸ List.mem_cons_self ..)
      have hnext : data.drop (i + 1) = before ++ c :: rest := by
        rw [← List.drop_drop, h]
        rfl
      rw [List.length_cons] at hn ⊢
      rw [memchr, readAt_of_drop h, ok_bind, if_neg hne,
        ih (fun hmem => hbefore (List.mem_cons_of_mem _ hmem)) hnext (by omega)]
      congr 2
      omega

/-! ### Formatted output -/

/-- `INT_MAX` -/
def intMax : ℕ := 2 ^ 31 - 1

/-- `snprintf(buffer, n, ...)` with arguments that make this text: it writes as much of the text as
there is room for, with a zero behind it, and returns the length of the whole text when this is an
`int`. -/
def snprintf (buffer : List UInt8) (n : ℕ) (text : List UInt8) : Checked (ℤ × List UInt8) := do
  let buffer ← if n = 0 then pure buffer else writeRange buffer 0 (text.take (n - 1) ++ [0])
  return (if text.length > intMax then -1 else text.length, buffer)

/-- Text that fits stands at the front of the buffer, with the zero behind it. -/
theorem snprintf_eq {buffer : List UInt8} {n : ℕ} (hroom : n ≤ buffer.length)
    (text : List UInt8) : ∃ left, snprintf buffer n text =
      .ok (if text.length > intMax then -1 else text.length, left) ∧
        (text.length < n → left.take (text.length + 1) = text ++ [0]) := by
  unfold snprintf
  by_cases hn : n = 0
  · rw [if_pos hn]
    exact ⟨buffer, rfl, fun hlt => absurd hlt (by omega)⟩
  · have hlength : (text.take (n - 1) ++ [0]).length ≤ buffer.length := by
      rw [List.length_append, List.length_take, List.length_singleton]
      omega
    have hwrite := @writeRange_append _ [] buffer _ 0 rfl hlength
    rw [List.nil_append] at hwrite
    rw [if_neg hn, hwrite, ok_bind]
    refine ⟨_, rfl, fun hlt => ?_⟩
    rw [List.take_of_length_le (by omega : text.length ≤ n - 1), List.nil_append]
    exact List.take_left' (by simp)

/-! ### Characters and numbers -/

/-- `tolower`, in the C locale. -/
def tolower (c : UInt8) : UInt8 := if 65 ≤ c ∧ c ≤ 90 then c + 32 else c

/-- `isspace`, in the C locale. -/
def isSpace (c : UInt8) : Bool := c = 32 ∨ 9 ≤ c ∧ c ≤ 13

/-- `isdigit` -/
def isDigit (c : UInt8) : Bool := 48 ≤ c ∧ c ≤ 57

/-- The number that decimal digits spell. -/
def decimal (digits : List UInt8) : ℕ :=
  digits.foldl (fun value c => value * 10 + (c.toNat - 48)) 0

/-- The nearest value of type `long`. -/
def toLong (n : ℤ) : ℤ := max (-2 ^ 63) (min n (2 ^ 63 - 1))

/-- `strtol(data + i, &endptr, 10)`: its value, and `endptr`, which is `i` when there is no
number. -/
def strtol (data : List UInt8) (i : ℕ) : Checked (ℤ × ℕ) := do
  let string ← cString data i
  let blanks := (string.takeWhile isSpace).length
  let sign := (string.drop blanks).head?
  let signLen := if sign = some 43 ∨ sign = some 45 then 1 else 0
  let digits := (string.drop (blanks + signLen)).takeWhile isDigit
  if digits = [] then return (0, i)
  else return (toLong (if sign = some 45 then -decimal digits else decimal digits),
    i + blanks + signLen + digits.length)

example : strtol [32, 45, 52, 50, 120, 0] 0 = .ok (-42, 4) := by decide

/-- A run of elements, and what follows it. -/
theorem takeWhile_run {α : Type*} {p : α → Bool} {run rest : List α} (hrun : ∀ c ∈ run, p c)
    (hrest : ∀ c ∈ rest.head?, ¬p c) :
    (run ++ rest).takeWhile p = run ∧ (run ++ rest).dropWhile p = rest := by
  rw [List.takeWhile_append_of_pos hrun, List.dropWhile_append_of_pos hrun]
  cases rest with
  | nil => simp
  | cons c rest =>
      have hc : ¬p c := hrest c rfl
      rw [List.takeWhile_cons_of_neg hc, List.dropWhile_cons_of_neg hc, List.append_nil]
      exact ⟨rfl, rfl⟩

theorem isDigit_iff {c : UInt8} : isDigit c ↔ 48 ≤ c.toNat ∧ c.toNat ≤ 57 := by
  rw [isDigit, decide_eq_true_iff, UInt8.le_iff_toNat_le, UInt8.le_iff_toNat_le]
  rfl

/-- **A number without white space and sign before it.** -/
theorem strtol_digits {data digits rest : List UInt8} {i : ℕ}
    (hstring : cString data i = .ok (digits ++ rest)) (hne : digits ≠ [])
    (hdigits : ∀ c ∈ digits, isDigit c) (hrest : ∀ c ∈ rest.head?, ¬isDigit c) :
    strtol data i = .ok (toLong (decimal digits), i + digits.length) := by
  obtain ⟨d, digits, rfl⟩ := List.exists_cons_of_ne_nil hne
  have hd := isDigit_iff.1 (hdigits d (List.mem_cons_self ..))
  have hspace : ¬isSpace d := by
    rw [isSpace, decide_eq_true_iff, ← UInt8.toNat_inj, UInt8.le_iff_toNat_le,
      UInt8.le_iff_toNat_le]
    rintro (h | ⟨-, h⟩)
    · exact absurd (hd.1.trans_eq h) (by decide)
    · exact absurd (hd.1.trans h) (by decide)
  have hplus : some d ≠ some 43 := by
    rintro ⟨⟩
    exact absurd hd.1 (by decide)
  have hminus : some d ≠ some 45 := by
    rintro ⟨⟩
    exact absurd hd.1 (by decide)
  have hblanks : (d :: digits ++ rest).takeWhile isSpace = [] :=
    List.takeWhile_cons_of_neg hspace
  have hhead : (d :: digits ++ rest).head? = some d := rfl
  unfold strtol
  rw [hstring, ok_bind, hblanks]
  dsimp only
  rw [List.length_nil, List.drop_zero, hhead, if_neg (not_or.2 ⟨hplus, hminus⟩), Nat.add_zero,
    Nat.add_zero, List.drop_zero, (takeWhile_run hdigits hrest).1, if_neg hne, if_neg hminus]
  rfl


end Netstack
