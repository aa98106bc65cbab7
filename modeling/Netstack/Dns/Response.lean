/-
# DNS responses

`dns_parse_response` of `src/dns.c`.  The body of its loop over the answers is cut in two:
`dnsReadAnswer` is the part that can fail, and `dnsStoreAnswer` the part that stores an
A record.

A response is well formed when what follows the header is as many questions and records
as the header counts (`DnsWellFormed`), and the main result is that the function decides
this and collects the A records (`dnsParseResponse_decides`).
-/

import Netstack.Dns.Name

namespace Netstack

/-! ### The source -/

/-- `DNS_HEADER_LEN` -/
def dnsHeaderLen : ℕ := 12

/-- `DNS_TYPE_A` -/
def dnsTypeA : BitVec 16 := 1

/-- `DNS_CLASS_IN` -/
def dnsClassIn : BitVec 16 := 1

/-- `DNS_MAX_ANSWERS` -/
def dnsMaxAnswers : ℕ := 16

/-- `dns_a_record_t` -/
structure DnsARecord where
  address : List UInt8
  ttl : BitVec 32
deriving DecidableEq, Repr

/-- `dns_response_t` -/
structure DnsResponse where
  transactionId : BitVec 16
  responseCode : BitVec 8
  authoritative : Bool
  truncated : Bool
  recursionAvailable : Bool
  answers : List DnsARecord
  answerCount : ℕ
deriving DecidableEq, Repr

/-- The response whose bytes are all zero, as `memset` leaves it. -/
def DnsResponse.zero : DnsResponse where
  transactionId := 0
  responseCode := 0
  authoritative := false
  truncated := false
  recursionAvailable := false
  answers := List.replicate dnsMaxAnswers ⟨[0, 0, 0, 0], 0⟩
  answerCount := 0

/-- The body of the loop over the questions. -/
def dnsSkipQuestion (data : List UInt8) (offset : ℕ) : OptionT Checked ℕ := do
  let offset ← dnsSkipName data offset
  -- QTYPE + QCLASS
  if sizeAdd offset 4 > data.length then failure
  else return sizeAdd offset 4

/-- The loop over the questions, with `n` of them still to come. -/
def dnsSkipQuestions (data : List UInt8) : ℕ → ℕ → OptionT Checked ℕ
  | 0, offset => return offset
  | n + 1, offset => do
    let offset ← dnsSkipQuestion data offset
    dnsSkipQuestions data n offset

/-- The local variables of the loop over the answers, behind the checks of its body. -/
structure DnsAnswer where
  type : BitVec 16
  classCode : BitVec 16
  ttl : BitVec 32
  rdlength : BitVec 16
  offset : ℕ
deriving DecidableEq, Repr

/-- The checks in the body of the loop over the answers. -/
def dnsReadAnswer (data : List UInt8) (offset : ℕ) : OptionT Checked DnsAnswer := do
  let offset ← dnsSkipName data offset
  -- TYPE, CLASS, TTL, RDLEN
  if sizeAdd offset 10 > data.length then failure
  else
    let type ← OptionT.lift (readU16Be data offset)
    let classCode ← OptionT.lift (readU16Be data (offset + 2))
    let ttl ← OptionT.lift (readU32Be data (offset + 4))
    let rdlength ← OptionT.lift (readU16Be data (offset + 8))
    let offset := sizeAdd offset 10
    if sizeAdd offset rdlength.toNat > data.length then failure
    else return { type, classCode, ttl, rdlength, offset }

/-- The rest of the body of the loop over the answers: an A record is stored when there is
a slot left for it. -/
def dnsStoreAnswer (data : List UInt8) (answer : DnsAnswer) (response : DnsResponse) :
    Checked DnsResponse :=
  if answer.type = dnsTypeA ∧ answer.classCode = dnsClassIn ∧ answer.rdlength = 4 then
    if response.answerCount < dnsMaxAnswers then do
      let address ← readRange data answer.offset 4
      let answers ← writeAt response.answers response.answerCount ⟨address, answer.ttl⟩
      return { response with answers, answerCount := response.answerCount + 1 }
    else return response
  else return response

/-- The loop over the answers, with `n` of them still to come. -/
def dnsParseAnswers (data : List UInt8) : ℕ → ℕ → DnsResponse → Checked (ℤ × DnsResponse)
  | 0, _, response => return (0, response)
  | n + 1, offset, response => do
    match ← (dnsReadAnswer data offset).run with
    | none => return (-5, response)
    | some answer =>
      let response ← dnsStoreAnswer data answer response
      dnsParseAnswers data n (sizeAdd answer.offset answer.rdlength.toNat) response

/-- `dns_parse_response`: its `int` and what it leaves in `*response`. -/
def dnsParseResponse (data : List UInt8) (expectedTransactionId : BitVec 16)
    (response : DnsResponse) : Checked (ℤ × DnsResponse) :=
  if data.length < dnsHeaderLen then return (-2, response)
  else do
    let transactionId ← readU16Be data 0
    if transactionId ≠ expectedTransactionId then return (-3, response)
    else
      let flags ← readU16Be data 2
      -- QR must be set for response
      if flags &&& 0x8000 = 0 then return (-4, response)
      else
        let questionCount ← readU16Be data 4
        let answerCount ← readU16Be data 6
        let response := { DnsResponse.zero with
          transactionId
          authoritative := flags &&& 0x0400 != 0
          truncated := flags &&& 0x0200 != 0
          recursionAvailable := flags &&& 0x0080 != 0
          responseCode := (flags &&& 0x000F).setWidth 8 }
        match ← (dnsSkipQuestions data questionCount.toNat dnsHeaderLen).run with
        | none => return (-5, response)
        | some offset => dnsParseAnswers data answerCount.toNat offset response

/-! ### The format -/

/-- A question: a name and four bytes. -/
structure DnsQuestion where
  name : DnsName
  typeAndClass : List UInt8
  length_eq : typeAndClass.length = 4

/-- The bytes of a question. -/
def DnsQuestion.encode (question : DnsQuestion) : List UInt8 :=
  question.name.encode ++ question.typeAndClass

/-- A resource record. -/
structure DnsRecord where
  name : DnsName
  type : BitVec 16
  classCode : BitVec 16
  ttl : BitVec 32
  rdata : List UInt8
  rdata_lt : rdata.length < 2 ^ 16

/-- The bytes of the fields between the name of a record and its data. -/
def answerFields (type classCode : BitVec 16) (ttl : BitVec 32) (rdlength : BitVec 16) :
    List UInt8 :=
  writeU16Be type ++ writeU16Be classCode ++ writeU32Be ttl ++ writeU16Be rdlength

/-- The bytes of a record. -/
def DnsRecord.encode (record : DnsRecord) : List UInt8 :=
  record.name.encode ++ answerFields record.type record.classCode record.ttl
    (BitVec.ofNat 16 record.rdata.length) ++ record.rdata

/-- The record is an A record of the Internet class with an address. -/
def DnsRecord.IsA (record : DnsRecord) : Prop :=
  record.type = dnsTypeA ∧ record.classCode = dnsClassIn ∧ record.rdata.length = 4

instance (record : DnsRecord) : Decidable record.IsA :=
  inferInstanceAs (Decidable (_ ∧ _ ∧ _))

/-- The A records among the records, in their order. -/
def aRecords (records : List DnsRecord) : List DnsARecord :=
  records.filterMap fun record =>
    if record.IsA then some ⟨record.rdata, record.ttl⟩ else none

/-! ### The loops -/

section Loops

variable {data : List UInt8} {offset : ℕ}

/-- **A question.** -/
theorem dnsSkipQuestion_parses (hdata : data.length ≤ maxObjectLen)
    (ho : offset ≤ data.length) :
    Parses data offset (dnsSkipQuestion data offset)
      fun w o => (∃ question : DnsQuestion, w = question.encode) ∧ o = offset + w.length := by
  refine Parses.congr ((dnsSkipName_parses hdata ho).bind (Q := fun b w o =>
    w.length = 4 ∧ o = b + w.length) fun w b hw hname => ?_) fun w o _ => ?_
  · obtain ⟨-, rfl⟩ := hname
    have hle := offset_add_length_le ho hw
    rw [sizeAdd_of_object hdata hle (by omega)]
    refine Parses.congr (Parses.skip (n := 4) hle
      (Q := fun _ w₂ o => w₂ = [] ∧ o = offset + w.length + 4) ?_ ?_) fun w' o _ => ?_
    · intro hshort
      rw [if_pos (by omega)]
      rfl
    · intro henough
      rw [if_neg (by omega)]
      exact Parses.pure _
    · constructor
      · rintro ⟨w₁, w₂, rfl, hlen, rfl, rfl⟩
        rw [List.append_nil]
        exact ⟨hlen, by omega⟩
      · rintro ⟨hlen, rfl⟩
        exact ⟨w', [], (List.append_nil w').symm, hlen, rfl, by omega⟩
  · constructor
    · rintro ⟨w₁, w₂, b, rfl, ⟨⟨name, rfl⟩, rfl⟩, hlen, rfl⟩
      refine ⟨⟨⟨name, w₂, hlen⟩, rfl⟩, ?_⟩
      rw [List.length_append]
      omega
    · rintro ⟨⟨question, rfl⟩, rfl⟩
      refine ⟨question.name.encode, question.typeAndClass, _, rfl, ⟨⟨_, rfl⟩, rfl⟩,
        question.length_eq, ?_⟩
      rw [DnsQuestion.encode, List.length_append]
      omega

/-- **The questions.** -/
theorem dnsSkipQuestions_parses (hdata : data.length ≤ maxObjectLen) (n : ℕ)
    (ho : offset ≤ data.length) :
    Parses data offset (dnsSkipQuestions data n offset)
      fun w o => (∃ questions : List DnsQuestion, questions.length = n ∧
        w = questions.flatMap DnsQuestion.encode) ∧ o = offset + w.length := by
  induction n generalizing offset with
  | zero =>
      refine (Parses.pure offset).congr fun w o _ => ?_
      simp only [List.length_eq_zero_iff, exists_eq_left, List.flatMap_nil]
      constructor
      · rintro ⟨rfl, rfl⟩
        exact ⟨rfl, rfl⟩
      · rintro ⟨rfl, rfl⟩
        exact ⟨rfl, rfl⟩
  | succ n ih =>
      refine Parses.congr ((dnsSkipQuestion_parses hdata ho).bind (Q := fun b w o =>
        (∃ questions : List DnsQuestion, questions.length = n ∧
          w = questions.flatMap DnsQuestion.encode) ∧ o = b + w.length) fun w b hw hq => ?_)
        fun w o _ => ?_
      · obtain ⟨-, rfl⟩ := hq
        exact ih (offset_add_length_le ho hw)
      · constructor
        · rintro ⟨_, _, b, rfl, ⟨⟨question, rfl⟩, rfl⟩, ⟨questions, rfl, rfl⟩, rfl⟩
          refine ⟨⟨question :: questions, rfl, rfl⟩, ?_⟩
          rw [List.length_append]
          omega
        · rintro ⟨⟨questions, hlen, rfl⟩, rfl⟩
          obtain ⟨question, questions, rfl⟩ := List.exists_cons_of_length_eq_add_one hlen
          refine ⟨question.encode, questions.flatMap DnsQuestion.encode, _, rfl,
            ⟨⟨question, rfl⟩, rfl⟩, ⟨questions, by simpa using hlen, rfl⟩, ?_⟩
          rw [List.flatMap_cons, List.length_append, Nat.add_assoc]

/-- The fields determine their bytes and are determined by them. -/
theorem answerFields_inj {type type' classCode classCode' rdlength rdlength' : BitVec 16}
    {ttl ttl' : BitVec 32}
    (h : answerFields type classCode ttl rdlength = answerFields type' classCode' ttl' rdlength') :
    type = type' ∧ classCode = classCode' ∧ ttl = ttl' ∧ rdlength = rdlength' := by
  simp only [answerFields, writeU16Be, writeU32Be, List.cons_append, List.nil_append,
    List.cons.injEq, and_true] at h
  obtain ⟨h₀, h₁, h₂, h₃, h₄, h₅, h₆, h₇, h₈, h₉⟩ := h
  refine ⟨?_, ?_, ?_, ?_⟩
  · rw [← u16Be_writeU16Be type, h₀, h₁, u16Be_writeU16Be]
  · rw [← u16Be_writeU16Be classCode, h₂, h₃, u16Be_writeU16Be]
  · rw [← u32Be_writeU32Be ttl, h₄, h₅, h₆, h₇, u32Be_writeU32Be]
  · rw [← u16Be_writeU16Be rdlength, h₈, h₉, u16Be_writeU16Be]

/-- Ten bytes are the bytes of the fields that are read from them. -/
theorem exists_answerFields (h : offset + 10 ≤ data.length) :
    ∃ type classCode ttl rdlength,
      (data.drop offset).take 10 = answerFields type classCode ttl rdlength ∧
        readU16Be data offset = .ok type ∧ readU16Be data (offset + 2) = .ok classCode ∧
        readU32Be data (offset + 4) = .ok ttl ∧ readU16Be data (offset + 8) = .ok rdlength := by
  have hlen : 10 ≤ (data.drop offset).length := by
    rw [List.length_drop]
    omega
  have hdrop : ∀ n, data.drop (offset + n) = (data.drop offset).drop n := fun n =>
    List.drop_drop.symm
  generalize hd : data.drop offset = d at hlen hdrop
  match d, hlen with
  | b₀ :: b₁ :: b₂ :: b₃ :: b₄ :: b₅ :: b₆ :: b₇ :: b₈ :: b₉ :: rest, _ =>
    refine ⟨u16Be b₀ b₁, u16Be b₂ b₃, u32Be b₄ b₅ b₆ b₇, u16Be b₈ b₉, ?_,
      readU16Be_of_drop hd, readU16Be_of_drop (hdrop 2), readU32Be_of_drop (hdrop 4),
      readU16Be_of_drop (hdrop 8)⟩
    simp only [answerFields, writeU16Be_u16Be, writeU32Be_u32Be]
    rfl

/-- What the checks of an answer hand on for a record whose data begins at `offset`. -/
def DnsRecord.answer (record : DnsRecord) (offset : ℕ) : DnsAnswer :=
  ⟨record.type, record.classCode, record.ttl, BitVec.ofNat 16 record.rdata.length, offset⟩

/-- The length of the data fits into its field. -/
theorem DnsRecord.rdlength_toNat (record : DnsRecord) :
    (BitVec.ofNat 16 record.rdata.length).toNat = record.rdata.length := by
  have := record.rdata_lt
  rw [BitVec.toNat_ofNat]
  exact Nat.mod_eq_of_lt this

/-- **The checks of an answer** take a record. -/
theorem dnsReadAnswer_parses (hdata : data.length ≤ maxObjectLen) (ho : offset ≤ data.length) :
    Parses data offset (dnsReadAnswer data offset)
      fun w answer => ∃ record : DnsRecord, w = record.encode ∧
        answer = record.answer (offset + record.name.encode.length + 10) := by
  refine Parses.congr ((dnsSkipName_parses hdata ho).bind (Q := fun b w answer =>
    ∃ type classCode ttl rdlength w₂, w = answerFields type classCode ttl rdlength ++ w₂ ∧
      w₂.length = rdlength.toNat ∧ answer = ⟨type, classCode, ttl, rdlength, b + 10⟩)
    fun w b hw hname => ?_) fun w answer _ => ?_
  · obtain ⟨-, rfl⟩ := hname
    have hle := offset_add_length_le ho hw
    generalize offset + w.length = o at hle
    rw [sizeAdd_of_object hdata hle (by omega)]
    refine Parses.congr (Parses.skip (n := 10) hle (Q := fun w₁ w₂ answer =>
      ∃ type classCode ttl rdlength, w₁ = answerFields type classCode ttl rdlength ∧
        w₂.length = rdlength.toNat ∧ answer = ⟨type, classCode, ttl, rdlength, o + 10⟩) ?_ ?_)
      fun w' answer _ => ?_
    · intro hshort
      rw [if_pos (by omega)]
      rfl
    · intro henough
      obtain ⟨type, classCode, ttl, rdlength, htake, htype, hclass, httl, hlength⟩ :=
        exists_answerFields henough
      rw [if_neg (by omega), htake, htype, hclass, httl, hlength]
      simp only [lift_ok_bind]
      have hsum : sizeAdd (o + 10) rdlength.toNat = o + 10 + rdlength.toNat :=
        sizeAdd_of_object hdata henough (by omega)
      rw [hsum]
      refine Parses.congr (Parses.skip (n := rdlength.toNat) henough (Q := fun _ w₂ answer =>
        w₂ = [] ∧ answer = ⟨type, classCode, ttl, rdlength, o + 10⟩) ?_ ?_) fun w' answer _ => ?_
      · intro hshort
        rw [if_pos (by omega)]
        rfl
      · intro hroom
        rw [if_neg (by omega)]
        exact Parses.pure _
      · constructor
        · rintro ⟨w₁, _, rfl, hlen, rfl, rfl⟩
          exact ⟨type, classCode, ttl, rdlength, rfl, by rwa [List.append_nil], rfl⟩
        · rintro ⟨_, _, _, _, heq, hlen, rfl⟩
          obtain ⟨rfl, rfl, rfl, rfl⟩ := answerFields_inj heq
          exact ⟨w', [], (List.append_nil w').symm, hlen, rfl, rfl⟩
    · constructor
      · rintro ⟨_, w₂, rfl, -, type, classCode, ttl, rdlength, rfl, hlen, rfl⟩
        exact ⟨type, classCode, ttl, rdlength, w₂, rfl, hlen, rfl⟩
      · rintro ⟨type, classCode, ttl, rdlength, w₂, rfl, hlen, rfl⟩
        exact ⟨_, w₂, rfl, rfl, type, classCode, ttl, rdlength, rfl, hlen, rfl⟩
  · constructor
    · rintro ⟨_, _, _, rfl, ⟨⟨name, rfl⟩, rfl⟩, type, classCode, ttl, rdlength, rdata, rfl, hlen, rfl⟩
      have hword : BitVec.ofNat 16 rdata.length = rdlength := by
        rw [hlen, BitVec.ofNat_toNat, BitVec.setWidth_eq]
      refine ⟨⟨name, type, classCode, ttl, rdata, by omega⟩, ?_, ?_⟩
      · rw [DnsRecord.encode, hword, List.append_assoc]
      · rw [DnsRecord.answer, hword]
    · rintro ⟨record, rfl, rfl⟩
      refine ⟨record.name.encode, _, _, ?_, ⟨⟨record.name, rfl⟩, rfl⟩, record.type,
        record.classCode, record.ttl, _, record.rdata, rfl, record.rdlength_toNat.symm, rfl⟩
      rw [DnsRecord.encode, List.append_assoc]

/-! ### The A records -/

/-- What is done with a record: an A record takes the next slot while there is one. -/
def DnsResponse.store (response : DnsResponse) (record : DnsRecord) : DnsResponse :=
  if record.IsA ∧ response.answerCount < dnsMaxAnswers then
    { response with
      answers := response.answers.set response.answerCount ⟨record.rdata, record.ttl⟩
      answerCount := response.answerCount + 1 }
  else response

/-- The response holds the A records among `records`, cut to the number of slots. -/
structure DnsResponse.Collected (response : DnsResponse) (records : List DnsRecord) : Prop where
  slots : response.answers.length = dnsMaxAnswers
  count : response.answerCount = ((aRecords records).take dnsMaxAnswers).length
  answers : response.answers.take response.answerCount = (aRecords records).take dnsMaxAnswers

/-- Storing an answer does what `store` says: an A record goes into the next slot while there is
one, and any other record is passed over. The address is read from data whose length was checked.
-/
theorem dnsStoreAnswer_eq {record : DnsRecord} {response : DnsResponse}
    (hslots : response.answers.length = dnsMaxAnswers)
    (hrdata : record.rdata <+: data.drop offset) (ho : offset ≤ data.length) :
    dnsStoreAnswer data (record.answer offset) response = .ok (response.store record) := by
  have hlt := record.rdata_lt
  have hlength : BitVec.ofNat 16 record.rdata.length = 4 ↔ record.rdata.length = 4 := by
    rw [← BitVec.toNat_inj, record.rdlength_toNat]
    rfl
  have hA : ((record.answer offset).type = dnsTypeA ∧ (record.answer offset).classCode = dnsClassIn ∧
      (record.answer offset).rdlength = 4) ↔ record.IsA :=
    and_congr_right fun _ => and_congr_right fun _ => hlength
  unfold dnsStoreAnswer DnsResponse.store
  by_cases hisA : record.IsA
  swap
  · rw [if_neg (mt hA.1 hisA), if_neg (mt And.left hisA)]
    rfl
  by_cases hroom : response.answerCount < dnsMaxAnswers
  swap
  · rw [if_pos (hA.2 hisA), if_neg hroom, if_neg (mt And.right hroom)]
    rfl
  have hend := offset_add_length_le ho hrdata
  have htake : (data.drop offset).take 4 = record.rdata := by
    rw [List.prefix_iff_eq_take.1 hrdata, hisA.2.2]
  rw [if_pos (hA.2 hisA), if_pos hroom, if_pos ⟨hisA, hroom⟩, DnsRecord.answer,
    readRange_of_le (by rw [← hisA.2.2]; exact hend), htake, ok_bind, writeAt_of_lt (by omega)]
  rfl

/-- The A records of a message, one record at a time, as the loop collects them. -/
theorem aRecords_append_singleton (records : List DnsRecord) (record : DnsRecord) :
    aRecords (records ++ [record]) =
      aRecords records ++ if record.IsA then [⟨record.rdata, record.ttl⟩] else [] := by
  rw [aRecords, List.filterMap_append, aRecords]
  split_ifs with h <;> simp [h]

/-- Storing a record collects it. -/
theorem DnsResponse.Collected.store {response : DnsResponse} {records : List DnsRecord}
    (h : response.Collected records) (record : DnsRecord) :
    (response.store record).Collected (records ++ [record]) := by
  obtain ⟨hslots, hcount, hanswers⟩ := h
  have hle : response.answerCount ≤ dnsMaxAnswers := by
    rw [hcount]
    exact List.length_take_le ..
  have hmin : response.answerCount = min dnsMaxAnswers (aRecords records).length := by
    rw [hcount, List.length_take]
  unfold DnsResponse.store
  by_cases hA : record.IsA
  swap
  · rw [if_neg (mt And.left hA)]
    refine ⟨hslots, ?_, ?_⟩ <;>
      simpa [aRecords_append_singleton, hA] using ‹_›
  by_cases hroom : response.answerCount < dnsMaxAnswers
  · rw [if_pos ⟨hA, hroom⟩]
    have hall : (aRecords records).take dnsMaxAnswers = aRecords records :=
      List.take_of_length_le (by omega)
    have hshort : ((aRecords records) ++ [(⟨record.rdata, record.ttl⟩ : DnsARecord)]).length ≤
        dnsMaxAnswers := by
      rw [List.length_append, List.length_singleton]
      omega
    rw [hall] at hcount hanswers
    refine ⟨by rwa [List.length_set], ?_, ?_⟩
    · rw [aRecords_append_singleton, if_pos hA, List.take_of_length_le hshort, List.length_append,
        hcount]
      rfl
    · rw [aRecords_append_singleton, if_pos hA, List.take_of_length_le hshort, ← hanswers]
      dsimp only
      rw [List.take_succ_eq_append_getElem (by rw [List.length_set]; omega),
        List.take_set_of_le le_rfl, List.getElem_set_self]
  · rw [if_neg (mt And.right hroom)]
    have hfull : dnsMaxAnswers ≤ (aRecords records).length := by omega
    refine ⟨hslots, ?_, ?_⟩
    · rw [aRecords_append_singleton, List.take_append_of_le_length hfull]
      exact hcount
    · rw [aRecords_append_singleton, List.take_append_of_le_length hfull]
      exact hanswers

theorem DnsRecord.length_encode (record : DnsRecord) :
    record.encode.length = record.name.encode.length + 10 + record.rdata.length := by
  rw [DnsRecord.encode, List.length_append, List.length_append]
  rfl

/-- **One turn of the loop over the answers.** -/
theorem dnsParseAnswers_cons (hdata : data.length ≤ maxObjectLen) {record : DnsRecord} {n : ℕ}
    {response : DnsResponse} (ho : offset ≤ data.length)
    (hslots : response.answers.length = dnsMaxAnswers)
    (hrecord : record.encode <+: data.drop offset) :
    dnsParseAnswers data (n + 1) offset response =
      dnsParseAnswers data n (offset + record.encode.length) (response.store record) := by
  have hread := ((dnsReadAnswer_parses hdata ho).2 _).2 ⟨record.encode, hrecord, record, rfl, rfl⟩
  have hparts := hrecord
  rw [DnsRecord.encode, prefix_append_drop_iff, List.length_append] at hparts
  obtain ⟨hfront, hrdata⟩ := hparts
  have hfields : offset + record.name.encode.length + 10 ≤ data.length := by
    have := offset_add_length_le ho hfront
    rwa [List.length_append, ← Nat.add_assoc] at this
  change _ <+: data.drop (offset + (record.name.encode.length + 10)) at hrdata
  rw [← Nat.add_assoc] at hrdata
  have hsum : sizeAdd (offset + record.name.encode.length + 10) record.rdata.length =
      offset + record.encode.length := by
    rw [record.length_encode, sizeAdd_of_object hdata hfields (by have := record.rdata_lt; omega)]
    omega
  rw [dnsParseAnswers, hread, ok_bind]
  dsimp only
  rw [dnsStoreAnswer_eq hslots hrdata hfields, ok_bind]
  show dnsParseAnswers data n (sizeAdd _ (BitVec.ofNat 16 record.rdata.length).toNat) _ = _
  rw [record.rdlength_toNat]
  exact congrArg (fun o => dnsParseAnswers data n o _) hsum

/-- **The answers, well formed.** -/
theorem dnsParseAnswers_of_records (hdata : data.length ≤ maxObjectLen)
    (records : List DnsRecord) {before : List DnsRecord} {response : DnsResponse}
    (ho : offset ≤ data.length) (hresponse : response.Collected before)
    (hrecords : records.flatMap DnsRecord.encode <+: data.drop offset) :
    ∃ left, dnsParseAnswers data records.length offset response = .ok (0, left) ∧
      left.Collected (before ++ records) := by
  induction records generalizing offset before response with
  | nil => exact ⟨response, rfl, by rwa [List.append_nil]⟩
  | cons record records ih =>
      rw [List.flatMap_cons, prefix_append_drop_iff] at hrecords
      rw [List.length_cons, dnsParseAnswers_cons hdata ho hresponse.slots hrecords.1,
        List.append_cons]
      exact ih (offset_add_length_le ho hrecords.1) (hresponse.store record) hrecords.2

/-- **The answers, malformed.** -/
theorem dnsParseAnswers_malformed (hdata : data.length ≤ maxObjectLen) (n : ℕ)
    {before : List DnsRecord} {response : DnsResponse} (ho : offset ≤ data.length)
    (hresponse : response.Collected before)
    (hnot : ∀ records : List DnsRecord, records.length = n →
      ¬records.flatMap DnsRecord.encode <+: data.drop offset) :
    ∃ left, dnsParseAnswers data n offset response = .ok (-5, left) := by
  induction n generalizing offset before response with
  | zero => exact absurd List.nil_prefix (hnot [] rfl)
  | succ n ih =>
      by_cases hfirst : ∃ record : DnsRecord, record.encode <+: data.drop offset
      · obtain ⟨record, hrecord⟩ := hfirst
        rw [dnsParseAnswers_cons hdata ho hresponse.slots hrecord]
        refine ih (offset_add_length_le ho hrecord) (hresponse.store record) fun records hlen => ?_
        have hall := hnot (record :: records) (by rw [List.length_cons, hlen])
        rw [List.flatMap_cons, prefix_append_drop_iff] at hall
        exact fun hrest => hall ⟨hrecord, hrest⟩
      · have hread := (dnsReadAnswer_parses hdata ho).ok_none (by
          rintro w b hw ⟨record, rfl, -⟩
          exact hfirst ⟨record, hw⟩)
        rw [dnsParseAnswers, hread]
        exact ⟨response, rfl⟩

end Loops

/-! ### The response -/

/-- The header of a message. -/
structure DnsHeader where
  id : BitVec 16
  flags : BitVec 16
  questionCount : BitVec 16
  answerCount : BitVec 16
  authorityCount : BitVec 16
  additionalCount : BitVec 16

/-- The bytes of a header. -/
def DnsHeader.encode (header : DnsHeader) : List UInt8 :=
  writeU16Be header.id ++ writeU16Be header.flags ++ writeU16Be header.questionCount ++
    writeU16Be header.answerCount ++ writeU16Be header.authorityCount ++
      writeU16Be header.additionalCount

/-- The message begins with the header, which is the header of a response to `id`. -/
def DnsHeader.Accepted (header : DnsHeader) (data : List UInt8) (id : BitVec 16) : Prop :=
  header.encode <+: data ∧ header.id = id ∧ header.flags &&& 0x8000 ≠ 0

/-- Behind the header are the questions and the records that it counts. -/
def DnsHeader.Counts (header : DnsHeader) (data : List UInt8) (questions : List DnsQuestion)
    (records : List DnsRecord) : Prop :=
  questions.length = header.questionCount.toNat ∧ records.length = header.answerCount.toNat ∧
    questions.flatMap DnsQuestion.encode ++ records.flatMap DnsRecord.encode <+:
      data.drop dnsHeaderLen

/-- Twelve bytes are a header. -/
theorem exists_header {data : List UInt8} (h : dnsHeaderLen ≤ data.length) :
    ∃ header : DnsHeader, header.encode <+: data := by
  match data, h with
  | b₀ :: b₁ :: b₂ :: b₃ :: b₄ :: b₅ :: b₆ :: b₇ :: b₈ :: b₉ :: b₁₀ :: b₁₁ :: rest, _ =>
    refine ⟨⟨u16Be b₀ b₁, u16Be b₂ b₃, u16Be b₄ b₅, u16Be b₆ b₇, u16Be b₈ b₉, u16Be b₁₀ b₁₁⟩,
      rest, ?_⟩
    simp only [DnsHeader.encode, writeU16Be_u16Be]
    rfl

/-- What the checks of the header read. -/
theorem DnsHeader.reads {header : DnsHeader} {data : List UInt8} (h : header.encode <+: data) :
    dnsHeaderLen ≤ data.length ∧ readU16Be data 0 = .ok header.id ∧
      readU16Be data 2 = .ok header.flags ∧ readU16Be data 4 = .ok header.questionCount ∧
        readU16Be data 6 = .ok header.answerCount := by
  obtain ⟨rest, rfl⟩ := h
  refine ⟨?_, ?_, ?_, ?_, ?_⟩
  · simp [DnsHeader.encode, dnsHeaderLen]
    omega
  · exact (readU16Be_of_drop rfl).trans (congrArg Except.ok (u16Be_writeU16Be header.id))
  · exact (readU16Be_of_drop rfl).trans (congrArg Except.ok (u16Be_writeU16Be header.flags))
  · exact (readU16Be_of_drop rfl).trans
      (congrArg Except.ok (u16Be_writeU16Be header.questionCount))
  · exact (readU16Be_of_drop rfl).trans (congrArg Except.ok (u16Be_writeU16Be header.answerCount))

/-- What `response` holds when the loops begin. -/
def DnsHeader.response (header : DnsHeader) : DnsResponse :=
  { DnsResponse.zero with
    transactionId := header.id
    authoritative := header.flags &&& 0x0400 != 0
    truncated := header.flags &&& 0x0200 != 0
    recursionAvailable := header.flags &&& 0x0080 != 0
    responseCode := (header.flags &&& 0x000F).setWidth 8 }

section Response

variable {data : List UInt8} {id : BitVec 16}

/-- A message without an accepted header is refused by the first checks. -/
theorem dnsParseResponse_refused (hnot : ¬∃ header : DnsHeader, header.Accepted data id)
    (response : DnsResponse) :
    ∃ result, (result = -2 ∨ result = -3 ∨ result = -4) ∧
      dnsParseResponse data id response = .ok (result, response) := by
  unfold dnsParseResponse
  by_cases hlen : data.length < dnsHeaderLen
  · rw [if_pos hlen]
    exact ⟨-2, Or.inl rfl, rfl⟩
  obtain ⟨header, hheader⟩ := exists_header (not_lt.1 hlen)
  obtain ⟨-, hid, hflags, -, -⟩ := DnsHeader.reads hheader
  rw [if_neg hlen, hid, ok_bind]
  by_cases hne : header.id ≠ id
  · rw [if_pos hne]
    exact ⟨-3, Or.inr (Or.inl rfl), rfl⟩
  rw [if_neg hne, hflags, ok_bind]
  by_cases hqr : header.flags &&& 0x8000 = 0
  · rw [if_pos hqr]
    exact ⟨-4, Or.inr (Or.inr rfl), rfl⟩
  · exact absurd ⟨header, hheader, not_not.1 hne, hqr⟩ hnot

/-- Behind an accepted header come the loops. -/
theorem DnsHeader.Accepted.parse {header : DnsHeader} (h : header.Accepted data id)
    (response : DnsResponse) :
    dnsParseResponse data id response =
      ((dnsSkipQuestions data header.questionCount.toNat dnsHeaderLen).run >>= fun
        | none => .ok (-5, header.response)
        | some offset =>
          dnsParseAnswers data header.answerCount.toNat offset header.response) := by
  obtain ⟨hheader, rfl, hqr⟩ := h
  obtain ⟨hlen, hid, hflags, hquestions, hanswers⟩ := DnsHeader.reads hheader
  unfold dnsParseResponse
  rw [if_neg (not_lt.2 hlen), hid, ok_bind, if_neg (not_not_intro rfl), hflags, ok_bind,
    if_neg hqr, hquestions, ok_bind, hanswers, ok_bind]
  rfl

/-- A header that has collected nothing. -/
theorem DnsHeader.response_collected (header : DnsHeader) : header.response.Collected [] :=
  ⟨rfl, rfl, rfl⟩

/-- **A well-formed message** is accepted, and its A records are collected. -/
theorem dnsParseResponse_of_counts (hdata : data.length ≤ maxObjectLen) {header : DnsHeader}
    {questions : List DnsQuestion} {records : List DnsRecord} (h : header.Accepted data id)
    (hcounts : header.Counts data questions records) (response : DnsResponse) :
    ∃ left, dnsParseResponse data id response = .ok (0, left) ∧ left.Collected records := by
  obtain ⟨hquestions, hrecords, hbody⟩ := hcounts
  have hlen := (DnsHeader.reads h.1).1
  rw [prefix_append_drop_iff] at hbody
  have hskip := ((dnsSkipQuestions_parses hdata header.questionCount.toNat hlen).2 _).2
    ⟨_, hbody.1, ⟨questions, hquestions, rfl⟩, rfl⟩
  rw [h.parse, hskip, ok_bind, ← hrecords]
  exact dnsParseAnswers_of_records hdata records (offset_add_length_le hlen hbody.1)
    header.response_collected hbody.2

/-- **A malformed body.** -/
theorem dnsParseResponse_malformed (hdata : data.length ≤ maxObjectLen) {header : DnsHeader}
    (h : header.Accepted data id)
    (hnot : ¬∃ questions records, header.Counts data questions records)
    (response : DnsResponse) :
    ∃ left, dnsParseResponse data id response = .ok (-5, left) := by
  have hlen := (DnsHeader.reads h.1).1
  have hparses := dnsSkipQuestions_parses hdata header.questionCount.toNat hlen
  rw [h.parse]
  by_cases hquestions : ∃ questions : List DnsQuestion,
      questions.length = header.questionCount.toNat ∧
        questions.flatMap DnsQuestion.encode <+: data.drop dnsHeaderLen
  · obtain ⟨questions, hcount, hpre⟩ := hquestions
    rw [(hparses.2 _).2 ⟨_, hpre, ⟨questions, hcount, rfl⟩, rfl⟩, ok_bind]
    refine dnsParseAnswers_malformed hdata _ (offset_add_length_le hlen hpre)
      header.response_collected fun records hrecords hrest => hnot ⟨questions, records, hcount,
        hrecords, prefix_append_drop_iff.2 ⟨hpre, hrest⟩⟩
  · rw [hparses.ok_none, ok_bind]
    · exact ⟨_, rfl⟩
    · rintro w o hw ⟨⟨questions, hcount, rfl⟩, -⟩
      exact hquestions ⟨questions, hcount, hw⟩

/-- **`dns_parse_response` decides the format and extracts the A records.**  It never reads or
writes outside of its arrays, whatever the message; it returns `0` exactly on the well-formed
responses to `id`, and `-5` on those whose body is malformed; and what it collects is the list
of the A records in message order, cut to the number of slots. -/
theorem dnsParseResponse_decides (data : List UInt8) (hdata : data.length ≤ maxObjectLen)
    (id : BitVec 16) (response : DnsResponse) :
    ∃ result left, dnsParseResponse data id response = .ok (result, left) ∧
      (result = 0 ↔ ∃ header questions records, DnsHeader.Accepted header data id ∧
        header.Counts data questions records) ∧
      (∀ header, DnsHeader.Accepted header data id →
        (¬∃ questions records, header.Counts data questions records) → result = -5) ∧
      (∀ header questions records, DnsHeader.Accepted header data id →
        header.Counts data questions records →
          left.answers.take left.answerCount = (aRecords records).take dnsMaxAnswers ∧
            left.answerCount = ((aRecords records).take dnsMaxAnswers).length) := by
  by_cases haccepted : ∃ header : DnsHeader, header.Accepted data id
  swap
  · obtain ⟨result, hresult, hrun⟩ := dnsParseResponse_refused haccepted response
    refine ⟨result, response, hrun, ?_, ?_, ?_⟩
    · refine iff_of_false (by omega) ?_
      rintro ⟨header, _, _, hheader, -⟩
      exact haccepted ⟨header, hheader⟩
    · exact fun header hheader => absurd ⟨header, hheader⟩ haccepted
    · exact fun header _ _ hheader => absurd ⟨header, hheader⟩ haccepted
  obtain ⟨header, hheader⟩ := haccepted
  by_cases hbody : ∃ header questions records, DnsHeader.Accepted header data id ∧
      header.Counts data questions records
  · obtain ⟨header, questions, records, hheader, hcounts⟩ := hbody
    obtain ⟨left, hrun, -⟩ := dnsParseResponse_of_counts hdata hheader hcounts response
    refine ⟨0, left, hrun, iff_of_true rfl ⟨header, questions, records, hheader, hcounts⟩,
      fun other hother hnot => ?_, fun other questions' records' hother hcounts' => ?_⟩
    · obtain ⟨_, hmalformed⟩ := dnsParseResponse_malformed hdata hother hnot response
      rw [hrun] at hmalformed
      exact congrArg Prod.fst (Except.ok.inj hmalformed)
    · obtain ⟨left', hrun', hcollected⟩ :=
        dnsParseResponse_of_counts hdata hother hcounts' response
      rw [hrun] at hrun'
      obtain rfl : left = left' := congrArg Prod.snd (Except.ok.inj hrun')
      exact ⟨hcollected.answers, hcollected.count⟩
  · have hnot : ¬∃ questions records, header.Counts data questions records := by
      rintro ⟨questions, records, hcounts⟩
      exact hbody ⟨header, questions, records, hheader, hcounts⟩
    obtain ⟨left, hrun⟩ := dnsParseResponse_malformed hdata hheader hnot response
    refine ⟨-5, left, hrun, iff_of_false (by decide) hbody, fun _ _ _ => rfl, ?_⟩
    exact fun other questions records hother hcounts =>
      absurd ⟨other, questions, records, hother, hcounts⟩ hbody

/-- The message of `test_parse_response`: one question and one answer, example.com. -/
def testResponse : List UInt8 :=
  [0x12, 0x34, 0x81, 0x80, 0, 1, 0, 1, 0, 0, 0, 0,
    7, 101, 120, 97, 109, 112, 108, 101, 3, 99, 111, 109, 0, 0, 1, 0, 1,
    0xC0, 0x0C, 0, 1, 0, 1, 0, 0, 0x01, 0x2C, 0, 4, 93, 184, 216, 34]

/-- The message of the test is accepted, so that it is well formed. -/
theorem testResponse_wellFormed :
    (∃ left, dnsParseResponse testResponse 0x1234 DnsResponse.zero = .ok (0, left)) ∧
      ∃ header questions records, DnsHeader.Accepted header testResponse 0x1234 ∧
        header.Counts testResponse questions records := by
  obtain ⟨result, left, hrun, hiff, -⟩ :=
    dnsParseResponse_decides testResponse (by decide) 0x1234 DnsResponse.zero
  have hresult : (dnsParseResponse testResponse 0x1234 DnsResponse.zero).map Prod.fst = .ok 0 := by
    decide +kernel
  rw [hrun] at hresult
  obtain rfl : result = 0 := Except.ok.inj hresult
  exact ⟨⟨left, hrun⟩, hiff.1 rfl⟩

end Response

end Netstack
