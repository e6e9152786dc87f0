import Enrollment.Text.Utf8

/-!
# Reading what was written

Writing a text as bytes and reading the bytes gives the text back
(`parts_encode`), and bytes that can be read as a text are the ones that it is
written as (`decode?_eq_some_iff`).  Both go character by character: the bytes
of a character are read as that character whatever comes after them
(`parts_utf8EncodeChar_append`), and where nothing is ill-formed the bytes begin
with those of a character (`exists_utf8EncodeChar_append`).
-/

namespace Enrollment.Utf8

/-! ## The bytes of a character -/

/-- A byte that continues a character and carries a digit of base 64. -/
def continuation (d : Nat) : UInt8 :=
  UInt8.ofNat (d + 0x80)

theorem toNat_continuation {d : Nat} (h : d < 64) : (continuation d).toNat = d + 0x80 := by
  rw [continuation, UInt8.toNat_ofNat']
  omega

theorem eq_continuation {b : UInt8} (h : 0x80 ≤ b.toNat) :
    b = continuation (b.toNat - 0x80) := by
  rw [continuation, Nat.sub_add_cancel h, UInt8.ofNat_toNat]

theorem utf8EncodeChar_one {c : Char} (h : c.toNat ≤ 0x7F) :
    String.utf8EncodeChar c = [UInt8.ofNat c.toNat] := by
  have h' : c.val.toNat ≤ 0x7F := h
  simp only [String.utf8EncodeChar, if_pos h']
  rfl

theorem utf8EncodeChar_two {c : Char} (h₁ : 0x7F < c.toNat) (h₂ : c.toNat ≤ 0x7FF) :
    String.utf8EncodeChar c =
      [UInt8.ofNat (c.toNat / 64 + 0xC0), continuation (c.toNat % 64)] := by
  have h₁' : ¬ c.val.toNat ≤ 0x7F := Nat.not_le.2 h₁
  have h₂' : c.val.toNat ≤ 0x7FF := h₂
  have hd : c.val.toNat / 64 % 32 = c.val.toNat / 64 := by omega
  simp only [String.utf8EncodeChar, if_neg h₁', if_pos h₂', hd]
  rfl

theorem utf8EncodeChar_three {c : Char} (h₁ : 0x7FF < c.toNat) (h₂ : c.toNat ≤ 0xFFFF) :
    String.utf8EncodeChar c =
      [UInt8.ofNat (c.toNat / 4096 + 0xE0), continuation (c.toNat / 64 % 64),
        continuation (c.toNat % 64)] := by
  have h₁' : ¬ c.val.toNat ≤ 0x7F := by
    have : 0x7FF < c.val.toNat := h₁
    omega
  have h₁'' : ¬ c.val.toNat ≤ 0x7FF := Nat.not_le.2 h₁
  have h₂' : c.val.toNat ≤ 0xFFFF := h₂
  have hd : c.val.toNat / 4096 % 16 = c.val.toNat / 4096 := by omega
  simp only [String.utf8EncodeChar, if_neg h₁', if_neg h₁'', if_pos h₂', hd]
  rfl

theorem utf8EncodeChar_four {c : Char} (h₁ : 0xFFFF < c.toNat) (h₂ : c.toNat ≤ 0x10FFFF) :
    String.utf8EncodeChar c =
      [UInt8.ofNat (c.toNat / 262144 + 0xF0), continuation (c.toNat / 4096 % 64),
        continuation (c.toNat / 64 % 64), continuation (c.toNat % 64)] := by
  have h₁' : 0xFFFF < c.val.toNat := h₁
  have h₂' : c.val.toNat ≤ 0x10FFFF := h₂
  have hd : c.val.toNat / 262144 % 8 = c.val.toNat / 262144 := by omega
  simp only [String.utf8EncodeChar, if_neg (show ¬ c.val.toNat ≤ 0x7F by omega),
    if_neg (show ¬ c.val.toNat ≤ 0x7FF by omega), if_neg (show ¬ c.val.toNat ≤ 0xFFFF by omega), hd]
  rfl

/-! ## Leading bytes -/

/-- A digit of base 64 whose byte may come next. -/
def Pending.Admits (p : Pending) (d : Nat) : Prop :=
  d < 64 ∧ p.low.toNat ≤ d + 0x80 ∧ d + 0x80 ≤ p.high.toNat

/-- All bytes that may come next are continuation bytes. -/
def Pending.Continues (p : Pending) : Prop :=
  0x80 ≤ p.low.toNat ∧ p.high.toNat < 0xC0

/-- A byte begins a character: it carries so many bits, so many bytes are to come after the next
one, and the next one is restricted. -/
structure Leads (b : UInt8) (p : Pending) (bits after : Nat) (restriction : Nat → Prop) : Prop where
  lead : lead b = some p
  bits : p.bits = bits
  after : p.after = after
  admits : ∀ d, p.Admits d ↔ d < 64 ∧ restriction d
  range : p.Continues

theorem leads_two {n : Nat} (h₁ : n < 32) (h₂ : 2 ≤ n) :
    ∃ p, Leads (UInt8.ofNat (n + 0xC0)) p n 0 fun _ => True := by
  have hlead : ∀ n, n < 32 → 2 ≤ n → lead (UInt8.ofNat (n + 0xC0)) =
      some ⟨[UInt8.ofNat (n + 0xC0)], n, 0x80, 0xBF, 0⟩ := by decide
  refine ⟨_, hlead n h₁ h₂, rfl, rfl, fun d => ?_, Nat.le_refl 0x80, Nat.lt_add_one 0xBF⟩
  simp only [Pending.Admits, UInt8.reduceToNat, and_true]
  omega

theorem leads_three {n : Nat} (h : n < 16) :
    ∃ p, Leads (UInt8.ofNat (n + 0xE0)) p n 1 fun d => (n = 0 → 32 ≤ d) ∧ (n = 13 → d < 32) := by
  have hlead : ∀ n, n < 16 → lead (UInt8.ofNat (n + 0xE0)) =
      some ⟨[UInt8.ofNat (n + 0xE0)], n,
        if n = 0 then 0xA0 else 0x80, if n = 13 then 0x9F else 0xBF, 1⟩ := by decide
  refine ⟨_, hlead n h, rfl, rfl, fun d => ?_, ?_⟩
  · simp only [Pending.Admits]
    split <;> split <;> simp only [UInt8.reduceToNat] <;> omega
  · simp only [Pending.Continues]
    split <;> split <;> decide

theorem leads_four {n : Nat} (h : n < 5) :
    ∃ p, Leads (UInt8.ofNat (n + 0xF0)) p n 2 fun d => (n = 0 → 16 ≤ d) ∧ (n = 4 → d < 16) := by
  have hlead : ∀ n, n < 5 → lead (UInt8.ofNat (n + 0xF0)) =
      some ⟨[UInt8.ofNat (n + 0xF0)], n,
        if n = 0 then 0x90 else 0x80, if n = 4 then 0x8F else 0xBF, 2⟩ := by decide
  refine ⟨_, hlead n h, rfl, rfl, fun d => ?_, ?_⟩
  · simp only [Pending.Admits]
    split <;> split <;> simp only [UInt8.reduceToNat] <;> omega
  · simp only [Pending.Continues]
    split <;> split <;> decide

/-- The bytes that begin a character of several bytes. -/
theorem lead_cases {b : UInt8} {p : Pending} (h : lead b = some p) :
    (∃ n, n < 32 ∧ 2 ≤ n ∧ b = UInt8.ofNat (n + 0xC0)) ∨
      (∃ n, n < 16 ∧ b = UInt8.ofNat (n + 0xE0)) ∨ ∃ n, n < 5 ∧ b = UInt8.ofNat (n + 0xF0) := by
  have hb : (0xC2 ≤ b.toNat ∧ b.toNat ≤ 0xDF) ∨ (0xE0 ≤ b.toNat ∧ b.toNat ≤ 0xEF) ∨
      (0xF0 ≤ b.toNat ∧ b.toNat ≤ 0xF4) := by
    unfold lead at h
    simp only [UInt8.le_iff_toNat_le, ← UInt8.toNat_inj] at h
    grind
  have hself : ∀ k, k ≤ b.toNat → b = UInt8.ofNat (b.toNat - k + k) := by
    intro k hk
    rw [Nat.sub_add_cancel hk, UInt8.ofNat_toNat]
  rcases hb with ⟨h₁, h₂⟩ | ⟨h₁, h₂⟩ | ⟨h₁, h₂⟩
  · exact .inl ⟨b.toNat - 0xC0, by omega, by omega, hself _ (by omega)⟩
  · exact .inr (.inl ⟨b.toNat - 0xE0, by omega, hself _ h₁⟩)
  · exact .inr (.inr ⟨b.toNat - 0xF0, by omega, hself _ h₁⟩)

/-! ## Steps -/

theorem parts_of_lt_80 {b : UInt8} (h : b < 0x80) (bs : Bytes) :
    parts (b :: bs) = .char (Char.ofNat b.toNat) :: parts bs := by
  simp only [parts, partsFrom, step, start, if_pos h, List.singleton_append]

theorem parts_of_lead {b : UInt8} {p : Pending} (h : lead b = some p) (bs : Bytes) :
    parts (b :: bs) = partsFrom (some p) bs := by
  have hb : ¬ b < 0x80 := by
    rw [UInt8.lt_iff_toNat_lt]
    refine Nat.not_lt.2 ?_
    rcases lead_cases h with ⟨n, hn, -, rfl⟩ | ⟨n, hn, rfl⟩ | ⟨n, hn, rfl⟩ <;>
      rw [UInt8.toNat_ofNat'] <;> simp only [UInt8.reduceToNat] <;> omega
  simp only [parts, partsFrom, step, start, if_neg hb, h, List.nil_append]

/-- The state after a byte that continues a character without finishing it. -/
def Pending.next (p : Pending) (b : UInt8) (n : Nat) : Pending :=
  ⟨p.seen ++ [b], p.bits * 64 + (b.toNat - 0x80), 0x80, 0xBF, n⟩

theorem Pending.next_continues (p : Pending) (b : UInt8) (n : Nat) : (p.next b n).Continues :=
  ⟨Nat.le_refl 0x80, Nat.lt_add_one 0xBF⟩

theorem Pending.next_admits {p : Pending} {b : UInt8} {n d : Nat} :
    (p.next b n).Admits d ↔ d < 64 := by
  simp only [Pending.Admits, Pending.next, UInt8.reduceToNat]
  omega

theorem Pending.Admits.between {p : Pending} {d : Nat} (h : p.Admits d) :
    p.low ≤ continuation d ∧ continuation d ≤ p.high := by
  rw [UInt8.le_iff_toNat_le, UInt8.le_iff_toNat_le, toNat_continuation h.1]
  exact h.2

theorem partsFrom_finished {p : Pending} {d : Nat} (h : p.after = 0) (hd : p.Admits d)
    (bs : Bytes) :
    partsFrom (some p) (continuation d :: bs) =
      .char (Char.ofNat (p.bits * 64 + d)) :: parts bs := by
  have hbits : (continuation d).toNat - 0x80 = d := by
    rw [toNat_continuation hd.1, Nat.add_sub_cancel]
  simp only [partsFrom, step, if_pos hd.between, h, hbits]
  rfl

theorem partsFrom_continued {p : Pending} {d n : Nat} (h : p.after = n + 1) (hd : p.Admits d)
    (bs : Bytes) :
    partsFrom (some p) (continuation d :: bs) =
      partsFrom (some (p.next (continuation d) n)) bs := by
  simp only [partsFrom, step, if_pos hd.between, h]
  rfl

theorem Pending.next_bits {p : Pending} {d n : Nat} (h : d < 64) :
    (p.next (continuation d) n).bits = p.bits * 64 + d := by
  rw [Pending.next, toNat_continuation h, Nat.add_sub_cancel]

/-- Where nothing is ill-formed, a pending character is continued as it has to be. -/
theorem exists_continued {p : Pending} {bs : Bytes} (hp : p.Continues)
    (h : ∀ part, .illFormed part ∉ partsFrom (some p) bs) :
    ∃ d rest, bs = continuation d :: rest ∧ p.Admits d := by
  cases bs with
  | nil => exact absurd List.mem_cons_self (h p.seen)
  | cons b rest =>
    by_cases hb : p.low ≤ b ∧ b ≤ p.high
    · rw [UInt8.le_iff_toNat_le, UInt8.le_iff_toNat_le] at hb
      refine ⟨b.toNat - 0x80, rest, ?_, ?_⟩
      · rw [← eq_continuation (Nat.le_trans hp.1 hb.1)]
      · obtain ⟨hlow, hhigh⟩ := hp
        rw [Pending.Admits]
        omega
    · refine absurd ?_ (h p.seen)
      simp only [partsFrom, step, if_neg hb, List.cons_append]
      exact List.mem_cons_self

/-! ## Characters -/

theorem Leads.parts_two {b : UInt8} {p : Pending} {n d : Nat} {R : Nat → Prop}
    (h : Leads b p n 0 R) (hd : d < 64) (hR : R d) (bs : Bytes) :
    parts (b :: continuation d :: bs) = .char (Char.ofNat (n * 64 + d)) :: parts bs := by
  rw [parts_of_lead h.lead, partsFrom_finished h.after ((h.admits d).2 ⟨hd, hR⟩), h.bits]

theorem Leads.parts_three {b : UInt8} {p : Pending} {n d e : Nat} {R : Nat → Prop}
    (h : Leads b p n 1 R) (hd : d < 64) (hR : R d) (he : e < 64) (bs : Bytes) :
    parts (b :: continuation d :: continuation e :: bs) =
      .char (Char.ofNat ((n * 64 + d) * 64 + e)) :: parts bs := by
  rw [parts_of_lead h.lead, partsFrom_continued h.after ((h.admits d).2 ⟨hd, hR⟩),
    partsFrom_finished rfl (Pending.next_admits.2 he), Pending.next_bits hd, h.bits]

theorem Leads.parts_four {b : UInt8} {p : Pending} {n d e f : Nat} {R : Nat → Prop}
    (h : Leads b p n 2 R) (hd : d < 64) (hR : R d) (he : e < 64) (hf : f < 64) (bs : Bytes) :
    parts (b :: continuation d :: continuation e :: continuation f :: bs) =
      .char (Char.ofNat (((n * 64 + d) * 64 + e) * 64 + f)) :: parts bs := by
  rw [parts_of_lead h.lead, partsFrom_continued h.after ((h.admits d).2 ⟨hd, hR⟩),
    partsFrom_continued rfl (Pending.next_admits.2 he),
    partsFrom_finished rfl (Pending.next_admits.2 hf), Pending.next_bits he, Pending.next_bits hd,
    h.bits]

/-- The bytes of a character are read as that character, whatever comes after them. -/
theorem parts_utf8EncodeChar_append (c : Char) (bs : Bytes) :
    parts (String.utf8EncodeChar c ++ bs) = .char c :: parts bs := by
  have hself : ∀ n, n = c.toNat → Part.char (Char.ofNat n) = .char c := by
    intro n hn
    rw [hn, Char.ofNat_toNat]
  -- Surrogates and what lies past U+10FFFF are no characters; the second byte is restricted so.
  have hvalid : c.toNat < 0xD800 ∨ 0xDFFF < c.toNat ∧ c.toNat < 0x110000 := c.valid
  by_cases h₁ : c.toNat ≤ 0x7F
  · have hn : (UInt8.ofNat c.toNat).toNat = c.toNat := by
      rw [UInt8.toNat_ofNat']
      omega
    have hlt : UInt8.ofNat c.toNat < 0x80 := by
      rw [UInt8.lt_iff_toNat_lt, hn]
      exact Nat.lt_succ_of_le h₁
    rw [utf8EncodeChar_one h₁, List.singleton_append, parts_of_lt_80 hlt, hn, Char.ofNat_toNat]
  by_cases h₂ : c.toNat ≤ 0x7FF
  · obtain ⟨p, hp⟩ := leads_two (n := c.toNat / 64) (by omega) (by omega)
    rw [utf8EncodeChar_two (by omega) h₂, List.cons_append, List.singleton_append,
      hp.parts_two (by omega) trivial, hself _ (by omega)]
  by_cases h₃ : c.toNat ≤ 0xFFFF
  · obtain ⟨p, hp⟩ := leads_three (n := c.toNat / 4096) (by omega)
    rw [utf8EncodeChar_three (by omega) h₃, List.cons_append, List.cons_append,
      List.singleton_append, hp.parts_three (by omega) (by omega) (by omega), hself _ (by omega)]
  · obtain ⟨p, hp⟩ := leads_four (n := c.toNat / 262144) (by omega)
    rw [utf8EncodeChar_four (by omega) (by omega), List.cons_append, List.cons_append,
      List.cons_append, List.singleton_append,
      hp.parts_four (by omega) (by omega) (by omega) (by omega), hself _ (by omega)]

theorem toNat_ofNat_of_isValidChar {n : Nat} (h : n.isValidChar) : (Char.ofNat n).toNat = n := by
  rw [Char.ofNat, dif_pos h]
  rfl

theorem utf8EncodeChar_ofNat_two {n d : Nat} (h₁ : n < 32) (h₂ : 2 ≤ n) (hd : d < 64) :
    String.utf8EncodeChar (Char.ofNat (n * 64 + d)) =
      [UInt8.ofNat (n + 0xC0), continuation d] := by
  have hc : (Char.ofNat (n * 64 + d)).toNat = n * 64 + d :=
    toNat_ofNat_of_isValidChar (.inl (by omega))
  have hn : (n * 64 + d) / 64 = n := by omega
  have hd : (n * 64 + d) % 64 = d := by omega
  rw [utf8EncodeChar_two (by omega) (by omega), hc, hn, hd]

theorem utf8EncodeChar_ofNat_three {n d e : Nat} (h : n < 16) (hd : d < 64) (he : e < 64)
    (hrest : (n = 0 → 32 ≤ d) ∧ (n = 13 → d < 32)) :
    String.utf8EncodeChar (Char.ofNat ((n * 64 + d) * 64 + e)) =
      [UInt8.ofNat (n + 0xE0), continuation d, continuation e] := by
  have hc : (Char.ofNat ((n * 64 + d) * 64 + e)).toNat = (n * 64 + d) * 64 + e := by
    refine toNat_ofNat_of_isValidChar ?_
    unfold Nat.isValidChar
    omega
  have hn : ((n * 64 + d) * 64 + e) / 4096 = n := by omega
  have hd : ((n * 64 + d) * 64 + e) / 64 % 64 = d := by omega
  have he : ((n * 64 + d) * 64 + e) % 64 = e := by omega
  rw [utf8EncodeChar_three (by omega) (by omega), hc, hn, hd, he]

theorem utf8EncodeChar_ofNat_four {n d e f : Nat} (h : n < 5) (hd : d < 64) (he : e < 64)
    (hf : f < 64) (hrest : (n = 0 → 16 ≤ d) ∧ (n = 4 → d < 16)) :
    String.utf8EncodeChar (Char.ofNat (((n * 64 + d) * 64 + e) * 64 + f)) =
      [UInt8.ofNat (n + 0xF0), continuation d, continuation e, continuation f] := by
  have hc : (Char.ofNat (((n * 64 + d) * 64 + e) * 64 + f)).toNat =
      ((n * 64 + d) * 64 + e) * 64 + f := by
    refine toNat_ofNat_of_isValidChar ?_
    unfold Nat.isValidChar
    omega
  have hn : (((n * 64 + d) * 64 + e) * 64 + f) / 262144 = n := by omega
  have hd : (((n * 64 + d) * 64 + e) * 64 + f) / 4096 % 64 = d := by omega
  have he : (((n * 64 + d) * 64 + e) * 64 + f) / 64 % 64 = e := by omega
  have hf : (((n * 64 + d) * 64 + e) * 64 + f) % 64 = f := by omega
  rw [utf8EncodeChar_four (by omega) (by omega), hc, hn, hd, he, hf]

/-- Where nothing is ill-formed, the bytes begin with those of a character. -/
theorem exists_utf8EncodeChar_append {b : UInt8} {bs : Bytes}
    (h : ∀ part, .illFormed part ∉ parts (b :: bs)) :
    ∃ c rest, b :: bs = String.utf8EncodeChar c ++ rest := by
  by_cases hb : b < 0x80
  · have hle : b.toNat ≤ 0x7F := Nat.le_of_lt_succ (UInt8.lt_iff_toNat_lt.1 hb)
    have hc : (Char.ofNat b.toNat).toNat = b.toNat := toNat_ofNat_of_isValidChar (.inl (by omega))
    refine ⟨Char.ofNat b.toNat, bs, ?_⟩
    rw [utf8EncodeChar_one (by omega), hc, UInt8.ofNat_toNat, List.singleton_append]
  cases hlead : lead b with
  | none =>
    refine absurd ?_ (h [b])
    simp only [parts, partsFrom, step, start, if_neg hb, hlead]
    exact List.mem_cons_self
  | some p =>
    rw [parts_of_lead hlead] at h
    rcases lead_cases hlead with ⟨n, hn, hn', rfl⟩ | ⟨n, hn, rfl⟩ | ⟨n, hn, rfl⟩
    · obtain ⟨q, hq⟩ := leads_two hn hn'
      obtain rfl : p = q := Option.some.inj (hlead.symm.trans hq.lead)
      obtain ⟨d, rest, rfl, hd⟩ := exists_continued hq.range h
      refine ⟨Char.ofNat (n * 64 + d), rest, ?_⟩
      rw [utf8EncodeChar_ofNat_two hn hn' hd.1]
      rfl
    · obtain ⟨q, hq⟩ := leads_three hn
      obtain rfl : p = q := Option.some.inj (hlead.symm.trans hq.lead)
      obtain ⟨d, rest, rfl, hd⟩ := exists_continued hq.range h
      rw [partsFrom_continued hq.after hd] at h
      obtain ⟨e, rest, rfl, he⟩ := exists_continued (Pending.next_continues _ _ _) h
      refine ⟨Char.ofNat ((n * 64 + d) * 64 + e), rest, ?_⟩
      rw [utf8EncodeChar_ofNat_three hn hd.1 he.1 ((hq.admits d).1 hd).2]
      rfl
    · obtain ⟨q, hq⟩ := leads_four hn
      obtain rfl : p = q := Option.some.inj (hlead.symm.trans hq.lead)
      obtain ⟨d, rest, rfl, hd⟩ := exists_continued hq.range h
      rw [partsFrom_continued hq.after hd] at h
      obtain ⟨e, rest, rfl, he⟩ := exists_continued (Pending.next_continues _ _ _) h
      rw [partsFrom_continued rfl he] at h
      obtain ⟨f, rest, rfl, hf⟩ := exists_continued (Pending.next_continues _ _ _) h
      refine ⟨Char.ofNat (((n * 64 + d) * 64 + e) * 64 + f), rest, ?_⟩
      rw [utf8EncodeChar_ofNat_four hn hd.1 he.1 hf.1 ((hq.admits d).1 hd).2]
      rfl

/-! ## Texts -/

theorem encode_cons (c : Char) (cs : List Char) :
    encode (c :: cs) = String.utf8EncodeChar c ++ encode cs :=
  List.flatMap_cons

/-- The bytes of a text fall into its characters. -/
theorem parts_encode (cs : List Char) : parts (encode cs) = cs.map Part.char := by
  induction cs with
  | nil => rfl
  | cons c cs ih => rw [encode_cons, parts_utf8EncodeChar_append, ih, List.map_cons]

theorem decodeLossy_encode (cs : List Char) : decodeLossy (encode cs) = cs := by
  rw [decodeLossy, parts_encode, List.map_map]
  exact List.map_id cs

theorem mapM_char?_eq_some_iff {ps : List Part} {cs : List Char} :
    ps.mapM Part.char? = some cs ↔ ps = cs.map Part.char := by
  induction ps generalizing cs with
  | nil => cases cs <;> simp
  | cons p ps ih =>
    simp only [List.mapM_cons, Option.bind_eq_bind]
    cases p with
    | illFormed part => cases cs <;> simp [Part.char?]
    | char c =>
      simp only [Part.char?, Option.bind_some]
      constructor
      · intro h
        obtain ⟨ds, hds, h⟩ := Option.bind_eq_some_iff.1 h
        cases h
        rw [ih.1 hds, List.map_cons]
      · intro h
        cases cs with
        | nil => cases h
        | cons d ds =>
          obtain ⟨hc, hps⟩ := List.cons.inj h
          cases hc
          rw [ih.2 hps]
          rfl

/-- Bytes can be read as a text exactly if it is written as these bytes. -/
theorem decode?_eq_some_iff {bs : Bytes} {cs : List Char} :
    decode? bs = some cs ↔ encode cs = bs := by
  rw [decode?, mapM_char?_eq_some_iff]
  constructor
  · intro h
    induction cs generalizing bs with
    | nil =>
      cases bs with
      | nil => rfl
      | cons b bs =>
        have hgood : ∀ part, .illFormed part ∉ parts (b :: bs) := by simp [h]
        obtain ⟨c, rest, hbs⟩ := exists_utf8EncodeChar_append hgood
        rw [hbs, parts_utf8EncodeChar_append] at h
        cases h
    | cons c cs ih =>
      cases bs with
      | nil => cases h
      | cons b bs =>
        have hgood : ∀ part, .illFormed part ∉ parts (b :: bs) := by simp [h]
        obtain ⟨d, rest, hbs⟩ := exists_utf8EncodeChar_append hgood
        rw [hbs, parts_utf8EncodeChar_append, List.map_cons, List.cons.injEq, Part.char.injEq] at h
        rw [hbs, encode_cons, ih h.2, h.1]
  · rintro rfl
    exact parts_encode cs

end Enrollment.Utf8
