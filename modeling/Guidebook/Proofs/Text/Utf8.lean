import Guidebook.Proofs.Result
import Guidebook.Proofs.Text.Split
import Guidebook.Text.Utf8

/-!
# Reading written text

Every text is read back from its bytes. A character of several bytes is followed through the bits
that are pending between them; the bounds on its second byte hold because characters are neither
surrogates nor above the last code point. Bytes that are text hold no more characters than bytes
that may start one.

Nothing else is read: every character has one spelling, and what starts like a character but does
not go on like one is a fault. So bytes are read as a text exactly if they are its bytes. A NUL is a
byte that no other character holds, so what is divided by one is text exactly if both its parts are.
-/

namespace Guidebook.Utf8

/-- The first byte of a character of two. -/
theorem readLead_two {b : UInt8} (pos : Nat) (hlow : 0xc2 ≤ b.toNat) (hhigh : b.toNat < 0xe0) :
    readLead pos b = ([], some ⟨1, 0x80, 0xbf, b.toNat - 0xc0, pos, [b]⟩) := by
  have h1 : ¬ b.toNat < 0x80 := by omega
  have h2 : ¬ b.toNat < 0xc2 := by omega
  simp only [readLead, h1, h2, hhigh, ite_true, ite_false]

/-- The first byte of a character of three. -/
theorem readLead_three {b : UInt8} (pos : Nat) (hlow : 0xe0 ≤ b.toNat) (hhigh : b.toNat < 0xf0) :
    readLead pos b =
      ([], some ⟨2, if b.toNat = 0xe0 then 0xa0 else 0x80, if b.toNat = 0xed then 0x9f else 0xbf,
        b.toNat - 0xe0, pos, [b]⟩) := by
  have h1 : ¬ b.toNat < 0x80 := by omega
  have h2 : ¬ b.toNat < 0xc2 := by omega
  have h3 : ¬ b.toNat < 0xe0 := by omega
  simp only [readLead, h1, h2, h3, hhigh, ite_true, ite_false]

/-- The first byte of a character of four. -/
theorem readLead_four {b : UInt8} (pos : Nat) (hlow : 0xf0 ≤ b.toNat) (hhigh : b.toNat < 0xf5) :
    readLead pos b =
      ([], some ⟨3, if b.toNat = 0xf0 then 0x90 else 0x80, if b.toNat = 0xf4 then 0x8f else 0xbf,
        b.toNat - 0xf0, pos, [b]⟩) := by
  have h1 : ¬ b.toNat < 0x80 := by omega
  have h2 : ¬ b.toNat < 0xc2 := by omega
  have h3 : ¬ b.toNat < 0xe0 := by omega
  have h4 : ¬ b.toNat < 0xf0 := by omega
  simp only [readLead, h1, h2, h3, h4, hhigh, ite_true, ite_false]

/-- A byte that continues a character which needs more. -/
theorem readByte_more {p : Pending} {b : UInt8} (pos : Nat) (hlow : p.low ≤ b.toNat)
    (hhigh : b.toNat ≤ p.high) (howed : p.owed ≠ 1) :
    readByte (some p) pos b = ([], some ⟨p.owed - 1, 0x80, 0xbf, p.bits * 64 + (b.toNat - 0x80),
      p.start, b :: p.bytes⟩) := by
  simp [readByte, hlow, hhigh, howed]

/-- The byte that completes a character. -/
theorem readByte_last {p : Pending} {b : UInt8} (pos : Nat) (hlow : p.low ≤ b.toNat)
    (hhigh : b.toNat ≤ p.high) (howed : p.owed = 1) :
    readByte (some p) pos b = ([.char (Char.ofNat (p.bits * 64 + (b.toNat - 0x80)))], none) := by
  simp [readByte, hlow, hhigh, howed]

/-- A code point below 128 is one byte. -/
theorem scan_one {n : Nat} (pos : Nat) (rest : List UInt8) (h : n < 0x80) :
    scan none pos (UInt8.ofNat n :: rest) = .char (Char.ofNat n) :: scan none (pos + 1) rest := by
  have hb : (UInt8.ofNat n).toNat = n := by simp; omega
  simp [scan, readByte, readLead, hb, h]

/-- A code point of two bytes. -/
theorem scan_two {n : Nat} (pos : Nat) (rest : List UInt8) (hlow : 0x80 ≤ n) (hhigh : n < 0x800) :
    scan none pos (UInt8.ofNat (0xc0 + n / 64) :: UInt8.ofNat (0x80 + n % 64) :: rest) =
      .char (Char.ofNat n) :: scan none (pos + 2) rest := by
  have hlead : (UInt8.ofNat (0xc0 + n / 64)).toNat = 0xc0 + n / 64 := by simp; omega
  have htail : (UInt8.ofNat (0x80 + n % 64)).toNat = 0x80 + n % 64 := by simp; omega
  have hbits : (0xc0 + n / 64 - 0xc0) * 64 + (0x80 + n % 64 - 0x80) = n := by omega
  rw [scan, readByte, readLead_two _ (by omega) (by omega)]
  dsimp only
  rw [scan, readByte_last _ (by dsimp only; omega) (by dsimp only; omega) rfl]
  simp only [hlead, htail, hbits, List.nil_append, List.singleton_append]

/-- A code point of three bytes that is no surrogate. -/
theorem scan_three {n : Nat} (pos : Nat) (rest : List UInt8) (hlow : 0x800 ≤ n)
    (hhigh : n < 0x10000) (hvalid : n < 0xd800 ∨ 0xdfff < n) :
    scan none pos (UInt8.ofNat (0xe0 + n / 4096) :: UInt8.ofNat (0x80 + n / 64 % 64) ::
        UInt8.ofNat (0x80 + n % 64) :: rest) =
      .char (Char.ofNat n) :: scan none (pos + 3) rest := by
  have hlead : (UInt8.ofNat (0xe0 + n / 4096)).toNat = 0xe0 + n / 4096 := by simp; omega
  have hmid : (UInt8.ofNat (0x80 + n / 64 % 64)).toNat = 0x80 + n / 64 % 64 := by simp; omega
  have htail : (UInt8.ofNat (0x80 + n % 64)).toNat = 0x80 + n % 64 := by simp; omega
  have hbits : ((0xe0 + n / 4096 - 0xe0) * 64 + (0x80 + n / 64 % 64 - 0x80)) * 64 +
      (0x80 + n % 64 - 0x80) = n := by omega
  rw [scan, readByte, readLead_three _ (by omega) (by omega)]
  dsimp only
  rw [scan, readByte_more _ (by dsimp only; split <;> omega) (by dsimp only; split <;> omega)
    (by simp)]
  dsimp only
  rw [scan, readByte_last _ (by dsimp only; omega) (by dsimp only; omega) rfl]
  simp only [hlead, hmid, htail, hbits, List.nil_append, List.singleton_append]

/-- A code point of four bytes. -/
theorem scan_four {n : Nat} (pos : Nat) (rest : List UInt8) (hlow : 0x10000 ≤ n)
    (hhigh : n < 0x110000) :
    scan none pos (UInt8.ofNat (0xf0 + n / 262144) :: UInt8.ofNat (0x80 + n / 4096 % 64) ::
        UInt8.ofNat (0x80 + n / 64 % 64) :: UInt8.ofNat (0x80 + n % 64) :: rest) =
      .char (Char.ofNat n) :: scan none (pos + 4) rest := by
  have hlead : (UInt8.ofNat (0xf0 + n / 262144)).toNat = 0xf0 + n / 262144 := by simp; omega
  have hsecond : (UInt8.ofNat (0x80 + n / 4096 % 64)).toNat = 0x80 + n / 4096 % 64 := by
    simp; omega
  have hthird : (UInt8.ofNat (0x80 + n / 64 % 64)).toNat = 0x80 + n / 64 % 64 := by simp; omega
  have htail : (UInt8.ofNat (0x80 + n % 64)).toNat = 0x80 + n % 64 := by simp; omega
  have hbits : (((0xf0 + n / 262144 - 0xf0) * 64 + (0x80 + n / 4096 % 64 - 0x80)) * 64 +
      (0x80 + n / 64 % 64 - 0x80)) * 64 + (0x80 + n % 64 - 0x80) = n := by omega
  rw [scan, readByte, readLead_four _ (by omega) (by omega)]
  dsimp only
  rw [scan, readByte_more _ (by dsimp only; split <;> omega) (by dsimp only; split <;> omega)
    (by simp)]
  dsimp only
  rw [scan, readByte_more _ (by dsimp only; omega) (by dsimp only; omega) (by simp)]
  dsimp only
  rw [scan, readByte_last _ (by dsimp only; omega) (by dsimp only; omega) rfl]
  simp only [hlead, hsecond, hthird, htail, hbits, List.nil_append, List.singleton_append]

/-- A character is read from its bytes, and reading goes on behind them. -/
theorem scan_encodeChar (c : Char) (pos : Nat) (rest : List UInt8) :
    scan none pos (encodeChar c ++ rest) =
      .char c :: scan none (pos + (encodeChar c).length) rest := by
  have hscalar : c.toNat < 0xd800 ∨ 0xdfff < c.toNat ∧ c.toNat < 0x110000 := by
    exact c.valid
  unfold encodeChar
  by_cases h1 : c.toNat < 0x80
  · simpa [h1] using scan_one pos rest h1
  by_cases h2 : c.toNat < 0x800
  · simpa [h1, h2] using scan_two pos rest (by omega) h2
  by_cases h3 : c.toNat < 0x10000
  · simpa [h1, h2, h3] using scan_three pos rest (by omega) h3 (by omega)
  · simpa [h1, h2, h3] using scan_four (n := c.toNat) pos rest (by omega) (by omega)

/-- The pass over written text finds its characters and no fault. -/
theorem scan_encode (cs : List Char) (pos : Nat) : scan none pos (encode cs) = cs.map .char := by
  induction cs generalizing pos with
  | nil => rfl
  | cons c cs ih =>
    rw [encode, List.flatMap_cons, scan_encodeChar, List.map_cons]
    exact congrArg _ (ih _)

/-- Findings without a fault are text. -/
theorem collect_map_char (cs : List Char) : collect (cs.map .char) = .ok cs := by
  induction cs with
  | nil => rfl
  | cons c cs ih => rw [List.map_cons, collect, ih]; rfl

/-- Written text is read back. -/
@[simp] theorem decode_encode (cs : List Char) : decode (encode cs) = .ok cs := by
  rw [decode, scan_encode, collect_map_char]

/-! ## Lengths -/

/-- Whether a byte starts a character, or would. -/
def isLead (b : UInt8) : Bool := b.toNat < 0x80 || 0xbf < b.toNat

/-- The number of bytes that start a character. -/
def leads (bytes : List UInt8) : Nat := bytes.countP isLead

@[simp] theorem leads_append (front back : List UInt8) :
    leads (front ++ back) = leads front + leads back := List.countP_append ..

theorem leads_cons (b : UInt8) (rest : List UInt8) :
    leads (b :: rest) = leads rest + if isLead b then 1 else 0 := List.countP_cons ..

private theorem isLead_continuation (n : Nat) : isLead (UInt8.ofNat (0x80 + n % 64)) = false := by
  have hn : (UInt8.ofNat (0x80 + n % 64)).toNat = 0x80 + n % 64 := by simp; omega
  rw [isLead, hn]
  simp
  omega

/-- Only the first byte of a character starts one. -/
theorem leads_encodeChar_le (c : Char) : leads (encodeChar c) ≤ 1 := by
  have hfirst (b : UInt8) : (if isLead b then 1 else 0) ≤ 1 := by split <;> decide
  have hnone : leads [] = 0 := rfl
  simp only [encodeChar]
  repeat' split
  all_goals
    simp only [leads_cons, isLead_continuation, Bool.false_eq_true, ite_false, hnone,
      Nat.zero_add]
    exact hfirst _

theorem leads_encode_le (cs : List Char) : leads (encode cs) ≤ cs.length := by
  induction cs with
  | nil => exact Nat.le_refl 0
  | cons c cs ih =>
    rw [encode, List.flatMap_cons, leads_append, List.length_cons, Nat.add_comm]
    exact Nat.add_le_add ih (leads_encodeChar_le c)

/-- What reading a byte anew comes to: a character, one that is pending, or a fault. -/
theorem readLead_cases (pos : Nat) (b : UInt8) :
    (isLead b = true ∧ readLead pos b = ([.char (Char.ofNat b.toNat)], none)) ∨
    (isLead b = true ∧ ∃ p, readLead pos b = ([], some p)) ∨
    ∃ f, readLead pos b = ([.fault f], none) := by
  have hhigh (h : ¬ b.toNat < 0xc2) : isLead b = true := by
    simp [isLead]
    omega
  by_cases h1 : b.toNat < 0x80
  · exact .inl ⟨by simp [isLead, h1], by simp [readLead, h1]⟩
  by_cases h2 : b.toNat < 0xc2
  · exact .inr (.inr ⟨_, by simp only [readLead, h1, h2, ite_true, ite_false]; rfl⟩)
  by_cases h3 : b.toNat < 0xe0
  · exact .inr (.inl ⟨hhigh h2, _, readLead_two pos (by omega) h3⟩)
  by_cases h4 : b.toNat < 0xf0
  · exact .inr (.inl ⟨hhigh h2, _, readLead_three pos (by omega) h4⟩)
  by_cases h5 : b.toNat < 0xf5
  · exact .inr (.inl ⟨hhigh h2, _, readLead_four pos (by omega) h5⟩)
  · exact .inr (.inr ⟨_, by simp only [readLead, h1, h2, h3, h4, h5, ite_false]; rfl⟩)

/-- What reading a byte comes to where there is no fault: as many characters are found or pending
as before, and one more only if the byte starts it. -/
private theorem readByte_le {pending : Option Pending} {pos : Nat} {b : UInt8} (rest : List Item)
    {cs : List Char} (h : collect ((readByte pending pos b).1 ++ rest) = .ok cs) :
    ∃ found, collect rest = .ok found ∧
      cs.length + (readByte pending pos b).2.toList.length ≤
        found.length + pending.toList.length + leads [b] := by
  have hchar {c : Char} (h : collect (.char c :: rest) = .ok cs) :
      ∃ found, collect rest = .ok found ∧ cs.length = found.length + 1 := by
    obtain ⟨found, hfound, rfl⟩ := map_eq_ok h
    exact ⟨found, hfound, rfl⟩
  cases pending with
  | none =>
    rw [readByte] at h ⊢
    rcases readLead_cases pos b with ⟨hb, heq⟩ | ⟨hb, p, heq⟩ | ⟨f, heq⟩
    · rw [heq] at h ⊢
      obtain ⟨found, hfound, hlength⟩ := hchar h
      exact ⟨found, hfound, by simp [leads, hb, hlength]⟩
    · rw [heq] at h ⊢
      exact ⟨cs, h, by simp [leads, hb]⟩
    · rw [heq] at h
      cases h
  | some p =>
    simp only [readByte] at h ⊢
    split
    · next hrange =>
      rw [if_pos hrange] at h
      split
      · next howed =>
        rw [if_pos howed] at h
        obtain ⟨found, hfound, hlength⟩ := hchar h
        exact ⟨found, hfound, by simp [hlength]⟩
      · next howed =>
        rw [if_neg howed] at h
        exact ⟨cs, h, by simp⟩
    · next hrange =>
      rw [if_neg hrange] at h
      cases h

/-- Every character of a text starts with a byte of its own. -/
theorem length_le_of_collect {bytes : List UInt8} {pending : Option Pending} {pos : Nat}
    {cs : List Char} (h : collect (scan pending pos bytes) = .ok cs) :
    cs.length ≤ pending.toList.length + leads bytes := by
  induction bytes generalizing pending pos cs with
  | nil =>
    cases pending with
    | none =>
      obtain rfl := Except.ok.inj h
      exact Nat.zero_le _
    | some p => cases h
  | cons b rest ih =>
    obtain ⟨found, hfound, hle⟩ := readByte_le (scan (readByte pending pos b).2 (pos + 1) rest) h
    have hrest := ih hfound
    rw [← List.singleton_append, leads_append]
    omega

/-- Decoded text has no more characters than bytes that start one. -/
theorem length_le_of_decode {bytes : List UInt8} {cs : List Char} (h : decode bytes = .ok cs) :
    cs.length ≤ leads bytes := by
  simpa using length_le_of_collect h

/-! ## One character -/

section Characters

variable {a b c d : UInt8}

private theorem toNat_ofNat {n : Nat} (h : n < 0xd800 ∨ 0xdfff < n ∧ n < 0x110000) :
    (Char.ofNat n).toNat = n := by
  rw [Char.ofNat, dif_pos h]
  rfl

private theorem ofNat_eq {n : Nat} (h : n = b.toNat) : UInt8.ofNat n = b := by
  rw [h, UInt8.ofNat_toNat]

private theorem encodeChar_one (h : b.toNat < 0x80) : encodeChar (Char.ofNat b.toNat) = [b] := by
  rw [encodeChar, toNat_ofNat (.inl (by omega))]
  simp only [h, ite_true, UInt8.ofNat_toNat]

private theorem encodeChar_two (ha : 0xc2 ≤ a.toNat ∧ a.toNat < 0xe0)
    (hb : 0x80 ≤ b.toNat ∧ b.toNat ≤ 0xbf) :
    encodeChar (Char.ofNat ((a.toNat - 0xc0) * 64 + (b.toNat - 0x80))) = [a, b] := by
  obtain ⟨n, hn⟩ : ∃ n, n = (a.toNat - 0xc0) * 64 + (b.toNat - 0x80) := ⟨_, rfl⟩
  have h1 : ¬ n < 0x80 := by omega
  have h2 : n < 0x800 := by omega
  rw [← hn, encodeChar, toNat_ofNat (.inl (by omega))]
  simp only [h1, h2, ite_true, ite_false]
  rw [ofNat_eq (b := a) (by omega), ofNat_eq (b := b) (by omega)]

private theorem encodeChar_three (ha : 0xe0 ≤ a.toNat ∧ a.toNat < 0xf0)
    (hb : (if a.toNat = 0xe0 then 0xa0 else 0x80) ≤ b.toNat ∧
      b.toNat ≤ if a.toNat = 0xed then 0x9f else 0xbf)
    (hc : 0x80 ≤ c.toNat ∧ c.toNat ≤ 0xbf) :
    encodeChar (Char.ofNat
      (((a.toNat - 0xe0) * 64 + (b.toNat - 0x80)) * 64 + (c.toNat - 0x80))) = [a, b, c] := by
  obtain ⟨n, hn⟩ : ∃ n, n = ((a.toNat - 0xe0) * 64 + (b.toNat - 0x80)) * 64 + (c.toNat - 0x80) :=
    ⟨_, rfl⟩
  have hlow : 0x80 ≤ b.toNat ∧ b.toNat ≤ 0xbf ∧ (a.toNat = 0xe0 → 0xa0 ≤ b.toNat) ∧
      (a.toNat = 0xed → b.toNat ≤ 0x9f) := by
    obtain ⟨hfirst, hlast⟩ := hb
    split at hfirst <;> split at hlast <;> omega
  have h1 : ¬ n < 0x80 := by omega
  have h2 : ¬ n < 0x800 := by omega
  have h3 : n < 0x10000 := by omega
  rw [← hn, encodeChar, toNat_ofNat (by omega)]
  simp only [h1, h2, h3, ite_true, ite_false]
  rw [ofNat_eq (b := a) (by omega), ofNat_eq (b := b) (by omega), ofNat_eq (b := c) (by omega)]

private theorem encodeChar_four (ha : 0xf0 ≤ a.toNat ∧ a.toNat < 0xf5)
    (hb : (if a.toNat = 0xf0 then 0x90 else 0x80) ≤ b.toNat ∧
      b.toNat ≤ if a.toNat = 0xf4 then 0x8f else 0xbf)
    (hc : 0x80 ≤ c.toNat ∧ c.toNat ≤ 0xbf) (hd : 0x80 ≤ d.toNat ∧ d.toNat ≤ 0xbf) :
    encodeChar (Char.ofNat
      ((((a.toNat - 0xf0) * 64 + (b.toNat - 0x80)) * 64 + (c.toNat - 0x80)) * 64 +
        (d.toNat - 0x80))) = [a, b, c, d] := by
  obtain ⟨n, hn⟩ : ∃ n, n = (((a.toNat - 0xf0) * 64 + (b.toNat - 0x80)) * 64 +
      (c.toNat - 0x80)) * 64 + (d.toNat - 0x80) := ⟨_, rfl⟩
  have hlow : 0x80 ≤ b.toNat ∧ b.toNat ≤ 0xbf ∧ (a.toNat = 0xf0 → 0x90 ≤ b.toNat) ∧
      (a.toNat = 0xf4 → b.toNat ≤ 0x8f) := by
    obtain ⟨hfirst, hlast⟩ := hb
    split at hfirst <;> split at hlast <;> omega
  have h1 : ¬ n < 0x80 := by omega
  have h2 : ¬ n < 0x800 := by omega
  have h3 : ¬ n < 0x10000 := by omega
  rw [← hn, encodeChar, toNat_ofNat (by omega)]
  simp only [h1, h2, h3, ite_false]
  rw [ofNat_eq (b := a) (by omega), ofNat_eq (b := b) (by omega), ofNat_eq (b := c) (by omega),
    ofNat_eq (b := d) (by omega)]

end Characters

/-! ## Reading -/

section Reading

variable {pos : Nat} {bytes : List UInt8} {cs : List Char}

/-- Where a character is pending and there is no fault, the next byte continues it. -/
private theorem collect_pending {p : Pending} (h : collect (scan (some p) pos bytes) = .ok cs) :
    ∃ b rest, bytes = b :: rest ∧ (p.low ≤ b.toNat ∧ b.toNat ≤ p.high) ∧
      collect (if p.owed = 1 then
          .char (Char.ofNat (p.bits * 64 + (b.toNat - 0x80))) :: scan none (pos + 1) rest
        else scan (some ⟨p.owed - 1, 0x80, 0xbf, p.bits * 64 + (b.toNat - 0x80), p.start,
          b :: p.bytes⟩) (pos + 1) rest) = .ok cs := by
  cases bytes with
  | nil => cases h
  | cons b rest =>
    rw [scan, readByte] at h
    dsimp only at h
    by_cases hrange : p.low ≤ b.toNat ∧ b.toNat ≤ p.high
    · rw [if_pos hrange] at h
      refine ⟨b, rest, rfl, hrange, ?_⟩
      by_cases howed : p.owed = 1
      · rw [if_pos howed] at h ⊢
        exact h
      · rw [if_neg howed] at h ⊢
        exact h
    · rw [if_neg hrange] at h
      cases h

/-- The last byte of a character. -/
private theorem collect_last {p : Pending} (howed : p.owed = 1)
    (h : collect (scan (some p) pos bytes) = .ok cs) :
    ∃ b rest found, bytes = b :: rest ∧ (p.low ≤ b.toNat ∧ b.toNat ≤ p.high) ∧
      cs = Char.ofNat (p.bits * 64 + (b.toNat - 0x80)) :: found ∧
      collect (scan none (pos + 1) rest) = .ok found := by
  obtain ⟨b, rest, rfl, hrange, h⟩ := collect_pending h
  rw [if_pos howed, collect] at h
  obtain ⟨found, hfound, rfl⟩ := map_eq_ok h
  exact ⟨b, rest, found, rfl, hrange, rfl, hfound⟩

/-- A byte of a character before the last. -/
private theorem collect_more {p : Pending} (howed : p.owed ≠ 1)
    (h : collect (scan (some p) pos bytes) = .ok cs) :
    ∃ b rest, bytes = b :: rest ∧ (p.low ≤ b.toNat ∧ b.toNat ≤ p.high) ∧
      collect (scan (some ⟨p.owed - 1, 0x80, 0xbf, p.bits * 64 + (b.toNat - 0x80), p.start,
        b :: p.bytes⟩) (pos + 1) rest) = .ok cs := by
  obtain ⟨b, rest, rfl, hrange, h⟩ := collect_pending h
  rw [if_neg howed] at h
  exact ⟨b, rest, rfl, hrange, h⟩

/-- Bytes without a fault start with the bytes of the first character, if there are any. -/
private theorem collect_cases (h : collect (scan none pos bytes) = .ok cs) :
    bytes = [] ∧ cs = [] ∨ ∃ c rest next found, bytes = encodeChar c ++ rest ∧ cs = c :: found ∧
      collect (scan none next rest) = .ok found := by
  cases bytes with
  | nil => exact .inl ⟨rfl, (Except.ok.inj h).symm⟩
  | cons a bytes =>
    right
    rw [scan, readByte] at h
    by_cases h1 : a.toNat < 0x80
    · rw [readLead, if_pos h1] at h
      obtain ⟨found, hfound, rfl⟩ := map_eq_ok h
      exact ⟨_, bytes, _, found, by rw [encodeChar_one h1, List.singleton_append], rfl, hfound⟩
    by_cases h2 : a.toNat < 0xc2
    · simp only [readLead, h1, h2, ite_true, ite_false] at h
      cases h
    by_cases h3 : a.toNat < 0xe0
    · rw [readLead_two pos (by omega) h3] at h
      obtain ⟨b, rest, found, rfl, hb, rfl, hfound⟩ := collect_last rfl h
      refine ⟨_, rest, _, found, ?_, rfl, hfound⟩
      rw [encodeChar_two ⟨by omega, h3⟩ hb]
      rfl
    by_cases h4 : a.toNat < 0xf0
    · rw [readLead_three pos (by omega) h4] at h
      obtain ⟨b, rest, rfl, hb, h⟩ := collect_more (by simp) h
      obtain ⟨c, rest, found, rfl, hc, rfl, hfound⟩ := collect_last rfl h
      refine ⟨_, rest, _, found, ?_, rfl, hfound⟩
      rw [encodeChar_three ⟨by omega, h4⟩ hb hc]
      rfl
    by_cases h5 : a.toNat < 0xf5
    · rw [readLead_four pos (by omega) h5] at h
      obtain ⟨b, rest, rfl, hb, h⟩ := collect_more (by simp) h
      obtain ⟨c, rest, rfl, hc, h⟩ := collect_more (by simp) h
      obtain ⟨d, rest, found, rfl, hd, rfl, hfound⟩ := collect_last rfl h
      refine ⟨_, rest, _, found, ?_, rfl, hfound⟩
      rw [encodeChar_four ⟨by omega, h5⟩ hb hc hd]
      rfl
    · simp only [readLead, h1, h2, h3, h4, h5, ite_false] at h
      cases h

private theorem eq_encode_of_collect (h : collect (scan none pos bytes) = .ok cs) :
    bytes = encode cs := by
  induction cs generalizing pos bytes with
  | nil =>
    rcases collect_cases h with ⟨rfl, -⟩ | ⟨_, _, _, _, -, hcs, -⟩
    · rfl
    · cases hcs
  | cons c cs ih =>
    rcases collect_cases h with ⟨-, hcs⟩ | ⟨_, rest, _, _, rfl, hcs, hfound⟩
    · cases hcs
    · obtain ⟨rfl, rfl⟩ := List.cons.inj hcs
      rw [ih hfound]
      rfl

/-- Bytes are read as a text exactly if they are its bytes. -/
theorem decode_eq_ok_iff : decode bytes = .ok cs ↔ bytes = encode cs := by
  constructor
  · exact eq_encode_of_collect
  · rintro rfl
    exact decode_encode cs

end Reading

/-! ## Bytes of text -/

/-- Bytes of some text. -/
def IsText (bytes : List UInt8) : Prop := ∃ cs, bytes = encode cs

section Texts

variable {bytes front back : List UInt8} {cs : List Char}

theorem isText_iff : IsText bytes ↔ (decode bytes).toOption.isSome = true := by
  constructor
  · rintro ⟨cs, rfl⟩
    rw [decode_encode]
    rfl
  · intro h
    cases hdecode : decode bytes with
    | error fault =>
      rw [hdecode] at h
      cases h
    | ok cs => exact ⟨cs, decode_eq_ok_iff.mp hdecode⟩

instance (bytes : List UInt8) : Decidable (IsText bytes) := decidable_of_iff _ isText_iff.symm

theorem not_isText_iff : ¬ IsText bytes ↔ ∃ fault, decode bytes = .error fault := by
  rw [isText_iff]
  cases decode bytes with
  | error fault => exact iff_of_true (by simp [Except.toOption]) ⟨fault, rfl⟩
  | ok cs => exact iff_of_false (by simp [Except.toOption]) nofun

theorem encode_append (front back : List Char) :
    encode (front ++ back) = encode front ++ encode back := List.flatMap_append

/-- Texts of the same bytes are the same. -/
theorem encode_injective : Function.Injective encode := fun front back h ↦ by
  have hfront := decode_encode front
  rw [h, decode_encode] at hfront
  exact (Except.ok.inj hfront).symm

/-- Behind the bytes of a text there is text exactly if there is on the whole. -/
theorem isText_encode_append (front : List Char) : IsText (encode front ++ back) ↔ IsText back := by
  constructor
  · rintro ⟨cs, hcs⟩
    induction front generalizing cs with
    | nil => exact ⟨cs, hcs⟩
    | cons c front ih =>
      rw [encode, List.flatMap_cons, List.append_assoc] at hcs
      cases cs with
      | nil =>
        have hscan := scan_encodeChar c 0 (front.flatMap encodeChar ++ back)
        rw [hcs] at hscan
        cases hscan
      | cons d cs =>
        have hscan := scan_encodeChar c 0 (front.flatMap encodeChar ++ back)
        rw [hcs, encode, List.flatMap_cons, scan_encodeChar] at hscan
        obtain rfl : d = c := Item.char.inj (List.cons.inj hscan).1
        rw [encode, List.flatMap_cons] at hcs
        exact ih cs (List.append_cancel_left hcs)
  · rintro ⟨cs, rfl⟩
    exact ⟨front ++ cs, (encode_append front cs).symm⟩

end Texts

/-! ## NULs -/

private theorem ofNat_ne_zero {n : Nat} (h : 0 < n ∧ n < 256) : UInt8.ofNat n ≠ 0 := by
  intro heq
  have htoNat : n % 256 = 0 := by simpa using congrArg UInt8.toNat heq
  omega

/-- A NUL is the only character with a byte of zero. -/
theorem not_zero_of_mem_encodeChar {c : Char} (hc : c ≠ '\x00') {b : UInt8}
    (hb : b ∈ encodeChar c) : b ≠ 0 := by
  have hpos : 0 < c.toNat := Nat.pos_of_ne_zero fun hzero ↦ hc (Char.toNat_inj.mp hzero)
  have hscalar : c.toNat < 0xd800 ∨ 0xdfff < c.toNat ∧ c.toNat < 0x110000 := c.valid
  simp only [encodeChar] at hb
  split at hb
  · obtain rfl := List.mem_singleton.mp hb
    exact ofNat_ne_zero (by omega)
  · split at hb
    · simp only [List.mem_cons, List.not_mem_nil, or_false] at hb
      rcases hb with rfl | rfl <;> exact ofNat_ne_zero (by omega)
    · split at hb
      · simp only [List.mem_cons, List.not_mem_nil, or_false] at hb
        rcases hb with rfl | rfl | rfl <;> exact ofNat_ne_zero (by omega)
      · simp only [List.mem_cons, List.not_mem_nil, or_false] at hb
        rcases hb with rfl | rfl | rfl | rfl <;> exact ofNat_ne_zero (by omega)

/-- The bytes of a text come apart at zeros as the text does at NULs. -/
theorem splitBy_encode (cs : List Char) :
    Text.splitBy (· == 0) (encode cs) = (Text.splitOnChar '\x00' cs).map encode := by
  induction cs with
  | nil => rfl
  | cons c cs ih =>
    rw [encode, List.flatMap_cons, ← encode]
    by_cases hc : c = '\x00'
    · subst hc
      have hcons : Text.splitOnChar '\x00' ('\x00' :: cs) = [] :: Text.splitOnChar '\x00' cs :=
        Text.splitBy_append_cons [] cs rfl
      rw [hcons, List.map_cons, ← ih]
      exact Text.splitBy_append_cons [] (encode cs) rfl
    · have hfront : ∀ b ∈ encodeChar c, (b == 0) = false := fun b hb ↦ by
        simpa using not_zero_of_mem_encodeChar hc hb
      have hchar : ∀ d ∈ [c], (d == '\x00') = false := by simpa using hc
      cases hsplit : Text.splitOnChar '\x00' cs with
      | nil => exact absurd hsplit (Text.splitBy_ne_nil cs)
      | cons first others =>
        rw [hsplit] at ih
        have hcons : Text.splitOnChar '\x00' (c :: cs) = (c :: first) :: others :=
          Text.splitBy_append hchar hsplit
        rw [Text.splitBy_append hfront ih, hcons]
        rfl

/-- What stands in front of a zero and what stands behind it are text exactly if the whole is. -/
theorem isText_append_zero {front back : List UInt8} (hfront : 0 ∉ front) :
    IsText (front ++ 0 :: back) ↔ IsText front ∧ IsText back := by
  have hbehind : ∀ cs, IsText (encode cs ++ 0 :: back) ↔ IsText back := fun cs ↦
    (isText_encode_append cs).trans (isText_encode_append ['\x00'])
  constructor
  · rintro ⟨cs, hcs⟩
    have hzero : ∀ b ∈ front, (b == 0) = false := fun b hb ↦ by
      simpa using ne_of_mem_of_not_mem hb hfront
    have hsplit := splitBy_encode cs
    rw [← hcs, Text.splitBy_append_cons _ _ rfl, Text.splitBy_of_forall hzero,
      List.singleton_append] at hsplit
    cases hpieces : Text.splitOnChar '\x00' cs with
    | nil => exact absurd hpieces (Text.splitBy_ne_nil cs)
    | cons piece pieces =>
      rw [hpieces, List.map_cons] at hsplit
      obtain rfl := (List.cons.inj hsplit).1
      exact ⟨⟨piece, rfl⟩, (hbehind piece).mp ⟨cs, hcs⟩⟩
  · rintro ⟨⟨cs, rfl⟩, hback⟩
    exact (hbehind cs).mpr hback

end Guidebook.Utf8
