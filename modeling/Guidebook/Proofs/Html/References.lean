import Mathlib.Data.List.TakeWhile
import Guidebook.Html.Reference

/-!
# References read back

A reference that a semicolon ends stands for the character of its name or number, for a reader of
markup as for one who only takes the references out of a text. So a text is read back as it was if
every character of it is written as itself or as a reference to it.
-/

namespace Guidebook.Html

/-! ## Names and numbers -/

variable {inAttribute : Bool} {rest : List Char}

private theorem takeWhile_append_semicolon {p : Char → Bool} {word : List Char}
    (h : ∀ c ∈ word, p c = true) (hsemicolon : p ';' = false) :
    (word ++ ';' :: rest).takeWhile p = word := by
  rw [List.takeWhile_append_of_pos h, List.takeWhile_cons_of_neg (by simp [hsemicolon]),
    List.append_nil]

/-- What a text starts with that starts with characters of a class. -/
private theorem append_ne_cons {p : Char → Bool} {word : List Char} {x : Char}
    (hword : word.all p = true) (hx : p x = false) (hne : x ≠ ';') (after : List Char) :
    word ++ ';' :: rest ≠ x :: after := by
  intro heq
  cases word with
  | nil => exact hne (List.cons.inj heq).1.symm
  | cons c cs =>
    have hc := List.all_eq_true.mp hword c List.mem_cons_self
    rw [(List.cons.inj heq).1, hx] at hc
    cases hc

section Names

variable (name : List Char) {found : List Char}
  (hname : (name.all fun c ↦ Text.isLetter c || Text.isDigit c) = true)
  (hfound : namedCharacters? name = some found)

include hname hfound

/-- A name is read up to the semicolon that ends it. -/
theorem readName?_named : readName? (name ++ ';' :: rest) = some (found, true, rest) := by
  simp only [readName?, takeWhile_append_semicolon (List.all_eq_true.mp hname) (by decide),
    List.drop_left, hfound]
  rfl

/-- A name that a semicolon ends. -/
theorem reference?_named : reference? inAttribute (name ++ ';' :: rest) = some (found, rest) := by
  rw [reference?.eq_def]
  split
  · next after heq => exact absurd heq (append_ne_cons hname (by decide) (by decide) after)
  · rw [readName?_named name hname hfound]
    simp

/-- A name is taken out of a text. -/
theorem plainText_named (n : Nat) :
    plainText (n + 1) ('&' :: (name ++ ';' :: rest)) = found ++ plainText n rest := by
  rw [plainText, readName?_named name hname hfound]
  exact fun after heq ↦ append_ne_cons hname (by decide) (by decide) after heq

end Names

/-- A number is read up to the semicolon that ends it. -/
private theorem readNumber?_decimal {digits : List Char} (hne : digits ≠ [])
    (hdigits : digits.all Text.isDigit = true) :
    readNumber? (digits ++ ';' :: rest) = some (numberOf 10 digits, rest) := by
  rw [readNumber?.eq_def]
  split
  · next after heq => exact absurd heq (append_ne_cons hdigits (by decide) (by decide) after)
  · next after heq => exact absurd heq (append_ne_cons hdigits (by decide) (by decide) after)
  · simp only [takeWhile_append_semicolon (List.all_eq_true.mp hdigits) (by decide),
      List.drop_left]
    rw [if_neg (by simpa using hne), dropSemicolon]

/-- A number of base sixteen is read up to the semicolon that ends it. -/
theorem readNumber?_hexadecimal {digits : List Char} (hne : digits ≠ [])
    (hdigits : digits.all Text.isHexDigit = true) :
    readNumber? ('x' :: (digits ++ ';' :: rest)) = some (numberOf 16 digits, rest) := by
  rw [readNumber?]
  simp only [takeWhile_append_semicolon (List.all_eq_true.mp hdigits) (by decide), List.drop_left]
  rw [if_neg (by simpa using hne), dropSemicolon]

/-- A number that a semicolon ends. -/
theorem reference?_numbered (digits : List Char) (hne : digits ≠ [])
    (hdigits : digits.all Text.isDigit = true) :
    reference? inAttribute ('#' :: (digits ++ ';' :: rest)) =
      some ([numberedCharacter (numberOf 10 digits)], rest) := by
  rw [reference?, readNumber?_decimal hne hdigits]
  rfl

/-! ## Texts -/

/-- What an ampersand refers to. -/
theorem decode_reference {found after : List Char} (n : Nat)
    (h : reference? inAttribute rest = some (found, after)) :
    decode inAttribute (n + 1) ('&' :: rest) = found ++ decode inAttribute n after := by
  rw [decode, h]

theorem decode_cons {c : Char} (n : Nat) (h : c ≠ '&') :
    decode inAttribute (n + 1) (c :: rest) = c :: decode inAttribute n rest :=
  decode.eq_4 _ _ _ _ h

@[simp] theorem decode_nil (n : Nat) : decode inAttribute n [] = [] := by cases n <;> rfl

/-- A number is taken out of a text as the character that it stands for. -/
theorem plainText_numbered {number : Nat} {cs : List Char} (n : Nat)
    (h : readNumber? cs = some (number, rest)) (hsilent : isSilent number = false) :
    plainText (n + 1) ('&' :: '#' :: cs) = numberedCharacter number :: plainText n rest := by
  rw [plainText, h]
  simp [hsilent]

theorem plainText_cons {c : Char} (n : Nat) (h : c ≠ '&') :
    plainText (n + 1) (c :: rest) = c :: plainText n rest := by
  rw [plainText]
  · rintro after rfl
    exact absurd rfl h
  · rintro rfl
    exact absurd rfl h

@[simp] theorem plainText_nil (n : Nat) : plainText n [] = [] := by cases n <;> rfl

/-- Reading a text with references: what a semicolon ends stands for its character, and all but
ampersands for itself. -/
structure ReadsReferences (read : Nat → List Char → List Char) : Prop where
  nil (n : Nat) : read n [] = []
  cons {c : Char} (n : Nat) (rest : List Char) (h : c ≠ '&') :
    read (n + 1) (c :: rest) = c :: read n rest
  named (name found : List Char) (n : Nat) (rest : List Char)
    (hname : (name.all fun c ↦ Text.isLetter c || Text.isDigit c) = true)
    (hfound : namedCharacters? name = some found) :
    read (n + 1) ('&' :: (name ++ ';' :: rest)) = found ++ read n rest
  numbered (digits : List Char) (n : Nat) (rest : List Char) (hne : digits ≠ [])
    (hdigits : digits.all Text.isHexDigit = true)
    (hsilent : isSilent (numberOf 16 digits) = false) :
    read (n + 1) ('&' :: '#' :: 'x' :: (digits ++ ';' :: rest)) =
      numberedCharacter (numberOf 16 digits) :: read n rest

theorem readsReferences_decode (inAttribute : Bool) : ReadsReferences (decode inAttribute) where
  nil := decode_nil
  cons n _ h := decode_cons n h
  named name _ n _ hname hfound := decode_reference n (reference?_named name hname hfound)
  numbered digits n rest hne hdigits _ := by
    have hread : reference? inAttribute ('#' :: 'x' :: (digits ++ ';' :: rest)) =
        some ([numberedCharacter (numberOf 16 digits)], rest) := by
      rw [reference?, readNumber?_hexadecimal hne hdigits]
      rfl
    exact decode_reference n hread

theorem readsReferences_plainText : ReadsReferences plainText where
  nil := plainText_nil
  cons n _ h := plainText_cons n h
  named name _ n _ hname hfound := plainText_named name hname hfound n
  numbered _ n _ hne hdigits hsilent :=
    plainText_numbered n (readNumber?_hexadecimal hne hdigits) hsilent

/-- A text whose characters are written one after another is read back by whoever reads each of
them as it was. -/
theorem read_flatMap {read : Nat → List Char → List Char} {write : Char → List Char}
    (hnil : ∀ n, read n [] = [])
    (hwrite : ∀ n c rest, read (n + 1) (write c ++ rest) = c :: read n rest) {text : List Char}
    {n : Nat} (h : text.length ≤ n) : read n (text.flatMap write) = text := by
  induction text generalizing n with
  | nil => exact hnil n
  | cons c cs ih =>
    obtain ⟨m, rfl⟩ : ∃ m, n = m + 1 := Nat.exists_eq_add_one.mpr (Nat.zero_lt_of_lt h)
    rw [List.flatMap_cons, hwrite]
    exact congrArg _ (ih (Nat.le_of_succ_le_succ h))

/-- A text is no longer than it is written. -/
theorem length_le_written {write : Char → List Char} (h : ∀ c, write c ≠ []) (text : List Char) :
    text.length ≤ (text.flatMap write).length := by
  induction text with
  | nil => exact Nat.le_refl 0
  | cons c cs ih =>
    rw [List.flatMap_cons, List.length_append, List.length_cons, Nat.add_comm]
    exact Nat.add_le_add (List.length_pos_iff.mpr (h c)) ih

end Guidebook.Html
