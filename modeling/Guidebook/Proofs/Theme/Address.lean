import Guidebook.Proofs.Html.References
import Guidebook.Proofs.Text.Utf8
import Guidebook.Theme.Markup

/-!
# Addresses in attributes

A text in an attribute is read back as it was. Read as an address, its path ends where a query or a
fragment starts, and a per cent sign with two hexadecimal digits behind it is a byte. A path that is
written for addresses is read back as well; a text that is not written for them is read back exactly
if it stands for itself.
-/

namespace Guidebook

namespace Theme

/-! ## References -/

/-- A character of text in markup is read back. -/
theorem decode_escapeChar {inAttribute : Bool} (n : Nat) (c : Char) (rest : List Char) :
    Html.decode inAttribute (n + 1) (escapeChar c ++ rest) =
      c :: Html.decode inAttribute n rest := by
  unfold escapeChar
  split
  · exact Html.decode_reference n
      (Html.reference?_named "amp".toList (by decide +kernel) rfl)
  · exact Html.decode_reference n
      (Html.reference?_named "lt".toList (by decide +kernel) rfl)
  · exact Html.decode_reference n
      (Html.reference?_named "gt".toList (by decide +kernel) rfl)
  · exact Html.decode_reference n
      (Html.reference?_numbered "34".toList (by decide +kernel) (by decide +kernel))
  · exact Html.decode_reference n
      (Html.reference?_numbered "39".toList (by decide +kernel) (by decide +kernel))
  · next hamp _ _ _ _ => exact Html.decode_cons n hamp

/-- What an attribute says whose markup is this. -/
def attributeText (value : List Char) : List Char := Html.decode true value.length value

/-- What a text between tags says whose markup is this. -/
def markedText (markup : List Char) : List Char := Html.decode false markup.length markup

private theorem decode_escape {inAttribute : Bool} {n : Nat} {text : List Char}
    (h : text.length ≤ n) : Html.decode inAttribute n (escape text) = text :=
  Html.read_flatMap Html.decode_nil decode_escapeChar h

/-- Text in markup is no shorter. -/
theorem length_le_escape (text : List Char) : text.length ≤ (escape text).length := by
  refine Html.length_le_written (fun c ↦ ?_) text
  unfold escapeChar
  split <;> simp

/-- A text in an attribute is read back. -/
@[simp] theorem attributeText_escape (text : List Char) : attributeText (escape text) = text :=
  decode_escape (length_le_escape text)

/-- A text between tags is read back. -/
@[simp] theorem markedText_escape (text : List Char) : markedText (escape text) = text :=
  decode_escape (length_le_escape text)

/-! ## Addresses -/

/-- The bytes that an address writes: a per cent sign with two hexadecimal digits behind it is a
byte, any other character its own bytes. -/
def addressBytes : List Char → List UInt8
  | [] => []
  | '%' :: high :: low :: rest =>
    if Text.isHexDigit high && Text.isHexDigit low then
      UInt8.ofNat (Html.digitValue high * 16 + Html.digitValue low) :: addressBytes rest
    else Utf8.encodeChar '%' ++ addressBytes (high :: low :: rest)
  | c :: rest => Utf8.encodeChar c ++ addressBytes rest

/-- Whether a character belongs to the path of an address instead of ending it. -/
def isPathChar (c : Char) : Bool := c != '?' && c != '#'

/-- A class without the characters that end a path. -/
theorem isPathChar_of_class {p : Char → Bool} {c : Char} (hquery : p '?' = false)
    (hfragment : p '#' = false) (h : p c = true) : isPathChar c = true := by
  rw [isPathChar, Bool.and_eq_true, bne_iff_ne, bne_iff_ne]
  constructor
  · rintro rfl
    rw [h] at hquery
    cases hquery
  · rintro rfl
    rw [h] at hfragment
    cases hfragment

/-- What the path of an address names. -/
def addressed (address : List Char) : Except Utf8.Fault (List Char) :=
  Utf8.decode (addressBytes (address.takeWhile isPathChar))

/-- Whether a text stands for itself in an address: it does not end a path, and no per cent sign in
it has two hexadecimal digits behind it. -/
def standsForItself : List Char → Bool
  | [] => true
  | '%' :: high :: low :: rest =>
    !(Text.isHexDigit high && Text.isHexDigit low) && standsForItself (high :: low :: rest)
  | c :: rest => isPathChar c && standsForItself rest

theorem addressBytes_cons {c : Char} (rest : List Char) (h : c ≠ '%') :
    addressBytes (c :: rest) = Utf8.encodeChar c ++ addressBytes rest := by
  rw [addressBytes.eq_def]
  split
  · next heq => cases heq
  · next heq => exact absurd (List.cons.inj heq).1 h
  · next heq =>
    obtain ⟨rfl, rfl⟩ := List.cons.inj heq
    rfl

/-- Characters in which no per cent sign is are their own bytes. -/
theorem addressBytes_append_of_ne {front : List Char} (h : ∀ c ∈ front, c ≠ '%')
    (rest : List Char) : addressBytes (front ++ rest) = Utf8.encode front ++ addressBytes rest := by
  induction front with
  | nil => rfl
  | cons c front ih =>
    rw [List.forall_mem_cons] at h
    rw [List.cons_append, addressBytes_cons _ h.1, ih h.2, ← List.append_assoc]
    rfl

theorem standsForItself_cons {c : Char} (rest : List Char) (h : c ≠ '%') :
    standsForItself (c :: rest) = (isPathChar c && standsForItself rest) := by
  rw [standsForItself.eq_def]
  split
  · next heq => cases heq
  · next heq => exact absurd (List.cons.inj heq).1 h
  · next heq =>
    obtain ⟨rfl, rfl⟩ := List.cons.inj heq
    rfl

/-- A per cent sign that no two hexadecimal digits follow is a character as any other. -/
theorem addressBytes_percent {rest : List Char}
    (h : ∀ high low back, rest = high :: low :: back →
      (Text.isHexDigit high && Text.isHexDigit low) = false) :
    addressBytes ('%' :: rest) = Utf8.encodeChar '%' ++ addressBytes rest := by
  match rest with
  | [] => rfl
  | [_] => rfl
  | high :: low :: back => rw [addressBytes, h high low back rfl, if_neg Bool.false_ne_true]

/-- A slash ends what a per cent sign writes. -/
theorem addressBytes_append (front back : List Char) :
    addressBytes (front ++ '/' :: back) =
      addressBytes front ++ Utf8.encodeChar '/' ++ addressBytes back := by
  induction front using addressBytes.induct with
  | case1 => exact addressBytes_cons back (by decide)
  | case2 high low rest hhex ih =>
    simp only [List.cons_append, addressBytes, hhex, if_true, ih]
  | case3 high low rest hhex ih =>
    have hhex := Bool.eq_false_iff.mpr hhex
    simp only [List.cons_append, addressBytes, hhex, Bool.false_eq_true, if_false] at ih ⊢
    rw [ih]
    simp only [List.append_assoc]
  | case4 c rest hshort ih =>
    by_cases hc : c = '%'
    · subst hc
      -- the slash is no digit of a byte
      have hslash : ∀ high low after, rest ++ '/' :: back = high :: low :: after →
          (Text.isHexDigit high && Text.isHexDigit low) = false := by
        intro high low after heq
        have hdigit : Text.isHexDigit '/' = false := by decide
        match rest with
        | [] =>
          rw [← (List.cons.inj heq).1, hdigit, Bool.false_and]
        | [_] =>
          rw [← (List.cons.inj (List.cons.inj heq).2).1, hdigit, Bool.and_false]
        | x :: y :: rest => exact (hshort x y rest rfl rfl).elim
      rw [List.cons_append, addressBytes_percent hslash, addressBytes_percent, ih]
      · simp only [List.append_assoc]
      · exact fun high low after heq ↦ (hshort high low after rfl heq).elim
    · rw [List.cons_append, addressBytes_cons _ hc, addressBytes_cons _ hc, ih]
      simp only [List.append_assoc]

/-- An address writes no more characters than it has. -/
theorem leads_addressBytes_le (cs : List Char) : Utf8.leads (addressBytes cs) ≤ cs.length := by
  induction cs using addressBytes.induct with
  | case1 => exact Nat.le_refl 0
  | case2 high low rest hhex ih =>
    have hbyte : Utf8.leads [UInt8.ofNat (Html.digitValue high * 16 + Html.digitValue low)] ≤ 1 :=
      List.countP_le_length
    rw [addressBytes, if_pos hhex, ← List.singleton_append, Utf8.leads_append]
    simp only [List.length_cons]
    omega
  | case3 high low rest hhex ih =>
    have hchar := Utf8.leads_encodeChar_le '%'
    rw [addressBytes, if_neg hhex, Utf8.leads_append]
    simp only [List.length_cons] at ih ⊢
    omega
  | case4 c rest hshort ih =>
    have hchar := Utf8.leads_encodeChar_le c
    rw [addressBytes.eq_3 _ _ hshort, Utf8.leads_append, List.length_cons]
    omega

/-- A text whose address writes as many characters as it has stands for itself. -/
theorem standsForItself_of_leads {cs : List Char} (hpath : ∀ c ∈ cs, isPathChar c = true)
    (h : cs.length ≤ Utf8.leads (addressBytes cs)) : standsForItself cs = true := by
  induction cs using addressBytes.induct with
  | case1 => rfl
  | case2 high low rest hhex ih =>
    have hbyte : Utf8.leads [UInt8.ofNat (Html.digitValue high * 16 + Html.digitValue low)] ≤ 1 :=
      List.countP_le_length
    have hrest := leads_addressBytes_le rest
    rw [addressBytes, if_pos hhex, ← List.singleton_append (l := addressBytes rest),
      Utf8.leads_append] at h
    simp only [List.length_cons] at h
    omega
  | case3 high low rest hhex ih =>
    have hchar := Utf8.leads_encodeChar_le '%'
    rw [addressBytes, if_neg hhex, Utf8.leads_append] at h
    rw [standsForItself, Bool.eq_false_iff.mpr hhex, Bool.not_false, Bool.true_and]
    refine ih (fun c hc ↦ hpath c (List.mem_cons_of_mem _ hc)) ?_
    simp only [List.length_cons] at h ⊢
    omega
  | case4 c rest hshort ih =>
    have hchar := Utf8.leads_encodeChar_le c
    rw [addressBytes.eq_3 _ _ hshort, Utf8.leads_append, List.length_cons] at h
    rw [standsForItself.eq_3 _ _ hshort, hpath c List.mem_cons_self, Bool.true_and]
    exact ih (fun c hc ↦ hpath c (List.mem_cons_of_mem _ hc)) (by omega)

/-- A text that stands for itself is all path, and its bytes are its own. -/
theorem addressBytes_of_standsForItself {cs : List Char} (h : standsForItself cs = true) :
    addressBytes cs = Utf8.encode cs ∧ ∀ c ∈ cs, isPathChar c = true := by
  induction cs using standsForItself.induct with
  | case1 => exact ⟨rfl, by simp⟩
  | case2 high low rest ih =>
    rw [standsForItself, Bool.and_eq_true, Bool.not_eq_true'] at h
    obtain ⟨hbytes, hpath⟩ := ih h.2
    refine ⟨?_, List.forall_mem_cons.mpr ⟨by decide, hpath⟩⟩
    rw [addressBytes, h.1, if_neg Bool.false_ne_true, hbytes]
    rfl
  | case3 c rest hshort ih =>
    rw [standsForItself.eq_3 _ _ hshort, Bool.and_eq_true] at h
    obtain ⟨hbytes, hpath⟩ := ih h.2
    refine ⟨?_, List.forall_mem_cons.mpr ⟨h.1, hpath⟩⟩
    rw [addressBytes.eq_3 _ _ hshort, hbytes]
    rfl

/-- Whether digits write a byte in hexadecimal. -/
private def writesByte (n : Nat) : List Char → Bool
  | [high, low] => Text.isHexDigit high && Text.isHexDigit low &&
      Html.digitValue high * 16 + Html.digitValue low == n
  | _ => false

private theorem writesByte_hexDigits :
    ∀ n < 256, writesByte n ((Text.hexDigits 2 n).flatMap Text.upperChar) = true := by
  decide +kernel

/-- A byte of a path is written as the character it is, or with two hexadecimal digits. -/
theorem encodeByte_cases (b : UInt8) :
    (∃ c, encodeByte b = [c] ∧ c ≠ '%' ∧ isPathChar c = true ∧ Utf8.encodeChar c = [b]) ∨
    ∃ high low, encodeByte b = ['%', high, low] ∧
      (Text.isHexDigit high && Text.isHexDigit low) = true ∧
      UInt8.ofNat (Html.digitValue high * 16 + Html.digitValue low) = b := by
  have hb : UInt8.ofNat b.toNat = b := UInt8.ofNat_toNat
  rw [encodeByte]
  split
  · next hplain =>
    rw [isPlainByte, Bool.and_eq_true, decide_eq_true_eq] at hplain
    obtain ⟨hlow, hclass⟩ := hplain
    have hlow : b.toNat < 0x80 := hlow
    have hchar : (Char.ofNat b.toNat).toNat = b.toNat := by
      rw [Char.ofNat, dif_pos (.inl (Nat.lt_trans hlow (by decide)))]
      rfl
    refine .inl ⟨_, rfl, ?_, ?_, by rw [Utf8.encodeChar, hchar, if_pos hlow, hb]⟩
    · intro heq
      rw [heq] at hclass
      exact absurd hclass (by decide)
    · exact isPathChar_of_class (p := fun c ↦ Text.isLetter c || Text.isDigit c ||
        ['_', '.', '-', '~', '/'].contains c) (by decide) (by decide) hclass
  · have hdigits := writesByte_hexDigits b.toNat b.toNat_lt
    generalize (Text.hexDigits 2 b.toNat).flatMap Text.upperChar = digits at hdigits
    rw [writesByte.eq_def] at hdigits
    split at hdigits
    · next high low =>
      rw [Bool.and_eq_true, beq_iff_eq] at hdigits
      exact .inr ⟨high, low, rfl, hdigits.1, by rw [hdigits.2, hb]⟩
    · cases hdigits

/-- A path in an address is read back. -/
theorem addressBytes_urlencode (path rest : List Char) :
    addressBytes (urlencode path ++ rest) = Utf8.encode path ++ addressBytes rest := by
  rw [urlencode]
  induction Utf8.encode path with
  | nil => rfl
  | cons b bytes ih =>
    rw [List.flatMap_cons, List.append_assoc, List.cons_append, ← ih]
    rcases encodeByte_cases b with ⟨c, heq, hc, -, hbytes⟩ | ⟨high, low, heq, hhex, hvalue⟩
    · rw [heq, List.singleton_append, addressBytes_cons _ hc, hbytes, List.singleton_append]
    · rw [heq, List.cons_append, List.cons_append, List.singleton_append, addressBytes,
        if_pos hhex, hvalue]

/-- A path in an address does not end it. -/
theorem isPathChar_of_mem_urlencode {path : List Char} {c : Char} (h : c ∈ urlencode path) :
    isPathChar c = true := by
  have hdigit {d : Char} (hd : Text.isHexDigit d = true) : isPathChar d = true :=
    isPathChar_of_class (by decide) (by decide) hd
  obtain ⟨b, -, hc⟩ := List.mem_flatMap.mp h
  rcases encodeByte_cases b with ⟨d, heq, -, hd, -⟩ | ⟨high, low, heq, hhex, -⟩
  · rw [heq, List.mem_singleton] at hc
    exact hc ▸ hd
  · rw [Bool.and_eq_true] at hhex
    rw [heq, List.mem_cons, List.mem_cons, List.mem_singleton] at hc
    rcases hc with rfl | rfl | rfl
    · decide
    · exact hdigit hhex.1
    · exact hdigit hhex.2

/-- What is written behind a slash is read back behind a text exactly if the text stands for
itself. -/
theorem addressed_eq_ok_iff (front : List Char) {back name : List Char}
    (hback : ∀ c ∈ back, isPathChar c = true) (hbytes : addressBytes back = Utf8.encode name) :
    addressed (front ++ '/' :: back) = .ok (front ++ '/' :: name) ↔
      standsForItself front = true := by
  have hall : ∀ c ∈ '/' :: back, isPathChar c = true :=
    List.forall_mem_cons.mpr ⟨by decide, hback⟩
  constructor
  · intro h
    have hlength := Utf8.length_le_of_decode h
    by_cases hpath : ∀ c ∈ front, isPathChar c = true
    · refine standsForItself_of_leads hpath ?_
      have hname := Utf8.leads_encode_le name
      have hslash := Utf8.leads_encodeChar_le '/'
      rw [List.takeWhile_append_of_pos hpath, List.takeWhile_eq_self_iff.mpr hall,
        addressBytes_append, hbytes] at hlength
      simp only [Utf8.leads_append, List.length_append, List.length_cons] at hlength
      omega
    · -- the path ends before the slash and is too short
      have hcut : (front.takeWhile isPathChar).length ≠ front.length := fun heq ↦
        hpath (List.takeWhile_eq_self_iff.mp ((List.takeWhile_prefix _).eq_of_length heq))
      have hle := (List.takeWhile_prefix isPathChar (l := front)).length_le
      have hshort := leads_addressBytes_le (front.takeWhile isPathChar)
      rw [List.takeWhile_append, if_neg hcut] at hlength
      simp only [List.length_append, List.length_cons] at hlength
      omega
  · intro h
    obtain ⟨hfront, hpath⟩ := addressBytes_of_standsForItself h
    rw [addressed, List.takeWhile_append_of_pos hpath, List.takeWhile_eq_self_iff.mpr hall,
      addressBytes_append, hfront, hbytes, ← Utf8.decode_encode (front ++ '/' :: name)]
    simp [Utf8.encode]

end Theme

end Guidebook
