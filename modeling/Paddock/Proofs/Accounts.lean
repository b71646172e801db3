import Mathlib.Data.List.DropRight
import Mathlib.Tactic.IntervalCases
import Paddock.Proofs.Json.Keys

/-! Which texts name an account: digits, marked or not, and otherwise a label. -/
namespace Paddock

open AccountId (isHexDigit mark)

/-! ### Hexadecimal digits -/

namespace Hex

variable {c : Char} {cs : List Char} {byte : UInt8} {bytes out : List UInt8} {position n : Nat}

theorem isHexDigit_iff : isHexDigit c = true ↔
    48 ≤ c.toNat ∧ c.toNat ≤ 57 ∨ 97 ≤ c.toNat ∧ c.toNat ≤ 102 ∨ 65 ≤ c.toNat ∧ c.toNat ≤ 70 := by
  simp only [isHexDigit, Bool.or_eq_true, Bool.and_eq_true, decide_eq_true_eq, Char.le_def, UInt32.le_iff_toNat_le]
  exact or_assoc

/-- A hexadecimal digit is one byte of text, and what it stands for is written as the digit in lower case. -/
theorem exists_byte_of_isHexDigit (hc : isHexDigit c = true) : ∃ byte value,
    String.utf8EncodeChar c = [byte] ∧ digitValue? byte = some value ∧ value.toNat < 16 ∧
      digit value.toNat = c.toLower := by
  have hchar : c = Char.ofNat c.toNat := c.ofNat_toNat.symm
  have hrange := isHexDigit_iff.mp hc
  rw [hchar]
  generalize c.toNat = k at hrange
  rcases hrange with ⟨hlow, hhigh⟩ | ⟨hlow, hhigh⟩ | ⟨hlow, hhigh⟩ <;> interval_cases k <;>
    exact ⟨_, _, rfl, rfl, by decide, by decide⟩

theorem digitValue?_of_large (hbyte : 0x80 ≤ byte.toNat) : digitValue? byte = none := by
  simp only [digitValue?, UInt8.le_iff_toNat_le]
  rw [if_neg, if_neg, if_neg] <;> simp <;> omega

/-- The bytes of a character beyond ASCII are all large. -/
theorem exists_large_byte (hc : 0x80 ≤ c.toNat) : ∃ byte ∈ String.utf8EncodeChar c, 0x80 ≤ byte.toNat := by
  rcases c.utf8Size_eq with h | h | h | h
  · have := Char.utf8Size_eq_one_iff.mp h
    have := UInt32.le_iff_toNat_le.mp this
    change c.toNat ≤ 127 at this
    omega
  · refine ⟨_, by rw [String.utf8EncodeChar_eq_cons_cons h]; exact List.mem_cons_self, ?_⟩
    rw [UInt8.toNat_or]
    exact Nat.le_trans (by decide) Nat.right_le_or
  · refine ⟨_, by rw [String.utf8EncodeChar_eq_cons_cons_cons h]; exact List.mem_cons_self, ?_⟩
    rw [UInt8.toNat_or]
    exact Nat.le_trans (by decide) Nat.right_le_or
  · refine ⟨_, by rw [String.utf8EncodeChar_eq_cons_cons_cons_cons h]; exact List.mem_cons_self, ?_⟩
    rw [UInt8.toNat_or]
    exact Nat.le_trans (by decide) Nat.right_le_or

theorem isHexDigit_of_bytes (h : ∀ byte ∈ String.utf8EncodeChar c, ∃ value, digitValue? byte = some value) :
    isHexDigit c = true := by
  have hsmall : c.toNat < 0x80 := by
    apply Nat.lt_of_not_le
    intro hlarge
    obtain ⟨byte, hbyte, hvalue⟩ := exists_large_byte hlarge
    obtain ⟨value, hdigit⟩ := h byte hbyte
    rw [digitValue?_of_large hvalue] at hdigit
    cases hdigit
  have hone : String.utf8EncodeChar c = [c.val.toUInt8] :=
    String.utf8EncodeChar_eq_singleton (Char.utf8Size_eq_one_iff.mpr (UInt32.le_iff_toNat_le.mpr (by
      change c.toNat ≤ 127
      omega)))
  obtain ⟨value, hvalue⟩ := h _ (hone ▸ List.mem_cons_self)
  have hbyte : c.val.toUInt8.toNat = c.toNat := by
    rw [UInt32.toNat_toUInt8]
    exact Nat.mod_eq_of_lt (Nat.lt_of_lt_of_le hsmall (by decide))
  apply isHexDigit_iff.mpr
  by_contra hrange
  rw [digitValue?] at hvalue
  simp only [UInt8.le_iff_toNat_le, hbyte] at hvalue
  rw [if_neg, if_neg, if_neg] at hvalue
  · cases hvalue
  all_goals simp; omega

theorem utf8_cons (c : Char) (cs : List Char) :
    utf8 (String.ofList (c :: cs)) = String.utf8EncodeChar c ++ utf8 (String.ofList cs) := by
  simp [utf8]

theorem length_utf8_of_digits (h : ∀ c ∈ cs, isHexDigit c = true) : (utf8 (String.ofList cs)).length = cs.length := by
  induction cs with
  | nil => rfl
  | cons c cs ih =>
    obtain ⟨hc, hcs⟩ := List.forall_mem_cons.mp h
    obtain ⟨byte, _, hbyte, -⟩ := exists_byte_of_isHexDigit hc
    rw [utf8_cons, hbyte, List.singleton_append, List.length_cons, ih hcs, List.length_cons]

theorem digitAt_eq_ok_iff {value : UInt8} : digitAt byte position = .ok value ↔ digitValue? byte = some value := by
  unfold digitAt
  cases digitValue? byte <;> simp

/-- Bytes that are read in pairs are all digits. -/
theorem digits_of_decodePairs (h : decodePairs position bytes = .ok out) (heven : bytes.length % 2 = 0) :
    ∀ byte ∈ bytes, ∃ value, digitValue? byte = some value := by
  fun_induction decodePairs position bytes generalizing out with
  | case1 position high low rest ih =>
    simp only [bind_eq_ok_iff, digitAt_eq_ok_iff] at h
    obtain ⟨first, hfirst, second, hsecond, tail, htail, -⟩ := h
    rw [List.length_cons, List.length_cons] at heven
    have hrest := ih htail (by omega)
    exact List.forall_mem_cons.mpr ⟨⟨first, hfirst⟩, List.forall_mem_cons.mpr ⟨⟨second, hsecond⟩, hrest⟩⟩
  | case2 bytes _ hpairs =>
    match bytes with
    | [] => exact List.forall_mem_nil _
    | [_] => cases heven
    | high :: low :: rest => exact absurd rfl (hpairs high low rest)

/-- Digits in pairs are read, and what is read is written with the same digits in lower case. -/
theorem exists_decodePairs (position : Nat) : (cs : List Char) → (∀ c ∈ cs, isHexDigit c = true) → cs.length % 2 = 0 →
    ∃ out, decodePairs position (utf8 (String.ofList cs)) = .ok out ∧ encode out = cs.map Char.toLower
  | [], _, _ => ⟨[], rfl, rfl⟩
  | [_], _, heven => by cases heven
  | high :: low :: cs, h, heven => by
    obtain ⟨hhigh, h⟩ := List.forall_mem_cons.mp h
    obtain ⟨hlow, h⟩ := List.forall_mem_cons.mp h
    rw [List.length_cons, List.length_cons] at heven
    obtain ⟨out, hout, htext⟩ := exists_decodePairs (position + 2) cs h (by omega)
    obtain ⟨first, m, hfirst, hm, hmlt, hmtext⟩ := exists_byte_of_isHexDigit hhigh
    obtain ⟨second, n, hsecond, hn, hnlt, hntext⟩ := exists_byte_of_isHexDigit hlow
    have hread : decodePairs position (utf8 (String.ofList (high :: low :: cs))) = .ok ((m * 16 + n) :: out) := by
      rw [utf8_cons, utf8_cons, hfirst, hsecond]
      simp only [List.singleton_append, decodePairs, digitAt_eq_ok_iff.mpr hm, digitAt_eq_ok_iff.mpr hn, hout]
      rfl
    have hsum : (m * 16 + n).toNat = m.toNat * 16 + n.toNat := by
      simp only [UInt8.toNat_add, UInt8.toNat_mul]
      change (m.toNat * 16 % 256 + n.toNat) % 256 = _
      omega
    have hbyte : encodeByte (m * 16 + n) = [high.toLower, low.toLower] := by
      rw [encodeByte, hsum, ← hmtext, ← hntext]
      congr 3 <;> omega
    refine ⟨_, hread, ?_⟩
    rw [encode, List.flatMap_cons, hbyte, ← encode, htext]
    rfl

theorem length_encode (bytes : List UInt8) : (encode bytes).length = 2 * bytes.length := by
  induction bytes with
  | nil => rfl
  | cons byte bytes ih =>
    have hcons : encode (byte :: bytes) = encodeByte byte ++ encode bytes := List.flatMap_cons
    rw [hcons, List.length_append, ih, List.length_cons]
    change 2 + 2 * bytes.length = _
    omega

theorem encode_inj (h : encode bytes = encode out) : bytes = out := by
  have hread := decode_encode bytes
  rw [h, decode_encode out] at hread
  exact (Except.ok.inj hread).symm

/-- A text is read as bytes just where it is all digits, in either case, that spell them. -/
theorem decode_eq_ok_iff : decode (utf8 (String.ofList cs)) = .ok out ↔
    (∀ c ∈ cs, isHexDigit c = true) ∧ encode out = cs.map Char.toLower := by
  unfold decode
  constructor
  · intro h
    split at h
    · cases h
    · next heven =>
      have hdigits : ∀ c ∈ cs, isHexDigit c = true := by
        intro c hc
        apply isHexDigit_of_bytes
        intro byte hbyte
        apply digits_of_decodePairs h (by omega)
        simp only [utf8, String.toList_ofList]
        exact List.mem_flatMap.mpr ⟨c, hc, hbyte⟩
      rw [length_utf8_of_digits hdigits] at heven
      obtain ⟨read, hread, htext⟩ := exists_decodePairs 0 cs hdigits (by omega)
      obtain rfl := Except.ok.inj (hread.symm.trans h)
      exact ⟨hdigits, htext⟩
  · rintro ⟨hdigits, htext⟩
    have hlength : cs.length = 2 * out.length := by
      rw [← length_encode, htext, List.length_map]
    obtain ⟨read, hread, htext'⟩ := exists_decodePairs 0 cs hdigits (by omega)
    obtain rfl := encode_inj (htext'.trans htext.symm)
    rw [length_utf8_of_digits hdigits, if_neg (by omega)]
    exact hread

end Hex

/-! ### Text without the blanks around it -/

namespace Text

variable {text name before after : List Char}

/-- What is left of a text without the blanks at either end. -/
structure Trimmed (text name : List Char) : Prop where
  around : ∃ before after, text = before ++ name ++ after ∧ (∀ c ∈ before, isBlank c = true) ∧
    ∀ c ∈ after, isBlank c = true
  first : ∀ c ∈ name.head?, isBlank c = false
  last : ∀ c ∈ name.getLast?, isBlank c = false

theorem trim_eq (text : List Char) : trim text = (text.dropWhile isBlank).rdropWhile isBlank := rfl

theorem dropWhile_of_head (h : ∀ c ∈ name.head?, isBlank c = false) (hne : name ≠ []) (after : List Char) :
    (name ++ after).dropWhile isBlank = name ++ after := by
  cases name with
  | nil => exact absurd rfl hne
  | cons c rest =>
    have hc := h c rfl
    rw [List.cons_append, List.dropWhile_cons_of_neg]
    rw [hc]
    exact Bool.false_ne_true

theorem Trimmed.eq_trim (h : Trimmed text name) : trim text = name := by
  obtain ⟨⟨before, after, rfl, hbefore, hafter⟩, hfirst, hlast⟩ := h
  rw [trim_eq, List.append_assoc, List.dropWhile_append_of_pos hbefore]
  by_cases hne : name = []
  · subst hne
    rw [List.nil_append, List.dropWhile_eq_nil_iff.mpr hafter]
    rfl
  · rw [dropWhile_of_head hfirst hne, List.rdropWhile, List.reverse_append, List.dropWhile_append_of_pos]
    · have hhead : ∀ c ∈ name.reverse.head?, isBlank c = false := by rwa [List.head?_reverse]
      have hback := dropWhile_of_head hhead (List.reverse_ne_nil_iff.mpr hne) []
      rw [List.append_nil] at hback
      rw [hback, List.reverse_reverse]
    · intro c hc
      exact hafter c (List.mem_reverse.mp hc)

theorem trimmed_trim (text : List Char) : Trimmed text (trim text) := by
  rw [trim_eq]
  refine ⟨⟨text.takeWhile isBlank, (text.dropWhile isBlank).rtakeWhile isBlank, ?_, ?_, ?_⟩, ?_, ?_⟩
  · rw [List.append_assoc, List.rdropWhile_append_rtakeWhile, List.takeWhile_append_dropWhile]
  · intro c hc
    exact List.mem_takeWhile_imp hc
  · intro c hc
    exact List.mem_rtakeWhile_imp hc
  · intro c hc
    obtain ⟨after, hsplit⟩ := List.rdropWhile_prefix isBlank (text.dropWhile isBlank)
    have hhead : (text.dropWhile isBlank).head? = some c := by
      rw [← hsplit, List.head?_append_of_ne_nil _ (List.ne_nil_of_mem (List.mem_of_mem_head? hc))]
      exact hc
    have hstop := List.head?_dropWhile_not isBlank text
    rw [hhead] at hstop
    exact hstop
  · intro c hc
    have hne := List.ne_nil_of_mem (List.mem_of_mem_getLast? hc)
    have hstop := List.rdropWhile_last_not isBlank _ hne
    rw [List.getLast?_eq_some_getLast hne] at hc
    obtain rfl := Option.mem_some_iff.mp hc
    exact Bool.eq_false_iff.mpr hstop

end Text

/-! ### Accounts as they are written -/

namespace AccountId

variable {hash : Hasher} {text name : String} {l rest digits : List Char} {a b : AccountId}

theorem stripMark_eq_some_iff : stripMark mark l = some rest ↔ l = mark ++ rest := by
  unfold stripMark
  split
  · next hmark =>
    obtain ⟨tail, rfl⟩ := List.isPrefixOf_iff_prefix.mp hmark
    simp only [List.drop_left, Option.some.injEq, List.append_cancel_left_eq]
  · next hmark =>
    refine ⟨nofun, ?_⟩
    rintro rfl
    exact absurd (List.isPrefixOf_iff_prefix.mpr (List.prefix_append _ _)) hmark

theorem isSome_stripMark_iff : (stripMark mark l).isSome = true ↔ mark <+: l := by
  simp only [Option.isSome_iff_exists, stripMark_eq_some_iff]
  exact ⟨fun ⟨rest, h⟩ => ⟨rest, h.symm⟩, fun ⟨rest, h⟩ => ⟨rest, h.symm⟩⟩

/-- Sixty-four digits, and one mark before them or none. -/
structure Spells (l digits : List Char) : Prop where
  form : l = digits ∨ l = mark ++ digits
  count : digits.length = 64
  digits : ∀ c ∈ digits, isHexDigit c = true

/-- A mark ends with what is no digit. -/
theorem stripMark_digits (h : ∀ c ∈ digits, isHexDigit c = true) : stripMark mark digits = none := by
  cases hmark : stripMark mark digits with
  | none => rfl
  | some rest =>
    have hcolon : ':' ∈ digits := by
      rw [stripMark_eq_some_iff.mp hmark]
      exact List.mem_append_left _ (by decide)
    exact absurd (h _ hcolon) (by decide)

theorem unmarked_or (l : List Char) :
    l = (stripMark mark l).getD l ∨ l = mark ++ (stripMark mark l).getD l := by
  cases hmark : stripMark mark l with
  | none => exact .inl rfl
  | some rest => exact .inr (stripMark_eq_some_iff.mp hmark)

theorem Spells.unmarked (h : Spells l digits) : (stripMark mark l).getD l = digits := by
  rcases h.form with rfl | rfl
  · rw [stripMark_digits h.digits, Option.getD_none]
  · rw [stripMark_eq_some_iff.mpr rfl, Option.getD_some]

theorem parse_eq_ok_iff : parse text = .ok a ↔
    Hex.decode (utf8 (String.ofList ((stripMark mark text.toList).getD text.toList))) = .ok a.digest.bytes := by
  obtain ⟨digest, hlength⟩ := a
  simp only [parse]
  constructor
  · intro h
    split at h
    · cases h
    · next bytes hbytes =>
      unfold Digest.ofBytes? at h
      split at h
      · next digest hdigest =>
        split at hdigest
        · cases h
          cases hdigest
          exact hbytes
        · cases hdigest
      · cases h
  · intro h
    simp only [h, Digest.ofBytes?, hlength, dif_pos]

/-- Sixty-four digits are those of an account, in lower case. -/
theorem Spells.exists_parse (h : Spells text.toList digits) :
    ∃ a, parse text = .ok a ∧ a.toHex.toList = digits.map Char.toLower := by
  have hcount := h.count
  obtain ⟨out, hout, hwritten⟩ := Hex.exists_decodePairs 0 digits h.digits (by omega)
  have hlength : out.length = 32 := by
    have hwidth := congrArg List.length hwritten
    rw [Hex.length_encode, List.length_map] at hwidth
    omega
  refine ⟨⟨⟨out, hlength⟩⟩, ?_, ?_⟩
  · rw [parse_eq_ok_iff, h.unmarked]
    exact Hex.decode_eq_ok_iff.mpr ⟨h.digits, hwritten⟩
  · rw [toHex, Digest.toHex, String.toList_ofList]
    exact hwritten

theorem exists_spells (h : parse text = .ok a) : ∃ digits, Spells text.toList digits := by
  obtain ⟨hdigits, hwritten⟩ := Hex.decode_eq_ok_iff.mp (parse_eq_ok_iff.mp h)
  have hcount := congrArg List.length hwritten
  rw [Hex.length_encode, a.digest.length_bytes, List.length_map] at hcount
  exact ⟨_, unmarked_or text.toList, hcount.symm, hdigits⟩

theorem parse_marked (a : AccountId) : parse (String.ofList (mark ++ a.toHex.toList)) = .ok a := by
  rw [parse_eq_ok_iff, String.toList_ofList, stripMark_eq_some_iff.mpr rfl, Option.getD_some, toHex, Digest.toHex,
    String.toList_ofList]
  exact Hex.decode_encode a.digest.bytes

/-! ### Accounts as people name them -/

/-- The test before the digits are read lets through just what is then read. -/
theorem exists_spells_iff : (∃ digits, Spells l digits) ↔
    (utf8 (String.ofList ((stripMark mark l).getD l))).length = 64 ∧
      ((stripMark mark l).getD l).all isHexDigit = true := by
  rw [List.all_eq_true]
  constructor
  · rintro ⟨digits, hspells⟩
    rw [hspells.unmarked, Hex.length_utf8_of_digits hspells.digits]
    exact ⟨hspells.count, hspells.digits⟩
  · rintro ⟨hcount, hdigits⟩
    rw [Hex.length_utf8_of_digits hdigits] at hcount
    exact ⟨_, unmarked_or l, hcount, hdigits⟩

theorem named_of_parse (hash : Hasher) (htrim : Text.Trimmed text.toList name.toList) (hread : parse name = .ok a) :
    named hash text = .ok a := by
  obtain ⟨digits, hspells⟩ := exists_spells hread
  have htest := exists_spells_iff.mp ⟨digits, hspells⟩
  have hne : name.toList.isEmpty = false := by
    have hcount := hspells.count
    rcases hspells.form with hform | hform <;> rw [hform] <;> cases digits <;> simp_all [mark]
  have hdigits : parse (String.ofList digits) = .ok a := by
    have hself := parse_eq_ok_iff.mp hread
    rw [parse_eq_ok_iff, String.toList_ofList, stripMark_digits hspells.digits, Option.getD_none]
    rwa [hspells.unmarked] at hself
  simp only [named, htrim.eq_trim, hne, Bool.false_eq_true, if_false, htest, and_self, if_true]
  rw [hspells.unmarked, hdigits]
  rfl

theorem named_of_unread (hash : Hasher) (htrim : Text.Trimmed text.toList name.toList)
    (hread : ∀ a, parse name ≠ .ok a) :
    named hash text = if name = "" then .error .empty else if mark <+: name.toList then .error (.invalidId name)
      else .ok (ofLabel hash name) := by
  have htest : ¬ ((utf8 (String.ofList ((stripMark mark name.toList).getD name.toList))).length = 64 ∧
      ((stripMark mark name.toList).getD name.toList).all isHexDigit = true) := by
    intro htest
    obtain ⟨digits, hspells⟩ := exists_spells_iff.mpr htest
    obtain ⟨a, ha, -⟩ := hspells.exists_parse
    exact hread a ha
  have hempty : name.toList.isEmpty = true ↔ name = "" := by
    rw [List.isEmpty_iff, String.toList_eq_nil_iff]
  simp only [named, htrim.eq_trim, if_neg htest, String.ofList_toList, isSome_stripMark_iff, hempty]

theorem exists_error_iff_of_unread (hash : Hasher) (htrim : Text.Trimmed text.toList name.toList)
    (hread : ∀ a, parse name ≠ .ok a) :
    (∃ e, named hash text = .error e) ↔ name = "" ∨ mark <+: name.toList := by
  rw [named_of_unread hash htrim hread]
  split
  · next hempty => exact ⟨fun _ => .inl hempty, fun _ => ⟨_, rfl⟩⟩
  · next hempty =>
    split
    · next hmark => exact ⟨fun _ => .inr hmark, fun _ => ⟨_, rfl⟩⟩
    · next hmark =>
      constructor
      · rintro ⟨e, he⟩
        cases he
      · rintro (h | h)
        · exact absurd h hempty
        · exact absurd h hmark

theorem named_ne_digits (hash : Hasher) (text : String) (fault : AccountFault) :
    named hash text ≠ .error (.digits fault) := by
  have htrim : Text.Trimmed text.toList (String.ofList (Text.trim text.toList)).toList := by
    rw [String.toList_ofList]
    exact Text.trimmed_trim _
  by_cases hread : ∃ a, parse (String.ofList (Text.trim text.toList)) = .ok a
  · obtain ⟨a, ha⟩ := hread
    rw [named_of_parse hash htrim ha]
    nofun
  · rw [named_of_unread hash htrim (fun a ha => hread ⟨a, ha⟩)]
    split
    · nofun
    · split <;> nofun

/-- The eight digits of a short form are too few to be read. -/
theorem parse_short_ne_ok (a b : AccountId) : parse a.short ≠ .ok b := by
  intro h
  obtain ⟨digits, hspells⟩ := exists_spells h
  have hrest : digits = Hex.encode (a.digest.bytes.take 4) := by
    rw [← hspells.unmarked, short, String.toList_ofList, stripMark_eq_some_iff.mpr rfl, Option.getD_some]
  have hcount := hspells.count
  rw [hrest, Hex.length_encode, List.length_take, a.digest.length_bytes] at hcount
  omega

/-- The mark is there, so a short form is not taken for a label either. -/
theorem named_short (hash : Hasher) {a : AccountId} (htrim : Text.Trimmed text.toList a.short.toList) :
    named hash text = .error (.invalidId a.short) := by
  have hmark : mark <+: a.short.toList := by
    rw [short, String.toList_ofList]
    exact List.prefix_append _ _
  have hempty : a.short ≠ "" := by
    intro hempty
    rw [hempty] at hmark
    exact absurd hmark (by decide)
  rw [named_of_unread hash htrim (parse_short_ne_ok a), if_neg hempty, if_pos hmark]

/-- Which texts name which accounts: `parse` reads digits alone, `named` takes digits for an account and most
other texts for a label. -/
structure NamesRead (hash : Hasher) : Prop where
  readable_iff : ∀ text, (∃ a, parse text = .ok a) ↔ ∃ digits, Spells text.toList digits
  read : ∀ text digits a, Spells text.toList digits → parse text = .ok a → a.toHex.toList = digits.map Char.toLower
  written : ∀ a, parse a.toHex = .ok a ∧ parse (String.ofList (mark ++ a.toHex.toList)) = .ok a
  trimmed : ∀ text, ∃! name, Text.Trimmed text name
  id : ∀ text name a, Text.Trimmed text.toList name.toList → parse name = .ok a → named hash text = .ok a
  refused_iff : ∀ text name, Text.Trimmed text.toList name.toList → (∀ a, parse name ≠ .ok a) →
    ((∃ e, named hash text = .error e) ↔ name = "" ∨ mark <+: name.toList)
  label : ∀ text name, Text.Trimmed text.toList name.toList → (∀ a, parse name ≠ .ok a) → name ≠ "" →
    ¬ mark <+: name.toList → named hash text = .ok (ofLabel hash name)
  /-- Digits that pass the test are not refused afterwards. -/
  tested : ∀ text fault, named hash text ≠ .error (.digits fault)
  short : ∀ text (a : AccountId), Text.Trimmed text.toList a.short.toList →
    (∀ b, parse a.short ≠ .ok b) ∧ named hash text = .error (.invalidId a.short)

theorem names_read (hash : Hasher) : NamesRead hash where
  readable_iff text := by
    constructor
    · rintro ⟨a, ha⟩
      exact exists_spells ha
    · rintro ⟨digits, hspells⟩
      obtain ⟨a, ha, -⟩ := hspells.exists_parse
      exact ⟨a, ha⟩
  read text digits a hspells ha := by
    obtain ⟨b, hb, hwritten⟩ := hspells.exists_parse
    obtain rfl := Except.ok.inj (ha.symm.trans hb)
    exact hwritten
  written a := ⟨a.parse_toHex, a.parse_marked⟩
  trimmed text := by
    refine ⟨Text.trim text, Text.trimmed_trim text, ?_⟩
    intro name hname
    exact hname.eq_trim.symm
  id _ _ _ htrim hread := named_of_parse hash htrim hread
  refused_iff _ _ := exists_error_iff_of_unread hash
  label text name htrim hread hempty hmark := by
    rw [named_of_unread hash htrim hread, if_neg hempty, if_neg hmark]
  tested := named_ne_digits hash
  short _ a htrim := ⟨parse_short_ne_ok a, named_short hash htrim⟩

end AccountId

end Paddock
