import Mathlib.Tactic.IntervalCases
import Paddock.Approvals
import Paddock.Ledger.Journal
import Paddock.Proofs.Holdings
import Paddock.Proofs.Json.Codec

/-! Numbers and digests as text, and what is kept under them. -/
namespace Paddock

/-! ### Hexadecimal text -/

namespace Hex

variable {n : Nat} {bytes : List UInt8}

/-- A digit is one byte of text, which is read as its value. -/
theorem utf8EncodeChar_digit (hn : n < 16) :
    ∃ byte, String.utf8EncodeChar (digit n) = [byte] ∧ digitValue? byte = some (UInt8.ofNat n) := by
  interval_cases n <;> exact ⟨_, rfl, rfl⟩

theorem halves (byte : UInt8) : UInt8.ofNat (byte.toNat / 16) * 16 + UInt8.ofNat (byte.toNat % 16) = byte := by
  have hbyte := byte.toNat_lt
  apply UInt8.toNat_inj.mp
  simp only [UInt8.toNat_add, UInt8.toNat_mul, UInt8.toNat_ofNat']
  change (byte.toNat / 16 % 256 * 16 % 256 + byte.toNat % 16 % 256) % 256 = byte.toNat
  omega

theorem utf8_encode_cons (byte : UInt8) (bytes : List UInt8) : ∃ high low,
    utf8 (String.ofList (encode (byte :: bytes))) = high :: low :: utf8 (String.ofList (encode bytes)) ∧
      digitValue? high = some (UInt8.ofNat (byte.toNat / 16)) ∧
      digitValue? low = some (UInt8.ofNat (byte.toNat % 16)) := by
  have hbyte := byte.toNat_lt
  obtain ⟨high, hhigh, hhighValue⟩ := utf8EncodeChar_digit (show byte.toNat / 16 < 16 by omega)
  obtain ⟨low, hlow, hlowValue⟩ := utf8EncodeChar_digit (show byte.toNat % 16 < 16 by omega)
  refine ⟨high, low, ?_, hhighValue, hlowValue⟩
  simp [utf8, encode, encodeByte, hhigh, hlow]

theorem decodePairs_encode (bytes : List UInt8) (position : Nat) :
    decodePairs position (utf8 (String.ofList (encode bytes))) = .ok bytes := by
  induction bytes generalizing position with
  | nil => rfl
  | cons byte bytes ih =>
    obtain ⟨high, low, htext, hhigh, hlow⟩ := utf8_encode_cons byte bytes
    rw [htext, decodePairs, digitAt, digitAt, hhigh, hlow, ih]
    change Except.ok ((UInt8.ofNat (byte.toNat / 16) * 16 + UInt8.ofNat (byte.toNat % 16)) :: bytes) = _
    rw [halves]

theorem length_utf8_encode (bytes : List UInt8) :
    (utf8 (String.ofList (encode bytes))).length = 2 * bytes.length := by
  induction bytes with
  | nil => rfl
  | cons byte bytes ih =>
    obtain ⟨high, low, htext, -, -⟩ := utf8_encode_cons byte bytes
    rw [htext, List.length_cons, List.length_cons, ih, List.length_cons]
    omega

theorem decode_encode (bytes : List UInt8) : decode (utf8 (String.ofList (encode bytes))) = .ok bytes := by
  have heven := length_utf8_encode bytes
  rw [decode, if_neg (by omega), decodePairs_encode]

theorem mem_encode {c : Char} (hc : c ∈ encode bytes) : ∃ n < 16, c = digit n := by
  obtain ⟨byte, -, hc⟩ := List.mem_flatMap.mp hc
  have hbyte := byte.toNat_lt
  rcases List.mem_cons.mp hc with rfl | hc
  · exact ⟨_, by omega, rfl⟩
  · exact ⟨_, by omega, List.mem_singleton.mp hc⟩

theorem isNumbered_digit (hn : n < 16) : Json.isNumbered (digit n) = false := by
  interval_cases n <;> rfl

theorem digit_ne_colon (hn : n < 16) : digit n ≠ ':' := by
  interval_cases n <;> decide

end Hex

theorem Digest.ofHex?_toHex (d : Digest) : Digest.ofHex? d.toHex = some d := by
  rw [Digest.ofHex?, Digest.toHex, Hex.decode_encode]
  exact dif_pos d.length_bytes

theorem Digest.byNumber_toHex (d : Digest) : Json.byNumber d.toHex = false := by
  rw [Json.byNumber, Digest.toHex, String.toList_ofList, List.any_eq_false]
  intro c hc
  obtain ⟨n, hn, rfl⟩ := Hex.mem_encode hc
  rw [Hex.isNumbered_digit hn]
  exact Bool.false_ne_true

theorem AccountId.parse_toHex (a : AccountId) : AccountId.parse a.toHex = .ok a := by
  have hmark : stripMark AccountId.mark a.toHex.toList = none := by
    refine if_neg fun hprefix => ?_
    have hcolon : ':' ∈ Hex.encode a.digest.bytes := by
      have htext : a.toHex.toList = Hex.encode a.digest.bytes := String.toList_ofList
      exact htext ▸ (List.isPrefixOf_iff_prefix.mp hprefix).subset (by decide)
    obtain ⟨n, hn, heq⟩ := Hex.mem_encode hcolon
    exact Hex.digit_ne_colon hn heq.symm
  simp only [AccountId.parse, hmark, Option.getD_none, String.ofList_toList]
  rw [AccountId.toHex, Digest.toHex, Hex.decode_encode]
  simp only [Digest.ofBytes?, a.digest.length_bytes, dif_pos]

namespace Json

/-! ### Decimal text -/

section Digits

variable {n : Nat}

theorem digitValue?_digitChar (hn : n < 10) : digitValue? (Nat.digitChar n) = some n := by
  interval_cases n <;> rfl

theorem digitChar_ne_zero (hpos : 0 < n) (hn : n < 10) : Nat.digitChar n ≠ '0' := by
  interval_cases n <;> decide

/-- A number is written without a zero in front, and its digits add up to it. -/
theorem toDigits_eq_cons (hpos : 0 < n) : ∃ c l, Nat.toDigits 10 n = c :: l ∧ c ≠ '0' ∧
    (c :: l).foldlM (fun n c => (digitValue? c).map (n * 10 + ·)) 0 = some n := by
  induction n using Nat.strongRecOn with
  | ind n ih =>
    by_cases hn : n < 10
    · refine ⟨Nat.digitChar n, [], Nat.toDigits_of_lt_base hn, digitChar_ne_zero hpos hn, ?_⟩
      rw [List.foldlM_cons, digitValue?_digitChar hn]
      simp
    · obtain ⟨c, l, hdigits, hc, hsum⟩ := ih (n / 10) (by omega) (by omega)
      have hlast : n % 10 < 10 := Nat.mod_lt _ (by decide)
      refine ⟨c, l ++ [Nat.digitChar (n % 10)], ?_, hc, ?_⟩
      · rw [Nat.toDigits_of_base_le (by decide) (by omega), hdigits, List.cons_append]
      · rw [← List.cons_append, List.foldlM_append, hsum]
        change (digitValue? (Nat.digitChar (n % 10))).map (n / 10 * 10 + ·) >>= pure = _
        rw [digitValue?_digitChar hlast, Option.map_some, Nat.div_add_mod']
        rfl

theorem plainNumber?_toDigits (n : Nat) : plainNumber? (Nat.toDigits 10 n) = some n := by
  rcases Nat.eq_zero_or_pos n with rfl | hpos
  · rfl
  · obtain ⟨c, l, hdigits, hc, hsum⟩ := toDigits_eq_cons hpos
    rw [hdigits, plainNumber?]
    · exact hsum
    · exact nofun
    · exact fun h => hc (List.cons.inj h).1
    · exact fun _ h => hc (List.cons.inj h).1

theorem isNumbered_of_isDigit {c : Char} (hc : c.isDigit = true) : isNumbered c = false := by
  simp only [Char.isDigit, Bool.and_eq_true, decide_eq_true_eq] at hc
  have hlow : ¬ c.toNat < 0x20 := Nat.not_lt.mpr (Nat.le_trans (by decide) (UInt32.le_iff_toNat_le.mp hc.1))
  simp [isNumbered, hlow]

theorem ofUInt64Text?_uint64Text (n : UInt64) : ofUInt64Text? (uint64Text n) = some n := by
  rw [ofUInt64Text?, uint64Text, String.toList_ofList, plainNumber?_toDigits]
  change (if n.toNat < UInt64.size then some (UInt64.ofNat n.toNat) else none) = some n
  rw [if_pos n.toNat_lt, UInt64.ofNat_toNat]

theorem ofNumberName?_uint64Text (n : UInt64) : ofNumberName? (uint64Text n) = some n :=
  ofUInt64Text?_uint64Text n

theorem byNumber_uint64Text (n : UInt64) : byNumber (uint64Text n) = false := by
  rw [byNumber, uint64Text, String.toList_ofList, List.any_eq_false]
  intro c hc
  rw [isNumbered_of_isDigit (Nat.isDigit_of_mem_toDigits (by decide) (by decide) hc)]
  exact Bool.false_ne_true

end Digits

/-- Keys are read from their names, none of which is written with a character by number. -/
class LosslessKey (κ : Type) [KeyText κ] : Prop where
  ofKeyText?_keyText : ∀ k : κ, ofKeyText? (keyText k : Name) = some k
  byNumber_keyText : ∀ k : κ, byNumber (keyText k) = false

instance : LosslessKey PartId where
  ofKeyText?_keyText id := congrArg (Option.map PartId.mk) (ofNumberName?_uint64Text id.number)
  byNumber_keyText id := byNumber_uint64Text id.number

instance : LosslessKey CarId where
  ofKeyText?_keyText id := congrArg (Option.map CarId.mk) (ofNumberName?_uint64Text id.number)
  byNumber_keyText id := byNumber_uint64Text id.number

instance : LosslessKey AccountId where
  ofKeyText?_keyText a := congrArg Except.toOption a.parse_toHex
  byNumber_keyText a := a.digest.byNumber_toHex

end Json

/-! ### Tables, sets and lists of tokens -/

namespace Table

variable {κ α : Type} [Key κ] {k : κ} {l : List (κ × α)}

/-- Entries in order are looked up as they stand, whatever was there before them. -/
theorem get?_foldl_insert (hl : Sorted l) (t : Table κ α) (k : κ) :
    (l.foldl (fun t e => t.insert e.1 e.2) t).get? k =
      ((l.find? fun e => Key.rank e.1 == Key.rank k).map Prod.snd).or (t.get? k) := by
  induction l generalizing t with
  | nil => rfl
  | cons e l ih =>
    obtain ⟨hfirst, hl⟩ := List.pairwise_cons.mp hl
    rw [List.foldl_cons, ih hl, get?_insert, List.find?_cons]
    by_cases h : e.1 = k
    · have hlater : l.find? (fun e => Key.rank e.1 == Key.rank k) = none := by
        refine List.find?_eq_none.mpr fun e' he' => ?_
        have := hfirst e' he'
        rw [h] at this
        simpa using Nat.ne_of_gt this
      simp [h, hlater]
    · have hother : (Key.rank e.1 == Key.rank k) = false := by simpa [Key.rank_eq_iff] using h
      simp [h, hother]

theorem ofList_entries (t : Table κ α) : ofList t.entries = t :=
  ext_get? fun k => (get?_foldl_insert t.sorted empty k).trans (Option.or_none ..)

end Table

namespace TokenIndex

variable {κ : Type} [Key κ] {l : List κ}

theorem items_foldl_insert (t : TokenIndex κ) (h : (t.items ++ l).Nodup) :
    (l.foldl insert t).items = t.items ++ l := by
  induction l generalizing t with
  | nil => simp
  | cons id l ih =>
    have hnew : id ∉ t.items := fun hmem =>
      (List.nodup_append.mp h).2.2 id hmem id List.mem_cons_self rfl
    have hitems : (t.insert id).items = t.items ++ [id] := by rw [items_insert, if_neg hnew]
    rw [List.foldl_cons, ih _ (by simpa [hitems] using h), hitems, List.append_assoc, List.singleton_append]

/-- The positions follow from the items. -/
theorem ofList_items (t : TokenIndex κ) : ofList t.items = t :=
  ext_items (items_foldl_insert empty t.nodup_items)

end TokenIndex

namespace Json

section Keyed

variable {κ α : Type} [Key κ]

omit [Key κ] in
theorem mapM_keyed? [KeyText κ] [LosslessKey κ] [Encode α] [Decode α] [Lossless α] (entries : List (κ × α)) :
    (entries.map fun e => ((keyText e.1 : Name), encode e.2)).mapM keyed? = some entries := by
  have hentry (e : κ × α) : keyed? ((keyText e.1 : Name), encode e.2) = some e := by
    rw [keyed?, LosslessKey.ofKeyText?_keyText, Lossless.decode_encode]
    rfl
  rw [mapM_map_eq_some fun e _ => hentry e, List.map_id']

instance [KeyText κ] [LosslessKey κ] [Encode α] [Decode α] [Lossless α] : Lossless (Table κ α) where
  height := Lossless.height α + 1
  fits _ := .object (List.forall_mem_map.mpr fun e _ => (LosslessKey.byNumber_keyText e.1).symm)
    (List.forall_mem_map.mpr fun e _ => Lossless.fits e.2)
  decode_encode t := by
    change ((t.entries.map fun e => ((keyText e.1 : Name), encode e.2)).mapM keyed?).map Table.ofList = some t
    rw [mapM_keyed?, Option.map_some, Table.ofList_entries]

theorem ofList_keys (s : KeySet κ) : Table.ofList (s.keys.map (·, ())) = s := by
  have hentries : s.keys.map (·, ()) = s.entries := by
    rw [Table.keys, List.map_map]
    exact List.map_id _
  rw [hentries, Table.ofList_entries]

instance (priority := high) [Encode κ] [Decode κ] [Lossless κ] : Lossless (KeySet κ) :=
  .ofView Table.keys (fun keys => Table.ofList (keys.map (·, ()))) (fun _ => rfl)
    (fun _ => Option.map_eq_bind.symm) ofList_keys

instance [Encode κ] [Decode κ] [Lossless κ] : Lossless (TokenIndex κ) :=
  .ofView TokenIndex.items TokenIndex.ofList (fun _ => rfl) (fun _ => rfl) TokenIndex.ofList_items

end Keyed

section Names

instance : Lossless PartId := .ofView PartId.number PartId.mk (fun _ => rfl) (fun _ => rfl) fun _ => rfl

instance : Lossless CarId := .ofView CarId.number CarId.mk (fun _ => rfl) (fun _ => rfl) fun _ => rfl

instance : Lossless AccountId where
  height := 0
  fits a := .string a.toHex
  decode_encode a := congrArg Except.toOption a.parse_toHex

instance : Lossless Digest where
  height := 0
  fits d := .string d.toHex
  decode_encode d := d.ofHex?_toHex

instance : NeverNull PartId := ⟨fun _ => nofun⟩
instance : NeverNull CarId := ⟨fun _ => nofun⟩
instance : NeverNull AccountId := ⟨fun _ => nofun⟩
instance : NeverNull Digest := ⟨fun _ => nofun⟩

instance : Lossless PartType where
  height := 0
  fits t := .string t.name
  decode_encode t := by cases t <;> rfl

instance {α : Type} [Encode α] [Decode α] [Lossless α] : Lossless (PerType α) where
  height := Lossless.height α + 1
  fits p := Lossless.fits p.toList
  decode_encode p := by
    change (do
      return (⟨← decode? (encode p.engine), ← decode? (encode p.transmission), ← decode? (encode p.wheels)⟩ :
        PerType α)) = some p
    simp only [Lossless.decode_encode]
    rfl

end Names

instance {κ : Type} [Key κ] [KeyText κ] [LosslessKey κ] : Lossless (Approvals κ) :=
  .ofRecord 2 [["token"], ["operators"]] (fun a => [field a.token, field a.operators])
    (fun _ => ⟨by decide, rfl, rfl, rfl⟩) fun a h => by simp [decode?, h, field]
end Json

end Paddock
