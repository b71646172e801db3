import Paddock.Proofs.Json.Read
import Paddock.Json.Decode

/-! Typed values that are read back as they were written. -/
namespace Paddock.Json

theorem Fits.succ {n : Nat} {j : Json} (h : j.Fits n) : j.Fits (n + 1) := by
  induction h with
  | null => exact .null
  | bool b => exact .bool b
  | string s => exact .string s
  | integer hk => exact .integer hk
  | array _ ih => exact .array ih
  | object hnames _ ih => exact .object hnames ih

theorem Fits.mono {m n : Nat} {j : Json} (h : j.Fits m) (hmn : m ≤ n) : j.Fits n := by
  induction hmn with
  | refl => exact h
  | step _ ih => exact ih.succ

/-- Every value is read from what is written of it, which is not nested beyond a fixed height. -/
class Lossless (α : Type) [Encode α] [Decode α] where
  height : Nat
  fits : ∀ a : α, (encode a).Fits height
  decode_encode : ∀ a : α, decode? (encode a) = some a

theorem Lossless.encode_inj {α : Type} [Encode α] [Decode α] [Lossless α] {a b : α} (h : encode a = encode b) :
    a = b := by
  have hread := Lossless.decode_encode a
  rw [h, Lossless.decode_encode] at hread
  exact (Option.some.inj hread).symm

/-- Values that are not written as null, so that null can stand for none of them. -/
class NeverNull (α : Type) [Encode α] : Prop where
  encode_ne_null : ∀ a : α, encode a ≠ .null

/-- A type that is written as another one is, and made from what is read as that. -/
@[reducible]
def Lossless.ofView {α β : Type} [Encode α] [Decode α] [Encode β] [Decode β] [Lossless β] (view : α → β)
    (make : β → α) (hencode : ∀ a, encode a = encode (view a))
    (hdecode : ∀ j, (decode? j : Option α) = (decode? j).map make) (hmake : ∀ a, make (view a) = a) :
    Lossless α where
  height := Lossless.height β
  fits a := hencode a ▸ Lossless.fits (view a)
  decode_encode a := by rw [hencode, hdecode, Lossless.decode_encode, Option.map_some, hmake]

/-- Where everything written is read, a whole list is. -/
theorem mapM_map_eq_some {α β γ : Type} {write : α → β} {read : β → Option γ} {view : α → γ} {items : List α}
    (h : ∀ item ∈ items, read (write item) = some (view item)) :
    (items.map write).mapM read = some (items.map view) := by
  induction items with
  | nil => rfl
  | cons item items ih =>
    obtain ⟨hitem, hitems⟩ := List.forall_mem_cons.mp h
    rw [List.map_cons, List.mapM_cons, hitem, ih hitems]
    rfl

section Scalars

theorem map_nat? {α : Type} {n bound : Nat} (h : n < bound) (make : Nat → α) :
    (nat? bound (.nat n)).map make = some (make n) := by
  simp [nat, nat?, h]

instance : Lossless Bool := ⟨0, .bool, fun _ => rfl⟩

instance : Lossless String := ⟨0, .string, fun _ => rfl⟩

instance : Lossless UInt8 where
  height := 0
  fits n := .integer (Nat.lt_trans n.toNat_lt (by decide))
  decode_encode n := (map_nat? n.toNat_lt UInt8.ofNat).trans (congrArg some UInt8.ofNat_toNat)

instance : Lossless UInt16 where
  height := 0
  fits n := .integer (Nat.lt_trans n.toNat_lt (by decide))
  decode_encode n := (map_nat? n.toNat_lt UInt16.ofNat).trans (congrArg some UInt16.ofNat_toNat)

instance : Lossless UInt64 where
  height := 0
  fits n := .integer (Nat.lt_trans n.toNat_lt (by decide))
  decode_encode n := (map_nat? n.toNat_lt UInt64.ofNat).trans (congrArg some UInt64.ofNat_toNat)

instance : Lossless Amount where
  height := 0
  fits a := .integer a.isLt
  decode_encode a := dif_pos a.isLt

end Scalars

section Containers

variable {α : Type} [Encode α] [Decode α] [Lossless α]

theorem mapM_decode_encode (items : List α) : (items.map encode).mapM decode? = some items := by
  rw [mapM_map_eq_some fun item _ => Lossless.decode_encode item, List.map_id']

instance : Lossless (List α) where
  height := Lossless.height α + 1
  fits _ := .array <| List.forall_mem_map.mpr fun item _ => Lossless.fits item
  decode_encode := mapM_decode_encode

omit [Encode α] [Lossless α] in
theorem decode?_option {j : Json} (h : j ≠ .null) : (decode? j : Option (Option α)) = (decode? j).map some := by
  cases j with
  | null => exact absurd rfl h
  | _ => rfl

instance [NeverNull α] : Lossless (Option α) where
  height := Lossless.height α
  fits
    | none => .null
    | some a => Lossless.fits a
  decode_encode
    | none => rfl
    | some a => (decode?_option (NeverNull.encode_ne_null a)).trans (by rw [Lossless.decode_encode]; rfl)

@[simp]
theorem required_encode (a : α) : required (some (encode a)) = some a := Lossless.decode_encode a

@[simp]
theorem withDefault_encode (default a : α) : withDefault default (some (encode a)) = some a :=
  Lossless.decode_encode a

@[simp]
theorem orNull_encode [NeverNull α] (a : Option α) : orNull (some (encode a)) = some a := Lossless.decode_encode a

end Containers

/-! ### Records -/

section Records

variable {n : Nat} {names : List (List String)}

/-- Each field has one name, which is not written with a character by number. -/
def singleName : List String → Bool
  | [name] => !byNumber name
  | _ => false

/-- The names are those of different fields. -/
def WellNamed (names : List (List String)) : Prop := names.Nodup ∧ names.all singleName = true

instance (names : List (List String)) : Decidable (WellNamed names) := inferInstanceAs (Decidable (_ ∧ _))

/-- A value as it stands in a record. -/
structure Field where
  value : Json
  height : Nat
  fits : value.Fits height

def field {α : Type} [Encode α] [Decode α] [Lossless α] (a : α) : Field where
  value := encode a
  height := Lossless.height α
  fits := Lossless.fits a

def member (f : List String × Field) : Name × Json := (f.1.headD "", f.2.value)

/-- The object whose members have these names and hold these values. -/
def record (names : List (List String)) (values : List Field) : Json := .object ((names.zip values).map member)

/-- The value is a record in which nothing is higher than `n`. -/
structure IsRecord (n : Nat) (names : List (List String)) (values : List Field) (j : Json) : Prop where
  named : WellNamed names
  complete : names.length = values.length
  low : values.all (·.height.ble n) = true
  eq_record : j = record names values

variable {f g : List String × Field} {fields : List (List String × Field)} {values : List Field} {j : Json}

theorem exists_of_singleName {name : List String} (h : singleName name) :
    ∃ text, name = [text] ∧ byNumber text = false := by
  match name, h with
  | [text], h => exact ⟨text, rfl, by simpa [singleName] using h⟩

theorem contains_member (hf : singleName f.1) (hg : singleName g.1) :
    f.1.contains (member g).1.text = (f.1 == g.1) := by
  obtain ⟨a, ha, -⟩ := exists_of_singleName hf
  obtain ⟨b, hb, -⟩ := exists_of_singleName hg
  rw [member, ha, hb]
  by_cases h : b = a
  · simp [h]
  · simp [h, Ne.symm h]

theorem filter_member (hnodup : (fields.map Prod.fst).Nodup) (hsingle : ∀ g ∈ fields, singleName g.1)
    (hf : f ∈ fields) : (fields.map member).filter (fun m => f.1.contains m.1.text) = [member f] := by
  induction fields with
  | nil => cases hf
  | cons g fields ih =>
    obtain ⟨hnew, hnodup⟩ := List.nodup_cons.mp hnodup
    obtain ⟨hg, hsingle'⟩ := List.forall_mem_cons.mp hsingle
    have hcontains := contains_member (hsingle f hf) hg
    rcases List.mem_cons.mp hf with rfl | htail
    · have hothers : (fields.map member).filter (fun m => f.1.contains m.1.text) = [] := by
        refine List.filter_eq_nil_iff.mpr (List.forall_mem_map.mpr fun g hg' => ?_)
        rw [contains_member hg (hsingle' g hg')]
        intro heq
        exact hnew (eq_of_beq heq ▸ List.mem_map_of_mem hg')
      rw [List.map_cons, List.filter_cons_of_pos (by rw [hcontains]; exact beq_self_eq_true _), hothers]
    · have hne : f.1 ≠ g.1 := fun h => hnew (h ▸ List.mem_map_of_mem htail)
      rw [List.map_cons, List.filter_cons_of_neg (by rw [hcontains]; simpa using hne)]
      exact ih hnodup hsingle' htail

theorem field?_member (hnodup : (fields.map Prod.fst).Nodup) (hsingle : ∀ g ∈ fields, singleName g.1)
    (hf : f ∈ fields) : field? (fields.map member) f.1 = some (some f.2.value) := by
  rw [field?, filter_member hnodup hsingle hf]
  rfl

/-- Whatever object holds these fields, they are read from it. -/
theorem mapM_field? {ms : List (Name × Json)} (h : ∀ f ∈ fields, field? ms f.1 = some (some f.2.value)) :
    (fields.map Prod.fst).mapM (field? ms) = some (fields.map (some ·.2.value)) :=
  mapM_map_eq_some h

theorem IsRecord.fits (h : IsRecord n names values j) : j.Fits (n + 1) := by
  rw [h.eq_record]
  refine .object (List.forall_mem_map.mpr fun f hf => ?_) (List.forall_mem_map.mpr fun f hf => ?_)
  · have hsingle := List.all_eq_true.mp h.named.2 _ (List.of_mem_zip hf).1
    obtain ⟨text, htext, hplain⟩ := exists_of_singleName hsingle
    rw [member, htext]
    exact hplain.symm
  · have hlow := List.all_eq_true.mp h.low f.2 (List.of_mem_zip hf).2
    exact f.2.fits.mono (Nat.le_of_ble_eq_true hlow)

theorem IsRecord.fields?_eq (h : IsRecord n names values j) :
    fields? names j = some (values.map (some ·.value)) := by
  have hfst : (names.zip values).map Prod.fst = names := List.map_fst_zip (Nat.le_of_eq h.complete)
  have hsnd : (names.zip values).map Prod.snd = values := List.map_snd_zip (Nat.le_of_eq h.complete.symm)
  have hsingle : ∀ f ∈ names.zip values, singleName f.1 := fun f hf =>
    List.all_eq_true.mp h.named.2 _ (List.of_mem_zip hf).1
  have hread := mapM_field? fun f hf => field?_member (hfst.symm ▸ h.named.1) hsingle hf
  rw [hfst] at hread
  rw [h.eq_record]
  change names.mapM (field? ((names.zip values).map member)) = _
  rw [hread]
  conv_rhs => rw [← hsnd, List.map_map]
  rfl

/-- A type of records that are read field by field. -/
@[reducible]
def Lossless.ofRecord {α : Type} [Encode α] [Decode α] (n : Nat) (names : List (List String))
    (values : α → List Field) (hrecord : ∀ a, IsRecord n names (values a) (encode a))
    (hdecode : ∀ a, fields? names (encode a) = some ((values a).map (some ·.value)) →
      decode? (encode a) = some a) : Lossless α where
  height := n + 1
  fits a := (hrecord a).fits
  decode_encode a := hdecode a (hrecord a).fields?_eq

end Records

end Paddock.Json
