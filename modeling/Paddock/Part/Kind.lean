import Paddock.Json.Decode
import Paddock.Text.Numeral

/-!
The three kinds of part. Every car has one slot for each, numbered from zero.
-/
namespace Paddock

inductive PartType where
  | engine
  | transmission
  | wheels
deriving DecidableEq, Repr

inductive PartTypeFault where
  | unknown (text : String)
  | invalidSlot (slot : Nat)
deriving DecidableEq, Repr

def PartTypeFault.message : PartTypeFault → String
  | unknown text => s!"unknown part type: {text}"
  | invalidSlot slot => s!"slot index {slot} out of range"

namespace PartType

def all : List PartType := [engine, transmission, wheels]

def slot : PartType → Nat
  | engine => 0
  | transmission => 1
  | wheels => 2

def ofSlot? : Nat → Option PartType
  | 0 => some engine
  | 1 => some transmission
  | 2 => some wheels
  | _ => none

theorem ofSlot?_eq_some_iff {n : Nat} {t : PartType} : ofSlot? n = some t ↔ t.slot = n := by
  constructor
  · intro h
    unfold ofSlot? at h
    split at h <;> simp_all [slot] <;> subst h <;> rfl
  · rintro rfl
    cases t <;> rfl

theorem mem_all (t : PartType) : t ∈ all := by
  cases t <;> decide

theorem slot_inj {t u : PartType} (h : t.slot = u.slot) : t = u := by
  cases t <;> cases u <;> simp_all [slot]

def ofSlot (n : Nat) : Except PartTypeFault PartType :=
  match ofSlot? n with
  | some t => .ok t
  | none => .error (.invalidSlot n)

def name : PartType → String
  | engine => "Engine"
  | transmission => "Transmission"
  | wheels => "Wheels"

instance : ToString PartType := ⟨name⟩

/-- Reads a name, in capitals or not, or a slot number. -/
def parse (text : String) : Except PartTypeFault PartType :=
  let letters := text.toList.map Char.toLower
  match all.find? fun t => t.name.toList.map Char.toLower = letters with
  | some t => .ok t
  | none =>
    match Text.readNumeral UInt64.size letters with
    | .ok n =>
      match ofSlot? n with
      | some t => .ok t
      | none => .error (.unknown text)
    | .error _ => .error (.unknown text)

instance : Json.Encode PartType := ⟨fun t => .string t.name⟩

/-- A slot number or any text that `parse` takes. -/
instance : Json.Decode PartType where
  decode?
    | .integer n => if 0 ≤ n then ofSlot? n.toNat else none
    | .string text => (parse text).toOption
    | _ => none

end PartType

/-- One value for each kind of part, in the order of the slots. -/
structure PerType (α : Type) where
  engine : α
  transmission : α
  wheels : α
deriving DecidableEq, Repr

namespace PerType

variable {α β : Type}

def get (p : PerType α) : PartType → α
  | .engine => p.engine
  | .transmission => p.transmission
  | .wheels => p.wheels

def set (p : PerType α) (t : PartType) (a : α) : PerType α :=
  match t with
  | .engine => { p with engine := a }
  | .transmission => { p with transmission := a }
  | .wheels => { p with wheels := a }

def replicate (a : α) : PerType α := ⟨a, a, a⟩

def ofFn (f : PartType → α) : PerType α := ⟨f .engine, f .transmission, f .wheels⟩

def map (f : α → β) (p : PerType α) : PerType β := ⟨f p.engine, f p.transmission, f p.wheels⟩

def toList (p : PerType α) : List α := [p.engine, p.transmission, p.wheels]

theorem get_set (p : PerType α) (t u : PartType) (a : α) :
    (p.set t a).get u = if t = u then a else p.get u := by
  cases t <;> cases u <;> rfl

theorem get_set_self (p : PerType α) (t : PartType) (a : α) : (p.set t a).get t = a := by
  rw [get_set, if_pos rfl]

theorem get_ofFn (f : PartType → α) (t : PartType) : (ofFn f).get t = f t := by
  cases t <;> rfl

theorem ext_get {p q : PerType α} (h : ∀ t, p.get t = q.get t) : p = q := by
  have h1 := h .engine
  have h2 := h .transmission
  have h3 := h .wheels
  cases p; cases q
  simp_all [get]

theorem mem_toList_iff {p : PerType α} {a : α} : a ∈ p.toList ↔ ∃ t, p.get t = a := by
  simp only [toList, List.mem_cons, List.not_mem_nil, or_false]
  constructor
  · rintro (rfl | rfl | rfl)
    · exact ⟨.engine, rfl⟩
    · exact ⟨.transmission, rfl⟩
    · exact ⟨.wheels, rfl⟩
  · rintro ⟨t, rfl⟩
    cases t <;> simp [get]

instance [Json.Encode α] : Json.Encode (PerType α) := ⟨fun p => Json.encode p.toList⟩

instance [Json.Decode α] : Json.Decode (PerType α) where
  decode?
    | .array [a, b, c] => do
      return ⟨← Json.decode? a, ← Json.decode? b, ← Json.decode? c⟩
    | _ => none

end PerType

end Paddock
