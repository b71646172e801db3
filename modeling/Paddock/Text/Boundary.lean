/-!
Places between two characters of a text, found by the bytes before them.
-/
namespace Paddock.Text

theorem pos?_eq_some_iff {text : String} {bytes : Nat} {place : text.Pos} :
    text.pos? ⟨bytes⟩ = some place ↔ place.offset.byteIdx = bytes := by
  simp only [String.pos?, String.Slice.pos?, String.Pos.Raw.isValidForSlice_eq_true_iff, Option.map_eq_some_iff]
  constructor
  · rintro ⟨slicePlace, hplace, rfl⟩
    split at hplace
    · obtain rfl := Option.some.inj hplace
      rfl
    · cases hplace
  · rintro rfl
    exact ⟨place.toSlice, dif_pos place.toSlice.isValidForSlice, place.ofToSlice_toSlice⟩

/-- The place after so many bytes, or else, byte by byte, the first one before it that is between two characters.
Before the first byte there is nothing to go back to. -/
def boundary? (text : String) : Nat → Option text.Pos
  | 0 => text.pos? ⟨0⟩
  | bytes + 1 =>
    match text.pos? ⟨bytes + 1⟩ with
    | some place => some place
    | none => boundary? text bytes

/-- Going back ends at the start of the text, if not before. -/
theorem isSome_boundary? (text : String) (bytes : Nat) : (boundary? text bytes).isSome = true := by
  induction bytes with
  | zero =>
    have hstart : text.pos? ⟨0⟩ = some text.startPos := pos?_eq_some_iff.mpr rfl
    rw [boundary?, hstart]
    rfl
  | succ bytes ih =>
    rw [boundary?]
    split
    · rfl
    · exact ih

end Paddock.Text
