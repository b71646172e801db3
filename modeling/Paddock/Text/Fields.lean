/-!
Texts cut into fields at a separator. There is always one field more than there are separators.
-/
namespace Paddock.Text

def fields (separator : Char) : List Char → List (List Char)
  | [] => [[]]
  | c :: rest =>
    match fields separator rest with
    | [] => []
    | field :: others => if c = separator then [] :: field :: others else (c :: field) :: others

theorem length_fields (separator : Char) (text : List Char) :
    (fields separator text).length = text.count separator + 1 := by
  induction text with
  | nil => rfl
  | cons c rest ih =>
    rw [fields]
    split
    · next h => simp [h] at ih
    · next field others h =>
      rw [h] at ih
      by_cases hc : c = separator <;> simp_all

end Paddock.Text
