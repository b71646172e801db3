import Mathlib.Data.List.Basic
import Paddock.Generator.Service
import Paddock.Proofs.Change

/-! What is told of a response that is a refusal: its body, or as much of it as may be shown. -/
namespace Paddock

/-! ### The search for a boundary -/

namespace Text

variable {text kept rest : String} {bytes : Nat} {place other : text.Pos}

theorem le_iff_byteIdx_le : other ≤ place ↔ other.offset.byteIdx ≤ place.offset.byteIdx :=
  String.Pos.le_iff.trans String.Pos.Raw.le_iff

/-- The place that is found is the last one up to there. -/
theorem boundary?_eq_some_iff : boundary? text bytes = some place ↔
    place.offset.byteIdx ≤ bytes ∧ ∀ other : text.Pos, other.offset.byteIdx ≤ bytes → other ≤ place := by
  induction bytes with
  | zero =>
    rw [boundary?, pos?_eq_some_iff]
    constructor
    · intro hplace
      exact ⟨Nat.le_of_eq hplace, fun other hother => le_iff_byteIdx_le.mpr (by omega)⟩
    · rintro ⟨hplace, -⟩
      omega
  | succ bytes ih =>
    rw [boundary?]
    split
    · next found hfound =>
      have hat := pos?_eq_some_iff.mp hfound
      constructor
      · intro he
        obtain rfl := Option.some.inj he
        exact ⟨Nat.le_of_eq hat, fun other hother => le_iff_byteIdx_le.mpr (by omega)⟩
      · rintro ⟨hplace, hlast⟩
        have hle := le_iff_byteIdx_le.mp (hlast found (Nat.le_of_eq hat))
        have hsame : place.offset.byteIdx = found.offset.byteIdx := by omega
        rw [String.Pos.ext (String.Pos.Raw.ext hsame)]
    · next hnone =>
      have hskipped : ∀ other : text.Pos, other.offset.byteIdx ≤ bytes + 1 ↔ other.offset.byteIdx ≤ bytes := by
        intro other
        have hother : other.offset.byteIdx ≠ bytes + 1 := by
          intro hat
          rw [pos?_eq_some_iff.mpr hat] at hnone
          cases hnone
        omega
      simp only [ih, hskipped]

theorem pos?_of_skipped (h : boundary? text bytes = some place) {skipped : Nat} (hgt : place.offset.byteIdx < skipped)
    (hle : skipped ≤ bytes) : text.pos? ⟨skipped⟩ = none := by
  refine Option.eq_none_iff_forall_ne_some.mpr fun other hother => ?_
  have hat := pos?_eq_some_iff.mp hother
  have hlast := le_iff_byteIdx_le.mp ((boundary?_eq_some_iff.mp h).2 other (by omega))
  omega

/-- No character has more than four bytes, so the search never goes back more than three. -/
theorem le_boundary_add_three (h : boundary? text bytes = some place) (hlong : bytes < text.utf8ByteSize) :
    bytes ≤ place.offset.byteIdx + 3 := by
  obtain ⟨hfits, hlast⟩ := boundary?_eq_some_iff.mp h
  have hmore : place ≠ text.endPos := by
    rintro rfl
    have hsize : text.endPos.offset.byteIdx = text.utf8ByteSize := rfl
    omega
  have hnext := String.Pos.byteIdx_offset_next place hmore
  have hfour := (place.get hmore).utf8Size_le_four
  rcases Nat.lt_or_ge bytes (place.next hmore).offset.byteIdx with hbeyond | hwithin
  · omega
  · have hback := le_iff_byteIdx_le.mp (hlast _ hwithin)
    have hsize := (place.get hmore).utf8Size_pos
    omega

/-- The longest beginning of a text that fits into so many bytes. -/
structure LongestFit (text : String) (bytes : Nat) (kept : String) : Prop where
  begins : ∃ rest, text = kept ++ rest
  fits : kept.utf8ByteSize ≤ bytes
  longest : ∀ other rest, text = other ++ rest → other.utf8ByteSize ≤ bytes → ∃ between, kept = other ++ between

theorem eq_append_ofList {text start : String} {between : List Char} (h : text.toList = start.toList ++ between) :
    text = start ++ String.ofList between := by
  refine String.toList_inj.mp ?_
  rw [String.toList_append, String.toList_ofList, h]

/-- Of two beginnings of a text, the longer one begins with the other. -/
theorem exists_between {other rest' : String} (h : kept ++ rest = other ++ rest')
    (hle : other.utf8ByteSize ≤ kept.utf8ByteSize) : ∃ between, kept = other ++ between := by
  have hchars := congrArg String.toList h
  rw [String.toList_append, String.toList_append] at hchars
  rcases List.append_eq_append_iff.mp hchars with ⟨between, hother, -⟩ | ⟨between, hkept, -⟩
  · have hsplit := eq_append_ofList hother
    have hsize := congrArg String.utf8ByteSize hsplit
    rw [String.utf8ByteSize_append] at hsize
    have hnone : String.ofList between = "" := String.utf8ByteSize_eq_zero_iff.mp (by omega)
    rw [hnone, String.append_empty] at hsplit
    exact ⟨"", by rw [hsplit, String.append_empty]⟩
  · exact ⟨String.ofList between, eq_append_ofList hkept⟩

/-- A character that is only in part within the limit is left out. -/
theorem LongestFit.eq_of_next {start : String} {next : Char} (h : LongestFit text bytes kept)
    (hsplit : text = start ++ (String.singleton next ++ rest)) (hfits : start.utf8ByteSize ≤ bytes)
    (hover : bytes < start.utf8ByteSize + next.utf8Size) : kept = start := by
  obtain ⟨between, rfl⟩ := h.longest start _ hsplit hfits
  obtain ⟨rest', hbegins⟩ := h.begins
  have hshort := h.fits
  rw [String.utf8ByteSize_append] at hshort
  have htail : String.singleton next ++ rest = between ++ rest' :=
    (String.append_right_inj start).mp (hsplit.symm.trans (hbegins.trans String.append_assoc))
  have hnext : (String.singleton next).utf8ByteSize = next.utf8Size := String.utf8ByteSize_singleton
  obtain ⟨more, hmore⟩ := exists_between htail (by omega)
  have hchars := congrArg String.toList hmore
  rw [String.toList_singleton, String.toList_append] at hchars
  rcases List.append_eq_singleton_iff.mp hchars.symm with ⟨hnone, -⟩ | ⟨hall, -⟩
  · rw [String.toList_eq_nil_iff.mp hnone, String.append_empty]
  · have hsame : between = String.singleton next :=
      String.toList_inj.mp (hall.trans (String.toList_singleton next).symm)
    rw [hsame] at hshort
    omega

theorem longestFit_boundary (h : boundary? text bytes = some place) :
    LongestFit text bytes (text.sliceTo place).copy := by
  obtain ⟨hfits, hlast⟩ := boundary?_eq_some_iff.mp h
  have hsplit := place.splits
  have hsize : (text.sliceTo place).copy.utf8ByteSize = place.offset.byteIdx :=
    (congrArg String.Pos.Raw.byteIdx hsplit.offset_eq_rawEndPos).symm
  refine ⟨⟨_, hsplit.eq_append⟩, by omega, fun other rest hother hshort => ?_⟩
  have hvalid : String.Pos.Raw.IsValid text other.rawEndPos :=
    String.Pos.Raw.isValid_iff_exists_append.mpr ⟨other, rest, hother, rfl⟩
  have hle := le_iff_byteIdx_le.mp (hlast ⟨other.rawEndPos, hvalid⟩ hshort)
  refine exists_between (hsplit.eq_append.symm.trans hother) ?_
  rw [hsize]
  exact hle

end Text

namespace GeneratorService

/-- What is told of a body. Of one with more than 4096 bytes, the place to cut it is found after at most three bytes
that are not between two characters. -/
structure Excerpt (body shown : String) : Prop where
  short : body.utf8ByteSize ≤ 4096 → shown = body
  long : 4096 < body.utf8ByteSize → ∃ (place : body.Pos) (kept : String),
    Text.boundary? body 4096 = some place ∧ 4093 ≤ place.offset.byteIdx ∧ place.offset.byteIdx ≤ 4096 ∧
    (∀ skipped, place.offset.byteIdx < skipped → skipped ≤ 4096 → body.pos? ⟨skipped⟩ = none) ∧
    kept.utf8ByteSize = place.offset.byteIdx ∧ Text.LongestFit body 4096 kept ∧ shown = kept ++ "...(truncated)"

theorem excerpt_shownBody (body : String) : Excerpt body (shownBody body) where
  short hshort := if_pos hshort
  long hlong := by
    obtain ⟨place, hplace⟩ := Option.isSome_iff_exists.mp (Text.isSome_boundary? body 4096)
    have hback := Text.le_boundary_add_three hplace hlong
    have hfits := (Text.boundary?_eq_some_iff.mp hplace).1
    have hsize := congrArg String.Pos.Raw.byteIdx place.splits.offset_eq_rawEndPos
    refine ⟨place, (body.sliceTo place).copy, hplace, by omega, hfits, fun skipped => Text.pos?_of_skipped hplace,
      hsize.symm, Text.longestFit_boundary hplace, ?_⟩
    have hcut : (Text.boundary? body 4096).get (Text.isSome_boundary? body 4096) = place :=
      Option.get_of_eq_some _ hplace
    have hover : ¬body.utf8ByteSize ≤ maxShownBytes := Nat.not_le.mpr hlong
    rw [shownBody, if_neg hover]
    exact congrArg (fun cut => (body.sliceTo cut).copy ++ "...(truncated)") hcut

variable {network : Network} {service : GeneratorService} {request : GenerationRequest} {url : Url}
  {response : Response}

/-- A response that is no success is refused with its status and what may be told of its body. -/
theorem refused_with_excerpt (hurl : Url.parse service.url = .ok url) (hcallable : url.isCallable = true)
    (hanswer : network url (Json.compact (Json.encode request)) = .ok response)
    (hrefused : ¬(200 ≤ response.status ∧ response.status < 300)) :
    ∃ shown, service.generate network request = .error (.refused response.status shown) ∧
      Excerpt response.body shown := by
  refine ⟨shownBody response.body, ?_, excerpt_shownBody response.body⟩
  simp only [generate, hurl, hcallable, if_true, hanswer, readResponse, if_neg hrefused]

/-- As many bytes as may be shown, but one. -/
def filler : String := String.ofList (List.replicate 4095 'a')

theorem utf8ByteSize_filler : filler.utf8ByteSize = 4095 := by
  suffices h : ∀ n, (String.ofList (List.replicate n 'a')).utf8ByteSize = n from h 4095
  intro n
  induction n with
  | zero => rfl
  | succ n ih =>
    rw [List.replicate_succ, String.ofList_cons, String.utf8ByteSize_append, ih, Nat.add_comm]
    rfl

def refusal : Response := ⟨500, filler ++ "éb"⟩

def refusing : Network := fun _ _ => .ok refusal

def localService : GeneratorService := ⟨"http://127.0.0.1:3000/api/cars/generate"⟩

/-- The last character that is begun within the limit is not ended there, and is not shown. -/
theorem refused_with_excerpt_straddling : generate refusing localService { prompt := "fast" } =
    .error (.refused 500 (filler ++ "...(truncated)")) := by
  have hcallable : ((Url.parse localService.url).map Url.isCallable) = .ok true := by
    decide +kernel
  obtain ⟨url, hurl, hcallable⟩ := map_eq_ok_iff.mp hcallable
  have hstatus : ¬(200 ≤ refusal.status ∧ refusal.status < 300) := by decide
  have hanswer (text : String) : refusing url text = .ok refusal := rfl
  obtain ⟨shown, hrefused, hshown⟩ := refused_with_excerpt hurl hcallable (hanswer _) hstatus
  have hlong : 4096 < refusal.body.utf8ByteSize := by
    rw [refusal, String.utf8ByteSize_append, utf8ByteSize_filler]
    decide
  obtain ⟨place, kept, -, -, -, -, -, hfit, rfl⟩ := hshown.long hlong
  have hsplit : refusal.body = filler ++ (String.singleton 'é' ++ "b") := rfl
  have hkept : kept = filler := by
    apply hfit.eq_of_next hsplit
    · rw [utf8ByteSize_filler]
      decide
    · rw [utf8ByteSize_filler]
      decide
  rw [hrefused, hkept]
  rfl

end GeneratorService

end Paddock
