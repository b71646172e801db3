import Paddock.Proofs.Json.Scan

/-! A value whose tokens are read, one after the other, is built again from them. -/
namespace Paddock.Json

open Reader

variable {n : Nat} {e : Expect} {j : Json} {frames : List Frame} {items : List Json} {name : Name}
  {members : List (Name × Json)}

/-- Where a value may begin. -/
def Expect.Open (e : Expect) : Prop := e = .value ∨ e = .itemOrEnd

/-- The tokens of the value put it into the innermost open container, while not too many are open. -/
def Reads (n : Nat) (j : Json) : Prop := ∀ frames e rest, e.Open → frames.length + n ≤ depthLimit →
  (tokens j ++ rest).foldlM Reader.step ⟨frames, e⟩ = rest.foldlM Reader.step (put frames j)

theorem reads_of_value {token : Token} (htokens : tokens j = [token])
    (hvalue : ∀ frames, Reader.step ⟨frames, .value⟩ token = some (put frames j))
    (hitem : ∀ frames, Reader.step ⟨frames, .itemOrEnd⟩ token = some (put frames j)) : Reads n j := by
  intro frames e rest he _
  rw [htokens, List.singleton_append, List.foldlM_cons]
  rcases he with rfl | rfl
  · rw [hvalue]
    rfl
  · rw [hitem]
    rfl

theorem putContainer_of_lt (h : frames.length + 1 ≤ depthLimit) (j : Json) :
    putContainer frames j = put frames j :=
  congrArg (put frames) (if_pos h)

theorem Reads.inside (hj : Reads n j) (hdepth : frames.length + 1 + n ≤ depthLimit) (he : e.Open) (frame : Frame)
    (rest : List Token) :
    (tokens j ++ rest).foldlM Reader.step ⟨frame :: frames, e⟩ =
      rest.foldlM Reader.step (put (frame :: frames) j) :=
  hj (frame :: frames) e rest he (by rwa [List.length_cons])

/-! ### Arrays -/

/-- What follows the first item, up to the end of the array. -/
theorem read_items (hitems : ∀ item ∈ items, Reads n item) (hdepth : frames.length + 1 + n ≤ depthLimit)
    (read : List Json) (rest : List Token) :
    (itemTokens items ++ .closeArray :: rest).foldlM Reader.step ⟨.array read :: frames, .commaOrEnd⟩ =
      rest.foldlM Reader.step (put frames (.array (read.reverse ++ items))) := by
  -- On the items still to come, for any that were read before them.
  induction items generalizing read with
  | nil =>
    change rest.foldlM Reader.step (putContainer frames (.array read.reverse)) = _
    rw [putContainer_of_lt (by omega), List.append_nil]
  | cons item items ih =>
    obtain ⟨hitem, hitems⟩ := List.forall_mem_cons.mp hitems
    simp only [itemTokens, List.cons_append, List.append_assoc]
    change (tokens item ++ _).foldlM Reader.step ⟨.array read :: frames, .value⟩ = _
    rw [hitem.inside hdepth (.inl rfl)]
    change (itemTokens items ++ _).foldlM Reader.step ⟨.array (item :: read) :: frames, .commaOrEnd⟩ = _
    rw [ih hitems, List.reverse_cons, List.append_assoc, List.singleton_append]

theorem reads_array (hitems : ∀ item ∈ items, Reads n item) : Reads (n + 1) (.array items) := by
  intro frames e rest he hdepth
  have hopen : Reader.step ⟨frames, e⟩ .openArray = some ⟨.array [] :: frames, .itemOrEnd⟩ := by
    rcases he with rfl | rfl <;> rfl
  cases items with
  | nil =>
    rw [tokens, List.cons_append, List.foldlM_cons, hopen]
    change rest.foldlM Reader.step (putContainer frames (.array [])) = _
    rw [putContainer_of_lt (by omega)]
  | cons item items =>
    obtain ⟨hitem, hitems⟩ := List.forall_mem_cons.mp hitems
    simp only [tokens, List.cons_append, List.append_assoc, List.nil_append]
    rw [List.foldlM_cons, hopen]
    change (tokens item ++ _).foldlM Reader.step ⟨.array [] :: frames, .itemOrEnd⟩ = _
    have hinner : frames.length + 1 + n ≤ depthLimit := by omega
    rw [hitem.inside hinner (.inr rfl)]
    exact read_items hitems hinner [item] rest

/-! ### Objects -/

/-- A member, from its name on. -/
theorem read_member (hname : name.escaped = byNumber name.text) (hj : Reads n j)
    (hdepth : frames.length + 1 + n ≤ depthLimit) (he : e = .name ∨ e = .nameOrEnd) (done : List (Name × Json))
    (last : Name) (rest : List Token) :
    (.string name.text (byNumber name.text) :: .colon :: (tokens j ++ rest)).foldlM Reader.step
        ⟨.object done last true :: frames, e⟩ =
      rest.foldlM Reader.step ⟨.object ((name, j) :: done) name true :: frames, .commaOrEnd⟩ := by
  have hstep : Reader.step ⟨.object done last true :: frames, e⟩ (.string name.text (byNumber name.text)) =
      some ⟨.object done name true :: frames, .colon⟩ := by
    rw [← hname]
    rcases he with rfl | rfl <;> rfl
  rw [List.foldlM_cons, hstep]
  change (tokens j ++ rest).foldlM Reader.step ⟨.object done name true :: frames, .value⟩ = _
  rw [hj.inside hdepth (.inl rfl)]
  rfl

/-- What follows the first member, up to the end of the object. -/
theorem read_members (hnames : ∀ m ∈ members, m.1.escaped = byNumber m.1.text)
    (hmembers : ∀ m ∈ members, Reads n m.2) (hdepth : frames.length + 1 + n ≤ depthLimit)
    (done : List (Name × Json)) (last : Name) (rest : List Token) :
    (memberTokens members ++ .closeObject :: rest).foldlM Reader.step
        ⟨.object done last true :: frames, .commaOrEnd⟩ =
      rest.foldlM Reader.step (put frames (.object (done.reverse ++ members))) := by
  induction members generalizing done last with
  | nil =>
    change rest.foldlM Reader.step (putContainer frames (.object done.reverse)) = _
    rw [putContainer_of_lt (by omega), List.append_nil]
  | cons m members ih =>
    obtain ⟨name, value⟩ := m
    obtain ⟨hname, hnames⟩ := List.forall_mem_cons.mp hnames
    obtain ⟨hvalue, hmembers⟩ := List.forall_mem_cons.mp hmembers
    simp only [memberTokens, List.cons_append, List.append_assoc]
    change (.string name.text (byNumber name.text) :: .colon :: (tokens value ++ _)).foldlM Reader.step
      ⟨.object done last true :: frames, .name⟩ = _
    rw [read_member hname hvalue hdepth (.inl rfl), ih hnames hmembers, List.reverse_cons, List.append_assoc,
      List.singleton_append]

theorem reads_object (hnames : ∀ m ∈ members, m.1.escaped = byNumber m.1.text)
    (hmembers : ∀ m ∈ members, Reads n m.2) : Reads (n + 1) (.object members) := by
  intro frames e rest he hdepth
  have hopen : Reader.step ⟨frames, e⟩ .openObject = some ⟨.object [] "" true :: frames, .nameOrEnd⟩ := by
    rcases he with rfl | rfl <;> rfl
  cases members with
  | nil =>
    rw [tokens, List.cons_append, List.foldlM_cons, hopen]
    change rest.foldlM Reader.step (putContainer frames (.object [])) = _
    rw [putContainer_of_lt (by omega)]
  | cons m members =>
    obtain ⟨name, value⟩ := m
    obtain ⟨hname, hnames⟩ := List.forall_mem_cons.mp hnames
    obtain ⟨hvalue, hmembers⟩ := List.forall_mem_cons.mp hmembers
    have hinner : frames.length + 1 + n ≤ depthLimit := by omega
    simp only [tokens, List.cons_append, List.append_assoc, List.nil_append]
    rw [List.foldlM_cons, hopen]
    change (.string name.text (byNumber name.text) :: .colon :: (tokens value ++ _)).foldlM Reader.step
      ⟨.object [] "" true :: frames, .nameOrEnd⟩ = _
    rw [read_member hname hvalue hinner (.inr rfl)]
    exact read_members hnames hmembers hinner [(name, value)] name rest

/-! ### Text -/

theorem Fits.reads (h : j.Fits n) : Reads n j := by
  -- A container takes one level of depth from what it holds.
  induction h with
  | null => exact reads_of_value rfl (fun _ => rfl) fun _ => rfl
  | bool b => exact reads_of_value rfl (fun _ => rfl) fun _ => rfl
  | string s => exact reads_of_value rfl (fun _ => rfl) fun _ => rfl
  | integer _ => exact reads_of_value rfl (fun _ => rfl) fun _ => rfl
  | array _ ih => exact reads_array ih
  | object hnames _ ih => exact reads_object hnames ih

theorem ofTokens?_tokens (h : j.Fits depthLimit) : ofTokens? (tokens j) = some j := by
  have hread := h.reads [] .value [] (.inl rfl) (by simp)
  rw [List.append_nil] at hread
  rw [ofTokens?, hread]
  rfl

/-- What was printed in any layout is read back. -/
theorem parse_print {layout : Layout} (hlayout : layout.IsBlank) (h : j.Fits depthLimit) :
    parse (String.ofList (print layout 0 j)) = some j := by
  rw [parse, String.toList_ofList, scan_print hlayout h]
  exact ofTokens?_tokens h

theorem parse_compact (h : j.Fits depthLimit) : parse (compact j) = some j := parse_print isBlank_compact h

theorem compact_inj {k : Json} (hj : j.Fits depthLimit) (hk : k.Fits depthLimit) (h : compact j = compact k) :
    j = k := by
  have hparse := parse_compact hj
  rw [h, parse_compact hk] at hparse
  exact (Option.some.inj hparse).symm

theorem parse_indented (h : j.Fits depthLimit) : parse (indented j) = some j := parse_print isBlank_indented h

/-! ### Text with white space around it -/

/-- The value in any layout, with white space before and after. -/
def IsText (text : String) (j : Json) : Prop := ∃ layout before after, layout.IsBlank ∧ Blank before ∧ Blank after ∧
  text = String.ofList (before ++ (print layout 0 j ++ after))

theorem isText_compact (j : Json) : IsText (compact j) j :=
  ⟨.compact, [], [], isBlank_compact, nofun, nofun, by rw [List.append_nil]; rfl⟩

/-- A line of its own, as the program shows it. -/
theorem isText_indented_line (j : Json) : IsText (indented j ++ "\n") j := by
  refine ⟨.indented, [], ['\n'], isBlank_indented, nofun, fun c hc => ?_, (String.ofList_append ..).symm⟩
  rw [List.mem_singleton.mp hc]
  decide

theorem parse_of_isText {text : String} (htext : IsText text j) (h : j.Fits depthLimit) : parse text = some j := by
  obtain ⟨layout, before, after, hlayout, hbefore, hafter, rfl⟩ := htext
  obtain ⟨s, hs, hrun⟩ := (h.scans hlayout).foldlM 0 [] after
  obtain ⟨s', hs', hcomplete⟩ := hs.scan_rest hafter
  have hscan : Token.scan (before ++ (print layout 0 j ++ after)) = some (tokens j) := by
    rw [Token.scan, scan_blank hbefore, hrun, hs']
    exact hcomplete.finish.trans (by simp)
  rw [parse, String.toList_ofList, hscan]
  exact ofTokens?_tokens h

end Paddock.Json
