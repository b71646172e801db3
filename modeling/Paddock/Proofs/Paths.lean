import Paddock.Disk

/-! Where the path of a file leads: a file that can be read can be replaced, and another can be written
beside it. -/
namespace Paddock

/-! ### Texts cut and joined -/

namespace Text

variable {separator : Char} {text field : List Char}

theorem fields_ne_nil (separator : Char) (text : List Char) : fields separator text ≠ [] := by
  intro h
  have hlength := length_fields separator text
  rw [h] at hlength
  cases hlength

theorem fields_of_notMem (h : separator ∉ field) : fields separator field = [field] := by
  induction field with
  | nil => rfl
  | cons c rest ih =>
    have hc : c ≠ separator := fun hc => h (hc ▸ List.mem_cons_self)
    have hrest : separator ∉ rest := fun hmem => h (List.mem_cons_of_mem c hmem)
    rw [fields, ih hrest]
    exact if_neg hc

/-- A field that is added behind a separator is one field more. -/
theorem fields_concat (text : List Char) (h : separator ∉ field) :
    fields separator (text ++ separator :: field) = fields separator text ++ [field] := by
  induction text with
  | nil =>
    simp only [List.nil_append, fields, fields_of_notMem h, if_true]
    rfl
  | cons c rest ih =>
    rw [List.cons_append, fields, ih, fields]
    cases hrest : fields separator rest with
    | nil => exact absurd hrest (fields_ne_nil separator rest)
    | cons first others =>
      simp only [List.cons_append]
      split <;> rfl

theorem notMem_of_mem_fields (h : field ∈ fields separator text) : separator ∉ field := by
  induction text generalizing field with
  | nil =>
    obtain rfl := List.mem_singleton.mp h
    exact List.not_mem_nil
  | cons c rest ih =>
    rw [fields] at h
    cases hrest : fields separator rest with
    | nil => exact absurd hrest (fields_ne_nil separator rest)
    | cons first others =>
      rw [hrest] at h ih
      dsimp only at h
      by_cases hc : c = separator
      · rw [if_pos hc] at h
        rcases List.mem_cons.mp h with rfl | hmem
        · exact List.not_mem_nil
        · exact ih hmem
      · rw [if_neg hc] at h
        rcases List.mem_cons.mp h with rfl | hmem
        · have hfirst := ih List.mem_cons_self
          intro hin
          rcases List.mem_cons.mp hin with rfl | hin
          · exact hc rfl
          · exact hfirst hin
        · exact ih (List.mem_cons_of_mem first hmem)

theorem mem_iff_mem_fields {c : Char} (hc : c ≠ separator) :
    c ∈ text ↔ ∃ field ∈ fields separator text, c ∈ field := by
  induction text with
  | nil => simp [fields]
  | cons head rest ih =>
    rw [fields, List.mem_cons, ih]
    cases hrest : fields separator rest with
    | nil => exact absurd hrest (fields_ne_nil separator rest)
    | cons first others =>
      by_cases hhead : head = separator
      · have hother : c ≠ head := fun h => hc (h.trans hhead)
        simp [hhead, hc]
      · simp [hhead, or_assoc]

end Text

namespace Path

variable {path : String} {first name : List Char} {way rest : List (List Char)}

theorem fields_foldl (text : List Char) (h : ∀ segment ∈ rest, '/' ∉ segment) :
    Text.fields '/' (rest.foldl (fun text segment => text ++ '/' :: segment) text) =
      Text.fields '/' text ++ rest := by
  induction rest generalizing text with
  | nil => exact (List.append_nil _).symm
  | cons segment rest ih =>
    have hsegment : '/' ∉ segment := h segment List.mem_cons_self
    rw [List.foldl_cons, ih _ fun other hother => h other (List.mem_cons_of_mem segment hother),
      Text.fields_concat text hsegment, List.append_assoc]
    rfl

theorem segments_join (hfirst : '/' ∉ first) (hrest : ∀ segment ∈ rest, '/' ∉ segment) :
    segments (join first rest) = first :: rest := by
  rw [segments, join, String.toList_ofList, fields_foldl first hrest, Text.fields_of_notMem hfirst]
  rfl

/-- The name of a draft. -/
def draftName : List Char := ".draft.new".toList

theorem segments_draftIn (directory : String) :
    segments (draftIn directory) = segments directory ++ [draftName] := by
  rw [segments, draftIn, String.toList_append]
  exact Text.fields_concat directory.toList (by decide)

theorem isIdle_iff {segment : List Char} : isIdle segment = true ↔ segment = [] ∨ segment = ['.'] := by
  simp [isIdle]

theorem segments_ne_nil (path : String) : segments path ≠ [] := Text.fields_ne_nil _ _

/-- Only an absolute path begins with a slash, and then its first segment is empty. -/
theorem isAbsolute_iff (h : segments path = first :: rest) (hrest : rest ≠ []) :
    isAbsolute path = first.isEmpty := by
  rw [segments] at h
  unfold isAbsolute
  cases htext : path.toList with
  | nil =>
    rw [htext] at h
    obtain ⟨-, rfl⟩ := List.cons.inj h
    exact absurd rfl hrest
  | cons c text =>
    rw [htext, Text.fields] at h
    cases hfields : Text.fields '/' text with
    | nil => exact absurd hfields (Text.fields_ne_nil '/' text)
    | cons field others =>
      rw [hfields] at h
      dsimp only at h
      by_cases hc : c = '/'
      · rw [if_pos hc] at h
        obtain ⟨rfl, -⟩ := List.cons.inj h
        subst hc
        rfl
      · rw [if_neg hc] at h
        obtain ⟨rfl, -⟩ := List.cons.inj h
        simpa using hc

theorem hasNul_eq_false_iff : hasNul path = false ↔ ∀ segment ∈ segments path, '\x00' ∉ segment := by
  have hmem := @Text.mem_iff_mem_fields '/' path.toList '\x00' (by decide)
  rw [hasNul, ← Bool.not_eq_true, List.contains_iff_mem, hmem]
  simp [segments]

/-- The way without the idle segments at its end. -/
def trimmed (way : List (List Char)) : List (List Char) := (way.reverse.dropWhile isIdle).reverse

theorem exists_trimmed (way : List (List Char)) :
    ∃ idle, way = trimmed way ++ idle ∧ ∀ segment ∈ idle, isIdle segment = true := by
  refine ⟨(way.reverse.takeWhile isIdle).reverse, ?_, fun segment hsegment => ?_⟩
  · rw [trimmed, ← List.reverse_append, List.takeWhile_append_dropWhile, List.reverse_reverse]
  · exact List.all_eq_true.mp List.all_takeWhile segment (List.mem_reverse.mp hsegment)

theorem parent_of_segments (h : segments path = first :: (way ++ [name])) (hname : isIdle name = false) :
    parent path = match trimmed way with
      | [] => if first.isEmpty then "/" else String.ofList first
      | segment :: rest => join first (segment :: rest) := by
  have hdrop : (way ++ [name]).reverse.dropWhile isIdle = name :: way.reverse := by
    rw [List.reverse_concat, List.dropWhile_cons_of_neg (by rw [hname]; exact Bool.false_ne_true)]
  rw [parent, h]
  dsimp only
  rw [hdrop]
  dsimp only
  rw [← trimmed]
  cases trimmed way <;> rfl

/-- Of the way to a file its directory has all but idle segments. -/
theorem segments_parent (h : segments path = first :: (way ++ [name])) (hname : isIdle name = false) :
    ∃ idle, segments (parent path) = first :: (trimmed way ++ idle) ∧
      ∀ segment ∈ idle, isIdle segment = true := by
  have hslash (segment : List Char) (hsegment : segment ∈ segments path) : '/' ∉ segment :=
    Text.notMem_of_mem_fields hsegment
  rw [h] at hslash
  have hfirst : '/' ∉ first := hslash first List.mem_cons_self
  obtain ⟨idle, hway, -⟩ := exists_trimmed way
  rw [parent_of_segments h hname]
  cases htrimmed : trimmed way with
  | nil =>
    cases first with
    | nil =>
      refine ⟨[[]], rfl, fun segment hsegment => ?_⟩
      obtain rfl := List.mem_singleton.mp hsegment
      rfl
    | cons c text =>
      refine ⟨[], ?_, fun _ hsegment => absurd hsegment List.not_mem_nil⟩
      change segments (String.ofList (c :: text)) = [c :: text]
      rw [segments, String.toList_ofList, Text.fields_of_notMem hfirst]
  | cons segment rest =>
    refine ⟨[], ?_, fun _ hsegment => absurd hsegment List.not_mem_nil⟩
    refine (segments_join hfirst fun other hother => hslash other ?_).trans (by simp)
    rw [hway, htrimmed]
    simp only [List.mem_cons, List.mem_append] at hother ⊢
    exact .inr (.inl (.inl hother))

theorem parent_of_name (h : segments path = [name]) : parent path = "." := by
  rw [parent, h]
  rfl

theorem isEmpty_draftIn (directory : String) : (draftIn directory).isEmpty = false := by
  cases hempty : (draftIn directory).isEmpty with
  | false => rfl
  | true =>
    have hsegments := segments_draftIn directory
    rw [String.isEmpty_iff.mp hempty] at hsegments
    have hlength := congrArg List.length hsegments
    have hone : (segments "").length = 1 := rfl
    have hpos := List.length_pos_iff.mpr (segments_ne_nil directory)
    rw [List.length_append, List.length_singleton] at hlength
    omega

theorem hasNul_draftIn {directory : String} (h : hasNul directory = false) :
    hasNul (draftIn directory) = false := by
  rw [hasNul_eq_false_iff] at h ⊢
  rw [segments_draftIn]
  intro segment hsegment
  rcases List.mem_append.mp hsegment with hsegment | hsegment
  · exact h segment hsegment
  · obtain rfl := List.mem_singleton.mp hsegment
    decide

theorem hasNul_parent (h : segments path = way ++ [name]) (hname : isIdle name = false)
    (hnul : hasNul path = false) : hasNul (parent path) = false := by
  cases way with
  | nil =>
    have hparent : parent path = "." := parent_of_name h
    rw [hparent]
    rfl
  | cons first way =>
    obtain ⟨idle, hparent, hidle⟩ := segments_parent h hname
    obtain ⟨rest, htrimmed, -⟩ := exists_trimmed way
    rw [hasNul_eq_false_iff] at hnul ⊢
    intro segment hsegment
    rw [hparent, ← List.cons_append, List.mem_append] at hsegment
    rcases hsegment with hsegment | hsegment
    · refine hnul segment ?_
      rw [h, htrimmed, ← List.cons_append, List.append_assoc]
      exact List.mem_append_left _ hsegment
    · rcases isIdle_iff.mp (hidle segment hsegment) with rfl | rfl <;> decide

end Path

/-! ### Ways through directories -/

namespace Disk

variable {d : Disk} {p q : Place} {segment name : List Char} {segments way : List (List Char)}
  {path content : String}

theorem step_eq_ok_iff : d.step p segment = .ok q ↔
    d.lookup? p = some .directory ∧ Path.isLongName segment = false ∧ p.enter segment = q := by
  unfold step
  cases hd : d.ensureDirectory p with
  | ok _ =>
    have hdirectory := lookup?_of_ensureDirectory hd
    cases Path.isLongName segment <;> simp [hdirectory]
  | error fault =>
    have hother : d.lookup? p ≠ some .directory := by
      intro h
      simp [ensureDirectory, h] at hd
    simp [hother]

theorem walk_append {rest : List (List Char)} : d.walk p (segments ++ rest) = .ok q ↔
    ∃ r, d.walk p segments = .ok r ∧ d.walk r rest = .ok q := by
  unfold walk
  rw [List.foldlM_append]
  cases segments.foldlM d.step p <;> simp [bind, Except.bind]

theorem walk_cons : d.walk p (segment :: segments) = .ok q ↔
    ∃ r, d.step p segment = .ok r ∧ d.walk r segments = .ok q := by
  unfold walk
  rw [List.foldlM_cons]
  cases d.step p segment <;> simp [bind, Except.bind]

theorem walk_nil : d.walk p [] = .ok q ↔ p = q := by
  unfold walk
  simp [pure, Except.pure]

theorem walk_concat : d.walk p (way ++ [name]) = .ok q ↔
    ∃ r, d.walk p way = .ok r ∧ d.step r name = .ok q := by
  simp only [walk_append, walk_cons, walk_nil, exists_eq_right]

theorem enter_idle (h : Path.isIdle segment = true) : p.enter segment = p := if_pos h

theorem walk_idle (h : ∀ segment ∈ segments, Path.isIdle segment = true) (hwalk : d.walk p segments = .ok q) :
    p = q := by
  induction segments generalizing p with
  | nil => exact walk_nil.mp hwalk
  | cons segment rest ih =>
    obtain ⟨r, hstep, hrest⟩ := walk_cons.mp hwalk
    obtain ⟨-, -, rfl⟩ := step_eq_ok_iff.mp hstep
    rw [enter_idle (h segment List.mem_cons_self)] at hrest
    exact ih (fun other hother => h other (List.mem_cons_of_mem segment hother)) hrest

theorem walk_of_idle (hp : d.lookup? p = some .directory) (h : ∀ segment ∈ segments, Path.isIdle segment = true) :
    d.walk p segments = .ok p := by
  induction segments with
  | nil => exact walk_nil.mpr rfl
  | cons segment rest ih =>
    have hidle := h segment List.mem_cons_self
    have hshort : Path.isLongName segment = false := by
      rcases Path.isIdle_iff.mp hidle with rfl | rfl <;> rfl
    refine walk_cons.mpr ⟨p, step_eq_ok_iff.mpr ⟨hp, hshort, enter_idle hidle⟩, ?_⟩
    exact ih fun other hother => h other (List.mem_cons_of_mem segment hother)

theorem lookup?_outer (d : Disk) (h : p.isOuter = true) : d.lookup? p = some .directory := if_pos h

/-- What a walk leads to: everything around is a directory, and above the names there is only the way
up. -/
structure Reached (d : Disk) (p : Place) : Prop where
  around : ∀ names ∈ Place.enclosing p.names, d.lookup? ⟨p.absolute, names⟩ = some .directory
  straight : (p.names.dropWhile (· != Path.up)).all (· == Path.up) = true

theorem reached_start (d : Disk) (path : String) : d.Reached (.start path) where
  around _ h := by cases h
  straight := rfl

theorem Reached.enter (h : d.Reached p) (hp : d.lookup? p = some .directory) (segment : List Char) :
    d.Reached (p.enter segment) := by
  obtain ⟨absolute, names⟩ := p
  obtain ⟨haround, hstraight⟩ := h
  unfold Place.enter
  split
  · exact ⟨haround, hstraight⟩
  split
  · cases names with
    | nil =>
      cases absolute with
      | true => exact ⟨haround, hstraight⟩
      | false =>
        refine ⟨fun names hnames => ?_, rfl⟩
        obtain rfl := List.mem_singleton.mp hnames
        exact hp
    | cons name rest =>
      by_cases hname : name = Path.up
      · subst hname
        refine ⟨fun names hnames => ?_, ?_⟩
        · have hnames : names ∈ Place.enclosing (Path.up :: Path.up :: rest) := by simpa using hnames
          rcases List.mem_cons.mp hnames with rfl | hnames
          · exact hp
          · exact haround names hnames
        · simpa using hstraight
      · refine ⟨fun names hnames => ?_, ?_⟩
        · exact haround names (List.mem_cons_of_mem _ (by simpa [hname] using hnames))
        · simpa [hname] using hstraight
  · next hup =>
    refine ⟨fun names hnames => ?_, ?_⟩
    · rcases List.mem_cons.mp hnames with rfl | hnames
      · exact hp
      · exact haround names hnames
    · simpa [hup] using hstraight

theorem Reached.walk (h : d.Reached p) (hwalk : d.walk p segments = .ok q) : d.Reached q := by
  induction segments generalizing p with
  | nil => exact walk_nil.mp hwalk ▸ h
  | cons segment rest ih =>
    obtain ⟨r, hstep, hrest⟩ := walk_cons.mp hwalk
    obtain ⟨hdirectory, -, rfl⟩ := step_eq_ok_iff.mp hstep
    exact ih (h.enter hdirectory segment) hrest

/-- The way up leads to a directory. -/
theorem Reached.lookup?_up (h : d.Reached p) (hp : d.lookup? p = some .directory) :
    d.lookup? (p.enter Path.up) = some .directory := by
  obtain ⟨absolute, names⟩ := p
  have hidle : Path.isIdle Path.up = false := rfl
  cases names with
  | nil => exact lookup?_outer d (by cases absolute <;> rfl)
  | cons name rest =>
    by_cases hname : name = Path.up
    · subst hname
      refine lookup?_outer d ?_
      have hrest : rest.all (· == Path.up) = true := by simpa using h.straight
      simpa [Place.enter, Place.isOuter, hidle] using hrest
    · have hrest := h.around rest List.mem_cons_self
      simpa [Place.enter, hname, hidle] using hrest

/-! ### The files at the end of them -/

theorem locate_eq_ok_iff : d.locate path = .ok p ↔ Path.hasNul path = false ∧ Path.isLong path = false ∧
    path.isEmpty = false ∧ d.walk (.start path) (Path.segments path) = .ok p := by
  unfold locate
  cases Path.hasNul path <;> cases Path.isLong path <;> cases path.isEmpty <;> simp

theorem read_eq_ok_iff : d.read path = .ok content ↔
    ∃ p, d.locate path = .ok p ∧ d.lookup? p = some (.file content) := by
  unfold read find
  cases d.locate path with
  | error fault => simp [bind, Except.bind]
  | ok p =>
    simp only [bind, Except.bind, Except.ok.injEq, exists_eq_left']
    cases d.lookup? p with
    | none => simp
    | some entry => cases entry <;> simp

/-- How a path leads to a file: its last segment is a name, and the others lead through directories. -/
theorem exists_way_of_read (h : d.read path = .ok content) :
    Path.hasNul path = false ∧ Path.isLong path = false ∧
      ∃ way name directory place, Path.segments path = way ++ [name] ∧ Path.isIdle name = false ∧
        name ≠ Path.up ∧ d.walk (.start path) way = .ok directory ∧ d.step directory name = .ok place ∧
        d.lookup? place = some (.file content) := by
  obtain ⟨place, hlocate, hfile⟩ := read_eq_ok_iff.mp h
  obtain ⟨hnul, hlong, -, hwalk⟩ := locate_eq_ok_iff.mp hlocate
  obtain ⟨way, name, hsegments⟩ : ∃ way name, Path.segments path = way ++ [name] :=
    ⟨_, _, (List.dropLast_concat_getLast (Path.segments_ne_nil path)).symm⟩
  rw [hsegments] at hwalk
  obtain ⟨directory, hway, hstep⟩ := walk_concat.mp hwalk
  obtain ⟨hdirectory, -, hplace⟩ := step_eq_ok_iff.mp hstep
  refine ⟨hnul, hlong, way, name, directory, place, hsegments, ?_, ?_, hway, hstep, hfile⟩
  · cases hidle : Path.isIdle name with
    | false => rfl
    | true =>
      rw [← hplace, enter_idle hidle, hdirectory] at hfile
      cases hfile
  · rintro rfl
    have hup := ((reached_start d path).walk hway).lookup?_up hdirectory
    rw [hplace, hfile] at hup
    cases hup

/-- A file that can be read can be replaced. -/
theorem exists_target_of_read (h : d.read path = .ok content) : ∃ p, d.target path = .ok p := by
  obtain ⟨hnul, hlong, way, name, directory, place, hsegments, hidle, hup, hway, hstep, hfile⟩ :=
    exists_way_of_read h
  have hname : name ≠ [] := by
    rintro rfl
    cases hidle
  have hdot : name ≠ ['.'] := by
    rintro rfl
    cases hidle
  have hsplit : Path.split? path = some (way, name) := by
    rw [Path.split?, hsegments, List.reverse_concat,
      List.dropWhile_cons_of_neg (by simpa using hname)]
    simp
  have hslash : Path.endsInSlash path = false := by
    simp [Path.endsInSlash, hsegments, hname]
  refine ⟨place, ?_⟩
  simp [target, hnul, hlong, hsplit, hway, hstep, hdot, hup, hslash, hfile, bind, Except.bind]

/-- In a directory there can be a draft. -/
theorem locate_draft_of_walk {directory : String} (hnul : Path.hasNul directory = false)
    (hroom : Path.isLong (Path.draftIn directory) = false)
    (hwalk : d.walk (.start (Path.draftIn directory)) (Path.segments directory) = .ok p)
    (hp : d.lookup? p = some .directory) : d.locate (Path.draftIn directory) = .ok (p.enter Path.draftName) := by
  have hstep : d.step p Path.draftName = .ok (p.enter Path.draftName) :=
    step_eq_ok_iff.mpr ⟨hp, by decide, rfl⟩
  have hwhole := walk_concat.mpr ⟨p, hwalk, hstep⟩
  rw [← Path.segments_draftIn] at hwhole
  exact locate_eq_ok_iff.mpr ⟨Path.hasNul_draftIn hnul, hroom, Path.isEmpty_draftIn directory, hwhole⟩

/-- The path of the directory around leads where the way to a name leads, so far as that is a directory. -/
theorem exists_walk_parent (h : Path.segments path = way ++ [name]) (hname : Path.isIdle name = false)
    (hwalk : d.walk (.start path) way = .ok p) (hp : d.lookup? p = some .directory) :
    ∃ q, d.walk (.start (Path.draftIn (Path.parent path))) (Path.segments (Path.parent path)) = .ok q ∧
      d.lookup? q = some .directory := by
  cases way with
  | nil =>
    -- A name alone is in the working directory.
    have hparent : Path.parent path = "." := Path.parent_of_name h
    rw [hparent]
    have hworking : d.lookup? (.start (Path.draftIn ".")) = some .directory := lookup?_outer d rfl
    exact ⟨_, walk_of_idle hworking (by decide), hworking⟩
  | cons first way =>
    obtain ⟨idle, hparent, hidle⟩ := Path.segments_parent h hname
    obtain ⟨rest, htrimmed, hrest⟩ := Path.exists_trimmed way
    have hstart : Place.start (Path.draftIn (Path.parent path)) = .start path := by
      have hdraft : Path.segments (Path.draftIn (Path.parent path)) =
          first :: (Path.trimmed way ++ idle ++ [Path.draftName]) := by
        rw [Path.segments_draftIn, hparent]
        rfl
      rw [Place.start, Place.start, Path.isAbsolute_iff hdraft (by simp), Path.isAbsolute_iff h (by simp)]
    rw [htrimmed, ← List.cons_append] at hwalk
    obtain ⟨q, htaken, hleft⟩ := walk_append.mp hwalk
    obtain rfl := walk_idle hrest hleft
    refine ⟨q, ?_, hp⟩
    rw [hstart, hparent, ← List.cons_append]
    exact walk_append.mpr ⟨q, htaken, walk_of_idle hp hidle⟩

/-- Beside a file that can be read another can be written, if the path of a draft is not too long. -/
theorem exists_locate_draft_of_read (h : d.read path = .ok content)
    (hroom : Path.isLong (Path.draftIn (Path.parent path)) = false) :
    ∃ p, d.locate (Path.draftIn (Path.parent path)) = .ok p := by
  obtain ⟨hnul, -, way, name, directory, place, hsegments, hidle, -, hway, hstep, -⟩ := exists_way_of_read h
  obtain ⟨hdirectory, -, -⟩ := step_eq_ok_iff.mp hstep
  obtain ⟨p, hwalk, hp⟩ := exists_walk_parent hsegments hidle hway hdirectory
  exact ⟨_, locate_draft_of_walk (Path.hasNul_parent hsegments hidle hnul) hroom hwalk hp⟩

end Disk

end Paddock
