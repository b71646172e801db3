import Mathlib.Tactic.IntervalCases
import Paddock.Amount
import Paddock.Json.Parser
import Paddock.Json.Printer

/-! Scanning what was printed gives the tokens of the value, whatever the layout. -/
namespace Paddock

namespace Decimal

variable {n : Nat} {e : Int}

/-- A number is rounded up by less than itself. -/
theorem rounded_le (n : Nat) : rounded n ≤ 2 * n := by
  unfold rounded
  extract_lets drop kept lost half
  have hkept : kept * 2 ^ drop ≤ n := by
    rw [show kept = n / 2 ^ drop from Nat.shiftRight_eq_div_pow _ _]
    exact Nat.div_mul_le_self _ _
  simp only [Nat.shiftLeft_eq]
  split
  · next hup =>
    have hpos : 0 < kept := by
      by_contra hzero
      have hn : n ≠ 0 := by
        rintro rfl
        simp [half, lost, kept, drop, Nat.log2_zero] at hup
      have hlog : 2 ^ drop ≤ n :=
        Nat.le_trans (Nat.pow_le_pow_right (by decide) (Nat.sub_le _ _)) (Nat.log2_self_le hn)
      have : 0 < n / 2 ^ drop := Nat.div_pos hlog (Nat.two_pow_pos _)
      rw [← Nat.shiftRight_eq_div_pow] at this
      exact hzero this
    calc (kept + 1) * 2 ^ drop ≤ (2 * kept) * 2 ^ drop := Nat.mul_le_mul_right _ (by omega)
      _ = 2 * (kept * 2 ^ drop) := Nat.mul_assoc _ _ _
      _ ≤ 2 * n := Nat.mul_le_mul_left _ hkept
  · omega

/-- Digits that are cut off only make the number smaller. -/
theorem exists_cut (n : Nat) (e : Int) :
    ∃ k : Nat, (cut n e).exponent = e + k ∧ (cut n e).digits * 10 ^ k ≤ n := by
  induction n using Nat.strongRecOn generalizing e with
  | ind n ih =>
    unfold cut
    split
    · exact ⟨0, by simp, by simp⟩
    · next hlarge =>
      obtain ⟨k, hexp, hdigits⟩ := ih (n / 10) (by omega) (e + 1)
      refine ⟨k + 1, by rw [hexp]; push_cast; omega, ?_⟩
      calc (cut (n / 10) (e + 1)).digits * 10 ^ (k + 1) = (cut (n / 10) (e + 1)).digits * 10 ^ k * 10 := by
            rw [Nat.pow_succ, Nat.mul_assoc]
        _ ≤ n / 10 * 10 := Nat.mul_le_mul_right _ hdigits
        _ ≤ n := Nat.div_mul_le_self _ _

theorem ceiling_large : 4 * amountBound < ceiling := by decide +kernel

/-- Amounts are far from the end of double precision. -/
theorem isBeyondProduct_of_lt (hn : n < amountBound) : isBeyondProduct ⟨n, 0⟩ = false := by
  obtain ⟨k, hexp, hdigits⟩ := exists_cut n 0
  rw [Int.zero_add] at hexp
  simp only [isBeyondProduct, hexp, Bool.and_eq_false_iff, bne_eq_false_iff_eq, Bool.or_eq_false_iff,
    decide_eq_false_iff_not, Int.toNat_natCast]
  by_cases hzero : (cut n 0).digits = 0
  · exact .inl hzero
  · have hpow : 10 ^ k ≤ n := Nat.le_trans (Nat.le_mul_of_pos_left _ (Nat.pos_of_ne_zero hzero)) hdigits
    refine .inr ⟨fun hk => ?_, .inr fun hover => ?_⟩
    · have hmono : 10 ^ 39 ≤ 10 ^ k := Nat.pow_le_pow_right (by decide) (by omega)
      have : amountBound ≤ 10 ^ 39 := by decide
      omega
    · have hproduct : rounded (cut n 0).digits * rounded (10 ^ k) ≤ 4 * n := by
        calc rounded (cut n 0).digits * rounded (10 ^ k) ≤ (2 * (cut n 0).digits) * (2 * 10 ^ k) :=
              Nat.mul_le_mul (rounded_le _) (rounded_le _)
          _ = 4 * ((cut n 0).digits * 10 ^ k) := by rw [Nat.mul_mul_mul_comm]
          _ ≤ 4 * n := Nat.mul_le_mul_left _ hdigits
      have hle : ceiling ≤ 4 * n := Nat.le_trans hover hproduct
      have := ceiling_large
      omega

end Decimal

namespace Json

variable {n : Nat} {ts : List Token} {s : Scanner} {c : Char} {l rest : List Char}

/-! ### Characters between values -/

def Blank (l : List Char) : Prop := ∀ c ∈ l, c ∈ [' ', '\n', '\t', '\r']

/-- What may come right behind a value. -/
def Follows (c : Char) : Prop := c ∈ [',', ']', '}', ' ', '\n', '\t', '\r']

instance (c : Char) : Decidable (Follows c) := inferInstanceAs (Decidable (c ∈ _))

theorem Blank.follows_head (hl : Blank (c :: l)) : Follows c := by
  have hc := hl c List.mem_cons_self
  simp only [Follows, List.mem_cons, List.not_mem_nil, or_false] at hc ⊢
  tauto

theorem step_blank (hc : c ∈ [' ', '\n', '\t', '\r']) (ts : List Token) :
    Scanner.step ⟨ts, .between⟩ c = some ⟨ts, .between⟩ := by
  simp only [List.mem_cons, List.not_mem_nil, or_false] at hc
  rcases hc with rfl | rfl | rfl | rfl <;> rfl

theorem scan_blank (hl : Blank l) (rest : List Char) (ts : List Token) :
    (l ++ rest).foldlM Scanner.step ⟨ts, .between⟩ = rest.foldlM Scanner.step ⟨ts, .between⟩ := by
  induction l with
  | nil => rfl
  | cons c l ih =>
    obtain ⟨hc, hl⟩ := List.forall_mem_cons.mp hl
    rw [List.cons_append, List.foldlM_cons, step_blank hc]
    exact ih hl

/-! ### Numbers -/

theorem digit?_digitChar (hn : n < 10) : Scanner.digit? (Nat.digitChar n) = some n := by
  interval_cases n <;> rfl

theorem start_digitChar (hpos : 0 < n) (hn : n < 10) (ts : List Token) :
    Scanner.start ⟨ts, .between⟩ (Nat.digitChar n) = some ⟨ts, .number .whole (.start false n)⟩ := by
  interval_cases n <;> rfl

/-- The digits of a number, read from the first on. -/
theorem scan_toDigits (hpos : 0 < n) (ts : List Token) : (Nat.toDigits 10 n).foldlM Scanner.step ⟨ts, .between⟩ =
    some ⟨ts, .number .whole (.start false n)⟩ := by
  induction n using Nat.strongRecOn with
  | ind n ih =>
    by_cases hn : n < 10
    · rw [Nat.toDigits_of_lt_base hn]
      exact congrArg (· >>= pure) (start_digitChar hpos hn ts)
    · have hlast : n % 10 < 10 := Nat.mod_lt _ (by decide)
      rw [Nat.toDigits_of_base_le (by decide) (by omega), List.foldlM_append, ih (n / 10) (by omega) (by omega)]
      change (Scanner.step ⟨ts, .number .whole (.start false (n / 10))⟩ (Nat.digitChar (n % 10)) >>= pure) = _
      simp only [Scanner.step, Scanner.number, digit?_digitChar hlast, Number.push, Number.start]
      rw [Nat.mul_comm, Nat.div_add_mod]
      rfl

theorem token?_start {phase : Phase} (hphase : phase = .zero ∨ phase = .whole) (hn : n < amountBound) :
    (Number.start false n).token? phase = some (.integer n) := by
  have hwithin : (Number.start false n).within (.integer n) = .integer n := by
    rw [Number.within, show (Number.start false n).toDecimal = ⟨n, 0⟩ from rfl, Decimal.isBeyondProduct_of_lt hn]
    rfl
  rcases hphase with rfl | rfl <;> exact congrArg some hwithin

/-- The scanner has all of a value, and perhaps waits for what ends a number. -/
def Complete (s : Scanner) (ts : List Token) : Prop :=
  s = ⟨ts, .between⟩ ∨ ∃ phase n outer, (phase = .zero ∨ phase = .whole) ∧ n < amountBound ∧
    ts = .integer n :: outer ∧ s = ⟨outer, .number phase (.start false n)⟩

theorem Complete.step (h : Complete s ts) (hc : Follows c) : s.step c = Scanner.step ⟨ts, .between⟩ c := by
  obtain rfl | ⟨phase, n, outer, hphase, hn, rfl, rfl⟩ := h
  · rfl
  · have hend : Scanner.endNumber ⟨outer, .number phase (.start false n)⟩ phase (.start false n) c =
        Scanner.step ⟨.integer n :: outer, .between⟩ c := by
      rw [Scanner.endNumber, token?_start hphase hn]
      rfl
    rw [← hend]
    simp only [Follows, List.mem_cons, List.not_mem_nil, or_false] at hc
    rcases hphase with rfl | rfl <;> rcases hc with rfl | rfl | rfl | rfl | rfl | rfl | rfl <;> rfl

theorem Complete.foldlM (h : Complete s ts) (hc : Follows c) (rest : List Char) :
    (c :: rest).foldlM Scanner.step s = (c :: rest).foldlM Scanner.step ⟨ts, .between⟩ := by
  rw [List.foldlM_cons, List.foldlM_cons, h.step hc]

/-- White space and then what ends a value. -/
theorem Complete.foldlM_blank (h : Complete s ts) (hl : Blank l) (hc : Follows c) (rest : List Char) :
    (l ++ c :: rest).foldlM Scanner.step s = (c :: rest).foldlM Scanner.step ⟨ts, .between⟩ := by
  cases l with
  | nil => exact h.foldlM hc rest
  | cons first l => rw [List.cons_append, h.foldlM hl.follows_head, ← List.cons_append, scan_blank hl]

theorem Complete.scan_rest (h : Complete s ts) (hl : Blank l) :
    ∃ s', l.foldlM Scanner.step s = some s' ∧ Complete s' ts := by
  cases l with
  | nil => exact ⟨s, rfl, h⟩
  | cons c l =>
    refine ⟨⟨ts, .between⟩, ?_, .inl rfl⟩
    have hblank := scan_blank hl [] ts
    rwa [List.append_nil, ← h.foldlM hl.follows_head] at hblank

theorem Complete.finish (h : Complete s ts) : s.finish = some ts.reverse := by
  obtain rfl | ⟨phase, n, outer, hphase, hn, rfl, rfl⟩ := h
  · rfl
  · simp only [Scanner.finish, token?_start hphase hn]
    rfl

theorem scan_integer (hn : n < amountBound) (ts : List Token) :
    ∃ s, (integerText n).foldlM Scanner.step ⟨ts, .between⟩ = some s ∧ Complete s (.integer n :: ts) := by
  change ∃ s, (Nat.toDigits 10 n).foldlM Scanner.step ⟨ts, .between⟩ = some s ∧ _
  by_cases hzero : n = 0
  · subst hzero
    exact ⟨⟨ts, .number .zero (.start false 0)⟩, rfl, .inr ⟨.zero, 0, ts, .inl rfl, hn, rfl, rfl⟩⟩
  · exact ⟨_, scan_toDigits (Nat.pos_of_ne_zero hzero) ts, .inr ⟨.whole, n, ts, .inr rfl, hn, rfl, rfl⟩⟩

/-! ### Strings -/

/-- Whether a character is written by its number. -/
def isNumbered (c : Char) : Bool := c.toNat < 0x20 && !(['\x08', '\x0c', '\n', '\r', '\t'].contains c)

def pieceOf (c : Char) : Piece := if isNumbered c then .unit c.toNat else .plain c

theorem hexDigit?_hexDigit (hn : n < 16) : Scanner.hexDigit? (hexDigit n) = some n := by
  interval_cases n <;> rfl

theorem scan_numbered (hn : n < 0x20) (ts : List Token) (ps : List Piece) :
    ['u', '0', '0', hexDigit (n / 16), hexDigit (n % 16)].foldlM Scanner.step ⟨ts, .escape ps⟩ =
      some ⟨ts, .string (.unit n :: ps)⟩ := by
  have hzero : Scanner.hexDigit? '0' = some 0 := rfl
  have hhigh := hexDigit?_hexDigit (show n / 16 < 16 by omega)
  have hlow := hexDigit?_hexDigit (show n % 16 < 16 by omega)
  have hsum : n / 16 * 16 + n % 16 = n := Nat.div_add_mod' n 16
  simp [Scanner.step, hzero, hhigh, hlow, hsum]

theorem scan_escape (c : Char) (ts : List Token) (ps : List Piece) :
    (escape c).foldlM Scanner.step ⟨ts, .string ps⟩ = some ⟨ts, .string (pieceOf c :: ps)⟩ := by
  unfold escape
  split
  -- The characters with an escape of their own.
  iterate 7 rfl
  next hquote hslash hb hf hn hr ht =>
    simp only [imp_false] at hquote hslash hb hf hn hr ht
    split
    · next hlow =>
      have hpiece : pieceOf c = .unit c.toNat := by simp [pieceOf, isNumbered, hlow, hb, hf, hn, hr, ht]
      rw [hpiece]
      exact scan_numbered hlow ts ps
    · next hhigh =>
      have hpiece : pieceOf c = .plain c := by simp [pieceOf, isNumbered, hhigh]
      simp [Scanner.step, hquote, hslash, hhigh, hpiece]

theorem scan_escapes (l : List Char) (ts : List Token) (ps : List Piece) :
    (l.flatMap escape).foldlM Scanner.step ⟨ts, .string ps⟩ = some ⟨ts, .string ((l.map pieceOf).reverse ++ ps)⟩ := by
  induction l generalizing ps with
  | nil => rfl
  | cons c l ih =>
    rw [List.flatMap_cons, List.foldlM_append, scan_escape]
    simp [ih]

theorem assemble_unit (hn : n < 0x20) (ps : List Piece) :
    assemble (.unit n :: ps) = (assemble ps).map (Char.ofNat n :: ·) := by
  have hlow : ¬ (0xD800 ≤ n ∧ n < 0xDC00) := by omega
  have hhigh : ¬ (0xDC00 ≤ n ∧ n < 0xE000) := by omega
  have hpair : ¬ (0xD800 ≤ n ∧ n < 0xE000) := by omega
  cases ps with
  | nil => simp [assemble, hpair]
  | cons p ps => cases p <;> simp [assemble, hlow, hhigh, hpair]

theorem assemble_pieces (l : List Char) : assemble (l.map pieceOf) = some l := by
  induction l with
  | nil => rfl
  | cons c l ih =>
    rw [List.map_cons, pieceOf]
    split
    · next hc =>
      have hlow : c.toNat < 0x20 := by
        simp only [isNumbered, Bool.and_eq_true, decide_eq_true_eq] at hc
        exact hc.1
      rw [assemble_unit hlow, ih, Char.ofNat_toNat]
      rfl
    · rw [assemble, ih]
      rfl

/-- Whether a text is written with a character by its number. -/
def byNumber (text : String) : Bool := text.toList.any isNumbered

theorem ofPieces_pieces (text : String) :
    Token.ofPieces (text.toList.map pieceOf) = .string text (byNumber text) := by
  have hunit : (text.toList.map pieceOf).any Piece.isUnit = byNumber text := by
    rw [byNumber, List.any_map]
    congr 1
    funext c
    simp only [Function.comp, pieceOf]
    split <;> simp_all [Piece.isUnit]
  rw [Token.ofPieces, assemble_pieces, hunit]
  simp

theorem scan_quoted (text : String) (rest : List Char) (ts : List Token) :
    (quoted text ++ rest).foldlM Scanner.step ⟨ts, .between⟩ =
      rest.foldlM Scanner.step ⟨.string text (byNumber text) :: ts, .between⟩ := by
  rw [quoted, List.cons_append, List.cons_append, List.append_assoc, List.foldlM_cons]
  change (text.toList.flatMap escape ++ ('"' :: rest)).foldlM Scanner.step ⟨ts, .string []⟩ = _
  rw [List.foldlM_append, scan_escapes]
  change rest.foldlM Scanner.step
    ⟨.ofPieces (((text.toList.map pieceOf).reverse ++ []).reverse) :: ts, .between⟩ = _
  rw [List.append_nil, List.reverse_reverse, ofPieces_pieces]

/-! ### Values -/

mutual

/-- The tokens that a value is printed as. -/
def tokens : Json → List Token
  | .null | .decimal | .unreadable => [.null]
  | .bool b => [.bool b]
  | .integer n => [.integer n]
  | .string s => [.string s (byNumber s)]
  | .array [] => [.openArray, .closeArray]
  | .array (item :: items) => .openArray :: (tokens item ++ (itemTokens items ++ [.closeArray]))
  | .object [] => [.openObject, .closeObject]
  | .object ((name, value) :: members) =>
    .openObject :: .string name.text (byNumber name.text) :: .colon ::
      (tokens value ++ (memberTokens members ++ [.closeObject]))

def itemTokens : List Json → List Token
  | [] => []
  | item :: items => .comma :: (tokens item ++ itemTokens items)

def memberTokens : List (Name × Json) → List Token
  | [] => []
  | (name, value) :: members =>
    .comma :: .string name.text (byNumber name.text) :: .colon :: (tokens value ++ memberTokens members)

end

/-- A value of at most this height that is read back as it was: its numbers are amounts, and its names
know how they are written. -/
inductive Fits : Nat → Json → Prop
  | null {height : Nat} : Fits height .null
  | bool {height : Nat} (b : Bool) : Fits height (.bool b)
  | string {height : Nat} (s : String) : Fits height (.string s)
  | integer {height k : Nat} : k < amountBound → Fits height (.integer k)
  | array {height : Nat} {items : List Json} : (∀ item ∈ items, Fits height item) → Fits (height + 1) (.array items)
  | object {height : Nat} {members : List (Name × Json)} : (∀ m ∈ members, m.1.escaped = byNumber m.1.text) →
      (∀ m ∈ members, Fits height m.2) → Fits (height + 1) (.object members)

/-- Nothing but white space between the tokens. -/
structure Layout.IsBlank (layout : Layout) : Prop where
  lineBreak : ∀ depth, Blank (layout.lineBreak depth)
  afterColon : Blank layout.afterColon

theorem isBlank_compact : Layout.compact.IsBlank where
  lineBreak _ _ h := by cases h
  afterColon _ h := by cases h

theorem isBlank_indented : Layout.indented.IsBlank where
  lineBreak depth c hc := by
    rcases List.mem_cons.mp hc with rfl | hc
    · decide
    · rw [(List.mem_replicate.mp hc).2]
      decide
  afterColon c hc := by
    rw [List.mem_singleton.mp hc]
    decide

section Print

variable {layout : Layout} {depth : Nat} {j : Json} {items : List Json} {members : List (Name × Json)}

/-- Printed at any depth, the value is scanned into its tokens. -/
def Scans (layout : Layout) (j : Json) : Prop := ∀ depth ts, ∃ s,
  (print layout depth j).foldlM Scanner.step ⟨ts, .between⟩ = some s ∧ Complete s ((tokens j).reverse ++ ts)

theorem Scans.foldlM (hj : Scans layout j) (depth : Nat) (ts : List Token) (rest : List Char) :
    ∃ s, Complete s ((tokens j).reverse ++ ts) ∧
      (print layout depth j ++ rest).foldlM Scanner.step ⟨ts, .between⟩ = rest.foldlM Scanner.step s := by
  obtain ⟨s, hs, hcomplete⟩ := hj depth ts
  exact ⟨s, hcomplete, by rw [List.foldlM_append, hs]; rfl⟩

theorem scan_items (hlayout : layout.IsBlank) (hitems : ∀ item ∈ items, Scans layout item)
    (h : Complete s ts) (hl : Blank l) (hc : Follows c) (rest : List Char) :
    (printItems layout depth items ++ (l ++ c :: rest)).foldlM Scanner.step s =
      (c :: rest).foldlM Scanner.step ⟨(itemTokens items).reverse ++ ts, .between⟩ := by
  induction items generalizing s ts with
  | nil => exact h.foldlM_blank hl hc rest
  | cons item items ih =>
    obtain ⟨hitem, hitems⟩ := List.forall_mem_cons.mp hitems
    simp only [printItems, itemTokens, List.cons_append, List.append_assoc]
    rw [h.foldlM (by decide)]
    change (layout.lineBreak depth ++ _).foldlM Scanner.step ⟨.comma :: ts, .between⟩ = _
    rw [scan_blank (hlayout.lineBreak depth)]
    obtain ⟨s', hs', hrun⟩ := hitem.foldlM depth (.comma :: ts) (printItems layout depth items ++ (l ++ c :: rest))
    rw [hrun, ih hitems hs']
    simp

theorem scan_member (hlayout : layout.IsBlank) {value : Json} (hvalue : Scans layout value) (name : String)
    (depth : Nat) (ts : List Token) (rest : List Char) :
    ∃ s, Complete s ((tokens value).reverse ++ .colon :: .string name (byNumber name) :: ts) ∧
      (quoted name ++ ':' :: (layout.afterColon ++ (print layout depth value ++ rest))).foldlM Scanner.step
        ⟨ts, .between⟩ = rest.foldlM Scanner.step s := by
  obtain ⟨s, hs, hrun⟩ := hvalue.foldlM depth (.colon :: .string name (byNumber name) :: ts) rest
  refine ⟨s, hs, ?_⟩
  rw [scan_quoted, List.foldlM_cons]
  change (layout.afterColon ++ _).foldlM Scanner.step ⟨.colon :: _, .between⟩ = _
  rw [scan_blank hlayout.afterColon, hrun]

theorem scan_members (hlayout : layout.IsBlank) (hmembers : ∀ m ∈ members, Scans layout m.2)
    (h : Complete s ts) (hl : Blank l) (hc : Follows c) (rest : List Char) :
    (printMembers layout depth members ++ (l ++ c :: rest)).foldlM Scanner.step s =
      (c :: rest).foldlM Scanner.step ⟨(memberTokens members).reverse ++ ts, .between⟩ := by
  induction members generalizing s ts with
  | nil => exact h.foldlM_blank hl hc rest
  | cons m members ih =>
    obtain ⟨name, value⟩ := m
    obtain ⟨hvalue, hmembers⟩ := List.forall_mem_cons.mp hmembers
    simp only [printMembers, memberTokens, List.cons_append, List.append_assoc]
    rw [h.foldlM (by decide)]
    change (layout.lineBreak depth ++ _).foldlM Scanner.step ⟨.comma :: ts, .between⟩ = _
    rw [scan_blank (hlayout.lineBreak depth)]
    obtain ⟨s', hs', hrun⟩ := scan_member hlayout hvalue name.text depth (.comma :: ts)
      (printMembers layout depth members ++ (l ++ c :: rest))
    rw [hrun, ih hmembers hs']
    simp

theorem scans_array (hlayout : layout.IsBlank) (hitems : ∀ item ∈ items, Scans layout item) :
    Scans layout (.array items) := by
  intro depth ts
  cases items with
  | nil => exact ⟨_, rfl, .inl rfl⟩
  | cons item items =>
    obtain ⟨hitem, hitems⟩ := List.forall_mem_cons.mp hitems
    obtain ⟨s, hs, hrun⟩ := hitem.foldlM (depth + 1) (.openArray :: ts)
      (printItems layout (depth + 1) items ++ (layout.lineBreak depth ++ [']']))
    refine ⟨⟨(tokens (.array (item :: items))).reverse ++ ts, .between⟩, ?_, .inl rfl⟩
    simp only [print, List.cons_append, List.append_assoc]
    rw [List.foldlM_cons]
    change (layout.lineBreak (depth + 1) ++ _).foldlM Scanner.step ⟨.openArray :: ts, .between⟩ = _
    rw [scan_blank (hlayout.lineBreak _), hrun,
      scan_items hlayout hitems hs (hlayout.lineBreak depth) (show Follows ']' by decide)]
    change some (Scanner.mk (.closeArray :: _) .between) = _
    simp [tokens]

theorem scans_object (hlayout : layout.IsBlank) (hmembers : ∀ m ∈ members, Scans layout m.2) :
    Scans layout (.object members) := by
  intro depth ts
  cases members with
  | nil => exact ⟨_, rfl, .inl rfl⟩
  | cons m members =>
    obtain ⟨name, value⟩ := m
    obtain ⟨hvalue, hmembers⟩ := List.forall_mem_cons.mp hmembers
    obtain ⟨s, hs, hrun⟩ := scan_member hlayout hvalue name.text (depth + 1) (.openObject :: ts)
      (printMembers layout (depth + 1) members ++ (layout.lineBreak depth ++ ['}']))
    refine ⟨⟨(tokens (.object ((name, value) :: members))).reverse ++ ts, .between⟩, ?_, .inl rfl⟩
    simp only [print, List.cons_append, List.append_assoc]
    rw [List.foldlM_cons]
    change (layout.lineBreak (depth + 1) ++ _).foldlM Scanner.step ⟨.openObject :: ts, .between⟩ = _
    rw [scan_blank (hlayout.lineBreak _), hrun,
      scan_members hlayout hmembers hs (hlayout.lineBreak depth) (show Follows '}' by decide)]
    change some (Scanner.mk (.closeObject :: _) .between) = _
    simp [tokens]

theorem Fits.scans (hlayout : layout.IsBlank) (h : j.Fits n) : Scans layout j := by
  -- The height plays no part here, only that numbers are amounts.
  induction h with
  | null => exact fun _ _ => ⟨_, rfl, .inl rfl⟩
  | bool b => exact fun _ _ => by cases b <;> exact ⟨_, rfl, .inl rfl⟩
  | string s =>
    intro _ ts
    refine ⟨⟨.string s (byNumber s) :: ts, .between⟩, ?_, .inl rfl⟩
    have hscan := scan_quoted s [] ts
    rwa [List.append_nil] at hscan
  | integer hk => exact fun _ ts => scan_integer hk ts
  | array _ ih => exact scans_array hlayout ih
  | object _ _ ih => exact scans_object hlayout ih

end Print

/-- What was printed is scanned into the tokens of the value. -/
theorem scan_print {layout : Layout} {j : Json} (hlayout : layout.IsBlank) (h : j.Fits n) (depth : Nat) :
    Token.scan (print layout depth j) = some (tokens j) := by
  obtain ⟨s, hs, hcomplete⟩ := h.scans hlayout depth []
  rw [Token.scan, hs]
  exact hcomplete.finish.trans (by simp)

end Json

end Paddock
