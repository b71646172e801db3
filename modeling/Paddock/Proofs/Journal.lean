import Mathlib.Data.List.Induction
import Paddock.Ledger.Journal

/-! What validation finds. In a journal without violations every entry is the one that its event would get
now. -/
namespace Paddock.Journal

variable {hash : Hasher} {j : Journal} {index : Nat} {prev : Option Digest} {report : ValidationReport}
  {entry : Entry} {l : List Entry} {event : Event} {v : Violation}

/-- Entries from a number on, each sealed behind the one before it. -/
def Linked (hash : Hasher) : Nat → Option Digest → List Entry → Prop
  | _, _, [] => True
  | index, prev, entry :: rest =>
    entry = .sealed hash (seqAfter index) prev entry.event ∧ Linked hash (index + 1) (some entry.hash) rest

theorem faultless_iff : gapOf index entry ++ breakOf prev entry ++ mismatchOf hash entry = [] ↔
    entry = .sealed hash (seqAfter index) prev entry.event := by
  obtain ⟨seq, before, sum, event⟩ := entry
  simp only [gapOf, breakOf, mismatchOf, Entry.sealed, Entry.mk.injEq, and_true, List.append_eq_nil_iff,
    ite_eq_left_iff, List.cons_ne_nil, imp_false, Decidable.not_not, and_assoc]
  constructor
  · rintro ⟨rfl, rfl, rfl⟩
    exact ⟨rfl, rfl, rfl⟩
  · rintro ⟨rfl, rfl, rfl⟩
    exact ⟨rfl, rfl, rfl⟩

theorem validateFrom_violations_iff : (validateFrom hash index prev report l).violations = [] ↔
    report.violations = [] ∧ Linked hash index prev l := by
  induction l generalizing index prev report with
  | nil => simp [validateFrom, Linked]
  | cons entry l ih =>
    rw [validateFrom, ih, Linked, ← faultless_iff]
    simp only [List.append_eq_nil_iff, and_assoc]

theorem isValid_iff : (j.validate hash).isValid = true ↔ Linked hash 0 none j.entries := by
  rw [ValidationReport.isValid, List.isEmpty_iff, validate, validateFrom_violations_iff]
  exact and_iff_right rfl

theorem linked_append_singleton : Linked hash index prev (l ++ [entry]) ↔ Linked hash index prev l ∧
    entry = .sealed hash (seqAfter (index + l.length)) ((l.getLast?.map Entry.hash).or prev) entry.event := by
  induction l generalizing index prev with
  | nil => simp [Linked]
  | cons first l ih =>
    rw [List.cons_append, Linked, ih, Linked, and_assoc, List.length_cons, Nat.add_right_comm, Nat.add_assoc index]
    cases l with
    | nil => simp
    | cons second l =>
      have hlast := List.getLast?_eq_some_getLast (List.cons_ne_nil second l)
      simp only [List.getLast?_cons_cons, hlast, Option.map_some, Option.some_or]

/-- What is appended fits. -/
theorem isValid_append (h : (j.validate hash).isValid = true) (event : Event) :
    ((j.append hash event).validate hash).isValid = true := by
  rw [isValid_iff] at h ⊢
  refine linked_append_singleton.mpr ⟨h, ?_⟩
  simp only [prepare, Nat.zero_add, Option.or_none]
  rfl

theorem isValid_empty (hash : Hasher) : (empty.validate hash).isValid = true := rfl

/-! ### Events -/

/-- What the entries tell, in their order. -/
def events (j : Journal) : List Event := j.entries.map Entry.event

theorem events_append (hash : Hasher) (j : Journal) (event : Event) :
    (j.append hash event).events = j.events ++ [event] :=
  List.map_append

theorem ofEvents_append (hash : Hasher) (events : List Event) (event : Event) :
    ofEvents hash (events ++ [event]) = (ofEvents hash events).append hash event := by
  rw [ofEvents, List.foldl_append]
  rfl

theorem linked_iff_ofEvents : Linked hash 0 none l ↔ ofEvents hash (l.map Entry.event) = ⟨l⟩ := by
  -- From the last entry back: it is sealed behind the others just if it is what is prepared after them.
  induction l using List.reverseRecOn with
  | nil => exact iff_of_true trivial rfl
  | append_singleton l entry ih =>
    rw [linked_append_singleton, ih, List.map_append, List.map_singleton, ofEvents_append, Nat.zero_add, Option.or_none]
    constructor
    · rintro ⟨hl, hentry⟩
      rw [hl, hentry]
      rfl
    · intro h
      obtain ⟨hl, hentry⟩ := List.append_inj' (congrArg entries h) rfl
      have hl : ofEvents hash (l.map Entry.event) = ⟨l⟩ := congrArg mk hl
      rw [hl] at hentry
      exact ⟨hl, (List.singleton_inj.mp hentry).symm⟩

/-! ### What the flags say -/

theorem kind_of_mem_gapOf (h : v ∈ gapOf index entry) : v.kind = .sequenceGap := by
  unfold gapOf at h
  split at h
  · cases h
  · rw [List.mem_singleton.mp h]

theorem kind_of_mem_breakOf (h : v ∈ breakOf prev entry) : v.kind = .hashChainBreak := by
  unfold breakOf at h
  split at h
  · cases h
  · rw [List.mem_singleton.mp h]

theorem kind_of_mem_mismatchOf (h : v ∈ mismatchOf hash entry) : v.kind = .hashMismatch := by
  unfold mismatchOf at h
  split at h
  · cases h
  · rw [List.mem_singleton.mp h]

/-- The flags of a report say which kinds of violation are in it. -/
structure Truthful (report : ValidationReport) : Prop where
  sequence : report.sequenceMonotonic = false ↔ ∃ v ∈ report.violations, v.kind = .sequenceGap
  chain : report.hashChainValid = false ↔
    ∃ v ∈ report.violations, v.kind = .hashChainBreak ∨ v.kind = .hashMismatch

theorem Truthful.extend (h : Truthful report) (hash : Hasher) (index : Nat) (prev : Option Digest) (entry : Entry) :
    Truthful { report with
      sequenceMonotonic := report.sequenceMonotonic && (gapOf index entry).isEmpty
      hashChainValid := report.hashChainValid && (breakOf prev entry).isEmpty && (mismatchOf hash entry).isEmpty
      violations := report.violations ++ gapOf index entry ++ breakOf prev entry ++ mismatchOf hash entry } where
  sequence := by
    simp only [Bool.and_eq_false_iff, h.sequence, List.isEmpty_eq_false_iff_exists_mem, List.mem_append]
    constructor
    · rintro (⟨v, hv, hkind⟩ | ⟨v, hv⟩)
      · exact ⟨v, .inl (.inl (.inl hv)), hkind⟩
      · exact ⟨v, .inl (.inl (.inr hv)), kind_of_mem_gapOf hv⟩
    · rintro ⟨v, ((hv | hv) | hv) | hv, hkind⟩
      · exact .inl ⟨v, hv, hkind⟩
      · exact .inr ⟨v, hv⟩
      · simp [kind_of_mem_breakOf hv] at hkind
      · simp [kind_of_mem_mismatchOf hv] at hkind
  chain := by
    simp only [Bool.and_eq_false_iff, h.chain, List.isEmpty_eq_false_iff_exists_mem, List.mem_append]
    constructor
    · rintro ((⟨v, hv, hkind⟩ | ⟨v, hv⟩) | ⟨v, hv⟩)
      · exact ⟨v, .inl (.inl (.inl hv)), hkind⟩
      · exact ⟨v, .inl (.inr hv), .inl (kind_of_mem_breakOf hv)⟩
      · exact ⟨v, .inr hv, .inr (kind_of_mem_mismatchOf hv)⟩
    · rintro ⟨v, ((hv | hv) | hv) | hv, hkind⟩
      · exact .inl (.inl ⟨v, hv, hkind⟩)
      · simp [kind_of_mem_gapOf hv] at hkind
      · exact .inl (.inr ⟨v, hv⟩)
      · exact .inr ⟨v, hv⟩

theorem truthful_validateFrom (h : Truthful report) (hash : Hasher) (index : Nat) (prev : Option Digest)
    (l : List Entry) : Truthful (validateFrom hash index prev report l) := by
  induction l generalizing index prev report with
  | nil => exact h
  | cons entry l ih => exact ih (h.extend hash index prev entry) (index + 1) (some entry.hash)

theorem truthful_validate (hash : Hasher) (j : Journal) : Truthful (j.validate hash) :=
  truthful_validateFrom ⟨by simp, by simp⟩ hash 0 none j.entries

/-- Nothing is wrong just with the journal that its events make, entry by entry, from the beginning; and
the flags say of what kind the violations are. -/
theorem validate_exact (hash : Hasher) (j : Journal) :
    ((j.validate hash).violations = [] ↔ j = ofEvents hash j.events) ∧
    ((j.validate hash).sequenceMonotonic = false ↔ ∃ v ∈ (j.validate hash).violations, v.kind = .sequenceGap) ∧
    ((j.validate hash).hashChainValid = false ↔
      ∃ v ∈ (j.validate hash).violations, v.kind = .hashChainBreak ∨ v.kind = .hashMismatch) := by
  refine ⟨?_, (truthful_validate hash j).sequence, (truthful_validate hash j).chain⟩
  rw [← List.isEmpty_iff, ← ValidationReport.isValid, isValid_iff, linked_iff_ofEvents]
  exact eq_comm

end Paddock.Journal
