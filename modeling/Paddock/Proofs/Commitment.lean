import Mathlib.Data.List.Induction
import Mathlib.Data.List.Nodup
import Paddock.Proofs.Json.Records
import Paddock.Proofs.Journal

/-! What the hash of an entry says about the entries before it. The hash function is any; what it is asked
not to do is to take two messages of the journals at hand to one digest. -/
namespace Paddock

/-! ### One entry -/

namespace Entry

open Json

variable {seq seq' : UInt64} {prev prev' : Option Digest} {event event' : Event} {e f : Entry}

theorem fits_body (seq : UInt64) (prev : Option Digest) (event : Event) :
    (body seq prev event).Fits Reader.depthLimit := by
  have hrecord : IsRecord 3 [["seq"], ["prev_hash"], ["event"]] [field seq, field prev, field event]
      (body seq prev event) := ⟨by decide, rfl, rfl, rfl⟩
  exact hrecord.fits.mono (by decide)

theorem body_inj (h : body seq prev event = body seq' prev' event') :
    seq = seq' ∧ prev = prev' ∧ event = event' := by
  simp only [body, Json.object.injEq, List.cons.injEq, Prod.mk.injEq, true_and, and_true] at h
  obtain ⟨hseq, hprev, hevent⟩ := h
  exact ⟨Lossless.encode_inj hseq, Lossless.encode_inj hprev, Lossless.encode_inj hevent⟩

/-- What is hashed can be read back: no text in an event makes it look like another one. -/
theorem message_inj (h : message seq prev event = message seq' prev' event') :
    seq = seq' ∧ prev = prev' ∧ event = event' := by
  have htext : compact (body seq prev event) = compact (body seq' prev' event') :=
    utf8_inj (List.append_cancel_left h)
  exact body_inj (compact_inj (fits_body seq prev event) (fits_body seq' prev' event') htext)

/-- What was hashed for the entry, if its hash is the right one. -/
def hashed (entry : Entry) : List UInt8 := message entry.seq entry.prev entry.event

theorem eq_of_hashed_eq (hmessage : e.hashed = f.hashed) (hhash : e.hash = f.hash) : e = f := by
  obtain ⟨seq, prev, sum, event⟩ := e
  obtain ⟨rfl, rfl, rfl⟩ := message_inj hmessage
  obtain rfl : sum = f.hash := hhash
  rfl

end Entry

/-! ### Back along the links -/

namespace Journal

variable {hash : Hasher} {j k : Journal} {index i : Nat} {prev : Option Digest} {l m : List Entry} {e f : Entry}

theorem Linked.of_append (h : Linked hash index prev (l ++ m)) : Linked hash index prev l := by
  induction l generalizing index prev with
  | nil => trivial
  | cons entry l ih => exact ⟨h.1, ih h.2⟩

theorem Linked.of_prefix (h : Linked hash index prev m) (hinit : l <+: m) : Linked hash index prev l := by
  obtain ⟨rest, rfl⟩ := hinit
  exact h.of_append

/-- The last entry links to the one before it, and its hash is that of its message. -/
theorem Linked.last (h : Linked hash 0 none (l ++ [e])) :
    e.prev = l.getLast?.map Entry.hash ∧ e.hash = hash e.hashed := by
  obtain ⟨-, he⟩ := linked_append_singleton.mp h
  rw [Option.or_none] at he
  rw [he]
  exact ⟨rfl, rfl⟩

theorem Linked.last_eq (hl : Linked hash 0 none (l ++ [e])) (hm : Linked hash 0 none (m ++ [f]))
    (hfree : hash e.hashed = hash f.hashed → e.hashed = f.hashed) (h : e.hash = f.hash) : e = f := by
  have hhash : hash e.hashed = hash f.hashed := by rw [← hl.last.2, ← hm.last.2, h]
  exact Entry.eq_of_hashed_eq (hfree hhash) h

/-- Entries with the same hash are the same, and so are those before them, back to the first. -/
theorem Linked.eq_of_hash_eq (hl : Linked hash 0 none (l ++ [e])) (hm : Linked hash 0 none (m ++ [f]))
    (hfree : ∀ x ∈ l ++ [e], ∀ y ∈ m ++ [f], hash x.hashed = hash y.hashed → x.hashed = y.hashed)
    (h : e.hash = f.hash) : l ++ [e] = m ++ [f] := by
  -- From the last entry of the first list back: what an entry links to is part of its message, so equal
  -- entries stand behind entries of one hash, or are both the first.
  induction l using List.reverseRecOn generalizing e m f with
  | nil =>
    obtain rfl := hl.last_eq hm (hfree e (by simp) f (by simp)) h
    have hfirst : m.getLast?.map Entry.hash = none := hm.last.1.symm.trans hl.last.1
    rw [List.getLast?_eq_none_iff.mp (Option.map_eq_none_iff.mp hfirst)]
  | append_singleton l d ih =>
    obtain rfl := hl.last_eq hm (hfree e (by simp) f (by simp)) h
    have hlink : m.getLast?.map Entry.hash = some d.hash := by
      rw [← hm.last.1, hl.last.1, List.getLast?_concat, Option.map_some]
    obtain ⟨d', hlast, hd⟩ := Option.map_eq_some_iff.mp hlink
    obtain ⟨m, rfl⟩ := List.getLast?_eq_some_iff.mp hlast
    have hbefore : l ++ [d] = m ++ [d'] := by
      refine ih hl.of_append hm.of_append (fun x hx y hy => ?_) hd.symm
      exact hfree x (List.mem_append_left _ hx) y (List.mem_append_left _ hy)
    rw [hbefore]

/-! ### Two journals -/

/-- What was hashed for the entries. -/
def messages (j : Journal) : List (List UInt8) := j.entries.map Entry.hashed

theorem messages_append (hash : Hasher) (j : Journal) (event : Event) :
    (j.append hash event).messages = j.messages ++ [(j.prepare hash event).hashed] :=
  List.map_append

/-- Different messages of the two journals have different hashes. -/
def CollisionFree (hash : Hasher) (j k : Journal) : Prop :=
  ∀ a ∈ j.messages ++ k.messages, ∀ b ∈ j.messages ++ k.messages, hash a = hash b → a = b

theorem CollisionFree.prefix_eq (hfree : CollisionFree hash j k) (hj : Linked hash 0 none j.entries)
    (hk : Linked hash 0 none k.entries) (hl : l ++ [e] <+: j.entries) (hm : m ++ [f] <+: k.entries)
    (h : e.hash = f.hash) : l ++ [e] = m ++ [f] := by
  refine (hj.of_prefix hl).eq_of_hash_eq (hk.of_prefix hm) (fun x hx y hy => ?_) h
  have hx : x.hashed ∈ j.messages := List.mem_map_of_mem (hl.subset hx)
  have hy : y.hashed ∈ k.messages := List.mem_map_of_mem (hm.subset hy)
  exact hfree _ (List.mem_append_left _ hx) _ (List.mem_append_right _ hy)

theorem take_succ_of_getElem? (h : l[i]? = some e) : l.take (i + 1) = l.take i ++ [e] := by
  rw [List.take_add_one, h]
  rfl

theorem entries_of_head? (h : j.head? = some e) : ∃ l, j.entries = l ++ [e] := List.getLast?_eq_some_iff.mp h

theorem eq_empty_of_head? (h : j.head? = none) : j = empty :=
  congrArg mk (List.getLast?_eq_none_iff.mp h)

/-- The hash of an entry stands for the journal up to it, the hash of the head for the whole of it: two
journals without violations agree up to wherever their hashes do, unless different messages of theirs
have the same hash. What is hashed for an entry determines its number, its link and its event. -/
theorem history_committed (hj : (j.validate hash).isValid = true) (hk : (k.validate hash).isValid = true)
    (hfree : CollisionFree hash j k) :
    (∀ i n e f, j.entries[i]? = some e → k.entries[n]? = some f → e.hash = f.hash →
      e.seq = f.seq ∧ j.entries.take (i + 1) = k.entries.take (n + 1)) ∧
    (j.head?.map Entry.hash = k.head?.map Entry.hash → j = k) ∧
    ∀ seq prev event seq' prev' event', Entry.message seq prev event = Entry.message seq' prev' event' →
      seq = seq' ∧ prev = prev' ∧ event = event' := by
  rw [isValid_iff] at hj hk
  refine ⟨fun i n e f he hf hhash => ?_, fun hhead => ?_, fun _ _ _ _ _ _ => Entry.message_inj⟩
  · have hl := take_succ_of_getElem? he
    have hm := take_succ_of_getElem? hf
    have hsame := hfree.prefix_eq hj hk (hl ▸ List.take_prefix ..) (hm ▸ List.take_prefix ..) hhash
    obtain ⟨-, hlast⟩ := List.append_inj' hsame rfl
    obtain rfl := List.singleton_inj.mp hlast
    exact ⟨rfl, hl.trans (hsame.trans hm.symm)⟩
  · cases hlast : j.head? with
    | none =>
      rw [hlast] at hhead
      have hlast' : k.head? = none := Option.map_eq_none_iff.mp hhead.symm
      rw [eq_empty_of_head? hlast, eq_empty_of_head? hlast']
    | some e =>
      rw [hlast] at hhead
      obtain ⟨f, hlast', hhash⟩ := Option.map_eq_some_iff.mp hhead.symm
      obtain ⟨l, hl⟩ := entries_of_head? hlast
      obtain ⟨m, hm⟩ := entries_of_head? hlast'
      have hinit : l ++ [e] <+: j.entries := hl ▸ List.prefix_rfl
      have hinit' : m ++ [f] <+: k.entries := hm ▸ List.prefix_rfl
      have hsame := hfree.prefix_eq hj hk hinit hinit' hhash.symm
      exact congrArg mk (hl.trans (hsame.trans hm.symm))

/-- Tells one message from all others. -/
def telling (message : List UInt8) : Hasher :=
  fun m => ⟨List.replicate 32 (if m = message then 1 else 0), List.length_replicate⟩

theorem telling_eq_iff {message a b : List UInt8} :
    telling message a = telling message b ↔ (a = message ↔ b = message) := by
  by_cases ha : a = message <;> by_cases hb : b = message <;> simp [telling, ha, hb]

/-- What is hashed for an address with a quotation mark in it, where that comes first. -/
def addressMessage : List UInt8 := Entry.message 1 none (.baseUriSet "a\"b")

def addressed : Journal := ofEvents (telling addressMessage) [.baseUriSet "a\"b"]

def priced : Journal := addressed.append (telling addressMessage) (.mintPriceSet 5)

theorem collisionFree_priced : CollisionFree (telling addressMessage) priced addressed := by
  obtain ⟨second, hpriced⟩ : ∃ second, priced.messages = [addressMessage, second] :=
    ⟨_, messages_append _ addressed _⟩
  have hmem {a} (ha : a ∈ priced.messages ++ addressed.messages) : a = addressMessage ∨ a = second := by
    rw [← List.mem_pair, ← hpriced]
    obtain ha | ha := List.mem_append.mp ha
    · exact ha
    · exact messages_append _ _ _ ▸ List.mem_append_left _ ha
  intro a ha b hb h
  have hsame := telling_eq_iff.mp h
  by_cases hfirst : a = addressMessage
  · rw [hfirst, hsame.mp hfirst]
  · have hfirst' : b ≠ addressMessage := fun hb => hfirst (hsame.mpr hb)
    rw [(hmem ha).resolve_left hfirst, (hmem hb).resolve_left hfirst']

theorem history_committed_priced :
    CollisionFree (telling addressMessage) priced addressed ∧
      priced.entries.take 1 = addressed.entries.take 1 := by
  have hvalid : (addressed.validate (telling addressMessage)).isValid = true :=
    isValid_append (isValid_empty _) (.baseUriSet "a\"b")
  have hvalid' : (priced.validate (telling addressMessage)).isValid = true := isValid_append hvalid (.mintPriceSet 5)
  have hfirst := (history_committed hvalid' hvalid collisionFree_priced).1 0 0 _ _ rfl rfl rfl
  exact ⟨collisionFree_priced, hfirst.2⟩

end Journal

end Paddock
