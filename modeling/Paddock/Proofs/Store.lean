import Paddock.Program.Store
import Paddock.Proofs.Drafts
import Paddock.Proofs.Snapshot

/-! The file and the ledger in memory: request by request, a ledger that is read from its file and written
back answers as one that is kept. -/
namespace Paddock

/-! ### In memory -/

namespace Ledger

variable {hash : Hasher} {s s' : Ledger}

/-- A request to a ledger in memory: what comes of it, and the ledger afterwards in either case. -/
def respond (hash : Hasher) (s : Ledger) (request : Request) : Except RequestError Served × Ledger :=
  (serve hash request).result s

theorem serve_ok_iff {request : Request} {served : Served} : serve hash request s = .ok served s' ↔
    ∃ operation reply, s.resolve request = .ok operation ∧ perform hash operation s = .ok reply s' ∧
      ⟨operation, reply, s'⟩ = served := by
  simp only [serve, Change.check_bind_ok_iff]
  simp only [Change.bind_ok_iff, Change.adaptExcept_ok_iff, Change.get_ok_iff, Change.pure_ok_iff]
  constructor
  · rintro ⟨operation, hresolve, reply, _, hperform, _, _, ⟨rfl, rfl⟩, rfl, rfl⟩
    exact ⟨operation, reply, hresolve, hperform, rfl⟩
  · rintro ⟨operation, reply, hresolve, hperform, rfl⟩
    exact ⟨operation, hresolve, reply, s', hperform, s', s', ⟨rfl, rfl⟩, rfl, rfl⟩

theorem clean_serve (hs : s.Coherent) (request : Request) : (serve hash request).Clean s := by
  refine Change.clean_check_bind fun operation _ => ?_
  refine (clean_perform hs operation).adaptExcept.bind fun _ _ _ => ?_
  exact ⟨_, _, rfl⟩

theorem reachable_respond (h : Reachable hash s) (request : Request) :
    Reachable hash (s.respond hash request).2 := by
  rcases (clean_serve (coherent_reachable h) request).result_cases with hsame | ⟨served, hserve⟩
  · rw [respond, hsame]
    exact h
  · obtain ⟨operation, reply, -, hperform, -⟩ := serve_ok_iff.mp hserve
    have hnext := reachable_execute h operation
    rwa [execute_eq_ok_iff.mpr hperform] at hnext

end Ledger

/-! ### In a file -/

namespace Store

open Ledger

variable {hash : Hasher} {disk disk' : Disk} {path : String} {s : Ledger}

/-- A request to the ledger in a file: what comes of it, and the disk afterwards in either case. -/
def respond (hash : Hasher) (path : String) (disk : Disk) (request : Request) :
    Except Failure Served × Disk :=
  (serve hash path request).result disk

/-- The path of a draft beside this file is not too long. -/
def HasRoom (path : String) : Prop := Path.isLong (Path.draftIn (Path.parent path)) = false

/-- The file is the text of the ledger, which operations led to. -/
structure Holds (hash : Hasher) (path : String) (disk : Disk) (s : Ledger) : Prop where
  reachable : Reachable hash s
  text : disk.read path = .ok s.toJson

theorem Holds.read (h : Holds hash path disk s) : read hash path disk = .ok s := by
  unfold Store.read
  rw [h.text]
  dsimp only
  rw [(inOrder_reachable h.reachable).ofJson_toJson]

/-! ### Saving -/

theorem save_ok_iff {u : Unit} : save path s disk = .ok u disk' ↔
    ∃ p q, disk.placeDraft (Path.parent path) = .ok p ∧ (disk.put p (.file s.toJson)).target path = .ok q ∧
      disk.put q (.file s.toJson) = disk' := by
  simp only [save, Change.bind_ok_iff, Change.adaptExcept_ok_iff, Change.modify_ok_iff, Disk.createDraft_ok_iff,
    Disk.persist_ok_iff]
  constructor
  · rintro ⟨p, _, ⟨hplace, rfl⟩, _, _, rfl, q, htarget, rfl⟩
    rw [Disk.put_put] at htarget
    refine ⟨p, q, hplace, htarget, ?_⟩
    rw [Disk.put_put, Disk.move_put (Disk.free_of_placeDraft hplace)]
  · rintro ⟨p, q, hplace, htarget, rfl⟩
    refine ⟨p, _, ⟨hplace, rfl⟩, ⟨⟩, _, rfl, q, ?_, ?_⟩
    · rw [Disk.put_put]
      exact htarget
    · rw [Disk.put_put, Disk.move_put (Disk.free_of_placeDraft hplace)]

/-- Until the draft takes the place of the file, it is the only thing on the disk that changes. -/
theorem clean_save (path : String) (s : Ledger) (disk : Disk) : (save path s).Clean disk := by
  intro failure disk' h
  rcases Change.bind_error_iff.mp h with hcreate | ⟨p, _, hcreate, h⟩
  · obtain ⟨fault, hcreate, -⟩ := Change.adaptExcept_error_iff.mp hcreate
    exact Disk.clean_createDraft _ disk _ _ hcreate
  · obtain ⟨hplace, rfl⟩ := Disk.createDraft_ok_iff.mp (Change.adaptExcept_ok_iff.mp hcreate)
    obtain ⟨fault, hpersist, -⟩ := Change.adaptExcept_error_iff.mp h
    rw [Disk.eq_remove_of_persist hpersist, Disk.remove_put, Disk.remove_put,
      Disk.remove_of_free (Disk.free_of_placeDraft hplace)]

/-- Any ledger can be saved in place of a file that can be read. -/
theorem exists_save {content : String} (hroom : HasRoom path) (hread : disk.read path = .ok content)
    (s : Ledger) : ∃ disk', save path s disk = .ok () disk' ∧ disk'.read path = .ok s.toJson := by
  obtain ⟨place, hplace⟩ := Disk.exists_locate_draft_of_read hread hroom
  have hdraft : disk.placeDraft (Path.parent path) = .ok (disk.free place) := by rw [Disk.placeDraft, hplace]; rfl
  have hfree := Disk.free_of_placeDraft hdraft
  have hbeside := Disk.read_put_of_free hfree (.file s.toJson) hread
  obtain ⟨q, htarget⟩ := Disk.exists_target_of_read hbeside
  refine ⟨_, save_ok_iff.mpr ⟨_, q, hdraft, htarget, rfl⟩, ?_⟩
  -- Both with and without the draft the path leads to the file.
  obtain ⟨r, hlocate, hfile⟩ := Disk.read_eq_ok_iff.mp hread
  have hsame := Disk.locate_put (.file s.toJson) (Disk.free_not_directory hfree) hlocate
  rw [(Disk.locate_of_target htarget).1] at hsame
  cases hsame
  exact Disk.read_put hlocate (by rw [hfile]; exact nofun) s.toJson

/-! ### A change of the ledger in the file -/

section

variable {α : Type} {change : Change Failure Ledger α} {a : α}

/-- Only saving writes to the disk, and that is the last step. -/
theorem clean_update (hash : Hasher) (path : String) (change : Change Failure Ledger α) (disk : Disk) :
    (update hash path change).Clean disk := by
  refine Change.clean_check_bind fun s _ => ?_
  cases change s with
  | ok a s' => exact (clean_save path s' disk).bind fun _ _ _ => Change.succeeds_pure a
  | error failure s' => exact Change.clean_throw failure

theorem update_ok_iff (hread : read hash path disk = .ok s) : update hash path change disk = .ok a disk' ↔
    ∃ s', change s = .ok a s' ∧ save path s' disk = .ok () disk' := by
  simp only [update, load, Change.check_bind_ok_iff, hread, Except.ok.injEq, exists_eq_left']
  cases change s with
  | ok b s' =>
    simp only [Change.bind_ok_iff, Change.pure_ok_iff]
    constructor
    · rintro ⟨_, _, hsave, rfl, rfl⟩
      exact ⟨s', rfl, hsave⟩
    · rintro ⟨_, heq, hsave⟩
      cases heq
      exact ⟨(), disk', hsave, rfl, rfl⟩
  | error failure s' => simp

/-- A change that fails is not saved. -/
theorem update_of_error {failure : Failure} {s' : Ledger} (hread : read hash path disk = .ok s)
    (h : change s = .error failure s') : update hash path change disk = .error failure disk := by
  simp only [update, load, Bind.bind, EStateM.bind, Change.check, hread, h]
  rfl

end

/-! ### Request by request -/

/-- How a request to the file compares with the same request in memory: it has the same result, the file is
the text of the ledger afterwards, and a request that fails leaves the whole disk alone. -/
structure Simulates (hash : Hasher) (path : String) (disk : Disk) (s : Ledger) (request : Request) : Prop where
  result : (respond hash path disk request).1 =
    (s.respond hash request).1.mapError (fun e => .ofCause e.cause)
  saved : (respond hash path disk request).2.read path = .ok (s.respond hash request).2.toJson
  kept : ∀ failure, (respond hash path disk request).1 = .error failure →
    (respond hash path disk request).2 = disk

theorem Holds.simulates (h : Holds hash path disk s) (hroom : HasRoom path) (request : Request) :
    Simulates hash path disk s request := by
  have hkept (failure : Failure) (hfailed : (Store.respond hash path disk request).1 = .error failure) :
      (Store.respond hash path disk request).2 = disk := (clean_update hash path _ disk).result_error hfailed
  rcases hserve : Ledger.serve hash request s with ⟨served, s'⟩ | ⟨e, s'⟩
  · obtain ⟨disk', hsave, hread⟩ := exists_save hroom h.text s'
    have hdone : serve hash path request disk = .ok served disk' :=
      (update_ok_iff h.read).mpr ⟨s', Change.adaptExcept_ok_iff.mpr hserve, hsave⟩
    refine ⟨?_, ?_, hkept⟩ <;> simp only [Store.respond, Ledger.respond, Change.result, hdone, hserve]
    · rfl
    · exact hread
  · obtain rfl := clean_serve (coherent_reachable h.reachable) request e s' hserve
    have hfailed : serve hash path request disk = .error (.ofCause e.cause) disk :=
      update_of_error h.read (Change.adaptExcept_error_iff.mpr ⟨e, hserve, rfl⟩)
    refine ⟨?_, ?_, hkept⟩ <;> simp only [Store.respond, Ledger.respond, Change.result, hfailed, hserve]
    · rfl
    · exact h.text

theorem Holds.respond (h : Holds hash path disk s) (hroom : HasRoom path) (request : Request) :
    Holds hash path (respond hash path disk request).2 (s.respond hash request).2 :=
  ⟨reachable_respond h.reachable request, (h.simulates hroom request).saved⟩

end Store

namespace Ledger.Fair

def stateFile : String := "state/paddock.json"

/-- A disk with nothing but that file. -/
def shelf (content : String) : Disk :=
  ⟨[(⟨false, ["paddock.json".toList, "state".toList]⟩, .file content)]⟩

theorem read_shelf (content : String) : (shelf content).read stateFile = .ok content := rfl

end Ledger.Fair

end Paddock
