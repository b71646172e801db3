import Mathlib.Data.List.Forall2
import Paddock.Program.Run
import Paddock.Proofs.Store

/-! What a car is minted from, as it is written and read: by the ledger, by the generator and between the two. -/
namespace Paddock

namespace Json

variable {n : Nat} {names aliases : List (List String)} {values : List Field} {j : Json} {ms : List (Name × Json)}

/-! ### Fields with several names -/

/-- Fields that are known by further names, none of which is that of another field. -/
def Aliases (names aliases : List (List String)) : Prop :=
  List.Forall₂ (fun one all => ∀ other ∈ names, all.contains (other.headD "") = one.contains (other.headD ""))
    names aliases

theorem mapM_field?_congr (h : List.Forall₂ (fun one all : List String =>
    ∀ m ∈ ms, all.contains m.1.text = one.contains m.1.text) names aliases) :
    aliases.mapM (field? ms) = names.mapM (field? ms) := by
  induction h with
  | nil => rfl
  | @cons one all names aliases hfirst _ ih =>
    have hfield : field? ms all = field? ms one := by rw [field?, field?, List.filter_congr hfirst]
    rw [List.mapM_cons, List.mapM_cons, hfield, ih]

/-- A record that is written with the first names is read by whoever knows the others, too. -/
theorem IsRecord.fields?_aliases (h : IsRecord n names values j) (haliases : Aliases names aliases) :
    fields? aliases j = some (values.map (some ·.value)) := by
  rw [← h.fields?_eq, h.eq_record]
  refine mapM_field?_congr (haliases.imp fun one all hothers => List.forall_mem_map.mpr fun f hf => ?_)
  exact hothers f.1 (List.of_mem_zip hf).1

/-- What fits a byte is also read where two bytes are expected. -/
theorem required_widened (b : UInt8) : (required (some (encode b)) : Option UInt16) = some b.toUInt16 := by
  have hlt : b.toNat < UInt16.size := Nat.lt_trans b.toNat_lt (by decide)
  have hread : (decode? (encode b) : Option UInt16) = some (UInt16.ofNat b.toNat) := map_nat? hlt UInt16.ofNat
  rw [required, Option.bind_some, hread, UInt16.ofNat_uInt8ToNat]

end Json

open Json

/-! ### Requests -/

namespace PartSpec

theorem isRecord (spec : PartSpec) : IsRecord 0 [["partType"], ["stat1"], ["stat2"], ["stat3"], ["imageURI"]]
    [field spec.kind, field spec.stats.first, field spec.stats.second, field spec.stats.third, field spec.image]
    (encode spec) :=
  ⟨by decide, rfl, rfl, rfl⟩

theorem aliases : Aliases [["partType"], ["stat1"], ["stat2"], ["stat3"], ["imageURI"]] fieldNames := by
  unfold Aliases
  decide

instance : Lossless PartSpec where
  height := 1
  fits spec := spec.isRecord.fits
  decode_encode spec := by simp [decode?, spec.isRecord.fields?_aliases aliases, field]

end PartSpec

namespace MintRequest

theorem isRecord (r : MintRequest) :
    IsRecord 2 [["carImageURI"], ["parts"]] [field r.image, field r.parts] (encode r) :=
  ⟨by decide, rfl, rfl, rfl⟩

theorem aliases : Aliases [["carImageURI"], ["parts"]] fieldNames := by
  unfold Aliases
  decide

instance : Lossless MintRequest where
  height := 3
  fits r := r.isRecord.fits
  decode_encode r := by simp [decode?, r.isRecord.fields?_aliases aliases, field]

variable {text : String} {r : MintRequest}

theorem parse_eq (h : IsText text (encode r)) : Json.parse text = some (encode r) :=
  parse_of_isText h ((Lossless.fits r).mono (by decide))

theorem decode?_parse (h : IsText text (encode r)) : (Json.parse text).bind decode? = some r := by
  rw [parse_eq h, Option.bind_some, Lossless.decode_encode]

end MintRequest

/-! ### Descriptors -/

namespace WirePart

/-- A part as the generator would have described it. -/
def ofSpec (spec : PartSpec) : WirePart where
  kind := spec.kind
  first := spec.stats.first.toUInt16
  second := spec.stats.second.toUInt16
  third := spec.stats.third.toUInt16
  image := spec.image

theorem decode?_encode (spec : PartSpec) : (decode? (encode spec) : Option WirePart) = some (ofSpec spec) := by
  simp [decode?, spec.isRecord.fields?_eq, field, required_widened, ofSpec]

theorem narrow_toUInt16 (part : Nat) (b : UInt8) : narrow part b.toUInt16 = .ok b := by
  have hbyte : b.toUInt16.toNat = b.toNat := UInt8.toNat_toUInt16 b
  rw [narrow, hbyte, if_pos b.toNat_lt, UInt8.ofNat_toNat]

theorem toSpecs_ofSpec (part : Nat) (specs : List PartSpec) : toSpecs part (specs.map ofSpec) = .ok specs := by
  -- For any number of the first part, which only a refusal would tell.
  induction specs generalizing part with
  | nil => rfl
  | cons spec specs ih =>
    simp only [List.map_cons, toSpecs, toSpec, ofSpec, narrow_toUInt16]
    have hrest := ih (part + 1)
    rw [hrest]
    rfl

end WirePart

namespace CarDescriptor

theorem decode?_encode (r : MintRequest) :
    (decode? (encode r) : Option WireDescriptor) = some ⟨r.image, r.parts.map .ofSpec⟩ := by
  have hparts : (required (some (encode r.parts)) : Option (List WirePart)) = some (r.parts.map .ofSpec) :=
    mapM_map_eq_some fun spec _ => WirePart.decode?_encode spec
  simp [decode?, r.isRecord.fields?_eq, field, hparts]

theorem ofJson_of_isText {text : String} {r : MintRequest} (h : IsText text (encode r)) :
    ofJson text = .ok ⟨r.image, r.parts⟩ := by
  rw [ofJson, MintRequest.parse_eq h]
  simp only [Option.bind_some, decode?_encode, WireDescriptor.toDescriptor, WirePart.toSpecs_ofSpec]
  rfl

end CarDescriptor

/-! ### Commands -/

namespace Invocation

variable {env : Environment} {disk : Disk} {inv : Invocation} {caller : AccountId} {request : GenerationRequest}
  {payment : Option Amount} {dryRun : Bool} {settings : Settings} {d : CarDescriptor} {path : String} {report : Report}

theorem generate_of_describe (hdescribe : describe env settings request = .ok d) (dryRun : Bool) :
    generate env inv settings caller request payment dryRun disk =
      (if dryRun then return .ofDescriptor d
        else serve env inv (MintSource.toRequest caller d.toMintRequest payment) : Change Failure Disk Report) disk :=
  Change.check_bind_of_ok hdescribe

theorem perform_of_load (hload : Settings.load disk inv.configPath = .ok settings)
    (hcommand : inv.command = .generate caller request payment dryRun) :
    perform env inv disk = generate env inv settings caller request payment dryRun disk := by
  refine (Change.check_bind_of_ok (s := disk) hload).trans ?_
  rw [hcommand]

theorem perform_dryRun (hcommand : inv.command = .generate caller request payment true)
    (hload : Settings.load disk inv.configPath = .ok settings) (hdescribe : describe env settings request = .ok d) :
    perform env inv disk = .ok (.ofDescriptor d) disk := by
  rw [perform_of_load hload hcommand, generate_of_describe hdescribe]
  rfl

/-- What a dry run shows is a text of what the generator answered. -/
theorem describe_of_dryRun (hcommand : inv.command = .generate caller request payment true)
    (hformat : inv.format = .json) (hdone : (run env disk inv).failure = none) :
    ∃ settings d, Settings.load disk inv.configPath = .ok settings ∧ describe env settings request = .ok d ∧
      IsText (run env disk inv).output (encode d) := by
  cases hload : Settings.load disk inv.configPath with
  | error failure =>
    have hperform : perform env inv disk = .error failure disk :=
      Change.check_bind_of_error (s := disk) hload
    rw [run, hperform] at hdone
    cases hdone
  | ok settings =>
    cases hdescribe : describe env settings request with
    | error failure =>
      have hgenerate : generate env inv settings caller request payment true disk = .error failure disk :=
        Change.check_bind_of_error hdescribe
      rw [run, perform_of_load hload hcommand, hgenerate] at hdone
      cases hdone
    | ok d =>
      refine ⟨settings, d, rfl, hdescribe, ?_⟩
      rw [run, perform_dryRun hcommand hload hdescribe, hformat]
      exact isText_indented_line _

theorem read_of_isText {text : String} {r : MintRequest} (hread : disk.read path = .ok text)
    (htext : IsText text (encode r)) : MintSource.read disk (.file path) = .ok r := by
  simp only [MintSource.read, hread, MintRequest.decode?_parse htext]

/-- To mint from a text of what the generator answers is to mint what it answers. -/
theorem run_mintCar_eq (hload : Settings.load disk inv.configPath = .ok settings)
    (hdescribe : describe env settings request = .ok d) {text : String} (hread : disk.read path = .ok text)
    (htext : IsText text (encode d)) (caller : AccountId) (payment : Option Amount) :
    run env disk { inv with command := .mintCar caller (.file path) payment } =
      run env disk { inv with command := .generate caller request payment false } := by
  have hsource : MintSource.read disk (.file path) = .ok d.toMintRequest := read_of_isText hread htext
  have hmint : perform env { inv with command := .mintCar caller (.file path) payment } disk =
      serve env inv (MintSource.toRequest caller d.toMintRequest payment) disk :=
    (Change.check_bind_of_ok (s := disk) hload).trans (Change.check_bind_of_ok (s := disk) hsource)
  have hgenerate : perform env { inv with command := .generate caller request payment false } disk =
      generate env inv settings caller request payment false disk := perform_of_load hload rfl
  rw [run, run, hmint, hgenerate, generate_of_describe hdescribe]
  rfl

end Invocation

/-- Requests, descriptors and what the program makes of them are all of one format. -/
structure MintCodecsAgree : Prop where
  request : ∀ (r : MintRequest) text, IsText text (encode r) → (Json.parse text).bind decode? = some r
  descriptor : ∀ (r : MintRequest) text, IsText text (encode r) →
    ∃ d, CarDescriptor.ofJson text = .ok d ∧ d.toMintRequest = r
  shown : ∀ (d : CarDescriptor) text, IsText text (encode d) → (Json.parse text).bind decode? = some d.toMintRequest
  /-- Whoever keeps what a dry run shows, and mints from that, does as if the generator were asked again. -/
  routes : ∀ (env : Environment) (disk disk' : Disk) (inv inv' : Invocation) caller caller' request payment payment'
    path, inv.command = .generate caller request payment true → inv.format = .json →
    (inv.run env disk).failure = none → Settings.load disk' inv'.configPath = Settings.load disk inv.configPath →
    disk'.read path = .ok (inv.run env disk).output →
      Invocation.run env disk' { inv' with command := .mintCar caller' (.file path) payment' } =
        Invocation.run env disk' { inv' with command := .generate caller' request payment' false }

/-- A request is read from its text by the ledger and by the generator's client alike, and so is what the generator
answers. -/
theorem mint_codecs_agree : MintCodecsAgree where
  request _ _ htext := MintRequest.decode?_parse htext
  descriptor _ _ htext := ⟨_, CarDescriptor.ofJson_of_isText htext, rfl⟩
  shown d _ htext := MintRequest.decode?_parse (r := d.toMintRequest) htext
  routes env disk disk' inv inv' _ caller' _ _ payment' _ hcommand hformat hdone hsettings hread := by
    obtain ⟨settings, d, hload, hdescribe, htext⟩ := Invocation.describe_of_dryRun hcommand hformat hdone
    exact Invocation.run_mintCar_eq (hsettings.trans hload) hdescribe hread htext caller' payment'

namespace Ledger.Fair

def drawn : CarDescriptor := ⟨"a.png", [⟨.wheels, ⟨0, 10, 255⟩, "\"w\""⟩, spec .engine, spec .transmission]⟩

/-- The generator answers the same to everything. -/
def environment : Environment := ⟨hasher, fun _ _ => .ok ⟨200, Json.compact (encode drawn)⟩, false⟩

def dryRun : Invocation := ⟨.generate (account 1) { prompt := "fast" } none true, .json, stateFile, "paddock.toml"⟩

theorem describe_environment (request : GenerationRequest) :
    Invocation.describe environment .default request = .ok drawn := by
  have hservice : GeneratorService.ofConfig .default = .ok ⟨"http://127.0.0.1:3000/api/cars/generate"⟩ := by decide
  have hcallable : ((Url.parse "http://127.0.0.1:3000/api/cars/generate").map Url.isCallable) = .ok true := by
    decide +kernel
  obtain ⟨url, hurl, hcallable⟩ := map_eq_ok_iff.mp hcallable
  have hanswer : CarDescriptor.ofJson (Json.compact (encode drawn)) = .ok drawn :=
    CarDescriptor.ofJson_of_isText (r := drawn.toMintRequest) (isText_compact _)
  have hread : GeneratorService.readResponse ⟨200, Json.compact (encode drawn)⟩ = .ok drawn := by
    rw [GeneratorService.readResponse, if_pos (by decide), hanswer]
    rfl
  have hgenerate : GeneratorService.generate environment.network ⟨"http://127.0.0.1:3000/api/cars/generate"⟩ request =
      .ok drawn := by
    simp only [GeneratorService.generate, hurl, hcallable, if_true]
    exact hread
  exact bind_eq_ok_iff.mpr ⟨_, mapError_eq_ok_iff.mpr hservice, mapError_eq_ok_iff.mpr hgenerate⟩

end Ledger.Fair

open Ledger.Fair in
/-- Quotes in a text and a stat that fills its byte are kept on the way. -/
theorem mint_codecs_agree_fair : (dryRun.run environment .empty).failure = none ∧
    ∃ kept : Disk, kept.read stateFile = .ok (dryRun.run environment .empty).output ∧
      Invocation.run environment kept { dryRun with command := .mintCar (account 2) (.file stateFile) none } =
        Invocation.run environment kept
          { dryRun with command := .generate (account 2) { prompt := "fast" } none false } ∧
      (Json.parse (Json.compact (encode drawn))).bind decode? = some drawn.toMintRequest := by
  have hload : Settings.load .empty dryRun.configPath = .ok .default := rfl
  have hperform := Invocation.perform_dryRun (by rfl) hload (describe_environment { prompt := "fast" })
  have hdone : (dryRun.run environment .empty).failure = none := by
    rw [Invocation.run, hperform]
    rfl
  have hread := read_shelf (dryRun.run environment .empty).output
  refine ⟨hdone, shelf (dryRun.run environment .empty).output, hread, ?_,
    mint_codecs_agree.shown drawn _ (isText_compact _)⟩
  exact mint_codecs_agree.routes environment .empty _ dryRun dryRun (account 1) (account 2) _ none none stateFile rfl
    rfl hdone rfl hread

end Paddock
