import Paddock.Cause
import Paddock.Generator.Descriptor
import Paddock.Json.Printer
import Paddock.Text.Boundary
import Paddock.Url

/-!
The generator service: where it is, what is sent to it and what is made of its response. The network
itself is a parameter.
-/
namespace Paddock

structure GeneratorConfig where
  endpoint : String
  timeoutSecs : UInt64
deriving DecidableEq, Repr

def GeneratorConfig.default : GeneratorConfig := ⟨"http://127.0.0.1:3000", 60⟩

structure Response where
  status : Nat
  body : String
deriving DecidableEq, Repr

/-- Why a request gets no response: nothing is known by the host's name, or the host is not reached. -/
inductive NetworkFault where
  | unknownHost (fault : SystemFault)
  | unreached (fault : SystemFault)
deriving DecidableEq, Repr

def NetworkFault.causes : NetworkFault → List Cause
  | unknownHost fault => [.ofText "dns error", .ofOrigin (.system fault)]
  | unreached fault => [.ofText "tcp connect error", .ofOrigin (.system fault)]

/-- Posts a body to a URL. -/
abbrev Network := Url → String → Except NetworkFault Response

/-- No host can be reached. Only the machine itself is known by a name. -/
def Network.unreachable : Network := fun url _ =>
  match url.host with
  | .name text =>
    if text = "localhost".toList then .error (.unreached .networkUnreachable)
    else .error (.unknownHost .unresolved)
  | _ => .error (.unreached .networkUnreachable)

inductive GeneratorError where
  | invalidUrl (fault : UrlFault)
  | uncallable (url : Url)
  | network (url : Url) (fault : NetworkFault)
  | refused (status : Nat) (body : String)
  | descriptor (fault : DescriptorFault)
  | invalidEndpoint (endpoint : String)
deriving DecidableEq, Repr

/-- A request that failed, by what failed about it and the causes of that. -/
def requestFailure (text : String) (below : List Cause) : Failure :=
  ⟨.ofText ("http error: " ++ text), .ofText text :: below⟩

def GeneratorError.failure : GeneratorError → Failure
  | invalidUrl fault => requestFailure "builder error" [.ofText fault.message]
  | uncallable url =>
    requestFailure s!"builder error for url ({url.render})"
      [.ofText "Parsed Url is not a valid Uri"]
  | network url fault =>
    requestFailure s!"error sending request for url ({url.render})"
      (.ofText "client error (Connect)" :: fault.causes)
  | refused status body => .ofText s!"generator returned {status}: {body}"
  | descriptor .unreadable => .ofCause ⟨"malformed generator response: ", some .json⟩
  | descriptor (.invalidStat part value) =>
    .ofText s!"generator part {part} has stat {value.toNat}, which exceeds 255"
  | invalidEndpoint endpoint => .ofText s!"invalid generator endpoint: {endpoint}"

structure GeneratorService where
  url : String
deriving DecidableEq, Repr

namespace GeneratorService

def path : List Char := "/api/cars/generate".toList

/-- The text without the slashes at its end. -/
def dropSlashes (text : List Char) : List Char :=
  (text.reverse.dropWhile (· == '/')).reverse

def isHttp (endpoint : List Char) : Bool :=
  "http://".toList.isPrefixOf endpoint || "https://".toList.isPrefixOf endpoint

def ofConfig (config : GeneratorConfig) : Except GeneratorError GeneratorService :=
  let endpoint := dropSlashes config.endpoint.toList
  if isHttp endpoint then .ok ⟨String.ofList (endpoint ++ path)⟩
  else .error (.invalidEndpoint config.endpoint)

/-- The greatest number of bytes that are shown of a response. -/
def maxShownBytes : Nat := 4096

/-- A long body is cut between two characters, and marked. -/
def shownBody (body : String) : String :=
  if body.utf8ByteSize ≤ maxShownBytes then body
  else
    let cut := (Text.boundary? body maxShownBytes).get (Text.isSome_boundary? body maxShownBytes)
    (body.sliceTo cut).copy ++ "...(truncated)"

def readResponse (response : Response) : Except GeneratorError CarDescriptor :=
  if 200 ≤ response.status ∧ response.status < 300 then
    (CarDescriptor.ofJson response.body).mapError .descriptor
  else .error (.refused response.status (shownBody response.body))

def generate (network : Network) (service : GeneratorService) (request : GenerationRequest) :
    Except GeneratorError CarDescriptor :=
  match Url.parse service.url with
  | .error fault => .error (.invalidUrl fault)
  | .ok url =>
    if url.isCallable then
      match network url (Json.compact (Json.encode request)) with
      | .error fault => .error (.network url fault)
      | .ok response => readResponse response
    else .error (.uncallable url)

end GeneratorService

open Json

def GeneratorConfig.fieldNames : List (List String) := [["endpoint"], ["timeout_secs"]]

instance : Decode GeneratorConfig where
  decode? j :=
    match partialFields? GeneratorConfig.fieldNames j with
    | some [endpoint, timeoutSecs] => do
      let endpoint ← withDefault GeneratorConfig.default.endpoint endpoint
      let timeoutSecs ← withDefault GeneratorConfig.default.timeoutSecs timeoutSecs
      return ⟨endpoint, timeoutSecs⟩
    | _ => none

end Paddock
