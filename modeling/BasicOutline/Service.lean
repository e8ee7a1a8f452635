import BasicOutline.Json.Reader
import BasicOutline.Json.Writer
import BasicOutline.Repository
import BasicOutline.Service.Target
import BasicOutline.Settings.Check
import BasicOutline.Text.Encoding
import BasicOutline.Text.Word

/-! The outline service: requests for outlines and reports, and the answers to them. -/

namespace BasicOutline.Service

open Text Validation

inductive Body where
  | raw (bytes : Utf8.Bytes)
  | json (value : Json)
  deriving Repr

structure Request where
  method : Text
  /-- A reference to a path of the service. -/
  target : Text
  body : Body := .raw []
  deriving Repr

structure Response where
  status : Nat
  /-- No body answers a request for the head alone. -/
  body : Option Json
  deriving Repr

inductive Fault where
  | target (error : Target.Error)
  /-- A number that is not finite would have to be written. -/
  | notFinite
  deriving DecidableEq, Repr

def Fault.message : Fault → Text
  | .target error => error.message
  | .notFinite => "Out of range float values are not JSON compliant".toList

inductive Route where
  | outline
  | scan
  deriving DecidableEq, Repr

/-- The route of a path. Slashes at the end do not count, nor does one line feed before them. -/
def route? (path : Text) : Option Route :=
  let trimmed := trimEndWhile (· == '/') path
  let name := if trimmed.getLast? = some '\n' then trimmed.dropLast else trimmed
  if name = "/outline".toList then some .outline
  else if name = "/scan".toList then some .scan
  else none

def detail (value : Json) : Json := .object [("detail".toList, value)]

def failure (status : Nat) (message : String) : Response :=
  ⟨status, some (detail (.text message.toList))⟩

def segmentJson : Segment → Json
  | .field name => .text name
  | .item index => .int index

def issueJson (code : Text) (location : List Json) (message : Text) : Json :=
  .object
    [("type".toList, .text code), ("loc".toList, .list location), ("msg".toList, .text message)]

def bodyKey : Json := .text "body".toList

def bodyIssueJson (issue : Issue) : Json :=
  issueJson issue.problem.code (bodyKey :: issue.location.map segmentJson) issue.problem.message

def unprocessable (entries : List Json) : Response := ⟨422, some (detail (.list entries))⟩

def rejected (issues : List Issue) : Except Fault Response :=
  if issues.all fun issue => issue.input.isFinite then
    .ok (unprocessable (issues.map bodyIssueJson))
  else .error .notFinite

def requestSettings (fields : Json.Fields) : Check Settings :=
  Check.optional fields "settings".toList {} (Check.object .notAttributes Settings.ofFields)

def requestOfFields (pathKey : Text) (fields : Json.Fields) : Check (Text × Settings) :=
  Check.ap ((Check.required fields pathKey text).map Prod.mk) (requestSettings fields)

def request (pathKey : Text) (body : Json) : Check (Text × Settings) :=
  Check.object .notAttributes (requestOfFields pathKey) body

def outlineResponse (fs : FileSystem) (path : Text) (settings : Settings) : Response :=
  let records := Outline.records fs settings path
  ⟨200, some (.object
    [("path".toList, .text path),
      ("entries".toList, .list (records.map fun record => .text record.toEntry)),
      ("records".toList, .list (records.map Record.toJson))])⟩

def scanResponse (fs : FileSystem) (path : Text) (settings : Settings) : Response :=
  let root := fs.absolute path
  if (fs.entries? root).isSome then ⟨200, some (Repository.report fs settings root).toJson⟩
  else ⟨400, some (detail (.text ("Invalid root_path: ".toList ++ root)))⟩

def Route.pathKey : Route → Text
  | .outline => "path".toList
  | .scan => "root_path".toList

def answer (fs : FileSystem) (route : Route) (body : Json) : Except Fault Response :=
  match request route.pathKey body with
  | .error issues => rejected issues
  | .ok (path, settings) =>
    match route with
    | .outline => .ok (outlineResponse fs path settings)
    | .scan => .ok (scanResponse fs path settings)

def answerBytes (fs : FileSystem) (route : Route) (body : Utf8.Bytes) : Except Fault Response :=
  let (encoding, content) := Encoding.detect body
  if body = [] then
    .ok (unprocessable [issueJson Problem.missing.code [bodyKey] Problem.missing.message])
  else
    match (encoding.decode content).map Json.read with
    | some (.ok value) => answer fs route value
    | some (.error (.problem _ position _ _)) =>
      .ok (unprocessable
        [issueJson "json_invalid".toList [bodyKey, .int position] "JSON decode error".toList])
    | some (.error (.tooManyDigits _)) | none =>
      .ok (failure 400 "There was an error parsing the body")

def Body.toBytes : Body → Except Fault Utf8.Bytes
  | .raw bytes => .ok bytes
  | .json value => if value.isFinite then .ok (Utf8.encode value.compact) else .error .notFinite

def dispatch (fs : FileSystem) (method path : Text) (body : Utf8.Bytes) : Except Fault Response :=
  match route? path with
  | none => .ok (failure 404 "Not Found")
  | some route =>
    if spells "post".toList method then answerBytes fs route body
    else .ok (failure 405 "Method Not Allowed")

def handle (fs : FileSystem) (request : Request) : Except Fault Response := do
  let path ← (Target.path request.target).mapError Fault.target
  let response ← dispatch fs request.method path (← request.body.toBytes)
  return if spells "head".toList request.method then { response with body := none } else response

end BasicOutline.Service
