import ImportAtlas.Service
import ImportAtlas.Service.Body
import ImportAtlas.Service.Shape

/-!
# The usual framework

A framework that reads bodies by their shapes and sends results that consist of finite numbers and
of texts that can be encoded. Which fields of a result it keeps to itself is left open.
-/

namespace ImportAtlas

namespace Json

mutual

/-- All scalars of a value, and the names of its fields as texts. -/
def scalars : Json → List Atom
  | .atom value => [value]
  | .arr items => itemScalars items
  | .obj fields => fieldScalars fields

def itemScalars : List Json → List Atom
  | [] => []
  | item :: items => scalars item ++ itemScalars items

def fieldScalars : List (Text × Json) → List Atom
  | [] => []
  | (name, value) :: fields => .text name :: scalars value ++ fieldScalars fields

end

/-- An infinite or undefined number. -/
def isUnsendable : Atom → Bool
  | .num (.float value) => !value.isFinite
  | _ => false

/-- A text that holds half of a surrogate pair. -/
def isUnencodable : Atom → Bool
  | .text value => value.isBroken
  | _ => false

/-- Check that a value can be sent. A number that cannot is noticed before a text that cannot. -/
def checkSendable (value : Json) : Except Fault Unit :=
  let scalars := value.scalars
  if scalars.any isUnsendable then .error .notFinite
  else if scalars.any isUnencodable then .error .brokenText
  else .ok ()

end Json

namespace Service

/-- Why the usual framework stops a request. -/
inductive Refusal where
  /-- The body cannot be read. -/
  | unreadable
  /-- The body is not of the declared shape. -/
  | invalid (problems : List Problem)
  /-- The result cannot be sent. -/
  | unsendable (fault : Fault)

/-- The value of a body, which must be there. -/
def Body.read : Body → Except Refusal Json
  | .json value => .ok value
  | .unreadable => .error .unreadable
  | .absent => .error (.invalid [⟨.missing, [.field "body"], .null⟩])
  | .malformed => .error (.invalid [⟨.malformed, [.field "body"], .obj []⟩])

/-- The usual framework, which sends results as `publish` makes them. -/
def usual (publish : Json → Json) : Framework Refusal where
  components value := (Shape.body Shape.components value).mapError .invalid
  analysis value := (Shape.body Shape.analysis value).mapError .invalid
  encode value :=
    match (publish value).checkSendable with
    | .ok _ => .ok (publish value)
    | .error fault => .error (.unsendable fault)

/-- Reply to a request in the usual framework. Only the endpoint for health takes no body. -/
def respond (publish : Json → Json) (host : Host) (tree : FileTree) (body : Body)
    (endpoint : Endpoint) : Except Fault (Reply Refusal) :=
  if endpoint = .health then reply (usual publish) host tree .null endpoint
  else whenRead body.read fun value => reply (usual publish) host tree value endpoint

end Service

end ImportAtlas
