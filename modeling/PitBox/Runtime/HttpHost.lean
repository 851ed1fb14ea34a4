import PitBox.Runtime.Artifact

/-!
# The host of an HTTP guest

What an HTTP execution is asked for and what its host keeps about it: where
the request came from, who may be called on its behalf, and with which grants.
The backend of the objects, the table of the resources and the clocks are
added where they are used.
-/

namespace PitBox.Runtime

/-- The name of a namespace of objects. -/
abbrev NamespaceId := String

/-- The authority an invocation has. `allows` is the method of the grant that
decides reading and writing. -/
structure PaddockGrant where
  namespaceId : NamespaceId
  allows : NamespaceId → Bool → Bool
  delete : Bool
  list : Bool

/-- The key a gateway accepts requests of. -/
structure PaddockGatewayAuth where
  accessKey : Text
  secretKey : Text
  region : Text
  deriving DecidableEq, Repr

/-- A request for an HTTP component, with the context of its invocation. -/
structure HttpRequest where
  method : Text
  pathAndQuery : Text
  headers : List (Text × Text)
  body : Bytes
  sourceGarageId : Option String
  visitedGarages : List String
  applicationId : Option String
  releaseId : Option String
  paddockGrants : List PaddockGrant
  paddockAuth : Option PaddockGatewayAuth

/-- What the host of an HTTP guest knows. -/
structure HttpHostState where
  parentExecutionId : Option String
  invocationDepth : ℕ
  sourceGarageId : Option String
  visitedGarages : List String
  applicationId : Option String
  releaseId : Option String
  paddockGrants : List PaddockGrant
  paddockAuth : Option PaddockGatewayAuth
  requestMethod : Text
  requestPath : Text
  requestHeaders : List (Text × Text)
  requestPayloadHash : Text

/-- The host of one execution. -/
def HttpHostState.new (sha256 : Bytes → Sha256) (request : HttpRequest)
    (parentExecutionId : Option String) (invocationDepth : ℕ) : HttpHostState where
  parentExecutionId
  invocationDepth
  sourceGarageId := request.sourceGarageId
  visitedGarages := request.visitedGarages
  applicationId := request.applicationId
  releaseId := request.releaseId
  paddockGrants := request.paddockGrants
  paddockAuth := request.paddockAuth
  requestMethod := request.method
  requestPath := request.pathAndQuery
  requestHeaders := request.headers
  requestPayloadHash := hexDigest (sha256 request.body)

end PitBox.Runtime
