import PitBox.Gateway.CanonicalTarget
import PitBox.Gateway.Hmac
import PitBox.Gateway.Timestamp
import PitBox.Runtime.HttpHost

/-!
# Verifying the signature of a gateway request

The checks of `verify_gateway_signature` in their order. Comparisons of ASCII
text look at characters where the source looks at bytes. The hash, the keyed
hash and the Unicode tables of `to_uppercase` are parameters, as is the clock.
-/

namespace PitBox.Gateway

open PitBox.Runtime Chars Checked

/-- What a verification computes with. `hmac` may panic. -/
structure Primitives where
  sha256 : Bytes → Sha256
  hmac : Bytes → Bytes → Option Sha256
  toUppercase : Text → Text

/-- The first header of a name. -/
def headerValue (state : HttpHostState) (name : Text) : Option Text :=
  (state.requestHeaders.find? fun header => eqIgnoreAsciiCase header.1 name).map fun header =>
    trim header.2

def unsignedPayload : Text := "UNSIGNED-PAYLOAD".toList

def streamingPayload : Text := "STREAMING-AWS4-HMAC-SHA256-PAYLOAD".toList

def acceptedPayloadHash (declared actual : Text) : Bool :=
  declared == unsignedPayload || declared == streamingPayload || declared == actual

/-! ### The Authorization header -/

def authorizationName : Text := "authorization".toList

def amzDateName : Text := "x-amz-date".toList

def hostName : Text := "host".toList

def contentHashName : Text := "x-amz-content-sha256".toList

def algorithm : Text := "AWS4-HMAC-SHA256".toList

def credentialKey : Text := "Credential".toList

def signedHeadersKey : Text := "SignedHeaders".toList

def signatureKey : Text := "Signature".toList

def serviceName : Text := ['s', '3']

def requestMarker : Text := "aws4_request".toList

/-- The parts of an authorization, collected into a map: the last part of a name
counts. -/
def authorizationPart (rest key : Text) : Option Text :=
  (((rest.splitOn ',').filterMap fun part => splitOnce '=' (trim part)).reverse.find?
    fun part => part.1 == key).map Prod.snd

def isHexdigit (c : Char) : Bool := c.isDigit || ('a' ≤ c && c ≤ 'f') || ('A' ≤ c && c ≤ 'F')

/-- No name is at least the next one. -/
def sortedNames (names : List Text) : Bool :=
  (names.zip names.tail).all fun window => window.1 < window.2

def isHeaderNameChar (c : Char) : Bool := c.isLower || c.isDigit || c == '-'

/-! ### The canonical request -/

/-- A line of the canonical headers. -/
def headerLine (name value : Text) : Text :=
  name ++ ':' :: ([' '].intercalate (splitWhitespace value) ++ ['\n'])

def canonicalHeader (state : HttpHostState) (name : Text) : Checked String Text := do
  ensure (!name.isEmpty && name.all isHeaderNameChar) "invalid signed header name"
  let value ← require (headerValue state name)
    ("signed header is missing: " ++ String.ofList name)
  return headerLine name value

/-- The loop over the signed names. -/
def canonicalHeaders (state : HttpHostState) : List Text → Checked String Text
  | [] => return []
  | name :: names => do
    let line ← canonicalHeader state name
    return line ++ (← canonicalHeaders state names)

def canonicalRequest (method uri query headers signedHeaders payloadHash : Text) : Text :=
  method ++ '\n' :: (uri ++ '\n' :: (query ++ '\n' :: (headers ++ '\n' ::
    (signedHeaders ++ '\n' :: payloadHash))))

def credentialScope (date region : Text) : Text :=
  date ++ '/' :: (region ++ '/' :: (serviceName ++ '/' :: requestMarker))

def stringToSign (amzDate scope requestHash : Text) : Text :=
  algorithm ++ '\n' :: (amzDate ++ '\n' :: (scope ++ '\n' :: requestHash))

/-- The chain of keys, from the secret to the key of the signature. -/
def signingKey (hmac : Bytes → Bytes → Option Sha256) (secretKey : Text) (date : Bytes)
    (region : Text) : Option Sha256 := do
  let dateKey ← hmac (utf8 ("AWS4".toList ++ secretKey)) date
  let regionKey ← hmac dateKey.toList (utf8 region)
  let serviceKey ← hmac regionKey.toList (utf8 serviceName)
  hmac serviceKey.toList (utf8 requestMarker)

/-- The request is declared with the hash that a header gives, or that of its body. -/
def payloadHash (state : HttpHostState) : Text :=
  (headerValue state contentHashName).getD state.requestPayloadHash

/-- What a signature is compared for. -/
structure SignedRequest where
  amzDate : Text
  date : Text
  signature : Text
  canonical : Text
  deriving DecidableEq, Repr

/-- The checks before the signature is computed. -/
def checkRequest (toUppercase : Text → Text) (now : Option ℕ) (auth : PaddockGatewayAuth)
    (state : HttpHostState) : Checked String SignedRequest := do
  let authorization ← require (headerValue state authorizationName)
    "SigV4 Authorization header is required"
  let amzDate ← require (headerValue state amzDateName) "x-amz-date header is required"
  let signedTimestamp ← parseAmzTimestamp amzDate
  let now ← require now "system clock is before the Unix epoch"
  ensure (((now : ℤ) - signedTimestamp).natAbs ≤ 900)
    "request timestamp is outside the 15 minute SigV4 window"
  let rest ← require (stripPrefix (algorithm ++ [' ']) authorization)
    "unsupported authorization scheme"
  let credential ← require (authorizationPart rest credentialKey) "SigV4 Credential is missing"
  let credentialParts := credential.splitOn '/'
  ensure (credentialParts.length == 5 && credentialParts[0]? == some auth.accessKey)
    "invalid SigV4 credential"
  let date ← slice amzDate 0 8
  ensure (credentialParts[1]? == some date && credentialParts[2]? == some auth.region
    && credentialParts[3]? == some serviceName && credentialParts[4]? == some requestMarker)
    "invalid SigV4 credential scope"
  let signedHeaders ← require (authorizationPart rest signedHeadersKey)
    "SigV4 SignedHeaders is missing"
  let signature ← require (authorizationPart rest signatureKey) "SigV4 Signature is missing"
  ensure (signature.length == 64 && signature.all isHexdigit) "invalid SigV4 signature"
  let signed := signedHeaders.splitOn ';'
  ensure (sortedNames signed) "SigV4 SignedHeaders must be sorted"
  let headers ← canonicalHeaders state signed
  ensure (signed.contains hostName && signed.contains amzDateName)
    "host and x-amz-date must be signed"
  ensure (acceptedPayloadHash (payloadHash state) state.requestPayloadHash)
    "x-amz-content-sha256 does not match the request body"
  let (uri, query) ← Checked.ofExcept (canonicalPathAndQuery state.requestPath)
  let canonical := canonicalRequest (toUppercase state.requestMethod) uri query headers
    signedHeaders (payloadHash state)
  return { amzDate, date, signature, canonical }

/-- The verification of a gateway with a key. -/
def verifyWith (lib : Primitives) (now : Option ℕ) (auth : PaddockGatewayAuth)
    (state : HttpHostState) : Checked String Unit := do
  let signed ← checkRequest lib.toUppercase now auth state
  let toSign := stringToSign signed.amzDate (credentialScope signed.date auth.region)
    (hexDigest (lib.sha256 (utf8 signed.canonical)))
  let key ← orPanic (signingKey lib.hmac auth.secretKey ((utf8 signed.amzDate).take 8) auth.region)
  let expected ← orPanic (lib.hmac key.toList (utf8 toSign))
  ensure (constantTimeHexEq (hexDigest expected) signed.signature) "signature does not match"

/-- A gateway without a key accepts every request. -/
def verifyGatewaySignature (lib : Primitives) (now : Option ℕ) (state : HttpHostState) :
    Checked String Unit :=
  match state.paddockAuth with
  | none => return ()
  | some auth => verifyWith lib now auth state

end PitBox.Gateway
