import PitBox.Gateway.Verify

/-!
# What an accepted request shows

The checks before the signature succeed exactly on a request that has an
envelope: a time, a target that it spells, the parts of its authorization and
the values of the headers that these name. A request is accepted if moreover the
signature in its envelope is the one that belongs to it.
-/

namespace PitBox.Gateway

open PitBox.Runtime Chars Checked

/-- The parts of an authorization that count. -/
structure AuthorizationParts where
  credential : Text
  signedHeaders : Text
  signature : Text
  deriving DecidableEq, Repr

def authorizationParts (authorization : Text) : Option AuthorizationParts := do
  let rest ← stripPrefix (algorithm ++ [' ']) authorization
  return {
    credential := ← authorizationPart rest credentialKey
    signedHeaders := ← authorizationPart rest signedHeadersKey
    signature := ← authorizationPart rest signatureKey }

def headerValues (state : HttpHostState) (name : Text) : List Text :=
  (state.requestHeaders.filter fun header => eqIgnoreAsciiCase header.1 name).map fun header =>
    trim header.2

theorem headerValue_eq_head? (state : HttpHostState) (name : Text) :
    headerValue state name = (headerValues state name).head? := by
  rw [headerValue, headerValues, List.head?_map, List.head?_filter]

theorem acceptedPayloadHash_iff {declared actual : Text} : acceptedPayloadHash declared actual ↔
    declared = unsignedPayload ∨ declared = streamingPayload ∨ declared = actual := by
  simp [acceptedPayloadHash, or_assoc]

/-- What the signature of a request is about. -/
structure Envelope where
  time : CivilTime
  target : Target
  parts : AuthorizationParts
  values : List Text
  deriving DecidableEq, Repr

def CivilTime.date (t : CivilTime) : Text := t.amzText.take 8

namespace Envelope

def names (e : Envelope) : List Text := e.parts.signedHeaders.splitOn ';'

def headerLines (e : Envelope) : Text := (List.zipWith headerLine e.names e.values).flatten

def signedRequest (e : Envelope) (toUppercase : Text → Text) (state : HttpHostState) :
    SignedRequest where
  amzDate := e.time.amzText
  date := e.time.date
  signature := e.parts.signature
  canonical := canonicalRequest (toUppercase state.requestMethod) e.target.canonicalUri
    e.target.canonicalQuery e.headerLines e.parts.signedHeaders (payloadHash state)

/-- The envelope is that of the request, and the checks before the signature
succeed on it. -/
structure Fits (e : Envelope) (now : Option ℕ) (auth : PaddockGatewayAuth)
    (state : HttpHostState) : Prop where
  valid : e.time.Valid
  date : headerValue state amzDateName = some e.time.amzText
  recent : ∃ n, now = some n ∧ ((n : ℤ) - e.time.unixTimestamp).natAbs ≤ 900
  parts : (headerValue state authorizationName).bind authorizationParts = some e.parts
  credential : e.parts.credential.splitOn '/' =
    [auth.accessKey, e.time.date, auth.region, serviceName, requestMarker]
  signature : e.parts.signature.length = 64 ∧ e.parts.signature.all isHexdigit
  sorted : sortedNames e.names
  headers : List.Forall₂ (fun name value => (name ≠ [] ∧ name.all isHeaderNameChar) ∧
    headerValue state name = some value) e.names e.values
  required : hostName ∈ e.names ∧ amzDateName ∈ e.names
  payload : acceptedPayloadHash (payloadHash state) state.requestPayloadHash
  target : e.target.SpelledBy state.requestPath

end Envelope

/-! ### The checks before the signature -/

section Checks

variable {state : HttpHostState} {now : Option ℕ} {auth : PaddockGatewayAuth}
  {toUppercase : Text → Text}

theorem CivilTime.date_ascii (t : CivilTime) : ∀ c ∈ t.date, c.toNat < 128 :=
  fun c hc => t.amzText_ascii c (List.mem_of_mem_take hc)

theorem slice_date (t : CivilTime) : slice? t.amzText 0 8 = some t.date := by
  have htext : t.amzText = [] ++ t.date ++ t.amzText.drop 8 := (List.take_append_drop 8 _).symm
  have hlength : (utf8 t.date).length = 8 := by
    rw [length_utf8_ascii t.date_ascii, CivilTime.date, List.length_take, t.length_amzText]
    rfl
  rw [htext]
  exact slice_append rfl (by rw [hlength])

theorem take_utf8_amzText (t : CivilTime) : (utf8 t.amzText).take 8 = utf8 t.date := by
  rw [utf8_ascii t.amzText_ascii, utf8_ascii t.date_ascii, CivilTime.date, List.map_take]

theorem yields_canonicalHeader {name line : Text} : (canonicalHeader state name).Yields line ↔
    ∃ value, ((name ≠ [] ∧ name.all isHeaderNameChar) ∧ headerValue state name = some value) ∧
      line = headerLine name value := by
  unfold canonicalHeader
  simp only [yields_bind, yields_ensure, yields_require, yields_pure, exists_const,
    Bool.and_eq_true, Bool.not_eq_true', List.isEmpty_eq_false_iff]
  constructor
  · rintro ⟨hname, value, hvalue, rfl⟩
    exact ⟨value, ⟨hname, hvalue⟩, rfl⟩
  · rintro ⟨value, ⟨hname, hvalue⟩, rfl⟩
    exact ⟨hname, value, hvalue, rfl⟩

/-- The loop succeeds if every name has a value, and yields a line for each. -/
theorem yields_canonicalHeaders {names : List Text} {text : Text} :
    (canonicalHeaders state names).Yields text ↔
      ∃ values, List.Forall₂ (fun name value => (name ≠ [] ∧ name.all isHeaderNameChar) ∧
        headerValue state name = some value) names values ∧
          text = (List.zipWith headerLine names values).flatten := by
  induction names generalizing text with
  | nil =>
    rw [canonicalHeaders, yields_pure]
    constructor
    · rintro rfl
      exact ⟨[], .nil, rfl⟩
    · rintro ⟨values, hvalues, rfl⟩
      cases hvalues
      rfl
  | cons name names ih =>
    simp only [canonicalHeaders, yields_bind, yields_pure, ih, yields_canonicalHeader]
    constructor
    · rintro ⟨line, ⟨value, hvalue, rfl⟩, rest, ⟨values, hvalues, rfl⟩, rfl⟩
      exact ⟨value :: values, .cons hvalue hvalues, rfl⟩
    · rintro ⟨values, hvalues, rfl⟩
      cases hvalues with
      | cons hvalue hvalues => exact ⟨_, ⟨_, hvalue, rfl⟩, _, ⟨_, hvalues, rfl⟩, rfl⟩

theorem authorizationParts_eq_some {authorization : Text} {parts : AuthorizationParts} :
    authorizationParts authorization = some parts ↔
      ∃ rest, stripPrefix (algorithm ++ [' ']) authorization = some rest ∧
        authorizationPart rest credentialKey = some parts.credential ∧
        authorizationPart rest signedHeadersKey = some parts.signedHeaders ∧
        authorizationPart rest signatureKey = some parts.signature := by
  obtain ⟨credential, signedHeaders, signature⟩ := parts
  simp [authorizationParts, Option.bind_eq_some_iff]

theorem five_parts {parts : List Text} {a b c d e : Text} :
    ((parts.length == 5 && parts[0]? == some a) ∧ (parts[1]? == some b && parts[2]? == some c
      && parts[3]? == some d && parts[4]? == some e)) ↔ parts = [a, b, c, d, e] := by
  constructor
  · rintro ⟨hfirst, hrest⟩
    simp only [Bool.and_eq_true, beq_iff_eq] at hfirst hrest
    match parts, hfirst.1 with
    | [_, _, _, _, _], _ => simp_all
  · rintro rfl
    simp

theorem yields_checkRequest {signed : SignedRequest} :
    (checkRequest toUppercase now auth state).Yields signed ↔
      ∃ e : Envelope, e.Fits now auth state ∧ signed = e.signedRequest toUppercase state := by
  unfold checkRequest
  simp only [yields_bind, yields_ensure, yields_require, yields_pure, exists_const,
    yields_parseAmzTimestamp, yields_slice, yields_ofExcept, yields_canonicalHeaders,
    canonicalPathAndQuery_eq_ok]
  constructor
  · rintro ⟨authorization, hauthorization, _, hdate, _, ⟨t, ht, rfl, rfl⟩, n, hn, hrecent, rest,
      hrest, credential, hcredential, hfirst, date, hslice, hscope, signedHeaders, hsignedHeaders,
      signature, hsignature, hshape, hsorted, _, ⟨values, hvalues, rfl⟩, hrequired, hpayload, _,
      ⟨target, htarget, rfl⟩, rfl⟩
    obtain rfl : t.date = date := Option.some.inj ((slice_date t).symm.trans hslice)
    have hparts : authorizationParts authorization = some ⟨credential, signedHeaders, signature⟩ :=
      authorizationParts_eq_some.mpr ⟨rest, hrest, hcredential, hsignedHeaders, hsignature⟩
    refine ⟨⟨t, target, ⟨credential, signedHeaders, signature⟩, values⟩, ?_, rfl⟩
    exact {
      valid := ht
      date := hdate
      recent := ⟨n, hn, of_decide_eq_true hrecent⟩
      parts := by rw [hauthorization, Option.bind_some, hparts]
      credential := five_parts.mp ⟨hfirst, hscope⟩
      signature := by simpa using hshape
      sorted := hsorted
      headers := hvalues
      required := by simpa [Envelope.names] using hrequired
      payload := hpayload
      target := htarget }
  · rintro ⟨e, h, rfl⟩
    obtain ⟨n, hn, hrecent⟩ := h.recent
    obtain ⟨authorization, hauthorization, hparts⟩ := Option.bind_eq_some_iff.mp h.parts
    obtain ⟨rest, hrest, hcredential, hsignedHeaders, hsignature⟩ :=
      authorizationParts_eq_some.mp hparts
    obtain ⟨hfirst, hscope⟩ := five_parts.mpr h.credential
    exact ⟨authorization, hauthorization, e.time.amzText, h.date, e.time.unixTimestamp,
      ⟨e.time, h.valid, rfl, rfl⟩, n, hn, decide_eq_true hrecent, rest, hrest, _, hcredential,
      hfirst, e.time.date, slice_date e.time, hscope, _, hsignedHeaders, _, hsignature,
      by simpa using h.signature, h.sorted, _, ⟨e.values, h.headers, rfl⟩,
      by simpa [Envelope.names] using h.required, h.payload, _, ⟨e.target, h.target, rfl⟩, rfl⟩

end Checks

/-! ### The signature -/

section Signature

variable {lib : Primitives} {now : Option ℕ} {auth : PaddockGatewayAuth} {state : HttpHostState}

/-- The text that is signed for a request. -/
def SignedRequest.toSign (signed : SignedRequest) (sha256 : Bytes → Sha256) (region : Text) :
    Text :=
  stringToSign signed.amzDate (credentialScope signed.date region)
    (hexDigest (sha256 (utf8 signed.canonical)))

/-- The signature is that of the envelope. -/
def Envelope.Signs (e : Envelope) (lib : Primitives) (auth : PaddockGatewayAuth)
    (state : HttpHostState) : Prop :=
  ∃ key mac, signingKey lib.hmac auth.secretKey (utf8 e.time.date) auth.region = some key ∧
    lib.hmac key.toList
      (utf8 ((e.signedRequest lib.toUppercase state).toSign lib.sha256 auth.region)) = some mac ∧
      hexDigest mac = e.parts.signature

theorem yields_verifyWith : (verifyWith lib now auth state).Yields () ↔
    ∃ e : Envelope, e.Fits now auth state ∧ e.Signs lib auth state := by
  unfold verifyWith
  simp only [yields_bind, yields_ensure, yields_orPanic, yields_checkRequest,
    constantTimeHexEq_iff]
  constructor
  · rintro ⟨_, ⟨e, hfits, rfl⟩, key, hkey, mac, hmac, hsignature⟩
    refine ⟨e, hfits, key, mac, ?_, hmac, hsignature⟩
    rw [← take_utf8_amzText]
    exact hkey
  · rintro ⟨e, hfits, key, mac, hkey, hmac, hsignature⟩
    refine ⟨_, ⟨e, hfits, rfl⟩, key, ?_, mac, hmac, hsignature⟩
    rw [← take_utf8_amzText] at hkey
    exact hkey

end Signature

end PitBox.Gateway
