import PitBox.Gateway.Signer

/-!
# What a signature binds

The canonical request can be read back line by line. Two accepted requests with
one authorization have one canonical request, unless the hashes collide on what
is hashed for the two, and so they agree on all that is in it. Of a signed header
that is repeated only the first value is.
-/

namespace PitBox.Gateway

open PitBox.Runtime Chars Checked

/-! ### Methods -/

def isTokenChar (c : Char) : Bool := c.isAlphanum || c ∈ "!#$%&'*+-.^_`|~".toList

def ValidMethod (method : Text) : Prop := method ≠ [] ∧ method.all isTokenChar

/-- On ASCII text there is nothing to look up. -/
def UppercasesAscii (toUppercase : Text → Text) : Prop :=
  ∀ text : Text, (∀ c ∈ text, c.toNat < 128) → toUppercase text = text.map Char.toUpper

theorem lt_of_isTokenChar {c : Char} (h : isTokenChar c) : c.toNat < 128 := by
  have hmarks : "!#$%&'*+-.^_`|~".toList.all fun c => c.toNat < 128 := by decide
  rw [isTokenChar, Bool.or_eq_true, decide_eq_true_eq] at h
  rcases h with h | h
  · exact lt_of_isAlphanum h
  · exact of_decide_eq_true (List.all_eq_true.mp hmarks c h)

theorem toUpper_ne_newline : ∀ n < 128, isTokenChar (Char.ofNat n) →
    (Char.ofNat n).toUpper ≠ '\n' := by
  decide

theorem newline_notMem_method {toUppercase : Text → Text} {method : Text}
    (hupper : UppercasesAscii toUppercase) (h : ValidMethod method) :
    '\n' ∉ toUppercase method := by
  have htoken (c : Char) (hc : c ∈ method) : isTokenChar c := List.all_eq_true.mp h.2 c hc
  rw [hupper method fun c hc => lt_of_isTokenChar (htoken c hc)]
  intro hmem
  obtain ⟨c, hc, hnewline⟩ := List.mem_map.mp hmem
  have hspec := toUpper_ne_newline c.toNat (lt_of_isTokenChar (htoken c hc))
  rw [Char.ofNat_toNat] at hspec
  exact hspec (htoken c hc) hnewline

/-! ### Reading the canonical request back -/

section Lines

variable {name value value' x y : Text}

theorem headerLine_append_inj (h : headerLine name value ++ x = headerLine name value' ++ y) :
    collapse value = collapse value' ∧ x = y := by
  simp only [headerLine, intercalate_splitWhitespace, List.append_assoc, List.cons_append,
    List.nil_append] at h
  have hrest := (List.cons.inj (List.append_cancel_left h)).2
  exact append_cons_injective newline_notMem_collapse newline_notMem_collapse hrest

/-- The values are read back from their lines, up to their white space. -/
theorem headerLines_append_inj {names values values' : List Text}
    (hlength : values.length = names.length) (hlength' : values'.length = names.length)
    (h : (List.zipWith headerLine names values).flatten ++ x =
      (List.zipWith headerLine names values').flatten ++ y) :
    values.map collapse = values'.map collapse ∧ x = y := by
  induction names generalizing values values' with
  | nil =>
    obtain rfl := List.length_eq_zero_iff.mp hlength
    obtain rfl := List.length_eq_zero_iff.mp hlength'
    exact ⟨rfl, h⟩
  | cons name names ih =>
    obtain ⟨value, values, rfl⟩ := List.exists_cons_of_length_eq_add_one hlength
    obtain ⟨value', values', rfl⟩ := List.exists_cons_of_length_eq_add_one hlength'
    simp only [List.zipWith_cons_cons, List.flatten_cons, List.append_assoc] at h
    obtain ⟨hvalue, hlines⟩ := headerLine_append_inj h
    obtain ⟨hvalues, hrest⟩ := ih (by simpa using hlength) (by simpa using hlength') hlines
    exact ⟨by rw [List.map_cons, List.map_cons, hvalue, hvalues], hrest⟩

/-- The lines of a canonical request. -/
theorem canonicalRequest_inj {method method' payload payload' signedHeaders : Text}
    {t u : Target} {names values values' : List Text} (hmethod : '\n' ∉ method)
    (hmethod' : '\n' ∉ method') (hlength : values.length = names.length)
    (hlength' : values'.length = names.length)
    (h : canonicalRequest method t.canonicalUri t.canonicalQuery
        (List.zipWith headerLine names values).flatten signedHeaders payload =
      canonicalRequest method' u.canonicalUri u.canonicalQuery
        (List.zipWith headerLine names values').flatten signedHeaders payload') :
    method = method' ∧ t.canonicalUri = u.canonicalUri ∧ t.canonicalQuery = u.canonicalQuery ∧
      values.map collapse = values'.map collapse ∧ payload = payload' := by
  unfold canonicalRequest at h
  obtain ⟨hmethods, huris⟩ := append_cons_injective hmethod hmethod' h
  obtain ⟨huri, hqueries⟩ := append_cons_injective t.newline_notMem.1 u.newline_notMem.1 huris
  obtain ⟨hquery, hheaders⟩ := append_cons_injective t.newline_notMem.2 u.newline_notMem.2 hqueries
  obtain ⟨hvalues, hpayloads⟩ := headerLines_append_inj hlength hlength' hheaders
  have hpayload := (List.cons.inj (List.append_cancel_left (List.cons.inj hpayloads).2)).2
  exact ⟨hmethods, huri, hquery, hvalues, hpayload⟩

end Lines

theorem stringToSign_inj {amzDate amzDate' scope hash hash' : Text} (hdate : '\n' ∉ amzDate)
    (hdate' : '\n' ∉ amzDate')
    (h : stringToSign amzDate scope hash = stringToSign amzDate' scope hash') :
    amzDate = amzDate' ∧ hash = hash' := by
  unfold stringToSign at h
  have hdates := (List.cons.inj (List.append_cancel_left h)).2
  obtain ⟨hamzDate, hscopes⟩ := append_cons_injective hdate hdate' hdates
  exact ⟨hamzDate, (List.cons.inj (List.append_cancel_left hscopes)).2⟩

theorem CivilTime.newline_notMem (t : CivilTime) : '\n' ∉ t.amzText := by
  intro h
  rcases mem_amzText h with hdigit | hT | hZ
  · cases hdigit
  · cases hT
  · cases hZ

/-! ### What two requests have in common -/

/-- The function does not collide on two inputs. -/
def Separates {α β : Type} (f : α → β) (a b : α) : Prop := f a = f b → a = b

/-- The hashes do not collide on what is hashed for two requests: not SHA-256 on
the canonical requests, and not the keyed hash with the key of the first on the
texts that are signed. -/
structure Primitives.CollisionFree (lib : Primitives) (auth : PaddockGatewayAuth)
    (r₁ r₂ : SignedRequest) : Prop where
  sha256 : Separates lib.sha256 (utf8 r₁.canonical) (utf8 r₂.canonical)
  hmac : ∀ key, signingKey lib.hmac auth.secretKey (utf8 r₁.date) auth.region = some key →
    Separates (lib.hmac key.toList) (utf8 (r₁.toSign lib.sha256 auth.region))
      (utf8 (r₂.toSign lib.sha256 auth.region))

/-- The names that the authorization lists. -/
def signedNames (state : HttpHostState) : List Text :=
  match (headerValue state authorizationName).bind authorizationParts with
  | some parts => parts.signedHeaders.splitOn ';'
  | none => []

def collapsedValues (state : HttpHostState) (name : Text) : List Text :=
  (headerValues state name).map collapse

theorem head?_collapsedValues (state : HttpHostState) (name : Text) :
    (collapsedValues state name).head? = (headerValue state name).map collapse := by
  rw [collapsedValues, List.head?_map, headerValue_eq_head?]

/-- Two requests agree on all that is not a header. -/
structure AgreeBeside (toUppercase : Text → Text) (s₁ s₂ : HttpHostState) : Prop where
  method : toUppercase s₁.requestMethod = toUppercase s₂.requestMethod
  target : ∃ t₁ t₂ : Target, t₁.SpelledBy s₁.requestPath ∧ t₂.SpelledBy s₂.requestPath ∧
    t₁.pathSegments = t₂.pathSegments ∧ t₁.query.Perm t₂.query
  date : headerValue s₁ amzDateName = headerValue s₂ amzDateName
  payload : payloadHash s₁ = payloadHash s₂
  body : payloadHash s₁ ≠ unsignedPayload → payloadHash s₁ ≠ streamingPayload →
    s₁.requestPayloadHash = s₂.requestPayloadHash

/-- They agree also on every value of every signed header. -/
structure Agree (toUppercase : Text → Text) (s₁ s₂ : HttpHostState) : Prop
    extends AgreeBeside toUppercase s₁ s₂ where
  headers : ∀ name ∈ signedNames s₁, collapsedValues s₁ name = collapsedValues s₂ name

section Accepted

variable {lib : Primitives} {auth : PaddockGatewayAuth} {s s₁ s₂ : HttpHostState}
  {now now₁ now₂ : Option ℕ} {e e₁ e₂ : Envelope}

theorem Envelope.Fits.signedNames (h : e.Fits now auth s) : signedNames s = e.names := by
  rw [Gateway.signedNames, h.parts]
  rfl

theorem Envelope.Fits.map_headerValue (h : e.Fits now auth s) :
    e.names.map (fun name => (headerValue s name).map collapse) =
      (e.values.map collapse).map some := by
  have hvalues := h.headers
  generalize e.names = names at hvalues
  generalize e.values = values at hvalues
  induction hvalues with
  | nil => rfl
  | cons hvalue _ ih => rw [List.map_cons, ih, hvalue.2]; rfl

theorem Envelope.Fits.exists_headerValue (h : e.Fits now auth s) {name : Text}
    (hname : name ∈ e.names) : ∃ first, (headerValue s name).map collapse = some first := by
  have hmem := List.mem_map_of_mem (f := fun name => (headerValue s name).map collapse) hname
  rw [h.map_headerValue] at hmem
  obtain ⟨first, -, hfirst⟩ := List.mem_map.mp hmem
  exact ⟨first, hfirst.symm⟩

theorem Envelope.Fits.date_eq (h₁ : e₁.Fits now₁ auth s₁) (h₂ : e₂.Fits now₂ auth s₂)
    (hparts : e₁.parts = e₂.parts) : e₁.time.date = e₂.time.date := by
  have hcredential := h₁.credential
  rw [hparts, h₂.credential] at hcredential
  simpa using hcredential.symm

/-- One signature is that of one text. -/
theorem Envelope.canonical_eq (h₁ : e₁.Fits now₁ auth s₁) (h₂ : e₂.Fits now₂ auth s₂)
    (hparts : e₁.parts = e₂.parts) (hsigns₁ : e₁.Signs lib auth s₁)
    (hsigns₂ : e₂.Signs lib auth s₂)
    (hfree : lib.CollisionFree auth (e₁.signedRequest lib.toUppercase s₁)
      (e₂.signedRequest lib.toUppercase s₂)) :
    e₁.time.amzText = e₂.time.amzText ∧ (e₁.signedRequest lib.toUppercase s₁).canonical =
      (e₂.signedRequest lib.toUppercase s₂).canonical := by
  have hdate := Fits.date_eq h₁ h₂ hparts
  obtain ⟨key, mac, hkey, hmac, hsignature⟩ := hsigns₁
  obtain ⟨key', mac', hkey', hmac', hsignature'⟩ := hsigns₂
  obtain rfl : key = key' := by
    rw [hdate, hkey'] at hkey
    exact (Option.some.inj hkey).symm
  obtain rfl : mac = mac' := hexDigest_injective (by rw [hsignature, hsignature', hparts])
  have htoSign := utf8_injective (hfree.hmac key hkey (hmac.trans hmac'.symm))
  have hscope : (e₁.signedRequest lib.toUppercase s₁).date =
      (e₂.signedRequest lib.toUppercase s₂).date := hdate
  rw [SignedRequest.toSign, SignedRequest.toSign, hscope] at htoSign
  obtain ⟨htime, hhash⟩ := stringToSign_inj e₁.time.newline_notMem e₂.time.newline_notMem htoSign
  exact ⟨htime, utf8_injective (hfree.sha256 (hexDigest_injective hhash))⟩

/-- Two accepted requests with one authorization agree up to the values after the
first of a signed name. -/
theorem agreeBeside_of_yields (hupper : UppercasesAscii lib.toUppercase)
    (hmethod₁ : ValidMethod s₁.requestMethod) (hmethod₂ : ValidMethod s₂.requestMethod)
    (hsame : headerValue s₁ authorizationName = headerValue s₂ authorizationName)
    (hfree : ∀ r₁ r₂, (checkRequest lib.toUppercase now₁ auth s₁).Yields r₁ →
      (checkRequest lib.toUppercase now₂ auth s₂).Yields r₂ → lib.CollisionFree auth r₁ r₂)
    (h₁ : (verifyWith lib now₁ auth s₁).Yields ()) (h₂ : (verifyWith lib now₂ auth s₂).Yields ()) :
    AgreeBeside lib.toUppercase s₁ s₂ ∧ ∀ name ∈ signedNames s₁,
      ∃ first, (collapsedValues s₁ name).head? = some first ∧
        (collapsedValues s₂ name).head? = some first := by
  obtain ⟨e₁, hfits₁, hsigns₁⟩ := yields_verifyWith.mp h₁
  obtain ⟨e₂, hfits₂, hsigns₂⟩ := yields_verifyWith.mp h₂
  have hparts : e₁.parts = e₂.parts := by
    have hparts₁ := hfits₁.parts
    rw [hsame, hfits₂.parts] at hparts₁
    exact (Option.some.inj hparts₁).symm
  have hnames : e₁.names = e₂.names := by rw [Envelope.names, hparts, Envelope.names]
  obtain ⟨htime, hcanonical⟩ := Envelope.canonical_eq hfits₁ hfits₂ hparts hsigns₁ hsigns₂
    (hfree _ _ (yields_checkRequest.mpr ⟨e₁, hfits₁, rfl⟩)
      (yields_checkRequest.mpr ⟨e₂, hfits₂, rfl⟩))
  have hlength₁ := hfits₁.headers.length_eq.symm
  have hlength₂ := hfits₂.headers.length_eq.symm
  simp only [Envelope.signedRequest, Envelope.headerLines, hparts, hnames] at hcanonical
  rw [hnames] at hlength₁
  obtain ⟨hmethod, huri, hquery, hvalues, hpayload⟩ :=
    canonicalRequest_inj (newline_notMem_method hupper hmethod₁)
      (newline_notMem_method hupper hmethod₂) hlength₁ hlength₂ hcanonical
  refine ⟨⟨hmethod, ⟨e₁.target, e₂.target, hfits₁.target, hfits₂.target, ?_, ?_⟩, ?_, hpayload, ?_⟩,
    ?_⟩
  · exact Target.canonicalUri_injective hfits₁.target.segments_ne_nil
      hfits₂.target.segments_ne_nil huri
  · exact Target.canonicalQuery_injective hquery
  · rw [hfits₁.date, hfits₂.date, htime]
  · intro hunsigned hstreaming
    have hdeclared {r : HttpHostState} (hr : acceptedPayloadHash (payloadHash r)
        r.requestPayloadHash) (heq : payloadHash s₁ = payloadHash r) :
        payloadHash r = r.requestPayloadHash := by
      rcases acceptedPayloadHash_iff.mp hr with h | h | h
      · exact absurd (heq.trans h) hunsigned
      · exact absurd (heq.trans h) hstreaming
      · exact h
    rw [← hdeclared hfits₁.payload rfl, ← hdeclared hfits₂.payload hpayload, hpayload]
  · intro name hname
    have hfirst : e₁.names.map (fun name => (headerValue s₁ name).map collapse) =
        e₁.names.map (fun name => (headerValue s₂ name).map collapse) := by
      rw [hfits₁.map_headerValue, hvalues, hnames, hfits₂.map_headerValue]
    rw [hfits₁.signedNames] at hname
    obtain ⟨first, hvalue⟩ := hfits₁.exists_headerValue hname
    rw [head?_collapsedValues, head?_collapsedValues, ← List.map_inj_left.mp hfirst name hname]
    exact ⟨first, hvalue, hvalue⟩

/-- Two accepted requests with one authorization agree on all that the signature
is about exactly if they agree on the values after the first of every signed
name. -/
theorem verifyGatewaySignature_agree (hauth₁ : s₁.paddockAuth = some auth)
    (hauth₂ : s₂.paddockAuth = some auth) (hupper : UppercasesAscii lib.toUppercase)
    (hmethod₁ : ValidMethod s₁.requestMethod) (hmethod₂ : ValidMethod s₂.requestMethod)
    (hsame : headerValue s₁ authorizationName = headerValue s₂ authorizationName)
    (hfree : ∀ r₁ r₂, (checkRequest lib.toUppercase now₁ auth s₁).Yields r₁ →
      (checkRequest lib.toUppercase now₂ auth s₂).Yields r₂ → lib.CollisionFree auth r₁ r₂)
    (h₁ : (verifyGatewaySignature lib now₁ s₁).Yields ())
    (h₂ : (verifyGatewaySignature lib now₂ s₂).Yields ()) :
    Agree lib.toUppercase s₁ s₂ ↔ ∀ name ∈ signedNames s₁,
      (collapsedValues s₁ name).tail = (collapsedValues s₂ name).tail := by
  rw [verifyGatewaySignature, hauth₁] at h₁
  rw [verifyGatewaySignature, hauth₂] at h₂
  obtain ⟨hbeside, hfirst⟩ :=
    agreeBeside_of_yields hupper hmethod₁ hmethod₂ hsame hfree h₁ h₂
  constructor
  · intro h name hname
    rw [h.headers name hname]
  · intro htails
    refine ⟨hbeside, ?_⟩
    intro name hname
    obtain ⟨first, hhead₁, hhead₂⟩ := hfirst name hname
    rw [← List.cons_head?_tail hhead₁, htails name hname, List.cons_head?_tail hhead₂]

end Accepted

/-! ### A repeated header -/

section Repeated

variable {s₁ s₂ : HttpHostState} {now : Option ℕ} {auth : PaddockGatewayAuth}

theorem canonicalHeaders_congr (h : ∀ name, headerValue s₁ name = headerValue s₂ name)
    (names : List Text) : canonicalHeaders s₁ names = canonicalHeaders s₂ names := by
  induction names with
  | nil => rfl
  | cons name names ih =>
    rw [canonicalHeaders, canonicalHeaders, ih, canonicalHeader, canonicalHeader, h name]

theorem checkRequest_congr {toUppercase : Text → Text}
    (h : ∀ name, headerValue s₁ name = headerValue s₂ name)
    (hmethod : s₁.requestMethod = s₂.requestMethod) (hpath : s₁.requestPath = s₂.requestPath)
    (hhash : s₁.requestPayloadHash = s₂.requestPayloadHash) :
    checkRequest toUppercase now auth s₁ = checkRequest toUppercase now auth s₂ := by
  simp only [checkRequest, payloadHash, canonicalHeaders_congr h, h, hmethod, hpath, hhash]

theorem find?_append_of_covered {α : Type} {p : α → Bool} {xs ys : List α}
    (h : ∀ y ∈ ys, p y → ∃ x ∈ xs, p x) : (xs ++ ys).find? p = xs.find? p := by
  rw [List.find?_append]
  cases hxs : xs.find? p with
  | some x => rfl
  | none =>
    rw [Option.none_or, List.find?_eq_none]
    intro y hy hp
    obtain ⟨x, hx, hpx⟩ := h y hy hp
    exact List.find?_eq_none.mp hxs x hx hpx

/-- HMAC-SHA256 on the parts of the scope and on the text that is signed. -/
def macOfTagged (key message : Bytes) : Sha256 :=
  if message ∈ ["20260908".toList, "zone".toList, serviceName, requestMarker].map utf8 then
    macOfGet key message
  else digestOf "c1309f20b6834c37cd987e50488e53167c8d12c5d67364ade26571ae66010ff6"

/-- SHA-256 on the canonical request with a red tag. -/
def libOfTagged : Primitives where
  sha256 _ := digestOf "57b240ecc6e669abd5a49b8029471e7c1f661c21b74b916a6218fea59f1a68c4"
  hmac key message := some (macOfTagged key message)
  toUppercase := List.map Char.toUpper

/-- A red tag is signed. The request carries more of them. -/
def taggedGet (more : List Text) : HttpHostState :=
  { receivedGet with
    requestHeaders :=
      [("Host".toList, "gateway one".toList), ("X-Amz-Date".toList, "20260908T120000Z".toList),
        ("Authorization".toList, ["AWS4-HMAC-SHA256 ", "Credential=key/20260908/zone/",
          "s3/aws4_request,", "SignedHeaders=host;", "x-amz-date;x-tag,", "Signature=",
          "c1309f20b6834c37cd987e50488e5316", "7c8d12c5d67364ade26571ae66010ff6"].flatMap
            String.toList),
        ("X-Tag".toList, "red".toList)] ++ more.map fun tag => ("X-Tag".toList, tag) }

theorem headerValue_taggedGet (more : List Text) (name : Text) :
    headerValue (taggedGet more) name = headerValue (taggedGet []) name := by
  have hfind : (taggedGet more).requestHeaders.find? (fun header => eqIgnoreAsciiCase header.1 name)
      = (taggedGet []).requestHeaders.find? fun header => eqIgnoreAsciiCase header.1 name := by
    apply find?_append_of_covered
    intro header hheader hname
    obtain ⟨tag, -, rfl⟩ := List.mem_map.mp hheader
    exact ⟨("X-Tag".toList, "red".toList), by simp, hname⟩
  rw [headerValue, headerValue, hfind]

theorem checkRequest_taggedGet (toUppercase : Text → Text) (more : List Text) :
    checkRequest toUppercase now auth (taggedGet more) =
      checkRequest toUppercase now auth (taggedGet []) :=
  checkRequest_congr (headerValue_taggedGet more) rfl rfl rfl

theorem signedNames_taggedGet (more : List Text) :
    signedNames (taggedGet more) = [hostName, amzDateName, "x-tag".toList] := by
  rw [signedNames, headerValue_taggedGet]
  decide +kernel

theorem taggedGet_yields (more : List Text) :
    (verifyGatewaySignature libOfTagged (some 1788869100) (taggedGet more)).Yields () := by
  have hfirst : (verifyWith libOfTagged (some 1788869100) zoneKey (taggedGet [])).run =
      some (.ok ()) := by
    decide +kernel
  change (verifyWith libOfTagged (some 1788869100) zoneKey (taggedGet more)).Yields ()
  rw [verifyWith, checkRequest_taggedGet]
  exact hfirst

theorem collisionFree_taggedGet (more more' : List Text) {r₁ r₂ : SignedRequest}
    (h₁ : (checkRequest libOfTagged.toUppercase now auth (taggedGet more)).Yields r₁)
    (h₂ : (checkRequest libOfTagged.toUppercase now auth (taggedGet more')).Yields r₂) :
    libOfTagged.CollisionFree auth r₁ r₂ := by
  rw [checkRequest_taggedGet] at h₁ h₂
  rw [Yields, h₂] at h₁
  cases h₁
  exact ⟨fun _ => rfl, fun _ _ _ => rfl⟩

theorem validMethod_taggedGet (more : List Text) :
    ValidMethod (taggedGet more).requestMethod := by
  have hvalid : ValidMethod "get".toList := ⟨by decide, by decide⟩
  exact hvalid

/-- A second value of a signed header is not noticed. -/
theorem verifyGatewaySignature_repeated :
    (taggedGet []).paddockAuth = some zoneKey ∧
      (taggedGet ["blue".toList]).paddockAuth = some zoneKey ∧
      UppercasesAscii libOfTagged.toUppercase ∧
      ValidMethod (taggedGet []).requestMethod ∧
      ValidMethod (taggedGet ["blue".toList]).requestMethod ∧
      headerValue (taggedGet []) authorizationName =
        headerValue (taggedGet ["blue".toList]) authorizationName ∧
      (∀ r₁ r₂, (checkRequest libOfTagged.toUppercase (some 1788869100) zoneKey
          (taggedGet [])).Yields r₁ →
        (checkRequest libOfTagged.toUppercase (some 1788869100) zoneKey
          (taggedGet ["blue".toList])).Yields r₂ → libOfTagged.CollisionFree zoneKey r₁ r₂) ∧
      (verifyGatewaySignature libOfTagged (some 1788869100) (taggedGet [])).Yields () ∧
      (verifyGatewaySignature libOfTagged (some 1788869100)
        (taggedGet ["blue".toList])).Yields () ∧
      ¬ Agree libOfTagged.toUppercase (taggedGet []) (taggedGet ["blue".toList]) := by
  refine ⟨rfl, rfl, fun _ _ => rfl, validMethod_taggedGet _, validMethod_taggedGet _, ?_, ?_,
    taggedGet_yields _, taggedGet_yields _, ?_⟩
  · exact (headerValue_taggedGet _ _).symm
  · exact fun _ _ => collisionFree_taggedGet _ _
  · intro h
    have hvalues := h.headers "x-tag".toList (by rw [signedNames_taggedGet]; simp)
    revert hvalues
    decide +kernel

/-- The white space of the other tags does not matter. -/
theorem verifyGatewaySignature_agree_spaces :
    Agree libOfTagged.toUppercase (taggedGet ["dark  blue".toList])
      (taggedGet [" dark blue".toList]) := by
  have hsame : headerValue (taggedGet ["dark  blue".toList]) authorizationName =
      headerValue (taggedGet [" dark blue".toList]) authorizationName := by
    rw [headerValue_taggedGet, headerValue_taggedGet [" dark blue".toList]]
  have htails : ∀ name ∈ [hostName, amzDateName, "x-tag".toList],
      (collapsedValues (taggedGet ["dark  blue".toList]) name).tail =
        (collapsedValues (taggedGet [" dark blue".toList]) name).tail := by
    decide +kernel
  rw [← signedNames_taggedGet ["dark  blue".toList]] at htails
  exact (verifyGatewaySignature_agree rfl rfl (fun _ _ => rfl) (validMethod_taggedGet _)
    (validMethod_taggedGet _) hsame (fun _ _ => collisionFree_taggedGet _ _)
      (taggedGet_yields _) (taggedGet_yields _)).mpr htails

end Repeated

end PitBox.Gateway
