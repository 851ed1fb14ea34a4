import PitBox.Gateway.Calendar
import PitBox.Gateway.Tamper

/-!
# When a request is accepted, and what it may carry

Whether a request is accepted depends on the clock only through the time in its
date header, so the requests with one authorization are all accepted at the same
clock readings. And it depends on the headers only through the first values of
the names that the authorization lists and of the three names that the checks ask
for themselves.
-/

namespace PitBox.Gateway

open PitBox.Runtime Chars Checked

/-! ### The clock -/

def CivilTime.Within (t : CivilTime) (now : Option ℕ) : Prop :=
  ∃ n, now = some n ∧ ((n : ℤ) - t.unixTimestamp).natAbs ≤ 900

theorem CivilTime.unixTimestamp_eq_of_amzText {t u : CivilTime} (ht : t.Valid) (hu : u.Valid)
    (h : t.amzText = u.amzText) : t.unixTimestamp = u.unixTimestamp := by
  have hfirst : (parseAmzTimestamp t.amzText).Yields t.unixTimestamp :=
    yields_parseAmzTimestamp.mpr ⟨t, ht, rfl, rfl⟩
  have hsecond : (parseAmzTimestamp t.amzText).Yields u.unixTimestamp :=
    yields_parseAmzTimestamp.mpr ⟨u, hu, h, rfl⟩
  simpa [Yields] using hfirst.symm.trans hsecond

section Window

variable {lib : Primitives} {auth : PaddockGatewayAuth} {s s₁ s₂ : HttpHostState}
  {now now' now₁ now₂ : Option ℕ} {e e₁ e₂ : Envelope}

theorem Envelope.Fits.at (h : e.Fits now auth s) (hwithin : e.time.Within now') :
    e.Fits now' auth s :=
  { h with recent := hwithin }

theorem Envelope.Fits.timestamp_eq (h₁ : e₁.Fits now₁ auth s₁) (h₂ : e₂.Fits now₂ auth s₂)
    (hdate : headerValue s₁ amzDateName = headerValue s₂ amzDateName) :
    e₁.time.unixTimestamp = e₂.time.unixTimestamp := by
  rw [h₁.date, h₂.date, Option.some_inj] at hdate
  exact CivilTime.unixTimestamp_eq_of_amzText h₁.valid h₂.valid hdate

theorem yields_verifyWith_iff_within (hfits : e.Fits now auth s) (hsigns : e.Signs lib auth s) :
    (verifyWith lib now' auth s).Yields () ↔ e.time.Within now' := by
  constructor
  · intro h
    obtain ⟨e', hfits', -⟩ := yields_verifyWith.mp h
    obtain ⟨n, hn, hnear⟩ := hfits'.recent
    exact ⟨n, hn, by rwa [hfits.timestamp_eq hfits' rfl]⟩
  · intro h
    exact yields_verifyWith.mpr ⟨e, hfits.at h, hsigns⟩

/-- The requests that are accepted with one authorization are accepted exactly at
the clock readings near one valid time. -/
theorem verifyGatewaySignature_window (hauth₁ : s₁.paddockAuth = some auth)
    (hauth₂ : s₂.paddockAuth = some auth)
    (hsame : headerValue s₁ authorizationName = headerValue s₂ authorizationName)
    (hfree : ∀ r₁ r₂, (checkRequest lib.toUppercase now₁ auth s₁).Yields r₁ →
      (checkRequest lib.toUppercase now₂ auth s₂).Yields r₂ → lib.CollisionFree auth r₁ r₂)
    (h₁ : (verifyGatewaySignature lib now₁ s₁).Yields ())
    (h₂ : (verifyGatewaySignature lib now₂ s₂).Yields ()) :
    ∃ t : CivilTime, t.Valid ∧ headerValue s₁ amzDateName = some t.amzText ∧
      headerValue s₂ amzDateName = some t.amzText ∧
      ∀ now, ((verifyGatewaySignature lib now s₁).Yields () ↔ t.Within now) ∧
        ((verifyGatewaySignature lib now s₂).Yields () ↔ t.Within now) := by
  simp only [verifyGatewaySignature, hauth₁, hauth₂] at h₁ h₂ ⊢
  obtain ⟨e₁, hfits₁, hsigns₁⟩ := yields_verifyWith.mp h₁
  obtain ⟨e₂, hfits₂, hsigns₂⟩ := yields_verifyWith.mp h₂
  have hparts : e₁.parts = e₂.parts := by
    have hparts₁ := hfits₁.parts
    rw [hsame, hfits₂.parts] at hparts₁
    exact (Option.some.inj hparts₁).symm
  obtain ⟨htime, -⟩ := Envelope.canonical_eq hfits₁ hfits₂ hparts hsigns₁ hsigns₂
    (hfree _ _ (yields_checkRequest.mpr ⟨e₁, hfits₁, rfl⟩)
      (yields_checkRequest.mpr ⟨e₂, hfits₂, rfl⟩))
  have hmoment : e₁.time.unixTimestamp = e₂.time.unixTimestamp :=
    CivilTime.unixTimestamp_eq_of_amzText hfits₁.valid hfits₂.valid htime
  refine ⟨e₁.time, hfits₁.valid, hfits₁.date, htime ▸ hfits₂.date, ?_⟩
  intro now
  refine ⟨yields_verifyWith_iff_within hfits₁ hsigns₁, ?_⟩
  rw [yields_verifyWith_iff_within hfits₂ hsigns₂, CivilTime.Within, CivilTime.Within, hmoment]

end Window

/-- The last second of a request with tags, however many of them came after the
first. -/
theorem verifyGatewaySignature_window_taggedGet :
    (verifyGatewaySignature libOfTagged (some 1788869700) (taggedGet [])).Yields () ∧
      ¬ (verifyGatewaySignature libOfTagged (some 1788869701)
        (taggedGet ["blue".toList])).Yields () := by
  have hsame : headerValue (taggedGet []) authorizationName =
      headerValue (taggedGet ["blue".toList]) authorizationName :=
    (headerValue_taggedGet _ _).symm
  obtain ⟨t, ht, hdate, -, hnear⟩ := verifyGatewaySignature_window rfl rfl hsame
    (fun _ _ => collisionFree_taggedGet _ _) (taggedGet_yields []) (taggedGet_yields _)
  have hnoon : CivilTime.Valid ⟨2026, 9, 8, 12, 0, 0⟩ :=
    ⟨by decide, by decide, by decide, by decide⟩
  have htext : headerValue (taggedGet []) amzDateName =
      some (CivilTime.amzText ⟨2026, 9, 8, 12, 0, 0⟩) := by
    decide +kernel
  have htime : t.unixTimestamp = 1788868800 := by
    rw [hdate, Option.some_inj] at htext
    rw [CivilTime.unixTimestamp_eq_of_amzText ht hnoon htext]
    decide
  rw [(hnear _).1, (hnear _).2, CivilTime.Within, CivilTime.Within, htime]
  exact ⟨⟨_, rfl, by decide⟩, by simp⟩

/-! ### The headers -/

section Headers

variable {s₁ s₂ : HttpHostState}

def readNames (state : HttpHostState) : List Text :=
  [authorizationName, amzDateName, contentHashName] ++ signedNames state

/-- Two requests that differ at most in what is not signed. -/
structure SameSigned (s₁ s₂ : HttpHostState) : Prop where
  auth : s₁.paddockAuth = s₂.paddockAuth
  method : s₁.requestMethod = s₂.requestMethod
  path : s₁.requestPath = s₂.requestPath
  hash : s₁.requestPayloadHash = s₂.requestPayloadHash
  values : ∀ name ∈ readNames s₁, headerValue s₁ name = headerValue s₂ name

theorem canonicalHeaders_congr_of_mem {names : List Text}
    (h : ∀ name ∈ names, headerValue s₁ name = headerValue s₂ name) :
    canonicalHeaders s₁ names = canonicalHeaders s₂ names := by
  induction names with
  | nil => rfl
  | cons name names ih =>
    have hname := h name List.mem_cons_self
    have hnames := ih fun name hmem => h name (List.mem_cons_of_mem _ hmem)
    rw [canonicalHeaders, canonicalHeaders, hnames, canonicalHeader, canonicalHeader, hname]

theorem signedNames_eq {state : HttpHostState}
    {authorization rest credential signedHeaders signature : Text}
    (hauthorization : headerValue state authorizationName = some authorization)
    (hrest : stripPrefix (algorithm ++ [' ']) authorization = some rest)
    (hcredential : authorizationPart rest credentialKey = some credential)
    (hsignedHeaders : authorizationPart rest signedHeadersKey = some signedHeaders)
    (hsignature : authorizationPart rest signatureKey = some signature) :
    signedNames state = signedHeaders.splitOn ';' := by
  have hparts : authorizationParts authorization = some ⟨credential, signedHeaders, signature⟩ :=
    authorizationParts_eq_some.mpr ⟨rest, hrest, hcredential, hsignedHeaders, hsignature⟩
  rw [signedNames, hauthorization, Option.bind_some, hparts]

theorem SameSigned.checkRequest_eq (h : SameSigned s₁ s₂) (toUppercase : Text → Text)
    (now : Option ℕ) (auth : PaddockGatewayAuth) :
    checkRequest toUppercase now auth s₁ = checkRequest toUppercase now auth s₂ := by
  have hauthorization := h.values authorizationName (by simp [readNames])
  have hdate := h.values amzDateName (by simp [readNames])
  have hhash : payloadHash s₁ = payloadHash s₂ := by
    rw [payloadHash, payloadHash, h.values contentHashName (by simp [readNames]), h.hash]
  simp only [checkRequest, ← hauthorization, ← hdate, ← hhash, ← h.method, ← h.path, ← h.hash]
  refine bind_congr_of_yields fun authorization hfirst => ?_
  iterate 4 refine bind_congr_of_yields fun _ _ => ?_
  refine bind_congr_of_yields fun rest hrest => ?_
  refine bind_congr_of_yields fun credential hcredential => ?_
  iterate 3 refine bind_congr_of_yields fun _ _ => ?_
  refine bind_congr_of_yields fun signedHeaders hsignedHeaders => ?_
  refine bind_congr_of_yields fun signature hsignature => ?_
  rw [yields_require] at hfirst hrest hcredential hsignedHeaders hsignature
  have hnames := signedNames_eq hfirst hrest hcredential hsignedHeaders hsignature
  have hheaders : canonicalHeaders s₁ (signedHeaders.splitOn ';') =
      canonicalHeaders s₂ (signedHeaders.splitOn ';') := by
    apply canonicalHeaders_congr_of_mem
    intro name hname
    rw [← hnames] at hname
    exact h.values name (List.mem_append_right _ hname)
  rw [hheaders]

/-- What is not signed does not change the verdict, its error or its panics. -/
theorem verifyGatewaySignature_sameSigned (h : SameSigned s₁ s₂) (lib : Primitives)
    (now : Option ℕ) :
    verifyGatewaySignature lib now s₁ = verifyGatewaySignature lib now s₂ := by
  rw [verifyGatewaySignature, verifyGatewaySignature, ← h.auth]
  cases s₁.paddockAuth with
  | none => rfl
  | some auth =>
    dsimp only
    rw [verifyWith, verifyWith, h.checkRequest_eq]

/-- A request with a red tag, as a proxy passes it on: with a header of its own
before and a second host after the others. -/
def forwardedGet : HttpHostState :=
  { taggedGet [] with
    requestHeaders := ("X-Forwarded-For".toList, "10.0.0.1".toList) ::
      ((taggedGet []).requestHeaders ++ [("Host".toList, "other".toList)]) }

/-- The proxy does not disturb the signature. -/
theorem verifyGatewaySignature_sameSigned_forwardedGet :
    (verifyGatewaySignature libOfTagged (some 1788869100) forwardedGet).Yields () := by
  have hvalues : ∀ name ∈ readNames forwardedGet,
      headerValue forwardedGet name = headerValue (taggedGet []) name := by
    decide +kernel
  have hsame : SameSigned forwardedGet (taggedGet []) := ⟨rfl, rfl, rfl, rfl, hvalues⟩
  rw [verifyGatewaySignature_sameSigned hsame]
  exact taggedGet_yields []

end Headers

end PitBox.Gateway
