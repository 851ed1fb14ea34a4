import PitBox.Gateway.Verify

/-!
# Where the verification panics

The verification slices texts and copies between buffers. Its slices are always
between characters. The keyed hash panics on keys that are longer than a block,
and the key of the first of the four is made of the configured secret.
-/

namespace PitBox.Gateway

open PitBox.Runtime Chars Checked

section Checks

variable {state : HttpHostState} {toUppercase : Text → Text} {now : Option ℕ}
  {auth : PaddockGatewayAuth}

theorem not_panics_canonicalHeaders (names : List Text) :
    ¬ (canonicalHeaders state names).Panics := by
  induction names with
  | nil => exact not_panics_pure
  | cons name names ih =>
    apply not_panics_bind
    · apply not_panics_bind not_panics_ensure
      intro _ _
      exact not_panics_bind not_panics_require fun _ _ => not_panics_pure
    · intro _ _
      exact not_panics_bind ih fun _ _ => not_panics_pure

/-- The checks before the signature never panic. -/
theorem not_panics_checkRequest : ¬ (checkRequest toUppercase now auth state).Panics := by
  unfold checkRequest
  apply not_panics_bind not_panics_require
  intro _ _
  apply not_panics_bind not_panics_require
  intro amzDate _
  apply not_panics_bind not_panics_parseAmzTimestamp
  intro timestamp htimestamp
  obtain ⟨t, -, rfl, -⟩ := yields_parseAmzTimestamp.mp htimestamp
  obtain ⟨⟨date, hdate, -⟩, -⟩ := t.halves_amzText
  apply not_panics_bind not_panics_require
  intro _ _
  apply not_panics_bind not_panics_ensure
  intro _ _
  apply not_panics_bind not_panics_require
  intro _ _
  apply not_panics_bind not_panics_require
  intro _ _
  apply not_panics_bind not_panics_ensure
  intro _ _
  apply not_panics_bind (not_panics_slice hdate)
  intro _ _
  apply not_panics_bind not_panics_ensure
  intro _ _
  apply not_panics_bind not_panics_require
  intro _ _
  apply not_panics_bind not_panics_require
  intro _ _
  apply not_panics_bind not_panics_ensure
  intro _ _
  apply not_panics_bind not_panics_ensure
  intro _ _
  apply not_panics_bind (not_panics_canonicalHeaders _)
  intro _ _
  apply not_panics_bind not_panics_ensure
  intro _ _
  apply not_panics_bind not_panics_ensure
  intro _ _
  exact not_panics_bind not_panics_ofExcept fun _ _ => not_panics_pure

end Checks

section Keys

variable {sha256 : Bytes → Sha256} {secretKey region : Text} {date : Bytes}

theorem hmacSha256_digest (digest : Sha256) (message : Bytes) :
    hmacSha256 sha256 digest.toList message = some (rfc2104 sha256 digest.toList message) := by
  rw [hmacSha256_eq, if_pos (by simp)]

theorem length_utf8_signingKey :
    (utf8 ("AWS4".toList ++ secretKey)).length = 4 + (utf8 secretKey).length := by
  rw [utf8_append, List.length_append]
  rfl

theorem signingKey_eq_none : signingKey (hmacSha256 sha256) secretKey date region = none ↔
    60 < (utf8 secretKey).length := by
  have hfirst : hmacSha256 sha256 (utf8 ("AWS4".toList ++ secretKey)) date = _ := hmacSha256_eq date
  rw [length_utf8_signingKey] at hfirst
  simp only [signingKey, hfirst, hmacSha256_digest]
  split_ifs with h
  · simp; omega
  · simp; omega

end Keys

section Verification

variable {sha256 : Bytes → Sha256} {toUppercase : Text → Text} {now : Option ℕ}
  {auth : PaddockGatewayAuth} {state : HttpHostState}

/-- A request that comes as far as its signature makes the verification panic
exactly when the secret does not fit into a block behind its prefix. -/
theorem verifyWith_panics_iff :
    (verifyWith ⟨sha256, hmacSha256 sha256, toUppercase⟩ now auth state).Panics ↔
      60 < (utf8 auth.secretKey).length ∧
        ∃ signed, (checkRequest toUppercase now auth state).Yields signed := by
  unfold verifyWith
  rw [panics_bind]
  constructor
  · rintro (hchecks | ⟨signed, hsigned, hpanics⟩)
    · exact absurd hchecks not_panics_checkRequest
    · refine ⟨?_, signed, hsigned⟩
      rcases panics_bind.mp hpanics with hkey | ⟨key, -, hpanics⟩
      · exact signingKey_eq_none.mp (panics_orPanic.mp hkey)
      · rcases panics_bind.mp hpanics with hlast | ⟨expected, -, hpanics⟩
        · cases (hmacSha256_digest key _).symm.trans (panics_orPanic.mp hlast)
        · exact absurd hpanics not_panics_ensure
  · rintro ⟨hlong, signed, hsigned⟩
    refine .inr ⟨signed, hsigned, panics_bind.mpr (.inl ?_)⟩
    exact panics_orPanic.mpr (signingKey_eq_none.mpr hlong)

theorem checkRequest_secret (auth o : PaddockGatewayAuth)
    (haccess : auth.accessKey = o.accessKey) (hregion : auth.region = o.region) :
    checkRequest toUppercase now auth state =
      checkRequest toUppercase now o { state with paddockAuth := none } := by
  have hvalue (name : Text) :
      headerValue { state with paddockAuth := none } name = headerValue state name := rfl
  have hheaders (names : List Text) :
      canonicalHeaders { state with paddockAuth := none } names = canonicalHeaders state names := by
    induction names with
    | nil => rfl
    | cons name names ih => rw [canonicalHeaders, canonicalHeaders, ih]; rfl
  unfold checkRequest
  simp only [hvalue, hheaders, haccess, hregion]
  rfl

/-- A request for the gateway with a key. -/
def anyRequest (auth : PaddockGatewayAuth) : HttpHostState where
  parentExecutionId := none
  invocationDepth := 0
  sourceGarageId := none
  visitedGarages := []
  applicationId := none
  releaseId := none
  paddockGrants := []
  paddockAuth := some auth
  requestMethod := "GET".toList
  requestPath := ['/']
  requestHeaders :=
    [("Host".toList, "gateway".toList), ("X-Amz-Date".toList, "20260908T120000Z".toList),
      ("Authorization".toList, ("AWS4-HMAC-SHA256 Credential=key/20260908/zone/s3/aws4_request, " ++
        "SignedHeaders=host;x-amz-date, Signature=").toList ++ List.replicate 64 '0')]
  requestPayloadHash := []

theorem checkRequest_anyRequest (secretKey : Text) :
    ∃ signed, (checkRequest id (some 1788868800) ⟨"key".toList, secretKey, "zone".toList⟩
      (anyRequest ⟨"key".toList, secretKey, "zone".toList⟩)).Yields signed := by
  rw [checkRequest_secret ⟨"key".toList, secretKey, "zone".toList⟩
    ⟨"key".toList, [], "zone".toList⟩ rfl rfl]
  change ∃ signed, (checkRequest id (some 1788868800) ⟨"key".toList, [], "zone".toList⟩
    { anyRequest ⟨[], [], []⟩ with paddockAuth := none }).Yields signed
  exact exists_yields (by decide +kernel)

/-- The keyed hash is that of its specification exactly on the keys that fit into
a block, and no request makes the verification panic exactly if the secret is
four bytes shorter. With a longer one exactly the requests do that come as far as
their signature. -/
theorem hmacSha256_eq_rfc2104_iff (sha256 : Bytes → Sha256) :
    (∀ key message, hmacSha256 sha256 key message = some (rfc2104 sha256 key message) ↔
      key.length ≤ 64) ∧
    (∀ secretKey, (∀ toUppercase now auth state, state.paddockAuth = some auth →
      auth.secretKey = secretKey → ¬ (verifyGatewaySignature
        ⟨sha256, hmacSha256 sha256, toUppercase⟩ now state).Panics) ↔
          (utf8 secretKey).length ≤ 60) ∧
    ∀ toUppercase now auth state, state.paddockAuth = some auth →
      ((verifyGatewaySignature ⟨sha256, hmacSha256 sha256, toUppercase⟩ now state).Panics ↔
        60 < (utf8 auth.secretKey).length ∧
          ∃ signed, (checkRequest toUppercase now auth state).Yields signed) := by
  refine ⟨fun key message => ?_, fun secretKey => ?_, fun toUppercase now auth state hauth => ?_⟩
  · rw [hmacSha256_eq]
    split_ifs with h <;> simp [h]
  · constructor
    · intro h
      by_contra hlong
      have hnot := h id (some 1788868800) ⟨"key".toList, secretKey, "zone".toList⟩ (anyRequest _)
        rfl rfl
      exact hnot (verifyWith_panics_iff.mpr
        ⟨Nat.not_le.mp hlong, checkRequest_anyRequest secretKey⟩)
    · rintro hshort toUppercase now auth state hauth rfl hpanics
      rw [verifyGatewaySignature, hauth] at hpanics
      exact absurd (verifyWith_panics_iff.mp hpanics).1 (Nat.not_lt.mpr hshort)
  · rw [verifyGatewaySignature, hauth]
    exact verifyWith_panics_iff

/-- A key of 65 bytes. -/
theorem hmacSha256_panics : ¬ ∀ (sha256 : Bytes → Sha256) (key message : Bytes),
    hmacSha256 sha256 key message = some (rfc2104 sha256 key message) := by
  intro h
  have hlong := h (fun _ => Vector.replicate 32 0) (List.replicate 65 0) []
  exact absurd hlong (by decide +kernel)

end Verification

end PitBox.Gateway
