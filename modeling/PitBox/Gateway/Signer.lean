import Mathlib.Data.List.Lex
import PitBox.Gateway.Acceptance
import PitBox.Gateway.NormalForm

/-!
# The signer of a request

A signer in its own terms, by the rules that hold for S3: the segments of the
path and the parts of the query are encoded once, the query is sorted by the
encoded key and then the value, and the white space of the header values is
trimmed and collapsed. A request that carries what its signer wrote is accepted.
-/

namespace PitBox.Gateway

open PitBox.Runtime Chars Checked

/-- What is signed: the headers are names with their values as they are sent. -/
structure SigningInput where
  method : Text
  target : Target
  headers : List (Text × Text)
  time : CivilTime
  payloadHash : Text
  deriving DecidableEq, Repr

namespace Signer

def isKept (c : Char) : Bool := c.isAlphanum || c ∈ ['-', '.', '_', '~']

def uriByte (b : UInt8) : Text :=
  let c := Char.ofNat b.toNat
  if isKept c then [c] else '%' :: (Hex.byte b).map Char.toUpper

def uriEncode (bytes : Bytes) : Text := bytes.flatMap uriByte

def pairLe (p q : Text × Text) : Bool := p.1 < q.1 || (p.1 == q.1 && p.2 ≤ q.2)

def queryPairs (target : Target) : List (Text × Text) :=
  target.query.map fun pair => (uriEncode pair.1, uriEncode pair.2)

variable (input : SigningInput)

def canonicalUri : Text :=
  if input.target.segments = [[]] then ['/']
  else ['/'].intercalate (input.target.segments.map uriEncode)

def canonicalQuery : Text :=
  ['&'].intercalate (((queryPairs input.target).mergeSort pairLe).map fun pair =>
    ['='].intercalate [pair.1, pair.2])

def canonicalHeaders : Text :=
  input.headers.flatMap fun header => header.1 ++ ':' :: (collapse header.2 ++ ['\n'])

def signedHeaders : Text := [';'].intercalate (input.headers.map Prod.fst)

def canonicalRequest (toUppercase : Text → Text) : Text :=
  ['\n'].intercalate [toUppercase input.method, canonicalUri input, canonicalQuery input,
    canonicalHeaders input, signedHeaders input, input.payloadHash]

variable (auth : PaddockGatewayAuth)

def scope : List Text := [input.time.date, auth.region, serviceName, requestMarker]

def stringToSign (sha256 : Bytes → Sha256) (toUppercase : Text → Text) : Text :=
  ['\n'].intercalate ["AWS4-HMAC-SHA256".toList, input.time.amzText,
    ['/'].intercalate (scope input auth),
    hexDigest (sha256 (utf8 (canonicalRequest input toUppercase)))]

def signingKey (mac : Bytes → Bytes → Sha256) : Bytes :=
  (scope input auth).foldl (fun key part => (mac key (utf8 part)).toList)
    (utf8 ("AWS4".toList ++ auth.secretKey))

def signature (sha256 : Bytes → Sha256) (mac : Bytes → Bytes → Sha256)
    (toUppercase : Text → Text) : Text :=
  hexDigest (mac (signingKey input auth mac) (utf8 (stringToSign input auth sha256 toUppercase)))

/-- The header that is sent. The white space behind the commas is left to the signer. -/
def authorization (gap : Text) (sha256 : Bytes → Sha256) (mac : Bytes → Bytes → Sha256)
    (toUppercase : Text → Text) : Text :=
  "AWS4-HMAC-SHA256 ".toList ++ [','].intercalate
    ["Credential=".toList ++ ['/'].intercalate (auth.accessKey :: scope input auth),
      gap ++ ("SignedHeaders=".toList ++ signedHeaders input),
      gap ++ ("Signature=".toList ++ signature input auth sha256 mac toUppercase)]

end Signer

/-! ### The same canonical request -/

section Canonical

variable {input : SigningInput} {target : Target}

theorem uriByte_eq : ∀ n < 256, Signer.uriByte (UInt8.ofNat n) =
    Percent.encodeByte isUnreserved (UInt8.ofNat n) := by
  decide +kernel

theorem uriEncode_eq : Signer.uriEncode = awsPercentEncode := by
  funext bytes
  apply List.flatMap_congr
  intro b _
  have hbyte := uriByte_eq b.toNat b.toNat_lt
  rwa [UInt8.ofNat_toNat] at hbyte

theorem queryPairs_eq : Signer.queryPairs target = target.encodedPairs := by
  rw [Signer.queryPairs, uriEncode_eq]
  rfl

theorem pairLe_iff (p q : Text × Text) : Signer.pairLe p q ↔ toLex p ≤ toLex q := by
  rw [Prod.Lex.toLex_le_toLex]
  simp [Signer.pairLe]

/-- Sorting by key and value has one result. -/
theorem mergeSort_pairLe (pairs : List (Text × Text)) :
    pairs.mergeSort Signer.pairLe = sortPairs pairs := by
  have hsorted : (pairs.mergeSort Signer.pairLe).Pairwise fun p q => toLex p ≤ toLex q := by
    have htrans (p q r : Text × Text) (hpq : Signer.pairLe p q) (hqr : Signer.pairLe q r) :
        Signer.pairLe p r :=
      (pairLe_iff p r).mpr (((pairLe_iff p q).mp hpq).trans ((pairLe_iff q r).mp hqr))
    have htotal (p q : Text × Text) : Signer.pairLe p q || Signer.pairLe q p := by
      rw [Bool.or_eq_true, pairLe_iff, pairLe_iff]
      exact le_total _ _
    exact (List.pairwise_mergeSort htrans htotal pairs).imp fun h => (pairLe_iff _ _).mp h
  have hsortPairs : (sortPairs pairs).Pairwise fun p q => toLex p ≤ toLex q := by
    rw [sortPairs, List.pairwise_map]
    exact List.pairwise_insertionSort (· ≤ ·) (pairs.map toLex)
  have hperm := (List.mergeSort_perm pairs Signer.pairLe).trans (perm_sortPairs pairs).symm
  exact hperm.eq_of_pairwise (fun _ _ _ _ h h' => toLex.injective (le_antisymm h h')) hsorted
    hsortPairs

theorem canonicalUri_signer (h : input.target.segments ≠ []) :
    Signer.canonicalUri input = input.target.canonicalUri := by
  rw [Target.canonicalUri_eq h, Target.pathSegments, Signer.canonicalUri, uriEncode_eq]
  split_ifs
  · rfl
  · rfl

theorem canonicalQuery_signer : Signer.canonicalQuery input = input.target.canonicalQuery := by
  have hjoin (pair : Text × Text) : ['='].intercalate [pair.1, pair.2] = joinPair pair := by
    simp [joinPair]
  simp only [Signer.canonicalQuery, mergeSort_pairLe, queryPairs_eq, hjoin]
  rfl

theorem headerLine_trim (name value : Text) :
    headerLine name (trim value) = name ++ ':' :: (collapse value ++ ['\n']) := by
  rw [headerLine, intercalate_splitWhitespace, collapse_trim]

theorem canonicalHeaders_signer : Signer.canonicalHeaders input =
    (List.zipWith headerLine (input.headers.map Prod.fst)
      (input.headers.map fun header => trim header.2)).flatten := by
  simp only [Signer.canonicalHeaders, List.zipWith_map, List.zipWith_self, headerLine_trim]
  rfl

/-- The envelope that the signer of a request fills in. -/
def SigningInput.envelope (input : SigningInput) (parts : AuthorizationParts) : Envelope where
  time := input.time
  target := input.target
  parts
  values := input.headers.map fun header => trim header.2

end Canonical

/-! ### The parts of the header -/

section Parts

variable {gap key value : Text}

theorem splitOnce_trim (hgap : ∀ c ∈ gap, isWhitespace c)
    (hkey : ∀ c ∈ key, isWhitespace c = false ∧ c ≠ '=')
    (hvalue : ∀ c ∈ value.getLast?, isWhitespace c = false) :
    splitOnce '=' (trim (gap ++ (key ++ '=' :: value))) = some (key, value) := by
  have htrim : trim (gap ++ (key ++ '=' :: value)) = key ++ '=' :: value := by
    rw [trim_append hgap]
    apply trim_eq_self
    · intro c hc
      cases key with
      | nil => cases hc; rfl
      | cons d key => cases hc; exact (hkey _ (by simp)).1
    · intro c hc
      rw [List.getLast?_append, List.getLast?_cons] at hc
      cases hlast : value.getLast? with
      | none => simp [hlast] at hc; subst hc; rfl
      | some d => simp [hlast] at hc; subst hc; exact hvalue d hlast
  rw [htrim, splitOnce_of_notMem fun h => (hkey _ h).2 rfl]

def isPlain (c : Char) : Bool := isHeaderNameChar c || Hex.isDigit c

theorem lt_of_isPlain {c : Char} (h : isPlain c) : c.toNat < 128 := by
  simp only [isPlain, isHeaderNameChar, Hex.isDigit, Bool.or_eq_true, Bool.and_eq_true,
    decide_eq_true_eq, beq_iff_eq, Char.le_def, UInt32.le_iff_toNat_le] at h
  rcases h with ((h | h) | rfl) | h | h
  · exact lt_of_isAlphanum (isAlphanum_of_isLower h)
  · exact lt_of_isDigit h
  · decide
  · exact lt_of_le_of_lt h.2 (by decide)
  · exact lt_of_le_of_lt h.2 (by decide)

theorem isHexdigit_of_isDigit {c : Char} (h : Hex.isDigit c) : isHexdigit c := by
  simp only [Hex.isDigit, isHexdigit, Char.isDigit, Bool.or_eq_true, Bool.and_eq_true,
    decide_eq_true_eq] at h ⊢
  exact .inl h

theorem isPlain_spec : ∀ n < 128, isPlain (Char.ofNat n) →
    isWhitespace (Char.ofNat n) = false ∧ Char.ofNat n ≠ ',' ∧ Char.ofNat n ≠ ';' := by
  decide

theorem of_isPlain {c : Char} (h : isPlain c) : isWhitespace c = false ∧ c ≠ ',' ∧ c ≠ ';' := by
  have hspec := isPlain_spec c.toNat (lt_of_isPlain h)
  rw [Char.ofNat_toNat] at hspec
  exact hspec h

variable {credential signedHeaders signature : Text}

/-- The parts of a header are read back, whatever white space is between them. -/
theorem authorizationParts_written (hgap : ∀ c ∈ gap, isWhitespace c)
    (hcredential : ',' ∉ credential ∧ ∀ c ∈ credential.getLast?, isWhitespace c = false)
    (hsignedHeaders : ',' ∉ signedHeaders ∧ ∀ c ∈ signedHeaders.getLast?, isWhitespace c = false)
    (hsignature : ',' ∉ signature ∧ ∀ c ∈ signature.getLast?, isWhitespace c = false) :
    authorizationParts ("AWS4-HMAC-SHA256 ".toList ++ [','].intercalate
      ["Credential=".toList ++ credential, gap ++ ("SignedHeaders=".toList ++ signedHeaders),
        gap ++ ("Signature=".toList ++ signature)]) =
      some ⟨credential, signedHeaders, signature⟩ := by
  have hcomma : ',' ∉ gap := fun h => absurd (hgap _ h) (by decide)
  set parts := ["Credential=".toList ++ credential, gap ++ ("SignedHeaders=".toList ++
    signedHeaders), gap ++ ("Signature=".toList ++ signature)] with hparts
  have hsplit : ([','].intercalate parts).splitOn ',' = parts := by
    apply List.splitOn_intercalate
    · simp only [hparts, List.mem_cons, List.not_mem_nil, or_false, forall_eq_or_imp, forall_eq,
        List.mem_append, not_or]
      exact ⟨⟨by decide, hcredential.1⟩, ⟨hcomma, by decide, hsignedHeaders.1⟩, hcomma,
        by decide, hsignature.1⟩
    · simp [hparts]
  have hkey : ∀ key ∈ [credentialKey, signedHeadersKey, signatureKey], ∀ c ∈ key,
      isWhitespace c = false ∧ c ≠ '=' := by
    have hall : [credentialKey, signedHeadersKey, signatureKey].all fun key => key.all fun c =>
        isWhitespace c = false ∧ c ≠ '=' := by
      decide
    simpa only [List.all_eq_true, decide_eq_true_eq] using hall
  have hnil : ∀ c ∈ ([] : Text), isWhitespace c := by simp
  have hnamed : parts.filterMap (fun part => splitOnce '=' (trim part)) =
      [(credentialKey, credential), (signedHeadersKey, signedHeaders),
        (signatureKey, signature)] := by
    have h₁ : splitOnce '=' (trim ("Credential=".toList ++ credential)) =
        some (credentialKey, credential) :=
      splitOnce_trim hnil (hkey credentialKey (by simp)) hcredential.2
    have h₂ : splitOnce '=' (trim (gap ++ ("SignedHeaders=".toList ++ signedHeaders))) =
        some (signedHeadersKey, signedHeaders) :=
      splitOnce_trim hgap (hkey signedHeadersKey (by simp)) hsignedHeaders.2
    have h₃ : splitOnce '=' (trim (gap ++ ("Signature=".toList ++ signature))) =
        some (signatureKey, signature) :=
      splitOnce_trim hgap (hkey signatureKey (by simp)) hsignature.2
    simp only [hparts, List.filterMap_cons, h₁, h₂, h₃, List.filterMap_nil]
  apply authorizationParts_eq_some.mpr
  refine ⟨_, stripPrefix_append _ _, ?_, ?_, ?_⟩
  · rw [authorizationPart, hsplit, hnamed]
    rfl
  · rw [authorizationPart, hsplit, hnamed]
    rfl
  · rw [authorizationPart, hsplit, hnamed]
    rfl

end Parts

/-! ### A request that carries its signature -/

/-- What can be signed: a valid time, and names in their order, with the two that
have to be there. -/
structure SigningInput.WellFormed (input : SigningInput) : Prop where
  valid : input.time.Valid
  names : ∀ header ∈ input.headers, header.1 ≠ [] ∧ header.1.all isHeaderNameChar
  sorted : (input.headers.map Prod.fst).Pairwise (· < ·)
  required : hostName ∈ input.headers.map Prod.fst ∧ amzDateName ∈ input.headers.map Prod.fst

/-- The request arrives as it was signed. Every signed header is there once, and
what the payload is declared as is what was signed for it. -/
structure SigningInput.ArrivesAs (input : SigningInput) (state : HttpHostState) : Prop where
  method : state.requestMethod = input.method
  target : input.target.SpelledBy state.requestPath
  headers : ∀ header ∈ input.headers, ∃ name, (state.requestHeaders.filter fun received =>
    eqIgnoreAsciiCase received.1 header.1) = [(name, header.2)]
  date : headerValues state amzDateName = [input.time.amzText]
  payload : input.payloadHash = (headerValues state contentHashName).head?.getD
    state.requestPayloadHash
  declared : input.payloadHash ∈ [state.requestPayloadHash, "UNSIGNED-PAYLOAD".toList,
    "STREAMING-AWS4-HMAC-SHA256-PAYLOAD".toList]

section Accepted

variable {input : SigningInput} {auth : PaddockGatewayAuth} {state : HttpHostState} {gap : Text}
  {sha256 : Bytes → Sha256} {mac : Bytes → Bytes → Sha256} {toUppercase : Text → Text}

theorem SigningInput.ArrivesAs.headerValue (h : input.ArrivesAs state) {header : Text × Text}
    (hheader : header ∈ input.headers) :
    headerValue state header.1 = some (trim header.2) := by
  obtain ⟨name, hname⟩ := h.headers header hheader
  rw [headerValue_eq_head?, headerValues, hname]
  rfl

theorem sortedNames_of_pairwise {names : List Text} (h : names.Pairwise (· < ·)) :
    sortedNames names := by
  induction h with
  | nil => rfl
  | @cons name names hname _ ih =>
    cases names with
    | nil => rfl
    | cons next rest =>
      rw [sortedNames, List.all_eq_true] at ih ⊢
      intro window hwindow
      rw [List.tail_cons, List.zip_cons_cons, List.mem_cons] at hwindow
      rcases hwindow with rfl | hwindow
      · exact decide_eq_true (hname next (by simp))
      · exact ih window hwindow

theorem splitOn_signedHeaders (h : input.WellFormed) :
    (Signer.signedHeaders input).splitOn ';' = input.headers.map Prod.fst := by
  apply List.splitOn_intercalate
  · intro name hname hmem
    obtain ⟨header, hheader, rfl⟩ := List.mem_map.mp hname
    have hchar := List.all_eq_true.mp (h.names header hheader).2 _ hmem
    exact absurd hchar (by decide)
  · exact List.ne_nil_of_mem h.required.1

/-- Nothing that the header is cut at is in the names, or at their end. -/
theorem signedHeaders_plain (h : input.WellFormed) : ',' ∉ Signer.signedHeaders input ∧
    ∀ c ∈ (Signer.signedHeaders input).getLast?, isWhitespace c = false := by
  have hplain {c : Char} (hc : isHeaderNameChar c = false) (hsep : c ≠ ';') :
      c ∉ Signer.signedHeaders input := by
    apply notMem_intercalate hsep
    intro name hname hmem
    obtain ⟨header, hheader, rfl⟩ := List.mem_map.mp hname
    rw [List.all_eq_true.mp (h.names header hheader).2 _ hmem] at hc
    cases hc
  refine ⟨hplain (by decide) (by decide), ?_⟩
  intro c hc
  cases hspace : isWhitespace c with
  | false => rfl
  | true =>
    refine absurd (List.mem_of_getLast? hc) (hplain ?_ ?_)
    · cases hname : isHeaderNameChar c with
      | false => rfl
      | true =>
        have hchar := (of_isPlain (by rw [isPlain, hname, Bool.true_or])).1
        rw [hspace] at hchar
        cases hchar
    · rintro rfl
      cases hspace

theorem signature_plain : ',' ∉ Signer.signature input auth sha256 mac toUppercase ∧
    ∀ c ∈ (Signer.signature input auth sha256 mac toUppercase).getLast?,
      isWhitespace c = false := by
  have hplain {c : Char} (hc : c ∈ Signer.signature input auth sha256 mac toUppercase) :
      isWhitespace c = false ∧ c ≠ ',' ∧ c ≠ ';' :=
    of_isPlain (by rw [isPlain, Hex.isDigit_of_mem_encode hc, Bool.or_true])
  exact ⟨fun h => (hplain h).2.1 rfl, fun c hc => (hplain (List.mem_of_getLast? hc)).1⟩

theorem notMem_scope {sep : Char} (hsep : sep = '/' ∨ sep = ',') (hkey : sep ∉ auth.accessKey)
    (hregion : sep ∉ auth.region) :
    ∀ part ∈ auth.accessKey :: Signer.scope input auth, sep ∉ part := by
  have hdate : sep ∉ input.time.date := by
    intro h
    rcases CivilTime.mem_amzText (List.mem_of_mem_take h) with hdigit | rfl | rfl
    · rcases hsep with rfl | rfl <;> cases hdigit
    · rcases hsep with h | h <;> cases h
    · rcases hsep with h | h <;> cases h
  have hservice : sep ∉ serviceName ∧ sep ∉ requestMarker := by
    rcases hsep with rfl | rfl <;> decide
  simp only [Signer.scope, List.mem_cons, List.not_mem_nil, or_false, forall_eq_or_imp, forall_eq]
  exact ⟨hkey, hdate, hregion, hservice.1, hservice.2⟩

theorem credential_plain (hkey : ',' ∉ auth.accessKey) (hregion : ',' ∉ auth.region) :
    ',' ∉ ['/'].intercalate (auth.accessKey :: Signer.scope input auth) ∧
      ∀ c ∈ (['/'].intercalate (auth.accessKey :: Signer.scope input auth)).getLast?,
        isWhitespace c = false := by
  refine ⟨notMem_intercalate (by decide) (notMem_scope (.inr rfl) hkey hregion), ?_⟩
  intro c hc
  have hend : ['/'].intercalate (auth.accessKey :: Signer.scope input auth) =
      (auth.accessKey ++ '/' :: (input.time.date ++ '/' :: (auth.region ++ '/' ::
        (serviceName ++ ['/'])))) ++ requestMarker := by
    simp [Signer.scope]
  have hlast : requestMarker.getLast? = some 't' := rfl
  rw [hend, List.getLast?_append, hlast] at hc
  cases hc
  rfl

theorem authorizationParts_signer (hgap : ∀ c ∈ gap, isWhitespace c) (h : input.WellFormed)
    (hkey : ',' ∉ auth.accessKey) (hregion : ',' ∉ auth.region) :
    authorizationParts (Signer.authorization input auth gap sha256 mac toUppercase) =
      some ⟨['/'].intercalate (auth.accessKey :: Signer.scope input auth),
        Signer.signedHeaders input, Signer.signature input auth sha256 mac toUppercase⟩ :=
  authorizationParts_written hgap (credential_plain hkey hregion) (signedHeaders_plain h)
    signature_plain

/-- What the signer wrote for a request. -/
def Signer.written (input : SigningInput) (auth : PaddockGatewayAuth) (sha256 : Bytes → Sha256)
    (mac : Bytes → Bytes → Sha256) (toUppercase : Text → Text) : AuthorizationParts where
  credential := ['/'].intercalate (auth.accessKey :: scope input auth)
  signedHeaders := signedHeaders input
  signature := signature input auth sha256 mac toUppercase

theorem names_envelope (h : input.WellFormed) :
    (input.envelope (Signer.written input auth sha256 mac toUppercase)).names =
      input.headers.map Prod.fst :=
  splitOn_signedHeaders h

theorem payloadHash_of_arrives (h : input.ArrivesAs state) :
    payloadHash state = input.payloadHash := by
  rw [payloadHash, headerValue_eq_head?, h.payload]

/-- The request has the envelope of its signer. -/
theorem fits_signer {now : ℕ} (hinput : input.WellFormed) (harrives : input.ArrivesAs state)
    (hrecent : ((now : ℤ) - input.time.unixTimestamp).natAbs ≤ 900)
    (hkey : '/' ∉ auth.accessKey) (hregion : '/' ∉ auth.region)
    (hparts : (headerValue state authorizationName).bind authorizationParts =
      some (Signer.written input auth sha256 mac toUppercase)) :
    (input.envelope (Signer.written input auth sha256 mac toUppercase)).Fits (some now) auth
      state where
  valid := hinput.valid
  date := by rw [headerValue_eq_head?, harrives.date]; rfl
  recent := ⟨now, rfl, hrecent⟩
  parts := hparts
  credential := List.splitOn_intercalate '/' (notMem_scope (.inl rfl) hkey hregion) (by simp)
  signature := by
    refine ⟨by simp [SigningInput.envelope, Signer.written, Signer.signature, hexDigest,
      Hex.length_encode], List.all_eq_true.mpr ?_⟩
    intro c hc
    exact isHexdigit_of_isDigit (Hex.isDigit_of_mem_encode hc)
  sorted := by
    rw [names_envelope hinput]
    exact sortedNames_of_pairwise hinput.sorted
  headers := by
    rw [names_envelope hinput, SigningInput.envelope, List.forall₂_map_left_iff,
      List.forall₂_map_right_iff, List.forall₂_same]
    exact fun header hheader => ⟨hinput.names header hheader, harrives.headerValue hheader⟩
  required := by
    rw [names_envelope hinput]
    exact hinput.required
  payload := by
    have hdeclared := harrives.declared
    simp only [List.mem_cons, List.not_mem_nil, or_false] at hdeclared
    rw [payloadHash_of_arrives harrives, acceptedPayloadHash_iff]
    rcases hdeclared with h | h | h
    · exact .inr (.inr h)
    · exact .inl h
    · exact .inr (.inl h)
  target := harrives.target

theorem canonical_envelope (hinput : input.WellFormed) (harrives : input.ArrivesAs state) :
    ((input.envelope (Signer.written input auth sha256 mac toUppercase)).signedRequest toUppercase
      state).canonical = Signer.canonicalRequest input toUppercase := by
  have hlines : (input.envelope (Signer.written input auth sha256 mac toUppercase)).headerLines =
      Signer.canonicalHeaders input := by
    rw [Envelope.headerLines, names_envelope hinput, canonicalHeaders_signer]
    rfl
  rw [Envelope.signedRequest, hlines, payloadHash_of_arrives harrives, harrives.method]
  change canonicalRequest _ input.target.canonicalUri input.target.canonicalQuery _ _ _ = _
  rw [← canonicalUri_signer harrives.target.segments_ne_nil, ← canonicalQuery_signer]
  simp only [Signer.canonicalRequest, canonicalRequest, List.intercalate_cons_cons,
    List.intercalate_singleton, List.append_assoc, List.cons_append, List.nil_append]
  rfl

theorem stringToSign_signer :
    stringToSign input.time.amzText (credentialScope input.time.date auth.region)
      (hexDigest (sha256 (utf8 (Signer.canonicalRequest input toUppercase)))) =
        Signer.stringToSign input auth sha256 toUppercase := by
  have hscope : ['/'].intercalate (Signer.scope input auth) =
      credentialScope input.time.date auth.region := by
    simp [Signer.scope, credentialScope]
  rw [Signer.stringToSign, hscope, stringToSign]
  change _ = ['\n'].intercalate [algorithm, _, _, _]
  generalize algorithm = name
  simp

theorem signs_signer (hinput : input.WellFormed) (harrives : input.ArrivesAs state) :
    (input.envelope (Signer.written input auth sha256 mac toUppercase)).Signs
      ⟨sha256, fun key message => some (mac key message), toUppercase⟩ auth state := by
  refine ⟨_, _, rfl, rfl, ?_⟩
  rw [SignedRequest.toSign, canonical_envelope hinput harrives]
  change _ = Signer.signature input auth sha256 mac toUppercase
  rw [Signer.signature, ← stringToSign_signer]
  rfl

/-- A request that arrives within the window with what its signer wrote is
accepted. -/
theorem verifyGatewaySignature_signed {now : ℕ} (hauth : state.paddockAuth = some auth)
    (hkey : '/' ∉ auth.accessKey ∧ ',' ∉ auth.accessKey)
    (hregion : '/' ∉ auth.region ∧ ',' ∉ auth.region) (hinput : input.WellFormed)
    (harrives : input.ArrivesAs state)
    (hrecent : ((now : ℤ) - input.time.unixTimestamp).natAbs ≤ 900)
    (hgap : ∀ c ∈ gap, isWhitespace c)
    (hauthorization : headerValues state authorizationName =
      [Signer.authorization input auth gap sha256 mac toUppercase]) :
    (verifyGatewaySignature ⟨sha256, fun key message => some (mac key message), toUppercase⟩
      (some now) state).Yields () := by
  have hparts : (headerValue state authorizationName).bind authorizationParts =
      some (Signer.written input auth sha256 mac toUppercase) := by
    rw [headerValue_eq_head?, hauthorization]
    exact authorizationParts_signer hgap hinput hkey.2 hregion.2
  rw [verifyGatewaySignature, hauth]
  exact yields_verifyWith.mpr ⟨_, fits_signer hinput harrives hrecent hkey.1 hregion.1 hparts,
    signs_signer hinput harrives⟩

end Accepted

/-! ### A signed request -/

def digestOf (hex : String) : Sha256 :=
  Vector.ofFn fun i => ((Hex.decode hex.toList).getD [])[i]?.getD 0

def signedGet : SigningInput where
  method := "get".toList
  target := ⟨[[], [0x61, 0x2f, 0x62]], [([0x79], []), ([0x78], [0x31])]⟩
  headers := [(hostName, "gateway \t one".toList), (amzDateName, " 20260908T120000Z".toList)]
  time := ⟨2026, 9, 8, 12, 0, 0⟩
  payloadHash := "e3b0c44298fc1c149afbf4c8996fb92427ae41e4649b934ca495991b7852b855".toList

def zoneKey : PaddockGatewayAuth := ⟨"key".toList, "secret".toList, "zone".toList⟩

/-- SHA-256 on the canonical request. -/
def sha256OfGet (_ : Bytes) : Sha256 :=
  digestOf "6f5b848e67e63046eb926e575065feb0b156e378d663d84a79b6895fc10b5b44"

/-- HMAC-SHA256 on the parts of the scope and on the text that is signed. -/
def macOfGet (_ message : Bytes) : Sha256 :=
  digestOf
    (if message = utf8 "20260908".toList then
      "0d8bf62670e36852e088e9a9fca8ad05082ac9fe04056b3699a37fb5a756a3b9"
    else if message = utf8 "zone".toList then
      "e5a982a261e17161c218de97fe5ea628f4a8012b0bcb9d4a8a766494195f4b7d"
    else if message = utf8 serviceName then
      "24534c534a612d1319e189cbd1085c5618ca9b9dc811c0412d79b41f1ac6f0f7"
    else if message = utf8 requestMarker then
      "07baae999db1f196b8873acf3e6c71a5dca63c6e539311bb63a2c7dd5f73228f"
    else "7bc4963857ade6cb5bec326d02822fd4cf7d9f95edd5b66225d1cc674d223825")

/-- The request with its headers in another order and other cases. -/
def receivedGet : HttpHostState where
  parentExecutionId := none
  invocationDepth := 0
  sourceGarageId := none
  visitedGarages := []
  applicationId := none
  releaseId := none
  paddockGrants := []
  paddockAuth := some zoneKey
  requestMethod := "get".toList
  requestPath := "/a%2fb?y&x=%31".toList
  requestHeaders :=
    [("X-Amz-Date".toList, " 20260908T120000Z".toList), ("Accept".toList, "*".toList),
      ("Authorization".toList, ("AWS4-HMAC-SHA256 Credential=key/20260908/zone/s3/aws4_request, " ++
        "SignedHeaders=host;x-amz-date, Signature=" ++
        "7bc4963857ade6cb5bec326d02822fd4cf7d9f95edd5b66225d1cc674d223825").toList),
      ("HOST".toList, "gateway \t one".toList)]
  requestPayloadHash := "e3b0c44298fc1c149afbf4c8996fb92427ae41e4649b934ca495991b7852b855".toList

theorem signedGet_spelledBy : signedGet.target.SpelledBy receivedGet.requestPath where
  segments := by
    have hparts : (splitTarget receivedGet.requestPath).1.splitOn '/' = [[], "a%2fb".toList] := by
      decide +kernel
    rw [hparts]
    exact .cons .nil (.cons (Percent.spells_of_decode (by decide +kernel)) .nil)
  query := by
    have hparts : ((splitTarget receivedGet.requestPath).2.splitOn '&').filter
        (fun part => !part.isEmpty) = ["y".toList, "x=%31".toList] := by
      decide +kernel
    rw [hparts]
    exact .cons ⟨Percent.spells_of_decode (by decide +kernel), .nil⟩
      (.cons ⟨Percent.spells_of_decode (by decide +kernel),
        Percent.spells_of_decode (by decide +kernel)⟩ .nil)

/-- It is accepted five minutes later. -/
theorem verifyGatewaySignature_signed_get : (verifyGatewaySignature
    ⟨sha256OfGet, fun key message => some (macOfGet key message), List.map Char.toUpper⟩
      (some 1788869100) receivedGet).Yields () := by
  have hinput : signedGet.WellFormed := {
    valid := ⟨by decide, by decide, by decide, by decide⟩
    names := by decide
    sorted := by decide
    required := by decide }
  have harrives : signedGet.ArrivesAs receivedGet := {
    method := rfl
    target := signedGet_spelledBy
    headers := by
      rintro header (_ | ⟨_, _ | ⟨_, ⟨⟩⟩⟩)
      · exact ⟨"HOST".toList, by decide +kernel⟩
      · exact ⟨"X-Amz-Date".toList, by decide +kernel⟩
    date := by decide +kernel
    payload := by decide +kernel
    declared := by decide +kernel }
  have hgap : ∀ c ∈ [' '], isWhitespace c := List.all_eq_true.mp rfl
  exact verifyGatewaySignature_signed rfl (by decide +kernel) (by decide +kernel) hinput harrives
    (by decide +kernel) hgap (by decide +kernel)

end PitBox.Gateway
