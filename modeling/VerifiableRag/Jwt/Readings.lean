import VerifiableRag.Jwt.OnChain

/-!
The two readings of an attestation token: Python walks the parsed claims, the contract
searches the bytes of the payload.
-/
namespace Jwt
open Bytes Json Results Transaction VerifiableRag VerifiableRag.TokenClaims

section Walk

theorem at_cons (name : Text) (path : List Text) (d : Doc) :
    d.at (name :: path) = (d.at [name]).bind (Doc.at path) := by
  cases d with
  | obj members =>
    rw [Doc.at, Doc.at]
    cases members.find name <;> rfl
  | _ => rfl

theorem descend_value (d : Doc) (name : Text) :
    descend d.value name = ((d.at [name]).map Doc.value).getD .null := by
  cases same : d.value with
  | obj members => rw [descend, Doc.value_obj same]
  | _ =>
    cases d with
    | obj members => cases same
    | _ => rfl

theorem foldl_descend_null (path : List Text) : path.foldl descend .null = .null := by
  induction path with
  | nil => rfl
  | cons name path ih => exact ih

theorem foldl_descend (path : List Text) (d : Doc) :
    path.foldl descend d.value = ((d.at path).map Doc.value).getD .null := by
  induction path generalizing d with
  | nil => rfl
  | cons name path ih =>
    rw [List.foldl_cons, descend_value, at_cons name path]
    cases d.at [name] with
    | none => exact foldl_descend_null path
    | some inner => exact ih inner

theorem textAt_of_value {d : Doc} {path : List Text} {t : Text}
    (read : ((d.at path).map Doc.value).getD .null = .str t) : d.textAt path = some t := by
  rw [Doc.textAt]
  cases here : d.at path with
  | none =>
    rw [here] at read
    cases read
  | some inner =>
    rw [here] at read
    obtain ⟨s, rfl, rfl⟩ := Doc.value_str read
    rfl

end Walk

section Parsed

def imageDigestPath : List Text := [utf8 "submods", utf8 "container", utf8 "image_digest"]

/-- The 32 bytes after `sha256:`. -/
def imageWord (imageDigest : Text) : Word := hexDigest ((imageDigest.drop 7).take 64)

/-- The document's claims: the top-level `swname`, and the nested digest in its one form. -/
structure Claimed (doc : Doc) (digest : Word) : Prop where
  swname : doc.textAt [utf8 "swname"] = some expectedSwname
  image : ∃ s, doc.textAt imageDigestPath = some s ∧ imageDigestRe s = true ∧ digest = imageWord s

theorem optionalString_ok {name : String} {v : Value} {s : Text}
    (ok : optionalString name v = .ok (some s)) : v = .str s := by
  unfold optionalString at ok
  split at ok
  · cases ok
  · cases ok
    rfl
  · cases ok

theorem extract_ok {claims : Claims} {extracted : Extracted}
    (ok : extractAttestationClaims claims = .ok extracted) {swname image : Text}
    (named : extracted.swname = some swname) (given : extracted.imageDigest = some image) :
    claims.get "swname" = .str swname ∧
      getNestedClaim claims "submods.container.image_digest" = .str image := by
  simp only [extractAttestationClaims, except_bind_ok] at ok
  obtain ⟨_, _, swname', read, image', nested, _, _, same⟩ := ok
  cases same
  cases named
  cases given
  exact ⟨optionalString_ok read, optionalString_ok nested⟩

theorem loadSegment_ok {depth : Nat} {segment : Text} {v : Value}
    (ok : loadSegment depth segment = .ok v) :
    ∃ bytes, decodeBase64Url segment = .ok bytes ∧ loads depth bytes = .ok v := by
  simp only [loadSegment, except_bind_ok] at ok
  obtain ⟨bytes, decoded, ok⟩ := ok
  split at ok
  · rename_i value loaded
    cases ok
    exact ⟨bytes, decoded, loaded⟩
  all_goals cases ok

theorem decodeJwt_ok {depth : Nat} {token first second third : Text} {header claims : Claims}
    (parts : PyStr.split 0x2E (PyStr.strip token) = [first, second, third])
    (ok : decodeJwt depth token = .ok (header, claims)) :
    loadSegment depth second = .ok (.obj claims) := by
  simp only [decodeJwt, parts] at ok
  split at ok
  · cases ok
  · simp only [except_bind_ok] at ok
    obtain ⟨header', _, claims', loaded, ok⟩ := ok
    split at ok
    · split at ok
      · split at ok
        · cases ok
          exact loaded
        · cases ok
      · cases ok
    · cases ok

theorem claimed_of_parse {py : Interpreter} {token segment : Text} {doc : Doc}
    {audience : Option Text} {nonces : Option (List Text)} {att : AttestationToken}
    (carries : Carries token segment doc)
    (ok : parseToken py token audience nonces = .ok att) :
    Claimed doc (imageWord att.imageDigest) := by
  obtain ⟨_, header, claims, extracted, decoded, _, read, swname, image, form, _⟩ := parseToken_ok ok
  obtain ⟨first, third, parts⟩ := carries.parts
  obtain ⟨bytes, same, loaded⟩ := loadSegment_ok (decodeJwt_ok parts decoded)
  cases carries.payload.symm.trans same
  have value : doc.value = .obj claims := by
    rcases loads_source doc py.depth with yields | garbled
    · rw [loaded] at yields
      exact yields.unique.symm
    · rw [loaded] at garbled
      cases garbled
  obtain ⟨named, nested⟩ := extract_ok read swname image
  constructor
  · apply textAt_of_value
    rw [Claims.get, Doc.value_obj value] at named
    exact named
  · refine ⟨att.imageDigest, textAt_of_value ?_, form, rfl⟩
    have path : PyStr.split 0x2E (utf8 "submods.container.image_digest") = imageDigestPath := by decide
    rw [getNestedClaim, path, ← value, foldl_descend] at nested
    exact nested

end Parsed

section Agreement

/-- The readings of a token agree: what Python accepts the contract accepts, with the digest
    the document claims, and what the contract accepts the document claims. -/
def ReadingsAgree (py : Interpreter) (audience : Option Text) (nonces : Option (List Text))
    (token : Text) (doc : Doc) : Prop :=
  (∀ att, parseToken py token audience nonces = .ok att →
    Claimed doc (imageWord att.imageDigest) ∧
      tokenDigest token = .ok (imageWord att.imageDigest)) ∧
  ∀ digest, tokenDigest token = .ok digest → Claimed doc digest

/-- The literals of the text that the contract finds are the claims of the document. -/
structure Unshadowed (accepted : Prop) (segment : Text) (doc : Doc) : Prop where
  /-- An accepted payload is written in the URL-safe alphabet. -/
  url : accepted → ∀ c ∈ segment, ¬ StandardOnly c
  swname : accepted → ShowsSwname doc
  digest : accepted → ∀ digest, Claimed doc digest → ShowsDigest doc digest
  claimed : ∀ digest, Shows segment doc digest → Claimed doc digest

theorem Claimed.unique {doc : Doc} {digest digest' : Word} (one : Claimed doc digest)
    (other : Claimed doc digest') : digest = digest' := by
  obtain ⟨s, read, _, rfl⟩ := one.image
  obtain ⟨s', read', _, rfl⟩ := other.image
  cases read.symm.trans read'
  rfl

theorem readings_agree_iff {py : Interpreter} {audience : Option Text}
    {nonces : Option (List Text)} {token segment : Text} {doc : Doc}
    (carries : Carries token segment doc) :
    ReadingsAgree py audience nonces token doc ↔
      Unshadowed (∃ att, parseToken py token audience nonces = .ok att) segment doc := by
  constructor
  · rintro ⟨accepted, refused⟩
    have shows_of_accepted : ∀ att, parseToken py token audience nonces = .ok att →
        Claimed doc (imageWord att.imageDigest) ∧ Shows segment doc (imageWord att.imageDigest) := by
      intro att ok
      obtain ⟨claimed, read⟩ := accepted att ok
      exact ⟨claimed, (carries.tokenDigest_ok _).mp read⟩
    constructor
    · rintro ⟨att, ok⟩
      exact (shows_of_accepted att ok).2.url
    · rintro ⟨att, ok⟩
      exact (shows_of_accepted att ok).2.swname
    · rintro ⟨att, ok⟩ digest claimed
      obtain ⟨claimed', read⟩ := shows_of_accepted att ok
      rw [claimed.unique claimed']
      exact read.digest
    · intro digest read
      exact refused digest ((carries.tokenDigest_ok digest).mpr read)
  · intro unshadowed
    constructor
    · intro att ok
      have claimed := claimed_of_parse carries ok
      refine ⟨claimed, (carries.tokenDigest_ok _).mpr ?_⟩
      exact ⟨unshadowed.url ⟨att, ok⟩, unshadowed.swname ⟨att, ok⟩,
        unshadowed.digest ⟨att, ok⟩ _ claimed⟩
    · intro digest read
      exact unshadowed.claimed digest ((carries.tokenDigest_ok digest).mp read)

def literal (s : String) : Literal := (utf8 s).filterMap plain?

def containerDigest : Members :=
  .last (literal "container") (.obj (.last (literal "image_digest") (.str (literal
    "sha256:abababababababababababababababababababababababababababababababab"))))

/-- A digest of another submodule before the container's. -/
def shadowedDigest : Members :=
  .more (literal "base") (.obj (.last (literal "image_digest") (.str (literal
    "sha256:0000000000000000000000000000000000000000000000000000000000000000")))) containerDigest

def sampleDoc (submods : Members) : Doc :=
  .obj (.more (literal "iss") (.str (literal "https://confidentialcomputing.googleapis.com"))
    (.more (literal "exp") (.number ⟨⟨[], utf8 "4102444800", [], []⟩, by decide⟩)
    (.more (literal "swname") (.str (literal "CONFIDENTIAL_SPACE"))
    (.last (literal "submods") (.obj submods)))))

def plainSegment : Text := utf8 <|
  "eyJpc3MiOiJodHRwczovL2NvbmZpZGVudGlhbGNvbXB1dGluZy5nb29nbGVhcGlzLmNvbSIsImV4cCI6NDEwMjQ0NDgwMCwi" ++
  "c3duYW1lIjoiQ09ORklERU5USUFMX1NQQUNFIiwic3VibW9kcyI6eyJjb250YWluZXIiOnsiaW1hZ2VfZGlnZXN0Ijoic2hh" ++
  "MjU2OmFiYWJhYmFiYWJhYmFiYWJhYmFiYWJhYmFiYWJhYmFiYWJhYmFiYWJhYmFiYWJhYmFiYWJhYmFiYWJhYmFiYWIifX19"

def shadowedSegment : Text := utf8 <|
  "eyJpc3MiOiJodHRwczovL2NvbmZpZGVudGlhbGNvbXB1dGluZy5nb29nbGVhcGlzLmNvbSIsImV4cCI6NDEwMjQ0NDgwMCwi" ++
  "c3duYW1lIjoiQ09ORklERU5USUFMX1NQQUNFIiwic3VibW9kcyI6eyJiYXNlIjp7ImltYWdlX2RpZ2VzdCI6InNoYTI1Njow" ++
  "MDAwMDAwMDAwMDAwMDAwMDAwMDAwMDAwMDAwMDAwMDAwMDAwMDAwMDAwMDAwMDAwMDAwMDAwMDAwMDAwMDAwIn0sImNvbnRh" ++
  "aW5lciI6eyJpbWFnZV9kaWdlc3QiOiJzaGEyNTY6YWJhYmFiYWJhYmFiYWJhYmFiYWJhYmFiYWJhYmFiYWJhYmFiYWJhYmFi" ++
  "YWJhYmFiYWJhYmFiYWJhYmFiYWJhYiJ9fX0"

/-- The token with the header `{"alg":"RS256"}`; nobody here reads the signature. -/
def tokenOf (segment : Text) : Text := utf8 "eyJhbGciOiJSUzI1NiJ9." ++ segment ++ utf8 ".c2ln"

def samplePython : Interpreter where
  now := Float64.ofRat 1786060800
  depth := 900
  repr := fun _ => []

theorem plain_carried : Carries (tokenOf plainSegment) plainSegment (sampleDoc containerDigest) where
  parts := ⟨utf8 "eyJhbGciOiJSUzI1NiJ9", utf8 "c2ln", by decide +kernel⟩
  payload := toOption_some.mp (by decide +kernel)

theorem shadowed_carried :
    Carries (tokenOf shadowedSegment) shadowedSegment (sampleDoc shadowedDigest) where
  parts := ⟨utf8 "eyJhbGciOiJSUzI1NiJ9", utf8 "c2ln", by decide +kernel⟩
  payload := toOption_some.mp (by decide +kernel)

theorem samples_accepted (segment : Text) (sample : segment ∈ [plainSegment, shadowedSegment]) :
    ∃ att, parseToken samplePython (tokenOf segment) none none = .ok att := by
  have accepted : ∀ segment ∈ [plainSegment, shadowedSegment],
      (parseToken samplePython (tokenOf segment) none none).toOption.isSome := by
    decide +kernel
  obtain ⟨att, ok⟩ := Option.isSome_iff_exists.mp (accepted segment sample)
  exact ⟨att, toOption_some.mp ok⟩

theorem readings_agree_fails : Carries (tokenOf shadowedSegment) shadowedSegment (sampleDoc shadowedDigest) ∧
    ¬ ReadingsAgree samplePython none none (tokenOf shadowedSegment) (sampleDoc shadowedDigest) := by
  refine ⟨shadowed_carried, ?_⟩
  rintro ⟨accepted, _⟩
  obtain ⟨att, ok⟩ := samples_accepted shadowedSegment (by simp)
  obtain ⟨⟨_, s, nested, _, same⟩, read⟩ := accepted att ok
  have first : tokenDigest (tokenOf shadowedSegment) = .ok 0 := toOption_some.mp (by decide +kernel)
  have claimed : (sampleDoc shadowedDigest).textAt imageDigestPath = some (utf8
      "sha256:abababababababababababababababababababababababababababababababab") := by decide +kernel
  rw [first, same, Except.ok.injEq] at read
  cases claimed.symm.trans nested
  exact absurd read (by decide +kernel)

/-- The readings of an accepted token without the decoy agree, so its text is unshadowed. -/
theorem readings_agree_iff_sample :
    (∃ att, parseToken samplePython (tokenOf plainSegment) none none = .ok att) ∧
      Unshadowed (∃ att, parseToken samplePython (tokenOf plainSegment) none none = .ok att)
        plainSegment (sampleDoc containerDigest) := by
  have claimed : Claimed (sampleDoc containerDigest)
      (BitVec.ofNat 256 0xabababababababababababababababababababababababababababababababab) := by
    refine ⟨by decide +kernel, utf8
      "sha256:abababababababababababababababababababababababababababababababab", ?_⟩
    decide +kernel
  have read : tokenDigest (tokenOf plainSegment) =
      .ok (BitVec.ofNat 256 0xabababababababababababababababababababababababababababababababab) :=
    toOption_some.mp (by decide +kernel)
  refine ⟨samples_accepted plainSegment (by simp), (readings_agree_iff plain_carried).mp ?_⟩
  constructor
  · intro att ok
    have parsed := claimed_of_parse plain_carried ok
    rw [parsed.unique claimed]
    exact ⟨claimed, read⟩
  · intro digest ok
    cases read.symm.trans ok
    exact claimed

end Agreement

end Jwt
