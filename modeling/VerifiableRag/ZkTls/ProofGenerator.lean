import Mathlib.Data.Set.Function
import VerifiableRag.Kms.GroupOrder
import VerifiableRag.ZkTls.Proof

/-!
How a zkTLS proof is made (`generate_proof`), and which of its inputs the signed
payload pins down. The jq engine, the hashes and the signer are parameters.
-/
namespace ZkTls
open Bytes

/-- The jq engine: `run` gives the serialized outputs, or the error that stopped it. -/
structure Jq (Filter : Type) where
  compile : String → Except (List String) Filter
  run : Filter → List UInt8 → Except String (List (List UInt8))

def PROOF_VERSION : UInt8 := 1

/-- The chain a server presented, end entity first. -/
structure CapturedChain where
  server : String
  endEntity : List UInt8
  intermediates : List (List UInt8)

def CapturedChain.allDer (chain : CapturedChain) : List (List UInt8) :=
  chain.endEntity :: chain.intermediates

structure Request where
  url : String
  responseBody : List UInt8
  selector : String
  chain : CapturedChain
  signer : Kms.Scalar
  nonce : Block 16
  redact : Option (List String)
  /-- The wall clock; an error before the epoch. -/
  now : Except String (BitVec 64)

section Generate
variable {Filter Point : Type} (jq : Jq Filter) (k256 : Kms.K256 Point)
  (keccak256 : List UInt8 → Word) (sha256 : List UInt8 → Block 32)

def jqSelect (json : List UInt8) (selector : String) : Except ProofError (List UInt8) :=
  match jq.compile selector with
  | .error messages => .error (.jqCompile ("; ".intercalate messages))
  | .ok filter =>
    match jq.run filter json with
    | .error e => .error (.build ("jq run failed: " ++ e))
    | .ok [] => .error (.emptySelection selector)
    | .ok outputs => .ok outputs.flatten

def certFingerprint (chain : CapturedChain) : Block 32 := sha256 chain.allDer.flatten

/-- Whether a request header value shows in the bytes; an empty one panics in `windows`. -/
def leaked (serialized : List UInt8) : List String → Option Bool
  | [] => some false
  | secret :: rest =>
    if (utf8 secret).isEmpty then none
    else if utf8 secret <:+: serialized then some true
    else leaked serialized rest

def signPayload (signer : Kms.Scalar) (payload : List UInt8) : Block 32 × Block 32 × UInt8 :=
  let ((r, s), recoveryId) := k256.signDigestRecoverable signer (keccak256 payload)
  let s := (Kms.normalizeS s).getD s
  (Kms.scalarBytes r, Kms.scalarBytes s, recoveryId.toByte)

/-- `none` is a panic. -/
def generateProof (req : Request) : Option (Except ProofError ZkTlsProof) :=
  match jqSelect jq req.responseBody req.selector with
  | .error e => some (.error e)
  | .ok selected =>
    match req.now with
    | .error e => some (.error (.build e))
    | .ok timestamp =>
      let urlHash := sha256 (utf8 req.url)
      let dataHash := sha256 selected
      let responseHash := sha256 req.responseBody
      let fingerprint := certFingerprint sha256 req.chain
      let payload := canonicalPayload PROOF_VERSION urlHash dataHash responseHash fingerprint
        timestamp req.nonce
      let (r, s, v) := signPayload k256 keccak256 req.signer payload
      let proof : ZkTlsProof := ⟨PROOF_VERSION, urlHash, dataHash, responseHash, fingerprint,
        timestamp, req.nonce, r, s, v⟩
      (leaked proof.toBytes (req.redact.getD [])).map fun leak =>
        if leak then .error (.build "request header value leaked into proof payload")
        else .ok proof

end Generate

section Binding
variable {Filter Point : Type} {jq : Jq Filter} {k256 : Kms.K256 Point}
  {keccak256 : List UInt8 → Word} {sha256 : List UInt8 → Block 32}

/-- The runs agree on all that `ZkTlsProof` is documented to bind. -/
structure Agree (jq : Jq Filter) (x y : Request) : Prop where
  url : x.url = y.url
  selector : x.selector = y.selector
  selected : jqSelect jq x.responseBody x.selector = jqSelect jq y.responseBody y.selector
  responseBody : x.responseBody = y.responseBody
  chain : x.chain.allDer = y.chain.allDer
  timestamp : x.now = y.now
  nonce : x.nonce = y.nonce

/-- One exchange, in which another selector selects the same data, or another list of
certificates has the same bytes end to end. -/
structure Ambiguous (jq : Jq Filter) (x y : Request) : Prop where
  url : x.url = y.url
  responseBody : x.responseBody = y.responseBody
  timestamp : x.now = y.now
  nonce : x.nonce = y.nonce
  selected : jqSelect jq x.responseBody x.selector = jqSelect jq y.responseBody y.selector
  certificates : x.chain.allDer.flatten = y.chain.allDer.flatten
  differ : x.selector ≠ y.selector ∨ x.chain.allDer ≠ y.chain.allDer

def hashed (jq : Jq Filter) (x : Request) : Set (List UInt8) :=
  {bytes | bytes = utf8 x.url ∨ bytes = x.responseBody ∨ bytes = x.chain.allDer.flatten ∨
    jqSelect jq x.responseBody x.selector = .ok bytes}

theorem generateProof_ok {x : Request} {p : ZkTlsProof}
    (generated : generateProof jq k256 keccak256 sha256 x = some (.ok p)) :
    ∃ selected timestamp, jqSelect jq x.responseBody x.selector = .ok selected ∧
      x.now = .ok timestamp ∧
      p.payload = canonicalPayload PROOF_VERSION (sha256 (utf8 x.url)) (sha256 selected)
        (sha256 x.responseBody) (certFingerprint sha256 x.chain) timestamp x.nonce := by
  unfold generateProof at generated
  split at generated
  · cases generated
  next selected run =>
    split at generated
    · cases generated
    next timestamp clock =>
      obtain ⟨leak, _, built⟩ := Option.map_eq_some_iff.mp generated
      cases leak with
      | true => cases built
      | false =>
        cases built
        exact ⟨selected, timestamp, run, clock, rfl⟩

/-- The payload pins down everything it is documented to bind except between ambiguous
runs: the selector is not hashed, and the fingerprint is over the bare concatenation. -/
theorem payload_binds_iff {x y : Request} {p q : ZkTlsProof}
    (first : generateProof jq k256 keccak256 sha256 x = some (.ok p))
    (second : generateProof jq k256 keccak256 sha256 y = some (.ok q))
    (collision_free : Set.InjOn sha256 (hashed jq x ∪ hashed jq y)) :
    (p.payload = q.payload → Agree jq x y) ↔ ¬ Ambiguous jq x y := by
  obtain ⟨selected, timestamp, select, clock, payload⟩ := generateProof_ok first
  obtain ⟨selected', timestamp', select', clock', payload'⟩ := generateProof_ok second
  constructor
  · intro binds ambiguous
    have data : selected = selected' :=
      Except.ok.inj (select.symm.trans (ambiguous.selected.trans select'))
    have stamp : timestamp = timestamp' :=
      Except.ok.inj (clock.symm.trans (ambiguous.timestamp.trans clock'))
    have same : p.payload = q.payload := by
      rw [payload, payload', ambiguous.url, data, ambiguous.responseBody, stamp, ambiguous.nonce,
        certFingerprint, certFingerprint, ambiguous.certificates]
    have agree := binds same
    rcases ambiguous.differ with other | other
    · exact other agree.selector
    · exact other agree.chain
  · intro unambiguous same
    rw [payload, payload'] at same
    obtain ⟨url, data, body, chain, stamp, nonce⟩ := canonicalPayload_injective same
    have url := utf8_injective (collision_free (Or.inl (Or.inl rfl)) (Or.inr (Or.inl rfl)) url)
    have data := collision_free (Or.inl (Or.inr (Or.inr (Or.inr select))))
      (Or.inr (Or.inr (Or.inr (Or.inr select')))) data
    have body := collision_free (Or.inl (Or.inr (Or.inl rfl))) (Or.inr (Or.inr (Or.inl rfl))) body
    have chain := collision_free (Or.inl (Or.inr (Or.inr (Or.inl rfl))))
      (Or.inr (Or.inr (Or.inr (Or.inl rfl)))) chain
    have selection :
        jqSelect jq x.responseBody x.selector = jqSelect jq y.responseBody y.selector := by
      rw [select, select', data]
    have clocks : x.now = y.now := by
      rw [clock, clock', stamp]
    by_contra disagree
    refine unambiguous ⟨url, body, clocks, nonce, selection, chain, ?_⟩
    by_contra alike
    simp only [not_or, not_not] at alike
    exact disagree ⟨url, alike.1, selection, body, alike.2, clocks, nonce⟩

end Binding

section Sample

def sampleUrl : String := "https://api.example.com/rates"
def sampleBody : List UInt8 := utf8 "\x7b\"a\":1,\"b\":1,\"c\":2\x7d"
def sampleChain : CapturedChain :=
  ⟨"api.example.com", [0x30, 3, 2, 1, 1], [[0x30, 3, 2, 1, 2]]⟩

def selection (selector : String) : List UInt8 :=
  if selector = ".c" then utf8 "2\n" else utf8 "1\n"

def sampleJq : Jq String where
  compile selector :=
    if selector ∈ [".a", ".b", ".c"] then .ok selector else .error ["unexpected token"]
  run selector body :=
    if body = sampleBody then .ok [selection selector]
    else .error "cannot parse"

def sampleDigests : List (List UInt8 × Nat) :=
  [(utf8 sampleUrl, 0x6df58614e2109de8fc6531f60d523870d0a15ec898007738d1808ff0622a3069),
    (sampleBody, 0x5434d8b66283783881f1c6868ef4c1d6cc36b92633e1ece0866adf4173adaf42),
    (sampleChain.allDer.flatten,
      0x922643e7134821483a6cd203e644d40128a3fd8a60aa843ad3a7f46acb76e5ef),
    (utf8 "1\n", 0x4355a46b19d348dc2f57c046f8ef63d4538ebb936000f3c9ee954a27460dd865),
    (utf8 "2\n", 0x53c234e5e8472b6ac51c1ae1cab3fe06fad053beb8ebfd8977b010655bfdd3c3)]

def sampleSha256 (bytes : List UInt8) : Block 32 :=
  ⟨encode 32 ((sampleDigests.lookup bytes).getD 0), encode_length _ _⟩

def samplePayload (data : List UInt8) : List UInt8 :=
  canonicalPayload 1 (sampleSha256 (utf8 sampleUrl)) (sampleSha256 data) (sampleSha256 sampleBody)
    (certFingerprint sampleSha256 sampleChain) 1700000000 (List.Vector.replicate 16 7)

def firstDigest : Word := 0xa19683c0380ef9c650fb2655d2ffa91ee1843f6e3b41f2ec07cb821acc5c9cd6
def secondDigest : Word := 0xbb78f01911ea01710cfcc3ca797b8533080dc23efeb967b0cc99ac444baf97d7

def payloadKeccak (bytes : List UInt8) : Word :=
  if bytes = samplePayload (utf8 "1\n") then firstDigest
  else if bytes = samplePayload (utf8 "2\n") then secondDigest
  else 0

def signingKey : Kms.Scalar := Nat.cast 3

def payloadK256 : Kms.K256 Kms.Scalar where
  generator := 1
  coordinates _ := List.Vector.replicate 64 0
  signDigestRecoverable d digest :=
    if d = signingKey ∧ digest = firstDigest then
      ((0x3c9a011fab5134ef54f7fcfe038a06e40a53c332c60ba5238a70898487ccce2c,
        0x20db822980d0a4ba23d9d752dd39ecf58f87ac359c10f501cd4f107736bf9b80), ⟨true, false⟩)
    else if d = signingKey ∧ digest = secondDigest then
      ((0xb6bee195ff05761095baccf96d64ab9fc6b5b16ee26139a4a155c1002b444c00,
        0x576d2e9bc4fbd4501dce4a9431d1d0414cfca87fd572a9b4b869234df1b0d164), ⟨true, false⟩)
    else ((1, 1), ⟨false, false⟩)

def sampleRequest (selector : String) : Request :=
  ⟨sampleUrl, sampleBody, selector, sampleChain, signingKey, List.Vector.replicate 16 7, none,
    .ok 1700000000⟩

def generated (selector : String) : Option (Except ProofError ZkTlsProof) :=
  generateProof sampleJq payloadK256 payloadKeccak sampleSha256 (sampleRequest selector)

theorem sample_selects (selector : String) (known : selector ∈ [".a", ".b", ".c"]) :
    jqSelect sampleJq sampleBody selector = .ok (selection selector) := by
  have compiled : sampleJq.compile selector = .ok selector := if_pos known
  have ran : sampleJq.run selector sampleBody = .ok [selection selector] := rfl
  rw [jqSelect, compiled]
  simp only [ran, List.flatten_singleton]

theorem sample_generated (selector : String) (known : selector ∈ [".a", ".b", ".c"]) :
    ∃ p, generated selector = some (.ok p) ∧ p.payload = samplePayload (selection selector) := by
  have selected := sample_selects selector known
  have ok : ∃ p, generated selector = some (.ok p) := by
    simp [generated, generateProof, sampleRequest, selected, leaked]
  obtain ⟨p, ok⟩ := ok
  obtain ⟨data, timestamp, select, clock, payload⟩ := generateProof_ok ok
  obtain rfl : selection selector = data := Except.ok.inj (selected.symm.trans select)
  cases clock
  exact ⟨p, ok, payload⟩

def unhash (digest : Block 32) : List UInt8 :=
  ((sampleDigests.find? fun entry => encode 32 entry.2 == digest.toList).map Prod.fst).getD []

theorem sample_collision_free (bytes : List UInt8) (listed : bytes ∈ sampleDigests.map Prod.fst) :
    unhash (sampleSha256 bytes) = bytes := by
  simp only [sampleDigests, List.map_cons, List.map_nil, List.mem_cons, List.not_mem_nil,
    or_false] at listed
  rcases listed with rfl | rfl | rfl | rfl | rfl <;> decide +kernel

theorem sample_hashed (selector : String) (known : selector ∈ [".a", ".b", ".c"]) :
    ∀ bytes ∈ hashed sampleJq (sampleRequest selector), bytes ∈ sampleDigests.map Prod.fst := by
  intro bytes member
  simp only [sampleDigests, List.map_cons, List.map_nil, List.mem_cons, List.not_mem_nil, or_false]
  rcases member with url | body | chain | select
  · exact Or.inl url
  · exact Or.inr (Or.inl body)
  · exact Or.inr (Or.inr (Or.inl chain))
  · have data := Except.ok.inj (select.symm.trans (sample_selects selector known))
    rw [selection] at data
    split at data
    · exact Or.inr (Or.inr (Or.inr (Or.inr data)))
    · exact Or.inr (Or.inr (Or.inr (Or.inl data)))

theorem payload_binds_sample :
    ∃ p q, generated ".a" = some (.ok p) ∧ generated ".c" = some (.ok q) ∧
      p.payload ≠ q.payload := by
  obtain ⟨p, first, _⟩ := sample_generated ".a" (by decide)
  obtain ⟨q, second, _⟩ := sample_generated ".c" (by decide)
  refine ⟨p, q, first, second, ?_⟩
  intro same
  have inverse : Set.LeftInvOn unhash sampleSha256
      (hashed sampleJq (sampleRequest ".a") ∪ hashed sampleJq (sampleRequest ".c")) := by
    intro bytes member
    apply sample_collision_free
    rcases member with member | member
    · exact sample_hashed ".a" (by decide) bytes member
    · exact sample_hashed ".c" (by decide) bytes member
  have unambiguous : ¬ Ambiguous sampleJq (sampleRequest ".a") (sampleRequest ".c") := by
    intro ambiguous
    exact absurd ambiguous.selected (by decide +kernel)
  have agree := (payload_binds_iff first second inverse.injOn).mpr unambiguous same
  exact absurd agree.selector (by decide)

theorem payload_leaves_selector_open :
    ∃ p q, generated ".a" = some (.ok p) ∧ generated ".b" = some (.ok q) ∧
      p.payload = q.payload ∧ ¬ Agree sampleJq (sampleRequest ".a") (sampleRequest ".b") := by
  obtain ⟨p, first, payload⟩ := sample_generated ".a" (by decide)
  obtain ⟨q, second, payload'⟩ := sample_generated ".b" (by decide)
  refine ⟨p, q, first, second, payload.trans payload'.symm, ?_⟩
  intro agree
  exact absurd agree.selector (by decide)

end Sample

end ZkTls
