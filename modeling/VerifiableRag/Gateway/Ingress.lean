import VerifiableRag.Jwt.StateCache
import VerifiableRag.Library.CodePoints
import VerifiableRag.Library.Delimited

/-!
What `TlsAndPayloadValidationMiddleware` and the gate inside it let through to the routes.
-/
namespace Gateway
open CodePoints Delimited Jwt
open Bytes (utf8)
open Json (Text)

section Middleware

/-- A request as the server hands it on: header names in lower case, values as sent. -/
structure Request extends GateRequest where
  scheme : Text
  /-- `request.client.host`, where the connection has one. -/
  client : Option Str
  headers : List (Text × Text)
  body : Text

structure IngressConfig where
  maxPayloadBytes : ℤ
  /-- `_ALLOWED_CONTENT_TYPES`. -/
  allowedContentTypes : Finset Str
  stripped : ∀ t ∈ allowedContentTypes, t ≠ [] ∧ strip t = t

/-- A character of a Latin-1 text is its byte. -/
def latin1 (s : Text) : Str := s.map fun b => Fin.ofNat 0x110000 b.toNat

/-- `request.headers.get`: the first header of a name. -/
def Request.header (request : Request) (name : String) : Option Str :=
  (request.headers.find? (·.1 = utf8 name)).map fun h => latin1 h.2

/-- `str.lower` of a Latin-1 character. -/
def lower (c : CodePoint) : CodePoint :=
  if (0x41 ≤ c ∧ c ≤ 0x5A) ∨ (0xC0 ≤ c ∧ c ≤ 0xDE ∧ c ≠ 0xD7) then c + 0x20 else c

/-- `str.isdigit` of a Latin-1 character; the superscripts count. -/
def isdigit (c : CodePoint) : Bool := (0x30 ≤ c ∧ c ≤ 0x39) ∨ c = 0xB2 ∨ c = 0xB3 ∨ c = 0xB9

/-- `int` of a text of digits: it takes no superscript, and at most 4300 digits. -/
def int (s : Str) : Option Nat :=
  if s.all (fun c => 0x30 ≤ c ∧ c ≤ 0x39) ∧ s.length ≤ 4300 then
    some (s.foldl (fun n c => 10 * n + (c.val - 0x30)) 0)
  else none

def bodyMethods : List Text := [utf8 "POST", utf8 "PUT", utf8 "PATCH", utf8 "DELETE"]

def Request.isLoopback (request : Request) : Bool :=
  ["127.0.0.1", "::1", "localhost"].any (ofString · = request.client.getD [])

def Request.arrivedOverTls (request : Request) : Bool :=
  if request.scheme = utf8 "https" then true
  else
    let xfp := (request.header "x-forwarded-proto").getD []
    if ((xfp.splitOnP (· = 0x2C)).map fun p => (strip p).map lower).contains (ofString "https") then
      true
    else
      let fwd := ((request.header "forwarded").getD []).map lower
      ((fwd.splitOnP (· = 0x3B)).filter fun part => strip part ≠ []).any fun part =>
        strip part = ofString "proto=https"

inductive Refusal where
  | tlsRequired
  | unsupportedMediaType (allowed : List Str) (received : Str)
  | payloadTooLarge (maxBytes : ℤ) (receivedBytes : Option Nat)
  | attestationRequired (problem : Problem)

namespace Refusal

def status : Refusal → Nat
  | tlsRequired => 426
  | unsupportedMediaType _ _ => 415
  | payloadTooLarge _ _ => 413
  | attestationRequired problem => problem.status

def detail : Refusal → String
  | tlsRequired => "TLS required"
  | unsupportedMediaType _ _ => "unsupported media type"
  | payloadTooLarge _ _ => "payload too large"
  | attestationRequired problem => problem.detail

def headers : Refusal → List (String × String)
  | tlsRequired => [("Connection", "close")]
  | unsupportedMediaType _ _ => []
  | payloadTooLarge _ _ => []
  | attestationRequired problem => [("Retry-After", problem.retryAfter)]

end Refusal

inductive Outcome where
  | handler
  | refused (refusal : Refusal)
  /-- A `ValueError` that nothing catches. -/
  | raised

variable (config : IngressConfig) (installed : Option AttestationStateCache) (now : Instant)
  (request : Request)

/-- The `call_next` of the outer middleware. -/
def gate : Outcome :=
  match dispatch installed now request.toGateRequest with
  | .handler => .handler
  | .blocked problem => .refused (.attestationRequired problem)

/-- The declared or the buffered length of a body against the cap. -/
def checkLength (next : Outcome) : Outcome :=
  let contentLength := (request.header "content-length").getD []
  if contentLength ≠ [] ∧ contentLength.all isdigit then
    match int contentLength with
    | none => .raised
    | some declared =>
      if config.maxPayloadBytes < declared then
        .refused (.payloadTooLarge config.maxPayloadBytes (some declared))
      else next
  else if config.maxPayloadBytes < request.body.length then
    .refused (.payloadTooLarge config.maxPayloadBytes none)
  else next

def baseType : Str :=
  (strip ((((request.header "content-type").getD []).splitOnP (· = 0x3B)).headD [])).map lower

/-- `TlsAndPayloadValidationMiddleware.dispatch`, over the gate. -/
def ingress : Outcome :=
  if request.method = utf8 "GET" ∧ request.path = utf8 "/health" ∧ request.isLoopback then
    gate installed now request
  else if !request.arrivedOverTls then .refused .tlsRequired
  else if bodyMethods.contains request.method then
    if baseType request ∉ config.allowedContentTypes then
      .refused (.unsupportedMediaType config.allowedContentTypes.sort
        (if baseType request = [] then ofString "(none)" else baseType request))
    else checkLength config request (gate installed now request)
  else gate installed now request

end Middleware

section Latin1

theorem lower_val (c : CodePoint) : lower c = c ∨
    ((0x41 ≤ c.val ∧ c.val ≤ 0x5A) ∨ (0xC0 ≤ c.val ∧ c.val ≤ 0xDE)) ∧
      (lower c).val = c.val + 0x20 := by
  unfold lower
  split
  · rename_i upper
    have range : (0x41 ≤ c.val ∧ c.val ≤ 0x5A) ∨ (0xC0 ≤ c.val ∧ c.val ≤ 0xDE) :=
      upper.imp id fun accented => ⟨accented.1, accented.2.1⟩
    refine Or.inr ⟨range, ?_⟩
    have small : c.val + 0x20 < 0x110000 := by omega
    exact Nat.mod_eq_of_lt small
  · exact Or.inl rfl

theorem isspace_letter {c : CodePoint} (above : 0x41 ≤ c.val) (below : c.val ≤ 0xFE)
    (next_line : c.val ≠ 0x85) (no_break : c.val ≠ 0xA0) : isspace c = false := by
  simp only [isspace, Fin.le_def, Fin.ext_iff, decide_eq_false_iff_not]
  norm_num [Fin.coe_ofNat_eq_mod]
  omega

theorem isspace_lower (c : CodePoint) : isspace (lower c) = isspace c := by
  rcases lower_val c with same | ⟨range, value⟩
  · rw [same]
  · rw [isspace_letter (by omega) (by omega) (by omega) (by omega),
      isspace_letter (by omega) (by omega) (by omega) (by omega)]

theorem lower_eq_iff {c d : CodePoint} (mark : d < 0x41) : lower c = d ↔ c = d := by
  have small : d.val < 0x41 := mark
  rw [Fin.ext_iff, Fin.ext_iff]
  rcases lower_val c with same | ⟨range, value⟩
  · rw [same]
  · omega

theorem blanks_map_lower {blanks : Str} (all : ∀ c ∈ blanks, isspace c) :
    ∀ c ∈ blanks.map lower, isspace c := by
  intro c member
  obtain ⟨d, listed, rfl⟩ := List.mem_map.mp member
  rw [isspace_lower]
  exact all d listed

theorem strip_map_lower (s : Str) : strip (s.map lower) = (strip s).map lower := by
  have kept : isspace ∘ lower = isspace := funext isspace_lower
  calc strip (s.map lower) = trim isspace (s.map lower) := rfl
    _ = (trim (isspace ∘ lower) s).map lower := trim_map s
    _ = (strip s).map lower := by
      rw [kept]
      rfl

end Latin1

section Reading
variable {sep : CodePoint} {word v : Str}

/-- A delimited text has the word for an element, in any case and between blanks. -/
def Lists (sep : CodePoint) (word v : Str) : Prop :=
  ∃ front left written right back, v = front ++ (left ++ (written ++ right) ++ back) ∧
    written.map lower = word ∧ (∀ c ∈ left, isspace c) ∧ (∀ c ∈ right, isspace c) ∧
    (∀ c ∈ front.getLast?, c = sep) ∧ ∀ c ∈ back.head?, c = sep

/-- What separators and blanks leave of a word's element is the word. -/
theorem lists_iff (mark : sep < 0x41) (solid : isspace sep = false) (whole : strip word = word)
    (single : sep ∉ word) :
    Lists sep word v ↔ ∃ part ∈ v.splitOnP (· = sep), (strip part).map lower = word := by
  simp only [mem_splitOnP_iff, decide_eq_true_eq, decide_eq_false_iff_not]
  constructor
  · intro listed
    obtain ⟨front, left, written, right, back, shape, same, before, after, opens, closes⟩ := listed
    refine ⟨left ++ (written ++ right), ⟨?_, front, back, shape, opens, closes⟩, ?_⟩
    · intro c member apart
      rw [apart] at member
      rcases List.mem_append.mp member with blank | member
      · rw [before sep blank] at solid
        cases solid
      rcases List.mem_append.mp member with inside | blank
      · exact single (same ▸ List.mem_map.mpr ⟨sep, inside, (lower_eq_iff mark).mpr rfl⟩)
      · rw [after sep blank] at solid
        cases solid
    · rw [← strip_map_lower, List.map_append, List.map_append, same]
      exact trim_surrounded whole (blanks_map_lower before) (blanks_map_lower after)
  · rintro ⟨part, ⟨_, front, back, shape, opens, closes⟩, same⟩
    obtain ⟨left, right, between, before, after⟩ := trim_between isspace part
    change part = left ++ (strip part ++ right) at between
    exact ⟨front, left, strip part, right, back, by rw [← between, shape], same, before, after,
      opens, closes⟩

variable {config : IngressConfig} {installed : Option AttestationStateCache} {now : Instant}
  {request : Request}

/-- Evidence of TLS: the connection's own scheme, an element `https` of the first
    X-Forwarded-Proto, or a parameter `proto=https` of the first Forwarded. -/
def OverTls (request : Request) : Prop :=
  request.scheme = utf8 "https" ∨
    (∃ v, request.header "x-forwarded-proto" = some v ∧ Lists 0x2C (ofString "https") v) ∨
    ∃ v, request.header "forwarded" = some v ∧ Lists 0x3B (ofString "proto=https") v

theorem not_lists_nil (nonempty : word ≠ []) : ¬ Lists sep word [] := by
  intro listed
  obtain ⟨front, left, written, right, back, shape, same, -⟩ := listed
  have empty : written = [] := by
    have size := congrArg List.length shape
    simp only [List.length_nil, List.length_append] at size
    exact List.length_eq_zero_iff.mp (by omega)
  rw [empty] at same
  exact nonempty same.symm

theorem exists_header_iff {name : String} {P : Str → Prop} (absent : ¬ P []) :
    (∃ v, request.header name = some v ∧ P v) ↔ P ((request.header name).getD []) := by
  cases request.header name with
  | none => simpa using absent
  | some v => simp

theorem forwarded_part_iff {part : Str} :
    strip (part.map lower) = ofString "proto=https" ∧ strip (part.map lower) ≠ [] ↔
      (strip part).map lower = ofString "proto=https" := by
  rw [strip_map_lower]
  constructor
  · exact fun both => both.1
  · intro same
    exact ⟨same, by rw [same]; decide⟩

theorem arrivedOverTls_iff : request.arrivedOverTls = true ↔ OverTls request := by
  have comma : Lists 0x2C (ofString "https") ((request.header "x-forwarded-proto").getD []) ↔ _ :=
    lists_iff (by decide) (by decide) (by decide) (by decide)
  have semicolon : Lists 0x3B (ofString "proto=https") ((request.header "forwarded").getD []) ↔ _ :=
    lists_iff (by decide) (by decide) (by decide) (by decide)
  have same : (fun c : CodePoint => decide (c = 0x3B)) ∘ lower = fun c => decide (c = 0x3B) :=
    funext fun c => decide_eq_decide.mpr (lower_eq_iff (by decide))
  unfold OverTls
  rw [exists_header_iff (not_lists_nil (by decide)), exists_header_iff (not_lists_nil (by decide)),
    comma, semicolon]
  unfold Request.arrivedOverTls
  by_cases direct : request.scheme = utf8 "https"
  · simp [direct]
  · rw [if_neg direct, or_iff_right direct]
    dsimp only
    rw [splitOnP_map, same, Bool.if_true_left, Bool.or_eq_true, decide_eq_true_eq,
      List.contains_iff_mem, List.mem_map]
    simp only [List.any_eq_true, List.mem_filter, List.mem_map, decide_eq_true_eq]
    refine or_congr Iff.rfl ?_
    constructor
    · rintro ⟨_, ⟨⟨part, listed, rfl⟩, solid⟩, spelled⟩
      exact ⟨part, listed, forwarded_part_iff.mp ⟨spelled, solid⟩⟩
    · rintro ⟨part, listed, spelled⟩
      obtain ⟨spelled, solid⟩ := forwarded_part_iff.mpr spelled
      exact ⟨_, ⟨⟨part, listed, rfl⟩, solid⟩, spelled⟩

/-- A media type that is allowed, in any case and between blanks, before the parameters. -/
def Typed (config : IngressConfig) (request : Request) : Prop :=
  ∃ v, request.header "content-type" = some v ∧ ∃ left written right params,
    v = left ++ (written ++ right) ++ params ∧ written.map lower ∈ config.allowedContentTypes ∧
    0x3B ∉ written ∧ (∀ c ∈ left, isspace c) ∧ (∀ c ∈ right, isspace c) ∧
    ∀ c ∈ params.head?, c = 0x3B

/-- No parameters start here. -/
def inType (c : CodePoint) : Bool := !decide (c = 0x3B)

theorem baseType_eq : baseType request =
    (strip (((request.header "content-type").getD []).takeWhile inType)).map lower := by
  rw [baseType, headD_splitOnP]
  rfl

theorem typed_iff : baseType request ∈ config.allowedContentTypes ↔ Typed config request := by
  constructor
  · intro allowed
    rw [baseType_eq] at allowed
    unfold Typed
    cases found : request.header "content-type" with
    | none =>
      rw [found] at allowed
      exact absurd rfl (config.stripped _ allowed).1
    | some v =>
      rw [found, Option.getD_some] at allowed
      obtain ⟨left, right, between, before, after⟩ :=
        trim_between isspace (v.takeWhile inType)
      refine ⟨v, rfl, left, strip (v.takeWhile inType), right,
        v.dropWhile inType, ?_, allowed, ?_, before, after, ?_⟩
      · exact (List.takeWhile_append_dropWhile.symm).trans (congrArg (· ++ _) between)
      · intro inside
        have taken : (0x3B : CodePoint) ∈ v.takeWhile inType := by
          rw [between]
          exact List.mem_append_right _ (List.mem_append_left _ inside)
        simpa [inType] using List.mem_takeWhile_imp taken
      · intro c first
        have stops := List.head?_dropWhile_not inType v
        rw [Option.mem_def.mp first] at stops
        simpa [inType] using stops
  · rintro ⟨v, found, left, written, right, params, rfl, allowed, single, before, after, stops⟩
    have plain : ∀ c ∈ left ++ (written ++ right), inType c = true := by
      intro c member
      rw [inType, Bool.not_eq_true', decide_eq_false_iff_not]
      intro same
      rw [same] at member
      have solid : isspace 0x3B = false := by decide
      rcases List.mem_append.mp member with blank | member
      · exact Bool.false_ne_true (solid.symm.trans (before _ blank))
      rcases List.mem_append.mp member with inside | blank
      · exact single inside
      · exact Bool.false_ne_true (solid.symm.trans (after _ blank))
    have rest : params.takeWhile inType = [] := by
      cases params with
      | nil => rfl
      | cons c params => rw [List.takeWhile_cons_of_neg (by simp [inType, stops c rfl])]
    rw [baseType_eq, found, Option.getD_some, List.takeWhile_append_of_pos plain, rest,
      List.append_nil, ← strip_map_lower, List.map_append, List.map_append]
    have fixed := (config.stripped _ allowed).2
    have trimmed : strip (left.map lower ++ (written.map lower ++ right.map lower)) =
        written.map lower :=
      trim_surrounded fixed (blanks_map_lower before) (blanks_map_lower after)
    rw [trimmed]
    exact allowed

example : (⟨⟨none, utf8 "POST", utf8 "/v1/query"⟩, utf8 "http", none,
    [(utf8 "x-forwarded-proto", utf8 "http, HTTPS ")], []⟩ : Request).arrivedOverTls := by
  decide +kernel

end Reading

section Decision
variable {config : IngressConfig} {installed : Option AttestationStateCache} {now : Instant}
  {request : Request} {next : Outcome}

/-- A header of nothing but digits states a length. -/
def States (request : Request) (v : Str) : Prop :=
  request.header "content-length" = some v ∧ v ≠ [] ∧ v.all isdigit

/-- The length that is held against the cap. -/
def Measures (request : Request) (n : Nat) : Prop :=
  (∃ v, States request v ∧ int v = some n) ∨ (¬ ∃ v, States request v) ∧ n = request.body.length

/-- The held attestation of an installed cache, not past its expiry. -/
def Current (installed : Option AttestationStateCache) (now : Instant) : Prop :=
  ∃ cache state, installed = some cache ∧ cache.state = some state ∧
    ∀ expires ∈ state.1.expiresAt, now < expires

def Fits (config : IngressConfig) (request : Request) : Prop :=
  ∃ n, Measures request n ∧ n ≤ config.maxPayloadBytes

def Oversized (config : IngressConfig) (request : Request) : Prop :=
  ∃ n, Measures request n ∧ config.maxPayloadBytes < n

/-- A stated length that `int` does not take. -/
def Unreadable (request : Request) : Prop := ∃ v, States request v ∧ int v = none

theorem measures_unique {m n : Nat} (left : Measures request m) (right : Measures request n) :
    m = n := by
  rcases left with ⟨v, header, parsed⟩ | ⟨bare, rfl⟩
  · rcases right with ⟨v', header', parsed'⟩ | ⟨bare, -⟩
    · have same : v = v' := Option.some.inj (header.1.symm.trans header'.1)
      rw [same, parsed'] at parsed
      exact (Option.some.inj parsed).symm
    · exact absurd ⟨v, header⟩ bare
  · rcases right with ⟨v, header, -⟩ | ⟨-, rfl⟩
    · exact absurd ⟨v, header⟩ bare
    · rfl

theorem not_unreadable {n : Nat} (measured : Measures request n) : ¬ Unreadable request := by
  rintro ⟨v, header, failed⟩
  rcases measured with ⟨v', header', parsed⟩ | ⟨bare, -⟩
  · have same : v = v' := Option.some.inj (header.1.symm.trans header'.1)
    rw [← same, failed] at parsed
    cases parsed
  · exact bare ⟨v, header⟩

theorem not_oversized (fits : Fits config request) : ¬ Oversized config request := by
  obtain ⟨n, measured, small⟩ := fits
  rintro ⟨m, measured', large⟩
  rw [measures_unique measured' measured] at large
  exact absurd small (not_le.mpr large)

/-- A query that the gate turns away. -/
def Barred (installed : Option AttestationStateCache) (now : Instant) (request : Request) : Prop :=
  Gated request.toGateRequest ∧ ¬ Current installed now

theorem checkLength_cases (config : IngressConfig) (request : Request) (next : Outcome) :
    (Fits config request ∧ ¬ Unreadable request) ∧ checkLength config request next = next ∨
    (Oversized config request ∧ ¬ Unreadable request) ∧
      (∃ received, checkLength config request next =
      .refused (.payloadTooLarge config.maxPayloadBytes received)) ∨
    (Unreadable request ∧ ¬ ∃ n, Measures request n) ∧
      checkLength config request next = .raised := by
  unfold checkLength
  by_cases stated : (request.header "content-length").getD [] ≠ [] ∧
      ((request.header "content-length").getD []).all isdigit
  · have header : States request ((request.header "content-length").getD []) := by
      refine ⟨?_, stated⟩
      cases found : request.header "content-length" with
      | none => exact absurd (by rw [found]; rfl) stated.1
      | some v => rfl
    rw [if_pos stated]
    cases parsed : int ((request.header "content-length").getD []) with
    | none =>
      have unreadable : Unreadable request := ⟨_, header, parsed⟩
      refine Or.inr (Or.inr ⟨⟨unreadable, ?_⟩, rfl⟩)
      rintro ⟨n, measured⟩
      exact not_unreadable measured unreadable
    | some n =>
      have measured : Measures request n := Or.inl ⟨_, header, parsed⟩
      by_cases large : config.maxPayloadBytes < n
      · have oversized : Oversized config request := ⟨n, measured, large⟩
        exact Or.inr (Or.inl ⟨⟨oversized, not_unreadable measured⟩, some n, if_pos large⟩)
      · exact Or.inl ⟨⟨⟨n, measured, not_lt.mp large⟩, not_unreadable measured⟩, if_neg large⟩
  · have measured : Measures request request.body.length := by
      refine Or.inr ⟨?_, rfl⟩
      rintro ⟨v, found, both⟩
      rw [found] at stated
      exact stated both
    rw [if_neg stated]
    by_cases large : config.maxPayloadBytes < request.body.length
    · exact Or.inr (Or.inl ⟨⟨⟨_, measured, large⟩, not_unreadable measured⟩, none, if_pos large⟩)
    · exact Or.inl ⟨⟨⟨_, measured, not_lt.mp large⟩, not_unreadable measured⟩, if_neg large⟩

theorem gate_cases (installed : Option AttestationStateCache) (now : Instant) (request : Request) :
    ¬ Barred installed now request ∧ gate installed now request = .handler ∨
    Barred installed now request ∧ ∃ problem, problem.status = 503 ∧
      gate installed now request = .refused (.attestationRequired problem) := by
  unfold gate Barred Current
  by_cases gated : Gated request.toGateRequest
  · cases installed with
    | none =>
      rw [dispatch_uninstalled gated]
      exact Or.inr ⟨⟨gated, by simp⟩, _, rfl, rfl⟩
    | some cache =>
      rw [dispatch_gated gated]
      cases shown : cache.snapshot now with
      | ok state =>
        obtain ⟨held, fresh⟩ := snapshot_ok_iff.mp shown
        exact Or.inl ⟨fun barred => barred.2 ⟨cache, state, rfl, held, fresh⟩, rfl⟩
      | error cause =>
        refine Or.inr ⟨⟨gated, ?_⟩, _, rfl, rfl⟩
        rintro ⟨_, state, same, held⟩
        cases same
        rw [snapshot_ok_iff.mpr held] at shown
        cases shown
  · rw [dispatch_open gated]
    exact Or.inl ⟨fun barred => gated barred.1, rfl⟩

/-- The container's own health check. -/
def Probe (request : Request) : Prop :=
  request.method = utf8 "GET" ∧ request.path = utf8 "/health" ∧ request.isLoopback

def HasBody (request : Request) : Prop := bodyMethods.contains request.method = true

def Outcome.Answers (outcome : Outcome) (status : Nat) : Prop :=
  ∃ refusal, outcome = .refused refusal ∧ refusal.status = status

theorem not_barred_probe (probe : Probe request) : ¬ Barred installed now request := by
  intro barred
  have posts := barred.1.2.1
  rw [probe.1] at posts
  revert posts
  decide +kernel

/-- The requests that pass the checks of the outer middleware. -/
def Passes (config : IngressConfig) (request : Request) : Prop :=
  OverTls request ∧ (HasBody request → Typed config request ∧ Fits config request)

section Stages
variable (config installed now)

theorem ingress_plain (other : ¬ Probe request) (plain : ¬ OverTls request) :
    ingress config installed now request = .refused .tlsRequired := by
  have missing : (!request.arrivedOverTls) = true := by
    rw [Bool.not_eq_true', Bool.eq_false_iff]
    exact fun arrived => plain (arrivedOverTls_iff.mp arrived)
  exact (if_neg other).trans (if_pos missing)

theorem ingress_secure (other : ¬ Probe request) (secure : OverTls request) :
    ingress config installed now request = if bodyMethods.contains request.method then
      if baseType request ∉ config.allowedContentTypes then
        .refused (.unsupportedMediaType config.allowedContentTypes.sort
          (if baseType request = [] then ofString "(none)" else baseType request))
      else checkLength config request (gate installed now request)
    else gate installed now request := by
  have arrived : ¬ (!request.arrivedOverTls) = true := by
    rw [arrivedOverTls_iff.mpr secure]
    decide
  exact (if_neg other).trans (if_neg arrived)

end Stages

theorem bodiless_probe (probe : Probe request) : ¬ HasBody request := by
  intro body
  rw [HasBody, probe.1] at body
  revert body
  decide +kernel

/-- Only a Content-Length that states less takes a body over the cap to the routes. -/
theorem excess_declared (body : HasBody request)
    (excess : config.maxPayloadBytes < request.body.length)
    (handled : ingress config installed now request = .handler) :
    ∃ v n, States request v ∧ int v = some n ∧ n ≤ config.maxPayloadBytes := by
  have other : ¬ Probe request := fun probe => bodiless_probe probe body
  by_cases secure : OverTls request
  · rw [(ingress_secure config installed now other secure).trans (if_pos body)] at handled
    split at handled
    · cases handled
    · rcases checkLength_cases config request (gate installed now request) with
        ⟨⟨⟨n, measured, small⟩, -⟩, -⟩ | ⟨-, received, refused⟩ | ⟨-, raised⟩
      · rcases measured with ⟨v, header, parsed⟩ | ⟨-, rfl⟩
        · exact ⟨v, n, header, parsed, small⟩
        · exact absurd small (not_le.mpr excess)
      · rw [refused] at handled
        cases handled
      · rw [raised] at handled
        cases handled
  · rw [ingress_plain config installed now other secure] at handled
    cases handled

/-- The requests that get to the routes, what every other request is answered, and how a body
    over the cap gets by. -/
theorem ingress_decides (config : IngressConfig) (installed : Option AttestationStateCache)
    (now : Instant) (request : Request) :
    (HasBody request → config.maxPayloadBytes < request.body.length →
      ingress config installed now request = .handler →
      ∃ v n, States request v ∧ int v = some n ∧ n ≤ config.maxPayloadBytes) ∧
    (ingress config installed now request = .handler ↔
      Probe request ∨ Passes config request ∧ ¬ Barred installed now request) ∧
    ((ingress config installed now request).Answers 426 ↔ ¬ Probe request ∧ ¬ OverTls request) ∧
    ((ingress config installed now request).Answers 415 ↔
      ¬ Probe request ∧ OverTls request ∧ HasBody request ∧ ¬ Typed config request) ∧
    ((ingress config installed now request).Answers 413 ↔ ¬ Probe request ∧ OverTls request ∧
      HasBody request ∧ Typed config request ∧ Oversized config request) ∧
    ((ingress config installed now request).Answers 503 ↔
      Passes config request ∧ Barred installed now request) ∧
    (ingress config installed now request = .raised ↔ ¬ Probe request ∧ OverTls request ∧
      HasBody request ∧ Typed config request ∧ Unreadable request) := by
  refine ⟨excess_declared, ?_⟩
  have gates := gate_cases installed now request
  by_cases probe : Probe request
  · have outcome : ingress config installed now request = gate installed now request := if_pos probe
    rcases gates with ⟨clear, passed⟩ | ⟨barred, -⟩
    · simp [outcome, passed, probe, clear, Outcome.Answers]
    · exact absurd barred (not_barred_probe probe)
  by_cases secure : OverTls request
  · have outcome := ingress_secure config installed now probe secure
    by_cases body : HasBody request
    · replace outcome := outcome.trans (if_pos body)
      by_cases typed : Typed config request
      · replace outcome := outcome.trans (if_neg (not_not.mpr (typed_iff.mpr typed)))
        rcases checkLength_cases config request (gate installed now request) with
          ⟨⟨fits, readable⟩, same⟩ | ⟨⟨large, readable⟩, received, same⟩ |
          ⟨⟨unreadable, none⟩, same⟩
        · have small := not_oversized fits
          rw [same] at outcome
          rcases gates with ⟨clear, passed⟩ | ⟨barred, problem, status, blocked⟩
          · simp [outcome, passed, probe, Passes, secure, body, typed, fits, small, readable, clear,
              Outcome.Answers]
          · simp [outcome, blocked, status, probe, Passes, secure, body, typed, fits, small, readable,
              barred, Outcome.Answers, Refusal.status]
        · have excess : ¬ Fits config request := fun fits => not_oversized fits large
          simp [outcome, same, probe, Passes, secure, body, typed, excess, large, readable,
            Outcome.Answers, Refusal.status]
        · have unfit : ¬ Fits config request := by
            intro fits
            obtain ⟨n, measured, _⟩ := fits
            exact none ⟨n, measured⟩
          have unsized : ¬ Oversized config request := by
            intro large
            obtain ⟨n, measured, _⟩ := large
            exact none ⟨n, measured⟩
          simp [outcome, same, probe, Passes, secure, body, typed, unfit, unsized, unreadable,
            Outcome.Answers]
      · replace outcome := outcome.trans (if_pos (typed_iff.not.mpr typed))
        simp [outcome, probe, Passes, secure, body, typed, Outcome.Answers, Refusal.status]
    · replace outcome := outcome.trans (if_neg body)
      rcases gates with ⟨clear, passed⟩ | ⟨barred, problem, status, blocked⟩
      · simp [outcome, passed, probe, Passes, secure, body, clear, Outcome.Answers]
      · simp [outcome, blocked, status, probe, Passes, secure, body, barred, Outcome.Answers,
          Refusal.status]
  · have outcome := ingress_plain config installed now probe secure
    simp [outcome, probe, Passes, secure, Outcome.Answers, Refusal.status]

end Decision

end Gateway
