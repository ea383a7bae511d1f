import VerifiableRag.Attestation.EatBuilder

/-!
`get_attestation_token` on Linux: the report of a TEE driver, the claims minted
from it and the signed token.
-/
namespace Attestation
open Bytes Cbor

/-- `TeeDeviceError` of `tdx.rs`; an I/O error is its text. -/
inductive TeeDeviceError where
  | deviceNotFound
  | openFailed (e : String)
  | ioctl (e : String)
  | firmware (code : UInt32)
  | unsupportedPlatform (os : String)
  deriving DecidableEq

def TeeDeviceError.message : TeeDeviceError → String
  | .deviceNotFound =>
    "no TEE device (/dev/tdx-guest) — not running inside an Intel TDX guest"
  | .openFailed e => "failed to open /dev/tdx-guest: " ++ e
  | .ioctl e => "TDX_CMD_GET_REPORT0 ioctl failed: " ++ e
  | .firmware code => "SEV-SNP firmware error: " ++ toString code ++ " (see psp-sev.h)"
  | .unsupportedPlatform os =>
    "TDX attestation unavailable on this platform (" ++ os ++
      "); requires Linux + /dev/tdx-guest"

/-- `SevGuestError` of `sev_snp.rs`. -/
inductive SevGuestError where
  | deviceNotFound
  | openFailed (e : String)
  | ioctl (e : String)
  | firmware (code : UInt32)
  | unsupportedPlatform (os : String)
  deriving DecidableEq

def SevGuestError.toTee : SevGuestError → TeeDeviceError
  | .deviceNotFound => .deviceNotFound
  | .openFailed e => .openFailed e
  | .ioctl e => .ioctl e
  | .firmware code => .firmware code
  | .unsupportedPlatform os => .unsupportedPlatform os

/-- The two drivers: a TDREPORT of 1024 bytes, an SNP response of 4000 with its
certificate blob. -/
structure Drivers where
  getTdreport : Block 64 → Except TeeDeviceError (Block 1024)
  getSnpAttestationReport : Block 64 → Except SevGuestError (Block 4000 × List UInt8)

inductive Code where
  | invalidArgument
  | unavailable
  | internal
  | failedPrecondition
  deriving DecidableEq

structure Status where
  code : Code
  message : String
  deriving DecidableEq

/-- What one request reads of its surroundings. -/
structure Enclave (Key : Type) where
  drivers : Drivers
  /-- The configured digest, unless the state lock is poisoned. -/
  imageDigest : Option String
  instanceId : Block 16
  /-- Seconds since the epoch, if the clock is past it. -/
  now : Option UInt64
  signingKey : Key

structure AttestationResponse where
  eatToken : List UInt8
  swname : String
  imageDigest : String
  hardware : String
  instanceId : List UInt8
  deriving DecidableEq

def hexDigit (n : Nat) : UInt8 := UInt8.ofNat (if n < 10 then 48 + n else 87 + n)

def hexEncode (bytes : List UInt8) : List UInt8 :=
  bytes.flatMap fun b => [hexDigit (b.toNat / 16), hexDigit (b.toNat % 16)]

/-- TDX first, SEV-SNP when there is no TDX device. -/
def hardwareReport (drivers : Drivers) (reportdata : Block 64) :
    Except TeeDeviceError (String × List UInt8) :=
  match drivers.getTdreport reportdata with
  | .ok report => .ok ("intel-tdx", report.toList)
  | .error .deviceNotFound =>
    match drivers.getSnpAttestationReport reportdata with
    | .ok (report, _) => .ok ("amd-sev-snp", report.toList)
    | .error e => .error e.toTee
  | .error e => .error e

/-- `report.try_into().unwrap_or([0u8; 32])` -/
def toMeasurement (report : List UInt8) : Block 32 :=
  if size : report.length = 32 then ⟨report, size⟩ else List.Vector.replicate 32 0

section Request
variable {Key : Type} (sha256 : List UInt8 → Block 32) (es256 : Key → List UInt8 → Block 64)

/-- The handler up to the claims it hands to `build_eat`. -/
def mintClaims (enclave : Enclave Key) (nonce : String) : Except Status EatClaims :=
  if isBlank nonce then .error ⟨.invalidArgument, "nonce must not be empty"⟩
  else
    match hardwareReport enclave.drivers (nonceToReportdata sha256 (utf8 nonce)) with
    | .error e =>
      .error ⟨.unavailable, "hardware attestation unavailable (fail-closed): " ++ e.message⟩
    | .ok (hardware, report) =>
      match enclave.imageDigest with
      | none => .error ⟨.internal, "enclave state lock poisoned"⟩
      | some imageDigest =>
        if imageDigest.isEmpty then
          .error ⟨.failedPrecondition,
            "ENCLAVE_IMAGE_DIGEST not configured — cannot bind EAT to a build digest"⟩
        else
          .ok {
            nonce := hexEncode (sha256 (utf8 nonce)).toList
            swname := defaultSwname
            imageDigest
            hardware
            instanceId := enclave.instanceId
            iat := enclave.now.getD 0
            measurements := [toMeasurement report] }

def getAttestationToken (enclave : Enclave Key) (nonce : String) :
    Except Status AttestationResponse :=
  match mintClaims sha256 enclave nonce with
  | .error status => .error status
  | .ok claims =>
    match buildEat es256 claims enclave.signingKey with
    | .error e => .error ⟨.internal, "EAT build failed: " ++ e.message⟩
    | .ok eatToken =>
      .ok {
        eatToken
        swname := claims.swname
        imageDigest := claims.imageDigest
        hardware := claims.hardware
        instanceId := hexEncode claims.instanceId.toList }

end Request

/-- A report a driver can return. -/
inductive HardwareReport where
  | tdx (report : Block 1024)
  | sevSnp (report : Block 4000)

def HardwareReport.drivers : HardwareReport → Drivers
  | .tdx report => ⟨fun _ => .ok report, fun _ => .error .deviceNotFound⟩
  | .sevSnp report => ⟨fun _ => .error .deviceNotFound, fun _ => .ok (report, [])⟩

def Enclave.reporting {Key : Type} (enclave : Enclave Key) (report : HardwareReport) :
    Enclave Key := { enclave with drivers := report.drivers }

def SameDriver : HardwareReport → HardwareReport → Prop
  | .tdx _, .tdx _ => True
  | .sevSnp _, .sevSnp _ => True
  | _, _ => False

/-- Two runs that differ in the hardware report mint different measurements, hence
different payloads. -/
def Distinguishes {Key : Type} (sha256 : List UInt8 → Block 32) (enclave : Enclave Key)
    (nonce : String) (a b : HardwareReport) : Prop :=
  ∃ claims claims', mintClaims sha256 (enclave.reporting a) nonce = .ok claims ∧
    mintClaims sha256 (enclave.reporting b) nonce = .ok claims' ∧
    claims.measurements ≠ claims'.measurements ∧
    (encodeClaims claims).encode ≠ (encodeClaims claims').encode

theorem hardwareReport_length {drivers : Drivers} {reportdata : Block 64} {hardware : String}
    {report : List UInt8} (run : hardwareReport drivers reportdata = .ok (hardware, report)) :
    report.length = 1024 ∨ report.length = 4000 := by
  unfold hardwareReport at run
  split at run
  next tdx _ =>
    cases run
    exact Or.inl tdx.toList_length
  · split at run
    next snp _ _ =>
      cases run
      exact Or.inr snp.toList_length
    · cases run
  · cases run

theorem toMeasurement_other {report : List UInt8} (size : report.length ≠ 32) :
    toMeasurement report = List.Vector.replicate 32 0 := dif_neg size

section Request
variable {Key : Type} {sha256 : List UInt8 → Block 32}

theorem minted_measurements {enclave : Enclave Key} {nonce : String} {claims : EatClaims}
    (minted : mintClaims sha256 enclave nonce = .ok claims) :
    claims.measurements = [List.Vector.replicate 32 0] := by
  unfold mintClaims at minted
  split at minted
  · cases minted
  · split at minted
    · cases minted
    next run =>
      split at minted
      · cases minted
      · split at minted
        · cases minted
        · cases minted
          -- no driver report has 32 bytes, so the conversion always falls back
          have size := hardwareReport_length run
          exact congrArg (fun m => [m]) (toMeasurement_other (by omega))

theorem mintClaims_same_driver (sha256 : List UInt8 → Block 32) (enclave : Enclave Key)
    (nonce : String) {a b : HardwareReport} (same : SameDriver a b) :
    mintClaims sha256 (enclave.reporting a) nonce =
      mintClaims sha256 (enclave.reporting b) nonce := by
  cases a with
  | tdx a =>
    cases b with
    | sevSnp b => cases same
    | tdx b =>
      have fallback (r : Block 1024) : toMeasurement r.toList = _ :=
        toMeasurement_other (by simp)
      simp only [mintClaims, Enclave.reporting, hardwareReport, HardwareReport.drivers, fallback]
  | sevSnp a =>
    cases b with
    | tdx b => cases same
    | sevSnp b =>
      have fallback (r : Block 4000) : toMeasurement r.toList = _ :=
        toMeasurement_other (by simp)
      simp only [mintClaims, Enclave.reporting, hardwareReport, HardwareReport.drivers, fallback]

end Request

/-- The measurement is one constant, whatever the hardware reports, and on one driver so
is the whole token. -/
theorem measurements_never_commit {Key : Type} (sha256 : List UInt8 → Block 32)
    (es256 : Key → List UInt8 → Block 64) (enclave : Enclave Key) (nonce : String) :
    (∀ report claims, mintClaims sha256 (enclave.reporting report) nonce = .ok claims →
      claims.measurements = [List.Vector.replicate 32 0]) ∧
    (∀ a b, ¬ Distinguishes sha256 enclave nonce a b) ∧
    ∀ a b, SameDriver a b →
      getAttestationToken sha256 es256 (enclave.reporting a) nonce =
        getAttestationToken sha256 es256 (enclave.reporting b) nonce := by
  refine ⟨fun _ _ => minted_measurements, ?_, ?_⟩
  · intro a b distinguishes
    obtain ⟨claims, claims', minted, minted', differ, _⟩ := distinguishes
    exact differ ((minted_measurements minted).trans (minted_measurements minted').symm)
  · intro a b same
    rw [getAttestationToken, mintClaims_same_driver sha256 enclave nonce same]
    rfl

def sampleEnclave : Enclave Unit where
  drivers := ⟨fun _ => .error .deviceNotFound, fun _ => .error .deviceNotFound⟩
  imageDigest := some "sha256:2c26b46b68ffc68ff99b453c1d30413413422d706483bfa0f98a5e886266e7ae"
  instanceId := List.Vector.replicate 16 7
  now := some 1700000000
  signingKey := ()

theorem tdreports_minted_alike :
    let zeros : HardwareReport := .tdx (List.Vector.replicate 1024 0)
    let ones : HardwareReport := .tdx (List.Vector.replicate 1024 1)
    let sha256 : List UInt8 → Block 32 := fun _ => List.Vector.replicate 32 9
    zeros ≠ ones ∧
    (∃ claims, mintClaims sha256 (sampleEnclave.reporting zeros) "session-1" = .ok claims ∧
      mintClaims sha256 (sampleEnclave.reporting ones) "session-1" = .ok claims) ∧
    ¬ Distinguishes sha256 sampleEnclave "session-1" zeros ones := by
  intro zeros ones sha256
  have alike : mintClaims sha256 (sampleEnclave.reporting zeros) "session-1" =
      mintClaims sha256 (sampleEnclave.reporting ones) "session-1" :=
    mintClaims_same_driver sha256 sampleEnclave "session-1" trivial
  refine ⟨?_, ⟨_, rfl, alike.symm⟩, ?_⟩
  · intro same
    have bytes := congrArg List.Vector.head (HardwareReport.tdx.inj same)
    exact absurd bytes (by decide)
  · intro distinguishes
    obtain ⟨claims, claims', minted, minted', differ, _⟩ := distinguishes
    exact differ ((minted_measurements minted).trans (minted_measurements minted').symm)

end Attestation
