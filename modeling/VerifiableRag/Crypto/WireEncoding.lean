import VerifiableRag.Jwt.JwtParser
import VerifiableRag.Library.Base64Encoding
import Mathlib.Data.List.DropRight

/-!
URL-safe base64 on the wire: `urlsafe_b64encode` and `urlsafe_b64decode`, beside
`decode_base64url` of the JWT parser. Only ASCII texts are ever decoded.
-/
namespace Crypto
open Base64 Bytes Json Jwt

/-- invalid URL-safe base64 input: {exc} -/
inductive EncodingError where
  /-- a `UnicodeEncodeError` -/
  | notAscii
  /-- a `binascii.Error` -/
  | binascii
  deriving DecidableEq

/-- `rstrip(b"=")` -/
def rstripPads (s : Text) : Text := s.rdropWhile (· == 0x3D)

/-- `bytes.maketrans(b'+/', b'-_')` -/
def toUrlSafe (c : UInt8) : UInt8 := if c = 0x2B then 0x2D else if c = 0x2F then 0x5F else c

def urlsafeB64encode (data : List UInt8) : Text :=
  rstripPads ((pad (encode standardAlphabet data)).map toUrlSafe)

def urlsafeB64decode (value : Text) : Except EncodingError (List UInt8) :=
  let padded := value ++ List.replicate ((4 - value.length % 4) % 4) 0x3D
  if padded.all (· < 0x80) then
    match Base64.urlsafeB64decode padded with
    | some bytes => .ok bytes
    | none => .error .binascii
  else .error .notAscii

/-- A character of `allowed` does not stand before the trailing padding. -/
def HasStray (allowed : UInt8 → Prop) (s : Text) : Prop := ∃ c ∈ rstripPads s, ¬ allowed c

instance (allowed : UInt8 → Prop) [DecidablePred allowed] (s : Text) : Decidable (HasStray allowed s) :=
  inferInstanceAs (Decidable (∃ c ∈ rstripPads s, ¬ allowed c))

theorem rstripPads_append (s : Text) (m : Nat) :
    rstripPads (s ++ List.replicate m 0x3D) = rstripPads s := by
  induction m with
  | zero => rw [List.replicate_zero, List.append_nil]
  | succ m ih =>
    rw [List.replicate_succ', ← List.append_assoc]
    exact (List.rdropWhile_concat_pos _ _ _ rfl).trans ih

theorem rstripPads_plain {data : Text} (plain : ∀ c ∈ data, c ≠ 0x3D) : rstripPads data = data := by
  rw [rstripPads, List.rdropWhile_eq_self_iff]
  intro nonempty
  simpa using plain _ (List.getLast_mem nonempty)

theorem toUrlSafe_alphabet {v : Nat} (small : v < 64) :
    toUrlSafe (standardAlphabet v) = urlAlphabet v := by
  have table : ∀ v : Fin 64, toUrlSafe (standardAlphabet v) = urlAlphabet v := by decide
  exact table ⟨v, small⟩

theorem urlChar_alphabet : ∀ v < 64, UrlChar (urlAlphabet v) := by decide

/-- What the code emits is the unpadded URL-safe encoding. -/
theorem urlsafeB64encode_eq (data : List UInt8) : urlsafeB64encode data = encode urlAlphabet data := by
  have plain (c : UInt8) (member : c ∈ encode urlAlphabet data) : c ≠ 0x3D := by
    have char := encode_all urlChar_alphabet data c member
    rintro rfl
    revert char
    decide
  rw [urlsafeB64encode, pad, List.map_append, encode_map,
    encode_congr (fun v small => toUrlSafe_alphabet small), List.map_replicate]
  exact (rstripPads_append _ _).trans (rstripPads_plain plain)

theorem pad_ascii {s : Text} (ascii : ∀ c ∈ s, c < 0x80) : (pad s).all (· < 0x80) = true := by
  rw [List.all_eq_true]
  intro c member
  rcases List.mem_append.mp member with char | padding
  · exact decide_eq_true (ascii c char)
  · rw [List.eq_of_mem_replicate padding]
    rfl

theorem encode_ascii (x : List UInt8) : ∀ c ∈ encode urlAlphabet x, c < 0x80 :=
  encode_all (by decide) x

theorem urlsafeB64decode_encode (x : List UInt8) : urlsafeB64decode (encode urlAlphabet x) = .ok x := by
  have ascii := pad_ascii (encode_ascii x)
  have decoded := Base64.urlsafeB64decode_encode x
  unfold pad missing at ascii decoded
  rw [urlsafeB64decode]
  simp only [ascii, decoded, if_true]

theorem decodeBase64Url_encode {x : List UInt8} (given : x ≠ []) :
    decodeBase64Url (encode urlAlphabet x) = .ok x := by
  have ascii := pad_ascii (encode_ascii x)
  have decoded := b64decodeUrl_encode x
  have nonempty : encode urlAlphabet x ≠ [] := by
    intro empty
    rw [empty] at decoded
    exact given (Option.some.inj decoded).symm
  unfold pad missing at ascii decoded
  rw [decodeBase64Url, if_neg nonempty]
  simp only [ascii, decoded, if_true]

theorem sextet_urlSafe {c : UInt8} (found : (sextet (urlSafe c)).isSome) :
    UrlChar c ∨ c = 0x2B ∨ c = 0x2F := by
  have table : ∀ c : UInt8, (sextet (urlSafe c)).isSome → UrlChar c ∨ c = 0x2B ∨ c = 0x2F :=
    forall_byte (by decide +kernel)
  exact table c found

theorem rstripPads_map (s : Text) : rstripPads (s.map urlSafe) = (rstripPads s).map urlSafe := by
  have table : ∀ c : UInt8, (urlSafe c == 0x3D) = (c == 0x3D) := forall_byte (by decide +kernel)
  have same : (fun c : UInt8 => c == 0x3D) ∘ urlSafe = fun c => c == 0x3D := funext table
  rw [rstripPads, List.rdropWhile, ← List.map_reverse, List.dropWhile_map, same, ← List.map_reverse]
  rfl

theorem decodeBase64Url_plain {s : Text} {out : List UInt8} (ok : decodeBase64Url s = .ok out) :
    ∀ c ∈ rstripPads s, UrlChar c ∨ c = 0x2B ∨ c = 0x2F := by
  have decoded : b64decodeUrl (pad s) = some out := by
    unfold decodeBase64Url at ok
    split at ok
    · cases ok
    · dsimp only at ok
      split at ok
      · split at ok
        · rename_i decoded
          cases ok
          exact decoded
        · cases ok
      · cases ok
  unfold b64decodeUrl a2bStrict at decoded
  split at decoded
  · cases decoded
  · obtain ⟨data, m, split, plain⟩ := decodeFrom_plain decoded
    have char (c : UInt8) (member : c ∈ data) : c ≠ 0x3D := by
      rintro rfl
      cases plain _ member
    have stripped := congrArg rstripPads split
    rw [rstripPads_map, pad, rstripPads_append, rstripPads_append, rstripPads_plain char] at stripped
    intro c member
    apply sextet_urlSafe
    apply plain
    rw [← stripped]
    exact List.mem_map_of_mem member

theorem decodeBase64Url_raises {s : Text} (refused : ∀ out, decodeBase64Url s ≠ .ok out) :
    ∃ e, decodeBase64Url s = parseError e := by
  revert refused
  unfold decodeBase64Url
  split
  · exact fun _ => ⟨_, rfl⟩
  · dsimp only
    split
    · split
      · intro refused
        exact absurd rfl (refused _)
      · exact fun _ => ⟨_, rfl⟩
    · exact fun _ => ⟨_, rfl⟩

/-- What both decoders undo, and what they refuse by design: the empty segment, stray characters
    in a segment, characters that are not ASCII. -/
theorem url_safe_decoding :
    (∀ x, urlsafeB64decode (encode urlAlphabet x) = .ok x) ∧
    (∀ x, decodeBase64Url (encode urlAlphabet x) = if x = [] then parseError .emptySegment else .ok x) ∧
    (∀ s, HasStray (fun c => UrlChar c ∨ c = 0x2B ∨ c = 0x2F) s →
      ∃ e, decodeBase64Url s = parseError e) ∧
    ∀ s : Text, (∃ c ∈ s, 0x80 ≤ c) → urlsafeB64decode s = .error .notAscii := by
  refine ⟨urlsafeB64decode_encode, ?_, ?_, ?_⟩
  · intro x
    split
    · rename_i empty
      rw [empty]
      rfl
    · rename_i given
      exact decodeBase64Url_encode given
  · rintro s ⟨c, member, stray⟩
    apply decodeBase64Url_raises
    intro out ok
    exact stray (decodeBase64Url_plain ok c member)
  · rintro s ⟨c, member, high⟩
    rw [urlsafeB64decode, if_neg]
    intro ascii
    rw [List.all_eq_true] at ascii
    have low := of_decide_eq_true (ascii c (List.mem_append_left _ member))
    exact absurd low (UInt8.not_lt.mpr high)

/-- The empty encoding is no segment; `+` and `/` pass for `-` and `_`; white space is skipped. -/
theorem not_url_safe_only :
    ¬ (∀ x, decodeBase64Url (encode urlAlphabet x) = .ok x) ∧
    ¬ (∀ s, HasStray UrlChar s → ∃ e, decodeBase64Url s = parseError e) ∧
    ¬ ∀ s, HasStray UrlChar s → ∃ e, urlsafeB64decode s = .error e := by
  have standard : decodeBase64Url (utf8 "ab+/") = .ok [0x69, 0xBF, 0xBF] := rfl
  have spaced : urlsafeB64decode (utf8 "YW Jj") = .ok (utf8 "abc") := by decide
  refine ⟨?_, ?_, ?_⟩
  · intro inverts
    cases inverts []
  · intro refuses
    obtain ⟨e, refused⟩ := refuses (utf8 "ab+/") (by decide)
    cases standard.symm.trans refused
  · intro refuses
    obtain ⟨e, refused⟩ := refuses (utf8 "YW Jj") (by decide)
    cases spaced.symm.trans refused

end Crypto
