import VerifiableRag.Jwt.Scanning
import VerifiableRag.Jwt.Segments
import VerifiableRag.Jwt.Attestation
import VerifiableRag.Contracts.Settling

/-!
What the contract reads in a token whose payload is a compact JSON document.
-/
namespace VerifiableRag.TokenClaims
open Bytes Json

section Digits

def hexBytes : Text → List UInt8
  | a :: b :: rest => UInt8.ofNat (hexValue a * 16 + hexValue b) :: hexBytes rest
  | _ => []

theorem shift_digit (m : Nat) {n : Nat} (small : n ≤ 15) :
    BitVec.ofNat 256 m <<< 4 ||| BitVec.ofNat 256 n = BitVec.ofNat 256 (m * 16 + n) := by
  have room : (m % 2 ^ 256) <<< 4 % 2 ^ 256 = (m % 2 ^ 252) <<< 4 := by
    rw [Nat.shiftLeft_eq, Nat.shiftLeft_eq]
    omega
  apply BitVec.eq_of_toNat_eq
  rw [BitVec.toNat_or, BitVec.toNat_shiftLeft, BitVec.toNat_ofNat, BitVec.toNat_ofNat,
    BitVec.toNat_ofNat, room, Nat.mod_eq_of_lt (show n < 2 ^ 256 by omega),
    ← Nat.shiftLeft_add_eq_or_of_lt (show n < 2 ^ 4 by omega), Nat.shiftLeft_eq]
  omega

theorem hexWord_cons {n m : Nat} {c : UInt8} {rest : Text} {w : Word} :
    hexWord (n + 1) (c :: rest) (BitVec.ofNat 256 m) = some w ↔ hexValue c ≤ 15 ∧
      hexWord n rest (BitVec.ofNat 256 (m * 16 + hexValue c)) = some w := by
  rw [hexWord]
  split
  · rename_i large
    simp only [reduceCtorEq, false_iff, not_and]
    omega
  · rename_i small
    rw [shift_digit m (by omega)]
    simp only [iff_and_self]
    omega

theorem hexBytes_length : ∀ {n : Nat} {hex : Text}, hex.length = 2 * n → (hexBytes hex).length = n
  | 0, [], _ => rfl
  | n + 1, [_], size => by simp at size; omega
  | n + 1, a :: b :: rest, size => by
    have rest_size : rest.length = 2 * n := by
      simp only [List.length_cons] at size
      omega
    rw [hexBytes, List.length_cons, hexBytes_length rest_size]

theorem decode_hexBytes {a b : UInt8} {hex : Text} (small_a : hexValue a ≤ 15)
    (small_b : hexValue b ≤ 15) : decode (hexBytes (a :: b :: hex)) =
      (hexValue a * 16 + hexValue b) * 256 ^ (hexBytes hex).length + decode (hexBytes hex) := by
  have byte : decode [UInt8.ofNat (hexValue a * 16 + hexValue b)] = hexValue a * 16 + hexValue b := by
    simp only [decode, List.reverse_singleton, List.map_cons, List.map_nil, Nat.ofDigits_singleton,
      UInt8.toNat_ofNat']
    omega
  rw [hexBytes, ← List.singleton_append, decode_append, byte]

theorem hexWord_pairs {n m : Nat} {s : Text} {w : Word} :
    hexWord (2 * n) s (BitVec.ofNat 256 m) = some w ↔
      ∃ hex tail, s = hex ++ tail ∧ hex.length = 2 * n ∧ (∀ c ∈ hex, hexValue c ≤ 15) ∧
        w = BitVec.ofNat 256 (m * 256 ^ n + decode (hexBytes hex)) := by
  induction n generalizing s m with
  | zero =>
    constructor
    · intro ok
      exact ⟨[], s, rfl, rfl, by simp, by simpa [hexWord, hexBytes, decode, eq_comm] using ok⟩
    · rintro ⟨hex, tail, rfl, size, _, rfl⟩
      rw [List.eq_nil_of_length_eq_zero size]
      simp [hexWord, hexBytes, decode]
  | succ n ih =>
    rw [show 2 * (n + 1) = 2 * n + 1 + 1 by omega]
    have total : ∀ a b : UInt8, ∀ hex : Text, hexValue a ≤ 15 → hexValue b ≤ 15 → hex.length = 2 * n →
        ((m * 16 + hexValue a) * 16 + hexValue b) * 256 ^ n + decode (hexBytes hex) =
          m * 256 ^ (n + 1) + decode (hexBytes (a :: b :: hex)) := by
      intro a b hex small_a small_b size
      rw [decode_hexBytes small_a small_b, hexBytes_length size]
      ring
    constructor
    · intro ok
      cases s with
      | nil => cases ok
      | cons a s =>
        rw [hexWord_cons] at ok
        cases s with
        | nil => cases ok.2
        | cons b rest =>
          rw [hexWord_cons, ih] at ok
          obtain ⟨small_a, small_b, hex, tail, rfl, size, digits, rfl⟩ := ok
          refine ⟨a :: b :: hex, tail, rfl, by simp [size], ?_,
            by rw [total a b hex small_a small_b size]⟩
          simpa [small_a, small_b] using digits
    · rintro ⟨hex, tail, rfl, size, digits, rfl⟩
      obtain ⟨a, b, hex, rfl⟩ : ∃ a b hex', hex = a :: b :: hex' := by
        cases hex with
        | nil => simp at size
        | cons a hex =>
          cases hex with
          | nil => simp at size
          | cons b hex => exact ⟨a, b, hex, rfl⟩
      have size : hex.length = 2 * n := by simpa using size
      simp only [List.forall_mem_cons] at digits
      obtain ⟨small_a, small_b, digits⟩ := digits
      rw [List.cons_append, List.cons_append, hexWord_cons, hexWord_cons, ih]
      exact ⟨small_a, small_b, hex, tail, rfl, size, digits,
        by rw [total a b hex small_a small_b size]⟩

end Digits

section Readings

/-- A `swname` member with an unescaped value stands somewhere in the text. -/
def ShowsSwname (doc : Doc) : Prop :=
  ∃ post, Found (utf8 "swname") (utf8 ":\"CONFIDENTIAL_SPACE\"") doc.tokens post

def hexDigest (hex : Text) : Word := Word.ofBytes (hexBytes hex)

/-- The first literal that ends in the quoted `image_digest` is a name, and the digits of
    its value spell the digest. -/
def ShowsDigest (doc : Doc) (digest : Word) : Prop :=
  ∃ post hex tail, Found (utf8 "image_digest") [] doc.tokens post ∧
    render post = utf8 ":\"sha256:" ++ (hex ++ tail) ∧ hex.length = 64 ∧
    (∀ c ∈ hex, hexValue c ≤ 15) ∧ digest = hexDigest hex

theorem hexWord_hexDigest {s : Text} {w : Word} : hexWord 64 s 0 = some w ↔
    ∃ hex tail, s = hex ++ tail ∧ hex.length = 64 ∧ (∀ c ∈ hex, hexValue c ≤ 15) ∧
      w = hexDigest hex := by
  have digits := @hexWord_pairs 32 0 s w
  simp only [Nat.zero_mul, Nat.zero_add] at digits
  exact digits

theorem searchable_of_all {word : Text} (plain : word.all (fun c => c ≠ 0x22 ∧ c ≠ 0x5C) = true)
    (start : ∃ c t, word = c :: t ∧ ¬ Mark c) : Searchable word :=
  ⟨by simpa using plain, start⟩

theorem swname_searchable : Searchable (utf8 "swname") :=
  searchable_of_all (by decide) ⟨_, _, rfl, by decide⟩

theorem image_digest_searchable : Searchable (utf8 "image_digest") :=
  searchable_of_all (by decide) ⟨_, _, rfl, by decide⟩

theorem hasSwname_source (doc : Doc) : hasSwname doc.source = true ↔ ShowsSwname doc := by
  have needle : utf8 "\"swname\":\"CONFIDENTIAL_SPACE\"" =
      0x22 :: (utf8 "swname" ++ 0x22 :: utf8 ":\"CONFIDENTIAL_SPACE\"") := by decide
  have found : ∀ u, after (utf8 "\"swname\":\"CONFIDENTIAL_SPACE\"") doc.source = some u ↔
      ∃ post, Found (utf8 "swname") (utf8 ":\"CONFIDENTIAL_SPACE\"") doc.tokens post ∧
        u = (render post).drop (utf8 ":\"CONFIDENTIAL_SPACE\"").length := by
    intro u
    rw [needle]
    exact after_render swname_searchable doc.tokens_separated
  rw [hasSwname, Option.isSome_iff_ne_none, ne_eq, indexOf_none (by decide), ← ne_eq,
    ← Option.isSome_iff_ne_none, Option.isSome_iff_exists]
  constructor
  · rintro ⟨u, hit⟩
    obtain ⟨post, hit, _⟩ := (found u).mp hit
    exact ⟨post, hit⟩
  · rintro ⟨post, hit⟩
    exact ⟨_, (found _).mpr ⟨post, hit, rfl⟩⟩

def readDigest (rest : Text) : Option Word :=
  if (utf8 ":\"sha256:").isPrefixOf rest then hexWord 64 (rest.drop 9) 0 else none

theorem extractImageDigest_after (json : Text) :
    extractImageDigest json = (after (utf8 "\"image_digest\"") json).bind readDigest := by
  have nonempty : utf8 "\"image_digest\"" ≠ [] := by decide
  have opening : utf8 ":\"sha256:" = 0x3A :: 0x22 :: utf8 "sha256:" := by decide
  cases found : indexOf json (utf8 "\"image_digest\"") 0 with
  | none =>
    rw [(indexOf_none nonempty).mp found, extractImageDigest, found]
    rfl
  | some k =>
    rw [indexOf_some nonempty found, Option.bind_some, readDigest, opening, extractImageDigest, found]
    generalize start : k + (utf8 "\"image_digest\"").length = p
    have colon : json[p]? = (json.drop p)[0]? := by rw [List.getElem?_drop]; rfl
    have quote : json[p + 1]? = (json.drop p)[1]? := by rw [List.getElem?_drop]
    have tail : json.drop (p + 2) = (json.drop p).drop 2 := by rw [List.drop_drop]
    have digits : json.drop (p + 2 + (utf8 "sha256:").length) = (json.drop p).drop 9 := by
      rw [List.drop_drop]
      rfl
    simp only [Option.bind_eq_bind, Option.bind_some, start, colon, quote, tail, digits]
    match json.drop p with
    | [] => rfl
    | [a] => simp [List.isPrefixOf]
    | a :: b :: rest =>
      simp only [List.getElem?_cons_zero, List.getElem?_cons_succ, List.drop_succ_cons, List.drop_zero,
        List.isPrefixOf_cons_cons, ne_eq, Option.some.injEq]
      by_cases colon : a = 0x3A
      · by_cases quote : b = 0x22
        · cases (utf8 "sha256:").isPrefixOf rest <;> simp [colon, quote]
        · simp [quote, Ne.symm quote]
      · simp [colon, Ne.symm colon]

theorem readDigest_some {rest : Text} {digest : Word} : readDigest rest = some digest ↔
    ∃ hex tail, rest = utf8 ":\"sha256:" ++ (hex ++ tail) ∧ hex.length = 64 ∧
      (∀ c ∈ hex, hexValue c ≤ 15) ∧ digest = hexDigest hex := by
  rw [readDigest]
  split
  · rename_i here
    obtain ⟨u, rfl⟩ := List.isPrefixOf_iff_prefix.mp here
    rw [List.drop_left' (by decide), hexWord_hexDigest]
    simp only [List.append_cancel_left_eq]
  · rename_i elsewhere
    simp only [reduceCtorEq, false_iff]
    rintro ⟨hex, tail, rfl, _⟩
    exact elsewhere (List.isPrefixOf_iff_prefix.mpr ⟨_, rfl⟩)

theorem extractImageDigest_source (doc : Doc) (digest : Word) :
    extractImageDigest doc.source = some digest ↔ ShowsDigest doc digest := by
  have needle : utf8 "\"image_digest\"" = 0x22 :: (utf8 "image_digest" ++ 0x22 :: []) := by decide
  rw [extractImageDigest_after, Option.bind_eq_some_iff, needle]
  constructor
  · rintro ⟨u, hit, read⟩
    obtain ⟨post, found, rfl⟩ := (after_render image_digest_searchable doc.tokens_separated).mp hit
    obtain ⟨hex, tail, digits⟩ := readDigest_some.mp read
    exact ⟨post, hex, tail, found, digits⟩
  · rintro ⟨post, hex, tail, found, digits⟩
    exact ⟨render post, (after_render image_digest_searchable doc.tokens_separated).mpr
      ⟨post, found, rfl⟩, readDigest_some.mpr ⟨hex, tail, digits⟩⟩

end Readings

section Tokens

theorem scan_dot {pre rest : Text} (apart : 0x2E ∉ pre) (i : Nat) :
    scan (utf8 ".") i (pre ++ 0x2E :: rest) = some (i + pre.length) := by
  induction pre generalizing i with
  | nil => rfl
  | cons c pre ih =>
    rw [List.mem_cons, not_or] at apart
    have other : ¬ (utf8 ".").isPrefixOf (c :: (pre ++ 0x2E :: rest)) = true := by
      rw [show utf8 "." = [0x2E] by decide, List.isPrefixOf_cons_cons, Bool.and_eq_true, beq_iff_eq]
      exact fun here => apart.1 here.1
    rw [List.cons_append, scan, if_neg other, ih apart.2, List.length_cons]
    congr 1
    omega

theorem jwtPayload_parts {first second rest : Text} (apart : 0x2E ∉ first) (apart' : 0x2E ∉ second)
    (given : second ≠ []) :
    jwtPayload (first ++ 0x2E :: (second ++ 0x2E :: rest)) = b64UrlDecode second := by
  have dot : (utf8 ".").isEmpty = false := by decide
  have tail : (first ++ 0x2E :: (second ++ 0x2E :: rest)).drop (first.length + 1) =
      second ++ 0x2E :: rest := by
    rw [← List.drop_drop, List.drop_left, List.drop_one, List.tail_cons]
  have size : 0 < second.length := List.length_pos_iff.mpr given
  simp only [jwtPayload, indexOf, dot, Bool.false_eq_true, if_false, List.drop_zero, scan_dot apart,
    Nat.zero_add, Option.bind_eq_bind, Option.bind_some, tail, scan_dot apart']
  rw [if_neg (by omega), Nat.add_sub_cancel_left, List.take_left]

/-- A token of three parts whose payload decodes to the compact text of a document. -/
structure Carries (token segment : Text) (doc : Doc) : Prop where
  parts : ∃ header signature, PyStr.split 0x2E (PyStr.strip token) = [header, segment, signature]
  payload : Jwt.decodeBase64Url segment = .ok doc.source

/-- The contract's reading of a token in terms of its document. -/
structure Shows (segment : Text) (doc : Doc) (digest : Word) : Prop where
  url : ∀ c ∈ segment, ¬ StandardOnly c
  swname : ShowsSwname doc
  digest : ShowsDigest doc digest

theorem decodeBase64Url_ok {segment bytes : Text} (ok : Jwt.decodeBase64Url segment = .ok bytes) :
    segment ≠ [] ∧ ∃ m, Base64.b64decodeUrl (segment ++ List.replicate m 0x3D) = some bytes := by
  unfold Jwt.decodeBase64Url at ok
  split at ok
  · cases ok
  · rename_i given
    dsimp only at ok
    split at ok
    · split at ok
      · rename_i decoded
        cases ok
        exact ⟨given, _, decoded⟩
      · cases ok
    · cases ok

theorem Carries.jwtPayload_some {token segment : Text} {doc : Doc}
    (carries : Carries token segment doc) (json : Text) :
    jwtPayload token = some json ↔ (∀ c ∈ segment, ¬ StandardOnly c) ∧ json = doc.source := by
  obtain ⟨header, signature, shape⟩ := carries.parts
  obtain ⟨given, m, decoded⟩ := decodeBase64Url_ok carries.payload
  obtain ⟨left, right, same, outer, _⟩ := PyStr.strip_split (P := (· ≠ 0x2E)) (by decide +kernel) token
  obtain ⟨tail, stripped, apart, next⟩ := PyStr.split_cons shape (by simp)
  obtain ⟨signature', rfl, apart', _⟩ := PyStr.split_cons next (by simp)
  have outside : 0x2E ∉ left ++ header := by
    rw [List.mem_append]
    rintro (here | here)
    · exact outer _ here rfl
    · exact apart here
  have whole : token = (left ++ header) ++ 0x2E :: (segment ++ 0x2E :: (signature' ++ right)) := by
    rw [same, stripped]
    simp
  rw [whole, jwtPayload_parts outside apart' given, b64UrlDecode_of_python decoded]

theorem Carries.tokenDigest_ok {token segment : Text} {doc : Doc}
    (carries : Carries token segment doc) (digest : Word) :
    tokenDigest token = .ok digest ↔ Shows segment doc digest := by
  rw [VerifiableRag.tokenDigest_ok]
  constructor
  · rintro ⟨json, payload, swname, extracted⟩
    obtain ⟨url, rfl⟩ := (carries.jwtPayload_some json).mp payload
    exact ⟨url, (hasSwname_source doc).mp swname, (extractImageDigest_source doc digest).mp extracted⟩
  · rintro ⟨url, swname, shown⟩
    exact ⟨doc.source, (carries.jwtPayload_some _).mpr ⟨url, rfl⟩, (hasSwname_source doc).mpr swname,
      (extractImageDigest_source doc digest).mpr shown⟩

end Tokens

end VerifiableRag.TokenClaims
