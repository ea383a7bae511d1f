import VerifiableRag.Graph.KnowledgeGraph
import VerifiableRag.Library.UniqueReading
import VerifiableRag.Processor.PublicWords

/-!
The texts that `H_out` is the digest of: `serde_json` on the matches of a document and, in
`graph_output_to_field`, on a path of the knowledge graph.
-/
namespace RagEngine
open Bytes Json

section Writers

def writeSpan (s : Span) : Text :=
  utf8 "\x7b\"start\":" ++ natText s.start ++ (utf8 ",\"end\":" ++ natText s.stop) ++ [0x7D]

def writeMatch (m : GraphMatch) : Text :=
  utf8 "\x7b\"subject\":" ++ natText m.subject ++ (utf8 ",\"object\":" ++ natText m.object ++
    (utf8 ",\"predicate\":" ++ quoted m.predicate ++ (utf8 ",\"span\":" ++ writeSpan m.span))) ++ [0x7D]

/-- `serde_json::to_vec(&matches)`. -/
def toVec (found : List GraphMatch) : Text := writeArray writeMatch found

def writeRelation (r : Relation) : Text :=
  utf8 "\x7b\"subject\":" ++ natText r.subject ++ (utf8 ",\"predicate\":" ++ quoted (utf8 r.predicate) ++
    (utf8 ",\"object\":" ++ natText r.object)) ++ [0x7D]

/-- `serde_json::to_string(path)`. -/
def pathText (p : Path) : Text :=
  utf8 "\x7b\"subject\":" ++ natText p.subject ++ (utf8 ",\"predicate\":" ++ quoted (utf8 p.predicate) ++
    (utf8 ",\"entities\":" ++ writeArray natText p.entities ++
      (utf8 ",\"depths\":" ++ writeArray natText p.depths ++
        (utf8 ",\"relations\":" ++ writeArray writeRelation p.relations ++
          (utf8 ",\"relation_depths\":" ++ writeArray natText p.relationDepths))))) ++ [0x7D]

def graphOutputToField (sha256 : List UInt8 → Block 32) (path : Path) : Fp :=
  digestToField sha256 (pathText path)

end Writers

section Reading

theorem writeSpan_cancels : Cancels writeSpan := by
  have fields := (natText_cancels.keyed (utf8 "\x7b\"start\":")).both
    (natText_cancels.keyed (utf8 ",\"end\":")) fun b x => noDigit_cons (by decide)
  refine (fields.closed 0x7D rfl).of (fun s : Span => (s.start, s.stop)) ?_
  rintro ⟨start, stop⟩ ⟨start', stop'⟩ same
  cases same
  rfl

theorem writeMatch_cancels : Cancels writeMatch := by
  have last := (quoted_cancels.keyed (utf8 ",\"predicate\":")).both
    (writeSpan_cancels.keyed (utf8 ",\"span\":")) fun b x => noDigit_cons (by decide)
  have inner := (natText_cancels.keyed (utf8 ",\"object\":")).both last
    fun b x => noDigit_cons (by decide)
  have fields := (natText_cancels.keyed (utf8 "\x7b\"subject\":")).both inner
    fun b x => noDigit_cons (by decide)
  refine (fields.closed 0x7D rfl).of
    (fun m : GraphMatch => (m.subject, m.object, m.predicate, m.span)) ?_
  rintro ⟨subject, object, predicate, span⟩ ⟨subject', object', predicate', span'⟩ same
  cases same
  rfl

theorem toVec_injective : Function.Injective toVec := by
  have opens : ∀ (m : GraphMatch) (x : Text), (writeMatch m ++ x).head? ≠ some 0x5D := by
    intro m x head
    cases head
  exact (writeArray_cancels writeMatch_cancels opens).injective

theorem writeRelation_cancels : Cancels writeRelation := by
  have inner :=
    ((quoted_cancels.of utf8 fun _ _ => utf8_injective).keyed (utf8 ",\"predicate\":")).both
    (natText_cancels.keyed (utf8 ",\"object\":")) fun b x => noDigit_cons (by decide)
  have fields := (natText_cancels.keyed (utf8 "\x7b\"subject\":")).both inner
    fun b x => noDigit_cons (by decide)
  refine (fields.closed 0x7D rfl).of (fun r : Relation => (r.subject, r.predicate, r.object)) ?_
  rintro ⟨subject, predicate, object⟩ ⟨subject', predicate', object'⟩ same
  cases same
  rfl

theorem pathText_injective : Function.Injective pathText := by
  have ids := writeArray_cancels natText_cancels natText_opens
  have opens : ∀ (r : Relation) (x : Text), (writeRelation r ++ x).head? ≠ some 0x5D := by
    intro r x head
    cases head
  have relations := writeArray_cancels writeRelation_cancels opens
  have depths := (relations.keyed (utf8 ",\"relations\":")).both
    (ids.keyed (utf8 ",\"relation_depths\":")) fun b x => noDigit_cons (by decide)
  have later := (ids.keyed (utf8 ",\"depths\":")).both depths fun b x => noDigit_cons (by decide)
  have entities := (ids.keyed (utf8 ",\"entities\":")).both later
    fun b x => noDigit_cons (by decide)
  have inner :=
    ((quoted_cancels.of utf8 fun _ _ => utf8_injective).keyed (utf8 ",\"predicate\":")).both
    entities fun b x => noDigit_cons (by decide)
  have fields := (natText_cancels.keyed (utf8 "\x7b\"subject\":")).both inner
    fun b x => noDigit_cons (by decide)
  refine ((fields.closed 0x7D rfl).of (fun p : Path =>
    (p.subject, p.predicate, p.entities, p.depths, p.relations, p.relationDepths)) ?_).injective
  rintro ⟨subject, predicate, entities, depths, relations, relationDepths⟩
    ⟨subject', predicate', entities', depths', relations', relationDepths'⟩ same
  cases same
  rfl

end Reading

section Commitment
variable {sha256 : List UInt8 → Block 32}

/-- Two texts whose digests are the same element of the field. -/
def Collide (sha256 : List UInt8 → Block 32) (a b : List UInt8) : Prop :=
  a ≠ b ∧ decode (sha256 a).toList % pastaModulus = decode (sha256 b).toList % pastaModulus

theorem digestToField_commits {a b : List UInt8}
    (same : digestToField sha256 a = digestToField sha256 b) :
    a = b ∨ Collide sha256 a b := by
  by_cases equal : a = b
  · exact Or.inl equal
  · right
    refine ⟨equal, ?_⟩
    rw [← digestToField_val, ← digestToField_val, same]

theorem written_commits {α : Type} {write : α → List UInt8} (injective : Function.Injective write)
    {a b : α} (same : digestToField sha256 (write a) = digestToField sha256 (write b)) :
    a = b ∨ Collide sha256 (write a) (write b) :=
  (digestToField_commits same).imp_left fun equal => injective equal

end Commitment

end RagEngine

namespace Processor
open Bytes CodePoints Json Jwt RagEngine Results

variable {system : ProofSystem} {toBytes32 : Text → Option Word} {token token' : AttestationToken}
  {document document' prompt prompt' : List UInt8}

theorem submitted_fields
    (encodes : ∀ b : Block 32, toBytes32 (utf8 "0x" ++ hex b.toList) = some (Word.ofBytes b.toList))
    {sent : VerifiableRag.AttestationProof}
    (submitted : submittedProof system toBytes32 token document prompt = some sent) :
    ∃ found evidenceJson, Evidence document found ∧ system.toVec found = .ok evidenceJson ∧
      sent.publicInputs.toList = [document, prompt, evidenceJson].map fun part =>
        Word.ofBytes (system.toRepr (digestToField system.sha256 part)).toList := by
  obtain ⟨record, generated, encoded⟩ := Option.bind_eq_some_iff.mp submitted
  obtain ⟨found, evidenceJson, evidence, serialized, inputs⟩ :=
    generateAttestationProof_ok (toOption_some.mp generated)
  refine ⟨found, evidenceJson, evidence, serialized, ?_⟩
  rw [encoded_words encodes encoded, inputs, List.map_map]
  rfl

/-- The word of a part determines its field element. -/
theorem word_field (faithful : Function.Injective system.toRepr) {x y : Fp}
    (same : Word.ofBytes (system.toRepr x).toList = Word.ofBytes (system.toRepr y).toList) :
    x = y := by
  have bytes := congrArg Word.bytes same
  rw [Word.bytes_ofBytes (system.toRepr x).toList_length,
    Word.bytes_ofBytes (system.toRepr y).toList_length] at bytes
  exact faithful (List.Vector.toList_injective bytes)

/-- Equal words on chain come from the same document, the same prompt and the same matches, if
    the digests of two of their texts do not collide in the field; so do equal digests of paths. -/
theorem public_words_commit (writes : ∀ found, system.toVec found = .ok (toVec found))
    (faithful : Function.Injective system.toRepr)
    (encodes : ∀ b : Block 32, toBytes32 (utf8 "0x" ++ hex b.toList) = some (Word.ofBytes b.toList))
    {sent sent' : VerifiableRag.AttestationProof}
    (submitted : submittedProof system toBytes32 token document prompt = some sent)
    (submitted' : submittedProof system toBytes32 token' document' prompt' = some sent')
    (same : sent.publicInputs = sent'.publicInputs) :
    (document = document' ∨ Collide system.sha256 document document') ∧
    (prompt = prompt' ∨ Collide system.sha256 prompt prompt') ∧
    (∃ found found', Evidence document found ∧ Evidence document' found' ∧
      (found = found' ∨ Collide system.sha256 (toVec found) (toVec found'))) ∧
    ∀ path path' : Path,
      graphOutputToField system.sha256 path = graphOutputToField system.sha256 path' →
      path = path' ∨ Collide system.sha256 (pathText path) (pathText path') := by
  obtain ⟨found, evidenceJson, evidence, serialized, words⟩ := submitted_fields encodes submitted
  obtain ⟨found', evidenceJson', evidence', serialized', words'⟩ :=
    submitted_fields encodes submitted'
  cases (writes found).symm.trans serialized
  cases (writes found').symm.trans serialized'
  rw [same, words'] at words
  simp only [List.map_cons, List.map_nil, List.cons.injEq, and_true] at words
  obtain ⟨docs, prompts, outs⟩ := words
  exact ⟨digestToField_commits (word_field faithful docs.symm),
    digestToField_commits (word_field faithful prompts.symm),
    ⟨found, found', evidence, evidence',
      written_commits toVec_injective (word_field faithful outs.symm)⟩,
    fun _ _ paths => written_commits pathText_injective paths⟩

section Sample

/-- The sample engine with the texts of `serde_json`. -/
def writingSystem : ProofSystem := { sampleSystem with toVec := fun found => .ok (toVec found) }

theorem writingSystem_faithful : Function.Injective writingSystem.toRepr := by
  have modulus : NeZero pastaModulus := ⟨by decide⟩
  intro x y same
  have bytes : littleEndian 32 x.val = littleEndian 32 y.val := congrArg List.Vector.toList same
  have value (z : Fp) : decode (littleEndian 32 z.val).reverse = z.val := by
    have back := decode_encode 32 z.val
    rwa [Nat.mod_eq_of_lt (lt_trans (ZMod.val_lt z) (by decide)), encode] at back
  exact ZMod.val_injective _ (by rw [← value x, bytes, value y])

theorem public_words_commit_sample : ∃ token sent,
    submittedProof writingSystem hexToBytes32 token sampleDocument samplePrompt = some sent ∧
    toVec [⟨0, 1, relatedTo, ⟨0, 1⟩⟩] = sampleEvidence ∧
    ∃ found found', Evidence sampleDocument found ∧ Evidence sampleDocument found' ∧
      (found = found' ∨ Collide writingSystem.sha256 (toVec found) (toVec found')) := by
  have runs : ((parseToken samplePython (tokenOf plainSegment) none none).toOption.bind fun token =>
      submittedProof writingSystem hexToBytes32 token sampleDocument samplePrompt).isSome := by
    decide +kernel
  obtain ⟨sent, runs⟩ := Option.isSome_iff_exists.mp runs
  obtain ⟨token, _, submitted⟩ := Option.bind_eq_some_iff.mp runs
  exact ⟨token, sent, submitted, by decide +kernel,
    (public_words_commit (fun _ => rfl) writingSystem_faithful hexToBytes32_hex submitted submitted
      rfl).2.2.1⟩

end Sample

end Processor
