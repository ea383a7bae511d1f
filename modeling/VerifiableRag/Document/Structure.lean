import VerifiableRag.Document.Ast
import VerifiableRag.Document.Lexing
import VerifiableRag.Library.Splitting

/-!
What `parse` builds: the terms of the document, grouped by its blank lines and sentence ends.
-/
namespace RagEngine
open Splitting

namespace Token

def isTerm (t : Token) : Bool := t.kind = .word ∨ t.kind = .number

/-- White space with at least two newlines. -/
def blankLine (t : Token) : Bool := t.kind = .whitespace ∧ 2 ≤ t.lexeme.count 0x0A

end Token

/-- The sentences of a block: the terms between sentence ends. -/
def sentenceTerms (block : List Token) : List (List Token) :=
  dropEmpty ((block.splitOnP Token.endsSentence).map (List.filter Token.isTerm))

/-- The sections of a document: its sentences between blank lines. -/
def outline (tokens : List Token) : List (List (List Token)) :=
  dropEmpty ((tokens.splitOnP Token.blankLine).map sentenceTerms)

def Sentence.Spanned (s : Sentence) : Prop :=
  s.span = ⟨(s.terms.head s.nonempty).start, (s.terms.getLast s.nonempty).stop⟩

structure Section.Spanned (s : Section) : Prop where
  span : s.span =
    ⟨(s.sentences.head s.nonempty).span.start, (s.sentences.getLast s.nonempty).span.stop⟩
  sentences : ∀ sentence ∈ s.sentences, sentence.Spanned

def Section.outline (s : Section) : List (List Token) := s.sentences.map Sentence.terms

namespace ParseState
variable {st : ParseState}

/-- The parts of a document that lie behind the loop, and the open ones. -/
structure Progress (tokens : List Token) (st : ParseState) : Prop where
  cut : ∃ blocks block parts part, tokens.splitOnP Token.blankLine = blocks ++ [block] ∧
    block.splitOnP Token.endsSentence = parts ++ [part] ∧
    st.sections.map Section.outline = dropEmpty (blocks.map sentenceTerms) ∧
    st.sentences.map Sentence.terms = dropEmpty (parts.map (List.filter Token.isTerm)) ∧
    st.terms = part.filter Token.isTerm
  newlines : st.newlineRun = 0 ∨ ∃ t ∈ tokens.getLast?, t.kind = .whitespace
  sentences : ∀ s ∈ st.sentences, s.Spanned
  sections : ∀ s ∈ st.sections, s.Spanned

section Flush

theorem flushSentence_terms (st : ParseState) : st.flushSentence.terms = [] := by
  rw [flushSentence]
  split
  · assumption
  · rfl

theorem flushSentence_sections (st : ParseState) : st.flushSentence.sections = st.sections := by
  rw [flushSentence]
  split <;> rfl

theorem flushSentence_sentences (st : ParseState) : st.flushSentence.sentences.map Sentence.terms =
    st.sentences.map Sentence.terms ++ dropEmpty [st.terms] := by
  rw [flushSentence]
  split
  · rename_i empty
    rw [empty, dropEmpty_nil, List.append_nil]
  · rename_i first rest terms
    rw [List.map_append, dropEmpty_singleton (by simp [terms])]
    rfl

theorem flushSentence_spanned (spanned : ∀ s ∈ st.sentences, s.Spanned) :
    ∀ s ∈ st.flushSentence.sentences, s.Spanned := by
  rw [flushSentence]
  split
  · exact spanned
  · rename_i first rest terms
    intro s member
    rcases List.mem_append.mp member with old | new
    · exact spanned s old
    · rw [List.mem_singleton.mp new, Sentence.Spanned]
      simp only [terms, List.head_cons]

theorem flushSection_sentences (st : ParseState) : st.flushSection.sentences = [] := by
  rw [flushSection]
  split
  · assumption
  · rfl

theorem flushSection_terms (st : ParseState) : st.flushSection.terms = st.terms := by
  rw [flushSection]
  split <;> rfl

theorem flushSection_sections (st : ParseState) : st.flushSection.sections.map Section.outline =
    st.sections.map Section.outline ++ dropEmpty [st.sentences.map Sentence.terms] := by
  rw [flushSection]
  split
  · rename_i empty
    rw [empty, List.map_nil, dropEmpty_nil, List.append_nil]
  · rename_i first rest sentences
    rw [List.map_append, dropEmpty_singleton (by simp [sentences])]
    rfl

theorem flushSection_spanned (sentences : ∀ s ∈ st.sentences, s.Spanned)
    (sections : ∀ s ∈ st.sections, s.Spanned) : ∀ s ∈ st.flushSection.sections, s.Spanned := by
  rw [flushSection]
  split
  · exact sections
  · rename_i first rest pending
    intro s member
    rcases List.mem_append.mp member with old | new
    · exact sections s old
    · rw [List.mem_singleton.mp new]
      refine ⟨?_, sentences⟩
      simp only [pending, List.head_cons]

end Flush

section Steps
variable {tokens : List Token} {tok : Token}

theorem progress_start : Progress [] ⟨[], [], [], 0⟩ where
  cut := ⟨[], [], [], [], rfl, rfl, rfl, rfl, rfl⟩
  newlines := Or.inl rfl
  sentences := nofun
  sections := nofun

/-- A token that ends nothing. -/
theorem Progress.inside (progress : Progress tokens st) (tok : Token) (run : Nat)
    (within : tok.endsSentence = false) (same_block : tok.blankLine = false)
    (newlines : run = 0 ∨ tok.kind = .whitespace) :
    Progress (tokens ++ [tok])
      { st with terms := st.terms ++ [tok].filter Token.isTerm, newlineRun := run } where
  cut := by
    obtain ⟨blocks, block, parts, part, cut, cut', sections, sentences, terms⟩ := progress.cut
    refine ⟨blocks, block ++ [tok], parts, part ++ [tok], splitOnP_snoc same_block cut,
      splitOnP_snoc within cut', sections, sentences, ?_⟩
    rw [List.filter_append, ← terms]
  newlines := newlines.imp_right fun space => ⟨tok, by simp, space⟩
  sentences := progress.sentences
  sections := progress.sections

theorem Progress.sentenceEnd (progress : Progress tokens st) (ends : tok.endsSentence)
    (same_block : tok.blankLine = false) :
    Progress (tokens ++ [tok]) { st.flushSentence with newlineRun := 0 } where
  cut := by
    obtain ⟨blocks, block, parts, part, cut, cut', sections, sentences, terms⟩ := progress.cut
    refine ⟨blocks, block ++ [tok], parts ++ [part], [], splitOnP_snoc same_block cut, ?_, ?_, ?_, ?_⟩
    · rw [splitOnP_snoc_sep ends, cut']
    · dsimp only
      rw [flushSentence_sections, sections]
    · dsimp only
      rw [flushSentence_sentences, sentences, terms, List.map_append, dropEmpty_append]
      rfl
    · exact flushSentence_terms st
  newlines := Or.inl rfl
  sentences := flushSentence_spanned progress.sentences
  sections s member := progress.sections s (flushSentence_sections st ▸ member)

/-- Both flushes, as at a blank line and at the end of the input. -/
theorem Progress.flushed (progress : Progress tokens st) :
    st.flushSentence.flushSection.sections.map Section.outline = outline tokens ∧
      (∀ s ∈ st.flushSentence.flushSection.sections, s.Spanned) := by
  obtain ⟨blocks, block, parts, part, cut, cut', sections, sentences, terms⟩ := progress.cut
  have last : sentenceTerms block =
      dropEmpty (parts.map (List.filter Token.isTerm)) ++ dropEmpty [part.filter Token.isTerm] := by
    rw [sentenceTerms, cut', List.map_append, dropEmpty_append, List.map_singleton]
  constructor
  · rw [flushSection_sections, flushSentence_sections, flushSentence_sentences, sections, sentences,
      terms, ← last, outline, cut, List.map_append, dropEmpty_append, List.map_singleton]
  · exact flushSection_spanned (flushSentence_spanned progress.sentences) fun s member =>
      progress.sections s (flushSentence_sections st ▸ member)

theorem Progress.blank (progress : Progress tokens st) (blank : tok.blankLine) :
    Progress (tokens ++ [tok]) { st.flushSentence.flushSection with newlineRun := 0 } where
  cut := by
    refine ⟨tokens.splitOnP Token.blankLine, [], [], [], splitOnP_snoc_sep blank tokens,
      List.splitOnP_nil, progress.flushed.1, ?_, ?_⟩
    · dsimp only
      rw [flushSection_sentences]
      rfl
    · dsimp only
      rw [flushSection_terms, flushSentence_terms]
      rfl
  newlines := Or.inl rfl
  sentences s member := by
    rw [flushSection_sentences] at member
    cases member
  sections := progress.flushed.2

/-- One turn of the loop, behind a token that is not white space if this one is. -/
theorem Progress.push (progress : Progress tokens st)
    (alternates : tok.kind = .whitespace → ∀ t ∈ tokens.getLast?, t.kind ≠ .whitespace) :
    Progress (tokens ++ [tok]) (st.push tok) := by
  have quiet (other : tok.isTerm = false) : st.terms ++ [tok].filter Token.isTerm = st.terms := by
    rw [List.filter_singleton, other]
    exact List.append_nil st.terms
  cases kind : tok.kind with
  | word | number =>
    have term : [tok].filter Token.isTerm = [tok] := by simp [Token.isTerm, kind]
    have next := progress.inside tok 0 (by simp [Token.endsSentence, kind])
      (by simp [Token.blankLine, kind]) (Or.inl rfl)
    rw [term] at next
    simp only [ParseState.push, kind]
    exact next
  | punctuation =>
    have same_block : tok.blankLine = false := by simp [Token.blankLine, kind]
    simp only [ParseState.push, kind]
    split
    · rename_i ends
      exact progress.sentenceEnd (by simp [Token.endsSentence, kind, ends]) same_block
    · rename_i ends
      have next := progress.inside tok 0 (by simp [Token.endsSentence, ends]) same_block (Or.inl rfl)
      rw [quiet (by simp [Token.isTerm, kind])] at next
      exact next
  | symbol =>
    have next := progress.inside tok 0 (by simp [Token.endsSentence, kind])
      (by simp [Token.blankLine, kind]) (Or.inl rfl)
    rw [quiet (by simp [Token.isTerm, kind])] at next
    simp only [ParseState.push, kind]
    exact next
  | whitespace =>
    -- the run is empty: newlines are only pending behind white space
    have empty : st.newlineRun = 0 := by
      rcases progress.newlines with empty | ⟨t, last, space⟩
      · exact empty
      · exact absurd space (alternates kind t last)
    simp only [ParseState.push, kind, empty, Nat.zero_add]
    split
    · rename_i newlines
      exact progress.blank (by simp [Token.blankLine, kind, newlines])
    · rename_i newlines
      have next := progress.inside tok (tok.lexeme.count 0x0A) (by simp [Token.endsSentence, kind])
        (by simp [Token.blankLine, newlines]) (Or.inr kind)
      rw [quiet (by simp [Token.isTerm, kind])] at next
      exact next

/-- The whole loop over tokens without adjacent white space. -/
theorem progress_run
    (alternates : tokens.IsChain fun a b => ¬ (a.kind = .whitespace ∧ b.kind = .whitespace)) :
    Progress tokens (tokens.foldl ParseState.push ⟨[], [], [], 0⟩) := by
  induction tokens using List.reverseRecOn with
  | nil => exact progress_start
  | append_singleton tokens tok ih =>
    obtain ⟨earlier, _, joint⟩ := List.isChain_append.mp alternates
    rw [List.foldl_append]
    refine (ih earlier).push ?_
    intro space t last both
    exact joint t last tok rfl ⟨both, space⟩

end Steps

end ParseState

section Streams
variable {i : Nat} {s : List UInt8} {tokens : List Token}

/-- White space is one token. -/
theorem Stream.alternates (stream : Stream i s tokens) :
    tokens.IsChain fun a b => ¬ (a.kind = .whitespace ∧ b.kind = .whitespace) := by
  induction stream with
  | nil => exact .nil
  | @cons i kind lexeme rest tokens munch nonempty tail ih =>
    rw [List.isChain_cons]
    refine ⟨?_, ih⟩
    intro next first spaces
    cases tail with
    | nil => cases first
    | @cons _ kind' lexeme' rest' _ munch' nonempty' tail' =>
      cases first
      obtain ⟨rfl, rfl⟩ := spaces
      have run : InClass .whitespace (lexeme ++ lexeme') := by
        refine ⟨by simp [nonempty], ?_⟩
        intro c member
        rcases List.mem_append.mp member with here | there
        · exact munch.inClass.2 c here
        · exact munch'.inClass.2 c there
      have longest := (munch.longest _ _ run ⟨rest', by simp⟩).2
      have more := List.length_pos_iff.mpr nonempty'
      rw [List.length_append] at longest
      omega

theorem Stream.from_start (stream : Stream i s tokens) : ∀ t ∈ tokens, i ≤ t.start := by
  intro t member
  obtain ⟨front, _, _, start, _⟩ := stream.placed member
  omega

theorem Stream.ordered (stream : Stream i s tokens) :
    tokens.Pairwise fun a b => a.stop ≤ b.start := by
  induction stream with
  | nil => exact .nil
  | cons munch nonempty tail ih => exact List.pairwise_cons.mpr ⟨tail.from_start, ih⟩

theorem Stream.distinct (stream : Stream i s tokens) : tokens.Nodup := by
  rw [List.Nodup]
  apply stream.ordered.imp_of_mem
  intro a b member _ before same
  obtain ⟨_, _, _, start, stop, nonempty, _⟩ := stream.placed member
  have long := List.length_pos_iff.mpr nonempty
  rw [← same] at before
  omega

end Streams

namespace Document
variable {tokens : List Token} {d : Document}

def terms (d : Document) : List Token := d.sentences.flatMap Sentence.terms

end Document

def Section.terms (s : Section) : List Token := s.sentences.flatMap Sentence.terms

theorem sentenceTerms_flatten (block : List Token) :
    (sentenceTerms block).flatten = block.filter Token.isTerm := by
  rw [sentenceTerms, flatten_dropEmpty, ← List.flatMap_def]
  apply flatMap_filter_splitOnP
  intro t ends
  simp only [Token.endsSentence, decide_eq_true_eq] at ends
  simp [Token.isTerm, ends.1]

theorem outline_flatten (tokens : List Token) : (outline tokens).flatten =
    dropEmpty ((tokens.splitOnP fun t => t.blankLine || t.endsSentence).map
      (List.filter Token.isTerm)) := by
  rw [outline, flatten_dropEmpty, ← List.flatMap_def, ← splitOnP_splitOnP, List.map_flatMap, dropEmpty,
    List.filter_flatMap]
  rfl

/-- What a document says of a stream that it was parsed from. -/
structure Structured (tokens : List Token) (d : Document) : Prop where
  terms : d.terms = tokens.filter Token.isTerm
  same_sentence : ∀ front t mid u back, tokens = front ++ t :: (mid ++ u :: back) → t.isTerm →
    u.isTerm → (∀ m ∈ mid, m.isTerm = false) →
      ((∃ s ∈ d.sentences, t ∈ s.terms ∧ u ∈ s.terms) ↔
        ∀ m ∈ mid, m.endsSentence = false ∧ m.blankLine = false)
  same_section : ∀ front t mid u back, tokens = front ++ t :: (mid ++ u :: back) → t.isTerm →
    u.isTerm → (∀ m ∈ mid, m.isTerm = false) →
      ((∃ s ∈ d.sections, t ∈ s.terms ∧ u ∈ s.terms) ↔ ∀ m ∈ mid, m.blankLine = false)
  nonempty : (∀ s ∈ d.sections, s.sentences ≠ []) ∧ ∀ s ∈ d.sentences, s.terms ≠ []
  spanned : ∀ s ∈ d.sections, s.Spanned
  sections_ordered : d.sections.Pairwise fun a b => a.span.stop ≤ b.span.start
  sentences_ordered : ∀ s ∈ d.sections, s.sentences.Pairwise fun a b => a.span.stop ≤ b.span.start

section Parsed
variable {tokens : List Token} {d : Document}

/-- A document in outline: the sections, the sentences and their terms. -/
def Document.outline (d : Document) : List (List (List Token)) := d.sections.map Section.outline

theorem parse_cases
    (alternates : tokens.IsChain fun a b => ¬ (a.kind = .whitespace ∧ b.kind = .whitespace)) :
    ((∃ e, parse tokens = .error e) ∧ outline tokens = []) ∨
      ∃ d, parse tokens = .ok d ∧ d.outline = outline tokens ∧ (∀ s ∈ d.sections, s.Spanned) := by
  obtain ⟨sections, spanned⟩ := (ParseState.progress_run alternates).flushed
  rw [parse]
  split
  · rename_i empty
    rw [empty]
    exact Or.inl ⟨⟨_, rfl⟩, rfl⟩
  dsimp only
  split
  · rename_i none_left
    rw [none_left] at sections
    exact Or.inl ⟨⟨_, rfl⟩, sections.symm⟩
  · exact Or.inr ⟨_, rfl, sections, spanned⟩

theorem parse_outline {i : Nat} {s : List UInt8} {tokens : List Token} {d : Document}
    (stream : Stream i s tokens) (parsed : parse tokens = .ok d) :
    d.outline = outline tokens ∧ ∀ s ∈ d.sections, s.Spanned := by
  rcases parse_cases stream.alternates with ⟨⟨e, failed⟩, _⟩ | ⟨d', parsed', outlined, spanned⟩
  · rw [failed] at parsed
    cases parsed
  · rw [parsed'] at parsed
    cases parsed
    exact ⟨outlined, spanned⟩

theorem Document.sentences_terms (d : Document) :
    d.sentences.map Sentence.terms = d.outline.flatten := by
  rw [Document.sentences, List.map_flatMap, Document.outline, ← List.flatMap_def]
  rfl

theorem outline_terms (tokens : List Token) :
    (outline tokens).flatten.flatten = tokens.filter Token.isTerm := by
  rw [outline_flatten, flatten_dropEmpty, ← List.flatMap_def]
  apply flatMap_filter_splitOnP
  intro t separates
  simp only [Token.blankLine, Token.endsSentence, Bool.or_eq_true, decide_eq_true_eq] at separates
  rcases separates with blank | ends
  · simp [Token.isTerm, blank.1]
  · simp [Token.isTerm, ends.1]

theorem Document.terms_eq (outlined : d.outline = RagEngine.outline tokens) :
    d.terms = tokens.filter Token.isTerm := by
  rw [Document.terms, List.flatMap_def, d.sentences_terms, outlined, outline_terms]

theorem Document.terms_nonempty (d : Document) : d.terms ≠ [] := by
  intro empty
  obtain ⟨s, member⟩ := List.exists_mem_of_ne_nil _ d.sentences_nonempty
  exact s.nonempty (List.flatMap_eq_nil_iff.mp empty s member)

theorem term_not_separator {t : Token} (term : t.isTerm) :
    t.blankLine = false ∧ t.endsSentence = false := by
  simp only [Token.isTerm, decide_eq_true_eq] at term
  rcases term with word | number
  · simp [Token.blankLine, Token.endsSentence, word]
  · simp [Token.blankLine, Token.endsSentence, number]

theorem same_sentence_iff (outlined : d.outline = RagEngine.outline tokens) {t u : Token}
    (here : t.isTerm) (there : u.isTerm) : (∃ s ∈ d.sentences, t ∈ s.terms ∧ u ∈ s.terms) ↔
      ∃ part ∈ tokens.splitOnP fun t => t.blankLine || t.endsSentence, t ∈ part ∧ u ∈ part := by
  rw [← share_kept_iff here there, ← outline_flatten, ← outlined, ← d.sentences_terms]
  simp only [List.mem_map, exists_exists_and_eq_and]

theorem same_section_iff (outlined : d.outline = RagEngine.outline tokens) {t u : Token}
    (here : t.isTerm) (there : u.isTerm) : (∃ s ∈ d.sections, t ∈ s.terms ∧ u ∈ s.terms) ↔
      ∃ block ∈ tokens.splitOnP Token.blankLine, t ∈ block ∧ u ∈ block := by
  have rows : (∃ s ∈ d.sections, t ∈ s.terms ∧ u ∈ s.terms) ↔
      ∃ row ∈ d.outline, t ∈ row.flatten ∧ u ∈ row.flatten := by
    simp only [Document.outline, List.mem_map, exists_exists_and_eq_and, Section.terms,
      Section.outline, List.flatMap_def]
  rw [rows, outlined]
  constructor
  · intro h
    obtain ⟨row, listed, first, second⟩ := h
    obtain ⟨block, cut, rfl⟩ := List.mem_map.mp (mem_dropEmpty.mp listed).1
    rw [sentenceTerms_flatten] at first second
    exact ⟨block, cut, List.mem_of_mem_filter first, List.mem_of_mem_filter second⟩
  · intro h
    obtain ⟨block, cut, first, second⟩ := h
    have kept : t ∈ (sentenceTerms block).flatten := by
      rw [sentenceTerms_flatten]
      exact List.mem_filter.mpr ⟨first, here⟩
    refine ⟨sentenceTerms block, ?_, kept, ?_⟩
    · refine mem_dropEmpty.mpr ⟨List.mem_map_of_mem cut, ?_⟩
      intro empty
      rw [empty] at kept
      cases kept
    · rw [sentenceTerms_flatten]
      exact List.mem_filter.mpr ⟨second, there⟩

theorem Sentence.Spanned.before {a b : Sentence} (left : a.Spanned) (right : b.Spanned)
    (terms : ∀ x ∈ a.terms, ∀ y ∈ b.terms, x.stop ≤ y.start) : a.span.stop ≤ b.span.start := by
  rw [left, right]
  exact terms _ (List.getLast_mem _) _ (List.head_mem _)

theorem structured {i : Nat} {s : List UInt8} (stream : Stream i s tokens)
    (outlined : d.outline = RagEngine.outline tokens) (spanned : ∀ s ∈ d.sections, s.Spanned) :
    Structured tokens d := by
  have ordered : d.terms.Pairwise fun a b => a.stop ≤ b.start := by
    rw [Document.terms_eq outlined]
    exact stream.ordered.filter _
  obtain ⟨_, between⟩ := List.pairwise_flatMap.mp ordered
  obtain ⟨inside, across⟩ := List.pairwise_flatMap.mp between
  refine ⟨Document.terms_eq outlined, ?_, ?_, ⟨fun s _ => s.nonempty, fun s _ => s.nonempty⟩,
    spanned, ?_, ?_⟩
  · intro front t mid u back tokens_eq here there _
    have distinct := stream.distinct
    rw [same_sentence_iff outlined here there]
    rw [tokens_eq] at distinct ⊢
    rw [share_part_iff distinct (by simp [term_not_separator here])
      (by simp [term_not_separator there])]
    simp only [Bool.or_eq_false_iff, and_comm]
  · intro front t mid u back tokens_eq here there _
    have distinct := stream.distinct
    rw [same_section_iff outlined here there]
    rw [tokens_eq] at distinct ⊢
    exact share_part_iff distinct (term_not_separator here).1 (term_not_separator there).1
  · apply across.imp_of_mem
    intro a b left right terms
    have first := (spanned a left).sentences _ (List.getLast_mem a.nonempty)
    have second := (spanned b right).sentences _ (List.head_mem b.nonempty)
    rw [(spanned a left).span, (spanned b right).span]
    exact first.before second (terms _ (List.getLast_mem _) _ (List.head_mem _))
  · intro s member
    apply (inside s member).imp_of_mem
    intro a b left right terms
    exact ((spanned s member).sentences a left).before ((spanned s member).sentences b right) terms

/-- `parse` fails just on the documents without a word or a number and groups the terms of all
    others by their sentence ends and blank lines. -/
theorem parse_structure {input : List UInt8} (done : tokenize input = .ok tokens) :
    ((∃ e, parse tokens = .error e) ↔ ∀ t ∈ tokens, t.isTerm = false) ∧
      ∀ d, parse tokens = .ok d → Structured tokens d := by
  have stream := tokenize_stream done
  rcases parse_cases stream.alternates with ⟨⟨e, failed⟩, empty⟩ | ⟨d, parsed, outlined, spanned⟩
  · constructor
    · refine iff_of_true ⟨e, failed⟩ ?_
      have none_kept := outline_terms tokens
      rw [empty] at none_kept
      intro t member
      rw [Bool.eq_false_iff]
      exact List.filter_eq_nil_iff.mp none_kept.symm t member
    · intro d parsed
      rw [failed] at parsed
      cases parsed
  · constructor
    · refine iff_of_false ?_ ?_
      · intro h
        obtain ⟨e, failed⟩ := h
        rw [failed] at parsed
        cases parsed
      · intro none_kept
        refine d.terms_nonempty ?_
        rw [Document.terms_eq outlined, List.filter_eq_nil_iff]
        intro t member
        rw [none_kept t member]
        exact Bool.false_ne_true
    · intro d' parsed'
      rw [parsed] at parsed'
      cases parsed'
      exact structured stream outlined spanned

/-- The tokens of a document without an unclassifiable byte. -/
def sampleTokens : List Token := ((tokenize (Bytes.utf8 "Alpha one.\n\nBeta, two.")).toOption).getD []

theorem parse_structure_sample :
    ((∃ e, parse sampleTokens = .error e) ↔ ∀ t ∈ sampleTokens, t.isTerm = false) ∧
      ∀ d, parse sampleTokens = .ok d → Structured sampleTokens d :=
  parse_structure (by decide +kernel : tokenize (Bytes.utf8 "Alpha one.\n\nBeta, two.") = .ok sampleTokens)

end Parsed

end RagEngine
