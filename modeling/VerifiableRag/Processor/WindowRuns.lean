import VerifiableRag.Library.Suffixes
import VerifiableRag.Processor.ContextWindow

/-!
The context window over any run: what it retains, what it counts and what it wiped.
-/
namespace Processor
open CodePoints Suffixes

def total (buffers : List Payload) : Nat := (buffers.map List.length).sum

/-- Both caps at once. -/
def Respects (caps : Caps) (buffers : List Payload) : Prop :=
  buffers.length ≤ caps.maxWindowSize ∧ total buffers ≤ caps.maxContextBytes

/-- What a processor holds that accepted these payloads. -/
structure Accounts (accepted : List Payload) (p : EphemeralProcessor) : Prop where
  alive : p.destroyed = false → IsLongest (Respects p.caps) accepted p.retained
  dead : p.destroyed = true → p.window = []
  bytes : p.currentBytes = total p.retained
  capped : p.currentBytes ≤ p.caps.maxContextBytes
  places : ∀ place ∈ p.window, place < accepted.length
  /-- a buffer no longer in the window has been overwritten -/
  wiped : ∀ place payload, accepted[place]? = some payload → place ∉ p.window →
    p.memory[place]? = some (wiped payload)

/-- A buffer is wiped once it leaves the window. -/
structure Holds (caps : Caps) (removed kept : List Payload) (p : EphemeralProcessor) : Prop where
  caps : p.caps = caps
  memory : p.memory = removed.map wiped ++ kept
  window : p.window = List.range' removed.length kept.length
  bytes : p.currentBytes = total kept

namespace Holds
variable {caps : Caps} {removed kept : List Payload} {p : EphemeralProcessor} {payload : Payload}

theorem buffer (holds : Holds caps removed kept p) (i : Nat) :
    p.buffer (removed.length + i) = kept.getD i [] := by
  rw [EphemeralProcessor.buffer, holds.memory, List.getD_append_right _ _ _ _ (by simp)]
  simp

theorem retained (holds : Holds caps removed kept p) : p.retained = kept := by
  rw [EphemeralProcessor.retained, holds.window]
  apply List.ext_getElem
  · simp
  · intro i _ bound
    simp [holds.buffer, bound]

theorem window_length (holds : Holds caps removed kept p) : p.window.length = kept.length := by
  rw [holds.window, List.length_range']

theorem window_nil_iff (holds : Holds caps removed kept p) : p.window = [] ↔ kept = [] := by
  rw [← List.length_eq_zero_iff, holds.window_length, List.length_eq_zero_iff]

theorem zeroEvict {b : Payload} (holds : Holds caps removed (b :: kept) p) :
    ∃ p', Processor.zeroEvict p = .ok () p' ∧ Holds caps (removed ++ [b]) kept p' ∧
      p'.destroyed = p.destroyed := by
  have first : p.window = removed.length :: List.range' (removed.length + 1) kept.length := by
    rw [holds.window, List.length_cons, List.range'_succ]
  have oldest : p.buffer removed.length = b := holds.buffer 0
  have inside : removed.length < p.memory.length := by simp [holds.memory]
  refine ⟨_, zeroEvict_cons first inside, ?_, rfl⟩
  constructor
  · exact holds.caps
  · change p.memory.set removed.length (wiped (p.buffer removed.length)) = _
    rw [oldest, holds.memory]
    simp
  · simp
  · change p.currentBytes - (p.buffer removed.length).length = total kept
    rw [oldest, holds.bytes]
    simp [total]

theorem makeRoom (holds : Holds caps removed kept p) {size turns : Nat}
    (alone : size ≤ caps.maxContextBytes) (enough : kept.length ≤ turns) :
    ∃ p' removed' kept', Processor.makeRoom size turns p = .ok () p' ∧
      Holds caps removed' kept' p' ∧ p'.destroyed = p.destroyed ∧
      removed' ++ kept' = removed ++ kept ∧
      IsLongest (fun buffers => total buffers + size ≤ caps.maxContextBytes) kept kept' := by
  induction turns generalizing p removed kept with
  | zero =>
    have empty : kept = [] := List.length_eq_zero_iff.mp (Nat.le_zero.mp enough)
    refine ⟨p, removed, kept, rfl, holds, rfl, rfl, isLongest_self ?_⟩
    simpa [empty, total] using alone
  | succ turns ih =>
    by_cases full : p.caps.maxContextBytes < p.currentBytes + size ∧ p.window ≠ []
    · cases kept with
      | nil => exact absurd (holds.window_nil_iff.mpr rfl) full.2
      | cons b kept =>
        obtain ⟨p₁, evicted, holds₁, same₁⟩ := holds.zeroEvict
        obtain ⟨p', removed', kept', made, holds', same', whole, longest⟩ :=
          ih holds₁ (by rw [List.length_cons] at enough; omega)
        have excess := full.1
        rw [holds.caps, holds.bytes] at excess
        refine ⟨p', removed', kept', ?_, holds', same'.trans same₁, ?_, longest.cons (by omega)⟩
        · rw [makeRoom_evicts full evicted, made]
        · rw [whole, List.append_assoc, List.singleton_append]
    · refine ⟨p, removed, kept, makeRoom_fits full, holds, rfl, rfl, isLongest_self ?_⟩
      by_cases empty : kept = []
      · simpa [empty, total] using alone
      · rw [not_and, holds.caps, holds.bytes] at full
        have within : ¬ caps.maxContextBytes < total kept + size :=
          fun excess => full excess (mt holds.window_nil_iff.mp empty)
        omega

theorem makeSlot (holds : Holds caps removed kept p) (bounded : kept.length ≤ caps.maxWindowSize) :
    ∃ p' removed' kept', Processor.makeSlot p = .ok () p' ∧
      Holds caps removed' kept' p' ∧ p'.destroyed = p.destroyed ∧
      removed' ++ kept' = removed ++ kept ∧
      IsLongest (fun buffers => buffers.length + 1 ≤ caps.maxWindowSize) kept kept' := by
  have positive := caps.windowPositive
  by_cases full : p.caps.maxWindowSize ≤ p.window.length
  · have size := full
    rw [holds.caps, holds.window_length] at size
    cases kept with
    | nil =>
      simp only [List.length_nil] at size
      omega
    | cons b kept =>
      rw [List.length_cons] at size bounded
      obtain ⟨p', evicted, holds', same⟩ := holds.zeroEvict
      refine ⟨p', removed ++ [b], kept, ?_, holds', same, by simp, ?_⟩
      · rw [makeSlot_full full, evicted]
      · apply (isLongest_self _).cons
        · simp only [List.length_cons]
          omega
        · omega
  · refine ⟨p, removed, kept, makeSlot_open full, holds, rfl, rfl, isLongest_self ?_⟩
    rw [holds.caps, holds.window_length] at full
    omega

/-- With a free slot the `deque` does not drop its oldest buffer by itself. -/
theorem append (holds : Holds caps removed kept p) (slot : kept.length + 1 ≤ caps.maxWindowSize)
    (payload : Payload) : Holds caps removed (kept ++ [payload]) (p.append payload) := by
  have within : ¬ p.caps.maxWindowSize < (p.window ++ [p.memory.length]).length := by
    rw [holds.caps, List.length_append, holds.window_length, List.length_singleton]
    push_cast
    omega
  constructor
  · exact holds.caps
  · change p.memory ++ [payload] = _
    rw [holds.memory, List.append_assoc]
  · change (if _ then _ else _) = _
    rw [if_neg within, holds.window, holds.memory]
    simp [List.range'_concat]
  · change p.currentBytes + payload.length = _
    rw [holds.bytes]
    simp [total]

end Holds

theorem respects_append_iff {caps : Caps} {buffers : List Payload} {payload : Payload} :
    Respects caps (buffers ++ [payload]) ↔
      total buffers + payload.length ≤ caps.maxContextBytes ∧
        buffers.length + 1 ≤ caps.maxWindowSize := by
  rw [Respects, and_comm]
  simp [total]

/-- The window that `ingest` leaves is again the longest suffix. -/
theorem longest_append {caps : Caps} {accepted kept kept₁ kept₂ : List Payload} {payload : Payload}
    (before : IsLongest (Respects caps) accepted kept)
    (room : IsLongest (fun buffers => total buffers + payload.length ≤ caps.maxContextBytes) kept
      kept₁)
    (slot : IsLongest (fun buffers => buffers.length + 1 ≤ caps.maxWindowSize) kept₁ kept₂) :
    IsLongest (Respects caps) (accepted ++ [payload]) (kept₂ ++ [payload]) := by
  have smaller : total kept₂ ≤ total kept₁ :=
    (slot.suffix.sublist.map List.length).sum_le_sum fun _ _ => Nat.zero_le _
  have sum := room.holds
  have both := room.and slot (by omega)
  apply before.snoc
  · constructor
    · exact both.suffix
    · exact respects_append_iff.mpr both.holds
    · intro buffers suffix respects
      exact both.longest buffers suffix (respects_append_iff.mp respects)
  · intro buffers respects
    have sizes := respects_append_iff.mp respects
    constructor <;> omega

/-- The state of a processor that accepted these payloads. -/
inductive Windowed (caps : Caps) (accepted : List Payload) (p : EphemeralProcessor) : Prop where
  | alive (removed kept : List Payload) (whole : accepted = removed ++ kept)
      (holds : Holds caps removed kept p) (alive : p.destroyed = false)
      (longest : IsLongest (Respects caps) accepted kept)
  | dead (holds : Holds caps accepted [] p) (dead : p.destroyed = true)

namespace Windowed
variable {caps : Caps} {accepted removed kept : List Payload} {p p' : EphemeralProcessor}
  {payload : Payload}

theorem init {maxWindowSize maxContextBytes : Int}
    (made : EphemeralProcessor.init maxWindowSize maxContextBytes = .ok p) :
    Windowed p.caps [] p ∧ p.caps.maxWindowSize = maxWindowSize ∧
      p.caps.maxContextBytes = maxContextBytes := by
  unfold EphemeralProcessor.init at made
  split at made
  · rename_i positive
    split at made
    · cases made
      refine ⟨.alive [] [] rfl ⟨rfl, rfl, rfl, rfl⟩ rfl (isLongest_self ?_), rfl, rfl⟩
      constructor
      · exact positive.1.le
      · exact positive.2.le
    · cases made
  · cases made

theorem ingest_ok (holds : Holds caps removed kept p) (alive : p.destroyed = false)
    (longest : IsLongest (Respects caps) accepted kept) (whole : accepted = removed ++ kept)
    (fits : ¬ caps.maxContextBytes < payload.length) :
    ∃ p', ingest payload p = .ok () p' ∧ Windowed caps (accepted ++ [payload]) p' := by
  obtain ⟨p₁, removed₁, kept₁, made, holds₁, same₁, whole₁, room⟩ :=
    @Holds.makeRoom _ _ _ _ holds payload.length _ (by omega) holds.window_length.ge
  have smaller := room.suffix.length_le
  have bounded := longest.holds.1
  obtain ⟨p₂, removed₂, kept₂, found, holds₂, same₂, whole₂, slot⟩ := holds₁.makeSlot (by omega)
  rw [← holds.caps] at fits
  refine ⟨_, ingest_stored alive fits made found, ?_⟩
  apply Windowed.alive removed₂ (kept₂ ++ [payload])
  · rw [whole, ← List.append_assoc, whole₂, whole₁]
  · exact holds₂.append slot.holds payload
  · exact same₂.trans (same₁.trans alive)
  · exact longest_append longest room slot

end Windowed

section Destroy
variable {caps : Caps} {accepted removed kept : List Payload} {p : EphemeralProcessor}

theorem foldl_zero (memory : p.memory = removed.map wiped ++ kept) :
    (List.range' removed.length kept.length).foldl EphemeralProcessor.zero p =
      { p with memory := (removed ++ kept).map wiped } := by
  induction kept generalizing p removed with
  | nil =>
    rw [List.append_nil] at memory ⊢
    rw [← memory]
    rfl
  | cons b kept ih =>
    have inside : removed.length < p.memory.length := by simp [memory]
    have oldest : p.buffer removed.length = b := by simp [EphemeralProcessor.buffer, memory]
    rw [List.length_cons, List.range'_succ, List.foldl_cons, EphemeralProcessor.zero_eq inside,
      oldest]
    have next := @ih (removed ++ [b]) { p with memory := p.memory.set removed.length (wiped b) }
      (by simp [memory])
    rw [List.length_append, List.length_singleton] at next
    rw [next, List.append_assoc, List.singleton_append]

theorem destroy_dead (dead : p.destroyed = true) : destroy p = .ok () p := by
  change (if _ then _ else _ : Method Unit) p = _
  rw [dead]
  rfl

theorem destroy_alive (holds : Holds caps removed kept p) (alive : p.destroyed = false) :
    ∃ p', destroy p = .ok () p' ∧ Holds caps (removed ++ kept) [] p' ∧ p'.destroyed = true := by
  have ran : destroy p = .ok () { p.window.foldl EphemeralProcessor.zero { p with window := [] } with
      currentBytes := 0
      destroyed := true } := by
    change (if _ then _ else _ : Method Unit) p = _
    rw [alive]
    rfl
  rw [holds.window, @foldl_zero removed kept { p with window := [] } holds.memory] at ran
  refine ⟨_, ran, ?_, rfl⟩
  constructor
  · exact holds.caps
  · exact (List.append_nil _).symm
  · rfl
  · rfl

end Destroy

section Steps
variable {sha256 : List UInt8 → Str} {caps : Caps} {accepted : List Payload}
  {p p' : EphemeralProcessor}

theorem Windowed.destroy (windowed : Windowed caps accepted p) :
    ∃ p', Processor.destroy p = .ok () p' ∧ Holds caps accepted [] p' ∧ p'.destroyed = true := by
  cases windowed with
  | alive removed kept whole holds alive longest =>
    rw [whole]
    exact destroy_alive holds alive
  | dead holds dead => exact ⟨p, destroy_dead dead, holds, dead⟩

theorem Windowed.ingest (windowed : Windowed caps accepted p) (payload : Payload) :
    if p.destroyed = false ∧ payload.length ≤ caps.maxContextBytes then
      ∃ p', Processor.ingest payload p = .ok () p' ∧ Windowed caps (accepted ++ [payload]) p'
    else ∃ e, Processor.ingest payload p = .error e p := by
  cases windowed with
  | dead holds dead =>
    rw [if_neg (by simp [dead])]
    exact ⟨_, ingest_destroyed dead⟩
  | alive removed kept whole holds alive longest =>
    split
    · rename_i taken
      exact Windowed.ingest_ok holds alive longest whole (not_lt.mpr taken.2)
    · rename_i refused
      rw [not_and, ← holds.caps] at refused
      exact ⟨_, ingest_tooLarge alive (not_le.mp (refused alive))⟩

theorem execute_destroyed (query : Str) (dead : p.destroyed = true) :
    execute sha256 query p = .error destroyedError p :=
  method_bind_error (ensureAlive_destroyed dead)

theorem execute_alive (query : Str) (alive : p.destroyed = false) :
    execute sha256 query p = match encodeUtf8 query with
      | .error e => .error e p
      | .ok needle => .ok
          { queryHash := sha256 needle
            matchedBuffers := p.retained.countP fun buf => needle <:+: buf
            windowSize := p.window.length
            retainedBytes := p.currentBytes } p := by
  rw [execute, method_bind_ok (ensureAlive_alive alive)]
  cases encodeUtf8 query <;> rfl

/-- A call that raises leaves everything as it was. -/
theorem Windowed.perform (windowed : Windowed caps accepted p) (call : Call) :
    match Processor.perform sha256 call p with
    | .ok _ p' => Windowed caps (accepted ++ call.stored) p'
    | .error _ p' => p' = p := by
  cases call with
  | ingest payload =>
    have taken := windowed.ingest payload
    split at taken
    · obtain ⟨p', stored, next⟩ := taken
      rw [Processor.perform, method_bind_ok stored]
      exact next
    · obtain ⟨e, refused⟩ := taken
      rw [Processor.perform, method_bind_error refused]
  | execute query =>
    rw [Call.stored, List.append_nil, Processor.perform]
    cases dead : p.destroyed with
    | true => rw [method_bind_error (execute_destroyed query dead)]
    | false =>
      have ran := @execute_alive sha256 p query dead
      cases encoded : encodeUtf8 query with
      | error e =>
        rw [encoded] at ran
        rw [method_bind_error ran]
      | ok needle =>
        rw [encoded] at ran
        rw [method_bind_ok ran]
        exact windowed
  | destroy =>
    obtain ⟨p', ran, holds, dead⟩ := windowed.destroy
    rw [Call.stored, List.append_nil, Processor.perform, method_bind_ok ran]
    exact .dead holds dead

theorem Windowed.run (windowed : Windowed caps accepted p) (calls : List Call) :
    Windowed caps (accepted ++ (run sha256 p calls).1) (run sha256 p calls).2 := by
  induction calls generalizing p accepted with
  | nil => simpa [Processor.run] using windowed
  | cons call calls ih =>
    have step := @Windowed.perform sha256 caps accepted p windowed call
    unfold Processor.run
    cases ran : Processor.perform sha256 call p with
    | ok reply p' =>
      rw [ran] at step
      dsimp only
      rw [← List.append_assoc]
      exact ih step
    | error e p' =>
      rw [ran] at step
      dsimp only at step ⊢
      rw [step]
      exact ih windowed

theorem Holds.place {removed kept : List Payload} (holds : Holds caps removed kept p) (place : Nat) :
    place ∈ p.window ↔ removed.length ≤ place ∧ place < removed.length + kept.length := by
  rw [holds.window, List.mem_range'_1]

theorem Holds.overwritten {removed kept : List Payload} {place : Nat} {payload : Payload}
    (holds : Holds caps removed kept p) (stored : (removed ++ kept)[place]? = some payload)
    (gone : place ∉ p.window) : p.memory[place]? = some (wiped payload) := by
  obtain ⟨bound, same⟩ := List.getElem?_eq_some_iff.mp stored
  rw [List.length_append] at bound
  rw [holds.place] at gone
  have old : place < removed.length := by omega
  rw [List.getElem?_append_left old] at stored
  rw [holds.memory, List.getElem?_append_left (by simpa using old), List.getElem?_map, stored]
  rfl

theorem Windowed.accounts (windowed : Windowed caps accepted p) : Accounts accepted p := by
  cases windowed with
  | alive removed kept whole holds alive longest =>
    constructor
    · intro _
      rw [holds.retained, holds.caps]
      exact longest
    · intro dead
      rw [alive] at dead
      cases dead
    · rw [holds.retained, holds.bytes]
    · rw [holds.bytes, holds.caps]
      exact longest.holds.2
    · intro place member
      have bounds := (holds.place place).mp member
      rw [whole, List.length_append]
      exact bounds.2
    · intro place payload stored gone
      rw [whole] at stored
      exact holds.overwritten stored gone
  | dead holds dead =>
    constructor
    · intro alive
      rw [alive] at dead
      cases dead
    · intro _
      exact holds.window
    · rw [holds.retained, holds.bytes]
    · rw [holds.bytes, holds.caps]
      exact caps.bytesPositive.le
    · intro place member
      rw [holds.window] at member
      cases member
    · intro place payload stored gone
      apply holds.overwritten _ gone
      rw [List.append_nil]
      exact stored

theorem Windowed.caps_eq (windowed : Windowed caps accepted p) : p.caps = caps := by
  cases windowed with
  | alive removed kept whole holds alive longest => exact holds.caps
  | dead holds dead => exact holds.caps

end Steps

section Claim
variable {sha256 : List UInt8 → Str} {maxWindowSize maxContextBytes : Int}
  {start final : EphemeralProcessor} {calls : List Call} {accepted : List Payload}

/-- The context window after any run, and what the next call does to it. -/
theorem context_window (made : EphemeralProcessor.init maxWindowSize maxContextBytes = .ok start)
    (ran : run sha256 start calls = (accepted, final)) :
    final.caps.maxWindowSize = maxWindowSize ∧ final.caps.maxContextBytes = maxContextBytes ∧
      Accounts accepted final ∧
      (∀ payload, if final.destroyed = false ∧ payload.length ≤ maxContextBytes then
          ∃ p', ingest payload final = .ok () p' ∧ Accounts (accepted ++ [payload]) p'
        else ∃ e, ingest payload final = .error e final) ∧
      (∀ query, final.destroyed = false → execute sha256 query final =
        match encodeUtf8 query with
        | .error e => .error e final
        | .ok needle => .ok
            { queryHash := sha256 needle
              matchedBuffers := (final.retained.filter fun buf => needle <:+: buf).length
              windowSize := final.retained.length
              retainedBytes := total final.retained } final) ∧
      (∀ query, final.destroyed = true → ∃ e, execute sha256 query final = .error e final) ∧
      ∃ dead, destroy final = .ok () dead ∧ dead.destroyed = true ∧ dead.window = [] ∧
        dead.currentBytes = 0 ∧ dead.memory = accepted.map wiped ∧ destroy dead = .ok () dead := by
  obtain ⟨begun, size, bytes⟩ := Windowed.init made
  have windowed := @Windowed.run sha256 _ _ _ begun calls
  rw [List.nil_append, ran] at windowed
  dsimp only at windowed
  have accounts := windowed.accounts
  have kept := windowed.caps_eq
  refine ⟨by rw [kept, size], by rw [kept, bytes], accounts, ?_, ?_, ?_, ?_⟩
  · intro payload
    have taken := windowed.ingest payload
    rw [bytes] at taken
    split at taken
    · rename_i fits
      rw [if_pos fits]
      obtain ⟨p', stored, next⟩ := taken
      exact ⟨p', stored, next.accounts⟩
    · rename_i refused
      rw [if_neg refused]
      exact taken
  · intro query alive
    rw [execute_alive query alive, accounts.bytes, EphemeralProcessor.retained]
    simp only [List.countP_eq_length_filter, List.length_map]
  · intro query dead
    exact ⟨_, execute_destroyed query dead⟩
  · obtain ⟨dead, destroyed, holds, flag⟩ := windowed.destroy
    refine ⟨dead, destroyed, flag, holds.window, holds.bytes, ?_, destroy_dead flag⟩
    rw [holds.memory, List.append_nil]

def sampleProcessor : EphemeralProcessor := ⟨⟨2, 4, by decide, by decide⟩, [], [], 0, false⟩

theorem context_window_sample :
    let final := (run (fun _ => []) sampleProcessor
      [.ingest [1, 2], .ingest [3], .ingest [9, 9, 9, 9, 9], .ingest [4, 5, 6]]).2
    Accounts [[1, 2], [3], [4, 5, 6]] final ∧ final.retained = [[3], [4, 5, 6]] := by
  have made : EphemeralProcessor.init 2 4 = .ok sampleProcessor := rfl
  have ran : run (fun _ => []) sampleProcessor
      [.ingest [1, 2], .ingest [3], .ingest [9, 9, 9, 9, 9], .ingest [4, 5, 6]] =
        ([[1, 2], [3], [4, 5, 6]], _) := rfl
  exact ⟨(context_window made ran).2.2.1, rfl⟩

end Claim

end Processor
