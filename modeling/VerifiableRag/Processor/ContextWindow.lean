import VerifiableRag.Library.CodePoints
import VerifiableRag.Library.Unicode

/-!
The context window of an `EphemeralProcessor`: its buffers, their two caps and their wiping.
-/
namespace Processor
open CodePoints

abbrev Payload := List UInt8

/-- What a method of the window raises; a `UnicodeEncodeError` is a `ValueError`. -/
inductive WindowError where
  | valueError (message : Str)
  | runtimeError (message : Str)
  | indexError (message : Str)
  | overflowError (message : Str)
  deriving DecidableEq

structure Caps where
  maxWindowSize : Int
  maxContextBytes : Int
  windowPositive : 0 < maxWindowSize
  bytesPositive : 0 < maxContextBytes

/-- `memory` is every `bytearray` that `ingest` made, in this order; the window refers to its
    buffers by their places there. -/
structure EphemeralProcessor where
  caps : Caps
  memory : List Payload
  window : List Nat
  currentBytes : Int
  destroyed : Bool

/-- `__init__`; a `deque` takes no `maxlen` beyond `ssize_t`. -/
def EphemeralProcessor.init (maxWindowSize maxContextBytes : Int) :
    Except WindowError EphemeralProcessor :=
  if positive : 0 < maxWindowSize ∧ 0 < maxContextBytes then
    if maxWindowSize < 2 ^ 63 then
      .ok ⟨⟨maxWindowSize, maxContextBytes, positive.1, positive.2⟩, [], [], 0, false⟩
    else .error (.overflowError (ofString "Python int too large to convert to C ssize_t"))
  else .error (.valueError (ofString "window size and context byte cap must be positive"))

def wiped (buf : Payload) : Payload := List.replicate buf.length 0

namespace EphemeralProcessor
variable (p : EphemeralProcessor)

def buffer (place : Nat) : Payload := p.memory.getD place []

/-- The contents of the retained buffers, the oldest first. -/
def retained : List Payload := p.window.map p.buffer

/-- `_zero` -/
def zero (place : Nat) : EphemeralProcessor :=
  if p.buffer place = [] then p
  else { p with memory := p.memory.set place (wiped (p.buffer place)) }

/-- `self._window.append(bytearray(payload))`: a `deque` that outgrows its `maxlen` drops its
    oldest element by itself. -/
def append (payload : Payload) : EphemeralProcessor :=
  let window := p.window ++ [p.memory.length]
  { p with
    memory := p.memory ++ [payload]
    window := if p.caps.maxWindowSize < window.length then window.tail else window
    currentBytes := p.currentBytes + payload.length }

end EphemeralProcessor

/-- A method that raises leaves the state as it was at that point. -/
abbrev Method := EStateM WindowError EphemeralProcessor

def destroyedError : WindowError :=
  .runtimeError (ofString "EphemeralProcessor has been destroyed")

def ensureAlive : Method Unit := do
  if (← get).destroyed then throw destroyedError

/-- `_zero_evict` -/
def zeroEvict : Method Unit := do
  let p ← get
  match p.window with
  | [] => throw (.indexError (ofString "pop from an empty deque"))
  | oldest :: window =>
    let currentBytes := p.currentBytes - (p.buffer oldest).length
    set ({ p with window, currentBytes }.zero oldest)

/-- The `while` loop of `ingest`, which ends within as many turns as the window is long. -/
def makeRoom (size : Nat) : Nat → Method Unit
  | 0 => pure ()
  | turns + 1 => do
    let p ← get
    if p.caps.maxContextBytes < p.currentBytes + size ∧ p.window ≠ [] then
      zeroEvict
      makeRoom size turns

def tooLarge (size : Nat) (cap : Int) : Str :=
  ofString "context payload of " ++ decimal size ++ ofString " bytes exceeds the " ++
    decimal cap.toNat ++ ofString "-byte cap"

/-- The window-capacity eviction, before the append. -/
def makeSlot : Method Unit := do
  let p ← get
  if p.caps.maxWindowSize ≤ p.window.length then zeroEvict

def ingest (payload : Payload) : Method Unit := do
  ensureAlive
  let p ← get
  if p.caps.maxContextBytes < payload.length then
    throw (.valueError (tooLarge payload.length p.caps.maxContextBytes))
  makeRoom payload.length p.window.length
  makeSlot
  modify (·.append payload)

def isSurrogate (c : CodePoint) : Bool := 0xD800 ≤ c ∧ c < 0xE000

/-- The text of the `UnicodeEncodeError`, which names the first run of surrogates. -/
def cannotEncode (query : Str) : Str :=
  let start := query.findIdx isSurrogate
  match (query.drop start).takeWhile isSurrogate with
  | [c] =>
    ofString "'utf-8' codec can't encode character '\\u" ++ hexDigits 4 c ++
      ofString "' in position " ++ decimal start ++ ofString ": surrogates not allowed"
  | run =>
    ofString "'utf-8' codec can't encode characters in position " ++ decimal start ++
      ofString "-" ++ decimal (start + run.length - 1) ++ ofString ": surrogates not allowed"

/-- `query.encode("utf-8")` -/
def encodeUtf8 (query : Str) : Except WindowError (List UInt8) :=
  if query.any isSurrogate then .error (.valueError (cannotEncode query))
  else .ok (query.flatMap fun c => Unicode.encode c)

/-- The record that `execute` returns. -/
structure Execution where
  queryHash : Str
  matchedBuffers : Nat
  windowSize : Nat
  retainedBytes : Int
  deriving DecidableEq

/-- `sha256` gives the hexadecimal digest. -/
def execute (sha256 : List UInt8 → Str) (query : Str) : Method Execution := do
  ensureAlive
  let needle ← MonadExcept.ofExcept (encodeUtf8 query)
  let p ← get
  pure
    { queryHash := sha256 needle
      matchedBuffers := p.retained.countP fun buf => needle <:+: buf
      windowSize := p.window.length
      retainedBytes := p.currentBytes }

/-- `destroy`; its loop wipes the buffers from the oldest on. -/
def destroy : Method Unit := do
  let p ← get
  if !p.destroyed then
    set { p.window.foldl EphemeralProcessor.zero { p with window := [] } with
      currentBytes := 0
      destroyed := true }

inductive Call where
  | ingest (payload : Payload)
  | execute (query : Str)
  | destroy

inductive Reply where
  | none
  | record (execution : Execution)

section Runs
variable (sha256 : List UInt8 → Str)

def perform : Call → Method Reply
  | .ingest payload => do
    ingest payload
    pure .none
  | .execute query => do
    let execution ← execute sha256 query
    pure (.record execution)
  | .destroy => do
    destroy
    pure .none

/-- The payload that a call has stored when it returns. -/
def Call.stored : Call → List Payload
  | .ingest payload => [payload]
  | .execute _ => []
  | .destroy => []

/-- The payloads that a run stores, and the state it ends in. -/
def run (p : EphemeralProcessor) : List Call → List Payload × EphemeralProcessor
  | [] => ([], p)
  | call :: calls =>
    match perform sha256 call p with
    | .ok _ p' => (call.stored ++ (run p' calls).1, (run p' calls).2)
    | .error _ p' => run p' calls

end Runs

theorem EphemeralProcessor.zero_eq {p : EphemeralProcessor} {place : Nat}
    (inside : place < p.memory.length) :
    p.zero place = { p with memory := p.memory.set place (wiped (p.buffer place)) } := by
  unfold zero
  split
  · rename_i empty
    have same : p.memory[place] = [] := by
      rw [buffer, List.getD_eq_getElem _ _ inside] at empty
      exact empty
    have unchanged : p.memory.set place (wiped (p.buffer place)) = p.memory := by
      rw [empty]
      change p.memory.set place [] = p.memory
      rw [← same, List.set_getElem_self]
    rw [unchanged]
  · rfl

section Methods
variable {α β : Type} {m : Method α} {f : α → Method β} {p p' : EphemeralProcessor} {size turns : Nat}
  {payload : Payload}

theorem method_bind_ok {a : α} (ok : m p = .ok a p') : (m >>= f) p = f a p' := by
  change EStateM.bind m f p = _
  rw [EStateM.bind, ok]

theorem method_bind_error {e : WindowError} (failed : m p = .error e p') :
    (m >>= f) p = .error e p' := by
  change EStateM.bind m f p = _
  rw [EStateM.bind, failed]

theorem ensureAlive_alive (alive : p.destroyed = false) : ensureAlive p = .ok () p := by
  change (if _ then _ else _ : Method Unit) p = _
  rw [alive]
  rfl

theorem ensureAlive_destroyed (dead : p.destroyed = true) :
    ensureAlive p = .error destroyedError p := by
  change (if _ then _ else _ : Method Unit) p = _
  rw [dead]
  rfl

theorem zeroEvict_cons {oldest : Nat} {window : List Nat} (first : p.window = oldest :: window)
    (inside : oldest < p.memory.length) :
    zeroEvict p = .ok () { p with
      memory := p.memory.set oldest (wiped (p.buffer oldest))
      window
      currentBytes := p.currentBytes - (p.buffer oldest).length } := by
  change (match p.window with
    | [] => _
    | oldest :: window => _ : Method Unit) p = _
  rw [first]
  exact congrArg (EStateM.Result.ok ()) (EphemeralProcessor.zero_eq inside)

theorem makeRoom_fits (fits : ¬ (p.caps.maxContextBytes < p.currentBytes + size ∧ p.window ≠ [])) :
    makeRoom size turns p = .ok () p := by
  cases turns with
  | zero => rfl
  | succ turns =>
    change (if _ then _ else _ : Method Unit) p = _
    rw [if_neg fits]
    rfl

theorem makeRoom_evicts
    (full : p.caps.maxContextBytes < p.currentBytes + size ∧ p.window ≠ [])
    (evicted : zeroEvict p = .ok () p') :
    makeRoom size (turns + 1) p = makeRoom size turns p' := by
  change (if _ then _ else _ : Method Unit) p = _
  rw [if_pos full]
  exact method_bind_ok evicted

theorem makeSlot_open (room : ¬ p.caps.maxWindowSize ≤ p.window.length) : makeSlot p = .ok () p := by
  change (if _ then _ else _ : Method Unit) p = _
  rw [if_neg room]
  rfl

theorem makeSlot_full (full : p.caps.maxWindowSize ≤ p.window.length) :
    makeSlot p = zeroEvict p := by
  change (if _ then _ else _ : Method Unit) p = _
  rw [if_pos full]

theorem ingest_destroyed (dead : p.destroyed = true) :
    ingest payload p = .error destroyedError p :=
  method_bind_error (ensureAlive_destroyed dead)

theorem ingest_tooLarge (alive : p.destroyed = false)
    (large : p.caps.maxContextBytes < payload.length) :
    ingest payload p =
      .error (.valueError (tooLarge payload.length p.caps.maxContextBytes)) p := by
  rw [ingest, method_bind_ok (ensureAlive_alive alive)]
  change (if _ then _ else _ : Method Unit) p = _
  rw [if_pos large]
  rfl

theorem ingest_stored {room slot : EphemeralProcessor} (alive : p.destroyed = false)
    (fits : ¬ p.caps.maxContextBytes < payload.length)
    (made : makeRoom payload.length p.window.length p = .ok () room)
    (found : makeSlot room = .ok () slot) :
    ingest payload p = .ok () (slot.append payload) := by
  rw [ingest, method_bind_ok (ensureAlive_alive alive)]
  change (if _ then _ else _ : Method Unit) p = _
  rw [if_neg fits]
  change (makeRoom _ _ >>= fun _ => makeSlot >>= fun _ => _) p = _
  rw [method_bind_ok made, method_bind_ok found]
  rfl

end Methods

end Processor
