import Mathlib.Data.Rat.Floor
import VerifiableRag.Contracts.SettlementRuns

/-!
The arithmetic of a settlement at its limits: which feeds the freshness gate refuses at which block
times, and what a quantity is worth at a price of any scale, over all words.
-/
namespace VerifiableRag
open Bytes Transaction Ownable Results IntegerCasts

section Freshness
variable {Proof : Type} {answers : Answers Proof} {now : Word} {state : State} {feedId : FeedId}

/-- How far a feed and the block are apart in time. -/
def apart (now : Word) (feed : Feed) : Nat := ((feed.timestamp.toNat : Int) - now.toNat).natAbs

theorem fresh_iff {feed : Feed} : Fresh now feed ↔ apart now feed ≤ realtimeMaxAge := by
  unfold Fresh apart
  omega

/-- The code asks for the feed first, and for the time after. -/
theorem liveFeed_unread {e : Revert Error} (failed : readFeed answers state feedId = .error e) :
    liveFeed answers now state feedId = .error e := by
  rw [liveFeed, failed]
  rfl

/-- What a read of a feed fails with: neither a stale feed nor a panic. -/
def Unread (e : Revert Error) : Prop := e = .bare ∨ e = .error (.unregisteredContract "FtsoV2")

theorem readFeed_raises : Raises Unread (readFeed answers state feedId) := by
  refine raises_bind.mpr ⟨raises_bind.mpr ⟨expect_raises (Or.inl rfl), ?_⟩, ?_⟩
  · intro target _
    refine raises_bind.mpr ⟨revertIf_raises (Or.inr rfl), ?_⟩
    intro _ _
    exact raises_ok
  · intro ftso _
    exact expect_raises (Or.inl rfl)

theorem liveFeed_read {feed : Feed} (read : readFeed answers state feedId = .ok feed)
    (room : now.toNat + realtimeMaxAge < 2 ^ 256) (bounded : feed.timestamp.toNat < 2 ^ 64) :
    liveFeed answers now state feedId =
      if apart now feed ≤ realtimeMaxAge then .ok feed else .error (.error .staleFeed) := by
  have expiry : feed.timestamp.toNat + realtimeMaxAge < 2 ^ 256 := by
    unfold realtimeMaxAge
    omega
  rw [liveFeed, ok_bind read, ok_bind (checked_fits room), view_revertIf, ok_bind (checked_fits expiry),
    view_revertIf]
  by_cases near : apart now feed ≤ realtimeMaxAge
  · obtain ⟨ahead, behind⟩ := fresh_iff.mpr near
    rw [if_neg ahead.not_gt, if_neg behind.not_gt, if_pos near]
    rfl
  · have stale : ¬ Fresh now feed := mt fresh_iff.mp near
    rw [if_neg near]
    by_cases ahead : feed.timestamp.toNat > now.toNat + realtimeMaxAge
    · rw [if_pos ahead]
      rfl
    · have behind : now.toNat > feed.timestamp.toNat + realtimeMaxAge := by
        unfold Fresh at stale
        omega
      rw [if_neg ahead, if_pos behind]
      rfl

/-- What the gate can do at a block time that leaves room for the window. -/
theorem liveFeed_cases
    (bounded : ∀ feed, readFeed answers state feedId = .ok feed → feed.timestamp.toNat < 2 ^ 64)
    (room : now.toNat + realtimeMaxAge < 2 ^ 256) :
    (∃ e, Unread e ∧ readFeed answers state feedId = .error e ∧
      liveFeed answers now state feedId = .error e) ∨
    (∃ feed, readFeed answers state feedId = .ok feed ∧ apart now feed ≤ realtimeMaxAge ∧
      liveFeed answers now state feedId = .ok feed) ∨
    ∃ feed, readFeed answers state feedId = .ok feed ∧ realtimeMaxAge < apart now feed ∧
      liveFeed answers now state feedId = .error (.error .staleFeed) := by
  cases read : readFeed answers state feedId with
  | error e => exact Or.inl ⟨e, readFeed_raises e read, rfl, liveFeed_unread read⟩
  | ok feed =>
    have gate := liveFeed_read read room (bounded feed read)
    by_cases near : apart now feed ≤ realtimeMaxAge
    · exact Or.inr (Or.inl ⟨feed, rfl, near, gate.trans (if_pos near)⟩)
    · exact Or.inr (Or.inr ⟨feed, rfl, not_le.mp near, gate.trans (if_neg near)⟩)

/-- A block time without room for the window panics at every feed. -/
theorem liveFeed_late {feed : Feed} (read : readFeed answers state feedId = .ok feed)
    (late : 2 ^ 256 ≤ now.toNat + realtimeMaxAge) :
    liveFeed answers now state feedId = .error (.panic 0x11) := by
  rw [liveFeed, read, checked_overflows late]
  rfl

end Freshness

section Scaling
variable {quantity price : Word} {decimals : BitVec 8}

def valuation (quantity price : Word) (decimals : BitVec 8) : Nat :=
  if 0 ≤ decimals.toInt then quantity.toNat * price.toNat / 10 ^ decimals.toInt.natAbs
  else quantity.toNat * price.toNat * 10 ^ decimals.toInt.natAbs

/-- Every number on the way to a valuation is a word. -/
structure Representable (quantity price : Word) (decimals : BitVec 8) : Prop where
  product : quantity.toNat * price.toNat < 2 ^ 256
  scale : 10 ^ decimals.toInt.natAbs < 2 ^ 256
  scaled : decimals.toInt < 0 →
    quantity.toNat * price.toNat * 10 ^ decimals.toInt.natAbs < 2 ^ 256

theorem valuation_word (fits : Representable quantity price decimals) :
    valuation quantity price decimals < 2 ^ 256 := by
  unfold valuation
  split
  · exact (Nat.div_le_self _ _).trans_lt fits.product
  next negative => exact fits.scaled (Int.not_le.mp negative)

/-- The exponent of a scale from zero on, as it is cast. -/
theorem widened_scale (nonneg : 0 ≤ decimals.toInt) :
    (decimals.setWidth 256).toNat = decimals.toInt.natAbs := by
  rw [BitVec.toNat_setWidth_of_le (by decide), toNat_nonneg nonneg]

/-- The exponent of a scale below zero: no cast of the chain loses a bit, at -128 either. -/
theorem negated_scale (negative : decimals.toInt < 0) :
    (((-decimals.signExtend 256).setWidth 8).setWidth 256).toNat = decimals.toInt.natAbs := by
  rw [BitVec.toNat_setWidth_of_le (by decide), toNat_magnitude (by decide) negative]

theorem scaleValuation_nonneg (nonneg : 0 ≤ decimals.toInt) :
    scaleValuation quantity price decimals =
      (do
        let product ← checked 256 (quantity.toNat * price.toNat)
        let scale ← checked 256 (10 ^ decimals.toInt.natAbs)
        return BitVec.ofNat 256 (product / scale)) := by
  simp only [scaleValuation, if_pos nonneg, widened_scale nonneg]

theorem scaleValuation_negative (negative : decimals.toInt < 0) :
    scaleValuation quantity price decimals =
      (do
        let product ← checked 256 (quantity.toNat * price.toNat)
        let scale ← checked 256 (10 ^ decimals.toInt.natAbs)
        let valuation ← checked 256 (product * scale)
        return BitVec.ofNat 256 valuation) := by
  have fits := widened_fits (v := 256) (by decide) decimals
  simp only [scaleValuation, if_neg (Int.not_le.mpr negative), checkedNeg_fits fits, pure_bind,
    negated_scale negative]

theorem scaleValuation_fits (fits : Representable quantity price decimals) :
    scaleValuation quantity price decimals =
      .ok (BitVec.ofNat 256 (valuation quantity price decimals)) := by
  unfold valuation
  split
  next nonneg =>
    rw [scaleValuation_nonneg nonneg, ok_bind (checked_fits fits.product), ok_bind (checked_fits fits.scale)]
    rfl
  next below =>
    have negative := Int.not_le.mp below
    rw [scaleValuation_negative negative, ok_bind (checked_fits fits.product),
      ok_bind (checked_fits fits.scale), ok_bind (checked_fits (fits.scaled negative))]
    rfl

theorem scaleValuation_overflows (exceeds : ¬ Representable quantity price decimals) :
    scaleValuation quantity price decimals = .error (.panic 0x11) := by
  by_cases product : quantity.toNat * price.toNat < 2 ^ 256
  · by_cases scale : 10 ^ decimals.toInt.natAbs < 2 ^ 256
    · have scaled : ¬ (decimals.toInt < 0 → _) := fun scaled => exceeds ⟨product, scale, scaled⟩
      obtain ⟨negative, scaled⟩ := Classical.not_imp.mp scaled
      rw [scaleValuation_negative negative, ok_bind (checked_fits product), ok_bind (checked_fits scale),
        checked_overflows (not_lt.mp scaled)]
      rfl
    · rcases le_or_gt 0 decimals.toInt with nonneg | negative
      · rw [scaleValuation_nonneg nonneg, ok_bind (checked_fits product),
          checked_overflows (not_lt.mp scale)]
        rfl
      · rw [scaleValuation_negative negative, ok_bind (checked_fits product),
          checked_overflows (not_lt.mp scale)]
        rfl
  · rw [scaleValuation, checked_overflows (not_lt.mp product)]
    rfl

theorem scaleValuation_ok {v : Word} : scaleValuation quantity price decimals = .ok v ↔
    Representable quantity price decimals ∧ v.toNat = valuation quantity price decimals := by
  constructor
  · intro returned
    by_cases fits : Representable quantity price decimals
    · rw [scaleValuation_fits fits] at returned
      cases returned
      exact ⟨fits, by rw [BitVec.toNat_ofNat, Nat.mod_eq_of_lt (valuation_word fits)]⟩
    · rw [scaleValuation_overflows fits] at returned
      cases returned
  · rintro ⟨fits, value⟩
    rw [scaleValuation_fits fits, ← value, BitVec.ofNat_toNat, BitVec.setWidth_eq]

theorem scaleValuation_error {e : Revert Error} : scaleValuation quantity price decimals = .error e ↔
    ¬ Representable quantity price decimals ∧ e = .panic 0x11 := by
  constructor
  · intro reverted
    by_cases fits : Representable quantity price decimals
    · rw [scaleValuation_fits fits] at reverted
      cases reverted
    · rw [scaleValuation_overflows fits] at reverted
      cases reverted
      exact ⟨fits, rfl⟩
  · rintro ⟨exceeds, rfl⟩
    exact scaleValuation_overflows exceeds

/-- What a quantity is worth at a price that is given in units of `10 ^ -decimals`. -/
def worth (quantity price : Nat) (decimals : Int) : ℚ := quantity * price / 10 ^ decimals

/-- The valuation rounds the worth down, and below a scale of zero it is the worth itself. -/
theorem valuation_floor (quantity price : Word) (decimals : BitVec 8) :
    (valuation quantity price decimals : Int) =
      ⌊worth quantity.toNat price.toNat decimals.toInt⌋ := by
  unfold valuation worth
  split
  next nonneg =>
    have scale : (10 : ℚ) ^ decimals.toInt = ((10 ^ decimals.toInt.natAbs : Nat) : ℚ) := by
      rw [Nat.cast_pow, ← zpow_natCast, Int.natAbs_of_nonneg nonneg]
      rfl
    rw [scale, ← Nat.cast_mul, Rat.floor_natCast_div_natCast, Int.natCast_ediv]
  next below =>
    have scale : (10 : ℚ) ^ decimals.toInt = (((10 ^ decimals.toInt.natAbs : Nat) : ℚ))⁻¹ := by
      have size : decimals.toInt = -(decimals.toInt.natAbs : Int) := by omega
      rw [Nat.cast_pow, ← zpow_natCast, ← zpow_neg, ← size]
      rfl
    rw [scale, div_inv_eq_mul, ← Nat.cast_mul, ← Nat.cast_mul, Int.floor_natCast]

end Scaling

section Limits
variable {Proof : Type}

/-- The gate refuses a feed as stale exactly when it is more than 300 seconds away from the block,
    and never for want of room. -/
structure GatesExactly (answers : Answers Proof) (now : Word) (state : State) (feedId : FeedId) :
    Prop where
  stale : liveFeed answers now state feedId = .error (.error .staleFeed) ↔
    ∃ feed, readFeed answers state feedId = .ok feed ∧ 300 < apart now feed
  fresh : ∀ feed, liveFeed answers now state feedId = .ok feed ↔
    readFeed answers state feedId = .ok feed ∧ apart now feed ≤ 300
  no_panic : ∀ code, liveFeed answers now state feedId ≠ .error (.panic code)

/-- A valuation is exact where it returns, and it panics exactly where a number that the code
    computes is no word. -/
structure ScalesExactly (quantity price : Word) (decimals : BitVec 8) : Prop where
  quotient : 0 ≤ decimals.toInt → ∀ v, scaleValuation quantity price decimals = .ok v →
    v.toNat = quantity.toNat * price.toNat / 10 ^ decimals.toInt.natAbs
  multiple : decimals.toInt < 0 → ∀ v, scaleValuation quantity price decimals = .ok v →
    v.toNat = quantity.toNat * price.toNat * 10 ^ decimals.toInt.natAbs
  reverts : (∃ e, scaleValuation quantity price decimals = .error e) ↔
    2 ^ 256 ≤ quantity.toNat * price.toNat ∨ 2 ^ 256 ≤ 10 ^ decimals.toInt.natAbs ∨
      decimals.toInt < 0 ∧
        2 ^ 256 ≤ quantity.toNat * price.toNat * 10 ^ decimals.toInt.natAbs
  panics : ∀ e, scaleValuation quantity price decimals = .error e → e = .panic 0x11

theorem gates_exactly {answers : Answers Proof} {now : Word} {state : State} {feedId : FeedId}
    (bounded : ∀ feed, readFeed answers state feedId = .ok feed → feed.timestamp.toNat < 2 ^ 64)
    (room : now.toNat + 300 < 2 ^ 256) : GatesExactly answers now state feedId := by
  rcases liveFeed_cases bounded room with
    ⟨e, unread, read, gate⟩ | ⟨feed, read, near, gate⟩ | ⟨feed, read, far, gate⟩
  · have not_stale : e ≠ .error .staleFeed := by rcases unread with rfl | rfl <;> nofun
    have not_panic : ∀ code, e ≠ .panic code := by rcases unread with rfl | rfl <;> nofun
    constructor
    · simp [gate, read, not_stale]
    · simp [gate, read]
    · simp [gate, not_panic]
  · constructor
    · have within : apart now feed ≤ 300 := near
      simp [gate, read, within]
    · intro feed'
      rw [gate, read]
      constructor
      · intro same
        cases same
        exact ⟨rfl, near⟩
      · exact fun h => h.1
    · simp [gate]
  · constructor
    · have beyond : 300 < apart now feed := far
      simp [gate, read, beyond]
    · intro feed'
      rw [gate, read]
      refine iff_of_false nofun ?_
      rintro ⟨same, near⟩
      cases same
      exact far.not_ge near
    · simp [gate]

theorem scales_exactly (quantity price : Word) (decimals : BitVec 8) :
    ScalesExactly quantity price decimals := by
  constructor
  · intro nonneg v returned
    rw [(scaleValuation_ok.mp returned).2, valuation, if_pos nonneg]
  · intro negative v returned
    rw [(scaleValuation_ok.mp returned).2, valuation, if_neg (Int.not_le.mpr negative)]
  · constructor
    · rintro ⟨e, reverted⟩
      by_contra within
      rw [not_or, not_or, not_and, not_le, not_le, not_le] at within
      obtain ⟨product, scale, scaled⟩ := within
      exact (scaleValuation_error.mp reverted).1 ⟨product, scale, scaled⟩
    · intro exceeds
      refine ⟨_, scaleValuation_overflows ?_⟩
      rintro ⟨product, scale, scaled⟩
      rcases exceeds with exceeds | exceeds | ⟨negative, exceeds⟩
      · exact product.not_ge exceeds
      · exact scale.not_ge exceeds
      · exact (scaled negative).not_ge exceeds
  · intro e reverted
    exact (scaleValuation_error.mp reverted).2

/-- The arithmetic of a settlement, over every word, scale and time. -/
theorem settlement_arithmetic (answers : Answers Proof) (now : Word) (state : State) (feedId : FeedId)
    (bounded : ∀ feed, readFeed answers state feedId = .ok feed → feed.timestamp.toNat < 2 ^ 64)
    (quantity price : Word) (decimals : BitVec 8) :
    (now.toNat + 300 < 2 ^ 256 → GatesExactly answers now state feedId) ∧
    (2 ^ 256 ≤ now.toNat + 300 → ∀ feed, readFeed answers state feedId = .ok feed →
      liveFeed answers now state feedId = .error (.panic 0x11)) ∧
    ScalesExactly quantity price decimals := by
  refine ⟨gates_exactly bounded, ?_, scales_exactly quantity price decimals⟩
  intro late feed read
  exact liveFeed_late read late

theorem sample_read : readFeed sampleAnswers sampleState 6 = .ok ⟨3, 0, 1000⟩ := rfl

theorem settlement_arithmetic_sample :
    liveFeed sampleAnswers 1301 sampleState 6 = .error (.error .staleFeed) ∧
      ScalesExactly 1 1 (-128) := by
  have bounded : ∀ feed, readFeed sampleAnswers sampleState 6 = .ok feed →
      feed.timestamp.toNat < 2 ^ 64 := by
    intro feed read
    cases sample_read.symm.trans read
    decide
  obtain ⟨gate, _, scales⟩ := settlement_arithmetic sampleAnswers 1301 sampleState 6 bounded 1 1 (-128)
  exact ⟨(gate (by decide)).stale.mpr ⟨_, sample_read, by decide⟩, scales⟩

/-- So large a quantity and price that their product is a word, and no word with a scale. -/
def sampleAmount : Word := BitVec.ofNat 256 (2 ^ 127)

/-- A block time at the end of the words panics, and a product that a scale from zero on would
    carry over 256 bits does not revert. -/
theorem settlement_limits_fail :
    ¬ GatesExactly sampleAnswers (BitVec.ofNat 256 (2 ^ 256 - 1)) sampleState 6 ∧
    ¬ ((∃ e, scaleValuation sampleAmount sampleAmount 18 = .error e) ↔
      2 ^ 256 ≤ sampleAmount.toNat * sampleAmount.toNat ∨
      2 ^ 256 ≤ 10 ^ (18 : BitVec 8).toInt.natAbs ∨
      2 ^ 256 ≤ sampleAmount.toNat * sampleAmount.toNat * 10 ^ (18 : BitVec 8).toInt.natAbs) := by
  constructor
  · intro gate
    exact gate.no_panic 0x11 (liveFeed_late sample_read (by decide +kernel))
  · intro reverts
    obtain ⟨e, reverted⟩ := reverts.mpr (Or.inr (Or.inr (by decide +kernel)))
    exact (scaleValuation_error.mp reverted).1 ⟨by decide +kernel, by decide +kernel, by decide +kernel⟩

end Limits

section Runs
variable {Proof : Type} {prim : Primitives Proof}

/-- What a settlement announces is the worth of its quantity, rounded down. -/
def Event.Exact : Event → Prop
  | .querySettled _ _ price decimals quantity valuation _ =>
    (valuation.toNat : Int) = ⌊worth quantity.toNat price.toNat decimals.toInt⌋
  | _ => True

theorem exact_unsettled {event : Event} (other : ∀ q, event.settles q = false) : event.Exact := by
  cases event with
  | querySettled q =>
    have settles := other q
    simp [Event.settles] at settles
  | _ => trivial

theorem settlementEvents_exact {s : State} {now valuation : Word} {r : Settlement} {live : Feed}
    (scaled : scaleValuation r.settlementQuantity live.value live.decimals = .ok valuation) :
    ∀ event ∈ settlementEvents s now r live valuation, event.Exact := by
  intro event member
  simp only [settlementEvents, List.mem_cons, List.not_mem_nil, or_false] at member
  rcases member with rfl | rfl | rfl
  · trivial
  · rw [Event.Exact, (scaleValuation_ok.mp scaled).2]
    exact valuation_floor _ _ _
  · trivial

/-- One transaction adds settlements at their worth only. -/
theorem exec_exact {tx : Tx Proof} {s s' : State} {x : Returned}
    (exact : ∀ event ∈ s.log, event.Exact) (ok : (exec prim tx).run s = .ok (x, s')) :
    ∀ event ∈ s'.log, event.Exact := by
  rcases exec_cases ok with quiet | ⟨r, b, _, _, settled⟩
  · obtain ⟨added, log, other⟩ := quiet.event
    rw [log]
    intro event member
    rcases List.mem_append.mp member with old | new
    · exact exact event old
    · obtain rfl := List.mem_singleton.mp new
      exact exact_unsettled other
  · obtain ⟨_, _, _, root, live, valuation, _, _, _, scaled, _, rfl⟩ := verifyAndSettleRAG_ok settled
    intro event member
    rcases List.mem_append.mp member with old | new
    · exact exact event old
    · exact settlementEvents_exact scaled event new

/-- In every run, each settlement that was announced carries the worth of its quantity. -/
theorem settled_exact {owner registry : Address} {digest : Word} {s₀ : State}
    (deployed : deploy owner registry digest = .ok s₀) (txs : List (Tx Proof)) :
    ∀ event ∈ ((machine prim).run s₀ txs).log, event.Exact := by
  have keeps : (machine prim).Keeps fun s => ∀ event ∈ s.log, event.Exact :=
    fun _ _ _ _ exact ok => exec_exact exact ok
  refine Machine.run_keeps keeps ?_ txs
  intro event member
  apply exact_unsettled
  intro q
  have none := List.countP_eq_zero.mp ((deployed_blank deployed).unsettled q) event member
  exact Bool.eq_false_iff.mpr none

end Runs

end VerifiableRag
