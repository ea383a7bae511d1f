import VerifiableRag.Ftso.Node
import VerifiableRag.Ftso.TrimmedMedian

/-!
When the order of the observations, and with it the iteration order of a hash map, decides the
volume-trimmed median: quotes tied in price straddle the cuts in the order they come in.
-/
namespace Ftso

/-- The volume before the first kept quote. -/
def lowEdge (lowCut : ℚ) : ℚ → List Observation → ℚ
  | cum, [] => cum
  | cum, o :: rest =>
    if cum + o.volume24h ≤ lowCut then lowEdge lowCut (cum + o.volume24h) rest else cum

/-- The volume through the last kept quote. -/
def highEdge (highCut : ℚ) : ℚ → List Observation → ℚ
  | cum, [] => cum
  | cum, o :: rest => if cum < highCut then highEdge highCut (cum + o.volume24h) rest else cum

section Edges
variable {lowCut highCut cum : ℚ} {obs front back : List Observation} {o : Observation}

theorem lowEdge_beyond (quoted : Quoted obs) (beyond : lowCut < cum) :
    lowEdge lowCut cum obs = cum := by
  cases obs with
  | nil => rfl
  | cons o rest =>
    have nonneg := quoted.nonneg o (by simp)
    rw [lowEdge, if_neg (by linarith)]

theorem highEdge_beyond (beyond : highCut ≤ cum) : highEdge highCut cum obs = cum := by
  cases obs with
  | nil => rfl
  | cons o rest => rw [highEdge, if_neg (not_lt.mpr beyond)]

theorem Quoted.cons_tail (quoted : Quoted (o :: obs)) : Quoted obs :=
  quoted.sublist (List.sublist_cons_self o obs)

theorem lowEdge_append (quoted : Quoted front) (before : cum + volume front ≤ lowCut) :
    lowEdge lowCut cum (front ++ back) = lowEdge lowCut (cum + volume front) back := by
  induction front generalizing cum with
  | nil => simp
  | cons o front ih =>
    have rest := quoted.cons_tail.volume_nonneg
    rw [volume_cons, ← add_assoc] at before ⊢
    rw [List.cons_append, lowEdge, if_pos (by linarith)]
    exact ih quoted.cons_tail before

theorem lowEdge_inside (quoted : Quoted (front ++ back)) (inside : lowCut < cum + volume front) :
    lowEdge lowCut cum (front ++ back) = lowEdge lowCut cum front := by
  induction front generalizing cum with
  | nil =>
    rw [volume_nil, add_zero] at inside
    exact lowEdge_beyond quoted inside
  | cons o front ih =>
    rw [volume_cons, ← add_assoc] at inside
    rw [List.cons_append] at quoted ⊢
    rw [lowEdge, lowEdge, ih quoted.cons_tail inside]

theorem highEdge_append (quoted : Quoted front) (before : cum + volume front < highCut) :
    highEdge highCut cum (front ++ back) = highEdge highCut (cum + volume front) back := by
  induction front generalizing cum with
  | nil => simp
  | cons o front ih =>
    have here := quoted.nonneg o (by simp)
    have rest := quoted.cons_tail.volume_nonneg
    rw [volume_cons, ← add_assoc] at before ⊢
    rw [List.cons_append, highEdge, if_pos (by linarith)]
    exact ih quoted.cons_tail before

theorem highEdge_inside (inside : highCut ≤ cum + volume front) :
    highEdge highCut cum (front ++ back) = highEdge highCut cum front := by
  induction front generalizing cum with
  | nil =>
    rw [volume_nil, add_zero] at inside
    exact highEdge_beyond inside
  | cons o front ih =>
    rw [volume_cons, ← add_assoc] at inside
    rw [List.cons_append, highEdge, highEdge, ih inside]

theorem lowEdge_ge (quoted : Quoted obs) : cum ≤ lowEdge lowCut cum obs := by
  induction obs generalizing cum with
  | nil => exact le_refl cum
  | cons o rest ih =>
    have nonneg := quoted.nonneg o (by simp)
    rw [lowEdge]
    split
    · have later := @ih (cum + o.volume24h) quoted.cons_tail
      linarith
    · exact le_refl cum

theorem highEdge_le (quoted : Quoted obs) : highEdge highCut cum obs ≤ cum + volume obs := by
  induction obs generalizing cum with
  | nil => simp [highEdge]
  | cons o rest ih =>
    rw [highEdge]
    split
    · have later := @ih (cum + o.volume24h) quoted.cons_tail
      rw [volume_cons]
      linarith
    · have nonneg := quoted.volume_nonneg
      linarith

/-- The kept quotes carry the volume between the edges. -/
theorem trim_volume (quoted : Quoted obs) (band : lowCut < highCut) :
    ((trim lowCut highCut cum obs).map Prod.snd).sum =
      highEdge highCut cum obs - lowEdge lowCut cum obs := by
  induction obs generalizing cum with
  | nil => simp [trim, lowEdge, highEdge]
  | cons o rest ih =>
    have nonneg := quoted.nonneg o (by simp)
    have later := @ih (cum + o.volume24h) quoted.cons_tail
    rw [trim, lowEdge, highEdge]
    by_cases low : cum + o.volume24h ≤ lowCut
    · rw [if_neg (by intro meets; linarith [meets.1]), if_pos low, if_pos (by linarith)]
      exact later
    · have beyond := lowEdge_beyond quoted.cons_tail (not_le.mp low)
      rw [beyond] at later
      by_cases high : cum < highCut
      · rw [if_pos ⟨not_le.mp low, high⟩, if_neg low, if_pos high, List.map_cons, List.sum_cons, later]
        linarith
      · rw [if_neg (by intro meets; exact high meets.2), if_neg low, if_neg high, later,
          highEdge_beyond (by linarith)]
        linarith

/-- The lower edge lies before a quote that straddles the cut. -/
theorem lowEdge_straddled (before : cum ≤ lowCut) (after : lowCut < cum + volume obs) :
    ∃ front o back, obs = front ++ o :: back ∧ lowEdge lowCut cum obs = cum + volume front ∧
      cum + volume front ≤ lowCut ∧ lowCut < cum + volume front + o.volume24h := by
  induction obs generalizing cum with
  | nil =>
    rw [volume_nil] at after
    linarith
  | cons o rest ih =>
    rw [volume_cons, ← add_assoc] at after
    rw [lowEdge]
    split
    · rename_i low
      obtain ⟨front, o', back, split, edge, below, above⟩ := ih low after
      rw [add_assoc] at edge below
      exact ⟨o :: front, o', back, by rw [split, List.cons_append], by rw [volume_cons, edge],
        by rw [volume_cons]; exact below, by rw [volume_cons]; linarith⟩
    · rename_i high
      exact ⟨[], o, rest, rfl, by simp, by simpa using before, by simpa using high⟩

/-- The upper edge lies behind a quote that reaches the cut. -/
theorem highEdge_straddled (before : cum < highCut) (after : highCut ≤ cum + volume obs) :
    ∃ front o back, obs = front ++ o :: back ∧
      highEdge highCut cum obs = cum + volume front + o.volume24h ∧
      cum + volume front < highCut ∧ highCut ≤ cum + volume front + o.volume24h := by
  induction obs generalizing cum with
  | nil =>
    rw [volume_nil] at after
    linarith
  | cons o rest ih =>
    rw [volume_cons, ← add_assoc] at after
    rw [highEdge, if_pos before]
    by_cases reached : highCut ≤ cum + o.volume24h
    · refine ⟨[], o, rest, rfl, ?_, by simpa using before, by simpa using reached⟩
      rw [highEdge_beyond reached, volume_nil, add_zero]
    · obtain ⟨front, o', back, split, edge, below, above⟩ := ih (not_le.mp reached) after
      rw [edge]
      exact ⟨o :: front, o', back, by rw [split, List.cons_append], by rw [volume_cons]; ring,
        by rw [volume_cons]; linarith, by rw [volume_cons]; linarith⟩

theorem lowEdge_at (quoted : Quoted (front ++ o :: back)) (below : cum + volume front ≤ lowCut)
    (above : lowCut < cum + volume front + o.volume24h) :
    lowEdge lowCut cum (front ++ o :: back) = cum + volume front := by
  rw [lowEdge_append (quoted.sublist (List.sublist_append_left _ _)) below, lowEdge,
    if_neg (not_le.mpr above)]

theorem highEdge_at (quoted : Quoted (front ++ o :: back)) (below : cum + volume front < highCut)
    (above : highCut ≤ cum + volume front + o.volume24h) :
    highEdge highCut cum (front ++ o :: back) = cum + volume front + o.volume24h := by
  rw [highEdge_append (quoted.sublist (List.sublist_append_left _ _)) below, highEdge, if_pos below,
    highEdge_beyond above]

end Edges

/-- The volume quoted up to a price. -/
def volumeUpTo (obs : List Observation) (q : ℚ) : ℚ := volume (obs.filter fun o => o.price ≤ q)

section Median
variable {obs : List Observation} {half acc q : ℚ}

theorem sorted_split {sorted : List Observation}
    (ordered : sorted.Pairwise fun a b => a.price ≤ b.price) (q : ℚ) :
    sorted = (sorted.filter fun o => o.price ≤ q) ++ sorted.filter fun o => q < o.price := by
  induction ordered with
  | nil => rfl
  | @cons o rest lower _ ih =>
    by_cases cheap : o.price ≤ q
    · rw [List.filter_cons_of_pos (by simpa using cheap),
        List.filter_cons_of_neg (by simpa using cheap), List.cons_append, ← ih]
    · have none_cheap : rest.filter (fun a => a.price ≤ q) = [] := by
        rw [List.filter_eq_nil_iff]
        intro a member below
        exact cheap ((lower a member).trans (by simpa using below))
      rw [none_cheap, List.nil_append] at ih
      rw [List.filter_cons_of_neg (by simpa using cheap),
        List.filter_cons_of_pos (by simpa using cheap), none_cheap, List.nil_append, ← ih]

/-- The crossing lies among the cheap quotes when these hold half of the volume. -/
theorem firstCrossing_le_iff {cheap dear : List (ℚ × ℚ)} (nonneg : ∀ quote ∈ cheap, 0 ≤ quote.2)
    (below : ∀ quote ∈ cheap, quote.1 ≤ q) (above : ∀ quote ∈ dear, q < quote.1)
    (before : acc < half) :
    (∃ p, firstCrossing half acc (cheap ++ dear) = some p ∧ p ≤ q) ↔
      half ≤ acc + (cheap.map Prod.snd).sum := by
  induction cheap generalizing acc with
  | nil =>
    rw [List.map_nil, List.sum_nil, add_zero, List.nil_append]
    apply iff_of_false _ (not_le.mpr before)
    intro h
    obtain ⟨p, crossed, cheap⟩ := h
    obtain ⟨quote, member, rfl⟩ := firstCrossing_mem crossed
    exact (above quote member).not_ge cheap
  | cons quote cheap ih =>
    rw [List.forall_mem_cons] at nonneg below
    rw [List.cons_append, firstCrossing, List.map_cons, List.sum_cons, ← add_assoc]
    split
    · rename_i reached
      have rest : 0 ≤ (cheap.map Prod.snd).sum := by
        apply List.sum_nonneg
        intro v member
        obtain ⟨quote', inside, rfl⟩ := List.mem_map.mp member
        exact nonneg.2 quote' inside
      exact iff_of_true ⟨quote.1, rfl, below.1⟩ (by linarith)
    · rename_i short
      exact ih nonneg.2 below.2 (not_le.mp short)

theorem trim_prices {lowCut highCut cum : ℚ} {quote : ℚ × ℚ}
    (member : quote ∈ trim lowCut highCut cum obs) :
    ∃ o ∈ obs, quote = (o.price, o.volume24h) := by
  obtain ⟨front, o, back, split, same, _⟩ := mem_trim member
  exact ⟨o, by simp [split], same⟩

/-- The result is the first price up to which the volume reaches the middle of the edges. -/
theorem median_le_iff (quoted : Quoted obs) (traded : 0 < volume obs) (q : ℚ) :
    (∃ p, volumeTrimmedMedian obs = some p ∧ p ≤ q) ↔
      lowEdge (TRIM_LOW * volume obs) 0 (byPrice obs) +
        highEdge (TRIM_HIGH * volume obs) 0 (byPrice obs) ≤ 2 * volumeUpTo obs q := by
  obtain ⟨positive, band, inside⟩ := cuts traded
  have quoted' := quoted.perm (byPrice_perm obs).symm
  have whole := volume_byPrice obs
  have upTo : volumeUpTo obs q = volume ((byPrice obs).filter fun o => o.price ≤ q) :=
    volume_perm ((byPrice_perm obs).symm.filter _)
  have parts := sorted_split (byPrice_sorted obs) q
  rw [upTo, median_eq quoted traded, halfKept, keptQuotes, trim_volume quoted' band]
  generalize byPrice obs = sorted at *
  generalize TRIM_LOW * volume obs = lowCut at *
  generalize TRIM_HIGH * volume obs = highCut at *
  obtain ⟨_, _, _, _, low, low_le, _⟩ :=
    @lowEdge_straddled lowCut 0 sorted positive.le (by linarith)
  obtain ⟨_, _, _, _, high, _, high_ge⟩ :=
    @highEdge_straddled highCut 0 sorted (by linarith) (by linarith)
  rw [← low] at low_le
  rw [← high] at high_ge
  have least := @lowEdge_ge lowCut 0 sorted quoted'
  generalize cheap_eq : (sorted.filter fun o => o.price ≤ q) = cheap at *
  generalize dear_eq : (sorted.filter fun o => q < o.price) = dear at *
  have below : ∀ o ∈ cheap, o.price ≤ q := by
    intro o member
    rw [← cheap_eq] at member
    simpa using List.of_mem_filter member
  have above : ∀ o ∈ dear, q < o.price := by
    intro o member
    rw [← dear_eq] at member
    simpa using List.of_mem_filter member
  rw [parts] at quoted' low_le high_ge ⊢
  have quoted_cheap := quoted'.sublist (List.sublist_append_left cheap dear)
  have quoted_dear := quoted'.sublist (List.sublist_append_right cheap dear)
  rw [trim_append, firstCrossing_le_iff, trim_volume quoted_cheap band]
  · rcases le_or_gt (volume cheap) lowCut with early | later
    · -- the band begins behind the cheap quotes
      have start := @lowEdge_append lowCut 0 cheap dear quoted_cheap (by linarith)
      have none_low := @lowEdge_append lowCut 0 cheap [] quoted_cheap (by linarith)
      have none_high := @highEdge_append highCut 0 cheap [] quoted_cheap (by linarith)
      have beyond := @lowEdge_ge lowCut (0 + volume cheap) dear quoted_dear
      rw [List.append_nil, lowEdge] at none_low
      rw [List.append_nil, highEdge] at none_high
      rw [none_low, none_high]
      constructor <;> intro bound <;> linarith
    · have start := @lowEdge_inside lowCut 0 cheap dear quoted' (by linarith)
      rcases lt_or_ge (volume cheap) highCut with within | beyond
      · -- the cheap quotes end in the band
        have stop := @highEdge_append highCut 0 cheap [] quoted_cheap (by linarith)
        rw [List.append_nil, highEdge] at stop
        rw [stop, start]
        constructor <;> intro bound <;> linarith
      · -- the band ends among the cheap quotes
        have stop := @highEdge_inside highCut 0 cheap dear (by linarith)
        have most := @highEdge_le highCut 0 cheap quoted_cheap
        rw [stop] at high_ge ⊢
        rw [start] at low_le ⊢
        constructor <;> intro bound <;> linarith
  · intro quote member
    obtain ⟨o, inside, rfl⟩ := trim_prices member
    exact quoted_cheap.nonneg o inside
  · intro quote member
    obtain ⟨o, inside, rfl⟩ := trim_prices member
    exact below o inside
  · intro quote member
    obtain ⟨o, inside, rfl⟩ := trim_prices member
    exact above o inside
  · linarith

end Median

/-- In some order of the tied quotes, `front` is what precedes `o`. -/
def Precedes (obs front : List Observation) (o : Observation) : Prop :=
  ∃ back, (front ++ o :: back).Perm obs ∧ (∀ a ∈ front, a.price ≤ o.price) ∧
    ∀ b ∈ back, o.price ≤ b.price

/-- A volume below the lower cut up to which a quote may begin that exceeds it. -/
def MayBegin (obs : List Observation) (x : ℚ) : Prop :=
  ∃ front o, Precedes obs front o ∧ x = volume front ∧ x ≤ TRIM_LOW * volume obs ∧
    TRIM_LOW * volume obs < x + o.volume24h

/-- A volume from the upper cut on with which a quote may end that begins below it. -/
def MayEnd (obs : List Observation) (y : ℚ) : Prop :=
  ∃ front o, Precedes obs front o ∧ y = volume front + o.volume24h ∧
    volume front < TRIM_HIGH * volume obs ∧ TRIM_HIGH * volume obs ≤ y

/-- Twice the volume up to any price is on one side of the sum of the two edges, whichever of the
    tied quotes straddle the cuts. -/
def TiesUndecisive (obs : List Observation) : Prop :=
  ∀ q x y x' y', MayBegin obs x → MayEnd obs y → MayBegin obs x' → MayEnd obs y' →
    (x + y ≤ 2 * volumeUpTo obs q ↔ x' + y' ≤ 2 * volumeUpTo obs q)

section Ties
variable {obs obs' front back : List Observation} {o : Observation} {x y q : ℚ}

theorem precedes_sorted (same : obs'.Perm obs) (split : byPrice obs' = front ++ o :: back) :
    Precedes obs front o := by
  have sorted := byPrice_sorted obs'
  have perm := (byPrice_perm obs').trans same
  rw [split] at sorted perm
  rw [List.pairwise_append, List.pairwise_cons] at sorted
  obtain ⟨_, ⟨upper, _⟩, lower⟩ := sorted
  exact ⟨back, perm, fun a member => lower a member o (by simp), upper⟩

theorem mayBegin_lowEdge (traded : 0 < volume obs) (same : obs'.Perm obs) :
    MayBegin obs (lowEdge (TRIM_LOW * volume obs) 0 (byPrice obs')) := by
  obtain ⟨positive, band, inside⟩ := cuts traded
  have whole : volume (byPrice obs') = volume obs := (volume_byPrice obs').trans (volume_perm same)
  obtain ⟨front, o, back, split, edge, below, above⟩ :=
    @lowEdge_straddled (TRIM_LOW * volume obs) 0 (byPrice obs') positive.le (by linarith)
  rw [zero_add] at edge below above
  rw [edge]
  exact ⟨front, o, precedes_sorted same split, rfl, below, above⟩

theorem mayEnd_highEdge (traded : 0 < volume obs) (same : obs'.Perm obs) :
    MayEnd obs (highEdge (TRIM_HIGH * volume obs) 0 (byPrice obs')) := by
  obtain ⟨positive, band, inside⟩ := cuts traded
  have whole : volume (byPrice obs') = volume obs := (volume_byPrice obs').trans (volume_perm same)
  obtain ⟨front, o, back, split, edge, below, above⟩ :=
    @highEdge_straddled (TRIM_HIGH * volume obs) 0 (byPrice obs') (by linarith) (by linarith)
  rw [zero_add] at edge below above
  rw [edge]
  exact ⟨front, o, precedes_sorted same split, rfl, below, above⟩

theorem middlePrice_congr {sorted sorted' : List Observation}
    (same : sorted.map Observation.price = sorted'.map Observation.price) :
    middlePrice sorted = middlePrice sorted' := by
  have length : sorted.length = sorted'.length := by
    have sizes := congrArg List.length same
    rwa [List.length_map, List.length_map] at sizes
  have prices (i : Nat) : sorted[i]?.map Observation.price = sorted'[i]?.map Observation.price := by
    rw [← List.getElem?_map, same, List.getElem?_map]
  have upper := prices (sorted'.length / 2)
  have lower := prices (sorted'.length / 2 - 1)
  unfold middlePrice
  rw [length]
  cases h : sorted[sorted'.length / 2]? <;> cases h' : sorted'[sorted'.length / 2]? <;>
    cases k : sorted[sorted'.length / 2 - 1]? <;> cases k' : sorted'[sorted'.length / 2 - 1]? <;>
    simp_all

theorem prices_byPrice (same : obs'.Perm obs) :
    (byPrice obs').map Observation.price = (byPrice obs).map Observation.price := by
  have perm := ((byPrice_perm obs').trans (same.trans (byPrice_perm obs).symm)).map
    Observation.price
  have sorted (l : List Observation) :
      ((byPrice l).map Observation.price).Pairwise (· ≤ ·) := by
    rw [List.pairwise_map]
    exact byPrice_sorted l
  exact perm.eq_of_pairwise' (sorted obs') (sorted obs)

/-- Without volume the result is the middle of the prices, in whatever order. -/
theorem median_untraded (untraded : volume obs ≤ 0) (same : obs'.Perm obs) :
    volumeTrimmedMedian obs' = volumeTrimmedMedian obs := by
  have length := same.length_eq
  match obs, obs' with
  | [], [] => rfl
  | [a], [b] =>
    rw [List.singleton_perm_singleton.mp same]
  | a :: b :: rest, c :: d :: rest' =>
    have untraded' := untraded
    rw [← volume_perm same] at untraded'
    rw [median_several, median_several]
    simp only [if_pos untraded, if_pos untraded']
    exact middlePrice_congr (prices_byPrice same)
  | [], _ :: _ => cases length
  | _ :: _, [] => cases length
  | [_], _ :: _ :: _ => simp at length
  | _ :: _ :: _, [_] => simp at length

/-- One direction: the edges of any order are among the possible ones. -/
theorem order_free (quoted : Quoted obs) (undecisive : TiesUndecisive obs) (same : obs'.Perm obs) :
    volumeTrimmedMedian obs' = volumeTrimmedMedian obs := by
  rcases le_or_gt (volume obs) 0 with untraded | traded
  · exact median_untraded untraded same
  have quoted' := quoted.perm same.symm
  have volumes := volume_perm same
  have traded' : 0 < volume obs' := by rwa [volumes]
  have agree (q : ℚ) : (∃ p, volumeTrimmedMedian obs' = some p ∧ p ≤ q) ↔
      ∃ p, volumeTrimmedMedian obs = some p ∧ p ≤ q := by
    have upTo : volumeUpTo obs' q = volumeUpTo obs q := volume_perm (same.filter _)
    rw [median_le_iff quoted' traded', median_le_iff quoted traded, volumes, upTo]
    exact undecisive q _ _ _ _ (mayBegin_lowEdge traded same) (mayEnd_highEdge traded same)
      (mayBegin_lowEdge traded (List.Perm.refl obs)) (mayEnd_highEdge traded (List.Perm.refl obs))
  obtain ⟨p, result⟩ := firstCrossing_keptQuotes quoted traded
  obtain ⟨p', result'⟩ := firstCrossing_keptQuotes quoted' traded'
  rw [← median_eq quoted traded] at result
  rw [← median_eq quoted' traded'] at result'
  rw [result, result'] at agree ⊢
  simp only [Option.some.injEq, exists_eq_left'] at agree
  exact congrArg some (le_antisymm ((agree p).mpr (le_refl p)) ((agree p').mp (le_refl p')))

theorem Precedes.below (precedes : Precedes obs front o) (quoted : Quoted obs) (below : q < o.price) :
    volumeUpTo obs q ≤ volume front := by
  obtain ⟨back, same, _, upper⟩ := precedes
  have dear : (o :: back).filter (fun a => a.price ≤ q) = [] := by
    rw [List.filter_eq_nil_iff, List.forall_mem_cons]
    constructor
    · simpa using below
    · intro b member
      simpa using below.trans_le (upper b member)
  rw [volumeUpTo, ← volume_perm (same.filter _), List.filter_append, dear, List.append_nil]
  exact ((quoted.perm same.symm).sublist (List.sublist_append_left front _)).volume_sublist
    List.filter_sublist

theorem Precedes.through (precedes : Precedes obs front o) (quoted : Quoted obs)
    (reached : o.price ≤ q) : volume front + o.volume24h ≤ volumeUpTo obs q := by
  obtain ⟨back, same, lower, _⟩ := precedes
  have cheap : front.filter (fun a => a.price ≤ q) = front := by
    rw [List.filter_eq_self]
    intro a member
    simpa using (lower a member).trans reached
  have more := ((quoted.perm same.symm).sublist
    ((List.filter_sublist (p := fun a => a.price ≤ q)).trans
      ((List.sublist_cons_self o back).trans (List.sublist_append_right front _)))).volume_nonneg
  rw [volumeUpTo, ← volume_perm (same.filter _), List.filter_append, cheap,
    List.filter_cons_of_pos (by simpa using reached), volume_append, volume_cons]
  linarith

/-- The order that sorts what is around a quote, and leaves it in its place. -/
theorem Precedes.ordered (precedes : Precedes obs front o) :
    ∃ back, (byPrice front ++ o :: back).Perm obs ∧
      (byPrice front ++ o :: back).Pairwise fun a b => a.price ≤ b.price := by
  obtain ⟨back, same, lower, upper⟩ := precedes
  refine ⟨byPrice back, ?_, ?_⟩
  · exact ((byPrice_perm front).append ((byPrice_perm back).cons o)).trans same
  · rw [List.pairwise_append, List.pairwise_cons]
    refine ⟨byPrice_sorted front, ⟨?_, byPrice_sorted back⟩, ?_⟩
    · intro b member
      exact upper b ((byPrice_perm back).mem_iff.mp member)
    · intro a member b later
      have below := lower a ((byPrice_perm front).mem_iff.mp member)
      rcases List.mem_cons.mp later with rfl | later
      · exact below
      · exact below.trans (upper b ((byPrice_perm back).mem_iff.mp later))

theorem filter_price_perm (obs : List Observation) (r : ℚ) :
    (obs.filter (fun a => a.price < r) ++ obs.filter fun a => r ≤ a.price).Perm obs := by
  have opposite : (fun a : Observation => !decide (a.price < r)) = fun a => decide (r ≤ a.price) := by
    funext a
    rw [← decide_not]
    simp only [not_lt]
  rw [← opposite]
  exact List.filter_append_perm _ obs

/-- Two choices at different prices are made by one order. -/
theorem Precedes.both {front' : List Observation} {o' : Observation}
    (first : Precedes obs front o) (second : Precedes obs front' o') (apart : o.price < o'.price) :
    ∃ sorted, sorted.Perm obs ∧ (sorted.Pairwise fun a b => a.price ≤ b.price) ∧
      (∃ back, sorted = byPrice front ++ o :: back) ∧
      ∃ before after, sorted = before ++ o' :: after ∧ volume before = volume front' := by
  have lower := first
  obtain ⟨_, _, lower, _⟩ := lower
  obtain ⟨back, same, sorted⟩ := first.ordered
  obtain ⟨back', same', sorted'⟩ := second.ordered
  have upper := sorted'
  rw [List.pairwise_append, List.pairwise_cons] at upper
  have cheap : (byPrice front).filter (fun a => a.price < o'.price) = byPrice front := by
    rw [List.filter_eq_self]
    intro a member
    simpa using (lower a ((byPrice_perm front).mem_iff.mp member)).trans_lt apart
  have dear : back'.filter (fun a => o'.price ≤ a.price) = back' := by
    rw [List.filter_eq_self]
    intro b member
    simpa using upper.2.1.1 b member
  have none_cheap : back'.filter (fun a => a.price < o'.price) = [] := by
    rw [List.filter_eq_nil_iff]
    intro b member
    simpa using upper.2.1.1 b member
  have below : ((byPrice front ++ o :: back).filter fun a => a.price < o'.price).Perm
      ((byPrice front').filter fun a => a.price < o'.price) := by
    apply ((same.trans same'.symm).filter _).trans
    rw [List.filter_append, List.filter_cons_of_neg (by simp), none_cheap, List.append_nil]
  refine ⟨(byPrice front ++ o :: back).filter (fun a => a.price < o'.price) ++
    (byPrice front' ++ o' :: back').filter (fun a => o'.price ≤ a.price), ?_, ?_, ?_, ?_⟩
  · exact (((same.filter _).append (same'.filter _)).trans (filter_price_perm obs o'.price))
  · rw [List.pairwise_append]
    refine ⟨sorted.filter _, sorted'.filter _, ?_⟩
    intro a member b later
    have left : a.price < o'.price := by simpa using List.of_mem_filter member
    have right : o'.price ≤ b.price := by simpa using List.of_mem_filter later
    exact (left.trans_le right).le
  · rw [List.filter_append, cheap, List.filter_cons_of_pos (by simpa using apart), List.append_assoc,
      List.cons_append]
    exact ⟨_, rfl⟩
  · rw [List.filter_append (byPrice front'), List.filter_cons_of_pos (by simp), dear,
      ← List.append_assoc]
    refine ⟨_, back', rfl, ?_⟩
    rw [volume_append, volume_perm below, ← volume_append, volume_perm (filter_price_perm _ _),
      volume_byPrice]

theorem byPrice_of_sorted {sorted : List Observation}
    (ordered : sorted.Pairwise fun a b => a.price ≤ b.price) : byPrice sorted = sorted :=
  ordered.insertionSort_eq

/-- Quotes at one price straddle both cuts: that price is the result in every order. -/
theorem median_one_price {p : ℚ} (quoted : Quoted obs) (traded : 0 < volume obs)
    (begins : ∀ q < p, volumeUpTo obs q ≤ TRIM_LOW * volume obs)
    (ends : TRIM_HIGH * volume obs ≤ volumeUpTo obs p) : volumeTrimmedMedian obs = some p := by
  obtain ⟨r, result⟩ := firstCrossing_keptQuotes quoted traded
  rw [← median_eq quoted traded] at result
  obtain ⟨cheap, dear⟩ := median_quartiles quoted traded result
  rw [result]
  rcases lt_trichotomy r p with below | rfl | above
  · exact absurd cheap (not_lt.mpr (begins r below))
  · rfl
  · have parts := volume_perm (filter_price_perm obs r)
    have included : volumeUpTo obs p ≤ volume (obs.filter fun a => a.price < r) := by
      apply (quoted.sublist List.filter_sublist).volume_sublist
      apply List.monotone_filter_right
      intro a cheap
      simpa using lt_of_le_of_lt (by simpa using cheap) above
    rw [volume_append] at parts
    linarith

/-- The edges of one order, for any two choices, decide as the result does when no order matters. -/
theorem edges_decide (quoted : Quoted obs)
    (invariant : ∀ obs', obs'.Perm obs → volumeTrimmedMedian obs' = volumeTrimmedMedian obs)
    (begins : MayBegin obs x) (ends : MayEnd obs y) (q : ℚ) :
    x + y ≤ 2 * volumeUpTo obs q ↔ ∃ p, volumeTrimmedMedian obs = some p ∧ p ≤ q := by
  obtain ⟨front, o, first, rfl, low_le, low_lt⟩ := begins
  obtain ⟨front', o', second, rfl, high_lt, high_le⟩ := ends
  have traded : 0 < volume obs := by
    have some_volume := first.through quoted (le_refl o.price)
    have part : volumeUpTo obs o.price ≤ volume obs := quoted.volume_sublist List.filter_sublist
    rw [trim_low] at low_lt
    linarith
  obtain ⟨positive, band, inside⟩ := cuts traded
  rcases lt_trichotomy o.price o'.price with apart | one | crossed
  · obtain ⟨sorted, same, ordered, ⟨back, begins⟩, before, after, ends, size⟩ := first.both second apart
    have quoted' := quoted.perm same.symm
    have volumes := volume_perm same
    have upTo : volumeUpTo sorted q = volumeUpTo obs q := volume_perm (same.filter _)
    rw [← invariant sorted same, median_le_iff quoted' (by rwa [volumes]), volumes, upTo,
      byPrice_of_sorted ordered]
    have low : lowEdge (TRIM_LOW * volume obs) 0 sorted = volume front := by
      rw [begins] at quoted' ⊢
      rw [lowEdge_at quoted', zero_add, volume_byPrice]
      · rw [zero_add, volume_byPrice]
        exact low_le
      · rw [zero_add, volume_byPrice]
        exact low_lt
    have high : highEdge (TRIM_HIGH * volume obs) 0 sorted = volume front' + o'.volume24h := by
      rw [ends] at quoted' ⊢
      rw [highEdge_at quoted', zero_add, size]
      · rw [zero_add, size]
        exact high_lt
      · rw [zero_add, size]
        exact high_le
    rw [low, high]
  · have begins : ∀ q < o.price, volumeUpTo obs q ≤ volume front := fun q below =>
      first.below quoted below
    have ends : ∀ q, o.price ≤ q → volume front' + o'.volume24h ≤ volumeUpTo obs q := fun q reached =>
      second.through quoted (one ▸ reached)
    rw [median_one_price quoted traded (fun q below => (begins q below).trans low_le)
      (high_le.trans (ends o.price (le_refl _)))]
    simp only [Option.some.injEq, exists_eq_left']
    rcases lt_or_ge q o.price with below | reached
    · have few := begins q below
      apply iff_of_false _ (not_le.mpr below)
      intro bound
      linarith
    · have many := ends q reached
      exact iff_of_true (by linarith) reached
  · have few := first.below quoted crossed
    have many := second.through quoted (le_refl o'.price)
    linarith

/-- Two iterations of a book hand out the same observations. -/
theorem observations_perm (book : PriceBook) (iteration iteration' : Iteration) (feed : Feed) :
    (book.observations iteration' feed).Perm (book.observations iteration feed) := by
  apply List.Perm.filterMap
  rw [List.perm_ext_iff_of_nodup iteration'.nodup iteration.nodup]
  intro exchange
  exact iff_of_true (iteration'.complete exchange) (iteration.complete exchange)

end Ties

section Claim
variable {obs : List Observation}

/-- Exactly when no order of the observations changes the result; then no iteration order does. -/
theorem order_independent_iff (quoted : Quoted obs) :
    ((∀ obs', obs'.Perm obs → volumeTrimmedMedian obs' = volumeTrimmedMedian obs) ↔
      TiesUndecisive obs) ∧
    ∀ (book : PriceBook) (feed : Feed) (iteration iteration' : Iteration),
      book.observations iteration feed = obs → TiesUndecisive obs →
        volumeTrimmedMedian (book.observations iteration' feed) = volumeTrimmedMedian obs := by
  constructor
  · constructor
    · intro invariant q x y x' y' begins ends begins' ends'
      rw [edges_decide quoted invariant begins ends, edges_decide quoted invariant begins' ends']
    · intro undecisive obs' same
      exact order_free quoted undecisive same
  · intro book feed iteration iteration' observed undecisive
    apply order_free quoted undecisive
    rw [← observed]
    exact observations_perm book iteration iteration' feed

theorem order_independent_iff_thin :
    (∀ obs', obs'.Perm [⟨"thin", 100, 1⟩, ⟨"deep", 110, 10⟩] →
      volumeTrimmedMedian obs' = volumeTrimmedMedian [⟨"thin", 100, 1⟩, ⟨"deep", 110, 10⟩]) ↔
        TiesUndecisive [⟨"thin", 100, 1⟩, ⟨"deep", 110, 10⟩] :=
  (order_independent_iff ⟨by decide +kernel, by decide +kernel⟩).1

/-- Two exchanges that quote one price with different volumes, and a third above them. -/
def tiedBook : PriceBook :=
  ⟨fun _ exchange =>
    match exchange with
    | .coinbase => some ⟨1, 1, 0⟩
    | .kraken => some ⟨1, 3, 0⟩
    | .binance => some ⟨2, 4, 0⟩
    | _ => none⟩

theorem tied_order_shown :
    ∃ iteration iteration' : Iteration, ∃ feed : Feed,
      Quoted (tiedBook.observations iteration feed) ∧
      (tiedBook.observations iteration' feed).Perm (tiedBook.observations iteration feed) ∧
      volumeTrimmedMedian (tiedBook.observations iteration feed) = some 2 ∧
      volumeTrimmedMedian (tiedBook.observations iteration' feed) = some 1 := by
  refine ⟨⟨[.coinbase, .kraken, .binance, .gate, .bitfinex], by decide, by intro e; cases e <;> decide⟩,
    ⟨[.kraken, .coinbase, .binance, .gate, .bitfinex], by decide, by intro e; cases e <;> decide⟩,
    .xrpUsd, ⟨by decide +kernel, by decide +kernel⟩, by decide +kernel, by decide +kernel,
    by decide +kernel⟩

end Claim

end Ftso
