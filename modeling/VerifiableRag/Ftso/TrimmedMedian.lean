import VerifiableRag.Ftso.Calculator
import Mathlib.Algebra.BigOperators.Group.List.Basic
import Mathlib.Tactic.Linarith
import Mathlib.Tactic.Positivity

/-!
Where the volume-trimmed median lies among the quotes, and how little a minority of the volume
can move it.
-/
namespace Ftso

def volume (obs : List Observation) : ℚ := (obs.map Observation.volume24h).sum

/-- What every ticker that is parsed satisfies. -/
structure Quoted (obs : List Observation) : Prop where
  positive : ∀ o ∈ obs, 0 < o.price
  nonneg : ∀ o ∈ obs, 0 ≤ o.volume24h

section Volume
variable {obs obs' front back : List Observation} {o : Observation}

@[simp] theorem volume_nil : volume [] = 0 := rfl

@[simp] theorem volume_cons : volume (o :: obs) = o.volume24h + volume obs := by
  simp [volume]

@[simp] theorem volume_append : volume (front ++ back) = volume front + volume back := by
  simp [volume]

theorem volume_perm (same : obs.Perm obs') : volume obs = volume obs' :=
  (same.map Observation.volume24h).sum_eq

theorem Quoted.perm (quoted : Quoted obs) (same : obs.Perm obs') : Quoted obs' :=
  ⟨fun o member => quoted.positive o (same.mem_iff.mpr member),
    fun o member => quoted.nonneg o (same.mem_iff.mpr member)⟩

theorem Quoted.sublist (quoted : Quoted obs) (part : obs'.Sublist obs) : Quoted obs' :=
  ⟨fun o member => quoted.positive o (part.subset member),
    fun o member => quoted.nonneg o (part.subset member)⟩

theorem Quoted.volume_nonneg (quoted : Quoted obs) : 0 ≤ volume obs := by
  apply List.sum_nonneg
  intro v member
  obtain ⟨o, inside, rfl⟩ := List.mem_map.mp member
  exact quoted.nonneg o inside

theorem Quoted.volume_sublist (quoted : Quoted obs) (part : obs'.Sublist obs) :
    volume obs' ≤ volume obs := by
  induction part with
  | slnil => exact le_refl _
  | cons o part ih =>
    have rest := ih (quoted.sublist (List.sublist_cons_self _ _))
    have here := quoted.nonneg o (by simp)
    rw [volume_cons]
    linarith
  | cons_cons o part ih =>
    have rest := ih (quoted.sublist (List.sublist_cons_self _ _))
    rw [volume_cons, volume_cons]
    linarith

theorem sumVolumes_eq (volumes : List ℚ) : sumVolumes volumes = volumes.sum :=
  List.sum_eq_foldl.symm

end Volume

section Trim
variable {lowCut highCut cum half acc : ℚ} {obs front back : List Observation}

theorem trim_append : trim lowCut highCut cum (front ++ back) =
    trim lowCut highCut cum front ++ trim lowCut highCut (cum + volume front) back := by
  induction front generalizing cum with
  | nil => simp [trim]
  | cons o front ih =>
    rw [List.cons_append, trim, trim, volume_cons, ← add_assoc]
    split
    · rw [ih, List.cons_append]
    · rw [ih]

theorem mem_trim {quote : ℚ × ℚ} (member : quote ∈ trim lowCut highCut cum obs) :
    ∃ front o back, obs = front ++ o :: back ∧ quote = (o.price, o.volume24h) ∧
      lowCut < cum + volume front + o.volume24h ∧ cum + volume front < highCut := by
  induction obs generalizing cum with
  | nil => cases member
  | cons o obs ih =>
    rw [trim] at member
    have later (inside : quote ∈ trim lowCut highCut (cum + o.volume24h) obs) :
        ∃ front o' back, o :: obs = front ++ o' :: back ∧ quote = (o'.price, o'.volume24h) ∧
          lowCut < cum + volume front + o'.volume24h ∧ cum + volume front < highCut := by
      obtain ⟨front, o', back, split, same, above, below⟩ := ih inside
      refine ⟨o :: front, o', back, by rw [split, List.cons_append], same, ?_, ?_⟩
      · rw [volume_cons, ← add_assoc]
        exact above
      · rw [volume_cons, ← add_assoc]
        exact below
    split at member
    · rename_i meets
      rcases List.mem_cons.mp member with here | inside
      · refine ⟨[], o, obs, rfl, here, ?_, ?_⟩
        · simpa using meets.1
        · simpa using meets.2
      · exact later inside
    · exact later member

/-- The quote whose window holds the lower cut is kept. -/
theorem trim_ne_nil (band : lowCut < highCut) (before : cum ≤ lowCut)
    (after : lowCut < cum + volume obs) : trim lowCut highCut cum obs ≠ [] := by
  induction obs generalizing cum with
  | nil =>
    rw [volume_nil] at after
    linarith
  | cons o obs ih =>
    rw [trim]
    split
    · exact List.cons_ne_nil _ _
    · rename_i outside
      rw [volume_cons, ← add_assoc] at after
      apply ih _ after
      by_contra above
      exact outside ⟨not_le.mp above, before.trans_lt band⟩

theorem firstCrossing_mem {kept : List (ℚ × ℚ)} {p : ℚ}
    (crossed : firstCrossing half acc kept = some p) : ∃ quote ∈ kept, quote.1 = p := by
  induction kept generalizing acc with
  | nil => cases crossed
  | cons quote kept ih =>
    rw [firstCrossing] at crossed
    split at crossed
    · cases crossed
      exact ⟨quote, by simp, rfl⟩
    · obtain ⟨later, member, same⟩ := ih crossed
      exact ⟨later, List.mem_cons_of_mem quote member, same⟩

theorem firstCrossing_some {kept : List (ℚ × ℚ)} (nonempty : kept ≠ [])
    (reached : half ≤ acc + (kept.map Prod.snd).sum) :
    ∃ p, firstCrossing half acc kept = some p := by
  induction kept generalizing acc with
  | nil => contradiction
  | cons quote kept ih =>
    rw [firstCrossing]
    split
    · exact ⟨quote.1, rfl⟩
    · rename_i short
      rw [List.map_cons, List.sum_cons, ← add_assoc] at reached
      cases kept with
      | nil =>
        rw [List.map_nil, List.sum_nil, add_zero] at reached
        exact absurd reached short
      | cons next kept => exact ih (List.cons_ne_nil next kept) reached

end Trim

/-- The observations in the order of their prices. -/
abbrev byPrice (obs : List Observation) : List Observation :=
  obs.insertionSort fun a b => a.price ≤ b.price

/-- The quotes that meet the band. -/
def keptQuotes (obs : List Observation) : List (ℚ × ℚ) :=
  trim (TRIM_LOW * volume obs) (TRIM_HIGH * volume obs) 0 (byPrice obs)

section Median
variable {obs : List Observation} {p : ℚ}

theorem byPrice_perm (obs : List Observation) : (byPrice obs).Perm obs :=
  List.perm_insertionSort _ obs

instance : Std.Total fun a b : Observation => a.price ≤ b.price :=
  ⟨fun a b => le_total a.price b.price⟩

instance : IsTrans Observation fun a b => a.price ≤ b.price :=
  ⟨fun _ _ _ below above => le_trans below above⟩

theorem byPrice_sorted (obs : List Observation) :
    (byPrice obs).Pairwise fun a b => a.price ≤ b.price := List.pairwise_insertionSort _ obs

theorem volume_byPrice (obs : List Observation) : volume (byPrice obs) = volume obs :=
  volume_perm (byPrice_perm obs)

theorem trim_low : TRIM_LOW = 1 / 4 := by decide +kernel

theorem trim_high : TRIM_HIGH = 3 / 4 := by decide +kernel

theorem cuts (traded : 0 < volume obs) : 0 < TRIM_LOW * volume obs ∧
    TRIM_LOW * volume obs < TRIM_HIGH * volume obs ∧ TRIM_HIGH * volume obs < volume obs := by
  rw [trim_low, trim_high]
  refine ⟨by linarith, by linarith, by linarith⟩

theorem keptQuotes_ne_nil (traded : 0 < volume obs) : keptQuotes obs ≠ [] := by
  obtain ⟨positive, band, inside⟩ := cuts traded
  apply trim_ne_nil band positive.le
  rw [volume_byPrice]
  linarith

theorem keptQuotes_nonneg (quoted : Quoted obs) {quote : ℚ × ℚ} (kept : quote ∈ keptQuotes obs) :
    0 ≤ quote.2 := by
  obtain ⟨front, o, back, split, rfl, _⟩ := mem_trim kept
  apply quoted.nonneg o
  rw [← (byPrice_perm obs).mem_iff, split]
  simp

/-- Half of the kept volume. -/
def halfKept (obs : List Observation) : ℚ := ((keptQuotes obs).map Prod.snd).sum / 2

theorem firstCrossing_keptQuotes (quoted : Quoted obs) (traded : 0 < volume obs) :
    ∃ p, firstCrossing (halfKept obs) 0 (keptQuotes obs) = some p := by
  apply firstCrossing_some (keptQuotes_ne_nil traded)
  have nonneg : 0 ≤ ((keptQuotes obs).map Prod.snd).sum := by
    apply List.sum_nonneg
    intro v member
    obtain ⟨quote, kept, rfl⟩ := List.mem_map.mp member
    exact keptQuotes_nonneg quoted kept
  rw [zero_add, halfKept]
  linarith

/-- Two or more observations, in terms of the volume that they have in any order. -/
theorem median_several (a b : Observation) (rest : List Observation) :
    volumeTrimmedMedian (a :: b :: rest) =
      let obs := a :: b :: rest
      if volume obs ≤ 0 then middlePrice (byPrice obs)
      else
        let kept := if (keptQuotes obs).isEmpty then
          (byPrice obs).map fun o => (o.price, o.volume24h) else keptQuotes obs
        (firstCrossing ((kept.map Prod.snd).sum / 2) 0 kept).or (kept.getLast?.map Prod.fst) := by
  have total : ((byPrice (a :: b :: rest)).map Observation.volume24h).sum =
      volume (a :: b :: rest) := volume_byPrice _
  simp only [volumeTrimmedMedian, sumVolumes_eq, total]
  rfl

/-- With some volume the function returns inside its last loop, from the kept quotes. -/
theorem median_eq (quoted : Quoted obs) (traded : 0 < volume obs) :
    volumeTrimmedMedian obs = firstCrossing (halfKept obs) 0 (keptQuotes obs) := by
  obtain ⟨p, crossed⟩ := firstCrossing_keptQuotes quoted traded
  match obs with
  | [] => cases traded
  | [o] =>
    obtain ⟨quote, kept, same⟩ := firstCrossing_mem crossed
    obtain ⟨front, o', back, split, rfl, _⟩ := mem_trim kept
    have member : o' ∈ byPrice [o] := by
      rw [split]
      simp
    have only : o' = o := by simpa using member
    rw [crossed, ← same, only]
    rfl
  | a :: b :: rest =>
    have some_kept : (keptQuotes (a :: b :: rest)).isEmpty = false := by
      rw [List.isEmpty_eq_false_iff]
      exact keptQuotes_ne_nil traded
    rw [median_several]
    simp only [if_neg (not_le.mpr traded), some_kept, Bool.false_eq_true, if_false]
    rw [halfKept] at crossed
    rw [halfKept, crossed]
    rfl

/-- The function has a result on every list but the empty one. -/
theorem median_some (nonempty : obs ≠ []) : ∃ p, volumeTrimmedMedian obs = some p := by
  match obs with
  | [] => contradiction
  | [o] => exact ⟨o.price, rfl⟩
  | a :: b :: rest =>
    have length : (byPrice (a :: b :: rest)).length = rest.length + 2 := by
      rw [List.length_insertionSort]
      rfl
    rw [median_several]
    dsimp only
    split
    · rw [middlePrice, length, List.getElem?_eq_getElem (by omega)]
      simp only [Option.bind_eq_bind, Option.bind_some]
      split
      · rw [List.getElem?_eq_getElem (by omega)]
        exact ⟨_, rfl⟩
      · exact ⟨_, rfl⟩
    · generalize shape : (if (keptQuotes (a :: b :: rest)).isEmpty then _ else _ : List (ℚ × ℚ)) = kept
      have some_kept : kept ≠ [] := by
        rw [← shape]
        split
        · intro empty
          have sizes := congrArg List.length empty
          rw [List.length_map, length] at sizes
          cases sizes
        · rename_i some_kept
          simpa using some_kept
      rw [List.getLast?_eq_some_getLast some_kept]
      cases firstCrossing ((kept.map Prod.snd).sum / 2) 0 kept with
      | none => exact ⟨_, rfl⟩
      | some p => exact ⟨p, rfl⟩

end Median

section Outliers
variable {obs subset rest : List Observation} {p : ℚ}

/-- A quarter of the volume is quoted up to the result, and a quarter from it on. -/
theorem median_quartiles (quoted : Quoted obs) (traded : 0 < volume obs)
    (result : volumeTrimmedMedian obs = some p) :
    TRIM_LOW * volume obs < volume (obs.filter fun o => o.price ≤ p) ∧
      volume obs - TRIM_HIGH * volume obs < volume (obs.filter fun o => p ≤ o.price) := by
  rw [median_eq quoted traded] at result
  obtain ⟨quote, kept, rfl⟩ := firstCrossing_mem result
  obtain ⟨front, o, back, split, rfl, above, below⟩ := mem_trim kept
  have sorted := byPrice_sorted obs
  have whole := volume_byPrice obs
  have same := byPrice_perm obs
  have quoted' := quoted.perm same.symm
  rw [split] at sorted whole same quoted'
  rw [zero_add] at above below
  rw [volume_append, volume_cons] at whole
  rw [List.pairwise_append, List.pairwise_cons] at sorted
  obtain ⟨_, ⟨upper, _⟩, lower⟩ := sorted
  dsimp only
  constructor
  · have cheap : front.filter (fun a => a.price ≤ o.price) = front := by
      rw [List.filter_eq_self]
      intro a member
      exact decide_eq_true (lower a member o (by simp))
    have more := (quoted'.sublist
      ((List.filter_sublist (p := fun a => a.price ≤ o.price)).trans
        ((List.sublist_cons_self o back).trans (List.sublist_append_right front _)))).volume_nonneg
    rw [← volume_perm (same.filter _), List.filter_append, cheap, List.filter_cons_of_pos (by simp),
      volume_append, volume_cons]
    linarith
  · have dear : back.filter (fun a => o.price ≤ a.price) = back := by
      rw [List.filter_eq_self]
      intro a member
      exact decide_eq_true (upper a member)
    have more := (quoted'.sublist
      ((List.filter_sublist (p := fun a => o.price ≤ a.price)).trans
        (List.sublist_append_left front _))).volume_nonneg
    rw [← volume_perm (same.filter _), List.filter_append, List.filter_cons_of_pos (by simp), dear,
      volume_append, volume_cons]
    linarith

/-- Where no remaining quote is on a side of the result, all the volume there is the subset's. -/
theorem volume_filter_le {q : Observation → Bool} (quoted : Quoted obs)
    (parts : (subset ++ rest).Perm obs) (none_left : ∀ o ∈ rest, q o = false) :
    volume (obs.filter q) ≤ volume subset := by
  have empty : rest.filter q = [] := by
    rw [List.filter_eq_nil_iff]
    intro o member
    rw [none_left o member]
    exact Bool.false_ne_true
  rw [← volume_perm (parts.filter q), List.filter_append, empty, List.append_nil]
  exact ((quoted.perm parts.symm).sublist (List.sublist_append_left subset rest)).volume_sublist
    List.filter_sublist

/-- A subset with less than a quarter of the volume moves the result no further than the
    remaining quotes reach, and neither fallback is needed. -/
theorem outlier_resistance (quoted : Quoted obs) (traded : 0 < volume obs)
    (parts : (subset ++ rest).Perm obs) (minority : volume subset < 1 / 4 * volume obs) :
    (∃ p, volumeTrimmedMedian obs = some p ∧ (∃ a ∈ rest, a.price ≤ p) ∧ ∃ b ∈ rest, p ≤ b.price) ∧
      keptQuotes obs ≠ [] ∧
      volumeTrimmedMedian obs = firstCrossing (halfKept obs) 0 (keptQuotes obs) ∧
      ∀ others : List Observation, others ≠ [] → ∃ p, volumeTrimmedMedian others = some p := by
  refine ⟨?_, keptQuotes_ne_nil traded, median_eq quoted traded, fun _ => median_some⟩
  obtain ⟨p, result⟩ := firstCrossing_keptQuotes quoted traded
  rw [← median_eq quoted traded] at result
  obtain ⟨cheap, dear⟩ := median_quartiles quoted traded result
  rw [trim_low] at cheap
  rw [trim_high] at dear
  refine ⟨p, result, ?_, ?_⟩
  · by_contra none_below
    have bound := @volume_filter_le obs subset rest (fun o => o.price ≤ p) quoted parts (by
      intro o member
      apply decide_eq_false
      intro below
      exact none_below ⟨o, member, below⟩)
    linarith
  · by_contra none_above
    have bound := @volume_filter_le obs subset rest (fun o => p ≤ o.price) quoted parts (by
      intro o member
      apply decide_eq_false
      intro above
      exact none_above ⟨o, member, above⟩)
    linarith

theorem outlier_resistance_fake_print :
    let obs : List Observation := [⟨"a", 100, 1⟩, ⟨"b", 101, 1⟩, ⟨"c", 102, 1⟩, ⟨"d", 103, 1⟩, ⟨"e", 500, 1⟩]
    ∃ p, volumeTrimmedMedian obs = some p ∧ (∃ a ∈ obs.take 4, a.price ≤ p) ∧
      ∃ b ∈ obs.take 4, p ≤ b.price := by
  intro obs
  have quoted : Quoted obs := ⟨by decide +kernel, by decide +kernel⟩
  have parts : (obs.drop 4 ++ obs.take 4).Perm obs := by decide +kernel
  exact (outlier_resistance quoted (by decide +kernel) parts (by decide +kernel)).1

end Outliers

end Ftso
