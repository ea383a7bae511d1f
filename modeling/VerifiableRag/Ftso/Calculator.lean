import Mathlib.Data.Rat.Floor
import Mathlib.Data.List.Sort

/-!
The volume-trimmed median of the FTSO provider (`calculator.rs`), in exact
arithmetic.
-/
namespace Ftso

/-- The last price of one exchange and its 24h volume in the quote currency. -/
structure Observation where
  exchange : String
  price : ℚ
  volume24h : ℚ
  deriving DecidableEq

def TRIM_LOW : ℚ := mkRat 1 4
def TRIM_HIGH : ℚ := mkRat 3 4

/-- The observations whose volume window meets the band, as (price, volume). -/
def trim (lowCut highCut : ℚ) : ℚ → List Observation → List (ℚ × ℚ)
  | _, [] => []
  | cum, o :: rest =>
    let cumAfter := cum + o.volume24h
    if cumAfter > lowCut ∧ cum < highCut then
      (o.price, o.volume24h) :: trim lowCut highCut cumAfter rest
    else trim lowCut highCut cumAfter rest

/-- The first price at which the accumulated volume reaches half. -/
def firstCrossing (half : ℚ) : ℚ → List (ℚ × ℚ) → Option ℚ
  | _, [] => none
  | acc, (price, volume) :: rest =>
    if acc + volume ≥ half then some price else firstCrossing half (acc + volume) rest

def sumVolumes (volumes : List ℚ) : ℚ := volumes.foldl (· + ·) 0

def middlePrice (sorted : List Observation) : Option ℚ := do
  let mid := sorted.length / 2
  let upper ← sorted[mid]?
  if sorted.length % 2 = 0 then
    let lower ← sorted[mid - 1]?
    return (lower.price + upper.price) / 2
  else return upper.price

def volumeTrimmedMedian (obs : List Observation) : Option ℚ :=
  match obs with
  | [] => none
  | [o] => some o.price
  | _ =>
    let sorted := obs.insertionSort fun a b => a.price ≤ b.price
    let totalVolume := sumVolumes (sorted.map Observation.volume24h)
    if totalVolume ≤ 0 then middlePrice sorted
    else
      let kept := trim (TRIM_LOW * totalVolume) (TRIM_HIGH * totalVolume) 0 sorted
      let kept := if kept.isEmpty then sorted.map fun o => (o.price, o.volume24h) else kept
      let half := sumVolumes (kept.map Prod.snd) / 2
      (firstCrossing half 0 kept).or (kept.getLast?.map Prod.fst)

/-! The name of an exchange plays no part in the result. -/

def Observation.anonymous (o : Observation) : Observation := { o with exchange := "" }

theorem trim_anonymous (lowCut highCut cum : ℚ) (obs : List Observation) :
    trim lowCut highCut cum (obs.map Observation.anonymous) = trim lowCut highCut cum obs := by
  induction obs generalizing cum with
  | nil => rfl
  | cons o rest ih => simp only [List.map_cons, trim, ih, Observation.anonymous]

theorem middlePrice_anonymous (sorted : List Observation) :
    middlePrice (sorted.map Observation.anonymous) = middlePrice sorted := by
  unfold middlePrice
  simp only [List.length_map, List.getElem?_map]
  cases sorted[sorted.length / 2]? with
  | none => rfl
  | some upper =>
    cases sorted[sorted.length / 2 - 1]? with
    | none => rfl
    | some lower => rfl

theorem median_anonymous (obs : List Observation) :
    volumeTrimmedMedian (obs.map Observation.anonymous) = volumeTrimmedMedian obs := by
  match obs with
  | [] => rfl
  | [o] => rfl
  | a :: b :: rest =>
    have sorted : ((a :: b :: rest).map Observation.anonymous).insertionSort
          (fun a b => a.price ≤ b.price) =
        ((a :: b :: rest).insertionSort fun a b => a.price ≤ b.price).map
          Observation.anonymous :=
      (List.map_insertionSort _ _ Observation.anonymous _ fun _ _ _ _ => Iff.rfl).symm
    have volumes (obs : List Observation) :
        (obs.map Observation.anonymous).map Observation.volume24h =
          obs.map Observation.volume24h := by
      rw [List.map_map]
      rfl
    have marks (obs : List Observation) :
        (obs.map Observation.anonymous).map (fun o => (o.price, o.volume24h)) =
          obs.map fun o => (o.price, o.volume24h) := by
      rw [List.map_map]
      rfl
    simp only [List.map_cons] at sorted
    simp only [volumeTrimmedMedian, List.map_cons, sorted, volumes, marks, trim_anonymous,
      middlePrice_anonymous]

theorem median_congr {obs obs' : List Observation}
    (same : obs.map (fun o => (o.price, o.volume24h)) =
      obs'.map fun o => (o.price, o.volume24h)) :
    volumeTrimmedMedian obs = volumeTrimmedMedian obs' := by
  have anonymous : obs.map Observation.anonymous = obs'.map Observation.anonymous := by
    have rebuilt := congrArg (List.map fun m : ℚ × ℚ => Observation.mk "" m.1 m.2) same
    rw [List.map_map, List.map_map] at rebuilt
    exact rebuilt
  rw [← median_anonymous obs, anonymous, median_anonymous]

end Ftso
