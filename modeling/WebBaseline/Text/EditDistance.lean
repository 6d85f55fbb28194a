/-
  WebBaseline.Text.EditDistance

  How many characters must be put in, left out or changed to turn one text into
  another, at least. `distance` is the recursion that says so; `editDistance`
  computes the same number row by row.
-/

namespace WebBaseline.Text

/-- The least number of changes, by what happens to the first characters. -/
def distance : List Char → List Char → Nat
  | [], bs => bs.length
  | a :: as, [] => (a :: as).length
  | a :: as, b :: bs =>
    min (min (distance as (b :: bs) + 1) (distance (a :: as) bs + 1))
      (distance as bs + if a = b then 0 else 1)
termination_by as bs => as.length + bs.length

/-! ## Row by row -/

/-- From the distances of a text to `bs` and to each of its tails, those of the
    text with `a` put in front. -/
def longer (a : Char) : List Char → List Nat → List Nat
  | _, [] => []
  | [], d :: _ => [d + 1]
  | b :: bs, d :: ds =>
    let es := longer a bs ds
    min (min (d + 1) (es.headD 0 + 1)) (ds.headD 0 + if a = b then 0 else 1) :: es

/-- The lengths of a text and of its tails. -/
def lengths : List Char → List Nat
  | [] => [0]
  | b :: bs => (b :: bs).length :: lengths bs

/-- The distances of a text to `bs` and to each of its tails. -/
def distances : List Char → List Char → List Nat
  | [], bs => lengths bs
  | a :: as, bs => longer a bs (distances as bs)

/-- The distance of two texts. -/
def editDistance (as bs : List Char) : Nat := (distances as bs).headD 0

/-! ## The rows hold the distances -/

/-- A text and all its tails. -/
def tails : List Char → List (List Char)
  | [] => [[]]
  | b :: bs => (b :: bs) :: tails bs

theorem headD_map_tails (f : List Char → Nat) (bs : List Char) :
    ((tails bs).map f).headD 0 = f bs := by
  cases bs <;> rfl

theorem lengths_eq_map (bs : List Char) : lengths bs = (tails bs).map (distance []) := by
  induction bs with
  | nil => simp [lengths, tails, distance]
  | cons b bs ih => simp [lengths, tails, distance, ih]

theorem longer_map (a : Char) (as bs : List Char) :
    longer a bs ((tails bs).map (distance as)) = (tails bs).map (distance (a :: as)) := by
  induction bs with
  | nil => cases as <;> simp [longer, tails, distance]
  | cons b bs ih =>
    rw [tails, List.map_cons, longer]
    simp only [ih, headD_map_tails, List.map_cons, distance]

theorem distances_eq_map (as bs : List Char) :
    distances as bs = (tails bs).map (distance as) := by
  induction as with
  | nil => exact lengths_eq_map bs
  | cons a as ih => rw [distances, ih, longer_map]

theorem editDistance_eq_distance (as bs : List Char) : editDistance as bs = distance as bs := by
  rw [editDistance, distances_eq_map, headD_map_tails]

end WebBaseline.Text
