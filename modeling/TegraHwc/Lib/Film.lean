import TegraHwc.Lib.Raster
import Mathlib.Algebra.Group.Defs
import Mathlib.Data.List.Sort

/-!
# Film — stacks of translucent films, flattened and put in another order

A film is a layer that puts a colour of its own over what it lands on, whatever
that is. Colours laid over one another are a monoid: `a * b` is `a` over `b`,
and `1` hides nothing. Neighbours of a stack may then be drawn apart, over
nothing, and laid as one film; and films that do not land on a point together
may trade places there. Points, colours and films are of any type.

## Results

* `compose_films`     — a stack is a film over its ground.
* `compose_flattened` — neighbours drawn apart and laid as one show the same.
* `compose_reordered` — two orders that agree where films land together show
  the same.
-/

namespace Raster

variable {π C ι : Type*}

/-- What a layer puts over the points it lands on. -/
structure Film (π C : Type*) where
  lands : π → Bool
  color : π → C

section Laid

variable [Monoid C] {p : π}

namespace Film

/-- The film as a layer of a picture. -/
def laid (f : Film π C) : Layer π C := fun p below =>
  if f.lands p then f.color p * below else below

/-- A stack of films inside a region, drawn over nothing and taken for one. -/
def flattened (region : π → Bool) (films : List (Film π C)) : Film π C where
  lands := region
  color := fun p => compose (films.map laid) 1 p

/-- A film seen through a map of the points. -/
def seen {ρ : Type*} (place : ρ → π) (f : Film π C) : Film ρ C where
  lands := fun q => f.lands (place q)
  color := fun q => f.color (place q)

theorem laid_of_lands {f : Film π C} (h : f.lands p = true) (below : C) :
    f.laid p below = f.color p * below := if_pos h

theorem laid_of_not_lands {f : Film π C} (h : f.lands p = false) (below : C) :
    f.laid p below = below := if_neg (by rw [h]; decide)

/-- A film is laid over whatever is below what is below it. -/
theorem laid_mul (f : Film π C) (below ground : C) :
    f.laid p (below * ground) = f.laid p below * ground := by
  unfold laid
  split
  · exact (mul_assoc _ _ _).symm
  · rfl

end Film

/-- The upper part of a stack lies over the lower. -/
theorem compose_over (below above : List (Film π C)) (ground : C) :
    compose ((below ++ above).map Film.laid) ground p =
      compose (above.map Film.laid) (compose (below.map Film.laid) ground p) p := by
  unfold compose
  rw [List.map_append, List.foldl_append]

/-- A stack seen through a map of the points shows what it shows there. -/
theorem compose_seen {ρ : Type*} (place : ρ → π) (films : List (Film π C)) (ground : C) (q : ρ) :
    compose ((films.map (Film.seen place)).map Film.laid) ground q =
      compose (films.map Film.laid) ground (place q) := by
  induction films generalizing ground with
  | nil => rfl
  | cons f films ih => exact ih _

/-- **A stack is a film over its ground**: drawn over nothing, and laid. -/
theorem compose_films (films : List (Film π C)) (ground : C) :
    compose (films.map Film.laid) ground p = compose (films.map Film.laid) 1 p * ground := by
  induction films using List.reverseRecOn with
  | nil => exact (one_mul ground).symm
  | append_singleton films top ih =>
    rw [List.map_append, List.map_singleton, compose_concat, compose_concat, ih, Film.laid_mul]

/-- **Neighbours flattened**: drawn apart over nothing, inside a region that none
of them leaves, and laid as one film, they show what they show one by one. -/
theorem compose_flattened (region : π → Bool) (below above : List (Film π C))
    {block : List (Film π C)} (ground : C)
    (hInside : ∀ f ∈ block, f.lands p = true → region p = true) :
    compose ((below ++ [Film.flattened region block] ++ above).map Film.laid) ground p =
      compose ((below ++ block ++ above).map Film.laid) ground p := by
  simp only [compose_over, List.map_singleton, compose_cons, compose_nil]
  congr 1
  cases hRegion : region p with
  | true =>
    rw [Film.laid_of_lands (show (Film.flattened region block).lands p = true from hRegion)]
    exact (compose_films block _).symm
  | false =>
    rw [Film.laid_of_not_lands (show (Film.flattened region block).lands p = false from hRegion)]
    refine (compose_untouched fun layer hLayer ground' => ?_).symm
    obtain ⟨f, hf, rfl⟩ := List.mem_map.mp hLayer
    refine Film.laid_of_not_lands ?_ ground'
    by_contra hLands
    rw [hInside f hf (by simpa using hLands)] at hRegion
    cases hRegion

/-- Films that leave a point alone may be left out there. -/
theorem compose_landing (films : ι → Film π C) (items : List ι) (ground : C) :
    compose (items.map fun i => (films i).laid) ground p =
      compose ((items.filter fun i => (films i).lands p).map fun i => (films i).laid) ground p := by
  induction items generalizing ground with
  | nil => rfl
  | cons i items ih =>
    rw [List.map_cons, compose_cons, ih, List.filter_cons]
    split
    · rfl
    · rename_i hNot
      rw [Film.laid_of_not_lands (by simpa using hNot)]

/-- **Another order, the same picture**: of the same films, in two orders that
agree on those that land on a point together. -/
theorem compose_reordered {films : ι → Film π C} (R : ι → ι → Prop)
    (hAsymm : ∀ i k, R i k → ¬R k i) {items items' : List ι} (hPerm : items.Perm items')
    (hItems : items.Pairwise fun i k =>
      (films i).lands p = true → (films k).lands p = true → R i k)
    (hItems' : items'.Pairwise fun i k =>
      (films i).lands p = true → (films k).lands p = true → R i k) (ground : C) :
    compose (items.map fun i => (films i).laid) ground p =
      compose (items'.map fun i => (films i).laid) ground p := by
  have hLanding : ∀ {l : List ι}, (l.Pairwise fun i k =>
      (films i).lands p = true → (films k).lands p = true → R i k) →
        (l.filter fun i => (films i).lands p).Pairwise R := by
    intro l hl
    rw [List.pairwise_filter]
    exact hl.imp fun h hi hk => h hi hk
  rw [compose_landing films items, compose_landing films items',
    (hPerm.filter _).eq_of_pairwise (fun i k _ _ h h' => absurd h' (hAsymm i k h))
      (hLanding hItems) (hLanding hItems')]

end Laid

end Raster
