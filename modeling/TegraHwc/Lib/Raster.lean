import Mathlib.Data.List.Induction
import Mathlib.Tactic.Common

/-!
# Raster — pictures drawn in layers, and drawn again in part

A picture gives every point a colour. It is drawn by a stack of layers, each
painting over the colour below it, point by point. A stack drawn into a
buffer that holds another picture, but only inside a region, leaves the rest
of the buffer as it was. Points, colours and layers are of any type.

## Results

* `compose_congr`     — stacks that paint a point alike show it alike.
* `compose_untouched` — layers that leave a point alone leave the ground.
* `compose_filterMap` — layers that leave a point alone can be left out.
* `redraw_redraw`     — regions redrawn in turn are their union redrawn.
* `redraw_eq_iff`     — drawing inside a region makes the whole picture
  exactly when the old one was right outside it.
* `compose_drawn`     — layers written instead of blended, each where it lands
  on bare ground or hides what is below, show what blending them all shows.
* `compose_drawn_over` — a point some layer writes shows the same whatever it
  held before.
-/

namespace Raster

variable {π C : Type*}

/-- A layer paints each point over the colour below it. -/
abbrev Layer (π C : Type*) := π → C → C

/-- The picture of a stack, bottom layer first, over `ground`. -/
def compose (stack : List (Layer π C)) (ground : C) (p : π) : C :=
  stack.foldl (fun below layer => layer p below) ground

/-- A buffer drawn again inside `region` with the picture `new`. -/
def redraw (region : π → Prop) [DecidablePred region] (new old : π → C) (p : π) : C :=
  if region p then new p else old p

@[simp] theorem compose_nil (ground : C) (p : π) : compose [] ground p = ground := rfl

@[simp] theorem compose_cons (layer : Layer π C) (stack : List (Layer π C)) (ground : C) (p : π) :
    compose (layer :: stack) ground p = compose stack (layer p ground) p := rfl

/-- Stacks of as many layers that paint a point alike, layer by layer, show it
alike. -/
theorem compose_congr {stack stack' : List (Layer π C)} {ground : C} {p : π}
    (hLength : stack.length = stack'.length)
    (hAlike : ∀ (i : Nat) (layer layer' : Layer π C), stack[i]? = some layer →
      stack'[i]? = some layer' → layer p = layer' p) :
    compose stack ground p = compose stack' ground p := by
  induction stack generalizing stack' ground with
  | nil =>
    obtain rfl : stack' = [] := List.length_eq_zero_iff.mp hLength.symm
    rfl
  | cons layer stack ih =>
    cases stack' with
    | nil => cases hLength
    | cons layer' stack' =>
      have hFirst : layer p = layer' p := hAlike 0 layer layer' rfl rfl
      rw [compose_cons, compose_cons, hFirst]
      refine ih (by simpa using hLength) fun i a b ha hb => ?_
      exact hAlike (i + 1) a b (by simpa using ha) (by simpa using hb)

/-- Where no layer paints, the ground shows. -/
theorem compose_untouched {stack : List (Layer π C)} {ground : C} {p : π}
    (hBare : ∀ layer ∈ stack, ∀ below, layer p below = below) :
    compose stack ground p = ground := by
  induction stack with
  | nil => rfl
  | cons layer stack ih =>
    rw [compose_cons, hBare layer (by simp)]
    exact ih fun layer' h => hBare layer' (by simp [h])

/-- Layers left out that leave a point alone, and the others cut so that they
still paint it alike, show the point as the whole stack does. -/
theorem compose_filterMap {α β : Type*} {items : List α} {cut : α → Option β}
    {drawn : β → Layer π C} {whole : α → Layer π C} {ground : C} {p : π}
    (hLeft : ∀ a ∈ items, cut a = none → ∀ below, whole a p below = below)
    (hKept : ∀ a ∈ items, ∀ b, cut a = some b → drawn b p = whole a p) :
    compose ((items.filterMap cut).map drawn) ground p = compose (items.map whole) ground p := by
  induction items generalizing ground with
  | nil => rfl
  | cons a items ih =>
    have hRest := fun ground' => @ih ground' (fun a' h => hLeft a' (List.mem_cons_of_mem a h))
      (fun a' h => hKept a' (List.mem_cons_of_mem a h))
    cases hCut : cut a with
    | none =>
      rw [List.filterMap_cons_none hCut, List.map_cons, compose_cons, hLeft a (by simp) hCut]
      exact hRest ground
    | some b =>
      rw [List.filterMap_cons_some hCut, List.map_cons, List.map_cons, compose_cons, compose_cons,
        hKept a (by simp) b hCut]
      exact hRest _

/-- Redrawing makes the picture exactly when the buffer was right wherever it
was left alone. -/
theorem redraw_eq_iff {region : π → Prop} [DecidablePred region] {new old : π → C} (p : π) :
    redraw region new old p = new p ↔ (¬region p → old p = new p) := by
  unfold redraw
  split
  · rename_i h
    simp [h]
  · rename_i h
    simp [h]

/-- Two redraws in turn are one of both regions. The first picture need be the
second's only where it is drawn. -/
theorem redraw_redraw {first second both : π → Prop} [DecidablePred first]
    [DecidablePred second] [DecidablePred both] {new new' old : π → C}
    (hBoth : ∀ p, both p ↔ first p ∨ second p) (hSame : ∀ p, first p → new' p = new p) :
    redraw second new (redraw first new' old) = redraw both new old := by
  funext p
  unfold redraw
  by_cases hSecond : second p
  · rw [if_pos hSecond, if_pos ((hBoth p).mpr (.inr hSecond))]
  · rw [if_neg hSecond]
    by_cases hFirst : first p
    · rw [if_pos hFirst, if_pos ((hBoth p).mpr (.inl hFirst)), hSame p hFirst]
    · rw [if_neg hFirst, if_neg fun h => ((hBoth p).mp h).elim hFirst hSecond]

-- ---------------------------------------------------------------------------
-- Layers written instead of blended
-- ---------------------------------------------------------------------------

/-- A layer that lands on some points and leaves the others alone: `ink` is what
a point is set to when the layer is written, `mixed` what it becomes when the
layer is blended onto what it holds. -/
structure Stroke (π C : Type*) where
  lands : π → Bool
  ink : π → C
  mixed : π → C → C

namespace Stroke

/-- The layer that blends. -/
def blended (s : Stroke π C) : Layer π C := fun p below =>
  if s.lands p then s.mixed p below else below

/-- The layer that writes. -/
def written (s : Stroke π C) : Layer π C := fun p below =>
  if s.lands p then s.ink p else below

/-- The layer as it is drawn: written or blended. -/
def drawn (s : Stroke π C) (isWritten : Bool) : Layer π C :=
  if isWritten then s.written else s.blended

/-- Whatever a point held, blending leaves the ink there. -/
def Hides (s : Stroke π C) (p : π) : Prop := ∀ below, s.mixed p below = s.ink p

/-- Every stroke of a stack that is written at `p` lands there on nothing drawn
before it, or hides it. -/
def Spares (strokes : List (Stroke π C × Bool)) (p : π) : Prop :=
  ∀ earlier s rest, strokes = earlier ++ (s, true) :: rest → s.lands p = true →
    (∀ e ∈ earlier, e.1.lands p = false) ∨ s.Hides p

@[simp] theorem drawn_of_not_lands {s : Stroke π C} {isWritten : Bool} {p : π}
    (h : s.lands p = false) (below : C) : s.drawn isWritten p below = below := by
  cases isWritten <;> simp [drawn, written, blended, h]

theorem drawn_true_of_lands {s : Stroke π C} {p : π} (h : s.lands p = true) (below : C) :
    s.drawn true p below = s.ink p := by
  simp [drawn, written, h]

end Stroke

@[simp] theorem compose_concat (stack : List (Layer π C)) (layer : Layer π C) (ground : C) (p : π) :
    compose (stack ++ [layer]) ground p = layer p (compose stack ground p) := by
  simp [compose]

/-- A stack drawn with some of its strokes written shows what it shows with all
of them blended. The induction takes the top stroke off: below it the stack is
as good as blended already. -/
theorem compose_drawn {strokes : List (Stroke π C × Bool)} {ground : C} {p : π}
    (hInk : ∀ e ∈ strokes, e.1.mixed p ground = e.1.ink p)
    (hSpares : Stroke.Spares strokes p) :
    compose (strokes.map fun e => e.1.drawn e.2) ground p =
      compose (strokes.map fun e => e.1.blended) ground p := by
  induction strokes using List.reverseRecOn with
  | nil => rfl
  | append_singleton strokes top ih =>
    have hBelow : compose (strokes.map fun e => e.1.drawn e.2) ground p =
        compose (strokes.map fun e => e.1.blended) ground p := by
      refine ih (fun e he => hInk e (by simp [he])) fun earlier s rest hSplit hLands => ?_
      exact hSpares earlier s (rest ++ [top]) (by simp [hSplit]) hLands
    rw [List.map_append, List.map_append, List.map_singleton, List.map_singleton, compose_concat,
      compose_concat, hBelow]
    obtain ⟨s, isWritten⟩ := top
    cases isWritten with
    | false => rfl
    | true =>
      cases hLands : s.lands p with
      | false => simp [Stroke.blended, hLands]
      | true =>
        rw [Stroke.drawn_true_of_lands hLands, Stroke.blended, if_pos hLands]
        rcases hSpares strokes s [] rfl hLands with hBare | hHides
        · -- nothing was drawn here before: the point is still bare ground
          have hGround : compose (strokes.map fun e => e.1.blended) ground p = ground := by
            refine compose_untouched fun layer hLayer below => ?_
            obtain ⟨e, he, rfl⟩ := List.mem_map.mp hLayer
            rw [Stroke.blended, hBare e he]
            rfl
          rw [hGround]
          exact (hInk (s, true) (by simp)).symm
        · exact (hHides _).symm

/-- A point that some stroke writes shows the same over any two grounds. -/
theorem compose_drawn_over {strokes : List (Stroke π C × Bool)} {p : π}
    (hWritten : ∃ s, (s, true) ∈ strokes ∧ s.lands p = true) (ground ground' : C) :
    compose (strokes.map fun e => e.1.drawn e.2) ground p =
      compose (strokes.map fun e => e.1.drawn e.2) ground' p := by
  induction strokes generalizing ground ground' with
  | nil => simp at hWritten
  | cons first strokes ih =>
    rw [List.map_cons, compose_cons, compose_cons]
    obtain ⟨s, hMem, hLands⟩ := hWritten
    rcases List.mem_cons.mp hMem with rfl | hLater
    · rw [Stroke.drawn_true_of_lands hLands, Stroke.drawn_true_of_lands hLands]
    · exact ih ⟨s, hLater, hLands⟩ _ _

end Raster
