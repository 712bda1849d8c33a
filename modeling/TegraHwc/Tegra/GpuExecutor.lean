import TegraHwc.Lib.Runs
import TegraHwc.Lib.Rotation

/-!
# TegraHwc — the GPU executor's buffers

`tegra/GpuExecutor.cpp`: three buffers the GPU draws the client range into,
in turn. `Begin` names the next buffer and queues a drawing into it, `Finish`
takes the buffer's turn once the library has answered, `Keep` takes the turn
undrawn, and `Presented` says that the frame went up.

What the library answers to a `Resolve` is an input of the model, as is every
fence. A commit that fails is a frame that ends without a `Presented`: the
display calls it only where the commit went through and the GPU drew, and
nothing gives the turn of the failed frame back (the scratch pool of the
merge has `Rewind` for it).

## Results

* `gpuExecutor_keeps`  — the ready fence of every buffer is the one that
  replaced its last showing, over every run.
* `gpuExecutor_begin_safe_iff`  — `Begin` lends out the buffer on the panel
  exactly when two turns, modulo three, were taken since the last frame that
  went up.
* `gpuExecutor_begin_unsafe`  — a run in which it does.
-/

namespace TegraHwc

open Runs Rotation

/-- The executor: its three buffers and the drawing begun into one of them. -/
structure GpuExecutor (F : Type) where
  ring : Slots F := Slots.ofSize 3
  begunAt : Option Nat := none
  begunDroppable : Bool := false
  deriving DecidableEq, Repr

namespace GpuExecutor

variable {F : Type}

/-- What `Resolve` of the library answers: a fence, -2, or any other negative
descriptor. -/
inductive Resolved (F : Type) where
  | drawn (fence : F)
  | dropped
  | refused
  deriving DecidableEq, Repr

/-- `NextSlot`. -/
def nextSlot (g : GpuExecutor F) : Nat := g.ring.next

/-- `Pending`. -/
def pending (g : GpuExecutor F) : Bool := g.begunAt.isSome

/-- `Current`. -/
def current (g : GpuExecutor F) : Nat := g.ring.at_

/-- `DropBegun`. -/
def dropBegun (g : GpuExecutor F) : GpuExecutor F := { g with begunAt := none }

/-- The fence `Begin` has the drawing wait for. -/
def readyFence (g : GpuExecutor F) : Option F := g.ring.ready g.nextSlot

/-- `Begin`: the drawing goes into `nextSlot` once `readyFence` is due. -/
def begin_ (g : GpuExecutor F) (droppable : Bool) : GpuExecutor F :=
  { g.dropBegun with begunAt := some g.nextSlot, begunDroppable := droppable }

/-- `Finish`: the buffer whose turn was taken, if one was. -/
def finish (g : GpuExecutor F) (answer : Resolved F) : Option Nat × GpuExecutor F :=
  match g.begunAt with
  | none => (none, g)
  | some k =>
    match answer with
    | .drawn _ => (some k, { g with begunAt := none, ring := { g.ring with at_ := k } })
    | .dropped | .refused => (none, { g with begunAt := none })

/-- `Keep`: the next buffer takes its turn undrawn. -/
def keep (g : GpuExecutor F) : GpuExecutor F :=
  { g.dropBegun with ring := g.ring.advance }

/-- `Presented`. -/
def presented (g : GpuExecutor F) (fence : Option F) : GpuExecutor F :=
  { g with ring := g.ring.present fence }

-- ---------------------------------------------------------------------------
-- The executor as a machine
-- ---------------------------------------------------------------------------

/-- One call of the display. -/
inductive Action (F : Type) where
  | begin_ (droppable : Bool)
  | finish (answer : Resolved F)
  | keep
  | presented (fence : Option F)
  deriving DecidableEq, Repr

/-- What is seen of a call: a buffer lent out for drawing with its fence, a
turn taken, a buffer gone up. -/
inductive Event (F : Type) where
  | lent (slot : Nat) (ready : Option F)
  | took (slot : Nat)
  | shown (slot : Nat) (fence : Option F)
  deriving DecidableEq, Repr

def step (g : GpuExecutor F) : Action F → GpuExecutor F
  | .begin_ droppable => g.begin_ droppable
  | .finish answer => (g.finish answer).2
  | .keep => g.keep
  | .presented fence => g.presented fence

def events (g : GpuExecutor F) : Action F → List (Event F)
  | .begin_ _ => [.lent g.nextSlot g.readyFence]
  | .finish answer =>
    match (g.finish answer).1 with
    | none => []
    | some k => [.took k]
  | .keep => [.took g.keep.current]
  | .presented fence => [.shown g.current fence]

/-- The executor with the display that calls it. -/
def machine (F : Type) : Machine (GpuExecutor F) (Action F) (Event F) where
  step g a := some (g.step a)
  events g a := g.events a

/-- The history of the executor under the calls, from `Open`. -/
def history (actions : List (Action F)) : List (Event F) :=
  (machine F).trace {} actions

/-- The frames that went up, newest first. -/
def shows (h : List (Event F)) : Shows F :=
  h.foldl (fun shows event =>
    match event with
    | .shown slot fence => (slot, fence) :: shows
    | _ => shows) []

/-- The turns taken since the last frame that went up. -/
def turnsSinceShown (h : List (Event F)) : Nat :=
  h.foldl (fun n event =>
    match event with
    | .took _ => n + 1
    | .shown _ _ => 0
    | .lent _ _ => n) 0

/-- What `Begin` must keep to: the buffer it lends out is not the one last
presented, or comes with the fence of the frame that replaced it. -/
def SafeToDraw (h : List (Event F)) (slot : Nat) (ready : Option F) : Prop :=
  (shows h).head?.map Prod.fst ≠ some slot ∨
    ∃ fence, replacedBy (shows h) slot = some (some fence) ∧ ready = some fence

-- ---------------------------------------------------------------------------
-- Over every run
-- ---------------------------------------------------------------------------

/-- What the executor knows of its history. -/
structure Inv (h : List (Event F)) (g : GpuExecutor F) : Prop where
  size : g.ring.size = 3
  keeps : Keeps g.ring (shows h)
  ahead : Ahead g.ring (turnsSinceShown h)
  /-- A drawing begun goes into the buffer whose turn is next. -/
  begun : ∀ k, g.begunAt = some k → k = g.ring.next

theorem inv_init : Inv [] ({} : GpuExecutor F) where
  size := Slots.size_ofSize 3
  keeps := keeps_ofSize (by omega)
  ahead := ahead_ofSize
  begun := by
    intro k hk
    cases hk

/-- Taking the next buffer's turn keeps the invariant. -/
theorem advance_inv {h : List (Event F)} {g : GpuExecutor F} (hInv : Inv h g) (slot : Nat) :
    Inv (h ++ [.took slot]) { g with ring := g.ring.advance, begunAt := none } where
  size := hInv.size
  keeps := by
    have hShows : shows (h ++ [.took slot]) = shows h := by simp [shows]
    rw [hShows]
    exact keeps_advance hInv.keeps
  ahead := by
    have hTurns : turnsSinceShown (h ++ [.took slot]) = turnsSinceShown h + 1 := by
      simp [turnsSinceShown]
    rw [hTurns]
    exact ahead_advance hInv.ahead
  begun := by
    intro k hk
    cases hk

/-- Every call keeps the invariant. -/
theorem step_inv {h : List (Event F)} {g : GpuExecutor F} (a : Action F) (hInv : Inv h g) :
    Inv (h ++ g.events a) (g.step a) := by
  cases a with
  | begin_ droppable =>
    have hShows : shows (h ++ [.lent g.nextSlot g.readyFence]) = shows h := by simp [shows]
    have hTurns : turnsSinceShown (h ++ [.lent g.nextSlot g.readyFence]) = turnsSinceShown h := by
      simp [turnsSinceShown]
    refine ⟨hInv.size, ?_, ?_, ?_⟩
    · show Keeps g.ring (shows (h ++ [.lent g.nextSlot g.readyFence]))
      rw [hShows]
      exact hInv.keeps
    · show Ahead g.ring (turnsSinceShown (h ++ [.lent g.nextSlot g.readyFence]))
      rw [hTurns]
      exact hInv.ahead
    · intro k hk
      exact (Option.some.inj hk).symm
  | finish answer =>
    unfold events step finish
    cases hBegun : g.begunAt with
    | none => simpa [hBegun] using hInv
    | some k =>
      obtain rfl := hInv.begun k hBegun
      cases answer with
      | drawn fence => exact advance_inv hInv g.ring.next
      | dropped | refused =>
        -- the buffer's turn is given back with the drawing
        rw [List.append_nil]
        refine ⟨hInv.size, hInv.keeps, hInv.ahead, ?_⟩
        intro k hk
        cases hk
  | keep => exact advance_inv hInv g.keep.current
  | presented fence =>
    have hShows : shows (h ++ [.shown g.current fence]) = (g.current, fence) :: shows h := by
      simp [shows]
    have hTurns : turnsSinceShown (h ++ [.shown g.current fence]) = 0 := by
      simp [turnsSinceShown]
    refine ⟨?_, ?_, ?_, ?_⟩
    · exact (Slots.size_present g.ring fence).trans hInv.size
    · show Keeps (g.ring.present fence) (shows (h ++ [.shown g.current fence]))
      rw [hShows]
      exact keeps_present hInv.keeps fence
    · show Ahead (g.ring.present fence) (turnsSinceShown (h ++ [.shown g.current fence]))
      rw [hTurns]
      exact ahead_present hInv.keeps fence
    · intro k hk
      rw [hInv.begun k hk]
      show (g.ring.at_ + 1) % g.ring.size = (g.ring.at_ + 1) % (g.ring.present fence).size
      rw [Slots.size_present]

/-- The invariant holds after every run. -/
theorem gpuExecutor_inv {g : GpuExecutor F} {actions : List (Action F)}
    (hRun : (machine F).run {} actions = some g) : Inv (history actions) g := by
  have h := Machine.run_history (m := machine F) (I := Inv) (h := [])
    (fun h g a g' hInv hStep => by
      obtain rfl := Option.some.inj hStep
      exact step_inv a hInv)
    inv_init hRun
  rwa [List.nil_append] at h

/-- The fence beside every buffer is the one of the frame that replaced its
last showing, in whatever order frames were begun, finished, kept, shown or
lost. -/
theorem gpuExecutor_keeps {g : GpuExecutor F} {actions : List (Action F)}
    (hRun : (machine F).run {} actions = some g) {k : Nat} (hk : k < 3) :
    g.ring.ready k = (replacedBy (shows (history actions)) k).join := by
  have hInv := gpuExecutor_inv hRun
  exact hInv.keeps.freed k (hInv.size ▸ hk)

/-- A buffer being shown was not replaced. -/
theorem replacedBy_showing {shows : Shows F} {k : Nat}
    (hShowing : shows.head?.map Prod.fst = some k) : replacedBy shows k = none := by
  match shows with
  | [] => rfl
  | [_] => rfl
  | (s, fence) :: (s', fence') :: rest =>
    have hs : s = k := by simpa using hShowing
    simp [replacedBy, hs]

/--
**When the GPU draws into the buffer on the panel.** After any run, the buffer
`Begin` would lend out is safe exactly when no frame of the GPU was ever shown,
or the turns taken since the last one that was are not two modulo three. Every
frame whose commit goes through brings that count to zero; every frame that
took a buffer and was not shown adds one.
-/
theorem gpuExecutor_begin_safe_iff {g : GpuExecutor F} {actions : List (Action F)}
    (hRun : (machine F).run {} actions = some g) :
    SafeToDraw (history actions) g.nextSlot g.readyFence ↔
      shows (history actions) = [] ∨ turnsSinceShown (history actions) % 3 ≠ 2 := by
  have hInv := gpuExecutor_inv hRun
  have hShown := hInv.keeps.shown
  have hNext := next_eq_showing_iff hInv.keeps hInv.ahead
  rw [hInv.size] at hNext
  cases hShows : shows (history actions) with
  | nil => simp [SafeToDraw, hShows]
  | cons first rest =>
    have hAny : g.ring.anythingShowing = true := by
      by_contra hNot
      simp [hNot, hShows] at hShown
    rw [if_pos hAny] at hShown
    have hFirst : SafeToDraw (history actions) g.nextSlot g.readyFence ↔
        g.ring.next ≠ g.ring.showing := by
      constructor
      · rintro (hOther | ⟨fence, hReplaced, -⟩) hEq
        · exact hOther (by rw [hShown, nextSlot, hEq])
        · -- the buffer on the panel has not been replaced
          rw [replacedBy_showing (by rw [hShown, nextSlot, hEq])] at hReplaced
          cases hReplaced
      · intro hne
        refine .inl ?_
        rw [hShown, nextSlot]
        exact fun hEq => hne (Option.some.inj hEq).symm
    rw [hFirst, ne_eq, hNext]
    simp only [reduceCtorEq, false_or, ne_eq]
    omega

/-- A frame that goes up. -/
def frameShown : List (Action Nat) :=
  [.begin_ false, .finish (.drawn 7), .presented (some 8)]

/-- A frame drawn whose commit fails. -/
def frameLost : List (Action Nat) := [.begin_ false, .finish (.drawn 9)]

/-- After one lost frame the next drawing goes into a buffer not shown. -/
theorem gpuExecutor_begin_safe_one_lost :
    SafeToDraw (history (frameShown ++ frameLost)) 0 (none : Option Nat) := by
  have hRun : (machine Nat).run {} (frameShown ++ frameLost) = some _ := rfl
  exact (gpuExecutor_begin_safe_iff hRun).mpr (.inr (by decide))

/-- After two lost frames the next drawing goes into the buffer on the panel,
with no fence to wait for. -/
theorem gpuExecutor_begin_unsafe :
    ¬ ∀ (actions : List (Action Nat)) (g : GpuExecutor Nat),
      (machine Nat).run {} actions = some g →
        SafeToDraw (history actions) g.nextSlot g.readyFence := by
  intro hSafe
  rcases hSafe (frameShown ++ frameLost ++ frameLost) _ rfl with hOther | ⟨fence, hReplaced, -⟩
  · exact hOther rfl
  · cases hReplaced

end GpuExecutor

end TegraHwc
