import TegraHwc.Hwc.ReleaseFences

/-!
# TegraHwc — when a buffer handed back is free

An answer is safe where, once its fence is due, nothing that was to read the
buffer when it was given still is. The flips see to it for whatever went into a
frame: the panel leaves a flip's buffers for the next one's, and a flip waits for
the drawings it shows. A drawing that went into no frame is waited for by nobody:
one begun for a validation that was not presented and cancelled after it was
taken, one drawn for a group then shown a frame behind, one whose flip was
refused. The fence handed back for a buffer it reads may be due before it is
done.

## Results

* `kept_step`          — every answer a present gives is covered by its fence.
* `once_step`          — each buffer replaced is owed one answer.
* `releaseFences_safe` — in every run whose steps keep to `Settled`, answers are
  safe and given once.
-/

namespace TegraHwc.ReleasingDisplay

open Runs Scanout

variable {c : ReleaseConfig} {s s' : ReleasingDisplay}

-- ---------------------------------------------------------------------------
-- Who reads a buffer
-- ---------------------------------------------------------------------------

/-- Both engines. -/
def engines : List DrawingEngine := [.vic, .gpu]

theorem mem_engines (e : DrawingEngine) : e ∈ engines := by
  cases e <;> decide

/-- The job a worker has not yet submitted the last of. -/
def inHand : Worker → List JobQueue.Id
  | .drawing id _ => [id]
  | _ => []

/-- The jobs an engine is still to be given, and what they read. -/
def toDraw (s : ReleasingDisplay) : DrawingEngine → List (JobQueue.Id × List Nat)
  | .vic =>
    ((s.manager.jobs.entries.filter fun e => decide (e.state = .kQueued)).map (·.id) ++
      inHand s.manager.worker).map fun id => (id, s.jobReads id)
  | .gpu =>
    s.gpuJobs.entries.filterMap fun e =>
      if e.state = .kQueued then e.job.map fun reads => (e.id, reads) else none

/-- A reader that is there, or a job that is to be one. -/
inductive Reading where
  | reader (x : Reader DrawingEngine)
  | job (engine : DrawingEngine) (id : JobQueue.Id)
  deriving DecidableEq, Repr

/-- Who reads a buffer, or is going to. -/
def Reads (s : ReleasingDisplay) (b : Nat) : Reading → Prop
  | .reader x => s.hardware.Reads b x
  | .job e id => ∃ reads, (id, reads) ∈ s.toDraw e ∧ b ∈ reads

/-- Whether a reading is over; that of a job once all its drawings are done. -/
def Over (s : ReleasingDisplay) : Reading → Prop
  | .reader x => s.hardware.Over x
  | .job e id =>
    (∀ reads, (id, reads) ∉ s.toDraw e) ∧
      ∀ (n : Nat) (d : Scanout.Drawing Nat), (s.hardware.channels e).drawings[n]? = some d →
        d.job = some id → n < (s.hardware.channels e).done

/-- **Answers are safe**: of who read the buffer when it was answered for,
nobody still does once the fence is due. -/
def Safe (h : List Event) (s : ReleasingDisplay) : Prop :=
  ∀ a display, Event.answered a display ∈ h → ∀ b, a.buffer = some b →
    ∀ x, display.Reads b x → s.hardware.Due a.fence → s.Over x

/-- The buffers replaced in a layer, in their order. -/
def replacedIn (id : ILayerId) (h : List Event) : List (Option Nat) :=
  h.filterMap fun
    | .replaced layer buffer => if layer = id then some buffer else none
    | .answered _ _ => none

/-- The buffers answered for to a layer, in their order. -/
def answeredTo (id : ILayerId) (h : List Event) : List (Option Nat) :=
  h.filterMap fun
    | .replaced _ _ => none
    | .answered a _ => if a.layer = id then some a.buffer else none

/-- The buffers of a layer that are still to be answered for. -/
def owed (layers : List (ILayerId × HwcLayer)) (id : ILayerId) : List (Option Nat) :=
  layers.filterMap fun e =>
    if e.1 = id ∧ e.2.priorBufferScanoutFlag = true then some e.2.priorBuffer else none

/-- **Answers are given once**: the buffers replaced in a layer are those it was
answered for, in their order, and the one it is owed. -/
def Once (h : List Event) (s : ReleasingDisplay) : Prop :=
  ∀ id, replacedIn id h = answeredTo id h ++ owed s.layers id

-- ---------------------------------------------------------------------------
-- When answers are safe
-- ---------------------------------------------------------------------------

/-- No drawing that reads the buffer is still to come, and each one under way is
one that some of these flips wait for, or comes before one. -/
def Accounted (s : ReleasingDisplay) (flips : List (Flip DrawingEngine Nat)) (b : Nat) : Prop :=
  (∀ e ∈ engines, ∀ job ∈ s.toDraw e, b ∉ job.2) ∧
    ∀ e ∈ engines, ∀ n ∈ s.hardware.underWay e b, ∃ g ∈ flips, g.awaits (.drawing e n) = true

/-- The buffer is not on a window again, and all that read it went into frames:
up to this one, where its flip comes with a fence to answer by; up to the last,
where the engine's answers, which the panel then shows and which does not have
it on a window. -/
def Freed (s : ReleasingDisplay) (put : Put) (fenced : Bool) (b : Nat) : Prop :=
  b ∉ s.described.windows ∧
    if (s.engineFenceFor (some b)).isSome then
      s.hardware.latched = s.hardware.flips.length ∧
        (∀ g ∈ s.hardware.flips.getLast?, b ∉ g.windows) ∧ s.Accounted s.hardware.flips b
    else fenced = true ∧ s.Accounted (s.hardware.flips ++ [s.flipOf put]) b

/-- A layer is not owed an answer. -/
def Paid (s : ReleasingDisplay) (id : ILayerId) : Prop :=
  ∀ e ∈ s.layers, e.1 = id → e.2.priorBufferScanoutFlag = false

/-- What a step keeps to: no layer is given a buffer or destroyed while it is
owed an answer, and every buffer a present answers for is freed. -/
def Settled (s : ReleasingDisplay) : Action → Prop
  | .setLayerBuffer id _ _ => s.Paid id
  | .destroyLayer id => s.Paid id
  | .flip (some fenced) =>
    match s.manager.frame with
    | .flipping put =>
      ∀ e ∈ s.layers, e.2.priorBufferScanoutFlag = true →
        ∀ b ∈ e.2.priorBuffer, s.Freed put fenced b
    | _ => True
  | _ => True

instance (flips : List (Flip DrawingEngine Nat)) (b : Nat) : Decidable (s.Accounted flips b) := by
  unfold Accounted
  infer_instance

instance (put : Put) (fenced : Bool) (b : Nat) : Decidable (s.Freed put fenced b) := by
  unfold Freed
  infer_instance

instance (a : Action) : Decidable (s.Settled a) := by
  unfold Settled Paid
  split
  · infer_instance
  · infer_instance
  · split <;> infer_instance
  · infer_instance

-- ---------------------------------------------------------------------------
-- What a step does
-- ---------------------------------------------------------------------------

/-- A step about no layer: the hardware goes on, and nothing is answered. -/
structure Aside (s s' : ReleasingDisplay) : Prop where
  layers : s'.layers = s.layers
  later : Hardware.Later s.hardware s'.hardware
  landed : s.hardware.Landed → s'.hardware.Landed

theorem Aside.of_eq (hLayers : s'.layers = s.layers) (hHardware : s'.hardware = s.hardware) :
    Aside s s' :=
  ⟨hLayers, hHardware ▸ .refl _, fun h => hHardware ▸ h⟩

/-- A drawing given to an engine. -/
theorem Aside.of_submit {e : DrawingEngine} {d : Scanout.Drawing Nat}
    (hLayers : s'.layers = s.layers) (hHardware : s'.hardware = s.hardware.submit e d) :
    Aside s s' :=
  ⟨hLayers, hHardware ▸ Hardware.later_submit e d,
    fun h => hHardware ▸ Hardware.landed_submit h e d⟩

/-- The merge's own step leaves the rest. -/
theorem manage_eq {t : ReleasingDisplay} {a : System.Action} (h : t.manage c a = some s') :
    s'.layers = t.layers ∧ s'.hardware = t.hardware := by
  obtain ⟨manager, -, rfl⟩ := Option.map_eq_some_iff.mp h
  exact ⟨rfl, rfl⟩

theorem aside_manage {t : ReleasingDisplay} {a : System.Action} (h : t.manage c a = some s')
    (hLayers : t.layers = s.layers) (hHardware : t.hardware = s.hardware) : Aside s s' :=
  .of_eq ((manage_eq h).1.trans hLayers) ((manage_eq h).2.trans hHardware)

/-- A drawing for the merge is all its step adds to the hardware. -/
theorem aside_drew {taken : Bool} {d : Scanout.Drawing Nat} {a : System.Action}
    (h : (s.drew taken d).manage c a = some s') : Aside s s' := by
  obtain ⟨hLayers, hHardware⟩ := manage_eq h
  unfold drew at hLayers hHardware
  cases taken with
  | false => exact .of_eq hLayers hHardware
  | true => exact .of_submit hLayers hHardware

theorem dropBegun_eq (s : ReleasingDisplay) :
    s.dropBegun.layers = s.layers ∧ s.dropBegun.hardware = s.hardware := by
  unfold dropBegun
  cases s.gpuBegun with
  | none => exact ⟨rfl, rfl⟩
  | some begun => exact ⟨rfl, rfl⟩

theorem aside_drawClientOnGpu {how : ClientPicture} (h : s.drawClientOnGpu how = some s') :
    Aside s s' := by
  cases how with
  | again =>
    obtain rfl := Option.some.inj h
    exact .of_eq rfl rfl
  | keep held =>
    obtain rfl := Option.some.inj h
    exact .of_eq (dropBegun_eq s).1 (dropBegun_eq s).2
  | collect =>
    unfold drawClientOnGpu at h
    simp only at h
    split at h
    · obtain rfl := Option.some.inj h
      exact .of_eq rfl rfl
    split at h
    · cases h
    split at h
    · obtain rfl := Option.some.inj h
      exact .of_eq rfl rfl
    split at h
    · obtain rfl := Option.some.inj h
      exact .of_eq rfl rfl
    · obtain rfl := Option.some.inj h
      exact .of_eq rfl rfl

theorem aside_runJob {taken : Bool} (h : s.runJob taken = some s') : Aside s s' := by
  unfold runJob at h
  split at h
  · split at h
    · cases h
    · obtain rfl := Option.some.inj h
      cases taken with
      | false => exact .of_eq rfl rfl
      | true => exact .of_submit rfl rfl
  · cases h

/-- The steps that say something of the layers' buffers. -/
inductive Told (c : ReleaseConfig) (s : ReleasingDisplay) : Action → ReleasingDisplay → Prop
  | createLayer (id : ILayerId) : Told c s (.createLayer id) (s.createLayer id)
  | destroyLayer (id : ILayerId) : Told c s (.destroyLayer id) (s.destroyLayer id)
  | setLayerBuffer (id : ILayerId) (now : Nat) (b : Buffer) :
    Told c s (.setLayerBuffer id now b) (s.withLayer id fun l => l.setBuffer now b)
  | settle (types : ILayerId → CompositionType) : Told c s (.settle types) (s.settle types)
  | flip {put : Put} (fenced : Bool) (manager : System) (hFrame : s.manager.frame = .flipping put) :
    Told c s (.flip (some fenced)) (s.committed c put fenced manager).answered

/-- **What a step does**: it says something of the layers' buffers, or it is
aside, and nothing is seen of it. -/
theorem step_cases {a : Action} (h : s.step c a = some s') :
    Told c s a s' ∨ (Aside s s' ∧ s.events c a = []) := by
  cases a with
  | createLayer id =>
    simp only [step, Option.ite_none_right_eq_some, Option.some.injEq] at h
    obtain ⟨-, rfl⟩ := h
    exact .inl (.createLayer id)
  | destroyLayer id =>
    simp only [step, Option.ite_none_right_eq_some, Option.some.injEq] at h
    obtain ⟨-, rfl⟩ := h
    exact .inl (.destroyLayer id)
  | setLayerBuffer id now b =>
    simp only [step, Option.ite_none_right_eq_some, Option.some.injEq] at h
    obtain ⟨-, rfl⟩ := h
    exact .inl (.setLayerBuffer id now b)
  | settle types =>
    simp only [step, Option.ite_none_right_eq_some, Option.some.injEq] at h
    obtain ⟨-, rfl⟩ := h
    exact .inl (.settle types)
  | setClientTarget =>
    simp only [step, Option.ite_none_right_eq_some, Option.some.injEq] at h
    obtain ⟨-, rfl⟩ := h
    exact .inr ⟨.of_eq rfl rfl, rfl⟩
  | validate r => exact .inr ⟨aside_manage h rfl rfl, rfl⟩
  | queueMerge forced => exact .inr ⟨aside_manage h rfl rfl, rfl⟩
  | beginClientOnGpu range =>
    simp only [step, Option.ite_none_right_eq_some, Option.some.injEq] at h
    obtain ⟨-, rfl⟩ := h
    exact .inr ⟨.of_eq (dropBegun_eq s).1 (dropBegun_eq s).2, rfl⟩
  | drawClientOnGpu how =>
    simp only [step, Option.ite_none_right_eq_some] at h
    exact .inr ⟨aside_drawClientOnGpu h.2, rfl⟩
  | noteFrameUnjudged => exact .inr ⟨aside_manage h rfl rfl, rfl⟩
  | execute r powerFails => exact .inr ⟨aside_manage h rfl rfl, rfl⟩
  | resolve => exact .inr ⟨aside_manage h rfl rfl, rfl⟩
  | judge isPending forced => exact .inr ⟨aside_manage h rfl rfl, rfl⟩
  | compose taken => exact .inr ⟨aside_drew h, rfl⟩
  | flip answer =>
    unfold step at h
    simp only at h
    split at h
    · rename_i put hFrame
      cases answer with
      | none => exact .inr ⟨aside_manage h rfl rfl, rfl⟩
      | some fenced =>
        obtain ⟨manager, -, rfl⟩ := Option.map_eq_some_iff.mp h
        exact .inl (.flip fenced manager hFrame)
    · cases h
  | take =>
    simp only [step, Option.ite_none_right_eq_some] at h
    exact .inr ⟨aside_manage h.2 rfl rfl, rfl⟩
  | workerCompose taken =>
    unfold step at h
    simp only at h
    split at h
    · exact .inr ⟨aside_drew h, rfl⟩
    · cases h
  | workerDone =>
    unfold step at h
    simp only at h
    split at h
    · exact .inr ⟨aside_manage h rfl rfl, rfl⟩
    · cases h
  | runJob taken => exact .inr ⟨aside_runJob h, rfl⟩
  | drawBeside reads =>
    obtain rfl := Option.some.inj h
    exact .inr ⟨.of_submit rfl rfl, rfl⟩
  | finish engine =>
    obtain ⟨hardware, hFinish, rfl⟩ := Option.map_eq_some_iff.mp h
    exact .inr ⟨⟨rfl, (Hardware.later_finish hFinish).1,
      fun hLanded => Hardware.landed_finish hLanded hFinish⟩, rfl⟩
  | latch =>
    obtain ⟨hardware, hLatch, rfl⟩ := Option.map_eq_some_iff.mp h
    exact .inr ⟨⟨rfl, Hardware.later_latch hLatch,
      fun hLanded => Hardware.landed_latch hLanded hLatch⟩, rfl⟩

/-- A step gives the hardware its due. -/
theorem step_later {a : Action} (h : s.step c a = some s') :
    Hardware.Later s.hardware s'.hardware := by
  rcases step_cases h with hTold | ⟨hAside, -⟩
  · cases hTold with
    | createLayer id =>
      unfold createLayer
      split <;> exact .refl _
    | flip fenced manager hFrame => exact Hardware.later_flip _
    | _ => exact .refl _
  · exact hAside.later

/-- What has gone up has not gone up too early. -/
theorem landed_step {a : Action} (hLanded : s.hardware.Landed) (h : s.step c a = some s') :
    s'.hardware.Landed := by
  rcases step_cases h with hTold | ⟨hAside, -⟩
  · cases hTold with
    | createLayer id =>
      unfold createLayer
      split <;> exact hLanded
    | flip fenced manager hFrame => exact Hardware.landed_flip hLanded _
    | _ => exact hLanded
  · exact hAside.landed hLanded

-- ---------------------------------------------------------------------------
-- What answers say
-- ---------------------------------------------------------------------------

/-- An answer that holds: whoever read the buffer when it was given is a reader
its fence covers. -/
def Kept (s : ReleasingDisplay) (a : Answer) (display : ReleasingDisplay) : Prop :=
  ∀ b, a.buffer = some b → ∀ x, display.Reads b x →
    ∃ y, x = .reader y ∧ s.hardware.Covered a.fence y

/-- What is kept stays so. -/
theorem Kept.later {a : Answer} {display : ReleasingDisplay} (h : Kept s a display)
    (hLater : Hardware.Later s.hardware s'.hardware) : Kept s' a display := by
  intro b hb x hReads
  obtain ⟨y, rfl, hCovered⟩ := h b hb x hReads
  exact ⟨y, rfl, hLater.covered hCovered⟩

/-- Answers go to the layers owed one. -/
theorem mem_answers {a : Answer} (h : a ∈ s.answers) :
    ∃ e ∈ s.layers, e.2.priorBufferScanoutFlag = true ∧ a.buffer = e.2.priorBuffer ∧
      a.fence = (s.engineFenceFor e.2.priorBuffer).or s.releaseFence := by
  obtain ⟨e, hMem, hAnswer⟩ := List.mem_filterMap.mp h
  simp only [Option.ite_none_right_eq_some, Option.some.injEq] at hAnswer
  obtain ⟨hOwed, rfl⟩ := hAnswer
  exact ⟨e, hMem, hOwed, rfl, rfl⟩

/-- No job to come reads a buffer that is accounted for. -/
theorem Accounted.no_job {flips : List (Flip DrawingEngine Nat)} {b : Nat} (h : s.Accounted flips b)
    {e : DrawingEngine} {id : JobQueue.Id} : ¬ s.Reads b (.job e id) := by
  rintro ⟨reads, hMem, hb⟩
  exact h.1 e (mem_engines e) _ hMem hb

/-- **The answer of a present is kept** for a buffer that is freed. -/
theorem kept_of_freed {put : Put} {fenced : Bool} {manager : System} {b : Nat}
    (hLanded : s.hardware.Landed) (hFreed : s.Freed put fenced b) {a : Answer}
    (hBuffer : a.buffer = some b)
    (hFence : a.fence = (s.engineFenceFor (some b)).or
      (if fenced then some (.shown s.hardware.flips.length) else none)) :
    Kept (s.committed c put fenced manager).answered a (s.committed c put fenced s.manager) := by
  intro b' hb' x hReads
  obtain rfl : b = b' := Option.some.inj (hBuffer.symm.trans hb')
  obtain ⟨hShows, hFreed⟩ := hFreed
  split at hFreed
  · -- by the engine's fence: nothing reads it any more
    obtain ⟨hLast, hShown, hAccounted⟩ := hFreed
    cases x with
    | reader y =>
      refine absurd hReads ?_
      exact Hardware.unread_of_landed hLanded hLast (f := s.flipOf put) hShows hShown
        (fun e n hn => hAccounted.2 e (mem_engines e) n hn) y
    | job e id => exact absurd hReads hAccounted.no_job
  · -- by the flip's
    rename_i hEngine
    obtain ⟨rfl, hAccounted⟩ := hFreed
    rw [Option.not_isSome_iff_eq_none.mp hEngine, Option.none_or, if_pos rfl] at hFence
    cases x with
    | reader y =>
      refine ⟨y, rfl, ?_⟩
      rw [hFence]
      exact Hardware.covered_of_flip hShows
        (fun e n hn => hAccounted.2 e (mem_engines e) n hn) hReads
    | job e id => exact absurd hReads hAccounted.no_job

-- ---------------------------------------------------------------------------
-- What a layer is owed
-- ---------------------------------------------------------------------------

theorem replacedIn_append (id : ILayerId) (h es : List Event) :
    replacedIn id (h ++ es) = replacedIn id h ++ replacedIn id es :=
  List.filterMap_append

theorem answeredTo_append (id : ILayerId) (h es : List Event) :
    answeredTo id (h ++ es) = answeredTo id h ++ answeredTo id es :=
  List.filterMap_append

/-- A layer that is paid is owed nothing. -/
theorem owed_of_paid {id : ILayerId} (h : s.Paid id) : owed s.layers id = [] := by
  refine List.filterMap_eq_nil_iff.mpr fun e hMem => if_neg ?_
  rintro ⟨hId, hFlag⟩
  rw [h e hMem hId] at hFlag
  cases hFlag

/-- Layers changed in other respects are owed what they were. -/
theorem owed_map {f : ILayerId × HwcLayer → ILayerId × HwcLayer}
    {layers : List (ILayerId × HwcLayer)} {id : ILayerId}
    (h : ∀ e ∈ layers, e.1 = id → (f e).1 = id ∧
      (f e).2.priorBufferScanoutFlag = e.2.priorBufferScanoutFlag ∧
      (f e).2.priorBuffer = e.2.priorBuffer)
    (hOther : ∀ e ∈ layers, e.1 ≠ id → (f e).1 ≠ id) : owed (layers.map f) id = owed layers id := by
  unfold owed
  rw [List.filterMap_map]
  refine List.filterMap_congr fun e hMem => ?_
  by_cases hId : e.1 = id
  · obtain ⟨hKept, hFlag, hPrior⟩ := h e hMem hId
    simp [hKept, hFlag, hPrior, hId]
  · simp [hOther e hMem hId, hId]

theorem owed_createLayer (id id' : ILayerId) :
    owed (s.createLayer id).layers id' = owed s.layers id' := by
  unfold createLayer
  split
  · rfl
  · simp [owed]

theorem owed_settle (types : ILayerId → CompositionType) (id : ILayerId) :
    owed (s.settle types).layers id = owed s.layers id :=
  owed_map (fun _ _ h => ⟨h, rfl, rfl⟩) (fun _ _ h => h)

theorem owed_destroyLayer {id : ILayerId} (h : s.Paid id) (id' : ILayerId) :
    owed (s.destroyLayer id).layers id' = owed s.layers id' := by
  unfold owed destroyLayer
  rw [List.filterMap_filter]
  refine List.filterMap_congr fun e hMem => ?_
  by_cases hId : e.1 = id
  · have hFlag := h e hMem hId
    simp [hId, hFlag]
  · simp [hId]

/-- A layer given a buffer keeps the one before in mind, if it was the display's
to show. -/
theorem setBuffer_prior (l : HwcLayer) (now : Nat) (b : Buffer) :
    (l.setBuffer now b).priorBufferScanoutFlag = decide (l.validatedType ≠ .kClient) ∧
      (l.setBuffer now b).priorBuffer = l.handle := by
  obtain ⟨last, previous, hMark⟩ := HwcLayer.markActivity_eq l (l.layerData.fb ≠ b.fb) now
  unfold HwcLayer.setBuffer HwcLayer.raise
  simp only [hMark]
  split <;> exact ⟨rfl, rfl⟩

/-- A layer given a buffer is owed an answer for the one before, if it was the
display's to show. -/
theorem owed_setLayerBuffer {id : ILayerId} (h : s.Paid id) (now : Nat) (b : Buffer)
    (id' : ILayerId) :
    owed (s.withLayer id fun l => l.setBuffer now b).layers id' =
      owed s.layers id' ++ replacedIn id' (s.events c (.setLayerBuffer id now b)) := by
  have hSet := fun l => setBuffer_prior l now b
  by_cases hId : id' = id
  · subst hId
    rw [owed_of_paid h, List.nil_append]
    unfold owed withLayer replacedIn events
    simp only
    rw [List.filterMap_map, List.filterMap_filterMap]
    refine List.filterMap_congr fun e _ => ?_
    by_cases he : e.1 = id'
    · by_cases hClient : e.2.validatedType = .kClient
      · simp [he, hSet, hClient]
      · simp [he, hSet, hClient]
    · simp [he]
  · have hNone : replacedIn id' (s.events c (.setLayerBuffer id now b)) = [] := by
      unfold replacedIn events
      simp only
      rw [List.filterMap_filterMap]
      refine List.filterMap_eq_nil_iff.mpr fun e _ => ?_
      by_cases he : e.1 = id ∧ e.2.validatedType ≠ .kClient
      · simp [he, Ne.symm hId]
      · simp [he]
    rw [hNone, List.append_nil]
    refine owed_map (fun e _ he => ?_) (fun e _ he => ?_)
    · rw [if_neg (he ▸ hId)]
      exact ⟨he, rfl, rfl⟩
    · split
      · exact he
      · exact he

/-- The answers of a present are those owed. -/
theorem answeredTo_answers (display : ReleasingDisplay) (id : ILayerId) :
    answeredTo id (s.answers.map fun a => .answered a display) = owed s.layers id := by
  unfold answeredTo answers owed
  rw [List.filterMap_map, List.filterMap_filterMap]
  refine List.filterMap_congr fun e _ => ?_
  by_cases hOwed : e.2.priorBufferScanoutFlag = true
  · simp [hOwed]
  · simp [hOwed]

/-- Once they are given, nothing is owed. -/
theorem owed_answered (id : ILayerId) : owed s.answered.layers id = [] := by
  unfold owed answered
  rw [List.filterMap_map]
  refine List.filterMap_eq_nil_iff.mpr fun e _ => ?_
  by_cases hOwed : e.2.priorBufferScanoutFlag = true
  · simp [hOwed, HwcLayer.clearPriorBufferScanOutFlag]
  · simp [hOwed]

-- ---------------------------------------------------------------------------
-- What a run keeps
-- ---------------------------------------------------------------------------

/-- What is known after a run that kept to `Settled`. -/
structure Inv (h : List Event) (s : ReleasingDisplay) : Prop where
  landed : s.hardware.Landed
  kept : ∀ a display, Event.answered a display ∈ h → Kept s a display
  once : Once h s

theorem inv_init (slots : Nat) : Inv [] (init slots) where
  landed := ⟨Nat.le_refl _, fun hk => absurd hk (Nat.not_lt_zero _)⟩
  kept := by
    intro a display h
    cases h
  once := fun _ => rfl

/-- **Every answer a step gives is kept.** -/
theorem kept_step {a : Action} (hLanded : s.hardware.Landed) (hSettled : s.Settled a)
    (hStep : s.step c a = some s') {answer : Answer} {display : ReleasingDisplay}
    (hMem : Event.answered answer display ∈ s.events c a) : Kept s' answer display := by
  rcases step_cases hStep with hTold | ⟨-, hNone⟩
  · cases hTold with
    | setLayerBuffer id now b =>
      obtain ⟨e, -, he⟩ := List.mem_filterMap.mp hMem
      split at he <;> cases he
    | flip fenced manager hFrame =>
      rename_i put
      unfold Settled at hSettled
      unfold events at hMem
      simp only [hFrame] at hSettled hMem
      obtain ⟨answer', hAnswer, hEvent⟩ := List.mem_map.mp hMem
      obtain ⟨rfl, rfl⟩ := Event.answered.inj hEvent
      obtain ⟨e, he, hOwed, hBuffer, hFence⟩ := mem_answers hAnswer
      intro b hb
      have hPrior : e.2.priorBuffer = some b := hBuffer.symm.trans hb
      rw [hPrior] at hFence
      exact kept_of_freed hLanded (hSettled e he hOwed b hPrior) hb hFence b hb
    | _ => cases hMem
  · rw [hNone] at hMem
    cases hMem

/-- **Each buffer replaced is owed one answer**, which the present that goes up
next gives. -/
theorem once_step {h : List Event} {a : Action} (hOnce : Once h s) (hSettled : s.Settled a)
    (hStep : s.step c a = some s') : Once (h ++ s.events c a) s' := by
  intro id
  rw [replacedIn_append, answeredTo_append, hOnce id]
  rcases step_cases hStep with hTold | ⟨hAside, hNone⟩
  · cases hTold with
    | createLayer id' =>
      rw [owed_createLayer]
      simp [events, replacedIn, answeredTo]
    | destroyLayer id' =>
      rw [owed_destroyLayer hSettled]
      simp [events, replacedIn, answeredTo]
    | settle types =>
      rw [owed_settle]
      simp [events, replacedIn, answeredTo]
    | setLayerBuffer id' now b =>
      rw [owed_setLayerBuffer (c := c) hSettled]
      have hNone : answeredTo id (s.events c (.setLayerBuffer id' now b)) = [] := by
        refine List.filterMap_eq_nil_iff.mpr fun event hMem => ?_
        obtain ⟨e, -, he⟩ := List.mem_filterMap.mp hMem
        split at he
        · obtain rfl := Option.some.inj he
          rfl
        · cases he
      rw [hNone, List.append_nil, List.append_assoc]
    | flip fenced manager hFrame =>
      rename_i put
      have hEvents : s.events c (.flip (some fenced)) =
          (s.committed c put fenced s.manager).answers.map
            fun a => .answered a (s.committed c put fenced s.manager) := by
        unfold events
        simp only [hFrame]
      have hNone : replacedIn id (s.events c (.flip (some fenced))) = [] := by
        rw [hEvents]
        refine List.filterMap_eq_nil_iff.mpr fun event hMem => ?_
        obtain ⟨answer, -, rfl⟩ := List.mem_map.mp hMem
        rfl
      rw [hNone, hEvents, answeredTo_answers, owed_answered, List.append_nil, List.append_nil]
      rfl
  · rw [hNone, hAside.layers]
    simp [replacedIn, answeredTo]

/-- **Every step that keeps to `Settled` keeps the invariant.** -/
theorem inv_step {h : List Event} {a : Action} (hInv : Inv h s) (hSettled : s.Settled a)
    (hStep : s.step c a = some s') : Inv (h ++ s.events c a) s' where
  landed := landed_step hInv.landed hStep
  kept := by
    intro answer display hMem
    rcases List.mem_append.mp hMem with hBefore | hNow
    · exact (hInv.kept answer display hBefore).later (step_later hStep)
    · exact kept_step hInv.landed hSettled hStep hNow
  once := once_step hInv.once hSettled hStep

/-- What is kept is safe. -/
theorem Inv.safe {h : List Event} (hInv : Inv h s) : Safe h s := by
  intro a display hMem b hb x hReads hDue
  obtain ⟨y, rfl, hCovered⟩ := hInv.kept a display hMem b hb x hReads
  exact hInv.landed.over_of_covered hCovered hDue

/--
**When release fences are safe.** In every run, whatever is validated, dropped,
cancelled, lagged, refused and shown again in it, whose steps keep to `Settled`,
no answer's fence is due while a reader the buffer had when it was answered for
still reads it, and the buffers replaced in a layer are answered for once each,
in their order, but for the one the next present will answer for.
-/
theorem releaseFences_safe (c : ReleaseConfig) (slots : Nat) (actions : List Action)
    {s : ReleasingDisplay} (hRun : (machine c).run (init slots) actions = some s)
    (hSettled : (machine c).Meets Settled (init slots) actions) :
    Safe ((machine c).trace (init slots) actions) s ∧
      Once ((machine c).trace (init slots) actions) s := by
  have hInv := Machine.run_history_of_meets (m := machine c) (I := Inv) (h := [])
    (fun _ _ _ _ hInv hSettled hStep => inv_step hInv hSettled hStep)
    (inv_init slots) hSettled hRun
  rw [List.nil_append] at hInv
  exact ⟨hInv.safe, hInv.once⟩

/-- A buffer of this name. -/
def bufferNamed (b : Nat) : Buffer :=
  { bi := { width := 32, height := 32, uniqueId := b, handle := some b } }

/-- A frame of one layer, on a window of its own. -/
def onWindow (b : Nat) : NamedRequest := { windows := [b] }

/-- A frame of one layer, drawn by the engine. -/
def inGroup (generation b : Nat) : NamedRequest :=
  { merge := System.oneLayer generation, members := [some b] }

/-- A frame validated, presented and put up on a window. -/
def frameOnWindow (b : Nat) : List Action :=
  [.validate (onWindow b), .queueMerge 0, .settle fun _ => .kDevice, .execute (onWindow b) false,
    .flip (some true), .latch]

/-- A frame validated, and its drawing given to the engine. -/
def begunInGroup (generation b : Nat) : List Action :=
  [.validate (inGroup generation b), .queueMerge 0, .settle fun _ => .kDevice, .take,
    .workerCompose true]

/-- The same, presented, drawn and put up. -/
def frameInGroup (generation b : Nat) : List Action :=
  begunInGroup generation b ++
    [.workerDone, .execute (inGroup generation b) false, .resolve, .judge (fun _ => false) 0,
      .flip (some true), .finish .vic, .latch]

/-- Two frames of a layer the engine draws: the first's buffer comes back by the
engine's fence. -/
def handedBack : List Action :=
  [.createLayer 1, .setLayerBuffer 1 0 (bufferNamed 10)] ++ frameInGroup 1 10 ++
    [.setLayerBuffer 1 1 (bufferNamed 11)] ++ frameInGroup 2 11

theorem releaseFences_safe_handedBack :
    ∃ s, (machine {}).run (init 3) handedBack = some s ∧
      Safe ((machine {}).trace (init 3) handedBack) s ∧
        Once ((machine {}).trace (init 3) handedBack) s :=
  ⟨_, rfl, releaseFences_safe {} 3 handedBack rfl (by decide)⟩

/-- A frame validated a second time before it is presented: it was to be drawn by
the engine, which has the drawing already, and goes up on a window. The next frame
replaces its buffer. -/
def validatedTwice : List Action :=
  [.createLayer 1, .setLayerBuffer 1 0 (bufferNamed 10)] ++ frameOnWindow 10 ++
    [.setLayerBuffer 1 1 (bufferNamed 11)] ++ begunInGroup 2 11 ++ frameOnWindow 11 ++
    [.setLayerBuffer 1 2 (bufferNamed 12)] ++ frameOnWindow 12

/-- The buffer comes back by the flip's fence, which does not wait for the drawing
that was cancelled: it still reads the buffer when the flip is up. -/
theorem releaseFences_validatedTwice :
    ¬ ∀ (c : ReleaseConfig) (slots : Nat) (actions : List Action) (s : ReleasingDisplay),
      (machine c).run (init slots) actions = some s →
        Safe ((machine c).trace (init slots) actions) s ∧
          Once ((machine c).trace (init slots) actions) s := by
  intro h
  obtain ⟨hSafe, -⟩ := h {} 3 validatedTwice _ rfl
  have hMem := List.mem_of_getElem? (l := (machine {}).trace (init 3) validatedTwice) (i := 5) rfl
  refine Nat.lt_irrefl 0 (hSafe _ _ hMem 11 rfl (.reader (.drawing .vic 0)) ?_ ?_)
  · show 0 ∈ Hardware.underWay _ _ _
    decide
  · decide

end TegraHwc.ReleasingDisplay
