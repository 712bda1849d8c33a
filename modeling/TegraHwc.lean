import TegraHwc.Lib.Runs
import TegraHwc.Lib.Rotation
import TegraHwc.Lib.Raster
import TegraHwc.Lib.Ledger
import TegraHwc.Lib.Joining
import TegraHwc.Lib.Bilinear
import TegraHwc.Lib.Scanout
import TegraHwc.Compositor.LayerData
import TegraHwc.Compositor.Occlusion
import TegraHwc.Compositor.OcclusionSound
import TegraHwc.Compositor.JobQueue
import TegraHwc.Compositor.MergeGroup
import TegraHwc.Compositor.LayerToPlaneJoiningPlan
import TegraHwc.Compositor.PictureMemory
import TegraHwc.Compositor.PartialRedraw
import TegraHwc.Compositor.PartialRedrawSound
import TegraHwc.Compositor.GatherParts
import TegraHwc.Tegra.GpuExecutor
import TegraHwc.Tegra.ScratchPool
import TegraHwc.Tegra.TegraAtomicStateManager
import TegraHwc.Tegra.VicLine
import TegraHwc.Tegra.MergeDrawn
import TegraHwc.Tegra.MergeTurns
import TegraHwc.Tegra.MergeStale
import TegraHwc.Tegra.MergeStandIn
import TegraHwc.Hwc.HwcLayer
import TegraHwc.Hwc.HwcDisplay
import TegraHwc.Hwc.PlanReuse
import TegraHwc.Hwc.PictureReuse
import TegraHwc.Governor.FloorLane
import TegraHwc.Governor.TegraGovernor
import TegraHwc.Governor.FencesClosed
import TegraHwc.Governor.Timers
import TegraHwc.Compositor.GenericCompositionPlanner
import TegraHwc.Tegra.CursorUnit
import TegraHwc.Tegra.TegraAtomicRequest
import TegraHwc.Tegra.CursorMoved
import TegraHwc.Vk.Geometry
import TegraHwc.Vk.Compositor
import TegraHwc.Vk.ComposeSound
import TegraHwc.Vk.CropDrawn
import TegraHwc.Compositor.RedrawReach
import TegraHwc.Compositor.DamageReach
import TegraHwc.Compositor.DamageKept
import TegraHwc.Hwc.ClientOnGpu
import TegraHwc.Hwc.ClientPicture
import TegraHwc.Hwc.ClientRepeated
import TegraHwc.Hwc.ClientOnVk
import TegraHwc.Hwc.PresentValidated
import TegraHwc.Hwc.ReleaseFences
import TegraHwc.Hwc.ReleaseSafe
import TegraHwc.Display.VSyncWorker
import TegraHwc.Compositor.MergeGroupBest
import TegraHwc.Compositor.ClientRange
import TegraHwc.Hwc.LayerRestated
import TegraHwc.Compositor.LayerEffects
import TegraHwc.Governor.TuningFile
import TegraHwc.Governor.TuningLines
import TegraHwc.Governor.MergePlan
import TegraHwc.Governor.TuningSafe
import TegraHwc.Compositor.JobQueueWakes
import TegraHwc.Tegra.VicSession
import TegraHwc.Tegra.DrawnByParts
import TegraHwc.Lib.Grid
import TegraHwc.Lib.Thinning
import TegraHwc.Display.NextVsync
import TegraHwc.Hwc.HwcDisplayConfigs
import TegraHwc.Compositor.FlatteningController
import TegraHwc.Compositor.HdcpController
import TegraHwc.Compositor.GarbageCollector
import TegraHwc.Tegra.ColorMatrix
import TegraHwc.Tegra.TegraVSyncSource
import TegraHwc.Vk.ImageCache
import TegraHwc.Tegra.MergeReach
import TegraHwc.Tegra.CursorSprite
import TegraHwc.Hwc.LayerBlended
import TegraHwc.Lib.Fair
import TegraHwc.Compositor.JobQueueWaiting
import TegraHwc.Vk.JobWorks
import TegraHwc.Hwc.DisplayBinding
import TegraHwc.Hwc.DisplaysPaired
import TegraHwc.Lib.Film
import TegraHwc.Tegra.PanelPicture
import TegraHwc.Tegra.WindowReach
import TegraHwc.Lib.Memo
import TegraHwc.Bufferinfo.BufferInfoNvidia
import TegraHwc.Tegra.TegraFbImporter
import TegraHwc.Hwc.RateChange
import TegraHwc.Hwc.ClientTypes
import TegraHwc.Hwc.CompositionJoined
import TegraHwc.Hwc.SceneShown
