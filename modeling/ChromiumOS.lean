import ChromiumOS.ToMathlib.BlockStream
import ChromiumOS.ToMathlib.GreedyScan
import ChromiumOS.ToMathlib.ListOrder
import ChromiumOS.ToMathlib.ListRuns
import ChromiumOS.ToMathlib.NodeList
import ChromiumOS.ToMathlib.Overwrite
import ChromiumOS.ToMathlib.PartialRun
import ChromiumOS.ToMathlib.PathWalk
import ChromiumOS.ToMathlib.Radix
import ChromiumOS.ToMathlib.StreamDecoder
import ChromiumOS.ToMathlib.TextSearch
import ChromiumOS.Math.Montgomery
import ChromiumOS.Math.RsaPower
import ChromiumOS.Model.Autox.ScriptRunner
import ChromiumOS.Model.MetricsDaemon.MetricsDaemon
import ChromiumOS.Model.Minijail.Env
import ChromiumOS.Model.MonitorReconfig.MonitorReconfigureMain
import ChromiumOS.Model.PamOffline.Authenticator
import ChromiumOS.Model.TpmLite.Copies
import ChromiumOS.Model.TpmLite.Generator
import ChromiumOS.Model.TpmLite.Tlcl
import ChromiumOS.Model.UpdateEngine.ActionProcessor
import ChromiumOS.Model.UpdateEngine.BzipExtentWriter
import ChromiumOS.Model.UpdateEngine.DownloadAction
import ChromiumOS.Model.UpdateEngine.ExtentWriter
import ChromiumOS.Model.UpdateEngine.FileWriter
import ChromiumOS.Model.UpdateEngine.FilesystemCopierAction
import ChromiumOS.Model.UpdateEngine.FilesystemIterator
import ChromiumOS.Model.UpdateEngine.GraphUtils
import ChromiumOS.Model.UpdateEngine.Gzip
import ChromiumOS.Model.UpdateEngine.LibcurlHttpFetcher
import ChromiumOS.Model.UpdateEngine.LinuxFilesystem
import ChromiumOS.Model.UpdateEngine.RecursiveUnlinkDir
import ChromiumOS.Model.UpdateEngine.SetBootableFlagAction
import ChromiumOS.Model.UpdateEngine.Subprocess
import ChromiumOS.Model.UpdateEngine.UpdateAttempter
import ChromiumOS.Model.UpdateEngine.Utils
import ChromiumOS.Model.Vboot.Digest
import ChromiumOS.Model.Vboot.DumpRSAPublicKey
import ChromiumOS.Model.Vboot.FirmwareImage
import ChromiumOS.Model.Vboot.FirmwareRead
import ChromiumOS.Model.Vboot.FirmwareSign
import ChromiumOS.Model.Vboot.Padding
import ChromiumOS.Model.Vboot.Rsa
import ChromiumOS.Model.Vboot.RsaUtility
import ChromiumOS.Model.Vboot.Sha
import ChromiumOS.Model.Vboot.ShaUnrolled
import ChromiumOS.Model.Vboot.Utility
import ChromiumOS.Model.Vboot.Words
import ChromiumOS.Model.WindowManager.Animation
import ChromiumOS.Model.WindowManager.ByteMap
import ChromiumOS.Model.WindowManager.KeyBindings
import ChromiumOS.Model.WindowManager.LayerVisitor
import ChromiumOS.Model.WindowManager.LayoutManager
import ChromiumOS.Model.WindowManager.LinkedStacker
import ChromiumOS.Model.WindowManager.MotionEventCoalescer
import ChromiumOS.Model.WindowManager.OpenGlDrawVisitor
import ChromiumOS.Model.WindowManager.Panel
import ChromiumOS.Model.WindowManager.PanelBar
import ChromiumOS.Model.WindowManager.PanelResize
import ChromiumOS.Model.WindowManager.RootWindow
import ChromiumOS.Model.WindowManager.SizeHints
import ChromiumOS.Model.WindowManager.Stacker
import ChromiumOS.Model.WindowManager.StackingManager
import ChromiumOS.Model.WindowManager.TidyInterface
import ChromiumOS.Model.WindowManager.TidyScene
import ChromiumOS.Model.WindowManager.ToplevelWindow
import ChromiumOS.Model.WindowManager.Wm
import ChromiumOS.Model.WindowManager.XProperties
import ChromiumOS.Proofs.Autox.KeyboardMap
import ChromiumOS.Proofs.Autox.StringCommand
import ChromiumOS.Proofs.MetricsDaemon.MetricsFile
import ChromiumOS.Proofs.MetricsDaemon.NetworkStates
import ChromiumOS.Proofs.Minijail.Capabilities
import ChromiumOS.Proofs.MonitorReconfig.BestMatching
import ChromiumOS.Proofs.PamOffline.MasterKeyScan
import ChromiumOS.Proofs.TpmLite.CopyBounds
import ChromiumOS.Proofs.TpmLite.NvDatagrams
import ChromiumOS.Proofs.UpdateEngine.ActionOwnership
import ChromiumOS.Proofs.UpdateEngine.ActionRuns
import ChromiumOS.Proofs.UpdateEngine.BootableSwitch
import ChromiumOS.Proofs.UpdateEngine.BzipStream
import ChromiumOS.Proofs.UpdateEngine.CopyFaithful
import ChromiumOS.Proofs.UpdateEngine.DownloadIntegrity
import ChromiumOS.Proofs.UpdateEngine.ExtentCoalescing
import ChromiumOS.Proofs.UpdateEngine.ExtentScatter
import ChromiumOS.Proofs.UpdateEngine.FilesystemCopy
import ChromiumOS.Proofs.UpdateEngine.FilesystemErrors
import ChromiumOS.Proofs.UpdateEngine.FilesystemOrder
import ChromiumOS.Proofs.UpdateEngine.FilesystemWalk
import ChromiumOS.Proofs.UpdateEngine.GzipTermination
import ChromiumOS.Proofs.UpdateEngine.PlanForwarding
import ChromiumOS.Proofs.UpdateEngine.RecursiveUnlink
import ChromiumOS.Proofs.UpdateEngine.ResumedDownload
import ChromiumOS.Proofs.UpdateEngine.SubprocessCallbacks
import ChromiumOS.Proofs.UpdateEngine.TextLookup
import ChromiumOS.Proofs.UpdateEngine.UpdateAttempts
import ChromiumOS.Proofs.Vboot.ChainOfTrust
import ChromiumOS.Proofs.Vboot.DigestStream
import ChromiumOS.Proofs.Vboot.FirmwareAgreement
import ChromiumOS.Proofs.Vboot.FirmwareRead
import ChromiumOS.Proofs.Vboot.FirmwareSigning
import ChromiumOS.Proofs.Vboot.KeyDump
import ChromiumOS.Proofs.Vboot.KeyParsing
import ChromiumOS.Proofs.Vboot.KeyRoundTrip
import ChromiumOS.Proofs.Vboot.MersenneKeys
import ChromiumOS.Proofs.Vboot.MontgomeryBounds
import ChromiumOS.Proofs.Vboot.MontgomeryWords
import ChromiumOS.Proofs.Vboot.RsaVerify
import ChromiumOS.Proofs.Vboot.ShaPadding
import ChromiumOS.Proofs.Vboot.ShaStream
import ChromiumOS.Proofs.Vboot.ShaVariants
import ChromiumOS.Proofs.WindowManager.ActiveLayout
import ChromiumOS.Proofs.WindowManager.ActorTree
import ChromiumOS.Proofs.WindowManager.AnimationRequests
import ChromiumOS.Proofs.WindowManager.ByteMapRectangles
import ChromiumOS.Proofs.WindowManager.ClientLists
import ChromiumOS.Proofs.WindowManager.ClientProperties
import ChromiumOS.Proofs.WindowManager.CollapsedStates
import ChromiumOS.Proofs.WindowManager.KeyGrabs
import ChromiumOS.Proofs.WindowManager.KeyIndexes
import ChromiumOS.Proofs.WindowManager.KeyTraces
import ChromiumOS.Proofs.WindowManager.LayerDepths
import ChromiumOS.Proofs.WindowManager.LayoutActivation
import ChromiumOS.Proofs.WindowManager.LayoutMapping
import ChromiumOS.Proofs.WindowManager.LayoutReferences
import ChromiumOS.Proofs.WindowManager.LayoutSteps
import ChromiumOS.Proofs.WindowManager.MaxSize
import ChromiumOS.Proofs.WindowManager.MissedRedraw
import ChromiumOS.Proofs.WindowManager.MotionCoalescing
import ChromiumOS.Proofs.WindowManager.PackedRuns
import ChromiumOS.Proofs.WindowManager.PanelFocus
import ChromiumOS.Proofs.WindowManager.PanelMoves
import ChromiumOS.Proofs.WindowManager.PanelPacking
import ChromiumOS.Proofs.WindowManager.PanelPlaces
import ChromiumOS.Proofs.WindowManager.PanelResizing
import ChromiumOS.Proofs.WindowManager.PixmapMonitoring
import ChromiumOS.Proofs.WindowManager.StackerRefinement
import ChromiumOS.Proofs.WindowManager.StackingLayers
import ChromiumOS.Proofs.WindowManager.StackingMirror
import ChromiumOS.Proofs.WindowManager.TransientStacking
import ChromiumOS.Proofs.WindowManager.TwoPasses
import ChromiumOS.Proofs.WindowManager.WindowStates
