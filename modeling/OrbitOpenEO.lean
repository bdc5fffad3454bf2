import OrbitOpenEO.Json
import OrbitOpenEO.Lib.Except
import OrbitOpenEO.Lib.TopologicalOrder
import OrbitOpenEO.Lib.Program
import OrbitOpenEO.ReferenceWalk
import OrbitOpenEO.ProcessGraphAnalysis
import OrbitOpenEO.Executor
import OrbitOpenEO.ReferenceResolution
import OrbitOpenEO.Denotation
import OrbitOpenEO.JobStore
import OrbitOpenEO.FileStore
import OrbitOpenEO.Runner
import OrbitOpenEO.RunReport
import OrbitOpenEO.Lib.Run
import OrbitOpenEO.JobService
import OrbitOpenEO.JobService.Steps
import OrbitOpenEO.JobService.SingleRun
import OrbitOpenEO.JobService.Registry
import OrbitOpenEO.JobService.Records
import OrbitOpenEO.JobService.Cancellation
import OrbitOpenEO.JobService.Assets
import OrbitOpenEO.MapUpdate
import OrbitOpenEO.ProcessIds
import OrbitOpenEO.DataCube
import OrbitOpenEO.CubeOps
import OrbitOpenEO.Lib.Effect
import OrbitOpenEO.Workspace
import OrbitOpenEO.Callbacks
import OrbitOpenEO.Reducer
import OrbitOpenEO.RasterOps
import OrbitOpenEO.MaskOps
import OrbitOpenEO.ReduceOps
import OrbitOpenEO.CubeCalls
import OrbitOpenEO.SceneAlignment
import OrbitOpenEO.SceneFrame
import OrbitOpenEO.BandLabels
import OrbitOpenEO.BandScales
import OrbitOpenEO.PhysicalUnits
import OrbitOpenEO.Lib.NumberedNames
import OrbitOpenEO.SceneFiles
import OrbitOpenEO.MaskedPixels
import OrbitOpenEO.FileCache
import OrbitOpenEO.LoadCollection
import OrbitOpenEO.LoadedCubes
import OrbitOpenEO.WorkLog
import OrbitOpenEO.ResampledScl
import OrbitOpenEO.SpawnedTasks
import OrbitOpenEO.WorkFiles
import OrbitOpenEO.SqliteJobStore
import OrbitOpenEO.JobStoreAgreement
import OrbitOpenEO.Lib.Tiling
import OrbitOpenEO.RasterDataset
import OrbitOpenEO.GridAlignment
import OrbitOpenEO.CanonicalGraphs
import OrbitOpenEO.PointSampling
import OrbitOpenEO.UnionExtents
import OrbitOpenEO.CatalogSearch
import OrbitOpenEO.DatasetBuilder
import OrbitOpenEO.BuiltDatasets
import OrbitOpenEO.BlockProcessing
import OrbitOpenEO.BlockedRuns
import OrbitOpenEO.Composition
import OrbitOpenEO.ComposedDatasets
import OrbitOpenEO.PairedPixels
import OrbitOpenEO.UrlPolicy
import OrbitOpenEO.Lib.Numerals
import OrbitOpenEO.Lib.UrlHost
import OrbitOpenEO.Lib.Base64
import OrbitOpenEO.Lib.Utf8
import OrbitOpenEO.Lib.FlattenedRecord
import OrbitOpenEO.AddressTexts
import OrbitOpenEO.PolicyHosts
import OrbitOpenEO.PlainUrls
import OrbitOpenEO.Lib.Notes
import OrbitOpenEO.AssetContacts
import OrbitOpenEO.Lib.Painting
import OrbitOpenEO.Downloads
import OrbitOpenEO.CroppedWindows
import OrbitOpenEO.MetadataHints
import OrbitOpenEO.SpatialOps
import OrbitOpenEO.ConfinedFiles
import OrbitOpenEO.PathConfinement
import OrbitOpenEO.CircuitBreaker
import OrbitOpenEO.BreakerProbes
import OrbitOpenEO.PathSafety
import OrbitOpenEO.ObjectFileStore
import OrbitOpenEO.FileStoreAgreement
import OrbitOpenEO.FileRoutes
import OrbitOpenEO.FileIsolation
import OrbitOpenEO.CubeEnvelope
import OrbitOpenEO.JobStoreImpl
import OrbitOpenEO.JobDeletion
import OrbitOpenEO.JobService.Permits
import OrbitOpenEO.CacheTasks
import OrbitOpenEO.ReducerPaths
import OrbitOpenEO.CallbackMeaning
import OrbitOpenEO.AuthPolicy
import OrbitOpenEO.BasicRoundTrip
import OrbitOpenEO.Credentials
import OrbitOpenEO.DeviceFlow
import OrbitOpenEO.RouteSecurity
import OrbitOpenEO.Enforcement
import OrbitOpenEO.IssuedTokens
import OrbitOpenEO.Lib.Interleaving
import OrbitOpenEO.Etl.Engine
import OrbitOpenEO.Etl.Start
import OrbitOpenEO.Etl.World
import OrbitOpenEO.Etl.Protocol
import OrbitOpenEO.Etl.Cancellation
import OrbitOpenEO.Lib.Admission
import OrbitOpenEO.Etl.Tables
import OrbitOpenEO.Etl.Dedupe
import OrbitOpenEO.Etl.Idempotence
import OrbitOpenEO.Etl.Completeness
import OrbitOpenEO.Lib.Provenance
import OrbitOpenEO.HandlePaths
import OrbitOpenEO.ReadProvenance
import OrbitOpenEO.BandHarvest
import OrbitOpenEO.CloudCover
import OrbitOpenEO.VrtWindows
import OrbitOpenEO.Lib.Timestamps
import OrbitOpenEO.SceneTimes
import OrbitOpenEO.KernelProcesses
import OrbitOpenEO.ApplyMemo
import OrbitOpenEO.ReduceMemo
import OrbitOpenEO.DefaultSubGraph
import OrbitOpenEO.PlainRecursion
import OrbitOpenEO.ScalarHandlers
import OrbitOpenEO.ClampPanics
import OrbitOpenEO.Lib.StableSort
import OrbitOpenEO.ArrayOrder
import OrbitOpenEO.ChunkPlan
import OrbitOpenEO.Lib.Schedules
import OrbitOpenEO.KernelExecutor
import OrbitOpenEO.SourceUrls
import OrbitOpenEO.Lib.Boxes
import OrbitOpenEO.GeoJsonEnvelope
import OrbitOpenEO.ScanlineRasterizer
import OrbitOpenEO.PolygonStatistics
import OrbitOpenEO.BandReduction
import OrbitOpenEO.MergedCubes
import OrbitOpenEO.Lib.Crossings
import OrbitOpenEO.Lib.DelimitedCodes
import OrbitOpenEO.Lib.Writes
import OrbitOpenEO.SceneWrites
import OrbitOpenEO.MaskWrites
import OrbitOpenEO.MaskingRoutes
import OrbitOpenEO.RetryLoops
import OrbitOpenEO.MemoryBudget
import OrbitOpenEO.BlockExecutor
import OrbitOpenEO.Lib.SameQuestions
import OrbitOpenEO.TrialRun
import OrbitOpenEO.Lib.EditDistance
import OrbitOpenEO.Suggestions
import OrbitOpenEO.Lib.ShiftRegister
import OrbitOpenEO.PngCrc32
import OrbitOpenEO.Lib.CivilDates
import OrbitOpenEO.CivilTimestamps
import OrbitOpenEO.ApiDiff
import OrbitOpenEO.Lib.ExpositionFormat
import OrbitOpenEO.Lib.KeyedFolds
import OrbitOpenEO.Metrics
import OrbitOpenEO.MetricSeries
import OrbitOpenEO.PrometheusExport
import OrbitOpenEO.Lib.SqlText
import OrbitOpenEO.Lib.Requests
import OrbitOpenEO.Etl.StatementTexts
import OrbitOpenEO.Etl.Durability
import OrbitOpenEO.Lib.StagedWrites
import OrbitOpenEO.StagedFiles
import OrbitOpenEO.DownloadCache
import OrbitOpenEO.Lib.BurstErrors
import OrbitOpenEO.Lib.PngFormat
import OrbitOpenEO.PngFile
import OrbitOpenEO.JobAdmission
import OrbitOpenEO.Lib.Relays
import OrbitOpenEO.Etl.RemoteRuns
import OrbitOpenEO.WorkingSets
import OrbitOpenEO.Lib.UrlQuery
import OrbitOpenEO.SignedUrls
import OrbitOpenEO.JobService.StoreCalls
import OrbitOpenEO.JobService.Restarts
import OrbitOpenEO.JobService.Deliveries
import OrbitOpenEO.JobService.Backends
import OrbitOpenEO.JobService.StoredService
import OrbitOpenEO.JobService.Results
import OrbitOpenEO.Lib.RelatedRuns
import OrbitOpenEO.CubeNumbers
import OrbitOpenEO.EvaluatorReads
