import Sbagent.AnalysisSlate
import Sbagent.Archive
import Sbagent.ArchiveRace
import Sbagent.ArchiveTree
import Sbagent.ArtifactNames
import Sbagent.AuthPrefix
import Sbagent.Autonomy
import Sbagent.CacheId
import Sbagent.Delimited
import Sbagent.FamilyKeys
import Sbagent.Finalize
import Sbagent.FlagSymmetry
import Sbagent.FloatText
import Sbagent.HistoryTables
import Sbagent.IsoWeek
import Sbagent.IsoWeekReport
import Sbagent.IssueTags
import Sbagent.KeepOrDemote
import Sbagent.Layout
import Sbagent.LedgerFiles
import Sbagent.LedgerViews
import Sbagent.MaintainPush
import Sbagent.MarkdownTable
import Sbagent.MergeRules
import Sbagent.OptimizerMemory
import Sbagent.PhaseOutputs
import Sbagent.PhaseTiming
import Sbagent.PruneRace
import Sbagent.PublishGate
import Sbagent.RecordFormat
import Sbagent.RejectionProbe
import Sbagent.Rejections
import Sbagent.Resume
import Sbagent.SchemaParity
import Sbagent.SessionContext
import Sbagent.SessionTail
import Sbagent.SessionValidate
import Sbagent.Softening
import Sbagent.SourceStart
import Sbagent.StatusText
import Sbagent.SummaryTables
import Sbagent.TimestampReaders
import Sbagent.TrimLaw
import Sbagent.Utf8
import Sbagent.Baseline
import Sbagent.BaselineTogether
import Sbagent.Bundles
import Sbagent.SourceCaches
import Sbagent.SessionIds
import Sbagent.CandidateSchema
import Sbagent.Lasting
import Sbagent.GitEnv
import Sbagent.Unattended
import Sbagent.Sandbox
import Sbagent.PromptLint
import Sbagent.Findings
import Sbagent.BenchLock
