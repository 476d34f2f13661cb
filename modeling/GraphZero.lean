import GraphZero.Measure.ReceiptFault
import GraphZero.Measure.LedgerCapacity
import GraphZero.Measure.Artifacts
import GraphZero.Measure.UsableReports
import GraphZero.Measure.ReportAgreement
import GraphZero.Replay.SamplingWindow
import GraphZero.Measure.Overlap
import GraphZero.Search.HeldHandles
import GraphZero.Search.NoBacktracking
import GraphZero.Orchestrator.BatcherSystem
import GraphZero.Features.PythonAgreement
import GraphZero.Replay.StoredRows
import GraphZero.Measure.SampleSchedule
import GraphZero.Measure.Transfers
import GraphZero.Measure.SchedulingOrder
import GraphZero.Checkpoints.CrashSafety
import GraphZero.Engine.CandidateRuns
import GraphZero.Replay.ContractBinding
import GraphZero.Connection.Protocol
import GraphZero.Orchestrator.AdmissionOrder
import GraphZero.Whittle.Applicable
import GraphZero.Search.BeamProgress
import GraphZero.Search.MctsEpisodeSystem
import GraphZero.Whittle.Serialization
import GraphZero.Whittle.TruthTableSeed
import GraphZero.Features.BatchBounds
import GraphZero.Evaluator.OutputDecoding
import GraphZero.Measurer.SymmetricTargets
import GraphZero.Search.MctsBudget
import GraphZero.Trainer.ReuseGate
import GraphZero.Engine.CandidateGrouping
import GraphZero.Measure.PreparedStates
import GraphZero.Orchestrator.EvalPressure
