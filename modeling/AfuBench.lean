import AfuBench.Bus.Recorded
import AfuBench.Bus.RegisterFile
import AfuBench.Main
import AfuBench.Text.Lines
import AfuBench.Proofs.HashInjective
import AfuBench.Proofs.LaneHash
import AfuBench.Proofs.DumpCodec
import AfuBench.Proofs.DumpCheck
import AfuBench.Proofs.RegisterAccess
import AfuBench.Proofs.EngineMemory
import AfuBench.Proofs.Performs
import AfuBench.Proofs.EngineEvents
import AfuBench.Proofs.Polling
import AfuBench.Proofs.RegisterFields
import AfuBench.Proofs.SweepPoints
import AfuBench.Proofs.RunEffect
import AfuBench.Proofs.SweepCounters
import AfuBench.Proofs.SweepRun
import AfuBench.Proofs.EngineSweep
import AfuBench.Proofs.SweepSequence
import AfuBench.Proofs.Discovery
import AfuBench.Proofs.ContinuousTraffic
import AfuBench.Proofs.BandwidthRun
import AfuBench.Proofs.HealthyDevice
import AfuBench.Proofs.FirstFault
import AfuBench.Proofs.LaneCollapse
import AfuBench.Proofs.EngineIsolation
import AfuBench.Proofs.RecordedRun
import AfuBench.Proofs.AccessErrors
import AfuBench.Proofs.AccessLog
import AfuBench.Proofs.WritePlan
import AfuBench.Proofs.SweepPlan
import AfuBench.Proofs.SweepProtocol
import AfuBench.Proofs.BandwidthPlan
import AfuBench.Proofs.SweepOrder
import AfuBench.Proofs.EngineWrites
import AfuBench.Proofs.TestOrder
import AfuBench.Proofs.DumpGeneration
import AfuBench.Proofs.EngineInvariant
import AfuBench.Proofs.CycleCount
import AfuBench.Proofs.BandwidthProtocol
import AfuBench.Proofs.CompletionWait
import AfuBench.Proofs.StreamingRun
import AfuBench.Proofs.GoldenLine
import AfuBench.Proofs.GoldenLayout
import AfuBench.Proofs.GoldenVerify
import AfuBench.Proofs.GeneratorPeriod
import AfuBench.Proofs.AtomicEntries
import AfuBench.Proofs.AtomicCheck
import AfuBench.Proofs.AtomicRun
import AfuBench.Proofs.RigHistory
import AfuBench.Proofs.HashLinear
import AfuBench.Proofs.HashPeriod
import AfuBench.Proofs.RepeatedError
import AfuBench.Proofs.SeedFolding
import AfuBench.Proofs.WrittenLines
import AfuBench.Proofs.ReadHash
import AfuBench.Proofs.NumberGrammar
import AfuBench.Proofs.FieldTokens
import AfuBench.Proofs.LineGrammar
import AfuBench.Proofs.GoldenText
import AfuBench.Proofs.DumpRoundTrip
import AfuBench.Proofs.PollVerdict
import AfuBench.Proofs.RunTally
import AfuBench.Proofs.LiveStatus
import AfuBench.Proofs.SizeCoverage
import AfuBench.Proofs.EntryLaws
import AfuBench.Proofs.HashCells
import AfuBench.Proofs.AddressDecoding
import AfuBench.Proofs.EngineRegisters
