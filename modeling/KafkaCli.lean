import KafkaCli.Lib.Lockstep
import KafkaCli.Replica.IterationOrder
import KafkaCli.Replica.Overflow
import KafkaCli.Acl.RoundTrip
import KafkaCli.Storage.Accepted
import KafkaCli.Storage.MetaRoundTrip
import KafkaCli.Storage.Controller
import KafkaCli.Groups.HalfApplied
import KafkaCli.Streams.Deletion
import KafkaCli.Streams.DryRun
import KafkaCli.Streams.DescribeRoundTrip
import KafkaCli.Quorum.RoundTrip
import KafkaCli.Config.Tls
import KafkaCli.Config.DefaultEntities
import KafkaCli.Console.RoundTrip
import KafkaCli.DumpLog.Framing
import KafkaCli.Share.AckCycle
import KafkaCli.Groups.ExportedPlan
import KafkaCli.Reassign.Generate
import KafkaCli.Reassign.ChecksFirst
import KafkaCli.Groups.TopicSelection
import KafkaCli.Groups.Duration
import KafkaCli.Groups.ResetStrategies
import KafkaCli.Reassign.MoveMap
import KafkaCli.Reassign.Balance
import KafkaCli.Reassign.Throttles
import KafkaCli.Console.Formatter
import KafkaCli.Config.LegacyMeaning
import KafkaCli.Protocol.RawRequests
import KafkaCli.Console.LineReader
import KafkaCli.Config.Scram
import KafkaCli.Offsets.TopicPartitions
import KafkaCli.Reassign.LogDirs
import KafkaCli.Quorum.Endpoints
import KafkaCli.Share.DatePattern
import KafkaCli.DumpLog.Sequences
import KafkaCli.Perf.Random
import KafkaCli.Protocol.SelfDelimiting
import KafkaCli.Protocol.HostileInput
import KafkaCli.Replica.NoFalseAlarm
import KafkaCli.Replica.Agreement
import KafkaCli.Perf.ProducerRun
import KafkaCli.Perf.ShareWorkers
import KafkaCli.Verifiable.Producer
import KafkaCli.Verifiable.Consumer
import KafkaCli.Acl.Store
import KafkaCli.Transactions.Hanging
import KafkaCli.Features.Releases
import KafkaCli.Config.Preview
import KafkaCli.Share.ConsoleRuns
import KafkaCli.Storage.Retries
import KafkaCli.Topics.Describe
import KafkaCli.Topics.Changes
import KafkaCli.DumpLog.Separate
import KafkaCli.DumpLog.Refinement
import KafkaCli.Groups.DeleteOffsets
