import AegisShield.Lib.Text
import AegisShield.Lib.Base64
import AegisShield.Lib.Json
import AegisShield.Lib.JsonRoundTrip
import AegisShield.Lib.JsonWf
import AegisShield.Lib.Digest
import AegisShield.Lib.Ledger
import AegisShield.Lib.Run
import AegisShield.Lib.BlockImage
import AegisShield.Lib.Fallible
import AegisShield.Lib.Words
import AegisShield.Lib.Slots
import AegisShield.Lib.Tally
import AegisShield.Lib.BigEndian
import AegisShield.Lib.Stream
import AegisShield.Lib.Buffer
import AegisShield.Lib.OneApart
import AegisShield.Runtime
import AegisShield.SealedLine
import AegisShield.Journal.Basic
import AegisShield.Journal.Canonical
import AegisShield.Journal.Reading
import AegisShield.Journal.CleanRun
import AegisShield.Journal.Refinement
import AegisShield.Journal.PowerCut
import AegisShield.Journal.FailedAppend
import AegisShield.Journal.Compaction
import AegisShield.Journal.Replay
import AegisShield.Journal.TornTail
import AegisShield.Audit.Basic
import AegisShield.Audit.Chain
import AegisShield.Audit.Events
import AegisShield.Audit.Rotation
import AegisShield.Audit.Listing
import AegisShield.Audit.Writers
import AegisShield.Tokens
import AegisShield.Signing
import AegisShield.Engine.Basic
import AegisShield.Engine.Persistence
import AegisShield.Engine.Parts
import AegisShield.Engine.Effects
import AegisShield.Engine.Ledgers
import AegisShield.Engine.Invariant
import AegisShield.Engine.Runs
import AegisShield.Engine.Restart
import AegisShield.Engine.Containment
import AegisShield.Engine.Crash
import AegisShield.Engine.TornAudit
import AegisShield.Engine.SingleUse
import AegisShield.Engine.TailRecovery
import AegisShield.Engine.JournalCalls
import AegisShield.Engine.Export
import AegisShield.Detection.Features
import AegisShield.Detection.Policy
import AegisShield.Engine.Maintenance
import AegisShield.Detection.Census
import AegisShield.Detection.RecentReads
import AegisShield.Lib.WeightedMean
import AegisShield.Detection.Scores
import AegisShield.Engine.Refusals
import AegisShield.Engine.Anchors
import AegisShield.Engine.Nonces
import AegisShield.Storage.Basic
import AegisShield.Storage.Cow
import AegisShield.Storage.Wal
import AegisShield.Storage.Stores
import AegisShield.Storage.WellFormed
import AegisShield.Storage.Ideal
import AegisShield.Storage.CowIdeal
import AegisShield.Storage.WalIdeal
import AegisShield.Storage.Runs
import AegisShield.Storage.Recovery
import AegisShield.Storage.Equivalence
import AegisShield.Storage.Room
import AegisShield.Storage.Checksum
import AegisShield.Storage.Held
import AegisShield.Storage.Snapshots
import AegisShield.Storage.Failures
import AegisShield.Storage.Contents
import AegisShield.Storage.Handles
import AegisShield.Nbd.Basic
import AegisShield.Nbd.Framing
import AegisShield.Nbd.Requests
import AegisShield.Nbd.Session
import AegisShield.Nbd.Volume
import AegisShield.Nbd.Client
import AegisShield.Membrane.Contract
import AegisShield.Membrane.Preimage
import AegisShield.Membrane.Admission
import AegisShield.Guardian
import AegisShield.Api.Challenges
import AegisShield.Journal.PointInTime
import AegisShield.Journal.Opening
import AegisShield.AnyFile.HeadHash
import AegisShield.Lib.Strip
import AegisShield.Daemon.Socket
import AegisShield.Api.Manifest
import AegisShield.Daemon.Basic
import AegisShield.Daemon.Remote
import AegisShield.Cli
import AegisShield.Daemon.Workflow
import AegisShield.Daemon.Presence
import AegisShield.Detection.Benchmark
import AegisShield.Detection.Separation
import AegisShield.Audit.Paging
import AegisShield.Lib.Entropy
import AegisShield.Detection.Entropy
import AegisShield.Detection.Coded
import AegisShield.Cli.Trace
import AegisShield.Cli.Replay
import AegisShield.Dma
import AegisShield.Journal.Provisioning
