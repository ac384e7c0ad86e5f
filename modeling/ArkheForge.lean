import ArkheForge.Core.Actions
import ArkheForge.Core.ActivityChains
import ArkheForge.Core.Atomic
import ArkheForge.Core.Blake3
import ArkheForge.Core.Bridge
import ArkheForge.Core.Commit
import ArkheForge.Core.Context
import ArkheForge.Core.EntityIds
import ArkheForge.Core.Lifecycle
import ArkheForge.Core.NestedSpaces
import ArkheForge.Core.Pipeline
import ArkheForge.Core.Plan
import ArkheForge.Core.PostcardWire
import ArkheForge.Core.Primitives
import ArkheForge.Kernel.Instance
import ArkheForge.Lib.BigEndian
import ArkheForge.Lib.Codec
import ArkheForge.Lib.Distinct
import ArkheForge.Lib.Fallible
import ArkheForge.Lib.Framing
import ArkheForge.Lib.Pointwise
import ArkheForge.Lib.StepPath
import ArkheForge.Lib.Watermark
import ArkheForge.Platform.Dispatcher
import ArkheForge.Platform.GdprGate
import ArkheForge.Platform.GdprStatus
import ArkheForge.Platform.MemoryKernel
import ArkheForge.Platform.Projection.Delivery
import ArkheForge.Platform.Projection.FanOut
import ArkheForge.Platform.Projection.Invariant
import ArkheForge.Platform.Projection.Notices
import ArkheForge.Platform.Projection.Places
import ArkheForge.Platform.Projection.Rebuild
import ArkheForge.Platform.Projection.Recorded
import ArkheForge.Platform.Projection.Router
import ArkheForge.Platform.Projection.Stream
import ArkheForge.Platform.WalExport.BufferedSink
import ArkheForge.Platform.WalExport.Export
import ArkheForge.Platform.WalExport.FailingWriter
import ArkheForge.Platform.WalExport.Reader
import ArkheForge.Platform.WalExport.RoundTrip
import ArkheForge.Platform.WalExport.Wire
import ArkheForge.Platform.Verifier
import ArkheForge.Lib.HashChain
import ArkheForge.Platform.Hf2Kms.Journal
import ArkheForge.Lib.Shamir
import ArkheForge.Platform.Hf2Kms.Gf256
import ArkheForge.Platform.Hf2Kms.Threshold
import ArkheForge.Platform.Hf2Kms.Secrecy
import ArkheForge.Core.Pii
import ArkheForge.Platform.Erasure.Backends
import ArkheForge.Platform.Erasure.Cascade
import ArkheForge.Platform.Erasure.Order
import ArkheForge.Platform.Erasure.Receipts
import ArkheForge.Platform.Crypto.Coordinator
import ArkheForge.Platform.Crypto.Binding
import ArkheForge.Platform.Crypto.Laundering
import ArkheForge.Platform.Hf2Kms.MockKms
import ArkheForge.Platform.Crypto.SealLog
import ArkheForge.Platform.Crypto.Nonces
import ArkheForge.Platform.WalExport.AppendOnly
import ArkheForge.Platform.WalExport.Capacity
import ArkheForge.Rand.Source
import ArkheForge.Platform.Crypto.AllOrNothing
import ArkheForge.Platform.Hf2Kms.Destroyed
import ArkheForge.Platform.Hf2Kms.Replay
import ArkheForge.Platform.Projection.Transition
import ArkheForge.Core.SpaceTree
import ArkheForge.Core.StagedRead
import ArkheForge.Lint.DenyList
import ArkheForge.Lint.TokenScan
import ArkheForge.Lint.Fallback
import ArkheForge.Lib.Rejection
import ArkheForge.Rand.Range
import ArkheForge.Rand.Uniform
import ArkheForge.Lib.FisherYates
import ArkheForge.Rand.Shuffle
import ArkheForge.Platform.Erasure.ShredLog
import ArkheForge.Platform.Erasure.Stream
import ArkheForge.Platform.Hf2Kms.AwsKms
import ArkheForge.Platform.Bootstrap
import ArkheForge.Lint.Fingerprint
import ArkheForge.Lint.UseImport
import ArkheForge.Lib.Fields
import ArkheForge.Platform.ManifestLoader
import ArkheForge.Cards.Card
import ArkheForge.Cards.Deck
import ArkheForge.Cards.HandEval
import ArkheForge.Cards.Showdown
import ArkheForge.Dice.History
import ArkheForge.Dice.Launch
import ArkheForge.Lib.Machine
import ArkheForge.Formal.RuntimeCore
import ArkheForge.Formal.Spaces
import ArkheForge.Platform.Hf2Kms.Tampering
import ArkheForge.Platform.Hf2Kms.Health
import ArkheForge.Platform.Hf2Kms.Envelope
import ArkheForge.Core.PiiRegistry
import ArkheForge.Platform.Crypto.Advice
import ArkheForge.Platform.Dedup
