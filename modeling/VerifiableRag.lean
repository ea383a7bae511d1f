import VerifiableRag.Library.Acyclic
import VerifiableRag.Library.BreadthFirst
import VerifiableRag.Library.KahnRank
import VerifiableRag.Graph.KnowledgeGraph
import VerifiableRag.Graph.Representation
import VerifiableRag.Graph.Histories
import VerifiableRag.Graph.PathSearch
import VerifiableRag.Graph.Serialization
import VerifiableRag.Graph.Ordering
import VerifiableRag.Library.Bytes
import VerifiableRag.Library.Results
import VerifiableRag.Library.Transaction
import VerifiableRag.ZkTls.Proof
import VerifiableRag.Library.Ownable
import VerifiableRag.ZkTls.Relayer
import VerifiableRag.ZkTls.Wire
import VerifiableRag.ZkTls.RelayerRuns
import VerifiableRag.Library.Float64
import VerifiableRag.Ftso.Submitter
import VerifiableRag.Library.Abi
import VerifiableRag.Ftso.CommitReveal
import VerifiableRag.Contracts.TokenClaims
import VerifiableRag.Contracts.Contract
import VerifiableRag.Contracts.Settling
import VerifiableRag.Contracts.SettlementRuns
import VerifiableRag.Kms.Gate
import VerifiableRag.Jwt.Segments
import VerifiableRag.Library.Json
import VerifiableRag.Library.JsonProgress
import VerifiableRag.Library.CompactJson
import VerifiableRag.Jwt.Scanning
import VerifiableRag.Jwt.OnChain
import VerifiableRag.Jwt.JwtParser
import VerifiableRag.Jwt.Attestation
import VerifiableRag.Jwt.Readings
import VerifiableRag.Kms.Eip1559
import VerifiableRag.Attestation.EatBuilder
import VerifiableRag.Attestation.TokenRequest
import VerifiableRag.Library.RustStr
import VerifiableRag.Library.SerdeJson
import VerifiableRag.Ftso.Calculator
import VerifiableRag.Ftso.Tickers
import VerifiableRag.Ftso.Volumes
import VerifiableRag.Ftso.Node
import VerifiableRag.Contracts.Ledger
import VerifiableRag.Contracts.Domains
import VerifiableRag.ZkTls.ProofGenerator
import VerifiableRag.ZkTls.Freshness
import VerifiableRag.Kms.GroupOrder
import VerifiableRag.Library.Ecdsa
import VerifiableRag.Kms.TwoParty
import VerifiableRag.Jwt.Engine
import VerifiableRag.Jwt.EngineRuns
import VerifiableRag.Library.Rounding
import VerifiableRag.Jwt.StateCache
import VerifiableRag.Jwt.CacheRuns
import VerifiableRag.Jwt.RefreshLoop
import VerifiableRag.Crypto.AesGcm
import VerifiableRag.Crypto.KeyLoading
import VerifiableRag.Gateway.AttestationProof
import VerifiableRag.Crypto.PayloadCipher
import VerifiableRag.Processor.InboundPaths
import VerifiableRag.Document.Tokens
import VerifiableRag.Document.Ast
import VerifiableRag.Document.TokenGraph
import VerifiableRag.Processor.Query
import VerifiableRag.Gateway.Query
import VerifiableRag.Flare.Nonces
import VerifiableRag.Trie.Contents
import VerifiableRag.Trie.JsonBoundary
import VerifiableRag.Document.Lexing
import VerifiableRag.Document.Structure
import VerifiableRag.Document.Fingerprint
import VerifiableRag.Document.Provenance
import VerifiableRag.Attestation.Verifier
import VerifiableRag.Jwt.WipAudience
import VerifiableRag.Jwt.TimeClaims
import VerifiableRag.Jwt.TypedErrors
import VerifiableRag.Flare.Failover
import VerifiableRag.Library.Suffixes
import VerifiableRag.Processor.ContextWindow
import VerifiableRag.Processor.WindowRuns
import VerifiableRag.Middleware.RateLimit
import VerifiableRag.Ftso.OrderIndependence
import VerifiableRag.ZkTls.LowS
import VerifiableRag.Ftso.Reconnection
import VerifiableRag.Jwt.Base64Buffers
import VerifiableRag.ZkTls.ChainSink
import VerifiableRag.Crypto.WireEncoding
import VerifiableRag.Flare.FdcEncoder
import VerifiableRag.Library.Hexadecimal
import VerifiableRag.Frontend.CopilotEngine
import VerifiableRag.Library.PyRegex
import VerifiableRag.Jwt.Recognisers
import VerifiableRag.Jwt.BindingHash
import VerifiableRag.Processor.PublicWords
import VerifiableRag.Document.MatchUnion
import VerifiableRag.Library.FilterUnion
import VerifiableRag.Document.EdgeList
import VerifiableRag.Processor.Evidence
import VerifiableRag.Graph.Closures
import VerifiableRag.Trie.Canonical
import VerifiableRag.Trie.IterativeClone
import VerifiableRag.Ftso.RevealCalldata
import VerifiableRag.Library.CborStream
import VerifiableRag.Attestation.TokenForm
import VerifiableRag.Config.KeyFormats
import VerifiableRag.Jwt.AudienceSpelling
import VerifiableRag.Flare.AbiArgs
import VerifiableRag.Flare.Liveness
import VerifiableRag.Flare.FdcDecoding
import VerifiableRag.Library.TextBytes
import VerifiableRag.Frontend.FdcSelector
import VerifiableRag.Frontend.AnswerQuery
import VerifiableRag.Crypto.EncryptPayload
import VerifiableRag.Gateway.PayloadFailures
import VerifiableRag.Kms.JsonField
import VerifiableRag.Contracts.Valuation
import VerifiableRag.Library.EventLog
import VerifiableRag.Contracts.Effects
import VerifiableRag.Contracts.Indexer
import VerifiableRag.ZkTls.Acceptance
import VerifiableRag.ZkTls.RelayerLog
import VerifiableRag.Crypto.ResponseCipher
import VerifiableRag.Library.Base64Strict
import VerifiableRag.Gateway.EnvelopeText
import VerifiableRag.Library.JsonWriting
import VerifiableRag.Gateway.QueryExchange
import VerifiableRag.Library.AbiStruct
import VerifiableRag.Flare.Submission
import VerifiableRag.Kms.WalletRuns
import VerifiableRag.Library.UniqueReading
import VerifiableRag.Processor.EvidenceText
import VerifiableRag.Kms.NodeView
import VerifiableRag.Ftso.PriceTransactions
import VerifiableRag.Kms.ShardRelease
import VerifiableRag.Gateway.Ingress
import VerifiableRag.Gateway.QueryErrors
