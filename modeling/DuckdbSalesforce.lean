import DuckdbSalesforce.Library.ThreeValued
import DuckdbSalesforce.Library.CondGrammar
import DuckdbSalesforce.Library.Positional
import DuckdbSalesforce.Text
import DuckdbSalesforce.Describe
import DuckdbSalesforce.Soql.Residual
import DuckdbSalesforce.Soql.Exactness
import DuckdbSalesforce.Soql.Lexer
import DuckdbSalesforce.Soql.Printed
import DuckdbSalesforce.Scan.Transports
import DuckdbSalesforce.Plan.AggOptimizer
import DuckdbSalesforce.Plan.Bindings
import DuckdbSalesforce.Soql.AggregateQuery
import DuckdbSalesforce.Library.SqlAggregates
import DuckdbSalesforce.Plan.AggregateRows
import DuckdbSalesforce.Plan.Meaning
import DuckdbSalesforce.Plan.CountDistinct
import DuckdbSalesforce.Json.Reader
import DuckdbSalesforce.Json.Lookup
import DuckdbSalesforce.Json.Member
import DuckdbSalesforce.Json.Compact
import DuckdbSalesforce.Scan.AggregateScan
import DuckdbSalesforce.Plan.AggregateDecode
import DuckdbSalesforce.Plan.CountAggregate
import DuckdbSalesforce.Csv
import DuckdbSalesforce.Bulk.CreateBody
import DuckdbSalesforce.Library.PagedStream
import DuckdbSalesforce.Scan.RestScan
import DuckdbSalesforce.Bulk.ResultPages
import DuckdbSalesforce.Bulk.Resume
import DuckdbSalesforce.Bulk.ParallelScan
import DuckdbSalesforce.Scan.RelationshipStructs
import DuckdbSalesforce.Scan.PushdownCalls
import DuckdbSalesforce.Catalog.SchemaEntry
import DuckdbSalesforce.Library.Runs
import DuckdbSalesforce.Catalog.DescribeCache
import DuckdbSalesforce.Catalog.Listing
import DuckdbSalesforce.Scan.ChunkPartition
import DuckdbSalesforce.Json.StringDecode
import DuckdbSalesforce.Json.Arrays
import DuckdbSalesforce.Library.Wildcard
import DuckdbSalesforce.Soql.Like
import DuckdbSalesforce.Scan.WhereBound
import DuckdbSalesforce.Library.Calendar
import DuckdbSalesforce.Library.NumberScan
import DuckdbSalesforce.DeleteSync.Timestamps
import DuckdbSalesforce.Library.FirstSeen
import DuckdbSalesforce.DeleteSync.GetDeleted
import DuckdbSalesforce.DeleteSync.DeletedRecords
import DuckdbSalesforce.DeleteSync.Coverage
import DuckdbSalesforce.DeleteSync.QueryAll
import DuckdbSalesforce.Library.Numeral
import DuckdbSalesforce.Soql.Constants
import DuckdbSalesforce.Soql.Literals
import DuckdbSalesforce.Scan.TransportGuard
import DuckdbSalesforce.Bulk.JobPoll
import DuckdbSalesforce.Catalog.ObjectDescribe
import DuckdbSalesforce.Catalog.FlatSchema
import DuckdbSalesforce.Library.FreshName
import DuckdbSalesforce.Report.BooleanFilter
import DuckdbSalesforce.Report.ColumnNames
import DuckdbSalesforce.Catalog.MetadataEngine
import DuckdbSalesforce.Library.PathWalk
import DuckdbSalesforce.Catalog.RelationshipGraph
import DuckdbSalesforce.Catalog.ParentExpansion
import DuckdbSalesforce.Library.PageChain
import DuckdbSalesforce.Json.BraceCount
import DuckdbSalesforce.Catalog.ToolingRecords
import DuckdbSalesforce.Catalog.ToolingDescribe
import DuckdbSalesforce.Library.Precedence
import DuckdbSalesforce.Report.TypeMetadata
import DuckdbSalesforce.Report.ReportMetadata
import DuckdbSalesforce.Report.CandidateSoql
import DuckdbSalesforce.Report.CandidateSpec
import DuckdbSalesforce.Report.CandidateSound
import DuckdbSalesforce.Report.ReportDocument
import DuckdbSalesforce.Report.Acceptable
import DuckdbSalesforce.Session.AuthorizedSend
import DuckdbSalesforce.Quota.BulkStart
import DuckdbSalesforce.Quota.ReserveRange
import DuckdbSalesforce.Library.Base64Text
import DuckdbSalesforce.Value.Base64
import DuckdbSalesforce.Value.Temporal
import DuckdbSalesforce.Soql.OperandOrder
import DuckdbSalesforce.Session.LiveClient
import DuckdbSalesforce.Bulk.JobCreate
import DuckdbSalesforce.Scan.ScanRows
import DuckdbSalesforce.Scan.ScanRequest
import DuckdbSalesforce.Scan.BindEquality
import DuckdbSalesforce.Soql.SelectGrammar
import DuckdbSalesforce.Scan.ExplicitAggregate
import DuckdbSalesforce.Scan.AggregateTerms
import DuckdbSalesforce.Scan.SentAsParsed
import DuckdbSalesforce.Scan.ChunkBoundaries
import DuckdbSalesforce.Library.Base64Url
import DuckdbSalesforce.Session.JwtAssertion
import DuckdbSalesforce.Json.ArraySplit
import DuckdbSalesforce.Session.SfdxAuthUrl
import DuckdbSalesforce.Library.Masking
import DuckdbSalesforce.Session.Mask
import DuckdbSalesforce.Library.PercentText
import DuckdbSalesforce.Session.TokenForm
import DuckdbSalesforce.Session.QueryPath
import DuckdbSalesforce.Library.TwoRuns
import DuckdbSalesforce.Session.AttachConfig
import DuckdbSalesforce.Session.AttachSecrets
import DuckdbSalesforce.Session.AttachValid
import DuckdbSalesforce.Session.AttachOrder
import DuckdbSalesforce.Library.Interaction
import DuckdbSalesforce.Session.SessionCalls
import DuckdbSalesforce.Session.SessionSecrets
import DuckdbSalesforce.Session.SessionTrace
import DuckdbSalesforce.Session.WireRounds
import DuckdbSalesforce.Scan.PushedScan
import DuckdbSalesforce.Scan.PushedRuns
import DuckdbSalesforce.Library.Memo
import DuckdbSalesforce.Catalog.EngineRuns
import DuckdbSalesforce.Scan.QueryExplain
import DuckdbSalesforce.Library.TableChunks
import DuckdbSalesforce.Json.MemberArrays
import DuckdbSalesforce.Catalog.DescribeDocument
import DuckdbSalesforce.Catalog.MetadataTables
import DuckdbSalesforce.Session.StandaloneQuery
import DuckdbSalesforce.Catalog.RelationshipDecisions
import DuckdbSalesforce.Bulk.ScanCost
import DuckdbSalesforce.Session.FaultyWire
