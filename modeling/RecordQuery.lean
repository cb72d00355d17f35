import RecordQuery.Access
import RecordQuery.Cache
import RecordQuery.Cache.Compile
import RecordQuery.Clause
import RecordQuery.Coercion
import RecordQuery.Collect
import RecordQuery.Condition
import RecordQuery.Config
import RecordQuery.Config.Json
import RecordQuery.Database
import RecordQuery.Dialect
import RecordQuery.Error
import RecordQuery.Event
import RecordQuery.FormData
import RecordQuery.Json
import RecordQuery.Json.Parser
import RecordQuery.Json.Reader
import RecordQuery.Like
import RecordQuery.ListParams
import RecordQuery.ListQuery
import RecordQuery.NameSet
import RecordQuery.Numeral.BinaryFloat
import RecordQuery.Numeral.Decimal
import RecordQuery.Numeral.Integer
import RecordQuery.Numeral.Scaled
import RecordQuery.Numeral.Shortest
import RecordQuery.Operator
import RecordQuery.Order
import RecordQuery.PageResult
import RecordQuery.Pagination
import RecordQuery.Path
import RecordQuery.Plan
import RecordQuery.Proofs.Backends
import RecordQuery.Proofs.ClauseText
import RecordQuery.Proofs.DeclaredType
import RecordQuery.Proofs.Faults
import RecordQuery.Proofs.LikePattern
import RecordQuery.Proofs.Meaning
import RecordQuery.Proofs.Noninterference
import RecordQuery.Proofs.Placeholders
import RecordQuery.Proofs.Planning
import RecordQuery.Proofs.Precedence
import RecordQuery.Proofs.Reading
import RecordQuery.Proofs.SameRows
import RecordQuery.Proofs.StoragePath
import RecordQuery.Proofs.Tree
import RecordQuery.Proofs.Typing
import RecordQuery.Proofs.Whitelist
import RecordQuery.Response
import RecordQuery.Select
import RecordQuery.Select.Literal
import RecordQuery.Shape
import RecordQuery.Spec
import RecordQuery.Spec.Builder
import RecordQuery.Text
import RecordQuery.Text.Hexadecimal
import RecordQuery.Text.Printable
import RecordQuery.Text.Quoted
import RecordQuery.Text.Utf8
import RecordQuery.Timestamp
import RecordQuery.Timestamp.Calendar
import RecordQuery.Token
import RecordQuery.Uuid
import RecordQuery.Value
import RecordQuery.Proofs.DeclaredNames
import RecordQuery.Proofs.Pages
import RecordQuery.Proofs.SharedCache
import RecordQuery.Proofs.Spelling
import RecordQuery.Proofs.EitherSpelling
import RecordQuery.Proofs.TokenGrammar
import RecordQuery.Proofs.BuiltTokens
import RecordQuery.Proofs.QueryString
import RecordQuery.Proofs.Logging
import RecordQuery.Proofs.PathGrammar
import RecordQuery.Proofs.SingleToken
import RecordQuery.Proofs.Membership
import RecordQuery.Proofs.OneOf
import RecordQuery.Proofs.BuiltLists
import RecordQuery.Proofs.Grouping
import RecordQuery.Proofs.PageRequests
import RecordQuery.Proofs.MergedSpecs
import RecordQuery.Proofs.SoftDelete
import RecordQuery.Proofs.WalkParts
import RecordQuery.Proofs.CacheHistory
import RecordQuery.Proofs.ServerErrors
import RecordQuery.Proofs.DeclarationOrder
import RecordQuery.Proofs.JoinedClauses
