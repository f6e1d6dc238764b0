import DataAgent.Catalog.Introspect
import DataAgent.Compile.Query
import DataAgent.Config.Runtime
import DataAgent.Config.Schema
import DataAgent.Execution.Memory
import DataAgent.Main
import DataAgent.Request.Decode
import DataAgent.Response.Capabilities
import DataAgent.Response.Report
import DataAgent.Response.Rows
import DataAgent.Service.Options
import DataAgent.Service.Route
import DataAgent.Sql.Render
import DataAgent.Proofs.Compile.Runs
import DataAgent.Proofs.Request.Meaning
import DataAgent.Proofs.Sql.Values
import DataAgent.Proofs.Compile.Aliases
import DataAgent.Proofs.Compile.FilterMeaning
import DataAgent.Proofs.Sql.Documents
import DataAgent.Proofs.Compile.QueryMeaning
import DataAgent.Proofs.Request.Documents
import DataAgent.Proofs.Sql.Outcomes
import DataAgent.Proofs.Sql.Scope
import DataAgent.Proofs.Compile.Names
import DataAgent.Proofs.Compile.Answer
import DataAgent.Proofs.Sql.Tokens
import DataAgent.Proofs.Compile.Params
import DataAgent.Proofs.Compile.Blanks
import DataAgent.Proofs.Compile.Defects
import DataAgent.Proofs.Sql.Parser
import DataAgent.Proofs.Sql.ParserRuns
import DataAgent.Proofs.Sql.RoundTrip
import DataAgent.Proofs.Compile.Legible
import DataAgent.Proofs.Sql.Tags
import DataAgent.Proofs.Compile.Agreement
import DataAgent.Proofs.Compile.Tags
import DataAgent.Proofs.Sql.Renumber
import DataAgent.Proofs.Compile.Pages
import DataAgent.Proofs.Execution.Pooling
import DataAgent.Proofs.Json.Reading
import DataAgent.Proofs.Json.Decoding
import DataAgent.Proofs.Request.Encoding
import DataAgent.Proofs.Compile.Embedding
import DataAgent.Proofs.Service.Errands
import DataAgent.Proofs.Service.Stages
import DataAgent.Proofs.Service.Secrecy
import DataAgent.Proofs.Service.Accounting
import DataAgent.Proofs.Sql.Writing
import DataAgent.Proofs.Compile.Lookups
import DataAgent.Proofs.Json.Literals
import DataAgent.Proofs.Json.Places
import DataAgent.Proofs.Json.Edits
import DataAgent.Proofs.Json.Keeping
import DataAgent.Proofs.Request.Edits
import DataAgent.Proofs.Json.Compact
import DataAgent.Proofs.Response.Shapes
import DataAgent.Proofs.Config.Maps
import DataAgent.Proofs.Config.Resolution
import DataAgent.Proofs.Json.Making
import DataAgent.Proofs.Config.Encoding
import DataAgent.Proofs.Catalog.Introspection
import DataAgent.Proofs.Catalog.Keys
import DataAgent.Proofs.Compile.Draws
import DataAgent.Proofs.Compile.Lengths
import DataAgent.Proofs.Json.Costs
import DataAgent.Proofs.Request.Weight
import DataAgent.Proofs.Compile.Growth
