import AsOf.Action
import AsOf.AssetIndex
import AsOf.Axes
import AsOf.Category
import AsOf.Cell
import AsOf.Config.Document
import AsOf.Config.Layers
import AsOf.Config.Pointer
import AsOf.Config.Settings
import AsOf.Config.Unused
import AsOf.Correction
import AsOf.DateIndex
import AsOf.Decimal.Binary
import AsOf.Decimal.Literal
import AsOf.Decimal.Shortest
import AsOf.Digest
import AsOf.Event
import AsOf.Exchange
import AsOf.Grid
import AsOf.Json.Text
import AsOf.Json.Value
import AsOf.Json.Written
import AsOf.Load
import AsOf.LocalTime
import AsOf.Panel
import AsOf.Proofs.Arrange
import AsOf.Proofs.Axes
import AsOf.Proofs.Calendar
import AsOf.Proofs.Config.Acceptance
import AsOf.Proofs.Config.Canonical
import AsOf.Proofs.Config.Edit
import AsOf.Proofs.Config.Merge
import AsOf.Proofs.Config.MergeLaws
import AsOf.Proofs.Config.PointerText
import AsOf.Proofs.Config.Settings
import AsOf.Proofs.Config.UnusedReport
import AsOf.Proofs.Decimal.Digits
import AsOf.Proofs.Decimal.Doubles
import AsOf.Proofs.Decimal.Shortest
import AsOf.Proofs.Indexes
import AsOf.Proofs.Json.Numbers
import AsOf.Proofs.Json.Sorted
import AsOf.Proofs.Json.Unambiguous
import AsOf.Proofs.Load.Accounting
import AsOf.Proofs.Load.Assembly
import AsOf.Proofs.Load.Columns
import AsOf.Proofs.Load.Configured
import AsOf.Proofs.Load.Inverses
import AsOf.Proofs.Load.Kinds
import AsOf.Proofs.Load.Place
import AsOf.Proofs.Load.Plan
import AsOf.Proofs.Load.PriceWindow
import AsOf.Proofs.Load.Protocol
import AsOf.Proofs.Load.Scopes
import AsOf.Proofs.Load.Stored
import AsOf.Proofs.Load.Stretches
import AsOf.Proofs.Lookups
import AsOf.Proofs.NoLookAhead
import AsOf.Proofs.Schedule
import AsOf.Proofs.Sessions
import AsOf.Proofs.Store.ChunkedFetch
import AsOf.Proofs.Store.Committed
import AsOf.Proofs.Store.Contents
import AsOf.Proofs.Store.FetchTrace
import AsOf.Proofs.Store.Kept
import AsOf.Proofs.Store.Query
import AsOf.Proofs.Store.Resolve
import AsOf.Proofs.Store.Run
import AsOf.Proofs.Store.Stateless
import AsOf.Proofs.Store.Steps
import AsOf.Proofs.Window.Advance
import AsOf.Proofs.Window.Bookkeeping
import AsOf.Proofs.Window.Construction
import AsOf.Proofs.Window.Isolation
import AsOf.Proofs.Window.Log
import AsOf.Proofs.Window.PointInTime
import AsOf.Proofs.Window.Standing
import AsOf.Proofs.Window.Traversal
import AsOf.Proofs.Window.Words
import AsOf.Schedule
import AsOf.Scope
import AsOf.SidSet
import AsOf.Store.Database
import AsOf.Store.Fetch
import AsOf.Store.Script
import AsOf.Store.Session
import AsOf.Store.Source
import AsOf.Store.Table
import AsOf.Study
import AsOf.Text.Blank
import AsOf.Text.Hex
import AsOf.Text.Printable
import AsOf.Text.Quoted
import AsOf.Window
import AsOf.Word
import AsOf.Yaml.Cursor
import AsOf.Yaml.Event
import AsOf.Yaml.Node
import AsOf.Yaml.Resolve
import AsOf.Yaml.Token
import AsOf.Yaml.Token.Scalar
import AsOf.Yaml.Token.Scan
import AsOf.Yaml.Token.Tag
