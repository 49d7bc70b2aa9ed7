import DslinkIec61850.Action.BitString
import DslinkIec61850.Action.BitStringBuffer
import DslinkIec61850.Action.Control
import DslinkIec61850.Action.ControlRequests
import DslinkIec61850.Action.DataAttribute
import DslinkIec61850.Action.Integers
import DslinkIec61850.Action.Numbers
import DslinkIec61850.Client.Directory
import DslinkIec61850.Client.Limits
import DslinkIec61850.Client.Model
import DslinkIec61850.Client.Service
import DslinkIec61850.DataSet.Agreement
import DslinkIec61850.DataSet.Discovered
import DslinkIec61850.DataSet.Enumeration
import DslinkIec61850.DataSet.Folders
import DslinkIec61850.DataSet.Lookup
import DslinkIec61850.DataSet.Nodes
import DslinkIec61850.DataSet.Options
import DslinkIec61850.DataSet.Preparation
import DslinkIec61850.DataSet.Resolution
import DslinkIec61850.Discovery.Attributes
import DslinkIec61850.Discovery.Buffers
import DslinkIec61850.Discovery.Controls
import DslinkIec61850.Discovery.Coverage
import DslinkIec61850.Discovery.DataDirectory
import DslinkIec61850.Discovery.Failures
import DslinkIec61850.Discovery.Frame
import DslinkIec61850.Discovery.Nodes
import DslinkIec61850.Discovery.Rounds
import DslinkIec61850.Discovery.Server
import DslinkIec61850.Discovery.Shape
import DslinkIec61850.Discovery.Steps
import DslinkIec61850.Discovery.Termination
import DslinkIec61850.Discovery.Tree
import DslinkIec61850.Discovery.Walk
import DslinkIec61850.Lib.Calendar
import DslinkIec61850.Lib.Decimal
import DslinkIec61850.Lib.Floating
import DslinkIec61850.Lib.Keyed
import DslinkIec61850.Lib.Run
import DslinkIec61850.Lib.Strings
import DslinkIec61850.Link.Actions
import DslinkIec61850.Link.Clearing
import DslinkIec61850.Link.Confinement
import DslinkIec61850.Link.Dispatch
import DslinkIec61850.Link.Edit
import DslinkIec61850.Link.Entries
import DslinkIec61850.Link.Handlers
import DslinkIec61850.Link.Isolation
import DslinkIec61850.Link.Kit
import DslinkIec61850.Link.Models
import DslinkIec61850.Link.Operation
import DslinkIec61850.Link.Parameters
import DslinkIec61850.Link.Placement
import DslinkIec61850.Link.Registry
import DslinkIec61850.Link.Requests
import DslinkIec61850.Link.ServerMap
import DslinkIec61850.Link.Servers
import DslinkIec61850.Link.State
import DslinkIec61850.Link.Status
import DslinkIec61850.Mms.Connection
import DslinkIec61850.Mms.Exchange
import DslinkIec61850.Mms.Late
import DslinkIec61850.Report.Agreement
import DslinkIec61850.Report.Changes
import DslinkIec61850.Report.Contents
import DslinkIec61850.Report.ControlBlock
import DslinkIec61850.Report.Delivery
import DslinkIec61850.Report.Discovered
import DslinkIec61850.Report.Flags
import DslinkIec61850.Report.Flight
import DslinkIec61850.Report.Nodes
import DslinkIec61850.Report.Pairing
import DslinkIec61850.Report.Publication
import DslinkIec61850.Report.Settings
import DslinkIec61850.Sdk.Node
import DslinkIec61850.Sdk.Reference
import DslinkIec61850.Sdk.Subtree
import DslinkIec61850.Value.BerInteger
import DslinkIec61850.Value.Duration
import DslinkIec61850.Value.FunctionalConstraint
import DslinkIec61850.Value.Iso8601
import DslinkIec61850.Value.Iso8601Forms
import DslinkIec61850.Value.Iso8601Generic
import DslinkIec61850.Value.Iso8601Points
import DslinkIec61850.Value.Json
import DslinkIec61850.Value.MmsValue
