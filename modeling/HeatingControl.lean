import HeatingControl.Account
import HeatingControl.Certificate
import HeatingControl.Client.Address
import HeatingControl.Client.Exchange
import HeatingControl.Client.Target
import HeatingControl.Config.Section
import HeatingControl.Config.Settings
import HeatingControl.Config.SimulatorSettings
import HeatingControl.Config.SocketAddress
import HeatingControl.Controller.Change
import HeatingControl.Controller.Operation
import HeatingControl.Controller.State
import HeatingControl.Controller.Step
import HeatingControl.Controller.Table
import HeatingControl.Dashboard.Action
import HeatingControl.Dashboard.Effect
import HeatingControl.Dashboard.Page
import HeatingControl.Dashboard.Section
import HeatingControl.Dashboard.Timer
import HeatingControl.Error
import HeatingControl.Firmware
import HeatingControl.Hardware
import HeatingControl.Http.Form
import HeatingControl.Http.MediaType
import HeatingControl.Http.Message
import HeatingControl.Http.Multipart
import HeatingControl.Http.Percent
import HeatingControl.Ident
import HeatingControl.Json.Reader
import HeatingControl.Json.Value
import HeatingControl.Json.Writer
import HeatingControl.Order
import HeatingControl.Program
import HeatingControl.Proofs.Client.Origin
import HeatingControl.Proofs.Client.Path
import HeatingControl.Proofs.Client.Record
import HeatingControl.Proofs.Client.Refinement
import HeatingControl.Proofs.Client.Regular
import HeatingControl.Proofs.Client.Reply
import HeatingControl.Proofs.Client.Request
import HeatingControl.Proofs.Client.Segment
import HeatingControl.Proofs.Client.Settings
import HeatingControl.Proofs.Client.Target
import HeatingControl.Proofs.Config.BaseAddress
import HeatingControl.Proofs.Controller.Accounts
import HeatingControl.Proofs.Controller.Atomicity
import HeatingControl.Proofs.Controller.Boards
import HeatingControl.Proofs.Controller.Capacity
import HeatingControl.Proofs.Controller.Commutation
import HeatingControl.Proofs.Controller.Deletion
import HeatingControl.Proofs.Controller.Edits
import HeatingControl.Proofs.Controller.Forms
import HeatingControl.Proofs.Controller.Frame
import HeatingControl.Proofs.Controller.Integrity
import HeatingControl.Proofs.Controller.Kinds
import HeatingControl.Proofs.Controller.Legible
import HeatingControl.Proofs.Controller.Merge
import HeatingControl.Proofs.Controller.Numbering
import HeatingControl.Proofs.Controller.Overlay
import HeatingControl.Proofs.Controller.Reboot
import HeatingControl.Proofs.Controller.Revalidation
import HeatingControl.Proofs.Controller.Run
import HeatingControl.Proofs.Controller.Transition
import HeatingControl.Proofs.Controller.Zones
import HeatingControl.Proofs.Dashboard.Asked
import HeatingControl.Proofs.Dashboard.Bootstrap
import HeatingControl.Proofs.Dashboard.Input
import HeatingControl.Proofs.Dashboard.Interleaving
import HeatingControl.Proofs.Dashboard.Mark
import HeatingControl.Proofs.Dashboard.Offered
import HeatingControl.Proofs.Dashboard.OutOfOrder
import HeatingControl.Proofs.Dashboard.Outcome
import HeatingControl.Proofs.Dashboard.Page
import HeatingControl.Proofs.Dashboard.Panel
import HeatingControl.Proofs.Dashboard.PanelRun
import HeatingControl.Proofs.Dashboard.Shared
import HeatingControl.Proofs.Dashboard.Site
import HeatingControl.Proofs.Dashboard.SlotEdit
import HeatingControl.Proofs.Dashboard.Snapshot
import HeatingControl.Proofs.Dashboard.Stage
import HeatingControl.Proofs.Dashboard.Tasks
import HeatingControl.Proofs.Dashboard.Ticks
import HeatingControl.Proofs.Http.Escape
import HeatingControl.Proofs.Http.Form
import HeatingControl.Proofs.Http.Percent
import HeatingControl.Proofs.Json.Roundtrip
import HeatingControl.Proofs.Path
import HeatingControl.Proofs.Rest.Calls
import HeatingControl.Proofs.Rest.Interleaving
import HeatingControl.Proofs.Rest.Overlap
import HeatingControl.Proofs.Rest.Serial
import HeatingControl.Proofs.Slot.InForce
import HeatingControl.Proofs.Slot.Sorted
import HeatingControl.Proofs.StableSort
import HeatingControl.Proofs.Status.Duration
import HeatingControl.Proofs.Status.Percentage
import HeatingControl.Proofs.Text.Cut
import HeatingControl.Proofs.Text.Numeral
import HeatingControl.Proofs.Text.Utf8
import HeatingControl.Proofs.Upload.Blocks
import HeatingControl.Proofs.Upload.Descriptor
import HeatingControl.Proofs.View.Choice
import HeatingControl.Proofs.View.PlanningList
import HeatingControl.Proofs.View.SlotRows
import HeatingControl.Proofs.Web.Administration
import HeatingControl.Proofs.Web.Block
import HeatingControl.Proofs.Web.Inserted
import HeatingControl.Proofs.Web.Offers
import HeatingControl.Proofs.Web.Reader
import HeatingControl.Proofs.Web.Redirect
import HeatingControl.Proofs.Web.ShownForm
import HeatingControl.Proofs.Web.Skeleton
import HeatingControl.Proofs.Web.Strings
import HeatingControl.Proofs.Web.Untouched
import HeatingControl.Proofs.Wire.Fields
import HeatingControl.Proofs.Wire.Normal
import HeatingControl.Proofs.Wire.Records
import HeatingControl.Proofs.Wire.Texts
import HeatingControl.Rest.Resource
import HeatingControl.Rest.Respond
import HeatingControl.Slot
import HeatingControl.Status
import HeatingControl.Text.Blank
import HeatingControl.Text.Numeral
import HeatingControl.Text.Precision
import HeatingControl.Text.Quoted
import HeatingControl.Text.Utf8
import HeatingControl.Toml.Number
import HeatingControl.Toml.Reader
import HeatingControl.Toml.Text
import HeatingControl.Toml.Value
import HeatingControl.View.Administration
import HeatingControl.View.Choice
import HeatingControl.View.Override
import HeatingControl.View.Plannings
import HeatingControl.View.Slots
import HeatingControl.View.Status
import HeatingControl.View.Zones
import HeatingControl.Web.AdminSection
import HeatingControl.Web.Control
import HeatingControl.Web.HomePage
import HeatingControl.Web.Layout
import HeatingControl.Web.Markup
import HeatingControl.Web.PlanningSection
import HeatingControl.Web.Respond
import HeatingControl.Web.Visit
import HeatingControl.Web.Zones
import HeatingControl.Week
import HeatingControl.Wire.Codec
import HeatingControl.Wire.Kind
import HeatingControl.Wire.Records
import HeatingControl.Zone
