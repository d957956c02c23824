import MailFilter.Bytes
import MailFilter.Chain.Flush
import MailFilter.Chain.Library
import MailFilter.Chain.Module
import MailFilter.Chain.Outcome
import MailFilter.Chain.Queue
import MailFilter.Chain.Script
import MailFilter.CommandLine
import MailFilter.Controller
import MailFilter.Delivery.Error
import MailFilter.Delivery.Nexthop
import MailFilter.Fault
import MailFilter.Log
import MailFilter.Lookup
import MailFilter.Main
import MailFilter.Message.Addresses
import MailFilter.Message.Basic
import MailFilter.Message.Edit
import MailFilter.Message.Header
import MailFilter.Message.Snapshot
import MailFilter.Net.Address
import MailFilter.Net.Arrival
import MailFilter.Pipe
import MailFilter.Proofs.Alike
import MailFilter.Proofs.Chain.Agreement
import MailFilter.Proofs.Chain.Alike
import MailFilter.Proofs.Chain.Answered
import MailFilter.Proofs.Chain.Body
import MailFilter.Proofs.Chain.Course
import MailFilter.Proofs.Chain.Failure
import MailFilter.Proofs.Chain.Flush
import MailFilter.Proofs.Chain.Loading
import MailFilter.Proofs.Chain.Lookups
import MailFilter.Proofs.Chain.Passage
import MailFilter.Proofs.Chain.Passive
import MailFilter.Proofs.Chain.Places
import MailFilter.Proofs.Chain.Rounds
import MailFilter.Proofs.Chain.Superseded
import MailFilter.Proofs.Chain.Unchanged
import MailFilter.Proofs.Chain.Whole
import MailFilter.Proofs.Clean
import MailFilter.Proofs.Delivered
import MailFilter.Proofs.Delivery.Naming
import MailFilter.Proofs.ExitStatus
import MailFilter.Proofs.Message.Block
import MailFilter.Proofs.Message.Edits
import MailFilter.Proofs.Message.Field
import MailFilter.Proofs.Message.Joined
import MailFilter.Proofs.Message.ReadBack
import MailFilter.Proofs.Message.Rewrite
import MailFilter.Proofs.Message.Snapshot
import MailFilter.Proofs.Message.Sound
import MailFilter.Proofs.Message.Values
import MailFilter.Proofs.Message.Verbatim
import MailFilter.Proofs.Relay.Commands
import MailFilter.Proofs.Relay.Cuts
import MailFilter.Proofs.Relay.Forwarded
import MailFilter.Proofs.Relay.Grammar
import MailFilter.Proofs.Relay.Offsets
import MailFilter.Proofs.Relay.Replies
import MailFilter.Proofs.Relay.Safety
import MailFilter.Proofs.Relay.Standing
import MailFilter.Proofs.Relay.Trace
import MailFilter.Proofs.Run
import MailFilter.Proofs.Server.Jobs
import MailFilter.Proofs.Server.Starvation
import MailFilter.Proofs.Settings.ReplyTexts
import MailFilter.Proofs.Smtp.Alike
import MailFilter.Proofs.Smtp.Answers
import MailFilter.Proofs.Smtp.Arguments
import MailFilter.Proofs.Smtp.Attributes
import MailFilter.Proofs.Smtp.CommandLines
import MailFilter.Proofs.Smtp.Completion
import MailFilter.Proofs.Smtp.Conversation
import MailFilter.Proofs.Smtp.Dialogue
import MailFilter.Proofs.Smtp.Ending
import MailFilter.Proofs.Smtp.Envelope
import MailFilter.Proofs.Smtp.FieldNames
import MailFilter.Proofs.Smtp.FinalReply
import MailFilter.Proofs.Smtp.Framing
import MailFilter.Proofs.Smtp.HeaderBlock
import MailFilter.Proofs.Smtp.History
import MailFilter.Proofs.Smtp.Hops
import MailFilter.Proofs.Smtp.MessageTurn
import MailFilter.Proofs.Smtp.Missing
import MailFilter.Proofs.Smtp.Overlong
import MailFilter.Proofs.Smtp.Places
import MailFilter.Proofs.Smtp.Readiness
import MailFilter.Proofs.Smtp.Reception
import MailFilter.Proofs.Smtp.Recognition
import MailFilter.Proofs.Smtp.Refusals
import MailFilter.Proofs.Smtp.Rendering
import MailFilter.Proofs.Smtp.SingleReply
import MailFilter.Proofs.Smtp.Transparency
import MailFilter.Proofs.Smtp.Verbs
import MailFilter.Proofs.Smtp.Verdict
import MailFilter.Proofs.Smtp.Wording
import MailFilter.Proofs.Spool.Places
import MailFilter.Proofs.Spool.Replace
import MailFilter.Proofs.Text.Decimal
import MailFilter.Proofs.Text.Folded
import MailFilter.Proofs.Text.Lines
import MailFilter.Proofs.Text.Utf8
import MailFilter.Relay.Client
import MailFilter.Relay.DotStuffing
import MailFilter.Relay.Recorded
import MailFilter.Relay.Response
import MailFilter.Relay.Scripted
import MailFilter.Reply
import MailFilter.Server.Basic
import MailFilter.Server.Crew
import MailFilter.Server.Pool
import MailFilter.Settings.Basic
import MailFilter.Settings.Decode
import MailFilter.Settings.Listing
import MailFilter.Settings.Load
import MailFilter.Smtp.Answer
import MailFilter.Smtp.Command
import MailFilter.Smtp.Completion
import MailFilter.Smtp.Connection
import MailFilter.Smtp.Framing
import MailFilter.Smtp.Phase
import MailFilter.Smtp.Policy
import MailFilter.Smtp.Receiver
import MailFilter.Spool.Basic
import MailFilter.Spool.Error
import MailFilter.Spool.Files
import MailFilter.Spool.Path
import MailFilter.Stamp
import MailFilter.Status
import MailFilter.Text.Blank
import MailFilter.Text.Decimal
import MailFilter.Text.Fold
import MailFilter.Text.Line
import MailFilter.Text.Quoted
import MailFilter.Text.Utf8
import MailFilter.Toml.Datetime
import MailFilter.Toml.Document
import MailFilter.Toml.Number
import MailFilter.Toml.Quoted
import MailFilter.Toml.Value
import MailFilter.Transaction
import MailFilter.World
