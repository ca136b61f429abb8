import SigmaDesk.Document
import SigmaDesk.Main
import SigmaDesk.Proofs.Table
import SigmaDesk.Proofs.Occurrence
import SigmaDesk.Proofs.Check
import SigmaDesk.Proofs.Gate
import SigmaDesk.Proofs.Gate.Structure
import SigmaDesk.Proofs.Gate.Label
import SigmaDesk.Proofs.Gate.Frame
import SigmaDesk.Proofs.Gate.Messages
import SigmaDesk.Proofs.RuleText.Draft
import SigmaDesk.Proofs.RuleText.Setting
import SigmaDesk.Proofs.RuleText.Reading
import SigmaDesk.Proofs.RuleText.RoundTrip
import SigmaDesk.Proofs.RuleText.Parsed
import SigmaDesk.Proofs.RuleText.Detection
import SigmaDesk.Proofs.RuleText.Accepted
import SigmaDesk.Proofs.RuleText.Outcome
import SigmaDesk.Proofs.RuleText.Flat
import SigmaDesk.Proofs.RuleText.Shown
import SigmaDesk.Proofs.RuleText.Legible
import SigmaDesk.Proofs.RuleText.Indentation
import SigmaDesk.Proofs.RuleText.Embedded
import SigmaDesk.Proofs.RuleText.Respaced
import SigmaDesk.Proofs.RuleText.Noise
import SigmaDesk.Proofs.RuleText.Refusal
import SigmaDesk.Proofs.RuleText.Policies
import SigmaDesk.Proofs.RuleText.Lists
import SigmaDesk.Proofs.RuleText.Items
import SigmaDesk.Proofs.RuleText.FlowItems
import SigmaDesk.Proofs.RuleText.FlowList
import SigmaDesk.Proofs.RuleText.Keys
import SigmaDesk.Proofs.Format
import SigmaDesk.Proofs.Verdict
import SigmaDesk.Proofs.Document
import SigmaDesk.Proofs.Store
import SigmaDesk.Proofs.Edit
import SigmaDesk.Proofs.Naming
import SigmaDesk.Proofs.Session.Call
import SigmaDesk.Proofs.Session.Submission
import SigmaDesk.Proofs.Session.Lockout
import SigmaDesk.Proofs.Session.Run
import SigmaDesk.Proofs.Session.Reachable
import SigmaDesk.Proofs.Session.Lasting
import SigmaDesk.Proofs.Session.Reload
import SigmaDesk.Proofs.Session.Identifier
import SigmaDesk.Proofs.Session.FromText
import SigmaDesk.Proofs.Session.Origin
import SigmaDesk.Proofs.Session.Reopened
import SigmaDesk.Proofs.Session.Refusal
import SigmaDesk.Proofs.Session.Rejected
import SigmaDesk.Proofs.Session.Naming
import SigmaDesk.Proofs.Session.ChangedId
import SigmaDesk.Proofs.Style
import SigmaDesk.Proofs.Acceptance
import SigmaDesk.Proofs.Rendering
import SigmaDesk.Proofs.Publication
import SigmaDesk.Proofs.Store.Compaction
import SigmaDesk.Proofs.Store.Faithful
