import TextMask.Main
import TextMask.Editing
import TextMask.Store.Desk
import TextMask.Proofs.Chain.Meaning
import TextMask.Proofs.Mask.CaretLaw
import TextMask.Proofs.Mask.Word
import TextMask.Proofs.Mask.Idempotence
import TextMask.Proofs.Mask.Typing
import TextMask.Proofs.Mask.Lengths
import TextMask.Proofs.Mask.Restoring
import TextMask.Proofs.Pattern.Grammar
import TextMask.Proofs.Chain.Scan
import TextMask.Proofs.Chain.Printing
import TextMask.Proofs.Chain.Describing
import TextMask.Proofs.Mask.Affinity
import TextMask.Proofs.Pattern.Groups
import TextMask.Proofs.Pattern.NormalGroups
import TextMask.Proofs.Store.Lookup
import TextMask.Proofs.Store.Picking
import TextMask.Proofs.Store.Desk
import TextMask.Proofs.Store.Selection
import TextMask.Proofs.Store.History
import TextMask.Proofs.Pattern.FaultPosition
import TextMask.Proofs.Chain.Joining
import TextMask.Proofs.Mask.Filled
import TextMask.Proofs.Mask.Appending
import TextMask.Proofs.Mask.Completing
import TextMask.Proofs.Mask.Rejecting
import TextMask.Proofs.Chain.Releasing
import TextMask.Proofs.Mask.Releasing
import TextMask.Proofs.Chain.Reordering
import TextMask.Proofs.Text.Utf8
import TextMask.Proofs.Policy.Schema
import TextMask.Proofs.Policy.Integer
import TextMask.Proofs.Yaml.Value
import TextMask.Proofs.Policy.Load
import TextMask.Proofs.CommandLine.Arguments
import TextMask.Proofs.CommandLine.Execute
