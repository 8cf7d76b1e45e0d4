import LedgerAbi.Main
import LedgerAbi.Session.Step
import LedgerAbi.WireText
import LedgerAbi.Proofs.Call.Callback
import LedgerAbi.Proofs.Call.Rebinding
import LedgerAbi.Proofs.Call.Reply
import LedgerAbi.Proofs.Codec.Canonical
import LedgerAbi.Proofs.Event.Arguments
import LedgerAbi.Proofs.Subscription.Closing
import LedgerAbi.Proofs.Subscription.Acquisition
import LedgerAbi.Proofs.Subscription.Iteration
import LedgerAbi.Proofs.Subscription.Waiting
import LedgerAbi.Proofs.Subscription.Frames
import LedgerAbi.Proofs.Rpc.Message
import LedgerAbi.Proofs.Rpc.Release
import LedgerAbi.Proofs.Abi.CanonicalName
import LedgerAbi.Proofs.Call.Decoding
import LedgerAbi.Proofs.Codec.Acceptance
import LedgerAbi.Proofs.Codec.Inhabitants
import LedgerAbi.Proofs.Abi.Document
import LedgerAbi.Proofs.Call.Answer
import LedgerAbi.Proofs.Codec.Failures
import LedgerAbi.Proofs.Codec.Spelling
import LedgerAbi.Proofs.Abi.TypeLanguage
import LedgerAbi.Proofs.Abi.Signature
import LedgerAbi.Proofs.Codec.WireSize
import LedgerAbi.Proofs.Call.Outputs
import LedgerAbi.Proofs.Call.Settlement
import LedgerAbi.Proofs.Call.Sending
import LedgerAbi.Proofs.CommandLine.Encode
import LedgerAbi.Proofs.Text.Normalization
import LedgerAbi.Proofs.Text.Wrap
import LedgerAbi.Proofs.Call.Lookup
