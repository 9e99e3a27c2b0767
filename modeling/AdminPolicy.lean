import AdminPolicy.Host.Faults
import AdminPolicy.Host.Memory
import AdminPolicy.Main
import AdminPolicy.Proofs.Agreement
import AdminPolicy.Proofs.ByteOrder
import AdminPolicy.Proofs.Canonical
import AdminPolicy.Proofs.Directives
import AdminPolicy.Proofs.Document
import AdminPolicy.Proofs.Enforcement
import AdminPolicy.Proofs.Faults
import AdminPolicy.Proofs.FirstFailure
import AdminPolicy.Proofs.Footprint
import AdminPolicy.Proofs.History
import AdminPolicy.Proofs.IdentityList
import AdminPolicy.Proofs.Installation
import AdminPolicy.Proofs.KeyFile
import AdminPolicy.Proofs.KeyFileLines
import AdminPolicy.Proofs.LastWord
import AdminPolicy.Proofs.Layering
import AdminPolicy.Proofs.Layout
import AdminPolicy.Proofs.Leftovers
import AdminPolicy.Proofs.MalformedLine
import AdminPolicy.Proofs.Memory
import AdminPolicy.Proofs.Naming
import AdminPolicy.Proofs.Override
import AdminPolicy.Proofs.Path
import AdminPolicy.Proofs.Places
import AdminPolicy.Proofs.Preview
import AdminPolicy.Proofs.Reading
import AdminPolicy.Proofs.RuleText
import AdminPolicy.Proofs.Run
import AdminPolicy.Proofs.Sections
import AdminPolicy.Proofs.StoredMap
import AdminPolicy.Proofs.SystemAdmins
import AdminPolicy.Proofs.Targets
import AdminPolicy.Proofs.Tokens
import AdminPolicy.Proofs.Trace
import AdminPolicy.Proofs.Transition
import AdminPolicy.Proofs.Tree
