import CallSiteIds.Json.Lines
import CallSiteIds.Main
import CallSiteIds.Proofs.Collection.Building
import CallSiteIds.Proofs.CommandLine.Statuses
import CallSiteIds.Proofs.Config.Names
import CallSiteIds.Proofs.Descriptor.Isolation
import CallSiteIds.Proofs.Emission.Canonical
import CallSiteIds.Proofs.Emission.Names
import CallSiteIds.Proofs.Emission.Signatures
import CallSiteIds.Proofs.Literal.Requests
import CallSiteIds.Proofs.Literal.Shapes
import CallSiteIds.Proofs.Location.Reading
import CallSiteIds.Proofs.Marker.Slots
import CallSiteIds.Proofs.Pass.Balance
import CallSiteIds.Proofs.Pass.Literals
import CallSiteIds.Proofs.Pass.OwnFiles
import CallSiteIds.Proofs.Pass.Reordering
import CallSiteIds.Proofs.Pass.Tags
import CallSiteIds.Proofs.Validation.CallSites
import CallSiteIds.Proofs.Validation.FreshSource
import CallSiteIds.Proofs.Validation.Output
