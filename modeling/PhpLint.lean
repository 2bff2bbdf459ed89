import PhpLint.Proofs.Acceptance
import PhpLint.Proofs.CasePolicies
import PhpLint.Proofs.Conditions
import PhpLint.Proofs.EqualReadings
import PhpLint.Proofs.Histories
import PhpLint.Proofs.LeaveOrder
import PhpLint.Proofs.Listings
import PhpLint.Proofs.NamingRules
import PhpLint.Proofs.OpenLevels
import PhpLint.Proofs.ReadPlaces
import PhpLint.Proofs.RootLines
import PhpLint.Proofs.Routing
import PhpLint.Proofs.SingleLines
import PhpLint.Proofs.WiderDescent
