import GuestCore.Session.Run
import GuestCore.Proofs.Effect
import GuestCore.Proofs.Moment
import GuestCore.Proofs.Coherence
import GuestCore.Proofs.Agreement
import GuestCore.Proofs.Tracking
import GuestCore.Proofs.Sessions
import GuestCore.Proofs.Canonical
import GuestCore.Proofs.RegistryHistory
import GuestCore.Proofs.CallDepth
import GuestCore.Proofs.EventSteps
import GuestCore.Proofs.Termination
import GuestCore.Proofs.Contents
import GuestCore.Proofs.SiteHistory
import GuestCore.Proofs.SessionSimulation
import GuestCore.Proofs.SessionEvents
import GuestCore.Proofs.Lockstep
import GuestCore.Proofs.Recasting
import GuestCore.Proofs.Batches
import GuestCore.Proofs.Nesting
import GuestCore.Proofs.DepthLimit
import GuestCore.Proofs.MemberHistory
import GuestCore.Proofs.Operands
import GuestCore.Proofs.Views
import GuestCore.Proofs.Concealment
import GuestCore.Proofs.Equality
import GuestCore.Proofs.Isolation
import GuestCore.Proofs.CreatingLookup
import GuestCore.Proofs.ObjectCount
import GuestCore.Proofs.Aliasing
import GuestCore.Proofs.Capabilities
import GuestCore.Proofs.Places
import GuestCore.Proofs.Records
import GuestCore.Proofs.TraceReplay
import GuestCore.Proofs.Rounding
import GuestCore.Proofs.FloatNarrowing
import GuestCore.Proofs.IntegerOrder
import GuestCore.Proofs.TypeErrors
import GuestCore.Proofs.RaisedFaults
import GuestCore.Proofs.DispatchAccount
import GuestCore.Proofs.ReceiverNarrowing
import GuestCore.Proofs.Literals
import GuestCore.Proofs.Utf8Order
import GuestCore.Proofs.Listings
import GuestCore.Proofs.RequestedNames
import GuestCore.Proofs.Factorial
import GuestCore.Proofs.Settings
import GuestCore.Proofs.FaultTexts
import GuestCore.Proofs.Provenance
