import ServiceBroker.Stub
import ServiceBroker.Proofs.Admission.Capacity
import ServiceBroker.Proofs.Agreement
import ServiceBroker.Proofs.Async.Polls
import ServiceBroker.Proofs.Catalog.Resolution
import ServiceBroker.Proofs.Collisions
import ServiceBroker.Proofs.Contexts
import ServiceBroker.Proofs.Grants
import ServiceBroker.Proofs.Orchestration.Registration
import ServiceBroker.Proofs.Passthrough
import ServiceBroker.Proofs.Positional
import ServiceBroker.Proofs.Requests
import ServiceBroker.Proofs.Session.Dispatch
import ServiceBroker.Proofs.Session.Gates
import ServiceBroker.Proofs.Session.Omission
import ServiceBroker.Proofs.Writers
