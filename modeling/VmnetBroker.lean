import VmnetBroker.Machine.Run
import VmnetBroker.Machine.Components
import VmnetBroker.Machine.Table
import VmnetBroker.Machine.Clock
import VmnetBroker.Machine.Refinement
import VmnetBroker.Machine.References
import VmnetBroker.Machine.Scripts
import VmnetBroker.Model.Protocol
import VmnetBroker.Model.State
import VmnetBroker.Model.Config
import VmnetBroker.Model.Network
import VmnetBroker.Model.Broker
import VmnetBroker.Model.Client
import VmnetBroker.Model.Session
import VmnetBroker.Model.Reservations
import VmnetBroker.Model.Clock
import VmnetBroker.Model.Deployment
import VmnetBroker.Model.Library
import VmnetBroker.Model.TestClient
import VmnetBroker.Model.Service
import VmnetBroker.Model.Accounts
import VmnetBroker.Model.Installation
import VmnetBroker.Proofs.Coherence
import VmnetBroker.Proofs.Operations
import VmnetBroker.Proofs.Acquire
import VmnetBroker.Proofs.Request
import VmnetBroker.Proofs.Disconnect
import VmnetBroker.Proofs.Lifecycle
import VmnetBroker.Proofs.Step
import VmnetBroker.Proofs.Frame
import VmnetBroker.Proofs.Session
import VmnetBroker.Proofs.Reservations
import VmnetBroker.Proofs.Endings
import VmnetBroker.Proofs.Timers
import VmnetBroker.Proofs.Deployment
import VmnetBroker.Proofs.Library
import VmnetBroker.Proofs.Accounts
import VmnetBroker.Proofs.Installation
import VmnetBroker.Soundness.Ownership
import VmnetBroker.Soundness.Accounting
import VmnetBroker.Soundness.Requests
import VmnetBroker.Soundness.Agreement
import VmnetBroker.Soundness.Replies
import VmnetBroker.Soundness.Protocol
import VmnetBroker.Soundness.Retention
import VmnetBroker.Soundness.Idempotence
import VmnetBroker.Soundness.Isolation
import VmnetBroker.Soundness.Interleaving
import VmnetBroker.Soundness.Refinement
import VmnetBroker.Soundness.Endings
import VmnetBroker.Soundness.Reservation
import VmnetBroker.Soundness.Deployment
import VmnetBroker.Soundness.Library
import VmnetBroker.Soundness.TestClient
import VmnetBroker.Soundness.Upgrade
import VmnetBroker.Soundness.Accounts
import VmnetBroker.Soundness.Installation
