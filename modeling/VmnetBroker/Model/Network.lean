import VmnetBroker.Model.Config

/-! # Shared networks (`broker/network.c`)

Network blocks live at addresses chosen by the allocator. The registry and the peer contexts
store addresses, and ownership is decided by comparing them, exactly as in the source. Functions
with an `int *error` out-parameter take its value and return the possibly updated value, so a
failure branch that forgot to assign it would return the caller's zero.
-/

namespace VmnetBroker

open BrokerM

variable {Key : Type} [DecidableEq Key]

/-- Release whatever a possibly incomplete network holds, then its block. -/
def freeNetwork : Option Address → BrokerM Key Unit
  | none => pure ()
  | some network => do
    let value ← load network
    releaseIfSet value.ref
    releaseIfSet value.serialization
    match value.idleTimer with
    | some timer => do
      cancelSource timer
      release timer
    | none => pure ()
    modify fun broker => { broker with heap := broker.heap.erase network }

/-- The `failure` label of `create_network`. -/
def createNetworkFailure (network : Option Address) : BrokerM Key (Option Address × Int32) := do
  freeNetwork network
  return (none, VmnetBrokerReturn.createFailure.toInt)

def createNetwork (name : CString) (calls : Calls) (error : Int32) :
    BrokerM Key (Option Address × Int32) := do
  match calls.calloc with
  | none => createNetworkFailure none
  | some network =>
    modify fun broker => { broker with heap := broker.heap.insert network {} }
    if !calls.strdup then createNetworkFailure (some network)
    else
      store network { name := some name }
      if !calls.vmnetNetworkCreate then createNetworkFailure (some network)
      else
        let ref ← create .network
        store network { name := some name, ref := some ref }
        if !calls.vmnetNetworkCopySerialization then createNetworkFailure (some network)
        else
          let serialization ← create .serialization
          store network { name := some name, ref := some ref, serialization := some serialization }
          return (some network, error)

/-- Every call on the way to a network block succeeds. -/
def Calls.builds (calls : Calls) : Bool :=
  calls.calloc.isSome && calls.strdup && calls.vmnetNetworkCreate && calls.vmnetNetworkCopySerialization

/-- Every creation step of a network with this configuration succeeds. -/
def Calls.creates (calls : Calls) (config : NetworkConfig) : Bool := calls.configures config && calls.builds

/-- The value callback of the registry dictionary. -/
def registryRelease (network : Address) : BrokerM Key Unit := freeNetwork (some network)

def initRegistry : BrokerM Key Unit :=
  modify fun broker => { broker with registry := some broker.registered }

/-- The registry dictionary, dereferenced by CoreFoundation without a NULL check. -/
def registryDictionary : BrokerM Key (AList fun _ : Key => Address) := do
  match (← get).registry with
  | some registry => return registry
  | none => fail .nullRegistry

/-- Build the CFString key of a name, look it up or update with it, and release it. A NULL key
ends the process in the dictionary call that receives it. -/
def withKey {α : Type} (env : Environment Key) (name : CString) (use : Key → BrokerM Key α) :
    BrokerM Key α := do
  match env.createWithCString name with
  | none => fail .nullKey
  | some key =>
    let ref ← create .key
    let result ← use key
    release ref
    return result

def registryGet (env : Environment Key) (name : CString) : BrokerM Key (Option Address) :=
  withKey env name fun key => do
    let registry ← registryDictionary
    return registry.lookup key

/-- `CFDictionarySetValue` releases the value that it replaces. -/
def registrySet (env : Environment Key) (name : CString) (network : Address) : BrokerM Key Unit :=
  withKey env name fun key => do
    let registry ← registryDictionary
    modify fun broker => { broker with registry := some (registry.insert key network) }
    match registry.lookup key with
    | some replaced => registryRelease replaced
    | none => pure ()

/-- `CFDictionaryRemoveValue` releases the value that it removes. -/
def registryRemove (env : Environment Key) (name : CString) : BrokerM Key Unit :=
  withKey env name fun key => do
    let registry ← registryDictionary
    modify fun broker => { broker with registry := some (registry.erase key) }
    match registry.lookup key with
    | some removed => registryRelease removed
    | none => pure ()

/-- Arm the idle timer of a network; an armed timer fails the assertion. -/
def removeLater (network : Address) (calls : Calls) : BrokerM Key Unit := do
  let value ← load network
  if value.idleTimer.isSome then fail .networkTimerRunning
  else
    let timer ← createSource (.removeNetwork network) calls
    store network { value with idleTimer := some timer }

/-- The event handler of a network idle timer. -/
def removeNetworkHandler (env : Environment Key) (network : Address) : BrokerM Key Unit := do
  match (← load network).name with
  | some name => registryRemove env name
  | none => fail .nullName

def cancelRemoveLater (network : Address) : BrokerM Key Unit := do
  let value ← load network
  match value.idleTimer with
  | some timer => do
    cancelSource timer
    release timer
    store network { value with idleTimer := none }
  | none => pure ()

def peerOwnsNetwork (ctx : BrokerContext) (network : Address) : Bool := network ∈ ctx.networks

def canAddNetworkToPeer (ctx : BrokerContext) (error : Int32) : Bool × Int32 :=
  if ctx.networks.length ≥ maxPeerNetworks then (false, VmnetBrokerReturn.internalError.toInt)
  else (true, error)

def updatePeerOwnership (peer : Connection) (network : Address) (error : Int32) :
    BrokerM Key (Bool × Int32) := do
  let ctx ← context peer
  if peerOwnsNetwork ctx network then return (true, error)
  else
    match canAddNetworkToPeer ctx error with
    | (false, error) => return (false, error)
    | (true, error) =>
      setContext peer { networks := ctx.networks ++ [network] }
      let value ← load network
      store network { value with peers := value.peers + 1 }
      return (true, error)

/-- The common tail of `acquire_network`, once the network is registered. -/
def acquireRegistered (peer : Connection) (network : Address) (error : Int32) :
    BrokerM Key (Option Object × Int32) := do
  match ← updatePeerOwnership peer network error with
  | (false, error) => return (none, error)
  | (true, error) =>
    cancelRemoveLater network
    match (← load network).serialization with
    | some serialization => do
      retain serialization
      return (some serialization, error)
    | none => fail .nullObject

/-- The `net == NULL` branch of `acquire_network`, followed by the common tail. -/
def acquireUnregistered (env : Environment Key) (peer : Connection) (networkName : CString) (calls : Calls)
    (error : Int32) : BrokerM Key (Option Object × Int32) := do
  match canAddNetworkToPeer (← context peer) error with
  | (false, error) => return (none, error)
  | (true, error) =>
    match ← createNetworkConfiguration env networkName calls error with
    | (none, error) => return (none, error)
    | (some config, error) =>
      let (created, error) ← createNetwork networkName calls error
      release config
      match created with
      | none => return (none, error)
      | some network =>
        registrySet env networkName network
        acquireRegistered peer network error

def acquireNetwork (env : Environment Key) (peer : Connection) (networkName : CString) (calls : Calls)
    (error : Int32) : BrokerM Key (Option Object × Int32) := do
  initRegistry
  match ← registryGet env networkName with
  | some network => acquireRegistered peer network error
  | none => acquireUnregistered env peer networkName calls error

/-- One round of the loop in `release_peer_networks`: pop the last entry and drop its count. -/
def releaseLastNetwork (peer : Connection) (calls : Calls) : BrokerM Key Unit := do
  let ctx ← context peer
  match ctx.networks.getLast? with
  | none => pure ()
  | some network =>
    setContext peer { networks := ctx.networks.dropLast }
    let value ← load network
    store network { value with peers := value.peers - 1 }
    if value.peers - 1 = 0 then removeLater network calls else pure ()

/-- The loop runs once for each entry of the context. -/
def releaseNetworks (peer : Connection) (calls : Calls) : ℕ → BrokerM Key Unit
  | 0 => pure ()
  | count + 1 => do
    releaseLastNetwork peer calls
    releaseNetworks peer calls count

def releasePeerNetworks (peer : Connection) (calls : Calls) : BrokerM Key Unit := do
  let ctx ← context peer
  releaseNetworks peer calls ctx.networks.length

/-- Deallocating the dictionary releases each of its values. -/
def releaseValues : List Address → BrokerM Key Unit
  | [] => pure ()
  | network :: rest => do
    registryRelease network
    releaseValues rest

/-- `release_registry`. -/
def shutdownNetworks : BrokerM Key Unit := do
  match (← get).registry with
  | none => pure ()
  | some registry =>
    releaseValues (registry.entries.map (·.2))
    modify fun broker => { broker with registry := none }

end VmnetBroker
