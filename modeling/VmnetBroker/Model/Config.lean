import VmnetBroker.Model.State

/-! # Configured networks (`broker/config.c`)

The table of configured networks is a parameter: `builtinNetworks` is the one compiled into the
broker, and every result below holds for any finite table, with or without static subnets. The
CoreFoundation string constructor is the other parameter of an environment. It rejects exactly
the byte strings that are not valid UTF-8; nothing else about the keys it builds is assumed.
-/

namespace VmnetBroker

open BrokerM

inductive VmnetMode where
  | shared
  | host
deriving DecidableEq, Repr

/-- `struct network_config`; a NULL subnet or mask lets vmnet choose both. -/
structure NetworkConfig where
  name : CString
  mode : VmnetMode
  subnet : Option CString := none
  mask : Option CString := none
deriving DecidableEq, Repr

def builtinNetworks : List NetworkConfig :=
  [{ name := .ofString "shared", mode := .shared }, { name := .ofString "host", mode := .host }]

/-- The configured networks and the key constructor of the registry. -/
structure Environment (Key : Type) where
  networks : List NetworkConfig
  /-- `CFStringCreateWithCString` with `kCFStringEncodingUTF8`; `none` is NULL. -/
  createWithCString : CString → Option Key
  createWithCString_isSome : ∀ name, (createWithCString name).isSome = true ↔ name.ValidUtf8

/-- Distinct names have distinct registry keys. -/
def Environment.DistinctKeys {Key : Type} (env : Environment Key) : Prop :=
  ∀ first second key, env.createWithCString first = some key →
    env.createWithCString second = some key → first = second

/-- The compiled-in table, with the UTF-8 bytes of a name as its key. -/
def builtinEnvironment : Environment (List UInt8) where
  networks := builtinNetworks
  createWithCString name := if name.ValidUtf8 then some name.bytes else none
  createWithCString_isSome name := by split <;> simp [*]

variable {Key : Type}

theorem builtinEnvironment_distinctKeys : builtinEnvironment.DistinctKeys := by
  intro first second key left right
  simp only [builtinEnvironment, Option.ite_none_right_eq_some, Option.some.injEq] at left right
  obtain ⟨first, _⟩ := first
  obtain ⟨second, _⟩ := second
  simp_all

theorem Environment.exists_key (env : Environment Key) {name : CString} (valid : name.ValidUtf8) :
    ∃ key, env.createWithCString name = some key :=
  Option.isSome_iff_exists.mp ((env.createWithCString_isSome name).mpr valid)

/-- The first configured network whose name compares equal. -/
def findNetworkConfig (env : Environment Key) (name : CString) (error : Int32) :
    Option NetworkConfig × Int32 :=
  match env.networks.find? (·.name = name) with
  | some config => (some config, error)
  | none => (none, VmnetBrokerReturn.notFound.toInt)

/-- The name occurs in the table. -/
def Environment.Configured (env : Environment Key) (name : CString) : Prop :=
  ∃ config ∈ env.networks, config.name = name

/-- The static subnet branch is taken only when both fields are set. -/
def NetworkConfig.static (config : NetworkConfig) : Bool := config.subnet.isSome && config.mask.isSome

/-- The cleanup label of `create_vmnet_configuration`. -/
def createVmnetConfigurationError (configuration : Object) : BrokerM Key (Option Object × Int32) := do
  release configuration
  return (none, VmnetBrokerReturn.createFailure.toInt)

def createVmnetConfiguration (config : NetworkConfig) (calls : Calls) (error : Int32) :
    BrokerM Key (Option Object × Int32) := do
  if !calls.vmnetNetworkConfigurationCreate then
    return (none, VmnetBrokerReturn.createFailure.toInt)
  else
    let configuration ← create .configuration
    if config.static then
      if !calls.inetPtonSubnet then createVmnetConfigurationError configuration
      else if !calls.inetPtonMask then createVmnetConfigurationError configuration
      else if !calls.vmnetNetworkConfigurationSetIpv4Subnet then
        createVmnetConfigurationError configuration
      else return (some configuration, error)
    else return (some configuration, error)

def createNetworkConfiguration (env : Environment Key) (name : CString) (calls : Calls)
    (error : Int32) : BrokerM Key (Option Object × Int32) := do
  match findNetworkConfig env name error with
  | (none, error) => return (none, error)
  | (some config, error) => createVmnetConfiguration config calls error

/-- Every call on the way to a configuration of this network succeeds. -/
def Calls.configures (calls : Calls) (config : NetworkConfig) : Bool :=
  calls.vmnetNetworkConfigurationCreate && (!config.static ||
    (calls.inetPtonSubnet && calls.inetPtonMask && calls.vmnetNetworkConfigurationSetIpv4Subnet))

variable {env : Environment Key} {name : CString} {calls : Calls} {error : Int32} {broker : Broker Key}

theorem findNetworkConfig_eq_some {config : NetworkConfig}
    (found : env.networks.find? (·.name = name) = some config) :
    findNetworkConfig env name error = (some config, error) := by
  simp only [findNetworkConfig, found]

theorem findNetworkConfig_eq_none (missing : ¬ env.Configured name) :
    findNetworkConfig env name error = (none, VmnetBrokerReturn.notFound.toInt) := by
  have absent : env.networks.find? (·.name = name) = none := by
    apply List.find?_eq_none.mpr
    intro config member same
    exact missing ⟨config, member, by simpa using same⟩
  simp only [findNetworkConfig, absent]

theorem Environment.Configured.find (configured : env.Configured name) :
    ∃ config, env.networks.find? (·.name = name) = some config := by
  obtain ⟨config, member, same⟩ := configured
  apply Option.isSome_iff_exists.mp
  rw [List.find?_isSome]
  exact ⟨config, member, by simpa using same⟩

theorem Environment.configured_of_find {config : NetworkConfig}
    (found : env.networks.find? (·.name = name) = some config) : env.Configured name :=
  ⟨config, List.mem_of_find?_eq_some found, by simpa using List.find?_some found⟩

/-- A configuration is handed out, with its one reference, exactly when every call succeeds. -/
theorem run_createVmnetConfiguration_ok {config : NetworkConfig} (good : calls.configures config = true) :
    (createVmnetConfiguration config calls error).run broker =
      .ok ((some ⟨.configuration, broker.nextObject⟩, error), { broker with
        objects := ⟨.configuration, broker.nextObject⟩ ::ₘ broker.objects
        nextObject := broker.nextObject + 1 }) := by
  simp only [Calls.configures, Bool.and_eq_true, Bool.or_eq_true, Bool.not_eq_true'] at good
  obtain ⟨created, static | ⟨⟨subnet, mask⟩, set⟩⟩ := good
  · simp [createVmnetConfiguration, created, static]
  · simp [createVmnetConfiguration, created, subnet, mask, set]

/-- Every failure exit gives back the reference it obtained. -/
theorem run_createVmnetConfiguration_error {config : NetworkConfig} (bad : calls.configures config = false) :
    ∃ next, broker.nextObject ≤ next ∧ (createVmnetConfiguration config calls error).run broker =
      .ok ((none, VmnetBrokerReturn.createFailure.toInt), { broker with nextObject := next }) := by
  cases created : calls.vmnetNetworkConfigurationCreate with
  | false => exact ⟨broker.nextObject, le_rfl, by simp [createVmnetConfiguration, created]⟩
  | true =>
    refine ⟨broker.nextObject + 1, Nat.le_succ _, ?_⟩
    simp only [Calls.configures, created, Bool.true_and, Bool.or_eq_false_iff, Bool.not_eq_false'] at bad
    obtain ⟨static, failed⟩ := bad
    cases subnet : calls.inetPtonSubnet <;> cases mask : calls.inetPtonMask <;>
      cases set : calls.vmnetNetworkConfigurationSetIpv4Subnet <;>
      simp_all [createVmnetConfiguration, createVmnetConfigurationError, run_release]

theorem run_createNetworkConfiguration_ok (error : Int32) {config : NetworkConfig}
    (configured : env.networks.find? (·.name = name) = some config) (good : calls.configures config = true) :
    (createNetworkConfiguration env name calls error).run broker =
      .ok ((some ⟨.configuration, broker.nextObject⟩, error), { broker with
        objects := ⟨.configuration, broker.nextObject⟩ ::ₘ broker.objects
        nextObject := broker.nextObject + 1 }) := by
  simp only [createNetworkConfiguration, findNetworkConfig_eq_some configured]
  exact run_createVmnetConfiguration_ok good

theorem run_createNetworkConfiguration_error (broker : Broker Key) (error : Int32) {config : NetworkConfig}
    (configured : env.networks.find? (·.name = name) = some config) (bad : calls.configures config = false) :
    ∃ next, broker.nextObject ≤ next ∧ (createNetworkConfiguration env name calls error).run broker =
      .ok ((none, VmnetBrokerReturn.createFailure.toInt), { broker with nextObject := next }) := by
  simp only [createNetworkConfiguration, findNetworkConfig_eq_some configured]
  exact run_createVmnetConfiguration_error bad

theorem run_createNetworkConfiguration_notFound (error : Int32) (missing : ¬ env.Configured name) :
    (createNetworkConfiguration env name calls error).run broker =
      .ok ((none, VmnetBrokerReturn.notFound.toInt), broker) := by
  simp [createNetworkConfiguration, findNetworkConfig_eq_none missing]

end VmnetBroker
