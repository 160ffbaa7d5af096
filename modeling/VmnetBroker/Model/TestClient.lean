import VmnetBroker.Model.Session

/-! # The test client (`test/test.c`)

`test-c` acquires the networks of its command line one by one, starts an interface on each, and stops them in
reverse order. It prints one line and exits at the first failure. What `getopt_long` makes of the command line, what
vmnet answers and the end of the wait are parameters; the statuses are those of the replies that it has received
so far. Log output, the kernel queue and the dispatch objects are left out.
-/

namespace VmnetBroker

/-- `MAX_INTERFACES`. -/
def maxInterfaces : ℕ := 16

def e2big : ℤ := 7
def enomem : ℤ := 12

/-- How the process ends: the line on its standard output, or the exit status of `usage`, which prints none. -/
inductive TestOutcome where
  | ok
  | fail (step : String) (code : ℤ)
  | usage (code : ℕ)
deriving DecidableEq, Repr

/-- What `getopt_long` returns for one option. -/
inductive TestOption where
  | help
  | quick
  | missingArgument
  | invalid
deriving DecidableEq, Repr

/-- `parse_options`: the quick flag and the networks, `shared` unless there are any. -/
def parseOptions (quick : Bool) : List TestOption → List CString → Except TestOutcome (Bool × List CString)
  | .help :: _, _ => .error (.usage 0)
  | .quick :: options, arguments => parseOptions true options arguments
  | .missingArgument :: _, _ => .error (.usage 1)
  | .invalid :: _, _ => .error (.usage 1)
  | [], arguments =>
    if maxInterfaces < arguments.length then .error (.fail "parse_options" e2big)
    else .ok (quick, if arguments = [] then [.ofString "shared"] else arguments)

/-- What vmnet answers for the interface at each index: the status of a failure, or none. -/
structure TestVmnet where
  networkCreate : ℕ → Option ℤ := fun _ => none
  interfaceStart : ℕ → Option ℤ := fun _ => none
  interfaceStop : ℕ → Option ℤ := fun _ => none

/-- `stop_interfaces`, from the last interface to the first. -/
def stopInterfaces (vmnet : TestVmnet) : ℕ → Option TestOutcome
  | 0 => none
  | count + 1 =>
    match vmnet.interfaceStop count with
    | some code => some (.fail "stop_interface" code)
    | none => stopInterfaces vmnet count

/-- The end of `main`, after the wait. -/
def finishTest (vmnet : TestVmnet) (waitError : Option ℤ) (count : ℕ) : TestOutcome :=
  (stopInterfaces vmnet count).getD (waitError.elim .ok (.fail "kevent"))

/-- `acquire_network` after the reply, and `start_interface`: the failure of one round. -/
def startNetwork (vmnet : TestVmnet) (count : ℕ) (status : VmnetBrokerReturn) : Option TestOutcome :=
  if status ≠ .success then some (.fail "acquire_network" status.toInt.toInt)
  else
    match vmnet.networkCreate count with
    | some code => some (.fail "create_network" code)
    | none =>
      if maxInterfaces ≤ count then some (.fail "start_interface" enomem)
      else (vmnet.interfaceStart count).map (.fail "start_interface")

/-- The loop of `main` over the networks; without a further reply it is still waiting. -/
def testNetworks (vmnet : TestVmnet) (waitError : Option ℤ) (count : ℕ) :
    List CString → List VmnetBrokerReturn → Option TestOutcome
  | [], _ => some (finishTest vmnet waitError count)
  | _ :: _, [] => none
  | _ :: names, status :: statuses =>
    match startNetwork vmnet count status with
    | some failure => some failure
    | none => testNetworks vmnet waitError (count + 1) names statuses

/-- `main`, with the statuses of the replies so far. Only an interactive client waits. -/
def testMain (options : List TestOption) (arguments : List CString) (vmnet : TestVmnet) (waitError : Option ℤ)
    (statuses : List VmnetBrokerReturn) : Option TestOutcome :=
  match parseOptions false options arguments with
  | .error outcome => some outcome
  | .ok (quick, names) => testNetworks vmnet (if quick then none else waitError) 0 names statuses

end VmnetBroker
