import LedgerIntake.Command
import LedgerIntake.Network

/-!
# Sessions

A server is started on a pool and visited by one peer after another: by clients, by peers that send
bytes of their own, and by commands. The network is given from outside. A peer that it does not let
through to the server gets nothing, and the intake stays as it was.
-/

namespace LedgerIntake

/-- Why a server could not be started. -/
inductive StartError where
  | pool (error : PoolError)
  | settings (error : SettingsError)
  | unbound (address reason : String)
deriving DecidableEq

/-- The wording of an error. -/
def StartError.message [Diagnostics] : StartError → String
  | .pool error => "mempool error: " ++ error.message
  | .settings error => "configuration error: " ++ error.message
  | .unbound address reason => "failed to bind " ++ address ++ ": " ++ reason

/-- The server that settings describe. -/
def Settings.server (settings : Settings) : Server :=
  ⟨⟨settings.authToken⟩, settings.maxMessageSize⟩

/-- What a client does on its connection. -/
inductive ClientStep where
  | authenticate (token : String)
  | submitRows (rows : List Batch.Row)
  | submitPayload (payload : Bytes)

/-- What became of a step. -/
inductive StepResult where
  | authenticated
  | acknowledged (reply : Acknowledgment)
  | failed (error : ClientError)
deriving DecidableEq

/-- A peer that comes to a server. -/
inductive Visit where
  /-- A client that takes its steps until one fails. -/
  | client (steps : List ClientStep)
  /-- A peer that sends bytes and closes its side. -/
  | bytes (sent : Bytes)
  /-- A command that has read its input. -/
  | command (next : Command.Next)

/-- What a peer got. -/
inductive VisitResult where
  | steps (results : List StepResult)
  | replies (received : List Bytes)
  | outcome (outcome : Command.Outcome)
  /-- A command that serves and comes to no end of its own. -/
  | serving
  | unreachable (reason : String)

namespace ClientStep

/-- The result of a request for an acknowledgment. -/
def acknowledged : Except ClientError Acknowledgment × Link → StepResult × Link
  | (.ok reply, link) => (.acknowledged reply, link)
  | (.error error, link) => (.failed error, link)

/-- Takes a step. -/
def run [Diagnostics] (link : Link) (elapsed : Elapsed) : ClientStep → StepResult × Link
  | .authenticate token =>
    match link.authenticate token elapsed with
    | (.ok (), link) => (.authenticated, link)
    | (.error error, link) => (.failed error, link)
  | .submitRows rows => acknowledged (link.submitRows rows elapsed)
  | .submitPayload payload => acknowledged (link.submitPayload payload elapsed)

/-- Takes steps up to the first that fails. -/
def runAll [Diagnostics] (link : Link) (elapsed : Elapsed) :
    List ClientStep → List StepResult × Link
  | [] => ([], link)
  | step :: rest =>
    match step.run link elapsed with
    | (.failed error, link) => ([.failed error], link)
    | (result, link) =>
      let (results, link) := runAll link elapsed rest
      (result :: results, link)

end ClientStep

/-- What a command comes to that meets no server on a network. -/
def Command.Next.alone (network : Network) : Command.Next → VisitResult
  | .finish outcome => .outcome outcome
  | .submit address _ _ =>
    let reason := (network.obstacle? address).getD SystemFault.connectionRefused.text
    .outcome (.fail (.unconnected address (.unreachable reason)))
  | .serve settings =>
    match network.refusal? settings.listen with
    | some reason => .outcome (.fail (.unbound settings.listen reason))
    | none => .serving

/-- Where a server listens, as its settings have it, and the server. -/
structure Station where
  address : String
  server : Server

namespace Visit

/-- The visit of a peer whom nothing keeps from the server. -/
def receive [Diagnostics] (network : Network) (station : Station) (elapsed : Elapsed)
    (intake : Intake) : Visit → VisitResult × Intake
  | .client steps =>
    let (results, link) := ClientStep.runAll (Link.dial station.server intake) elapsed steps
    (.steps results, link.intake)
  | .bytes sent =>
    let served := station.server.serve (fun _ => elapsed) (.ofBytes sent) intake
    (.replies served.replies, served.intake)
  | .command (.submit address token rows) =>
    if (network.locate address).toOption = (network.locate station.address).toOption then
      let (reply, link) := (Link.dial station.server intake).submit token rows elapsed
      (.outcome (Command.submitted reply), link.intake)
    else ((Command.Next.submit address token rows).alone network, intake)
  | .command next => (next.alone network, intake)

/-- What a peer gets that is kept from the server. -/
def miss (network : Network) (reason : String) : Visit → VisitResult
  | .command next => next.alone network
  | _ => .unreachable reason

/-- A visit over a network. -/
def run [Diagnostics] (network : Network) (station : Station) (elapsed : Elapsed) (intake : Intake)
    (visit : Visit) : VisitResult × Intake :=
  match network.obstacle? station.address with
  | some reason => (visit.miss network reason, intake)
  | none => visit.receive network station elapsed intake

/-- Visits one after another. -/
def runAll [Diagnostics] (network : Network) (station : Station) (elapsed : Elapsed)
    (intake : Intake) : List Visit → List VisitResult × Intake
  | [] => ([], intake)
  | visit :: rest =>
    let (result, intake) := visit.run network station elapsed intake
    let (results, intake) := runAll network station elapsed intake rest
    (result :: results, intake)

end Visit

namespace Session

/-- Starts a server: the pool is created, then the settings are
checked, then the address is taken. -/
def start (network : Network) (capacity : Nat) (settings : Settings) :
    Except StartError (Station × Intake) :=
  match Intake.create capacity with
  | .error error => .error (.pool error)
  | .ok intake =>
    match settings.check with
    | .error error => .error (.settings error)
    | .ok settings =>
      match network.refusal? settings.listen with
      | some reason => .error (.unbound settings.listen reason)
      | none => .ok (⟨settings.listen, settings.server⟩, intake)

/-- Starts a server, lets its peers come one after another, and stops it. -/
def run [Diagnostics] (network : Network) (capacity : Nat) (settings : Settings) (elapsed : Elapsed)
    (visits : List Visit) : Except StartError (List VisitResult × Intake) :=
  (start network capacity settings).map fun (station, intake) =>
    Visit.runAll network station elapsed intake visits

end Session

end LedgerIntake
