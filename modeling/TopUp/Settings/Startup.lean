import TopUp.Net.SocketAddress
import TopUp.Settings.Environment

/-! # Starting the service

    The service reads its settings, checks them, connects to its database unless it
    is told to do without, opens the merchant account and then listens. The first
    thing that goes wrong ends it. What the machine answers to a connection or to an
    address is a parameter; `Outside.isolated` is a machine without a network.
-/

namespace TopUp.Settings

open TopUp.Text

/-- Why the service did not start. -/
inductive StartFailure where
  /-- The settings are of no use. -/
  | settings (cause : Fault)
  /-- The database cannot be reached. -/
  | store (cause : Store.Failure)
  /-- The merchant account is of no use. -/
  | merchant (cause : Gateway.Failure)
  /-- The host and the port are no socket address. -/
  | address
  /-- The address cannot be listened on. -/
  | listening (message : String)
  deriving DecidableEq

/-- The wording of a failure. -/
def StartFailure.message : StartFailure → String
  | .settings cause => cause.message
  | .store cause => cause.message
  | .merchant cause => cause.message
  | .address => "invalid socket address syntax"
  | .listening m => m

/-! ### The machine -/

/-- What the machine answers. -/
structure Outside where
  /-- The fault met when connecting to a database, if any. -/
  connect : Database → Option Store.Fault
  /-- The wording of the error met when listening on an address, if any. -/
  listen : Net.SocketAddress → Option String

/-- Whether an address names its scheme: a letter, then letters, digits, plus signs,
    hyphens and points, up to a colon. -/
def hasScheme (url : String) : Bool :=
  let name := url.toList.takeWhile (· != ':')
  let others := fun c : Char => c.isAlphanum || c = '+' || c = '-' || c = '.'
  name.length < url.length && (name.head?.map Char.isAlpha).getD false && name.all others

/-- What follows a mark in a text. -/
def behind (mark : Char) (cs : List Char) : List Char := (cs.dropWhile (· != mark)).tail

/-- A text cut at every mark. -/
def cutAt (mark : Char) : List Char → List (List Char)
  | [] => [[]]
  | c :: rest =>
    if c = mark then [] :: cutAt mark rest
    else match cutAt mark rest with
      | piece :: pieces => (c :: piece) :: pieces
      | [] => [[c]]

/-- Whether the query of an address names a directory of local sockets as the host. -/
def namesDirectory (url : String) : Bool :=
  let query := (behind '?' url.toList).takeWhile (· != '#')
  (cutAt '&' query).any fun part => "host=/".toList.isPrefixOf part

/-- A machine without a network and without local sockets, on which no address can be
    listened on. -/
def Outside.isolated : Outside :=
  { connect := fun d =>
      some (if !hasScheme d.url then .settings "relative URL without a base"
        else if namesDirectory d.url then .connection "No such file or directory (os error 2)"
        else .poolTimedOut)
    listen := fun _ => some "Cannot assign requested address (os error 99)" }

/-! ### Starting -/

/-- Whether the service is told to do without a database. -/
def skipsExternals (e : Environment) : Bool :=
  spellsLower ((e.get? "SKIP_EXTERNALS").getD "false") "true"

/-- The database that is connected to. -/
def databaseToReach (e : Environment) (s : Settings) : Option Database :=
  if skipsExternals e then none else s.database

/-- Starts the service, up to listening. -/
def start (o : Outside) (mac : Gateway.Mac) (e : Environment) : Except StartFailure Settings := do
  let s ← (ofEnvironment e).mapError .settings
  (s.validate).mapError .settings
  match (databaseToReach e s).bind o.connect with
  | some fault => throw (.store fault.failure)
  | none => pure ()
  let _ ← (Gateway.Client.open? mac s.merchant).mapError .merchant
  match Net.SocketAddress.parse? s.server.bindAddress with
  | none => throw .address
  | some address =>
    match o.listen address with
    | some m => throw (.listening m)
    | none => return s

end TopUp.Settings
