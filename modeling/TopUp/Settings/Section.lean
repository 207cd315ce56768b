import TopUp.Call.Initiation
import TopUp.Problem.Kind
import TopUp.Text.Letters

/-! # Settings

    The settings of the service come in sections: where it listens, its database, its
    log, its merchant account, its calls and its poll loops. Each section can be
    checked by itself; the whole is checked in that order and the first fault counts.
-/

namespace TopUp.Settings

open TopUp.Text

/-- Why settings are of no use. -/
inductive Fault where
  /-- A variable is not set. -/
  | missing (name : String)
  /-- A variable has a value of no use. -/
  | invalid (what : String)
  /-- A section was refused. -/
  | refused (message : String)
  deriving DecidableEq, Repr

namespace Fault

/-- The wording of a fault. -/
def message : Fault → String
  | .missing name => "Missing environment variable: " ++ name
  | .invalid what => "Invalid value for configuration: " ++ what
  | .refused m => "Validation failed: " ++ m

/-- The kind of problem that a fault is reported as. -/
def problem (f : Fault) : Problem.Kind := .configuration f.message

end Fault

/-! ### Where the service listens -/

/-- Where the service listens. -/
structure Server where
  host : String
  port : UInt16
  deriving DecidableEq, Repr

namespace Server

/-- A port must be named, and a host. -/
def validate (s : Server) : Except Fault Unit :=
  if s.port = 0 then .error (.invalid "PORT cannot be 0")
  else if s.host.isEmpty then .error (.invalid "HOST cannot be empty")
  else .ok ()

/-- The address as text. -/
def bindAddress (s : Server) : String := s.host ++ ":" ++ decimal s.port.toNat

end Server

/-! ### The database -/

/-- The database of the service. Times are in seconds. -/
structure Database where
  /-- The address. -/
  url : String
  /-- The most connections. -/
  maxConnections : UInt32
  /-- The fewest connections. -/
  minConnections : UInt32
  /-- How long to wait for a connection. -/
  connectSeconds : UInt64
  /-- How long a connection may be idle. -/
  idleSeconds : Option UInt64
  deriving DecidableEq, Repr

/-- How connections are kept. Times are in seconds. -/
structure Pool where
  /-- The most connections. -/
  maxConnections : UInt32 := 20
  /-- The fewest connections. -/
  minConnections : UInt32 := 5
  /-- How long to wait for a connection. -/
  connectSeconds : UInt64 := 30
  /-- How long a connection may be idle. -/
  idleSeconds : UInt64 := 600
  /-- How long a connection may live. -/
  lifetimeSeconds : UInt64 := 1800
  deriving DecidableEq, Repr

namespace Database

/-- An address must be given, and room for at least one connection. -/
def validate (d : Database) : Except Fault Unit :=
  if d.url.isEmpty then .error (.invalid "DATABASE_URL")
  else if d.maxConnections = 0 then .error (.invalid "DB_MAX_CONNECTIONS")
  else if d.maxConnections < d.minConnections then
    .error (.invalid "DB_MIN_CONNECTIONS must be <= DB_MAX_CONNECTIONS")
  else .ok ()

/-- How the connections to a database are kept. -/
def pool (d : Database) : Pool :=
  { maxConnections := d.maxConnections
    minConnections := d.minConnections
    connectSeconds := d.connectSeconds
    idleSeconds := d.idleSeconds.getD 600 }

end Database

/-! ### The log -/

/-- What is logged. -/
structure Logging where
  level : String
  json : Bool
  deriving DecidableEq, Repr

namespace Logging

/-- The levels. -/
def levels : List String := ["TRACE", "DEBUG", "INFO", "WARN", "ERROR"]

/-- The level must be one of the known ones, in any letter case. -/
def validate (l : Logging) : Except Fault Unit :=
  if levels.any fun w => spellsUpper l.level w then .ok () else .error (.invalid "LOG_LEVEL")

end Logging

end TopUp.Settings

/-! ### The whole -/

namespace TopUp

/-- All settings of the service. -/
structure Settings where
  /-- Where it listens. -/
  server : Settings.Server
  /-- Its database; without one the store is in memory. -/
  database : Option Settings.Database
  /-- Its log. -/
  logging : Settings.Logging
  /-- Its merchant account. -/
  merchant : Gateway.Merchant
  /-- Its payment calls. -/
  calls : CallSettings
  /-- Its poll loops. -/
  pace : Poll.Pace

namespace Settings

/-- Checks all sections. -/
def validate (s : Settings) : Except Fault Unit := do
  s.server.validate
  match s.database with
  | some d => d.validate
  | none => pure ()
  s.logging.validate
  match s.merchant.validate with
  | .ok () => pure ()
  | .error cause => throw (.refused cause.message)
  match s.pace.validate with
  | .ok () => pure ()
  | .error cause => throw (.refused cause.message)

end Settings

end TopUp
