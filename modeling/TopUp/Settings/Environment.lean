import TopUp.Settings.Section

/-! # Settings from the environment

    Each setting is a variable of the environment. Some must be set, some have a
    default, and of some a value of no use counts as not set.
-/

namespace TopUp.Settings

open TopUp.Gateway TopUp.Text

/-- The variables that are set. -/
abbrev Environment := List (String × String)

namespace Environment

/-- The value of a variable. -/
def get? (e : Environment) (name : String) : Option String := e.lookup name

/-- An unsigned number; a variable that is not set has the given text. -/
def number (e : Environment) (name text : String) (bound : Nat) : Except Fault Nat :=
  match readNat? bound ((e.get? name).getD text) with
  | some n => .ok n
  | none => .error (.invalid name)

/-- An unsigned number, or the given one if the value is of no use. -/
def numberOr (e : Environment) (name : String) (bound usual : Nat) : Nat :=
  ((e.get? name).bind (readNat? bound)).getD usual

/-- A signed number of 32 bits, or the given one if the value is of no use. -/
def signedOr (e : Environment) (name : String) (usual : Int32) : Int32 :=
  let value := (e.get? name).bind (readInt? Int32.minValue.toInt Int32.maxValue.toInt)
  (value.map Int32.ofInt).getD usual

/-- The greatest number of 64 bits. -/
def bound64 : Nat := UInt64.size - 1

end Environment

/-- Where the service listens. -/
def Server.ofEnvironment (e : Environment) : Except Fault Server := do
  let port ← e.number "PORT" "8080" (UInt16.size - 1)
  return { host := (e.get? "HOST").getD "0.0.0.0", port := UInt16.ofNat port }

namespace Database

/-- The database of the service. -/
def ofEnvironment (e : Environment) : Except Fault Database := do
  let url ← match e.get? "DATABASE_URL" with
    | some url => .ok url
    | none => .error (.missing "DATABASE_URL")
  let most ← e.number "DB_MAX_CONNECTIONS" "20" (UInt32.size - 1)
  let fewest ← e.number "DB_MIN_CONNECTIONS" "5" (UInt32.size - 1)
  let connect ← e.number "DB_CONNECTION_TIMEOUT" "30" Environment.bound64
  return {
    url := url
    maxConnections := UInt32.ofNat most
    minConnections := UInt32.ofNat fewest
    connectSeconds := UInt64.ofNat connect
    idleSeconds :=
      ((e.get? "DB_IDLE_TIMEOUT").bind (readNat? Environment.bound64)).map UInt64.ofNat }

/-- The database of the service, if its address is set and not blank. -/
def ofEnvironment? (e : Environment) : Except Fault (Option Database) :=
  match e.get? "DATABASE_URL" with
  | some url => if isBlankText url then .ok none else (ofEnvironment e).map some
  | none => .ok none

end Database

/-- What is logged. -/
def Logging.ofEnvironment (e : Environment) : Logging :=
  { level := (e.get? "LOG_LEVEL").getD "INFO"
    json := spellsLower ((e.get? "LOG_FORMAT").getD "plain") "json" }

/-- A variable of the merchant account that must be set and not blank. -/
def required (e : Environment) (name : String) : Except Gateway.Failure String :=
  match (e.get? name).filter fun v => !isBlankText v with
  | some v => .ok v
  | none => .error (.invalidField name (name ++ " environment variable is required"))

/-- The merchant account. -/
def merchantOfEnvironment (e : Environment) : Except Gateway.Failure Merchant := do
  let usual : Merchant := {}
  let merchantId ← required e "JAZZCASH_MERCHANT_ID"
  let password ← required e "JAZZCASH_PASSWORD"
  let salt ← required e "JAZZCASH_INTEGRITY_SALT"
  return {
    merchantId, password, salt
    returnUrl := (e.get? "JAZZCASH_RETURN_URL").getD ""
    walletUrl := (e.get? "JAZZCASH_WALLET_PAYMENT_URL").getD usual.walletUrl
    cardUrl := (e.get? "JAZZCASH_CARD_PAYMENT_URL").getD usual.cardUrl
    inquiryUrl := (e.get? "JAZZCASH_STATUS_INQUIRY_URL").getD usual.inquiryUrl
    timeoutSeconds :=
      e.numberOr "JAZZCASH_TIMEOUT_SECONDS" Environment.bound64 usual.timeoutSeconds }

/-- The settings of payment calls. -/
def callsOfEnvironment (e : Environment) : CallSettings :=
  let usual : CallSettings := {}
  { description :=
      ((e.get? "JAZZCASH_DESCRIPTION").filter fun v => !isBlankText v).getD usual.description
    reconcileSeconds :=
      e.numberOr "RECONCILE_DEADLINE_SECONDS" Environment.bound64 usual.reconcileSeconds
    utcOffsetMinutes := e.signedOr "JAZZCASH_UTC_OFFSET_MINUTES" usual.utcOffsetMinutes }

/-- The pace of poll loops. The variables are in seconds. -/
def paceOfEnvironment (e : Environment) : Poll.Pace :=
  let usual : Poll.Pace := {}
  { interval := 1000 * e.numberOr "POLL_INTERVAL_SECONDS" Environment.bound64
      (usual.interval / 1000)
    deadline := 1000 * e.numberOr "POLL_DEADLINE_SECONDS" Environment.bound64
      (usual.deadline / 1000)
    maxConcurrent := e.numberOr "GATEWAY_MAX_CONCURRENT" Environment.bound64
      usual.maxConcurrent }

/-- A fault of the merchant account, as a fault of the settings. -/
def merchantFault : Gateway.Failure → Fault
  | .invalid _ (some field) => .missing field
  | cause => .refused cause.message

/-- All settings. -/
def ofEnvironment (e : Environment) : Except Fault Settings := do
  -- the merchant account is reported first
  let merchant ← (merchantOfEnvironment e).mapError merchantFault
  let server ← Server.ofEnvironment e
  let database ← Database.ofEnvironment? e
  return {
    server, database, merchant
    logging := Logging.ofEnvironment e
    calls := callsOfEnvironment e
    pace := paceOfEnvironment e }

end TopUp.Settings
