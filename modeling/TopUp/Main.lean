import TopUp.Settings.Startup

/-! # The command

    Starts the service with the settings of its environment. This program opens no
    sockets, so it runs as on a machine without a network: it tells the first thing
    that keeps the service from listening, and ends with exit status 1.
-/

namespace TopUp.Main

open TopUp.Settings

/-- The names of the variables that the settings are read from. -/
def names : List String :=
  ["HOST", "PORT", "DATABASE_URL", "DB_MAX_CONNECTIONS", "DB_MIN_CONNECTIONS",
   "DB_CONNECTION_TIMEOUT", "DB_IDLE_TIMEOUT", "SKIP_EXTERNALS", "LOG_LEVEL", "LOG_FORMAT",
   "JAZZCASH_MERCHANT_ID", "JAZZCASH_PASSWORD", "JAZZCASH_INTEGRITY_SALT",
   "JAZZCASH_RETURN_URL", "JAZZCASH_WALLET_PAYMENT_URL", "JAZZCASH_CARD_PAYMENT_URL",
   "JAZZCASH_STATUS_INQUIRY_URL", "JAZZCASH_TIMEOUT_SECONDS", "JAZZCASH_DESCRIPTION",
   "JAZZCASH_UTC_OFFSET_MINUTES", "RECONCILE_DEADLINE_SECONDS", "POLL_INTERVAL_SECONDS",
   "POLL_DEADLINE_SECONDS", "GATEWAY_MAX_CONCURRENT"]

/-- The variables that are set. -/
def environment : IO Environment :=
  names.filterMapM fun name => return (← IO.getEnv name).map fun value => (name, value)

end TopUp.Main

/-- The command. -/
def main : IO UInt32 := do
  match TopUp.Settings.start .isolated TopUp.Digest.hmacSha256 (← TopUp.Main.environment) with
  | .error cause => IO.eprintln ("Error: " ++ cause.message); return 1
  | .ok _ => return 0
