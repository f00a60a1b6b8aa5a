import LedgerIntake.Diagnostics
import LedgerIntake.Pool
import LedgerIntake.Text.Utf8
import LedgerIntake.Toml

/-!
# Settings

What a server goes by: where it listens, how long messages and waits may be, how much the pool
holds, and the token that connections have to offer. Every setting has a value to begin with, and a
file may assign others. Settings are checked in a fixed order, so of several faults always the same
one is told.
-/

namespace LedgerIntake

/-- The settings of a server. -/
structure Settings where
  listen : String
  /-- The greatest length of a batch in bytes. -/
  maxMessageSize : Nat
  /-- Seconds to wait for a message. -/
  readTimeout : Nat
  /-- Seconds to wait for a reply to be taken. -/
  writeTimeout : Nat
  poolCapacity : Nat
  authToken : Option String
deriving DecidableEq

/-- A setting that no server can run with. -/
inductive SettingsFault where
  | messageSize
  | timeout
  | capacity
  | emptyToken
deriving DecidableEq

/-- Why there are no settings. -/
inductive SettingsError where
  /-- The file could not be read. -/
  | unreadable (path reason : String)
  /-- The text assigns no settings. -/
  | malformed (text : String)
  | invalid (fault : SettingsFault)
deriving DecidableEq

/-- The greatest length that fits into the four bytes in front of a message. -/
def greatestMessageSize : Nat := UInt32.size - 1

/-- The wording of a fault. -/
def SettingsFault.message : SettingsFault → String
  | .messageSize => "max_message_size must be between 1 and " ++ greatestMessageSize.repr
  | .timeout => "timeouts must be at least one second"
  | .capacity => "mempool_capacity must be at least 1"
  | .emptyToken => "auth_token must not be empty"

/-- The wording of an error. -/
def SettingsError.message [Diagnostics] : SettingsError → String
  | .unreadable path reason => "config (read): '" ++ path ++ "': " ++ reason
  | .malformed text => "config (parse): " ++ Diagnostics.ofSettings text
  | .invalid fault => "config (invalid): " ++ fault.message

namespace Settings

/-- The settings of a server that is not told otherwise. -/
def standard : Settings where
  listen := "127.0.0.1:9400"
  maxMessageSize := 52428800
  readTimeout := 30
  writeTimeout := 30
  poolCapacity := Pool.defaultCapacity
  authToken := none

/-- The first setting that no server can run with. -/
def fault? (settings : Settings) : Option SettingsFault :=
  if settings.maxMessageSize = 0 ∨ greatestMessageSize < settings.maxMessageSize then
    some .messageSize
  else if settings.readTimeout = 0 ∨ settings.writeTimeout = 0 then some .timeout
  else if settings.poolCapacity = 0 then some .capacity
  else if settings.authToken = some "" then some .emptyToken
  else none

/-- Settings that a server can run with. -/
def check (settings : Settings) : Except SettingsError Settings :=
  match settings.fault? with
  | some fault => .error (.invalid fault)
  | none => .ok settings

/-- A number that counts something. -/
def natural? (value : Int) : Option Nat := if 0 ≤ value then some value.toNat else none

/-- The settings after an assignment; unknown keys and values of another type are refused. -/
def assign? (settings : Settings) : String × Toml.Scalar → Option Settings
  | ("listen", .text value) => some { settings with listen := value }
  | ("auth_token", .text value) => some { settings with authToken := some value }
  | ("max_message_size", .integer value) =>
    (natural? value).map fun value => { settings with maxMessageSize := value }
  | ("read_timeout_secs", .integer value) =>
    (natural? value).map fun value => { settings with readTimeout := value }
  | ("write_timeout_secs", .integer value) =>
    (natural? value).map fun value => { settings with writeTimeout := value }
  | ("mempool_capacity", .integer value) =>
    (natural? value).map fun value => { settings with poolCapacity := value }
  | _ => none

/-- The settings that a text assigns, checked. -/
def ofText (text : String) : Except SettingsError Settings :=
  match (Toml.read? text).bind fun assigned => assigned.foldlM assign? standard with
  | some settings => settings.check
  | none => .error (.malformed text)

/-- What is told of a file that is not text. -/
def notText : String := "stream did not contain valid UTF-8"

/-- The settings of a file, given its contents or why it has none. -/
def ofFile (path : String) (contents : Except String Bytes) : Except SettingsError Settings :=
  match contents with
  | .error reason => .error (.unreadable path reason)
  | .ok bytes =>
    match Utf8.decode? bytes with
    | some text => ofText text
    | none => .error (.unreadable path notText)

end Settings

/-- The settings that are given in place of those of a file. -/
structure Overrides where
  listen : Option String
  poolCapacity : Option Nat
  authToken : Option String
deriving DecidableEq

/-- The settings of a file, or the standard ones, with those that are
given in place of them, checked. -/
def Overrides.resolve (overrides : Overrides) (config : Option String)
    (contents : Except String Bytes) : Except SettingsError Settings := do
  let settings ← match config with
    | some path => Settings.ofFile path contents
    | none => Except.ok Settings.standard
  Settings.check
    { settings with
      listen := overrides.listen.getD settings.listen
      poolCapacity := overrides.poolCapacity.getD settings.poolCapacity
      authToken := overrides.authToken.or settings.authToken }

end LedgerIntake
