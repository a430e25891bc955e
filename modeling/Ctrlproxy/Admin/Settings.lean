import Ctrlproxy.Base.Decimal
import Ctrlproxy.Lib.Place
import Ctrlproxy.Proxy.Learning
import Ctrlproxy.Proxy.Pipeline

/-!
# Admin — the settings

The table `settings` of `src/admin.c`, with the function that shows each setting and the one that changes
it.  A setting is a place in the state of the proxy (`Setting.place`): what its set function changes is
there, and its get function shows what is there.  The places of two settings are apart, so that a set
function is not seen by the get function of another setting (`set_other`).

Left out: what `SET` prints without arguments.
-/

namespace Ctrlproxy.Admin
open Outcome

/-! ### Data -/

/-- What the settings need of `struct listener_config`. -/
structure ListenerConfig where
  password : Option Str
  address : Option Str
  port : Option Str
  network : Option Str
  isDefault : Bool

/-- The fields of a listener that are settings. -/
inductive ListenerField where
  | password
  | address
  | port
  | network
  deriving DecidableEq

def ListenerField.get : ListenerField → ListenerConfig → Option Str
  | .password, l => l.password
  | .address, l => l.address
  | .port, l => l.port
  | .network, l => l.network

def ListenerField.set : ListenerField → Option Str → ListenerConfig → ListenerConfig
  | .password, value, l => { l with password := value }
  | .address, value, l => { l with address := value }
  | .port, value, l => { l with port := value }
  | .network, value, l => { l with network := value }

theorem ListenerField.get_set (f : ListenerField) (value : Option Str) (l : ListenerConfig) :
    f.get (f.set value l) = value := by
  cases f <;> rfl

theorem ListenerField.get_set_other {f f' : ListenerField} (h : f ≠ f') (value : Option Str)
    (l : ListenerConfig) : f.get (f'.set value l) = f.get l := by
  cases f <;> cases f' <;> first | exact absurd rfl h | rfl

theorem ListenerField.isDefault_set (f : ListenerField) (value : Option Str) (l : ListenerConfig) :
    (f.set value l).isDefault = l.isDefault := by
  cases f <;> rfl

/-- `struct auto_away_config`. -/
structure AutoAwayConfig where
  maxIdleTime : ℤ
  clientLimit : ℤ
  enabled : Bool
  message : Option Str
  nick : Option Str

/-- What the settings need of `struct ctrlproxy_config`: `logFile` is whether the log is `is_irssi`. -/
structure CtrlproxyConfig where
  autosave : Bool
  motdFile : Option Str
  defaultNick : Option Str
  defaultUsername : Option Str
  defaultRealname : Option Str
  replication : Option Str
  clientCharset : Option Str
  adminLog : Bool
  adminUser : Option Str
  reportTime : ReportTime
  reportTimeOffset : ℤ
  maxWhoAge : ℤ
  listeners : List ListenerConfig
  learnNickserv : Bool
  learnNetworkName : Bool
  autoAway : AutoAwayConfig
  logFile : Option Bool

/-- `struct global`, `current_log_level` and the names of the registered `backends`. -/
structure Global where
  config : CtrlproxyConfig
  currentLogLevel : ℤ
  backends : List Str

/-- What a set function returns, the state it leaves, and what it gives to `admin_out`. -/
structure Reply where
  accepted : Bool
  global : Global
  out : List Str

/-! ### Values -/

/-- `G_MAXINT`. -/
def G_MAXINT : ℤ := 2 ^ 31 - 1

/-- `g_ascii_string_to_signed` in base 10. -/
def gAsciiStringToSigned (s : Str) (min max : ℤ) : Option ℤ :=
  match s with
  | [] => none
  | b :: s =>
      let r := strtol (b :: s) 10
      if b.isSpace ∨ r.2 ≠ [] ∨ r.1.1 < min ∨ r.1.1 > max then none else some r.1.1

/-- `%s` of a string that may be `NULL`. -/
def printed (value : Option Str) : Str := value.getD (str "(null)")

/-- `repl_find_backend`. -/
def replFindBackend (backends : List Str) (name : Option Str) : Option Str :=
  backends.find? (· = name.getD (str "none"))

/-- What a set function makes of a value: it is refused, or there is something to store. -/
inductive Check (α : Type) where
  | refused (out : List Str)
  | stores (a : α) (out : List Str)

/-- A set function: the value is looked at, and what it makes is stored if the place is there. -/
def change {α : Type} (p : Place Global α) (check : Global → Option Str → Except Fault (Check α))
    (g : Global) (value : Option Str) : Except Fault Reply := do
  match ← check g value with
  | .refused out => pure ⟨false, g, out⟩
  | .stores a out => match p.write a g with
      | some g' => pure ⟨true, g', out⟩
      | none => pure ⟨false, g, out⟩

/-! ### Places -/

namespace At

/-- A field of `g->config`. -/
def config {α : Type} (get : CtrlproxyConfig → α) (set : α → CtrlproxyConfig → CtrlproxyConfig)
    (h : ∀ a c, get (set a c) = a) : Place Global α :=
  .field (fun g => get g.config) (fun a g => { g with config := set a g.config }) fun a g => h a g.config

/-- A field of the first listener that `is_default`. -/
def listener (f : ListenerField) : Place Global (Option Str) :=
  .inside (·.config.listeners) (fun ls g => { g with config.listeners := ls }) (fun _ _ => rfl)
    (.first (·.isDefault) f.get f.set f.get_set f.isDefault_set)

def autosave := config (·.autosave) (fun a c => { c with autosave := a }) fun _ _ => rfl
def motdFile := config (·.motdFile) (fun a c => { c with motdFile := a }) fun _ _ => rfl
def defaultNick := config (·.defaultNick) (fun a c => { c with defaultNick := a }) fun _ _ => rfl
def defaultUsername := config (·.defaultUsername) (fun a c => { c with defaultUsername := a }) fun _ _ => rfl
def defaultRealname := config (·.defaultRealname) (fun a c => { c with defaultRealname := a }) fun _ _ => rfl
def replication := config (·.replication) (fun a c => { c with replication := a }) fun _ _ => rfl
def clientCharset := config (·.clientCharset) (fun a c => { c with clientCharset := a }) fun _ _ => rfl
def adminLog := config (·.adminLog) (fun a c => { c with adminLog := a }) fun _ _ => rfl
def adminUser := config (·.adminUser) (fun a c => { c with adminUser := a }) fun _ _ => rfl
def reportTime := config (·.reportTime) (fun a c => { c with reportTime := a }) fun _ _ => rfl
def reportTimeOffset := config (·.reportTimeOffset) (fun a c => { c with reportTimeOffset := a }) fun _ _ => rfl
def maxWhoAge := config (·.maxWhoAge) (fun a c => { c with maxWhoAge := a }) fun _ _ => rfl
def learnNickserv := config (·.learnNickserv) (fun a c => { c with learnNickserv := a }) fun _ _ => rfl
def learnNetworkName := config (·.learnNetworkName) (fun a c => { c with learnNetworkName := a }) fun _ _ => rfl
def logFile := config (·.logFile) (fun a c => { c with logFile := a }) fun _ _ => rfl

def autoAwayTime :=
  config (·.autoAway.maxIdleTime) (fun a c => { c with autoAway.maxIdleTime := a }) fun _ _ => rfl
def autoAwayClientLimit :=
  config (·.autoAway.clientLimit) (fun a c => { c with autoAway.clientLimit := a }) fun _ _ => rfl
def autoAwayEnabled := config (·.autoAway.enabled) (fun a c => { c with autoAway.enabled := a }) fun _ _ => rfl
def autoAwayMessage := config (·.autoAway.message) (fun a c => { c with autoAway.message := a }) fun _ _ => rfl
def autoAwayNick := config (·.autoAway.nick) (fun a c => { c with autoAway.nick := a }) fun _ _ => rfl

/-- `current_log_level`. -/
def logLevel : Place Global ℤ :=
  .field (·.currentLogLevel) (fun a g => { g with currentLogLevel := a }) fun _ _ => rfl

end At

/-! ### Get functions -/

/-- A string is shown as it is. -/
def textGet (p : Place Global (Option Str)) (g : Global) : Option Str := (p.read g).join

def boolName (b : Bool) : Str := if b then str "true" else str "false"

def boolGet (p : Place Global Bool) (g : Global) : Option Str := (p.read g).map boolName

/-- A number is shown, but zero. -/
def numName (n : ℤ) : Option Str := if n = 0 then none else some (decimalInt n)

def numGet (p : Place Global ℤ) (g : Global) : Option Str := (p.read g).bind numName

/-- A number is shown, whatever it is. -/
def numGetAlways (p : Place Global ℤ) (g : Global) : Option Str := (p.read g).map decimalInt

/-- The name of a `report_time`. -/
def reportTimeName : ReportTime → Str
  | .always => str "always"
  | .never => str "never"
  | .replication => str "replication"

/-- What `logging_get` says of `log_file`. -/
def logFileName : Option Bool → Str
  | none => str "none"
  | some true => str "irssi"
  | some false => str "custom"

def adminLogGet := boolGet At.adminLog
def adminUserGet := textGet At.adminUser
def autoAwayEnableGet := boolGet At.autoAwayEnabled
def autoAwayClientLimitGet := numGetAlways At.autoAwayClientLimit
def autoAwayMessageGet := textGet At.autoAwayMessage
def autoAwayNickGet := textGet At.autoAwayNick
def autoAwayTimeGet := numGet At.autoAwayTime
def autosaveGet := boolGet At.autosave
def bindGet := textGet (At.listener .address)
def defaultClientCharsetGet := textGet At.clientCharset
def defaultNetworkGet := textGet (At.listener .network)
def learnNetworkNameGet := boolGet At.learnNetworkName
def learnNickservGet := boolGet At.learnNickserv
def logLevelGet := numGetAlways At.logLevel
def loggingGet (g : Global) : Option Str := (At.logFile.read g).map logFileName
def maxWhoAgeGet := numGet At.maxWhoAge
def motdFileGet := textGet At.motdFile
def passwordGet := textGet (At.listener .password)
def portGet := textGet (At.listener .port)
def reportTimeGet (g : Global) : Option Str := (At.reportTime.read g).map reportTimeName
def reportTimeOffsetGet := numGet At.reportTimeOffset
def replicationGet := textGet At.replication
def defaultNickGet := textGet At.defaultNick
def defaultUsernameGet := textGet At.defaultUsername
def defaultFullnameGet := textGet At.defaultRealname

/-! ### Set functions -/

/-- A string is stored as it is, and `NULL` too. -/
def anyText (_ : Global) (value : Option Str) : Except Fault (Check (Option Str)) := .ok (.stores value [])

/-- `interpret_boolean`. -/
def interpretBoolean (_ : Global) (value : Option Str) : Except Fault (Check Bool) :=
  match value with
  | none => .ok (.refused [str "Boolean settings can't be unset."])
  | some v =>
      if strcasecmpEq v (str "true") then .ok (.stores true [])
      else if strcasecmpEq v (str "false") then .ok (.stores false [])
      else .ok (.refused [str "Invalid boolean value `" ++ v ++ str "'"])

/-- A number from `min` on is stored, and `unset` for anything else. -/
def numberFrom (min unset : ℤ) (_ : Global) (value : Option Str) : Except Fault (Check ℤ) :=
  .ok (.stores ((value.bind (gAsciiStringToSigned · min G_MAXINT)).getD unset) [])

/-- A word is stored: it is not empty, has no spaces and does not begin with a colon. -/
def word (what : Str) (_ : Global) (value : Option Str) : Except Fault (Check (Option Str)) :=
  match value with
  | none => .error .null
  | some v =>
      if v.length = 0 then .ok (.refused [what ++ str " can't be empty."])
      else if chr ' ' ∈ v then .ok (.refused [what ++ str " can't contain spaces."])
      else if v.head? = some (chr ':') then .ok (.refused [what ++ str " can't start with semicolon."])
      else .ok (.stores (some v) [])

/-- What `admin_user_set` stores: the value where it is empty, and `NULL` where it is not. -/
def adminUserCheck (_ : Global) (value : Option Str) : Except Fault (Check (Option Str)) :=
  match value with
  | none => .error .null
  | some v => .ok (.stores (if v.length = 0 then some v else none) [])

def logLevelCheck (_ : Global) (value : Option Str) : Except Fault (Check ℤ) :=
  match value with
  | none => .ok (.refused [])
  | some v => match gAsciiStringToSigned v 0 5 with
      | none => .ok (.refused [str "Invalid log level '" ++ v ++ str "' (must be 0-5)"])
      | some x => .ok (.stores x [str "Log level changed to " ++ decimalInt x])

def loggingCheck (_ : Global) (_ : Option Str) : Except Fault (Check (Option Bool)) := .ok (.refused [])

/-- What `motd_file_set` stores: `g_file_test` says whether there is a file, and there is none for `NULL`. -/
def motdFileCheck (gFileTest : Str → Bool) (_ : Global) (name : Option Str) :
    Except Fault (Check (Option Str)) :=
  if name.any gFileTest then .ok (.stores name [])
  else .ok (.refused [printed name ++ str ": file does not exist"])

def reportTimeCheck (_ : Global) (value : Option Str) : Except Fault (Check ReportTime) :=
  match value with
  | none => .error .null
  | some v =>
      if strcasecmpEq v (str "never") ∨ strcasecmpEq v (str "false") then .ok (.stores .never [])
      else if strcasecmpEq v (str "always") then .ok (.stores .always [])
      else if strcasecmpEq v (str "replication") ∨ strcasecmpEq v (str "true") then
        .ok (.stores .replication [])
      else .ok (.refused [])

def replicationCheck (g : Global) (value : Option Str) : Except Fault (Check (Option Str)) :=
  match replFindBackend g.backends value with
  | none => .ok (.refused [str "No such replication backend `" ++ printed value ++ str "'"])
  | some _ => .ok (.stores value [])

def defaultFullnameCheck (_ : Global) (value : Option Str) : Except Fault (Check (Option Str)) :=
  match value with
  | none => .error .null
  | some v =>
      if v.length = 0 then .ok (.refused [str "Fullname can't be empty"])
      else .ok (.stores (some v) [])

def adminLogSet := change At.adminLog interpretBoolean
def adminUserSet := change At.adminUser adminUserCheck
def autoAwayEnableSet := change At.autoAwayEnabled interpretBoolean
def autoAwayClientLimitSet := change At.autoAwayClientLimit (numberFrom (-1) (-1))
def autoAwayMessageSet := change At.autoAwayMessage anyText
def autoAwayNickSet := change At.autoAwayNick anyText
def autoAwayTimeSet := change At.autoAwayTime (numberFrom (-1) (-1))
def autosaveSet := change At.autosave interpretBoolean
def bindSet := change (At.listener .address) anyText
def defaultClientCharsetSet := change At.clientCharset anyText
def defaultNetworkSet := change (At.listener .network) anyText
def learnNetworkNameSet := change At.learnNetworkName interpretBoolean
def learnNickservSet := change At.learnNickserv interpretBoolean
def logLevelSet := change At.logLevel logLevelCheck
def loggingSet := change At.logFile loggingCheck
def maxWhoAgeSet := change At.maxWhoAge (numberFrom 0 0)
def motdFileSet (gFileTest : Str → Bool) := change At.motdFile (motdFileCheck gFileTest)
def passwordSet := change (At.listener .password) anyText
def portSet := change (At.listener .port) anyText
def reportTimeSet := change At.reportTime reportTimeCheck
def reportTimeOffsetSet := change At.reportTimeOffset (numberFrom 0 0)
def replicationSet := change At.replication replicationCheck
def defaultNickSet := change At.defaultNick (word (str "Nick name"))
def defaultUsernameSet := change At.defaultUsername (word (str "Username"))
def defaultFullnameSet := change At.defaultRealname defaultFullnameCheck

/-! ### The table -/

/-- The entries of `settings`. -/
inductive Setting where
  | adminLog
  | adminUser
  | autoAwayEnable
  | autoAwayClientLimit
  | autoAwayMessage
  | autoAwayNick
  | autoAwayTime
  | autosave
  | bind
  | defaultClientCharset
  | defaultNetwork
  | learnNetworkName
  | learnNickserv
  | logLevel
  | logging
  | maxWhoAge
  | motdFile
  | password
  | port
  | reportTime
  | reportTimeOffset
  | replication
  | defaultNick
  | defaultUsername
  | defaultFullname
  deriving DecidableEq

/-- `settings[i].name`. -/
def Setting.name : Setting → Str
  | .adminLog => str "admin-log"
  | .adminUser => str "admin-user"
  | .autoAwayEnable => str "auto-away-enable"
  | .autoAwayClientLimit => str "auto-away-client-limit"
  | .autoAwayMessage => str "auto-away-message"
  | .autoAwayNick => str "auto-away-nick"
  | .autoAwayTime => str "auto-away-time"
  | .autosave => str "autosave"
  | .bind => str "bind"
  | .defaultClientCharset => str "default-client-charset"
  | .defaultNetwork => str "default-network"
  | .learnNetworkName => str "learn-network-name"
  | .learnNickserv => str "learn-nickserv"
  | .logLevel => str "log_level"
  | .logging => str "logging"
  | .maxWhoAge => str "max_who_age"
  | .motdFile => str "motd-file"
  | .password => str "password"
  | .port => str "port"
  | .reportTime => str "report-time"
  | .reportTimeOffset => str "report-time-offset"
  | .replication => str "replication"
  | .defaultNick => str "default-nick"
  | .defaultUsername => str "default-username"
  | .defaultFullname => str "default-fullname"

/-- `settings[i].get`. -/
def Setting.get : Setting → Global → Option Str
  | .adminLog => adminLogGet
  | .adminUser => adminUserGet
  | .autoAwayEnable => autoAwayEnableGet
  | .autoAwayClientLimit => autoAwayClientLimitGet
  | .autoAwayMessage => autoAwayMessageGet
  | .autoAwayNick => autoAwayNickGet
  | .autoAwayTime => autoAwayTimeGet
  | .autosave => autosaveGet
  | .bind => bindGet
  | .defaultClientCharset => defaultClientCharsetGet
  | .defaultNetwork => defaultNetworkGet
  | .learnNetworkName => learnNetworkNameGet
  | .learnNickserv => learnNickservGet
  | .logLevel => logLevelGet
  | .logging => loggingGet
  | .maxWhoAge => maxWhoAgeGet
  | .motdFile => motdFileGet
  | .password => passwordGet
  | .port => portGet
  | .reportTime => reportTimeGet
  | .reportTimeOffset => reportTimeOffsetGet
  | .replication => replicationGet
  | .defaultNick => defaultNickGet
  | .defaultUsername => defaultUsernameGet
  | .defaultFullname => defaultFullnameGet

/-- `settings[i].set`. -/
def Setting.set (gFileTest : Str → Bool) : Setting → Global → Option Str → Except Fault Reply
  | .adminLog => adminLogSet
  | .adminUser => adminUserSet
  | .autoAwayEnable => autoAwayEnableSet
  | .autoAwayClientLimit => autoAwayClientLimitSet
  | .autoAwayMessage => autoAwayMessageSet
  | .autoAwayNick => autoAwayNickSet
  | .autoAwayTime => autoAwayTimeSet
  | .autosave => autosaveSet
  | .bind => bindSet
  | .defaultClientCharset => defaultClientCharsetSet
  | .defaultNetwork => defaultNetworkSet
  | .learnNetworkName => learnNetworkNameSet
  | .learnNickserv => learnNickservSet
  | .logLevel => logLevelSet
  | .logging => loggingSet
  | .maxWhoAge => maxWhoAgeSet
  | .motdFile => motdFileSet gFileTest
  | .password => passwordSet
  | .port => portSet
  | .reportTime => reportTimeSet
  | .reportTimeOffset => reportTimeOffsetSet
  | .replication => replicationSet
  | .defaultNick => defaultNickSet
  | .defaultUsername => defaultUsernameSet
  | .defaultFullname => defaultFullnameSet

def settings : List Setting :=
  [.adminLog, .adminUser, .autoAwayEnable, .autoAwayClientLimit, .autoAwayMessage, .autoAwayNick, .autoAwayTime, .autosave, .bind, .defaultClientCharset, .defaultNetwork, .learnNetworkName, .learnNickserv, .logLevel, .logging, .maxWhoAge, .motdFile, .password, .port, .reportTime, .reportTimeOffset, .replication, .defaultNick, .defaultUsername, .defaultFullname]

/-! ### Commands -/

/-- The loop of `cmd_unset`, with what is given to `admin_out`. -/
def cmdUnsetLoop (gFileTest : Str → Bool) (name : Str) : List Setting → Global → Except Fault (Global × List Str)
  | [], g => .ok (g, [])
  | s :: ss, g =>
      if strcasecmpEq s.name name then do
        let r ← s.set gFileTest g none
        let (g', out) ← cmdUnsetLoop gFileTest name ss r.global
        pure (g', r.out ++ out)
      else cmdUnsetLoop gFileTest name ss g

/-- `cmd_unset`. -/
def cmdUnset (gFileTest : Str → Bool) (g : Global) : Option Str → Except Fault (Global × List Str)
  | none => .ok (g, [str "Usage: unset <setting>"])
  | some name => cmdUnsetLoop gFileTest name settings g

/-- `cmd_set`, for the setting that it is given. -/
def cmdSet (gFileTest : Str → Bool) (g : Global) (name : Str) (value : Option Str) :
    Except Fault (Global × List Str) :=
  match settings.find? fun s => strcasecmpEq s.name name with
  | none => .ok (g, [str "Unknown setting `" ++ name ++ str "'"])
  | some s => match value with
      | some v => do
          let r ← s.set gFileTest g (some v)
          pure (r.global, r.out)
      | none => .ok (g, [printed (s.get g)])

/-! ### Every setting has its place -/

/-- What is at the place of a setting. -/
abbrev Setting.Value : Setting → Type
  | .adminLog | .autoAwayEnable | .autosave | .learnNetworkName | .learnNickserv => Bool
  | .autoAwayClientLimit | .autoAwayTime | .logLevel | .maxWhoAge | .reportTimeOffset => ℤ
  | .reportTime => ReportTime
  | .logging => Option Bool
  | .adminUser | .autoAwayMessage | .autoAwayNick | .bind | .defaultClientCharset | .defaultNetwork
  | .motdFile | .password | .port | .replication | .defaultNick | .defaultUsername
  | .defaultFullname => Option Str

def Setting.place : (s : Setting) → Place Global s.Value
  | .adminLog => At.adminLog
  | .adminUser => At.adminUser
  | .autoAwayEnable => At.autoAwayEnabled
  | .autoAwayClientLimit => At.autoAwayClientLimit
  | .autoAwayMessage => At.autoAwayMessage
  | .autoAwayNick => At.autoAwayNick
  | .autoAwayTime => At.autoAwayTime
  | .autosave => At.autosave
  | .bind => At.listener .address
  | .defaultClientCharset => At.clientCharset
  | .defaultNetwork => At.listener .network
  | .learnNetworkName => At.learnNetworkName
  | .learnNickserv => At.learnNickserv
  | .logLevel => At.logLevel
  | .logging => At.logFile
  | .maxWhoAge => At.maxWhoAge
  | .motdFile => At.motdFile
  | .password => At.listener .password
  | .port => At.listener .port
  | .reportTime => At.reportTime
  | .reportTimeOffset => At.reportTimeOffset
  | .replication => At.replication
  | .defaultNick => At.defaultNick
  | .defaultUsername => At.defaultUsername
  | .defaultFullname => At.defaultRealname

/-- How a value is shown. -/
def Setting.shows : (s : Setting) → s.Value → Option Str
  | .adminLog | .autoAwayEnable | .autosave | .learnNetworkName | .learnNickserv => fun b => some (boolName b)
  | .autoAwayClientLimit | .logLevel => fun n => some (decimalInt n)
  | .autoAwayTime | .maxWhoAge | .reportTimeOffset => numName
  | .reportTime => fun t => some (reportTimeName t)
  | .logging => fun l => some (logFileName l)
  | .adminUser | .autoAwayMessage | .autoAwayNick | .bind | .defaultClientCharset | .defaultNetwork
  | .motdFile | .password | .port | .replication | .defaultNick | .defaultUsername
  | .defaultFullname => fun value => value

/-- What is stored for a value. -/
def Setting.check (gFileTest : Str → Bool) :
    (s : Setting) → Global → Option Str → Except Fault (Check s.Value)
  | .adminLog | .autoAwayEnable | .autosave | .learnNetworkName | .learnNickserv => interpretBoolean
  | .adminUser => adminUserCheck
  | .autoAwayClientLimit | .autoAwayTime => numberFrom (-1) (-1)
  | .autoAwayMessage | .autoAwayNick | .bind | .defaultClientCharset | .defaultNetwork | .password
  | .port => anyText
  | .logLevel => logLevelCheck
  | .logging => loggingCheck
  | .maxWhoAge | .reportTimeOffset => numberFrom 0 0
  | .motdFile => motdFileCheck gFileTest
  | .reportTime => reportTimeCheck
  | .replication => replicationCheck
  | .defaultNick => word (str "Nick name")
  | .defaultUsername => word (str "Username")
  | .defaultFullname => defaultFullnameCheck

section
variable {gFileTest : Str → Bool} {s s' : Setting} {g g' : Global} {value : Option Str} {r : Reply}

theorem get_eq (s : Setting) (g : Global) : s.get g = (s.place.read g).bind s.shows := by
  cases s <;> rfl

theorem set_eq (gFileTest : Str → Bool) (s : Setting) :
    s.set gFileTest = change s.place (s.check gFileTest) := by
  cases s <;> rfl

/-- What is accepted is stored. -/
theorem set_accepted (h : s.set gFileTest g value = .ok r) (hr : r.accepted = true) :
    ∃ a, s.check gFileTest g value = .ok (.stores a r.out) ∧ s.place.write a g = some r.global := by
  rw [set_eq] at h
  obtain ⟨c, hc, h⟩ := bind_eq_ok h
  cases c with
  | refused out =>
      cases h
      cases hr
  | stores a out =>
      dsimp only at h
      split at h
      · next g' hw =>
        cases h
        exact ⟨a, hc, hw⟩
      · cases h
        cases hr

/-- What is not accepted changes nothing. -/
theorem set_refused (h : s.set gFileTest g value = .ok r) (hr : r.accepted = false) : r.global = g := by
  rw [set_eq] at h
  obtain ⟨c, -, h⟩ := bind_eq_ok h
  cases c with
  | refused out =>
      cases h
      rfl
  | stores a out =>
      dsimp only at h
      split at h
      · cases h
        cases hr
      · cases h
        rfl

/-- The get function shows what was accepted. -/
theorem get_accepted (h : s.set gFileTest g value = .ok r) (hr : r.accepted = true) :
    ∃ a, s.check gFileTest g value = .ok (.stores a r.out) ∧ s.get r.global = s.shows a := by
  obtain ⟨a, hc, hw⟩ := set_accepted h hr
  refine ⟨a, hc, ?_⟩
  rw [get_eq, s.place.read_write hw, Option.bind_some]

/-! ### Other settings -/

theorem At.apart_listener {α : Type} {p : Place Global α} (f : ListenerField)
    (hp : ∀ ls g, p.read { g with config.listeners := ls } = p.read g) : p.Apart (At.listener f) :=
  Place.apart_of_field (fun _ _ => rfl) hp

theorem At.listener_apart {f f' : ListenerField} (h : f ≠ f') : (At.listener f).Apart (At.listener f') :=
  Place.apart_inside _ (Place.apart_first _ _ _ _ (ListenerField.get_set_other h))

/-- The places of two settings are apart. -/
theorem apart (h : s ≠ s') : s.place.Apart s'.place := by
  cases s <;> cases s' <;> first
    | exact fun a g g' hw => by cases hw; rfl
    | exact absurd rfl h
    | exact At.apart_listener _ fun _ _ => rfl
    | exact At.listener_apart (by decide)

theorem set_other (h : s.set gFileTest g value = .ok r) (hs : s' ≠ s) : s'.get r.global = s'.get g := by
  cases hr : r.accepted with
  | false => rw [set_refused h hr]
  | true =>
      obtain ⟨a, -, hw⟩ := set_accepted h hr
      rw [get_eq, get_eq, apart hs a g _ hw]

end

/-! ### Commands -/

theorem mem_settings (s : Setting) : s ∈ settings := by
  cases s <;> decide

/-- No two settings have the same name. -/
theorem names_nodup : (settings.map fun s => s.name.map Byte.lower).Nodup := by
  decide

section
variable {gFileTest : Str → Bool} {s s' : Setting} {ss post : List Setting} {g : Global} {name : Str}

theorem name_inj (h : s.name.map Byte.lower = s'.name.map Byte.lower) : s = s' :=
  List.inj_on_of_nodup_map names_nodup (mem_settings s) (mem_settings s') h

/-- A name is the name of one setting. -/
theorem name_unique (h : strcasecmpEq s.name name = true) (hs : s' ≠ s) :
    strcasecmpEq s'.name name = false := by
  rw [Bool.eq_false_iff]
  intro h'
  exact hs (name_inj ((strcasecmpEq_iff.mp h').trans (strcasecmpEq_iff.mp h).symm))

/-- Other settings are skipped. -/
theorem cmdUnsetLoop_skip (h : ∀ s ∈ ss, strcasecmpEq s.name name = false) :
    cmdUnsetLoop gFileTest name (ss ++ post) g = cmdUnsetLoop gFileTest name post g := by
  induction ss with
  | nil => rfl
  | cons s ss ih =>
      rw [List.cons_append, cmdUnsetLoop, h s List.mem_cons_self, if_neg Bool.false_ne_true]
      exact ih fun s hs => h s (List.mem_cons_of_mem _ hs)

/-- `UNSET` gives `NULL` to the set function of the setting, and to no other. -/
theorem cmdUnset_eq (h : strcasecmpEq s.name name = true) :
    cmdUnset gFileTest g (some name) = (s.set gFileTest g none).map fun r => (r.global, r.out) := by
  obtain ⟨pre, post, hsplit⟩ := List.append_of_mem (mem_settings s)
  have hnodup := names_nodup.of_map
  rw [hsplit, List.nodup_append] at hnodup
  obtain ⟨-, hpost, hne⟩ := hnodup
  have hpre : ∀ s' ∈ pre, strcasecmpEq s'.name name = false := fun s' hs' =>
    name_unique h (hne s' hs' s List.mem_cons_self)
  have hrest : ∀ s' ∈ post, strcasecmpEq s'.name name = false := fun s' hs' =>
    name_unique h fun e => (List.nodup_cons.mp hpost).1 (e ▸ hs')
  rw [cmdUnset, hsplit, cmdUnsetLoop_skip hpre, cmdUnsetLoop, if_pos h]
  cases s.set gFileTest g none with
  | error e => rfl
  | ok r =>
      have hend : cmdUnsetLoop gFileTest name (post ++ []) r.global = .ok (r.global, []) :=
        cmdUnsetLoop_skip hrest
      rw [List.append_nil] at hend
      rw [ok_bind, hend]
      simp [Except.map]

/-- `SET` finds the setting. -/
theorem find?_settings (h : strcasecmpEq s.name name = true) :
    settings.find? (fun s => strcasecmpEq s.name name) = some s := by
  cases hf : settings.find? fun s => strcasecmpEq s.name name with
  | none => exact absurd h (List.find?_eq_none.mp hf s (mem_settings s))
  | some s' =>
      by_contra hne
      have hs : s' ≠ s := fun e => hne (congrArg some e)
      exact absurd (List.find?_some hf) (by rw [name_unique h hs]; decide)

theorem cmdSet_eq (h : strcasecmpEq s.name name = true) (v : Str) :
    cmdSet gFileTest g name (some v) = (s.set gFileTest g (some v)).map fun r => (r.global, r.out) := by
  rw [cmdSet, find?_settings h]
  dsimp only
  cases s.set gFileTest g (some v) <;> rfl

/-- `SET` without a value shows the setting. -/
theorem cmdSet_shows (h : strcasecmpEq s.name name = true) :
    cmdSet gFileTest g name none = .ok (g, [printed (s.get g)]) := by
  rw [cmdSet, find?_settings h]

end

end Ctrlproxy.Admin
