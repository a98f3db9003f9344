import HeatingControl.Client.Address
import HeatingControl.Config.Section
import HeatingControl.Web.Respond

/-!
# Settings of the dashboard

Where it listens, where the controller is, how often it refreshes, and what it logs. A file comes
first, the environment changes what it says, and the result must make sense.
-/
namespace HeatingControl

structure Settings where
  host : String
  port : UInt16
  baseUrl : String
  apiRoot : String
  timeoutSeconds : UInt64
  refreshSeconds : UInt32
  logFilter : String
  deriving DecidableEq, Repr

inductive SettingsError where
  | malformed
  | unreadable
  | zeroPort
  | zeroRefresh
  | baseUrl (url : String)
  deriving DecidableEq, Repr

def SettingsError.message : SettingsError → String
  | .malformed => "failed to parse config file"
  | .unreadable => "failed to read config file"
  | .zeroPort => "invalid configuration: port must be non-zero"
  | .zeroRefresh => "invalid configuration: refresh period must be non-zero"
  | .baseUrl url =>
    "invalid configuration: controller url must start with http:// or https://, got " ++
      Text.quoted url

namespace Settings

def standard : Settings where
  host := "0.0.0.0"
  port := 8080
  baseUrl := "http://127.0.0.1:3000"
  apiRoot := Operation.root
  timeoutSeconds := 10
  refreshSeconds := UInt32.ofNat Web.defaultRefreshSeconds
  logFilter := "ofpd=info,ofp_app=info,ofp_adapter_http_client=info,tower_http=debug"

def ofEntries (entries : Toml.Entries) : Option Settings := do
  let d := standard
  let server ← Config.sectionFields "server" ["host", "port"] entries
  let controller ←
    Config.sectionFields "controller" ["base_url", "api_prefix", "timeout_seconds"] entries
  let dashboard ← Config.sectionFields "dashboard" ["refresh_seconds"] entries
  let logging ← Config.sectionFields "logging" ["filter"] entries
  let host ← Config.orElse Config.text? d.host server[0]?
  let port ← Config.orElse (Config.natBelow? UInt16.size) d.port.toNat server[1]?
  let baseUrl ← Config.orElse Config.text? d.baseUrl controller[0]?
  let apiRoot ← Config.orElse Config.text? d.apiRoot controller[1]?
  let timeout ←
    Config.orElse (Config.natBelow? UInt64.size) d.timeoutSeconds.toNat controller[2]?
  let refresh ← Config.orElse (Config.natBelow? UInt32.size) d.refreshSeconds.toNat dashboard[0]?
  let logFilter ← Config.orElse Config.text? d.logFilter logging[0]?
  return ⟨host, UInt16.ofNat port, baseUrl, apiRoot, UInt64.ofNat timeout, UInt32.ofNat refresh,
    logFilter⟩

def ofSource : Config.Source → Except SettingsError Settings
  | .missing => .ok standard
  | .unreadable => .error .unreadable
  | .malformed => .error .malformed
  | .content entries =>
    match ofEntries entries with
    | some s => .ok s
    | none => .error .malformed

def bindTo (s : Settings) : Option (String × String) → Settings
  | none => s
  | some (host, port) => { s with host := host, port := Config.portOr s.port port }

def override (env : Config.Environment) (s : Settings) : Settings :=
  let s := { s with
    host := (env "OFP_HOST").getD s.host
    port := ((env "OFP_PORT").map (Config.portOr s.port)).getD s.port }
  let s := s.bindTo ((env "OFP_BIND").bind Config.cutHost)
  { s with
    baseUrl := (env "OFP_CONTROLLER_URL").getD s.baseUrl
    logFilter := ((env "RUST_LOG").or (env "OFP_LOG")).getD s.logFilter }

def validate (s : Settings) : Except SettingsError Settings :=
  if s.port = 0 then .error .zeroPort
  else if s.refreshSeconds = 0 then .error .zeroRefresh
  else if Client.isWeb s.baseUrl.toList then .ok s
  else .error (.baseUrl s.baseUrl)

def load (file : Option Bytes) (env : Config.Environment) : Except SettingsError Settings :=
  match ofSource (Config.Source.ofFile file) with
  | .error e => .error e
  | .ok s => (s.override env).validate

def listenText (s : Settings) : String := Config.hostAndPort s.host s.port

def client (s : Settings) : Except InvalidBase Client := Client.build s.baseUrl s.apiRoot

end Settings
end HeatingControl
