import HeatingControl.Config.Section
import HeatingControl.Config.SocketAddress
import HeatingControl.Text.Quoted

/-!
# Settings of the simulated controller

Where it listens, how long a reboot takes, and what it logs. The address must be one that can be
listened on.
-/
namespace HeatingControl

structure SimulatorSettings where
  host : String
  port : UInt16
  rebootSeconds : UInt64
  logFilter : String
  deriving DecidableEq, Repr

inductive SimulatorSettingsError where
  | unreadable
  | malformed
  | address (text : String)
  deriving DecidableEq, Repr

def SimulatorSettingsError.message : SimulatorSettingsError → String
  | .unreadable => "cannot read ofp-mock.toml"
  | .malformed => "malformed ofp-mock.toml"
  | .address text => "cannot listen on " ++ Text.quoted text

namespace SimulatorSettings

def standard : SimulatorSettings where
  host := "0.0.0.0"
  port := 3000
  rebootSeconds := 10
  logFilter := "ofp_mockd=info,ofp_adapter_mock=info,tower_http=debug"

def ofEntries (entries : Toml.Entries) : Option SimulatorSettings := do
  let d := standard
  let server ← Config.sectionFields "server" ["host", "port"] entries
  let simulation ← Config.sectionFields "mock" ["reboot_seconds"] entries
  let logging ← Config.sectionFields "logging" ["filter"] entries
  let host ← Config.orElse Config.text? d.host server[0]?
  let port ← Config.orElse (Config.natBelow? UInt16.size) d.port.toNat server[1]?
  let reboot ←
    Config.orElse (Config.natBelow? UInt64.size) d.rebootSeconds.toNat simulation[0]?
  let logFilter ← Config.orElse Config.text? d.logFilter logging[0]?
  return ⟨host, UInt16.ofNat port, UInt64.ofNat reboot, logFilter⟩

def ofSource : Config.Source → Except SimulatorSettingsError SimulatorSettings
  | .missing => .ok standard
  | .unreadable => .error .unreadable
  | .malformed => .error .malformed
  | .content entries =>
    match ofEntries entries with
    | some s => .ok s
    | none => .error .malformed

def bindTo (s : SimulatorSettings) : Option (String × String) → SimulatorSettings
  | none => s
  | some (host, port) => { s with host := host, port := Config.portOr s.port port }

def override (env : Config.Environment) (s : SimulatorSettings) : SimulatorSettings :=
  let s := s.bindTo ((env "OFP_MOCK_BIND").bind Config.cutHost)
  { s with logFilter := ((env "RUST_LOG").or (env "OFP_MOCK_LOG")).getD s.logFilter }

def listenText (s : SimulatorSettings) : String := Config.hostAndPort s.host s.port

/-- The address to listen on; the port must be given. -/
def address (s : SimulatorSettings) : Except SimulatorSettingsError SocketAddress :=
  match SocketAddress.parse? s.listenText with
  | some a => if a.port = 0 then .error (.address s.listenText) else .ok a
  | none => .error (.address s.listenText)

def load (file : Option Bytes) (env : Config.Environment) :
    Except SimulatorSettingsError (SimulatorSettings × SocketAddress) :=
  match ofSource (Config.Source.ofFile file) with
  | .error e => .error e
  | .ok s =>
    let s := s.override env
    s.address.map fun a => (s, a)

end SimulatorSettings
end HeatingControl
