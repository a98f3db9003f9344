import HeatingControl.Status

/-!
# The status section

One line per fact; the firmware and the user have lines only if they are reported.
-/
namespace HeatingControl

structure StatusView where
  lines : List String
  deriving DecidableEq, Repr

namespace StatusView

def count (n : UInt64) : String := Text.natText n.toNat

def ratio (part whole : UInt64) : String := "(" ++ Text.natText (percent part whole) ++ "%)"

def uptimeLines (u : Uptime) : List String :=
  ["Système démarré depuis " ++ durationText u.system.toNat,
   "Connecté au Wifi depuis " ++ durationText u.wifi.currentUptime.toNat ++ " " ++
     ratio u.wifi.cumulatedUptime u.system,
   count u.wifi.successes ++ " connexions réussies pour " ++ count u.wifi.attempts ++
     " tentatives " ++ ratio u.wifi.successes u.wifi.attempts,
   count u.wifi.disconnects ++ " déconnexions détectées depuis le dernier démarrage"]

def firmwareLines (f : RunningFirmware) : List String :=
  ["Le système a démarré sur la partition \"" ++ f.partition ++
     "\" dont la taille maximale est de " ++ count f.partitionSize ++ " octets",
   "Microgiciel actif est \"" ++ f.name ++ "\" en version " ++ f.version,
   "Microgiciel généré le " ++ f.compiledDate ++ " " ++ f.compiledTime ++
     " à l'aide du framework ESP-IDF " ++ f.frameworkVersion]

def userLines (u : ConnectedUser) : List String :=
  ["L'utilisateur \"" ++ u.id ++ "\" est connecté, et son IP apparente est " ++ u.sourceAddress]

def render (s : Status) : StatusView :=
  ⟨uptimeLines s.uptime ++ (s.firmware.map firmwareLines).getD [] ++
    (s.user.map userLines).getD []⟩

end StatusView
end HeatingControl
