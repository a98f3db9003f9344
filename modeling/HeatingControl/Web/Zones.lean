import HeatingControl.Dashboard.Page
import HeatingControl.Web.Control
import HeatingControl.Web.Layout

/-!
# The zones in the browser

The table of zones stands on the main page and on a page of its own, which the browser reloads
periodically.
-/
namespace HeatingControl.Web

def zoneAction (z : ZoneRow) (what : String) : Html := html ["/zones/", data z.id, "/" ++ what]

def zoneRow (z : ZoneRow) : Html :=
  html ["<tr>\n<td>", data z.id, "</td>\n<td>\n",
    topForm (zoneAction z "description")
      ["<input name=\"description\" value=\"", data z.description, "\">\n",
       button "Renommer"],
    "</td>\n<td><span class=\"badge ", data z.currentColour, "\">", data z.currentName,
    "</span></td>\n<td>\n",
    topForm (zoneAction z "mode") [selector "mode" z.modes, button "Appliquer"],
    "</td>\n</tr>\n"]

def zoneTable (v : ZonesView) : Html :=
  html ["<table>\n",
    "<tr><th>Zone</th><th>Description</th><th>Ordre courant</th><th>Mode</th></tr>\n",
    each v.zones zoneRow,
    "\n</table>\n"]

def zonesOrNone : Option ZonesView → Html
  | some zones => zoneTable zones
  | none => "<p>Zones indisponibles.</p>\n"

def zonesContent (p : Dashboard.ZonePage) : Html :=
  html ["\n", errorSection p.errors,
    "\n<section>\n<h2>Configuration des zones</h2>\n",
    onNewLine (zonesOrNone p.zones),
    "\n<p><a href=\"/\" target=\"_top\">Retour</a></p>\n</section>\n"]

def zonesPage (refreshSeconds : Nat) (p : Dashboard.ZonePage) : Html :=
  layout "OFP - Zones"
    (html ["<meta http-equiv=\"refresh\" content=\"", data (Text.natText refreshSeconds), "\">"])
    (zonesContent p)

end HeatingControl.Web
