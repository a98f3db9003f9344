import HeatingControl.Dashboard.Page
import HeatingControl.Web.AdminSection
import HeatingControl.Web.Layout
import HeatingControl.Web.PlanningSection
import HeatingControl.Web.Zones

/-!
# The main page

Every section that could be loaded, one after the other.
-/
namespace HeatingControl.Web

def statusSection (v : StatusView) : Html :=
  html ["<section>\n<h2>État du système</h2>\n<ul>\n",
    each v.lines fun line => html ["<li>", data line, "</li>\n"],
    "\n</ul>\n</section>\n"]

def overrideOption (o : OverrideOption) : Html :=
  html ["<label class=\"badge ", data o.colour, "\">\n",
    "<input type=\"radio\" name=\"value\" value=\"", data o.value, "\"",
    if o.checked then " checked" else "", ">\n", data o.name, "\n</label>\n"]

def overrideSection (v : OverrideView) : Html :=
  html ["<section>\n<h2>Forçage des zones</h2>\n",
    blockForm "/override" [each v.options overrideOption, "\n", button "Appliquer"],
    "</section>\n"]

def zoneSection (v : ZonesView) : Html :=
  html ["<section>\n<h2>Configuration des zones</h2>\n", zoneTable v,
    "<p><a href=\"/zones\">Suivi en continu</a></p>\n</section>\n"]

def homeContent (p : Dashboard.Page) : Html :=
  html ["\n<h1>Open Fil Pilote</h1>\n\n", errorSection p.errors,
    "\n\n", showSome p.status statusSection,
    "\n\n", showSome p.override overrideSection,
    "\n\n", showSome p.zones zoneSection,
    "\n\n", showSome p.plannings (planningSection p.slots),
    "\n\n", showSome p.accounts (accountSection p.admin),
    "\n\n", showIf p.admin (adminSections p.hardware),
    "\n"]

def homePage (p : Dashboard.Page) : Html := layout "OFP" [] (homeContent p)

end HeatingControl.Web
