import HeatingControl.View.Plannings
import HeatingControl.View.Slots
import HeatingControl.Web.Control

/-!
# The section of the plannings

The list of the plannings, and the rows of the slots of the selected one.
-/
namespace HeatingControl.Web

def planningAction (id : PlanningId) (what : String) : Html :=
  html ["/plannings/", data id.display, "/" ++ what]

def selectedPlanning (id : PlanningId) : Html :=
  html [
    inlineForm (planningAction id "rename")
      ["<input name=\"name\" placeholder=\"Nouveau nom\">\n", button "Renommer"],
    inlineForm (planningAction id "delete") [button "Supprimer"]]

def planningList (v : PlanningsView) : Html :=
  onNewLine <|
    if v.isEmpty then html ["<p>", data PlanningsView.emptyMessage, "</p>\n"]
    else
      html [selectionForm [selector "planning" v.plannings, button "Afficher"],
        showSome v.selected selectedPlanning, "\n"]

def hidden (name value : String) : Html :=
  html ["<input type=\"hidden\" name=\"" ++ name ++ "\" value=\"", data value, "\">\n"]

def slotAction (planning : PlanningId) (slot : SlotId) : Html :=
  html ["/plannings/", data planning.display, "/slots/", data slot.display]

def slotRow (planning : PlanningId) (r : SlotRow) : Html :=
  html ["<tr>\n<td colspan=\"4\">\n",
    inlineForm (slotAction planning r.id)
      [hidden "original_dow" r.shown.day, hidden "original_hour" r.shown.hour,
       hidden "original_minute" r.shown.minute, hidden "original_order" r.shown.order,
       selector "dow" r.day, selector "hour" r.hour, selector "minute" r.minute,
       selector "order" r.order, button "Modifier"],
    "</td>\n<td>\n",
    inlineForm (html [slotAction planning r.id, "/delete"]) [button "Supprimer"],
    "</td>\n</tr>\n"]

def slotTable (v : SlotsView) : Html :=
  html ["<h3>Créneaux</h3>\n<table>\n",
    "<tr><th>Jour</th><th>Heure</th><th>Minute</th><th>Ordre</th><th></th></tr>\n",
    each v.slots (slotRow v.planning),
    "\n</table>\n",
    blockForm (planningAction v.planning "slots")
      [plainSelector "dow" v.addDay, plainSelector "hour" v.addHour,
       plainSelector "minute" v.addMinute, plainSelector "order" v.addOrder,
       button "Ajouter un créneau"]]

def planningSection (slots : Option SlotsView) (v : PlanningsView) : Html :=
  html ["<section>\n<h2>Programmations</h2>\n",
    planningList v,
    "\n",
    blockForm "/plannings"
      ["<input name=\"name\" placeholder=\"Nom de la programmation\">\n", button "Créer"],
    "\n",
    showSome slots slotTable,
    "\n</section>\n"]

end HeatingControl.Web
