import HeatingControl.View.Administration
import HeatingControl.Web.Control

/-!
# The sections of the administrator

The accounts, of which everyone sees the list, and the uploads, the boards and the reboot, which
only the administrator is offered.
-/
namespace HeatingControl.Web

def accountAction (a : AccountRow) (what : String) : Html :=
  html ["/accounts/", data a.id, "/" ++ what]

def accountRow (a : AccountRow) : Html :=
  html ["<tr>\n<td>", data a.id, "</td>\n<td>\n",
    inlineForm (accountAction a "password")
      ["<input type=\"password\" name=\"password\" placeholder=\"Nouveau mot de passe\">\n",
       button "Changer"],
    "</td>\n<td>\n",
    showIf a.deletable (inlineForm (accountAction a "delete") [button "Supprimer"]),
    "\n</td>\n</tr>\n"]

def accountForm : Html :=
  blockForm "/accounts"
    ["<input name=\"id\" placeholder=\"Identifiant\">\n",
     "<input type=\"password\" name=\"password\" placeholder=\"Mot de passe\">\n",
     button "Créer"]

def accountSection (admin : Bool) (v : AccountsView) : Html :=
  html ["<section>\n<h2>Comptes</h2>\n<table>\n",
    each v.accounts accountRow,
    "\n</table>\n",
    showIf admin accountForm,
    "\n</section>\n"]

def uploadSection (title action label : String) : Html :=
  html ["<section>\n<h2>" ++ title ++ "</h2>\n",
    "<form method=\"post\" action=\"" ++ action ++ "\" enctype=\"multipart/form-data\">\n",
    "<input type=\"file\" name=\"file\">\n",
    confirmation label,
    button "Envoyer",
    "</form>\n</section>\n"]

def firmwareSection : Html :=
  uploadSection "Mise à jour du firmware" "/firmware" "Je confirme la mise à jour"

def certificateSection : Html :=
  uploadSection "Certificat HTTPS" "/certificate"
    "Je confirme le remplacement du certificat"

def parameterField (p : ParameterField) : Html :=
  html ["<label>", data p.description, "\n<input type=\"", data p.inputType,
    "\" name=\"param.", data p.id, "\" value=\"", data p.value, "\">\n</label>\n"]

def boardForm (parameters : List ParameterField) (id : HardwareId) : Html :=
  blockForm "/hardware"
    ["<input type=\"hidden\" name=\"hardware\" value=\"", data id.text, "\">\n",
     each parameters parameterField, "\n",
     confirmation "Je confirme le changement de matériel", button "Appliquer"]

def hardwareSection (v : HardwareView) : Html :=
  html ["<section>\n<h2>Matériel</h2>\n",
    selectionForm [selector "hardware" v.supported, button "Recharger"],
    showSome v.selected (boardForm v.parameters),
    "\n</section>\n"]

def rebootSection : Html :=
  html ["<section>\n<h2>Redémarrage</h2>\n",
    "<p><a href=\"/reboot\">Redémarrer le contrôleur</a></p>\n</section>\n"]

/-- What only the administrator is offered. -/
def adminSections (hardware : Option HardwareView) : Html :=
  html [firmwareSection, "\n", certificateSection, "\n", showSome hardware hardwareSection,
    "\n\n", rebootSection]

end HeatingControl.Web
