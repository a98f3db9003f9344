import HeatingControl.View.Choice
import HeatingControl.Web.Markup

/-!
# Form controls

Options, selectors and buttons as they recur on the pages.
-/
namespace HeatingControl.Web

def option (c : Choice) : Html :=
  html ["<option value=\"", data c.value, "\"", if c.selected then " selected" else "", ">",
    data c.label, "</option>\n"]

def plainOption (c : Choice) : Html :=
  html ["<option value=\"", data c.value, "\">", data c.label, "</option>\n"]

def selectorOf (line : Choice → Html) (name : String) (choices : List Choice) : Html :=
  html ["<select name=\"" ++ name ++ "\">\n", each choices line, "\n</select>\n"]

def selector : String → List Choice → Html := selectorOf option

def plainSelector : String → List Choice → Html := selectorOf plainOption

def button (label : String) : Html := "<button type=\"submit\">" ++ label ++ "</button>\n"

def inlineForm (action : Html) (fields : List Html) : Html :=
  html ["<form class=\"inline\" method=\"post\" action=\"", action, "\">\n", html fields,
    "</form>\n"]

/-- A form within a line whose answer fills the whole window. -/
def topForm (action : Html) (fields : List Html) : Html :=
  html ["<form class=\"inline\" method=\"post\" action=\"", action, "\" target=\"_top\">\n",
    html fields, "</form>\n"]

def blockForm (action : Html) (fields : List Html) : Html :=
  html ["<form method=\"post\" action=\"", action, "\">\n", html fields, "</form>\n"]

def selectionForm (fields : List Html) : Html :=
  html ["<form method=\"get\" action=\"/\">\n", html fields, "</form>\n"]

def confirmation (label : String) : Html :=
  "<label><input type=\"checkbox\" name=\"confirm\"> " ++ label ++ "</label>\n"

end HeatingControl.Web
