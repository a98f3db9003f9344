import HeatingControl.Web.HomePage
import HeatingControl.Web.Visit
import HeatingControl.Web.Zones

/-!
# Answers to the browser

A page is shown with whatever could be loaded; after an action the browser is sent to a page that
shows what became of it.
-/
namespace HeatingControl.Web

open Dashboard (Action Outcome)

/-- How often the browser reloads the zones where nothing else is set, in seconds. -/
def defaultRefreshSeconds : Nat := 5

def destination (back : String) : Outcome → String
  | .reboot => "/reboot"
  | _ => back

def Visit.respond (refreshSeconds : Nat) : Visit → Dashboard.Task Response
  | .health => return .healthy
  | .home selection => do
    let page ← Dashboard.bootstrap selection
    return .html (render (homePage page))
  | .zones => do
    let page ← Dashboard.zonePage
    return .html (render (zonesPage (max refreshSeconds 1) page))
  | .reboot => do
    match ← Dashboard.reboot with
    | some page => return .html page
    | none => return .seeOther "/"
  | .act action back => do
    let outcome ← action.run
    return .seeOther (destination back outcome)

def respond (refreshSeconds : Nat) (r : Request) : Dashboard.Task Response := do
  let response ← match visit r with
    | .error refusal => pure refusal.response
    | .ok v => v.respond refreshSeconds
  return if r.method = "HEAD" then response.bodiless else response

end HeatingControl.Web
