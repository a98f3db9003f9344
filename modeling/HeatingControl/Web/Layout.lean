import HeatingControl.Web.Markup

/-!
# The frame of every page

The head with its styles, and the body around the content.
-/
namespace HeatingControl.Web

def styles : List (String × String) :=
  [("body", "font-family: sans-serif; margin: 0 auto; max-width: 64rem; padding: 1rem; " ++
     "color: #222;"),
   ("section", "border: 1px solid #ddd; border-radius: 4px; margin-bottom: 1rem; " ++
     "padding: 0 1rem 1rem;"),
   ("table", "border-collapse: collapse; width: 100%;"),
   ("td, th", "border-bottom: 1px solid #eee; padding: .25rem .5rem; text-align: left;"),
   ("form.inline", "display: inline;"),
   (".badge", "border-radius: 4px; padding: .1rem .4rem; color: #fff;"),
   (".primary", "background: #0d6efd;"),
   (".secondary", "background: #6c757d;"),
   (".success", "background: #198754;"),
   (".info", "background: #0dcaf0; color: #222;"),
   (".warning", "background: #ffc107; color: #222;"),
   (".danger", "background: #dc3545;"),
   (".light", "background: #f8f9fa; color: #222;"),
   (".dark", "background: #212529;"),
   (".errors", "border-color: #dc3545; background: #fff5f5;")]

def style (rule : String × String) : String := rule.1 ++ " \x7b " ++ rule.2 ++ " \x7d\n"

def layout (title : String) (head content : Html) : Html :=
  html ["<!DOCTYPE html>\n<html lang=\"fr\">\n<head>\n<meta charset=\"utf-8\">\n",
    "<meta name=\"viewport\" content=\"width=device-width, initial-scale=1\">\n",
    head,
    "\n<title>" ++ title ++ "</title>\n",
    "<style>\n" ++ String.join (styles.map style) ++ "</style>\n</head>\n<body>\n",
    content,
    "\n</body>\n</html>"]

def errorSection (errors : List String) : Html :=
  showIf (!errors.isEmpty) <|
    html ["<section class=\"errors\">\n<h2>Erreurs</h2>\n<ul>\n",
      each errors fun error => html ["<li>", data error, "</li>\n"],
      "\n</ul>\n</section>\n"]

end HeatingControl.Web
