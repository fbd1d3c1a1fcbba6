import Wordbook.Completion
import Wordbook.Signature

/-!
# The panel

What an editor shows beside the script while a command is typed: the help of the command that is
meant, or the commands that may be.

## Main Definitions

* `Panel` — what a panel shows and how much of it
* `Panel.render` — the text of the panel
-/

namespace Wordbook

/-- What a panel shows. -/
structure Panel where
  /-- The number of candidates listed at most. -/
  maxCandidates : Nat := 12
  /-- The types of the arguments are explained as well. -/
  showTypes : Bool := true
deriving DecidableEq, Repr

namespace Panel

/-- What stands in the panel until there is a word. -/
def placeholder : String := "..."

/-- The help blocks of the documented types among the given ones, each after an empty line. -/
def typeHelp (d : Dictionary) (types : List String) : String :=
  ((types.filterMap d.findType).map (fun type => "\n" ++ type.help)).foldr (· ++ ·) ""

/-- The line that names the other candidates, after an empty line; nothing if there are none. -/
def alsoLine (names : List String) : String :=
  if names.isEmpty then "" else "\nalso: " ++ ", ".intercalate names ++ "\n"

/-- The panel about the command that is meant. -/
def renderResolved (panel : Panel) (d : Dictionary) (completion : Completion) : String :=
  match completion.best d with
  | none => placeholder
  | some (command, _) =>
    command.help ++ (if panel.showTypes then typeHelp d command.argumentTypes else "")
      ++ alsoLine (d.primaryAliases completion.candidates.tail)

/-- The panel about the commands that may be meant: the first ones, and how many more there are. -/
def renderAmbiguous (panel : Panel) (d : Dictionary) (completion : Completion) : String :=
  let shown := (completion.candidates.take panel.maxCandidates).filterMap d.command?
  let hidden := completion.candidates.length - panel.maxCandidates
  Text.unlines (shown.map (fun command => command.withSignature command.aliasLine))
    ++ (if hidden = 0 then "" else "(+" ++ toString hidden ++ " more)\n")

/-- The text of the panel. -/
def render (panel : Panel) (d : Dictionary) (completion : Completion) : String :=
  match completion.state with
  | .searching => placeholder
  | .noMatch => "no command matches '" ++ completion.token ++ "'"
  | .resolved => panel.renderResolved d completion
  | .ambiguous => panel.renderAmbiguous d completion

end Panel

end Wordbook
