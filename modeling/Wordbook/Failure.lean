/-!
# Failures

Why a question that was put in the right form has no answer, and how that is said.
-/

namespace Wordbook

/-- Why a question has no answer. -/
inductive Failure where
  /-- The settings cannot be read. -/
  | settingsUnreadable (path : String)
  /-- The settings do not fit. -/
  | settingsRefused (path : String)
  /-- The dialect document cannot be read, or does not fit. -/
  | dialectRefused (path : String)
  /-- The script cannot be read. -/
  | scriptUnreadable (path : String)
  /-- The document cannot be written. -/
  | documentUnwritable (path : String)
  /-- No command has the alias; `suggestions` are the commands that it opens. -/
  | unknownCommand (name dialect : String) (suggestions : List String)
deriving DecidableEq, Repr

namespace Failure

/-- The failure in words. -/
def message : Failure → String
  | settingsUnreadable path => "Failed to read config file: " ++ path
  | settingsRefused path => "Invalid config file: " ++ path
  | dialectRefused path => "Failed to load dialect file: " ++ path
  | scriptUnreadable path => "Failed to read file: " ++ path
  | documentUnwritable path => "Failed to write file: " ++ path
  | unknownCommand name dialect suggestions =>
    "no command '" ++ name ++ "' in dialect " ++ dialect
      ++ if suggestions.isEmpty then ""
        else " (did you mean: " ++ ", ".intercalate suggestions ++ "?)"

end Failure

end Wordbook
