import Wordbook.Dialect

/-!
# The scenesetup dialect

Commands that describe a scene, such as
`addlight 0.0 position (4 -1 -4) color #ffff showgizmo true`.  A command about an object applies to
the object added last.
-/

namespace Wordbook.SceneSetup

/-- The types of the arguments. -/
def types : List ValueType := [
  { id := "float"
    notes := ["Fraction value", "0.0"] },
  { id := "bool"
    notes := ["Boolean value", "true/false", "1/0"] },
  { id := "color"
    notes := ["Red/Green/Blue/\x7bAlpha\x7d", "HEXA: #ABC\x7bD\x7d", "      #AABBCC\x7bDD\x7d",
              "FLOAT: (f f f f)"] },
  { id := "vec3"
    notes := ["X/Y/Z as float", "(f f f)", "(f)"] },
  { id := "string"
    notes := ["Quoted text", "\"setmesh\""] }
]

/-- Objects and their properties. -/
def objectCommands : List Command := [
  { aliases := ["addlight"]
    description :=
      "Add a light to the scene.\nThe type is a float (0.0 directional, 1.0 point) or a light " ++
      "type name."
    args := [.optional "float" "type" "0.0"] },
  { aliases := ["position"]
    description := "Set the position of the last added object"
    args := [.required "vec3" "v"] },
  { aliases := ["lookat"]
    description := "Orient the last added object toward a point"
    args := [.required "vec3" "v"] },
  { aliases := ["color"]
    description := "Set the color of the last added object"
    args := [.required "color" "c"] }
]

/-- Settings of the scene and the viewer. -/
def sceneCommands : List Command := [
  { aliases := ["setupscene"]
    description := "Select the scene itself as the object that following commands apply to" },
  { aliases := ["clearcolor"]
    description := "Set the background clear color"
    args := [.required "color" "c"] },
  { aliases := ["showgizmo"]
    description := "Show or hide the axis gizmo"
    args := [.optional "bool" "show" "true"] },
  { aliases := ["showlight"]
    description := "Show or hide the light markers"
    args := [.optional "bool" "show" "true"] },
  { aliases := ["show"]
    description := "Turn a display option on (gizmo, lights)"
    args := [.required "string" "option"] },
  { aliases := ["hide"]
    description := "Turn a display option off (gizmo, lights)"
    args := [.required "string" "option"] },
  { aliases := ["toggle"]
    description := "Flip a display option (gizmo, lights)"
    args := [.required "string" "option"] },
  { aliases := ["custom"]
    description :=
      "Register a custom viewer command.\nThe name selects the command, the text is its " ++
      "easymesh payload."
    args := [.required "string" "name", .required "string" "text"] }
]

/-- The dialect. -/
def dialect : Dialect where
  name := "scenesetup"
  types := types
  commands := objectCommands ++ sceneCommands

end Wordbook.SceneSetup
