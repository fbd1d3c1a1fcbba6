import Wordbook.Dialect

/-!
# The easymesh dialect

Commands that build a mesh.  A script is a row of short commands such as `sc#f80 ab 1 ty .5`; braces
open a scope, on which the commands after it act.
-/

namespace Wordbook.EasyMesh

/-- The types of the arguments. -/
def types : List ValueType := [
  { id := "[ ]"
    notes :=
     ["Opens a new scope,\nevery operations between the braces\nwill only be done to the " ++
      "vertices added\nsince the start of this scope."] },
  { id := "float"
    notes := ["Fraction value", "0.0"] },
  { id := "int"
    notes := ["No decimal value", "0"] },
  { id := "bool"
    notes := ["Boolean value", "true/false", "1/0"] },
  { id := "color"
    notes := ["Red/Green/Blue/\x7bAlpha\x7d", "HEXA: #ABC\x7bD\x7d", "      #AABBCC\x7bDD\x7d",
              "FLOAT: f f f f", "      (f f f f)", "      (f)"] },
  { id := "vec3"
    notes := ["X/Y/Z as float", " f f f", "(f f f)", "(f)"] }
]

/-- Set operations between the current scope and a new one. -/
def scopeCommands : List Command := [
  { aliases := ["csgu", "csgunion"]
    description := "Performs a Union operation as :\n(current_scope_outside + new_scope_Outside)"
    args := [.required "[ ]" "New scope"] },
  { aliases := ["csgs", "csgsubstract"]
    description :=
      "Performs a Substract operation as :\n(current_scope_Outside + new_scope_Inside-inverted)"
    args := [.required "[ ]" "New scope"] },
  { aliases := ["csgsl", "csgsubstractloss"]
    description := "Performs a Substract operation without keeping the new_scope part"
    args := [.required "[ ]" "New scope"] },
  { aliases := ["csga", "csgand"]
    description := "Performs an And operation as :\n(current_scope_Inside + new_scope__Inside)"
    args := [.required "[ ]" "New scope"] },
  { aliases := ["csgx", "csgxor"]
    description :=
      "Performs a Xor operation as :\n(current_scope_Outside + current_scope_Inside-inverted " ++
      "+ new_scope_Outside + new_scope_Inside-inverted)"
    args := [.required "[ ]" "New scope"] }
]

/-- Colours, winding and loops. -/
def basicCommands : List Command := [
  { aliases := ["tsw", "scalewinding"]
    description :=
      "When activated, on negative-scaling,\nnormal-vector correction will not occur" },
  { aliases := ["sc", "setcolor"]
    description := "Set A color"
    args := [.required "color" "color"] },
  { aliases := ["scb", "setcolorb"]
    description := "Set B color"
    args := [.required "color" "color"] },
  { aliases := ["scv", "setcolorv"]
    description := "Set the color of all vertices in this scope"
    args := [.required "color" "color"] },
  { aliases := ["lp", "loop"]
    description := "Performs a loop with the code in the braces.\nDoesn't open a new scope."
    args := [.required "int" "loopnb", .required "[ ]" "Loop command"] }
]

/-- Commands that move and deform vertices. -/
def transformCommands : List Command := [
  { aliases := ["tx", "translatex"]
    description := "Translate vertices along the X axis"
    args := [.required "float" "n"] },
  { aliases := ["ty", "translatey"]
    description := "Translate vertices along the Y axis"
    args := [.required "float" "n"] },
  { aliases := ["tz", "translatez"]
    description := "Translate vertices along the Z axis"
    args := [.required "float" "n"] },
  { aliases := ["t", "translate"]
    description := "Translate vertices"
    args := [.required "vec3" "v"] },
  { aliases := ["rx", "rotatex"]
    description := "Rotate vertices along the X axis"
    args := [.required "float" "degree"] },
  { aliases := ["ry", "rotatey"]
    description := "Rotate vertices along the Y axis"
    args := [.required "float" "degree"] },
  { aliases := ["rz", "rotatez"]
    description := "Rotate vertices along the Z axis"
    args := [.required "float" "degree"] },
  { aliases := ["r", "rotate"]
    description := "Rotate vertices along the given axis"
    args := [.required "float" "degree", .required "vec3" "axis"] },
  { aliases := ["rj", "radialjitter"]
    description :=
      "Randomly move vertices along Origin-to-vertex as f(vtx) = vtx + o2v * (1.0 + rand(r))"
    args := [.required "float" "r"] },
  { aliases := ["tax", "taperx"]
    description :=
      "multiply axis y/z by f(x)\nf(z) = z * (1.0 + (nz * f(x) + xoff))\nf(x) = absolute ? " ++
      "abs_x : x"
    args := [.required "float" "ny", .required "float" "nz", .optional "float" "xoff" "0.0",
             .optional "bool" "absolute" "true"] },
  { aliases := ["tay", "tapery"]
    description :=
      "multiply axis x/z by f(y)\nf(x) = x * (1.0 + (nx * f(y) + yoff))\nf(y) = absolute ? " ++
      "abs_y : y"
    args := [.required "float" "nx", .required "float" "nz", .optional "float" "yoff" "0.0",
             .optional "bool" "absolute" "true"] },
  { aliases := ["taz", "taperz"]
    description :=
      "multiply axis x/y by f(z)\nf(y) = y * (1.0 + (ny * f(z) + zoff))\nf(z) = absolute ? " ++
      "abs_z : z"
    args := [.required "float" "nx", .required "float" "ny", .optional "float" "zoff" "0.0",
             .optional "bool" "absolute" "true"] },
  { aliases := ["twx", "twistx"]
    description :=
      "Twist vertices around x axis with x as rotation value\nf(p) = (RotateX(x * t + toff) * p)"
    args := [.required "float" "t", .optional "float" "toff" "0.0"] },
  { aliases := ["twy", "twisty"]
    description :=
      "Twist vertices around y axis with y as rotation value\nf(p) = (RotateY(y * t + toff) * p)"
    args := [.required "float" "t", .optional "float" "toff" "0.0"] },
  { aliases := ["twz", "twistz"]
    description :=
      "Twist vertices around z axis with z as rotation value\nf(p) = (RotateZ(z * t + toff) * p)"
    args := [.required "float" "t", .optional "float" "toff" "0.0"] },
  { aliases := ["shx", "shearx"]
    description :=
      "Shear vertices using x value as shear quantity\nf(z) = z + (nz * f(x) + xoff)\nf(x) = " ++
      "absolute ? abs_x : x"
    args := [.required "float" "ny", .required "float" "nz", .optional "float" "xoff" "0.0",
             .optional "bool" "absolute" "true"] },
  { aliases := ["shy", "sheary"]
    description :=
      "Shear vertices using y value as shear quantity\nf(x) = x + (nx * f(y) + yoff)\nf(y) = " ++
      "absolute ? abs_y : y"
    args := [.required "float" "nx", .required "float" "nz", .optional "float" "yoff" "0.0",
             .optional "bool" "absolute" "true"] },
  { aliases := ["shz", "shearz"]
    description :=
      "Shear vertices using z value as shear quantity\nf(y) = y + (ny * f(z) + zoff)\nf(z) = " ++
      "absolute ? abs_z : z"
    args := [.required "float" "nx", .required "float" "ny", .optional "float" "zoff" "0.0",
             .optional "bool" "absolute" "true"] },
  { aliases := ["stx", "stretchx"]
    description :=
      "Stretch vertices using x value as stretch quantity\nf(z) = z + (pow(x, nz) + xoff)"
    args := [.required "float" "ny", .required "float" "nz", .optional "float" "xoff" "0.0"] },
  { aliases := ["sty", "stretchy"]
    description :=
      "Stretch vertices using y value as stretch quantity\nf(x) = x + (pow(y, nx) + yoff)"
    args := [.required "float" "nx", .required "float" "nz", .optional "float" "yoff" "0.0"] },
  { aliases := ["stz", "stretchz"]
    description :=
      "Stretch vertices using z value as stretch quantity\nf(y) = y + (pow(z, ny) + zoff)"
    args := [.required "float" "nx", .required "float" "ny", .optional "float" "zoff" "0.0"] },
  { aliases := ["bdxy", "bendxy"]
    description :=
      "Bend vertices using x as bend quantity along y axis\nf(p) = (RotateY(x * t + toff) * p)"
    args := [.required "float" "t", .optional "float" "toff" "0.0"] },
  { aliases := ["bdxz", "bendxz"]
    description :=
      "Bend vertices using x as bend quantity along z axis\nf(p) = (RotateZ(x * t + toff) * p)"
    args := [.required "float" "t", .optional "float" "toff" "0.0"] },
  { aliases := ["bdyx", "bendyx"]
    description :=
      "Bend vertices using y as bend quantity along x axis\nf(p) = (RotateX(y * t + toff) * p)"
    args := [.required "float" "t", .optional "float" "toff" "0.0"] },
  { aliases := ["bdyz", "bendyz"]
    description :=
      "Bend vertices using y as bend quantity along z axis\nf(p) = (RotateZ(y * t + toff) * p)"
    args := [.required "float" "t", .optional "float" "toff" "0.0"] },
  { aliases := ["bdzx", "bendzx"]
    description :=
      "Bend vertices using z as bend quantity along x axis\nf(p) = (RotateX(z * t + toff) * p)"
    args := [.required "float" "t", .optional "float" "toff" "0.0"] },
  { aliases := ["bdzy", "bendzy"]
    description :=
      "Bend vertices using z as bend quantity along y axis\nf(p) = (RotateY(z * t + toff) * p)"
    args := [.required "float" "t", .optional "float" "toff" "0.0"] },
  { aliases := ["sx", "scalex"]
    description := "Scale vertices"
    args := [.required "vec3" "s"] },
  { aliases := ["sy", "scaley"]
    description := "Scale vertices"
    args := [.required "vec3" "s"] },
  { aliases := ["sz", "scalez"]
    description := "Scale vertices"
    args := [.required "vec3" "s"] },
  { aliases := ["s", "scale"]
    description := "Uniformly Scale vertices"
    args := [.required "float" "s"] },
  { aliases := ["dup", "duplicate"]
    description := "Duplicate scope mesh and apply commands in the brackets."
    args := [.required "[ ]" ""] },
  { aliases := ["mx", "mirrorx"]
    description := "Mirror vertices through X-plane" },
  { aliases := ["my", "mirrory"]
    description := "Mirror vertices through Y-plane" },
  { aliases := ["mz", "mirrorz"]
    description := "Mirror vertices through Z-plane" },
  { aliases := ["ch", "chamfer"]
    description := "DOES NOT WORK: Performs a chamfer operation"
    args := [.required "float" "f"] },
  { aliases := ["splt", "splittriangle"]
    description := "split triangles in 4 smaller ones"
    args := [.required "int" "pass"] },
  { aliases := ["smth", "smooth"]
    description := "Smooth the mesh by subdivising it"
    args := [.required "int" "pass", .required "int" "split_per_pass",
             .required "int" "smooth_per_pass"] }
]

/-- Shapes that are added to the current scope. -/
def shapeCommands : List Command := [
  { aliases := ["ac", "addcylinder"]
    description :=
      "Cylinder centered on (0,0,0) with BBox:\nMin: [-.5 * max(d1, d2),-.5 * h,-.5 * max(d1, " ++
      "d2)]\nMax: [ .5 * max(d1, d2), .5 * h,  .5 * max(d1, d2)]"
    args := [.required "int" "nsides", .required "float" "h", .required "float" "d1",
             .optional "float" "d2" "d1", .optional "bool" "dualsides" "false",
             .optional "bool" "smooth" "false", .optional "bool" "close" "false"] },
  { aliases := ["asph", "addsphere"]
    description := "Sphere centered on (0,0,0) with BBox:\nMin: [-.5 * d]\nMax: [ .5 * d]"
    args := [.required "int" "ndivisions", .required "float" "d"] },
  { aliases := ["acap", "addcapsule"]
    description :=
      "Capsule centered on (0,0,0) with BBox:\nMin: [-.5 * d,-(.5 * d + h),-.5 * d]\nMax: [ " ++
      ".5 * d, (.5 * d + h), .5 * d]"
    args := [.required "int" "ndivisions", .required "float" "h", .required "float" "d"] },
  { aliases := ["ato", "addtorus"]
    description := "Torus centered on (0,0,0) with BBox:\nMin: [-.5 * d2]\nMax: [ .5 * d2]"
    args := [.required "int" "ndivisions", .required "float" "d1", .required "float" "d2"] },
  { aliases := ["ab", "addbox"]
    description := "Box centered on (0,0,0) with BBox:\nMin: [-.5 * size]\nMax: [ .5 * size]"
    args := [.required "vec3" "size", .optional "float" "chamf" "0.0"] },
  { aliases := ["ascb", "addsmoothchamfbox"]
    description := "Box centered on (0,0,0) with BBox:\nMin: [-.5 * size]\nMax: [ .5 * size]"
    args := [.required "vec3" "size", .required "float" "chamf"] },
  { aliases := ["afcb", "addflatchamfbox"]
    description := "Box centered on (0,0,0) with BBox:\nMin: [-.5 * size]\nMax: [ .5 * size]"
    args := [.required "vec3" "size", .required "float" "chamf"] },
  { aliases := ["as", "addstar"]
    description := "Append a Star centered on (0,0,0)\nContained in a disc of max(d1, d2) diameter."
    args := [.required "int" "nbranches", .required "float" "d1", .required "float" "d2",
             .optional "bool" "fade" "false", .optional "bool" "fade2" "false"] },
  { aliases := ["aes", "addexpandedstar"]
    description :=
      "Star centered on (0,0,0)\nContained in a disc of max(max(d1, d2), max(d1 + extrad, d2 " ++
      "+ extrad)) diameter.\nExpanded star branches use Color2."
    args := [.required "int" "nbranches", .required "float" "d1", .required "float" "d2",
             .optional "float" "extrad" "0.0"] },
  { aliases := ["ad", "adddisc"]
    description := "Disc centered on (0,0,0) with d diameter."
    args := [.required "int" "nsides", .required "float" "d", .optional "bool" "fade" "false"] },
  { aliases := ["at", "addtriangle"]
    description := "Triangle centered on (0,0,0)\nContained in a disc of d diameter."
    args := [.required "float" "d", .optional "bool" "fade" "false"] },
  { aliases := ["aq", "addquad"]
    description :=
      "Quad centered on (0,0,0) with BBox:\nMin: [-size * .5f, 0,-size * .5f]\nMax: [ size * " ++
      ".5f, 0, size * .5f]"
    args := [.required "float" "size", .optional "bool" "fade" "false"] },
  { aliases := ["acg", "addcog"]
    description :=
      "Gear centered on (0,0,0) with BBox:\nMin: [-.5 * max(d1, d2),-.5 * h,-.5 * max(d1, d2)]" ++
      "\nMax: [ .5 * max(d1, d2), .5 * h, .5 * max(d1, d2)]"
    args := [.required "float" "h", .required "float" "d10", .required "float" "d20",
             .required "float" "d1", .required "float" "d2", .required "float" "d12",
             .required "float" "d22", .optional "float" "sidemul" "1.0",
             .optional "bool" "offset" "false"] }
]

/-- The dialect. -/
def dialect : Dialect where
  name := "easymesh"
  types := types
  commands := scopeCommands ++ basicCommands ++ transformCommands ++ shapeCommands

end Wordbook.EasyMesh
