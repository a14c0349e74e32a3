import Dicebag.Roll

/-!
# Showing a roll

A roll is shown next to its formula on one line, such as `4d6kh3 (1, 2, 3, 4) + 2 = 11`: each group
with the faces of its dice, the modifier unless it is zero, and the total.  The groups of the
formula are paired with those of the roll, and the shorter of the two ends the line.

A `Style` is how a single die and the total are drawn.  `Style.plain` writes numbers only.
`Style.markdown` makes highest faces and ones bold, strikes out what was set aside, and names
criticals and fumbles.
-/

set_option autoImplicit false

namespace Dicebag

/-- How the parts of a line are drawn. -/
structure Style where
  /-- The text of a die. -/
  die : Die → String
  /-- The text of the total, with the equals sign. -/
  total : Roll → String

namespace Style

/-- Numbers only. -/
def plain : Style where
  die d := toString d.value
  total r := " = " ++ toString r.total

/-- A die in Markdown: its highest face and a one are bold, and a die that was set aside is struck
out. -/
def markdownDie (d : Die) : String :=
  let face := toString d.value
  let marked := if d.isMax || d.isMin then "**" ++ face ++ "**" else face
  if d.discarded then "~~" ++ marked ++ "~~" else marked

/-- A total in Markdown: the number as code, and a critical or a fumble by name. -/
def markdownTotal (r : Roll) : String :=
  " = `" ++ toString r.total ++ "`" ++
    if r.critical then " **Critical!**" else if r.fumble then " **Fumble!**" else ""

/-- Markdown. -/
def markdown : Style := ⟨markdownDie, markdownTotal⟩

/-- A modifier between spaces, or nothing if it is zero. -/
def modifier (m : Int) : String :=
  if 0 < m then " + " ++ toString m else if m < 0 then " - " ++ toString (-m) else ""

/-- A group with its dice, and with the mode that it was rolled in unless that is normal. -/
def group (style : Style) (g : Group) (dice : List Die) (mode : Mode) : String :=
  g.text ++ " (" ++ String.intercalate ", " (dice.map style.die) ++ ")" ++
    if mode = .normal then "" else " (" ++ mode.label ++ ")"

/-- What stands before a group: its sign, which is left out for an added group that comes first. -/
def lead (place : Nat) (sign : Sign) : String :=
  if place = 0 then (match sign with | .plus => "" | .minus => "-")
  else " " ++ sign.symbol ++ " "

/-- The groups of a formula, each with its dice and its place. -/
def placed (f : Formula) (r : Roll) : List ((Group × List Die) × Nat) :=
  (f.groups.zip r.pools).zipIdx

/-- The line for a roll next to a formula. -/
def render (style : Style) (f : Formula) (r : Roll) : String :=
  String.join ((placed f r).map fun ((g, dice), i) =>
    lead i g.sign ++ style.group g dice (r.groupMode i)) ++
  modifier r.modifier ++ style.total r

end Style
end Dicebag
