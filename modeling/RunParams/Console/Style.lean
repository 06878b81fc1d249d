import RunParams.Text.Blank
import RunParams.Text.LetterCase

/-!
# Styles

The names of markup tags are styles: attributes, a colour, a background and a link. A style can be written in several ways, and
has one normal form; a name that is no style is its own, in small letters.
-/

namespace RunParams.Console

/-- The attributes in the order of the normal form. -/
def attributeNames : List String :=
  ["bold", "dim", "italic", "underline", "blink", "blink2", "reverse", "conceal", "strike", "underline2", "frame",
   "encircle", "overline"]

/-- The short names of attributes. -/
def attributeAliases : List (String × String) :=
  [("d", "dim"), ("b", "bold"), ("i", "italic"), ("u", "underline"), ("r", "reverse"), ("c", "conceal"), ("s", "strike"),
   ("uu", "underline2"), ("o", "overline")]

/-- The attribute of a name. -/
def attribute? (name : String) : Option String :=
  if attributeNames.contains name then some name else attributeAliases.lookup name

/-- The colours that have names. -/
def colourNames : List String :=
  ["black", "red", "green", "yellow", "blue", "magenta", "cyan", "white", "bright_black", "bright_red", "bright_green",
   "bright_yellow", "bright_blue", "bright_magenta", "bright_cyan", "bright_white", "grey0", "gray0", "navy_blue",
   "dark_blue", "blue3", "blue1", "dark_green", "deep_sky_blue4", "dodger_blue3", "dodger_blue2", "green4",
   "spring_green4", "turquoise4", "deep_sky_blue3", "dodger_blue1", "green3", "spring_green3", "dark_cyan",
   "light_sea_green", "deep_sky_blue2", "deep_sky_blue1", "spring_green2", "cyan3", "dark_turquoise", "turquoise2",
   "green1", "spring_green1", "medium_spring_green", "cyan2", "cyan1", "dark_red", "deep_pink4", "purple4", "purple3",
   "blue_violet", "orange4", "grey37", "gray37", "medium_purple4", "slate_blue3", "royal_blue1", "chartreuse4",
   "dark_sea_green4", "pale_turquoise4", "steel_blue", "steel_blue3", "cornflower_blue", "chartreuse3", "cadet_blue",
   "sky_blue3", "steel_blue1", "pale_green3", "sea_green3", "aquamarine3", "medium_turquoise", "chartreuse2",
   "sea_green2", "sea_green1", "aquamarine1", "dark_slate_gray2", "dark_magenta", "dark_violet", "purple",
   "light_pink4", "plum4", "medium_purple3", "slate_blue1", "yellow4", "wheat4", "grey53", "gray53",
   "light_slate_grey", "light_slate_gray", "medium_purple", "light_slate_blue", "dark_olive_green3", "dark_sea_green",
   "light_sky_blue3", "sky_blue2", "dark_sea_green3", "dark_slate_gray3", "sky_blue1", "chartreuse1", "light_green",
   "pale_green1", "dark_slate_gray1", "red3", "medium_violet_red", "magenta3", "dark_orange3", "indian_red",
   "hot_pink3", "medium_orchid3", "medium_orchid", "medium_purple2", "dark_goldenrod", "light_salmon3", "rosy_brown",
   "grey63", "gray63", "medium_purple1", "gold3", "dark_khaki", "navajo_white3", "grey69", "gray69",
   "light_steel_blue3", "light_steel_blue", "yellow3", "dark_sea_green2", "light_cyan3", "light_sky_blue1",
   "green_yellow", "dark_olive_green2", "dark_sea_green1", "pale_turquoise1", "deep_pink3", "magenta2", "hot_pink2",
   "orchid", "medium_orchid1", "orange3", "light_pink3", "pink3", "plum3", "violet", "light_goldenrod3", "tan",
   "misty_rose3", "thistle3", "plum2", "khaki3", "light_goldenrod2", "light_yellow3", "grey84", "gray84",
   "light_steel_blue1", "yellow2", "dark_olive_green1", "honeydew2", "light_cyan1", "red1", "deep_pink2", "deep_pink1",
   "magenta1", "orange_red1", "indian_red1", "hot_pink", "dark_orange", "salmon1", "light_coral", "pale_violet_red1",
   "orchid2", "orchid1", "orange1", "sandy_brown", "light_salmon1", "light_pink1", "pink1", "plum1", "gold1",
   "navajo_white1", "misty_rose1", "thistle1", "yellow1", "light_goldenrod1", "khaki1", "wheat1", "cornsilk1",
   "grey100", "gray100", "grey3", "gray3", "grey7", "gray7", "grey11", "gray11", "grey15", "gray15", "grey19",
   "gray19", "grey23", "gray23", "grey27", "gray27", "grey30", "gray30", "grey35", "gray35", "grey39", "gray39",
   "grey42", "gray42", "grey46", "gray46", "grey50", "gray50", "grey54", "gray54", "grey58", "gray58", "grey62",
   "gray62", "grey66", "gray66", "grey70", "gray70", "grey74", "gray74", "grey78", "gray78", "grey82", "gray82",
   "grey85", "gray85", "grey89", "gray89", "grey93", "gray93"]

/-- A text in small letters. -/
def lowerCase (s : List Char) : List Char :=
  s.flatMap Text.lower

/-- The digits between a colour function and its closing parenthesis. -/
def arguments? (function : String) (word : List Char) : Option (List Char) :=
  let opening := function.toList ++ ['(']
  if word.take opening.length = opening ∧ word.getLast? = some ')' then some ((word.drop opening.length).dropLast)
  else none

/-- Whether digits write a number up to 255. -/
def isByte (ds : List Char) : Bool :=
  ds != [] && ds.all Char.isDigit && Nat.ofDigitChars 10 ds 0 ≤ 255

/-- Whether a word in small letters is a colour: a name, six hexadecimal digits, a number, or three. -/
def isColour (word : List Char) : Bool :=
  word == "default".toList
    || colourNames.contains (String.ofList word)
    || (match word with
        | '#' :: ds => ds.length == 6 && ds.all fun c => c.isDigit || ('a' ≤ c && c ≤ 'f')
        | _ => false)
    || (match arguments? "color" word with
        | some ds => ds.length ≤ 3 && isByte ds
        | none => false)
    || (match arguments? "rgb" word with
        | some ds => (ds.splitOn ',').length == 3 && (ds.splitOn ',').all isByte
        | none => false)

/-- A style; the attribute last set or unset comes first. -/
structure Style where
  attributes : List (String × Bool)
  colour : Option (List Char)
  background : Option (List Char)
  link : Option (List Char)

/-- The style without any effect. -/
def Style.plain : Style := ⟨[], none, none, none⟩

/-- Adds what words say to a style; nothing if they are no style. -/
def Style.addWords? (style : Style) : List (List Char) → Option Style
  | [] => some style
  | word :: rest =>
    let small := lowerCase word
    if small = "on".toList then
      match rest with
      | [] => none
      | colour :: rest =>
        if isColour (lowerCase colour) then
          Style.addWords? { style with background := some (lowerCase colour) } rest
        else none
    else if small = "not".toList then
      match rest with
      | [] => none
      | name :: rest => match attribute? (String.ofList name) with
        | some a => Style.addWords? { style with attributes := (a, false) :: style.attributes } rest
        | none => none
    else if small = "link".toList then
      match rest with
      | [] => none
      | target :: rest => Style.addWords? { style with link := some target } rest
    else match attribute? (String.ofList small) with
      | some a => Style.addWords? { style with attributes := (a, true) :: style.attributes } rest
      | none => if isColour small then Style.addWords? { style with colour := some small } rest else none

/-- The words of the normal form of a style. -/
def Style.words (style : Style) : List (List Char) :=
  let named := attributeNames.flatMap fun name =>
    match style.attributes.lookup name with
    | some true => [name.toList]
    | some false => ["not".toList, name.toList]
    | none => []
  named ++ style.colour.toList ++ (style.background.toList.flatMap fun c => ["on".toList, c])
    ++ (style.link.toList.flatMap fun l => ["link".toList, l])

/-- The normal form of the name of a tag. -/
def normalName (name : List Char) : List Char :=
  let ws := Text.words name
  let style := if ws = ["none".toList] then some Style.plain else Style.plain.addWords? ws
  match style with
  | some style =>
    let normal := [' '].intercalate style.words
    if normal = [] then "none".toList else normal
  | none => lowerCase (Text.trim Text.isBlank name)

end RunParams.Console
