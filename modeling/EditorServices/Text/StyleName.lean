import EditorServices.Text.LowerCase
import EditorServices.Text.Blank
import EditorServices.Text.IntegerText
import EditorServices.Text.Split

/-!
# `Text.StyleName` — names of text styles

A style is named by words: attributes, each of which may be negated, a color, a color of the
background, and a link. Two names with the same meaning have one normal form.

## Contents
- **Words.** `attributes`, `checkColor`, and `Fault`, what is wrong with a word.
- **Meanings.** `Meaning`, what words add up to, and its text.
- **Normal form.** `normal`; a name with an unknown word is only put into lower case.
-/

namespace EditorServices

namespace StyleName

/-! ## Words -/

/-- The attributes in the order of the normal form, each with its short names. -/
def attributes : List (String × List String) :=
  [("bold", ["b"]), ("dim", ["d"]), ("italic", ["i"]), ("underline", ["u"]), ("blink", []),
   ("blink2", []), ("reverse", ["r"]), ("conceal", ["c"]), ("strike", ["s"]),
   ("underline2", ["uu"]), ("frame", []), ("encircle", []), ("overline", ["o"])]

/-- The attribute that a word names. -/
def attribute? (word : String) : Option String :=
  (attributes.find? fun (name, short) => name = word || short.contains word).map (·.1)

/-- The names of colors. -/
def colorNames : List String :=
  ["black", "red", "green", "yellow", "blue", "magenta", "cyan", "white", "bright_black",
   "bright_red", "bright_green", "bright_yellow", "bright_blue", "bright_magenta", "bright_cyan",
   "bright_white", "grey0", "gray0", "navy_blue", "dark_blue", "blue3", "blue1", "dark_green",
   "deep_sky_blue4", "dodger_blue3", "dodger_blue2", "green4", "spring_green4", "turquoise4",
   "deep_sky_blue3", "dodger_blue1", "green3", "spring_green3", "dark_cyan", "light_sea_green",
   "deep_sky_blue2", "deep_sky_blue1", "spring_green2", "cyan3", "dark_turquoise", "turquoise2",
   "green1", "spring_green1", "medium_spring_green", "cyan2", "cyan1", "dark_red", "deep_pink4",
   "purple4", "purple3", "blue_violet", "orange4", "grey37", "gray37", "medium_purple4",
   "slate_blue3", "royal_blue1", "chartreuse4", "dark_sea_green4", "pale_turquoise4", "steel_blue",
   "steel_blue3", "cornflower_blue", "chartreuse3", "cadet_blue", "sky_blue3", "steel_blue1",
   "pale_green3", "sea_green3", "aquamarine3", "medium_turquoise", "chartreuse2", "sea_green2",
   "sea_green1", "aquamarine1", "dark_slate_gray2", "dark_magenta", "dark_violet", "purple",
   "light_pink4", "plum4", "medium_purple3", "slate_blue1", "yellow4", "wheat4", "grey53", "gray53",
   "light_slate_grey", "light_slate_gray", "medium_purple", "light_slate_blue", "dark_olive_green3",
   "dark_sea_green", "light_sky_blue3", "sky_blue2", "dark_sea_green3", "dark_slate_gray3",
   "sky_blue1", "chartreuse1", "light_green", "pale_green1", "dark_slate_gray1", "red3",
   "medium_violet_red", "magenta3", "dark_orange3", "indian_red", "hot_pink3", "medium_orchid3",
   "medium_orchid", "medium_purple2", "dark_goldenrod", "light_salmon3", "rosy_brown", "grey63",
   "gray63", "medium_purple1", "gold3", "dark_khaki", "navajo_white3", "grey69", "gray69",
   "light_steel_blue3", "light_steel_blue", "yellow3", "dark_sea_green2", "light_cyan3",
   "light_sky_blue1", "green_yellow", "dark_olive_green2", "dark_sea_green1", "pale_turquoise1",
   "deep_pink3", "magenta2", "hot_pink2", "orchid", "medium_orchid1", "orange3", "light_pink3",
   "pink3", "plum3", "violet", "light_goldenrod3", "tan", "misty_rose3", "thistle3", "plum2",
   "khaki3", "light_goldenrod2", "light_yellow3", "grey84", "gray84", "light_steel_blue1",
   "yellow2", "dark_olive_green1", "honeydew2", "light_cyan1", "red1", "deep_pink2", "deep_pink1",
   "magenta1", "orange_red1", "indian_red1", "hot_pink", "dark_orange", "salmon1", "light_coral",
   "pale_violet_red1", "orchid2", "orchid1", "orange1", "sandy_brown", "light_salmon1",
   "light_pink1", "pink1", "plum1", "gold1", "navajo_white1", "misty_rose1", "thistle1", "yellow1",
   "light_goldenrod1", "khaki1", "wheat1", "cornsilk1", "grey100", "gray100", "grey3", "gray3",
   "grey7", "gray7", "grey11", "gray11", "grey15", "gray15", "grey19", "gray19", "grey23", "gray23",
   "grey27", "gray27", "grey30", "gray30", "grey35", "gray35", "grey39", "gray39", "grey42",
   "gray42", "grey46", "gray46", "grey50", "gray50", "grey54", "gray54", "grey58", "gray58",
   "grey62", "gray62", "grey66", "gray66", "grey70", "gray70", "grey74", "gray74", "grey78",
   "gray78", "grey82", "gray82", "grey85", "gray85", "grey89", "gray89", "grey93", "gray93"]

/-- A hexadecimal digit in lower case. -/
def isLowHexDigit (c : Char) : Bool := c.isDigit || ('a' ≤ c && c ≤ 'f')

/-- Why a name has no meaning. -/
inductive Fault where
  /-- A word is unknown, or the one after it is missing. -/
  | unknown
  /-- A part of a color cannot be read as a number; what is wrong with it. -/
  | noNumber (message : String)
deriving DecidableEq, Repr

/-- What stands between a word with an opening bracket and a closing bracket. -/
def bracketed? (word : String) (s : List Char) : Option (List Char) :=
  if word.toList.isPrefixOf s && s.getLast? = some ')' then some ((s.drop word.length).dropLast)
  else none

/-- The parts of red, green and blue between the brackets of a color. Only digits and commas may
stand there, and no part may be above the greatest byte. -/
def checkParts (inside : List Char) : Except Fault Unit :=
  if !inside.isEmpty && inside.all fun c => c = ',' || (decimalValue? c).isSome then
    match splitAt1 ',' inside with
    | [red, green, blue] =>
      match [red, green, blue].mapM plainNumber with
      | .ok parts => if parts.all (· ≤ 255) then .ok () else .error .unknown
      | .error message => .error (.noNumber message)
    | _ => .error .unknown
  else .error .unknown

/-- Whether the digits between the brackets of a color are the number of one. -/
def isColorNumber (digits : List Char) : Bool :=
  digits.length ≤ 3 && digits.all Char.isDigit &&
    match plainNumber digits with
    | .ok n => n ≤ 255
    | .error _ => false

/-- Checks that a word in lower case is a color: a name, six hexadecimal digits, a number, or the
parts of red, green and blue. -/
def checkColor (word : List Char) : Except Fault Unit :=
  if word = "default".toList || colorNames.contains (String.ofList word) ||
    (match word with
      | '#' :: digits => digits.length = 6 && digits.all isLowHexDigit
      | _ => false) ||
    (bracketed? "color(" word).any isColorNumber then .ok ()
  else ((bracketed? "rgb(" word).map checkParts).getD (.error .unknown)

/-! ## Meanings -/

/-- What the words of a name add up to. -/
structure Meaning where
  /-- Attributes that are on or off. -/
  attributes : List (String × Bool)
  color : Option (List Char)
  background : Option (List Char)
  link : Option (List Char)
deriving DecidableEq, Repr

def Meaning.none : Meaning := ⟨[], .none, .none, .none⟩

/-- Sets an attribute. -/
def Meaning.put (m : Meaning) (name : String) (on : Bool) : Meaning :=
  { m with attributes := (name, on) :: m.attributes.filter (·.1 ≠ name) }

/-- The meaning of words after that of the words before them, up to the first fault. -/
def read (m : Meaning) : List (List Char) → Except Fault Meaning
  | [] => .ok m
  | first :: rest =>
    let word := lowerText first
    if word = "on".toList then
      match rest with
      | color :: rest =>
        match checkColor (lowerText color) with
        | .ok () => read { m with background := some (lowerText color) } rest
        | .error f => .error f
      | [] => .error .unknown
    else if word = "not".toList then
      match rest with
      | name :: rest =>
        match attribute? (String.ofList name) with
        | some a => read (m.put a false) rest
        | none => .error .unknown
      | [] => .error .unknown
    else if word = "link".toList then
      match rest with
      | link :: rest => read { m with link := some link } rest
      | [] => .error .unknown
    else
      match attribute? (String.ofList word) with
      | some a => read (m.put a true) rest
      | none =>
        match checkColor word with
        | .ok () => read { m with color := some word } rest
        | .error f => .error f

/-- The words of a meaning in the order of the normal form. -/
def Meaning.words (m : Meaning) : List (List Char) :=
  (StyleName.attributes.filterMap fun (name, _) =>
      (m.attributes.lookup name).map fun on =>
        if on then name.toList else "not ".toList ++ name.toList) ++
    m.color.toList ++
    (m.background.toList.map fun c => "on ".toList ++ c) ++
    m.link.toList.map fun l => "link ".toList ++ l

/-- The name of a meaning. -/
def Meaning.text (m : Meaning) : List Char :=
  if m.words.isEmpty then "none".toList else joinWith [' '] m.words

/-! ## Normal form -/

/-- The words of a text. -/
def wordsOf (s : List Char) : List (List Char) :=
  (splitAt1 ' ' (s.map fun c => if isBlank c then ' ' else c)).filter fun w => !w.isEmpty

/-- The meaning of a name. -/
def meaning (name : List Char) : Except Fault Meaning :=
  if strip name = "none".toList then .ok .none else read .none (wordsOf name)

/-- The normal form of a name, or what is wrong with a number in it. -/
def normal (name : List Char) : Except String (List Char) :=
  match meaning name with
  | .ok m => .ok m.text
  | .error .unknown => .ok (lowerText (strip name))
  | .error (.noNumber message) => .error message

/-- What is wrong with a number in a name that is only looked up. -/
def brokenNumber? (name : List Char) : Option String :=
  match meaning name with
  | .error (.noNumber message) => some message
  | _ => none

end StyleName

end EditorServices
