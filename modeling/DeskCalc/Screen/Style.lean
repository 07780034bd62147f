/-! # Styles and styled text -/

namespace DeskCalc.Screen

/-- The colors in use. -/
inductive Color where
  | black
  | red
  | green
  | yellow
  | magenta
  | cyan
  | gray
  | darkGray
  | lightGreen
  | lightBlue
  | lightMagenta
deriving DecidableEq

/-- How a piece of text looks; what is not set is left to what lies below. -/
structure Style where
  foreground : Option Color
  background : Option Color
  bold : Bool
  underlined : Bool
deriving DecidableEq

namespace Style

/-- The style that sets nothing. -/
def plain : Style := ⟨none, none, false, false⟩

/-- Text in a color. -/
def color (c : Color) : Style := ⟨some c, none, false, false⟩

/-- Bold text in a color. -/
def boldColor (c : Color) : Style := ⟨some c, none, true, false⟩

/-- The look of `top` laid over `base`: colors are replaced where `top` sets them, bold and
underline add up. -/
def onTopOf (top base : Style) : Style where
  foreground := top.foreground <|> base.foreground
  background := top.background <|> base.background
  bold := top.bold || base.bold
  underlined := top.underlined || base.underlined

end Style

/-- A piece of text in one style. -/
structure Span where
  text : List Char
  style : Style
deriving DecidableEq

namespace Span

/-- Text without a style of its own. -/
def ofString (text : String) : Span := ⟨text.toList, Style.plain⟩

/-- Text in a style. -/
def styled (text : String) (style : Style) : Span := ⟨text.toList, style⟩

end Span

/-- A line of styled text. -/
abbrev Row := List Span

end DeskCalc.Screen
