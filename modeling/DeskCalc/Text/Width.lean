import DeskCalc.Text.Emoji
import DeskCalc.Text.Ligature

/-! # Display width of a text

The columns that a text takes in a terminal.  It is the sum over its characters, except where
characters are drawn as one: letters that join in their script, a picture with its variation
selector, its skin tone or the pictures joined to it, and the two characters that end a line.

The text is measured from its end.  A character is put before a measured text; what the text starts
with decides how many columns the character adds. -/

namespace DeskCalc.Text

/-- The start of a text that can join a letter put before it.  A flag says whether a joiner stands
before the letter. -/
inductive LigatureEnd
  | alef
  | lamed (joined : Bool)
  | ya (joined : Bool)
  /-- The Buginese vowel i, a joiner and ya. -/
  | vowelAndYa
  | consonant (joined : Bool)
  /-- The Tifinagh joiner and a consonant. -/
  | linkedConsonant
  | stacking
  | secondTone
  | orkhonI (joined : Bool)
deriving DecidableEq

/-- The start of a text that can join an emoji put before it: a joiner and an emoji, with the end of
another emoji before them. -/
inductive EmojiEnd
  | bare
  | keycap
  | oneRegion
  | evenRegions
  | oddRegions
  /-- The end of a subdivision's name and so many of its letters. -/
  | tagLetters (count : Nat)
  /-- The name of a subdivision from so many digits on. -/
  | tagDigits (count : Nat)
deriving DecidableEq

/-- What a text starts with, as far as a character before it can tell. -/
inductive TextStart
  | plain
  | lineFeed
  | emoji
  | skinTone
  /-- One region letter, or several. -/
  | region (several : Bool)
  | ligature (l : LigatureEnd)
  | joined (e : EmojiEnd)
deriving DecidableEq

/-- The picture that a variation selector asks for. -/
inductive Presentation
  | text
  | emoji
deriving DecidableEq

/-- A measured text: its columns, what it starts with, and the variation selector in front. -/
structure Extent where
  columns : Nat
  start : TextStart
  selector : Option Presentation
deriving DecidableEq

namespace LigatureEnd

/-- The start with a joiner put before it. -/
def withJoiner : LigatureEnd → LigatureEnd
  | .lamed _ => .lamed true
  | .ya _ => .ya true
  | .consonant _ => .consonant true
  | .orkhonI _ => .orkhonI true
  | l => l

/-- The columns and the start of a text of `n` columns once `c` has joined it from the front; none
when `c` does not join. -/
def join? (l : LigatureEnd) (n : Nat) (c : Char) : Option (Nat × TextStart) :=
  if l ≠ .alef ∧ c = joiner then some (n, .ligature l.withJoiner)
  else if l ≠ .alef ∧ isIgnorable c then some (n, .ligature l)
  else
    match l with
    | .alef =>
      if isLam c then some (n, .plain)
      else if isTransparent c then some (n, .ligature .alef)
      else none
    | .lamed true => if c = '\u05d0' then some (n, .plain) else none
    | .ya true => if c = '\u1a17' then some (n, .ligature .vowelAndYa) else none
    | .vowelAndYa => if c = '\u1a15' then some (n, .plain) else none
    | .consonant joined =>
      if c = '\u2d7f' then some (n + 1, .ligature .linkedConsonant)
      else if joined ∧ isTifinaghConsonant c then some (n, .plain)
      else none
    | .linkedConsonant => if isTifinaghConsonant c then some (n - 1, .plain) else none
    | .stacking => if c = '\u17d2' then some (n - 1, .plain) else none
    | .secondTone => if isFirstTone c then some (n, .plain) else none
    | .orkhonI true => if c.toNat = 0x10C32 then some (n, .plain) else none
    | _ => none

end LigatureEnd

namespace EmojiEnd

/-- As `LigatureEnd.join?`, for emoji: the pictures before a joiner add nothing to those behind. -/
def join? (e : EmojiEnd) (n : Nat) (c : Char) : Option (Nat × TextStart) :=
  match e with
  | .bare =>
    if c = Text.keycap then some (n, .joined .keycap)
    else if isRegionLetter c then some (n + 1, .joined .oneRegion)
    else if isSkinTone c then some (n, .skinTone)
    else if c = tagEnd then some (n, .joined (.tagLetters 0))
    else if isEmoji c then some (n, .emoji)
    else none
  | .keycap => none
  | .oneRegion => if isRegionLetter c then some (n - 1, .joined .evenRegions) else none
  | .evenRegions =>
    if isRegionLetter c then some (n + 3, .joined .oddRegions)
    else if c = joiner then some (n, .joined .bare)
    else none
  | .oddRegions =>
    if isRegionLetter c then some (n - 1, .joined .evenRegions)
    else if c = joiner then some (n, .joined .bare)
    else none
  | .tagLetters count =>
    if isTagLetter c ∧ count < 6 then some (n, .joined (.tagLetters (count + 1)))
    else if isTagDigit c ∧ count < 5 then some (n, .joined (.tagDigits 1))
    else if c = blackFlag ∧ 3 ≤ count then some (n, .emoji)
    else none
  | .tagDigits count =>
    if isTagDigit c ∧ count < 3 then some (n, .joined (.tagDigits (count + 1)))
    else if c = blackFlag ∧ count = 3 then some (n, .emoji)
    else none

end EmojiEnd

namespace TextStart

/-- How a text starts that starts with `c`, which does not join what follows. -/
def ofChar (c : Char) : TextStart :=
  if c = '\n' then .lineFeed
  else if isAlef c then .ligature .alef
  else if c = '\u05dc' then .ligature (.lamed false)
  else if c = '\u1a10' then .ligature (.ya false)
  else if isTifinaghConsonant c then .ligature (.consonant false)
  else if isStacking c then .ligature .stacking
  else if isSecondTone c then .ligature .secondTone
  else if c.toNat = 0x10C03 then .ligature (.orkhonI false)
  else if isRegionLetter c then .region false
  else if isSkinTone c then .skinTone
  else if isEmoji c then .emoji
  else .plain

/-- What is left of a start when a variation selector stands before it: letters still join. -/
def behindSelector : TextStart → TextStart
  | .ligature l => .ligature l
  | _ => .plain

/-- What is left of a start when the selector for the colored picture stands before it: a joined
emoji still joins the picture that the selector belongs to. -/
def behindEmojiSelector : TextStart → TextStart
  | .joined .bare => .joined .bare
  | .joined .keycap => .joined .keycap
  | start => start.behindSelector

/-- The columns that a picture with its selector takes before the start. -/
def pictureWidth : TextStart → Nat
  | .joined _ => 0
  | _ => 2

/-- The columns and the start of a text of `n` columns once `c` has joined it from the front; none
when `c` does not join. -/
def join? (start : TextStart) (n : Nat) (c : Char) : Option (Nat × TextStart) :=
  match start with
  | .plain => none
  | .lineFeed => if c = '\r' then some (n, .plain) else none
  | .emoji => if c = joiner then some (n, .joined .bare) else none
  | .skinTone =>
    if takesSkinTone c then some (n, .emoji)
    else if c = joiner then some (n, .joined .bare)
    else none
  | .region several =>
    if isRegionLetter c then some (n + 1, .region true)
    else if several ∧ c = joiner then some (n, .joined .bare)
    else none
  | .ligature l => l.join? n c
  | .joined e => e.join? n c

end TextStart

namespace Extent

/-- The empty text. -/
def empty : Extent := ⟨0, .plain, none⟩

/-- A text with `c` put before it. -/
def cons (c : Char) (e : Extent) : Extent :=
  -- a selector counts only with a picture in front of it that has the style it asks for
  if e.selector = some .emoji ∧ takesStyle c then
    ⟨e.columns + e.start.pictureWidth, .emoji, none⟩
  else if e.selector = some .text ∧ hasNarrowStyle c then ⟨e.columns + 1, .plain, none⟩
  else
    let start := if e.selector = none then e.start else e.start.behindSelector
    if c = emojiSelector then ⟨e.columns, start.behindEmojiSelector, some .emoji⟩
    else if c = textSelector then ⟨e.columns, start.behindSelector, some .text⟩
    else
      match start.join? e.columns c with
      | some (columns, start) => ⟨columns, start, none⟩
      | none => ⟨e.columns + (if c = '\n' then 0 else charWidth c), .ofChar c, none⟩

end Extent

/-- Measures a text. -/
def extent (cs : List Char) : Extent :=
  cs.foldr Extent.cons Extent.empty

/-- The columns that a text takes.  A line feed takes none. -/
def width (cs : List Char) : Nat :=
  (extent cs).columns

end DeskCalc.Text
