import Perpetual.Foundation.Lines
import Perpetual.Foundation.Rewriting
import Perpetual.Foundation.Text

/-!
# Blocks of a Markdown text

The view of a message groups the lines of its text into blocks.  The loop looks at one line
after the other, and a paragraph takes lines up to the next one that begins another block.  A
fence or a heading with a line terminator in it begins a block without being one.
-/

namespace Perpetual
namespace Webview

open Foundation
open Foundation.Text

abbrev MarkdownLine := List Char

/-!
## Lines
-/

/-- What a dot of a pattern does not match. -/
def isLineTerminator (c : Char) : Bool :=
  c == '\n' || c == '\r' || c.toNat == 0x2028 || c.toNat == 0x2029

def unindented (line : MarkdownLine) : MarkdownLine := line.dropWhile isScriptWhitespace

def isBlank (line : MarkdownLine) : Bool := (trimScript line).isEmpty

/-- Three backquotes, wherever they lead. -/
def marksCode (line : MarkdownLine) : Bool := "```".toList.isPrefixOf (unindented line)

/-- The language of a fence that opens a block of code. -/
def fence (line : MarkdownLine) : Option (List Char) :=
  let rest := (unindented line).drop 3
  if marksCode line && !rest.any isLineTerminator then some (trimScript rest) else none

def hashes (line : MarkdownLine) : Nat := (line.takeWhile (· == '#')).length

/-- One to six number signs and white space, wherever they lead. -/
def startsHeading (line : MarkdownLine) : Bool :=
  decide (1 ≤ hashes line) && decide (hashes line ≤ 6) &&
    ((line.drop (hashes line)).head?.map isScriptWhitespace).getD false

def heading (line : MarkdownLine) : Option (Nat × List Char) :=
  let rest := (line.drop (hashes line)).dropWhile isScriptWhitespace
  if startsHeading line && !rest.any isLineTerminator then
    some (min (hashes line + 2) 6, rest)
  else none

def isQuote (line : MarkdownLine) : Bool := (unindented line).head? == some '>'

/-- A quoted line without its sign and one white space behind it. -/
def unquote (line : MarkdownLine) : MarkdownLine :=
  match (unindented line).drop 1 with
  | c :: rest => if isScriptWhitespace c then rest else c :: rest
  | [] => []

def isBullet (c : Char) : Bool := c == '-' || c == '*' || c == '+'

/-- What stands behind the marker of a list item, from its white space on. -/
def behindMarker (line : MarkdownLine) : Option (List Char) :=
  match unindented line with
  | [] => none
  | c :: rest =>
      if isBullet c then some rest
      else if c.isDigit then
        match rest.dropWhile Char.isDigit with
        | d :: rest => if d = '.' ∨ d = ')' then some rest else none
        | [] => none
      else none

def listItem (line : MarkdownLine) : Option (List Char) :=
  match behindMarker line with
  | some (c :: rest) =>
      if isScriptWhitespace c then some (rest.dropWhile isScriptWhitespace) else none
  | _ => none

def isOrdered (line : MarkdownLine) : Bool :=
  ((unindented line).head?.map Char.isDigit).getD false

def isRule (line : MarkdownLine) : Bool :=
  match unindented line with
  | [] => false
  | c :: rest =>
      (c == '-' || c == '*' || c == '_') && decide (2 ≤ (rest.takeWhile (· == c)).length) &&
        (rest.dropWhile (· == c)).all isScriptWhitespace

/-- The condition of the paragraph loop. -/
def goesOn (line : MarkdownLine) : Bool :=
  !isBlank line && !marksCode line && !startsHeading line && !isQuote line &&
    !(listItem line).isSome

/-!
## Blocks
-/

def joinLines : List MarkdownLine -> List Char
  | [] => []
  | [line] => line
  | line :: next :: rest => line ++ '\n' :: joinLines (next :: rest)

/-- The blocks, with the texts that are rendered inline. -/
inductive Block where
  | code (lang body : List Char)
  | heading (level : Nat) (text : List Char)
  | quote (blocks : List Block)
  | list (ordered : Bool) (items : List (List Char))
  | rule
  | paragraph (text : List Char)

/-- What one round of the loop does, and the lines it leaves. -/
inductive Round where
  | skip (left : List MarkdownLine)
  | block (block : Block) (left : List MarkdownLine)
  | quote (source : List Char) (left : List MarkdownLine)

def round (line : MarkdownLine) (rest : List MarkdownLine) : Round :=
  match fence line with
  | some lang =>
      .block (.code lang (joinLines (rest.takeWhile (fun l => !marksCode l))))
        ((rest.dropWhile (fun l => !marksCode l)).drop 1)
  | none =>
      if isBlank line then .skip rest
      else match heading line with
      | some (level, text) => .block (.heading level text) rest
      | none =>
          if isQuote line then
            .quote (joinLines (((line :: rest).takeWhile isQuote).map unquote))
              ((line :: rest).dropWhile isQuote)
          else if (listItem line).isSome then
            .block
              (.list (isOrdered line)
                (((line :: rest).takeWhile (fun l => (listItem l).isSome)).filterMap listItem))
              ((line :: rest).dropWhile (fun l => (listItem l).isSome))
          else if isRule line then .block .rule rest
          else
            .block (.paragraph (joinLines ((line :: rest).takeWhile goesOn)))
              ((line :: rest).dropWhile goesOn)

def afterRound (render : List MarkdownLine -> Option (List Block)) : Round -> Option (List Block)
  | .skip left => render left
  | .block block left => (render left).map (List.cons block)
  | .quote source left =>
      match render (Lines.segments '\n' source) with
      | some inner => (render left).map (List.cons (.quote inner))
      | none => none

/-- The loop, with a bound on its rounds; without a result the bound was too low. -/
def renderLines : Nat -> List MarkdownLine -> Option (List Block)
  | 0, _ => none
  | _ + 1, [] => some []
  | rounds + 1, line :: rest => afterRound (renderLines rounds) (round line rest)

def renderBlocks (rounds : Nat) (source : List Char) : Option (List Block) :=
  renderLines rounds (Lines.segments '\n' source)

def markdown (rounds : Nat) (text : List Char) : Option (List Block) :=
  renderBlocks rounds (replaceAll ['\r', '\n'] ['\n'] text)

end Webview
end Perpetual
