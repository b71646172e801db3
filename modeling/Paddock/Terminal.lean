/-!
Lines for a terminal: pieces of text, each in a style of its own. Without colour only the text is
left.
-/
namespace Paddock

inductive Weight where
  | bold
  | dimmed
deriving DecidableEq, Repr

inductive Colour where
  | red
  | green
  | yellow
  | blue
  | cyan
deriving DecidableEq, Repr

def Weight.code : Weight → Char
  | bold => '1'
  | dimmed => '2'

def Colour.codes : Colour → List Char
  | red => ['3', '1']
  | green => ['3', '2']
  | yellow => ['3', '3']
  | blue => ['3', '4']
  | cyan => ['3', '6']

structure Style where
  weight : Option Weight := none
  colour : Option Colour := none
deriving DecidableEq, Repr

namespace Style

def opening : List Char := ['\x1b', '[']

/-- Ends every style. -/
def reset : List Char := opening ++ ['0', 'm']

/-- What begins a style; the weight stands before the colour. -/
def start (s : Style) : List Char :=
  match s.weight, s.colour with
  | none, none => []
  | some weight, none => opening ++ [weight.code, 'm']
  | none, some colour => opening ++ colour.codes ++ ['m']
  | some weight, some colour => opening ++ weight.code :: ';' :: colour.codes ++ ['m']

/-- Begins the style again after whatever ends it inside the text. -/
def renew (start : List Char) : List Char → List Char
  | '\x1b' :: '[' :: '0' :: 'm' :: rest => reset ++ start ++ renew start rest
  | c :: rest => c :: renew start rest
  | [] => []

end Style

structure Piece where
  text : String
  style : Style := {}
deriving DecidableEq, Repr

abbrev Line := List Piece

namespace Piece

instance : Coe String Piece := ⟨fun text => { text }⟩

def bold (text : String) : Piece := ⟨text, ⟨some .bold, none⟩⟩

def dimmed (text : String) : Piece := ⟨text, ⟨some .dimmed, none⟩⟩

def coloured (colour : Colour) (text : String) : Piece := ⟨text, ⟨none, some colour⟩⟩

def vivid (colour : Colour) (text : String) : Piece := ⟨text, ⟨some .bold, some colour⟩⟩

def render (colours : Bool) (p : Piece) : List Char :=
  if colours = false ∨ p.style = {} then p.text.toList
  else p.style.start ++ Style.renew p.style.start p.text.toList ++ Style.reset

end Piece

namespace Line

/-- The line with the break that ends it. -/
def render (colours : Bool) (line : Line) : List Char :=
  line.flatMap (Piece.render colours) ++ ['\n']

end Line

/-- All lines, one after the other. -/
def renderLines (colours : Bool) (lines : List Line) : String :=
  String.ofList (lines.flatMap (Line.render colours))

/-- Whether to use colours: they can be forced, they can be ruled out, and otherwise a terminal has
them unless they are switched off. A setting of `0` is off. -/
def usesColours (isTerminal : Bool) (forced ruledOut switched : Option String) : Bool :=
  let isOn (setting : String) := setting != "0"
  if forced.any isOn then true
  else if ruledOut.isSome then false
  else isTerminal && switched.all isOn

/-- The text with blanks behind it, up to a width. -/
def padRight (width : Nat) (text : String) : String :=
  text ++ String.ofList (List.replicate (width - text.length) ' ')

/-- The text with blanks before it, up to a width. -/
def padLeft (width : Nat) (text : String) : String :=
  String.ofList (List.replicate (width - text.length) ' ') ++ text

end Paddock
