/-!
# Blanks and lines

Blanks are the white-space characters of every script, with the four information separators `U+001C`
to `U+001F` among them. A line ends at a line feed, a carriage return, the two together, or one of
`U+000B`, `U+000C`, `U+001C` to `U+001E`, `U+0085`, `U+2028` and `U+2029`. The last line need not be
ended, and no line follows the last end.
-/

namespace SigmaDesk.Text

def isBlank (c : Char) : Bool :=
  let n := c.toNat
  (0x09 ≤ n && n ≤ 0x0D) || (0x1C ≤ n && n ≤ 0x20) || n == 0x85 || n == 0xA0 || n == 0x1680 ||
    (0x2000 ≤ n && n ≤ 0x200A) || n == 0x2028 || n == 0x2029 || n == 0x202F || n == 0x205F ||
    n == 0x3000

def trimLeft (cs : List Char) : List Char := cs.dropWhile isBlank

/-- Drops the blanks at the end: a blank is kept only if something after it is. -/
def trimRight : List Char → List Char
  | [] => []
  | c :: cs =>
    match trimRight cs with
    | [] => if isBlank c then [] else [c]
    | d :: ds => c :: d :: ds

def trim (cs : List Char) : List Char := trimLeft (trimRight cs)

@[simp] theorem trimLeft_nil : trimLeft [] = [] := rfl

@[simp] theorem trimRight_nil : trimRight [] = [] := rfl

@[simp] theorem trim_nil : trim [] = [] := rfl

def words (cs : List Char) : List (List Char) :=
  (cs.splitOnP isBlank).filter (!·.isEmpty)

@[simp] theorem words_nil : words [] = [] := rfl

def isBreak (c : Char) : Bool :=
  let n := c.toNat
  (0x0A ≤ n && n ≤ 0x0D) || (0x1C ≤ n && n ≤ 0x1E) || n == 0x85 || n == 0x2028 || n == 0x2029

/-- The lines of a text, without their ends, where `ends` says which characters end one. -/
def linesBy (ends : Char → Bool) : List Char → List (List Char)
  | [] => []
  | '\r' :: '\n' :: cs => [] :: linesBy ends cs
  | c :: cs =>
    if ends c then [] :: linesBy ends cs
    else
      match linesBy ends cs with
      | [] => [[c]]
      | l :: ls => (c :: l) :: ls

def lines (cs : List Char) : List (List Char) := linesBy isBreak cs

def unlines (ls : List (List Char)) : List Char := ls.flatMap (· ++ ['\n'])

@[simp] theorem lines_nil : lines [] = [] := rfl

@[simp] theorem unlines_nil : unlines [] = [] := rfl

@[simp] theorem unlines_cons (l : List Char) (ls : List (List Char)) :
    unlines (l :: ls) = l ++ '\n' :: unlines ls := by
  simp [unlines]

def isLineFeedOrReturn (c : Char) : Bool := c == '\n' || c == '\r'

/-- Whether a value fits on one line as far as line feeds and carriage returns go. -/
def isSingleLine (s : String) : Bool := s.toList.all fun c => !isLineFeedOrReturn c

end SigmaDesk.Text
