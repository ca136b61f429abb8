import SigmaDesk.Text.Lines

/-!
# Scalars in rule text

A value stands bare in rule text unless reading it back would change it; then it is written between
single quotes. Reading also accepts double quotes, inside which a backslash escapes a double quote
or a backslash.
-/

namespace SigmaDesk.RuleText

/-- Writes `out` for each occurrence of `a` followed by `b`, from left to right. -/
def collapse (a b out : Char) : List Char → List Char
  | c :: d :: cs =>
    if c = a ∧ d = b then out :: collapse a b out cs else c :: collapse a b out (d :: cs)
  | cs => cs

def enclosed? (q : Char) : List Char → Option (List Char)
  | c :: cs => if c = q ∧ cs.getLast? = some q then some cs.dropLast else none
  | [] => none

def unquote (cs : List Char) : List Char :=
  match enclosed? '\'' cs with
  | some inner => collapse '\'' '\'' '\'' inner
  | none =>
    match enclosed? '"' cs with
    | some inner => collapse '\\' '\\' '\\' (collapse '\\' '"' '"' inner)
    | none => cs

def quote (cs : List Char) : List Char :=
  '\'' :: cs.flatMap (fun c => if c = '\'' then ['\'', '\''] else [c]) ++ ['\'']

def leadingMarks : List Char := "'\"#[\x7b&*!|>%@`".toList

def hasPair (a b : Char) : List Char → Bool
  | c :: d :: cs => (c == a && d == b) || hasPair a b (d :: cs)
  | _ => false

/-- Whether a text would not be read back as it is if it stood bare. -/
def needsQuotes (cs : List Char) : Bool :=
  cs != Text.trim cs ||
    (match cs with
      | [] => false
      | c :: _ => leadingMarks.contains c) ||
    ['-', ' '].isPrefixOf cs || cs == ['-'] || hasPair ':' ' ' cs || hasPair ' ' '#' cs ||
    cs.getLast? == some ':'

end SigmaDesk.RuleText
