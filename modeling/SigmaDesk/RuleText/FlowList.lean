import SigmaDesk.RuleText.Scalar

/-!
# Inline lists

A list on one line, as in `[a, 'b, c']`. A comma ends an item unless it stands between quotes, and
quotes open only at the start of an item.
-/

namespace SigmaDesk.RuleText

/-- Where in an item the reading stands: before its first character that is not blank, after it, or
between quotes. -/
inductive ItemMode
  | start
  | bare
  | single
  | double
deriving DecidableEq, Repr

def consFirst (c : Char) : List (List Char) → List (List Char)
  | [] => [[c]]
  | i :: is => (c :: i) :: is

/-- Cuts what stands between the brackets into items, as written; `none` if a quote is left open.
Between single quotes a doubled quote does not close, and between double quotes the character after
a backslash does not. -/
def splitItems? : ItemMode → List Char → Option (List (List Char))
  | .start, [] | .bare, [] => some [[]]
  | .single, [] | .double, [] => none
  | .single, '\'' :: '\'' :: cs => (splitItems? .single cs).map (consFirst '\'' ∘ consFirst '\'')
  | .single, c :: cs => (splitItems? (if c = '\'' then .bare else .single) cs).map (consFirst c)
  | .double, '\\' :: c :: cs => (splitItems? .double cs).map (consFirst '\\' ∘ consFirst c)
  | .double, c :: cs => (splitItems? (if c = '"' then .bare else .double) cs).map (consFirst c)
  | mode, c :: cs =>
    if c = ',' then (splitItems? .start cs).map ([] :: ·)
    else
      let next :=
        if mode = .bare then .bare
        else if c = '\'' then .single
        else if c = '"' then .double
        else if Text.isBlank c then .start
        else .bare
      (splitItems? next cs).map (consFirst c)

inductive FlowError
  | unclosedList
  | unclosedQuote
deriving DecidableEq, Repr

/-- The items of an inline list; `none` if the value does not start as one. -/
def flowList? : List Char → Except FlowError (Option (List String))
  | '[' :: cs =>
    if cs.getLast? = some ']' then
      let inner := Text.trim cs.dropLast
      if inner.isEmpty then .ok (some [])
      else
        match splitItems? .start inner with
        | some is => .ok (some (is.map fun i => String.ofList (unquote (Text.trim i))))
        | none => .error .unclosedQuote
    else .error .unclosedList
  | _ => .ok none

end SigmaDesk.RuleText
