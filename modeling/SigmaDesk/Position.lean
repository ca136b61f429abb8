/-!
# Positions in a list

A position counts from the front, or, when it is negative, from the end: `-1` is the last item. A
position that does not fit 64 bits is a fault of its own, whatever the list.
-/

namespace SigmaDesk

/-- What was asked of a list at a position it does not have. The last two are about positions that
do not fit 64 bits. -/
inductive PositionError
  | read
  | write
  | pop
  | popEmpty
  | wide
  | widePop
deriving DecidableEq, Repr

namespace PositionError

def message : PositionError → String
  | .read => "list index out of range"
  | .write => "list assignment index out of range"
  | .pop => "pop index out of range"
  | .popEmpty => "pop from empty list"
  | .wide => "cannot fit 'int' into an index-sized integer"
  | .widePop => "Python int too large to convert to C ssize_t"

/-- What is said of a position that is not there: if it does not fit 64 bits, that comes first. -/
def atPlace (i : Int) (fault : PositionError) : PositionError :=
  if -0x8000000000000000 ≤ i ∧ i < 0x8000000000000000 then fault
  else
    match fault with
    | .pop | .popEmpty => .widePop
    | _ => .wide

end PositionError

def place? (length : Nat) : Int → Option Nat
  | .ofNat n => if n < length then some n else none
  | .negSucc n => if n < length then some (length - 1 - n) else none

theorem place?_lt {length : Nat} {i : Int} {n : Nat} (h : place? length i = some n) :
    n < length := by
  cases i with
  | ofNat m =>
    simp only [place?, Option.ite_none_right_eq_some, Option.some.injEq] at h
    omega
  | negSucc m =>
    simp only [place?, Option.ite_none_right_eq_some, Option.some.injEq] at h
    omega

def modifyAt {α : Type} (fault : PositionError) (i : Int) (f : α → α) (xs : List α) :
    Except PositionError (List α) :=
  match place? xs.length i with
  | some n => .ok (xs.modify n f)
  | none => .error (fault.atPlace i)

def removeAt {α : Type} (fault : PositionError) (i : Int) (xs : List α) :
    Except PositionError (List α) :=
  match place? xs.length i with
  | some n => .ok (xs.eraseIdx n)
  | none => .error (fault.atPlace i)

end SigmaDesk
