import Mathlib.Data.List.Basic
import Std.Data.String.ToNat
import SigmaDesk.Gate

/-!
# Field names

A field name tells which slot it is: the part of the form comes first, up to a bracket or a period,
then a number in brackets, if the part is a list, and then what is meant of the item.
-/

namespace SigmaDesk

@[simp] theorem TextField.label_inj {f g : TextField} : f.label = g.label ↔ f = g := by
  cases f <;> cases g <;> decide

@[simp] theorem ListField.label_inj {f g : ListField} : f.label = g.label ↔ f = g := by
  cases f <;> cases g <;> decide

theorem TextField.label_ne (f : TextField) : f.label ≠ "condition" ∧ f.label ≠ "selections" := by
  cases f <;> decide

namespace Slot

/-- The part of the form that a slot is in: a field name up to the first bracket or period. -/
def part : Slot → String
  | .text f => f.label
  | .item f _ => f.label
  | .extra _ => "extras"
  | .selectionName _ | .fieldKey _ | .fieldValue _ | .selections => "selections"
  | .condition => "condition"

def index? : Slot → Option Nat
  | .item _ i | .selectionName i | .fieldKey i | .fieldValue i => some i
  | .text _ | .extra _ | .condition | .selections => none

def suffix : Slot → String
  | .extra key => "." ++ key
  | .selectionName _ => ".name"
  | .fieldKey _ => ".field_key"
  | .fieldValue _ => ".field_value"
  | .text _ | .item _ _ | .condition | .selections => ""

def bracketed : Option Nat → List Char
  | none => []
  | some i => '[' :: (toString i).toList ++ [']']

theorem toList_label (slot : Slot) :
    slot.label.toList = slot.part.toList ++ (bracketed slot.index? ++ slot.suffix.toList) := by
  cases slot <;> simp [label, indexed, part, index?, suffix, bracketed]

theorem eq_of_parts {a b : Slot} (hpart : a.part = b.part) (hindex : a.index? = b.index?)
    (hsuffix : a.suffix = b.suffix) : a = b := by
  have hne := TextField.label_ne
  have hne' (f : TextField) : "condition" ≠ f.label ∧ "selections" ≠ f.label :=
    ⟨(hne f).1.symm, (hne f).2.symm⟩
  cases a <;> cases b <;> simp_all [part, index?, suffix]

def inPart (c : Char) : Bool := c != '[' && c != '.'

theorem inPart_of_mem_part (slot : Slot) : ∀ c ∈ slot.part.toList, inPart c = true := by
  rw [← List.all_eq_true]
  cases slot with
  | text f => cases f <;> decide
  | item f i => cases f <;> simp only [part, ListField.label] <;> decide
  | _ => simp only [part]; decide

theorem takeWhile_after_part (slot : Slot) :
    (bracketed slot.index? ++ slot.suffix.toList).takeWhile inPart = [] := by
  cases slot <;> simp [bracketed, index?, suffix, inPart]

theorem head?_suffix (slot : Slot) : slot.suffix.toList.head? ≠ some '[' := by
  cases slot <;> simp [suffix]

theorem ne_of_mem_digits {n : Nat} {c : Char} (h : c ∈ (toString n).toList) : c ≠ ']' := by
  have hdigit : c.isDigit = true :=
    Nat.isDigit_of_mem_toDigits (by decide) (by decide) (Nat.toList_repr (n := n) ▸ h)
  rintro rfl
  cases hdigit

/-- A number in brackets ends where the bracket closes. -/
theorem bracketed_inj {m n : Option Nat} {xs ys : List Char} (hxs : xs.head? ≠ some '[')
    (hys : ys.head? ≠ some '[') (h : bracketed m ++ xs = bracketed n ++ ys) : m = n ∧ xs = ys := by
  cases m with
  | none =>
    cases n with
    | none => exact ⟨rfl, h⟩
    | some j => exact absurd (congrArg List.head? h) hxs
  | some i =>
    cases n with
    | none => exact absurd (congrArg List.head? h).symm hys
    | some j =>
      have hdigits : (toString i).toList ++ ']' :: xs = (toString j).toList ++ ']' :: ys := by
        simpa [bracketed] using h
      have htake := congrArg (List.takeWhile (· != ']')) hdigits
      rw [List.takeWhile_append_of_pos fun c hc => bne_iff_ne.mpr (ne_of_mem_digits hc),
        List.takeWhile_append_of_pos fun c hc => bne_iff_ne.mpr (ne_of_mem_digits hc)] at htake
      have hsame : (toString i).toList = (toString j).toList := by simpa using htake
      rw [hsame] at hdigits
      refine ⟨congrArg some (Nat.repr_injective (String.toList_inj.mp hsame)), ?_⟩
      simpa using hdigits

theorem label_injective : Function.Injective label := by
  intro a b h
  have hlists : a.part.toList ++ (bracketed a.index? ++ a.suffix.toList) =
      b.part.toList ++ (bracketed b.index? ++ b.suffix.toList) := by
    rw [← toList_label, ← toList_label, h]
  have hpart : a.part.toList = b.part.toList := by
    have htake := congrArg (List.takeWhile inPart) hlists
    rwa [List.takeWhile_append_of_pos (inPart_of_mem_part a), takeWhile_after_part,
      List.takeWhile_append_of_pos (inPart_of_mem_part b), takeWhile_after_part, List.append_nil,
      List.append_nil] at htake
  rw [hpart] at hlists
  obtain ⟨hindex, hsuffix⟩ := bracketed_inj (head?_suffix a) (head?_suffix b)
    (List.append_cancel_left hlists)
  exact eq_of_parts (String.toList_inj.mp hpart) hindex (String.toList_inj.mp hsuffix)

/-- The number that a text has in brackets, if that is a field name with one. -/
def numberIn (field : String) : Nat :=
  let rest := (field.toList.dropWhile (· != '[')).tail
  (String.ofList (rest.takeWhile (· != ']'))).toNat?.getD 0

theorem numberIn_label (slot : Slot) {i : Nat} (h : slot.index? = some i) :
    numberIn slot.label = i := by
  have hpart : ∀ c ∈ slot.part.toList, (c != '[') = true := by
    intro c hc
    have hin := inPart_of_mem_part slot c hc
    simp only [inPart, Bool.and_eq_true] at hin
    exact hin.1
  have hopened : slot.label.toList.dropWhile (· != '[') =
      '[' :: ((toString i).toList ++ ']' :: slot.suffix.toList) := by
    rw [toList_label, List.dropWhile_append_of_pos hpart, h]
    simp [bracketed]
  have hdigits : ∀ c ∈ (toString i).toList, (c != ']') = true :=
    fun c hc => bne_iff_ne.mpr (ne_of_mem_digits hc)
  have hclosed : ((toString i).toList ++ ']' :: slot.suffix.toList).takeWhile (· != ']') =
      (toString i).toList := by
    rw [List.takeWhile_append_of_pos hdigits]
    simp
  rw [numberIn, hopened, List.tail_cons, hclosed, String.ofList_toList]
  exact congrArg (·.getD 0) (Nat.toNat?_repr i)

end Slot

end SigmaDesk
