import SigmaDesk.Yaml.Node

/-!
# Data of YAML documents

What a document means. A later entry of a mapping replaces an earlier one of the same key and keeps
its place. Entries under a merge mark give way to the mapping's own.
-/

namespace SigmaDesk.Yaml

inductive Datum
  | scalar (s : Scalar)
  | list (items : List Datum)
  | mapping (entries : List (Scalar × Datum))
deriving Repr

namespace Node

def isMergeMark : Node → Bool
  | .plain s => s == mergeMark
  | _ => false

def entries? : Node → Option (List (Node × Node))
  | .mapping es => some es
  | _ => none

/-- The entries that a node under a merge mark brings: those of a mapping, or of the mappings of a
list, from the last to the first. -/
def mergedEntries? : Node → Option (List (Node × Node))
  | .mapping es => some es
  | .list items => (items.mapM entries?).map fun ess => ess.reverse.flatten
  | _ => none

def merge? (es : List (Node × Node)) : Option (List (Node × Node)) := do
  let (marked, own) := es.partition fun e => e.1.isMergeMark
  let merged ← marked.mapM fun e => e.2.mergedEntries?
  return merged.flatten ++ own

mutual

def flatten? : Node → Option Node
  | .list items => return .list (← flattenItems? items)
  | .mapping es => return .mapping (← merge? (← flattenEntries? es))
  | n => some n

def flattenItems? : List Node → Option (List Node)
  | [] => some []
  | n :: ns => return (← flatten? n) :: (← flattenItems? ns)

def flattenEntries? : List (Node × Node) → Option (List (Node × Node))
  | [] => some []
  | (k, v) :: es => return (← flatten? k, ← flatten? v) :: (← flattenEntries? es)

end

/-- The scalar of a key; a collection cannot be one. -/
def key : Node → Except Fault Scalar
  | .plain s => if s = defaultMark then .ok (.text s) else Scalar.ofPlain s
  | .quoted s => .ok (.text s)
  | _ => .error .malformed

end Node

def putEntry (k : Scalar) (v : Datum) : List (Scalar × Datum) → List (Scalar × Datum)
  | [] => [(k, v)]
  | (k', v') :: es => if k'.same k then (k', v) :: es else (k', v') :: putEntry k v es

def distinct (es : List (Scalar × Datum)) : List (Scalar × Datum) :=
  es.foldl (fun done e => putEntry e.1 e.2 done) []

mutual

def Node.datum : Node → Except Fault Datum
  | .plain s => return .scalar (← Scalar.ofPlain s)
  | .quoted s => .ok (.scalar (.text s))
  | .list items => return .list (← itemsData items)
  | .mapping es => return .mapping (distinct (← entriesData es))

def itemsData : List Node → Except Fault (List Datum)
  | [] => .ok []
  | n :: ns => return (← n.datum) :: (← itemsData ns)

def entriesData : List (Node × Node) → Except Fault (List (Scalar × Datum))
  | [] => .ok []
  | (k, v) :: es => return (← k.key, ← v.datum) :: (← entriesData es)

end

mutual

/-- The faults of a node's scalars in order, each with how deep it stands. -/
def Node.faults (depth : Nat) : Node → List (Nat × Fault)
  | .plain s =>
    match Scalar.ofPlain s with
    | .ok _ => []
    | .error e => [(depth, e)]
  | .quoted _ => []
  | .list items => itemsFaults (depth + 1) items
  | .mapping es => entriesFaults (depth + 1) es

def itemsFaults (depth : Nat) : List Node → List (Nat × Fault)
  | [] => []
  | n :: ns => n.faults depth ++ itemsFaults depth ns

def entriesFaults (depth : Nat) : List (Node × Node) → List (Nat × Fault)
  | [] => []
  | (k, v) :: es =>
    let own :=
      match k.key with
      | .ok _ => []
      | .error e => [(depth, e)]
    own ++ v.faults depth ++ entriesFaults depth es

end

def firstFault? : List (Nat × Fault) → Option (Nat × Fault)
  | [] => none
  | f :: fs =>
    match firstFault? fs with
    | some g => if g.1 < f.1 then some g else some f
    | none => some f

namespace Datum

mutual

def nested : Datum → String
  | .scalar s => s.nested
  | .list items => "[" ++ ", ".intercalate (nestedItems items) ++ "]"
  | .mapping es => "\x7b" ++ ", ".intercalate (nestedEntries es) ++ "\x7d"

def nestedItems : List Datum → List String
  | [] => []
  | d :: ds => nested d :: nestedItems ds

def nestedEntries : List (Scalar × Datum) → List String
  | [] => []
  | (k, v) :: es => (k.nested ++ ": " ++ nested v) :: nestedEntries es

end

def display : Datum → String
  | .scalar s => s.display
  | d => d.nested

mutual

def isTooLong : Datum → Bool
  | .scalar s => s.isTooLong
  | .list items => anyTooLong items
  | .mapping es => anyEntryTooLong es

def anyTooLong : List Datum → Bool
  | [] => false
  | d :: ds => isTooLong d || anyTooLong ds

def anyEntryTooLong : List (Scalar × Datum) → Bool
  | [] => false
  | (k, v) :: es => k.isTooLong || isTooLong v || anyEntryTooLong es

end

end Datum

def read (text : String) : Except Fault Datum := do
  let ts ← tokens text.toList
  let some node := Node.ofTokens? ts | throw .malformed
  let some node := node.flatten? | throw .malformed
  match firstFault? (node.faults 0) with
  | some (_, e) => throw e
  | none => node.datum

def tooLong : Breakdown where
  kind := .wrongValue
  message :=
    "Exceeds the limit (" ++ toString maxDigits ++ " digits) for integer string conversion; " ++
      "use sys.set_int_max_str_digits() to increase the limit"

/-- The loader of this reader of YAML. Fields are found by keys that are texts. -/
def loader : Loader Datum where
  load text := (read text).mapError Fault.breakdown
  fields?
    | .mapping es => some fun key => es.lookup (.text key)
    | _ => none
  items?
    | .list items => some items
    | _ => none
  text d := if d.isTooLong then .error tooLong else .ok d.display

end SigmaDesk.Yaml
