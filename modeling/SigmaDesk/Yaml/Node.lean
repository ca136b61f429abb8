import SigmaDesk.Yaml.Token

/-!
# Nodes of YAML

A document as it is written: scalars, plain or quoted, and collections of nodes. Where a node is
left out, an empty plain scalar stands for it.
-/

namespace SigmaDesk.Yaml

inductive Node
  | plain (s : String)
  | quoted (s : String)
  | list (items : List Node)
  | mapping (entries : List (Node × Node))
deriving Repr

def Node.empty : Node := .plain ""

def nextIs (ts : List Token) (among : List Token) : Bool := ts.head?.any among.contains

mutual

/-- A node. Block collections are read where `block` says so, and where `loose` does, a sequence
that is not indented. Every call takes a token or goes one step deeper, and `fuel` bounds both. -/
def node? (block loose : Bool) : (fuel : Nat) → List Token → Option (Node × List Token)
  | 0, _ | _, [] => none
  | fuel + 1, t :: ts =>
    match t with
    | .plain s => some (.plain s, ts)
    | .quoted s => some (.quoted s, ts)
    | .dash => if loose then looseItems? fuel [] (t :: ts) else none
    | .blockSequence => if block then items? fuel [] ts else none
    | .blockMapping => if block then entries? fuel [] ts else none
    | .openList => flowItems? fuel [] ts
    | .openMapping => flowEntries? fuel [] ts
    | _ => none

def nodeBefore? (block loose : Bool) (ends : List Token) :
    (fuel : Nat) → List Token → Option (Node × List Token)
  | 0, _ => none
  | fuel + 1, ts => if nextIs ts ends then some (.empty, ts) else node? block loose fuel ts

def items? : (fuel : Nat) → List Node → List Token → Option (Node × List Token)
  | 0, _, _ => none
  | fuel + 1, done, .dash :: ts => do
    let (v, ts) ← nodeBefore? true false [.dash, .blockEnd] fuel ts
    items? fuel (done ++ [v]) ts
  | _, done, .blockEnd :: ts => some (.list done, ts)
  | _, _, _ => none

/-- The items of a sequence that is not indented. It ends where no item follows. -/
def looseItems? : (fuel : Nat) → List Node → List Token → Option (Node × List Token)
  | 0, _, _ => none
  | fuel + 1, done, .dash :: ts => do
    let (v, ts) ← nodeBefore? true false [.dash, .key, .value, .blockEnd] fuel ts
    looseItems? fuel (done ++ [v]) ts
  | _, done, ts => some (.list done, ts)

def valueBefore? (block loose : Bool) (ends : List Token) :
    (fuel : Nat) → List Token → Option (Node × List Token)
  | 0, _ => none
  | fuel + 1, .value :: ts => nodeBefore? block loose ends fuel ts
  | _, ts => some (.empty, ts)

def entries? : (fuel : Nat) → List (Node × Node) → List Token → Option (Node × List Token)
  | 0, _, _ => none
  | fuel + 1, done, .key :: ts => do
    let (k, ts) ← nodeBefore? true true [.key, .value, .blockEnd] fuel ts
    let (v, ts) ← valueBefore? true true [.key, .value, .blockEnd] fuel ts
    entries? fuel (done ++ [(k, v)]) ts
  | _, done, .blockEnd :: ts => some (.mapping done, ts)
  | _, _, _ => none

/-- The rest of a list between brackets. An item with a colon is a mapping of one entry. -/
def flowItems? : (fuel : Nat) → List Node → List Token → Option (Node × List Token)
  | 0, _, _ => none
  | fuel + 1, done, ts =>
    if nextIs ts [.closeList] then some (.list done, ts.drop 1)
    else if done.isEmpty || nextIs ts [.comma] then
      let ts := if done.isEmpty then ts else ts.drop 1
      match ts with
      | .closeList :: ts => some (.list done, ts)
      | .key :: ts => do
        let (k, ts) ← nodeBefore? false false [.value, .comma, .closeList] fuel ts
        let (v, ts) ← valueBefore? false false [.comma, .closeList] fuel ts
        flowItems? fuel (done ++ [.mapping [(k, v)]]) ts
      | ts => do
        let (v, ts) ← node? false false fuel ts
        flowItems? fuel (done ++ [v]) ts
    else none

/-- The rest of a mapping between braces. A key may stand without a value. -/
def flowEntries? : (fuel : Nat) → List (Node × Node) → List Token → Option (Node × List Token)
  | 0, _, _ => none
  | fuel + 1, done, ts =>
    if nextIs ts [.closeMapping] then some (.mapping done, ts.drop 1)
    else if done.isEmpty || nextIs ts [.comma] then
      let ts := if done.isEmpty then ts else ts.drop 1
      match ts with
      | .closeMapping :: ts => some (.mapping done, ts)
      | .key :: ts => do
        let (k, ts) ← nodeBefore? false false [.value, .comma, .closeMapping] fuel ts
        let (v, ts) ← valueBefore? false false [.comma, .closeMapping] fuel ts
        flowEntries? fuel (done ++ [(k, v)]) ts
      | ts => do
        let (k, ts) ← node? false false fuel ts
        flowEntries? fuel (done ++ [(k, .empty)]) ts
    else none

end

def Node.ofTokens? (ts : List Token) : Option Node := do
  let fuel := 3 * ts.length + 3
  let (v, rest) ←
    match ts with
    | [] => some (Node.empty, [])
    | .documentStart :: ts =>
      if ts.isEmpty then some (Node.empty, [])
      else nodeBefore? true false [.documentStart, .documentEnd] fuel ts
    | ts => node? true false fuel ts
  if rest.all (· == .documentEnd) then some v else none

end SigmaDesk.Yaml
