import SigmaDesk.External
import SigmaDesk.Text.Casing

/-!
# Catalogs

The closed sets that a rule's fields are checked against, and the text that every tag starts with. A
catalog file is a YAML mapping of them, the sets as lists that are not empty.
-/

namespace SigmaDesk

structure Catalog where
  logTypes : List String
  levels : List String
  statuses : List String
  tagPrefix : String := "attack."
deriving DecidableEq, Repr

namespace Catalog

def standard : Catalog where
  tagPrefix := "attack."
  levels := ["critical", "high", "medium", "low"]
  statuses := ["experimental", "test", "stable", "deprecated"]
  logTypes :=
    ["ad_ldap", "apache_access", "azure", "cloudtrail", "dns", "github", "gworkspace", "linux",
      "m365", "netflow", "network", "okta", "s3", "test_windows", "vpcflow", "waf", "windows"]

def hasLogType (c : Catalog) (v : String) : Bool := c.logTypes.contains v

def hasStatus (c : Catalog) (v : String) : Bool := c.statuses.contains v

/-- Levels are compared in lower case on both sides. -/
def hasLevel (c : Catalog) (v : String) : Bool :=
  (c.levels.map Text.lower).contains (Text.lower v)

inductive ReadError
  | broken (b : Breakdown)
  | notAMapping (file : String)
  | missingField (file field : String)
  | notAList (file field : String)
deriving DecidableEq, Repr

def ReadError.message : ReadError → String
  | .broken b => b.message
  | .notAMapping file => file ++ ": catalog must be a mapping"
  | .missingField file field => file ++ ": missing required field '" ++ field ++ "'"
  | .notAList file field => file ++ ": '" ++ field ++ "' must be a non-empty list"

variable {δ : Type}

def items (yaml : Yaml.Loader δ) (file field : String) (d : δ) : Except ReadError (List δ) :=
  match yaml.items? d with
  | some (d :: ds) => .ok (d :: ds)
  | _ => .error (.notAList file field)

/-- All fields are looked at before any text is made of them. -/
def ofDatum (yaml : Yaml.Loader δ) (file : String) (d : δ) : Except ReadError Catalog := do
  let some field? := yaml.fields? d | throw (.notAMapping file)
  let field (name : String) : Except ReadError δ :=
    match field? name with
    | some d => .ok d
    | none => .error (.missingField file name)
  let text (d : δ) : Except ReadError String := (yaml.text d).mapError .broken
  let logTypes ← field "log_types"
  let levels ← field "levels"
  let statuses ← field "statuses"
  let tagPrefix ← field "tag_prefix"
  let logTypes ← items yaml file "log_types" logTypes
  let levels ← items yaml file "levels" levels
  let statuses ← items yaml file "statuses" statuses
  return {
    logTypes := ← logTypes.mapM text
    levels := (← levels.mapM text).map Text.lower
    statuses := ← statuses.mapM text
    tagPrefix := ← text tagPrefix }

def read (yaml : Yaml.Loader δ) (file text : String) : Except ReadError Catalog :=
  ((yaml.load text).mapError .broken) >>= ofDatum yaml file

end Catalog

end SigmaDesk
