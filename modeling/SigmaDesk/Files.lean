import SigmaDesk.RuleText.Scan
import SigmaDesk.Text.Quoted

/-!
# Files

A directory tree with its files, seen from the directory in which a command runs. Of what lies
around that directory only the directories above it are known, up to the root.
-/

namespace SigmaDesk

/-- Contents by path, names separated by slashes. -/
abbrev Files := Table String

inductive FileError
  | notFound (path : String)
  | notADirectory (path : String)
  | isDirectory (path : String)
  | nameTooLong (path : String)
  | nulInPath
  | noDirectory (path : String)
deriving DecidableEq, Repr

def FileError.message : FileError → String
  | .notFound path => "[Errno 2] No such file or directory: " ++ Text.quoted path
  | .notADirectory path => "[Errno 20] Not a directory: " ++ Text.quoted path
  | .isDirectory path => "[Errno 21] Is a directory: " ++ Text.quoted path
  | .nameTooLong path => "[Errno 36] File name too long: " ++ Text.quoted path
  | .nulInPath => "embedded null byte"
  | .noDirectory path => "Rule directory not found: " ++ path

def pathNames (path : String) : List String :=
  ((path.toList.splitOn '/').map String.ofList).filter fun n => !n.isEmpty && n != "."

/-- A path in its plain spelling. Slashes at the front come to one, but exactly two stay. -/
def plainPath (path : String) : String :=
  let root :=
    match (path.toList.takeWhile (· == '/')).length with
    | 0 => ""
    | 2 => "//"
    | _ => "/"
  let names := pathNames path
  if names.isEmpty && root.isEmpty then "." else root ++ "/".intercalate names

def isAbsolute (path : String) : Bool := path.toList.head? == some '/'

def maxNameBytes : Nat := 255

def maxPathBytes : Nat := 4095

/-- Whether a path says by its end, a slash or a single dot, that it means a directory. -/
def endsAsDirectory (path : String) : Bool :=
  match (path.toList.splitOn '/').getLast? with
  | some [] | some ['.'] => true
  | _ => false

def fileName (path : String) : String := (pathNames path).getLastD ""

/-- Where a path has led to: to these names from where the command runs, to a directory above that,
or to the root. -/
inductive Place
  | inside (names : List String)
  | above
  | root
deriving DecidableEq, Repr

namespace Place

def start (path : String) : Place := if isAbsolute path then .root else .inside []

def parent : Place → Place
  | .inside [] => .above
  | .inside names => .inside names.dropLast
  | .above => .above
  | .root => .root

end Place

namespace Files

def paths (fs : Files) : List (List String) := fs.keys.map pathNames

def isFile (fs : Files) (names : List String) : Bool := fs.paths.contains names

/-- A directory is what holds something, or where the command runs, or what lies above. -/
def isDirectory (fs : Files) : Place → Bool
  | .inside names => names.isEmpty || fs.paths.any fun p => names.isPrefixOf p && p != names
  | _ => true

def enter (fs : Files) (path : String) (here : Place) (name : String) : Except FileError Place :=
  let tooLong := maxNameBytes < name.utf8ByteSize
  match here with
  | .inside names =>
    if fs.isFile names then .error (.notADirectory path)
    else if !fs.isDirectory here then .error (.notFound path)
    else if name = ".." then .ok here.parent
    else if tooLong then .error (.nameTooLong path)
    else .ok (.inside (names ++ [name]))
  | _ =>
    if name = ".." then .ok here.parent
    else .error (if tooLong then .nameTooLong path else .notFound path)

def follow (fs : Files) (path : String) : Except FileError Place :=
  if maxPathBytes < path.utf8ByteSize then .error (.nameTooLong path)
  else (pathNames path).foldlM (fs.enter path) (.start path)

/-- The key of the file that a path leads to: the path itself if it is one, or else the path that
is reached name by name. -/
def locate (fs : Files) (path : String) : Except FileError String := do
  if path.toList.contains '\x00' then throw .nulInPath
  if fs.contains path then return path
  let place ← fs.follow path
  match fs.keys.find? fun key => Place.inside (pathNames key) == place with
  | some key =>
    if endsAsDirectory path then throw (.notADirectory path) else return key
  | none =>
    -- The empty path leads nowhere, although it has no name that could be missing.
    if path.isEmpty || !fs.isDirectory place then throw (.notFound path)
    else throw (.isDirectory path)

def read (fs : Files) (path : String) : Except FileError String := do
  return (fs.get? (← fs.locate path)).getD ""

def write (fs : Files) (path content : String) : Files :=
  match fs.locate path with
  | .ok key => fs.insert key content
  | .error _ => fs

def ruleNames (fs : Files) (directory : List String) : List String :=
  let names := fs.paths.filterMap fun p =>
    if directory.isPrefixOf p then (p.drop directory.length).head? else none
  (names.eraseDups.filter fun n => ".yml".toList.isSuffixOf n.toList).mergeSort
    fun a b => !decide (b < a)

inductive LoadError
  | file (e : FileError)
  | parse (e : RuleText.ParseError)
deriving DecidableEq, Repr

def loadRule (fs : Files) (path : String) : Except LoadError Record := do
  let text ← (fs.read path).mapError .file
  (RuleText.parse text).mapError .parse

/-- Reads the rules of a directory, in the order of their names. A directory above is known, but
nothing that it holds. -/
def loadRules (fs : Files) (directory : String) : Except LoadError (List Record) := do
  let shown := plainPath directory
  if directory.toList.contains '\x00' then throw (.file (.noDirectory shown))
  let place ← (fs.follow shown).mapError fun
    | .nameTooLong path => .file (.nameTooLong path)
    | _ => .file (.noDirectory shown)
  if !fs.isDirectory place then throw (.file (.noDirectory shown))
  match place with
  | .inside names =>
    (fs.ruleNames names).mapM fun n => fs.loadRule (if shown = "." then n else shown ++ "/" ++ n)
  | _ => return []

end Files

end SigmaDesk
