import SigmaDesk.Store.Kafka
import SigmaDesk.Text.Digits
import SigmaDesk.Text.Lines

/-!
# Command-line arguments

Options may stand before and after the rule. A long option may be shortened as long as it stays the
only one that starts so. After two dashes nothing is an option; two dashes written to an option as
its value stand for no value.
-/

namespace SigmaDesk.Command

inductive Usage
  | help
  | wrong
deriving DecidableEq, Repr

def Usage.exitCode : Usage → Nat
  | .help => 0
  | .wrong => 2

inductive OptionKind
  | help
  | flag
  | text
  | integer
deriving DecidableEq, Repr

structure OptionSpec where
  name : String
  kind : OptionKind
deriving DecidableEq, Repr

/-- An argument by its form: a word, an option of this name and maybe with a value, an option that
is not known, or the two dashes. -/
inductive Argument
  | word (s : String)
  | option (spec : OptionSpec) (value : Option String)
  | unknown
  | dashes
deriving DecidableEq, Repr

def helpOptions : List OptionSpec := [⟨"-h", .help⟩, ⟨"--help", .help⟩]

def splitValue (s : String) : String × Option String :=
  match s.toList.dropWhile (· != '=') with
  | [] => (s, none)
  | _ :: value => (String.ofList (s.toList.takeWhile (· != '=')), some (String.ofList value))

def isNegativeNumber (s : String) : Bool :=
  match s.toList with
  | '-' :: cs =>
    let cs := if cs.getLast? = some '\n' then cs.dropLast else cs
    let back := cs.dropWhile Text.isDecimalDigit
    (!cs.isEmpty && back.isEmpty) ||
      (back.head? == some '.' && !(back.drop 1).isEmpty && (back.drop 1).all Text.isDecimalDigit)
  | _ => false

def candidates (specs : List OptionSpec) (s : String) : List (OptionSpec × Option String) :=
  if ['-', '-'].isPrefixOf s.toList then
    let (start, value) := splitValue s
    (specs.filter fun o => start.toList.isPrefixOf o.name.toList).map (·, value)
  else
    specs.filterMap fun o =>
      if o.name.toList = s.toList.take 2 then some (o, some (String.ofList (s.toList.drop 2)))
      else none

/-- Tells what an argument is; `none` if it can mean several options. -/
def Argument.ofString? (specs : List OptionSpec) (s : String) : Option Argument :=
  if s.toList.head? != some '-' || s == "-" then some (.word s)
  else
    let (name, value) := splitValue s
    -- A full name wins over names that only start so, and over a value after an equals sign.
    match specs.find? (·.name == s), specs.find? (·.name == name) with
    | some o, _ => some (.option o none)
    | none, some o => some (.option o value)
    | none, none =>
      match candidates specs s with
      | [(o, value)] => some (.option o value)
      | [] =>
        if isNegativeNumber s || s.toList.contains ' ' then some (.word s) else some .unknown
      | _ => none

/-- The arguments by their form, up to two dashes; after them there are only words. -/
def classify (specs : List OptionSpec) : List String → Except Usage (List Argument)
  | [] => .ok []
  | s :: rest =>
    if s = "--" then .ok (.dashes :: rest.map .word)
    else
      match Argument.ofString? specs s with
      | some a => (a :: ·) <$> classify specs rest
      | none => .error .wrong

def readDigits? : (afterDigit : Bool) → (n : Nat) → List Char → Option Nat
  | afterDigit, n, [] => if afterDigit then some n else none
  | true, n, '_' :: cs => readDigits? false n cs
  | _, n, c :: cs =>
    match Text.decimalValue? c with
    | some d => readDigits? true (n * 10 + d) cs
    | none => none

/-- The blanks that may stand around a number: all but the information separators. -/
def isNumberMargin (c : Char) : Bool := Text.isBlank c && !('\x1c' ≤ c && c ≤ '\x1f')

def maxDigits : Nat := 4300

def readInteger? (s : String) : Option Int :=
  let front := s.toList.dropWhile isNumberMargin
  let written := (front.reverse.dropWhile isNumberMargin).reverse
  let magnitude? (cs : List Char) : Option Int := (readDigits? false 0 cs).map fun n => (n : Int)
  if maxDigits < written.countP Text.isDecimalDigit then none
  else
    match written with
    | '-' :: cs => (magnitude? cs).map (- ·)
    | '+' :: cs => magnitude? cs
    | cs => magnitude? cs

def OptionKind.accepts : OptionKind → String → Bool
  | .text, _ => true
  | .integer, s => (readInteger? s).isSome
  | _, _ => false

/-- What a value written to an option that takes none comes to. Short options may be run together,
so the letters after a short one are further options; the only short one is for help. -/
def withoutValue (spec : OptionSpec) (value : String) : Usage :=
  if spec.name = "-h" ∧ !value.isEmpty ∧ value.toList.all (· == 'h') then .help else .wrong

def writtenValue? (value : String) : Option String := if value = "--" then none else some value

/-- What was read of a subcommand's arguments: its rule, its options in order with their values,
whether something is left that has no place, and whether the rule was the last argument. -/
structure Collected where
  rule : Option String := none
  options : List (String × Option String) := []
  leftover : Bool := false
  afterRule : Bool := false
deriving DecidableEq, Repr

def Collected.addOption (c : Collected) (name : String) (value : Option String) : Collected :=
  { c with options := c.options ++ [(name, value)], afterRule := false }

def collect (c : Collected) : List Argument → Except Usage Collected
  | [] => .ok c
  | .option spec (some value) :: rest =>
    match spec.kind with
    | .help | .flag => .error (withoutValue spec value)
    | kind =>
      let value? := writtenValue? value
      if value?.all kind.accepts then collect (c.addOption spec.name value?) rest
      else .error .wrong
  | .option spec none :: rest =>
    match spec.kind, rest with
    | .help, _ => .error .help
    | .flag, rest => collect (c.addOption spec.name none) rest
    | kind, .word value :: rest =>
      if kind.accepts value then collect (c.addOption spec.name (some value)) rest
      else .error .wrong
    | _, _ => .error .wrong
  | .word s :: rest =>
    if c.rule.isNone then collect { c with rule := some s, afterRule := true } rest
    else collect { c with leftover := true, afterRule := false } rest
  | .unknown :: rest => collect { c with leftover := true, afterRule := false } rest
  -- Two dashes go with the rule: they stand before it or right behind it.
  | .dashes :: rest =>
    collect { c with leftover := c.leftover || (c.rule.isSome && !c.afterRule), afterRule := false }
      rest

/-- Where and how to publish. An option that was given no value is `none`. -/
structure SubmitOptions where
  servers : Option String := some Store.Kafka.defaultServers
  topic : Option String := some Store.Kafka.defaultTopic
  partitions : Option Int := some 1
  replication : Option Int := some 1
  dryRun : Bool := false
deriving DecidableEq, Repr

inductive Action
  | check
  | format (write : Bool)
  | submit (options : SubmitOptions)
deriving DecidableEq, Repr

inductive CatalogSource
  | standard
  | file (path : String)
  | missing
deriving DecidableEq, Repr

def CatalogSource.ofValue : Option String → CatalogSource
  | some path => .file path
  | none => .missing

structure Invocation where
  catalog : CatalogSource
  action : Action
  rule : String
deriving DecidableEq, Repr

def formatOptions : List OptionSpec := helpOptions ++ [⟨"--write", .flag⟩]

def submitOptions : List OptionSpec :=
  helpOptions ++
    [⟨"--bootstrap-servers", .text⟩, ⟨"--topic", .text⟩, ⟨"--partitions", .integer⟩,
      ⟨"--replication-factor", .integer⟩, ⟨"--dry-run", .flag⟩]

def mainOptions : List OptionSpec := helpOptions ++ [⟨"--catalog", .text⟩]

def Collected.option? (c : Collected) (name : String) : Option (Option String) :=
  c.options.reverse.lookup name

def Collected.has (c : Collected) (name : String) : Bool := (c.option? name).isSome

def Collected.text (c : Collected) (name default : String) : Option String :=
  (c.option? name).getD (some default)

def Collected.integer (c : Collected) (name : String) (default : Int) : Option Int :=
  match c.option? name with
  | some value => value.bind readInteger?
  | none => some default

def readAction (command : String) (args : List String) : Except Usage (Action × Collected) := do
  let collected (specs : List OptionSpec) : Except Usage Collected := do
    collect {} (← classify specs args)
  if command = "check" then
    return (.check, ← collected helpOptions)
  else if command = "format" then
    let c ← collected formatOptions
    return (.format (c.has "--write"), c)
  else if command = "submit" then
    let c ← collected submitOptions
    let options : SubmitOptions := {
      servers := c.text "--bootstrap-servers" Store.Kafka.defaultServers
      topic := c.text "--topic" Store.Kafka.defaultTopic
      partitions := c.integer "--partitions" 1
      replication := c.integer "--replication-factor" 1
      dryRun := c.has "--dry-run" }
    return (.submit options, c)
  else throw .wrong

/-- Reads the options before the subcommand, and the subcommand with all that follows it. `args` are
the arguments as given, beside their forms. -/
def readMain (catalog : CatalogSource) (leftover : Bool) :
    List Argument → (args : List String) → Except Usage Invocation
  | .word command :: _, _ :: args => do
    let (action, c) ← readAction command args
    match c.rule with
    | some rule =>
      if leftover || c.leftover then throw .wrong else return { catalog, action, rule }
    | none => throw .wrong
  | .option spec (some value) :: rest, _ :: args =>
    match spec.kind with
    | .help | .flag => .error (withoutValue spec value)
    | _ => readMain (.ofValue (writtenValue? value)) leftover rest args
  | .option spec none :: rest, _ :: args =>
    match spec.kind, rest, args with
    | .help, _, _ => .error .help
    | .flag, rest, args => readMain catalog leftover rest args
    | _, .word value :: rest, _ :: args => readMain (.file value) leftover rest args
    | _, _, _ => .error .wrong
  | .unknown :: rest, _ :: args => readMain catalog true rest args
  | _, _ => .error .wrong

def Invocation.ofArguments (args : List String) : Except Usage Invocation := do
  readMain .standard false (← classify mainOptions args) args

end SigmaDesk.Command
