import SigmaDesk.Catalog
import SigmaDesk.Command.Arguments
import SigmaDesk.Files
import SigmaDesk.Session.Submission
import SigmaDesk.Store.Kafka

/-!
# Commands

A command is a function of the loader of YAML, of the files, of how the broker behaves and of the
identifier that a new rule would get. What it prints, the files after it and what happened at the
broker are its value.
-/

namespace SigmaDesk.Command

inductive Abort
  | file (e : FileError)
  | catalog (e : Catalog.ReadError)
  | noCatalog
  | topic (b : Breakdown)
  | topicUnanswered
  | submit (e : Session.SubmitError)
deriving DecidableEq, Repr

def Abort.message : Abort → String
  | .file e => e.message
  | .catalog e => e.message
  | .noCatalog => "expected str, bytes or os.PathLike object, not list"
  | .topic b => b.message
  | .topicUnanswered => ""
  | .submit e => e.message

structure Result where
  exit : Except Abort Nat
  out : String := ""
  err : String := ""
  files : Files
  log : List Store.LogEntry := []

def padded (width : Nat) (s : String) : String :=
  s ++ String.ofList (List.replicate (width - s.length) ' ')

variable {δ : Type}

def loadCatalog (yaml : Yaml.Loader δ) (files : Files) : CatalogSource → Except Abort Catalog
  | .standard => .ok .standard
  | .missing => .error .noCatalog
  | .file path => do
    let text ← (files.read (plainPath path)).mapError .file
    (Catalog.read yaml (fileName path) text).mapError .catalog

def locatedError (rule : String) (e : RuleText.ParseError) : String :=
  rule ++ ":" ++ toString e.line ++ ": " ++ e.reason.message ++ "\n"

def withRule (files : Files) (rule : String) (next : Record → Result) : Result :=
  match files.loadRule rule with
  | .ok r => next r
  | .error (.parse e) => { exit := .ok 1, err := locatedError rule e, files }
  | .error (.file e) => { exit := .error (.file e), files }

def failureLine (rule : String) (f : Failure) : String :=
  "FAIL  " ++ rule ++ "  " ++ (if f.structural then "structure" else "field") ++ "=" ++
    padded 28 f.field ++ " " ++ f.message ++ "\n"

def check (yaml : Yaml.Loader δ) (files : Files) (catalog : CatalogSource) (rule : String) :
    Result :=
  withRule files rule fun r =>
    match loadCatalog yaml files catalog with
    | .error e => { exit := .error e, files }
    | .ok c =>
      let report := Gate.evaluate c r
      if report.submittable then
        { exit := .ok 0
          out := "OK    " ++ rule ++ "  title=" ++ Text.quoted r.name ++ "  selections=" ++
            toString r.selections.length ++ "\n"
          files }
      else
        { exit := .ok 1, out := String.join (report.failures.map (failureLine rule)), files }

def format (files : Files) (rule : String) (write : Bool) : Result :=
  withRule files rule fun r =>
    match RuleText.write r with
    | .error e => { exit := .ok 1, err := rule ++ ": " ++ e.message ++ "\n", files }
    | .ok text =>
      if write then
        { exit := .ok 0, out := "Rewrote " ++ rule ++ "\n", files := files.write rule text }
      else { exit := .ok 0, out := text, files }

def fieldLines (errors : Table (List String)) : String :=
  String.join (errors.entries.flatMap fun e =>
    e.2.map fun message => "  " ++ padded 28 e.1 ++ " " ++ message ++ "\n")

def submitRecord (files : Files) (c : Catalog) (rule target out : String) (r : Record)
    (store : Store.Request → Session.Reply) (log : List Store.Request → List Store.LogEntry) :
    Result :=
  let sub := (Session.start (some r)).submit c store
  let notice := String.join (sub.notice.toList.map (· ++ "\n"))
  let log := log sub.requests
  match sub.verdict with
  | .error e => { exit := .error (.submit e), out, err := notice, files, log }
  | .ok false =>
    { exit := .ok 1, out, err := notice ++ fieldLines sub.session.fieldErrors, files, log }
  | .ok true =>
    { exit := .ok 0
      out := out ++ "Submitted " ++ rule ++ "  id=" ++ sub.session.record.id.getD "" ++ "  " ++
        target ++ "\n"
      err := notice, files, log }

def dryRun (yaml : Yaml.Loader δ) (files : Files) (fresh : String) (catalog : CatalogSource)
    (rule : String) : Result :=
  withRule files rule fun r =>
    match loadCatalog yaml files catalog with
    | .error e => { exit := .error e, files }
    | .ok c =>
      let store : Store.Memory := {}
      submitRecord files c rule "dry-run" "" r
        (fun req => ⟨(store.write fresh req).1, []⟩) fun _ => []

/-- The topic is made sure of before the catalog is read. -/
def publish (yaml : Yaml.Loader δ) (files : Files) (broker : Store.Broker) (fresh : String)
    (catalog : CatalogSource) (options : SubmitOptions) (rule : String) : Result :=
  withRule files rule fun r =>
    match options.topic with
    | none =>
      { exit := .error (.topic broker.nameless), files, log := [.connected options.servers] }
    | some topic =>
      let client := Store.Kafka.connect options.servers topic Store.Kafka.defaultTimeout
      match client.ensureTopic broker options.partitions options.replication with
      | (.error (.fault b), client) => { exit := .error (.topic b), files, log := client.log }
      | (.error .unanswered, client) =>
        { exit := .error .topicUnanswered, files, log := client.log }
      | (.error (.refused reason), client) =>
        { exit := .ok 1, err := reason ++ "\n", files, log := client.log }
      | (.ok created, client) =>
        let out := (if created then "Created" else "Using existing") ++ " topic '" ++ topic ++
          "'\n"
        match loadCatalog yaml files catalog with
        | .error e => { exit := .error e, out, files, log := client.log }
        | .ok c =>
          submitRecord files c rule ("topic=" ++ topic) out r
            (fun req => ⟨(client.write broker fresh req).1, []⟩)
            fun reqs => (reqs.foldl (fun k req => (k.write broker fresh req).2) client).log

/-- Runs what the arguments ask for. A rule that has no identifier is created under `fresh`. -/
def run (yaml : Yaml.Loader δ) (files : Files) (broker : Store.Broker) (fresh : String)
    (i : Invocation) : Result :=
  match i.action with
  | .check => check yaml files i.catalog i.rule
  | .format write => format files i.rule write
  | .submit options =>
    if options.dryRun then dryRun yaml files fresh i.catalog i.rule
    else publish yaml files broker fresh i.catalog options i.rule

end SigmaDesk.Command
