import SigmaDesk.Document
import SigmaDesk.Session
import SigmaDesk.Store

/-!
# Submission

To submit is to leave the text editor if it is open, to pass the gate, and to hand the document to a
store. The store may call the session meanwhile, which is locked. Every failure leaves exactly one
notification.
-/

namespace SigmaDesk.Session

inductive Call
  | op (o : Op)
  | submit
deriving Repr

/-- What a store does with a request: it calls the session, and then comes to an outcome. -/
structure Reply where
  outcome : Store.Outcome
  calls : List Call := []

inductive SubmitError
  | locked
  | unwritable (e : RuleText.WriteError)
  | reassigned (e : AlreadyAssigned)
  | broken (message : String)
deriving DecidableEq, Repr

def SubmitError.message : SubmitError → String
  | .locked => OpError.locked.message
  | .unwritable e => e.message
  | .reassigned e => e.message
  | .broken message => message

abbrev Calls := List (Except OpError Answer × Session)

/-- What came of a submission: the verdict, the session after it, the one notification it may have
left, the requests it made in order, and the calls that the store made meanwhile. -/
structure Submission where
  verdict : Except SubmitError Bool
  session : Session
  notice : Option String := none
  requests : List Store.Request := []
  calls : Calls := []

/-- Answers the calls of a store, one after the other. The session is locked, so it cannot be
submitted again. -/
def answerCalls (c : Catalog) (s : Session) : List Call → Calls × Session
  | [] => ([], s)
  | call :: calls =>
    let answer :=
      match call with
      | .op o => s.step c o
      | .submit => (.error .locked, s)
    let (rest, s) := answerCalls c answer.2 calls
    (answer :: rest, s)

def notify (s : Session) (message : String) (state : State) : Session :=
  { s with state, notifications := s.notifications ++ [message] }

def action (r : Record) : String := if r.storedId?.isSome then "update" else "create"

def failed (action reason : String) : String := "Failed to " ++ action ++ " rule: " ++ reason

def request (r : Record) (d : Document) : Store.Request :=
  match r.storedId? with
  | some id => .update id d
  | none => .create d

def settle (act : String) (s : Session) : Store.Outcome → Submission
  | .refused reason =>
    let message := failed act reason
    { verdict := .ok false, session := s.notify message .submitFailed, notice := message }
  | .broken reason =>
    let message := failed act reason
    { verdict := .error (.broken reason), session := s.notify message .submitFailed,
      notice := message }
  | .stored id =>
    match s.record.assignId id with
    | .ok r =>
      { verdict := .ok true
        session := { s with record := r, fieldErrors := .empty, state := .submitted } }
    | .error e =>
      let message := failed act e.message
      { verdict := .error (.reassigned e), session := s.notify message .submitFailed,
        notice := message }

def handOver (c : Catalog) (store : Store.Request → Reply) (act : String) (s : Session) :
    Submission :=
  let s := { s with state := .submitting }
  match s.record.document with
  | .error e =>
    let message := failed act e.message
    { verdict := .error (.unwritable e), session := s.notify message .submitFailed,
      notice := message }
  | .ok d =>
    let request := request s.record d
    let reply := store request
    let (calls, s) := s.answerCalls c reply.calls
    { settle act s reply.outcome with requests := [request], calls }

def submit (c : Catalog) (store : Store.Request → Reply) (s : Session) : Submission :=
  if s.state = .submitting then { verdict := .error .locked, session := s }
  else
    -- What the submission is called is settled before the text is read.
    let act := action s.record
    match s.leaveText c with
    | (.error e, s) =>
      let message := failed act e.message
      { verdict := .ok false, session := s.notify message .invalid, notice := message }
    | (.ok (), s) =>
      let report := s.report c
      if report.submittable then s.handOver c store act
      else
        let message :=
          failed act (toString report.failures.length ++ " field(s) need attention")
        { verdict := .ok false
          session := { s with fieldErrors := report.byField }.notify message .invalid
          notice := message }

end SigmaDesk.Session
