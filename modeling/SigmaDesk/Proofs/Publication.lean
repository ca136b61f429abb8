import SigmaDesk.Proofs.Store.Log
import SigmaDesk.Proofs.Verdict

/-!
# What a submission publishes

A submission that is not a dry run leaves one message at the broker if the rule passes the check,
the topic can be used and the broker takes the message, and none else.
-/

namespace SigmaDesk

namespace Session

variable {c : Catalog} {s : Session} {r : Record} {d : Document} {act fresh : String}
  {store : Store.Request → Reply}

theorem verdict_settle {o : Store.Outcome} : (settle act s o).verdict = .ok true ↔
    ∃ id r, o = .stored id ∧ s.record.assignId id = .ok r := by
  cases o with
  | refused reason => simp [settle]
  | broken message => simp [settle]
  | stored id => cases h : s.record.assignId id <;> simp [settle, h]

theorem assignId_target (hid : r.id ≠ some "") (d : Document) (fresh : String) :
    ∃ r', r.assignId ((request r d).target fresh) = .ok r' := by
  cases h : r.id with
  | none => exact ⟨_, by rw [Record.assignId, h]⟩
  | some id =>
    have hne : id ≠ "" := fun he => hid (he ▸ h)
    rw [(request_update h hne).1, Record.assignId, h]
    exact ⟨r, if_pos rfl⟩

end Session

namespace Command

open Store (Broker Kafka Message messages)

variable {δ : Type} {yaml : Yaml.Loader δ} {fs : Files} {rule target out fresh : String}
  {cat : CatalogSource} {c : Catalog} {r : Record} {d : Document} {b : Broker} {k : Kafka}
  {o : SubmitOptions} {i : Invocation} {store : Store.Request → Session.Reply}
  {log : List Store.Request → List Store.LogEntry}

theorem exit_submitRecord : (submitRecord fs c rule target out r store log).exit = .ok 0 ↔
    ((Session.start (some r)).submit c store).verdict = .ok true := by
  unfold submitRecord
  dsimp only
  split <;> simp_all

theorem log_submitRecord : (submitRecord fs c rule target out r store log).log =
    log ((Session.start (some r)).submit c store).requests := by
  unfold submitRecord
  dsimp only
  split <;> rfl

def submitTo (k : Kafka) (b : Broker) (fresh : String) (fs : Files) (c : Catalog)
    (rule target out : String) (r : Record) : Result :=
  submitRecord fs c rule target out r (fun q => ⟨(k.write b fresh q).1, []⟩)
    fun qs => (qs.foldl (fun k q => (k.write b fresh q).2) k).log

theorem submitTo_refused (hgate : (Gate.evaluate c r).submittable = false) :
    (submitTo k b fresh fs c rule target out r).log = k.log ∧
      (submitTo k b fresh fs c rule target out r).exit ≠ .ok 0 := by
  have hidle : (Session.start (some r)).state ≠ .submitting := nofun
  refine ⟨?_, fun hexit => ?_⟩
  · rw [submitTo, log_submitRecord, (Session.submit_refused hidle rfl hgate).2]
    rfl
  · rw [submitTo, exit_submitRecord, (Session.submit_refused hidle rfl hgate).1] at hexit
    cases hexit

theorem submitTo_accepted (hgate : (Gate.evaluate c r).submittable = true)
    (hd : r.document = .ok d) (hid : r.id ≠ some "") :
    messages (submitTo k b fresh fs c rule target out r).log = messages k.log ++
        (if b.refusal.isSome then [] else [k.message fresh (Session.request r d)]) ∧
      ((submitTo k b fresh fs c rule target out r).exit = .ok 0 ↔
        b.refusal = none ∧ b.Delivers) := by
  have hsubmit (store : Store.Request → Session.Reply) :
      (Session.start (some r)).submit c store = _ := Session.submit_structured nofun rfl hgate hd
  refine ⟨?_, ?_⟩
  · rw [submitTo, log_submitRecord, hsubmit]
    exact Kafka.messages_write k b fresh _
  · obtain ⟨r', hassign⟩ := Session.assignId_target hid d fresh
    rw [submitTo, exit_submitRecord, hsubmit]
    show (Session.settle _ _ (k.write b fresh (Session.request r d)).1).verdict = .ok true ↔ _
    rw [Session.verdict_settle]
    rcases Kafka.outcome_write k b fresh (Session.request r d) with
      ⟨hstored, htaken⟩ | ⟨⟨reason, hrefused⟩, hnot⟩
    · exact iff_of_true ⟨_, r', hstored, hassign⟩ htaken
    · refine iff_of_false ?_ hnot
      rintro ⟨id, -, hstored, -⟩
      cases hrefused.symm.trans hstored

theorem check_exit_ok : (check yaml fs cat rule).exit = .ok 0 ↔
    ∃ c r, loadCatalog yaml fs cat = .ok c ∧ fs.loadRule rule = .ok r ∧
      (Gate.evaluate c r).submittable = true := by
  cases hcat : loadCatalog yaml fs cat with
  | ok c => simp [check_exit_ok_iff hcat]
  | error e =>
    refine iff_of_false ?_ (by simp)
    cases hr : fs.loadRule rule with
    | error e => exact exit_withRule_unread hr
    | ok r =>
      rw [check, withRule_loaded hr, hcat]
      nofun

def topicStep (b : Broker) (o : SubmitOptions) (topic : String) :
    Except Store.TopicError Bool × Kafka :=
  (Kafka.connect o.servers topic Kafka.defaultTimeout).ensureTopic b o.partitions o.replication

/-- The options name a topic, and it is there or could be created. -/
def TopicReady (b : Broker) (o : SubmitOptions) (topic : String) : Prop :=
  o.topic = some topic ∧ ∃ created, (topicStep b o topic).1 = .ok created

/-- A message with the rule of a file: an update under the identifier of the rule if it has one, and
else a creation under a fresh one. -/
inductive Publishes (fs : Files) (rule fresh topic : String) : Message → Prop
  | update {text id : String} {r : Record} {d : Document} (hread : fs.read rule = .ok text)
    (hparse : RuleText.parse text = .ok r) (hd : r.document = .ok d) (hid : r.id = some id) :
    Publishes fs rule fresh topic
      ⟨topic, id, .object [("op", .text "update"), ("rule", .object (d.withId id).entries)]⟩
  | create {text : String} {r : Record} {d : Document} (hread : fs.read rule = .ok text)
    (hparse : RuleText.parse text = .ok r) (hd : r.document = .ok d) (hid : r.id = none) :
    Publishes fs rule fresh topic
      ⟨topic, fresh, .object [("op", .text "create"), ("rule", .object (d.withId fresh).entries)]⟩

/-- What a submission comes to that leaves this message, or none. -/
structure Published (yaml : Yaml.Loader δ) (fs : Files) (b : Broker) (fresh : String)
    (cat : CatalogSource) (o : SubmitOptions) (rule : String) (res : Result)
    (m? : Option Message) : Prop where
  log : messages res.log = m?.toList
  published : m?.isSome ↔ (check yaml fs cat rule).exit = .ok 0 ∧ (∃ topic, TopicReady b o topic) ∧
    b.refusal = none
  message : ∀ m ∈ m?, ∃ topic, TopicReady b o topic ∧ Publishes fs rule fresh topic m
  exit : res.exit = .ok 0 ↔ (∃ topic, TopicReady b o topic) ∧ m?.isSome ∧ b.Delivers

theorem publishes_message {text : String} (hread : fs.read rule = .ok text)
    (hparse : RuleText.parse text = .ok r) (hd : r.document = .ok d) :
    Publishes fs rule fresh k.topic (k.message fresh (Session.request r d)) := by
  cases hid : r.id with
  | none =>
    rw [Session.request_create hid]
    exact .create hread hparse hd hid
  | some id =>
    have hne : id ≠ "" := by
      rintro rfl
      exact (RuleText.readable_of_parse hparse).id hid
    rw [(Session.request_update hid hne).1]
    exact .update hread hparse hd hid

theorem published_nothing {res : Result} (hlog : messages res.log = []) (hexit : res.exit ≠ .ok 0)
    (hnot : (check yaml fs cat rule).exit = .ok 0 → ∀ topic, ¬TopicReady b o topic) :
    Published yaml fs b fresh cat o rule res none where
  log := hlog
  published := iff_of_false nofun fun ⟨hcheck, ⟨topic, hready⟩, _⟩ => hnot hcheck topic hready
  message := nofun
  exit := iff_of_false hexit nofun

theorem published_submitTo {text : String} {topic : String} (hready : TopicReady b o topic)
    (htopic : k.topic = topic) (hlog : messages k.log = []) (hcat : loadCatalog yaml fs cat = .ok c)
    (hread : fs.read rule = .ok text) (hparse : RuleText.parse text = .ok r) :
    ∃ m?, Published yaml fs b fresh cat o rule (submitTo k b fresh fs c rule target out r) m? := by
  have hr : fs.loadRule rule = .ok r := Files.loadRule_ok.mpr ⟨text, hread, hparse⟩
  have hcheck : (check yaml fs cat rule).exit = .ok 0 ↔ (Gate.evaluate c r).submittable = true := by
    simp [check_exit_ok_iff hcat, hr]
  cases hgate : (Gate.evaluate c r).submittable with
  | false =>
    obtain ⟨hsame, hexit⟩ := submitTo_refused (k := k) (b := b) hgate
    refine ⟨none, published_nothing ?_ hexit ?_⟩
    · rw [hsame, hlog]
    · intro hok
      rw [hcheck, hgate] at hok
      cases hok
  | true =>
    obtain ⟨d, hd⟩ := Document.exists_document
      (RuleText.printableDetection_of_clean (Gate.submittable_iff.mp hgate))
    -- From here on only the broker can keep the message out.
    obtain ⟨hmessages, hexit⟩ := submitTo_accepted (k := k) (b := b) hgate hd
      (RuleText.readable_of_parse hparse).id
    cases hrefusal : b.refusal with
    | some reason =>
      refine ⟨none, ?_, ?_, nofun, ?_⟩
      · rw [hmessages, hlog, hrefusal]
        rfl
      · simp [hrefusal]
      · rw [hexit, hrefusal]
        simp
    | none =>
      refine ⟨some (k.message fresh (Session.request r d)), ?_, ?_, ?_, ?_⟩
      · rw [hmessages, hlog, hrefusal]
        rfl
      · exact iff_of_true rfl ⟨hcheck.mpr hgate, ⟨topic, hready⟩, hrefusal⟩
      · rintro m ⟨⟩
        exact ⟨topic, hready, htopic ▸ publishes_message hread hparse hd⟩
      · rw [hexit]
        exact ⟨fun h => ⟨⟨topic, hready⟩, rfl, h.2⟩, fun h => ⟨hrefusal, h.2.2⟩⟩

theorem messages_topicStep (b : Broker) (o : SubmitOptions) (topic : String) :
    messages (topicStep b o topic).2.log = [] := Kafka.messages_ensureTopic ..

theorem topic_topicStep (b : Broker) (o : SubmitOptions) (topic : String) :
    (topicStep b o topic).2.topic = topic := Kafka.topic_ensureTopic ..

theorem publish_unready (hr : fs.loadRule rule = .ok r) (h : ∀ topic, ¬TopicReady b o topic)
    (fresh : String) (cat : CatalogSource) :
    messages (publish yaml fs b fresh cat o rule).log = [] ∧
      (publish yaml fs b fresh cat o rule).exit ≠ .ok 0 := by
  rw [publish, withRule_loaded hr]
  cases htopic : o.topic with
  | none => exact ⟨rfl, nofun⟩
  | some topic =>
    have hlog := messages_topicStep b o topic
    dsimp only
    split
    · rename_i hstep
      rw [topicStep, hstep] at hlog
      exact ⟨hlog, nofun⟩
    · rename_i hstep
      rw [topicStep, hstep] at hlog
      exact ⟨hlog, nofun⟩
    · rename_i hstep
      rw [topicStep, hstep] at hlog
      exact ⟨hlog, nofun⟩
    · rename_i created _ hstep
      exact absurd ⟨htopic, created, congrArg Prod.fst hstep⟩ (h topic)

/-- Once the topic can be used, the catalog is read and the rule submitted, through a client that
has left no message yet. -/
theorem publish_ready {topic : String} (hr : fs.loadRule rule = .ok r)
    (h : TopicReady b o topic) (fresh : String) (cat : CatalogSource) :
    ∃ k out, k.topic = topic ∧ messages k.log = [] ∧
      publish yaml fs b fresh cat o rule =
        match loadCatalog yaml fs cat with
        | .error e => { exit := .error e, out, files := fs, log := k.log }
        | .ok c => submitTo k b fresh fs c rule ("topic=" ++ topic) out r := by
  obtain ⟨htopic, created, hcreated⟩ := h
  have hlog := messages_topicStep b o topic
  have hname := topic_topicStep b o topic
  cases hstep : topicStep b o topic with
  | mk answer k =>
    rw [hstep] at hcreated hlog hname
    obtain rfl : answer = .ok created := hcreated
    rw [topicStep] at hstep
    refine ⟨k, (if created then "Created" else "Using existing") ++ " topic '" ++ topic ++ "'\n",
      hname, hlog, ?_⟩
    rw [publish, withRule_loaded hr, htopic]
    simp only [hstep]
    rfl

theorem published_publish (yaml : Yaml.Loader δ) (fs : Files) (b : Broker) (fresh : String)
    (cat : CatalogSource) (o : SubmitOptions) (rule : String) :
    ∃ m?, Published yaml fs b fresh cat o rule (publish yaml fs b fresh cat o rule) m? := by
  cases hr : fs.loadRule rule with
  | error e =>
    have hcheck : (check yaml fs cat rule).exit ≠ .ok 0 := exit_withRule_unread hr
    refine ⟨none, published_nothing ?_ (exit_withRule_unread hr) fun hok => absurd hok hcheck⟩
    rw [publish, withRule, hr]
    cases e <;> rfl
  | ok r =>
    by_cases hready : ∃ topic, TopicReady b o topic
    · obtain ⟨topic, hready⟩ := hready
      obtain ⟨k, out, hname, hlog, hpublish⟩ := publish_ready hr hready fresh cat
      rw [hpublish]
      cases hcat : loadCatalog yaml fs cat with
      | error e =>
        refine ⟨none, published_nothing hlog (by simp) fun hok => ?_⟩
        obtain ⟨c, -, hloaded, -⟩ := check_exit_ok.mp hok
        cases hcat.symm.trans hloaded
      | ok c =>
        obtain ⟨text, hread, hparse⟩ := Files.loadRule_ok.mp hr
        exact published_submitTo hready hname hlog hcat hread hparse
    · have hnot := not_exists.mp hready
      obtain ⟨hlog, hexit⟩ := publish_unready hr hnot fresh cat
      exact ⟨none, published_nothing hlog hexit fun _ => hnot⟩

/-- Whatever the files, the arguments and the broker: a submission that is not a dry run leaves at
most one message. It leaves one exactly if the rule passes the check, the topic can be used and the
broker takes the message; then this is the rule of the file under the key of the message. It
succeeds exactly if a message is left that is delivered. -/
theorem run_published (yaml : Yaml.Loader δ) (fs : Files) (b : Broker) (fresh : String)
    (haction : i.action = .submit o) (hdry : o.dryRun = false) :
    ∃ m?, Published yaml fs b fresh i.catalog o i.rule (run yaml fs b fresh i) m? := by
  rw [run, haction]
  simp only [hdry, Bool.false_eq_true, if_false]
  exact published_publish yaml fs b fresh i.catalog o i.rule

def submission : Invocation := ⟨.file "desk.yml", .submit {}, "rule.yml"⟩

theorem run_published_unindented :
    (submission.action = .submit {} ∧ ({} : SubmitOptions).dryRun = false) ∧
      ∃ m, messages (run Yaml.loader unindented {} "fresh" submission).log = [m] ∧
        Publishes unindented "rule.yml" "fresh" Kafka.defaultTopic m ∧
        (run Yaml.loader unindented {} "fresh" submission).exit = .ok 0 := by
  have haction : submission.action = .submit {} := rfl
  have hdry : ({} : SubmitOptions).dryRun = false := rfl
  refine ⟨⟨haction, hdry⟩, ?_⟩
  obtain ⟨m?, h⟩ := run_published Yaml.loader unindented {} "fresh" haction hdry
  have hready : TopicReady {} {} Kafka.defaultTopic := ⟨rfl, true, rfl⟩
  have hsome := h.published.mpr ⟨check_unindented, ⟨_, hready⟩, rfl⟩
  obtain ⟨m, rfl⟩ := Option.isSome_iff_exists.mp hsome
  obtain ⟨topic, htopic, hm⟩ := h.message m rfl
  obtain rfl := Option.some.inj (htopic.1.symm.trans hready.1)
  exact ⟨m, h.log, hm, h.exit.mpr ⟨⟨_, hready⟩, rfl, by decide, by decide⟩⟩

end Command

end SigmaDesk
