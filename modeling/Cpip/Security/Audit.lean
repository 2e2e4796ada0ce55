import Mathlib.Logic.Function.Basic
import Cpip.Lib.Machine
import Cpip.Python.JsonChars

/-!
# The audit trail (`security/audit.py`)

Every `AuditLogger` appends its events to the `audit.jsonl` of its directory, and adds a handler
for its `audit.log` to the logger `cpip.audit`, which all of them share.  So `audit.jsonl` holds
what was logged through the loggers of its directory, and `audit.log` what was logged through any
of them, once for each logger of its directory that was there.

Directories are of any type: two paths to one directory are one value of it.  A record of
`audit.log` is its message; what the formatter puts in front of it is left out.
-/

namespace Cpip

open JsonChars (FloatText readLines Complete)

/-- The arguments of `log_event`. -/
structure AuditEvent where
  eventType : String
  userId : String
  deviceId : String
  details : List (PyKey × PyVal)

namespace AuditEvent

def logAuthSuccess (userId deviceId ipAddress : String) : AuditEvent :=
  ⟨"auth_success", userId, deviceId, [(.str "ip_address", .str ipAddress)]⟩

def logAuthFailure (userId deviceId reason ipAddress : String) : AuditEvent :=
  ⟨"auth_failure", userId, deviceId,
    [(.str "reason", .str reason), (.str "ip_address", .str ipAddress)]⟩

def logExecution (userId deviceId method : String) (sandboxConfig : PyVal) : AuditEvent :=
  ⟨"execution_attempt", userId, deviceId,
    [(.str "method", .str method), (.str "sandbox", sandboxConfig)]⟩

def logPackageInstall (userId deviceId package strategy : String) : AuditEvent :=
  ⟨"package_install", userId, deviceId,
    [(.str "package", .str package), (.str "strategy", .str strategy)]⟩

/-- The dictionary that is logged. -/
def event (e : AuditEvent) (now : ℚ) : PyVal :=
  .dict [(.str "timestamp", .float (.finite now)), (.str "type", .str e.eventType),
    (.str "user_id", .str e.userId), (.str "device_id", .str e.deviceId),
    (.str "details", .dict e.details)]

/-- The message for `audit.log`, with the details as they are spelled. -/
def message (e : AuditEvent) (details : List Char) : String :=
  "Audit event: " ++ e.eventType ++ " | User: " ++ e.userId ++ " | Device: " ++ e.deviceId ++
    " | Details: " ++ String.ofList details

end AuditEvent

/-- The directories of the loggers made so far, in order, and the two files of each directory. -/
structure AuditTrail (δ : Type) where
  made : List δ
  jsonl : δ → List Char
  records : δ → List String

/-- A logger is made for a directory; or an event is logged through the `i`-th logger, at `now`, and
`audit.jsonl` can be opened and written or not. -/
inductive AuditAction (δ : Type) where
  | create (logDir : δ)
  | logEvent (i : ℕ) (e : AuditEvent) (now : ℚ) (writable : Bool)

namespace AuditTrail

variable {δ : Type} [DecidableEq δ] (fl : FloatText) (str : PyVal → String)

/-- How this Python spells values. -/
def py : PyText := (JsonChars.files fl str).py

/-- The logger passes a message to its handlers, one after the other. -/
def info (handlers : List δ) (records : δ → List String) (message : String) : δ → List String :=
  handlers.foldl (fun records d => Function.update records d (records d ++ [message])) records

/-- `log_event` of a logger of the directory `d`, which ignores every exception. -/
def logEvent (s : AuditTrail δ) (d : δ) (e : AuditEvent) (now : ℚ) (writable : Bool) :
    AuditTrail δ :=
  if writable then
    match (py fl str).dumpsStrict (e.event now) with
    | .error _ => s
    | .ok text =>
      let s := { s with
        jsonl := Function.update s.jsonl d (s.jsonl d ++ (JsonChars.spell fl text ++ ['\n'])) }
      match (py fl str).dumpsStrict (.dict e.details) with
      | .error _ => s
      | .ok details =>
        { s with records := info s.made s.records (e.message (JsonChars.spell fl details)) }
  else s

def step (s : AuditTrail δ) : AuditAction δ → Option (AuditTrail δ)
  | .create logDir => some { s with made := s.made ++ [logDir] }
  | .logEvent i e now writable => s.made[i]?.map fun d => s.logEvent fl str d e now writable

/-- The files as they are before any logger is made. -/
def init (jsonl : δ → List Char) : AuditTrail δ := ⟨[], jsonl, fun _ => []⟩

/-! ## What was logged -/

/-- An event that was logged: the directory of its logger, the loggers there were, its text, and its
message. -/
structure Logged (δ : Type) where
  logDir : δ
  made : List δ
  text : JsonText
  message : String

/-- The event, if it is one that can be spelled. -/
def logged? (made : List δ) (d : δ) (e : AuditEvent) (now : ℚ) : Option (Logged δ) :=
  match (py fl str).dumpsStrict (e.event now), (py fl str).dumpsStrict (.dict e.details) with
  | .ok text, .ok details => some ⟨d, made, text, e.message (JsonChars.spell fl details)⟩
  | _, _ => none

/-- The events that were logged in a run, in order. -/
def trail : List δ → List (AuditAction δ) → List (Logged δ)
  | _, [] => []
  | made, .create logDir :: as => trail (made ++ [logDir]) as
  | made, .logEvent i e now writable :: as =>
    (if writable then made[i]?.bind fun d => logged? fl str made d e now else none).toList ++
      trail made as

/-! ## Steps -/

/-- The details of an event that can be spelled can be spelled. -/
theorem details_isOk {e : AuditEvent} {now : ℚ} {text : JsonText}
    (h : (py fl str).dumpsStrict (e.event now) = .ok text) :
    ∃ details, (py fl str).dumpsStrict (.dict e.details) = .ok details := by
  unfold PyText.dumpsStrict at h ⊢
  split_ifs at h with dumpable
  · have parts := ((PyVal.everywhere_dict_iff _).1 dumpable).2
    have inner := parts (.str "details", .dict e.details) (by simp)
    obtain ⟨-, details, hdetails⟩ := ((py fl str).dumps_dict_isOk_iff _).1 ⟨text, h⟩
      (.str "details", .dict e.details) (by simp)
    exact ⟨details, by rw [if_pos inner]; exact hdetails⟩

/-- The state after an event that was logged. -/
def afterLogged (s : AuditTrail δ) (l : Logged δ) : AuditTrail δ where
  made := s.made
  jsonl := Function.update s.jsonl l.logDir
    (s.jsonl l.logDir ++ (JsonChars.spell fl l.text ++ ['\n']))
  records := info s.made s.records l.message

variable {fl str}

theorem logEvent_eq (s : AuditTrail δ) (d : δ) (e : AuditEvent) (now : ℚ) (writable : Bool) :
    s.logEvent fl str d e now writable =
      ((if writable then logged? fl str s.made d e now else none).map
        (s.afterLogged fl)).getD s := by
  unfold logEvent logged?
  split_ifs
  · cases spelled : (py fl str).dumpsStrict (e.event now) with
    | error ex => rfl
    | ok text =>
      obtain ⟨details, hdetails⟩ := details_isOk fl str spelled
      rw [hdetails]
      rfl
  · rfl

omit [DecidableEq δ] in
theorem logged?_made {made : List δ} {d : δ} {e : AuditEvent} {now : ℚ} {l : Logged δ}
    (h : logged? fl str made d e now = some l) : l.made = made ∧ l.logDir = d := by
  unfold logged? at h
  split at h <;> cases h
  exact ⟨rfl, rfl⟩

/-- Each directory gets a message once for each of its handlers. -/
theorem info_apply (handlers : List δ) (records : δ → List String) (message : String) (d : δ) :
    info handlers records message d = records d ++ List.replicate (handlers.count d) message := by
  unfold info
  induction handlers generalizing records with
  | nil => simp
  | cons h handlers ih =>
    rw [List.foldl_cons, ih]
    by_cases same : h = d
    · subst same
      rw [Function.update_self, List.count_cons_self, List.append_assoc, List.replicate_succ]
      rfl
    · rw [Function.update_of_ne (Ne.symm same), List.count_cons_of_ne same]

/-! ## Runs -/

/-- What a step adds to the two files of a directory. -/
theorem step_cases {s s' : AuditTrail δ} {a : AuditAction δ} (h : s.step fl str a = some s') :
    ∃ new : Option (Logged δ), (∀ l ∈ new, l.made = s.made) ∧
      (∀ as, trail fl str s.made (a :: as) = new.toList ++ trail fl str s'.made as) ∧
      s'.jsonl = (new.map (s.afterLogged fl)).elim s.jsonl AuditTrail.jsonl ∧
      s'.records = (new.map (s.afterLogged fl)).elim s.records AuditTrail.records := by
  cases a with
  | create logDir =>
    obtain rfl := Option.some.inj h
    exact ⟨none, by simp, fun as => rfl, rfl, rfl⟩
  | logEvent i e now writable =>
    obtain ⟨d, here, rfl⟩ := Option.map_eq_some_iff.1 h
    have same : (s.logEvent fl str d e now writable).made = s.made := by
      rw [logEvent_eq]
      cases (if writable then logged? fl str s.made d e now else none) <;> rfl
    refine ⟨if writable then logged? fl str s.made d e now else none, ?_, fun as => ?_, ?_, ?_⟩
    · intro l mem
      split_ifs at mem
      · exact (logged?_made mem).1
      · cases mem
    · rw [same, trail, here]
      rfl
    · rw [logEvent_eq]
      cases (if writable then logged? fl str s.made d e now else none) <;> rfl
    · rw [logEvent_eq]
      cases (if writable then logged? fl str s.made d e now else none) <;> rfl

theorem jsonl_of_run {as : List (AuditAction δ)} {s s' : AuditTrail δ}
    (ran : Machine.run (step fl str) s as = some s') {d : δ} {ts : List JsonText}
    (complete : Complete (s.jsonl d)) (read : readLines fl (s.jsonl d) = some ts) :
    Complete (s'.jsonl d) ∧ readLines fl (s'.jsonl d) =
      some (ts ++ ((trail fl str s.made as).filter (·.logDir = d)).map (·.text)) := by
  induction as generalizing s ts with
  | nil =>
    obtain rfl := Option.some.inj ran
    exact ⟨complete, by simpa [trail] using read⟩
  | cons a as ih =>
    obtain ⟨s₁, first, ran⟩ := (Machine.run_cons_eq_some _).1 ran
    obtain ⟨new, -, trails, jsonl, -⟩ := step_cases first
    rw [trails]
    cases new with
    | none =>
      have same : s₁.jsonl = s.jsonl := jsonl
      rw [← same] at complete read
      exact ih ran complete read
    | some l =>
      have written : s₁.jsonl = Function.update s.jsonl l.logDir
        (s.jsonl l.logDir ++ (JsonChars.spell fl l.text ++ ['\n'])) := jsonl
      by_cases own : l.logDir = d
      · have line : s₁.jsonl d = s.jsonl d ++ (JsonChars.spell fl l.text ++ ['\n']) := by
          rw [written, ← own, Function.update_self]
        have now := ih ran (line ▸ JsonChars.complete_append fl _ l.text)
          (line ▸ JsonChars.readLines_append fl complete read l.text)
        simpa [own] using now
      · have same : s₁.jsonl d = s.jsonl d := by
          rw [written, Function.update_of_ne (Ne.symm own)]
        rw [← same] at complete read
        have now := ih ran complete read
        simpa [own] using now

theorem records_of_run {as : List (AuditAction δ)} {s s' : AuditTrail δ}
    (ran : Machine.run (step fl str) s as = some s') (d : δ) :
    s'.records d = s.records d ++
      (trail fl str s.made as).flatMap fun l => List.replicate (l.made.count d) l.message := by
  induction as generalizing s with
  | nil =>
    obtain rfl := Option.some.inj ran
    simp [trail]
  | cons a as ih =>
    obtain ⟨s₁, first, ran⟩ := (Machine.run_cons_eq_some _).1 ran
    obtain ⟨new, made, trails, -, records⟩ := step_cases first
    rw [trails, ih ran]
    cases new with
    | none =>
      have same : s₁.records = s.records := records
      rw [same]
      rfl
    | some l =>
      have sent : s₁.records = info s.made s.records l.message := records
      rw [sent, info_apply, ← made l rfl]
      simp

end AuditTrail

/-- Whatever is logged through however many loggers: an `audit.jsonl` that is made of complete lines
before, read line by line as JSON, gives what it gave before and then the events that were logged
through the loggers of its directory, in order and one line each; an event with details that JSON
has is among them whenever the file could be written, and reads as it was in every field. -/
theorem audit_read_back {δ : Type} [DecidableEq δ] (fl : FloatText) (str : PyVal → String)
    (prior : δ → List Char) (as : List (AuditAction δ)) (s : AuditTrail δ)
    (ran : Machine.run (AuditTrail.step fl str) (.init prior) as = some s) (d : δ)
    (ts : List JsonText) (complete : Complete (prior d))
    (read : readLines fl (prior d) = some ts) :
    Complete (s.jsonl d) ∧
      readLines fl (s.jsonl d) = some
        (ts ++ ((AuditTrail.trail fl str [] as).filter (·.logDir = d)).map (·.text)) ∧
      ∀ (made : List δ) (e : AuditEvent) (now : ℚ), (PyVal.dict e.details).IsJson →
        ∃ l, AuditTrail.logged? fl str made d e now = some l ∧ l.text.loads = e.event now := by
  obtain ⟨complete', read'⟩ := AuditTrail.jsonl_of_run ran complete read
  refine ⟨complete', read', fun made e now json => ?_⟩
  have whole : (e.event now).IsJson := by
    refine (PyVal.everywhere_dict_iff _).2 ⟨⟨by simp, by simp⟩, ?_⟩
    simp only [List.forall_mem_cons]
    exact ⟨trivial, trivial, trivial, trivial, json, by simp⟩
  obtain ⟨text, spelled, loads⟩ := (AuditTrail.py fl str).loads_dumps whole
  obtain ⟨details, spelled', -⟩ := (AuditTrail.py fl str).loads_dumps json
  refine ⟨⟨d, made, text, e.message (JsonChars.spell fl details)⟩, ?_, loads⟩
  unfold AuditTrail.logged?
  rw [PyText.dumpsStrict_of_isJson _ whole, PyText.dumpsStrict_of_isJson _ json, spelled, spelled']

/-- Two loggers of one directory and a third of another, an event with a newline in its user id,
one of the other directory, and one through the last logger. -/
def threeLoggers : List (AuditAction Bool) :=
  [.create false, .create true, .create false,
    .logEvent 0 (.logAuthFailure "root\n\x7b\x7d" "phone" "bad password" "") 0 true,
    .logEvent 1 (.logAuthSuccess "root" "phone" "") 1 true,
    .logEvent 2 (.logPackageInstall "root" "phone" "numpy" "cloud_wheel") 2 true]

/-- A file of one line from before. -/
theorem audit_read_back_threeLoggers :
    ∃ s, Machine.run (AuditTrail.step JsonChars.sampleFloats fun _ => "")
        (.init fun _ => "null\n".toList) threeLoggers = some s ∧
      ((AuditTrail.trail JsonChars.sampleFloats (fun _ => "") [] threeLoggers).filter
        (·.logDir = false)).length = 2 ∧
      Complete (s.jsonl false) ∧
      readLines JsonChars.sampleFloats (s.jsonl false) = some ([.null] ++
        ((AuditTrail.trail JsonChars.sampleFloats (fun _ => "") [] threeLoggers).filter
          (·.logDir = false)).map (·.text)) := by
  refine ⟨_, rfl, by decide +kernel, ?_⟩
  obtain ⟨complete, read, -⟩ := audit_read_back JsonChars.sampleFloats (fun _ => "")
    (fun _ => "null\n".toList) threeLoggers _ rfl false [.null] (.inr (by decide))
    (JsonChars.readLines_append _ (.inl rfl) (rfl : _ = some []) .null)
  exact ⟨complete, read⟩

/-- An event that was logged through any logger is recorded in the `audit.log` of every directory,
as many times as loggers had been made for that directory. -/
theorem audit_recorded {δ : Type} [DecidableEq δ] (fl : FloatText) (str : PyVal → String)
    (prior : δ → List Char) (as : List (AuditAction δ)) (s : AuditTrail δ)
    (ran : Machine.run (AuditTrail.step fl str) (.init prior) as = some s) (d : δ) :
    s.records d = (AuditTrail.trail fl str [] as).flatMap fun l =>
      List.replicate (l.made.count d) l.message :=
  AuditTrail.records_of_run ran d

theorem audit_recorded_threeLoggers :
    ∃ s, Machine.run (AuditTrail.step JsonChars.sampleFloats fun _ => "") (.init fun _ => [])
        threeLoggers = some s ∧
      s.records false = (AuditTrail.trail JsonChars.sampleFloats (fun _ => "") []
        threeLoggers).flatMap fun l => List.replicate (l.made.count false) l.message :=
  ⟨_, rfl, audit_recorded JsonChars.sampleFloats (fun _ => "") (fun _ => []) threeLoggers _ rfl
    false⟩

end Cpip
