import Cpip.Python.Regex
import Cpip.Server.Heartbeats
import Cpip.Server.Devices

/-!
# Device ids (`server/models.py`, `server/app.py`)

An id enters the server through the registration endpoint, whose request model checks it, and
through `session.init`, which takes it as it is.  The pattern of the model lets a final newline
through.
-/

namespace Cpip

open Regex (reMatch)
open ConnectionHub (Connects)

/-! ## `DeviceRegistration` -/

/-- A character of `[a-zA-Z0-9_-]`. -/
def isIdChar (c : Char) : Bool := c.isAlphanum || c = '_' || c = '-'

/-- An error of a request model, at one of its fields. -/
structure FieldError where
  loc : String
  msg : String
  deriving DecidableEq, Repr

namespace DeviceRegistration

/-- A string field with its bounds on the number of characters. -/
def checkString (loc : String) (minLength maxLength : ℕ) : PyVal → Except FieldError String
  | .str s =>
    if s.length < minLength then
      .error ⟨loc, s!"String should have at least {minLength} character"⟩
    else if maxLength < s.length then
      .error ⟨loc, s!"String should have at most {maxLength} characters"⟩
    else .ok s
  | _ => .error ⟨loc, "Input should be a valid string"⟩

/-- `platform` and `version`, which default to `None`. -/
def checkOptional (loc : String) (body : List (PyKey × PyVal)) :
    Except FieldError (Option String) :=
  match PyVal.getStr loc body with
  | none | some .none => .ok none
  | some v => (checkString loc 0 50 v).map some

/-- `validate_device_id`. -/
def validateDeviceId (v : String) : Except FieldError String :=
  if reMatch [.start, .repeated isIdChar, .ending] v then .ok v
  else .error ⟨"device_id",
    "Value error, device_id must contain only alphanumeric characters, hyphens, and underscores"⟩

/-- `device_id`: its bounds and then its validator. -/
def deviceIdField (v : PyVal) : Except FieldError String :=
  checkString "device_id" 1 255 v >>= validateDeviceId

def checkDeviceId (body : List (PyKey × PyVal)) : Except FieldError String :=
  match PyVal.getStr "device_id" body with
  | none => .error ⟨"device_id", "Field required"⟩
  | some v => deviceIdField v

end DeviceRegistration

structure DeviceRegistration where
  deviceId : String
  platform : Option String
  version : Option String
  deriving DecidableEq, Repr

namespace DeviceRegistration

def errorOf {α : Type} : Except FieldError α → List FieldError
  | .ok _ => []
  | .error e => [e]

/-- The request model of a body, or the errors of all its fields. -/
def ofBody (body : List (PyKey × PyVal)) : Except (List FieldError) DeviceRegistration :=
  match checkDeviceId body, checkOptional "platform" body, checkOptional "version" body with
  | .ok deviceId, .ok platform, .ok version => .ok ⟨deviceId, platform, version⟩
  | deviceId, platform, version => .error (errorOf deviceId ++ errorOf platform ++ errorOf version)

/-- `register_device`. -/
def registerDevice (data : DeviceRegistration) (now : ℚ) : PyVal :=
  .dict [(.str "status", .str "ok"), (.str "device_id", .str data.deviceId),
    (.str "timestamp", .float (.finite now))]

/-- The endpoint accepts the id: no request with it is refused for its device id. -/
def Accepts (id : String) : Prop :=
  ∀ body errors, PyVal.getStr "device_id" body = some (.str id) → ofBody body = .error errors →
    ∀ e ∈ errors, e.loc ≠ "device_id"

/-- Every error names the field that it is about. -/
theorem loc_of_checkString {loc : String} {minLength maxLength : ℕ} {v : PyVal} {e : FieldError}
    (h : checkString loc minLength maxLength v = .error e) : e.loc = loc := by
  unfold checkString at h
  split at h
  · split_ifs at h <;> cases h <;> rfl
  · cases h
    rfl

theorem loc_of_checkOptional {loc : String} {body : List (PyKey × PyVal)} {e : FieldError}
    (h : checkOptional loc body = .error e) : e.loc = loc := by
  unfold checkOptional at h
  split at h
  · cases h
  · cases h
  · next v _ _ =>
    cases checked : checkString loc 0 50 v with
    | ok s =>
      rw [checked] at h
      cases h
    | error e' =>
      rw [checked] at h
      cases h
      exact loc_of_checkString checked

theorem loc_of_deviceIdField {v : PyVal} {e : FieldError} (h : deviceIdField v = .error e) :
    e.loc = "device_id" := by
  unfold deviceIdField at h
  cases checked : checkString "device_id" 1 255 v with
  | error e' =>
    rw [checked] at h
    cases h
    exact loc_of_checkString checked
  | ok s =>
    rw [checked] at h
    change validateDeviceId s = .error e at h
    unfold validateDeviceId at h
    split_ifs at h
    cases h
    rfl

/-- A field that passes its checks has the value that was given. -/
theorem str_of_deviceIdField {id s : String} (h : deviceIdField (.str id) = .ok s) : s = id := by
  unfold deviceIdField checkString validateDeviceId at h
  dsimp only at h
  split_ifs at h with short long
  · cases h
  · cases h
  · dsimp only [bind, Except.bind] at h
    split_ifs at h
    exact (Except.ok.inj h).symm

theorem mem_errorOf {α : Type} {r : Except FieldError α} {e : FieldError} :
    e ∈ errorOf r ↔ r = .error e := by
  cases r with
  | ok a => simp [errorOf]
  | error e' => simp [errorOf, eq_comm]

theorem deviceIdField_str_iff {id : String} :
    deviceIdField (.str id) = .ok id ↔ 1 ≤ id.length ∧ id.length ≤ 255 ∧
      reMatch [.start, .repeated isIdChar, .ending] id = true := by
  unfold deviceIdField checkString validateDeviceId
  dsimp only
  split_ifs with short long
  · exact iff_of_false nofun fun h => by omega
  · exact iff_of_false nofun fun h => by omega
  · dsimp only [bind, Except.bind]
    split_ifs with passes
    · exact iff_of_true rfl ⟨by omega, by omega, passes⟩
    · exact iff_of_false nofun fun h => passes h.2.2

/-- Whether an id is accepted depends on the id alone, not on the rest of the request. -/
theorem accepts_iff_deviceIdField (id : String) :
    Accepts id ↔ deviceIdField (.str id) = .ok id := by
  constructor
  · intro accepts
    cases checked : deviceIdField (.str id) with
    | error e =>
      refine absurd (loc_of_deviceIdField checked)
        (accepts [(.str "device_id", .str id)] [e] rfl ?_ e (List.mem_singleton_self e))
      have here : checkDeviceId [(.str "device_id", .str id)] = .error e := checked
      rw [ofBody, here]
      rfl
    | ok s =>
      rw [str_of_deviceIdField checked]
  · intro ok body errors here refused e mem
    have checked : checkDeviceId body = .ok id := by
      rw [checkDeviceId, here]
      exact ok
    have among : e ∈ errorOf (checkOptional "platform" body) ++
        errorOf (checkOptional "version" body) := by
      rw [ofBody, checked] at refused
      split at refused
      · cases refused
      · cases refused
        simpa [errorOf] using mem
    rcases List.mem_append.1 among with mem | mem
    · rw [loc_of_checkOptional (mem_errorOf.1 mem)]
      decide
    · rw [loc_of_checkOptional (mem_errorOf.1 mem)]
      decide

end DeviceRegistration

/-! ## The grammar of device ids -/

/-- Between 1 and 255 ASCII letters, digits, hyphens and underscores. -/
def IsDeviceId (id : String) : Prop :=
  1 ≤ id.length ∧ id.length ≤ 255 ∧ ∀ c ∈ id.toList, isIdChar c = true

instance (id : String) : Decidable (IsDeviceId id) :=
  haveI := List.decidableBAll (fun c => isIdChar c = true) id.toList
  inferInstanceAs (Decidable (_ ∧ _ ∧ _))

theorem isWord_iff {id : String} :
    Regex.IsWord isIdChar id.toList ↔ 1 ≤ id.length ∧ ∀ c ∈ id.toList, isIdChar c = true := by
  rw [Regex.IsWord, ← String.length_toList, Nat.one_le_iff_ne_zero, ne_eq, ne_eq,
    List.length_eq_zero_iff]

/-- The endpoint accepts the ids of the grammar, and those of at most 254 characters with a newline
after them. -/
theorem DeviceRegistration.accepts_iff (id : String) :
    Accepts id ↔
      IsDeviceId id ∨ ∃ stem, IsDeviceId stem ∧ stem.length ≤ 254 ∧ id = stem ++ "\n" := by
  rw [accepts_iff_deviceIdField, deviceIdField_str_iff, Regex.reMatch_word_iff]
  constructor
  · rintro ⟨low, high, word, isWord, split | split⟩
    · obtain rfl := split
      exact .inl ⟨low, high, isWord.2⟩
    · obtain rfl : id = String.ofList word ++ "\n" := by
        rw [← String.toList_inj, split]
        simp
      have length : (String.ofList word ++ "\n").length = (String.ofList word).length + 1 := by
        rw [String.length_append]
        rfl
      have word' : (String.ofList word).toList = word := String.toList_ofList
      have isWord' := isWord_iff.1 (word'.symm ▸ isWord)
      exact .inr ⟨_, ⟨isWord'.1, by omega, isWord'.2⟩, by omega, rfl⟩
  · rintro (⟨low, high, chars⟩ | ⟨stem, ⟨low, high, chars⟩, short, rfl⟩)
    · exact ⟨low, high, id.toList, isWord_iff.2 ⟨low, chars⟩, .inl rfl⟩
    · have length : (stem ++ "\n").length = stem.length + 1 := by
        rw [String.length_append]
        rfl
      exact ⟨by omega, by omega, stem.toList, isWord_iff.2 ⟨low, chars⟩, .inr (by simp)⟩

theorem not_isDeviceId_newline (stem : String) : ¬ IsDeviceId (stem ++ "\n") := by
  intro h
  have newline := h.2.2 '\n' (by simp)
  exact absurd newline (by decide)

/-! ## `session.init` -/

namespace Served

/-- `session.init` accepts the id: a handler that receives a frame with it takes it, and either has
its connection under it already or goes on to register its socket under it. -/
def Takes (srv : Server) (id : String) : Prop :=
  ∀ (amb : Ambient) (s : Served) (conn : DeviceConnection) (t : ℕ) (raw : Frame),
    s.self.pc = .running conn .receiving → Announces raw id →
      (s.receive srv amb conn t raw).self.deviceId = .str id ∧
        (sameId (.str id) conn.deviceId = true ∨
          ∃ params, (s.receive srv amb conn t raw).self.pc =
            .running conn (.disconnecting params .locking))

variable {srv : Server} {amb : Ambient}

theorem deviceId_internalError (s : Served) (conn : DeviceConnection) :
    (s.internalError srv amb conn).self.deviceId = s.self.deviceId := by
  unfold internalError
  split <;> rfl

theorem deviceId_parseError (s : Served) (conn : DeviceConnection) :
    (s.parseError srv amb conn).self.deviceId = s.self.deviceId := by
  unfold parseError
  split <;> rfl

theorem deviceId_acknowledge (s : Served) (conn : DeviceConnection) :
    (s.acknowledge srv amb conn).self.deviceId = s.self.deviceId := by
  unfold acknowledge
  dsimp only
  split
  · rfl
  · exact deviceId_internalError s conn

/-- Every id is taken. -/
theorem takes (srv : Server) (id : String) : Takes srv id := by
  rintro amb s conn t raw - ⟨type, params, found, announced⟩
  obtain ⟨msg, decoded, isInit, fields⟩ : ∃ msg, RPCMessage.fromJson amb raw = .ok msg ∧
      msg.type = .sessionInit ∧ msg.params = .dict params := by
    refine ⟨_, Frame.fromJson_eq_ok_iff.2 ⟨_, type, rfl⟩, rfl, ?_⟩
    rw [found]
    cases params <;> rfl
  unfold receive
  rw [decoded]
  dsimp only
  rw [isInit]
  dsimp only
  unfold sessionInit
  rw [fields]
  dsimp only
  rw [announced, Option.getD_some]
  split
  · next same => exact ⟨deviceId_acknowledge _ conn, .inl same⟩
  · exact ⟨rfl, .inr ⟨params, rfl⟩⟩

/-- The frame carries this value as its device id. -/
def Carries (raw : Frame) (v : PyVal) : Prop :=
  raw.type? = some .sessionInit ∧ ∃ params, raw.field "params" = some (.dict params) ∧
    PyVal.getStr "device_id" params = some v

/-- Parameters that are not the default came in the frame. -/
theorem field_of_or {raw : Frame} {params : List (PyKey × PyVal)} {v : PyVal}
    (h : ((raw.field "params").getD .none).or (.dict []) = .dict params)
    (announced : PyVal.getStr "device_id" params = some v) :
    raw.field "params" = some (.dict params) := by
  unfold PyVal.or at h
  split_ifs at h with given
  · cases found : raw.field "params" with
    | none =>
      rw [found] at h
      cases h
    | some p =>
      rw [found] at h
      exact congrArg some h
  · cases h
    cases announced

/-- A frame leaves the device id of the handler or is a `session.init` that carries the new one. -/
theorem deviceId_receive (s : Served) (conn : DeviceConnection) (t : ℕ) (raw : Frame) :
    (s.receive srv amb conn t raw).self.deviceId = s.self.deviceId ∨
      ∃ v, Carries raw v ∧ (s.receive srv amb conn t raw).self.deviceId = v := by
  unfold receive
  dsimp only
  split
  · exact .inl (deviceId_parseError _ conn)
  · exact .inl (deviceId_internalError _ conn)
  · next msg decoded =>
    obtain ⟨type, typed, made⟩ := Frame.fromJson_eq_ok_iff.1 decoded
    split
    · next isInit =>
      unfold sessionInit
      split
      · next params isDict =>
        dsimp only
        cases announced : PyVal.getStr "device_id" params with
        | none =>
          left
          split
          · exact deviceId_acknowledge _ conn
          · rfl
        | some v =>
          refine .inr ⟨v, ⟨?_, params, ?_, announced⟩, ?_⟩
          · obtain rfl : type = .sessionInit := by
              rw [made] at isInit
              exact isInit
            exact typed
          · exact field_of_or (by rw [← isDict, made]; rfl) announced
          · split
            · exact deviceId_acknowledge _ conn
            · rfl
      · exact .inl (deviceId_internalError _ conn)
    · exact .inl rfl
    · split
      · exact .inl rfl
      · exact .inl (deviceId_internalError _ conn)
    · exact .inl rfl

theorem deviceId_loopStep {s s' : Served} {t : ℕ} {conn : DeviceConnection} {input : Input}
    {pc : LoopPc} (h : s.loopStep srv amb t conn input pc = some s') :
    s'.self.deviceId = s.self.deviceId ∨ pc = .receiving ∧ ∃ raw v, input.received = some raw ∧
      Carries raw v ∧ s'.self.deviceId = v := by
  unfold loopStep at h
  split at h
  · split at h <;> cases h
    · exact .inl rfl
    · next raw received =>
      refine (deviceId_receive s conn t raw).imp_right ?_
      rintro ⟨v, carries, taken⟩
      exact ⟨rfl, raw, v, received, carries, taken⟩
  all_goals left
  · split at h <;> cases h
    · rfl
    · rfl
    · exact deviceId_internalError _ conn
  · split at h <;> cases h
    · rfl
    · exact deviceId_acknowledge _ _
    · exact deviceId_internalError _ conn
  · split at h
    · cases h
      exact deviceId_internalError _ conn
    · split at h <;> cases h
      · rfl
      · exact deviceId_internalError _ conn
  · cases h
    unfold Served.sent
    dsimp only
    split
    · rfl
    · exact deviceId_internalError _ conn
  · cases h
    rfl
  · dsimp only at h
    split at h <;> cases h <;> rfl

theorem deviceId_step {s s' : Served} {t : ℕ} {input : Input} (h : s.step srv t input = some s') :
    s'.self.deviceId = s.self.deviceId ∨ ∃ conn raw v, s.self.pc = .running conn .receiving ∧
      input.received = some raw ∧ Carries raw v ∧ s'.self.deviceId = v := by
  unfold step at h
  dsimp only at h
  split at h
  · split at h <;> cases h <;> exact .inl rfl
  · next conn pc here =>
    refine (deviceId_loopStep h).imp_right ?_
    rintro ⟨rfl, raw, v, received, carries, taken⟩
    exact ⟨conn, raw, v, here, received, carries, taken⟩
  · split at h <;> cases h <;> exact .inl rfl
  · cases h

end Served

/-! ## The two doors -/

/-- Both doors accept the string exactly when it is in the grammar. -/
def DoorsAgree (srv : Server) (id : String) : Prop :=
  (DeviceRegistration.Accepts id ↔ IsDeviceId id) ∧ (Served.Takes srv id ↔ IsDeviceId id)

/-- The key is an id of the grammar. -/
def IsIdKey (key : PyKey) : Prop := ∃ id, key = .str id ∧ IsDeviceId id

namespace World

variable {srv : Server}

/-- The ids that the frame of the action carries, if it is received, are in the grammar. -/
def OnlyIds (w : World) : Action → Prop
  | .start _ _ => True
  | .step t input => ∀ deviceId conn raw v,
    w.tasks t = some (.endpoint ⟨deviceId, .running conn .receiving⟩) →
      input.received = some raw → Served.Carries raw v → ∃ id, v = .str id ∧ IsDeviceId id

/-- Every key is in the grammar, and so is the id of every handler. -/
structure Identified (w : World) : Prop where
  keys : ∀ key conn, w.hub.connections.get? key = some conn → IsIdKey key
  handlers : ∀ t self, w.tasks t = some (.endpoint self) →
    ∃ id, self.deviceId = .str id ∧ IsDeviceId id

theorem isDeviceId_placeholder : IsDeviceId "unknown" := by decide

theorem identified_init : init.Identified where
  keys _ _ stored := by cases stored
  handlers _ _ here := by cases here

/-- What a task that registers a connection registers it under, is the id of its handler. -/
theorem keys_runTask {w w' : World} {t : ℕ} {input : Input} {task : Task} (ids : w.Identified)
    (here : w.tasks t = some task) (h : w.runTask srv t input task = some w') :
    ∀ key conn, w'.hub.connections.get? key = some conn → IsIdKey key := by
  intro key conn stored
  cases effect_of_runTask h with
  | calm calm =>
    rw [calm.connections] at stored
    exact ids.keys key conn stored
  | disconnects before step => exact ids.keys key conn (step.registered stored)
  | @connects deviceId _ _ _ _ _ _ before step =>
    rcases step.registered stored with stored | ⟨-, -, hash⟩
    · exact ids.keys key conn stored
    · obtain ⟨self, rfl, same⟩ : ∃ self, task = .endpoint self ∧ self.deviceId = deviceId := by
        unfold Task.connecting at before
        split at before <;> cases before <;> exact ⟨_, rfl, rfl⟩
      obtain ⟨id, isId, inGrammar⟩ := ids.handlers t self here
      rw [← same, isId] at hash
      exact ⟨id, (Option.some.inj hash).symm, inGrammar⟩

/-- The id of a handler after its step is the one before, or comes from a frame. -/
theorem handlers_runTask {w w' : World} {t : ℕ} {input : Input} {task : Task}
    (ids : w.Identified) (only : w.OnlyIds (.step t input)) (here : w.tasks t = some task)
    (h : w.runTask srv t input task = some w') {self : Endpoint}
    (after : w'.tasks t = some (.endpoint self)) :
    ∃ id, self.deviceId = .str id ∧ IsDeviceId id := by
  by_cases handler : ∃ self, task = .endpoint self
  · obtain ⟨before, rfl⟩ := handler
    obtain ⟨s, hs, rfl⟩ := runTask_endpoint h
    obtain rfl : s.self = self := by
      rw [tasks_setTask, if_pos rfl] at after
      cases after
      rfl
    rcases Served.deviceId_step hs with same | ⟨conn, raw, v, receiving, received, carries, taken⟩
    · exact same ▸ ids.handlers t before here
    · obtain ⟨deviceId, pc⟩ := before
      obtain rfl : pc = .running conn .receiving := receiving
      exact taken ▸ only deviceId conn raw v here received carries
  · obtain ⟨task', after', becomes⟩ := becomes_of_runTask h
    obtain rfl := Option.some.inj (after.symm.trans after')
    cases becomes with
    | endpoint before self => exact absurd ⟨before, rfl⟩ handler
    | sends before handler after handler' => exact absurd rfl (handler' self)

theorem identified_step (w : World) (a : Action) (w' : World) (only : w.OnlyIds a)
    (ids : w.Identified) (h : step srv w a = some w') : w'.Identified := by
  cases a with
  | start t call =>
    simp only [step] at h
    split at h
    · cases h
      refine ⟨ids.keys, fun u self here => ?_⟩
      rw [tasks_setTask] at here
      split_ifs at here
      · have launched : launch w.hub call = .endpoint self := Option.some.inj here
        unfold launch at launched
        split at launched
        · cases launched
          exact ⟨"unknown", rfl, isDeviceId_placeholder⟩
        · split at launched <;> cases launched
        · cases launched
        · cases launched
      · exact ids.handlers u self here
    · cases h
  | step t input =>
    obtain ⟨task, here, h⟩ := Option.bind_eq_some_iff.1 h
    refine ⟨keys_runTask ids here h, fun u self after => ?_⟩
    by_cases same : u = t
    · subst same
      exact handlers_runTask ids only here h after
    · rw [tasks_of_runTask h same] at after
      exact ids.handlers u self after

/-- A string is treated alike at both doors exactly when it is in the grammar; and while every
`session.init` that is received carries an id of the grammar, or none, every key of the hub is one,
the placeholder included. -/
theorem doors_agree_iff (srv : Server) :
    (∀ id, DoorsAgree srv id ↔ IsDeviceId id) ∧
      ∀ actions, Machine.Along (step srv) OnlyIds init actions →
        Machine.Throughout (step srv)
          (fun w => ∀ key conn, w.hub.connections.get? key = some conn → IsIdKey key)
          init actions := by
  refine ⟨fun id => ⟨fun agree => agree.2.1 (Served.takes srv id), fun inGrammar => ⟨?_, ?_⟩⟩,
    fun actions only => ?_⟩
  · exact iff_of_true ((DeviceRegistration.accepts_iff id).2 (.inl inGrammar)) inGrammar
  · exact iff_of_true (Served.takes srv id) inGrammar
  · exact Machine.throughout_of_along (fun _ ids => ids.keys) identified_step identified_init only

/-- A handler whose socket can be accepted again, with the id in its first frame. -/
def initRun (id : String) : List Action :=
  [.start 0 .endpoint, .step 0 (.io .ok), .step 0 (.io .ok), .step 0 (.frame (sessionInit id)),
    .step 0 (.io .ok), .step 0 (.io .ok), .step 0 (.io .ok), .step 0 (.io .ok)]

theorem onlyIds_initRun {id : String} (inGrammar : IsDeviceId id) :
    Machine.Along (step srv) OnlyIds init (initRun id) := by
  refine Machine.along_of_forall (fun a mem w => ?_) init
  cases a with
  | start t call => trivial
  | step t input =>
    intro deviceId conn raw v here received carries
    have frame : raw = sessionInit id := by
      simp only [initRun, List.mem_cons, reduceCtorEq, Action.step.injEq, List.not_mem_nil,
        or_false, false_or] at mem
      rcases mem with ⟨-, rfl⟩ | ⟨-, rfl⟩ | ⟨-, rfl⟩ | ⟨-, rfl⟩ | ⟨-, rfl⟩ | ⟨-, rfl⟩ | ⟨-, rfl⟩ <;>
        cases received
      rfl
    subst frame
    obtain ⟨-, params, found, announced⟩ := carries
    cases found
    cases announced
    exact ⟨id, rfl, inGrammar⟩

theorem doors_agree_iff_device : ∃ w,
    Machine.run (step ⟨plainText, .builtin⟩) init (initRun "dev-1") = some w ∧
      w.hub.connections.keys = [.str "dev-1"] ∧ ∀ key conn,
        w.hub.connections.get? key = some conn → IsIdKey key := by
  have last : (Machine.run (step ⟨plainText, .builtin⟩) init (initRun "dev-1")).map
      (fun w => w.hub.connections.keys) = some [.str "dev-1"] := by decide +kernel
  obtain ⟨w, ran, keys⟩ := Option.map_eq_some_iff.1 last
  exact ⟨w, ran, keys, ((doors_agree_iff ⟨plainText, .builtin⟩).2 (initRun "dev-1")
    (onlyIds_initRun (by decide))).last ran⟩

/-- The endpoint accepts an id with a newline after it, and `session.init` one with a blank in it,
which the hub then has as a key. -/
theorem newline_accepted :
    ¬ (DeviceRegistration.Accepts "dev-1\n" ↔ IsDeviceId "dev-1\n") ∧
      ¬ (Served.Takes ⟨plainText, .builtin⟩ "dev 1" ↔ IsDeviceId "dev 1") ∧
      ∃ w, Machine.run (step ⟨plainText, .builtin⟩) init (initRun "dev 1") = some w ∧
        w.hub.connections.keys = [.str "dev 1"] := by
  have newline : DeviceRegistration.Accepts "dev-1\n" :=
    (DeviceRegistration.accepts_iff _).2 (.inr ⟨"dev-1", by decide, by decide, rfl⟩)
  have blank : Served.Takes ⟨plainText, .builtin⟩ "dev 1" := Served.takes _ _
  have last : (Machine.run (step ⟨plainText, .builtin⟩) init (initRun "dev 1")).map
      (fun w => w.hub.connections.keys) = some [.str "dev 1"] := by decide +kernel
  obtain ⟨w, ran, keys⟩ := Option.map_eq_some_iff.1 last
  exact ⟨fun agree => absurd (agree.1 newline) (not_isDeviceId_newline "dev-1"),
    fun agree => absurd (agree.1 blank) (by decide), w, ran, keys⟩

end World

end Cpip
