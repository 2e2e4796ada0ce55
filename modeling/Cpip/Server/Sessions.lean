import Cpip.Python.Value

/-!
# Execution sessions (`server/ws/sessions.py`)
-/

namespace Cpip

/-- `ExecutionSession`, without `active_modules`, which nothing reads. -/
structure ExecutionSession where
  sessionId : PyVal
  deviceId : PyVal
  createdAt : ℚ
  lastActive : ℚ
  executionCount : ℕ

/-- `s.device_id == device_id`. -/
def ExecutionSession.isOn (s : ExecutionSession) (deviceId : String) : Bool :=
  match s.deviceId with
  | .str d => d = deviceId
  | _ => false

theorem ExecutionSession.isOn_iff {s : ExecutionSession} {deviceId : String} :
    s.isOn deviceId = true ↔ s.deviceId = .str deviceId := by
  unfold isOn
  split
  · rename_i d hd
    simp [hd]
  · rename_i other
    constructor
    · exact nofun
    · exact fun same => absurd same (other deviceId)

/-- `SessionManager`. -/
structure SessionManager where
  sessions : Dict PyKey ExecutionSession

namespace SessionManager

def empty : SessionManager := ⟨∅⟩

/-- `create`; the two defaults of the session read the clock one after the other. -/
def create (m : SessionManager) (sessionId deviceId : String) (createdAt lastActive : ℚ) :
    ExecutionSession × SessionManager :=
  let session : ExecutionSession := ⟨.str sessionId, .str deviceId, createdAt, lastActive, 0⟩
  (session, ⟨m.sessions.set (.str sessionId) session⟩)

def get (m : SessionManager) (sessionId : String) : Option ExecutionSession :=
  m.sessions.get? (.str sessionId)

/-- `get_by_device`. -/
def getByDevice (m : SessionManager) (deviceId : String) : List ExecutionSession :=
  (m.sessions.entries.map Prod.snd).filter fun s => s.isOn deviceId

/-- `update_activity`; the lookup raises on an id without a hash. -/
def updateActivity (m : SessionManager) (sessionId : PyVal) (now : ℚ) :
    Except PyExc SessionManager :=
  match sessionId.hash? with
  | none => .error (.typeError "unhashable type")
  | some key =>
    match m.sessions.get? key with
    | some s => .ok ⟨m.sessions.set key
        { s with lastActive := now, executionCount := s.executionCount + 1 }⟩
    | none => .ok m

def remove (m : SessionManager) (sessionId : String) : SessionManager :=
  ⟨m.sessions.pop (.str sessionId)⟩

/-- The keys of the sessions that were idle for too long. -/
def stale (m : SessionManager) (maxIdleSeconds now : ℚ) : List PyKey :=
  (m.sessions.entries.filter fun e => now - e.2.lastActive > maxIdleSeconds).map Prod.fst

/-- `cleanup_stale`. -/
def cleanupStale (m : SessionManager) (maxIdleSeconds now : ℚ) : ℕ × SessionManager :=
  ((m.stale maxIdleSeconds now).length, ⟨(m.stale maxIdleSeconds now).foldl Dict.pop m.sessions⟩)

/-- `active_count`. -/
def activeCount (m : SessionManager) : ℕ := m.sessions.entries.length

end SessionManager

end Cpip
