import Mathlib.Data.Nat.Digits.Defs
import Cpip.Lib.Dict
import Cpip.Lib.Machine

/-!
# The daemon and its PID file (`client/daemon.py`, `client/cli.py`)

Each command `cpip daemon start`, `stop` or `status` is a process of its own, and so is the daemon.
They know of each other by the PID file alone, which anybody may find, read, overwrite or remove
between any two steps of the others.  Processes can end at any time, and their numbers are used
again.
-/

namespace Cpip

/-- How far a daemon is: with the file open, with its number written but no handler for `SIGTERM`,
with all that is needed, or with calls of `stop` that have yet to remove the file. -/
inductive DaemonPhase where
  | spawned
  | opened (inode : ℕ)
  | written
  | serving
  | stopping (calls : ℕ)
  deriving DecidableEq, Repr

/-- A process that is alive; `own` says that the commands may send it signals. -/
inductive ProcessRole where
  | daemon (phase : DaemonPhase)
  | other (own : Bool)
  deriving DecidableEq, Repr

structure PidFile where
  inode : ℕ
  text : List Char
  deriving DecidableEq, Repr

/-- `cpip daemon …`. -/
inductive DaemonCommand where
  | start
  | status
  | stop
  deriving DecidableEq, Repr

/-- What a command does next: read the file, which was there, send a signal to the process, remove
the file, or go on with the answer of `is_running`. -/
inductive CommandStage where
  | reading
  | asking (pid : ℕ)
  | unlinking
  | answered (running : Bool)
  deriving DecidableEq, Repr

structure RunningCommand where
  command : DaemonCommand
  stage : CommandStage
  deriving DecidableEq, Repr

/-- The processes that are alive, the PID file, the commands under way, and the number of the next
file that is created. -/
structure PidSystem where
  processes : Dict ℕ ProcessRole
  file : Option PidFile
  inodes : ℕ
  commands : Dict ℕ RunningCommand
  deriving DecidableEq

/-- What happens next.  A command or a daemon goes on with its next step, or comes to an end; `pid`
is the number that a process gets. -/
inductive PidAct where
  | begin (id : ℕ) (command : DaemonCommand)
  | goOn (id : ℕ)
  | popen (id pid : ℕ)
  | abandon (id : ℕ)
  | proceed (pid : ℕ)
  | stopRaises (pid : ℕ)
  | terminate (pid : ℕ)
  | fork (pid : ℕ) (own : Bool)
  | exits (pid : ℕ)
  deriving DecidableEq, Repr

/-! ## What the steps do -/

/-- `int(pid_file.read_text().strip())` of a text that daemons wrote. -/
def readPid (text : List Char) : Option ℕ :=
  if text ≠ [] ∧ text.all Char.isDigit then some (Nat.ofDigitChars 10 text 0) else none

namespace ProcessRole

/-- `os.kill` does not raise. -/
def own : ProcessRole → Bool
  | daemon _ => true
  | other own => own

/-- A daemon between its creation and its signal handlers. -/
def starting : ProcessRole → Bool
  | daemon .spawned | daemon (.opened _) | daemon .written => true
  | _ => false

/-- A daemon that nobody has stopped. -/
def active : ProcessRole → Bool
  | daemon .serving => true
  | r => r.starting

/-- A daemon with a call of `stop` that has yet to remove the file. -/
def pending : ProcessRole → Bool
  | daemon (.stopping (_ + 1)) => true
  | _ => false

end ProcessRole

namespace PidSystem

def init : PidSystem := ⟨∅, none, 0, ∅⟩

variable (s : PidSystem)

/-- `os.kill(pid, 0)` does not raise. -/
def canSignal (pid : ℕ) : Bool := (s.processes.get? pid).any ProcessRole.own

/-- `SIGTERM` for a process.  A daemon calls `stop` as soon as it has its handlers, and ends before
that.  What another process does is up to it. -/
def terminate (pid : ℕ) : PidSystem :=
  match s.processes.get? pid with
  | some (.daemon .serving) =>
    { s with processes := s.processes.set pid (.daemon (.stopping 1)) }
  | some (.daemon (.stopping n)) =>
    { s with processes := s.processes.set pid (.daemon (.stopping (n + 1))) }
  | some (.daemon _) => { s with processes := s.processes.pop pid }
  | _ => s

def finish (id : ℕ) : PidSystem := { s with commands := s.commands.pop id }

def moveTo (id : ℕ) (c : DaemonCommand) (stage : CommandStage) : PidSystem :=
  { s with commands := s.commands.set id ⟨c, stage⟩ }

/-- A command up to `pid_file.exists()`. -/
def begins (id : ℕ) (c : DaemonCommand) : PidSystem :=
  match s.file with
  | some _ => s.moveTo id c .reading
  | none => if c = .stop then s else s.moveTo id c (.answered false)

/-- The next step of a command, but for `Popen`. -/
def goesOn (id : ℕ) (c : DaemonCommand) : CommandStage → PidSystem
  | .reading =>
    match s.file.bind fun f => readPid f.text with
    | some pid => s.moveTo id c (.asking pid)
    | none => if c = .stop then s.finish id else s.moveTo id c .unlinking
  | .asking pid =>
    if c = .stop then (if s.canSignal pid then s.terminate pid else s).finish id
    else if s.canSignal pid then s.moveTo id c (.answered true)
    else s.moveTo id c .unlinking
  | .unlinking => { s with file := none }.moveTo id c (.answered false)
  | .answered _ => s.finish id

/-- The next step of a daemon: `_write_pid`, its handlers, or the end of a call of `stop`. -/
def proceeds (pid : ℕ) : DaemonPhase → Option PidSystem
  | .spawned =>
    match s.file with
    | some f =>
      some { s with file := some { f with text := [] },
                    processes := s.processes.set pid (.daemon (.opened f.inode)) }
    | none =>
      some { s with file := some ⟨s.inodes, []⟩, inodes := s.inodes + 1,
                    processes := s.processes.set pid (.daemon (.opened s.inodes)) }
  | .opened inode =>
    -- a file that was removed in between keeps what is written, but nobody finds it
    some { s with
      file := s.file.map fun f =>
        if f.inode = inode then
          { f with text := Nat.toDigits 10 pid ++ f.text.drop (Nat.toDigits 10 pid).length }
        else f
      processes := s.processes.set pid (.daemon .written) }
  | .written => some { s with processes := s.processes.set pid (.daemon .serving) }
  | .stopping (n + 1) =>
    some { s with file := none, processes := s.processes.set pid (.daemon (.stopping n)) }
  | _ => none

/-- The number of a new process. -/
def Free (pid : ℕ) : Prop := 0 < pid ∧ s.processes.get? pid = none

instance (pid : ℕ) : Decidable (s.Free pid) := inferInstanceAs (Decidable (_ ∧ _))

def step : PidAct → Option PidSystem
  | .begin id c => if s.commands.get? id = none then some (s.begins id c) else none
  | .goOn id =>
    match s.commands.get? id with
    | some ⟨.start, .answered false⟩ => none
    | some ⟨c, stage⟩ => some (s.goesOn id c stage)
    | none => none
  | .popen id pid =>
    if s.commands.get? id = some ⟨.start, .answered false⟩ ∧ s.Free pid then
      some { s.finish id with processes := s.processes.set pid (.daemon .spawned) }
    else none
  | .abandon id => some (s.finish id)
  | .proceed pid =>
    match s.processes.get? pid with
    | some (.daemon phase) => s.proceeds pid phase
    | _ => none
  | .stopRaises pid =>
    match s.processes.get? pid with
    | some (.daemon (.stopping (n + 1))) =>
      some { s with processes := s.processes.set pid (.daemon (.stopping n)) }
    | _ => none
  | .terminate pid => some (s.terminate pid)
  | .fork pid own =>
    if s.Free pid then some { s with processes := s.processes.set pid (.other own) } else none
  | .exits pid => some { s with processes := s.processes.pop pid }

/-! ## When commands are given -/

/-- A `start` is under way, up to the handlers of the new daemon. -/
def starts : Bool :=
  (s.processes.entries.any fun e => e.2.starting) ||
    s.commands.entries.any fun e => e.2.command == .start

/-- A command is under way, or a call of `stop`. -/
def busy : Bool :=
  !s.commands.entries.isEmpty || s.processes.entries.any fun e => e.2.pending

/-- A `start` is given when nothing else is under way, and nothing else as long as it is.  Signals
from elsewhere reach daemons that serve. -/
def Apart : PidAct → Prop
  | .begin _ .start => s.starts = false ∧ s.busy = false
  | .begin _ _ => s.starts = false
  | .terminate pid => s.starts = false ∧ s.processes.get? pid = some (.daemon .serving)
  | _ => True

instance decidableApart : (a : PidAct) → Decidable (s.Apart a)
  | .begin _ .start => inferInstanceAs (Decidable (_ ∧ _))
  | .begin _ .status => inferInstanceAs (Decidable (s.starts = false))
  | .begin _ .stop => inferInstanceAs (Decidable (s.starts = false))
  | .terminate _ => inferInstanceAs (Decidable (_ ∧ _))
  | .goOn _ | .popen _ _ | .abandon _ | .proceed _ | .stopRaises _ | .fork _ _ | .exits _ =>
    .isTrue trivial

/-! ## What holds between the processes, the commands and the file -/

/-- The file has the number of the process. -/
def Names (pid : ℕ) : Prop := ∃ n, s.file = some ⟨n, Nat.toDigits 10 pid⟩

structure Orderly : Prop where
  one : ∀ p q r r', s.processes.get? p = some r → s.processes.get? q = some r' → r.active →
    r'.active → p = q
  spawned : ∀ p, s.processes.get? p = some (.daemon .spawned) → s.file = none
  opened : ∀ p n, s.processes.get? p = some (.daemon (.opened n)) → s.file = some ⟨n, []⟩
  written : ∀ p, s.processes.get? p = some (.daemon .written) → s.Names p
  serving : ∀ p, s.processes.get? p = some (.daemon .serving) → s.Names p
  /-- no command is under way while a daemon starts -/
  alone : ∀ p r k c, s.processes.get? p = some r → r.starting → s.commands.get? k ≠ some c
  pending : ∀ p q r r', s.processes.get? p = some r → r.pending → s.processes.get? q = some r' →
    r'.active = false
  /-- a `start` is alone, and no call of `stop` is under way -/
  exclusive : ∀ k k' stage c, s.commands.get? k = some ⟨.start, stage⟩ →
    s.commands.get? k' = some c → k = k'
  quiet : ∀ k stage p r, s.commands.get? k = some ⟨.start, stage⟩ → s.processes.get? p = some r →
    r.pending = false
  asking : ∀ k c x p r, s.commands.get? k = some ⟨c, .asking x⟩ → s.processes.get? p = some r →
    r.active → p = x
  unlinking : ∀ k c p r, s.commands.get? k = some ⟨c, .unlinking⟩ → s.processes.get? p = some r →
    r.active = false
  answered : ∀ k c p r, s.commands.get? k = some ⟨c, .answered false⟩ →
    s.processes.get? p = some r → r.active = false
  free : ∀ k, s.commands.get? k = some ⟨.start, .answered false⟩ → s.file = none

theorem orderly_init : init.Orderly := by
  constructor <;> intros <;> simp_all [init]

variable {s}

theorem readPid_toDigits (pid : ℕ) : readPid (Nat.toDigits 10 pid) = some pid := by
  have digits : (Nat.toDigits 10 pid).all Char.isDigit := by
    rw [List.all_eq_true]
    exact fun c mem => Nat.isDigit_of_mem_toDigits (by decide) (by decide) mem
  rw [readPid, if_pos ⟨Nat.toDigits_ne_nil, digits⟩, Nat.ofDigitChars_ten_toDigits]

/-- A daemon that is active serves, or starts. -/
theorem serving_of_active {r : ProcessRole} (active : r.active) (still : r.starting = false) :
    r = .daemon .serving := by
  unfold ProcessRole.active at active
  split at active
  · rfl
  · rw [still] at active
    cases active

theorem exists_start_of_starts : s.starts = true ↔
    (∃ p r, s.processes.get? p = some r ∧ r.starting) ∨
      ∃ k stage, s.commands.get? k = some ⟨.start, stage⟩ := by
  unfold starts
  rw [Bool.or_eq_true, List.any_eq_true, List.any_eq_true]
  constructor
  · rintro (⟨e, mem, starting⟩ | ⟨⟨k, c, stage⟩, mem, same⟩)
    · exact .inl ⟨e.1, e.2, (Dict.get?_eq_some_iff _ _ _).2 mem, starting⟩
    · obtain rfl : c = .start := by simpa using same
      exact .inr ⟨k, stage, (Dict.get?_eq_some_iff _ _ _).2 mem⟩
  · rintro (⟨p, r, found, starting⟩ | ⟨k, stage, found⟩)
    · exact .inl ⟨_, (Dict.get?_eq_some_iff _ _ _).1 found, starting⟩
    · exact .inr ⟨_, (Dict.get?_eq_some_iff _ _ _).1 found, rfl⟩

theorem not_starting (idle : s.starts = false) :
    (∀ p r, s.processes.get? p = some r → r.starting = false) ∧
      ∀ k stage, s.commands.get? k ≠ some ⟨.start, stage⟩ := by
  have idle := mt exists_start_of_starts.2 (Bool.eq_false_iff.1 idle)
  rw [not_or] at idle
  constructor
  · intro p r found
    rw [Bool.eq_false_iff]
    exact fun starting => idle.1 ⟨p, r, found, starting⟩
  · exact fun k stage found => idle.2 ⟨k, stage, found⟩

theorem not_busy (h : s.busy = false) : (∀ k c, s.commands.get? k ≠ some c) ∧
    ∀ p r, s.processes.get? p = some r → r.pending = false := by
  unfold busy at h
  rw [Bool.or_eq_false_iff, Bool.not_eq_false', List.isEmpty_iff, List.any_eq_false] at h
  constructor
  · intro k c found
    have mem := (Dict.get?_eq_some_iff _ _ _).1 found
    rw [h.1] at mem
    cases mem
  · intro p r found
    simpa using h.2 _ ((Dict.get?_eq_some_iff _ _ _).1 found)

theorem active_of_starting {r : ProcessRole} (starting : r.starting) : r.active := by
  unfold ProcessRole.active
  split
  · rfl
  · exact starting

theorem pending_of_active {r : ProcessRole} (active : r.active) : r.pending = false := by
  unfold ProcessRole.pending
  split
  · cases active
  · rfl

/-- Processes end, or become inactive; what waits for the end of a call of `stop` is alone. -/
theorem orderly_inactive (h : s.Orderly) {processes : Dict ℕ ProcessRole}
    (before : ∀ p r, processes.get? p = some r → s.processes.get? p = some r ∨
      r.active = false ∧ (r.pending → (∀ q r', processes.get? q = some r' → r'.active = false) ∧
        ∀ k stage, s.commands.get? k ≠ some ⟨.start, stage⟩)) :
    Orderly { s with processes } := by
  have back (p : ℕ) (r : ProcessRole) (found : processes.get? p = some r) (active : r.active) :
      s.processes.get? p = some r := by
    rcases before p r found with old | ⟨inactive, -⟩
    · exact old
    · rw [active] at inactive
      cases inactive
  have inactive (no : ∀ p r, s.processes.get? p = some r → r.active = false) (p : ℕ)
      (r : ProcessRole) (found : processes.get? p = some r) : r.active = false := by
    rw [Bool.eq_false_iff]
    intro active
    rw [no p r (back p r found active)] at active
    cases active
  constructor
  · exact fun p q r r' hp hq active active' =>
      h.one p q r r' (back p r hp active) (back q r' hq active') active active'
  · exact fun p found => h.spawned p (back p _ found rfl)
  · exact fun p n found => h.opened p n (back p _ found rfl)
  · exact fun p found => h.written p (back p _ found rfl)
  · exact fun p found => h.serving p (back p _ found rfl)
  · exact fun p r k c found starting =>
      h.alone p r k c (back p r found (active_of_starting starting)) starting
  · intro p q r r' hp pending hq
    rcases before p r hp with old | ⟨-, alone⟩
    · rw [Bool.eq_false_iff]
      intro active
      rw [h.pending p q r r' old pending (back q r' hq active)] at active
      cases active
    · exact (alone pending).1 q r' hq
  · exact h.exclusive
  · intro k stage p r under found
    rcases before p r found with old | ⟨-, alone⟩
    · exact h.quiet k stage p r under old
    · rw [Bool.eq_false_iff]
      exact fun pending => (alone pending).2 k stage under
  · exact fun k c x p r under found active =>
      h.asking k c x p r under (back p r found active) active
  · exact fun k c p r under => inactive (fun p r => h.unlinking k c p r under) p r
  · exact fun k c p r under => inactive (fun p r => h.answered k c p r under) p r
  · exact h.free

theorem orderly_exits (h : s.Orderly) (pid : ℕ) :
    Orderly { s with processes := s.processes.pop pid } :=
  orderly_inactive h fun _ _ found => .inl (Dict.get?_of_get?_pop found).1

theorem orderly_fork (h : s.Orderly) {pid : ℕ} (own : Bool) :
    Orderly { s with processes := s.processes.set pid (.other own) } := by
  refine orderly_inactive h fun p r found => ?_
  rw [Dict.get?_set] at found
  split_ifs at found
  · obtain rfl := Option.some.inj found
    exact .inr ⟨rfl, fun pending => by cases pending⟩
  · exact .inl found

/-- A daemon stops, or a call of `stop` is over, and no other daemon is active. -/
theorem orderly_stopping (h : s.Orderly) {pid n : ℕ}
    (only : ∀ p r, s.processes.get? p = some r → r.active → p = pid)
    (noStart : ∀ k stage, s.commands.get? k ≠ some ⟨.start, stage⟩) :
    Orderly { s with processes := s.processes.set pid (.daemon (.stopping n)) } := by
  refine orderly_inactive h fun p r found => ?_
  rw [Dict.get?_set] at found
  split_ifs at found
  · obtain rfl := Option.some.inj found
    refine .inr ⟨rfl, fun _ => ⟨fun q r' found' => ?_, noStart⟩⟩
    rw [Dict.get?_set] at found'
    split_ifs at found' with here
    · obtain rfl := Option.some.inj found'
      rfl
    · rw [Bool.eq_false_iff]
      exact fun active => here (only q r' found' active).symm
  · exact .inl found

/-- No `start` is under way when `SIGTERM` is sent, and it is sent to the daemon that is active, if
there is one. -/
theorem orderly_terminate (h : s.Orderly) {pid : ℕ} (idle : s.starts = false)
    (aimed : ∀ p r, s.processes.get? p = some r → r.active → p = pid) :
    (s.terminate pid).Orderly := by
  have noStart := (not_starting idle).2
  unfold terminate
  split
  · exact orderly_stopping h aimed noStart
  · exact orderly_stopping h aimed noStart
  · exact orderly_exits h pid
  · exact h

/-- A call of `stop` is over, whether or not it has removed the file. -/
theorem orderly_stopped (h : s.Orderly) {pid n : ℕ}
    (alive : s.processes.get? pid = some (.daemon (.stopping (n + 1)))) :
    Orderly { s with processes := s.processes.set pid (.daemon (.stopping n)) } := by
  refine orderly_stopping h ?_ ?_
  · intro p r found active
    rw [h.pending pid p _ r alive rfl found] at active
    cases active
  · intro k stage under
    cases h.quiet k stage pid _ under alive

/-- The file is removed when no daemon is active. -/
theorem orderly_unlink (h : s.Orderly)
    (inactive : ∀ p r, s.processes.get? p = some r → r.active = false) :
    Orderly { s with file := none } := by
  constructor
  · exact h.one
  · exact fun p _ => rfl
  · intro p n found
    cases inactive p _ found
  · intro p found
    cases inactive p _ found
  · intro p found
    cases inactive p _ found
  · exact h.alone
  · exact h.pending
  · exact h.exclusive
  · exact h.quiet
  · exact h.asking
  · exact h.unlinking
  · exact h.answered
  · exact fun _ _ => rfl

/-- A command is over. -/
theorem orderly_finish (h : s.Orderly) (id : ℕ) : (s.finish id).Orderly := by
  have back {k : ℕ} {c : RunningCommand} (under : (s.finish id).commands.get? k = some c) :
      s.commands.get? k = some c := (Dict.get?_of_get?_pop under).1
  constructor
  · exact h.one
  · exact h.spawned
  · exact h.opened
  · exact h.written
  · exact h.serving
  · exact fun p r k c found starting under => h.alone p r k c found starting (back under)
  · exact h.pending
  · exact fun k k' stage c under under' => h.exclusive k k' stage c (back under) (back under')
  · exact fun k stage p r under => h.quiet k stage p r (back under)
  · exact fun k c x p r under => h.asking k c x p r (back under)
  · exact fun k c p r under => h.unlinking k c p r (back under)
  · exact fun k c p r under => h.answered k c p r (back under)
  · exact fun k under => h.free k (back under)

/-- A command goes on, and keeps what it must have found. -/
theorem orderly_moveTo (h : s.Orderly) {id : ℕ} {c : DaemonCommand} {stage : CommandStage}
    (still : ∀ p r, s.processes.get? p = some r → r.starting = false)
    (alone : c = .start → (∀ k c', s.commands.get? k = some c' → k = id) ∧
      ∀ p r, s.processes.get? p = some r → r.pending = false)
    (others : ∀ k stage, s.commands.get? k = some ⟨.start, stage⟩ → k = id)
    (asked : ∀ x, stage = .asking x → ∀ p r, s.processes.get? p = some r → r.active → p = x)
    (unfound : stage = .unlinking ∨ stage = .answered false →
      ∀ p r, s.processes.get? p = some r → r.active = false)
    (gone : stage = .answered false → s.file = none) : (s.moveTo id c stage).Orderly := by
  have before (k : ℕ) (c' : RunningCommand)
      (under : (s.moveTo id c stage).commands.get? k = some c') :
      k = id ∧ c' = ⟨c, stage⟩ ∨ k ≠ id ∧ s.commands.get? k = some c' := by
    rw [moveTo, Dict.get?_set] at under
    split_ifs at under with here
    · exact .inl ⟨here.symm, (Option.some.inj under).symm⟩
    · exact .inr ⟨Ne.symm here, under⟩
  -- a `start` is this command
  have start (k : ℕ) (stage' : CommandStage)
      (under : (s.moveTo id c stage).commands.get? k = some ⟨.start, stage'⟩) :
      k = id ∧ c = .start ∧ stage' = stage := by
    rcases before k _ under with ⟨here, same⟩ | ⟨other, old⟩
    · obtain ⟨rfl, rfl⟩ := RunningCommand.mk.inj same
      exact ⟨here, rfl, rfl⟩
    · exact absurd (others k stage' old) other
  constructor
  · exact h.one
  · exact h.spawned
  · exact h.opened
  · exact h.written
  · exact h.serving
  · intro p r k c' found starting
    rw [still p r found] at starting
    cases starting
  · exact h.pending
  · intro k k' stage' c' under under'
    obtain ⟨rfl, same, -⟩ := start k stage' under
    rcases before k' c' under' with ⟨here, -⟩ | ⟨-, old⟩
    · exact here.symm
    · exact ((alone same).1 k' c' old).symm
  · exact fun k stage' p r under => (alone (start k stage' under).2.1).2 p r
  · intro k c' x p r under found active
    rcases before k _ under with ⟨-, same⟩ | ⟨-, old⟩
    · exact asked x (RunningCommand.mk.inj same).2.symm p r found active
    · exact h.asking k c' x p r old found active
  · intro k c' p r under
    rcases before k _ under with ⟨-, same⟩ | ⟨-, old⟩
    · exact unfound (.inl (RunningCommand.mk.inj same).2.symm) p r
    · exact h.unlinking k c' p r old
  · intro k c' p r under
    rcases before k _ under with ⟨-, same⟩ | ⟨-, old⟩
    · exact unfound (.inr (RunningCommand.mk.inj same).2.symm) p r
    · exact h.answered k c' p r old
  · exact fun k under => gone (start k _ under).2.2.symm

/-- A daemon is created, or goes on with its start. -/
theorem orderly_started {pid inodes : ℕ} {r' : ProcessRole} {file : Option PidFile}
    (active' : r'.active) (only : ∀ p r, s.processes.get? p = some r → r.active → p = pid)
    (noPending : ∀ p r, s.processes.get? p = some r → r.pending = false)
    (noCommand : ∀ k c, s.commands.get? k ≠ some c)
    (spawned : r' = .daemon .spawned → file = none)
    (opened : ∀ n, r' = .daemon (.opened n) → file = some ⟨n, []⟩)
    (named : r' = .daemon .written ∨ r' = .daemon .serving →
      ∃ n, file = some ⟨n, Nat.toDigits 10 pid⟩) :
    Orderly { s with file, inodes, processes := s.processes.set pid r' } := by
  have before (p : ℕ) (r : ProcessRole) (found : (s.processes.set pid r').get? p = some r)
      (active : r.active) : p = pid ∧ r' = r := by
    rw [Dict.get?_set] at found
    split_ifs at found with here
    · exact ⟨here.symm, Option.some.inj found⟩
    · exact absurd (only p r found active).symm here
  have working (p : ℕ) (r : ProcessRole) (found : (s.processes.set pid r').get? p = some r) :
      r.pending = false := by
    rw [Dict.get?_set] at found
    split_ifs at found
    · obtain rfl := Option.some.inj found
      exact pending_of_active active'
    · exact noPending p r found
  constructor
  · exact fun p q r r'' hp hq active active'' =>
      (before p r hp active).1.trans (before q r'' hq active'').1.symm
  · exact fun p found => spawned (before p _ found rfl).2
  · exact fun p n found => opened n (before p _ found rfl).2
  · intro p found
    obtain ⟨rfl, same⟩ := before p _ found rfl
    exact named (.inl same)
  · intro p found
    obtain ⟨rfl, same⟩ := before p _ found rfl
    exact named (.inr same)
  · exact fun _ _ k c _ _ => noCommand k c
  · intro p q r r'' found pending
    rw [working p r found] at pending
    cases pending
  · exact fun k _ _ _ under => absurd under (noCommand k _)
  · exact fun _ _ p r _ => working p r
  · exact fun k _ _ _ _ under => absurd under (noCommand k _)
  · exact fun k _ _ _ under => absurd under (noCommand k _)
  · exact fun k _ _ _ under => absurd under (noCommand k _)
  · exact fun k under => absurd under (noCommand k _)

/-- While nothing starts, a daemon that is active is the one in the file. -/
theorem Orderly.names (h : s.Orderly) {p : ℕ} {r : ProcessRole}
    (still : ∀ p r, s.processes.get? p = some r → r.starting = false)
    (found : s.processes.get? p = some r) (active : r.active) : s.Names p := by
  obtain rfl := serving_of_active active (still p r found)
  exact h.serving p found

theorem orderly_begins (h : s.Orderly) {id : ℕ} {c : DaemonCommand}
    (apart : s.Apart (.begin id c)) : (s.begins id c).Orderly := by
  have idle : s.starts = false := by
    cases c with
    | start => exact apart.1
    | status => exact apart
    | stop => exact apart
  have alone : c = .start → (∀ k c', s.commands.get? k ≠ some c') ∧
      ∀ p r, s.processes.get? p = some r → r.pending = false := by
    rintro rfl
    exact not_busy apart.2
  obtain ⟨still, noStart⟩ := not_starting idle
  have others : ∀ k stage, s.commands.get? k = some ⟨.start, stage⟩ → k = id :=
    fun k stage found => absurd found (noStart k stage)
  have alone' : c = .start → (∀ k c', s.commands.get? k = some c' → k = id) ∧
      ∀ p r, s.processes.get? p = some r → r.pending = false :=
    fun start => ⟨fun k c' found => absurd found ((alone start).1 k c'), (alone start).2⟩
  unfold begins
  split
  · exact orderly_moveTo h still alone' others (by simp) (by simp) (by simp)
  · rename_i noFile
    split_ifs with stop
    · exact h
    · refine orderly_moveTo h still alone' others (by simp) ?_ fun _ => noFile
      intro _ p r found
      rw [Bool.eq_false_iff]
      intro active
      obtain ⟨n, file⟩ := h.names still found active
      rw [noFile] at file
      cases file

theorem orderly_goesOn (h : s.Orderly) {id : ℕ} {c : DaemonCommand} {stage : CommandStage}
    (under : s.commands.get? id = some ⟨c, stage⟩) : (s.goesOn id c stage).Orderly := by
  have still : ∀ p r, s.processes.get? p = some r → r.starting = false := by
    intro p r found
    rw [Bool.eq_false_iff]
    exact fun starting => h.alone p r id _ found starting under
  have alone : c = .start → (∀ k c', s.commands.get? k = some c' → k = id) ∧
      ∀ p r, s.processes.get? p = some r → r.pending = false := by
    rintro rfl
    exact ⟨fun k c' found => (h.exclusive id k stage c' under found).symm,
      fun p r found => h.quiet id stage p r under found⟩
  have others : ∀ k stage, s.commands.get? k = some ⟨.start, stage⟩ → k = id :=
    fun k stage' found => h.exclusive k id stage' _ found under
  cases stage with
  | reading =>
    have names (p : ℕ) (r : ProcessRole) (found : s.processes.get? p = some r) (active : r.active) :
        (s.file.bind fun f => readPid f.text) = some p := by
      obtain ⟨n, file⟩ := h.names still found active
      rw [file, Option.bind_some]
      exact readPid_toDigits p
    rw [goesOn]
    split
    · rename_i x read
      refine orderly_moveTo h still alone others ?_ (by simp) (by simp)
      intro y same p r found active
      obtain rfl := CommandStage.asking.inj same
      exact Option.some.inj ((names p r found active).symm.trans read)
    · rename_i unread
      split_ifs with stop
      · exact orderly_finish h id
      · refine orderly_moveTo h still alone others (by simp) ?_ (by simp)
        intro _ p r found
        rw [Bool.eq_false_iff]
        intro active
        rw [names p r found active] at unread
        cases unread
  | asking pid =>
    have aimed := fun p r => h.asking id c pid p r under
    rw [goesOn]
    split_ifs with stop signal signal
    · have idle : s.starts = false := by
        rw [Bool.eq_false_iff]
        intro starts
        rcases exists_start_of_starts.1 starts with ⟨p, r, found, starting⟩ | ⟨k, stage, found⟩
        · rw [still p r found] at starting
          cases starting
        · obtain rfl := others k stage found
          rw [under, stop] at found
          cases found
      exact orderly_finish (orderly_terminate h idle aimed) id
    · exact orderly_finish h id
    · exact orderly_moveTo h still alone others (by simp) (by simp) (by simp)
    · refine orderly_moveTo h still alone others (by simp) ?_ (by simp)
      intro _ p r found
      rw [Bool.eq_false_iff]
      intro active
      obtain rfl := aimed p r found active
      obtain rfl := serving_of_active active (still p r found)
      exact signal (by simp [canSignal, found, ProcessRole.own])
  | unlinking =>
    have inactive := fun p r => h.unlinking id c p r under
    exact orderly_moveTo (orderly_unlink h inactive) still alone others (by simp)
      (fun _ => inactive) fun _ => rfl
  | answered running => exact orderly_finish h id

/-- `Popen`: the answer was that no daemon runs. -/
theorem orderly_popen (h : s.Orderly) {id pid : ℕ}
    (under : s.commands.get? id = some ⟨.start, .answered false⟩) :
    Orderly { s.finish id with processes := s.processes.set pid (.daemon .spawned) } := by
  have noFile := h.free id under
  have noCommand (k : ℕ) (c : RunningCommand) : (s.finish id).commands.get? k ≠ some c := by
    intro found
    obtain ⟨old, other⟩ := Dict.get?_of_get?_pop found
    exact other (h.exclusive id k _ c under old)
  refine @orderly_started (s.finish id) pid s.inodes _ s.file rfl ?_ ?_ noCommand (fun _ => noFile)
    (by simp) (by simp)
  · intro p r found active
    rw [h.answered id .start p r under found] at active
    cases active
  · exact fun p r => h.quiet id _ p r under

/-- A daemon goes on with its start: no command is under way. -/
theorem orderly_goesOnStarting (h : s.Orderly) {pid inodes : ℕ} {r r' : ProcessRole}
    {file : Option PidFile} (alive : s.processes.get? pid = some r) (starting : r.starting)
    (active' : r'.active) (later : r' ≠ .daemon .spawned)
    (opened : ∀ n, r' = .daemon (.opened n) → file = some ⟨n, []⟩)
    (named : r' = .daemon .written ∨ r' = .daemon .serving →
      ∃ n, file = some ⟨n, Nat.toDigits 10 pid⟩) :
    Orderly { s with file, inodes, processes := s.processes.set pid r' } := by
  have active := active_of_starting starting
  refine orderly_started active' ?_ ?_ (fun k c => h.alone pid r k c alive starting)
    (fun same => absurd same later) opened named
  · exact fun p r'' found active' => h.one p pid r'' r found alive active' active
  · intro p r'' found
    rw [Bool.eq_false_iff]
    intro pending
    rw [h.pending p pid r'' r found pending alive] at active
    cases active

theorem orderly_proceeds (h : s.Orderly) {pid : ℕ} {phase : DaemonPhase} {t : PidSystem}
    (alive : s.processes.get? pid = some (.daemon phase)) (next : s.proceeds pid phase = some t) :
    t.Orderly := by
  cases phase with
  | spawned =>
    have noFile := h.spawned pid alive
    rw [proceeds, noFile] at next
    obtain rfl := Option.some.inj next
    exact orderly_goesOnStarting h alive rfl rfl (by simp) (by simp) (by simp)
  | opened inode =>
    have empty := h.opened pid inode alive
    rw [proceeds, empty] at next
    obtain rfl := Option.some.inj next
    exact orderly_goesOnStarting h alive rfl rfl (by simp) (by simp) (by simp)
  | written =>
    have named := h.written pid alive
    obtain rfl := Option.some.inj next
    exact orderly_goesOnStarting h alive rfl rfl (by simp) (by simp) fun _ => named
  | serving => cases next
  | stopping calls =>
    cases calls with
    | zero => cases next
    | succ n =>
      have inactive := fun q r' => h.pending pid q _ r' alive rfl
      obtain rfl := Option.some.inj next
      exact orderly_stopped (orderly_unlink h inactive) alive

theorem orderly_step {a : PidAct} {t : PidSystem} (apart : s.Apart a) (h : s.Orderly)
    (next : s.step a = some t) : t.Orderly := by
  cases a with
  | begin id c =>
    rw [step] at next
    split_ifs at next
    obtain rfl := Option.some.inj next
    exact orderly_begins h apart
  | goOn id =>
    rw [step] at next
    split at next
    · cases next
    · rename_i c stage _ under
      obtain rfl := Option.some.inj next
      exact orderly_goesOn h under
    · cases next
  | popen id pid =>
    rw [step] at next
    split_ifs at next with under
    obtain rfl := Option.some.inj next
    exact orderly_popen h under.1
  | abandon id =>
    obtain rfl := Option.some.inj next
    exact orderly_finish h id
  | proceed pid =>
    rw [step] at next
    split at next
    · rename_i phase alive
      exact orderly_proceeds h alive next
    · cases next
  | stopRaises pid =>
    rw [step] at next
    split at next
    · rename_i n alive
      obtain rfl := Option.some.inj next
      exact orderly_stopped h alive
    · cases next
  | terminate pid =>
    obtain rfl := Option.some.inj next
    exact orderly_terminate h apart.1 fun p r found active =>
      h.one p pid r _ found apart.2 active rfl
  | fork pid own =>
    rw [step] at next
    split_ifs at next
    obtain rfl := Option.some.inj next
    exact orderly_fork h own
  | exits pid =>
    obtain rfl := Option.some.inj next
    exact orderly_exits h pid

/-- As long as each `start` is alone, at most one daemon is active, the file names the one that
serves, a command that finds no daemon is right, and one that sends a signal sends it to the daemon
that is active. -/
theorem one_daemon {acts : List PidAct} {t : PidSystem}
    (apart : Machine.Along step Apart init acts) (ran : Machine.run step init acts = some t) :
    (∀ p q r r', t.processes.get? p = some r → t.processes.get? q = some r' → r.active →
      r'.active → p = q) ∧
    (∀ p, t.processes.get? p = some (.daemon .serving) →
      ∃ f, t.file = some f ∧ readPid f.text = some p) ∧
    (∀ id c p r, t.commands.get? id = some ⟨c, .answered false⟩ → t.processes.get? p = some r →
      r.active = false) ∧
    ∀ id c x p r, t.commands.get? id = some ⟨c, .asking x⟩ → t.processes.get? p = some r →
      r.active → p = x := by
  have h : t.Orderly :=
    Machine.invariant_along (fun _ _ _ apart h => orderly_step apart h) orderly_init apart ran
  refine ⟨h.one, fun p found => ?_, h.answered, h.asking⟩
  obtain ⟨n, file⟩ := h.serving p found
  exact ⟨_, file, readPid_toDigits p⟩

/-- A daemon that is asked to stop is still there when the next one serves, and a `status` overlaps
the end of its `stop`. -/
def twoDaemons : List PidAct :=
  [.begin 0 .start, .popen 0 100, .proceed 100, .proceed 100, .proceed 100, .fork 7 false,
    .begin 1 .stop, .goOn 1, .goOn 1, .begin 2 .status, .proceed 100, .goOn 2, .goOn 2, .goOn 2,
    .begin 3 .start, .popen 3 200, .proceed 200, .proceed 200, .proceed 200]

theorem one_daemon_twoDaemons : ∃ t f, Machine.run step init twoDaemons = some t ∧
    t.processes.get? 100 = some (.daemon (.stopping 0)) ∧ t.file = some f ∧
    readPid f.text = some 200 := by
  obtain ⟨t, ran⟩ := Option.isSome_iff_exists.1
    (by decide : (Machine.run step init twoDaemons).isSome = true)
  have alive (pid : ℕ) : t.processes.get? pid =
      (Machine.run step init twoDaemons).bind fun t => t.processes.get? pid := by
    rw [ran, Option.bind_some]
  have lingers : t.processes.get? 100 = some (.daemon (.stopping 0)) := by
    rw [alive]
    decide
  have serves : t.processes.get? 200 = some (.daemon .serving) := by
    rw [alive]
    decide
  obtain ⟨f, file, read⟩ :=
    (one_daemon (by decide : Machine.Along step Apart init twoDaemons) ran).2.1 200 serves
  exact ⟨t, f, ran, lingers, file, read⟩

end PidSystem

end Cpip
