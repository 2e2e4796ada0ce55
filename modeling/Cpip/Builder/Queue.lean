import Mathlib.Algebra.Order.Ring.Rat
import Mathlib.Algebra.Order.Ring.Int
import Cpip.Lib.Dict
import Cpip.Lib.Machine
import Cpip.Lib.StableSort
import Cpip.Shared.Models

/-!
# The build queue (`builder/queue.py`)

The queue is a list of tuples that every push sorts by priority and time, and the requests in it are
objects whose priority `fail` changes.  The tuples are snapshots, and the sort is stable, so a pop
serves the smallest priority first and within a priority the request that was queued first.
-/

namespace Cpip

namespace Builder

/-- A tuple of `_queue`. -/
structure Entry where
  priority : ℤ
  timestamp : ℚ
  request : ℕ
  deriving DecidableEq

/-- The order of the sort key `(x[0], x[1])`. -/
def Entry.Le (a b : Entry) : Prop :=
  a.priority < b.priority ∨ a.priority = b.priority ∧ a.timestamp ≤ b.timestamp

instance : DecidableRel Entry.Le := fun a b =>
  inferInstanceAs (Decidable (a.priority < b.priority ∨
    a.priority = b.priority ∧ a.timestamp ≤ b.timestamp))

instance : Std.Total Entry.Le where
  total a b := by
    unfold Entry.Le
    rcases lt_trichotomy a.priority b.priority with less | same | more
    · exact .inl (.inl less)
    · exact (le_total a.timestamp b.timestamp).imp (fun h => .inr ⟨same, h⟩)
        fun h => .inr ⟨same.symm, h⟩
    · exact .inr (.inl more)

instance : IsTrans Entry Entry.Le where
  trans a b c := by
    rintro (less | ⟨same, early⟩) (less' | ⟨same', early'⟩)
    · exact .inl (less.trans less')
    · exact .inl (same' ▸ less)
    · exact .inl (same ▸ less')
    · exact .inr ⟨same.trans same', early.trans early'⟩

/-- `BuildQueue`, with the request objects that it points to. -/
structure BuildQueue where
  requests : ℕ → BuildRequest
  queue : List Entry
  processing : Dict String ℕ

namespace BuildQueue

def init (requests : ℕ → BuildRequest) : BuildQueue := ⟨requests, [], ∅⟩

def push (q : BuildQueue) (r : ℕ) (now : ℚ) : BuildQueue :=
  { q with
    queue := (q.queue ++ [Entry.mk (q.requests r).priority now r]).insertionSort Entry.Le }

def pop (q : BuildQueue) : Option ℕ × BuildQueue :=
  match q.queue with
  | [] => (none, q)
  | e :: rest =>
    (some e.request,
      { q with
        queue := rest
        processing := q.processing.set (q.requests e.request).requestId e.request })

def complete (q : BuildQueue) (requestId : String) : BuildQueue :=
  { q with processing := q.processing.pop requestId }

/-- `req.priority = min(req.priority + 1, 10)`. -/
def demote (requests : ℕ → BuildRequest) (r : ℕ) : ℕ → BuildRequest :=
  Function.update requests r { requests r with priority := min ((requests r).priority + 1) 10 }

/-- The part of `fail` before the push. -/
def release (q : BuildQueue) (requestId : String) (r : ℕ) : BuildQueue :=
  { q with requests := demote q.requests r, processing := q.processing.pop requestId }

def fail (q : BuildQueue) (requestId : String) (now : ℚ) : BuildQueue :=
  match q.processing.get? requestId with
  | none => q
  | some r => (q.release requestId r).push r now

end BuildQueue

/-! ## Runs -/

/-- A place in the queue: its number among all that were given out, and the tuple. -/
structure Ticket where
  number : ℕ
  entry : Entry
  deriving DecidableEq

/-- A queue with the clock, how often a request was queued, and the requests that wait, in the order
in which they were queued. -/
structure Run where
  queue : BuildQueue
  now : ℚ
  count : ℕ
  waiting : List Ticket

inductive Event where
  | push (r : ℕ) (now : ℚ)
  | pop
  | complete (requestId : String)
  | fail (requestId : String) (now : ℚ)

namespace Run

def init (requests : ℕ → BuildRequest) (now : ℚ) : Run := ⟨.init requests, now, 0, []⟩

/-- A request is queued. -/
def enter (s : Run) (q : BuildQueue) (r : ℕ) (now : ℚ) : Run where
  queue := q.push r now
  now := now
  count := s.count + 1
  waiting := s.waiting ++ [⟨s.count, (q.requests r).priority, now, r⟩]

/-- A pop; of equal tuples, the one that was queued first leaves. -/
def pop (s : Run) : Run :=
  { s with
    queue := s.queue.pop.2
    waiting :=
      match s.queue.queue with
      | [] => s.waiting
      | e :: _ => s.waiting.eraseP fun t => t.entry = e }

end Run

/-- One call, when the clock does not go back. -/
def step (s : Run) : Event → Option Run
  | .push r now => if s.now ≤ now then some (s.enter s.queue r now) else none
  | .pop => some s.pop
  | .complete requestId => some { s with queue := s.queue.complete requestId }
  | .fail requestId now =>
    if s.now ≤ now then
      match s.queue.processing.get? requestId with
      | none => some { s with now := now }
      | some r => some (s.enter (s.queue.release requestId r) r now)
    else none

/-- The list of tuples is the list of those that wait, sorted. -/
structure Ordered (s : Run) : Prop where
  sorted : s.queue.queue = (s.waiting.map Ticket.entry).insertionSort Entry.Le
  numbers : s.waiting.Pairwise fun t t' => t.number < t'.number
  times : s.waiting.Pairwise fun t t' => t.entry.timestamp ≤ t'.entry.timestamp
  past : ∀ t ∈ s.waiting, t.number < s.count ∧ t.entry.timestamp ≤ s.now

theorem ordered_init (requests : ℕ → BuildRequest) (now : ℚ) : Ordered (Run.init requests now) where
  sorted := rfl
  numbers := List.Pairwise.nil
  times := List.Pairwise.nil
  past := nofun

variable {s s' : Run}

theorem Ordered.enter (h : Ordered s) {q : BuildQueue} (hq : q.queue = s.queue.queue) (r : ℕ)
    {now : ℚ} (clock : s.now ≤ now) : Ordered (s.enter q r now) where
  sorted := by
    show (q.queue ++ _).insertionSort Entry.Le = _
    rw [hq, h.sorted, StableSort.insertionSort_insertionSort_append, Run.enter, List.map_append]
    rfl
  numbers := List.pairwise_append.2 ⟨h.numbers, List.pairwise_singleton _ _, by
    simpa using fun t ht => (h.past t ht).1⟩
  times := List.pairwise_append.2 ⟨h.times, List.pairwise_singleton _ _, by
    simpa using fun t ht => (h.past t ht).2.trans clock⟩
  past t ht := by
    rcases List.mem_append.1 ht with ht | ht
    · obtain ⟨number, time⟩ := h.past t ht
      exact ⟨number.trans (Nat.lt_succ_self _), time.trans clock⟩
    · obtain rfl := List.mem_singleton.1 ht
      exact ⟨Nat.lt_succ_self _, le_rfl⟩

/-- What the first tuple is among those that wait, and what a pop leaves. -/
theorem Ordered.split (h : Ordered s) {e : Entry} {rest : List Entry}
    (hqueue : s.queue.queue = e :: rest) : ∃ t before after, s.waiting = before ++ t :: after ∧
      s.pop.waiting = before ++ after ∧ t.entry = e ∧
      (∀ t' ∈ before, ¬ t'.entry.Le t.entry) ∧ (∀ t' ∈ after, t.entry.Le t'.entry) ∧
      rest = ((before ++ after).map Ticket.entry).insertionSort Entry.Le := by
  obtain ⟨before, after, hsplit, hbefore, hafter, hrest⟩ :=
    StableSort.split_of_insertionSort_eq_cons (h.sorted.symm.trans hqueue)
  obtain ⟨before, waiting, hwaiting, rfl, hmap⟩ := List.map_eq_append_iff.1 hsplit
  obtain ⟨t, after, rfl, rfl, rfl⟩ := List.map_eq_cons_iff.1 hmap
  rw [List.forall_mem_map] at hbefore hafter
  refine ⟨t, before, after, hwaiting, ?_, rfl, hbefore, hafter, by rw [hrest, List.map_append]⟩
  show (match s.queue.queue with | [] => _ | e :: _ => _) = _
  rw [hqueue, hwaiting]
  -- a tuple before the one that is served is not equal to it
  have other : ∀ t' ∈ before, ¬ (decide (t'.entry = t.entry) = true) := fun t' ht' same =>
    hbefore t' ht' (of_decide_eq_true same ▸ .inr ⟨rfl, le_rfl⟩)
  show List.eraseP (fun t' => decide (t'.entry = t.entry)) (before ++ t :: after) = _
  rw [List.eraseP_append_right _ other]
  exact congrArg (before ++ ·) (List.eraseP_cons_of_pos (decide_eq_true rfl))

theorem Ordered.pop (h : Ordered s) : Ordered s.pop := by
  cases hqueue : s.queue.queue with
  | nil =>
    have same : s.pop = s := by
      unfold Run.pop BuildQueue.pop
      rw [hqueue]
    rw [same]
    exact h
  | cons e rest =>
    obtain ⟨t, before, after, hwaiting, hpop, -, -, -, hrest⟩ := h.split hqueue
    have queue : s.pop.queue.queue = rest := by
      unfold Run.pop BuildQueue.pop
      rw [hqueue]
    have sublist : (before ++ after).Sublist s.waiting := by
      rw [hwaiting]
      exact (List.sublist_cons_self t after).append_left before
    exact ⟨by rw [queue, hpop, hrest], hpop ▸ h.numbers.sublist sublist,
      hpop ▸ h.times.sublist sublist, fun t ht => h.past t (sublist.subset (hpop ▸ ht))⟩

theorem Ordered.step {e : Event} (h : Ordered s) (hs : step s e = some s') : Ordered s' := by
  unfold Builder.step at hs
  cases e with
  | push r now =>
    simp only [Option.ite_none_right_eq_some] at hs
    obtain rfl := Option.some.inj hs.2
    exact h.enter rfl r hs.1
  | pop =>
    obtain rfl := Option.some.inj hs
    exact h.pop
  | complete requestId =>
    obtain rfl := Option.some.inj hs
    exact ⟨h.sorted, h.numbers, h.times, h.past⟩
  | fail requestId now =>
    simp only [Option.ite_none_right_eq_some] at hs
    obtain ⟨clock, hs⟩ := hs
    cases hget : s.queue.processing.get? requestId with
    | none =>
      rw [hget] at hs
      obtain rfl := Option.some.inj hs
      exact ⟨h.sorted, h.numbers, h.times, fun t ht =>
        ⟨(h.past t ht).1, (h.past t ht).2.trans clock⟩⟩
    | some r =>
      rw [hget] at hs
      obtain rfl := Option.some.inj hs
      exact h.enter (q := s.queue.release requestId r) rfl r clock

/-- A pop returns, of the requests that wait, one of the smallest priority, and of these the one
that was queued first. -/
theorem pop_serves_first (requests : ℕ → BuildRequest) (start : ℚ) (events : List Event) (s : Run)
    (ran : Machine.run step (Run.init requests start) events = some s) :
    (s.queue.pop.1 = none ↔ s.waiting = []) ∧
      ∀ r, s.queue.pop.1 = some r → ∃ t before after, s.waiting = before ++ t :: after ∧
        s.pop.waiting = before ++ after ∧ t.entry.request = r ∧
        ∀ t' ∈ s.waiting, t.entry.priority ≤ t'.entry.priority ∧
          (t'.entry.priority = t.entry.priority → t.number ≤ t'.number) := by
  have h : Ordered s := Machine.invariant_run (fun _ _ _ h hs => h.step hs)
    (ordered_init requests start) ran
  cases hqueue : s.queue.queue with
  | nil =>
    have empty : s.waiting = [] := by
      have length := congrArg List.length h.sorted
      rw [hqueue, List.length_insertionSort, List.length_map] at length
      exact List.length_eq_zero_iff.1 length.symm
    have nothing : s.queue.pop.1 = none := by
      unfold BuildQueue.pop
      rw [hqueue]
    refine ⟨⟨fun _ => empty, fun _ => nothing⟩, fun r hr => ?_⟩
    rw [nothing] at hr
    cases hr
  | cons e rest =>
    obtain ⟨t, before, after, hwaiting, hpop, rfl, hbefore, hafter, -⟩ := h.split hqueue
    have served : s.queue.pop.1 = some t.entry.request := by
      unfold BuildQueue.pop
      rw [hqueue]
    constructor
    · simp [served, hwaiting]
    intro r hr
    refine ⟨t, before, after, hwaiting, hpop, Option.some.inj (served.symm.trans hr), ?_⟩
    have numbers := h.numbers
    have times := h.times
    rw [hwaiting, List.pairwise_append, List.pairwise_cons] at numbers times
    intro t' ht'
    rw [hwaiting, List.mem_append, List.mem_cons] at ht'
    rcases ht' with ht' | rfl | ht'
    · -- it was queued earlier, so it has a larger priority value
      have early := times.2.2 t' ht' t (List.mem_cons_self ..)
      have larger : t.entry.priority < t'.entry.priority := by
        by_contra not
        refine hbefore t' ht' ((lt_or_eq_of_le (not_lt.1 not)).imp_right fun same => ?_)
        exact ⟨same, early⟩
      exact ⟨larger.le, fun same => absurd same larger.ne'⟩
    · exact ⟨le_rfl, fun _ => le_rfl⟩
    · have number := numbers.2.1.1 t' ht'
      exact ⟨(hafter t' ht').elim le_of_lt fun same => same.1.le, fun _ => number.le⟩

/-- Requests for one package. -/
def numpy (r : ℕ) : BuildRequest := ⟨toString r, "numpy", "latest", "aarch64", "3.11", 5⟩

/-- Two requests that are queued at the same time; the first fails once and is queued again. -/
def twice : List Event := [.push 0 1, .push 1 1, .pop, .fail "0" 2]

theorem pop_serves_first_twice :
    ∃ s, Machine.run step (Run.init numpy 0) twice = some s ∧
      ∃ t before after, s.waiting = before ++ t :: after ∧ s.pop.waiting = before ++ after ∧
        t.entry.request = 1 ∧ ∀ t' ∈ s.waiting, t.entry.priority ≤ t'.entry.priority ∧
          (t'.entry.priority = t.entry.priority → t.number ≤ t'.number) :=
  ⟨_, rfl, (pop_serves_first numpy 0 twice _ rfl).2 1 (by decide +kernel)⟩

end Builder

end Cpip
