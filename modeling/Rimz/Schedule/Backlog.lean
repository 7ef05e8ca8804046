import Rimz.Ids
import Rimz.Lib.OrderedMap
import Rimz.Lib.Sort

/-!
# The backlog of a loop task

`harness/schedule/backlog.rs` and the parts of `TaskFire` in `harness/schedule/runner.rs` that move
a trigger between the backlog and the fire that serves it. A task without a record has the empty
one: `LockedBacklog::save` drops a record without triggers and without a stop mark, and every reader
treats a missing record so.
-/

namespace Rimz.Schedule
open Rimz.Lib

inductive OverlapPolicy where
  | skip
  | queue
  | coalesce
  | replace
  deriving DecidableEq

/-- `SignalRecord`. A payload value is held as its JSON text. -/
structure SignalRecord where
  name : String
  payload : Std.ExtTreeMap String String

structure WaitingTrigger where
  arrivedAt : Timestamp
  signal : Option SignalRecord
  absorbed : Nat
  fromArrivedAt : Option Timestamp

inductive StopCause where
  | replace
  | stop
  deriving DecidableEq

structure StopMark where
  pid : Nat
  startedAt : Timestamp
  cause : StopCause

structure TaskBacklog where
  triggers : List WaitingTrigger
  stopping : Option StopMark

structure RunLockInfo where
  pid : Nat
  startedAt : Timestamp

def RunLockInfo.matchesStop (info : RunLockInfo) (mark : StopMark) : Bool :=
  info.pid == mark.pid && info.startedAt == mark.startedAt

/-! ### Absorbing a trigger -/

/-- The payloads of two signals differ in `from` and `to` at most, and both have these. -/
def SignalRecord.continues (new old : SignalRecord) : Bool :=
  new.name == old.name
    && new.payload.contains "from" && new.payload.contains "to"
    && old.payload.contains "from" && old.payload.contains "to"
    && new.payload.size == old.payload.size
    && new.payload.toList.all fun (key, value) =>
      key == "from" || key == "to" || old.payload[key]? == some value

namespace WaitingTrigger

/-- The part of `absorb` behind its swap: `t` is the newer trigger. -/
def absorbOlder (t older : WaitingTrigger) : WaitingTrigger :=
  let olderFrom := older.fromArrivedAt.getD older.arrivedAt
  let t := { t with absorbed := t.absorbed + (older.absorbed + 1) }
  match t.signal, older.signal with
  | some new, some old =>
    if new.continues old && olderFrom ≤ t.fromArrivedAt.getD t.arrivedAt then
      match old.payload["from"]? with
      | some origin =>
        { t with
          signal := some { new with payload := new.payload.insert "from" origin }
          fromArrivedAt := some olderFrom }
      | none => t
    else t
  | _, _ => t

def absorb (t older : WaitingTrigger) : WaitingTrigger :=
  if older.arrivedAt > t.arrivedAt then older.absorbOlder t else t.absorbOlder older

/-- `for older in older.drain(..).rev() { trigger.absorb(older) }`. -/
def absorbAll (t : WaitingTrigger) (older : List WaitingTrigger) : WaitingTrigger :=
  older.reverse.foldl absorb t

/-- The arrivals a trigger stands for. -/
def weight (t : WaitingTrigger) : Nat := t.absorbed + 1

lemma weight_absorbOlder (t older : WaitingTrigger) :
    (t.absorbOlder older).weight = t.weight + older.weight := by
  have count : (t.absorbOlder older).absorbed = t.absorbed + (older.absorbed + 1) := by
    unfold absorbOlder
    dsimp only
    repeat' split
    all_goals rfl
  rw [weight, count, weight, weight]
  omega

@[simp] lemma weight_absorb (t older : WaitingTrigger) :
    (t.absorb older).weight = t.weight + older.weight := by
  unfold absorb
  split
  · rw [weight_absorbOlder, Nat.add_comm]
  · exact weight_absorbOlder t older

end WaitingTrigger

/-- The arrivals a list of triggers stands for. -/
def weights (ts : List WaitingTrigger) : Nat := (ts.map WaitingTrigger.weight).sum

@[simp] lemma weights_nil : weights [] = 0 := rfl

@[simp] lemma weights_cons {t ts} : weights (t :: ts) = t.weight + weights ts := by simp [weights]

@[simp] lemma weights_append {ts us} :
    weights (ts ++ us) = weights ts + weights us := by simp [weights]

lemma weights_perm {ts us} (h : ts.Perm us) : weights ts = weights us :=
  (h.map _).sum_nat

@[simp] lemma WaitingTrigger.weight_absorbAll (t : WaitingTrigger) (older : List WaitingTrigger) :
    (t.absorbAll older).weight = t.weight + weights older := by
  have fold : ∀ (us : List WaitingTrigger) (t : WaitingTrigger),
      (us.foldl absorb t).weight = t.weight + weights us := by
    intro us
    induction us with
    | nil => simp
    | cons u us ih =>
      intro t
      rw [foldl_cons, ih, weight_absorb, weights_cons, Nat.add_assoc]
  rw [absorbAll, fold, weights_perm older.reverse_perm]

/-! ### Entering the backlog -/

namespace TaskBacklog

/-- `push_back` and `sort_by_key`. -/
def push (b : TaskBacklog) (t : WaitingTrigger) : TaskBacklog :=
  { b with triggers := sortByKey WaitingTrigger.arrivedAt (b.triggers ++ [t]) }

/-- `TaskBacklog::enqueue`. No limit stands for `usize::MAX`, which is above the length of every
`VecDeque`. -/
def enqueue (b : TaskBacklog) (policy : OverlapPolicy) (limit : Option Nat) (t : WaitingTrigger) :
    Bool × TaskBacklog :=
  match policy with
  | .skip => (false, b)
  | .queue =>
    if limit.any (b.triggers.length ≥ ·) then (false, b) else (true, b.push t)
  | .coalesce | .replace => (true, { b with triggers := [] }.push (t.absorbAll b.triggers))

/-- The backlog is in arrival order. -/
def InOrder (b : TaskBacklog) : Prop := b.triggers.Pairwise (·.arrivedAt ≤ ·.arrivedAt)

lemma weights_push (b : TaskBacklog) (t : WaitingTrigger) :
    weights (b.push t).triggers = weights b.triggers + t.weight := by
  rw [push, weights_perm sortByKey_perm]
  simp

lemma push_ne_nil (b : TaskBacklog) (t : WaitingTrigger) : (b.push t).triggers ≠ [] := by
  intro h
  have len := congrArg List.length h
  rw [push, sortByKey_perm.length_eq] at len
  simp at len

variable {b b' : TaskBacklog} {policy : OverlapPolicy} {limit : Option Nat} {t : WaitingTrigger}

lemma enqueue_refused (h : b.enqueue policy limit t = (false, b')) : b' = b := by
  unfold enqueue at h
  cases policy with
  | skip => cases h; rfl
  | queue =>
    dsimp only at h
    split at h
    · cases h; rfl
    · cases h
  | coalesce | replace => cases h

section
variable (h : b.enqueue policy limit t = (true, b'))
include h

lemma enqueue_accepted :
    ∃ base pushed, b' = base.push pushed
      ∧ weights base.triggers + pushed.weight = weights b.triggers + t.weight
      ∧ (policy = .queue → base = b ∧ pushed = t) := by
  unfold enqueue at h
  cases policy with
  | skip => cases h
  | queue =>
    dsimp only at h
    split at h
    · cases h
    · cases h
      exact ⟨b, t, rfl, rfl, fun _ => ⟨rfl, rfl⟩⟩
  | coalesce | replace =>
    cases h
    exact ⟨_, _, rfl, by simp [Nat.add_comm], nofun⟩

lemma enqueue_weights :
    weights b'.triggers = weights b.triggers + t.weight := by
  obtain ⟨base, pushed, rfl, count, -⟩ := enqueue_accepted h
  rw [weights_push, count]

lemma enqueue_inOrder : b'.InOrder := by
  obtain ⟨base, pushed, rfl, -⟩ := enqueue_accepted h
  exact pairwise_sortByKey

lemma enqueue_ne_nil : b'.triggers ≠ [] := by
  obtain ⟨base, pushed, rfl, -⟩ := enqueue_accepted h
  exact push_ne_nil base pushed

end

lemma enqueue_filter (h : b.enqueue .queue limit t = (true, b')) {at_} :
    b'.triggers.filter (·.arrivedAt = at_)
      = b.triggers.filter (·.arrivedAt = at_) ++ [t].filter (·.arrivedAt = at_) := by
  obtain ⟨base, pushed, rfl, -, same⟩ := enqueue_accepted h
  obtain ⟨rfl, rfl⟩ := same rfl
  rw [push, filter_sortByKey, filter_append]

lemma enqueue_unlimited (hp : policy ≠ .skip) : (b.enqueue policy none t).1 = true := by
  cases policy with
  | skip => exact absurd rfl hp
  | queue | coalesce | replace => rfl

end TaskBacklog
end Rimz.Schedule
