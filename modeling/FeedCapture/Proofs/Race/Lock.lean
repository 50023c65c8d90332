import FeedCapture.Proofs.Supervisor.Reachable
import FeedCapture.Supervisor.Race

/-!
# What the lock keeps apart

However calls of start and of stop race: as long as the flag is not set, the bus has its own sender
and no call of stop has done anything; a call of start that holds the lock holds it alone, and the
flag is not set before it lets go.  So one call starts the workers, in the order of the sources, and
it never finds the bus closed.

## Main definitions

* `Race.Quiet` — nothing of a stop has happened before the flag is set
* `Race.Course` — how far the starting of the workers has got, and which call does it

The main statements are `Race.quiet_of_run?` and `Race.course_of_run?`.
-/

namespace FeedCapture.Race

open Entries

variable {r t : Race} {a : Act} {acts : List Act}

/-! ## What the sections leave alone -/

namespace Stopping

variable {s s' : Supervisor} {call call' : Stopping}

/-- What no section of a call of stop changes. -/
theorem Goes.frame (h : Goes s call s' call') :
    s'.sources = s.sources ∧ s'.started = s.started ∧ s'.fleet.workers = s.fleet.workers ∧
      s'.fleet.spareSender = s.fleet.spareSender := by
  cases h with
  | joins ended =>
    refine ⟨?_, by simp, by simp, by simp⟩
    unfold Supervisor.noteJoin
    split <;> rfl
  | finishes =>
    unfold Supervisor.finishStop
    exact ⟨rfl, rfl, rfl, rfl⟩
  | _ => exact ⟨rfl, rfl, rfl, rfl⟩

/-- Once the flag is set, it stays set. -/
theorem Goes.stopped (h : Goes s call s' call') (stopped : s.stopped = true) :
    s'.stopped = true := by
  cases h with
  | flags => rfl
  | joins ended => simpa using stopped
  | finishes => exact stopped
  | _ => exact stopped

/-- A call that is given up changes nothing but the bus. -/
theorem Drops.frame (h : Drops s call s' call') :
    s'.sources = s.sources ∧ s'.started = s.started ∧ s'.stopped = s.stopped ∧
      s'.unjoined = s.unjoined ∧ s'.fleet.workers = s.fleet.workers ∧
      s'.fleet.spareSender = s.fleet.spareSender := by
  cases h <;> exact ⟨rfl, rfl, rfl, rfl, rfl, rfl⟩

end Stopping

namespace Starting

variable {s s' : Supervisor} {call call' : Starting}

/-- What no section of a call of start changes. -/
theorem Goes.frame (h : Goes s call s' call') :
    s'.sources = s.sources ∧ s'.stopped = s.stopped ∧ s'.fleet.hub = s.fleet.hub ∧
      s'.fleet.past = s.fleet.past := by
  cases h <;> exact ⟨rfl, rfl, rfl, rfl⟩

end Starting

/-- What the workers, the receiver and the clock leave alone. -/
theorem framed_of_ofFleet? {own : Fleet.Act} {fleet : Fleet} (kind : a.ofFleet? = some own)
    (act : r.fleet.act? own = some fleet) : Fleet.Framed r.fleet fleet := by
  cases a with
  | step slot =>
    cases kind
    exact Fleet.framed_stepWorker? act
  | receive =>
    cases kind
    exact Fleet.framed_receive act
  | pass time =>
    cases kind
    simp only [Fleet.act?, Option.ite_none_right_eq_some, Option.some.injEq] at act
    obtain ⟨-, rfl⟩ := act
    exact ⟨rfl, rfl, rfl⟩
  | _ => cases kind

/-! ## Before the flag is set -/

/-- Nothing of a stop has happened before the flag is set. -/
structure Quiet (r : Race) : Prop where
  sender : r.supervisor.stopped = false → r.fleet.hub.bus.ownSender = true
  waiting : r.supervisor.stopped = false → ∀ c ∈ r.stops, c = .fresh ∨ c = .unused

theorem Quiet.act (h : r.Quiet) (ht : r.act? a = some t) : t.Quiet := by
  cases change_of_act? ht with
  | started => exact ⟨h.sender, h.waiting⟩
  | stopped =>
    refine ⟨h.sender, fun unstopped c hc => ?_⟩
    rcases List.mem_append.1 hc with hc | hc
    · exact h.waiting unstopped c hc
    · exact .inl (List.mem_singleton.1 hc)
  | start made free goes =>
    obtain ⟨-, stopped, hub, -⟩ := goes.frame
    refine ⟨fun unstopped => ?_, fun unstopped => h.waiting (stopped ▸ unstopped)⟩
    show Bus.ownSender _ = true
    rw [fleet, hub]
    exact h.sender (stopped ▸ unstopped)
  | @stop n call next s made free goes =>
    -- a call that goes on has set the flag or found it set
    have stopped : s.stopped = true := by
      cases flag : r.supervisor.stopped with
      | true => exact goes.stopped flag
      | false =>
        rcases h.waiting flag call (List.mem_of_getElem? made) with rfl | rfl
        · cases goes with
          | follows stopped => exact stopped
          | flags => rfl
        · cases goes
    refine ⟨fun c => ?_, fun c => ?_⟩ <;> simp [stopped] at c
  | @giveUp n call next s made drops =>
    obtain ⟨-, -, stopped, -⟩ := drops.frame
    cases flag : r.supervisor.stopped with
    | true => refine ⟨fun c => ?_, fun c => ?_⟩ <;> simp [stopped, flag] at c
    | false =>
      rcases h.waiting flag call (List.mem_of_getElem? made) with rfl | rfl
      · cases drops
        refine ⟨h.sender, fun unstopped c hc => ?_⟩
        rcases List.mem_or_eq_of_mem_set hc with hc | rfl
        · exact h.waiting unstopped c hc
        · exact .inr rfl
      · cases drops
  | fleet kind act =>
    have frame := framed_of_ofFleet? kind act
    exact ⟨fun unstopped => frame.own.trans (h.sender unstopped), h.waiting⟩

/-- Nothing of a stop has happened before the flag is set. -/
theorem quiet_of_run? {sources : List String} {policy : Policy} {network : Network}
    {counting : Bool} {supervisor : Supervisor}
    (created : Supervisor.create sources policy network counting = .ok supervisor)
    (ran : run? { supervisor } acts = some t) : t.Quiet := by
  refine induction_of_run? (P := fun _ r => r.Quiet) ?_ (fun _ h act => h.act act) ran
  obtain ⟨-, -, rfl⟩ := Supervisor.create_eq_ok created
  exact ⟨fun _ => rfl, fun _ _ h => absurd h List.not_mem_nil⟩

/-! ## Who holds the lock -/

namespace Starting

variable {starts : List Starting} {n : Nat} {next : Starting}

/-- No call holds the lock. -/
def Free (starts : List Starting) : Prop := ∀ c ∈ starts, c.holds = false

/-- No call but one holds the lock. -/
def Only (n : Nat) (starts : List Starting) : Prop :=
  ∀ m c, starts[m]? = some c → c.holds = true → m = n

theorem Free.append (h : Free starts) : Free (starts ++ [.fresh]) := by
  intro c hc
  rcases List.mem_append.1 hc with hc | hc
  · exact h c hc
  · rw [List.mem_singleton.1 hc]
    rfl

theorem Free.set (h : Free starts) (n : Nat) (none : next.holds = false) :
    Free (starts.set n next) := by
  intro c hc
  rcases List.mem_or_eq_of_mem_set hc with hc | rfl
  · exact h c hc
  · exact none

/-- When no call holds the lock, the one that takes it holds it alone. -/
theorem Free.only (h : Free starts) (n : Nat) (next : Starting) : Only n (starts.set n next) := by
  intro m c hc holds
  rcases cases_of_getElem?_set hc with ⟨same, -⟩ | ⟨-, hc⟩
  · exact same
  · rw [h c (List.mem_of_getElem? hc)] at holds
    cases holds

theorem Only.append (h : Only n starts) : Only n (starts ++ [.fresh]) := by
  intro m c hc holds
  rcases cases_of_getElem?_concat hc with hc | rfl
  · exact h m c hc holds
  · cases holds

theorem Only.set (h : Only n starts) (next : Starting) : Only n (starts.set n next) := by
  intro m c hc holds
  rcases cases_of_getElem?_set hc with ⟨same, -⟩ | ⟨-, hc⟩
  · exact same
  · exact h m c hc holds

/-- When the call that holds the lock lets go of it, no call holds it. -/
theorem Only.free (h : Only n starts) (none : next.holds = false) : Free (starts.set n next) := by
  intro c hc
  obtain ⟨m, hc⟩ := List.getElem?_of_mem hc
  rcases cases_of_getElem?_set hc with ⟨-, rfl⟩ | ⟨other, hc⟩
  · exact none
  · exact Bool.eq_false_iff.2 fun holds => other (h m c hc holds)

end Starting

theorem locked_eq_false_iff : r.locked = false ↔ Starting.Free r.starts := by
  simp [locked, Starting.Free]

/-! ## How the workers are started -/

/-- How far the starting of the workers has got, where each entry of `spawned` is the call that
started one of them. -/
inductive Course (r : Race) (spawned : List Nat) : Prop where
  /-- Nobody has begun. -/
  | idle (unstarted : r.supervisor.started = false) (free : Starting.Free r.starts)
      (count : r.fleet.workers.length = 0) (spare : r.fleet.spareSender = false)
      (by_call : spawned = [])
  | entered {n : Nat} (started : r.supervisor.started = true)
      (unstopped : r.supervisor.stopped = false) (holder : r.starts[n]? = some .entered)
      (alone : Starting.Only n r.starts) (count : r.fleet.workers.length = 0)
      (spare : r.fleet.spareSender = false) (by_call : spawned = [])
  | spawning {n slot : Nat} (started : r.supervisor.started = true)
      (unstopped : r.supervisor.stopped = false) (holder : r.starts[n]? = some (.spawning slot))
      (alone : Starting.Only n r.starts) (count : r.fleet.workers.length = slot)
      (few : slot ≤ r.supervisor.sources.length) (by_call : spawned = List.replicate slot n)
  /-- All workers were started. -/
  | returned {n : Nat} (started : r.supervisor.started = true) (free : Starting.Free r.starts)
      (count : r.fleet.workers.length = r.supervisor.sources.length)
      (spare : r.fleet.spareSender = false)
      (by_call : spawned = List.replicate r.supervisor.sources.length n)

namespace Course

variable {spawned : List Nat}

/-- What concerns neither the calls of start nor the number of workers changes nothing.  The flag
may be set, but only while no call of start holds the lock. -/
theorem congr (h : Course r spawned) (starts : t.starts = r.starts)
    (sources : t.supervisor.sources = r.supervisor.sources)
    (started : t.supervisor.started = r.supervisor.started)
    (count : t.fleet.workers.length = r.fleet.workers.length)
    (spare : t.fleet.spareSender = r.fleet.spareSender)
    (flag : t.supervisor.stopped = r.supervisor.stopped ∨ Starting.Free r.starts) :
    Course t spawned := by
  have unstopped : ∀ {n : Nat} {c : Starting}, r.starts[n]? = some c → c.holds = true →
      r.supervisor.stopped = false → t.supervisor.stopped = false := by
    intro n c holder holds unstopped
    rcases flag with same | free
    · exact same.trans unstopped
    · rw [free c (List.mem_of_getElem? holder)] at holds
      cases holds
  cases h with
  | idle unstarted free none spare' nobody =>
    exact .idle (started.trans unstarted) (starts ▸ free) (count.trans none) (spare.trans spare')
      nobody
  | entered started' unstopped' holder alone none spare' nobody =>
    exact .entered (started.trans started') (unstopped holder rfl unstopped') (starts ▸ holder)
      (starts ▸ alone) (count.trans none) (spare.trans spare') nobody
  | spawning started' unstopped' holder alone many few by_call =>
    exact .spawning (started.trans started') (unstopped holder rfl unstopped') (starts ▸ holder)
      (starts ▸ alone) (count.trans many) (sources ▸ few) by_call
  | returned started' free all spare' by_call =>
    exact .returned (started.trans started') (starts ▸ free) (by rw [count, all, sources])
      (spare.trans spare') (by rw [by_call, sources])

/-- Another call of start is made. -/
theorem called (h : Course r spawned) :
    Course { r with starts := r.starts ++ [.fresh] } spawned := by
  have kept : ∀ {n : Nat} {c : Starting}, r.starts[n]? = some c →
      (r.starts ++ [.fresh])[n]? = some c := by
    intro n c holder
    rw [List.getElem?_append_left (List.getElem?_eq_some_iff.1 holder).1, holder]
  cases h with
  | idle unstarted free none spare nobody => exact .idle unstarted free.append none spare nobody
  | entered started unstopped holder alone none spare nobody =>
    exact .entered started unstopped (kept holder) alone.append none spare nobody
  | spawning started unstopped holder alone many few by_call =>
    exact .spawning started unstopped (kept holder) alone.append many few by_call
  | returned started free all spare by_call => exact .returned started free.append all spare by_call

/-- While no call holds the lock, nobody has begun or all workers were started. -/
theorem of_free (h : Course r spawned) (free : Starting.Free r.starts) :
    r.fleet.spareSender = false ∧
      (r.supervisor.started = false ∧ r.fleet.workers.length = 0 ∧ spawned = [] ∨
        r.supervisor.started = true ∧
          r.fleet.workers.length = r.supervisor.sources.length ∧
          ∃ n, spawned = List.replicate r.supervisor.sources.length n) := by
  cases h with
  | idle unstarted _ none spare nobody => exact ⟨spare, .inl ⟨unstarted, none, nobody⟩⟩
  | entered started unstopped holder =>
    exact absurd (free _ (List.mem_of_getElem? holder)) (by simp [Starting.holds])
  | spawning started unstopped holder =>
    exact absurd (free _ (List.mem_of_getElem? holder)) (by simp [Starting.holds])
  | returned started _ all spare by_call => exact ⟨spare, .inr ⟨started, all, _, by_call⟩⟩

/-- The call that has entered holds the lock alone, and nothing was started. -/
theorem of_entered (h : Course r spawned) {n : Nat} (made : r.starts[n]? = some .entered) :
    r.supervisor.started = true ∧ r.supervisor.stopped = false ∧ Starting.Only n r.starts ∧
      r.fleet.workers.length = 0 ∧ spawned = [] := by
  have mem := List.mem_of_getElem? made
  cases h with
  | idle _ free => exact absurd (free _ mem) (by simp [Starting.holds])
  | entered started unstopped holder alone none spare nobody =>
    obtain rfl := alone n _ made rfl
    exact ⟨started, unstopped, alone, none, nobody⟩
  | spawning started unstopped holder alone =>
    obtain rfl := alone n _ made rfl
    rw [made] at holder
    cases holder
  | returned _ free => exact absurd (free _ mem) (by simp [Starting.holds])

/-- The call that starts the workers holds the lock alone, and it has started all that there are. -/
theorem of_spawning (h : Course r spawned) {n slot : Nat}
    (made : r.starts[n]? = some (.spawning slot)) :
    r.supervisor.started = true ∧ r.supervisor.stopped = false ∧ Starting.Only n r.starts ∧
      r.fleet.workers.length = slot ∧ slot ≤ r.supervisor.sources.length ∧
      spawned = List.replicate slot n := by
  have mem := List.mem_of_getElem? made
  cases h with
  | idle _ free => exact absurd (free _ mem) (by simp [Starting.holds])
  | entered started unstopped holder alone =>
    obtain rfl := alone n _ made rfl
    rw [made] at holder
    cases holder
  | spawning started unstopped holder alone many few by_call =>
    obtain rfl := alone n _ made rfl
    rw [made] at holder
    cases holder
    exact ⟨started, unstopped, alone, many, few, by_call⟩
  | returned _ free => exact absurd (free _ mem) (by simp [Starting.holds])

/-- A call of start that finds the flag or the start made does nothing. -/
theorem ignored (h : Course r spawned) (free : Starting.Free r.starts) (n : Nat)
    (e : Supervisor.Event) :
    Course { r with supervisor := r.supervisor.note e, starts := r.starts.set n .returned }
      spawned := by
  obtain ⟨spare, ⟨unstarted, none, nobody⟩ | ⟨started, all, by_call, same⟩⟩ := h.of_free free
  · exact .idle unstarted (free.set n rfl) none spare nobody
  · exact .returned started (free.set n rfl) all spare same

/-- The next section of a call of start. -/
theorem goStart (h : Course r spawned) (quiet : r.Quiet) {n : Nat} {call next : Starting}
    {s : Supervisor} (made : r.starts[n]? = some call)
    (free : call = .fresh → r.locked = false) (goes : call.Goes r.supervisor s next) :
    Course { r with supervisor := s, starts := r.starts.set n next }
      (spawned ++ r.spawns (.goStart n)) := by
  have holder : (r.starts.set n next)[n]? = some next := getElem?_set_of_some made next
  cases goes with
  | tooLate stopped =>
    simpa [spawns, made] using h.ignored (locked_eq_false_iff.1 (free rfl)) n .alreadyStopped
  | again unstopped started =>
    simpa [spawns, made] using h.ignored (locked_eq_false_iff.1 (free rfl)) n .alreadyStarted
  | enters unstopped unstarted =>
    have free := locked_eq_false_iff.1 (free rfl)
    obtain ⟨spare, ⟨-, none, nobody⟩ | ⟨started, -⟩⟩ := h.of_free free
    · exact .entered rfl unstopped holder (free.only n _) none spare
        (by simp [spawns, made, nobody])
    · rw [unstarted] at started
      cases started
  | refused closed =>
    -- the flag is not set while the call holds the lock, so the bus has its own sender
    obtain ⟨-, unstopped, -⟩ := h.of_entered made
    rw [quiet.sender unstopped] at closed
    cases closed
  | equips own =>
    obtain ⟨started, unstopped, alone, none, nobody⟩ := h.of_entered made
    exact .spawning started unstopped holder (alone.set _) none (Nat.zero_le _)
      (by simp [spawns, made, nobody])
  | @spawns slot addr source =>
    obtain ⟨started, unstopped, alone, count, -, by_call⟩ := h.of_spawning made
    have few : slot < r.supervisor.sources.length := (List.getElem?_eq_some_iff.1 source).1
    refine .spawning started unstopped holder (alone.set _) ?_ few ?_
    · simp [Fleet.spawnNext, count]
    · simp [spawns, made, few, by_call, List.replicate_succ']
  | @leaves slot done =>
    obtain ⟨started, unstopped, alone, count, few, by_call⟩ := h.of_spawning made
    have all : slot = r.supervisor.sources.length :=
      Nat.le_antisymm few (List.getElem?_eq_none_iff.1 done)
    refine .returned (n := n) started (alone.free rfl) (count.trans all) rfl ?_
    simp [spawns, made, all, by_call, Supervisor.note]

/-- Whatever happens, one call starts the workers. -/
theorem act (h : Course r spawned) (quiet : r.Quiet) (ht : r.act? a = some t) :
    Course t (spawned ++ r.spawns a) := by
  cases change_of_act? ht with
  | started =>
    rw [show r.spawns .start = [] from rfl, List.append_nil]
    exact h.called
  | stopped =>
    rw [show r.spawns .stop = [] from rfl, List.append_nil]
    exact h.congr rfl rfl rfl rfl rfl (.inl rfl)
  | start made free goes => exact h.goStart quiet made free goes
  | @stop n call next s made free goes =>
    have ⟨sources, started, workers, spare⟩ := goes.frame
    rw [show r.spawns (.goStop n) = [] from rfl, List.append_nil]
    refine h.congr rfl sources started (congrArg _ workers) spare ?_
    cases goes with
    | flags unstopped => exact .inr (locked_eq_false_iff.1 (free rfl))
    | joins ended => exact .inl (by simp)
    | finishes => exact .inl rfl
    | _ => exact .inl rfl
  | @giveUp n call next s made drops =>
    have ⟨sources, started, stopped, _, workers, spare⟩ := drops.frame
    rw [show r.spawns (.giveUp n) = [] from rfl, List.append_nil]
    exact h.congr rfl sources started (congrArg _ workers) spare (.inl stopped)
  | fleet kind act =>
    have frame := framed_of_ofFleet? kind act
    have none : r.spawns a = [] := by cases a <;> first | rfl | cases kind
    rw [none, List.append_nil]
    exact h.congr rfl rfl rfl frame.length frame.spare (.inl rfl)

end Course

/-- One call starts the workers, whatever races with it. -/
theorem course_of_run? {sources : List String} {policy : Policy} {network : Network}
    {counting : Bool} {supervisor : Supervisor}
    (created : Supervisor.create sources policy network counting = .ok supervisor)
    (ran : run? { supervisor } acts = some t) :
    Course t (spawners { supervisor } acts) := by
  refine induction_of_run? (P := fun xs r => Course r (spawners { supervisor } xs)) ?_
    (fun {xs a r u} before h act => ?_) ran
  · obtain ⟨-, -, rfl⟩ := Supervisor.create_eq_ok created
    exact .idle rfl (fun _ h => absurd h List.not_mem_nil) rfl rfl rfl
  · rw [spawners, trace_concat spawns before]
    exact h.act (quiet_of_run? created before) act

end FeedCapture.Race
