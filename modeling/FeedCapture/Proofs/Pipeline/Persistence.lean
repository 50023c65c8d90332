import FeedCapture.Proofs.Files.Stock
import FeedCapture.Proofs.Pipeline.Parts

/-!
# What is captured is persisted

When the call of stop and the consumer of a capture are over, the records in the day files are the
messages that the workers put on the bus (`persists_of_run`).

## Main definitions

* `Pipeline.records` — the records that the consumer has written
* `Pipeline.Persisting` — what holds while the consumer writes
-/

namespace FeedCapture.Pipeline

open DayFiles

/-- The records that the consumer has written, as bytes and time of receipt. -/
def records (p : Pipeline) : List (Bytes × Int) := p.written.map fun m => (m.data, m.timestamp)

/-- No operation on the day files has failed. -/
def Clean (p : Pipeline) : Prop := ∀ e ∈ p.past, e.2.failed = false

variable {s₀ : DayFiles} {p q : Pipeline}

/-- The consumer's history only grows. -/
theorem past_suffix_of_act? {a : Act} (h : p.act? a = some q) : p.past <:+ q.past := by
  cases change_of_act? h with
  | write => exact List.suffix_cons _ _
  | tick => exact List.suffix_cons _ _
  | finish => exact List.suffix_append _ _
  | _ => exact List.suffix_refl _

theorem past_suffix_of_run? {acts : List Act} (ran : p.run? acts = some q) : p.past <:+ q.past := by
  induction acts generalizing p with
  | nil => cases ran; exact List.suffix_refl _
  | cons a acts ih =>
    obtain ⟨p', hp, ran⟩ := Option.bind_eq_some_iff.1 ran
    exact (past_suffix_of_act? hp).trans (ih ran)

theorem Clean.of_suffix (clean : q.Clean) (h : p.past <:+ q.past) : p.Clean :=
  fun e he => clean e (h.mem he)

/-- What is filed stays filed. -/
theorem filings_subset_of_suffix (h : p.past <:+ q.past) :
    ∀ f ∈ filings none p.records, f ∈ filings none q.records := by
  obtain ⟨new, h⟩ := h
  intro f hf
  have more : q.records = p.records ++
      (new.reverse.filterMap fun e => e.2.message?).map fun m => (m.data, m.timestamp) := by
    simp [records, written, ← h]
  rw [more, filings_append]
  exact List.mem_append_left _ hf

/-- What holds while the consumer writes: `s₀` are the day files before. -/
structure Persisting (s₀ : DayFiles) (p : Pipeline) : Prop where
  count : p.drain.written = .ofNat p.written.length
  filed : p.result = none → Filed s₀ p.files p.records
  closed : ∀ r, p.result = some r →
    r = .ok (p.written.length % UInt64.size) ∧ p.hand = none ∧ p.fleet.atEnd = true ∧
      Closed s₀ p.files p.records

/-- Closing the day files writes nothing. -/
theorem written_finished (p : Pipeline) : p.finished.written = p.written := by
  simp [finished, written, Drain.closeStep, Drain.Event.message?]

namespace Persisting

/-- What the workers, the clock and the call of stop do. -/
theorem withLive (h : Persisting s₀ p) {live : Live}
    (silent : p.fleet.atEnd = true → live.fleet.atEnd = true) :
    Persisting s₀ { p with live } where
  count := h.count
  filed := h.filed
  closed r hr := by
    obtain ⟨written, hand, ended, rest⟩ := h.closed r hr
    exact ⟨written, hand, silent ended, rest⟩

/-- A message that is written is filed. -/
theorem wrote (h : Persisting s₀ p) (going : p.result = none) (m : Message)
    (clean : Clean ({ p with hand := none }.after
      (Drain.writeStep DayFiles.sink p.drain p.now m))) :
    Persisting s₀ ({ p with hand := none }.after
      (Drain.writeStep DayFiles.sink p.drain p.now m)) := by
  have more : ({ p with hand := none }.after
      (Drain.writeStep DayFiles.sink p.drain p.now m)).written = p.written ++ [m] := by
    rw [written_after]
    rfl
  have ok : Drain.succeeded (p.files.writeDespite none m.data m.timestamp).2.1 = true := by
    have failed : (!Drain.succeeded (p.files.writeDespite none m.data m.timestamp).2.1) = false :=
      clean _ (List.mem_cons_self ..)
    simpa using failed
  rcases hw : p.files.writeDespite none m.data m.timestamp with ⟨files, result, notices⟩
  rw [hw] at ok
  cases result with
  | error e => cases ok
  | ok u =>
    have filed := (h.filed going).write hw
    have file : ({ p with hand := none }.after
        (Drain.writeStep DayFiles.sink p.drain p.now m)).files = files :=
      congrArg Prod.fst hw
    refine ⟨?_, fun _ => ?_, fun r hr => ?_⟩
    · rw [more, List.length_append, UInt64.ofNat_add, ← h.count]
      show (if Drain.succeeded (p.files.writeDespite none m.data m.timestamp).2.1
        then p.drain.written + 1 else p.drain.written) = _
      rw [hw]
      rfl
    · rw [file, records, more, List.map_append]
      exact filed
    · have hr : p.result = some r := hr
      rw [going] at hr
      cases hr

/-- Whatever happens, what is written is filed. -/
theorem act {a : Act} (h : Persisting s₀ p) (hq : p.act? a = some q) (clean : q.Clean)
    (fresh : ∀ f ∈ filings none q.records, s₀.archived f.1 = []) : Persisting s₀ q := by
  obtain ⟨acts, -, fleet, -⟩ := exists_run?_of_act? hq
  have silent : p.fleet.atEnd = true → q.fleet.atEnd = true := fun silent =>
    Fleet.atEnd_of_run? silent fleet
  have before := fun f hf => fresh f (filings_subset_of_suffix (past_suffix_of_act? hq) f hf)
  cases change_of_act? hq with
  | step => exact h.withLive silent
  | pass => exact h.withLive silent
  | shutDown => exact h.withLive silent
  | poll => exact h.withLive silent
  | receive empty going received =>
    refine ⟨h.count, h.filed, fun r hr => ?_⟩
    have hr : p.result = some r := hr
    rw [going] at hr
    cases hr
  | @write m hand =>
    have going : p.result = none := by
      cases hr : p.result with
      | none => rfl
      | some r =>
        have none := (h.closed r hr).2.1
        rw [hand] at none
        cases none
    exact h.wrote going m clean
  | tick going =>
    have same : (p.after (Drain.flushStep DayFiles.sink { p.drain with now := p.now })).written =
        p.written := by
      rw [written_after]
      exact List.append_nil _
    refine ⟨by rw [same]; exact h.count, fun _ => ?_, fun r hr => ?_⟩
    · rw [records, same]
      exact (h.filed going).flush
    · have hr : p.result = some r := hr
      rw [going] at hr
      cases hr
  | compress pending =>
    refine ⟨h.count, fun going => (h.filed going).compressFile before pending, fun r hr => ?_⟩
    have none := (h.closed r hr).2.2.2.settled
    rw [none] at pending
    cases pending
  | finish empty going ended =>
    refine ⟨?_, fun c => (by cases c), fun r hr => ?_⟩
    · rw [written_finished]
      exact h.count
    · cases hr
      refine ⟨?_, empty, ended, ?_⟩
      · show Except.ok p.drain.written.toNat = _
        rw [written_finished, h.count]
        rfl
      · rw [records, written_finished]
        exact (h.filed going).close before

end Persisting

/-! ## From the start -/

/-- What holds in every state that a capture can reach. -/
structure Audited (s : Settings) (p : Pipeline) : Prop where
  accounted : Fleet.Accounted s.capture.policy p.fleet p.taken
  counted : Fleet.Counted s.capture.sources p.fleet
  receiving : p.fleet.hub.bus.receiving = true

variable {s : Settings} {network : Network} {epoch : Int} {tree : FileTree} {start : Pipeline}

theorem audited_start (h : start? s network epoch tree = some start) :
    s.capture.policy.check = .ok () ∧ start.Audited s := by
  unfold start? at h
  split at h
  · next supervisor ticker created _ =>
    cases h
    obtain ⟨valid, built, rfl⟩ := Supervisor.create_eq_ok created
    have account := Fleet.accounted_create built s.capture.policy network true false
      s.capture.sources
    refine ⟨valid, ?_, Fleet.counted_spawn rfl rfl rfl _, rfl⟩
    show Fleet.Accounted s.capture.policy _ ([] ++ [])
    exact account.withHub _ rfl (Nat.le_refl _) List.nil_prefix (fun _ => rfl) fun _ => rfl
  · cases h

theorem persisting_start (h : start? s network epoch tree = some start) :
    Persisting start.files start := by
  unfold start? at h
  split at h
  · cases h
    exact ⟨rfl, fun _ => Filed.new rfl rfl, fun r hr => by cases hr⟩
  · cases h

theorem Audited.run {acts : List Act} (h : p.Audited s) (valid : s.capture.policy.check = .ok ())
    (ran : p.run? acts = some q) : q.Audited s := by
  obtain ⟨acts, keep, fleet, taken⟩ := exists_run?_of_run? ran
  have pos := Nat.pos_of_ne_zero (s.capture.policy.check_eq_ok_iff.1 valid).1
  refine ⟨?_, h.counted.run fleet, ?_⟩
  · rw [taken]
    exact h.accounted.run pos fleet
  · rw [Fleet.receiving_of_run? keep fleet]
    exact h.receiving

theorem Persisting.run {acts : List Act} (h : Persisting s₀ p)
    (ran : p.run? acts = some q) (clean : q.Clean)
    (fresh : ∀ f ∈ filings none q.records, s₀.archived f.1 = []) : Persisting s₀ q := by
  induction acts generalizing p with
  | nil => cases ran; exact h
  | cons a acts ih =>
    obtain ⟨p', hp, ran⟩ := Option.bind_eq_some_iff.1 ran
    have later := past_suffix_of_run? ran
    exact ih (h.act hp (clean.of_suffix later)
      fun f hf => fresh f (filings_subset_of_suffix later f hf)) ran

/-- What is on the bus stays on the bus. -/
theorem delivered_prefix_of_run? {acts : List Act} (ran : p.run? acts = some q) :
    p.fleet.delivered <+: q.fleet.delivered := by
  obtain ⟨acts, -, fleet, -⟩ := exists_run?_of_run? ran
  obtain ⟨new, past⟩ := Fleet.past_suffix_of_run? fleet
  rw [Fleet.delivered, Fleet.delivered, Fleet.history, Fleet.history, ← past,
    List.reverse_append, List.filterMap_append]
  exact List.prefix_append _ _

/-- **What is captured is persisted.**  Let the consumer of a capture come to its end, in any run
and without a failure of the day files, where nothing was archived before for the days that are
written.  Then the consumer has written the messages that the workers put on the bus, each once and
in that order; it reports their number, and this is what the counters of messages add up to, each
counter being the number of messages of its source, all of them up to the 64 bits of a counter.
Nothing is queued any more, and what was received or queued at any moment of the run is among the
messages.  Each day holds what it held before, and then the lines of the messages that were filed
under it, in order. -/
theorem persists_of_run {acts : List Act} {r : Except DayFiles.Failure Nat}
    (started : start? s network epoch tree = some start) (ran : start.run? acts = some p)
    (finished : p.result = some r) (clean : p.Clean)
    (fresh : ∀ f ∈ filings none p.records, start.files.archived f.1 = []) :
    p.written = p.fleet.delivered.map Prod.snd ∧
      r = .ok (p.written.length % UInt64.size) ∧
      p.fleet.atEnd = true ∧
      (∀ before after q, acts = before ++ after → start.run? before = some q →
        q.taken ++ q.fleet.hub.bus.queue <+: p.written) ∧
      (∀ source, p.fleet.hub.metrics.messages.get source =
        (p.written.countP fun m => m.source = source) % UInt64.size) ∧
      (s.capture.sources.dedup.map p.fleet.hub.metrics.messages.get).sum % UInt64.size =
        p.written.length % UInt64.size ∧
      (p.written.length < UInt64.size → r = .ok p.written.length ∧
        (s.capture.sources.dedup.map p.fleet.hub.metrics.messages.get).sum = p.written.length) ∧
      p.files.directory = start.files.directory ∧ p.files.filePrefix = start.files.filePrefix ∧
      ∀ date, p.files.holds date =
        start.files.holds date ++ linesOf date (filings none p.records) := by
  obtain ⟨valid, audited⟩ := audited_start started
  obtain ⟨rfl, hand, ended, closed⟩ :=
    ((persisting_start started).run ran clean fresh).closed r finished
  have after := audited.run valid ran
  have all : p.written = p.fleet.delivered.map Prod.snd := by
    have queue := after.accounted.queue after.receiving
    have empty : p.fleet.hub.bus.queue = [] := by
      simp only [Fleet.atEnd, Bool.and_eq_true, List.isEmpty_iff] at ended
      exact ended.1
    simpa [taken, hand, empty] using queue
  have tally : p.fleet.hub.metrics.messages = Series.tally {} p.written := by
    rw [all]
    exact after.counted.tally
  have known : ∀ m ∈ p.written, m.source ∈ s.capture.sources := by
    intro m hm
    rw [all] at hm
    exact after.counted.known m hm
  refine ⟨all, rfl, ended, ?_, ?_, ?_, ?_, closed.directory, closed.filePrefix, closed.holds⟩
  · rintro before rest q rfl reached
    have rest : q.run? rest = some p := by
      rw [run?_append, reached] at ran
      exact ran
    have there := audited.run valid reached
    rw [there.accounted.queue there.receiving, all]
    exact (delivered_prefix_of_run? rest).map _
  · intro source
    rw [tally, Series.get_tally_new]
  · rw [tally]
    exact Series.sum_get_tally_mod known
  · intro few
    rw [Nat.mod_eq_of_lt few, tally]
    exact ⟨rfl, Series.sum_get_tally known few⟩

/-- One source. -/
def midnight : Settings where
  capture := { sources := ["feed:1"] }

/-- The peer sends one message in the last millisecond of a day and one in the next. -/
def midnightNetwork : Network :=
  ⟨[("feed:1",
    [.settles 0 (.connected [(0, .sends [65]), (Duration.millis 1, .sends [66, 10])] none)])]⟩

/-- The shutdown signal comes while the first message is received and not written, and the second
one is queued; the file of the first day is compressed when the call of stop is over. -/
def midnightActs : List Act :=
  [.step 0, .step 0, .step 0, .receive, .pass (Duration.millis 1), .step 0, .shutDown, .write,
    .tick, .receive, .write, .step 0, .step 0, .poll, .compress "data/tracking-1970-01-01.log",
    .finish]

/-- Both messages are in the files of their days. -/
theorem persists_of_run_midnight :
    ∃ start p r, start? midnight midnightNetwork 86399999 {} = some start ∧
      start.run? midnightActs = some p ∧ p.result = some r ∧ p.Clean ∧
      (∀ f ∈ filings none p.records, start.files.archived f.1 = []) ∧
      p.written = p.fleet.delivered.map Prod.snd ∧ r = .ok 2 ∧
      p.files.tree.entries =
        [(["data", "tracking-1970-01-02.log"], .file [66, 10]),
          (["data", "tracking-1970-01-01.log.lz4"], .archive [65, 10]), (["data"], .directory)] := by
  have new : (start? midnight midnightNetwork 86399999 {}).map (fun start => start.files.tree) =
      some {} := by decide +kernel
  have outcome : ((start? midnight midnightNetwork 86399999 {}).bind (run? · midnightActs)).map
      (fun p => (p.result.isSome && p.past.all fun e => !e.2.failed, p.written.length,
        p.files.tree.entries)) =
      some (true, 2,
        [(["data", "tracking-1970-01-02.log"], .file [66, 10]),
          (["data", "tracking-1970-01-01.log.lz4"], .archive [65, 10]),
          (["data"], .directory)]) := by decide +kernel
  obtain ⟨p, outcome, facts⟩ := Option.map_eq_some_iff.1 outcome
  obtain ⟨start, started, ran⟩ := Option.bind_eq_some_iff.1 outcome
  simp only [started, Option.map_some, Option.some.injEq] at new
  simp only [Prod.mk.injEq, Bool.and_eq_true] at facts
  obtain ⟨⟨isSome, quiet⟩, two, entries⟩ := facts
  obtain ⟨r, finished⟩ := Option.isSome_iff_exists.1 isSome
  have clean : p.Clean := fun e he => by simpa using List.all_eq_true.1 quiet e he
  have fresh : ∀ f ∈ filings none p.records, start.files.archived f.1 = [] := by
    intro f _
    rw [archived, new, FileTree.contentOf_empty]
  have persists := persists_of_run started ran finished clean fresh
  have count : r = .ok 2 := by
    rw [persists.2.1, two]
    rfl
  exact ⟨start, p, r, started, ran, finished, clean, fresh, persists.1, count, entries⟩

end FeedCapture.Pipeline
