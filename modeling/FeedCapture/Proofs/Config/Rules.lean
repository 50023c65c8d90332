import FeedCapture.Config.Layer
import FeedCapture.Drain
import FeedCapture.Supervisor
import Mathlib.Algebra.Group.Nat.Defs

/-!
# Settings that keep their rules

The rules for settings, as the facts that they stand for, and what they are good for: settings that
were accepted describe a policy that workers can obey, a bus that can be built, and timers that can
run.

## Main definitions

* `Settings.Obeys`, with one such structure for each section — the rules as facts
* `Settings.Accepted` — settings that were loaded, or changed and looked at again

The main statements say that no rule is broken exactly when these facts hold
(`Settings.violations_eq_nil_iff`), and that a capture can be started with accepted settings
(`Settings.startable_of_accepted`).
-/

namespace FeedCapture

/-! ## The rules as facts -/

namespace Settings

@[simp] theorem require_eq_nil_iff {field : String} {rule : Rule} {kept : Bool} :
    require field rule kept = [] ↔ kept = true := by
  cases kept <;> simp [require]

@[simp] theorem within_iff {low high n : Nat} : within low high n = true ↔ low ≤ n ∧ n ≤ high := by
  simp [within]

end Settings

/-- The rules for the capture section. -/
structure CaptureSettings.Obeys (s : CaptureSettings) : Prop where
  sources : SourceAddress.allValid s.sources = true
  busCapacity : 1 ≤ s.busCapacity ∧ s.busCapacity ≤ 1048576
  reconnectDelay : 1 ≤ s.reconnectDelay ∧ s.reconnectDelay ≤ 3600000
  readDeadline : 1 ≤ s.readDeadline ∧ s.readDeadline ≤ 600000
  idleTimeout : 1 ≤ s.idleTimeout ∧ s.idleTimeout ≤ 3600000
  keepalivePeriod : 1000 ≤ s.keepalivePeriod ∧ s.keepalivePeriod ≤ 3600000
  readBufferSize : 64 ≤ s.readBufferSize ∧ s.readBufferSize ≤ 1048576
  thresholds : s.hiccupMin < s.reestablishedAfter

/-- The rules for the sink section. -/
structure SinkSettings.Obeys (s : SinkSettings) : Prop where
  filePrefix : isFilePrefix s.filePrefix.toList = true
  flushInterval : 1 ≤ s.flushInterval ∧ s.flushInterval ≤ 60000

/-- The rule for the telemetry section. -/
structure TelemetrySettings.Obeys (s : TelemetrySettings) : Prop where
  logLevel : s.logLevel ≠ ""

/-- The rules for all sections. -/
structure Settings.Obeys (s : Settings) : Prop where
  capture : s.capture.Obeys
  sink : s.sink.Obeys
  telemetry : s.telemetry.Obeys

/-- The order of the thresholds is looked at last, but it is always looked at before a section is
accepted. -/
theorem CaptureSettings.violations_eq_nil_iff (s : CaptureSettings) :
    s.violations = [] ↔ s.Obeys := by
  have single : s.fieldViolations = [] ↔
      SourceAddress.allValid s.sources = true ∧
        (1 ≤ s.busCapacity ∧ s.busCapacity ≤ 1048576) ∧
        (1 ≤ s.reconnectDelay ∧ s.reconnectDelay ≤ 3600000) ∧
        (1 ≤ s.readDeadline ∧ s.readDeadline ≤ 600000) ∧
        (1 ≤ s.idleTimeout ∧ s.idleTimeout ≤ 3600000) ∧
        (1000 ≤ s.keepalivePeriod ∧ s.keepalivePeriod ≤ 3600000) ∧
        64 ≤ s.readBufferSize ∧ s.readBufferSize ≤ 1048576 := by
    simp only [fieldViolations, List.append_eq_nil_iff, Settings.require_eq_nil_iff,
      Settings.within_iff, and_assoc]
  constructor
  · intro none
    unfold violations at none
    split at none
    · next clean =>
      obtain ⟨h1, h2, h3, h4, h5, h6, h7⟩ := single.1 clean
      exact ⟨h1, h2, h3, h4, h5, h6, h7, by simpa using none⟩
    · next found => exact absurd none found
  · rintro ⟨h1, h2, h3, h4, h5, h6, h7, h8⟩
    have clean := single.2 ⟨h1, h2, h3, h4, h5, h6, h7⟩
    simpa [violations, clean] using h8

theorem SinkSettings.violations_eq_nil_iff (s : SinkSettings) : s.violations = [] ↔ s.Obeys := by
  simp only [violations, List.append_eq_nil_iff, Settings.require_eq_nil_iff, Settings.within_iff]
  exact ⟨fun h => ⟨h.1, h.2⟩, fun h => ⟨h.filePrefix, h.flushInterval⟩⟩

theorem TelemetrySettings.violations_eq_nil_iff (s : TelemetrySettings) :
    s.violations = [] ↔ s.Obeys := by
  have := String.isEmpty_iff (s := s.logLevel)
  simp only [violations, Settings.require_eq_nil_iff, Bool.not_eq_true', ← Bool.not_eq_true, this]
  exact ⟨fun h => ⟨h⟩, fun h => h.logLevel⟩

namespace Settings

/-- No rule is broken exactly when all of them hold. -/
theorem violations_eq_nil_iff (s : Settings) : s.violations = [] ↔ s.Obeys := by
  simp only [violations, List.append_eq_nil_iff, List.map_eq_nil_iff,
    CaptureSettings.violations_eq_nil_iff, SinkSettings.violations_eq_nil_iff,
    TelemetrySettings.violations_eq_nil_iff]
  exact ⟨fun h => ⟨h.1.1, h.1.2, h.2⟩, fun h => ⟨⟨h.capture, h.sink⟩, h.telemetry⟩⟩

/-! ## Accepted settings -/

theorem validated_eq_ok_iff {s t : Settings} : s.validated = .ok t ↔ s = t ∧ s.Obeys := by
  rw [← violations_eq_nil_iff]
  unfold validated
  split
  · next clean => simp [clean]
  · next broken =>
    simp only [reduceCtorEq, false_iff, not_and]
    exact fun _ clean => broken clean

/-- Settings are read from the documents of the layers, and then looked at. -/
theorem resolve_eq_ok_iff {layers : List Layer} {s : Settings} :
    resolve layers = .ok s ↔ ofDocument (Layer.combined layers) = .ok s ∧ s.Obeys := by
  unfold resolve
  split
  · next read => simp only [validated_eq_ok_iff, read, Except.ok.injEq]; grind
  · next misfit => simp [misfit]

theorem exists_of_load {files : Files} {env : Environment} {s : Settings}
    (loaded : load files env = .ok s) : ∃ layers, resolve layers = .ok s := by
  unfold load at loaded
  split at loaded
  · cases loaded
  · split at loaded
    · cases loaded
    · exact ⟨_, loaded⟩

theorem exists_of_loadFrom {files : Files} {env : Environment} {path : String} {s : Settings}
    (loaded : loadFrom files env path = .ok s) : ∃ layers, resolve layers = .ok s := by
  unfold loadFrom at loaded
  split at loaded
  · cases loaded
  · split at loaded
    · cases loaded
    · exact ⟨_, loaded⟩

/-- Settings that were loaded from the usual files or from a file of their own, or got other
sources after that. -/
inductive Accepted (s : Settings) : Prop
  | load {files : Files} {env : Environment} (loaded : Settings.load files env = .ok s)
  | loadFrom {files : Files} {env : Environment} {path : String}
      (loaded : Settings.loadFrom files env path = .ok s)
  | withSources {before : Settings} {sources : List String}
      (changed : before.withSources sources = .ok s)

theorem Accepted.obeys {s : Settings} (accepted : s.Accepted) : s.Obeys := by
  cases accepted with
  | load loaded =>
    obtain ⟨layers, resolved⟩ := exists_of_load loaded
    exact (resolve_eq_ok_iff.1 resolved).2
  | loadFrom loaded =>
    obtain ⟨layers, resolved⟩ := exists_of_loadFrom loaded
    exact (resolve_eq_ok_iff.1 resolved).2
  | withSources changed =>
    obtain ⟨rfl, obeys⟩ := validated_eq_ok_iff.1 changed
    exact obeys

end Settings

/-! ## What the rules are good for -/

namespace Duration

@[simp] theorem millis_eq_zero_iff {n : Nat} : millis n = 0 ↔ n = 0 := by
  show n * 1000000 = (0 : Nat) ↔ n = 0
  omega

@[simp] theorem millis_lt_millis_iff {m n : Nat} : millis m < millis n ↔ m < n := by
  simp [millis]

end Duration

/-- Workers can obey the policy of a section that keeps its rules.  The two checks count time in
different units, and one of them knows no upper bounds. -/
theorem CaptureSettings.Obeys.check_policy {s : CaptureSettings} (h : s.Obeys) :
    s.policy.check = .ok () := by
  rw [Policy.check_eq_ok_iff]
  refine ⟨Nat.ne_of_gt (Nat.lt_of_lt_of_le (by decide) h.readBufferSize.1), ?_, ?_⟩
  · simpa [policy] using Nat.ne_of_gt h.readDeadline.1
  · simpa [policy] using h.thresholds

/-- A bus can be built with every capacity from one up to the largest. -/
theorem Bus.withCapacity_eq_ok {capacity : Nat} (some : 1 ≤ capacity)
    (bounded : capacity ≤ maxCapacity) (ι : Type) :
    withCapacity ι capacity = .ok { capacity } := by
  simp only [withCapacity, if_neg (Nat.ne_of_gt some), if_neg (Nat.not_lt.2 bounded)]

theorem CaptureSettings.Obeys.busCapacity_le {s : CaptureSettings} (h : s.Obeys) :
    s.busCapacity ≤ Bus.maxCapacity :=
  Nat.le_trans h.busCapacity.2 (by decide)

namespace Settings

/-- **A capture can be started with accepted settings.**  Workers can obey the policy of settings
that were loaded, or that got other sources after that; there is a supervisor for it, over a bus of
the capacity that the settings give; no timer has the period zero; and no read buffer is empty. -/
theorem startable_of_accepted {s : Settings} (accepted : s.Accepted) :
    s.capture.policy.check = .ok () ∧
      (1 ≤ s.capture.policy.busCapacity ∧ s.capture.policy.busCapacity ≤ 2 ^ 61 - 1) ∧
      (∀ sources network counting,
        Supervisor.create sources s.capture.policy network counting =
          .ok
            { sources
              fleet :=
                Fleet.create s.capture.policy network { capacity := s.capture.busCapacity }
                  counting false }) ∧
      s.capture.policy.reconnectDelay ≠ 0 ∧ s.capture.policy.readDeadline ≠ 0 ∧
      (∃ ticker, Ticker.every (Duration.millis s.sink.flushInterval) = .ok ticker) ∧
      s.capture.policy.readBufferSize ≠ 0 := by
  have obeys := accepted.obeys
  have valid := obeys.capture.check_policy
  have room := obeys.capture.busCapacity.1
  have built := Bus.withCapacity_eq_ok room obeys.capture.busCapacity_le Nat
  obtain ⟨buffer, deadline, -⟩ := s.capture.policy.check_eq_ok_iff.1 valid
  refine ⟨valid, ⟨room, obeys.capture.busCapacity_le⟩, fun sources network counting => ?_, ?_,
    deadline, ?_, buffer⟩
  · have built : Bus.withCapacity Nat s.capture.policy.busCapacity = _ := built
    simp only [Supervisor.create, valid, built]
  · simpa [CaptureSettings.policy] using Nat.ne_of_gt obeys.capture.reconnectDelay.1
  · have some : Duration.millis s.sink.flushInterval ≠ 0 := by
      simpa using Nat.ne_of_gt obeys.sink.flushInterval.1
    exact ⟨_, if_neg some⟩

/-- Settings at the ends of their ranges. -/
def edge : Settings where
  capture :=
    { busCapacity := 1048576
      reconnectDelay := 1
      readDeadline := 1
      idleTimeout := 3600000
      keepalivePeriod := 1000
      readBufferSize := 64
      hiccupMin := 0
      reestablishedAfter := 1 }
  sink := { flushInterval := 1 }

/-- Also settings at the ends of their ranges, which get a source from the command line, describe a
capture that can be started. -/
theorem startable_of_accepted_edge :
    ∃ s, edge.withSources ["feed:1"] = .ok s ∧ s.Accepted ∧
      s.capture.policy.check = .ok () ∧
      (∃ supervisor, Supervisor.create s.capture.sources s.capture.policy {} true =
        .ok supervisor) ∧
      ∃ ticker, Ticker.every (Duration.millis 1) = .ok ticker := by
  have changed : edge.withSources ["feed:1"] =
      .ok { edge with capture := { edge.capture with sources := ["feed:1"] } } := by rfl
  have accepted := Accepted.withSources changed
  obtain ⟨valid, -, created, -, -, ticks, -⟩ := startable_of_accepted accepted
  exact ⟨_, changed, accepted, valid, ⟨_, created _ _ _⟩, ticks⟩

end Settings

end FeedCapture
