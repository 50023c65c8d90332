import FeedCapture.Outage.Run
import Mathlib.Data.List.Induction

/-!
# Outages, told from the calls

What a tracker answers depends on the calls before: whether there was a connection, and which loss
was the first one after the last connection.  The instants of the calls need not be in order, and a
reconnect that seems to lie before the loss counts as one at once.

## Main definitions

* `OutageTracker.SinceUp` — the calls after the last connection
* `OutageTracker.Lasted` — how long a source was gone, by these calls
* `OutageTracker.Noted` — the notes of a tracker agree with the calls
* `Reconnect.rank` — the order of the kinds of reconnect

The main statements are `Noted.run` and `answers_of_calls`.
-/

namespace FeedCapture

/-- Reconnects by the length of the outage that they end; a first connection ends none. -/
def Reconnect.rank : Reconnect → Nat
  | .first => 0
  | .quick _ => 1
  | .hiccup _ => 2
  | .reestablished _ => 3

namespace Outage.Thresholds

variable (t : Thresholds) {shorter longer : Duration}

theorem classify_ne_first (elapsed : Duration) : t.classify elapsed ≠ .first := by
  unfold classify
  split
  · exact nofun
  · split <;> exact nofun

/-- A longer outage is never of a lower kind.  This needs no order of the thresholds: the longer one
is looked at first, and both are lower bounds. -/
theorem rank_classify_le (le : shorter ≤ longer) :
    (t.classify shorter).rank ≤ (t.classify longer).rank := by
  unfold classify
  by_cases long : t.reestablishedAfter ≤ longer
  · rw [if_pos long]
    split
    · exact Nat.le_refl 3
    · split <;> simp [Reconnect.rank]
  · have short : ¬ t.reestablishedAfter ≤ shorter := fun h => long (Nat.le_trans h le)
    rw [if_neg long, if_neg short]
    by_cases brief : t.hiccupMin ≤ shorter
    · rw [if_pos brief, if_pos (Nat.le_trans brief le)]
      exact Nat.le_refl 2
    · rw [if_neg brief]
      split <;> simp [Reconnect.rank]

end Outage.Thresholds

namespace OutageTracker

/-! ## What the calls tell -/

/-- The call is about a connection. -/
def Call.isUp : Call → Bool
  | .up _ _ => true
  | .down _ => false

/-- The instant of a loss. -/
def Call.down? : Call → Option Instant
  | .down now => some now
  | .up _ _ => none

/-- There was a connection, and `since` are the calls after the last one. -/
def SinceUp (calls since : List Call) : Prop :=
  ∃ earlier now thresholds, calls = earlier ++ .up now thresholds :: since ∧
    ∀ c ∈ since, c.isUp = false

/-- How long a source was gone at an instant, by the calls since its last connection: the time since
the first loss among them, which is none when that lies later, or when there was no loss. -/
def Lasted (since : List Call) (now : Instant) (elapsed : Duration) : Prop :=
  match since.findSome? Call.down? with
  | some lost => (elapsed : Int) = max 0 ((now : Int) - lost)
  | none => elapsed = 0

variable {calls since : List Call} {t : OutageTracker} {now : Instant}
  {thresholds : Outage.Thresholds}

theorem sinceUp_append_up : SinceUp (calls ++ [.up now thresholds]) [] :=
  ⟨calls, now, thresholds, rfl, List.forall_mem_nil _⟩

theorem SinceUp.append_down (back : SinceUp calls since) (now : Instant) :
    SinceUp (calls ++ [.down now]) (since ++ [.down now]) := by
  obtain ⟨earlier, at_, th, rfl, none⟩ := back
  refine ⟨earlier, at_, th, by simp, fun c mem => ?_⟩
  rcases List.mem_append.1 mem with mem | mem
  · exact none c mem
  · rw [List.mem_singleton.1 mem]
    rfl

theorem SinceUp.exists_isUp (back : SinceUp calls since) : ∃ c ∈ calls, c.isUp = true := by
  obtain ⟨earlier, at_, th, rfl, -⟩ := back
  exact ⟨.up at_ th, by simp, rfl⟩

/-- The calls after the last connection are determined. -/
theorem SinceUp.unique {others : List Call} (back : SinceUp calls since)
    (also : SinceUp calls others) : since = others := by
  obtain ⟨earlier, at₁, th₁, rfl, none₁⟩ := back
  obtain ⟨earlier', at₂, th₂, same, none₂⟩ := also
  rcases List.append_eq_append_iff.1 same with ⟨mid, rfl, eq⟩ | ⟨mid, rfl, eq⟩
  · cases mid with
    | nil => exact (List.cons.inj eq).2
    | cons c mid =>
      obtain ⟨rfl, rfl⟩ := List.cons.inj eq
      cases none₁ (.up at₂ th₂) (by simp)
  · cases mid with
    | nil => exact (List.cons.inj eq).2.symm
    | cons c mid =>
      obtain ⟨rfl, rfl⟩ := List.cons.inj eq
      cases none₂ (.up at₁ th₁) (by simp)

/-! ## The notes of a tracker -/

/-- The notes of a tracker agree with the calls that were made. -/
inductive Noted : List Call → OutageTracker → Prop
  | new {calls : List Call} (never : ∀ c ∈ calls, c.isUp = false) : Noted calls {}
  | since {calls since : List Call} (back : SinceUp calls since) :
      Noted calls { everConnected := true, downSince := since.findSome? Call.down? }

/-- A loss is noted unless there is one already, or there was no connection yet. -/
theorem Noted.down (noted : Noted calls t) (now : Instant) :
    Noted (calls ++ [.down now]) (t.markDown now).1 := by
  cases noted with
  | new never =>
    refine .new fun c mem => ?_
    rcases List.mem_append.1 mem with mem | mem
    · exact never c mem
    · rw [List.mem_singleton.1 mem]
      rfl
  | @since since back =>
    have after := Noted.since (back.append_down now)
    rw [List.findSome?_append] at after
    cases lost : since.findSome? Call.down? with
    | none => simpa [lost, markDown, Call.down?] using after
    | some first => simpa [lost, markDown] using after

/-- A connection leaves no loss behind, whatever was noted before. -/
theorem Noted.up (calls : List Call) (t : OutageTracker) (now : Instant)
    (thresholds : Outage.Thresholds) :
    Noted (calls ++ [.up now thresholds]) (t.markUp now thresholds).1 := by
  have empty : (t.markUp now thresholds).1 = { everConnected := true, downSince := none } := by
    cases made : (t.markUp now thresholds).1 with
    | mk ever since =>
      have ever' := everConnected_markUp t now thresholds
      have since' := downSince_markUp t now thresholds
      rw [made] at ever' since'
      simp only at ever' since'
      rw [ever', since']
  rw [empty]
  exact .since sinceUp_append_up

/-- One call keeps the agreement. -/
theorem Noted.call (noted : Noted calls t) (c : Call) : Noted (calls ++ [c]) (t.call c).1 := by
  cases c with
  | down now => exact noted.down now
  | up now thresholds => exact .up calls t now thresholds

/-- **After any calls the notes of a tracker agree with them.** -/
theorem Noted.run (calls : List Call) : Noted calls (OutageTracker.run {} calls).1 := by
  induction calls using List.reverseRecOn with
  | nil => exact .new (List.forall_mem_nil _)
  | append_singleton calls c ih =>
    rw [run_append]
    exact ih.call c

/-! ## The answers -/

/-- A loss starts an outage when it is the first one after a connection. -/
theorem Noted.markDown_eq_true_iff (noted : Noted calls t) :
    (t.markDown now).2 = true ↔
      ∃ since, SinceUp calls since ∧ ∀ c ∈ since, c.down? = none := by
  cases noted with
  | new never =>
    refine ⟨nofun, ?_⟩
    rintro ⟨since, back, -⟩
    obtain ⟨c, mem, up⟩ := back.exists_isUp
    rw [never c mem] at up
    cases up
  | @since since back =>
    have starts : (markDown ⟨true, since.findSome? Call.down?⟩ now).2 = true ↔
        since.findSome? Call.down? = none := by
      cases since.findSome? Call.down? <;> simp [markDown]
    rw [starts, List.findSome?_eq_none_iff]
    refine ⟨fun none => ⟨since, back, none⟩, ?_⟩
    rintro ⟨others, also, none⟩
    rwa [back.unique also]

/-- A connection is a first one when there was none before. -/
theorem Noted.markUp_eq_first_iff (noted : Noted calls t) :
    (t.markUp now thresholds).2 = .first ↔ ∀ c ∈ calls, c.isUp = false := by
  cases noted with
  | new never => exact ⟨fun _ => never, fun _ => rfl⟩
  | since back =>
    refine ⟨fun first => absurd first (Outage.Thresholds.classify_ne_first _ _), fun never => ?_⟩
    obtain ⟨c, mem, up⟩ := back.exists_isUp
    rw [never c mem] at up
    cases up

theorem lasted_elapsed (since : List Call) (now : Instant) :
    Lasted since now (elapsed ⟨true, since.findSome? Call.down?⟩ now) := by
  unfold Lasted elapsed
  cases since.findSome? Call.down? with
  | none => rfl
  | some lost =>
    simp only
    show ((now - lost : Nat) : Int) = max 0 ((now : Int) - lost)
    omega

/-- A connection after another one is classified by how long the source was gone. -/
theorem Noted.markUp_of_ne_first (noted : Noted calls t)
    (again : (t.markUp now thresholds).2 ≠ .first) :
    ∃ since elapsed, SinceUp calls since ∧ Lasted since now elapsed ∧
      (t.markUp now thresholds).2 = thresholds.classify elapsed := by
  cases noted with
  | new never => exact absurd rfl again
  | @since since back => exact ⟨since, _, back, lasted_elapsed since now, rfl⟩

/-- The answer to a call is what the tracker says after the calls before. -/
theorem getElem?_answers (before : List Call) (c : Call) (after : List Call) :
    (run {} (before ++ c :: after)).2[before.length]? =
      some ((run {} before).1.call c).2 := by
  rw [run_append, run_cons, List.getElem?_append_right (by simp)]
  simp

/-- **Every answer of a tracker follows from the calls before.**  A connection is a first one
exactly when there was none before; any other one is classified by the time since the first loss
after the last connection, which is zero when there was no loss or when it lies later.  A loss starts
an outage exactly when there was a connection, and no loss since the last one.  And a longer outage
is never of a lower kind, whatever the order of the thresholds. -/
theorem answers_of_calls (before after : List Call) (now : Instant)
    (thresholds : Outage.Thresholds) :
    (∃ kind, (run {} (before ++ .up now thresholds :: after)).2[before.length]? =
        some (.reconnect kind) ∧
      (kind = .first ↔ ∀ c ∈ before, c.isUp = false) ∧
      (kind ≠ .first → ∃ since elapsed, SinceUp before since ∧ Lasted since now elapsed ∧
        kind = thresholds.classify elapsed)) ∧
    (∃ new, (run {} (before ++ .down now :: after)).2[before.length]? = some (.starts new) ∧
      (new = true ↔ ∃ since, SinceUp before since ∧ ∀ c ∈ since, c.down? = none)) ∧
    ∀ shorter longer, shorter ≤ longer →
      (thresholds.classify shorter).rank ≤ (thresholds.classify longer).rank := by
  have noted := Noted.run before
  refine ⟨⟨_, getElem?_answers .., noted.markUp_eq_first_iff, noted.markUp_of_ne_first⟩,
    ⟨_, getElem?_answers .., noted.markDown_eq_true_iff⟩, ?_⟩
  exact fun _ _ le => thresholds.rank_classify_le le

/-- Also when the clock goes back and the thresholds are in the wrong order. -/
theorem answers_of_calls_backwards :
    (∃ kind, (run {} [.down 3, .up 10 {}, .down 20, .down 15, .up 12 ⟨7, 5⟩]).2[4]? =
        some (.reconnect kind) ∧ kind ≠ .first) ∧
      (Outage.Thresholds.classify ⟨7, 5⟩ 4).rank ≤ (Outage.Thresholds.classify ⟨7, 5⟩ 6).rank := by
  obtain ⟨⟨kind, answer, first, -⟩, -, ordered⟩ :=
    answers_of_calls [.down 3, .up 10 {}, .down 20, .down 15] [] 12 ⟨7, 5⟩
  refine ⟨⟨kind, answer, fun new => ?_⟩, ordered 4 6 (by decide)⟩
  exact absurd (first.1 new (.up 10 {}) (by simp)) (by decide)

-- The second loss does not count, the clock goes back, and the thresholds are in the wrong order.
example :
    (run {} [.down 3, .up 10 {}, .down 20, .down 15, .up 12 ⟨7, 5⟩, .up 9 ⟨7, 5⟩, .down 1,
      .up 7 ⟨7, 5⟩]).2 =
      [.starts false, .reconnect .first, .starts true, .starts false, .reconnect (.quick 0),
        .reconnect (.quick 0), .starts true, .reconnect (.reestablished 6)] := by decide

end OutageTracker

end FeedCapture
