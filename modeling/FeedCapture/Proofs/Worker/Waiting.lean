import FeedCapture.Passage

/-!
# Workers that wait

When a worker waits, for what, and how long it goes on waiting while nothing happens but that time
passes.

The main statements are `Worker.step?_moveTo`, and `Fleet.exists_wakeAt_le` with `Fleet.le_wakeAt`.
-/

namespace FeedCapture.Worker

open Transport

variable {h : Hub} {w : Worker}

theorem waits_dialing {due : Option Instant} {outcome : Outcome}
    (phase : w.phase = .dialing due outcome) :
    w.step? h = none ↔ h.stopping = false ∧ ∀ wake, due = some wake → h.now < wake := by
  cases due <;> cases going : h.stopping <;> simp [step?, phase, going]

theorem waits_pausing {until_ : Instant} (phase : w.phase = .pausing until_) :
    w.step? h = none ↔ h.stopping = false ∧ h.now < until_ := by
  cases going : h.stopping <;> simp [step?, phase, going]

theorem waits_reading {link : Link} {deadline : Instant}
    (phase : w.phase = .reading link deadline) :
    w.step? h = none ↔ h.tokens.isCancelled link.close = false ∧
      (∀ due, link.connection.nextAt = some due → h.now < due) ∧ h.now < deadline := by
  rw [← Connection.read?_eq_none_iff _ _ h.policy.readBufferSize]
  cases going : h.tokens.isCancelled link.close <;>
    cases read : link.connection.read? h.now h.policy.readBufferSize <;>
    simp [step?, phase, going, read]

/-- A worker that waits goes on by itself only later. -/
theorem lt_of_wakeAt (waits : w.step? h = none) {wake : Instant} (wakes : w.wakeAt = some wake) :
    h.now < wake := by
  cases phase : w.phase with
  | dialing due outcome =>
    simp only [wakeAt, phase] at wakes
    exact ((waits_dialing phase).1 waits).2 wake wakes
  | pausing until_ =>
    simp only [wakeAt, phase, Option.some.injEq] at wakes
    exact wakes ▸ ((waits_pausing phase).1 waits).2
  | reading link deadline =>
    obtain ⟨-, unread, fresh⟩ := (waits_reading phase).1 waits
    simp only [wakeAt, phase] at wakes
    cases next : link.connection.nextAt with
    | none =>
      simp only [next, earlier, Option.some.injEq] at wakes
      exact wakes ▸ fresh
    | some due =>
      simp only [next, earlier, Option.some.injEq] at wakes
      exact wakes ▸ Nat.lt_min.2 ⟨unread due next, fresh⟩
  | _ => simp [wakeAt, phase] at wakes

/-- A worker that waits goes on waiting until the time at which it goes on by itself. -/
theorem step?_moveTo (waits : w.step? h = none) {t : Instant}
    (early : ∀ wake, w.wakeAt = some wake → t < wake) : w.step? { h with now := t } = none := by
  cases phase : w.phase with
  | ready => simp [step?, phase] at waits
  | dialing due outcome =>
    refine (waits_dialing phase).2 ⟨((waits_dialing phase).1 waits).1, ?_⟩
    simpa [wakeAt, phase] using early
  | pausing until_ =>
    refine (waits_pausing phase).2 ⟨((waits_pausing phase).1 waits).1, ?_⟩
    simpa [wakeAt, phase] using early
  | reading link deadline =>
    refine (waits_reading phase).2 ⟨((waits_reading phase).1 waits).1, ?_⟩
    simp only [wakeAt, phase] at early
    cases next : link.connection.nextAt with
    | none => simpa [next, earlier] using early
    | some due => simpa [next, earlier, Nat.lt_min] using early
  | delivering link m =>
    simp only [step?, phase] at waits ⊢
    split at waits
    · cases waits
    · next going =>
      rw [if_neg going]
      split at waits <;> simp_all
  | stopped => simp [step?, phase]
  | crashed reason => simp [step?, phase]

theorem step?_of_ended (ended : w.ended = true) (h : Hub) : w.step? h = none := by
  cases phase : w.phase <;> simp [Worker.ended, phase] at ended
  · simp [step?, phase]
  · simp [step?, phase]

end FeedCapture.Worker

namespace FeedCapture.Fleet

open Worker

theorem exists_earlier_le_left (a : Instant) (t : Option Instant) :
    ∃ b, earlier (some a) t = some b ∧ b ≤ a := by
  cases t with
  | none => exact ⟨a, rfl, Nat.le_refl a⟩
  | some c => exact ⟨min a c, rfl, Nat.min_le_left a c⟩

theorem exists_earlier_le_right (t : Option Instant) (a : Instant) :
    ∃ b, earlier t (some a) = some b ∧ b ≤ a := by
  cases t with
  | none => exact ⟨a, rfl, Nat.le_refl a⟩
  | some c => exact ⟨min c a, rfl, Nat.min_le_right c a⟩

/-- The fleet goes on no later than any of its workers. -/
theorem exists_wakeAt_le {f : Fleet} {w : Worker} (mem : w ∈ f.workers) {wake : Instant}
    (hw : w.wakeAt = some wake) : ∃ first, f.wakeAt = some first ∧ first ≤ wake := by
  have bounded : ∀ (ws : List Worker) (a : Instant),
      ∃ b, ws.foldl (fun t w => earlier t w.wakeAt) (some a) = some b ∧ b ≤ a := by
    intro ws
    induction ws with
    | nil => exact fun a => ⟨a, rfl, Nat.le_refl a⟩
    | cons v ws ih =>
      intro a
      obtain ⟨b, first, le⟩ := exists_earlier_le_left a v.wakeAt
      obtain ⟨c, last, le'⟩ := ih b
      exact ⟨c, by rw [List.foldl_cons, first, last], Nat.le_trans le' le⟩
  have least : ∀ (ws : List Worker) (t : Option Instant), w ∈ ws →
      ∃ b, ws.foldl (fun t w => earlier t w.wakeAt) t = some b ∧ b ≤ wake := by
    intro ws
    induction ws with
    | nil => exact fun _ mem => by cases mem
    | cons v ws ih =>
      intro t mem
      rcases List.mem_cons.1 mem with rfl | mem
      · obtain ⟨b, first, le⟩ := exists_earlier_le_right t wake
        obtain ⟨c, last, le'⟩ := bounded ws b
        exact ⟨c, by rw [List.foldl_cons, hw, first, last], Nat.le_trans le' le⟩
      · exact ih _ mem
  exact least f.workers none mem

theorem le_earlier {t : Instant} {a b : Option Instant} (ha : ∀ x, a = some x → t ≤ x)
    (hb : ∀ x, b = some x → t ≤ x) (x : Instant) (first : earlier a b = some x) : t ≤ x := by
  cases a with
  | none => exact hb x first
  | some a =>
    cases b with
    | none => exact ha x first
    | some b =>
      obtain rfl : min a b = x := Option.some.inj first
      exact Nat.le_min.2 ⟨ha a rfl, hb b rfl⟩

/-- The fleet goes on no earlier than the first of its workers. -/
theorem le_wakeAt {f : Fleet} {t wake : Instant}
    (late : ∀ w ∈ f.workers, ∀ wake, w.wakeAt = some wake → t ≤ wake)
    (first : f.wakeAt = some wake) : t ≤ wake := by
  have least : ∀ (ws : List Worker) (least : Option Instant),
      (∀ w ∈ ws, ∀ wake, w.wakeAt = some wake → t ≤ wake) →
      (∀ wake, least = some wake → t ≤ wake) →
      ∀ wake, ws.foldl (fun least w => earlier least w.wakeAt) least = some wake →
        t ≤ wake := by
    intro ws
    induction ws with
    | nil => exact fun _ _ late => late
    | cons w ws ih =>
      intro least all late
      exact ih _ (fun v hv => all v (List.mem_cons_of_mem _ hv))
        (le_earlier late (all w List.mem_cons_self))
  exact least f.workers none late (fun _ none => by cases none) wake first

end FeedCapture.Fleet
