import FeedCapture.Proofs.Worker.Transition

/-!
# How a worker is wired to tokens and registry

A worker with a connection has a token that closes it, below the token that stops all workers, and
the registry has that token under the worker's key.  A worker without a connection has no entry.

## Main definitions

* `Worker.Wired` — a worker, the registry and the tokens agree

The main statement says that a step keeps a worker wired and disturbs no other one
(`wired_of_transition`).
-/

namespace FeedCapture.Worker

open Transport

/-- A worker, the registry and the tokens agree. -/
structure Wired (h : Hub) (w : Worker) : Prop where
  close : ∀ link, w.phase.open? = some link → h.tokens.ChildOf link.close h.stop
  entry : h.registry.get? w.key = w.phase.open?.map (·.close)

/-- What a step does to the tokens and the registry: nothing is taken back, and only the entry of
the worker itself can change. -/
structure Mild (key : SourceKey) (h h' : Hub) : Prop where
  stop : h'.stop = h.stop
  tokens : h.tokens.Extends h'.tokens
  registry : Registry.AgreesBut key h.registry h'.registry

variable {h h' : Hub} {w : Worker}

/-- A step of one worker leaves the others wired. -/
theorem Wired.of_mild {key : SourceKey} (wired : Wired h w) (mild : Mild key h h')
    (other : w.key ≠ key) : Wired h' w where
  close link hl := mild.stop ▸ mild.tokens.childOf (wired.close link hl)
  entry := by rw [mild.registry.get? _ other, wired.entry]

/-- A worker that keeps its connection, or goes on without one, stays wired. -/
theorem Wired.of_same {w' : Worker} (wired : Wired h w) (tokens : h'.tokens = h.tokens)
    (stop : h'.stop = h.stop) (registry : h'.registry = h.registry) (key : w'.key = w.key)
    (close : w'.phase.open?.map (·.close) = w.phase.open?.map (·.close)) : Wired h' w' where
  close link hl := by
    have same : w.phase.open?.map (·.close) = some link.close := by rw [← close, hl]; rfl
    obtain ⟨old, hold, same⟩ := Option.map_eq_some_iff.1 same
    rw [tokens, stop, ← same]
    exact wired.close old hold
  entry := by rw [registry, key, wired.entry, close]

theorem isConnected_iff (w : Worker) : w.isConnected = true ↔ w.phase.open? ≠ none := by
  cases h : w.phase <;> simp [isConnected, Phase.link, Phase.open?, h]

/-! ## What the parts of a step do -/

theorem mild_leave (h : Hub) (w : Worker) (bus : Bus Nat) (reason : ReadExit) :
    Mild w.key h (leave { h with bus } w reason).hub := by
  unfold leave
  dsimp only
  split
  · constructor
    · simp
    · simpa using .refl _
    · simpa using .unregister _ _
  · constructor
    · simp
    · simpa using .refl _
    · simpa using .unregister _ _

theorem wired_leave (h : Hub) (w : Worker) (reason : ReadExit) :
    Wired (leave h w reason).hub (leave h w reason).worker where
  close link hl := by
    rw [open?_leave] at hl
    cases hl
  entry := by
    rw [open?_leave, key_leave]
    unfold leave
    dsimp only
    split <;> simp

theorem mild_crash (h : Hub) (w : Worker) (reason : String) :
    Mild w.key h (crash h w reason).hub := by
  refine ⟨rfl, .refl _, ?_⟩
  rw [registry_crash]
  split
  · exact .unregister _ _
  · exact .refl _ _

theorem wired_crash (wired : Wired h w) (reason : String) :
    Wired (crash h w reason).hub (crash h w reason).worker where
  close link hl := by cases hl
  entry := by
    show (crash h w reason).hub.registry.get? w.key = none
    rw [registry_crash]
    split
    · simp
    · next shut =>
      have shut : w.phase.open? = none := Decidable.not_not.1 (mt (isConnected_iff w).2 shut)
      rw [wired.entry, shut]
      rfl

theorem mild_connect (wired : Wired h w) (shut : w.phase.open? = none)
    (peer : List (Duration × Peer)) (tuning : Option Tuning) :
    Mild w.key h (connect h w peer tuning).hub := by
  have free : h.registry.get? w.key = none := by rw [wired.entry, shut]; rfl
  constructor
  · simp [connect]
  · simpa [connect, Registry.register, free] using .add _ _
  · simpa [connect, Registry.register, free] using .insert _ _ _

/-- A new connection gets a token and an entry of its own. -/
theorem wired_connect (wired : Wired h w) (shut : w.phase.open? = none)
    (stop : h.stop < h.tokens.nodes.size) (peer : List (Duration × Peer))
    (tuning : Option Tuning) :
    Wired (connect h w peer tuning).hub (connect h w peer tuning).worker := by
  have free : h.registry.get? w.key = none := by rw [wired.entry, shut]; rfl
  have key : (connect h w peer tuning).worker.key = w.key := rfl
  constructor
  · intro link hl
    rw [phase_connect] at hl
    obtain rfl : _ = link := Option.some.inj hl
    simpa [connect, Registry.register, free] using TokenTree.childOf_child stop
  · rw [phase_connect, key]
    simp [connect, Registry.register, free, Phase.open?]

/-! ## Steps -/

/-- A step keeps a worker wired and disturbs no other one. -/
theorem wired_of_transition {s : Step} (step : Transition h w s) (wired : Wired h w)
    (stop : h.stop < h.tokens.nodes.size) : Wired s.hub s.worker ∧ Mild w.key h s.hub := by
  have left : ∀ bus reason, Wired (leave { h with bus } w reason).hub
      (leave { h with bus } w reason).worker ∧ Mild w.key h (leave { h with bus } w reason).hub :=
    fun bus reason => ⟨wired_leave _ w reason, mild_leave h w bus reason⟩
  have moved : ∀ {h' : Hub} {w' : Worker}, h'.tokens = h.tokens → h'.stop = h.stop →
      h'.registry = h.registry → w'.key = w.key →
      w'.phase.open?.map (·.close) = w.phase.open?.map (·.close) →
      Wired h' w' ∧ Mild w.key h h' := by
    intro h' w' tokens stop registry key close
    exact ⟨wired.of_same tokens stop registry key close,
      stop, tokens ▸ .refl _, registry ▸ .refl _ _⟩
  cases step with
  | halt idle stopping =>
    refine moved rfl rfl rfl rfl ?_
    rcases idle with phase | ⟨due, outcome, phase⟩ | ⟨until_, phase⟩ <;> rw [phase] <;> rfl
  | dial phase going =>
    refine moved ?_ ?_ ?_ (key_begin h w) ?_
    · rw [hub_begin h w going]
    · rw [hub_begin h w going]
    · rw [hub_begin h w going]
    · rw [open?_begin, phase]
      rfl
  | refused phase going passed =>
    exact moved (by simp [failDial]) (by simp [failDial]) (by simp [failDial]) rfl
      (by rw [phase]; rfl)
  | @dialBroke due reason phase going passed =>
    exact ⟨wired_crash wired reason, mild_crash h w reason⟩
  | @connected due peer tuning phase going passed =>
    have shut : w.phase.open? = none := by rw [phase]; rfl
    exact ⟨wired_connect wired shut stop peer tuning, mild_connect wired shut peer tuning⟩
  | retry phase going passed => exact moved rfl rfl rfl rfl (by rw [phase]; rfl)
  | closed phase close => exact left h.bus _
  | eof phase going read => exact left h.bus _
  | failed phase going read => exact left h.bus _
  | @readBroke link deadline c reason phase going read =>
    exact ⟨wired_crash wired reason, mild_crash h w reason⟩
  | queued phase going read offer =>
    exact moved (by simp [delivered]) (by simp [delivered]) (by simp [delivered]) rfl
      (by rw [phase]; rfl)
  | parked phase going read offer => exact moved rfl rfl rfl rfl (by rw [phase]; rfl)
  | unwanted phase going read offer => exact left h.bus _
  | idle phase going read passed stale => exact left h.bus _
  | silent phase going read passed fresh => exact moved rfl rfl rfl rfl (by rw [phase]; rfl)
  | givenUp phase close => exact left _ _
  | abandoned phase going claim => exact left _ _
  | handedOver phase going claim =>
    exact moved (by simp [delivered]) (by simp [delivered]) (by simp [delivered]) rfl
      (by rw [phase]; rfl)

end FeedCapture.Worker
