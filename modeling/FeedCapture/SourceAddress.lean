import FeedCapture.Number.Digits
import FeedCapture.Text.Blank

/-!
# Source addresses

A source is named by a host and a port, separated by the last colon of the text.  The host may
stand in square brackets, is not empty and holds no white space; the port is a number from 1 to
65535, with any leading zeros and possibly a plus sign.

## Main definitions

* `SourceAddress.parts?` — the host and the port of an address
* `SourceAddress.isValid`
* `SourceAddress.splitLast` — a text around the last occurrence of a character
-/

namespace FeedCapture.SourceAddress

/-- The text before and after the last occurrence of `sep`, if there is one. -/
def splitLast (sep : Char) : List Char → Option (List Char × List Char)
  | [] => none
  | c :: rest =>
    match splitLast sep rest with
    | some (before, after) => some (c :: before, after)
    | none => if c = sep then some ([], rest) else none

/-- The text inside one pair of square brackets, or the text itself when it has no such pair. -/
def withoutBrackets (host : List Char) : List Char :=
  match host with
  | '[' :: rest => if rest.getLast? = some ']' then rest.dropLast else host
  | _ => host

/-- The port that a text names: digits after at most one plus sign, at most 65535. -/
def port? (text : List Char) : Option Nat :=
  let digits := match text with
    | '+' :: rest => rest
    | _ => text
  (Digits.decimal? digits).filter (fun n => n ≤ 65535)

/-- The host is not empty and holds no white space. -/
def isHost (host : List Char) : Bool := !host.isEmpty && !host.any Text.isBlank

/-- The host, without its brackets, and the port that a text names. -/
def parts? (text : List Char) : Option (List Char × Nat) :=
  match splitLast ':' text with
  | none => none
  | some (host, port) =>
    match port? port with
    | none => none
    | some n =>
      if isHost (withoutBrackets host) && n ≠ 0 then some (withoutBrackets host, n) else none

/-- The text names a host and a port. -/
def isValid (text : List Char) : Bool := (parts? text).isSome

/-- Every address of a list names a host and a port. -/
def allValid (texts : List String) : Bool := texts.all fun text => isValid text.toList

/-! ## The split -/

theorem splitLast_eq_none_iff {sep : Char} {text : List Char} :
    splitLast sep text = none ↔ sep ∉ text := by
  induction text with
  | nil => simp [splitLast]
  | cons c rest ih =>
    unfold splitLast
    cases h : splitLast sep rest with
    | some p =>
      have : sep ∈ rest := by
        by_cases hm : sep ∈ rest
        · exact hm
        · rw [ih.2 hm] at h; cases h
      simp [this]
    | none =>
      have hm := ih.1 h
      by_cases hc : c = sep
      · simp [hc]
      · have : sep ≠ c := fun e => hc e.symm
        simp [hc, hm, this]

theorem append_of_splitLast {sep : Char} {text before after : List Char}
    (h : splitLast sep text = some (before, after)) :
    text = before ++ sep :: after ∧ sep ∉ after := by
  induction text generalizing before with
  | nil => simp [splitLast] at h
  | cons c rest ih =>
    unfold splitLast at h
    cases hr : splitLast sep rest with
    | some p =>
      obtain ⟨b, a⟩ := p
      rw [hr] at h
      simp only [Option.some.injEq, Prod.mk.injEq] at h
      obtain ⟨rfl, rfl⟩ := h
      obtain ⟨h1, h2⟩ := ih hr
      exact ⟨by rw [h1]; rfl, h2⟩
    | none =>
      rw [hr] at h
      by_cases hc : c = sep
      · simp only [hc, if_true, Option.some.injEq, Prod.mk.injEq] at h
        obtain ⟨rfl, rfl⟩ := h
        exact ⟨by simp [hc], splitLast_eq_none_iff.1 hr⟩
      · simp [hc] at h

end FeedCapture.SourceAddress
