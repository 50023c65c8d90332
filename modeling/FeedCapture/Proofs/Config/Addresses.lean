import FeedCapture.Config.Settings

/-!
# What is a source address

The grammar of addresses, as relations between what is written and what is meant: a host in or
without brackets, a port with or without a plus sign, and a colon between them.  An address is
accepted exactly when the grammar has a host and a port for it, and it has at most one of each.

## Main definitions

* `SourceAddress.Encloses` — a host as it is written, and the host that is meant
* `SourceAddress.Denotes` — a port as it is written, and its number
* `SourceAddress.Names` — an address as it is written, with the host and the port that it names

The main statement is `parts?_eq_some_iff`.
-/

namespace FeedCapture.SourceAddress

/-! ## The grammar -/

/-- A host as it is written, and the host that is meant: one pair of square brackets is taken off,
and what has no such pair stands for itself. -/
inductive Encloses : List Char → List Char → Prop
  | brackets (host : List Char) : Encloses ('[' :: (host ++ [']'])) host
  | bare {host : List Char} (plain : ∀ inner, host ≠ '[' :: (inner ++ [']'])) : Encloses host host

/-- A port as it is written, and its number: decimal digits, any zeros in front included, after at
most one plus sign. -/
inductive Denotes : List Char → Nat → Prop
  | digits {text : List Char} (some : text ≠ []) (decimal : ∀ c ∈ text, c.isDigit = true) :
      Denotes text (Nat.ofDigitChars 10 text 0)
  | plus {text : List Char} (some : text ≠ []) (decimal : ∀ c ∈ text, c.isDigit = true) :
      Denotes ('+' :: text) (Nat.ofDigitChars 10 text 0)

/-- An address as it is written, with the host and the port that it names.  The last colon is the
one that divides them. -/
structure Names (text host : List Char) (port : Nat) : Prop where
  divided : ∃ before after, text = before ++ ':' :: after ∧ ':' ∉ after ∧
    Encloses before host ∧ Denotes after port
  host_ne_nil : host ≠ []
  solid : ∀ c ∈ host, Text.isBlank c = false
  port_pos : 1 ≤ port
  port_le : port ≤ 65535

/-! ## The parts of an address -/

theorem splitLast_append {sep : Char} {after : List Char} (last : sep ∉ after)
    (before : List Char) : splitLast sep (before ++ sep :: after) = some (before, after) := by
  induction before with
  | nil => simp [splitLast, splitLast_eq_none_iff.2 last]
  | cons c before ih => simp [splitLast, ih]

theorem splitLast_eq_some_iff {sep : Char} {text before after : List Char} :
    splitLast sep text = some (before, after) ↔ text = before ++ sep :: after ∧ sep ∉ after := by
  refine ⟨append_of_splitLast, ?_⟩
  rintro ⟨rfl, last⟩
  exact splitLast_append last before

theorem withoutBrackets_brackets (host : List Char) :
    withoutBrackets ('[' :: (host ++ [']'])) = host := by
  simp [withoutBrackets]

theorem withoutBrackets_bare {host : List Char} (plain : ∀ inner, host ≠ '[' :: (inner ++ [']'])) :
    withoutBrackets host = host := by
  unfold withoutBrackets
  split
  · next rest =>
    refine if_neg fun closed => ?_
    obtain ⟨inner, rfl⟩ := List.getLast?_eq_some_iff.1 closed
    exact plain inner rfl
  · rfl

theorem encloses_iff {written host : List Char} :
    Encloses written host ↔ withoutBrackets written = host := by
  constructor
  · rintro (_ | plain)
    · exact withoutBrackets_brackets host
    · exact withoutBrackets_bare plain
  · rintro rfl
    by_cases paired : ∃ inner, written = '[' :: (inner ++ [']'])
    · obtain ⟨inner, rfl⟩ := paired
      rw [withoutBrackets_brackets]
      exact .brackets inner
    · have plain := not_exists.1 paired
      rw [withoutBrackets_bare plain]
      exact .bare plain

theorem port?_plus (text : List Char) :
    port? ('+' :: text) = (Digits.decimal? text).filter (fun n => n ≤ 65535) := rfl

/-- A plus sign is no digit, so digits alone are read as they are. -/
theorem port?_of_not_plus {text : List Char} (bare : ∀ rest, text ≠ '+' :: rest) :
    port? text = (Digits.decimal? text).filter (fun n => n ≤ 65535) := by
  unfold port?
  split
  · next rest => exact absurd rfl (bare rest)
  · rfl

theorem port?_eq_some_iff {text : List Char} {n : Nat} :
    port? text = some n ↔ Denotes text n ∧ n ≤ 65535 := by
  have decimal (digits : List Char) :
      (Digits.decimal? digits).filter (fun n => n ≤ 65535) = some n ↔
        (digits ≠ [] ∧ (∀ c ∈ digits, c.isDigit = true) ∧ Digits.value digits = n) ∧ n ≤ 65535 := by
    rw [Option.filter_eq_some_iff, Digits.decimal?_eq_some_iff, decide_eq_true_iff]
  by_cases signed : ∃ rest, text = '+' :: rest
  · obtain ⟨rest, rfl⟩ := signed
    rw [port?_plus, decimal]
    constructor
    · rintro ⟨⟨some, digits, rfl⟩, le⟩
      exact ⟨.plus some digits, le⟩
    · rintro ⟨_ | ⟨some, digits⟩, le⟩
      · next digits => cases digits '+' (by simp)
      · exact ⟨⟨some, digits, rfl⟩, le⟩
  · have bare := not_exists.1 signed
    rw [port?_of_not_plus bare, decimal]
    constructor
    · rintro ⟨⟨some, digits, rfl⟩, le⟩
      exact ⟨.digits some digits, le⟩
    · rintro ⟨⟨some, digits⟩ | _, le⟩
      · exact ⟨⟨some, digits, rfl⟩, le⟩
      · next rest _ _ => exact absurd rfl (bare rest)

theorem isHost_iff {host : List Char} :
    isHost host = true ↔ host ≠ [] ∧ ∀ c ∈ host, Text.isBlank c = false := by
  simp [isHost]

/-- **An address has a host and a port exactly when the grammar has them for it**, and they are the
same. -/
theorem parts?_eq_some_iff {text host : List Char} {port : Nat} :
    parts? text = some (host, port) ↔ Names text host port := by
  constructor
  · intro found
    unfold parts? at found
    split at found
    · cases found
    · next before after split_ =>
      split at found
      · cases found
      · next n read =>
        split at found
        · next sound =>
          obtain ⟨rfl, rfl⟩ := Prod.mk.inj (Option.some.inj found)
          simp only [Bool.and_eq_true, decide_eq_true_eq, isHost_iff] at sound
          obtain ⟨text_eq, last⟩ := splitLast_eq_some_iff.1 split_
          obtain ⟨denotes, le⟩ := port?_eq_some_iff.1 read
          exact
            { divided := ⟨before, after, text_eq, last, encloses_iff.2 rfl, denotes⟩
              host_ne_nil := sound.1.1
              solid := sound.1.2
              port_pos := Nat.one_le_iff_ne_zero.2 sound.2
              port_le := le }
        · cases found
  · rintro ⟨⟨before, after, rfl, last, encloses, denotes⟩, some, solid, pos, le⟩
    obtain rfl := encloses_iff.1 encloses
    have sound : (isHost (withoutBrackets before) && decide (port ≠ 0)) = true := by
      simp only [Bool.and_eq_true, decide_eq_true_eq, isHost_iff]
      exact ⟨⟨some, solid⟩, Nat.one_le_iff_ne_zero.1 pos⟩
    simp only [parts?, splitLast_append last, port?_eq_some_iff.2 ⟨denotes, le⟩, sound, if_true]

theorem isValid_iff {text : List Char} :
    isValid text = true ↔ ∃ host port, Names text host port := by
  simp only [isValid, Option.isSome_iff_exists, Prod.exists, parts?_eq_some_iff]

theorem allValid_iff {texts : List String} :
    allValid texts = true ↔ ∀ text ∈ texts, isValid text.toList = true := by
  simp [allValid]

/-- **The sources that are accepted.**  An address is accepted exactly when it is `host:port` for
its last colon, where the port is a number from 1 to 65535 in decimal digits, with any zeros in
front and possibly a plus sign, and the host, without one pair of brackets around it, is not empty
and has no white space.  A list of sources keeps its rule exactly when all of its addresses are
accepted. -/
theorem accepted_iff :
    (∀ text : String, isValid text.toList = true ↔ ∃ host port, Names text.toList host port) ∧
      ∀ texts : List String,
        Settings.require "sources" .sourceAddress (allValid texts) = [] ↔
          ∀ text ∈ texts, isValid text.toList = true := by
  refine ⟨fun text => isValid_iff, fun texts => ?_⟩
  rw [← allValid_iff]
  cases allValid texts <;> simp [Settings.require]

-- Colons in a host, zeros and a sign before a port, brackets that do not pair, and a sign alone.
example :
    (["[::1]:+00080", "::1:65535", "[a:1", "a]:1", "[]a:1"].all fun s => isValid s.toList) = true ∧
      (["[]:1", "a:65536", "a:+", "a:++1", "a:-1", "a: 1", "[a b]:1", ":1", "a:0", "a:1:"].any
        fun s => isValid s.toList) = false := by decide

end FeedCapture.SourceAddress
