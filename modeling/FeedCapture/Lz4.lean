import FeedCapture.Message

/-!
# LZ4 frames

The frame format of compressed files: a start, blocks with the content, and a stop.  Blocks are taken
for what they decompress to; written as bytes, they are stored as they are, at most 64 KiB each, and
there is no checksum of the content.

## Main definitions

* `Lz4.Part` — the parts of a frame, with `Lz4.Part.bytes`
* `Lz4.content?` — what parts decompress to, if they are a whole frame
-/

namespace FeedCapture.Lz4

/-- A number as four bytes, the lowest one first. -/
def word (n : Nat) : Bytes := [n, n >>> 8, n >>> 16, n >>> 24].map UInt8.ofNat

/-- The largest size of a block. -/
def blockSize : Nat := 64 * 1024

/-- A part of a frame. -/
inductive Part where
  /-- What every frame begins with. -/
  | start
  /-- A block, with the bytes that it decompresses to. -/
  | block (content : Bytes)
  /-- What every frame ends with. -/
  | stop
deriving DecidableEq, Repr

/-- The bytes of a part.  The start has the magic number, the flags for blocks that do not depend on
each other, the block size, and the checksum of the flags and the block size; a block has its size,
with the highest bit set, and its bytes; the stop is a block of size zero. -/
def Part.bytes : Part → Bytes
  | .start => word 0x184D2204 ++ [0x60, 0x40, 0x82]
  | .block content => word ((1 <<< 31) + content.length) ++ content
  | .stop => word 0

/-- The bytes that the blocks among some parts decompress to. -/
def plain (parts : List Part) : Bytes :=
  parts.flatMap fun part =>
    match part with
    | .block content => content
    | _ => []

/-- The frame around some blocks. -/
def frame (blocks : List Bytes) : List Part := .start :: blocks.map .block ++ [.stop]

/-- What the parts behind a start decompress to, if they end a frame. -/
def contentBehind? : List Part → Option Bytes
  | .block content :: parts => (contentBehind? parts).map fun rest => content ++ rest
  | [.stop] => some []
  | _ => none

/-- What parts decompress to, if they are a whole frame. -/
def content? : List Part → Option Bytes
  | .start :: parts => contentBehind? parts
  | _ => none

theorem contentBehind?_blocks (blocks : List Bytes) :
    contentBehind? (blocks.map .block ++ [.stop]) = some blocks.flatten := by
  induction blocks with
  | nil => rfl
  | cons block blocks ih =>
    rw [List.map_cons, List.cons_append, contentBehind?, ih]
    rfl

/-- A frame decompresses to its blocks. -/
theorem content?_frame (blocks : List Bytes) : content? (frame blocks) = some blocks.flatten :=
  contentBehind?_blocks blocks

theorem stop_mem_of_contentBehind? {parts : List Part} {content : Bytes}
    (h : contentBehind? parts = some content) : .stop ∈ parts := by
  induction parts generalizing content with
  | nil => cases h
  | cons part parts ih =>
    cases part with
    | start => cases h
    | stop => exact List.mem_cons_self ..
    | block bytes =>
      rw [contentBehind?] at h
      obtain ⟨rest, behind, -⟩ := Option.map_eq_some_iff.1 h
      exact List.mem_cons_of_mem _ (ih behind)

/-- A whole frame has a stop. -/
theorem stop_mem_of_content? {parts : List Part} {content : Bytes}
    (h : content? parts = some content) : .stop ∈ parts := by
  unfold content? at h
  split at h
  · exact List.mem_cons_of_mem _ (stop_mem_of_contentBehind? h)
  · cases h

/-- What a frame begins with is a whole frame only if it is all of it. -/
theorem eq_of_content?_of_isPrefix {parts : List Part} {blocks : List Bytes} {content : Bytes}
    (whole : parts <+: frame blocks) (h : content? parts = some content) :
    content = blocks.flatten := by
  have stop := stop_mem_of_content? h
  rw [frame, List.prefix_concat_iff] at whole
  rcases whole with all | early
  · rw [all] at h
    exact Option.some.inj (h.symm.trans (content?_frame blocks))
  · have stop := early.subset stop
    simp at stop

end FeedCapture.Lz4
