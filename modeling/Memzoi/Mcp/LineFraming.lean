/-
# The framing of bounded lines

Source: `memzoi-mcp/src/protocol.rs` (`read_bounded_line`).

The reader takes what its buffer holds, up to a newline, and drops a line as
soon as it is longer than a message. What it has kept is described by the bytes
of the line that it has seen (`Seen`), in whatever parts they came; each turn
takes the description of the bytes before it to the one of the bytes with it
(`Seen.append`). So the lines that repeated calls give are the segments of the
stream, whatever the chunks (`readLines_segments`).
-/

import Memzoi.Lib.Segments
import Memzoi.Mcp.Protocol

namespace Memzoi
namespace Mcp

open Segments

/-- The newline. -/
abbrev lineFeed : UInt8 := 10

/-- What the reader gives for a line: its bytes, if they are not too many. -/
def framed (segment : List UInt8) : BoundedLine :=
  if segment.length ≤ maxJsonrpcMessageBytes then .line segment else .tooLarge

/-- What the reader gives for the last bytes of a stream. -/
def framedEnd (segment : List UInt8) : BoundedLine :=
  if segment = [] then .eof else framed segment

/-- What is kept of the bytes of a line: all of them, or nothing when they are too many. -/
structure Seen (bytes line : List UInt8) (tooLarge : Bool) : Prop where
  overflow : tooLarge = decide (maxJsonrpcMessageBytes < bytes.length)
  kept : line = if tooLarge then [] else bytes

section Turns

variable {bytes line : List UInt8} {tooLarge : Bool}

theorem Seen.nil : Seen [] [] false := ⟨rfl, rfl⟩

/-- A turn that takes in more bytes of the line. -/
theorem Seen.append (h : Seen bytes line tooLarge) (payload : List UInt8) :
    Seen (bytes ++ payload)
      (if (tooLarge || maxJsonrpcMessageBytes < line.length + payload.length) then []
        else line ++ payload)
      (tooLarge || maxJsonrpcMessageBytes < line.length + payload.length) := by
  obtain ⟨hover, hkept⟩ := h
  have hnext : (tooLarge || decide (maxJsonrpcMessageBytes < line.length + payload.length)) =
      decide (maxJsonrpcMessageBytes < (bytes ++ payload).length) := by
    rw [List.length_append]
    cases tooLarge with
    | true =>
        have hmany : maxJsonrpcMessageBytes < bytes.length := of_decide_eq_true hover.symm
        rw [Bool.true_or]
        exact (decide_eq_true (by omega)).symm
    | false =>
        obtain rfl : line = bytes := hkept
        rfl
  refine ⟨hnext, ?_⟩
  split
  · rfl
  · rename_i hfits
    have hsmall : tooLarge = false := by
      cases tooLarge with
      | true => exact absurd (Bool.true_or _) hfits
      | false => rfl
    rw [hkept, hsmall]
    rfl

/-- The answer at the end of a line. -/
theorem Seen.framed (h : Seen bytes line tooLarge) :
    (if tooLarge then BoundedLine.tooLarge else .line line) = framed bytes := by
  obtain ⟨rfl, rfl⟩ := h
  unfold Mcp.framed
  by_cases hmany : maxJsonrpcMessageBytes < bytes.length
  · rw [if_pos (decide_eq_true hmany), if_neg (by omega)]
  · rw [if_neg (by simpa using hmany), if_neg (by simpa using hmany), if_pos (by omega)]

/-- The answer at the end of the stream. -/
theorem Seen.framedEnd (h : Seen bytes line tooLarge) :
    (if tooLarge then BoundedLine.tooLarge else if line = [] then .eof else .line line) =
      framedEnd bytes := by
  unfold Mcp.framedEnd
  by_cases hnil : bytes = []
  · obtain ⟨rfl, rfl⟩ := h
    subst hnil
    rfl
  · rw [if_neg hnil, ← h.framed]
    obtain ⟨-, hkept⟩ := h
    cases tooLarge with
    | true => rfl
    | false =>
        obtain rfl : line = bytes := hkept
        exact if_neg hnil

end Turns

/-- A chunk has no newline, or it is cut at its first one. -/
theorem newline_cases (chunk : List UInt8) :
    (chunk.findIdx? (· = lineFeed) = none ∧ lineFeed ∉ chunk) ∨
      ∃ front rest, chunk = front ++ lineFeed :: rest ∧ lineFeed ∉ front ∧
        chunk.findIdx? (· = lineFeed) = some front.length := by
  induction chunk with
  | nil => exact Or.inl ⟨rfl, List.not_mem_nil⟩
  | cons b chunk ih =>
      by_cases hb : b = lineFeed
      · refine Or.inr ⟨[], chunk, by rw [hb]; rfl, List.not_mem_nil, ?_⟩
        rw [List.findIdx?_cons, if_pos (decide_eq_true hb)]
        rfl
      · have hstep : (b :: chunk).findIdx? (· = lineFeed) =
            (chunk.findIdx? (· = lineFeed)).map (· + 1) := by
          rw [List.findIdx?_cons, if_neg (by simpa using hb)]
        rcases ih with ⟨hnone, hmem⟩ | ⟨front, rest, rfl, hmem, hsome⟩
        · left
          rw [hstep, hnone, List.mem_cons]
          exact ⟨rfl, fun h => h.elim (fun h => hb h.symm) hmem⟩
        · refine Or.inr ⟨b :: front, rest, rfl, ?_, by rw [hstep, hsome]; rfl⟩
          rw [List.mem_cons]
          exact fun h => h.elim (fun h => hb h.symm) hmem

/-- The reader stops at the first newline of the stream, or at its end. -/
theorem readLine_spec {bytes line : List UInt8} {tooLarge : Bool} (h : Seen bytes line tooLarge)
    (chunks : List (List UInt8)) :
    (lineFeed ∉ chunks.flatten ∧
        readLine line tooLarge chunks = (framedEnd (bytes ++ chunks.flatten), [])) ∨
      ∃ front rest left, chunks.flatten = front ++ lineFeed :: rest ∧ lineFeed ∉ front ∧
        List.flatten left = rest ∧
        readLine line tooLarge chunks = (framed (bytes ++ (front ++ [lineFeed])), left) := by
  induction chunks generalizing bytes line tooLarge with
  | nil =>
      left
      refine ⟨List.not_mem_nil, ?_⟩
      rw [List.flatten_nil, List.append_nil, readLine, h.framedEnd]
  | cons chunk chunks ih =>
      rcases newline_cases chunk with ⟨hnone, hmem⟩ | ⟨front, rest, rfl, hmem, hsome⟩
      · -- the whole chunk belongs to the line
        have hstep : readLine line tooLarge (chunk :: chunks) = readLine
            (if (tooLarge || maxJsonrpcMessageBytes < line.length + chunk.length) then []
              else line ++ chunk)
            (tooLarge || maxJsonrpcMessageBytes < line.length + chunk.length) chunks := by
          simp only [readLine, hnone, Option.elim_none, Option.isSome_none, List.take_length,
            Bool.false_eq_true, if_false]
        rw [hstep, List.flatten_cons]
        rcases ih (h.append chunk) with ⟨hrest, hread⟩ |
            ⟨front, rest, left, hflat, hfront, hleft, hread⟩
        · left
          refine ⟨fun hin => (List.mem_append.1 hin).elim hmem hrest, ?_⟩
          rw [hread, List.append_assoc]
        · refine Or.inr ⟨chunk ++ front, rest, left, ?_, ?_, hleft, ?_⟩
          · rw [hflat, List.append_assoc]
          · exact fun hin => (List.mem_append.1 hin).elim hmem hfront
          · rw [hread, List.append_assoc, List.append_assoc]
      · -- the line ends in this chunk
        right
        have htake : (front ++ lineFeed :: rest).take (front.length + 1) = front ++ [lineFeed] := by
          rw [List.take_append, List.take_of_length_le (by omega)]
          simp
        have hdrop : (front ++ lineFeed :: rest).drop (front.length + 1) = rest := by
          rw [List.drop_append, List.drop_of_length_le (by omega)]
          simp
        refine ⟨front, rest ++ chunks.flatten, rest :: chunks, ?_, hmem, rfl, ?_⟩
        · rw [List.flatten_cons, List.append_assoc, List.cons_append]
        · rw [← (h.append (front ++ [lineFeed])).framed]
          simp only [readLine, hsome, Option.elim_some, Option.isSome_some, htake, hdrop, if_true]

/-- A call at the end of the stream, or a line and the rest of the stream. -/
theorem readBoundedLine_spec (chunks : List (List UInt8)) :
    (lineFeed ∉ chunks.flatten ∧
        readBoundedLine chunks = (framedEnd chunks.flatten, [])) ∨
      ∃ front rest left, chunks.flatten = front ++ lineFeed :: rest ∧ lineFeed ∉ front ∧
        List.flatten left = rest ∧
        readBoundedLine chunks = (framed (front ++ [lineFeed]), left) := by
  have h := readLine_spec Seen.nil chunks
  simp only [List.nil_append] at h
  exact h

theorem framed_ne_eof (segment : List UInt8) : framed segment ≠ .eof := by
  unfold framed
  split
  · exact fun h => nomatch h
  · exact fun h => nomatch h

/-- A call that does not reach the end takes bytes from the stream. -/
theorem readBoundedLine_decreases {chunks left : List (List UInt8)} {line : BoundedLine}
    (h : readBoundedLine chunks = (line, left)) (hline : line ≠ .eof) :
    left.flatten.length < chunks.flatten.length := by
  rcases readBoundedLine_spec chunks with ⟨-, hread⟩ | ⟨front, rest, left', hflat, -, hleft, hread⟩
  · obtain ⟨rfl, rfl⟩ := Prod.mk.inj (h.symm.trans hread)
    have hne : chunks.flatten ≠ [] := by
      intro hnil
      exact hline (by rw [hnil]; rfl)
    rw [List.flatten_nil]
    exact List.length_pos_iff.2 hne
  · obtain ⟨-, rfl⟩ := Prod.mk.inj (h.symm.trans hread)
    rw [hleft, hflat, List.length_append, List.length_cons]
    omega

/-- The lines of repeated calls until the end of the stream. -/
def readLines (chunks : List (List UInt8)) : List BoundedLine :=
  match h : readBoundedLine chunks with
  | (.eof, _) => []
  | (.line bytes, left) =>
    have := readBoundedLine_decreases h (fun heq => nomatch heq)
    .line bytes :: readLines left
  | (.tooLarge, left) =>
    have := readBoundedLine_decreases h (fun heq => nomatch heq)
    .tooLarge :: readLines left
termination_by chunks.flatten.length
decreasing_by all_goals assumption

theorem readLines_of_eof {chunks left : List (List UInt8)}
    (h : readBoundedLine chunks = (.eof, left)) : readLines chunks = [] := by
  rw [readLines]
  split
  · rfl
  · rename_i heq
    cases h.symm.trans heq
  · rename_i heq
    cases h.symm.trans heq

theorem readLines_of_line {chunks left : List (List UInt8)} {line : BoundedLine}
    (h : readBoundedLine chunks = (line, left)) (hline : line ≠ .eof) :
    readLines chunks = line :: readLines left := by
  rw [readLines]
  split
  · rename_i heq
    exact absurd (Prod.mk.inj (h.symm.trans heq)).1 hline
  · rename_i heq
    obtain ⟨rfl, rfl⟩ := Prod.mk.inj (h.symm.trans heq)
    rfl
  · rename_i heq
    obtain ⟨rfl, rfl⟩ := Prod.mk.inj (h.symm.trans heq)
    rfl

/-- The lines are the segments of the stream. -/
theorem readLines_segments (chunks : List (List UInt8)) :
    readLines chunks = (segments lineFeed chunks.flatten).map framed := by
  generalize hsize : chunks.flatten.length = size
  induction size using Nat.strong_induction_on generalizing chunks with
  | h size ih =>
      rcases readBoundedLine_spec chunks with ⟨hmem, hread⟩ |
          ⟨front, rest, left, hflat, hfront, hleft, hread⟩
      · by_cases hnil : chunks.flatten = []
        · rw [hnil] at hread ⊢
          exact readLines_of_eof hread
        · rw [framedEnd, if_neg hnil] at hread
          have hend : readLines [] = [] := readLines_of_eof rfl
          rw [readLines_of_line hread (framed_ne_eof _), segments_of_not_mem hnil hmem,
            List.map_singleton, hend]
      · have hsmaller : left.flatten.length < size := by
          rw [← hsize, hleft, hflat, List.length_append, List.length_cons]
          omega
        rw [readLines_of_line hread (framed_ne_eof _), ih _ hsmaller left rfl, hleft, hflat,
          segments_append_delimiter hfront, List.map_cons]

/-- **Bounded line framing**: whatever the chunks, repeated calls give the segments of the stream,
each one verbatim if it fits a message and as a single `tooLarge` if it does not. -/
theorem readLines_framed (chunks : List (List UInt8)) :
    ∃ cut : List (List UInt8), cut.flatten = chunks.flatten ∧
      (∀ segment ∈ cut, segment ≠ [] ∧ lineFeed ∉ segment.dropLast) ∧
      (∀ before segment after, cut = before ++ segment :: after →
        ∀ s ∈ before, s = s.dropLast ++ [lineFeed]) ∧
      readLines chunks = cut.map fun segment =>
        if segment.length ≤ maxJsonrpcMessageBytes then .line segment else .tooLarge :=
  ⟨segments lineFeed chunks.flatten, flatten_segments _, fun _ => segment_of_mem,
    fun _ _ _ => delimiter_of_before, readLines_segments chunks⟩

end Mcp
end Memzoi
