import Mathlib.Data.List.Permutation
import TextArchive.Proofs.Text.Decoding
import TextArchive.Record

/-!
Files of which only the first bytes are read. The text within a limit is a start of the text within
any larger one and of the whole text, and where the file is an encoded text it is the longest start
that fits.
-/

set_option autoImplicit false
set_option relaxedAutoImplicit false

namespace TextArchive.RecordBuilder

open TextArchive.File (Disk Path)
open TextArchive.Text.Utf8

section Capped

private theorem capped_of_pos {n : Nat} (positive : 1 ≤ n) (bytes : Bytes) :
    capped (some n) bytes = bytes.take n := by
  obtain ⟨n, rfl⟩ := Nat.exists_eq_add_of_le' positive
  rfl

private theorem capped_of_unlimited {n : Nat} {bytes : Bytes}
    (unlimited : n = 0 ∨ bytes.length ≤ n) :
    capped (some n) bytes = bytes := by
  rcases Nat.eq_zero_or_pos n with rfl | positive
  · rfl
  · rw [capped_of_pos positive]
    exact List.take_of_length_le (by omega)

private theorem decode_capped_start {n m : Nat} (positive : 1 ≤ n) (le : n ≤ m) (bytes : Bytes) :
    decodeDropping (capped (some n) bytes) <+: decodeDropping (capped (some m) bytes) := by
  have shorter : bytes.take n = (bytes.take m).take n := by rw [List.take_take, Nat.min_eq_left le]
  rw [capped_of_pos positive, capped_of_pos (Nat.le_trans positive le), shorter]
  exact (scans_decodeDropping _).start n

end Capped

private theorem decode_take_encode (s : List Char) (n : Nat) :
    decodeDropping ((encode s).take n) <+: s ∧
    (encode (decodeDropping ((encode s).take n))).length ≤ n ∧
      ∀ p, p <+: s → (encode p).length ≤ n → p <+: decodeDropping ((encode s).take n) := by
  refine ⟨?_, ?_, ?_⟩
  · have start := (scans_decodeDropping (encode s)).start n
    rwa [decodeDropping_encode_self] at start
  · have kept := (scans_decodeDropping ((encode s).take n)).encode_sublist.length_le
    exact Nat.le_trans kept (List.length_take_le n _)
  · rintro p ⟨more, rfl⟩ fits
    rw [encode_append, List.take_append, List.take_of_length_le fits, decodeDropping_encode_append]
    exact List.prefix_append p _

/-- The texts read from one file fit together: a smaller limit gives a start of what a larger one
gives, and every limit a start of the whole text, which a limit of zero or of all bytes gives too.
Of an encoded text a limit gives the longest start whose encoding has no more bytes. -/
theorem texts_within_limits (tag : String) {disk : Disk} {path : Path} {bytes : Bytes}
    (read : disk.read path = .ok bytes) :
    ∃ text : Option Nat → String,
      (∀ limit, (RecordBuilder.mk tag limit).readText disk path = .ok (text limit)) ∧
      (∀ n m, 1 ≤ n → n ≤ m →
        (text (some n)).toList <+: (text (some m)).toList ∧
        (text (some m)).toList <+: (text none).toList) ∧
      (∀ n, n = 0 ∨ bytes.length ≤ n → text (some n) = text none) ∧
      ∀ s, bytes = ofString s → ∀ n, 1 ≤ n → (text (some n)).toList <+: s.toList ∧
        (ofString (text (some n))).length ≤ n ∧
        ∀ p : String, p.toList <+: s.toList → (ofString p).length ≤ n → p.toList <+:
        (text (some n)).toList := by
  refine ⟨fun limit => String.ofList (decodeDropping (capped limit bytes)), fun limit => ?_,
    fun n m positive le => ?_, fun n unlimited => ?_, ?_⟩
  · simp only [readText, read]
  · simp only [String.toList_ofList]
    refine ⟨decode_capped_start positive le bytes, ?_⟩
    rw [capped_of_pos (Nat.le_trans positive le)]
    exact (scans_decodeDropping bytes).start m
  · exact congrArg (fun read => String.ofList (decodeDropping read)) (capped_of_unlimited unlimited)
  · rintro s rfl n positive
    obtain ⟨start, fits, longest⟩ := decode_take_encode s.toList n
    simp only [ofString, capped_of_pos positive, String.toList_ofList]
    exact ⟨start, fits, fun p => longest p.toList⟩

/-- Three bytes of a text of three characters, the last of which takes two. -/
theorem texts_within_limits_of_cut_character :
    let disk : Disk := ⟨[([[97]], .file (.bytes (ofString "abé")))], []⟩
    disk.read ⟨[97]⟩ = .ok (ofString "abé") ∧
    ∃ text : Option Nat → String,
      (RecordBuilder.mk "docs" (some 3)).readText disk ⟨[97]⟩ = .ok (text (some 3)) ∧
      (text (some 3)).toList <+: (text (some 4)).toList ∧ text (some 4) = text none ∧
      (text (some 3)).toList <+: "abé".toList ∧ (ofString (text (some 3))).length ≤ 3 ∧
      "ab".toList <+: (text (some 3)).toList := by
  intro disk
  have read : disk.read ⟨[97]⟩ = .ok (ofString "abé") := by cbv
  obtain ⟨text, reads, grow, unlimited, encoded⟩ := texts_within_limits "docs" read
  obtain ⟨start, fits, longest⟩ := encoded "abé" rfl 3 (by decide)
  exact ⟨read, text, reads _, (grow 3 4 (by decide) (by decide)).1,
    unlimited 4 (.inr (by decide)), start, fits,
    longest "ab" (by decide) (by decide)⟩

end TextArchive.RecordBuilder
