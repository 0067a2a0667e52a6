import Mathlib.Data.List.Permutation
import TextArchive.Proofs.Search.Hiding
import TextArchive.Proofs.Search.RankExpression
import TextArchive.Proofs.Session.Looking

/-!
What is printed of the hits of a search. The lines of the plain output are three for each hit, as
long as no title and no path has a line feed; then the numbers of the hits can be read back from it.
From the output in JSON they can be read back whatever the texts are.
-/

set_option autoImplicit false
set_option relaxedAutoImplicit false

namespace TextArchive

open TextArchive.Number
open TextArchive.Store (Row Storage Table)
open TextArchive.Store.Storage (databasePlace? isTopPath_d lookedInto_eq_databaseAt lookingRefusal?)
open TextArchive.Text.Split (pieces pieces_append_separator pieces_of_no_separator)

namespace Number.Layout

private theorem newline_not_mem_of_digits {cs : List Char} (digits : ∀ c ∈ cs, c.isDigit = true) :
    '\n' ∉ cs := by
  intro member
  have digit := digits '\n' member
  revert digit
  decide

@[simp] theorem newline_not_mem_toDigits (n : Nat) : '\n' ∉ Nat.toDigits 10 n :=
  newline_not_mem_of_digits (isDigits_digitsOf n).digits

@[simp] theorem newline_not_mem_zeros (n : Nat) : '\n' ∉ zeros n :=
  newline_not_mem_of_digits fun _ member => isDigit_of_mem_zeros member

@[simp] theorem newline_not_mem_sign (negative : Bool) : '\n' ∉ sign negative := by
  cases negative <;> decide

@[simp] theorem newline_not_mem_repr (k : Int) : '\n' ∉ k.repr.toList := by
  rw [Int.repr_eq_if]
  split <;> simp

private theorem newline_not_mem_fixed (places : Nat) (x : Float) : '\n' ∉ fixed places x := by
  unfold fixed
  split
  · split
    · decide
    · simp
  · rename_i negative m e _
    have padded : ∀ n, '\n' ∉ zeros n ++ digitsOf (inTenths m e places) := by
      intro n
      simp [digitsOf]
    simp only [List.mem_append, not_or]
    refine ⟨⟨newline_not_mem_sign negative, fun member => padded _ (List.mem_of_mem_take member)⟩, ?_⟩
    split
    · exact List.not_mem_nil
    · simp only [List.mem_cons, not_or]
      exact ⟨by decide, fun member => padded _ (List.mem_of_mem_drop member)⟩

private theorem newline_not_mem_positional {digits wholeEnding : List Char} (clean : '\n' ∉ digits)
    (whole : '\n' ∉ wholeEnding)
    (point : Int) : '\n' ∉ positional digits point wholeEnding := by
  unfold positional
  split
  · simp [clean]
  split
  · simp [clean, whole]
  · have before : '\n' ∉ digits.take point.toNat := fun member =>
      clean (List.mem_of_mem_take member)
    have after : '\n' ∉ digits.drop point.toNat := fun member => clean (List.mem_of_mem_drop member)
    simp [before, after]

private theorem newline_not_mem_exponential {digits : List Char} (clean : '\n' ∉ digits)
    (point : Int) :
    '\n' ∉ exponential digits point := by
  unfold exponential
  split
  · exact List.not_mem_nil
  · simpa using clean
  · simpa using clean

private theorem newline_not_mem_render {style : Style} (whole : '\n' ∉ style.wholeEnding)
    (infinite : '\n' ∉ style.infinite)
    (undefined : '\n' ∉ style.undefined) (x : Float) : '\n' ∉ style.render x := by
  unfold Style.render
  split
  · split
    · exact undefined
    · simp [infinite]
  · simp [whole]
  · rename_i negative m e _ _
    have digits := newline_not_mem_toDigits (Shortest.shortest m e).digits
    rw [List.mem_append, not_or]
    refine ⟨newline_not_mem_sign negative, ?_⟩
    split
    · exact newline_not_mem_positional digits whole _
    · exact newline_not_mem_exponential digits _

end Number.Layout

namespace Command

section Lines

def lines (text : String) : List (List Char) :=
  (pieces (· = '\n') text.toList).dropLast

private theorem pieces_cons_of_ne {c : Char} (other : c ≠ '\n') (cs : List Char) :
    ∃ piece rest, pieces (· = '\n') cs = piece :: rest ∧ pieces (· = '\n')
      (c :: cs) = (c :: piece) :: rest := by
  obtain ⟨piece, rest, start⟩ := List.exists_cons_of_ne_nil
    (Text.Split.pieces_ne_nil (fun c => decide (c = '\n')) cs)
  exact ⟨piece, rest, start, by simp [pieces, other, start]⟩

private theorem length_pieces (cs : List Char) :
    (pieces (· = '\n') cs).length = cs.count '\n' + 1 := by
  induction cs with
  | nil => rfl
  | cons c cs ih =>
    by_cases feed : c = '\n'
    · simp [pieces, feed, ih]
    · obtain ⟨piece, rest, start, whole⟩ := pieces_cons_of_ne feed cs
      rw [whole, List.count_cons_of_ne feed, ← ih, start]
      rfl

private theorem pieces_of_newline_not_mem {cs : List Char} (clean : '\n' ∉ cs) :
    pieces (· = '\n') cs = [cs] :=
  pieces_of_no_separator fun c member => by simpa using fun feed : c = '\n' => clean (feed ▸ member)

private theorem pieces_append_newline (before after : List Char) :
    pieces (· = '\n') (before ++ '\n' :: after) = pieces (· = '\n') before ++ pieces
      (· = '\n') after :=
  pieces_append_separator (by decide) before after

private theorem flatMap_pieces (cs : List Char) :
    (pieces (· = '\n') cs).flatMap (· ++ ['\n']) = cs ++ ['\n'] := by
  induction cs with
  | nil => rfl
  | cons c cs ih =>
    by_cases feed : c = '\n'
    · simp [pieces, feed, ih]
    · obtain ⟨piece, rest, start, whole⟩ := pieces_cons_of_ne feed cs
      rw [whole, List.cons_append, ← ih, start]
      rfl

private theorem toList_join_cons (l : String) (ls : List String) :
    (String.join ((l :: ls).map (· ++ "\n"))).toList =
      l.toList ++ '\n' :: (String.join (ls.map (· ++ "\n"))).toList := by
  simp [String.toList_join]

private theorem lines_join (ls : List String) :
    lines (String.join (ls.map (· ++ "\n"))) = ls.flatMap fun l => pieces (· = '\n') l.toList := by
  have whole : pieces (· = '\n') (String.join (ls.map (· ++ "\n"))).toList =
      (ls.flatMap fun l => pieces (· = '\n') l.toList) ++ [[]] := by
    induction ls with
    | nil => rfl
    | cons l ls ih => rw [toList_join_cons, pieces_append_newline, ih, List.flatMap_cons,
      List.append_assoc]
  rw [lines, whole, List.dropLast_concat]

private theorem flatMap_lines_join (ls : List String) :
    (lines (String.join (ls.map (· ++ "\n")))).flatMap (· ++ ['\n']) = (String.join (ls.map (· ++ "\n"))).toList := by
  rw [lines_join]
  induction ls with
  | nil => rfl
  | cons l ls ih =>
    rw [List.flatMap_cons, List.flatMap_append, flatMap_pieces, ih, toList_join_cons,
      List.append_assoc]
    rfl

end Lines

section Numbers

/-- The number that stands between an opening and a closing of a line, if the line opens so. -/
def numberIn? (opening : List Char) (closing : Char) (line : List Char) : Option Nat :=
  if opening.isPrefixOf line then
    some (Nat.ofDigitChars 10 ((line.drop opening.length).takeWhile (· ≠ closing)) 0)
  else none

private theorem numberIn?_opening {opening : List Char} {closing : Char}
    (other : closing.isDigit = false) (n : Nat)
    (rest : List Char) : numberIn? opening closing
      (opening ++ (Nat.toDigits 10 n ++ closing :: rest)) = some n := by
  have digits : ∀ c ∈ Nat.toDigits 10 n, decide (c ≠ closing) = true := by
    intro c member
    have digit := (Layout.isDigits_digitsOf n).digits c member
    simp only [decide_eq_true_eq]
    rintro rfl
    exact absurd digit (by simp [other])
  have opens : opening.isPrefixOf (opening ++ (Nat.toDigits 10 n ++ closing :: rest)) = true :=
    List.isPrefixOf_iff_prefix.mpr (List.prefix_append _ _)
  rw [numberIn?, if_pos opens, List.drop_left, List.takeWhile_append_of_pos digits,
    List.takeWhile_cons_of_neg (by simp), List.append_nil, Nat.ofDigitChars_ten_toDigits]

private theorem numberIn?_eq_none {opening front : List Char} {n : Nat}
    (reaches : n ≤ opening.length) (long : n ≤ front.length) (apart : opening.take n ≠ front.take n)
    (closing : Char) (rest : List Char) :
    numberIn? opening closing (front ++ rest) = none := by
  refine if_neg fun first => apart ?_
  obtain ⟨more, whole⟩ := List.isPrefixOf_iff_prefix.mp first
  have same : (front ++ rest).take n = front.take n := List.take_append_of_le_length long
  rw [← same, ← whole, List.take_append_of_le_length reaches]

private theorem numberIn?_append_closing {opening : List Char} {closing : Char}
    (other : closing ∉ opening) (line : List Char) :
    numberIn? opening closing (line ++ [closing]) = numberIn? opening closing line := by
  have opens : opening.isPrefixOf (line ++ [closing]) = opening.isPrefixOf line := by
    rw [Bool.eq_iff_iff, List.isPrefixOf_iff_prefix, List.isPrefixOf_iff_prefix,
      List.prefix_concat_iff]
    refine or_iff_right fun whole => other ?_
    rw [whole]
    exact List.mem_append_right _ List.mem_cons_self
  unfold numberIn?
  rw [opens]
  split
  · rename_i first
    have short := (List.isPrefixOf_iff_prefix.mp first).length_le
    rw [List.drop_append_of_le_length short, List.takeWhile_append,
      List.takeWhile_cons_of_neg (by simp), List.append_nil]
    split
    · rename_i all
      rw [List.IsPrefix.eq_of_length (List.takeWhile_prefix _) all]
    · rfl
  · rfl

/-- The first, the fourth and so on, as long as there are three. -/
def firsts {α : Type} : List α → List α
  | a :: _ :: _ :: rest => a :: firsts rest
  | _ => []

/-- The numbers of hits in a plain output: they stand in brackets where the first of three lines
begins. -/
def plainRowids (text : String) : List Nat :=
  (firsts (lines text)).filterMap (numberIn? ['['] ']')

/-- How a line of JSON begins that has the number of a hit. -/
def rowidOpening : List Char :=
  "    \"rowid\": ".toList

/-- The numbers of hits in an output in JSON. -/
def jsonRowids (text : String) : List Nat :=
  (lines text).filterMap (numberIn? rowidOpening ',')

end Numbers

namespace Listing

section Clean

private theorem newline_not_mem_escaped (c : Char) : '\n' ∉ escaped c := by
  have digit : ∀ n < 16, hexDigit n ≠ '\n' := by decide
  by_cases feed : c = '\n'
  · subst feed
    decide
  unfold escaped
  split
  case h_8 =>
    split
    · rename_i control
      have high := digit (c.toNat / 16) (by omega)
      have low := digit (c.toNat % 16) (Nat.mod_lt _ (by decide))
      simp [high.symm, low.symm]
    · simpa [eq_comm] using feed
  all_goals decide

private theorem newline_not_mem_string (text : String) : '\n' ∉ (string text).toList := by
  simp [string, newline_not_mem_escaped]

private theorem newline_not_mem_number (x : Float) : '\n' ∉ (number x).toList := by
  unfold number
  split
  · rw [String.toList_ofList]
    exact Layout.newline_not_mem_render (by decide) (by decide) (by decide) x
  · decide

end Clean

section Plain

/-- No title and no path among the hits has a line feed. -/
def AreOnOneLine (hits : List Hit) : Prop :=
  ∀ h ∈ hits, '\n' ∉ h.title.toList ∧ '\n' ∉ h.sourcePath.toList

private theorem newline_not_mem_onOneLine (text : String) : '\n' ∉ (onOneLine text).toList := by
  rw [onOneLine, String.toList_map, List.mem_map]
  rintro ⟨c, -, feed⟩
  split at feed
  · exact absurd feed (by decide)
  · contradiction

private theorem lines_plain {hits : List Hit} (filled : hits ≠ []) :
    lines (plain hits) = hits.flatMap fun h => (hitLines h).flatMap fun l => pieces
      (· = '\n') l.toList := by
  have listed : hits.isEmpty = false := by simpa using filled
  rw [plain, lines_join, listed, if_neg Bool.false_ne_true, List.flatMap_assoc]

private theorem length_lines_hit (h : Hit) :
    ((hitLines h).flatMap fun l => pieces (· = '\n') l.toList).length =
      3 + (h.title.toList ++ h.sourcePath.toList).count '\n' := by
  have number : (Nat.toDigits 10 h.rowid).count '\n' = 0 :=
    List.count_eq_zero.mpr (Layout.newline_not_mem_toDigits _)
  have score : (Layout.fixed 4 h.score).count '\n' = 0 :=
    List.count_eq_zero.mpr (Layout.newline_not_mem_fixed 4 h.score)
  have first : ("[" ++ toString h.rowid ++ "] score=" ++ String.ofList (Layout.fixed 4 h.score) ++ " "
      ++ h.title).toList.count '\n' = h.title.toList.count '\n' := by
    simp [number, score]
  have second : ("  source=" ++ h.sourcePath).toList.count '\n' = h.sourcePath.toList.count '\n' := by
    simp
  have third : ("  " ++ onOneLine h.snippet).toList.count '\n' = 0 :=
    List.count_eq_zero.mpr (by simp [newline_not_mem_onOneLine])
  simp only [hitLines, List.flatMap_cons, List.flatMap_nil, List.append_nil, List.length_append,
    length_pieces, first, second, third, List.count_append]
  omega

private theorem length_lines_plain {hits : List Hit} (filled : hits ≠ []) :
    (lines (plain hits)).length =
      3 * hits.length + (hits.flatMap fun h => h.title.toList ++ h.sourcePath.toList).count '\n' := by
  rw [lines_plain filled]
  clear filled
  induction hits with
  | nil => rfl
  | cons h hits ih =>
    rw [List.flatMap_cons, List.length_append, length_lines_hit, ih]
    simp only [List.flatMap_cons, List.count_append, List.length_cons]
    omega

private theorem lines_hit {h : Hit} (title : '\n' ∉ h.title.toList)
    (sourcePath : '\n' ∉ h.sourcePath.toList) :
    ((hitLines h).flatMap fun l => pieces (· = '\n') l.toList) = (hitLines h).map String.toList := by
  have each : ∀ l ∈ hitLines h, pieces (· = '\n') l.toList = [l.toList] := by
    have snippet := newline_not_mem_onOneLine h.snippet
    have score := Layout.newline_not_mem_fixed 4 h.score
    intro l member
    refine pieces_of_newline_not_mem ?_
    simp only [hitLines, List.mem_cons, List.not_mem_nil, or_false] at member
    rcases member with rfl | rfl | rfl
    · simp [title, score]
    · simp [sourcePath]
    · simp [snippet]
  rw [List.flatMap_congr each, List.map_eq_flatMap]

private theorem lines_plain_of_one_line {hits : List Hit} (filled : hits ≠ [])
    (clean : AreOnOneLine hits) :
    lines (plain hits) = hits.flatMap fun h => (hitLines h).map String.toList := by
  rw [lines_plain filled]
  exact List.flatMap_congr fun h member => lines_hit (clean h member).1 (clean h member).2

private theorem firsts_flatMap {α β : Type} (first second third : β → α) (bs : List β) :
    firsts (bs.flatMap fun b => [first b, second b, third b]) = bs.map first := by
  induction bs with
  | nil => rfl
  | cons b bs ih => simp [firsts, ih]

private theorem plainRowids_plain {hits : List Hit} (clean : AreOnOneLine hits) :
    plainRowids (plain hits) = hits.map (·.rowid) := by
  by_cases filled : hits = []
  · subst filled
    decide
  have opens : ∀ h : Hit, numberIn? ['['] ']' (("[" ++ toString h.rowid ++ "] score="
      ++ String.ofList (Layout.fixed 4 h.score) ++ " " ++ h.title).toList) = some h.rowid := by
    intro h
    have read : numberIn? ['['] ']' _ = some h.rowid := numberIn?_opening (by decide) h.rowid
      (" score=".toList ++ Layout.fixed 4 h.score ++ ' ' :: h.title.toList)
    simpa using read
  simp only [plainRowids, lines_plain_of_one_line filled clean, hitLines, List.map_cons,
    List.map_nil, firsts_flatMap, List.filterMap_map]
  rw [← List.filterMap_eq_map]
  refine List.filterMap_congr fun h _ => ?_
  simp only [Function.comp_apply, opens]

end Plain

section Json

def rowidsIn (cs : List Char) : List Nat :=
  (pieces (· = '\n') cs).filterMap (numberIn? rowidOpening ',')

private theorem rowidsIn_append_newline (before after : List Char) :
    rowidsIn (before ++ '\n' :: after) = rowidsIn before ++ rowidsIn after := by
  rw [rowidsIn, pieces_append_newline, List.filterMap_append]
  rfl

private theorem jsonRowids_append_newline {text : String} {cs : List Char}
    (ends : text.toList = cs ++ ['\n']) :
    jsonRowids text = rowidsIn cs := by
  have last : pieces (· = '\n') (cs ++ ['\n']) = pieces (· = '\n') cs ++ [[]] :=
    pieces_append_newline cs []
  rw [jsonRowids, lines, ends, last, List.dropLast_concat, rowidsIn]

private theorem rowidsIn_intercalate {texts : List (List Char)}
    (closed : ∀ text ∈ texts, rowidsIn (text ++ [',']) = rowidsIn text) :
    rowidsIn ([',', '\n'].intercalate texts) = texts.flatMap rowidsIn := by
  induction texts with
  | nil => decide
  | cons text texts ih =>
    obtain ⟨first, others⟩ := List.forall_mem_cons.mp closed
    cases texts with
    | nil => simp
    | cons next rest =>
      have cut : [',', '\n'].intercalate (text :: next :: rest) =
          (text ++ [',']) ++ '\n' :: [',', '\n'].intercalate (next :: rest) := by
        simp [List.intercalate_cons_cons]
      rw [cut, rowidsIn_append_newline, first, ih others, ← List.flatMap_cons]

private theorem rowidsIn_of_newline_not_mem {line : List Char} (clean : '\n' ∉ line) :
    rowidsIn line = (numberIn? rowidOpening ',' line).toList := by
  rw [rowidsIn, pieces_of_newline_not_mem clean]
  cases number : numberIn? rowidOpening ',' line with
  | none => rw [List.filterMap_cons_none number]; rfl
  | some n => rw [List.filterMap_cons_some number]; rfl

def memberLines (h : Hit) : List (List Char) :=
  (members h).map fun m => ("    " ++ string m.1 ++ ": " ++ m.2).toList

private theorem object_toList (h : Hit) :
    (object h).toList =
      [' ', ' ', '\x7b'] ++ '\n' ::
        ([',', '\n'].intercalate (memberLines h) ++ '\n' :: [' ', ' ', '\x7d']) := by
  simp [object, memberLines, String.toList_intercalate, Function.comp_def]

private theorem newline_not_mem_memberLines (h : Hit) : ∀ line ∈ memberLines h, '\n' ∉ line := by
  simp [memberLines, members, newline_not_mem_string, newline_not_mem_number]

private theorem rowidsIn_memberLines (h : Hit) : (memberLines h).flatMap rowidsIn = [h.rowid] := by
  have first : numberIn? rowidOpening ',' ("    " ++ string "rowid" ++ ": " ++ toString h.rowid).toList =
      some h.rowid := by
    have opens : ("    " ++ string "rowid" ++ ": " ++ toString h.rowid).toList =
        rowidOpening ++ Nat.toDigits 10 h.rowid := by
      have name : ("    " ++ string "rowid" ++ ": ").toList = rowidOpening := by decide +kernel
      rw [String.toList_append, name]
      simp
    rw [opens, ← numberIn?_append_closing (by decide), List.append_assoc]
    exact numberIn?_opening (by decide) h.rowid []
  have others : ∀ name ∈ ["title", "source_path", "tag", "snippet", "score"], ∀ value : String,
      numberIn? rowidOpening ',' ("    " ++ string name ++ ": " ++ value).toList = none := by
    have apart : ∀ name ∈ ["title", "source_path", "tag", "snippet", "score"],
        6 ≤ ("    " ++ string name ++ ": ").toList.length ∧
          rowidOpening.take 6 ≠ ("    " ++ string name ++ ": ").toList.take 6 := by decide +kernel
    intro name member value
    rw [String.toList_append]
    exact numberIn?_eq_none (by decide) (apart name member).1 (apart name member).2 _ _
  have read : ∀ line ∈ memberLines h, rowidsIn line = (numberIn? rowidOpening ',' line).toList :=
    fun line member => rowidsIn_of_newline_not_mem (newline_not_mem_memberLines h line member)
  rw [List.flatMap_congr read]
  simp only [memberLines, members, List.map_cons, List.map_nil, List.flatMap_cons, List.flatMap_nil, first]
  rw [others "title" (by simp), others "source_path" (by simp), others "tag" (by simp),
    others "snippet" (by simp),
    others "score" (by simp)]
  rfl

private theorem rowidsIn_object_append (h : Hit) {behind : List Char}
    (bare : rowidsIn ([' ', ' ', '\x7d'] ++ behind) = []) :
    rowidsIn ((object h).toList ++ behind) = [h.rowid] := by
  have closed : ∀ line ∈ memberLines h, rowidsIn (line ++ [',']) = rowidsIn line := by
    intro line member
    have clean := newline_not_mem_memberLines h line member
    rw [rowidsIn_of_newline_not_mem clean, rowidsIn_of_newline_not_mem (by simp [clean]),
      numberIn?_append_closing (by decide)]
  have before : rowidsIn [' ', ' ', '\x7b'] = [] := by decide
  have shape : (object h).toList ++ behind =
      [' ', ' ', '\x7b'] ++ '\n' ::
        ([',', '\n'].intercalate (memberLines h) ++ '\n' :: ([' ', ' ', '\x7d'] ++ behind)) := by
    simp [object_toList]
  rw [shape, rowidsIn_append_newline, rowidsIn_append_newline, rowidsIn_intercalate closed,
    rowidsIn_memberLines, before, bare]
  rfl

private theorem rowidsIn_object (h : Hit) : rowidsIn (object h).toList = [h.rowid] := by
  have nothing : rowidsIn ([' ', ' ', '\x7d'] ++ []) = [] := by decide
  rw [← List.append_nil (object h).toList, rowidsIn_object_append h nothing]

private theorem jsonRowids_json (hits : List Hit) :
    jsonRowids (json hits) = hits.map (·.rowid) := by
  unfold json
  split
  · rename_i none
    rw [List.isEmpty_iff.mp none]
    decide
  have shape : ("[\n" ++ String.intercalate ",\n" (hits.map object) ++ "\n]\n").toList =
      (['['] ++ '\n' :: ([',',
        '\n'].intercalate (hits.map fun h => (object h).toList) ++ '\n' :: [']'])) ++ ['\n'] := by
    simp [String.toList_intercalate, Function.comp_def]
  have closed : ∀ text ∈ hits.map fun h => (object h).toList,
    rowidsIn (text ++ [',']) = rowidsIn text := by
    intro text member
    obtain ⟨h, -, rfl⟩ := List.mem_map.mp member
    rw [rowidsIn_object, rowidsIn_object_append h (by decide)]
  have before : rowidsIn ['['] = [] := by decide
  have after : rowidsIn [']'] = [] := by decide
  rw [jsonRowids_append_newline shape, rowidsIn_append_newline, rowidsIn_append_newline,
    rowidsIn_intercalate closed, before, after, List.flatMap_map, List.nil_append, List.append_nil]
  simp only [rowidsIn_object, List.map_eq_flatMap]

end Json

end Listing

open Listing (AreOnOneLine)

private theorem answerSearch_json {s : Storage} {task : SearchTask} {hits : List Hit}
    (found : (answerSearch s task).result = .found hits false) :
    (answerSearch s { task with json := true }).result = .found hits true := by
  obtain ⟨-, plain⟩ := answerSearch_cases s task
  obtain ⟨-, json⟩ := answerSearch_cases s { task with json := true }
  cases file : s.shown.isFile task.db with
  | false =>
    rw [file] at plain
    cases found.symm.trans plain
  | true =>
    cases refusal : s.lookingRefusal? task.db task.collection with
    | some e =>
      rw [file, refusal] at plain
      cases found.symm.trans plain
    | none =>
      rw [file, refusal] at plain json
      obtain ⟨db, looked, result⟩ := plain
      obtain ⟨db', looked', result'⟩ := json
      obtain rfl : db = db' := Except.ok.inj (looked.symm.trans looked')
      rw [result, SearchTask.resultIn] at found
      rw [result', SearchTask.resultIn]
      split at found
      · rename_i answer
        obtain ⟨rfl, -⟩ := Result.found.inj found
        rw [answer]
      · cases found

section Printed

variable {s : Storage} {task : SearchTask} {hits : List Hit}
    (found : (answerSearch s task).result = .found hits false)
  (elapsed : String)
include found

private theorem stdout_plain : ((answerSearch s task).result.output elapsed).stdout =
    Listing.plain hits := by
  rw [found]
  rfl

private theorem stdout_json :
    ((answerSearch s { task with json := true }).result.output elapsed).stdout =
      Listing.json hits := by
  rw [answerSearch_json found]
  rfl

/-- The hits that a search finds can be read back from what it prints of them. In JSON that is so
for all texts. The plain output has a line of its own for no hits. Otherwise it has three lines for
each hit, and another one for each line feed in a title or a path. If there is none, the lines are
those of the hits in their order, and the numbers in them are the same as those in JSON. Line feeds
in contents do not matter. -/
theorem hits_read_back :
    let plain := ((answerSearch s task).result.output elapsed).stdout
    let json := ((answerSearch s { task with json := true }).result.output elapsed).stdout
    plain.toList = (lines plain).flatMap (· ++ ['\n']) ∧
    jsonRowids json = hits.map (·.rowid) ∧
    (hits = [] → lines plain = ["no matches".toList]) ∧
    (hits ≠ [] →
      (lines plain).length =
        3 * hits.length + (hits.flatMap fun h => h.title.toList ++ h.sourcePath.toList).count '\n') ∧
    (AreOnOneLine hits →
      (hits ≠ [] → lines plain = hits.flatMap fun h => (Listing.hitLines h).map String.toList) ∧
      plainRowids plain = jsonRowids json) := by
  intro plain json
  rw [show plain = _ from stdout_plain found elapsed, show json = _ from stdout_json found elapsed,
    Listing.jsonRowids_json]
  refine ⟨?_, rfl, fun none => ?_, Listing.length_lines_plain, fun clean => ⟨fun filled => ?_, ?_⟩⟩
  · rw [Listing.plain, flatMap_lines_join]
  · subst none
    decide
  · exact Listing.lines_plain_of_one_line filled clean
  · exact Listing.plainRowids_plain clean

end Printed

section Keeping

def documents (rows : List Row) : Table :=
  ⟨"documents", .indexed (Store.Database.indexingOf rows), rows⟩

def keeping (rows : List Row) : Storage :=
  ⟨⟨[([[100]], .file (.stored 0))], []⟩, [⟨true, [documents rows]⟩], []⟩

def listingTask : SearchTask :=
  { db := .ofString "/d", query := "", topK := 10, collection := "documents", json := false }

def listedTen (rows : List Row) : List Hit :=
  ((rows.filter Row.isLive).take 10).map (Search.listedAfter 0 "documents")

private theorem answerSearch_keeping (rows : List Row) :
    (answerSearch (keeping rows) listingTask).result = .found (listedTen rows) false := by
  have database : (keeping rows).database 0 = ⟨true, [documents rows]⟩ := rfl
  have file : (keeping rows).shown.isFile (.ofString "/d") = true := by cbv
  have leads : databasePlace? (keeping rows).disk (.ofString "/d") = some [[100]] :=
    isTopPath_d.databasePlace?_eq (by simp [keeping, File.Disk.node?])
  have looked : (keeping rows).lookedInto (.ofString "/d") = .ok ((keeping rows).database 0) := by
    have whole : (File.Path.ofString "/d").bytes.findIdx? (· = 0) = none := by decide +kernel
    simp only [lookedInto_eq_databaseAt isTopPath_d.isFilePath, Store.Storage.databaseAt, whole, leads]
    rfl
  have free : (keeping rows).lookingRefusal? (.ofString "/d") "documents" = none := by
    have named : Store.Name.isName "documents" = true := by decide +kernel
    simp [lookingRefusal?, Store.checkName, named, looked, database, Store.Database.hasTable,
      Table.names, documents]
  obtain ⟨-, cases⟩ := answerSearch_cases (keeping rows) listingTask
  rw [listingTask, file, free] at cases
  obtain ⟨db, same, result⟩ := cases
  obtain rfl : (keeping rows).database 0 = db := Except.ok.inj (looked.symm.trans same)
  have found : ((keeping rows).database 0).find? "documents" = some (.table (documents rows)) := by
    simp [database, Store.Database.find?, documents, Store.Name.same_refl]
  have blank : (Text.trim "".toList).isEmpty = true := by decide +kernel
  have answer := searchAfter_blank found rfl blank (show 1 ≤ 10 by decide) 0
  rw [listingTask, result, SearchTask.resultIn]
  simp only [answer]
  rfl

/-- Two documents, the content of the first with a line feed. -/
theorem hits_read_back_of_two :
    let rows := Row.numberedFrom 1
      [{ title := "a", sourcePath := "/r/a", content := "x\ny" }, { title := "b" }]
    let plain := ((answerSearch (keeping rows) listingTask).result.output "0.00").stdout
    ∃ hits, (answerSearch (keeping rows) listingTask).result = .found hits false ∧ hits.length = 2 ∧ hits ≠ [] ∧
      AreOnOneLine hits ∧
        plain = "[1] score=0.0000 a\n  source=/r/a\n  x y\n[2] score=0.0000 b\n  source=\n  \n" ∧
      (lines plain).length = 6 ∧ plainRowids plain = [1, 2] := by
  intro rows plain
  have found := answerSearch_keeping rows
  have two : (listedTen rows).length = 2 := by decide +kernel
  have filled : listedTen rows ≠ [] := List.ne_nil_of_length_eq_add_one two
  have clean : AreOnOneLine (listedTen rows) := by
    unfold AreOnOneLine
    decide +kernel
  have printed : plain = _ := stdout_plain found "0.00"
  obtain ⟨-, json, -, count, read⟩ := hits_read_back found "0.00"
  refine ⟨_, found, two, filled, clean, ?_, (count filled).trans (by decide +kernel),
    (read clean).2.trans (json.trans (by decide +kernel))⟩
  rw [printed]
  decide +kernel

/-- A document with the name of a file that has line feeds in it is printed as if it were two. -/
theorem one_hit_printed_as_two :
    let name := "a\n\n\n[7] score=0.0000 b"
    let rows := Row.numberedFrom 1 [{ title := name, sourcePath := "/r/" ++ name, content := "hi", tag := "t" }]
    let plain := ((answerSearch (keeping rows) listingTask).result.output "0.00").stdout
    let json :=
      ((answerSearch (keeping rows) { listingTask with json := true }).result.output "0.00").stdout
    (∃ hits, (answerSearch (keeping rows) listingTask).result = .found hits false ∧ hits.length = 1) ∧
      (lines plain).length = 9 ∧ plainRowids plain = [1, 7] ∧ jsonRowids json = [1] := by
  intro name rows plain json
  have found := answerSearch_keeping rows
  rw [show plain = _ from stdout_plain found "0.00", show json = _ from stdout_json found "0.00"]
  have one : (listedTen rows).length = 1 := by decide +kernel
  have nine : (lines (Listing.plain (listedTen rows))).length = 9 := by decide +kernel
  have twice : plainRowids (Listing.plain (listedTen rows)) = [1, 7] := by decide +kernel
  have once : (listedTen rows).map (·.rowid) = [1] := by decide +kernel
  exact ⟨⟨_, found, one⟩, nine, twice, (Listing.jsonRowids_json _).trans once⟩

end Keeping

end Command

end TextArchive
